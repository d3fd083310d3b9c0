import Dialogue.Proofs.Chart.Layout
/-!
# Well-formed charts

What the engine relies on in a chart: the states form a tree whose parents stand before their
children, a compound state is one with children, the state entered first is one of them, and no
transition leads out of the chart.  Every chart that is built is well formed.
-/

namespace Dialogue

namespace Chart

instance : Membership StateId Chart :=
  ⟨fun c id => id.index < c.nodes.size⟩

def children (c : Chart) (id : StateId) : List StateId :=
  ((c.node? id).map Node.children).getD []

structure WellFormed (c : Chart) : Prop where
  root_mem : root ∈ c
  parent?_root : c.parent? root = none
  exists_parent : ∀ {id}, id ∈ c → id ≠ root → ∃ p, c.parent? id = some p
  parent_lt : ∀ {id p}, c.parent? id = some p → p.index < id.index
  mem_children_iff : ∀ {id p}, id ∈ c.children p ↔ c.parent? id = some p
  isCompound_iff : ∀ {id}, c.isCompound id ↔ c.children id ≠ []
  initial?_mem : ∀ {id child}, c.initial? id = some child → child ∈ c.children id
  target_mem : ∀ {id n t}, c.node? id = some n → t ∈ n.transitions → t.2.target ∈ c

theorem mem_def {c : Chart} {id : StateId} : id ∈ c ↔ id.index < c.nodes.size :=
  Iff.rfl

theorem mem_iff_exists_node? {c : Chart} {id : StateId} : id ∈ c ↔ ∃ n, c.node? id = some n := by
  rw [mem_def, node?]
  constructor
  · intro h
    exact ⟨_, Array.getElem?_eq_getElem h⟩
  · rintro ⟨n, hn⟩
    exact (Array.getElem?_eq_some_iff.mp hn).1

theorem node?_eq_none {c : Chart} {id : StateId} (hid : id ∉ c) : c.node? id = none :=
  Array.getElem?_eq_none (Nat.not_lt.mp hid)

theorem mem_of_parent? {c : Chart} {id p : StateId} (h : c.parent? id = some p) : id ∈ c := by
  obtain ⟨n, hn, -⟩ := Option.bind_eq_some_iff.mp h
  exact mem_iff_exists_node?.mpr ⟨n, hn⟩

theorem isCompound_iff_kind {c : Chart} {id : StateId} {n : Node} (hn : c.node? id = some n) :
    c.isCompound id ↔ ∃ child, n.kind = .compound child := by
  rw [isCompound, hn, Option.any_some, Node.isCompound]
  cases n.kind <;> simp

theorem isCompound_iff_initial? {c : Chart} {id : StateId} :
    c.isCompound id ↔ ∃ child, c.initial? id = some child := by
  cases hn : c.node? id with
  | none => simp [isCompound, initial?, hn]
  | some n =>
    rw [isCompound_iff_kind hn, initial?, hn, Option.bind_some]
    cases n.kind <;> simp

end Chart

namespace ChartDef

open StateDef (Placed)

/-! ## Charts that are built -/

theorem map_place_layout (d : ChartDef) :
    d.layout.map Placed.place = (List.range d.layout.length).map StateId.mk := by
  have hmap := StateDef.map_place_layout none "" 0 d.root
  have hlength : d.layout.length = d.root.size := by
    simpa [layout] using congrArg List.length hmap
  rw [hlength, List.range_eq_range']
  exact hmap

theorem place_of_getElem? {d : ChartDef} {i : Nat} {p : Placed} (h : d.layout[i]? = some p) :
    p.place = ⟨i⟩ := by
  have hi : i < d.layout.length := (List.getElem?_eq_some_iff.mp h).1
  have hmap := congrArg (fun places => places[i]?) (map_place_layout d)
  simp only [List.getElem?_map, h, List.getElem?_range hi, Option.map_some] at hmap
  exact Option.some.inj hmap

theorem getElem?_of_mem {d : ChartDef} {p : Placed} (h : p ∈ d.layout) :
    d.layout[p.place.index]? = some p := by
  obtain ⟨i, hi⟩ := List.mem_iff_getElem?.mp h
  rw [place_of_getElem? hi, hi]

theorem eq_of_place_eq {d : ChartDef} {p q : Placed} (hp : p ∈ d.layout) (hq : q ∈ d.layout)
    (h : p.place = q.place) : p = q := by
  have hget := getElem?_of_mem hp
  rw [h, getElem?_of_mem hq] at hget
  exact (Option.some.inj hget).symm

section Build

variable {d : ChartDef} {c : Chart}

theorem problems_of_build (h : d.build = .ok c) : d.problems = [] := by
  unfold build at h
  split at h
  · next hnil => exact hnil
  · cases h

theorem build_eq_ok (h : d.problems = []) : d.build = .ok d.chart := by
  rw [build, h]

theorem eq_chart_of_build (h : d.build = .ok c) : c = d.chart := by
  rw [build_eq_ok (problems_of_build h)] at h
  exact (Except.ok.inj h).symm

theorem nodes_of_build (h : d.build = .ok c) :
    c.nodes = (d.layout.map (node d.layout)).toArray := by
  rw [eq_chart_of_build h, chart]

theorem node?_of_build (h : d.build = .ok c) (id : StateId) :
    c.node? id = (d.layout[id.index]?).map (node d.layout) := by
  rw [Chart.node?, nodes_of_build h, List.getElem?_toArray, List.getElem?_map]

theorem node?_place_of_build (h : d.build = .ok c) {p : Placed} (hp : p ∈ d.layout) :
    c.node? p.place = some (node d.layout p) := by
  rw [node?_of_build h, getElem?_of_mem hp]
  rfl

theorem exists_placed_of_node? (h : d.build = .ok c) {id : StateId} {n : Node}
    (hn : c.node? id = some n) : ∃ p ∈ d.layout, p.place = id ∧ n = node d.layout p := by
  rw [node?_of_build h] at hn
  obtain ⟨p, hp, rfl⟩ := Option.map_eq_some_iff.mp hn
  exact ⟨p, List.mem_of_getElem? hp, place_of_getElem? hp, rfl⟩

theorem place_mem_of_build (h : d.build = .ok c) {p : Placed} (hp : p ∈ d.layout) :
    p.place ∈ c :=
  Chart.mem_iff_exists_node?.mpr ⟨_, node?_place_of_build h hp⟩

theorem exists_placed_of_mem (h : d.build = .ok c) {id : StateId} (hid : id ∈ c) :
    ∃ p ∈ d.layout, p.place = id := by
  obtain ⟨n, hn⟩ := Chart.mem_iff_exists_node?.mp hid
  obtain ⟨p, hp, hplace, -⟩ := exists_placed_of_node? h hn
  exact ⟨p, hp, hplace⟩

theorem parent?_place_of_build (h : d.build = .ok c) {p : Placed} (hp : p ∈ d.layout) :
    c.parent? p.place = p.parent.map Prod.fst := by
  rw [Chart.parent?, node?_place_of_build h hp]
  rfl

theorem children_place_of_build (h : d.build = .ok c) {p : Placed} (hp : p ∈ d.layout) :
    c.children p.place =
      (StateDef.childPlaces (p.place.index + 1) p.definition.children).map Prod.snd := by
  rw [Chart.children, node?_place_of_build h hp]
  rfl

theorem shapeProblem_of_build (h : d.build = .ok c) {p : Placed} (hp : p ∈ d.layout) :
    StateDef.shapeProblem p.path p.definition.kind p.definition.children = [] := by
  have hproblems := problems_of_build h
  simp only [problems, List.append_eq_nil_iff] at hproblems
  exact StateDef.shapeProblem_of_mem_layout hproblems.1.1 hp

/-- A state has no parent if it is the root; else its parent stands before it and lists it. -/
theorem root_or_childOf (d : ChartDef) {q : Placed} (hq : q ∈ d.layout) :
    (q.place = Chart.root ∧ q.parent = none) ∨ ∃ p ∈ d.layout, q.ChildOf p := by
  rcases StateDef.eq_or_childOf_of_mem_layout hq with rfl | hchild
  · exact Or.inl ⟨rfl, rfl⟩
  · exact Or.inr hchild

theorem root_placed (d : ChartDef) :
    (⟨Chart.root, "", none, d.root⟩ : Placed) ∈ d.layout := by
  rw [layout, StateDef.layout_eq]
  exact List.mem_cons_self

theorem place_mem_of_place? {layout : List Placed} {path : String} {id : StateId}
    (h : place? layout path = some id) : ∃ p ∈ layout, p.place = id := by
  obtain ⟨p, hp, rfl⟩ := Option.map_eq_some_iff.mp h
  exact ⟨p, List.mem_reverse.mp (List.mem_of_find?_eq_some hp), rfl⟩

theorem target_placed_of_transition? {layout : List Placed} {state : Placed}
    {t : EventKind × TransitionDef} {t' : EventKind × Transition}
    (h : transition? layout state t = some t') : ∃ p ∈ layout, p.place = t'.2.target := by
  unfold transition? at h
  split at h
  · cases h
  · next target htarget =>
    obtain rfl := Option.some.inj h
    unfold resolve at htarget
    split at htarget
    · cases htarget
    · split at htarget
      · cases htarget
      · next hplace =>
        obtain rfl := Except.ok.inj htarget
        exact place_mem_of_place? hplace

end Build

theorem mem_children_iff_of_build {d : ChartDef} {c : Chart} (h : d.build = .ok c)
    {id p : StateId} : id ∈ c.children p ↔ c.parent? id = some p := by
  constructor
  · intro hid
    have hp : p ∈ c := by
      rw [Chart.mem_iff_exists_node?]
      cases hnode : c.node? p with
      | none => simp [Chart.children, hnode] at hid
      | some n => exact ⟨n, rfl⟩
    obtain ⟨placed, hplaced, rfl⟩ := exists_placed_of_mem h hp
    rw [children_place_of_build h hplaced, List.mem_map] at hid
    obtain ⟨⟨name, id⟩, hlisted, rfl⟩ := hid
    obtain ⟨q, hq, hplace, hparent⟩ := StateDef.exists_child_of_mem_layout hplaced hlisted
    rw [← hplace, parent?_place_of_build h hq, hparent]
    rfl
  · intro hparent
    obtain ⟨q, hq, rfl⟩ := exists_placed_of_mem h (Chart.mem_of_parent? hparent)
    rw [parent?_place_of_build h hq] at hparent
    rcases root_or_childOf d hq with ⟨-, hnone⟩ | ⟨placed, hplaced, hchild⟩
    · simp [hnone] at hparent
    · rw [hchild.parent_eq] at hparent
      obtain rfl := Option.some.inj hparent
      rw [children_place_of_build h hplaced]
      exact List.mem_map_of_mem hchild.listed

theorem isCompound_iff_of_build {d : ChartDef} {c : Chart} (h : d.build = .ok c)
    {id : StateId} : c.isCompound id ↔ c.children id ≠ [] := by
  by_cases hid : id ∈ c
  · obtain ⟨p, hp, rfl⟩ := exists_placed_of_mem h hid
    rw [Chart.isCompound_iff_kind (node?_place_of_build h hp), children_place_of_build h hp,
      ne_eq, List.map_eq_nil_iff, StateDef.childPlaces_eq_nil_iff]
    exact StateDef.exists_nodeKind_eq_compound_iff (shapeProblem_of_build h hp) _
  · simp [Chart.isCompound, Chart.children, Chart.node?_eq_none hid]

theorem wellFormed_of_build {d : ChartDef} {c : Chart} (h : d.build = .ok c) : c.WellFormed where
  root_mem := place_mem_of_build h (root_placed d)
  parent?_root := parent?_place_of_build h (root_placed d)
  exists_parent := by
    intro id hid hne
    obtain ⟨q, hq, rfl⟩ := exists_placed_of_mem h hid
    rcases root_or_childOf d hq with ⟨hroot, -⟩ | ⟨p, -, hchild⟩
    · exact absurd hroot hne
    · exact ⟨p.place, by rw [parent?_place_of_build h hq, hchild.parent_eq]; rfl⟩
  parent_lt := by
    intro id p hparent
    obtain ⟨q, hq, rfl⟩ := exists_placed_of_mem h (Chart.mem_of_parent? hparent)
    rw [parent?_place_of_build h hq] at hparent
    rcases root_or_childOf d hq with ⟨-, hnone⟩ | ⟨placed, -, hchild⟩
    · simp [hnone] at hparent
    · rw [hchild.parent_eq] at hparent
      obtain rfl := Option.some.inj hparent
      exact hchild.lt
  mem_children_iff := mem_children_iff_of_build h
  isCompound_iff := isCompound_iff_of_build h
  initial?_mem := by
    intro id child hinitial
    obtain ⟨n, hn, hkind⟩ := Option.bind_eq_some_iff.mp hinitial
    obtain ⟨p, hp, rfl, rfl⟩ := exists_placed_of_node? h hn
    rw [children_place_of_build h hp]
    split at hkind
    · next hcompound =>
      obtain rfl := Option.some.inj hkind
      exact StateDef.mem_of_nodeKind_eq_compound hcompound
    · cases hkind
  target_mem := by
    intro id n t hn ht
    obtain ⟨p, hp, rfl, rfl⟩ := exists_placed_of_node? h hn
    obtain ⟨t', -, ht'⟩ := List.mem_filterMap.mp ht
    obtain ⟨q, hq, htarget⟩ := target_placed_of_transition? ht'
    rw [← htarget]
    exact place_mem_of_build h hq

end ChartDef

end Dialogue
