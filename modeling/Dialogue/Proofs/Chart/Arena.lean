import Dialogue.Proofs.Chart.Faults
import Dialogue.Proofs.Chart.Walks
/-!
# The arena of a chart

A chart that is built is its definition laid out as a tree in pre-order.  Its places are the
addresses of the definition in their order, what lies inside a state takes the places behind it
without a gap, paths and places determine each other, and each list of transitions is the declared
one with the targets resolved.
-/

namespace Dialogue

namespace StateDef

theorem getElem?_childPlaces (place : Nat) (ds : List StateDef) (i : Nat) :
    (childPlaces place ds)[i]? =
      ds[i]?.map fun d => (d.name, ⟨place + sizeAll (ds.take i)⟩) := by
  induction ds generalizing place i with
  | nil => rfl
  | cons d ds ih =>
    cases i with
    | zero => rfl
    | succ i =>
      rw [childPlaces, List.getElem?_cons_succ, List.getElem?_cons_succ, ih, List.take_succ_cons,
        sizeAll, ← Nat.add_assoc]

theorem Placed.getElem?_childPlaces (p : Placed) (i : Nat) :
    ((childPlaces (p.place.index + 1) p.definition.children).map Prod.snd)[i]? =
      (p.child? i).map Placed.place := by
  rw [List.getElem?_map, StateDef.getElem?_childPlaces, Option.map_map, child?, Option.map_map]
  rfl

end StateDef

namespace ChartDef

open StateDef (Placed)

/-! ## Places and addresses -/

theorem place_of_getElem?_addresses {d : ChartDef} {i : Nat} {a : Address} {p : Placed}
    (ha : (d.addresses .preOrder)[i]? = some a) (hp : d.at? a = some p) : p.place = ⟨i⟩ := by
  have hmap := congrArg (fun ps => ps[i]?) (map_at?_addresses d)
  simp only [List.getElem?_map, ha, Option.map_some, hp] at hmap
  obtain ⟨q, hq, heq⟩ := Option.map_eq_some_iff.mp hmap.symm
  obtain rfl := Option.some.inj heq
  exact place_of_getElem? hq

theorem place_lt_iff {d : ChartDef} {a b : Address} {p q : Placed} (hp : d.at? a = some p)
    (hq : d.at? b = some q) :
    p.place.index < q.place.index ↔ Address.Before .preOrder a b := by
  obtain ⟨i, hi⟩ := List.mem_iff_getElem?.mp (mem_addresses_iff (r := .preOrder).mpr ⟨p, hp⟩)
  obtain ⟨j, hj⟩ := List.mem_iff_getElem?.mp (mem_addresses_iff (r := .preOrder).mpr ⟨q, hq⟩)
  have hbefore : ∀ {i j : Nat} {a b : Address}, (d.addresses .preOrder)[i]? = some a →
      (d.addresses .preOrder)[j]? = some b → i < j → Address.Before .preOrder a b := by
    intro i j a b hi hj hlt
    obtain ⟨hi', rfl⟩ := List.getElem?_eq_some_iff.mp hi
    obtain ⟨hj', rfl⟩ := List.getElem?_eq_some_iff.mp hj
    exact List.pairwise_iff_getElem.mp (d.pairwise_addresses .preOrder) i j hi' hj' hlt
  rw [place_of_getElem?_addresses hi hp, place_of_getElem?_addresses hj hq]
  refine ⟨hbefore hi hj, fun hab => ?_⟩
  rcases Nat.lt_trichotomy i j with hlt | heq | hlt
  · exact hlt
  · subst heq
    obtain rfl := Option.some.inj (hi.symm.trans hj)
    exact absurd hab (Address.before_irrefl _ _)
  · exact absurd hab (Address.before_asymm (hbefore hj hi hlt))

/-! ## Blocks -/

theorem place_mem_block_iff {p : Placed} (id : StateId) :
    (∃ q ∈ p.definition.layout p.parent p.path p.place.index, q.place = id) ↔
      p.place.index ≤ id.index ∧ id.index < p.place.index + p.definition.size := by
  have hmap := StateDef.map_place_layout p.parent p.path p.place.index p.definition
  rw [← List.mem_map, hmap, List.mem_map, ← List.mem_range'_1]
  constructor
  · rintro ⟨i, hi, rfl⟩
    exact hi
  · intro hi
    exact ⟨id.index, hi, rfl⟩

theorem parent?_of_childOf {d : ChartDef} {c : Chart} (h : d.build = .ok c) {q r : Placed}
    (hq : q ∈ d.layout) (hchild : q.ChildOf r) : c.parent? q.place = some r.place := by
  rw [parent?_place_of_build h hq, hchild.parent_eq]
  rfl

section Block

variable {d : ChartDef} {p : Placed} (hp : p ∈ d.layout)
include hp

theorem mem_layout_of_mem_block {q : Placed}
    (hq : q ∈ p.definition.layout p.parent p.path p.place.index) : q ∈ d.layout := by
  obtain ⟨a, ha⟩ := mem_layout_iff.mp hp
  obtain ⟨b, hb⟩ := StateDef.mem_layout_iff.mp hq
  exact mem_layout_iff.mpr ⟨a ++ b, (at?_append ha b).trans hb⟩

variable {c : Chart} (h : d.build = .ok c)
include h

theorem mem_lineage_of_mem_block {q : Placed}
    (hq : q ∈ p.definition.layout p.parent p.path p.place.index) :
    p.place ∈ c.lineage q.place := by
  have hc := wellFormed_of_build h
  induction hn : q.place.index using Nat.strongRecOn generalizing q with
  | ind n ih =>
    rcases StateDef.eq_or_childOf_of_mem_layout hq with rfl | ⟨r, hr, hchild⟩
    · exact Chart.self_mem_lineage c _
    · rw [hc.lineage_of_parent? (parent?_of_childOf h (mem_layout_of_mem_block hp hq) hchild)]
      exact List.mem_cons_of_mem _ (ih r.place.index (hn ▸ hchild.lt) hr rfl)

theorem mem_block_of_mem_lineage {id : StateId} (hid : id ∈ c) (hmem : p.place ∈ c.lineage id) :
    ∃ q ∈ p.definition.layout p.parent p.path p.place.index, q.place = id := by
  have hc := wellFormed_of_build h
  have hself : p ∈ p.definition.layout p.parent p.path p.place.index :=
    StateDef.mem_layout_iff.mpr ⟨[], rfl⟩
  induction id, hid using hc.induction with
  | root =>
    rw [Chart.lineage_root, List.mem_singleton] at hmem
    exact ⟨p, hself, hmem⟩
  | child id parent hparent ih =>
    rw [hc.lineage_of_parent? hparent, List.mem_cons] at hmem
    rcases hmem with heq | hmem
    · exact ⟨p, hself, heq⟩
    · obtain ⟨r, hr, rfl⟩ := ih hmem
      have hlisted := hc.mem_children_iff.mpr hparent
      rw [children_place_of_build h (mem_layout_of_mem_block hp hr), List.mem_map] at hlisted
      obtain ⟨⟨name, id⟩, hlisted, rfl⟩ := hlisted
      obtain ⟨q, hq, hplace, -⟩ := StateDef.exists_child_of_mem_layout hr hlisted
      exact ⟨q, hq, hplace⟩

theorem contains_place_iff (id : StateId) :
    c.contains p.place id ↔
      p.place.index ≤ id.index ∧ id.index < p.place.index + p.definition.size := by
  rw [← place_mem_block_iff]
  constructor
  · intro hcontains
    have hid := Chart.mem_of_contains (place_mem_of_build h hp) hcontains
    exact mem_block_of_mem_lineage hp h hid (Chart.contains_iff.mp hcontains)
  · rintro ⟨q, hq, rfl⟩
    exact Chart.contains_iff.mpr (mem_lineage_of_mem_block hp h hq)

end Block

/-! ## Paths -/

theorem eq_of_path_eq {d : ChartDef} (hvalid : d.Valid) {p q : Placed} (hp : p ∈ d.layout)
    (hq : q ∈ d.layout) (h : p.path = q.path) : p = q := by
  obtain ⟨a, ha⟩ := mem_layout_iff.mp hp
  obtain ⟨b, hb⟩ := mem_layout_iff.mp hq
  obtain rfl := hvalid.distinct ha hb h
  exact Option.some.inj (ha.symm.trans hb)

theorem find?_eq_some_iff {d : ChartDef} {c : Chart} (h : d.build = .ok c) {path : String}
    {id : StateId} : c.find? path = some id ↔ ∃ n, c.node? id = some n ∧ n.path = path := by
  have hfind : c.find? path = (d.layout.find? fun p => p.path = path).map Placed.place := by
    rw [Chart.find?, nodes_of_build h, List.find?_toArray, List.find?_map, Option.map_map]
    rfl
  rw [hfind]
  constructor
  · intro hsome
    obtain ⟨p, hp, rfl⟩ := Option.map_eq_some_iff.mp hsome
    have hpath : p.path = path := by simpa using List.find?_some hp
    exact ⟨_, node?_place_of_build h (List.mem_of_find?_eq_some hp), hpath⟩
  · rintro ⟨n, hn, hpath⟩
    obtain ⟨p, hp, rfl, rfl⟩ := exists_placed_of_node? h hn
    obtain rfl : p.path = path := hpath
    cases hq : d.layout.find? fun q => q.path = p.path with
    | none =>
      have hne := List.find?_eq_none.mp hq p hp
      simp at hne
    | some q =>
      have hpath : q.path = p.path := by simpa using List.find?_some hq
      rw [eq_of_path_eq (valid_of_build h) (List.mem_of_find?_eq_some hq) hp hpath]
      rfl

/-! ## Transitions -/

/-- `text`, as the target of a transition that `p` declares, names the state `id`. -/
def Names (d : ChartDef) (p : Placed) (text : String) (id : StateId) : Prop :=
  ∃ target, Path.Target.parse? text = some target ∧
    ∃ b q, d.at? b = some q ∧ q.path = target.resolve p.path (p.parent.map Prod.snd) ∧
      q.place = id

def aim (d : ChartDef) (p : Placed) (t : TransitionDef) : StateId :=
  ((Path.Target.parse? t.target).bind fun target =>
    place? d.layout (target.resolve p.path (p.parent.map Prod.snd))).getD Chart.root

def resolved (d : ChartDef) (p : Placed) (t : TransitionDef) : Transition where
  guard := t.guard
  target := d.aim p t
  actions := t.actions

section Transitions

variable {d : ChartDef} (hvalid : d.Valid) {a : Address} {p : Placed} (hp : d.at? a = some p)
include hvalid hp

theorem exists_place?_of_valid {kind : EventKind} {t : TransitionDef}
    (ht : (kind, t) ∈ p.definition.transitions) :
    ∃ target id, Path.Target.parse? t.target = some target ∧
      place? d.layout (target.resolve p.path (p.parent.map Prod.snd)) = some id := by
  obtain ⟨target, hparse, b, q, hq, hpath⟩ := hvalid.target hp ht
  obtain ⟨id, hplace⟩ := Option.ne_none_iff_exists'.mp fun hnone =>
    place?_eq_none_iff.mp hnone b q hq hpath
  exact ⟨target, id, hparse, hplace⟩

theorem names_aim {kind : EventKind} {t : TransitionDef}
    (ht : (kind, t) ∈ p.definition.transitions) : d.Names p t.target (d.aim p t) := by
  obtain ⟨target, id, hparse, hplace⟩ := exists_place?_of_valid hvalid hp ht
  have haim : d.aim p t = id := by rw [aim, hparse, Option.bind_some, hplace, Option.getD_some]
  obtain ⟨q, hq, rfl⟩ := Option.map_eq_some_iff.mp hplace
  obtain ⟨b, hb⟩ := mem_layout_iff.mp (List.mem_reverse.mp (List.mem_of_find?_eq_some hq))
  exact ⟨target, hparse, b, q, hb, by simpa using List.find?_some hq, haim.symm⟩

/-- No transition is lost or moved where targets are resolved. -/
theorem transitions_node :
    (node d.layout p).transitions =
      p.definition.transitions.map fun t => (t.1, d.resolved p t.2) := by
  have hresolved : ∀ t ∈ p.definition.transitions,
      transition? d.layout p t = some (t.1, d.resolved p t.2) := by
    intro t ht
    obtain ⟨target, id, hparse, hplace⟩ := exists_place?_of_valid hvalid hp ht
    simp [transition?, resolve, resolved, aim, hparse, hplace]
  rw [← List.filterMap_eq_map]
  exact List.filterMap_congr hresolved

theorem transitionsOn_node (kind : EventKind) :
    (node d.layout p).transitionsOn kind =
      (p.definition.transitionsOn kind).map (d.resolved p) := by
  rw [Node.transitionsOn, transitions_node hvalid hp, StateDef.transitionsOn, List.filterMap_map,
    List.map_filterMap]
  refine List.filterMap_congr fun t _ => ?_
  simp only [Function.comp_apply]
  split <;> rfl

end Transitions

end ChartDef

/-! ## The arena -/

/-- A tree of states in pre-order, whose paths are those of their names and whose lists of
transitions have a catch-all at most at the end. -/
structure Chart.Arena (c : Chart) : Prop extends c.WellFormed where
  id_eq : ∀ {id n}, c.node? id = some n → n.id = id
  parent?_eq_none_iff : ∀ {id}, id ∈ c → (c.parent? id = none ↔ id = Chart.root)
  contiguous : ∀ {id}, id ∈ c → ∃ stop, ∀ inner,
    c.contains id inner ↔ id.index ≤ inner.index ∧ inner.index < stop
  path_root : c.path Chart.root = ""
  path_eq_join : ∀ {id n p}, c.node? id = some n → n.parent = some p →
    n.path = Path.join (c.path p) n.name
  find?_eq_some_iff : ∀ {path id},
    c.find? path = some id ↔ ∃ n, c.node? id = some n ∧ n.path = path
  path_injective : ∀ {id id'}, id ∈ c → id' ∈ c → c.path id = c.path id' → id = id'
  catchAll_last : ∀ {id n kind i t}, c.node? id = some n → (n.transitionsOn kind)[i]? = some t →
    t.guard = none → i + 1 = (n.transitionsOn kind).length

/-- The states of a chart are those of a definition: their places stand in the order of the
addresses, their children in the order of declaration, and each has as many transitions of a kind as
it declares. -/
structure ChartDef.DrawnIn (d : ChartDef) (c : Chart) : Prop where
  mem_iff : ∀ {id}, id ∈ c ↔ ∃ a p, d.at? a = some p ∧ p.place = id
  place_lt_iff : ∀ {a b p q}, d.at? a = some p → d.at? b = some q →
    (p.place.index < q.place.index ↔ Address.Before .preOrder a b)
  node : ∀ {a p}, d.at? a = some p → ∃ n, c.node? p.place = some n ∧
    n.name = p.definition.name ∧ n.path = p.path ∧ n.entry = p.definition.entry ∧
      n.invoke = p.definition.invoke ∧ ∀ kind,
        (n.transitionsOn kind).length = (p.definition.transitionsOn kind).length ∧
          (kind ∈ p.definition.kinds ↔ n.transitionsOn kind ≠ [])
  child : ∀ {a p} i, d.at? a = some p →
    (c.children p.place)[i]? = (d.at? (a ++ [i])).map StateDef.Placed.place
  contains_iff : ∀ {a p inner}, d.at? a = some p → (c.contains p.place inner ↔
    p.place.index ≤ inner.index ∧ inner.index < p.place.index + p.definition.size)

namespace ChartDef

open StateDef (Placed)

theorem path_place_of_build {d : ChartDef} {c : Chart} (h : d.build = .ok c) {p : Placed}
    (hp : p ∈ d.layout) : c.path p.place = p.path := by
  rw [Chart.path, node?_place_of_build h hp]
  rfl

theorem arena {d : ChartDef} {c : Chart} (h : d.build = .ok c) : c.Arena where
  toWellFormed := wellFormed_of_build h
  id_eq hn := by
    obtain ⟨p, -, rfl, rfl⟩ := exists_placed_of_node? h hn
    rfl
  parent?_eq_none_iff {id} hid := by
    constructor
    · intro hnone
      by_contra hne
      obtain ⟨p, hp⟩ := (wellFormed_of_build h).exists_parent hid hne
      rw [hp] at hnone
      cases hnone
    · rintro rfl
      exact (wellFormed_of_build h).parent?_root
  contiguous hid := by
    obtain ⟨p, hp, rfl⟩ := exists_placed_of_mem h hid
    exact ⟨_, contains_place_iff hp h⟩
  path_root := path_place_of_build h (root_placed d)
  path_eq_join hn hparent := by
    obtain ⟨q, hq, rfl, rfl⟩ := exists_placed_of_node? h hn
    obtain ⟨a, ha⟩ := mem_layout_iff.mp hq
    rcases top_or_child?_of_at? ha with ⟨-, rfl⟩ | ⟨b, i, r, -, hr, hchild⟩
    · cases hparent
    · obtain ⟨hrparent, hpath⟩ := Placed.parent_of_child? hchild
      rw [node, hrparent] at hparent
      obtain rfl := Option.some.inj hparent
      rw [path_place_of_build h (mem_layout_iff.mpr ⟨b, hr⟩)]
      exact hpath
  find?_eq_some_iff := find?_eq_some_iff h
  path_injective {id id'} hid hid' heq := by
    obtain ⟨p, hp, rfl⟩ := exists_placed_of_mem h hid
    obtain ⟨q, hq, rfl⟩ := exists_placed_of_mem h hid'
    rw [path_place_of_build h hp, path_place_of_build h hq] at heq
    rw [eq_of_path_eq (valid_of_build h) hp hq heq]
  catchAll_last {id n kind i t} hn ht hguard := by
    obtain ⟨p, hp, rfl, rfl⟩ := exists_placed_of_node? h hn
    obtain ⟨a, ha⟩ := mem_layout_iff.mp hp
    have hlists := transitionsOn_node (valid_of_build h) ha kind
    rw [hlists, List.getElem?_map] at ht
    obtain ⟨t', ht', rfl⟩ := Option.map_eq_some_iff.mp ht
    rw [hlists, List.length_map]
    exact (valid_of_build h).catchAll ha ht' hguard

theorem drawnIn {d : ChartDef} {c : Chart} (h : d.build = .ok c) : d.DrawnIn c where
  mem_iff {id} := by
    constructor
    · intro hid
      obtain ⟨p, hp, hplace⟩ := exists_placed_of_mem h hid
      obtain ⟨a, ha⟩ := mem_layout_iff.mp hp
      exact ⟨a, p, ha, hplace⟩
    · rintro ⟨a, p, ha, rfl⟩
      exact place_mem_of_build h (mem_layout_iff.mpr ⟨a, ha⟩)
  place_lt_iff := place_lt_iff
  node {a p} ha := by
    have hlists := transitionsOn_node (valid_of_build h) ha
    refine ⟨_, node?_place_of_build h (mem_layout_iff.mpr ⟨a, ha⟩), rfl, rfl, rfl, rfl,
      fun kind => ?_⟩
    rw [hlists, List.length_map, Ne, List.map_eq_nil_iff, StateDef.mem_kinds,
      List.eq_nil_iff_forall_not_mem, not_forall]
    simp only [not_not, and_self]
  child {a p} i ha := by
    rw [children_place_of_build h (mem_layout_iff.mpr ⟨a, ha⟩), Placed.getElem?_childPlaces,
      at?_append ha, Placed.at?_singleton]
  contains_iff ha := contains_place_iff (mem_layout_iff.mpr ⟨_, ha⟩) h _

/-- Every chart that is built is a tree in pre-order, and the tree is that of its definition. -/
theorem arena_of_build {d : ChartDef} {c : Chart} (h : d.build = .ok c) :
    c.Arena ∧ d.DrawnIn c :=
  ⟨arena h, drawnIn h⟩

def nestedDefinition : ChartDef where
  initial := "hall"
  states :=
    [((StateDef.compound "hall" "desk").on .click
        [{ target := ".desk", guard := some .never }, { target := "yard" }]).containing
        [StateDef.atomic "door",
          (StateDef.compound "desk" "seat").containing [StateDef.atomic "seat"]],
      StateDef.atomic "yard"]

theorem arena_of_build_nested :
    nestedDefinition.build = .ok nestedDefinition.chart ∧
      nestedDefinition.chart.find? "hall.desk.seat" = some ⟨4⟩ ∧
        nestedDefinition.chart.children ⟨1⟩ = [⟨2⟩, ⟨3⟩] ∧
          nestedDefinition.chart.Arena ∧ nestedDefinition.DrawnIn nestedDefinition.chart := by
  have hbuild := build_eq_ok (d := nestedDefinition) rfl
  refine ⟨hbuild, by decide, by decide, ?_⟩
  exact arena_of_build hbuild

end ChartDef

end Dialogue
