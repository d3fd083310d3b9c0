import Dialogue.Proofs.Chart.Arena
import Dialogue.Proofs.Chart.Renaming
import Mathlib.Data.List.Nodup
import Mathlib.Data.Multiset.Basic
/-!
# Rearranged definitions

The states inside a state may be declared in another order, and so may its lists of transitions for
different kinds of events.  A chart is then built as before, though its states have other places.
What is left of a declared state if places and the order of children are forgotten is the same, and
so each state of one chart has a counterpart in the other: the state with its path.
-/

namespace Dialogue

/-- The second definition declares the states inside the first in another order, at any level, and
the lists of transitions in another order of the kinds of events.  Each list keeps its own order. -/
inductive StateDef.Rearranged : StateDef → StateDef → Prop
  | intro {d d' : StateDef} {inside : List StateDef} (hname : d'.name = d.name)
      (hkind : d'.kind = d.kind) (hentry : d'.entry = d.entry) (hinvoke : d'.invoke = d.invoke)
      (hlists : ∀ kind, d'.transitionsOn kind = d.transitionsOn kind)
      (hinside : List.Forall₂ Rearranged d.children inside)
      (horder : inside.Perm d'.children) : Rearranged d d'

theorem StateDef.sizeOf_lt_of_mem_children {d child : StateDef} (h : child ∈ d.children) :
    sizeOf child < sizeOf d := by
  have hlt := List.sizeOf_lt_of_mem h
  cases d
  simp only [StateDef.mk.sizeOf_spec] at hlt ⊢
  omega

theorem StateDef.Rearranged.refl (d : StateDef) : d.Rearranged d := by
  have hinside : ∀ child ∈ d.children, child.Rearranged child := by
    intro child hchild
    have hlt := sizeOf_lt_of_mem_children hchild
    exact refl child
  exact .intro rfl rfl rfl rfl (fun _ => rfl) (List.forall₂_same.mpr hinside) (.refl _)
termination_by sizeOf d

def ChartDef.Rearranged (d d' : ChartDef) : Prop :=
  d.root.Rearranged d'.root

namespace StateDef

/-! ## Sketches -/

/-- What is declared of a state, wherever it stands and in whatever order its children do. -/
structure Sketch where
  path : String
  parent : Option String
  kind : StateKind
  childNames : Multiset String
  entry : List Action
  invoke : Option (Context → String)
  transitionsOn : EventKind → List TransitionDef

def sketch (d : StateDef) (parent : Option String) (path : String) : Sketch where
  path := path
  parent := parent
  kind := d.kind
  childNames := d.children.map StateDef.name
  entry := d.entry
  invoke := d.invoke
  transitionsOn := d.transitionsOn

def Placed.sketch (p : Placed) : Sketch :=
  p.definition.sketch (p.parent.map Prod.snd) p.path

mutual
def sketches (parent : Option String) (path : String) : StateDef → List Sketch
  | ⟨name, kind, entry, transitions, children, invoke⟩ =>
    sketch ⟨name, kind, entry, transitions, children, invoke⟩ parent path
      :: sketchesAll path children

def sketchesAll (path : String) : List StateDef → List Sketch
  | [] => []
  | d :: ds => sketches (some path) (Path.join path d.name) d ++ sketchesAll path ds
end

theorem sketches_eq (parent : Option String) (path : String) (d : StateDef) :
    d.sketches parent path = d.sketch parent path :: sketchesAll path d.children := by
  cases d
  rfl

theorem sketchesAll_eq_flatMap (path : String) (ds : List StateDef) :
    sketchesAll path ds =
      ds.flatMap fun d => d.sketches (some path) (Path.join path d.name) := by
  induction ds with
  | nil => rfl
  | cons d ds ih => rw [sketchesAll, List.flatMap_cons, ih]

mutual
theorem map_sketch_layout (parent : Option (StateId × String)) (path : String) (place : Nat)
    (d : StateDef) :
    (d.layout parent path place).map Placed.sketch = d.sketches (parent.map Prod.snd) path := by
  match d with
  | ⟨name, kind, entry, transitions, children, invoke⟩ =>
    rw [layout_eq, List.map_cons, map_sketch_layoutAll ⟨place⟩ path (place + 1) children]
    rfl

theorem map_sketch_layoutAll (parent : StateId) (path : String) (place : Nat)
    (ds : List StateDef) :
    (layoutAll parent path place ds).map Placed.sketch = sketchesAll path ds := by
  match ds with
  | [] => rfl
  | d :: ds =>
    rw [layoutAll, List.map_append, sketchesAll,
      map_sketch_layout (some (parent, path)) (Path.join path d.name) place d,
      map_sketch_layoutAll parent path (place + d.size) ds]
    rfl
end

structure Placed.Alike (p p' : Placed) : Prop where
  path_eq : p'.path = p.path
  parentPath_eq : p'.parent.map Prod.snd = p.parent.map Prod.snd
  kind_eq : p'.definition.kind = p.definition.kind
  childNames_perm :
    (p'.definition.children.map StateDef.name).Perm (p.definition.children.map StateDef.name)
  entry_eq : p'.definition.entry = p.definition.entry
  invoke_eq : p'.definition.invoke = p.definition.invoke
  transitionsOn_eq : ∀ kind, p'.definition.transitionsOn kind = p.definition.transitionsOn kind

namespace Placed

variable {p p' : Placed}

theorem alike_of_sketch_eq (h : p'.sketch = p.sketch) : p.Alike p' where
  path_eq := congrArg Sketch.path h
  parentPath_eq := congrArg Sketch.parent h
  kind_eq := congrArg Sketch.kind h
  childNames_perm := Multiset.coe_eq_coe.mp (congrArg Sketch.childNames h)
  entry_eq := congrArg Sketch.entry h
  invoke_eq := congrArg Sketch.invoke h
  transitionsOn_eq := congrFun (congrArg Sketch.transitionsOn h)

theorem Alike.exists_child_iff (h : p.Alike p') (name : String) :
    (∃ child ∈ p'.definition.children, child.name = name) ↔
      ∃ child ∈ p.definition.children, child.name = name := by
  rw [← List.mem_map, ← List.mem_map]
  exact h.childNames_perm.mem_iff

theorem Alike.children_eq_nil_iff (h : p.Alike p') :
    p'.definition.children = [] ↔ p.definition.children = [] := by
  have hlength := h.childNames_perm.length_eq
  rw [List.length_map, List.length_map] at hlength
  rw [← List.length_eq_zero_iff, hlength, List.length_eq_zero_iff]

end Placed

/-! ## Sketches of rearranged definitions -/

theorem Rearranged.name_eq {d d' : StateDef} (h : d.Rearranged d') : d'.name = d.name := by
  cases h with
  | intro hname => exact hname

theorem map_name_of_forall₂ {ds ds' : List StateDef} (h : List.Forall₂ Rearranged ds ds') :
    ds.map StateDef.name = ds'.map StateDef.name := by
  induction h with
  | nil => rfl
  | cons hd _ ih => rw [List.map_cons, List.map_cons, ih, hd.name_eq]

theorem Rearranged.sketch_eq {d d' : StateDef} (h : d.Rearranged d') (parent : Option String)
    (path : String) : d.sketch parent path = d'.sketch parent path := by
  cases h with
  | intro _ hkind hentry hinvoke hlists hinside horder =>
    have hnames : (d.children.map StateDef.name : Multiset String) =
        d'.children.map StateDef.name := by
      rw [map_name_of_forall₂ hinside]
      exact Multiset.coe_eq_coe.mpr (horder.map StateDef.name)
    rw [sketch, sketch, hnames, hkind, hentry, hinvoke, funext hlists]

mutual
theorem Rearranged.perm_sketches {d d' : StateDef} (h : d.Rearranged d')
    (parent : Option String) (path : String) :
    (d.sketches parent path).Perm (d'.sketches parent path) := by
  match d with
  | ⟨name, kind, entry, transitions, children, invoke⟩ =>
    have hhead := h.sketch_eq parent path
    cases h with
    | intro _ _ _ _ _ hinside horder =>
      -- First each child is rearranged in its place, then the children change places.
      have hchildren := perm_sketchesAll hinside path
      rw [sketches_eq, sketches_eq, hhead]
      refine (hchildren.trans ?_).cons _
      rw [sketchesAll_eq_flatMap, sketchesAll_eq_flatMap]
      exact horder.flatMap_right _

theorem perm_sketchesAll {ds ds' : List StateDef} (h : List.Forall₂ Rearranged ds ds')
    (path : String) : (sketchesAll path ds).Perm (sketchesAll path ds') := by
  match ds, h with
  | [], .nil => exact .nil
  | d :: ds, .cons hd hds =>
    rw [sketchesAll, sketchesAll, hd.name_eq]
    exact (hd.perm_sketches (some path) (Path.join path d.name)).append (perm_sketchesAll hds path)
end

/-! ## Initial children -/

theorem exists_child?_of_initialPlace? {p : Placed} {initial : String} {id : StateId}
    (h : initialPlace? (childPlaces (p.place.index + 1) p.definition.children) initial = some id) :
    ∃ i q, p.child? i = some q ∧ q.definition.name = initial ∧ q.place = id := by
  obtain ⟨entry, hfind, rfl⟩ := Option.map_eq_some_iff.mp h
  have hname : entry.1 = initial := by simpa using List.find?_some hfind
  obtain ⟨i, hi⟩ := List.mem_iff_getElem?.mp (List.mem_of_find?_eq_some hfind)
  rw [getElem?_childPlaces] at hi
  obtain ⟨d, hd, rfl⟩ := Option.map_eq_some_iff.mp hi
  exact ⟨i, _, Option.map_eq_some_iff.mpr ⟨d, hd, rfl⟩, hname, rfl⟩

/-! ## What guards and actions tell apart -/

/-- No guard and no action of the state tells an event from what `f` makes of it. -/
structure Ignores (f : Event → Event) (d : StateDef) : Prop where
  entry : ∀ action ∈ d.entry, action.Ignores f
  guard : ∀ t ∈ d.transitions, ∀ g ∈ t.2.guard, g.Ignores f
  actions : ∀ t ∈ d.transitions, ∀ action ∈ t.2.actions, action.Ignores f

theorem ignores_id (d : StateDef) : d.Ignores id where
  entry _ _ _ _ := by rw [Option.map_id, id]
  guard _ _ _ _ _ _ := rfl
  actions _ _ _ _ _ _ := by rw [Option.map_id, id]

end StateDef

/-! ## Impartial definitions -/

structure TransitionDef.Impartial (t : TransitionDef) : Prop where
  guard : ∀ g ∈ t.guard, g.Impartial
  actions : ∀ action ∈ t.actions, action.Impartial

@[simp] theorem TransitionDef.impartial_mk_iff (target : String) (guard : Option Guard)
    (actions : List Action) : Impartial ⟨target, guard, actions⟩ ↔
      (∀ g ∈ guard, g.Impartial) ∧ ∀ action ∈ actions, action.Impartial :=
  ⟨fun h => ⟨h.guard, h.actions⟩, fun h => ⟨h.1, h.2⟩⟩

namespace StateDef

inductive Impartial : StateDef → Prop
  | intro {d : StateDef} (hentry : ∀ action ∈ d.entry, action.Impartial)
      (htransitions : ∀ t ∈ d.transitions, t.2.Impartial)
      (hinside : ∀ child ∈ d.children, Impartial child) : Impartial d

theorem impartial_iff {d : StateDef} :
    d.Impartial ↔ (∀ action ∈ d.entry, action.Impartial) ∧
      (∀ t ∈ d.transitions, t.2.Impartial) ∧ ∀ child ∈ d.children, child.Impartial := by
  constructor
  · intro h
    cases h with
    | intro hentry htransitions hinside => exact ⟨hentry, htransitions, hinside⟩
  · rintro ⟨hentry, htransitions, hinside⟩
    exact .intro hentry htransitions hinside

theorem impartial_of_nil {d : StateDef} (hentry : d.entry = []) (htransitions : d.transitions = [])
    (hinside : d.children = []) : d.Impartial := by
  rw [impartial_iff, hentry, htransitions, hinside]
  exact ⟨List.forall_mem_nil _, List.forall_mem_nil _, List.forall_mem_nil _⟩

@[simp] theorem impartial_atomic (name : String) : (atomic name).Impartial :=
  impartial_of_nil rfl rfl rfl

@[simp] theorem impartial_compound (name initial : String) : (compound name initial).Impartial :=
  impartial_of_nil rfl rfl rfl

@[simp] theorem impartial_history (name : String) : (history name).Impartial :=
  impartial_of_nil rfl rfl rfl

variable (d : StateDef)

@[simp] theorem impartial_onEntry_iff (actions : List Action) :
    (d.onEntry actions).Impartial ↔
      d.Impartial ∧ ∀ action ∈ actions, action.Impartial := by
  rw [impartial_iff, impartial_iff (d := d)]
  simp only [onEntry, List.forall_mem_append]
  tauto

@[simp] theorem impartial_on_iff (kind : EventKind) (ts : List TransitionDef) :
    (d.on kind ts).Impartial ↔ d.Impartial ∧ ∀ t ∈ ts, t.Impartial := by
  rw [impartial_iff, impartial_iff (d := d)]
  simp only [on, List.forall_mem_append, List.forall_mem_map]
  tauto

@[simp] theorem impartial_containing_iff (children : List StateDef) :
    (d.containing children).Impartial ↔
      d.Impartial ∧ ∀ child ∈ children, child.Impartial := by
  rw [impartial_iff, impartial_iff (d := d)]
  simp only [containing, List.forall_mem_append]
  tauto

@[simp] theorem impartial_invoking_iff (subject : Context → String) :
    (d.invoking subject).Impartial ↔ d.Impartial := by
  rw [impartial_iff, impartial_iff (d := d)]
  rfl

variable {d}

theorem Impartial.ignores (h : d.Impartial) (ρ : StateId → StateId) :
    d.Ignores (Event.rename ρ) := by
  cases h with
  | intro hentry htransitions =>
    exact
      { entry action haction := hentry action haction ρ
        guard t ht g hg := (htransitions t ht).guard g hg ρ
        actions t ht action haction := (htransitions t ht).actions action haction ρ }

mutual
theorem Impartial.of_mem_layout {d : StateDef} (h : d.Impartial)
    (parent : Option (StateId × String)) (path : String) (place : Nat) :
    ∀ p ∈ d.layout parent path place, p.definition.Impartial := by
  match d with
  | ⟨name, kind, entry, transitions, children, invoke⟩ =>
    rw [layout_eq, List.forall_mem_cons]
    refine ⟨h, impartial_of_mem_layoutAll ?_ _ _ _⟩
    exact (impartial_iff.mp h).2.2

theorem impartial_of_mem_layoutAll {ds : List StateDef} (h : ∀ d ∈ ds, d.Impartial)
    (parent : StateId) (path : String) (place : Nat) :
    ∀ p ∈ layoutAll parent path place ds, p.definition.Impartial := by
  match ds with
  | [] =>
    intro p hp
    cases hp
  | d :: ds =>
    rw [List.forall_mem_cons] at h
    rw [layoutAll, List.forall_mem_append]
    exact ⟨h.1.of_mem_layout _ _ _, impartial_of_mem_layoutAll h.2 _ _ _⟩
end

end StateDef

namespace ChartDef

open StateDef (Placed)

def SameStates (d d' : ChartDef) : Prop :=
  (d.layout.map Placed.sketch).Perm (d'.layout.map Placed.sketch)

theorem Rearranged.sameStates {d d' : ChartDef} (h : d.Rearranged d') : d.SameStates d' := by
  rw [SameStates, layout, layout, StateDef.map_sketch_layout, StateDef.map_sketch_layout]
  exact StateDef.Rearranged.perm_sketches h none ""

/-! ## Acceptance -/

theorem nodup_map_path_iff {d : ChartDef} :
    (d.layout.map Placed.path).Nodup ↔
      ∀ {a b p q}, d.at? a = some p → d.at? b = some q → p.path = q.path → a = b := by
  have hnodup : (d.addresses .preOrder).Nodup := by
    refine (d.pairwise_addresses .preOrder).imp fun {a b} hlt heq => ?_
    subst heq
    exact Address.before_irrefl _ _ hlt
  have hpaths : (d.layout.map Placed.path).map some =
      (d.addresses .preOrder).map fun a => (d.at? a).map Placed.path := by
    have hmap := congrArg (List.map (Option.map Placed.path)) (map_at?_addresses d)
    simp only [List.map_map] at hmap ⊢
    exact hmap.symm
  rw [← List.nodup_map_iff fun _ _ => Option.some.inj, hpaths,
    List.nodup_map_iff_inj_on hnodup]
  constructor
  · intro h a b p q hp hq hpath
    refine h a (mem_addresses_iff.mpr ⟨p, hp⟩) b (mem_addresses_iff.mpr ⟨q, hq⟩) ?_
    rw [hp, hq, Option.map_some, Option.map_some, hpath]
  · intro h a ha b hb heq
    obtain ⟨p, hp⟩ := mem_addresses_iff.mp ha
    obtain ⟨q, hq⟩ := mem_addresses_iff.mp hb
    rw [hp, hq, Option.map_some, Option.map_some] at heq
    exact h hp hq (Option.some.inj heq)

namespace SameStates

variable {d d' : ChartDef} (h : d.SameStates d')
include h

theorem symm : d'.SameStates d :=
  List.Perm.symm h

theorem length_eq : d'.layout.length = d.layout.length := by
  have hlength := List.Perm.length_eq h
  rwa [List.length_map, List.length_map, eq_comm] at hlength

theorem perm_path : (d.layout.map Placed.path).Perm (d'.layout.map Placed.path) := by
  have hperm := List.Perm.map StateDef.Sketch.path h
  rwa [List.map_map, List.map_map] at hperm

theorem exists_alike {p : Placed} (hp : p ∈ d.layout) : ∃ p' ∈ d'.layout, p.Alike p' := by
  obtain ⟨p', hp', hsketch⟩ := List.mem_map.mp ((List.Perm.mem_iff h).mp (List.mem_map_of_mem hp))
  exact ⟨p', hp', Placed.alike_of_sketch_eq hsketch⟩

theorem exists_alike_of_at? {a : Address} {p : Placed} (hp : d.at? a = some p) :
    ∃ b p', d'.at? b = some p' ∧ p.Alike p' := by
  obtain ⟨p', hp', halike⟩ := h.exists_alike (mem_layout_iff.mpr ⟨a, hp⟩)
  obtain ⟨b, hb⟩ := mem_layout_iff.mp hp'
  exact ⟨b, p', hb, halike⟩

theorem valid (hvalid : d.Valid) : d'.Valid := by
  constructor
  · intro a p' initial hp' hkind
    obtain ⟨b, p, hp, halike⟩ := h.symm.exists_alike_of_at? hp'
    exact (halike.exists_child_iff initial).mp (hvalid.initial hp (halike.kind_eq.trans hkind))
  · intro a p' hp' hkind
    obtain ⟨b, p, hp, halike⟩ := h.symm.exists_alike_of_at? hp'
    refine halike.children_eq_nil_iff.mp (hvalid.leaf hp fun initial => ?_)
    rw [halike.kind_eq]
    exact hkind initial
  · exact nodup_map_path_iff.mp (h.perm_path.nodup (nodup_map_path_iff.mpr hvalid.distinct))
  · intro a p' kind t hp' ht
    obtain ⟨b, p, hp, halike⟩ := h.symm.exists_alike_of_at? hp'
    rw [← StateDef.mem_transitionsOn, ← halike.transitionsOn_eq, StateDef.mem_transitionsOn] at ht
    obtain ⟨target, hparse, b, q, hq, hpath⟩ := hvalid.target hp ht
    obtain ⟨b', q', hq', hqalike⟩ := h.exists_alike_of_at? hq
    refine ⟨target, hparse, b', q', hq', ?_⟩
    rw [hqalike.path_eq, hpath, halike.path_eq, halike.parentPath_eq]
  · intro a p' kind i t hp' ht hguard
    obtain ⟨b, p, hp, halike⟩ := h.symm.exists_alike_of_at? hp'
    rw [← halike.transitionsOn_eq] at ht ⊢
    exact hvalid.catchAll hp ht hguard

end SameStates

theorem exists_build_iff_valid {d : ChartDef} : (∃ c, d.build = .ok c) ↔ d.Valid := by
  constructor
  · rintro ⟨c, hc⟩
    exact valid_of_build hc
  · intro hvalid
    rw [build, valid_iff_problems_eq_nil.mp hvalid]
    exact ⟨_, rfl⟩

theorem SameStates.exists_build_iff {d d' : ChartDef} (h : d.SameStates d') :
    (∃ c, d.build = .ok c) ↔ ∃ c', d'.build = .ok c' := by
  rw [exists_build_iff_valid, exists_build_iff_valid]
  exact ⟨h.valid, h.symm.valid⟩

end ChartDef

/-! ## Counterparts -/

/-- The state of a second chart with the path of a state of a first one.  What is no state of the
first chart stands for itself. -/
def Chart.counterpart (c c' : Chart) (id : StateId) : StateId :=
  ((c.node? id).bind fun n => c'.find? n.path).getD id

theorem Chart.counterpart_of_not_mem {c : Chart} {id : StateId} (hid : id ∉ c) (c' : Chart) :
    c.counterpart c' id = id := by
  rw [counterpart, node?_eq_none hid]
  rfl

namespace ChartDef

open StateDef (Placed)

variable {d d' : ChartDef} {c c' : Chart}

theorem counterpart_place (hc : d.build = .ok c) (hc' : d'.build = .ok c') {p p' : Placed}
    (hp : p ∈ d.layout) (hp' : p' ∈ d'.layout) (hpath : p'.path = p.path) :
    c.counterpart c' p.place = p'.place := by
  have hfind : c'.find? p.path = some p'.place :=
    (find?_eq_some_iff hc').mpr ⟨_, node?_place_of_build hc' hp', hpath⟩
  rw [Chart.counterpart, node?_place_of_build hc hp, Option.bind_some]
  exact congrArg (Option.getD · p.place) hfind

namespace SameStates

variable (h : d.SameStates d') (hc : d.build = .ok c) (hc' : d'.build = .ok c')
include h hc hc'

theorem size_nodes_eq : c'.nodes.size = c.nodes.size := by
  rw [nodes_of_build hc, nodes_of_build hc', List.size_toArray, List.size_toArray, List.length_map,
    List.length_map, h.length_eq]

theorem counterpart_spec {id : StateId} (hid : id ∈ c) :
    c.counterpart c' id ∈ c' ∧ c'.path (c.counterpart c' id) = c.path id := by
  obtain ⟨p, hp, rfl⟩ := exists_placed_of_mem hc hid
  obtain ⟨p', hp', halike⟩ := h.exists_alike hp
  rw [counterpart_place hc hc' hp hp' halike.path_eq, path_place_of_build hc hp,
    path_place_of_build hc' hp']
  exact ⟨place_mem_of_build hc' hp', halike.path_eq⟩

theorem leftInverse_counterpart :
    Function.LeftInverse (c'.counterpart c) (c.counterpart c') := by
  intro id
  by_cases hid : id ∈ c
  · obtain ⟨p, hp, rfl⟩ := exists_placed_of_mem hc hid
    obtain ⟨p', hp', halike⟩ := h.exists_alike hp
    rw [counterpart_place hc hc' hp hp' halike.path_eq,
      counterpart_place hc' hc hp' hp halike.path_eq.symm]
  · have hid' : id ∉ c' := by
      rwa [Chart.mem_def, h.size_nodes_eq hc hc', ← Chart.mem_def]
    rw [Chart.counterpart_of_not_mem hid, Chart.counterpart_of_not_mem hid']

theorem bijective_counterpart : Function.Bijective (c.counterpart c') :=
  ⟨(h.leftInverse_counterpart hc hc').injective,
    (h.symm.leftInverse_counterpart hc' hc).surjective⟩

end SameStates

/-! ## The states of a rearranged chart -/

theorem children_eq_nil_of_build (hc : d.build = .ok c) {p : Placed} (hp : p ∈ d.layout)
    (hkind : ∀ initial, p.definition.kind ≠ .compound initial) : p.definition.children = [] := by
  obtain ⟨a, ha⟩ := mem_layout_iff.mp hp
  exact (valid_of_build hc).leaf ha hkind

/-- The child that is entered first is the one with the path of its name. -/
theorem exists_initial_of_build (hc : d.build = .ok c) {p : Placed} (hp : p ∈ d.layout)
    {initial : String} (hkind : p.definition.kind = .compound initial) :
    ∃ q ∈ d.layout, q.path = Path.join p.path initial ∧
      (node d.layout p).kind = .compound q.place := by
  obtain ⟨a, ha⟩ := mem_layout_iff.mp hp
  obtain ⟨child, hchild, hname⟩ := (valid_of_build hc).initial ha hkind
  have hany : p.definition.children.any fun d => d.name = initial :=
    List.any_eq_true.mpr ⟨child, hchild, decide_eq_true hname⟩
  obtain ⟨id, hid⟩ := Option.isSome_iff_exists.mp
    (StateDef.isSome_initialPlace? (p.place.index + 1) hany)
  obtain ⟨i, q, hq, hname, rfl⟩ := StateDef.exists_child?_of_initialPlace? hid
  refine ⟨q, mem_layout_iff.mpr ⟨a ++ [i], at?_concat_eq_some_iff.mpr ⟨p, ha, hq⟩⟩, ?_, ?_⟩
  · rw [(Placed.parent_of_child? hq).2, hname]
  · simp only [node, hkind, StateDef.nodeKind, hid]

section Alike

variable (hc : d.build = .ok c) (hc' : d'.build = .ok c') {p p' : Placed} (hp : p ∈ d.layout)
  (hp' : p' ∈ d'.layout) (halike : p.Alike p')

theorem parent_eq_none_or {d : ChartDef} {p : Placed} (hp : p ∈ d.layout) :
    p.parent = none ∨ ∃ q ∈ d.layout, p.parent = some (q.place, q.path) := by
  rcases root_or_childOf d hp with ⟨-, hnone⟩ | ⟨q, hq, hchild⟩
  · exact Or.inl hnone
  · exact Or.inr ⟨q, hq, hchild.parent_eq⟩

include hc hc' hp hp' halike

theorem parent_counterpart :
    p'.parent.map Prod.fst = (p.parent.map Prod.fst).map (c.counterpart c') := by
  have hpath := halike.parentPath_eq
  rcases parent_eq_none_or hp with hnone | ⟨q, hq, hsome⟩
  · rw [hnone, Option.map_none, Option.map_eq_none_iff] at hpath
    rw [hnone, hpath]
    rfl
  · rcases parent_eq_none_or hp' with hnone' | ⟨q', hq', hsome'⟩
    · rw [hsome, hnone'] at hpath
      cases hpath
    · rw [hsome, hsome'] at hpath ⊢
      exact congrArg some (counterpart_place hc hc' hq hq' (Option.some.inj hpath)).symm

theorem kind_counterpart :
    (node d'.layout p').kind = (node d.layout p).kind.rename (c.counterpart c') := by
  cases hkind : p.definition.kind with
  | atomic =>
    have hkind' := halike.kind_eq.trans hkind
    simp only [node, hkind, hkind', StateDef.nodeKind, NodeKind.rename]
  | history =>
    have hkind' := halike.kind_eq.trans hkind
    have hnil := children_eq_nil_of_build hc hp (by simp [hkind])
    have hnil' := halike.children_eq_nil_iff.mpr hnil
    simp only [node, hkind, hkind', hnil, hnil', StateDef.childPlaces, StateDef.nodeKind,
      List.isEmpty_nil, if_true, NodeKind.rename]
  | compound initial =>
    obtain ⟨q, hq, hpath, hcompound⟩ := exists_initial_of_build hc hp hkind
    obtain ⟨q', hq', hpath', hcompound'⟩ :=
      exists_initial_of_build hc' hp' (halike.kind_eq.trans hkind)
    have hsame : q'.path = q.path := by rw [hpath', hpath, halike.path_eq]
    rw [hcompound, hcompound', NodeKind.rename, counterpart_place hc hc' hq hq' hsame]

theorem aim_counterpart {kind : EventKind} {t : TransitionDef}
    (ht : t ∈ p.definition.transitionsOn kind) :
    d'.aim p' t = c.counterpart c' (d.aim p t) := by
  obtain ⟨a, ha⟩ := mem_layout_iff.mp hp
  obtain ⟨a', ha'⟩ := mem_layout_iff.mp hp'
  obtain ⟨target, hparse, b, q, hq, hpath, hplace⟩ :=
    names_aim (valid_of_build hc) ha (StateDef.mem_transitionsOn.mp ht)
  rw [← halike.transitionsOn_eq] at ht
  obtain ⟨target', hparse', b', q', hq', hpath', hplace'⟩ :=
    names_aim (valid_of_build hc') ha' (StateDef.mem_transitionsOn.mp ht)
  obtain rfl := Option.some.inj (hparse.symm.trans hparse')
  have hsame : q'.path = q.path := by rw [hpath', hpath, halike.path_eq, halike.parentPath_eq]
  rw [← hplace, ← hplace', counterpart_place hc hc' (mem_layout_iff.mpr ⟨b, hq⟩)
    (mem_layout_iff.mpr ⟨b', hq'⟩) hsame]

theorem resolved_renamed {f : Event → Event} {kind : EventKind} {t : TransitionDef}
    (ht : t ∈ p.definition.transitionsOn kind)
    (hguard : ∀ g ∈ t.guard, g.Ignores (f ∘ Event.rename (c.counterpart c')))
    (hactions : ∀ action ∈ t.actions, action.Ignores (f ∘ Event.rename (c.counterpart c'))) :
    (d.resolved p t).Renamed (c.counterpart c') ((d'.resolved p' t).showing f) where
  target_eq := aim_counterpart hc hc' hp hp' halike ht
  enabled_eq ctx event := by
    rw [Transition.enabled_showing]
    exact Transition.enabled_of_ignores (t := d.resolved p t) hguard ctx event
  actions event ctx := by
    have hshown : ((d'.resolved p' t).showing f).actions = t.actions.map (Action.showing f) := rfl
    rw [hshown, Action.runAll_showing, Option.map_map]
    exact Action.runAll_of_ignores _ event hactions ctx

/-- The counterpart of a state is the state itself with all numbers exchanged, if its guards and
actions are shown events that they do not tell from the original ones. -/
theorem node_renamed {f : Event → Event}
    (hf : p.definition.Ignores (f ∘ Event.rename (c.counterpart c'))) :
    (node d.layout p).Renamed (c.counterpart c') ((node d'.layout p').showing f) where
  path_eq := halike.path_eq
  parent_eq := parent_counterpart hc hc' hp hp' halike
  kind_eq := kind_counterpart hc hc' hp hp' halike
  invoke_eq := halike.invoke_eq
  entry := by
    intro event ctx
    have hentry : ((node d'.layout p').showing f).entry =
        p.definition.entry.map (Action.showing f) :=
      congrArg (List.map (Action.showing f)) halike.entry_eq
    rw [hentry, Action.runAll_showing, Option.map_map]
    exact Action.runAll_of_ignores _ event hf.entry ctx
  transitionsOn := by
    intro kind
    obtain ⟨a, ha⟩ := mem_layout_iff.mp hp
    obtain ⟨a', ha'⟩ := mem_layout_iff.mp hp'
    rw [Node.transitionsOn_showing, transitionsOn_node (valid_of_build hc') ha',
      transitionsOn_node (valid_of_build hc) ha, halike.transitionsOn_eq, List.map_map,
      List.forall₂_map_left_iff, List.forall₂_map_right_iff, List.forall₂_same]
    intro t ht
    have hdeclared := StateDef.mem_transitionsOn.mp ht
    exact resolved_renamed hc hc' hp hp' halike ht (hf.guard _ hdeclared) (hf.actions _ hdeclared)

end Alike

def Ignores (f : Event → Event) (d : ChartDef) : Prop :=
  ∀ p ∈ d.layout, p.definition.Ignores f

/-- No guard and no action looks at the number of the state that a ticket is for. -/
def Impartial (d : ChartDef) : Prop :=
  ∀ ρ, d.Ignores (Event.rename ρ)

theorem impartial_of_states (h : ∀ s ∈ d.states, s.Impartial) : d.Impartial := by
  have hroot : d.root.Impartial := by
    rw [root, StateDef.impartial_containing_iff]
    exact ⟨StateDef.impartial_compound _ _, h⟩
  exact fun ρ p hp => (hroot.of_mem_layout none "" 0 p hp).ignores ρ

theorem SameStates.renamed (h : d.SameStates d') (hc : d.build = .ok c) (hc' : d'.build = .ok c')
    {f : Event → Event} (hf : d.Ignores (f ∘ Event.rename (c.counterpart c'))) :
    c.Renamed (c.counterpart c') (c'.showing f) where
  wellFormed := wellFormed_of_build hc
  wellFormed' := (wellFormed_of_build hc').showing f
  injective := (h.bijective_counterpart hc hc').injective
  root_eq := counterpart_place hc hc' (root_placed d) (root_placed d') rfl
  size_eq := (Chart.size_showing f c').trans (h.size_nodes_eq hc hc')
  node?_cases id := by
    by_cases hid : id ∈ c
    · obtain ⟨p, hp, rfl⟩ := exists_placed_of_mem hc hid
      obtain ⟨p', hp', halike⟩ := h.exists_alike hp
      refine Or.inr ⟨_, _, node?_place_of_build hc hp, ?_,
        node_renamed hc hc' hp hp' halike (hf p hp)⟩
      rw [counterpart_place hc hc' hp hp' halike.path_eq, Chart.node?_showing,
        node?_place_of_build hc' hp', Option.map_some]
    · have hid' : id ∉ c' := by
        rwa [Chart.mem_def, h.size_nodes_eq hc hc', ← Chart.mem_def]
      rw [Chart.counterpart_of_not_mem hid, Chart.node?_showing,
        Chart.node?_eq_none hid, Chart.node?_eq_none hid']
      exact Or.inl ⟨rfl, rfl⟩

end ChartDef

end Dialogue
