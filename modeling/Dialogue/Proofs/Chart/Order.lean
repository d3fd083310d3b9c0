import Dialogue.Proofs.Chart.Arena
import Mathlib.Order.Interval.Finset.Nat
/-!
# The order of states

A state contains itself and what is declared inside it.  That orders the states of a chart: the root
comes first, and what contains a state stands in one row, outermost first.  The walk between two
states is the one way from child to child, the walk to the state that is entered is such a way, and
what a state contains stands in one block behind it.
-/

namespace Dialogue

namespace Chart

/-- `chain` leads down from `outer` to `inner`, each of its states a child of the one before. -/
inductive ChildChain (c : Chart) : StateId → List StateId → StateId → Prop
  | nil (id : StateId) : ChildChain c id [] id
  | cons {outer child inner : StateId} {chain : List StateId} (hchild : child ∈ c.children outer)
      (hrest : ChildChain c child chain inner) : ChildChain c outer (child :: chain) inner

/-- `chain` leads down from a state by initial children, until one is not compound. -/
inductive InitialChain (c : Chart) : StateId → List StateId → Prop
  | nil {id : StateId} (hlast : c.initial? id = none) : InitialChain c id []
  | cons {id child : StateId} {chain : List StateId} (hinitial : c.initial? id = some child)
      (hrest : InitialChain c child chain) : InitialChain c id (child :: chain)

def subtreeSize (c : Chart) (id : StateId) : Nat :=
  ((Finset.range c.nodes.size).filter fun i => c.contains id ⟨i⟩).card

namespace ChildChain

variable {c : Chart}

theorem append {outer middle inner : StateId} {chain chain' : List StateId}
    (h : c.ChildChain outer chain middle) (h' : c.ChildChain middle chain' inner) :
    c.ChildChain outer (chain ++ chain') inner := by
  induction h with
  | nil => exact h'
  | cons hchild _ ih => exact .cons hchild (ih h')

theorem getLast?_eq {outer inner last : StateId} {chain : List StateId}
    (h : c.ChildChain outer chain inner) (hlast : chain.getLast? = some last) : inner = last := by
  induction h with
  | nil => cases hlast
  | cons hchild hrest ih =>
    cases hrest with
    | nil => exact Option.some.inj hlast
    | cons => exact ih hlast

end ChildChain

theorem InitialChain.unique {c : Chart} {id : StateId} {chain chain' : List StateId}
    (h : c.InitialChain id chain) (h' : c.InitialChain id chain') : chain = chain' := by
  induction h generalizing chain' with
  | nil hlast =>
    cases h' with
    | nil => rfl
    | cons hinitial => exact absurd (hlast.symm.trans hinitial) nofun
  | cons hinitial _ ih =>
    cases h' with
    | nil hlast => exact absurd (hlast.symm.trans hinitial) nofun
    | cons hinitial' hrest' =>
      obtain rfl := Option.some.inj (hinitial.symm.trans hinitial')
      rw [ih hrest']

theorem contains_self (c : Chart) (id : StateId) : c.contains id id :=
  contains_iff.mpr (self_mem_lineage c id)

@[simp] theorem pathBetween_self (c : Chart) (id : StateId) : c.pathBetween id id = [] := by
  simp [pathBetween, lineage]

theorem pathBetween_eq_nil_iff {c : Chart} {outer inner : StateId} :
    c.pathBetween outer inner = [] ↔ outer = inner := by
  constructor
  · intro hnil
    by_contra hne
    simp [pathBetween, lineage, Ne.symm hne] at hnil
  · rintro rfl
    exact pathBetween_self c outer

namespace WellFormed

variable {c : Chart} (hc : c.WellFormed)
include hc

/-! ## The order -/

theorem contains_iff_of_parent? {outer inner p : StateId} (hp : c.parent? inner = some p) :
    c.contains outer inner ↔ outer = inner ∨ c.contains outer p := by
  rw [contains_iff, contains_iff, hc.lineage_of_parent? hp, List.mem_cons]

theorem contains_of_parent? {id p : StateId} (hp : c.parent? id = some p) : c.contains p id :=
  (hc.contains_iff_of_parent? hp).mpr (Or.inr (contains_self c p))

theorem contains_iff_parent? {outer inner : StateId} :
    c.contains outer inner ↔
      outer = inner ∨ ∃ p, c.parent? inner = some p ∧ c.contains outer p := by
  cases hp : c.parent? inner with
  | none => rw [contains_iff, lineage_of_parent?_eq_none hp]; simp
  | some p => rw [hc.contains_iff_of_parent? hp]; simp

theorem contains_trans {outer middle inner : StateId} (hinner : inner ∈ c)
    (h : c.contains outer middle) (h' : c.contains middle inner) : c.contains outer inner :=
  contains_iff.mpr (hc.mem_lineage_trans hinner (contains_iff.mp h') (contains_iff.mp h))

theorem contains_antisymm {id id' : StateId} (hid : id ∈ c) (hid' : id' ∈ c)
    (h : c.contains id id') (h' : c.contains id' id) : id = id' := by
  have hle := hc.index_le_of_mem_lineage hid' (contains_iff.mp h)
  have hle' := hc.index_le_of_mem_lineage hid (contains_iff.mp h')
  exact congrArg StateId.mk (Nat.le_antisymm hle hle')

/-- Of two states that contain `inner`, one contains the other. -/
theorem contains_total {outer outer' inner : StateId} (hinner : inner ∈ c)
    (h : c.contains outer inner) (h' : c.contains outer' inner) :
    c.contains outer outer' ∨ c.contains outer' outer := by
  induction inner, hinner using hc.induction with
  | root =>
    rw [contains_iff, lineage_root, List.mem_singleton] at h h'
    subst h h'
    exact Or.inl (contains_self c _)
  | child inner p hp ih =>
    rcases (hc.contains_iff_of_parent? hp).mp h with rfl | hup
    · exact Or.inr h'
    · rcases (hc.contains_iff_of_parent? hp).mp h' with rfl | hup'
      · exact Or.inl h
      · exact ih hup hup'

/-! ## Walks between states -/

theorem pathBetween_of_parent? {outer inner p : StateId} (hne : outer ≠ inner)
    (hp : c.parent? inner = some p) :
    c.pathBetween outer inner = c.pathBetween outer p ++ [inner] := by
  rw [pathBetween, hc.lineage_of_parent? hp,
    List.takeWhile_cons_of_pos (by simpa using Ne.symm hne), List.reverse_cons]
  rfl

theorem childChain_pathBetween {outer inner : StateId} (hinner : inner ∈ c)
    (h : c.contains outer inner) : c.ChildChain outer (c.pathBetween outer inner) inner := by
  induction inner, hinner using hc.induction with
  | root =>
    rw [contains_iff, lineage_root, List.mem_singleton] at h
    rw [h, pathBetween_self]
    exact .nil root
  | child inner p hp ih =>
    by_cases heq : outer = inner
    · rw [heq, pathBetween_self]
      exact .nil inner
    · have hup := ((hc.contains_iff_of_parent? hp).mp h).resolve_left heq
      have hstep : c.ChildChain p [inner] inner :=
        .cons (hc.mem_children_iff.mpr hp) (.nil inner)
      rw [hc.pathBetween_of_parent? heq hp]
      exact (ih hup).append hstep

theorem pathBetween_of_mem_children {outer child inner : StateId} (hinner : inner ∈ c)
    (hchild : child ∈ c.children outer) (h : c.contains child inner) :
    c.pathBetween outer inner = child :: c.pathBetween child inner := by
  have hparent := hc.mem_children_iff.mp hchild
  have hlineage := hc.lineage_of_parent? hparent
  have hlong := hc.pathBetween_append_lineage hinner
    (contains_iff.mp (hc.contains_trans hinner (hc.contains_of_parent? hparent) h))
  have hshort := hc.pathBetween_append_lineage hinner (contains_iff.mp h)
  rw [← hshort, hlineage, List.append_cons, List.append_cancel_right_eq] at hlong
  rw [← List.reverse_inj, hlong, List.reverse_cons]

theorem childChain_iff {outer inner : StateId} {chain : List StateId} (houter : outer ∈ c) :
    c.ChildChain outer chain inner ↔
      inner ∈ c ∧ c.contains outer inner ∧ chain = c.pathBetween outer inner := by
  constructor
  · intro h
    induction h with
    | nil id => exact ⟨houter, contains_self c id, (pathBetween_self c id).symm⟩
    | @cons outer child inner chain hchild hrest ih =>
      have hparent := hc.mem_children_iff.mp hchild
      obtain ⟨hinner, hcontains, rfl⟩ := ih (mem_of_parent? hparent)
      exact ⟨hinner, hc.contains_trans hinner (hc.contains_of_parent? hparent) hcontains,
        (hc.pathBetween_of_mem_children hinner hchild hcontains).symm⟩
  · rintro ⟨hinner, hcontains, rfl⟩
    exact hc.childChain_pathBetween hinner hcontains

theorem pathBetween_append {outer middle inner : StateId} (houter : outer ∈ c)
    (hmiddle : middle ∈ c) (hinner : inner ∈ c) (h : c.contains outer middle)
    (h' : c.contains middle inner) :
    c.pathBetween outer middle ++ c.pathBetween middle inner = c.pathBetween outer inner := by
  have hchain := hc.childChain_pathBetween hmiddle h
  have hchain' := hc.childChain_pathBetween hinner h'
  exact ((hc.childChain_iff houter).mp (hchain.append hchain')).2.2

/-! ## Walks to the state that is entered -/

/-- The walk down ends before its bound is used up. -/
theorem initialChain_descend {bound : Nat} {id : StateId} (hid : id ∈ c)
    (hbound : c.nodes.size ≤ bound + id.index) : c.InitialChain id (c.descend bound id) := by
  induction bound generalizing id with
  | zero =>
    have hlt := mem_def.mp hid
    omega
  | succ bound ih =>
    rw [descend]
    cases hinitial : c.initial? id with
    | none => exact .nil hinitial
    | some child =>
      have hparent := hc.parent?_eq_of_initial? hinitial
      have hlt := hc.parent_lt hparent
      exact .cons hinitial (ih (mem_of_parent? hparent) (by omega))

theorem initialChain_iff {id : StateId} {chain : List StateId} (hid : id ∈ c) :
    c.InitialChain id chain ↔ chain = c.initialDescent id := by
  have hchain := hc.initialChain_descend hid (Nat.le_add_right _ _)
  constructor
  · intro h
    exact h.unique hchain
  · rintro rfl
    exact hchain

theorem exists_childChain_of_initialChain {id : StateId} {chain : List StateId}
    (h : c.InitialChain id chain) :
    ∃ leaf, c.ChildChain id chain leaf ∧ ¬ c.isCompound leaf := by
  induction h with
  | @nil id hlast =>
    refine ⟨id, .nil id, ?_⟩
    simp [isCompound_iff_initial?, hlast]
  | cons hinitial _ ih =>
    obtain ⟨leaf, hchain, hleaf⟩ := ih
    exact ⟨leaf, .cons (hc.initial?_mem hinitial) hchain, hleaf⟩

theorem initialDescent_eq_nil_iff {id : StateId} (hid : id ∈ c) :
    c.initialDescent id = [] ↔ ¬ c.isCompound id := by
  rw [eq_comm, ← hc.initialChain_iff hid, isCompound_iff_initial?]
  constructor
  · rintro ⟨hlast⟩
    simp [hlast]
  · intro hnone
    exact .nil (Option.eq_none_iff_forall_ne_some.mpr fun child h => hnone ⟨child, h⟩)

theorem initialDescent_spec {id last : StateId} (hid : id ∈ c)
    (hlast : (c.initialDescent id).getLast? = some last) :
    last ∈ c ∧ ¬ c.isCompound last ∧ c.contains id last ∧
      c.initialDescent id = c.pathBetween id last := by
  obtain ⟨leaf, hchain, hleaf⟩ :=
    hc.exists_childChain_of_initialChain ((hc.initialChain_iff hid).mpr rfl)
  obtain rfl := hchain.getLast?_eq hlast
  obtain ⟨hmem, hcontains, heq⟩ := (hc.childChain_iff hid).mp hchain
  exact ⟨hmem, hleaf, hcontains, heq⟩

end WellFormed

/-! ## Charts that are built -/

theorem subtreeSize_eq {c : Chart} {id : StateId} {size : Nat} (hid : id ∈ c)
    (hblock : ∀ inner, c.contains id inner ↔
      id.index ≤ inner.index ∧ inner.index < id.index + size) :
    c.subtreeSize id = size := by
  have hinterval : ((Finset.range c.nodes.size).filter fun i => c.contains id ⟨i⟩) =
      Finset.Ico id.index (id.index + size) := by
    ext i
    rw [Finset.mem_filter, Finset.mem_range, Finset.mem_Ico, hblock]
    refine ⟨And.right, fun hi => ⟨?_, hi⟩⟩
    exact mem_of_contains hid ((hblock ⟨i⟩).mpr hi)
  rw [subtreeSize, hinterval, Nat.card_Ico, Nat.add_sub_cancel_left]

/-- `contains` is a partial order with the root at its bottom, in which the states that contain a
state stand in one row and those it contains in one block; and the three walks through the chart end
and agree with it. -/
structure Ordered (c : Chart) : Prop where
  refl : ∀ {id}, id ∈ c → c.contains id id
  trans : ∀ {outer middle inner}, inner ∈ c →
    c.contains outer middle → c.contains middle inner → c.contains outer inner
  antisymm : ∀ {id id'}, id ∈ c → id' ∈ c → c.contains id id' → c.contains id' id → id = id'
  root_least : ∀ {id}, id ∈ c → c.contains root id
  row : ∀ {outer outer' inner}, inner ∈ c → c.contains outer inner → c.contains outer' inner →
    c.contains outer outer' ∨ c.contains outer' outer
  block : ∀ {id}, id ∈ c → ∀ inner, c.contains id inner ↔
    id.index ≤ inner.index ∧ inner.index < id.index + c.subtreeSize id
  contains_iff_parent? : ∀ {outer inner}, c.contains outer inner ↔
    outer = inner ∨ ∃ p, c.parent? inner = some p ∧ c.contains outer p
  pathBetween_of_parent? : ∀ {outer inner p}, outer ≠ inner → c.parent? inner = some p →
    c.pathBetween outer inner = c.pathBetween outer p ++ [inner]
  childChain_iff : ∀ {outer inner chain}, outer ∈ c → (c.ChildChain outer chain inner ↔
    inner ∈ c ∧ c.contains outer inner ∧ chain = c.pathBetween outer inner)
  pathBetween_eq_nil_iff : ∀ {outer inner}, c.pathBetween outer inner = [] ↔ outer = inner
  pathBetween_append : ∀ {outer middle inner}, outer ∈ c → middle ∈ c → inner ∈ c →
    c.contains outer middle → c.contains middle inner →
      c.pathBetween outer middle ++ c.pathBetween middle inner = c.pathBetween outer inner
  initialChain_iff : ∀ {id chain}, id ∈ c →
    (c.InitialChain id chain ↔ chain = c.initialDescent id)
  initialDescent_eq_nil_iff : ∀ {id}, id ∈ c → (c.initialDescent id = [] ↔ ¬ c.isCompound id)
  initialDescent_last : ∀ {id last}, id ∈ c → (c.initialDescent id).getLast? = some last →
    last ∈ c ∧ ¬ c.isCompound last ∧ c.contains id last ∧
      c.initialDescent id = c.pathBetween id last

end Chart

namespace ChartDef

theorem subtreeSize_place {d : ChartDef} {c : Chart} (h : d.build = .ok c)
    {p : StateDef.Placed} (hp : p ∈ d.layout) : c.subtreeSize p.place = p.definition.size :=
  Chart.subtreeSize_eq (place_mem_of_build h hp) (contains_place_iff hp h)

theorem ordered {d : ChartDef} {c : Chart} (h : d.build = .ok c) : c.Ordered where
  refl {id} _ := Chart.contains_self c id
  trans := (wellFormed_of_build h).contains_trans
  antisymm := (wellFormed_of_build h).contains_antisymm
  root_least hid := Chart.contains_iff.mpr ((wellFormed_of_build h).root_mem_lineage hid)
  row := (wellFormed_of_build h).contains_total
  block {id} hid inner := by
    obtain ⟨p, hp, rfl⟩ := exists_placed_of_mem h hid
    rw [subtreeSize_place h hp]
    exact contains_place_iff hp h inner
  contains_iff_parent? := (wellFormed_of_build h).contains_iff_parent?
  pathBetween_of_parent? := (wellFormed_of_build h).pathBetween_of_parent?
  childChain_iff := (wellFormed_of_build h).childChain_iff
  pathBetween_eq_nil_iff := Chart.pathBetween_eq_nil_iff
  pathBetween_append := (wellFormed_of_build h).pathBetween_append
  initialChain_iff := (wellFormed_of_build h).initialChain_iff
  initialDescent_eq_nil_iff := (wellFormed_of_build h).initialDescent_eq_nil_iff
  initialDescent_last := (wellFormed_of_build h).initialDescent_spec

/-- In a chart that is built, containment is `Ordered`, and each state contains as many states as
its definition has. -/
theorem ordered_of_build {d : ChartDef} {c : Chart} (h : d.build = .ok c) :
    c.Ordered ∧ ∀ {a p}, d.at? a = some p → c.subtreeSize p.place = p.definition.size :=
  ⟨ordered h, fun {a _} hp => subtreeSize_place h (mem_layout_iff.mpr ⟨a, hp⟩)⟩

theorem ordered_of_build_nested :
    nestedDefinition.build = .ok nestedDefinition.chart ∧
      nestedDefinition.chart.pathBetween Chart.root ⟨4⟩ = [⟨1⟩, ⟨3⟩, ⟨4⟩] ∧
        nestedDefinition.chart.initialDescent ⟨1⟩ = [⟨3⟩, ⟨4⟩] ∧ nestedDefinition.chart.Ordered ∧
          ∀ {a p}, nestedDefinition.at? a = some p →
            nestedDefinition.chart.subtreeSize p.place = p.definition.size := by
  have hbuild := build_eq_ok (d := nestedDefinition) rfl
  refine ⟨hbuild, by decide, by decide, ?_⟩
  exact ordered_of_build hbuild

end ChartDef

end Dialogue
