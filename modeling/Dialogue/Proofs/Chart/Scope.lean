import Dialogue.Proofs.Chart.Walks
import Mathlib.Logic.Relation
/-!
# The scope of a transition

A transition leaves and enters states inside one state, which stays active.  That is its source if
the transition leads into it, and else the innermost state that has both its ends inside.
-/

namespace Dialogue

namespace Chart

/-- `outer` is the parent of `inner`, or the parent of that one, and so on. -/
def Encloses (c : Chart) : StateId → StateId → Prop :=
  Relation.TransGen fun outer inner => c.parent? inner = some outer

/-- Where a transition leads: to its target, or into the state that a history state stands for. -/
inductive LeadsTo (c : Chart) (target : StateId) : StateId → Prop
  | plain (hplain : ¬ c.isHistory target) : LeadsTo c target target
  | history {compound} (hhistory : c.isHistory target)
      (hparent : c.parent? target = some compound) : LeadsTo c target compound

/-- The state inside which a transition from `source` to `target` leaves and enters states.  It has
the target strictly inside, unless it is the root. -/
inductive IsScope (c : Chart) (source target : StateId) : StateId → Prop
  | source (hinto : c.Encloses source target) : IsScope c source target source
  | around {outer} (hout : ¬ c.Encloses source target) (hsource : c.Encloses outer source)
      (htarget : c.Encloses outer target)
      (hinnermost : ∀ id, c.Encloses id source → c.Encloses id target →
        id = outer ∨ c.Encloses id outer) : IsScope c source target outer
  | root (hout : ¬ c.Encloses source target)
      (hnone : ∀ id, c.Encloses id source → ¬ c.Encloses id target) :
      IsScope c source target Chart.root

theorem LeadsTo.unique {c : Chart} {target id id' : StateId} (h : c.LeadsTo target id)
    (h' : c.LeadsTo target id') : id = id' := by
  cases h with
  | plain hplain =>
    cases h' with
    | plain => rfl
    | history hhistory => exact absurd hhistory hplain
  | history hhistory hparent =>
    cases h' with
    | plain hplain => exact absurd hhistory hplain
    | history _ hparent' => exact Option.some.inj (hparent.symm.trans hparent')

namespace WellFormed

variable {c : Chart} (hc : c.WellFormed)
include hc

/-! ## States around a state -/

theorem index_lt_of_encloses {outer inner : StateId} (h : c.Encloses outer inner) :
    outer.index < inner.index := by
  induction h with
  | single hparent => exact hc.parent_lt hparent
  | tail _ hparent ih => exact ih.trans (hc.parent_lt hparent)

theorem not_encloses_self (id : StateId) : ¬ c.Encloses id id :=
  fun h => Nat.lt_irrefl _ (hc.index_lt_of_encloses h)

theorem encloses_asymm {outer inner : StateId} (h : c.Encloses outer inner) :
    ¬ c.Encloses inner outer :=
  fun h' => Nat.lt_asymm (hc.index_lt_of_encloses h) (hc.index_lt_of_encloses h')

theorem pairwise_lineage {id : StateId} (hid : id ∈ c) :
    (c.lineage id).Pairwise fun inner outer => c.Encloses outer inner := by
  induction id, hid using hc.induction with
  | root => exact List.pairwise_singleton _ _
  | child id p hp ih =>
    rw [hc.lineage_of_parent? hp]
    refine List.pairwise_cons.mpr ⟨fun outer houter => ?_, ih⟩
    rcases List.mem_cons.mp houter with rfl | houter
    · exact .single hp
    · exact ((List.pairwise_cons.mp ih).1 outer houter).tail hp

theorem mem_lineage_iff {id outer : StateId} (hid : id ∈ c) :
    outer ∈ c.lineage id ↔ outer = id ∨ c.Encloses outer id := by
  constructor
  · intro houter
    refine (List.mem_cons.mp houter).imp_right fun houter => ?_
    exact (List.pairwise_cons.mp (hc.pairwise_lineage hid)).1 outer houter
  · rintro (rfl | hencloses)
    · exact self_mem_lineage c outer
    · induction hencloses with
      | single hparent =>
        rw [hc.lineage_of_parent? hparent]
        exact List.mem_cons_of_mem _ (self_mem_lineage c outer)
      | tail _ hparent ih =>
        rw [hc.lineage_of_parent? hparent]
        exact List.mem_cons_of_mem _ (ih (hc.mem_of_parent?_eq_some hparent))

theorem mem_tail_lineage_iff {id outer : StateId} (hid : id ∈ c) :
    outer ∈ (c.lineage id).tail ↔ c.Encloses outer id := by
  constructor
  · exact (List.pairwise_cons.mp (hc.pairwise_lineage hid)).1 outer
  · intro hencloses
    have hmem := (hc.mem_lineage_iff hid).mpr (Or.inr hencloses)
    refine (List.mem_cons.mp hmem).resolve_left ?_
    rintro rfl
    exact hc.not_encloses_self outer hencloses

theorem encloses_iff_contains {outer inner : StateId} (hinner : inner ∈ c) :
    c.Encloses outer inner ↔ inner ≠ outer ∧ c.contains outer inner := by
  rw [contains_iff, hc.mem_lineage_iff hinner]
  constructor
  · intro hencloses
    refine ⟨?_, Or.inr hencloses⟩
    rintro rfl
    exact hc.not_encloses_self inner hencloses
  · rintro ⟨hne, heq | hencloses⟩
    · exact absurd heq.symm hne
    · exact hencloses

/-- The inner part of a lineage is what lies inside the state at which the outer part begins. -/
theorem mem_inner_iff {leaf scope : StateId} {inner : List StateId} (hleaf : leaf ∈ c)
    (hscope : scope ∈ c) (h : inner ++ c.lineage scope = c.lineage leaf) (id : StateId) :
    id ∈ inner ↔ c.Encloses scope id ∧ (id = leaf ∨ c.Encloses id leaf) := by
  have hpairwise := hc.pairwise_lineage hleaf
  rw [← h, List.pairwise_append] at hpairwise
  rw [← hc.mem_lineage_iff hleaf, ← h, List.mem_append, hc.mem_lineage_iff hscope]
  constructor
  · intro hid
    exact ⟨hpairwise.2.2 id hid scope (self_mem_lineage c scope), Or.inl hid⟩
  · rintro ⟨hinside, hid | rfl | houtside⟩
    · exact hid
    · exact absurd hinside (hc.not_encloses_self id)
    · exact absurd houtside (hc.encloses_asymm hinside)

/-! ## Scopes -/

theorem isScope_unique {source target id id' : StateId} (h : c.IsScope source target id)
    (h' : c.IsScope source target id') : id = id' := by
  cases h with
  | source hinto =>
    cases h' with
    | source => rfl
    | around hout | root hout => exact absurd hinto hout
  | around hout hsource htarget hinnermost =>
    cases h' with
    | source hinto => exact absurd hinto hout
    | around _ hsource' htarget' hinnermost' =>
      rcases hinnermost _ hsource' htarget' with heq | hencloses
      · exact heq.symm
      · exact (hinnermost' _ hsource htarget).resolve_right (hc.encloses_asymm hencloses)
    | root _ hnone => exact absurd htarget (hnone _ hsource)
  | root hout hnone =>
    cases h' with
    | source hinto => exact absurd hinto hout
    | around _ hsource htarget => exact absurd htarget (hnone _ hsource)
    | root => rfl

theorem innermost_of_find? {source outer : StateId} {p : StateId → Bool} (hsource : source ∈ c)
    (hfind : (c.lineage source).tail.find? p = some outer) :
    c.Encloses outer source ∧ p outer ∧
      ∀ id, c.Encloses id source → p id → id = outer ∨ c.Encloses id outer := by
  obtain ⟨houter, inner, outers, htail, hnone⟩ := List.find?_eq_some_iff_append.mp hfind
  have hpairwise := (hc.pairwise_lineage hsource).tail
  rw [htail, List.pairwise_append, List.pairwise_cons] at hpairwise
  simp only [← hc.mem_tail_lineage_iff hsource, htail, List.mem_append, List.mem_cons]
  refine ⟨by simp, houter, fun id hid hp => ?_⟩
  rcases hid with hid | rfl | hid
  · exact absurd hp (by simpa using hnone id hid)
  · exact Or.inl rfl
  · exact Or.inr (hpairwise.2.1.1 id hid)

theorem isScope_transitionDomain {source target : StateId} (hsource : source ∈ c)
    (htarget : target ∈ c) : c.IsScope source target (c.transitionDomain source target) := by
  have hinside : ∀ {id}, (id != target && c.contains id target) ↔ c.Encloses id target := by
    intro id
    rw [hc.encloses_iff_contains htarget, Bool.and_eq_true, bne_iff_ne, ne_comm]
  unfold transitionDomain
  split
  · next hinto => exact .source ((hc.encloses_iff_contains htarget).mpr hinto)
  · next hout =>
    rw [← hc.encloses_iff_contains htarget] at hout
    cases hfind : (c.lineage source).tail.find? fun id => id != target && c.contains id target with
    | none =>
      refine .root hout fun id hid hid' => ?_
      exact List.find?_eq_none.mp hfind id ((hc.mem_tail_lineage_iff hsource).mpr hid)
        (hinside.mpr hid')
    | some outer =>
      obtain ⟨hencloses, houter, hinnermost⟩ := hc.innermost_of_find? hsource hfind
      exact .around hout hencloses (hinside.mp houter)
        fun id hid hid' => hinnermost id hid (hinside.mpr hid')

end WellFormed

end Chart

end Dialogue
