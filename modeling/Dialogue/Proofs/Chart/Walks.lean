import Dialogue.Proofs.Chart.WellFormed
import Mathlib.Data.List.Chain
/-!
# Walks through a well-formed chart

A state and those around it form its lineage, from the state up to the root.  Every walk of the
engine is a piece of a lineage: the states between two of them, the initial states below one of
them, and the domain of a transition, which lies on the lineages of both its ends.
-/

namespace Dialogue.Chart

theorem contains_iff {c : Chart} {outer inner : StateId} :
    c.contains outer inner ↔ outer ∈ c.lineage inner := by
  rw [contains, List.contains_iff_mem]

@[simp] theorem lineage_root (c : Chart) : c.lineage root = [root] := rfl

theorem lineage_of_parent?_eq_none {c : Chart} {id : StateId} (h : c.parent? id = none) :
    c.lineage id = [id] := by
  unfold lineage
  cases id.index <;> simp [above, h]

theorem self_mem_lineage (c : Chart) (id : StateId) : id ∈ c.lineage id :=
  List.mem_cons_self

theorem mem_of_contains {c : Chart} {outer inner : StateId} (houter : outer ∈ c)
    (h : c.contains outer inner) : inner ∈ c := by
  by_contra hinner
  have hnone : c.parent? inner = none := by
    rw [parent?, node?_eq_none hinner, Option.bind_none]
  rw [contains_iff, lineage_of_parent?_eq_none hnone, List.mem_singleton] at h
  exact hinner (h ▸ houter)

theorem head?_lineage (c : Chart) (id : StateId) : (c.lineage id).head? = some id := rfl

def initialLeaf (c : Chart) (id : StateId) : StateId :=
  (c.initialDescent id).getLast?.getD id

namespace WellFormed

variable {c : Chart} (hc : c.WellFormed)
include hc

theorem mem_of_parent?_eq_some {id p : StateId} (h : c.parent? id = some p) : p ∈ c :=
  Nat.lt_trans (hc.parent_lt h) (mem_of_parent? h)

theorem parent?_eq_of_initial? {id child : StateId} (h : c.initial? id = some child) :
    c.parent? child = some id :=
  hc.mem_children_iff.mp (hc.initial?_mem h)

theorem children_eq_nil {id : StateId} (h : ¬ c.isCompound id) : c.children id = [] := by
  rwa [hc.isCompound_iff, not_not] at h

theorem isCompound_of_parent? {id p : StateId} (h : c.parent? id = some p) : c.isCompound p := by
  rw [hc.isCompound_iff]
  exact List.ne_nil_of_mem (hc.mem_children_iff.mpr h)

/-- What holds of the root and passes from a state to its children holds of all states. -/
theorem induction {motive : (id : StateId) → id ∈ c → Prop} (root : motive root hc.root_mem)
    (child : ∀ id p (hp : c.parent? id = some p),
      motive p (hc.mem_of_parent?_eq_some hp) → motive id (mem_of_parent? hp))
    (id : StateId) (hid : id ∈ c) : motive id hid := by
  induction hn : id.index using Nat.strongRecOn generalizing id with
  | ind n ih =>
    by_cases hne : id = Chart.root
    · subst hne
      exact root
    · obtain ⟨p, hp⟩ := hc.exists_parent hid hne
      have hlt := hc.parent_lt hp
      exact child id p hp (ih p.index (by omega) p (hc.mem_of_parent?_eq_some hp) rfl)

/-! ## Lineages -/

/-- Any bound from the place of a state on is enough to reach the root. -/
theorem above_eq_above {m n : Nat} {id : StateId} (hm : id.index ≤ m) (hn : id.index ≤ n) :
    c.above m id = c.above n id := by
  induction m generalizing n id with
  | zero =>
    have hnone : c.parent? id = none := by
      cases hp : c.parent? id with
      | none => rfl
      | some p =>
        have hlt := hc.parent_lt hp
        omega
    cases n <;> simp [above, hnone]
  | succ m ih =>
    cases hp : c.parent? id with
    | none => cases n <;> simp [above, hp]
    | some p =>
      have hlt := hc.parent_lt hp
      cases n with
      | zero => omega
      | succ n =>
        have hrest := @ih n p (by omega) (by omega)
        simp [above, hp, hrest]

theorem lineage_of_parent? {id p : StateId} (h : c.parent? id = some p) :
    c.lineage id = id :: c.lineage p := by
  have hlt := hc.parent_lt h
  obtain ⟨n, hn⟩ : ∃ n, id.index = n + 1 := ⟨id.index - 1, by omega⟩
  have habove : c.above id.index id = p :: c.above n p := by simp [hn, above, h]
  rw [lineage, habove, hc.above_eq_above (n := p.index) (by omega) (Nat.le_refl _)]
  rfl

theorem mem_of_mem_lineage {id a : StateId} (hid : id ∈ c) (ha : a ∈ c.lineage id) : a ∈ c := by
  induction id, hid using hc.induction with
  | root =>
    rw [lineage_root, List.mem_singleton] at ha
    rw [ha]
    exact hc.root_mem
  | child id p hp ih =>
    rw [hc.lineage_of_parent? hp, List.mem_cons] at ha
    rcases ha with rfl | ha
    · exact mem_of_parent? hp
    · exact ih ha

theorem root_mem_lineage {id : StateId} (hid : id ∈ c) : root ∈ c.lineage id := by
  induction id, hid using hc.induction with
  | root => exact self_mem_lineage c root
  | child id p hp ih =>
    rw [hc.lineage_of_parent? hp]
    exact List.mem_cons_of_mem _ ih

theorem index_le_of_mem_lineage {id a : StateId} (hid : id ∈ c) (ha : a ∈ c.lineage id) :
    a.index ≤ id.index := by
  induction id, hid using hc.induction with
  | root =>
    rw [lineage_root, List.mem_singleton] at ha
    rw [ha]
  | child id p hp ih =>
    rw [hc.lineage_of_parent? hp, List.mem_cons] at ha
    rcases ha with rfl | ha
    · exact Nat.le_refl _
    · exact Nat.le_trans (ih ha) (Nat.le_of_lt (hc.parent_lt hp))

/-- A lineage ends with that of each of its states. -/
theorem dropWhile_lineage {id a : StateId} (hid : id ∈ c) (ha : a ∈ c.lineage id) :
    ((c.lineage id).dropWhile fun x => x != a) = c.lineage a := by
  induction id, hid using hc.induction with
  | root =>
    rw [lineage_root, List.mem_singleton] at ha
    simp [ha]
  | child id p hp ih =>
    by_cases hne : id = a
    · rw [hne, lineage, List.dropWhile_cons_of_neg (by simp)]
    · rw [hc.lineage_of_parent? hp, List.mem_cons] at ha
      rw [hc.lineage_of_parent? hp, List.dropWhile_cons_of_pos (by simp [hne]),
        ih (ha.resolve_left (Ne.symm hne))]

theorem takeWhile_append_lineage {id a : StateId} (hid : id ∈ c) (ha : a ∈ c.lineage id) :
    ((c.lineage id).takeWhile fun x => x != a) ++ c.lineage a = c.lineage id := by
  rw [← hc.dropWhile_lineage hid ha, List.takeWhile_append_dropWhile]

theorem mem_lineage_trans {id a b : StateId} (hid : id ∈ c) (ha : a ∈ c.lineage id)
    (hb : b ∈ c.lineage a) : b ∈ c.lineage id := by
  rw [← hc.takeWhile_append_lineage hid ha]
  exact List.mem_append_right _ hb

theorem nodup_lineage {id : StateId} (hid : id ∈ c) : (c.lineage id).Nodup := by
  induction id, hid using hc.induction with
  | root => simp
  | child id p hp ih =>
    rw [hc.lineage_of_parent? hp, List.nodup_cons]
    refine ⟨fun hmem => ?_, ih⟩
    have hle := hc.index_le_of_mem_lineage (hc.mem_of_parent?_eq_some hp) hmem
    have hlt := hc.parent_lt hp
    omega

theorem isChain_lineage {id : StateId} (hid : id ∈ c) :
    (c.lineage id).IsChain fun inner outer => c.parent? inner = some outer := by
  induction id, hid using hc.induction with
  | root => exact List.IsChain.singleton _
  | child id p hp ih =>
    rw [hc.lineage_of_parent? hp]
    exact List.IsChain.cons_cons hp ih

theorem getLast?_lineage {id : StateId} (hid : id ∈ c) :
    (c.lineage id).getLast? = some root := by
  induction id, hid using hc.induction with
  | root => rfl
  | child id p hp ih => rw [hc.lineage_of_parent? hp, List.getLast?_cons, ih, Option.getD_some]

theorem pathBetween_append_lineage {outer inner : StateId} (hinner : inner ∈ c)
    (houter : outer ∈ c.lineage inner) :
    (c.pathBetween outer inner).reverse ++ c.lineage outer = c.lineage inner := by
  rw [pathBetween, List.reverse_reverse, hc.takeWhile_append_lineage hinner houter]

/-! ## Initial states -/

theorem exists_lineage_eq_descend {bound : Nat} {id : StateId} (hid : id ∈ c)
    (hbound : c.nodes.size ≤ bound + id.index) :
    ∃ leaf ∈ c, ¬ c.isCompound leaf ∧
      c.lineage leaf = (c.descend bound id).reverse ++ c.lineage id := by
  induction bound generalizing id with
  | zero =>
    have hlt := mem_def.mp hid
    omega
  | succ bound ih =>
    cases hinitial : c.initial? id with
    | none =>
      refine ⟨id, hid, ?_, by simp [descend, hinitial]⟩
      rw [isCompound_iff_initial?, hinitial]
      simp
    | some child =>
      have hparent := hc.parent?_eq_of_initial? hinitial
      have hlt := hc.parent_lt hparent
      obtain ⟨leaf, hleaf, hatomic, hlineage⟩ := ih (mem_of_parent? hparent) (by omega)
      refine ⟨leaf, hleaf, hatomic, ?_⟩
      simp [descend, hinitial, hlineage, hc.lineage_of_parent? hparent]

theorem initialLeaf_spec {id : StateId} (hid : id ∈ c) :
    c.initialLeaf id ∈ c ∧ ¬ c.isCompound (c.initialLeaf id) ∧
      c.lineage (c.initialLeaf id) = (c.initialDescent id).reverse ++ c.lineage id := by
  obtain ⟨leaf, hleaf, hatomic, hlineage⟩ :=
    hc.exists_lineage_eq_descend hid (Nat.le_add_right _ _)
  have heq : c.initialLeaf id = leaf := by
    have hhead := congrArg List.head? hlineage
    rw [head?_lineage, List.head?_append, List.head?_reverse, head?_lineage] at hhead
    unfold initialLeaf initialDescent
    cases hlast : (c.descend c.nodes.size id).getLast? <;> simpa [hlast] using hhead.symm
  rw [heq]
  exact ⟨hleaf, hatomic, hlineage⟩

/-! ## Domains -/

theorem transitionDomain_mem_source {source : StateId} (hsource : source ∈ c)
    (target : StateId) :
    c.transitionDomain source target ∈ c.lineage source := by
  unfold transitionDomain
  split
  · exact self_mem_lineage c source
  · cases hfind : (c.lineage source).tail.find? fun id => id != target && c.contains id target with
    | none => exact hc.root_mem_lineage hsource
    | some id => exact List.mem_of_mem_tail (List.mem_of_find?_eq_some hfind)

theorem transitionDomain_mem_target (source : StateId) {target : StateId}
    (htarget : target ∈ c) :
    c.transitionDomain source target ∈ c.lineage target := by
  unfold transitionDomain
  split
  · next h => exact contains_iff.mp h.2
  · cases hfind : (c.lineage source).tail.find? fun id => id != target && c.contains id target with
    | none => exact hc.root_mem_lineage htarget
    | some id =>
      have hid := List.find?_some hfind
      rw [Bool.and_eq_true] at hid
      exact contains_iff.mp hid.2

end WellFormed

/-! ## Charts of one shape -/

structure Alike (c c' : Chart) : Prop where
  size_eq : c.nodes.size = c'.nodes.size
  parent?_eq : ∀ id, c.parent? id = c'.parent? id
  kind_eq : ∀ id, (c.node? id).map Node.kind = (c'.node? id).map Node.kind

namespace Alike

variable {c c' : Chart} (h : c.Alike c')
include h

theorem above_eq (bound : Nat) (id : StateId) : c.above bound id = c'.above bound id := by
  induction bound generalizing id with
  | zero => rfl
  | succ bound ih => simp only [above, h.parent?_eq, ih]

theorem lineage_eq (id : StateId) : c.lineage id = c'.lineage id :=
  congrArg (id :: ·) (h.above_eq id.index id)

theorem contains_eq (outer inner : StateId) : c.contains outer inner = c'.contains outer inner :=
  congrArg (·.contains outer) (h.lineage_eq inner)

theorem pathBetween_eq (outer inner : StateId) :
    c.pathBetween outer inner = c'.pathBetween outer inner := by
  rw [pathBetween, pathBetween, h.lineage_eq]

theorem transitionDomain_eq (source target : StateId) :
    c.transitionDomain source target = c'.transitionDomain source target := by
  simp only [transitionDomain, h.contains_eq, h.lineage_eq]

theorem isCompound_eq (id : StateId) : c.isCompound id = c'.isCompound id := by
  have hkind := h.kind_eq id
  unfold isCompound Node.isCompound
  cases hn : c.node? id <;> cases hn' : c'.node? id <;> simp_all

theorem isHistory_eq (id : StateId) : c.isHistory id = c'.isHistory id := by
  have hkind := h.kind_eq id
  unfold isHistory Node.isHistory
  cases hn : c.node? id <;> cases hn' : c'.node? id <;> simp_all

theorem initial?_eq (id : StateId) : c.initial? id = c'.initial? id := by
  have hkind := h.kind_eq id
  unfold initial?
  cases hn : c.node? id <;> cases hn' : c'.node? id <;> simp_all

theorem descend_eq (bound : Nat) (id : StateId) : c.descend bound id = c'.descend bound id := by
  induction bound generalizing id with
  | zero => rfl
  | succ bound ih => simp only [descend, h.initial?_eq, ih]

theorem initialDescent_eq (id : StateId) : c.initialDescent id = c'.initialDescent id := by
  rw [initialDescent, initialDescent, h.size_eq, h.descend_eq]

theorem initialLeaf_eq (id : StateId) : c.initialLeaf id = c'.initialLeaf id := by
  rw [initialLeaf, initialLeaf, h.initialDescent_eq]

end Alike

end Dialogue.Chart
