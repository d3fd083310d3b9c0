import Dialogue.Text.Search
import Mathlib.Data.List.Infix
/-!
# Occurrences of a pattern

Searching a text for a pattern finds the pattern exactly if it occurs, and what is found stands
behind its first occurrence.
-/

namespace Dialogue.Text

theorem isPrefixOf?_eq_none_iff {start text : List Char} :
    start.isPrefixOf? text = none ↔ ¬ start <+: text := by
  rw [Option.eq_none_iff_forall_ne_some]
  simp only [ne_eq, List.isPrefixOf?_eq_some_iff_append_eq]
  exact not_exists.symm

/-- The pattern stands between `before` and `rest`, and nowhere further to the front. -/
structure FirstAt (pattern cs before rest : List Char) : Prop where
  eq_append : cs = before ++ (pattern ++ rest)
  length_le : ∀ before' rest', cs = before' ++ (pattern ++ rest') →
    before.length ≤ before'.length

theorem firstAt_nil_iff {pattern cs rest : List Char} :
    FirstAt pattern cs [] rest ↔ cs = pattern ++ rest :=
  ⟨FirstAt.eq_append, fun h => ⟨h, fun _ _ _ => Nat.zero_le _⟩⟩

theorem FirstAt.eq_of_prefix {pattern cs before rest rest' : List Char}
    (h : FirstAt pattern cs before rest) (heq : cs = pattern ++ rest') :
    before = [] ∧ rest = rest' := by
  have hnil : before = [] :=
    List.eq_nil_of_length_eq_zero (Nat.le_zero.mp (h.length_le [] rest' heq))
  have happend : pattern ++ rest = pattern ++ rest' := by
    rw [← heq, h.eq_append, hnil, List.nil_append]
  exact ⟨hnil, List.append_cancel_left happend⟩

/-- Where a text does not begin with the pattern, the pattern is looked for behind its first
character. -/
theorem firstAt_cons_iff {pattern cs before rest : List Char} {c : Char}
    (h : ¬ pattern <+: c :: cs) :
    FirstAt pattern (c :: cs) before rest ↔
      ∃ before', before = c :: before' ∧ FirstAt pattern cs before' rest := by
  have hcons : ∀ {before rest}, c :: cs = before ++ (pattern ++ rest) →
      ∃ before', before = c :: before' ∧ cs = before' ++ (pattern ++ rest) := by
    intro before rest heq
    cases before with
    | nil => exact absurd ⟨rest, heq.symm⟩ h
    | cons x before' =>
      obtain ⟨rfl, htail⟩ := List.cons.inj heq
      exact ⟨before', rfl, htail⟩
  constructor
  · rintro ⟨heq, hle⟩
    obtain ⟨before', rfl, htail⟩ := hcons heq
    refine ⟨before', rfl, htail, fun other rest' hother => ?_⟩
    exact Nat.le_of_succ_le_succ (hle (c :: other) rest' (congrArg (c :: ·) hother))
  · rintro ⟨before', rfl, htail, hle⟩
    refine ⟨congrArg (c :: ·) htail, fun other rest' hother => ?_⟩
    obtain ⟨other', rfl, htail'⟩ := hcons hother
    exact Nat.succ_le_succ (hle other' rest' htail')

theorem afterFirst?_eq_some_iff {pattern cs rest : List Char} :
    afterFirst? pattern cs = some rest ↔ ∃ before, FirstAt pattern cs before rest := by
  induction cs with
  | nil =>
    rw [afterFirst?, List.isPrefixOf?_eq_some_iff_append_eq]
    constructor
    · intro heq
      exact ⟨[], firstAt_nil_iff.mpr heq.symm⟩
    · rintro ⟨before, heq, -⟩
      exact (List.append_eq_nil_iff.mp heq.symm).2
  | cons c cs ih =>
    rw [afterFirst?]
    cases hprefix : pattern.isPrefixOf? (c :: cs) with
    | some rest' =>
      have heq := List.isPrefixOf?_eq_some_iff_append_eq.mp hprefix
      simp only [Option.some.injEq]
      constructor
      · rintro rfl
        exact ⟨[], firstAt_nil_iff.mpr heq.symm⟩
      · rintro ⟨before, hbefore⟩
        exact (hbefore.eq_of_prefix heq.symm).2.symm
    | none =>
      simp only [ih, firstAt_cons_iff (isPrefixOf?_eq_none_iff.mp hprefix)]
      constructor
      · rintro ⟨before, hbefore⟩
        exact ⟨c :: before, before, rfl, hbefore⟩
      · rintro ⟨_, before, rfl, hbefore⟩
        exact ⟨before, hbefore⟩

theorem isSome_afterFirst?_iff {pattern cs : List Char} :
    (afterFirst? pattern cs).isSome ↔ pattern <:+: cs := by
  induction cs with
  | nil =>
    rw [afterFirst?, Option.isSome_iff_exists]
    simp only [List.isPrefixOf?_eq_some_iff_append_eq]
    simp
  | cons c cs ih =>
    rw [afterFirst?, List.infix_cons_iff, ← ih]
    cases hprefix : pattern.isPrefixOf? (c :: cs) with
    | some rest =>
      exact iff_of_true rfl (Or.inl ⟨rest, List.isPrefixOf?_eq_some_iff_append_eq.mp hprefix⟩)
    | none => exact (or_iff_right (isPrefixOf?_eq_none_iff.mp hprefix)).symm

theorem afterFirst?_append (pattern cs : List Char) :
    afterFirst? pattern (pattern ++ cs) = some cs :=
  afterFirst?_eq_some_iff.mpr ⟨[], firstAt_nil_iff.mpr rfl⟩

theorem suffix_of_afterFirst? {pattern cs rest : List Char}
    (h : afterFirst? pattern cs = some rest) : rest <:+ cs := by
  obtain ⟨before, hfirst⟩ := afterFirst?_eq_some_iff.mp h
  exact ⟨before ++ pattern, by rw [hfirst.eq_append, List.append_assoc]⟩

end Dialogue.Text
