/-!
# Searching a text
-/

namespace Dialogue.Text

def afterFirst? (pattern : List Char) : List Char → Option (List Char)
  | [] => pattern.isPrefixOf? []
  | c :: cs =>
    match pattern.isPrefixOf? (c :: cs) with
    | some rest => some rest
    | none => afterFirst? pattern cs

def splitFirst? (c : Char) : List Char → Option (List Char × List Char)
  | [] => none
  | x :: cs => if x = c then some ([], cs) else (splitFirst? c cs).map fun p => (x :: p.1, p.2)

theorem splitFirst?_eq_some_iff {c : Char} {cs before behind : List Char} :
    splitFirst? c cs = some (before, behind) ↔ cs = before ++ c :: behind ∧ c ∉ before := by
  induction cs generalizing before with
  | nil => simp [splitFirst?]
  | cons x cs ih =>
    by_cases hx : x = c
    · subst hx
      rw [splitFirst?, if_pos rfl, Option.some.injEq, Prod.mk.injEq]
      constructor
      · rintro ⟨rfl, rfl⟩
        exact ⟨rfl, List.not_mem_nil⟩
      · rintro ⟨heq, hmem⟩
        cases before with
        | nil => exact ⟨rfl, (List.cons.inj heq).2⟩
        | cons y before => exact absurd (List.cons.inj heq).1 (List.ne_of_not_mem_cons hmem)
    · rw [splitFirst?, if_neg hx, Option.map_eq_some_iff]
      constructor
      · rintro ⟨⟨before, behind⟩, hsplit, hpair⟩
        obtain ⟨rfl, rfl⟩ := Prod.mk.inj hpair
        obtain ⟨rfl, hmem⟩ := ih.mp hsplit
        exact ⟨rfl, List.not_mem_cons_of_ne_of_not_mem (Ne.symm hx) hmem⟩
      · rintro ⟨heq, hmem⟩
        cases before with
        | nil => exact absurd (List.cons.inj heq).1 hx
        | cons y before =>
          obtain ⟨rfl, htail⟩ := List.cons.inj heq
          exact ⟨(before, behind), ih.mpr ⟨htail, List.not_mem_of_not_mem_cons hmem⟩, rfl⟩

theorem splitFirst?_eq_none_iff {c : Char} {cs : List Char} :
    splitFirst? c cs = none ↔ c ∉ cs := by
  rw [Option.eq_none_iff_forall_ne_some]
  constructor
  · intro h hmem
    obtain ⟨before, behind, heq, hnot⟩ := List.eq_append_cons_of_mem hmem
    exact h (before, behind) (splitFirst?_eq_some_iff.mpr ⟨heq, hnot⟩)
  · rintro hnot ⟨before, behind⟩ hsplit
    obtain ⟨rfl, -⟩ := splitFirst?_eq_some_iff.mp hsplit
    exact hnot (List.mem_append_right before List.mem_cons_self)

theorem length_lt_of_splitFirst? {c : Char} {cs before behind : List Char}
    (h : splitFirst? c cs = some (before, behind)) : behind.length < cs.length := by
  rw [(splitFirst?_eq_some_iff.mp h).1, List.length_append, List.length_cons]
  omega

end Dialogue.Text
