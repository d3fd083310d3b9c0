import Dialogue.Text.Blank
import Mathlib.Data.List.DropRight
/-!
# Trimming

What is left of a text once its ends are trimmed: how the rest begins and ends, which texts are left
alone, and what trimming makes of texts that are put together.
-/

namespace Dialogue.Text

section Trim

variable {p : Char → Bool} {cs : List Char}

/-! ## Ends -/

theorem not_of_mem_head?_dropWhile {c : Char} (h : c ∈ (cs.dropWhile p).head?) : ¬ p c := by
  have hhead := List.head?_dropWhile_not p cs
  rw [Option.mem_def.mp h] at hhead
  simpa using hhead

theorem not_of_mem_getLast?_dropEndWhile {c : Char} (h : c ∈ (dropEndWhile p cs).getLast?) :
    ¬ p c := by
  rw [dropEndWhile, List.getLast?_reverse] at h
  exact not_of_mem_head?_dropWhile h

theorem dropWhile_eq_self (h : ∀ c ∈ cs.head?, ¬ p c) : cs.dropWhile p = cs := by
  cases cs with
  | nil => rfl
  | cons c cs => exact List.dropWhile_cons_of_neg (h c rfl)

theorem dropEndWhile_eq_self (h : ∀ c ∈ cs.getLast?, ¬ p c) : dropEndWhile p cs = cs := by
  rw [dropEndWhile, dropWhile_eq_self, List.reverse_reverse]
  rwa [List.head?_reverse]

theorem dropEndWhile_eq_self_iff : dropEndWhile p cs = cs ↔ ∀ c ∈ cs.getLast?, ¬ p c := by
  refine ⟨fun h c hc => ?_, dropEndWhile_eq_self⟩
  rw [← h] at hc
  exact not_of_mem_getLast?_dropEndWhile hc

theorem head?_dropEndWhile {c : Char} (h : c ∈ (dropEndWhile p cs).head?) : c ∈ cs.head? := by
  obtain ⟨rest, hrest⟩ := List.rdropWhile_prefix (l := cs) p
  rw [← hrest]
  exact List.mem_head?_append_of_mem_head? h

theorem getLast?_dropWhile {c : Char} (h : c ∈ (cs.dropWhile p).getLast?) : c ∈ cs.getLast? := by
  rw [← List.takeWhile_append_dropWhile (p := p) (l := cs)]
  exact List.mem_getLast?_append_of_mem_getLast? h

theorem mem_dropWhile_of_not {c : Char} (hc : c ∈ cs) (hp : ¬ p c) : c ∈ cs.dropWhile p := by
  rw [← List.takeWhile_append_dropWhile (p := p) (l := cs), List.mem_append] at hc
  exact hc.resolve_left fun htake => hp (List.mem_takeWhile_imp htake)

theorem mem_dropEndWhile_of_not {c : Char} (hc : c ∈ cs) (hp : ¬ p c) :
    c ∈ dropEndWhile p cs :=
  List.mem_reverse.mpr (mem_dropWhile_of_not (List.mem_reverse.mpr hc) hp)

/-! ## Texts put together -/

theorem dropEndWhile_append (start : List Char) (h : ∃ c ∈ cs, ¬ p c) :
    dropEndWhile p (start ++ cs) = start ++ dropEndWhile p cs := by
  obtain ⟨c, hc, hp⟩ := h
  have hne : (cs.reverse.dropWhile p) ≠ [] := by
    rw [ne_eq, List.dropWhile_eq_nil_iff]
    exact fun hall => hp (hall c (List.mem_reverse.mpr hc))
  rw [dropEndWhile, dropEndWhile, List.reverse_append, List.dropWhile_append,
    if_neg (by simpa using hne), List.reverse_append, List.reverse_reverse]

theorem exists_not_of_dropEndWhile_ne_nil (h : dropEndWhile p cs ≠ []) : ∃ c ∈ cs, ¬ p c := by
  by_contra hnone
  have hall : ∀ c ∈ cs.reverse, p c := fun c hc =>
    of_not_not fun hp => hnone ⟨c, List.mem_reverse.mp hc, hp⟩
  rw [dropEndWhile, List.dropWhile_eq_nil_iff.mpr hall] at h
  exact h rfl

theorem dropEndWhile_append_of_forall {tail : List Char} (h : ∀ c ∈ tail, p c) :
    dropEndWhile p (cs ++ tail) = dropEndWhile p cs := by
  rw [dropEndWhile, List.reverse_append, List.dropWhile_append_of_pos, dropEndWhile]
  exact fun c hc => h c (List.mem_reverse.mp hc)

theorem dropEndWhile_eq_nil (h : ∀ c ∈ cs, p c) : dropEndWhile p cs = [] :=
  (dropEndWhile_append_of_forall h : dropEndWhile p ([] ++ cs) = dropEndWhile p [])

theorem dropEndWhile_append_of_getLast? {start : List Char} (h : ∃ c ∈ start.getLast?, ¬ p c) :
    dropEndWhile p (start ++ cs) = start ++ dropEndWhile p cs := by
  by_cases hcs : ∃ c ∈ cs, ¬ p c
  · exact dropEndWhile_append start hcs
  · simp only [not_exists, not_and, not_not] at hcs
    rw [dropEndWhile_append_of_forall hcs, dropEndWhile_eq_nil hcs, List.append_nil]
    obtain ⟨c, hc, hp⟩ := h
    refine dropEndWhile_eq_self fun c' hc' => ?_
    rwa [← Option.mem_unique hc hc']

end Trim

/-! ## White space at both ends -/

theorem trim_sublist (cs : List Char) : (trim cs).Sublist cs :=
  (List.rdropWhile_prefix isBlank _).sublist.trans (List.dropWhile_sublist isBlank)

theorem mem_trim_of_not_blank {c : Char} {cs : List Char} (hc : c ∈ cs) (hblank : ¬ isBlank c) :
    c ∈ trim cs :=
  mem_dropEndWhile_of_not (mem_dropWhile_of_not hc hblank) hblank

theorem trim_eq_nil_iff {cs : List Char} : trim cs = [] ↔ ∀ c ∈ cs, isBlank c := by
  constructor
  · intro h c hc
    by_contra hblank
    have hmem := mem_trim_of_not_blank hc hblank
    rw [h] at hmem
    cases hmem
  · intro h
    rw [trim, List.dropWhile_eq_nil_iff.mpr h]
    rfl

theorem trim_eq_self_iff {cs : List Char} :
    trim cs = cs ↔ (∀ c ∈ cs.head?, ¬ isBlank c) ∧ ∀ c ∈ cs.getLast?, ¬ isBlank c := by
  constructor
  · intro h
    refine ⟨fun c hc => ?_, fun c hc => ?_⟩ <;> rw [← h] at hc
    · exact not_of_mem_head?_dropWhile (head?_dropEndWhile hc)
    · exact not_of_mem_getLast?_dropEndWhile hc
  · rintro ⟨hhead, hlast⟩
    rw [trim, dropWhile_eq_self hhead, dropEndWhile_eq_self hlast]

/-- Behind a start without white space at its ends, only the end of a text is trimmed. -/
theorem trim_append {start : List Char} (hhead : ∃ c ∈ start.head?, ¬ isBlank c)
    (hlast : ∃ c ∈ start.getLast?, ¬ isBlank c) (cs : List Char) :
    trim (start ++ cs) = start ++ dropEndWhile isBlank cs := by
  have hstart : (start ++ cs).dropWhile isBlank = start ++ cs := by
    obtain ⟨c, hc, hblank⟩ := hhead
    refine dropWhile_eq_self fun c' hc' => ?_
    rwa [← Option.mem_unique (List.mem_head?_append_of_mem_head? hc) hc']
  rw [trim, hstart, dropEndWhile_append_of_getLast? hlast]

end Dialogue.Text
