import Dialogue.Proofs.Text.NormalForm
/-!
# Questions about someone

To ask who someone is and to name them come to the same: the subject that is found in a question is
the normal form of what follows its first words.  Whether a sigma is final does not depend on those
words, for a blank keeps apart what stands on its two sides.
-/

namespace Dialogue

namespace Text

/-! ## What stands in front -/

theorem apart_blankRanges : ∀ r ∈ casedRanges ++ caseIgnorableRanges, ∀ s ∈ blankRanges,
    r.2 < s.1 ∨ s.2 < r.1 := by
  decide +kernel

theorem inRanges_eq_false_of_isBlank {ranges : List (Nat × Nat)}
    (hranges : ranges ⊆ casedRanges ++ caseIgnorableRanges) {c : Char} (h : isBlank c) :
    inRanges ranges c = false := by
  obtain ⟨s, hs, hin⟩ := List.any_eq_true.mp h
  refine List.any_eq_false.mpr fun r hr => ?_
  have hapart := apart_blankRanges r (hranges hr) s hs
  simp only [Bool.and_eq_true, decide_eq_true_eq] at hin ⊢
  omega

/-- A cased letter is looked for up to the next blank. -/
theorem meetsCased_append_blank {b : Char} (hblank : isBlank b) (cs rest : List Char) :
    meetsCased (cs ++ b :: rest) = meetsCased cs := by
  have hcased : isCased b = false :=
    inRanges_eq_false_of_isBlank (List.subset_append_left _ _) hblank
  have hignorable : isCaseIgnorable b = false :=
    inRanges_eq_false_of_isBlank (List.subset_append_right _ _) hblank
  induction cs with
  | nil => simp [meetsCased, hignorable, hcased]
  | cons c cs ih =>
    cases hc : isCaseIgnorable c with
    | true => simpa [meetsCased, hc] using ih
    | false => simp [meetsCased, hc]

theorem lowerAfter_append_blank {b : Char} (hblank : isBlank b) (before rest cs : List Char) :
    lowerAfter (before ++ b :: rest) cs = lowerAfter before cs := by
  induction cs generalizing before with
  | nil => rfl
  | cons c cs ih =>
    have htail := ih (c :: before)
    rw [List.cons_append] at htail
    rw [lowerAfter, lowerAfter, lowerSigma, lowerSigma, meetsCased_append_blank hblank, htail]

theorem lowerAfter_append_lower {start : List Char} (h : ∀ c ∈ start, Lower c)
    (before cs : List Char) :
    lowerAfter before (start ++ cs) = start ++ lowerAfter (start.reverse ++ before) cs := by
  induction start generalizing before with
  | nil => rfl
  | cons c start ih =>
    rw [List.forall_mem_cons] at h
    rw [List.cons_append, lowerAfter, if_neg h.1.1, h.1.2, ih h.2, List.reverse_cons,
      List.append_assoc]
    rfl

theorem lower_of_isBlank {c : Char} (h : isBlank c) : Lower c := by
  have hout : ∀ r ∈ caseRuns, ∀ s ∈ blankRanges, r.last < s.1 ∨ s.2 < r.first := by
    decide +kernel
  obtain ⟨s, hs, hin⟩ := List.any_eq_true.mp h
  simp only [Bool.and_eq_true, decide_eq_true_eq] at hin
  refine lower_of_findSome?_eq_none (List.findSome?_eq_none_iff.mpr fun r hr => if_neg ?_) ?_
  · have hapart := hout r hr s hs
    omega
  · rintro rfl
    revert h
    decide

end Text

/-! ## Questions -/

open Text in
/-- First words that end with a blank are kept by normalizing, and so is the normal form of what
follows them. -/
theorem normalizeChars_append_blank (start : List Char) (b : Char) (hlower : ∀ c ∈ start, Lower c)
    (hstart : ∀ c ∈ start.head?, ¬ isBlank c) (hne : start ≠ []) (hblank : isBlank b)
    {cs : List Char} (hcs : normalizeChars cs ≠ []) :
    ∃ blanks, (∀ c ∈ blanks, isBlank c) ∧
      normalizeChars (start ++ b :: cs) = start ++ b :: (blanks ++ normalizeChars cs) := by
  have hrest : ∃ c ∈ cs.dropWhile isBlank, ¬ isClosing c := by
    refine exists_not_of_dropEndWhile_ne_nil fun hnil => hcs ?_
    rw [normalizeChars, hnil]
    rfl
  have hblanks : ∀ c ∈ cs.takeWhile isBlank, isBlank c := fun c hc => List.mem_takeWhile_imp hc
  refine ⟨cs.takeWhile isBlank, hblanks, ?_⟩
  have hsplit : start ++ b :: cs =
      (start ++ b :: cs.takeWhile isBlank) ++ cs.dropWhile isBlank := by simp
  have hhead : ∀ c ∈ (start ++ b :: cs).head?, ¬ isBlank c := by
    rw [List.head?_append_of_ne_nil _ hne]
    exact hstart
  have hlowerStart : ∀ c ∈ start ++ b :: cs.takeWhile isBlank, Lower c := by
    intro c hc
    rcases List.mem_append.mp hc with hc | hc
    · exact hlower c hc
    · rcases List.mem_cons.mp hc with rfl | hc
      · exact lower_of_isBlank hblank
      · exact lower_of_isBlank (hblanks c hc)
  -- what is in front of the letters ends with a blank, so the letters are lowered as on their own
  obtain ⟨front, last, hlast, hfront⟩ : ∃ front last, isBlank last ∧
      (start ++ b :: cs.takeWhile isBlank).reverse ++ [] = last :: front := by
    rw [List.append_nil, List.reverse_append, List.reverse_cons, List.append_assoc]
    cases hrev : (cs.takeWhile isBlank).reverse with
    | nil => exact ⟨start.reverse, b, hblank, rfl⟩
    | cons c rest =>
      exact ⟨_, c, hblanks c (List.mem_reverse.mp (hrev ▸ List.mem_cons_self)), rfl⟩
  rw [normalizeChars, dropWhile_eq_self hhead, hsplit, dropEndWhile_append _ hrest, toLower,
    lowerAfter_append_lower hlowerStart, hfront]
  have halone := lowerAfter_append_blank hlast [] front
  rw [List.nil_append] at halone
  rw [halone, normalizeChars, toLower]
  simp

open Text in
theorem trim_append_normalizeChars {blanks cs : List Char} (hblanks : ∀ c ∈ blanks, isBlank c) :
    trim (blanks ++ normalizeChars cs) = normalizeChars cs := by
  have hnormal := normal_normalizeChars cs
  rw [trim, List.dropWhile_append_of_pos hblanks, dropWhile_eq_self hnormal.head,
    dropEndWhile_eq_self]
  exact fun c hc hblank => hnormal.last c hc (isClosing_of_isBlank hblank)

namespace Grammar

theorem heard_question {subject : String} (hsubject : normalize subject ≠ "") :
    ∃ blanks, (∀ c ∈ blanks, Text.isBlank c) ∧ (normalize ("who is " ++ subject)).toList =
      "who is ".toList ++ (blanks ++ (normalize subject).toList) := by
  have hne : normalizeChars subject.toList ≠ [] := by
    intro hnil
    rw [normalize, hnil] at hsubject
    exact hsubject rfl
  have hstart : "who is ".toList = ['w', 'h', 'o', ' ', 'i', 's'] ++ [' '] := String.toList_ofList
  have hlower : ∀ c ∈ ['w', 'h', 'o', ' ', 'i', 's'], Text.Lower c := by
    simp only [List.forall_mem_cons]
    refine ⟨?_, ?_, ?_, ?_, ?_, ?_, List.forall_mem_nil _⟩ <;> decide +kernel
  have hhead : ∀ c ∈ ['w', 'h', 'o', ' ', 'i', 's'].head?, ¬ Text.isBlank c := by
    rintro c ⟨⟩
    decide
  obtain ⟨blanks, hblanks, hheard⟩ :=
    normalizeChars_append_blank _ ' ' hlower hhead (by decide) (by decide) hne
  refine ⟨blanks, hblanks, ?_⟩
  rw [normalize, normalize, String.toList_append, hstart, String.toList_ofList,
    String.toList_ofList, List.append_assoc, List.append_assoc]
  exact hheard

theorem subjectOf?_question {subject : String} (hsubject : normalize subject ≠ "") :
    subjectOf? (normalize ("who is " ++ subject)).toList = some (normalize subject).toList := by
  obtain ⟨blanks, hblanks, hheard⟩ := heard_question hsubject
  have hfound : (questions.findSome? fun q => Text.afterFirst? q.toList
      (normalize ("who is " ++ subject)).toList) =
        some (blanks ++ (normalize subject).toList) := by
    rw [hheard, questions, List.findSome?_cons, Text.afterFirst?_append]
  have hname : (normalize subject).toList.isEmpty = false := by
    rw [List.isEmpty_eq_false_iff]
    exact fun hnil => hsubject (String.toList_inj.mp hnil)
  rw [subjectOf?, hfound, Option.map_some]
  rw [normalize, String.toList_ofList] at hname ⊢
  rw [trim_append_normalizeChars hblanks, Option.filter_some, hname]
  rfl

end Grammar

end Dialogue
