import Dialogue.Proofs.Text.Occurrence
import Dialogue.Proofs.Text.Trimming
import Dialogue.Resolver.Grammar
import Dialogue.Resolver.Prediction
/-!
# Normal forms

A text in normal form is in lower case, does not start with white space, and ends with neither white
space nor closing punctuation.  Normalizing makes such texts and leaves them alone, and the subjects
that resolvers find in questions are among them.
-/

namespace Dialogue

namespace Text

/-! ## Lower-case letters -/

def CaseRun.highest (r : CaseRun) : Nat :=
  r.lower + (r.last - r.first)

/-- Whether no lower-case letter of `r` is lowered again by `r'`: they stand apart, or at places of
different parity. -/
def CaseRun.apart (r r' : CaseRun) : Bool :=
  Nat.blt r.highest r'.first || Nat.blt r'.last r.lower ||
    (r.step == 2 || r.first == r.last) && r'.step == 2 && (r.lower + r'.first) % 2 == 1

/-- Where no lower-case letter of a run stands: closing punctuation, the capital i with a dot, and
what is no character. -/
def otherRanges : List (Nat × Nat) :=
  [(0x21, 0x21), (0x2c, 0x2c), (0x2e, 0x2e), (0x3f, 0x3f), (0x130, 0x130), (0xd800, 0xdfff)]

theorem apart_caseRuns : (caseRuns.all fun r => caseRuns.all r.apart) = true := by
  decide +kernel

theorem clear_caseRuns : ∀ r ∈ caseRuns, r.highest < 0x110000 ∧
    ∀ s ∈ blankRanges ++ otherRanges, r.highest < s.1 ∨ s.2 < r.lower := by
  decide +kernel

theorem CaseRun.lower?_eq_some {r : CaseRun} {n m : Nat} (h : r.lower? n = some m) :
    r.lower ≤ m ∧ m ≤ r.highest ∧ (m - r.lower) % r.step = 0 := by
  obtain ⟨⟨hfirst, hlast, hstep⟩, rfl⟩ := Option.ite_none_right_eq_some.mp h |>.imp_right
    Option.some.inj
  refine ⟨Nat.le_add_right _ _, ?_, ?_⟩
  · exact Nat.add_le_add_left (Nat.sub_le_sub_right hlast _) _
  · rwa [Nat.add_sub_cancel_left]

theorem CaseRun.lower?_eq_none_of_apart {r r' : CaseRun} (h : r.apart r') {n m : Nat}
    (hlower : r.lower? n = some m) : r'.lower? m = none := by
  obtain ⟨hle, hge, hstep⟩ := lower?_eq_some hlower
  refine if_neg ?_
  rintro ⟨hfirst, hlast, hstep'⟩
  simp only [apart, Bool.or_eq_true, Bool.and_eq_true, beq_iff_eq, Nat.blt_eq] at h
  rcases h with (h | h) | ⟨⟨hsteps, htwo⟩, hparity⟩
  · omega
  · omega
  · have heven : (m - r.lower) % 2 = 0 := by
      rcases hsteps with htwo | hsingle
      · rwa [htwo] at hstep
      · unfold highest at hge
        omega
    rw [htwo] at hstep'
    omega

/-- A letter is its own lower case, or its lower case stands clear of all that normalizing
changes. -/
theorem lowerLetter_cases (c : Char) :
    (lowerLetter c = c ∧ caseRuns.findSome? (·.lower? c.toNat) = none) ∨
      caseRuns.findSome? (·.lower? (lowerLetter c).toNat) = none ∧
        lowerLetter c ≠ '\u0130' ∧ isClosing (lowerLetter c) = false := by
  cases hlower : caseRuns.findSome? (·.lower? c.toNat) with
  | none => exact Or.inl ⟨by simp only [lowerLetter, hlower], rfl⟩
  | some m =>
    obtain ⟨r, hr, hm⟩ := List.exists_of_findSome?_eq_some hlower
    obtain ⟨hbound, hclear⟩ := clear_caseRuns r hr
    obtain ⟨hle, hge, -⟩ := CaseRun.lower?_eq_some hm
    have hout : ∀ s ∈ blankRanges ++ otherRanges, ¬ (s.1 ≤ m ∧ m ≤ s.2) := by
      intro s hs
      have := hclear s hs
      omega
    have hvalid : m.isValidChar := by
      have := hout (0xd800, 0xdfff) (by decide)
      simp only [Nat.isValidChar]
      omega
    have hletter : lowerLetter c = Char.ofNatAux m hvalid := by
      rw [lowerLetter, hlower]
      exact dif_pos hvalid
    have hnat : (lowerLetter c).toNat = m := by
      rw [hletter]
      rfl
    have hne : ∀ x : Char, (x.toNat, x.toNat) ∈ otherRanges → lowerLetter c ≠ x := by
      rintro x hx rfl
      exact hout _ (List.mem_append_right _ hx) (by simp [hnat])
    refine Or.inr ⟨?_, hne _ (by decide), ?_⟩
    · rw [hnat, List.findSome?_eq_none_iff]
      intro r' hr'
      have hapart := List.all_eq_true.mp (List.all_eq_true.mp apart_caseRuns r hr) r' hr'
      exact CaseRun.lower?_eq_none_of_apart hapart hm
    · have hblank : isBlank (lowerLetter c) = false := by
        rw [isBlank, inRanges, hnat, List.any_eq_false]
        intro s hs
        simpa using hout s (List.mem_append_left _ hs)
      simp [isClosing, hblank, hne '.' (by decide), hne '?' (by decide), hne '!' (by decide),
        hne ',' (by decide)]

def Lower (c : Char) : Prop :=
  c ≠ 'Σ' ∧ lowerChar c = [c]

instance (c : Char) : Decidable (Lower c) :=
  inferInstanceAs (Decidable (_ ∧ _))

theorem lower_of_findSome?_eq_none {c : Char}
    (h : caseRuns.findSome? (·.lower? c.toNat) = none) (hdot : c ≠ '\u0130') : Lower c := by
  refine ⟨?_, ?_⟩
  · rintro rfl
    revert h
    decide
  · rw [lowerChar, if_neg hdot, lowerLetter, h]

/-! ## Lower case -/

/-- Whatever a character is lowered to is in lower case; it is the character itself, or nothing that
is dropped from the end of a text. -/
theorem lower_of_mem_lowered {before cs : List Char} {c x : Char}
    (hx : x ∈ if c = 'Σ' then [lowerSigma before cs] else lowerChar c) :
    Lower x ∧ (x = c ∨ isClosing x = false) := by
  split at hx
  · rw [List.mem_singleton.mp hx]
    unfold lowerSigma
    split <;> exact ⟨by decide, Or.inr (by decide)⟩
  · by_cases hdot : c = '\u0130'
    · rw [lowerChar, if_pos hdot] at hx
      rcases List.mem_pair.mp hx with rfl | rfl <;> exact ⟨by decide, Or.inr (by decide)⟩
    · rw [lowerChar, if_neg hdot] at hx
      rw [List.mem_singleton.mp hx]
      rcases lowerLetter_cases c with ⟨heq, hnone⟩ | ⟨hnone, hne, hclosing⟩
      · rw [heq]
        exact ⟨lower_of_findSome?_eq_none hnone hdot, Or.inl rfl⟩
      · exact ⟨lower_of_findSome?_eq_none hnone hne, Or.inr hclosing⟩

theorem lowered_ne_nil (before cs : List Char) (c : Char) :
    (if c = 'Σ' then [lowerSigma before cs] else lowerChar c) ≠ [] := by
  unfold lowerChar
  split <;> [skip; split] <;> exact List.cons_ne_nil _ _

theorem lower_of_mem_lowerAfter {before cs : List Char} {x : Char}
    (hx : x ∈ lowerAfter before cs) : Lower x := by
  induction cs generalizing before with
  | nil => cases hx
  | cons c cs ih =>
    rcases List.mem_append.mp hx with hx | hx
    · exact (lower_of_mem_lowered hx).1
    · exact ih hx

theorem lowerAfter_eq_self {cs : List Char} (h : ∀ c ∈ cs, Lower c) (before : List Char) :
    lowerAfter before cs = cs := by
  induction cs generalizing before with
  | nil => rfl
  | cons c cs ih =>
    rw [List.forall_mem_cons] at h
    rw [lowerAfter, if_neg h.1.1, h.1.2, ih h.2]
    rfl

theorem head?_lowerAfter {before cs : List Char} {x : Char}
    (hx : x ∈ (lowerAfter before cs).head?) : x ∈ cs.head? ∨ isClosing x = false := by
  cases cs with
  | nil => cases hx
  | cons c cs =>
    rw [lowerAfter, List.head?_append_of_ne_nil _ (lowered_ne_nil before cs c)] at hx
    refine (lower_of_mem_lowered (List.mem_of_mem_head? hx)).2.imp_left ?_
    rintro rfl
    rfl

theorem getLast?_lowerAfter {before cs : List Char} {x : Char}
    (hx : x ∈ (lowerAfter before cs).getLast?) : x ∈ cs.getLast? ∨ isClosing x = false := by
  induction cs generalizing before with
  | nil => cases hx
  | cons c cs ih =>
    rw [lowerAfter] at hx
    cases cs with
    | nil =>
      rw [lowerAfter, List.append_nil] at hx
      refine (lower_of_mem_lowered (List.mem_of_mem_getLast? hx)).2.imp_left ?_
      rintro rfl
      rfl
    | cons d cs =>
      have hne : lowerAfter (c :: before) (d :: cs) ≠ [] := by
        rw [lowerAfter]
        exact List.append_ne_nil_of_left_ne_nil (lowered_ne_nil _ _ _) _
      rw [List.getLast?_append_of_ne_nil _ hne] at hx
      rw [List.getLast?_cons_cons]
      exact ih hx

/-! ## Normal forms -/

theorem isClosing_iff {c : Char} : isClosing c ↔ isBlank c ∨ c ∈ ['.', '?', '!', ','] := by
  simp [isClosing, or_assoc]

theorem isClosing_of_isBlank {c : Char} (h : isBlank c) : isClosing c :=
  isClosing_iff.mpr (Or.inl h)

structure Normal (cs : List Char) : Prop where
  lower : ∀ c ∈ cs, Lower c
  head : ∀ c ∈ cs.head?, ¬ isBlank c
  last : ∀ c ∈ cs.getLast?, ¬ isClosing c

theorem normal_normalizeChars (cs : List Char) : Normal (normalizeChars cs) where
  lower _ hc := lower_of_mem_lowerAfter hc
  head c hc hblank := by
    rcases head?_lowerAfter hc with hc | hopen
    · exact not_of_mem_head?_dropWhile (head?_dropEndWhile hc) hblank
    · rw [isClosing_of_isBlank hblank] at hopen
      cases hopen
  last c hc hclosing := by
    rcases getLast?_lowerAfter hc with hc | hopen
    · exact not_of_mem_getLast?_dropEndWhile hc hclosing
    · rw [hclosing] at hopen
      cases hopen

theorem normalizeChars_of_normal {cs : List Char} (h : Normal cs) : normalizeChars cs = cs := by
  rw [normalizeChars, dropWhile_eq_self h.head, dropEndWhile_eq_self h.last]
  exact lowerAfter_eq_self h.lower []

theorem normalizeChars_blanks_append {blanks : List Char} (h : ∀ c ∈ blanks, isBlank c)
    (cs : List Char) : normalizeChars (blanks ++ cs) = normalizeChars cs := by
  rw [normalizeChars, List.dropWhile_append_of_pos h, normalizeChars]

theorem normalizeChars_append_closing {tail : List Char} (h : ∀ c ∈ tail, isClosing c)
    (cs : List Char) : normalizeChars (cs ++ tail) = normalizeChars cs := by
  have htrim : dropEndWhile isClosing ((cs ++ tail).dropWhile isBlank) =
      dropEndWhile isClosing (cs.dropWhile isBlank) := by
    rw [List.dropWhile_append]
    split
    -- of a text that is all blank nothing is left, and the tail is dropped from the end
    · next hblank =>
      rw [List.isEmpty_iff.mp hblank]
      exact dropEndWhile_eq_nil fun c hc => h c ((List.dropWhile_sublist _).subset hc)
    · exact dropEndWhile_append_of_forall h
  rw [normalizeChars, htrim, normalizeChars]

theorem Normal.trim {cs rest : List Char} (h : Normal cs) (hrest : rest <:+ cs) :
    Normal (trim rest) := by
  obtain ⟨start, rfl⟩ := hrest
  have hlast : ∀ c ∈ (rest.dropWhile isBlank).getLast?, ¬ isClosing c := fun c hc =>
    h.last c (List.mem_getLast?_append_of_mem_getLast? (getLast?_dropWhile hc))
  have htrim : Text.trim rest = rest.dropWhile isBlank :=
    dropEndWhile_eq_self fun c hc hblank => hlast c hc (isClosing_of_isBlank hblank)
  rw [htrim]
  refine ⟨fun c hc => ?_, fun c hc => not_of_mem_head?_dropWhile hc, hlast⟩
  exact h.lower c (List.mem_append_right _ ((List.dropWhile_sublist _).subset hc))

end Text

theorem normalize_eq_self {cs : List Char} (h : Text.Normal cs) :
    normalize (String.ofList cs) = String.ofList cs := by
  rw [normalize, String.toList_ofList, Text.normalizeChars_of_normal h]

theorem normalize_normalize (text : String) : normalize (normalize text) = normalize text :=
  normalize_eq_self (Text.normal_normalizeChars text.toList)

/-- `normalize` is idempotent and trims both ends.  White space in front of a text, and white space
and closing punctuation behind it, do not change its normal form. -/
theorem normalize_settled (text : String) :
    normalize (normalize text) = normalize text ∧
      (∀ c ∈ (normalize text).toList.head?, ¬ Text.isBlank c) ∧
      (∀ c ∈ (normalize text).toList.getLast?,
        ¬ Text.isBlank c ∧ c ∉ ['.', '?', '!', ',']) ∧
      (∀ blanks rest : String, (∀ c ∈ blanks.toList, Text.isBlank c) → text = blanks ++ rest →
        normalize rest = normalize text) ∧
      ∀ tail : String, (∀ c ∈ tail.toList, Text.isBlank c ∨ c ∈ ['.', '?', '!', ',']) →
        normalize (text ++ tail) = normalize text := by
  have hnormal : Text.Normal (normalize text).toList := by
    rw [normalize, String.toList_ofList]
    exact Text.normal_normalizeChars text.toList
  refine ⟨normalize_normalize text, hnormal.head, fun c hc => ?_, ?_, fun tail htail => ?_⟩
  · rw [← not_or, ← Text.isClosing_iff]
    exact hnormal.last c hc
  · rintro blanks rest hblanks rfl
    rw [normalize, normalize, String.toList_append, Text.normalizeChars_blanks_append hblanks]
  · have hclosing : ∀ c ∈ tail.toList, isClosing c := fun c hc =>
      Text.isClosing_iff.mpr (htail c hc)
    rw [normalize, String.toList_append, Text.normalizeChars_append_closing hclosing, normalize]

theorem normalize_settled_odos :
    normalize " ΟΔΟΣ" = "οδος" ∧ normalize "ΟΔΟΣ" = normalize " ΟΔΟΣ" ∧
      normalize (" ΟΔΟΣ" ++ ".\u2003?") = normalize " ΟΔΟΣ" ∧
      normalize "οδος" = "οδος" := by
  have hvalue : normalize " ΟΔΟΣ" = "οδος" := by decide +kernel
  have hblank : " ".toList.all Text.isBlank := by decide +kernel
  have hclosing : ".\u2003?".toList.all isClosing := by decide +kernel
  obtain ⟨hagain, -, -, hfront, hbehind⟩ := normalize_settled " ΟΔΟΣ"
  refine ⟨hvalue, hfront " " "ΟΔΟΣ" (List.all_eq_true.mp hblank) (by decide +kernel),
    hbehind ".\u2003?" (fun c hc => ?_), ?_⟩
  · exact Text.isClosing_iff.mp (List.all_eq_true.mp hclosing c hc)
  · rwa [hvalue] at hagain

/-! ## Subjects -/

def Resolver.NamesSubjects (resolver : Resolver) : Prop :=
  ∀ ctx subject, resolver.subject ctx = some subject →
    subject ≠ "" ∧ normalize subject = subject

theorem Context.normal_heard (ctx : Context) : Text.Normal ctx.heard.toList := by
  rw [heard, normalize, String.toList_ofList]
  exact Text.normal_normalizeChars _

theorem Grammar.namesSubjects_resolver (g : Grammar) : g.resolver.NamesSubjects := by
  intro ctx subject h
  simp only [Grammar.resolver] at h
  obtain ⟨cs, hcs, rfl⟩ := Option.map_eq_some_iff.mp h
  obtain ⟨hfound, hne⟩ := Option.filter_eq_some_iff.mp hcs
  obtain ⟨rest, hrest, rfl⟩ := Option.map_eq_some_iff.mp hfound
  obtain ⟨question, -, hafter⟩ := List.exists_of_findSome?_eq_some hrest
  refine ⟨?_, normalize_eq_self (ctx.normal_heard.trim (Text.suffix_of_afterFirst? hafter))⟩
  intro hempty
  rw [← String.toList_inj, String.toList_ofList] at hempty
  simp [hempty] at hne

theorem Prediction.namesSubjects_resolver (p : Prediction) : p.resolver.NamesSubjects := by
  intro ctx subject h
  simp only [Prediction.resolver, subject?] at h
  split at h
  · obtain ⟨hfound, hne⟩ := Option.filter_eq_some_iff.mp h
    obtain ⟨entity, -, rfl⟩ := Option.map_eq_some_iff.mp hfound
    exact ⟨by simpa using hne, normalize_normalize entity.text⟩
  · cases h

end Dialogue
