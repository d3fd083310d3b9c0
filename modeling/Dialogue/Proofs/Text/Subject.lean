import Dialogue.Proofs.Text.NormalForm
/-!
# The subject of a question

A grammar looks for a question anywhere in what was heard: of the questions that it knows, the first
that occurs at all is read where it occurs first, and its subject is what follows, up to white
space.  What stands in front is passed over.  So wherever the question that is read begins the text,
the subject is what follows the first words, and texts that begin otherwise have none.
-/

namespace Dialogue

theorem Text.Normal.trim_ne_nil {start rest : List Char} {b : Char}
    (h : Normal (start ++ b :: rest)) (hblank : isBlank b) : Text.trim rest ≠ [] := by
  intro hnil
  have hblanks : ∀ c ∈ b :: rest, isBlank c :=
    List.forall_mem_cons.mpr ⟨hblank, trim_eq_nil_iff.mp hnil⟩
  have hlast := List.getLast_mem (List.cons_ne_nil b rest)
  refine h.last _ ?_ (isClosing_of_isBlank (hblanks _ hlast))
  rw [List.getLast?_append_of_ne_nil _ (List.cons_ne_nil b rest)]
  exact List.getLast?_eq_some_getLast _

namespace Grammar

open Text (FirstAt)

def asked? (text : List Char) : Option String :=
  questions.find? fun q => decide (q.toList <:+: text)

structure Reads (text before : List Char) (question : String) (subject : List Char) : Prop where
  asked : asked? text = some question
  found : ∃ rest, FirstAt question.toList text before rest ∧ subject = Text.trim rest

def BeginsWith (text : List Char) (question : String) (subject : List Char) : Prop :=
  question ∈ questions ∧ ∃ rest, text = question.toList ++ rest ∧ subject = Text.trim rest

theorem question_eq_append {question : String} (h : question ∈ questions) :
    ∃ start, question.toList = start ++ [' '] := by
  rcases List.mem_pair.mp h with rfl | rfl
  · exact ⟨['w', 'h', 'o', ' ', 'i', 's'], by decide +kernel⟩
  · exact ⟨['w', 'h', 'o', ' ', 'w', 'a', 's'], by decide +kernel⟩

theorem eq_of_prefix {text : List Char} {q q' : String} (hq : q ∈ questions)
    (hq' : q' ∈ questions) (h : q.toList <+: text) (h' : q'.toList <+: text) : q = q' := by
  have hapart : ∀ q ∈ questions, ∀ q' ∈ questions, q.toList <+: q'.toList → q = q' := by
    decide +kernel
  rcases List.prefix_or_prefix_of_prefix h h' with hprefix | hprefix
  · exact hapart q hq q' hq' hprefix
  · exact (hapart q' hq' q hq hprefix).symm

theorem findSome?_afterFirst? (qs : List String) (text : List Char) :
    (qs.findSome? fun q => Text.afterFirst? q.toList text) =
      (qs.find? fun q => decide (q.toList <:+: text)).bind fun q =>
        Text.afterFirst? q.toList text := by
  induction qs with
  | nil => rfl
  | cons q qs ih =>
    rw [List.findSome?_cons, List.find?_cons]
    cases hfound : Text.afterFirst? q.toList text with
    | some rest =>
      have hoccurs : q.toList <:+: text := Text.isSome_afterFirst?_iff.mp (by rw [hfound]; rfl)
      simp [hoccurs, hfound]
    | none =>
      have hoccurs : ¬ q.toList <:+: text := by
        rw [← Text.isSome_afterFirst?_iff, hfound]
        exact Bool.false_ne_true
      simp [hoccurs, ih]

section Normal

variable {text : List Char} (h : Text.Normal text)
include h

theorem Reads.ne_nil {before subject : List Char} {question : String}
    (hreads : Reads text before question subject) : subject ≠ [] := by
  obtain ⟨hasked, rest, hfirst, rfl⟩ := hreads
  obtain ⟨start, hquestion⟩ := question_eq_append (List.mem_of_find?_eq_some hasked)
  have hsplit : text = (before ++ start) ++ ' ' :: rest := by
    rw [hfirst.eq_append, hquestion]
    simp
  rw [hsplit] at h
  exact h.trim_ne_nil (by decide)

theorem subjectOf?_eq_some_iff {subject : List Char} :
    subjectOf? text = some subject ↔ ∃ before question, Reads text before question subject := by
  rw [subjectOf?, findSome?_afterFirst?, ← asked?, Option.filter_eq_some_iff]
  simp only [Option.map_eq_some_iff, Option.bind_eq_some_iff, Text.afterFirst?_eq_some_iff]
  constructor
  · rintro ⟨⟨rest, ⟨question, hasked, before, hfirst⟩, rfl⟩, -⟩
    exact ⟨before, question, hasked, rest, hfirst, rfl⟩
  · rintro ⟨before, question, hreads⟩
    have hne := hreads.ne_nil h
    obtain ⟨hasked, rest, hfirst, rfl⟩ := hreads
    exact ⟨⟨rest, ⟨question, hasked, before, hfirst⟩, rfl⟩, by simpa using hne⟩

theorem subjectOf?_eq_none_iff :
    subjectOf? text = none ↔ ∀ q ∈ questions, ¬ q.toList <:+: text := by
  rw [Option.eq_none_iff_forall_ne_some]
  simp only [ne_eq, subjectOf?_eq_some_iff h]
  constructor
  · intro hnone q hq hoccurs
    obtain ⟨question, hasked⟩ : ∃ question, asked? text = some question :=
      Option.isSome_iff_exists.mp (List.find?_isSome.mpr ⟨q, hq, decide_eq_true hoccurs⟩)
    have hoccurs' : question.toList <:+: text := by simpa using List.find?_some hasked
    obtain ⟨rest, hrest⟩ := Option.isSome_iff_exists.mp (Text.isSome_afterFirst?_iff.mpr hoccurs')
    obtain ⟨before, hfirst⟩ := Text.afterFirst?_eq_some_iff.mp hrest
    exact hnone _ ⟨before, question, hasked, rest, hfirst, rfl⟩
  · rintro hnone subject ⟨before, question, hasked, -⟩
    have hoccurs : question.toList <:+: text := by simpa using List.find?_some hasked
    exact hnone question (List.mem_of_find?_eq_some hasked) hoccurs

end Normal

/-- A question that begins the text, if it is the one that is read, is read as it stands there. -/
theorem reads_iff_beginsWith {text : List Char}
    (h : ∀ q, asked? text = some q → q.toList <+: text) (subject : List Char) :
    (∃ before question, Reads text before question subject) ↔
      ∃ question, BeginsWith text question subject := by
  constructor
  · rintro ⟨before, question, hasked, rest, hfirst, rfl⟩
    obtain ⟨rest', heq⟩ := h question hasked
    obtain ⟨-, rfl⟩ := hfirst.eq_of_prefix heq.symm
    exact ⟨question, List.mem_of_find?_eq_some hasked, rest, heq.symm, rfl⟩
  · rintro ⟨question, hquestion, rest, heq, rfl⟩
    have hprefix : question.toList <+: text := ⟨rest, heq.symm⟩
    obtain ⟨q, hasked⟩ : ∃ q, asked? text = some q :=
      Option.isSome_iff_exists.mp
        (List.find?_isSome.mpr ⟨question, hquestion, decide_eq_true hprefix.isInfix⟩)
    obtain rfl := eq_of_prefix (List.mem_of_find?_eq_some hasked) hquestion (h q hasked) hprefix
    exact ⟨[], q, hasked, rest, Text.firstAt_nil_iff.mpr heq, rfl⟩

/-- The subject of a question is what follows the question that is read in the text, wherever it
stands, trimmed and never empty.  If the question that is read begins the text, this is the subject
of a text that `BeginsWith` a question. -/
theorem subject_reads (g : Grammar) (ctx : Context) :
    (∀ s, g.resolver.subject ctx = some s ↔
      ∃ before question, Reads ctx.heard.toList before question s.toList) ∧
    (∀ s, g.resolver.subject ctx = some s → s ≠ "") ∧
    (g.resolver.subject ctx = none ↔ ∀ q ∈ questions, ¬ q.toList <:+: ctx.heard.toList) ∧
    ((∀ q, asked? ctx.heard.toList = some q → q.toList <+: ctx.heard.toList) →
      ∀ s, g.resolver.subject ctx = some s ↔
        ∃ question, BeginsWith ctx.heard.toList question s.toList) := by
  have hreads : ∀ s, g.resolver.subject ctx = some s ↔
      ∃ before question, Reads ctx.heard.toList before question s.toList := by
    intro s
    rw [← subjectOf?_eq_some_iff ctx.normal_heard, resolver, Option.map_eq_some_iff]
    constructor
    · rintro ⟨cs, hcs, rfl⟩
      rwa [String.toList_ofList]
    · intro hs
      exact ⟨s.toList, hs, String.ofList_toList⟩
  refine ⟨hreads, ?_, ?_, fun hfront s => ?_⟩
  · rintro s hs rfl
    obtain ⟨before, question, hread⟩ := (hreads _).mp hs
    exact hread.ne_nil ctx.normal_heard rfl
  · rw [← subjectOf?_eq_none_iff ctx.normal_heard, resolver, Option.map_eq_none_iff]
  · rw [hreads, reads_iff_beginsWith hfront]

theorem subject_reads_turing :
    asked? (normalize "Who was Alan Turing?").toList = some "who was " ∧
      appointment.resolver.subject { turn := { utterance := "Who was Alan Turing?" } } =
        some "alan turing" ∧
      appointment.resolver.subject
          { turn := { utterance := "Who is the man who was who is now?" } } =
        some "the man who was who is now" := by
  have hturing : normalize "Who was Alan Turing?" = "who was alan turing" := by decide +kernel
  have hman : normalize "Who is the man who was who is now?" =
      "who is the man who was who is now" := by decide +kernel
  have hasked : asked? "who was alan turing".toList = some "who was " := by decide +kernel
  have hagain : asked? "who is the man who was who is now".toList = some "who is " := by
    decide +kernel
  refine ⟨by rw [hturing, hasked], ?_, ?_⟩
  · refine ((subject_reads appointment
      { turn := { utterance := "Who was Alan Turing?" } }).2.2.2 ?_ _).mpr ?_ <;>
      rw [Context.heard, hturing]
    · intro q hq
      obtain rfl := Option.some.inj (hasked.symm.trans hq)
      decide +kernel
    · exact ⟨"who was ", by decide +kernel, "alan turing".toList, by decide +kernel,
        by decide +kernel⟩
  · refine ((subject_reads appointment
      { turn := { utterance := "Who is the man who was who is now?" } }).2.2.2 ?_ _).mpr ?_ <;>
      rw [Context.heard, hman]
    · intro q hq
      obtain rfl := Option.some.inj (hagain.symm.trans hq)
      decide +kernel
    · exact ⟨"who is ", by decide +kernel, "the man who was who is now".toList,
        by decide +kernel, by decide +kernel⟩

/-- `Tell me who is Ada` does not begin with a question, but has the subject `ada`.  `Who was the
man who is here?` begins with one about `the man who is here`, but has the subject `here`. -/
theorem reads_inner_question :
    (¬ ∃ question subject, BeginsWith (normalize "Tell me who is Ada").toList question subject) ∧
      appointment.resolver.subject { turn := { utterance := "Tell me who is Ada" } } =
        some "ada" ∧
      BeginsWith (normalize "Who was the man who is here?").toList "who was "
        "the man who is here".toList ∧
      appointment.resolver.subject { turn := { utterance := "Who was the man who is here?" } } =
        some "here" := by
  have hrequest : normalize "Tell me who is Ada" = "tell me who is ada" := by decide +kernel
  have hman : normalize "Who was the man who is here?" = "who was the man who is here" := by
    decide +kernel
  simp only [resolver, Context.heard, hrequest, hman]
  refine ⟨?_, by decide +kernel, ⟨by decide +kernel, "the man who is here".toList,
    by decide +kernel, by decide +kernel⟩, by decide +kernel⟩
  rintro ⟨question, subject, hquestion, rest, heq, -⟩
  have hnone : ∀ q ∈ questions, ¬ q.toList <+: "tell me who is ada".toList := by
    decide +kernel
  exact hnone question hquestion ⟨rest, heq.symm⟩

end Grammar

end Dialogue
