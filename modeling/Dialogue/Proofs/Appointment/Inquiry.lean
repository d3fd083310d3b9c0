import Dialogue.Proofs.Appointment.Upkeep
import Dialogue.Proofs.Text.NormalForm
/-!
# Questions and answers

A lookup has a subject, and an answer that is read out has an abstract.  A state where a person is
asked about is reached with a subject in the slot of the title, a state where an answer is talked
about with one that has an abstract; neither is lost on a detour.
-/

namespace Dialogue

theorem render_answer (ctx : Context) :
    ({} : Prompts).answer.render ctx = (ctx.answer.map Answer.abstract).getD "" := by
  have hsegments : ({} : Prompts).answer.segments = [.field "abstract"] := by decide
  rw [Template.render, hsegments]
  simp [Template.expand, Context.field?]

namespace Appointment

def searching : StateId := ⟨18⟩

def telling : StateId := ⟨19⟩

def offering : StateId := ⟨20⟩

def inquiring : List StateId :=
  searching :: Gate.subject.rooms

def answering : List StateId :=
  [telling, offering]

/-- In `inquiring` the title is not empty and in normal form, in `answering` there is an answer with
an abstract. -/
structure Informed (leaf : StateId) (ctx : Context) : Prop where
  subject : leaf ∈ inquiring →
    ∃ subject, ctx.slot .title = some subject ∧ subject ≠ "" ∧ normalize subject = subject
  answer : leaf ∈ answering → ∃ answer, ctx.answer = some answer ∧ answer.hasAbstract

theorem lasting_informed : Lasting Informed := by
  intro leaf ctx ctx' hmatches h
  have htitle := hmatches.slot_eq .title (by decide)
  refine ⟨fun hleaf => ?_, fun hleaf => ?_⟩
  · rw [htitle]
    exact h.subject hleaf
  · rw [hmatches.answer_eq]
    exact h.answer hleaf

structure Inquiries : Prop where
  into_inquiring : ∀ id ∈ places, ¬ shape.isCompound id → ∀ kind ∈ EventKind.all,
    ∀ h ∈ deciding? kind id, ∀ a ∈ h.2, shape.initialLeaf a.target ∈ inquiring →
      a.condition.cue? = some .subject ∧ a.effect = .fill .title .subject ∨
        id ∈ inquiring ∧ a.effect ∈ [.nothing, .fill .accept (.entity "accept")]
  into_answering : ∀ id ∈ places, ∀ kind ∈ EventKind.all, ∀ h ∈ deciding? kind id, ∀ a ∈ h.2,
    shape.initialLeaf a.target ∈ answering →
      a.condition = .answered ∧ a.effect = .keepAnswer ∨ id ∈ answering ∧ a.effect = .nothing
  path_eq_telling_iff : ∀ id ∈ places, (shape.path id = "query.speak_result" ↔ id = telling)
  path_eq_offering_iff : ∀ id ∈ places, (shape.path id = "query.meet_person" ↔ id = offering)
  eq_searching_of_looksUpAt : ∀ id ∈ places, looksUpAt id → id = searching

theorem inquiries : Inquiries := by
  constructor <;> decide +kernel

section Setting

variable {resolver : Resolver} {config : Config}

/-- A lookup is begun by the leaf alone, and its subject is the title. -/
theorem lookup_mem_announced {ctx : Context} {l : Lookups} {id : StateId} {ticket : Ticket}
    {subject : String} (h : .lookup ticket subject ∈ announced config ctx l id) :
    looksUpAt id ∧ subject = (ctx.slot .title).getD "" := by
  rcases List.mem_append.mp h with hline | hlookup
  · obtain ⟨line, -, hline⟩ := List.mem_map.mp hline
    cases line <;> cases hline
  · split at hlookup
    · next hlooksUp =>
      obtain ⟨-, hsubject⟩ := Directive.lookup.inj (List.mem_singleton.mp hlookup)
      exact ⟨hlooksUp, hsubject⟩
    · cases hlookup

theorem Effect.lookup_notMem_said {ctx : Context} {effect : Effect} {ticket : Ticket}
    {subject : String} : .lookup ticket subject ∉ effect.said config ctx := by
  unfold said
  split <;> simp

theorem Taken.of_lookup_mem {e : Engine} {event : Event} {source : StateId} {a : Arrow}
    {s : Engine × StepResult} (ht : Taken resolver config e event source a s)
    (h : Attends resolver config e)
    (hdeciding : ∃ arrows, deciding? event.kind e.leaf = some (source, arrows) ∧ a ∈ arrows)
    {ticket : Ticket} {subject : String} (hlookup : .lookup ticket subject ∈ s.2.directives) :
    s.1.leaf = searching ∧ subject = (s.1.context.slot .title).getD "" := by
  rw [ht.result_arrival h hdeciding] at hlookup
  rcases List.mem_append.mp hlookup with hsaid | hannounced
  · exact absurd hsaid Effect.lookup_notMem_said
  · obtain ⟨hlooksUp, hsubject⟩ := lookup_mem_announced hannounced
    exact ⟨inquiries.eq_searching_of_looksUpAt _ ht.attends.leaf_mem_places hlooksUp, hsubject⟩

/-! ## What is known where an arrow leads -/

theorem follows_informed (hresolver : resolver.NamesSubjects) :
    Follows resolver config Informed := by
  intro e event source ctx a h hreaction _ hinformed
  obtain ⟨arrows, hdeciding, ha⟩ := deciding?_of_reaction? hreaction
  have hplace := h.leaf_mem_places
  have hholds := holds_of_reaction? hreaction
  refine ⟨fun hleaf => ?_, fun hleaf => ?_⟩
  · rcases inquiries.into_inquiring _ hplace h.not_isCompound_leaf _ event.kind.mem_all _
      hdeciding _ ha hleaf with ⟨hcue, heffect⟩ | ⟨hbefore, heffect⟩
    · -- the turn carries a subject, which is kept
      obtain ⟨subject, hread⟩ := Condition.read?_of_holds hcue hholds
      rw [heffect, Effect.apply, hread]
      exact ⟨subject, rfl, hresolver ctx subject hread⟩
    · -- the subject is there already, and it stays
      obtain ⟨subject, htitle, hnamed⟩ := hinformed.subject hbefore
      simp only [List.mem_cons, List.not_mem_nil, or_false] at heffect
      rcases heffect with heffect | heffect <;> rw [heffect] <;> exact ⟨subject, htitle, hnamed⟩
  · rcases inquiries.into_answering _ hplace _ event.kind.mem_all _ hdeciding _ ha hleaf with
      ⟨hcondition, heffect⟩ | ⟨hbefore, heffect⟩
    · rw [hcondition] at hholds
      obtain ⟨answer, hanswer, habstract⟩ := (Option.any_eq_true _ _).mp hholds
      rw [heffect]
      exact ⟨answer, hanswer, habstract⟩
    · rw [heffect]
      exact hinformed.answer hbefore

end Setting

/-- The subject of a lookup is in normal form, not empty, and the value of `title`.  In
`query.speak_result` and `query.meet_person` there is an answer with an abstract, which by default
is what `query.speak_result` speaks. -/
theorem inquiry_run {resolver : Resolver} {config : Config} {c : Chart}
    (hc : Appointment.chart resolver config = .ok c)
    (hresolver : (∃ grammar : Grammar, resolver = grammar.resolver) ∨
      ∃ prediction : Prediction, resolver = prediction.resolver)
    (journal : Journal Move) (past : List Event) (event : Event) :
    let e := ((Engine.start c journal).run past).1
    let s := e.step event
    (∀ ticket subject, .lookup ticket subject ∈ s.2.directives →
        subject ≠ "" ∧ normalize subject = subject ∧ s.1.context.slot .title = some subject) ∧
      (e.leafPath = "query.speak_result" ∨ e.leafPath = "query.meet_person" →
        ∃ answer, e.context.answer = some answer ∧ answer.hasAbstract) ∧
      (config.prompts = {} → ∀ source configuration directives,
        s.2 = .transitioned source "query.speak_result" configuration directives →
          ∃ answer, s.1.context.answer = some answer ∧ answer.hasAbstract ∧
            directives = [.speak answer.abstract]) := by
  intro e s
  have hnames : resolver.NamesSubjects := by
    rcases hresolver with ⟨grammar, rfl⟩ | ⟨prediction, rfl⟩
    · exact grammar.namesSubjects_resolver
    · exact prediction.namesSubjects_resolver
  have h : Attends resolver config e := attends_run hc journal past
  have hfollows : Follows resolver config Informed := follows_informed hnames
  have hidle : Informed idle {} :=
    ⟨fun hleaf => absurd hleaf (by decide), fun hleaf => absurd hleaf (by decide)⟩
  have hinformed : Recalls Informed e :=
    hfollows.recalls_start_run lasting_informed hidle hc journal past
  have hstep : Recalls Informed s.1 := hfollows.recalls_step lasting_informed h hinformed event
  refine ⟨fun ticket subject hlookup => ?_, fun hpath => ?_,
    fun hprompts source configuration directives hresult => ?_⟩
  · have haccepted : ∀ reason, s.2 ≠ .ignored reason := by
      intro reason hignored
      rw [hignored] at hlookup
      cases hlookup
    obtain ⟨_, _, _, -, h', -, hdeciding, ht⟩ := h.taken_of_accepted haccepted
    obtain ⟨hleaf, hsubject⟩ := ht.of_lookup_mem h' hdeciding hlookup
    obtain ⟨title, htitle, hne, hnormal⟩ :=
      hstep.here.subject (hleaf ▸ List.mem_cons_self)
    rw [htitle, Option.getD_some] at hsubject
    subst hsubject
    exact ⟨hne, hnormal, htitle⟩
  · rw [h.leafPath_eq, inquiries.path_eq_telling_iff _ h.leaf_mem_places,
      inquiries.path_eq_offering_iff _ h.leaf_mem_places] at hpath
    exact hinformed.here.answer (by simpa [answering] using hpath)
  · have haccepted : ∀ reason, s.2 ≠ .ignored reason := by
      intro reason hignored
      rw [hignored] at hresult
      cases hresult
    obtain ⟨e', from', a, -, h', -, hdeciding, ht⟩ := h.taken_of_accepted haccepted
    have hleaf : s.1.leaf = telling := by
      rw [← inquiries.path_eq_telling_iff _ ht.attends.leaf_mem_places, ← ht.attends.leafPath_eq]
      exact (StepResult.transitioned.inj (ht.result_eq.symm.trans hresult)).2.1
    obtain ⟨answer, hanswer, habstract⟩ := hstep.here.answer (hleaf ▸ List.mem_cons_self)
    have haway := ht.result_away h' hdeciding (by rw [hleaf]; decide)
    obtain ⟨-, -, -, hdirectives⟩ := StepResult.transitioned.inj (hresult.symm.trans haway)
    refine ⟨answer, hanswer, habstract, ?_⟩
    have hsaid : announced config s.1.context (cancelled e' from' a.target) telling =
        [.speak (config.prompts.answer.render s.1.context)] := rfl
    rw [hdirectives, hleaf, hsaid, hprompts, render_answer, hanswer]
    rfl

theorem inquiry_run_asking :
    Appointment.chart Grammar.appointment.resolver {} = .ok standard ∧
      (normalize "turing" = "turing" ∧
        (((Engine.start standard (.withCapacity 4)).run asking.dropLast).1.step
          (.recognised { utterance := "who is Turing", confidence := 0.9 })).1.context.slot .title =
            some "turing") ∧
      ∃ answer, (((Engine.start standard (.withCapacity 4)).run asking).1.step
          (.lookupDone ⟨⟨18⟩, 1⟩ ⟨"a mathematician", none, none⟩)).1.context.answer = some answer ∧
        answer.hasAbstract := by
  obtain ⟨hsubject, -, -⟩ := inquiry_run chart_standard (Or.inl ⟨_, rfl⟩) (.withCapacity 4)
    asking.dropLast (.recognised { utterance := "who is Turing", confidence := 0.9 })
  obtain ⟨-, -, hspoken⟩ := inquiry_run chart_standard (Or.inl ⟨_, rfl⟩) (.withCapacity 4)
    asking (.lookupDone ⟨⟨18⟩, 1⟩ ⟨"a mathematician", none, none⟩)
  obtain ⟨answer, hanswer, habstract, -⟩ := hspoken rfl "query.understood"
    ["query", "query.speak_result"] [.speak "a mathematician"] rfl
  exact ⟨chart_standard, (hsubject ⟨⟨18⟩, 1⟩ "turing" (by decide)).2, answer, hanswer, habstract⟩

end Appointment

end Dialogue
