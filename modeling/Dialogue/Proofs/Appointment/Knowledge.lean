import Dialogue.Proofs.Appointment.Dispatch
import Dialogue.Proofs.Text.Question
/-!
# What is known

A question about someone goes its whole way in one dispatch: the name is taken from the turn,
looked up, and what the knowledge base holds about it is read out, or it is regretted that there is
nothing.  Between the two a name is normalized twice, and both times to the same.
-/

namespace Dialogue

/-! ## Confidence -/

section Confidence

open Float.Model (UnpackedFloat)

theorem float_le_iff {x y : Float} :
    x ≤ y ↔ UnpackedFloat.le x.toModel.unpack y.toModel.unpack :=
  decide_eq_true_iff

theorem float_lt_iff {x y : Float} :
    x < y ↔ UnpackedFloat.lt x.toModel.unpack y.toModel.unpack :=
  decide_eq_true_iff

theorem not_lt_zero_of_le {x y : Float} (hx : 0 ≤ x) (hle : x ≤ y) : ¬ y < 0 := by
  have hzero : (0 : Float).toModel.unpack = .zero .positive := rfl
  rw [float_le_iff, hzero] at hx
  rw [float_le_iff] at hle
  rw [float_lt_iff, hzero]
  -- only the signs count, so the kinds of the two numbers decide
  revert hx hle
  rcases x.toModel.unpack with (_ | _) | _ | _ | ⟨_ | _, _, _, _⟩ <;>
    rcases y.toModel.unpack with (_ | _) | _ | _ | ⟨_ | _, _, _, _⟩ <;>
      simp [UnpackedFloat.le, UnpackedFloat.lt, UnpackedFloat.compare]
  decide

/-- A threshold from zero to one that is reached is still reached when the confidence is brought
into that interval. -/
theorem Context.le_clampConfidence {threshold x : Float} (hzero : 0 ≤ threshold)
    (hone : threshold ≤ 1) (hx : threshold ≤ x) : threshold ≤ clampConfidence x := by
  rw [clampConfidence, if_neg (not_lt_zero_of_le hzero hx)]
  split
  · exact hone
  · exact hx

end Confidence

/-! ## Knowledge bases -/

/-- The last abstract for a subject in normal form. -/
def KnowledgeBase.abstract? (entries : List (String × String)) (subject : String) :
    Option String :=
  (entries.reverse.find? fun e => normalize e.1 = subject).map Prod.snd

theorem Session.answer_ofEntries (entries : List (String × String)) (subject : String) :
    answer (.ofEntries entries) (normalize subject) =
      ((KnowledgeBase.abstract? entries (normalize subject)).map fun abstract =>
        ({ abstract } : Answer)).getD .blank := by
  have hfound : ((entries.map fun e =>
      (normalize e.1, ({ abstract := e.2 } : Answer))).reverse.find?
        fun p => p.1 = normalize subject).map Prod.snd =
        (KnowledgeBase.abstract? entries (normalize subject)).map fun abstract =>
          ({ abstract } : Answer) := by
    simp only [KnowledgeBase.abstract?, ← List.map_reverse, List.find?_map, Option.map_map,
      Function.comp_def]
  simp only [answer, KnowledgeBase.ofEntries, normalize_normalize, Table.get?_ofList, hfound]

theorem Grammar.get?_question {subject : String} (hsubject : normalize subject ≠ "") :
    appointment.get? ("who is " ++ subject) = none := by
  obtain ⟨blanks, -, hheard⟩ := heard_question hsubject
  have hphrases : ∀ e ∈ appointment.rules.entries,
      "who is ".toList.isPrefixOf e.1.toList = false := by
    decide +kernel
  refine Table.find?_eq_none fun e he heq => ?_
  have hprefix : "who is ".toList.isPrefixOf e.1.toList := by
    rw [heq, hheard, List.isPrefixOf_iff_prefix]
    exact List.prefix_append _ _
  rw [hphrases e he] at hprefix
  cases hprefix

namespace Appointment

structure Hearing : Prop where
  deciding?_query : ∀ id ∈ places, Branch.query.place ∈ shape.lineage id →
    Gate.subject.flow ∉ shape.lineage id →
      deciding? .recognised id =
        some (Branch.query.place, arrowsAt .recognised Branch.query.place)
  path_eq_flow_iff : ∀ id ∈ places,
    (shape.path id = Gate.subject.flowPath ↔ id = Gate.subject.flow)
  flow_ne_root : Gate.subject.flow ≠ Chart.root
  initialLeaf_goal : ¬ shape.isHistory Gate.subject.goal ∧
    shape.initialLeaf Gate.subject.goal = searching

theorem hearing : Hearing := by
  constructor <;> decide +kernel

section Setting

variable {subject : String} {turn : Turn} (hturn : turn.utterance = "who is " ++ subject)
  (hsubject : normalize subject ≠ "")
include hturn hsubject

theorem read?_question (config : Config) (ctx : Context) :
    (cues Grammar.appointment.resolver config).read? .subject (ctx.observe turn) =
        some (normalize subject) ∧
      ∀ category, (cues Grammar.appointment.resolver config).read? (.entity category)
        (ctx.observe turn) = none := by
  constructor
  · have hfound := Grammar.subjectOf?_question hsubject
    rw [← hturn] at hfound
    simp only [cues, Cues.read?, Grammar.resolver, Context.heard, Context.observe, hfound,
      Option.map_some, String.ofList_toList]
  · intro category
    have hphrase := Grammar.get?_question hsubject
    rw [← hturn] at hphrase
    simp only [cues, Cues.read?, Grammar.resolver, Grammar.entity?, Context.observe, hphrase]
    rfl

variable {config : Config} {e : Engine} (hquery : Branch.query.name ∈ e.configuration)
  (hdirect : Gate.subject.flowPath ∉ e.configuration)
  (hconfident : config.confidenceThreshold ≤ Context.clampConfidence turn.confidence)
include hquery hdirect hconfident

theorem Attends.reaction?_question (h : Attends Grammar.appointment.resolver config e) :
    reaction? Grammar.appointment.resolver config e.leaf (e.context.observe turn)
      (.recognised turn) = some (Branch.query.place, Gate.subject.certain) := by
  rw [h.mem_configuration_iff hearing.path_eq_flow_iff hearing.flow_ne_root] at hdirect
  have hdeciding := hearing.deciding?_query _ h.leaf_mem_places (h.place_mem_of_name hquery) hdirect
  refine reaction?_eq_some_iff.mpr ⟨_, hdeciding, ?_⟩
  obtain ⟨hname, hcategories⟩ := read?_question hturn hsubject config e.context
  have hreached : config.confidenceThreshold ≤ (e.context.observe turn).turn.confidence :=
    hconfident
  simp [gateways.arrowsAt_place, Branch.gates, Arrow.helpOf, Gate.certain, Gate.cue,
    Condition.holds, hname, hcategories, hreached]

theorem Settled.question (h : Settled Grammar.appointment.resolver config e) :
    ∃ ticket, Waiting Grammar.appointment.resolver config ticket (e.step (.recognised turn)).1 ∧
      (e.step (.recognised turn)).2.directives = [.lookup ticket (normalize subject)] ∧
      (e.step (.recognised turn)).1.context.slot .title = some (normalize subject) := by
  have hreaction := h.attends.reaction?_question hturn hsubject hquery hdirect hconfident
  have hreceive := Engine.receive?_recognised e turn
  have h' := h.attends.receive hreceive
  have ht := (h.attends.step_spec hreceive).2 _ _ hreaction
  have hdeciding := deciding?_of_reaction? hreaction
  have hleaf : (e.step (.recognised turn)).1.leaf = searching := by
    rw [ht.leaf_initial h' hearing.initialLeaf_goal.1]
    exact hearing.initialLeaf_goal.2
  have htitle : (e.step (.recognised turn)).1.context.slot .title = some (normalize subject) := by
    have heffect : Gate.subject.certain.effect = .fill .title .subject := rfl
    rw [ht.context_eq, heffect, Effect.apply, (read?_question hturn hsubject config e.context).1,
      Context.slot, Context.setSlot, Slots.get_set, if_pos rfl]
  obtain ⟨ticket, name, hwaiting, hasks⟩ := ht.waiting h' hdeciding hleaf
  obtain ⟨-, hname⟩ := ht.of_lookup_mem h' hdeciding (hasks ▸ List.mem_singleton_self _)
  rw [htitle, Option.getD_some] at hname
  exact ⟨ticket, hwaiting, hname ▸ hasks, htitle⟩

end Setting

namespace Waiting

variable {resolver : Resolver} {config : Config} {ticket : Ticket} {e : Engine}
  (h : Waiting resolver config ticket e) (answer : Answer)
include h

theorem slots_step : (e.step (.lookupDone ticket answer)).1.context.slots = e.context.slots := by
  rw [(h.taken answer).context_eq]
  unfold followUp
  split <;> rfl

theorem told (hprompts : config.prompts = {}) (hanswer : answer.hasAbstract) :
    (e.step (.lookupDone ticket answer)).1.leaf = telling ∧
      (e.step (.lookupDone ticket answer)).2.directives = [.speak answer.abstract] := by
  have ht := h.taken answer
  have hkeeps : followUp answer =
      { condition := .answered, effect := .keepAnswer, target := telling } := if_pos hanswer
  have hleaf : (e.step (.lookupDone ticket answer)).1.leaf = telling := by
    rw [h.leaf_step, hkeeps]
  have hkept : (e.step (.lookupDone ticket answer)).1.context.answer = some answer := by
    rw [ht.context_eq, hkeeps]
    rfl
  have hreceive := h.receive?_eq answer
  have hdeciding : ∃ arrows, deciding? .lookupDone e.leaf = some (searching, arrows) ∧
      followUp answer ∈ arrows := by
    rw [h.leaf_eq]
    exact ⟨_, searches.deciding?_lookupDone, followUp_mem answer⟩
  have haway := ht.result_away (h.attends.receive hreceive) hdeciding (by rw [hleaf]; decide)
  refine ⟨hleaf, ?_⟩
  rw [haway, StepResult.directives, hleaf]
  change [Directive.speak (config.prompts.answer.render _)] = _
  rw [hprompts, render_answer, hkept]
  rfl

end Waiting

theorem threshold_of_chart {resolver : Resolver} {config : Config} {c : Chart}
    (h : Appointment.chart resolver config = .ok c) :
    0 ≤ config.confidenceThreshold ∧ config.confidenceThreshold ≤ 1 := by
  have hproblems := problems_of_chart h
  simp only [Config.problems, List.append_eq_nil_iff] at hproblems
  by_contra hthreshold
  rw [if_neg hthreshold] at hproblems
  cases hproblems.1.1

open Session in
/-- In `query` outside its confirmation, `who is ` and a name, heard with enough confidence, sets
`title` to the normal form of the name.  The last abstract for it in `entries` is spoken as it is;
if there is none, or a blank one, the dispatch ends in `query.no_results`. -/
theorem knowledge_dispatch {config : Config} {entries : List (String × String)} {s₀ : Session}
    (hs : Session.appointment Grammar.appointment.resolver config (.ofEntries entries) = .ok s₀)
    (hprompts : config.prompts = {}) (past : List Event) :
    ∃ s, s₀.dispatchAll 2 (past.map fun event => (.ofEntries entries, event)) = some s ∧
      ("query" ∈ s.engine.configuration → "query.confirm_request" ∉ s.engine.configuration →
        ∀ (subject : String) (turn : Turn), turn.utterance = "who is " ++ subject →
          normalize subject ≠ "" → config.confidenceThreshold ≤ turn.confidence →
          ∃ s' said, (∀ bound, 2 ≤ bound →
              s.dispatchWithin bound (.recognised turn) = some (s', said)) ∧
            s'.engine.context.slot .title = some (normalize subject) ∧
            (∀ abstract,
              KnowledgeBase.abstract? entries (normalize subject) = some abstract →
              ¬ Text.allBlank abstract.toList →
                s'.engine.leafPath = "query.speak_result" ∧ said = [.speak abstract]) ∧
            ((∀ abstract,
              KnowledgeBase.abstract? entries (normalize subject) = some abstract →
                Text.allBlank abstract.toList) →
              s'.engine.leafPath = "query.no_results")) := by
  obtain ⟨s, hpast, hsettled⟩ := (settled_appointment hs).dispatchAll
    (past.map fun event => (.ofEntries entries, event))
  refine ⟨s, hpast, fun hquery hdirect subject turn hturn hsubject hconfident => ?_⟩
  obtain ⟨c, hc, hstart⟩ := appointment_eq_ok hs
  have hknowledge : s.knowledge = .ofEntries entries :=
    knowledge_dispatchAll (by rw [hstart]) hpast
  obtain ⟨hzero, hone⟩ := threshold_of_chart hc
  obtain ⟨ticket, hwaiting, hasks, htitle⟩ := hsettled.question hturn hsubject hquery hdirect
    (Context.le_clampConfidence hzero hone hconfident)
  let answer := Session.answer s.knowledge (normalize subject)
  have hanswer : answer = ((KnowledgeBase.abstract? entries (normalize subject)).map
      fun abstract => ({ abstract } : Answer)).getD .blank := by
    rw [← Session.answer_ofEntries, ← hknowledge]
  have hattends := (hwaiting.step answer).1.attends
  have hdrains := drains_of_lookup hasks (drains_of_no_lookup (hwaiting.step answer).2)
  refine ⟨_, _, fun bound hbound => dispatchWithin_of_drains hdrains hbound, ?_,
    fun abstract habstract hblank => ?_, fun hblank => ?_⟩
  · exact (congrArg (Slots.get · .title) (hwaiting.slots_step answer)).trans htitle
  · have heq : answer = { abstract } := by
      rw [hanswer, habstract]
      rfl
    have hanswered : answer.hasAbstract := by simp [heq, Answer.hasAbstract, hblank]
    obtain ⟨hleaf, hsaid⟩ := hwaiting.told answer hprompts hanswered
    refine ⟨?_, ?_⟩
    · exact hattends.leafPath_eq.trans
        ((inquiries.path_eq_telling_iff _ hattends.leaf_mem_places).mpr hleaf)
    · rw [speechOf_cons, speechOf_cons, hasks, hsaid, heq]
      rfl
  · have hnothing : ¬ answer.hasAbstract := by
      rw [hanswer]
      cases habstract : KnowledgeBase.abstract? entries (normalize subject) with
      | none => decide
      | some abstract => simp [Answer.hasAbstract, hblank abstract habstract]
    have hleaf := (hwaiting.step_of_not_hasAbstract hnothing).1
    exact hattends.leafPath_eq.trans (by rw [hleaf, searches.path_eq_regretting])

def turings : List (String × String) :=
  [("Turing", "a runner"), ("turing ", "a mathematician")]

theorem knowledge_dispatch_turing :
    let k : KnowledgeBase := .ofEntries turings
    let s₀ : Session := ⟨.start standard (.withCapacity 64), k⟩
    Session.appointment Grammar.appointment.resolver {} k = .ok s₀ ∧
      ∃ s s', s₀.dispatchAll 2 (asking.dropLast.map fun event => (k, event)) = some s ∧
        "query" ∈ s.engine.configuration ∧ "query.confirm_request" ∉ s.engine.configuration ∧
        s.dispatchWithin 2
            (.recognised { utterance := "who is " ++ "  TURING?!", confidence := 1 }) =
          some (s', [.speak "a mathematician"]) ∧
        s'.engine.leafPath = "query.speak_result" := by
  intro k s₀
  have hs : Session.appointment Grammar.appointment.resolver {} k = .ok s₀ := by
    rw [Session.appointment, chart_standard]
    rfl
  have hasked : (s₀.dispatchAll 2 (asking.dropLast.map fun event => (k, event))).map
      (fun s => s.engine.configuration) = some ["query", "query.question"] := by
    decide +kernel
  obtain ⟨s, hpast, hanswers⟩ := knowledge_dispatch hs rfl asking.dropLast
  rw [hpast] at hasked
  have hconfiguration : s.engine.configuration = ["query", "query.question"] :=
    Option.some.inj hasked
  have hquery : "query" ∈ s.engine.configuration := by simp [hconfiguration]
  have hdirect : "query.confirm_request" ∉ s.engine.configuration := by simp [hconfiguration]
  obtain ⟨s', said, hdispatch, -, htold, -⟩ := hanswers hquery hdirect "  TURING?!"
    { utterance := "who is " ++ "  TURING?!", confidence := 1 } rfl (by decide) (by decide)
  obtain ⟨hleaf, rfl⟩ := htold "a mathematician" (by decide) (by decide)
  exact ⟨hs, s, s', hpast, hquery, hdirect, hdispatch 2 le_rfl, hleaf⟩

end Appointment

end Dialogue
