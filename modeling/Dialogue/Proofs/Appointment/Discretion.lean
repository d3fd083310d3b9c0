import Dialogue.Proofs.Appointment.Renewal
import Dialogue.Resolver.Prediction
/-!
# Discretion

A resolver reads one part of a turn: phrases are read off its normal form, predictions off its
entities and intent.  Two runs whose turns agree in what is read give the same results, but for
prompts that quote the rest.
-/

namespace Dialogue

/-! ## What is said, without the words -/

def Directive.unworded : Directive → Directive
  | speak _ => speak ""
  | directive => directive

def StepResult.unworded : StepResult → StepResult
  | transitioned source target configuration directives =>
    transitioned source target configuration (directives.map Directive.unworded)
  | ignored reason => ignored reason

def Prompts.templates (p : Prompts) : List Template :=
  [p.welcome, p.notRecognised, p.confirmHeard, p.timeout, p.reset, p.welcomeHelp, p.queryHelp,
    p.meetingHelp, p.question, p.answer, p.meetPerson, p.noResults, p.startMeeting, p.what, p.when,
    p.wholeDay, p.time, p.confirmWholeDay, p.confirmMeeting, p.finalized]

namespace Appointment

/-! ## Backends -/

inductive Backend where
  | phrases (grammar : Grammar)
  | predictions (tables : Prediction)

namespace Backend

def resolver : Backend → Resolver
  | phrases grammar => grammar.resolver
  | predictions tables => tables.resolver

def Same : Backend → Turn → Turn → Prop
  | phrases _, turn, turn' =>
    normalize turn.utterance = normalize turn'.utterance ∧ turn.confidence = turn'.confidence
  | predictions _, turn, turn' =>
    turn.entities = turn'.entities ∧ turn.topIntent = turn'.topIntent ∧
      turn.confidence = turn'.confidence

def hidden : Backend → List String
  | phrases _ => ["utterance", "intent"]
  | predictions _ => ["utterance", "heard"]

/-- No prompt quotes what is not read. -/
def Discreet (b : Backend) (prompts : Prompts) : Prop :=
  ∀ t ∈ prompts.templates, ∀ name ∈ b.hidden, name ∉ t.fields

/-- The events differ at most in what is not read of a turn. -/
inductive Echoes (b : Backend) : Event → Event → Prop
  | refl (event : Event) : b.Echoes event event
  | recognised {turn turn' : Turn} (same : b.Same turn turn') :
    b.Echoes (.recognised turn) (.recognised turn')

variable {b : Backend} {turn turn' : Turn} {ctx ctx' : Context} {event event' : Event}

theorem same_refl (b : Backend) (turn : Turn) : b.Same turn turn := by
  cases b with
  | phrases => exact ⟨rfl, rfl⟩
  | predictions => exact ⟨rfl, rfl, rfl⟩

theorem Same.confidence_eq (h : b.Same turn turn') : turn.confidence = turn'.confidence := by
  cases b with
  | phrases => exact h.2
  | predictions => exact h.2.2

theorem Same.observe (h : b.Same turn turn') :
    b.Same (ctx.observe turn).turn (ctx'.observe turn').turn := by
  have hclamped := congrArg Context.clampConfidence h.confidence_eq
  cases b with
  | phrases => exact ⟨h.1, hclamped⟩
  | predictions => exact ⟨h.1, h.2.1, hclamped⟩

theorem Same.concur (h : b.Same ctx.turn ctx'.turn) (config : Config) :
    (cues b.resolver config).Concur ctx ctx' := by
  refine ⟨fun cue => ?_, h.confidence_eq⟩
  cases b with
  | phrases grammar =>
    obtain ⟨hheard, -⟩ := h
    cases cue <;> simp only [cues, Cues.read?, resolver, Grammar.resolver, Grammar.entity?,
      Grammar.get?, Context.heard, hheard]
  | predictions tables =>
    obtain ⟨hentities, hintent, -⟩ := h
    cases cue <;> simp only [cues, Cues.read?, resolver, Prediction.resolver, Prediction.entity?,
      Prediction.subject?, hentities, hintent]

theorem Same.field?_eq (h : b.Same ctx.turn ctx'.turn) (hctx : ctx.Agrees ctx') {name : String}
    (hname : name ∉ b.hidden) : ctx.field? name = ctx'.field? name := by
  have hheard : name ≠ "heard" ∨ ctx.heard = ctx'.heard := by
    cases b with
    | phrases => exact Or.inr h.1
    | predictions => exact Or.inl fun heq => hname (by simp [hidden, heq])
  have hintent : name ≠ "intent" ∨ ctx.turn.topIntent = ctx'.turn.topIntent := by
    cases b with
    | phrases => exact Or.inl fun heq => hname (by simp [hidden, heq])
    | predictions => exact Or.inr h.2.1
  have hutterance : name ≠ "utterance" :=
    fun heq => hname (by cases b <;> simp [hidden, heq])
  have hslots : ctx.slot = ctx'.slot := congrArg Slots.get hctx.slots_eq
  unfold Context.field?
  rw [if_neg hutterance, if_neg hutterance, h.confidence_eq, hctx.answer_eq, hctx.retryCount_eq,
    hslots]
  rcases hheard with hheard | hheard <;> rcases hintent with hintent | hintent <;>
    simp [hheard, hintent]

theorem Discreet.render_eq {prompts : Prompts} (hprompts : b.Discreet prompts) {t : Template}
    (ht : t ∈ prompts.templates) (h : b.Same ctx.turn ctx'.turn) (hctx : ctx.Agrees ctx') :
    t.render ctx = t.render ctx' :=
  Template.render_congr fun _ hname => h.field?_eq hctx fun hhidden => hprompts t ht _ hhidden hname

theorem Echoes.kind_eq (h : b.Echoes event event') : event.kind = event'.kind := by
  cases h <;> rfl

theorem Echoes.answer?_eq (h : b.Echoes event event') : event.answer? = event'.answer? := by
  cases h <;> rfl

end Backend

/-! ## What is said -/

def Line.template? (prompts : Prompts) : Line → Option Template
  | speak text => some (text prompts)
  | listen => none

theorem Line.template_mem (prompts : Prompts) {id : StateId} {line : Line}
    (hline : line ∈ linesAt id) : ∀ t ∈ line.template? prompts, t ∈ prompts.templates := by
  have hrooms : ∀ room ∈ Room.all, ∀ line ∈ room.lines, ∀ t ∈ line.template? prompts,
      t ∈ prompts.templates := by
    simp [Room.all, Room.welcome, Room.query, Room.meeting, Room.branch, Room.say, Room.ask,
      Room.confirmation, Room.history, Room.interlude, Line.template?, Prompts.templates]
  unfold linesAt at hline
  cases hroom : Room.all[id.index]? with
  | none => simp [hroom] at hline
  | some room =>
    rw [hroom] at hline
    exact hrooms room (List.mem_of_getElem? hroom) line hline

theorem Line.unworded_directive {config : Config} (line : Line) (ctx ctx' : Context) :
    (line.directive config ctx).unworded = (line.directive config ctx').unworded := by
  cases line <;> rfl

theorem Effect.unworded_said {config : Config} (effect : Effect) (ctx ctx' : Context) :
    (effect.said config ctx).map Directive.unworded =
      (effect.said config ctx').map Directive.unworded := by
  cases effect <;> rfl

section Setting

variable {b : Backend} {config : Config} {ctx ctx' : Context}

theorem Backend.Discreet.directive_eq (hprompts : b.Discreet config.prompts)
    (h : b.Same ctx.turn ctx'.turn) (hctx : ctx.Agrees ctx') {id : StateId} {line : Line}
    (hline : line ∈ linesAt id) : line.directive config ctx = line.directive config ctx' := by
  cases line with
  | speak text =>
    have hmem := Line.template_mem config.prompts hline _ rfl
    exact congrArg Directive.speak (hprompts.render_eq hmem h hctx)
  | listen => rfl

theorem Backend.Discreet.said_eq (hprompts : b.Discreet config.prompts)
    (h : b.Same ctx.turn ctx'.turn) (effect : Effect) :
    effect.said config ctx = effect.said config ctx' := by
  cases effect with
  | restart =>
    have hmem : config.prompts.reset ∈ config.prompts.templates := by simp [Prompts.templates]
    have hcleared : ctx.cleared.Agrees ctx'.cleared := ⟨rfl, rfl, rfl⟩
    have hturn : b.Same ctx.cleared.turn ctx'.cleared.turn := h
    rw [Effect.said, Effect.said, hprompts.render_eq hmem hturn hcleared]
  | nothing | fill | decline | retry | keepAnswer => rfl

/-! ## Two runs -/

structure Twins (b : Backend) (config : Config) (e e' : Engine) : Prop where
  attends : Attends b.resolver config e
  attends' : Attends b.resolver config e'
  active_eq : e.active = e'.active
  history_eq : e.history = e'.history
  lookups_eq : e.lookups = e'.lookups
  agrees : e.context.Agrees e'.context
  same : b.Same e.context.turn e'.context.turn

theorem twins_refl {e : Engine} (h : Attends b.resolver config e) : Twins b config e e :=
  ⟨h, h, rfl, rfl, rfl, ⟨rfl, rfl, rfl⟩, b.same_refl _⟩

namespace Twins

variable {e e' : Engine} (h : Twins b config e e')
include h

theorem leaf_eq : e.leaf = e'.leaf := by
  rw [Engine.leaf, Engine.leaf, h.active_eq]

theorem leafPath_eq : e.leafPath = e'.leafPath := by
  rw [h.attends.leafPath_eq, h.attends'.leafPath_eq, h.leaf_eq]

theorem configuration_eq : e.configuration = e'.configuration := by
  rw [h.attends.configuration_eq, h.attends'.configuration_eq, h.leaf_eq]

theorem receive {event event' : Event} (hevent : b.Echoes event event') :
    (e.receive? event = none ∧ e'.receive? event' = none) ∨
      ∃ r r', e.receive? event = some r ∧ e'.receive? event' = some r' ∧ Twins b config r r' := by
  cases hevent with
  | @recognised turn turn' hsame =>
    have hr := h.attends.receive (Engine.receive?_recognised e turn)
    have hr' := h.attends'.receive (Engine.receive?_recognised e' turn')
    exact Or.inr ⟨_, _, rfl, rfl, hr, hr', h.active_eq, h.history_eq, h.lookups_eq,
      ⟨h.agrees.slots_eq, h.agrees.answer_eq, rfl⟩, hsame.observe⟩
  | refl =>
    cases event with
    | recognised turn =>
      have hr := h.attends.receive (Engine.receive?_recognised e turn)
      have hr' := h.attends'.receive (Engine.receive?_recognised e' turn)
      exact Or.inr ⟨_, _, rfl, rfl, hr, hr', h.active_eq, h.history_eq, h.lookups_eq,
        ⟨h.agrees.slots_eq, h.agrees.answer_eq, rfl⟩, (b.same_refl turn).observe⟩
    | lookupDone ticket answer =>
      cases hcomplete : e'.lookups.complete? ticket with
      | none =>
        refine Or.inl ⟨?_, ?_⟩ <;> simp only [Engine.receive?, h.lookups_eq, hcomplete] <;> rfl
      | some lookups =>
        have hreceive : e.receive? (.lookupDone ticket answer) = some { e with lookups } := by
          simp only [Engine.receive?, h.lookups_eq, hcomplete, Option.map_some]
        have hreceive' : e'.receive? (.lookupDone ticket answer) = some { e' with lookups } := by
          simp only [Engine.receive?, hcomplete, Option.map_some]
        exact Or.inr ⟨_, _, hreceive, hreceive', h.attends.receive hreceive,
          h.attends'.receive hreceive', h.active_eq, h.history_eq, rfl, h.agrees, h.same⟩
    | click | ttsReady | endSpeech | timeout => exact Or.inr ⟨_, _, rfl, rfl, h⟩

/-! ### One arrow -/

theorem remembered?_eq (source target : StateId) :
    e.remembered? source target = e'.remembered? source target := by
  simp only [Engine.remembered?, Engine.left, Engine.domain, h.attends.chart_eq,
    h.attends'.chart_eq, h.active_eq, h.history_eq, h.leaf_eq]

theorem arrival_eq (source target : StateId) :
    e.arrival source target = e'.arrival source target := by
  rw [Engine.arrival, Engine.arrival, h.remembered?_eq, h.attends.chart_eq, h.attends'.chart_eq]

theorem entered_eq {source : StateId} (hsource : source ∈ e.active) (target : StateId) :
    e.entered source target = e'.entered source target := by
  rw [Engine.entered_eq (h.attends.sound.domain_active hsource _),
    Engine.entered_eq (h.attends'.sound.domain_active (h.active_eq ▸ hsource) _),
    h.remembered?_eq, Engine.domain, Engine.domain, h.attends.chart_eq, h.attends'.chart_eq]

theorem kept_eq (source target : StateId) : e.kept source target = e'.kept source target := by
  simp only [Engine.kept, Engine.domain, h.attends.chart_eq, h.attends'.chart_eq, h.active_eq]

section Step

variable {event event' : Event} {source : StateId} {a : Arrow} {s s' : Engine × StepResult}
  (hevent : b.Echoes event event') (hsource : source ∈ e.active)
  (ht : Taken b.resolver config e event source a s)
  (ht' : Taken b.resolver config e' event' source a s')
include hevent hsource ht ht'

theorem taken : Twins b config s.1 s'.1 where
  attends := ht.attends
  attends' := ht'.attends
  active_eq := by rw [ht.active_eq, ht'.active_eq, h.entered_eq hsource, h.kept_eq]
  history_eq := by rw [ht.history_eq, ht'.history_eq, h.history_eq, h.leaf_eq]
  lookups_eq := by
    rw [ht.lookups_eq, ht'.lookups_eq, h.entered_eq hsource, h.leaf_eq, h.lookups_eq]
  agrees := by
    rw [ht.context_eq, ht'.context_eq]
    exact Effect.agrees_apply h.agrees hevent.answer?_eq fun _ => h.same.concur config
  same := by
    rw [ht.context_eq, ht'.context_eq, Effect.turn_apply, Effect.turn_apply]
    exact h.same

theorem result_taken : s.2.unworded = s'.2.unworded ∧
    (b.Discreet config.prompts → s.2 = s'.2) := by
  have hnext := h.taken hevent hsource ht ht'
  have hlookups : (departed e.leaf source a.target).foldl Lookups.cancel e.lookups =
      (departed e'.leaf source a.target).foldl Lookups.cancel e'.lookups := by
    rw [h.leaf_eq, h.lookups_eq]
  rw [ht.result_eq, ht'.result_eq, hlookups, h.entered_eq hsource, h.leafPath_eq,
    hnext.leafPath_eq, hnext.configuration_eq]
  constructor
  · simp only [StepResult.unworded, List.map_append,
      a.effect.unworded_said e.context e'.context,
      announcedAll_congr Directive.unworded hnext.agrees
        fun _ _ line _ => line.unworded_directive s.1.context s'.1.context]
  · intro hprompts
    have hsaid (l : Lookups) : announcedAll config s.1.context l (e'.entered source a.target) =
        announcedAll config s'.1.context l (e'.entered source a.target) := by
      simpa using announcedAll_congr id (l := l) hnext.agrees
        fun _ _ _ hline => hprompts.directive_eq hnext.same hnext.agrees hline
    rw [hsaid, hprompts.said_eq h.same a.effect]

end Step

/-! ### One step -/

theorem step {event event' : Event} (hevent : b.Echoes event event') :
    Twins b config (e.step event).1 (e'.step event').1 ∧
      (e.step event).2.unworded = (e'.step event').2.unworded ∧
      (b.Discreet config.prompts → (e.step event).2 = (e'.step event').2) := by
  rcases h.receive hevent with ⟨hstale, hstale'⟩ | ⟨r, r', hreceive, hreceive', hr⟩
  · rw [Engine.step_of_receive?_eq_none hstale, Engine.step_of_receive?_eq_none hstale']
    exact ⟨h, rfl, fun _ => rfl⟩
  · obtain ⟨hignored, htaken⟩ := h.attends.step_spec hreceive
    obtain ⟨hignored', htaken'⟩ := h.attends'.step_spec hreceive'
    have hreaction : reaction? b.resolver config e.leaf r.context event =
        reaction? b.resolver config e.leaf r'.context event' :=
      reaction?_congr h.attends.leaf_mem_places hevent.kind_eq hevent.answer?_eq hr.agrees
        fun _ => hr.same.concur config
    rw [← h.leaf_eq] at htaken' hignored'
    cases hsome : reaction? b.resolver config e.leaf r.context event with
    | none =>
      rw [hignored hsome, hignored' (hreaction ▸ hsome), hevent.kind_eq]
      exact ⟨hr, rfl, fun _ => rfl⟩
    | some reaction =>
      have ht := htaken _ _ hsome
      have ht' := htaken' _ _ (hreaction ▸ hsome)
      have hsource : reaction.1 ∈ r.active := by
        have hmem := (h.attends.source_mem hsome).1
        rw [← Engine.leaf_receive? hreceive] at hmem
        rwa [hr.attends.active_eq]
      exact ⟨hr.taken hevent hsource ht ht', hr.result_taken hevent hsource ht ht'⟩

theorem run {events events' : List Event} (hevents : List.Forall₂ b.Echoes events events') :
    Twins b config (e.run events).1 (e'.run events').1 := by
  induction hevents generalizing e e' with
  | nil => exact h
  | cons hevent _ ih =>
    rw [Engine.run_cons, Engine.run_cons]
    exact ih (h.step hevent).1

end Twins

end Setting

/-- Two runs over events that `Echoes` relates give results that differ at most in the words that
are spoken, with the same configurations, slots, answers, counts and lookups.  If the prompts are
`Discreet`, the words are the same. -/
theorem discretion_run {b : Backend} {config : Config} {c : Chart}
    (hc : Appointment.chart b.resolver config = .ok c) (journal : Journal Move)
    {past past' : List Event} (hpast : List.Forall₂ b.Echoes past past') {event event' : Event}
    (hevent : b.Echoes event event') :
    let e := ((Engine.start c journal).run past).1
    let e' := ((Engine.start c journal).run past').1
    let s := e.step event
    let s' := e'.step event'
    s.2.unworded = s'.2.unworded ∧ s.1.configuration = s'.1.configuration ∧
      s.1.context.slots = s'.1.context.slots ∧ s.1.context.answer = s'.1.context.answer ∧
      s.1.context.retryCount = s'.1.context.retryCount ∧ s.1.lookups = s'.1.lookups ∧
      (b.Discreet config.prompts → s.2 = s'.2) := by
  intro e e' s s'
  have hstart : Twins b config (Engine.start c journal) (Engine.start c journal) :=
    twins_refl (attends_run hc journal [])
  obtain ⟨hnext, hunworded, hresult⟩ := (hstart.run hpast).step hevent
  exact ⟨hunworded, hnext.configuration_eq, hnext.agrees.slots_eq, hnext.agrees.answer_eq,
    hnext.agrees.retryCount_eq, hnext.lookups_eq, hresult⟩

def terse : Prompts :=
  ⟨"Hello!", "Pardon?", "Sure?", "Pardon?", "Bye!", "Meeting or query?", "Who is who?", "A topic?",
    "Who?", "{abstract}", "Meet?", "Nobody.", "A meeting!", "What?", "When?", "All day?", "At?",
    "{title} on {day}?", "{title} at {time}?", "Done!"⟩

theorem discretion_run_terse :
    let b := Backend.phrases Grammar.appointment
    let config : Config := { prompts := terse }
    let c := assistant b.resolver config
    let asked : Turn := { utterance := "who is Turing?", confidence := 0.9 }
    let shouted : Turn :=
      { utterance := "WHO IS TURING!", confidence := 0.9, topIntent := some "anger" }
    Appointment.chart b.resolver config = .ok c ∧ b.Same asked shouted ∧
      b.Discreet config.prompts ∧
      (((Engine.start c (.withCapacity 4)).run
          [.click, .click, .recognised { utterance := "query", confidence := 0.9 }]).1.step
        (.recognised asked)).2 =
      (((Engine.start c (.withCapacity 4)).run
          [.click, .click, .recognised { utterance := "Query.", confidence := 0.9 }]).1.step
        (.recognised shouted)).2 := by
  intro b config c asked shouted
  have hc : Appointment.chart b.resolver config = .ok c :=
    chart_eq_assistant _ _ (problems_eq_nil (by decide) (by decide) (by decide))
  have hquery : b.Same { utterance := "query", confidence := 0.9 }
      { utterance := "Query.", confidence := 0.9 } := ⟨by decide, rfl⟩
  have hsame : b.Same asked shouted := ⟨by decide, rfl⟩
  have hprompts : b.Discreet config.prompts := by
    unfold Backend.Discreet
    decide +kernel
  have hpast := List.Forall₂.cons (.refl Event.click) <| .cons (.refl Event.click) <|
    .cons (Backend.Echoes.recognised hquery) .nil
  obtain ⟨-, -, -, -, -, -, hresult⟩ :=
    discretion_run hc (.withCapacity 4) hpast (.recognised hsame)
  exact ⟨hc, hsame, hprompts, hresult hprompts⟩

end Appointment

end Dialogue
