import Dialogue.Proofs.Appointment.Detour
import Dialogue.Resolver.Prediction
/-!
# Assent

What was heard with too little confidence is kept and asked about.  Once the user says yes, however
long that takes, the assistant is where it would have been at once with enough confidence.
-/

namespace Dialogue

/-! ## Confidence is not read -/

/-- A resolver that reads turns in the same way however confident they are. -/
def Resolver.Impartial (resolver : Resolver) : Prop :=
  ∀ (ctx : Context) (turn : Turn) (x : Float),
    (∀ category, resolver.entity (ctx.observe { turn with confidence := x }) category =
      resolver.entity (ctx.observe turn) category) ∧
    resolver.subject (ctx.observe { turn with confidence := x }) =
      resolver.subject (ctx.observe turn)

theorem Grammar.impartial_resolver (g : Grammar) : g.resolver.Impartial :=
  fun _ _ _ => ⟨fun _ => rfl, rfl⟩

theorem Prediction.impartial_resolver (p : Prediction) : p.resolver.Impartial :=
  fun _ _ _ => ⟨fun _ => rfl, rfl⟩

namespace Appointment

/-! ## Gates -/

inductive Gate where
  | query
  | meeting
  | subject
  | title
  | day
  | time
  deriving DecidableEq, Repr

namespace Gate

instance : Fintype Gate where
  elems := {.query, .meeting, .subject, .title, .day, .time}
  complete g := by cases g <;> decide

def branch : Gate → Branch
  | query | meeting => .welcome
  | subject => .query
  | title | day | time => .meeting

def cue : Gate → Cue
  | query => .entity "query"
  | meeting => .entity "meeting"
  | subject => .subject
  | title => .entity "title"
  | day => .entity "day"
  | time => .entity "time"

def slot : Gate → Slot
  | query | meeting => .category
  | subject | title => .title
  | day => .day
  | time => .time

def goal : Gate → StateId
  | query => ⟨16⟩
  | meeting => ⟨29⟩
  | subject => ⟨18⟩
  | title => ⟨32⟩
  | day => ⟨37⟩
  | time => ⟨45⟩

def flow : Gate → StateId
  | query => ⟨8⟩
  | meeting => ⟨12⟩
  | subject => ⟨25⟩
  | title => ⟨50⟩
  | day => ⟨54⟩
  | time => ⟨58⟩

def retreat : Gate → StateId
  | query | meeting => ⟨4⟩
  | subject => ⟨17⟩
  | title => ⟨31⟩
  | day => ⟨32⟩
  | time => ⟨33⟩

def flowPath : Gate → String
  | query => "welcome.confirm_query"
  | meeting => "welcome.confirm_meeting"
  | subject => "query.confirm_request"
  | title => "meeting.confirm_what"
  | day => "meeting.confirm_when"
  | time => "meeting.confirm_time"

def prompt (g : Gate) : StateId := ⟨g.flow.index + 1⟩

def ask (g : Gate) : StateId := ⟨g.flow.index + 2⟩

def apology (g : Gate) : StateId := ⟨g.flow.index + 3⟩

def rooms (g : Gate) : List StateId :=
  [g.prompt, g.ask, g.apology]

def certain (g : Gate) : Arrow where
  condition := .certain g.cue
  effect := .fill g.slot g.cue
  target := g.goal

def tentative (g : Gate) : Arrow where
  condition := .tentative g.cue
  effect := .fill g.slot g.cue
  target := g.flow

def accept (g : Gate) : Arrow where
  condition := .present (.entity "accept")
  effect := .fill .accept (.entity "accept")
  target := g.goal

def decline (g : Gate) : Arrow where
  condition := .present (.entity "decline")
  effect := .decline (some g.slot)
  target := g.retreat

end Gate

def Branch.gates : Branch → List Gate
  | welcome => [.query, .meeting]
  | query => [.subject]
  | meeting => [.title, .day, .time]

def Branch.rest (b : Branch) : List Arrow :=
  (arrowsAt .recognised b.place).drop (1 + 2 * b.gates.length)

structure Gateways : Prop where
  arrowsAt_place : ∀ b : Branch, arrowsAt .recognised b.place =
    Arrow.helpOf b :: (b.gates.flatMap fun g => [g.certain, g.tentative]) ++ b.rest
  rest_ne : ∀ b : Branch, ∀ a ∈ b.rest, ∀ g : Gate, a ≠ g.certain
  helpOf_ne : ∀ g : Gate, ∀ b : Branch, Arrow.helpOf b ≠ g.certain
  certain_injective : ∀ g g' : Gate, g.certain = g'.certain → g = g'
  eq_certain_of_target : ∀ g : Gate, ∀ a ∈ arrowsAt .recognised g.branch.place,
    a.target = g.goal → a = g.certain
  place_mem : ∀ g : Gate, ∀ id ∈ g.rooms, g.branch.place ∈ shape.lineage id
  deciding?_recognised : ∀ g : Gate, ∀ id ∈ g.rooms, deciding? .recognised id =
    some (g.flow, [.helpOf g.branch, g.accept, g.decline, { target := g.apology }])
  deciding?_endSpeech : ∀ g : Gate, ∀ id ∈ g.rooms, ∀ h ∈ deciding? .endSpeech id,
    h.2 = [{ target := g.ask }]
  deciding?_click : ∀ g : Gate, ∀ id ∈ g.rooms, deciding? .click id = none
  initialLeaf_flow : ∀ g : Gate, shape.initialLeaf g.flow = g.prompt
  initialLeaf_room : ∀ g : Gate, ∀ id ∈ g.rooms, shape.initialLeaf id = id
  not_isHistory : ∀ g : Gate, ∀ id ∈ g.goal :: g.flow :: g.rooms, ¬ shape.isHistory id
  arrived_subject : ∀ source ∈ [Gate.subject.branch.place, Gate.subject.flow],
    arrived source Gate.subject.goal = [Gate.subject.goal]
  configuration_prompt : ∀ g : Gate, (shape.lineage g.prompt).reverse.tail.map shape.path =
    [g.branch.name, g.flowPath, g.flowPath ++ ".prompt"]

theorem gateways : Gateways := by
  constructor <;> decide +kernel

/-! ## The gate that opens -/

section Setting

variable {resolver : Resolver} {config : Config}

theorem read?_observe (hresolver : resolver.Impartial) (cue : Cue) (ctx : Context) (turn : Turn)
    (x : Float) :
    (cues resolver config).read? cue (ctx.observe { turn with confidence := x }) =
      (cues resolver config).read? cue (ctx.observe turn) := by
  obtain ⟨hentity, hsubject⟩ := hresolver ctx turn x
  cases cue with
  | entity category => exact hentity category
  | subject => exact hsubject

/-- Among the gates of a branch, the one that opens is the one that is asked about with too little
confidence. -/
theorem find?_tentative {ctx ctx' : Context} {event event' : Event} {rest : List Arrow}
    (hread : ∀ cue, (cues resolver config).read? cue ctx' = (cues resolver config).read? cue ctx)
    (hconfident : config.confidenceThreshold ≤ ctx.turn.confidence)
    (hdoubtful : ¬ config.confidenceThreshold ≤ ctx'.turn.confidence)
    (hrest : ∀ a ∈ rest, ∀ g : Gate, a ≠ g.certain) {g : Gate} (gates : List Gate)
    (hfind : ((gates.flatMap fun g => [g.certain, g.tentative]) ++ rest).find?
      (fun a => a.condition.holds resolver config ctx event) = some g.certain) :
    ((gates.flatMap fun g => [g.certain, g.tentative]) ++ rest).find?
      (fun a => a.condition.holds resolver config ctx' event') = some g.tentative := by
  induction gates with
  | nil => exact absurd rfl (hrest _ (List.mem_of_find?_eq_some hfind) g)
  | cons first gates ih =>
    -- with enough confidence, a gate stays closed only if its cue is missing, and then there is
    -- nothing to ask about either
    simp only [List.flatMap_cons, List.cons_append, List.nil_append, List.find?_cons,
      Gate.certain, Gate.tentative, Condition.holds, hread, hconfident, hdoubtful, decide_true,
      decide_false, Bool.and_true, Bool.not_true, Bool.and_false, Bool.not_false] at hfind ih ⊢
    cases hcue : ((cues resolver config).read? first.cue ctx).isSome with
    | true =>
      rw [hcue] at hfind
      obtain rfl := gateways.certain_injective first g (Option.some.inj hfind)
      rfl
    | false =>
      rw [hcue] at hfind
      exact ih hfind

theorem Attends.reaction?_certain {e : Engine} (h : Attends resolver config e) {g : Gate}
    {turn : Turn}
    (htaken : e.taken? (.recognised turn) =
      some (g.branch.place, g.certain.transition resolver config)) :
    reaction? resolver config e.leaf (e.context.observe turn) (.recognised turn) =
      some (g.branch.place, g.certain) := by
  rw [h.taken?_eq (Engine.receive?_recognised e turn)] at htaken
  obtain ⟨⟨source, a⟩, hreaction, heq⟩ := Option.map_eq_some_iff.mp htaken
  obtain ⟨rfl, htransition⟩ := Prod.mk.inj heq
  have htarget : a.target = g.goal := congrArg Transition.target htransition
  obtain ⟨arrows, hdeciding, ha⟩ := deciding?_of_reaction? hreaction
  rw [← arrowsAt_of_deciding? hdeciding] at ha
  rw [hreaction, gateways.eq_certain_of_target g a ha htarget]

theorem isSome_of_reaction?_certain {leaf : StateId} {ctx : Context} {event : Event} {g : Gate}
    {source : StateId}
    (hreaction : reaction? resolver config leaf ctx event = some (source, g.certain)) :
    ((cues resolver config).read? g.cue ctx).isSome ∧
      config.confidenceThreshold ≤ ctx.turn.confidence := by
  obtain ⟨arrows, -, hfind⟩ := reaction?_eq_some_iff.mp hreaction
  have hholds := List.find?_some hfind
  simpa [Gate.certain, Condition.holds] using hholds

theorem reaction?_tentative (hresolver : resolver.Impartial) {leaf : StateId} {ctx : Context}
    {g : Gate} {turn : Turn}
    (hreaction : reaction? resolver config leaf (ctx.observe turn) (.recognised turn) =
      some (g.branch.place, g.certain))
    {x : Float} (hdoubtful : ¬ config.confidenceThreshold ≤ Context.clampConfidence x) :
    reaction? resolver config leaf (ctx.observe { turn with confidence := x })
        (.recognised { turn with confidence := x }) =
      some (g.branch.place, g.tentative) := by
  obtain ⟨arrows, hdeciding, hfind⟩ := reaction?_eq_some_iff.mp hreaction
  have hread : ∀ cue, (cues resolver config).read? cue
      (ctx.observe { turn with confidence := x }) =
        (cues resolver config).read? cue (ctx.observe turn) :=
    fun cue => read?_observe hresolver cue ctx turn x
  have hconfident := (isSome_of_reaction?_certain hreaction).2
  have harrows : arrowsAt .recognised g.branch.place = arrows := arrowsAt_of_deciding? hdeciding
  rw [gateways.arrowsAt_place, List.cons_append] at harrows
  subst harrows
  have hhelp : (Arrow.helpOf g.branch).condition.holds resolver config (ctx.observe turn)
      (.recognised turn) = false := by
    rw [← Bool.not_eq_true]
    intro hhelp
    rw [List.find?_cons, hhelp] at hfind
    exact gateways.helpOf_ne g g.branch (Option.some.inj hfind)
  have hhelp' : (Arrow.helpOf g.branch).condition.holds resolver config
      (ctx.observe { turn with confidence := x })
      (.recognised { turn with confidence := x }) = false := by
    rw [← hhelp]
    simp only [Arrow.helpOf, Condition.holds, hread]
  rw [List.find?_cons, hhelp] at hfind
  refine reaction?_eq_some_iff.mpr ⟨_, hdeciding, ?_⟩
  rw [List.find?_cons, hhelp']
  exact find?_tentative hread hconfident hdoubtful (gateways.rest_ne g.branch) g.branch.gates hfind

/-! ## Questions -/

/-- An engine that asks whether a value was heard right, with these slots and this answer.  Help may
have been asked for meanwhile. -/
structure Asking (resolver : Resolver) (config : Config) (g : Gate) (slots : Slots)
    (answer : Option Answer) (helped : Bool) (e : Engine) : Prop where
  attends : Attends resolver config e
  leaf_mem : e.leaf ∈ g.rooms
  slots_eq : ∀ slot, (slot = .help → helped = false) → e.context.slot slot = slots.get slot
  answer_eq : e.context.answer = answer

/-- What may come between a question and a yes.  The flag tells whether help was asked for. -/
inductive Lingers (resolver : Resolver) (config : Config) : Engine → List Event → Bool → Prop where
  | done {e : Engine} : Lingers resolver config e [] false
  | endSpeech {e : Engine} {events : List Event} {helped : Bool}
    (rest : Lingers resolver config (e.step .endSpeech).1 events helped) :
    Lingers resolver config e (.endSpeech :: events) helped
  | click {e : Engine} {events : List Event} {helped : Bool}
    (rest : Lingers resolver config (e.step .click).1 events helped) :
    Lingers resolver config e (.click :: events) helped
  | unclear {e : Engine} {turn : Turn} {events : List Event} {helped : Bool}
    (cues : ∀ category ∈ ["help", "accept", "decline"],
      resolver.entity (e.context.observe turn) category = none)
    (rest : Lingers resolver config (e.step (.recognised turn)).1 events helped) :
    Lingers resolver config e (.recognised turn :: events) helped
  | detour {e : Engine} {event : Event} {meanwhile events : List Event} {helped : Bool}
    (interrupts : Interrupts resolver config e event)
    (speech : .endSpeech ∉ meanwhile)
    (patient : Patient config (e.step event).1 meanwhile)
    (rest : Lingers resolver config
      ((((e.step event).1.run meanwhile).1.step .endSpeech).1) events helped) :
    Lingers resolver config e (event :: (meanwhile ++ .endSpeech :: events))
      (event.kind == .recognised || helped)

namespace Asking

variable {g : Gate} {slots : Slots} {answer : Option Answer} {helped : Bool} {e : Engine}
  (ha : Asking resolver config g slots answer helped e)
include ha

theorem of_taken {e' : Engine} {event : Event} {source target : StateId}
    {s : Engine × StepResult} (hreceive : e.receive? event = some e')
    (ht : Taken resolver config e' event source { target } s) (htarget : target ∈ g.rooms) :
    Asking resolver config g slots answer helped s.1 := by
  obtain ⟨hslots, hanswer⟩ := Engine.slots_receive? hreceive
  have hhistory := gateways.not_isHistory g target
    (List.mem_cons_of_mem _ (List.mem_cons_of_mem _ htarget))
  have hcontext : s.1.context = e'.context := ht.context_eq
  refine ⟨ht.attends, ?_, fun slot hslot => ?_, ?_⟩
  · rw [ht.leaf_initial (ha.attends.receive hreceive) hhistory,
      gateways.initialLeaf_room g target htarget]
    exact htarget
  · rw [hcontext, Context.slot, hslots]
    exact ha.slots_eq slot hslot
  · rw [hcontext, hanswer]
    exact ha.answer_eq

theorem endSpeech : Asking resolver config g slots answer helped (e.step .endSpeech).1 := by
  have hreceive : e.receive? .endSpeech = some e := rfl
  obtain ⟨hignored, htaken⟩ := ha.attends.step_spec hreceive
  cases hdeciding : deciding? .endSpeech e.leaf with
  | none =>
    rw [hignored (reaction?_eq_none hdeciding)]
    exact ha
  | some handler =>
    have harrows := gateways.deciding?_endSpeech g _ ha.leaf_mem handler hdeciding
    obtain ⟨source, arrows⟩ := handler
    obtain rfl : arrows = _ := harrows
    have ht := htaken source _ (reaction?_eq_some_iff.mpr ⟨_, hdeciding, rfl⟩)
    exact ha.of_taken hreceive ht (by simp [Gate.rooms])

theorem click : Asking resolver config g slots answer helped (e.step .click).1 := by
  have hdeciding := gateways.deciding?_click g _ ha.leaf_mem
  have hreceive : e.receive? .click = some e := rfl
  obtain ⟨hignored, -⟩ := ha.attends.step_spec hreceive
  rw [hignored (reaction?_eq_none hdeciding)]
  exact ha

theorem unclear {turn : Turn} (hcues : ∀ category ∈ ["help", "accept", "decline"],
      resolver.entity (e.context.observe turn) category = none) :
    Asking resolver config g slots answer helped (e.step (.recognised turn)).1 := by
  have hreaction : reaction? resolver config e.leaf (e.context.observe turn) (.recognised turn) =
      some (g.flow, { target := g.apology }) := by
    refine reaction?_eq_some_iff.mpr ⟨_, gateways.deciding?_recognised g _ ha.leaf_mem, ?_⟩
    have hhelp := hcues "help" (by simp)
    have haccept := hcues "accept" (by simp)
    have hdecline := hcues "decline" (by simp)
    simp [Arrow.helpOf, Gate.accept, Gate.decline, Condition.holds, Cues.read?, cues, hhelp,
      haccept, hdecline]
  have hreceive := Engine.receive?_recognised e turn
  have ht := (ha.attends.step_spec hreceive).2 _ _ hreaction
  exact ha.of_taken hreceive ht (by simp [Gate.rooms])

theorem detour {event : Event} (hinterrupts : Interrupts resolver config e event)
    {meanwhile : List Event} (hspeech : .endSpeech ∉ meanwhile)
    (hpatient : Patient config (e.step event).1 meanwhile) :
    Asking resolver config g slots answer (helped || event.kind == .recognised)
      (((e.step event).1.run meanwhile).1.step .endSpeech).1 := by
  have hb := gateways.place_mem g _ ha.leaf_mem
  obtain ⟨-, haside⟩ := aside_of_interrupts ha.attends hb hinterrupts
  have hrun := haside.run hspeech hpatient
  refine ⟨hrun.attends.step .endSpeech, ?_, fun slot hslot => ?_, ?_⟩
  · rw [hrun.leaf_endSpeech]
    exact ha.leaf_mem
  · rw [hrun.context_endSpeech, Context.slot, hrun.slots_eq]
    cases hinterrupts with
    | help hcue =>
      have hother : slot ≠ .help := fun hhelp => by simpa [Event.kind] using hslot hhelp
      rw [slotsAside, Slots.get_set, if_neg hother]
      exact ha.slots_eq slot fun hhelp => absurd hhelp hother
    | silence hbelow =>
      refine ha.slots_eq slot fun hhelp => ?_
      exact (Bool.or_eq_false_iff.mp (hslot hhelp)).1
  · rw [hrun.context_endSpeech, hrun.answer_eq]
    exact ha.answer_eq

theorem run {events : List Event} {later : Bool}
    (hlingers : Lingers resolver config e events later) :
    Asking resolver config g slots answer (helped || later) (e.run events).1 := by
  induction hlingers generalizing helped with
  | done =>
    rw [Bool.or_false]
    exact ha
  | endSpeech rest ih => exact ih ha.endSpeech
  | click rest ih => exact ih ha.click
  | unclear hcues rest ih => exact ih (ha.unclear hcues)
  | @detour e event meanwhile events later hinterrupts hspeech hpatient rest ih =>
    -- the detour that is over counts as help asked for before the rest
    have hrest := ih (ha.detour hinterrupts hspeech hpatient)
    rw [Bool.or_assoc] at hrest
    rw [Engine.run, Engine.run_append]
    exact hrest

theorem taken_accept {turn : Turn}
    (hhelp : resolver.entity (e.context.observe turn) "help" = none)
    (haccept : (resolver.entity (e.context.observe turn) "accept").isSome) :
    Taken resolver config { e with context := e.context.observe turn } (.recognised turn) g.flow
      g.accept (e.step (.recognised turn)) := by
  have hreaction : reaction? resolver config e.leaf (e.context.observe turn) (.recognised turn) =
      some (g.flow, g.accept) := by
    refine reaction?_eq_some_iff.mpr ⟨_, gateways.deciding?_recognised g _ ha.leaf_mem, ?_⟩
    simp [Arrow.helpOf, Gate.accept, Condition.holds, Cues.read?, cues, hhelp, haccept]
  exact (ha.attends.step_spec (Engine.receive?_recognised e turn)).2 _ _ hreaction

end Asking

theorem Attends.asking_tentative {e : Engine} (h : Attends resolver config e) {event : Event}
    {source : StateId} {g : Gate} {s : Engine × StepResult}
    (ht : Taken resolver config e event source g.tentative s) :
    s.1.leaf = g.prompt ∧
      Asking resolver config g s.1.context.slots s.1.context.answer false s.1 := by
  have hprompt : s.1.leaf = g.prompt := by
    have hhistory := gateways.not_isHistory g g.flow (by simp)
    exact (ht.leaf_initial h hhistory).trans (gateways.initialLeaf_flow g)
  exact ⟨hprompt, ht.attends, by simp [hprompt, Gate.rooms], fun _ _ => rfl, rfl⟩

/-! ## The goal -/

section Goal

variable {g : Gate} {e : Engine} {event : Event} {source : StateId} {a : Arrow}
  {s : Engine × StepResult} (h : Attends resolver config e)
  (ht : Taken resolver config e event source a s)
include h ht

theorem leaf_goal (htarget : a.target = g.goal) : s.1.leaf = shape.initialLeaf g.goal := by
  have hhistory := gateways.not_isHistory g a.target (htarget ▸ List.mem_cons_self)
  rw [ht.leaf_initial h hhistory, htarget]

theorem directives_subject (htarget : a.target = Gate.subject.goal)
    (hsource : source ∈ [Gate.subject.branch.place, Gate.subject.flow])
    (hsaid : a.effect.said config e.context = []) :
    ∃ ticket, s.2.directives = [.lookup ticket ((s.1.context.slot .title).getD "")] := by
  have hhistory := gateways.not_isHistory .subject a.target (htarget ▸ List.mem_cons_self)
  have hentered := h.entered_eq source hhistory
  rw [htarget, gateways.arrived_subject source hsource, ← htarget] at hentered
  have hdirectives := congrArg StepResult.directives ht.result_eq
  rw [hsaid, hentered, htarget] at hdirectives
  exact ⟨_, hdirectives⟩

end Goal

end Setting

/-- A turn that takes a certain gate, but is heard with a confidence `x` below the threshold, asks
the question of the gate and fills the same slot.  After any events with which the question
`Lingers`, a yes leads to where the turn itself would have led, with the same slots except `accept`,
and `help` if help was asked for, the same answer, and the same subject to look up. -/
theorem assent_run {resolver : Resolver} {config : Config} {c : Chart}
    (hc : Appointment.chart resolver config = .ok c)
    (hresolver : (∃ grammar : Grammar, resolver = grammar.resolver) ∨
      ∃ prediction : Prediction, resolver = prediction.resolver)
    (journal : Journal Move) (past : List Event) (g : Gate) (turn : Turn) (x : Float) :
    let e := ((Engine.start c journal).run past).1
    let sure := e.step (.recognised turn)
    let unsure := e.step (.recognised { turn with confidence := x })
    e.taken? (.recognised turn) = some (g.branch.place, g.certain.transition resolver config) →
    ¬ config.confidenceThreshold ≤ Context.clampConfidence x →
      unsure.1.configuration = [g.branch.name, g.flowPath, g.flowPath ++ ".prompt"] ∧
      (unsure.1.context.slot g.slot).isSome ∧
      unsure.1.context.slots = sure.1.context.slots ∧
      unsure.1.context.answer = sure.1.context.answer ∧
      ∀ meanwhile helped, Lingers resolver config unsure.1 meanwhile helped →
        let e' := (unsure.1.run meanwhile).1
        ∀ yes, resolver.entity (e'.context.observe yes) "help" = none →
          (resolver.entity (e'.context.observe yes) "accept").isSome →
          let s := e'.step (.recognised yes)
          s.1.active = sure.1.active ∧ s.1.configuration = sure.1.configuration ∧
            (∀ slot, slot ≠ .accept → (slot = .help → helped = false) →
              s.1.context.slot slot = sure.1.context.slot slot) ∧
            s.1.context.answer = sure.1.context.answer ∧
            (g = .subject → ∃ ticket ticket' subject,
              sure.2.directives = [.lookup ticket subject] ∧
                s.2.directives = [.lookup ticket' subject]) := by
  intro e sure unsure htaken hdoubtful
  have himpartial : resolver.Impartial := by
    rcases hresolver with ⟨grammar, rfl⟩ | ⟨prediction, rfl⟩
    · exact grammar.impartial_resolver
    · exact prediction.impartial_resolver
  have h : Attends resolver config e := attends_run hc journal past
  have hsure := h.reaction?_certain htaken
  have hunsure := reaction?_tentative himpartial hsure hdoubtful
  have hreceive := Engine.receive?_recognised e turn
  have hreceive' := Engine.receive?_recognised e { turn with confidence := x }
  have ht := (h.step_spec hreceive).2 _ _ hsure
  have ht' := (h.step_spec hreceive').2 _ _ hunsure
  have h₁ := h.receive hreceive
  have h₂ := h.receive hreceive'
  have hslots : unsure.1.context.slots = sure.1.context.slots := by
    rw [ht.context_eq, ht'.context_eq]
    exact congrArg (e.context.slots.set g.slot) (read?_observe himpartial g.cue e.context turn x)
  have hanswer : unsure.1.context.answer = sure.1.context.answer := by
    rw [ht.context_eq, ht'.context_eq]
    rfl
  obtain ⟨hprompt, hasking⟩ := h₂.asking_tentative ht'
  refine ⟨?_, ?_, hslots, hanswer, ?_⟩
  · rw [ht'.attends.configuration_eq, hprompt]
    exact gateways.configuration_prompt g
  · have hkept : unsure.1.context.slot g.slot =
        (cues resolver config).read? g.cue (e.context.observe turn) := by
      rw [Context.slot, hslots, ht.context_eq]
      exact (Slots.get_set _ _ _ _).trans (if_pos rfl)
    rw [hkept]
    exact (isSome_of_reaction?_certain hsure).1
  · intro meanwhile helped hlingers e' yes hhelp haccept s
    have hstill := hasking.run hlingers
    have hyes := hstill.taken_accept hhelp haccept
    have h₃ := hstill.attends.receive (Engine.receive?_recognised e' yes)
    have hleaf : s.1.leaf = sure.1.leaf :=
      (leaf_goal h₃ hyes rfl).trans (leaf_goal h₁ ht rfl).symm
    have hother : ∀ slot, slot ≠ .accept → (slot = .help → helped = false) →
        s.1.context.slot slot = sure.1.context.slot slot := by
      intro slot haccept hhelped
      have hset : s.1.context.slot slot = e'.context.slot slot := by
        rw [hyes.context_eq]
        exact (Slots.get_set _ _ _ _).trans (if_neg haccept)
      rw [hset, hstill.slots_eq slot hhelped, hslots]
      rfl
    refine ⟨?_, ?_, hother, ?_, ?_⟩
    · rw [hyes.attends.active_eq, ht.attends.active_eq, hleaf]
    · rw [hyes.attends.configuration_eq, ht.attends.configuration_eq, hleaf]
    · rw [hyes.context_eq, ← hanswer]
      exact hstill.answer_eq
    · rintro rfl
      obtain ⟨ticket, hlookup⟩ := directives_subject h₁ ht rfl (by simp) rfl
      obtain ⟨ticket', hlookup'⟩ := directives_subject h₃ hyes rfl (by simp) rfl
      rw [hother .title (by decide) (by simp)] at hlookup'
      exact ⟨ticket, ticket', _, hlookup, hlookup'⟩

theorem assent_run_meeting :
    Appointment.chart Grammar.appointment.resolver {} = .ok standard ∧
      ((Engine.start standard (.withCapacity 4)).run [.click, .click]).1.taken?
        (.recognised { utterance := "meeting", confidence := 0.9 }) =
          some (Gate.meeting.branch.place,
            Gate.meeting.certain.transition Grammar.appointment.resolver {}) ∧
      ¬ ({} : Config).confidenceThreshold ≤ Context.clampConfidence (0 / 0) ∧
      (((((Engine.start standard (.withCapacity 4)).run [.click, .click]).1.step
        (.recognised { utterance := "meeting", confidence := 0 / 0 })).1.run
          [.endSpeech, .recognised { utterance := "help" }, .endSpeech]).1.step
            (.recognised { utterance := "yes" })).1.configuration =
        (((Engine.start standard (.withCapacity 4)).run [.click, .click]).1.step
          (.recognised { utterance := "meeting", confidence := 0.9 })).1.configuration := by
  have htaken : ((Engine.start standard (.withCapacity 4)).run [.click, .click]).1.taken?
      (.recognised { utterance := "meeting", confidence := 0.9 }) =
        some (Gate.meeting.branch.place,
          Gate.meeting.certain.transition Grammar.appointment.resolver {}) := rfl
  have hdoubtful : ¬ ({} : Config).confidenceThreshold ≤ Context.clampConfidence (0 / 0) := by
    decide
  have hlingers : Lingers Grammar.appointment.resolver {}
      (((Engine.start standard (.withCapacity 4)).run [.click, .click]).1.step
        (.recognised { utterance := "meeting", confidence := 0 / 0 })).1
      [.endSpeech, .recognised { utterance := "help" }, .endSpeech] true := by
    refine .endSpeech (.detour (.help (by decide)) List.not_mem_nil ?_ .done)
    intro i hi
    cases hi
  obtain ⟨-, -, -, -, hyes⟩ := assent_run chart_standard (Or.inl ⟨.appointment, rfl⟩)
    (.withCapacity 4) [.click, .click] .meeting { utterance := "meeting", confidence := 0.9 }
    (0 / 0) htaken hdoubtful
  have hconfiguration := (hyes _ _ hlingers { utterance := "yes" } (by decide) (by decide)).2.1
  exact ⟨chart_standard, htaken, hdoubtful, hconfiguration⟩

/-- With the threshold `0`, a turn heard with confidence `-0.5` is certain, since confidences are
clamped. -/
theorem certain_below_zero :
    Appointment.chart Grammar.appointment.resolver { confidenceThreshold := 0 } =
        .ok (assistant Grammar.appointment.resolver { confidenceThreshold := 0 }) ∧
      ((Engine.start (assistant Grammar.appointment.resolver { confidenceThreshold := 0 })
        (.withCapacity 4)).run [.click, .click]).1.taken?
          (.recognised { utterance := "meeting", confidence := 0.5 }) =
            some (Gate.meeting.branch.place, Gate.meeting.certain.transition
              Grammar.appointment.resolver { confidenceThreshold := 0 }) ∧
      (-0.5 : Float) < 0 ∧
      ((Engine.start (assistant Grammar.appointment.resolver { confidenceThreshold := 0 })
        (.withCapacity 4)).run
          [.click, .click, .recognised { utterance := "meeting", confidence := -0.5 }]).1.leafPath =
            "meeting.start_meeting" := by
  have hproblems : ({ confidenceThreshold := 0 } : Config).problems = [] :=
    problems_eq_nil (by decide) (by decide) (by decide)
  exact ⟨chart_eq_assistant _ _ hproblems, rfl, by decide, by decide⟩

end Appointment

end Dialogue
