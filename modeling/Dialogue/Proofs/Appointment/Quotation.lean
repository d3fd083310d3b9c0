import Dialogue.Proofs.Appointment.Topics
/-!
# Quotations

The question whether a value was heard right quotes a turn.  Whenever it is asked, the value was
heard with too little confidence before, and it is still in its slot.  What is quoted is the turn
that was heard last: another one if the question is asked again after a detour on which something
was heard, such as a call for help.
-/

namespace Dialogue

def Event.heard (turn : Turn) : Event → Turn
  | recognised next => next
  | click | ttsReady | endSpeech | timeout | lookupDone _ _ => turn

def lastHeard (turn : Turn) (events : List Event) : Turn :=
  events.foldl Event.heard turn

theorem Engine.utterance_receive? {e e' : Engine} {event : Event}
    (h : e.receive? event = some e') {turn : Turn}
    (hturn : e.context.turn.utterance = turn.utterance) :
    e'.context.turn.utterance = (event.heard turn).utterance := by
  cases event with
  | lookupDone ticket answer =>
    obtain ⟨_, -, rfl⟩ := Option.map_eq_some_iff.mp h
    exact hturn
  | recognised next =>
    obtain rfl := Option.some.inj h
    rfl
  | click | ttsReady | endSpeech | timeout =>
    obtain rfl := Option.some.inj h
    exact hturn

theorem Event.heard_of_receive?_eq_none {e : Engine} {event : Event} (h : e.receive? event = none)
    (turn : Turn) : event.heard turn = turn := by
  cases event with
  | recognised next => cases h
  | click | ttsReady | endSpeech | timeout | lookupDone ticket answer => rfl

theorem render_confirmHeard (ctx : Context) :
    ({} : Prompts).confirmHeard.render ctx = "Is \"" ++ ctx.heard ++ "\" what you meant?" := by
  have hsegments : ({} : Prompts).confirmHeard.segments =
      [.text "Is \"".toList, .field "heard", .text "\" what you meant?".toList] := by
    decide
  rw [Template.render, hsegments]
  apply String.toList_injective
  simp [Template.expand, Context.field?]

namespace Appointment

section Setting

variable {resolver : Resolver} {config : Config} {e : Engine} (h : Attends resolver config e)
include h

theorem Attends.utterance_step {turn : Turn} (hturn : e.context.turn.utterance = turn.utterance)
    (event : Event) :
    (e.step event).1.context.turn.utterance = (event.heard turn).utterance := by
  cases hreceive : e.receive? event with
  | none =>
    rw [Engine.step_of_receive?_eq_none hreceive, Event.heard_of_receive?_eq_none hreceive]
    exact hturn
  | some e' =>
    have hreceived := Engine.utterance_receive? hreceive hturn
    obtain ⟨hignored, htaken⟩ := h.step_spec hreceive
    cases hreaction : reaction? resolver config e.leaf e'.context event with
    | none =>
      rw [hignored hreaction]
      exact hreceived
    | some r =>
      rw [(htaken r.1 r.2 hreaction).context_eq, Effect.turn_apply]
      exact hreceived

theorem Attends.utterance_run {turn : Turn} (hturn : e.context.turn.utterance = turn.utterance)
    (events : List Event) :
    (e.run events).1.context.turn.utterance = (lastHeard turn events).utterance := by
  induction events generalizing e turn with
  | nil => exact hturn
  | cons event events ih => exact ih (h.step event) (h.utterance_step hturn event)

end Setting

/-! ## What was heard with too little confidence -/

/-- Among the events of a run there is a turn that was led to the question of a gate, and the value
that it carries is in the slot. -/
def Doubted (resolver : Resolver) (config : Config) (e : Engine) (events : List Event) (g : Gate)
    (ctx : Context) : Prop :=
  ∃ before turn after value, events = before ++ .recognised turn :: after ∧
    (e.run before).1.taken? (.recognised turn) =
      some (g.branch.place, g.tentative.transition resolver config) ∧
    (cues resolver config).read? g.cue ((e.run before).1.context.observe turn) = some value ∧
    ctx.slot g.slot = some value

def Justified (resolver : Resolver) (config : Config) (e : Engine) (events : List Event)
    (leaf : StateId) (ctx : Context) : Prop :=
  ∀ g : Gate, leaf ∈ g.rooms → Doubted resolver config e events g ctx

structure Doubts : Prop where
  into_rooms : ∀ id ∈ places, ¬ shape.isCompound id → ∀ kind ∈ EventKind.all,
    ∀ h ∈ deciding? kind id, ∀ a ∈ h.2, ∀ g : Gate, shape.initialLeaf a.target ∈ g.rooms →
      kind = .recognised ∧ h.1 = g.branch.place ∧ a = g.tentative ∨
        id ∈ g.rooms ∧ a.effect = .nothing
  slot_ne_help : ∀ g : Gate, g.slot ≠ .help
  idle_notMem : ∀ g : Gate, idle ∉ g.rooms
  path_eq_prompt_iff : ∀ id ∈ places, ∀ g : Gate,
    (shape.path id = g.flowPath ++ ".prompt" ↔ id = g.prompt)
  prompt_ne_idle : ∀ g : Gate, g.prompt ≠ idle

theorem doubts : Doubts := by
  constructor <;> decide +kernel

section Setting

variable {resolver : Resolver} {config : Config}

theorem lasting_justified (e : Engine) (events : List Event) :
    Lasting (Justified resolver config e events) := by
  intro leaf ctx ctx' hmatches h g hg
  obtain ⟨before, turn, after, value, hsplit, htaken, hread, hslot⟩ := h g hg
  have hkept := hmatches.slot_eq g.slot (doubts.slot_ne_help g)
  exact ⟨before, turn, after, value, hsplit, htaken, hread, hkept.trans hslot⟩

theorem Justified.concat {e : Engine} {events : List Event} {leaf : StateId} {ctx : Context}
    (h : Justified resolver config e events leaf ctx) (event : Event) :
    Justified resolver config e (events ++ [event]) leaf ctx := by
  intro g hg
  obtain ⟨before, turn, after, value, rfl, hrest⟩ := h g hg
  exact ⟨before, turn, after ++ [event], value, by simp, hrest⟩

theorem justified_run {c : Chart} (hc : Appointment.chart resolver config = .ok c)
    (journal : Journal Move) (events : List Event) :
    Recalls (Justified resolver config (.start c journal) events)
      ((Engine.start c journal).run events).1 := by
  induction events using List.reverseRecOn with
  | nil =>
    obtain rfl := eq_assistant_of_chart resolver config hc
    exact recalls_start (fun g hg => absurd hg (doubts.idle_notMem g)) resolver config journal
  | append_singleton events event ih =>
    have h : Attends resolver config ((Engine.start c journal).run events).1 :=
      attends_run hc journal events
    have hbefore := ih.mono fun _ _ hjustified => hjustified.concat event
    rw [Engine.run_concat]
    refine h.recalls_step (lasting_justified _ _) hbefore ?_
    intro e' source a hreceive hreaction hhere _ g hg
    obtain ⟨arrows, hdeciding, ha⟩ := deciding?_of_reaction? hreaction
    rcases doubts.into_rooms _ h.leaf_mem_places h.not_isCompound_leaf _ event.kind.mem_all _
      hdeciding _ ha g hg with ⟨hkind, rfl, rfl⟩ | ⟨hroom, heffect⟩
    · -- the turn that has just been heard is the one in doubt
      obtain ⟨turn, rfl⟩ := Event.eq_recognised_of_kind hkind
      obtain rfl := Option.some.inj hreceive
      obtain ⟨value, hread⟩ := Condition.read?_of_holds rfl (holds_of_reaction? hreaction)
      refine ⟨events, turn, [], value, rfl, ?_, hread, ?_⟩
      · rw [h.taken?_eq (Engine.receive?_recognised _ turn)]
        exact congrArg (Option.map _) hreaction
      · rw [Gate.tentative, Effect.apply, Context.slot, Context.setSlot, Slots.get_set, if_pos rfl]
        exact hread
    · rw [heffect]
      exact hhere g hroom

end Setting

/-- Whenever the question of a gate is asked, some turn has taken the tentative way of the gate and
its value is in the slot.  By default the question quotes the normal form of the last turn since
then. -/
theorem quotation_run {resolver : Resolver} {config : Config} {c : Chart}
    (hc : Appointment.chart resolver config = .ok c) (hprompts : config.prompts = {})
    (journal : Journal Move) (past : List Event) (event : Event) (g : Gate) (source : String)
    (configuration : List String) (directives : List Directive) :
    let e := Engine.start c journal
    let s := (e.run past).1.step event
    s.2 = .transitioned source (g.flowPath ++ ".prompt") configuration directives →
      ∃ before turn after value, past ++ [event] = before ++ .recognised turn :: after ∧
        (e.run before).1.taken? (.recognised turn) =
          some (g.branch.place, g.tentative.transition resolver config) ∧
        (cues resolver config).read? g.cue ((e.run before).1.context.observe turn) = some value ∧
        s.1.context.slot g.slot = some value ∧
        directives = [.speak ("Is \"" ++ normalize (lastHeard turn after).utterance ++
          "\" what you meant?")] := by
  intro e s hresult
  have h : Attends resolver config (e.run past).1 := attends_run hc journal past
  have hs : s.1 = (e.run (past ++ [event])).1 :=
    (congrArg Prod.fst (Engine.run_concat e past event)).symm
  obtain ⟨e', source', a, -, h', -, hdeciding, ht, hpath⟩ := h.taken_of_transitioned hresult
  have hleaf : s.1.leaf = g.prompt :=
    (doubts.path_eq_prompt_iff _ ht.attends.leaf_mem_places g).mp hpath
  have hjustified : Justified resolver config e (past ++ [event]) s.1.leaf s.1.context :=
    hs ▸ (justified_run hc journal (past ++ [event])).here
  obtain ⟨before, turn, after, value, hsplit, htaken, hread, hslot⟩ :=
    hjustified g (hleaf ▸ List.mem_cons_self)
  refine ⟨before, turn, after, value, hsplit, htaken, hread, hslot, ?_⟩
  -- the turn in doubt was heard before all that has come since
  have hheard : s.1.context.turn.utterance = (lastHeard turn after).utterance := by
    have hbefore : Attends resolver config (e.run before).1 := attends_run hc journal before
    have hdoubted := hbefore.utterance_step rfl (.recognised turn)
    rw [hs, hsplit, Engine.run_append]
    exact (hbefore.step _).utterance_run hdoubted after
  have haway := ht.result_away h' hdeciding (hleaf ▸ doubts.prompt_ne_idle g)
  obtain ⟨-, -, -, hdirectives⟩ := StepResult.transitioned.inj (hresult.symm.trans haway)
  have hsaid : announced config s.1.context (cancelled e' source' a.target) g.prompt =
      [.speak (config.prompts.confirmHeard.render s.1.context)] := by
    cases g <;> rfl
  rw [hdirectives, hleaf, hsaid, hprompts, render_confirmHeard, Context.heard, hheard]

def mumbling : List Event :=
  [.click, .click, .recognised { utterance := "Meeting!", confidence := 0.3 }]

theorem quotation_run_mumbling :
    Appointment.chart Grammar.appointment.resolver {} = .ok standard ∧
      (((Engine.start standard (.withCapacity 4)).run (mumbling ++ [.timeout])).1.step
          .endSpeech).2 =
        .transitioned "welcome_timeout" "welcome.confirm_meeting.prompt"
          ["welcome", "welcome.confirm_meeting", "welcome.confirm_meeting.prompt"]
          [.speak "Is \"meeting\" what you meant?"] ∧
      ∃ value, (((Engine.start standard (.withCapacity 4)).run (mumbling ++ [.timeout])).1.step
        .endSpeech).1.context.slot .category = some value := by
  have hresult : (((Engine.start standard (.withCapacity 4)).run (mumbling ++ [.timeout])).1.step
      .endSpeech).2 =
        .transitioned "welcome_timeout" "welcome.confirm_meeting.prompt"
          ["welcome", "welcome.confirm_meeting", "welcome.confirm_meeting.prompt"]
          [.speak "Is \"meeting\" what you meant?"] := by
    decide +kernel
  have hquoted := quotation_run chart_standard rfl (.withCapacity 4) (mumbling ++ [.timeout])
    .endSpeech .meeting
  obtain ⟨_, _, _, value, -, -, -, hslot, -⟩ := hquoted _ _ _ hresult
  exact ⟨chart_standard, hresult, value, hslot⟩

/-- After a detour through `help` the question quotes `help`, while `category` still holds
`meeting`. -/
theorem quotes_call_for_help :
    Appointment.chart Grammar.appointment.resolver {} = .ok standard ∧
      ∃ s, ((Engine.start standard (.withCapacity 4)).run
          (mumbling ++ [.recognised { utterance := "help", confidence := 0.9 }])).1.step
            .endSpeech = s ∧
        s.2 = .transitioned "welcome_help" "welcome.confirm_meeting.prompt"
          ["welcome", "welcome.confirm_meeting", "welcome.confirm_meeting.prompt"]
          [.speak "Is \"help\" what you meant?"] ∧
        s.1.context.slot .category = some "meeting" :=
  ⟨chart_standard, _, rfl, by decide +kernel⟩

end Appointment

end Dialogue
