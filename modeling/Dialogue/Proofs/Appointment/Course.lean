import Dialogue.Proofs.Appointment.Plan
import Dialogue.Proofs.Engine.Resumption
/-!
# The course of the assistant

What an event does to an engine of the assistant, read off the plan: which state decides, which of
its arrows is taken, how the arrow changes the context, what is said, and where the step ends.
Later modules use these equations and compute with the plan alone.
-/

namespace Dialogue.Appointment

/-! ## Who decides -/

namespace Room

def arrowsOn (room : Room) (kind : EventKind) : List Arrow :=
  room.arrows.filterMap fun a => if a.1 = kind then some a.2 else none

theorem transitionsOn_node (resolver : Resolver) (config : Config) (room : Room) (id : StateId)
    (kind : EventKind) :
    (room.node resolver config id).transitionsOn kind =
      (room.arrowsOn kind).map (Arrow.transition resolver config) := by
  simp only [Node.transitionsOn, node, arrowsOn, List.filterMap_map, List.map_filterMap]
  congr 1
  funext a
  by_cases h : a.1 = kind <;> simp [h]

end Room

def arrowsAt (kind : EventKind) (id : StateId) : List Arrow :=
  ((Room.all[id.index]?).map fun room => room.arrowsOn kind).getD []

/-- The innermost state from `leaf` outwards that reacts to a kind of events, with its arrows. -/
def deciding? (kind : EventKind) (leaf : StateId) : Option (StateId × List Arrow) :=
  (shape.lineage leaf).findSome? fun id =>
    match arrowsAt kind id with
    | [] => none
    | arrows => some (id, arrows)

theorem arrowsAt_of_deciding? {kind : EventKind} {leaf source : StateId} {arrows : List Arrow}
    (h : deciding? kind leaf = some (source, arrows)) : arrowsAt kind source = arrows := by
  obtain ⟨id, -, hid⟩ := List.exists_of_findSome?_eq_some h
  split at hid
  · cases hid
  · next hne =>
    obtain ⟨rfl, rfl⟩ := Prod.mk.inj (Option.some.inj hid)
    rfl

section Setting

variable {resolver : Resolver} {config : Config}

theorem transitionsOf?_assistant (kind : EventKind) (id : StateId) :
    Engine.transitionsOf? (assistant resolver config) kind id =
      match arrowsAt kind id with
      | [] => none
      | arrows => some (id, arrows.map (Arrow.transition resolver config)) := by
  unfold Engine.transitionsOf? arrowsAt
  rw [node?_assistant, Option.map_map, Function.comp_def]
  simp only [Room.transitionsOn_node]
  cases Room.all[id.index]? with
  | none => rfl
  | some room =>
    simp only [Option.map_some, Option.getD_some]
    cases room.arrowsOn kind <;> rfl

theorem handler?_assistant {e : Engine} (hchart : e.chart = assistant resolver config)
    (hactive : e.active = shape.lineage e.leaf) (kind : EventKind) :
    e.handler? kind =
      (deciding? kind e.leaf).map fun h =>
        (h.1, h.2.map (Arrow.transition resolver config)) := by
  unfold Engine.handler? deciding?
  rw [hactive, hchart, List.map_findSome?]
  congr 1
  funext id
  rw [transitionsOf?_assistant, Function.comp_apply]
  cases arrowsAt kind id <;> rfl

end Setting

/-! ## What is asked for -/

def Condition.holds (resolver : Resolver) (config : Config) (ctx : Context) (event : Event) :
    Condition → Bool
  | always => true
  | present cue => ((cues resolver config).read? cue ctx).isSome
  | certain cue =>
    ((cues resolver config).read? cue ctx).isSome &&
      decide (config.confidenceThreshold ≤ ctx.turn.confidence)
  | tentative cue =>
    ((cues resolver config).read? cue ctx).isSome &&
      !decide (config.confidenceThreshold ≤ ctx.turn.confidence)
  | escalating => config.retryPolicy.escalates ctx
  | answered => event.answer?.any Answer.hasAbstract

def Condition.cue? : Condition → Option Cue
  | present cue | certain cue | tentative cue => some cue
  | always | escalating | answered => none

theorem Condition.read?_of_holds {resolver : Resolver} {config : Config} {condition : Condition}
    {cue : Cue} {ctx : Context} {event : Event} (hcue : condition.cue? = some cue)
    (hholds : condition.holds resolver config ctx event) :
    ∃ value, (cues resolver config).read? cue ctx = some value := by
  rw [← Option.isSome_iff_exists]
  cases condition with
  | present _ =>
    obtain rfl := Option.some.inj hcue
    exact hholds
  | certain _ | tentative _ =>
    obtain rfl := Option.some.inj hcue
    exact (Bool.and_eq_true_iff.mp hholds).1
  | always | escalating | answered => cases hcue

def reaction? (resolver : Resolver) (config : Config) (leaf : StateId) (ctx : Context)
    (event : Event) : Option (StateId × Arrow) :=
  (deciding? event.kind leaf).bind fun h =>
    (h.2.find? fun a => a.condition.holds resolver config ctx event).map fun a => (h.1, a)

theorem reaction?_eq_some_iff {resolver : Resolver} {config : Config} {leaf source : StateId}
    {ctx : Context} {event : Event} {a : Arrow} :
    reaction? resolver config leaf ctx event = some (source, a) ↔
      ∃ arrows, deciding? event.kind leaf = some (source, arrows) ∧
        (arrows.find? fun a => a.condition.holds resolver config ctx event) = some a := by
  rw [reaction?]
  cases deciding? event.kind leaf with
  | none => simp
  | some handler => simp [Prod.ext_iff, and_assoc, and_comm, eq_comm]

def neglect (kind : EventKind) (leaf : StateId) : IgnoreReason :=
  if (deciding? kind leaf).isNone then .noHandler else .noMatch

/-! ## What is done -/

def Effect.apply (resolver : Resolver) (config : Config) (ctx : Context) (event : Event) :
    Effect → Context
  | nothing => ctx
  | fill slot cue => ctx.setSlot slot ((cues resolver config).read? cue ctx)
  | decline none =>
    ctx.setSlot .decline ((cues resolver config).read? (.entity "decline") ctx)
  | decline (some slot) =>
    (ctx.setSlot .decline ((cues resolver config).read? (.entity "decline") ctx)).setSlot slot none
  | restart => ctx.cleared
  | retry => RetryPolicy.record ctx
  | keepAnswer => { ctx with answer := event.answer? }

def Effect.said (config : Config) (ctx : Context) : Effect → List Directive
  | restart => [.speak (config.prompts.reset.render ctx.cleared)]
  | _ => []

def Line.directive (config : Config) (ctx : Context) : Line → Directive
  | speak text => .speak ((text config.prompts).render ctx)
  | listen => .listen

def linesAt (id : StateId) : List Line :=
  ((Room.all[id.index]?).map Room.lines).getD []

def looksUpAt (id : StateId) : Bool :=
  ((Room.all[id.index]?).map Room.looksUp).getD false

def begun (l : Lookups) (id : StateId) : Lookups :=
  if looksUpAt id then l.start id else l

def announced (config : Config) (ctx : Context) (l : Lookups) (id : StateId) : List Directive :=
  (linesAt id).map (Line.directive config ctx)
    ++ if looksUpAt id then [.lookup (l.nextTicket id) ((ctx.slot .title).getD "")] else []

def announcedAll (config : Config) (ctx : Context) (l : Lookups) : List StateId → List Directive
  | [] => []
  | id :: ids => announced config ctx l id ++ announcedAll config ctx (begun l id) ids

section Setting

variable {resolver : Resolver} {config : Config}

theorem enabled_transition (a : Arrow) (ctx : Context) (event : Event) :
    (a.transition resolver config).enabled ctx event =
      a.condition.holds resolver config ctx event := by
  obtain ⟨condition, effect, target⟩ := a
  cases condition <;> rfl

theorem choose?_map_transition (arrows : List Arrow) (ctx : Context) (event : Event) :
    Transition.choose? (arrows.map (Arrow.transition resolver config)) ctx event =
      (arrows.find? fun a => a.condition.holds resolver config ctx event).map
        (Arrow.transition resolver config) := by
  rw [Transition.choose?, List.find?_map]
  simp only [Function.comp_def, enabled_transition]

theorem runAll_actions (effect : Effect) (ctx : Context) (event : Event) :
    Action.runAll (some event) ctx (effect.actions resolver config) =
      (effect.apply resolver config ctx event, effect.said config ctx) := by
  rcases effect with _ | _ | (_ | _) | _ | _ | _ <;> rfl

theorem perform_actions (effect : Effect) (event : Event) (e : Engine) :
    e.perform (some event) (effect.actions resolver config) =
      { e with
        context := effect.apply resolver config e.context event
        pending := e.pending ++ effect.said config e.context } := by
  rw [Engine.perform, runAll_actions]

theorem runAll_lines (event : Option Event) (lines : List Line) (ctx : Context) :
    Action.runAll event ctx (lines.map (Line.action config)) =
      (ctx, lines.map (Line.directive config ctx)) := by
  induction lines with
  | nil => rfl
  | cons line lines ih => cases line <;> simp [Action.runAll, Line.action, Action.run, ih,
      Line.directive]

theorem enter_assistant {e : Engine} (hchart : e.chart = assistant resolver config)
    (event : Option Event) (id : StateId) :
    e.enter event id =
      { e with
        active := id :: e.active
        lookups := begun e.lookups id
        pending := e.pending ++ announced config e.context e.lookups id } := by
  have hnode := node?_assistant resolver config id
  rw [← hchart] at hnode
  unfold Engine.enter begun announced linesAt looksUpAt
  simp only [hnode]
  cases Room.all[id.index]? with
  | none => simp
  | some room =>
    cases hlooksUp : room.looksUp <;>
      simp [Room.node, Engine.perform, runAll_lines, Engine.invoke, hlooksUp]

theorem enterAll_assistant {e : Engine} (hchart : e.chart = assistant resolver config)
    (event : Option Event) (ids : List StateId) :
    e.enterAll event ids =
      { e with
        active := ids.reverse ++ e.active
        lookups := ids.foldl begun e.lookups
        pending := e.pending ++ announcedAll config e.context e.lookups ids } := by
  induction ids generalizing e with
  | nil => simp [announcedAll]
  | cons id ids ih =>
    rw [Engine.enterAll_cons, ih ((Engine.chart_enter event e id).trans hchart),
      enter_assistant hchart]
    simp [announcedAll]

end Setting

/-! ## Where it leads -/

def departed (leaf source target : StateId) : List StateId :=
  (shape.lineage leaf).takeWhile fun id =>
    id != shape.transitionDomain source (Engine.effectiveTarget shape target)

/-- The states that an arrow enters, outermost first, unless history decides. -/
def arrived (source target : StateId) : List StateId :=
  shape.pathBetween (shape.transitionDomain source target) target ++ shape.initialDescent target

theorem Engine.receive?_recognised (e : Engine) (turn : Turn) :
    e.receive? (.recognised turn) = some { e with context := e.context.observe turn } := rfl

structure Attends (resolver : Resolver) (config : Config) (e : Engine) : Prop where
  chart_eq : e.chart = assistant resolver config
  sound : e.Sound
  pending_eq : e.pending = []

structure Taken (resolver : Resolver) (config : Config) (e : Engine) (event : Event)
    (source : StateId) (a : Arrow) (s : Engine × StepResult) : Prop where
  attends : Attends resolver config s.1
  active_eq : s.1.active = (e.entered source a.target).reverse ++ e.kept source a.target
  leaf_eq : s.1.leaf = e.arrival source a.target
  context_eq : s.1.context = a.effect.apply resolver config e.context event
  history_eq : s.1.history = e.history.recordAll shape e.leaf (departed e.leaf source a.target)
  lookups_eq : s.1.lookups =
    (e.entered source a.target).foldl begun
      ((departed e.leaf source a.target).foldl Lookups.cancel e.lookups)
  journal_eq : s.1.journal = e.journal.record
    { source := e.leafPath
      target := s.1.leafPath
      event := event.kind
      attempt := s.1.context.retryCount.getD 0 }
  result_eq : s.2 = .transitioned e.leafPath s.1.leafPath s.1.configuration
    (a.effect.said config e.context ++
      announcedAll config s.1.context
        ((departed e.leaf source a.target).foldl Lookups.cancel e.lookups)
        (e.entered source a.target))

/-- An arrow does the same on two events of one kind that it makes the same of. -/
theorem Taken.congr {resolver : Resolver} {config : Config} {e : Engine} {event event' : Event}
    {source : StateId} {a : Arrow} {s s' : Engine × StepResult}
    (ht : Taken resolver config e event source a s)
    (ht' : Taken resolver config e event' source a s') (hkind : event.kind = event'.kind)
    (happly : a.effect.apply resolver config e.context event =
      a.effect.apply resolver config e.context event') : s = s' := by
  have hchart : s.1.chart = s'.1.chart := ht.attends.chart_eq.trans ht'.attends.chart_eq.symm
  have hactive : s.1.active = s'.1.active := ht.active_eq.trans ht'.active_eq.symm
  have hcontext : s.1.context = s'.1.context := by rw [ht.context_eq, ht'.context_eq, happly]
  have hleaf : s.1.leafPath = s'.1.leafPath := by
    rw [Engine.leafPath, Engine.leafPath, Engine.leaf, Engine.leaf, hchart, hactive]
  have hconfiguration : s.1.configuration = s'.1.configuration := by
    rw [Engine.configuration, Engine.configuration, hchart, hactive]
  have hhistory := ht.history_eq.trans ht'.history_eq.symm
  have hlookups := ht.lookups_eq.trans ht'.lookups_eq.symm
  have hpending := ht.attends.pending_eq.trans ht'.attends.pending_eq.symm
  have hjournal : s.1.journal = s'.1.journal := by
    rw [ht.journal_eq, ht'.journal_eq, hleaf, hkind, hcontext]
  have hresult : s.2 = s'.2 := by
    rw [ht.result_eq, ht'.result_eq, hleaf, hconfiguration, hcontext]
  obtain ⟨⟨_, _, _, _, _, _, _⟩, _⟩ := s
  obtain ⟨⟨_, _, _, _, _, _, _⟩, _⟩ := s'
  simp_all

namespace Attends

variable {resolver : Resolver} {config : Config} {e : Engine} (h : Attends resolver config e)
include h

theorem alike : e.chart.Alike shape := by
  rw [h.chart_eq]
  exact alike_shape resolver config

theorem active_eq : e.active = shape.lineage e.leaf := by
  rw [h.sound.active_eq, h.alike.lineage_eq]

theorem leaf_mem_places : e.leaf ∈ places := by
  have hmem := h.sound.leaf_mem
  rw [h.chart_eq] at hmem
  exact mem_places hmem

theorem effectiveTarget_eq (target : StateId) :
    Engine.effectiveTarget e.chart target = Engine.effectiveTarget shape target := by
  simp only [Engine.effectiveTarget, h.alike.isHistory_eq, h.alike.parent?_eq]

theorem domain_eq (source target : StateId) :
    e.domain source target =
      shape.transitionDomain source (Engine.effectiveTarget shape target) := by
  rw [Engine.domain, h.effectiveTarget_eq, h.alike.transitionDomain_eq]

theorem left_eq (source target : StateId) :
    e.left source target = departed e.leaf source target := by
  rw [Engine.left, h.active_eq, h.domain_eq, departed]

theorem recordAll_eq (history : History) (leaf : StateId) (ids : List StateId) :
    history.recordAll e.chart leaf ids = history.recordAll shape leaf ids := by
  simp only [History.recordAll, h.alike.isCompound_eq]

/-! ## Steps -/

theorem handler?_eq (kind : EventKind) :
    e.handler? kind =
      (deciding? kind e.leaf).map fun h =>
        (h.1, h.2.map (Arrow.transition resolver config)) :=
  handler?_assistant h.chart_eq h.active_eq kind

theorem receive {event : Event} {e' : Engine} (hreceive : e.receive? event = some e') :
    Attends resolver config e' := by
  have hsound := h.sound.of_receive? hreceive
  obtain ⟨_, _, rfl, -⟩ := Engine.receive?_eq_some hreceive
  exact ⟨h.chart_eq, hsound, h.pending_eq⟩

theorem take_eq {source : StateId} {a : Arrow} (event : Event) (hsource : source ∈ e.active) :
    (e.perform (some event) (a.effect.actions resolver config)).take event source a.target =
      { e with
        context := a.effect.apply resolver config e.context event
        active := (e.entered source a.target).reverse ++ e.kept source a.target
        history := e.history.recordAll shape e.leaf (departed e.leaf source a.target)
        lookups := (e.entered source a.target).foldl begun
          ((departed e.leaf source a.target).foldl Lookups.cancel e.lookups)
        pending := e.pending ++ a.effect.said config e.context ++
          announcedAll config (a.effect.apply resolver config e.context event)
            ((departed e.leaf source a.target).foldl Lookups.cancel e.lookups)
            (e.entered source a.target) } := by
  have hdomain := h.sound.domain_active hsource a.target
  refine (Engine.take_perform_eq event (t := a.transition resolver config) hdomain).trans ?_
  simp only [Arrow.transition, perform_actions, h.left_eq, h.recordAll_eq]
  refine @enterAll_assistant resolver config _ ?_ _ _
  exact h.chart_eq

theorem taken {source : StateId} {a : Arrow} (event : Event) (hsource : source ∈ e.active)
    (htarget : a.target ∈ e.chart) :
    Taken resolver config e event source a
      (e.fire event source (a.transition resolver config)) := by
  have htake := h.take_eq event (a := a) hsource
  have hsound := h.sound.fire event (t := a.transition resolver config) hsource htarget
  have hleaf := Engine.leaf_fire h.sound event (t := a.transition resolver config) hsource htarget
  refine ⟨⟨(Engine.chart_fire event).trans h.chart_eq, hsound, rfl⟩, ?_, hleaf, ?_, ?_, ?_, ?_,
    ?_⟩
  all_goals simp only [Engine.fire, Engine.log, Arrow.transition, htake, h.pending_eq]
  all_goals rfl

theorem step_eq {event : Event} {e' : Engine} (hreceive : e.receive? event = some e') :
    e.step event =
      match reaction? resolver config e.leaf e'.context event with
      | none => (e', .ignored (neglect event.kind e.leaf))
      | some r => e'.fire event r.1 (r.2.transition resolver config) := by
  have hleaf := Engine.leaf_receive? hreceive
  simp only [Engine.step, hreceive, (h.receive hreceive).handler?_eq, hleaf, reaction?, neglect]
  cases deciding? event.kind e.leaf with
  | none => rfl
  | some handler =>
    simp only [Option.map_some, Option.bind_some, choose?_map_transition]
    cases handler.2.find? fun a => a.condition.holds resolver config e'.context event <;> rfl

theorem taken?_eq {event : Event} {e' : Engine} (hreceive : e.receive? event = some e') :
    e.taken? event =
      (reaction? resolver config e.leaf e'.context event).map fun r =>
        (r.1, r.2.transition resolver config) := by
  have hleaf := Engine.leaf_receive? hreceive
  rw [Engine.taken?, hreceive, Option.bind_some, (h.receive hreceive).handler?_eq, hleaf, reaction?]
  cases deciding? event.kind e.leaf with
  | none => rfl
  | some handler => simp [choose?_map_transition, Function.comp_def]

theorem step_spec {event : Event} {e' : Engine} (hreceive : e.receive? event = some e') :
    (reaction? resolver config e.leaf e'.context event = none →
        e.step event = (e', .ignored (neglect event.kind e.leaf))) ∧
      ∀ source a, reaction? resolver config e.leaf e'.context event = some (source, a) →
        Taken resolver config e' event source a (e.step event) := by
  have hstep := h.step_eq hreceive
  constructor
  · intro hreaction
    rw [hstep, hreaction]
  · intro source a hreaction
    have htaken := h.taken?_eq hreceive
    rw [hreaction] at hstep htaken
    obtain ⟨hsource, htarget⟩ := h.sound.target_mem htaken
    rw [hstep]
    have h' := h.receive hreceive
    obtain ⟨_, _, rfl, -⟩ := Engine.receive?_eq_some hreceive
    exact h'.taken event hsource htarget

/-- An event is stale, or it is ignored once it is received, or an arrow is taken. -/
theorem step_cases (event : Event) :
    e.step event = (e, .ignored .staleCompletion) ∨
      ∃ e', e.receive? event = some e' ∧
        ((reaction? resolver config e.leaf e'.context event = none ∧
            e.step event = (e', .ignored (neglect event.kind e.leaf))) ∨
          ∃ source a, reaction? resolver config e.leaf e'.context event = some (source, a) ∧
            Taken resolver config e' event source a (e.step event)) := by
  cases hreceive : e.receive? event with
  | none => exact Or.inl (Engine.step_of_receive?_eq_none hreceive)
  | some e' =>
    obtain ⟨hignored, htaken⟩ := h.step_spec hreceive
    refine Or.inr ⟨e', rfl, ?_⟩
    cases hreaction : reaction? resolver config e.leaf e'.context event with
    | none => exact Or.inl ⟨rfl, hignored hreaction⟩
    | some r => exact Or.inr ⟨r.1, r.2, rfl, htaken r.1 r.2 hreaction⟩

theorem step (event : Event) : Attends resolver config (e.step event).1 := by
  rcases h.step_cases event with hstep | ⟨e', hreceive, ⟨-, hstep⟩ | ⟨source, a, -, ht⟩⟩
  · rw [hstep]
    exact h
  · rw [hstep]
    exact h.receive hreceive
  · exact ht.attends

theorem run (events : List Event) : Attends resolver config (e.run events).1 :=
  Engine.run_invariant (P := Attends resolver config) (fun _ event h => h.step event) h events

end Attends

theorem initialDescent_root : shape.initialDescent Chart.root = [idle] := by
  decide +kernel

theorem start_assistant (resolver : Resolver) (config : Config) (journal : Journal Move) :
    .start (assistant resolver config) journal =
      { chart := assistant resolver config, active := [idle, Chart.root], journal : Engine } := by
  rw [Engine.start, enterAll_assistant rfl, (alike_shape resolver config).initialDescent_eq,
    initialDescent_root]
  rfl

theorem attends_start (resolver : Resolver) (config : Config) (journal : Journal Move) :
    Attends resolver config (.start (assistant resolver config) journal) where
  chart_eq := Engine.chart_enterAll none _ _
  sound := Engine.sound_start (wellFormed_assistant resolver config) journal
  pending_eq := by rw [start_assistant]

theorem attends_run {resolver : Resolver} {config : Config} {c : Chart}
    (hc : Appointment.chart resolver config = .ok c) (journal : Journal Move)
    (events : List Event) : Attends resolver config ((Engine.start c journal).run events).1 := by
  rw [eq_assistant_of_chart resolver config hc]
  exact (attends_start resolver config journal).run events

end Dialogue.Appointment
