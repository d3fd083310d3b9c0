import Dialogue.Proofs.Appointment.Silence
import Dialogue.Proofs.Engine.Generations
import Mathlib.Data.List.Find
/-!
# Starting over

One silence too many leads back to the beginning, where history, the last turn and the numbers of
tickets are kept.  None of them is read before it is written again, so the results are those of a
fresh engine with other numbers in tickets.
-/

namespace Dialogue

/-! ## The last turn -/

structure Context.Agrees (ctx ctx' : Context) : Prop where
  slots_eq : ctx.slots = ctx'.slots
  answer_eq : ctx.answer = ctx'.answer
  retryCount_eq : ctx.retryCount = ctx'.retryCount

theorem Context.Agrees.eq {ctx ctx' : Context} (h : ctx.Agrees ctx')
    (hturn : ctx.turn = ctx'.turn) : ctx = ctx' := by
  obtain ⟨_, _, _, _⟩ := ctx
  obtain ⟨_, _, _, _⟩ := ctx'
  obtain ⟨rfl, rfl, rfl⟩ := h
  obtain rfl := hturn
  rfl

theorem Context.Agrees.setSlot {ctx ctx' : Context} (h : ctx.Agrees ctx') (slot : Slot)
    (value : Option String) : (ctx.setSlot slot value).Agrees (ctx'.setSlot slot value) :=
  ⟨congrArg (·.set slot value) h.slots_eq, h.answer_eq, h.retryCount_eq⟩

theorem Context.Agrees.nextCount_eq {ctx ctx' : Context} (h : ctx.Agrees ctx') :
    RetryPolicy.nextCount ctx = RetryPolicy.nextCount ctx' := by
  rw [RetryPolicy.nextCount, RetryPolicy.nextCount, h.retryCount_eq]

theorem Template.render_congr {t : Template} {ctx ctx' : Context}
    (h : ∀ name ∈ t.fields, ctx.field? name = ctx'.field? name) : t.render ctx = t.render ctx' := by
  have hsegments : ∀ s ∈ t.segments, expand ctx s = expand ctx' s := by
    intro s hs
    cases s with
    | text chars => rfl
    | field name =>
      have hname : name ∈ t.fields := List.mem_filterMap.mpr ⟨_, hs, rfl⟩
      rw [expand, expand, h name hname]
  rw [render, render, List.flatMap_congr hsegments]

theorem Template.render_of_isLiteral {t : Template} (h : t.isLiteral) (ctx ctx' : Context) :
    t.render ctx = t.render ctx' := by
  refine render_congr fun name hname => ?_
  rw [isLiteral_iff.mp h] at hname
  cases hname

/-- The last turns of two contexts carry the same for all cues, with the same confidence. -/
structure Cues.Concur (c : Cues) (ctx ctx' : Context) : Prop where
  read?_eq : ∀ cue, c.read? cue ctx = c.read? cue ctx'
  confidence_eq : ctx.turn.confidence = ctx'.turn.confidence

theorem Context.Agrees.concur {ctx ctx' : Context} (h : ctx.Agrees ctx')
    (hturn : ctx.turn = ctx'.turn) (c : Cues) : c.Concur ctx ctx' := by
  obtain rfl := h.eq hturn
  exact ⟨fun _ => rfl, rfl⟩

namespace Appointment

def Condition.heeds : Condition → Bool
  | present _ | certain _ | tentative _ => true
  | always | escalating | answered => false

def Effect.heeds : Effect → Bool
  | fill _ _ | decline _ => true
  | nothing | restart | retry | keepAnswer => false

def Line.isLiteral (prompts : Prompts) : Line → Bool
  | speak text => (text prompts).isLiteral
  | listen => true

def greeting : List StateId :=
  [⟨4⟩, ⟨5⟩]

/-- The states in which nothing may have been heard yet. -/
def unheard : List StateId :=
  idle :: ready :: Branch.welcome.timeout :: greeting

structure Readings : Prop where
  not_heeds : ∀ id ∈ places, ∀ kind ∈ EventKind.all, kind ≠ .recognised →
    ∀ h ∈ deciding? kind id, ∀ a ∈ h.2, ¬ a.condition.heeds ∧ ¬ a.effect.heeds
  beside_of_isHistory : ∀ id ∈ places, ∀ kind ∈ EventKind.all,
    ∀ h ∈ deciding? kind id, ∀ a ∈ h.2, shape.isHistory a.target →
      ∃ b : Branch, id ∈ [b.help, b.timeout] ∧ h.1 = id ∧ a.target = b.history
  near_of_beside : ∀ id ∈ places, ∀ kind ∈ EventKind.all,
    ∀ h ∈ deciding? kind id, ∀ a ∈ h.2, ¬ shape.isHistory a.target → ∀ b : Branch,
      shape.initialLeaf a.target ∈ [b.help, b.timeout] →
        a.target ∈ [b.help, b.timeout] ∧ b.Near id
  place_mem_initial : ∀ b : Branch, b.place ∈ shape.lineage (shape.initialLeaf b.place)
  unheard_initialLeaf : ∀ id ∈ unheard, ∀ kind ∈ EventKind.all, kind ≠ .recognised →
    ∀ h ∈ deciding? kind id, ∀ a ∈ h.2, ¬ shape.isHistory a.target →
      shape.initialLeaf a.target ∈ unheard
  greeting_of_near : ∀ id ∈ unheard, Branch.welcome.Near id →
    id ∈ greeting ∧ Branch.welcome.place ∈ shape.lineage id ∨
      id = Branch.welcome.timeout ∧ Branch.welcome.place ∉ shape.lineage id
  beside_of_unheard : ∀ id ∈ unheard, ∀ b : Branch, id ∈ [b.help, b.timeout] →
    b = .welcome ∧ id = Branch.welcome.timeout
  greeting_ne_timeout : ∀ id ∈ greeting, id ∈ unheard ∧ id ≠ Branch.welcome.timeout
  isLiteral_line : ∀ id ∈ unheard, ∀ x ∈ shape.lineage id, ∀ line ∈ linesAt x, line.isLiteral {}
  not_looksUp_idle : ∀ id ∈ shape.lineage idle, ¬ looksUpAt id

theorem readings : Readings := by
  constructor <;> decide +kernel

/-! ## Reactions without a turn -/

section Setting

variable {resolver : Resolver} {config : Config} {ctx ctx' : Context} {event event' : Event}

theorem Condition.holds_congr {condition : Condition} (hctx : ctx.Agrees ctx')
    (hanswer : event.answer? = event'.answer?)
    (hcues : condition.heeds → (cues resolver config).Concur ctx ctx') :
    condition.holds resolver config ctx event = condition.holds resolver config ctx' event' := by
  cases condition with
  | always => rfl
  | present cue => simp only [holds, (hcues rfl).read?_eq]
  | certain cue | tentative cue =>
    simp only [holds, (hcues rfl).read?_eq, (hcues rfl).confidence_eq]
  | escalating =>
    simp only [holds, RetryPolicy.escalates, hctx.nextCount_eq]
  | answered => simp only [holds, hanswer]

@[simp] theorem Effect.turn_apply (effect : Effect) :
    (effect.apply resolver config ctx event).turn = ctx.turn := by
  rcases effect with _ | _ | (_ | _) | _ | _ | _ <;> rfl

theorem Effect.agrees_apply {effect : Effect} (hctx : ctx.Agrees ctx')
    (hanswer : event.answer? = event'.answer?)
    (hcues : effect.heeds → (cues resolver config).Concur ctx ctx') :
    (effect.apply resolver config ctx event).Agrees
      (effect.apply resolver config ctx' event') := by
  cases effect with
  | nothing => exact hctx
  | fill slot cue =>
    rw [apply, apply, (hcues rfl).read?_eq]
    exact hctx.setSlot slot _
  | decline candidate =>
    cases candidate with
    | none =>
      rw [apply, apply, (hcues rfl).read?_eq]
      exact hctx.setSlot _ _
    | some slot =>
      rw [apply, apply, (hcues rfl).read?_eq]
      exact (hctx.setSlot _ _).setSlot slot none
  | restart => exact ⟨rfl, rfl, rfl⟩
  | retry =>
    exact ⟨hctx.slots_eq, hctx.answer_eq, congrArg some hctx.nextCount_eq⟩
  | keepAnswer => exact ⟨hctx.slots_eq, hanswer, hctx.retryCount_eq⟩

theorem reaction?_congr {id : StateId} (hid : id ∈ places) (hkind : event.kind = event'.kind)
    (hanswer : event.answer? = event'.answer?) (hctx : ctx.Agrees ctx')
    (hcues : event.kind = .recognised → (cues resolver config).Concur ctx ctx') :
    reaction? resolver config id ctx event = reaction? resolver config id ctx' event' := by
  rw [reaction?, reaction?, ← hkind]
  cases hdeciding : deciding? event.kind id with
  | none => rfl
  | some handler =>
    have hholds : ∀ a ∈ handler.2, a.condition.holds resolver config ctx event =
        a.condition.holds resolver config ctx' event' := by
      intro a ha
      refine Condition.holds_congr hctx hanswer fun hheeds => ?_
      by_contra hne
      have hother : event.kind ≠ .recognised := fun h => hne (hcues h)
      exact (readings.not_heeds _ hid _ event.kind.mem_all hother _ hdeciding _ ha).1 hheeds
    rw [Option.bind_some, Option.bind_some, List.find?_congr hholds]

/-! ## What is said without a turn -/

theorem announced_congr (f : Directive → Directive) {l : Lookups} {id : StateId}
    (hctx : ctx.Agrees ctx')
    (hlines : ∀ line ∈ linesAt id,
      f (line.directive config ctx) = f (line.directive config ctx')) :
    (announced config ctx l id).map f = (announced config ctx' l id).map f := by
  have hsaid : (linesAt id).map (f ∘ Line.directive config ctx) =
      (linesAt id).map (f ∘ Line.directive config ctx') := List.map_congr_left hlines
  simp only [announced, List.map_append, List.map_map, hsaid, Context.slot, hctx.slots_eq]

theorem announcedAll_congr (f : Directive → Directive) {l : Lookups} {ids : List StateId}
    (hctx : ctx.Agrees ctx')
    (hlines : ∀ id ∈ ids, ∀ line ∈ linesAt id,
      f (line.directive config ctx) = f (line.directive config ctx')) :
    (announcedAll config ctx l ids).map f = (announcedAll config ctx' l ids).map f := by
  induction ids generalizing l with
  | nil => rfl
  | cons id ids ih =>
    rw [List.forall_mem_cons] at hlines
    rw [announcedAll, announcedAll, List.map_append, List.map_append,
      announced_congr f hctx hlines.1, ih hlines.2]

theorem Effect.said_congr (hprompts : config.prompts = {}) (effect : Effect) (ctx ctx' : Context) :
    effect.said config ctx = effect.said config ctx' := by
  have hliteral : config.prompts.reset.isLiteral := by
    rw [hprompts]
    decide
  unfold said
  split
  · rw [Template.render_of_isLiteral hliteral]
  · rfl

theorem Line.directive_of_isLiteral {line : Line} (h : line.isLiteral config.prompts) :
    line.directive config ctx = line.directive config ctx' := by
  cases line with
  | speak text => exact congrArg Directive.speak (Template.render_of_isLiteral h ctx ctx')
  | listen => rfl

/-! ## Numbers that begin later -/

theorem begun_later (g : Nat) (l : Lookups) (id : StateId) :
    begun (l.later g) id = (begun l id).later g := by
  unfold begun
  split
  · exact Lookups.start_later g l id
  · rfl

theorem foldl_begun_later (g : Nat) (l : Lookups) (ids : List StateId) :
    ids.foldl begun (l.later g) = (ids.foldl begun l).later g := by
  induction ids generalizing l with
  | nil => rfl
  | cons id ids ih => rw [List.foldl_cons, begun_later, ih, List.foldl_cons]

theorem announced_later (g : Nat) (l : Lookups) (id : StateId) :
    announced config ctx (l.later g) id = (announced config ctx l id).map (Directive.later g) := by
  have hlines : ∀ line ∈ linesAt id,
      line.directive config ctx = (line.directive config ctx).later g := by
    intro line _
    cases line <;> rfl
  unfold announced
  rw [List.map_append, List.map_map, List.map_congr_left hlines, Lookups.nextTicket_later]
  split <;> rfl

theorem announcedAll_later (g : Nat) (l : Lookups) (ids : List StateId) :
    announcedAll config ctx (l.later g) ids =
      (announcedAll config ctx l ids).map (Directive.later g) := by
  induction ids generalizing l with
  | nil => rfl
  | cons id ids ih =>
    rw [announcedAll, announcedAll, announced_later, begun_later, ih, List.map_append]

theorem Effect.said_later (g : Nat) (effect : Effect) :
    (effect.said config ctx).map (Directive.later g) = effect.said config ctx := by
  cases effect <;> rfl

/-! ## Lookups that are awaited -/

def Due (l : Lookups) : Prop :=
  ∀ ticket, l.live = some ticket → looksUpAt ticket.state ∧ 0 < ticket.generation

theorem due_foldl_cancel {l : Lookups} (h : Due l) (ids : List StateId) :
    Due (ids.foldl Lookups.cancel l) :=
  fun ticket hlive => h ticket (Lookups.live_cancelAll_eq_some.mp hlive).1

theorem due_foldl_begun {l : Lookups} (h : Due l) (ids : List StateId) :
    Due (ids.foldl begun l) := by
  induction ids generalizing l with
  | nil => exact h
  | cons id ids ih =>
    refine ih ?_
    unfold begun
    split
    · next hlooksUp =>
      intro ticket hlive
      obtain rfl := Option.some.inj hlive
      exact ⟨hlooksUp, Nat.succ_pos _⟩
    · exact h

theorem due_receive? {e e' : Engine} (h : Due e.lookups) {event : Event}
    (hreceive : e.receive? event = some e') : Due e'.lookups := by
  obtain ⟨_, lookups, rfl, rfl | ⟨ticket, _, -, hcomplete⟩⟩ := Engine.receive?_eq_some hreceive
  · exact h
  · obtain ⟨-, rfl⟩ := Lookups.complete?_eq_some.mp hcomplete
    intro ticket hlive
    cases hlive

theorem Taken.due {e : Engine} {source : StateId} {a : Arrow} {s : Engine × StepResult}
    (ht : Taken resolver config e event source a s) (h : Due e.lookups) : Due s.1.lookups := by
  rw [ht.lookups_eq]
  exact due_foldl_begun (due_foldl_cancel h _) _

theorem Attends.due_step {e : Engine} (h : Attends resolver config e) (hdue : Due e.lookups)
    (event : Event) : Due (e.step event).1.lookups := by
  rcases h.step_cases event with hstep | ⟨e', hreceive, ⟨-, hstep⟩ | ⟨source, a, -, ht⟩⟩
  · rw [hstep]
    exact hdue
  · rw [hstep]
    exact due_receive? hdue hreceive
  · exact ht.due (due_receive? hdue hreceive)

theorem Attends.due_run {e : Engine} (h : Attends resolver config e) (hdue : Due e.lookups)
    (events : List Event) : Due (e.run events).1.lookups :=
  (Engine.run_invariant (P := fun e => Attends resolver config e ∧ Due e.lookups)
    (fun _ event h => ⟨h.1.step event, h.1.due_step h.2 event⟩) ⟨h, hdue⟩ events).2

/-! ## Where an arrow ends -/

theorem Taken.leaf_cases {e : Engine} {source : StateId} {a : Arrow} {s : Engine × StepResult}
    (ht : Taken resolver config e event source a s) (h : Attends resolver config e)
    (hdeciding : ∃ arrows, deciding? event.kind e.leaf = some (source, arrows) ∧ a ∈ arrows) :
    (∃ b : Branch, e.leaf ∈ [b.help, b.timeout] ∧ b.place ∈ shape.lineage s.1.leaf ∧
        ∀ leaf, e.history.resume? b.place = some leaf → s.1.leaf = leaf) ∨
      ¬ shape.isHistory a.target ∧ s.1.leaf = shape.initialLeaf a.target := by
  obtain ⟨arrows, hdeciding, ha⟩ := hdeciding
  by_cases hhistory : shape.isHistory a.target
  · obtain ⟨b, hleaf, rfl, htarget⟩ := readings.beside_of_isHistory _ h.leaf_mem_places _
      event.kind.mem_all _ hdeciding _ ha hhistory
    have harrival := ht.leaf_eq
    rw [htarget, h.arrival_history hleaf] at harrival
    refine Or.inl ⟨b, hleaf, ?_, fun leaf hresume => ?_⟩
    · rw [harrival]
      cases hresume : e.history.resume? b.place with
      | none => exact readings.place_mem_initial b
      | some leaf =>
        have hinside := (h.sound.recorded hresume).mem_lineage
        rwa [h.alike.lineage_eq] at hinside
    · rw [harrival, hresume, Option.getD_some]
  · exact Or.inr ⟨hhistory, ht.leaf_initial h hhistory⟩

/-! ## Two engines that nobody can tell apart -/

structure Unheard (e : Engine) : Prop where
  leaf_mem : e.leaf ∈ unheard
  greeting_of_timeout : e.leaf = Branch.welcome.timeout →
    ∃ leaf ∈ greeting, e.history.resume? Branch.welcome.place = some leaf

/-- An engine that started over at generation `g`, and one that has just been started. -/
structure Renewed (resolver : Resolver) (config : Config) (g : Nat) (e e' : Engine) : Prop where
  attends : Attends resolver config e
  attends' : Attends resolver config e'
  leaf_eq : e.leaf = e'.leaf
  agrees : e.context.Agrees e'.context
  turn_eq : e.context.turn = e'.context.turn ∨ Unheard e'
  resume?_eq : ∀ b : Branch, e'.leaf ∈ [b.help, b.timeout] →
    e.history.resume? b.place = e'.history.resume? b.place
  lookups_eq : e.lookups = e'.lookups.later g
  due : Due e'.lookups

namespace Renewed

variable {g : Nat} {e e' : Engine} (h : Renewed resolver config g e e')
include h

theorem receive (event : Event) :
    (e.receive? event = none ∧ e'.receive? (event.sooner g) = none) ∨
      ∃ r r', e.receive? event = some r ∧ e'.receive? (event.sooner g) = some r' ∧
        Renewed resolver config g r r' ∧ r'.leaf = e'.leaf ∧
        (event.kind = .recognised → r.context.turn = r'.context.turn) := by
  cases event with
  | lookupDone ticket answer =>
    have hcomplete := Lookups.complete?_later (g := g) (fun live hlive => (h.due live hlive).2)
      ticket
    rw [← h.lookups_eq] at hcomplete
    simp only [Engine.receive?, Event.sooner, hcomplete]
    cases hcomplete' : e'.lookups.complete? (ticket.sooner g) with
    | none => exact Or.inl ⟨rfl, rfl⟩
    | some lookups =>
      obtain ⟨-, hlookups⟩ := Lookups.complete?_eq_some.mp hcomplete'
      have hreceive : e.receive? (.lookupDone ticket answer) =
          some { e with lookups := lookups.later g } := by
        simp only [Engine.receive?, hcomplete, hcomplete', Option.map_some]
      have hreceive' : e'.receive? (.lookupDone (ticket.sooner g) answer) =
          some { e' with lookups } := by
        simp only [Engine.receive?, hcomplete', Option.map_some]
      refine Or.inr ⟨_, _, rfl, rfl, ?_, rfl, fun hkind => by cases hkind⟩
      exact
        { h with
          attends := h.attends.receive hreceive
          attends' := h.attends'.receive hreceive'
          turn_eq := h.turn_eq.imp_right fun hu => ⟨hu.leaf_mem, hu.greeting_of_timeout⟩
          lookups_eq := rfl
          due := due_receive? h.due hreceive' }
  | recognised turn =>
    refine Or.inr ⟨_, _, rfl, rfl, ?_, rfl, fun _ => rfl⟩
    exact
      { h with
        attends := h.attends.receive (Engine.receive?_recognised e turn)
        attends' := h.attends'.receive (Engine.receive?_recognised e' turn)
        agrees := ⟨h.agrees.slots_eq, h.agrees.answer_eq, rfl⟩
        turn_eq := Or.inl rfl }
  | click | ttsReady | endSpeech | timeout =>
    exact Or.inr ⟨_, _, rfl, rfl, h, rfl, fun hkind => by cases hkind⟩

/-! ## One arrow -/

theorem cancelled_eq (source target : StateId) :
    (departed e.leaf source target).foldl Lookups.cancel e.lookups =
      ((departed e'.leaf source target).foldl Lookups.cancel e'.lookups).later g := by
  rw [h.leaf_eq, h.lookups_eq, Lookups.foldl_cancel_later]

section Arrow

variable {kind : EventKind} {source : StateId} {a : Arrow} {s s' : Engine × StepResult}
  (hdeciding : ∃ arrows, deciding? kind e'.leaf = some (source, arrows) ∧ a ∈ arrows)
include hdeciding

theorem remembered?_eq : e.remembered? source a.target = e'.remembered? source a.target := by
  obtain ⟨arrows, hdeciding, ha⟩ := hdeciding
  simp only [Engine.remembered?, h.attends.alike.isHistory_eq, h.attends'.alike.isHistory_eq]
  by_cases hhistory : shape.isHistory a.target
  · -- history is read beside a branch alone, where the two records agree
    obtain ⟨b, hleaf, -, htarget⟩ := readings.beside_of_isHistory _ h.attends'.leaf_mem_places _
      kind.mem_all _ hdeciding _ ha hhistory
    rw [if_pos hhistory, if_pos hhistory, h.attends.effectiveTarget_eq,
      h.attends'.effectiveTarget_eq, h.attends.recordAll_eq, h.attends'.recordAll_eq,
      h.attends.left_eq, h.attends'.left_eq, h.leaf_eq, htarget,
      (landmarks.effectiveTarget_history b).2, History.resume?_recordAll,
      History.resume?_recordAll, h.resume?_eq b hleaf]
  · rw [if_neg hhistory, if_neg hhistory]

theorem source_mem : source ∈ shape.lineage e'.leaf ∧ source ≠ Chart.root := by
  obtain ⟨arrows, hdeciding, -⟩ := hdeciding
  exact landmarks.source_of_deciding? _ h.attends'.leaf_mem_places _ kind.mem_all _ hdeciding

theorem arrival_eq : e.arrival source a.target = e'.arrival source a.target := by
  rw [Engine.arrival, Engine.arrival, h.remembered?_eq hdeciding, h.attends.chart_eq,
    h.attends'.chart_eq]

theorem entered_eq : e.entered source a.target = e'.entered source a.target := by
  obtain ⟨hsource, -⟩ := h.source_mem hdeciding
  have hactive' : source ∈ e'.active := h.attends'.active_eq ▸ hsource
  have hactive : source ∈ e.active := by
    rw [h.attends.active_eq, h.leaf_eq]
    exact hsource
  rw [Engine.entered_eq (h.attends.sound.domain_active hactive _),
    Engine.entered_eq (h.attends'.sound.domain_active hactive' _), h.remembered?_eq hdeciding,
    Engine.domain, Engine.domain, h.attends.chart_eq, h.attends'.chart_eq]

end Arrow

/-! ## One step -/

section Step

variable {source : StateId} {a : Arrow} {s s' : Engine × StepResult}
  (hdeciding : ∃ arrows, deciding? event.kind e'.leaf = some (source, arrows) ∧ a ∈ arrows)
  (ht' : Taken resolver config e' event' source a s')
include hdeciding ht'

theorem result_taken (ht : Taken resolver config e event source a s)
    (hprompts : config.prompts = {}) (hr : Renewed resolver config g s.1 s'.1) :
    s.2 = s'.2.later g := by
  have hlines : ∀ id ∈ e'.entered source a.target, ∀ line ∈ linesAt id,
      line.directive config s.1.context = line.directive config s'.1.context := by
    intro id hid line hline
    rcases hr.turn_eq with hturn | hu
    · rw [hr.agrees.eq hturn]
    · -- nothing that is said before the first turn quotes a turn
      have hactive : id ∈ s'.1.active := by
        rw [ht'.active_eq]
        exact List.mem_append_left _ (List.mem_reverse.mpr hid)
      rw [ht'.attends.active_eq] at hactive
      refine Line.directive_of_isLiteral ?_
      rw [hprompts]
      exact readings.isLiteral_line _ hu.leaf_mem id hactive line hline
  have hsaid (l : Lookups) : announcedAll config s.1.context l (e'.entered source a.target) =
      announcedAll config s'.1.context l (e'.entered source a.target) := by
    simpa using announcedAll_congr id (l := l) hr.agrees hlines
  rw [ht.result_eq, ht'.result_eq, h.entered_eq hdeciding, h.cancelled_eq, announcedAll_later,
    hsaid, Effect.said_congr hprompts a.effect e.context e'.context,
    h.attends.leafPath_eq, h.attends'.leafPath_eq, ht.attends.leafPath_eq, ht'.attends.leafPath_eq,
    ht.attends.configuration_eq, ht'.attends.configuration_eq, h.leaf_eq, hr.leaf_eq,
    StepResult.later, List.map_append, Effect.said_later]

variable (hkind : event'.kind = event.kind)
include hkind

theorem unheard (hheard : event.kind ≠ .recognised) (hu : Unheard e') : Unheard s'.1 := by
  rw [← hkind] at hdeciding hheard
  have hplaces := h.attends'.leaf_mem_places
  rcases ht'.leaf_cases h.attends' hdeciding with ⟨b, hleaf, -, hresume⟩ | ⟨hhistory, hnew⟩
  · -- an apology for the first silence is over
    obtain ⟨rfl, htimeout⟩ := readings.beside_of_unheard _ hu.leaf_mem b hleaf
    obtain ⟨leaf, hgreeting, hrecorded⟩ := hu.greeting_of_timeout htimeout
    obtain ⟨hmem, hne⟩ := readings.greeting_ne_timeout leaf hgreeting
    rw [← hresume leaf hrecorded] at hmem hne
    exact ⟨hmem, fun h => absurd h hne⟩
  · obtain ⟨hsource, hroot⟩ := h.source_mem hdeciding
    obtain ⟨arrows, hdeciding, ha⟩ := hdeciding
    refine ⟨?_, fun htimeout => ?_⟩
    · rw [hnew]
      exact readings.unheard_initialLeaf _ hu.leaf_mem _ event'.kind.mem_all hheard _ hdeciding _
        ha hhistory
    · obtain ⟨htarget, hnear⟩ := readings.near_of_beside _ hplaces _ event'.kind.mem_all _
        hdeciding _ ha hhistory .welcome (by simp [← hnew, htimeout])
      have hrecorded := ht'.resume?_top h.attends' (List.mem_cons_of_mem _ htarget)
        ⟨hsource, hroot⟩ .welcome
      rcases readings.greeting_of_near _ hu.leaf_mem hnear with
        ⟨hgreeting, hinside⟩ | ⟨hbeside, houtside⟩
      · exact ⟨_, hgreeting, hrecorded.trans (if_pos hinside)⟩
      · obtain ⟨leaf, hgreeting, hold⟩ := hu.greeting_of_timeout hbeside
        exact ⟨leaf, hgreeting, hrecorded.trans ((if_neg houtside).trans hold)⟩

variable (ht : Taken resolver config e event source a s)
include ht

theorem resume?_taken (b : Branch) (hb : s'.1.leaf ∈ [b.help, b.timeout]) :
    s.1.history.resume? b.place = s'.1.history.resume? b.place := by
  obtain ⟨hsource, hroot⟩ := h.source_mem hdeciding
  rw [← hkind] at hdeciding
  rcases ht'.leaf_cases h.attends' hdeciding with ⟨b', -, hinside, -⟩ | ⟨hhistory, hnew⟩
  · exact absurd hinside (landmarks.place_notMem_lineage b _ hb b')
  · obtain ⟨arrows, hdeciding, ha⟩ := hdeciding
    obtain ⟨htarget, hnear⟩ := readings.near_of_beside _ h.attends'.leaf_mem_places _
      event'.kind.mem_all _ hdeciding _ ha hhistory b (hnew ▸ hb)
    have hbeside : a.target ∈ [idle, b.help, b.timeout] := List.mem_cons_of_mem _ htarget
    -- leaving the branch writes the same leaf to both records; on the way from one state beside
    -- it to another, both stay as they were
    rw [ht.resume?_top h.attends hbeside ⟨h.leaf_eq ▸ hsource, hroot⟩ b,
      ht'.resume?_top h.attends' hbeside ⟨hsource, hroot⟩ b, h.leaf_eq]
    split
    · rfl
    · next houtside =>
      refine h.resume?_eq b ?_
      simpa using hnear.resolve_left houtside

theorem renewed_taken (hanswer : event.answer? = event'.answer?)
    (hheard : event.kind = .recognised → e.context.turn = e'.context.turn) :
    Renewed resolver config g s.1 s'.1 := by
  refine ⟨ht.attends, ht'.attends, ?_, ?_, ?_, h.resume?_taken hdeciding ht' hkind ht, ?_,
    ht'.due h.due⟩
  · rw [ht.leaf_eq, ht'.leaf_eq, h.arrival_eq hdeciding]
  · rw [ht.context_eq, ht'.context_eq]
    refine Effect.agrees_apply h.agrees hanswer fun hheeds => ?_
    by_contra hne
    obtain ⟨arrows, hdeciding, ha⟩ := hdeciding
    exact (readings.not_heeds _ h.attends'.leaf_mem_places _ event.kind.mem_all
      (fun hkind => hne (h.agrees.concur (hheard hkind) _)) _ hdeciding _ ha).2 hheeds
  · rw [ht.context_eq, ht'.context_eq, Effect.turn_apply, Effect.turn_apply]
    by_cases hevent : event.kind = .recognised
    · exact Or.inl (hheard hevent)
    · exact h.turn_eq.imp_right (h.unheard hdeciding ht' hkind hevent)
  · rw [ht.lookups_eq, ht'.lookups_eq, h.cancelled_eq, h.entered_eq hdeciding, foldl_begun_later]

end Step

theorem step (hprompts : config.prompts = {}) (event : Event) :
    Renewed resolver config g (e.step event).1 (e'.step (event.sooner g)).1 ∧
      (e.step event).2 = (e'.step (event.sooner g)).2.later g := by
  rcases h.receive event with ⟨hstale, hstale'⟩ | ⟨r, r', hreceive, hreceive', hr, hleaf, hheard⟩
  · rw [Engine.step_of_receive?_eq_none hstale, Engine.step_of_receive?_eq_none hstale']
    exact ⟨h, rfl⟩
  · obtain ⟨hignored, htaken⟩ := h.attends.step_spec hreceive
    obtain ⟨hignored', htaken'⟩ := h.attends'.step_spec hreceive'
    have hreaction : reaction? resolver config e'.leaf r.context event =
        reaction? resolver config e'.leaf r'.context (event.sooner g) :=
      reaction?_congr h.attends'.leaf_mem_places (event.kind_sooner g).symm
        (event.answer?_sooner g).symm hr.agrees
        fun hkind => hr.agrees.concur (hheard hkind) _
    rw [← h.leaf_eq] at hreaction htaken' hignored'
    cases hsome : reaction? resolver config e.leaf r.context event with
    | none =>
      rw [hignored hsome, hignored' (hreaction ▸ hsome), Event.kind_sooner]
      exact ⟨hr, rfl⟩
    | some reaction =>
      have hdeciding := deciding?_of_reaction? hsome
      rw [h.leaf_eq, ← hleaf] at hdeciding
      have ht := htaken _ _ hsome
      have ht' := htaken' _ _ (hreaction ▸ hsome)
      have hnext := hr.renewed_taken hdeciding ht' (event.kind_sooner g) ht
        (event.answer?_sooner g).symm hheard
      exact ⟨hnext, hr.result_taken hdeciding ht' ht hprompts hnext⟩

theorem run (hprompts : config.prompts = {}) (events : List Event) :
    Renewed resolver config g (e.run events).1 (e'.run (events.map (Event.sooner g))).1 ∧
      (e.run events).2 = (e'.run (events.map (Event.sooner g))).2.map (StepResult.later g) := by
  induction events generalizing e e' with
  | nil => exact ⟨h, rfl⟩
  | cons event events ih =>
    obtain ⟨hnext, hresult⟩ := h.step hprompts event
    obtain ⟨hend, hresults⟩ := ih hnext
    refine ⟨hend, ?_⟩
    simp only [Engine.run, List.map_cons, hresult, hresults]

end Renewed

/-! ## Starting over -/

theorem Attends.restarted_of_idle {e : Engine} (h : Attends resolver config e)
    {source : String} {configuration : List String} {directives : List Directive}
    (hresult : (e.step .timeout).2 = .transitioned source "idle" configuration directives) :
    (e.step .timeout).1.leaf = idle ∧ (e.step .timeout).1.context = e.context.cleared := by
  rcases h.leaf_cases with hleaf | hleaf | ⟨b, hnear⟩
  · rw [h.step_timeout_eq_ignored (Or.inl hleaf)] at hresult
    cases hresult
  · rw [h.step_timeout_eq_ignored (Or.inr hleaf)] at hresult
    cases hresult
  · rcases Nat.lt_or_ge (e.context.silences + 1) config.maxTimeouts.toNat with hlt | hle
    · obtain ⟨⟨_, hapology⟩, -⟩ := h.retried hnear hlt
      rw [hapology] at hresult
      obtain ⟨-, htarget, -, -⟩ := StepResult.transitioned.inj hresult
      exact absurd htarget b.timeoutName_ne_idle
    · exact (h.restarted hnear hle).2

theorem lookups_of_idle {d : ChartDef} {c : Chart} (hd : d.build = .ok c)
    {journal : Journal Move} {events : List Event}
    (h : Attends resolver config ((Engine.start c journal).run events).1)
    (hdue : Due ((Engine.start c journal).run events).1.lookups)
    (hidle : ((Engine.start c journal).run events).1.leaf = idle) :
    ((Engine.start c journal).run events).1.lookups.live = none := by
  cases hlive : ((Engine.start c journal).run events).1.lookups.live with
  | none => rfl
  | some ticket =>
    have hactive := Engine.state_mem_of_live hd journal events hlive
    rw [h.active_eq, hidle] at hactive
    exact absurd (hdue ticket hlive).1 (readings.not_looksUp_idle _ hactive)

theorem renewed_start {e : Engine} (h : Attends resolver config e) (hidle : e.leaf = idle)
    (hcontext : e.context = e.context.cleared) (hlive : e.lookups.live = none)
    (journal : Journal Move) :
    Renewed resolver config e.lookups.generation e
      (.start (assistant resolver config) journal) := by
  have hstart := start_assistant resolver config journal
  have hleaf : (Engine.start (assistant resolver config) journal).leaf = idle := by
    rw [hstart]
    rfl
  refine ⟨h, attends_start resolver config journal, hidle.trans hleaf.symm, ?_, Or.inr ⟨?_, ?_⟩,
    ?_, ?_, ?_⟩
  · rw [hcontext, hstart]
    exact ⟨rfl, rfl, rfl⟩
  · rw [hleaf]
    exact List.mem_cons_self
  · rw [hleaf]
    intro htimeout
    cases htimeout
  · rw [hleaf]
    intro b hb
    cases b <;> simp [idle, Branch.help, Branch.timeout] at hb
  · rw [hstart, Lookups.later, Nat.zero_add, Option.map_none, ← hlive]
  · rw [hstart]
    intro ticket hticket
    cases hticket

end Setting

/-- After a silence that leads to `idle`, any events lead to the results, slots, answers and counts
that they have in a fresh engine.  The generations of tickets are `g` later. -/
theorem renewal_run {resolver : Resolver} {config : Config} {c : Chart}
    (hc : Appointment.chart resolver config = .ok c) (hprompts : config.prompts = {})
    (journal journal' : Journal Move) (past : List Event) :
    let e := ((Engine.start c journal).run past).1
    let s := e.step .timeout
    let g := s.1.lookups.generation
    ∀ source configuration directives,
      s.2 = .transitioned source "idle" configuration directives →
      ∀ events,
        let renewed := s.1.run events
        let fresh := (Engine.start c journal').run (events.map (Event.sooner g))
        renewed.2 = fresh.2.map (StepResult.later g) ∧
          renewed.1.configuration = fresh.1.configuration ∧
          renewed.1.context.slots = fresh.1.context.slots ∧
          renewed.1.context.answer = fresh.1.context.answer ∧
          renewed.1.context.retryCount = fresh.1.context.retryCount ∧
          renewed.1.lookups = fresh.1.lookups.later g := by
  intro e s g source configuration directives hresult events renewed fresh
  have h : Attends resolver config e := attends_run hc journal past
  obtain ⟨hidle, hcontext⟩ := h.restarted_of_idle hresult
  have hrun : s.1 = ((Engine.start c journal).run (past ++ [.timeout])).1 := by
    rw [Engine.run_concat]
  obtain rfl := eq_assistant_of_chart resolver config hc
  have hdue : Due s.1.lookups := by
    rw [hrun]
    refine (attends_start resolver config journal).due_run ?_ _
    rw [start_assistant]
    intro ticket hticket
    cases hticket
  have hlive : s.1.lookups.live = none := by
    have hstep := h.step .timeout
    have hidle' : s.1.leaf = idle := hidle
    rw [hrun] at hdue hidle' ⊢
    exact lookups_of_idle (build_definition resolver config) (attends_run hc _ _) hdue hidle'
  have hcleared : s.1.context = s.1.context.cleared := by
    rw [show s.1.context = e.context.cleared from hcontext]
    rfl
  obtain ⟨hend, hresults⟩ :=
    (renewed_start (h.step .timeout) hidle hcleared hlive journal').run hprompts events
  refine ⟨hresults, ?_, hend.agrees.slots_eq, hend.agrees.answer_eq, hend.agrees.retryCount_eq,
    hend.lookups_eq⟩
  rw [hend.attends.configuration_eq, hend.attends'.configuration_eq, hend.leaf_eq]

def asking : List Event :=
  [.click, .click, .recognised { utterance := "query", confidence := 0.9 },
    .recognised { utterance := "who is Turing", confidence := 0.9 }]

/-- The lookup begins with generation `3` in place of `1`. -/
theorem renewal_run_asking :
    Appointment.chart Grammar.appointment.resolver {} = .ok standard ∧
      (∃ directives,
        (((Engine.start standard (.withCapacity 4)).run (asking ++ [.timeout, .timeout])).1.step
          .timeout).2 = .transitioned "query_timeout" "idle" ["idle"] directives) ∧
      (((Engine.start standard (.withCapacity 4)).run (asking ++ [.timeout, .timeout])).1.step
        .timeout).1.lookups.generation = 2 ∧
      ((((Engine.start standard (.withCapacity 4)).run (asking ++ [.timeout, .timeout])).1.step
        .timeout).1.run (asking ++ [.lookupDone ⟨⟨18⟩, 3⟩ ⟨"a mathematician", none, none⟩])).2 =
          ((Engine.start standard (.withCapacity 4)).run
            (asking ++ [.lookupDone ⟨⟨18⟩, 1⟩ ⟨"a mathematician", none, none⟩])).2.map
              (StepResult.later 2) := by
  have hreset : ∃ directives, (((Engine.start standard (.withCapacity 4)).run
      (asking ++ [.timeout, .timeout])).1.step .timeout).2 =
        .transitioned "query_timeout" "idle" ["idle"] directives :=
    ⟨_, rfl⟩
  have hgeneration : (((Engine.start standard (.withCapacity 4)).run
      (asking ++ [.timeout, .timeout])).1.step .timeout).1.lookups.generation = 2 := by
    decide
  have hrun := renewal_run chart_standard rfl (.withCapacity 4) (.withCapacity 4)
    (asking ++ [.timeout, .timeout]) "query_timeout" ["idle"]
  obtain ⟨directives, hdirectives⟩ := hreset
  have hresults := (hrun directives hdirectives
    (asking ++ [Event.lookupDone ⟨⟨18⟩, 3⟩ ⟨"a mathematician", none, none⟩])).1
  have hevents : (asking ++ [Event.lookupDone ⟨⟨18⟩, 3⟩ ⟨"a mathematician", none, none⟩]).map
      (Event.sooner 2) = asking ++ [.lookupDone ⟨⟨18⟩, 1⟩ ⟨"a mathematician", none, none⟩] := rfl
  rw [hgeneration, hevents] at hresults
  exact ⟨chart_standard, ⟨directives, hdirectives⟩, hgeneration, hresults⟩

end Appointment

end Dialogue
