import Dialogue.Proofs.Engine.Passage
/-!
# Ignored events

An event that is ignored moves nothing: the active states, the history, the journal, the pending
directives and the numbers of lookups stay as they are.  Two things are done before it is known that
nothing reacts to it.  A turn is written down in the context, and a completion that was awaited is
used up, so that it cannot be brought a second time.
-/

namespace Dialogue

structure Context.WrittenDown (turn : Turn) (ctx ctx' : Context) : Prop where
  utterance_eq : ctx'.turn.utterance = turn.utterance
  confidence_eq : ctx'.turn.confidence = clampConfidence turn.confidence
  entities_eq : ctx'.turn.entities = turn.entities
  topIntent_eq : ctx'.turn.topIntent = turn.topIntent
  retryCount_eq : ctx'.retryCount = none
  slot_eq : ∀ s, ctx'.slot s = ctx.slot s
  answer_eq : ctx'.answer = ctx.answer

theorem Context.writtenDown_observe (ctx : Context) (turn : Turn) :
    WrittenDown turn ctx (ctx.observe turn) := by
  constructor <;> intros <;> rfl

namespace Engine

/-! ## What is left as it is -/

/-- `event` moves nothing: only what a turn says is written into the context, and only a lookup that
was awaited and is completed by `event` stops being live. -/
structure Unmoved (e : Engine) (event : Event) : Prop where
  chart_eq : (e.step event).1.chart = e.chart
  active_eq : (e.step event).1.active = e.active
  history_eq : (e.step event).1.history = e.history
  journal_eq : (e.step event).1.journal = e.journal
  pending_eq : (e.step event).1.pending = e.pending
  generation_eq : (e.step event).1.lookups.generation = e.lookups.generation
  context_eq : event.kind ≠ .recognised → (e.step event).1.context = e.context
  writtenDown : ∀ turn, event = .recognised turn →
    Context.WrittenDown turn e.context (e.step event).1.context
  live_eq : (∀ ticket answer, event = .lookupDone ticket answer →
    e.lookups.live ≠ some ticket) → (e.step event).1.lookups.live = e.lookups.live
  live_eq_none : ∀ ticket answer, event = .lookupDone ticket answer →
    e.lookups.live = some ticket → (e.step event).1.lookups.live = none

theorem step_of_ignored {e : Engine} {event : Event} {reason : IgnoreReason}
    (h : (e.step event).2 = .ignored reason) : (e.step event).1 = e.noted event := by
  rcases step_cases e event with
    ⟨hstale, -, hstep⟩ | ⟨e', hreceive, ⟨-, _, -, hstep⟩ | ⟨source, t, -, hstep⟩⟩
  · rw [hstep, noted, hstale, Option.getD_none]
  · rw [hstep, noted, hreceive, Option.getD_some]
  · rw [hstep] at h
    cases h

theorem unmoved_of_ignored {e : Engine} {event : Event} {reason : IgnoreReason}
    (h : (e.step event).2 = .ignored reason) : e.Unmoved event := by
  have hnoted := step_of_ignored h
  cases event with
  | recognised turn =>
    have hcontext : e.noted (.recognised turn) =
        { e with context := e.context.observe turn } := rfl
    rw [hcontext] at hnoted
    constructor
    case context_eq => exact fun hkind => absurd rfl hkind
    case writtenDown =>
      rintro _ ⟨⟩
      rw [hnoted]
      exact e.context.writtenDown_observe turn
    all_goals simp [hnoted]
  | lookupDone ticket answer =>
    have hlookups : e.noted (.lookupDone ticket answer) =
        { e with lookups := (e.lookups.complete? ticket).getD e.lookups } := by
      rw [noted, receive?]
      cases e.lookups.complete? ticket <;> rfl
    rw [hlookups, Lookups.complete?] at hnoted
    by_cases hlive : e.lookups.live = some ticket
    · rw [if_pos hlive, Option.getD_some] at hnoted
      constructor
      case live_eq => exact fun hnone => absurd hlive (hnone ticket answer rfl)
      all_goals simp [hnoted]
    · rw [if_neg hlive, Option.getD_none] at hnoted
      constructor
      case live_eq_none =>
        rintro _ _ ⟨⟩ hsome
        exact absurd hsome hlive
      all_goals simp [hnoted]
  | click | ttsReady | endSpeech | timeout =>
    have hsame : ∀ {event : Event}, e.receive? event = some e → e.noted event = e := by
      intro event hreceive
      rw [noted, hreceive, Option.getD_some]
    rw [hsame rfl] at hnoted
    constructor <;> simp [hnoted]

/-! ## What is used up -/

theorem mem_completed_chronicle (c : Chart) (journal : Journal Move) (events later : List Event)
    {ticket : Ticket} (answer : Answer)
    (hlive : ((start c journal).run events).1.lookups.live = some ticket) :
    ticket ∈ Mark.completed
      (chronicle c journal (events ++ .lookupDone ticket answer :: later)) := by
  have hlive' : (((start c journal).run events).1.step (.lookupDone ticket answer)).2 ≠
      .ignored .staleCompletion := by
    rw [Ne, step_eq_stale_iff, receive?_lookupDone_eq_none, not_not]
    exact hlive
  rw [chronicle, runMarks_append, runMarks, Mark.completed_append, Mark.completed_append,
    Mark.completed_append, completed_stepMarks, accepted?, if_neg hlive']
  simp

theorem live_ne_of_completed {d : ChartDef} {c : Chart} (hd : d.build = .ok c)
    (journal : Journal Move) {events : List Event} {ticket : Ticket}
    (h : ticket ∈ Mark.completed (chronicle c journal events)) :
    ((start c journal).run events).1.lookups.live ≠ some ticket := by
  have hfollows : ((start c journal).run events).1.lookups.Follows (chronicle c journal events) :=
    tracks_lookups.chronicle (ChartDef.wellFormed_of_build hd) follows_empty events
  intro hlive
  obtain ⟨_, _, _, _, hfresh, _⟩ := (hfollows.live_iff ticket).mp hlive
  exact hfresh h

/-- An event that is ignored is `Unmoved`.  If it completes the lookup of `ticket`, every later
completion of `ticket` is stale. -/
theorem ignored_run {d : ChartDef} {c : Chart} (hd : d.build = .ok c) (journal : Journal Move)
    (events : List Event) {event : Event} {reason : IgnoreReason}
    (h : (((start c journal).run events).1.step event).2 = .ignored reason) :
    ((start c journal).run events).1.Unmoved event ∧
      ∀ ticket answer, event = .lookupDone ticket answer →
        ((start c journal).run events).1.lookups.live = some ticket →
          ∀ later answer', ((start c journal).run (events ++ event :: later)).1.step
              (.lookupDone ticket answer') =
            (((start c journal).run (events ++ event :: later)).1,
              .ignored .staleCompletion) := by
  refine ⟨unmoved_of_ignored h, ?_⟩
  rintro ticket answer rfl hlive later answer'
  have hcompleted := mem_completed_chronicle c journal events later answer hlive
  exact step_of_receive?_eq_none
    (receive?_lookupDone_eq_none.mpr (live_ne_of_completed hd journal hcompleted))

def searchDefinition : ChartDef where
  initial := "search"
  states :=
    [(StateDef.atomic "search").invoking (fun _ => "ada")
      |>.on .lookupDone [{ target := "found", guard := some .answerFound }]
      |>.on .recognised [{ target := "found", guard := some (.heard "stop") }],
      StateDef.atomic "found"]

theorem ignored_run_search :
    searchDefinition.build = .ok searchDefinition.chart ∧
      (start searchDefinition.chart (.withCapacity 4)).lookups.live = some ⟨⟨1⟩, 1⟩ ∧
      ((start searchDefinition.chart (.withCapacity 4)).step (.lookupDone ⟨⟨1⟩, 1⟩ .blank)).2 =
        .ignored .noMatch ∧
      ((start searchDefinition.chart (.withCapacity 4)).step
        (.lookupDone ⟨⟨1⟩, 1⟩ .blank)).1.lookups.live = none ∧
      (((start searchDefinition.chart (.withCapacity 4)).run [.lookupDone ⟨⟨1⟩, 1⟩ .blank]).1.step
        (.lookupDone ⟨⟨1⟩, 1⟩ { abstract := "Countess" })).2 = .ignored .staleCompletion ∧
      Context.WrittenDown { utterance := "go on" }
        (start searchDefinition.chart (.withCapacity 4)).context
        ((start searchDefinition.chart (.withCapacity 4)).step
          (.recognised { utterance := "go on" })).1.context := by
  have hbuild := ChartDef.build_eq_ok (d := searchDefinition) rfl
  have hlive : (start searchDefinition.chart (.withCapacity 4)).lookups.live =
      some ⟨⟨1⟩, 1⟩ := by decide
  have hblank : ((start searchDefinition.chart (.withCapacity 4)).step
      (.lookupDone ⟨⟨1⟩, 1⟩ .blank)).2 = .ignored .noMatch := by decide
  have hturn : ((start searchDefinition.chart (.withCapacity 4)).step
      (.recognised { utterance := "go on" })).2 = .ignored .noMatch := by decide +kernel
  obtain ⟨hunmoved, hspent⟩ := ignored_run hbuild (.withCapacity 4) [] hblank
  refine ⟨hbuild, hlive, hblank, hunmoved.live_eq_none _ _ rfl hlive, ?_, ?_⟩
  · exact congrArg Prod.snd (hspent _ _ rfl hlive [] { abstract := "Countess" })
  · exact (ignored_run hbuild (.withCapacity 4) [] hturn).1.writtenDown _ rfl

end Engine

end Dialogue
