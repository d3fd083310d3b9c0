import Dialogue.Proofs.Engine.Delivery
import Dialogue.Proofs.Session.Drain
/-!
# Answers

A session runs the lookups that steps return, so each lookup that is live is owed something: its
completion stands in the queue, or the directive that asks for it is still pending.  When the queue
is empty, only the second is left.  Nothing is pending after a transition, so what can be live
between dispatches is a lookup of the initial states, and that only until an event is accepted.
-/

namespace Dialogue

/-! ## Lookups that are live -/

namespace Engine

theorem live_receive? {e e' : Engine} {event : Event} {ticket : Ticket}
    (h : e.receive? event = some e') (hlive : e'.lookups.live = some ticket) :
    e.lookups.live = some ticket ∧ ∀ answer, event ≠ .lookupDone ticket answer := by
  cases event with
  | lookupDone ticket' answer =>
    obtain ⟨lookups, hlookups, rfl⟩ := Option.map_eq_some_iff.mp h
    obtain ⟨-, rfl⟩ := Lookups.complete?_eq_some.mp hlookups
    cases hlive
  | click | ttsReady | recognised | endSpeech | timeout =>
    obtain rfl := Option.some.inj h
    exact ⟨hlive, fun _ => Event.noConfusion⟩

theorem tracks_live (before : Ticket → Prop) : Tracks fun e past =>
    ∀ ticket, e.lookups.live = some ticket → before ticket ∨ ticket ∈ Mark.tickets past where
  frame h _ _ _ hlookups := hlookups ▸ h
  accept hcomplete _ ticket hlive := by
    obtain ⟨-, rfl⟩ := Lookups.complete?_eq_some.mp hcomplete
    cases hlive
  leave {e past domain} _ hdomain h ticket hlive := by
    rw [exitBelow_eq hdomain] at hlive
    rw [leaveMarks, Mark.tickets_append, Mark.tickets_map_left, List.append_nil]
    exact h ticket (Lookups.live_cancelAll_eq_some.mp hlive).1
  enter {e past id} event _ h ticket hlive := by
    rw [lookups_enter] at hlive
    rw [enterMarks, Mark.tickets_append]
    split at hlive
    · next hinvokes =>
      obtain rfl := Option.some.inj hlive
      simp [Mark.tickets, hinvokes]
    · exact (h ticket hlive).imp_right (List.mem_append_left _)

theorem Sound.live_step {e : Engine} (h : e.Sound) {event : Event} {ticket : Ticket}
    (hlive : (e.step event).1.lookups.live = some ticket) :
    (e.lookups.live = some ticket ∧ ∀ answer, event ≠ .lookupDone ticket answer) ∨
      ticket ∈ asked ((e.step event).2.directives ++ (e.step event).1.pending) := by
  rcases step_cases e event with
    ⟨hstale, -, hstep⟩ | ⟨e', hreceive, ⟨-, _, -, hstep⟩ | ⟨source, t, ht, hstep⟩⟩
  · rw [hstep] at hlive
    refine Or.inl ⟨hlive, ?_⟩
    rintro answer rfl
    exact receive?_lookupDone_eq_none.mp hstale hlive
  · rw [hstep] at hlive
    exact Or.inl (live_receive? hreceive hlive)
  · obtain ⟨hsource, htarget⟩ := h.target_mem ht
    have hsound := h.of_receive? hreceive
    have hasked := asked_fire event source t e'
    rw [hstep] at hlive ⊢
    have hactive : source ∈ e'.active ∧ t.target ∈ e'.chart := by
      obtain ⟨_, _, rfl, -⟩ := receive?_eq_some hreceive
      exact ⟨hsource, htarget⟩
    have hbegin : ∀ ticket, e'.lookups.live = some ticket →
        e'.lookups.live = some ticket ∨ ticket ∈ Mark.tickets [] := fun _ => Or.inl
    have htracks := (tracks_live fun ticket => e'.lookups.live = some ticket).fire hsound hbegin
      event hactive.1 hactive.2
    rcases htracks ticket hlive with hbefore | hissued
    · exact Or.inl (live_receive? hreceive hbefore)
    · refine Or.inr ?_
      rw [asked_append, hasked]
      exact List.mem_append_left _ (List.mem_append_right _ hissued)

end Engine

namespace Session

open Engine (asked)

/-! ## Lookups that are owed -/

/-- The directive of each live lookup is still pending, or its completion stands in the queue. -/
def Owed (e : Engine) (queue : List Event) : Prop :=
  ∀ ticket, e.lookups.live = some ticket →
    ticket ∈ asked e.pending ∨ ∃ answer, .lookupDone ticket answer ∈ queue

theorem lookupDone_mem_completions {k : KnowledgeBase} {directives : List Directive}
    {ticket : Ticket} (h : ticket ∈ asked directives) :
    ∃ answer, .lookupDone ticket answer ∈ completions k directives := by
  obtain ⟨directive, hmem, hticket⟩ := List.mem_filterMap.mp h
  obtain ⟨⟨ticket', subject⟩, hlookup, hticket⟩ := Option.map_eq_some_iff.mp hticket
  obtain rfl : ticket' = ticket := hticket
  have hasked := List.mem_filterMap.mpr ⟨directive, hmem, hlookup⟩
  rw [completions_eq_map]
  exact ⟨_, List.mem_map_of_mem hasked⟩

theorem completions_append (k : KnowledgeBase) (directives directives' : List Directive) :
    completions k (directives ++ directives') =
      completions k directives ++ completions k directives' :=
  List.filterMap_append

/-- Pending directives are returned or stay, so no debt is lost when an event is answered. -/
theorem Owed.step {e : Engine} {event : Event} {queue : List Event}
    (h : Owed e (event :: queue)) (hsound : e.Sound) (k : KnowledgeBase) :
    Owed (e.step event).1 (queue ++ completions k (e.step event).2.directives) := by
  intro ticket hlive
  have hreturned : ticket ∈ asked ((e.step event).2.directives ++ (e.step event).1.pending) →
      ticket ∈ asked (e.step event).1.pending ∨
        ∃ answer, .lookupDone ticket answer ∈
          queue ++ completions k (e.step event).2.directives := by
    intro hasked
    rw [Engine.asked_append, List.mem_append] at hasked
    rcases hasked with hreturned | hpending
    · obtain ⟨answer, hanswer⟩ := lookupDone_mem_completions (k := k) hreturned
      exact Or.inr ⟨answer, List.mem_append_right _ hanswer⟩
    · exact Or.inl hpending
  rcases hsound.live_step hlive with ⟨hbefore, hother⟩ | hasked
  · rcases h ticket hbefore with hpending | ⟨answer, hanswer⟩
    · apply hreturned
      rw [Engine.asked_append, Engine.asked_step]
      exact List.mem_append_left _ hpending
    · rcases List.mem_cons.mp hanswer with heq | hanswer
      · exact absurd heq.symm (hother answer)
      · exact Or.inr ⟨answer, List.mem_append_left _ hanswer⟩
  · exact hreturned hasked

theorem Drains.owed {k : KnowledgeBase} {e last : Engine} {queue : List Event}
    {results : List StepResult} (hdrains : Drains k e queue results last) (hsound : e.Sound)
    (h : Owed e queue) : last.Sound ∧ Owed last [] := by
  induction hdrains with
  | done e => exact ⟨hsound, h⟩
  | @next e last event queue results rest ih => exact ih (hsound.step event) (h.step hsound k)

/-! ## The events of a session -/

theorem Drains.run_eq {k : KnowledgeBase} {e last : Engine} {queue : List Event}
    {results : List StepResult} (h : Drains k e queue results last) :
    e.run (queue ++ completions k (results.flatMap StepResult.directives)) = (last, results) := by
  induction h with
  | done e => rfl
  | @next e last event queue results rest ih =>
    rw [List.flatMap_cons, completions_append, List.cons_append, ← List.append_assoc,
      Engine.run_cons, ih]

structure Dispatched where
  knowledge : KnowledgeBase
  event : Event
  results : List StepResult

namespace Dispatched

def events (d : Dispatched) : List Event :=
  d.event :: completions d.knowledge (d.results.flatMap StepResult.directives)

def turn (d : Dispatched) : KnowledgeBase × Event :=
  (d.knowledge, d.event)

end Dispatched

theorem drains_of_dispatchWithin {bound : Nat} {s s' : Session} {event : Event}
    {said : List Directive} (h : dispatchWithin bound s event = some (s', said)) :
    ∃ results, Drains s.knowledge s.engine [event] results s'.engine := by
  obtain ⟨⟨last, said⟩, hdrain, heq⟩ := Option.map_eq_some_iff.mp h
  obtain ⟨rfl, rfl⟩ := Prod.mk.inj heq
  obtain ⟨results, hdrains, -, -⟩ := drain_eq_some_iff.mp hdrain
  exact ⟨results, hdrains⟩

theorem dispatchAll_eq_some {bound : Nat} {s s' : Session} {turns : List (KnowledgeBase × Event)}
    (h : dispatchAll bound s turns = some s') (hsound : s.engine.Sound)
    (howed : Owed s.engine []) :
    Owed s'.engine [] ∧ ∃ log : List Dispatched, log.map Dispatched.turn = turns ∧
      (∀ d ∈ log, d.results.length = d.events.length) ∧
      s.engine.run (log.flatMap Dispatched.events) =
        (s'.engine, log.flatMap Dispatched.results) := by
  induction turns generalizing s with
  | nil =>
    obtain rfl := Option.some.inj h
    exact ⟨howed, [], rfl, nofun, rfl⟩
  | cons turn turns ih =>
    obtain ⟨k, event⟩ := turn
    obtain ⟨⟨s₁, said⟩, hdispatch, hrest⟩ := Option.bind_eq_some_iff.mp h
    obtain ⟨results, hdrains⟩ := drains_of_dispatchWithin hdispatch
    have howed' : Owed s.engine [event] := fun ticket hlive =>
      (howed ticket hlive).imp_right fun ⟨_, hmem⟩ => absurd hmem List.not_mem_nil
    obtain ⟨hsound₁, howed₁⟩ := hdrains.owed hsound howed'
    obtain ⟨hlast, log, hturns, hanswered, hrun⟩ := ih hrest hsound₁ howed₁
    have hlength := Engine.length_run s.engine
      ([event] ++ completions k (results.flatMap StepResult.directives))
    rw [hdrains.run_eq] at hlength
    refine ⟨hlast, ⟨k, event, results⟩ :: log, by rw [List.map_cons, hturns]; rfl,
      List.forall_mem_cons.mpr ⟨hlength, hanswered⟩, ?_⟩
    rw [List.flatMap_cons, List.flatMap_cons, Dispatched.events, List.cons_append,
      ← List.singleton_append, ← List.append_assoc, Engine.run_append_eq, hdrains.run_eq, hrun]

/-! ## Whole sessions -/

theorem owed_start {c : Chart} (hc : c.WellFormed) (journal : Journal Move) :
    Owed (.start c journal) [] := by
  intro ticket hlive
  have hunborn : ∀ ticket, (Engine.unborn c journal).lookups.live = some ticket →
      False ∨ ticket ∈ Mark.tickets [] := fun _ => nofun
  have hissued := (Engine.tracks_live fun _ => False).chronicle hc hunborn [] ticket hlive
  have hasked := Engine.asked_chronicle c journal []
  exact Or.inl (hasked ▸ hissued.resolve_left id)

/-- The engine has answered each event dispatched, followed by one completion for each lookup that
was returned.  Every ticket that was issued was returned or is pending.  Nothing is pending or live
once an event was accepted; until then `pending` is `opening c`, and only its lookups can be live.
-/
theorem answered_run {d : ChartDef} {c : Chart} (hd : d.build = .ok c) (journal : Journal Move)
    {k₀ : KnowledgeBase} {bound : Nat} {turns : List (KnowledgeBase × Event)} {s : Session}
    (hs : dispatchAll bound ⟨.start c journal, k₀⟩ turns = some s) :
    ∃ log : List Dispatched, log.map Dispatched.turn = turns ∧
      (∀ d ∈ log, d.results.length = d.events.length) ∧
      let events := log.flatMap Dispatched.events
      let results := log.flatMap Dispatched.results
      (Engine.start c journal).run events = (s.engine, results) ∧
        Mark.tickets (Engine.chronicle c journal events) =
          asked (results.flatMap StepResult.directives) ++ asked s.engine.pending ∧
        (results.any StepResult.isTransitioned →
          s.engine.pending = [] ∧ s.engine.lookups.live = none) ∧
        (¬ results.any StepResult.isTransitioned →
          s.engine.pending = Engine.opening c ∧
            ∀ ticket, s.engine.lookups.live = some ticket → ticket ∈ asked (Engine.opening c)) := by
  have hsound := Engine.sound_start (ChartDef.wellFormed_of_build hd) journal
  have hroot : ¬ (Engine.start c journal).chart.isHistory Chart.root := by
    rw [Engine.start_eq, Engine.chart_enterAll]
    exact ChartDef.not_isHistory_root_of_build hd
  obtain ⟨howed, log, hturns, hanswered, hrun⟩ := dispatchAll_eq_some hs hsound
    (owed_start (ChartDef.wellFormed_of_build hd) journal)
  have hasked := Engine.asked_chronicle c journal (log.flatMap Dispatched.events)
  have hpending := (hsound.delivered_run hroot (log.flatMap Dispatched.events)).2
  rw [hrun] at hasked hpending
  rw [Engine.pending_start] at hpending
  have hlive : ∀ ticket, s.engine.lookups.live = some ticket → ticket ∈ asked s.engine.pending :=
    fun ticket hlive => (howed ticket hlive).resolve_right (by simp)
  refine ⟨log, hturns, hanswered, hrun, ?_, fun hany => ?_, fun hnone => ?_⟩
  · rw [← hasked, Engine.asked_append]
  · rw [if_pos hany] at hpending
    refine ⟨hpending, Option.eq_none_iff_forall_ne_some.mpr fun ticket hticket => ?_⟩
    have hmem := hlive ticket hticket
    rw [hpending] at hmem
    cases hmem
  · rw [if_neg hnone] at hpending
    exact ⟨hpending, hpending ▸ hlive⟩

def deskDefinition : ChartDef where
  initial := "desk"
  states :=
    [((StateDef.compound "desk" "ada").invoking fun _ => "hours").containing
      [((StateDef.atomic "ada").invoking fun _ => "ada").on .click [{ target := "bob" }],
        ((StateDef.atomic "bob").invoking fun _ => "bob").on .lookupDone [{ target := "told" }],
        .atomic "told"]]

theorem answered_run_desk :
    deskDefinition.build = .ok deskDefinition.chart ∧
      ∃ s, dispatchAll 4 ⟨.start deskDefinition.chart (.withCapacity 64), .unavailable "shut"⟩
          [(.unavailable "shut", .timeout), (.unavailable "shut", .click)] = some s ∧
        s.engine.leafPath = "desk.told" ∧ s.engine.pending ≠ Engine.opening deskDefinition.chart ∧
        s.engine.lookups.live = none := by
  have hbuild := ChartDef.build_eq_ok (d := deskDefinition) rfl
  have hs : ∃ s, dispatchAll 4 ⟨.start deskDefinition.chart (.withCapacity 64), .unavailable "shut"⟩
      [(.unavailable "shut", .timeout), (.unavailable "shut", .click)] = some s ∧
        s.engine.leafPath = "desk.told" ∧ s.engine.pending ≠ Engine.opening deskDefinition.chart :=
    ⟨_, rfl, by decide, by decide⟩
  obtain ⟨s, hs, hleaf, hpending⟩ := hs
  obtain ⟨log, -, -, -, -, haccepted, hignored⟩ := answered_run hbuild _ hs
  by_cases hany : (log.flatMap Dispatched.results).any StepResult.isTransitioned
  · exact ⟨hbuild, s, hs, hleaf, hpending, (haccepted hany).2⟩
  · exact absurd (hignored hany).1 hpending

/-- The initial state of the desk begins a lookup, which stays live while events are ignored. -/
theorem live_of_desk_idle :
    deskDefinition.build = .ok deskDefinition.chart ∧
      ∃ s, dispatchAll 4 ⟨.start deskDefinition.chart (.withCapacity 64), .unavailable "shut"⟩
          [(.unavailable "shut", .timeout)] = some s ∧
        s.engine.lookups.live = some ⟨⟨2⟩, 2⟩ :=
  ⟨ChartDef.build_eq_ok rfl, _, rfl, by decide⟩

end Session

end Dialogue
