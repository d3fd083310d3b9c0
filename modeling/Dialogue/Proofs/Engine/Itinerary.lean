import Dialogue.Proofs.Engine.Delivery
import Dialogue.Proofs.Journal.Retention
/-!
# Itineraries

Each transition moves a dialogue from one leaf to another, and what is ignored moves it nowhere.
The journal of an engine is written once for each move, so it shows the end of the way, from leaf to
leaf and up to the present one, as far back as it has room for.
-/

namespace Dialogue

/-! ## Ways -/

/-- Moves that lead from one state to another: each begins where the one before it has ended. -/
def Journal.Leads : String → List Move → String → Prop
  | start, [], stop => start = stop
  | start, move :: moves, stop => move.source = start ∧ Leads move.target moves stop

namespace Journal.Leads

variable {start stop : String} {moves : List Move}

theorem append {mid : String} {moves' : List Move} (h : Leads start moves mid)
    (h' : Leads mid moves' stop) : Leads start (moves ++ moves') stop := by
  induction moves generalizing start with
  | nil => exact h ▸ h'
  | cons move moves ih => exact ⟨h.1, ih h.2⟩

theorem drop (h : Leads start moves stop) (n : Nat) :
    ∃ start', Leads start' (moves.drop n) stop := by
  induction n generalizing start moves with
  | zero => exact ⟨start, h⟩
  | succ n ih =>
    cases moves with
    | nil => exact ⟨start, h⟩
    | cons move moves => exact ih h.2

theorem isChain (h : Leads start moves stop) :
    moves.IsChain fun before after => after.source = before.target := by
  induction moves generalizing start with
  | nil => exact .nil
  | cons move moves ih =>
    cases moves with
    | nil => exact .singleton move
    | cons next moves => exact .cons_cons h.2.1 (ih h.2)

theorem target_eq (h : Leads start moves stop) {move : Move} (hlast : moves.getLast? = some move) :
    move.target = stop := by
  induction moves generalizing start with
  | nil => cases hlast
  | cons first moves ih =>
    cases moves with
    | nil =>
      obtain rfl := Option.some.inj hlast
      exact h.2
    | cons next moves => exact ih h.2 hlast

theorem path_drop (h : Leads start moves stop) {n : Nat} (hn : n < moves.length) :
    Journal.path (moves.drop n) = (start :: moves.map Move.target).drop n := by
  induction n generalizing start moves with
  | zero =>
    cases moves with
    | nil => exact absurd hn (Nat.lt_irrefl 0)
    | cons move moves => exact congrArg (· :: _) h.1
  | succ n ih =>
    cases moves with
    | nil => exact absurd hn (Nat.not_lt_zero _)
    | cons move moves => exact ih h.2 (Nat.lt_of_succ_lt_succ hn)

end Journal.Leads

def StepResult.ends? : StepResult → Option (String × String)
  | transitioned source target _ _ => some (source, target)
  | ignored _ => none

namespace Engine

def move? (e : Engine) (event : Event) : Option Move :=
  if (e.step event).2.isTransitioned then
    some
      { source := e.leafPath
        target := (e.step event).1.leafPath
        event := event.kind
        attempt := (e.step event).1.context.retryCount.getD 0 }
  else none

def moves (e : Engine) : List Event → List Move
  | [] => []
  | event :: events => (e.move? event).toList ++ (e.step event).1.moves events

def visited (e : Engine) : List Event → List String
  | [] => []
  | event :: events =>
    (if (e.step event).2.isTransitioned then [(e.step event).1.leafPath] else [])
      ++ (e.step event).1.visited events

/-! ## Steps -/

theorem journal_take (event : Event) (source target : StateId) (e : Engine) :
    (e.take event source target).journal = e.journal := by
  rw [take_eq, journal_enterAll, exitBelow]
  split
  · simp only [foldl_leave]
  · rfl

theorem journal_fire (event : Event) (source : StateId) (t : Transition) (e : Engine) :
    (e.fire event source t).1.journal = e.journal.record
      { source := e.leafPath
        target := (e.fire event source t).1.leafPath
        event := event.kind
        attempt := (e.fire event source t).1.context.retryCount.getD 0 } := by
  simp only [fire, log, journal_take, journal_perform]
  generalize (e.perform (some event) t.actions).take event source t.target = after
  rfl

theorem result_fire (event : Event) (source : StateId) (t : Transition) (e : Engine) :
    ∃ configuration directives, (e.fire event source t).2 =
      .transitioned e.leafPath (e.fire event source t).1.leafPath configuration directives := by
  simp only [fire]
  generalize ((e.perform (some event) t.actions).take event source t.target).log e.leafPath
    event.kind = after
  exact ⟨after.configuration, after.pending, rfl⟩

/-- The journal is written just for the move that is made, and the result tells its ends.  What is
ignored moves nowhere. -/
theorem move?_spec (e : Engine) (event : Event) :
    (e.step event).1.journal = e.journal.recordAll (e.move? event).toList ∧
      (e.step event).2.ends? = (e.move? event).map (fun move => (move.source, move.target)) ∧
      Journal.Leads e.leafPath (e.move? event).toList (e.step event).1.leafPath := by
  rcases step_cases e event with
    ⟨-, -, hstep⟩ | ⟨e', hreceive, ⟨-, _, -, hstep⟩ | ⟨source, t, -, hstep⟩⟩
  · rw [move?, hstep]
    exact ⟨rfl, rfl, rfl⟩
  · obtain ⟨_, _, rfl, -⟩ := receive?_eq_some hreceive
    rw [move?, hstep]
    exact ⟨rfl, rfl, rfl⟩
  · obtain ⟨configuration, directives, hresult⟩ := result_fire event source t e'
    have hreceived : e'.journal = e.journal ∧ e'.leafPath = e.leafPath := by
      obtain ⟨_, _, rfl, -⟩ := receive?_eq_some hreceive
      exact ⟨rfl, rfl⟩
    have hmove : e.move? event = some
        { source := e.leafPath
          target := (e'.fire event source t).1.leafPath
          event := event.kind
          attempt := (e'.fire event source t).1.context.retryCount.getD 0 } := by
      rw [move?, hstep, hresult, StepResult.isTransitioned, if_pos rfl]
    rw [hmove, hstep, journal_fire, hresult, hreceived.1, hreceived.2]
    -- what the transition has led to does not matter from here on
    generalize (e'.fire event source t).1 = after
    exact ⟨rfl, rfl, rfl, rfl⟩

/-! ## Runs -/

section Runs

variable (e : Engine) (events : List Event)

theorem journal_run : (e.run events).1.journal = e.journal.recordAll (e.moves events) := by
  induction events generalizing e with
  | nil => rfl
  | cons event events ih =>
    rw [run_cons, ih, (e.move?_spec event).1, moves, Journal.recordAll_append]

theorem ends?_run :
    (e.run events).2.filterMap StepResult.ends? =
      (e.moves events).map fun move => (move.source, move.target) := by
  induction events generalizing e with
  | nil => rfl
  | cons event events ih =>
    rw [run_cons, List.filterMap_cons, ih, moves, List.map_append, (e.move?_spec event).2.1]
    cases e.move? event <;> rfl

theorem leads_moves :
    Journal.Leads e.leafPath (e.moves events) (e.run events).1.leafPath := by
  induction events generalizing e with
  | nil => rfl
  | cons event events ih => exact (e.move?_spec event).2.2.append (ih (e.step event).1)

theorem length_moves :
    (e.moves events).length = (e.run events).2.countP StepResult.isTransitioned := by
  induction events generalizing e with
  | nil => rfl
  | cons event events ih =>
    rw [moves, List.length_append, ih, run_cons, List.countP_cons, move?]
    cases (e.step event).2.isTransitioned <;> simp [Nat.add_comm]

theorem map_target_moves : (e.moves events).map Move.target = e.visited events := by
  induction events generalizing e with
  | nil => rfl
  | cons event events ih =>
    rw [moves, List.map_append, ih, visited, move?]
    cases (e.step event).2.isTransitioned <;> rfl

end Runs

/-- The journal holds the last `max capacity 1` moves, one for each transition that was taken.  Each
begins where the one before has ended, and the last ends at the present leaf. -/
theorem itinerary_run (c : Chart) (capacity : Nat) (events : List Event) :
    let e := start c (.withCapacity capacity)
    let s := e.run events
    let taken := s.2.countP StepResult.isTransitioned
    let records := s.1.journal.records
    (e.moves events).length = taken ∧
      s.2.filterMap StepResult.ends? =
        (e.moves events).map (fun move => (move.source, move.target)) ∧
      records = (e.moves events).rtake (max capacity 1) ∧
      records.length = min taken (max capacity 1) ∧
      (∀ event, (s.1.step event).1.journal = s.1.journal.recordAll (s.1.move? event).toList) ∧
      records.IsChain (fun before after => after.source = before.target) ∧
      (∀ move, s.1.journal.last? = some move → move.target = s.1.leafPath) ∧
      Journal.path records =
        if taken = 0 then [] else (e.leafPath :: e.visited events).rtake (records.length + 1) := by
  intro e s taken records
  have hlength : (e.moves events).length = taken := length_moves e events
  have hleads : Journal.Leads e.leafPath (e.moves events) s.1.leafPath := leads_moves e events
  have hrecords : records = (e.moves events).rtake (max capacity 1) := by
    have hbounded := Journal.bounded_withCapacity (α := Move) capacity
    have hjournal : e.journal = .withCapacity capacity := journal_enterAll none _ _
    have hrun : s.1.journal = e.journal.recordAll (e.moves events) := journal_run e events
    calc records
        = ((Journal.withCapacity capacity).recordAll (e.moves events)).records := by
          rw [← hjournal, ← hrun]
      _ = (e.moves events).rtake (max capacity 1) := hbounded.records_recordAll (e.moves events)
  have hkept : records.length = min taken (max capacity 1) := by
    rw [hrecords, length_rtake, hlength]
  obtain ⟨before, hway⟩ := hleads.drop ((e.moves events).length - max capacity 1)
  rw [← List.rtake, ← hrecords] at hway
  refine ⟨hlength, ends?_run e events, hrecords, hkept, fun event => (s.1.move?_spec event).1,
    hway.isChain, fun move hlast => hway.target_eq hlast, ?_⟩
  split
  · next hnone =>
    have hnil : records = [] := List.eq_nil_of_length_eq_zero (by omega)
    rw [hnil]
    rfl
  · next hsome =>
    have hdrop : (e.moves events).length - max capacity 1 < (e.moves events).length := by omega
    rw [hkept, List.rtake, ← map_target_moves, List.length_cons, List.length_map, hlength,
      hrecords, List.rtake, hleads.path_drop hdrop, hlength]
    congr 1
    omega

example : Journal.path ((start formDefinition.chart (.withCapacity 2)).run
    [.timeout, .click, .endSpeech, .timeout]).1.journal.records =
      ["form.ask", "form.search.pending", "detour"] := by
  decide

end Engine

end Dialogue
