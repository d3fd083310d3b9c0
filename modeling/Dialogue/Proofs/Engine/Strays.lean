import Dialogue.Proofs.Engine.Configuration
/-!
# Stray completions

Completions of lookups that are not awaited, whether late, repeated or made up, may come between
the events of a dialogue at any time.  Each of them is turned away, and the dialogue goes on as if
it had not come.
-/

namespace Dialogue

inductive Arrival where
  | own (event : Event)
  | stray (ticket : Ticket) (answer : Answer)

namespace Arrival

def event : Arrival → Event
  | own event => event
  | stray ticket answer => .lookupDone ticket answer

def own? : Arrival → Option Event
  | own event => some event
  | stray _ _ => none

/-- The results of the events of a dialogue's own, with those of the completions that are turned
away in between. -/
def weave : List Arrival → List StepResult → List StepResult
  | stray _ _ :: arrivals, results => .ignored .staleCompletion :: weave arrivals results
  | own _ :: arrivals, result :: results => result :: weave arrivals results
  | _, _ => []

end Arrival

namespace Engine

def Unawaited (e : Engine) (arrivals : List Arrival) : Prop :=
  ∀ i ticket answer, arrivals[i]? = some (.stray ticket answer) →
    (e.run ((arrivals.take i).map Arrival.event)).1.lookups.live ≠ some ticket

theorem Unawaited.tail {e : Engine} {arrival : Arrival} {arrivals : List Arrival}
    (h : e.Unawaited (arrival :: arrivals)) : (e.step arrival.event).1.Unawaited arrivals :=
  fun i => h (i + 1)

theorem Unawaited.step_stray {e : Engine} {ticket : Ticket} {answer : Answer}
    {arrivals : List Arrival} (h : e.Unawaited (.stray ticket answer :: arrivals)) :
    e.step (.lookupDone ticket answer) = (e, .ignored .staleCompletion) :=
  step_of_receive?_eq_none (receive?_lookupDone_eq_none.mpr (h 0 ticket answer rfl))

/-- Completions that are not awaited when they arrive are stale, and all other events lead to the
same results and the same engine as without them. -/
theorem run_map_event_eq_weave {e : Engine} {arrivals : List Arrival} (h : e.Unawaited arrivals) :
    e.run (arrivals.map Arrival.event) =
      ((e.run (arrivals.filterMap Arrival.own?)).1,
        Arrival.weave arrivals (e.run (arrivals.filterMap Arrival.own?)).2) := by
  induction arrivals generalizing e with
  | nil => rfl
  | cons arrival arrivals ih =>
    have htail := ih h.tail
    cases arrival with
    | own event =>
      simp only [List.map_cons, run, Arrival.event] at htail ⊢
      rw [htail]
      rfl
    | stray ticket answer =>
      simp only [List.map_cons, run, Arrival.event, h.step_stray] at htail ⊢
      rw [htail]
      rfl

def formArrivals : List Arrival :=
  [.stray ⟨⟨5⟩, 1⟩ .blank, .own .click, .own .endSpeech, .own .timeout, .stray ⟨⟨5⟩, 1⟩ .blank,
    .own .endSpeech, .own (.lookupDone ⟨⟨5⟩, 3⟩ .blank), .stray ⟨⟨5⟩, 3⟩ .blank]

theorem run_map_event_form :
    (start formDefinition.chart (.withCapacity 4)).Unawaited formArrivals ∧
      (start formDefinition.chart (.withCapacity 4)).run (formArrivals.map Arrival.event) =
        (((start formDefinition.chart (.withCapacity 4)).run
            (formArrivals.filterMap Arrival.own?)).1,
          Arrival.weave formArrivals ((start formDefinition.chart (.withCapacity 4)).run
            (formArrivals.filterMap Arrival.own?)).2) := by
  have hunawaited : (start formDefinition.chart (.withCapacity 4)).Unawaited formArrivals := by
    intro i ticket answer hi
    rcases i with _ | _ | _ | _ | _ | _ | _ | _ | i <;> cases hi <;> decide
  exact ⟨hunawaited, run_map_event_eq_weave hunawaited⟩

end Engine

end Dialogue
