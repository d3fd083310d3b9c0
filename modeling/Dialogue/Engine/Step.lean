import Dialogue.Engine.Basic
/-!
# Steps

What an engine does with an event.  The innermost active state that reacts to events of its kind
decides alone: its first enabled transition is taken, or the event is ignored.
-/

namespace Dialogue.Engine

/-- Writes down what an event says by itself: a turn that was heard, or the completion of the lookup
awaited.  There is nothing left of a completion that is not awaited. -/
def receive? (e : Engine) : Event → Option Engine
  | .recognised turn => some { e with context := e.context.observe turn }
  | .lookupDone ticket _ => (e.lookups.complete? ticket).map fun lookups => { e with lookups }
  | _ => some e

def transitionsOf? (c : Chart) (kind : EventKind) (id : StateId) :
    Option (StateId × List Transition) :=
  match ((c.node? id).map fun n => n.transitionsOn kind).getD [] with
  | [] => none
  | transitions => some (id, transitions)

def handler? (e : Engine) (kind : EventKind) : Option (StateId × List Transition) :=
  e.active.findSome? (transitionsOf? e.chart kind)

/-- The state that a target stands for: a history state stands for its parent. -/
def effectiveTarget (c : Chart) (target : StateId) : StateId :=
  if c.isHistory target then (c.parent? target).getD target else target

/-- The states below the effective target that are entered: those down to the leaf that history
remembers, or the initial ones. -/
def resumed (e : Engine) (target : StateId) : List StateId :=
  let effective := effectiveTarget e.chart target
  match if e.chart.isHistory target then e.history.resume? effective else none with
  | some leaf => e.chart.pathBetween effective leaf
  | none => e.chart.initialDescent effective

def take (event : Event) (source target : StateId) (e : Engine) : Engine :=
  let effective := effectiveTarget e.chart target
  let domain := e.chart.transitionDomain source effective
  let e := e.exitBelow domain
  e.enterAll (some event) (e.chart.pathBetween domain effective ++ e.resumed target)

def log (source : String) (kind : EventKind) (e : Engine) : Engine :=
  let move : Move :=
    { source, target := e.leafPath, event := kind, attempt := e.context.retryCount.getD 0 }
  { e with journal := e.journal.record move }

def fire (event : Event) (source : StateId) (t : Transition) (e : Engine) : Engine × StepResult :=
  let before := e.leafPath
  let e := ((e.perform (some event) t.actions).take event source t.target).log before event.kind
  ({ e with pending := [] }, .transitioned before e.leafPath e.configuration e.pending)

def step (e : Engine) (event : Event) : Engine × StepResult :=
  match e.receive? event with
  | none => (e, .ignored .staleCompletion)
  | some e =>
    match e.handler? event.kind with
    | none => (e, .ignored .noHandler)
    | some (source, transitions) =>
      match Transition.choose? transitions e.context event with
      | none => (e, .ignored .noMatch)
      | some t => e.fire event source t

def run (e : Engine) : List Event → Engine × List StepResult
  | [] => (e, [])
  | event :: events =>
    let (e, result) := e.step event
    let (e, results) := e.run events
    (e, result :: results)

end Dialogue.Engine
