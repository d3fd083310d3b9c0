import Dialogue.Chart.Basic
import Dialogue.History
import Dialogue.Journal
import Dialogue.Lookup
/-!
# Engines

An engine runs one dialogue over a chart.  It takes one event at a time and answers it completely:
it leaves states, runs actions, enters states and gives directives.
-/

namespace Dialogue

inductive IgnoreReason where
  | noHandler
  | noMatch
  | staleCompletion
  deriving DecidableEq, Repr

/-- What an event led to.  Paths of active states stand outermost first, without the root. -/
inductive StepResult where
  | transitioned (source target : String) (configuration : List String)
      (directives : List Directive)
  | ignored (reason : IgnoreReason)
  deriving DecidableEq, Repr

def StepResult.directives : StepResult → List Directive
  | transitioned _ _ _ directives => directives
  | ignored _ => []

/-- A dialogue under way.  Active states stand innermost first and the root last; `pending` holds
the directives that no step has returned yet. -/
structure Engine where
  chart : Chart
  context : Context := {}
  active : List StateId
  history : History := .empty
  lookups : Lookups := {}
  journal : Journal Move
  pending : List Directive := []

namespace Engine

def leaf (e : Engine) : StateId :=
  e.active.head?.getD Chart.root

def leafPath (e : Engine) : String :=
  e.chart.path e.leaf

def configuration (e : Engine) : List String :=
  e.active.reverse.tail.map e.chart.path

def isIn (e : Engine) (raw : String) : Bool :=
  (e.chart.lookup? raw).any e.active.contains

/-! ## Entering and leaving states -/

def perform (event : Option Event) (actions : List Action) (e : Engine) : Engine :=
  let (context, directives) := Action.runAll event e.context actions
  { e with context, pending := e.pending ++ directives }

def invoke (id : StateId) (subject : Context → String) (e : Engine) : Engine :=
  { e with
    lookups := e.lookups.start id
    pending := e.pending ++ [.lookup (e.lookups.nextTicket id) (subject e.context)] }

/-- Enters one state: its actions run first, then its lookup begins. -/
def enter (event : Option Event) (e : Engine) (id : StateId) : Engine :=
  let e := { e with active := id :: e.active }
  match e.chart.node? id with
  | none => e
  | some node =>
    let e := e.perform event node.entry
    match node.invoke with
    | none => e
    | some subject => e.invoke id subject

def enterAll (event : Option Event) (e : Engine) (ids : List StateId) : Engine :=
  ids.foldl (enter event) e

/-- Gives up the lookup of a state that is left at `leaf`, and writes the leaf down if the state is
compound. -/
def leave (leaf : StateId) (e : Engine) (id : StateId) : Engine :=
  { e with
    lookups := e.lookups.cancel id
    history := if e.chart.isCompound id then e.history.record id leaf else e.history }

def exitBelow (e : Engine) (domain : StateId) : Engine :=
  if e.active.contains domain then
    let left := e.active.takeWhile fun id => id != domain
    { left.foldl (leave e.leaf) e with active := e.active.dropWhile fun id => id != domain }
  else e

/-! ## Beginning -/

/-- An engine in the initial state of its chart.  What the first states ask for is held back until
the first transition. -/
def start (chart : Chart) (journal : Journal Move) : Engine :=
  let e : Engine := { chart, active := [Chart.root], journal }
  e.enterAll none (chart.initialDescent Chart.root)

end Engine

end Dialogue
