import Dialogue.Chart.Path
import Dialogue.Event
/-!
# What can be wrong with a chart

Every problem of a definition is reported, not the first alone.
-/

namespace Dialogue

/-- One problem of a chart definition; `state` and `path` are paths as they are shown. -/
inductive ChartProblem where
  | missingInitial (state : String)
  | unknownInitial (state initial : String)
  | childrenOnLeaf (state : String)
  | duplicateState (path : String)
  | malformedTarget (state : String) (event : EventKind) (target : String)
  | unknownTarget (state : String) (event : EventKind) (target : String)
  | catchAllNotLast (state : String) (event : EventKind)
  deriving DecidableEq, Repr

namespace ChartProblem

def message : ChartProblem → String
  | missingInitial state =>
    "State '" ++ state ++ "' has children but no initial child. Call .compound(name, initial)"
  | unknownInitial state initial =>
    "State '" ++ state ++ "' names initial child '" ++ initial ++ "', which does not exist"
  | childrenOnLeaf state => "State '" ++ state ++ "' is not compound but declares children"
  | duplicateState path => "State path '" ++ path ++ "' is declared more than once"
  | malformedTarget state event target =>
    "State '" ++ state ++ "' has malformed " ++ event.name ++ " target '" ++ target ++ "'"
  | unknownTarget state event target =>
    "State '" ++ state ++ "' has " ++ event.name ++ " target '" ++ target
      ++ "', which resolves to no state"
  | catchAllNotLast state event =>
    "State '" ++ state ++ "' has an unguarded " ++ event.name ++ " transition that is not last"

end ChartProblem

structure InvalidChart where
  problems : List ChartProblem
  deriving DecidableEq, Repr

def InvalidChart.message (e : InvalidChart) : String :=
  "invalid dialogue chart (" ++ toString e.problems.length ++ " problem(s)): "
    ++ (e.problems.head?.map ChartProblem.message).getD ""

end Dialogue
