import Dialogue.Chart.Path
import Dialogue.Transition
/-!
# Charts

A chart is an array of states, the root first and each state before those inside it.  All walks
through it go up from a state to the root, or down from a state by its initial children.
-/

namespace Dialogue

inductive NodeKind where
  | atomic
  | compound (initial : StateId)
  | history
  deriving DecidableEq, Repr

structure Node where
  id : StateId
  name : String
  path : String
  parent : Option StateId
  kind : NodeKind
  children : List StateId
  entry : List Action
  transitions : List (EventKind × Transition)
  invoke : Option (Context → String)

namespace Node

def isCompound (n : Node) : Bool :=
  match n.kind with
  | .compound _ => true
  | _ => false

def isHistory (n : Node) : Bool :=
  n.kind = .history

/-- The transitions for one kind of events, in the order in which they are tried.  A state without
any leaves such events to the states around it. -/
def transitionsOn (n : Node) (kind : EventKind) : List Transition :=
  n.transitions.filterMap fun t => if t.1 = kind then some t.2 else none

end Node

structure Chart where
  nodes : Array Node

namespace Chart

def root : StateId := ⟨0⟩

def node? (c : Chart) (id : StateId) : Option Node :=
  c.nodes[id.index]?

def path (c : Chart) (id : StateId) : String :=
  ((c.node? id).map Node.path).getD ""

def parent? (c : Chart) (id : StateId) : Option StateId :=
  (c.node? id).bind Node.parent

def initial? (c : Chart) (id : StateId) : Option StateId :=
  (c.node? id).bind fun n =>
    match n.kind with
    | .compound initial => some initial
    | _ => none

def isCompound (c : Chart) (id : StateId) : Bool :=
  (c.node? id).any Node.isCompound

def isHistory (c : Chart) (id : StateId) : Bool :=
  (c.node? id).any Node.isHistory

def find? (c : Chart) (path : String) : Option StateId :=
  (c.nodes.find? fun n => n.path = path).map Node.id

def lookup? (c : Chart) (raw : String) : Option StateId :=
  c.find? (Path.canonical raw)

/-! ## Walks -/

def above (c : Chart) : Nat → StateId → List StateId
  | 0, _ => []
  | bound + 1, id =>
    match c.parent? id with
    | none => []
    | some p => p :: c.above bound p

/-- A state and all states around it, innermost first.  Each comes before what it contains, so the
place of a state bounds how many there are. -/
def lineage (c : Chart) (id : StateId) : List StateId :=
  id :: c.above id.index id

def contains (c : Chart) (outer inner : StateId) : Bool :=
  (c.lineage inner).contains outer

/-- The states from just inside `outer` down to `inner`, outermost first. -/
def pathBetween (c : Chart) (outer inner : StateId) : List StateId :=
  ((c.lineage inner).takeWhile fun id => id != outer).reverse

def descend (c : Chart) : Nat → StateId → List StateId
  | 0, _ => []
  | bound + 1, id =>
    match c.initial? id with
    | none => []
    | some child => child :: c.descend bound child

def initialDescent (c : Chart) (id : StateId) : List StateId :=
  c.descend c.nodes.size id

/-- The innermost state that stays active when a transition leads from `source` to `target`: the
source if the target is inside it, else the innermost state around the source that has the target
inside.  A target is entered anew, so it never is its own domain unless it is the root. -/
def transitionDomain (c : Chart) (source target : StateId) : StateId :=
  if target ≠ source ∧ c.contains source target then source
  else
    ((c.lineage source).tail.find? fun id => id != target && c.contains id target).getD root

end Chart

end Dialogue
