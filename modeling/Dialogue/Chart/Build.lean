import Dialogue.Chart.Basic
import Dialogue.Chart.Definition
import Dialogue.Chart.Problem
/-!
# Building a chart

A definition is laid out in an array, each state before its children, and every target is resolved
to a place in it.  A chart is built only from a definition without problems, and all problems are
reported: first those of the shape of the tree, children before their parent; then paths declared
again; then those of the transitions, state by state.
-/

namespace Dialogue

namespace StateDef

/-! ## Layout -/

/-- The names and places of children, the first of which stands at `place`. -/
def childPlaces (place : Nat) : List StateDef → List (String × StateId)
  | [] => []
  | d :: ds => (d.name, ⟨place⟩) :: childPlaces (place + d.size) ds

def initialPlace? (children : List (String × StateId)) (initial : String) : Option StateId :=
  (children.find? fun child => child.1 = initial).map Prod.snd

def nodeKind (kind : StateKind) (children : List (String × StateId)) : NodeKind :=
  match kind with
  | .atomic => .atomic
  | .history => if children.isEmpty then .history else .atomic
  | .compound initial =>
    match initialPlace? children initial with
    | some child => .compound child
    | none => .atomic

structure Placed where
  place : StateId
  path : String
  parent : Option (StateId × String)
  definition : StateDef

mutual
def layout (parent : Option (StateId × String)) (path : String) (place : Nat) :
    StateDef → List Placed
  | ⟨name, kind, entry, transitions, children, invoke⟩ =>
    ⟨⟨place⟩, path, parent, ⟨name, kind, entry, transitions, children, invoke⟩⟩
      :: layoutAll ⟨place⟩ path (place + 1) children

def layoutAll (parent : StateId) (path : String) (place : Nat) : List StateDef → List Placed
  | [] => []
  | d :: ds =>
    layout (some (parent, path)) (Path.join path d.name) place d
      ++ layoutAll parent path (place + d.size) ds
end

/-! ## Problems -/

def shapeProblem (path : String) (kind : StateKind) (children : List StateDef) :
    List ChartProblem :=
  match kind with
  | .compound initial =>
    if children.any fun d => d.name = initial then []
    else if initial = "" then [.missingInitial (Path.shown path)]
    else [.unknownInitial (Path.shown path) initial]
  | _ => if children.isEmpty then [] else [.childrenOnLeaf (Path.shown path)]

mutual
/-- The problems of shape in a definition, those of the children first. -/
def shapeProblems (path : String) : StateDef → List ChartProblem
  | ⟨_, kind, _, _, children, _⟩ =>
    shapeProblemsAll path children ++ shapeProblem path kind children

def shapeProblemsAll (path : String) : List StateDef → List ChartProblem
  | [] => []
  | d :: ds => shapeProblems (Path.join path d.name) d ++ shapeProblemsAll path ds
end

def duplicateProblems (seen : List String) : List String → List ChartProblem
  | [] => []
  | path :: paths =>
    (if path ∈ seen then [.duplicateState (Path.shown path)] else [])
      ++ duplicateProblems (path :: seen) paths

def catchAllMisplaced (transitions : List TransitionDef) : Bool :=
  transitions.dropLast.any TransitionDef.isCatchAll

end StateDef

namespace ChartDef

open StateDef (Placed)

def layout (d : ChartDef) : List Placed :=
  d.root.layout none "" 0

/-- The last of the states with a path. -/
def place? (layout : List Placed) (path : String) : Option StateId :=
  (layout.reverse.find? fun p => p.path = path).map Placed.place

def resolve (layout : List Placed) (state : Placed) (kind : EventKind) (t : TransitionDef) :
    Except ChartProblem StateId :=
  match Path.Target.parse? t.target with
  | none => .error (.malformedTarget (Path.shown state.path) kind t.target)
  | some target =>
    match place? layout (target.resolve state.path (state.parent.map Prod.snd)) with
    | none => .error (.unknownTarget (Path.shown state.path) kind t.target)
    | some id => .ok id

def targetProblem? (layout : List Placed) (state : Placed) (kind : EventKind)
    (t : TransitionDef) : Option ChartProblem :=
  match resolve layout state kind t with
  | .error problem => some problem
  | .ok _ => none

def listProblems (layout : List Placed) (state : Placed) (kind : EventKind) :
    List ChartProblem :=
  let transitions := state.definition.transitionsOn kind
  (if StateDef.catchAllMisplaced transitions then
    [.catchAllNotLast (Path.shown state.path) kind] else [])
    ++ transitions.filterMap (targetProblem? layout state kind)

def transitionProblems (layout : List Placed) (state : Placed) : List ChartProblem :=
  state.definition.kinds.flatMap (listProblems layout state)

def problems (d : ChartDef) : List ChartProblem :=
  let layout := d.layout
  d.root.shapeProblems ""
    ++ StateDef.duplicateProblems [] (layout.map Placed.path)
    ++ layout.flatMap (transitionProblems layout)

def transition? (layout : List Placed) (state : Placed) (t : EventKind × TransitionDef) :
    Option (EventKind × Transition) :=
  match resolve layout state t.1 t.2 with
  | .error _ => none
  | .ok target => some (t.1, { guard := t.2.guard, target, actions := t.2.actions })

def node (layout : List Placed) (state : Placed) : Node :=
  let children := StateDef.childPlaces (state.place.index + 1) state.definition.children
  { id := state.place
    name := state.definition.name
    path := state.path
    parent := state.parent.map Prod.fst
    kind := StateDef.nodeKind state.definition.kind children
    children := children.map Prod.snd
    entry := state.definition.entry
    transitions := state.definition.transitions.filterMap (transition? layout state)
    invoke := state.definition.invoke }

/-- The states of a definition at their places.  `build` gives it out if there are no problems. -/
def chart (d : ChartDef) : Chart where
  nodes := (d.layout.map (node d.layout)).toArray

def build (d : ChartDef) : Except InvalidChart Chart :=
  match d.problems with
  | [] => .ok d.chart
  | problems => .error ⟨problems⟩

end ChartDef

end Dialogue
