import Dialogue.Transition
/-!
# Chart definitions

States as they are declared: a forest in which transitions name their targets by path.
-/

namespace Dialogue

structure TransitionDef where
  target : String
  guard : Option Guard := none
  actions : List Action := []

def TransitionDef.isCatchAll (t : TransitionDef) : Bool :=
  t.guard.isNone

/-- What a state is declared as.  A history state stands for what was last active in its parent. -/
inductive StateKind where
  | atomic
  | compound (initial : String)
  | history
  deriving DecidableEq, Repr

/-- A state to be declared, with the states inside it.  Its transitions stand in the order in which
they are tried; those of other kinds of events may stand between them.  A state with `invoke` looks
up the subject that it finds in the context. -/
structure StateDef where
  name : String
  kind : StateKind
  entry : List Action
  transitions : List (EventKind × TransitionDef)
  children : List StateDef
  invoke : Option (Context → String)

namespace StateDef

private def declare (name : String) (kind : StateKind) : StateDef where
  name := name
  kind := kind
  entry := []
  transitions := []
  children := []
  invoke := none

def atomic (name : String) : StateDef :=
  declare name .atomic

def compound (name initial : String) : StateDef :=
  declare name (.compound initial)

def history (name : String) : StateDef :=
  declare name .history

def onEntry (d : StateDef) (actions : List Action) : StateDef :=
  { d with entry := d.entry ++ actions }

def on (d : StateDef) (kind : EventKind) (transitions : List TransitionDef) : StateDef :=
  { d with transitions := d.transitions ++ transitions.map (kind, ·) }

def containing (d : StateDef) (children : List StateDef) : StateDef :=
  { d with children := d.children ++ children }

def invoking (d : StateDef) (subject : Context → String) : StateDef :=
  { d with invoke := some subject }

/-- The kinds of events for which a state declares transitions, in the order of the first of each
kind. -/
def kinds (d : StateDef) : List EventKind :=
  (d.transitions.map Prod.fst).eraseDups

def transitionsOn (d : StateDef) (kind : EventKind) : List TransitionDef :=
  d.transitions.filterMap fun t => if t.1 = kind then some t.2 else none

mutual
def size : StateDef → Nat
  | ⟨_, _, _, _, children, _⟩ => 1 + sizeAll children

def sizeAll : List StateDef → Nat
  | [] => 0
  | d :: ds => d.size + sizeAll ds
end

end StateDef

structure ChartDef where
  initial : String := ""
  states : List StateDef := []

def ChartDef.root (d : ChartDef) : StateDef :=
  (StateDef.compound "root" d.initial).containing d.states

end Dialogue
