import Dialogue.Action
/-!
# Transitions

A way from one state to another.  Of several, the first that is enabled is taken.
-/

namespace Dialogue

/-- A transition without a guard is a catch-all. -/
structure Transition where
  guard : Option Guard := none
  target : StateId
  actions : List Action := []

namespace Transition

def isCatchAll (t : Transition) : Bool :=
  t.guard.isNone

def enabled (t : Transition) (ctx : Context) (event : Event) : Bool :=
  t.guard.all fun g => g.holds ctx event

def choose? (ts : List Transition) (ctx : Context) (event : Event) : Option Transition :=
  ts.find? fun t => t.enabled ctx event

end Transition

end Dialogue
