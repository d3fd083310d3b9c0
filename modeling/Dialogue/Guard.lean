import Dialogue.Event
/-!
# Guards

A guard decides from the context and the event at hand whether a transition may be taken.
-/

namespace Dialogue

structure Guard where
  holds : Context → Event → Bool

namespace Guard

def onContext (p : Context → Bool) : Guard :=
  ⟨fun ctx _ => p ctx⟩

def onEvent (p : Event → Bool) : Guard :=
  ⟨fun _ event => p event⟩

def and (g h : Guard) : Guard :=
  ⟨fun ctx event => g.holds ctx event && h.holds ctx event⟩

def negate (g : Guard) : Guard :=
  ⟨fun ctx event => !g.holds ctx event⟩

def always : Guard :=
  onContext fun _ => true

def never : Guard :=
  onContext fun _ => false

def answerFound : Guard :=
  onEvent fun event => event.answer?.any Answer.hasAbstract

/-- The slot has a value, be it empty. -/
def slotSet (s : Slot) : Guard :=
  onContext fun ctx => (ctx.slot s).isSome

/-- The confidence of the last turn reaches `x`.  What is no number reaches nothing. -/
def confidenceAtLeast (x : Float) : Guard :=
  onContext fun ctx => decide (x ≤ ctx.turn.confidence)

def retriesAtLeast (n : UInt32) : Guard :=
  onContext fun ctx => decide (n ≤ ctx.retryCount.getD 0)

def heard (text : String) : Guard :=
  onContext fun ctx => ctx.heard == text

def eventIs (kind : EventKind) : Guard :=
  onEvent fun event => event.kind = kind

end Guard

end Dialogue
