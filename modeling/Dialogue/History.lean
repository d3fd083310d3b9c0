import Dialogue.Event
import Dialogue.Table
/-!
# Deep history

For each compound state, the innermost state that was active when it was left last.
-/

namespace Dialogue

structure History where
  leaves : Table StateId StateId

namespace History

def empty : History :=
  ⟨.empty⟩

def record (h : History) (compound leaf : StateId) : History :=
  ⟨h.leaves.insert compound leaf⟩

def resume? (h : History) (compound : StateId) : Option StateId :=
  h.leaves.get? compound

def size (h : History) : Nat :=
  h.leaves.size

def isEmpty (h : History) : Bool :=
  h.leaves.isEmpty

end History

end Dialogue
