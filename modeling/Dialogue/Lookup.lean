import Dialogue.Event
import Dialogue.Table
import Dialogue.Utterance
/-!
# Lookups

At most one lookup is awaited.  It belongs to a state and is given up when that state is left; a
number that only grows tells its completion from those of lookups before it.
-/

namespace Dialogue

structure Lookups where
  generation : Nat := 0
  live : Option Ticket := none
  deriving DecidableEq, Repr

namespace Lookups

def nextTicket (l : Lookups) (state : StateId) : Ticket :=
  { state, generation := l.generation + 1 }

/-- Begins a lookup in place of any other. -/
def start (l : Lookups) (state : StateId) : Lookups where
  generation := l.generation + 1
  live := some (l.nextTicket state)

def bound? (l : Lookups) (state : StateId) : Option Ticket :=
  l.live.filter fun t => t.state = state

def cancel (l : Lookups) (state : StateId) : Lookups :=
  if (l.bound? state).isSome then { generation := l.generation + 1, live := none } else l

def complete? (l : Lookups) (ticket : Ticket) : Option Lookups :=
  if l.live = some ticket then some { l with live := none } else none

end Lookups

/-! ## Knowledge bases -/

inductive LookupError where
  | unavailable (reason : String)
  | malformed
  deriving DecidableEq, Repr

def LookupError.message? : LookupError → Option String
  | unavailable reason => some ("Knowledge base unavailable: " ++ reason)
  | malformed => none

structure KnowledgeBase where
  lookup : String → Except LookupError Answer

namespace KnowledgeBase

def unavailable (reason : String) : KnowledgeBase :=
  ⟨fun _ => .error (.unavailable reason)⟩

/-- Answers from a table of abstracts.  Subjects are compared in normal form, the last abstract for
a subject counts, and a subject without any gets a blank answer. -/
def ofEntries (entries : List (String × String)) : KnowledgeBase :=
  let table : Table String Answer :=
    .ofList (entries.map fun e => (normalize e.1, { abstract := e.2 }))
  ⟨fun subject => .ok ((table.get? (normalize subject)).getD .blank)⟩

end KnowledgeBase

end Dialogue
