import Dialogue.Event
import Dialogue.Timestamp.Basic
/-!
# Journals

A journal keeps the last transitions that were taken, up to its capacity.
-/

namespace Dialogue

/-- A transition that was taken: the paths of the innermost active state before and after, what led
to it, and how many silences came before. -/
structure Move where
  source : String
  target : String
  event : EventKind
  attempt : UInt32
  deriving DecidableEq, Repr

structure TimedMove extends Move where
  time : Timestamp
  deriving DecidableEq, Repr

structure Journal (α : Type) where
  capacity : Nat
  records : List α
  deriving DecidableEq, Repr

namespace Journal

variable {α : Type}

def withCapacity (capacity : Nat) : Journal α where
  capacity := max capacity 1
  records := []

def defaultCapacity : Nat := 64

/-- Adds an entry; the oldest makes room for it if the journal is just full. -/
def record (j : Journal α) (entry : α) : Journal α :=
  { j with
    records := (if j.records.length = j.capacity then j.records.tail else j.records) ++ [entry] }

def last? (j : Journal α) : Option α :=
  j.records.getLast?

def path (moves : List Move) : List String :=
  (moves.head?.map Move.source).toList ++ moves.map Move.target

/-- The time from the first entry to the last, unless that is negative. -/
def duration? (j : Journal TimedMove) : Option Duration := do
  let first ← j.records.head?
  let last ← j.records.getLast?
  first.time.durationUntil? last.time

end Journal

end Dialogue
