import Dialogue.Context
/-!
# Events and directives

What reaches a dialogue from outside, and what it asks of the outside: to speak, to listen, to look
something up.
-/

namespace Dialogue

/-- The place of a state in a chart: states are numbered in the order of their definitions, each
before its children. -/
structure StateId where
  index : Nat
  deriving DecidableEq, Repr

def StateId.label (id : StateId) : String :=
  "#" ++ toString id.index

/-- The right to complete one lookup: the state that began it, and a number that no other has. -/
structure Ticket where
  state : StateId
  generation : Nat
  deriving DecidableEq, Repr

inductive EventKind where
  | click
  | ttsReady
  | recognised
  | endSpeech
  | timeout
  | lookupDone
  deriving DecidableEq, Repr

namespace EventKind

def all : List EventKind :=
  [click, ttsReady, recognised, endSpeech, timeout, lookupDone]

def name : EventKind → String
  | click => "CLICK"
  | ttsReady => "TTS_READY"
  | recognised => "RECOGNISED"
  | endSpeech => "ENDSPEECH"
  | timeout => "TIMEOUT"
  | lookupDone => "LOOKUP_DONE"

def journalName : EventKind → String
  | click => "Click"
  | ttsReady => "TtsReady"
  | recognised => "Recognised"
  | endSpeech => "EndSpeech"
  | timeout => "Timeout"
  | lookupDone => "LookupDone"

def ofName? (name : String) : Option EventKind :=
  all.find? fun k => k.name = name

def ofJournalName? (name : String) : Option EventKind :=
  all.find? fun k => k.journalName = name

theorem mem_filterMap_iff {α : Type} {kind : EventKind} {entries : List (EventKind × α)} {a : α} :
    (a ∈ entries.filterMap fun entry => if entry.1 = kind then some entry.2 else none) ↔
      (kind, a) ∈ entries := by
  rw [List.mem_filterMap]
  constructor
  · rintro ⟨⟨kind', a'⟩, hmem, heq⟩
    split at heq
    · next hkind =>
      obtain rfl := Option.some.inj heq
      rwa [← hkind]
    · cases heq
  · intro hmem
    exact ⟨(kind, a), hmem, if_pos rfl⟩

end EventKind

inductive Event where
  | click
  | ttsReady
  | recognised (turn : Turn)
  | endSpeech
  | timeout
  | lookupDone (ticket : Ticket) (answer : Answer)

namespace Event

def kind : Event → EventKind
  | click => .click
  | ttsReady => .ttsReady
  | recognised _ => .recognised
  | endSpeech => .endSpeech
  | timeout => .timeout
  | lookupDone _ _ => .lookupDone

def answer? : Event → Option Answer
  | lookupDone _ answer => some answer
  | _ => none

end Event

inductive Directive where
  | speak (text : String)
  | listen
  | lookup (ticket : Ticket) (subject : String)
  deriving DecidableEq, Repr

namespace Directive

def spoken? : Directive → Option String
  | speak text => some text
  | _ => none

def lookup? : Directive → Option (Ticket × String)
  | lookup ticket subject => some (ticket, subject)
  | _ => none

end Directive

end Dialogue
