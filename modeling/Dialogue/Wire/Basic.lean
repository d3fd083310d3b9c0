import Dialogue.Chart.Definition
import Dialogue.Json.Record
import Dialogue.Retry
/-!
# Small values on the wire

How the values that events and contexts are made of are written as JSON, and read from it.
-/

namespace Dialogue

open Json (Field)

def StateId.encode (id : StateId) : Json :=
  .ofNat id.index

def StateId.decode? (j : Json) : Option StateId :=
  j.word?.map StateId.mk

def Entity.encode (e : Entity) : Json :=
  .ofMembers [("category", .ofString e.category), ("text", .ofString e.text)]

def Entity.decode? (j : Json) : Option Entity := do
  match ← j.fields? ["category", "text"] with
  | [category, text] =>
    pure
      { category := ← category.required Json.string?
        text := ← text.required Json.string? }
  | _ => none

def Json.someMember (name : String) : Option String → List (String × Json)
  | none => []
  | some text => [(name, .ofString text)]

def Answer.encode (a : Answer) : Json :=
  .ofMembers
    ([("Abstract", .ofString a.abstract)]
      ++ Json.someMember "Heading" a.heading ++ Json.someMember "AbstractURL" a.url)

def Answer.decode? (j : Json) : Option Answer := do
  match ← j.fields? ["Abstract", "Heading", "AbstractURL"] with
  | [abstract, heading, url] =>
    pure
      { abstract := ← abstract.required Json.string?
        heading := ← heading.withDefault (Field.nullable Json.string?) none
        url := ← url.withDefault (Field.nullable Json.string?) none }
  | _ => none

def Ticket.encode (t : Ticket) : Json :=
  .ofMembers [("state", t.state.encode), ("generation", .ofNat t.generation)]

def Ticket.decode? (j : Json) : Option Ticket := do
  match ← j.fields? ["state", "generation"] with
  | [state, generation] =>
    pure
      { state := ← state.required StateId.decode?
        generation := ← generation.required Json.word? }
  | _ => none

def Slot.encode (s : Slot) : Json :=
  .ofString s.name

def Slot.decode? (j : Json) : Option Slot :=
  j.caseName?.bind Slot.ofName?

def EventKind.encode (k : EventKind) : Json :=
  .ofString k.journalName

def EventKind.decode? (j : Json) : Option EventKind :=
  j.caseName?.bind EventKind.ofJournalName?

def Template.encode (t : Template) : Json :=
  .ofString t.source

def Template.decode? (j : Json) : Option Template :=
  j.string?.map Template.mk

def RetryPolicy.encode (p : RetryPolicy) : Json :=
  .ofMembers [("max_timeouts", .ofNat p.maxTimeouts.toNat)]

def RetryPolicy.decode? (j : Json) : Option RetryPolicy := do
  match ← j.fields? ["max_timeouts"] with
  | [maxTimeouts] => pure { maxTimeouts := ← maxTimeouts.required Json.count? }
  | _ => none

end Dialogue
