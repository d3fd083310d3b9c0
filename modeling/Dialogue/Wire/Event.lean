import Dialogue.Wire.Basic
/-!
# Events and directives on the wire

Both are tagged by their type.
-/

namespace Dialogue

open Json (Field)

/-! ## Events -/

def Turn.members (t : Turn) : List (String × Json) :=
  [("utterance", .ofString t.utterance), ("confidence", .ofFloat t.confidence),
    ("entities", .array (t.entities.map Entity.encode))]
    ++ Json.someMember "topIntent" t.topIntent

def Turn.decode? (j : Json) : Option Turn := do
  match ← j.fields? ["utterance", "confidence", "entities", "topIntent"] with
  | [utterance, confidence, entities, topIntent] =>
    pure
      { utterance := ← utterance.required Json.string?
        confidence := ← confidence.required Json.float?
        entities := ← entities.withDefault (Json.list? Entity.decode?) []
        topIntent := ← topIntent.withDefault (Field.nullable Json.string?) none }
  | _ => none

def Event.members : Event → List (String × Json)
  | .recognised turn => turn.members
  | .lookupDone ticket answer => [("ticket", ticket.encode), ("answer", answer.encode)]
  | _ => []

def Event.encode (e : Event) : Json :=
  .ofMembers (("type", .ofString e.kind.name) :: e.members)

def Event.decodeLookupDone? (j : Json) : Option Event := do
  match ← j.fields? ["ticket", "answer"] with
  | [ticket, answer] =>
    pure (.lookupDone (← ticket.required Ticket.decode?) (← answer.required Answer.decode?))
  | _ => none

def Event.decodeKind? (kind : EventKind) (j : Json) : Option Event :=
  match kind with
  | .click => if j.holdsNothing then some .click else none
  | .ttsReady => if j.holdsNothing then some .ttsReady else none
  | .recognised => (Turn.decode? j).map .recognised
  | .endSpeech => if j.holdsNothing then some .endSpeech else none
  | .timeout => if j.holdsNothing then some .timeout else none
  | .lookupDone => decodeLookupDone? j

def Event.decode? (j : Json) : Option Event := do
  let (tag, rest) ← j.tagged?
  decodeKind? (← EventKind.ofName? tag) rest

/-! ## Directives -/

def Directive.encode : Directive → Json
  | .speak text => .ofMembers [("type", .ofString "SPEAK"), ("text", .ofString text)]
  | .listen => .ofMembers [("type", .ofString "LISTEN")]
  | .lookup ticket subject =>
    .ofMembers
      [("type", .ofString "LOOKUP"), ("ticket", ticket.encode), ("subject", .ofString subject)]

def Directive.decodeTag? (tag : String) (j : Json) : Option Directive :=
  if tag = "SPEAK" then do
    match ← j.fields? ["text"] with
    | [text] => pure (.speak (← text.required Json.string?))
    | _ => none
  else if tag = "LISTEN" then if j.holdsNothing then some .listen else none
  else if tag = "LOOKUP" then do
    match ← j.fields? ["ticket", "subject"] with
    | [ticket, subject] =>
      pure (.lookup (← ticket.required Ticket.decode?) (← subject.required Json.string?))
    | _ => none
  else none

def Directive.decode? (j : Json) : Option Directive := do
  let (tag, rest) ← j.tagged?
  decodeTag? tag rest

end Dialogue
