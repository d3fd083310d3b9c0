import Dialogue.Wire.Basic
/-!
# Contexts on the wire
-/

namespace Dialogue

open Json (Field)

def Slots.members (s : Slots) : List (String × Json) :=
  Slot.all.map fun slot => (slot.name, .ofOption .ofString (s.get slot))

def Context.encode (ctx : Context) : Json :=
  .ofMembers
    ([("last_utterance", .ofString ctx.turn.utterance),
      ("confidence", .ofFloat ctx.turn.confidence),
      ("entities", .array (ctx.turn.entities.map Entity.encode)),
      ("top_intent", .ofOption .ofString ctx.turn.topIntent)]
      ++ ctx.slots.members
      ++ [("knowledge_base_result", .ofOption Answer.encode ctx.answer),
        ("retry_count", .ofOption (fun n => .ofNat n.toNat) ctx.retryCount)])

def Context.fieldNames : List String :=
  ["last_utterance", "confidence", "entities", "top_intent"] ++ Slot.all.map Slot.name
    ++ ["knowledge_base_result", "retry_count"]

def Context.decode? (j : Json) : Option Context := do
  match ← j.fields? fieldNames with
  | [utterance, confidence, entities, topIntent, title, day, time, accept, decline, category, help,
      answer, retryCount] =>
    let text : Field → Option (Option String) := Field.optional Json.string?
    pure
      { turn :=
          { utterance := ← utterance.required Json.string?
            confidence := ← confidence.required Json.float?
            entities := ← entities.required (Json.list? Entity.decode?)
            topIntent := ← text topIntent }
        slots :=
          { title := ← text title
            day := ← text day
            time := ← text time
            accept := ← text accept
            decline := ← text decline
            category := ← text category
            help := ← text help }
        answer := ← answer.optional Answer.decode?
        retryCount := ← retryCount.optional Json.count? }
  | _ => none

end Dialogue
