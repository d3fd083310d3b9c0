import Dialogue.Json.Reader
import Dialogue.Lookup
import Dialogue.Wire.Config
/-!
# Documents

Values read from whole JSON texts.
-/

namespace Dialogue

def Answer.parse (text : String) : Except LookupError Answer :=
  match (Json.read? text).bind Answer.decode? with
  | some answer => .ok answer
  | none => .error .malformed

/-- Answers from recorded responses, the first for each subject as it is spelled; `otherwise`
answers the rest. -/
def KnowledgeBase.ofResponses (responses : List (String × String)) (otherwise : KnowledgeBase) :
    KnowledgeBase :=
  ⟨fun subject =>
    match responses.find? fun r => r.1 = subject with
    | some r => Answer.parse r.2
    | none => otherwise.lookup subject⟩

def Config.parse (text : String) : Except ConfigError Config :=
  match (Json.read? text).bind Config.decode? with
  | none => .error .unreadable
  | some config => config.validate.map fun _ => config

end Dialogue
