import Dialogue.Resolver.Basic
import Dialogue.Table
import Dialogue.Text.Search
/-!
# Grammars

A grammar knows whole phrases, each with an intent and entities.  Phrases and utterances are
compared in normal form.
-/

namespace Dialogue

structure GrammarRule where
  intent : String
  entities : List Entity
  deriving DecidableEq, Repr

structure Grammar where
  rules : Table String GrammarRule

namespace Grammar

def empty : Grammar :=
  ⟨.empty⟩

def rule (g : Grammar) (phrase intent : String) (entities : List Entity) : Grammar :=
  ⟨g.rules.insert (normalize phrase) { intent, entities }⟩

def get? (g : Grammar) (utterance : String) : Option GrammarRule :=
  g.rules.get? (normalize utterance)

def intent? (g : Grammar) (utterance : String) : Option String :=
  (g.get? utterance).map (·.intent)

def entity? (g : Grammar) (utterance category : String) : Option String := do
  let rule ← g.get? utterance
  let entity ← rule.entities.find? fun e => e.category = category
  pure entity.text

def size (g : Grammar) : Nat :=
  g.rules.size

def isEmpty (g : Grammar) : Bool :=
  g.rules.isEmpty

def appointment : Grammar :=
  empty
    |>.rule "lecture" "meeting" [⟨"title", "lecture"⟩]
    |>.rule "lunch" "meeting" [⟨"title", "lunch"⟩]
    |>.rule "friday" "friday" [⟨"day", "friday"⟩]
    |>.rule "at 10" "time" [⟨"time", "10"⟩]
    |>.rule "yes" "answer" [⟨"accept", "yes"⟩]
    |>.rule "no" "no" [⟨"decline", "no"⟩]
    |>.rule "meeting" "answer" [⟨"meeting", "meeting"⟩]
    |>.rule "query" "yes" [⟨"query", "query"⟩]
    |>.rule "help" "help" [⟨"help", "help"⟩]
    |>.rule "confirmation" "confirmation" [⟨"conf", "confirmation"⟩]

def questions : List String :=
  ["who is ", "who was "]

/-- What follows the first question in `questions` that occurs in a text, if that is not blank. -/
def subjectOf? (text : List Char) : Option (List Char) :=
  ((questions.findSome? fun q => Text.afterFirst? q.toList text).map Text.trim).filter
    fun subject => !subject.isEmpty

def resolver (g : Grammar) : Resolver where
  entity ctx category := g.entity? ctx.turn.utterance category
  subject ctx := (subjectOf? ctx.heard.toList).map String.ofList

end Grammar

end Dialogue
