import Dialogue.Resolver.Basic
import Dialogue.Table
/-!
# Predictions

A turn may come with entities and an intent that were predicted from it.  A turn without entities
says nothing, whatever its intent.
-/

namespace Dialogue

structure Prediction where
  aliases : Table String (List String)
  intents : Table String String

namespace Prediction

def empty : Prediction where
  aliases := .empty
  intents := .empty

def addAlias (p : Prediction) (category servedBy : String) : Prediction :=
  { p with
    aliases := p.aliases.insert category ((p.aliases.get? category).getD [] ++ [servedBy]) }

/-- Lets an intent stand for a category, with its own name as the value. -/
def addIntent (p : Prediction) (intent category : String) : Prediction :=
  { p with intents := p.intents.insert intent category }

def appointment : Prediction :=
  empty
    |>.addAlias "title" "meeting"
    |>.addIntent "query" "query"
    |>.addIntent "create a meeting" "meeting"
    |>.addIntent "help" "help"

def accepts (p : Prediction) (category candidate : String) : Bool :=
  candidate == category || ((p.aliases.get? category).getD []).contains candidate

def subjectIntent : String := "who is X"

def subjectCategory : String := "name"

/-- The value for a category: the first entity that can stand for it, else the intent. -/
def entity? (p : Prediction) (turn : Turn) (category : String) : Option String :=
  if turn.entities.isEmpty then none
  else
    match turn.entities.find? fun e => p.accepts category e.category with
    | some entity => some entity.text
    | none => turn.topIntent.filter fun intent => p.intents.get? intent == some category

def subject? (turn : Turn) : Option String :=
  if turn.topIntent = some subjectIntent then
    ((turn.entities.find? fun e => e.category = subjectCategory).map
      fun e => normalize e.text).filter fun subject => subject != ""
  else none

def resolver (p : Prediction) : Resolver where
  entity ctx category := p.entity? ctx.turn category
  subject ctx := subject? ctx.turn

end Prediction

end Dialogue
