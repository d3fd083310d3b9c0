import Dialogue.Decimal.Fixed
import Dialogue.Utterance
/-!
# The context of a dialogue

What guards read and actions write: the turn that was heard last, the slots filled so far, the
answer found, and how often the user has kept silent.
-/

namespace Dialogue

structure Entity where
  category : String
  text : String
  deriving DecidableEq, Repr

structure Answer where
  abstract : String
  heading : Option String := none
  url : Option String := none
  deriving DecidableEq, Repr

def Answer.blank : Answer :=
  { abstract := "" }

/-- Whether anything was found: an abstract of white space says nothing. -/
def Answer.hasAbstract (a : Answer) : Bool :=
  !Text.allBlank a.abstract.toList

structure Turn where
  utterance : String := ""
  confidence : Float := 0
  entities : List Entity := []
  topIntent : Option String := none

inductive Slot where
  | title
  | day
  | time
  | accept
  | decline
  | category
  | help
  deriving DecidableEq, Repr

namespace Slot

def all : List Slot :=
  [title, day, time, accept, decline, category, help]

def name : Slot → String
  | title => "title"
  | day => "day"
  | time => "time"
  | accept => "accept"
  | decline => "decline"
  | category => "category"
  | help => "help"

def ofName? (name : String) : Option Slot :=
  all.find? fun s => s.name = name

end Slot

structure Slots where
  title : Option String := none
  day : Option String := none
  time : Option String := none
  accept : Option String := none
  decline : Option String := none
  category : Option String := none
  help : Option String := none
  deriving DecidableEq, Repr

namespace Slots

def get (s : Slots) : Slot → Option String
  | .title => s.title
  | .day => s.day
  | .time => s.time
  | .accept => s.accept
  | .decline => s.decline
  | .category => s.category
  | .help => s.help

def set (s : Slots) (slot : Slot) (value : Option String) : Slots :=
  match slot with
  | .title => { s with title := value }
  | .day => { s with day := value }
  | .time => { s with time := value }
  | .accept => { s with accept := value }
  | .decline => { s with decline := value }
  | .category => { s with category := value }
  | .help => { s with help := value }

theorem get_set (s : Slots) (slot slot' : Slot) (value : Option String) :
    (s.set slot value).get slot' = if slot' = slot then value else s.get slot' := by
  cases slot <;> cases slot' <;> rfl

end Slots

structure Context where
  turn : Turn := {}
  slots : Slots := {}
  answer : Option Answer := none
  retryCount : Option UInt32 := none

namespace Context

def slot (ctx : Context) (s : Slot) : Option String :=
  ctx.slots.get s

def setSlot (ctx : Context) (s : Slot) (value : Option String) : Context :=
  { ctx with slots := ctx.slots.set s value }

def heard (ctx : Context) : String :=
  normalize ctx.turn.utterance

def cleared (ctx : Context) : Context :=
  { turn := ctx.turn }

/-- Brings a confidence into the interval from zero to one.  What is no number stays. -/
def clampConfidence (x : Float) : Float :=
  if x < 0 then 0 else if 1 < x then 1 else x

/-- A turn is written down as it was heard; being heard ends a silence. -/
def observe (ctx : Context) (turn : Turn) : Context :=
  { ctx with
    turn := { turn with confidence := clampConfidence turn.confidence }
    retryCount := none }

def field? (ctx : Context) (name : String) : Option String :=
  if name = "utterance" then some ctx.turn.utterance
  else if name = "heard" then some ctx.heard
  else if name = "confidence" then some (Decimal.fixed 2 ctx.turn.confidence)
  else if name = "intent" then ctx.turn.topIntent
  else if name = "abstract" then ctx.answer.map (·.abstract)
  else if name = "heading" then ctx.answer.bind (·.heading)
  else if name = "retry_count" then ctx.retryCount.map fun n => toString n.toNat
  else (Slot.ofName? name).bind ctx.slot

end Context

end Dialogue
