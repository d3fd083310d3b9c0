import Dialogue.Decimal.Shortest
import Dialogue.Retry
/-!
# Configuration

What can be tuned about a dialogue: when a turn is trusted, how much silence is borne, how much is
kept in the journal, and every word that is spoken.
-/

namespace Dialogue

structure Prompts where
  welcome : Template :=
    "Hi, tell me, what do you need today, schedule a meeting or make a query?"
  notRecognised : Template :=
    "Sorry, I can't seem to recognize what is {utterance}, try a different word."
  confirmHeard : Template := "Is \"{heard}\" what you meant?"
  timeout : Template := "Sorry, I couldn't hear you properly."
  reset : Template :=
    "Sorry, I couldn't hear you properly. Click when you want to start again."
  welcomeHelp : Template :=
    "I am here to help you either schedule an appointment or look up information about any "
      ++ "character or personality. Say \"meeting\" for the former or \"query\" for the latter."
  queryHelp : Template :=
    "You have selected query, you may ask: who is or who was someone, after that just answer yes "
      ++ "or no if you want to meet them."
  meetingHelp : Template :=
    "You have chosen to schedule a meeting, choose a topic, a day, and tell me if it's either the "
      ++ "whole day or the exact time of your meeting."
  question : Template := "Tell me your question."
  answer : Template := "{abstract}"
  meetPerson : Template := "Would you like to meet them?"
  noResults : Template := "There seem to be no results for that."
  startMeeting : Template := "Let's create a meeting, then!"
  what : Template := "What is it about?"
  when : Template := "On what day?"
  wholeDay : Template := "Will it take the whole day?"
  time : Template := "What time is your meeting?"
  confirmWholeDay : Template :=
    "Do you want me to create a meeting titled {title} on {day} for the whole day?"
  confirmMeeting : Template :=
    "Do you want me to create a meeting titled {title} on {day} at {time}?"
  finalized : Template := "Your meeting has been created!"
  deriving DecidableEq, Repr

structure Config where
  /-- The confidence from which on a turn is trusted. -/
  confidenceThreshold : Float := 0.6
  /-- How many silences in a row lead to a reset. -/
  maxTimeouts : UInt32 := 3
  journalCapacity : Nat := 64
  prompts : Prompts := {}

inductive ConfigProblem where
  | thresholdOutOfRange (threshold : Float)
  | noTimeoutsAllowed
  | emptyJournal

namespace ConfigProblem

def message : ConfigProblem → String
  | thresholdOutOfRange x =>
    "confidence_threshold must be within [0, 1], got " ++ Decimal.shortest x
  | noTimeoutsAllowed => "max_timeouts must be at least 1"
  | emptyJournal => "journal_capacity must be at least 1"

end ConfigProblem

inductive ConfigError where
  | unreadable
  | invalid (problems : List ConfigProblem)

def ConfigError.message? : ConfigError → Option String
  | unreadable => none
  | invalid problems =>
    some (toString problems.length ++ " configuration problem(s): "
      ++ String.intercalate "; " (problems.map ConfigProblem.message))

namespace Config

def problems (c : Config) : List ConfigProblem :=
  (if 0 ≤ c.confidenceThreshold ∧ c.confidenceThreshold ≤ 1 then []
    else [.thresholdOutOfRange c.confidenceThreshold])
    ++ (if 0 < c.maxTimeouts then [] else [.noTimeoutsAllowed])
    ++ (if 0 < c.journalCapacity then [] else [.emptyJournal])

def validate (c : Config) : Except ConfigError Unit :=
  match c.problems with
  | [] => .ok ()
  | problems => .error (.invalid problems)

def retryPolicy (c : Config) : RetryPolicy :=
  { maxTimeouts := c.maxTimeouts }

def isConfident (c : Config) (confidence : Float) : Bool :=
  decide (c.confidenceThreshold ≤ confidence)

end Config

end Dialogue
