import Dialogue.Config
import Dialogue.Wire.Basic
/-!
# Configurations on the wire

A configuration names what differs from the default.
-/

namespace Dialogue

open Json (Field)

def Prompts.named (p : Prompts) : List (String × Template) :=
  [("welcome", p.welcome), ("nomatch", p.notRecognised), ("confirm_heard", p.confirmHeard),
    ("timeout", p.timeout), ("reset", p.reset), ("welcome_help", p.welcomeHelp),
    ("query_help", p.queryHelp), ("meeting_help", p.meetingHelp), ("question", p.question),
    ("answer", p.answer), ("meet_person", p.meetPerson), ("no_results", p.noResults),
    ("start_meeting", p.startMeeting), ("what", p.what), ("when", p.when),
    ("whole_day", p.wholeDay), ("time", p.time), ("confirm_whole_day", p.confirmWholeDay),
    ("confirm_meeting", p.confirmMeeting), ("finalized", p.finalized)]

def Prompts.ofTemplates? : List Template → Option Prompts
  | [welcome, notRecognised, confirmHeard, timeout, reset, welcomeHelp, queryHelp, meetingHelp,
      question, answer, meetPerson, noResults, startMeeting, what, when, wholeDay, time,
      confirmWholeDay, confirmMeeting, finalized] =>
    some
      { welcome, notRecognised, confirmHeard, timeout, reset, welcomeHelp, queryHelp, meetingHelp,
        question, answer, meetPerson, noResults, startMeeting, what, when, wholeDay, time,
        confirmWholeDay, confirmMeeting, finalized }
  | _ => none

def Prompts.encode (p : Prompts) : Json :=
  .ofMembers (p.named.map fun t => (t.1, t.2.encode))

def Prompts.decode? (j : Json) : Option Prompts := do
  let defaults := ({} : Prompts).named
  let fields ← j.fields? (defaults.map Prod.fst)
  let templates ← (fields.zip defaults).mapM fun f => f.1.withDefault Template.decode? f.2.2
  ofTemplates? templates

def Config.encode (c : Config) : Json :=
  .ofMembers
    [("confidence_threshold", .ofFloat c.confidenceThreshold),
      ("max_timeouts", .ofNat c.maxTimeouts.toNat), ("journal_capacity", .ofNat c.journalCapacity),
      ("prompts", c.prompts.encode)]

def Config.decode? (j : Json) : Option Config := do
  match ← j.fields? ["confidence_threshold", "max_timeouts", "journal_capacity", "prompts"] with
  | [threshold, maxTimeouts, journalCapacity, prompts] =>
    let default : Config := {}
    pure
      { confidenceThreshold := ← threshold.withDefault Json.float? default.confidenceThreshold
        maxTimeouts := ← maxTimeouts.withDefault Json.count? default.maxTimeouts
        journalCapacity := ← journalCapacity.withDefault Json.word? default.journalCapacity
        prompts := ← prompts.withDefault Prompts.decode? default.prompts }
  | _ => none

end Dialogue
