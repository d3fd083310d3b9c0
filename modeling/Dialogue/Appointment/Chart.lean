import Dialogue.Appointment.Confirmation
import Dialogue.Chart.Build
/-!
# The appointment assistant

A click wakes the assistant.  It answers questions about people and makes appointments: with whom or
about what, on what day, and at what time if not for the whole day.

Each branch tries the transitions of a turn in a fixed order: help, then every cue, then an apology.
A cue that was heard with too little confidence is kept and asked about.
-/

namespace Dialogue.Appointment

open Confirmation (say ask heard)

def welcome (cues : Cues) (prompts : Prompts) (policy : RetryPolicy) : StateDef :=
  StateDef.compound "welcome" "prompt"
    |>.on .recognised [Support.helpTransition "welcome" cues]
    |>.on .recognised (cues.gated (.entity "query") .category "#query" ".confirm_query")
    |>.on .recognised (cues.gated (.entity "meeting") .category "#meeting" ".confirm_meeting")
    |>.on .recognised [{ target := ".nomatch" }]
    |>.on .timeout (Support.timeoutTransitions "welcome" policy prompts)
    |>.containing
      [say "prompt" prompts.welcome "ask",
       ask,
       say "nomatch" prompts.notRecognised "ask",
       StateDef.history "hist",
       (heard "welcome" "confirm_query" .category "#query" "#welcome.prompt" prompts).build
         cues prompts,
       (heard "welcome" "confirm_meeting" .category "#meeting" "#welcome.prompt" prompts).build
         cues prompts]

def understood : StateDef :=
  StateDef.atomic "understood"
    |>.invoking (fun ctx => (ctx.slot .title).getD "")
    |>.on .lookupDone
      [{ target := "speak_result", guard := some .answerFound, actions := [.storeAnswer] },
       { target := "no_results" }]

def query (cues : Cues) (prompts : Prompts) (policy : RetryPolicy) : StateDef :=
  StateDef.compound "query" "question"
    |>.on .recognised [Support.helpTransition "query" cues]
    |>.on .recognised (cues.gated .subject .title ".understood" ".confirm_request")
    |>.on .recognised
      [cues.take (.entity "accept") .accept "#meeting.when",
       cues.take (.entity "decline") .decline "#init",
       { target := ".no_matches" }]
    |>.on .timeout (Support.timeoutTransitions "query" policy prompts)
    |>.containing
      [say "question" prompts.question "ask",
       understood,
       say "speak_result" prompts.answer "meet_person",
       say "meet_person" prompts.meetPerson "ask",
       say "no_results" prompts.noResults "question",
       ask,
       say "no_matches" prompts.notRecognised "ask",
       StateDef.history "hist",
       (heard "query" "confirm_request" .title "#query.understood" "#query.question" prompts).build
         cues prompts]

/-- A confirmation of the meeting branch that asks about more than one value. -/
def meetingConfirmation (name : String) (question : Template) (onAccept onDecline : String) :
    Confirmation where
  name := name
  question := question
  onAccept := onAccept
  onDecline := onDecline
  help := some "meeting"

def meeting (cues : Cues) (prompts : Prompts) (policy : RetryPolicy) : StateDef :=
  StateDef.compound "meeting" "start_meeting"
    |>.on .recognised [Support.helpTransition "meeting" cues]
    |>.on .recognised (cues.gated (.entity "title") .title ".when" ".confirm_what")
    |>.on .recognised (cues.gated (.entity "day") .day ".whole_day" ".confirm_when")
    |>.on .recognised (cues.gated (.entity "time") .time ".confirmation" ".confirm_time")
    |>.on .recognised [{ target := ".nomatch" }]
    |>.on .timeout (Support.timeoutTransitions "meeting" policy prompts)
    |>.containing
      [say "start_meeting" prompts.startMeeting "what",
       say "what" prompts.what "ask",
       say "when" prompts.when "ask",
       say "time" prompts.time "ask",
       ask,
       say "nomatch" prompts.notRecognised "ask",
       StateDef.history "hist",
       (meetingConfirmation "whole_day" prompts.wholeDay "#meeting.whole_day_confirmation"
         "#meeting.time").build cues prompts,
       (meetingConfirmation "whole_day_confirmation" prompts.confirmWholeDay "#meeting.finalized"
         "#meeting.what").build cues prompts,
       (meetingConfirmation "confirmation" prompts.confirmMeeting "#meeting.finalized"
         "#meeting.what").build cues prompts,
       say "finalized" prompts.finalized "#init",
       (heard "meeting" "confirm_what" .title "#meeting.when" "#meeting.what" prompts).build
         cues prompts,
       (heard "meeting" "confirm_when" .day "#meeting.whole_day" "#meeting.when" prompts).build
         cues prompts,
       (heard "meeting" "confirm_time" .time "#meeting.confirmation" "#meeting.time" prompts).build
         cues prompts]

def definition (resolver : Resolver) (config : Config) : ChartDef :=
  let cues : Cues := { resolver, threshold := config.confidenceThreshold }
  let prompts := config.prompts
  let policy := config.retryPolicy
  { initial := "idle"
    states :=
      [(StateDef.atomic "idle").on .click [{ target := "init" }],
       StateDef.atomic "init"
         |>.on .ttsReady [{ target := "welcome" }]
         |>.on .click [{ target := "welcome" }],
       welcome cues prompts policy,
       query cues prompts policy,
       meeting cues prompts policy]
      ++ Support.states "welcome" prompts.welcomeHelp policy prompts
      ++ Support.states "query" prompts.queryHelp policy prompts
      ++ Support.states "meeting" prompts.meetingHelp policy prompts }

end Appointment

inductive DialogueError where
  | chart (e : InvalidChart)
  | config (e : ConfigError)

def Appointment.chart (resolver : Resolver) (config : Config) : Except DialogueError Chart :=
  match config.validate with
  | .error e => .error (.config e)
  | .ok () => (definition resolver config).build.mapError .chart

end Dialogue
