import Dialogue.Appointment.Support
/-!
# Confirmations

A confirmation asks a question, listens, and apologizes for what is neither yes nor no.  It decides
all turns by itself, so it can stand inside any branch and end anywhere.
-/

namespace Dialogue

structure Confirmation where
  name : String
  question : Template
  onAccept : String
  onDecline : String
  /-- The slot that is emptied if the user declines. -/
  candidate : Option Slot := none
  help : Option String := none

namespace Confirmation

/-- Says something, then goes on to the state `next` beside it. -/
def say (name : String) (text : Template) (next : String) : StateDef :=
  StateDef.atomic name
    |>.onEntry [.speak text]
    |>.on .endSpeech [{ target := next }]

def ask : StateDef :=
  (StateDef.atomic "ask").onEntry [.listen]

def decline (c : Confirmation) (cues : Cues) : TransitionDef :=
  { cues.take (.entity "decline") .decline c.onDecline with
    actions := cues.fill .decline (.entity "decline") :: c.candidate.toList.map Action.clear }

def build (c : Confirmation) (cues : Cues) (prompts : Prompts) : StateDef :=
  StateDef.compound c.name "prompt"
    |>.on .recognised (c.help.toList.map fun branch => Support.helpTransition branch cues)
    |>.on .recognised
      [cues.take (.entity "accept") .accept c.onAccept, c.decline cues, { target := ".nomatch" }]
    |>.containing
      [say "prompt" c.question "ask", ask, say "nomatch" prompts.notRecognised "ask"]

def heard (branch name : String) (candidate : Slot) (onAccept onDecline : String)
    (prompts : Prompts) : Confirmation where
  name := name
  question := prompts.confirmHeard
  onAccept := onAccept
  onDecline := onDecline
  candidate := some candidate
  help := some branch

end Confirmation

end Dialogue
