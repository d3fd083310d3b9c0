import Dialogue.Config
import Dialogue.Cue
/-!
# Help and silence

Each branch of the assistant has two states beside it: one speaks help, one apologizes for not
hearing.  Both lead back into the branch, to where it was interrupted.
-/

namespace Dialogue.Support

def restart : String := "#idle"

def helpName (branch : String) : String :=
  branch ++ "_help"

def timeoutName (branch : String) : String :=
  branch ++ "_timeout"

def resumption (branch : String) : String :=
  "#" ++ branch ++ ".hist"

def helpTransition (branch : String) (cues : Cues) : TransitionDef :=
  cues.take (.entity "help") .help ("#" ++ helpName branch)

def timeoutTransitions (branch : String) (policy : RetryPolicy) (prompts : Prompts) :
    List TransitionDef :=
  policy.transitions restart ("#" ++ timeoutName branch) prompts.reset

/-- A state that says something and then leads back into the branch. -/
def interlude (name branch : String) (text : Template) (policy : RetryPolicy)
    (prompts : Prompts) : StateDef :=
  StateDef.atomic name
    |>.onEntry [.speak text]
    |>.on .endSpeech [{ target := resumption branch }]
    |>.on .timeout (timeoutTransitions branch policy prompts)

def states (branch : String) (help : Template) (policy : RetryPolicy) (prompts : Prompts) :
    List StateDef :=
  [interlude (helpName branch) branch help policy prompts,
   interlude (timeoutName branch) branch prompts.timeout policy prompts]

end Dialogue.Support
