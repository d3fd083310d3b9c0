import Dialogue.Appointment.Chart
import Dialogue.Engine.Step
/-!
# Sessions

A session answers the lookups of its engine from a knowledge base, so that whoever talks to it only
sees what is spoken and when to listen.
-/

namespace Dialogue

structure Session where
  engine : Engine
  knowledge : KnowledgeBase

namespace Session

/-- The answer to a lookup.  A lookup that fails finds nothing. -/
def answer (k : KnowledgeBase) (subject : String) : Answer :=
  match k.lookup subject with
  | .ok answer => answer
  | .error _ => .blank

def completions (k : KnowledgeBase) (directives : List Directive) : List Event :=
  directives.filterMap fun
    | .lookup ticket subject => some (.lookupDone ticket (answer k subject))
    | _ => none

def speech (directives : List Directive) : List Directive :=
  directives.filter fun d => d.lookup?.isNone

/-- Answers a queue of events and every completion that joins its end, in at most `bound` events;
nothing if the queue is not empty then. -/
def drain (bound : Nat) (k : KnowledgeBase) (e : Engine) (queue : List Event) :
    Option (Engine × List Directive) :=
  match bound, queue with
  | _, [] => some (e, [])
  | 0, _ :: _ => none
  | bound + 1, event :: queue =>
    let (e, result) := e.step event
    (drain bound k e (queue ++ completions k result.directives)).map
      fun r => (r.1, speech result.directives ++ r.2)

def dispatchWithin (bound : Nat) (s : Session) (event : Event) :
    Option (Session × List Directive) :=
  (drain bound s.knowledge s.engine [event]).map fun r => ({ s with engine := r.1 }, r.2)

def appointment (resolver : Resolver) (config : Config) (k : KnowledgeBase) :
    Except DialogueError Session := do
  let chart ← Appointment.chart resolver config
  pure { engine := .start chart (.withCapacity config.journalCapacity), knowledge := k }

end Session

end Dialogue
