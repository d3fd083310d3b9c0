import Dialogue.Chart.Definition
import Dialogue.Resolver.Basic
/-!
# Cues

A cue is something that a turn can carry.  Guards ask whether it does, actions keep what it carries,
and a turn heard with too little confidence is led to a question first.
-/

namespace Dialogue

inductive Cue where
  | entity (category : String)
  /-- Whom a question is about. -/
  | subject
  deriving DecidableEq, Repr

structure Cues where
  resolver : Resolver
  threshold : Float

namespace Cues

def read? (c : Cues) (cue : Cue) (ctx : Context) : Option String :=
  match cue with
  | .entity category => c.resolver.entity ctx category
  | .subject => c.resolver.subject ctx

def present (c : Cues) (cue : Cue) : Guard :=
  .onContext fun ctx => (c.read? cue ctx).isSome

def confident (c : Cues) : Guard :=
  .confidenceAtLeast c.threshold

def fill (c : Cues) (s : Slot) (cue : Cue) : Action :=
  .fill s (c.read? cue)

def take (c : Cues) (cue : Cue) (s : Slot) (target : String) : TransitionDef :=
  { target, guard := some (c.present cue), actions := [c.fill s cue] }

/-- Where a cue leads if it was heard with enough confidence, and where if not.  It is kept in
slot `s` either way. -/
def gated (c : Cues) (cue : Cue) (s : Slot) (confident tentative : String) :
    List TransitionDef :=
  [{ target := confident
     guard := some ((c.present cue).and c.confident)
     actions := [c.fill s cue] },
   { target := tentative
     guard := some ((c.present cue).and c.confident.negate)
     actions := [c.fill s cue] }]

end Cues

end Dialogue
