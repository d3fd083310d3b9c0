import Dialogue.Chart.Definition
/-!
# Silence

The user is asked again after a silence, and after so many silences in a row the dialogue starts
over.
-/

namespace Dialogue

structure RetryPolicy where
  maxTimeouts : UInt32 := 3
  deriving DecidableEq, Repr

namespace RetryPolicy

/-- The number of silences with one more; it stops at the largest that can be counted. -/
def nextCount (ctx : Context) : UInt32 :=
  match ctx.retryCount with
  | none => 1
  | some n => if n.toNat + 1 < UInt32.size then n + 1 else n

def escalates (p : RetryPolicy) (ctx : Context) : Bool :=
  decide (p.maxTimeouts ≤ nextCount ctx)

def record (ctx : Context) : Context :=
  { ctx with retryCount := some (nextCount ctx) }

def reset (ctx : Context) : Context :=
  ctx.cleared

def recordAction : Action :=
  .assign "retry_count" fun ctx _ => record ctx

def resetAction : Action :=
  .assign "retry_count" fun ctx _ => reset ctx

/-- What a silence leads to: at the limit, to `restart` with a farewell that no longer knows any
slot; before it, to `apology`. -/
def transitions (p : RetryPolicy) (restart apology : String) (farewell : Template) :
    List TransitionDef :=
  [{ target := restart
     guard := some (.onContext p.escalates)
     actions := [resetAction, .speak farewell] },
   { target := apology
     actions := [recordAction] }]

end RetryPolicy

end Dialogue
