import Dialogue.Guard
import Dialogue.Template
/-!
# Actions

What happens when a state is entered or a transition taken: a directive is given or the context
changes.  Each action sees the changes of those before it.
-/

namespace Dialogue

/-- An assignment names what it assigns.  The event is missing where a dialogue begins. -/
inductive Action where
  | speak (prompt : Template)
  | listen
  | assign (field : String) (update : Context → Option Event → Context)

namespace Action

def fill (s : Slot) (value : Context → Option String) : Action :=
  assign s.name fun ctx _ => ctx.setSlot s (value ctx)

def clear (s : Slot) : Action :=
  fill s fun _ => none

def storeAnswer : Action :=
  assign "knowledge_base_result" fun ctx event => { ctx with answer := event.bind Event.answer? }

def run (event : Option Event) (ctx : Context) : Action → Context × List Directive
  | speak prompt => (ctx, [.speak (prompt.render ctx)])
  | listen => (ctx, [.listen])
  | assign _ update => (update ctx event, [])

def runAll (event : Option Event) (ctx : Context) : List Action → Context × List Directive
  | [] => (ctx, [])
  | a :: as =>
    let (ctx, first) := a.run event ctx
    let (ctx, rest) := runAll event ctx as
    (ctx, first ++ rest)

end Action

end Dialogue
