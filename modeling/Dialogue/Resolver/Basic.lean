import Dialogue.Context
/-!
# Resolvers

A resolver reads values out of the last turn.  A dialogue never looks at an utterance itself, so it
runs unchanged on any understanding of language.
-/

namespace Dialogue

structure Resolver where
  entity : Context → String → Option String
  /-- Whom the last turn asks about, if it is such a question. -/
  subject : Context → Option String

end Dialogue
