import Dialogue.Text.LowerCase
/-!
# Utterances

What was heard is compared in one normal form: no white space at the start, no white space or
closing punctuation at the end, all lower case.
-/

namespace Dialogue

def isClosing (c : Char) : Bool :=
  Text.isBlank c || c == '.' || c == '?' || c == '!' || c == ','

def normalizeChars (cs : List Char) : List Char :=
  Text.toLower (Text.dropEndWhile isClosing (cs.dropWhile Text.isBlank))

/-- The normal form in which utterances, phrases and subjects are compared. -/
def normalize (text : String) : String :=
  String.ofList (normalizeChars text.toList)

end Dialogue
