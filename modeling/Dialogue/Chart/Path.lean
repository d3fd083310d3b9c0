import Dialogue.Text.Blank
/-!
# State paths

A state is named by its path from the root: the names on the way, joined by dots; the root's own
path is empty.  The target of a transition is absolute behind a `#`, below the declaring state
behind a dot, and otherwise a sibling of it.
-/

namespace Dialogue.Path

def rootName : String := "root"

def join (base rest : String) : String :=
  if base = "" then rest else base ++ "." ++ rest

def shown (path : String) : String :=
  if path = "" then "#root" else path

def after? (start text : List Char) : Option (List Char) :=
  start.isPrefixOf? text

def withoutRoot (path : List Char) : List Char :=
  (after? "root.".toList path).getD path

/-- The state that a text names: `#root.a.b`, `#a.b` and `a.b` are the same. -/
def canonical (raw : String) : String :=
  let raw := Text.trim raw.toList
  let path := (after? ['#'] raw).getD raw
  if path = rootName.toList then "" else String.ofList (withoutRoot path)

def names : List Char → List (List Char)
  | [] => [[]]
  | c :: cs =>
    match names cs with
    | [] => [[c]]
    | first :: rest => if c = '.' then [] :: first :: rest else (c :: first) :: rest

def wellFormed (path : List Char) : Bool :=
  (names path).all fun name => !Text.allBlank name

inductive Target where
  | absolute (path : String)
  | descendant (path : String)
  | sibling (path : String)
  deriving DecidableEq, Repr

namespace Target

def checked (target : String → Target) (path : List Char) : Option Target :=
  if wellFormed path then some (target (String.ofList path)) else none

def parse? (raw : String) : Option Target :=
  let raw := Text.trim raw.toList
  match after? ['#'] raw with
  | some path =>
    if path = rootName.toList then some (absolute "") else checked absolute (withoutRoot path)
  | none =>
    match after? ['.'] raw with
    | some path => checked descendant path
    | none => checked sibling raw

/-- The path of a target declared by the state at `declaring`, whose parent is at `parent`. -/
def resolve (declaring : String) (parent : Option String) : Target → String
  | absolute path => path
  | descendant path => join declaring path
  | sibling path => join (parent.getD declaring) path

end Target

end Dialogue.Path
