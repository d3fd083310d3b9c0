import Dialogue.Context
import Dialogue.Text.Search
/-!
# Prompt templates

A template is a text with placeholders: a name in braces stands for a value of the context.  Braces
around nothing, around other braces, or left open stand for themselves.
-/

namespace Dialogue

inductive Segment where
  | text (chars : List Char)
  | field (name : String)
  deriving DecidableEq, Repr

structure Template where
  source : String
  deriving DecidableEq, Repr

instance : Coe String Template := ⟨Template.mk⟩

namespace Template

/-- Adds a text behind some parts.  A text that is the last of them goes on with it. -/
def pushText (parts : List Segment) (cs : List Char) : List Segment :=
  if cs = [] then parts
  else
    match parts.getLast? with
    | some (.text last) => parts.dropLast ++ [.text (last ++ cs)]
    | _ => parts ++ [.text cs]

@[semireducible]
def parse (parts : List Segment) (rest : List Char) : List Segment :=
  match _ : Text.splitFirst? '\x7b' rest with
  | none => pushText parts rest
  | some (before, inside) =>
    match _ : Text.splitFirst? '\x7d' inside with
    | none => pushText parts rest
    | some (inner, behind) =>
      let name := Text.trim inner
      -- this is no placeholder, but one may begin behind the brace
      if name = [] ∨ '\x7b' ∈ name then parse (pushText parts (before ++ ['\x7b'])) inside
      else parse (pushText parts before ++ [.field (String.ofList name)]) behind
  termination_by rest.length
  decreasing_by
  · exact Text.length_lt_of_splitFirst? ‹Text.splitFirst? _ rest = _›
  · exact Nat.lt_trans (Text.length_lt_of_splitFirst? ‹Text.splitFirst? _ inside = _›)
      (Text.length_lt_of_splitFirst? ‹Text.splitFirst? _ rest = _›)

def segments (t : Template) : List Segment :=
  parse [] t.source.toList

def fields (t : Template) : List String :=
  t.segments.filterMap fun
    | .field name => some name
    | .text _ => none

def isLiteral (t : Template) : Bool :=
  t.segments.all fun
    | .text _ => true
    | .field _ => false

theorem isLiteral_iff {t : Template} : t.isLiteral ↔ t.fields = [] := by
  rw [isLiteral, fields, List.all_eq_true, List.filterMap_eq_nil_iff]
  refine forall₂_congr fun part _ => ?_
  cases part <;> simp

/-- What a part stands for.  A value that is not set is empty. -/
def expand (ctx : Context) : Segment → List Char
  | .text cs => cs
  | .field name => ((ctx.field? name).getD "").toList

def render (t : Template) (ctx : Context) : String :=
  String.ofList (t.segments.flatMap (expand ctx))

end Template

end Dialogue
