import Verdict.Pattern.Search
import Verdict.Text.Trim

namespace Verdict

/-- A piece of a template, in which `$name` and `${name}` stand for the text of a group and `$$` for
a dollar sign. -/
inductive TemplatePart where
  | text (c : Char)
  | group (name : List Char)
  deriving DecidableEq, Repr

namespace TemplatePart

/-- The characters of a name that follows a dollar sign without braces. -/
def isNameChar (c : Char) : Bool :=
  c.isAlphanum || c == '_'

/-- Reads a template. The longest run of name characters after a dollar sign is a name; a dollar
sign before anything else, or before a brace that is not closed, stands for itself. `skip` counts
the characters that belong to what has been read. -/
def read : Nat → List Char → List TemplatePart
  | _, [] => []
  | skip + 1, _ :: rest => read skip rest
  | 0, '$' :: rest =>
    match rest with
    | '$' :: _ => text '$' :: read 1 rest
    | '\x7b' :: body =>
      let name := body.takeWhile (· != '\x7d')
      if name.length < body.length then group name :: read (name.length + 2) rest
      else text '$' :: read 0 rest
    | _ =>
      let name := rest.takeWhile isNameChar
      if name.isEmpty then text '$' :: read 0 rest else group name :: read name.length rest
  | 0, c :: rest => text c :: read 0 rest

end TemplatePart

namespace Regex

/-- The text of a group in a match, empty when there is no such group or it took no part. A name
that is a number is the number of a group. -/
def groupText (re : Regex) (segment : Segment) (name : List Char) : List Char :=
  match readWord? name <|> re.names.lookup (String.ofList name) with
  | some 0 => segment.matched
  | some n => (segment.groups.lookup n).getD []
  | none => []

/-- Fills in a template for a match. -/
def expand (re : Regex) (template : List TemplatePart) (segment : Segment) : List Char :=
  template.flatMap fun
    | .text c => [c]
    | .group name => re.groupText segment name

/-- Replaces matches by a text, which is a template if the pattern has groups. -/
def replaceBy (re : Regex) (all : Bool) (replacement s : List Char) : List Char :=
  if re.groupCount > 1 then
    let template := TemplatePart.read 0 replacement
    re.replace all (re.expand template) s
  else re.replace all (fun _ => replacement) s

end Regex

end Verdict
