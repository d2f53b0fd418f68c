/-!
# Cutting text at a separator

Qualified names and paths are cut at their last separator, and lists are joined with one.  The
functions work on `List Char`, where the parts are plain sublists of the whole; the `String` forms
only convert.
-/

namespace JarFacts.Text

/-- The parts before and after the last `sep`, or nothing when `sep` does not occur. -/
def splitAtLast? (sep : Char) : List Char → Option (List Char × List Char)
  | [] => none
  | c :: rest =>
    match splitAtLast? sep rest with
    | some (before, after) => some (c :: before, after)
    | none => if c = sep then some ([], rest) else none

/-- Everything up to the last `sep`, and nothing when there is none: the enclosing name of a
qualified name. -/
def beforeLast (sep : Char) (text : String) : String :=
  match splitAtLast? sep text.toList with
  | some (before, _) => String.ofList before
  | none => ""

/-- Everything behind the last `sep`, and the whole text when there is none: the last segment of a
name. -/
def afterLast (sep : Char) (text : String) : String :=
  match splitAtLast? sep text.toList with
  | some (_, after) => String.ofList after
  | none => text

/-- The parts between the separators; there is one more of them than of these, and a part may be
empty. -/
def separated (sep : Char) : List Char → List (List Char)
  | [] => [[]]
  | c :: rest =>
    match separated sep rest with
    | [] => [[c]]
    | part :: parts => if c = sep then [] :: part :: parts else (c :: part) :: parts

/-- One character for another, everywhere. -/
def substitute (old new : Char) (text : List Char) : List Char :=
  text.map fun c => if c = old then new else c

/-- The texts one after the other with a comma between neighbours. -/
def commaSeparated (parts : List (List Char)) : List Char :=
  [','].intercalate parts

/-- What is left of `text` in front of the ending `ending`, if it ends so. -/
def dropEnding? (ending text : List Char) : Option (List Char) :=
  if ending.isSuffixOf text then some (text.take (text.length - ending.length)) else none

end JarFacts.Text
