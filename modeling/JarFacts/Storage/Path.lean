import JarFacts.Text.Split

/-!
# Paths

A path is the text it was given as, and is shown as such.  What it means is a list of components:
slashes may be repeated or stand at the end, and a single dot means something only at the very
beginning.  Two paths are the same when their components are, and they are ordered component by
component.

The last component is the file name.  Its last dot divides it into stem and extension, unless that
dot is its first character.
-/

namespace JarFacts.Path

/-- A step of a path. -/
inductive Component where
  /-- The slash that makes a path absolute. -/
  | root
  /-- A single dot in front. -/
  | current
  /-- Two dots. -/
  | parent
  | normal (name : String)
  deriving DecidableEq

/-- The texts between the slashes. -/
def segments (path : String) : List String :=
  (Text.separated '/' path.toList).map String.ofList

/-- Does the path start at the root? -/
def isAbsolute (path : String) : Bool :=
  path.toList.head? = some '/'

/-- What a segment behind the first means: nothing if it is empty or a dot. -/
def component? (segment : String) : Option Component :=
  if segment = "" ∨ segment = "." then none
  else if segment = ".." then some .parent
  else some (.normal segment)

/-- The steps of a path. -/
def components (path : String) : List Component :=
  match segments path with
  | [] => []
  | first :: rest =>
    let head :=
      if isAbsolute path then some Component.root
      else if first = "." then some .current
      else component? first
    head.toList ++ rest.filterMap component?

/-- Do two paths mean the same? -/
def same (a b : String) : Bool :=
  components a == components b

/-! ## Order -/

/-- The place of a kind of step among the others. -/
def Component.rank : Component → Nat
  | root => 0
  | current => 1
  | parent => 2
  | normal _ => 3

/-- Steps in order: by kind, and names by their characters. -/
def Component.precedes (a b : Component) : Bool :=
  match a, b with
  | normal x, normal y => x < y
  | _, _ => a.rank < b.rank

/-- The order of lists of steps: the first difference decides, and otherwise the shorter list comes
first. -/
def componentsLe : List Component → List Component → Bool
  | [], _ => true
  | _ :: _, [] => false
  | a :: as, b :: bs =>
    if a.precedes b then true else if b.precedes a then false else componentsLe as bs

/-- The order of paths. -/
def le (a b : String) : Bool :=
  componentsLe (components a) (components b)

/-! ## Parts -/

/-- The last step, if it is a name. -/
def fileName? (path : String) : Option String :=
  match (components path).getLast? with
  | some (.normal name) => some name
  | _ => none

/-- Stem and extension of a file name. -/
def splitName (name : String) : String × Option String :=
  match Text.splitAtLast? '.' name.toList with
  | none | some ([], _) => (name, none)
  | some (stem, extension) => (String.ofList stem, some (String.ofList extension))

/-- The file name without its extension. -/
def stem? (path : String) : Option String :=
  (fileName? path).map fun name => (splitName name).1

/-- The extension of the file name. -/
def extension? (path : String) : Option String :=
  (fileName? path).bind fun name => (splitName name).2

/-- `path` below `base`.  A slash is added where one is missing; an absolute path stands for
itself. -/
def join (base path : String) : String :=
  if isAbsolute path then path
  else if base = "" ∨ base.toList.getLast? = some '/' then base ++ path
  else base ++ "/" ++ path

/-- Segments given last first, without those at the end that mean nothing. -/
def dropIdle (reversed : List String) : List String :=
  match reversed with
  | [] => []
  | [first] => if first = "" then [] else [first]
  | last :: rest => if (component? last).isNone then dropIdle rest else last :: rest

/-- The path without its last step, as far as there is one besides the root. -/
def parent? (path : String) : Option String :=
  let absolute := isAbsolute path
  let body := if absolute then (segments path).drop 1 else segments path
  let strip := fun reversed : List String =>
    if absolute then reversed.dropWhile fun segment => (component? segment).isNone
    else dropIdle reversed
  match strip body.reverse with
  | [] => none
  | _ :: rest => some ((if absolute then "/" else "") ++ "/".intercalate (strip rest).reverse)

end JarFacts.Path
