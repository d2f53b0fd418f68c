import JarFacts.Toml.Value

/-!
# Tables under construction

A document says what stands in its tables piece by piece, in any order, and the rules on what may be
said twice depend on how a table came to be: by a header of its own, by the header of a table below
it, or by a dotted key.

* A header makes a table, or claims one that so far only the headers of deeper tables have implied.
* A dotted key goes through tables that dotted keys have made, or that are implied, and makes those
  that are missing.  The table its last part goes into has to be one that dotted keys have made.
* Of an array of tables, the last one is meant.
-/

namespace JarFacts.Toml

/-- How a table came to be. -/
inductive Origin where
  /-- By its own header, or as a value. -/
  | stated
  /-- By the header of a table below it. -/
  | implied
  /-- By a dotted key. -/
  | dotted
  deriving DecidableEq

/-- What stands under a key of a document. -/
inductive Section where
  | value (value : Toml)
  | table (origin : Origin) (members : List (String × Section))
  | tables (elements : List (List (String × Section)))

namespace Section

/-- The members of a table. -/
abbrev Members := List (String × Section)

/-- The members with another one under a key. -/
def put (members : Members) (key : String) (entry : Section) : Members :=
  if (members.lookup key).isSome then
    members.map fun member => if member.1 = key then (key, entry) else member
  else members ++ [(key, entry)]

/-- Changes the table that a path of keys leads to.  Tables that are missing come to be as `making`
says. -/
def within (making : Origin) (change : Origin → Members → Option Members) :
    List String → Origin → Members → Option Members
  | [], origin, members => change origin members
  | key :: path, _, members =>
    match members.lookup key with
    | none => do
      let inner ← within making change path making []
      return put members key (.table making inner)
    | some (.value _) => none
    | some (.tables elements) => do
      let last ← elements.getLast?
      let inner ← within making change path .stated last
      return put members key (.tables (elements.dropLast ++ [inner]))
    | some (.table origin inner) =>
      if making = .dotted ∧ origin = .stated then none
      else do
        let inner ← within making change path origin inner
        return put members key (.table origin inner)

/-- Sets the value of a key, given by the parts in front of its last one and that. -/
def assign (path : List String) (key : String) (value : Toml) (origin : Origin)
    (members : Members) :
    Option Members :=
  within .dotted (fun origin members =>
    if (origin = .dotted) = path.isEmpty then none
    else if (members.lookup key).isSome then none
    else some (members ++ [(key, .value value)])) path origin members

/-- Makes or claims the table of a header. -/
def openTable (path : List String) (key : String) (members : Members) : Option Members :=
  within .implied (fun _ members =>
    match members.lookup key with
    | none => some (members ++ [(key, .table .stated [])])
    | some (.table .implied inner) => some (put members key (.table .stated inner))
    | some _ => none) path .stated members

/-- Adds a table to the array of tables of a header. -/
def openElement (path : List String) (key : String) (members : Members) : Option Members :=
  within .implied (fun _ members =>
    match members.lookup key with
    | none => some (members ++ [(key, .tables [[]])])
    | some (.tables elements) => some (put members key (.tables (elements ++ [[]])))
    | some _ => none) path .stated members

mutual

/-- The finished value. -/
def finished : Section → Toml
  | .value content => content
  | .table _ members => .table (finishedMembers members)
  | .tables elements => .array (finishedElements elements)

/-- The finished members of a table. -/
def finishedMembers : Members → List (String × Toml)
  | [] => []
  | (key, entry) :: members => (key, finished entry) :: finishedMembers members

/-- The finished tables of an array. -/
def finishedElements : List Members → List Toml
  | [] => []
  | element :: elements => .table (finishedMembers element) :: finishedElements elements

end

end Section

end JarFacts.Toml
