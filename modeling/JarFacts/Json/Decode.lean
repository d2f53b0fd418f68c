import JarFacts.Json.Value

/-!
# Records in JSON

How records are read from JSON values.  A record is an object whose members stand in any order, or
an array of all its members in declaration order.  Members nobody asks for are ignored; a member
that is asked for must not stand twice.  A closed vocabulary is read from the name of one of its
words, or from an object with that name as its only member and null as its value.
-/

namespace JarFacts.Json

/-- The members of a record by name. -/
abbrev Members := String → Option Json

/-- The value of the named member; standing twice is an error. -/
def member? (members : List (String × Json)) (name : String) : Option (Option Json) :=
  match members.filter fun entry => entry.1 = name with
  | [] => some none
  | [(_, value)] => some (some value)
  | _ => none

/-- The members of a record with the given member names. -/
def record? (names : List String) : Json → Option Members
  | .object members =>
    if names.all fun name => (member? members name).isSome then
      some fun name => (member? members name).join
    else none
  | .array items =>
    if items.length = names.length then some fun name => (names.zip items).lookup name else none
  | _ => none

/-- The members of a record of which any may be missing; an array may end early. -/
def partialRecord? (names : List String) : Json → Option Members
  | .array items =>
    if items.length ≤ names.length then some fun name => (names.zip items).lookup name else none
  | json => record? names json

/-- A member that has to be there. -/
def required {α : Type} (members : Members) (name : String) (decode : Json → Option α) : Option α :=
  (members name).bind decode

/-- A member that may be missing or null. -/
def maybe {α : Type} (members : Members) (name : String) (decode : Json → Option α) :
    Option (Option α) :=
  match members name with
  | none => some none
  | some .null => some none
  | some json => some <$> decode json

/-- A member that may be missing, with a value for that case. -/
def orElse {α : Type} (members : Members) (name : String) (decode : Json → Option α) (default : α) :
    Option α :=
  match members name with
  | none => some default
  | some json => decode json

/-- A text. -/
def text? : Json → Option String
  | .string text => some text
  | _ => none

/-- A truth value. -/
def bool? : Json → Option Bool
  | .bool value => some value
  | _ => none

/-- A natural number below `2 ^ bits`. -/
def unsigned? (bits : Nat) : Json → Option Nat
  | .int value => if 0 ≤ value ∧ value.toNat < Nat.pow 2 bits then some value.toNat else none
  | _ => none

/-- A list. -/
def list? {α : Type} (decode : Json → Option α) : Json → Option (List α)
  | .array items => items.mapM decode
  | _ => none

/-- A word of a closed vocabulary. -/
def word? {α : Type} (ofName? : String → Option α) : Json → Option α
  | .string name => ofName? name
  | .object [(name, .null)] => ofName? name
  | _ => none

end JarFacts.Json
