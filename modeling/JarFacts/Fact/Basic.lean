import JarFacts.Fact.Kind

/-!
# Facts

What the extraction finds, one record for each thing: entities, relations between them, files, and
the parameters of methods.  Every fact carries the `Location` it was read from.  Absent information
is `none`.
-/

namespace JarFacts

/-- Where a fact was read: the package by the archive path, the source file, and the class file by
its dotted name.  Line numbers are part of the format but never filled in from class files. -/
structure Location where
  package : String
  file : Option String
  line : Option Nat
  classFile : Option String
  deriving DecidableEq

namespace Location

/-- The location of what belongs to no package. -/
def nowhere : Location := ⟨"", none, none, none⟩

/-- A class file of a package, its source file not yet known. -/
def ofClassFile (package classFile : String) : Location := ⟨package, none, none, some classFile⟩

end Location

/-- A declared package, type, field or method. -/
structure EntityFact where
  kind : EntityKind
  fqn : String
  name : Option String
  modifiers : UInt16
  rawSignature : Option String
  genericSignature : Option String
  location : Location
  deriving DecidableEq

namespace EntityFact

/-- An entity of which only kind, name and place are known. -/
def bare (kind : EntityKind) (fqn : String) (location : Location) : EntityFact :=
  ⟨kind, fqn, none, 0, none, none, location⟩

/-- Adds the simple name and the access flags. -/
def declared (fact : EntityFact) (name : String) (modifiers : UInt16) : EntityFact :=
  { fact with name := some name, modifiers := modifiers }

/-- Adds the raw parameter list and, where it differs from that, the generic one. -/
def withSignatures (fact : EntityFact) (raw : String) (generic : Option String) : EntityFact :=
  { fact with rawSignature := some raw, genericSignature := generic.filter (· ≠ raw) }

end EntityFact

/-- A relation between two entities. -/
structure RelationFact where
  kind : RelationKind
  source : String
  target : String
  location : Location
  deriving DecidableEq

/-- A file that was read. -/
structure FileFact where
  kind : FileKind
  name : String
  path : Option String
  location : Location
  deriving DecidableEq

/-- A parameter of a method. -/
structure VariableFact where
  kind : VariableKind
  name : String
  modifiers : UInt16
  typeFqn : String
  declaredAt : Location
  owner : String
  position : Nat
  usedAt : Location
  deriving DecidableEq

/-- The parameter of `owner` at a position.  Class files need not name parameters, so the name is
made from the position. -/
def VariableFact.parameter (owner : String) (position : Nat) (typeFqn : String)
    (location : Location) :
    VariableFact :=
  ⟨.param, "arg" ++ toString position, 0, typeFqn, location, owner, position, location⟩

/-- Any fact. -/
inductive Fact where
  | entity (fact : EntityFact)
  | relation (fact : RelationFact)
  | file (fact : FileFact)
  | param (fact : VariableFact)
  deriving DecidableEq

/-- How many facts there are of each family. -/
structure FactCounts where
  entities : Nat
  relations : Nat
  files : Nat
  params : Nat
  deriving DecidableEq

namespace FactCounts

/-- No facts. -/
def zero : FactCounts := ⟨0, 0, 0, 0⟩

/-- One fact more. -/
def count (counts : FactCounts) : Fact → FactCounts
  | .entity _ => { counts with entities := counts.entities + 1 }
  | .relation _ => { counts with relations := counts.relations + 1 }
  | .file _ => { counts with files := counts.files + 1 }
  | .param _ => { counts with params := counts.params + 1 }

/-- The facts of both. -/
def add (a b : FactCounts) : FactCounts :=
  ⟨a.entities + b.entities, a.relations + b.relations, a.files + b.files, a.params + b.params⟩

/-- All facts together. -/
def total (counts : FactCounts) : Nat :=
  counts.entities + counts.relations + counts.files + counts.params

/-- The counts of a list of facts. -/
def ofList (facts : List Fact) : FactCounts :=
  facts.foldl count zero

end FactCounts

end JarFacts
