/-!
# Kinds of facts

The closed vocabularies that facts are written in.  Each kind has one stable name, the spelling used
in every output; `ofName?` reads a name back.
-/

namespace JarFacts

/-- What an entity is. -/
inductive EntityKind where
  | package
  | classType
  | interface
  | enum
  | annotationType
  | field
  | enumConstant
  | method
  | constructor
  | initializer
  | annotationElement
  deriving DecidableEq

namespace EntityKind

/-- The stable name of the kind. -/
def name : EntityKind → String
  | package => "PACKAGE"
  | classType => "CLASS"
  | interface => "INTERFACE"
  | enum => "ENUM"
  | annotationType => "ANNOTATION"
  | field => "FIELD"
  | enumConstant => "ENUM_CONSTANT"
  | method => "METHOD"
  | constructor => "CONSTRUCTOR"
  | initializer => "INITIALIZER"
  | annotationElement => "ANNOTATION_ELEMENT"

/-- Every kind. -/
def all : List EntityKind :=
  [package, classType, interface, enum, annotationType, field, enumConstant, method,
    constructor, initializer, annotationElement]

/-- The kind with the given name. -/
def ofName? (name : String) : Option EntityKind :=
  all.find? fun kind => kind.name = name

theorem mem_all (kind : EntityKind) : kind ∈ all := by
  cases kind <;> decide

theorem ofName?_name (kind : EntityKind) : ofName? kind.name = some kind := by
  cases kind <;> decide

end EntityKind

/-- The three groups of relations. -/
inductive RelationCategory where
  /-- How declarations are laid out. -/
  | structural
  /-- What the type system relates. -/
  | typeSystem
  /-- What method bodies do. -/
  | behavioral
  deriving DecidableEq

namespace RelationCategory

/-- The stable name of the category. -/
def name : RelationCategory → String
  | structural => "Structural"
  | typeSystem => "TypeSystem"
  | behavioral => "Behavioral"

/-- Every category. -/
def all : List RelationCategory := [structural, typeSystem, behavioral]

/-- The category with the given name. -/
def ofName? (name : String) : Option RelationCategory :=
  all.find? fun category => category.name = name

end RelationCategory

/-- How one entity relates to another. -/
inductive RelationKind where
  /-- A class extends a class. -/
  | extends
  /-- A type implements an interface. -/
  | implements
  /-- An entity is declared inside another. -/
  | inside
  /-- An entity carries an annotation. -/
  | annotatedBy
  /-- A field holds values of a type. -/
  | holds
  /-- A body writes a field. -/
  | writes
  /-- A body reads a field. -/
  | reads
  /-- A body calls a method. -/
  | calls
  /-- A method declares that it throws a type. -/
  | throws
  /-- A body casts to a type. -/
  | casts
  /-- A body tests whether a value is an instance of a type. -/
  | checks
  /-- A body creates an instance of a class. -/
  | instantiates
  /-- A method returns a type. -/
  | returns
  /-- A declaration has a formal type parameter. -/
  | parametrizedBy
  deriving DecidableEq

namespace RelationKind

/-- The stable name of the kind. -/
def name : RelationKind → String
  | .extends => "EXTENDS"
  | implements => "IMPLEMENTS"
  | inside => "INSIDE"
  | annotatedBy => "ANNOTATED_BY"
  | holds => "HOLDS"
  | writes => "WRITES"
  | reads => "READS"
  | calls => "CALLS"
  | throws => "THROWS"
  | casts => "CASTS"
  | checks => "CHECKS"
  | instantiates => "INSTANTIATES"
  | returns => "RETURNS"
  | parametrizedBy => "PARAMETRIZED_BY"

/-- Every kind. -/
def all : List RelationKind :=
  [.extends, implements, inside, annotatedBy, holds, writes, reads, calls, throws, casts,
    checks, instantiates, returns, parametrizedBy]

/-- The kind with the given name. -/
def ofName? (name : String) : Option RelationKind :=
  all.find? fun kind => kind.name = name

theorem mem_all (kind : RelationKind) : kind ∈ all := by
  cases kind <;> decide

theorem ofName?_name (kind : RelationKind) : ofName? kind.name = some kind := by
  cases kind <;> decide

/-- The group the relation belongs to. -/
def category : RelationKind → RelationCategory
  | inside | annotatedBy => .structural
  | .extends | implements | holds | throws | returns | parametrizedBy => .typeSystem
  | writes | reads | calls | casts | checks | instantiates => .behavioral

end RelationKind

/-- What a file fact is about. -/
inductive FileKind where
  /-- A class file inside an archive. -/
  | classFile
  /-- The archive itself. -/
  | jar
  deriving DecidableEq

namespace FileKind

/-- The stable name of the kind. -/
def name : FileKind → String
  | classFile => "CLASS"
  | jar => "JAR"

/-- The kind with the given name. -/
def ofName? (name : String) : Option FileKind :=
  [classFile, jar].find? fun kind => kind.name = name

theorem ofName?_name (kind : FileKind) : ofName? kind.name = some kind := by
  cases kind <;> decide

end FileKind

/-- What a local variable is; only the parameters of methods are recorded. -/
inductive VariableKind where
  | param
  deriving DecidableEq

namespace VariableKind

/-- The stable name of the kind. -/
def name : VariableKind → String
  | param => "PARAM"

/-- The kind with the given name. -/
def ofName? (name : String) : Option VariableKind :=
  [param].find? fun kind => kind.name = name

theorem ofName?_name (kind : VariableKind) : ofName? kind.name = some kind := by
  cases kind; decide

end VariableKind

end JarFacts
