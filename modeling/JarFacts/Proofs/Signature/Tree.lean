import JarFacts.Signature.Declaration

/-!
# Trees of signatures

The trees behind field descriptors and generic signatures, with their two texts.  `print` is the
form found in class files (`Ljava/util/Map$Entry<TK;+[I>;`); `render` is the canonical dotted name
that facts carry (`java.util.Map$Entry<<K>,<?+int[]>>`).  `nesting` is the depth of argument lists
within argument lists, which readers bound.

A class type is a name followed by any sequence of argument lists and inner names.  Printing keeps
their order; rendering joins the inner names to the outer one with `$` and gathers all arguments
into a single list behind the whole name.

`ClassTree` and `MethodTree` are the trees of whole declarations, and `canonical` their names.
-/

namespace JarFacts.Signature

/-- The primitive types. -/
inductive BaseType where
  | byte
  | char
  | double
  | float
  | int
  | long
  | short
  | boolean
  deriving DecidableEq

namespace BaseType

/-- The letter that stands for the type in a descriptor. -/
def letter : BaseType → Char
  | byte => 'B'
  | char => 'C'
  | double => 'D'
  | float => 'F'
  | int => 'I'
  | long => 'J'
  | short => 'S'
  | boolean => 'Z'

/-- The keyword that names the type. -/
def keyword : BaseType → List Char
  | byte => "byte".toList
  | char => "char".toList
  | double => "double".toList
  | float => "float".toList
  | int => "int".toList
  | long => "long".toList
  | short => "short".toList
  | boolean => "boolean".toList

/-- The type a letter stands for. -/
def ofLetter? : Char → Option BaseType
  | 'B' => some byte
  | 'C' => some char
  | 'D' => some double
  | 'F' => some float
  | 'I' => some int
  | 'J' => some long
  | 'S' => some short
  | 'Z' => some boolean
  | _ => none

@[simp]
theorem ofLetter?_letter (b : BaseType) : ofLetter? b.letter = some b := by
  cases b <;> rfl

theorem letter_of_ofLetter? {c : Char} {b : BaseType} (h : ofLetter? c = some b) :
    c = b.letter := by
  unfold ofLetter? at h
  split at h <;> simp_all [letter] <;> subst h <;> rfl

end BaseType

mutual

/-- A type: primitive, `void`, type variable, class type or array. -/
inductive TypeTree where
  | base (type : BaseType)
  | void
  | var (name : List Char)
  | named (name : List Char) (suffixes : List ClassSuffix)
  | array (element : TypeTree)

/-- What may follow the name of a class type: a list of type arguments, or the name of an inner
class. -/
inductive ClassSuffix where
  | arguments (args : List TypeArgument)
  | inner (name : List Char)

/-- A type argument: any type, a type with an upper or a lower bound, or exactly one type. -/
inductive TypeArgument where
  | any
  | upper (bound : TypeTree)
  | lower (bound : TypeTree)
  | only (type : TypeTree)

end

/-! ## The class-file text -/

mutual

/-- The text of a type in a class file. -/
def TypeTree.print : TypeTree → List Char
  | .base b => [b.letter]
  | .void => ['V']
  | .var name => 'T' :: (name ++ [';'])
  | .named name suffixes => 'L' :: (name ++ (printSuffixes suffixes ++ [';']))
  | .array element => '[' :: element.print

/-- The text of the argument lists and inner names of a class type. -/
def printSuffixes : List ClassSuffix → List Char
  | [] => []
  | .arguments args :: rest => '<' :: (printArguments args ++ '>' :: printSuffixes rest)
  | .inner name :: rest => '.' :: (name ++ printSuffixes rest)

/-- The text between the angle brackets of an argument list. -/
def printArguments : List TypeArgument → List Char
  | [] => []
  | .any :: rest => '*' :: printArguments rest
  | .upper bound :: rest => '+' :: (bound.print ++ printArguments rest)
  | .lower bound :: rest => '-' :: (bound.print ++ printArguments rest)
  | .only type :: rest => type.print ++ printArguments rest

end

/-! ## The canonical name -/

/-- The full name of a class type: slashes become dots in the outer name, inner names follow a
`$`. -/
def fullName (name : List Char) (suffixes : List ClassSuffix) : List Char :=
  Text.substitute '/' '.' name ++
    suffixes.flatMap fun
      | .arguments _ => []
      | .inner inner => '$' :: inner

/-- The arguments in angle brackets, and nothing at all when there are none. -/
def bracketed (arguments : List (List Char)) : List Char :=
  if arguments.isEmpty then [] else '<' :: (Text.commaSeparated arguments ++ ['>'])

mutual

/-- The canonical name of a type. -/
def TypeTree.render : TypeTree → List Char
  | .base b => b.keyword
  | .void => "void".toList
  | .var name => '<' :: (name ++ ['>'])
  | .named name suffixes => fullName name suffixes ++ bracketed (renderSuffixes suffixes)
  | .array element => element.render ++ ['[', ']']

/-- The canonical names of all arguments of a class type, in order of appearance. -/
def renderSuffixes : List ClassSuffix → List (List Char)
  | [] => []
  | .arguments args :: rest => renderArguments args ++ renderSuffixes rest
  | .inner _ :: rest => renderSuffixes rest

/-- The canonical names of the arguments of one list. -/
def renderArguments : List TypeArgument → List (List Char)
  | [] => []
  | .any :: rest => "<?>".toList :: renderArguments rest
  | .upper bound :: rest => ("<?+".toList ++ (bound.render ++ ['>'])) :: renderArguments rest
  | .lower bound :: rest => ("<?-".toList ++ (bound.render ++ ['>'])) :: renderArguments rest
  | .only type :: rest => type.render :: renderArguments rest

end

/-! ## Depth of argument lists -/

mutual

/-- How deep argument lists stand within argument lists. -/
def TypeTree.nesting : TypeTree → Nat
  | .base _ => 0
  | .void => 0
  | .var _ => 0
  | .named _ suffixes => nestingSuffixes suffixes
  | .array element => element.nesting

/-- The deepest nesting among the argument lists of a class type. -/
def nestingSuffixes : List ClassSuffix → Nat
  | [] => 0
  | .arguments args :: rest => max (nestingArguments args + 1) (nestingSuffixes rest)
  | .inner _ :: rest => nestingSuffixes rest

/-- The deepest nesting among the arguments of one list. -/
def nestingArguments : List TypeArgument → Nat
  | [] => 0
  | .any :: rest => nestingArguments rest
  | .upper bound :: rest => max bound.nesting (nestingArguments rest)
  | .lower bound :: rest => max bound.nesting (nestingArguments rest)
  | .only type :: rest => max type.nesting (nestingArguments rest)

end

/-! ## Declarations -/

/-- A formal type parameter with its bounds as trees. -/
structure ParameterTree where
  name : List Char
  classBound : Option TypeTree
  interfaceBounds : List TypeTree

/-- A class signature as trees. -/
structure ClassTree where
  typeParameters : List ParameterTree
  superclass : TypeTree
  interfaces : List TypeTree

/-- A method signature or descriptor as trees. -/
structure MethodTree where
  typeParameters : List ParameterTree
  parameters : List TypeTree
  returnType : TypeTree
  exceptions : List TypeTree

/-- The canonical name of a tree. -/
def canonical (tree : TypeTree) : String :=
  String.ofList tree.render

/-- The formal type parameter with canonical names. -/
def ParameterTree.canonical (parameter : ParameterTree) : FormalTypeParameter :=
  ⟨String.ofList parameter.name,
    (parameter.classBound.toList ++ parameter.interfaceBounds).map Signature.canonical⟩

/-- The class signature with canonical names. -/
def ClassTree.canonical (tree : ClassTree) : ClassSignature :=
  ⟨tree.typeParameters.map ParameterTree.canonical, Signature.canonical tree.superclass,
    tree.interfaces.map Signature.canonical⟩

/-- The method signature with canonical names. -/
def MethodTree.canonical (tree : MethodTree) : MethodSignature :=
  ⟨tree.typeParameters.map ParameterTree.canonical, tree.parameters.map Signature.canonical,
    Signature.canonical tree.returnType, tree.exceptions.map Signature.canonical⟩

end JarFacts.Signature
