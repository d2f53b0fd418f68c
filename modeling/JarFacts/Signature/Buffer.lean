import JarFacts.Text.Split

/-!
# Canonical names under construction

A `Buffer` collects the canonical name of one type while the type is read.  The pieces arrive in the
order of the class-file text, which is not the order of the name: dimensions are announced in front
of the element type, and argument lists may stand between the name of a class and the names of its
inner classes.  So they are kept apart, and `finish` puts them together.
-/

namespace JarFacts.Signature

/-- What was read of a type so far: the text of its name, the names of its arguments, the number of
its dimensions, and the sign of the bound it is read for. -/
structure Buffer where
  result : List Char := []
  args : List (List Char) := []
  dimensions : Nat := 0
  wildcard : Option Char := none

namespace Buffer

/-- The buffer for the bound of a type argument. -/
def bounded (wildcard : Char) : Buffer :=
  { wildcard := some wildcard }

/-- One more dimension of an array. -/
def addDimension (buffer : Buffer) : Buffer :=
  { buffer with dimensions := buffer.dimensions + 1 }

/-- The keyword of a primitive type. -/
def baseType (buffer : Buffer) (name : List Char) : Buffer :=
  { buffer with result := buffer.result ++ name }

/-- A type variable, in angle brackets. -/
def typeVariable (buffer : Buffer) (name : List Char) : Buffer :=
  { buffer with result := buffer.result ++ '<' :: (name ++ ['>']) }

/-- The internal name of a class, with dots for slashes. -/
def classType (buffer : Buffer) (internalName : List Char) : Buffer :=
  { buffer with result := buffer.result ++ Text.substitute '/' '.' internalName }

/-- The name of an inner class, behind a `$`. -/
def innerClassType (buffer : Buffer) (name : List Char) : Buffer :=
  { buffer with result := buffer.result ++ '$' :: name }

/-- The canonical name of one more argument. -/
def addArgument (buffer : Buffer) (arg : List Char) : Buffer :=
  { buffer with args := buffer.args ++ [arg] }

/-- The canonical name: behind the text all arguments in one list, then the dimensions, and the sign
of a bound around everything. -/
def finish (buffer : Buffer) : List Char :=
  let named :=
    if buffer.args.isEmpty then buffer.result
    else buffer.result ++ '<' :: (Text.commaSeparated buffer.args ++ ['>'])
  let out := named ++ (List.replicate buffer.dimensions ['[', ']']).flatten
  match buffer.wildcard with
  | some sign => '<' :: '?' :: sign :: (out ++ ['>'])
  | none => out

end Buffer

/-- The keyword of the primitive type that a letter stands for. -/
def baseTypeName? : Char → Option (List Char)
  | 'B' => some "byte".toList
  | 'C' => some "char".toList
  | 'D' => some "double".toList
  | 'F' => some "float".toList
  | 'I' => some "int".toList
  | 'J' => some "long".toList
  | 'S' => some "short".toList
  | 'Z' => some "boolean".toList
  | _ => none

end JarFacts.Signature
