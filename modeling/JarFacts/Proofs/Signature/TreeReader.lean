import JarFacts.Proofs.Signature.Tree

/-!
# Reading trees

A second reader of the grammar, which makes a tree of what it reads and leaves the names to
`render`. It takes the same steps in the same order as the reader that puts the names together, and
is the form in which the grammar is reasoned about; that nothing is lost in this is shown in
`Naming`.
-/

namespace JarFacts.Signature

namespace Parser

mutual

/-- A type. -/
def typeWith (voidAllowed : Bool) (depth : Nat) : (rounds : Nat) → Parser TypeTree
  | 0 => throw .truncated
  | rounds + 1 => do
    let position := (← get).position
    let c ← next
    if c = '[' then
      return .array (← typeWith voidAllowed depth rounds)
    else if c = 'L' then
      let outer ← name ['<', '.', ';']
      return .named outer (← suffixesWith depth rounds)
    else if c = 'T' then
      let name ← name [';']
      expect ';'
      return .var name
    else if c = 'V' ∧ voidAllowed then
      return .void
    else
      match BaseType.ofLetter? c with
      | some b => return .base b
      | none => refuse c position

/-- The argument lists and inner names of a class type, and the semicolon that ends it. -/
def suffixesWith (depth : Nat) : (rounds : Nat) → Parser (List ClassSuffix)
  | 0 => throw .truncated
  | rounds + 1 => do
    let position := (← get).position
    let c ← next
    if c = '<' then
      if depth + 1 > maxNesting then throw (.tooDeep (← get).position)
      let args ← argumentsWith (depth + 1) rounds
      return .arguments args :: (← suffixesWith depth rounds)
    else if c = '.' then
      let inner ← name ['<', '.', ';']
      return .inner inner :: (← suffixesWith depth rounds)
    else if c = ';' then
      return []
    else refuse c position

/-- The arguments of an open list, and the bracket that closes it. -/
def argumentsWith (depth : Nat) : (rounds : Nat) → Parser (List TypeArgument)
  | 0 => throw .truncated
  | rounds + 1 => do
    match ← peek with
    | none => throw .truncated
    | some '>' =>
      discard next
      return []
    | some '*' =>
      discard next
      return .any :: (← argumentsWith depth rounds)
    | some '+' =>
      discard next
      let bound ← typeWith false depth rounds
      return .upper bound :: (← argumentsWith depth rounds)
    | some '-' =>
      discard next
      let bound ← typeWith false depth rounds
      return .lower bound :: (← argumentsWith depth rounds)
    | some _ =>
      let type ← typeWith false depth rounds
      return .only type :: (← argumentsWith depth rounds)

end

/-- A type; `void` counts as one where it is allowed. -/
def typeTree (voidAllowed : Bool) : Parser TypeTree := do
  typeWith voidAllowed 0 (← rounds)

/-- Bounds behind colons, as many as there are. -/
def interfaceBounds : (rounds : Nat) → Parser (List TypeTree)
  | 0 => return []
  | rounds + 1 => do
    if (← peek) = some ':' then
      discard next
      let bound ← typeTree false
      return bound :: (← interfaceBounds rounds)
    else return []

/-- A formal type parameter: a name, a colon, perhaps a class bound, and any interface bounds. -/
def typeParameter : Parser ParameterTree := do
  let name ← name [':']
  expect ':'
  let following ← peek
  let classBound ← if following = some ':' ∨ following = some '>' then pure none
    else some <$> typeTree false
  return ⟨name, classBound, ← interfaceBounds (← rounds)⟩

/-- Formal type parameters up to the bracket that closes their list; there is at least one. -/
def typeParametersTail : (rounds : Nat) → Parser (List ParameterTree)
  | 0 => throw .truncated
  | rounds + 1 => do
    let parameter ← typeParameter
    if (← peek) = some '>' then
      discard next
      return [parameter]
    else return parameter :: (← typeParametersTail rounds)

/-- The formal type parameters, none when no list opens. -/
def typeParameters : Parser (List ParameterTree) := do
  if (← peek) = some '<' then
    discard next
    typeParametersTail (← rounds)
  else return []

/-- Types up to the end of the text. -/
def typesToEnd : (rounds : Nat) → Parser (List TypeTree)
  | 0 => return []
  | rounds + 1 => do
    if (← peek).isNone then return []
    let type ← typeTree false
    return type :: (← typesToEnd rounds)

/-- Types up to the parenthesis that closes a parameter list. -/
def typesToParenthesis : (rounds : Nat) → Parser (List TypeTree)
  | 0 => throw .truncated
  | rounds + 1 => do
    if (← peek) = some ')' then
      discard next
      return []
    let type ← typeTree false
    return type :: (← typesToParenthesis rounds)

/-- Thrown types, each behind a caret, up to the end of the text. -/
def exceptionsToEnd : (rounds : Nat) → Parser (List TypeTree)
  | 0 => return []
  | rounds + 1 => do
    if (← peek).isNone then return []
    expect '^'
    let type ← typeTree false
    return type :: (← exceptionsToEnd rounds)

/-- A class signature. -/
def classTree : Parser ClassTree := do
  let typeParameters ← typeParameters
  let superclass ← typeTree false
  return ⟨typeParameters, superclass, ← typesToEnd (← rounds)⟩

/-- A method signature or descriptor. -/
def methodTree : Parser MethodTree := do
  let typeParameters ← typeParameters
  expect '('
  let parameters ← typesToParenthesis (← rounds)
  let returnType ← typeTree true
  return ⟨typeParameters, parameters, returnType, ← exceptionsToEnd (← rounds)⟩

end Parser

/-- The tree of a field descriptor or field type signature. -/
def parseType (signature : String) : Except SignatureError TypeTree :=
  (Parser.typeTree false).runOn signature

end JarFacts.Signature
