import JarFacts.Bytes.Utf8

/-!
# Why a signature is refused

Readers of signatures stop at the first fault.  A `Fault` is found without looking at the signature
as a whole; `Fault.inside` adds the text it was found in, which most messages quote.
-/

namespace JarFacts.Signature

/-- A fault at a place of a signature.  Positions count bytes of the UTF-8 form. -/
inductive Fault where
  | truncated
  | unexpected (found : UInt8) (position : Nat)
  | trailing (position : Nat)
  | tooDeep (position : Nat)
  deriving DecidableEq

end JarFacts.Signature

namespace JarFacts

/-- Why a signature or a type name is refused. -/
inductive SignatureError where
  | truncated (signature : String)
  | unexpected (signature : String) (found : UInt8) (position : Nat)
  | trailing (signature : String) (position : Nat)
  | empty
  | tooDeep (limit position : Nat)
  deriving DecidableEq

namespace SignatureError

/-- The message for a refused signature; an unexpected byte is shown as the character with that
number. -/
def message : SignatureError → String
  | truncated signature => "signature '" ++ signature ++ "' ends unexpectedly"
  | unexpected signature found position =>
    "unexpected '" ++ String.singleton (Char.ofNat found.toNat) ++ "' at " ++ toString position ++
      " in signature '" ++ signature ++ "'"
  | trailing signature position =>
    "trailing input at " ++ toString position ++ " in signature '" ++ signature ++ "'"
  | empty => "empty type name"
  | tooDeep limit position =>
    "type arguments nested deeper than " ++ toString limit ++ " at " ++ toString position

end SignatureError

namespace Signature

/-- The deepest nesting of argument lists that is read. -/
def maxNesting : Nat := 256

/-- The fault, with the signature it was found in. -/
def Fault.inside (signature : String) : Fault → SignatureError
  | truncated => .truncated signature
  | unexpected found position => .unexpected signature found position
  | trailing position => .trailing signature position
  | tooDeep position => .tooDeep maxNesting position

end Signature

end JarFacts
