import JarFacts.Bytes.Basic

/-!
# Why a class file is refused

Any of these ends the reading of the class file it is found in, and of no other.
-/

namespace JarFacts

/-- What can be wrong inside an attribute. -/
inductive AttributeFault where
  | nestedTooDeep (limit : Nat)
  | unknownTag (tag : UInt8)
  deriving DecidableEq

/-- The fault in words; an unknown tag is shown as the character with that number. -/
def AttributeFault.message : AttributeFault → String
  | nestedTooDeep limit => "element values nested deeper than " ++ toString limit
  | unknownTag tag => "unknown element value tag '" ++ String.singleton
      (Char.ofNat tag.toNat) ++ "'"

/-- Why a class file is refused. -/
inductive ClassFileError where
  | unexpectedEof
  | invalidMagic
  | unsupportedConstant (tag : UInt8)
  | invalidConstantIndex (index : Nat)
  | invalidUtf8
  | invalidOpcode (opcode : UInt8) (offset : Nat)
  | malformedAttribute (name : String) (fault : AttributeFault)
  deriving DecidableEq

/-- The message for a refused class file. -/
def ClassFileError.message : ClassFileError → String
  | unexpectedEof => "unexpected end of class file"
  | invalidMagic => "invalid class file magic header"
  | unsupportedConstant tag => "unsupported constant pool tag " ++ toString tag.toNat
  | invalidConstantIndex index => "invalid constant pool index " ++ toString index
  | invalidUtf8 => "invalid modified UTF-8 string in constant pool"
  | invalidOpcode opcode offset =>
    "invalid opcode 0x" ++ String.ofList (Bytes.hexNumber 2 opcode.toNat) ++
      " at offset " ++ toString offset
  | malformedAttribute name fault => "malformed " ++ name ++ " attribute: " ++ fault.message

end JarFacts
