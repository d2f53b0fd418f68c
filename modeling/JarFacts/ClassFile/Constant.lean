import JarFacts.Bytes.ModifiedUtf8
import JarFacts.ClassFile.Reader

/-!
# The constant pool

Everything a class file names stands in its pool and is referred to by slot number.  Slot 0 holds
nothing, and an eight-byte constant takes two slots, the second of which holds nothing either.  A
look-up wants a constant of one kind; a slot of another kind, without a constant, or past the end is
an invalid index, and a chain of references reports the link that failed.
-/

namespace JarFacts.ClassFile

/-- A pool entry.  References are slot numbers. -/
inductive Constant where
  | utf8 (text : String)
  | integer (value : Int)
  | float (bits : Nat)
  | long (value : Int)
  | double (bits : Nat)
  | classRef (name : Nat)
  | string (text : Nat)
  | memberRef (owner nameAndType : Nat)
  | nameAndType (name descriptor : Nat)
  /-- A constant nothing refers to. -/
  | other
  /-- A slot without a constant. -/
  | unusable
  deriving DecidableEq

/-- The slots of a pool, slot 0 included. -/
structure ConstantPool where
  slots : Array Constant

/-- A reference to a field or method of some class. -/
structure MemberRef where
  /-- The internal name of the owner, or an array descriptor. -/
  owner : String
  name : String
  descriptor : String
  deriving DecidableEq

/-- The value of a constant field.  Floating-point numbers are kept as their bits. -/
inductive ConstantValue where
  | int (value : Int)
  | long (value : Int)
  | float (bits : Nat)
  | double (bits : Nat)
  | string (text : String)
  deriving DecidableEq

namespace Reader

/-- The next constant. -/
def constant : Reader Constant := do
  let tag ← u1
  match tag.toNat with
  | 1 =>
    let bytes ← take (← u2)
    match ModifiedUtf8.decode? bytes with
    | some text => return .utf8 (String.ofList text)
    | none => throw .invalidUtf8
  | 3 => return .integer (Bytes.signed32 (← u4))
  | 4 => return .float (← u4)
  | 5 => return .long (Bytes.signed64 (Bytes.bigEndian (← take 8)))
  | 6 => return .double (Bytes.bigEndian (← take 8))
  | 7 => return .classRef (← u2)
  | 8 => return .string (← u2)
  | 9 | 10 | 11 =>
    let owner ← u2
    return .memberRef owner (← u2)
  | 12 =>
    let name ← u2
    return .nameAndType name (← u2)
  | 15 =>
    skip 3
    return .other
  | 16 | 19 | 20 =>
    skip 2
    return .other
  | 17 | 18 =>
    skip 4
    return .other
  | _ => throw (.unsupportedConstant tag)

end Reader

/-- The slots a constant takes. -/
def Constant.slots : Constant → List Constant
  | c@(.long _) | c@(.double _) => [c, .unusable]
  | c => [c]

namespace ConstantPool

/-- Constants until `count` slots are filled.  Every constant fills a slot, so `rounds` need not
exceed `count`. -/
def fill (count : Nat) : (rounds : Nat) → Array Constant → Reader (Array Constant)
  | 0, slots => return slots
  | rounds + 1, slots => do
    if slots.size < count then
      let constant ← Reader.constant
      fill count rounds (slots ++ constant.slots)
    else return slots

/-- Reads a pool. -/
def read : Reader ConstantPool := do
  let count ← Reader.u2
  return ⟨← fill count count #[.unusable]⟩

/-- The constant in a slot. -/
def get (pool : ConstantPool) (index : Nat) : Except ClassFileError Constant :=
  match pool.slots[index]? with
  | some constant => .ok constant
  | none => .error (.invalidConstantIndex index)

/-- The text in a slot. -/
def utf8 (pool : ConstantPool) (index : Nat) : Except ClassFileError String := do
  match ← pool.get index with
  | .utf8 text => .ok text
  | _ => .error (.invalidConstantIndex index)

/-- The internal name of the class in a slot. -/
def className (pool : ConstantPool) (index : Nat) : Except ClassFileError String := do
  match ← pool.get index with
  | .classRef name => pool.utf8 name
  | _ => .error (.invalidConstantIndex index)

/-- The internal name of the class in a slot, where slot 0 stands for no class. -/
def className? (pool : ConstantPool) (index : Nat) : Except ClassFileError (Option String) :=
  if index = 0 then .ok none else some <$> pool.className index

/-- The name and descriptor in a slot. -/
def nameAndType (pool : ConstantPool) (index : Nat) : Except ClassFileError (String × String) := do
  match ← pool.get index with
  | .nameAndType name descriptor =>
    let name ← pool.utf8 name
    return (name, ← pool.utf8 descriptor)
  | _ => .error (.invalidConstantIndex index)

/-- The field or method referred to in a slot. -/
def member (pool : ConstantPool) (index : Nat) : Except ClassFileError MemberRef := do
  match ← pool.get index with
  | .memberRef owner nameAndType =>
    let owner ← pool.className owner
    let (name, descriptor) ← pool.nameAndType nameAndType
    return ⟨owner, name, descriptor⟩
  | _ => .error (.invalidConstantIndex index)

/-- The value in a slot, for a constant field. -/
def constantValue (pool : ConstantPool) (index : Nat) : Except ClassFileError ConstantValue := do
  match ← pool.get index with
  | .integer value => return .int value
  | .float bits => return .float bits
  | .long value => return .long value
  | .double bits => return .double bits
  | .string text => return .string (← pool.utf8 text)
  | _ => .error (.invalidConstantIndex index)

end ConstantPool

/-- What the slot named by the next two bytes holds. -/
def Reader.slot {α : Type} (lookUp : Nat → Except ClassFileError α) : Reader α := do
  ofExcept (lookUp (← u2))

end JarFacts.ClassFile
