/-!
# Access flags

The bits of a class, field or method that decide how it is taken.  Only those are named; the whole
word is kept as the modifiers of the entity.
-/

namespace JarFacts.Access

/-- A method made by the compiler to bridge two erasures. -/
def bridge : UInt16 := 0x0040

/-- An interface. -/
def interface : UInt16 := 0x0200

/-- An abstract class or method. -/
def abstract : UInt16 := 0x0400

/-- Made by the compiler. -/
def synthetic : UInt16 := 0x1000

/-- An annotation type. -/
def annotationType : UInt16 := 0x2000

/-- An enum type, or one of its constants. -/
def enum : UInt16 := 0x4000

/-- A module descriptor. -/
def module : UInt16 := 0x8000

/-- The flags of every package descriptor, and of nothing else. -/
def packageDescriptor : UInt16 := interface ||| abstract ||| synthetic

/-- Are all bits of `bits` set? -/
def has (flags bits : UInt16) : Bool :=
  flags &&& bits == bits

end JarFacts.Access
