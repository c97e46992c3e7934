/-
# Machine words and faults

The fixed-width integers of the C++ sources are bit vectors, so that every
addition, product and shift wraps where the source's does.

A read or write outside an array has no meaning in C++.  The model makes it a
fault of its own, `Fault.badAccess`, so that "never indexes outside an array" is
the statement that a run does not fail.
-/
import Mathlib

/-! ## Words -/

/-- `std::uint8_t`. -/
abbrev U8 := BitVec 8

/-- `std::uint16_t`. -/
abbrev U16 := BitVec 16

/-- `std::uint32_t`, and `unsigned`. -/
abbrev U32 := BitVec 32

/-- `std::uint64_t`, and `std::size_t`. -/
abbrev U64 := BitVec 64

/-- `static_cast<std::uint8_t>`. -/
abbrev u8 {w : ℕ} (value : BitVec w) : U8 := value.setWidth 8

/-- `static_cast<std::uint16_t>`. -/
abbrev u16 {w : ℕ} (value : BitVec w) : U16 := value.setWidth 16

/-- `static_cast<std::uint32_t>`. -/
abbrev u32 {w : ℕ} (value : BitVec w) : U32 := value.setWidth 32

/-- `static_cast<std::uint64_t>`. -/
abbrev u64 {w : ℕ} (value : BitVec w) : U64 := value.setWidth 64

/-- The common form of the four rotations: the count is reduced modulo the
width, as the sources do by masking it. -/
def rotl {w : ℕ} (value : BitVec w) (shift : ℕ) : BitVec w :=
  value.rotateLeft (shift % w)

abbrev rotl8 (value : U8) (shift : ℕ) : U8 := rotl value shift

abbrev rotl16 (value : U16) (shift : ℕ) : U16 := rotl value shift

abbrev rotl32 (value : U32) (shift : ℕ) : U32 := rotl value shift

abbrev rotl64 (value : U64) (shift : ℕ) : U64 := rotl value shift

/-- Byte `index` of a word, counted from the low end and reduced modulo the
number of bytes the caller names. -/
def wordByte {w : ℕ} (bytes : ℕ) (value : BitVec w) (index : ℕ) : U8 :=
  u8 (value >>> ((index % bytes) * 8))

abbrev byte16 (value : U16) (index : ℕ) : U8 := wordByte 2 value index

abbrev byte32 (value : U32) (index : ℕ) : U8 := wordByte 4 value index

abbrev byte64 (value : U64) (index : ℕ) : U8 := wordByte 8 value index

/-- `byte_at` of the A2 controller. -/
abbrev byteAt (value : U64) (index : ℕ) : U8 := byte64 value index

/-! ## Moduli -/

instance neZero_four : NeZero 4 := ⟨by decide⟩

instance neZero_eight : NeZero 8 := ⟨by decide⟩

instance neZero_sixteen : NeZero 16 := ⟨by decide⟩

instance neZero_thirtyTwo : NeZero 32 := ⟨by decide⟩

/-! ## Faults -/

/-- The standard exception classes the sources throw. -/
inductive ExceptionClass : Type where
  | invalidArgument
  | lengthError
  | logicError
  | outOfRange
  | overflowError
  | runtimeError
  | systemError
  deriving DecidableEq, Repr

/-- The ways a run can end without a value: a thrown exception with its text, an
access outside an array, or a value outside an enumeration. -/
inductive Fault : Type where
  | thrown (cls : ExceptionClass) (what : String)
  | badAccess
  | badEnumerator
  deriving DecidableEq, Repr

/-- The exception class of a fault, all that a caller's `catch` selects on. -/
def Fault.cls : Fault → Option ExceptionClass
  | thrown cls _ => some cls
  | badAccess => none
  | badEnumerator => none
