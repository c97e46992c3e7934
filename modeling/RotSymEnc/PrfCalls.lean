/-
# Calls of the PRF

The authenticated encryption and its MAC use Candidate C1 as a black box.  A run
above C1 keeps the list of the calls it made, in order: the key and the input of
each.  What every layer above shares is here: the tag sizes, the sealed message,
the comparison of tags and the loop that masks a buffer with C1 outputs.
-/
import RotSymEnc.ReachableStates
import RotSymEnc.Buffers

open StatefulRuns

/-! ## Runs that call C1 -/

/-- One call of `research_keyed_return_output_a2`. -/
structure PrfCall : Type where
  key : ResearchKey256
  input : List U8
  deriving DecidableEq

/-- A run that calls C1.  The state is the list of the calls made so far. -/
abbrev PrfRun := EStateM Fault (List PrfCall)

/-- `research_keyed_return_output_a2`, with the call noted. -/
def callC1 (key : ResearchKey256) (input : List U8) : PrfRun ResearchOutput := do
  modify fun calls => calls ++ [⟨key, input⟩]
  lift (c1 key input)

/-- What a run returns to its caller, or the exception that leaves it. -/
def PrfRun.returned {α : Type} (x : PrfRun α) : Except Fault α :=
  match x.run [] with
  | .ok a _ => .ok a
  | .error fault _ => .error fault

/-- The calls a run makes, whether it returns or throws. -/
def PrfRun.calls {α : Type} (x : PrfRun α) : List PrfCall :=
  match x.run [] with
  | .ok _ calls => calls
  | .error _ calls => calls

/-- The value of a result that is known not to be a fault. -/
def valueOr {α : Type} (default : α) : Except Fault α → α
  | .ok a => a
  | .error _ => default

/-- The output of C1, which always returns. -/
@[irreducible] def c1Output (key : ResearchKey256) (input : List U8) : ResearchOutput :=
  valueOr (Vector.replicate 32 0) (c1 key input)

theorem c1_eq (key : ResearchKey256) (input : List U8) :
    c1 key input = .ok (c1Output key input) := by
  obtain ⟨output, h⟩ := c1_ok key input
  have hvalue : c1Output key input = output := by
    unfold c1Output
    exact congrArg (valueOr (Vector.replicate 32 0)) h
  rw [h, hvalue]

theorem callC1_run (key : ResearchKey256) (input : List U8) (calls : List PrfCall) :
    (callC1 key input).run calls = .ok (c1Output key input) (calls ++ [⟨key, input⟩]) := by
  rw [callC1, EStateM.run_bind, EStateM.run_modify, c1_eq]
  rfl

/-! ## Tag sizes and sealed messages -/

/-- `enum class TagSize : std::uint8_t`, the same in every library.  A raw value
need not be one of the three enumerators. -/
structure TagSize : Type where
  value : U8
  deriving DecidableEq, Repr

namespace TagSize

/-- `TagSize::Bits128`. -/
def bits128 : TagSize := ⟨16⟩

/-- `TagSize::Bits192`. -/
def bits192 : TagSize := ⟨24⟩

/-- `TagSize::Bits256`. -/
def bits256 : TagSize := ⟨32⟩

end TagSize

/-- `tag_size_bytes`. -/
def tagSizeBytes (tagSize : TagSize) : U64 := u64 tagSize.value

/-- The common form of the five `is_supported_tag_size`. -/
def supportedBytes (bytes : U64) : Bool := bytes == 16 || bytes == 24 || bytes == 32

/-- The common form of the five `tag_size_from_bytes`, which differ in the text. -/
def tagSizeOfBytes (what : String) (bytes : U64) : Except Fault TagSize :=
  if bytes = 16 then .ok .bits128
  else if bytes = 24 then .ok .bits192
  else if bytes = 32 then .ok .bits256
  else .error (.thrown .invalidArgument what)

/-- The common form of the conversions between the libraries' `TagSize`: a
`switch` over the enumerators, and a throw behind it. -/
def convertTagSize (what : String) (tagSize : TagSize) : Except Fault TagSize :=
  if tagSize = .bits128 then .ok .bits128
  else if tagSize = .bits192 then .ok .bits192
  else if tagSize = .bits256 then .ok .bits256
  else .error (.thrown .invalidArgument what)

/-- `struct SealedMessage`. -/
structure SealedMessage : Type where
  ciphertext : List U8
  tag : List U8
  deriving DecidableEq, Repr

/-- `Nonce192`. -/
abbrev Nonce192 := Vector U8 24

/-- `std::numeric_limits<std::size_t>::max()`. -/
def maxSize : U64 := BitVec.allOnes 64

/-- `checked_u64_length`: with a `std::size_t` of 64 bits the check is compiled out. -/
def checkedU64Length (bytes : U64) : U64 := bytes

/-! ## Truncated and compared outputs -/

/-- The first bytes of a C1 output, copied into a vector. -/
def firstBytes (output : ResearchOutput) (length : U64) : Except Fault (List U8) :=
  if length ≤ 32 then .ok (output.toList.take length.toNat) else .error .badAccess

/-- The comparison loop of `verify_tag`: the differences of all bytes are
accumulated, whatever they are. -/
def tagMatches (expected : ResearchOutput) (suppliedTag : List U8) : Except Fault Bool := do
  let difference ← (List.range suppliedTag.length).foldlM (fun (difference : U8) i => do
    let e ← readAt expected.toList i
    let s ← readAt suppliedTag i
    return difference ||| (e ^^^ s)) 0
  return difference == 0

/-! ## The keystream loop -/

/-- `kBlockSize`. -/
def kBlockSize : U64 := 32

/-- The inner loop: from `offset` on, up to 32 bytes of the input are masked. -/
def xorBytes (input : List U8) (stream : ResearchOutput) (offset : U64) (output : List U8) :
    Except Fault (List U8) :=
  let remaining := size input - offset
  let take := if remaining < kBlockSize then remaining else kBlockSize
  (List.range take.toNat).foldlM (fun output i => do
    let byte ← readAt input (offset.toNat + i)
    let mask ← readAt stream.toList i
    storeAt output (offset.toNat + i) (byte ^^^ mask)) output

/-- One block of the loop in `apply_keystream` and `xor_keystream`. -/
def xorBlock (frame : U64 → Except Fault (List U8)) (key : ResearchKey256) (input output : List U8)
    (block : ℕ) : PrfRun (List U8) := do
  let framed ← lift (frame (BitVec.ofNat 64 block))
  let stream ← callC1 key framed
  lift (xorBytes input stream (BitVec.ofNat 64 block * kBlockSize) output)

/-- The common form of `apply_keystream` and `xor_keystream`, which differ in the
frame of a block and in how they count the blocks. -/
def xorStream (frame : U64 → Except Fault (List U8)) (key : ResearchKey256) (input : List U8)
    (blocks : U64) : PrfRun (List U8) :=
  (List.range blocks.toNat).foldlM (xorBlock frame key input) (List.replicate input.length 0)
