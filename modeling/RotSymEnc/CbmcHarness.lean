/-
# The model-checked harness

`aead_harness.cpp` and `counter_harness.c`: the functions of `aead.cpp` compiled against the
bounded containers, with C1 and the MAC replaced by stubs that watch their callers and return
anything.  The checker unrolls the loops for payloads and associated data up to constant sizes; here
the constants are parameters.  The assertions hold for all inputs exactly where the frames and the
payload fit the containers, and every run of the real functions is one of the runs checked.
-/
import RotSymEnc.CbmcContainers
import RotSymEnc.AeadCorrectness

open StatefulRuns

namespace CbmcHarness

/-! ## Bounds and stubs -/

/-- The constants of the harness, and `PVC_CBMC_VECTOR_CAPACITY`. -/
structure Bounds : Type where
  maximumPayload : U64
  maximumAssociatedData : U64
  maximumFrameAssociatedData : U64
  vectorCapacity : U64

/-- `kMaximumPayload`, `kMaximumAssociatedData`, `kMaximumFrameAssociatedData` and the capacity. -/
def kBounds : Bounds := ⟨33, 8, 16, 80⟩

/-- The length of a vector's array. -/
abbrev Bounds.limit (bounds : Bounds) : ℕ := bounds.vectorCapacity.toNat

/-- The globals through which the stubs watch the run. -/
structure Globals : Type where
  insideOpen : Bool
  verifyCalled : Bool
  verifyResult : Bool
  prfCalls : U64

/-- `reset_stubs`. -/
def resetStubs (insideOpen : Bool) : Globals := ⟨insideOpen, false, false, 0⟩

/-- A run over the globals. -/
abbrev CbmcRun := EStateM Failure Globals

/-- What a run may choose: the output of each call of the PRF, what lies in the memory of the
vectors that are not written on construction, and the verdict on a tag. -/
structure Choices : Type where
  outputs : U64 → ResearchOutput
  memory : ℕ → U8
  tagMemory : ℕ → U8
  verdict : Bool

/-- `supported_tag_length`. -/
def supportedTagLength (size : U64) : Bool := size == 16 || size == 24 || size == 32

/-- `expected_blocks`. -/
def expectedBlocks (size : U64) : U64 := if size = 0 then 0 else 1 + (size - 1) / 32

/-- `nondet_tag_size`, from a selector below 3. -/
def nondetTagSize (selector : U8) : TagSize :=
  if selector = 0 then .bits128 else if selector = 1 then .bits192 else .bits256

section Stubs

variable {limit : ℕ}

/-- The assertions of the PRF stub while a message is opened. -/
def authenticatedFirst (globals : Globals) : Except Failure PUnit :=
  if globals.insideOpen then do
    cproverAssert (globals.verifyCalled = true)
      "open authenticates before the first decrypt block"
    cproverAssert (globals.verifyResult = true)
      "open only decrypts after successful verification"
  else .ok ()

/-- The stub `research_keyed_return_output_a2`. -/
def researchKeyedReturnOutputA2 (choices : Choices) (_key : ResearchKey256)
    (message : BoundedVector U8 limit) : CbmcRun ResearchOutput := do
  lift (cproverAssert (message.count = 48) "each C1 stream input is one complete StreamFrame")
  let globals ← get
  lift (authenticatedFirst globals)
  set { globals with prfCalls := globals.prfCalls + 1 }
  return choices.outputs globals.prfCalls

/-- The stub `compute_tag`. -/
def computeTag (choices : Choices) (_key : ResearchKey256)
    (_context _message : BoundedVector U8 limit) (tagSize : TagSize) :
    CbmcRun (BoundedVector U8 limit) := do
  lift (cproverAssert (supportedTagLength (tagSizeBytes tagSize) = true)
    "seal passes only a supported tag profile to M1")
  lift (BoundedVector.ofSize choices.tagMemory (tagSizeBytes tagSize))

/-- The stub `verify_tag`. -/
def verifyTag (choices : Choices) (_key : ResearchKey256) (_context : BoundedVector U8 limit)
    (_message suppliedTag : BoundedSpan U8) : CbmcRun Bool := do
  let globals ← get
  lift (cproverAssert (globals.verifyCalled = false) "open calls M1 verification once")
  lift (cproverAssert (supportedTagLength suppliedTag.size = true)
    "only a supported tag length reaches M1 verification")
  set { globals with verifyCalled := true, verifyResult := choices.verdict }
  return choices.verdict

end Stubs

/-! ## `aead.cpp`, on bounded containers -/

section Aead

variable {limit : ℕ}

/-- A throw of the code under check. -/
def faulted {α : Type} (x : Except Fault α) : Except Failure α := x.mapError .fault

/-- `operator[]` of `std::array`. -/
def arrayGet {T : Type} {n : ℕ} (array : Vector T n) (index : ℕ) : Except Failure T :=
  match array.toList[index]? with
  | some value => .ok value
  | none => .error (.assertion "std::array index is in bounds")

/-- `insert` at `end()`. -/
def insertEnd (source : BoundedSpan U8) :
    BoundedVector U8 limit → Except Failure (BoundedVector U8 limit) :=
  BoundedVector.insert (fun v => v.elements.length) source

/-- `append_u64_be`. -/
def appendU64Be (value : U64) (out : BoundedVector U8 limit) :
    Except Failure (BoundedVector U8 limit) :=
  [56, 48, 40, 32, 24, 16, 8, 0].foldlM
    (fun out shift => out.pushBack (u8 ((value >>> shift) &&& 0xFF))) out

/-- `kStreamFrameSize`. -/
def kStreamFrameSize : U64 := 48

/-- `frame_stream_block`. -/
def frameStreamBlock (nonce : Nonce192) (counter : U64) (tagSize : TagSize) :
    Except Failure (BoundedVector U8 limit) :=
  let tagBytes := tagSizeBytes tagSize
  if ¬ PvcAead0.isSupportedTagSize tagBytes then
    .error (.fault (.thrown .invalidArgument "unsupported PVC-AEAD-0 tag size"))
  else do
    let framed ← BoundedVector.empty.reserve kStreamFrameSize
    let framed ← insertEnd (.ofList PvcAead0.kMagic) framed
    let framed ← framed.pushBack PvcAead0.kSeparator
    let framed ← framed.pushBack PvcAead0.kFrameVersion
    let framed ← framed.pushBack PvcAead0.kRoleStream
    let framed ← framed.pushBack PvcAead0.kPrimitiveProfileC1
    let framed ← framed.pushBack (u8 tagBytes)
    let framed ← framed.pushBack PvcAead0.kReserved
    let framed ← insertEnd (.ofList nonce.toList) framed
    appendU64Be counter framed

/-- `frame_authentication_context`. -/
def frameAuthenticationContext (nonce : Nonce192) (associatedData : BoundedSpan U8)
    (tagSize : TagSize) : Except Failure (BoundedVector U8 limit) :=
  let tagBytes := tagSizeBytes tagSize
  if ¬ PvcAead0.isSupportedTagSize tagBytes then
    .error (.fault (.thrown .invalidArgument "unsupported PVC-AEAD-0 tag size"))
  else do
    faulted (PvcAead0.validateAuthenticationContextLength associatedData.size)
    let framed ← BoundedVector.empty.reserve (PvcAead0.kAuthFixedSize + associatedData.size)
    let framed ← insertEnd (.ofList PvcAead0.kMagic) framed
    let framed ← framed.pushBack PvcAead0.kSeparator
    let framed ← framed.pushBack PvcAead0.kFrameVersion
    let framed ← framed.pushBack PvcAead0.kRoleAuthentication
    let framed ← framed.pushBack PvcAead0.kPrimitiveProfileC1
    let framed ← framed.pushBack PvcAead0.kMacProfileM1
    let framed ← framed.pushBack (u8 tagBytes)
    let framed ← framed.pushBack PvcAead0.kReserved
    let framed ← insertEnd (.ofList nonce.toList) framed
    let framed ← appendU64Be (checkedU64Length associatedData.size) framed
    insertEnd associatedData framed

/-- The inner loop of `apply_keystream`. -/
def maskBytes (input : BoundedSpan U8) (stream : ResearchOutput) (offset : U64)
    (output : BoundedVector U8 limit) : Except Failure (BoundedVector U8 limit) :=
  let remaining := input.size - offset
  let take := if remaining < kBlockSize then remaining else kBlockSize
  (List.range take.toNat).foldlM (fun output i => do
    let byte ← input.get (offset.toNat + i)
    let mask ← arrayGet stream i
    output.set (offset.toNat + i) (byte ^^^ mask)) output

/-- One block of `apply_keystream`. -/
def maskBlock (choices : Choices) (key : ResearchKey256) (nonce : Nonce192)
    (input : BoundedSpan U8) (tagSize : TagSize) (output : BoundedVector U8 limit) (block : ℕ) :
    CbmcRun (BoundedVector U8 limit) := do
  let framed : BoundedVector U8 limit ←
    lift (frameStreamBlock nonce (BitVec.ofNat 64 block) tagSize)
  let stream ← researchKeyedReturnOutputA2 choices key framed
  lift (maskBytes input stream (BitVec.ofNat 64 block * kBlockSize) output)

/-- `apply_keystream`. -/
def applyKeystream (choices : Choices) (key : ResearchKey256) (nonce : Nonce192)
    (input : BoundedSpan U8) (tagSize : TagSize) : CbmcRun (BoundedVector U8 limit) := do
  let output ← lift (BoundedVector.ofSize choices.memory input.size)
  let blocks : U64 := if input.size = 0 then 0 else 1 + (input.size - 1) / kBlockSize
  (List.range blocks.toNat).foldlM (maskBlock choices key nonce input tagSize) output

/-- `struct SealedMessage`. -/
structure SealedVectors (limit : ℕ) : Type where
  ciphertext : BoundedVector U8 limit
  tag : BoundedVector U8 limit

/-- `seal`. -/
def sealMessage (choices : Choices) (keys : PvcAead0.KeyPair512) (nonce : Nonce192)
    (associatedData plaintext : BoundedSpan U8) (tagSize : TagSize) :
    CbmcRun (SealedVectors limit) := do
  let ciphertext ← applyKeystream choices keys.encryptionKey nonce plaintext tagSize
  let context ← lift (frameAuthenticationContext nonce associatedData tagSize)
  let macTagSize ← lift (faulted (PvcAead0.toMacTagSize tagSize))
  let tag ← computeTag choices keys.authenticationKey context ciphertext macTagSize
  return ⟨ciphertext, tag⟩

/-- `open`, behind the check of the tag size. -/
def openSupported (choices : Choices) (keys : PvcAead0.KeyPair512) (nonce : Nonce192)
    (associatedData ciphertext suppliedTag : BoundedSpan U8) (tagSize : TagSize) :
    CbmcRun (Option (BoundedVector U8 limit)) := do
  let context : BoundedVector U8 limit ←
    lift (frameAuthenticationContext nonce associatedData tagSize)
  let verified ← verifyTag choices keys.authenticationKey context ciphertext suppliedTag
  if ¬ verified then return none
  else return some (← applyKeystream choices keys.encryptionKey nonce ciphertext tagSize)

/-- `open`. -/
def openMessage (choices : Choices) (keys : PvcAead0.KeyPair512) (nonce : Nonce192)
    (associatedData ciphertext suppliedTag : BoundedSpan U8) :
    CbmcRun (Option (BoundedVector U8 limit)) :=
  if ¬ PvcAead0.isSupportedTagSize suppliedTag.size then return none
  else do
    let tagSize ← lift (faulted (PvcAead0.tagSizeFromBytes suppliedTag.size))
    openSupported choices keys nonce associatedData ciphertext suppliedTag tagSize

end Aead

/-! ## The harness -/

section Harness

variable (bounds : Bounds)

/-- An array of a constant length, and a size up to it. -/
structure SizedArray (maximum : U64) : Type where
  data : List U8
  size : U64
  length_eq : data.length = maximum.toNat
  size_le : size ≤ maximum

/-- The span of an array and a size. -/
def SizedArray.span {maximum : U64} (array : SizedArray maximum) : BoundedSpan U8 :=
  ⟨array.data, array.size⟩

/-- A selector that `nondet_tag_size` assumes. -/
structure Selector : Type where
  value : U8
  value_lt : value < 3

/-- What `verify_frames` leaves open. -/
structure FrameInputs : Type where
  nonce : Nonce192
  counter : U64
  selector : Selector
  associatedData : SizedArray bounds.maximumFrameAssociatedData

/-- What `verify_seal_lengths` leaves open. -/
structure SealInputs : Type where
  keys : PvcAead0.KeyPair512
  nonce : Nonce192
  associatedData : SizedArray bounds.maximumAssociatedData
  plaintext : SizedArray bounds.maximumPayload
  selector : Selector
  choices : Choices

/-- What `verify_open_control_flow` leaves open.  The size of the tag is not that of its array. -/
structure OpenInputs : Type where
  keys : PvcAead0.KeyPair512
  nonce : Nonce192
  associatedData : SizedArray bounds.maximumAssociatedData
  ciphertext : SizedArray bounds.maximumPayload
  tag : Vector U8 32
  tagSize : U64
  choices : Choices

variable {bounds}

/-- A loop of assertions. -/
def checkEach (count : ℕ) (check : ℕ → Except Failure PUnit) : Except Failure PUnit :=
  (List.range count).foldlM (fun _ index => check index) ()

/-- The assertions of `verify_frames` on the stream frame. -/
def checkStream {limit : ℕ} (stream : BoundedVector U8 limit) (nonce : Nonce192) (counter : U64)
    (tagBytes : U64) : Except Failure PUnit := do
  cproverAssert (stream.count = 48) "StreamFrame has exactly 48 bytes"
  let profile ← stream.get 14
  cproverAssert (u64 profile = tagBytes) "StreamFrame binds the tag profile"
  checkEach 24 fun index => do
    let byte ← stream.get (16 + index)
    let expected ← arrayGet nonce index
    cproverAssert (byte = expected) "StreamFrame preserves every nonce byte"
  checkEach 8 fun index => do
    let shift := (7 - index) * 8
    let byte ← stream.get (40 + index)
    cproverAssert (byte = u8 ((counter >>> shift) &&& 0xFF))
      "StreamFrame encodes the counter in big-endian order"

/-- The assertions of `verify_frames` on the authentication context. -/
def checkContext {limit : ℕ} (auth : BoundedVector U8 limit) (associatedData : BoundedSpan U8)
    (tagBytes : U64) : Except Failure PUnit := do
  cproverAssert (auth.count = 49 + associatedData.size)
    "AuthContext size equals its fixed prefix plus AD length"
  let profile ← auth.get 15
  cproverAssert (u64 profile = tagBytes) "AuthContext binds the tag profile"
  checkEach associatedData.size.toNat fun index => do
    let byte ← auth.get (49 + index)
    let expected ← associatedData.deref index
    cproverAssert (byte = expected) "AuthContext preserves every associated-data byte"

/-- `verify_frames`. -/
def verifyFrames (inputs : FrameInputs bounds) : Except Failure PUnit := do
  let tagSize := nondetTagSize inputs.selector.value
  let stream : BoundedVector U8 bounds.limit ←
    frameStreamBlock inputs.nonce inputs.counter tagSize
  checkStream stream inputs.nonce inputs.counter (tagSizeBytes tagSize)
  let auth : BoundedVector U8 bounds.limit ←
    frameAuthenticationContext inputs.nonce inputs.associatedData.span tagSize
  checkContext auth inputs.associatedData.span (tagSizeBytes tagSize)

/-- `verify_seal_lengths`. -/
def verifySealLengths (inputs : SealInputs bounds) : CbmcRun PUnit := do
  let tagSize := nondetTagSize inputs.selector.value
  set (resetStubs false)
  let sealed : SealedVectors bounds.limit ← sealMessage inputs.choices inputs.keys inputs.nonce
    inputs.associatedData.span inputs.plaintext.span tagSize
  let globals ← get
  lift (cproverAssert (sealed.ciphertext.count = inputs.plaintext.size)
    "seal preserves the plaintext length")
  lift (cproverAssert (sealed.tag.count = tagSizeBytes tagSize)
    "seal returns the selected tag length")
  lift (cproverAssert (globals.prfCalls = expectedBlocks inputs.plaintext.size)
    "seal derives exactly one stream block per payload block")

/-- The assertions of `verify_open_control_flow`. -/
def checkOpened {limit : ℕ} (opened : Option (BoundedVector U8 limit)) (globals : Globals)
    (tagSize ciphertextSize : U64) : Except Failure PUnit :=
  if ¬ supportedTagLength tagSize then do
    cproverAssert (globals.verifyCalled = false)
      "an invalid tag length cannot enter verification"
    cproverAssert (globals.prfCalls = 0) "an invalid tag length cannot enter decryption"
    cproverAssert (opened.isNone = true) "an invalid tag length cannot return plaintext"
  else if ¬ globals.verifyResult then do
    cproverAssert (globals.verifyCalled = true) "a valid tag length is verified"
    cproverAssert (globals.prfCalls = 0) "a failed verification cannot enter decryption"
    cproverAssert (opened.isNone = true) "a failed verification cannot return plaintext"
  else do
    cproverAssert (globals.verifyCalled = true) "successful open performed verification"
    cproverAssert (opened.isSome = true) "successful verification returns plaintext"
    cproverAssert (opened.elim 0 BoundedVector.count = ciphertextSize)
      "open success preserves the ciphertext length"
    cproverAssert (globals.prfCalls = expectedBlocks ciphertextSize)
      "open derives exactly one stream block per payload block"

/-- `verify_open_control_flow`. -/
def verifyOpenControlFlow (inputs : OpenInputs bounds) : CbmcRun PUnit := do
  set (resetStubs true)
  let opened : Option (BoundedVector U8 bounds.limit) ← openMessage inputs.choices inputs.keys
    inputs.nonce inputs.associatedData.span inputs.ciphertext.span
    ⟨inputs.tag.toList, inputs.tagSize⟩
  let globals ← get
  lift (checkOpened opened globals inputs.tagSize inputs.ciphertext.size)

end Harness

/-! ## The counter -/

/-- A result that fits, or the failure that `--unsigned-overflow-check` reports. -/
def checkedWord (value : ℤ) : Except Failure U64 :=
  if 0 ≤ value ∧ value < 2 ^ 64 then .ok (BitVec.ofInt 64 value)
  else .error (.assertion "arithmetic overflow on unsigned")

/-- `blocks` of `counter_harness.c`. -/
def counterBlocks (payloadLength : U64) : Except Failure U64 :=
  if payloadLength = 0 then .ok 0
  else do
    let last ← checkedWord (payloadLength.toNat - 1)
    checkedWord (1 + (last / 32).toNat)

/-- The assertions of `counter_harness.c` on the last block. -/
def checkFinalCounter (payloadLength blocks : U64) : Except Failure PUnit := do
  let finalCounter ← checkedWord (blocks.toNat - 1)
  cproverAssert (finalCounter < BitVec.allOnes 64)
    "the final stream counter is representable without wrap"
  let offset ← checkedWord (finalCounter.toNat * 32)
  let last ← checkedWord (payloadLength.toNat - 1)
  cproverAssert (offset ≤ last) "the final stream offset remains inside the payload"

/-- `main` of `counter_harness.c`. -/
def counterHarness (payloadLength : U64) : Except Failure PUnit := do
  let blocks ← counterBlocks payloadLength
  cproverAssert (blocks ≤ (1 : U64) <<< 59) "every admissible payload uses at most 2^59 blocks"
  cproverAssert (blocks < BitVec.allOnes 64)
    "the size_t loop bound cannot wrap a 64-bit counter"
  if blocks ≠ 0 then checkFinalCounter payloadLength blocks else .ok ()

end CbmcHarness
