/-
# The independent implementation

The second implementation of the MAC and of the authenticated encryption, under
`independent/cpp_spec`.  It shares only C1 with the reference: frames are stored
at fixed offsets into a zeroed buffer of the final size, and the blocks are
counted by rounding up.
-/
import RotSymEnc.PrfCalls

open StatefulRuns

/-! ## The MAC -/

namespace PvcMac0Independent

/-- `kFixedPrefix`: the magic, the separator, the version, the primitive profile,
and zeros where the tag size and the reserved byte go. -/
def kFixedPrefix : List U8 :=
  [0x50, 0x56, 0x43, 0x2D, 0x4D, 0x41, 0x43, 0x2D, 0x30, 0x00, 0x01, 0xC1, 0x00, 0x00]

def kHeaderBytes : U64 := 30
def kTagOffset : ℕ := 12
def kContextLengthOffset : ℕ := 14
def kMessageLengthOffset : ℕ := 22

/-- `to_u64_length`: with a `std::size_t` of 64 bits the check is compiled out. -/
def toU64Length (bytes : U64) : U64 := bytes

/-- `checked_tag_size`. -/
def checkedTagSize (bytes : U64) : Except Fault TagSize :=
  tagSizeOfBytes "PVC-MAC-0 independent tag size must be 16, 24, or 32 bytes" bytes

/-- `is_supported_tag_size`. -/
def isSupportedTagSize (bytes : U64) : Bool := supportedBytes bytes

/-- `frame_message`. -/
def frameMessage (context message : List U8) (tagSize : TagSize) : Except Fault (List U8) := do
  let tagBytes := tagSizeBytes tagSize
  let _ ← checkedTagSize tagBytes
  if size context > maxSize - kHeaderBytes then
    throw (.thrown .lengthError "PVC-MAC-0 independent frame size overflows size_t")
  let prefixAndContext := kHeaderBytes + size context
  if size message > maxSize - prefixAndContext then
    throw (.thrown .lengthError "PVC-MAC-0 independent frame size overflows size_t")
  let framed ← copyTo (List.replicate (prefixAndContext + size message).toNat 0) 0 kFixedPrefix
  let framed ← storeAt framed kTagOffset (u8 tagBytes)
  let framed ← storeU64Be framed kContextLengthOffset (toU64Length (size context))
  let framed ← storeU64Be framed kMessageLengthOffset (toU64Length (size message))
  let framed ← copyTo framed kHeaderBytes.toNat context
  copyTo framed (kHeaderBytes + size context).toNat message

/-- `compute_full_output`. -/
def computeFullOutput (key : ResearchKey256) (context message : List U8) (tagSize : TagSize) :
    PrfRun ResearchOutput := do
  let framed ← lift (frameMessage context message tagSize)
  callC1 key framed

/-- `compute_tag`. -/
def computeTag (key : ResearchKey256) (context message : List U8) (tagSize : TagSize) :
    PrfRun (List U8) := do
  let full ← computeFullOutput key context message tagSize
  lift (firstBytes full (tagSizeBytes tagSize))

/-- `verify_tag`. -/
def verifyTag (key : ResearchKey256) (context message suppliedTag : List U8) : PrfRun Bool := do
  if ¬ isSupportedTagSize (size suppliedTag) then return false
  let tagSize ← lift (checkedTagSize (size suppliedTag))
  let expected ← computeFullOutput key context message tagSize
  lift (tagMatches expected suppliedTag)

end PvcMac0Independent

/-! ## The authenticated encryption -/

namespace PvcAead0Independent

/-- `kStreamPrefix`. -/
def kStreamPrefix : List U8 :=
  [0x50, 0x56, 0x43, 0x2D, 0x41, 0x45, 0x41, 0x44, 0x2D, 0x30,
    0x00, 0x01, 0x53, 0xC1, 0x00, 0x00]

/-- `kAuthPrefix`. -/
def kAuthPrefix : List U8 :=
  [0x50, 0x56, 0x43, 0x2D, 0x41, 0x45, 0x41, 0x44, 0x2D, 0x30,
    0x00, 0x01, 0x41, 0xC1, 0xD1, 0x00, 0x00]

def kStreamFrameBytes : ℕ := 48
def kStreamTagOffset : ℕ := 14
def kStreamNonceOffset : ℕ := 16
def kStreamCounterOffset : ℕ := 40
def kAuthFixedBytes : U64 := 49
def kAuthTagOffset : ℕ := 15
def kAuthNonceOffset : ℕ := 17
def kAuthLengthOffset : ℕ := 41
def kBlockBytes : U64 := 32

/-- `struct KeyPair512`. -/
structure KeyPair512 : Type where
  encryptionKey : ResearchKey256
  authenticationKey : ResearchKey256

/-- `validate_auth_context_size`. -/
def validateAuthContextSize (adSize : U64) : Except Fault PUnit := do
  if adSize > maxSize - kAuthFixedBytes then
    throw (.thrown .lengthError "PVC-AEAD-0 independent authentication context overflows size_t")
  if adSize > BitVec.allOnes 64 - kAuthFixedBytes then
    throw (.thrown .lengthError "PVC-AEAD-0 independent authentication context exceeds u64")

/-- `to_mac_tag_size`. -/
def toMacTagSize (tagSize : TagSize) : Except Fault TagSize :=
  convertTagSize "unsupported PVC-AEAD-0 independent tag size" tagSize

/-- `is_supported_tag_size`. -/
def isSupportedTagSize (bytes : U64) : Bool := supportedBytes bytes

/-- `tag_size_from_bytes`. -/
def tagSizeFromBytes (bytes : U64) : Except Fault TagSize :=
  tagSizeOfBytes "PVC-AEAD-0 independent tag size must be 16, 24, or 32 bytes" bytes

/-- `frame_stream_block`. -/
def frameStreamBlock (nonce : Nonce192) (counter : U64) (tagSize : TagSize) :
    Except Fault (List U8) := do
  let bytes := tagSizeBytes tagSize
  if ¬ isSupportedTagSize bytes then
    throw (.thrown .invalidArgument "unsupported independent tag size")
  let frame ← copyTo (List.replicate kStreamFrameBytes 0) 0 kStreamPrefix
  let frame ← storeAt frame kStreamTagOffset (u8 bytes)
  let frame ← copyTo frame kStreamNonceOffset nonce.toList
  storeU64Be frame kStreamCounterOffset counter

/-- `frame_authentication_context`. -/
def frameAuthenticationContext (nonce : Nonce192) (associatedData : List U8)
    (tagSize : TagSize) : Except Fault (List U8) := do
  let bytes := tagSizeBytes tagSize
  if ¬ isSupportedTagSize bytes then
    throw (.thrown .invalidArgument "unsupported independent tag size")
  validateAuthContextSize (size associatedData)
  let frame ← copyTo (List.replicate (kAuthFixedBytes + size associatedData).toNat 0) 0 kAuthPrefix
  let frame ← storeAt frame kAuthTagOffset (u8 bytes)
  let frame ← copyTo frame kAuthNonceOffset nonce.toList
  let frame ← storeU64Be frame kAuthLengthOffset (checkedU64Length (size associatedData))
  copyTo frame kAuthFixedBytes.toNat associatedData

/-- `xor_keystream`. -/
def xorKeystream (key : ResearchKey256) (nonce : Nonce192) (input : List U8)
    (tagSize : TagSize) : PrfRun (List U8) :=
  xorStream (fun counter => frameStreamBlock nonce counter tagSize) key input
    (if input.isEmpty then 0 else (size input + (kBlockBytes - 1)) / kBlockBytes)

/-- `seal`. -/
def sealMessage (keys : KeyPair512) (nonce : Nonce192) (associatedData plaintext : List U8)
    (tagSize : TagSize) : PrfRun SealedMessage := do
  let ciphertext ← xorKeystream keys.encryptionKey nonce plaintext tagSize
  let context ← lift (frameAuthenticationContext nonce associatedData tagSize)
  let macTagSize ← lift (toMacTagSize tagSize)
  let tag ← PvcMac0Independent.computeTag keys.authenticationKey context ciphertext macTagSize
  return ⟨ciphertext, tag⟩

/-- `open`. -/
def openMessage (keys : KeyPair512) (nonce : Nonce192)
    (associatedData ciphertext suppliedTag : List U8) : PrfRun (Option (List U8)) := do
  if ¬ isSupportedTagSize (size suppliedTag) then return none
  let tagSize ← lift (tagSizeFromBytes (size suppliedTag))
  let context ← lift (frameAuthenticationContext nonce associatedData tagSize)
  let verified ←
    PvcMac0Independent.verifyTag keys.authenticationKey context ciphertext suppliedTag
  if ¬ verified then return none
  return some (← xorKeystream keys.encryptionKey nonce ciphertext tagSize)

end PvcAead0Independent
