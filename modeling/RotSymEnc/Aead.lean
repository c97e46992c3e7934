/-
# PVC-AEAD-0 and its MAC

`mac.cpp` and `aead.cpp` of the reference implementation, and the public profile
`symmetric_encryption.cpp` on top of them.  Frames are built by appending.
-/
import RotSymEnc.PrfCalls

open StatefulRuns

/-! ## The MAC -/

namespace PvcMac0

/-- `kMagic`, "PVC-MAC-0". -/
def kMagic : List U8 := [0x50, 0x56, 0x43, 0x2D, 0x4D, 0x41, 0x43, 0x2D, 0x30]

def kSeparator : U8 := 0x00
def kFrameVersion : U8 := 0x01
def kPrimitiveProfileC1 : U8 := 0xC1
def kReserved : U8 := 0x00
def kHeaderSize : U64 := 30

/-- `is_supported_tag_size`. -/
def isSupportedTagSize (bytes : U64) : Bool := supportedBytes bytes

/-- `tag_size_from_bytes`. -/
def tagSizeFromBytes (bytes : U64) : Except Fault TagSize :=
  tagSizeOfBytes "PVC-MAC-0 tag size must be 16, 24, or 32 bytes" bytes

/-- `frame_message`. -/
def frameMessage (context message : List U8) (tagSize : TagSize) : Except Fault (List U8) := do
  let tagBytes := tagSizeBytes tagSize
  if ¬ isSupportedTagSize tagBytes then
    throw (.thrown .invalidArgument "unsupported PVC-MAC-0 tag size")
  if size context > maxSize - kHeaderSize
      ∨ size message > maxSize - kHeaderSize - size context then
    throw (.thrown .lengthError "PVC-MAC-0 frame size overflows size_t")
  let framed := kMagic ++ [kSeparator] ++ [kFrameVersion] ++ [kPrimitiveProfileC1]
    ++ [u8 tagBytes] ++ [kReserved]
  let framed := appendU64Be framed (checkedU64Length (size context))
  let framed := appendU64Be framed (checkedU64Length (size message))
  return framed ++ context ++ message

/-- `compute_full_tag_internal`. -/
def computeFullTagInternal (key : ResearchKey256) (context message : List U8)
    (tagSize : TagSize) : PrfRun ResearchOutput := do
  let framed ← lift (frameMessage context message tagSize)
  callC1 key framed

/-- `compute_tag`. -/
def computeTag (key : ResearchKey256) (context message : List U8) (tagSize : TagSize) :
    PrfRun (List U8) := do
  let full ← computeFullTagInternal key context message tagSize
  lift (firstBytes full (tagSizeBytes tagSize))

/-- `verify_tag`. -/
def verifyTag (key : ResearchKey256) (context message suppliedTag : List U8) : PrfRun Bool := do
  if ¬ isSupportedTagSize (size suppliedTag) then return false
  let tagSize ← lift (tagSizeFromBytes (size suppliedTag))
  let expected ← computeFullTagInternal key context message tagSize
  lift (tagMatches expected suppliedTag)

end PvcMac0

/-! ## The authenticated encryption -/

namespace PvcAead0

/-- `kMagic`, "PVC-AEAD-0". -/
def kMagic : List U8 := [0x50, 0x56, 0x43, 0x2D, 0x41, 0x45, 0x41, 0x44, 0x2D, 0x30]

def kSeparator : U8 := 0x00
def kFrameVersion : U8 := 0x01
def kPrimitiveProfileC1 : U8 := 0xC1
def kMacProfileM1 : U8 := 0xD1
/-- `kRoleStream`, 'S'. -/
def kRoleStream : U8 := 0x53
/-- `kRoleAuthentication`, 'A'. -/
def kRoleAuthentication : U8 := 0x41
def kReserved : U8 := 0x00
def kAuthFixedSize : U64 := 49
/-- `kMaximumEncodedLength`. -/
def kMaximumEncodedLength : U64 := BitVec.allOnes 64

/-- `struct KeyPair512`. -/
structure KeyPair512 : Type where
  encryptionKey : ResearchKey256
  authenticationKey : ResearchKey256

/-- `validate_authentication_context_length`. -/
def validateAuthenticationContextLength (associatedDataSize : U64) : Except Fault PUnit := do
  if associatedDataSize > maxSize - kAuthFixedSize then
    throw (.thrown .lengthError "PVC-AEAD-0 authentication context overflows size_t")
  if associatedDataSize > kMaximumEncodedLength - kAuthFixedSize then
    throw (.thrown .lengthError
      "PVC-AEAD-0 authentication context exceeds the u64 M1 context limit")

/-- `to_mac_tag_size`. -/
def toMacTagSize (tagSize : TagSize) : Except Fault TagSize :=
  convertTagSize "unsupported PVC-AEAD-0 tag size" tagSize

/-- `is_supported_tag_size`. -/
def isSupportedTagSize (bytes : U64) : Bool := supportedBytes bytes

/-- `tag_size_from_bytes`. -/
def tagSizeFromBytes (bytes : U64) : Except Fault TagSize :=
  tagSizeOfBytes "PVC-AEAD-0 tag size must be 16, 24, or 32 bytes" bytes

/-- `frame_stream_block`. -/
def frameStreamBlock (nonce : Nonce192) (counter : U64) (tagSize : TagSize) :
    Except Fault (List U8) := do
  let tagBytes := tagSizeBytes tagSize
  if ¬ isSupportedTagSize tagBytes then
    throw (.thrown .invalidArgument "unsupported PVC-AEAD-0 tag size")
  let framed := kMagic ++ [kSeparator] ++ [kFrameVersion] ++ [kRoleStream]
    ++ [kPrimitiveProfileC1] ++ [u8 tagBytes] ++ [kReserved] ++ nonce.toList
  return appendU64Be framed counter

/-- `frame_authentication_context`. -/
def frameAuthenticationContext (nonce : Nonce192) (associatedData : List U8)
    (tagSize : TagSize) : Except Fault (List U8) := do
  let tagBytes := tagSizeBytes tagSize
  if ¬ isSupportedTagSize tagBytes then
    throw (.thrown .invalidArgument "unsupported PVC-AEAD-0 tag size")
  validateAuthenticationContextLength (size associatedData)
  let framed := kMagic ++ [kSeparator] ++ [kFrameVersion] ++ [kRoleAuthentication]
    ++ [kPrimitiveProfileC1] ++ [kMacProfileM1] ++ [u8 tagBytes] ++ [kReserved] ++ nonce.toList
  let framed := appendU64Be framed (checkedU64Length (size associatedData))
  return framed ++ associatedData

/-- `apply_keystream`. -/
def applyKeystream (key : ResearchKey256) (nonce : Nonce192) (input : List U8)
    (tagSize : TagSize) : PrfRun (List U8) :=
  xorStream (fun counter => frameStreamBlock nonce counter tagSize) key input
    (if input.isEmpty then 0 else 1 + (size input - 1) / kBlockSize)

/-- `seal`. -/
def sealMessage (keys : KeyPair512) (nonce : Nonce192) (associatedData plaintext : List U8)
    (tagSize : TagSize) : PrfRun SealedMessage := do
  let ciphertext ← applyKeystream keys.encryptionKey nonce plaintext tagSize
  let context ← lift (frameAuthenticationContext nonce associatedData tagSize)
  let macTagSize ← lift (toMacTagSize tagSize)
  let tag ← PvcMac0.computeTag keys.authenticationKey context ciphertext macTagSize
  return ⟨ciphertext, tag⟩

/-- `open`. -/
def openMessage (keys : KeyPair512) (nonce : Nonce192)
    (associatedData ciphertext suppliedTag : List U8) : PrfRun (Option (List U8)) := do
  if ¬ isSupportedTagSize (size suppliedTag) then return none
  let tagSize ← lift (tagSizeFromBytes (size suppliedTag))
  let context ← lift (frameAuthenticationContext nonce associatedData tagSize)
  let verified ← PvcMac0.verifyTag keys.authenticationKey context ciphertext suppliedTag
  if ¬ verified then return none
  return some (← applyKeystream keys.encryptionKey nonce ciphertext tagSize)

end PvcAead0

/-! ## The public profile -/

namespace PvcRotSymEnc1

/-- `struct KeyPair512`. -/
structure KeyPair512 : Type where
  encryptionKey : ResearchKey256
  authenticationKey : ResearchKey256

/-- `to_a1_keys`. -/
def toA1Keys (keys : KeyPair512) : PvcAead0.KeyPair512 :=
  ⟨keys.encryptionKey, keys.authenticationKey⟩

/-- `to_a1_nonce`. -/
def toA1Nonce (nonce : Nonce192) : Nonce192 := nonce

/-- `to_a1_tag_size`. -/
def toA1TagSize (tagSize : TagSize) : Except Fault TagSize :=
  convertTagSize "unsupported PVC-RotSymEnc-1 tag size" tagSize

/-- `is_supported_tag_size`. -/
def isSupportedTagSize (bytes : U64) : Bool := supportedBytes bytes

/-- `tag_size_from_bytes`. -/
def tagSizeFromBytes (bytes : U64) : Except Fault TagSize :=
  tagSizeOfBytes "PVC-RotSymEnc-1 tag size must be 16, 24, or 32 bytes" bytes

/-- `seal`. -/
def sealMessage (keys : KeyPair512) (nonce : Nonce192) (associatedData plaintext : List U8)
    (tagSize : TagSize) : PrfRun SealedMessage := do
  let a1TagSize ← lift (toA1TagSize tagSize)
  let sealed ← PvcAead0.sealMessage (toA1Keys keys) (toA1Nonce nonce) associatedData plaintext
    a1TagSize
  return ⟨sealed.ciphertext, sealed.tag⟩

/-- `open`. -/
def openMessage (keys : KeyPair512) (nonce : Nonce192)
    (associatedData ciphertext suppliedTag : List U8) : PrfRun (Option (List U8)) :=
  PvcAead0.openMessage (toA1Keys keys) (toA1Nonce nonce) associatedData ciphertext suppliedTag

end PvcRotSymEnc1
