/-
# The implementations agree

The frames stored at fixed offsets are the appended ones, and the two block counts
are one number; with these the reference, the independent implementation and the
public profile have one outcome on every input: the same value, or an exception of
the same class, after the same calls of C1.
-/
import RotSymEnc.AeadCorrectness
import RotSymEnc.Independent

open StatefulRuns

/-- One outcome up to the class of the exception. -/
abbrev SameClass {α : Type} (x y : PrfRun α) : Prop := SameOutcome Fault.cls x y

/-- One decision up to the class of the exception. -/
abbrev AgreeClass {α : Type} (x y : Except Fault α) : Prop := Agree Fault.cls x y

theorem agreeClass_ok {α : Type} {x y : Except Fault α} {a : α} (hx : x = .ok a)
    (hy : y = .ok a) : AgreeClass x y :=
  .inl ⟨a, hx, hy⟩

theorem agreeClass_thrown {α : Type} {x y : Except Fault α} {cls : ExceptionClass}
    {what what' : String} (hx : x = .error (.thrown cls what))
    (hy : y = .error (.thrown cls what')) : AgreeClass x y :=
  .inr ⟨_, _, hx, hy, rfl⟩

/-! ## The frames -/

theorem convertTagSize_agree (what what' : String) (tagSize : TagSize) :
    AgreeClass (convertTagSize what tagSize) (convertTagSize what' tagSize) := by
  by_cases ht : tagSize.Supported
  · exact agreeClass_ok (convertTagSize_of_supported ht) (convertTagSize_of_supported ht)
  · exact agreeClass_thrown (convertTagSize_of_not_supported ht)
      (convertTagSize_of_not_supported ht)

theorem tagSizeOfBytes_agree (what what' : String) (bytes : U64) :
    AgreeClass (tagSizeOfBytes what bytes) (tagSizeOfBytes what' bytes) := by
  unfold tagSizeOfBytes
  split_ifs
  · exact agreeClass_ok rfl rfl
  · exact agreeClass_ok rfl rfl
  · exact agreeClass_ok rfl rfl
  · exact agreeClass_thrown rfl rfl

/-- The profile of a supported size is recovered from its bytes. -/
theorem tagSizeOfBytes_tagSizeBytes {what : String} {tagSize : TagSize} (h : tagSize.Supported) :
    tagSizeOfBytes what (tagSizeBytes tagSize) = .ok tagSize := by
  rcases h with rfl | rfl | rfl <;> rfl

theorem tagSizeOfBytes_of_not_supported {what : String} {tagSize : TagSize}
    (h : ¬ tagSize.Supported) :
    tagSizeOfBytes what (tagSizeBytes tagSize) = .error (.thrown .invalidArgument what) := by
  have hne : tagSizeBytes tagSize ≠ 16 ∧ tagSizeBytes tagSize ≠ 24
      ∧ tagSizeBytes tagSize ≠ 32 := by
    have hs := mt (supportedBytes_tagSizeBytes tagSize).mp h
    simpa [supportedBytes, and_assoc] using hs
  rw [tagSizeOfBytes, if_neg hne.1, if_neg hne.2.1, if_neg hne.2.2]

namespace PvcMac0Independent

/-- The first check of the frame size. -/
theorem contextOverflows_iff {context : List U8} (hc : context.length < 2 ^ 64) :
    size context > maxSize - kHeaderBytes ↔ 2 ^ 64 ≤ 30 + context.length := by
  have hmax : (maxSize - kHeaderBytes).toNat = 2 ^ 64 - 31 := by decide +kernel
  rw [gt_iff_lt, BitVec.lt_def, hmax, toNat_size hc]
  omega

/-- The size of the header and the context, where it does not wrap. -/
theorem toNat_header_add {context : List U8} (hc : 30 + context.length < 2 ^ 64) :
    (kHeaderBytes + size context).toNat = 30 + context.length := by
  have h30 : kHeaderBytes.toNat = 30 := rfl
  rw [BitVec.toNat_add, toNat_size (by omega), h30]
  omega

/-- The second check. -/
theorem messageOverflows_iff {context message : List U8} (hc : 30 + context.length < 2 ^ 64)
    (hm : message.length < 2 ^ 64) :
    size message > maxSize - (kHeaderBytes + size context)
      ↔ 2 ^ 64 ≤ 30 + context.length + message.length := by
  have hmax : maxSize.toNat = 2 ^ 64 - 1 := by decide +kernel
  rw [gt_iff_lt, BitVec.lt_def, BitVec.toNat_sub, toNat_header_add hc, hmax, toNat_size hm]
  omega

/-- The stored frame is the appended one. -/
theorem frameMessage_eq {context message : List U8} {tagSize : TagSize} (h : tagSize.Supported)
    (hlen : 30 + context.length + message.length < 2 ^ 64) :
    frameMessage context message tagSize = .ok (PvcMac0.frameBytes context message tagSize) := by
  have hcontext : ¬ size context > maxSize - kHeaderBytes :=
    mt (contextOverflows_iff (by omega)).mp (by omega)
  have hmessage : ¬ size message > maxSize - (kHeaderBytes + size context) :=
    mt (messageOverflows_iff (by omega) (by omega)).mp (by omega)
  have hheader := @toNat_header_add context (by omega)
  have hsize : (kHeaderBytes + size context + size message).toNat
      = 30 + context.length + message.length := by
    rw [BitVec.toNat_add, hheader, toNat_size (by omega)]
    omega
  set head := PvcMac0.kMagic ++ [PvcMac0.kSeparator, PvcMac0.kFrameVersion,
    PvcMac0.kPrimitiveProfileC1, tagSize.value, PvcMac0.kReserved] with hhead
  have hopening : kFixedPrefix.set kTagOffset tagSize.value = head := rfl
  have hfixed : kFixedPrefix.length = 14 := rfl
  have hcontextOffset : kContextLengthOffset = head.length := rfl
  have hmessageOffset : kMessageLengthOffset = (head ++ u64be (size context)).length := rfl
  have hbodyOffset : kHeaderBytes.toNat
      = ((head ++ u64be (size context)) ++ u64be (size message)).length := rfl
  have h30 : kHeaderBytes.toNat = 30 := rfl
  rw [frameMessage, checkedTagSize, tagSizeOfBytes_tagSizeBytes h, except_ok_bind]
  simp only [if_neg hcontext, if_neg hmessage, hsize, hheader, toU64Length]
  rw [copyTo_front kFixedPrefix (by omega), except_ok_bind, storeAt_written (by decide),
    except_ok_bind, u8_tagSizeBytes, hopening, hfixed,
    storeU64Be_zeros _ hcontextOffset (by omega), except_ok_bind,
    storeU64Be_zeros _ hmessageOffset (by omega), except_ok_bind,
    copyTo_zeros _ hbodyOffset (by omega), except_ok_bind,
    copyTo_zeros _ (by rw [List.length_append, ← hbodyOffset, h30]) (by omega)]
  have hrest : 30 + context.length + message.length - 14 - 8 - 8 - context.length
      - message.length = 0 := by omega
  rw [hrest, List.replicate_zero, List.append_nil, PvcMac0.frameBytes, PvcMac0.header, ← hhead,
    List.append_assoc _ context]

theorem frameMessage_of_not_supported {context message : List U8} {tagSize : TagSize}
    (h : ¬ tagSize.Supported) : frameMessage context message tagSize
      = .error (.thrown .invalidArgument
        "PVC-MAC-0 independent tag size must be 16, 24, or 32 bytes") := by
  rw [frameMessage, checkedTagSize, tagSizeOfBytes_of_not_supported h]
  rfl

theorem frameMessage_overflow {context message : List U8} {tagSize : TagSize}
    (h : tagSize.Supported) (hc : context.length < 2 ^ 64) (hm : message.length < 2 ^ 64)
    (hlen : 2 ^ 64 ≤ 30 + context.length + message.length) :
    frameMessage context message tagSize
      = .error (.thrown .lengthError "PVC-MAC-0 independent frame size overflows size_t") := by
  rw [frameMessage, checkedTagSize, tagSizeOfBytes_tagSizeBytes h, except_ok_bind]
  by_cases hcontext : size context > maxSize - kHeaderBytes
  · simp only [if_pos hcontext]
    rfl
  · have hc' : 30 + context.length < 2 ^ 64 :=
      not_le.mp (mt (contextOverflows_iff hc).mpr hcontext)
    have hmessage := (messageOverflows_iff hc' hm).mpr hlen
    simp only [if_neg hcontext, if_pos hmessage]
    rfl

/-- **`frame_message`** of the two implementations. -/
theorem frameMessage_agree {context message : List U8} (hc : context.length < 2 ^ 64)
    (hm : message.length < 2 ^ 64) (tagSize : TagSize) :
    AgreeClass (PvcMac0.frameMessage context message tagSize)
      (frameMessage context message tagSize) := by
  by_cases ht : tagSize.Supported
  · by_cases hlen : 30 + context.length + message.length < 2 ^ 64
    · exact agreeClass_ok (PvcMac0.frameMessage_eq ht hlen) (frameMessage_eq ht hlen)
    · exact agreeClass_thrown (PvcMac0.frameMessage_overflow ht hc hm (not_lt.mp hlen))
        (frameMessage_overflow ht hc hm (not_lt.mp hlen))
  · exact agreeClass_thrown (PvcMac0.frameMessage_of_not_supported ht)
      (frameMessage_of_not_supported ht)

/-! ## The MAC -/

theorem computeFullOutput_agree {context message : List U8} (hc : context.length < 2 ^ 64)
    (hm : message.length < 2 ^ 64) (key : ResearchKey256) (tagSize : TagSize) :
    SameClass (PvcMac0.computeFullTagInternal key context message tagSize)
      (computeFullOutput key context message tagSize) :=
  (SameOutcome.lift (frameMessage_agree hc hm tagSize)).bind fun framed =>
    SameOutcome.refl _ (callC1 key framed)

/-- **`compute_tag`** of the two implementations. -/
theorem computeTag_agree {context message : List U8} (hc : context.length < 2 ^ 64)
    (hm : message.length < 2 ^ 64) (key : ResearchKey256) (tagSize : TagSize) :
    SameClass (PvcMac0.computeTag key context message tagSize)
      (computeTag key context message tagSize) :=
  (computeFullOutput_agree hc hm key tagSize).bind fun _ => SameOutcome.refl _ _

/-- **`verify_tag`** of the two implementations. -/
theorem verifyTag_agree {context message : List U8} (hc : context.length < 2 ^ 64)
    (hm : message.length < 2 ^ 64) (key : ResearchKey256) (suppliedTag : List U8) :
    SameClass (PvcMac0.verifyTag key context message suppliedTag)
      (verifyTag key context message suppliedTag) := by
  by_cases hs : supportedBytes (size suppliedTag) = true
  · rw [PvcMac0.verifyTag, verifyTag, PvcMac0.isSupportedTagSize, isSupportedTagSize,
      if_neg (not_not.mpr hs), if_neg (not_not.mpr hs)]
    refine (SameOutcome.lift (tagSizeOfBytes_agree _ _ _)).bind fun tagSize => ?_
    exact (computeFullOutput_agree hc hm key tagSize).bind fun _ => SameOutcome.refl _ _
  · rw [PvcMac0.verifyTag, verifyTag, PvcMac0.isSupportedTagSize, isSupportedTagSize,
      if_pos hs, if_pos hs]
    exact SameOutcome.refl _ _

end PvcMac0Independent

namespace PvcAead0Independent

theorem supportedBytes_of_not_supported {tagSize : TagSize} (h : ¬ tagSize.Supported) :
    ¬ isSupportedTagSize (tagSizeBytes tagSize) = true :=
  mt (supportedBytes_tagSizeBytes tagSize).mp h

/-- The stored stream frame is the appended one. -/
theorem frameStreamBlock_eq {tagSize : TagSize} (h : tagSize.Supported) (nonce : Nonce192)
    (counter : U64) :
    frameStreamBlock nonce counter tagSize = .ok (PvcAead0.streamBytes nonce counter tagSize) := by
  have hs : isSupportedTagSize (tagSizeBytes tagSize) = true :=
    (supportedBytes_tagSizeBytes tagSize).mpr h
  set head := PvcAead0.kMagic ++ [PvcAead0.kSeparator, PvcAead0.kFrameVersion,
    PvcAead0.kRoleStream, PvcAead0.kPrimitiveProfileC1, tagSize.value, PvcAead0.kReserved]
    with hhead
  have hopening : kStreamPrefix.set kStreamTagOffset tagSize.value = head := rfl
  have hfixed : kStreamPrefix.length = 16 := rfl
  have hnonce : nonce.toList.length = 24 := by simp
  have hnonceOffset : kStreamNonceOffset = head.length := rfl
  have hcounterOffset : kStreamCounterOffset = (head ++ nonce.toList).length := by
    rw [List.length_append, hnonce]
    rfl
  have h48 : kStreamFrameBytes = 48 := rfl
  have hrest : kStreamFrameBytes - kStreamPrefix.length - nonce.toList.length - 8 = 0 := by omega
  simp only [frameStreamBlock, hs, not_true_eq_false, if_false]
  rw [copyTo_front kStreamPrefix (by omega), except_ok_bind,
    storeAt_written (by decide), except_ok_bind, u8_tagSizeBytes, hopening,
    copyTo_zeros _ hnonceOffset (by omega), except_ok_bind,
    storeU64Be_zeros _ hcounterOffset (by omega), hrest, List.replicate_zero, List.append_nil,
    PvcAead0.streamBytes, hhead]

theorem frameStreamBlock_of_not_supported {tagSize : TagSize} (h : ¬ tagSize.Supported)
    (nonce : Nonce192) (counter : U64) : frameStreamBlock nonce counter tagSize
      = .error (.thrown .invalidArgument "unsupported independent tag size") := by
  simp only [frameStreamBlock, if_pos (supportedBytes_of_not_supported h)]
  rfl

/-- **`frame_stream_block`** of the two implementations. -/
theorem frameStreamBlock_agree (nonce : Nonce192) (counter : U64) (tagSize : TagSize) :
    AgreeClass (PvcAead0.frameStreamBlock nonce counter tagSize)
      (frameStreamBlock nonce counter tagSize) := by
  by_cases ht : tagSize.Supported
  · exact agreeClass_ok (PvcAead0.frameStreamBlock_eq ht nonce counter)
      (frameStreamBlock_eq ht nonce counter)
  · exact agreeClass_thrown (PvcAead0.frameStreamBlock_of_not_supported ht nonce counter)
      (frameStreamBlock_of_not_supported ht nonce counter)

theorem validateAuthContextSize_eq {associatedData : List U8}
    (h : 49 + associatedData.length < 2 ^ 64) :
    validateAuthContextSize (size associatedData) = .ok () := by
  have hle : ¬ size associatedData > maxSize - kAuthFixedBytes :=
    mt (PvcAead0.contextOverflows_iff (by omega)).mp (not_le.mpr h)
  have hle' : ¬ size associatedData > BitVec.allOnes 64 - kAuthFixedBytes := hle
  simp only [validateAuthContextSize, if_neg hle, if_neg hle']
  rfl

theorem validateAuthContextSize_overflow {associatedData : List U8}
    (hlen : associatedData.length < 2 ^ 64) (h : 2 ^ 64 ≤ 49 + associatedData.length) :
    validateAuthContextSize (size associatedData) = .error (.thrown .lengthError
      "PVC-AEAD-0 independent authentication context overflows size_t") := by
  have hlt : size associatedData > maxSize - kAuthFixedBytes :=
    (PvcAead0.contextOverflows_iff hlen).mpr h
  simp only [validateAuthContextSize, if_pos hlt]
  rfl

/-- The stored context is the appended one. -/
theorem frameAuthenticationContext_eq {tagSize : TagSize} (h : tagSize.Supported)
    (nonce : Nonce192) {associatedData : List U8} (hlen : 49 + associatedData.length < 2 ^ 64) :
    frameAuthenticationContext nonce associatedData tagSize
      = .ok (PvcAead0.contextBytes nonce associatedData tagSize) := by
  have hs : isSupportedTagSize (tagSizeBytes tagSize) = true :=
    (supportedBytes_tagSizeBytes tagSize).mpr h
  have hsize : (kAuthFixedBytes + size associatedData).toNat = 49 + associatedData.length := by
    have h49 : kAuthFixedBytes.toNat = 49 := rfl
    rw [BitVec.toNat_add, toNat_size (by omega), h49]
    omega
  set head := PvcAead0.kMagic ++ [PvcAead0.kSeparator, PvcAead0.kFrameVersion,
    PvcAead0.kRoleAuthentication, PvcAead0.kPrimitiveProfileC1, PvcAead0.kMacProfileM1,
    tagSize.value, PvcAead0.kReserved] with hhead
  have hopening : kAuthPrefix.set kAuthTagOffset tagSize.value = head := rfl
  have hfixed : kAuthPrefix.length = 17 := rfl
  have hnonce : nonce.toList.length = 24 := by simp
  have hnonceOffset : kAuthNonceOffset = head.length := rfl
  have hlengthOffset : kAuthLengthOffset = (head ++ nonce.toList).length := by
    rw [List.length_append, hnonce]
    rfl
  have hdataOffset : kAuthFixedBytes.toNat
      = ((head ++ nonce.toList) ++ u64be (size associatedData)).length := by
    rw [List.length_append, ← hlengthOffset]
    rfl
  have hrest : 49 + associatedData.length - kAuthPrefix.length - nonce.toList.length - 8
      - associatedData.length = 0 := by omega
  simp only [frameAuthenticationContext, hs, not_true_eq_false, if_false,
    validateAuthContextSize_eq hlen, hsize, checkedU64Length]
  rw [except_ok_bind, copyTo_front kAuthPrefix (by omega), except_ok_bind,
    storeAt_written (by decide), except_ok_bind, u8_tagSizeBytes, hopening,
    copyTo_zeros _ hnonceOffset (by omega), except_ok_bind,
    storeU64Be_zeros _ hlengthOffset (by omega), except_ok_bind,
    copyTo_zeros _ hdataOffset (by omega), hrest, List.replicate_zero, List.append_nil,
    PvcAead0.contextBytes, PvcAead0.contextHeader, hhead]

theorem frameAuthenticationContext_of_not_supported {tagSize : TagSize}
    (h : ¬ tagSize.Supported) (nonce : Nonce192) (associatedData : List U8) :
    frameAuthenticationContext nonce associatedData tagSize
      = .error (.thrown .invalidArgument "unsupported independent tag size") := by
  simp only [frameAuthenticationContext, if_pos (supportedBytes_of_not_supported h)]
  rfl

theorem frameAuthenticationContext_overflow {tagSize : TagSize} (h : tagSize.Supported)
    (nonce : Nonce192) {associatedData : List U8} (hlen : associatedData.length < 2 ^ 64)
    (hover : 2 ^ 64 ≤ 49 + associatedData.length) :
    frameAuthenticationContext nonce associatedData tagSize = .error (.thrown .lengthError
      "PVC-AEAD-0 independent authentication context overflows size_t") := by
  have hs : isSupportedTagSize (tagSizeBytes tagSize) = true :=
    (supportedBytes_tagSizeBytes tagSize).mpr h
  simp only [frameAuthenticationContext, hs, not_true_eq_false, if_false,
    validateAuthContextSize_overflow hlen hover]
  rfl

/-- **`frame_authentication_context`** of the two implementations. -/
theorem frameAuthenticationContext_agree (nonce : Nonce192) {associatedData : List U8}
    (h : associatedData.length < 2 ^ 64) (tagSize : TagSize) :
    AgreeClass (PvcAead0.frameAuthenticationContext nonce associatedData tagSize)
      (frameAuthenticationContext nonce associatedData tagSize) := by
  by_cases ht : tagSize.Supported
  · by_cases hlen : 49 + associatedData.length < 2 ^ 64
    · exact agreeClass_ok (PvcAead0.frameAuthenticationContext_eq ht nonce hlen)
        (frameAuthenticationContext_eq ht nonce hlen)
    · exact agreeClass_thrown
        (PvcAead0.frameAuthenticationContext_overflow ht nonce h (not_lt.mp hlen))
        (frameAuthenticationContext_overflow ht nonce h (not_lt.mp hlen))
  · exact agreeClass_thrown (PvcAead0.frameAuthenticationContext_of_not_supported ht nonce _)
      (frameAuthenticationContext_of_not_supported ht nonce _)

/-- What the reference frames is as long as the fixed part and the data. -/
theorem length_of_frameAuthenticationContext {nonce : Nonce192} {associatedData : List U8}
    (h : associatedData.length < 2 ^ 63) {tagSize : TagSize} {context : List U8}
    (hcontext : PvcAead0.frameAuthenticationContext nonce associatedData tagSize = .ok context) :
    context.length < 2 ^ 64 := by
  by_cases ht : tagSize.Supported
  · rw [PvcAead0.frameAuthenticationContext_eq ht nonce (by omega)] at hcontext
    obtain rfl := Except.ok.inj hcontext
    rw [PvcAead0.length_contextBytes]
    omega
  · rw [PvcAead0.frameAuthenticationContext_of_not_supported ht] at hcontext
    exact absurd hcontext (by simp)

/-! ## The authenticated encryption -/

/-- The block count of `xor_keystream`: rounding up does not wrap for a payload
that a vector can hold. -/
theorem xorKeystream_blocks {input : List U8} (h : input.length < 2 ^ 63) :
    (if input.isEmpty then (0 : U64)
      else (size input + (kBlockBytes - 1)) / kBlockBytes).toNat = blockCount input.length := by
  have h32 : kBlockBytes.toNat = 32 := rfl
  have h31 : (kBlockBytes - 1).toNat = 31 := rfl
  cases input with
  | nil => rfl
  | cons byte rest =>
    rw [if_neg (by simp), BitVec.toNat_udiv, BitVec.toNat_add, toNat_size (by omega), h31, h32,
      blockCount]
    omega

/-- **`apply_keystream` and `xor_keystream`**. -/
theorem xorKeystream_agree (key : ResearchKey256) (nonce : Nonce192) {input : List U8}
    (h : input.length < 2 ^ 63) (tagSize : TagSize) :
    SameClass (PvcAead0.applyKeystream key nonce input tagSize)
      (xorKeystream key nonce input tagSize) := by
  rw [PvcAead0.applyKeystream, xorKeystream, xorStream, xorStream,
    applyKeystream_blocks (by omega), xorKeystream_blocks h]
  refine SameOutcome.foldlM (fun output block => ?_) _ _
  refine (SameOutcome.lift (frameStreamBlock_agree nonce _ tagSize)).bind fun framed => ?_
  exact SameOutcome.refl _ _

/-- Masking keeps the length. -/
theorem length_of_applyKeystream {key : ResearchKey256} {nonce : Nonce192} {input : List U8}
    (h : input.length < 2 ^ 64) {tagSize : TagSize} {output : List U8} {s s' : List PrfCall}
    (hrun : (PvcAead0.applyKeystream key nonce input tagSize).run s = .ok output s') :
    output.length = input.length := by
  by_cases ht : tagSize.Supported
  · rw [PvcAead0.applyKeystream_run ht key nonce h] at hrun
    obtain ⟨rfl, -⟩ := EStateM.Result.ok.inj hrun
    rw [PvcAead0.length_keystreamMasked]
  · rw [PvcAead0.applyKeystream_run_of_not_supported ht key nonce h] at hrun
    by_cases hinput : input = []
    · rw [if_pos hinput] at hrun
      obtain ⟨rfl, -⟩ := EStateM.Result.ok.inj hrun
      rw [hinput]
    · rw [if_neg hinput] at hrun
      exact absurd hrun (by simp)

/-- `KeyPair512` of the other implementation. -/
def ofReference (keys : PvcAead0.KeyPair512) : KeyPair512 :=
  ⟨keys.encryptionKey, keys.authenticationKey⟩

/-- **`seal`** of the two implementations. -/
theorem sealMessage_agree (keys : PvcAead0.KeyPair512) (nonce : Nonce192)
    {associatedData plaintext : List U8} (had : associatedData.length < 2 ^ 63)
    (hpt : plaintext.length < 2 ^ 63) (tagSize : TagSize) :
    SameClass (PvcAead0.sealMessage keys nonce associatedData plaintext tagSize)
      (sealMessage (ofReference keys) nonce associatedData plaintext tagSize) := by
  rw [PvcAead0.sealMessage, sealMessage]
  refine (xorKeystream_agree _ nonce hpt tagSize).bind_returned fun ciphertext _ _ hct => ?_
  have hlen := length_of_applyKeystream (by omega) hct
  have hcontext := @frameAuthenticationContext_agree nonce associatedData (by omega) tagSize
  refine (SameOutcome.lift hcontext).bind_returned fun context s s' hlift => ?_
  have hcontextLen := length_of_frameAuthenticationContext had (eq_ok_of_lift_run hlift)
  refine (SameOutcome.lift (convertTagSize_agree _ _ tagSize)).bind fun macTagSize => ?_
  have htag := @PvcMac0Independent.computeTag_agree context ciphertext hcontextLen (by omega)
    keys.authenticationKey macTagSize
  exact htag.bind fun _ => SameOutcome.refl _ _

/-- **`open`** of the two implementations. -/
theorem openMessage_agree (keys : PvcAead0.KeyPair512) (nonce : Nonce192)
    {associatedData ciphertext : List U8} (had : associatedData.length < 2 ^ 63)
    (hct : ciphertext.length < 2 ^ 63) (suppliedTag : List U8) :
    SameClass (PvcAead0.openMessage keys nonce associatedData ciphertext suppliedTag)
      (openMessage (ofReference keys) nonce associatedData ciphertext suppliedTag) := by
  by_cases hs : supportedBytes (size suppliedTag) = true
  · rw [PvcAead0.openMessage, openMessage, PvcAead0.isSupportedTagSize, isSupportedTagSize,
      if_neg (not_not.mpr hs), if_neg (not_not.mpr hs)]
    refine (SameOutcome.lift (tagSizeOfBytes_agree _ _ _)).bind fun tagSize => ?_
    have hcontext := @frameAuthenticationContext_agree nonce associatedData (by omega) tagSize
    refine (SameOutcome.lift hcontext).bind_returned fun context s s' hlift => ?_
    have hcontextLen := length_of_frameAuthenticationContext had (eq_ok_of_lift_run hlift)
    have hverify := @PvcMac0Independent.verifyTag_agree context ciphertext hcontextLen (by omega)
      keys.authenticationKey suppliedTag
    refine hverify.bind fun verified => ?_
    cases verified with
    | false => exact SameOutcome.refl _ _
    | true =>
      exact (xorKeystream_agree keys.encryptionKey nonce hct tagSize).bind fun _ =>
        SameOutcome.refl _ _
  · rw [PvcAead0.openMessage, openMessage, PvcAead0.isSupportedTagSize, isSupportedTagSize,
      if_pos hs, if_pos hs]
    exact SameOutcome.refl _ _

end PvcAead0Independent

/-! ## The public profile -/

namespace PvcRotSymEnc1

/-- On a raw profile that is none of the three, the reference throws too, and before
any call: from the first block, or from the context where there is no block. -/
theorem referenceSeal_run_of_not_supported {tagSize : TagSize} (ht : ¬ tagSize.Supported)
    (keys : PvcAead0.KeyPair512) (nonce : Nonce192) (associatedData : List U8)
    {plaintext : List U8} (hpt : plaintext.length < 2 ^ 64) (calls : List PrfCall) :
    (PvcAead0.sealMessage keys nonce associatedData plaintext tagSize).run calls
      = .error (.thrown .invalidArgument "unsupported PVC-AEAD-0 tag size") calls := by
  have hstream :=
    PvcAead0.applyKeystream_run_of_not_supported ht keys.encryptionKey nonce hpt calls
  rw [PvcAead0.sealMessage]
  by_cases hempty : plaintext = []
  · rw [if_pos hempty] at hstream
    rw [run_bind_of_ok hstream, PvcAead0.frameAuthenticationContext_of_not_supported ht]
    exact run_bind_of_error (lift_error_run _ _)
  · rw [if_neg hempty] at hstream
    exact run_bind_of_error hstream

/-- **`seal`** of the public profile and of the reference. -/
theorem sealMessage_agree (keys : KeyPair512) (nonce : Nonce192) (associatedData : List U8)
    {plaintext : List U8} (hpt : plaintext.length < 2 ^ 64) (tagSize : TagSize) :
    SameClass (sealMessage keys nonce associatedData plaintext tagSize)
      (PvcAead0.sealMessage (toA1Keys keys) nonce associatedData plaintext tagSize) := by
  by_cases ht : tagSize.Supported
  · have hsame : sealMessage keys nonce associatedData plaintext tagSize
        = PvcAead0.sealMessage (toA1Keys keys) nonce associatedData plaintext tagSize := by
      rw [sealMessage, toA1TagSize, convertTagSize_of_supported ht, lift_ok_bind]
      exact bind_pure _
    rw [hsame]
    exact SameOutcome.refl _ _
  · intro calls
    exact .inr ⟨_, _, calls, sealMessage_run_of_not_supported ht keys nonce _ _ calls,
      referenceSeal_run_of_not_supported ht _ nonce _ hpt calls, rfl⟩

end PvcRotSymEnc1

/-! ## All implementations -/

/-- **The implementations agree.**  On buffers that a vector can hold, the public
profile, the reference and the independent implementation seal and open alike, for
every raw profile and every supplied tag, and the two MACs frame, tag and verify
alike: the same value, or an exception of the same class. -/
theorem implementations_agree (keys : PvcRotSymEnc1.KeyPair512) (key : ResearchKey256)
    (nonce : Nonce192) (associatedData plaintext ciphertext context message : List U8)
    (suppliedTag : List U8) (tagSize : TagSize) (had : associatedData.length < 2 ^ 63)
    (hpt : plaintext.length < 2 ^ 63) (hct : ciphertext.length < 2 ^ 63)
    (hc : context.length < 2 ^ 63) (hm : message.length < 2 ^ 63) :
    let reference := PvcRotSymEnc1.toA1Keys keys
    let independent := PvcAead0Independent.ofReference reference
    (SameClass (PvcRotSymEnc1.sealMessage keys nonce associatedData plaintext tagSize)
        (PvcAead0.sealMessage reference nonce associatedData plaintext tagSize) ∧
      SameClass (PvcAead0.sealMessage reference nonce associatedData plaintext tagSize)
        (PvcAead0Independent.sealMessage independent nonce associatedData plaintext tagSize)) ∧
    (SameClass (PvcRotSymEnc1.openMessage keys nonce associatedData ciphertext suppliedTag)
        (PvcAead0.openMessage reference nonce associatedData ciphertext suppliedTag) ∧
      SameClass (PvcAead0.openMessage reference nonce associatedData ciphertext suppliedTag)
        (PvcAead0Independent.openMessage independent nonce associatedData ciphertext
          suppliedTag)) ∧
    AgreeClass (PvcMac0.frameMessage context message tagSize)
      (PvcMac0Independent.frameMessage context message tagSize) ∧
    SameClass (PvcMac0.computeTag key context message tagSize)
      (PvcMac0Independent.computeTag key context message tagSize) ∧
    SameClass (PvcMac0.verifyTag key context message suppliedTag)
      (PvcMac0Independent.verifyTag key context message suppliedTag) := by
  have hc64 : context.length < 2 ^ 64 := by omega
  have hm64 : message.length < 2 ^ 64 := by omega
  intro reference independent
  refine ⟨⟨?_, ?_⟩, ⟨?_, ?_⟩, ?_, ?_, ?_⟩
  · exact PvcRotSymEnc1.sealMessage_agree keys nonce associatedData (by omega) tagSize
  · exact PvcAead0Independent.sealMessage_agree reference nonce had hpt tagSize
  · exact SameOutcome.refl _ _
  · exact PvcAead0Independent.openMessage_agree reference nonce had hct suppliedTag
  · exact PvcMac0Independent.frameMessage_agree hc64 hm64 tagSize
  · exact PvcMac0Independent.computeTag_agree hc64 hm64 key tagSize
  · exact PvcMac0Independent.verifyTag_agree hc64 hm64 key suppliedTag

/-- The unsupported profile 17 on an empty plaintext: both throw. -/
theorem implementations_agree_unsupported :
    SameClass
      (PvcAead0.sealMessage ⟨Vector.replicate 32 0, Vector.replicate 32 1⟩
        (Vector.replicate 24 2) [3] [] ⟨17⟩)
      (PvcAead0Independent.sealMessage ⟨Vector.replicate 32 0, Vector.replicate 32 1⟩
        (Vector.replicate 24 2) [3] [] ⟨17⟩) :=
  (implementations_agree ⟨Vector.replicate 32 0, Vector.replicate 32 1⟩ (Vector.replicate 32 0)
    (Vector.replicate 24 2) [3] [] [] [] [] [] ⟨17⟩ (by decide) (by decide) (by decide)
    (by decide) (by decide)).1.2
