/-
# The frames

What the framing functions return where they do not throw, and why no two PRF
inputs are confused: the stream frames and the nested MAC frames are prefix-free,
and the two families part in their fifth byte.
-/
import RotSymEnc.Aead
import RotSymEnc.PrefixCodes

open PrefixCodes

/-! ## Supported tag sizes -/

namespace TagSize

/-- One of the three enumerators. -/
def Supported (tagSize : TagSize) : Prop :=
  tagSize = bits128 ∨ tagSize = bits192 ∨ tagSize = bits256

instance (tagSize : TagSize) : Decidable tagSize.Supported :=
  inferInstanceAs (Decidable (_ ∨ _ ∨ _))

end TagSize

theorem supportedBytes_tagSizeBytes (tagSize : TagSize) :
    supportedBytes (tagSizeBytes tagSize) = true ↔ tagSize.Supported := by
  obtain ⟨⟨value⟩⟩ := tagSize
  revert value
  decide +kernel

theorem convertTagSize_of_supported {what : String} {tagSize : TagSize}
    (h : tagSize.Supported) : convertTagSize what tagSize = .ok tagSize := by
  rcases h with rfl | rfl | rfl <;> rfl

theorem convertTagSize_of_not_supported {what : String} {tagSize : TagSize}
    (h : ¬ tagSize.Supported) :
    convertTagSize what tagSize = .error (.thrown .invalidArgument what) := by
  simp only [TagSize.Supported, not_or] at h
  rw [convertTagSize, if_neg h.1, if_neg h.2.1, if_neg h.2.2]

@[simp] theorem u8_tagSizeBytes (tagSize : TagSize) :
    u8 (tagSizeBytes tagSize) = tagSize.value := by
  apply BitVec.eq_of_toNat_eq
  have h := tagSize.value.isLt
  simp only [tagSizeBytes, u8, u64, BitVec.toNat_setWidth]
  omega

/-! ## The frames as byte strings -/

namespace PvcMac0

/-- The header of `frame_message`: the profile and the two lengths. -/
def header (tagSize : TagSize) (contextSize messageSize : U64) : List U8 :=
  kMagic ++ [kSeparator, kFrameVersion, kPrimitiveProfileC1, tagSize.value, kReserved]
    ++ u64be contextSize ++ u64be messageSize

/-- The bytes of `frame_message`. -/
def frameBytes (context message : List U8) (tagSize : TagSize) : List U8 :=
  header tagSize (size context) (size message) ++ (context ++ message)

theorem frameMessage_of_not_supported {context message : List U8} {tagSize : TagSize}
    (h : ¬ tagSize.Supported) : frameMessage context message tagSize
      = .error (.thrown .invalidArgument "unsupported PVC-MAC-0 tag size") := by
  have hs : ¬ isSupportedTagSize (tagSizeBytes tagSize) = true :=
    fun hs => h ((supportedBytes_tagSizeBytes tagSize).mp hs)
  simp only [frameMessage, if_pos hs]
  rfl

/-- The size check, in natural numbers. -/
theorem frameOverflows_iff {context message : List U8} (hc : context.length < 2 ^ 64)
    (hm : message.length < 2 ^ 64) :
    (size context > maxSize - kHeaderSize ∨ size message > maxSize - kHeaderSize - size context)
      ↔ 2 ^ 64 ≤ 30 + context.length + message.length := by
  have hmax : (maxSize - kHeaderSize).toNat = 2 ^ 64 - 31 := by decide +kernel
  have hrest : (maxSize - kHeaderSize - size context).toNat
      = (2 ^ 64 - context.length + (2 ^ 64 - 31)) % 2 ^ 64 := by
    rw [BitVec.toNat_sub, hmax, toNat_size hc]
  rw [gt_iff_lt, gt_iff_lt, BitVec.lt_def, BitVec.lt_def, hrest, hmax, toNat_size hc,
    toNat_size hm]
  omega

/-- The frame, where its size fits a `std::size_t`. -/
theorem frameMessage_eq {context message : List U8} {tagSize : TagSize} (h : tagSize.Supported)
    (hlen : 30 + context.length + message.length < 2 ^ 64) :
    frameMessage context message tagSize = .ok (frameBytes context message tagSize) := by
  have hs : isSupportedTagSize (tagSizeBytes tagSize) = true :=
    (supportedBytes_tagSizeBytes tagSize).mpr h
  have hfits := (@frameOverflows_iff context message (by omega) (by omega)).not.mpr
    (not_le.mpr hlen)
  simp only [frameMessage, hs, not_true_eq_false, if_false, if_neg hfits, appendU64Be_eq,
    u8_tagSizeBytes, checkedU64Length, frameBytes, header, List.append_assoc]
  rfl

/-- The throw, where it does not. -/
theorem frameMessage_overflow {context message : List U8} {tagSize : TagSize}
    (h : tagSize.Supported) (hc : context.length < 2 ^ 64) (hm : message.length < 2 ^ 64)
    (hlen : 2 ^ 64 ≤ 30 + context.length + message.length) :
    frameMessage context message tagSize
      = .error (.thrown .lengthError "PVC-MAC-0 frame size overflows size_t") := by
  have hs : isSupportedTagSize (tagSizeBytes tagSize) = true :=
    (supportedBytes_tagSizeBytes tagSize).mpr h
  have hover := (frameOverflows_iff hc hm).mpr hlen
  simp only [frameMessage, hs, not_true_eq_false, if_false, if_pos hover]
  rfl

end PvcMac0

namespace PvcAead0

/-- The bytes of `frame_stream_block`. -/
def streamBytes (nonce : Nonce192) (counter : U64) (tagSize : TagSize) : List U8 :=
  kMagic ++ [kSeparator, kFrameVersion, kRoleStream, kPrimitiveProfileC1, tagSize.value, kReserved]
    ++ nonce.toList ++ u64be counter

/-- The fixed part of `frame_authentication_context`. -/
def contextHeader (nonce : Nonce192) (tagSize : TagSize) (associatedDataSize : U64) : List U8 :=
  kMagic ++ [kSeparator, kFrameVersion, kRoleAuthentication, kPrimitiveProfileC1, kMacProfileM1,
    tagSize.value, kReserved] ++ nonce.toList ++ u64be associatedDataSize

/-- The bytes of `frame_authentication_context`. -/
def contextBytes (nonce : Nonce192) (associatedData : List U8) (tagSize : TagSize) : List U8 :=
  contextHeader nonce tagSize (size associatedData) ++ associatedData

@[simp] theorem length_streamBytes (nonce : Nonce192) (counter : U64) (tagSize : TagSize) :
    (streamBytes nonce counter tagSize).length = 48 := by
  simp [streamBytes, kMagic]

@[simp] theorem length_contextHeader (nonce : Nonce192) (tagSize : TagSize) (bytes : U64) :
    (contextHeader nonce tagSize bytes).length = 49 := by
  simp [contextHeader, kMagic]

@[simp] theorem length_contextBytes (nonce : Nonce192) (associatedData : List U8)
    (tagSize : TagSize) :
    (contextBytes nonce associatedData tagSize).length = 49 + associatedData.length := by
  simp [contextBytes]

theorem frameStreamBlock_eq {tagSize : TagSize} (h : tagSize.Supported) (nonce : Nonce192)
    (counter : U64) :
    frameStreamBlock nonce counter tagSize = .ok (streamBytes nonce counter tagSize) := by
  have hs : isSupportedTagSize (tagSizeBytes tagSize) = true :=
    (supportedBytes_tagSizeBytes tagSize).mpr h
  simp only [frameStreamBlock, hs, not_true_eq_false, if_false, appendU64Be_eq, u8_tagSizeBytes,
    streamBytes, List.append_assoc]
  rfl

theorem frameStreamBlock_of_not_supported {tagSize : TagSize} (h : ¬ tagSize.Supported)
    (nonce : Nonce192) (counter : U64) : frameStreamBlock nonce counter tagSize
      = .error (.thrown .invalidArgument "unsupported PVC-AEAD-0 tag size") := by
  have hs : ¬ isSupportedTagSize (tagSizeBytes tagSize) = true :=
    fun hs => h ((supportedBytes_tagSizeBytes tagSize).mp hs)
  simp only [frameStreamBlock, if_pos hs]
  rfl

/-- Both checks of the context length are the same bound. -/
theorem contextOverflows_iff {associatedData : List U8} (h : associatedData.length < 2 ^ 64) :
    size associatedData > maxSize - kAuthFixedSize ↔ 2 ^ 64 ≤ 49 + associatedData.length := by
  have hmax : (maxSize - kAuthFixedSize).toNat = 2 ^ 64 - 50 := by decide +kernel
  rw [gt_iff_lt, BitVec.lt_def, hmax, toNat_size h]
  omega

theorem validateAuthenticationContextLength_eq {associatedData : List U8}
    (h : 49 + associatedData.length < 2 ^ 64) :
    validateAuthenticationContextLength (size associatedData) = .ok () := by
  have hle : ¬ size associatedData > maxSize - kAuthFixedSize :=
    mt (contextOverflows_iff (by omega)).mp (not_le.mpr h)
  have hle' : ¬ size associatedData > kMaximumEncodedLength - kAuthFixedSize := hle
  simp only [validateAuthenticationContextLength, if_neg hle, if_neg hle']
  rfl

theorem validateAuthenticationContextLength_overflow {associatedData : List U8}
    (hlen : associatedData.length < 2 ^ 64) (h : 2 ^ 64 ≤ 49 + associatedData.length) :
    validateAuthenticationContextLength (size associatedData)
      = .error (.thrown .lengthError "PVC-AEAD-0 authentication context overflows size_t") := by
  have hlt := (contextOverflows_iff hlen).mpr h
  simp only [validateAuthenticationContextLength, if_pos hlt]
  rfl

theorem frameAuthenticationContext_eq {tagSize : TagSize} (h : tagSize.Supported)
    (nonce : Nonce192) {associatedData : List U8} (hlen : 49 + associatedData.length < 2 ^ 64) :
    frameAuthenticationContext nonce associatedData tagSize
      = .ok (contextBytes nonce associatedData tagSize) := by
  have hs : isSupportedTagSize (tagSizeBytes tagSize) = true :=
    (supportedBytes_tagSizeBytes tagSize).mpr h
  simp only [frameAuthenticationContext, hs, not_true_eq_false, if_false,
    validateAuthenticationContextLength_eq hlen, appendU64Be_eq, u8_tagSizeBytes,
    checkedU64Length, contextBytes, contextHeader, List.append_assoc]
  rfl

theorem frameAuthenticationContext_of_not_supported {tagSize : TagSize}
    (h : ¬ tagSize.Supported) (nonce : Nonce192) (associatedData : List U8) :
    frameAuthenticationContext nonce associatedData tagSize
      = .error (.thrown .invalidArgument "unsupported PVC-AEAD-0 tag size") := by
  have hs : ¬ isSupportedTagSize (tagSizeBytes tagSize) = true :=
    fun hs => h ((supportedBytes_tagSizeBytes tagSize).mp hs)
  simp only [frameAuthenticationContext, if_pos hs]
  rfl

theorem frameAuthenticationContext_overflow {tagSize : TagSize} (h : tagSize.Supported)
    (nonce : Nonce192) {associatedData : List U8} (hlen : associatedData.length < 2 ^ 64)
    (hover : 2 ^ 64 ≤ 49 + associatedData.length) :
    frameAuthenticationContext nonce associatedData tagSize
      = .error (.thrown .lengthError "PVC-AEAD-0 authentication context overflows size_t") := by
  have hs : isSupportedTagSize (tagSizeBytes tagSize) = true :=
    (supportedBytes_tagSizeBytes tagSize).mpr h
  simp only [frameAuthenticationContext, hs, not_true_eq_false, if_false,
    validateAuthenticationContextLength_overflow hlen hover]
  rfl

end PvcAead0

/-! ## Injectivity -/

theorem TagSize.value_injective : Function.Injective TagSize.value := by
  rintro ⟨v⟩ ⟨w⟩ rfl
  rfl

/-- Sizes below `2^64` determine lengths. -/
theorem length_eq_of_size_eq {l m : List U8} (hl : l.length < 2 ^ 64) (hm : m.length < 2 ^ 64)
    (h : size l = size m) : l.length = m.length := by
  rw [← toNat_size hl, ← toNat_size hm, h]

/-- The stream frame determines its nonce, its counter and its profile. -/
theorem streamBytes_prefixFree :
    PrefixFreeOn (Set.univ : Set (Nonce192 × U64 × TagSize))
      fun x => PvcAead0.streamBytes x.1 x.2.1 x.2.2 := by
  refine prefixFreeOn_of_length 48 (fun x _ => PvcAead0.length_streamBytes _ _ _) ?_
  rintro ⟨nonce, counter, tagSize⟩ - ⟨nonce', counter', tagSize'⟩ - h
  simp only [PvcAead0.streamBytes] at h
  obtain ⟨h, hcounter⟩ := List.append_inj h (by simp)
  obtain ⟨hhead, hnonce⟩ := List.append_inj h (by simp)
  have htag := (List.append_inj hhead rfl).2
  simp only [List.cons.injEq] at htag
  obtain rfl := TagSize.value_injective htag.2.2.2.2.1
  obtain rfl := Vector.toList_inj.mp hnonce
  obtain rfl := u64be_injective hcounter
  rfl

/-- The fixed part of the context determines the nonce, the profile and the size
of the associated data. -/
theorem contextHeader_prefixFree :
    PrefixFreeOn (Set.univ : Set (Nonce192 × TagSize × U64))
      fun x => PvcAead0.contextHeader x.1 x.2.1 x.2.2 := by
  refine prefixFreeOn_of_length 49 (fun x _ => PvcAead0.length_contextHeader _ _ _) ?_
  rintro ⟨nonce, tagSize, bytes⟩ - ⟨nonce', tagSize', bytes'⟩ - h
  simp only [PvcAead0.contextHeader] at h
  obtain ⟨h, hbytes⟩ := List.append_inj h (by simp)
  obtain ⟨hhead, hnonce⟩ := List.append_inj h (by simp)
  have htag := (List.append_inj hhead rfl).2
  simp only [List.cons.injEq] at htag
  obtain rfl := TagSize.value_injective htag.2.2.2.2.2.1
  obtain rfl := Vector.toList_inj.mp hnonce
  obtain rfl := u64be_injective hbytes
  rfl

/-- The header of a MAC frame determines the profile and the two sizes. -/
theorem header_prefixFree :
    PrefixFreeOn (Set.univ : Set (TagSize × U64 × U64))
      fun x => PvcMac0.header x.1 x.2.1 x.2.2 := by
  refine prefixFreeOn_of_length 30 (fun x _ => by simp [PvcMac0.header, PvcMac0.kMagic]) ?_
  rintro ⟨tagSize, context, message⟩ - ⟨tagSize', context', message'⟩ - h
  simp only [PvcMac0.header] at h
  obtain ⟨h, hmessage⟩ := List.append_inj h (by simp)
  obtain ⟨hhead, hcontext⟩ := List.append_inj h (by simp)
  have htag := (List.append_inj hhead rfl).2
  simp only [List.cons.injEq] at htag
  obtain rfl := TagSize.value_injective htag.2.2.2.1
  obtain rfl := u64be_injective hcontext
  obtain rfl := u64be_injective hmessage
  rfl

/-- The context determines the nonce, the associated data and the profile. -/
theorem contextBytes_prefixFree :
    PrefixFreeOn {x : Nonce192 × List U8 × TagSize | x.2.1.length < 2 ^ 64}
      fun x => PvcAead0.contextBytes x.1 x.2.1 x.2.2 := by
  refine prefixFreeOn_header_append
    (fun x : Nonce192 × List U8 × TagSize => (x.1, x.2.2, size x.2.1))
    (fun x _ y _ => contextHeader_prefixFree x trivial y trivial) fun c => ?_
  refine prefixFreeOn_of_length c.2.2.toNat ?_ ?_
  · rintro x ⟨hx, rfl⟩
    exact (toNat_size hx).symm
  · rintro ⟨nonce, ad, tagSize⟩ ⟨-, hx⟩ ⟨nonce', ad', tagSize'⟩ ⟨-, hy⟩ rfl
    obtain ⟨rfl, h⟩ := Prod.mk.inj (hx.trans hy.symm)
    obtain ⟨rfl, -⟩ := Prod.mk.inj h
    rfl

/-- The nested MAC frame determines the nonce, the associated data, the ciphertext
and the profile. -/
theorem macBytes_prefixFree :
    PrefixFreeOn {x : Nonce192 × List U8 × List U8 × TagSize |
        49 + x.2.1.length < 2 ^ 64 ∧ x.2.2.1.length < 2 ^ 64}
      fun x => PvcMac0.frameBytes (PvcAead0.contextBytes x.1 x.2.1 x.2.2.2) x.2.2.1 x.2.2.2 := by
  refine prefixFreeOn_header_append
    (fun x : Nonce192 × List U8 × List U8 × TagSize =>
      (x.2.2.2, size (PvcAead0.contextBytes x.1 x.2.1 x.2.2.2), size x.2.2.1))
    (fun x _ y _ => header_prefixFree x trivial y trivial) fun c => ?_
  have hsize : ∀ x : Nonce192 × List U8 × List U8 × TagSize, 49 + x.2.1.length < 2 ^ 64 →
      (size (PvcAead0.contextBytes x.1 x.2.1 x.2.2.2)).toNat
        = (PvcAead0.contextBytes x.1 x.2.1 x.2.2.2).length :=
    fun x hx => toNat_size (by rw [PvcAead0.length_contextBytes]; exact hx)
  refine prefixFreeOn_of_length (c.2.1.toNat + c.2.2.toNat) ?_ ?_
  · rintro x ⟨⟨had, hct⟩, rfl⟩
    rw [List.length_append, hsize x had, toNat_size hct]
  · rintro ⟨nonce, ad, ct, tagSize⟩ ⟨⟨had, hct⟩, hx⟩ ⟨nonce', ad', ct', tagSize'⟩
      ⟨⟨had', hct'⟩, hy⟩ h
    simp only at had hct had' hct' h
    obtain ⟨rfl, hkey⟩ := Prod.mk.inj (hx.trans hy.symm)
    obtain ⟨hcontext, -⟩ := Prod.mk.inj hkey
    have hlen := length_eq_of_size_eq (by rw [PvcAead0.length_contextBytes]; exact had)
      (by rw [PvcAead0.length_contextBytes]; exact had') hcontext
    obtain ⟨hctx, rfl⟩ := List.append_inj h hlen
    have htuple : (nonce, ad, tagSize) = (nonce', ad', tagSize) :=
      contextBytes_prefixFree _ (show ad.length < 2 ^ 64 by omega) _
        (show ad'.length < 2 ^ 64 by omega) [] [] (by simpa using hctx)
    obtain ⟨rfl, htail⟩ := Prod.mk.inj htuple
    obtain ⟨rfl, -⟩ := Prod.mk.inj htail
    rfl

/-- The two kinds of frame part in their fifth byte. -/
theorem streamBytes_take (nonce : Nonce192) (counter : U64) (tagSize : TagSize) :
    (PvcAead0.streamBytes nonce counter tagSize).take 5 = [0x50, 0x56, 0x43, 0x2D, 0x41] := rfl

theorem frameBytes_take (context message : List U8) (tagSize : TagSize) :
    (PvcMac0.frameBytes context message tagSize).take 5 = [0x50, 0x56, 0x43, 0x2D, 0x4D] := rfl

/-! ## PRF inputs -/

/-- What names a byte string that `seal` or `open` passes to C1. -/
inductive PrfInput : Type where
  | stream (nonce : Nonce192) (counter : U64) (tagSize : TagSize)
  | mac (nonce : Nonce192) (associatedData ciphertext : List U8) (tagSize : TagSize)

namespace PrfInput

/-- The nonce in the frame. -/
def nonce : PrfInput → Nonce192
  | stream nonce _ _ => nonce
  | mac nonce _ _ _ => nonce

/-- The framing calls that produce the byte string. -/
def frame : PrfInput → Except Fault (List U8)
  | stream nonce counter tagSize => PvcAead0.frameStreamBlock nonce counter tagSize
  | mac nonce associatedData ciphertext tagSize => do
    let context ← PvcAead0.frameAuthenticationContext nonce associatedData tagSize
    PvcMac0.frameMessage context ciphertext tagSize

/-- The byte string, where the framing calls return. -/
def bytes : PrfInput → List U8
  | stream nonce counter tagSize => PvcAead0.streamBytes nonce counter tagSize
  | mac nonce associatedData ciphertext tagSize =>
    PvcMac0.frameBytes (PvcAead0.contextBytes nonce associatedData tagSize) ciphertext tagSize

/-- The profile is supported and the sizes fit. -/
def Ok : PrfInput → Prop
  | stream _ _ tagSize => tagSize.Supported
  | mac _ associatedData ciphertext tagSize =>
    tagSize.Supported ∧ 79 + associatedData.length + ciphertext.length < 2 ^ 64

/-- The lengths are those of buffers. -/
def Sized : PrfInput → Prop
  | stream _ _ _ => True
  | mac _ associatedData ciphertext _ =>
    associatedData.length < 2 ^ 64 ∧ ciphertext.length < 2 ^ 64

theorem Ok.sized {x : PrfInput} (h : x.Ok) : x.Sized := by
  cases x with
  | stream nonce counter tagSize => trivial
  | mac nonce ad ct tagSize =>
    obtain ⟨-, h⟩ := h
    exact ⟨by omega, by omega⟩

/-- The framing calls return exactly where the profile is supported and the sizes
fit. -/
theorem frame_eq {x : PrfInput} (h : x.Ok) : x.frame = .ok x.bytes := by
  cases x with
  | stream nonce counter tagSize => exact PvcAead0.frameStreamBlock_eq h nonce counter
  | mac nonce ad ct tagSize =>
    obtain ⟨ht, hlen⟩ := h
    simp only [frame, PvcAead0.frameAuthenticationContext_eq ht nonce
      (show 49 + ad.length < 2 ^ 64 by omega)]
    exact PvcMac0.frameMessage_eq ht (by rw [PvcAead0.length_contextBytes]; omega)

theorem ok_of_frame {x : PrfInput} {b : List U8} (hsized : x.Sized) (h : x.frame = .ok b) :
    x.Ok ∧ b = x.bytes := by
  suffices hok : x.Ok from ⟨hok, Except.ok.inj (h.symm.trans (frame_eq hok))⟩
  cases x with
  | stream nonce counter tagSize =>
    by_contra ht
    rw [frame, PvcAead0.frameStreamBlock_of_not_supported ht] at h
    exact absurd h (by simp)
  | mac nonce ad ct tagSize =>
    obtain ⟨had, hct⟩ := hsized
    by_cases ht : tagSize.Supported
    · refine ⟨ht, ?_⟩
      by_contra hlen
      by_cases hcontext : 49 + ad.length < 2 ^ 64
      · simp only [frame, PvcAead0.frameAuthenticationContext_eq ht nonce hcontext] at h
        change PvcMac0.frameMessage _ ct tagSize = .ok b at h
        rw [PvcMac0.frameMessage_overflow ht (by rw [PvcAead0.length_contextBytes]; exact hcontext)
          hct (by rw [PvcAead0.length_contextBytes]; omega)] at h
        exact absurd h (by simp)
      · simp only [frame, PvcAead0.frameAuthenticationContext_overflow ht nonce had
          (not_lt.mp hcontext)] at h
        exact absurd h (by simp [bind, Except.bind])
    · simp only [frame, PvcAead0.frameAuthenticationContext_of_not_supported ht] at h
      exact absurd h (by simp [bind, Except.bind])

/-- **PRF inputs are prefix-free**: of two byte strings passed to C1 neither is a
prefix of the other, unless they are of one kind and come from one tuple. -/
theorem eq_of_prefix {x y : PrfInput} (hx : x.Ok) (hy : y.Ok) (h : x.bytes <+: y.bytes) :
    x = y := by
  cases x with
  | stream nonce counter tagSize =>
    cases y with
    | stream nonce' counter' tagSize' =>
      have := streamBytes_prefixFree.eq_of_prefix (a := (nonce, counter, tagSize))
        (b := (nonce', counter', tagSize')) trivial trivial h
      simp_all
    | mac nonce' ad' ct' tagSize' =>
      refine absurd h (not_prefix_of_front_ne (n := 5) (by simp [bytes]) ?_)
      rw [bytes, bytes, streamBytes_take, frameBytes_take]
      decide
  | mac nonce ad ct tagSize =>
    obtain ⟨-, hx⟩ := hx
    cases y with
    | stream nonce' counter' tagSize' =>
      refine absurd h (not_prefix_of_front_ne (n := 5) ?_ ?_)
      · simp only [bytes, PvcMac0.frameBytes, PvcMac0.header, PvcMac0.kMagic, List.length_append,
          List.length_cons]
        omega
      · rw [bytes, bytes, streamBytes_take, frameBytes_take]
        decide
    | mac nonce' ad' ct' tagSize' =>
      obtain ⟨-, hy⟩ := hy
      have := macBytes_prefixFree.eq_of_prefix (a := (nonce, ad, ct, tagSize))
        (b := (nonce', ad', ct', tagSize')) ⟨by simp only; omega, by simp only; omega⟩
        ⟨by simp only; omega, by simp only; omega⟩ h
      simp_all

end PrfInput
