/-
# Seal and open

What the public profile guarantees of single calls: `open` accepts exactly what
`seal` produces, both make a known list of C1 calls, and two seals under one nonce
leak exactly the difference of their plaintexts.
-/
import RotSymEnc.AeadRuns

open StatefulRuns

/-! ## Returned values and calls -/

theorem PrfRun.returned_of_ok {α : Type} {x : PrfRun α} {a : α} {calls : List PrfCall}
    (h : x.run [] = .ok a calls) : x.returned = .ok a := by
  rw [PrfRun.returned, h]

/-- What a run returns, it returns with the list of its calls. -/
theorem PrfRun.exists_of_returned {α : Type} {x : PrfRun α} {a : α} (h : x.returned = .ok a) :
    ∃ calls, x.run [] = .ok a calls := by
  unfold PrfRun.returned at h
  cases hx : x.run [] with
  | ok b calls =>
    rw [hx] at h
    exact ⟨calls, by rw [Except.ok.inj h]⟩
  | error fault calls =>
    rw [hx] at h
    cases h

theorem PrfRun.returned_of_error {α : Type} {x : PrfRun α} {fault : Fault}
    {calls : List PrfCall} (h : x.run [] = .error fault calls) : x.returned = .error fault := by
  rw [PrfRun.returned, h]

theorem PrfRun.calls_of_ok {α : Type} {x : PrfRun α} {a : α} {calls : List PrfCall}
    (h : x.run [] = .ok a calls) : x.calls = calls := by
  rw [PrfRun.calls, h]

theorem PrfRun.calls_of_error {α : Type} {x : PrfRun α} {fault : Fault} {calls : List PrfCall}
    (h : x.run [] = .error fault calls) : x.calls = calls := by
  rw [PrfRun.calls, h]

namespace PvcAead0

/-- Where a size overflows, `open` throws before any call. -/
theorem openMessage_run_of_overflow (keys : KeyPair512) (nonce : Nonce192)
    {associatedData ciphertext suppliedTag : List U8} (ht : TagLength suppliedTag.length)
    (had : associatedData.length < 2 ^ 64) (hct : ciphertext.length < 2 ^ 64)
    (hlen : 2 ^ 64 ≤ 79 + associatedData.length + ciphertext.length) (calls : List PrfCall) :
    ∃ what, (openMessage keys nonce associatedData ciphertext suppliedTag).run calls
      = .error (.thrown .lengthError what) calls := by
  have hsupported := ht.supported
  have hs : isSupportedTagSize (size suppliedTag) = true :=
    (supportedBytes_size (by rcases ht with h | h | h <;> omega)).mpr ht
  rw [openMessage, if_neg (not_not.mpr hs), tagSizeFromBytes, tagSizeOfBytes_size ht,
    run_bind_of_ok (lift_ok_run _ _)]
  by_cases hcontext : 49 + associatedData.length < 2 ^ 64
  · have hframe : PvcMac0.frameMessage
        (contextBytes nonce associatedData (tagSizeOfLength suppliedTag.length)) ciphertext
        (tagSizeOfLength suppliedTag.length) = .error _ :=
      PvcMac0.frameMessage_overflow hsupported (by rw [length_contextBytes]; exact hcontext) hct
        (by rw [length_contextBytes]; omega)
    rw [frameAuthenticationContext_eq hsupported nonce hcontext, run_bind_of_ok (lift_ok_run _ _)]
    exact ⟨_, run_bind_of_error (PvcMac0.verifyTag_run_of_error ht hframe _ _)⟩
  · rw [frameAuthenticationContext_overflow hsupported nonce had (not_lt.mp hcontext)]
    exact ⟨_, run_bind_of_error (lift_error_run _ _)⟩

end PvcAead0

namespace PvcRotSymEnc1

open PvcAead0 (keystreamMasked keystreamCalls macCall sealedTag)

/-! ## Runs of the public profile -/

/-- `seal` on a supported profile and sizes that fit. -/
theorem sealMessage_run {tagSize : TagSize} (ht : tagSize.Supported) (keys : KeyPair512)
    (nonce : Nonce192) {associatedData plaintext : List U8}
    (hlen : 79 + associatedData.length + plaintext.length < 2 ^ 64) (calls : List PrfCall) :
    (sealMessage keys nonce associatedData plaintext tagSize).run calls
      = .ok ⟨keystreamMasked keys.encryptionKey nonce tagSize plaintext,
          sealedTag keys.authenticationKey nonce associatedData
            (keystreamMasked keys.encryptionKey nonce tagSize plaintext) tagSize⟩
        (calls ++ keystreamCalls keys.encryptionKey nonce tagSize plaintext.length
          ++ [macCall keys.authenticationKey nonce associatedData
            (keystreamMasked keys.encryptionKey nonce tagSize plaintext) tagSize]) := by
  rw [sealMessage, toA1TagSize, convertTagSize_of_supported ht, run_bind_of_ok (lift_ok_run _ _),
    toA1Nonce, run_bind_of_ok (PvcAead0.sealMessage_run ht (toA1Keys keys) nonce hlen calls)]
  rfl

/-- `seal` where a size overflows: the keystream calls, then a throw. -/
theorem sealMessage_run_of_overflow {tagSize : TagSize} (ht : tagSize.Supported)
    (keys : KeyPair512) (nonce : Nonce192) {associatedData plaintext : List U8}
    (had : associatedData.length < 2 ^ 64) (hpt : plaintext.length < 2 ^ 64)
    (hlen : 2 ^ 64 ≤ 79 + associatedData.length + plaintext.length) :
    ∃ what, ∀ calls, (sealMessage keys nonce associatedData plaintext tagSize).run calls
      = .error (.thrown .lengthError what)
        (calls ++ keystreamCalls keys.encryptionKey nonce tagSize plaintext.length) := by
  obtain ⟨what, hrun⟩ :=
    PvcAead0.sealMessage_run_of_overflow ht (toA1Keys keys) nonce had hpt hlen
  refine ⟨what, fun calls => ?_⟩
  rw [sealMessage, toA1TagSize, convertTagSize_of_supported ht, run_bind_of_ok (lift_ok_run _ _),
    toA1Nonce, run_bind_of_error (hrun calls)]
  rfl

/-- `seal` on a raw profile that is none of the three throws before any call. -/
theorem sealMessage_run_of_not_supported {tagSize : TagSize} (ht : ¬ tagSize.Supported)
    (keys : KeyPair512) (nonce : Nonce192) (associatedData plaintext : List U8)
    (calls : List PrfCall) :
    (sealMessage keys nonce associatedData plaintext tagSize).run calls
      = .error (.thrown .invalidArgument "unsupported PVC-RotSymEnc-1 tag size") calls := by
  rw [sealMessage, toA1TagSize, convertTagSize_of_not_supported ht]
  exact run_bind_of_error (lift_error_run _ _)

/-- **What `seal` returns**: a ciphertext and a tag exactly where the profile is
supported and the sizes fit. -/
theorem sealMessage_returned_iff {tagSize : TagSize} (keys : KeyPair512) (nonce : Nonce192)
    {associatedData plaintext : List U8} (had : associatedData.length < 2 ^ 64)
    (hpt : plaintext.length < 2 ^ 64) (sealed : SealedMessage) :
    (sealMessage keys nonce associatedData plaintext tagSize).returned = .ok sealed ↔
      tagSize.Supported ∧ 79 + associatedData.length + plaintext.length < 2 ^ 64 ∧
      sealed.ciphertext = keystreamMasked keys.encryptionKey nonce tagSize plaintext ∧
      sealed.tag = sealedTag keys.authenticationKey nonce associatedData sealed.ciphertext
        tagSize := by
  by_cases ht : tagSize.Supported
  · by_cases hlen : 79 + associatedData.length + plaintext.length < 2 ^ 64
    · rw [PrfRun.returned_of_ok (sealMessage_run ht keys nonce hlen [])]
      constructor
      · intro h
        obtain rfl := Except.ok.inj h
        exact ⟨ht, hlen, rfl, rfl⟩
      · rintro ⟨-, -, hct, htag⟩
        rw [← hct, ← htag]
    · obtain ⟨what, hrun⟩ :=
        sealMessage_run_of_overflow ht keys nonce had hpt (not_lt.mp hlen)
      rw [PrfRun.returned_of_error (hrun [])]
      exact ⟨fun h => absurd h (by simp), fun h => absurd h.2.1 hlen⟩
  · rw [PrfRun.returned_of_error (sealMessage_run_of_not_supported ht keys nonce _ _ [])]
    exact ⟨fun h => absurd h (by simp), fun h => absurd h.1 ht⟩

/-- **What `open` returns**: a plaintext exactly where the tag has a supported
length, the sizes fit and the tag is the one of the ciphertext. -/
theorem openMessage_returned_iff (keys : KeyPair512) (nonce : Nonce192)
    {associatedData ciphertext suppliedTag : List U8} (had : associatedData.length < 2 ^ 64)
    (hct : ciphertext.length < 2 ^ 64) (htag : suppliedTag.length < 2 ^ 64)
    (plaintext : List U8) :
    (openMessage keys nonce associatedData ciphertext suppliedTag).returned
        = .ok (some plaintext) ↔
      TagLength suppliedTag.length ∧ 79 + associatedData.length + ciphertext.length < 2 ^ 64 ∧
      suppliedTag = sealedTag keys.authenticationKey nonce associatedData ciphertext
        (tagSizeOfLength suppliedTag.length) ∧
      plaintext = keystreamMasked keys.encryptionKey nonce (tagSizeOfLength suppliedTag.length)
        ciphertext := by
  by_cases ht : TagLength suppliedTag.length
  · by_cases hlen : 79 + associatedData.length + ciphertext.length < 2 ^ 64
    · have hrun := PvcAead0.openMessage_run (toA1Keys keys) nonce ht hlen []
      by_cases hmatch : suppliedTag = sealedTag keys.authenticationKey nonce associatedData
          ciphertext (tagSizeOfLength suppliedTag.length)
      · have hcond : suppliedTag = sealedTag (toA1Keys keys).authenticationKey nonce associatedData
          ciphertext (tagSizeOfLength suppliedTag.length) := hmatch
        rw [if_pos hcond] at hrun
        rw [openMessage, toA1Nonce, PrfRun.returned_of_ok hrun]
        constructor
        · intro h
          exact ⟨ht, hlen, hmatch, (Option.some.inj (Except.ok.inj h)).symm⟩
        · rintro ⟨-, -, -, rfl⟩
          rfl
      · have hcond : ¬ suppliedTag = sealedTag (toA1Keys keys).authenticationKey nonce
          associatedData ciphertext (tagSizeOfLength suppliedTag.length) := hmatch
        rw [if_neg hcond] at hrun
        rw [openMessage, toA1Nonce, PrfRun.returned_of_ok hrun]
        exact ⟨fun h => absurd h (by simp), fun h => absurd h.2.2.1 hmatch⟩
    · obtain ⟨what, hrun⟩ := PvcAead0.openMessage_run_of_overflow (toA1Keys keys) nonce ht had hct
        (not_lt.mp hlen) []
      rw [openMessage, toA1Nonce, PrfRun.returned_of_error hrun]
      exact ⟨fun h => absurd h (by simp), fun h => absurd h.2.1 hlen⟩
  · rw [openMessage, toA1Nonce, PrfRun.returned_of_ok
      (PvcAead0.openMessage_run_of_length (toA1Keys keys) nonce _ _ htag ht [])]
    exact ⟨fun h => absurd h (by simp), fun h => absurd h.1 ht⟩

/-- Where the sizes fit, `open` does not throw. -/
theorem openMessage_returned_ok (keys : KeyPair512) (nonce : Nonce192)
    {associatedData ciphertext suppliedTag : List U8} (htag : suppliedTag.length < 2 ^ 64)
    (hlen : 79 + associatedData.length + ciphertext.length < 2 ^ 64) :
    ∃ result, (openMessage keys nonce associatedData ciphertext suppliedTag).returned
      = .ok result := by
  by_cases ht : TagLength suppliedTag.length
  · have hrun := PvcAead0.openMessage_run (toA1Keys keys) nonce ht hlen []
    split at hrun
    · exact ⟨_, PrfRun.returned_of_ok hrun⟩
    · exact ⟨_, PrfRun.returned_of_ok hrun⟩
  · exact ⟨_, PrfRun.returned_of_ok
      (PvcAead0.openMessage_run_of_length (toA1Keys keys) nonce _ _ htag ht [])⟩

/-! ## Open undoes seal, and accepts nothing else -/

/-- Where the sizes fit, `seal` returns, and `open` takes what it returned. -/
theorem exists_sealed {tagSize : TagSize} (ht : tagSize.Supported)
    (keys : KeyPair512) (nonce : Nonce192) {associatedData plaintext : List U8}
    (hlen : 79 + associatedData.length + plaintext.length < 2 ^ 64) :
    ∃ sealed, (sealMessage keys nonce associatedData plaintext tagSize).returned = .ok sealed ∧
      (openMessage keys nonce associatedData sealed.ciphertext sealed.tag).returned
        = .ok (some plaintext) := by
  obtain ⟨calls, hopen⟩ :=
    PvcAead0.openMessage_run_sealed ht (toA1Keys keys) nonce hlen []
  exact ⟨_, PrfRun.returned_of_ok (sealMessage_run ht keys nonce hlen []),
    PrfRun.returned_of_ok hopen⟩

/-- The sizes of a sealed message. -/
theorem length_sealed {tagSize : TagSize} {keys : KeyPair512} {nonce : Nonce192}
    {associatedData plaintext : List U8} {sealed : SealedMessage}
    (had : associatedData.length < 2 ^ 64) (hpt : plaintext.length < 2 ^ 64)
    (h : (sealMessage keys nonce associatedData plaintext tagSize).returned = .ok sealed) :
    sealed.ciphertext.length = plaintext.length ∧ sealed.tag.length = tagSize.value.toNat := by
  obtain ⟨ht, -, hct, htag⟩ := (sealMessage_returned_iff keys nonce had hpt sealed).mp h
  constructor
  · rw [hct, PvcAead0.length_keystreamMasked]
  · rw [htag]
    exact PvcMac0.length_tagBytes _ _ ht

/-- Another tag of the same length is rejected. -/
theorem openMessage_of_tag_ne {tagSize : TagSize} {keys : KeyPair512} {nonce : Nonce192}
    {associatedData plaintext : List U8} {sealed : SealedMessage}
    (had : associatedData.length < 2 ^ 64) (hpt : plaintext.length < 2 ^ 64)
    (h : (sealMessage keys nonce associatedData plaintext tagSize).returned = .ok sealed)
    {tag : List U8} (hlength : tag.length = sealed.tag.length) (hne : tag ≠ sealed.tag) :
    (openMessage keys nonce associatedData sealed.ciphertext tag).returned = .ok none := by
  obtain ⟨-, hlen, -, htag⟩ := (sealMessage_returned_iff keys nonce had hpt sealed).mp h
  obtain ⟨hctlen, htaglen⟩ := length_sealed had hpt h
  have htaglt : tag.length < 2 ^ 64 := by
    rw [hlength, htaglen]
    have := tagSize.value.isLt
    omega
  obtain ⟨result, hresult⟩ := openMessage_returned_ok keys nonce htaglt
    (by rw [hctlen]; exact hlen : 79 + associatedData.length + sealed.ciphertext.length < 2 ^ 64)
  cases result with
  | none => exact hresult
  | some opened =>
    obtain ⟨-, -, hmatch, -⟩ := (openMessage_returned_iff keys nonce had
      (by rw [hctlen]; exact hpt) htaglt opened).mp hresult
    rw [hlength, htaglen, tagSizeOfLength_toNat, ← htag] at hmatch
    exact absurd hmatch hne

/-- **Open and seal are inverse.**  Within the sizes the code checks, `open`
returns `plaintext` exactly where the tag has one of the three lengths and `seal`
with the profile of that length returns this ciphertext and this tag; on every
other input it returns `std::nullopt`. -/
theorem open_inverts_seal (keys : KeyPair512) (nonce : Nonce192)
    {associatedData ciphertext suppliedTag : List U8} (htag : suppliedTag.length < 2 ^ 64)
    (hlen : 79 + associatedData.length + ciphertext.length < 2 ^ 64) :
    (∀ plaintext : List U8, plaintext.length < 2 ^ 64 →
      ((openMessage keys nonce associatedData ciphertext suppliedTag).returned
          = .ok (some plaintext) ↔
        TagLength suppliedTag.length ∧
        (sealMessage keys nonce associatedData plaintext
          (tagSizeOfLength suppliedTag.length)).returned = .ok ⟨ciphertext, suppliedTag⟩)) ∧
    ((∀ plaintext : List U8, plaintext.length < 2 ^ 64 → TagLength suppliedTag.length →
        (sealMessage keys nonce associatedData plaintext
          (tagSizeOfLength suppliedTag.length)).returned ≠ .ok ⟨ciphertext, suppliedTag⟩) →
      (openMessage keys nonce associatedData ciphertext suppliedTag).returned = .ok none) := by
  have had : associatedData.length < 2 ^ 64 := by omega
  have hct : ciphertext.length < 2 ^ 64 := by omega
  have hiff : ∀ plaintext : List U8, plaintext.length < 2 ^ 64 →
      ((openMessage keys nonce associatedData ciphertext suppliedTag).returned
          = .ok (some plaintext) ↔
        TagLength suppliedTag.length ∧
        (sealMessage keys nonce associatedData plaintext
          (tagSizeOfLength suppliedTag.length)).returned = .ok ⟨ciphertext, suppliedTag⟩) := by
    intro plaintext hpt
    rw [openMessage_returned_iff keys nonce had hct htag,
      sealMessage_returned_iff keys nonce had hpt]
    constructor
    · rintro ⟨ht, -, hmatch, rfl⟩
      exact ⟨ht, ht.supported, by simpa using hlen, by simp, hmatch⟩
    · rintro ⟨ht, -, -, hmask, hmatch⟩
      refine ⟨ht, hlen, hmatch, ?_⟩
      simp only at hmask
      rw [hmask, PvcAead0.keystreamMasked_keystreamMasked]
  refine ⟨hiff, fun hnone => ?_⟩
  obtain ⟨result, hresult⟩ := openMessage_returned_ok keys nonce htag hlen
  cases result with
  | none => exact hresult
  | some plaintext =>
    obtain ⟨-, -, -, hplain⟩ :=
      (openMessage_returned_iff keys nonce had hct htag plaintext).mp hresult
    have hpt : plaintext.length < 2 ^ 64 := by
      rw [hplain, PvcAead0.length_keystreamMasked]
      exact hct
    obtain ⟨ht, hsealed⟩ := (hiff plaintext hpt).mp hresult
    exact absurd hsealed (hnone plaintext hpt ht)

/-- What `seal` makes of two bytes is opened again; with a tag of fifteen bytes it is rejected. -/
theorem open_inverts_seal_two_bytes :
    ∃ sealed : SealedMessage,
      (sealMessage ⟨Vector.replicate 32 0, Vector.replicate 32 1⟩ (Vector.replicate 24 2) [3] [4, 5]
        .bits192).returned = .ok sealed ∧
      (openMessage ⟨Vector.replicate 32 0, Vector.replicate 32 1⟩ (Vector.replicate 24 2) [3]
        sealed.ciphertext sealed.tag).returned = .ok (some [4, 5]) ∧
      (openMessage ⟨Vector.replicate 32 0, Vector.replicate 32 1⟩ (Vector.replicate 24 2) [3]
        sealed.ciphertext (sealed.tag.take 15)).returned = .ok none := by
  have ht : TagSize.bits192.Supported := by decide
  obtain ⟨sealed, hsealed, -⟩ := exists_sealed ht ⟨Vector.replicate 32 0, Vector.replicate 32 1⟩
    (Vector.replicate 24 2) (show 79 + [(3 : U8)].length + [(4 : U8), 5].length < 2 ^ 64 by decide)
  obtain ⟨hct, htag⟩ := length_sealed (by decide) (by decide) hsealed
  have htag : sealed.tag.length = 24 := htag
  have hshort : (sealed.tag.take 15).length = 15 :=
    List.length_take_of_le (htag ▸ (by decide : 15 ≤ 24))
  have hlen : 79 + [(3 : U8)].length + sealed.ciphertext.length < 2 ^ 64 := by rw [hct]; decide
  refine ⟨sealed, hsealed, ?_, ?_⟩
  · refine ((open_inverts_seal _ _ (by rw [htag]; decide) hlen).1 [4, 5] (by decide)).mpr ?_
    rw [htag]
    exact ⟨by decide, hsealed⟩
  · refine (open_inverts_seal _ _ (by rw [hshort]; decide) hlen).2 fun plaintext _ hlength => ?_
    rw [hshort] at hlength
    exact absurd hlength (by decide)

/-! ## The calls, in order -/

/-- The two outcomes of `open` on a tag of a supported length, with their calls. -/
theorem openMessage_run_or (keys : KeyPair512) (nonce : Nonce192)
    {associatedData ciphertext suppliedTag : List U8} (ht : TagLength suppliedTag.length)
    (hlen : 79 + associatedData.length + ciphertext.length < 2 ^ 64) :
    let tagSize := tagSizeOfLength suppliedTag.length
    let framed := (PrfInput.mac nonce associatedData ciphertext tagSize).bytes
    if suppliedTag = (c1Output keys.authenticationKey framed).toList.take suppliedTag.length then
      ∃ plaintext, (openMessage keys nonce associatedData ciphertext suppliedTag).run []
        = .ok (some plaintext) (⟨keys.authenticationKey, framed⟩
          :: (List.range ((ciphertext.length + 31) / 32)).map (fun i =>
            ⟨keys.encryptionKey, (PrfInput.stream nonce (BitVec.ofNat 64 i) tagSize).bytes⟩))
    else
      (openMessage keys nonce associatedData ciphertext suppliedTag).run []
        = .ok none [⟨keys.authenticationKey, framed⟩] := by
  intro tagSize framed
  have hrun := PvcAead0.openMessage_run (toA1Keys keys) nonce ht hlen []
  rw [sealedTag, PvcMac0.tagBytes, ht.toNat_value] at hrun
  split
  · next hmatch => exact ⟨_, hrun.trans (if_pos hmatch)⟩
  · next hmatch => exact hrun.trans (if_neg hmatch)

/-- A rejection depends on the authentication key alone. -/
theorem openMessage_none_iff (keys : KeyPair512) (nonce : Nonce192)
    {associatedData ciphertext suppliedTag : List U8} (htag : suppliedTag.length < 2 ^ 64)
    (hlen : 79 + associatedData.length + ciphertext.length < 2 ^ 64) :
    (openMessage keys nonce associatedData ciphertext suppliedTag).returned = .ok none ↔
      ¬ (TagLength suppliedTag.length ∧
        suppliedTag = sealedTag keys.authenticationKey nonce associatedData ciphertext
          (tagSizeOfLength suppliedTag.length)) := by
  obtain ⟨result, hresult⟩ := openMessage_returned_ok keys nonce htag hlen
  have hiff := openMessage_returned_iff keys nonce (show associatedData.length < 2 ^ 64 by omega)
    (show ciphertext.length < 2 ^ 64 by omega) htag
  constructor
  · rintro hnone ⟨ht, hmatch⟩
    have hsome := (hiff _).mpr ⟨ht, hlen, hmatch, rfl⟩
    rw [hnone] at hsome
    exact absurd hsome (by simp)
  · intro hnot
    cases result with
    | none => exact hresult
    | some plaintext =>
      obtain ⟨ht, -, hmatch, -⟩ := (hiff plaintext).mp hresult
      exact absurd ⟨ht, hmatch⟩ hnot

/-- **The C1 calls of `seal` and `open`.**  `seal` masks block after block under the
encryption key and then makes the one call under the authentication key, for the
ciphertext it returns.  `open` makes no call for a tag of another length;
otherwise its first call is the one under the authentication key, and the calls
under the encryption key follow only where the whole tag is the computed one.  So
acceptance does not depend on the encryption key, and a rejected tuple never
reaches it. -/
theorem prf_call_order (keys : KeyPair512) (nonce : Nonce192) (associatedData : List U8) :
    (∀ (plaintext : List U8) (tagSize : TagSize), tagSize.Supported →
      79 + associatedData.length + plaintext.length < 2 ^ 64 →
      ∃ sealed, (sealMessage keys nonce associatedData plaintext tagSize).run []
        = .ok sealed
          ((List.range ((plaintext.length + 31) / 32)).map (fun i =>
              ⟨keys.encryptionKey, (PrfInput.stream nonce (BitVec.ofNat 64 i) tagSize).bytes⟩)
            ++ [⟨keys.authenticationKey,
              (PrfInput.mac nonce associatedData sealed.ciphertext tagSize).bytes⟩])) ∧
    (∀ ciphertext suppliedTag : List U8, suppliedTag.length < 2 ^ 64 →
      ¬ TagLength suppliedTag.length →
      (openMessage keys nonce associatedData ciphertext suppliedTag).run [] = .ok none []) ∧
    (∀ ciphertext suppliedTag : List U8, TagLength suppliedTag.length →
      79 + associatedData.length + ciphertext.length < 2 ^ 64 →
      let tagSize := tagSizeOfLength suppliedTag.length
      let framed := (PrfInput.mac nonce associatedData ciphertext tagSize).bytes
      if suppliedTag = (c1Output keys.authenticationKey framed).toList.take suppliedTag.length then
        ∃ plaintext, (openMessage keys nonce associatedData ciphertext suppliedTag).run []
          = .ok (some plaintext) (⟨keys.authenticationKey, framed⟩
            :: (List.range ((ciphertext.length + 31) / 32)).map (fun i =>
              ⟨keys.encryptionKey, (PrfInput.stream nonce (BitVec.ofNat 64 i) tagSize).bytes⟩))
      else
        (openMessage keys nonce associatedData ciphertext suppliedTag).run []
          = .ok none [⟨keys.authenticationKey, framed⟩]) ∧
    ∀ (encryptionKey : ResearchKey256) (ciphertext suppliedTag : List U8),
      suppliedTag.length < 2 ^ 64 → 79 + associatedData.length + ciphertext.length < 2 ^ 64 →
      ((openMessage keys nonce associatedData ciphertext suppliedTag).returned = .ok none ↔
        (openMessage ⟨encryptionKey, keys.authenticationKey⟩ nonce associatedData ciphertext
          suppliedTag).returned = .ok none) := by
  refine ⟨fun plaintext tagSize ht hlen => ?_, fun ciphertext suppliedTag hlen ht => ?_,
    fun ciphertext suppliedTag ht hlen => ?_,
    fun encryptionKey ciphertext suppliedTag htag hlen => ?_⟩
  · exact ⟨_, sealMessage_run ht keys nonce hlen []⟩
  · exact PvcAead0.openMessage_run_of_length (toA1Keys keys) nonce _ _ hlen ht []
  · exact openMessage_run_or keys nonce ht hlen
  · exact (openMessage_none_iff keys nonce htag hlen).trans
      (openMessage_none_iff ⟨encryptionKey, keys.authenticationKey⟩ nonce htag hlen).symm

/-- A message of 33 bytes makes two calls of the keystream and the one of the MAC, and the other
way round when it is opened. -/
theorem prf_call_order_two_blocks :
    ∃ sealed, (sealMessage ⟨Vector.replicate 32 0, Vector.replicate 32 1⟩ (Vector.replicate 24 2)
        [3] (List.replicate 33 4) .bits128).run []
      = .ok sealed
        [⟨Vector.replicate 32 0, (PrfInput.stream (Vector.replicate 24 2) 0 .bits128).bytes⟩,
          ⟨Vector.replicate 32 0, (PrfInput.stream (Vector.replicate 24 2) 1 .bits128).bytes⟩,
          ⟨Vector.replicate 32 1,
            (PrfInput.mac (Vector.replicate 24 2) [3] sealed.ciphertext .bits128).bytes⟩] ∧
      ∃ plaintext, (openMessage ⟨Vector.replicate 32 0, Vector.replicate 32 1⟩
          (Vector.replicate 24 2) [3] sealed.ciphertext sealed.tag).run []
        = .ok (some plaintext)
        [⟨Vector.replicate 32 1,
            (PrfInput.mac (Vector.replicate 24 2) [3] sealed.ciphertext .bits128).bytes⟩,
          ⟨Vector.replicate 32 0, (PrfInput.stream (Vector.replicate 24 2) 0 .bits128).bytes⟩,
          ⟨Vector.replicate 32 0, (PrfInput.stream (Vector.replicate 24 2) 1 .bits128).bytes⟩] := by
  obtain ⟨hseal, -, hopen, -⟩ := prf_call_order ⟨Vector.replicate 32 0, Vector.replicate 32 1⟩
    (Vector.replicate 24 2) [3]
  obtain ⟨sealed, hrun⟩ := hseal (List.replicate 33 4) .bits128 (by decide) (by decide)
  have hreturned := PrfRun.returned_of_ok hrun
  obtain ⟨hct, htag⟩ := length_sealed (by decide) (by decide) hreturned
  have htag : sealed.tag.length = 16 := htag
  have hct : sealed.ciphertext.length = 33 := hct
  obtain ⟨-, -, -, hmatch⟩ :=
    (sealMessage_returned_iff _ _ (by decide) (by decide) sealed).mp hreturned
  have hopened := hopen sealed.ciphertext sealed.tag (by rw [htag]; decide) (by rw [hct]; decide)
  rw [htag, hct] at hopened
  exact ⟨sealed, hrun, (if_pos hmatch).mp hopened⟩

/-! ## What nonce reuse leaks -/

/-- A common mask cancels. -/
theorem xor_mask_cancel (x y mask : U8) : (x ^^^ mask) ^^^ (y ^^^ mask) = x ^^^ y := by
  rw [BitVec.xor_comm y, BitVec.xor_assoc, ← BitVec.xor_assoc mask, BitVec.xor_self,
    BitVec.zero_xor]

/-- Masked payloads differ where the payloads do. -/
theorem zipWith_masked (frame : U64 → List U8) (key : ResearchKey256) (input input' : List U8) :
    List.zipWith (· ^^^ ·) (masked frame key input) (masked frame key input')
      = List.zipWith (· ^^^ ·) input input' := by
  refine List.ext_getElem (by simp) fun j hj hj' => ?_
  simp only [masked, List.getElem_zipWith, List.getElem_mapIdx, xor_mask_cancel]

/-- The masked prefix is the prefix of the masked payload. -/
theorem masked_prefix (frame : U64 → List U8) (key : ResearchKey256) {input input' : List U8}
    (h : input <+: input') : masked frame key input <+: masked frame key input' := by
  obtain ⟨rest, rfl⟩ := h
  rw [masked, masked, List.mapIdx_append]
  exact List.prefix_append _ _

/-- **Two seals under one encryption key, nonce and profile** leak exactly the
difference of their plaintexts: it is the difference of the ciphertexts, over the
common length.  The ciphertext of a prefix is the prefix of the ciphertext, and
neither the authentication key nor the associated data enters it.  Conversely the
tag depends on the encryption key and the plaintext only through the ciphertext. -/
theorem nonce_reuse_leakage (nonce : Nonce192) (tagSize : TagSize) :
    (∀ (encryptionKey authenticationKey authenticationKey' : ResearchKey256)
      (associatedData associatedData' plaintext plaintext' : List U8) (s s' : SealedMessage),
      associatedData.length < 2 ^ 64 → associatedData'.length < 2 ^ 64 →
      plaintext.length < 2 ^ 64 → plaintext'.length < 2 ^ 64 →
      (sealMessage ⟨encryptionKey, authenticationKey⟩ nonce associatedData plaintext
        tagSize).returned = .ok s →
      (sealMessage ⟨encryptionKey, authenticationKey'⟩ nonce associatedData' plaintext'
        tagSize).returned = .ok s' →
      s.ciphertext.length = plaintext.length ∧ s'.ciphertext.length = plaintext'.length ∧
      List.zipWith (· ^^^ ·) s.ciphertext s'.ciphertext
        = List.zipWith (· ^^^ ·) plaintext plaintext' ∧
      (plaintext <+: plaintext' → s.ciphertext <+: s'.ciphertext) ∧
      (plaintext = plaintext' → s.ciphertext = s'.ciphertext)) ∧
    ∀ (encryptionKey encryptionKey' authenticationKey : ResearchKey256)
      (associatedData plaintext plaintext' : List U8) (s s' : SealedMessage),
      associatedData.length < 2 ^ 64 → plaintext.length < 2 ^ 64 → plaintext'.length < 2 ^ 64 →
      (sealMessage ⟨encryptionKey, authenticationKey⟩ nonce associatedData plaintext
        tagSize).returned = .ok s →
      (sealMessage ⟨encryptionKey', authenticationKey⟩ nonce associatedData plaintext'
        tagSize).returned = .ok s' →
      s.ciphertext = s'.ciphertext → s.tag = s'.tag := by
  constructor
  · intro e a a' ad ad' pt pt' s s' had had' hpt hpt' hs hs'
    obtain ⟨-, -, hct, -⟩ := (sealMessage_returned_iff _ nonce had hpt s).mp hs
    obtain ⟨-, -, hct', -⟩ := (sealMessage_returned_iff _ nonce had' hpt' s').mp hs'
    rw [hct, hct']
    exact ⟨PvcAead0.length_keystreamMasked _ _ _ _, PvcAead0.length_keystreamMasked _ _ _ _,
      zipWith_masked _ _ _ _, masked_prefix _ _, fun h => by rw [h]⟩
  · intro e e' a ad pt pt' s s' had hpt hpt' hs hs' hct
    obtain ⟨-, -, -, htag⟩ := (sealMessage_returned_iff _ nonce had hpt s).mp hs
    obtain ⟨-, -, -, htag'⟩ := (sealMessage_returned_iff _ nonce had hpt' s').mp hs'
    rw [htag, htag', hct]

/-- Two messages of different lengths sealed under one nonce and different
authentication keys. -/
theorem nonce_reuse_leakage_two :
    ∃ s s' : SealedMessage,
      (sealMessage ⟨Vector.replicate 32 0, Vector.replicate 32 1⟩ (Vector.replicate 24 2) [1] [2, 3]
        .bits128).returned = .ok s ∧
      (sealMessage ⟨Vector.replicate 32 0, Vector.replicate 32 3⟩ (Vector.replicate 24 2) []
        [2, 3, 4] .bits128).returned = .ok s' ∧
      s.ciphertext <+: s'.ciphertext := by
  have ht : TagSize.bits128.Supported := by decide
  have hs := PrfRun.returned_of_ok (sealMessage_run ht
    ⟨Vector.replicate 32 0, Vector.replicate 32 1⟩ (Vector.replicate 24 2)
    (show 79 + [(1 : U8)].length + [(2 : U8), 3].length < 2 ^ 64 by decide) [])
  have hs' := PrfRun.returned_of_ok (sealMessage_run ht
    ⟨Vector.replicate 32 0, Vector.replicate 32 3⟩ (Vector.replicate 24 2)
    (show 79 + ([] : List U8).length + [(2 : U8), 3, 4].length < 2 ^ 64 by decide) [])
  refine ⟨_, _, hs, hs', ?_⟩
  exact ((nonce_reuse_leakage (Vector.replicate 24 2) .bits128).1 _ _ _ [1] [] [2, 3] [2, 3, 4] _ _
    (by decide) (by decide) (by decide) (by decide) hs hs').2.2.2.1 ⟨[4], rfl⟩

end PvcRotSymEnc1
