/-
# Faults in the stream counter

`fault_injection_campaign.cpp` has a stream layer of its own, in which the counter of
one block can be changed.  Without a fault it is the keystream of the authenticated
encryption; with one it is the same loop over other frames, and differs from it in the
faulted block only.
-/
import RotSymEnc.AeadCorrectness

open StatefulRuns

namespace FaultInjection

/-! ## The stream layer of the campaign -/

/-- `kStreamBlockBytes`. -/
def kStreamBlockBytes : U64 := 32

/-- `to_a1_tag_size` of the campaign. -/
def toA1TagSize (tagSize : TagSize) : Except Fault TagSize :=
  if tagSize = .bits128 then .ok .bits128
  else if tagSize = .bits192 then .ok .bits192
  else if tagSize = .bits256 then .ok .bits256
  else .error (.thrown .runtimeError "invalid RotSymEnc tag size")

/-- `stream_output`. -/
def streamOutput (key : ResearchKey256) (nonce : Nonce192) (counter : U64) (tagSize : TagSize) :
    PrfRun ResearchOutput := do
  let a1TagSize ← lift (toA1TagSize tagSize)
  let frame ← lift (PvcAead0.frameStreamBlock nonce counter a1TagSize)
  callC1 key frame

/-- The counter of a block, changed in the faulted one. -/
def faultedCounter (faultedBlock : Option U64) (counterXor counter : U64) : U64 :=
  if faultedBlock = some counter then counter ^^^ counterXor else counter

/-- A pass of the loop in `apply_stream`. -/
def streamBlock (key : ResearchKey256) (nonce : Nonce192) (input : List U8) (tagSize : TagSize)
    (faultedBlock : Option U64) (counterXor : U64) (output : List U8) (block : ℕ) :
    PrfRun (List U8) := do
  let counter := faultedCounter faultedBlock counterXor (BitVec.ofNat 64 block)
  let stream ← streamOutput key nonce counter tagSize
  lift (xorBytes input stream (BitVec.ofNat 64 block * kStreamBlockBytes) output)

/-- `apply_stream`. -/
def applyStream (key : ResearchKey256) (nonce : Nonce192) (input : List U8) (tagSize : TagSize)
    (faultedBlock : Option U64) (counterXor : U64) : PrfRun (List U8) :=
  let blocks : U64 := if input.isEmpty then 0 else 1 + (size input - 1) / kStreamBlockBytes
  (List.range blocks.toNat).foldlM
    (streamBlock key nonce input tagSize faultedBlock counterXor) (List.replicate input.length 0)

/-! ## The loop over changed frames -/

/-- The frame of a block, of the changed counter. -/
def faultedFrame (nonce : Nonce192) (tagSize : TagSize) (faultedBlock : Option U64)
    (counterXor counter : U64) : List U8 :=
  (PrfInput.stream nonce (faultedCounter faultedBlock counterXor counter) tagSize).bytes

theorem faultedCounter_none (counterXor counter : U64) :
    faultedCounter none counterXor counter = counter := rfl

theorem faultedCounter_of_ne {block counter : U64} (h : block ≠ counter) (counterXor : U64) :
    faultedCounter (some block) counterXor counter = counter := by
  unfold faultedCounter
  rw [if_neg (by simpa using h)]

theorem faultedCounter_self (block counterXor : U64) :
    faultedCounter (some block) counterXor block = block ^^^ counterXor := by
  unfold faultedCounter
  rw [if_pos rfl]

section Runs

variable {tagSize : TagSize} (ht : tagSize.Supported) (key : ResearchKey256) (nonce : Nonce192)
include ht

theorem toA1TagSize_of_supported : toA1TagSize tagSize = .ok tagSize := by
  rcases ht with rfl | rfl | rfl <;> rfl

/-- `stream_output` is the output of C1 for the frame of the counter. -/
theorem streamOutput_run (counter : U64) (calls : List PrfCall) :
    (streamOutput key nonce counter tagSize).run calls
      = .ok (c1Output key (PrfInput.stream nonce counter tagSize).bytes)
        (calls ++ [⟨key, (PrfInput.stream nonce counter tagSize).bytes⟩]) := by
  unfold streamOutput
  rw [toA1TagSize_of_supported ht, run_bind_of_ok (lift_ok_run _ _),
    PvcAead0.frameStreamBlock_eq ht, run_bind_of_ok (lift_ok_run _ _), callC1_run]
  rfl

/-- A pass of the campaign is a pass of the keystream loop, over the changed frames. -/
theorem streamBlock_eq (input : List U8) (faultedBlock : Option U64) (counterXor : U64) :
    streamBlock key nonce input tagSize faultedBlock counterXor
      = xorBlock (fun counter => .ok (faultedFrame nonce tagSize faultedBlock counterXor counter))
        key input := by
  funext output block
  apply run_ext
  intro calls
  unfold streamBlock xorBlock faultedFrame
  rw [run_bind_of_ok (streamOutput_run ht key nonce _ calls), run_bind_of_ok (lift_ok_run _ _),
    run_bind_of_ok (callC1_run _ _ _)]
  rfl

/-- **`apply_stream` masks the input**, with the frames of the changed counters. -/
theorem applyStream_run {input : List U8} (hinput : input.length < 2 ^ 64)
    (faultedBlock : Option U64) (counterXor : U64) (calls : List PrfCall) :
    (applyStream key nonce input tagSize faultedBlock counterXor).run calls
      = .ok (masked (faultedFrame nonce tagSize faultedBlock counterXor) key input)
        (calls ++ streamCalls (faultedFrame nonce tagSize faultedBlock counterXor) key
          (blockCount input.length)) := by
  unfold applyStream
  rw [streamBlock_eq ht]
  exact xorStream_run (fun _ => rfl) key hinput (applyKeystream_blocks hinput) calls

end Runs

/-- The ciphertext of a seal that returns is what `apply_keystream` returned. -/
theorem ciphertext_of_sealMessage {keys : PvcAead0.KeyPair512} {nonce : Nonce192}
    {associatedData plaintext : List U8} {tagSize : TagSize} {sealed : SealedMessage}
    {calls calls' : List PrfCall}
    (h : (PvcAead0.sealMessage keys nonce associatedData plaintext tagSize).run calls
      = .ok sealed calls') :
    ∃ calls'', (PvcAead0.applyKeystream keys.encryptionKey nonce plaintext tagSize).run calls
      = .ok sealed.ciphertext calls'' := by
  unfold PvcAead0.sealMessage at h
  obtain ⟨ciphertext, calls₁, hstream, h⟩ := exists_of_run_bind h
  obtain ⟨context, calls₂, -, h⟩ := exists_of_run_bind h
  obtain ⟨macTagSize, calls₃, -, h⟩ := exists_of_run_bind h
  obtain ⟨tag, calls₄, -, h⟩ := exists_of_run_bind h
  obtain ⟨rfl, -⟩ := EStateM.Result.ok.inj h
  exact ⟨calls₁, hstream⟩

/-! ## The faulted block -/

section Masks

variable (key : ResearchKey256) (nonce : Nonce192) (tagSize : TagSize)

/-- The counter of a byte's block is the faulted one exactly for the bytes of that block. -/
theorem ofNat_block_eq_iff (block : U64) {j : ℕ} (hj : j < 2 ^ 64) :
    block = BitVec.ofNat 64 (j / 32) ↔ 32 * block.toNat ≤ j ∧ j < 32 * block.toNat + 32 := by
  have hdiv : (BitVec.ofNat 64 (j / 32)).toNat = j / 32 := by
    rw [BitVec.toNat_ofNat]
    omega
  rw [← BitVec.toNat_inj, hdiv]
  omega

/-- Outside the faulted block the masks agree. -/
theorem maskByte_faultedFrame_of_not (block counterXor : U64) {j : ℕ} (hj : j < 2 ^ 64)
    (hout : ¬ (32 * block.toNat ≤ j ∧ j < 32 * block.toNat + 32)) :
    maskByte (faultedFrame nonce tagSize (some block) counterXor) key j
      = maskByte (faultedFrame nonce tagSize none 0) key j := by
  have hne : block ≠ BitVec.ofNat 64 (j / 32) := by
    rwa [ne_eq, ofNat_block_eq_iff block hj]
  unfold maskByte faultedFrame
  rw [faultedCounter_of_ne hne, faultedCounter_none]

/-- In the faulted block the mask is the output of C1 for the changed counter. -/
theorem maskByte_faultedFrame (block counterXor : U64) (i : Fin 32)
    (hj : 32 * block.toNat + i.val < 2 ^ 64) :
    maskByte (faultedFrame nonce tagSize (some block) counterXor) key (32 * block.toNat + i.val)
      = (c1Output key (PrfInput.stream nonce (block ^^^ counterXor) tagSize).bytes)[i] := by
  have heq := (ofNat_block_eq_iff block hj).2 ⟨Nat.le_add_right _ _, by omega⟩
  have hindex : Fin.ofNat 32 (32 * block.toNat + i.val) = i := by
    apply Fin.ext
    rw [Fin.val_ofNat]
    omega
  unfold maskByte faultedFrame
  rw [← heq, faultedCounter_self, hindex]
  rw [Vector.get_eq_getElem, Fin.getElem_fin]

/-- Without a change, the stream is not faulted. -/
theorem masked_faultedFrame_zero (block : U64) (input : List U8) :
    masked (faultedFrame nonce tagSize (some block) 0) key input
      = masked (faultedFrame nonce tagSize none 0) key input := by
  have hframe : faultedFrame nonce tagSize (some block) 0 = faultedFrame nonce tagSize none 0 := by
    funext counter
    unfold faultedFrame
    by_cases h : block = counter
    · subst h
      have hzero : block ^^^ 0 = block := BitVec.xor_zero
      rw [faultedCounter_self, faultedCounter_none, hzero]
    · rw [faultedCounter_of_ne h, faultedCounter_none]
  rw [hframe]

section Bytes

variable {input : List U8} (hinput : input.length < 2 ^ 64) (block counterXor : U64)
include hinput

/-- Outside the faulted block the bytes are those of the unfaulted stream. -/
theorem masked_faultedFrame_of_not {j : ℕ}
    (hout : ¬ (32 * block.toNat ≤ j ∧ j < 32 * block.toNat + 32)) :
    (masked (faultedFrame nonce tagSize (some block) counterXor) key input)[j]?
      = (masked (faultedFrame nonce tagSize none 0) key input)[j]? := by
  unfold masked
  rw [List.getElem?_mapIdx, List.getElem?_mapIdx]
  by_cases hj : j < input.length
  · rw [maskByte_faultedFrame_of_not key nonce tagSize block counterXor (by omega) hout]
  · rw [List.getElem?_eq_none (by omega), Option.map_none, Option.map_none]

/-- In the faulted block the bytes are masked by the output for the changed counter. -/
theorem masked_faultedFrame_block (i : Fin 32) :
    (masked (faultedFrame nonce tagSize (some block) counterXor) key input)[32 * block.toNat
        + i.val]?
      = input[32 * block.toNat + i.val]?.map
          (· ^^^ (c1Output key (PrfInput.stream nonce (block ^^^ counterXor) tagSize).bytes)[i]) := by
  unfold masked
  rw [List.getElem?_mapIdx]
  by_cases hj : 32 * block.toNat + i.val < input.length
  · rw [maskByte_faultedFrame key nonce tagSize block counterXor i (by omega)]
  · rw [List.getElem?_eq_none (by omega), Option.map_none, Option.map_none]

/-- A fault behind the last block is no fault. -/
theorem masked_faultedFrame_behind (hblock : blockCount input.length ≤ block.toNat) :
    masked (faultedFrame nonce tagSize (some block) counterXor) key input
      = masked (faultedFrame nonce tagSize none 0) key input := by
  unfold blockCount at hblock
  apply List.ext_getElem?
  intro j
  by_cases hj : j < input.length
  · -- no byte of the input is in a block past the last
    apply masked_faultedFrame_of_not key nonce tagSize hinput
    omega
  · rw [List.getElem?_eq_none (by rw [length_masked]; omega),
      List.getElem?_eq_none (by rw [length_masked]; omega)]

end Bytes

end Masks

/-- **The campaign's stream**, for every key, nonce, profile and input of a size that
fits.  Without a fault it is the ciphertext of `seal`, with the same calls.  A changed
counter changes the bytes of its block only, each of which is the input byte combined
with the output of C1 for the changed counter; a fault that changes nothing, or that
names a block behind the last one, leaves the ciphertext as it is. -/
theorem stream_fault_confined {tagSize : TagSize} (ht : tagSize.Supported)
    (key : ResearchKey256) (nonce : Nonce192) {input : List U8} (hinput : input.length < 2 ^ 64) :
    ∃ output, output.length = input.length ∧
      (∀ counterXor calls, (applyStream key nonce input tagSize none counterXor).run calls
        = (PvcAead0.applyKeystream key nonce input tagSize).run calls) ∧
      (∀ counterXor, (applyStream key nonce input tagSize none counterXor).returned
        = .ok output) ∧
      (∀ (authenticationKey : ResearchKey256) (associatedData : List U8) (sealed : SealedMessage),
        (PvcAead0.sealMessage ⟨key, authenticationKey⟩ nonce associatedData input tagSize).returned
          = .ok sealed → sealed.ciphertext = output) ∧
      ∀ block counterXor : U64, ∃ faulted stream,
        (applyStream key nonce input tagSize (some block) counterXor).returned = .ok faulted ∧
        (streamOutput key nonce (block ^^^ counterXor) tagSize).returned = .ok stream ∧
        faulted.length = input.length ∧
        (∀ j, ¬ (32 * block.toNat ≤ j ∧ j < 32 * block.toNat + 32) →
          faulted[j]? = output[j]?) ∧
        (∀ i : Fin 32, faulted[32 * block.toNat + i.val]?
          = input[32 * block.toNat + i.val]?.map (· ^^^ stream[i])) ∧
        (counterXor = 0 ∨ blockCount input.length ≤ block.toNat → faulted = output) := by
  have hnone : ∀ counterXor, faultedFrame nonce tagSize none counterXor
      = fun counter => (PrfInput.stream nonce counter tagSize).bytes := fun _ => rfl
  refine ⟨masked (faultedFrame nonce tagSize none 0) key input, length_masked _ _ _, ?_, ?_, ?_,
    ?_⟩
  · intro counterXor calls
    rw [applyStream_run ht key nonce hinput, PvcAead0.applyKeystream_run ht key nonce hinput]
    rfl
  · intro counterXor
    rw [hnone 0, ← hnone counterXor]
    exact PrfRun.returned_of_ok (applyStream_run ht key nonce hinput none counterXor [])
  · intro authenticationKey associatedData sealed hsealed
    -- the ciphertext of `seal` is the unfaulted stream under its encryption key
    obtain ⟨calls', hrun⟩ := PrfRun.exists_of_returned hsealed
    obtain ⟨calls'', hstream⟩ := ciphertext_of_sealMessage hrun
    rw [PvcAead0.applyKeystream_run ht key nonce hinput] at hstream
    exact (EStateM.Result.ok.inj hstream).1.symm
  · intro block counterXor
    refine ⟨_, _, PrfRun.returned_of_ok (applyStream_run ht key nonce hinput _ _ []),
      PrfRun.returned_of_ok (streamOutput_run ht key nonce _ []), length_masked _ _ _,
      fun j => masked_faultedFrame_of_not key nonce tagSize hinput block counterXor,
      masked_faultedFrame_block key nonce tagSize hinput block counterXor, ?_⟩
    rintro (rfl | hblock)
    · exact masked_faultedFrame_zero key nonce tagSize block input
    · exact masked_faultedFrame_behind key nonce tagSize hinput block counterXor hblock

/-- An input of 96 bytes: a changed counter in the second block leaves the first and the
third block as they are. -/
theorem stream_fault_confined_blocks :
    ∃ output faulted,
      (applyStream (Vector.replicate 32 7) (Vector.replicate 24 9) (List.replicate 96 0)
        .bits128 none 0).returned = .ok output ∧
      (applyStream (Vector.replicate 32 7) (Vector.replicate 24 9) (List.replicate 96 0)
        .bits128 (some 1) 5).returned = .ok faulted ∧
      (∀ j < 32, faulted[j]? = output[j]?) ∧ ∀ j, 64 ≤ j → faulted[j]? = output[j]? := by
  obtain ⟨output, -, -, hnone, -, hfault⟩ :=
    stream_fault_confined (Or.inl rfl : TagSize.bits128.Supported) (Vector.replicate 32 7)
      (Vector.replicate 24 9) (by decide : (List.replicate 96 (0 : U8)).length < 2 ^ 64)
  obtain ⟨faulted, stream, hrun, -, -, hout, -⟩ := hfault 1 5
  have hone : (1 : U64).toNat = 1 := rfl
  rw [hone] at hout
  exact ⟨output, faulted, hnone 0, hrun, fun j hj => hout j (by omega),
    fun j hj => hout j (by omega)⟩

end FaultInjection
