/-
# Sizes at the top of the range

Sizes and counters are 64-bit and wrap.  For every length a `std::size_t` can hold
the loop of `apply_keystream` counts its blocks exactly and writes every byte once,
and the length checks of the frames reject exactly the totals that do not fit.
-/
import RotSymEnc.AeadRuns

open StatefulRuns

/-! ## Big-endian length fields -/

/-- The number eight bytes encode, the high one first. -/
def bigEndian (bytes : List U8) : ℕ :=
  bytes.foldl (fun value byte => 256 * value + byte.toNat) 0

theorem bigEndian_u64be (value : U64) : bigEndian (u64be value) = value.toNat := by
  have hlt := value.isLt
  have hbytes : u64be value = [u8 (value >>> 56), u8 (value >>> 48), u8 (value >>> 40),
      u8 (value >>> 32), u8 (value >>> 24), u8 (value >>> 16), u8 (value >>> 8),
      u8 (value >>> 0)] := rfl
  rw [hbytes, bigEndian]
  simp only [List.foldl_cons, List.foldl_nil, BitVec.toNat_setWidth, BitVec.toNat_ushiftRight,
    Nat.shiftRight_eq_div_pow]
  omega

/-- The length field of a frame, read back. -/
theorem bigEndian_field {front back bytes : List U8} {offset : ℕ} (hoffset : front.length = offset)
    (h : bytes.length < 2 ^ 64) :
    bigEndian (((front ++ u64be (size bytes) ++ back).drop offset).take 8) = bytes.length := by
  rw [List.append_assoc, ← hoffset, List.drop_left, List.take_left' (length_u64be _),
    bigEndian_u64be, toNat_size h]

/-! ## The blocks of a payload -/

/-- `blocks` of `apply_keystream`. -/
def keystreamBlocks (input : List U8) : U64 :=
  if input.isEmpty then 0 else 1 + (size input - 1) / kBlockSize

/-- `offset` of a pass. -/
def blockOffset (block : ℕ) : U64 := BitVec.ofNat 64 block * kBlockSize

/-- `take` of a pass. -/
def blockTake (input : List U8) (block : ℕ) : U64 :=
  let remaining := size input - blockOffset block
  if remaining < kBlockSize then remaining else kBlockSize

/-- What the two loops write, in order: the index of the output byte, the counter of
the block and the index of the keystream byte. -/
def streamWrites (input : List U8) : List (ℕ × U64 × ℕ) :=
  (List.range (keystreamBlocks input).toNat).flatMap fun block =>
    (List.range (blockTake input block).toNat).map fun i =>
      ((blockOffset block).toNat + i, BitVec.ofNat 64 block, i)

/-- What the inner loop writes in one pass of the outer one. -/
def blockWrites (input : List U8) (block : ℕ) : List (ℕ × U64 × ℕ) :=
  (List.range (blockTake input block).toNat).map fun i =>
    ((blockOffset block).toNat + i, BitVec.ofNat 64 block, i)

theorem streamWrites_eq_flatMap (input : List U8) :
    streamWrites input = (List.range (keystreamBlocks input).toNat).flatMap (blockWrites input) :=
  rfl

/-- One write, with the output of C1 for every counter. -/
def writeMasked (input : List U8) (streams : U64 → ResearchOutput) (output : List U8)
    (write : ℕ × U64 × ℕ) : Except Fault (List U8) := do
  let byte ← readAt input write.1
  let mask ← readAt (streams write.2.1).toList write.2.2
  storeAt output write.1 (byte ^^^ mask)

/-- **The inner loop** does the writes of its block. -/
theorem xorBytes_eq_writes (input : List U8) (streams : U64 → ResearchOutput) (block : ℕ)
    (output : List U8) :
    xorBytes input (streams (BitVec.ofNat 64 block)) (BitVec.ofNat 64 block * kBlockSize) output
      = (blockWrites input block).foldlM (writeMasked input streams) output := by
  unfold xorBytes blockWrites
  rw [List.foldlM_map]
  rfl

/-- **The outer loop** does the writes of its blocks, one after the other, and fails where one of
them does. -/
theorem xorBlock_loop_eq_writes {frameCall : U64 → Except Fault (List U8)} {frame : U64 → List U8}
    (hframe : ∀ counter, frameCall counter = .ok (frame counter)) (key : ResearchKey256)
    (input : List U8) (blocks : List ℕ) (output : List U8) (calls : List PrfCall) :
    ∃ calls', (blocks.foldlM (xorBlock frameCall key input) output).run calls
      = (lift ((blocks.flatMap (blockWrites input)).foldlM
          (writeMasked input fun counter => c1Output key (frame counter)) output) :
          PrfRun (List U8)).run calls' := by
  induction blocks generalizing output calls with
  | nil => exact ⟨calls, rfl⟩
  | cons block blocks ih =>
    have hblock : (xorBlock frameCall key input output block).run calls
        = (lift ((blockWrites input block).foldlM
            (writeMasked input fun counter => c1Output key (frame counter)) output) :
            PrfRun (List U8)).run (calls ++ [⟨key, frame (BitVec.ofNat 64 block)⟩]) := by
      rw [xorBlock, hframe, run_bind_of_ok (lift_ok_run _ _), run_bind_of_ok (callC1_run _ _ _),
        xorBytes_eq_writes input (fun counter => c1Output key (frame counter))]
    rw [List.foldlM_cons, List.flatMap_cons, List.foldlM_append]
    cases hwrites : (blockWrites input block).foldlM
        (writeMasked input fun counter => c1Output key (frame counter)) output with
    | error fault =>
      rw [hwrites, lift_error_run] at hblock
      exact ⟨_, run_bind_of_error hblock⟩
    | ok output' =>
      rw [hwrites, lift_ok_run] at hblock
      rw [run_bind_of_ok hblock]
      exact ih output' _

section Blocks

variable {input : List U8}

theorem toNat_keystreamBlocks (h : input.length < 2 ^ 64) :
    (keystreamBlocks input).toNat = blockCount input.length :=
  applyKeystream_blocks h

theorem blockCount_eq_ceilDiv (n : ℕ) : blockCount n = n ⌈/⌉ 32 := rfl

/-- The offset of a block lies in the payload. -/
theorem blockOffset_lt {n block : ℕ} (h : block < blockCount n) : 32 * block < n := by
  unfold blockCount at h
  omega

/-- The first `k` blocks write the bytes below `32 * k`, each once and in order. -/
theorem streamWrites_loop (h : input.length < 2 ^ 64) : ∀ k, k ≤ blockCount input.length →
    (List.range k).flatMap (fun block =>
        (List.range (blockTake input block).toNat).map fun i =>
          ((blockOffset block).toNat + i, BitVec.ofNat 64 block, i))
      = (List.range (min (32 * k) input.length)).map
        fun j => (j, BitVec.ofNat 64 (j / 32), j % 32) := by
  intro k
  induction k with
  | zero =>
    intro _
    rw [Nat.mul_zero, Nat.zero_min]
    rfl
  | succ k ih =>
    intro hk
    have hoffset := blockOffset_lt (Nat.lt_of_succ_le hk)
    have htake : (blockTake input k).toNat = min 32 (input.length - 32 * k) :=
      toNat_blockTake h hoffset
    have hmin : min (32 * k) input.length = 32 * k := by omega
    have hnext : min (32 * (k + 1)) input.length
        = 32 * k + min 32 (input.length - 32 * k) := by omega
    rw [List.range_succ, List.flatMap_append, ih (by omega), List.flatMap_singleton, htake, hmin,
      hnext, List.range_add, List.map_append, List.map_map, blockOffset,
      toNat_blockOffset (by omega)]
    congr 1
    refine List.map_congr_left fun i hi => ?_
    have hlt : i < 32 := by
      rw [List.mem_range] at hi
      omega
    have hdiv : (32 * k + i) / 32 = k := by omega
    have hmod : (32 * k + i) % 32 = i := by omega
    rw [Function.comp_apply, hdiv, hmod]

/-- **Every output byte is written once**, from the block that holds it. -/
theorem streamWrites_eq (h : input.length < 2 ^ 64) :
    streamWrites input
      = (List.range input.length).map fun j => (j, BitVec.ofNat 64 (j / 32), j % 32) := by
  have hmin : min (32 * blockCount input.length) input.length = input.length := by
    unfold blockCount
    omega
  unfold streamWrites
  rw [toNat_keystreamBlocks h, streamWrites_loop h _ le_rfl, hmin]

end Blocks

namespace PvcAead0

/-- The outer loop of `apply_keystream` runs over these blocks. -/
theorem applyKeystream_eq_xorStream (key : ResearchKey256) (nonce : Nonce192) (input : List U8)
    (tagSize : TagSize) : applyKeystream key nonce input tagSize
      = xorStream (fun counter => frameStreamBlock nonce counter tagSize) key input
        (keystreamBlocks input) := rfl

/-- **What `apply_keystream` writes** is listed by `streamWrites`: writing it into zero bytes makes
what is returned. -/
theorem applyKeystream_eq_writes {tagSize : TagSize} (ht : tagSize.Supported)
    (key : ResearchKey256) (nonce : Nonce192) (input : List U8) :
    (applyKeystream key nonce input tagSize).returned
      = (streamWrites input).foldlM
        (writeMasked input fun counter => c1Output key (streamBytes nonce counter tagSize))
        (List.replicate input.length 0) := by
  obtain ⟨calls, hrun⟩ := xorBlock_loop_eq_writes
    (fun counter => frameStreamBlock_eq ht nonce counter) key input
    (List.range (keystreamBlocks input).toNat) (List.replicate input.length 0) []
  rw [applyKeystream_eq_xorStream, xorStream, PrfRun.returned, hrun, streamWrites_eq_flatMap]
  cases List.foldlM (writeMasked input fun counter => c1Output key (streamBytes nonce counter
    tagSize)) (List.replicate input.length 0) (List.flatMap (blockWrites input) (List.range
      (keystreamBlocks input).toNat)) with
  | ok output => rfl
  | error fault => rfl

/-- What `apply_keystream` returns: byte `j` is masked by byte `j % 32` of the block
with counter `j / 32`. -/
theorem applyKeystream_returned {tagSize : TagSize} (ht : tagSize.Supported)
    (key : ResearchKey256) (nonce : Nonce192) {input : List U8} (h : input.length < 2 ^ 64) :
    (applyKeystream key nonce input tagSize).run []
      = .ok (input.mapIdx fun j byte =>
          byte ^^^ (c1Output key (streamBytes nonce (BitVec.ofNat 64 (j / 32)) tagSize)).get
            (Fin.ofNat 32 j))
        (keystreamCalls key nonce tagSize input.length) := by
  rw [applyKeystream_eq_xorStream]
  exact xorStream_run (fun counter => frameStreamBlock_eq ht nonce counter) key h
    (toNat_keystreamBlocks h) []

/-! ## The length checks -/

/-- The check rejects exactly the totals that do not fit. -/
theorem frameAuthenticationContext_rejects_iff {tagSize : TagSize} (ht : tagSize.Supported)
    (nonce : Nonce192) {associatedData : List U8} (h : associatedData.length < 2 ^ 64) :
    (∃ what, frameAuthenticationContext nonce associatedData tagSize
      = .error (.thrown .lengthError what)) ↔ 49 + associatedData.length > 2 ^ 64 - 1 := by
  by_cases hlen : 49 + associatedData.length < 2 ^ 64
  · rw [frameAuthenticationContext_eq ht nonce hlen]
    constructor
    · rintro ⟨what, hwhat⟩
      exact absurd hwhat (by simp)
    · intro hover
      omega
  · have hover := not_lt.mp hlen
    rw [frameAuthenticationContext_overflow ht nonce h hover]
    exact ⟨fun _ => by omega, fun _ => ⟨_, rfl⟩⟩

/-- Past the check the context is as long as announced. -/
theorem frameAuthenticationContext_fields {tagSize : TagSize} (ht : tagSize.Supported)
    (nonce : Nonce192) {associatedData framed : List U8} (h : associatedData.length < 2 ^ 64)
    (hframed : frameAuthenticationContext nonce associatedData tagSize = .ok framed) :
    (kAuthFixedSize + size associatedData).toNat = 49 + associatedData.length ∧
      framed.length = 49 + associatedData.length ∧
      bigEndian ((framed.drop 41).take 8) = associatedData.length := by
  have hlen : 49 + associatedData.length < 2 ^ 64 := by
    by_contra hover
    rw [frameAuthenticationContext_overflow ht nonce h (not_lt.mp hover)] at hframed
    exact absurd hframed (by simp)
  rw [frameAuthenticationContext_eq ht nonce hlen] at hframed
  obtain rfl := Except.ok.inj hframed
  have h49 : kAuthFixedSize.toNat = 49 := rfl
  refine ⟨?_, length_contextBytes _ _ _, ?_⟩
  · rw [BitVec.toNat_add, toNat_size h, h49]
    omega
  · refine bigEndian_field ?_ h
    rw [List.length_append, Vector.length_toList]
    rfl

end PvcAead0

namespace PvcMac0

/-- The check rejects exactly the totals that do not fit. -/
theorem frameMessage_rejects_iff {tagSize : TagSize} (ht : tagSize.Supported)
    {context message : List U8} (hc : context.length < 2 ^ 64) (hm : message.length < 2 ^ 64) :
    (∃ what, frameMessage context message tagSize = .error (.thrown .lengthError what))
      ↔ 30 + context.length + message.length > 2 ^ 64 - 1 := by
  by_cases hlen : 30 + context.length + message.length < 2 ^ 64
  · rw [frameMessage_eq ht hlen]
    constructor
    · rintro ⟨what, hwhat⟩
      exact absurd hwhat (by simp)
    · intro hover
      omega
  · have hover := not_lt.mp hlen
    rw [frameMessage_overflow ht hc hm hover]
    exact ⟨fun _ => by omega, fun _ => ⟨_, rfl⟩⟩

/-- The second comparison is evaluated only where the first one fails, and then its
right-hand side does not wrap. -/
theorem toNat_remaining {context : List U8} (hc : context.length < 2 ^ 64)
    (hfirst : ¬ size context > maxSize - kHeaderSize) :
    30 + context.length ≤ 2 ^ 64 - 1 ∧
      (maxSize - kHeaderSize - size context).toNat = 2 ^ 64 - 1 - 30 - context.length := by
  have hmax : (maxSize - kHeaderSize).toNat = 2 ^ 64 - 31 := by decide +kernel
  rw [gt_iff_lt, BitVec.lt_def, hmax, toNat_size hc] at hfirst
  rw [BitVec.toNat_sub, hmax, toNat_size hc]
  omega

/-- Past the check the frame is as long as announced. -/
theorem frameMessage_fields {tagSize : TagSize} (ht : tagSize.Supported)
    {context message framed : List U8} (hc : context.length < 2 ^ 64)
    (hm : message.length < 2 ^ 64) (hframed : frameMessage context message tagSize = .ok framed) :
    (kHeaderSize + size context + size message).toNat
        = 30 + context.length + message.length ∧
      framed.length = 30 + context.length + message.length ∧
      bigEndian ((framed.drop 14).take 8) = context.length ∧
      bigEndian ((framed.drop 22).take 8) = message.length := by
  have hlen : 30 + context.length + message.length < 2 ^ 64 := by
    by_contra hover
    rw [frameMessage_overflow ht hc hm (not_lt.mp hover)] at hframed
    exact absurd hframed (by simp)
  rw [frameMessage_eq ht hlen] at hframed
  obtain rfl := Except.ok.inj hframed
  have h30 : kHeaderSize.toNat = 30 := rfl
  refine ⟨?_, ?_, ?_, ?_⟩
  · rw [BitVec.toNat_add, BitVec.toNat_add, toNat_size hc, toNat_size hm, h30]
    omega
  · rw [frameBytes, List.length_append, List.length_append]
    show 30 + (context.length + message.length) = _
    omega
  · rw [frameBytes, header, List.append_assoc _ (u64be (size message))]
    exact bigEndian_field rfl hc
  · rw [frameBytes, header]
    exact bigEndian_field rfl hm

end PvcMac0

/-! ## All sizes -/

/-- **The size arithmetic is exact** for every length a `std::size_t` can hold. -/
theorem size_arithmetic_exact (key : ResearchKey256) (nonce : Nonce192) (tagSize : TagSize)
    (input associatedData context message : List U8) (ht : tagSize.Supported)
    (hinput : input.length < 2 ^ 64) (had : associatedData.length < 2 ^ 64)
    (hc : context.length < 2 ^ 64) (hm : message.length < 2 ^ 64) :
    let blocks := (keystreamBlocks input).toNat
    -- the blocks and their counters
    (blocks = input.length ⌈/⌉ 32 ∧ blocks ≤ 2 ^ 59) ∧
    (∀ block < blocks, (blockOffset block).toNat = 32 * block ∧ 32 * block < input.length ∧
      1 ≤ (blockTake input block).toNat ∧ (blockTake input block).toNat ≤ 32 ∧
      (BitVec.ofNat 64 block).toNat = block ∧ block ≤ 2 ^ 59 - 1) ∧
    ((List.range blocks).map (BitVec.ofNat 64)).Nodup ∧
    -- what they write
    streamWrites input
      = (List.range input.length).map (fun j => (j, BitVec.ofNat 64 (j / 32), j % 32)) ∧
    (PvcAead0.applyKeystream key nonce input tagSize).returned
      = .ok (input.mapIdx fun j byte =>
          byte ^^^ (c1Output key
            (PvcAead0.streamBytes nonce (BitVec.ofNat 64 (j / 32)) tagSize)).get (Fin.ofNat 32 j)) ∧
    -- the checks of the two frames
    ((∃ what, PvcAead0.frameAuthenticationContext nonce associatedData tagSize
      = .error (.thrown .lengthError what)) ↔ 49 + associatedData.length > 2 ^ 64 - 1) ∧
    ((∃ what, PvcMac0.frameMessage context message tagSize
      = .error (.thrown .lengthError what)) ↔ 30 + context.length + message.length > 2 ^ 64 - 1) ∧
    ((maxSize - PvcAead0.kAuthFixedSize).toNat = 2 ^ 64 - 1 - 49 ∧
      (PvcAead0.kMaximumEncodedLength - PvcAead0.kAuthFixedSize).toNat = 2 ^ 64 - 1 - 49 ∧
      (maxSize - PvcMac0.kHeaderSize).toNat = 2 ^ 64 - 1 - 30 ∧
      (¬ size context > maxSize - PvcMac0.kHeaderSize →
        30 + context.length ≤ 2 ^ 64 - 1 ∧
        (maxSize - PvcMac0.kHeaderSize - size context).toNat
          = 2 ^ 64 - 1 - 30 - context.length)) ∧
    -- past the checks
    (∀ framed, PvcAead0.frameAuthenticationContext nonce associatedData tagSize = .ok framed →
      (PvcAead0.kAuthFixedSize + size associatedData).toNat = 49 + associatedData.length ∧
      framed.length = 49 + associatedData.length ∧
      bigEndian ((framed.drop 41).take 8) = associatedData.length) ∧
    ∀ framed, PvcMac0.frameMessage context message tagSize = .ok framed →
      (PvcMac0.kHeaderSize + size context + size message).toNat
        = 30 + context.length + message.length ∧
      framed.length = 30 + context.length + message.length ∧
      bigEndian ((framed.drop 14).take 8) = context.length ∧
      bigEndian ((framed.drop 22).take 8) = message.length := by
  intro blocks
  have hblocks : blocks = blockCount input.length := toNat_keystreamBlocks hinput
  have hbound : blocks ≤ 2 ^ 59 := by
    rw [hblocks, blockCount]
    omega
  have hrun := PvcAead0.applyKeystream_returned ht key nonce hinput
  refine ⟨⟨hblocks.trans (blockCount_eq_ceilDiv _), hbound⟩, fun block hblock => ?_, ?_,
    streamWrites_eq hinput, ?_,
    PvcAead0.frameAuthenticationContext_rejects_iff ht nonce had,
    PvcMac0.frameMessage_rejects_iff ht hc hm,
    ⟨by decide +kernel, by decide +kernel, by decide +kernel, PvcMac0.toNat_remaining hc⟩,
    fun framed => PvcAead0.frameAuthenticationContext_fields ht nonce had,
    fun framed => PvcMac0.frameMessage_fields ht hc hm⟩
  · rw [hblocks] at hblock
    have hoffset := blockOffset_lt hblock
    have htake : (blockTake input block).toNat = min 32 (input.length - 32 * block) :=
      toNat_blockTake hinput hoffset
    refine ⟨toNat_blockOffset (by omega), hoffset, by omega, by omega, ?_, by omega⟩
    rw [BitVec.toNat_ofNat]
    omega
  · refine List.Nodup.map_on (fun i hi j hj hij => ?_) List.nodup_range
    have hval := congrArg BitVec.toNat hij
    rw [List.mem_range] at hi hj
    rw [BitVec.toNat_ofNat, BitVec.toNat_ofNat] at hval
    omega
  · unfold PrfRun.returned
    rw [hrun]

/-- A payload of 33 bytes: two blocks, the second one short. -/
theorem size_arithmetic_exact_short :
    TagSize.bits128.Supported ∧
      (keystreamBlocks (List.replicate 33 0)).toNat = (List.replicate 33 (0 : U8)).length ⌈/⌉ 32 :=
  ⟨by decide, (size_arithmetic_exact (Vector.replicate 32 0) (Vector.replicate 24 0) .bits128
    (List.replicate 33 0) [] [] [] (by decide) (by decide) (by decide) (by decide)
    (by decide)).1.1⟩
