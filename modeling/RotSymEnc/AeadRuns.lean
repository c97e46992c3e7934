/-
# What the runs compute

One spec lemma for each operation above C1: the keystream loop masks each byte
with the C1 output of its block, the comparison loop decides equality, and a seal
or an open makes a known list of calls.
-/
import RotSymEnc.Framing

open StatefulRuns

/-! ## The keystream loop -/

/-- The number of blocks of a message. -/
def blockCount (n : ℕ) : ℕ := (n + 31) / 32

/-- The byte that masks position `j`. -/
def maskByte (frame : U64 → List U8) (key : ResearchKey256) (j : ℕ) : U8 :=
  (c1Output key (frame (BitVec.ofNat 64 (j / 32)))).get (Fin.ofNat 32 j)

/-- The input, masked byte by byte. -/
def masked (frame : U64 → List U8) (key : ResearchKey256) (input : List U8) : List U8 :=
  input.mapIdx fun j byte => byte ^^^ maskByte frame key j

/-- The calls of the first `k` blocks. -/
def streamCalls (frame : U64 → List U8) (key : ResearchKey256) (k : ℕ) : List PrfCall :=
  (List.range k).map fun i => ⟨key, frame (BitVec.ofNat 64 i)⟩

theorem streamCalls_succ (frame : U64 → List U8) (key : ResearchKey256) (k : ℕ) :
    streamCalls frame key (k + 1)
      = streamCalls frame key k ++ [⟨key, frame (BitVec.ofNat 64 k)⟩] := by
  rw [streamCalls, List.range_succ, List.map_append]
  rfl

@[simp] theorem length_masked (frame : U64 → List U8) (key : ResearchKey256) (input : List U8) :
    (masked frame key input).length = input.length := by
  simp [masked]

/-- Masking twice gives the input back. -/
theorem masked_masked (frame : U64 → List U8) (key : ResearchKey256) (input : List U8) :
    masked frame key (masked frame key input) = input := by
  refine List.ext_getElem (by simp) fun j hj hj' => ?_
  simp [masked]

/-- The offset of a block does not wrap. -/
theorem toNat_blockOffset {block : ℕ} (h : 32 * block < 2 ^ 64) :
    (BitVec.ofNat 64 block * kBlockSize).toNat = 32 * block := by
  have h32 : kBlockSize.toNat = 32 := rfl
  rw [BitVec.toNat_mul, BitVec.toNat_ofNat, h32]
  omega

/-- A block masks 32 bytes, or what remains. -/
theorem toNat_blockTake {input : List U8} (hinput : input.length < 2 ^ 64) {block : ℕ}
    (hblock : 32 * block < input.length) :
    (if size input - BitVec.ofNat 64 block * kBlockSize < kBlockSize
      then size input - BitVec.ofNat 64 block * kBlockSize else kBlockSize).toNat
      = min 32 (input.length - 32 * block) := by
  have h32 : kBlockSize.toNat = 32 := rfl
  have hremaining : (size input - BitVec.ofNat 64 block * kBlockSize).toNat
      = input.length - 32 * block := by
    rw [BitVec.toNat_sub, toNat_size hinput, toNat_blockOffset (by omega)]
    omega
  split
  · next hlt =>
    rw [BitVec.lt_def, hremaining, h32] at hlt
    omega
  · next hle =>
    rw [BitVec.lt_def, hremaining, h32] at hle
    omega

section Stream

variable {frameCall : U64 → Except Fault (List U8)} {frame : U64 → List U8}

/-- The inner loop masks one stretch of the output. -/
theorem xorBytes_eq {input output : List U8} (stream : ResearchOutput)
    (hinput : input.length < 2 ^ 64) (houtput : output.length = input.length) {block : ℕ}
    (hblock : 32 * block < input.length) :
    ∃ output', xorBytes input stream (BitVec.ofNat 64 block * kBlockSize) output = .ok output' ∧
      output'.length = input.length ∧
      ∀ j, output'[j]? = if 32 * block ≤ j ∧ j < 32 * (block + 1) then
        input[j]?.map (· ^^^ stream.get (Fin.ofNat 32 j)) else output[j]? := by
  set n := min 32 (input.length - 32 * block) with hn
  let f : ℕ → U8 := fun i => input.getD (32 * block + i) 0 ^^^ stream.toList.getD i 0
  have hlen : 32 * block + ((List.range n).map f).length ≤ output.length := by
    rw [List.length_map, List.length_range]
    omega
  refine ⟨overwrite output (32 * block) ((List.range n).map f), ?_, ?_, fun j => ?_⟩
  -- the loop stores `f i` at the `i`th byte of the block
  · rw [xorBytes, toNat_blockTake hinput hblock, toNat_blockOffset (by omega)]
    refine foldlM_storeAt f n (by omega) fun buffer i hi => ?_
    have hbyte : 32 * block + i < input.length := by omega
    have hmask : i < stream.toList.length := by
      rw [Vector.length_toList]
      omega
    rw [readAt_of_lt hbyte, readAt_of_lt hmask]
    simp only [f, List.getD_eq_getElem _ _ hbyte, List.getD_eq_getElem _ _ hmask]
    rfl
  · rw [length_overwrite hlen, houtput]
  · rw [getElem?_overwrite hlen, List.length_map, List.length_range]
    by_cases hj : 32 * block ≤ j ∧ j < 32 * block + n
    · have hjlen : j < input.length := by omega
      have hsub : j - 32 * block < n := by omega
      have hmod : j % 32 = j - 32 * block := by omega
      have hindex : 32 * block + (j - 32 * block) = j := by omega
      rw [if_pos hj, if_pos ⟨hj.1, by omega⟩, List.getElem?_map, List.getElem?_range hsub,
        List.getElem?_eq_getElem hjlen]
      simp only [f, Option.map_some, hindex, List.getD_eq_getElem _ _ hjlen]
      have hmask : stream.toList.getD (j - 32 * block) 0 = stream.get (Fin.ofNat 32 j) := by
        rw [← hmod, List.getD_eq_getElem _ _ (by rw [Vector.length_toList]; omega),
          Vector.getElem_toList]
        rfl
      rw [hmask]
    · rw [if_neg hj]
      by_cases hj' : 32 * block ≤ j ∧ j < 32 * (block + 1)
      · rw [if_pos hj', List.getElem?_eq_none (by omega), List.getElem?_eq_none (by omega)]
        rfl
      · rw [if_neg hj']

/-- **One block of the loop** calls C1 once and masks one stretch of the output. -/
theorem xorBlock_run (hframe : ∀ counter, frameCall counter = .ok (frame counter))
    (key : ResearchKey256) {input output : List U8} (hinput : input.length < 2 ^ 64)
    (houtput : output.length = input.length) {block : ℕ} (hblock : 32 * block < input.length)
    (calls : List PrfCall) :
    ∃ output', (xorBlock frameCall key input output block).run calls
        = .ok output' (calls ++ [⟨key, frame (BitVec.ofNat 64 block)⟩]) ∧
      output'.length = input.length ∧
      ∀ j, output'[j]? = if 32 * block ≤ j ∧ j < 32 * (block + 1) then
        (masked frame key input)[j]? else output[j]? := by
  obtain ⟨output', hbytes, hlen, hget⟩ :=
    xorBytes_eq (c1Output key (frame (BitVec.ofNat 64 block))) hinput houtput hblock
  refine ⟨output', ?_, hlen, fun j => ?_⟩
  · rw [xorBlock, hframe, run_bind_of_ok (lift_ok_run _ _), run_bind_of_ok (callC1_run _ _ _),
      hbytes, lift_ok_run]
  · rw [hget]
    by_cases hj : 32 * block ≤ j ∧ j < 32 * (block + 1)
    · have hdiv : j / 32 = block := by omega
      rw [if_pos hj, if_pos hj, masked, List.getElem?_mapIdx]
      simp only [maskByte, hdiv]
    · rw [if_neg hj, if_neg hj]

/-- After `k` blocks the output is masked up to there. -/
theorem xorStream_loop (hframe : ∀ counter, frameCall counter = .ok (frame counter))
    (key : ResearchKey256) {input : List U8} (hinput : input.length < 2 ^ 64)
    (calls : List PrfCall) : ∀ k, k ≤ blockCount input.length →
    ∃ output, ((List.range k).foldlM (xorBlock frameCall key input)
        (List.replicate input.length 0)).run calls
        = .ok output (calls ++ streamCalls frame key k) ∧
      output.length = input.length ∧
      ∀ j < 32 * k, output[j]? = (masked frame key input)[j]? := by
  intro k
  induction k with
  | zero =>
    intro _
    exact ⟨List.replicate input.length 0, by simp [streamCalls], by simp, by simp⟩
  | succ k ih =>
    intro hk
    obtain ⟨output, hrun, hlen, hget⟩ := ih (by omega)
    have hblock : 32 * k < input.length := by
      simp only [blockCount] at hk
      omega
    obtain ⟨output', hrun', hlen', hget'⟩ := xorBlock_run hframe key hinput hlen hblock
      (calls ++ streamCalls frame key k)
    refine ⟨output', ?_, hlen', fun j hj => ?_⟩
    · rw [List.range_succ, List.foldlM_append, EStateM.run_bind, hrun]
      rw [streamCalls_succ, ← List.append_assoc]
      simpa only [List.foldlM_cons, List.foldlM_nil, bind_pure] using hrun'
    · rw [hget']
      by_cases hlow : 32 * k ≤ j
      · rw [if_pos ⟨hlow, hj⟩]
      · rw [if_neg (by omega), hget j (by omega)]

/-- **The loop masks the input**, with one call for each block, in order. -/
theorem xorStream_run (hframe : ∀ counter, frameCall counter = .ok (frame counter))
    (key : ResearchKey256) {input : List U8} (hinput : input.length < 2 ^ 64) {blocks : U64}
    (hblocks : blocks.toNat = blockCount input.length) (calls : List PrfCall) :
    (xorStream frameCall key input blocks).run calls
      = .ok (masked frame key input)
        (calls ++ streamCalls frame key (blockCount input.length)) := by
  obtain ⟨output, hrun, hlen, hget⟩ := xorStream_loop hframe key hinput calls _ le_rfl
  have houtput : output = masked frame key input := by
    refine List.ext_getElem? fun j => ?_
    by_cases hj : j < input.length
    · refine hget j ?_
      simp only [blockCount]
      omega
    · rw [List.getElem?_eq_none (by omega), List.getElem?_eq_none (by simp; omega)]
  rw [xorStream, hblocks, hrun, houtput]

/-- Where the frame throws, the loop throws before any call, unless there is no
block at all. -/
theorem xorStream_run_of_error {fault : Fault}
    (hframe : ∀ counter, frameCall counter = .error fault)
    (key : ResearchKey256) {input : List U8} {blocks : U64}
    (hblocks : blocks.toNat = blockCount input.length) (calls : List PrfCall) :
    (xorStream frameCall key input blocks).run calls
      = if input = [] then .ok [] calls else .error fault calls := by
  rw [xorStream, hblocks]
  by_cases hinput : input = []
  · subst hinput
    rfl
  · have hpos : 0 < input.length := List.length_pos_iff.mpr hinput
    obtain ⟨k, hk⟩ : ∃ k, blockCount input.length = k + 1 :=
      ⟨blockCount input.length - 1, by simp only [blockCount]; omega⟩
    rw [if_neg hinput, hk, List.range_succ_eq_map, List.foldlM_cons]
    refine run_bind_of_error ?_
    rw [xorBlock, hframe]
    exact run_bind_of_error (lift_error_run _ _)

end Stream

/-- The block count of `apply_keystream`. -/
theorem applyKeystream_blocks {input : List U8} (h : input.length < 2 ^ 64) :
    (if input.isEmpty then (0 : U64) else 1 + (size input - 1) / kBlockSize).toNat
      = blockCount input.length := by
  have h32 : kBlockSize.toNat = 32 := rfl
  have h1 : (1 : U64).toNat = 1 := rfl
  cases input with
  | nil => rfl
  | cons byte rest =>
    have hlen : (byte :: rest).length = rest.length + 1 := rfl
    rw [if_neg (by simp), BitVec.toNat_add, BitVec.toNat_udiv, BitVec.toNat_sub, toNat_size h, h32,
      h1, hlen, blockCount]
    omega

/-! ## The comparison loop -/

/-- The accumulated difference of the first `n` bytes vanishes when they agree. -/
theorem tagDifference_loop {expected supplied : List U8} : ∀ n, n ≤ expected.length →
    n ≤ supplied.length → ∃ difference,
      (List.range n).foldlM (fun (difference : U8) i => do
        let e ← readAt expected i
        let s ← readAt supplied i
        return difference ||| (e ^^^ s)) 0 = Except.ok difference ∧
      (difference = 0 ↔ ∀ i < n, expected[i]? = supplied[i]?) := by
  intro n
  induction n with
  | zero => exact fun _ _ => ⟨0, rfl, by simp⟩
  | succ n ih =>
    intro he hs
    obtain ⟨difference, hrun, hzero⟩ := ih (by omega) (by omega)
    have he' : n < expected.length := he
    have hs' : n < supplied.length := hs
    refine ⟨difference ||| (expected[n] ^^^ supplied[n]), ?_, ?_⟩
    · rw [List.range_succ, List.foldlM_append, hrun, except_ok_bind, List.foldlM_cons,
        readAt_of_lt he', readAt_of_lt hs']
      rfl
    · have hlast : expected[n] ^^^ supplied[n] = 0 ↔ expected[n]? = supplied[n]? := by
        rw [List.getElem?_eq_getElem he', List.getElem?_eq_getElem hs', Option.some_inj]
        exact BitVec.xor_eq_zero_iff
      refine BitVec.or_eq_zero_iff.trans ?_
      rw [Nat.forall_lt_succ_right, ← hlast, ← hzero]
      rfl

/-- **The comparison accepts exactly the truncated output.** -/
theorem tagMatches_eq {expected : ResearchOutput} {supplied : List U8}
    (h : supplied.length ≤ 32) :
    tagMatches expected supplied
      = .ok (decide (supplied = expected.toList.take supplied.length)) := by
  obtain ⟨difference, hrun, hzero⟩ := @tagDifference_loop expected.toList supplied supplied.length
    (by rw [Vector.length_toList]; exact h) le_rfl
  have hiff : (∀ i < supplied.length, expected.toList[i]? = supplied[i]?)
      ↔ supplied = expected.toList.take supplied.length := by
    constructor
    · intro hall
      refine List.ext_getElem? fun i => ?_
      by_cases hi : i < supplied.length
      · rw [List.getElem?_take_of_lt hi, hall i hi]
      · rw [List.getElem?_eq_none (not_lt.mp hi), List.getElem?_eq_none (by simp; omega)]
    · intro heq i hi
      have hget := congrArg (fun l : List U8 => l[i]?) heq
      simp only [List.getElem?_take_of_lt hi] at hget
      exact hget.symm
  rw [tagMatches, hrun]
  show Except.ok (difference == 0) = _
  congr 1
  rw [Bool.eq_iff_iff, beq_iff_eq, decide_eq_true_iff, hzero, hiff]

/-! ## Tag lengths -/

/-- The three lengths of a tag. -/
def TagLength (n : ℕ) : Prop := n = 16 ∨ n = 24 ∨ n = 32

instance (n : ℕ) : Decidable (TagLength n) :=
  inferInstanceAs (Decidable (_ ∨ _ ∨ _))

/-- The profile of a tag length. -/
def tagSizeOfLength (n : ℕ) : TagSize := ⟨BitVec.ofNat 8 n⟩

theorem TagLength.supported {n : ℕ} (h : TagLength n) : (tagSizeOfLength n).Supported := by
  rcases h with rfl | rfl | rfl <;> decide

theorem TagLength.toNat_value {n : ℕ} (h : TagLength n) :
    (tagSizeOfLength n).value.toNat = n := by
  rcases h with rfl | rfl | rfl <;> rfl

/-- A supported profile is the profile of its own length. -/
theorem TagSize.Supported.tagLength {tagSize : TagSize} (h : tagSize.Supported) :
    TagLength tagSize.value.toNat := by
  rcases h with rfl | rfl | rfl <;> decide

theorem tagSizeOfLength_toNat (tagSize : TagSize) :
    tagSizeOfLength tagSize.value.toNat = tagSize := by
  obtain ⟨value⟩ := tagSize
  rw [tagSizeOfLength, BitVec.ofNat_toNat, BitVec.setWidth_eq]

theorem supportedBytes_size {bytes : List U8} (h : bytes.length < 2 ^ 64) :
    supportedBytes (size bytes) = true ↔ TagLength bytes.length := by
  have hiff : ∀ n : ℕ, n < 2 ^ 64 → (size bytes = BitVec.ofNat 64 n ↔ bytes.length = n) := by
    intro n hn
    rw [← BitVec.toNat_inj, toNat_size h, BitVec.toNat_ofNat, Nat.mod_eq_of_lt hn]
  simp only [supportedBytes, Bool.or_eq_true, beq_iff_eq, TagLength]
  rw [or_assoc]
  exact or_congr (hiff 16 (by norm_num)) (or_congr (hiff 24 (by norm_num)) (hiff 32 (by norm_num)))

theorem tagSizeOfBytes_size {what : String} {bytes : List U8} (h : TagLength bytes.length) :
    tagSizeOfBytes what (size bytes) = .ok (tagSizeOfLength bytes.length) := by
  rw [size]
  rcases h with h | h | h <;> rw [h] <;> rfl

theorem firstBytes_eq {tagSize : TagSize} (h : tagSize.Supported) (output : ResearchOutput) :
    firstBytes output (tagSizeBytes tagSize) = .ok (output.toList.take tagSize.value.toNat) := by
  rcases h with rfl | rfl | rfl <;> rfl

/-! ## The MAC -/

namespace PvcMac0

/-- The tag of a framed message. -/
def tagBytes (key : ResearchKey256) (framed : List U8) (tagSize : TagSize) : List U8 :=
  (c1Output key framed).toList.take tagSize.value.toNat

theorem length_tagBytes (key : ResearchKey256) (framed : List U8) {tagSize : TagSize}
    (h : tagSize.Supported) : (tagBytes key framed tagSize).length = tagSize.value.toNat := by
  rw [tagBytes, List.length_take, Vector.length_toList]
  rcases h with rfl | rfl | rfl <;> rfl

theorem computeFullTagInternal_run {context message : List U8} {tagSize : TagSize}
    {framed : List U8}
    (h : frameMessage context message tagSize = .ok framed) (key : ResearchKey256)
    (calls : List PrfCall) :
    (computeFullTagInternal key context message tagSize).run calls
      = .ok (c1Output key framed) (calls ++ [⟨key, framed⟩]) := by
  rw [computeFullTagInternal, h, run_bind_of_ok (lift_ok_run _ _), callC1_run]

/-- **`compute_tag`** makes one call and truncates its output. -/
theorem computeTag_run {context message : List U8} {tagSize : TagSize} (ht : tagSize.Supported)
    {framed : List U8} (h : frameMessage context message tagSize = .ok framed)
    (key : ResearchKey256) (calls : List PrfCall) :
    (computeTag key context message tagSize).run calls
      = .ok (tagBytes key framed tagSize) (calls ++ [⟨key, framed⟩]) := by
  rw [computeTag, run_bind_of_ok (computeFullTagInternal_run h key calls), firstBytes_eq ht,
    lift_ok_run, tagBytes]

/-- Where the frame throws, no call is made. -/
theorem computeTag_run_of_error {context message : List U8} {tagSize : TagSize} {fault : Fault}
    (h : frameMessage context message tagSize = .error fault) (key : ResearchKey256)
    (calls : List PrfCall) :
    (computeTag key context message tagSize).run calls = .error fault calls := by
  rw [computeTag, computeFullTagInternal, h]
  exact run_bind_of_error (run_bind_of_error (lift_error_run _ _))

/-- **`verify_tag`** makes one call and accepts exactly the truncated output. -/
theorem verifyTag_run {context message suppliedTag : List U8} (ht : TagLength suppliedTag.length)
    {framed : List U8}
    (h : frameMessage context message (tagSizeOfLength suppliedTag.length) = .ok framed)
    (key : ResearchKey256) (calls : List PrfCall) :
    (verifyTag key context message suppliedTag).run calls
      = .ok (decide (suppliedTag = tagBytes key framed (tagSizeOfLength suppliedTag.length)))
        (calls ++ [⟨key, framed⟩]) := by
  have hlen : suppliedTag.length ≤ 32 := by rcases ht with h | h | h <;> omega
  have hs : isSupportedTagSize (size suppliedTag) = true :=
    (supportedBytes_size (by omega)).mpr ht
  rw [verifyTag, if_neg (not_not.mpr hs), tagSizeFromBytes, tagSizeOfBytes_size ht,
    run_bind_of_ok (lift_ok_run _ _), run_bind_of_ok (computeFullTagInternal_run h key calls),
    tagMatches_eq hlen, lift_ok_run, tagBytes, ht.toNat_value]

theorem verifyTag_run_of_error {context message suppliedTag : List U8}
    (ht : TagLength suppliedTag.length) {fault : Fault}
    (h : frameMessage context message (tagSizeOfLength suppliedTag.length) = .error fault)
    (key : ResearchKey256) (calls : List PrfCall) :
    (verifyTag key context message suppliedTag).run calls = .error fault calls := by
  have hs : isSupportedTagSize (size suppliedTag) = true :=
    (supportedBytes_size (by rcases ht with h | h | h <;> omega)).mpr ht
  rw [verifyTag, if_neg (not_not.mpr hs), tagSizeFromBytes, tagSizeOfBytes_size ht,
    run_bind_of_ok (lift_ok_run _ _), computeFullTagInternal, h]
  exact run_bind_of_error (run_bind_of_error (lift_error_run _ _))

end PvcMac0

/-! ## The authenticated encryption -/

namespace PvcAead0

/-- The masked payload: the ciphertext of a plaintext, and the plaintext of a
ciphertext. -/
def keystreamMasked (key : ResearchKey256) (nonce : Nonce192) (tagSize : TagSize)
    (input : List U8) : List U8 :=
  masked (fun counter => (PrfInput.stream nonce counter tagSize).bytes) key input

/-- The calls of `apply_keystream`: one for each block, in the order of the counters. -/
def keystreamCalls (key : ResearchKey256) (nonce : Nonce192) (tagSize : TagSize) (n : ℕ) :
    List PrfCall :=
  (List.range (blockCount n)).map fun i =>
    ⟨key, (PrfInput.stream nonce (BitVec.ofNat 64 i) tagSize).bytes⟩

/-- The one call of the MAC. -/
def macCall (key : ResearchKey256) (nonce : Nonce192) (associatedData ciphertext : List U8)
    (tagSize : TagSize) : PrfCall :=
  ⟨key, (PrfInput.mac nonce associatedData ciphertext tagSize).bytes⟩

/-- The tag of a ciphertext. -/
def sealedTag (key : ResearchKey256) (nonce : Nonce192) (associatedData ciphertext : List U8)
    (tagSize : TagSize) : List U8 :=
  PvcMac0.tagBytes key (PrfInput.mac nonce associatedData ciphertext tagSize).bytes tagSize

@[simp] theorem length_keystreamMasked (key : ResearchKey256) (nonce : Nonce192)
    (tagSize : TagSize) (input : List U8) :
    (keystreamMasked key nonce tagSize input).length = input.length :=
  length_masked _ _ _

/-- Decrypting undoes encrypting. -/
@[simp] theorem keystreamMasked_keystreamMasked (key : ResearchKey256) (nonce : Nonce192)
    (tagSize : TagSize) (input : List U8) :
    keystreamMasked key nonce tagSize (keystreamMasked key nonce tagSize input) = input :=
  masked_masked _ _ _

theorem applyKeystream_run {tagSize : TagSize} (ht : tagSize.Supported) (key : ResearchKey256)
    (nonce : Nonce192) {input : List U8} (hinput : input.length < 2 ^ 64) (calls : List PrfCall) :
    (applyKeystream key nonce input tagSize).run calls
      = .ok (keystreamMasked key nonce tagSize input)
        (calls ++ keystreamCalls key nonce tagSize input.length) :=
  xorStream_run (fun counter => frameStreamBlock_eq ht nonce counter) key hinput
    (applyKeystream_blocks hinput) calls

theorem applyKeystream_run_of_not_supported {tagSize : TagSize} (ht : ¬ tagSize.Supported)
    (key : ResearchKey256) (nonce : Nonce192) {input : List U8} (hinput : input.length < 2 ^ 64)
    (calls : List PrfCall) :
    (applyKeystream key nonce input tagSize).run calls
      = if input = [] then .ok [] calls
        else .error (.thrown .invalidArgument "unsupported PVC-AEAD-0 tag size") calls :=
  xorStream_run_of_error (fun counter => frameStreamBlock_of_not_supported ht nonce counter) key
    (applyKeystream_blocks hinput) calls

/-- **`seal`**: the keystream calls, then the MAC call on the ciphertext. -/
theorem sealMessage_run {tagSize : TagSize} (ht : tagSize.Supported) (keys : KeyPair512)
    (nonce : Nonce192) {associatedData plaintext : List U8}
    (hlen : 79 + associatedData.length + plaintext.length < 2 ^ 64) (calls : List PrfCall) :
    (sealMessage keys nonce associatedData plaintext tagSize).run calls
      = .ok ⟨keystreamMasked keys.encryptionKey nonce tagSize plaintext,
          sealedTag keys.authenticationKey nonce associatedData
            (keystreamMasked keys.encryptionKey nonce tagSize plaintext) tagSize⟩
        (calls ++ keystreamCalls keys.encryptionKey nonce tagSize plaintext.length
          ++ [macCall keys.authenticationKey nonce associatedData
            (keystreamMasked keys.encryptionKey nonce tagSize plaintext) tagSize]) := by
  have hframe : PvcMac0.frameMessage (contextBytes nonce associatedData tagSize)
      (keystreamMasked keys.encryptionKey nonce tagSize plaintext) tagSize = .ok _ :=
    PvcMac0.frameMessage_eq ht (by rw [length_contextBytes, length_keystreamMasked]; omega)
  rw [sealMessage, run_bind_of_ok (applyKeystream_run ht _ _ (by omega) calls),
    frameAuthenticationContext_eq ht nonce (by omega), run_bind_of_ok (lift_ok_run _ _),
    toMacTagSize,
    convertTagSize_of_supported ht, run_bind_of_ok (lift_ok_run _ _),
    run_bind_of_ok (PvcMac0.computeTag_run ht hframe _ _)]
  rfl

/-- Where a size overflows, `seal` throws after the keystream calls. -/
theorem sealMessage_run_of_overflow {tagSize : TagSize} (ht : tagSize.Supported)
    (keys : KeyPair512) (nonce : Nonce192) {associatedData plaintext : List U8}
    (had : associatedData.length < 2 ^ 64) (hpt : plaintext.length < 2 ^ 64)
    (hlen : 2 ^ 64 ≤ 79 + associatedData.length + plaintext.length) :
    ∃ what, ∀ calls, (sealMessage keys nonce associatedData plaintext tagSize).run calls
      = .error (.thrown .lengthError what)
        (calls ++ keystreamCalls keys.encryptionKey nonce tagSize plaintext.length) := by
  have hstream := applyKeystream_run ht keys.encryptionKey nonce hpt
  by_cases hcontext : 49 + associatedData.length < 2 ^ 64
  · have hframe : PvcMac0.frameMessage (contextBytes nonce associatedData tagSize)
        (keystreamMasked keys.encryptionKey nonce tagSize plaintext) tagSize = .error _ :=
      PvcMac0.frameMessage_overflow ht (by rw [length_contextBytes]; exact hcontext)
        (by rw [length_keystreamMasked]; exact hpt)
        (by rw [length_contextBytes, length_keystreamMasked]; omega)
    refine ⟨"PVC-MAC-0 frame size overflows size_t", fun calls => ?_⟩
    rw [sealMessage, run_bind_of_ok (hstream calls),
      frameAuthenticationContext_eq ht nonce hcontext,
      run_bind_of_ok (lift_ok_run _ _), toMacTagSize, convertTagSize_of_supported ht,
      run_bind_of_ok (lift_ok_run _ _)]
    exact run_bind_of_error (PvcMac0.computeTag_run_of_error hframe _ _)
  · refine ⟨"PVC-AEAD-0 authentication context overflows size_t", fun calls => ?_⟩
    rw [sealMessage, run_bind_of_ok (hstream calls),
      frameAuthenticationContext_overflow ht nonce had (not_lt.mp hcontext)]
    exact run_bind_of_error (lift_error_run _ _)

/-- **`open` with a tag of a supported length**: the MAC call first, and the
keystream calls only where the whole tag agrees. -/
theorem openMessage_run (keys : KeyPair512) (nonce : Nonce192)
    {associatedData ciphertext suppliedTag : List U8} (ht : TagLength suppliedTag.length)
    (hlen : 79 + associatedData.length + ciphertext.length < 2 ^ 64) (calls : List PrfCall) :
    (openMessage keys nonce associatedData ciphertext suppliedTag).run calls
      = if suppliedTag = sealedTag keys.authenticationKey nonce associatedData ciphertext
          (tagSizeOfLength suppliedTag.length) then
        .ok (some (keystreamMasked keys.encryptionKey nonce (tagSizeOfLength suppliedTag.length)
            ciphertext))
          (calls ++ [macCall keys.authenticationKey nonce associatedData ciphertext
              (tagSizeOfLength suppliedTag.length)]
            ++ keystreamCalls keys.encryptionKey nonce (tagSizeOfLength suppliedTag.length)
              ciphertext.length)
      else
        .ok none (calls ++ [macCall keys.authenticationKey nonce associatedData ciphertext
          (tagSizeOfLength suppliedTag.length)]) := by
  have hsupported := ht.supported
  have hs : isSupportedTagSize (size suppliedTag) = true :=
    (supportedBytes_size (by rcases ht with h | h | h <;> omega)).mpr ht
  have hframe : PvcMac0.frameMessage
      (contextBytes nonce associatedData (tagSizeOfLength suppliedTag.length)) ciphertext
      (tagSizeOfLength suppliedTag.length) = .ok _ :=
    PvcMac0.frameMessage_eq hsupported (by rw [length_contextBytes]; omega)
  rw [openMessage, if_neg (not_not.mpr hs), tagSizeFromBytes, tagSizeOfBytes_size ht,
    run_bind_of_ok (lift_ok_run _ _), frameAuthenticationContext_eq hsupported nonce (by omega),
    run_bind_of_ok (lift_ok_run _ _), run_bind_of_ok (PvcMac0.verifyTag_run ht hframe _ _)]
  rw [sealedTag, PrfInput.bytes]
  by_cases htag : suppliedTag = PvcMac0.tagBytes keys.authenticationKey
      (PvcMac0.frameBytes (contextBytes nonce associatedData (tagSizeOfLength suppliedTag.length))
        ciphertext (tagSizeOfLength suppliedTag.length)) (tagSizeOfLength suppliedTag.length)
  · rw [if_pos htag, if_neg (not_not.mpr (decide_eq_true htag)),
      run_bind_of_ok (applyKeystream_run hsupported _ _ (by omega) _)]
    rfl
  · rw [if_neg htag, if_pos (by rw [decide_eq_true_iff]; exact htag)]
    rfl

/-- `open` takes what `seal` made. -/
theorem openMessage_run_sealed {tagSize : TagSize} (ht : tagSize.Supported) (keys : KeyPair512)
    (nonce : Nonce192) {associatedData plaintext : List U8}
    (hlen : 79 + associatedData.length + plaintext.length < 2 ^ 64) (calls : List PrfCall) :
    ∃ calls', (openMessage keys nonce associatedData
        (keystreamMasked keys.encryptionKey nonce tagSize plaintext)
        (sealedTag keys.authenticationKey nonce associatedData
          (keystreamMasked keys.encryptionKey nonce tagSize plaintext) tagSize)).run calls
      = .ok (some plaintext) calls' := by
  have htag : (sealedTag keys.authenticationKey nonce associatedData
      (keystreamMasked keys.encryptionKey nonce tagSize plaintext) tagSize).length
        = tagSize.value.toNat := PvcMac0.length_tagBytes _ _ ht
  have hfits : 79 + associatedData.length
      + (keystreamMasked keys.encryptionKey nonce tagSize plaintext).length < 2 ^ 64 := by
    rw [length_keystreamMasked]
    exact hlen
  have hopen := openMessage_run keys nonce (by rw [htag]; exact ht.tagLength) hfits calls
  rw [htag, tagSizeOfLength_toNat, if_pos rfl, keystreamMasked_keystreamMasked] at hopen
  exact ⟨_, hopen⟩

/-- `open` with a tag of another length rejects without any call. -/
theorem openMessage_run_of_length (keys : KeyPair512) (nonce : Nonce192)
    (associatedData ciphertext : List U8) {suppliedTag : List U8}
    (hlen : suppliedTag.length < 2 ^ 64) (ht : ¬ TagLength suppliedTag.length)
    (calls : List PrfCall) :
    (openMessage keys nonce associatedData ciphertext suppliedTag).run calls = .ok none calls := by
  have hs : ¬ isSupportedTagSize (size suppliedTag) = true :=
    fun hs => ht ((supportedBytes_size hlen).mp hs)
  rw [openMessage, if_pos hs]
  rfl

end PvcAead0
