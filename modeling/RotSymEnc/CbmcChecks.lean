/-
# The bounded proofs, without bounds

No assertion of the harness fails, on any input and whatever the stubs return, exactly where the
largest frame and the largest payload fit the bounded vectors.
-/
import RotSymEnc.CbmcHarness
import RotSymEnc.SizeArithmetic

open StatefulRuns

namespace CbmcHarness

variable {limit : ℕ}

/-! ## The globals -/

theorem get_run (globals : Globals) :
    (get : CbmcRun Globals).run globals = .ok globals globals := rfl

theorem set_run (globals globals' : Globals) :
    (set globals : CbmcRun PUnit).run globals' = .ok () globals := rfl

/-! ## Spans -/

theorem backed_ofList {data : List U8} (h : data.length < 2 ^ 64) :
    (BoundedSpan.ofList data).Backed := by
  show (size data).toNat ≤ data.length
  rw [toNat_size h]

theorem shown_ofList {data : List U8} (h : data.length < 2 ^ 64) :
    (BoundedSpan.ofList data).shown = data := by
  show data.take (size data).toNat = data
  rw [toNat_size h, List.take_length]

section Shown

variable {span : BoundedSpan U8} (h : span.Backed)

include h

theorem length_shown : span.shown.length = span.size.toNat := by
  unfold BoundedSpan.shown
  rw [List.length_take]
  exact min_eq_left h

theorem size_shown : size span.shown = span.size := by
  unfold size
  rw [length_shown h, BitVec.ofNat_toNat, BitVec.setWidth_eq]

theorem length_shown_lt : span.shown.length < 2 ^ 64 := by
  rw [length_shown h]
  exact span.size.isLt

/-- Reading the span is reading what it shows. -/
theorem get_shown {index : ℕ} {byte : U8} (hread : readAt span.shown index = .ok byte) :
    span.get index = .ok byte := by
  have hindex : index < span.shown.length := by
    by_contra hge
    unfold readAt at hread
    rw [List.getElem?_eq_none (not_lt.mp hge)] at hread
    cases hread
  have hsize : index < span.size.toNat := by
    rw [← length_shown h]
    exact hindex
  have hdata : index < span.data.length := lt_of_lt_of_le hsize h
  have hbyte : span.shown[index] = span.data[index] := List.getElem_take
  rw [readAt_of_lt hindex, hbyte] at hread
  unfold BoundedSpan.get BoundedSpan.deref
  rw [if_pos hsize, List.getElem?_eq_getElem hdata, ← Except.ok.inj hread]

end Shown

/-! ## Frames -/

theorem writes_pushAll {ι : Type} (f : ι → U8) (values : List ι) :
    Writes (fun v : BoundedVector U8 limit => values.foldlM (fun v a => v.pushBack (f a)) v)
      (values.map f) := by
  induction values with
  | nil => exact writes_nil
  | cons a values ih =>
    have hstep := (@writes_pushBack U8 limit (f a)).bind ih
    exact hstep

theorem writes_appendU64Be (value : U64) :
    Writes (@appendU64Be limit value) (u64be value) := by
  have h := @writes_pushAll limit ℕ
    (fun shift : ℕ => u8 ((value >>> shift) &&& 0xFF)) [56, 48, 40, 32, 24, 16, 8, 0]
  have hbytes : [56, 48, 40, 32, 24, 16, 8, 0].map
      (fun shift : ℕ => u8 ((value >>> shift) &&& 0xFF)) = u64be value := by
    simp only [u8_and_mask]
    rfl
  rw [hbytes] at h
  exact h

theorem writes_insertEnd_ofList {data : List U8} (h : data.length < 2 ^ 64) :
    Writes (@insertEnd limit (.ofList data)) data := by
  have hshown := @writes_insert U8 limit _ (backed_ofList h)
  rw [shown_ofList h] at hshown
  exact hshown

theorem length_kMagic : PvcAead0.kMagic.length < 2 ^ 64 := by decide

theorem length_nonce (nonce : Nonce192) : nonce.toList.length < 2 ^ 64 := by
  rw [Vector.length_toList]
  decide

/-- **The stream frame** fills its reservation. -/
theorem frameStreamBlock_eq {tagSize : TagSize} (h : tagSize.Supported) (hlimit : 48 ≤ limit)
    (nonce : Nonce192) (counter : U64) :
    ∃ v : BoundedVector U8 limit, frameStreamBlock nonce counter tagSize = .ok v ∧
      v.elements = PvcAead0.streamBytes nonce counter tagSize ∧ v.capacity = 48 := by
  have hs : PvcAead0.isSupportedTagSize (tagSizeBytes tagSize) = true :=
    (supportedBytes_tagSizeBytes tagSize).mpr h
  -- the writers of the fields, in their order
  have hwriter := (@writes_insertEnd_ofList limit _ length_kMagic).bind
    ((writes_pushBack PvcAead0.kSeparator).bind
      ((writes_pushBack PvcAead0.kFrameVersion).bind
        ((writes_pushBack PvcAead0.kRoleStream).bind
          ((writes_pushBack PvcAead0.kPrimitiveProfileC1).bind
            ((writes_pushBack (u8 (tagSizeBytes tagSize))).bind
              ((writes_pushBack PvcAead0.kReserved).bind
                ((writes_insertEnd_ofList (length_nonce nonce)).bind
                  (writes_appendU64Be counter))))))))
  have hbytes : PvcAead0.streamBytes nonce counter tagSize = PvcAead0.kMagic
      ++ ([PvcAead0.kSeparator] ++ ([PvcAead0.kFrameVersion] ++ ([PvcAead0.kRoleStream]
      ++ ([PvcAead0.kPrimitiveProfileC1] ++ ([u8 (tagSizeBytes tagSize)]
      ++ ([PvcAead0.kReserved] ++ (nonce.toList ++ u64be counter))))))) := by
    unfold PvcAead0.streamBytes
    rw [u8_tagSizeBytes]
    simp only [List.append_assoc, List.cons_append, List.nil_append]
  rw [← hbytes] at hwriter
  have hlength := PvcAead0.length_streamBytes nonce counter tagSize
  have hreserved : kStreamFrameSize.toNat
      = (PvcAead0.streamBytes nonce counter tagSize).length := by
    rw [hlength]
    rfl
  obtain ⟨v, hv, helements, hcapacity⟩ := hwriter.reserved hreserved (by omega)
  refine ⟨v, ?_, helements, hcapacity.trans hlength⟩
  unfold frameStreamBlock
  rw [if_neg (not_not.mpr hs)]
  exact hv

/-- **The authentication context** fills its reservation. -/
theorem frameAuthenticationContext_eq {tagSize : TagSize} (h : tagSize.Supported)
    (nonce : Nonce192) {associatedData : BoundedSpan U8} (hbacked : associatedData.Backed)
    (hfits : 49 + associatedData.size.toNat < 2 ^ 64)
    (hlimit : 49 + associatedData.size.toNat ≤ limit) :
    ∃ v : BoundedVector U8 limit,
      frameAuthenticationContext nonce associatedData tagSize = .ok v ∧
      v.elements = PvcAead0.contextBytes nonce associatedData.shown tagSize ∧
      v.capacity = 49 + associatedData.size.toNat := by
  have hs : PvcAead0.isSupportedTagSize (tagSizeBytes tagSize) = true :=
    (supportedBytes_tagSizeBytes tagSize).mpr h
  have hwriter := (@writes_insertEnd_ofList limit _ length_kMagic).bind
    ((writes_pushBack PvcAead0.kSeparator).bind
      ((writes_pushBack PvcAead0.kFrameVersion).bind
        ((writes_pushBack PvcAead0.kRoleAuthentication).bind
          ((writes_pushBack PvcAead0.kPrimitiveProfileC1).bind
            ((writes_pushBack PvcAead0.kMacProfileM1).bind
              ((writes_pushBack (u8 (tagSizeBytes tagSize))).bind
                ((writes_pushBack PvcAead0.kReserved).bind
                  ((writes_insertEnd_ofList (length_nonce nonce)).bind
                    ((writes_appendU64Be associatedData.size).bind
                      (writes_insert hbacked))))))))))
  have hbytes : PvcAead0.contextBytes nonce associatedData.shown tagSize = PvcAead0.kMagic
      ++ ([PvcAead0.kSeparator] ++ ([PvcAead0.kFrameVersion] ++ ([PvcAead0.kRoleAuthentication]
      ++ ([PvcAead0.kPrimitiveProfileC1] ++ ([PvcAead0.kMacProfileM1]
      ++ ([u8 (tagSizeBytes tagSize)] ++ ([PvcAead0.kReserved] ++ (nonce.toList
      ++ (u64be associatedData.size ++ associatedData.shown))))))))) := by
    unfold PvcAead0.contextBytes PvcAead0.contextHeader
    rw [u8_tagSizeBytes, size_shown hbacked]
    simp only [List.append_assoc, List.cons_append, List.nil_append]
  rw [← hbytes] at hwriter
  have hlength : (PvcAead0.contextBytes nonce associatedData.shown tagSize).length
      = 49 + associatedData.size.toNat := by
    rw [PvcAead0.length_contextBytes, length_shown hbacked]
  have hreserved : (PvcAead0.kAuthFixedSize + associatedData.size).toNat
      = (PvcAead0.contextBytes nonce associatedData.shown tagSize).length := by
    have h49 : PvcAead0.kAuthFixedSize.toNat = 49 := rfl
    rw [hlength, BitVec.toNat_add, h49]
    omega
  have hvalid : PvcAead0.validateAuthenticationContextLength associatedData.size = .ok () := by
    rw [← size_shown hbacked]
    apply PvcAead0.validateAuthenticationContextLength_eq
    rw [length_shown hbacked]
    exact hfits
  obtain ⟨v, hv, helements, hcapacity⟩ := hwriter.reserved hreserved (by omega)
  refine ⟨v, ?_, helements, hcapacity.trans hlength⟩
  unfold frameAuthenticationContext faulted
  rw [if_neg (not_not.mpr hs), hvalid]
  exact hv

/-- A context that is returned had room for all of it. -/
theorem fits_of_frameAuthenticationContext {nonce : Nonce192} {associatedData : BoundedSpan U8}
    {tagSize : TagSize} {v : BoundedVector U8 limit}
    (h : frameAuthenticationContext nonce associatedData tagSize = .ok v) :
    49 + associatedData.size.toNat ≤ limit := by
  unfold frameAuthenticationContext at h
  dsimp only at h
  split_ifs at h with hs
  obtain ⟨_, hvalid, h⟩ := exists_of_except_bind h
  obtain ⟨framed, hreserve, -⟩ := exists_of_except_bind h
  have h49 : PvcAead0.kAuthFixedSize.toNat = 49 := rfl
  -- the length check keeps the sum of the reservation from wrapping
  have hsmall : associatedData.size.toNat ≤ 2 ^ 64 - 50 := by
    by_contra hlarge
    have hmax : (maxSize - PvcAead0.kAuthFixedSize).toNat = 2 ^ 64 - 50 := by decide +kernel
    have hover : associatedData.size > maxSize - PvcAead0.kAuthFixedSize := by
      rw [gt_iff_lt, BitVec.lt_def, hmax]
      omega
    unfold faulted PvcAead0.validateAuthenticationContextLength at hvalid
    rw [if_pos hover] at hvalid
    cases hvalid
  unfold BoundedVector.reserve at hreserve
  split_ifs at hreserve with hle
  rw [BitVec.toNat_add, h49] at hle
  omega

/-! ## The keystream -/

/-- The input, masked by the output of the call for its block. -/
def maskedBy (outputs : U64 → ResearchOutput) (input : List U8) : List U8 :=
  input.mapIdx fun j byte => byte ^^^ (outputs (BitVec.ofNat 64 (j / 32))).get (Fin.ofNat 32 j)

@[simp] theorem length_maskedBy (outputs : U64 → ResearchOutput) (input : List U8) :
    (maskedBy outputs input).length = input.length := by
  unfold maskedBy
  exact List.length_mapIdx

/-- What is masked keeps its size. -/
theorem count_of_masked {w : BoundedVector U8 limit} {outputs : U64 → ResearchOutput}
    {payload : BoundedSpan U8} (hbacked : payload.Backed)
    (h : w.elements = maskedBy outputs payload.shown) : w.count = payload.size := by
  unfold BoundedVector.count
  rw [h, length_maskedBy, length_shown hbacked, BitVec.ofNat_toNat, BitVec.setWidth_eq]

theorem arrayGet_of_readAt {stream : ResearchOutput} {index : ℕ} {byte : U8}
    (h : readAt stream.toList index = .ok byte) : arrayGet stream index = .ok byte := by
  unfold readAt at h
  unfold arrayGet
  cases hbyte : stream.toList[index]? with
  | some value =>
    rw [hbyte] at h
    obtain rfl := Except.ok.inj h
    rfl
  | none =>
    rw [hbyte] at h
    cases h

theorem set_of_storeAt {v : BoundedVector U8 limit} {index : ℕ} {byte : U8} {output : List U8}
    (h : storeAt v.elements index byte = .ok output) :
    ∃ w : BoundedVector U8 limit, v.set index byte = .ok w ∧ w.elements = output := by
  unfold storeAt at h
  unfold BoundedVector.set
  split_ifs at h ⊢ with hindex
  obtain rfl := Except.ok.inj h
  exact ⟨_, rfl, rfl⟩

/-- The checked loop follows the loop of the library. -/
theorem maskBytes_of_xorBytes {input : BoundedSpan U8} (hbacked : input.Backed)
    {stream : ResearchOutput} {offset : U64} {output : BoundedVector U8 limit} {masked : List U8}
    (h : xorBytes input.shown stream offset output.elements = .ok masked) :
    ∃ w : BoundedVector U8 limit, maskBytes input stream offset output = .ok w ∧
      w.elements = masked := by
  unfold xorBytes at h
  rw [size_shown hbacked] at h
  unfold maskBytes
  -- the vector holds the bytes that the buffer of the library holds
  refine foldlM_simulates (R := fun (bytes : List U8) (v : BoundedVector U8 limit) =>
    v.elements = bytes) ?_ _ _ _ _ rfl h
  rintro _ v i bytes rfl hstep
  obtain ⟨byte, hbyte, hstep⟩ := exists_of_except_bind hstep
  obtain ⟨mask, hmask, hstep⟩ := exists_of_except_bind hstep
  obtain ⟨w, hw, helements⟩ := set_of_storeAt hstep
  refine ⟨w, ?_, helements⟩
  rw [get_shown hbacked hbyte, except_ok_bind, arrayGet_of_readAt hmask, except_ok_bind]
  exact hw

/-- The globals after the calls for the first blocks. -/
def Globals.called (globals : Globals) (blocks : ℕ) : Globals :=
  { globals with prfCalls := BitVec.ofNat 64 blocks }

/-- A payload may be masked: no message is being opened, or its tag has been verified. -/
def Globals.Authenticated (globals : Globals) : Prop :=
  globals.insideOpen = true → globals.verifyCalled = true ∧ globals.verifyResult = true

theorem authenticatedFirst_of {globals : Globals} (h : globals.Authenticated) :
    authenticatedFirst globals = .ok () := by
  unfold authenticatedFirst
  split_ifs with hinside
  · obtain ⟨hcalled, hresult⟩ := h hinside
    rw [cproverAssert_of hcalled, except_ok_bind, cproverAssert_of hresult]
  · rfl

theorem toNat_expectedBlocks (size : U64) :
    (expectedBlocks size).toNat = blockCount size.toNat := by
  have hlt := size.isLt
  have h32 : (32 : U64).toNat = 32 := rfl
  have h1 : (1 : U64).toNat = 1 := rfl
  unfold expectedBlocks blockCount
  split_ifs with hzero
  · rw [hzero]
    rfl
  · have hpos : size.toNat ≠ 0 := fun h => hzero (BitVec.eq_of_toNat_eq h)
    rw [BitVec.toNat_add, BitVec.toNat_udiv, BitVec.toNat_sub, h32, h1]
    omega

/-- The calls that are made are the blocks that the harness expects. -/
theorem called_blockCount (globals : Globals) (size : U64) :
    (globals.called (blockCount size.toNat)).prfCalls = expectedBlocks size := by
  show BitVec.ofNat 64 (blockCount size.toNat) = expectedBlocks size
  rw [← toNat_expectedBlocks, BitVec.ofNat_toNat, BitVec.setWidth_eq]

section Keystream

variable (choices : Choices) {input : BoundedSpan U8} (hbacked : input.Backed) {tagSize : TagSize}
  (ht : tagSize.Supported) (h48 : 48 ≤ limit) {globals : Globals}
  (hfirst : globals.Authenticated)

include hfirst

/-- One call of the stub. -/
theorem researchKeyedReturnOutputA2_run (key : ResearchKey256) {framed : BoundedVector U8 limit}
    (hframed : framed.elements.length = 48) (block : ℕ) :
    (researchKeyedReturnOutputA2 choices key framed).run (globals.called block)
      = .ok (choices.outputs (BitVec.ofNat 64 block)) (globals.called (block + 1)) := by
  have hcount : framed.count = 48 := by
    unfold BoundedVector.count
    rw [hframed]
    rfl
  have hallowed : authenticatedFirst (globals.called block) = .ok () :=
    authenticatedFirst_of hfirst
  have hnext : BitVec.ofNat 64 block + 1 = BitVec.ofNat 64 (block + 1) :=
    (BitVec.ofNat_add block 1).symm
  unfold researchKeyedReturnOutputA2
  rw [cproverAssert_of hcount, lift_ok_bind]
  show (lift (authenticatedFirst (globals.called block)) >>= fun _ => (do
    set { globals.called block with prfCalls := (globals.called block).prfCalls + 1 }
    return choices.outputs (globals.called block).prfCalls : CbmcRun ResearchOutput)).run _ = _
  rw [hallowed, lift_ok_bind]
  show EStateM.Result.ok _ { globals.called block with prfCalls := BitVec.ofNat 64 block + 1 } = _
  rw [hnext]
  rfl

include hbacked ht h48

/-- One block of the loop. -/
theorem maskBlock_run (key : ResearchKey256) (nonce : Nonce192)
    {output : BoundedVector U8 limit} (houtput : output.elements.length = input.shown.length)
    {block : ℕ} (hblock : 32 * block < input.shown.length) :
    ∃ w : BoundedVector U8 limit,
      (maskBlock choices key nonce input tagSize output block).run (globals.called block)
        = .ok w (globals.called (block + 1)) ∧
      w.elements.length = input.shown.length ∧
      ∀ j, w.elements[j]? = if 32 * block ≤ j ∧ j < 32 * (block + 1) then
        (maskedBy choices.outputs input.shown)[j]? else output.elements[j]? := by
  obtain ⟨framed, hframe, hbytes, -⟩ :=
    @frameStreamBlock_eq limit tagSize ht h48 nonce (BitVec.ofNat 64 block)
  have hframed : framed.elements.length = 48 := by
    rw [hbytes, PvcAead0.length_streamBytes]
  obtain ⟨bytes, hxor, hlength, hget⟩ :=
    xorBytes_eq (choices.outputs (BitVec.ofNat 64 block)) (length_shown_lt hbacked) houtput hblock
  obtain ⟨w, hmask, rfl⟩ := maskBytes_of_xorBytes hbacked hxor
  refine ⟨w, ?_, hlength, fun j => ?_⟩
  · unfold maskBlock
    rw [hframe, lift_ok_bind,
      run_bind_of_ok (researchKeyedReturnOutputA2_run choices hfirst key hframed block), hmask,
      lift_ok_run]
  · rw [hget]
    by_cases hj : 32 * block ≤ j ∧ j < 32 * (block + 1)
    · have hdiv : j / 32 = block := by omega
      rw [if_pos hj, if_pos hj]
      unfold maskedBy
      rw [List.getElem?_mapIdx, hdiv]
    · rw [if_neg hj, if_neg hj]

/-- After `k` blocks the output is masked up to there, and `k` calls have been made. -/
theorem maskBlocks_run (key : ResearchKey256) (nonce : Nonce192)
    {output : BoundedVector U8 limit} (houtput : output.elements.length = input.shown.length) :
    ∀ k ≤ blockCount input.shown.length, ∃ w : BoundedVector U8 limit,
      ((List.range k).foldlM (maskBlock choices key nonce input tagSize) output).run
          (globals.called 0) = .ok w (globals.called k) ∧
      w.elements.length = input.shown.length ∧
      ∀ j < 32 * k, w.elements[j]? = (maskedBy choices.outputs input.shown)[j]? := by
  intro k
  induction k with
  | zero =>
    intro _
    exact ⟨output, rfl, houtput, fun j hj => absurd hj (by omega)⟩
  | succ k ih =>
    intro hk
    obtain ⟨v, hrun, hlength, hget⟩ := ih (by omega)
    have hblock : 32 * k < input.shown.length := by
      unfold blockCount at hk
      omega
    obtain ⟨w, hstep, hlength', hget'⟩ :=
      maskBlock_run choices hbacked ht h48 hfirst key nonce hlength hblock
    refine ⟨w, ?_, hlength', fun j hj => ?_⟩
    · rw [List.range_succ, List.foldlM_append, run_bind_of_ok hrun]
      show EStateM.run (List.foldlM _ v [k]) _ = _
      rw [List.foldlM_cons, run_bind_of_ok hstep]
      rfl
    · rw [hget']
      by_cases hlow : 32 * k ≤ j
      · rw [if_pos ⟨hlow, hj⟩]
      · rw [if_neg (by omega), hget j (by omega)]

/-- **The keystream loop** masks the payload with one call for each block. -/
theorem applyKeystream_run (hlimit : input.size.toNat ≤ limit) (key : ResearchKey256)
    (nonce : Nonce192) :
    ∃ w : BoundedVector U8 limit,
      (applyKeystream choices key nonce input tagSize).run (globals.called 0)
        = .ok w (globals.called (blockCount input.size.toNat)) ∧
      w.elements = maskedBy choices.outputs input.shown := by
  have hshown := length_shown hbacked
  -- a vector of the size of the payload, with whatever bytes the memory held
  obtain ⟨output, houtput, hlength⟩ : ∃ output : BoundedVector U8 limit,
      BoundedVector.ofSize choices.memory input.size = .ok output ∧
      output.elements.length = input.shown.length := by
    unfold BoundedVector.ofSize
    rw [dif_pos hlimit]
    refine ⟨_, rfl, ?_⟩
    rw [List.length_map, List.length_range, hshown]
  have hblocks : (if input.size = 0 then (0 : U64) else 1 + (input.size - 1) / kBlockSize).toNat
      = blockCount input.size.toNat := toNat_expectedBlocks input.size
  obtain ⟨w, hrun, hlength', hget⟩ := maskBlocks_run choices hbacked ht h48 hfirst
    key nonce hlength _ le_rfl
  refine ⟨w, ?_, ?_⟩
  · unfold applyKeystream
    rw [houtput, lift_ok_bind]
    show ((List.range _).foldlM (maskBlock choices key nonce input tagSize) output).run _ = _
    rw [hblocks, ← hshown]
    exact hrun
  · refine List.ext_getElem? fun j => ?_
    by_cases hj : j < input.shown.length
    · apply hget
      unfold blockCount
      omega
    · rw [List.getElem?_eq_none (by omega), List.getElem?_eq_none (by simp; omega)]

end Keystream

/-! ## `seal` and `open` -/

theorem supportedTagLength_of {tagSize : TagSize} (h : tagSize.Supported) :
    supportedTagLength (tagSizeBytes tagSize) = true :=
  (supportedBytes_tagSizeBytes tagSize).mpr h

/-- A tag fits where a frame does. -/
theorem exists_ofSize_tag {tagSize : TagSize} (ht : tagSize.Supported) (h48 : 48 ≤ limit)
    (contents : ℕ → U8) : ∃ w : BoundedVector U8 limit,
      BoundedVector.ofSize contents (tagSizeBytes tagSize) = .ok w ∧
      w.elements = (List.range (tagSizeBytes tagSize).toNat).map contents := by
  have hle : (tagSizeBytes tagSize).toNat ≤ 32 := by
    rcases ht with rfl | rfl | rfl <;> decide
  unfold BoundedVector.ofSize
  rw [dif_pos (by omega)]
  exact ⟨_, rfl, rfl⟩

/-- The room that the associated data and the payload need. -/
structure Fits (limit : ℕ) (associatedData payload : BoundedSpan U8) : Prop where
  associatedData_backed : associatedData.Backed
  payload_backed : payload.Backed
  context_lt : 49 + associatedData.size.toNat < 2 ^ 64
  context_le : 49 + associatedData.size.toNat ≤ limit
  payload_le : payload.size.toNat ≤ limit

/-- The globals behind the verification of a tag. -/
def verified (choices : Choices) : Globals := ⟨true, true, choices.verdict, 0⟩

/-- The verdict on a tag is asked for once. -/
theorem verifyTag_run (choices : Choices) (key : ResearchKey256)
    (context : BoundedVector U8 limit) (message : BoundedSpan U8) {tag : BoundedSpan U8}
    (h : supportedTagLength tag.size = true) :
    (verifyTag choices key context message tag).run (resetStubs true)
      = .ok choices.verdict (verified choices) := by
  have huncalled : (resetStubs true).verifyCalled = false := rfl
  unfold verifyTag
  rw [run_bind_of_ok (get_run _), cproverAssert_of huncalled, lift_ok_bind, cproverAssert_of h,
    lift_ok_bind]
  rfl

section Messages

variable {choices : Choices} {keys : PvcAead0.KeyPair512} {nonce : Nonce192}
  {associatedData payload : BoundedSpan U8} (hfits : Fits limit associatedData payload)

include hfits

/-- **`seal`** calls the PRF once for each block and returns a masked payload. -/
theorem sealMessage_run {tagSize : TagSize} (ht : tagSize.Supported) :
    ∃ sealed : SealedVectors limit,
      (sealMessage choices keys nonce associatedData payload tagSize).run (resetStubs false)
        = .ok sealed ((resetStubs false).called (blockCount payload.size.toNat)) ∧
      sealed.ciphertext.elements = maskedBy choices.outputs payload.shown ∧
      sealed.tag.elements = (List.range (tagSizeBytes tagSize).toNat).map choices.tagMemory := by
  have h48 : 48 ≤ limit := le_trans (by omega) hfits.context_le
  have hfirst : (resetStubs false).Authenticated := fun h => absurd h (by decide)
  obtain ⟨ciphertext, hstream, hciphertext⟩ := applyKeystream_run choices
    hfits.payload_backed ht h48 hfirst hfits.payload_le keys.encryptionKey nonce
  obtain ⟨context, hcontext, -, -⟩ := frameAuthenticationContext_eq ht nonce
    hfits.associatedData_backed hfits.context_lt hfits.context_le
  obtain ⟨tag, htag, hbytes⟩ := exists_ofSize_tag ht h48 choices.tagMemory
  refine ⟨⟨ciphertext, tag⟩, ?_, hciphertext, hbytes⟩
  unfold sealMessage
  have hstart : (applyKeystream choices keys.encryptionKey nonce payload tagSize).run
      (resetStubs false) = .ok ciphertext
        ((resetStubs false).called (blockCount payload.size.toNat)) := hstream
  have hmac : faulted (PvcAead0.toMacTagSize tagSize) = .ok tagSize := by
    unfold faulted PvcAead0.toMacTagSize
    rw [convertTagSize_of_supported ht]
    rfl
  rw [run_bind_of_ok hstart, hcontext, lift_ok_bind, hmac, lift_ok_bind]
  unfold computeTag
  rw [cproverAssert_of (supportedTagLength_of ht), lift_ok_bind, htag]
  rfl

/-- **`open`**, with a supported tag, asks for the verdict once and decrypts after a good one. -/
theorem openMessage_run {tag : BoundedSpan U8} {tagSize : TagSize} (ht : tagSize.Supported)
    (hsize : tag.size = tagSizeBytes tagSize) :
    (choices.verdict = false ∧
      (@openMessage limit choices keys nonce associatedData payload tag).run
        (resetStubs true) = .ok none (verified choices)) ∨
    ∃ plaintext : BoundedVector U8 limit, choices.verdict = true ∧
      (openMessage choices keys nonce associatedData payload tag).run (resetStubs true)
        = .ok (some plaintext) ((verified choices).called (blockCount payload.size.toNat)) ∧
      plaintext.elements = maskedBy choices.outputs payload.shown := by
  have h48 : 48 ≤ limit := le_trans (by omega) hfits.context_le
  have hs : PvcAead0.isSupportedTagSize tag.size = true := by
    rw [hsize]
    exact (supportedBytes_tagSizeBytes tagSize).mpr ht
  have hparsed : faulted (PvcAead0.tagSizeFromBytes tag.size) = .ok tagSize := by
    rw [hsize]
    rcases ht with rfl | rfl | rfl <;> rfl
  obtain ⟨context, hcontext, -, -⟩ := frameAuthenticationContext_eq ht nonce
    hfits.associatedData_backed hfits.context_lt hfits.context_le
  have hverify := verifyTag_run choices keys.authenticationKey context payload
    (show supportedTagLength tag.size = true from hs)
  unfold openMessage
  rw [if_neg (not_not.mpr hs), hparsed, lift_ok_bind]
  unfold openSupported
  rw [hcontext, lift_ok_bind, run_bind_of_ok hverify]
  cases hverdict : choices.verdict with
  | false => exact .inl ⟨rfl, rfl⟩
  | true =>
    have hfirst : (verified choices).Authenticated := fun _ => ⟨rfl, hverdict⟩
    obtain ⟨plaintext, hstream, hplaintext⟩ := applyKeystream_run choices
      hfits.payload_backed ht h48 hfirst hfits.payload_le keys.encryptionKey nonce
    have hstart : (applyKeystream choices keys.encryptionKey nonce payload tagSize).run
        (verified choices) = .ok plaintext
          ((verified choices).called (blockCount payload.size.toNat)) := hstream
    refine .inr ⟨plaintext, rfl, ?_, hplaintext⟩
    rw [if_neg (by simp), run_bind_of_ok hstart]
    rfl

end Messages

/-- Any other tag is refused at once. -/
theorem openMessage_run_of_not_supported (choices : Choices) (keys : PvcAead0.KeyPair512)
    (nonce : Nonce192) (associatedData payload : BoundedSpan U8) {tag : BoundedSpan U8}
    (h : ¬ supportedTagLength tag.size) :
    (@openMessage limit choices keys nonce associatedData payload tag).run
      (resetStubs true) = .ok none (resetStubs true) := by
  have hs : ¬ PvcAead0.isSupportedTagSize tag.size = true := h
  unfold openMessage
  rw [if_pos hs]
  rfl

/-! ## The assertions on the frames -/

/-- A loop of assertions that all hold. -/
theorem checkEach_of {check : ℕ → Except Failure PUnit} {count : ℕ}
    (h : ∀ index < count, check index = .ok ()) : checkEach count check = .ok () := by
  unfold checkEach
  induction count with
  | zero => rfl
  | succ count ih =>
    rw [List.range_succ, List.foldlM_append, ih fun index hi => h index (by omega), except_ok_bind]
    show List.foldlM _ () [count] = _
    rw [List.foldlM_cons, h count (by omega)]
    rfl

theorem get_of_elements {v : BoundedVector U8 limit} {index : ℕ} {byte : U8}
    (h : v.elements[index]? = some byte) : v.get index = .ok byte := by
  unfold BoundedVector.get
  rw [h]

theorem arrayGet_of_lt {n : ℕ} (array : Vector U8 n) {index : ℕ} (h : index < n) :
    arrayGet array index = .ok array[index] := by
  have hlength : index < array.toList.length := by
    rw [Vector.length_toList]
    exact h
  unfold arrayGet
  rw [List.getElem?_eq_getElem hlength, Vector.getElem_toList]

section Positions

variable (nonce : Nonce192) (counter : U64) (tagSize : TagSize) {index : ℕ}

/-- The nonce stands behind 16 bytes. -/
theorem streamBytes_nonce (h : index < 24) :
    (PvcAead0.streamBytes nonce counter tagSize)[16 + index]? = some nonce[index] := by
  have hlength : index < nonce.toList.length := by
    rw [Vector.length_toList]
    exact h
  have hindex : 16 + index - (PvcAead0.kMagic ++ [PvcAead0.kSeparator, PvcAead0.kFrameVersion,
      PvcAead0.kRoleStream, PvcAead0.kPrimitiveProfileC1, tagSize.value,
      PvcAead0.kReserved]).length = index := by
    simp [PvcAead0.kMagic]
  unfold PvcAead0.streamBytes
  rw [List.getElem?_append_left (by simp [PvcAead0.kMagic]; omega),
    List.getElem?_append_right (by simp [PvcAead0.kMagic]), hindex,
    List.getElem?_eq_getElem hlength, Vector.getElem_toList]

/-- The counter stands behind 40 bytes, the high one first. -/
theorem streamBytes_counter (h : index < 8) :
    (PvcAead0.streamBytes nonce counter tagSize)[40 + index]?
      = some (u8 ((counter >>> ((7 - index) * 8)) &&& 0xFF)) := by
  have hshift : (7 - index) * 8 = 56 - 8 * index := by omega
  have hindex : 40 + index - (PvcAead0.kMagic ++ [PvcAead0.kSeparator, PvcAead0.kFrameVersion,
      PvcAead0.kRoleStream, PvcAead0.kPrimitiveProfileC1, tagSize.value, PvcAead0.kReserved]
      ++ nonce.toList).length = index := by
    simp [PvcAead0.kMagic]
  unfold PvcAead0.streamBytes u64be
  rw [List.getElem?_append_right (by simp [PvcAead0.kMagic]), hindex, u8_and_mask, hshift,
    List.getElem?_map, List.getElem?_range h]
  rfl

end Positions

theorem checkStream_eq {stream : BoundedVector U8 limit} {nonce : Nonce192} {counter : U64}
    {tagSize : TagSize} (h : stream.elements = PvcAead0.streamBytes nonce counter tagSize) :
    checkStream stream nonce counter (tagSizeBytes tagSize) = .ok () := by
  have hcount : stream.count = 48 := by
    unfold BoundedVector.count
    rw [h, PvcAead0.length_streamBytes]
    rfl
  have hprofile : stream.get 14 = .ok tagSize.value := by
    apply get_of_elements
    rw [h]
    rfl
  have hnonce : ∀ index (hi : index < 24), stream.get (16 + index) = .ok nonce[index] := by
    intro index hi
    apply get_of_elements
    rw [h]
    exact streamBytes_nonce nonce counter tagSize hi
  have hcounter : ∀ index < 8,
      stream.get (40 + index) = .ok (u8 ((counter >>> ((7 - index) * 8)) &&& 0xFF)) := by
    intro index hi
    apply get_of_elements
    rw [h]
    exact streamBytes_counter nonce counter tagSize hi
  have hbound : u64 tagSize.value = tagSizeBytes tagSize := rfl
  -- each assertion drops out; the two loops are left
  unfold checkStream
  rw [cproverAssert_of hcount, except_ok_bind, hprofile, except_ok_bind, cproverAssert_of hbound,
    except_ok_bind, checkEach_of, except_ok_bind, checkEach_of]
  · intro index hi
    dsimp only
    rw [hcounter index hi, except_ok_bind, cproverAssert_of rfl]
  · intro index hi
    rw [hnonce index hi, except_ok_bind, arrayGet_of_lt nonce hi, except_ok_bind,
      cproverAssert_of rfl]

theorem checkContext_eq {auth : BoundedVector U8 limit} {nonce : Nonce192}
    {associatedData : BoundedSpan U8} (hbacked : associatedData.Backed) {tagSize : TagSize}
    (h : auth.elements = PvcAead0.contextBytes nonce associatedData.shown tagSize) :
    checkContext auth associatedData (tagSizeBytes tagSize) = .ok () := by
  have hcount : auth.count = 49 + associatedData.size := by
    unfold BoundedVector.count
    rw [h, PvcAead0.length_contextBytes, length_shown hbacked, BitVec.ofNat_add,
      BitVec.ofNat_toNat, BitVec.setWidth_eq]
    rfl
  have hprofile : auth.get 15 = .ok tagSize.value := by
    apply get_of_elements
    rw [h]
    rfl
  have hbound : u64 tagSize.value = tagSizeBytes tagSize := rfl
  unfold checkContext
  rw [cproverAssert_of hcount, except_ok_bind, hprofile, except_ok_bind, cproverAssert_of hbound,
    except_ok_bind, checkEach_of]
  intro index hi
  have hdata : index < associatedData.data.length := lt_of_lt_of_le hi hbacked
  have hbyte : auth.get (49 + index) = .ok associatedData.data[index] := by
    apply get_of_elements
    rw [h]
    unfold PvcAead0.contextBytes
    rw [List.getElem?_append_right (by simp), PvcAead0.length_contextHeader,
      Nat.add_sub_cancel_left]
    unfold BoundedSpan.shown
    rw [List.getElem?_take_of_lt hi, List.getElem?_eq_getElem hdata]
  have hderef : associatedData.deref index = .ok associatedData.data[index] := by
    unfold BoundedSpan.deref
    rw [List.getElem?_eq_getElem hdata]
  rw [hbyte, except_ok_bind, hderef, except_ok_bind, cproverAssert_of rfl]

/-! ## The bounds -/

/-- The containers hold the largest frames and the largest payload. -/
structure Bounds.Fit (bounds : Bounds) : Prop where
  frame_le : 49 + bounds.maximumFrameAssociatedData.toNat ≤ bounds.limit
  context_le : 49 + bounds.maximumAssociatedData.toNat ≤ bounds.limit
  payload_le : bounds.maximumPayload.toNat ≤ bounds.limit

theorem kBounds_fit : kBounds.Fit := by
  constructor <;> decide

theorem supported_nondetTagSize (selector : U8) : (nondetTagSize selector).Supported := by
  unfold nondetTagSize TagSize.Supported
  split_ifs
  · exact .inl rfl
  · exact .inr (.inl rfl)
  · exact .inr (.inr rfl)

section Arrays

variable {maximum : U64} (array : SizedArray maximum)

theorem SizedArray.size_toNat_le : array.size.toNat ≤ maximum.toNat := array.size_le

theorem SizedArray.backed : array.span.Backed := by
  show array.size.toNat ≤ array.data.length
  rw [array.length_eq]
  exact array.size_le

end Arrays

/-- The array, all of it. -/
def SizedArray.full (maximum : U64) : SizedArray maximum where
  data := List.replicate maximum.toNat 0
  size := maximum
  length_eq := List.length_replicate
  size_le := BitVec.le_refl maximum

theorem fits_of_fit {bounds : Bounds} (h : bounds.Fit)
    (associatedData : SizedArray bounds.maximumAssociatedData)
    (payload : SizedArray bounds.maximumPayload) :
    Fits bounds.limit associatedData.span payload.span := by
  have hlimit : bounds.limit < 2 ^ 64 := bounds.vectorCapacity.isLt
  have had := associatedData.size_toNat_le
  have hpayload := payload.size_toNat_le
  have hcontext : 49 + associatedData.size.toNat ≤ bounds.limit :=
    le_trans (by omega) h.context_le
  exact ⟨associatedData.backed, payload.backed, lt_of_le_of_lt hcontext hlimit, hcontext,
    le_trans hpayload h.payload_le⟩

section Checks

variable {bounds : Bounds}

theorem verifyFrames_eq (h : bounds.Fit) (inputs : FrameInputs bounds) :
    verifyFrames inputs = .ok () := by
  have ht := supported_nondetTagSize inputs.selector.value
  have hlimit : bounds.limit < 2 ^ 64 := bounds.vectorCapacity.isLt
  have hsize := inputs.associatedData.size_toNat_le
  have hle : 49 + inputs.associatedData.size.toNat ≤ bounds.limit := le_trans (by omega) h.frame_le
  obtain ⟨stream, hstream, hbytes, -⟩ :=
    @frameStreamBlock_eq bounds.limit _ ht (by omega) inputs.nonce inputs.counter
  obtain ⟨auth, hauth, hcontext, -⟩ := @frameAuthenticationContext_eq bounds.limit _ ht
    inputs.nonce _ inputs.associatedData.backed (lt_of_le_of_lt hle hlimit) hle
  unfold verifyFrames
  dsimp only
  rw [hstream, except_ok_bind, checkStream_eq hbytes, except_ok_bind, hauth, except_ok_bind,
    checkContext_eq inputs.associatedData.backed hcontext]

theorem verifySealLengths_run (h : bounds.Fit) (inputs : SealInputs bounds) (globals : Globals) :
    ∃ globals', (verifySealLengths inputs).run globals = .ok () globals' := by
  have ht := supported_nondetTagSize inputs.selector.value
  have hfits := fits_of_fit h inputs.associatedData inputs.plaintext
  obtain ⟨sealed, hrun, hciphertext, htag⟩ := @sealMessage_run bounds.limit inputs.choices
    inputs.keys inputs.nonce _ _ hfits _ ht
  have hlength : sealed.ciphertext.count = inputs.plaintext.size :=
    count_of_masked hfits.payload_backed hciphertext
  have htagLength : sealed.tag.count = tagSizeBytes (nondetTagSize inputs.selector.value) := by
    unfold BoundedVector.count
    rw [htag, List.length_map, List.length_range, BitVec.ofNat_toNat, BitVec.setWidth_eq]
  -- the three assertions hold one by one
  refine ⟨(resetStubs false).called (blockCount inputs.plaintext.span.size.toNat), ?_⟩
  have hcalls : ((resetStubs false).called (blockCount inputs.plaintext.span.size.toNat)).prfCalls
      = expectedBlocks inputs.plaintext.size := called_blockCount _ _
  unfold verifySealLengths
  dsimp only
  rw [run_bind_of_ok (set_run _ globals), run_bind_of_ok hrun, run_bind_of_ok (get_run _),
    cproverAssert_of hlength, lift_ok_bind, cproverAssert_of htagLength, lift_ok_bind]
  show EStateM.run (lift (cproverAssert _ _)) _ = _
  rw [cproverAssert_of hcalls]
  rfl

/-- A supported length is the length of a profile. -/
theorem exists_tagSize {size : U64} (h : supportedTagLength size = true) :
    ∃ tagSize : TagSize, tagSize.Supported ∧ size = tagSizeBytes tagSize := by
  unfold supportedTagLength at h
  simp only [Bool.or_eq_true, beq_iff_eq] at h
  rcases h with (rfl | rfl) | rfl
  · exact ⟨.bits128, .inl rfl, rfl⟩
  · exact ⟨.bits192, .inr (.inl rfl), rfl⟩
  · exact ⟨.bits256, .inr (.inr rfl), rfl⟩

/-- The run ends in some globals, and the assertions hold of them. -/
theorem exists_checkOpened (h : bounds.Fit) (inputs : OpenInputs bounds) :
    ∃ (opened : Option (BoundedVector U8 bounds.limit)) (g : Globals),
      (openMessage inputs.choices inputs.keys inputs.nonce inputs.associatedData.span
        inputs.ciphertext.span ⟨inputs.tag.toList, inputs.tagSize⟩).run (resetStubs true)
        = .ok opened g ∧ checkOpened opened g inputs.tagSize inputs.ciphertext.size = .ok () := by
  have hfits := fits_of_fit h inputs.associatedData inputs.ciphertext
  by_cases hsupported : supportedTagLength inputs.tagSize = true
  · obtain ⟨tagSize, ht, hsize⟩ := exists_tagSize hsupported
    rcases @openMessage_run bounds.limit inputs.choices inputs.keys inputs.nonce _ _ hfits
      ⟨inputs.tag.toList, inputs.tagSize⟩ tagSize ht hsize with
      ⟨hverdict, hrun⟩ | ⟨plaintext, hverdict, hrun, hbytes⟩
    -- a bad verdict: nothing is decrypted
    · refine ⟨none, verified inputs.choices, hrun, ?_⟩
      unfold checkOpened
      rw [if_neg (not_not.mpr hsupported), if_pos (by simp [verified, hverdict])]
      rfl
    -- a good verdict: one call of the PRF for each block
    · have hlength : plaintext.count = inputs.ciphertext.size :=
        count_of_masked hfits.payload_backed hbytes
      generalize hglobals : (verified inputs.choices).called
        (blockCount inputs.ciphertext.span.size.toNat) = g at hrun
      have hcalls : g.prfCalls = expectedBlocks inputs.ciphertext.size := by
        rw [← hglobals]
        exact called_blockCount _ _
      have hcalled : g.verifyCalled = true := by
        rw [← hglobals]
        rfl
      have hgood : g.verifyResult = true := by
        rw [← hglobals]
        exact hverdict
      refine ⟨some plaintext, _, hrun, ?_⟩
      unfold checkOpened
      have hsome : (some plaintext).isSome = true := rfl
      rw [if_neg (not_not.mpr hsupported), if_neg (not_not.mpr hgood), cproverAssert_of hcalled,
        except_ok_bind, cproverAssert_of hsome, except_ok_bind]
      show (cproverAssert (plaintext.count = inputs.ciphertext.size) _ >>= fun _ => _) = _
      rw [cproverAssert_of hlength, except_ok_bind, cproverAssert_of hcalls]
  -- a tag of any other length reaches no stub
  · refine ⟨none, resetStubs true,
      openMessage_run_of_not_supported _ _ _ _ _ hsupported, ?_⟩
    unfold checkOpened
    rw [if_pos hsupported]
    rfl

theorem verifyOpenControlFlow_run (h : bounds.Fit) (inputs : OpenInputs bounds)
    (globals : Globals) :
    ∃ globals', (verifyOpenControlFlow inputs).run globals = .ok () globals' := by
  obtain ⟨opened, g, hrun, hchecks⟩ := exists_checkOpened h inputs
  refine ⟨g, ?_⟩
  unfold verifyOpenControlFlow
  rw [run_bind_of_ok (set_run _ globals), run_bind_of_ok hrun, run_bind_of_ok (get_run g), hchecks]
  rfl

/-- Frames that pass had room. -/
theorem frame_le_of_verifyFrames (h : ∀ inputs : FrameInputs bounds, verifyFrames inputs = .ok ()) :
    49 + bounds.maximumFrameAssociatedData.toNat ≤ bounds.limit := by
  -- the largest associated data
  have hfull := h ⟨Vector.replicate 24 0, 0, ⟨0, by decide⟩, .full _⟩
  unfold verifyFrames at hfull
  obtain ⟨stream, -, hfull⟩ := exists_of_except_bind hfull
  obtain ⟨_, -, hfull⟩ := exists_of_except_bind hfull
  obtain ⟨auth, hauth, -⟩ := exists_of_except_bind hfull
  exact fits_of_frameAuthenticationContext hauth

/-- A seal that passes had room for the payload and for the context. -/
theorem le_of_verifySealLengths (h : ∀ (inputs : SealInputs bounds) globals, ∃ globals',
    (verifySealLengths inputs).run globals = .ok () globals') :
    49 + bounds.maximumAssociatedData.toNat ≤ bounds.limit ∧
      bounds.maximumPayload.toNat ≤ bounds.limit := by
  let key : ResearchKey256 := Vector.replicate 32 0
  -- the largest associated data and the largest payload
  obtain ⟨globals', hrun⟩ := h ⟨⟨key, key⟩, Vector.replicate 24 0, .full _, .full _,
    ⟨0, by decide⟩, ⟨fun _ => Vector.replicate 32 0, fun _ => 0, fun _ => 0, false⟩⟩
    (resetStubs false)
  unfold verifySealLengths at hrun
  obtain ⟨_, _, -, hrun⟩ := exists_of_run_bind hrun
  obtain ⟨sealed, _, hseal, -⟩ := exists_of_run_bind hrun
  unfold sealMessage at hseal
  obtain ⟨ciphertext, _, hstream, hseal⟩ := exists_of_run_bind hseal
  obtain ⟨context, _, hcontext, -⟩ := exists_of_run_bind hseal
  constructor
  · exact fits_of_frameAuthenticationContext (eq_ok_of_lift_run hcontext)
  · unfold applyKeystream at hstream
    obtain ⟨output, _, houtput, -⟩ := exists_of_run_bind hstream
    have hsize := eq_ok_of_lift_run houtput
    unfold BoundedVector.ofSize at hsize
    split_ifs at hsize with hle
    exact hle

end Checks

/-! ## The counter -/

theorem checkedWord_eq {value : ℤ} {w : U64} (h : value = w.toNat) :
    checkedWord value = .ok w := by
  have hlt := w.isLt
  have hfits : 0 ≤ value ∧ value < 2 ^ 64 := by
    rw [h]
    omega
  unfold checkedWord
  rw [if_pos hfits, h]
  congr 1
  apply BitVec.eq_of_toNat_eq
  rw [BitVec.toNat_ofInt]
  omega

theorem toNat_sub_one {w : U64} (h : w ≠ 0) : (w - 1).toNat = w.toNat - 1 := by
  have hlt := w.isLt
  have h1 : (1 : U64).toNat = 1 := rfl
  have hpos : w.toNat ≠ 0 := fun h0 => h (BitVec.eq_of_toNat_eq h0)
  rw [BitVec.toNat_sub, h1]
  omega

theorem counterBlocks_eq (payloadLength : U64) :
    counterBlocks payloadLength = .ok (expectedBlocks payloadLength) := by
  have hblocks := toNat_expectedBlocks payloadLength
  have h32 : (32 : U64).toNat = 32 := rfl
  unfold counterBlocks
  by_cases hzero : payloadLength = 0
  · subst hzero
    rfl
  · have hpos : payloadLength.toNat ≠ 0 := fun h => hzero (BitVec.eq_of_toNat_eq h)
    have hlast := toNat_sub_one hzero
    rw [if_neg hzero, checkedWord_eq (w := payloadLength - 1) (by rw [hlast]; omega),
      except_ok_bind]
    apply checkedWord_eq
    rw [hblocks, BitVec.toNat_udiv, hlast, h32]
    unfold blockCount
    omega

/-- The counter of the last block, and where that block starts. -/
theorem checkFinalCounter_eq {payloadLength blocks : U64}
    (hblocks : blocks.toNat = blockCount payloadLength.toNat) (hne : blocks ≠ 0) :
    checkFinalCounter payloadLength blocks = .ok () := by
  have hlt := payloadLength.isLt
  have hpos : blocks.toNat ≠ 0 := fun h => hne (BitVec.eq_of_toNat_eq h)
  unfold blockCount at hblocks
  have hfinal := toNat_sub_one hne
  have hlast : (payloadLength - 1).toNat = payloadLength.toNat - 1 := by
    apply toNat_sub_one
    rintro rfl
    exact hpos hblocks
  have hoffset : ((blocks - 1) * 32).toNat = (blocks.toNat - 1) * 32 := by
    have h32 : (32 : U64).toNat = 32 := rfl
    rw [BitVec.toNat_mul, hfinal, h32]
    omega
  have hcounter : blocks - 1 < BitVec.allOnes 64 := by
    have hmax : (BitVec.allOnes 64).toNat = 2 ^ 64 - 1 := rfl
    rw [BitVec.lt_def, hfinal, hmax]
    omega
  have hinside : (blocks - 1) * 32 ≤ payloadLength - 1 := by
    rw [BitVec.le_def, hoffset, hlast]
    omega
  unfold checkFinalCounter
  rw [checkedWord_eq (w := blocks - 1) (by rw [hfinal]; omega), except_ok_bind,
    cproverAssert_of hcounter, except_ok_bind,
    checkedWord_eq (w := (blocks - 1) * 32) (by rw [hoffset, hfinal]; omega), except_ok_bind,
    checkedWord_eq (w := payloadLength - 1) (by rw [hlast]; omega), except_ok_bind,
    cproverAssert_of hinside]

/-- **No payload wraps the counter**: for every length that 64 bits can hold, no operation of the
harness overflows and all of its assertions hold. -/
theorem counterHarness_eq (payloadLength : U64) : counterHarness payloadLength = .ok () := by
  have hlt := payloadLength.isLt
  have hblocks := toNat_expectedBlocks payloadLength
  have hmost : expectedBlocks payloadLength ≤ (1 : U64) <<< 59 := by
    have hshift : ((1 : U64) <<< 59).toNat = 2 ^ 59 := rfl
    unfold blockCount at hblocks
    rw [BitVec.le_def, hshift]
    omega
  have hbound : expectedBlocks payloadLength < BitVec.allOnes 64 := by
    have hmax : (BitVec.allOnes 64).toNat = 2 ^ 64 - 1 := rfl
    unfold blockCount at hblocks
    rw [BitVec.lt_def, hmax]
    omega
  unfold counterHarness
  rw [counterBlocks_eq, except_ok_bind, cproverAssert_of hmost, except_ok_bind,
    cproverAssert_of hbound, except_ok_bind]
  split_ifs with hne
  · exact checkFinalCounter_eq hblocks hne
  · rfl

/-! ## The checks -/

/-- **The bounded proofs hold without their bounds.**  Whatever the constants of the harness are,
no assertion of its three functions or of the containers fails, on any input and whatever the PRF
and the MAC return, if and only if the vectors are long enough for the largest context of both
functions that build one and for the largest payload. -/
theorem cbmc_checks_hold_iff (bounds : Bounds) :
    ((∀ inputs : FrameInputs bounds, verifyFrames inputs = .ok ()) ∧
      (∀ (inputs : SealInputs bounds) globals, ∃ globals',
        (verifySealLengths inputs).run globals = .ok () globals') ∧
      ∀ (inputs : OpenInputs bounds) globals, ∃ globals',
        (verifyOpenControlFlow inputs).run globals = .ok () globals') ↔ bounds.Fit := by
  constructor
  · rintro ⟨hframes, hseal, -⟩
    obtain ⟨hcontext, hpayload⟩ := le_of_verifySealLengths hseal
    exact ⟨frame_le_of_verifyFrames hframes, hcontext, hpayload⟩
  · intro h
    exact ⟨verifyFrames_eq h, verifySealLengths_run h, verifyOpenControlFlow_run h⟩

end CbmcHarness
