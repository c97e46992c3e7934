/-
# Real runs among the bounded ones

The stubs of the harness leave no run of `aead.cpp` out: with the answers of C1 to the frames of a
message and of the MAC, the code that is checked returns what the library returns.
-/
import RotSymEnc.CbmcChecks

open StatefulRuns

namespace CbmcHarness

/-! ## Inputs -/

/-- An array that begins with these bytes, and their number. -/
theorem length_padded {maximum : U64} {bytes : List U8} (h : bytes.length ≤ maximum.toNat) :
    (bytes ++ List.replicate (maximum.toNat - bytes.length) 0).length = maximum.toNat := by
  rw [List.length_append, List.length_replicate]
  omega

theorem size_le_of_length {maximum : U64} {bytes : List U8} (h : bytes.length ≤ maximum.toNat) :
    size bytes ≤ maximum := by
  have hlt := maximum.isLt
  rw [BitVec.le_def, toNat_size (by omega)]
  exact h

/-- The array that shows these bytes. -/
def SizedArray.holding {maximum : U64} (bytes : List U8) (h : bytes.length ≤ maximum.toNat) :
    SizedArray maximum where
  data := bytes ++ List.replicate (maximum.toNat - bytes.length) 0
  size := BitVec.ofNat 64 bytes.length
  length_eq := length_padded h
  size_le := size_le_of_length h

theorem SizedArray.shown_holding {maximum : U64} {bytes : List U8}
    (h : bytes.length ≤ maximum.toNat) : (SizedArray.holding bytes h).span.shown = bytes := by
  have hlt := maximum.isLt
  have hsize : (BitVec.ofNat 64 bytes.length).toNat = bytes.length := toNat_size (by omega)
  show (bytes ++ List.replicate (maximum.toNat - bytes.length) 0).take
    (BitVec.ofNat 64 bytes.length).toNat = bytes
  rw [hsize, List.take_left]

theorem exists_nondetTagSize {tagSize : TagSize} (h : tagSize.Supported) :
    ∃ selector : Selector, nondetTagSize selector.value = tagSize := by
  rcases h with rfl | rfl | rfl
  · exact ⟨⟨0, by decide⟩, rfl⟩
  · exact ⟨⟨1, by decide⟩, rfl⟩
  · exact ⟨⟨2, by decide⟩, rfl⟩

theorem map_getD_range (bytes : List U8) :
    (List.range bytes.length).map (fun i => bytes.getD i 0) = bytes := by
  refine List.ext_getElem (by simp) fun i hi hi' => ?_
  simp [hi']

/-- The answers of C1 to the frames of a message, and of the MAC. -/
def answers (key : ResearchKey256) (nonce : Nonce192) (tagSize : TagSize) (tag : List U8)
    (verdict : Bool) : Choices where
  outputs counter := c1Output key (PrfInput.stream nonce counter tagSize).bytes
  memory _ := 0
  tagMemory i := tag.getD i 0
  verdict := verdict

theorem maskedBy_answers (key : ResearchKey256) (nonce : Nonce192) (tagSize : TagSize)
    (tag : List U8) (verdict : Bool) (input : List U8) :
    maskedBy (answers key nonce tagSize tag verdict).outputs input
      = PvcAead0.keystreamMasked key nonce tagSize input := by
  unfold maskedBy answers PvcAead0.keystreamMasked masked maskByte
  rfl

/-- The array of a tag. -/
def shownTag (tag : List U8) : Vector U8 32 :=
  Vector.ofFn fun i => ((tag ++ List.replicate 32 0).take 32).getD i.val 0

theorem take_shownTag (tag : List U8) :
    (shownTag tag).toList.take tag.length = tag.take 32 := by
  refine List.ext_getElem? fun i => ?_
  by_cases hi : i < tag.length ∧ i < 32
  · obtain ⟨htag, h32⟩ := hi
    have hlength : i < (shownTag tag).toList.length := by
      rw [Vector.length_toList]
      exact h32
    have hpadded : i < (tag ++ List.replicate 32 0).length := by
      rw [List.length_append]
      omega
    rw [List.getElem?_take_of_lt htag, List.getElem?_take_of_lt h32,
      List.getElem?_eq_getElem hlength, Vector.getElem_toList, List.getElem?_eq_getElem htag]
    unfold shownTag
    rw [Vector.getElem_ofFn, List.getD_eq_getElem?_getD, List.getElem?_take_of_lt h32,
      List.getElem?_eq_getElem hpadded, List.getElem_append_left htag]
    rfl
  -- behind the tag, or behind the array, there is nothing on either side
  · have hnone : ∀ l : List U8, l.length = min tag.length 32 → l[i]? = none := by
      intro l hl
      rw [List.getElem?_eq_none]
      omega
    rw [hnone _ (by rw [List.length_take, Vector.length_toList]),
      hnone _ (by rw [List.length_take, min_comm])]

section Covers

variable {bounds : Bounds}

/-- The inputs of `verify_seal_lengths` are those of this call, and the outputs of the PRF are those
of C1 on its frames. -/
structure SealInputs.Call (inputs : SealInputs bounds) (keys : PvcAead0.KeyPair512)
    (nonce : Nonce192) (associatedData plaintext : List U8) (tagSize : TagSize) : Prop where
  keys_eq : inputs.keys = keys
  nonce_eq : inputs.nonce = nonce
  associatedData_shown : inputs.associatedData.span.shown = associatedData
  plaintext_shown : inputs.plaintext.span.shown = plaintext
  tagSize_eq : nondetTagSize inputs.selector.value = tagSize
  outputs_eq : ∀ counter, inputs.choices.outputs counter
    = c1Output keys.encryptionKey (PvcAead0.streamBytes nonce counter tagSize)

/-- The inputs of `verify_open_control_flow` are those of this call, the outputs of the PRF are
those of C1 on its frames, and the verdict is that of the MAC.  The array of the tag holds 32
bytes. -/
structure OpenInputs.Call (inputs : OpenInputs bounds) (keys : PvcAead0.KeyPair512)
    (nonce : Nonce192) (associatedData ciphertext tag : List U8) : Prop where
  keys_eq : inputs.keys = keys
  nonce_eq : inputs.nonce = nonce
  associatedData_shown : inputs.associatedData.span.shown = associatedData
  ciphertext_shown : inputs.ciphertext.span.shown = ciphertext
  tagSize_eq : inputs.tagSize = size tag
  tag_shown : inputs.tag.toList.take tag.length = tag.take 32
  outputs_eq : ∀ counter, inputs.choices.outputs counter = c1Output keys.encryptionKey
    (PvcAead0.streamBytes nonce counter (tagSizeOfLength tag.length))
  verdict_eq : (PvcMac0.verifyTag keys.authenticationKey
    (PvcAead0.contextBytes nonce associatedData (tagSizeOfLength tag.length)) ciphertext
    tag).returned = .ok inputs.choices.verdict

/-- The `seal` of the harness. -/
def SealInputs.run (inputs : SealInputs bounds) :
    EStateM.Result Failure Globals (SealedVectors bounds.limit) :=
  (sealMessage inputs.choices inputs.keys inputs.nonce inputs.associatedData.span
    inputs.plaintext.span (nondetTagSize inputs.selector.value)).run (resetStubs false)

/-- The `open` of the harness. -/
def OpenInputs.run (inputs : OpenInputs bounds) :
    EStateM.Result Failure Globals (Option (BoundedVector U8 bounds.limit)) :=
  (openMessage inputs.choices inputs.keys inputs.nonce inputs.associatedData.span
    inputs.ciphertext.span ⟨inputs.tag.toList, inputs.tagSize⟩).run (resetStubs true)

/-- A `seal` that returns has framed its ciphertext. -/
theorem lengths_lt_of_sealMessage {keys : PvcAead0.KeyPair512} {nonce : Nonce192}
    {associatedData plaintext : List U8} {tagSize : TagSize} (ht : tagSize.Supported)
    (had : associatedData.length < 2 ^ 64) (hpt : plaintext.length < 2 ^ 64)
    {sealed : SealedMessage}
    (h : (PvcAead0.sealMessage keys nonce associatedData plaintext tagSize).returned
      = .ok sealed) : 79 + associatedData.length + plaintext.length < 2 ^ 64 := by
  by_contra hover
  obtain ⟨what, hrun⟩ :=
    PvcAead0.sealMessage_run_of_overflow ht keys nonce had hpt (not_lt.mp hover)
  rw [PrfRun.returned_of_error (hrun [])] at h
  cases h

/-- An `open` that returns, with a tag of a supported length, has framed its ciphertext. -/
theorem lengths_lt_of_openMessage {keys : PvcAead0.KeyPair512} {nonce : Nonce192}
    {associatedData ciphertext tag : List U8} (ht : TagLength tag.length)
    (had : associatedData.length < 2 ^ 64) (hct : ciphertext.length < 2 ^ 64)
    {opened : Option (List U8)}
    (h : (PvcAead0.openMessage keys nonce associatedData ciphertext tag).returned
      = .ok opened) : 79 + associatedData.length + ciphertext.length < 2 ^ 64 := by
  by_contra hover
  obtain ⟨what, hrun⟩ :=
    PvcAead0.openMessage_run_of_overflow keys nonce ht had hct (not_lt.mp hover) []
  rw [PrfRun.returned_of_error hrun] at h
  cases h

/-- The verdict of the MAC: the tag has a supported length and is the one that `seal` makes. -/
def verdictOf (key : ResearchKey256) (nonce : Nonce192) (associatedData ciphertext tag : List U8) :
    Bool :=
  decide (TagLength tag.length ∧ tag
    = PvcAead0.sealedTag key nonce associatedData ciphertext (tagSizeOfLength tag.length))

theorem verifyTag_returned (key : ResearchKey256) (nonce : Nonce192)
    {associatedData ciphertext tag : List U8} (htag : tag.length < 2 ^ 64)
    (hlen : TagLength tag.length → 79 + associatedData.length + ciphertext.length < 2 ^ 64) :
    (PvcMac0.verifyTag key
      (PvcAead0.contextBytes nonce associatedData (tagSizeOfLength tag.length)) ciphertext
      tag).returned = .ok (verdictOf key nonce associatedData ciphertext tag) := by
  unfold verdictOf
  by_cases ht : TagLength tag.length
  · have hfits := hlen ht
    have hframe := @PvcMac0.frameMessage_eq
      (PvcAead0.contextBytes nonce associatedData (tagSizeOfLength tag.length)) ciphertext _
      ht.supported (by rw [PvcAead0.length_contextBytes]; omega)
    rw [PrfRun.returned_of_ok (PvcMac0.verifyTag_run ht hframe key [])]
    congr 1
    rw [decide_eq_decide]
    exact (and_iff_right ht).symm
  · have hs : ¬ PvcMac0.isSupportedTagSize (size tag) = true :=
      fun h => ht ((supportedBytes_size htag).mp h)
    have hfalse : ¬ (TagLength tag.length ∧ tag = PvcAead0.sealedTag key nonce associatedData
        ciphertext (tagSizeOfLength tag.length)) := fun h => ht h.1
    unfold PvcMac0.verifyTag
    rw [if_pos hs, decide_eq_false hfalse]
    rfl

/-- A `seal` that returns is a run of the harness. -/
theorem exists_sealInputs (hfit : bounds.Fit) (keys : PvcAead0.KeyPair512) (nonce : Nonce192)
    {associatedData plaintext : List U8}
    (had : associatedData.length ≤ bounds.maximumAssociatedData.toNat)
    (hplaintext : plaintext.length ≤ bounds.maximumPayload.toNat) {tagSize : TagSize}
    (ht : tagSize.Supported) {sealed : SealedMessage}
    (hsealed : (PvcAead0.sealMessage keys nonce associatedData plaintext tagSize).returned
      = .ok sealed) :
    ∃ inputs : SealInputs bounds, inputs.Call keys nonce associatedData plaintext tagSize ∧
      ∃ vectors globals, inputs.run = .ok vectors globals ∧
        sealed = ⟨vectors.ciphertext.elements, vectors.tag.elements⟩ := by
  have hadlt := bounds.maximumAssociatedData.isLt
  have hptlt := bounds.maximumPayload.isLt
  have hlen := lengths_lt_of_sealMessage ht (lt_of_le_of_lt had hadlt)
    (lt_of_le_of_lt hplaintext hptlt) hsealed
  rw [PrfRun.returned_of_ok (PvcAead0.sealMessage_run ht keys nonce hlen [])] at hsealed
  obtain rfl := Except.ok.inj hsealed
  obtain ⟨selector, hselector⟩ := exists_nondetTagSize ht
  generalize htag : PvcAead0.sealedTag keys.authenticationKey nonce associatedData
    (PvcAead0.keystreamMasked keys.encryptionKey nonce tagSize plaintext) tagSize = tag
  have hlength : (tagSizeBytes tagSize).toNat = tag.length := by
    rw [← htag]
    unfold PvcAead0.sealedTag
    rw [PvcMac0.length_tagBytes _ _ ht]
    rcases ht with rfl | rfl | rfl <;> rfl
  -- the stubs answer as C1 and the MAC do on these arguments
  let inputs : SealInputs bounds := ⟨keys, nonce, .holding associatedData had,
    .holding plaintext hplaintext, selector, answers keys.encryptionKey nonce tagSize tag true⟩
  have hcall : inputs.Call keys nonce associatedData plaintext tagSize :=
    ⟨rfl, rfl, SizedArray.shown_holding had, SizedArray.shown_holding hplaintext, hselector,
      fun _ => rfl⟩
  refine ⟨inputs, hcall, ?_⟩
  obtain ⟨vectors, hrun, hciphertext, hbytes⟩ := @sealMessage_run bounds.limit inputs.choices
    inputs.keys inputs.nonce _ _ (fits_of_fit hfit inputs.associatedData inputs.plaintext) _
    (supported_nondetTagSize inputs.selector.value)
  refine ⟨vectors, _, hrun, ?_⟩
  rw [hciphertext, hbytes, hcall.plaintext_shown, maskedBy_answers, hcall.tagSize_eq, hlength]
  congr 1
  exact (map_getD_range tag).symm

/-- An `open` that returns is a run of the harness. -/
theorem exists_openInputs (hfit : bounds.Fit) (keys : PvcAead0.KeyPair512) (nonce : Nonce192)
    {associatedData ciphertext tag : List U8}
    (had : associatedData.length ≤ bounds.maximumAssociatedData.toNat)
    (hciphertext : ciphertext.length ≤ bounds.maximumPayload.toNat) (htag : tag.length < 2 ^ 64)
    {opened : Option (List U8)}
    (hopened : (PvcAead0.openMessage keys nonce associatedData ciphertext tag).returned
      = .ok opened) :
    ∃ inputs : OpenInputs bounds, inputs.Call keys nonce associatedData ciphertext tag ∧
      ∃ vectors globals, inputs.run = .ok vectors globals ∧
        opened = vectors.map BoundedVector.elements := by
  have hadlt := bounds.maximumAssociatedData.isLt
  have hctlt := bounds.maximumPayload.isLt
  let tagSize := tagSizeOfLength tag.length
  let verdict := verdictOf keys.authenticationKey nonce associatedData ciphertext tag
  have hlen : TagLength tag.length → 79 + associatedData.length + ciphertext.length < 2 ^ 64 :=
    fun ht => lengths_lt_of_openMessage ht (lt_of_le_of_lt had hadlt)
      (lt_of_le_of_lt hciphertext hctlt) hopened
  let inputs : OpenInputs bounds := ⟨keys, nonce, .holding associatedData had,
    .holding ciphertext hciphertext, shownTag tag, size tag,
    answers keys.encryptionKey nonce tagSize [] verdict⟩
  have hcall : inputs.Call keys nonce associatedData ciphertext tag :=
    ⟨rfl, rfl, SizedArray.shown_holding had, SizedArray.shown_holding hciphertext, rfl,
      take_shownTag tag, fun _ => rfl, verifyTag_returned keys.authenticationKey nonce htag hlen⟩
  refine ⟨inputs, hcall, ?_⟩
  by_cases ht : TagLength tag.length
  · have hrun := PvcAead0.openMessage_run keys nonce ht (hlen ht) []
    have hsize : size tag = tagSizeBytes tagSize := by
      show BitVec.ofNat 64 tag.length = u64 (BitVec.ofNat 8 tag.length)
      rcases ht with h | h | h <;> rw [h] <;> rfl
    rcases @openMessage_run bounds.limit inputs.choices inputs.keys inputs.nonce _ _
      (fits_of_fit hfit inputs.associatedData inputs.ciphertext)
      ⟨inputs.tag.toList, inputs.tagSize⟩ tagSize ht.supported hsize with
      ⟨hverdict, hbounded⟩ | ⟨plaintext, hverdict, hbounded, hplaintext⟩
    -- the tag is another one
    · have hne := of_decide_eq_false (show verdict = false from hverdict)
      rw [if_neg fun heq => hne ⟨ht, heq⟩] at hrun
      rw [PrfRun.returned_of_ok hrun] at hopened
      exact ⟨none, _, hbounded, (Except.ok.inj hopened).symm⟩
    -- the tag is the one of the ciphertext, and both decrypt it
    · have heq := (of_decide_eq_true (show verdict = true from hverdict)).2
      rw [if_pos heq] at hrun
      rw [PrfRun.returned_of_ok hrun] at hopened
      refine ⟨some plaintext, _, hbounded, (Except.ok.inj hopened).symm.trans ?_⟩
      rw [Option.map_some, hplaintext, hcall.ciphertext_shown, maskedBy_answers]
  -- both refuse before they ask the MAC
  · have hrun := PvcAead0.openMessage_run_of_length keys nonce associatedData ciphertext htag ht []
    rw [PrfRun.returned_of_ok hrun] at hopened
    have hunsupported : ¬ supportedTagLength (size tag) = true :=
      fun h => ht ((supportedBytes_size htag).mp h)
    exact ⟨none, _, openMessage_run_of_not_supported _ _ _ _ _ hunsupported,
      (Except.ok.inj hopened).symm⟩

end Covers

/-- **The bounded proofs leave no real run out.**  Where the vectors are long enough, every call of
`seal` and of `open` that returns, within the bounds, is the call of some inputs of the harness
where the stubs answer as C1 and the MAC do, and there the code that is checked returns the same
bytes. -/
theorem cbmc_runs_cover {bounds : Bounds} (hfit : bounds.Fit) (keys : PvcAead0.KeyPair512)
    (nonce : Nonce192) {associatedData payload : List U8}
    (had : associatedData.length ≤ bounds.maximumAssociatedData.toNat)
    (hpayload : payload.length ≤ bounds.maximumPayload.toNat) :
    (∀ tagSize sealed, TagSize.Supported tagSize →
      (PvcAead0.sealMessage keys nonce associatedData payload tagSize).returned = .ok sealed →
      ∃ inputs : SealInputs bounds, inputs.Call keys nonce associatedData payload tagSize ∧
        ∃ vectors globals, inputs.run = .ok vectors globals ∧
          sealed = ⟨vectors.ciphertext.elements, vectors.tag.elements⟩) ∧
    ∀ tag opened, tag.length < 2 ^ 64 →
      (PvcAead0.openMessage keys nonce associatedData payload tag).returned = .ok opened →
      ∃ inputs : OpenInputs bounds, inputs.Call keys nonce associatedData payload tag ∧
        ∃ vectors globals, inputs.run = .ok vectors globals ∧
          opened = vectors.map BoundedVector.elements := by
  constructor
  · intro tagSize sealed ht hsealed
    exact exists_sealInputs hfit keys nonce had hpayload ht hsealed
  · intro tag opened htag hopened
    exact exists_openInputs hfit keys nonce had hpayload htag hopened

/-- A message of one byte is sealed and opened by runs of the harness with its own constants. -/
theorem cbmc_runs_cover_sealed : ∃ sealed : SealedMessage,
    (∃ inputs : SealInputs kBounds,
      inputs.Call ⟨Vector.replicate 32 0, Vector.replicate 32 1⟩ (Vector.replicate 24 0) [0x61]
        [0x62] .bits192 ∧
      ∃ vectors globals, inputs.run = .ok vectors globals ∧
        sealed = ⟨vectors.ciphertext.elements, vectors.tag.elements⟩) ∧
    ∃ inputs : OpenInputs kBounds,
      inputs.Call ⟨Vector.replicate 32 0, Vector.replicate 32 1⟩ (Vector.replicate 24 0) [0x61]
        sealed.ciphertext sealed.tag ∧
      ∃ vector globals, inputs.run = .ok (some vector) globals ∧ vector.elements = [0x62] := by
  let keys : PvcAead0.KeyPair512 := ⟨Vector.replicate 32 0, Vector.replicate 32 1⟩
  let nonce : Nonce192 := Vector.replicate 24 0
  have ht : TagSize.Supported .bits192 := .inr (.inl rfl)
  have had : [(0x61 : U8)].length ≤ kBounds.maximumAssociatedData.toNat := by decide
  have hfits : 79 + [(0x61 : U8)].length + [(0x62 : U8)].length < 2 ^ 64 := by decide
  let ciphertext := PvcAead0.keystreamMasked keys.encryptionKey nonce .bits192 [0x62]
  let tag := PvcAead0.sealedTag keys.authenticationKey nonce [0x61] ciphertext .bits192
  have hsealed : (PvcAead0.sealMessage keys nonce [0x61] [0x62] .bits192).returned
      = .ok ⟨ciphertext, tag⟩ :=
    PrfRun.returned_of_ok (PvcAead0.sealMessage_run ht keys nonce hfits [])
  obtain ⟨calls, hrun⟩ := PvcAead0.openMessage_run_sealed ht keys nonce hfits []
  have hlength : ciphertext.length ≤ kBounds.maximumPayload.toNat := by
    rw [PvcAead0.length_keystreamMasked]
    decide
  have htag : tag.length = 24 := PvcMac0.length_tagBytes _ _ ht
  obtain ⟨inputs, hcall, vectors, globals, hopen, hbytes⟩ :=
    (cbmc_runs_cover kBounds_fit keys nonce had hlength).2 tag (some [0x62]) (by omega)
      (PrfRun.returned_of_ok hrun)
  cases vectors with
  | none => cases hbytes
  | some vector =>
    refine ⟨⟨ciphertext, tag⟩, ?_, inputs, hcall, vector, globals, hopen, ?_⟩
    · exact (cbmc_runs_cover kBounds_fit keys nonce had (by decide)).1 .bits192 _ ht hsealed
    · exact (Option.some.inj hbytes).symm

end CbmcHarness
