/-
# The conformance transcript

`cross_platform_conformance.cpp` seals and opens a fixed sequence of cases and writes
inputs and results to one stream, which the platforms compare by a fingerprint.  The
stream has no separators: fields of fixed width follow fields behind their length.  It is
read back in one way only, so that equal streams are equal cases, field by field.
-/
import RotSymEnc.AeadCorrectness
import RotSymEnc.CommandLine
import RotSymEnc.PrefixCodes

open StatefulRuns PrefixCodes PvcRotSymEnc1

namespace Conformance

/-! ## The writers -/

/-- `kSeed` of the campaign. -/
def kSeed : U64 := 0x43524F5353504C31

/-- `kMagic` of the transcript. -/
def kMagic : Text := text "PVC-RotSymEnc-1 cross-platform transcript v1\n"

/-- `write_bytes`: the output is what has been written so far, and a write that is
accepted succeeds. -/
def writeBytes (output bytes : List U8) : Except Fault (List U8) := do
  if bytes.length > 2 ^ 63 - 1 then
    throw (.thrown .lengthError "transcript field exceeds streamsize")
  if bytes.isEmpty then return output
  return output ++ bytes

/-- `write_text`. -/
def writeText (output : List U8) (text : Text) : Except Fault (List U8) := writeBytes output text

/-- `write_u64_be`. -/
def writeU64Be (output : List U8) (value : U64) : Except Fault (List U8) := do
  let encoded ← storeU64Be (List.replicate 8 0) 0 value
  writeBytes output encoded

/-- `write_field`. -/
def writeField (output bytes : List U8) : Except Fault (List U8) := do
  let output ← writeU64Be output (size bytes)
  writeBytes output bytes

/-- The inputs of a case. -/
structure CaseInputs : Type where
  caseIndex : ℕ
  keys : KeyPair512
  nonce : Nonce192
  associatedData : List U8
  plaintext : List U8
  tagSize : TagSize

/-- A case as it is written: its inputs, and what sealing and opening returned. -/
structure CaseRecord : Type where
  caseIndex : U64
  tagSize : TagSize
  encryptionKey : ResearchKey256
  authenticationKey : ResearchKey256
  nonce : Nonce192
  associatedData : List U8
  plaintext : List U8
  ciphertext : List U8
  tag : List U8
  opened : List U8
  deriving DecidableEq

/-- The case of inputs and results. -/
def recordOf (inputs : CaseInputs) (sealed : SealedMessage) (opened : List U8) : CaseRecord where
  caseIndex := BitVec.ofNat 64 inputs.caseIndex
  tagSize := inputs.tagSize
  encryptionKey := inputs.keys.encryptionKey
  authenticationKey := inputs.keys.authenticationKey
  nonce := inputs.nonce
  associatedData := inputs.associatedData
  plaintext := inputs.plaintext
  ciphertext := sealed.ciphertext
  tag := sealed.tag
  opened := opened

/-- The writes of `write_case`. -/
def writeRecord (output : List U8) (record : CaseRecord) : Except Fault (List U8) := do
  let output ← writeText output (text "CASE")
  let output ← writeU64Be output record.caseIndex
  let output ← writeU64Be output (tagSizeBytes record.tagSize)
  let output ← writeBytes output record.encryptionKey.toList
  let output ← writeBytes output record.authenticationKey.toList
  let output ← writeBytes output record.nonce.toList
  let output ← writeField output record.associatedData
  let output ← writeField output record.plaintext
  let output ← writeField output record.ciphertext
  let output ← writeField output record.tag
  let output ← writeField output record.opened
  writeBytes output [0]

/-! ## The campaign -/

/-- What the campaign links with: a `seal` and an `open`. -/
structure Implementation : Type where
  sealCase : KeyPair512 → Nonce192 → List U8 → List U8 → TagSize → Except Fault SealedMessage
  openCase : KeyPair512 → Nonce192 → List U8 → List U8 → List U8 →
    Except Fault (Option (List U8))

/-- The profile of this repository. -/
def library : Implementation where
  sealCase keys nonce associatedData plaintext tagSize :=
    (sealMessage keys nonce associatedData plaintext tagSize).returned
  openCase keys nonce associatedData ciphertext tag :=
    (openMessage keys nonce associatedData ciphertext tag).returned

/-- `write_case`. -/
def writeCase (implementation : Implementation) (output : List U8) (inputs : CaseInputs) :
    Except Fault (List U8) := do
  let sealed ← implementation.sealCase inputs.keys inputs.nonce inputs.associatedData
    inputs.plaintext inputs.tagSize
  let opened ← implementation.openCase inputs.keys inputs.nonce inputs.associatedData
    sealed.ciphertext sealed.tag
  match opened with
  | none =>
    throw (.thrown .runtimeError ("valid open failed at case " ++ toString inputs.caseIndex))
  | some opened =>
    if opened ≠ inputs.plaintext then
      throw (.thrown .runtimeError ("valid open failed at case " ++ toString inputs.caseIndex))
    else if sealed.tag = [] then throw .badAccess
    else
      let position := inputs.caseIndex % sealed.tag.length
      let byte ← readAt sealed.tag position
      let invalidTag ← storeAt sealed.tag position (byte ^^^ 1)
      let accepted ← implementation.openCase inputs.keys inputs.nonce inputs.associatedData
        sealed.ciphertext invalidTag
      if accepted.isSome then
        throw (.thrown .runtimeError ("invalid tag accepted at case " ++ toString inputs.caseIndex))
      else writeRecord output (recordOf inputs sealed opened)

/-- `next_random`, the new state and its value in one. -/
def nextRandom (state : U64) : U64 :=
  let state := state ^^^ (state <<< 13)
  let state := state ^^^ (state >>> 7)
  state ^^^ (state <<< 17)

/-- `fill_random`, over a container of a given size. -/
def fillRandom : ℕ → U64 → List U8 × U64
  | 0, state => ([], state)
  | n + 1, state =>
    let state := nextRandom state
    let rest := fillRandom n state
    (u8 (state &&& 0xFF) :: rest.1, rest.2)

@[simp] theorem length_fillRandom (n : ℕ) (state : U64) : (fillRandom n state).1.length = n := by
  induction n generalizing state with
  | zero => rfl
  | succ n ih => rw [fillRandom, List.length_cons, ih]

/-- `fill_random`, over an array. -/
def fillRandomArray (n : ℕ) (state : U64) : Vector U8 n × U64 :=
  (⟨(fillRandom n state).1.toArray, by simp⟩, (fillRandom n state).2)

/-- `associated_data_length`. -/
def associatedDataLength (caseIndex : ℕ) (state : U64) : ℕ × U64 :=
  let boundaries : Vector ℕ 15 := #v[0, 1, 2, 7, 8, 15, 16, 17, 31, 32, 33, 63, 64, 65, 128]
  if caseIndex % 8 = 0 then (boundaries.get (Fin.ofNat 15 (caseIndex / 8)), state)
  else ((nextRandom state).toNat % 129, nextRandom state)

/-- `plaintext_length`. -/
def plaintextLength (caseIndex : ℕ) (state : U64) : ℕ × U64 :=
  let boundaries : Vector ℕ 23 := #v[0, 1, 2, 7, 8, 15, 16, 17, 31, 32, 33, 47, 48, 63, 64, 65,
    95, 96, 97, 127, 128, 255, 256]
  if caseIndex % 1024 = 1023 then (4096, state)
  else if caseIndex % 257 = 256 then (1024, state)
  else if caseIndex % 8 = 0 then (boundaries.get (Fin.ofNat 23 (caseIndex / 8)), state)
  else ((nextRandom state).toNat % 257, nextRandom state)

/-- `apply_structure`. -/
def applyStructure (bytes : List U8) (caseIndex : ℕ) : List U8 :=
  match caseIndex % 64 with
  | 0 => bytes.map fun _ => 0
  | 1 => bytes.map fun _ => 0xFF
  | 2 => bytes.mapIdx fun index _ => BitVec.ofNat 8 (index % 256)
  | 3 => bytes.mapIdx fun index _ => if index % 2 = 0 then 0x55 else 0xAA
  | _ => bytes

/-- `tag_size` of a case. -/
def caseTagSize (caseIndex : ℕ) : TagSize :=
  match caseIndex % 3 with
  | 0 => .bits128
  | 1 => .bits192
  | _ => .bits256

/-- A pass of the loop in `generate`, up to `write_case`. -/
def caseInputs (caseIndex : ℕ) (state : U64) : CaseInputs × U64 :=
  let (encryptionKey, state) := fillRandomArray 32 state
  let (authenticationKey, state) := fillRandomArray 32 state
  let (nonce, state) := fillRandomArray 24 state
  let (associatedDataSize, state) := associatedDataLength caseIndex state
  let (plaintextSize, state) := plaintextLength caseIndex state
  let (associatedData, state) := fillRandom associatedDataSize state
  let (plaintext, state) := fillRandom plaintextSize state
  ({ caseIndex
     keys := ⟨encryptionKey, authenticationKey⟩
     nonce
     associatedData := applyStructure associatedData caseIndex
     plaintext := applyStructure plaintext (caseIndex + 17)
     tagSize := caseTagSize caseIndex }, state)

/-- A pass of the loop in `generate`. -/
def generateStep (implementation : Implementation) (progress : List U8 × U64) (caseIndex : ℕ) :
    Except Fault (List U8 × U64) := do
  let (inputs, state) := caseInputs caseIndex progress.2
  return (← writeCase implementation progress.1 inputs, state)

/-- `generate`, from an opened stream on. -/
def generate (implementation : Implementation) (cases : ℕ) : Except Fault (List U8) := do
  let output ← writeText [] kMagic
  let output ← writeU64Be output kSeed
  let output ← writeU64Be output (BitVec.ofNat 64 cases)
  let progress ← (List.range cases).foldlM (generateStep implementation) (output, kSeed)
  return progress.1

/-! ## The format -/

/-- A field behind its length. -/
def fieldBytes (bytes : List U8) : List U8 := u64be (size bytes) ++ bytes

/-- The bytes of a case. -/
def recordBytes (record : CaseRecord) : List U8 :=
  text "CASE" ++ (u64be record.caseIndex ++ (u64be (tagSizeBytes record.tagSize)
    ++ (record.encryptionKey.toList ++ (record.authenticationKey.toList ++ (record.nonce.toList
    ++ (fieldBytes record.associatedData ++ (fieldBytes record.plaintext
    ++ (fieldBytes record.ciphertext ++ (fieldBytes record.tag ++ (fieldBytes record.opened
    ++ [0]))))))))))

/-- The bytes of a transcript. -/
def transcriptBytes (records : List CaseRecord) : List U8 :=
  kMagic ++ u64be kSeed ++ u64be (BitVec.ofNat 64 records.length) ++ records.flatMap recordBytes

/-- The sizes of the fields fit their length fields. -/
structure CaseRecord.Fits (record : CaseRecord) : Prop where
  associatedData : record.associatedData.length < 2 ^ 64
  plaintext : record.plaintext.length < 2 ^ 64
  ciphertext : record.ciphertext.length < 2 ^ 64
  tag : record.tag.length < 2 ^ 64
  opened : record.opened.length < 2 ^ 64

/-- A field can be told from what follows. -/
theorem fieldBytes_prefixFree :
    PrefixFreeOn {bytes : List U8 | bytes.length < 2 ^ 64} fieldBytes := by
  have hhead : PrefixFreeOn (Set.univ : Set U64) u64be :=
    prefixFreeOn_of_length 8 (fun _ _ => rfl) u64be_injective.injOn
  refine prefixFreeOn_header_append size
    (fun a _ b _ u v h => hhead a trivial b trivial u v h) fun c => ?_
  rintro a ⟨ha, rfl⟩ b ⟨hb, hsize⟩ u v h
  have hlength : a.length = b.length := by
    rw [← toNat_size ha, ← toNat_size hb, hsize]
  exact (List.append_inj h hlength).1

/-- The fields of a case, side by side. -/
def CaseRecord.fields (record : CaseRecord) :=
  (record.caseIndex, record.tagSize, record.encryptionKey, record.authenticationKey, record.nonce,
    record.associatedData, record.plaintext, record.ciphertext, record.tag, record.opened)

/-- An array can be told from what follows. -/
theorem toList_prefixFree (n : ℕ) :
    PrefixFreeOn (Set.univ : Set (Vector U8 n)) Vector.toList :=
  prefixFreeOn_of_length n (fun _ _ => Vector.length_toList)
    fun _ _ _ _ h => Vector.toList_inj.1 h

/-- **A case can be told from what follows.** -/
theorem recordBytes_prefixFree : PrefixFreeOn {record | record.Fits} recordBytes := by
  have hword : PrefixFreeOn (Set.univ : Set U64) u64be :=
    prefixFreeOn_of_length 8 (fun _ _ => rfl) u64be_injective.injOn
  have htag :
      PrefixFreeOn (Set.univ : Set TagSize) fun tagSize => u64be (tagSizeBytes tagSize) := by
    refine prefixFreeOn_of_length 8 (fun _ _ => rfl) ?_
    rintro ⟨value⟩ - ⟨value'⟩ - h
    have hvalue : u64 value = u64 value' := u64be_injective h
    have := congrArg (fun word => u8 word) hvalue
    simpa using this
  have hfield := fieldBytes_prefixFree
  have hfields := (hword.append (htag.append ((toList_prefixFree 32).append
    ((toList_prefixFree 32).append ((toList_prefixFree 24).append (hfield.append (hfield.append
      (hfield.append (hfield.append (hfield.append_const [0])))))))))).const_append (text "CASE")
  refine @PrefixFreeOn.comp _ _ _ _ _ hfields _ CaseRecord.fields ?_ ?_
  · intro record h
    exact ⟨trivial, trivial, trivial, trivial, trivial, h.associatedData, h.plaintext,
      h.ciphertext, h.tag, h.opened⟩
  · rintro ⟨⟩ - ⟨⟩ - h
    simp only [CaseRecord.fields, Prod.mk.injEq] at h
    simp only [CaseRecord.mk.injEq]
    exact h

/-- **Equal transcripts are equal cases.** -/
theorem transcriptBytes_eq_iff {records records' : List CaseRecord}
    (h : ∀ record ∈ records, record.Fits) (h' : ∀ record ∈ records', record.Fits) :
    transcriptBytes records = transcriptBytes records' ↔ records = records' := by
  constructor
  · intro heq
    unfold transcriptBytes at heq
    simp only [List.append_assoc] at heq
    have hbody := List.append_cancel_left (List.append_cancel_left heq)
    have hcases := (List.append_inj hbody rfl).2
    refine recordBytes_prefixFree.flatMap_injective ?_ h h' hcases
    intro record _ hnil
    have hlength := congrArg List.length hnil
    unfold recordBytes at hlength
    simp [text] at hlength
  · rintro rfl
    rfl

/-! ## What the writers write -/

/-- The fields of a case are short enough to be written. -/
structure CaseRecord.Writable (record : CaseRecord) : Prop where
  associatedData : record.associatedData.length < 2 ^ 63
  plaintext : record.plaintext.length < 2 ^ 63
  ciphertext : record.ciphertext.length < 2 ^ 63
  tag : record.tag.length < 2 ^ 63
  opened : record.opened.length < 2 ^ 63

theorem CaseRecord.Writable.fits {record : CaseRecord} (h : record.Writable) : record.Fits where
  associatedData := h.associatedData.trans (by norm_num)
  plaintext := h.plaintext.trans (by norm_num)
  ciphertext := h.ciphertext.trans (by norm_num)
  tag := h.tag.trans (by norm_num)
  opened := h.opened.trans (by norm_num)

/-- The exception of `write_bytes`. -/
def exceedsStreamsize : Fault := .thrown .lengthError "transcript field exceeds streamsize"

section Writers

variable (output : List U8)

theorem writeBytes_of_lt {bytes : List U8} (h : bytes.length < 2 ^ 63) :
    writeBytes output bytes = .ok (output ++ bytes) := by
  unfold writeBytes
  rw [if_neg (by omega)]
  cases bytes with
  | nil =>
    rw [List.append_nil]
    rfl
  | cons byte rest => rfl

theorem writeBytes_of_ge {bytes : List U8} (h : 2 ^ 63 ≤ bytes.length) :
    writeBytes output bytes = .error exceedsStreamsize := by
  unfold writeBytes
  rw [if_pos (by omega)]
  rfl

theorem writeU64Be_eq (value : U64) : writeU64Be output value = .ok (output ++ u64be value) := by
  have hencoded : storeU64Be (List.replicate 8 0) 0 value = .ok (u64be value) := by
    have := @storeU64Be_zeros [] 0 8 rfl le_rfl value
    simpa using this
  unfold writeU64Be
  rw [hencoded, except_ok_bind, writeBytes_of_lt output (by rw [length_u64be]; norm_num)]

theorem writeField_of_lt {bytes : List U8} (h : bytes.length < 2 ^ 63) :
    writeField output bytes = .ok (output ++ fieldBytes bytes) := by
  unfold writeField fieldBytes
  rw [writeU64Be_eq, except_ok_bind, writeBytes_of_lt _ h, List.append_assoc]

theorem writeField_of_ge {bytes : List U8} (h : 2 ^ 63 ≤ bytes.length) :
    writeField output bytes = .error exceedsStreamsize := by
  unfold writeField
  rw [writeU64Be_eq, except_ok_bind, writeBytes_of_ge _ h]

/-- The writes of a case, up to its first field. -/
theorem writeRecord_eq_fields (record : CaseRecord) :
    ∃ output', output' = output ++ (text "CASE" ++ (u64be record.caseIndex
        ++ (u64be (tagSizeBytes record.tagSize) ++ (record.encryptionKey.toList
        ++ (record.authenticationKey.toList ++ record.nonce.toList))))) ∧
      writeRecord output record = (do
        let output ← writeField output' record.associatedData
        let output ← writeField output record.plaintext
        let output ← writeField output record.ciphertext
        let output ← writeField output record.tag
        let output ← writeField output record.opened
        writeBytes output [0]) := by
  refine ⟨_, rfl, ?_⟩
  have harray : ∀ {n : ℕ} (array : Vector U8 n), n < 2 ^ 63 → array.toList.length < 2 ^ 63 := by
    intro n array hn
    rwa [Vector.length_toList]
  have hcase : (text "CASE").length < 2 ^ 63 := by decide
  unfold writeRecord writeText
  rw [writeBytes_of_lt _ hcase, except_ok_bind, writeU64Be_eq, except_ok_bind, writeU64Be_eq,
    except_ok_bind, writeBytes_of_lt _ (harray _ (by norm_num)), except_ok_bind,
    writeBytes_of_lt _ (harray _ (by norm_num)), except_ok_bind,
    writeBytes_of_lt _ (harray _ (by norm_num)), except_ok_bind]
  simp only [List.append_assoc]

/-- **A case is written as its bytes.** -/
theorem writeRecord_of_writable {record : CaseRecord} (h : record.Writable) :
    writeRecord output record = .ok (output ++ recordBytes record) := by
  obtain ⟨output', houtput', hrecord⟩ := writeRecord_eq_fields output record
  rw [hrecord, writeField_of_lt _ h.associatedData, except_ok_bind,
    writeField_of_lt _ h.plaintext, except_ok_bind, writeField_of_lt _ h.ciphertext,
    except_ok_bind, writeField_of_lt _ h.tag, except_ok_bind, writeField_of_lt _ h.opened,
    except_ok_bind, writeBytes_of_lt _ (by decide), houtput']
  unfold recordBytes
  simp only [List.append_assoc]

/-- A case with a longer field is not written. -/
theorem writeRecord_of_not_writable {record : CaseRecord} (h : ¬ record.Writable) :
    writeRecord output record = .error exceedsStreamsize := by
  obtain ⟨output', -, hrecord⟩ := writeRecord_eq_fields output record
  rw [hrecord]
  rcases Nat.lt_or_ge record.associatedData.length (2 ^ 63) with had | had
  · rw [writeField_of_lt _ had, except_ok_bind]
    rcases Nat.lt_or_ge record.plaintext.length (2 ^ 63) with hpt | hpt
    · rw [writeField_of_lt _ hpt, except_ok_bind]
      rcases Nat.lt_or_ge record.ciphertext.length (2 ^ 63) with hct | hct
      · rw [writeField_of_lt _ hct, except_ok_bind]
        rcases Nat.lt_or_ge record.tag.length (2 ^ 63) with htag | htag
        · rw [writeField_of_lt _ htag, except_ok_bind]
          rcases Nat.lt_or_ge record.opened.length (2 ^ 63) with hopened | hopened
          · exact absurd ⟨had, hpt, hct, htag, hopened⟩ h
          · rw [writeField_of_ge _ hopened]
            rfl
        · rw [writeField_of_ge _ htag]
          rfl
      · rw [writeField_of_ge _ hct]
        rfl
    · rw [writeField_of_ge _ hpt]
      rfl
  · rw [writeField_of_ge _ had]
    rfl

end Writers

/-- The writes of `generate` for given cases. -/
def writeTranscript (records : List CaseRecord) : Except Fault (List U8) := do
  let output ← writeText [] kMagic
  let output ← writeU64Be output kSeed
  let output ← writeU64Be output (BitVec.ofNat 64 records.length)
  records.foldlM writeRecord output

/-- The head of a transcript. -/
theorem writeHead_eq (cases : ℕ) {α : Type} (rest : List U8 → Except Fault α) :
    (do
      let output ← writeText [] kMagic
      let output ← writeU64Be output kSeed
      let output ← writeU64Be output (BitVec.ofNat 64 cases)
      rest output)
    = rest (kMagic ++ u64be kSeed ++ u64be (BitVec.ofNat 64 cases)) := by
  unfold writeText
  rw [writeBytes_of_lt [] (by decide : kMagic.length < 2 ^ 63), except_ok_bind, writeU64Be_eq,
    except_ok_bind, writeU64Be_eq, except_ok_bind]
  rfl

theorem foldlM_writeRecord (records : List CaseRecord) (output : List U8)
    (h : ∀ record ∈ records, record.Writable) :
    records.foldlM writeRecord output = .ok (output ++ records.flatMap recordBytes) := by
  induction records generalizing output with
  | nil =>
    rw [List.flatMap_nil, List.append_nil]
    rfl
  | cons record rest ih =>
    rw [List.foldlM_cons, writeRecord_of_writable _ (h record List.mem_cons_self), except_ok_bind,
      ih _ fun record' hmem => h record' (List.mem_cons_of_mem _ hmem), List.flatMap_cons,
      List.append_assoc]

theorem foldlM_writeRecord_error (records : List CaseRecord) (output : List U8)
    (h : ∃ record ∈ records, ¬ record.Writable) :
    records.foldlM writeRecord output = .error exceedsStreamsize := by
  induction records generalizing output with
  | nil =>
    obtain ⟨record, hmem, -⟩ := h
    cases hmem
  | cons record rest ih =>
    rw [List.foldlM_cons]
    by_cases hfirst : record.Writable
    · rw [writeRecord_of_writable _ hfirst, except_ok_bind]
      apply ih
      obtain ⟨record', hmem, hnot⟩ := h
      rcases List.mem_cons.1 hmem with rfl | hmem
      · exact absurd hfirst hnot
      · exact ⟨record', hmem, hnot⟩
    · rw [writeRecord_of_not_writable _ hfirst]
      rfl

/-- **Given cases are written as a transcript**, unless a field is too long. -/
theorem writeTranscript_eq (records : List CaseRecord) :
    ((∀ record ∈ records, record.Writable) →
      writeTranscript records = .ok (transcriptBytes records)) ∧
    ((∃ record ∈ records, ¬ record.Writable) →
      writeTranscript records = .error exceedsStreamsize) := by
  unfold writeTranscript transcriptBytes
  rw [writeHead_eq]
  exact ⟨foldlM_writeRecord records _, foldlM_writeRecord_error records _⟩

/-! ## Two implementations -/

/-- What an implementation returns for a case: the sealed message, and what opening it
gives. -/
def Implementation.results (implementation : Implementation) (inputs : CaseInputs) :
    Except Fault (SealedMessage × Option (List U8)) := do
  let sealed ← implementation.sealCase inputs.keys inputs.nonce inputs.associatedData
    inputs.plaintext inputs.tagSize
  let opened ← implementation.openCase inputs.keys inputs.nonce inputs.associatedData
    sealed.ciphertext sealed.tag
  return (sealed, opened)

/-- The inputs of the cases of a list of indices, from a state of the generator. -/
def inputsOf : List ℕ → U64 → List CaseInputs
  | [], _ => []
  | caseIndex :: rest, state =>
    (caseInputs caseIndex state).1 :: inputsOf rest (caseInputs caseIndex state).2

/-- The inputs of the campaign. -/
def campaign (cases : ℕ) : List CaseInputs := inputsOf (List.range cases) kSeed

theorem length_inputsOf (indices : List ℕ) (state : U64) :
    (inputsOf indices state).length = indices.length := by
  induction indices generalizing state with
  | nil => rfl
  | cons caseIndex rest ih => rw [inputsOf, List.length_cons, List.length_cons, ih]

theorem length_campaign (cases : ℕ) : (campaign cases).length = cases := by
  unfold campaign
  rw [length_inputsOf, List.length_range]

/-- The case an implementation writes for its inputs. -/
structure Implementation.Yields (implementation : Implementation) (inputs : CaseInputs)
    (record : CaseRecord) : Prop where
  results_eq : implementation.results inputs
    = .ok (⟨record.ciphertext, record.tag⟩, some record.opened)
  record_eq : record = recordOf inputs ⟨record.ciphertext, record.tag⟩ record.opened
  writable : record.Writable

section Runs

variable {implementation : Implementation}

/-- A case that is written is the one its results give. -/
theorem exists_yields_of_writeCase {output output' : List U8} {inputs : CaseInputs}
    (h : writeCase implementation output inputs = .ok output') :
    ∃ record, implementation.Yields inputs record ∧ output' = output ++ recordBytes record := by
  unfold writeCase at h
  obtain ⟨sealed, hsealed, h⟩ := exists_of_except_bind h
  obtain ⟨opened, hopened, h⟩ := exists_of_except_bind h
  cases opened with
  | none => cases h
  | some opened =>
    have hresults : implementation.results inputs = .ok (sealed, some opened) := by
      unfold Implementation.results
      rw [hsealed, except_ok_bind, hopened, except_ok_bind]
      rfl
    dsimp only at h
    by_cases hplain : opened ≠ inputs.plaintext
    · rw [if_pos hplain] at h
      cases h
    by_cases htag : sealed.tag = []
    · rw [if_neg hplain, if_pos htag] at h
      cases h
    rw [if_neg hplain, if_neg htag] at h
    obtain ⟨byte, -, h⟩ := exists_of_except_bind h
    obtain ⟨invalidTag, -, h⟩ := exists_of_except_bind h
    obtain ⟨accepted, -, h⟩ := exists_of_except_bind h
    by_cases haccepted : accepted.isSome = true
    · rw [if_pos haccepted] at h
      cases h
    rw [if_neg haccepted] at h
    by_cases hwritable : (recordOf inputs sealed opened).Writable
    · rw [writeRecord_of_writable _ hwritable] at h
      exact ⟨recordOf inputs sealed opened, ⟨hresults, rfl, hwritable⟩, (Except.ok.inj h).symm⟩
    · rw [writeRecord_of_not_writable _ hwritable] at h
      cases h

/-- The loop of `generate` writes the cases of its results, in order. -/
theorem exists_yields_of_foldlM {indices : List ℕ} {output : List U8} {state : U64}
    {progress : List U8 × U64}
    (h : indices.foldlM (generateStep implementation) (output, state) = .ok progress) :
    ∃ records, List.Forall₂ implementation.Yields (inputsOf indices state) records ∧
      progress.1 = output ++ records.flatMap recordBytes := by
  induction indices generalizing output state with
  | nil =>
    obtain rfl := Except.ok.inj h
    exact ⟨[], List.Forall₂.nil, (List.append_nil output).symm⟩
  | cons caseIndex rest ih =>
    rw [List.foldlM_cons] at h
    obtain ⟨next, hstep, h⟩ := exists_of_except_bind h
    unfold generateStep at hstep
    obtain ⟨output', hcase, hnext⟩ := exists_of_except_bind hstep
    obtain rfl := Except.ok.inj hnext
    obtain ⟨record, hyields, rfl⟩ := exists_yields_of_writeCase hcase
    obtain ⟨records, hrest, hprogress⟩ := ih h
    refine ⟨record :: records, List.Forall₂.cons hyields hrest, ?_⟩
    rw [hprogress, List.flatMap_cons, List.append_assoc]

/-- **The stream of a campaign is the transcript of its results.** -/
theorem exists_yields_of_generate {cases : ℕ} {stream : List U8}
    (h : generate implementation cases = .ok stream) :
    ∃ records, List.Forall₂ implementation.Yields (campaign cases) records ∧
      stream = transcriptBytes records := by
  unfold generate at h
  rw [writeHead_eq] at h
  obtain ⟨progress, hloop, h⟩ := exists_of_except_bind h
  obtain rfl := Except.ok.inj h
  obtain ⟨records, hyields, hprogress⟩ := exists_yields_of_foldlM hloop
  have hlength : records.length = cases := by
    rw [← hyields.length_eq]
    exact length_campaign cases
  refine ⟨records, hyields, ?_⟩
  rw [hprogress, transcriptBytes, hlength]

end Runs

/-- Two lists of related values are equal exactly when their sources agree. -/
theorem forall₂_eq_iff {α β : Type} {R R' : α → β → Prop} {agree : α → Prop}
    (h : ∀ a x y, R a x → R' a y → (x = y ↔ agree a)) {sources : List α} {xs ys : List β}
    (hxs : List.Forall₂ R sources xs) (hys : List.Forall₂ R' sources ys) :
    xs = ys ↔ ∀ a ∈ sources, agree a := by
  induction hxs generalizing ys with
  | nil =>
    cases hys
    simp
  | cons hx _ ih =>
    cases hys with
    | cons hy hys =>
      rw [List.cons.injEq, h _ _ _ hx hy, ih hys, List.forall_mem_cons]

/-- Two implementations write the same case exactly when their results agree. -/
theorem yields_eq_iff {implementation implementation' : Implementation} {inputs : CaseInputs}
    {record record' : CaseRecord} (h : implementation.Yields inputs record)
    (h' : implementation'.Yields inputs record') :
    record = record' ↔ implementation.results inputs = implementation'.results inputs := by
  rw [h.results_eq, h'.results_eq]
  constructor
  · rintro rfl
    rfl
  · intro heq
    have hpair := Prod.mk.inj (Except.ok.inj heq)
    rw [h.record_eq, h'.record_eq, hpair.1, Option.some.inj hpair.2]

/-! ## The campaign of the library -/

/-- Inputs the campaign can draw. -/
structure CaseInputs.Drawn (inputs : CaseInputs) : Prop where
  tagSize : inputs.tagSize.Supported
  associatedData : inputs.associatedData.length ≤ 128
  plaintext : inputs.plaintext.length ≤ 4096

theorem length_applyStructure (bytes : List U8) (caseIndex : ℕ) :
    (applyStructure bytes caseIndex).length = bytes.length := by
  unfold applyStructure
  split <;> simp

theorem associatedDataLength_le (caseIndex : ℕ) (state : U64) :
    (associatedDataLength caseIndex state).1 ≤ 128 := by
  have hboundary : ∀ i : Fin 15,
      (#v[0, 1, 2, 7, 8, 15, 16, 17, 31, 32, 33, 63, 64, 65, 128] : Vector ℕ 15).get i ≤ 128 := by
    decide
  unfold associatedDataLength
  split
  · exact hboundary _
  · have := Nat.mod_lt (nextRandom state).toNat (by decide : 0 < 129)
    show (nextRandom state).toNat % 129 ≤ 128
    omega

theorem plaintextLength_le (caseIndex : ℕ) (state : U64) :
    (plaintextLength caseIndex state).1 ≤ 4096 := by
  have hboundary : ∀ i : Fin 23, (#v[0, 1, 2, 7, 8, 15, 16, 17, 31, 32, 33, 47, 48, 63, 64, 65, 95,
      96, 97, 127, 128, 255, 256] : Vector ℕ 23).get i ≤ 4096 := by
    decide
  unfold plaintextLength
  split
  · exact le_rfl
  split
  · exact (by decide : 1024 ≤ 4096)
  split
  · exact hboundary _
  · have := Nat.mod_lt (nextRandom state).toNat (by decide : 0 < 257)
    show (nextRandom state).toNat % 257 ≤ 4096
    omega

theorem caseInputs_drawn (caseIndex : ℕ) (state : U64) :
    (caseInputs caseIndex state).1.Drawn := by
  constructor
  · show (caseTagSize caseIndex).Supported
    unfold caseTagSize
    split <;> decide
  · show (applyStructure _ caseIndex).length ≤ 128
    rw [length_applyStructure, length_fillRandom]
    exact associatedDataLength_le _ _
  · show (applyStructure _ (caseIndex + 17)).length ≤ 4096
    rw [length_applyStructure, length_fillRandom]
    exact plaintextLength_le _ _

/-- A byte changed in its low bit is another byte. -/
theorem set_xor_one_ne {bytes : List U8} {position : ℕ} (h : position < bytes.length) :
    bytes.set position (bytes[position] ^^^ 1) ≠ bytes := by
  intro heq
  have hbyte := congrArg (fun bytes' : List U8 => bytes'[position]?) heq
  simp [h] at hbyte

/-- **The library passes every case it is given.** -/
theorem library_writeCase {inputs : CaseInputs} (h : inputs.Drawn) (output : List U8) :
    ∃ output', writeCase library output inputs = .ok output' := by
  obtain ⟨htagSize, had, hpt⟩ := h
  obtain ⟨sealed, hsealed, hopened⟩ := exists_sealed htagSize inputs.keys inputs.nonce
    (by omega : 79 + inputs.associatedData.length + inputs.plaintext.length < 2 ^ 64)
  have had' : inputs.associatedData.length < 2 ^ 64 := by omega
  have hpt' : inputs.plaintext.length < 2 ^ 64 := by omega
  obtain ⟨hct, htag⟩ := length_sealed had' hpt' hsealed
  have htagpos : 0 < sealed.tag.length := by
    rw [htag]
    rcases htagSize with h | h | h <;> rw [h] <;> decide
  have hposition := Nat.mod_lt inputs.caseIndex htagpos
  have hrejected := openMessage_of_tag_ne had' hpt' hsealed
    (List.length_set) (set_xor_one_ne hposition)
  have hwritable : (recordOf inputs sealed inputs.plaintext).Writable := by
    have := inputs.tagSize.value.isLt
    constructor <;> simp only [recordOf] <;> omega
  have hnil : sealed.tag ≠ [] := List.ne_nil_of_length_pos htagpos
  refine ⟨output ++ recordBytes (recordOf inputs sealed inputs.plaintext), ?_⟩
  unfold writeCase library
  dsimp only
  rw [hsealed, except_ok_bind, hopened, except_ok_bind]
  dsimp only
  rw [if_neg (by simp), if_neg hnil, readAt_of_lt hposition, except_ok_bind,
    storeAt_of_lt hposition, except_ok_bind, hrejected, except_ok_bind, if_neg (by simp),
    writeRecord_of_writable _ hwritable]

/-- **The library completes its campaign**, of any number of cases. -/
theorem library_generate (cases : ℕ) : ∃ stream, generate library cases = .ok stream := by
  have hloop : ∀ (indices : List ℕ) (output : List U8) (state : U64), ∃ progress,
      indices.foldlM (generateStep library) (output, state) = .ok progress := by
    intro indices
    induction indices with
    | nil => exact fun output state => ⟨_, rfl⟩
    | cons caseIndex rest ih =>
      intro output state
      obtain ⟨output', hcase⟩ := library_writeCase (caseInputs_drawn caseIndex state) output
      have hstep : generateStep library (output, state) caseIndex
          = .ok (output', (caseInputs caseIndex state).2) := by
        unfold generateStep
        dsimp only
        rw [hcase]
        rfl
      rw [List.foldlM_cons, hstep, except_ok_bind]
      exact ih output' _
  unfold generate
  rw [writeHead_eq]
  obtain ⟨progress, hprogress⟩ := hloop (List.range cases) _ kSeed
  exact ⟨progress.1, by rw [hprogress]; rfl⟩

/-! ## The law -/

/-- **The transcript is an unambiguous encoding.**  For all lists of cases whose fields
have sizes, of any lengths, the streams are equal if and only if the lists are.  The
generator writes this stream, where every field is below `2 ^ 63` bytes, and throws where
one is not.  So two implementations that complete a campaign have equal transcripts if
and only if they return the same ciphertext, tag and opened plaintext for each of its
cases. -/
theorem transcript_unambiguous :
    (∀ records records' : List CaseRecord, (∀ record ∈ records, record.Fits) →
      (∀ record ∈ records', record.Fits) →
      (transcriptBytes records = transcriptBytes records' ↔ records = records')) ∧
    (∀ records : List CaseRecord,
      ((∀ record ∈ records, record.Writable) →
        writeTranscript records = .ok (transcriptBytes records)) ∧
      ((∃ record ∈ records, ¬ record.Writable) →
        writeTranscript records = .error exceedsStreamsize)) ∧
    ∀ (implementation implementation' : Implementation) (cases : ℕ) (stream stream' : List U8),
      generate implementation cases = .ok stream → generate implementation' cases = .ok stream' →
      (stream = stream' ↔ ∀ inputs ∈ campaign cases,
        implementation.results inputs = implementation'.results inputs) := by
  refine ⟨fun records records' => transcriptBytes_eq_iff, writeTranscript_eq, ?_⟩
  intro implementation implementation' cases stream stream' hrun hrun'
  obtain ⟨records, hyields, rfl⟩ := exists_yields_of_generate hrun
  obtain ⟨records', hyields', rfl⟩ := exists_yields_of_generate hrun'
  have hfits : ∀ {implementation : Implementation} {sources : List CaseInputs}
      {records : List CaseRecord}, List.Forall₂ implementation.Yields sources records →
      ∀ record ∈ records, record.Fits := by
    intro implementation sources records h
    induction h with
    | nil => simp
    | cons h _ ih => exact List.forall_mem_cons.2 ⟨h.writable.fits, ih⟩
  rw [transcriptBytes_eq_iff (hfits hyields) (hfits hyields')]
  exact forall₂_eq_iff (fun _ _ _ h h' => yields_eq_iff h h') hyields hyields'

/-- Three cases of the library, against any other implementation. -/
theorem transcript_unambiguous_three :
    ∃ stream, generate library 3 = .ok stream ∧
      ∀ (implementation : Implementation) (stream' : List U8),
        generate implementation 3 = .ok stream' →
        (stream = stream' ↔ ∀ inputs ∈ campaign 3,
          library.results inputs = implementation.results inputs) := by
  obtain ⟨stream, hstream⟩ := library_generate 3
  exact ⟨stream, hstream, fun implementation stream' hrun =>
    transcript_unambiguous.2.2 library implementation 3 stream stream' hstream hrun⟩

end Conformance
