/-
# The fuzz targets

The two differential targets of `fuzz/`.  Each takes the bytes of the fuzzer apart into the
arguments of a call, makes the call in the reference and in the independent
implementation, and aborts where they differ.  For no input does either target abort, throw
or leave a buffer; and the arguments that an input can reach are exactly those whose
associated data is shorter than 64 KiB and, for raw tuples, whose tag has a length that one
selector byte can ask for.
-/
import RotSymEnc.IndependentAgreement

open StatefulRuns

/-! ## Reading the input -/

/-- `InputReader`: an input and an offset that stays inside it. -/
structure InputReader : Type where
  input : List U8
  offset : ℕ
  offset_le : offset ≤ input.length

namespace InputReader

/-- A reader at the start of its input. -/
def start (data : List U8) : InputReader := ⟨data, 0, Nat.zero_le _⟩

/-- `take_byte`: behind the end of the input the bytes are zero. -/
def takeByte (reader : InputReader) : U8 × InputReader :=
  if h : reader.offset = reader.input.length then (0, reader)
  else
    have hlt : reader.offset < reader.input.length := Nat.lt_of_le_of_ne reader.offset_le h
    (reader.input.get ⟨reader.offset, hlt⟩, ⟨reader.input, reader.offset + 1, hlt⟩)

/-- `take_u16_be`. -/
def takeU16Be (reader : InputReader) : U16 × InputReader :=
  let high := reader.takeByte
  let low := high.2.takeByte
  ((u16 high.1 <<< 8) ||| u16 low.1, low.2)

/-- `take_array`. -/
def takeArray (reader : InputReader) : (n : ℕ) → Vector U8 n × InputReader
  | 0 => (#v[], reader)
  | n + 1 =>
    let before := reader.takeArray n
    let byte := before.2.takeByte
    (before.1.push byte.1, byte.2)

/-- `remaining`. -/
def remaining (reader : InputReader) : List U8 := reader.input.drop reader.offset

end InputReader

/-- `split_index`. -/
def splitIndex (hint : U16) (bytes : U64) : U64 :=
  if bytes = maxSize then u64 hint else u64 hint % (bytes + 1)

/-! ## Failing -/

/-- The ways a target can fail: an exception that leaves it, or `std::abort` with a message. -/
inductive Crash : Type where
  | fault (fault : Fault)
  | aborted (message : String)
  deriving DecidableEq, Repr

/-- A run of a target. -/
abbrev TargetRun := Except Crash

/-- `require`. -/
def requireAgreement (condition : Bool) (message : String) : TargetRun PUnit :=
  if condition then .ok () else .error (.aborted message)

/-- A call whose exceptions leave the target. -/
def TargetRun.call {α : Type} (x : Except Fault α) : TargetRun α :=
  match x with
  | .ok a => .ok a
  | .error fault => .error (.fault fault)

/-- `span.first(count)`, defined for counts up to the size. -/
def firstPart (bytes : List U8) (count : U64) : TargetRun (List U8) :=
  if count ≤ size bytes then .ok (bytes.take count.toNat) else .error (.fault .badAccess)

/-- `span.subspan(offset)`. -/
def restFrom (bytes : List U8) (offset : U64) : TargetRun (List U8) :=
  if offset ≤ size bytes then .ok (bytes.drop offset.toNat) else .error (.fault .badAccess)

/-- `span.last(count)`. -/
def lastPart (bytes : List U8) (count : U64) : TargetRun (List U8) :=
  if count ≤ size bytes then .ok (bytes.drop (size bytes - count).toNat)
  else .error (.fault .badAccess)

/-! ## `seal_equivalence.cpp` -/

/-- `struct TagProfiles`. -/
structure TagProfiles : Type where
  canonical : TagSize
  independent : TagSize

/-- `select_tag_profiles`. -/
def selectTagProfiles (selector : U8) : TagProfiles :=
  if selector.toNat % 3 = 0 then ⟨.bits128, .bits128⟩
  else if selector.toNat % 3 = 1 then ⟨.bits192, .bits192⟩
  else ⟨.bits256, .bits256⟩

/-- The fields that both targets read after the selectors. -/
structure FuzzKeys : Type where
  encryptionKey : ResearchKey256
  authenticationKey : ResearchKey256
  nonce : Nonce192
  deriving DecidableEq

/-- The two keys and the nonce. -/
def InputReader.takeKeys (reader : InputReader) : FuzzKeys × InputReader :=
  let encryptionKey := reader.takeArray 32
  let authenticationKey := encryptionKey.2.takeArray 32
  let nonce := authenticationKey.2.takeArray 24
  (⟨encryptionKey.1, authenticationKey.1, nonce.1⟩, nonce.2)

/-- `canonical_keys`. -/
def FuzzKeys.canonical (keys : FuzzKeys) : PvcRotSymEnc1.KeyPair512 :=
  ⟨keys.encryptionKey, keys.authenticationKey⟩

/-- `independent_keys`. -/
def FuzzKeys.independent (keys : FuzzKeys) : PvcAead0Independent.KeyPair512 :=
  ⟨keys.encryptionKey, keys.authenticationKey⟩

/-- The arguments of the two `seal` calls. -/
structure SealArguments : Type where
  profiles : TagProfiles
  keys : FuzzKeys
  associatedData : List U8
  plaintext : List U8

/-- The first part of the target: the arguments in its input. -/
def sealArguments (data : List U8) : TargetRun SealArguments := do
  let selector := (InputReader.start data).takeByte
  let splitHint := selector.2.takeU16Be
  let keys := splitHint.2.takeKeys
  let payload := keys.2.remaining
  let adSize := splitIndex splitHint.1 (size payload)
  let associatedData ← firstPart payload adSize
  let plaintext ← restFrom payload adSize
  return ⟨selectTagProfiles selector.1, keys.1, associatedData, plaintext⟩

/-- The second part: both calls and their comparison. -/
def compareSeals (arguments : SealArguments) : TargetRun ℕ := do
  let canonical ← TargetRun.call (PvcRotSymEnc1.sealMessage arguments.keys.canonical
    arguments.keys.nonce arguments.associatedData arguments.plaintext
    arguments.profiles.canonical).returned
  let independent ← TargetRun.call (PvcAead0Independent.sealMessage arguments.keys.independent
    arguments.keys.nonce arguments.associatedData arguments.plaintext
    arguments.profiles.independent).returned
  requireAgreement (canonical.ciphertext = independent.ciphertext)
    "seal differential failure: ciphertext mismatch"
  requireAgreement (canonical.tag = independent.tag) "seal differential failure: tag mismatch"
  return 0

/-- `LLVMFuzzerTestOneInput` of `seal_equivalence.cpp`. -/
def sealEquivalence (data : List U8) : TargetRun ℕ := do
  compareSeals (← sealArguments data)

/-! ## `open_equivalence.cpp` -/

/-- `select_tag_profile`. -/
def selectTagProfile (selector : U8) : TagSize :=
  if selector.toNat % 3 = 0 then .bits128
  else if selector.toNat % 3 = 1 then .bits192
  else .bits256

/-- `raw_tag_size`: the letters 'a', 'b' and 'c' stand for the supported lengths. -/
def rawTagSize (selector : U8) : U64 :=
  if selector = 97 then 16 else if selector = 98 then 24 else if selector = 99 then 32
  else u64 selector

/-- `compare_open_results`. -/
def compareOpenResults (canonical independent : Option (List U8)) : TargetRun PUnit := do
  requireAgreement (canonical.isSome = independent.isSome)
    "open differential failure: acceptance mismatch"
  if canonical.isSome then
    requireAgreement (canonical = independent) "open differential failure: plaintext mismatch"

/-- The arguments of the two `open` calls on a raw tuple. -/
structure OpenArguments : Type where
  keys : FuzzKeys
  associatedData : List U8
  ciphertext : List U8
  suppliedTag : List U8
  deriving DecidableEq

/-- What both modes of the target read: the mode, the selectors, the keys and the payload. -/
structure OpenHeader : Type where
  mode : U8
  tagSelector : U8
  splitHint : U16
  keys : FuzzKeys
  payload : List U8

/-- The header of an input. -/
def openHeader (data : List U8) : OpenHeader :=
  let mode := (InputReader.start data).takeByte
  let tagSelector := mode.2.takeByte
  let splitHint := tagSelector.2.takeU16Be
  let keys := splitHint.2.takeKeys
  ⟨mode.1, tagSelector.1, splitHint.1, keys.1, keys.2.remaining⟩

/-- The arguments of a raw tuple: the tag is the end of the payload, with zeros in front of it where
the payload is too short. -/
def openArguments (header : OpenHeader) : TargetRun OpenArguments := do
  let requestedTagSize := rawTagSize header.tagSelector
  let copiedTagSize := if size header.payload < requestedTagSize then size header.payload
    else requestedTagSize
  let body ← firstPart header.payload (size header.payload - copiedTagSize)
  let adSize := splitIndex header.splitHint (size body)
  let associatedData ← firstPart body adSize
  let ciphertext ← restFrom body adSize
  let tagMaterial ← lastPart header.payload copiedTagSize
  let suppliedTag ← TargetRun.call (copyTo (List.replicate requestedTagSize.toNat 0)
    (requestedTagSize - copiedTagSize).toNat tagMaterial)
  return ⟨header.keys, associatedData, ciphertext, suppliedTag⟩

/-- Both `open` calls of a generated tuple and their comparison. -/
def compareGenerated (keys : FuzzKeys) (associatedData plaintext : List U8) (tagProfile : TagSize) :
    TargetRun ℕ := do
  let sealed ← TargetRun.call (PvcAead0Independent.sealMessage keys.independent keys.nonce
    associatedData plaintext tagProfile).returned
  let canonical ← TargetRun.call (PvcRotSymEnc1.openMessage keys.canonical keys.nonce
    associatedData sealed.ciphertext sealed.tag).returned
  let independent ← TargetRun.call (PvcAead0Independent.openMessage keys.independent keys.nonce
    associatedData sealed.ciphertext sealed.tag).returned
  compareOpenResults canonical independent
  requireAgreement canonical.isSome
    "open differential failure: generated valid tuple was rejected"
  requireAgreement (canonical = some plaintext)
    "open differential failure: generated tuple recovered wrong plaintext"
  return 0

/-- The last check of a raw tuple: an accepted plaintext is as long as the ciphertext. -/
def requireAcceptedLength (canonical : Option (List U8)) (ciphertext : List U8) :
    TargetRun PUnit :=
  match canonical with
  | some plaintext => requireAgreement (plaintext.length = ciphertext.length)
      "open differential failure: accepted plaintext length mismatch"
  | none => .ok ()

/-- Both `open` calls of a raw tuple and their comparison. -/
def compareRaw (arguments : OpenArguments) : TargetRun ℕ := do
  let canonical ← TargetRun.call (PvcRotSymEnc1.openMessage arguments.keys.canonical
    arguments.keys.nonce arguments.associatedData arguments.ciphertext
    arguments.suppliedTag).returned
  let independent ← TargetRun.call (PvcAead0Independent.openMessage arguments.keys.independent
    arguments.keys.nonce arguments.associatedData arguments.ciphertext
    arguments.suppliedTag).returned
  compareOpenResults canonical independent
  requireAcceptedLength canonical arguments.ciphertext
  return 0

/-- `LLVMFuzzerTestOneInput` of `open_equivalence.cpp`: a generated tuple where the mode is odd,
a raw one otherwise. -/
def openEquivalence (data : List U8) : TargetRun ℕ :=
  let header := openHeader data
  if header.mode &&& 1 ≠ 0 then do
    let adSize := splitIndex header.splitHint (size header.payload)
    let associatedData ← firstPart header.payload adSize
    let plaintext ← restFrom header.payload adSize
    compareGenerated header.keys associatedData plaintext (selectTagProfile header.tagSelector)
  else do
    compareRaw (← openArguments header)

/-! ## What is read -/

namespace InputReader

@[simp] theorem remaining_start (data : List U8) : (start data).remaining = data :=
  List.drop_zero

/-- A byte is the next one, or zero at the end. -/
theorem takeByte_fst (reader : InputReader) : reader.takeByte.1 = reader.remaining.headD 0 := by
  unfold takeByte remaining
  split
  next h =>
    rw [List.drop_eq_nil_of_le h.ge]
    rfl
  next h =>
    have hlt := Nat.lt_of_le_of_ne reader.offset_le h
    rw [List.drop_eq_getElem_cons hlt]
    rfl

theorem remaining_takeByte (reader : InputReader) :
    reader.takeByte.2.remaining = reader.remaining.tail := by
  unfold takeByte remaining
  split
  next h => rw [List.drop_eq_nil_of_le h.ge]; rfl
  next h => rw [List.tail_drop]

/-- **An array** is the front of what remains, with zeros behind the end. -/
theorem takeArray_spec (reader : InputReader) (n : ℕ) :
    (reader.takeArray n).1.toList = (List.range n).map (fun i => reader.remaining.getD i 0) ∧
      (reader.takeArray n).2.remaining = reader.remaining.drop n := by
  induction n with
  | zero => exact ⟨rfl, rfl⟩
  | succ n ih =>
    obtain ⟨hlist, hrest⟩ := ih
    constructor
    · show ((reader.takeArray n).1.push (reader.takeArray n).2.takeByte.1).toList = _
      rw [Vector.toList_push, hlist, takeByte_fst, hrest, List.range_succ, List.map_append]
      simp [List.headD_eq_head?_getD, List.getD_eq_getElem?_getD, List.head?_drop]
    · show (reader.takeArray n).2.takeByte.2.remaining = _
      rw [remaining_takeByte, hrest, List.tail_drop]

/-- An array that is there is read. -/
theorem takeArray_append (reader : InputReader) {n : ℕ} (array : Vector U8 n) {rest : List U8}
    (h : reader.remaining = array.toList ++ rest) :
    (reader.takeArray n).1 = array ∧ (reader.takeArray n).2.remaining = rest := by
  obtain ⟨hlist, hrest⟩ := reader.takeArray_spec n
  have hlen : array.toList.length = n := Vector.length_toList
  constructor
  · apply Vector.toList_inj.mp
    rw [hlist, h]
    refine List.ext_getElem (by simp) fun i hi hi' => ?_
    rw [List.getElem_map, List.getElem_range, List.getD_eq_getElem?_getD,
      List.getElem?_append_left hi', List.getElem?_eq_getElem hi', Option.getD_some]
  · rw [hrest, h, List.drop_append_of_le_length hlen.ge, List.drop_eq_nil_of_le hlen.le,
      List.nil_append]

theorem takeByte_cons (reader : InputReader) {byte : U8} {rest : List U8}
    (h : reader.remaining = byte :: rest) :
    reader.takeByte.1 = byte ∧ reader.takeByte.2.remaining = rest := by
  rw [takeByte_fst, remaining_takeByte, h]
  exact ⟨rfl, rfl⟩

/-- What remains after the keys and the nonce. -/
theorem remaining_takeKeys (reader : InputReader) :
    reader.takeKeys.2.remaining = reader.remaining.drop 88 := by
  unfold takeKeys
  dsimp only
  rw [(takeArray_spec _ _).2, (takeArray_spec _ _).2, (takeArray_spec _ _).2, List.drop_drop,
    List.drop_drop]

theorem remaining_takeU16Be (reader : InputReader) :
    reader.takeU16Be.2.remaining = reader.remaining.drop 2 := by
  unfold takeU16Be
  dsimp only
  rw [remaining_takeByte, remaining_takeByte, ← List.drop_one, ← List.drop_one, List.drop_drop]

/-- The keys and the nonce that are there are read. -/
theorem takeKeys_append (reader : InputReader) (keys : FuzzKeys) {rest : List U8}
    (h : reader.remaining = keys.encryptionKey.toList
      ++ (keys.authenticationKey.toList ++ (keys.nonce.toList ++ rest))) :
    reader.takeKeys.1 = keys ∧ reader.takeKeys.2.remaining = rest := by
  obtain ⟨hkey, hrest⟩ := takeArray_append _ keys.encryptionKey h
  obtain ⟨hkey', hrest'⟩ := takeArray_append _ keys.authenticationKey hrest
  obtain ⟨hnonce, hrest''⟩ := takeArray_append _ keys.nonce hrest'
  unfold takeKeys
  dsimp only
  rw [hkey, hkey', hnonce]
  exact ⟨rfl, hrest''⟩

end InputReader

/-! ## Splitting the payload -/

/-- The split is inside the payload. -/
theorem toNat_splitIndex (hint : U16) {bytes : List U8} (h : bytes.length < 2 ^ 63) :
    (splitIndex hint (size bytes)).toNat = hint.toNat % (bytes.length + 1) := by
  have hsize : (size bytes).toNat = bytes.length := toNat_size (by omega)
  have hne : size bytes ≠ maxSize := by
    intro heq
    have hmax : maxSize.toNat = 2 ^ 64 - 1 := rfl
    rw [heq, hmax] at hsize
    omega
  have hhint := hint.isLt
  unfold splitIndex
  rw [if_neg hne, BitVec.toNat_umod, BitVec.toNat_add, hsize, BitVec.toNat_setWidth]
  show hint.toNat % 2 ^ 64 % ((bytes.length + 1) % 2 ^ 64) = _
  rw [Nat.mod_eq_of_lt (show hint.toNat < 2 ^ 64 by omega),
    Nat.mod_eq_of_lt (show bytes.length + 1 < 2 ^ 64 by omega)]

theorem firstPart_of_le {bytes : List U8} {count : U64} (hbytes : bytes.length < 2 ^ 63)
    (h : count.toNat ≤ bytes.length) : firstPart bytes count = .ok (bytes.take count.toNat) := by
  refine if_pos ?_
  rw [BitVec.le_def, toNat_size (by omega)]
  exact h

theorem restFrom_of_le {bytes : List U8} {offset : U64} (hbytes : bytes.length < 2 ^ 63)
    (h : offset.toNat ≤ bytes.length) : restFrom bytes offset = .ok (bytes.drop offset.toNat) := by
  refine if_pos ?_
  rw [BitVec.le_def, toNat_size (by omega)]
  exact h

theorem lastPart_of_le {bytes : List U8} {count : U64} (hbytes : bytes.length < 2 ^ 63)
    (h : count.toNat ≤ bytes.length) :
    lastPart bytes count = .ok (bytes.drop (bytes.length - count.toNat)) := by
  have hsize : (size bytes).toNat = bytes.length := toNat_size (by omega)
  unfold lastPart
  rw [if_pos (by rw [BitVec.le_def, hsize]; exact h), BitVec.toNat_sub_of_le
    (by rw [BitVec.le_def, hsize]; exact h), hsize]

/-- Where a payload is split. -/
def splitAt (hint : U16) (payload : List U8) : ℕ := hint.toNat % (payload.length + 1)

theorem splitAt_le (hint : U16) (payload : List U8) : splitAt hint payload ≤ payload.length :=
  Nat.lt_succ_iff.mp (Nat.mod_lt _ (Nat.succ_pos _))

/-- A split that the hint can name. -/
theorem splitAt_ofNat {n : ℕ} (hn : n < 2 ^ 16) {payload : List U8} (h : n ≤ payload.length) :
    splitAt (BitVec.ofNat 16 n) payload = n := by
  unfold splitAt
  rw [BitVec.toNat_ofNat, Nat.mod_eq_of_lt hn, Nat.mod_eq_of_lt (Nat.lt_succ_of_le h)]

/-- **The arguments of the `seal` target** are two parts of the payload behind the header. -/
theorem sealArguments_eq {data : List U8} (h : data.length < 2 ^ 63) :
    sealArguments data = .ok
      (let selector := (InputReader.start data).takeByte
       let splitHint := selector.2.takeU16Be
       let keys := splitHint.2.takeKeys
       let split := splitAt splitHint.1 (data.drop 91)
       ⟨selectTagProfiles selector.1, keys.1, (data.drop 91).take split,
        (data.drop 91).drop split⟩) := by
  have hpayload : (InputReader.start data).takeByte.2.takeU16Be.2.takeKeys.2.remaining
      = data.drop 91 := by
    rw [InputReader.remaining_takeKeys, InputReader.remaining_takeU16Be,
      InputReader.remaining_takeByte, InputReader.remaining_start, ← List.drop_one,
      List.drop_drop, List.drop_drop]
  have hlen : (data.drop 91).length < 2 ^ 63 := by
    rw [List.length_drop]
    omega
  have hsplit : ∀ hint, (splitIndex hint (size (data.drop 91))).toNat
      = splitAt hint (data.drop 91) := fun hint => toNat_splitIndex hint hlen
  unfold sealArguments
  dsimp only
  rw [hpayload, firstPart_of_le hlen (by rw [hsplit]; exact splitAt_le _ _),
    restFrom_of_le hlen (by rw [hsplit]; exact splitAt_le _ _), hsplit]
  rfl

/-- The payload of the `open` target is behind its header. -/
theorem payload_openHeader (data : List U8) : (openHeader data).payload = data.drop 92 := by
  unfold openHeader
  dsimp only
  rw [InputReader.remaining_takeKeys, InputReader.remaining_takeU16Be,
    InputReader.remaining_takeByte, InputReader.remaining_takeByte, InputReader.remaining_start,
    ← List.drop_one, ← List.drop_one, List.drop_drop, List.drop_drop, List.drop_drop]

/-- How much of a raw tag is in the payload. -/
def copiedTagSize (header : OpenHeader) : ℕ :=
  min header.payload.length (rawTagSize header.tagSelector).toNat

/-- The part of the payload in front of a raw tag. -/
def tupleBody (header : OpenHeader) : List U8 :=
  header.payload.take (header.payload.length - copiedTagSize header)

theorem rawTagSize_lt (selector : U8) : (rawTagSize selector).toNat < 2 ^ 8 := by
  unfold rawTagSize
  have hselector := selector.isLt
  split
  · decide
  split
  · decide
  split
  · decide
  · rw [BitVec.toNat_setWidth]
    omega

/-- The size that the target computes. -/
theorem toNat_copiedTagSize {header : OpenHeader} (h : header.payload.length < 2 ^ 63) :
    (if size header.payload < rawTagSize header.tagSelector then size header.payload
      else rawTagSize header.tagSelector).toNat = copiedTagSize header := by
  have hsize : (size header.payload).toNat = header.payload.length := toNat_size (by omega)
  unfold copiedTagSize
  split
  next hlt =>
    rw [BitVec.lt_def, hsize] at hlt
    rw [hsize]
    omega
  next hle =>
    rw [BitVec.lt_def, hsize] at hle
    omega

/-- A copy to the end of a zeroed buffer. -/
theorem copyTo_back {source : List U8} {m : ℕ} (h : source.length ≤ m) :
    copyTo (List.replicate m 0) (m - source.length) source
      = .ok (List.replicate (m - source.length) 0 ++ source) := by
  rw [copyTo_eq (by rw [List.length_replicate]; omega), overwrite, List.take_replicate,
    min_eq_left (Nat.sub_le _ _), List.drop_replicate, Nat.sub_add_cancel h, Nat.sub_self,
    List.replicate_zero, List.append_nil]

/-- **The arguments of a raw tuple** are two parts of the payload and its end. -/
theorem openArguments_eq {header : OpenHeader} (h : header.payload.length < 2 ^ 63) :
    openArguments header = .ok ⟨header.keys,
      (tupleBody header).take (splitAt header.splitHint (tupleBody header)),
      (tupleBody header).drop (splitAt header.splitHint (tupleBody header)),
      List.replicate ((rawTagSize header.tagSelector).toNat - copiedTagSize header) 0
        ++ header.payload.drop (header.payload.length - copiedTagSize header)⟩ := by
  have hsize : (size header.payload).toNat = header.payload.length := toNat_size (by omega)
  have hcopied := toNat_copiedTagSize h
  have hle : copiedTagSize header ≤ header.payload.length := Nat.min_le_left _ _
  have hle' : copiedTagSize header ≤ (rawTagSize header.tagSelector).toNat := Nat.min_le_right _ _
  unfold openArguments
  dsimp only
  generalize (if size header.payload < rawTagSize header.tagSelector then size header.payload
      else rawTagSize header.tagSelector) = copied at hcopied ⊢
  have hfront : (size header.payload - copied).toNat
      = header.payload.length - copiedTagSize header := by
    rw [BitVec.toNat_sub_of_le (by rw [BitVec.le_def, hsize, hcopied]; exact hle), hsize, hcopied]
  have hgap : (rawTagSize header.tagSelector - copied).toNat
      = (rawTagSize header.tagSelector).toNat - copiedTagSize header := by
    rw [BitVec.toNat_sub_of_le (by rw [BitVec.le_def, hcopied]; exact hle'), hcopied]
  have hbody : (tupleBody header).length < 2 ^ 63 := by
    unfold tupleBody
    rw [List.length_take]
    omega
  have hmaterial : (header.payload.drop (header.payload.length - copiedTagSize header)).length
      = copiedTagSize header := by
    rw [List.length_drop]
    omega
  have hcopy := copyTo_back (hmaterial.trans_le hle')
  rw [hmaterial] at hcopy
  rw [firstPart_of_le h (by rw [hfront]; exact Nat.sub_le _ _), hfront]
  show (do
    let associatedData ← firstPart (tupleBody header)
      (splitIndex header.splitHint (size (tupleBody header)))
    let ciphertext ← restFrom (tupleBody header)
      (splitIndex header.splitHint (size (tupleBody header)))
    let tagMaterial ← lastPart header.payload copied
    let suppliedTag ← TargetRun.call (copyTo _ (rawTagSize header.tagSelector - copied).toNat
      tagMaterial)
    return (⟨header.keys, associatedData, ciphertext, suppliedTag⟩ : OpenArguments)) = _
  have hsplit := toNat_splitIndex header.splitHint hbody
  rw [firstPart_of_le hbody (by rw [hsplit]; exact splitAt_le _ _),
    restFrom_of_le hbody (by rw [hsplit]; exact splitAt_le _ _),
    lastPart_of_le h (by rw [hcopied]; exact hle), hsplit, hcopied, hgap]
  show (do
    let suppliedTag ← TargetRun.call (copyTo _ _ _)
    return (⟨header.keys, _, _, suppliedTag⟩ : OpenArguments)) = _
  rw [hcopy]
  rfl

/-! ## No input makes a target fail -/

theorem supported_selectTagProfile (selector : U8) : (selectTagProfile selector).Supported := by
  unfold selectTagProfile
  split
  · decide
  split
  · decide
  · decide

theorem selectTagProfiles_eq (selector : U8) :
    selectTagProfiles selector = ⟨selectTagProfile selector, selectTagProfile selector⟩ := by
  unfold selectTagProfiles selectTagProfile
  split
  · rfl
  split
  · rfl
  · rfl

/-- Of two runs with one outcome, what the first returns the second returns. -/
theorem returned_of_sameClass {α : Type} {x y : PrfRun α} (h : SameClass x y) {a : α}
    (hx : x.returned = .ok a) : y.returned = .ok a := by
  obtain ⟨calls, hrun⟩ := PrfRun.exists_of_returned hx
  rcases h [] with ⟨b, calls', hx', hy⟩ | ⟨e, e', calls', hx', -⟩
  · obtain ⟨rfl, -⟩ := EStateM.Result.ok.inj (hrun.symm.trans hx')
    exact PrfRun.returned_of_ok hy
  · cases hrun.symm.trans hx'

/-- What the profile seals, the independent implementation seals. -/
theorem independentSeal_returned (keys : FuzzKeys) {associatedData plaintext : List U8}
    (had : associatedData.length < 2 ^ 63) (hpt : plaintext.length < 2 ^ 63) {tagSize : TagSize}
    {sealed : SealedMessage}
    (h : (PvcRotSymEnc1.sealMessage keys.canonical keys.nonce associatedData plaintext
      tagSize).returned = .ok sealed) :
    (PvcAead0Independent.sealMessage keys.independent keys.nonce associatedData plaintext
      tagSize).returned = .ok sealed :=
  returned_of_sameClass (PvcAead0Independent.sealMessage_agree _ _ had hpt _)
    (returned_of_sameClass (PvcRotSymEnc1.sealMessage_agree _ _ _ (by omega) _) h)

/-- What the profile opens, the independent implementation opens. -/
theorem independentOpen_returned (keys : FuzzKeys) {associatedData ciphertext : List U8}
    (had : associatedData.length < 2 ^ 63) (hct : ciphertext.length < 2 ^ 63)
    (suppliedTag : List U8) {opened : Option (List U8)}
    (h : (PvcRotSymEnc1.openMessage keys.canonical keys.nonce associatedData ciphertext
      suppliedTag).returned = .ok opened) :
    (PvcAead0Independent.openMessage keys.independent keys.nonce associatedData ciphertext
      suppliedTag).returned = .ok opened := by
  rw [PvcRotSymEnc1.openMessage] at h
  exact returned_of_sameClass (PvcAead0Independent.openMessage_agree
    (PvcRotSymEnc1.toA1Keys keys.canonical) keys.nonce had hct suppliedTag) h

namespace TargetRun

@[simp] theorem call_ok {α : Type} (a : α) : call (.ok a) = .ok a := rfl

/-- A run that has returned goes on with what it returned. -/
theorem ok_bind {α β : Type} (a : α) (f : α → TargetRun β) :
    ((Except.ok a : TargetRun α) >>= f) = f a := rfl

end TargetRun

/-- A check that holds is passed. -/
theorem requireAgreement_of {condition : Bool} (h : condition = true) (message : String) :
    requireAgreement condition message = .ok () := if_pos h

theorem compareOpenResults_self (opened : Option (List U8)) :
    compareOpenResults opened opened = .ok () := by
  unfold compareOpenResults
  rw [requireAgreement_of (by simp), requireAgreement_of (by simp), TargetRun.ok_bind]
  exact ite_self _

/-- Two seals of one text agree. -/
theorem compareSeals_eq (arguments : SealArguments) {tagSize : TagSize} (ht : tagSize.Supported)
    (hprofiles : arguments.profiles = ⟨tagSize, tagSize⟩)
    (hlen : arguments.associatedData.length + arguments.plaintext.length < 2 ^ 63) :
    compareSeals arguments = .ok 0 := by
  obtain ⟨sealed, hsealed, -⟩ := PvcRotSymEnc1.exists_sealed ht arguments.keys.canonical
    arguments.keys.nonce (show 79 + arguments.associatedData.length + arguments.plaintext.length
      < 2 ^ 64 by omega)
  have hindependent := independentSeal_returned arguments.keys (by omega) (by omega) hsealed
  unfold compareSeals
  rw [hprofiles, hsealed, hindependent, TargetRun.call_ok, TargetRun.ok_bind, TargetRun.ok_bind,
    requireAgreement_of (by simp), requireAgreement_of (by simp), TargetRun.ok_bind,
    TargetRun.ok_bind]
  rfl

/-- A generated tuple is opened by both. -/
theorem compareGenerated_eq (keys : FuzzKeys) {associatedData plaintext : List U8}
    {tagProfile : TagSize} (ht : tagProfile.Supported)
    (hlen : associatedData.length + plaintext.length < 2 ^ 63) :
    compareGenerated keys associatedData plaintext tagProfile = .ok 0 := by
  obtain ⟨sealed, hsealed, hopened⟩ := PvcRotSymEnc1.exists_sealed ht keys.canonical keys.nonce
    (show 79 + associatedData.length + plaintext.length < 2 ^ 64 by omega)
  have hct : sealed.ciphertext.length = plaintext.length :=
    (PvcRotSymEnc1.length_sealed (by omega) (by omega) hsealed).1
  have hindependent := independentSeal_returned keys (by omega) (by omega) hsealed
  have hopened' := independentOpen_returned keys (by omega) (by omega) sealed.tag hopened
  unfold compareGenerated
  rw [hindependent, TargetRun.call_ok, TargetRun.ok_bind, hopened, hopened', TargetRun.call_ok,
    TargetRun.ok_bind, TargetRun.ok_bind, compareOpenResults_self, TargetRun.ok_bind,
    requireAgreement_of (by simp), requireAgreement_of (by simp), TargetRun.ok_bind,
    TargetRun.ok_bind]
  rfl

/-- What is opened is as long as its ciphertext. -/
theorem requireAcceptedLength_of_opened {keys : FuzzKeys}
    {associatedData ciphertext suppliedTag : List U8} (had : associatedData.length < 2 ^ 64)
    (hct : ciphertext.length < 2 ^ 64) (htag : suppliedTag.length < 2 ^ 64)
    {opened : Option (List U8)}
    (h : (PvcRotSymEnc1.openMessage keys.canonical keys.nonce associatedData ciphertext
      suppliedTag).returned = .ok opened) :
    requireAcceptedLength opened ciphertext = .ok () := by
  cases opened with
  | none => rfl
  | some plaintext =>
    obtain ⟨-, -, -, hplaintext⟩ :=
      (PvcRotSymEnc1.openMessage_returned_iff _ _ had hct htag plaintext).mp h
    refine requireAgreement_of ?_ _
    rw [hplaintext, PvcAead0.length_keystreamMasked]
    exact decide_eq_true rfl

/-- A raw tuple is treated by both in the same way. -/
theorem compareRaw_eq (arguments : OpenArguments)
    (hlen : arguments.associatedData.length + arguments.ciphertext.length < 2 ^ 63)
    (htag : arguments.suppliedTag.length < 2 ^ 64) : compareRaw arguments = .ok 0 := by
  obtain ⟨opened, hopened⟩ := PvcRotSymEnc1.openMessage_returned_ok arguments.keys.canonical
    arguments.keys.nonce htag (show 79 + arguments.associatedData.length
      + arguments.ciphertext.length < 2 ^ 64 by omega)
  have hindependent := independentOpen_returned arguments.keys (by omega) (by omega) _ hopened
  unfold compareRaw
  rw [hopened, hindependent, TargetRun.call_ok, TargetRun.ok_bind, TargetRun.ok_bind,
    compareOpenResults_self, TargetRun.ok_bind,
    requireAcceptedLength_of_opened (by omega) (by omega) htag hopened, TargetRun.ok_bind]
  rfl

theorem length_tupleBody_le (header : OpenHeader) :
    (tupleBody header).length ≤ header.payload.length := by
  unfold tupleBody
  rw [List.length_take]
  exact min_le_right _ _

/-- The tag of a raw tuple has the length that its selector asks for. -/
theorem length_suppliedTag {header : OpenHeader} (h : header.payload.length < 2 ^ 63)
    {arguments : OpenArguments} (ha : openArguments header = .ok arguments) :
    arguments.suppliedTag.length = (rawTagSize header.tagSelector).toNat := by
  rw [openArguments_eq h] at ha
  cases ha
  have hle : copiedTagSize header ≤ header.payload.length := min_le_left _ _
  have hle' : copiedTagSize header ≤ (rawTagSize header.tagSelector).toNat := min_le_right _ _
  rw [List.length_append, List.length_replicate, List.length_drop]
  omega

/-- **The targets never fail**: on every input that memory can hold both return 0.  The reference
and the independent implementation agree on every tuple that either target builds, an accepted
plaintext has the length of its ciphertext, every generated tuple opens to its plaintext, and
no span is left and nothing thrown on the way. -/
theorem fuzz_targets_never_fail (data : List U8) (h : data.length < 2 ^ 63) :
    sealEquivalence data = .ok 0 ∧ openEquivalence data = .ok 0 := by
  constructor
  · have hlen : (data.drop 91).length < 2 ^ 63 := by
      rw [List.length_drop]
      omega
    unfold sealEquivalence
    rw [sealArguments_eq h, TargetRun.ok_bind]
    apply compareSeals_eq _ (supported_selectTagProfile _) (selectTagProfiles_eq _)
    show (List.take _ (data.drop 91)).length + (List.drop _ (data.drop 91)).length < 2 ^ 63
    rw [← List.length_append, List.take_append_drop]
    exact hlen
  · have hlen : (openHeader data).payload.length < 2 ^ 63 := by
      rw [payload_openHeader, List.length_drop]
      omega
    unfold openEquivalence
    generalize openHeader data = header at hlen ⊢
    dsimp only
    split
    -- a generated tuple
    · have hsplit := toNat_splitIndex header.splitHint hlen
      have hle := splitAt_le header.splitHint header.payload
      rw [firstPart_of_le hlen (by rw [hsplit]; exact hle),
        restFrom_of_le hlen (by rw [hsplit]; exact hle), TargetRun.ok_bind, TargetRun.ok_bind]
      apply compareGenerated_eq _ (supported_selectTagProfile _)
      rw [← List.length_append, List.take_append_drop]
      exact hlen
    -- a raw tuple
    · have htag := length_suppliedTag hlen (openArguments_eq hlen)
      rw [openArguments_eq hlen, TargetRun.ok_bind]
      apply compareRaw_eq
      · show (List.take _ (tupleBody header)).length + (List.drop _ (tupleBody header)).length
          < 2 ^ 63
        rw [← List.length_append, List.take_append_drop]
        exact lt_of_le_of_lt (length_tupleBody_le header) hlen
      · rw [htag]
        exact lt_trans (rawTagSize_lt _) (by decide)

/-- An input of one byte: every field behind it is zero. -/
theorem fuzz_targets_never_fail_byte :
    [(3 : U8)].length < 2 ^ 63 ∧ sealEquivalence [3] = .ok 0 ∧ openEquivalence [3] = .ok 0 :=
  ⟨by decide, fuzz_targets_never_fail [3] (by decide)⟩

/-! ## The arguments that inputs reach -/

/-- The two bytes of a 16-bit value, the high one first. -/
def bytesOfU16 (value : U16) : List U8 := [(value >>> 8).setWidth 8, value.setWidth 8]

theorem u16_bytesOfU16 (value : U16) :
    ((u16 ((value >>> 8).setWidth 8) <<< 8) ||| u16 (value.setWidth 8)) = value := by
  apply BitVec.eq_of_getElem_eq
  intro i hi
  by_cases h : i < 8
  · simp [u16, h, hi]
  · have hback : 8 + (i - 8) = i := by omega
    have hlt : i - 8 < 8 := by omega
    simp [u16, h, hback, hlt, BitVec.getLsbD_eq_getElem hi]

/-- The bytes of the fields behind the selectors. -/
def FuzzKeys.bytes (keys : FuzzKeys) (payload : List U8) : List U8 :=
  keys.encryptionKey.toList ++ (keys.authenticationKey.toList ++ (keys.nonce.toList ++ payload))

theorem FuzzKeys.length_bytes (keys : FuzzKeys) (payload : List U8) :
    (keys.bytes payload).length = 88 + payload.length := by
  unfold bytes
  rw [List.length_append, List.length_append, List.length_append, Vector.length_toList,
    Vector.length_toList, Vector.length_toList]
  omega

namespace InputReader

theorem takeU16Be_append (reader : InputReader) (value : U16) {rest : List U8}
    (h : reader.remaining = bytesOfU16 value ++ rest) :
    reader.takeU16Be.1 = value ∧ reader.takeU16Be.2.remaining = rest := by
  obtain ⟨hhigh, hrest⟩ := takeByte_cons reader h
  obtain ⟨hlow, hrest'⟩ := takeByte_cons _ hrest
  constructor
  · show ((u16 reader.takeByte.1 <<< 8) ||| u16 reader.takeByte.2.takeByte.1) = value
    rw [hhigh, hlow]
    exact u16_bytesOfU16 value
  · exact hrest'

end InputReader

/-- An input that the `seal` target reads as the given fields. -/
def sealInput (selector : U8) (hint : U16) (keys : FuzzKeys) (payload : List U8) : List U8 :=
  selector :: (bytesOfU16 hint ++ keys.bytes payload)

/-- An input that the `open` target reads as the given header. -/
def openInput (header : OpenHeader) : List U8 :=
  header.mode :: header.tagSelector :: (bytesOfU16 header.splitHint
    ++ header.keys.bytes header.payload)

theorem length_sealInput (selector : U8) (hint : U16) (keys : FuzzKeys) (payload : List U8) :
    (sealInput selector hint keys payload).length = 91 + payload.length := by
  unfold sealInput bytesOfU16
  rw [List.length_cons, List.length_append, FuzzKeys.length_bytes]
  show 2 + (88 + payload.length) + 1 = _
  omega

theorem length_openInput (header : OpenHeader) :
    (openInput header).length = 92 + header.payload.length := by
  unfold openInput bytesOfU16
  rw [List.length_cons, List.length_cons, List.length_append, FuzzKeys.length_bytes]
  show 2 + (88 + header.payload.length) + 1 + 1 = _
  omega

/-- **The `open` target reads back** every header. -/
theorem openHeader_openInput (header : OpenHeader) : openHeader (openInput header) = header := by
  obtain ⟨hmode, hrest⟩ := InputReader.takeByte_cons _
    (InputReader.remaining_start (openInput header))
  obtain ⟨hselector, hrest'⟩ := InputReader.takeByte_cons _ hrest
  obtain ⟨hhint, hrest''⟩ := InputReader.takeU16Be_append _ header.splitHint hrest'
  obtain ⟨hkeys, hpayload⟩ := InputReader.takeKeys_append _ header.keys hrest''
  unfold openHeader
  dsimp only
  rw [hmode, hselector, hhint, hkeys, hpayload]

/-- **The `seal` target reads back** every header. -/
theorem sealArguments_sealInput (selector : U8) (hint : U16) (keys : FuzzKeys)
    {payload : List U8} (h : 91 + payload.length < 2 ^ 63) :
    sealArguments (sealInput selector hint keys payload)
      = .ok ⟨selectTagProfiles selector, keys, payload.take (splitAt hint payload),
          payload.drop (splitAt hint payload)⟩ := by
  obtain ⟨hselector, hrest⟩ := InputReader.takeByte_cons _
    (InputReader.remaining_start (sealInput selector hint keys payload))
  obtain ⟨hhint, hrest'⟩ := InputReader.takeU16Be_append _ hint hrest
  obtain ⟨hkeys, -⟩ := InputReader.takeKeys_append _ keys hrest'
  have hpayload : (sealInput selector hint keys payload).drop 91 = payload := by
    have hfront : sealInput selector hint keys payload
        = (selector :: (bytesOfU16 hint ++ keys.bytes [])) ++ payload := by
      unfold sealInput FuzzKeys.bytes
      simp only [List.cons_append, List.append_assoc, List.nil_append]
    have hlen : (selector :: (bytesOfU16 hint ++ keys.bytes [])).length = 91 :=
      length_sealInput selector hint keys []
    rw [hfront, List.drop_append_of_le_length hlen.ge, List.drop_eq_nil_of_le hlen.le,
      List.nil_append]
  rw [sealArguments_eq (by rw [length_sealInput]; exact h)]
  dsimp only
  rw [hselector, hhint, hkeys, hpayload]

/-- A selector for each supported profile. -/
theorem exists_selector {tagSize : TagSize} (ht : tagSize.Supported) :
    ∃ selector : U8, selectTagProfiles selector = ⟨tagSize, tagSize⟩ := by
  rcases ht with rfl | rfl | rfl
  · exact ⟨0, rfl⟩
  · exact ⟨1, rfl⟩
  · exact ⟨2, rfl⟩

/-- The lengths that a selector can ask for: the letters `a`, `b` and `c` have their own. -/
def RawTagLength (n : ℕ) : Prop := n < 2 ^ 8 ∧ n ≠ 97 ∧ n ≠ 98 ∧ n ≠ 99

theorem rawTagLength_iff (n : ℕ) :
    RawTagLength n ↔ ∃ selector : U8, (rawTagSize selector).toNat = n := by
  unfold RawTagLength
  constructor
  · rintro ⟨hlt, ha, hb, hc⟩
    refine ⟨BitVec.ofNat 8 n, ?_⟩
    have hne : ∀ letter, letter < 2 ^ 8 → n ≠ letter →
        BitVec.ofNat 8 n ≠ BitVec.ofNat 8 letter := by
      intro letter hletter hn heq
      apply hn
      have := congrArg BitVec.toNat heq
      rwa [BitVec.toNat_ofNat, BitVec.toNat_ofNat, Nat.mod_eq_of_lt hlt,
        Nat.mod_eq_of_lt hletter] at this
    unfold rawTagSize
    rw [if_neg (show ¬BitVec.ofNat 8 n = 97 from hne 97 (by decide) ha),
      if_neg (show ¬BitVec.ofNat 8 n = 98 from hne 98 (by decide) hb),
      if_neg (show ¬BitVec.ofNat 8 n = 99 from hne 99 (by decide) hc), BitVec.toNat_setWidth,
      BitVec.toNat_ofNat]
    omega
  · rintro ⟨selector, rfl⟩
    refine ⟨rawTagSize_lt selector, ?_⟩
    unfold rawTagSize
    split
    · decide
    split
    · decide
    split
    · decide
    · next ha hb hc =>
      have hlt := selector.isLt
      rw [BitVec.toNat_setWidth, Nat.mod_eq_of_lt (by omega)]
      refine ⟨fun h => ha ?_, fun h => hb ?_, fun h => hc ?_⟩ <;>
        exact BitVec.eq_of_toNat_eq h

/-- The raw tuple of a payload that ends in the tag. -/
theorem openArguments_of_payload {header : OpenHeader}
    {associatedData ciphertext suppliedTag : List U8}
    (hpayload : header.payload = associatedData ++ ciphertext ++ suppliedTag)
    (hselector : (rawTagSize header.tagSelector).toNat = suppliedTag.length)
    (hhint : header.splitHint = BitVec.ofNat 16 associatedData.length)
    (had : associatedData.length < 2 ^ 16) (h : header.payload.length < 2 ^ 63) :
    openArguments header = .ok ⟨header.keys, associatedData, ciphertext, suppliedTag⟩ := by
  have hcopied : copiedTagSize header = suppliedTag.length := by
    unfold copiedTagSize
    rw [hselector, hpayload, List.length_append]
    omega
  have hfront : header.payload.length - suppliedTag.length
      = (associatedData ++ ciphertext).length := by
    rw [hpayload, @List.length_append _ (associatedData ++ ciphertext)]
    omega
  have hbody : tupleBody header = associatedData ++ ciphertext := by
    unfold tupleBody
    rw [hcopied, hfront, hpayload, List.take_left]
  have hsplit : splitAt header.splitHint (tupleBody header) = associatedData.length := by
    rw [hhint]
    apply splitAt_ofNat had
    rw [hbody, List.length_append]
    omega
  rw [openArguments_eq h, hsplit, hbody, List.take_left, List.drop_left, hcopied, hselector,
    hfront, hpayload, List.drop_left, Nat.sub_self]
  rfl

/-- The bounds of a raw tuple. -/
theorem bounds_openArguments {data : List U8} (h : data.length < 2 ^ 63)
    {arguments : OpenArguments} (ha : openArguments (openHeader data) = .ok arguments) :
    arguments.associatedData.length < 2 ^ 16 ∧
      92 + arguments.associatedData.length + arguments.ciphertext.length
        + arguments.suppliedTag.length < 2 ^ 63 := by
  have hlen : (openHeader data).payload.length < 2 ^ 63 := by
    rw [payload_openHeader, List.length_drop]
    omega
  have hpayload : (openHeader data).payload.length = data.length - 92 := by
    rw [payload_openHeader, List.length_drop]
  have htag := length_suppliedTag hlen ha
  have hraw := rawTagSize_lt (openHeader data).tagSelector
  rw [openArguments_eq hlen] at ha
  generalize openHeader data = header at *
  have hhint := header.splitHint.isLt
  have hsplit : splitAt header.splitHint (tupleBody header) ≤ header.splitHint.toNat :=
    Nat.mod_le _ _
  have hbody : (tupleBody header).length = header.payload.length - copiedTagSize header := by
    unfold tupleBody
    rw [List.length_take]
    omega
  have hcopied : copiedTagSize header = header.payload.length
      ∨ copiedTagSize header = (rawTagSize header.tagSelector).toNat := min_choice _ _
  cases ha
  dsimp only at htag ⊢
  rw [htag, List.length_take, List.length_drop]
  constructor
  · omega
  · omega

/-- The bounds of a text that is sealed. -/
theorem bounds_sealArguments {data : List U8} (h : data.length < 2 ^ 63)
    {arguments : SealArguments} (ha : sealArguments data = .ok arguments) :
    (∃ tagSize : TagSize, tagSize.Supported ∧ arguments.profiles = ⟨tagSize, tagSize⟩) ∧
      arguments.associatedData.length < 2 ^ 16 ∧
      91 + arguments.associatedData.length + arguments.plaintext.length < 2 ^ 63 := by
  have hlt := (InputReader.start data).takeByte.2.takeU16Be.1.isLt
  have hsplit : splitAt (InputReader.start data).takeByte.2.takeU16Be.1 (data.drop 91)
      ≤ (InputReader.start data).takeByte.2.takeU16Be.1.toNat := Nat.mod_le _ _
  have hpayload : (data.drop 91).length = data.length - 91 := List.length_drop
  rw [sealArguments_eq h] at ha
  cases ha
  refine ⟨⟨_, supported_selectTagProfile _, selectTagProfiles_eq _⟩, ?_, ?_⟩
  · rw [List.length_take]
    omega
  · rw [List.length_take, @List.length_drop _ _ (data.drop 91)]
    omega

/-- Every text within the bounds is sealed: the hint names the length of its associated data. -/
theorem exists_sealInput {tagSize : TagSize} (ht : tagSize.Supported) (keys : FuzzKeys)
    {associatedData plaintext : List U8} (had : associatedData.length < 2 ^ 16)
    (hlen : 91 + associatedData.length + plaintext.length < 2 ^ 63) :
    ∃ data, data.length < 2 ^ 63 ∧
      sealArguments data = .ok ⟨⟨tagSize, tagSize⟩, keys, associatedData, plaintext⟩ := by
  obtain ⟨selector, hselector⟩ := exists_selector ht
  have hpayload : (associatedData ++ plaintext).length
      = associatedData.length + plaintext.length := List.length_append
  refine ⟨sealInput selector (BitVec.ofNat 16 associatedData.length) keys
    (associatedData ++ plaintext), ?_, ?_⟩
  · rw [length_sealInput, hpayload]
    omega
  · rw [sealArguments_sealInput _ _ _ (by omega), splitAt_ofNat had (by omega), hselector,
      List.take_left, List.drop_left]

/-- Every tuple within the bounds is opened: the tag is the end of the payload. -/
theorem exists_openInput (keys : FuzzKeys) {associatedData ciphertext suppliedTag : List U8}
    (htag : RawTagLength suppliedTag.length) (had : associatedData.length < 2 ^ 16)
    (hlen : 92 + associatedData.length + ciphertext.length + suppliedTag.length < 2 ^ 63) :
    ∃ data, data.length < 2 ^ 63 ∧ (openHeader data).mode &&& 1 = 0 ∧
      openArguments (openHeader data) = .ok ⟨keys, associatedData, ciphertext, suppliedTag⟩ := by
  obtain ⟨selector, hselector⟩ := (rawTagLength_iff _).mp htag
  have hpayload : (associatedData ++ ciphertext ++ suppliedTag).length
      = associatedData.length + ciphertext.length + suppliedTag.length := by
    rw [List.length_append, List.length_append]
  refine ⟨openInput ⟨0, selector, BitVec.ofNat 16 associatedData.length, keys,
    associatedData ++ ciphertext ++ suppliedTag⟩, ?_, ?_, ?_⟩
  · rw [length_openInput]
    show 92 + (associatedData ++ ciphertext ++ suppliedTag).length < 2 ^ 63
    omega
  · rw [openHeader_openInput]
    exact BitVec.zero_and
  · rw [openHeader_openInput]
    exact openArguments_of_payload rfl hselector rfl had (by dsimp only; omega)

/-- **What the targets reach**: the arguments of the two `seal` calls are those with a supported
profile and associated data shorter than 64 KiB, and the raw tuples of the two `open` calls
those whose tag, moreover, has a length that a selector can ask for: any length below 256
except 97, 98 and 99. -/
theorem fuzz_targets_reach :
    (∀ arguments : SealArguments,
      (∃ data, data.length < 2 ^ 63 ∧ sealArguments data = .ok arguments) ↔
        (∃ tagSize : TagSize, tagSize.Supported ∧ arguments.profiles = ⟨tagSize, tagSize⟩) ∧
        arguments.associatedData.length < 2 ^ 16 ∧
        91 + arguments.associatedData.length + arguments.plaintext.length < 2 ^ 63) ∧
      ∀ arguments : OpenArguments,
        (∃ data, data.length < 2 ^ 63 ∧ (openHeader data).mode &&& 1 = 0 ∧
          openArguments (openHeader data) = .ok arguments) ↔
        RawTagLength arguments.suppliedTag.length ∧
        arguments.associatedData.length < 2 ^ 16 ∧
        (92 + arguments.associatedData.length + arguments.ciphertext.length
            + arguments.suppliedTag.length < 2 ^ 63) := by
  constructor
  · rintro ⟨profiles, keys, associatedData, plaintext⟩
    constructor
    · rintro ⟨data, h, ha⟩
      exact bounds_sealArguments h ha
    · rintro ⟨⟨tagSize, ht, rfl⟩, had, hlen⟩
      exact exists_sealInput ht keys had hlen
  · rintro ⟨keys, associatedData, ciphertext, suppliedTag⟩
    constructor
    · rintro ⟨data, h, -, ha⟩
      have hlen : (openHeader data).payload.length < 2 ^ 63 := by
        rw [payload_openHeader, List.length_drop]
        omega
      exact ⟨(rawTagLength_iff _).mpr ⟨_, (length_suppliedTag hlen ha).symm⟩,
        bounds_openArguments h ha⟩
    · rintro ⟨htag, had, hlen⟩
      exact exists_openInput keys htag had hlen
