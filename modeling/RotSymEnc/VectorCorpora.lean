/-
# The vector corpora

The generator writes a line of comma-separated hexadecimal fields for every test vector, and two
consumers check such files, one for each implementation.  What the generator writes passes both;
and of every file, the consumers think alike: it passes where its lines are 48 vectors that `seal`
reproduces.
-/
import RotSymEnc.DelimitedText
import RotSymEnc.HexReaders
import RotSymEnc.FuzzTargets
import RotSymEnc.ProfileCommand

open StatefulRuns HexReaders DelimitedText

namespace VectorCorpora

open ProfileCommand (ProgramRun)

/-! ## The generator -/

/-- A line of a corpus without its outcome. -/
structure TestCase : Type where
  keys : PvcAead0.KeyPair512
  nonce : Nonce192
  tagSize : TagSize
  associatedData : List U8
  plaintext : List U8

/-- `next`. -/
def next (state : U64) : U64 :=
  let state := state ^^^ (state <<< 13)
  let state := state ^^^ (state >>> 7)
  state ^^^ (state <<< 17)

/-- `next_byte`. -/
def nextByte : StateM U64 U8 := do
  modify next
  return u8 ((← get) >>> 56)

/-- `array_bytes`. -/
def arrayBytes (n : ℕ) : StateM U64 (Vector U8 n) :=
  (Vector.replicate n (0 : U8)).mapM fun _ => nextByte

/-- `vector_bytes`. -/
def vectorBytes (size : ℕ) : StateM U64 (List U8) :=
  (List.replicate size (0 : U8)).mapM fun _ => nextByte

/-- `tag_for`. -/
def tagFor (index : ℕ) : TagSize :=
  match index % 3 with
  | 0 => .bits128
  | 1 => .bits192
  | _ => .bits256

/-- `lengths`. -/
def lengths : Vector ℕ 16 := #v[0, 1, 2, 3, 7, 15, 16, 17, 31, 32, 33, 47, 63, 64, 65, 97]

/-- The case of a pass of the loop in `main`. -/
def generateCase (i : ℕ) : StateM U64 TestCase := do
  let encryptionKey ← arrayBytes 32
  let authenticationKey ← arrayBytes 32
  let nonce ← arrayBytes 24
  let tagSize := tagFor i
  let ad ← vectorBytes (lengths.get (Fin.ofNat 16 i) / 2)
  let plaintext ← vectorBytes (lengths.get (Fin.ofNat 16 (i * 5)))
  return ⟨⟨encryptionKey, authenticationKey⟩, nonce, tagSize, ad, plaintext⟩

/-- `std::ostream << std::size_t`. -/
def decimal (n : ℕ) : Text := text n.repr

/-- The line of a case. -/
def row (id : Text) (c : TestCase) (sealed : SealedMessage) : Text :=
  id ++ text "," ++ toHex c.keys.encryptionKey.toList ++ text ","
    ++ toHex c.keys.authenticationKey.toList ++ text "," ++ toHex c.nonce.toList ++ text ","
    ++ decimal ((tagSizeBytes c.tagSize).toNat * 8) ++ text "," ++ toHex c.associatedData
    ++ text "," ++ toHex c.plaintext ++ text "," ++ toHex sealed.ciphertext ++ text ","
    ++ toHex sealed.tag ++ text "\n"

/-- The first line of the file. -/
def header : Text :=
  text "id,enc_key,mac_key,nonce,tag_bits,associated_data,plaintext,ciphertext,tag\n"

/-- `seal` of the reference implementation on a case. -/
def sealCase (c : TestCase) : Except Fault SealedMessage :=
  (PvcAead0.sealMessage c.keys c.nonce c.associatedData c.plaintext c.tagSize).returned

/-- A pass of the loop in `main`: the state of the generator, and the file so far. -/
def writeStep (written : U64 × Text) (i : ℕ) : Except Fault (U64 × Text) := do
  let (c, state) := (generateCase i).run written.1
  let sealed ← sealCase c
  return (state, written.2 ++ row (text "V" ++ decimal (i + 1)) c sealed)

/-- The file that `main` of the generator writes. -/
def generate : Except Fault Text := do
  let written ← (List.range 48).foldlM writeStep (0x5056434145414430, header)
  return written.2

/-! ## The consumers -/

/-- What the two consumers do not have in common: the implementation they check, and their texts. -/
structure Consumer : Type where
  sealWith : PvcAead0.KeyPair512 → Nonce192 → List U8 → List U8 → TagSize →
    Except Fault SealedMessage
  openWith : PvcAead0.KeyPair512 → Nonce192 → List U8 → List U8 → List U8 →
    Except Fault (Option (List U8))
  mismatch : String
  openMismatch : String
  success : ℕ → Text
  failure : Text

/-- `vector_corpus.cpp`. -/
def reference : Consumer where
  sealWith keys nonce ad plaintext tagSize :=
    (PvcAead0.sealMessage keys nonce ad plaintext tagSize).returned
  openWith keys nonce ad ciphertext tag :=
    (PvcAead0.openMessage keys nonce ad ciphertext tag).returned
  mismatch := "vector mismatch: "
  openMismatch := "open mismatch: "
  success count := text "vectors=" ++ decimal count ++ text " status=ok\n"
  failure := []

/-- `independent_vector_corpus.cpp`. -/
def independent : Consumer where
  sealWith keys nonce ad plaintext tagSize :=
    (PvcAead0Independent.sealMessage (PvcAead0Independent.ofReference keys) nonce ad plaintext
      tagSize).returned
  openWith keys nonce ad ciphertext tag :=
    (PvcAead0Independent.openMessage (PvcAead0Independent.ofReference keys) nonce ad ciphertext
      tag).returned
  mismatch := "independent vector mismatch: "
  openMismatch := "independent open mismatch: "
  success _ := text "PASS independent implementation: 48/48 PVC-AEAD-0 vectors\n"
  failure := text "FAIL "

/-- The exceptions of `nibble` and `unhex`. -/
def invalidHex : Fault := .thrown .invalidArgument "invalid hex"

/-- `nibble`. -/
def nibble (c : U8) : Except Fault U8 :=
  if 48 ≤ c.toInt ∧ c.toInt ≤ 57 then .ok (c - 48)
  else
    let c := tolower c
    if 97 ≤ c.toInt ∧ c.toInt ≤ 102 then .ok (10 + c - 97)
    else .error invalidHex

/-- `unhex`. -/
def unhex (value : Text) : Except Fault (List U8) :=
  readHex nibble (.thrown .invalidArgument "odd hex") value

/-- `fixed`. -/
def fixed (n : ℕ) (value : Text) : Except Fault (Vector U8 n) := do
  let parsed ← unhex value
  if h : parsed.toArray.size = n then return ⟨parsed.toArray, h⟩
  else throw (.thrown .invalidArgument "fixed hex length mismatch")

/-- `split`. -/
def split (line : Text) : List Text := splitFields 44 line

/-- `parse_tag`. -/
def parseTag (bits : Text) : Except Fault TagSize :=
  if bits = text "128" then .ok .bits128
  else if bits = text "192" then .ok .bits192
  else if bits = text "256" then .ok .bits256
  else .error (.thrown .invalidArgument "invalid tag bits")

/-- A line of a corpus: the case with its outcome. -/
structure Entry : Type where
  id : Text
  case : TestCase
  expected : SealedMessage

/-- The fields of a line, read in their order. -/
def parseLine (line : Text) : Except Fault Entry :=
  match split line with
  | [id, encKey, macKey, nonce, tagBits, ad, plaintext, ciphertext, tag] => do
    let encryptionKey ← fixed 32 encKey
    let authenticationKey ← fixed 32 macKey
    let nonce ← fixed 24 nonce
    let tagSize ← parseTag tagBits
    let ad ← unhex ad
    let plaintext ← unhex plaintext
    let ciphertext ← unhex ciphertext
    let tag ← unhex tag
    return ⟨id, ⟨⟨encryptionKey, authenticationKey⟩, nonce, tagSize, ad, plaintext⟩,
      ⟨ciphertext, tag⟩⟩
  | _ => throw (.thrown .runtimeError "vector field count mismatch")

/-- The second check of a line: what was sealed is opened. -/
def checkOpened (consumer : Consumer) (e : Entry) (sealed : SealedMessage) :
    Except Fault PUnit := do
  let opened ← consumer.openWith e.case.keys e.case.nonce e.case.associatedData sealed.ciphertext
    sealed.tag
  if opened = some e.case.plaintext then return ()
  else throw (.thrown .runtimeError (consumer.openMismatch ++ showText e.id))

/-- The checks of a line: it is sealed as it says, and opened again. -/
def checkEntry (consumer : Consumer) (e : Entry) : Except Fault PUnit := do
  let sealed ← consumer.sealWith e.case.keys e.case.nonce e.case.associatedData e.case.plaintext
    e.case.tagSize
  if sealed.ciphertext ≠ e.expected.ciphertext ∨ sealed.tag ≠ e.expected.tag then
    throw (.thrown .runtimeError (consumer.mismatch ++ showText e.id))
  else checkOpened consumer e sealed

/-- A pass of the loop over the lines: empty ones are skipped, the others counted. -/
def checkLine (consumer : Consumer) (count : ℕ) (line : Text) : Except Fault ℕ :=
  if line.isEmpty then .ok count
  else do
    checkEntry consumer (← parseLine line)
    return count + 1

/-- The loop over the lines behind the first one. -/
def countVectors (consumer : Consumer) (contents : Text) : Except Fault ℕ :=
  ((getlines 10 contents).drop 1).foldlM (checkLine consumer) 0

/-- The check of a whole file. -/
def consume (consumer : Consumer) (contents : Text) : Except Fault ℕ := do
  let count ← countVectors consumer contents
  if count ≠ 48 then throw (.thrown .runtimeError "expected 48 vectors")
  else return count

/-- The check of the file that the argument names, if it can be opened. -/
def checked (consumer : Consumer) : Option Text → Except Fault ℕ
  | none => .error (.thrown .runtimeError "cannot open vector corpus")
  | some contents => consume consumer contents

/-- What `main` shows of a check: a thrown exception is printed, and ends with the status 1. -/
def shown (consumer : Consumer) : Except Fault ℕ → Except Fault ProgramRun
  | .ok count => .ok ⟨consumer.success count, [], 0⟩
  | .error (.thrown _ what) => .ok ⟨[], consumer.failure ++ text what ++ text "\n", 1⟩
  | .error fault => .error fault

/-- `main` of a consumer. -/
def main (consumer : Consumer) (argv : List Text) (file : Option Text) : Except Fault ProgramRun :=
  if argv.length ≠ 2 then .ok ⟨[], [], 2⟩ else shown consumer (checked consumer file)

/-! ## Fields -/

theorem nibble_takesDigits : TakesDigits nibble invalidHex := by
  unfold TakesDigits
  decide +kernel

theorem unhex_toHex (bytes : List U8) : unhex (toHex bytes) = .ok bytes :=
  readHex_toHex (by decide) nibble_takesDigits _ bytes

/-- The bytes of a field are fewer than its characters. -/
theorem length_le_of_unhex {value : Text} {bytes : List U8} (h : unhex value = .ok bytes) :
    bytes.length ≤ value.length := by
  obtain ⟨-, rfl⟩ := (readHex_eq_ok_iff (by decide) nibble_takesDigits value bytes).mp h
  rw [length_hexBytes]
  exact Nat.div_le_self _ _

theorem fixed_toHex {n : ℕ} (v : Vector U8 n) : fixed n (toHex v.toList) = .ok v := by
  have hlength : v.toList.toArray.size = n := Vector.length_toList
  unfold fixed
  rw [unhex_toHex, except_ok_bind, dif_pos hlength]
  congr 1

theorem parseTag_decimal {tagSize : TagSize} (h : tagSize.Supported) :
    parseTag (decimal ((tagSizeBytes tagSize).toNat * 8)) = .ok tagSize := by
  rcases h with rfl | rfl | rfl <;> decide +kernel

/-- A field without a comma and a newline in it. -/
def Plain (field : Text) : Prop := 44 ∉ field ∧ 10 ∉ field

theorem plain_toHex (bytes : List U8) : Plain (toHex bytes) := by
  have hdigit : ∀ c : U8, IsHexDigit c → c ≠ 44 ∧ c ≠ 10 := by decide +kernel
  have hall := (isHexText_toHex bytes).2
  exact ⟨fun h => (hdigit _ (hall _ h)).1 rfl, fun h => (hdigit _ (hall _ h)).2 rfl⟩

theorem plain_decimal (n : ℕ) : Plain (decimal n) := by
  have hdigit : ∀ c ∈ decimal n, 48 ≤ c.toNat ∧ c.toNat ≤ 57 := by
    intro c hc
    unfold decimal text at hc
    rw [Nat.toList_repr] at hc
    obtain ⟨d, hd, rfl⟩ := List.mem_map.mp hc
    have hisDigit := Nat.isDigit_of_mem_toDigits (by decide) (by decide) hd
    rw [Char.isDigit_iff_toNat] at hisDigit
    change 48 ≤ d.toNat ∧ d.toNat ≤ 57 at hisDigit
    rw [BitVec.toNat_ofNat]
    omega
  exact ⟨fun h => absurd (hdigit _ h) (by decide), fun h => absurd (hdigit _ h) (by decide)⟩

/-- The fields of a line. -/
def fieldsOf (e : Entry) : List Text :=
  [e.id, toHex e.case.keys.encryptionKey.toList, toHex e.case.keys.authenticationKey.toList,
    toHex e.case.nonce.toList, decimal ((tagSizeBytes e.case.tagSize).toNat * 8),
    toHex e.case.associatedData, toHex e.case.plaintext, toHex e.expected.ciphertext,
    toHex e.expected.tag]

/-- A written line is its fields, joined, and a newline. -/
theorem row_eq (e : Entry) :
    row e.id e.case e.expected = joinFields 44 (fieldsOf e) ++ [10] := by
  have hcomma : text "," = [44] := by decide
  have hnewline : text "\n" = [10] := by decide
  unfold row fieldsOf
  simp only [hcomma, hnewline, joinFields, List.append_assoc, List.cons_append, List.nil_append]

theorem plain_fieldsOf {e : Entry} (hid : Plain e.id) : ∀ field ∈ fieldsOf e, Plain field := by
  unfold fieldsOf
  simp only [List.forall_mem_cons, List.not_mem_nil, false_implies, implies_true, and_true]
  exact ⟨hid, plain_toHex _, plain_toHex _, plain_toHex _, plain_decimal _, plain_toHex _,
    plain_toHex _, plain_toHex _, plain_toHex _⟩

/-- **What is written on a line is read from it.** -/
theorem parseLine_joinFields {e : Entry} (hid : Plain e.id) (htag : e.case.tagSize.Supported) :
    parseLine (joinFields 44 (fieldsOf e)) = .ok e := by
  have hsplit : split (joinFields 44 (fieldsOf e)) = fieldsOf e :=
    splitFields_joinFields (fun field hfield => (plain_fieldsOf hid field hfield).1)
      (by simp [fieldsOf, joinFields])
  unfold parseLine
  rw [hsplit]
  unfold fieldsOf
  dsimp only
  rw [fixed_toHex, except_ok_bind, fixed_toHex, except_ok_bind, fixed_toHex, except_ok_bind,
    parseTag_decimal htag, except_ok_bind, unhex_toHex, except_ok_bind, unhex_toHex, except_ok_bind,
    unhex_toHex, except_ok_bind, unhex_toHex, except_ok_bind]
  rfl

/-! ## Files -/

/-- The file with these lines. -/
def writeEntries (entries : List Entry) : Text :=
  header ++ entries.flatMap fun e => row e.id e.case e.expected

/-- The lines that are checked. -/
def vectorLines (contents : Text) : List Text :=
  ((getlines 10 contents).drop 1).filter fun line => !line.isEmpty

/-- The lines of a written file. -/
theorem getlines_writeEntries {entries : List Entry} (hid : ∀ e ∈ entries, Plain e.id) :
    (getlines 10 (writeEntries entries)).drop 1
      = entries.map fun e => joinFields 44 (fieldsOf e) := by
  -- the header is a line like the others
  have hheader : ∃ first : Text, header = first ++ [10] ∧ 10 ∉ first :=
    ⟨text "id,enc_key,mac_key,nonce,tag_bits,associated_data,plaintext,ciphertext,tag",
      by decide +kernel, by decide +kernel⟩
  obtain ⟨first, hfirst, hplain⟩ := hheader
  have hfile : writeEntries entries
      = putlines 10 (first :: entries.map fun e => joinFields 44 (fieldsOf e)) := by
    unfold writeEntries putlines
    rw [hfirst, List.flatMap_cons, List.flatMap_map]
    exact congrArg (fun line => first ++ [10] ++ entries.flatMap line) (funext row_eq)
  rw [hfile, getlines_putlines]
  · rfl
  · rw [List.forall_mem_cons]
    refine ⟨hplain, fun line hline => ?_⟩
    obtain ⟨e, he, rfl⟩ := List.mem_map.mp hline
    exact not_mem_joinFields (by decide) fun field hfield =>
      (plain_fieldsOf (hid e he) field hfield).2

/-- **The loop over the lines** counts those that are not empty, and all of these are right. -/
theorem foldlM_checkLine_iff (consumer : Consumer) (lines : List Text) (count n : ℕ) :
    lines.foldlM (checkLine consumer) count = .ok n ↔
      n = count + (lines.filter fun line => !line.isEmpty).length ∧
      ∀ line ∈ lines.filter fun line => !line.isEmpty,
        ∃ e, parseLine line = .ok e ∧ checkEntry consumer e = .ok () := by
  -- on the lines, over every count that the loop may have reached
  induction lines generalizing count with
  | nil =>
    constructor
    · intro h
      exact ⟨(Except.ok.inj h).symm, List.forall_mem_nil _⟩
    · rintro ⟨rfl, -⟩
      rfl
  | cons line lines ih =>
    rw [List.foldlM_cons, List.filter_cons]
    by_cases hempty : line.isEmpty = true
    · have hskip : checkLine consumer count line = .ok count := by
        unfold checkLine
        rw [if_pos hempty]
      rw [hskip, except_ok_bind, ih, hempty]
      exact Iff.rfl
    -- a line that is not empty is read and checked, then counted
    · have hcheck : checkLine consumer count line
          = parseLine line >>= fun e => checkEntry consumer e >>= fun _ => .ok (count + 1) := by
        unfold checkLine
        rw [if_neg hempty]
        rfl
      rw [hcheck, Bool.not_eq_true _ |>.mp hempty]
      show _ ↔ n = count + (line :: lines.filter _).length ∧ ∀ l ∈ line :: lines.filter _, _
      rw [List.length_cons, List.forall_mem_cons]
      constructor
      · intro h
        obtain ⟨next, hnext, hrest⟩ := exists_of_except_bind h
        obtain ⟨e, he, hnext⟩ := exists_of_except_bind hnext
        obtain ⟨⟨⟩, hchecked, hnext⟩ := exists_of_except_bind hnext
        obtain rfl := Except.ok.inj hnext
        obtain ⟨hn, hall⟩ := (ih (count + 1)).mp hrest
        exact ⟨by omega, ⟨e, he, hchecked⟩, hall⟩
      · rintro ⟨hn, ⟨e, he, hchecked⟩, hall⟩
        rw [he, except_ok_bind, hchecked, except_ok_bind, except_ok_bind, ih (count + 1)]
        exact ⟨by omega, hall⟩

/-! ## Checks -/

/-- What the second of two runs with one outcome returns, the first returns. -/
theorem returned_iff_of_sameClass {α : Type} {x y : PrfRun α} (h : SameClass x y) (a : α) :
    x.returned = .ok a ↔ y.returned = .ok a := by
  have hback : SameClass y x := by
    intro calls
    rcases h calls with ⟨b, calls', hx, hy⟩ | ⟨e, e', calls', hx, hy, hcls⟩
    · exact .inl ⟨b, calls', hy, hx⟩
    · exact .inr ⟨e', e, calls', hy, hx, hcls.symm⟩
  exact ⟨returned_of_sameClass h, returned_of_sameClass hback⟩

/-- **What the reference implementation seals, it opens.** -/
theorem opened_of_sealCase {c : TestCase} (had : c.associatedData.length < 2 ^ 63)
    (hpt : c.plaintext.length < 2 ^ 63) {sealed : SealedMessage} (h : sealCase c = .ok sealed) :
    sealed.ciphertext.length = c.plaintext.length ∧
      (PvcAead0.openMessage c.keys c.nonce c.associatedData sealed.ciphertext sealed.tag).returned
        = .ok (some c.plaintext) := by
  -- the profile of RotSymEnc returns the same, and its `open` undoes its `seal`
  have hprofile : (PvcRotSymEnc1.sealMessage ⟨c.keys.encryptionKey, c.keys.authenticationKey⟩
      c.nonce c.associatedData c.plaintext c.tagSize).returned = .ok sealed :=
    (returned_iff_of_sameClass
      (PvcRotSymEnc1.sealMessage_agree _ _ _ (by omega) _) sealed).mpr h
  obtain ⟨hsupported, hfits, -⟩ := (PvcRotSymEnc1.sealMessage_returned_iff _ _ (by omega) (by omega)
    sealed).mp hprofile
  obtain ⟨sealed', hsealed, hopened⟩ := PvcRotSymEnc1.exists_sealed hsupported
    ⟨c.keys.encryptionKey, c.keys.authenticationKey⟩ c.nonce hfits
  obtain rfl : sealed' = sealed := Except.ok.inj (hsealed.symm.trans hprofile)
  exact ⟨(PvcRotSymEnc1.length_sealed (by omega) (by omega) hprofile).1, hopened⟩

/-- What the checks rely on: the implementation seals as the reference does, and opens what it
sealed. -/
structure Consumer.Faithful (consumer : Consumer) : Prop where
  seals : ∀ c : TestCase, c.associatedData.length < 2 ^ 63 → c.plaintext.length < 2 ^ 63 →
    ∀ sealed, consumer.sealWith c.keys c.nonce c.associatedData c.plaintext c.tagSize = .ok sealed ↔
      sealCase c = .ok sealed
  opens : ∀ c : TestCase, c.associatedData.length < 2 ^ 63 → c.plaintext.length < 2 ^ 63 →
    ∀ sealed, sealCase c = .ok sealed →
      consumer.openWith c.keys c.nonce c.associatedData sealed.ciphertext sealed.tag
        = .ok (some c.plaintext)

theorem reference_faithful : reference.Faithful where
  seals _ _ _ _ := Iff.rfl
  opens _ had hpt _ h := (opened_of_sealCase had hpt h).2

theorem independent_faithful : independent.Faithful where
  seals c had hpt sealed :=
    (returned_iff_of_sameClass (PvcAead0Independent.sealMessage_agree c.keys c.nonce had hpt
      c.tagSize) sealed).symm
  opens c had hpt sealed h := by
    obtain ⟨hlength, hopened⟩ := opened_of_sealCase had hpt h
    exact returned_of_sameClass (PvcAead0Independent.openMessage_agree c.keys c.nonce had
      (hlength ▸ hpt) sealed.tag) hopened

theorem faithful_of_mem {consumer : Consumer} (h : consumer ∈ [reference, independent]) :
    consumer.Faithful := by
  rcases List.mem_pair.mp h with rfl | rfl
  · exact reference_faithful
  · exact independent_faithful

/-- **A line passes** where `seal` gives its outcome. -/
theorem checkEntry_iff {consumer : Consumer} (hconsumer : consumer.Faithful) {e : Entry}
    (had : e.case.associatedData.length < 2 ^ 63) (hpt : e.case.plaintext.length < 2 ^ 63) :
    checkEntry consumer e = .ok () ↔ sealCase e.case = .ok e.expected := by
  unfold checkEntry
  constructor
  · intro h
    obtain ⟨sealed, hsealed, h⟩ := exists_of_except_bind h
    split_ifs at h with hdiffers
    have hequal : sealed = e.expected := by
      obtain ⟨hciphertext, htag⟩ := not_or.mp hdiffers
      exact congrArg₂ SealedMessage.mk (not_not.mp hciphertext) (not_not.mp htag)
    exact (hconsumer.seals e.case had hpt e.expected).mp (hequal ▸ hsealed)
  · intro h
    rw [(hconsumer.seals e.case had hpt e.expected).mpr h, except_ok_bind,
      if_neg (not_or.mpr ⟨not_not.mpr rfl, not_not.mpr rfl⟩)]
    unfold checkOpened
    rw [hconsumer.opens e.case had hpt e.expected h, except_ok_bind, if_pos rfl]
    rfl

/-- The texts of a line are not longer than the line. -/
theorem sizes_of_parseLine {line : Text} {e : Entry} (h : parseLine line = .ok e) :
    e.case.associatedData.length ≤ line.length ∧ e.case.plaintext.length ≤ line.length := by
  -- of the nine fields only the two texts matter here
  have hfield : ∀ field ∈ split line, field.length ≤ line.length :=
    fun field => length_le_of_mem_splitFields
  unfold parseLine at h
  split at h
  · next id encKey macKey nonce tagBits ad plaintext ciphertext tag hfields =>
    obtain ⟨encryptionKey, -, h⟩ := exists_of_except_bind h
    obtain ⟨authenticationKey, -, h⟩ := exists_of_except_bind h
    obtain ⟨nonce', -, h⟩ := exists_of_except_bind h
    obtain ⟨tagSize, -, h⟩ := exists_of_except_bind h
    obtain ⟨ad', had, h⟩ := exists_of_except_bind h
    obtain ⟨plaintext', hplaintext, h⟩ := exists_of_except_bind h
    obtain ⟨ciphertext', -, h⟩ := exists_of_except_bind h
    obtain ⟨tag', -, h⟩ := exists_of_except_bind h
    obtain rfl := Except.ok.inj h
    rw [hfields] at hfield
    exact ⟨(length_le_of_unhex had).trans (hfield ad (by simp)),
      (length_le_of_unhex hplaintext).trans (hfield plaintext (by simp))⟩
  · cases h

/-- A line that is right: it can be read, and is sealed as it says. -/
def Right (line : Text) : Prop := ∃ e, parseLine line = .ok e ∧ sealCase e.case = .ok e.expected

/-- **A file passes** where its lines are 48 vectors that `seal` reproduces. -/
theorem consume_iff {consumer : Consumer} (hconsumer : consumer.Faithful) {contents : Text}
    (hlength : contents.length < 2 ^ 63) (count : ℕ) :
    consume consumer contents = .ok count ↔
      count = 48 ∧ (vectorLines contents).length = 48 ∧
        ∀ line ∈ vectorLines contents, Right line := by
  -- a line is not longer than the file, so its texts fit
  have hline : ∀ line ∈ vectorLines contents,
      (∃ e, parseLine line = .ok e ∧ checkEntry consumer e = .ok ()) ↔ Right line := by
    intro line hline
    have hmem : line ∈ getlines 10 contents :=
      List.mem_of_mem_drop (List.mem_filter.mp hline).1
    have hshort := length_le_of_mem_getlines hmem
    refine exists_congr fun e => and_congr_right fun he => ?_
    obtain ⟨had, hpt⟩ := sizes_of_parseLine he
    exact checkEntry_iff hconsumer (by omega) (by omega)
  have hcount : ∀ n, countVectors consumer contents = .ok n ↔
      n = (vectorLines contents).length ∧ ∀ line ∈ vectorLines contents, Right line := by
    intro n
    unfold countVectors
    rw [foldlM_checkLine_iff, Nat.zero_add]
    exact and_congr_right fun _ => forall₂_congr hline
  unfold consume
  constructor
  · intro h
    obtain ⟨n, hn, h⟩ := exists_of_except_bind h
    obtain ⟨hlines, hright⟩ := (hcount n).mp hn
    split_ifs at h with h48
    obtain rfl : n = count := Except.ok.inj h
    exact ⟨not_not.mp h48, hlines ▸ not_not.mp h48, hright⟩
  · rintro ⟨rfl, hlines, hright⟩
    rw [(hcount 48).mpr ⟨hlines.symm, hright⟩, except_ok_bind, if_neg (not_not.mpr rfl)]
    rfl

/-- A consumer ends with the status 0 where the file passes. -/
theorem main_status_iff {consumer : Consumer} (program path contents : Text) :
    (∃ run, main consumer [program, path] (some contents) = .ok run ∧ run.status = 0) ↔
      ∃ count, consume consumer contents = .ok count := by
  show (∃ run, shown consumer (consume consumer contents) = .ok run ∧ run.status = 0) ↔ _
  cases consume consumer contents with
  | ok count => exact ⟨fun _ => ⟨count, rfl⟩, fun _ => ⟨_, rfl, rfl⟩⟩
  | error fault =>
    constructor
    · rintro ⟨run, hrun, hstatus⟩
      cases fault with
      -- an exception is shown with the status 1
      | thrown cls what =>
        obtain rfl := Except.ok.inj hrun
        cases hstatus
      | badAccess => cases hrun
      | badEnumerator => cases hrun
    · rintro ⟨count, hcount⟩
      cases hcount

/-! ## Written files -/

/-- An entry that the generator may write. -/
structure Entry.Valid (e : Entry) : Prop where
  plain : Plain e.id
  ad_length : e.case.associatedData.length < 2 ^ 63
  plaintext_length : e.case.plaintext.length < 2 ^ 63
  supported : e.case.tagSize.Supported
  outcome : sealCase e.case = .ok e.expected

/-- The lines of a written file are its entries. -/
theorem vectorLines_writeEntries {entries : List Entry} (hid : ∀ e ∈ entries, Plain e.id) :
    vectorLines (writeEntries entries) = entries.map fun e => joinFields 44 (fieldsOf e) := by
  unfold vectorLines
  rw [getlines_writeEntries hid, List.filter_eq_self]
  intro line hline
  obtain ⟨e, -, rfl⟩ := List.mem_map.mp hline
  simp [fieldsOf, joinFields]

/-- The line of a valid entry is right. -/
theorem Entry.Valid.right {e : Entry} (h : e.Valid) : Right (joinFields 44 (fieldsOf e)) :=
  ⟨e, parseLine_joinFields h.plain h.supported, h.outcome⟩

/-- **What is written passes**: all lines are counted. -/
theorem countVectors_writeEntries {consumer : Consumer} (hconsumer : consumer.Faithful)
    {entries : List Entry} (h : ∀ e ∈ entries, e.Valid) :
    countVectors consumer (writeEntries entries) = .ok entries.length := by
  have hlines := vectorLines_writeEntries fun e he => (h e he).plain
  unfold vectorLines at hlines
  unfold countVectors
  rw [foldlM_checkLine_iff, hlines, List.length_map, Nat.zero_add]
  refine ⟨rfl, fun line hline => ?_⟩
  obtain ⟨e, he, rfl⟩ := List.mem_map.mp hline
  obtain ⟨hplain, had, hpt, hsupported, houtcome⟩ := h e he
  exact ⟨e, parseLine_joinFields hplain hsupported, (checkEntry_iff hconsumer had hpt).mpr houtcome⟩

/-- A loop that draws from the generator draws as often as it passes. -/
theorem length_mapM {α β σ : Type} (f : α → StateM σ β) (l : List α) (state : σ) :
    ((l.mapM f).run state).1.length = l.length := by
  induction l generalizing state with
  | nil => rfl
  | cons a l ih =>
    rw [List.mapM_cons]
    exact congrArg (· + 1) (ih _)

/-- The cases of the generator are small, and their tag sizes supported. -/
theorem generateCase_small (i : ℕ) (state : U64) :
    ((generateCase i).run state).1.associatedData.length ≤ 97 ∧
      ((generateCase i).run state).1.plaintext.length ≤ 97 ∧
      ((generateCase i).run state).1.tagSize.Supported := by
  have hlengths : ∀ j : Fin 16, lengths.get j ≤ 97 := by decide
  have hbytes : ∀ size state, ((vectorBytes size).run state).1.length = size := by
    intro size state
    unfold vectorBytes
    rw [length_mapM, List.length_replicate]
  refine ⟨?_, ?_, ?_⟩
  · refine (hbytes (lengths.get (Fin.ofNat 16 i) / 2) _).le.trans ?_
    exact (Nat.div_le_self _ _).trans (hlengths _)
  · exact (hbytes (lengths.get (Fin.ofNat 16 (i * 5))) _).le.trans (hlengths _)
  · show (tagFor i).Supported
    unfold tagFor
    split <;> decide

/-- The identifier of a case, V and its number. -/
theorem plain_caseId (n : ℕ) : Plain (text "V" ++ decimal n) := by
  have hv : Plain (text "V") := by
    constructor <;> decide
  obtain ⟨hcomma, hnewline⟩ := plain_decimal n
  constructor
  · rw [List.mem_append]
    exact not_or.mpr ⟨hv.1, hcomma⟩
  · rw [List.mem_append]
    exact not_or.mpr ⟨hv.2, hnewline⟩

theorem writeEntries_append (entries : List Entry) (e : Entry) :
    writeEntries (entries ++ [e]) = writeEntries entries ++ row e.id e.case e.expected := by
  unfold writeEntries
  rw [List.flatMap_append, List.flatMap_singleton, List.append_assoc]

/-- The line of a small case is short. -/
theorem length_row_le {id : Text} {c : TestCase} {sealed : SealedMessage} (hid : id.length ≤ 3)
    (had : c.associatedData.length ≤ 97) (hpt : c.plaintext.length ≤ 97)
    (hsupported : c.tagSize.Supported) (hsealed : sealCase c = .ok sealed) :
    (row id c sealed).length ≤ 1024 := by
  obtain ⟨hct, -⟩ := opened_of_sealCase (by omega) (by omega) hsealed
  have htag : sealed.tag.length ≤ 32 := by
    have hrun := PvcAead0.sealMessage_run hsupported c.keys c.nonce
      (show 79 + c.associatedData.length + c.plaintext.length < 2 ^ 64 by omega) []
    obtain rfl := Except.ok.inj ((PrfRun.returned_of_ok hrun).symm.trans hsealed)
    rw [PvcAead0.sealedTag, PvcMac0.length_tagBytes _ _ hsupported]
    rcases hsupported with h | h | h <;> rw [h] <;> decide
  have hbits : (decimal ((tagSizeBytes c.tagSize).toNat * 8)).length = 3 := by
    rcases hsupported with h | h | h <;> rw [h] <;> decide +kernel
  have hcomma : (text ",").length = 1 := by decide
  have hnewline : (text "\n").length = 1 := by decide
  unfold row
  simp only [List.length_append, length_toHex, Vector.length_toList, hbits, hcomma, hnewline, hct]
  omega

/-- **The loop of the generator** writes a valid entry a pass, on a short line. -/
theorem writeSteps {n : ℕ} (hn : n ≤ 48) (seed : U64) : ∃ state entries,
    (List.range n).foldlM writeStep (seed, header) = .ok (state, writeEntries entries) ∧
      entries.length = n ∧ (∀ e ∈ entries, e.Valid) ∧
      (writeEntries entries).length ≤ header.length + n * 1024 := by
  -- the text so far is a file of valid entries
  induction n with
  | zero =>
    refine ⟨seed, [], ?_, rfl, List.forall_mem_nil _, by simp [writeEntries]⟩
    show Except.ok (seed, header) = Except.ok (seed, header ++ [])
    rw [List.append_nil]
  | succ n ih =>
    obtain ⟨state, entries, hrun, hlength, hvalid, hshort⟩ := ih (Nat.le_of_succ_le hn)
    have hnumber : ∀ k ≤ 48, (text "V" ++ decimal k).length ≤ 3 := by decide +kernel
    obtain ⟨had, hpt, hsupported⟩ := generateCase_small n state
    generalize hcase : (generateCase n).run state = drawn at had hpt hsupported
    obtain ⟨c, state'⟩ := drawn
    dsimp only at had hpt hsupported
    obtain ⟨sealed, hsealed⟩ : ∃ sealed, sealCase c = .ok sealed :=
      ⟨_, PrfRun.returned_of_ok
        (PvcAead0.sealMessage_run hsupported c.keys c.nonce (by omega) [])⟩
    refine ⟨state', entries ++ [⟨text "V" ++ decimal (n + 1), c, sealed⟩], ?_, ?_, ?_, ?_⟩
    · rw [List.range_succ, List.foldlM_append, hrun, except_ok_bind, List.foldlM_cons,
        writeEntries_append]
      unfold writeStep
      rw [hcase]
      dsimp only
      rw [hsealed]
      rfl
    · rw [List.length_append, hlength]
      rfl
    · intro e he
      rcases List.mem_append.mp he with he | he
      · exact hvalid e he
      · obtain rfl := List.mem_singleton.mp he
        have had' : c.associatedData.length < 2 ^ 63 := by omega
        have hpt' : c.plaintext.length < 2 ^ 63 := by omega
        exact ⟨plain_caseId (n + 1), had', hpt', hsupported, hsealed⟩
    · have hline := length_row_le (hnumber (n + 1) hn) had hpt hsupported hsealed
      rw [writeEntries_append, List.length_append, Nat.succ_mul, ← Nat.add_assoc]
      exact Nat.add_le_add hshort hline

/-- The file of the generator. -/
theorem exists_generated : ∃ entries, generate = .ok (writeEntries entries) ∧
    entries.length = 48 ∧ (∀ e ∈ entries, e.Valid) ∧ (writeEntries entries).length < 2 ^ 63 := by
  obtain ⟨state, entries, hrun, hlength, hvalid, hshort⟩ := writeSteps le_rfl 0x5056434145414430
  have hheader : header.length < 1024 := by decide +kernel
  refine ⟨entries, ?_, hlength, hvalid, by omega⟩
  unfold generate
  rw [hrun]
  rfl

/-! ## Accepted files -/

/-- **The consumers are exact, and agree.**  A file passes the consumer of either implementation
where the lines behind the first one, but for the empty ones, are 48, and each can be read as a
case whose outcome is what the reference implementation's `seal` returns. -/
theorem corpus_accepted_iff {contents : Text} (hlength : contents.length < 2 ^ 63)
    (program path : Text) : ∀ consumer ∈ [reference, independent],
      ((∃ run, main consumer [program, path] (some contents) = .ok run ∧ run.status = 0) ↔
        (vectorLines contents).length = 48 ∧ ∀ line ∈ vectorLines contents, Right line) := by
  intro consumer hconsumer
  rw [main_status_iff]
  constructor
  · rintro ⟨count, hcount⟩
    exact ((consume_iff (faithful_of_mem hconsumer) hlength count).mp hcount).2
  · intro h
    exact ⟨48, (consume_iff (faithful_of_mem hconsumer) hlength 48).mpr ⟨rfl, h⟩⟩

/-- The corpus that the generator writes has its 48 lines, and passes both consumers. -/
theorem corpus_accepted_iff_generated :
    ∃ contents, generate = .ok contents ∧ contents.length < 2 ^ 63 ∧
      (vectorLines contents).length = 48 ∧ (∀ line ∈ vectorLines contents, Right line) ∧
      ∀ consumer ∈ [reference, independent], ∃ run,
        main consumer [text "verify", text "vectors"] (some contents) = .ok run ∧
          run.status = 0 := by
  obtain ⟨entries, hgenerate, hcount, hvalid, hlength⟩ := exists_generated
  have hvectors := vectorLines_writeEntries fun e he => (hvalid e he).plain
  have hlines : (vectorLines (writeEntries entries)).length = 48 := by
    rw [hvectors, List.length_map, hcount]
  have hright : ∀ line ∈ vectorLines (writeEntries entries), Right line := by
    rw [hvectors]
    intro line hline
    obtain ⟨e, he, rfl⟩ := List.mem_map.mp hline
    exact (hvalid e he).right
  exact ⟨_, hgenerate, hlength, hlines, hright, fun consumer hconsumer =>
    (corpus_accepted_iff hlength (text "verify") (text "vectors") consumer hconsumer).mpr
      ⟨hlines, hright⟩⟩

/-- **A written corpus passes both consumers.**  Whatever entries are written, they are all read,
checked and counted; and the corpus that the generator writes is accepted by the consumers of both
implementations, with the texts they show then. -/
theorem corpus_round_trip :
    (∀ entries : List Entry, (∀ e ∈ entries, e.Valid) →
      ∀ consumer ∈ [reference, independent],
        countVectors consumer (writeEntries entries) = .ok entries.length) ∧
    ∃ contents, generate = .ok contents ∧ ∀ program path : Text,
      main reference [program, path] (some contents)
        = .ok ⟨text "vectors=48 status=ok\n", [], 0⟩ ∧
      main independent [program, path] (some contents)
        = .ok ⟨text "PASS independent implementation: 48/48 PVC-AEAD-0 vectors\n", [], 0⟩ := by
  refine ⟨fun entries h consumer hconsumer =>
    countVectors_writeEntries (faithful_of_mem hconsumer) h, ?_⟩
  obtain ⟨entries, hgenerate, hlength, hvalid, -⟩ := exists_generated
  have hconsume : ∀ consumer, consumer.Faithful →
      consume consumer (writeEntries entries) = .ok 48 := by
    intro consumer hconsumer
    unfold consume
    rw [countVectors_writeEntries hconsumer hvalid, except_ok_bind, hlength,
      if_neg (not_not.mpr rfl)]
    rfl
  refine ⟨writeEntries entries, hgenerate, fun program path => ⟨?_, ?_⟩⟩
  · show shown reference (consume reference (writeEntries entries)) = _
    rw [hconsume reference reference_faithful]
    rfl
  · show shown independent (consume independent (writeEntries entries)) = _
    rw [hconsume independent independent_faithful]
    rfl

end VectorCorpora
