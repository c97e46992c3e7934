/-
# Faults in the comparison of tags

`fault_injection_campaign.cpp` flips every bit of a tag, and of the tag that the MAC
computes, leaves a byte out of the comparison, and changes the length of a tag before
and after it is validated.  Each test counts what `open` and its model of the comparison
accept, over the sealed messages it is given.  The counts are exact, for every list of
sealed messages.
-/
import RotSymEnc.AeadCorrectness
import RotSymEnc.SingleFaults

open StatefulRuns

namespace FaultInjection

/-! ## The comparison of the campaign -/

/-- `struct CampaignCase`. -/
structure CampaignCase : Type where
  keys : PvcRotSymEnc1.KeyPair512
  nonce : Nonce192
  associatedData : List U8
  plaintext : List U8
  tagSize : TagSize
  sealed : SealedMessage

/-- `value[index] ^= mask`. -/
def xorAt (value : List U8) (index : ℕ) (mask : U8) : Except Fault (List U8) := do
  let byte ← readAt value index
  storeAt value index (byte ^^^ mask)

/-- `flip_vector_bit`. -/
def flipVectorBit (value : List U8) (bit : ℕ) : Except Fault (List U8) := do
  requireThat (bit < value.length * 8) "vector fault bit is outside value"
  xorAt value (bit / 8) (u8 ((1 : U32) <<< (bit % 8)))

/-- `comparison_model`. -/
def comparisonModel (expected supplied : List U8) (comparisonLength : ℕ)
    (skippedByte : Option ℕ) : Except Fault Bool := do
  requireThat (comparisonLength ≤ expected.length) "comparison exceeds expected tag"
  requireThat (comparisonLength ≤ supplied.length) "comparison exceeds supplied tag"
  let difference ← (List.range comparisonLength).foldlM (fun (difference : U8) index => do
    if skippedByte = some index then return difference
    let e ← readAt expected index
    let s ← readAt supplied index
    return difference ||| (e ^^^ s)) 0
  return difference == 0

/-- `open(..).has_value()` on a case, with another tag. -/
def canonicalAccepts (testCase : CampaignCase) (supplied : List U8) : Except Fault Bool := do
  let opened ← (PvcRotSymEnc1.openMessage testCase.keys testCase.nonce testCase.associatedData
    testCase.sealed.ciphertext supplied).returned
  return opened.isSome

/-- `if (condition) ++counter`. -/
def countIf (counter : U64) (condition : Bool) : U64 :=
  if condition then counter + 1 else counter

/-! ## The tests -/

/-- The counters of `test_tag_and_mac_result_bits`. -/
@[ext] structure TagBitTally : Type where
  tagAttempts : U64
  tagAcceptances : U64
  macResultFaults : U64
  canonicalTagAcceptances : U64
  deriving DecidableEq, Repr

/-- A bit in `test_tag_and_mac_result_bits`. -/
def tagBitPass (testCase : CampaignCase) (tally : TagBitTally) (bit : ℕ) :
    Except Fault TagBitTally := do
  let supplied ← flipVectorBit testCase.sealed.tag bit
  let accepted ← canonicalAccepts testCase supplied
  let faultedResult ← flipVectorBit testCase.sealed.tag bit
  let matched ← comparisonModel faultedResult testCase.sealed.tag faultedResult.length none
  return ⟨tally.tagAttempts + 1, countIf tally.tagAcceptances accepted,
    tally.macResultFaults + 1, countIf tally.canonicalTagAcceptances matched⟩

/-- `test_tag_and_mac_result_bits`. -/
def testTagAndMacResultBits (cases : List CampaignCase) : Except Fault TagBitTally := do
  let tally ← cases.foldlM (fun tally testCase =>
    (List.range (testCase.sealed.tag.length * 8)).foldlM (tagBitPass testCase) tally)
    (⟨0, 0, 0, 0⟩ : TagBitTally)
  requireThat (tally.tagAcceptances = 0) "canonical open accepted a one-bit tag fault"
  requireThat (tally.canonicalTagAcceptances = 0)
    "faulted MAC result accepted the canonical tag in comparison model"
  return tally

/-- The counters of a test that compares `open` with the faulted comparison. -/
@[ext] structure BypassTally : Type where
  attempts : U64
  canonicalAcceptances : U64
  modelBypasses : U64
  deriving DecidableEq, Repr

/-- A byte in `test_comparison_skip`. -/
def skipPass (testCase : CampaignCase) (tally : BypassTally) (skipped : ℕ) :
    Except Fault BypassTally := do
  let supplied ← xorAt testCase.sealed.tag skipped 1
  let accepted ← canonicalAccepts testCase supplied
  let bypassed ← comparisonModel testCase.sealed.tag supplied supplied.length (some skipped)
  return ⟨tally.attempts + 1, countIf tally.canonicalAcceptances accepted,
    countIf tally.modelBypasses bypassed⟩

/-- `test_comparison_skip`. -/
def testComparisonSkip (cases : List CampaignCase) : Except Fault BypassTally := do
  let tally ← cases.foldlM (fun tally testCase =>
    (List.range testCase.sealed.tag.length).foldlM (skipPass testCase) tally)
    (⟨0, 0, 0⟩ : BypassTally)
  requireThat (tally.canonicalAcceptances = 0)
    "canonical open accepted a skipped-byte control tag"
  requireThat (tally.modelBypasses = tally.attempts)
    "comparison-skip model did not bypass its sole mismatch"
  return tally

/-- The counters of the first loop of `test_tag_length_faults`. -/
@[ext] structure PrevalidationTally : Type where
  attempts : U64
  acceptances : U64
  deriving DecidableEq, Repr

/-- A bit of the length, in the first loop of `test_tag_length_faults`. -/
def prevalidationPass (testCase : CampaignCase) (tally : PrevalidationTally) (bit : ℕ) :
    Except Fault PrevalidationTally := do
  let originalLength := testCase.sealed.tag.length
  let changedLength := originalLength ^^^ (1 <<< bit)
  let copied := min originalLength changedLength
  let supplied ← copyTo (List.replicate changedLength 0) 0 (testCase.sealed.tag.take copied)
  let accepted ← canonicalAccepts testCase supplied
  return ⟨tally.attempts + 1, countIf tally.acceptances accepted⟩

/-- The tag of the second loop of `test_tag_length_faults`, and how many bytes are compared: the
last of 24 bytes is changed behind the 16 that are, or the first of a tag of which none is. -/
def controlTag (tag : List U8) : Except Fault (List U8 × ℕ) :=
  if tag.length = 24 then do
    let supplied ← xorAt tag (tag.length - 1) 1
    return (supplied, 16)
  else do
    let supplied ← xorAt tag 0 1
    return (supplied, 0)

/-- A case in the second loop of `test_tag_length_faults`. -/
def postvalidationPass (tally : BypassTally) (testCase : CampaignCase) :
    Except Fault BypassTally := do
  let (supplied, comparisonLength) ← controlTag testCase.sealed.tag
  let accepted ← canonicalAccepts testCase supplied
  let bypassed ← comparisonModel testCase.sealed.tag supplied comparisonLength none
  return ⟨tally.attempts + 1, countIf tally.canonicalAcceptances accepted,
    countIf tally.modelBypasses bypassed⟩

/-- `test_tag_length_faults`. -/
def testTagLengthFaults (cases : List CampaignCase) :
    Except Fault (PrevalidationTally × BypassTally) := do
  let prevalidation ← cases.foldlM (fun tally testCase =>
    (List.range 6).foldlM (prevalidationPass testCase) tally) (⟨0, 0⟩ : PrevalidationTally)
  requireThat (prevalidation.acceptances = 0)
    "canonical open accepted a one-bit pre-validation length fault"
  let postvalidation ← cases.foldlM postvalidationPass (⟨0, 0, 0⟩ : BypassTally)
  requireThat (postvalidation.canonicalAcceptances = 0)
    "canonical open accepted a post-validation length control tag"
  requireThat (postvalidation.modelBypasses = postvalidation.attempts)
    "post-validation length model did not bypass its omitted mismatch"
  return (prevalidation, postvalidation)

/-! ## One changed byte -/

theorem requireThat_of {condition : Prop} [Decidable condition] (h : condition)
    (message : String) : requireThat condition message = .ok () :=
  if_pos (decide_eq_true h)

/-- The second value is the first with one byte changed. -/
structure ChangedAt (value changed : List U8) (index : ℕ) : Prop where
  length_eq : changed.length = value.length
  index_lt : index < value.length
  getElem_ne : changed[index]? ≠ value[index]?
  getElem_eq : ∀ i ≠ index, changed[i]? = value[i]?

section Changed

variable {value changed : List U8} {index : ℕ}

theorem ChangedAt.ne (h : ChangedAt value changed index) : changed ≠ value :=
  fun heq => h.getElem_ne (by rw [heq])

theorem ChangedAt.symm (h : ChangedAt value changed index) : ChangedAt changed value index :=
  ⟨h.length_eq.symm, by rw [h.length_eq]; exact h.index_lt, h.getElem_ne.symm,
    fun i hi => (h.getElem_eq i hi).symm⟩

theorem xorAt_changedAt (h : index < value.length) {mask : U8} (hmask : mask ≠ 0) :
    ∃ changed, xorAt value index mask = .ok changed ∧ ChangedAt value changed index := by
  refine ⟨value.set index (value[index] ^^^ mask), ?_, List.length_set, h, ?_, ?_⟩
  · unfold xorAt
    rw [readAt_of_lt h, except_ok_bind, storeAt_of_lt h]
  · rw [List.getElem?_set_self h, List.getElem?_eq_getElem h]
    intro heq
    have hxor : value[index] ^^^ mask = value[index] ^^^ 0 := by
      rw [Option.some.inj heq]
      exact BitVec.xor_zero.symm
    exact hmask ((BitVec.xor_right_inj _).mp hxor)
  · intro i hi
    exact List.getElem?_set_ne hi.symm

theorem flipVectorBit_changedAt {bit : ℕ} (h : bit < value.length * 8) :
    ∃ changed, flipVectorBit value bit = .ok changed ∧ ChangedAt value changed (bit / 8) := by
  have hmask : ∀ k < 8, u8 ((1 : U32) <<< k) ≠ 0 := by decide
  obtain ⟨changed, hxor, hchanged⟩ := xorAt_changedAt (show bit / 8 < value.length by omega)
    (hmask (bit % 8) (Nat.mod_lt bit (by decide)))
  refine ⟨changed, ?_, hchanged⟩
  unfold flipVectorBit
  rw [requireThat_of h]
  exact hxor

/-- The changed byte is behind the bytes that are compared. -/
theorem controlTag_changedAt (h : 0 < value.length) : ∃ changed n index,
    controlTag value = .ok (changed, n) ∧ ChangedAt value changed index ∧ n ≤ index := by
  have hmask : (1 : U8) ≠ 0 := by decide
  unfold controlTag
  split_ifs with h24
  · obtain ⟨changed, hxor, hchanged⟩ :=
      xorAt_changedAt (show value.length - 1 < value.length by omega) hmask
    refine ⟨changed, 16, value.length - 1, ?_, hchanged, by omega⟩
    rw [hxor]
    rfl
  · obtain ⟨changed, hxor, hchanged⟩ := xorAt_changedAt h hmask
    refine ⟨changed, 0, 0, ?_, hchanged, le_rfl⟩
    rw [hxor]
    rfl

end Changed

/-! ## The comparison and one changed byte -/

/-- The accumulated difference of the first `n` bytes, one of them left out. -/
theorem comparisonModel_loop {expected supplied : List U8} (skippedByte : Option ℕ) :
    ∀ n, n ≤ expected.length → n ≤ supplied.length → ∃ difference : U8,
      (List.range n).foldlM (fun (difference : U8) index => do
        if skippedByte = some index then return difference
        let e ← readAt expected index
        let s ← readAt supplied index
        return difference ||| (e ^^^ s)) 0 = Except.ok difference ∧
      (difference = 0 ↔ ∀ i < n, skippedByte ≠ some i → supplied[i]? = expected[i]?) := by
  intro n
  induction n with
  | zero => exact fun _ _ => ⟨0, rfl, by simp⟩
  | succ n ih =>
    intro he hs
    obtain ⟨difference, hrun, hzero⟩ := ih (by omega) (by omega)
    have he' : n < expected.length := he
    have hs' : n < supplied.length := hs
    by_cases hskip : skippedByte = some n
    -- the byte that is left out changes nothing
    · refine ⟨difference, ?_, ?_⟩
      · rw [List.range_succ, List.foldlM_append, hrun, except_ok_bind, List.foldlM_cons,
          if_pos hskip]
        rfl
      · rw [Nat.forall_lt_succ_right, hzero]
        exact (and_iff_left fun hne => absurd hskip hne).symm
    · refine ⟨difference ||| (expected[n] ^^^ supplied[n]), ?_, ?_⟩
      · rw [List.range_succ, List.foldlM_append, hrun, except_ok_bind, List.foldlM_cons,
          if_neg hskip, readAt_of_lt he', readAt_of_lt hs']
        rfl
      · have hlast : expected[n] ^^^ supplied[n] = 0 ↔
            (skippedByte ≠ some n → supplied[n]? = expected[n]?) := by
          rw [List.getElem?_eq_getElem he', List.getElem?_eq_getElem hs', Option.some_inj,
            imp_iff_right hskip, eq_comm (a := supplied[n])]
          exact BitVec.xor_eq_zero_iff
        rw [Nat.forall_lt_succ_right, ← hlast, ← hzero]
        exact BitVec.or_eq_zero_iff

/-- **What the comparison accepts**: agreement on the bytes that are not left out. -/
theorem comparisonModel_eq {expected supplied : List U8} {n : ℕ} (skippedByte : Option ℕ)
    (he : n ≤ expected.length) (hs : n ≤ supplied.length) :
    ∃ accepted, comparisonModel expected supplied n skippedByte = .ok accepted ∧
      (accepted = true ↔ ∀ i < n, skippedByte ≠ some i → supplied[i]? = expected[i]?) := by
  obtain ⟨difference, hrun, hzero⟩ := comparisonModel_loop skippedByte n he hs
  refine ⟨difference == 0, ?_, ?_⟩
  · unfold comparisonModel
    rw [requireThat_of he, except_ok_bind, requireThat_of hs, except_ok_bind, hrun]
    rfl
  · rw [beq_iff_eq, hzero]

/-- Without a fault it is the comparison of `verify_tag`. -/
theorem comparisonModel_none {expected : ResearchOutput} {supplied : List U8}
    (h : supplied.length ≤ 32) :
    comparisonModel expected.toList supplied supplied.length none
      = tagMatches expected supplied := by
  have hle : supplied.length ≤ expected.toList.length := by
    rw [Vector.length_toList]
    exact h
  unfold comparisonModel tagMatches
  rw [requireThat_of hle, except_ok_bind, requireThat_of le_rfl, except_ok_bind]
  simp only [reduceCtorEq, if_false]

/-- One changed byte is seen exactly where the comparison reaches it and does not leave it out. -/
theorem comparisonModel_of_changedAt {expected supplied : List U8} {index n : ℕ}
    (h : ChangedAt expected supplied index) (hn : n ≤ expected.length) (skippedByte : Option ℕ) :
    comparisonModel expected supplied n skippedByte
      = .ok (decide (n ≤ index ∨ skippedByte = some index)) := by
  obtain ⟨accepted, hrun, haccepted⟩ := comparisonModel_eq skippedByte hn
    (show n ≤ supplied.length by rw [h.length_eq]; exact hn)
  rw [hrun]
  congr 1
  rw [Bool.eq_iff_iff, haccepted, decide_eq_true_iff]
  constructor
  · intro hall
    by_contra hseen
    rw [not_or, not_le] at hseen
    exact h.getElem_ne (hall index hseen.1 hseen.2)
  · intro hunseen i hi hskip
    apply h.getElem_eq
    rintro rfl
    rcases hunseen with hle | heq
    · omega
    · exact hskip heq

/-! ## The sealed messages -/

/-- The message of the case is what `seal` returned for it. -/
structure CampaignCase.Made (testCase : CampaignCase) : Prop where
  associatedData_lt : testCase.associatedData.length < 2 ^ 64
  plaintext_lt : testCase.plaintext.length < 2 ^ 64
  sealed_eq : (PvcRotSymEnc1.sealMessage testCase.keys testCase.nonce testCase.associatedData
    testCase.plaintext testCase.tagSize).returned = .ok testCase.sealed

/-- The tag cut, or filled with zeros, to a length. -/
def resized (tag : List U8) (length : ℕ) : List U8 :=
  tag.take length ++ List.replicate (length - tag.length) 0

theorem length_resized (tag : List U8) (length : ℕ) : (resized tag length).length = length := by
  unfold resized
  rw [List.length_append, List.length_take, List.length_replicate]
  omega

/-- What `test_tag_length_faults` copies into a vector of zeros. -/
theorem copyTo_resized (tag : List U8) (length : ℕ) :
    copyTo (List.replicate length 0) 0 (tag.take (min tag.length length))
      = .ok (resized tag length) := by
  rw [copyTo_front _ (by rw [List.length_take]; omega)]
  unfold resized
  congr 2
  · rw [← List.take_take]
    exact List.take_of_length_le (by rw [List.length_take]; omega)
  · rw [List.length_take]
    congr 1
    omega

/-- Of the three lengths only 16 and 24 are one bit apart. -/
theorem tagLength_xor_iff {length : ℕ} (h : TagLength length) {bit : ℕ} (hbit : bit < 6) :
    length ^^^ (1 <<< bit) < 2 ^ 64 ∧
      (TagLength (length ^^^ (1 <<< bit)) ↔ bit = 3 ∧ length ≠ 32) := by
  have hall : ∀ length ∈ [16, 24, 32], ∀ k < 6, length ^^^ (1 <<< k) < 2 ^ 64 ∧
      (TagLength (length ^^^ (1 <<< k)) ↔ k = 3 ∧ length ≠ 32) := by decide
  apply hall _ _ _ hbit
  unfold TagLength at h
  simpa using h

/-- The tag of 16 or of 24 bytes, brought to the other of the two lengths, is the tag of that
length. -/
def CampaignCase.Crosses (testCase : CampaignCase) : Prop :=
  testCase.sealed.tag.length ≠ 32 ∧
    resized testCase.sealed.tag (testCase.sealed.tag.length ^^^ 8)
      = PvcAead0.sealedTag testCase.keys.authenticationKey testCase.nonce testCase.associatedData
        testCase.sealed.ciphertext (tagSizeOfLength (testCase.sealed.tag.length ^^^ 8))

instance (testCase : CampaignCase) : Decidable testCase.Crosses :=
  inferInstanceAs (Decidable (_ ∧ _))

/-- Where the sizes fit, there is a sealed message, with a tag of its profile. -/
theorem CampaignCase.exists_made {tagSize : TagSize} (ht : tagSize.Supported)
    (keys : PvcRotSymEnc1.KeyPair512) (nonce : Nonce192) {associatedData plaintext : List U8}
    (hlen : 79 + associatedData.length + plaintext.length < 2 ^ 64) :
    ∃ testCase : CampaignCase, testCase.Made ∧ testCase.tagSize = tagSize ∧
      testCase.sealed.tag.length = tagSize.value.toNat := by
  obtain ⟨sealed, hsealed, -⟩ := PvcRotSymEnc1.exists_sealed ht keys nonce hlen
  have had : associatedData.length < 2 ^ 64 := by omega
  have hpt : plaintext.length < 2 ^ 64 := by omega
  exact ⟨⟨keys, nonce, associatedData, plaintext, tagSize, sealed⟩, ⟨had, hpt, hsealed⟩, rfl,
    (PvcRotSymEnc1.length_sealed had hpt hsealed).2⟩

namespace CampaignCase.Made

variable {testCase : CampaignCase} (h : testCase.Made)

include h

theorem tagLength : TagLength testCase.sealed.tag.length := by
  obtain ⟨ht, -⟩ := (PvcRotSymEnc1.sealMessage_returned_iff testCase.keys testCase.nonce
    h.associatedData_lt h.plaintext_lt testCase.sealed).mp h.sealed_eq
  rw [(PvcRotSymEnc1.length_sealed h.associatedData_lt h.plaintext_lt h.sealed_eq).2]
  exact ht.tagLength

/-- `open` accepts the tags of the ciphertext. -/
theorem canonicalAccepts_eq {supplied : List U8} (hsupplied : supplied.length < 2 ^ 64) :
    canonicalAccepts testCase supplied = .ok (decide (TagLength supplied.length ∧
      supplied = PvcAead0.sealedTag testCase.keys.authenticationKey testCase.nonce
        testCase.associatedData testCase.sealed.ciphertext
        (tagSizeOfLength supplied.length))) := by
  obtain ⟨-, hlen, -, -⟩ := (PvcRotSymEnc1.sealMessage_returned_iff testCase.keys testCase.nonce
    h.associatedData_lt h.plaintext_lt testCase.sealed).mp h.sealed_eq
  have hct := (PvcRotSymEnc1.length_sealed h.associatedData_lt h.plaintext_lt h.sealed_eq).1
  rw [← hct] at hlen
  have hiff := PvcRotSymEnc1.openMessage_returned_iff testCase.keys testCase.nonce
    h.associatedData_lt (show testCase.sealed.ciphertext.length < 2 ^ 64 by omega) hsupplied
  obtain ⟨opened, hopened⟩ := PvcRotSymEnc1.openMessage_returned_ok testCase.keys testCase.nonce
    hsupplied hlen
  unfold canonicalAccepts
  rw [hopened, except_ok_bind]
  show Except.ok opened.isSome = _
  congr 1
  rw [Bool.eq_iff_iff, decide_eq_true_iff]
  cases opened with
  | none =>
    refine ⟨fun hsome => absurd hsome (by decide), fun ⟨ht, hmatch⟩ => ?_⟩
    -- the tag of the ciphertext would have been accepted
    have hsome := (hiff _).mpr ⟨ht, hlen, hmatch, rfl⟩
    rw [hopened] at hsome
    cases hsome
  | some plaintext =>
    obtain ⟨ht, -, hmatch, -⟩ := (hiff plaintext).mp hopened
    exact ⟨fun _ => ⟨ht, hmatch⟩, fun _ => rfl⟩

/-- A tag with one byte changed is rejected. -/
theorem canonicalAccepts_of_changedAt {supplied : List U8} {index : ℕ}
    (hchanged : ChangedAt testCase.sealed.tag supplied index) :
    canonicalAccepts testCase supplied = .ok false := by
  unfold canonicalAccepts
  rw [PvcRotSymEnc1.openMessage_of_tag_ne h.associatedData_lt h.plaintext_lt h.sealed_eq
    hchanged.length_eq hchanged.ne]
  rfl

end CampaignCase.Made

/-! ## One pass of each loop -/

/-- The tally after a bit. -/
def TagBitTally.rejected (tally : TagBitTally) : TagBitTally :=
  { tally with tagAttempts := tally.tagAttempts + 1, macResultFaults := tally.macResultFaults + 1 }

/-- The tally after a byte that only the faulted comparison accepts. -/
def BypassTally.bypassed (tally : BypassTally) : BypassTally :=
  { tally with attempts := tally.attempts + 1, modelBypasses := tally.modelBypasses + 1 }

section Passes

variable {testCase : CampaignCase} (h : testCase.Made)

include h

theorem tagBitPass_eq {bit : ℕ} (hbit : bit < testCase.sealed.tag.length * 8)
    (tally : TagBitTally) : tagBitPass testCase tally bit = .ok tally.rejected := by
  obtain ⟨supplied, hflip, hchanged⟩ := flipVectorBit_changedAt hbit
  have hunseen : ¬ (supplied.length ≤ bit / 8 ∨ none = some (bit / 8)) := by
    rw [hchanged.length_eq]
    simp
    omega
  unfold tagBitPass
  rw [hflip, except_ok_bind, h.canonicalAccepts_of_changedAt hchanged, except_ok_bind,
    except_ok_bind, comparisonModel_of_changedAt hchanged.symm le_rfl, decide_eq_false hunseen]
  rfl

theorem skipPass_eq {skipped : ℕ} (hskipped : skipped < testCase.sealed.tag.length)
    (tally : BypassTally) : skipPass testCase tally skipped = .ok tally.bypassed := by
  obtain ⟨supplied, hxor, hchanged⟩ := xorAt_changedAt hskipped (show (1 : U8) ≠ 0 by decide)
  unfold skipPass
  rw [hxor, except_ok_bind, h.canonicalAccepts_of_changedAt hchanged, except_ok_bind,
    comparisonModel_of_changedAt hchanged (by rw [hchanged.length_eq]),
    decide_eq_true (.inr rfl)]
  rfl

theorem postvalidationPass_eq (tally : BypassTally) :
    postvalidationPass tally testCase = .ok tally.bypassed := by
  have hpos : 0 < testCase.sealed.tag.length := by
    have ht := h.tagLength
    unfold TagLength at ht
    omega
  obtain ⟨supplied, n, index, hcontrol, hchanged, hbehind⟩ := controlTag_changedAt hpos
  unfold postvalidationPass
  rw [hcontrol, except_ok_bind]
  dsimp only
  rw [h.canonicalAccepts_of_changedAt hchanged, except_ok_bind,
    comparisonModel_of_changedAt hchanged (hbehind.trans hchanged.index_lt.le),
    decide_eq_true (.inl hbehind)]
  rfl

/-- One bit of its length takes a tag to the length of a tag in two ways only. -/
theorem prevalidationPass_eq {bit : ℕ} (hbit : bit < 6) (tally : PrevalidationTally) :
    prevalidationPass testCase tally bit = .ok ⟨tally.attempts + 1,
      countIf tally.acceptances (decide (bit = 3 ∧ testCase.Crosses))⟩ := by
  obtain ⟨hlt, hiff⟩ := tagLength_xor_iff h.tagLength hbit
  unfold prevalidationPass
  dsimp only
  rw [copyTo_resized, except_ok_bind,
    h.canonicalAccepts_eq (by rw [length_resized]; exact hlt), except_ok_bind, length_resized]
  show Except.ok _ = _
  congr 3
  rw [decide_eq_decide, hiff]
  unfold CampaignCase.Crosses
  constructor
  · rintro ⟨⟨rfl, hne⟩, hmatch⟩
    exact ⟨rfl, hne, hmatch⟩
  · rintro ⟨rfl, hne, hmatch⟩
    exact ⟨⟨rfl, hne⟩, hmatch⟩

end Passes

/-! ## The runs -/

section Loops

variable {α σ : Type} {step : σ → σ}

/-- A loop in which every item makes one step a number of times. -/
theorem foldlM_iterate {pass : σ → α → Except Fault σ} (count : α → ℕ) (items : List α)
    (h : ∀ a ∈ items, ∀ s, pass s a = .ok (step^[count a] s)) (s : σ) :
    items.foldlM pass s = .ok (step^[(items.map count).sum] s) := by
  induction items generalizing s with
  | nil => rfl
  | cons a items ih =>
    rw [List.foldlM_cons, h a List.mem_cons_self, except_ok_bind,
      ih fun b hb => h b (List.mem_cons_of_mem a hb), List.map_cons, List.sum_cons, Nat.add_comm,
      Function.iterate_add_apply]

theorem foldlM_range_iterate {pass : σ → ℕ → Except Fault σ} (n : ℕ)
    (h : ∀ i < n, ∀ s, pass s i = .ok (step s)) (s : σ) :
    (List.range n).foldlM pass s = .ok (step^[n] s) := by
  rw [foldlM_iterate (fun _ => 1) _ fun i hi => h i (List.mem_range.mp hi)]
  simp

end Loops

theorem add_ofNat_succ (counter : U64) (n : ℕ) :
    counter + BitVec.ofNat 64 n + 1 = counter + BitVec.ofNat 64 (n + 1) := by
  rw [BitVec.ofNat_add, BitVec.add_assoc]
  rfl

theorem zero_add_counter (counter : U64) : (0 : U64) + counter = counter := BitVec.zero_add counter

theorem TagBitTally.rejected_iterate (tally : TagBitTally) (n : ℕ) :
    TagBitTally.rejected^[n] tally = { tally with
      tagAttempts := tally.tagAttempts + BitVec.ofNat 64 n,
      macResultFaults := tally.macResultFaults + BitVec.ofNat 64 n } := by
  induction n with
  | zero => ext <;> simp
  | succ n ih =>
    rw [Function.iterate_succ_apply', ih]
    unfold TagBitTally.rejected
    simp only [add_ofNat_succ]

theorem BypassTally.bypassed_iterate (tally : BypassTally) (n : ℕ) :
    BypassTally.bypassed^[n] tally = { tally with
      attempts := tally.attempts + BitVec.ofNat 64 n,
      modelBypasses := tally.modelBypasses + BitVec.ofNat 64 n } := by
  induction n with
  | zero => ext <;> simp
  | succ n ih =>
    rw [Function.iterate_succ_apply', ih]
    unfold BypassTally.bypassed
    simp only [add_ofNat_succ]

/-- The first bits of the length. -/
theorem prevalidationBits_eq {testCase : CampaignCase} (h : testCase.Made)
    (tally : PrevalidationTally) : ∀ k ≤ 6,
    (List.range k).foldlM (prevalidationPass testCase) tally
      = .ok ⟨tally.attempts + BitVec.ofNat 64 k,
        countIf tally.acceptances (decide (3 < k ∧ testCase.Crosses))⟩ := by
  intro k
  induction k with
  | zero =>
    intro _
    rw [decide_eq_false (by omega)]
    simp [countIf]
    rfl
  | succ k ih =>
    intro hk
    -- the fourth bit is the one that may be accepted
    have hcount : countIf (countIf tally.acceptances (decide (3 < k ∧ testCase.Crosses)))
        (decide (k = 3 ∧ testCase.Crosses))
        = countIf tally.acceptances (decide (3 < k + 1 ∧ testCase.Crosses)) := by
      by_cases hcross : testCase.Crosses
      · unfold countIf
        simp only [hcross, and_true, decide_eq_true_eq]
        split_ifs <;> first | rfl | omega
      · unfold countIf
        simp only [hcross, and_false, decide_false, Bool.false_eq_true, if_false]
    rw [List.range_succ, List.foldlM_append, ih (by omega), except_ok_bind, List.foldlM_cons,
      prevalidationPass_eq h (by omega), except_ok_bind, hcount, add_ofNat_succ]
    rfl

/-- The first loop of `test_tag_length_faults` counts the cases whose tags cross. -/
theorem prevalidation_eq {cases : List CampaignCase} (hmade : ∀ testCase ∈ cases, testCase.Made)
    (tally : PrevalidationTally) :
    cases.foldlM (fun tally testCase =>
        (List.range 6).foldlM (prevalidationPass testCase) tally) tally
      = .ok ⟨tally.attempts + BitVec.ofNat 64 (6 * cases.length),
        tally.acceptances + BitVec.ofNat 64 (cases.countP fun testCase => testCase.Crosses)⟩ := by
  induction cases generalizing tally with
  | nil => simp; rfl
  | cons testCase cases ih =>
    rw [List.foldlM_cons, prevalidationBits_eq (hmade testCase List.mem_cons_self) tally 6 le_rfl,
      except_ok_bind, ih fun c hc => hmade c (List.mem_cons_of_mem testCase hc)]
    congr 2
    · rw [List.length_cons, Nat.mul_succ, BitVec.ofNat_add, BitVec.add_assoc,
        BitVec.add_comm (BitVec.ofNat 64 6)]
    · rw [List.countP_cons]
      unfold countIf
      by_cases hcross : testCase.Crosses
      · simp only [hcross, and_true, decide_true, if_true, show 3 < 6 by decide]
        rw [BitVec.ofNat_add, BitVec.add_assoc, BitVec.add_comm 1]
        rfl
      · simp [hcross]

/-- The bytes of all tags. -/
def tagBytesOf (cases : List CampaignCase) : ℕ :=
  (cases.map fun testCase => testCase.sealed.tag.length).sum

section Tests

variable {cases : List CampaignCase} (hmade : ∀ testCase ∈ cases, testCase.Made)

include hmade

theorem testTagAndMacResultBits_eq : testTagAndMacResultBits cases
    = .ok ⟨BitVec.ofNat 64 (8 * tagBytesOf cases), 0,
      BitVec.ofNat 64 (8 * tagBytesOf cases), 0⟩ := by
  have hbits : (cases.map fun testCase => testCase.sealed.tag.length * 8).sum
      = 8 * tagBytesOf cases := by
    rw [List.sum_map_mul_right, Nat.mul_comm]
    rfl
  unfold testTagAndMacResultBits
  rw [foldlM_iterate (fun testCase => testCase.sealed.tag.length * 8) cases fun c hc =>
    foldlM_range_iterate _ fun _ hbit => tagBitPass_eq (hmade c hc) hbit, except_ok_bind,
    TagBitTally.rejected_iterate, hbits, requireThat_of rfl, except_ok_bind, requireThat_of rfl,
    except_ok_bind, zero_add_counter]
  rfl

theorem testComparisonSkip_eq : testComparisonSkip cases
    = .ok ⟨BitVec.ofNat 64 (tagBytesOf cases), 0, BitVec.ofNat 64 (tagBytesOf cases)⟩ := by
  unfold testComparisonSkip
  rw [foldlM_iterate (fun testCase => testCase.sealed.tag.length) cases fun c hc =>
    foldlM_range_iterate _ fun _ hskipped => skipPass_eq (hmade c hc) hskipped, except_ok_bind,
    BypassTally.bypassed_iterate, requireThat_of rfl, except_ok_bind, requireThat_of rfl,
    except_ok_bind, zero_add_counter]
  rfl

theorem postvalidation_eq (tally : BypassTally) :
    cases.foldlM postvalidationPass tally
      = .ok (BypassTally.bypassed^[cases.length] tally) := by
  rw [@foldlM_iterate _ _ BypassTally.bypassed _ (fun _ => 1) cases fun c hc =>
    postvalidationPass_eq (hmade c hc)]
  simp

theorem testTagLengthFaults_eq (hnone : ∀ testCase ∈ cases, ¬ testCase.Crosses) :
    testTagLengthFaults cases = .ok (⟨BitVec.ofNat 64 (6 * cases.length), 0⟩,
      ⟨BitVec.ofNat 64 cases.length, 0, BitVec.ofNat 64 cases.length⟩) := by
  have hcount : cases.countP (fun testCase => testCase.Crosses) = 0 :=
    List.countP_eq_zero.mpr fun c hc => by simpa using hnone c hc
  have hfirst : cases.foldlM (fun tally testCase =>
      (List.range 6).foldlM (prevalidationPass testCase) tally) (⟨0, 0⟩ : PrevalidationTally)
      = .ok ⟨BitVec.ofNat 64 (6 * cases.length), 0⟩ := by
    rw [prevalidation_eq hmade, hcount, zero_add_counter]
    rfl
  unfold testTagLengthFaults
  rw [hfirst, except_ok_bind, requireThat_of rfl, except_ok_bind,
    postvalidation_eq hmade, BypassTally.bypassed_iterate, except_ok_bind, requireThat_of rfl,
    except_ok_bind, requireThat_of rfl, except_ok_bind, zero_add_counter]
  rfl

theorem testTagLengthFaults_of_crosses (hlength : cases.length < 2 ^ 64)
    {testCase : CampaignCase} (hmem : testCase ∈ cases) (hcross : testCase.Crosses) :
    testTagLengthFaults cases = .error (.thrown .runtimeError
      "canonical open accepted a one-bit pre-validation length fault") := by
  have hpos : 0 < cases.countP (fun testCase => testCase.Crosses) :=
    List.countP_pos_iff.mpr ⟨testCase, hmem, decide_eq_true hcross⟩
  have hle : cases.countP (fun testCase => testCase.Crosses) ≤ cases.length :=
    List.countP_le_length
  -- the counter does not come back to zero
  have hne : ¬ (0 : U64) + BitVec.ofNat 64 (cases.countP fun testCase => testCase.Crosses) = 0 := by
    intro heq
    have hzero := congrArg BitVec.toNat heq
    rw [zero_add_counter, BitVec.toNat_ofNat, Nat.mod_eq_of_lt (by omega)] at hzero
    exact hpos.ne' hzero
  unfold testTagLengthFaults requireThat
  rw [prevalidation_eq hmade, except_ok_bind, if_neg (by simpa using hne)]
  rfl

end Tests

/-- **The counts of the comparison faults are exact.**  Over every list of sealed messages `open`
rejects each changed tag, and the faulted comparison accepts exactly the ones whose change it
leaves out.  The test of the lengths stops where a tag, brought from 16 to 24 bytes or back, is
the tag of that length, and nowhere else. -/
theorem comparison_faults_exact {cases : List CampaignCase}
    (hmade : ∀ testCase ∈ cases, testCase.Made) :
    testTagAndMacResultBits cases
        = .ok ⟨BitVec.ofNat 64 (8 * tagBytesOf cases), 0,
          BitVec.ofNat 64 (8 * tagBytesOf cases), 0⟩ ∧
    testComparisonSkip cases
        = .ok ⟨BitVec.ofNat 64 (tagBytesOf cases), 0, BitVec.ofNat 64 (tagBytesOf cases)⟩ ∧
    ((∀ testCase ∈ cases, ¬ testCase.Crosses) →
      testTagLengthFaults cases = .ok (⟨BitVec.ofNat 64 (6 * cases.length), 0⟩,
        ⟨BitVec.ofNat 64 cases.length, 0, BitVec.ofNat 64 cases.length⟩)) ∧
    (cases.length < 2 ^ 64 → (∃ testCase ∈ cases, testCase.Crosses) →
      testTagLengthFaults cases = .error (.thrown .runtimeError
        "canonical open accepted a one-bit pre-validation length fault")) := by
  refine ⟨testTagAndMacResultBits_eq hmade, testComparisonSkip_eq hmade, ?_, ?_⟩
  · exact testTagLengthFaults_eq hmade
  · rintro hlength ⟨testCase, hmem, hcross⟩
    exact testTagLengthFaults_of_crosses hmade hlength hmem hcross

/-- Three sealed messages, one of each profile: 72 bytes of tags.  Alone, the one of 32 bytes
passes the test of the lengths. -/
theorem comparison_faults_exact_profiles : ∃ short middle long : CampaignCase,
    (short.Made ∧ short.tagSize = .bits128) ∧ (middle.Made ∧ middle.tagSize = .bits192) ∧
    (long.Made ∧ long.tagSize = .bits256) ∧
    testTagAndMacResultBits [short, middle, long] = .ok ⟨576, 0, 576, 0⟩ ∧
    testComparisonSkip [short, middle, long] = .ok ⟨72, 0, 72⟩ ∧
    testTagLengthFaults [short, middle, long]
      = (if short.Crosses ∨ middle.Crosses then .error (.thrown .runtimeError
          "canonical open accepted a one-bit pre-validation length fault")
        else .ok (⟨18, 0⟩, ⟨3, 0, 3⟩)) ∧
    testTagLengthFaults [long] = .ok (⟨6, 0⟩, ⟨1, 0, 1⟩) := by
  let keys : PvcRotSymEnc1.KeyPair512 := ⟨Vector.replicate 32 0, Vector.replicate 32 1⟩
  let nonce : ℕ → Nonce192 := fun i => Vector.replicate 24 (BitVec.ofNat 8 i)
  obtain ⟨short, hshort, hshortSize, hshortTag⟩ := @CampaignCase.exists_made .bits128 (.inl rfl)
    keys (nonce 0) [] [] (by decide)
  obtain ⟨middle, hmiddle, hmiddleSize, hmiddleTag⟩ :=
    @CampaignCase.exists_made .bits192 (.inr (.inl rfl)) keys (nonce 1) [0x61] [0x62] (by decide)
  obtain ⟨long, hlong, hlongSize, hlongTag⟩ :=
    @CampaignCase.exists_made .bits256 (.inr (.inr rfl)) keys (nonce 2) [] [0x62, 0x63] (by decide)
  have hmade : ∀ testCase ∈ [short, middle, long], testCase.Made := by
    simp [hshort, hmiddle, hlong]
  have hbytes : tagBytesOf [short, middle, long] = 72 := by
    unfold tagBytesOf
    rw [List.map_cons, List.map_cons, List.map_cons, List.map_nil, hshortTag, hmiddleTag, hlongTag]
    rfl
  -- a tag of 32 bytes has no other length
  have hnever : ¬ long.Crosses := fun hcross => hcross.1 hlongTag
  obtain ⟨hbits, hskip, hpasses, hthrows⟩ := comparison_faults_exact hmade
  rw [hbytes] at hbits hskip
  refine ⟨short, middle, long, ⟨hshort, hshortSize⟩, ⟨hmiddle, hmiddleSize⟩, ⟨hlong, hlongSize⟩,
    hbits, hskip, ?_, ?_⟩
  · split_ifs with hcross
    · apply hthrows (show 3 < 2 ^ 64 by decide)
      simpa [hnever] using hcross
    · apply hpasses
      simpa [hnever] using hcross
  · apply (comparison_faults_exact (List.forall_mem_singleton.mpr hlong)).2.2.1
    exact List.forall_mem_singleton.mpr hnever

end FaultInjection
