/-
# The other hexadecimal readers

Besides `main.cpp`, the command line of the MAC and the consumers of the vector corpora each have a
reader of hexadecimal texts.  The loop is always the same; the digits are looked up in their own
way, and the exceptions have their own texts.  A reader that takes the digits `main.cpp` takes,
reads the same bytes from the same texts.
-/
import RotSymEnc.HexText

open StatefulRuns

namespace HexReaders

/-- A pass of the loop, for digits of any width. -/
def readStep {w : ℕ} (digit : U8 → Except Fault (BitVec w)) (value : Text) (out : List U8) (i : ℕ) :
    Except Fault (List U8) := do
  let high ← digit (← readAt value (2 * i))
  let low ← digit (← readAt value (2 * i + 1))
  storeAt out i (((high <<< 4) ||| low).setWidth 8)

/-- The common form of the readers: a text of odd length throws `odd`. -/
def readHex {w : ℕ} (digit : U8 → Except Fault (BitVec w)) (odd : Fault) (value : Text) :
    Except Fault (List U8) := do
  if value.length % 2 ≠ 0 then throw odd
  (List.range (value.length / 2)).foldlM (readStep digit value)
    (List.replicate (value.length / 2) 0)

/-! ## Exceptions of their own -/

/-- The exception of one reader in the place of another's. -/
def rethrown (own : Fault) : Fault → Fault
  | .thrown _ _ => own
  | fault => fault

section MapError

variable {α β φ φ' : Type} (g : φ → φ')

theorem mapError_bind (x : Except φ α) (f : α → Except φ β) :
    (x >>= f).mapError g = x.mapError g >>= fun a => (f a).mapError g := by
  cases x <;> rfl

/-- A loop whose passes differ in their exceptions differs in its exception. -/
theorem mapError_foldlM {step : β → α → Except φ β} {step' : β → α → Except φ' β}
    (h : ∀ b a, step' b a = (step b a).mapError g) (l : List α) (b : β) :
    l.foldlM step' b = (l.foldlM step b).mapError g := by
  induction l generalizing b with
  | nil => rfl
  | cons a l ih =>
    rw [List.foldlM_cons, List.foldlM_cons, mapError_bind, h]
    congr 1
    funext b
    exact ih b

end MapError

/-- A reader that takes the digits of `main.cpp`, and throws `invalid` for any other character. -/
def TakesDigits {w : ℕ} (digit : U8 → Except Fault (BitVec w)) (invalid : Fault) : Prop :=
  ∀ c, digit c = if IsHexDigit c then .ok ((hexValue c).setWidth w) else .error invalid

section Readers

variable {w : ℕ} {digit : U8 → Except Fault (BitVec w)} {invalid : Fault}

/-- Joining two digits in a wider word and cutting the byte out is joining them in a byte. -/
theorem setWidth_joined (hw : 8 ≤ w) (high low : U8) :
    (((high.setWidth w) <<< 4) ||| low.setWidth w).setWidth 8 = (high <<< 4) ||| low := by
  apply BitVec.eq_of_getLsbD_eq
  intro i hi
  have hiw : i < w := Nat.lt_of_lt_of_le hi hw
  simp only [BitVec.getLsbD_setWidth, BitVec.getLsbD_or, BitVec.getLsbD_shiftLeft, hi, hiw,
    decide_true, Bool.true_and]
  by_cases h4 : i < 4
  · simp [h4]
  · have hi4 : i - 4 < w := by omega
    simp [h4, hi4]

theorem readStep_eq (hw : 8 ≤ w) (hdigit : TakesDigits digit invalid) (value : Text)
    (out : List U8) (i : ℕ) :
    readStep digit value out i = (fromHexStep value out i).mapError (rethrown invalid) := by
  have hread : ∀ j, readAt value j = (readAt value j).mapError (rethrown invalid) := by
    intro j
    unfold readAt
    cases value[j]? <;> rfl
  have hstore : ∀ byte, storeAt out i byte = (storeAt out i byte).mapError (rethrown invalid) := by
    intro byte
    unfold storeAt
    split <;> rfl
  have hlook : ∀ c, digit c = (nibble c).mapError (rethrown invalid) >>=
      fun d => .ok (d.setWidth w) := by
    intro c
    rw [hdigit, nibble_eq]
    split <;> rfl
  unfold readStep fromHexStep
  simp only [mapError_bind, ← hread, ← hstore, hlook, bind_assoc, except_ok_bind,
    setWidth_joined hw]

/-- **The reader is that of `main.cpp`**, but for its exceptions. -/
theorem readHex_eq (hw : 8 ≤ w) (hdigit : TakesDigits digit invalid) (odd : Fault) (value : Text) :
    readHex digit odd value = if value.length % 2 ≠ 0 then .error odd
      else (fromHex value).mapError (rethrown invalid) := by
  unfold readHex fromHex
  by_cases hodd : value.length % 2 ≠ 0
  · rw [if_pos hodd, if_pos hodd]
    rfl
  · rw [if_neg hodd, if_neg hodd, if_neg hodd]
    exact mapError_foldlM _ (readStep_eq hw hdigit value) _ _

/-- A text of digits is read. -/
theorem readHex_of_isHexText (hw : 8 ≤ w) (hdigit : TakesDigits digit invalid) {odd : Fault}
    {value : Text} (h : IsHexText value) : readHex digit odd value = .ok (hexBytes value) := by
  rw [readHex_eq hw hdigit, if_neg (not_not.mpr h.1), fromHex_of_isHexText h]
  rfl

/-- Every other text throws one of the two exceptions. -/
theorem readHex_of_not_isHexText (hw : 8 ≤ w) (hdigit : TakesDigits digit invalid) {odd : Fault}
    {value : Text} (h : ¬ IsHexText value) :
    readHex digit odd value = .error odd ∨ readHex digit odd value = .error invalid := by
  rw [readHex_eq hw hdigit]
  by_cases hodd : value.length % 2 ≠ 0
  · exact .inl (if_pos hodd)
  · obtain ⟨what, hrun⟩ := fromHex_of_not_isHexText h
    rw [if_neg hodd, hrun]
    exact .inr rfl

/-- Reading undoes writing. -/
theorem readHex_toHex (hw : 8 ≤ w) (hdigit : TakesDigits digit invalid) (odd : Fault)
    (bytes : List U8) : readHex digit odd (toHex bytes) = .ok bytes := by
  rw [readHex_of_isHexText hw hdigit (isHexText_toHex bytes), hexBytes_toHex]

/-- What is read, was a text of digits. -/
theorem readHex_eq_ok_iff (hw : 8 ≤ w) (hdigit : TakesDigits digit invalid) {odd : Fault}
    (value : Text) (bytes : List U8) :
    readHex digit odd value = .ok bytes ↔ IsHexText value ∧ hexBytes value = bytes := by
  by_cases h : IsHexText value
  · rw [readHex_of_isHexText hw hdigit h]
    exact ⟨fun heq => ⟨h, Except.ok.inj heq⟩, fun heq => congrArg Except.ok heq.2⟩
  · constructor
    · intro heq
      rcases @readHex_of_not_isHexText _ _ _ hw hdigit odd value h with hrun | hrun
      · exact absurd (hrun.symm.trans heq) (by simp)
      · exact absurd (hrun.symm.trans heq) (by simp)
    · rintro ⟨hhex, -⟩
      exact absurd hhex h

end Readers

end HexReaders
