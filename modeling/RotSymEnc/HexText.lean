/-
# Hexadecimal texts

The codec of `main.cpp`: the value of a digit, the loop that reads two digits a byte, and
the loop that writes them.  The reader takes either case and the writer writes lower
case, so that reading undoes writing, and writing undoes reading up to case.
-/
import RotSymEnc.CommandLine
import RotSymEnc.Buffers
import RotSymEnc.StatefulRuns

open StatefulRuns

/-! ## The codec -/

/-- `std::tolower` of an `unsigned char`, in the C locale. -/
def tolower (c : U8) : U8 := if 65 ≤ c.toNat ∧ c.toNat ≤ 90 then c + 32 else c

/-- The exception of `nibble`. -/
def invalidHexCharacter : Fault := .thrown .invalidArgument "invalid hex character"

/-- `nibble`: a `char` is signed, and compared as a signed number. -/
def nibble (c : U8) : Except Fault U8 :=
  if 48 ≤ c.toInt ∧ c.toInt ≤ 57 then .ok (c - 48)
  else
    let c := tolower c
    if 97 ≤ c.toInt ∧ c.toInt ≤ 102 then .ok (10 + c - 97)
    else .error invalidHexCharacter

/-- A pass of the loop in `from_hex`. -/
def fromHexStep (value : Text) (out : List U8) (i : ℕ) : Except Fault (List U8) := do
  let high ← nibble (← readAt value (2 * i))
  let low ← nibble (← readAt value (2 * i + 1))
  storeAt out i ((high <<< 4) ||| low)

/-- `from_hex`. -/
def fromHex (value : Text) : Except Fault (List U8) := do
  if value.length % 2 ≠ 0 then
    throw (.thrown .invalidArgument "hex input must have even length")
  (List.range (value.length / 2)).foldlM (fromHexStep value)
    (List.replicate (value.length / 2) 0)

/-- `fixed_hex`. -/
def fixedHex (n : ℕ) (value : Text) (field : String) : Except Fault (Vector U8 n) := do
  let parsed ← fromHex value
  if h : parsed.length = n then return ⟨parsed.toArray, by simp [h]⟩
  else throw (.thrown .invalidArgument (field ++ " has wrong length"))

/-- `digits` of `to_hex`, "0123456789abcdef". -/
def hexDigits : Vector U8 16 :=
  #v[48, 49, 50, 51, 52, 53, 54, 55, 56, 57, 97, 98, 99, 100, 101, 102]

/-- The digit of the low four bits of a byte. -/
def hexDigit (byte : U8) : U8 := hexDigits.get (Fin.ofNat 16 (byte &&& 0x0F).toNat)

/-- `to_hex`. -/
def toHex (value : List U8) : Text :=
  value.foldl (fun (out : Text) (byte : U8) => out ++ [hexDigit (byte >>> 4)] ++ [hexDigit byte]) []

/-! ## Digits -/

/-- One of `0-9`, `a-f` and `A-F`. -/
def IsHexDigit (c : U8) : Prop :=
  (48 ≤ c.toNat ∧ c.toNat ≤ 57) ∨ (97 ≤ c.toNat ∧ c.toNat ≤ 102) ∨ (65 ≤ c.toNat ∧ c.toNat ≤ 70)

instance (c : U8) : Decidable (IsHexDigit c) := inferInstanceAs (Decidable (_ ∨ _ ∨ _))

/-- The value of a digit: its low four bits, and nine more for a letter. -/
def hexValue (c : U8) : U8 := if c.toNat ≤ 57 then c &&& 0x0F else (c &&& 0x0F) + 9

/-- `nibble` returns the value of a digit, and throws on every other `char`, the
negative ones with them. -/
theorem nibble_eq (c : U8) :
    nibble c = if IsHexDigit c then .ok (hexValue c) else .error invalidHexCharacter := by
  revert c
  decide +kernel

theorem nibble_of_isHexDigit {c : U8} (h : IsHexDigit c) : nibble c = .ok (hexValue c) := by
  rw [nibble_eq, if_pos h]

theorem nibble_of_not {c : U8} (h : ¬ IsHexDigit c) : nibble c = .error invalidHexCharacter := by
  rw [nibble_eq, if_neg h]

/-- Written digits are digits. -/
theorem isHexDigit_hexDigit (byte : U8) : IsHexDigit (hexDigit byte) := by
  revert byte
  decide +kernel

/-- The two written digits of a byte are read as that byte. -/
theorem hexValue_hexDigit (byte : U8) :
    (hexValue (hexDigit (byte >>> 4)) <<< 4) ||| hexValue (hexDigit byte) = byte := by
  revert byte
  decide +kernel

/-- A read digit is written in lower case. -/
theorem hexDigit_hexValue {c : U8} (h : IsHexDigit c) : hexDigit (hexValue c) = tolower c := by
  revert c
  decide +kernel

theorem hexValue_lt {c : U8} (h : IsHexDigit c) : hexValue c < 16 := by
  revert c
  decide +kernel

/-- Two values of four bits, joined in a byte, are its two halves. -/
theorem joined_halves {high low : U8} (hhigh : high < 16) (hlow : low < 16) :
    ((high <<< 4) ||| low) >>> 4 = high ∧ ((high <<< 4) ||| low) &&& 0x0F = low := by
  have hfour : ∀ h l : Fin 16,
      ((BitVec.ofNat 8 h <<< 4) ||| BitVec.ofNat 8 l) >>> 4 = BitVec.ofNat 8 h ∧
      ((BitVec.ofNat 8 h <<< 4) ||| BitVec.ofNat 8 l) &&& 0x0F = BitVec.ofNat 8 l := by
    decide +kernel
  have := hfour ⟨high.toNat, hhigh⟩ ⟨low.toNat, hlow⟩
  simpa using this

/-- A byte read from two digits is written as the two digits, in lower case. -/
theorem hexDigit_joined {high low : U8} (hhigh : IsHexDigit high) (hlow : IsHexDigit low) :
    hexDigit (((hexValue high <<< 4) ||| hexValue low) >>> 4) = tolower high ∧
      hexDigit ((hexValue high <<< 4) ||| hexValue low) = tolower low := by
  obtain ⟨hupper, hlower⟩ := joined_halves (hexValue_lt hhigh) (hexValue_lt hlow)
  have hmask : ∀ byte, hexDigit byte = hexDigit (byte &&& 0x0F) := by
    intro byte
    unfold hexDigit
    rw [BitVec.and_assoc, BitVec.and_self]
  constructor
  · rw [hupper, hexDigit_hexValue hhigh]
  · rw [hmask, hlower, hexDigit_hexValue hlow]

/-! ## Texts -/

/-- What `from_hex` takes: an even number of digits. -/
def IsHexText (value : Text) : Prop := value.length % 2 = 0 ∧ ∀ c ∈ value, IsHexDigit c

instance (value : Text) : Decidable (IsHexText value) := inferInstanceAs (Decidable (_ ∧ _))

/-- The bytes of a text of digits, two digits a byte. -/
def hexBytes : Text → List U8
  | high :: low :: rest => ((hexValue high <<< 4) ||| hexValue low) :: hexBytes rest
  | [_] => []
  | [] => []

theorem length_hexBytes (value : Text) : (hexBytes value).length = value.length / 2 := by
  induction value using hexBytes.induct with
  | case1 high low rest ih =>
    simp only [hexBytes, List.length_cons, ih]
    omega
  | case2 c => simp [hexBytes]
  | case3 => rfl

theorem toHex_eq (value : List U8) :
    toHex value = value.flatMap fun byte : U8 => [hexDigit (byte >>> 4), hexDigit byte] := by
  have hloop : ∀ (value : List U8) (out : Text),
      value.foldl (fun (out : Text) (byte : U8) =>
        out ++ [hexDigit (byte >>> 4)] ++ [hexDigit byte]) out
      = out ++ value.flatMap fun byte : U8 => [hexDigit (byte >>> 4), hexDigit byte] := by
    intro value
    induction value with
    | nil =>
      intro out
      simp
    | cons byte rest ih =>
      intro out
      rw [List.foldl_cons, ih, List.flatMap_cons]
      simp
  exact hloop value []

theorem toHex_cons (byte : U8) (rest : List U8) :
    toHex (byte :: rest) = hexDigit (byte >>> 4) :: hexDigit byte :: toHex rest := by
  rw [toHex_eq, toHex_eq, List.flatMap_cons]
  rfl

theorem length_toHex (value : List U8) : (toHex value).length = 2 * value.length := by
  induction value with
  | nil => rfl
  | cons byte rest ih =>
    rw [toHex_cons, List.length_cons, List.length_cons, List.length_cons, ih]
    omega

/-- What is written can be read. -/
theorem isHexText_toHex (value : List U8) : IsHexText (toHex value) := by
  constructor
  · rw [length_toHex]
    omega
  · intro c hc
    rw [toHex_eq, List.mem_flatMap] at hc
    obtain ⟨byte, -, hc⟩ := hc
    rcases List.mem_pair.1 hc with rfl | rfl
    · exact isHexDigit_hexDigit _
    · exact isHexDigit_hexDigit _

/-- The bytes of a written text. -/
theorem hexBytes_toHex (value : List U8) : hexBytes (toHex value) = value := by
  induction value with
  | nil => rfl
  | cons byte rest ih => rw [toHex_cons, hexBytes, ih, hexValue_hexDigit]

/-- The text of read bytes. -/
theorem toHex_hexBytes {value : Text} (h : IsHexText value) :
    toHex (hexBytes value) = value.map tolower := by
  obtain ⟨hlength, hdigits⟩ := h
  induction value using hexBytes.induct with
  | case1 high low rest ih =>
    have hrest : rest.length % 2 = 0 := by
      simp only [List.length_cons] at hlength
      omega
    obtain ⟨hupper, hlower⟩ := hexDigit_joined (hdigits high (by simp)) (hdigits low (by simp))
    rw [hexBytes, toHex_cons, ih hrest fun c hc => hdigits c (by simp [hc]), hupper, hlower]
    rfl
  | case2 c => simp at hlength
  | case3 => rfl

/-! ## The loop of the reader -/

/-- The bytes, position by position. -/
theorem hexBytes_eq_map (value : Text) :
    hexBytes value = (List.range (value.length / 2)).map fun i =>
      (hexValue (value.getD (2 * i) 0) <<< 4) ||| hexValue (value.getD (2 * i + 1) 0) := by
  induction value using hexBytes.induct with
  | case1 high low rest ih =>
    have hhalf : (high :: low :: rest).length / 2 = rest.length / 2 + 1 := by
      simp only [List.length_cons]
      omega
    rw [hexBytes, ih, hhalf, List.range_succ_eq_map, List.map_cons, List.map_map]
    rfl
  | case2 c => simp [hexBytes]
  | case3 => rfl

section Reader

variable {value : Text}

/-- A pass over two digits. -/
theorem fromHexStep_of_digits (out : List U8) {i : ℕ} (hi : 2 * i + 1 < value.length)
    (hhigh : IsHexDigit value[2 * i]) (hlow : IsHexDigit value[2 * i + 1]) :
    fromHexStep value out i
      = storeAt out i ((hexValue value[2 * i] <<< 4) ||| hexValue value[2 * i + 1]) := by
  unfold fromHexStep
  rw [readAt_of_lt (by omega), except_ok_bind, nibble_of_isHexDigit hhigh, except_ok_bind,
    readAt_of_lt hi, except_ok_bind, nibble_of_isHexDigit hlow, except_ok_bind]

/-- A pass over another character throws. -/
theorem fromHexStep_of_not (out : List U8) {i : ℕ} (hi : 2 * i + 1 < value.length)
    (h : ¬ (IsHexDigit value[2 * i] ∧ IsHexDigit value[2 * i + 1])) :
    fromHexStep value out i = .error invalidHexCharacter := by
  unfold fromHexStep
  rw [readAt_of_lt (by omega), except_ok_bind]
  by_cases hhigh : IsHexDigit value[2 * i]
  · have hlow : ¬ IsHexDigit value[2 * i + 1] := fun hlow => h ⟨hhigh, hlow⟩
    rw [nibble_of_isHexDigit hhigh, except_ok_bind, readAt_of_lt hi, except_ok_bind,
      nibble_of_not hlow]
    rfl
  · rw [nibble_of_not hhigh]
    rfl

/-- After `n` passes the loop has thrown, or the first `2 * n` characters are digits. -/
theorem fromHex_loop (value : Text) (n : ℕ) (hn : n ≤ value.length / 2) :
    (List.range n).foldlM (fromHexStep value) (List.replicate (value.length / 2) 0)
        = .error invalidHexCharacter ∨
      (∃ out, (List.range n).foldlM (fromHexStep value) (List.replicate (value.length / 2) 0)
        = .ok out ∧ out.length = value.length / 2) ∧
      ∀ i (hi : i < value.length), i < 2 * n → IsHexDigit value[i] := by
  induction n with
  | zero => exact Or.inr ⟨⟨_, rfl, by simp⟩, fun i _ h => absurd h (by omega)⟩
  | succ n ih =>
    rw [List.range_succ, List.foldlM_append]
    rcases ih (by omega) with hrun | ⟨⟨out, hrun, hlength⟩, hdigits⟩
    · left
      rw [hrun]
      rfl
    · have hlast : 2 * n + 1 < value.length := by omega
      rw [hrun, except_ok_bind, List.foldlM_cons]
      by_cases h : IsHexDigit value[2 * n] ∧ IsHexDigit value[2 * n + 1]
      · right
        rw [fromHexStep_of_digits out hlast h.1 h.2, storeAt_of_lt (by omega)]
        refine ⟨⟨_, rfl, by simpa using hlength⟩, fun i hi hlt => ?_⟩
        rcases (by omega : i < 2 * n ∨ i = 2 * n ∨ i = 2 * n + 1) with hold | rfl | rfl
        · exact hdigits i hi hold
        · exact h.1
        · exact h.2
      · left
        rw [fromHexStep_of_not out hlast h]
        rfl

end Reader

/-- A text of digits is read. -/
theorem fromHex_of_isHexText {value : Text} (h : IsHexText value) :
    fromHex value = .ok (hexBytes value) := by
  obtain ⟨hlength, hdigits⟩ := h
  have hstep : ∀ (out : List U8), ∀ i < value.length / 2, fromHexStep value out i
      = storeAt out (0 + i)
        ((hexValue (value.getD (2 * i) 0) <<< 4) ||| hexValue (value.getD (2 * i + 1) 0)) := by
    intro out i hi
    have hlow : 2 * i + 1 < value.length := by omega
    rw [fromHexStep_of_digits out hlow (hdigits _ (List.getElem_mem _))
      (hdigits _ (List.getElem_mem _)), Nat.zero_add, List.getD_eq_getElem _ _ hlow,
      List.getD_eq_getElem _ _ (by omega)]
  have hloop := foldlM_storeAt _ (value.length / 2)
    (by simp : 0 + value.length / 2 ≤ (List.replicate (value.length / 2) (0 : U8)).length) hstep
  unfold fromHex
  rw [if_neg (by omega)]
  refine hloop.trans ?_
  rw [← hexBytes_eq_map]
  unfold overwrite
  rw [length_hexBytes]
  simp

/-- **Every other text throws.** -/
theorem fromHex_of_not_isHexText {value : Text} (h : ¬ IsHexText value) :
    ∃ what, fromHex value = .error (.thrown .invalidArgument what) := by
  unfold fromHex
  by_cases hodd : value.length % 2 ≠ 0
  · rw [if_pos hodd]
    exact ⟨_, rfl⟩
  · rw [if_neg hodd]
    rcases fromHex_loop value _ le_rfl with hrun | ⟨-, hdigits⟩
    · exact ⟨_, hrun⟩
    · refine absurd ⟨by omega, fun c hc => ?_⟩ h
      obtain ⟨i, hi, rfl⟩ := List.getElem_of_mem hc
      exact hdigits i hi (by omega)

/-- Reading undoes writing. -/
theorem fromHex_toHex (value : List U8) : fromHex (toHex value) = .ok value := by
  rw [fromHex_of_isHexText (isHexText_toHex value), hexBytes_toHex]

/-- What is read, was a text of digits. -/
theorem fromHex_eq_ok_iff (value : Text) (bytes : List U8) :
    fromHex value = .ok bytes ↔ IsHexText value ∧ bytes = hexBytes value := by
  by_cases h : IsHexText value
  · rw [fromHex_of_isHexText h]
    constructor
    · intro heq
      exact ⟨h, (Except.ok.inj heq).symm⟩
    · rintro ⟨-, rfl⟩
      rfl
  · obtain ⟨what, hrun⟩ := fromHex_of_not_isHexText h
    rw [hrun]
    constructor
    · intro heq
      cases heq
    · rintro ⟨hhex, -⟩
      exact absurd hhex h

/-- A field of a fixed size. -/
theorem fixedHex_of_isHexText {value : Text} {n : ℕ} (h : IsHexText value)
    (hlength : value.length = 2 * n) (field : String) :
    ∃ bytes : Vector U8 n, fixedHex n value field = .ok bytes ∧ bytes.toList = hexBytes value := by
  have hn : (hexBytes value).length = n := by
    rw [length_hexBytes]
    omega
  unfold fixedHex
  rw [fromHex_of_isHexText h, except_ok_bind, dif_pos hn]
  exact ⟨_, rfl, rfl⟩
