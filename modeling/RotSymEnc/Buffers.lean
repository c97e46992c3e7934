/-
# Byte buffers

`std::vector<std::uint8_t>` and `std::span<const std::uint8_t>` are lists of
bytes; `size` is the value of their `.size()`.  The sources build byte strings in
two ways: by appending, and by storing at fixed offsets into a buffer of the
final size.  Stores and reads are checked: outside the buffer they are
`Fault.badAccess`.
-/
import RotSymEnc.Words

/-! ## Sizes, reads and stores -/

/-- `.size()`, a `std::size_t`. -/
def size (bytes : List U8) : U64 := BitVec.ofNat 64 bytes.length

theorem toNat_size {bytes : List U8} (h : bytes.length < 2 ^ 64) :
    (size bytes).toNat = bytes.length := by
  rw [size, BitVec.toNat_ofNat, Nat.mod_eq_of_lt h]

/-- `bytes[index]`. -/
def readAt (bytes : List U8) (index : ℕ) : Except Fault U8 :=
  match bytes[index]? with
  | some byte => .ok byte
  | none => .error .badAccess

theorem readAt_of_lt {bytes : List U8} {index : ℕ} (h : index < bytes.length) :
    readAt bytes index = .ok bytes[index] := by
  rw [readAt, List.getElem?_eq_getElem h]

/-- `bytes[index] = value`. -/
def storeAt (bytes : List U8) (index : ℕ) (value : U8) : Except Fault (List U8) :=
  if index < bytes.length then .ok (bytes.set index value) else .error .badAccess

theorem storeAt_of_lt {bytes : List U8} {index : ℕ} (h : index < bytes.length) (value : U8) :
    storeAt bytes index value = .ok (bytes.set index value) :=
  if_pos h

/-- `std::copy(source.begin(), source.end(), bytes.begin() + offset)`. -/
def copyTo (bytes : List U8) (offset : ℕ) (source : List U8) : Except Fault (List U8) :=
  (List.range source.length).foldlM
    (fun bytes i => do storeAt bytes (offset + i) (← readAt source i)) bytes

/-! ## Big-endian words -/

/-- The eight bytes of a word, the high one first. -/
def u64be (value : U64) : List U8 :=
  (List.range 8).map fun i => u8 (value >>> (56 - 8 * i))

@[simp] theorem length_u64be (value : U64) : (u64be value).length = 8 := rfl

/-- The bytes determine the word. -/
theorem u64be_injective : Function.Injective u64be := by
  intro value value' h
  have hbyte : ∀ i < 8, u8 (value >>> (56 - 8 * i)) = u8 (value' >>> (56 - 8 * i)) := by
    intro i hi
    have hget := congrArg (·[i]?) h
    simpa [u64be, hi] using hget
  apply BitVec.eq_of_getLsbD_eq
  intro k hk
  have hget := congrArg (·.getLsbD (k % 8)) (hbyte (7 - k / 8) (by omega))
  simp only [BitVec.getLsbD_setWidth, BitVec.getLsbD_ushiftRight] at hget
  have hindex : 56 - 8 * (7 - k / 8) + k % 8 = k := by omega
  have hmod : k % 8 < 8 := by omega
  simpa [hindex, hmod] using hget

/-- `append_u64_be`. -/
def appendU64Be (out : List U8) (value : U64) : List U8 :=
  [56, 48, 40, 32, 24, 16, 8, 0].foldl
    (fun out shift => out ++ [u8 ((value >>> shift) &&& 0xFF)]) out

/-- `store_u64_be` into the eight bytes from `offset`. -/
def storeU64Be (bytes : List U8) (offset : ℕ) (value : U64) : Except Fault (List U8) :=
  (List.range 8).foldlM
    (fun bytes i => storeAt bytes (offset + i) (u8 ((value >>> ((8 - 1 - i) * 8)) &&& 0xFF))) bytes

/-- Masking a byte out of a word is truncating the word. -/
theorem u8_and_mask (value : U64) : u8 (value &&& 0xFF) = u8 value := by
  apply BitVec.eq_of_toNat_eq
  rw [BitVec.toNat_setWidth, BitVec.toNat_setWidth, BitVec.toNat_and]
  show (value.toNat &&& 2 ^ 8 - 1) % 2 ^ 8 = _
  rw [Nat.and_two_pow_sub_one_eq_mod, Nat.mod_mod]

theorem appendU64Be_eq (out : List U8) (value : U64) :
    appendU64Be out value = out ++ u64be value := by
  simp only [appendU64Be, u8_and_mask, List.foldl_cons, List.foldl_nil, List.append_assoc]
  rfl

/-! ## Overwriting a stretch -/

/-- The bytes with those from `offset` on replaced by `source`. -/
def overwrite (bytes : List U8) (offset : ℕ) (source : List U8) : List U8 :=
  bytes.take offset ++ source ++ bytes.drop (offset + source.length)

theorem length_overwrite {bytes : List U8} {offset : ℕ} {source : List U8}
    (h : offset + source.length ≤ bytes.length) :
    (overwrite bytes offset source).length = bytes.length := by
  simp only [overwrite, List.length_append, List.length_take, List.length_drop]
  omega

/-- Inside the stretch the source is read, outside it the old bytes. -/
theorem getElem?_overwrite {bytes : List U8} {offset : ℕ} {source : List U8}
    (h : offset + source.length ≤ bytes.length) (j : ℕ) :
    (overwrite bytes offset source)[j]?
      = if offset ≤ j ∧ j < offset + source.length then source[j - offset]? else bytes[j]? := by
  have hlen : (bytes.take offset).length = offset := by
    rw [List.length_take]
    omega
  rw [overwrite, List.append_assoc]
  by_cases hlow : j < offset
  · rw [List.getElem?_append_left (by omega), List.getElem?_take_of_lt hlow, if_neg (by omega)]
  · rw [List.getElem?_append_right (by omega), hlen]
    by_cases hhigh : j < offset + source.length
    · rw [List.getElem?_append_left (by omega), if_pos ⟨by omega, hhigh⟩]
    · rw [List.getElem?_append_right (by omega), if_neg (by omega), List.getElem?_drop]
      congr 1
      omega

/-- Storing the next byte of the stretch. -/
theorem storeAt_overwrite {bytes : List U8} {offset : ℕ} {source : List U8}
    (h : offset + source.length < bytes.length) (value : U8) :
    storeAt (overwrite bytes offset source) (offset + source.length) value
      = .ok (overwrite bytes offset (source ++ [value])) := by
  have hlen : (bytes.take offset ++ source).length = offset + source.length := by
    simp only [List.length_append, List.length_take]
    omega
  rw [storeAt_of_lt (by rw [length_overwrite h.le]; exact h)]
  congr 1
  rw [overwrite, overwrite, List.set_append_right _ _ hlen.le, hlen, Nat.sub_self,
    List.drop_eq_getElem_cons h, List.set_cons_zero, List.length_append, List.length_singleton]
  simp only [List.append_assoc, List.singleton_append, Nat.add_assoc]

/-- **A loop that stores byte after byte** overwrites a stretch of the buffer. -/
theorem foldlM_storeAt {store : List U8 → ℕ → Except Fault (List U8)} {offset : ℕ} (f : ℕ → U8)
    {bytes : List U8} (n : ℕ) (h : offset + n ≤ bytes.length)
    (hstore : ∀ buffer, ∀ i < n, store buffer i = storeAt buffer (offset + i) (f i)) :
    (List.range n).foldlM store bytes
      = .ok (overwrite bytes offset ((List.range n).map f)) := by
  induction n with
  | zero =>
    simp only [List.range_zero, List.foldlM_nil, List.map_nil, overwrite, List.append_nil,
      List.length_nil, Nat.add_zero, List.take_append_drop]
    rfl
  | succ n ih =>
    have hlen : ((List.range n).map f).length = n := by simp
    have hlast := @storeAt_overwrite bytes offset ((List.range n).map f) (by rw [hlen]; omega) (f n)
    rw [hlen] at hlast
    rw [List.range_succ, List.foldlM_append,
      ih (by omega) fun buffer i hi => hstore buffer i (by omega)]
    show List.foldlM store _ [n] = _
    rw [List.foldlM_cons, hstore _ n (by omega), hlast, List.map_append]
    rfl

/-- A copy inside the buffer overwrites a stretch of it. -/
theorem copyTo_eq {bytes : List U8} {offset : ℕ} {source : List U8}
    (h : offset + source.length ≤ bytes.length) :
    copyTo bytes offset source = .ok (overwrite bytes offset source) := by
  have hsource : (List.range source.length).map (fun i => source.getD i 0) = source := by
    refine List.ext_getElem (by simp) fun i hi hi' => ?_
    simp [hi']
  rw [copyTo, foldlM_storeAt (fun i => source.getD i 0) _ h, hsource]
  intro buffer i hi
  rw [readAt_of_lt hi, List.getD_eq_getElem _ _ hi]
  rfl

/-- Storing a word overwrites the eight bytes from the offset on. -/
theorem storeU64Be_eq {bytes : List U8} {offset : ℕ} (h : offset + 8 ≤ bytes.length)
    (value : U64) : storeU64Be bytes offset value = .ok (overwrite bytes offset (u64be value)) := by
  refine foldlM_storeAt (fun i => u8 (value >>> (56 - 8 * i))) 8 h fun buffer i hi => ?_
  rw [u8_and_mask, show (8 - 1 - i) * 8 = 56 - 8 * i by omega]

/-- Overwriting the front of a zeroed rest. -/
theorem overwrite_zeros (written source : List U8) (m : ℕ) :
    overwrite (written ++ List.replicate m 0) written.length source
      = (written ++ source) ++ List.replicate (m - source.length) 0 := by
  rw [overwrite, List.take_left, List.drop_append, List.drop_eq_nil_of_le (by omega),
    List.nil_append, Nat.add_sub_cancel_left, List.drop_replicate]

/-- A copy to the front of a zeroed rest. -/
theorem copyTo_zeros (written : List U8) {source : List U8} {offset m : ℕ}
    (hoffset : offset = written.length) (h : source.length ≤ m) :
    copyTo (written ++ List.replicate m 0) offset source
      = .ok ((written ++ source) ++ List.replicate (m - source.length) 0) := by
  subst hoffset
  rw [copyTo_eq (by simp; omega), overwrite_zeros]

/-- A copy to the front of a zeroed buffer. -/
theorem copyTo_front (source : List U8) {m : ℕ} (h : source.length ≤ m) :
    copyTo (List.replicate m 0) 0 source
      = .ok (source ++ List.replicate (m - source.length) 0) :=
  copyTo_zeros [] rfl h

/-- A word stored at the front of a zeroed rest. -/
theorem storeU64Be_zeros (written : List U8) {offset m : ℕ} (hoffset : offset = written.length)
    (h : 8 ≤ m) (value : U64) :
    storeU64Be (written ++ List.replicate m 0) offset value
      = .ok ((written ++ u64be value) ++ List.replicate (m - 8) 0) := by
  subst hoffset
  rw [storeU64Be_eq (by simp; omega), overwrite_zeros, length_u64be]

/-- A byte stored inside the part already written. -/
theorem storeAt_written {written : List U8} {offset m : ℕ} (h : offset < written.length)
    (value : U8) :
    storeAt (written ++ List.replicate m 0) offset value
      = .ok (written.set offset value ++ List.replicate m 0) := by
  rw [storeAt_of_lt (by rw [List.length_append]; omega), List.set_append_left _ _ h]
