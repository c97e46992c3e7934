/-
# The record of the nonce counter

`encode_state` and `decode_state` of the persistent nonce counter: 90 bytes that
hold the magic, the scope, the exhausted flag and the next nonce, each of the last
three followed by its complement.

`HoldsState` says region by region what a record of a state contains.  Decoding
accepts exactly these records, encoding writes one, and the seven regions tile the
90 bytes; round trip, canonicity and the distance of two records follow.
-/
import RotSymEnc.Aead

/-! ## Loops of stores -/

section Stores

variable {α β : Type} {m : ℕ} {step : Vector β m → α → Vector β m}
  {written : α → ℕ → Prop} {target : α → ℕ → β}

/-- **A loop of stores** leaves at every position the value stored there, where the
passes that store at one position store the same value. -/
theorem getElem_foldl_store
    (hstep : ∀ v a j (hj : j < m), written a j → (step v a)[j] = target a j)
    (hframe : ∀ v a j (hj : j < m), ¬ written a j → (step v a)[j] = v[j])
    (hagree : ∀ a a' j, written a j → written a' j → target a j = target a' j)
    {l : List α} {a : α} (ha : a ∈ l) {j : ℕ} (hj : j < m) (hw : written a j) (v : Vector β m) :
    (l.foldl step v)[j] = target a j := by
  -- the last pass that stores at `j` decides, so the induction is from the end
  induction l using List.reverseRecOn generalizing a with
  | nil => exact absurd ha List.not_mem_nil
  | append_singleton l b ih =>
    rw [List.foldl_append, List.foldl_cons, List.foldl_nil]
    by_cases hb : written b j
    · rw [hstep _ b j hj hb, hagree b a j hb hw]
    · rw [hframe _ b j hj hb]
      rcases List.mem_append.mp ha with hl | hlast
      · exact ih hl hw
      · obtain rfl := List.mem_singleton.mp hlast
        exact absurd hw hb

/-- Where no pass stores, the old value stays. -/
theorem getElem_foldl_frame
    (hframe : ∀ v a j (hj : j < m), ¬ written a j → (step v a)[j] = v[j]) {l : List α} {j : ℕ}
    (hj : j < m) (hw : ∀ a ∈ l, ¬ written a j) (v : Vector β m) : (l.foldl step v)[j] = v[j] := by
  induction l generalizing v with
  | nil => rfl
  | cons a l ih =>
    rw [List.foldl_cons, ih fun b hb => hw b (List.mem_cons_of_mem a hb)]
    exact hframe v a j hj (hw a List.mem_cons_self)

/-- A loop that writes every entry of an array. -/
theorem foldl_set_finRange {n : ℕ} (f : Fin n → β) (v : Vector β n) :
    (List.finRange n).foldl (fun (v : Vector β n) (i : Fin n) => v.set i (f i) i.isLt) v
      = Vector.ofFn f := by
  refine Vector.ext fun j hj => ?_
  rw [Vector.getElem_ofFn]
  refine @getElem_foldl_store _ _ _ _ (fun i j => i.val = j) (fun i _ => f i) ?_ ?_ ?_ _ ⟨j, hj⟩
    (List.mem_finRange _) j hj rfl v
  · rintro v i j hj rfl
    exact Vector.getElem_set_self hj
  · intro v i j hj hij
    exact Vector.getElem_set_ne _ hj hij
  · rintro i i' j rfl h
    rw [Fin.ext h]

end Stores

/-- A loop that checks every entry before it goes on: it ends in the fault at the
first bad one. -/
theorem foldlM_check {α σ : Type} (bad : α → Prop) [DecidablePred bad] (e : Fault)
    (step : σ → α → σ) (l : List α) (s : σ) :
    l.foldlM (fun s a => if bad a then (.error e : Except Fault σ) else .ok (step s a)) s
      = if ∃ a ∈ l, bad a then .error e else .ok (l.foldl step s) := by
  induction l generalizing s with
  | nil =>
    rw [if_neg (by simp)]
    rfl
  | cons a l ih =>
    rw [List.foldlM_cons]
    by_cases ha : bad a
    · rw [if_pos ha, if_pos ⟨a, List.mem_cons_self, ha⟩]
      rfl
    · rw [if_neg ha, StatefulRuns.except_ok_bind, ih, List.foldl_cons]
      simp only [List.exists_mem_cons_iff, ha, false_or]

/-! ## Offsets and states -/

/-- `kStateMagic`: `PVCNCTR1`. -/
def kStateMagic : Vector U8 8 := #v[0x50, 0x56, 0x43, 0x4E, 0x43, 0x54, 0x52, 0x31]

def kScopeOffset : ℕ := 8

def kScopeComplementOffset : ℕ := kScopeOffset + 16

def kExhaustedOffset : ℕ := kScopeComplementOffset + 16

def kExhaustedComplementOffset : ℕ := kExhaustedOffset + 1

def kNonceOffset : ℕ := kExhaustedComplementOffset + 1

def kNonceComplementOffset : ℕ := kNonceOffset + 24

def kStateBytes : ℕ := kNonceComplementOffset + 24

theorem offsets_eq : kScopeOffset = 8 ∧ kScopeComplementOffset = 24 ∧ kExhaustedOffset = 40 ∧
    kExhaustedComplementOffset = 41 ∧ kNonceOffset = 42 ∧ kNonceComplementOffset = 66 ∧
    kStateBytes = 90 := by
  decide

/-- `NonceScope128`. -/
abbrev NonceScope128 := Vector U8 16

/-- `struct CounterState`. -/
structure CounterState : Type where
  scope : NonceScope128
  next : Nonce192
  exhausted : Bool
  deriving DecidableEq

/-! ## Encoding and decoding -/

/-- The loop that stores an array at one offset and its complement at another. -/
def storeRedundant {m n : ℕ} (encoded : Vector U8 m) (offset complementOffset : ℕ)
    (source : Vector U8 n) (h : offset + n ≤ m) (hc : complementOffset + n ≤ m) : Vector U8 m :=
  (List.finRange n).foldl (fun (encoded : Vector U8 m) (index : Fin n) =>
    (encoded.set (offset + index) source[index] (by omega)).set
      (complementOffset + index) (~~~ source[index]) (by omega)) encoded

/-- `encode_state`. -/
def encodeState (state : CounterState) : Vector U8 kStateBytes :=
  let encoded : Vector U8 kStateBytes := Vector.replicate kStateBytes 0
  let encoded := (List.finRange 8).foldl (fun (encoded : Vector U8 kStateBytes) (index : Fin 8) =>
    encoded.set index (kStateMagic.get index) (lt_of_lt_of_le index.isLt (by decide))) encoded
  let encoded := storeRedundant encoded kScopeOffset kScopeComplementOffset state.scope
    (by decide) (by decide)
  let encoded := encoded.set kExhaustedOffset (if state.exhausted then 1 else 0) (by decide)
  let encoded := encoded.set kExhaustedComplementOffset
    (~~~ encoded.get ⟨kExhaustedOffset, by decide⟩) (by decide)
  storeRedundant encoded kNonceOffset kNonceComplementOffset state.next (by decide) (by decide)

/-- The loop that reads an array back and compares it with its complement. -/
def readRedundant {m n : ℕ} (encoded : Vector U8 m) (offset complementOffset : ℕ)
    (h : offset + n ≤ m) (hc : complementOffset + n ≤ m) (what : String) :
    Except Fault (Vector U8 n) :=
  (List.finRange n).foldlM (fun (out : Vector U8 n) (index : Fin n) =>
    let value := encoded.get ⟨offset + index, by omega⟩
    if encoded.get ⟨complementOffset + index, by omega⟩ ≠ ~~~ value then
      .error (.thrown .runtimeError what)
    else .ok (out.set index value)) (Vector.replicate n 0)

/-- `decode_state`. -/
def decodeState (encoded : Vector U8 kStateBytes) : Except Fault CounterState := do
  if ¬ ∀ index : Fin 8, encoded.get (index.castLE (by decide)) = kStateMagic.get index then
    throw (.thrown .runtimeError "nonce counter state magic mismatch")
  let scope ← readRedundant encoded kScopeOffset kScopeComplementOffset (by decide) (by decide)
    "nonce counter scope redundancy mismatch"
  let exhausted := encoded.get ⟨kExhaustedOffset, by decide⟩
  if exhausted > 1 ∨ encoded.get ⟨kExhaustedComplementOffset, by decide⟩ ≠ ~~~ exhausted then
    throw (.thrown .runtimeError "nonce counter exhausted flag mismatch")
  let next ← readRedundant encoded kNonceOffset kNonceComplementOffset (by decide) (by decide)
    "nonce counter value redundancy mismatch"
  return ⟨scope, next, exhausted == 1⟩

/-! ## Redundant arrays -/

/-- The bytes from one offset are `source`, those from the other its complement. -/
def HoldsRedundant {m n : ℕ} (encoded : Vector U8 m) (offset complementOffset : ℕ)
    (source : Vector U8 n) : Prop :=
  ∀ i (hi : i < n), encoded[offset + i]? = some source[i] ∧
    encoded[complementOffset + i]? = some (~~~ source[i])

section Redundant

variable {m n : ℕ} {offset complementOffset : ℕ} (h : offset + n ≤ m)
  (hc : complementOffset + n ≤ m)

/-- Outside the two stretches the buffer keeps its bytes. -/
theorem storeRedundant_frame (encoded : Vector U8 m) (source : Vector U8 n) {j : ℕ}
    (hlow : j < offset ∨ offset + n ≤ j) (hhigh : j < complementOffset ∨ complementOffset + n ≤ j) :
    (storeRedundant encoded offset complementOffset source h hc)[j]? = encoded[j]? := by
  by_cases hj : j < m
  · rw [Vector.getElem?_eq_getElem hj, Vector.getElem?_eq_getElem hj]
    congr 1
    unfold storeRedundant
    refine @getElem_foldl_frame _ _ _ _
      (fun (i : Fin n) j => offset + i.val = j ∨ complementOffset + i.val = j) ?_ _ j hj ?_ _
    · intro v i j hj hij
      rw [not_or] at hij
      rw [Vector.getElem_set_ne _ hj hij.2, Vector.getElem_set_ne _ hj hij.1]
    · intro i _
      omega
  · rw [Vector.getElem?_eq_none (by omega), Vector.getElem?_eq_none (by omega)]

/-- Storing an array and its complement behind it. -/
theorem holdsRedundant_storeRedundant (hdisjoint : offset + n ≤ complementOffset)
    (encoded : Vector U8 m) (source : Vector U8 n) :
    HoldsRedundant (storeRedundant encoded offset complementOffset source h hc) offset
      complementOffset source := by
  have hstored : ∀ (i : Fin n) j (hj : j < m), offset + i.val = j ∨ complementOffset + i.val = j →
      (storeRedundant encoded offset complementOffset source h hc)[j]
        = if offset + i.val = j then source[i] else ~~~ source[i] := by
    intro i j hj hij
    unfold storeRedundant
    refine @getElem_foldl_store _ _ _ _
      (fun (i : Fin n) j => offset + i.val = j ∨ complementOffset + i.val = j)
      (fun (i : Fin n) j => if offset + i.val = j then source[i] else ~~~ source[i])
      ?_ ?_ ?_ _ i (List.mem_finRange i) j hj hij _
    · rintro v i j hj (rfl | rfl)
      · rw [Vector.getElem_set_ne _ hj (by omega), Vector.getElem_set_self, if_pos rfl]
      · rw [Vector.getElem_set_self, if_neg (by omega)]
    · intro v i j hj hij
      rw [not_or] at hij
      rw [Vector.getElem_set_ne _ hj hij.2, Vector.getElem_set_ne _ hj hij.1]
    · intro i i' j hi hi'
      obtain rfl : i = i' := by
        apply Fin.ext
        omega
      rfl
  intro i hi
  have hlow := hstored ⟨i, hi⟩ (offset + i) (by omega) (.inl rfl)
  have hhigh := hstored ⟨i, hi⟩ (complementOffset + i) (by omega) (.inr rfl)
  rw [if_pos rfl] at hlow
  rw [if_neg (by change ¬ offset + i = _; omega)] at hhigh
  rw [Vector.getElem?_eq_getElem (by omega), Vector.getElem?_eq_getElem (by omega), hlow, hhigh]
  exact ⟨rfl, rfl⟩

/-- **What is read back**: the array that the buffer holds redundantly. -/
theorem readRedundant_eq_ok_iff {encoded : Vector U8 m} {what : String} {source : Vector U8 n} :
    readRedundant encoded offset complementOffset h hc what = .ok source
      ↔ HoldsRedundant encoded offset complementOffset source := by
  unfold readRedundant
  rw [foldlM_check (fun i : Fin n => encoded.get ⟨complementOffset + i, by omega⟩
    ≠ ~~~ encoded.get ⟨offset + i, by omega⟩), foldl_set_finRange]
  have hget : ∀ k (hk : k < m), encoded[k]? = some (encoded.get ⟨k, hk⟩) := fun k hk =>
    Vector.getElem?_eq_getElem hk
  constructor
  · intro hread
    by_cases hbad : ∃ i ∈ List.finRange n, encoded.get ⟨complementOffset + i, by omega⟩
        ≠ ~~~ encoded.get ⟨offset + i, by omega⟩
    · rw [if_pos hbad] at hread
      exact absurd hread (by simp)
    · rw [if_neg hbad] at hread
      obtain rfl := Except.ok.inj hread
      intro i hi
      push Not at hbad
      rw [hget _ (by omega), hget _ (by omega), Vector.getElem_ofFn,
        hbad ⟨i, hi⟩ (List.mem_finRange _)]
      exact ⟨rfl, rfl⟩
  · intro hholds
    have hread : ∀ i : Fin n, encoded.get ⟨offset + i, by omega⟩ = source[i] ∧
        encoded.get ⟨complementOffset + i, by omega⟩ = ~~~ source[i] := by
      intro i
      have hi := hholds i i.isLt
      rw [hget _ (by omega), hget _ (by omega)] at hi
      exact ⟨Option.some.inj hi.1, Option.some.inj hi.2⟩
    rw [if_neg]
    · congr 1
      refine Vector.ext fun j hj => ?_
      rw [Vector.getElem_ofFn]
      exact (hread ⟨j, hj⟩).1
    · rintro ⟨i, -, hi⟩
      exact hi (by rw [(hread i).1, (hread i).2])

/-- What is not read back is refused with the text of its loop. -/
theorem readRedundant_cases (encoded : Vector U8 m) (what : String) :
    (∃ source : Vector U8 n, readRedundant encoded offset complementOffset h hc what = .ok source) ∨
      (readRedundant encoded offset complementOffset h hc what : Except Fault (Vector U8 n))
        = .error (.thrown .runtimeError what) := by
  unfold readRedundant
  rw [foldlM_check (fun i : Fin n => encoded.get ⟨complementOffset + i, by omega⟩
    ≠ ~~~ encoded.get ⟨offset + i, by omega⟩)]
  split
  · exact .inr rfl
  · exact .inl ⟨_, rfl⟩

/-- An array held redundantly stays held where its bytes stay. -/
theorem HoldsRedundant.congr {encoded encoded' : Vector U8 m} {source : Vector U8 n}
    (hheld : HoldsRedundant encoded offset complementOffset source)
    (hlow : ∀ i < n, encoded'[offset + i]? = encoded[offset + i]?)
    (hhigh : ∀ i < n, encoded'[complementOffset + i]? = encoded[complementOffset + i]?) :
    HoldsRedundant encoded' offset complementOffset source := by
  intro i hi
  rw [hlow i hi, hhigh i hi]
  exact hheld i hi

end Redundant

/-! ## Records of a state -/

/-- The byte of the exhausted flag. -/
def exhaustedByte (exhausted : Bool) : U8 := if exhausted then 1 else 0

/-- The seven regions of a record of `state`. -/
structure HoldsState (encoded : Vector U8 kStateBytes) (state : CounterState) : Prop where
  magic : ∀ i (hi : i < 8), encoded[i]? = some kStateMagic[i]
  scope : HoldsRedundant encoded kScopeOffset kScopeComplementOffset state.scope
  exhausted : encoded[kExhaustedOffset]? = some (exhaustedByte state.exhausted)
  exhaustedComplement :
    encoded[kExhaustedComplementOffset]? = some (~~~ exhaustedByte state.exhausted)
  next : HoldsRedundant encoded kNonceOffset kNonceComplementOffset state.next

/-- **The regions tile the record**: its bytes are determined by the state. -/
theorem HoldsState.eq {encoded encoded' : Vector U8 kStateBytes} {state : CounterState}
    (h : HoldsState encoded state) (h' : HoldsState encoded' state) : encoded = encoded' := by
  refine Vector.ext fun j hj => ?_
  apply Option.some.inj
  rw [← Vector.getElem?_eq_getElem hj, ← Vector.getElem?_eq_getElem hj]
  change j < 90 at hj
  -- the seven regions, from the front of the record to its end
  rcases lt_or_ge j 8 with hmagic | hmagic
  · rw [h.magic j hmagic, h'.magic j hmagic]
  obtain ⟨i, rfl⟩ := Nat.exists_eq_add_of_le hmagic
  rcases lt_or_ge i 16 with hscope | hscope
  · exact (h.scope i hscope).1.trans (h'.scope i hscope).1.symm
  obtain ⟨i, rfl⟩ := Nat.exists_eq_add_of_le hscope
  rw [← Nat.add_assoc] at hj ⊢
  rcases lt_or_ge i 16 with hscope | hscope
  · exact (h.scope i hscope).2.trans (h'.scope i hscope).2.symm
  obtain ⟨i, rfl⟩ := Nat.exists_eq_add_of_le hscope
  rw [← Nat.add_assoc] at hj ⊢
  rcases Nat.lt_or_ge i 2 with hflag | hflag
  · interval_cases i
    · exact h.exhausted.trans h'.exhausted.symm
    · exact h.exhaustedComplement.trans h'.exhaustedComplement.symm
  obtain ⟨i, rfl⟩ := Nat.exists_eq_add_of_le hflag
  rw [← Nat.add_assoc] at hj ⊢
  rcases lt_or_ge i 24 with hnext | hnext
  · exact (h.next i hnext).1.trans (h'.next i hnext).1.symm
  obtain ⟨i, rfl⟩ := Nat.exists_eq_add_of_le hnext
  rw [← Nat.add_assoc] at hj ⊢
  exact (h.next i (by omega)).2.trans (h'.next i (by omega)).2.symm

/-- The first loop of `encode_state` stores the magic. -/
theorem getElem?_storeMagic (encoded : Vector U8 kStateBytes) {i : ℕ} (hi : i < 8) :
    ((List.finRange 8).foldl (fun (encoded : Vector U8 kStateBytes) (index : Fin 8) =>
      encoded.set index (kStateMagic.get index)
        (lt_of_lt_of_le index.isLt (by decide))) encoded)[i]?
      = some kStateMagic[i] := by
  have hlt : i < kStateBytes := lt_of_lt_of_le hi (by decide)
  rw [Vector.getElem?_eq_getElem hlt]
  congr 1
  refine @getElem_foldl_store _ _ _ _ (fun (k : Fin 8) j => k.val = j)
    (fun k _ => kStateMagic[k]) ?_ ?_ ?_ _ ⟨i, hi⟩ (List.mem_finRange _) i hlt rfl encoded
  · rintro v k j hj rfl
    exact Vector.getElem_set_self hj
  · intro v k j hj hkj
    exact Vector.getElem_set_ne _ hj hkj
  · rintro k k' j rfl h
    rw [Fin.ext h]

/-- **Encoding writes a record of the state.** -/
theorem holdsState_encodeState (state : CounterState) : HoldsState (encodeState state) state := by
  obtain ⟨hso, hsc, heo, hec, hno, hnc, hsize⟩ := offsets_eq
  unfold encodeState
  extract_lets zeros withMagic withScope withFlag withComplement
  have hmagic : ∀ i (hi : i < 8), withMagic[i]? = some kStateMagic[i] :=
    fun i hi => getElem?_storeMagic zeros hi
  have hscope : HoldsRedundant withScope kScopeOffset kScopeComplementOffset state.scope :=
    holdsRedundant_storeRedundant _ _ (by decide) withMagic state.scope
  have hscopeFrame : ∀ j < kScopeOffset, withScope[j]? = withMagic[j]? := fun j hj =>
    storeRedundant_frame _ _ _ _ (.inl hj) (.inl (by omega))
  have hflag : withFlag[kExhaustedOffset]? = some (exhaustedByte state.exhausted) := by
    rw [Vector.getElem?_eq_getElem (by decide)]
    exact congrArg some (Vector.getElem_set_self _)
  have hflagFrame : ∀ j < kExhaustedOffset, withFlag[j]? = withScope[j]? := fun j hj =>
    Vector.getElem?_set_ne (by decide) (by omega)
  have hcomplement : withComplement[kExhaustedComplementOffset]?
      = some (~~~ exhaustedByte state.exhausted) := by
    rw [Vector.getElem?_eq_getElem (by decide)] at hflag ⊢
    rw [← Option.some.inj hflag]
    exact congrArg some (Vector.getElem_set_self _)
  have hcomplementFrame : ∀ j < kExhaustedComplementOffset, withComplement[j]? = withFlag[j]? :=
    fun j hj => Vector.getElem?_set_ne (by decide) (by omega)
  have hnextFrame : ∀ j < kNonceOffset, (storeRedundant withComplement kNonceOffset
      kNonceComplementOffset state.next (by decide) (by decide))[j]? = withComplement[j]? :=
    fun j hj => storeRedundant_frame _ _ _ _ (.inl hj) (.inl (by omega))
  clear_value withMagic withScope withFlag withComplement
  constructor
  · intro i hi
    rw [hnextFrame i (by omega), hcomplementFrame i (by omega), hflagFrame i (by omega),
      hscopeFrame i (by omega), hmagic i hi]
  · apply hscope.congr
    · intro i hi
      rw [hnextFrame _ (by omega), hcomplementFrame _ (by omega), hflagFrame _ (by omega)]
    · intro i hi
      rw [hnextFrame _ (by omega), hcomplementFrame _ (by omega), hflagFrame _ (by omega)]
  · rw [hnextFrame _ (by omega), hcomplementFrame _ (by omega), hflag]
  · rw [hnextFrame _ (by omega), hcomplement]
  · exact holdsRedundant_storeRedundant _ _ (by decide) _ _

section Bytes

variable {encoded : Vector U8 kStateBytes} {state : CounterState}

theorem HoldsState.get_exhausted (h : HoldsState encoded state) :
    encoded.get ⟨kExhaustedOffset, by decide⟩ = exhaustedByte state.exhausted :=
  Option.some.inj ((Vector.getElem?_eq_getElem _).symm.trans h.exhausted)

theorem HoldsState.get_exhaustedComplement (h : HoldsState encoded state) :
    encoded.get ⟨kExhaustedComplementOffset, by decide⟩ = ~~~ exhaustedByte state.exhausted :=
  Option.some.inj ((Vector.getElem?_eq_getElem _).symm.trans h.exhaustedComplement)

end Bytes

/-- The flag check of `decode_state` passes on the flag byte of a state. -/
theorem exhaustedByte_spec {byte complement : U8} {exhausted : Bool} :
    (¬ (byte > 1 ∨ complement ≠ ~~~ byte) ∧ (byte == 1) = exhausted)
      ↔ byte = exhaustedByte exhausted ∧ complement = ~~~ exhaustedByte exhausted := by
  have hflag : ∀ byte : U8, ∀ exhausted : Bool,
      (¬ byte > 1 ∧ (byte == 1) = exhausted) ↔ byte = exhaustedByte exhausted := by decide
  rw [not_or, not_not]
  constructor
  · rintro ⟨⟨hle, hcomplement⟩, hexhausted⟩
    have hbyte := (hflag byte exhausted).mp ⟨hle, hexhausted⟩
    exact ⟨hbyte, hbyte ▸ hcomplement⟩
  · rintro ⟨hbyte, hcomplement⟩
    obtain ⟨hle, hexhausted⟩ := (hflag byte exhausted).mpr hbyte
    exact ⟨⟨hle, hbyte ▸ hcomplement⟩, hexhausted⟩

/-- A record that does not decode is refused with a `runtime_error`. -/
theorem decodeState_cases (encoded : Vector U8 kStateBytes) :
    (∃ state, decodeState encoded = .ok state) ∨
      ∃ what, decodeState encoded = .error (.thrown .runtimeError what) := by
  unfold decodeState
  split
  · exact .inr ⟨_, rfl⟩
  rcases @readRedundant_cases _ 16 kScopeOffset kScopeComplementOffset (by decide) (by decide)
    encoded "nonce counter scope redundancy mismatch" with ⟨scope, hscope⟩ | hscope
  · rw [hscope]
    simp only [StatefulRuns.except_ok_bind]
    split
    · exact .inr ⟨_, rfl⟩
    rcases @readRedundant_cases _ 24 kNonceOffset kNonceComplementOffset (by decide) (by decide)
      encoded "nonce counter value redundancy mismatch" with ⟨next, hnext⟩ | hnext
    · rw [hnext]
      exact .inl ⟨_, rfl⟩
    · rw [hnext]
      exact .inr ⟨_, rfl⟩
  · rw [hscope]
    exact .inr ⟨_, rfl⟩

/-- **A record of a state decodes to it.** -/
theorem HoldsState.decodeState_eq {encoded : Vector U8 kStateBytes} {state : CounterState}
    (h : HoldsState encoded state) : decodeState encoded = .ok state := by
  have hmagic : ∀ index : Fin 8,
      encoded.get (index.castLE (by decide)) = kStateMagic.get index := by
    intro index
    exact Option.some.inj ((Vector.getElem?_eq_getElem _).symm.trans (h.magic index index.isLt))
  have hflag := exhaustedByte_spec.mpr ⟨h.get_exhausted, h.get_exhaustedComplement⟩
  unfold decodeState
  rw [if_neg (not_not.mpr hmagic), (readRedundant_eq_ok_iff _ _).mpr h.scope,
    (readRedundant_eq_ok_iff _ _).mpr h.next]
  simp only [StatefulRuns.except_ok_bind]
  rw [if_neg hflag.1, hflag.2]
  rfl

/-- **What decodes is a record** of the state it decodes to. -/
theorem holdsState_of_decodeState {encoded : Vector U8 kStateBytes} {state : CounterState}
    (h : decodeState encoded = .ok state) : HoldsState encoded state := by
  have hget : ∀ k (hk : k < kStateBytes), encoded[k]? = some (encoded.get ⟨k, hk⟩) := fun k hk =>
    Vector.getElem?_eq_getElem hk
  unfold decodeState at h
  by_cases hmagic : ∀ index : Fin 8, encoded.get (index.castLE (by decide)) = kStateMagic.get index
  swap
  · rw [if_pos hmagic] at h
    exact absurd h (by simp [throw, throwThe, MonadExceptOf.throw, bind, Except.bind])
  rw [if_neg (not_not.mpr hmagic)] at h
  rcases @readRedundant_cases _ 16 kScopeOffset kScopeComplementOffset (by decide) (by decide)
    encoded "nonce counter scope redundancy mismatch" with ⟨scope, hscope⟩ | hscope
  swap
  · rw [hscope] at h
    exact absurd h (by simp [bind, Except.bind])
  rw [hscope] at h
  by_cases hflag : encoded.get ⟨kExhaustedOffset, by decide⟩ > 1
      ∨ encoded.get ⟨kExhaustedComplementOffset, by decide⟩
        ≠ ~~~ encoded.get ⟨kExhaustedOffset, by decide⟩
  · simp only [StatefulRuns.except_ok_bind, if_pos hflag] at h
    exact absurd h (by simp [throw, throwThe, MonadExceptOf.throw, bind, Except.bind])
  simp only [StatefulRuns.except_ok_bind, if_neg hflag] at h
  rcases @readRedundant_cases _ 24 kNonceOffset kNonceComplementOffset (by decide) (by decide)
    encoded "nonce counter value redundancy mismatch" with ⟨next, hnext⟩ | hnext
  swap
  · rw [hnext] at h
    exact absurd h (by simp [bind, Except.bind])
  rw [hnext] at h
  obtain rfl := Except.ok.inj h
  obtain ⟨hbyte, hcomplement⟩ := exhaustedByte_spec.mp ⟨hflag, rfl⟩
  constructor
  · intro i hi
    rw [hget i (lt_of_lt_of_le hi (by decide))]
    exact congrArg some (hmagic ⟨i, hi⟩)
  · exact (readRedundant_eq_ok_iff _ _).mp hscope
  · exact (hget _ _).trans (congrArg some hbyte)
  · exact (hget _ _).trans (congrArg some hcomplement)
  · exact (readRedundant_eq_ok_iff _ _).mp hnext

/-- Two places at which two arrays differ. -/
theorem two_le_hammingDist_of_ne {n : ℕ} {f g : Fin n → U8} {i j : Fin n} (hij : i ≠ j)
    (hi : f i ≠ g i) (hj : f j ≠ g j) : 2 ≤ hammingDist f g := by
  unfold hammingDist
  refine Finset.one_lt_card.mpr ⟨i, ?_, j, ?_, hij⟩
  · exact Finset.mem_filter.mpr ⟨Finset.mem_univ i, hi⟩
  · exact Finset.mem_filter.mpr ⟨Finset.mem_univ j, hj⟩

/-- One byte changed. -/
theorem hammingDist_set_le {n : ℕ} (v : Vector U8 n) (i : ℕ) (value : U8) (hi : i < n) :
    hammingDist (v.set i value).get v.get ≤ 1 := by
  unfold hammingDist
  refine (Finset.card_le_card fun j hj => ?_).trans (Finset.card_singleton (⟨i, hi⟩ : Fin n)).le
  rw [Finset.mem_singleton]
  by_contra hne
  refine (Finset.mem_filter.mp hj).2 (Vector.getElem_set_ne hi j.isLt fun heq => hne ?_)
  exact Fin.ext heq.symm

/-- Where two arrays held redundantly differ, so do their complements. -/
theorem HoldsRedundant.two_le_hammingDist {m n : ℕ} {offset complementOffset : ℕ}
    (h : offset + n ≤ complementOffset) (hc : complementOffset + n ≤ m)
    {encoded encoded' : Vector U8 m}
    {source source' : Vector U8 n} (hheld : HoldsRedundant encoded offset complementOffset source)
    (hheld' : HoldsRedundant encoded' offset complementOffset source') (hne : source ≠ source') :
    2 ≤ hammingDist encoded.get encoded'.get := by
  have hex : ∃ i, ∃ hi : i < n, source[i] ≠ source'[i] := by
    by_contra hall
    push Not at hall
    exact hne (Vector.ext hall)
  obtain ⟨i, hi, hbyte⟩ := hex
  have hget : ∀ (v : Vector U8 m) k (hk : k < m), some (v.get ⟨k, hk⟩) = v[k]? := fun v k hk =>
    (Vector.getElem?_eq_getElem hk).symm
  refine @two_le_hammingDist_of_ne m _ _ ⟨offset + i, by omega⟩ ⟨complementOffset + i, by omega⟩
    ?_ ?_ ?_
  · intro heq
    have hval : offset + i = complementOffset + i := Fin.val_eq_of_eq heq
    omega
  · intro heq
    apply hbyte
    apply Option.some.inj
    rw [← (hheld i hi).1, ← (hheld' i hi).1, ← hget _ _ (by omega), ← hget _ _ (by omega), heq]
  · intro heq
    have hcomplement : ~~~ source[i] = ~~~ source'[i] := by
      apply Option.some.inj
      rw [← (hheld i hi).2, ← (hheld' i hi).2, ← hget _ _ (by omega), ← hget _ _ (by omega), heq]
    exact hbyte (BitVec.not_inj.mp hcomplement)

/-- Two records of different states differ in at least two bytes. -/
theorem HoldsState.two_le_hammingDist {encoded encoded' : Vector U8 kStateBytes}
    {state state' : CounterState} (h : HoldsState encoded state) (h' : HoldsState encoded' state')
    (hne : state ≠ state') : 2 ≤ hammingDist encoded.get encoded'.get := by
  by_cases hscope : state.scope = state'.scope
  swap
  · exact h.scope.two_le_hammingDist (by decide) (by decide) h'.scope hscope
  by_cases hnext : state.next = state'.next
  swap
  · exact h.next.two_le_hammingDist (by decide) (by decide) h'.next hnext
  have hflag : exhaustedByte state.exhausted ≠ exhaustedByte state'.exhausted := by
    have hinjective : ∀ b b', exhaustedByte b = exhaustedByte b' → b = b' := by decide
    intro heq
    have hexhausted := hinjective _ _ heq
    cases state
    cases state'
    simp_all
  refine @two_le_hammingDist_of_ne kStateBytes _ _ ⟨kExhaustedOffset, by decide⟩
    ⟨kExhaustedComplementOffset, by decide⟩ (by decide) ?_ ?_
  · rw [h.get_exhausted, h'.get_exhausted]
    exact hflag
  · rw [h.get_exhaustedComplement, h'.get_exhaustedComplement]
    exact fun heq => hflag (BitVec.not_inj.mp heq)

/-- **The record is a canonical, error-detecting encoding.**  Every state decodes
from its record; whatever decodes is the record of the state it decodes to; records
of different states differ in at least two bytes; and a record with one byte changed
is refused. -/
theorem record_canonical :
    (∀ state, decodeState (encodeState state) = .ok state) ∧
    (∀ encoded state, decodeState encoded = .ok state → encoded = encodeState state) ∧
    (∀ state state', state ≠ state' →
      2 ≤ hammingDist (encodeState state).get (encodeState state').get) ∧
    ∀ state i (hi : i < kStateBytes) (value : U8), value ≠ (encodeState state)[i] →
      ∃ what,
        decodeState ((encodeState state).set i value) = .error (.thrown .runtimeError what) := by
  refine ⟨fun state => (holdsState_encodeState state).decodeState_eq, ?_, ?_, ?_⟩
  · intro encoded state h
    exact (holdsState_of_decodeState h).eq (holdsState_encodeState state)
  · intro state state' hne
    exact (holdsState_encodeState state).two_le_hammingDist (holdsState_encodeState state') hne
  · intro state i hi value hvalue
    rcases decodeState_cases ((encodeState state).set i value) with ⟨state', h⟩ | h
    swap
    · exact h
    -- an accepted record is of another state, and differs in one byte only
    have hheld := holdsState_of_decodeState h
    have hstate : state' ≠ state := by
      rintro rfl
      apply hvalue
      rw [← hheld.eq (holdsState_encodeState state'), Vector.getElem_set_self]
    have hfar := hheld.two_le_hammingDist (holdsState_encodeState state) hstate
    have hnear := hammingDist_set_le (encodeState state) i value hi
    omega
