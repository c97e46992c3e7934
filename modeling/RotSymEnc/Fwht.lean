/-
# The fast Walsh–Hadamard transform of the domain audit

`fwht` of `streamframe_domain_audit.cpp`: three nested loops of in-place
butterflies.  After the passes of lengths `1, 2, …, 2 ^ (j - 1)` the vector holds the
partial transform over the low `j` bits of the index; inside a pass the blocks
before `base`, and in the block at `base` the pairs before `offset`, are one
length ahead.

The entries are integers.  The run notes every sum and difference it computes, so
that a bound on them says that the `int` arithmetic of the source does not overflow.
-/
import RotSymEnc.WalshHadamard
import RotSymEnc.StatefulRuns
import RotSymEnc.Words

open WalshHadamard StatefulRuns

/-! ## The transform -/

/-- The vector under transformation, and the values computed so far, the latest first. -/
structure Spectrum : Type where
  values : List ℤ
  computed : List ℤ

abbrev SpectrumRun := EStateM Fault Spectrum

/-- `values[index]`, read. -/
def readValue (index : ℕ) : SpectrumRun ℤ := do
  match (← get).values[index]? with
  | some value => return value
  | none => throw .badAccess

/-- `values[index] = value`, for a computed value. -/
def storeValue (index : ℕ) (value : ℤ) : SpectrumRun PUnit := do
  let spectrum ← get
  if index < spectrum.values.length then
    set (⟨spectrum.values.set index value, value :: spectrum.computed⟩ : Spectrum)
  else throw .badAccess

/-- The body of the three loops: a butterfly on two entries. -/
def butterfly (low high : ℕ) : SpectrumRun PUnit := do
  let left ← readValue low
  let right ← readValue high
  storeValue low (left + right)
  storeValue high (left - right)

/-- One pass of the loop over `length`. -/
def fwhtPass (size length : ℕ) (hlength : 0 < length) : SpectrumRun PUnit :=
  forBy (fun base => base + length <<< 1) size 0
    (fun base _ => by rw [Nat.shiftLeft_eq]; omega)
    fun base _ => forM (List.range length) fun offset =>
      butterfly (base + offset) (base + offset + length)

/-- `fwht`. -/
def fwht : SpectrumRun PUnit := do
  let size := (← get).values.length
  forBy (fun length => length <<< 1) size 1 (fun length hlength => by rw [Nat.shiftLeft_eq]; omega)
    fun length hlength => fwhtPass size length hlength

/-! ## One butterfly -/

/-- The vector has the entries `f` at the indices below `size`, and every computed value
satisfies `Q`. -/
structure Spectrum.Holds (size : ℕ) (Q : ℤ → Prop) (f : ℕ → ℤ) (spectrum : Spectrum) : Prop where
  length_eq : spectrum.values.length = size
  entry : ∀ i < size, spectrum.values[i]? = some (f i)
  computed : ∀ z ∈ spectrum.computed, Q z

section Passes

variable {size : ℕ} {Q : ℤ → Prop} {f : ℕ → ℤ}

/-- Only the entries below `size` matter. -/
theorem Spectrum.Holds.congr {g : ℕ → ℤ} {spectrum : Spectrum} (h : spectrum.Holds size Q f)
    (hfg : ∀ i < size, f i = g i) : spectrum.Holds size Q g := by
  refine ⟨h.length_eq, fun i hi => ?_, h.computed⟩
  rw [h.entry i hi, hfg i hi]

theorem keeps_readValue {i : ℕ} (hi : i < size) :
    Keeps (Spectrum.Holds size Q f) (readValue i) (· = f i) := by
  intro s hs
  refine ⟨f i, s, ?_, hs, rfl⟩
  unfold readValue
  simp only [EStateM.run_bind, EStateM.run_get, hs.entry i hi]
  rfl

theorem leads_storeValue {i : ℕ} {z : ℤ} (hi : i < size) (hz : Q z) :
    Leads (Spectrum.Holds size Q f) (storeValue i z)
      (Spectrum.Holds size Q (Function.update f i z)) fun _ => True := by
  intro s hs
  refine ⟨(), ⟨s.values.set i z, z :: s.computed⟩, ?_, ⟨?_, ?_, ?_⟩, trivial⟩
  · unfold storeValue
    simp only [EStateM.run_bind, EStateM.run_get, if_pos (hs.length_eq ▸ hi : i < s.values.length)]
    rfl
  · rw [List.length_set, hs.length_eq]
  · intro k hk
    rcases eq_or_ne k i with rfl | hne
    · rw [List.getElem?_set_self (hs.length_eq ▸ hi), Function.update_self]
    · rw [List.getElem?_set_ne hne.symm, Function.update_of_ne hne, hs.entry k hk]
  · exact List.forall_mem_cons.mpr ⟨hz, hs.computed⟩

/-- **A butterfly** replaces two entries by their sum and their difference. -/
theorem leads_butterfly {low high : ℕ} (hlow : low < size) (hhigh : high < size)
    (hsum : Q (f low + f high)) (hdiff : Q (f low - f high)) :
    Leads (Spectrum.Holds size Q f) (butterfly low high)
      (Spectrum.Holds size Q
        (Function.update (Function.update f low (f low + f high)) high (f low - f high)))
      fun _ => True := by
  unfold butterfly
  refine (keeps_readValue hlow).bind fun left hleft => ?_
  refine (keeps_readValue hhigh).bind fun right hright => ?_
  subst hleft hright
  exact (leads_storeValue hlow hsum).bind fun _ _ => leads_storeValue hhigh hdiff

end Passes

/-! ## The passes -/

/-- Inside a pass of length `2 ^ j`: the blocks before `base`, and in the block at `base`
the pairs before `offset`, are transformed over one more bit. -/
def passEntry (j : ℕ) (v : ℕ → ℤ) (base offset i : ℕ) : ℤ :=
  if i < base + offset ∨ (base + 2 ^ j ≤ i ∧ i < base + 2 ^ j + offset) then
    partialTransform (j + 1) v i
  else partialTransform j v i

section Runs

variable {n j : ℕ} {Q : ℤ → Prop} {v : ℕ → ℤ}

/-- **One pair of a pass.** -/
theorem leads_pair (hj : j < n) {base offset : ℕ} (hbase : 2 ^ (j + 1) ∣ base)
    (hlt : base < 2 ^ n) (hoffset : offset < 2 ^ j)
    (hQ : ∀ i < 2 ^ n, Q (partialTransform (j + 1) v i)) :
    Leads (Spectrum.Holds (2 ^ n) Q (passEntry j v base offset))
      (butterfly (base + offset) (base + offset + 2 ^ j))
      (Spectrum.Holds (2 ^ n) Q (passEntry j v base (offset + 1))) fun _ => True := by
  obtain ⟨block, rfl⟩ := hbase
  have hpow : 2 ^ (j + 1) = 2 ^ j + 2 ^ j := by ring
  -- a block that starts inside the vector ends inside it
  have hend : 2 ^ (j + 1) * block + 2 ^ (j + 1) ≤ 2 ^ n := by
    obtain ⟨blocks, hblocks⟩ := Nat.pow_dvd_pow 2 hj
    rw [hblocks] at hlt ⊢
    exact Nat.mul_le_mul_left (2 ^ (j + 1)) (Nat.lt_of_mul_lt_mul_left hlt)
  rw [Nat.mul_comm] at hlt hend ⊢
  have hlow := partialTransform_succ_low hoffset block v
  have hhigh := partialTransform_succ_high hoffset block v
  generalize block * 2 ^ (j + 1) = base at *
  have hleft : passEntry j v base offset (base + offset) = partialTransform j v (base + offset) :=
    if_neg (by omega)
  have hright : passEntry j v base offset (base + offset + 2 ^ j)
      = partialTransform j v (base + offset + 2 ^ j) :=
    if_neg (by omega)
  have hbutterfly := @leads_butterfly (2 ^ n) Q (passEntry j v base offset) (base + offset)
    (base + offset + 2 ^ j) (by omega) (by omega)
    (by rw [hleft, hright, ← hlow]; exact hQ _ (by omega))
    (by rw [hleft, hright, ← hhigh]; exact hQ _ (by omega))
  refine hbutterfly.weaken (fun _ hs => hs) fun s hs => hs.congr fun i hi => ?_
  rw [hleft, hright, ← hlow, ← hhigh]
  by_cases hihigh : i = base + offset + 2 ^ j
  · subst hihigh
    rw [Function.update_self, passEntry, if_pos (by omega)]
  rw [Function.update_of_ne hihigh]
  by_cases hilow : i = base + offset
  · subst hilow
    rw [Function.update_self, passEntry, if_pos (by omega)]
  rw [Function.update_of_ne hilow, passEntry, passEntry]
  refine if_congr ?_ rfl rfl
  omega

/-- **A pass** transforms over one more bit. -/
theorem leads_fwhtPass (hj : j < n) (hQ : ∀ i < 2 ^ n, Q (partialTransform (j + 1) v i)) :
    Leads (Spectrum.Holds (2 ^ n) Q (partialTransform j v))
      (fwhtPass (2 ^ n) (2 ^ j) (Nat.two_pow_pos j))
      (Spectrum.Holds (2 ^ n) Q (partialTransform (j + 1) v)) fun _ => True := by
  have hpow : 2 ^ (j + 1) = 2 ^ j + 2 ^ j := by ring
  have hshift : 2 ^ j <<< 1 = 2 ^ (j + 1) := by rw [Nat.shiftLeft_eq, pow_one, pow_succ]
  unfold fwhtPass
  refine (@leads_forBy _ _ (fun base s => 2 ^ (j + 1) ∣ base ∧
    s.Holds (2 ^ n) Q (passEntry j v base 0)) _ _ _ _ _ ?_).weaken ?_ ?_
  · rintro base - hbase s ⟨hdvd, hs⟩
    have hpairs := @leads_forM_range Fault Spectrum
      (fun offset => Spectrum.Holds (2 ^ n) Q (passEntry j v base offset))
      (fun offset => butterfly (base + offset) (base + offset + 2 ^ j)) (2 ^ j)
      fun offset hoffset => leads_pair hj hdvd hbase hoffset hQ
    obtain ⟨u, s', hrun, hs', -⟩ := hpairs s hs
    refine ⟨u, s', hrun, ⟨?_, hs'.congr fun i _ => ?_⟩, trivial⟩
    · rw [hshift]
      exact Nat.dvd_add hdvd (dvd_refl _)
    · rw [hshift, passEntry, passEntry]
      refine if_congr ?_ rfl rfl
      omega
  · intro s hs
    refine ⟨dvd_zero _, hs.congr fun i _ => ?_⟩
    rw [passEntry, if_neg (by omega)]
  · rintro s ⟨base, hbase, -, hs⟩
    refine hs.congr fun i hi => ?_
    rw [passEntry, if_pos (by omega)]

/-- **The loop over the lengths** computes the transform. -/
theorem leads_fwht (hQ : ∀ j < n, ∀ i < 2 ^ n, Q (partialTransform (j + 1) v i)) :
    Leads (Spectrum.Holds (2 ^ n) Q v) fwht (Spectrum.Holds (2 ^ n) Q (transform n v))
      fun _ => True := by
  intro s hs
  have hpasses : Leads (Spectrum.Holds (2 ^ n) Q v)
      (forBy (fun length => length <<< 1) (2 ^ n) 1
        (fun length hlength => by rw [Nat.shiftLeft_eq]; omega)
        fun length hlength => fwhtPass (2 ^ n) length hlength)
      (Spectrum.Holds (2 ^ n) Q (transform n v)) fun _ => True := by
    refine (@leads_forBy _ _ (fun length s => ∃ j ≤ n, length = 2 ^ j ∧
      s.Holds (2 ^ n) Q (partialTransform j v)) _ _ _ _ _ ?_).weaken ?_ ?_
    · rintro length - hlt s ⟨j, -, rfl, hs⟩
      have hj : j < n := (Nat.pow_lt_pow_iff_right Nat.one_lt_two).mp hlt
      obtain ⟨u, s', hrun, hs', -⟩ := leads_fwhtPass hj (hQ j hj) s hs
      refine ⟨u, s', hrun, ⟨j + 1, hj, ?_, hs'⟩, trivial⟩
      rw [Nat.shiftLeft_eq, pow_one, pow_succ]
    · intro s hs
      exact ⟨0, Nat.zero_le n, rfl, hs.congr fun i _ => (partialTransform_zero v i).symm⟩
    · rintro s ⟨length, hlength, j, hj, rfl, hs⟩
      obtain rfl : j = n := le_antisymm hj ((Nat.pow_le_pow_iff_right Nat.one_lt_two).mp hlength)
      exact hs.congr fun i hi => partialTransform_eq_transform hi v
  obtain ⟨u, s', hrun, hs'⟩ := hpasses s hs
  refine ⟨u, s', ?_, hs'⟩
  unfold fwht
  simp only [EStateM.run_bind, EStateM.run_get, hs.length_eq]
  exact hrun

end Runs

/-! ## The transform is exact -/

/-- A vector holds its own entries. -/
theorem Spectrum.holds_self {size : ℕ} (Q : ℤ → Prop) {v : List ℤ} (hv : v.length = size) :
    (Spectrum.mk v []).Holds size Q fun i => v.getD i 0 := by
  refine ⟨hv, fun i hi => ?_, List.forall_mem_nil _⟩
  rw [List.getElem?_eq_getElem (hv ▸ hi), List.getD_eq_getElem _ _ (hv ▸ hi)]

/-- Two vectors with the same entries are the same. -/
theorem Spectrum.Holds.values_eq {size : ℕ} {Q : ℤ → Prop} {f : ℕ → ℤ} {spectrum : Spectrum}
    (h : spectrum.Holds size Q f) {w : List ℤ} (hw : w.length = size)
    (hf : ∀ i < size, w[i]? = some (f i)) : spectrum.values = w := by
  refine List.ext_getElem? fun i => ?_
  by_cases hi : i < size
  · rw [h.entry i hi, hf i hi]
  · rw [List.getElem?_eq_none (h.length_eq ▸ not_lt.mp hi),
      List.getElem?_eq_none (hw ▸ not_lt.mp hi)]

/-- The values of an `int`. -/
def FitsInt (z : ℤ) : Prop := -2 ^ 31 ≤ z ∧ z < 2 ^ 31

/-- **`fwht` is the Walsh–Hadamard transform.**  On every vector of `2 ^ n` integers it
ends without an access outside the vector, leaves in position `k` the sum of the
entries with the signs `(-1) ^ popcount (k AND x)`, and applied twice multiplies by
`2 ^ n`.  From entries `±1` and up to 16 bits of index no value it handles exceeds
`2 ^ 16`, so every one is an `int`. -/
theorem fwht_exact (n : ℕ) (v : List ℤ) (hv : v.length = 2 ^ n) :
    ∃ w computed computed', fwht.run ⟨v, []⟩ = .ok () ⟨w, computed⟩ ∧ w.length = 2 ^ n ∧
      (∀ k < 2 ^ n, w[k]? = some (∑ x ∈ Finset.range (2 ^ n),
        (-1) ^ popcount (k &&& x) * v.getD x 0)) ∧
      fwht.run ⟨w, []⟩ = .ok () ⟨v.map (2 ^ n * ·), computed'⟩ ∧
      (n ≤ 16 → (∀ z ∈ v, z = 1 ∨ z = -1) → ∀ z ∈ v ++ computed, |z| ≤ 2 ^ 16 ∧ FitsInt z) := by
  have hbound : ∀ z : ℤ, |z| ≤ 2 ^ 16 → |z| ≤ 2 ^ 16 ∧ FitsInt z := by
    intro z hz
    obtain ⟨hlow, hhigh⟩ := abs_le.mp hz
    exact ⟨hz, by omega, by omega⟩
  -- what the claim asks of every computed value
  let Q : ℤ → Prop := fun z => n ≤ 16 → (∀ z ∈ v, z = 1 ∨ z = -1) → |z| ≤ 2 ^ 16
  have hQ : ∀ j < n, ∀ i < 2 ^ n, Q (partialTransform (j + 1) (fun i => v.getD i 0) i) := by
    intro j hj i hi hn hsigns
    have hentry : ∀ i, |v.getD i 0| ≤ 1 := by
      intro i
      by_cases hi : i < v.length
      · rw [List.getD_eq_getElem _ _ hi]
        rcases hsigns _ (List.getElem_mem hi) with h | h <;> rw [h] <;> decide
      · rw [List.getD_eq_default _ _ (not_lt.mp hi)]
        decide
    calc |partialTransform (j + 1) (fun i => v.getD i 0) i|
        ≤ 2 ^ (j + 1) * 1 := abs_partialTransform_le fun x _ => hentry _
      _ = 2 ^ (j + 1) := mul_one _
      _ ≤ 2 ^ 16 := pow_le_pow_right₀ one_le_two (by omega)
  obtain ⟨u, s, hrun, hs, -⟩ := leads_fwht hQ _ (Spectrum.holds_self Q hv)
  have htwice : ∀ j < n, ∀ i < 2 ^ n,
      (fun _ => True) (partialTransform (j + 1) (fun i => s.values.getD i 0) i) :=
    fun _ _ _ _ => trivial
  obtain ⟨u', s', hrun', hs', -⟩ :=
    leads_fwht htwice _ (Spectrum.holds_self (fun _ => True) hs.length_eq)
  refine ⟨s.values, s.computed, s'.computed, hrun, hs.length_eq, hs.entry, ?_, ?_⟩
  · have hvalues : s'.values = v.map (2 ^ n * ·) := by
      refine hs'.values_eq (by rw [List.length_map, hv]) fun i hi => ?_
      have hentries : transform n (fun i => s.values.getD i 0) i
          = transform n (transform n fun i => v.getD i 0) i := by
        refine Finset.sum_congr rfl fun x hx => ?_
        beta_reduce
        rw [List.getD_eq_getElem?_getD, hs.entry x (Finset.mem_range.mp hx), Option.getD_some]
      rw [hentries, transform_transform hi, List.getElem?_map,
        List.getElem?_eq_getElem (hv ▸ hi), List.getD_eq_getElem _ _ (hv ▸ hi)]
      rfl
    rw [← hvalues]
    exact hrun'
  · intro hn hsigns z hz
    rcases List.mem_append.mp hz with hentry | hcomputed
    · apply hbound
      rcases hsigns z hentry with rfl | rfl <;> decide
    · exact hbound z (hs.computed z hcomputed hn hsigns)

/-- Four signs. -/
theorem fwht_exact_four :
    ([1, 1, 1, -1] : List ℤ).length = 2 ^ 2 ∧
    ∃ w computed computed', fwht.run ⟨[1, 1, 1, -1], []⟩ = .ok () ⟨w, computed⟩ ∧
      w[3]? = some (-2) ∧
      fwht.run ⟨w, []⟩ = .ok () ⟨[4, 4, 4, -4], computed'⟩ ∧ ∀ z ∈ computed, |z| ≤ 2 ^ 16 := by
  obtain ⟨w, computed, computed', hrun, -, hentry, htwice, hbound⟩ :=
    fwht_exact 2 [1, 1, 1, -1] rfl
  refine ⟨rfl, w, computed, computed', hrun, ?_, htwice, fun z hz => ?_⟩
  · rw [hentry 3 (by decide)]
    decide +kernel
  · exact (hbound (by decide) (by decide) z (List.mem_append_right _ hz)).1
