/-
# Distances of bit strings

A window of `n` bits of a string over `ℕ` is a word, or a block of words, or one
component of a larger state.  The number of positions of a window in which two
strings differ adds up over adjacent windows, is the population count of the
exclusive or of two words, and is one exactly when one string is the other with one
bit of the window flipped.
-/
import Mathlib

open Finset

namespace BitStrings

/-- The number of positions of the window `[lo, lo + n)` in which two strings differ. -/
def distance (f g : ℕ → Bool) (lo n : ℕ) : ℕ :=
  ∑ i ∈ range n, (f (lo + i) ^^ g (lo + i)).toNat

/-- A string with one bit flipped. -/
def flipAt (f : ℕ → Bool) (b : ℕ) : ℕ → Bool := Function.update f b (!f b)

/-! ## Windows -/

section Windows

variable (f g : ℕ → Bool)

theorem distance_add (lo m n : ℕ) :
    distance f g lo (m + n) = distance f g lo m + distance f g (lo + m) n := by
  unfold distance
  rw [sum_range_add]
  simp only [Nat.add_assoc]

/-- A window cut into blocks of one size. -/
theorem distance_mul (lo n w : ℕ) :
    distance f g lo (n * w) = ∑ c ∈ range n, distance f g (lo + c * w) w := by
  induction n with
  | zero => simp [distance]
  | succ n ih => rw [Nat.succ_mul, distance_add, ih, sum_range_succ]

/-- Only the bits of the window count. -/
theorem distance_congr {f f' g g' : ℕ → Bool} {lo lo' n : ℕ}
    (hf : ∀ i < n, f (lo + i) = f' (lo' + i)) (hg : ∀ i < n, g (lo + i) = g' (lo' + i)) :
    distance f g lo n = distance f' g' lo' n := by
  apply sum_congr rfl
  intro i hi
  rw [hf i (mem_range.1 hi), hg i (mem_range.1 hi)]

theorem distance_eq_zero_iff (lo n : ℕ) :
    distance f g lo n = 0 ↔ ∀ i < n, f (lo + i) = g (lo + i) := by
  unfold distance
  rw [sum_eq_zero_iff]
  simp

end Windows

/-! ## Flips -/

section Flips

variable (f : ℕ → Bool) (b : ℕ)

theorem flipAt_self : flipAt f b b = !f b := by simp [flipAt]

theorem flipAt_of_ne {i : ℕ} (h : i ≠ b) : flipAt f b i = f i := by simp [flipAt, h]

theorem flipAt_ne_iff (i : ℕ) : flipAt f b i ≠ f i ↔ i = b := by
  by_cases h : i = b
  · subst h
    simp [flipAt_self]
  · simp [flipAt_of_ne f b h, h]

/-- A flip is seen in the windows that hold its bit, once. -/
theorem distance_flipAt (lo n : ℕ) :
    distance f (flipAt f b) lo n = if lo ≤ b ∧ b < lo + n then 1 else 0 := by
  have hbit : ∀ i, (f (lo + i) ^^ flipAt f b (lo + i)).toNat = if lo + i = b then 1 else 0 := by
    intro i
    by_cases h : lo + i = b
    · rw [h, flipAt_self, if_pos rfl]
      simp
    · rw [flipAt_of_ne f b h, if_neg h]
      simp
  unfold distance
  simp only [hbit]
  split
  · next h =>
    have hsame : ∀ i, lo + i = b ↔ i = b - lo := by omega
    simp only [hsame, sum_ite_eq', mem_range]
    rw [if_pos (by omega)]
  · next h =>
    apply sum_eq_zero
    intro i hi
    rw [mem_range] at hi
    rw [if_neg (by omega)]

end Flips

/-- **Two strings at distance one in a window agree on it, up to one flip.** -/
theorem exists_flipAt_of_distance_eq_one {f g : ℕ → Bool} {lo n : ℕ}
    (h : distance f g lo n = 1) :
    ∃ b, lo ≤ b ∧ b < lo + n ∧ ∀ i < n, g (lo + i) = flipAt f b (lo + i) := by
  induction n with
  | zero => simp [distance] at h
  | succ n ih =>
    rw [distance_add] at h
    have hlast : distance f g (lo + n) 1 = (f (lo + n) ^^ g (lo + n)).toNat := by
      simp [distance]
    by_cases hsame : f (lo + n) = g (lo + n)
    · -- The last bit agrees, and the flip is in the window before it.
      rw [hlast, hsame, Bool.xor_self, Bool.toNat_false, Nat.add_zero] at h
      obtain ⟨b, hlo, hb, hagree⟩ := ih h
      refine ⟨b, hlo, by omega, fun i hi => ?_⟩
      rcases Nat.lt_succ_iff_lt_or_eq.1 hi with hi | rfl
      · exact hagree i hi
      · rw [flipAt_of_ne f b (by omega), hsame]
    · -- The last bit differs, and the window before it agrees.
      have hone : (f (lo + n) ^^ g (lo + n)).toNat = 1 := by
        cases hf : f (lo + n) <;> cases hg : g (lo + n) <;> simp_all
      have hzero : distance f g lo n = 0 := by omega
      have hrest := (distance_eq_zero_iff f g lo n).1 hzero
      refine ⟨lo + n, by omega, by omega, fun i hi => ?_⟩
      rcases Nat.lt_succ_iff_lt_or_eq.1 hi with hi | rfl
      · rw [flipAt_of_ne f (lo + n) (by omega), hrest i hi]
      · rw [flipAt_self]
        cases hf : f (lo + i) <;> cases hg : g (lo + i) <;> simp_all

/-! ## Words -/

/-- `std::popcount`. -/
def popcount {w : ℕ} (value : BitVec w) : ℕ := value.cpop.toNat

theorem cpopNatRec_eq_sum {w : ℕ} (value : BitVec w) (n : ℕ) :
    value.cpopNatRec n 0 = ∑ i ∈ range n, (value.getLsbD i).toNat := by
  induction n with
  | zero => simp
  | succ n ih =>
    rw [BitVec.cpopNatRec_succ, BitVec.cpopNatRec_eq, ih, sum_range_succ, Nat.zero_add]

/-- The population count of an exclusive or is the distance of the two words. -/
theorem popcount_xor {w : ℕ} (x y : BitVec w) :
    popcount (x ^^^ y) = distance x.getLsbD y.getLsbD 0 w := by
  unfold popcount distance
  rw [BitVec.toNat_cpop, cpopNatRec_eq_sum]
  simp

/-- The same for words wider than the values compared. -/
theorem popcount_setWidth {v w : ℕ} (h : v ≤ w) (value : BitVec v) :
    popcount (value.setWidth w) = popcount value := by
  unfold popcount
  rw [BitVec.toNat_cpop, BitVec.toNat_cpop, cpopNatRec_eq_sum, cpopNatRec_eq_sum]
  obtain ⟨d, rfl⟩ := Nat.exists_eq_add_of_le h
  rw [sum_range_add]
  have hhigh : ∑ i ∈ range d, ((value.setWidth (v + d)).getLsbD (v + i)).toNat = 0 := by
    apply sum_eq_zero
    intro i _
    simp
  rw [hhigh, Nat.add_zero]
  apply sum_congr rfl
  intro i hi
  have hi' : i < v + d := by
    rw [mem_range] at hi
    omega
  simp [hi']

theorem popcount_xor_eq_zero_iff {w : ℕ} (x y : BitVec w) : popcount (x ^^^ y) = 0 ↔ x = y := by
  rw [popcount_xor, distance_eq_zero_iff]
  constructor
  · intro h
    apply BitVec.eq_of_getLsbD_eq
    intro i hi
    simpa using h i hi
  · rintro rfl i hi
    rfl

/-- A mask of one bit, narrowed. -/
theorem setWidth_one_shiftLeft {v w : ℕ} (hvw : v ≤ w) (k : ℕ) :
    (1#w <<< k).setWidth v = 1#v <<< k := by
  apply BitVec.eq_of_getLsbD_eq
  intro i hi
  have hw : i < w := by omega
  simp [hi, hw]

/-- A mask of one bit, combined by exclusive or, flips the bit. -/
theorem getLsbD_xor_one_shiftLeft {w k i : ℕ} (value : BitVec w) (hk : k < w) (hi : i < w) :
    (value ^^^ 1#w <<< k).getLsbD i = flipAt value.getLsbD k i := by
  by_cases h : i = k
  · subst h
    rw [flipAt_self]
    simp [hi]
  · have hone : i < k ∨ i - k ≠ 0 := by omega
    rw [flipAt_of_ne _ _ h]
    rcases hone with hlt | hne
    · simp [hlt]
    · simp [hne]

end BitStrings
