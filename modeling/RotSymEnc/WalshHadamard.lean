/-
# Walsh–Hadamard transforms

The Walsh sign of two indices, the transform over the low `j` bits of the index,
and how the transform over `j + 1` bits comes from the one over `j` by a butterfly.
The full transform is its own inverse up to the number of entries, since the Walsh
signs are orthogonal.  Entries come from any commutative ring.
-/
import Mathlib

open Finset

namespace WalshHadamard

/-! ## Bit counts and signs -/

/-- The number of ones in the binary form. -/
def popcount (n : ℕ) : ℕ := n.bitIndices.length

/-- A new top bit adds one. -/
theorem popcount_two_pow_add {j x : ℕ} (hx : x < 2 ^ j) :
    popcount (2 ^ j + x) = popcount x + 1 := by
  have hperm : (2 ^ j + x).bitIndices.Perm (j :: x.bitIndices) := by
    have hfresh : j ∉ x.bitIndices := fun hj =>
      absurd (Nat.two_pow_le_of_mem_bitIndices hj) (not_le.mpr hx)
    rw [List.perm_ext_iff_of_nodup Nat.bitIndices_nodup
      (List.nodup_cons.mpr ⟨hfresh, Nat.bitIndices_nodup⟩)]
    intro i
    have hor := Nat.two_pow_add_eq_or_of_lt hx 1
    rw [Nat.mul_one] at hor
    rw [Nat.mem_bitIndices, List.mem_cons, Nat.mem_bitIndices, hor, Nat.testBit_or,
      Nat.testBit_two_pow, Bool.or_eq_true, decide_eq_true_iff, eq_comm]
  exact hperm.length_eq

section Signs

variable (R : Type) [CommRing R]

/-- The Walsh sign of two indices. -/
def walshSign (k x : ℕ) : R := (-1) ^ popcount (k &&& x)

theorem walshSign_comm (k x : ℕ) : walshSign R k x = walshSign R x k := by
  rw [walshSign, walshSign, Nat.and_comm]

@[simp] theorem walshSign_zero (k : ℕ) : walshSign R k 0 = 1 := by
  simp [walshSign, popcount]

/-- Only the low `j` bits of the one index meet those of the other. -/
theorem walshSign_mod {j x : ℕ} (hx : x < 2 ^ j) (k : ℕ) :
    walshSign R (k % 2 ^ j) x = walshSign R k x := by
  have hand : k % 2 ^ j &&& x = k &&& x := by
    have hmod := @Nat.and_mod_two_pow k x j
    rw [Nat.mod_eq_of_lt hx, Nat.mod_eq_of_lt (Nat.and_lt_two_pow k hx)] at hmod
    exact hmod.symm
  rw [walshSign, walshSign, hand]

/-- A new top bit of the one index flips the sign where the other has that bit. -/
theorem walshSign_two_pow_add {j x : ℕ} (hx : x < 2 ^ j) (k : ℕ) :
    walshSign R k (2 ^ j + x) = if k.testBit j then - walshSign R k x else walshSign R k x := by
  have hor := Nat.two_pow_add_eq_or_of_lt hx 1
  rw [Nat.mul_one] at hor
  rw [walshSign, walshSign, hor, Nat.and_or_distrib_left, Nat.and_two_pow]
  have hlt := Nat.and_lt_two_pow k hx
  cases k.testBit j with
  | false => simp
  | true =>
    have hor' := Nat.two_pow_add_eq_or_of_lt hlt 1
    rw [Nat.mul_one] at hor'
    rw [Bool.toNat_true, Nat.one_mul, ← hor', popcount_two_pow_add hlt, pow_succ]
    simp

/-- The Walsh sign is a sign. -/
theorem walshSign_eq_or (k x : ℕ) : walshSign R k x = 1 ∨ walshSign R k x = -1 :=
  neg_one_pow_eq_or R _

end Signs

/-! ## Transforms -/

section Transforms

variable {R : Type} [CommRing R]

/-- The Walsh–Hadamard transform of `2 ^ n` entries. -/
def transform (n : ℕ) (v : ℕ → R) (k : ℕ) : R :=
  ∑ x ∈ range (2 ^ n), walshSign R k x * v x

/-- The transform over the low `j` bits, of each aligned block of `2 ^ j` entries. -/
def partialTransform (j : ℕ) (v : ℕ → R) (k : ℕ) : R :=
  ∑ x ∈ range (2 ^ j), walshSign R k x * v (k / 2 ^ j * 2 ^ j + x)

/-- Over no bits the transform is the vector. -/
theorem partialTransform_zero (v : ℕ → R) (k : ℕ) : partialTransform 0 v k = v k := by
  simp [partialTransform]

/-- Over all bits it is the transform. -/
theorem partialTransform_eq_transform {n k : ℕ} (hk : k < 2 ^ n) (v : ℕ → R) :
    partialTransform n v k = transform n v k := by
  simp [partialTransform, transform, Nat.div_eq_of_lt hk]

/-- The transform of a block, from the number of the block and the place in it. -/
theorem partialTransform_block {j offset : ℕ} (hoffset : offset < 2 ^ j) (block : ℕ)
    (v : ℕ → R) :
    partialTransform j v (block * 2 ^ j + offset)
      = ∑ x ∈ range (2 ^ j), walshSign R offset x * v (block * 2 ^ j + x) := by
  have hdiv : (block * 2 ^ j + offset) / 2 ^ j = block := by
    rw [Nat.add_comm, Nat.add_mul_div_right _ _ (by positivity), Nat.div_eq_of_lt hoffset,
      Nat.zero_add]
  rw [partialTransform, hdiv]
  refine sum_congr rfl fun x hx => ?_
  rw [← walshSign_mod R (mem_range.mp hx) (block * 2 ^ j + offset), Nat.add_comm,
    Nat.add_mul_mod_self_right, Nat.mod_eq_of_lt hoffset]

section Butterfly

variable {j offset : ℕ} (hoffset : offset < 2 ^ j) (block : ℕ) (v : ℕ → R)

include hoffset

/-- **The butterfly, lower output.** -/
theorem partialTransform_succ_low :
    partialTransform (j + 1) v (block * 2 ^ (j + 1) + offset)
      = partialTransform j v (block * 2 ^ (j + 1) + offset)
        + partialTransform j v (block * 2 ^ (j + 1) + offset + 2 ^ j) := by
  have hlow : block * 2 ^ (j + 1) + offset = (2 * block) * 2 ^ j + offset := by ring
  have hhigh : block * 2 ^ (j + 1) + offset + 2 ^ j = (2 * block + 1) * 2 ^ j + offset := by ring
  have htop : offset.testBit j = false := Nat.testBit_lt_two_pow hoffset
  rw [partialTransform_block (hoffset.trans (Nat.pow_lt_pow_succ Nat.one_lt_two)), hhigh,
    partialTransform_block hoffset, hlow, partialTransform_block hoffset, pow_succ, Nat.mul_two,
    sum_range_add]
  congr 1
  · refine sum_congr rfl fun x _ => ?_
    rw [show block * (2 ^ j + 2 ^ j) = 2 * block * 2 ^ j by ring]
  · refine sum_congr rfl fun x hx => ?_
    rw [walshSign_two_pow_add R (mem_range.mp hx), htop,
      show block * (2 ^ j + 2 ^ j) + (2 ^ j + x) = (2 * block + 1) * 2 ^ j + x by ring]
    rfl

/-- **The butterfly, upper output.** -/
theorem partialTransform_succ_high :
    partialTransform (j + 1) v (block * 2 ^ (j + 1) + offset + 2 ^ j)
      = partialTransform j v (block * 2 ^ (j + 1) + offset)
        - partialTransform j v (block * 2 ^ (j + 1) + offset + 2 ^ j) := by
  have hlow : block * 2 ^ (j + 1) + offset = (2 * block) * 2 ^ j + offset := by ring
  have hhigh : block * 2 ^ (j + 1) + offset + 2 ^ j = (2 * block + 1) * 2 ^ j + offset := by ring
  have hplace : block * 2 ^ (j + 1) + offset + 2 ^ j = block * 2 ^ (j + 1) + (2 ^ j + offset) := by
    ring
  have htop : (2 ^ j + offset).testBit j = true := by
    rw [Nat.testBit_two_pow_add_eq, Nat.testBit_lt_two_pow hoffset, Bool.not_false]
  have hsign : ∀ x < 2 ^ j, walshSign R (2 ^ j + offset) x = walshSign R offset x := by
    intro x hx
    rw [← walshSign_mod R hx (2 ^ j + offset), Nat.add_mod_left, Nat.mod_eq_of_lt hoffset]
  rw [hplace, partialTransform_block (by rw [pow_succ]; omega), ← hplace, hhigh,
    partialTransform_block hoffset, hlow, partialTransform_block hoffset, pow_succ, Nat.mul_two,
    sum_range_add, sub_eq_add_neg, ← sum_neg_distrib]
  congr 1
  · refine sum_congr rfl fun x hx => ?_
    rw [hsign x (mem_range.mp hx), show block * (2 ^ j + 2 ^ j) = 2 * block * 2 ^ j by ring]
  · refine sum_congr rfl fun x hx => ?_
    rw [walshSign_two_pow_add R (mem_range.mp hx), htop, if_pos rfl, hsign x (mem_range.mp hx),
      show block * (2 ^ j + 2 ^ j) + (2 ^ j + x) = (2 * block + 1) * 2 ^ j + x by ring, neg_mul]

end Butterfly

/-! ## Orthogonality -/

/-- An index of `n + 1` bits is its top bit and the rest. -/
theorem eq_iff_mod_and_testBit {n x y : ℕ} (hx : x < 2 ^ (n + 1)) (hy : y < 2 ^ (n + 1)) :
    x = y ↔ x % 2 ^ n = y % 2 ^ n ∧ x.testBit n = y.testBit n := by
  constructor
  · rintro rfl
    exact ⟨rfl, rfl⟩
  · rintro ⟨hmod, hbit⟩
    apply Nat.eq_of_testBit_eq
    intro i
    rcases lt_trichotomy i n with hi | rfl | hi
    · have hlow := congrArg (·.testBit i) hmod
      simpa [Nat.testBit_mod_two_pow, hi] using hlow
    · exact hbit
    · rw [Nat.testBit_lt_two_pow (hx.trans_le (Nat.pow_le_pow_right two_pos hi)),
        Nat.testBit_lt_two_pow (hy.trans_le (Nat.pow_le_pow_right two_pos hi))]

/-- **The Walsh signs are orthogonal.** -/
theorem sum_walshSign_mul {n x y : ℕ} (hx : x < 2 ^ n) (hy : y < 2 ^ n) :
    ∑ k ∈ range (2 ^ n), walshSign R k x * walshSign R k y = if x = y then 2 ^ n else 0 := by
  induction n generalizing x y with
  | zero =>
    obtain rfl : x = 0 := by omega
    obtain rfl : y = 0 := by omega
    simp
  | succ n ih =>
    have hlow : ∑ k ∈ range (2 ^ n), walshSign R k x * walshSign R k y
        = if x % 2 ^ n = y % 2 ^ n then 2 ^ n else 0 := by
      rw [← ih (Nat.mod_lt x (by positivity)) (Nat.mod_lt y (by positivity))]
      refine sum_congr rfl fun k hk => ?_
      rw [walshSign_comm R k x, walshSign_comm R k y, ← walshSign_mod R (mem_range.mp hk) x,
        ← walshSign_mod R (mem_range.mp hk) y, walshSign_comm R _ k, walshSign_comm R _ k]
    have hhigh : ∑ k ∈ range (2 ^ n), walshSign R (2 ^ n + k) x * walshSign R (2 ^ n + k) y
        = if x.testBit n = y.testBit n then ∑ k ∈ range (2 ^ n), walshSign R k x * walshSign R k y
          else - ∑ k ∈ range (2 ^ n), walshSign R k x * walshSign R k y := by
      rw [← sum_neg_distrib, ← sum_ite_irrel]
      refine sum_congr rfl fun k hk => ?_
      rw [walshSign_comm R _ x, walshSign_comm R _ y, walshSign_two_pow_add R (mem_range.mp hk),
        walshSign_two_pow_add R (mem_range.mp hk), walshSign_comm R x k, walshSign_comm R y k]
      cases x.testBit n <;> cases y.testBit n <;> simp
    rw [pow_succ 2 n, Nat.mul_two, sum_range_add, hhigh, hlow]
    -- the two halves of the sum agree or cancel, by the top bits
    by_cases hbit : x.testBit n = y.testBit n
    · rw [if_pos hbit]
      by_cases hmod : x % 2 ^ n = y % 2 ^ n
      · rw [if_pos hmod, if_pos ((eq_iff_mod_and_testBit hx hy).mpr ⟨hmod, hbit⟩), pow_succ]
        ring
      · rw [if_neg hmod, if_neg fun h => hmod ((eq_iff_mod_and_testBit hx hy).mp h).1, add_zero]
    · rw [if_neg hbit, if_neg fun h => hbit ((eq_iff_mod_and_testBit hx hy).mp h).2, add_neg_cancel]

/-- **Transforming twice** multiplies by the number of entries. -/
theorem transform_transform {n k : ℕ} (hk : k < 2 ^ n) (v : ℕ → R) :
    transform n (transform n v) k = 2 ^ n * v k := by
  calc transform n (transform n v) k
      = ∑ x ∈ range (2 ^ n), ∑ y ∈ range (2 ^ n), walshSign R k x * (walshSign R x y * v y) := by
        simp only [transform, mul_sum]
    _ = ∑ y ∈ range (2 ^ n), (∑ x ∈ range (2 ^ n), walshSign R x k * walshSign R x y) * v y := by
        rw [sum_comm]
        refine sum_congr rfl fun y _ => ?_
        rw [sum_mul]
        refine sum_congr rfl fun x _ => ?_
        rw [walshSign_comm R k x, mul_assoc]
    _ = ∑ y ∈ range (2 ^ n), (if k = y then 2 ^ n else 0) * v y := by
        refine sum_congr rfl fun y hy => ?_
        rw [sum_walshSign_mul hk (mem_range.mp hy)]
    _ = 2 ^ n * v k := by
        simp only [ite_mul, zero_mul, sum_ite_eq, mem_range, if_pos hk]

end Transforms

/-- Entries bounded by `b` have partial transforms bounded by `2 ^ j * b`. -/
theorem abs_partialTransform_le {R : Type} [CommRing R] [LinearOrder R] [IsStrictOrderedRing R]
    {j k : ℕ} {v : ℕ → R} {b : R} (h : ∀ x < 2 ^ j, |v (k / 2 ^ j * 2 ^ j + x)| ≤ b) :
    |partialTransform j v k| ≤ 2 ^ j * b := by
  have hterm : ∀ x ∈ range (2 ^ j), |walshSign R k x * v (k / 2 ^ j * 2 ^ j + x)| ≤ b := by
    intro x hx
    rcases walshSign_eq_or R k x with hs | hs <;> rw [hs]
    · rw [one_mul]
      exact h x (mem_range.mp hx)
    · rw [neg_one_mul, abs_neg]
      exact h x (mem_range.mp hx)
  calc |partialTransform j v k|
      ≤ ∑ x ∈ range (2 ^ j), |walshSign R k x * v (k / 2 ^ j * 2 ^ j + x)| := abs_sum_le_sum_abs _ _
    _ ≤ ∑ _x ∈ range (2 ^ j), b := sum_le_sum hterm
    _ = 2 ^ j * b := by simp

end WalshHadamard
