/-
# Distances to affine functions

A Boolean function of `n` bits, its affine approximations, and what its Walsh–Hadamard
transform says about them: the coefficient at `k` is the number of arguments where the
function agrees with the parity of the bits in `k`, less the number where it does not.
So the greatest absolute coefficient gives the distance to the nearest affine function.
-/
import RotSymEnc.WalshHadamard

open Finset

namespace WalshHadamard

/-! ## Affine functions -/

/-- The parity of the bits of `x` that `k` selects. -/
def parity (k x : ℕ) : Bool := decide (Odd (popcount (k &&& x)))

/-- An affine function: a parity, or its complement. -/
def affine (k : ℕ) (c : Bool) (x : ℕ) : Bool := parity k x ^^ c

/-- The number of arguments of `n` bits where two functions differ. -/
def distance (n : ℕ) (f g : ℕ → Bool) : ℕ := #{x ∈ range (2 ^ n) | f x ≠ g x}

/-- On the arguments of `n` bits the function is affine. -/
def IsAffine (n : ℕ) (f : ℕ → Bool) : Prop := ∃ k < 2 ^ n, ∃ c, ∀ x < 2 ^ n, f x = affine k c x

/-- The distance to the nearest affine function. -/
def nonlinearity (n : ℕ) (f : ℕ → Bool) : ℕ :=
  (range (2 ^ n) ×ˢ (univ : Finset Bool)).inf'
    ⟨(0, false), mem_product.mpr ⟨mem_range.mpr (Nat.two_pow_pos n), mem_univ _⟩⟩
    fun a => distance n f (affine a.1 a.2)

variable {n k : ℕ} {f g : ℕ → Bool}

theorem isLeast_nonlinearity :
    IsLeast {d | ∃ k < 2 ^ n, ∃ c, d = distance n f (affine k c)} (nonlinearity n f) := by
  constructor
  · obtain ⟨a, ha, hvalue⟩ := exists_mem_eq_inf' (s := range (2 ^ n) ×ˢ (univ : Finset Bool))
      ⟨(0, false), mem_product.mpr ⟨mem_range.mpr (Nat.two_pow_pos n), mem_univ _⟩⟩
      fun a => distance n f (affine a.1 a.2)
    exact ⟨a.1, mem_range.mp (mem_product.mp ha).1, a.2, hvalue⟩
  · rintro d ⟨k, hk, c, rfl⟩
    exact inf'_le _ (mem_product.mpr ⟨mem_range.mpr hk, mem_univ c⟩ :
      (k, c) ∈ range (2 ^ n) ×ˢ (univ : Finset Bool))

theorem distance_eq_zero : distance n f g = 0 ↔ ∀ x < 2 ^ n, f x = g x := by
  unfold distance
  rw [card_eq_zero, filter_eq_empty_iff]
  simp only [mem_range, not_not]

/-- **A function is affine** exactly when its nonlinearity is 0. -/
theorem nonlinearity_eq_zero : nonlinearity n f = 0 ↔ IsAffine n f := by
  obtain ⟨⟨k, hk, c, hvalue⟩, hleast⟩ := @isLeast_nonlinearity n f
  constructor
  · intro hzero
    exact ⟨k, hk, c, distance_eq_zero.mp (hvalue.symm.trans hzero)⟩
  · rintro ⟨k, hk, c, haffine⟩
    exact Nat.le_zero.mp (hleast ⟨k, hk, c, (distance_eq_zero.mpr haffine).symm⟩)

/-- An affine function and its complement differ everywhere. -/
theorem distance_complement :
    distance n f (affine k false) + distance n f (affine k true) = 2 ^ n := by
  have hnot : ∀ x, f x ≠ affine k true x ↔ ¬ f x ≠ affine k false x := by
    intro x
    unfold affine
    cases f x <;> cases parity k x <;> decide
  unfold distance
  rw [filter_congr fun x _ => hnot x, card_filter_add_card_filter_not, card_range]

/-! ## The spectrum -/

/-- A value as a sign. -/
def sign (b : Bool) : ℤ := if b then -1 else 1

theorem sign_xor (a b : Bool) : sign (a ^^ b) = sign a * sign b := by
  cases a <;> cases b <;> rfl

theorem walshSign_eq_sign (k x : ℕ) : walshSign ℤ k x = sign (parity k x) := by
  unfold walshSign sign parity
  by_cases hodd : Odd (popcount (k &&& x))
  · rw [hodd.neg_one_pow, decide_eq_true hodd, if_pos rfl]
  · rw [(Nat.not_odd_iff_even.mp hodd).neg_one_pow, decide_eq_false hodd,
      if_neg Bool.false_ne_true]

/-- **A coefficient** counts agreements less disagreements with a parity. -/
theorem transform_sign (f : ℕ → Bool) (k : ℕ) :
    transform n (fun x => sign (f x)) k = 2 ^ n - 2 * distance n f (affine k false) := by
  have hterm : ∀ x, walshSign ℤ k x * sign (f x)
      = 1 - 2 * if f x ≠ affine k false x then 1 else 0 := by
    intro x
    rw [walshSign_eq_sign, ← sign_xor]
    unfold affine
    cases f x <;> cases parity k x <;> rfl
  calc transform n (fun x => sign (f x)) k
      = ∑ x ∈ range (2 ^ n), (1 - 2 * if f x ≠ affine k false x then (1 : ℤ) else 0) :=
        sum_congr rfl fun x _ => hterm x
    _ = 2 ^ n - 2 * distance n f (affine k false) := by
        rw [sum_sub_distrib, ← mul_sum, sum_boole, sum_const, card_range, nsmul_eq_mul, mul_one]
        push_cast
        rfl

/-- **An absolute coefficient** is what the nearer of a parity and its complement leaves. -/
theorem abs_transform_sign (f : ℕ → Bool) (k : ℕ) :
    |transform n (fun x => sign (f x)) k|
      = 2 ^ n - 2 * min (distance n f (affine k false)) (distance n f (affine k true)) := by
  have hcomplement :
      (distance n f (affine k false) : ℤ) + distance n f (affine k true) = 2 ^ n := by
    exact_mod_cast distance_complement
  rw [transform_sign]
  push_cast
  rcases le_total (distance n f (affine k false)) (distance n f (affine k true)) with h | h
  · rw [min_eq_left (by exact_mod_cast h), abs_of_nonneg]
    have : (distance n f (affine k false) : ℤ) ≤ distance n f (affine k true) := by exact_mod_cast h
    linarith
  · have : (distance n f (affine k true) : ℤ) ≤ distance n f (affine k false) := by exact_mod_cast h
    rw [min_eq_right this, abs_of_nonpos] <;> linarith

/-- **The greatest absolute coefficient** is what the nearest affine function leaves. -/
theorem isGreatest_abs_transform :
    IsGreatest {m | ∃ k < 2 ^ n, m = |transform n (fun x => sign (f x)) k|}
      (2 ^ n - 2 * (nonlinearity n f : ℤ)) := by
  obtain ⟨⟨k, hk, c, hvalue⟩, hleast⟩ := @isLeast_nonlinearity n f
  have hmin : ∀ k < 2 ^ n, nonlinearity n f
      ≤ min (distance n f (affine k false)) (distance n f (affine k true)) := fun k hk =>
    le_min (hleast ⟨k, hk, false, rfl⟩) (hleast ⟨k, hk, true, rfl⟩)
  constructor
  · refine ⟨k, hk, ?_⟩
    have hattained : min (distance n f (affine k false)) (distance n f (affine k true))
        = nonlinearity n f := by
      refine le_antisymm ?_ (hmin k hk)
      rw [hvalue]
      cases c
      · exact min_le_left _ _
      · exact min_le_right _ _
    rw [abs_transform_sign, hattained]
  · rintro m ⟨k, hk, rfl⟩
    have := hmin k hk
    rw [abs_transform_sign]
    push_cast at this ⊢
    have hcast : (nonlinearity n f : ℤ)
        ≤ min (distance n f (affine k false) : ℤ) (distance n f (affine k true) : ℤ) := by
      exact_mod_cast this
    linarith

/-- The nearest affine function agrees at least half the time. -/
theorem two_mul_nonlinearity_le : 2 * nonlinearity n f ≤ 2 ^ n := by
  obtain ⟨-, hleast⟩ := @isLeast_nonlinearity n f
  have hfalse := hleast ⟨0, Nat.two_pow_pos n, false, rfl⟩
  have htrue := hleast ⟨0, Nat.two_pow_pos n, true, rfl⟩
  have hcomplement : distance n f (affine 0 false) + distance n f (affine 0 true) = 2 ^ n :=
    distance_complement
  omega

end WalshHadamard
