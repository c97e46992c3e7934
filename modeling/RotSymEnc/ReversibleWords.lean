/-
# Word operations that lose nothing

Rotations, sums and exclusive ors with a fixed word, placements of a narrow word
inside a wide one and products by an odd constant are injective, and so is any
loop of such steps.  A mixing function built from them can be undone step by step.
-/
import Mathlib

namespace ReversibleWords

open Function

variable {w : ℕ}

/-! ## Rotations -/

/-- A bit of a rotated word is a bit of the word. -/
theorem getLsbD_rotateLeft_add (x : BitVec w) (n : ℕ) {i : ℕ} (hi : i < w) :
    (x.rotateLeft n).getLsbD ((i + n) % w) = x.getLsbD i := by
  have hw : 0 < w := by omega
  have hn : n % w < w := Nat.mod_lt n hw
  have hsum : (i + n) % w = (i + n % w) % w := by rw [Nat.add_mod_mod]
  rw [BitVec.getLsbD_rotateLeft, hsum]
  by_cases hwrap : i + n % w < w
  · have hmod : (i + n % w) % w = i + n % w := Nat.mod_eq_of_lt hwrap
    have hge : ¬ i + n % w < n % w := by omega
    rw [hmod, decide_eq_false hge, cond_false, decide_eq_true hwrap, Bool.true_and,
      Nat.add_sub_cancel]
  · -- the bit has wrapped around to the low end
    have hmod : (i + n % w) % w = i + n % w - w := by
      rw [Nat.mod_eq_sub_mod (by omega), Nat.mod_eq_of_lt (by omega)]
    have hlt : i + n % w - w < n % w := by omega
    have hback : w - n % w + (i + n % w - w) = i := by omega
    rw [hmod, decide_eq_true hlt, cond_true, hback]

theorem rotateLeft_injective (n : ℕ) : Injective fun x : BitVec w => x.rotateLeft n := by
  intro x y h
  apply BitVec.eq_of_getLsbD_eq
  intro i hi
  rw [← getLsbD_rotateLeft_add x n hi, ← getLsbD_rotateLeft_add y n hi]
  exact congrArg (fun z : BitVec w => z.getLsbD ((i + n) % w)) h

/-! ## Sums and exclusive ors -/

theorem xor_const_injective (c : BitVec w) : Injective fun x : BitVec w => x ^^^ c :=
  fun _ _ h => (BitVec.xor_left_inj c).mp h

theorem const_xor_injective (c : BitVec w) : Injective fun x : BitVec w => c ^^^ x :=
  fun _ _ h => (BitVec.xor_right_inj c).mp h

theorem add_const_injective (c : BitVec w) : Injective fun x : BitVec w => x + c :=
  fun _ _ h => (BitVec.add_left_inj c).mp h

/-- A constant with an inverse multiplies without loss. -/
theorem mul_const_injective {c d : BitVec w} (h : c * d = 1) :
    Injective fun x : BitVec w => x * c := by
  intro x y hxy
  have hcancel := congrArg (· * d) hxy
  simpa only [mul_assoc, h, mul_one] using hcancel

/-! ## Placements -/

/-- A narrow word shifted inside a wide one keeps its bits. -/
theorem shiftLeft_setWidth_injective {v k : ℕ} (h : v + k ≤ w) :
    Injective fun x : BitVec v => x.setWidth w <<< k := by
  intro x y hxy
  apply BitVec.eq_of_getLsbD_eq
  intro i hi
  have hbit := congrArg (fun z : BitVec w => z.getLsbD (k + i)) hxy
  have hlow : k + i < w := by omega
  have hlow' : i < w := by omega
  simpa [hlow, hlow'] using hbit

/-! ## Loops -/

/-- A loop of lossless steps is lossless. -/
theorem foldl_injective {α β : Type*} {f : β → α → β} (hf : ∀ a, Injective fun b => f b a)
    (l : List α) : Injective fun b => l.foldl f b := by
  induction l with
  | nil => exact injective_id
  | cons a l ih =>
    intro b c h
    exact hf a (ih h)

end ReversibleWords
