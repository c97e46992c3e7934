/-
# The amount mapper decodes a permutation

`amount_permutation` turns a rank below `7!` into a permutation of `1..7` by
factorial digits, over a pool whose chosen entries are closed up in place.  Every
array access of the loop is inside its array, and the output is a permutation.
-/
import RotSymEnc.Controller

open Nat StatefulRuns

/-! ## Closing up the pool -/

theorem arrayAt_of_lt {α : Type} {n i : ℕ} (array : Vector α n) (h : i < n) :
    arrayAt array i = .ok array[i] :=
  dif_pos h

/-- The inner loop shifts a stretch of the pool down by one entry. -/
theorem closeUp_eq (n : ℕ) : ∀ (pool : Vector U8 7) (index : ℕ), index + n < 7 →
    ∃ pool', (List.range' index n).foldlM
        (fun pool j => do arraySet pool j (← arrayAt pool (j + 1))) pool = .ok pool' ∧
      ∀ j, pool'[j]? = if index ≤ j ∧ j < index + n then pool[j + 1]? else pool[j]? := by
  induction n with
  | zero =>
    intro pool index _
    refine ⟨pool, rfl, fun j => ?_⟩
    rw [if_neg (by omega)]
  | succ n ih =>
    intro pool index hindex
    have h0 : index < 7 := by omega
    have h1 : index + 1 < 7 := by omega
    obtain ⟨pool', hrun, hget⟩ := ih (pool.set index pool[index + 1]) (index + 1) (by omega)
    refine ⟨pool', ?_, fun j => ?_⟩
    · rw [List.range'_succ, List.foldlM_cons]
      simp only [arrayAt, arraySet, dif_pos h0, dif_pos h1]
      exact hrun
    · rw [hget]
      by_cases hj : index + 1 ≤ j ∧ j < index + 1 + n
      · rw [if_pos hj, if_pos (by omega), Vector.getElem?_set_ne h0 (by omega)]
      · rw [if_neg hj]
        by_cases hji : j = index
        · subst hji
          rw [if_pos (by omega), Vector.getElem?_set_self (by omega), Vector.getElem?_eq_getElem h1]
        · rw [if_neg (by omega), Vector.getElem?_set_ne h0 (by omega)]

/-- The live part of the pool loses the chosen entry. -/
theorem take_closeUp {pool pool' : Vector U8 7} {index : ℕ} (remaining : ℕ)
    (hindex : index < remaining)
    (hget : ∀ j, pool'[j]? =
      if index ≤ j ∧ j < index + (remaining - 1 - index) then pool[j + 1]? else pool[j]?) :
    pool'.toList.take (remaining - 1) = (pool.toList.take remaining).eraseIdx index := by
  refine List.ext_getElem? fun j => ?_
  rw [List.getElem?_eraseIdx]
  simp only [List.getElem?_take, Vector.getElem?_toList, hget]
  by_cases hj : j < index
  · rw [if_pos hj, if_pos (by omega), if_neg (by omega), if_pos (by omega)]
  · rw [if_neg hj]
    by_cases hr : j < remaining - 1
    · rw [if_pos hr, if_pos (by omega), if_pos (by omega)]
    · rw [if_neg hr, if_neg (by omega)]

/-! ## The decoder -/

/-- The permuted values. -/
def amountValues : List U8 := [1, 2, 3, 4, 5, 6, 7]

/-- After `position` passes: the rank is below the factorial of what remains, and
the live part of the pool together with the output so far is `1..7`. -/
structure RankDecoder.Sound (position : ℕ) (d : RankDecoder) : Prop where
  remaining_eq : d.remaining = 7 - position
  rank_lt : d.rank.toNat < (d.remaining)!
  perm : (d.pool.toList.take d.remaining ++ d.output.toList.take position).Perm amountValues

/-- The table of `amount_permutation` holds the factorials. -/
theorem factorialTable_eq (i : ℕ) (h : i < 7) : (factorialTable[i]).toNat = (i)! := by
  interval_cases i <;> rfl

theorem take_succ_set {n : ℕ} (output : Vector U8 n) (position : Fin n) (chosen : U8) :
    (output.set position chosen position.isLt).toList.take (position + 1)
      = output.toList.take position ++ [chosen] := by
  rw [Vector.toList_set, List.take_add_one, List.take_set_of_le le_rfl,
    List.getElem?_set_self (by simp)]
  rfl

/-- **One position of the decoder** stays inside its arrays and keeps the pool
and the output a rearrangement of `1..7`. -/
theorem decodePosition_sound {d : RankDecoder} {position : Fin 7} (hd : d.Sound position) :
    ∃ d', decodePosition d position = .ok d' ∧ d'.Sound (position + 1) := by
  obtain ⟨hrem, hrank, hperm⟩ := hd
  obtain ⟨r, hr⟩ : ∃ r, d.remaining = r + 1 := ⟨6 - position, by omega⟩
  have hr7 : r < 7 := by omega
  have hblock : (factorialTable[r]).toNat = (r)! := factorialTable_eq r hr7
  -- the digit is below the number of live entries, since the rank is below their factorial
  have hindex : (d.rank / factorialTable[r]).toNat < r + 1 := by
    rw [BitVec.toNat_udiv, hblock, Nat.div_lt_iff_lt_mul (Nat.factorial_pos r),
      ← Nat.factorial_succ, ← hr]
    exact hrank
  set index := (d.rank / factorialTable[r]).toNat with hindex_def
  have hindex7 : index < 7 := by omega
  obtain ⟨pool', hclose, hget⟩ := closeUp_eq (r - index) d.pool index (by omega)
  have htake : pool'.toList.take r = (d.pool.toList.take (r + 1)).eraseIdx index :=
    take_closeUp (r + 1) (by omega) (by simpa using hget)
  have hlive : index < (d.pool.toList.take (r + 1)).length := by simp; omega
  have hchosen : (d.pool.toList.take (r + 1))[index] = d.pool[index] := by simp
  refine ⟨⟨d.rank % factorialTable[r], pool', r, d.output.set position d.pool[index]⟩,
    ?_, ?_, ?_, ?_⟩
  · rw [decodePosition, hr, Nat.add_sub_cancel, arrayAt_of_lt _ hr7]
    show Except.bind (arrayAt d.pool index) _ = _
    rw [arrayAt_of_lt _ hindex7]
    show Except.bind (List.foldlM _ d.pool (List.range' index (r - index))) _ = _
    rw [hclose]
    rfl
  · simp only
    omega
  · rw [BitVec.toNat_umod, hblock]
    exact Nat.mod_lt _ (Nat.factorial_pos r)
  · simp only [take_succ_set, htake]
    rw [hr] at hperm
    refine List.Perm.trans ?_ hperm
    rw [← List.append_assoc]
    refine (List.perm_append_singleton _ _).trans ?_
    rw [← List.cons_append, ← hchosen]
    exact (List.getElem_cons_eraseIdx_perm hlive).append_right _

/-- The scaled seed is a rank. -/
theorem rank_lt (mixed : U16) : ((u32 mixed * 5040) >>> 16).toNat < (7)! := by
  have h := mixed.isLt
  have h5040 : (5040 : U32).toNat = 5040 := rfl
  rw [BitVec.toNat_ushiftRight, BitVec.toNat_mul, BitVec.toNat_setWidth, h5040,
    Nat.mod_eq_of_lt (a := mixed.toNat) (by omega), Nat.mod_eq_of_lt (by omega),
    Nat.shiftRight_eq_div_pow]
  show _ < 5040
  omega

/-- **The amount mapper decodes a permutation of `1..7`**, for every seed. -/
theorem amountPermutation_perm (seed : U16) :
    ∃ permutation, amountPermutation seed = .ok permutation ∧
      permutation.toList.Perm amountValues := by
  obtain ⟨d, hrun, hd⟩ := foldlM_finRange_ok RankDecoder.Sound
    (fun position d => decodePosition_sound)
    (⟨rfl, rank_lt _, List.Perm.refl amountValues⟩ : RankDecoder.Sound 0
      ⟨(u32 (amountSeedPermutation seed) * 5040) >>> 16, #v[1, 2, 3, 4, 5, 6, 7], 7,
        Vector.replicate 7 0⟩)
  refine ⟨d.output, ?_, ?_⟩
  · rw [amountPermutation, hrun]
    rfl
  · have hrem : d.remaining = 0 := hd.remaining_eq
    have h := hd.perm
    rw [hrem, List.take_zero, List.nil_append, List.take_of_length_le (by simp)] at h
    exact h
