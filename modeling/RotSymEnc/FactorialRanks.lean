/-
# Arrangements and their ranks

The factorial digits of a rank arrange the entries of a pool: the leading digit picks the first
entry, and the rest of the rank arranges what is left.  Every arrangement of `n` different
entries has exactly one rank below `n!`.  And an index below `N` that is scaled to `K` ranks
hits every rank `N / K` or `N / K + 1` times, the latter for exactly `N % K` of them.
-/
import Mathlib

namespace FactorialRanks

open Nat

variable {α : Type*}

/-! ## Arrangements -/

/-- The arrangement of the `n` entries of a pool that has the given rank. -/
def arrangement : ℕ → List α → ℕ → List α
  | 0, _, _ => []
  | n + 1, pool, rank =>
    pool[rank / n !]?.toList ++ arrangement n (pool.eraseIdx (rank / n !)) (rank % n !)

/-- The leading digit of a rank is an index. -/
theorem digit_lt {n rank : ℕ} (h : rank < (n + 1)!) : rank / n ! < n + 1 :=
  (Nat.div_lt_iff_lt_mul (factorial_pos n)).mpr (factorial_succ n ▸ h)

theorem arrangement_succ {n rank : ℕ} {pool : List α} (hpool : pool.length = n + 1)
    (h : rank < (n + 1)!) :
    arrangement (n + 1) pool rank = pool.get ⟨rank / n !, hpool ▸ digit_lt h⟩
      :: arrangement n (pool.eraseIdx (rank / n !)) (rank % n !) := by
  have hlt : rank / n ! < pool.length := hpool ▸ digit_lt h
  show pool[rank / n !]?.toList ++ _ = _
  rw [List.getElem?_eq_getElem hlt]
  rfl

theorem length_eraseIdx_succ {n i : ℕ} {pool : List α} (hpool : pool.length = n + 1)
    (h : i < n + 1) : (pool.eraseIdx i).length = n := by
  rw [List.length_eraseIdx_of_lt (hpool ▸ h), hpool, Nat.add_sub_cancel]

/-- **An arrangement** has the entries of its pool. -/
theorem arrangement_perm {n rank : ℕ} {pool : List α} (hpool : pool.length = n)
    (h : rank < n !) : (arrangement n pool rank).Perm pool := by
  induction n generalizing pool rank with
  | zero =>
    rw [List.eq_nil_of_length_eq_zero hpool]
    exact List.Perm.refl []
  | succ n ih =>
    have hlt := digit_lt h
    rw [arrangement_succ hpool h]
    refine ((ih (length_eraseIdx_succ hpool hlt) (mod_lt _ (factorial_pos n))).cons _).trans ?_
    exact List.getElem_cons_eraseIdx_perm (hpool ▸ hlt)

/-- **Every arrangement has a rank.** -/
theorem exists_rank {n : ℕ} {pool list : List α} (hpool : pool.length = n)
    (h : list.Perm pool) : ∃ rank < n !, arrangement n pool rank = list := by
  induction n generalizing pool list with
  | zero =>
    rw [List.eq_nil_of_length_eq_zero hpool, List.perm_nil] at h
    exact ⟨0, factorial_pos 0, h.symm⟩
  | succ n ih =>
    cases list with
    | nil => exact absurd (h.length_eq.trans hpool) (by simp)
    | cons first rest =>
      obtain ⟨i, hi, hfirst⟩ := List.getElem_of_mem (h.subset List.mem_cons_self)
      have hlt : i < n + 1 := hpool ▸ hi
      have hrest : rest.Perm (pool.eraseIdx i) := by
        refine (List.perm_cons first).mp (h.trans ?_)
        rw [← hfirst]
        exact (List.getElem_cons_eraseIdx_perm hi).symm
      obtain ⟨rank, hrank, heq⟩ := ih (length_eraseIdx_succ hpool hlt) hrest
      have hdigit : (i * n ! + rank) / n ! = i := by
        rw [Nat.add_comm, Nat.add_mul_div_right _ _ (factorial_pos n), Nat.div_eq_of_lt hrank,
          Nat.zero_add]
      have hmod : (i * n ! + rank) % n ! = rank := by
        rw [Nat.mul_comm, Nat.mul_add_mod, Nat.mod_eq_of_lt hrank]
      have hbound : i * n ! + rank < (n + 1)! := by
        rw [factorial_succ]
        calc i * n ! + rank < i * n ! + n ! := Nat.add_lt_add_left hrank _
          _ = (i + 1) * n ! := (Nat.succ_mul i _).symm
          _ ≤ (n + 1) * n ! := Nat.mul_le_mul_right _ hlt
      refine ⟨i * n ! + rank, hbound, ?_⟩
      rw [arrangement_succ hpool hbound]
      simp only [hdigit, hmod, heq, List.get_eq_getElem, hfirst]

/-- **Different ranks give different arrangements.** -/
theorem rank_unique {n : ℕ} {pool : List α} (hpool : pool.length = n) (hnodup : pool.Nodup)
    {rank rank' : ℕ} (h : rank < n !) (h' : rank' < n !)
    (heq : arrangement n pool rank = arrangement n pool rank') : rank = rank' := by
  induction n generalizing pool rank rank' with
  | zero =>
    rw [factorial_zero] at h h'
    omega
  | succ n ih =>
    rw [arrangement_succ hpool h, arrangement_succ hpool h'] at heq
    obtain ⟨hfirst, hrest⟩ := List.cons.inj heq
    have hdigit : rank / n ! = rank' / n ! :=
      congrArg Fin.val ((List.nodup_iff_injective_get.mp hnodup) hfirst)
    rw [hdigit] at hrest
    have hmod := ih (length_eraseIdx_succ hpool (digit_lt h'))
      (hnodup.sublist (List.eraseIdx_sublist _ _)) (mod_lt _ (factorial_pos n))
      (mod_lt _ (factorial_pos n)) hrest
    rw [← Nat.div_add_mod rank n !, ← Nat.div_add_mod rank' n !, hdigit, hmod]

/-! ## Scaled indices -/

/-- The indices below `N` that are scaled to the rank `r` of `K`. -/
def preimages (N K r : ℕ) : Finset ℕ := (Finset.range N).filter fun m => m * K / N = r

theorem mem_preimages {N K r m : ℕ} : m ∈ preimages N K r ↔ m < N ∧ m * K / N = r := by
  rw [preimages, Finset.mem_filter, Finset.mem_range]

theorem scaled_lt {N K m : ℕ} (h : m < N) (hK : 0 < K) : m * K / N < K := by
  rw [Nat.div_lt_iff_lt_mul (by omega), Nat.mul_comm K N]
  exact Nat.mul_lt_mul_of_pos_right h hK

/-- The preimages of a rank are an interval. -/
theorem preimages_eq {N K r : ℕ} (hN : 0 < N) (hK : 0 < K) (hr : r < K) :
    preimages N K r = Finset.Ico (r * N ⌈/⌉ K) ((r + 1) * N ⌈/⌉ K) := by
  ext m
  have hlow : r * N ⌈/⌉ K ≤ m ↔ r ≤ m * K / N := by
    rw [ceilDiv_le_iff_le_mul hK, Nat.le_div_iff_mul_le hN, Nat.mul_comm K m]
  have hhigh : m < (r + 1) * N ⌈/⌉ K ↔ m * K / N < r + 1 := by
    rw [← not_le, ceilDiv_le_iff_le_mul hK, Nat.div_lt_iff_lt_mul hN, Nat.mul_comm K m, not_le]
  rw [mem_preimages, Finset.mem_Ico, hlow, hhigh]
  constructor
  · rintro ⟨-, h⟩
    omega
  · rintro ⟨hle, hlt⟩
    refine ⟨?_, by omega⟩
    by_contra hge
    have := Nat.div_le_div_right (c := N) (Nat.mul_le_mul_right K (not_lt.mp hge))
    rw [Nat.mul_div_cancel_left K hN] at this
    omega

/-- The bounds of a rounded-up quotient. -/
theorem mul_ceilDiv_bounds {K : ℕ} (hK : 0 < K) (a : ℕ) :
    a ≤ K * (a ⌈/⌉ K) ∧ K * (a ⌈/⌉ K) < a + K := by
  constructor
  · exact (ceilDiv_le_iff_le_mul hK).mp le_rfl
  · have hle := Nat.mul_div_le (a + K - 1) K
    rw [Nat.ceilDiv_eq_add_pred_div]
    omega

/-- **Every rank is hit almost equally often.** -/
theorem card_preimages {N K r : ℕ} (hN : 0 < N) (hK : 0 < K) (hr : r < K) :
    (preimages N K r).card = N / K ∨ (preimages N K r).card = N / K + 1 := by
  obtain ⟨hlow, hlow'⟩ := mul_ceilDiv_bounds hK (r * N)
  obtain ⟨hhigh, hhigh'⟩ := mul_ceilDiv_bounds hK ((r + 1) * N)
  have hmod := Nat.mod_lt N hK
  have hdiv := Nat.div_add_mod N K
  rw [preimages_eq hN hK hr, Nat.card_Ico]
  rw [Nat.succ_mul] at hhigh hhigh' ⊢
  generalize r * N ⌈/⌉ K = low at *
  generalize (r * N + N) ⌈/⌉ K = high at *
  have hmin : low + N / K ≤ high := by
    have : K * (low + N / K) < K * (high + 1) := by
      rw [Nat.mul_add, Nat.mul_succ]
      omega
    exact Nat.lt_succ_iff.mp (Nat.lt_of_mul_lt_mul_left this)
  have hmax : high < low + N / K + 2 := by
    have : K * high < K * (low + N / K + 2) := by
      rw [Nat.mul_add, Nat.mul_add]
      omega
    exact Nat.lt_of_mul_lt_mul_left this
  generalize N / K = quotient at *
  omega

/-- **The ranks that are hit once more** are as many as the indices that the division leaves. -/
theorem card_heavy {N K : ℕ} (hN : 0 < N) (hK : 0 < K) :
    ((Finset.range K).filter fun r => (preimages N K r).card = N / K + 1).card = N % K := by
  have htotal : ∑ r ∈ Finset.range K, (preimages N K r).card = N := by
    have hfibers := Finset.card_eq_sum_card_fiberwise (s := Finset.range N) (t := Finset.range K)
      (f := fun m => m * K / N) fun m hm =>
        Finset.mem_coe.mpr (Finset.mem_range.mpr (scaled_lt (Finset.mem_range.mp hm) hK))
    rw [Finset.card_range] at hfibers
    exact hfibers.symm
  have hsplit : ∀ r ∈ Finset.range K, (preimages N K r).card
      = N / K + if (preimages N K r).card = N / K + 1 then 1 else 0 := by
    intro r hr
    rcases card_preimages hN hK (Finset.mem_range.mp hr) with h | h
    · rw [h, if_neg (by omega), Nat.add_zero]
    · rw [h, if_pos rfl]
  rw [Finset.sum_congr rfl hsplit, Finset.sum_add_distrib, Finset.sum_const, Finset.card_range,
    smul_eq_mul, ← Finset.card_filter] at htotal
  have hdiv := Nat.div_add_mod N K
  omega

end FactorialRanks
