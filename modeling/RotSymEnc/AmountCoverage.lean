/-
# The amount mapper covers every permutation

`amount_permutation` mixes its seed by six Feistel rounds, scales the result to a rank below `7!`
and decodes the rank.  The rounds lose nothing and the decoder is one to one, so each of the
5,040 permutations of `1..7` has 13 or 14 seeds, as the comment in the source says: 14 for
exactly 16 of them.
-/
import RotSymEnc.AmountMapper
import RotSymEnc.FactorialRanks
import RotSymEnc.ReversibleWords

open Nat FactorialRanks ReversibleWords StatefulRuns

/-! ## The Feistel rounds -/

/-- The halves of a word, packed, determine each other. -/
theorem packHalves_injective :
    Function.Injective fun halves : U8 × U8 => (u16 halves.1 <<< 8) ||| u16 halves.2 := by
  rintro ⟨left, right⟩ ⟨left', right'⟩ h
  have hbit : ∀ i, ((u16 left <<< 8) ||| u16 right).getLsbD i
      = ((u16 left' <<< 8) ||| u16 right').getLsbD i :=
    fun i => congrArg (fun word : U16 => word.getLsbD i) h
  refine Prod.ext (BitVec.eq_of_getLsbD_eq fun i hi => ?_)
    (BitVec.eq_of_getLsbD_eq fun i hi => ?_)
  · have hlt : 8 + i < 16 := by omega
    have hlt' : ¬8 + i < 8 := by omega
    simpa [u16, hi, hlt, hlt'] using hbit (8 + i)
  · have hlt : i < 16 := by omega
    simpa [u16, hi, hlt] using hbit i

/-- The halves of a word determine it. -/
theorem splitHalves_injective :
    Function.Injective fun seed : U16 => (u8 (seed >>> 8), u8 seed) := by
  intro seed seed' h
  obtain ⟨hhigh, hlow⟩ := Prod.mk.inj h
  refine BitVec.eq_of_getLsbD_eq fun i hi => ?_
  by_cases hlt : i < 8
  · have hbit := congrArg (fun byte : U8 => byte.getLsbD i) hlow
    simpa [u8, hlt] using hbit
  · have hbit := congrArg (fun byte : U8 => byte.getLsbD (i - 8)) hhigh
    have hback : 8 + (i - 8) = i := by omega
    have hlt' : i - 8 < 8 := by omega
    simpa [u8, hlt', hback] using hbit

/-- A Feistel round loses nothing, whatever its round function is. -/
theorem feistelRound_injective (mix : U8 → U8) :
    Function.Injective fun halves : U8 × U8 => (halves.2, halves.1 ^^^ mix halves.2) := by
  rintro ⟨left, right⟩ ⟨left', right'⟩ h
  obtain ⟨rfl, hleft⟩ := Prod.mk.inj h
  exact Prod.ext (xor_const_injective _ hleft) rfl

/-- **The seed preprocessing is bijective.** -/
theorem amountSeedPermutation_bijective : Function.Bijective amountSeedPermutation := by
  have : Finite U16 := Finite.of_injective BitVec.toFin fun _ _ h => BitVec.eq_of_toFin_eq h
  apply Finite.injective_iff_bijective.mp
  intro seed seed' h
  apply splitHalves_injective
  exact foldl_injective
    (fun round => feistelRound_injective fun right => amountMixRound right round) _
    (packHalves_injective h)

/-! ## The decoder -/

/-- After `position` passes the output so far, followed by the arrangement that the rest of the
rank makes of the live part of the pool, is the arrangement of the first rank. -/
structure RankDecoder.Follows (rank : ℕ) (position : ℕ) (d : RankDecoder) : Prop where
  sound : d.Sound position
  follows : d.output.toList.take position
    ++ arrangement d.remaining (d.pool.toList.take d.remaining) d.rank.toNat
    = arrangement 7 amountValues rank

/-- **One position of the decoder** moves one entry of the arrangement to the output. -/
theorem decodePosition_follows {rank : ℕ} {d : RankDecoder} {position : Fin 7}
    (hd : d.Follows rank position) :
    ∃ d', decodePosition d position = .ok d' ∧ d'.Follows rank (position + 1) := by
  obtain ⟨hsound, hfollows⟩ := hd
  obtain ⟨d', hrun, hsound'⟩ := decodePosition_sound hsound
  refine ⟨d', hrun, hsound', ?_⟩
  obtain ⟨r, hr⟩ : ∃ r, d.remaining = r + 1 := ⟨6 - position, by have := hsound.remaining_eq; omega⟩
  have hr7 : r < 7 := by
    have := hsound.remaining_eq
    omega
  have hrank : d.rank.toNat < (r + 1)! := hr ▸ hsound.rank_lt
  have hblock : (factorialTable[r]).toNat = r ! := factorialTable_eq r hr7
  have hdigit : (d.rank / factorialTable[r]).toNat = d.rank.toNat / r ! := by
    rw [BitVec.toNat_udiv, hblock]
  have hlt : d.rank.toNat / r ! < r + 1 := digit_lt hrank
  have hlt7 : d.rank.toNat / r ! < 7 := by omega
  obtain ⟨pool', hclose, hget⟩ := closeUp_eq (r - d.rank.toNat / r !) d.pool (d.rank.toNat / r !)
    (by omega)
  have htake : pool'.toList.take r = (d.pool.toList.take (r + 1)).eraseIdx (d.rank.toNat / r !) :=
    take_closeUp (r + 1) hlt (by simpa using hget)
  have hd' : d' = ⟨d.rank % factorialTable[r], pool', r,
      d.output.set position d.pool[d.rank.toNat / r !]⟩ := by
    rw [decodePosition, hr, Nat.add_sub_cancel, arrayAt_of_lt _ hr7] at hrun
    refine (Except.ok.inj (hrun.symm.trans ?_))
    show Except.bind (arrayAt d.pool (d.rank / factorialTable[r]).toNat) _ = _
    rw [hdigit, arrayAt_of_lt _ hlt7]
    show Except.bind (List.foldlM _ d.pool
      (List.range' (d.rank.toNat / r !) (r - d.rank.toNat / r !))) _ = _
    rw [hclose]
    rfl
  subst hd'
  have hlen : (d.pool.toList.take (r + 1)).length = r + 1 := by
    rw [List.length_take, Vector.length_toList]
    omega
  rw [hr, arrangement_succ hlen hrank] at hfollows
  rw [← hfollows]
  simp only [take_succ_set, htake, BitVec.toNat_umod, hblock]
  rw [List.append_assoc, List.singleton_append]
  simp

/-- **The amount mapper decodes the scaled rank.** -/
theorem amountPermutation_eq (seed : U16) :
    ∃ permutation, amountPermutation seed = .ok permutation ∧ permutation.toList
      = arrangement 7 amountValues ((amountSeedPermutation seed).toNat * 5040 / 2 ^ 16) := by
  have hscaled : ((u32 (amountSeedPermutation seed) * 5040) >>> 16).toNat
      = (amountSeedPermutation seed).toNat * 5040 / 2 ^ 16 := by
    have h := (amountSeedPermutation seed).isLt
    rw [BitVec.toNat_ushiftRight, BitVec.toNat_mul, BitVec.toNat_setWidth]
    show ((amountSeedPermutation seed).toNat % 2 ^ 32 * 5040 % 2 ^ 32) >>> 16 = _
    rw [Nat.mod_eq_of_lt (show (amountSeedPermutation seed).toNat < 2 ^ 32 by omega),
      Nat.mod_eq_of_lt (by omega), Nat.shiftRight_eq_div_pow]
  obtain ⟨d, hrun, hd⟩ := foldlM_finRange_ok (RankDecoder.Follows
      ((amountSeedPermutation seed).toNat * 5040 / 2 ^ 16))
    (fun position d => decodePosition_follows)
    (⟨⟨rfl, rank_lt _, List.Perm.refl amountValues⟩,
        congrArg (arrangement 7 amountValues) hscaled⟩ :
      RankDecoder.Follows _ 0 ⟨(u32 (amountSeedPermutation seed) * 5040) >>> 16,
        #v[1, 2, 3, 4, 5, 6, 7], 7, Vector.replicate 7 0⟩)
  refine ⟨d.output, ?_, ?_⟩
  · rw [amountPermutation, hrun]
    rfl
  · have hrem : d.remaining = 0 := hd.sound.remaining_eq
    have h := hd.follows
    rw [hrem, List.take_of_length_le (by simp)] at h
    exact (List.append_nil _).symm.trans h

/-! ## Preimages -/

theorem length_amountValues : amountValues.length = 7 := rfl

theorem nodup_amountValues : amountValues.Nodup := by decide

/-- The seeds of a permutation are as many as the indices that are scaled to its rank. -/
theorem ncard_seeds {permutation : Vector U8 7} {rank : ℕ} (hrank : rank < 7 !)
    (h : arrangement 7 amountValues rank = permutation.toList) :
    {seed | amountPermutation seed = .ok permutation}.ncard
      = (preimages (2 ^ 16) 5040 rank).card := by
  have hinjective : Function.Injective fun seed : U16 => (amountSeedPermutation seed).toNat :=
    fun _ _ heq => amountSeedPermutation_bijective.1 (BitVec.eq_of_toNat_eq heq)
  have himage : (fun seed : U16 => (amountSeedPermutation seed).toNat) ''
      {seed | amountPermutation seed = .ok permutation} = ↑(preimages (2 ^ 16) 5040 rank) := by
    ext m
    rw [Finset.mem_coe, mem_preimages]
    constructor
    · rintro ⟨seed, hseed, rfl⟩
      obtain ⟨permutation', hrun, hlist⟩ := amountPermutation_eq seed
      obtain rfl : permutation' = permutation := Except.ok.inj (hrun.symm.trans hseed)
      refine ⟨(amountSeedPermutation seed).isLt, ?_⟩
      exact rank_unique length_amountValues nodup_amountValues
        (scaled_lt (amountSeedPermutation seed).isLt (by decide)) hrank (hlist.symm.trans h.symm)
    · rintro ⟨hm, hscaled⟩
      obtain ⟨seed, hseed⟩ := amountSeedPermutation_bijective.2 (BitVec.ofNat 16 m)
      have htoNat : (amountSeedPermutation seed).toNat = m := by
        rw [hseed, BitVec.toNat_ofNat, Nat.mod_eq_of_lt hm]
      refine ⟨seed, ?_, htoNat⟩
      obtain ⟨permutation', hrun, hlist⟩ := amountPermutation_eq seed
      rw [htoNat, hscaled, h] at hlist
      exact hrun.trans (congrArg Except.ok (Vector.toList_inj.mp hlist))
  rw [← Set.ncard_image_of_injective _ hinjective, himage, Set.ncard_coe_finset]

/-- **Every permutation has 13 or 14 seeds**, as the source says: the seed preprocessing is
bijective, every permutation of `1..7` has 13 or 14 of the 2^16 seeds, and exactly 16 of them
have 14. -/
theorem amount_permutation_preimages :
    Function.Bijective amountSeedPermutation ∧
    (∀ permutation : Vector U8 7, permutation.toList.Perm amountValues →
      {seed | amountPermutation seed = .ok permutation}.ncard = 13 ∨
      {seed | amountPermutation seed = .ok permutation}.ncard = 14) ∧
    {permutation : Vector U8 7 | permutation.toList.Perm amountValues ∧
      {seed | amountPermutation seed = .ok permutation}.ncard = 14}.ncard = 16 := by
  have hfactorial : 7 ! = 5040 := rfl
  refine ⟨amountSeedPermutation_bijective, fun permutation hperm => ?_, ?_⟩
  · obtain ⟨rank, hrank, hlist⟩ := exists_rank length_amountValues hperm
    rw [ncard_seeds hrank hlist]
    exact card_preimages (by norm_num) (by norm_num) (hfactorial ▸ hrank)
  · -- the permutations with 14 seeds are those of the ranks that are hit once more
    have hranks : (fun permutation : Vector U8 7 => permutation.toList) ''
        {permutation | permutation.toList.Perm amountValues ∧
          {seed | amountPermutation seed = .ok permutation}.ncard = 14}
        = arrangement 7 amountValues '' ↑((Finset.range 5040).filter fun rank =>
          (preimages (2 ^ 16) 5040 rank).card = 2 ^ 16 / 5040 + 1) := by
      ext list
      constructor
      · rintro ⟨permutation, ⟨hperm, hcard⟩, rfl⟩
        obtain ⟨rank, hrank, hlist⟩ := exists_rank length_amountValues hperm
        refine ⟨rank, ?_, hlist⟩
        rw [Finset.mem_coe, Finset.mem_filter, Finset.mem_range]
        exact ⟨hfactorial ▸ hrank, (ncard_seeds hrank hlist).symm.trans hcard⟩
      · rintro ⟨rank, hmem, rfl⟩
        rw [Finset.mem_coe, Finset.mem_filter, Finset.mem_range] at hmem
        have hrank : rank < 7 ! := hmem.1
        have hperm := arrangement_perm length_amountValues hrank
        refine ⟨⟨(arrangement 7 amountValues rank).toArray, hperm.length_eq⟩, ⟨hperm, ?_⟩, rfl⟩
        exact (ncard_seeds hrank rfl).trans hmem.2
    have hinjective : Set.InjOn (arrangement 7 amountValues)
        ↑((Finset.range 5040).filter fun rank =>
          (preimages (2 ^ 16) 5040 rank).card = 2 ^ 16 / 5040 + 1) := by
      intro rank hrank rank' hrank' heq
      rw [Finset.mem_coe, Finset.mem_filter, Finset.mem_range] at hrank hrank'
      exact rank_unique length_amountValues nodup_amountValues hrank.1 hrank'.1 heq
    rw [← Set.ncard_image_of_injective _ fun _ _ h => Vector.toList_inj.mp h, hranks,
      hinjective.ncard_image, Set.ncard_coe_finset, card_heavy (by norm_num) (by norm_num)]
    norm_num
