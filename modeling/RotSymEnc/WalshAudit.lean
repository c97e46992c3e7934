/-
# The Walsh stage of the domain audit

`measure_walsh_trial` of `streamframe_domain_audit.cpp`: the spectrum of each of the 256
output bits, its greatest absolute coefficient, and what the campaign prints of it.

The spectrum is a vector of `int`.  A value that is none, in the transform or as an
absolute value, is undefined behaviour, and so is an access outside a vector: the model
has no result there.  The sums of type `double` stand here for the exact numbers; as long as
they are integers up to `2^53` no addition rounds, and the last section says when that is.
-/
import RotSymEnc.AffineDistance
import RotSymEnc.Fwht
import RotSymEnc.Finalization

open WalshHadamard

/-! ## The trial -/

/-- `kOutputBits`. -/
def kOutputBits : ℕ := 256

/-- `struct WalshAggregate`. -/
structure WalshAggregate : Type where
  observations : U64 := 0
  maximumCorrelationSum : ℚ := 0
  nonlinearitySum : ℚ := 0
  globalMaximumCorrelation : ℤ := 0
  globalMinimumNonlinearity : U64 := BitVec.allOnes 64
  affineOutputs : U64 := 0

/-- `struct WalshTrialResult`. -/
structure WalshTrialResult : Type where
  candidateMaximumCorrelation : ℤ := 0
  candidateMeanNonlinearity : ℚ := 0
  controlMaximumCorrelation : ℤ := 0
  controlMeanNonlinearity : ℚ := 0
  candidateOutputCollisions : U64 := 0

/-- `output_bit`. -/
def outputBit (output : ResearchOutput) (bit : Fin kOutputBits) : Bool :=
  (output.get ⟨bit.val / 8, Nat.div_lt_of_lt_mul bit.isLt⟩).getLsbD (bit.val % 8)

/-- `add_walsh_observation`. -/
def addWalshObservation (aggregate : WalshAggregate) (maximumCorrelation : ℤ)
    (nonlinearity : U64) : WalshAggregate :=
  { aggregate with
    observations := aggregate.observations + 1
    maximumCorrelationSum := aggregate.maximumCorrelationSum + maximumCorrelation
    nonlinearitySum := aggregate.nonlinearitySum + nonlinearity.toNat
    globalMaximumCorrelation := max aggregate.globalMaximumCorrelation maximumCorrelation
    globalMinimumNonlinearity :=
      if nonlinearity < aggregate.globalMinimumNonlinearity then nonlinearity
      else aggregate.globalMinimumNonlinearity }

instance (z : ℤ) : Decidable (FitsInt z) := inferInstanceAs (Decidable (_ ∧ _))

/-- The signs of an output bit, indexed by the mask. -/
def signsOf (outputs : List ResearchOutput) (count : ℕ) (bit : Fin kOutputBits) :
    Option (List ℤ) :=
  (List.range count).mapM fun mask =>
    (outputs[mask]?).map fun output => if outputBit output bit then -1 else 1

/-- `fwht` on a vector of `int`. -/
def intSpectrum (values : List ℤ) : Option (List ℤ) :=
  match fwht.run ⟨values, []⟩ with
  | .ok _ spectrum =>
    if ∀ z ∈ spectrum.values ++ spectrum.computed, FitsInt z then some spectrum.values else none
  | .error _ _ => none

/-- The loop for the greatest absolute coefficient. -/
def maximumOf (spectrum : List ℤ) : Option ℤ :=
  spectrum.foldlM (fun maximum coefficient =>
    if FitsInt |coefficient| then some (max maximum |coefficient|) else none) 0

/-- A conversion of a `std::size_t` to `int`. -/
def intOfSize (count : ℕ) : ℤ := (BitVec.ofNat 32 count).toInt

/-- The measurement of one output bit: the aggregate with it, and the coefficient and the
nonlinearity that go into the result. -/
def measureBit (outputs : List ResearchOutput) (count : ℕ) (bit : Fin kOutputBits)
    (aggregate : WalshAggregate) : Option (WalshAggregate × ℤ × U64) := do
  let spectrum ← signsOf outputs count bit
  let spectrum ← intSpectrum spectrum
  let maximum ← maximumOf spectrum
  let nonlinearity := BitVec.ofNat 64 count / 2 - BitVec.ofInt 64 (maximum / 2)
  let aggregate := addWalshObservation aggregate maximum nonlinearity
  let aggregate :=
    if maximum = intOfSize count then
      { aggregate with affineOutputs := aggregate.affineOutputs + 1 }
    else aggregate
  return (aggregate, maximum, nonlinearity)

/-- An insertion into the set of distinct outputs, with the count of those that fail. -/
def insertOutput (seen : List ResearchOutput × U64) (output : ResearchOutput) :
    List ResearchOutput × U64 :=
  if output ∈ seen.1 then (seen.1, seen.2 + 1) else (output :: seen.1, seen.2)

/-- The loop that counts collisions. -/
def countCollisions (outputs : List ResearchOutput) : U64 := (outputs.foldl insertOutput ([], 0)).2

/-- The variables of the loop over the output bits. -/
structure WalshTrial : Type where
  result : WalshTrialResult
  candidate : WalshAggregate
  control : WalshAggregate

/-- One iteration of the loop over the output bits. -/
def walshTrialBit (candidateOutputs controlOutputs : List ResearchOutput) (trial : WalshTrial)
    (bit : Fin kOutputBits) : Option WalshTrial := do
  let count := candidateOutputs.length
  let (candidate, candidateMaximum, candidateNonlinearity) ←
    measureBit candidateOutputs count bit trial.candidate
  let (control, controlMaximum, controlNonlinearity) ←
    measureBit controlOutputs count bit trial.control
  return { result :=
            { trial.result with
              candidateMaximumCorrelation :=
                max trial.result.candidateMaximumCorrelation candidateMaximum
              candidateMeanNonlinearity :=
                trial.result.candidateMeanNonlinearity + candidateNonlinearity.toNat
              controlMaximumCorrelation :=
                max trial.result.controlMaximumCorrelation controlMaximum
              controlMeanNonlinearity :=
                trial.result.controlMeanNonlinearity + controlNonlinearity.toNat }
           candidate := candidate
           control := control }

/-- `measure_walsh_trial`, with the aggregates it leaves. -/
def measureWalshTrial (candidateOutputs controlOutputs : List ResearchOutput)
    (candidate control : WalshAggregate) : Option WalshTrial := do
  let result : WalshTrialResult := { candidateOutputCollisions := countCollisions candidateOutputs }
  let trial ← (List.finRange kOutputBits).foldlM
    (walshTrialBit candidateOutputs controlOutputs) ⟨result, candidate, control⟩
  return { trial with
    result :=
      { trial.result with
        candidateMeanNonlinearity := trial.result.candidateMeanNonlinearity / kOutputBits
        controlMeanNonlinearity := trial.result.controlMeanNonlinearity / kOutputBits } }

/-! ## One output bit -/

/-- The Boolean function of the mask that an output bit is. -/
def bitFunction (outputs : List ResearchOutput) (bit : Fin kOutputBits) (mask : ℕ) : Bool :=
  ((outputs[mask]?).map fun output => outputBit output bit).getD false

section Bit

variable {n : ℕ} {outputs : List ResearchOutput} {bit : Fin kOutputBits}

theorem mapM_eq_some {α β : Type} {f : α → Option β} {g : α → β} {l : List α}
    (h : ∀ a ∈ l, f a = some (g a)) : l.mapM f = some (l.map g) := by
  induction l with
  | nil => rfl
  | cons a l ih =>
    rw [List.mapM_cons, h a List.mem_cons_self, ih fun b hb => h b (List.mem_cons_of_mem a hb)]
    rfl

/-- The vector before the transform has the signs of the function. -/
theorem signsOf_eq (h : outputs.length = 2 ^ n) :
    signsOf outputs (2 ^ n) bit
      = some ((List.range (2 ^ n)).map fun mask => sign (bitFunction outputs bit mask)) := by
  refine mapM_eq_some fun mask hmask => ?_
  unfold bitFunction
  rw [List.getElem?_eq_getElem (h ▸ List.mem_range.mp hmask)]
  rfl

/-- What `fwht` does to a vector of signs. -/
theorem fwht_signs (f : ℕ → Bool) :
    ∃ spectrum, fwht.run ⟨(List.range (2 ^ n)).map fun mask => sign (f mask), []⟩
        = .ok () spectrum ∧
      spectrum.values.length = 2 ^ n ∧
      (∀ k < 2 ^ n, spectrum.values[k]? = some (transform n (fun mask => sign (f mask)) k)) ∧
      ∀ z ∈ spectrum.computed, |z| ≤ 2 ^ n := by
  have hone : ∀ b, |sign b| ≤ 1 := by decide
  have hbound : ∀ j < n, ∀ i < 2 ^ n,
      |partialTransform (j + 1) (fun mask => sign (f mask)) i| ≤ 2 ^ n := by
    intro j hj i _
    calc |partialTransform (j + 1) (fun mask => sign (f mask)) i|
        ≤ 2 ^ (j + 1) * 1 := abs_partialTransform_le fun x _ => hone _
      _ = 2 ^ (j + 1) := mul_one _
      _ ≤ 2 ^ n := pow_le_pow_right₀ one_le_two hj
  have hstart : (Spectrum.mk ((List.range (2 ^ n)).map fun mask => sign (f mask)) []).Holds
      (2 ^ n) (fun z => |z| ≤ 2 ^ n) fun mask => sign (f mask) := by
    refine ⟨by rw [List.length_map, List.length_range], fun i hi => ?_, List.forall_mem_nil _⟩
    rw [List.getElem?_map, List.getElem?_range hi]
    rfl
  obtain ⟨_, spectrum, hrun, hspectrum, -⟩ := leads_fwht hbound _ hstart
  exact ⟨spectrum, hrun, hspectrum.length_eq, hspectrum.entry, hspectrum.computed⟩

theorem fitsInt_of_abs_le {z : ℤ} (hn : n ≤ 30) (h : |z| ≤ 2 ^ n) : FitsInt z := by
  have hpow : (2 : ℤ) ^ n ≤ 2 ^ 30 := pow_le_pow_right₀ one_le_two hn
  obtain ⟨hlow, hhigh⟩ := abs_le.mp (h.trans hpow)
  unfold FitsInt
  omega

/-- **The spectrum of an output bit**, where it fits. -/
theorem intSpectrum_signs (hn : n ≤ 30) (f : ℕ → Bool) :
    ∃ w, intSpectrum ((List.range (2 ^ n)).map fun mask => sign (f mask)) = some w ∧
      w.length = 2 ^ n ∧ ∀ k < 2 ^ n, w[k]? = some (transform n (fun mask => sign (f mask)) k) := by
  obtain ⟨spectrum, hrun, hlength, hentry, hcomputed⟩ := @fwht_signs n f
  refine ⟨spectrum.values, ?_, hlength, hentry⟩
  unfold intSpectrum
  rw [hrun]
  refine if_pos fun z hz => ?_
  rcases List.mem_append.mp hz with hvalue | hcomp
  · obtain ⟨k, hk, rfl⟩ := List.mem_iff_getElem.mp hvalue
    have hvalue := hentry k (hlength ▸ hk)
    rw [List.getElem?_eq_getElem hk] at hvalue
    rw [Option.some.inj hvalue]
    have hle := (@isGreatest_abs_transform n f).2 ⟨k, hlength ▸ hk, rfl⟩
    exact fitsInt_of_abs_le hn (by omega)
  · exact fitsInt_of_abs_le hn (hcomputed z hcomp)

/-- The loop for the maximum, from a value on that does not exceed it. -/
theorem foldlM_maximum {w : List ℤ} {maximum start : ℤ} (hfits : FitsInt maximum)
    (hbound : ∀ z ∈ w, |z| ≤ maximum) (hstart : start ≤ maximum)
    (hattained : start = maximum ∨ ∃ z ∈ w, |z| = maximum) :
    w.foldlM (fun maximum coefficient =>
      if FitsInt |coefficient| then some (max maximum |coefficient|) else none) start
        = some maximum := by
  induction w generalizing start with
  | nil =>
    rcases hattained with rfl | ⟨z, hz, -⟩
    · rfl
    · cases hz
  | cons z w ih =>
    obtain ⟨hz, hw⟩ := List.forall_mem_cons.mp hbound
    have hfitsz : FitsInt |z| := by
      have := abs_nonneg z
      unfold FitsInt at hfits ⊢
      omega
    rw [List.foldlM_cons, if_pos hfitsz]
    refine ih hw (max_le hstart hz) ?_
    rcases hattained with rfl | ⟨y, hy, hmaximum⟩
    · exact .inl (max_eq_left hz)
    · rcases List.mem_cons.mp hy with rfl | hy
      · exact .inl (hmaximum ▸ max_eq_right (hmaximum ▸ hstart))
      · exact .inr ⟨y, hy, hmaximum⟩

/-- **The greatest absolute coefficient** of an output bit. -/
theorem maximumOf_eq (hn : n ≤ 30) {f : ℕ → Bool} {w : List ℤ} (hlength : w.length = 2 ^ n)
    (hentry : ∀ k < 2 ^ n, w[k]? = some (transform n (fun mask => sign (f mask)) k)) :
    maximumOf w = some (2 ^ n - 2 * (nonlinearity n f : ℤ)) := by
  obtain ⟨⟨k, hk, hattained⟩, hgreatest⟩ := @isGreatest_abs_transform n f
  have hle : 2 * (nonlinearity n f : ℤ) ≤ 2 ^ n := by exact_mod_cast @two_mul_nonlinearity_le n f
  unfold maximumOf
  refine foldlM_maximum ?_ (fun z hz => ?_) (by omega) (.inr ⟨_, ?_, hattained.symm⟩)
  · refine fitsInt_of_abs_le hn ?_
    rw [abs_of_nonneg] <;> omega
  · obtain ⟨i, hi, rfl⟩ := List.mem_iff_getElem.mp hz
    have hvalue := hentry i (hlength ▸ hi)
    rw [List.getElem?_eq_getElem hi] at hvalue
    exact hgreatest ⟨i, hlength ▸ hi, congrArg abs (Option.some.inj hvalue)⟩
  · exact List.mem_of_getElem? (hentry k hk)

theorem intOfSize_two_pow (hn : n ≤ 30) : intOfSize (2 ^ n) = 2 ^ n := by
  have hpow : 2 ^ n ≤ 2 ^ 30 := Nat.pow_le_pow_right two_pos hn
  unfold intOfSize
  rw [BitVec.toInt_eq_toNat_of_lt]
  · rw [BitVec.toNat_ofNat, Nat.mod_eq_of_lt (by omega)]
    push_cast
    rfl
  · rw [BitVec.toNat_ofNat, Nat.mod_eq_of_lt (by omega)]
    omega

variable (n) in
open Classical in
/-- What is to be recorded of an output bit: its nonlinearity, and whether it is affine. -/
noncomputable def recorded (f : ℕ → Bool) (aggregate : WalshAggregate) : WalshAggregate :=
  let aggregate := addWalshObservation aggregate (2 ^ n - 2 * (nonlinearity n f : ℤ))
    (BitVec.ofNat 64 (nonlinearity n f))
  if IsAffine n f then { aggregate with affineOutputs := aggregate.affineOutputs + 1 }
  else aggregate

/-- Within the range of `int` a nonlinearity is a 64-bit number. -/
theorem toNat_nonlinearity (hn : n ≤ 30) (f : ℕ → Bool) :
    (BitVec.ofNat 64 (nonlinearity n f)).toNat = nonlinearity n f := by
  have hpow : 2 ^ n ≤ 2 ^ 30 := Nat.pow_le_pow_right two_pos hn
  have hle := @two_mul_nonlinearity_le n f
  rw [BitVec.toNat_ofNat]
  omega

theorem nonlinearitySum_recorded (hn : n ≤ 30) (f : ℕ → Bool) (aggregate : WalshAggregate) :
    (recorded n f aggregate).nonlinearitySum = aggregate.nonlinearitySum + nonlinearity n f := by
  have hsum : (addWalshObservation aggregate (2 ^ n - 2 * (nonlinearity n f : ℤ))
      (BitVec.ofNat 64 (nonlinearity n f))).nonlinearitySum
        = aggregate.nonlinearitySum + nonlinearity n f := by
    unfold addWalshObservation
    rw [toNat_nonlinearity hn]
  unfold recorded
  dsimp only
  split
  · exact hsum
  · exact hsum

theorem maximumCorrelationSum_recorded (f : ℕ → Bool) (aggregate : WalshAggregate) :
    (recorded n f aggregate).maximumCorrelationSum
      = aggregate.maximumCorrelationSum + (2 ^ n - 2 * (nonlinearity n f : ℤ) : ℤ) := by
  unfold recorded addWalshObservation
  dsimp only
  split <;> rfl

open Classical in
theorem affineOutputs_recorded (f : ℕ → Bool) (aggregate : WalshAggregate) :
    (recorded n f aggregate).affineOutputs
      = aggregate.affineOutputs + BitVec.ofNat 64 (if IsAffine n f then 1 else 0) := by
  unfold recorded addWalshObservation
  dsimp only
  split
  · rfl
  · exact (BitVec.add_zero _).symm

/-- The number of vectors less half the maximum, in 64 bits. -/
theorem sub_half_maximum (hpos : 1 ≤ n) (hn : n ≤ 30) {m : ℕ} (hle : 2 * m ≤ 2 ^ n) :
    BitVec.ofNat 64 (2 ^ n) / 2 - BitVec.ofInt 64 ((2 ^ n - 2 * (m : ℤ)) / 2)
      = BitVec.ofNat 64 m := by
  obtain ⟨k, rfl⟩ := Nat.exists_eq_add_of_le' hpos
  have hpow : 2 ^ (k + 1) ≤ 2 ^ 30 := Nat.pow_le_pow_right two_pos hn
  have hhalf : (2 ^ (k + 1) - 2 * (m : ℤ)) / 2 = ((2 ^ k - m : ℕ) : ℤ) := by
    have hcast : ((2 ^ k : ℕ) : ℤ) = 2 ^ k := by push_cast; rfl
    rw [pow_succ] at hle ⊢
    omega
  rw [hhalf, BitVec.ofInt_natCast]
  rw [pow_succ] at hle hpow ⊢
  generalize 2 ^ k = half at *
  have hquotient : BitVec.ofNat 64 (half * 2) / 2 = BitVec.ofNat 64 half := by
    apply BitVec.eq_of_toNat_eq
    rw [BitVec.toNat_udiv, BitVec.toNat_ofNat, BitVec.toNat_ofNat]
    show half * 2 % 2 ^ 64 / 2 = half % 2 ^ 64
    omega
  rw [hquotient]
  bv_omega

/-- **The measurement of an output bit is exact.** -/
theorem measureBit_eq (hpos : 1 ≤ n) (hn : n ≤ 30) (h : outputs.length = 2 ^ n)
    (aggregate : WalshAggregate) :
    measureBit outputs (2 ^ n) bit aggregate
      = some (recorded n (bitFunction outputs bit) aggregate,
          2 ^ n - 2 * (nonlinearity n (bitFunction outputs bit) : ℤ),
          BitVec.ofNat 64 (nonlinearity n (bitFunction outputs bit))) := by
  obtain ⟨w, hspectrum, hlength, hentry⟩ := intSpectrum_signs hn (bitFunction outputs bit)
  have hle := @two_mul_nonlinearity_le n (bitFunction outputs bit)
  have hexact := sub_half_maximum hpos hn hle
  have haffine : 2 ^ n - 2 * (nonlinearity n (bitFunction outputs bit) : ℤ) = intOfSize (2 ^ n)
      ↔ IsAffine n (bitFunction outputs bit) := by
    rw [intOfSize_two_pow hn, ← nonlinearity_eq_zero]
    omega
  unfold measureBit recorded
  rw [signsOf_eq h]
  simp only [Option.bind_eq_bind, Option.bind_some, hspectrum, maximumOf_eq hn hlength hentry,
    hexact]
  by_cases hisAffine : IsAffine n (bitFunction outputs bit)
  · rw [if_pos hisAffine, if_pos (haffine.mpr hisAffine)]
    rfl
  · rw [if_neg hisAffine, if_neg fun heq => hisAffine (haffine.mp heq)]
    rfl

end Bit

/-! ## The collisions -/

/-- The loop counts the outputs it has seen before. -/
theorem foldl_insertOutput (outputs : List ResearchOutput) (seen : List ResearchOutput × U64)
    (hseen : seen.1.Nodup) :
    (outputs.foldl insertOutput seen).2
        + BitVec.ofNat 64 (seen.1.toFinset ∪ outputs.toFinset).card
      = seen.2 + BitVec.ofNat 64 (seen.1.length + outputs.length) := by
  induction outputs generalizing seen with
  | nil =>
    rw [List.foldl_nil, List.toFinset_nil, Finset.union_empty, List.length_nil, Nat.add_zero,
      List.toFinset_card_of_nodup hseen]
  | cons output outputs ih =>
    rw [List.foldl_cons, List.toFinset_cons, Finset.union_insert, ← Finset.insert_union]
    unfold insertOutput
    by_cases hmem : output ∈ seen.1
    · have hinsert : insert output seen.1.toFinset = seen.1.toFinset :=
        Finset.insert_eq_of_mem (List.mem_toFinset.mpr hmem)
      have hrest := ih (seen.1, seen.2 + 1) hseen
      rw [if_pos hmem, hinsert, List.length_cons]
      dsimp only at hrest
      unfold insertOutput at hrest
      rw [hrest]
      bv_omega
    · have hrest := ih (output :: seen.1, seen.2) (List.nodup_cons.mpr ⟨hmem, hseen⟩)
      rw [if_neg hmem, ← List.toFinset_cons, List.length_cons]
      dsimp only at hrest
      rw [List.length_cons] at hrest
      unfold insertOutput at hrest
      rw [hrest]
      bv_omega

/-- **The collisions** are the outputs less the distinct ones. -/
theorem countCollisions_eq (outputs : List ResearchOutput) :
    countCollisions outputs = BitVec.ofNat 64 (outputs.length - outputs.toFinset.card) := by
  have hcount := foldl_insertOutput outputs ([], 0) List.nodup_nil
  have hle := List.toFinset_card_le outputs
  dsimp only at hcount
  rw [List.toFinset_nil, Finset.empty_union, List.length_nil, Nat.zero_add] at hcount
  unfold countCollisions
  bv_omega

/-! ## The loop over the output bits -/

section Trial

variable {n : ℕ} {candidateOutputs controlOutputs : List ResearchOutput}

variable (n candidateOutputs controlOutputs) in
/-- An exact iteration of the loop. -/
noncomputable def exactBit (trial : WalshTrial) (bit : Fin kOutputBits) : WalshTrial where
  result :=
    { trial.result with
      candidateMaximumCorrelation := max trial.result.candidateMaximumCorrelation
        (2 ^ n - 2 * (nonlinearity n (bitFunction candidateOutputs bit) : ℤ))
      candidateMeanNonlinearity := trial.result.candidateMeanNonlinearity
        + nonlinearity n (bitFunction candidateOutputs bit)
      controlMaximumCorrelation := max trial.result.controlMaximumCorrelation
        (2 ^ n - 2 * (nonlinearity n (bitFunction controlOutputs bit) : ℤ))
      controlMeanNonlinearity := trial.result.controlMeanNonlinearity
        + nonlinearity n (bitFunction controlOutputs bit) }
  candidate := recorded n (bitFunction candidateOutputs bit) trial.candidate
  control := recorded n (bitFunction controlOutputs bit) trial.control

theorem walshTrialBit_eq (hpos : 1 ≤ n) (hn : n ≤ 30) (hcandidate : candidateOutputs.length = 2 ^ n)
    (hcontrol : controlOutputs.length = 2 ^ n) (trial : WalshTrial) (bit : Fin kOutputBits) :
    walshTrialBit candidateOutputs controlOutputs trial bit
      = some (exactBit n candidateOutputs controlOutputs trial bit) := by
  unfold walshTrialBit
  rw [hcandidate]
  simp only [measureBit_eq hpos hn hcandidate, measureBit_eq hpos hn hcontrol,
    Option.bind_eq_bind, Option.bind_some, toNat_nonlinearity hn]
  rfl

theorem foldlM_eq_some {α β : Type} {f : β → α → Option β} {g : β → α → β}
    (h : ∀ b a, f b a = some (g b a)) (l : List α) (b : β) : l.foldlM f b = some (l.foldl g b) := by
  induction l generalizing b with
  | nil => rfl
  | cons a l ih =>
    rw [List.foldlM_cons, h, List.foldl_cons]
    exact ih (g b a)

/-- The aggregates take part in the loop on their own. -/
theorem foldl_exactBit_candidate (bits : List (Fin kOutputBits)) (trial : WalshTrial) :
    (bits.foldl (exactBit n candidateOutputs controlOutputs) trial).candidate
      = bits.foldl (fun aggregate bit => recorded n (bitFunction candidateOutputs bit) aggregate)
          trial.candidate := by
  induction bits generalizing trial with
  | nil => rfl
  | cons bit bits ih => exact ih _

theorem foldl_exactBit_control (bits : List (Fin kOutputBits)) (trial : WalshTrial) :
    (bits.foldl (exactBit n candidateOutputs controlOutputs) trial).control
      = bits.foldl (fun aggregate bit => recorded n (bitFunction controlOutputs bit) aggregate)
          trial.control := by
  induction bits generalizing trial with
  | nil => rfl
  | cons bit bits ih => exact ih _

/-- The result adds the nonlinearities up and keeps the collisions. -/
theorem foldl_exactBit_result (bits : List (Fin kOutputBits)) (trial : WalshTrial) :
    (bits.foldl (exactBit n candidateOutputs controlOutputs) trial).result.candidateMeanNonlinearity
      = trial.result.candidateMeanNonlinearity
        + (bits.map fun bit => (nonlinearity n (bitFunction candidateOutputs bit) : ℚ)).sum ∧
    (bits.foldl (exactBit n candidateOutputs controlOutputs) trial).result.candidateOutputCollisions
      = trial.result.candidateOutputCollisions := by
  induction bits generalizing trial with
  | nil => exact ⟨(add_zero _).symm, rfl⟩
  | cons bit bits ih =>
    obtain ⟨hmean, hcollisions⟩ := ih (exactBit n candidateOutputs controlOutputs trial bit)
    refine ⟨?_, hcollisions⟩
    rw [List.foldl_cons, hmean, List.map_cons, List.sum_cons, ← add_assoc]
    rfl

open Classical in
/-- **What the aggregate has recorded** of some functions. -/
theorem foldl_recorded (hn : n ≤ 30) {ι : Type} (f : ι → ℕ → Bool) (bits : List ι)
    (aggregate : WalshAggregate) :
    (bits.foldl (fun aggregate bit => recorded n (f bit) aggregate) aggregate).affineOutputs
      = aggregate.affineOutputs
        + BitVec.ofNat 64 (bits.map fun bit => if IsAffine n (f bit) then 1 else 0).sum ∧
    (bits.foldl (fun aggregate bit => recorded n (f bit) aggregate) aggregate).nonlinearitySum
      = aggregate.nonlinearitySum + (bits.map fun bit => (nonlinearity n (f bit) : ℚ)).sum := by
  induction bits generalizing aggregate with
  | nil => exact ⟨(BitVec.add_zero _).symm, (add_zero _).symm⟩
  | cons bit bits ih =>
    obtain ⟨haffine, hsum⟩ := ih (recorded n (f bit) aggregate)
    rw [List.foldl_cons, haffine, hsum, affineOutputs_recorded, nonlinearitySum_recorded hn,
      List.map_cons, List.sum_cons, List.map_cons, List.sum_cons, BitVec.add_assoc,
      ← BitVec.ofNat_add, add_assoc]
    exact ⟨rfl, rfl⟩

end Trial

/-- **The verdicts of the Walsh stage are exact.**  For `2 ≤ n ≤ 30`, where all coefficients are
values of `int`, a trial on `2 ^ n` outputs records of every output bit its distance to the
nearest affine function, counts the affine bits, reports the collisions, and halves even
numbers only. -/
theorem walsh_verdicts_exact {n : ℕ} (hlow : 2 ≤ n) (hn : n ≤ 30)
    {candidateOutputs controlOutputs : List ResearchOutput}
    (hcandidate : candidateOutputs.length = 2 ^ n) (hcontrol : controlOutputs.length = 2 ^ n)
    (candidate control : WalshAggregate) :
    ∃ trial, measureWalshTrial candidateOutputs controlOutputs candidate control = some trial ∧
      trial.candidate = (List.finRange kOutputBits).foldl
        (fun aggregate bit => recorded n (bitFunction candidateOutputs bit) aggregate) candidate ∧
      trial.control = (List.finRange kOutputBits).foldl
        (fun aggregate bit => recorded n (bitFunction controlOutputs bit) aggregate) control ∧
      trial.candidate.affineOutputs = candidate.affineOutputs
        + BitVec.ofNat 64 (Nat.card {bit // IsAffine n (bitFunction candidateOutputs bit)}) ∧
      trial.candidate.nonlinearitySum = candidate.nonlinearitySum
        + ∑ bit, (nonlinearity n (bitFunction candidateOutputs bit) : ℚ) ∧
      trial.result.candidateMeanNonlinearity
        = (∑ bit, (nonlinearity n (bitFunction candidateOutputs bit) : ℚ)) / 256 ∧
      trial.result.candidateOutputCollisions.toNat = 2 ^ n - candidateOutputs.toFinset.card ∧
      ∀ outputs ∈ [candidateOutputs, controlOutputs], ∀ bit, ∃ signs spectrum maximum,
        signsOf outputs (2 ^ n) bit = some signs ∧ intSpectrum signs = some spectrum ∧
          maximumOf spectrum = some maximum ∧ 2 ∣ maximum := by
  classical
  have hpos : 1 ≤ n := by omega
  -- every pass of the loop is the exact one, so the loop is a fold
  have hloop := foldlM_eq_some (walshTrialBit_eq hpos hn hcandidate hcontrol)
    (List.finRange kOutputBits)
    ⟨{ candidateOutputCollisions := countCollisions candidateOutputs }, candidate, control⟩
  have hcandidateFold := @foldl_exactBit_candidate n candidateOutputs controlOutputs
    (List.finRange kOutputBits)
    ⟨{ candidateOutputCollisions := countCollisions candidateOutputs }, candidate, control⟩
  have hcontrolFold := @foldl_exactBit_control n candidateOutputs controlOutputs
    (List.finRange kOutputBits)
    ⟨{ candidateOutputCollisions := countCollisions candidateOutputs }, candidate, control⟩
  obtain ⟨hmean, hcollisions⟩ := @foldl_exactBit_result n candidateOutputs controlOutputs
    (List.finRange kOutputBits)
    ⟨{ candidateOutputCollisions := countCollisions candidateOutputs }, candidate, control⟩
  obtain ⟨haffine, hsum⟩ := foldl_recorded hn (bitFunction candidateOutputs)
    (List.finRange kOutputBits) candidate
  unfold measureWalshTrial
  simp only [hloop, Option.bind_eq_bind, Option.bind_some]
  refine ⟨_, rfl, hcandidateFold, hcontrolFold, ?_, ?_, ?_, ?_, fun outputs houtputs bit => ?_⟩
  · dsimp only
    rw [hcandidateFold, haffine, ← Fin.sum_univ_def, Finset.sum_boole, Nat.card_eq_fintype_card,
      Fintype.card_subtype]
    rfl
  · dsimp only
    rw [hcandidateFold, hsum, ← Fin.sum_univ_def]
  · dsimp only
    rw [hmean, ← Fin.sum_univ_def, zero_add]
    norm_num [kOutputBits]
  · dsimp only
    have hpow : 2 ^ n ≤ 2 ^ 30 := Nat.pow_le_pow_right two_pos hn
    rw [hcollisions, countCollisions_eq, hcandidate, BitVec.toNat_ofNat]
    omega
  · have hcount : outputs.length = 2 ^ n := by
      rcases List.mem_pair.mp houtputs with rfl | rfl
      · exact hcandidate
      · exact hcontrol
    obtain ⟨w, hspectrum, hlength, hentry⟩ := intSpectrum_signs hn (bitFunction outputs bit)
    refine ⟨_, w, _, signsOf_eq hcount, hspectrum, maximumOf_eq hn hlength hentry, ?_⟩
    -- a spectrum value is `2 ^ n` less twice a distance
    exact dvd_sub (dvd_pow_self 2 (by omega)) (dvd_mul_right 2 _)

/-- Four outputs, two of them equal. -/
theorem walsh_verdicts_exact_four :
    ∃ trial, measureWalshTrial
        [Vector.replicate 32 0, Vector.replicate 32 1, Vector.replicate 32 2, Vector.replicate 32 0]
        (List.replicate 4 (Vector.replicate 32 0)) {} {} = some trial ∧
      trial.result.candidateOutputCollisions = 1 := by
  obtain ⟨trial, htrial, -, -, -, -, -, hcollisions, -⟩ :=
    @walsh_verdicts_exact 2 (by decide) (by decide)
      [Vector.replicate 32 0, Vector.replicate 32 1, Vector.replicate 32 2, Vector.replicate 32 0]
      (List.replicate 4 (Vector.replicate 32 0)) rfl rfl {} {}
  exact ⟨trial, htrial, BitVec.eq_of_toNat_eq (hcollisions.trans (by decide +kernel))⟩

/-! ## The sums -/

/-- A value of `double`, as far as the sums need it: an integer up to `2^53` over a power of two. -/
def IsDouble (q : ℚ) : Prop := ∃ (m : ℤ) (e : ℕ), |m| ≤ 2 ^ 53 ∧ e ≤ 1074 ∧ q = m / 2 ^ e

/-- The number is a natural number up to a bound. -/
def IsNatUpTo (bound : ℕ) (q : ℚ) : Prop := ∃ m : ℕ, m ≤ bound ∧ q = m

theorem IsNatUpTo.add {bound bound' : ℕ} {q q' : ℚ} (h : IsNatUpTo bound q)
    (h' : IsNatUpTo bound' q') : IsNatUpTo (bound + bound') (q + q') := by
  obtain ⟨m, hm, rfl⟩ := h
  obtain ⟨m', hm', rfl⟩ := h'
  exact ⟨m + m', Nat.add_le_add hm hm', (Nat.cast_add m m').symm⟩

theorem IsNatUpTo.isDouble {bound : ℕ} {q : ℚ} (h : IsNatUpTo bound q) (hbound : bound ≤ 2 ^ 53) :
    IsDouble q := by
  obtain ⟨m, hm, rfl⟩ := h
  refine ⟨m, 0, ?_, Nat.zero_le _, by norm_num⟩
  rw [Nat.abs_cast]
  exact_mod_cast hm.trans hbound

/-- Behind the loop the sums over 256 output bits are divided exactly. -/
theorem IsNatUpTo.isDouble_div {bound : ℕ} {q : ℚ} (h : IsNatUpTo bound q)
    (hbound : bound ≤ 2 ^ 53) : IsDouble (q / kOutputBits) := by
  obtain ⟨m, hm, rfl⟩ := h
  refine ⟨m, 8, ?_, by norm_num, by norm_num [kOutputBits]⟩
  rw [Nat.abs_cast]
  exact_mod_cast hm.trans hbound

/-- The variables of type `double` that the loop adds to. -/
def WalshTrial.sums (trial : WalshTrial) : List ℚ :=
  [trial.candidate.maximumCorrelationSum, trial.candidate.nonlinearitySum,
    trial.control.maximumCorrelationSum, trial.control.nonlinearitySum,
    trial.result.candidateMeanNonlinearity, trial.result.controlMeanNonlinearity]

/-- The sums are natural numbers up to a bound. -/
structure WalshTrial.SumsUpTo (trial : WalshTrial) (bound : ℕ) : Prop where
  candidateMaximum : IsNatUpTo bound trial.candidate.maximumCorrelationSum
  candidateNonlinearity : IsNatUpTo bound trial.candidate.nonlinearitySum
  controlMaximum : IsNatUpTo bound trial.control.maximumCorrelationSum
  controlNonlinearity : IsNatUpTo bound trial.control.nonlinearitySum
  candidateMean : IsNatUpTo bound trial.result.candidateMeanNonlinearity
  controlMean : IsNatUpTo bound trial.result.controlMeanNonlinearity

theorem WalshTrial.SumsUpTo.isDouble {trial : WalshTrial} {bound : ℕ} (h : trial.SumsUpTo bound)
    (hbound : bound ≤ 2 ^ 53) : ∀ sum ∈ trial.sums, IsDouble sum := by
  unfold sums
  simp only [List.forall_mem_cons]
  exact ⟨h.candidateMaximum.isDouble hbound, h.candidateNonlinearity.isDouble hbound,
    h.controlMaximum.isDouble hbound, h.controlNonlinearity.isDouble hbound,
    h.candidateMean.isDouble hbound, h.controlMean.isDouble hbound, List.forall_mem_nil _⟩

section Sums

variable {n : ℕ} {candidateOutputs controlOutputs : List ResearchOutput} {bound : ℕ}

theorem isNatUpTo_nonlinearity (f : ℕ → Bool) :
    IsNatUpTo (2 ^ n) (nonlinearity n f : ℚ) := by
  have hle := @two_mul_nonlinearity_le n f
  exact ⟨_, by omega, rfl⟩

theorem isNatUpTo_maximum (f : ℕ → Bool) :
    IsNatUpTo (2 ^ n) ((2 ^ n - 2 * (nonlinearity n f : ℤ) : ℤ) : ℚ) := by
  have hle := @two_mul_nonlinearity_le n f
  refine ⟨2 ^ n - 2 * nonlinearity n f, Nat.sub_le _ _, ?_⟩
  rw [Nat.cast_sub hle]
  push_cast
  rfl

theorem IsNatUpTo.recorded_maximum {aggregate : WalshAggregate}
    (h : IsNatUpTo bound aggregate.maximumCorrelationSum) (f : ℕ → Bool) :
    IsNatUpTo (bound + 2 ^ n) (recorded n f aggregate).maximumCorrelationSum := by
  rw [maximumCorrelationSum_recorded]
  exact h.add (isNatUpTo_maximum f)

theorem IsNatUpTo.recorded_nonlinearity (hn : n ≤ 30) {aggregate : WalshAggregate}
    (h : IsNatUpTo bound aggregate.nonlinearitySum) (f : ℕ → Bool) :
    IsNatUpTo (bound + 2 ^ n) (recorded n f aggregate).nonlinearitySum := by
  rw [nonlinearitySum_recorded hn]
  exact h.add (isNatUpTo_nonlinearity f)

/-- One output bit adds at most `2 ^ n` to every sum. -/
theorem WalshTrial.SumsUpTo.step (hn : n ≤ 30) {trial : WalshTrial} (h : trial.SumsUpTo bound)
    (bit : Fin kOutputBits) :
    (exactBit n candidateOutputs controlOutputs trial bit).SumsUpTo (bound + 2 ^ n) where
  candidateMaximum := h.candidateMaximum.recorded_maximum _
  candidateNonlinearity := h.candidateNonlinearity.recorded_nonlinearity hn _
  controlMaximum := h.controlMaximum.recorded_maximum _
  controlNonlinearity := h.controlNonlinearity.recorded_nonlinearity hn _
  candidateMean := h.candidateMean.add (isNatUpTo_nonlinearity _)
  controlMean := h.controlMean.add (isNatUpTo_nonlinearity _)

theorem WalshTrial.SumsUpTo.run (hn : n ≤ 30) (bits : List (Fin kOutputBits)) {trial : WalshTrial}
    (h : trial.SumsUpTo bound) :
    (bits.foldl (exactBit n candidateOutputs controlOutputs) trial).SumsUpTo
      (bound + bits.length * 2 ^ n) := by
  induction bits generalizing trial bound with
  | nil => simpa using h
  | cons bit bits ih =>
    have hstep : (exactBit n candidateOutputs controlOutputs trial bit).SumsUpTo (bound + 2 ^ n) :=
      h.step hn bit
    have hrest := ih hstep
    rwa [Nat.add_assoc, Nat.add_comm (2 ^ n), ← Nat.succ_mul] at hrest

/-- **No addition of a trial rounds** where the sums before it are natural numbers that leave room
below `2^53` for 256 spectra: after every pass of the loop all sums are values of `double`,
and so are the means behind the loop.  A trial adds at most `256 * 2 ^ n` to the sums of
the aggregates, which are natural numbers again. -/
theorem walsh_sums_exact (hlow : 2 ≤ n) (hn : n ≤ 30) (hcandidate : candidateOutputs.length = 2 ^ n)
    (hcontrol : controlOutputs.length = 2 ^ n) {candidate control : WalshAggregate}
    (hsums : WalshTrial.SumsUpTo ⟨{}, candidate, control⟩ bound)
    (hbound : bound + 256 * 2 ^ n ≤ 2 ^ 53) :
    (∀ bits, bits <+: List.finRange kOutputBits →
      ∃ trial, bits.foldlM (walshTrialBit candidateOutputs controlOutputs)
          ⟨{ candidateOutputCollisions := countCollisions candidateOutputs }, candidate, control⟩
            = some trial ∧ ∀ sum ∈ trial.sums, IsDouble sum) ∧
    ∃ trial, measureWalshTrial candidateOutputs controlOutputs candidate control = some trial ∧
      WalshTrial.SumsUpTo ⟨{}, trial.candidate, trial.control⟩ (bound + 256 * 2 ^ n) ∧
      IsDouble trial.result.candidateMeanNonlinearity ∧
      IsDouble trial.result.controlMeanNonlinearity := by
  have hpos : 1 ≤ n := by omega
  have hstart : WalshTrial.SumsUpTo
      ⟨{ candidateOutputCollisions := countCollisions candidateOutputs }, candidate, control⟩
      bound := ⟨hsums.1, hsums.2, hsums.3, hsums.4, hsums.5, hsums.6⟩
  have hloop := fun bits => foldlM_eq_some (walshTrialBit_eq hpos hn hcandidate hcontrol) bits
    ⟨{ candidateOutputCollisions := countCollisions candidateOutputs }, candidate, control⟩
  constructor
  · intro bits hbits
    have hlength := hbits.length_le
    rw [List.length_finRange] at hlength
    have hroom : bound + bits.length * 2 ^ n ≤ 2 ^ 53 :=
      (Nat.add_le_add_left (Nat.mul_le_mul_right _ hlength) _).trans hbound
    exact ⟨_, hloop bits, (hstart.run hn bits).isDouble hroom⟩
  · have hend := @WalshTrial.SumsUpTo.run n candidateOutputs controlOutputs bound hn
      (List.finRange kOutputBits) _ hstart
    rw [List.length_finRange] at hend
    unfold measureWalshTrial
    simp only [hloop, Option.bind_eq_bind, Option.bind_some]
    exact ⟨_, rfl, ⟨hend.1, hend.2, hend.3, hend.4, ⟨0, Nat.zero_le _, rfl⟩,
      ⟨0, Nat.zero_le _, rfl⟩⟩, hend.candidateMean.isDouble_div hbound,
      hend.controlMean.isDouble_div hbound⟩

end Sums

/-! ## Beyond the range of `int` -/

section Overflow

variable {n : ℕ} {outputs : List ResearchOutput} {bit : Fin kOutputBits}

theorem foldlM_maximum_none {w : List ℤ} {z : ℤ} (hz : z ∈ w) (hfits : ¬ FitsInt |z|)
    (start : ℤ) :
    w.foldlM (fun maximum coefficient =>
      if FitsInt |coefficient| then some (max maximum |coefficient|) else none) start = none := by
  induction w generalizing start with
  | nil => cases hz
  | cons y w ih =>
    rw [List.foldlM_cons]
    rcases List.mem_cons.mp hz with rfl | hz
    · rw [if_neg hfits]
      rfl
    · by_cases hy : FitsInt |y|
      · rw [if_pos hy]
        exact ih hz _
      · rw [if_neg hy]
        rfl

theorem foldlM_eq_none {α β : Type} {f : β → α → Option β} {l : List α} {a : α} (ha : a ∈ l)
    (h : ∀ b, f b a = none) (b : β) : l.foldlM f b = none := by
  induction l generalizing b with
  | nil => cases ha
  | cons a' l ih =>
    rw [List.foldlM_cons]
    rcases List.mem_cons.mp ha with rfl | ha
    · rw [h b]
      rfl
    · cases f b a' with
      | none => rfl
      | some b' => exact ih ha b'

/-- **An affine output bit overflows** from 31 variables on: one of its coefficients is `2 ^ n` or
`-2 ^ n`. -/
theorem measureBit_overflow (hn : 31 ≤ n) (h : outputs.length = 2 ^ n)
    (haffine : IsAffine n (bitFunction outputs bit)) (aggregate : WalshAggregate) :
    measureBit outputs (2 ^ n) bit aggregate = none := by
  obtain ⟨⟨k, hk, hattained⟩, -⟩ := @isGreatest_abs_transform n (bitFunction outputs bit)
  obtain ⟨spectrum, hrun, -, hentry, -⟩ := @fwht_signs n (bitFunction outputs bit)
  rw [nonlinearity_eq_zero.mpr haffine, Nat.cast_zero, mul_zero, sub_zero] at hattained
  have hpow : (2 : ℤ) ^ 31 ≤ 2 ^ n := pow_le_pow_right₀ one_le_two hn
  have hfits : ¬ FitsInt |transform n (fun mask => sign (bitFunction outputs bit mask)) k| := by
    unfold FitsInt
    omega
  have hmaximum : maximumOf spectrum.values = none :=
    foldlM_maximum_none (List.mem_of_getElem? (hentry k hk)) hfits 0
  unfold measureBit intSpectrum
  rw [signsOf_eq h]
  simp only [Option.bind_eq_bind, Option.bind_some, hrun]
  split
  · rw [Option.bind_some, hmaximum]
    rfl
  · rfl

/-- So the trial has no result. -/
theorem measureWalshTrial_overflow (hn : 31 ≤ n) (h : outputs.length = 2 ^ n)
    (haffine : IsAffine n (bitFunction outputs bit)) (controlOutputs : List ResearchOutput)
    (candidate control : WalshAggregate) :
    measureWalshTrial outputs controlOutputs candidate control = none := by
  have hbit : ∀ trial, walshTrialBit outputs controlOutputs trial bit = none := by
    intro trial
    unfold walshTrialBit
    rw [h]
    simp only [measureBit_overflow hn h haffine]
    rfl
  unfold measureWalshTrial
  simp only [foldlM_eq_none (List.mem_finRange bit) hbit]
  rfl

end Overflow

/-- On `2 ^ 31` equal outputs every output bit is constant, and the trial overflows. -/
theorem constant_outputs_overflow :
    (List.replicate (2 ^ 31) (Vector.replicate 32 0 : ResearchOutput)).length = 2 ^ 31 ∧
    (∀ bit, IsAffine 31 (bitFunction (List.replicate (2 ^ 31) (Vector.replicate 32 0)) bit)) ∧
    ∀ controlOutputs candidate control, measureWalshTrial
      (List.replicate (2 ^ 31) (Vector.replicate 32 0)) controlOutputs candidate control
      = none := by
  have hlength : ∀ m, (List.replicate m (Vector.replicate 32 0 : ResearchOutput)).length = m :=
    fun m => List.length_replicate
  have haffine : ∀ m n, 2 ^ n = m → ∀ bit,
      IsAffine n (bitFunction (List.replicate m (Vector.replicate 32 0)) bit) := by
    rintro m n rfl bit
    have hzero : ∀ i : Fin 32, (Vector.replicate 32 (0 : U8)).get i = 0 := by decide
    have hbit : outputBit (Vector.replicate 32 0) bit = false := by
      unfold outputBit
      rw [hzero]
      exact BitVec.getLsbD_zero
    refine ⟨0, Nat.two_pow_pos n, false, fun x hx => ?_⟩
    unfold bitFunction affine parity
    rw [List.getElem?_replicate_of_lt hx, Nat.zero_and, Option.map_some, hbit]
    rfl
  refine ⟨hlength _, haffine _ _ rfl, fun controlOutputs candidate control => ?_⟩
  exact measureWalshTrial_overflow le_rfl (hlength _)
    (haffine _ _ rfl ⟨0, by decide⟩) controlOutputs candidate control
