/-
# The attribution of divergences

`fault_injection_campaign.cpp` records for every retained fault the first stage at which
the controllers of the canonical and of the faulted finalization differ, and counts the
records by the part of the finalization that stage belongs to.  The parts are written as
stage numbers in a `switch`, away from the code that lays the stages out.

Stage 0, the state before the finalization, has no case of its own.  A fault in a
controller bit differs there, and is counted with the stages of the squeeze.
-/
import RotSymEnc.FinalizationMirror
import RotSymEnc.SingleFaults

open StatefulRuns BitStrings

/-! ## Records and counts -/

/-- `std::numeric_limits<std::size_t>::max()`. -/
abbrev kNoIndex : ℕ := 2 ^ 64 - 1

/-- No stage has that number. -/
theorem kNoIndex_ge : 83 ≤ kNoIndex := by decide

/-- `struct DistanceStats`. -/
structure DistanceStats : Type where
  attempts : U64 := 0
  unchanged : U64 := 0
  oneBit : U64 := 0
  distanceSum : U64 := 0
  minimum : ℕ := 2 ^ 64 - 1
  maximum : ℕ := 0

/-- `struct DiagnosticRecord`. -/
structure DiagnosticRecord : Type where
  profileBits : ℕ := 0
  caseIndex : ℕ := 0
  stateBit : ℕ := 0
  prefixDistance : ℕ := 0
  fullDistance : ℕ := 0
  extendedDistance : ℕ := 0
  firstChangedByte : ℕ := kNoIndex
  changedPrefixBit : ℕ := kNoIndex
  firstControllerStage : ℕ := kNoIndex
  firstNonSingleStage : ℕ := kNoIndex
  singleBitUntilFirstOutput : Bool := false

/-- `struct GeometryCounts`. -/
structure GeometryCounts : Type where
  x : Vector U64 8 := Vector.replicate 8 0
  y : Vector U64 8 := Vector.replicate 8 0
  z : Vector U64 8 := Vector.replicate 8 0
  cellBit : Vector U64 8 := Vector.replicate 8 0
  nonCube : U64 := 0

/-- `struct DiagnosticAggregate`. -/
structure DiagnosticAggregate : Type where
  count : U64 := 0
  entryChecks : U64 := 0
  mirrorChecks : U64 := 0
  fullUnchanged : U64 := 0
  fullOneBit : U64 := 0
  extendedUnchanged : U64 := 0
  extendedOneBit : U64 := 0
  firstChangeAfterPrefix : U64 := 0
  noChangeInExtended : U64 := 0
  singleBitUntilFirstOutput : U64 := 0
  controllerDivergedDuringFinalizationEntry : U64 := 0
  controllerDivergedDuringBinding : U64 := 0
  controllerDivergedDuringSqueezeEntry : U64 := 0
  controllerDivergedDuringSqueeze : U64 := 0
  controllerNeverDiverged : U64 := 0
  fullDistance : DistanceStats := {}
  extendedDistance : DistanceStats := {}
  geometry : GeometryCounts := {}

/-- `++counter` under a condition. -/
def bumpIf (condition : Prop) [Decidable condition] (counter : U64) : U64 :=
  if condition then counter + 1 else counter

/-- `observe`. -/
def observe (stats : DistanceStats) (distance : ℕ) : DistanceStats where
  attempts := stats.attempts + 1
  distanceSum := stats.distanceSum + BitVec.ofNat 64 distance
  minimum := min stats.minimum distance
  maximum := max stats.maximum distance
  unchanged := bumpIf (distance = 0) stats.unchanged
  oneBit := bumpIf (distance = 1) stats.oneBit

/-- `++counts[index]`, at an index reduced to three bits. -/
def bumpAt (counts : Vector U64 8) (index : Fin 8) : Vector U64 8 :=
  counts.set index (counts[index] + 1)

/-- `observe_geometry`. -/
def observeGeometry (geometry : GeometryCounts) (stateBit : ℕ) : GeometryCounts :=
  if stateBit ≥ kCubeStateBits then { geometry with nonCube := geometry.nonCube + 1 }
  else
    let cell := stateBit / 8
    { geometry with
      x := bumpAt geometry.x (Fin.ofNat 8 cell)
      y := bumpAt geometry.y (Fin.ofNat 8 (cell >>> 3))
      z := bumpAt geometry.z (Fin.ofNat 8 (cell >>> 6))
      cellBit := bumpAt geometry.cellBit (Fin.ofNat 8 stateBit) }

/-- The `switch` of `observe_diagnostic` over the first stage at which the controllers
differ. -/
def observeStage (aggregate : DiagnosticAggregate) (stage : ℕ) : DiagnosticAggregate :=
  match stage with
  | 1 =>
    { aggregate with
      controllerDivergedDuringFinalizationEntry :=
        aggregate.controllerDivergedDuringFinalizationEntry + 1 }
  | 2 | 3 | 4 | 5 | 6 | 7 | 8 | 9 | 10 | 11 | 12 | 13 | 14 | 15 | 16 | 17 =>
    { aggregate with
      controllerDivergedDuringBinding := aggregate.controllerDivergedDuringBinding + 1 }
  | 18 =>
    { aggregate with
      controllerDivergedDuringSqueezeEntry :=
        aggregate.controllerDivergedDuringSqueezeEntry + 1 }
  | _ =>
    if stage = kNoIndex then
      { aggregate with controllerNeverDiverged := aggregate.controllerNeverDiverged + 1 }
    else
      { aggregate with
        controllerDivergedDuringSqueeze := aggregate.controllerDivergedDuringSqueeze + 1 }

/-- The counts of `observe_diagnostic` before its `switch`. -/
def observeOutput (aggregate : DiagnosticAggregate) (record : DiagnosticRecord)
    (tagBytes : ℕ) : DiagnosticAggregate :=
  { aggregate with
    count := aggregate.count + 1
    entryChecks := aggregate.entryChecks + 1
    mirrorChecks := aggregate.mirrorChecks + 1
    fullDistance := observe aggregate.fullDistance record.fullDistance
    extendedDistance := observe aggregate.extendedDistance record.extendedDistance
    fullUnchanged := bumpIf (record.fullDistance = 0) aggregate.fullUnchanged
    fullOneBit := bumpIf (record.fullDistance = 1) aggregate.fullOneBit
    extendedUnchanged := bumpIf (record.extendedDistance = 0) aggregate.extendedUnchanged
    extendedOneBit := bumpIf (record.extendedDistance = 1) aggregate.extendedOneBit
    noChangeInExtended :=
      bumpIf (record.firstChangedByte = kNoIndex) aggregate.noChangeInExtended
    firstChangeAfterPrefix :=
      bumpIf (record.firstChangedByte ≠ kNoIndex ∧ record.firstChangedByte ≥ tagBytes)
        aggregate.firstChangeAfterPrefix
    singleBitUntilFirstOutput :=
      bumpIf (record.singleBitUntilFirstOutput = true) aggregate.singleBitUntilFirstOutput }

/-- `observe_diagnostic`. -/
def observeDiagnostic (aggregate : DiagnosticAggregate) (record : DiagnosticRecord)
    (tagBytes : ℕ) : DiagnosticAggregate :=
  let aggregate := observeOutput aggregate record tagBytes
  let aggregate := observeStage aggregate record.firstControllerStage
  { aggregate with geometry := observeGeometry aggregate.geometry record.stateBit }

/-- `first_controller_stage`. -/
def firstControllerStage (canonical faulted : FinalizationTrace) : ℕ :=
  match (List.finRange 83).find? fun stage =>
      controllerBitDistance canonical.stages[stage].controller faulted.stages[stage].controller
        ≠ 0 with
  | some stage => stage.val
  | none => kNoIndex

/-! ## The first divergence of two traces -/

/-- A record, with the two traces whose first divergence it holds. -/
structure Diagnosis : Type where
  canonical : FinalizationTrace
  faulted : FinalizationTrace
  record : DiagnosticRecord
  stage_eq : record.firstControllerStage = firstControllerStage canonical faulted

namespace Diagnosis

/-- The controllers of a stage differ. -/
def DiffersAt (diagnosis : Diagnosis) (stage : Fin 83) : Prop :=
  diagnosis.canonical.stages[stage].controller ≠ diagnosis.faulted.stages[stage].controller

instance (diagnosis : Diagnosis) (stage : Fin 83) : Decidable (diagnosis.DiffersAt stage) :=
  inferInstanceAs (Decidable (_ ≠ _))

/-- The controllers first differ at a stage of the given range. -/
def DivergesIn (first last : ℕ) (diagnosis : Diagnosis) : Prop :=
  ∃ stage : Fin 83, first ≤ stage.val ∧ stage.val ≤ last ∧ diagnosis.DiffersAt stage ∧
    ∀ earlier < stage, ¬ diagnosis.DiffersAt earlier

instance (first last : ℕ) (diagnosis : Diagnosis) : Decidable (diagnosis.DivergesIn first last) :=
  inferInstanceAs (Decidable (∃ _ : Fin 83, _))

/-- The controllers differ nowhere. -/
def NeverDiverges (diagnosis : Diagnosis) : Prop := ∀ stage, ¬ diagnosis.DiffersAt stage

instance (diagnosis : Diagnosis) : Decidable diagnosis.NeverDiverges :=
  inferInstanceAs (Decidable (∀ _ : Fin 83, _))

/-- The number of diagnoses that first differ at a stage of the given range. -/
def countIn (first last : ℕ) (diagnoses : List Diagnosis) : ℕ :=
  diagnoses.countP fun diagnosis => diagnosis.DivergesIn first last

/-- The number of diagnoses that differ nowhere. -/
def countNever (diagnoses : List Diagnosis) : ℕ :=
  diagnoses.countP fun diagnosis => diagnosis.NeverDiverges

/-- `observe_diagnostic` over all records, from an empty aggregate. -/
def observeAll (tagBytes : ℕ) (diagnoses : List Diagnosis) : DiagnosticAggregate :=
  diagnoses.foldl (fun aggregate diagnosis =>
    observeDiagnostic aggregate diagnosis.record tagBytes) {}

end Diagnosis

theorem controllerBitDistance_eq_zero_iff (left right : ControllerState) :
    controllerBitDistance left right = 0 ↔ left = right := by
  unfold controllerBitDistance
  simp only [BitVec.setWidth_eq, Nat.add_eq_zero_iff, popcount_xor_eq_zero_iff]
  constructor
  · rintro ⟨⟨⟨haxis, hamount⟩, hfeedback⟩, htranscript⟩
    cases left
    cases right
    simp_all
  · rintro rfl
    exact ⟨⟨⟨rfl, rfl⟩, rfl⟩, rfl⟩

namespace Diagnosis

variable (diagnosis : Diagnosis)

/-- The recorded stage is the first one that differs, or none is. -/
theorem stage_spec :
    (∃ stage : Fin 83, diagnosis.record.firstControllerStage = stage.val ∧
      diagnosis.DiffersAt stage ∧ ∀ earlier < stage, ¬ diagnosis.DiffersAt earlier) ∨
    diagnosis.record.firstControllerStage = kNoIndex ∧ diagnosis.NeverDiverges := by
  have hdiffers : ∀ stage : Fin 83,
      controllerBitDistance diagnosis.canonical.stages[stage].controller
        diagnosis.faulted.stages[stage].controller ≠ 0 ↔ diagnosis.DiffersAt stage := fun stage =>
    not_congr (controllerBitDistance_eq_zero_iff _ _)
  rw [diagnosis.stage_eq]
  unfold firstControllerStage
  simp only [hdiffers]
  split
  next stage hfind =>
    left
    obtain ⟨hstage, i, hi, rfl, hearlier⟩ := List.find?_eq_some_iff_getElem.1 hfind
    refine ⟨_, rfl, by simpa using hstage, fun earlier hlt => ?_⟩
    simp only [List.getElem_finRange] at hlt
    have := hearlier earlier.val hlt
    simpa using this
  next hfind =>
    right
    refine ⟨rfl, fun stage => ?_⟩
    have := List.find?_eq_none.1 hfind stage (List.mem_finRange stage)
    simpa using this

/-- The range of the first divergence, told from the recorded stage. -/
theorem divergesIn_iff {first last : ℕ} (hlast : last < 83) :
    diagnosis.DivergesIn first last ↔
      first ≤ diagnosis.record.firstControllerStage ∧
        diagnosis.record.firstControllerStage ≤ last := by
  rcases diagnosis.stage_spec with ⟨stage, hstage, hdiffers, hearlier⟩ | ⟨hstage, hnever⟩
  · rw [hstage]
    constructor
    · rintro ⟨stage', hfirst, hle, hdiffers', hearlier'⟩
      rcases lt_trichotomy stage stage' with hlt | rfl | hlt
      · exact absurd hdiffers (hearlier' stage hlt)
      · exact ⟨hfirst, hle⟩
      · exact absurd hdiffers' (hearlier stage' hlt)
    · rintro ⟨hfirst, hle⟩
      exact ⟨stage, hfirst, hle, hdiffers, hearlier⟩
  · rw [hstage]
    constructor
    · rintro ⟨stage, -, -, hdiffers, -⟩
      exact absurd hdiffers (hnever stage)
    · rintro ⟨-, hle⟩
      exact absurd (kNoIndex_ge.trans hle) (by omega)

theorem neverDiverges_iff :
    diagnosis.NeverDiverges ↔ diagnosis.record.firstControllerStage = kNoIndex := by
  rcases diagnosis.stage_spec with ⟨stage, hstage, hdiffers, -⟩ | ⟨hstage, hnever⟩
  · have hlt := stage.isLt
    constructor
    · intro hnever
      exact absurd hdiffers (hnever stage)
    · intro h
      exact absurd (kNoIndex_ge.trans_eq h.symm) (by omega)
  · exact ⟨fun _ => hstage, fun _ => hnever⟩

/-- The recorded stage is one of the 83 stages, or no index. -/
theorem stage_range :
    diagnosis.record.firstControllerStage < 83 ∨
      diagnosis.record.firstControllerStage = kNoIndex := by
  rcases diagnosis.stage_spec with ⟨stage, hstage, -⟩ | ⟨hstage, -⟩
  · left
    rw [hstage]
    exact stage.isLt
  · exact Or.inr hstage

end Diagnosis

/-! ## The `switch` -/

/-- The five counters of first divergences. -/
structure StageCounters : Type where
  entry : U64
  binding : U64
  squeezeEntry : U64
  squeeze : U64
  never : U64

/-- The counters of an aggregate. -/
def DiagnosticAggregate.stageCounters (aggregate : DiagnosticAggregate) : StageCounters where
  entry := aggregate.controllerDivergedDuringFinalizationEntry
  binding := aggregate.controllerDivergedDuringBinding
  squeezeEntry := aggregate.controllerDivergedDuringSqueezeEntry
  squeeze := aggregate.controllerDivergedDuringSqueeze
  never := aggregate.controllerNeverDiverged

/-- **One record**, for every stage number: the default of the `switch` takes stage 0 with
the stages after 18. -/
theorem observeDiagnostic_stageCounters (aggregate : DiagnosticAggregate)
    (record : DiagnosticRecord) (tagBytes : ℕ) :
    (observeDiagnostic aggregate record tagBytes).stageCounters =
      let counters := aggregate.stageCounters
      let stage := record.firstControllerStage
      { entry := bumpIf (stage = 1) counters.entry
        binding := bumpIf (2 ≤ stage ∧ stage ≤ 17) counters.binding
        squeezeEntry := bumpIf (stage = 18) counters.squeezeEntry
        squeeze := bumpIf (stage ≠ kNoIndex ∧ (stage = 0 ∨ 19 ≤ stage)) counters.squeeze
        never := bumpIf (stage = kNoIndex) counters.never } := by
  unfold observeDiagnostic observeStage
  simp only [DiagnosticAggregate.stageCounters, observeOutput, bumpIf]
  split
  case h_19 h1 h2 h3 h4 h5 h6 h7 h8 h9 h10 h11 h12 h13 h14 h15 h16 h17 h18 =>
    generalize record.firstControllerStage = stage at *
    simp only [imp_false] at *
    have hsqueeze : stage = 0 ∨ 19 ≤ stage := by omega
    have hbinding : ¬ (2 ≤ stage ∧ stage ≤ 17) := by omega
    by_cases hno : stage = kNoIndex
    · simp [hno]
    · simp [hno, h1, h18, hbinding, hsqueeze]
  all_goals
    next h =>
      rw [h]
      rfl

/-! ## All records -/

namespace Diagnosis

/-- A counter that each record of a kind bumps ends with the number of those records,
modulo `2 ^ 64`. -/
theorem counter_observeAll (counter : DiagnosticAggregate → U64) (kind : Diagnosis → Prop)
    [DecidablePred kind] {tagBytes : ℕ} (hzero : counter {} = 0)
    (hstep : ∀ aggregate (diagnosis : Diagnosis),
      counter (observeDiagnostic aggregate diagnosis.record tagBytes)
        = bumpIf (kind diagnosis) (counter aggregate)) (diagnoses : List Diagnosis) :
    counter (observeAll tagBytes diagnoses)
      = BitVec.ofNat 64 (diagnoses.countP fun diagnosis => kind diagnosis) := by
  have hrun : ∀ aggregate, counter (diagnoses.foldl (fun aggregate diagnosis =>
      observeDiagnostic aggregate diagnosis.record tagBytes) aggregate)
        = counter aggregate
          + BitVec.ofNat 64 (diagnoses.countP fun diagnosis => kind diagnosis) := by
    induction diagnoses with
    | nil => simp
    | cons diagnosis rest ih =>
      intro aggregate
      rw [List.foldl_cons, ih, hstep, List.countP_cons]
      unfold bumpIf
      by_cases h : kind diagnosis
      · have hone : (1 : U64) = 1#64 := rfl
        simp only [h, if_true, decide_true, BitVec.ofNat_add]
        rw [hone, BitVec.add_assoc, BitVec.add_comm 1#64]
      · simp [h]
  unfold observeAll
  rw [hrun, hzero, zero_add]

section Counters

variable (tagBytes : ℕ) (diagnoses : List Diagnosis)

/-- A range of stages, as a kind of record. -/
theorem countIn_eq {first last : ℕ} (hlast : last < 83) :
    countIn first last diagnoses = diagnoses.countP fun diagnosis =>
      first ≤ diagnosis.record.firstControllerStage ∧
        diagnosis.record.firstControllerStage ≤ last := by
  unfold countIn
  simp only [divergesIn_iff _ hlast]

/-- The default of the `switch` takes the records of stage 0 and of the squeeze. -/
theorem countP_squeeze :
    (diagnoses.countP fun diagnosis => diagnosis.record.firstControllerStage ≠ kNoIndex ∧
      (diagnosis.record.firstControllerStage = 0 ∨ 19 ≤ diagnosis.record.firstControllerStage))
      = countIn 0 0 diagnoses + countIn 19 82 diagnoses := by
  rw [countIn_eq _ (by omega), countIn_eq _ (by omega)]
  induction diagnoses with
  | nil => rfl
  | cons diagnosis rest ih =>
    have hno := kNoIndex_ge
    simp only [List.countP_cons, ih, decide_eq_true_eq]
    rcases diagnosis.stage_range with hlt | hstage
    · by_cases hzero : diagnosis.record.firstControllerStage = 0
      · rw [if_pos (by omega), if_pos (by omega), if_neg (by omega)]
        omega
      · by_cases hsqueeze : 19 ≤ diagnosis.record.firstControllerStage
        · rw [if_pos (by omega), if_neg (by omega), if_pos (by omega)]
          omega
        · rw [if_neg (by omega), if_neg (by omega), if_neg (by omega)]
          omega
    · rw [if_neg (by omega), if_neg (by omega), if_neg (by omega)]
      omega

/-- The five counters after all records. -/
theorem stageCounters_observeAll :
    (observeAll tagBytes diagnoses).stageCounters =
      { entry := BitVec.ofNat 64 (countIn 1 1 diagnoses)
        binding := BitVec.ofNat 64 (countIn 2 17 diagnoses)
        squeezeEntry := BitVec.ofNat 64 (countIn 18 18 diagnoses)
        squeeze := BitVec.ofNat 64 (countIn 0 0 diagnoses + countIn 19 82 diagnoses)
        never := BitVec.ofNat 64 (countNever diagnoses) } := by
  have hstep := fun aggregate (diagnosis : Diagnosis) =>
    observeDiagnostic_stageCounters aggregate diagnosis.record tagBytes
  have hone : ∀ stage n : ℕ, stage = n ↔ n ≤ stage ∧ stage ≤ n := by omega
  have hentry := counter_observeAll (fun aggregate => aggregate.stageCounters.entry) _ rfl
    (fun aggregate diagnosis => congrArg StageCounters.entry (hstep aggregate diagnosis)) diagnoses
  have hbinding := counter_observeAll (fun aggregate => aggregate.stageCounters.binding) _ rfl
    (fun aggregate diagnosis => congrArg StageCounters.binding (hstep aggregate diagnosis))
    diagnoses
  have hsqueezeEntry := counter_observeAll (fun aggregate => aggregate.stageCounters.squeezeEntry)
    _ rfl (fun aggregate diagnosis =>
      congrArg StageCounters.squeezeEntry (hstep aggregate diagnosis)) diagnoses
  have hsqueeze := counter_observeAll (fun aggregate => aggregate.stageCounters.squeeze) _ rfl
    (fun aggregate diagnosis => congrArg StageCounters.squeeze (hstep aggregate diagnosis))
    diagnoses
  have hnever := counter_observeAll (fun aggregate => aggregate.stageCounters.never) _ rfl
    (fun aggregate diagnosis => congrArg StageCounters.never (hstep aggregate diagnosis)) diagnoses
  rw [countP_squeeze] at hsqueeze
  simp only [hone _ 1] at hentry
  simp only [hone _ 18] at hsqueezeEntry
  simp only [← neverDiverges_iff] at hnever
  rw [← countIn_eq _ (by omega)] at hentry hbinding hsqueezeEntry
  rw [← hentry, ← hbinding, ← hsqueezeEntry, ← hsqueeze]
  unfold countNever
  rw [← hnever]

end Counters

/-- The counters hold the numbers of records that first differ in their part of the
finalization. -/
structure AttributionExact (tagBytes : ℕ) (diagnoses : List Diagnosis) : Prop where
  entry : (observeAll tagBytes diagnoses).controllerDivergedDuringFinalizationEntry.toNat
    = countIn 1 1 diagnoses
  binding : (observeAll tagBytes diagnoses).controllerDivergedDuringBinding.toNat
    = countIn 2 17 diagnoses
  squeezeEntry : (observeAll tagBytes diagnoses).controllerDivergedDuringSqueezeEntry.toNat
    = countIn 18 18 diagnoses
  squeeze : (observeAll tagBytes diagnoses).controllerDivergedDuringSqueeze.toNat
    = countIn 19 82 diagnoses
  never : (observeAll tagBytes diagnoses).controllerNeverDiverged.toNat = countNever diagnoses

/-- The number of records fits every counter. -/
structure CountsFit (diagnoses : List Diagnosis) : Prop where
  entry : countIn 1 1 diagnoses < 2 ^ 64
  binding : countIn 2 17 diagnoses < 2 ^ 64
  squeezeEntry : countIn 18 18 diagnoses < 2 ^ 64
  squeeze : countIn 19 82 diagnoses < 2 ^ 64
  never : countNever diagnoses < 2 ^ 64

theorem countsFit_of_length_lt {diagnoses : List Diagnosis} (h : diagnoses.length < 2 ^ 64) :
    CountsFit diagnoses where
  entry := List.countP_le_length.trans_lt h
  binding := List.countP_le_length.trans_lt h
  squeezeEntry := List.countP_le_length.trans_lt h
  squeeze := List.countP_le_length.trans_lt h
  never := List.countP_le_length.trans_lt h

/-- A wrapping counter holds a number exactly when the number fits. -/
theorem toNat_ofNat_eq_iff (n : ℕ) : (BitVec.ofNat 64 n).toNat = n ↔ n < 2 ^ 64 := by
  rw [BitVec.toNat_ofNat]
  constructor
  · intro h
    rw [← h]
    exact Nat.mod_lt _ (by decide)
  · exact Nat.mod_eq_of_lt

/-- A wrapping counter that holds a sum ends with one of its terms exactly when the term
fits and the other vanishes. -/
theorem toNat_ofNat_add_eq_iff (m n : ℕ) :
    (BitVec.ofNat 64 (m + n)).toNat = n ↔ 2 ^ 64 ∣ m ∧ n < 2 ^ 64 := by
  rw [BitVec.toNat_ofNat]
  omega

/-- **The counters are exact when stage 0 does not occur.**  The records of stage 0 are
counted with those of the squeeze, so that the counters are exact if and only if their
number vanishes in the 64 bits of a counter and the other numbers fit; in a sequence of
fewer than `2 ^ 64` records, if and only if there is none. -/
theorem attribution_exact_iff (tagBytes : ℕ) (diagnoses : List Diagnosis) :
    (AttributionExact tagBytes diagnoses ↔
      2 ^ 64 ∣ countIn 0 0 diagnoses ∧ CountsFit diagnoses) ∧
    (diagnoses.length < 2 ^ 64 →
      (AttributionExact tagBytes diagnoses ↔
        ∀ diagnosis ∈ diagnoses, ¬ diagnosis.DivergesIn 0 0)) := by
  have hcounters := stageCounters_observeAll tagBytes diagnoses
  have hentry := congrArg StageCounters.entry hcounters
  have hbinding := congrArg StageCounters.binding hcounters
  have hsqueezeEntry := congrArg StageCounters.squeezeEntry hcounters
  have hsqueeze := congrArg StageCounters.squeeze hcounters
  have hnever := congrArg StageCounters.never hcounters
  simp only [DiagnosticAggregate.stageCounters] at hentry hbinding hsqueezeEntry hsqueeze hnever
  -- a counter is exact when its count fits; only the squeeze counter takes stage 0 as well
  have hexact : AttributionExact tagBytes diagnoses ↔
      2 ^ 64 ∣ countIn 0 0 diagnoses ∧ CountsFit diagnoses := by
    constructor
    · rintro ⟨h1, h2, h3, h4, h5⟩
      rw [hentry, toNat_ofNat_eq_iff] at h1
      rw [hbinding, toNat_ofNat_eq_iff] at h2
      rw [hsqueezeEntry, toNat_ofNat_eq_iff] at h3
      rw [hsqueeze, toNat_ofNat_add_eq_iff] at h4
      rw [hnever, toNat_ofNat_eq_iff] at h5
      exact ⟨h4.1, h1, h2, h3, h4.2, h5⟩
    · rintro ⟨hzero, h1, h2, h3, h4, h5⟩
      constructor
      · rw [hentry, toNat_ofNat_eq_iff]
        exact h1
      · rw [hbinding, toNat_ofNat_eq_iff]
        exact h2
      · rw [hsqueezeEntry, toNat_ofNat_eq_iff]
        exact h3
      · rw [hsqueeze, toNat_ofNat_add_eq_iff]
        exact ⟨hzero, h4⟩
      · rw [hnever, toNat_ofNat_eq_iff]
        exact h5
  refine ⟨hexact, fun hlength => ?_⟩
  have hcount : countIn 0 0 diagnoses < 2 ^ 64 := List.countP_le_length.trans_lt hlength
  have hnone : countIn 0 0 diagnoses = 0 ↔
      ∀ diagnosis ∈ diagnoses, ¬ diagnosis.DivergesIn 0 0 := by
    unfold countIn
    simp [List.countP_eq_zero]
  rw [hexact, ← hnone]
  constructor
  · rintro ⟨hdvd, -⟩
    exact Nat.eq_zero_of_dvd_of_lt hdvd hcount
  · intro h
    rw [h]
    exact ⟨dvd_zero _, countsFit_of_length_lt hlength⟩

end Diagnosis

/-! ## Faults in the controller -/

/-- A trace starts with the state it is taken from. -/
theorem exists_traceFinalization (messageLength : U64)
    {m : Machine ControllerState MoveDecision} (hcursor : m.working.cursor.InRange) :
    ∃ trace m₁, (traceFinalization messageLength).run m = .ok trace m₁ ∧
      trace.stages.get 0 = m.working := by
  obtain ⟨states, bytes, hstart, hpath⟩ := exists_finalizationPath messageLength hcursor
  obtain ⟨⟨trace, stage⟩, m₁, hfill, -, rfl, hstages, -⟩ :=
    hpath.leads_fillStages m hstart.symm
  refine ⟨trace, m₁, ?_, ?_⟩
  · unfold traceFinalization
    rw [run_bind_of_ok hfill]
    rfl
  · rw [Vector.get_eq_getElem, ← hstart]
    exact hstages 0 (by omega) (by omega)

/-- A flipped bit changes the controller exactly when it is not a bit of the cube. -/
theorem controller_ne_iff_of_flip {state state' : WorkingState} {bit : ℕ}
    (hbit : bit < kC1StateBits) (hflip : flipC1StateBit state bit = .ok state') :
    state.controller ≠ state'.controller ↔ kCubeStateBits ≤ bit := by
  obtain ⟨region, hholds⟩ := StateRegion.exists_holds hbit
  obtain ⟨flipped, hrun, hflipped⟩ := flipC1StateBit_of_holds state hholds
  obtain rfl : flipped = state' := Except.ok.inj (hrun.symm.trans hflip)
  have hdistance := congrArg StateDistance.controllerBits (hflipped.workingStateDistance_eq hholds)
  have hregion : region = .Cube ↔ bit < 4096 := by
    constructor
    · rintro rfl
      exact hholds.2
    · intro hlt
      exact hholds.unique ⟨Nat.zero_le _, hlt⟩
  simp only [workingStateDistance] at hdistance
  rw [ne_eq, ← controllerBitDistance_eq_zero_iff, hdistance]
  by_cases h : region = .Cube
  · simp [h, hregion.1 h]
  · have hle : 4096 ≤ bit := Nat.le_of_not_lt (mt hregion.2 h)
    simp [h, hle]

/-- **A fault is recorded at stage 0 exactly when it is a fault in the controller.** -/
theorem firstControllerStage_eq_zero_iff {canonical faulted : FinalizationTrace} {bit : ℕ}
    (hbit : bit < kC1StateBits)
    (hflip : flipC1StateBit (canonical.stages.get 0) bit = .ok (faulted.stages.get 0)) :
    firstControllerStage canonical faulted = 0 ↔ kCubeStateBits ≤ bit := by
  rw [← controller_ne_iff_of_flip hbit hflip]
  let diagnosis : Diagnosis :=
    ⟨canonical, faulted, { firstControllerStage := firstControllerStage canonical faulted }, rfl⟩
  have hzero : diagnosis.DivergesIn 0 0 ↔ firstControllerStage canonical faulted = 0 := by
    rw [diagnosis.divergesIn_iff (by omega)]
    simp [diagnosis]
  rw [← hzero]
  constructor
  · rintro ⟨stage, -, hle, hdiffers, -⟩
    obtain rfl : stage = 0 := Fin.ext (by simpa using hle)
    exact hdiffers
  · intro hne
    refine ⟨0, le_rfl, le_rfl, hne, fun earlier hlt => absurd hlt (Fin.not_lt_zero earlier)⟩

/-- The first bit of the axis control, flipped before an empty finalization: no record
differs first in the squeeze, and the counter of the squeeze is one. -/
theorem controller_fault_counted_in_squeeze :
    ∃ (diagnosis : Diagnosis) (m' m₁ m₁' : Machine ControllerState MoveDecision),
      flipC1StateBit freshMachineA2.working 4096 = .ok m'.working ∧
      (traceFinalization 0).run freshMachineA2 = .ok diagnosis.canonical m₁ ∧
      (traceFinalization 0).run m' = .ok diagnosis.faulted m₁' ∧
      diagnosis.record.stateBit = 4096 ∧ Diagnosis.countIn 19 82 [diagnosis] = 0 ∧
      (Diagnosis.observeAll 16 [diagnosis]).controllerDivergedDuringSqueeze = 1 ∧
      ¬ Diagnosis.AttributionExact 16 [diagnosis] := by
  have hholds : StateRegion.AxisControl.Holds 4096 := ⟨le_rfl, by decide⟩
  obtain ⟨state', hflip, hflipped⟩ := flipC1StateBit_of_holds freshMachineA2.working hholds
  have hcursor : state'.cursor.InRange := by
    rw [← hflipped.sameMetadata.cursor]
    decide
  obtain ⟨canonical, m₁, hrun, hstage⟩ := exists_traceFinalization 0
    (by decide : freshMachineA2.working.cursor.InRange)
  obtain ⟨faulted, m₁', hrun', hstage'⟩ :=
    @exists_traceFinalization 0 { freshMachineA2 with working := state' } hcursor
  have hfirst : firstControllerStage canonical faulted = 0 := by
    rw [firstControllerStage_eq_zero_iff (by decide : 4096 < kC1StateBits)]
    rw [hstage, hstage']
    exact hflip
  let diagnosis : Diagnosis :=
    ⟨canonical, faulted, { stateBit := 4096, firstControllerStage := 0 }, hfirst.symm⟩
  have hsqueeze : Diagnosis.countIn 19 82 [diagnosis] = 0 := by
    rw [Diagnosis.countIn_eq _ (by omega)]
    rfl
  have hone : (Diagnosis.observeAll 16 [diagnosis]).controllerDivergedDuringSqueeze = 1 := rfl
  refine ⟨diagnosis, _, m₁, m₁', hflip, hrun, hrun', rfl, hsqueeze, hone, fun hexact => ?_⟩
  have := hexact.squeeze
  rw [hone, hsqueeze] at this
  exact absurd this (by decide)
