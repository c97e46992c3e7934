/-
# The mirror of the finalizer

`fault_injection_campaign.cpp` diagnoses faults on a finalizer of its own, which keeps
the working state of every stage and squeezes 64 bytes instead of 32.  Both
finalizers absorb symbol after symbol, and follow the same states: the first 32
bytes of the mirror are the output, and the stages are the states they are read
from.
-/
import RotSymEnc.MoveRuns
import RotSymEnc.LineRotations

open StatefulRuns

/-! ## Words -/

/-- `diagnostic_output_coord`. -/
def diagnosticOutputCoord (selector : U64) (round lane : ℕ) : Coord :=
  let mixed := rotl64 (selector + BitVec.ofNat 64 (round + 1) * 0x9E3779B185EBCA87)
    (lane * 13 + round)
  ⟨u8 (mixed &&& 7), u8 ((mixed >>> 17) &&& 7), u8 ((mixed >>> 41) &&& 7)⟩

/-- `diagnostic_controller_bytes`, an array of `kFinalizationBindingBytes`. -/
def diagnosticControllerBytes (controller : ControllerState) : Vector U8 16 :=
  #v[u8 controller.axisControl, u8 (controller.axisControl >>> 8),
    u8 controller.amountControl, u8 (controller.amountControl >>> 8),
    byte32 controller.feedback 0, byte32 controller.feedback 1,
    byte32 controller.feedback 2, byte32 controller.feedback 3,
    byte64 controller.transcript 0, byte64 controller.transcript 1,
    byte64 controller.transcript 2, byte64 controller.transcript 3,
    byte64 controller.transcript 4, byte64 controller.transcript 5,
    byte64 controller.transcript 6, byte64 controller.transcript 7]

/-- `diagnostic_output_byte`. -/
def diagnosticOutputByte (state : WorkingState) (round : ℕ) : AccessRun U8 := do
  let selector := state.controller.transcript ^^^ (u64 state.controller.feedback <<< 19)
    ^^^ (u64 state.controller.axisControl <<< 3) ^^^ (u64 state.controller.amountControl <<< 43)
  let b0 ← unchecked state.cube (diagnosticOutputCoord selector round 0)
  let b1 ← unchecked state.cube (diagnosticOutputCoord (rotl64 selector 23) round 1)
  let b2 ← unchecked state.cube (diagnosticOutputCoord (rotl64 selector 47) round 2)
  let cubeMix := (b0 + rotl8 b1 round) ^^^ rotl8 b2 (round + 3)
  let controllerMix := byte64 state.controller.transcript round
    ^^^ byte32 state.controller.feedback (round + 1)
    ^^^ u8 (state.controller.axisControl >>> (round % 2 * 8))
    ^^^ u8 (state.controller.amountControl >>> ((round + 1) % 2 * 8))
  return cubeMix + controllerMix + BitVec.ofNat 8 (round * 37)

/-! ## The trace -/

/-- `FinalizationTrace`, of `kExtendedOutputBytes` bytes and `kTraceStageCount` stages. -/
structure FinalizationTrace : Type where
  output : Vector U8 64
  stages : Vector WorkingState 83

/-- The variables `trace` and `stage` of `trace_finalization`. -/
structure StageWriter : Type where
  trace : FinalizationTrace
  stage : ℕ

namespace StageWriter

/-- A default `FinalizationTrace`, and stage 0. -/
def start : StageWriter :=
  ⟨⟨Vector.replicate _ 0, Vector.replicate _ freshMachineA2.working⟩, 0⟩

/-- `trace.stages[stage++] = state`. -/
def push (writer : StageWriter) : A2Run StageWriter := do
  let state ← C1Run.working
  let stages ← lift (arraySet writer.trace.stages writer.stage state)
  return ⟨{ writer.trace with stages }, writer.stage + 1⟩

end StageWriter

/-- A binding symbol of `trace_finalization`. -/
def bindingSymbol (messageLength : U64) (binding : Vector U8 16)
    (index : Fin 16) : U8 :=
  binding[index] ^^^ byte64 messageLength index.val ^^^ BitVec.ofNat 8 (index.val * 29 + 0x53)

/-- A pass of the binding loop of `trace_finalization`. -/
def bindStage (messageLength : U64) (binding : Vector U8 16)
    (writer : StageWriter) (index : Fin 16) : A2Run StageWriter := do
  absorbSymbol (bindingSymbol messageLength binding index) .finalization 4 false
  writer.push

/-- A pass of the squeeze loop of `trace_finalization`. -/
def squeezeStage (writer : StageWriter) (round : Fin 64) :
    A2Run StageWriter := do
  let state ← C1Run.working
  let byte ← C1Run.reading (diagnosticOutputByte state round.val)
  let output := writer.trace.output.set round byte
  absorbSymbol (byte ^^^ BitVec.ofNat 8 round.val) .squeeze 2 false
  StageWriter.push ⟨{ writer.trace with output }, writer.stage⟩

/-- `trace_finalization`, up to its last check. -/
def fillStages (messageLength : U64) : A2Run StageWriter := do
  let writer ← StageWriter.start.push
  enterDomain .finalization messageLength
  let writer ← writer.push
  let bound ← C1Run.working
  let binding := diagnosticControllerBytes bound.controller
  let writer ← (List.finRange 16).foldlM
    (bindStage messageLength binding) writer
  enterDomain .squeeze 32
  let writer ← writer.push
  (List.finRange 64).foldlM squeezeStage writer

/-- `trace_finalization`. -/
def traceFinalization (messageLength : U64) : A2Run FinalizationTrace := do
  let writer ← fillStages messageLength
  if writer.stage ≠ 83 then
    throw (.thrown .runtimeError "diagnostic trace stage count mismatch")
  return writer.trace

/-! ## The words of the two finalizers -/

theorem diagnosticControllerBytes_eq (controller : ControllerState) :
    diagnosticControllerBytes controller = controllerBytesA2 controller := by
  unfold diagnosticControllerBytes controllerBytesA2
  simp [wordByte]

theorem diagnosticOutputByte_eq (state : WorkingState) (round : ℕ) :
    diagnosticOutputByte state round = outputByteA2 state round := rfl

/-- The bytes bound by the library, with their indices. -/
theorem bindingBytes_zipIdx (c : ControllerState) :
    (outputRulesA2.bindingBytes c).zipIdx
      = (List.finRange 16).map fun i => ((controllerBytesA2 c)[i], i.val) := by
  apply List.ext_getElem
  · simp [outputRulesA2]
  · intro i hi hi'
    simp [outputRulesA2]

/-! ## The path of a finalization -/

/-- The states and the bytes of a finalization: what both finalizers go through. -/
structure FinalizationPath (messageLength : U64) (states : ℕ → WorkingState)
    (bytes : ℕ → U8) : Prop where
  entered : ∃ h, Does (enterDomain .finalization messageLength) (states 0) () h (states 1)
  bound : ∀ i : Fin 16, ∃ h, Does
    (absorbSymbol (bindingSymbol messageLength
      (diagnosticControllerBytes (states 1).controller) i) .finalization 4 false)
    (states (1 + i.val)) () h (states (2 + i.val))
  squeezed : ∃ h, Does (enterDomain .squeeze 32)
    (states 17) () h (states 18)
  reads : ∀ r, Reads (diagnosticOutputByte (states (18 + r)) r) (bytes r)
  absorbed : ∀ r, ∃ h, Does
    (absorbSymbol (bytes r ^^^ BitVec.ofNat 8 r) .squeeze 2 false)
    (states (18 + r)) () h (states (19 + r))

/-- A sequence of states with their cursors in range, from what one step can do. -/
theorem exists_states {R : ℕ → WorkingState → WorkingState → Prop}
    (hstep : ∀ i s, s.cursor.InRange → ∃ s', s'.cursor.InRange ∧ R i s s') {w : WorkingState}
    (hw : w.cursor.InRange) :
    ∃ states : ℕ → WorkingState, states 0 = w ∧ ∀ i, (states i).cursor.InRange ∧
      R i (states i) (states (i + 1)) := by
  choose next hnext using hstep
  let path : ℕ → { s : WorkingState // s.cursor.InRange } :=
    Nat.rec ⟨w, hw⟩ fun i s => ⟨next i s.val s.property, (hnext i s.val s.property).1⟩
  exact ⟨fun i => (path i).val, rfl, fun i =>
    ⟨(path i).property, (hnext i (path i).val (path i).property).2⟩⟩

/-- A symbol can be absorbed in every state with its cursor in range. -/
theorem exists_does_absorbSymbol {w : WorkingState} (hw : w.cursor.InRange) (symbol : U8)
    (domain : Domain) {moves : ℕ} (hmoves : CountOk moves) :
    ∃ w', w'.cursor.InRange ∧ ∃ h, Does (absorbSymbol symbol domain moves false) w () h w' := by
  obtain ⟨steps, w', hsteps, -, -, hdoes⟩ :=
    does_absorbSymbol engineA2_sound symbol domain hmoves hw
  exact ⟨w', hsteps.cursor_inRange hw, _, hdoes false⟩

theorem exists_does_enterDomain {w : WorkingState} (hw : w.cursor.InRange) (domain : Domain)
    (sequenceLength : U64) :
    ∃ w', w'.cursor.InRange ∧ ∃ h, Does (enterDomain domain sequenceLength) w () h w' := by
  obtain ⟨diagonals, hreads⟩ := exists_reads_bodyDiagonals w.cube
  exact ⟨{ w with controller := engineA2.entered w.controller diagonals domain sequenceLength }, hw,
    _, does_enterDomain engineA2 domain sequenceLength hreads⟩

/-- State 0, then the states of the binding loop, then those of the squeeze loop. -/
def joinedStates (w : WorkingState) (bound rounds : ℕ → WorkingState) (i : ℕ) : WorkingState :=
  if i = 0 then w else if i < 18 then bound (i - 1) else rounds (i - 18)

section Joined

variable (w : WorkingState) (bound rounds : ℕ → WorkingState)

theorem joinedStates_bound {i : ℕ} (hi : i < 17) :
    joinedStates w bound rounds (1 + i) = bound i := by
  unfold joinedStates
  rw [if_neg (by omega), if_pos (by omega), Nat.add_sub_cancel_left]

theorem joinedStates_rounds (r : ℕ) : joinedStates w bound rounds (18 + r) = rounds r := by
  unfold joinedStates
  rw [if_neg (by omega), if_neg (by omega), Nat.add_sub_cancel_left]

end Joined

/-- **Every state with its cursor in range starts a path.** -/
theorem exists_finalizationPath (messageLength : U64) {w : WorkingState}
    (hw : w.cursor.InRange) :
    ∃ states bytes, states 0 = w ∧ FinalizationPath messageLength states bytes := by
  obtain ⟨w₁, hw₁, hentered⟩ := exists_does_enterDomain hw .finalization messageLength
  obtain ⟨bound, hbound0, hbound⟩ := exists_states
    (fun i s hs => exists_does_absorbSymbol hs
      (bindingSymbol messageLength (diagnosticControllerBytes w₁.controller) (Fin.ofNat _ i))
      .finalization (by decide : CountOk 4)) hw₁
  obtain ⟨w₁₈, hw₁₈, hsqueezed⟩ := exists_does_enterDomain (hbound 16).1 .squeeze
    32
  have hround : ∀ r s, s.cursor.InRange → ∃ s', s'.cursor.InRange ∧ ∃ byte,
      Reads (diagnosticOutputByte s r) byte ∧
      ∃ h, Does (absorbSymbol (byte ^^^ BitVec.ofNat 8 r) .squeeze 2 false) s () h s' := by
    intro r s hs
    obtain ⟨byte, hbyte⟩ := outputRulesA2_sound s r
    obtain ⟨s', hs', hdoes⟩ := exists_does_absorbSymbol hs (byte ^^^ BitVec.ofNat 8 r) .squeeze
      (by decide : CountOk 2)
    exact ⟨s', hs', byte, hbyte, hdoes⟩
  obtain ⟨rounds, hrounds0, hrounds⟩ := exists_states hround hw₁₈
  choose bytes hreads habsorbed using fun r => (hrounds r).2
  have hbounds := fun i (hi : i < 17) => joinedStates_bound w bound rounds hi
  have hround' := joinedStates_rounds w bound rounds
  refine ⟨joinedStates w bound rounds, bytes, rfl, ?_, fun i => ?_, ?_, fun r => ?_, fun r => ?_⟩
  · rw [hbounds 0 (by omega), hbound0]
    exact hentered
  · have hi : i.val < 16 := i.isLt
    have hstep := (hbound i.val).2
    rw [hbounds 0 (by omega), hbounds i.val (by omega),
      show 2 + i.val = 1 + (i.val + 1) by omega, hbounds (i.val + 1) (by omega), hbound0]
    rwa [show Fin.ofNat 16 i.val = i from Fin.ofNat_val_eq_self i] at hstep
  · rw [hbounds 16 (by omega), hround' 0, hrounds0]
    exact hsqueezed
  · rw [hround']
    exact hreads r
  · rw [hround', show 19 + r = 18 + (r + 1) by omega, hround']
    exact habsorbed r

/-! ## The mirror follows the path -/

variable {messageLength : U64} {states : ℕ → WorkingState} {bytes : ℕ → U8}

/-- The first `n` stages are states of the path, and the first `r` bytes its bytes. -/
structure StageWriter.Holds (states : ℕ → WorkingState) (bytes : ℕ → U8) (n r : ℕ)
    (writer : StageWriter) : Prop where
  stage_eq : writer.stage = n
  stages_eq : ∀ i (hi : i < 83), i < n → writer.trace.stages[i] = states i
  output_eq : ∀ i (hi : i < 64), i < r → writer.trace.output[i] = bytes i

/-- Storing the working state in the next stage. -/
theorem leads_push {n r : ℕ} {writer : StageWriter} (h : writer.Holds states bytes n r)
    (hn : n < 83) :
    Leads (fun m => m.working = states n) writer.push (fun m => m.working = states n)
      (StageWriter.Holds states bytes (n + 1) r) := by
  obtain ⟨rfl, hstages, houtput⟩ := h
  have hset : arraySet writer.trace.stages writer.stage (states writer.stage)
      = .ok (writer.trace.stages.set writer.stage (states writer.stage)) := dif_pos hn
  refine does_working.leads.bind ?_
  rintro state rfl
  refine (does_lift hset).leads.bind ?_
  rintro stages rfl
  refine keeps_pure ⟨rfl, ?_, houtput⟩
  intro i hi hlt
  rw [Vector.getElem_set]
  split
  next heq => rw [← heq]
  next hne => exact hstages i hi (by omega)

/-- The run has reached the state of stage `n`. -/
abbrev At (states : ℕ → WorkingState) (n : ℕ) (m : Machine ControllerState MoveDecision) : Prop :=
  m.working = states n

section Follows

variable (h : FinalizationPath messageLength states bytes) {writer : StageWriter}
include h

/-- One pass of the binding loop. -/
theorem FinalizationPath.leads_bindStage (i : Fin 16)
    (hwriter : writer.Holds states bytes (2 + i.val) 0) :
    Leads (At states (1 + i.val))
      (bindStage messageLength (diagnosticControllerBytes (states 1).controller) writer i)
      (At states (1 + (i.val + 1))) (StageWriter.Holds states bytes (2 + (i.val + 1)) 0) := by
  have hi : i.val < 16 := i.isLt
  obtain ⟨history, hdoes⟩ := h.bound i
  have hindex : 1 + (i.val + 1) = 2 + i.val := by omega
  rw [hindex]
  unfold bindStage
  refine hdoes.leads.bind fun _ _ => ?_
  exact leads_push hwriter (by omega)

/-- One pass of the squeeze loop. -/
theorem FinalizationPath.leads_squeezeStage (r : Fin 64)
    (hwriter : writer.Holds states bytes (19 + r.val) r.val) :
    Leads (At states (18 + r.val)) (squeezeStage writer r) (At states (18 + (r.val + 1)))
      (StageWriter.Holds states bytes (19 + (r.val + 1)) (r.val + 1)) := by
  have hr : r.val < 64 := r.isLt
  obtain ⟨history, hdoes⟩ := h.absorbed r.val
  have hindex : 18 + (r.val + 1) = 19 + r.val := by omega
  rw [hindex]
  unfold squeezeStage
  refine does_working.leads.bind ?_
  rintro state rfl
  refine (does_reading (h.reads r.val)).leads.bind ?_
  rintro byte rfl
  refine hdoes.leads.bind fun _ _ => ?_
  refine leads_push ⟨hwriter.stage_eq, hwriter.stages_eq, ?_⟩ (by omega)
  -- the byte has been stored before the symbol is absorbed
  intro i hi hlt
  show (writer.trace.output.set r.val (bytes r.val))[i] = bytes i
  rw [Vector.getElem_set]
  split
  next heq => rw [heq]
  next hne => exact hwriter.output_eq i hi (by omega)

/-- **The mirror** ends with 83 stages and 64 bytes. -/
theorem FinalizationPath.leads_fillStages :
    Leads (At states 0) (fillStages messageLength) (At states 82)
      (StageWriter.Holds states bytes 83 64) := by
  have hstart : StageWriter.Holds states bytes 0 0 .start :=
    ⟨rfl, fun _ _ hlt => absurd hlt (Nat.not_lt_zero _),
      fun _ _ hlt => absurd hlt (Nat.not_lt_zero _)⟩
  obtain ⟨history, hentered⟩ := h.entered
  obtain ⟨history', hsqueezed⟩ := h.squeezed
  unfold fillStages
  refine (leads_push hstart (by omega)).bind fun writer₁ hwriter₁ => ?_
  refine hentered.leads.bind fun _ _ => ?_
  refine (leads_push hwriter₁ (by omega)).bind fun writer₂ hwriter₂ => ?_
  refine does_working.leads.bind ?_
  rintro bound rfl
  have hbind := @leads_foldlM_finRange _ _ _ _ (fun i => At states (1 + i))
    (fun i => StageWriter.Holds states bytes (2 + i) 0) _
    (fun i writer hwriter => h.leads_bindStage i hwriter) _ hwriter₂
  refine hbind.bind fun writer₃ hwriter₃ => ?_
  refine hsqueezed.leads.bind fun _ _ => ?_
  refine (leads_push hwriter₃ (by decide)).bind fun writer₄ hwriter₄ => ?_
  exact @leads_foldlM_finRange _ _ _ _ (fun r => At states (18 + r))
    (fun r => StageWriter.Holds states bytes (19 + r) r) _
    (fun r writer hwriter => h.leads_squeezeStage r hwriter) _ hwriter₄

end Follows

/-! ## The library follows the path -/

/-- A round of the squeeze of `research_bound_output_a2` and `research_bound_output_b`. -/
def Engine.squeezeRound {C D : Type} (engine : Engine C D) (rules : OutputRules C)
    (squeezeMoves : ℕ) (output : ResearchOutput) (round : Fin 32) : C1Run C D ResearchOutput := do
  let state ← C1Run.working
  let byte ← C1Run.reading (rules.outputByte state round)
  engine.absorbSymbol (byte ^^^ BitVec.ofNat 8 (round.val * rules.feedbackFactor)) .squeeze
    squeezeMoves false
  return output.set round byte

/-- The bound output up to a round of the squeeze. -/
def Engine.boundOutputRounds {C D : Type} (engine : Engine C D) (rules : OutputRules C)
    (messageLength : U64) (finalMoves squeezeMoves rounds : ℕ) : C1Run C D ResearchOutput := do
  engine.enterDomain .finalization messageLength
  let bound ← C1Run.working
  forM (rules.bindingBytes bound.controller).zipIdx fun binding =>
    engine.absorbSymbol
      (binding.1 ^^^ byte64 messageLength binding.2
        ^^^ BitVec.ofNat 8 (binding.2 * rules.bindingFactor + rules.bindingOffset))
      .finalization finalMoves false
  engine.enterDomain .squeeze 32
  ((List.finRange 32).take rounds).foldlM (engine.squeezeRound rules squeezeMoves)
    (Vector.replicate 32 0)

/-- The bound output makes its first `rounds` rounds, and then the others. -/
theorem Engine.boundOutput_eq_rounds {C D : Type} (engine : Engine C D) (rules : OutputRules C)
    (messageLength : U64) {finalMoves squeezeMoves : ℕ}
    (hguard : ¬ (finalMoves = 0 ∨ squeezeMoves = 0)) (rounds : ℕ) :
    engine.boundOutput rules messageLength finalMoves squeezeMoves
      = (engine.boundOutputRounds rules messageLength finalMoves squeezeMoves rounds) >>=
        fun output =>
          ((List.finRange 32).drop rounds).foldlM (engine.squeezeRound rules squeezeMoves)
            output := by
  unfold Engine.boundOutput Engine.boundOutputRounds
  simp only [if_neg hguard, bind_assoc, ← List.foldlM_append, List.take_append_drop]
  rfl

section Follows

variable (h : FinalizationPath messageLength states bytes)
include h

/-- A round of the library. -/
theorem FinalizationPath.leads_squeezeRound (r : Fin 32) {output : ResearchOutput}
    (houtput : ∀ i : Fin 32, i.val < r.val → output[i] = bytes i.val) :
    Leads (At states (18 + r.val)) (engineA2.squeezeRound outputRulesA2 2 output r)
      (At states (18 + (r.val + 1)))
      fun output => ∀ i : Fin 32, i.val < r.val + 1 → output[i] = bytes i.val := by
  obtain ⟨history, hdoes⟩ := h.absorbed r.val
  have hindex : 18 + (r.val + 1) = 19 + r.val := by omega
  have hfactor : r.val * outputRulesA2.feedbackFactor = r.val := Nat.mul_one r.val
  unfold Engine.squeezeRound
  rw [hindex, hfactor]
  refine does_working.leads.bind ?_
  rintro state rfl
  have hreads : Reads (outputByteA2 (states (18 + r.val)) r.val) (bytes r.val) := by
    rw [← diagnosticOutputByte_eq]
    exact h.reads r.val
  refine (does_reading hreads).leads.bind ?_
  rintro byte rfl
  refine hdoes.leads.bind fun _ _ => keeps_pure fun i hlt => ?_
  rw [Fin.getElem_fin, Vector.getElem_set]
  split
  next heq => rw [heq]
  next hne => exact houtput i (by omega)

/-- **The library**, up to a round of its squeeze. -/
theorem FinalizationPath.leads_boundOutputRounds {rounds : ℕ} (hrounds : rounds ≤ 32) :
    Leads (At states 0) (engineA2.boundOutputRounds outputRulesA2 messageLength 4 2 rounds)
      (At states (18 + rounds))
      fun output => ∀ i : Fin 32, i.val < rounds → output[i] = bytes i.val := by
  obtain ⟨history, hentered⟩ := h.entered
  obtain ⟨history', hsqueezed⟩ := h.squeezed
  unfold Engine.boundOutputRounds
  refine hentered.leads.bind fun _ _ => ?_
  refine does_working.leads.bind ?_
  rintro bound rfl
  rw [bindingBytes_zipIdx, List.forM_map]
  have hbind : Leads (At states 1) _ (At states 17) fun _ => True :=
    @leads_forM_finRange _ _ 16 (fun i => At states (1 + i)) (fun i => engineA2.absorbSymbol
      ((controllerBytesA2 (states 1).controller)[i] ^^^ byte64 messageLength i.val
        ^^^ BitVec.ofNat 8 (i.val * 29 + 0x53)) .finalization 4 false) fun i => ?_
  · refine hbind.bind fun _ _ => ?_
    refine hsqueezed.leads.bind fun _ _ => ?_
    exact @leads_foldlM_take _ _ _ _ _ (fun r => At states (18 + r))
      (fun r (output : ResearchOutput) => ∀ i : Fin 32, i.val < r → output[i] = bytes i.val) _
      (fun r output houtput => h.leads_squeezeRound r houtput) hrounds _
      fun i hlt => absurd hlt (Nat.not_lt_zero _)
  · obtain ⟨history'', hdoes⟩ := h.bound i
    have hindex : 1 + (i.val + 1) = 2 + i.val := by omega
    rw [diagnosticControllerBytes_eq] at hdoes
    rw [hindex]
    exact hdoes.leads.mono fun _ _ => trivial

end Follows

/-! ## The two finalizers -/

/-- What a trace of the mirror holds: every stage is the working state the next step of
the finalization starts from, and every byte is read from its stage. -/
structure FinalizationTrace.Chained (messageLength : U64) (trace : FinalizationTrace) : Prop where
  entered : ∃ h, Does (enterDomain .finalization messageLength) trace.stages[0] () h
    trace.stages[1]
  bound : ∀ i : Fin 16, ∃ h, Does
    (absorbSymbol (bindingSymbol messageLength
      (diagnosticControllerBytes trace.stages[1].controller) i) .finalization 4 false)
    trace.stages[1 + i.val] () h trace.stages[2 + i.val]
  squeezed : ∃ h, Does (enterDomain .squeeze 32) trace.stages[17] () h trace.stages[18]
  byte : ∀ r : Fin 64,
    (diagnosticOutputByte trace.stages[18 + r.val] r.val).returned = .ok trace.output[r.val]
  absorbed : ∀ r : Fin 64, ∃ h, Does
    (absorbSymbol (trace.output[r.val] ^^^ BitVec.ofNat 8 r.val) .squeeze 2 false)
    trace.stages[18 + r.val] () h trace.stages[19 + r.val]

/-- Stages and bytes of a path chain. -/
theorem FinalizationPath.chained {trace : FinalizationTrace}
    (h : FinalizationPath messageLength states bytes)
    (hstages : ∀ i (hi : i < 83), trace.stages[i] = states i)
    (houtput : ∀ i (hi : i < 64), trace.output[i] = bytes i) :
    trace.Chained messageLength := by
  refine ⟨?_, fun i => ?_, ?_, fun r => ?_, fun r => ?_⟩
  · rw [hstages, hstages]
    exact h.entered
  · rw [hstages, hstages, hstages]
    exact h.bound i
  · rw [hstages, hstages]
    exact h.squeezed
  · rw [hstages, houtput]
    exact (h.reads r.val).returned
  · rw [hstages, hstages, houtput]
    exact h.absorbed r.val

/-- **The mirror is faithful.**  From every state with its cursor in range and for every
message length, `trace_finalization` fills its 83 stages, each the state the next step
starts from, the first one the given state; its first 32 bytes are what
`research_bound_output_a2` returns from the same state with four final and two squeeze
moves; and the library's round `r` starts from stage `18 + r`. -/
theorem finalization_mirror (m : Machine ControllerState MoveDecision)
    (hcursor : m.working.cursor.InRange) (messageLength : U64) :
    ∃ trace m₁ output m₂,
      (traceFinalization messageLength).run m = .ok trace m₁ ∧
      (fillStages messageLength).run m = .ok ⟨trace, 83⟩ m₁ ∧
      (researchBoundOutputA2 messageLength 4 2).run m = .ok output m₂ ∧
      (∀ i : Fin 32, trace.output[i.val] = output[i]) ∧
      trace.stages[0] = m.working ∧ trace.Chained messageLength ∧
      ∀ r : Fin 32, ∃ prefixOutput m',
        (engineA2.boundOutputRounds outputRulesA2 messageLength 4 2 r.val).run m
          = .ok prefixOutput m' ∧
        m'.working = trace.stages[18 + r.val] ∧
        (((List.finRange 32).drop r.val).foldlM (engineA2.squeezeRound outputRulesA2 2)
          prefixOutput).run m' = .ok output m₂ := by
  obtain ⟨states, bytes, hstart, hpath⟩ := exists_finalizationPath messageLength hcursor
  obtain ⟨⟨trace, stage⟩, m₁, hfill, -, rfl, hstages, houtput⟩ :=
    hpath.leads_fillStages m hstart.symm
  have hsplit : ∀ rounds, researchBoundOutputA2 messageLength 4 2
      = (engineA2.boundOutputRounds outputRulesA2 messageLength 4 2 rounds) >>= fun output =>
        ((List.finRange 32).drop rounds).foldlM (engineA2.squeezeRound outputRulesA2 2) output :=
    fun rounds => engineA2.boundOutput_eq_rounds outputRulesA2 messageLength (by decide) rounds
  have hlibrary : Leads (At states 0) (researchBoundOutputA2 messageLength 4 2) (At states 50)
      fun output => ∀ i : Fin 32, output[i] = bytes i.val := by
    rw [hsplit 32]
    refine (hpath.leads_boundOutputRounds le_rfl).bind fun output houtput => keeps_pure ?_
    exact fun i => houtput i i.isLt
  obtain ⟨output, m₂, hrun, -, hbytes⟩ := hlibrary m hstart.symm
  refine ⟨trace, m₁, output, m₂, ?_, hfill, hrun, fun i => ?_, ?_, ?_, fun r => ?_⟩
  · unfold traceFinalization
    rw [run_bind_of_ok hfill]
    rfl
  · rw [houtput i.val (by omega) (by omega), hbytes i]
  · rw [hstages 0 (by omega) (by omega), hstart]
  · exact hpath.chained (fun i hi => hstages i hi hi) fun i hi => houtput i hi hi
  · obtain ⟨prefixOutput, m', hemitted, hworking, -⟩ :=
      hpath.leads_boundOutputRounds (le_of_lt r.isLt) m hstart.symm
    refine ⟨prefixOutput, m', hemitted, ?_, ?_⟩
    · rw [hstages (18 + r.val) (by omega) (by omega)]
      exact hworking
    · rw [hsplit r.val, run_bind_of_ok hemitted] at hrun
      exact hrun

/-- The fresh state and an empty message. -/
theorem finalization_mirror_fresh :
    ∃ trace m₁ output m₂, (traceFinalization 0).run freshMachineA2 = .ok trace m₁ ∧
      (researchBoundOutputA2 0 4 2).run freshMachineA2 = .ok output m₂ ∧
      (∀ i : Fin 32, trace.output[i.val] = output[i]) ∧
      trace.stages[0] = freshMachineA2.working := by
  obtain ⟨trace, m₁, output, m₂, hrun, -, hrun', houtput, hstage, -⟩ :=
    finalization_mirror freshMachineA2 (by decide) 0
  exact ⟨trace, m₁, output, m₂, hrun, hrun', houtput, hstage⟩
