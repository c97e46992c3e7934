/-
# Finalization and squeeze

`finalization.cpp`: the controller is bound back into the state byte by byte,
and each output byte, read from three cells and the controller, is absorbed
before the next one.
-/
import RotSymEnc.ReturnPass

open StatefulRuns

/-! ## Output bytes -/

/-- `ResearchOutput`. -/
abbrev ResearchOutput := Vector U8 32

/-- `output_coord`. -/
def outputCoord (selector : U64) (round lane : ℕ) : Coord :=
  let mixed := rotl64 (selector + BitVec.ofNat 64 (round + 1) * 0x9E3779B185EBCA87)
    (lane * 13 + round)
  ⟨u8 (mixed &&& 7), u8 ((mixed >>> 17) &&& 7), u8 ((mixed >>> 41) &&& 7)⟩

/-- The output byte of a squeeze round of `research_bound_output_a2`. -/
def outputByteA2 (state : WorkingState) (round : ℕ) : AccessRun U8 := do
  let c := state.controller
  let selector := c.transcript ^^^ (u64 c.feedback <<< 19) ^^^ (u64 c.axisControl <<< 3)
    ^^^ (u64 c.amountControl <<< 43)
  let b0 ← unchecked state.cube (outputCoord selector round 0)
  let b1 ← unchecked state.cube (outputCoord (rotl64 selector 23) round 1)
  let b2 ← unchecked state.cube (outputCoord (rotl64 selector 47) round 2)
  let cubeMix := (b0 + rotl8 b1 round) ^^^ rotl8 b2 (round + 3)
  let controllerMix := byte64 c.transcript round ^^^ byte32 c.feedback (round + 1)
    ^^^ byte16 c.axisControl round ^^^ byte16 c.amountControl (round + 1)
  return cubeMix + controllerMix + BitVec.ofNat 8 (round * 37)

/-- The output byte of a squeeze round of `research_bound_output_b`. -/
def outputByteB (state : WorkingStateB) (round : ℕ) : AccessRun U8 := do
  let c := state.controller
  let selector := c.path ^^^ (u64 (c.lane.get 0) <<< 32) ^^^ u64 (c.lane.get 3)
  let b0 ← unchecked state.cube (outputCoord selector round 3)
  let b1 ← unchecked state.cube (outputCoord (rotl64 selector 29) round 5)
  let b2 ← unchecked state.cube (outputCoord (rotl64 selector 53) round 7)
  let cubeMix := b0 ^^^ (rotl8 b1 (round + 1) + rotl8 b2 (round + 5))
  let controllerMix := byte32 (c.lane.get (Fin.ofNat 4 round)) round
    ^^^ byte32 (c.lane.get (Fin.ofNat 4 (round + 2))) (round + 1) ^^^ byte64 c.path (round + 3)
  return cubeMix + controllerMix + BitVec.ofNat 8 (round * 41)

/-! ## The bound output -/

/-- The parts in which the two finalizations differ. -/
structure OutputRules (C : Type) : Type where
  bindingBytes : C → List U8
  bindingFactor : ℕ
  bindingOffset : ℕ
  outputByte : WorkingStateOf C → ℕ → AccessRun U8
  /-- The factor of the round number folded into each fed-back byte. -/
  feedbackFactor : ℕ

/-- A round of the squeeze is an index of the output. -/
theorem round_lt (round : Fin 32) : round.val < 32 := round.isLt

/-- The common form of `research_bound_output_a2` and `research_bound_output_b`. -/
def Engine.boundOutput {C D : Type} (engine : Engine C D) (rules : OutputRules C)
    (messageLength : U64) (finalMoves squeezeMoves : ℕ) : C1Run C D ResearchOutput := do
  if finalMoves = 0 ∨ squeezeMoves = 0 then
    throw (.thrown .invalidArgument "finalization move counts must be positive")
  engine.enterDomain .finalization messageLength
  let bound ← C1Run.working
  forM (rules.bindingBytes bound.controller).zipIdx fun binding =>
    engine.absorbSymbol
      (binding.1 ^^^ byte64 messageLength binding.2
        ^^^ BitVec.ofNat 8 (binding.2 * rules.bindingFactor + rules.bindingOffset))
      .finalization finalMoves false
  engine.enterDomain .squeeze 32
  (List.finRange 32).foldlM (fun (output : ResearchOutput) (round : Fin 32) => do
    let state ← C1Run.working
    let byte ← C1Run.reading (rules.outputByte state round)
    engine.absorbSymbol (byte ^^^ BitVec.ofNat 8 (round.val * rules.feedbackFactor)) .squeeze
      squeezeMoves false
    return output.set round byte (round_lt round)) (Vector.replicate 32 0)

/-- The finalization of A2. -/
def outputRulesA2 : OutputRules ControllerState where
  bindingBytes := fun c => (controllerBytesA2 c).toList
  bindingFactor := 29
  bindingOffset := 0x53
  outputByte := outputByteA2
  feedbackFactor := 1

/-- The finalization of prototype B. -/
def outputRulesB : OutputRules ControllerStateB where
  bindingBytes := fun c => (controllerBytesB c).toList
  bindingFactor := 31
  bindingOffset := 0xA7
  outputByte := outputByteB
  feedbackFactor := 3

/-- `research_bound_output_a2`. -/
abbrev researchBoundOutputA2 (messageLength : U64) (finalMoves squeezeMoves : ℕ) :
    A2Run ResearchOutput :=
  engineA2.boundOutput outputRulesA2 messageLength finalMoves squeezeMoves

/-- `research_bound_output_b`. -/
abbrev researchBoundOutputB (messageLength : U64) (finalMoves squeezeMoves : ℕ) :
    BRun ResearchOutput :=
  engineB.boundOutput outputRulesB messageLength finalMoves squeezeMoves
