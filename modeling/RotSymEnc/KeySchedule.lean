/-
# The key schedule and the keyed evaluations

`key_schedule.cpp`: a 256-bit key is absorbed in three framed passes from a
public bootstrap state, then the message is absorbed forwards, returned and
squeezed.  `research_keyed_return_output_a2` with its default profile is
Candidate C1.
-/
import RotSymEnc.Finalization

open StatefulRuns

/-! ## Key symbols -/

/-- `ResearchKey256`. -/
abbrev ResearchKey256 := Vector U8 32

/-- `kPublicBootstrapSeed`. -/
def kPublicBootstrapSeed : U64 := 0x5056433150524631

/-- `struct KeyScheduleProfile`, with its defaults. -/
structure KeyScheduleProfile : Type where
  forwardMoves : ℕ := 4
  returnMoves : ℕ := 4
  sealMoves : ℕ := 4
  deriving DecidableEq

/-- The condition of `validate_profile(const KeyScheduleProfile&)`. -/
def KeyScheduleProfile.Valid (profile : KeyScheduleProfile) : Prop :=
  CountOk profile.forwardMoves ∧ CountOk profile.returnMoves ∧ CountOk profile.sealMoves

instance (profile : KeyScheduleProfile) : Decidable profile.Valid :=
  inferInstanceAs (Decidable (_ ∧ _ ∧ _))

/-- `validate_profile(const KeyScheduleProfile&)`. -/
def validateKeyScheduleProfile (profile : KeyScheduleProfile) : Except Fault PUnit :=
  if profile.Valid then .ok ()
  else .error (.thrown .invalidArgument "key-schedule move counts must be in [1,255]")

/-- `position_mask`. -/
def positionMask (index : ℕ) (domainTag : U8) : U8 :=
  let i := BitVec.ofNat 8 index
  i * 0x5B + rotl8 i 3 + domainTag

/-- `forward_cross_symbol`. -/
def forwardCrossSymbol (key : ResearchKey256) (index : Fin 32) : U8 :=
  key.get index ^^^ rotl8 (key.get (index + 11)) (index.val % 7 + 1)
    ^^^ (rotl8 (key.get (index + 23)) 3 + positionMask index 0x31)

/-- `return_symbol`. -/
def keyReturnSymbol (key : ResearchKey256) (reverseIndex : Fin 32) : U8 :=
  let index := reverseIndex.rev
  (key.get index + rotl8 (key.get (index + 7)) 3 + rotl8 (key.get (index + 19)) 5)
    ^^^ positionMask reverseIndex 0x72

/-- `seal_symbol`. -/
def keySealSymbol (key : ResearchKey256) (index : Fin 16) : U8 :=
  let i : Fin 32 := index.castLE (by decide)
  (key.get i + rotl8 (key.get (i + 16)) 1 + rotl8 (key.get (i + 5)) 4)
    ^^^ rotl8 (key.get (i + 27)) 6 ^^^ positionMask index 0x9C

/-- `key_header`. -/
def keyHeader : List U8 := [0x50, 0x56, 0x43, 0x31, 0x4B, 0x45, 0x59, 0x20]

/-- The eleven counts of an evaluation, with the default arguments of
`research_keyed_return_output_a2` and `research_keyed_return_output_b`. -/
structure EvaluationProfile : Type where
  forwardMoves : ℕ := 8
  returnProfile : ReturnProfile := {}
  finalMoves : ℕ := 4
  squeezeMoves : ℕ := 2
  keyProfile : KeyScheduleProfile := {}

/-! ## The evaluations of a controller -/

namespace Engine

variable {C D : Type} (engine : Engine C D)

/-- The common form of `absorb_key_a2` and `absorb_key_b`. -/
def absorbKey (key : ResearchKey256) (profile : KeyScheduleProfile) (trace : Bool) :
    C1Run C D PUnit := do
  engine.enterDomain .keyForward 32
  engine.absorbSequence keyHeader .keyForward profile.forwardMoves trace
  forM (List.finRange 32) fun (i : Fin 32) =>
    engine.absorbSequence [key.get i ^^^ positionMask i 0xA5, forwardCrossSymbol key i] .keyForward
      profile.forwardMoves trace
  engine.enterDomain .keyReturn 32
  forM (List.finRange 32) fun (i : Fin 32) =>
    engine.absorbSymbol (keyReturnSymbol key i) .keyReturn profile.returnMoves trace
  engine.enterDomain .keySeal 256
  forM (List.finRange 16) fun (i : Fin 16) =>
    engine.absorbSymbol (keySealSymbol key i) .keySeal profile.sealMoves trace
  C1Run.modifyWorking fun s => { s with symbolIndex := 0 }

/-- The common form of `make_keyed_state_a2` and `make_keyed_state_b`. -/
def makeKeyedState (key : ResearchKey256) (profile : KeyScheduleProfile) (trace : Bool) :
    C1Run C D PUnit := do
  lift (validateKeyScheduleProfile profile)
  let state ← lift (engine.initial kPublicBootstrapSeed)
  C1Run.modifyWorking fun _ => state
  C1Run.recordPoint
  engine.absorbKey key profile trace

/-- The common form of `evaluate_keyed_a2` and `evaluate_keyed_b`. -/
def evaluateKeyed (key : ResearchKey256) (message : List U8) (movesPerSymbol : ℕ)
    (profile : KeyScheduleProfile) : C1Run C D PUnit := do
  engine.makeKeyedState key profile false
  engine.enterDomain .inputForward (BitVec.ofNat 64 message.length)
  engine.absorbSequence message .inputForward movesPerSymbol false

/-- The common form of `evaluate_keyed_return_a2` and `evaluate_keyed_return_b`. -/
def evaluateKeyedReturn (rules : ReturnRules C) (key : ResearchKey256) (message : List U8)
    (forwardMoves : ℕ) (returnProfile : ReturnProfile) (keyProfile : KeyScheduleProfile)
    (returnTrace : Bool) : C1Run C D PUnit := do
  engine.evaluateKeyed key message forwardMoves keyProfile
  engine.transcriptReturn rules message returnProfile returnTrace

/-- The common form of `research_keyed_return_output_a2` and
`research_keyed_return_output_b`. -/
def keyedReturnOutput (returnRules : ReturnRules C) (outputRules : OutputRules C)
    (key : ResearchKey256) (message : List U8) (profile : EvaluationProfile) :
    C1Run C D ResearchOutput := do
  engine.evaluateKeyedReturn returnRules key message profile.forwardMoves profile.returnProfile
    profile.keyProfile false
  engine.boundOutput outputRules (BitVec.ofNat 64 message.length) profile.finalMoves
    profile.squeezeMoves

end Engine

/-! ## The two pipelines -/

/-- `make_keyed_state_a2`. -/
abbrev makeKeyedStateA2 (key : ResearchKey256) (profile : KeyScheduleProfile) (trace : Bool) :
    A2Run PUnit :=
  engineA2.makeKeyedState key profile trace

/-- `research_keyed_return_output_a2`, as a run on the objects of an evaluation. -/
abbrev researchKeyedReturnOutputA2 (key : ResearchKey256) (message : List U8)
    (profile : EvaluationProfile) : A2Run ResearchOutput :=
  engineA2.keyedReturnOutput returnRulesA2 outputRulesA2 key message profile

/-- `research_keyed_return_output_b`, as a run on the objects of an evaluation. -/
abbrev researchKeyedReturnOutputB (key : ResearchKey256) (message : List U8)
    (profile : EvaluationProfile) : BRun ResearchOutput :=
  engineB.keyedReturnOutput returnRulesB outputRulesB key message profile

/-- The objects before an A2 evaluation: a default `WorkingState`, an empty trace
vector and no history. -/
def freshMachineA2 : Machine ControllerState MoveDecision :=
  ⟨⟨Cube.perfect, ⟨0, 0, 0⟩, .X, ⟨0, 0, 0, 0⟩, 0⟩, [], [], [], []⟩

/-- The objects before a prototype-B evaluation. -/
def freshMachineB : Machine ControllerStateB MoveDecisionB :=
  ⟨⟨Cube.perfect, ⟨0, 0, 0⟩, .X, ⟨#v[0, 0, 0, 0], 0⟩, 0⟩, [], [], [], []⟩

/-- What a run on the given objects returns to its caller. -/
def C1Run.returned {C D α : Type} (x : C1Run C D α) (m : Machine C D) : Except Fault α :=
  match x.run m with
  | .ok a _ => .ok a
  | .error fault _ => .error fault

/-- What `research_keyed_return_output_a2` returns to its caller, with the default
profile: Candidate C1.  Irreducible, so that nothing above looks inside it. -/
@[irreducible] def c1 (key : ResearchKey256) (message : List U8) : Except Fault ResearchOutput :=
  (researchKeyedReturnOutputA2 key message {}).returned freshMachineA2
