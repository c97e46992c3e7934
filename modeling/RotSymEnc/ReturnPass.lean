/-
# The transcript return

`return_pass.cpp`: after the forward pass, a snapshot of the whole state seeds
sixteen symbols, the message is absorbed backwards, and eight symbols seal the
pass.  The two controllers share the pass and differ in how symbols are derived.
-/
import RotSymEnc.Controller
import RotSymEnc.ControllerB

open StatefulRuns

/-! ## Profiles and selectors -/

/-- `struct ReturnProfile`, with its defaults. -/
structure ReturnProfile : Type where
  initSymbols : ℕ := 16
  initMoves : ℕ := 4
  messageMoves : ℕ := 8
  sealSymbols : ℕ := 8
  sealMoves : ℕ := 4
  deriving DecidableEq

/-- The bound every count of a profile is checked against. -/
def CountOk (value : ℕ) : Prop := value > 0 ∧ value ≤ 255

instance (value : ℕ) : Decidable (CountOk value) :=
  inferInstanceAs (Decidable (value > 0 ∧ value ≤ 255))

/-- The condition of `validate_profile(const ReturnProfile&)`. -/
def ReturnProfile.Valid (profile : ReturnProfile) : Prop :=
  CountOk profile.initSymbols ∧ CountOk profile.initMoves ∧ CountOk profile.messageMoves
    ∧ CountOk profile.sealSymbols ∧ CountOk profile.sealMoves

instance (profile : ReturnProfile) : Decidable profile.Valid :=
  inferInstanceAs (Decidable (_ ∧ _ ∧ _ ∧ _ ∧ _))

/-- `validate_profile(const ReturnProfile&)`. -/
def validateReturnProfile (profile : ReturnProfile) : Except Fault PUnit :=
  if profile.Valid then .ok ()
  else .error (.thrown .invalidArgument "return profile values must be in [1,255]")

/-- `coord_from_selector`. -/
def coordFromSelector (selector index : U64) (lane : ℕ) : Coord :=
  let mixed := rotl64 (selector + (index + 1) * 0x9E3779B185EBCA87
    + BitVec.ofNat 64 (lane + 1) * 0xD1342543DE82EF95)
    (index * 11 + BitVec.ofNat 64 (lane * 17)).toNat
  ⟨u8 (mixed &&& 7), u8 ((mixed >>> 21) &&& 7), u8 ((mixed >>> 43) &&& 7)⟩

/-- `controller_bytes(const ControllerState&)`, and `controller_bytes_a2`. -/
def controllerBytesA2 (c : ControllerState) : Vector U8 16 :=
  #v[byte16 c.axisControl 0, byte16 c.axisControl 1,
    byte16 c.amountControl 0, byte16 c.amountControl 1,
    byte32 c.feedback 0, byte32 c.feedback 1, byte32 c.feedback 2, byte32 c.feedback 3,
    byte64 c.transcript 0, byte64 c.transcript 1, byte64 c.transcript 2, byte64 c.transcript 3,
    byte64 c.transcript 4, byte64 c.transcript 5, byte64 c.transcript 6, byte64 c.transcript 7]

/-- `controller_bytes(const ControllerStateB&)`, and `controller_bytes_b`. -/
def controllerBytesB (c : ControllerStateB) : Vector U8 24 :=
  #v[byte32 (c.lane.get 0) 0, byte32 (c.lane.get 0) 1,
    byte32 (c.lane.get 0) 2, byte32 (c.lane.get 0) 3,
    byte32 (c.lane.get 1) 0, byte32 (c.lane.get 1) 1,
    byte32 (c.lane.get 1) 2, byte32 (c.lane.get 1) 3,
    byte32 (c.lane.get 2) 0, byte32 (c.lane.get 2) 1,
    byte32 (c.lane.get 2) 2, byte32 (c.lane.get 2) 3,
    byte32 (c.lane.get 3) 0, byte32 (c.lane.get 3) 1,
    byte32 (c.lane.get 3) 2, byte32 (c.lane.get 3) 3,
    byte64 c.path 0, byte64 c.path 1, byte64 c.path 2, byte64 c.path 3,
    byte64 c.path 4, byte64 c.path 5, byte64 c.path 6, byte64 c.path 7]

/-- The entry of a byte array a `size_t` selects modulo its size. -/
def byteMod {n : ℕ} [NeZero n] (bytes : Vector U8 n) (index : U64) : U8 :=
  bytes[Fin.ofNat n index.toNat]

/-- The low byte of an affine function of a loop counter. -/
def affineByte (index : U64) (factor offset : U8) : U8 := u8 index * factor + offset

/-- `geometry` of `init_symbol_a2` and `init_symbol_b`: the two probe coordinates
and the previous axis, weighted. -/
def geometryByte (c0 c1 : Coord) (axis : Axis) (w0 w1 w2 w3 w4 w5 w6 : U8) : U8 :=
  c0.x * w0 + c0.y * w1 + c0.z * w2 + c1.x * w3 + c1.y * w4 + c1.z * w5
    + BitVec.ofNat 8 (axisCode axis) * w6

/-! ## The symbols of the pass -/

/-- `init_symbol_a2`. -/
def initSymbolA2 (snapshot : WorkingState) (messageLength index : U64) : AccessRun U8 := do
  let bytes := controllerBytesA2 snapshot.controller
  let selector := snapshot.controller.transcript ^^^ (u64 snapshot.controller.feedback <<< 17)
    ^^^ (u64 snapshot.controller.axisControl <<< 49)
    ^^^ (u64 snapshot.controller.amountControl <<< 3)
    ^^^ rotl64 messageLength (index + 7).toNat ^^^ snapshot.symbolIndex
  let c0 := coordFromSelector selector index 0
  let c1 := coordFromSelector (rotl64 selector 29) index 1
  let p0 ← unchecked snapshot.cube c0
  let p1 ← unchecked snapshot.cube c1
  let geometry := geometryByte c0 c1 snapshot.previousAxis 3 5 7 11 13 17 19
  return byteMod bytes index ^^^ rotl8 (byteMod bytes (index * 7 + 5)) index.toNat
    ^^^ (p0 + rotl8 p1 (index + 3).toNat) ^^^ byte64 messageLength index.toNat
    ^^^ geometry ^^^ affineByte index 0x5B 0xD3

/-- `init_symbol_b`. -/
def initSymbolB (snapshot : WorkingStateB) (messageLength index : U64) : AccessRun U8 := do
  let bytes := controllerBytesB snapshot.controller
  let selector := snapshot.controller.path ^^^ (u64 (snapshot.controller.lane.get 0) <<< 32)
    ^^^ u64 (snapshot.controller.lane.get 3) ^^^ rotl64 messageLength (index + 11).toNat
    ^^^ snapshot.symbolIndex
  let c0 := coordFromSelector selector index 2
  let c1 := coordFromSelector (rotl64 selector 37) index 3
  let p0 ← unchecked snapshot.cube c0
  let p1 ← unchecked snapshot.cube c1
  let geometry := geometryByte c0 c1 snapshot.previousAxis 5 7 11 13 17 19 23
  return byteMod bytes index ^^^ rotl8 (byteMod bytes (index * 11 + 7)) (index + 1).toNat
    ^^^ (rotl8 p0 1 + rotl8 p1 (index + 5).toNat) ^^^ byte64 messageLength (index + 2).toNat
    ^^^ geometry ^^^ affineByte index 0x6D 0xB7

/-- `return_symbol_a2`. -/
def returnSymbolA2 (snapshot current : WorkingState) (messageByte : U8)
    (messageLength reverseIndex : U64) : AccessRun U8 := do
  let bytes := controllerBytesA2 snapshot.controller
  let selector := current.controller.transcript ^^^ rotl64 snapshot.controller.transcript 23
    ^^^ (u64 current.controller.feedback <<< 29) ^^^ (reverseIndex * 0xA0761D6478BD642F)
  let probe ← unchecked current.cube (coordFromSelector selector reverseIndex 4)
  return messageByte ^^^ byteMod bytes (reverseIndex * 5 + 3) ^^^ rotl8 probe reverseIndex.toNat
    ^^^ byte64 messageLength (reverseIndex + 3).toNat ^^^ affineByte reverseIndex 0x3D 0xC6

/-- `return_symbol_b`. -/
def returnSymbolB (snapshot current : WorkingStateB) (messageByte : U8)
    (messageLength reverseIndex : U64) : AccessRun U8 := do
  let bytes := controllerBytesB snapshot.controller
  let selector := current.controller.path ^^^ rotl64 snapshot.controller.path 31
    ^^^ (u64 (current.controller.lane.get 1) <<< 32) ^^^ u64 (current.controller.lane.get 2)
    ^^^ (reverseIndex * 0xE7037ED1A0B428DB)
  let probe ← unchecked current.cube (coordFromSelector selector reverseIndex 5)
  return messageByte ^^^ byteMod bytes (reverseIndex * 7 + 5)
    ^^^ rotl8 probe (reverseIndex + 2).toNat
    ^^^ byte64 messageLength (reverseIndex + 5).toNat ^^^ affineByte reverseIndex 0x47 0xC6

/-- `seal_symbol_a2`. -/
def sealSymbolA2 (snapshot current : WorkingState) (messageLength index : U64) :
    AccessRun U8 := do
  let oldBytes := controllerBytesA2 snapshot.controller
  let newBytes := controllerBytesA2 current.controller
  let selector := current.controller.transcript ^^^ rotl64 snapshot.controller.transcript 41
    ^^^ (index * 0x8EBC6AF09C88C6E3)
  let probe ← unchecked current.cube (coordFromSelector selector index 6)
  return byteMod oldBytes (index * 3 + 1) ^^^ byteMod newBytes (index * 11 + 7) ^^^ probe
    ^^^ byte64 messageLength (index + 1).toNat ^^^ affineByte index 0x71 0x8B

/-- `seal_symbol_b`. -/
def sealSymbolB (snapshot current : WorkingStateB) (messageLength index : U64) :
    AccessRun U8 := do
  let oldBytes := controllerBytesB snapshot.controller
  let newBytes := controllerBytesB current.controller
  let selector := current.controller.path ^^^ rotl64 snapshot.controller.path 47
    ^^^ (index * 0x589965CC75374CC3)
  let probe ← unchecked current.cube (coordFromSelector selector index 7)
  return byteMod oldBytes (index * 5 + 2) ^^^ byteMod newBytes (index * 13 + 9)
    ^^^ rotl8 probe (index + 1).toNat
    ^^^ byte64 messageLength (index + 4).toNat ^^^ affineByte index 0x79 0x8B

/-! ## The pass -/

/-- The parts in which the two transcript returns differ. -/
structure ReturnRules (C : Type) : Type where
  fingerprint : WorkingStateOf C → U64
  /-- The lane the boundaries are chained through. -/
  chain : C → U64
  lengthFactor : U64
  inputRotation : ℕ
  sealRotation : ℕ
  initSymbol : WorkingStateOf C → U64 → U64 → AccessRun U8
  returnSymbol : WorkingStateOf C → WorkingStateOf C → U8 → U64 → U64 → AccessRun U8
  sealSymbol : WorkingStateOf C → WorkingStateOf C → U64 → U64 → AccessRun U8

/-- The boundary value a transcript return derives from the forward state. -/
def ReturnRules.boundary {C : Type} (rules : ReturnRules C) (snapshot : WorkingStateOf C)
    (messageLength : U64) : U64 :=
  rules.fingerprint snapshot ^^^ (messageLength * rules.lengthFactor) ^^^ snapshot.symbolIndex

/-- The common form of `apply_transcript_return_a2` and `apply_transcript_return_b`. -/
def Engine.transcriptReturn {C D : Type} (engine : Engine C D) (rules : ReturnRules C)
    (message : List U8) (profile : ReturnProfile) (trace : Bool) : C1Run C D PUnit := do
  lift (validateReturnProfile profile)
  let snapshot ← C1Run.working
  let messageLength := BitVec.ofNat 64 message.length
  let boundary := rules.boundary snapshot messageLength
  engine.enterDomain .returnInit boundary
  forM (List.range profile.initSymbols) fun (i : ℕ) => do
    let symbol ← C1Run.reading (rules.initSymbol snapshot messageLength (BitVec.ofNat 64 i))
    engine.absorbSymbol symbol .returnInit profile.initMoves trace
  engine.enterDomain .inputReturn
    (boundary ^^^ rotl64 (rules.chain snapshot.controller) rules.inputRotation)
  forM (List.finRange message.length) fun (i : Fin message.length) => do
    let messageByte := message.get i.rev
    let current ← C1Run.working
    let symbol ← C1Run.reading
      (rules.returnSymbol snapshot current messageByte messageLength (BitVec.ofNat 64 i))
    engine.absorbSymbol symbol .inputReturn profile.messageMoves trace
  let current ← C1Run.working
  engine.enterDomain .returnSeal
    (boundary ^^^ rotl64 (rules.chain current.controller) rules.sealRotation)
  forM (List.range profile.sealSymbols) fun (i : ℕ) => do
    let current ← C1Run.working
    let symbol ← C1Run.reading
      (rules.sealSymbol snapshot current messageLength (BitVec.ofNat 64 i))
    engine.absorbSymbol symbol .returnSeal profile.sealMoves trace

/-- The transcript return of A2. -/
def returnRulesA2 : ReturnRules ControllerState where
  fingerprint := stateFingerprint
  chain := ControllerState.transcript
  lengthFactor := 0x9E3779B185EBCA87
  inputRotation := 17
  sealRotation := 43
  initSymbol := initSymbolA2
  returnSymbol := returnSymbolA2
  sealSymbol := sealSymbolA2

/-- The transcript return of prototype B. -/
def returnRulesB : ReturnRules ControllerStateB where
  fingerprint := stateFingerprintB
  chain := ControllerStateB.path
  lengthFactor := 0xD1342543DE82EF95
  inputRotation := 19
  sealRotation := 41
  initSymbol := initSymbolB
  returnSymbol := returnSymbolB
  sealSymbol := sealSymbolB

/-- `apply_transcript_return_a2`. -/
abbrev applyTranscriptReturnA2 (message : List U8) (profile : ReturnProfile) (trace : Bool) :
    A2Run PUnit :=
  engineA2.transcriptReturn returnRulesA2 message profile trace

/-- `apply_transcript_return_b`. -/
abbrev applyTranscriptReturnB (message : List U8) (profile : ReturnProfile) (trace : Bool) :
    BRun PUnit :=
  engineB.transcriptReturn returnRulesB message profile trace
