/-
# The A2 controller

`controller.cpp`: the 128-bit controller of Candidate C1, its symbol injection,
the amount mapper, and the one move a symbol phase makes.
-/
import RotSymEnc.WorkingState

open StatefulRuns

/-! ## Controller state -/

/-- `struct ControllerState`. -/
structure ControllerState : Type where
  axisControl : U16
  amountControl : U16
  feedback : U32
  transcript : U64
  deriving DecidableEq, Repr

/-- `struct WorkingState`. -/
abbrev WorkingState := WorkingStateOf ControllerState

/-- `struct MoveDecision`. -/
structure MoveDecision : Type where
  axis : Axis
  amount : U8
  axisWord : U16
  amountWord : U16
  axisSelectorBit : U8
  amountSlot : U8
  amountPermutationSeed : U16
  amountPermutation : Vector U8 7
  probes : ProbeSet
  deriving DecidableEq

/-- `struct MoveTrace`. -/
abbrev MoveTrace := MoveTraceOf ControllerState MoveDecision

/-- A call on the objects of an A2 evaluation. -/
abbrev A2Run := C1Run ControllerState MoveDecision

/-! ## Folds -/

/-- `fold64_to16`. -/
def fold64To16 (value : U64) : U16 :=
  let mixed := value ^^^ rotl64 value 13 ^^^ rotl64 value 37
  u16 (mixed ^^^ (mixed >>> 16) ^^^ (mixed >>> 32) ^^^ (mixed >>> 48))

/-- `fold64_to32`. -/
def fold64To32 (value : U64) : U32 :=
  let mixed := value ^^^ rotl64 value 17 ^^^ rotl64 value 43
  u32 (mixed ^^^ (mixed >>> 32))

/-- `fold32_to16`. -/
def fold32To16 (value : U32) : U16 :=
  let mixed := value ^^^ rotl32 value 7 ^^^ rotl32 value 19
  u16 (mixed ^^^ (mixed >>> 16))

/-- `coord_from_words`: a probe coordinate from the cursor and three words. -/
def coordFromWords (cursor : Coord) (control : U16) (feedback : U32) (transcript : U64)
    (phase domain : U8) (lane : ℕ) : Coord :=
  let c0 := u8 control
  let c1 := u8 (control >>> 8)
  let f0 := byte32 feedback lane
  let f1 := byte32 feedback (lane + 1)
  let t0 := byteAt transcript lane
  let t1 := byteAt transcript (lane + 3)
  let x := u32 cursor.x + u32 c0 + u32 f0 + u32 t1 + u32 phase + BitVec.ofNat 32 (3 * lane)
  let y := u32 cursor.y + u32 c1 + u32 f1 + u32 t0 + 2 * u32 phase + BitVec.ofNat 32 (5 * lane)
  let z := u32 cursor.z + u32 (c0 >>> 3) + u32 (c1 >>> 2) + u32 (f0 >>> 1) + u32 domain
    + 3 * u32 phase + BitVec.ofNat 32 (7 * lane)
  ⟨u8 (x &&& 7), u8 (y &&& 7), u8 (z &&& 7)⟩

/-! ## The amount mapper -/

/-- `add_constants` of `amount_mix_round`. -/
def addConstants : Vector U8 6 := #v[0x3D, 0xA7, 0x61, 0xC9, 0x17, 0xE3]

/-- `multiply_constants` of `amount_mix_round`. -/
def multiplyConstants : Vector U8 6 := #v[0xB5, 0x6D, 0xD3, 0x9B, 0xF5, 0x7D]

/-- `amount_mix_round`. -/
def amountMixRound (right : U8) (round : Fin 6) : U8 :=
  let value := right + addConstants[round]
  let value := value * multiplyConstants[round]
  let value := value ^^^ rotl8 value 1
  let value := value + rotl8 right 3 + BitVec.ofNat 8 (round.val * 29 + 11)
  let value := value ^^^ (value >>> 3)
  rotl8 value (round.val + 1)

/-- `amount_seed_permutation`: six Feistel rounds. -/
def amountSeedPermutation (seed : U16) : U16 :=
  let halves := (List.finRange 6).foldl
    (fun halves round => (halves.2, halves.1 ^^^ amountMixRound halves.2 round))
    (u8 (seed >>> 8), u8 seed)
  (u16 halves.1 <<< 8) ||| u16 halves.2

/-- An array read at a computed index. -/
def arrayAt {α : Type} {n : ℕ} (array : Vector α n) (i : ℕ) : Except Fault α :=
  if h : i < n then .ok array[i] else .error .badAccess

/-- An array write at a computed index. -/
def arraySet {α : Type} {n : ℕ} (array : Vector α n) (i : ℕ) (value : α) :
    Except Fault (Vector α n) :=
  if h : i < n then .ok (array.set i value) else .error .badAccess

/-- The variables of the loop in `amount_permutation`. -/
structure RankDecoder : Type where
  rank : U32
  pool : Vector U8 7
  remaining : ℕ
  output : Vector U8 7

/-- `factorial` of `amount_permutation`. -/
def factorialTable : Vector U32 7 := #v[1, 1, 2, 6, 24, 120, 720]

/-- A position of the loop is an index of the output. -/
theorem position_lt (position : Fin 7) : position.val < 7 := position.isLt

/-- One position of the loop in `amount_permutation`: the next factorial digit
of the rank selects an entry of the pool, and the entries behind it close up. -/
def decodePosition (d : RankDecoder) (position : Fin 7) : Except Fault RankDecoder := do
  let block ← arrayAt factorialTable (d.remaining - 1)
  let index := (d.rank / block).toNat
  let chosen ← arrayAt d.pool index
  let pool ← (List.range' index (d.remaining - 1 - index)).foldlM
    (fun pool j => do arraySet pool j (← arrayAt pool (j + 1))) d.pool
  return ⟨d.rank % block, pool, d.remaining - 1,
    d.output.set position chosen (position_lt position)⟩

/-- `amount_permutation`: the rank is the mixed seed scaled to `7!`. -/
def amountPermutation (seed : U16) : Except Fault (Vector U8 7) := do
  let mixed := amountSeedPermutation seed
  let rank := (u32 mixed * 5040) >>> 16
  let d ← (List.finRange 7).foldlM decodePosition
    ⟨rank, #v[1, 2, 3, 4, 5, 6, 7], 7, Vector.replicate 7 0⟩
  return d.output

/-! ## Line feedback -/

/-- `positional_line_feedback`. -/
def positionalLineFeedback (before after : Vector U8 8) (axis : Axis) (amount phase : U8)
    (cursorAfter : Coord) : U32 :=
  let start := u32 (coordinateWord cursorAfter) ||| (BitVec.ofNat 32 (axisCode axis) <<< 16)
    ||| (u32 amount <<< 20) ||| (u32 phase <<< 24)
  (List.finRange 8).foldl (fun (value : U32) (i : Fin 8) =>
    let partner := Fin.ofNat 8 (i.val + amount.toNat + axisCode axis + phase.toNat)
    let lane := u32 (before.get i) ||| (u32 (after.get partner) <<< 8)
      ||| (BitVec.ofNat 32 (i.val * 29 + partner.val * 17) <<< 16)
    rotl32 (value ^^^ lane) (3 + i.val + amount.toNat)
      + rotl32 (lane + 0x01010101 * BitVec.ofNat 32 (i.val + 1)) (1 + partner.val)) start

/-! ## Symbol injection -/

/-- `inject_symbol`. -/
def injectSymbol (state : WorkingState) (symbol : U8) (domain : Domain) : ControllerState :=
  let dc := domainCode domain
  let indexLow := u16 state.symbolIndex
  let indexFold := u16 (state.symbolIndex ^^^ (state.symbolIndex >>> 16)
    ^^^ (state.symbolIndex >>> 32))
  let c := state.controller
  let symbolWord := u16 symbol ||| (u16 (rotl8 symbol 3) <<< 8)
  let domainWord := u16 dc ||| (u16 (rotl8 dc 5) <<< 8)
  let transcriptFold := fold64To16 c.transcript
  let transcriptWideFold := fold64To32 c.transcript
  let feedbackAxisFold := fold32To16 c.feedback
  let feedbackAmountFold := fold32To16 (rotl32 c.feedback 11)
  let axisControl :=
    rotl16 (c.axisControl ^^^ symbolWord ^^^ indexFold ^^^ feedbackAxisFold)
      (3 + (state.symbolIndex &&& 7).toNat)
    + rotl16 transcriptFold (1 + (state.symbolIndex &&& 15).toNat)
    + coordinateWord state.cursor + domainWord
  let amountControl :=
    rotl16 (c.amountControl + symbolWord + indexLow)
      (5 + ((state.symbolIndex >>> 1) &&& 7).toNat)
    ^^^ u16 (c.feedback >>> 16) ^^^ feedbackAmountFold ^^^ rotl16 axisControl 7
    ^^^ rotl16 transcriptFold (9 + ((symbol ^^^ dc) &&& 7).toNat) ^^^ (domainWord + 0x4B39)
  let event := u32 symbolWord ||| (u32 domainWord <<< 16)
  let feedback :=
    rotl32 (c.feedback ^^^ event ^^^ u32 (coordinateWord state.cursor) ^^^ transcriptWideFold)
      (7 + (state.symbolIndex &&& 15).toNat)
    + u32 axisControl * 257 + u32 amountControl * 263
  let wideEvent := u64 event ||| (u64 indexFold <<< 32)
    ||| (u64 (coordinateWord state.cursor) <<< 48)
  let transcript :=
    rotl64 (c.transcript ^^^ wideEvent) (11 + ((dc ^^^ symbol) &&& 31).toNat)
    + rotl64 ((u64 feedback <<< 16) ||| u64 axisControl) 23
    + u64 amountControl * 0x0001000100010001
  ⟨axisControl, amountControl, feedback, transcript⟩

/-! ## Initial state and domain entry -/

/-- `make_initial_state`. -/
def makeInitialState (researchSeed : U64) : Except Fault WorkingState := do
  let d := Cube.perfectBodyDiagonals
  let seedLo := u32 researchSeed
  let seedHi := u32 (researchSeed >>> 32)
  let cursor : Coord :=
    ⟨u8 ((researchSeed ^^^ u64 d[3]) &&& 7),
      u8 (((researchSeed >>> 11) ^^^ u64 d[12]) &&& 7),
      u8 (((researchSeed >>> 23) ^^^ u64 d[21]) &&& 7)⟩
  let previousAxis ← Axis.ofCode ((researchSeed + u64 d[7]) % 3).toNat
  let axisControl := u16 researchSeed ^^^ (u16 d[0] <<< 8) ^^^ u16 d[9] ^^^ 0x6D35
  let amountControl := u16 (researchSeed >>> 16) ^^^ (u16 d[17] <<< 8) ^^^ u16 d[26] ^^^ 0xB7E1
  let feedback := rotl32 (seedLo ^^^ 0xD1A56E2B) 9 + rotl32 (seedHi ^^^ 0x3C8F725D) 17
    + u32 (coordinateWord cursor)
  let transcript := rotl64 (researchSeed ^^^ 0x6B5D39A7C2E14F83) 19 + (u64 feedback <<< 16)
    + u64 axisControl + (u64 amountControl <<< 48)
  return ⟨Cube.perfect, cursor, previousAxis,
    ⟨axisControl, amountControl, feedback, transcript⟩, 0⟩

/-- The controller after `enter_domain`, from the diagonals of the cube. -/
def enteredController (c : ControllerState) (diagonals : Vector U8 32) (domain : Domain)
    (sequenceLength : U64) : ControllerState :=
  let dc := domainCode domain
  let i0 := Fin.ofNat 32 (u64 c.feedback ^^^ sequenceLength ^^^ u64 dc).toNat
  let i1 := Fin.ofNat 32 ((c.transcript >>> 13) + u64 dc * 7).toNat
  let i2 := Fin.ofNat 32 ((c.transcript >>> 37) + u64 dc * 11).toNat
  let d0 := diagonals[i0]
  let d1 := diagonals[i1]
  let d2 := diagonals[i2]
  let lengthWord := u16 (sequenceLength ^^^ (sequenceLength >>> 16) ^^^ (sequenceLength >>> 32))
  let domainWord := u16 dc ||| (u16 (rotl8 dc 3) <<< 8)
  let axisControl :=
    rotl16 (c.axisControl ^^^ lengthWord ^^^ ((u16 d0 <<< 8) ||| u16 d1)) (5 + (dc &&& 7).toNat)
    + u16 c.transcript + domainWord
  let amountControl :=
    rotl16 (c.amountControl + lengthWord + ((u16 d1 <<< 8) ||| u16 d2))
      (9 + ((dc >>> 2) &&& 7).toNat)
    ^^^ u16 (c.feedback >>> 16) ^^^ rotl16 c.axisControl 3 ^^^ (domainWord + 0x2F6B)
  let boundary := u32 d0 ||| (u32 d1 <<< 8) ||| (u32 d2 <<< 16) ||| (u32 dc <<< 24)
  let feedback := rotl32 (c.feedback ^^^ boundary) (11 + (dc &&& 15).toNat)
    + u32 axisControl * 269 + u32 amountControl * 271 + u32 sequenceLength
  let transcript :=
    rotl64 (c.transcript ^^^ sequenceLength ^^^ (u64 boundary <<< 17)) (17 + (dc &&& 31).toNat)
    + (u64 feedback <<< 29) + (u64 axisControl <<< 7) + u64 amountControl
  ⟨axisControl, amountControl, feedback, transcript⟩

/-! ## Moves -/

/-- The probes of `preview_move`: four coordinates from the injected controller,
and the bytes of the cube there. -/
def readProbes (state : WorkingState) (injected : ControllerState) (domain : Domain)
    (phase : U8) : AccessRun ProbeSet := do
  let dc := domainCode domain
  let axisCoord0 := coordFromWords state.cursor injected.axisControl injected.feedback
    injected.transcript phase dc 0
  let axisCoord1 := coordFromWords state.cursor (rotl16 injected.axisControl 7)
    (rotl32 injected.feedback 11) (rotl64 injected.transcript 19) phase dc 3
  let amountCoord0 := coordFromWords state.cursor injected.amountControl
    (rotl32 injected.feedback 17) (rotl64 injected.transcript 29) phase dc 5
  let amountCoord1 := coordFromWords state.cursor (rotl16 injected.amountControl 9)
    (rotl32 injected.feedback 23) (rotl64 injected.transcript 41) phase dc 7
  let axisProbe0 ← unchecked state.cube axisCoord0
  let axisProbe1 ← unchecked state.cube axisCoord1
  let amountProbe0 ← unchecked state.cube amountCoord0
  let amountProbe1 ← unchecked state.cube amountCoord1
  return ⟨axisCoord0, axisCoord1, amountCoord0, amountCoord1,
    axisProbe0, axisProbe1, amountProbe0, amountProbe1⟩

/-- The slot of `preview_move`: three bits of a word, and where they are 7, a sum
reduced modulo 7. -/
def amountSlot (injected : ControllerState) (amountWord : U16) (probes : ProbeSet) (axis : Axis)
    (phase : U8) : U8 :=
  let slot := u8 ((amountWord ^^^ rotl16 injected.amountControl (probes.amountProbe0 &&& 15).toNat
    ^^^ (u16 probes.amountProbe1 * 257)
    ^^^ u16 (injected.feedback >>> ((phase &&& 1).toNat * 16))) &&& 7)
  if slot = 7 then
    let foldedSlot := u32 probes.amountProbe0 + u32 (rotl8 probes.amountProbe1 3)
      + u32 (byteAt injected.transcript (phase.toNat + 6)) + BitVec.ofNat 32 (axisCode axis)
      + u32 phase
    u8 (foldedSlot % 7)
  else slot

/-- The decision of `preview_move`, from the injected controller and the probes. -/
def decideMove (state : WorkingState) (injected : ControllerState) (probes : ProbeSet)
    (domain : Domain) (phase : U8) : Except Fault MoveDecision := do
  let dc := domainCode domain
  let axisPack := u16 probes.axisProbe0 ||| (u16 probes.axisProbe1 <<< 8)
  let axisWord :=
    rotl16 (injected.axisControl ^^^ axisPack)
      (1 + (phase.toNat + probes.axisProbe0.toNat) % 16)
    + u16 injected.feedback + coordinateWord state.cursor + (u16 dc * 193 + u16 phase * 71)
  let axisData := u8 axisWord ^^^ u8 (axisWord >>> 8) ^^^ rotl8 probes.axisProbe0 1
    ^^^ rotl8 probes.axisProbe1 5 ^^^ byteAt injected.transcript phase.toNat
  let axisBitIndex := (probes.axisProbe1.toNat
    + (byteAt injected.transcript (phase.toNat + 2)).toNat + phase.toNat + dc.toNat) % 8
  let controlBitIndex := (probes.axisProbe0.toNat + phase.toNat + dc.toNat) % 16
  let selectorBit := (axisData >>> axisBitIndex ^^^ u8 (injected.axisControl >>> controlBitIndex)
    ^^^ u8 (injected.feedback >>> ((axisBitIndex + 11) % 32))) &&& 1
  let axis := chooseOtherAxis state.previousAxis (selectorBit != 0)
  let amountPack := u16 probes.amountProbe0 ||| (u16 probes.amountProbe1 <<< 8)
  let amountWord :=
    rotl16 (injected.amountControl + amountPack + rotl16 injected.axisControl 5)
      (3 + (phase.toNat + probes.amountProbe1.toNat) % 16)
    ^^^ u16 (injected.feedback >>> 16)
    ^^^ (u16 (byteAt injected.transcript (phase.toNat + 4)) * 257)
    ^^^ (BitVec.ofNat 16 (axisCode axis) * 0x2D3B + u16 dc * 0x013D)
  let permSeed := amountWord
    ^^^ rotl16 (amountPack + coordinateWord state.cursor) (7 + axisCode axis)
    ^^^ u16 (injected.transcript >>> ((phase &&& 3).toNat * 16))
  let permutation ← amountPermutation permSeed
  let slot := amountSlot injected amountWord probes axis phase
  let amount ← arrayAt permutation slot.toNat
  return ⟨axis, amount, axisWord, amountWord, selectorBit, slot, permSeed, permutation, probes⟩

/-- `preview_move`. -/
def previewMove (state : WorkingState) (symbol : U8) (domain : Domain) (phase : U8) :
    AccessRun MoveDecision := do
  let injected := injectSymbol state symbol domain
  let probes ← readProbes state injected domain phase
  lift (decideMove state injected probes domain phase)

/-- The controller after `apply_move`, from the injected controller, the decision,
the line feedback, the new cursor and the two probes read after the rotation. -/
def movedController (injected : ControllerState) (decision : MoveDecision) (lineFeedback : U32)
    (cursor : Coord) (postAxisProbe postAmountProbe symbol : U8) (domain : Domain) (phase : U8) :
    ControllerState :=
  let dc := domainCode domain
  let amount := decision.amount.toNat
  let axis := axisCode decision.axis
  let event16 := u16 symbol ||| (u16 (phase ^^^ dc) <<< 8)
  let event32 := u32 event16 ||| (u32 (coordinateWord cursor) <<< 16)
  let feedback :=
    rotl32 (injected.feedback ^^^ lineFeedback ^^^ event32) (5 + amount + axis)
    + u32 decision.axisWord * 277 + u32 decision.amountWord * 281
    + u32 postAxisProbe * 0x01010101 + u32 postAmountProbe * 0x00010001
  let axisControl :=
    rotl16 (injected.axisControl + decision.axisWord + u16 feedback) (3 + amount)
    ^^^ rotl16 injected.amountControl (5 + axis) ^^^ (u16 postAxisProbe * 257) ^^^ event16
  let amountControl :=
    rotl16 (injected.amountControl ^^^ decision.amountWord ^^^ u16 (feedback >>> 16))
      (7 + axis + phase.toNat)
    + rotl16 injected.axisControl (9 + amount) + u16 postAmountProbe * 257
    + (coordinateWord cursor ^^^ event16)
  let event64 := u64 lineFeedback ||| (u64 event32 <<< 32)
  let transcript :=
    rotl64 (injected.transcript ^^^ event64) (13 + amount + 7 * axis)
    + rotl64 ((u64 feedback <<< 16) ||| u64 axisControl) 29
    + u64 amountControl * 0x0001000100010001
    + (u64 decision.probes.axisProbe0 <<< 7) + (u64 decision.probes.amountProbe0 <<< 47)
  ⟨axisControl, amountControl, feedback, transcript⟩

/-- The A2 controller. -/
def engineA2 : Engine ControllerState MoveDecision where
  initial := makeInitialState
  entered := enteredController
  inject := injectSymbol
  preview := previewMove
  axis := MoveDecision.axis
  amount := MoveDecision.amount
  probes := MoveDecision.probes
  lineFeedback := positionalLineFeedback
  moved := movedController

/-- `enter_domain`. -/
abbrev enterDomain (domain : Domain) (sequenceLength : U64) : A2Run PUnit :=
  engineA2.enterDomain domain sequenceLength

/-- `apply_move`. -/
abbrev applyMove (symbol : U8) (domain : Domain) (phase : U8) : A2Run MoveTrace :=
  engineA2.applyMove symbol domain phase

/-- `absorb_symbol`. -/
abbrev absorbSymbol (symbol : U8) (domain : Domain) (movesPerSymbol : ℕ) (trace : Bool) :
    A2Run PUnit :=
  engineA2.absorbSymbol symbol domain movesPerSymbol trace

/-- `absorb_sequence`. -/
abbrev absorbSequence (symbols : List U8) (domain : Domain) (movesPerSymbol : ℕ)
    (trace : Bool) : A2Run PUnit :=
  engineA2.absorbSequence symbols domain movesPerSymbol trace

/-- `state_fingerprint`. -/
def stateFingerprint (state : WorkingState) : U64 :=
  let start := state.controller.transcript ^^^ (u64 state.controller.feedback <<< 17)
    ^^^ (u64 state.controller.axisControl <<< 1) ^^^ (u64 state.controller.amountControl <<< 33)
    ^^^ (u64 (coordinateWord state.cursor) <<< 49) ^^^ state.symbolIndex
  (List.finRange 512).foldl (fun (value : U64) (i : Fin 512) =>
    rotl64 (value ^^^ u64 (state.cube.cells.get i) ^^^ BitVec.ofNat 64 (i.val * 131))
        (1 + i.val % 32)
      + u64 (state.cube.cells.get i) * BitVec.ofNat 64 (257 + 2 * i.val)) start
