/-
# Controller prototype B

`controller_b.cpp`: the four-lane comparator of the A2 controller.  Its axis and
its amount are the candidates with the smallest score.
-/
import RotSymEnc.WorkingState

open StatefulRuns

/-! ## Controller state -/

/-- `struct ControllerStateB`. -/
structure ControllerStateB : Type where
  lane : Vector U32 4
  path : U64
  deriving DecidableEq

/-- `struct WorkingStateB`. -/
abbrev WorkingStateB := WorkingStateOf ControllerStateB

/-- `struct MoveDecisionB`. -/
structure MoveDecisionB : Type where
  axis : Axis
  amount : U8
  axisScores : Vector U32 2
  amountScores : Vector U32 7
  candidateProbes : Vector U8 7
  probes : ProbeSet
  deriving DecidableEq

/-- `struct MoveTraceB`. -/
abbrev MoveTraceB := MoveTraceOf ControllerStateB MoveDecisionB

/-- A call on the objects of a prototype-B evaluation. -/
abbrev BRun := C1Run ControllerStateB MoveDecisionB

/-! ## Mixing -/

/-- `mix32`. -/
def mix32 (a b c : U32) (rotation : ℕ) : U32 :=
  let x := rotl32 (a + 0x9E3779B9 + c) rotation
  let x := x ^^^ rotl32 (b + 0x7F4A7C15) (rotation + 11)
  let x := x + rotl32 (c ^^^ 0xD1B54A35) (rotation + 19)
  let x := x ^^^ (x >>> 13)
  let x := x * 0x85EBCA6B
  x ^^^ (rotl32 x 7 ^^^ (x >>> 16))

/-- `fold64`. -/
def fold64 (value : U64) : U32 :=
  u32 (value ^^^ (value >>> 32) ^^^ rotl64 value 17 ^^^ rotl64 value 41)

/-- `coordinate_b`. -/
def coordinateB (cursor : Coord) (a b : U32) (path : U64) (phase dc : U8) (lane : ℕ) : Coord :=
  let p := fold64 (rotl64 path (lane * 9 + phase.toNat))
  let m0 := mix32 a b (p ^^^ u32 dc) (3 + lane)
  let m1 := mix32 b p (a ^^^ u32 phase) (11 + lane)
  ⟨u8 ((u32 cursor.x + (m0 &&& 7)) &&& 7),
    u8 ((u32 cursor.y + ((m0 >>> 11) &&& 7) + BitVec.ofNat 32 lane) &&& 7),
    u8 ((u32 cursor.z + ((m1 >>> 21) &&& 7) + u32 phase + u32 dc) &&& 7)⟩

/-- `line_feedback_b`. -/
def lineFeedbackB (before after : Vector U8 8) (axis : Axis) (amount phase : U8)
    (cursor : Coord) : U32 :=
  let start := u32 (coordinateWord cursor) ||| (BitVec.ofNat 32 (axisCode axis) <<< 16)
    ||| (u32 amount <<< 20) ||| (u32 phase <<< 24)
  (List.finRange 8).foldl (fun (value : U32) (i : Fin 8) =>
    let j := Fin.ofNat 8 (7 + amount.toNat + axisCode axis - i.val)
    let event := u32 (before.get i) ||| (u32 (after.get j) <<< 8)
      ||| (BitVec.ofNat 32 (i.val * 37 + j.val * 23) <<< 16)
    mix32 value event (BitVec.ofNat 32 (i.val + 1) * 0x01020408) (5 + i.val + amount.toNat)) start

/-- Lanes 0 and 2 as one word, and lanes 1 and 3: `left` and `right`. -/
def pairLanes (low high : U32) : U64 := u64 low ||| (u64 high <<< 32)

/-- `inject_symbol_b`. -/
def injectSymbolB (state : WorkingStateB) (symbol : U8) (domain : Domain) : ControllerStateB :=
  let dc := domainCode domain
  let index := state.symbolIndex
  let indexFold := u32 (index ^^^ (index >>> 32))
  let event0 := u32 symbol ||| (u32 (rotl8 symbol 3) <<< 8) ||| (u32 dc <<< 16)
    ||| (u32 (rotl8 dc 5) <<< 24)
  let event1 := indexFold ^^^ (u32 (coordinateWord state.cursor) <<< 11)
    ^^^ fold64 state.controller.path
  let old := state.controller.lane
  let lane0 := mix32 (old[0] + event0) (old[2] ^^^ event1) old[3] (5 + (index &&& 7).toNat)
  let lane1 := mix32 (old[1] ^^^ event1) (old[3] + event0) lane0 (11 + (symbol &&& 7).toNat)
  let lane2 := mix32 (old[2] + ~~~event0) (old[0] ^^^ rotl32 event1 9) lane1 (17 + (dc &&& 7).toNat)
  let lane3 := mix32 (old[3] ^^^ rotl32 event0 13) (old[1] + event1) lane2
    (23 + ((symbol ^^^ dc) &&& 7).toNat)
  let left := pairLanes lane0 lane2
  let right := pairLanes lane1 lane3
  let path := rotl64 (state.controller.path ^^^ left ^^^ (u64 event0 <<< 17))
      (19 + ((index + u64 dc) &&& 31).toNat)
    + rotl64 (right ^^^ u64 event1) 37 + 0xA0761D6478BD642F
  ⟨#v[lane0, lane1, lane2, lane3], path⟩

/-! ## Initial state and domain entry -/

/-- `make_initial_state_b`. -/
def makeInitialStateB (researchSeed : U64) : Except Fault WorkingStateB := do
  let d := Cube.perfectBodyDiagonals
  let cursor : Coord :=
    ⟨u8 ((researchSeed ^^^ u64 (d.get 2)) &&& 7),
      u8 (((researchSeed >>> 9) ^^^ u64 (d.get 15)) &&& 7),
      u8 (((researchSeed >>> 27) ^^^ u64 (d.get 28)) &&& 7)⟩
  let previousAxis ← Axis.ofCode ((researchSeed + u64 (d.get 19)) % 3).toNat
  let lo := u32 researchSeed
  let hi := u32 (researchSeed >>> 32)
  let lane0 := mix32 lo hi (0x243F6A88 ^^^ u32 (d.get 0)) 5
  let lane1 := mix32 hi lo (0x85A308D3 ^^^ u32 (d.get 9)) 11
  let lane2 := mix32 (lo ^^^ 0x13198A2E) (hi + u32 (d.get 18)) 0x03707344 17
  let lane3 := mix32 (hi ^^^ 0xA4093822) (lo + u32 (d.get 27)) 0x299F31D0 23
  let path := rotl64 (researchSeed ^^^ 0x082EFA98EC4E6C89) 29 + (u64 lane0 <<< 32) + u64 lane3
  return ⟨Cube.perfect, cursor, previousAxis, ⟨#v[lane0, lane1, lane2, lane3], path⟩, 0⟩

/-- The controller after `enter_domain_b`, from the diagonals of the cube. -/
def enteredControllerB (c : ControllerStateB) (d : Vector U8 32) (domain : Domain)
    (sequenceLength : U64) : ControllerStateB :=
  let dc := domainCode domain
  let old := c.lane
  let pathFold := fold64 (c.path ^^^ sequenceLength)
  let lengthFold := u32 (sequenceLength ^^^ (sequenceLength >>> 32))
  let lane := Vector.ofFn fun i : Fin 4 =>
    let p0 := d[Fin.ofNat 32 (u64 old[i] + BitVec.ofNat 64 (i.val * 7) + u64 dc).toNat]
    let p1 := d[Fin.ofNat 32
      (u64 (old[i + 2] >>> 11) + BitVec.ofNat 64 (i.val * 13) + u64 dc).toNat]
    let boundary := u32 p0 ||| (u32 p1 <<< 8) ||| (u32 dc <<< 16) ||| (BitVec.ofNat 32 i <<< 24)
    mix32 (old[i] ^^^ boundary) (old[i + 1] + lengthFold) (pathFold ^^^ old[i + 3])
      (7 + i.val * 6 + (dc &&& 3).toNat)
  let left := pairLanes lane[0] lane[2]
  let right := pairLanes lane[1] lane[3]
  let path := rotl64 (c.path ^^^ sequenceLength ^^^ left) (13 + (dc &&& 31).toNat)
    + rotl64 right 43 + u64 dc * 0x0101010101010101
  ⟨lane, path⟩

/-! ## Moves -/

/-- The probes of `preview_move_b`. -/
def readProbesB (state : WorkingStateB) (injected : ControllerStateB) (domain : Domain)
    (phase : U8) : AccessRun ProbeSet := do
  let dc := domainCode domain
  let lane := injected.lane
  let axisCoord0 := coordinateB state.cursor lane[0] lane[2] injected.path phase dc 0
  let axisCoord1 := coordinateB state.cursor lane[2] lane[0] (rotl64 injected.path 23) phase dc 3
  let amountCoord0 := coordinateB state.cursor lane[1] lane[3] (rotl64 injected.path 31) phase dc 5
  let amountCoord1 := coordinateB state.cursor lane[3] lane[1] (rotl64 injected.path 47) phase dc 7
  let axisProbe0 ← unchecked state.cube axisCoord0
  let axisProbe1 ← unchecked state.cube axisCoord1
  let amountProbe0 ← unchecked state.cube amountCoord0
  let amountProbe1 ← unchecked state.cube amountCoord1
  return ⟨axisCoord0, axisCoord1, amountCoord0, amountCoord1,
    axisProbe0, axisProbe1, amountProbe0, amountProbe1⟩

/-- The scores of the two axes a move may take. -/
def axisScoresB (state : WorkingStateB) (injected : ControllerStateB) (probes : ProbeSet)
    (domain : Domain) (phase : U8) : Vector U32 2 :=
  let lane := injected.lane
  let pathFold := fold64 injected.path
  let axisEvent := u32 probes.axisProbe0 ||| (u32 probes.axisProbe1 <<< 8)
    ||| (u32 phase <<< 16) ||| (u32 (domainCode domain) <<< 24)
  let first := BitVec.ofNat 32 (axisCode (chooseOtherAxis state.previousAxis false))
  let second := BitVec.ofNat 32 (axisCode (chooseOtherAxis state.previousAxis true))
  #v[mix32 lane[0] (lane[2] ^^^ axisEvent) (pathFold + first * 0x9E3779B9) 7,
    mix32 lane[2] (lane[0] + axisEvent) (rotl32 pathFold 13 + second * 0x7F4A7C15) 19]

/-- The coordinate probed for an amount candidate. -/
def candidateCoord (coord : Coord) (axis : Axis) (domain : Domain) (phase : U8)
    (candidate : ℕ) : Coord :=
  ⟨u8 ((u32 coord.x + BitVec.ofNat 32 (candidate + axisCode axis)) &&& 7),
    u8 ((u32 coord.y + BitVec.ofNat 32 (3 * candidate) + u32 phase) &&& 7),
    u8 ((u32 coord.z + BitVec.ofNat 32 (5 * candidate) + u32 (domainCode domain)) &&& 7)⟩

/-- The score of an amount candidate, from the byte probed for it. -/
def amountScoreB (injected : ControllerStateB) (probes : ProbeSet) (axis : Axis) (phase : U8)
    (candidate : ℕ) (probe : U8) : U32 :=
  let event := u32 probes.amountProbe0 ||| (u32 probes.amountProbe1 <<< 8) ||| (u32 probe <<< 16)
    ||| (BitVec.ofNat 32 candidate <<< 24)
  mix32 (injected.lane[1] + BitVec.ofNat 32 candidate * 0x9E3779B9)
    (injected.lane[3] ^^^ rotl32 event candidate)
    (fold64 injected.path + event + BitVec.ofNat 32 (axisCode axis) * 0xD1B54A35)
    (3 + candidate * 4 + phase.toNat)

/-- The variables of the candidate loop in `preview_move_b`. -/
structure AmountContest : Type where
  amountScores : Vector U32 7
  candidateProbes : Vector U8 7
  best : U32
  selected : U8

/-- One pass of the candidate loop: candidate `slot + 1` is probed and scored, and
a smaller score takes the lead. -/
def contestAmount (state : WorkingStateB) (injected : ControllerStateB) (probes : ProbeSet)
    (axis : Axis) (domain : Domain) (phase : U8) (c : AmountContest) (slot : Fin 7) :
    AccessRun AmountContest := do
  let candidate := slot.val + 1
  let probe ← unchecked state.cube
    (candidateCoord probes.amountCoord0 axis domain phase candidate)
  let score := amountScoreB injected probes axis phase candidate probe
  let c := { c with
    amountScores := c.amountScores.set slot score
    candidateProbes := c.candidateProbes.set slot probe }
  return if score < c.best then { c with best := score, selected := BitVec.ofNat 8 candidate }
    else c

/-- `preview_move_b`. -/
def previewMoveB (state : WorkingStateB) (symbol : U8) (domain : Domain) (phase : U8) :
    AccessRun MoveDecisionB := do
  let injected := injectSymbolB state symbol domain
  let probes ← readProbesB state injected domain phase
  let axisScores := axisScoresB state injected probes domain phase
  let axis := chooseOtherAxis state.previousAxis (axisScores[1] < axisScores[0])
  let contest ← (List.finRange 7).foldlM
    (contestAmount state injected probes axis domain phase)
    ⟨Vector.replicate 7 0, Vector.replicate 7 0, BitVec.allOnes 32, 1⟩
  return ⟨axis, contest.selected, axisScores, contest.amountScores, contest.candidateProbes,
    probes⟩

/-- The controller after `apply_move_b`. -/
def movedControllerB (injected : ControllerStateB) (decision : MoveDecisionB) (feedback : U32)
    (cursor : Coord) (post0 post1 symbol : U8) (domain : Domain) (phase : U8) :
    ControllerStateB :=
  let amount := decision.amount.toNat
  let axis := axisCode decision.axis
  let lane := injected.lane
  let event := u32 symbol ||| (u32 phase <<< 8) ||| (u32 (domainCode domain) <<< 16)
    ||| (u32 decision.amount <<< 24)
  let lane0 := mix32 (lane[0] ^^^ feedback) (lane[1] + event) (lane[3] ^^^ u32 post0) (5 + amount)
  let lane1 := mix32 (lane[1] + rotl32 feedback 7) (lane[2] ^^^ event) (lane0 + u32 post1)
    (11 + axis)
  let lane2 := mix32 (lane[2] ^^^ rotl32 feedback 13) (lane[3] + event)
    (lane1 ^^^ u32 (coordinateWord cursor)) (17 + phase.toNat)
  let lane3 := mix32 (lane[3] + rotl32 feedback 19) (lane[0] ^^^ event)
    (lane2 + u32 post0 * 257 + u32 post1) (23 + amount + axis)
  let left := pairLanes lane0 lane2
  let right := pairLanes lane1 lane3
  let path := rotl64 (injected.path ^^^ left ^^^ u64 feedback) (17 + amount)
    + rotl64 (right ^^^ (u64 event <<< 29)) (41 + axis)
    + u64 (coordinateWord cursor) * 0x0001000100010001
  ⟨#v[lane0, lane1, lane2, lane3], path⟩

/-- Prototype B. -/
def engineB : Engine ControllerStateB MoveDecisionB where
  initial := makeInitialStateB
  entered := enteredControllerB
  inject := injectSymbolB
  preview := previewMoveB
  axis := MoveDecisionB.axis
  amount := MoveDecisionB.amount
  probes := MoveDecisionB.probes
  lineFeedback := lineFeedbackB
  moved := movedControllerB

/-- `enter_domain_b`. -/
abbrev enterDomainB (domain : Domain) (sequenceLength : U64) : BRun PUnit :=
  engineB.enterDomain domain sequenceLength

/-- `apply_move_b`. -/
abbrev applyMoveB (symbol : U8) (domain : Domain) (phase : U8) : BRun MoveTraceB :=
  engineB.applyMove symbol domain phase

/-- `absorb_symbol_b`. -/
abbrev absorbSymbolB (symbol : U8) (domain : Domain) (movesPerSymbol : ℕ) (trace : Bool) :
    BRun PUnit :=
  engineB.absorbSymbol symbol domain movesPerSymbol trace

/-- `absorb_sequence_b`. -/
abbrev absorbSequenceB (symbols : List U8) (domain : Domain) (movesPerSymbol : ℕ)
    (trace : Bool) : BRun PUnit :=
  engineB.absorbSequence symbols domain movesPerSymbol trace

/-- `state_fingerprint_b`. -/
def stateFingerprintB (state : WorkingStateB) : U64 :=
  let start := state.controller.path ^^^ (u64 (coordinateWord state.cursor) <<< 47)
    ^^^ state.symbolIndex
  let lanes := (List.finRange 4).foldl (fun (value : U64) (i : Fin 4) =>
    rotl64 (value ^^^ u64 state.controller.lane[i]) (9 + 11 * i.val)
      + u64 state.controller.lane[i] * 0x9E3779B185EBCA87) start
  (List.finRange 512).foldl (fun (value : U64) (i : Fin 512) =>
    rotl64 (value ^^^ u64 (state.cube.cells.get i) ^^^ BitVec.ofNat 64 (i.val * 193))
        (1 + i.val % 32)
      + u64 (state.cube.cells.get i) * BitVec.ofNat 64 (263 + 2 * i.val)) lanes
