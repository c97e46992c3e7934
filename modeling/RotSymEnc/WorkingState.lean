/-
# The working state of an evaluation

The objects both controllers share: the nine domains, the working state (cube,
cursor, previous axis, controller, symbol counter), the record of one move, and
the machine an evaluation runs on.  The two controllers differ only in the type
of their lanes, `C`, and of their move decisions, `D`.

Beside the working state and the caller's trace vector, the machine keeps a
history no code reads: every coordinate handed to `Cube::unchecked`, the working
state after every initialisation, domain entry and move, and every decision.
Statements about "every point of a run" are statements about this history.
-/
import RotSymEnc.Cube

open StatefulRuns

/-! ## Domains and axes -/

/-- `enum class Domain`. -/
inductive Domain : Type where
  | keyForward
  | keyReturn
  | keySeal
  | inputForward
  | inputReturn
  | returnInit
  | returnSeal
  | finalization
  | squeeze
  deriving DecidableEq, Repr

/-- `domain_code`. -/
def domainCode : Domain → U8
  | .keyForward => 0x31
  | .keyReturn => 0x72
  | .keySeal => 0x9C
  | .inputForward => 0xA5
  | .inputReturn => 0xC6
  | .returnInit => 0xD3
  | .returnSeal => 0x8B
  | .finalization => 0xE9
  | .squeeze => 0x5A

/-- `axis_code`. -/
abbrev axisCode (axis : Axis) : ℕ := axis.code

/-- `coordinate_word`: the three components in fields of five bits. -/
def coordinateWord (coord : Coord) : U16 :=
  (u16 coord.x <<< 10) ||| (u16 coord.y <<< 5) ||| u16 coord.z

/-- `choose_other_axis`: one of the two axes that differ from the previous one. -/
def chooseOtherAxis (previous : Axis) (second : Bool) : Axis :=
  match previous with
  | .X => if second then .Z else .Y
  | .Y => if second then .X else .Z
  | .Z => if second then .Y else .X

/-! ## States and traces -/

/-- `struct WorkingState`, for a controller with lanes `C`. -/
structure WorkingStateOf (C : Type) : Type where
  cube : Cube
  cursor : Coord
  previousAxis : Axis
  controller : C
  symbolIndex : U64
  deriving DecidableEq

/-- `struct ProbeSet`: the four probe coordinates and the bytes read there. -/
structure ProbeSet : Type where
  axisCoord0 : Coord
  axisCoord1 : Coord
  amountCoord0 : Coord
  amountCoord1 : Coord
  axisProbe0 : U8
  axisProbe1 : U8
  amountProbe0 : U8
  amountProbe1 : U8
  deriving DecidableEq

/-- The coordinates of a probe set. -/
def ProbeSet.coords (probes : ProbeSet) : List Coord :=
  [probes.axisCoord0, probes.axisCoord1, probes.amountCoord0, probes.amountCoord1]

/-- `struct MoveTrace`, for a controller with lanes `C` and decisions `D`. -/
structure MoveTraceOf (C D : Type) : Type where
  symbolIndex : U64
  phase : U8
  symbol : U8
  domain : Domain
  cursorBefore : Coord
  cursorAfter : Coord
  previousAxis : Axis
  decision : D
  controllerBefore : C
  controllerAfter : C
  lineFeedback : U32

/-! ## The machine -/

/-- The objects of a running evaluation, with its history, the latest first. -/
structure Machine (C D : Type) : Type where
  working : WorkingStateOf C
  trace : List (MoveTraceOf C D)
  accesses : List Coord
  points : List (WorkingStateOf C)
  decisions : List D

/-- A call that works on the evaluation's objects. -/
abbrev C1Run (C D : Type) := EStateM Fault (Machine C D)

namespace C1Run

variable {C D α : Type}

/-- A call that only reads cubes. -/
def reading (x : AccessRun α) : C1Run C D α :=
  zoom Machine.accesses (fun accesses m => { m with accesses := accesses }) x

/-- A call that mutates the cube of the working state. -/
def onCube (x : CubeRun α) : C1Run C D α :=
  zoom (fun m : Machine C D => ⟨m.working.cube, m.accesses⟩)
    (fun mem m =>
      { m with working := { m.working with cube := mem.cube }, accesses := mem.accesses }) x

/-- The working state. -/
def working : C1Run C D (WorkingStateOf C) := do
  return (← get).working

/-- An assignment to fields of the working state. -/
def modifyWorking (f : WorkingStateOf C → WorkingStateOf C) : C1Run C D PUnit :=
  modify fun m => { m with working := f m.working }

/-- The history notes the working state reached. -/
def recordPoint : C1Run C D PUnit :=
  modify fun m => { m with points := m.working :: m.points }

/-- The history notes the decision taken. -/
def recordDecision (decision : D) : C1Run C D PUnit :=
  modify fun m => { m with decisions := decision :: m.decisions }

/-- `trace->push_back`. -/
def pushTrace (move : MoveTraceOf C D) : C1Run C D PUnit :=
  modify fun m => { m with trace := m.trace ++ [move] }

end C1Run

/-! ## Moves and symbols -/

/-- What a controller contributes to the moves: the parts in which `controller.cpp`
and `controller_b.cpp` differ. -/
structure Engine (C D : Type) : Type where
  /-- `make_initial_state`. -/
  initial : U64 → Except Fault (WorkingStateOf C)
  /-- The lanes after a domain entry, from the cube's diagonals. -/
  entered : C → Vector U8 32 → Domain → U64 → C
  /-- `inject_symbol`. -/
  inject : WorkingStateOf C → U8 → Domain → C
  /-- `preview_move`. -/
  preview : WorkingStateOf C → U8 → Domain → U8 → AccessRun D
  axis : D → Axis
  amount : D → U8
  probes : D → ProbeSet
  lineFeedback : Vector U8 8 → Vector U8 8 → Axis → U8 → U8 → Coord → U32
  /-- The lanes after a move, from the injected lanes, the decision, the line
  feedback, the new cursor and the two bytes probed after the rotation. -/
  moved : C → D → U32 → Coord → U8 → U8 → U8 → Domain → U8 → C

namespace Engine

variable {C D : Type} (engine : Engine C D)

/-- The common form of `enter_domain` and `enter_domain_b`. -/
def enterDomain (domain : Domain) (sequenceLength : U64) : C1Run C D PUnit := do
  let state ← C1Run.working
  let diagonals ← C1Run.reading (bodyDiagonals state.cube)
  C1Run.modifyWorking fun s =>
    { s with controller := engine.entered s.controller diagonals domain sequenceLength }
  C1Run.recordPoint

/-- The common form of `apply_move` and `apply_move_b`. -/
def applyMove (symbol : U8) (domain : Domain) (phase : U8) : C1Run C D (MoveTraceOf C D) := do
  let state ← C1Run.working
  let injected := engine.inject state symbol domain
  let decision ← C1Run.reading (engine.preview state symbol domain phase)
  C1Run.recordDecision decision
  let axis := engine.axis decision
  let amount := engine.amount decision
  let lineBefore ← C1Run.reading (readLine state.cube axis state.cursor)
  C1Run.onCube (rotateLine axis state.cursor amount)
  let cursor := advance state.cursor axis amount
  C1Run.modifyWorking fun s => { s with cursor := cursor }
  let rotated ← C1Run.working
  let lineAfter ← C1Run.reading (readLine rotated.cube axis cursor)
  let lineFeedback := engine.lineFeedback lineBefore lineAfter axis amount phase cursor
  let post0 ← C1Run.reading (unchecked rotated.cube (engine.probes decision).axisCoord1)
  let post1 ← C1Run.reading (unchecked rotated.cube (engine.probes decision).amountCoord1)
  let next := engine.moved injected decision lineFeedback cursor post0 post1 symbol domain phase
  C1Run.modifyWorking fun s => { s with controller := next, previousAxis := axis }
  C1Run.recordPoint
  return ⟨state.symbolIndex, phase, symbol, domain, state.cursor, cursor, state.previousAxis,
    decision, state.controller, next, lineFeedback⟩

/-- The common form of `absorb_symbol` and `absorb_symbol_b`: one move a phase,
pushed to the trace vector where the caller supplied one. -/
def absorbSymbol (symbol : U8) (domain : Domain) (movesPerSymbol : ℕ) (trace : Bool) :
    C1Run C D PUnit := do
  if movesPerSymbol = 0 ∨ movesPerSymbol > 255 then
    throw (.thrown .invalidArgument "moves_per_symbol must be in [1,255]")
  forM (List.range movesPerSymbol) fun (phase : ℕ) => do
    let move ← engine.applyMove symbol domain (BitVec.ofNat 8 phase)
    if trace then C1Run.pushTrace move
  C1Run.modifyWorking fun s => { s with symbolIndex := s.symbolIndex + 1 }

/-- The common form of `absorb_sequence` and `absorb_sequence_b`. -/
def absorbSequence (symbols : List U8) (domain : Domain) (movesPerSymbol : ℕ) (trace : Bool) :
    C1Run C D PUnit :=
  forM symbols fun symbol => engine.absorbSymbol symbol domain movesPerSymbol trace

end Engine
