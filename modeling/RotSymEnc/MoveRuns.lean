/-
# What moves do

The exact effect of the operations of a controller: the working state they leave,
what they append to the trace vector and what the history notes.  `Does` is the
statement that a run has such an effect, whatever the machine holds besides its
working state.

An evaluation is then a path: domain entries, which replace the lanes, and moves,
which rotate one line through the cursor.  `Engine.Steps` is the relation of such
paths, and `historyOf` says what the trace vector and the history hold after one.
-/
import RotSymEnc.MoveDecisions

open TorusLines StatefulRuns

variable {C D : Type}

/-! ## Effects -/

/-- What a run appends to the trace vector and notes in the history, in order. -/
structure History (C D : Type) : Type where
  entries : List (MoveTraceOf C D)
  points : List (WorkingStateOf C)
  decisions : List D

namespace History

/-- Nothing is noted. -/
def empty : History C D := ⟨[], [], []⟩

/-- One run after the other. -/
def append (h h' : History C D) : History C D :=
  ⟨h.entries ++ h'.entries, h.points ++ h'.points, h.decisions ++ h'.decisions⟩

@[simp] theorem empty_append (h : History C D) : empty.append h = h := rfl

@[simp] theorem append_empty (h : History C D) : h.append empty = h := by
  simp [append, empty]

theorem append_assoc (h h' h'' : History C D) :
    (h.append h').append h'' = h.append (h'.append h'') := by
  simp [append]

end History

/-- The machine after a run that left the working state `w`, handed the coordinates
`accesses` to `Cube::unchecked` and noted `h`. -/
def Machine.extended (m : Machine C D) (w : WorkingStateOf C) (accesses : List Coord)
    (h : History C D) : Machine C D :=
  ⟨w, m.trace ++ h.entries, accesses ++ m.accesses, h.points.reverse ++ m.points,
    h.decisions.reverse ++ m.decisions⟩

theorem Machine.extended_extended (m : Machine C D) (w w' : WorkingStateOf C)
    (accesses accesses' : List Coord) (h h' : History C D) :
    (m.extended w accesses h).extended w' accesses' h'
      = m.extended w' (accesses' ++ accesses) (h.append h') := by
  simp [Machine.extended, History.append]

/-- Started at the working state `w`, the run does not fail, returns `a`, leaves `w'`,
notes `h`, and hands only in-range coordinates to `Cube::unchecked`. -/
def Does {α : Type} (x : C1Run C D α) (w : WorkingStateOf C) (a : α) (h : History C D)
    (w' : WorkingStateOf C) : Prop :=
  ∀ m : Machine C D, m.working = w →
    ∃ accesses, (∀ c ∈ accesses, c.InRange) ∧ x.run m = .ok a (m.extended w' accesses h)

namespace Does

variable {α β : Type} {w w₁ w₂ : WorkingStateOf C}

theorem pure (a : α) : Does (Pure.pure a : C1Run C D α) w a .empty w := by
  rintro m rfl
  exact ⟨[], List.forall_mem_nil _, by simp [Machine.extended, History.empty, Pure.pure,
    EStateM.pure, EStateM.run]⟩

/-- Sequencing: the effects add up. -/
theorem bind {x : C1Run C D α} {f : α → C1Run C D β} {a : α} {b : β} {h h' : History C D}
    (hx : Does x w a h w₁) (hf : Does (f a) w₁ b h' w₂) :
    Does (x >>= f) w b (h.append h') w₂ := by
  intro m hm
  obtain ⟨accesses, hin, hrun⟩ := hx m hm
  obtain ⟨accesses', hin', hrun'⟩ := hf (m.extended w₁ accesses h) rfl
  refine ⟨accesses' ++ accesses, ?_, ?_⟩
  · intro c hc
    exact (List.mem_append.mp hc).elim (hin' c) (hin c)
  · rw [run_bind_of_ok hrun, hrun', Machine.extended_extended]

/-- Sequencing after a run that notes nothing. -/
theorem bind_silent {x : C1Run C D α} {f : α → C1Run C D β} {a : α} {b : β} {h : History C D}
    (hx : Does x w a .empty w₁) (hf : Does (f a) w₁ b h w₂) : Does (x >>= f) w b h w₂ :=
  hx.bind hf

/-- A run with such an effect, among the runs that keep or lead to an invariant. -/
theorem leads {x : C1Run C D α} {a : α} {h : History C D} (hx : Does x w a h w₁) :
    Leads (fun m : Machine C D => m.working = w) x (fun m => m.working = w₁) (· = a) := by
  intro m hm
  obtain ⟨accesses, -, hrun⟩ := hx m hm
  exact ⟨a, _, hrun, rfl, rfl⟩

end Does

section Primitives

variable {α : Type} {w : WorkingStateOf C}

/-- What `Except` decides. -/
theorem does_lift {x : Except Fault α} {a : α} (hx : x = .ok a) :
    Does (lift x : C1Run C D α) w a .empty w := by
  subst hx
  exact Does.pure a

theorem does_working : Does (C1Run.working : C1Run C D _) w w .empty w := by
  rintro m rfl
  refine ⟨[], List.forall_mem_nil _, ?_⟩
  unfold C1Run.working
  simp [Machine.extended, History.empty, EStateM.run_get]

/-- A call that reads in range. -/
theorem does_reading {x : AccessRun α} {a : α} (hx : Reads x a) :
    Does (C1Run.reading x : C1Run C D α) w a .empty w := by
  rintro m rfl
  obtain ⟨new, hrun, hin⟩ := hx m.accesses
  refine ⟨new, hin, ?_⟩
  unfold C1Run.reading
  rw [zoom_run_of_ok m hrun]
  simp [Machine.extended, History.empty]

/-- A rotation through the cursor rotates the working cube. -/
theorem does_rotateLine (axis : Axis) (hcursor : w.cursor.InRange) (amount : U8) :
    Does (C1Run.onCube (rotateLine axis w.cursor amount) : C1Run C D PUnit) w () .empty
      { w with cube := w.cube.rotated axis w.cursor.pos (Fin.ofNat 8 amount.toNat) } := by
  rintro m rfl
  obtain ⟨new, hrun, hin⟩ := rotateLine_run axis hcursor amount ⟨m.working.cube, m.accesses⟩
  refine ⟨new, hin, ?_⟩
  unfold C1Run.onCube
  rw [zoom_run_of_ok m hrun]
  simp [Machine.extended, History.empty]

theorem does_modifyWorking (f : WorkingStateOf C → WorkingStateOf C) :
    Does (C1Run.modifyWorking f : C1Run C D PUnit) w () .empty (f w) := by
  rintro m rfl
  refine ⟨[], List.forall_mem_nil _, ?_⟩
  unfold C1Run.modifyWorking
  simp [Machine.extended, History.empty]

theorem does_recordPoint : Does (C1Run.recordPoint : C1Run C D PUnit) w () ⟨[], [w], []⟩ w := by
  rintro m rfl
  refine ⟨[], List.forall_mem_nil _, ?_⟩
  unfold C1Run.recordPoint
  simp [Machine.extended]

theorem does_recordDecision (decision : D) :
    Does (C1Run.recordDecision decision : C1Run C D PUnit) w () ⟨[], [], [decision]⟩ w := by
  rintro m rfl
  refine ⟨[], List.forall_mem_nil _, ?_⟩
  unfold C1Run.recordDecision
  simp [Machine.extended]

theorem does_pushTrace (move : MoveTraceOf C D) :
    Does (C1Run.pushTrace move : C1Run C D PUnit) w () ⟨[move], [], []⟩ w := by
  rintro m rfl
  refine ⟨[], List.forall_mem_nil _, ?_⟩
  unfold C1Run.pushTrace
  simp [Machine.extended]

end Primitives

/-! ## Domain entries and moves -/

/-- The working state after a move along `axis` by `amount`. -/
def WorkingStateOf.afterMove (s : WorkingStateOf C) (axis : Axis) (amount : U8)
    (controller : C) : WorkingStateOf C :=
  ⟨s.cube.rotated axis s.cursor.pos (Fin.ofNat 8 amount.toNat), advance s.cursor axis amount, axis,
    controller, s.symbolIndex⟩

namespace Engine

variable (engine : Engine C D)

/-- The line feedback of a move, from the cube before and after the rotation. -/
def moveFeedback (s : WorkingStateOf C) (decision : D) (phase : U8) : U32 :=
  let axis := engine.axis decision
  let amount := engine.amount decision
  let cursor := advance s.cursor axis amount
  let rotated := s.cube.rotated axis s.cursor.pos (Fin.ofNat 8 amount.toNat)
  engine.lineFeedback (lineCells s.cube axis s.cursor.pos) (lineCells rotated axis cursor.pos)
    axis amount phase cursor

/-- The lanes after a move, from the cube before and after the rotation. -/
def nextController (s : WorkingStateOf C) (decision : D) (symbol : U8)
    (domain : Domain) (phase : U8) : C :=
  let axis := engine.axis decision
  let amount := engine.amount decision
  let cursor := advance s.cursor axis amount
  let rotated := s.cube.rotated axis s.cursor.pos (Fin.ofNat 8 amount.toNat)
  engine.moved (engine.inject s symbol domain) decision (engine.moveFeedback s decision phase)
    cursor (rotated.cell (engine.probes decision).axisCoord1.pos)
    (rotated.cell (engine.probes decision).amountCoord1.pos) symbol domain phase

/-- The record of a move from `s` with the given decision. -/
def moveTrace (s : WorkingStateOf C) (symbol : U8) (domain : Domain) (phase : U8)
    (decision : D) : MoveTraceOf C D :=
  ⟨s.symbolIndex, phase, symbol, domain, s.cursor,
    advance s.cursor (engine.axis decision) (engine.amount decision), s.previousAxis, decision,
    s.controller, engine.nextController s decision symbol domain phase,
    engine.moveFeedback s decision phase⟩

/-- The working state after a move from `s` with the given decision. -/
def moveState (s : WorkingStateOf C) (symbol : U8) (domain : Domain) (phase : U8)
    (decision : D) : WorkingStateOf C :=
  s.afterMove (engine.axis decision) (engine.amount decision)
    (engine.nextController s decision symbol domain phase)

end Engine

/-- A move leaves the symbol counter alone. -/
@[simp] theorem Engine.moveState_symbolIndex (engine : Engine C D) (s : WorkingStateOf C)
    (symbol : U8) (domain : Domain) (phase : U8) (d : D) :
    (engine.moveState s symbol domain phase d).symbolIndex = s.symbolIndex := by
  simp only [Engine.moveState, WorkingStateOf.afterMove]

/-- **A domain entry** replaces the lanes and nothing else. -/
theorem does_enterDomain (engine : Engine C D) (domain : Domain) (sequenceLength : U64)
    {w : WorkingStateOf C} {diagonals : Vector U8 32}
    (hdiagonals : Reads (bodyDiagonals w.cube) diagonals) :
    Does (engine.enterDomain domain sequenceLength) w ()
      ⟨[], [{ w with controller := engine.entered w.controller diagonals domain sequenceLength }],
        []⟩
      { w with controller := engine.entered w.controller diagonals domain sequenceLength } := by
  unfold Engine.enterDomain
  refine does_working.bind_silent ?_
  refine (does_reading hdiagonals).bind_silent ?_
  exact (does_modifyWorking _).bind_silent does_recordPoint

/-- **A move** rotates the line under the cursor, advances the cursor along it by
the same amount, and notes the decision of the preview. -/
theorem does_applyMove (engine : Engine C D) (symbol : U8) (domain : Domain) (phase : U8)
    {w : WorkingStateOf C} (hcursor : w.cursor.InRange) {d : D}
    (hpreview : Reads (engine.preview w symbol domain phase) d)
    (hprobes : ∀ c ∈ (engine.probes d).coords, c.InRange) :
    Does (engine.applyMove symbol domain phase) w (engine.moveTrace w symbol domain phase d)
      ⟨[], [engine.moveState w symbol domain phase d], [d]⟩
      (engine.moveState w symbol domain phase d) := by
  have haxis1 : (engine.probes d).axisCoord1.InRange := hprobes _ (by simp [ProbeSet.coords])
  have hamount1 : (engine.probes d).amountCoord1.InRange := hprobes _ (by simp [ProbeSet.coords])
  have hadvance := hcursor.advance (engine.axis d) (engine.amount d)
  unfold Engine.applyMove
  refine does_working.bind_silent ?_
  refine (does_reading hpreview).bind_silent ?_
  refine @Does.bind _ _ _ _ _ _ _ _ _ _ _ ⟨[], [], [d]⟩ ⟨[], [_], []⟩ (does_recordDecision d) ?_
  refine (does_reading (reads_readLine w.cube _ hcursor)).bind_silent ?_
  refine (does_rotateLine _ hcursor _).bind_silent ?_
  refine (does_modifyWorking _).bind_silent ?_
  refine does_working.bind_silent ?_
  refine (does_reading (reads_readLine _ _ hadvance)).bind_silent ?_
  refine (does_reading (reads_unchecked _ haxis1)).bind_silent ?_
  refine (does_reading (reads_unchecked _ hamount1)).bind_silent ?_
  refine (does_modifyWorking _).bind_silent ?_
  refine @Does.bind _ _ _ _ _ _ _ _ _ _ _ ⟨[], [_], []⟩ .empty does_recordPoint ?_
  exact Does.pure _

/-! ## Paths -/

/-- A domain entry or a move of an evaluation, with the working state after it. -/
inductive Event (C D : Type) : Type where
  | entered (after : WorkingStateOf C)
  | moved (move : MoveTraceOf C D) (after : WorkingStateOf C)

namespace Event

def after : Event C D → WorkingStateOf C
  | entered after => after
  | moved _ after => after

/-- The record of a move. -/
def move? : Event C D → Option (MoveTraceOf C D)
  | entered _ => none
  | moved move _ => some move

end Event

/-- The moves among the events. -/
def movesOf (events : List (Event C D)) : List (MoveTraceOf C D) := events.filterMap Event.move?

theorem movesOf_append (events events' : List (Event C D)) :
    movesOf (events ++ events') = movesOf events ++ movesOf events' :=
  List.filterMap_append

@[simp] theorem movesOf_cons_moved (move : MoveTraceOf C D) (after : WorkingStateOf C)
    (events : List (Event C D)) : movesOf (.moved move after :: events) = move :: movesOf events :=
  rfl

/-- The events of moves without a domain entry between them. -/
def performed (steps : List (MoveTraceOf C D × WorkingStateOf C)) : List (Event C D) :=
  steps.map fun step => .moved step.1 step.2

theorem performed_append (steps steps' : List (MoveTraceOf C D × WorkingStateOf C)) :
    performed (steps ++ steps') = performed steps ++ performed steps' :=
  List.map_append

theorem movesOf_performed (steps : List (MoveTraceOf C D × WorkingStateOf C)) :
    movesOf (performed steps) = steps.map Prod.fst := by
  induction steps with
  | nil => rfl
  | cons step steps ih => exact congrArg (step.1 :: ·) ih

/-- What is noted of the events: the moves go to the trace vector where the caller
supplied one. -/
def historyOf (trace : Bool) (events : List (Event C D)) : History C D :=
  ⟨if trace then movesOf events else [], events.map Event.after,
    (movesOf events).map MoveTraceOf.decision⟩

theorem historyOf_nil (trace : Bool) : historyOf trace ([] : List (Event C D)) = .empty := by
  cases trace <;> rfl

theorem historyOf_append (trace : Bool) (events events' : List (Event C D)) :
    historyOf trace (events ++ events')
      = (historyOf trace events).append (historyOf trace events') := by
  unfold historyOf History.append
  rw [movesOf_append, List.map_append, List.map_append]
  cases trace <;> rfl

/-- **The paths of an evaluation.**  A domain entry replaces the lanes, a move goes where
its preview decides; the symbol counter may change between the events, not with them. -/
inductive Engine.Steps (engine : Engine C D) :
    WorkingStateOf C → List (Event C D) → WorkingStateOf C → Prop
  | nil (w : WorkingStateOf C) (index : U64) : engine.Steps w [] { w with symbolIndex := index }
  | entered {w w' : WorkingStateOf C} {events : List (Event C D)} (index : U64) (controller : C)
      (rest : engine.Steps { w with controller := controller, symbolIndex := index } events w') :
      engine.Steps w
        (.entered { w with controller := controller, symbolIndex := index } :: events) w'
  | moved {w w' : WorkingStateOf C} {events : List (Event C D)} (index : U64) {symbol : U8}
      {domain : Domain} {phase : U8} {d : D}
      (preview : Reads (engine.preview { w with symbolIndex := index } symbol domain phase) d)
      (rest : engine.Steps
        (engine.moveState { w with symbolIndex := index } symbol domain phase d) events w') :
      engine.Steps w
        (.moved (engine.moveTrace { w with symbolIndex := index } symbol domain phase d)
          (engine.moveState { w with symbolIndex := index } symbol domain phase d) :: events) w'

namespace Engine.Steps

variable {engine : Engine C D} {w w₁ w₂ : WorkingStateOf C} {events events' : List (Event C D)}

/-- The symbol counter a path starts with does not matter. -/
theorem of_reindexed {index : U64}
    (h : engine.Steps { w with symbolIndex := index } events w₁) : engine.Steps w events w₁ := by
  cases h with
  | nil _ i => exact nil w i
  | entered i controller rest => exact entered i controller rest
  | moved i preview rest => exact moved i preview rest

/-- One path after the other. -/
theorem trans (h : engine.Steps w events w₁) (h' : engine.Steps w₁ events' w₂) :
    engine.Steps w (events ++ events') w₂ := by
  induction h with
  | nil w index => exact h'.of_reindexed
  | entered index controller _ ih => exact entered index controller (ih h')
  | moved index preview _ ih => exact moved index preview (ih h')

/-- The cursor stays in range. -/
theorem cursor_inRange (h : engine.Steps w events w₁) (hw : w.cursor.InRange) :
    w₁.cursor.InRange := by
  induction h with
  | nil w index => exact hw
  | entered index controller _ ih => exact ih hw
  | moved index preview _ ih => exact ih (hw.advance _ _)

end Engine.Steps

/-! ## Symbols -/

/-- What a move is made of: the symbol counter, the symbol, its domain and the phase. -/
structure MoveInput : Type where
  symbolIndex : U64
  symbol : U8
  domain : Domain
  phase : U8

/-- The input of a recorded move. -/
def MoveTraceOf.input (move : MoveTraceOf C D) : MoveInput :=
  ⟨move.symbolIndex, move.symbol, move.domain, move.phase⟩

/-- The moves of one symbol: the phases from 0 on. -/
def symbolInputs (index : U64) (symbol : U8) (domain : Domain) (moves : ℕ) : List MoveInput :=
  (List.range moves).map fun phase => ⟨index, symbol, domain, BitVec.ofNat 8 phase⟩

section Symbols

variable {engine : Engine C D} {DecisionOk : D → Prop} {w : WorkingStateOf C}

/-- A move, pushed to the trace vector where there is one. -/
theorem does_tracedMove (hengine : engine.Sound DecisionOk) (symbol : U8) (domain : Domain)
    (phase : U8) (hcursor : w.cursor.InRange) :
    ∃ d, Reads (engine.preview w symbol domain phase) d ∧ ∀ trace : Bool,
      Does (do
          let move ← engine.applyMove symbol domain phase
          if trace then C1Run.pushTrace move) w ()
        (historyOf trace [.moved (engine.moveTrace w symbol domain phase d)
          (engine.moveState w symbol domain phase d)])
        (engine.moveState w symbol domain phase d) := by
  obtain ⟨d, hpreview, -, hprobes⟩ := hengine.preview w symbol domain phase
  have hmove := does_applyMove engine symbol domain phase hcursor hpreview hprobes
  refine ⟨d, hpreview, fun trace => ?_⟩
  cases trace with
  | false =>
    refine @Does.bind _ _ _ _ _ _ _ _ _ _ _ ⟨[], [_], [d]⟩ .empty hmove ?_
    exact Does.pure ()
  | true =>
    refine @Does.bind _ _ _ _ _ _ _ _ _ _ _ ⟨[], [_], [d]⟩ ⟨[_], [], []⟩ hmove ?_
    exact does_pushTrace _

/-- The moves of some phases of a symbol. -/
theorem does_phases (hengine : engine.Sound DecisionOk) (symbol : U8) (domain : Domain)
    (phases : List ℕ) (hcursor : w.cursor.InRange) :
    ∃ steps w', engine.Steps w (performed steps) w' ∧ w'.symbolIndex = w.symbolIndex ∧
      steps.map (fun step => step.1.input)
        = phases.map (fun phase => ⟨w.symbolIndex, symbol, domain, BitVec.ofNat 8 phase⟩) ∧
      ∀ trace : Bool, Does (forM phases fun (phase : ℕ) => do
          let move ← engine.applyMove symbol domain (BitVec.ofNat 8 phase)
          if trace then C1Run.pushTrace move) w () (historyOf trace (performed steps)) w' := by
  induction phases generalizing w with
  | nil =>
    refine ⟨[], w, Engine.Steps.nil w w.symbolIndex, rfl, rfl, ?_⟩
    intro trace
    rw [List.forM_nil, performed, List.map_nil, historyOf_nil]
    exact Does.pure ()
  | cons phase phases ih =>
    obtain ⟨d, hpreview, hmove⟩ :=
      does_tracedMove hengine symbol domain (BitVec.ofNat 8 phase) hcursor
    obtain ⟨steps, w', hsteps, hindex, hinputs, hrest⟩ :=
      @ih (engine.moveState w symbol domain (BitVec.ofNat 8 phase) d) (hcursor.advance _ _)
    rw [engine.moveState_symbolIndex] at hindex hinputs
    refine ⟨(engine.moveTrace w symbol domain (BitVec.ofNat 8 phase) d,
      engine.moveState w symbol domain (BitVec.ofNat 8 phase) d) :: steps, w',
      .moved w.symbolIndex hpreview hsteps, hindex, ?_, fun trace => ?_⟩
    · exact congrArg _ hinputs
    · rw [List.forM_cons, ← List.singleton_append, performed_append, historyOf_append]
      exact (hmove trace).bind (hrest trace)

/-- **A symbol** makes its moves and counts. -/
theorem does_absorbSymbol (hengine : engine.Sound DecisionOk) (symbol : U8) (domain : Domain)
    {moves : ℕ} (hmoves : CountOk moves) (hcursor : w.cursor.InRange) :
    ∃ steps w', engine.Steps w (performed steps) w' ∧ w'.symbolIndex = w.symbolIndex + 1 ∧
      steps.map (fun step => step.1.input) = symbolInputs w.symbolIndex symbol domain moves ∧
      ∀ trace, Does (engine.absorbSymbol symbol domain moves trace) w ()
        (historyOf trace (performed steps)) w' := by
  obtain ⟨hpos, hle⟩ := hmoves
  have hguard : ¬ (moves = 0 ∨ moves > 255) := by omega
  obtain ⟨steps, w', hsteps, hindex, hinputs, hrun⟩ :=
    does_phases hengine symbol domain (List.range moves) hcursor
  refine ⟨steps, { w' with symbolIndex := w'.symbolIndex + 1 }, ?_, ?_, hinputs, fun trace => ?_⟩
  · rw [← List.append_nil (performed steps)]
    exact hsteps.trans (.nil w' _)
  · rw [← hindex]
  · unfold Engine.absorbSymbol
    rw [if_neg hguard, ← History.append_empty (historyOf trace (performed steps))]
    exact (hrun trace).bind (does_modifyWorking _)

/-- The moves of a sequence: the symbols in order, the counter counting on. -/
def sequenceInputs (domain : Domain) (moves : ℕ) : U64 → List U8 → List MoveInput
  | _, [] => []
  | index, symbol :: symbols =>
    symbolInputs index symbol domain moves ++ sequenceInputs domain moves (index + 1) symbols

/-- **A sequence** absorbs its symbols in order. -/
theorem does_absorbSequence (hengine : engine.Sound DecisionOk) (symbols : List U8)
    (domain : Domain) {moves : ℕ} (hmoves : CountOk moves) (hcursor : w.cursor.InRange) :
    ∃ steps w', engine.Steps w (performed steps) w' ∧
      w'.symbolIndex = w.symbolIndex + BitVec.ofNat 64 symbols.length ∧
      steps.map (fun step => step.1.input) = sequenceInputs domain moves w.symbolIndex symbols ∧
      ∀ trace, Does (engine.absorbSequence symbols domain moves trace) w ()
        (historyOf trace (performed steps)) w' := by
  induction symbols generalizing w with
  | nil =>
    refine ⟨[], w, Engine.Steps.nil w w.symbolIndex, (BitVec.add_zero _).symm, rfl, ?_⟩
    intro trace
    rw [performed, List.map_nil, historyOf_nil]
    exact Does.pure ()
  | cons symbol symbols ih =>
    obtain ⟨steps, w₁, hsteps, hindex, hinputs, hfirst⟩ :=
      does_absorbSymbol hengine symbol domain hmoves hcursor
    obtain ⟨steps', w', hsteps', hindex', hinputs', hrest⟩ := ih (hsteps.cursor_inRange hcursor)
    refine ⟨steps ++ steps', w', performed_append steps steps' ▸ hsteps.trans hsteps', ?_, ?_, ?_⟩
    · rw [hindex', hindex, List.length_cons, BitVec.add_assoc, BitVec.ofNat_add,
        BitVec.add_comm (BitVec.ofNat 64 symbols.length)]
      rfl
    · rw [List.map_append, hinputs, hinputs', hindex]
      rfl
    · intro trace
      rw [performed_append, historyOf_append]
      exact (hfirst trace).bind (hrest trace)

end Symbols

/-! ## The start of the key schedule -/

/-- `make_keyed_state` absorbs the key into the initial state. -/
theorem makeKeyedState_run {engine : Engine C D} {s₀ : WorkingStateOf C}
    (hs₀ : engine.initial kPublicBootstrapSeed = .ok s₀) (key : ResearchKey256)
    {profile : KeyScheduleProfile} (hprofile : profile.Valid) (trace : Bool) (m : Machine C D) :
    (engine.makeKeyedState key profile trace).run m
      = (engine.absorbKey key profile trace).run (m.extended s₀ [] ⟨[], [s₀], []⟩) := by
  have hvalid : validateKeyScheduleProfile profile = .ok () := if_pos hprofile
  have hstart : m.extended s₀ [] ⟨[], [s₀], []⟩
      = { m with working := s₀, points := s₀ :: m.points } := by
    simp [Machine.extended]
  rw [hstart]
  unfold Engine.makeKeyedState
  rw [hvalid, hs₀]
  rfl
