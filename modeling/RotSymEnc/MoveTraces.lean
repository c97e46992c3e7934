/-
# What the move trace records

With a trace vector supplied, every move of a run appends one entry.  The entries
determine the geometry of the run: each is one rotation of the line through the
cursor before it, they chain from one cursor and axis to the next, replaying them
gives the final cube, and undoing them from the last to the first gives the start
cube back.
-/
import RotSymEnc.ReachableStates
import RotSymEnc.LineRotations

open TorusLines StatefulRuns

/-! ## Calls -/

/-- A call that absorbs into a working state. -/
inductive AbsorbCall : Type where
  | symbol (symbol : U8) (domain : Domain) (moves : ℕ)
  | sequence (symbols : List U8) (domain : Domain) (moves : ℕ)
  | entry (domain : Domain) (sequenceLength : U64)

namespace AbsorbCall

/-- The call, with a trace vector or a null pointer. -/
def run (trace : Bool) : AbsorbCall → A2Run PUnit
  | symbol s domain moves => absorbSymbol s domain moves trace
  | sequence symbols domain moves => absorbSequence symbols domain moves trace
  | entry domain sequenceLength => enterDomain domain sequenceLength

/-- The move count of the call is in `[1,255]`. -/
def Valid : AbsorbCall → Prop
  | symbol _ _ moves => CountOk moves
  | sequence _ _ moves => CountOk moves
  | entry _ _ => True

/-- The number of symbols absorbed. -/
def symbols : AbsorbCall → ℕ
  | symbol _ _ _ => 1
  | sequence symbols _ _ => symbols.length
  | entry _ _ => 0

/-- The moves of the call, from the symbol counter it starts with. -/
def inputs (index : U64) : AbsorbCall → List MoveInput
  | symbol s domain moves => symbolInputs index s domain moves
  | sequence symbols domain moves => sequenceInputs domain moves index symbols
  | entry _ _ => []

end AbsorbCall

/-- The moves of a sequence of calls. -/
def callInputs : U64 → List AbsorbCall → List MoveInput
  | _, [] => []
  | index, call :: calls =>
    call.inputs index ++ callInputs (index + BitVec.ofNat 64 call.symbols) calls

section Calls

variable {w : WorkingState}

/-- One call. -/
theorem does_absorbCall (hcursor : w.cursor.InRange) {call : AbsorbCall} (hcall : call.Valid) :
    ∃ events w', engineA2.Steps w events w' ∧
      w'.symbolIndex = w.symbolIndex + BitVec.ofNat 64 call.symbols ∧
      (movesOf events).map MoveTraceOf.input = call.inputs w.symbolIndex ∧
      ∀ trace, Does (call.run trace) w () (historyOf trace events) w' := by
  cases call with
  | symbol s domain moves =>
    obtain ⟨steps, w', hsteps, hindex, hinputs, hdoes⟩ :=
      does_absorbSymbol engineA2_sound s domain hcall hcursor
    refine ⟨performed steps, w', hsteps, hindex, ?_, hdoes⟩
    rw [movesOf_performed, List.map_map]
    exact hinputs
  | sequence symbols domain moves =>
    obtain ⟨steps, w', hsteps, hindex, hinputs, hdoes⟩ :=
      does_absorbSequence engineA2_sound symbols domain hcall hcursor
    refine ⟨performed steps, w', hsteps, hindex, ?_, hdoes⟩
    rw [movesOf_performed, List.map_map]
    exact hinputs
  | entry domain sequenceLength =>
    obtain ⟨diagonals, hreads⟩ := exists_reads_bodyDiagonals w.cube
    refine ⟨[.entered _], _, Engine.Steps.entered w.symbolIndex
      (enteredController w.controller diagonals domain sequenceLength) (.nil _ w.symbolIndex),
      (BitVec.add_zero _).symm, rfl, fun trace => ?_⟩
    cases trace <;> exact does_enterDomain engineA2 domain sequenceLength hreads

/-- **A run of calls** is a path, the same with and without a trace vector. -/
theorem does_calls (hcursor : w.cursor.InRange) {calls : List AbsorbCall}
    (hcalls : ∀ call ∈ calls, call.Valid) :
    ∃ events w', engineA2.Steps w events w' ∧
      (movesOf events).map MoveTraceOf.input = callInputs w.symbolIndex calls ∧
      ∀ trace, Does (forM calls (AbsorbCall.run trace)) w () (historyOf trace events) w' := by
  induction calls generalizing w with
  | nil =>
    refine ⟨[], w, Engine.Steps.nil w w.symbolIndex, rfl, fun trace => ?_⟩
    rw [historyOf_nil]
    exact Does.pure ()
  | cons call calls ih =>
    obtain ⟨hcall, hcalls⟩ := List.forall_mem_cons.mp hcalls
    obtain ⟨events, w₁, hsteps, hindex, hinputs, hfirst⟩ := does_absorbCall hcursor hcall
    obtain ⟨events', w', hsteps', hinputs', hrest⟩ := ih (hsteps.cursor_inRange hcursor) hcalls
    refine ⟨events ++ events', w', hsteps.trans hsteps', ?_, fun trace => ?_⟩
    · rw [movesOf_append, List.map_append, hinputs, hinputs', hindex]
      rfl
    · rw [List.forM_cons, historyOf_append]
      exact (hfirst trace).bind (hrest trace)

end Calls

/-! ## Entries -/

/-- An entry of the trace: the axis changes, the amount rotates, and the cursor
advances with the line. -/
structure MoveTraceOf.GeometryOk (move : MoveTrace) : Prop where
  axis_ne : move.decision.axis ≠ move.previousAxis
  amount_ok : AmountOk move.decision.amount
  cursorAfter_eq :
    move.cursorAfter = advance move.cursorBefore move.decision.axis move.decision.amount

/-- The entries lead from one cursor and previous axis to another, each starting where
the one before it ended. -/
def Chained : Coord → Axis → List MoveTrace → Coord → Axis → Prop
  | cursor, axis, [], cursor', axis' => cursor' = cursor ∧ axis' = axis
  | cursor, axis, move :: moves, cursor', axis' =>
    move.cursorBefore = cursor ∧ move.previousAxis = axis ∧
      Chained move.cursorAfter move.decision.axis moves cursor' axis'

/-- Replaying the entries: one `rotate_line` each, in order. -/
def replay (moves : List MoveTrace) : CubeRun PUnit :=
  forM moves fun move => rotateLine move.decision.axis move.cursorBefore move.decision.amount

/-- Undoing the entries: the complementary rotations, in reverse order. -/
def undo (moves : List MoveTrace) : CubeRun PUnit :=
  forM moves.reverse fun move =>
    rotateLine move.decision.axis move.cursorBefore (8 - move.decision.amount)

section Paths

variable {w w' : WorkingState} {events : List (Event ControllerState MoveDecision)}

/-- **Every entry** of a path is well formed. -/
theorem Engine.Steps.geometryOk (h : engineA2.Steps w events w') :
    ∀ move ∈ movesOf events, move.GeometryOk := by
  induction h with
  | nil w index => exact List.forall_mem_nil _
  | entered index controller rest ih => exact ih
  | @moved w w' events index symbol domain phase d preview rest ih =>
    obtain ⟨d', hpreview, hd', -, haxis, -⟩ :=
      previewMove_ok { w with symbolIndex := index } symbol domain phase
    obtain rfl : d' = d := hpreview.unique preview
    exact List.forall_mem_cons.mpr ⟨⟨haxis, hd'.amount, rfl⟩, ih⟩

/-- **The entries of a path chain.** -/
theorem Engine.Steps.chained (h : engineA2.Steps w events w') :
    Chained w.cursor w.previousAxis (movesOf events) w'.cursor w'.previousAxis := by
  induction h with
  | nil w index => exact ⟨rfl, rfl⟩
  | entered index controller rest ih => exact ih
  | moved index preview rest ih => exact ⟨rfl, rfl, ih⟩

/-- The call turns one cube into the other. -/
def CubeRun.Turns (x : CubeRun PUnit) (cube cube' : Cube) : Prop :=
  ∀ accesses, ∃ new, x.run ⟨cube, accesses⟩ = .ok () ⟨cube', new ++ accesses⟩

theorem CubeRun.Turns.bind {x : CubeRun PUnit} {f : PUnit → CubeRun PUnit}
    {cube cube₁ cube₂ : Cube} (hx : x.Turns cube cube₁) (hf : (f ()).Turns cube₁ cube₂) :
    CubeRun.Turns (x >>= f) cube cube₂ := by
  intro accesses
  obtain ⟨new, hrun⟩ := hx accesses
  obtain ⟨new', hrun'⟩ := hf (new ++ accesses)
  refine ⟨new' ++ new, ?_⟩
  rw [run_bind_of_ok hrun, hrun', List.append_assoc]

theorem turns_nil (f : MoveTrace → CubeRun PUnit) (cube : Cube) :
    CubeRun.Turns (forM [] f) cube cube :=
  fun _ => ⟨[], rfl⟩

theorem turns_rotateLine (axis : Axis) {coord : Coord} (h : coord.InRange) (amount : U8)
    (cube : Cube) : (rotateLine axis coord amount).Turns cube
      (cube.rotated axis coord.pos (Fin.ofNat 8 amount.toNat)) := by
  intro accesses
  obtain ⟨new, hrun, -⟩ := rotateLine_run axis h amount ⟨cube, accesses⟩
  exact ⟨new, hrun⟩

/-- What a turning call returns and leaves. -/
theorem CubeRun.Turns.returned_after {x : CubeRun PUnit} {cube cube' : Cube}
    (h : x.Turns cube cube') : x.returned cube = .ok () ∧ x.after cube = cube' := by
  obtain ⟨new, hrun⟩ := h []
  unfold CubeRun.returned CubeRun.after
  rw [hrun]
  exact ⟨rfl, rfl⟩

/-- An amount in `1..7` and its complement to 8 make a full turn. -/
theorem amount_add_complement {amount : U8} (h : AmountOk amount) :
    Fin.ofNat 8 amount.toNat + Fin.ofNat 8 (8 - amount).toNat = 0 := by
  have hall : ∀ amount : U8, AmountOk amount →
      Fin.ofNat 8 amount.toNat + Fin.ofNat 8 (8 - amount).toNat = 0 := by
    decide +kernel
  exact hall amount h

/-- **Replaying a path** turns its first cube into its last. -/
theorem Engine.Steps.replay_turns (h : engineA2.Steps w events w') (hw : w.cursor.InRange) :
    (replay (movesOf events)).Turns w.cube w'.cube := by
  induction h with
  | nil w index => exact turns_nil _ w.cube
  | entered index controller rest ih => exact ih hw
  | @moved w w' events index symbol domain phase d preview rest ih =>
    exact (turns_rotateLine d.axis hw d.amount w.cube).bind (ih (hw.advance _ _))

/-- **Undoing a path** turns its last cube into its first. -/
theorem Engine.Steps.undo_turns (h : engineA2.Steps w events w') (hw : w.cursor.InRange) :
    (undo (movesOf events)).Turns w'.cube w.cube := by
  induction h with
  | nil w index => exact turns_nil _ w.cube
  | entered index controller rest ih => exact ih hw
  | @moved w w' events index symbol domain phase d preview rest ih =>
    obtain ⟨d', hpreview, hd', -⟩ :=
      engineA2_sound.preview { w with symbolIndex := index } symbol domain phase
    obtain rfl : d' = d := hpreview.unique preview
    -- the rest is undone first, then this move
    have hback := turns_rotateLine d'.axis hw (8 - d'.amount)
      (w.cube.rotated d'.axis w.cursor.pos (Fin.ofNat 8 d'.amount.toNat))
    rw [rotated_rotated, amount_add_complement hd'.amount, rotated_zero] at hback
    unfold undo
    rw [movesOf_cons_moved, List.reverse_cons, List.forM_append]
    refine (ih (hw.advance _ _)).bind ?_
    rw [List.forM_cons]
    exact hback.bind (turns_nil _ _)

end Paths

/-! ## Lengths -/

/-- The cursor is in range and the trace vector has `n` entries. -/
structure Machine.TraceAt {C D : Type} (n : ℕ) (m : Machine C D) : Prop where
  cursor_inRange : m.working.cursor.InRange
  length_eq : m.trace.length = n

/-- The run does not fail from a state with its cursor in range, and appends `k` entries
to the trace vector. -/
def Appends {C D α : Type} (k : ℕ) (x : C1Run C D α) : Prop :=
  ∀ n, Leads (Machine.TraceAt n) x (Machine.TraceAt (n + k)) fun _ => True

section Lengths

variable {C D α β : Type}

theorem Appends.bind {j k : ℕ} {x : C1Run C D α} {f : α → C1Run C D β} (hx : Appends j x)
    (hf : ∀ a, Appends k (f a)) : Appends (j + k) (x >>= f) := by
  intro n
  rw [← Nat.add_assoc]
  exact (hx n).bind fun a _ => hf a (n + j)

/-- What keeps the trace vector and the cursor appends nothing. -/
theorem Appends.of_does {x : C1Run C D α}
    (hx : ∀ w : WorkingStateOf C, w.cursor.InRange → ∃ a h w', Does x w a h w' ∧
      w'.cursor.InRange ∧ h.entries = []) : Appends 0 x := by
  intro n m hm
  obtain ⟨a, h, w', hdoes, hw', hentries⟩ := hx m.working hm.cursor_inRange
  obtain ⟨accesses, -, hrun⟩ := hdoes m rfl
  refine ⟨a, _, hrun, ⟨hw', ?_⟩, trivial⟩
  simp only [Machine.extended, hentries, List.append_nil]
  exact hm.length_eq

theorem appends_lift {x : Except Fault α} {a : α} (hx : x = .ok a) :
    Appends 0 (lift x : C1Run C D α) :=
  .of_does fun w hw => ⟨a, .empty, w, does_lift hx, hw, rfl⟩

theorem appends_working : Appends 0 (C1Run.working : C1Run C D _) :=
  .of_does fun w hw => ⟨w, .empty, w, does_working, hw, rfl⟩

theorem appends_reading {x : AccessRun α} (hx : ∃ a, Reads x a) :
    Appends 0 (C1Run.reading x : C1Run C D α) := by
  obtain ⟨a, hx⟩ := hx
  exact .of_does fun w hw => ⟨a, .empty, w, does_reading hx, hw, rfl⟩

theorem appends_setSymbolIndex (index : U64) :
    Appends 0 (C1Run.modifyWorking fun s => { s with symbolIndex := index } : C1Run C D PUnit) :=
  .of_does fun _ hw => ⟨(), .empty, _, does_modifyWorking _, hw, rfl⟩

theorem appends_enterDomain (engine : Engine C D) (domain : Domain) (sequenceLength : U64) :
    Appends 0 (engine.enterDomain domain sequenceLength) := by
  refine .of_does fun w hw => ?_
  obtain ⟨diagonals, hreads⟩ := exists_reads_bodyDiagonals w.cube
  exact ⟨(), _, _, does_enterDomain engine domain sequenceLength hreads, hw, rfl⟩

/-- A loop whose passes append `k` entries each. -/
theorem appends_forM {κ : Type} {k : ℕ} {f : κ → C1Run C D PUnit} (l : List κ)
    (hf : ∀ a ∈ l, Appends k (f a)) : Appends (l.length * k) (forM l f) := by
  induction l with
  | nil =>
    rw [List.length_nil, Nat.zero_mul]
    exact .of_does fun w hw => ⟨(), .empty, w, Does.pure (), hw, rfl⟩
  | cons a l ih =>
    rw [List.forM_cons, List.length_cons, Nat.succ_mul, Nat.add_comm]
    exact (hf a List.mem_cons_self).bind fun _ =>
      ih fun b hb => hf b (List.mem_cons_of_mem a hb)

theorem appends_forM_finRange {m k : ℕ} {f : Fin m → C1Run C D PUnit}
    (hf : ∀ i, Appends k (f i)) : Appends (m * k) (forM (List.finRange m) f) := by
  have hloop := appends_forM (List.finRange m) fun i _ => hf i
  rwa [List.length_finRange] at hloop

theorem appends_forM_range {m k : ℕ} {f : ℕ → C1Run C D PUnit}
    (hf : ∀ i, Appends k (f i)) : Appends (m * k) (forM (List.range m) f) := by
  have hloop := appends_forM (List.range m) fun i _ => hf i
  rwa [List.length_range] at hloop

variable {engine : Engine C D} {DecisionOk : D → Prop}

/-- A symbol appends one entry a move. -/
theorem appends_absorbSymbol (hengine : engine.Sound DecisionOk) (symbol : U8) (domain : Domain)
    {moves : ℕ} (hmoves : CountOk moves) :
    Appends moves (engine.absorbSymbol symbol domain moves true) := by
  intro n m hm
  obtain ⟨steps, w', hsteps, -, hinputs, hdoes⟩ :=
    does_absorbSymbol hengine symbol domain hmoves hm.cursor_inRange
  obtain ⟨accesses, -, hrun⟩ := hdoes true m rfl
  refine ⟨(), _, hrun, ⟨hsteps.cursor_inRange hm.cursor_inRange, ?_⟩, trivial⟩
  have hlength := congrArg List.length hinputs
  rw [List.length_map, symbolInputs, List.length_map, List.length_range] at hlength
  show (m.trace ++ movesOf (performed steps)).length = n + moves
  rw [movesOf_performed, List.length_append, List.length_map, hm.length_eq, hlength]

theorem appends_absorbSequence (hengine : engine.Sound DecisionOk) (symbols : List U8)
    (domain : Domain) {moves : ℕ} (hmoves : CountOk moves) :
    Appends (symbols.length * moves) (engine.absorbSequence symbols domain moves true) :=
  appends_forM symbols fun symbol _ => appends_absorbSymbol hengine symbol domain hmoves

/-- **The key schedule** moves 72 forward symbols, 32 return symbols and 16 seal symbols. -/
theorem appends_absorbKey (hengine : engine.Sound DecisionOk) (key : ResearchKey256)
    {profile : KeyScheduleProfile} (hprofile : profile.Valid) :
    Appends (72 * profile.forwardMoves + 32 * profile.returnMoves + 16 * profile.sealMoves)
      (engine.absorbKey key profile true) := by
  obtain ⟨hforward, hreturn, hseal⟩ := hprofile
  have hcount : 72 * profile.forwardMoves + 32 * profile.returnMoves + 16 * profile.sealMoves
      = 0 + (8 * profile.forwardMoves + (32 * (2 * profile.forwardMoves)
        + (0 + (32 * profile.returnMoves + (0 + (16 * profile.sealMoves + 0)))))) := by
    ring
  have hmix : ∀ i : Fin 32, Appends (2 * profile.forwardMoves) (engine.absorbSequence
      [key[i] ^^^ positionMask i 0xA5, forwardCrossSymbol key i] .keyForward
        profile.forwardMoves true) :=
    fun i => appends_absorbSequence hengine _ _ hforward
  rw [hcount]
  refine (appends_enterDomain engine _ _).bind fun _ => ?_
  refine (appends_absorbSequence hengine keyHeader _ hforward).bind fun _ => ?_
  refine (appends_forM_finRange fun i => hmix i).bind fun _ => ?_
  refine (appends_enterDomain engine _ _).bind fun _ => ?_
  refine (appends_forM_finRange fun i => appends_absorbSymbol hengine _ _ hreturn).bind
    fun _ => ?_
  refine (appends_enterDomain engine _ _).bind fun _ => ?_
  refine (appends_forM_finRange fun i => appends_absorbSymbol hengine _ _ hseal).bind fun _ => ?_
  exact appends_setSymbolIndex 0

/-- **The transcript return** moves its init symbols, the message and its seal symbols. -/
theorem appends_transcriptReturn (hengine : engine.Sound DecisionOk) {rules : ReturnRules C}
    (hrules : rules.Sound) (message : List U8) {profile : ReturnProfile}
    (hprofile : profile.Valid) :
    Appends (profile.initSymbols * profile.initMoves + message.length * profile.messageMoves
      + profile.sealSymbols * profile.sealMoves)
      (engine.transcriptReturn rules message profile true) := by
  have hvalid : validateReturnProfile profile = .ok () := if_pos hprofile
  obtain ⟨-, hinit, hmessage, -, hseal⟩ := hprofile
  have hcount : profile.initSymbols * profile.initMoves + message.length * profile.messageMoves
      + profile.sealSymbols * profile.sealMoves
      = 0 + (0 + (0 + (profile.initSymbols * (0 + profile.initMoves)
        + (0 + (message.length * (0 + (0 + profile.messageMoves))
        + (0 + (0 + profile.sealSymbols * (0 + (0 + profile.sealMoves))))))))) := by
    ring
  rw [hcount]
  refine (appends_lift hvalid).bind fun _ => ?_
  refine appends_working.bind fun snapshot => ?_
  refine (appends_enterDomain engine _ _).bind fun _ => ?_
  refine (appends_forM_range fun i => ?_).bind fun _ => ?_
  · exact (appends_reading (hrules.initSymbol _ _ _)).bind fun symbol =>
      appends_absorbSymbol hengine symbol _ hinit
  refine (appends_enterDomain engine _ _).bind fun _ => ?_
  refine (appends_forM_finRange fun i => ?_).bind fun _ => ?_
  · refine appends_working.bind fun current => ?_
    exact (appends_reading (hrules.returnSymbol _ _ _ _ _)).bind fun symbol =>
      appends_absorbSymbol hengine symbol _ hmessage
  refine appends_working.bind fun current => ?_
  refine (appends_enterDomain engine _ _).bind fun _ => ?_
  refine appends_forM_range fun i => ?_
  refine appends_working.bind fun current => ?_
  exact (appends_reading (hrules.sealSymbol _ _ _ _)).bind fun symbol =>
    appends_absorbSymbol hengine symbol _ hseal

end Lengths

/-- The trace of `make_keyed_state_a2`. -/
theorem makeKeyedStateA2_trace (key : ResearchKey256) {profile : KeyScheduleProfile}
    (hprofile : profile.Valid) (m : Machine ControllerState MoveDecision) :
    ∃ m', (makeKeyedStateA2 key profile true).run m = .ok () m' ∧ m'.trace.length
      = m.trace.length
        + (72 * profile.forwardMoves + 32 * profile.returnMoves + 16 * profile.sealMoves) := by
  obtain ⟨s₀, hs₀, -, hcursor⟩ := makeInitialState_eq kPublicBootstrapSeed
  obtain ⟨u, m', hrun, hm', -⟩ := appends_absorbKey engineA2_sound key hprofile m.trace.length
    (m.extended s₀ [] ⟨[], [s₀], []⟩) ⟨hcursor, by simp [Machine.extended]⟩
  have hstart := @makeKeyedState_run _ _ engineA2 s₀ hs₀ key profile hprofile true m
  exact ⟨m', hstart.trans hrun, hm'.length_eq⟩

/-- **The trace determines the geometry of a run.**  From every state with its cursor in
range, a sequence of calls with counts in `[1,255]` appends one entry a move, phase
after phase of symbol after symbol; every entry is well formed, the entries chain,
replaying them gives the final cube and undoing them the start cube; and without a
trace vector the final state is the same.  The traces of the key schedule and of the
transcript return have the lengths of their profiles. -/
theorem trace_determines_geometry :
    (∀ (m : Machine ControllerState MoveDecision) (calls : List AbsorbCall),
      m.working.cursor.InRange → (∀ call ∈ calls, call.Valid) →
      ∃ m' m'' moves,
        (forM calls (AbsorbCall.run true)).run m = .ok () m' ∧
        m'.trace = m.trace ++ moves ∧
        moves.map MoveTraceOf.input = callInputs m.working.symbolIndex calls ∧
        (∀ move ∈ moves, move.GeometryOk) ∧
        Chained m.working.cursor m.working.previousAxis moves m'.working.cursor
          m'.working.previousAxis ∧
        ((replay moves).returned m.working.cube = .ok () ∧
          (replay moves).after m.working.cube = m'.working.cube) ∧
        ((undo moves).returned m'.working.cube = .ok () ∧
          (undo moves).after m'.working.cube = m.working.cube) ∧
        (forM calls (AbsorbCall.run false)).run m = .ok () m'' ∧
        m''.working = m'.working ∧ m''.trace = m.trace) ∧
    (∀ (key : ResearchKey256) (profile : KeyScheduleProfile), profile.Valid →
      ∀ m, ∃ m', (makeKeyedStateA2 key profile true).run m = .ok () m' ∧ m'.trace.length
        = m.trace.length
          + (72 * profile.forwardMoves + 32 * profile.returnMoves + 16 * profile.sealMoves)) ∧
    ∀ (message : List U8) (profile : ReturnProfile), profile.Valid →
      ∀ m : Machine ControllerState MoveDecision, m.working.cursor.InRange →
      ∃ m', (applyTranscriptReturnA2 message profile true).run m = .ok () m' ∧ m'.trace.length
        = m.trace.length + (profile.initSymbols * profile.initMoves
          + message.length * profile.messageMoves + profile.sealSymbols * profile.sealMoves) := by
  refine ⟨?_, fun key profile hprofile m => makeKeyedStateA2_trace key hprofile m, ?_⟩
  · intro m calls hcursor hcalls
    obtain ⟨events, w', hsteps, hinputs, hdoes⟩ := does_calls hcursor hcalls
    obtain ⟨accesses, -, hrun⟩ := hdoes true m rfl
    obtain ⟨accesses', -, hrun'⟩ := hdoes false m rfl
    exact ⟨_, _, movesOf events, hrun, rfl, hinputs, hsteps.geometryOk, hsteps.chained,
      (hsteps.replay_turns hcursor).returned_after, (hsteps.undo_turns hcursor).returned_after,
      hrun', rfl, List.append_nil _⟩
  · intro message profile hprofile m hcursor
    obtain ⟨u, m', hrun, hm', -⟩ := appends_transcriptReturn engineA2_sound returnRulesA2_sound
      message hprofile m.trace.length m ⟨hcursor, rfl⟩
    exact ⟨m', hrun, hm'.length_eq⟩

/-- The trace of one symbol after a domain entry, and the traces of the default
profiles. -/
theorem trace_determines_geometry_default :
    (∃ m' moves, (forM [.entry .inputForward 1, .symbol 0x61 .inputForward 2]
        (AbsorbCall.run true)).run freshMachineA2 = .ok () m' ∧ m'.trace = moves ∧
      moves.length = 2 ∧ (replay moves).after freshMachineA2.working.cube = m'.working.cube) ∧
    (∃ m', (makeKeyedStateA2 (Vector.replicate 32 0) {} true).run freshMachineA2 = .ok () m' ∧
      m'.trace.length = 480) ∧
    ∃ m', (applyTranscriptReturnA2 [0x61] {} true).run freshMachineA2 = .ok () m' ∧
      m'.trace.length = 104 := by
  obtain ⟨hcalls, hkey, hreturn⟩ := trace_determines_geometry
  have hcursor : freshMachineA2.working.cursor.InRange := by decide
  have hvalid : ∀ call ∈ [AbsorbCall.entry .inputForward 1, .symbol 0x61 .inputForward 2],
      call.Valid := by
    rintro call (_ | ⟨_, _ | ⟨_, h⟩⟩)
    · exact trivial
    · exact ⟨by decide, by decide⟩
    · exact absurd h List.not_mem_nil
  obtain ⟨m', m'', moves, hrun, htrace, hinputs, -, -, ⟨-, hreplay⟩, -⟩ :=
    hcalls freshMachineA2 _ hcursor hvalid
  refine ⟨⟨m', moves, hrun, htrace, ?_, hreplay⟩, hkey _ _ (by decide) freshMachineA2,
    hreturn _ _ (by decide) freshMachineA2 hcursor⟩
  have hlength := congrArg List.length hinputs
  rw [List.length_map] at hlength
  exact hlength
