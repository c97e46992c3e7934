/-
# Reads of a move are local

Two runs that start from states differing in one cell of the cube.  A move reads the
cube at its four probes and along the line of the cursor, and nowhere else: a
difference outside of these is carried along untouched.  And as long as the two runs
decide alike, the difference stays one cell and moves with the rotations.
-/
import RotSymEnc.MoveTraces

open TorusLines StatefulRuns

/-! ## A difference in one cell -/

/-- The states agree except for the cell at `p`, where they differ by `δ`. -/
structure DifferAt {C : Type} (p : Pos) (δ : U8) (s s' : WorkingStateOf C) : Prop where
  cell_eq : s'.cube.cell p = s.cube.cell p ^^^ δ
  elsewhere : ∀ q, q ≠ p → s'.cube.cell q = s.cube.cell q
  cursor_eq : s'.cursor = s.cursor
  previousAxis_eq : s'.previousAxis = s.previousAxis
  controller_eq : s'.controller = s.controller
  symbolIndex_eq : s'.symbolIndex = s.symbolIndex

section Differ

variable {C D : Type} {p : Pos} {δ : U8} {s s' : WorkingStateOf C}

/-- The second filling, from the first. -/
theorem DifferAt.cell (h : DifferAt p δ s s') :
    s'.cube.cell = Function.update s.cube.cell p (s.cube.cell p ^^^ δ) := by
  funext q
  by_cases hq : q = p
  · subst hq
    rw [Function.update_self, h.cell_eq]
  · rw [Function.update_of_ne hq, h.elsewhere q hq]

/-- The second state is the first with another cube. -/
theorem DifferAt.eq_withCube (h : DifferAt p δ s s') : s' = { s with cube := s'.cube } := by
  obtain ⟨cube', cursor', axis', controller', index'⟩ := s'
  obtain ⟨-, -, rfl, rfl, rfl, rfl⟩ := h
  rfl

/-- The symbol counter may be set to the same value in both. -/
theorem DifferAt.withIndex (h : DifferAt p δ s s') (index : U64) :
    DifferAt p δ { s with symbolIndex := index } { s' with symbolIndex := index } :=
  ⟨h.cell_eq, h.elsewhere, h.cursor_eq, h.previousAxis_eq, h.controller_eq, rfl⟩

/-- **A rotation carries the difference along.** -/
theorem DifferAt.rotated (h : DifferAt p δ s s') (axis : Axis) (q : Pos) (amount : Fin 8) :
    (s'.cube.rotated axis q amount).cell = Function.update (s.cube.rotated axis q amount).cell
      (lineShift axis q amount p)
      ((s.cube.rotated axis q amount).cell (lineShift axis q amount p) ^^^ δ) := by
  have hmoved : lineRotate axis q amount s.cube.cell (lineShift axis q amount p)
      = s.cube.cell p := by
    rw [lineRotate_eq_comp, Function.comp_apply, Equiv.symm_apply_apply]
  rw [Cube.cell_rotated, Cube.cell_rotated, h.cell, lineRotate_update, hmoved]

/-- **After a move decided alike**, where the lanes agree again, the states differ where
the rotation carried the cell. -/
theorem DifferAt.afterMove (h : DifferAt p δ s s') (axis : Axis) (amount : U8) (controller : C) :
    DifferAt (lineShift axis s.cursor.pos (Fin.ofNat 8 amount.toNat) p) δ
      (s.afterMove axis amount controller) (s'.afterMove axis amount controller) := by
  have hcube := h.rotated axis s.cursor.pos (Fin.ofNat 8 amount.toNat)
  unfold WorkingStateOf.afterMove
  rw [h.cursor_eq, h.symbolIndex_eq]
  refine ⟨?_, ?_, rfl, rfl, rfl, rfl⟩
  · rw [hcube, Function.update_self]
  · intro q hq
    rw [hcube, Function.update_of_ne hq]

end Differ

/-! ## One move -/

section Move

variable {p : Pos} {δ : U8} {s s' : WorkingState} {symbol : U8} {domain : Domain} {phase : U8}
  {d : MoveDecision}

/-- Outside the line, a rotation leaves the difference where it is. -/
theorem DifferAt.rotated_elsewhere (h : DifferAt p δ s s') {axis : Axis} {q : Pos}
    (hline : ¬ OnLine axis q p) (amount : Fin 8) {r : Pos} (hr : r ≠ p) :
    (s'.cube.rotated axis q amount).cell r = (s.cube.rotated axis q amount).cell r := by
  rw [h.rotated axis q amount, lineShift_of_not_onLine hline, Function.update_of_ne hr]

/-- A line without the cell at `p` is read alike from two fillings that agree
elsewhere. -/
theorem lineCells_congr {cube cube' : Cube} {axis : Axis} {q : Pos}
    (hline : ¬ OnLine axis q p) (hcells : ∀ r, r ≠ p → cube'.cell r = cube.cell r) :
    lineCells cube' axis q = lineCells cube axis q := by
  unfold lineCells
  congr 1
  funext i
  apply hcells
  rintro rfl
  exact hline (onLine_update_self axis q i)

/-- **The lanes after a move** do not see a cell outside the probes and the line. -/
theorem DifferAt.nextController_eq (h : DifferAt p δ s s')
    (hprobes : ∀ c ∈ d.probes.coords, c.pos ≠ p) (hline : ¬ OnLine d.axis s.cursor.pos p) :
    engineA2.moveFeedback s' d phase = engineA2.moveFeedback s d phase ∧
      engineA2.nextController s' d symbol domain phase
        = engineA2.nextController s d symbol domain phase := by
  obtain ⟨cube', rfl⟩ : ∃ cube', s' = { s with cube := cube' } := ⟨_, h.eq_withCube⟩
  have haxis1 : d.probes.axisCoord1.pos ≠ p := hprobes _ (by simp [ProbeSet.coords])
  have hamount1 : d.probes.amountCoord1.pos ≠ p := hprobes _ (by simp [ProbeSet.coords])
  have hrotated := fun r (hr : r ≠ p) =>
    h.rotated_elsewhere hline (Fin.ofNat 8 d.amount.toNat) hr
  -- the line is the same before and after the cursor has advanced along it
  have hline' : ¬ OnLine d.axis (advance s.cursor d.axis d.amount).pos p := by
    rw [pos_advance]
    exact fun hp => hline fun b hb => (hp b hb).trans (Function.update_of_ne hb _ _)
  have hbefore := lineCells_congr hline h.elsewhere
  have hafter := lineCells_congr hline' hrotated
  have hfeedback : engineA2.moveFeedback { s with cube := cube' } d phase
      = engineA2.moveFeedback s d phase := by
    unfold Engine.moveFeedback
    exact congrArg₂ (fun before after => positionalLineFeedback before after d.axis d.amount phase
      (advance s.cursor d.axis d.amount)) hbefore hafter
  refine ⟨hfeedback, ?_⟩
  unfold Engine.nextController
  rw [hfeedback]
  show movedController (injectSymbol { s with cube := cube' } symbol domain) d _ _
    ((cube'.rotated _ _ _).cell d.probes.axisCoord1.pos)
    ((cube'.rotated _ _ _).cell d.probes.amountCoord1.pos) symbol domain phase = _
  rw [injectSymbol_withCube]
  exact congrArg₂ (fun post0 post1 => movedController (injectSymbol s symbol domain) d _ _ post0
    post1 symbol domain phase) (hrotated _ haxis1) (hrotated _ hamount1)

end Move

/-- **One move on both states.**  Where the cell is neither probed nor on the line, the
two moves are the same, and the cell stays the only difference. -/
theorem DifferAt.applyMove {p : Pos} {δ : U8} {m m' : Machine ControllerState MoveDecision}
    (h : DifferAt p δ m.working m'.working) (hcursor : m.working.cursor.InRange) {symbol : U8}
    {domain : Domain} {phase : U8} {d : MoveDecision}
    (hd : (previewMove m.working symbol domain phase).returned = .ok d)
    (hprobes : ∀ c ∈ d.probes.coords, c.pos ≠ p) (hline : ¬ OnLine d.axis m.working.cursor.pos p) :
    ∃ move m₁ m₁', (applyMove symbol domain phase).run m = .ok move m₁ ∧
      (applyMove symbol domain phase).run m' = .ok move m₁' ∧ move.decision = d ∧
      DifferAt p δ m₁.working m₁'.working := by
  obtain ⟨d', hpreview, -, hin, -, hlocal⟩ := previewMove_ok m.working symbol domain phase
  obtain rfl : d' = d := Except.ok.inj (hpreview.returned.symm.trans hd)
  have hpreview' : Reads (previewMove m'.working symbol domain phase) d' := by
    rw [h.eq_withCube]
    exact hlocal m'.working.cube fun c hc => h.elsewhere c.pos (hprobes c hc)
  have hcursor' : m'.working.cursor.InRange := h.cursor_eq ▸ hcursor
  obtain ⟨accesses, -, hrun⟩ :=
    does_applyMove engineA2 symbol domain phase hcursor hpreview hin m rfl
  obtain ⟨accesses', -, hrun'⟩ :=
    does_applyMove engineA2 symbol domain phase hcursor' hpreview' hin m' rfl
  obtain ⟨hfeedback, hnext⟩ := h.nextController_eq hprobes hline
  have hmove : engineA2.moveTrace m'.working symbol domain phase d'
      = engineA2.moveTrace m.working symbol domain phase d' := by
    unfold Engine.moveTrace
    rw [hfeedback, hnext, h.cursor_eq, h.previousAxis_eq, h.controller_eq, h.symbolIndex_eq]
  rw [hmove] at hrun'
  refine ⟨_, _, _, hrun, hrun', rfl, ?_⟩
  have hafter := h.afterMove d'.axis d'.amount
    (engineA2.nextController m.working d' symbol domain phase)
  rw [lineShift_of_not_onLine hline] at hafter
  show DifferAt p δ (engineA2.moveState m.working symbol domain phase d')
    (engineA2.moveState m'.working symbol domain phase d')
  unfold Engine.moveState
  rw [hnext]
  exact hafter

/-! ## Runs -/

/-- Where the rotation of a move carries the cell at `p`. -/
def MoveTraceOf.carries (move : MoveTrace) (p : Coord) : Coord :=
  if lineContains move.decision.axis move.cursorBefore p then
    advance p move.decision.axis move.decision.amount
  else p

theorem MoveTraceOf.carries_inRange (move : MoveTrace) {p : Coord} (hp : p.InRange) :
    (move.carries p).InRange := by
  unfold MoveTraceOf.carries
  split
  · exact hp.advance _ _
  · exact hp

/-- The rotation carries as the shift of the line does. -/
theorem MoveTraceOf.pos_carries {move : MoveTrace} (hcursor : move.cursorBefore.InRange)
    {p : Coord} (hp : p.InRange) :
    (move.carries p).pos = lineShift move.decision.axis move.cursorBefore.pos
      (Fin.ofNat 8 move.decision.amount.toNat) p.pos := by
  unfold MoveTraceOf.carries
  rw [lineShift_apply, if_congr (onLine_pos_iff _ hcursor hp) rfl rfl, ← pos_advance,
    apply_ite Coord.pos]

/-- Two runs move by move, with the states they end in: as long as decisions and lanes
have agreed, the states differ in one cell, where the rotations carried it. -/
def Tracks (δ : U8) (final final' : WorkingState) :
    Coord → List (MoveTrace × WorkingState) → List (MoveTrace × WorkingState) → Prop
  | p, [], [] => DifferAt p.pos δ final final'
  | p, step :: steps, step' :: steps' =>
    step'.1.decision = step.1.decision → step'.1.controllerAfter = step.1.controllerAfter →
      DifferAt (step.1.carries p).pos δ step.2 step'.2 ∧
        Tracks δ final final' (step.1.carries p) steps steps'
  | _, _, _ => False

/-- **Two paths with the same inputs** track each other. -/
theorem tracks_of_steps {δ : U8} {steps steps' : List (MoveTrace × WorkingState)}
    {s s' w w' : WorkingState} {p : Coord} (h : engineA2.Steps s (performed steps) w)
    (h' : engineA2.Steps s' (performed steps') w')
    (hinputs : steps'.map (fun step => step.1.input) = steps.map (fun step => step.1.input))
    (hindex : w'.symbolIndex = w.symbolIndex) (hcursor : s.cursor.InRange) (hp : p.InRange)
    (hdiffer : ∀ index, DifferAt p.pos δ { s with symbolIndex := index }
      { s' with symbolIndex := index }) : Tracks δ w w' p steps steps' := by
  induction steps generalizing steps' s s' p with
  | nil =>
    obtain rfl : steps' = [] := List.map_eq_nil_iff.mp hinputs
    cases h with
    | nil _ index =>
      cases h' with
      | nil _ index' =>
        obtain rfl : index' = index := hindex
        exact hdiffer index'
  | cons step steps ih =>
    obtain ⟨move, after⟩ := step
    cases steps' with
    | nil => exact absurd hinputs (by simp)
    | cons step' steps' =>
      obtain ⟨move', after'⟩ := step'
      obtain ⟨hinput, htail⟩ := List.cons.inj hinputs
      change engineA2.Steps s (.moved move after :: performed steps) w at h
      change engineA2.Steps s' (.moved move' after' :: performed steps') w' at h'
      cases h with
      | @moved _ _ _ index symbol domain phase d preview rest =>
        cases h' with
        | @moved _ _ _ index' symbol' domain' phase' d' preview' rest' =>
          obtain ⟨rfl, rfl, rfl, rfl⟩ := MoveInput.mk.inj hinput
          -- with equal decisions both lines turn alike, and the differing cell is carried along
          intro hdecision hcontroller
          obtain rfl : d' = d := hdecision
          have hmoved := (hdiffer index').afterMove d'.axis d'.amount
            (engineA2.nextController { s with symbolIndex := index' } d' symbol' domain' phase')
          have hcarried := @MoveTraceOf.pos_carries
            (engineA2.moveTrace { s with symbolIndex := index' } symbol' domain' phase' d')
            hcursor p hp
          have hafter : DifferAt (MoveTraceOf.carries (engineA2.moveTrace
              { s with symbolIndex := index' } symbol' domain' phase' d') p).pos δ
              (engineA2.moveState { s with symbolIndex := index' } symbol' domain' phase' d')
              (engineA2.moveState { s' with symbolIndex := index' } symbol' domain' phase' d') := by
            rw [hcarried]
            unfold Engine.moveState
            have hsame : engineA2.nextController { s' with symbolIndex := index' } d' symbol'
                domain' phase' = engineA2.nextController { s with symbolIndex := index' } d'
                symbol' domain' phase' := hcontroller
            rw [hsame]
            exact hmoved
          exact ⟨hafter, ih rest rest' htail (hcursor.advance _ _)
            (MoveTraceOf.carries_inRange _ hp) fun index => hafter.withIndex index⟩

/-- A symbol to absorb, with its domain and its number of moves. -/
structure AbsorbedSymbol : Type where
  symbol : U8
  domain : Domain
  moves : ℕ

/-- `absorb_symbol` over a list. -/
def absorbSymbols (symbols : List AbsorbedSymbol) : A2Run PUnit :=
  forM symbols fun s => absorbSymbol s.symbol s.domain s.moves true

/-- The moves of a list of symbols, from the symbol counter it starts with. -/
def absorbedInputs : U64 → List AbsorbedSymbol → List MoveInput
  | _, [] => []
  | index, s :: symbols =>
    symbolInputs index s.symbol s.domain s.moves ++ absorbedInputs (index + 1) symbols

/-- **A list of symbols** is a path of moves. -/
theorem does_absorbSymbols {w : WorkingState} (hcursor : w.cursor.InRange)
    {symbols : List AbsorbedSymbol} (hsymbols : ∀ s ∈ symbols, CountOk s.moves) :
    ∃ steps w', engineA2.Steps w (performed steps) w' ∧
      w'.symbolIndex = w.symbolIndex + BitVec.ofNat 64 symbols.length ∧
      steps.map (fun step => step.1.input) = absorbedInputs w.symbolIndex symbols ∧
      Does (absorbSymbols symbols) w () (historyOf true (performed steps)) w' := by
  induction symbols generalizing w with
  | nil =>
    exact ⟨[], w, Engine.Steps.nil w w.symbolIndex, (BitVec.add_zero _).symm, rfl, Does.pure ()⟩
  | cons s symbols ih =>
    obtain ⟨hmoves, hsymbols⟩ := List.forall_mem_cons.mp hsymbols
    obtain ⟨steps, w₁, hsteps, hindex, hinputs, hfirst⟩ :=
      does_absorbSymbol engineA2_sound s.symbol s.domain hmoves hcursor
    obtain ⟨steps', w', hsteps', hindex', hinputs', hrest⟩ :=
      ih (hsteps.cursor_inRange hcursor) hsymbols
    refine ⟨steps ++ steps', w', performed_append steps steps' ▸ hsteps.trans hsteps', ?_, ?_, ?_⟩
    · rw [hindex', hindex, List.length_cons, BitVec.add_assoc, BitVec.ofNat_add,
        BitVec.add_comm (BitVec.ofNat 64 symbols.length)]
      rfl
    · rw [List.map_append, hinputs, hinputs', hindex]
      rfl
    · rw [performed_append, historyOf_append]
      exact (hfirst true).bind hrest

/-- The states after the moves of a path are what the history notes. -/
theorem points_performed (steps : List (MoveTrace × WorkingState)) :
    (historyOf true (performed steps)).points = steps.map Prod.snd := by
  unfold historyOf performed
  rw [List.map_map]
  rfl

/-- **Reads of a move are local.**  Two machines whose states differ in the cell at `p`
only.  A move that does not probe `p` and whose line misses it does the same on both and
leaves that difference.  And over a list of symbols, whose runs both succeed and append
one entry a move, the states after every move, and in the end, differ in one cell, where
the rotations carried it, as long as the decisions and the lanes have agreed. -/
theorem moves_are_local (p : Coord) (hp : p.InRange) (δ : U8)
    (m m' : Machine ControllerState MoveDecision) (hcursor : m.working.cursor.InRange)
    (hdiffer : DifferAt p.pos δ m.working m'.working) :
    (∀ symbol domain phase, ∃ d,
      (previewMove m.working symbol domain phase).returned = .ok d ∧
      (p ∉ d.probes.coords → lineContains d.axis m.working.cursor p = false →
        ∃ move m₁ m₁', (applyMove symbol domain phase).run m = .ok move m₁ ∧
          (applyMove symbol domain phase).run m' = .ok move m₁' ∧ move.decision = d ∧
          DifferAt p.pos δ m₁.working m₁'.working)) ∧
    ∀ symbols : List AbsorbedSymbol, (∀ s ∈ symbols, CountOk s.moves) →
      ∃ m₁ m₁' steps steps',
        (absorbSymbols symbols).run m = .ok () m₁ ∧ (absorbSymbols symbols).run m' = .ok () m₁' ∧
        m₁.trace = m.trace ++ steps.map Prod.fst ∧ m₁'.trace = m'.trace ++ steps'.map Prod.fst ∧
        m₁.points = (steps.map Prod.snd).reverse ++ m.points ∧
        m₁'.points = (steps'.map Prod.snd).reverse ++ m'.points ∧
        steps.map (fun step => step.1.input) = absorbedInputs m.working.symbolIndex symbols ∧
        Tracks δ m₁.working m₁'.working p steps steps' := by
  constructor
  · intro symbol domain phase
    obtain ⟨d, hpreview, -, hin, -⟩ := previewMove_ok m.working symbol domain phase
    refine ⟨d, hpreview.returned, fun hprobes hline => ?_⟩
    refine hdiffer.applyMove hcursor hpreview.returned ?_ ?_
    -- the preview reads no other cell than its probes
    · intro c hc hpos
      rw [(hin c hc).pos_inj hp |>.mp hpos] at hc
      exact hprobes hc
    · rw [onLine_pos_iff _ hcursor hp, hline]
      exact Bool.false_ne_true
  · intro symbols hsymbols
    have hcursor' : m'.working.cursor.InRange := hdiffer.cursor_eq ▸ hcursor
    obtain ⟨steps, w, hsteps, hindex, hinputs, hdoes⟩ := does_absorbSymbols hcursor hsymbols
    obtain ⟨steps', w', hsteps', hindex', hinputs', hdoes'⟩ := does_absorbSymbols hcursor' hsymbols
    obtain ⟨accesses, -, hrun⟩ := hdoes m rfl
    obtain ⟨accesses', -, hrun'⟩ := hdoes' m' rfl
    refine ⟨_, _, steps, steps', hrun, hrun', ?_, ?_, ?_, ?_, hinputs, ?_⟩
    · rw [← movesOf_performed]
      rfl
    · rw [← movesOf_performed]
      rfl
    · rw [← points_performed]
      rfl
    · rw [← points_performed]
      rfl
    · refine tracks_of_steps hsteps hsteps' ?_ ?_ hcursor hp hdiffer.withIndex
      · rw [hinputs, hinputs', hdiffer.symbolIndex_eq]
      · exact hindex'.trans (hdiffer.symbolIndex_eq ▸ hindex.symm)

/-- A state with one cell of the cube xored. -/
def WorkingStateOf.xored {C : Type} (s : WorkingStateOf C) (p : Pos) (δ : U8) :
    WorkingStateOf C :=
  { s with cube := .ofCells (Function.update s.cube.cell p (s.cube.cell p ^^^ δ)) }

theorem differAt_xored {C : Type} (s : WorkingStateOf C) (p : Pos) (δ : U8) :
    DifferAt p δ s (s.xored p δ) := by
  unfold WorkingStateOf.xored
  refine ⟨?_, ?_, rfl, rfl, rfl, rfl⟩
  · rw [Cube.cell_ofCells, Function.update_self]
  · intro q hq
    rw [Cube.cell_ofCells, Function.update_of_ne hq]

/-- The fresh machine with one bit of the cell `(7,7,7)` flipped. -/
def flippedMachineA2 : Machine ControllerState MoveDecision :=
  { freshMachineA2 with working := freshMachineA2.working.xored (Coord.pos ⟨7, 7, 7⟩) 1 }

/-- The first move of the fresh machine neither probes `(7,7,7)` nor rotates its line, and
over one symbol of two moves the runs track each other. -/
theorem moves_are_local_fresh :
    (∃ move m₁ m₁', (applyMove 0x61 .inputForward 0).run freshMachineA2 = .ok move m₁ ∧
      (applyMove 0x61 .inputForward 0).run flippedMachineA2 = .ok move m₁' ∧
      DifferAt (Coord.pos ⟨7, 7, 7⟩) 1 m₁.working m₁'.working) ∧
    ∃ m₁ m₁' steps steps',
      (absorbSymbols [⟨0x61, .inputForward, 2⟩]).run freshMachineA2 = .ok () m₁ ∧
      (absorbSymbols [⟨0x61, .inputForward, 2⟩]).run flippedMachineA2 = .ok () m₁' ∧
      steps.length = 2 ∧ Tracks 1 m₁.working m₁'.working ⟨7, 7, 7⟩ steps steps' := by
  obtain ⟨hmove, hsymbols⟩ := moves_are_local ⟨7, 7, 7⟩ (by decide) 1 freshMachineA2
    flippedMachineA2 (by decide) (differAt_xored _ _ 1)
  constructor
  · obtain ⟨d, hd, hlocal⟩ := hmove 0x61 .inputForward 0
    have hmisses : ((previewMove freshMachineA2.working 0x61 .inputForward 0).returned.toOption.all
        fun d => decide ((⟨7, 7, 7⟩ : Coord) ∉ d.probes.coords) &&
          !lineContains d.axis freshMachineA2.working.cursor ⟨7, 7, 7⟩) = true := by
      decide +kernel
    rw [hd, Except.toOption, Option.all_some, Bool.and_eq_true, decide_eq_true_eq,
      Bool.not_eq_true'] at hmisses
    obtain ⟨move, m₁, m₁', hrun, hrun', -, hdiffer⟩ := hlocal hmisses.1 hmisses.2
    exact ⟨move, m₁, m₁', hrun, hrun', hdiffer⟩
  · have hmoves : ∀ s ∈ [AbsorbedSymbol.mk 0x61 .inputForward 2], CountOk s.moves := by
      intro s hs
      rw [List.mem_singleton.mp hs]
      exact ⟨by decide, by decide⟩
    obtain ⟨m₁, m₁', steps, steps', hrun, hrun', -, -, -, -, hinputs, htracks⟩ :=
      hsymbols _ hmoves
    refine ⟨m₁, m₁', steps, steps', hrun, hrun', ?_, htracks⟩
    have hlength := congrArg List.length hinputs
    rw [List.length_map] at hlength
    exact hlength
