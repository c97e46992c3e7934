/-
# The reachable states of an evaluation

The fast path of the controllers hands raw coordinates to `Cube::unchecked` and
checks nothing.  What makes it safe is an invariant of the states an evaluation
reaches: the cube is a rearrangement of the perfect one and the cursor is in
range.  One more quantity is conserved: the byte under the cursor.

The invariant is stated once for an `Engine`, established by the initial state,
preserved by a domain entry and by a move, and carried through the passes.
-/
import RotSymEnc.MoveRuns

open TorusLines StatefulRuns

variable {C D : Type}

/-! ## The invariant -/

/-- The invariant of a working state: the cells are those of the perfect cube, the
cursor is in range, and the byte under it is `b`. -/
structure WorkingStateOf.Sound (b : U8) (s : WorkingStateOf C) : Prop where
  rearranged : s.cube.IsRearrangement
  cursor_inRange : s.cursor.InRange
  cursor_byte : s.cube.cell s.cursor.pos = b

/-- **A move keeps the invariant**: the rotation rearranges, and the byte under
the cursor moves with it. -/
theorem WorkingStateOf.Sound.afterMove {b : U8} {s : WorkingStateOf C} (h : s.Sound b)
    (axis : Axis) (amount : U8) (controller : C) :
    (s.afterMove axis amount controller).Sound b where
  rearranged := (Cube.rotated_perm _ _ _ _).trans h.rearranged
  cursor_inRange := h.cursor_inRange.advance axis amount
  cursor_byte := by
    have hcell := lineRotate_cursor axis s.cursor.pos (Fin.ofNat 8 amount.toNat) s.cube.cell
    rw [← Cube.cell_rotated, ← pos_advance, h.cursor_byte] at hcell
    exact hcell

/-- The lanes and the symbol counter are outside the invariant. -/
theorem WorkingStateOf.Sound.withLanes {b : U8} {s : WorkingStateOf C} (h : s.Sound b)
    (controller : C) (index : U64) :
    ({ s with controller := controller, symbolIndex := index } : WorkingStateOf C).Sound b :=
  ⟨h.rearranged, h.cursor_inRange, h.cursor_byte⟩

/-- **Along a path** every state is sound and every decision well formed. -/
theorem Engine.Steps.sound {engine : Engine C D} {DecisionOk : D → Prop}
    (hengine : engine.Sound DecisionOk) {b : U8} {w w' : WorkingStateOf C}
    {events : List (Event C D)} (h : engine.Steps w events w') (hw : w.Sound b) :
    w'.Sound b ∧ (∀ s ∈ events.map Event.after, s.Sound b) ∧
      ∀ d ∈ (movesOf events).map MoveTraceOf.decision, DecisionOk d := by
  induction h with
  | nil w index => exact ⟨hw.withLanes _ _, List.forall_mem_nil _, List.forall_mem_nil _⟩
  | entered index controller rest ih =>
    have hentered := hw.withLanes controller index
    obtain ⟨hlast, hpoints, hdecisions⟩ := ih hentered
    exact ⟨hlast, List.forall_mem_cons.mpr ⟨hentered, hpoints⟩, hdecisions⟩
  | @moved w w' events index symbol domain phase d preview rest ih =>
    have hmoved := (hw.withLanes w.controller index).afterMove (engine.axis d) (engine.amount d)
      (engine.nextController { w with symbolIndex := index } d symbol domain phase)
    obtain ⟨hlast, hpoints, hdecisions⟩ := ih hmoved
    obtain ⟨d', hpreview', hd', -⟩ :=
      hengine.preview { w with symbolIndex := index } symbol domain phase
    obtain rfl := hpreview'.unique preview
    exact ⟨hlast, List.forall_mem_cons.mpr ⟨hmoved, hpoints⟩,
      List.forall_mem_cons.mpr ⟨hd', hdecisions⟩⟩

/-- The invariant of the machine: so far every point was sound, every access in
range and every decision well formed. -/
structure Machine.Sound (b : U8) (DecisionOk : D → Prop) (m : Machine C D) : Prop where
  working : m.working.Sound b
  points : ∀ s ∈ m.points, s.Sound b
  inRange : ∀ c ∈ m.accesses, c.InRange
  decisions : ∀ d ∈ m.decisions, DecisionOk d

variable {b : U8} {DecisionOk : D → Prop}

/-- A run whose effect is sound keeps the invariant. -/
theorem Machine.Sound.extended {m : Machine C D} (hm : m.Sound b DecisionOk)
    {w : WorkingStateOf C} (hw : w.Sound b) {accesses : List Coord}
    (haccesses : ∀ c ∈ accesses, c.InRange) {h : History C D} (hpoints : ∀ s ∈ h.points, s.Sound b)
    (hdecisions : ∀ d ∈ h.decisions, DecisionOk d) :
    (m.extended w accesses h).Sound b DecisionOk := by
  refine ⟨hw, ?_, ?_, ?_⟩
  · intro s hs
    rcases List.mem_append.mp hs with h' | h'
    · exact hpoints s (List.mem_reverse.mp h')
    · exact hm.points s h'
  · intro c hc
    exact (List.mem_append.mp hc).elim (haccesses c) (hm.inRange c)
  · intro d hd
    rcases List.mem_append.mp hd with h' | h'
    · exact hdecisions d (List.mem_reverse.mp h')
    · exact hm.decisions d h'

/-- A call that reads in range keeps the invariant. -/
theorem keeps_reading {α : Type} {x : AccessRun α} (h : ∃ a, Reads x a) :
    Keeps (Machine.Sound b DecisionOk) (C1Run.reading x : C1Run C D α) fun _ => True := by
  obtain ⟨a, h⟩ := h
  intro m hm
  obtain ⟨accesses, hin, hrun⟩ := does_reading h m rfl
  exact ⟨a, _, hrun, hm.extended hm.working hin (List.forall_mem_nil _) (List.forall_mem_nil _),
    trivial⟩

/-- The symbol counter is outside the invariant. -/
theorem keeps_setSymbolIndex (f : WorkingStateOf C → U64) :
    Keeps (Machine.Sound b DecisionOk)
      (C1Run.modifyWorking fun s => { s with symbolIndex := f s } : C1Run C D PUnit)
      fun _ => True :=
  leads_modify fun _ hm =>
    ⟨hm.working.withLanes _ _, hm.points, hm.inRange, hm.decisions⟩

/-- A domain entry keeps the invariant. -/
theorem keeps_enterDomain (engine : Engine C D) (domain : Domain) (sequenceLength : U64) :
    Keeps (Machine.Sound b DecisionOk) (engine.enterDomain domain sequenceLength)
      fun _ => True := by
  intro m hm
  obtain ⟨diagonals, hreads⟩ := exists_reads_bodyDiagonals m.working.cube
  obtain ⟨accesses, hin, hrun⟩ := does_enterDomain engine domain sequenceLength hreads m rfl
  have hsound := hm.working.withLanes
    (engine.entered m.working.controller diagonals domain sequenceLength) m.working.symbolIndex
  exact ⟨(), _, hrun, hm.extended hsound hin (List.forall_mem_singleton.mpr hsound)
    (List.forall_mem_nil _), trivial⟩

/-! ## The passes -/

/-- What the passes of an evaluation need of an invariant of the machine: domain entries,
symbols with a valid count, and calls that read in range keep it. -/
structure Engine.Invariant (engine : Engine C D) (I : Machine C D → Prop) : Prop where
  enterDomain : ∀ domain sequenceLength,
    Keeps I (engine.enterDomain domain sequenceLength) fun _ => True
  absorbSymbol : ∀ symbol domain {moves : ℕ}, CountOk moves → ∀ trace,
    Keeps I (engine.absorbSymbol symbol domain moves trace) fun _ => True
  reading : ∀ {α : Type} {x : AccessRun α}, (∃ a, Reads x a) →
    Keeps I (C1Run.reading x : C1Run C D α) fun _ => True
  setSymbolIndex : ∀ f : WorkingStateOf C → U64,
    Keeps I (C1Run.modifyWorking fun s => { s with symbolIndex := f s } : C1Run C D PUnit)
      fun _ => True

variable {engine : Engine C D} {I : Machine C D → Prop}

theorem keeps_working : Keeps I (C1Run.working : C1Run C D _) fun _ => True :=
  fun m hm => ⟨m.working, m, rfl, hm, trivial⟩

theorem keeps_absorbSequence (hI : engine.Invariant I) (symbols : List U8) (domain : Domain)
    {moves : ℕ} (hmoves : CountOk moves) (trace : Bool) :
    Keeps I (engine.absorbSequence symbols domain moves trace) fun _ => True :=
  keeps_forM symbols fun symbol _ => hI.absorbSymbol symbol domain hmoves trace

theorem keeps_absorbKey (hI : engine.Invariant I) (key : ResearchKey256)
    {profile : KeyScheduleProfile} (hprofile : profile.Valid) (trace : Bool) :
    Keeps I (engine.absorbKey key profile trace) fun _ => True := by
  obtain ⟨hforward, hreturn, hseal⟩ := hprofile
  refine (hI.enterDomain _ _).bind fun _ _ => ?_
  refine (keeps_absorbSequence hI _ _ hforward trace).bind fun _ _ => ?_
  refine (keeps_forM _ fun i _ => keeps_absorbSequence hI _ _ hforward trace).bind fun _ _ => ?_
  refine (hI.enterDomain _ _).bind fun _ _ => ?_
  refine (keeps_forM _ fun i _ => hI.absorbSymbol _ _ hreturn trace).bind fun _ _ => ?_
  refine (hI.enterDomain _ _).bind fun _ _ => ?_
  refine (keeps_forM _ fun i _ => hI.absorbSymbol _ _ hseal trace).bind fun _ _ => ?_
  exact hI.setSymbolIndex fun _ => 0

/-- The return pass keeps the invariant. -/
theorem keeps_transcriptReturn (hI : engine.Invariant I) {rules : ReturnRules C}
    (hrules : rules.Sound) (message : List U8) {profile : ReturnProfile}
    (hprofile : profile.Valid) (trace : Bool) :
    Keeps I (engine.transcriptReturn rules message profile trace) fun _ => True := by
  have hvalid : validateReturnProfile profile = .ok () := if_pos hprofile
  obtain ⟨-, hinit, hmessage, -, hseal⟩ := hprofile
  refine (keeps_lift hvalid).bind fun _ _ => ?_
  refine keeps_working.bind fun snapshot _ => ?_
  refine (hI.enterDomain _ _).bind fun _ _ => ?_
  refine (keeps_forM _ fun i _ => ?_).bind fun _ _ => ?_
  · exact (hI.reading (hrules.initSymbol _ _ _)).bind fun symbol _ =>
      hI.absorbSymbol symbol _ hinit trace
  refine (hI.enterDomain _ _).bind fun _ _ => ?_
  refine (keeps_forM _ fun i _ => ?_).bind fun _ _ => ?_
  · refine keeps_working.bind fun current _ => ?_
    exact (hI.reading (hrules.returnSymbol _ _ _ _ _)).bind fun symbol _ =>
      hI.absorbSymbol symbol _ hmessage trace
  refine keeps_working.bind fun current _ => ?_
  refine (hI.enterDomain _ _).bind fun _ _ => ?_
  refine keeps_forM _ fun i _ => ?_
  refine keeps_working.bind fun current _ => ?_
  exact (hI.reading (hrules.sealSymbol _ _ _ _)).bind fun symbol _ =>
    hI.absorbSymbol symbol _ hseal trace

/-- Finalization and squeeze keep the invariant. -/
theorem keeps_boundOutput (hI : engine.Invariant I) {rules : OutputRules C}
    (hrules : rules.Sound) (messageLength : U64) {finalMoves squeezeMoves : ℕ}
    (hfinal : CountOk finalMoves) (hsqueeze : CountOk squeezeMoves) :
    Keeps I (engine.boundOutput rules messageLength finalMoves squeezeMoves) fun _ => True := by
  have hguard : ¬ (finalMoves = 0 ∨ squeezeMoves = 0) := by
    obtain ⟨hfinal, -⟩ := hfinal
    obtain ⟨hsqueeze, -⟩ := hsqueeze
    omega
  simp only [Engine.boundOutput, if_neg hguard]
  refine (hI.enterDomain _ _).bind fun _ _ => ?_
  refine keeps_working.bind fun bound _ => ?_
  refine (keeps_forM _ fun binding _ => hI.absorbSymbol _ _ hfinal false).bind fun _ _ => ?_
  refine (hI.enterDomain _ _).bind fun _ _ => ?_
  refine keeps_foldlM _ (fun round _ output _ => ?_) _ trivial
  refine keeps_working.bind fun state _ => ?_
  refine (hI.reading (hrules state _)).bind fun byte _ => ?_
  exact (hI.absorbSymbol _ _ hsqueeze false).bind fun _ _ => keeps_pure trivial

/-! ## Two invariants -/

theorem keeps_absorbSymbol (hengine : engine.Sound DecisionOk) (symbol : U8) (domain : Domain)
    {moves : ℕ} (hmoves : CountOk moves) (trace : Bool) :
    Keeps (Machine.Sound b DecisionOk) (engine.absorbSymbol symbol domain moves trace)
      fun _ => True := by
  intro m hm
  obtain ⟨events, w', hsteps, -, -, hdoes⟩ :=
    does_absorbSymbol hengine symbol domain hmoves hm.working.cursor_inRange
  obtain ⟨accesses, hin, hrun⟩ := hdoes trace m rfl
  obtain ⟨hlast, hpoints, hdecisions⟩ := hsteps.sound hengine hm.working
  exact ⟨(), _, hrun, hm.extended hlast hin hpoints hdecisions, trivial⟩

/-- Soundness is such an invariant. -/
theorem invariant_sound (hengine : engine.Sound DecisionOk) :
    engine.Invariant (Machine.Sound b DecisionOk) where
  enterDomain := keeps_enterDomain engine
  absorbSymbol symbol domain _ hmoves trace :=
    keeps_absorbSymbol hengine symbol domain hmoves trace
  reading := keeps_reading
  setSymbolIndex := keeps_setSymbolIndex

/-- The cursor is in range. -/
def Machine.CursorInRange (m : Machine C D) : Prop := m.working.cursor.InRange

/-- So is the range of the cursor, for every cube. -/
theorem invariant_cursorInRange (hengine : engine.Sound DecisionOk) :
    engine.Invariant (Machine.CursorInRange) where
  enterDomain domain sequenceLength := by
    intro m hm
    obtain ⟨diagonals, hreads⟩ := exists_reads_bodyDiagonals m.working.cube
    obtain ⟨accesses, -, hrun⟩ := does_enterDomain engine domain sequenceLength hreads m rfl
    exact ⟨(), _, hrun, hm, trivial⟩
  absorbSymbol symbol domain moves hmoves trace := by
    intro m hm
    obtain ⟨steps, w', hsteps, -, -, hdoes⟩ := does_absorbSymbol hengine symbol domain hmoves hm
    obtain ⟨accesses, -, hrun⟩ := hdoes trace m rfl
    exact ⟨(), _, hrun, hsteps.cursor_inRange hm, trivial⟩
  reading := by
    rintro α x ⟨a, hreads⟩ m hm
    obtain ⟨accesses, -, hrun⟩ := does_reading hreads m rfl
    exact ⟨a, _, hrun, hm, trivial⟩
  setSymbolIndex f := leads_modify fun _ hm => hm

/-! ## Whole evaluations -/

/-- The machine has no history yet. -/
structure Machine.Fresh (m : Machine C D) : Prop where
  points_eq : m.points = []
  decisions_eq : m.decisions = []
  inRange : ∀ c ∈ m.accesses, c.InRange

/-- Every count is in `[1,255]`. -/
structure EvaluationProfile.Valid (profile : EvaluationProfile) : Prop where
  forwardMoves : CountOk profile.forwardMoves
  returnProfile : profile.returnProfile.Valid
  finalMoves : CountOk profile.finalMoves
  squeezeMoves : CountOk profile.squeezeMoves
  keyProfile : profile.keyProfile.Valid

/-- The key schedule establishes the invariant, for the byte that the initial
cursor selects in the perfect cube. -/
theorem leads_makeKeyedState (hengine : engine.Sound DecisionOk) {s₀ : WorkingStateOf C}
    (hs₀ : engine.initial kPublicBootstrapSeed = .ok s₀) (key : ResearchKey256)
    {profile : KeyScheduleProfile} (hprofile : profile.Valid) (trace : Bool) :
    Leads Machine.Fresh (engine.makeKeyedState key profile trace)
      (Machine.Sound (Cube.perfect.cell s₀.cursor.pos) DecisionOk) fun _ => True := by
  obtain ⟨s, hs, hcube, hcursor⟩ := hengine.initial kPublicBootstrapSeed
  obtain rfl : s₀ = s := Except.ok.inj (hs₀.symm.trans hs)
  have hsound : s₀.Sound (Cube.perfect.cell s₀.cursor.pos) :=
    ⟨by rw [Cube.IsRearrangement, hcube], hcursor, by rw [hcube]⟩
  intro m hm
  -- the initial state is the first point
  have hfirst : (m.extended s₀ [] ⟨[], [s₀], []⟩).Sound (Cube.perfect.cell s₀.cursor.pos)
      DecisionOk := by
    refine ⟨hsound, ?_, hm.inRange, ?_⟩
    · intro s hs
      simp only [Machine.extended, hm.points_eq] at hs
      exact List.mem_singleton.mp hs ▸ hsound
    · intro d hd
      simp only [Machine.extended, hm.decisions_eq] at hd
      exact absurd hd List.not_mem_nil
  obtain ⟨u, m', hrun, hm'⟩ := keeps_absorbKey (invariant_sound hengine) key hprofile trace _ hfirst
  exact ⟨u, m', (makeKeyedState_run hs₀ key hprofile trace m).trans hrun, hm'⟩

/-- The forward pass: its count matters only where the message has a symbol. -/
theorem leads_evaluateKeyed (hengine : engine.Sound DecisionOk) {s₀ : WorkingStateOf C}
    (hs₀ : engine.initial kPublicBootstrapSeed = .ok s₀) (key : ResearchKey256)
    {message : List U8} {moves : ℕ} (hmoves : message ≠ [] → CountOk moves)
    {profile : KeyScheduleProfile} (hprofile : profile.Valid) :
    Leads Machine.Fresh (engine.evaluateKeyed key message moves profile)
      (Machine.Sound (Cube.perfect.cell s₀.cursor.pos) DecisionOk) fun _ => True := by
  refine (leads_makeKeyedState hengine hs₀ key hprofile false).bind fun _ _ => ?_
  refine (keeps_enterDomain engine _ _).bind fun _ _ => ?_
  by_cases hmessage : message = []
  · subst hmessage
    exact keeps_pure trivial
  · exact keeps_absorbSequence (invariant_sound hengine) message _ (hmoves hmessage) false

/-- **A whole evaluation** from a machine without history ends without a fault,
and the invariant held at every point of it. -/
theorem leads_keyedReturnOutput (hengine : engine.Sound DecisionOk)
    {returnRules : ReturnRules C} (hreturn : returnRules.Sound) {outputRules : OutputRules C}
    (houtput : outputRules.Sound) {s₀ : WorkingStateOf C}
    (hs₀ : engine.initial kPublicBootstrapSeed = .ok s₀) (key : ResearchKey256)
    (message : List U8) {profile : EvaluationProfile} (hprofile : profile.Valid) :
    Leads Machine.Fresh
      (engine.keyedReturnOutput returnRules outputRules key message profile)
      (Machine.Sound (Cube.perfect.cell s₀.cursor.pos) DecisionOk) fun _ => True := by
  have hforward := leads_evaluateKeyed hengine hs₀ key (fun _ : message ≠ [] =>
    hprofile.forwardMoves) hprofile.keyProfile
  have hevaluate := hforward.bind fun _ _ =>
    keeps_transcriptReturn (invariant_sound hengine) hreturn message hprofile.returnProfile false
  exact hevaluate.bind fun _ _ => keeps_boundOutput (invariant_sound hengine) houtput _
    hprofile.finalMoves hprofile.squeezeMoves

/-- The objects before an evaluation have no history. -/
theorem freshMachineA2_fresh : freshMachineA2.Fresh := ⟨rfl, rfl, List.forall_mem_nil _⟩

theorem freshMachineB_fresh : freshMachineB.Fresh := ⟨rfl, rfl, List.forall_mem_nil _⟩

/-- Every run of the A2 pipeline from the fresh machine. -/
theorem researchKeyedReturnOutputA2_sound {s₀ : WorkingState}
    (hs₀ : makeInitialState kPublicBootstrapSeed = .ok s₀) (key : ResearchKey256)
    (message : List U8) {profile : EvaluationProfile} (hprofile : profile.Valid) :
    ∃ output m, (researchKeyedReturnOutputA2 key message profile).run freshMachineA2
        = .ok output m ∧
      m.Sound (Cube.perfect.cell s₀.cursor.pos) MoveDecision.Ok := by
  obtain ⟨output, m, hrun, hm, -⟩ := leads_keyedReturnOutput engineA2_sound returnRulesA2_sound
    outputRulesA2_sound hs₀ key message hprofile freshMachineA2 freshMachineA2_fresh
  exact ⟨output, m, hrun, hm⟩

/-- Every run of the prototype-B pipeline from the fresh machine. -/
theorem researchKeyedReturnOutputB_sound {s₀ : WorkingStateB}
    (hs₀ : makeInitialStateB kPublicBootstrapSeed = .ok s₀) (key : ResearchKey256)
    (message : List U8) {profile : EvaluationProfile} (hprofile : profile.Valid) :
    ∃ output m, (researchKeyedReturnOutputB key message profile).run freshMachineB
        = .ok output m ∧
      m.Sound (Cube.perfect.cell s₀.cursor.pos) MoveDecisionB.Ok := by
  obtain ⟨output, m, hrun, hm, -⟩ := leads_keyedReturnOutput engineB_sound returnRulesB_sound
    outputRulesB_sound hs₀ key message hprofile freshMachineB freshMachineB_fresh
  exact ⟨output, m, hrun, hm⟩

/-- The default counts are in `[1,255]`. -/
theorem defaultProfile_valid : EvaluationProfile.Valid {} := by
  constructor <;> decide

theorem C1Run.returned_of_run {α : Type} {x : C1Run C D α} {m m' : Machine C D} {a : α}
    (h : x.run m = .ok a m') : x.returned m = .ok a := by
  rw [C1Run.returned, h]

/-- **C1 always returns**: no exception and no access outside an array, for every
key and message. -/
theorem c1_ok (key : ResearchKey256) (message : List U8) :
    ∃ output, c1 key message = .ok output := by
  obtain ⟨s₀, hs₀, -⟩ := makeInitialState_eq kPublicBootstrapSeed
  obtain ⟨output, m, hrun, -⟩ :=
    researchKeyedReturnOutputA2_sound hs₀ key message defaultProfile_valid
  refine ⟨output, ?_⟩
  unfold c1
  exact C1Run.returned_of_run hrun

/-! ## Safety and the conserved byte -/

/-- A state no access of which can leave the cube: the cells are those of the
perfect cube, each byte value twice, and the cursor is in range. -/
structure WorkingStateOf.Safe (s : WorkingStateOf C) : Prop where
  rearranged : s.cube.IsRearrangement
  count_eq_two : ∀ b, s.cube.cells.toList.count b = 2
  cursor_inRange : s.cursor.InRange

theorem WorkingStateOf.Sound.safe {s : WorkingStateOf C} (h : s.Sound b) : s.Safe :=
  ⟨h.rearranged, h.rearranged.count, h.cursor_inRange⟩

/-- **The unchecked fast path is safe.**  With counts in `[1,255]` an evaluation
under either controller returns; every state it reaches is safe, every coordinate
it hands to `Cube::unchecked` is in range and every decision it takes is well
formed.  So Candidate C1 returns for every key and message. -/
theorem keyedReturnOutput_safe (key : ResearchKey256) (message : List U8)
    (profile : EvaluationProfile) (hprofile : profile.Valid) :
    (∃ output m, (researchKeyedReturnOutputA2 key message profile).run freshMachineA2
        = .ok output m ∧
      (∀ s ∈ m.points, s.Safe) ∧ (∀ c ∈ m.accesses, c.InRange) ∧ ∀ d ∈ m.decisions, d.Ok) ∧
    (∃ output m, (researchKeyedReturnOutputB key message profile).run freshMachineB
        = .ok output m ∧
      (∀ s ∈ m.points, s.Safe) ∧ (∀ c ∈ m.accesses, c.InRange) ∧ ∀ d ∈ m.decisions, d.Ok) ∧
    ∃ output, c1 key message = .ok output := by
  obtain ⟨s₀, hs₀, -⟩ := makeInitialState_eq kPublicBootstrapSeed
  obtain ⟨t₀, ht₀, -⟩ := makeInitialStateB_eq kPublicBootstrapSeed
  obtain ⟨output, m, hrun, hm⟩ := researchKeyedReturnOutputA2_sound hs₀ key message hprofile
  obtain ⟨output', m', hrun', hm'⟩ := researchKeyedReturnOutputB_sound ht₀ key message hprofile
  refine ⟨⟨output, m, hrun, ?_, hm.inRange, hm.decisions⟩,
    ⟨output', m', hrun', ?_, hm'.inRange, hm'.decisions⟩, c1_ok key message⟩
  · exact fun s hs => (hm.points s hs).safe
  · exact fun s hs => (hm'.points s hs).safe

/-- The smallest counts, on a message of two symbols under the zero key. -/
theorem keyedReturnOutput_safe_least :
    EvaluationProfile.Valid ⟨1, ⟨1, 1, 1, 1, 1⟩, 1, 1, ⟨1, 1, 1⟩⟩ ∧
    (∃ output m, (researchKeyedReturnOutputA2 (Vector.replicate 32 0) [0x61, 0x62]
        ⟨1, ⟨1, 1, 1, 1, 1⟩, 1, 1, ⟨1, 1, 1⟩⟩).run freshMachineA2 = .ok output m ∧
      (∀ s ∈ m.points, s.Safe) ∧ (∀ c ∈ m.accesses, c.InRange) ∧ ∀ d ∈ m.decisions, d.Ok) ∧
    ∃ output m, (researchKeyedReturnOutputB (Vector.replicate 32 0) [0x61, 0x62]
        ⟨1, ⟨1, 1, 1, 1, 1⟩, 1, 1, ⟨1, 1, 1⟩⟩).run freshMachineB = .ok output m ∧
      (∀ s ∈ m.points, s.Safe) ∧ (∀ c ∈ m.accesses, c.InRange) ∧ ∀ d ∈ m.decisions, d.Ok := by
  have hvalid : EvaluationProfile.Valid ⟨1, ⟨1, 1, 1, 1, 1⟩, 1, 1, ⟨1, 1, 1⟩⟩ := by
    constructor <;> decide
  obtain ⟨ha2, hb, -⟩ := keyedReturnOutput_safe (Vector.replicate 32 0) [0x61, 0x62] _ hvalid
  exact ⟨hvalid, ha2, hb⟩

/-- The initial cursor of C1, and the byte it selects in the perfect cube. -/
theorem makeInitialState_cursor {s₀ : WorkingState}
    (hs₀ : makeInitialState kPublicBootstrapSeed = .ok s₀) :
    Cube.perfect.at s₀.cursor = .ok 0x82 := by
  have hcursor : (makeInitialState kPublicBootstrapSeed).map (fun s => Cube.perfect.at s.cursor)
      = .ok (.ok 0x82) := by
    decide +kernel
  rw [hs₀] at hcursor
  exact Except.ok.inj hcursor

/-- The initial cursor of prototype B, and the byte it selects in the perfect cube. -/
theorem makeInitialStateB_cursor {s₀ : WorkingStateB}
    (hs₀ : makeInitialStateB kPublicBootstrapSeed = .ok s₀) :
    Cube.perfect.at s₀.cursor = .ok 0xB0 := by
  have hcursor : (makeInitialStateB kPublicBootstrapSeed).map (fun s => Cube.perfect.at s.cursor)
      = .ok (.ok 0xB0) := by
    decide +kernel
  rw [hs₀] at hcursor
  exact Except.ok.inj hcursor

/-- Where the invariant holds, the byte under the cursor is the one the initial
cursor selects in the perfect cube. -/
theorem WorkingStateOf.Sound.at_cursor {s : WorkingStateOf C} {coord : Coord}
    (h : s.Sound (Cube.perfect.cell coord.pos)) (hcoord : coord.InRange) :
    s.cube.at s.cursor = Cube.perfect.at coord := by
  rw [Cube.at_of_inRange _ h.cursor_inRange, Cube.at_of_inRange _ hcoord, h.cursor_byte]

/-- **The byte under the cursor is conserved.**  At every point of every evaluation
with counts in `[1,255]` it is the byte of the perfect cube under the cursor of
`make_initial_state`: one public constant for each controller, whatever the key
and the message. -/
theorem cursor_byte_conserved :
    ∃ s₀ t₀, makeInitialState kPublicBootstrapSeed = .ok s₀ ∧
      makeInitialStateB kPublicBootstrapSeed = .ok t₀ ∧
      Cube.perfect.at s₀.cursor = .ok 0x82 ∧ Cube.perfect.at t₀.cursor = .ok 0xB0 ∧
      ∀ (key : ResearchKey256) (message : List U8) (profile : EvaluationProfile), profile.Valid →
        (∃ output m, (researchKeyedReturnOutputA2 key message profile).run freshMachineA2
            = .ok output m ∧ ∀ s ∈ m.points, s.cube.at s.cursor = Cube.perfect.at s₀.cursor) ∧
        ∃ output m, (researchKeyedReturnOutputB key message profile).run freshMachineB
            = .ok output m ∧ ∀ s ∈ m.points, s.cube.at s.cursor = Cube.perfect.at t₀.cursor := by
  obtain ⟨s₀, hs₀, -, hs₀c⟩ := makeInitialState_eq kPublicBootstrapSeed
  obtain ⟨t₀, ht₀, -, ht₀c⟩ := makeInitialStateB_eq kPublicBootstrapSeed
  refine ⟨s₀, t₀, hs₀, ht₀, makeInitialState_cursor hs₀, makeInitialStateB_cursor ht₀, ?_⟩
  intro key message profile hprofile
  obtain ⟨output, m, hrun, hm⟩ := researchKeyedReturnOutputA2_sound hs₀ key message hprofile
  obtain ⟨output', m', hrun', hm'⟩ := researchKeyedReturnOutputB_sound ht₀ key message hprofile
  exact ⟨⟨output, m, hrun, fun s hs => (hm.points s hs).at_cursor hs₀c⟩,
    ⟨output', m', hrun', fun s hs => (hm'.points s hs).at_cursor ht₀c⟩⟩

/-- The conserved byte of an evaluation with the default counts. -/
theorem cursor_byte_conserved_default :
    EvaluationProfile.Valid {} ∧
    ∃ output m, (researchKeyedReturnOutputA2 (Vector.replicate 32 0) [0x61] {}).run freshMachineA2
        = .ok output m ∧ ∀ s ∈ m.points, s.cube.at s.cursor = .ok 0x82 := by
  obtain ⟨s₀, t₀, -, -, hbyte, -, h⟩ := cursor_byte_conserved
  obtain ⟨⟨output, m, hrun, hm⟩, -⟩ := h (Vector.replicate 32 0) [0x61] {} defaultProfile_valid
  exact ⟨defaultProfile_valid, output, m, hrun, fun s hs => (hm s hs).trans hbyte⟩
