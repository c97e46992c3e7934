/-
# Which counts are rejected

An evaluation has eleven counts, each meant to be in `[1,255]`.  They are checked in
four places: two profiles up front, two positivity checks in the finalizer, and one
check at every symbol that is absorbed.  Ten of the counts are checked on every
path.  The forward count is checked only where a message symbol is absorbed, so that
the empty message goes through with any forward count.

A check that fails does so before anything is changed.
-/
import RotSymEnc.ReachableStates

open StatefulRuns

/-! ## One count -/

/-- The fault is an `invalid_argument`. -/
abbrev Rejected {C D : Type} (e : Fault) (_ : Machine C D) : Prop :=
  e.cls = some .invalidArgument

/-- A symbol with a count outside `[1,255]` is rejected, and nothing has changed. -/
theorem absorbSymbol_run_of_not_countOk {C D : Type} (engine : Engine C D) (symbol : U8)
    (domain : Domain) {moves : ℕ} (hmoves : ¬ CountOk moves) (trace : Bool) (m : Machine C D) :
    (engine.absorbSymbol symbol domain moves trace).run m
      = .error (.thrown .invalidArgument "moves_per_symbol must be in [1,255]") m := by
  have hguard : moves = 0 ∨ moves > 255 := by
    unfold CountOk at hmoves
    omega
  unfold Engine.absorbSymbol
  rw [if_pos hguard]
  rfl

section Rejections

variable {C D : Type} {I : Machine C D → Prop} (engine : Engine C D)

theorem fails_absorbSymbol (symbol : U8) (domain : Domain) {moves : ℕ} (hmoves : ¬ CountOk moves)
    (trace : Bool) : Fails I (engine.absorbSymbol symbol domain moves trace) Rejected :=
  fun m _ => .inr ⟨_, m, absorbSymbol_run_of_not_countOk engine symbol domain hmoves trace m, rfl⟩

/-- A sequence rejects its count where it has a symbol. -/
theorem fails_absorbSequence {symbols : List U8} (hsymbols : symbols ≠ []) (domain : Domain)
    {moves : ℕ} (hmoves : ¬ CountOk moves) (trace : Bool) :
    Fails I (engine.absorbSequence symbols domain moves trace) Rejected := by
  obtain ⟨symbol, symbols, rfl⟩ := List.exists_cons_of_ne_nil hsymbols
  exact fails_forM_cons (fails_absorbSymbol engine symbol domain hmoves trace)

theorem fails_makeKeyedState (key : ResearchKey256) {profile : KeyScheduleProfile}
    (hprofile : ¬ profile.Valid) (trace : Bool) :
    Fails I (engine.makeKeyedState key profile trace) Rejected := by
  have hthrown : validateKeyScheduleProfile profile = _ := if_neg hprofile
  exact Fails.bind (fails_lift hthrown fun _ _ => rfl)

/-- A refused profile stops the transcript return before it has changed anything. -/
theorem fails_transcriptReturn (rules : ReturnRules C) (message : List U8)
    {profile : ReturnProfile} (hprofile : ¬ profile.Valid) (trace : Bool)
    {E : Fault → Machine C D → Prop} (he : ∀ e m, Rejected e m → I m → E e m) :
    Fails I (engine.transcriptReturn rules message profile trace) E := by
  have hthrown : validateReturnProfile profile = _ := if_neg hprofile
  exact Fails.bind (fails_lift hthrown fun m hm => he _ m rfl hm)

end Rejections

/-! ## The counts of an evaluation -/

variable {b : U8}

/-- The finalizer checks both of its counts: it always absorbs the 16 binding symbols,
and then 32 output bytes. -/
theorem fails_boundOutput (messageLength : U64) {finalMoves squeezeMoves : ℕ}
    (hcounts : ¬ (CountOk finalMoves ∧ CountOk squeezeMoves)) :
    Fails (Machine.Sound b MoveDecision.Ok)
      (researchBoundOutputA2 messageLength finalMoves squeezeMoves) Rejected := by
  unfold researchBoundOutputA2 Engine.boundOutput
  by_cases hguard : finalMoves = 0 ∨ squeezeMoves = 0
  · rw [if_pos hguard]
    exact Fails.bind (fails_throw fun _ _ => rfl)
  rw [if_neg hguard]
  refine (keeps_enterDomain engineA2 _ _).bind_ends fun _ _ => ?_
  refine keeps_working.bind_ends fun bound _ => ?_
  by_cases hfinal : CountOk finalMoves
  · have hsqueeze : ¬ CountOk squeezeMoves := fun h => hcounts ⟨hfinal, h⟩
    refine (keeps_forM _ fun binding _ =>
      keeps_absorbSymbol engineA2_sound _ _ hfinal false).bind_ends fun _ _ => ?_
    refine (keeps_enterDomain engineA2 _ _).bind_ends fun _ _ => ?_
    rw [List.finRange_succ]
    refine fails_foldlM_cons ?_
    refine keeps_working.bind_ends fun state _ => ?_
    refine (keeps_reading (outputRulesA2_sound state _)).bind_ends fun byte _ => ?_
    exact Fails.bind (fails_absorbSymbol engineA2 _ _ hsqueeze false)
  · have hbytes : (outputRulesA2.bindingBytes bound.controller).zipIdx ≠ [] := by
      simp [outputRulesA2]
    obtain ⟨first, others, hlist⟩ := List.exists_cons_of_ne_nil hbytes
    rw [hlist]
    exact Fails.bind (fails_forM_cons (fails_absorbSymbol engineA2 _ _ hfinal false))

/-- The counts that are checked for a message: the forward count only where there is a
symbol. -/
structure EvaluationProfile.Checked (profile : EvaluationProfile) (message : List U8) : Prop where
  forwardMoves : message ≠ [] → CountOk profile.forwardMoves
  returnProfile : profile.returnProfile.Valid
  finalMoves : CountOk profile.finalMoves
  squeezeMoves : CountOk profile.squeezeMoves
  keyProfile : profile.keyProfile.Valid

theorem EvaluationProfile.Valid.checked {profile : EvaluationProfile} (h : profile.Valid)
    (message : List U8) : profile.Checked message :=
  ⟨fun _ => h.forwardMoves, h.returnProfile, h.finalMoves, h.squeezeMoves, h.keyProfile⟩

/-- **Where the checks pass**, the evaluation returns. -/
theorem keyedReturnOutput_returns (key : ResearchKey256) {message : List U8}
    {profile : EvaluationProfile} (h : profile.Checked message) :
    ∃ output m', (researchKeyedReturnOutputA2 key message profile).run freshMachineA2
      = .ok output m' := by
  obtain ⟨s₀, hs₀, -⟩ := makeInitialState_eq kPublicBootstrapSeed
  have hforward := leads_evaluateKeyed engineA2_sound hs₀ key h.forwardMoves h.keyProfile
  have hevaluate := hforward.bind fun _ _ =>
    keeps_transcriptReturn (invariant_sound engineA2_sound) returnRulesA2_sound message
      h.returnProfile false
  have houtput := hevaluate.bind fun _ _ =>
    keeps_boundOutput (invariant_sound engineA2_sound) outputRulesA2_sound
      (BitVec.ofNat 64 message.length) h.finalMoves h.squeezeMoves
  obtain ⟨output, m', hrun, -⟩ := houtput freshMachineA2 freshMachineA2_fresh
  exact ⟨output, m', hrun⟩

/-- **Where a check fails**, the evaluation throws `invalid_argument`. -/
theorem fails_keyedReturnOutput (key : ResearchKey256) {message : List U8}
    {profile : EvaluationProfile} (h : ¬ profile.Checked message) :
    Fails Machine.Fresh (researchKeyedReturnOutputA2 key message profile) Rejected := by
  obtain ⟨s₀, hs₀, -⟩ := makeInitialState_eq kPublicBootstrapSeed
  unfold researchKeyedReturnOutputA2 Engine.keyedReturnOutput Engine.evaluateKeyedReturn
  -- the checks are made in this order
  by_cases hkey : profile.keyProfile.Valid
  case neg =>
    exact Fails.bind (Fails.bind (Fails.bind (fails_makeKeyedState engineA2 key hkey false)))
  by_cases hforward : message ≠ [] → CountOk profile.forwardMoves
  case neg =>
    obtain ⟨hmessage, hmoves⟩ := Classical.not_imp.mp hforward
    refine Fails.bind (Fails.bind ?_)
    refine (leads_makeKeyedState engineA2_sound hs₀ key hkey false).bind_ends fun _ _ => ?_
    refine (keeps_enterDomain engineA2 _ _).bind_ends fun _ _ => ?_
    exact fails_absorbSequence engineA2 hmessage _ hmoves false
  have hpass := leads_evaluateKeyed engineA2_sound hs₀ key hforward hkey
  by_cases hreturn : profile.returnProfile.Valid
  case neg =>
    refine Fails.bind (hpass.bind_ends fun _ _ => ?_)
    exact fails_transcriptReturn engineA2 returnRulesA2 message hreturn false fun _ _ h _ => h
  have hevaluate := hpass.bind fun _ _ =>
    keeps_transcriptReturn (invariant_sound engineA2_sound) returnRulesA2_sound message
      hreturn false
  have hcounts : ¬ (CountOk profile.finalMoves ∧ CountOk profile.squeezeMoves) :=
    fun hcounts => h ⟨hforward, hreturn, hcounts.1, hcounts.2, hkey⟩
  exact hevaluate.bind_ends fun _ _ => fails_boundOutput _ hcounts

/-- The evaluation throws `invalid_argument`. -/
def ThrowsInvalidArgument (key : ResearchKey256) (message : List U8)
    (profile : EvaluationProfile) : Prop :=
  ∃ what, (researchKeyedReturnOutputA2 key message profile).returned freshMachineA2
    = .error (.thrown .invalidArgument what)

/-- **The evaluation rejects exactly what it checks.** -/
theorem throwsInvalidArgument_iff (key : ResearchKey256) (message : List U8)
    (profile : EvaluationProfile) :
    ThrowsInvalidArgument key message profile ↔ ¬ profile.Checked message := by
  unfold ThrowsInvalidArgument C1Run.returned
  constructor
  · rintro ⟨what, hthrown⟩ hchecked
    obtain ⟨output, m', hrun⟩ := keyedReturnOutput_returns key hchecked
    rw [hrun] at hthrown
    cases hthrown
  · intro hchecked
    rcases fails_keyedReturnOutput key hchecked freshMachineA2 freshMachineA2_fresh with
      ⟨output, m', -, hfalse⟩ | ⟨fault, m', hrun, hfault⟩
    · exact hfalse.elim
    · rw [hrun]
      cases fault with
      | thrown cls what =>
        obtain rfl : cls = .invalidArgument := Option.some.inj hfault
        exact ⟨what, rfl⟩
      | badAccess => cases hfault
      | badEnumerator => cases hfault

/-! ## What a fault leaves -/

/-- The working state and the trace vector of the caller. -/
def Machine.Holds {C D : Type} (w : WorkingStateOf C) (trace : List (MoveTraceOf C D))
    (m : Machine C D) : Prop :=
  m.working = w ∧ m.trace = trace

section Unchanged

variable {C D : Type} {w : WorkingStateOf C} {trace : List (MoveTraceOf C D)}

/-- What notes nothing in the trace vector, among the runs that may fail. -/
theorem Does.leads_holds {α : Type} {x : C1Run C D α} {a : α} {h : History C D}
    {w' : WorkingStateOf C} (hx : Does x w a h w') (hentries : h.entries = []) :
    Leads (Machine.Holds w trace) x (Machine.Holds w' trace) (· = a) := by
  rintro m ⟨hm, rfl⟩
  obtain ⟨accesses, -, hrun⟩ := hx m hm
  refine ⟨a, _, hrun, ⟨rfl, ?_⟩, rfl⟩
  show m.trace ++ h.entries = m.trace
  rw [hentries, List.append_nil]

/-- Reading the cube, in range or not, changes neither. -/
theorem ends_reading {α : Type} (x : AccessRun α) :
    Ends (Machine.Holds w trace) (C1Run.reading x : C1Run C D α) (Machine.Holds w trace)
      fun _ => Machine.Holds w trace := by
  intro m hm
  unfold C1Run.reading
  cases hx : x.run m.accesses with
  | ok a accesses => exact .inl ⟨a, _, zoom_run_of_ok m hx, hm⟩
  | error e accesses => exact .inr ⟨e, _, zoom_run_of_error m hx, hm⟩

/-- A rotation through a cursor out of range is refused. -/
theorem fails_rotateLine (axis : Axis) {cursor : Coord} (hcursor : ¬ cursor.InRange)
    (amount : U8) :
    Fails (Machine.Holds w trace) (C1Run.onCube (rotateLine axis cursor amount) : C1Run C D PUnit)
      fun _ => Machine.Holds w trace := by
  intro m hm
  have hrefused := rotateLine_run_of_not_inRange axis hcursor amount ⟨m.working.cube, m.accesses⟩
  unfold C1Run.onCube
  exact .inr ⟨_, _, zoom_run_of_error m hrefused, hm⟩

variable {engine : Engine C D} {DecisionOk : D → Prop} (hengine : engine.Sound DecisionOk)
include hengine

/-- **A move from a cursor out of range** fails, and has changed nothing. -/
theorem fails_applyMove (hcursor : ¬ w.cursor.InRange) (symbol : U8) (domain : Domain)
    (phase : U8) :
    Fails (Machine.Holds w trace) (engine.applyMove symbol domain phase)
      fun _ => Machine.Holds w trace := by
  obtain ⟨d, hpreview, -⟩ := hengine.preview w symbol domain phase
  unfold Engine.applyMove
  refine (does_working.leads_holds rfl).bind_ends ?_
  rintro state rfl
  refine ((does_reading hpreview).leads_holds rfl).bind_ends ?_
  rintro decision rfl
  refine ((does_recordDecision decision).leads_holds rfl).bind_ends fun _ _ => ?_
  refine (ends_reading _).bind fun lineBefore => ?_
  exact Fails.bind (fails_rotateLine _ hcursor _)

/-- A symbol from a cursor out of range fails in its first move. -/
theorem fails_absorbSymbol_of_cursor (hcursor : ¬ w.cursor.InRange) (symbol : U8)
    (domain : Domain) {moves : ℕ} (hmoves : CountOk moves) (traced : Bool) :
    Fails (Machine.Holds w trace) (engine.absorbSymbol symbol domain moves traced)
      fun _ => Machine.Holds w trace := by
  obtain ⟨hpos, hle⟩ := hmoves
  have hguard : ¬ (moves = 0 ∨ moves > 255) := by omega
  obtain ⟨others, rfl⟩ : ∃ others, moves = others + 1 := ⟨moves - 1, by omega⟩
  unfold Engine.absorbSymbol
  rw [if_neg hguard, List.range_succ_eq_map]
  exact Fails.bind (fails_forM_cons (Fails.bind (fails_applyMove hengine hcursor _ _ _)))

/-- **A symbol that fails** does so before anything has changed. -/
theorem ends_absorbSymbol (symbol : U8) (domain : Domain) (moves : ℕ) (traced : Bool) :
    Ends (Machine.Holds w trace) (engine.absorbSymbol symbol domain moves traced)
      (fun _ => True) fun _ => Machine.Holds w trace := by
  by_cases hmoves : CountOk moves
  · by_cases hcursor : w.cursor.InRange
    · obtain ⟨steps, w', -, -, -, hdoes⟩ :=
        does_absorbSymbol hengine symbol domain hmoves hcursor
      intro m hm
      obtain ⟨accesses, -, hrun⟩ := hdoes traced m hm.1
      exact .inl ⟨(), _, hrun, trivial⟩
    · exact (fails_absorbSymbol_of_cursor hengine hcursor symbol domain hmoves traced).ends
  · intro m hm
    exact .inr ⟨_, m, absorbSymbol_run_of_not_countOk engine symbol domain hmoves traced m, hm⟩

/-- **A sequence that fails** does so at its first symbol. -/
theorem ends_absorbSequence (symbols : List U8) (domain : Domain) (moves : ℕ) (traced : Bool) :
    Ends (Machine.Holds w trace) (engine.absorbSequence symbols domain moves traced)
      (fun _ => True) fun _ => Machine.Holds w trace := by
  cases symbols with
  | nil => exact fun m hm => .inl ⟨(), m, rfl, trivial⟩
  | cons symbol symbols =>
    by_cases hmoves : CountOk moves
    · by_cases hcursor : w.cursor.InRange
      · obtain ⟨steps, w', -, -, -, hdoes⟩ :=
          does_absorbSequence hengine (symbol :: symbols) domain hmoves hcursor
        intro m hm
        obtain ⟨accesses, -, hrun⟩ := hdoes traced m hm.1
        exact .inl ⟨(), _, hrun, trivial⟩
      · have hfirst : Fails (Machine.Holds w trace) _ fun _ => Machine.Holds w trace :=
          fails_absorbSymbol_of_cursor hengine hcursor symbol domain hmoves traced
        exact Fails.ends (@fails_forM_cons _ _ _ _ _
          (fun symbol => engine.absorbSymbol symbol domain moves traced) symbol symbols hfirst)
    · intro m hm
      have hfirst := absorbSymbol_run_of_not_countOk engine symbol domain hmoves traced m
      exact .inr ⟨_, m, run_bind_of_error hfirst, hm⟩

/-- **The transcript return from a cursor out of range** fails at its first symbol, after
its first domain entry. -/
theorem fails_transcriptReturn_of_cursor {rules : ReturnRules C} (hrules : rules.Sound)
    (hcursor : ¬ w.cursor.InRange) (message : List U8) {profile : ReturnProfile}
    (hprofile : profile.Valid) (traced : Bool) {diagonals : Vector U8 32}
    (hreads : Reads (bodyDiagonals w.cube) diagonals) :
    Fails (Machine.Holds w trace) (engine.transcriptReturn rules message profile traced)
      fun _ => Machine.Holds { w with controller := (engine.entered w.controller diagonals
        .returnInit (rules.boundary w (BitVec.ofNat 64 message.length))) } trace := by
  have hvalid : validateReturnProfile profile = .ok () := if_pos hprofile
  obtain ⟨⟨hsymbols, -⟩, hinit, -⟩ := hprofile
  obtain ⟨others, hothers⟩ : ∃ others, profile.initSymbols = others + 1 :=
    ⟨profile.initSymbols - 1, by omega⟩
  unfold Engine.transcriptReturn
  refine ((does_lift hvalid).leads_holds rfl).bind_ends fun _ _ => ?_
  refine (does_working.leads_holds rfl).bind_ends ?_
  rintro snapshot rfl
  refine ((does_enterDomain engine .returnInit _ hreads).leads_holds rfl).bind_ends
    fun _ _ => ?_
  rw [hothers, List.range_succ_eq_map]
  refine Fails.bind (fails_forM_cons ?_)
  obtain ⟨symbol, hsymbol⟩ := hrules.initSymbol snapshot (BitVec.ofNat 64 message.length)
    (BitVec.ofNat 64 0)
  refine ((does_reading hsymbol).leads_holds rfl).bind_ends fun _ _ => ?_
  refine fails_absorbSymbol_of_cursor hengine ?_ _ .returnInit hinit traced
  exact hcursor

/-- With a valid profile, the transcript return fails only from a cursor out of range. -/
theorem transcriptReturn_cursor_of_error {rules : ReturnRules C} (hrules : rules.Sound)
    {message : List U8} {profile : ReturnProfile} (hprofile : profile.Valid) {traced : Bool}
    {m m' : Machine C D} {e : Fault}
    (hrun : (engine.transcriptReturn rules message profile traced).run m = .error e m') :
    ¬ m.working.cursor.InRange := by
  intro hcursor
  obtain ⟨a, m₁, hreturns, -⟩ := keeps_transcriptReturn (invariant_cursorInRange hengine) hrules
    message hprofile traced m hcursor
  exact absurd (hreturns.symm.trans hrun) (by simp)

/-- The lanes are a fixed point of the first domain entry of a transcript return. -/
def Engine.EntryFixes (engine : Engine C D) (rules : ReturnRules C) (w : WorkingStateOf C)
    (messageLength : U64) : Prop :=
  ∃ diagonals, Reads (bodyDiagonals w.cube) diagonals ∧
    engine.entered w.controller diagonals .returnInit (rules.boundary w messageLength)
      = w.controller

/-- **A transcript return that throws** leaves the caller's objects as they were where the profile
is refused, and where the cursor is in range, since then it does not throw.  From a cursor out of
range it throws at its first symbol, after the first domain entry: there nothing has changed
only if that entry happens to map the lanes to themselves. -/
theorem transcriptReturn_unchanged_iff {rules : ReturnRules C} (hrules : rules.Sound)
    (message : List U8) (profile : ReturnProfile) (traced : Bool) (m : Machine C D) :
    (∀ e m', (engine.transcriptReturn rules message profile traced).run m = .error e m' →
      m'.Holds m.working m.trace) ↔
    ¬ profile.Valid ∨ m.working.cursor.InRange ∨
      engine.EntryFixes rules m.working (BitVec.ofNat 64 message.length) := by
  obtain ⟨diagonals, hreads⟩ := exists_reads_bodyDiagonals m.working.cube
  constructor
  · intro h
    by_contra hnone
    obtain ⟨hprofile, hcursor, hmoved⟩ : profile.Valid ∧ ¬ m.working.cursor.InRange ∧
        ¬ engine.EntryFixes rules m.working (BitVec.ofNat 64 message.length) := by
      simpa only [not_or, not_not] using hnone
    obtain ⟨e, m', hrun, hleft⟩ := (fails_transcriptReturn_of_cursor hengine hrules hcursor message
      hprofile traced hreads).exists_error ⟨rfl, rfl⟩
    exact hmoved ⟨diagonals, hreads,
      congrArg WorkingStateOf.controller (hleft.1.symm.trans (h e m' hrun).1)⟩
  · rintro h e m' hrun
    by_cases hprofile : profile.Valid
    case neg =>
      have hrefused : Fails (· = m) (engine.transcriptReturn rules message profile traced)
          fun _ m' => m' = m :=
        fails_transcriptReturn engine rules message hprofile traced fun _ _ _ hm => hm
      obtain rfl : m' = m := hrefused.of_error rfl hrun
      exact ⟨rfl, rfl⟩
    have hcursor := transcriptReturn_cursor_of_error hengine hrules hprofile hrun
    rcases h with hbad | hinRange | ⟨fixed, hfixed, heq⟩
    · exact absurd hprofile hbad
    · exact absurd hinRange hcursor
    · have hleft := (fails_transcriptReturn_of_cursor hengine hrules hcursor message hprofile
        traced hfixed).of_error ⟨rfl, rfl⟩ hrun
      rwa [heq] at hleft

end Unchanged

/-! ## Validation -/

/-- Every count but the forward one is in `[1,255]`. -/
def EvaluationProfile.OthersValid (profile : EvaluationProfile) : Prop :=
  profile.returnProfile.Valid ∧ CountOk profile.finalMoves ∧ CountOk profile.squeezeMoves ∧
    profile.keyProfile.Valid

/-- The checks miss a count exactly where the message is empty, the forward count is
outside `[1,255]`, and no other is. -/
theorem EvaluationProfile.checked_iff_valid (profile : EvaluationProfile) (message : List U8) :
    (profile.Checked message ↔ profile.Valid) ↔
      message ≠ [] ∨ CountOk profile.forwardMoves ∨ ¬ profile.OthersValid := by
  constructor
  · intro h
    by_contra hmiss
    obtain ⟨hmessage, hforward, hothers⟩ : message = [] ∧ ¬ CountOk profile.forwardMoves ∧
        profile.OthersValid := by
      simpa only [not_or, not_not] using hmiss
    obtain ⟨hreturn, hfinal, hsqueeze, hkey⟩ := hothers
    have hchecked : profile.Checked message :=
      ⟨fun hne => absurd hmessage hne, hreturn, hfinal, hsqueeze, hkey⟩
    exact hforward (h.mp hchecked).forwardMoves
  · rintro h
    refine ⟨fun hchecked => ?_, fun hvalid => hvalid.checked message⟩
    have hforward : CountOk profile.forwardMoves := by
      rcases h with hmessage | hforward | hothers
      · exact hchecked.forwardMoves hmessage
      · exact hforward
      · exact absurd ⟨hchecked.returnProfile, hchecked.finalMoves, hchecked.squeezeMoves,
          hchecked.keyProfile⟩ hothers
    exact ⟨hforward, hchecked.returnProfile, hchecked.finalMoves, hchecked.squeezeMoves,
      hchecked.keyProfile⟩

/-- The empty message with a forward count of zero: the evaluation returns an output. -/
theorem empty_message_unchecked :
    ¬ (ThrowsInvalidArgument (Vector.replicate 32 0) [] { forwardMoves := 0 } ↔
      ¬ EvaluationProfile.Valid { forwardMoves := 0 }) := by
  rw [throwsInvalidArgument_iff, not_iff_not]
  intro h
  have hchecked : EvaluationProfile.Checked { forwardMoves := 0 } [] :=
    ⟨fun hne => absurd rfl hne, by decide, by decide, by decide, by decide⟩
  exact absurd (h.mp hchecked).forwardMoves (by decide)

/-- **Where validation depends on the data.**  An evaluation throws `invalid_argument`
exactly when one of its eleven counts is outside `[1,255]`, if and only if the message has
a symbol, or the forward count is valid, or another one is not.  When `absorb_symbol` or
`absorb_sequence` fails, the working state and the trace vector are as before.  For
`apply_transcript_return_a2` this holds where the profile is refused or the cursor is in range,
in the latter case since a valid profile does not fail.  Nothing else promises it: from a
cursor out of range the failure comes behind a domain entry, and the state is as before only
if the lanes are a fixed point of that entry. -/
theorem profile_validation (key : ResearchKey256) (message : List U8) (profile : EvaluationProfile)
    (m m' : Machine ControllerState MoveDecision) (symbol : U8) (symbols : List U8)
    (domain : Domain) (moves : ℕ) (traced : Bool) (e : Fault) (returnProfile : ReturnProfile) :
    ((ThrowsInvalidArgument key message profile ↔ ¬ profile.Valid) ↔
      message ≠ [] ∨ CountOk profile.forwardMoves ∨ ¬ profile.OthersValid) ∧
    ((absorbSymbol symbol domain moves traced).run m = .error e m' →
      m'.working = m.working ∧ m'.trace = m.trace) ∧
    ((absorbSequence symbols domain moves traced).run m = .error e m' →
      m'.working = m.working ∧ m'.trace = m.trace) ∧
    ((∀ e m', (applyTranscriptReturnA2 message returnProfile traced).run m = .error e m' →
        m'.working = m.working ∧ m'.trace = m.trace) ↔
      ¬ returnProfile.Valid ∨ m.working.cursor.InRange ∨
        engineA2.EntryFixes returnRulesA2 m.working (BitVec.ofNat 64 message.length)) ∧
    (returnProfile.Valid → m.working.cursor.InRange →
      ∃ m₁, (applyTranscriptReturnA2 message returnProfile traced).run m = .ok () m₁) := by
  refine ⟨?_, ?_, ?_, ?_, ?_⟩
  · rw [throwsInvalidArgument_iff, not_iff_not]
    exact profile.checked_iff_valid message
  · intro hrun
    exact (ends_absorbSymbol engineA2_sound symbol domain moves traced).of_error ⟨rfl, rfl⟩ hrun
  · intro hrun
    exact (ends_absorbSequence engineA2_sound symbols domain moves traced).of_error ⟨rfl, rfl⟩ hrun
  · exact transcriptReturn_unchanged_iff engineA2_sound returnRulesA2_sound message returnProfile
      traced m
  · intro hprofile hcursor
    obtain ⟨a, m₁, hrun, -⟩ := keeps_transcriptReturn (invariant_cursorInRange engineA2_sound)
      returnRulesA2_sound message hprofile traced m hcursor
    exact ⟨m₁, hrun⟩

/-- One symbol with a forward count of zero is rejected, and so is a symbol with no moves,
which leaves the fresh machine as it was. -/
theorem profile_validation_symbol :
    ThrowsInvalidArgument (Vector.replicate 32 0) [0x61] { forwardMoves := 0 } ∧
    ∃ m' e, (absorbSymbol 0x61 .inputForward 0 true).run freshMachineA2 = .error e m' ∧
      m'.working = freshMachineA2.working ∧ m'.trace = freshMachineA2.trace := by
  have hrun := absorbSymbol_run_of_not_countOk engineA2 0x61 .inputForward
    (by decide : ¬ CountOk 0) true freshMachineA2
  obtain ⟨hthrows, habsorb, -⟩ := profile_validation (Vector.replicate 32 0) [0x61]
    { forwardMoves := 0 } freshMachineA2 freshMachineA2 0x61 [0x61] .inputForward 0 true _ {}
  have hinvalid : ¬ EvaluationProfile.Valid { forwardMoves := 0 } :=
    fun h => absurd h.forwardMoves (by decide)
  exact ⟨(hthrows.mpr (.inl (by decide))).mpr hinvalid, freshMachineA2, _, hrun, habsorb hrun⟩
