/-
# What the return pass is bound to

The boundary value with which `apply_transcript_return_a2` enters its first domain
depends on every field of the forward state but the previous axis, through the
fingerprint, and on the message length; the previous axis shows in every initial
symbol.
-/
import RotSymEnc.LineRotations
import RotSymEnc.SymbolInjection
import RotSymEnc.MoveRuns

open Function ReversibleWords StatefulRuns

/-! ## The fields of the fingerprint -/

/-- The fields outside the cube that `state_fingerprint` reads. -/
inductive BoundField : Type where
  | transcript
  | feedback
  | axisControl
  | amountControl
  | cursor
  | symbolIndex
  deriving DecidableEq, Repr

/-- The states agree in a field. -/
def SameField (s s' : WorkingState) : BoundField → Prop
  | .transcript => s.controller.transcript = s'.controller.transcript
  | .feedback => s.controller.feedback = s'.controller.feedback
  | .axisControl => s.controller.axisControl = s'.controller.axisControl
  | .amountControl => s.controller.amountControl = s'.controller.amountControl
  | .cursor => s.cursor = s'.cursor
  | .symbolIndex => s.symbolIndex = s'.symbolIndex

/-- The cubes are the same and exactly one field differs. -/
structure DifferOnlyIn (field : BoundField) (s s' : WorkingState) : Prop where
  cube : s.cube = s'.cube
  same : ∀ other, other ≠ field → SameField s s' other
  differ : ¬ SameField s s' field

/-! ## The starting word -/

/-- The word the fingerprint starts from. -/
def fingerprintStart (s : WorkingState) : U64 :=
  s.controller.transcript ^^^ (u64 s.controller.feedback <<< 17)
    ^^^ (u64 s.controller.axisControl <<< 1) ^^^ (u64 s.controller.amountControl <<< 33)
    ^^^ (u64 (coordinateWord s.cursor) <<< 49) ^^^ s.symbolIndex

/-- The loop of the fingerprint over the cells of a cube. -/
def fingerprintLoop (cube : Cube) (start : U64) : U64 :=
  (List.finRange 512).foldl (fun (value : U64) (i : Fin 512) =>
    rotl64 (value ^^^ u64 (cube.cells.get i) ^^^ BitVec.ofNat 64 (i.val * 131)) (1 + i.val % 32)
      + u64 (cube.cells.get i) * BitVec.ofNat 64 (257 + 2 * i.val)) start

theorem stateFingerprint_eq (s : WorkingState) :
    stateFingerprint s = fingerprintLoop s.cube (fingerprintStart s) := rfl

/-- **The loop loses nothing of its starting word**, whatever the cells. -/
theorem fingerprintLoop_injective (cube : Cube) : Injective (fingerprintLoop cube) := by
  unfold fingerprintLoop
  generalize List.finRange 512 = cells
  refine foldl_injective (fun i => ?_) cells
  intro value value' h
  have hrotated := add_const_injective _ h
  exact xor_const_injective _ (xor_const_injective _ (rotl_injective _ hrotated))

/-- The fields of an in-range coordinate word. -/
theorem toNat_coordinateWord {c : Coord} (h : c.InRange) :
    (coordinateWord c).toNat = 1024 * c.x.toNat + 32 * c.y.toNat + c.z.toNat := by
  have hall : ∀ x y z : Fin 8,
      (coordinateWord ⟨BitVec.ofNat 8 x, BitVec.ofNat 8 y, BitVec.ofNat 8 z⟩).toNat
        = 1024 * (BitVec.ofNat 8 x).toNat + 32 * (BitVec.ofNat 8 y).toNat
          + (BitVec.ofNat 8 z).toNat := by
    decide +kernel
  have hpos : Coord.ofPos c.pos = c :=
    ((Coord.inRange_ofPos c.pos).pos_inj h).mp (Coord.pos_ofPos c.pos)
  rw [← hpos]
  exact hall (c.pos .X) (c.pos .Y) (c.pos .Z)

/-- The cursor field is placed without truncation. -/
theorem cursorField_injective {c d : Coord} (hc : c.InRange) (hd : d.InRange)
    (h : u64 (coordinateWord c) <<< 49 = u64 (coordinateWord d) <<< 49) : c = d := by
  have hcw := toNat_coordinateWord hc
  have hdw := toNat_coordinateWord hd
  obtain ⟨hcx, hcy, hcz⟩ := hc
  obtain ⟨hdx, hdy, hdz⟩ := hd
  have h8 : (8 : U8).toNat = 8 := rfl
  rw [BitVec.lt_def, h8] at hcx hcy hcz hdx hdy hdz
  have hwords := congrArg BitVec.toNat h
  simp only [BitVec.toNat_shiftLeft, BitVec.toNat_setWidth, Nat.shiftLeft_eq, hcw, hdw] at hwords
  obtain ⟨cx, cy, cz⟩ := c
  obtain ⟨dx, dy, dz⟩ := d
  simp only at *
  obtain rfl : cx = dx := BitVec.eq_of_toNat_eq (by omega)
  obtain rfl : cy = dy := BitVec.eq_of_toNat_eq (by omega)
  obtain rfl : cz = dz := BitVec.eq_of_toNat_eq (by omega)
  rfl

/-- **A single field can be read off the starting word** once the others are known. -/
theorem fingerprintStart_ne {field : BoundField} {s s' : WorkingState}
    (h : DifferOnlyIn field s s') (hs : s.cursor.InRange) (hs' : s'.cursor.InRange) :
    fingerprintStart s ≠ fingerprintStart s' := by
  intro hstart
  apply h.differ
  have ht : field ≠ .transcript → s.controller.transcript = s'.controller.transcript :=
    fun hne => h.same .transcript hne.symm
  have hf : field ≠ .feedback → s.controller.feedback = s'.controller.feedback :=
    fun hne => h.same .feedback hne.symm
  have ha : field ≠ .axisControl → s.controller.axisControl = s'.controller.axisControl :=
    fun hne => h.same .axisControl hne.symm
  have hm : field ≠ .amountControl → s.controller.amountControl = s'.controller.amountControl :=
    fun hne => h.same .amountControl hne.symm
  have hc : field ≠ .cursor → s.cursor = s'.cursor := fun hne => h.same .cursor hne.symm
  have hi : field ≠ .symbolIndex → s.symbolIndex = s'.symbolIndex :=
    fun hne => h.same .symbolIndex hne.symm
  unfold fingerprintStart at hstart
  -- the fields are placed side by side: the equal ones cancel from the outside in
  cases field with
  | transcript =>
    rw [hf (by decide), ha (by decide), hm (by decide), hc (by decide), hi (by decide)] at hstart
    have hrest := xor_const_injective _ (xor_const_injective _ (xor_const_injective _ hstart))
    exact xor_const_injective _ (xor_const_injective _ hrest)
  | feedback =>
    rw [ht (by decide), ha (by decide), hm (by decide), hc (by decide), hi (by decide)] at hstart
    have hrest := xor_const_injective _ (xor_const_injective _ (xor_const_injective _ hstart))
    have hplaced := const_xor_injective _ (xor_const_injective _ hrest)
    exact shiftLeft_setWidth_injective (by decide : 32 + 17 ≤ 64) hplaced
  | axisControl =>
    rw [ht (by decide), hf (by decide), hm (by decide), hc (by decide), hi (by decide)] at hstart
    have hrest := xor_const_injective _ (xor_const_injective _ (xor_const_injective _ hstart))
    exact shiftLeft_setWidth_injective (by decide : 16 + 1 ≤ 64) (const_xor_injective _ hrest)
  | amountControl =>
    rw [ht (by decide), hf (by decide), ha (by decide), hc (by decide), hi (by decide)] at hstart
    have hrest := xor_const_injective _ (xor_const_injective _ hstart)
    exact shiftLeft_setWidth_injective (by decide : 16 + 33 ≤ 64) (const_xor_injective _ hrest)
  | cursor =>
    rw [ht (by decide), hf (by decide), ha (by decide), hm (by decide), hi (by decide)] at hstart
    have hrest := const_xor_injective _ (xor_const_injective _ hstart)
    exact cursorField_injective hs hs' hrest
  | symbolIndex =>
    rw [ht (by decide), hf (by decide), ha (by decide), hm (by decide), hc (by decide)] at hstart
    exact const_xor_injective _ hstart

theorem stateFingerprint_ne {field : BoundField} {s s' : WorkingState}
    (h : DifferOnlyIn field s s') (hs : s.cursor.InRange) (hs' : s'.cursor.InRange) :
    stateFingerprint s ≠ stateFingerprint s' := by
  intro heq
  rw [stateFingerprint_eq, stateFingerprint_eq, ← h.cube] at heq
  exact fingerprintStart_ne h hs hs' (fingerprintLoop_injective s.cube heq)

/-! ## The boundary -/

/-- A transcript return behind its first domain entry. -/
def Engine.returnLoops {C D : Type} (engine : Engine C D) (rules : ReturnRules C)
    (message : List U8) (profile : ReturnProfile) (trace : Bool) (snapshot : WorkingStateOf C) :
    C1Run C D PUnit := do
  let messageLength := BitVec.ofNat 64 message.length
  let boundary := rules.boundary snapshot messageLength
  forM (List.range profile.initSymbols) fun (i : ℕ) => do
    let symbol ← C1Run.reading (rules.initSymbol snapshot messageLength (BitVec.ofNat 64 i))
    engine.absorbSymbol symbol .returnInit profile.initMoves trace
  engine.enterDomain .inputReturn
    (boundary ^^^ rotl64 (rules.chain snapshot.controller) rules.inputRotation)
  forM (List.finRange message.length) fun (i : Fin message.length) => do
    let messageByte := message.get i.rev
    let current ← C1Run.working
    let symbol ← C1Run.reading
      (rules.returnSymbol snapshot current messageByte messageLength (BitVec.ofNat 64 i))
    engine.absorbSymbol symbol .inputReturn profile.messageMoves trace
  let current ← C1Run.working
  engine.enterDomain .returnSeal
    (boundary ^^^ rotl64 (rules.chain current.controller) rules.sealRotation)
  forM (List.range profile.sealSymbols) fun (i : ℕ) => do
    let current ← C1Run.working
    let symbol ← C1Run.reading
      (rules.sealSymbol snapshot current messageLength (BitVec.ofNat 64 i))
    engine.absorbSymbol symbol .returnSeal profile.sealMoves trace

theorem Engine.transcriptReturn_eq {C D : Type} (engine : Engine C D) (rules : ReturnRules C)
    (message : List U8) (profile : ReturnProfile) (trace : Bool) :
    engine.transcriptReturn rules message profile trace = (do
      lift (validateReturnProfile profile)
      let snapshot ← C1Run.working
      engine.enterDomain .returnInit (rules.boundary snapshot (BitVec.ofNat 64 message.length))
      engine.returnLoops rules message profile trace snapshot) := rfl

/-- **What `apply_transcript_return_a2` hands to its first `enter_domain`** is the boundary of the
state it is called on and of the message length; everything else it does comes after. -/
theorem applyTranscriptReturnA2_enters (message : List U8) {profile : ReturnProfile}
    (hprofile : profile.Valid) (trace : Bool) (m : Machine ControllerState MoveDecision) :
    ∃ m₁, (enterDomain .returnInit
        (returnRulesA2.boundary m.working (BitVec.ofNat 64 message.length))).run m = .ok () m₁ ∧
      (applyTranscriptReturnA2 message profile trace).run m
        = (engineA2.returnLoops returnRulesA2 message profile trace m.working).run m₁ := by
  have hvalid : validateReturnProfile profile = .ok () := if_pos hprofile
  obtain ⟨diagonals, hreads⟩ := exists_reads_bodyDiagonals m.working.cube
  obtain ⟨accesses, -, hentered⟩ := does_enterDomain engineA2 .returnInit
    (returnRulesA2.boundary m.working (BitVec.ofNat 64 message.length)) hreads m rfl
  have hworking : (C1Run.working : C1Run ControllerState MoveDecision _).run m
      = .ok m.working m := rfl
  refine ⟨_, hentered, ?_⟩
  rw [applyTranscriptReturnA2, Engine.transcriptReturn_eq, hvalid,
    run_bind_of_ok (lift_ok_run _ _), run_bind_of_ok hworking, run_bind_of_ok hentered]

theorem returnRulesA2_fingerprint (s : WorkingState) :
    returnRulesA2.fingerprint s = stateFingerprint s := by
  simp only [returnRulesA2]

/-- A field other than the symbol index shows in the boundary. -/
theorem boundary_ne {field : BoundField} {s s' : WorkingState} (h : DifferOnlyIn field s s')
    (hfield : field ≠ .symbolIndex) (hs : s.cursor.InRange) (hs' : s'.cursor.InRange)
    (messageLength : U64) :
    returnRulesA2.boundary s messageLength ≠ returnRulesA2.boundary s' messageLength := by
  intro heq
  have hi : s.symbolIndex = s'.symbolIndex := h.same .symbolIndex hfield.symm
  unfold ReturnRules.boundary at heq
  rw [returnRulesA2_fingerprint, returnRulesA2_fingerprint, hi, BitVec.xor_left_inj,
    BitVec.xor_left_inj] at heq
  exact stateFingerprint_ne h hs hs' heq

/-- The length factor is odd, so it has an inverse. -/
theorem lengthFactor_mul_inverse : returnRulesA2.lengthFactor * 0x0887493432BADB37 = 1 := by
  decide +kernel

/-- The message length shows in the boundary. -/
theorem boundary_ne_of_length (s : WorkingState) {messageLength messageLength' : U64}
    (h : messageLength ≠ messageLength') :
    returnRulesA2.boundary s messageLength ≠ returnRulesA2.boundary s messageLength' := by
  intro heq
  unfold ReturnRules.boundary at heq
  rw [BitVec.xor_left_inj, BitVec.xor_right_inj] at heq
  exact h (mul_const_injective lengthFactor_mul_inverse heq)

/-! ## The previous axis -/

/-- The weighted axis of a geometry byte. -/
theorem axisWeight_injective :
    Injective fun axis : Axis => BitVec.ofNat 8 (axisCode axis) * 19 := by
  intro axis axis' h
  cases axis <;> cases axis' <;> first | rfl | exact absurd h (by decide)

/-- The previous axis shows in every initial symbol. -/
theorem initSymbolA2_ne (s : WorkingState) {axis : Axis} (h : axis ≠ s.previousAxis)
    (messageLength index : U64) : ∃ symbol symbol',
      (initSymbolA2 s messageLength index).returned = .ok symbol ∧
      (initSymbolA2 { s with previousAxis := axis } messageLength index).returned = .ok symbol' ∧
      symbol ≠ symbol' := by
  have hreads : ∀ t : WorkingState, Reads (initSymbolA2 t messageLength index) _ := fun t =>
    (reads_unchecked t.cube (coordFromSelector_inRange _ _ _)).bind
      ((reads_unchecked t.cube (coordFromSelector_inRange _ _ _)).bind (Reads.pure _))
  refine ⟨_, _, (hreads s).returned, (hreads { s with previousAxis := axis }).returned, ?_⟩
  intro heq
  rw [BitVec.xor_left_inj, BitVec.xor_right_inj] at heq
  have hweights : BitVec.ofNat 8 (axisCode s.previousAxis) * 19
      = BitVec.ofNat 8 (axisCode axis) * 19 := (BitVec.add_right_inj _).mp heq
  exact h (axisWeight_injective hweights).symm

/-! ## The binding -/

/-- **The entry of the return pass** binds the forward state and the message length. -/
theorem return_entry_binds :
    (∀ (field : BoundField) (s s' : WorkingState), DifferOnlyIn field s s' →
      s.cursor.InRange → s'.cursor.InRange →
      stateFingerprint s ≠ stateFingerprint s' ∧
      (field ≠ .symbolIndex → ∀ message : List U8,
        returnRulesA2.boundary s (BitVec.ofNat 64 message.length)
          ≠ returnRulesA2.boundary s' (BitVec.ofNat 64 message.length))) ∧
    (∀ (s : WorkingState) (message message' : List U8), message.length < 2 ^ 64 →
      message'.length < 2 ^ 64 → message.length ≠ message'.length →
      returnRulesA2.boundary s (BitVec.ofNat 64 message.length)
        ≠ returnRulesA2.boundary s (BitVec.ofNat 64 message'.length)) ∧
    ∀ (s : WorkingState) (axis : Axis), axis ≠ s.previousAxis →
      ∀ messageLength index : U64, ∃ symbol symbol',
        (initSymbolA2 s messageLength index).returned = .ok symbol ∧
        (initSymbolA2 { s with previousAxis := axis } messageLength index).returned = .ok symbol' ∧
        symbol ≠ symbol' := by
  refine ⟨fun field s s' h hs hs' => ⟨?_, ?_⟩, ?_, ?_⟩
  · exact stateFingerprint_ne h hs hs'
  · intro hfield message
    exact boundary_ne h hfield hs hs' _
  · intro s message message' hm hm' hne
    refine boundary_ne_of_length s fun heq => hne ?_
    have hval := congrArg BitVec.toNat heq
    rwa [BitVec.toNat_ofNat, BitVec.toNat_ofNat, Nat.mod_eq_of_lt hm,
      Nat.mod_eq_of_lt hm'] at hval
  · intro s axis h messageLength index
    exact initSymbolA2_ne s h messageLength index

/-- Two states that differ in one bit of the transcript. -/
theorem return_entry_binds_transcript :
    DifferOnlyIn .transcript ⟨Cube.perfect, ⟨0, 0, 0⟩, .X, ⟨0, 0, 0, 0⟩, 0⟩
        ⟨Cube.perfect, ⟨0, 0, 0⟩, .X, ⟨0, 0, 0, 1⟩, 0⟩ ∧
      stateFingerprint ⟨Cube.perfect, ⟨0, 0, 0⟩, .X, ⟨0, 0, 0, 0⟩, 0⟩
        ≠ stateFingerprint ⟨Cube.perfect, ⟨0, 0, 0⟩, .X, ⟨0, 0, 0, 1⟩, 0⟩ := by
  have hdiffer : DifferOnlyIn .transcript ⟨Cube.perfect, ⟨0, 0, 0⟩, .X, ⟨0, 0, 0, 0⟩, 0⟩
      ⟨Cube.perfect, ⟨0, 0, 0⟩, .X, ⟨0, 0, 0, 1⟩, 0⟩ := by
    refine ⟨rfl, fun other hne => ?_, ?_⟩
    · cases other <;> first | rfl | exact absurd rfl hne
    · exact (by decide : (0 : U64) ≠ 1)
  exact ⟨hdiffer, (return_entry_binds.1 _ _ _ hdiffer (by decide) (by decide)).1⟩
