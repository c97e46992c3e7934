/-
# The decisions of a move

Whatever the lanes of a controller hold, a preview hands only coordinates below 8
to `Cube::unchecked`, and the amount it decides on is in `1..7`.  `Engine.Sound`
says what the moves rely on; both controllers have it.
-/
import RotSymEnc.CubeGeometry
import RotSymEnc.AmountMapper
import RotSymEnc.KeySchedule

open StatefulRuns

/-! ## Coordinates made by masking -/

/-- Three bits of any word are below 8. -/
theorem masked_lt {w : ℕ} (word : BitVec w) : u8 (word &&& 7) < 8 := by
  have hand : (word &&& 7).toNat ≤ 7 := by
    rw [BitVec.toNat_and]
    exact le_trans Nat.and_le_right (Nat.mod_le 7 (2 ^ w))
  rw [BitVec.lt_def, BitVec.toNat_setWidth]
  show _ < 8
  omega

theorem coordFromWords_inRange (cursor : Coord) (control : U16) (feedback : U32)
    (transcript : U64) (phase domain : U8) (lane : ℕ) :
    (coordFromWords cursor control feedback transcript phase domain lane).InRange :=
  ⟨masked_lt _, masked_lt _, masked_lt _⟩

theorem coordinateB_inRange (cursor : Coord) (a b : U32) (path : U64) (phase dc : U8)
    (lane : ℕ) : (coordinateB cursor a b path phase dc lane).InRange :=
  ⟨masked_lt _, masked_lt _, masked_lt _⟩

theorem candidateCoord_inRange (coord : Coord) (axis : Axis) (domain : Domain) (phase : U8)
    (candidate : ℕ) : (candidateCoord coord axis domain phase candidate).InRange :=
  ⟨masked_lt _, masked_lt _, masked_lt _⟩

theorem coordFromSelector_inRange (selector index : U64) (lane : ℕ) :
    (coordFromSelector selector index lane).InRange :=
  ⟨masked_lt _, masked_lt _, masked_lt _⟩

theorem outputCoord_inRange (selector : U64) (round lane : ℕ) :
    (outputCoord selector round lane).InRange :=
  ⟨masked_lt _, masked_lt _, masked_lt _⟩

/-! ## What the controllers are required to do -/

/-- What the moves rely on: initial states have the perfect cube and a cursor in
range, and a preview reads in range and decides well, whatever the lanes hold. -/
structure Engine.Sound {C D : Type} (engine : Engine C D) (DecisionOk : D → Prop) : Prop where
  initial : ∀ seed, ∃ s, engine.initial seed = .ok s ∧ s.cube = Cube.perfect ∧ s.cursor.InRange
  preview : ∀ s symbol domain phase, ∃ d, Reads (engine.preview s symbol domain phase) d ∧
    DecisionOk d ∧ ∀ c ∈ (engine.probes d).coords, c.InRange

/-- The amount rotates: it is in `1..7`. -/
def AmountOk (amount : U8) : Prop := 1 ≤ amount ∧ amount ≤ 7

instance (amount : U8) : Decidable (AmountOk amount) :=
  inferInstanceAs (Decidable (_ ∧ _))

/-- Every entry of a permutation of `1..7` rotates. -/
theorem amountOk_of_perm {permutation : Vector U8 7}
    (h : permutation.toList.Perm amountValues) {i : ℕ} (hi : i < 7) : AmountOk permutation[i] := by
  have hall : ∀ b ∈ amountValues, AmountOk b := by decide
  exact hall _ (h.mem_iff.mp (by simp))

/-- A decision of the A2 controller: the slot selects the amount from a
permutation of `1..7`. -/
structure MoveDecision.Ok (d : MoveDecision) : Prop where
  slot_lt : d.amountSlot < 7
  permutation : d.amountPermutation.toList.Perm amountValues
  amount : AmountOk d.amount

/-- A decision of prototype B. -/
def MoveDecisionB.Ok (d : MoveDecisionB) : Prop := AmountOk d.amount

/-! ## The A2 controller -/

/-- The axis code of an initial state is an enumerator. -/
theorem axis_ofCode_mod (value : U64) : ∃ axis, Axis.ofCode (value % 3).toNat = .ok axis := by
  have hlt : (value % 3).toNat < 3 := by
    rw [BitVec.toNat_umod]
    exact Nat.mod_lt _ (by decide)
  interval_cases (value % 3).toNat
  · exact ⟨.X, rfl⟩
  · exact ⟨.Y, rfl⟩
  · exact ⟨.Z, rfl⟩

theorem makeInitialState_eq (seed : U64) :
    ∃ s, makeInitialState seed = .ok s ∧ s.cube = Cube.perfect ∧ s.cursor.InRange := by
  obtain ⟨axis, haxis⟩ := axis_ofCode_mod (seed + u64 Cube.perfectBodyDiagonals[7])
  simp only [makeInitialState, haxis]
  exact ⟨_, rfl, rfl, masked_lt _, masked_lt _, masked_lt _⟩

/-- The four coordinates probed do not depend on the cube. -/
theorem reads_readProbes_coords (s : WorkingState) (injected : ControllerState) (domain : Domain)
    (phase : U8) : ∃ c0 c1 c2 c3 : Coord,
      (∀ cube : Cube, Reads (readProbes { s with cube := cube } injected domain phase)
        ⟨c0, c1, c2, c3, cube.cell c0.pos, cube.cell c1.pos, cube.cell c2.pos,
          cube.cell c3.pos⟩) ∧
      c0.InRange ∧ c1.InRange ∧ c2.InRange ∧ c3.InRange := by
  have hcoord := coordFromWords_inRange s.cursor
  refine ⟨coordFromWords s.cursor injected.axisControl injected.feedback injected.transcript
      phase (domainCode domain) 0,
    coordFromWords s.cursor (rotl16 injected.axisControl 7) (rotl32 injected.feedback 11)
      (rotl64 injected.transcript 19) phase (domainCode domain) 3,
    coordFromWords s.cursor injected.amountControl (rotl32 injected.feedback 17)
      (rotl64 injected.transcript 29) phase (domainCode domain) 5,
    coordFromWords s.cursor (rotl16 injected.amountControl 9) (rotl32 injected.feedback 23)
      (rotl64 injected.transcript 41) phase (domainCode domain) 7, fun cube => ?_, ?_⟩
  · exact (reads_unchecked cube (hcoord _ _ _ _ _ _)).bind
      ((reads_unchecked cube (hcoord _ _ _ _ _ _)).bind
      ((reads_unchecked cube (hcoord _ _ _ _ _ _)).bind
      ((reads_unchecked cube (hcoord _ _ _ _ _ _)).bind (Reads.pure _))))
  · exact ⟨hcoord _ _ _ _ _ _, hcoord _ _ _ _ _ _, hcoord _ _ _ _ _ _, hcoord _ _ _ _ _ _⟩

/-- The four probes are read in range, and the same from every cube that agrees at
their coordinates. -/
theorem reads_readProbes (s : WorkingState) (injected : ControllerState) (domain : Domain)
    (phase : U8) : ∃ probes, (∀ c ∈ probes.coords, c.InRange) ∧
      ∀ cube : Cube, (∀ c ∈ probes.coords, cube.cell c.pos = s.cube.cell c.pos) →
        Reads (readProbes { s with cube := cube } injected domain phase) probes := by
  obtain ⟨c0, c1, c2, c3, hreads, h0, h1, h2, h3⟩ :=
    reads_readProbes_coords s injected domain phase
  refine ⟨⟨c0, c1, c2, c3, s.cube.cell c0.pos, s.cube.cell c1.pos, s.cube.cell c2.pos,
    s.cube.cell c3.pos⟩, ?_, ?_⟩
  · simp only [ProbeSet.coords, List.forall_mem_cons, List.not_mem_nil, false_implies,
      implies_true, and_true]
    exact ⟨h0, h1, h2, h3⟩
  · intro cube hcells
    simp only [ProbeSet.coords, List.forall_mem_cons, List.not_mem_nil, false_implies,
      implies_true, and_true] at hcells
    obtain ⟨e0, e1, e2, e3⟩ := hcells
    have hcube := hreads cube
    rw [e0, e1, e2, e3] at hcube
    exact hcube

/-- The slot is below 7 on both branches. -/
theorem amountSlot_lt (injected : ControllerState) (word : U16) (probes : ProbeSet) (axis : Axis)
    (phase : U8) : amountSlot injected word probes axis phase < 7 := by
  simp only [amountSlot]
  split
  · next hslot =>
    rw [BitVec.lt_def, BitVec.toNat_setWidth, BitVec.toNat_umod]
    exact lt_of_le_of_lt (Nat.mod_le _ _) (Nat.mod_lt _ (by decide))
  · next hslot =>
    have hmask := masked_lt (word
      ^^^ rotl16 injected.amountControl (probes.amountProbe0 &&& 15).toNat ^^^ (u16 probes.amountProbe1 * 257)
      ^^^ u16 (injected.feedback >>> ((phase &&& 1).toNat * 16)))
    rw [BitVec.lt_def] at hmask ⊢
    have hne := BitVec.toNat_ne.mp hslot
    show _ < 7
    change _ < 8 at hmask
    change _ ≠ 7 at hne
    omega

theorem chooseOtherAxis_ne (previous : Axis) (second : Bool) :
    chooseOtherAxis previous second ≠ previous := by
  cases previous <;> cases second <;> decide

/-- **The decision of a move**, whatever the probes hold. -/
theorem decideMove_ok (s : WorkingState) (injected : ControllerState) (probes : ProbeSet)
    (domain : Domain) (phase : U8) : ∃ d, decideMove s injected probes domain phase = .ok d ∧
      d.Ok ∧ d.probes = probes ∧ d.axis ≠ s.previousAxis := by
  suffices h : ∀ x, decideMove s injected probes domain phase = x →
      ∃ d, x = .ok d ∧ d.Ok ∧ d.probes = probes ∧ d.axis ≠ s.previousAxis from h _ rfl
  intro x hx
  unfold decideMove at hx
  extract_lets dc axisPack axisWord axisData axisBitIndex controlBitIndex selectorBit axis
    amountPack amountWord permSeed slot at hx
  obtain ⟨perm, hperm, hvalues⟩ := amountPermutation_perm permSeed
  have hslot : slot < 7 := amountSlot_lt _ _ _ _ _
  have hlt : slot.toNat < 7 := hslot
  rw [hperm] at hx
  change Except.bind (arrayAt perm slot.toNat) _ = x at hx
  rw [arrayAt_of_lt _ hlt] at hx
  subst hx
  exact ⟨_, rfl, ⟨hslot, hvalues, amountOk_of_perm hvalues hlt⟩, rfl, chooseOtherAxis_ne _ _⟩

/-- Only the probes and the line of the cursor are read of the cube: injection looks at
the other fields. -/
theorem injectSymbol_withCube (s : WorkingState) (cube : Cube) (symbol : U8) (domain : Domain) :
    injectSymbol { s with cube := cube } symbol domain = injectSymbol s symbol domain := by
  unfold injectSymbol
  rfl

theorem decideMove_withCube (s : WorkingState) (cube : Cube) (injected : ControllerState)
    (probes : ProbeSet) (domain : Domain) (phase : U8) :
    decideMove { s with cube := cube } injected probes domain phase
      = decideMove s injected probes domain phase := by
  unfold decideMove
  rfl

/-- **The preview of a move**: a well-formed decision for another axis than the
previous one, the same from every cube that agrees at the probes. -/
theorem previewMove_ok (s : WorkingState) (symbol : U8) (domain : Domain) (phase : U8) :
    ∃ d, Reads (previewMove s symbol domain phase) d ∧ d.Ok ∧
      (∀ c ∈ d.probes.coords, c.InRange) ∧ d.axis ≠ s.previousAxis ∧
      ∀ cube : Cube, (∀ c ∈ d.probes.coords, cube.cell c.pos = s.cube.cell c.pos) →
        Reads (previewMove { s with cube := cube } symbol domain phase) d := by
  obtain ⟨probes, hprobes, hreads⟩ :=
    reads_readProbes s (injectSymbol s symbol domain) domain phase
  obtain ⟨d, hdecide, hd, rfl, haxis⟩ :=
    decideMove_ok s (injectSymbol s symbol domain) probes domain phase
  have hlocal : ∀ cube : Cube, (∀ c ∈ d.probes.coords, cube.cell c.pos = s.cube.cell c.pos) →
      Reads (previewMove { s with cube := cube } symbol domain phase) d := by
    intro cube hcells
    unfold previewMove
    rw [injectSymbol_withCube]
    refine (hreads cube hcells).bind (Reads.lift ?_)
    rw [decideMove_withCube]
    exact hdecide
  exact ⟨d, hlocal s.cube fun _ _ => rfl, hd, hprobes, haxis, hlocal⟩

theorem engineA2_sound : engineA2.Sound MoveDecision.Ok where
  initial := makeInitialState_eq
  preview s symbol domain phase := by
    obtain ⟨d, hreads, hd, hprobes, -⟩ := previewMove_ok s symbol domain phase
    exact ⟨d, hreads, hd, hprobes⟩

/-! ## Prototype B -/

theorem makeInitialStateB_eq (seed : U64) :
    ∃ s, makeInitialStateB seed = .ok s ∧ s.cube = Cube.perfect ∧ s.cursor.InRange := by
  obtain ⟨axis, haxis⟩ := axis_ofCode_mod (seed + u64 (Cube.perfectBodyDiagonals.get 19))
  simp only [makeInitialStateB, haxis]
  exact ⟨_, rfl, rfl, masked_lt _, masked_lt _, masked_lt _⟩

theorem reads_readProbesB (s : WorkingStateB) (injected : ControllerStateB) (domain : Domain)
    (phase : U8) : ∃ probes, Reads (readProbesB s injected domain phase) probes ∧
      ∀ c ∈ probes.coords, c.InRange := by
  have hcoord := coordinateB_inRange s.cursor
  refine ⟨_, (reads_unchecked s.cube (hcoord _ _ _ _ _ _)).bind
    ((reads_unchecked s.cube (hcoord _ _ _ _ _ _)).bind
    ((reads_unchecked s.cube (hcoord _ _ _ _ _ _)).bind
    ((reads_unchecked s.cube (hcoord _ _ _ _ _ _)).bind (Reads.pure _)))), ?_⟩
  simp only [ProbeSet.coords, List.forall_mem_cons, List.not_mem_nil, false_implies, implies_true,
    and_true]
  exact ⟨hcoord _ _ _ _ _ _, hcoord _ _ _ _ _ _, hcoord _ _ _ _ _ _, hcoord _ _ _ _ _ _⟩

/-- One pass of the candidate loop leaves a candidate in the lead. -/
theorem reads_contestAmount (s : WorkingStateB) (injected : ControllerStateB) (probes : ProbeSet)
    (axis : Axis) (domain : Domain) (phase : U8) {c : AmountContest} (hc : AmountOk c.selected)
    (slot : Fin 7) : ∃ c', Reads (contestAmount s injected probes axis domain phase c slot) c' ∧
      AmountOk c'.selected := by
  refine ⟨_, (reads_unchecked s.cube (candidateCoord_inRange _ _ _ _ _)).bind (Reads.pure _), ?_⟩
  have hslot : ∀ slot : Fin 7, AmountOk (BitVec.ofNat 8 (slot.val + 1)) := by decide
  split
  · exact hslot slot
  · exact hc

/-- The candidate loop leaves a candidate in the lead. -/
theorem reads_contest (s : WorkingStateB) (injected : ControllerStateB) (probes : ProbeSet)
    (axis : Axis) (domain : Domain) (phase : U8) (l : List (Fin 7)) {c : AmountContest}
    (hc : AmountOk c.selected) :
    ∃ c', Reads (l.foldlM (contestAmount s injected probes axis domain phase) c) c' ∧
      AmountOk c'.selected := by
  induction l generalizing c with
  | nil => exact ⟨c, Reads.pure c, hc⟩
  | cons slot l ih =>
    obtain ⟨c₁, hreads, hc₁⟩ := reads_contestAmount s injected probes axis domain phase hc slot
    obtain ⟨c₂, hreads', hc₂⟩ := ih hc₁
    exact ⟨c₂, hreads.bind hreads', hc₂⟩

theorem engineB_sound : engineB.Sound MoveDecisionB.Ok where
  initial := makeInitialStateB_eq
  preview s symbol domain phase := by
    obtain ⟨probes, hreads, hprobes⟩ :=
      reads_readProbesB s (injectSymbolB s symbol domain) domain phase
    obtain ⟨c, hcontest, hc⟩ := reads_contest s (injectSymbolB s symbol domain) probes _ domain
      phase (List.finRange 7)
      (show AmountOk (AmountContest.mk (Vector.replicate 7 0) (Vector.replicate 7 0)
        (BitVec.allOnes 32) 1).selected by decide)
    exact ⟨_, hreads.bind (hcontest.bind (Reads.pure _)), hc, hprobes⟩

/-! ## Symbols and output bytes -/

/-- What the transcript return relies on: its symbols read in range. -/
structure ReturnRules.Sound {C : Type} (rules : ReturnRules C) : Prop where
  initSymbol : ∀ snapshot length index, ∃ a, Reads (rules.initSymbol snapshot length index) a
  returnSymbol : ∀ snapshot current byte length index,
    ∃ a, Reads (rules.returnSymbol snapshot current byte length index) a
  sealSymbol : ∀ snapshot current length index,
    ∃ a, Reads (rules.sealSymbol snapshot current length index) a

theorem returnRulesA2_sound : returnRulesA2.Sound where
  initSymbol _ _ _ :=
    ⟨_, (reads_unchecked _ (coordFromSelector_inRange _ _ _)).bind
      ((reads_unchecked _ (coordFromSelector_inRange _ _ _)).bind (Reads.pure _))⟩
  returnSymbol _ _ _ _ _ :=
    ⟨_, (reads_unchecked _ (coordFromSelector_inRange _ _ _)).bind (Reads.pure _)⟩
  sealSymbol _ _ _ _ :=
    ⟨_, (reads_unchecked _ (coordFromSelector_inRange _ _ _)).bind (Reads.pure _)⟩

theorem returnRulesB_sound : returnRulesB.Sound where
  initSymbol _ _ _ :=
    ⟨_, (reads_unchecked _ (coordFromSelector_inRange _ _ _)).bind
      ((reads_unchecked _ (coordFromSelector_inRange _ _ _)).bind (Reads.pure _))⟩
  returnSymbol _ _ _ _ _ :=
    ⟨_, (reads_unchecked _ (coordFromSelector_inRange _ _ _)).bind (Reads.pure _)⟩
  sealSymbol _ _ _ _ :=
    ⟨_, (reads_unchecked _ (coordFromSelector_inRange _ _ _)).bind (Reads.pure _)⟩

/-- What the squeeze relies on: its output bytes read in range. -/
def OutputRules.Sound {C : Type} (rules : OutputRules C) : Prop :=
  ∀ s round, ∃ a, Reads (rules.outputByte s round) a

theorem outputRulesA2_sound : outputRulesA2.Sound := fun _ _ =>
  ⟨_, (reads_unchecked _ (outputCoord_inRange _ _ _)).bind
    ((reads_unchecked _ (outputCoord_inRange _ _ _)).bind
    ((reads_unchecked _ (outputCoord_inRange _ _ _)).bind (Reads.pure _)))⟩

theorem outputRulesB_sound : outputRulesB.Sound := fun _ _ =>
  ⟨_, (reads_unchecked _ (outputCoord_inRange _ _ _)).bind
    ((reads_unchecked _ (outputCoord_inRange _ _ _)).bind
    ((reads_unchecked _ (outputCoord_inRange _ _ _)).bind (Reads.pure _)))⟩
