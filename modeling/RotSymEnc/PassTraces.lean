/-
# The traces of the passes

What the moves of a pass are made of is fixed before the pass starts.  `Engine.Walks` is the
statement that a run makes moves with given notes of their inputs, whatever the state is; the
symbol counters, the domains and the phases of a transcript return are such notes, and they
follow from its profile and the length of the message.
-/
import RotSymEnc.MoveTraces

open StatefulRuns

variable {C D : Type}

/-! ## Walks -/

/-- A run that, from every state with its cursor in range, makes moves with the given notes of
their inputs and counts the given number of symbols; with and without a trace vector. -/
def Engine.Walks {β : Type} (engine : Engine C D) (note : MoveInput → β)
    (x : Bool → C1Run C D PUnit) (notes : U64 → List β) (symbols : ℕ) : Prop :=
  ∀ w : WorkingStateOf C, w.cursor.InRange → ∃ events w', engine.Steps w events w' ∧
    (movesOf events).map (fun move => note move.input) = notes w.symbolIndex ∧
    w'.symbolIndex = w.symbolIndex + BitVec.ofNat 64 symbols ∧
    ∀ trace, Does (x trace) w () (historyOf trace events) w'

/-- The notes of a loop: those of its passes, each of which counts the same number of symbols. -/
def loopNotes {κ β : Type} (symbols : ℕ) (notes : κ → U64 → List β) : List κ → U64 → List β
  | [], _ => []
  | a :: l, index =>
    notes a index ++ loopNotes symbols notes l (index + BitVec.ofNat 64 symbols)

namespace Engine.Walks

variable {β α : Type} {engine : Engine C D} {note : MoveInput → β}
  {x y : Bool → C1Run C D PUnit} {notes notes' : U64 → List β} {symbols symbols' : ℕ}

/-- One walk after the other. -/
theorem bind (hx : engine.Walks note x notes symbols) (hy : engine.Walks note y notes' symbols') :
    engine.Walks note (fun trace => x trace >>= fun _ => y trace)
      (fun index => notes index ++ notes' (index + BitVec.ofNat 64 symbols))
      (symbols + symbols') := by
  intro w hw
  obtain ⟨events, w₁, hsteps, hnotes, hindex, hdoes⟩ := hx w hw
  obtain ⟨events', w₂, hsteps', hnotes', hindex', hdoes'⟩ := hy w₁ (hsteps.cursor_inRange hw)
  refine ⟨events ++ events', w₂, hsteps.trans hsteps', ?_, ?_, fun trace => ?_⟩
  · rw [movesOf_append, List.map_append, hnotes, hnotes', hindex]
  · rw [hindex', hindex, BitVec.add_assoc, ← BitVec.ofNat_add]
  · rw [historyOf_append]
    exact (hdoes trace).bind (hdoes' trace)

/-- A walk that makes no moves. -/
theorem of_does (hx : ∀ w : WorkingStateOf C, w.cursor.InRange → ∃ events w',
    engine.Steps w events w' ∧ movesOf events = [] ∧ w'.symbolIndex = w.symbolIndex ∧
      ∀ trace, Does (x trace) w () (historyOf trace events) w') :
    engine.Walks note x (fun _ => []) 0 := by
  intro w hw
  obtain ⟨events, w', hsteps, hmoves, hindex, hdoes⟩ := hx w hw
  refine ⟨events, w', hsteps, by rw [hmoves]; rfl, ?_, hdoes⟩
  rw [hindex]
  exact (BitVec.add_zero _).symm

theorem enterDomain (domain : Domain) (sequenceLength : U64) :
    engine.Walks note (fun _ => engine.enterDomain domain sequenceLength) (fun _ => []) 0 := by
  refine of_does fun w hw => ?_
  obtain ⟨diagonals, hreads⟩ := exists_reads_bodyDiagonals w.cube
  refine ⟨[.entered _], _, Engine.Steps.entered w.symbolIndex
    (engine.entered w.controller diagonals domain sequenceLength) (.nil _ w.symbolIndex), rfl, rfl,
    fun trace => ?_⟩
  cases trace <;> exact does_enterDomain engine domain sequenceLength hreads

theorem lift {v : Except Fault PUnit} (hv : v = .ok ()) :
    engine.Walks note (fun _ => lift v) (fun _ => []) 0 := by
  refine of_does fun w _ => ⟨[], w, Engine.Steps.nil w w.symbolIndex, rfl, rfl, fun trace => ?_⟩
  rw [historyOf_nil]
  exact does_lift hv

/-- A walk that starts with a look at the working state. -/
theorem working {f : WorkingStateOf C → Bool → C1Run C D PUnit}
    (hf : ∀ s, engine.Walks note (f s) notes symbols) :
    engine.Walks note (fun trace => C1Run.working >>= fun s => f s trace) notes symbols := by
  intro w hw
  obtain ⟨events, w', hsteps, hnotes, hindex, hdoes⟩ := hf w w hw
  exact ⟨events, w', hsteps, hnotes, hindex, fun trace => does_working.bind_silent (hdoes trace)⟩

/-- A walk that starts with a call that reads in range. -/
theorem reading {r : AccessRun α} (hr : ∃ a, Reads r a) {f : α → Bool → C1Run C D PUnit}
    (hf : ∀ a, engine.Walks note (f a) notes symbols) :
    engine.Walks note (fun trace => C1Run.reading r >>= fun a => f a trace) notes symbols := by
  intro w hw
  obtain ⟨a, hr⟩ := hr
  obtain ⟨events, w', hsteps, hnotes, hindex, hdoes⟩ := hf a w hw
  exact ⟨events, w', hsteps, hnotes, hindex,
    fun trace => (does_reading hr).bind_silent (hdoes trace)⟩

/-- A loop of walks. -/
theorem forM {κ : Type} (l : List κ) {f : κ → Bool → C1Run C D PUnit}
    {notes : κ → U64 → List β} (hf : ∀ a, engine.Walks note (f a) (notes a) symbols) :
    engine.Walks note (fun trace => forM l fun a => f a trace) (loopNotes symbols notes l)
      (l.length * symbols) := by
  induction l with
  | nil =>
    rw [List.length_nil, Nat.zero_mul]
    refine of_does fun w _ => ⟨[], w, Engine.Steps.nil w w.symbolIndex, rfl, rfl, fun trace => ?_⟩
    rw [historyOf_nil]
    exact Does.pure ()
  | cons a l ih =>
    rw [List.length_cons, Nat.succ_mul, Nat.add_comm]
    exact (hf a).bind ih

variable {DecisionOk : D → Prop}

/-- A symbol walks through its phases. -/
theorem absorbSymbol (hengine : engine.Sound DecisionOk) (symbol : U8) (domain : Domain)
    {moves : ℕ} (hmoves : CountOk moves) :
    engine.Walks note (fun trace => engine.absorbSymbol symbol domain moves trace)
      (fun index => (symbolInputs index symbol domain moves).map note) 1 := by
  intro w hw
  obtain ⟨steps, w', hsteps, hindex, hinputs, hdoes⟩ :=
    does_absorbSymbol hengine symbol domain hmoves hw
  refine ⟨performed steps, w', hsteps, ?_, hindex, hdoes⟩
  show _ = (symbolInputs w.symbolIndex symbol domain moves).map note
  rw [movesOf_performed, List.map_map, ← hinputs, List.map_map]
  rfl

/-- The same walk with its notes and its count written differently. -/
theorem congr (hx : engine.Walks note x notes symbols)
    (hnotes : ∀ index, notes index = notes' index) (hsymbols : symbols = symbols') :
    engine.Walks note x notes' symbols' := by
  rwa [← funext hnotes, ← hsymbols]

end Engine.Walks

/-! ## The slots of a transcript return -/

/-- What a pass fixes of a move beforehand: the symbol counter, the domain and the phase. -/
structure MoveSlot : Type where
  symbolIndex : U64
  domain : Domain
  phase : U8
  deriving DecidableEq

/-- The slot of a move. -/
def MoveInput.slot (input : MoveInput) : MoveSlot := ⟨input.symbolIndex, input.domain, input.phase⟩

/-- The slots of some symbols: the phases of each from 0 on, the counter counting on. -/
def passSlots (domain : Domain) (moves : ℕ) : ℕ → U64 → List MoveSlot
  | 0, _ => []
  | symbols + 1, index =>
    (List.range moves).map (fun phase => ⟨index, domain, BitVec.ofNat 8 phase⟩)
      ++ passSlots domain moves symbols (index + 1)

/-- The slots of a transcript return, from the symbol counter it starts with. -/
def returnSlots (profile : ReturnProfile) (messageLength : ℕ) (index : U64) : List MoveSlot :=
  passSlots .returnInit profile.initMoves profile.initSymbols index
    ++ (passSlots .inputReturn profile.messageMoves messageLength
        (index + BitVec.ofNat 64 profile.initSymbols)
      ++ passSlots .returnSeal profile.sealMoves profile.sealSymbols
        (index + BitVec.ofNat 64 profile.initSymbols + BitVec.ofNat 64 messageLength))

/-- A loop over symbols has the slots of its domain. -/
theorem loopNotes_eq_passSlots {κ : Type} (domain : Domain) (moves : ℕ) (l : List κ)
    (index : U64) :
    loopNotes 1 (fun _ index => (List.range moves).map fun phase =>
      (⟨index, domain, BitVec.ofNat 8 phase⟩ : MoveSlot)) l index
      = passSlots domain moves l.length index := by
  induction l generalizing index with
  | nil => rfl
  | cons a l ih => exact congrArg (_ ++ ·) (ih (index + 1))

section Return

variable {engine : Engine C D} {DecisionOk : D → Prop}

/-- A symbol that is read from the state has the slots of its phases. -/
theorem walks_slots (hengine : engine.Sound DecisionOk) (symbol : U8) (domain : Domain)
    {moves : ℕ} (hmoves : CountOk moves) :
    engine.Walks MoveInput.slot (fun trace => engine.absorbSymbol symbol domain moves trace)
      (fun index => (List.range moves).map fun phase => ⟨index, domain, BitVec.ofNat 8 phase⟩)
      1 := by
  refine (Engine.Walks.absorbSymbol hengine symbol domain hmoves).congr (fun index => ?_) rfl
  rw [symbolInputs, List.map_map]
  rfl

/-- **The transcript return** walks through its slots. -/
theorem walks_transcriptReturn (hengine : engine.Sound DecisionOk) {rules : ReturnRules C}
    (hrules : rules.Sound) (message : List U8) {profile : ReturnProfile}
    (hprofile : profile.Valid) :
    engine.Walks MoveInput.slot
      (fun trace => engine.transcriptReturn rules message profile trace)
      (returnSlots profile message.length)
      (profile.initSymbols + message.length + profile.sealSymbols) := by
  have hvalid : validateReturnProfile profile = .ok () := if_pos hprofile
  obtain ⟨-, hinit, hmessage, -, hseal⟩ := hprofile
  unfold Engine.transcriptReturn
  -- three loops over symbols, each behind the entry of its domain
  refine Engine.Walks.congr ((Engine.Walks.lift hvalid).bind
    (Engine.Walks.working fun snapshot => (Engine.Walks.enterDomain _ _).bind
      ((Engine.Walks.forM (List.range profile.initSymbols) fun i =>
        Engine.Walks.reading (hrules.initSymbol _ _ _) fun symbol =>
          walks_slots hengine symbol .returnInit hinit).bind
      ((Engine.Walks.enterDomain _ _).bind
      ((Engine.Walks.forM (List.finRange message.length) fun i =>
        Engine.Walks.working fun current =>
        Engine.Walks.reading (hrules.returnSymbol _ _ _ _ _) fun symbol =>
          walks_slots hengine symbol .inputReturn hmessage).bind
      (Engine.Walks.working fun current => (Engine.Walks.enterDomain _ _).bind
      (Engine.Walks.forM (List.range profile.sealSymbols) fun i =>
        Engine.Walks.working fun current =>
        Engine.Walks.reading (hrules.sealSymbol _ _ _ _) fun symbol =>
          walks_slots hengine symbol .returnSeal hseal))))))) (fun index => ?_) ?_
  · simp only [loopNotes_eq_passSlots, List.length_range, List.length_finRange, returnSlots,
      List.nil_append, mul_one, BitVec.add_zero]
  · simp only [List.length_range, List.length_finRange]
    omega

end Return
