/-
# The key in the trace of its schedule

`make_keyed_state` absorbs 120 symbols that follow from the key alone: a header, two symbols for
each key byte, 32 return symbols and 16 seal symbols.  The trace records them in the order of
the three passes.  Every key byte enters all three passes: a change of one byte changes exactly
the symbols that read it, and at least one in each pass.
-/
import RotSymEnc.PassTraces
import RotSymEnc.SymbolInjection

open ReversibleWords StatefulRuns

/-! ## The symbols of a key -/

/-- The symbol of a key byte itself, in the forward pass. -/
def keyMixSymbol (key : ResearchKey256) (index : Fin 32) : U8 :=
  key.get index ^^^ positionMask index 0xA5

/-- The symbols of the forward pass: the header, and two symbols for each key byte. -/
def keyForwardSymbols (key : ResearchKey256) : List U8 :=
  keyHeader ++ (List.finRange 32).flatMap fun i => [keyMixSymbol key i, forwardCrossSymbol key i]

/-- The moves of the key schedule. -/
def keyInputs (key : ResearchKey256) (profile : KeyScheduleProfile) (index : U64) :
    List MoveInput :=
  sequenceInputs .keyForward profile.forwardMoves index (keyForwardSymbols key)
    ++ (sequenceInputs .keyReturn profile.returnMoves (index + 72)
        ((List.finRange 32).map (keyReturnSymbol key))
      ++ sequenceInputs .keySeal profile.sealMoves (index + 104)
        ((List.finRange 16).map (keySealSymbol key)))

theorem sequenceInputs_append (domain : Domain) (moves : ℕ) (symbols symbols' : List U8)
    (index : U64) :
    sequenceInputs domain moves index (symbols ++ symbols')
      = sequenceInputs domain moves index symbols
        ++ sequenceInputs domain moves (index + BitVec.ofNat 64 symbols.length) symbols' := by
  induction symbols generalizing index with
  | nil => exact congrArg (sequenceInputs domain moves · symbols') (BitVec.add_zero _).symm
  | cons symbol symbols ih =>
    rw [List.cons_append, sequenceInputs, sequenceInputs, ih, List.append_assoc, List.length_cons,
      BitVec.add_assoc, BitVec.ofNat_add, BitVec.add_comm (BitVec.ofNat 64 symbols.length)]
    rfl

/-- A loop over sequences absorbs them one after the other. -/
theorem loopNotes_sequences {κ : Type} (domain : Domain) (moves symbols : ℕ)
    (f : κ → List U8) (hf : ∀ a, (f a).length = symbols) (l : List κ) (index : U64) :
    loopNotes symbols (fun a index => sequenceInputs domain moves index (f a)) l index
      = sequenceInputs domain moves index (l.flatMap f) := by
  induction l generalizing index with
  | nil => rfl
  | cons a l ih =>
    rw [List.flatMap_cons, sequenceInputs_append, hf, ← ih]
    rfl

/-- A loop over symbols absorbs them one after the other. -/
theorem loopNotes_symbols {κ : Type} (domain : Domain) (moves : ℕ) (f : κ → U8) (l : List κ)
    (index : U64) :
    loopNotes 1 (fun a index => (symbolInputs index (f a) domain moves).map id) l index
      = sequenceInputs domain moves index (l.map f) := by
  induction l generalizing index with
  | nil => rfl
  | cons a l ih =>
    rw [loopNotes, List.map_id, ih]
    rfl

section Schedule

variable {C D : Type} {engine : Engine C D} {DecisionOk : D → Prop}

/-- A sequence walks through its symbols. -/
theorem walks_absorbSequence (hengine : engine.Sound DecisionOk) (symbols : List U8)
    (domain : Domain) {moves : ℕ} (hmoves : CountOk moves) :
    engine.Walks id (fun trace => engine.absorbSequence symbols domain moves trace)
      (fun index => sequenceInputs domain moves index symbols) symbols.length := by
  intro w hw
  obtain ⟨steps, w', hsteps, hindex, hinputs, hdoes⟩ :=
    does_absorbSequence hengine symbols domain hmoves hw
  refine ⟨performed steps, w', hsteps, ?_, hindex, hdoes⟩
  show _ = sequenceInputs domain moves w.symbolIndex symbols
  rw [movesOf_performed, List.map_map, ← hinputs]
  rfl

/-- A loop over symbols of the key walks through them. -/
theorem walks_keySymbols (hengine : engine.Sound DecisionOk) {n : ℕ} (symbol : Fin n → U8)
    (domain : Domain) {moves : ℕ} (hmoves : CountOk moves) :
    engine.Walks id
      (fun trace => forM (List.finRange n) fun i =>
        engine.absorbSymbol (symbol i) domain moves trace)
      (fun index => sequenceInputs domain moves index ((List.finRange n).map symbol)) n := by
  refine (Engine.Walks.forM (List.finRange n) fun i =>
    Engine.Walks.absorbSymbol hengine (symbol i) domain hmoves).congr (fun index => ?_) ?_
  · exact loopNotes_symbols domain moves symbol _ index
  · rw [List.length_finRange, Nat.mul_one]

/-- The key schedule before it resets the symbol counter. -/
def Engine.absorbKeySymbols (engine : Engine C D) (key : ResearchKey256)
    (profile : KeyScheduleProfile) (trace : Bool) : C1Run C D PUnit := do
  engine.enterDomain .keyForward 32
  engine.absorbSequence keyHeader .keyForward profile.forwardMoves trace
  forM (List.finRange 32) fun (i : Fin 32) => engine.absorbSequence
    [keyMixSymbol key i, forwardCrossSymbol key i] .keyForward profile.forwardMoves trace
  engine.enterDomain .keyReturn 32
  forM (List.finRange 32) fun (i : Fin 32) =>
    engine.absorbSymbol (keyReturnSymbol key i) .keyReturn profile.returnMoves trace
  engine.enterDomain .keySeal 256
  forM (List.finRange 16) fun (i : Fin 16) =>
    engine.absorbSymbol (keySealSymbol key i) .keySeal profile.sealMoves trace

theorem Engine.absorbKey_eq (engine : Engine C D) (key : ResearchKey256)
    (profile : KeyScheduleProfile) (trace : Bool) :
    engine.absorbKey key profile trace = (do
      engine.absorbKeySymbols key profile trace
      C1Run.modifyWorking fun s => { s with symbolIndex := 0 }) := by
  unfold Engine.absorbKey Engine.absorbKeySymbols keyMixSymbol
  simp only [bind_assoc]

/-- **The symbols of the key** are walked through, pass after pass. -/
theorem walks_absorbKeySymbols (hengine : engine.Sound DecisionOk) (key : ResearchKey256)
    {profile : KeyScheduleProfile} (hprofile : profile.Valid) :
    engine.Walks id (fun trace => engine.absorbKeySymbols key profile trace)
      (keyInputs key profile) 120 := by
  obtain ⟨hforward, hreturn, hseal⟩ := hprofile
  have hmix : ∀ i : Fin 32, engine.Walks id
      (fun trace => engine.absorbSequence [keyMixSymbol key i, forwardCrossSymbol key i]
        .keyForward profile.forwardMoves trace)
      (fun index => sequenceInputs .keyForward profile.forwardMoves index
        [keyMixSymbol key i, forwardCrossSymbol key i]) 2 :=
    fun i => walks_absorbSequence hengine _ _ hforward
  -- the header and the pairs, the return symbols, the seal symbols
  refine Engine.Walks.congr ((Engine.Walks.enterDomain _ _).bind
    ((walks_absorbSequence hengine keyHeader .keyForward hforward).bind
    ((Engine.Walks.forM (List.finRange 32) hmix).bind
    ((Engine.Walks.enterDomain _ _).bind
    ((walks_keySymbols hengine (keyReturnSymbol key) .keyReturn hreturn).bind
    ((Engine.Walks.enterDomain _ _).bind
      (walks_keySymbols hengine (keySealSymbol key) .keySeal hseal)))))))
    (fun index => ?_) ?_
  · have hloop := loopNotes_sequences .keyForward profile.forwardMoves 2
      (fun i : Fin 32 => [keyMixSymbol key i, forwardCrossSymbol key i]) (fun _ => rfl)
    have h72 : index + BitVec.ofNat 64 keyHeader.length + BitVec.ofNat 64 (32 * 2) = index + 72 :=
      BitVec.add_assoc ..
    have h104 : index + 72 + 32 = index + 104 := BitVec.add_assoc ..
    simp only [hloop, List.nil_append, List.length_finRange, BitVec.add_zero, h72]
    unfold keyInputs keyForwardSymbols
    rw [sequenceInputs_append, List.append_assoc, ← h104]
    rfl
  · rfl

/-- The trace of `make_keyed_state`. -/
theorem makeKeyedState_trace (hengine : engine.Sound DecisionOk) {s₀ : WorkingStateOf C}
    (hs₀ : engine.initial kPublicBootstrapSeed = .ok s₀) (hcursor : s₀.cursor.InRange)
    (key : ResearchKey256) {profile : KeyScheduleProfile} (hprofile : profile.Valid)
    (m : Machine C D) :
    ∃ m' moves, (engine.makeKeyedState key profile true).run m = .ok () m' ∧
      m'.trace = m.trace ++ moves ∧
      moves.map MoveTraceOf.input = keyInputs key profile s₀.symbolIndex := by
  obtain ⟨events, w', -, hinputs, -, hdoes⟩ :=
    walks_absorbKeySymbols hengine key hprofile s₀ hcursor
  have hkey : Does (engine.absorbKey key profile true) s₀ () (historyOf true events)
      { w' with symbolIndex := 0 } := by
    rw [engine.absorbKey_eq, ← History.append_empty (historyOf true events)]
    exact (hdoes true).bind (does_modifyWorking _)
  -- the schedule starts from the initial state, with an empty record
  obtain ⟨accesses, -, hrun⟩ := hkey (m.extended s₀ [] ⟨[], [s₀], []⟩) rfl
  refine ⟨_, movesOf events, (makeKeyedState_run hs₀ key hprofile true m).trans hrun, ?_, hinputs⟩
  show m.trace ++ [] ++ movesOf events = _
  rw [List.append_nil]

end Schedule

/-- The initial states count no symbols. -/
theorem makeInitialState_start (seed : U64) :
    ∃ s, makeInitialState seed = .ok s ∧ s.cursor.InRange ∧ s.symbolIndex = 0 := by
  obtain ⟨axis, haxis⟩ := axis_ofCode_mod (seed + u64 Cube.perfectBodyDiagonals[7])
  simp only [makeInitialState, haxis]
  exact ⟨_, rfl, ⟨masked_lt _, masked_lt _, masked_lt _⟩, rfl⟩

theorem makeInitialStateB_start (seed : U64) :
    ∃ s, makeInitialStateB seed = .ok s ∧ s.cursor.InRange ∧ s.symbolIndex = 0 := by
  obtain ⟨axis, haxis⟩ := axis_ofCode_mod (seed + u64 (Cube.perfectBodyDiagonals.get 19))
  simp only [makeInitialStateB, haxis]
  exact ⟨_, rfl, ⟨masked_lt _, masked_lt _, masked_lt _⟩, rfl⟩

/-! ## What a key byte changes -/

/-- Two keys that differ in one byte. -/
structure KeysDifferAt (j : Fin 32) (key key' : ResearchKey256) : Prop where
  ne : key.get j ≠ key'.get j
  same : ∀ i, i ≠ j → key.get i = key'.get i

/-- A value that reads the key at different positions, and loses nothing in any of them, changes
with a key byte exactly if it reads it. -/
theorem changed_iff {j : Fin 32} {key key' : ResearchKey256} (hkey : KeysDifferAt j key key')
    {n : ℕ} {f : (Fin n → U8) → U8}
    (hf : ∀ v i, Function.Injective fun a => f (Function.update v i a)) {p : Fin n → Fin 32}
    (hp : Function.Injective p) :
    f (fun i => key.get (p i)) ≠ f (fun i => key'.get (p i)) ↔ ∃ i, p i = j := by
  constructor
  · intro hne
    by_contra hnone
    apply hne
    congr 1
    funext i
    exact hkey.same (p i) fun h => hnone ⟨i, h⟩
  · rintro ⟨i, rfl⟩ heq
    -- the other key is this one with the byte that is read at `i` replaced
    have hupdate : (fun i => key'.get (p i))
        = Function.update (fun i => key.get (p i)) i (key'.get (p i)) := by
      funext k
      by_cases hk : k = i
      · rw [hk, Function.update_self]
      · rw [Function.update_of_ne hk]
        exact (hkey.same (p k) fun h => hk (hp h)).symm
    have hself : (fun i => key.get (p i))
        = Function.update (fun i => key.get (p i)) i (key.get (p i)) :=
      (Function.update_eq_self i _).symm
    rw [hupdate] at heq
    refine hkey.ne (hf (fun i => key.get (p i)) i ?_)
    show f (Function.update _ i (key.get (p i))) = f (Function.update _ i (key'.get (p i)))
    rw [← hself]
    exact heq

theorem keyMixSymbol_ne_iff {j : Fin 32} {key key' : ResearchKey256}
    (hkey : KeysDifferAt j key key') (i : Fin 32) :
    keyMixSymbol key i ≠ keyMixSymbol key' i ↔ i = j := by
  unfold keyMixSymbol
  constructor
  · intro hne
    by_contra h
    exact hne (by rw [hkey.same i h])
  · rintro rfl heq
    exact hkey.ne (xor_const_injective _ heq)

theorem forwardCrossSymbol_ne_iff {j : Fin 32} {key key' : ResearchKey256}
    (hkey : KeysDifferAt j key key') (i : Fin 32) :
    forwardCrossSymbol key i ≠ forwardCrossSymbol key' i ↔ i = j ∨ i + 11 = j ∨ i + 23 = j := by
  have hp : Function.Injective ![i, i + 11, i + 23] := by
    revert i
    decide
  have hchanged := changed_iff (f := fun v : Fin 3 → U8 => v 0 ^^^ rotl8 (v 1) (i.val % 7 + 1)
    ^^^ (rotl8 (v 2) 3 + positionMask i 0x31)) hkey (fun v k a b h => ?_) hp
  · simpa [Fin.exists_fin_succ, forwardCrossSymbol] using hchanged
  · fin_cases k
    · simpa [Function.update] using h
    · exact rotl_injective _ (by simpa [Function.update] using h)
    · exact rotl_injective _ (by simpa [Function.update] using h)

theorem keyReturnSymbol_ne_iff {j : Fin 32} {key key' : ResearchKey256}
    (hkey : KeysDifferAt j key key') (i : Fin 32) :
    keyReturnSymbol key i ≠ keyReturnSymbol key' i
      ↔ i.rev = j ∨ i.rev + 7 = j ∨ i.rev + 19 = j := by
  have hp : Function.Injective ![i.rev, i.rev + 7, i.rev + 19] := by
    revert i
    decide
  have hchanged := changed_iff (f := fun v : Fin 3 → U8 => (v 0 + rotl8 (v 1) 3 + rotl8 (v 2) 5)
    ^^^ positionMask i 0x72) hkey (fun v k a b h => ?_) hp
  · simpa [Fin.exists_fin_succ, keyReturnSymbol] using hchanged
  · fin_cases k
    · simpa [Function.update] using h
    · exact rotl_injective _ (by simpa [Function.update] using h)
    · exact rotl_injective _ (by simpa [Function.update] using h)

theorem keySealSymbol_ne_iff {j : Fin 32} {key key' : ResearchKey256}
    (hkey : KeysDifferAt j key key') (i : Fin 16) :
    keySealSymbol key i ≠ keySealSymbol key' i ↔ i.castLE (by decide) = j
      ∨ i.castLE (by decide) + 16 = j ∨ i.castLE (by decide) + 5 = j
      ∨ i.castLE (by decide) + 27 = j := by
  have hp : Function.Injective ![(i.castLE (by decide) : Fin 32), i.castLE (by decide) + 16,
      i.castLE (by decide) + 5, i.castLE (by decide) + 27] := by
    revert i
    decide
  have hchanged := changed_iff (f := fun v : Fin 4 → U8 => (v 0 + rotl8 (v 1) 1 + rotl8 (v 2) 4)
    ^^^ rotl8 (v 3) 6 ^^^ positionMask i 0x9C) hkey (fun v k a b h => ?_) hp
  · simpa [Fin.exists_fin_succ, keySealSymbol] using hchanged
  · fin_cases k
    · simpa [Function.update] using h
    · exact rotl_injective _ (by simpa [Function.update] using h)
    · exact rotl_injective _ (by simpa [Function.update] using h)
    · exact rotl_injective _ (by simpa [Function.update] using h)

/-- Every key byte is read by a seal symbol. -/
theorem exists_keySealSymbol_ne {j : Fin 32} {key key' : ResearchKey256}
    (hkey : KeysDifferAt j key key') : ∃ i, keySealSymbol key i ≠ keySealSymbol key' i := by
  have hread : ∀ j : Fin 32, ∃ i : Fin 16, i.castLE (by decide) = j
      ∨ i.castLE (by decide) + 16 = j ∨ i.castLE (by decide) + 5 = j
      ∨ i.castLE (by decide) + 27 = j := by
    decide
  obtain ⟨i, hi⟩ := hread j
  exact ⟨i, (keySealSymbol_ne_iff hkey i).mpr hi⟩

/-! ## Keys and traces -/

/-- The symbols of a sequence can be read off its moves. -/
theorem sequenceInputs_injective {domain : Domain} {moves : ℕ} (hmoves : 0 < moves)
    {symbols symbols' : List U8} (hlength : symbols.length = symbols'.length) {index : U64}
    {rest rest' : List MoveInput}
    (h : sequenceInputs domain moves index symbols ++ rest
      = sequenceInputs domain moves index symbols' ++ rest') : symbols = symbols' := by
  induction symbols generalizing symbols' index with
  | nil => exact (List.eq_nil_of_length_eq_zero hlength.symm).symm
  | cons symbol symbols ih =>
    cases symbols' with
    | nil => exact absurd hlength (by simp)
    | cons symbol' symbols' =>
      -- a symbol makes at least one move, which shows it
      obtain ⟨n, rfl⟩ := Nat.exists_eq_succ_of_ne_zero hmoves.ne'
      rw [sequenceInputs, sequenceInputs, List.append_assoc, List.append_assoc] at h
      have hinputs := List.append_inj h (by simp [symbolInputs])
      have hsymbol : symbol = symbol' := by
        have hhead := congrArg List.head? hinputs.1
        simp [symbolInputs, List.range_succ_eq_map] at hhead
        exact hhead
      rw [hsymbol, ih (Nat.succ.inj hlength) hinputs.2]

/-- Blocks of one length can be read off their concatenation. -/
theorem eq_of_flatMap_eq {κ α : Type} {f g : κ → List α}
    (hlength : ∀ a, (f a).length = (g a).length) {l : List κ} (h : l.flatMap f = l.flatMap g) :
    ∀ a ∈ l, f a = g a := by
  induction l with
  | nil => exact List.forall_mem_nil _
  | cons a l ih =>
    rw [List.flatMap_cons, List.flatMap_cons] at h
    obtain ⟨hfirst, hrest⟩ := List.append_inj h (hlength a)
    exact List.forall_mem_cons.mpr ⟨hfirst, ih hrest⟩

/-- **Different keys make different moves.** -/
theorem keyInputs_injective {profile : KeyScheduleProfile} (hprofile : profile.Valid)
    {key key' : ResearchKey256} {index : U64}
    (h : keyInputs key profile index = keyInputs key' profile index) : key = key' := by
  have hsymbols : keyForwardSymbols key = keyForwardSymbols key' :=
    sequenceInputs_injective hprofile.1.1 (by simp [keyForwardSymbols]) h
  unfold keyForwardSymbols at hsymbols
  -- the forward pass alone determines the key
  have hpairs := eq_of_flatMap_eq (f := fun i => [keyMixSymbol key i, forwardCrossSymbol key i])
    (g := fun i => [keyMixSymbol key' i, forwardCrossSymbol key' i]) (fun _ => rfl)
    (List.append_cancel_left hsymbols)
  apply Vector.ext
  intro i hi
  have hmix := (List.cons.inj (hpairs ⟨i, hi⟩ (List.mem_finRange _))).1
  exact xor_const_injective _ hmix

/-- **Every key byte enters every pass** of the key schedule.  The trace of `make_keyed_state`
records the symbols of the key, in A2 and in prototype B, and determines the key; and a change
of one key byte changes exactly the symbols that read it: four of the forward pass, three of the
return pass, and at least one of the seal. -/
theorem key_byte_enters_every_pass :
    (∀ (key : ResearchKey256) (profile : KeyScheduleProfile), profile.Valid →
      (∀ m, ∃ m' moves, (engineA2.makeKeyedState key profile true).run m = .ok () m' ∧
        m'.trace = m.trace ++ moves ∧
        moves.map MoveTraceOf.input = keyInputs key profile 0) ∧
      (∀ m, ∃ m' moves, (engineB.makeKeyedState key profile true).run m = .ok () m' ∧
        m'.trace = m.trace ++ moves ∧
        moves.map MoveTraceOf.input = keyInputs key profile 0) ∧
      ∀ key', keyInputs key profile 0 = keyInputs key' profile 0 → key = key') ∧
    ∀ (j : Fin 32) (key key' : ResearchKey256), KeysDifferAt j key key' →
      (∀ i, keyMixSymbol key i ≠ keyMixSymbol key' i ↔ i = j) ∧
      (∀ i, forwardCrossSymbol key i ≠ forwardCrossSymbol key' i
        ↔ i = j ∨ i + 11 = j ∨ i + 23 = j) ∧
      (∀ i, keyReturnSymbol key i ≠ keyReturnSymbol key' i
        ↔ i.rev = j ∨ i.rev + 7 = j ∨ i.rev + 19 = j) ∧
      (∀ i : Fin 16, keySealSymbol key i ≠ keySealSymbol key' i ↔ i.castLE (by decide) = j
        ∨ i.castLE (by decide) + 16 = j ∨ i.castLE (by decide) + 5 = j
        ∨ i.castLE (by decide) + 27 = j) ∧
      ∃ i, keySealSymbol key i ≠ keySealSymbol key' i := by
  constructor
  · intro key profile hprofile
    obtain ⟨s₀, hs₀, hcursor, hindex⟩ := makeInitialState_start kPublicBootstrapSeed
    obtain ⟨t₀, ht₀, hcursor', hindex'⟩ := makeInitialStateB_start kPublicBootstrapSeed
    refine ⟨fun m => ?_, fun m => ?_, fun key' => keyInputs_injective hprofile⟩
    · rw [← hindex]
      exact makeKeyedState_trace engineA2_sound hs₀ hcursor key hprofile m
    · rw [← hindex']
      exact makeKeyedState_trace engineB_sound ht₀ hcursor' key hprofile m
  · intro j key key' hkey
    exact ⟨keyMixSymbol_ne_iff hkey, forwardCrossSymbol_ne_iff hkey, keyReturnSymbol_ne_iff hkey,
      keySealSymbol_ne_iff hkey, exists_keySealSymbol_ne hkey⟩
