/-
# Attempts, from the lock to their end

One call among all the others, from the moment it gets the lock: what it has done to the
state file when it ends, and that without failures this is what `allocate` does in one go.
Without failures the calls return one number after the other; and once the last nonce is
returned nothing changes any more.
-/
import RotSymEnc.NonceRuns

open StatefulRuns PosixFiles LockedCalls PathNames

/-! ## One attempt -/

section Attempt

variable (path : ResolvedPath) (scope : NonceScope128) (place : ℕ) (bytes : Option (List U8))

/-- A call that got the lock at this place, where the state file had these bytes, knows what is
in it; the other calls do not matter. -/
def HeldAttempt (ticket : ℕ) (store : CounterStore) (stage : Stage) : Prop :=
  place ≤ ticket ∧ (ticket = place → stage.Sound path scope bytes store.files)

/-- It also knows that it met no failure. -/
def HeldUndisturbed (ticket : ℕ) (store : CounterStore) (stage : Stage) : Prop :=
  HeldAttempt path scope place bytes ticket store stage ∧
    (ticket = place → stage.Undisturbed scope bytes)

theorem attempt_protects : ProtectsFailing (allocateCalls path scope)
    (fun tickets _ => place < tickets) (HeldAttempt path scope place bytes)
    (fun _ _ _ => True) where
  opens := fun _ _ h => h
  opens_left := fun _ _ _ h => h
  acquires := fun _ _ h => ⟨h.le, fun heq => absurd heq (Nat.ne_of_gt h)⟩
  inside := fun _ _ _ _ _ h hstep =>
    ⟨h.1, fun heq => CounterStep.sound hstep (h.2 heq)⟩
  inside_left := fun _ _ _ _ _ _ _ _ _ h => h
  releases := fun _ _ _ _ h _ => ⟨Nat.lt_succ_of_le h.1, trivial⟩
  fails := fun _ _ _ _ h hfails =>
    ⟨h.1, fun heq => StageFailure.sound hfails (h.2 heq)⟩
  kills := fun _ _ _ h => Nat.lt_succ_of_le h.1

theorem undisturbed_protects : Protects (allocateCalls path scope)
    (fun tickets _ => place < tickets) (HeldUndisturbed path scope place bytes)
    (fun _ _ _ => True) where
  opens := fun _ _ h => h
  opens_left := fun _ _ _ h => h
  acquires := fun _ _ h =>
    ⟨⟨h.le, fun heq => absurd heq (Nat.ne_of_gt h)⟩, fun heq => absurd heq (Nat.ne_of_gt h)⟩
  inside := fun _ _ _ _ _ h hstep =>
    ⟨⟨h.1.1, fun heq => CounterStep.sound hstep (h.1.2 heq)⟩,
      fun heq => CounterStep.undisturbed hstep (h.1.2 heq)⟩
  inside_left := fun _ _ _ _ _ _ _ _ _ h => h
  releases := fun _ _ _ _ h _ => ⟨Nat.lt_succ_of_le h.1.1, trivial⟩

variable {path scope} {Pid : Type} {s s' s'' : CounterSystem Pid} {p : Pid}
  {lock ticket : ℕ} {stage : Stage}

/-- What is asserted about the call that has just got the lock. -/
theorem safe_of_opening {Held : ℕ → CounterStore → Stage → Prop}
    (h : Ordered (allocateCalls path scope) s) (hp : s.phase p = .holding lock ticket .opening)
    (hheld : Held ticket s.store .opening) :
    Safe (allocateCalls path scope) (fun tickets _ => ticket < tickets) Held
      (fun _ _ _ => True) s where
  ordered := h
  free := fun hfree => absurd hp (hfree p lock ticket .opening)
  held := fun q _ _ _ hq => by
    obtain rfl := h.exclusive hq hp
    rw [hp] at hq
    cases hq
    exact hheld
  left := fun _ _ _ _ => trivial
  finished := fun _ _ _ => trivial

variable [DecidableEq Pid]

/-- **What an attempt knows**, whatever has happened since it got the lock. -/
theorem attempt_sound (h : Ordered (allocateCalls path scope) s)
    (hp : s.phase p = .holding lock ticket .opening) (hrun : Run (allocateCalls path scope) s s')
    (hp' : s'.phase p = .holding lock ticket stage) :
    stage.Sound path scope (s.store.files.read path) s'.store.files := by
  have hsafe := safe_of_opening h hp
    (show HeldAttempt path scope ticket (s.store.files.read path) _ _ _ from ⟨le_rfl, fun _ => rfl⟩)
  exact (((attempt_protects path scope _ _).run hsafe hrun).held p lock ticket stage hp').2 rfl

/-- A call gives the lock up without touching a file. -/
theorem store_eq_of_stop (hp : s.phase p = .holding lock ticket stage)
    (hstop : Step (allocateCalls path scope) p s s' ∨ Failure (allocateCalls path scope) p s s')
    (hp' : ∀ lock ticket stage, s'.phase p ≠ .holding lock ticket stage) : s'.store = s.store := by
  rcases hstop with hstep | hfailure
  · cases hstep with
    | opens hp'' => rw [hp] at hp''; cases hp''
    | inside hp'' hinside => exact absurd (Function.update_self _ _ _) (hp' _ _ _)
    | _ => rfl
  · cases hfailure <;> rfl

/-- **The effect of an attempt**, however it stops: nothing before the `rename`, and one nonce
after it. -/
theorem attempt_effect (h : Ordered (allocateCalls path scope) s)
    (hp : s.phase p = .holding lock ticket .opening) (hrun : Run (allocateCalls path scope) s s')
    (hp' : s'.phase p = .holding lock ticket stage)
    (hstop : Step (allocateCalls path scope) p s' s'' ∨ Failure (allocateCalls path scope) p s' s'')
    (hp'' : ∀ lock ticket stage, s''.phase p ≠ .holding lock ticket stage) :
    (stage.replaced = false → s''.store.files.read path = s.store.files.read path) ∧
    (stage.replaced = true → ∃ nonce, Replaced path scope (s.store.files.read path)
      s''.store.files nonce) := by
  have hsound := attempt_sound h hp hrun hp'
  rw [store_eq_of_stop hp' hstop hp'']
  exact ⟨hsound.read_of_not_replaced, hsound.exists_replaced⟩

/-- **An attempt without failures is `allocate`**, in one go on the files it found. -/
theorem attempt_refines_allocate (h : Ordered (allocateCalls path scope) s)
    (hp : s.phase p = .holding lock ticket .opening)
    (hrun : LockedCalls.Undisturbed (allocateCalls path scope) s s')
    (hp' : s'.phase p = .holding lock ticket stage) {result : Except Fault Nonce192}
    (hresult : stage.result = some result) :
    (allocate path scope).returned s.store.files = result ∧
    ((allocate path scope).after s.store.files).read path = s'.store.files.read path := by
  have hheld :
      HeldUndisturbed path scope ticket (s.store.files.read path) ticket s.store .opening :=
    ⟨⟨le_rfl, fun _ => rfl⟩, fun _ => trivial⟩
  obtain ⟨⟨-, hsound⟩, hundisturbed⟩ := ((undisturbed_protects path scope _ _).undisturbed
    (safe_of_opening h hp hheld) hrun).held p lock ticket stage hp'
  have hrecord := (hsound rfl).allocateRecord_eq (hundisturbed rfl) hresult
  obtain ⟨hreturned, hafter, -⟩ := allocate_run path scope s.store.files
  rw [hreturned, hafter, hrecord]
  exact ⟨rfl, rfl⟩

end Attempt

/-! ## Runs without failures -/

section Undisturbed

variable (path : ResolvedPath) (scope : NonceScope128) (first : ℕ)

/-- What is thrown when no nonce is left. -/
def exhaustedFault : Fault := .thrown .overflowError "192-bit nonce counter exhausted"

/-- The state file has counted all calls so far. -/
def FreeNumbered (tickets : ℕ) (store : CounterStore) : Prop :=
  ∃ state, Recorded scope (store.files.read path) state ∧
    state.value = min (2 ^ 192) (first + tickets)

/-- A call finds the number of its place in the state file, and meets no failure. -/
def HeldNumbered (ticket : ℕ) (store : CounterStore) (stage : Stage) : Prop :=
  ∃ bytes state, stage.Sound path scope bytes store.files ∧ stage.Undisturbed scope bytes ∧
    Recorded scope bytes state ∧ state.value = min (2 ^ 192) (first + ticket)

/-- It returns this number, as long as there is one. -/
def LeftNumbered (ticket : ℕ) (result : Except Fault Nonce192) (_ : CounterStore) : Prop :=
  (∃ nonce, result = .ok nonce ∧ nonceValue nonce = first + ticket) ∨
    (result = .error exhaustedFault ∧ 2 ^ 192 ≤ first + ticket)

variable {path scope first}

/-- The call at a place, on the state that has counted the calls before. -/
theorem Recorded.allocateRecord_cases {bytes : Option (List U8)} {state : CounterState}
    (h : Recorded scope bytes state) :
    (state.value < 2 ^ 192 ∧ allocateRecord scope bytes
        = (.ok state.next, some (recordBytes state.advanced)) ∧
      nonceValue state.next = state.value ∧ state.advanced.value = state.value + 1 ∧
      Recorded scope (some (recordBytes state.advanced)) state.advanced) ∨
    (state.value = 2 ^ 192 ∧ allocateRecord scope bytes = (.error exhaustedFault, bytes)) := by
  unfold allocateRecord
  rw [h.loaded_eq]
  dsimp only
  cases hexhausted : state.exhausted with
  | true =>
    rw [if_pos rfl]
    exact .inr ⟨(CounterState.exhausted_iff state).mp hexhausted, rfl⟩
  | false =>
    rw [if_neg Bool.false_ne_true]
    have hvalue := CounterState.value_of_not_exhausted hexhausted
    refine .inl ⟨hvalue ▸ nonceValue_lt _, rfl, hvalue.symm,
      CounterState.value_advanced hexhausted, .inr ⟨rfl, ?_⟩⟩
    exact (CounterState.scope_advanced state).trans h.scope_eq

variable (path scope first) in
/-- **Without failures the calls are numbered by their places.** -/
theorem numbered_protects : Protects (allocateCalls path scope) (FreeNumbered path scope first)
    (HeldNumbered path scope first) (LeftNumbered first) where
  opens := fun tickets store h => by
    obtain ⟨state, hrecorded, hvalue⟩ := h
    refine ⟨state, ?_, hvalue⟩
    rwa [← read_openCreate_of_ne store.files (lockPath_ne path).symm] at hrecorded
  opens_left := fun _ _ _ h => h
  acquires := fun tickets store ⟨state, hrecorded, hvalue⟩ =>
    ⟨store.files.read path, state, rfl, trivial, hrecorded, hvalue⟩
  inside := by
    rintro ticket store stage store' stage' ⟨bytes, state, hsound, -, hrecorded, hvalue⟩ hstep
    exact ⟨bytes, state, CounterStep.sound hstep hsound, CounterStep.undisturbed hstep hsound,
      hrecorded, hvalue⟩
  inside_left := fun _ _ _ _ _ _ _ _ _ h => h
  releases := by
    rintro ticket store stage result ⟨bytes, state, hsound, hundisturbed, hrecorded, hvalue⟩ hresult
    have hcall := hsound.allocateRecord_eq hundisturbed hresult
    rcases hrecorded.allocateRecord_cases with
      ⟨hlt, hnext, hnonce, hadvanced, hrecord⟩ | ⟨hlast, hthrown⟩
    · -- the number of the place is returned and the next one recorded
      obtain ⟨rfl, hread⟩ := Prod.mk.inj (hcall.symm.trans hnext)
      refine ⟨⟨state.advanced, hread ▸ hrecord, ?_⟩, .inl ⟨state.next, rfl, ?_⟩⟩
      · omega
      · omega
    · obtain ⟨rfl, hread⟩ := Prod.mk.inj (hcall.symm.trans hthrown)
      refine ⟨⟨state, hread ▸ hrecorded, ?_⟩, .inr ⟨rfl, ?_⟩⟩
      · omega
      · omega

end Undisturbed

/-! ## After the last nonce -/

section Exhausted

variable (path : ResolvedPath) (scope : NonceScope128) (bytes : Option (List U8))
  (store₀ : CounterStore) (tickets₀ : ℕ) (thrown : Fault → Prop)

/-- A call finds the state file exhausted; nothing has changed since there was nothing left. -/
def HeldExhausted (ticket : ℕ) (store : CounterStore) (stage : Stage) : Prop :=
  store = store₀ ∧ stage.replaced = false ∧ stage.Sound path scope bytes store₀.files ∧
    (tickets₀ ≤ ticket → ∀ replaced e, stage = .throwing replaced e → thrown e)

/-- A call that got the lock since then returns no nonce. -/
def LeftExhausted (ticket : ℕ) (result : Except Fault Nonce192) (_ : CounterStore) : Prop :=
  tickets₀ ≤ ticket → ∃ e, result = .error e ∧ thrown e

variable {path scope bytes store₀ tickets₀ thrown} {state : CounterState}

/-- There is nothing to do for a call that finds the state file exhausted. -/
theorem not_jobFrom (hrecorded : Recorded scope bytes state) (hlast : state.value = 2 ^ 192)
    (job : Job) : ¬ JobFrom scope bytes job := by
  rintro ⟨current, hloaded, hexhausted, -⟩
  obtain rfl := Except.ok.inj (hrecorded.loaded_eq.symm.trans hloaded)
  rw [(CounterState.exhausted_iff state).mpr hlast] at hexhausted
  cases hexhausted

/-- So it changes no file. -/
theorem CounterStep.store_eq_of_exhausted (hrecorded : Recorded scope bytes state)
    (hlast : state.value = 2 ^ 192) {ticket : ℕ} {store store' : CounterStore}
    {stage stage' : Stage} (h : CounterStep path scope ticket store stage store' stage')
    (hsound : stage.Sound path scope bytes store.files) : store' = store := by
  cases h with
  | stage hstage =>
    cases hstage with
    | openedTemporary => exact absurd hsound.2 (not_jobFrom hrecorded hlast _)
    | wrote _ _ => exact absurd hsound.2.1 (not_jobFrom hrecorded hlast _)
    | _ => rfl
  | replaced _ => exact absurd hsound.2.1 (not_jobFrom hrecorded hlast _)

variable (hentry : ∃ lock, store₀.files.entry (lockPath path) = some lock)
  (hread : store₀.files.read path = bytes) (hrecorded : Recorded scope bytes state)
  (hlast : state.value = 2 ^ 192)

include hentry hread hrecorded hlast

/-- **After the last nonce nothing changes**, and only the overflow is thrown. -/
theorem exhausted_protects (hthrown : thrown exhaustedFault) :
    Protects (allocateCalls path scope) (fun _ store => store = store₀)
      (HeldExhausted path scope bytes store₀ tickets₀ thrown) (LeftExhausted tickets₀ thrown) where
  opens := by
    rintro tickets store rfl
    obtain ⟨lock, hlock⟩ := hentry
    exact congrArg Prod.snd ((allocateCalls path scope).opened_eq store lock hlock)
  opens_left := fun _ _ _ h => h
  acquires := by
    rintro tickets store rfl
    exact ⟨rfl, rfl, hread, fun _ replaced e h => by cases h⟩
  inside := by
    rintro ticket store stage store' stage' ⟨rfl, hreplaced, hsound, -⟩ hstep
    have hstore := CounterStep.store_eq_of_exhausted hrecorded hlast hstep hsound
    have hsound' := CounterStep.sound hstep hsound
    rw [hstore] at hsound'
    refine ⟨hstore, ?_, hsound', fun _ replaced e hstage => ?_⟩
    · cases hstep with
      | stage hstage => exact hstage.replaced_eq.trans hreplaced
      | replaced _ => exact absurd hsound.2.1 (not_jobFrom hrecorded hlast _)
    · have hundisturbed := CounterStep.undisturbed hstep hsound
      rw [hstage] at hundisturbed
      obtain ⟨-, herror⟩ := hundisturbed
      rcases hrecorded.allocateRecord_cases with ⟨hlt, -⟩ | ⟨-, hcall⟩
      · omega
      · rw [hcall] at herror
        cases herror
        exact hthrown
  inside_left := fun _ _ _ _ _ _ _ _ _ h => h
  releases := by
    rintro ticket store stage result ⟨rfl, hreplaced, hsound, herror⟩ hresult
    refine ⟨rfl, fun hticket => ?_⟩
    cases stage with
    | returning nonce => cases hreplaced
    | throwing replaced e =>
      cases hresult
      exact ⟨e, rfl, herror hticket replaced e rfl⟩
    | _ => cases hresult

/-- With failures, what they raise is thrown as well. -/
theorem exhausted_protectsFailing :
    ProtectsFailing (allocateCalls path scope) (fun _ store => store = store₀)
      (HeldExhausted path scope bytes store₀ tickets₀ fun _ => True)
      (LeftExhausted tickets₀ fun _ => True) where
  toProtects := exhausted_protects hentry hread hrecorded hlast trivial
  fails := by
    rintro ticket store stage stage' ⟨rfl, hreplaced, hsound, -⟩ hfails
    exact ⟨rfl, (StageFailure.replaced_eq hfails).trans hreplaced,
      StageFailure.sound hfails hsound, fun _ _ _ _ => trivial⟩
  kills := fun _ _ _ h => h.1

end Exhausted
