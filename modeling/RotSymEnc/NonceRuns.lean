/-
# Runs of the nonce counter

The state file counts.  Whatever processes call `allocate`, are killed and meet failing
system calls, the nonces that are taken from the state file have consecutive numbers, in
the order in which the calls got the lock, and a nonce is returned only after it is taken.
-/
import RotSymEnc.NonceStages

open StatefulRuns PosixFiles LockedCalls PathNames

/-! ## What is counted -/

/-- There is no state file yet, or it has the complete record of a state. -/
def Recorded (scope : NonceScope128) (bytes : Option (List U8)) (state : CounterState) : Prop :=
  (bytes = none ∧ state = .initial scope) ∨
    (bytes = some (recordBytes state) ∧ state.scope = scope)

/-- The nonces taken since the counter stood at `first`: one after the other, by ever later
calls. -/
def Counted (first : ℕ) : List (ℕ × Nonce192) → Prop
  | [] => True
  | call :: earlier => nonceValue call.2 = first + earlier.length ∧
      (∀ other ∈ earlier, other.1 < call.1) ∧ Counted first earlier

section Counting

variable {path : ResolvedPath} {scope : NonceScope128} {bytes : Option (List U8)}
  {state : CounterState} {first : ℕ} {calls : List (ℕ × Nonce192)}

theorem Recorded.loaded_eq (h : Recorded scope bytes state) : loaded scope bytes = .ok state := by
  rcases h with ⟨rfl, rfl⟩ | ⟨rfl, hscope⟩
  · rfl
  · exact decodeRecord_recordBytes hscope

theorem Recorded.scope_eq (h : Recorded scope bytes state) : state.scope = scope := by
  rcases h with ⟨-, rfl⟩ | ⟨-, hscope⟩
  · rfl
  · exact hscope

/-- **A job takes the next nonce**, and what it is to persist is the record of the state after
it. -/
theorem Recorded.job (h : Recorded scope bytes state) {job : Job} (hjob : JobFrom scope bytes job) :
    nonceValue job.allocated = state.value ∧ job.updated.value = state.value + 1 ∧
      Recorded scope (some (recordBytes job.updated)) job.updated := by
  obtain ⟨current, hloaded, hexhausted, rfl⟩ := hjob
  obtain rfl := Except.ok.inj (h.loaded_eq.symm.trans hloaded)
  refine ⟨(CounterState.value_of_not_exhausted hexhausted).symm,
    CounterState.value_advanced hexhausted, .inr ⟨rfl, ?_⟩⟩
  exact (CounterState.scope_advanced state).trans h.scope_eq

/-- What was taken is below the count. -/
theorem Counted.lt (h : Counted first calls) {call : ℕ × Nonce192} (hcall : call ∈ calls) :
    nonceValue call.2 < first + calls.length := by
  induction calls with
  | nil => cases hcall
  | cons head earlier ih =>
    obtain ⟨hvalue, -, hearlier⟩ := h
    rw [List.length_cons]
    rcases List.mem_cons.mp hcall with rfl | hmem
    · omega
    · have := ih hearlier hmem
      omega

/-- **Later calls take higher nonces.** -/
theorem Counted.lt_of_lt (h : Counted first calls) {a b : ℕ × Nonce192} (ha : a ∈ calls)
    (hb : b ∈ calls) (hlt : a.1 < b.1) : nonceValue a.2 < nonceValue b.2 := by
  induction calls with
  | nil => cases ha
  | cons head earlier ih =>
    obtain ⟨hvalue, hlast, hearlier⟩ := h
    rcases List.mem_cons.mp ha with rfl | ha' <;> rcases List.mem_cons.mp hb with rfl | hb'
    · exact absurd hlt (lt_irrefl _)
    · exact absurd (hlast b hb') (not_lt.mpr hlt.le)
    · rw [hvalue]
      exact hearlier.lt ha'
    · exact ih hearlier ha' hb'

end Counting

/-! ## The invariant of all runs -/

namespace Stage

/-- The nonce that the call has taken, once it is to be returned. -/
def taken : Stage → Option Nonce192
  | visiting nonce => some nonce
  | settling nonce => some nonce
  | returning nonce => some nonce
  | _ => none

end Stage

section Invariant

variable (path : ResolvedPath) (scope : NonceScope128) (first : ℕ)

/-- The state file counts the nonces that were taken. -/
def FreeCounts (tickets : ℕ) (store : CounterStore) : Prop :=
  (∃ state, Recorded scope (store.files.read path) state ∧
    state.value = first + store.consumed.length) ∧
  Counted first store.consumed ∧ ∀ call ∈ store.consumed, call.1 < tickets

/-- So does it while a call is on the way, before and after the `rename`. -/
def HeldCounts (ticket : ℕ) (store : CounterStore) (stage : Stage) : Prop :=
  FreeCounts path scope first (if stage.replaced then ticket + 1 else ticket) store ∧
  (∃ bytes, stage.Sound path scope bytes store.files) ∧
  (stage.replaced = true → ∃ nonce, (ticket, nonce) ∈ store.consumed) ∧
  ∀ nonce, stage.taken = some nonce → (ticket, nonce) ∈ store.consumed

/-- A nonce is returned after it was taken. -/
def LeftCounts (ticket : ℕ) (result : Except Fault Nonce192) (store : CounterStore) : Prop :=
  ∀ nonce, result = .ok nonce → (ticket, nonce) ∈ store.consumed

variable {path scope first}

theorem FreeCounts.mono {tickets tickets' : ℕ} {store : CounterStore}
    (h : FreeCounts path scope first tickets store) (hle : tickets ≤ tickets') :
    FreeCounts path scope first tickets' store :=
  ⟨h.1, h.2.1, fun call hcall => (h.2.2 call hcall).trans_le hle⟩

theorem FreeCounts.files {tickets : ℕ} {store : CounterStore} {files : CounterFiles}
    (h : FreeCounts path scope first tickets store)
    (hread : files.read path = store.files.read path) :
    FreeCounts path scope first tickets { store with files := files } := by
  unfold FreeCounts
  dsimp only
  rw [hread]
  exact h

/-- What the call has taken stays the same. -/
theorem StageStep.taken {files files' : CounterFiles} {stage stage' : Stage}
    (h : StageStep path scope files stage files' stage') {nonce : Nonce192}
    (htaken : stage'.taken = some nonce) : stage.taken = some nonce := by
  have hafter : ∀ r, (Stage.afterLoad r).taken = none := by
    intro r
    cases r with
    | error e => rfl
    | ok current =>
      unfold Stage.afterLoad
      dsimp only
      split <;> rfl
  cases h with
  | openedNothing _ =>
    rw [hafter] at htaken
    cases htaken
  | decoded _ =>
    rw [hafter] at htaken
    cases htaken
  | visited => exact htaken
  | settled => exact htaken
  | _ => cases htaken

/-- **The `rename` takes the next nonce.** -/
theorem FreeCounts.replaced {ticket : ℕ} {store : CounterStore} {job : Job} {files' : CounterFiles}
    {bytes : Option (List U8)} (h : FreeCounts path scope first ticket store)
    (hsound : (Stage.replacing job).Sound path scope bytes store.files)
    (hrename : store.files.rename (tmpPath path) path = some files') :
    FreeCounts path scope first (ticket + 1)
      ⟨files', (ticket, job.allocated) :: store.consumed⟩ := by
  obtain ⟨⟨state, hrecorded, hvalue⟩, hcounted, htickets⟩ := h
  obtain ⟨hread, hjob, htemporary⟩ := hsound
  rw [hread] at hrecorded
  obtain ⟨hallocated, hupdated, hrecord⟩ := hrecorded.job hjob
  refine ⟨⟨job.updated, ?_, ?_⟩, ⟨hallocated.trans hvalue, htickets, hcounted⟩, ?_⟩
  · rw [read_rename_new _ hrename, htemporary]
    exact hrecord
  · rw [hupdated, hvalue, List.length_cons, Nat.add_assoc]
  · refine List.forall_mem_cons.mpr ⟨Nat.lt_succ_self _, fun call hcall => ?_⟩
    exact (htickets call hcall).trans (Nat.lt_succ_self _)

variable (path scope first) in
/-- **Every call keeps the count**, whatever happens to it. -/
theorem counts_protects : ProtectsFailing (allocateCalls path scope) (FreeCounts path scope first)
    (HeldCounts path scope first) LeftCounts where
  opens := fun tickets store h => h.files (read_openCreate_of_ne _ (lockPath_ne path).symm)
  opens_left := fun ticket result store h => h
  acquires := fun tickets store h =>
    ⟨h, ⟨_, rfl⟩, fun hreplaced => absurd hreplaced Bool.false_ne_true,
      fun nonce htaken => by cases htaken⟩
  inside := by
    rintro ticket store stage store' stage' ⟨hcounts, ⟨bytes, hsound⟩, hmem, htaken⟩ hstep
    cases hstep with
    | stage hstage =>
      refine ⟨?_, ⟨bytes, hstage.sound hsound⟩, ?_, fun nonce h => htaken nonce (hstage.taken h)⟩
      · rw [hstage.replaced_eq]
        exact hcounts.files (hstage.read_eq hsound)
      · rw [hstage.replaced_eq]
        exact hmem
    | replaced hrename =>
      refine ⟨hcounts.replaced hsound hrename, ⟨bytes, replaced_of_rename hsound hrename⟩,
        fun _ => ⟨_, List.mem_cons_self⟩, ?_⟩
      intro nonce h
      obtain rfl := Option.some.inj h
      exact List.mem_cons_self
  inside_left := by
    rintro ticket store stage store' stage' - hstep ticket' result hleft nonce hresult
    cases hstep with
    | stage _ => exact hleft nonce hresult
    | replaced _ => exact List.mem_cons_of_mem _ (hleft nonce hresult)
  releases := by
    rintro ticket store stage result ⟨hcounts, -, -, htaken⟩ hresult
    refine ⟨hcounts.mono (by split <;> omega), fun nonce hnonce => htaken nonce ?_⟩
    subst hnonce
    -- only a stage past the `rename` returns a nonce
    have hreturning : stage = .returning nonce := by
      cases stage with
      | returning nonce' =>
        cases hresult
        rfl
      | throwing replaced e => cases hresult
      | _ => cases hresult
    rw [hreturning]
    rfl
  fails := by
    rintro ticket store stage stage' ⟨hcounts, ⟨bytes, hsound⟩, hmem, -⟩ hfails
    have hfails : StageFailure stage stage' := hfails
    refine ⟨?_, ⟨bytes, hfails.sound hsound⟩, ?_, fun nonce htaken => ?_⟩
    · rw [hfails.replaced_eq]
      exact hcounts
    · rw [hfails.replaced_eq]
      exact hmem
    · cases hfails <;> cases htaken
  kills := fun ticket store stage h => h.1.mono (by split <;> omega)

end Invariant
