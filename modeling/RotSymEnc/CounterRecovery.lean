/-
# Crashes, snapshots and repeated nonces

What the nonce campaign does to `PersistentNonceCounter::allocate` and to its state file.
A process is ended at one of the four points where `allocate` calls its hook; the state
file is replaced by an older copy of itself; and a `NonceReuseDetector` watches the nonces
that come back.  Over any sequence of complete and ended calls the counter is an abstract
one that skips a number only for a call that was ended after its `rename`; and an older
copy repeats exactly the nonces that were returned since it was taken, which is what the
detector sees.
-/
import RotSymEnc.NonceAttempts

open StatefulRuns PosixFiles PathNames

/-! ## Hooks -/

/-- `PersistencePoint`. -/
inductive PersistencePoint : Type where
  | afterLock
  | afterTemporarySync
  | afterReplace
  | afterDirectorySync
  deriving DecidableEq, Repr

/-- The value of the enumerator. -/
def PersistencePoint.code : PersistencePoint → ℕ
  | afterLock => 0
  | afterTemporarySync => 1
  | afterReplace => 2
  | afterDirectorySync => 3

/-- What stops a call: an exception, or the end of its process by `_exit`. -/
inductive Stop : Type where
  | fault (fault : Fault)
  | exited (status : ℕ)
  deriving DecidableEq, Repr

/-- A run on the file system whose process may end. -/
abbrev HookedRun := EStateM Stop CounterFiles

/-- A run without hooks among runs with them. -/
def CounterRun.hooked {α : Type} (x : CounterRun α) : HookedRun α := x.adaptExcept Stop.fault

theorem CounterRun.hooked_run_of_ok {α : Type} {x : CounterRun α} {files files' : CounterFiles}
    {a : α} (h : x.run files = .ok a files') : x.hooked.run files = .ok a files' := by
  simp only [EStateM.run] at h
  simp only [CounterRun.hooked, EStateM.run, EStateM.adaptExcept, h]

/-- `invoke_hook` with no hook, or with the `crash_hook` of the campaign, which ends the process
at one point. -/
def invokeHook (crashPoint : Option PersistencePoint) (point : PersistencePoint) :
    HookedRun PUnit :=
  if crashPoint = some point then throw (.exited (80 + point.code)) else pure ()

/-- The `rename` of `persist_state`. -/
def replaceState (path : ResolvedPath) : HookedRun PUnit := do
  let files ← get
  match files.rename (tmpPath path) path with
  | some files => set files
  | none => throw (.fault (.thrown .systemError "replace nonce counter state"))

/-- `persist_state`, with its hook. -/
def persistStateHooked (path : ResolvedPath) (state : CounterState)
    (crashPoint : Option PersistencePoint) : HookedRun PUnit := do
  let temporary ← modifyGet fun files => files.openTruncate (tmpPath path)
  modify fun files => files.writeAt temporary 0 (recordBytes state)
  invokeHook crashPoint .afterTemporarySync
  replaceState path
  invokeHook crashPoint .afterReplace
  invokeHook crashPoint .afterDirectorySync

/-- `PersistentNonceCounter::allocate`, with its hook. -/
def allocateHooked (path : ResolvedPath) (scope : NonceScope128)
    (crashPoint : Option PersistencePoint) : HookedRun Nonce192 := do
  let _ ← modifyGet fun files => files.openCreate (lockPath path)
  invokeHook crashPoint .afterLock
  let current ← CounterRun.hooked (loadState path scope)
  if current.exhausted then
    throw (.fault (.thrown .overflowError "192-bit nonce counter exhausted"))
  persistStateHooked path current.advanced crashPoint
  return current.next

/-! ## Sequences of calls -/

/-- How a call ends for the campaign: with a nonce, with an exception, or with the exit status of
the child process it was made in. -/
inductive CallEnd (α : Type) : Type where
  | returned (a : α)
  | threw (fault : Fault)
  | exited (status : ℕ)
  deriving DecidableEq, Repr

/-- The same end with another value. -/
def CallEnd.map {α β : Type} (f : α → β) : CallEnd α → CallEnd β
  | returned a => .returned (f a)
  | threw fault => .threw fault
  | exited status => .exited status

/-- One call of `test_crash_points`: a call of the campaign itself, or one of a child process that
is to end at a point.  The child exits with 125 after an exception and with 126 after a call that
was not ended. -/
def attempt (path : ResolvedPath) (scope : NonceScope128) (crashPoint : Option PersistencePoint)
    (files : CounterFiles) : CallEnd Nonce192 × CounterFiles :=
  match crashPoint, (allocateHooked path scope crashPoint).run files with
  | none, .ok nonce files' => (.returned nonce, files')
  | none, .error (.fault fault) files' => (.threw fault, files')
  | none, .error (.exited status) files' => (.exited status, files')
  | some _, .ok _ files' => (.exited 126, files')
  | some _, .error (.fault _) files' => (.exited 125, files')
  | some _, .error (.exited status) files' => (.exited status, files')

/-- One call after the other. -/
def attempts (path : ResolvedPath) (scope : NonceScope128) :
    List (Option PersistencePoint) → CounterFiles → List (CallEnd Nonce192) × CounterFiles
  | [], files => ([], files)
  | crashPoint :: calls, files =>
    let first := attempt path scope crashPoint files
    let later := attempts path scope calls first.2
    (first.1 :: later.1, later.2)

/-! ## The abstract counter -/

/-- A call on the number of nonces taken so far, of which there are `2 ^ 192`: a number is taken
unless the call is ended before its `rename`. -/
def countAttempt (count : ℕ) : Option PersistencePoint → CallEnd ℕ × ℕ
  | none => if count < 2 ^ 192 then (.returned count, count + 1) else (.threw exhaustedFault, count)
  | some .afterLock => (.exited 80, count)
  | some .afterTemporarySync => (.exited (if count < 2 ^ 192 then 81 else 125), count)
  | some .afterReplace =>
    if count < 2 ^ 192 then (.exited 82, count + 1) else (.exited 125, count)
  | some .afterDirectorySync =>
    if count < 2 ^ 192 then (.exited 83, count + 1) else (.exited 125, count)

/-- One call after the other. -/
def countAttempts (count : ℕ) : List (Option PersistencePoint) → List (CallEnd ℕ) × ℕ
  | [] => ([], count)
  | crashPoint :: calls =>
    let first := countAttempt count crashPoint
    let later := countAttempts first.2 calls
    (first.1 :: later.1, later.2)

/-! ## One call on the bytes of the state file -/

section Attempts

variable (path : ResolvedPath) (scope : NonceScope128) (files : CounterFiles)

/-- A call that gets to its `rename` has staged the record before it. -/
theorem exists_staged (state : CounterState) :
    ∃ staged, (∀ {α : Type} (next : HookedRun α),
        (do let temporary ← modifyGet fun files => files.openTruncate (tmpPath path)
            modify fun files => files.writeAt temporary 0 (recordBytes state)
            next : HookedRun α).run files = next.run staged) ∧
      staged.read path = files.read path ∧
      ∃ files', staged.rename (tmpPath path) path = some files' ∧
        files'.read path = some (recordBytes state) := by
  have hentry : (files.openTruncate (tmpPath path)).2.entry (tmpPath path)
      = some (files.openTruncate (tmpPath path)).1 := entry_openTruncate_self files
  have hpath : (files.openTruncate (tmpPath path)).2.read path = files.read path :=
    read_openTruncate_of_ne files (tmpPath_ne path).symm
  have hwritten : (files.openTruncate (tmpPath path)).2.writeAt
        (files.openTruncate (tmpPath path)).1 0 (recordBytes state)
      = (files.openTruncate (tmpPath path)).2.store (files.openTruncate (tmpPath path)).1
        (recordBytes state) := by
    unfold Files.writeAt
    rw [content_openTruncate]
    simp
  refine ⟨(files.openTruncate (tmpPath path)).2.store (files.openTruncate (tmpPath path)).1
    (recordBytes state), fun next => ?_, ?_, ?_⟩
  · rw [← hwritten]
    rfl
  · exact (read_store_of_ne _ hentry (tmpPath_ne path).symm _).trans hpath
  · have hstaged : ((files.openTruncate (tmpPath path)).2.store
        (files.openTruncate (tmpPath path)).1 (recordBytes state)).entry (tmpPath path)
        = some (files.openTruncate (tmpPath path)).1 := hentry
    have hrename : ((files.openTruncate (tmpPath path)).2.store
        (files.openTruncate (tmpPath path)).1 (recordBytes state)).rename (tmpPath path) path
        = some _ := rename_of_entry _ hstaged
    exact ⟨_, hrename, (read_rename_new _ hrename).trans (read_store_self _ hentry _)⟩

/-- **Persisting a state** replaces the state file, unless the process ends before the `rename`. -/
theorem persistStateHooked_run (state : CounterState) (crashPoint : Option PersistencePoint) :
    ∃ files', (persistStateHooked path state crashPoint).run files
        = (match crashPoint with
          | none | some .afterLock => .ok () files'
          | some point => .error (.exited (80 + point.code)) files') ∧
      files'.read path = if crashPoint = some .afterTemporarySync then files.read path
        else some (recordBytes state) := by
  obtain ⟨staged, hstaged, hread, files', hrename, hrecord⟩ := exists_staged path files state
  have hrun : (persistStateHooked path state crashPoint).run files
      = (do invokeHook crashPoint .afterTemporarySync
            replaceState path
            invokeHook crashPoint .afterReplace
            invokeHook crashPoint .afterDirectorySync : HookedRun PUnit).run staged :=
    hstaged _
  by_cases hcrash : crashPoint = some .afterTemporarySync
  · subst hcrash
    exact ⟨staged, hrun, hread⟩
  · -- the run goes on to its `rename`, and from there the record is in place
    refine ⟨files', ?_, by rw [if_neg hcrash, hrecord]⟩
    have hhook : (invokeHook crashPoint .afterTemporarySync).run staged = .ok () staged := by
      unfold invokeHook
      rw [if_neg hcrash]
      rfl
    have hreplace : (replaceState path).run staged = .ok () files' := by
      unfold replaceState
      show ((match staged.rename (tmpPath path) path with
        | some files => set files
        | none => throw (.fault (.thrown .systemError "replace nonce counter state")) :
          HookedRun PUnit)).run staged = _
      rw [hrename]
      rfl
    rw [hrun, run_bind_of_ok hhook, run_bind_of_ok hreplace]
    rcases crashPoint with _ | _ | _ | _ | _
    case some.afterTemporarySync => exact absurd rfl hcrash
    all_goals rfl

/-- A call on a recorded state: its hook, the exhausted counter, and the state it persists. -/
theorem allocateHooked_run {state : CounterState} (h : Recorded scope (files.read path) state)
    (crashPoint : Option PersistencePoint) :
    ∃ locked : CounterFiles, locked.read path = files.read path ∧
      (allocateHooked path scope crashPoint).run files
        = if crashPoint = some .afterLock then .error (.exited 80) locked
          else if state.exhausted then .error (.fault exhaustedFault) locked
          else (do persistStateHooked path state.advanced crashPoint
                   return state.next : HookedRun Nonce192).run locked := by
  have hlocked : (files.openCreate (lockPath path)).2.read path = files.read path :=
    read_openCreate_of_ne files (lockPath_ne path).symm
  have hload : (CounterRun.hooked (loadState path scope)).run (files.openCreate (lockPath path)).2
      = .ok state (files.openCreate (lockPath path)).2 := by
    have hrun := loadState_run path scope (files.openCreate (lockPath path)).2
    rw [hlocked, h.loaded_eq, lift_ok_run] at hrun
    exact CounterRun.hooked_run_of_ok hrun
  have hstart : (allocateHooked path scope crashPoint).run files
      = (invokeHook crashPoint .afterLock >>= fun _ =>
          CounterRun.hooked (loadState path scope) >>= fun current => do
            if current.exhausted then
              throw (.fault (.thrown .overflowError "192-bit nonce counter exhausted"))
            persistStateHooked path current.advanced crashPoint
            return current.next : HookedRun Nonce192).run
          (files.openCreate (lockPath path)).2 := rfl
  refine ⟨_, hlocked, ?_⟩
  by_cases hcrash : crashPoint = some .afterLock
  · rw [hstart, if_pos hcrash, hcrash]
    rfl
  · have hhook : (invokeHook crashPoint .afterLock).run (files.openCreate (lockPath path)).2
        = .ok () (files.openCreate (lockPath path)).2 := by
      unfold invokeHook
      rw [if_neg hcrash]
      rfl
    rw [hstart, if_neg hcrash, run_bind_of_ok hhook, run_bind_of_ok hload]
    split <;> rfl

/-- **A call is the abstract counter.**  What is recorded afterwards is the state that has counted
on, and the call ends as the abstract call does. -/
theorem attempt_refines {state : CounterState} (h : Recorded scope (files.read path) state)
    (crashPoint : Option PersistencePoint) :
    (attempt path scope crashPoint files).1.map nonceValue
        = (countAttempt state.value crashPoint).1 ∧
      ∃ state', Recorded scope ((attempt path scope crashPoint files).2.read path) state' ∧
        state'.value = (countAttempt state.value crashPoint).2 := by
  obtain ⟨locked, hlocked, hrun⟩ := allocateHooked_run path scope files h crashPoint
  by_cases hlock : crashPoint = some .afterLock
  · subst hlock
    rw [if_pos rfl] at hrun
    unfold attempt
    rw [hrun]
    exact ⟨rfl, state, hlocked ▸ h, rfl⟩
  rw [if_neg hlock] at hrun
  cases hexhausted : state.exhausted with
  | true =>
    -- nothing is left: every call but one of a parent ends its process
    have hlast : ¬ state.value < 2 ^ 192 :=
      ((CounterState.exhausted_iff state).mp hexhausted).symm.le.not_gt
    rw [if_pos hexhausted] at hrun
    unfold attempt
    rw [hrun]
    rcases crashPoint with _ | _ | _ | _ | _
    case some.afterLock => exact absurd rfl hlock
    all_goals
      unfold countAttempt
      simp only [if_neg hlast]
      exact ⟨rfl, state, hlocked ▸ h, rfl⟩
  | false =>
    have hvalue := CounterState.value_of_not_exhausted hexhausted
    have hleft : state.value < 2 ^ 192 := hvalue ▸ nonceValue_lt _
    have hnext : Recorded scope (some (recordBytes state.advanced)) state.advanced :=
      .inr ⟨rfl, (CounterState.scope_advanced state).trans h.scope_eq⟩
    have hadvanced := CounterState.value_advanced hexhausted
    obtain ⟨files', hpersist, hread⟩ :=
      persistStateHooked_run path locked state.advanced crashPoint
    rw [if_neg (by rw [hexhausted]; exact Bool.false_ne_true)] at hrun
    unfold attempt
    rcases crashPoint with _ | _ | _ | _ | _
    case some.afterLock => exact absurd rfl hlock
    case none =>
      rw [run_bind_of_ok hpersist] at hrun
      rw [hrun]
      unfold countAttempt
      simp only [if_pos hleft]
      exact ⟨congrArg CallEnd.returned hvalue.symm, _, hread ▸ hnext, hadvanced⟩
    case some.afterTemporarySync =>
      rw [run_bind_of_error hpersist] at hrun
      rw [hrun]
      unfold countAttempt
      simp only [if_pos hleft]
      refine ⟨rfl, state, ?_, rfl⟩
      rw [hread, if_pos rfl, hlocked]
      exact h
    all_goals
      rw [run_bind_of_error hpersist] at hrun
      rw [hrun]
      unfold countAttempt
      simp only [if_pos hleft]
      exact ⟨rfl, _, hread ▸ hnext, hadvanced⟩

end Attempts

/-! ## Without a hook -/

theorem CounterRun.hooked_bind {α β : Type} (x : CounterRun α) (f : α → CounterRun β) :
    (x >>= f).hooked = x.hooked >>= fun a => (f a).hooked := by
  funext files
  show EStateM.adaptExcept Stop.fault (x >>= f) files
    = EStateM.bind (EStateM.adaptExcept Stop.fault x) _ files
  simp only [EStateM.adaptExcept, EStateM.bind, bind]
  cases x files <;> rfl

/-- Persisting without a hook. -/
theorem persistStateHooked_none (path : ResolvedPath) (state : CounterState) :
    persistStateHooked path state none = (persistState path state).hooked := by
  have hreplace : replaceState path
      = CounterRun.hooked (do
          let files ← get
          match files.rename (tmpPath path) path with
          | some files => set files
          | none => throw (.thrown .systemError "replace nonce counter state")) := by
    funext files
    show (match files.rename (tmpPath path) path with
      | some files => set files
      | none => throw (.fault (.thrown .systemError "replace nonce counter state")) :
        HookedRun PUnit) files = EStateM.adaptExcept Stop.fault (match files.rename (tmpPath path)
          path with
        | some files => set files
        | none => throw (.thrown .systemError "replace nonce counter state") :
          CounterRun PUnit) files
    cases files.rename (tmpPath path) path <;> rfl
  unfold persistState persistStateHooked
  rw [CounterRun.hooked_bind]
  congr 1
  funext temporary
  rw [CounterRun.hooked_bind]
  congr 1
  funext _
  refine Eq.trans ?_ hreplace
  show (replaceState path >>= fun _ => pure PUnit.unit) = replaceState path
  exact bind_pure (replaceState path)

/-- Without a hook the call is `allocate`. -/
theorem allocateHooked_none (path : ResolvedPath) (scope : NonceScope128) :
    allocateHooked path scope none = (allocate path scope).hooked := by
  unfold allocate allocateHooked
  rw [CounterRun.hooked_bind]
  congr 1
  funext _
  rw [CounterRun.hooked_bind]
  show (CounterRun.hooked (loadState path scope) >>= fun current => do
      if current.exhausted then
        throw (.fault (.thrown .overflowError "192-bit nonce counter exhausted"))
      persistStateHooked path current.advanced none
      return current.next) = _
  congr 1
  funext current
  rw [persistStateHooked_none]
  cases current.exhausted with
  | true => rfl
  | false =>
    exact (CounterRun.hooked_bind (persistState path current.advanced)
      fun _ => pure current.next).symm

/-! ## Sequences of calls -/

/-- **Calls one after the other are the abstract counter.** -/
theorem attempts_refine (path : ResolvedPath) (scope : NonceScope128)
    (calls : List (Option PersistencePoint)) {files : CounterFiles} {state : CounterState}
    (h : Recorded scope (files.read path) state) :
    (attempts path scope calls files).1.map (CallEnd.map nonceValue)
        = (countAttempts state.value calls).1 ∧
      ∃ state', Recorded scope ((attempts path scope calls files).2.read path) state' ∧
        state'.value = (countAttempts state.value calls).2 := by
  induction calls generalizing files state with
  | nil => exact ⟨rfl, state, h, rfl⟩
  | cons crashPoint calls ih =>
    obtain ⟨hfirst, next, hnext, hcount⟩ := attempt_refines path scope files h crashPoint
    obtain ⟨hlater, last, hlast, htotal⟩ := ih hnext
    unfold attempts countAttempts
    dsimp only
    rw [List.map_cons, hfirst, hlater, ← hcount]
    exact ⟨rfl, last, hlast, htotal⟩

/-- The values of the calls that returned. -/
def returnedValues {α : Type} (ends : List (CallEnd α)) : List α :=
  ends.filterMap fun callEnd => match callEnd with
    | .returned a => some a
    | _ => none

theorem returnedValues_map {α β : Type} (f : α → β) (ends : List (CallEnd α)) :
    returnedValues (ends.map (CallEnd.map f)) = (returnedValues ends).map f := by
  induction ends with
  | nil => rfl
  | cons head tail ih =>
    cases head with
    | returned a => exact congrArg (f a :: ·) ih
    | threw fault => exact ih
    | exited status => exact ih

/-- The abstract counter never counts down, and returns what it counts. -/
theorem countAttempt_le (count : ℕ) (crashPoint : Option PersistencePoint) :
    count ≤ (countAttempt count crashPoint).2 ∧
      ∀ number, (countAttempt count crashPoint).1 = .returned number →
        number = count ∧ (countAttempt count crashPoint).2 = count + 1 := by
  unfold countAttempt
  generalize 2 ^ 192 = last
  by_cases hleft : count < last <;> rcases crashPoint with _ | _ | _ | _ | _ <;> simp [hleft]

/-- **The abstract counter returns ever higher numbers.** -/
theorem countAttempts_sorted (count : ℕ) (calls : List (Option PersistencePoint)) :
    (returnedValues (countAttempts count calls).1).Pairwise (· < ·) ∧
      ∀ number ∈ returnedValues (countAttempts count calls).1, count ≤ number := by
  induction calls generalizing count with
  | nil => exact ⟨List.Pairwise.nil, List.forall_mem_nil _⟩
  | cons crashPoint calls ih =>
    obtain ⟨hle, hreturned⟩ := countAttempt_le count crashPoint
    obtain ⟨hsorted, hbound⟩ := ih (countAttempt count crashPoint).2
    have hlater : ∀ number ∈ returnedValues (countAttempts (countAttempt count crashPoint).2
        calls).1, count ≤ number := fun number hnumber => hle.trans (hbound number hnumber)
    unfold countAttempts
    dsimp only
    cases hend : (countAttempt count crashPoint).1 with
    | returned number =>
      obtain ⟨rfl, hnext⟩ := hreturned number hend
      rw [hnext] at hsorted hbound
      show (number :: _).Pairwise _ ∧ ∀ other ∈ number :: _, _
      rw [hnext]
      refine ⟨List.pairwise_cons.mpr ⟨fun other hother => hbound other hother, hsorted⟩, ?_⟩
      exact List.forall_mem_cons.mpr ⟨le_rfl, fun other hother =>
        (Nat.le_succ _).trans (hbound other hother)⟩
    | threw fault => exact ⟨hsorted, hlater⟩
    | exited status => exact ⟨hsorted, hlater⟩

/-- **Recovery after crashes.**  From a recorded state, every sequence of calls of which any are
ended by their hook at any of the four points ends call by call as the abstract counter does, and
leaves the state it has counted to; so a number is skipped exactly for a call that was ended after
its `rename`, and no nonce is returned twice. -/
theorem crash_recovery_exact (path : ResolvedPath) (scope : NonceScope128)
    (calls : List (Option PersistencePoint)) {files : CounterFiles} {state : CounterState}
    (h : Recorded scope (files.read path) state) :
    (attempts path scope calls files).1.map (CallEnd.map nonceValue)
        = (countAttempts state.value calls).1 ∧
      (∃ state', Recorded scope ((attempts path scope calls files).2.read path) state' ∧
        state'.value = (countAttempts state.value calls).2) ∧
      (returnedValues (attempts path scope calls files).1).Pairwise
        (fun a b => nonceValue a < nonceValue b) := by
  obtain ⟨hends, hstate⟩ := attempts_refine path scope calls h
  refine ⟨hends, hstate, List.pairwise_map.mp ?_⟩
  rw [← returnedValues_map, hends]
  exact (countAttempts_sorted state.value calls).1

/-- The calls of `test_crash_points` on one state file: the two calls around a crash return
consecutive numbers where it came before the `rename`, and skip one where it came after. -/
theorem crash_recovery_exact_points :
    (attempts (localFile (text "crash.state") (by decide)) (Vector.replicate 16 0x50)
      [none, some .afterTemporarySync, none, some .afterReplace, none] .empty).1.map
        (CallEnd.map nonceValue)
      = [.returned 0, .exited 81, .returned 1, .exited 82, .returned 3] := by
  have hrecovery := @crash_recovery_exact (localFile (text "crash.state") (by decide))
    (Vector.replicate 16 0x50)
    [none, some .afterTemporarySync, none, some .afterReplace, none]
    .empty (.initial (Vector.replicate 16 0x50)) (.inl ⟨rfl, rfl⟩)
  rw [hrecovery.1, CounterState.value_initial]
  rfl

/-! ## The detector -/

/-- `NonceObservation`. -/
inductive NonceObservation : Type where
  | fresh
  | reused
  deriving DecidableEq, Repr

/-- `NonceReuseDetector`: the pairs of an encryption key and a nonce it has seen. -/
structure NonceReuseDetector : Type where
  seen : Finset (ResearchKey256 × Nonce192)

namespace NonceReuseDetector

/-- `observe`. -/
def observe (detector : NonceReuseDetector) (encryptionKey : ResearchKey256) (nonce : Nonce192) :
    NonceObservation × NonceReuseDetector :=
  if (encryptionKey, nonce) ∈ detector.seen then (.reused, detector)
  else (.fresh, ⟨insert (encryptionKey, nonce) detector.seen⟩)

/-- `observations`. -/
def observations (detector : NonceReuseDetector) : ℕ := detector.seen.card

/-- One observation after the other. -/
def observeAll (detector : NonceReuseDetector) :
    List (ResearchKey256 × Nonce192) → List NonceObservation × NonceReuseDetector
  | [] => ([], detector)
  | pair :: pairs =>
    let first := detector.observe pair.1 pair.2
    let later := first.2.observeAll pairs
    (first.1 :: later.1, later.2)

variable (detector : NonceReuseDetector) (pairs : List (ResearchKey256 × Nonce192))

/-- What is seen after an observation, whatever it was. -/
theorem seen_observe (pair : ResearchKey256 × Nonce192) :
    (detector.observe pair.1 pair.2).2.seen = insert pair detector.seen := by
  unfold observe
  split
  next hseen => exact (Finset.insert_eq_self.mpr hseen).symm
  next => rfl

/-- **What is seen** after a sequence. -/
theorem seen_observeAll : (detector.observeAll pairs).2.seen = pairs.toFinset ∪ detector.seen := by
  induction pairs generalizing detector with
  | nil => exact (Finset.empty_union _).symm
  | cons pair pairs ih =>
    show ((detector.observe pair.1 pair.2).2.observeAll pairs).2.seen = _
    rw [ih, seen_observe, List.toFinset_cons, Finset.union_insert, Finset.insert_union]

theorem observeAll_append (later : List (ResearchKey256 × Nonce192)) :
    (detector.observeAll (pairs ++ later)).1
      = (detector.observeAll pairs).1 ++ ((detector.observeAll pairs).2.observeAll later).1 := by
  induction pairs generalizing detector with
  | nil => rfl
  | cons pair pairs ih => exact congrArg (_ :: ·) (ih _)

variable {detector pairs}

/-- Pairs that are all new are all reported so. -/
theorem observeAll_fresh (hnodup : pairs.Nodup) (hnew : ∀ pair ∈ pairs, pair ∉ detector.seen) :
    (detector.observeAll pairs).1 = List.replicate pairs.length .fresh := by
  induction pairs generalizing detector with
  | nil => rfl
  | cons pair pairs ih =>
    obtain ⟨hfirst, hlater⟩ := List.nodup_cons.mp hnodup
    obtain ⟨hunseen, hothers⟩ := List.forall_mem_cons.mp hnew
    have hreport : (detector.observe pair.1 pair.2).1 = .fresh := by
      unfold observe
      rw [if_neg hunseen]
    show (detector.observe pair.1 pair.2).1
      :: ((detector.observe pair.1 pair.2).2.observeAll pairs).1 = _
    rw [hreport, ih hlater, List.length_cons, List.replicate_succ]
    intro other hother hseen
    rw [seen_observe] at hseen
    rcases Finset.mem_insert.mp hseen with rfl | hbefore
    · exact hfirst hother
    · exact hothers other hother hbefore

/-- Pairs that were all seen before are all reported so. -/
theorem observeAll_reused (hseen : ∀ pair ∈ pairs, pair ∈ detector.seen) :
    (detector.observeAll pairs).1 = List.replicate pairs.length .reused := by
  induction pairs generalizing detector with
  | nil => rfl
  | cons pair pairs ih =>
    obtain ⟨hfirst, hothers⟩ := List.forall_mem_cons.mp hseen
    have hreport : (detector.observe pair.1 pair.2).1 = .reused := by
      unfold observe
      rw [if_pos hfirst]
    show (detector.observe pair.1 pair.2).1
      :: ((detector.observe pair.1 pair.2).2.observeAll pairs).1 = _
    rw [hreport, ih, List.length_cons, List.replicate_succ]
    intro other hother
    rw [seen_observe]
    exact Finset.mem_insert_of_mem (hothers other hother)

end NonceReuseDetector

/-! ## Snapshots -/

/-- `std::filesystem::copy_file`, with `copy_options::none` or `overwrite_existing`. -/
def copyFile (overwrite : Bool) (source target : ResolvedPath) : CounterRun PUnit := do
  let files ← get
  match files.read source with
  | none => throw (.thrown .systemError "cannot copy file: No such file or directory")
  | some bytes =>
    if files.entry target ≠ none ∧ (overwrite = false ∨ files.entry target = files.entry source)
    then throw (.thrown .systemError "cannot copy file: File exists")
    else
      let opened := files.openTruncate target
      set (opened.2.writeAt opened.1 0 bytes)

/-- Calls of `allocate` one after the other. -/
def allocateTimes (path : ResolvedPath) (scope : NonceScope128) : ℕ → CounterRun (List Nonce192)
  | 0 => pure []
  | n + 1 => do
    let nonce ← allocate path scope
    let later ← allocateTimes path scope n
    return nonce :: later

/-- The calls of `test_snapshot_rollback`: a copy of the state file is taken after some calls, put
back after further ones, and more calls follow.  Both branches are returned. -/
def snapshotRollback (path snapshot : ResolvedPath) (scope : NonceScope128)
    (before branch replay : ℕ) : CounterRun (List Nonce192 × List Nonce192) := do
  let _ ← allocateTimes path scope before
  copyFile false path snapshot
  let firstBranch ← allocateTimes path scope branch
  copyFile true snapshot path
  let replayed ← allocateTimes path scope replay
  return (firstBranch, replayed)

/-- **A copy** has the bytes of its source, and nothing else changes. -/
theorem copyFile_run {source target : ResolvedPath} {files : CounterFiles} {bytes : List U8}
    (hsource : files.read source = some bytes) {overwrite : Bool}
    (htarget : files.read target = none ∨ overwrite = true ∧ target ≠ source) :
    ∃ files', (copyFile overwrite source target).run files = .ok () files' ∧
      files'.read target = some bytes ∧
      ∀ name, name ≠ target → files'.read name = files.read name := by
  have hentry : (files.openTruncate target).2.entry target = some (files.openTruncate target).1 :=
    entry_openTruncate_self files
  have hwritten : (files.openTruncate target).2.writeAt (files.openTruncate target).1 0 bytes
      = (files.openTruncate target).2.store (files.openTruncate target).1 bytes := by
    unfold Files.writeAt
    rw [content_openTruncate]
    simp
  have hfree : ¬ (files.entry target ≠ none ∧
      (overwrite = false ∨ files.entry target = files.entry source)) := by
    rintro ⟨hthere, hblocked⟩
    rcases htarget with hnone | ⟨hoverwrite, hne⟩
    · exact hthere ((read_eq_none_iff files).mp hnone)
    · rcases hblocked with hfalse | hsame
      · exact absurd (hoverwrite.symm.trans hfalse) (by decide)
      · -- two names of one file are the same name
        obtain ⟨inode, hinode⟩ := Option.ne_none_iff_exists'.mp hthere
        exact hne (files.entry_inj _ _ _ hinode (hsame ▸ hinode))
  refine ⟨(files.openTruncate target).2.store (files.openTruncate target).1 bytes, ?_,
    read_store_self _ hentry _, fun name hname => ?_⟩
  · unfold copyFile
    show ((match files.read source with
      | none => throw (.thrown .systemError "cannot copy file: No such file or directory")
      | some bytes =>
        if files.entry target ≠ none ∧
            (overwrite = false ∨ files.entry target = files.entry source)
        then throw (.thrown .systemError "cannot copy file: File exists")
        else set ((files.openTruncate target).2.writeAt (files.openTruncate target).1 0 bytes) :
          CounterRun PUnit)).run files = _
    rw [hsource]
    dsimp only
    rw [if_neg hfree, hwritten]
    rfl
  · exact (read_store_of_ne _ hentry hname _).trans (read_openTruncate_of_ne files hname)

/-- One call that has a nonce left. -/
theorem allocate_run_of_lt {path : ResolvedPath} {scope : NonceScope128} {files : CounterFiles}
    {state : CounterState} (h : Recorded scope (files.read path) state)
    (hleft : state.value < 2 ^ 192) :
    ∃ files', (allocate path scope).run files = .ok state.next files' ∧
      nonceValue state.next = state.value ∧ state.advanced.value = state.value + 1 ∧
      files'.read path = some (recordBytes state.advanced) ∧ state.advanced.scope = scope ∧
      ∀ name, name ≠ path → name ≠ tmpPath path → name ≠ lockPath path →
        files'.read name = files.read name := by
  rcases h.allocateRecord_cases with ⟨-, hcall, hvalue, hadvanced, -⟩ | ⟨hlast, -⟩
  · obtain ⟨hreturned, hread, -, -, hframe⟩ := allocate_run path scope files
    rw [hcall] at hreturned hread
    cases hrun : (allocate path scope).run files with
    | ok nonce files' =>
      unfold CounterRun.returned at hreturned
      unfold CounterRun.after at hread hframe
      rw [hrun] at hreturned hread hframe
      obtain rfl := Except.ok.inj hreturned
      exact ⟨files', rfl, hvalue, hadvanced, hread,
        (CounterState.scope_advanced state).trans h.scope_eq, hframe⟩
    | error e files' =>
      unfold CounterRun.returned at hreturned
      rw [hrun] at hreturned
      cases hreturned
  · exact absurd hlast hleft.ne

/-- The nonces that follow a state. -/
def nonceSequence (state : CounterState) : ℕ → List Nonce192
  | 0 => []
  | n + 1 => state.next :: nonceSequence state.advanced n

/-- They begin alike, however many of them are taken. -/
theorem nonceSequence_add (state : CounterState) (m n : ℕ) :
    ∃ later, nonceSequence state (m + n) = nonceSequence state m ++ nonceSequence later n := by
  induction m generalizing state with
  | zero => exact ⟨state, by rw [Nat.zero_add]; rfl⟩
  | succ m ih =>
    obtain ⟨later, hlater⟩ := ih state.advanced
    refine ⟨later, ?_⟩
    rw [Nat.succ_add]
    exact congrArg (state.next :: ·) hlater

theorem take_nonceSequence (state : CounterState) (m n : ℕ) :
    (nonceSequence state n).take m = nonceSequence state (min m n) := by
  induction n generalizing state m with
  | zero => rw [Nat.min_zero]; exact List.take_nil
  | succ n ih =>
    cases m with
    | zero => rw [Nat.zero_min]; rfl
    | succ m =>
      rw [Nat.succ_min_succ]
      exact congrArg (state.next :: ·) (ih state.advanced m)

theorem length_nonceSequence (state : CounterState) (n : ℕ) :
    (nonceSequence state n).length = n := by
  induction n generalizing state with
  | zero => rfl
  | succ n ih => exact congrArg Nat.succ (ih state.advanced)

/-- **Calls that have their nonces left** return the nonces that follow, which have the next
numbers. -/
theorem allocateTimes_run {path : ResolvedPath} {scope : NonceScope128} (n : ℕ)
    {files : CounterFiles} {state : CounterState} (h : Recorded scope (files.read path) state)
    (hleft : state.value + n ≤ 2 ^ 192) :
    ∃ files' state', (allocateTimes path scope n).run files
        = .ok (nonceSequence state n) files' ∧
      (nonceSequence state n).map nonceValue = List.range' state.value n ∧
      Recorded scope (files'.read path) state' ∧ state'.value = state.value + n ∧
      (0 < n → files'.read path = some (recordBytes state')) ∧
      ∀ name, name ≠ path → name ≠ tmpPath path → name ≠ lockPath path →
        files'.read name = files.read name := by
  induction n generalizing files state with
  | zero => exact ⟨files, state, rfl, rfl, h, rfl, fun hpos => absurd hpos (by simp),
      fun _ _ _ _ => rfl⟩
  | succ n ih =>
    obtain ⟨next, hcall, hvalue, hadvanced, hread, hscope, hframe⟩ :=
      allocate_run_of_lt h (by omega)
    obtain ⟨files', state', hrun, hnonces, hrecorded, htotal, hthere, hframe'⟩ :=
      @ih next state.advanced (.inr ⟨hread, hscope⟩) (by omega)
    refine ⟨files', state', ?_, ?_, hrecorded, by omega, fun _ => ?_,
      fun name hpath htmp hlock =>
        (hframe' name hpath htmp hlock).trans (hframe name hpath htmp hlock)⟩
    · unfold allocateTimes
      rw [run_bind_of_ok hcall, run_bind_of_ok hrun]
      rfl
    · unfold nonceSequence
      rw [List.map_cons, hnonces, hvalue, hadvanced, List.range'_succ]
    · rcases Nat.eq_zero_or_pos n with rfl | hpos
      · obtain ⟨-, rfl⟩ := EStateM.Result.ok.inj hrun
        rcases hrecorded with ⟨hnone, -⟩ | ⟨hsome, -⟩
        · exact absurd (hnone.symm.trans hread) (by simp)
        · exact hsome
      · exact hthere hpos

/-- What the detector reports on two branches from one state: the repeated nonces, and no
others. -/
theorem observeAll_branches (key : ResearchKey256) (state : CounterState) (branch replay : ℕ)
    (hnodup : (nonceSequence state (max branch replay)).Nodup) :
    (NonceReuseDetector.observeAll ⟨∅⟩
        ((nonceSequence state branch ++ nonceSequence state replay).map (key, ·))).1
      = List.replicate branch .fresh ++ List.replicate (min branch replay) .reused
        ++ List.replicate (replay - branch) .fresh := by
  obtain ⟨later, hreplay⟩ := nonceSequence_add state (min branch replay) (replay - branch)
  obtain ⟨rest, hbranch⟩ := nonceSequence_add state (min branch replay) (branch - replay)
  rw [show min branch replay + (replay - branch) = replay by omega] at hreplay
  rw [show min branch replay + (branch - replay) = branch by omega] at hbranch
  have hpairs : ∀ {nonces : List Nonce192}, nonces.Nodup → (nonces.map (key, ·)).Nodup :=
    fun h => h.map fun _ _ heq => (Prod.mk.inj heq).2
  -- one branch continues the other, so the longer one has both
  have hall : (nonceSequence state branch ++ nonceSequence later (replay - branch)).Nodup := by
    rcases Nat.le_total replay branch with hle | hle
    · rw [Nat.sub_eq_zero_of_le hle]
      rw [max_eq_left hle] at hnodup
      exact (List.append_nil (nonceSequence state branch)).symm ▸ hnodup
    · rw [max_eq_right hle, hreplay, min_eq_left hle] at hnodup
      exact hnodup
  obtain ⟨hfirst, hlast, hapart⟩ := List.nodup_append.mp hall
  rw [List.map_append, NonceReuseDetector.observeAll_append,
    NonceReuseDetector.observeAll_fresh (hpairs hfirst) (fun _ _ => Finset.notMem_empty _),
    hreplay, List.map_append, NonceReuseDetector.observeAll_append,
    NonceReuseDetector.observeAll_reused, NonceReuseDetector.observeAll_fresh (hpairs hlast)]
  · simp only [List.length_map, length_nonceSequence, List.append_assoc]
  · intro pair hpair hseen
    obtain ⟨nonce, hnonce, rfl⟩ := List.mem_map.mp hpair
    rw [NonceReuseDetector.seen_observeAll, NonceReuseDetector.seen_observeAll] at hseen
    have hbefore : nonce ∈ nonceSequence state branch := by
      rw [hbranch]
      rw [hbranch] at hseen
      simpa using hseen
    exact hapart nonce hbefore nonce hnonce rfl
  · intro pair hpair
    rw [NonceReuseDetector.seen_observeAll, Finset.union_empty, List.mem_toFinset, hbranch,
      List.map_append]
    exact List.mem_append_left _ hpair

/-- Both branches follow the state that was copied. -/
theorem snapshotRollback_run {path snapshot : ResolvedPath} {scope : NonceScope128}
    {before branch replay : ℕ} {files : CounterFiles} {state : CounterState}
    (h : Recorded scope (files.read path) state) (hbefore : 0 < before)
    (hfree : files.read snapshot = none)
    (hnames : snapshot ≠ path ∧ snapshot ≠ tmpPath path ∧ snapshot ≠ lockPath path)
    (hleft : state.value + before + max branch replay ≤ 2 ^ 192) :
    ∃ base files', (snapshotRollback path snapshot scope before branch replay).run files
        = .ok (nonceSequence base branch, nonceSequence base replay) files' ∧
      base.value = state.value + before ∧
      ∀ n ≤ max branch replay,
        (nonceSequence base n).map nonceValue = List.range' base.value n := by
  obtain ⟨hpath, htmp, hlock⟩ := hnames
  obtain ⟨files₁, base, hrun₁, -, hrecorded₁, hbase, hthere, hframe₁⟩ :=
    allocateTimes_run before h (by omega)
  obtain ⟨files₂, hrun₂, hcopy, hframe₂⟩ := @copyFile_run _ _ _ _ (hthere hbefore) false
    (.inl ((hframe₁ snapshot hpath htmp hlock).trans hfree))
  have hrecorded₂ : Recorded scope (files₂.read path) base := by
    rw [hframe₂ path hpath.symm]
    exact hrecorded₁
  obtain ⟨files₃, -, hrun₃, -, -, -, -, hframe₃⟩ :=
    allocateTimes_run branch hrecorded₂ (by omega)
  obtain ⟨files₄, hrun₄, hrestored, -⟩ := @copyFile_run _ path _ _
    ((hframe₃ snapshot hpath htmp hlock).trans hcopy) true (.inr ⟨rfl, hpath.symm⟩)
  have hrecorded₄ : Recorded scope (files₄.read path) base := .inr ⟨hrestored, hrecorded₁.scope_eq⟩
  obtain ⟨files₅, -, hrun₅, -⟩ := allocateTimes_run replay hrecorded₄ (by omega)
  refine ⟨base, files₅, ?_, hbase, fun n hn => ?_⟩
  · unfold snapshotRollback
    rw [run_bind_of_ok hrun₁, run_bind_of_ok hrun₂, run_bind_of_ok hrun₃, run_bind_of_ok hrun₄,
      run_bind_of_ok hrun₅]
    rfl
  · obtain ⟨-, -, -, hvalues, -⟩ := allocateTimes_run n hrecorded₄ (by omega)
    exact hvalues

/-- **An older copy repeats the nonces.**  Where a copy of the state file is put back, the calls
after it return the nonces of the calls after the copy was taken, one by one from the first, and
only beyond them new ones.  A new detector that is fed both branches, one after the other and under
one key, reports exactly these repetitions. -/
theorem snapshot_rollback_exact (path snapshot : ResolvedPath) (scope : NonceScope128)
    (key : ResearchKey256) (before branch replay : ℕ) {files : CounterFiles}
    {state : CounterState} (h : Recorded scope (files.read path) state) (hbefore : 0 < before)
    (hfree : files.read snapshot = none)
    (hnames : snapshot ≠ path ∧ snapshot ≠ tmpPath path ∧ snapshot ≠ lockPath path)
    (hleft : state.value + before + max branch replay ≤ 2 ^ 192) :
    ∃ firstBranch replayed files', (snapshotRollback path snapshot scope before branch replay).run
        files = .ok (firstBranch, replayed) files' ∧
      firstBranch.map nonceValue = List.range' (state.value + before) branch ∧
      replayed.map nonceValue = List.range' (state.value + before) replay ∧
      replayed.take branch = firstBranch.take replay ∧
      (NonceReuseDetector.observeAll ⟨∅⟩ ((firstBranch ++ replayed).map (key, ·))).1
        = List.replicate branch .fresh ++ List.replicate (min branch replay) .reused
          ++ List.replicate (replay - branch) .fresh := by
  obtain ⟨base, files', hrun, hbase, hvalues⟩ :=
    snapshotRollback_run h hbefore hfree hnames hleft
  refine ⟨nonceSequence base branch, nonceSequence base replay, files', hrun,
    hbase ▸ hvalues branch (le_max_left _ _), hbase ▸ hvalues replay (le_max_right _ _), ?_, ?_⟩
  · rw [take_nonceSequence, take_nonceSequence, min_comm]
  · apply observeAll_branches
    refine List.Nodup.of_map nonceValue ?_
    rw [hvalues _ le_rfl]
    exact List.nodup_range'

/-- The campaign's own snapshot: eight calls, a copy, eight calls, and the same eight nonces
again. -/
theorem snapshot_rollback_exact_eight :
    ∃ firstBranch replayed files', (snapshotRollback (localFile (text "rollback.state") (by decide))
        (localFile (text "rollback.snapshot") (by decide)) (Vector.replicate 16 0xA0) 8 8 8).run
          .empty = .ok (firstBranch, replayed) files' ∧
      replayed.take 8 = firstBranch.take 8 ∧
      (NonceReuseDetector.observeAll ⟨∅⟩
          ((firstBranch ++ replayed).map (Vector.replicate 32 0x33, ·))).1
        = List.replicate 8 .fresh ++ List.replicate 8 .reused := by
  obtain ⟨firstBranch, replayed, files', hrun, -, -, htake, hreports⟩ :=
    @snapshot_rollback_exact (localFile (text "rollback.state") (by decide))
      (localFile (text "rollback.snapshot") (by decide)) (Vector.replicate 16 0xA0)
      (Vector.replicate 32 0x33) 8 8 8 .empty (.initial (Vector.replicate 16 0xA0))
      (.inl ⟨rfl, rfl⟩) (by decide) rfl (by decide)
      (by rw [CounterState.value_initial]; norm_num)
  exact ⟨firstBranch, replayed, files', hrun, htake, hreports⟩
