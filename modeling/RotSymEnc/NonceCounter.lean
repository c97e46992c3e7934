/-
# The persistent nonce counter

`PersistentNonceCounter::allocate`, call by call: the counter lives in a state file,
the next state is staged in a temporary file and renamed over it, and a lock file
keeps the calls apart.  This module has the call of one process that nobody
disturbs; it sees the file system through the bytes of the state file only, and
there it is an abstract counter from 0 to `2^192`.

A state path is given here as the kernel resolves it, since two spellings may name one
file.  The other two names are made from the path as it is spelled, and resolved then:
that is the same as making them from the resolved one.
-/
import RotSymEnc.CommandLine
import RotSymEnc.CounterRecord
import RotSymEnc.PathNames
import RotSymEnc.PosixFiles

open StatefulRuns PosixFiles PathNames

/-! ## Counting -/

/-- The loop of `increment`, with the bytes before index `i` still to go. -/
def incrementFrom (nonce : Nonce192) : (i : ℕ) → i ≤ 24 → Bool × Nonce192
  | 0, _ => (false, nonce)
  | i + 1, h =>
    if nonce.get ⟨i, h⟩ ≠ 0xFF then (true, nonce.set i (nonce.get ⟨i, h⟩ + 1) h)
    else incrementFrom (nonce.set i 0 h) i (Nat.le_of_succ_le h)

/-- `increment`, with the nonce it leaves. -/
def increment (nonce : Nonce192) : Bool × Nonce192 := incrementFrom nonce 24 le_rfl

/-- The number of a nonce, whose bytes are big-endian. -/
def nonceValue (nonce : Nonce192) : ℕ := ∑ i : Fin 24, (nonce.get i).toNat * 256 ^ (23 - i.val)

/-- Storing a byte exchanges its place value. -/
theorem nonceValue_set (nonce : Nonce192) (i : Fin 24) (value : U8) :
    nonceValue (nonce.set i value) + (nonce.get i).toNat * 256 ^ (23 - i.val)
      = nonceValue nonce + value.toNat * 256 ^ (23 - i.val) := by
  unfold nonceValue
  rw [← Finset.add_sum_erase _ _ (Finset.mem_univ i),
    ← Finset.add_sum_erase _ (fun i => (nonce.get i).toNat * 256 ^ (23 - i.val))
      (Finset.mem_univ i)]
  have hself : (nonce.set i value).get i = value := Vector.getElem_set_self i.isLt
  have hothers : ∀ j ∈ Finset.univ.erase i, ((nonce.set i value).get j).toNat * 256 ^ (23 - j.val)
      = (nonce.get j).toNat * 256 ^ (23 - j.val) := by
    intro j hj
    have hne : i.val ≠ j.val := fun heq => (Finset.mem_erase.mp hj).1 (Fin.ext heq.symm)
    have hget : (nonce.set i value).get j = nonce.get j := Vector.getElem_set_ne _ j.isLt hne
    rw [hget]
  rw [hself, Finset.sum_congr rfl hothers]
  ring

theorem nonceValue_lt (nonce : Nonce192) : nonceValue nonce < 2 ^ 192 := by
  have hdigits : nonceValue nonce ≤ ∑ i : Fin 24, 255 * 256 ^ (23 - i.val) := by
    refine Finset.sum_le_sum fun i _ => Nat.mul_le_mul_right _ ?_
    have hbyte := (nonce.get i).isLt
    omega
  have htotal : ∑ i : Fin 24, 255 * 256 ^ (23 - i.val) = 2 ^ 192 - 1 := by decide
  omega

/-- **The loop of `increment`** adds the place value of the byte it starts from; where it
runs out of bytes, a carry is lost. -/
theorem nonceValue_incrementFrom (nonce : Nonce192) (i : ℕ) (h : i ≤ 24) :
    nonceValue (incrementFrom nonce i h).2 + (if (incrementFrom nonce i h).1 then 0 else 256 ^ 24)
      = nonceValue nonce + 256 ^ (24 - i) := by
  induction i generalizing nonce with
  | zero => simp [incrementFrom]
  | succ i ih =>
    have hplace : 24 - (i + 1) = 23 - i := by omega
    have hcarry : 256 ^ (24 - i) = 256 * 256 ^ (23 - i) := by
      rw [show 24 - i = 23 - i + 1 by omega, Nat.pow_succ, Nat.mul_comm]
    unfold incrementFrom
    by_cases hbyte : nonce.get ⟨i, h⟩ = 0xFF
    · -- the byte overflows: 255 places go, and the next place gets one
      have hset := nonceValue_set nonce ⟨i, h⟩ 0
      rw [if_neg (not_not.mpr hbyte), ih (nonce.set i 0 h) (Nat.le_of_succ_le h), hplace, hcarry]
      rw [hbyte, show (0xFF : U8).toNat = 255 from rfl, show (0 : U8).toNat = 0 from rfl,
        Nat.zero_mul] at hset
      dsimp only at hset
      omega
    · have hset := nonceValue_set nonce ⟨i, h⟩ (nonce.get ⟨i, h⟩ + 1)
      have hsucc : (nonce.get ⟨i, h⟩ + 1).toNat = (nonce.get ⟨i, h⟩).toNat + 1 := by
        bv_omega
      rw [if_pos hbyte, hplace]
      rw [hsucc, Nat.succ_mul] at hset
      change nonceValue (nonce.set i (nonce.get ⟨i, h⟩ + 1) h) + _ = _ at hset
      rw [if_pos rfl]
      dsimp only at hset ⊢
      omega

/-- **`increment`** counts on, or finds all bytes at their maximum. -/
theorem increment_cases (nonce : Nonce192) :
    ((increment nonce).1 = true ∧ nonceValue (increment nonce).2 = nonceValue nonce + 1) ∨
      ((increment nonce).1 = false ∧ nonceValue nonce + 1 = 2 ^ 192) := by
  have hvalue := nonceValue_incrementFrom nonce 24 le_rfl
  have hbound := nonceValue_lt nonce
  have hpow : 256 ^ 24 = 2 ^ 192 := by norm_num
  rw [Nat.sub_self, Nat.pow_zero, hpow] at hvalue
  change nonceValue (increment nonce).2 + (if (increment nonce).1 then 0 else 2 ^ 192) = _ at hvalue
  cases hcarry : (increment nonce).1 with
  | true =>
    rw [hcarry, if_pos rfl, Nat.add_zero] at hvalue
    exact .inl ⟨rfl, hvalue⟩
  | false =>
    rw [hcarry, if_neg Bool.false_ne_true] at hvalue
    exact .inr ⟨rfl, by omega⟩

namespace CounterState

/-- The state of a counter that has no state file yet. -/
def initial (scope : NonceScope128) : CounterState := ⟨scope, Vector.replicate 24 0, false⟩

/-- The state that `allocate` persists before it returns `current.next`. -/
def advanced (current : CounterState) : CounterState :=
  let incremented := increment current.next
  if incremented.1 then { current with next := incremented.2 }
  else { current with next := current.next, exhausted := true }

/-- The number of nonces up to this state: `2^192` once they are exhausted. -/
def value (state : CounterState) : ℕ := if state.exhausted then 2 ^ 192 else nonceValue state.next

theorem value_le (state : CounterState) : state.value ≤ 2 ^ 192 := by
  unfold value
  split
  · exact le_rfl
  · exact (nonceValue_lt _).le

theorem value_of_not_exhausted {state : CounterState} (h : state.exhausted = false) :
    state.value = nonceValue state.next := by
  unfold value
  rw [h, if_neg Bool.false_ne_true]

/-- The counter is exhausted exactly when it has counted to the end. -/
theorem exhausted_iff (state : CounterState) : state.exhausted = true ↔ state.value = 2 ^ 192 := by
  unfold value
  cases state.exhausted with
  | true => simp
  | false => simpa using (nonceValue_lt _).ne

@[simp] theorem value_initial (scope : NonceScope128) : (initial scope).value = 0 := by
  show nonceValue (Vector.replicate 24 0) = 0
  decide

@[simp] theorem scope_advanced (current : CounterState) :
    current.advanced.scope = current.scope := by
  unfold advanced
  dsimp only
  split <;> rfl

/-- **The persisted state** has counted one further. -/
theorem value_advanced {current : CounterState} (h : current.exhausted = false) :
    current.advanced.value = current.value + 1 := by
  rw [value_of_not_exhausted h]
  unfold advanced
  rcases increment_cases current.next with ⟨hcarry, hvalue⟩ | ⟨hcarry, hvalue⟩
  · dsimp only
    rw [if_pos hcarry, value_of_not_exhausted (by exact h)]
    exact hvalue
  · dsimp only
    rw [hcarry, if_neg Bool.false_ne_true]
    exact hvalue.symm

end CounterState

/-! ## One undisturbed call -/

/-- `temporary_path`, resolved. -/
def tmpPath (path : ResolvedPath) : ResolvedPath := path.append (text ".tmp") (by decide)

/-- `lock_path`, resolved. -/
def lockPath (path : ResolvedPath) : ResolvedPath := path.append (text ".lock") (by decide)

/-- The file that `state_path.string() + ".tmp"` names. -/
theorem resolve_tmpPath {directoryOf : Text → Option ℕ} {statePath : Text} {path : ResolvedPath}
    (h : resolve directoryOf statePath = some path) :
    resolve directoryOf (statePath ++ text ".tmp") = some (tmpPath path) :=
  resolve_append _ h

/-- The file that `state_path.string() + ".lock"` names. -/
theorem resolve_lockPath {directoryOf : Text → Option ℕ} {statePath : Text} {path : ResolvedPath}
    (h : resolve directoryOf statePath = some path) :
    resolve directoryOf (statePath ++ text ".lock") = some (lockPath path) :=
  resolve_append _ h

/-- A file in the working directory. -/
def localFile (name : Text) (h : IsFileName name) : ResolvedPath := ⟨0, name, h⟩

/-- The file system of the counters. -/
abbrev CounterFiles := Files ResolvedPath U8

/-- A run on the file system. -/
abbrev CounterRun := EStateM Fault CounterFiles

/-- What `load_state` makes of the bytes of the state file. -/
def decodeRecord (scope : NonceScope128) (content : List U8) : Except Fault CounterState := do
  if h : content.toArray.size = kStateBytes then
    let state ← decodeState ⟨content.toArray, h⟩
    if state.scope ≠ scope then
      throw (.thrown .invalidArgument "nonce counter scope does not match state file")
    return state
  else
    throw (.thrown .runtimeError "nonce counter state has an invalid size")

/-- The bytes of the record of a state. -/
@[irreducible] def recordBytes (state : CounterState) : List U8 := (encodeState state).toList

@[simp] theorem length_recordBytes (state : CounterState) :
    (recordBytes state).length = kStateBytes := by
  unfold recordBytes
  exact Vector.length_toList

/-- `load_state`. -/
def loadState (path : ResolvedPath) (scope : NonceScope128) : CounterRun CounterState := do
  let files ← get
  match files.read path with
  | none => return .initial scope
  | some content => lift (decodeRecord scope content)

/-- `persist_state`. -/
def persistState (path : ResolvedPath) (state : CounterState) : CounterRun PUnit := do
  let temporary ← modifyGet fun files => files.openTruncate (tmpPath path)
  modify fun files => files.writeAt temporary 0 (recordBytes state)
  let files ← get
  match files.rename (tmpPath path) path with
  | some files => set files
  | none => throw (.thrown .systemError "replace nonce counter state")

/-- `PersistentNonceCounter::allocate`. -/
def allocate (path : ResolvedPath) (scope : NonceScope128) : CounterRun Nonce192 := do
  let _ ← modifyGet fun files => files.openCreate (lockPath path)
  let current ← loadState path scope
  if current.exhausted then
    throw (.thrown .overflowError "192-bit nonce counter exhausted")
  persistState path current.advanced
  return current.next

@[simp] theorem length_tmpPath (path : ResolvedPath) :
    (tmpPath path).name.length = path.name.length + 4 :=
  List.length_append

@[simp] theorem length_lockPath (path : ResolvedPath) :
    (lockPath path).name.length = path.name.length + 5 :=
  List.length_append

theorem tmpPath_ne (path : ResolvedPath) : tmpPath path ≠ path :=
  path.append_ne _ (by decide)

theorem lockPath_ne (path : ResolvedPath) : lockPath path ≠ path :=
  path.append_ne _ (by decide)

theorem lockPath_ne_tmpPath (path : ResolvedPath) : lockPath path ≠ tmpPath path :=
  path.append_ne_append _ _ (by decide)

/-! ## The bytes of the state file -/

/-- What a call returns or throws. -/
def CounterRun.returned {α : Type} (x : CounterRun α) (files : CounterFiles) : Except Fault α :=
  match x.run files with
  | .ok a _ => .ok a
  | .error e _ => .error e

/-- The file system after a call. -/
def CounterRun.after {α : Type} (x : CounterRun α) (files : CounterFiles) : CounterFiles :=
  match x.run files with
  | .ok _ files' => files'
  | .error _ files' => files'

/-- The state behind the bytes of a state file, or behind its absence. -/
def loaded (scope : NonceScope128) : Option (List U8) → Except Fault CounterState
  | none => .ok (.initial scope)
  | some content => decodeRecord scope content

/-- **A record is loaded back.** -/
theorem decodeRecord_recordBytes {scope : NonceScope128} {state : CounterState}
    (h : state.scope = scope) : decodeRecord scope (recordBytes state) = .ok state := by
  have hsize : (recordBytes state).toArray.size = kStateBytes := by
    rw [List.size_toArray, length_recordBytes]
  have hvector : (⟨(recordBytes state).toArray, hsize⟩ : Vector U8 kStateBytes)
      = encodeState state := by
    apply Vector.toArray_inj.mp
    unfold recordBytes
    exact Array.toArray_toList
  unfold decodeRecord
  rw [dif_pos hsize, hvector, (holdsState_encodeState state).decodeState_eq, except_ok_bind,
    if_neg (not_not.mpr h)]
  rfl

/-- A call on the bytes of the state file: the abstract counter. -/
def allocateRecord (scope : NonceScope128) (bytes : Option (List U8)) :
    Except Fault Nonce192 × Option (List U8) :=
  match loaded scope bytes with
  | .error e => (.error e, bytes)
  | .ok current =>
    if current.exhausted then
      (.error (.thrown .overflowError "192-bit nonce counter exhausted"), bytes)
    else (.ok current.next, some (recordBytes current.advanced))

/-- A call that throws leaves the state file as it is. -/
theorem allocateRecord_of_error {scope : NonceScope128} {bytes : Option (List U8)} {e : Fault}
    (h : (allocateRecord scope bytes).1 = .error e) :
    allocateRecord scope bytes = (.error e, bytes) := by
  refine Prod.ext h ?_
  unfold allocateRecord at h ⊢
  cases hloaded : loaded scope bytes with
  | error e' => rfl
  | ok current =>
    rw [hloaded] at h
    dsimp only at h ⊢
    split at h
    next hexhausted => rw [if_pos hexhausted]
    next => cases h

section Runs

variable (path : ResolvedPath) (scope : NonceScope128) (files : CounterFiles)

theorem loadState_run : (loadState path scope).run files
    = (lift (loaded scope (files.read path)) : CounterRun CounterState).run files := by
  unfold loadState loaded
  show ((match files.read path with
    | none => pure (CounterState.initial scope)
    | some content => lift (decodeRecord scope content) : CounterRun CounterState)).run files = _
  cases files.read path <;> rfl

/-- **Persisting a state** replaces the state file, and no other but the temporary one. -/
theorem persistState_run (state : CounterState) :
    ∃ files', (persistState path state).run files = .ok () files' ∧
      files'.read path = some (recordBytes state) ∧ files'.read (tmpPath path) = none ∧
      ∀ name, name ≠ path → name ≠ tmpPath path → files'.read name = files.read name := by
  have hentry : (files.openTruncate (tmpPath path)).2.entry (tmpPath path)
      = some (files.openTruncate (tmpPath path)).1 := entry_openTruncate_self files
  generalize hopened : files.openTruncate (tmpPath path) = opened at hentry
  have hcontent : opened.2.content opened.1 = [] := by
    rw [← hopened]
    exact content_openTruncate files
  have hwritten : opened.2.writeAt opened.1 0 (recordBytes state)
      = opened.2.store opened.1 (recordBytes state) := by
    unfold Files.writeAt
    rw [hcontent]
    simp
  obtain ⟨files', hrename⟩ : ∃ files',
      (opened.2.store opened.1 (recordBytes state)).rename (tmpPath path) path = some files' :=
    ⟨_, rename_of_entry (opened.2.store opened.1 (recordBytes state)) hentry⟩
  refine ⟨files', ?_, ?_, ?_, ?_⟩
  rotate_left
  · exact (read_rename_new _ hrename).trans (read_store_self _ hentry _)
  · exact read_rename_old _ hrename (tmpPath_ne path)
  · intro name hpath htmp
    rw [read_rename_of_ne _ hrename htmp hpath, read_store_of_ne _ hentry htmp, ← hopened]
    exact read_openTruncate_of_ne files htmp
  · unfold persistState
    show ((match ((files.openTruncate (tmpPath path)).2.writeAt (files.openTruncate
        (tmpPath path)).1 0 (recordBytes state)).rename (tmpPath path) path with
      | some files => set files
      | none => throw (.thrown .systemError "replace nonce counter state") :
        CounterRun PUnit)).run _ = _
    rw [hopened, hwritten, hrename]
    rfl

/-- **One undisturbed call is the abstract counter** on the bytes of its state file, and
touches no file but its own three. -/
theorem allocate_run :
    (allocate path scope).returned files = (allocateRecord scope (files.read path)).1 ∧
    ((allocate path scope).after files).read path = (allocateRecord scope (files.read path)).2 ∧
    ((allocate path scope).after files).read (lockPath path)
      = some ((files.read (lockPath path)).getD []) ∧
    (∀ nonce, (allocate path scope).returned files = .ok nonce →
      ((allocate path scope).after files).read (tmpPath path) = none) ∧
    ∀ name, name ≠ path → name ≠ tmpPath path → name ≠ lockPath path →
      ((allocate path scope).after files).read name = files.read name := by
  have hlocked : (files.openCreate (lockPath path)).2.read path = files.read path :=
    read_openCreate_of_ne files (lockPath_ne path).symm
  have hlock : (files.openCreate (lockPath path)).2.read (lockPath path)
      = some ((files.read (lockPath path)).getD []) := read_openCreate_self files
  have hothers : ∀ name, name ≠ lockPath path →
      (files.openCreate (lockPath path)).2.read name = files.read name := fun name hname =>
    read_openCreate_of_ne files hname
  have hload := loadState_run path scope (files.openCreate (lockPath path)).2
  have hstart : (allocate path scope).run files
      = (loadState path scope >>= fun current => do
          if current.exhausted then
            throw (.thrown .overflowError "192-bit nonce counter exhausted")
          persistState path current.advanced
          return current.next : CounterRun Nonce192).run (files.openCreate (lockPath path)).2 := rfl
  -- from here the run starts on the files with the lock file there
  generalize (files.openCreate (lockPath path)).2 = locked at *
  rw [hlocked] at hload
  unfold CounterRun.returned CounterRun.after allocateRecord
  cases hloaded : loaded scope (files.read path) with
  | error e =>
    rw [hloaded] at hload
    rw [hstart, run_bind_of_error hload]
    exact ⟨rfl, hlocked, hlock, by simp, fun name _ _ hname => hothers name hname⟩
  | ok current =>
    rw [hloaded] at hload
    rw [hstart, run_bind_of_ok hload]
    by_cases hexhausted : current.exhausted
    · rw [if_pos hexhausted]
      simp only [if_pos hexhausted]
      refine ⟨rfl, hlocked, hlock, ?_, fun name _ _ hname => hothers name hname⟩
      intro nonce hnonce
      cases hnonce
    · obtain ⟨files', hrun, hpath, htmp, hframe⟩ := persistState_run path locked current.advanced
      rw [if_neg hexhausted, run_bind_of_ok hrun]
      simp only [if_neg hexhausted]
      refine ⟨rfl, hpath, ?_, fun _ _ => htmp, fun name hne hname hother => ?_⟩
      · exact (hframe _ (lockPath_ne path) (lockPath_ne_tmpPath path)).trans hlock
      · exact (hframe name hne hname).trans (hothers name hother)

end Runs
