/-
# Two counters side by side

A caller that keeps two encryption keys keeps two counters, with two state files.  A
call on one of them touches three files: the state file, the temporary file and the
lock file.  As long as the state file of neither counter is the temporary or the lock
file of the other, their calls do not see each other.  Otherwise they do, and a nonce
is returned twice.  What counts are the files, and not how their paths are spelled.
-/
import RotSymEnc.NonceCounter

open StatefulRuns PosixFiles PathNames

/-! ## Runs of calls -/

/-- The two counters. -/
inductive Counter : Type where
  | first
  | second
  deriving DecidableEq

/-- The other counter. -/
def Counter.other : Counter → Counter
  | first => second
  | second => first

/-- A value for each counter. -/
def Counter.each {α : Type} (first second : α) : Counter → α
  | .first => first
  | .second => second

theorem Counter.eq_or_eq_other (c d : Counter) : d = c ∨ d = c.other := by
  cases c <;> cases d <;> decide

theorem Counter.other_ne (c : Counter) : c.other ≠ c := by
  cases c <;> decide

section Calls

variable (path : Counter → ResolvedPath) (scope : Counter → NonceScope128)

/-- Complete calls one after the other, with what they return or throw. -/
def runCalls : List Counter → CounterFiles → List (Counter × Except Fault Nonce192)
  | [], _ => []
  | c :: calls, files =>
    (c, (allocate (path c) (scope c)).returned files) ::
      runCalls calls ((allocate (path c) (scope c)).after files)

/-- The results of the calls on one counter. -/
def resultsOf (c : Counter) (results : List (Counter × Except Fault Nonce192)) :
    List (Except Fault Nonce192) :=
  results.filterMap fun result => if result.1 = c then some result.2 else none

/-- The nonces among the results. -/
def noncesOf (results : List (Except Fault Nonce192)) : List Nonce192 :=
  results.filterMap fun result => result.toOption

/-- **The counters are isolated**: whatever the files are before, and in whatever order the
calls are made, the calls on each counter return what they would have returned alone, and
no nonce twice. -/
def Isolated : Prop :=
  ∀ (files : CounterFiles) (calls : List Counter) (c : Counter),
    resultsOf c (runCalls path scope calls files)
      = resultsOf c (runCalls path scope (calls.filter (· = c)) files) ∧
    (noncesOf (resultsOf c (runCalls path scope calls files))).Nodup

/-- Neither state file is the temporary or the lock file of the other counter. -/
def NamesApart : Prop :=
  ∀ c : Counter, path c.other ≠ tmpPath (path c) ∧ path c.other ≠ lockPath (path c)

variable {path scope}

@[simp] theorem resultsOf_nil (c : Counter) : resultsOf c [] = [] := rfl

@[simp] theorem resultsOf_cons_self (c : Counter) (result : Except Fault Nonce192)
    (results : List (Counter × Except Fault Nonce192)) :
    resultsOf c ((c, result) :: results) = result :: resultsOf c results := by
  simp [resultsOf]

theorem resultsOf_cons_of_ne {c d : Counter} (h : d ≠ c) (result : Except Fault Nonce192)
    (results : List (Counter × Except Fault Nonce192)) :
    resultsOf c ((d, result) :: results) = resultsOf c results := by
  simp [resultsOf, h]

/-! ## One counter -/

/-- What calls of one counter return, from the bytes of its state file. -/
def allocateRecords (scope : NonceScope128) : ℕ → Option (List U8) →
    List (Except Fault Nonce192)
  | 0, _ => []
  | n + 1, bytes =>
    (allocateRecord scope bytes).1 :: allocateRecords scope n (allocateRecord scope bytes).2

/-- Where the bytes are no record of the scope, every call throws. -/
theorem allocateRecords_of_error {s : NonceScope128} {bytes : Option (List U8)} {e : Fault}
    (h : loaded s bytes = .error e) (n : ℕ) : noncesOf (allocateRecords s n bytes) = [] := by
  induction n with
  | zero => rfl
  | succ n ih =>
    have hcall : allocateRecord s bytes = (.error e, bytes) := by
      unfold allocateRecord
      rw [h]
    unfold allocateRecords
    rw [hcall]
    exact ih

/-- What is loaded has the scope of the caller. -/
theorem scope_of_loaded {s : NonceScope128} {bytes : Option (List U8)} {state : CounterState}
    (h : loaded s bytes = .ok state) : state.scope = s := by
  cases bytes with
  | none =>
    obtain rfl := Except.ok.inj h
    rfl
  | some content =>
    change decodeRecord s content = .ok state at h
    unfold decodeRecord at h
    split at h
    next hsize =>
      cases hdecode : decodeState ⟨content.toArray, hsize⟩ with
      | error e =>
        rw [hdecode] at h
        cases h
      | ok decoded =>
        rw [hdecode, except_ok_bind] at h
        by_cases hscope : decoded.scope = s
        · rw [if_neg (not_not.mpr hscope)] at h
          obtain rfl := Except.ok.inj h
          exact hscope
        · rw [if_pos hscope] at h
          cases h
    next => cases h

/-- **The calls of one counter count up.** -/
theorem allocateRecords_nonces {s : NonceScope128} {bytes : Option (List U8)}
    {state : CounterState} (h : loaded s bytes = .ok state) (n : ℕ) :
    (noncesOf (allocateRecords s n bytes)).Pairwise (fun a b => nonceValue a < nonceValue b) ∧
      ∀ nonce ∈ noncesOf (allocateRecords s n bytes), state.value ≤ nonceValue nonce := by
  induction n generalizing bytes state with
  | zero => exact ⟨List.Pairwise.nil, List.forall_mem_nil _⟩
  | succ n ih =>
    unfold allocateRecords allocateRecord
    rw [h]
    cases hexhausted : state.exhausted with
    | true =>
      dsimp only
      rw [hexhausted, if_pos rfl]
      exact ih h
    | false =>
      dsimp only
      rw [hexhausted, if_neg Bool.false_ne_true]
      have hnext : loaded s (some (recordBytes state.advanced)) = .ok state.advanced :=
        decodeRecord_recordBytes ((CounterState.scope_advanced state).trans (scope_of_loaded h))
      obtain ⟨hsorted, hbound⟩ := ih hnext
      have hvalue := CounterState.value_of_not_exhausted hexhausted
      have hadvanced := CounterState.value_advanced hexhausted
      show (state.next :: noncesOf (allocateRecords s n (some (recordBytes
        state.advanced)))).Pairwise _ ∧ ∀ nonce ∈ state.next :: noncesOf (allocateRecords s n
          (some (recordBytes state.advanced))), _
      constructor
      · refine List.pairwise_cons.mpr ⟨fun nonce hnonce => ?_, hsorted⟩
        have := hbound nonce hnonce
        omega
      · refine List.forall_mem_cons.mpr ⟨hvalue.le, fun nonce hnonce => ?_⟩
        have := hbound nonce hnonce
        omega

/-- No call returns a nonce twice. -/
theorem nodup_allocateRecords (s : NonceScope128) (bytes : Option (List U8)) (n : ℕ) :
    (noncesOf (allocateRecords s n bytes)).Nodup := by
  cases h : loaded s bytes with
  | error e =>
    rw [allocateRecords_of_error h]
    exact List.nodup_nil
  | ok state =>
    refine (allocateRecords_nonces h n).1.imp ?_
    rintro a b hlt rfl
    exact absurd hlt (lt_irrefl _)

/-! ## Names apart -/

/-- **The calls on one counter**, among all calls, follow its abstract counter. -/
theorem resultsOf_runCalls (h : NamesApart path) (hpath : path .first ≠ path .second)
    (c : Counter) (calls : List Counter) (files : CounterFiles) :
    resultsOf c (runCalls path scope calls files)
      = allocateRecords (scope c) (calls.count c) (files.read (path c)) := by
  have hne : path c ≠ path c.other := by
    cases c
    · exact hpath
    · exact hpath.symm
  induction calls generalizing files with
  | nil => rfl
  | cons d calls ih =>
    unfold runCalls
    rcases Counter.eq_or_eq_other c d with rfl | rfl
    · obtain ⟨hreturned, hread, -⟩ := allocate_run (path d) (scope d) files
      rw [resultsOf_cons_self, List.count_cons_self, ih, hread, hreturned]
      rfl
    · -- the call on the other counter leaves this state file alone
      obtain ⟨-, -, -, -, hframe⟩ := allocate_run (path c.other) (scope c.other) files
      have hother := h c.other
      have hsame : c.other.other = c := by cases c <;> rfl
      rw [hsame] at hother
      rw [resultsOf_cons_of_ne c.other_ne, List.count_cons_of_ne c.other_ne, ih,
        hframe (path c) hne hother.1 hother.2]

/-- **Counters with their names apart are isolated.** -/
theorem NamesApart.isolated (h : NamesApart path) (hpath : path .first ≠ path .second) :
    Isolated path scope := by
  intro files calls c
  have hcount : (calls.filter (· = c)).count c = calls.count c := by
    rw [List.count_filter]
    simp
  rw [resultsOf_runCalls h hpath, resultsOf_runCalls h hpath, hcount]
  exact ⟨rfl, nodup_allocateRecords _ _ _⟩

/-! ## Names that meet -/

/-- The first call on a new state file returns the first nonce. -/
theorem allocateRecord_none (s : NonceScope128) :
    allocateRecord s none = (.ok (CounterState.initial s).next,
      some (recordBytes (CounterState.initial s).advanced)) := rfl

/-- An empty state file is no record. -/
theorem allocateRecord_nil (s : NonceScope128) :
    allocateRecord s (some [])
      = (.error (.thrown .runtimeError "nonce counter state has an invalid size"), some []) := rfl

@[simp] theorem read_empty (name : ResolvedPath) : (Files.empty : CounterFiles).read name = none :=
  rfl

/-- **A state file that is the temporary file of the other counter** is renamed away, and its
counter starts over. -/
theorem resultsOf_tmpPath {c : Counter} (h : path c.other = tmpPath (path c)) :
    resultsOf c.other (runCalls path scope [c.other, c, c.other] .empty)
      = [.ok (CounterState.initial (scope c.other)).next,
          .ok (CounterState.initial (scope c.other)).next] := by
  -- the first call leaves no file behind the state path of `c`
  obtain ⟨hfirst, -, -, -, hframe⟩ := allocate_run (path c.other) (scope c.other) .empty
  have htmp : path c ≠ tmpPath (path c.other) := by
    intro heq
    have hlength := congrArg (fun p => p.name.length) (heq.trans (congrArg tmpPath h))
    simp only [length_tmpPath] at hlength
    omega
  have hlock : path c ≠ lockPath (path c.other) := by
    intro heq
    have hlength := congrArg (fun p => p.name.length) (heq.trans (congrArg lockPath h))
    simp only [length_tmpPath, length_lockPath] at hlength
    omega
  have hne : path c ≠ path c.other := h ▸ (tmpPath_ne (path c)).symm
  have hempty := hframe (path c) hne htmp hlock
  -- the second call renames the state file of the other counter
  obtain ⟨hsecond, -, -, hrenamed, -⟩ := allocate_run (path c) (scope c)
    ((allocate (path c.other) (scope c.other)).after .empty)
  rw [hempty, read_empty, allocateRecord_none] at hsecond
  have hgone := hrenamed _ hsecond
  rw [← h] at hgone
  -- and the third call starts over
  obtain ⟨hthird, -⟩ := allocate_run (path c.other) (scope c.other)
    ((allocate (path c) (scope c)).after
      ((allocate (path c.other) (scope c.other)).after .empty))
  unfold runCalls runCalls runCalls runCalls
  rw [resultsOf_cons_self, resultsOf_cons_of_ne c.other_ne.symm, resultsOf_cons_self, hfirst,
    hthird, hgone]
  rfl

/-- **A state file that is the lock file of the other counter** is created empty, and its
counter finds no record. -/
theorem resultsOf_lockPath {c : Counter} (h : path c.other = lockPath (path c)) :
    resultsOf c.other (runCalls path scope [c, c.other] .empty)
      = [.error (.thrown .runtimeError "nonce counter state has an invalid size")] := by
  obtain ⟨-, -, hlock, -⟩ := allocate_run (path c) (scope c) .empty
  obtain ⟨hsecond, -⟩ := allocate_run (path c.other) (scope c.other)
    ((allocate (path c) (scope c)).after .empty)
  rw [h] at hsecond
  rw [hlock, read_empty, Option.getD_none, allocateRecord_nil] at hsecond
  unfold runCalls runCalls runCalls
  rw [resultsOf_cons_of_ne c.other_ne.symm, resultsOf_cons_self, h, hsecond]
  rfl

/-- A new counter alone returns its first nonce. -/
theorem resultsOf_alone (c : Counter) :
    resultsOf c (runCalls path scope [c] .empty)
      = [.ok (CounterState.initial (scope c)).next] := by
  obtain ⟨hreturned, -⟩ := allocate_run (path c) (scope c) .empty
  unfold runCalls runCalls
  rw [resultsOf_cons_self, hreturned]
  rfl

/-- **Isolated counters have their names apart.** -/
theorem Isolated.namesApart (h : Isolated path scope) : NamesApart path := by
  intro c
  constructor
  · intro htmp
    have hnodup := (h .empty [c.other, c, c.other] c.other).2
    rw [resultsOf_tmpPath htmp] at hnodup
    exact absurd hnodup (by simp [noncesOf, Except.toOption])
  · intro hlock
    have halone := (h .empty [c, c.other] c.other).1
    have hfilter : [c, c.other].filter (· = c.other) = [c.other] := by
      cases c <;> rfl
    rw [hfilter, resultsOf_lockPath hlock, resultsOf_alone] at halone
    cases halone

end Calls

section Paths

variable {directoryOf : Text → Option ℕ} {statePath : Counter → Text}
  {path : Counter → ResolvedPath} (hpath : ∀ c, resolve directoryOf (statePath c) = some (path c))

include hpath

/-- The derived paths, as they are spelled, name the files that must not meet. -/
theorem namesApart_iff : NamesApart path ↔ ∀ c : Counter,
    resolve directoryOf (statePath c ++ text ".tmp") ≠ some (path c.other) ∧
      resolve directoryOf (statePath c ++ text ".lock") ≠ some (path c.other) := by
  refine forall_congr' fun c => ?_
  rw [resolve_tmpPath (hpath c), resolve_lockPath (hpath c), ne_eq, ne_eq, ne_eq, ne_eq,
    Option.some_inj, Option.some_inj, eq_comm (a := path c.other), eq_comm (a := path c.other)]

/-- **When two counters are isolated**: where their state paths name two files, exactly when
neither of these files is named by the other state path with `.tmp` or `.lock` behind it.  A
file is a name in a directory here, so that spellings of a path do not matter. -/
theorem counters_isolated_iff (hne : path .first ≠ path .second)
    (scope : Counter → NonceScope128) : Isolated path scope ↔ ∀ c : Counter,
      resolve directoryOf (statePath c ++ text ".tmp") ≠ some (path c.other) ∧
        resolve directoryOf (statePath c ++ text ".lock") ≠ some (path c.other) :=
  ⟨fun h => (namesApart_iff hpath).mp h.namesApart,
    fun h => NamesApart.isolated ((namesApart_iff hpath).mpr h) hne⟩

end Paths

/-- The working directory, under two of its spellings. -/
def workingDirectory (front : Text) : Option ℕ :=
  if front = [] ∨ front = text "./" then some 0 else none

/-- Two counters in one directory. -/
theorem counters_isolated_siblings :
    Isolated (Counter.each (localFile (text "a.state") (by decide))
        (localFile (text "b.state") (by decide)))
      (Counter.each (Vector.replicate 16 1) (Vector.replicate 16 2)) := by
  refine (@counters_isolated_iff workingDirectory
    (Counter.each (text "a.state") (text "./b.state")) _ (fun c => ?_) (by decide) _).mpr
    fun c => ?_
  · cases c <;> decide
  · cases c <;> decide

/-- With the state files `nonce.state` and `nonce.state.tmp` of one directory, however the second
one is spelled, and two scopes, the second counter returns its first nonce twice. -/
theorem nested_state_files_reuse_nonce :
    ∃ path : Counter → ResolvedPath,
      (∀ c, resolve workingDirectory (Counter.each (text "nonce.state") (text "nonce.state.tmp") c)
        = some (path c)) ∧
      resolve workingDirectory (text "./nonce.state.tmp") = some (path .second) ∧
      path .first ≠ path .second ∧
      resultsOf .second (runCalls path (Counter.each (Vector.replicate 16 1)
          (Vector.replicate 16 2)) [.second, .first, .second] .empty)
        = [.ok (Vector.replicate 24 0), .ok (Vector.replicate 24 0)] ∧
      ¬ Isolated path (Counter.each (Vector.replicate 16 1) (Vector.replicate 16 2)) := by
  let path := Counter.each (localFile (text "nonce.state") (by decide))
    (localFile (text "nonce.state.tmp") (by decide))
  have hmeet : path Counter.first.other = tmpPath (path .first) := by decide
  refine ⟨path, fun c => ?_, by decide, by decide, resultsOf_tmpPath hmeet,
    fun h => (h.namesApart .first).1 hmeet⟩
  cases c <;> decide
