/-
# Processes that share a nonce counter

`PersistentNonceCounter::allocate`, system call by system call, for processes that all
call it on one state path with one scope.  What a call does while it holds the lock file
is a run through the stages below; a process may be killed between any two of them, and
any system call may fail.

A system call that is interrupted (`EINTR`) is repeated, so it is no step.  `write` and
`read` transfer what they like, at least one byte where they transfer any.
-/
import RotSymEnc.NonceCounter
import RotSymEnc.LockedCalls

open StatefulRuns PosixFiles LockedCalls PathNames

/-! ## The stages of a call -/

/-- The nonce that a call is to return, and the state it is to persist before. -/
structure Job : Type where
  allocated : Nonce192
  updated : CounterState

/-- What a call that holds the lock does next, with what it has in its hands. -/
inductive Stage : Type where
  | opening
  | checking (file : ℕ)
  | reading (file : ℕ) (received : List U8)
  | staging (job : Job)
  | permitting (job : Job) (temporary : ℕ)
  | writing (job : Job) (temporary : ℕ) (offset : ℕ)
  | syncing (job : Job)
  | replacing (job : Job)
  | visiting (nonce : Nonce192)
  | settling (nonce : Nonce192)
  | returning (nonce : Nonce192)
  | throwing (replaced : Bool) (e : Fault)

namespace Stage

/-- `rename` is done. -/
def replaced : Stage → Bool
  | visiting _ => true
  | settling _ => true
  | returning _ => true
  | throwing replaced _ => replaced
  | _ => false

/-- `allocate` after `load_state`. -/
def afterLoad : Except Fault CounterState → Stage
  | .error e => throwing false e
  | .ok current =>
    if current.exhausted then
      throwing false (.thrown .overflowError "192-bit nonce counter exhausted")
    else staging ⟨current.next, current.advanced⟩

/-- The name under which the failing system call of a stage is reported. -/
def operation : Stage → Option String
  | opening => some "open nonce counter state"
  | checking _ => some "stat nonce counter state"
  | reading _ received =>
    if received.length < kStateBytes then some "read nonce counter state" else none
  | staging _ => some "open temporary nonce counter state"
  | permitting _ _ => some "set nonce counter state permissions"
  | writing _ _ offset => if offset < kStateBytes then some "write nonce counter state" else none
  | syncing _ => some "sync temporary nonce counter state"
  | replacing _ => some "replace nonce counter state"
  | visiting _ => some "open nonce counter directory"
  | settling _ => some "sync nonce counter directory"
  | returning _ => none
  | throwing _ _ => none

/-- The stages that begin with a call of the caller's `hook`: `AfterLock`,
`AfterTemporarySync`, `AfterReplace` and `AfterDirectorySync`. -/
def hooked : Stage → Bool
  | opening => true
  | replacing _ => true
  | visiting _ => true
  | returning _ => true
  | _ => false

/-- What a call returns or throws when the lock is closed. -/
def result : Stage → Option (Except Fault Nonce192)
  | returning nonce => some (.ok nonce)
  | throwing _ e => some (.error e)
  | _ => none

/-- An upper bound for the steps that are left. -/
def size : Stage → ℕ
  | opening => 2 * kStateBytes + 10
  | checking _ => 2 * kStateBytes + 9
  | reading _ received => kStateBytes + 8 + (kStateBytes - received.length)
  | staging _ => kStateBytes + 7
  | permitting _ _ => kStateBytes + 6
  | writing _ _ offset => 5 + (kStateBytes - offset)
  | syncing _ => 4
  | replacing _ => 3
  | visiting _ => 2
  | settling _ => 1
  | returning _ => 0
  | throwing _ _ => 0

end Stage

/-- The system calls of a call that holds the lock, without the `rename`. -/
inductive StageStep (path : ResolvedPath) (scope : NonceScope128) :
    CounterFiles → Stage → CounterFiles → Stage → Prop where
  | openedNothing {files} (hentry : files.entry path = none) :
    StageStep path scope files .opening files (.afterLoad (.ok (.initial scope)))
  | opened {files file} (hentry : files.entry path = some file) :
    StageStep path scope files .opening files (.checking file)
  | sizeDiffers {files file} (hsize : (files.content file).length ≠ kStateBytes) :
    StageStep path scope files (.checking file) files
      (.throwing false (.thrown .runtimeError "nonce counter state has an invalid size"))
  | sizeMatches {files file} (hsize : (files.content file).length = kStateBytes) :
    StageStep path scope files (.checking file) files (.reading file [])
  | received {files file received chunk} (hchunk : chunk ≠ [])
      (hfront : received ++ chunk <+: (files.content file).take kStateBytes) :
    StageStep path scope files (.reading file received) files (.reading file (received ++ chunk))
  | receivedNothing {files file received} (hsize : received.length < kStateBytes)
      (hend : (files.content file).length ≤ received.length) :
    StageStep path scope files (.reading file received) files
      (.throwing false (.thrown .runtimeError "truncated nonce counter state"))
  | decoded {files file received} (hsize : received.length = kStateBytes) :
    StageStep path scope files (.reading file received) files
      (.afterLoad (decodeRecord scope received))
  | openedTemporary {files job} :
    StageStep path scope files (.staging job) (files.openTruncate (tmpPath path)).2
      (.permitting job (files.openTruncate (tmpPath path)).1)
  | permitted {files job temporary} :
    StageStep path scope files (.permitting job temporary) files (.writing job temporary 0)
  | wrote {files job temporary offset count} (hcount : 0 < count)
      (hoffset : offset + count ≤ kStateBytes) :
    StageStep path scope files (.writing job temporary offset)
      (files.writeAt temporary offset (((recordBytes job.updated).drop offset).take count))
      (.writing job temporary (offset + count))
  | written {files job temporary} :
    StageStep path scope files (.writing job temporary kStateBytes) files (.syncing job)
  | synced {files job} : StageStep path scope files (.syncing job) files (.replacing job)
  | visited {files nonce} : StageStep path scope files (.visiting nonce) files (.settling nonce)
  | settled {files nonce} : StageStep path scope files (.settling nonce) files (.returning nonce)

/-- The exceptions that a failing system call, a `write` of no byte or the caller's `hook` raise
in a stage. -/
inductive StageFailure : Stage → Stage → Prop where
  | systemCall {stage : Stage} {operation} (h : stage.operation = some operation) :
    StageFailure stage (.throwing stage.replaced (.thrown .systemError operation))
  | wroteNothing {job temporary offset} (h : offset < kStateBytes) :
    StageFailure (.writing job temporary offset)
      (.throwing false (.thrown .runtimeError "zero-length nonce counter state write"))
  | hook {stage : Stage} {e} (h : stage.hooked = true) :
    StageFailure stage (.throwing stage.replaced e)

/-! ## The system -/

/-- The files, and with them the nonces that have been taken from the state file, the newest
first, each with the place of its call in the order of the lock. -/
structure CounterStore : Type where
  files : CounterFiles
  consumed : List (ℕ × Nonce192)

/-- The steps of a call that holds the lock. -/
inductive CounterStep (path : ResolvedPath) (scope : NonceScope128) (ticket : ℕ) :
    CounterStore → Stage → CounterStore → Stage → Prop where
  | stage {store stage files' stage'}
      (hstage : StageStep path scope store.files stage files' stage') :
    CounterStep path scope ticket store stage { store with files := files' } stage'
  | replaced {store job files'}
      (hrename : store.files.rename (tmpPath path) path = some files') :
    CounterStep path scope ticket store (.replacing job)
      ⟨files', (ticket, job.allocated) :: store.consumed⟩ (.visiting job.allocated)

section Calls

variable {path : ResolvedPath} {scope : NonceScope128} {files files' : CounterFiles}
  {stage stage' : Stage}

/-- Without the `rename` a call changes no entry but that of the temporary file. -/
theorem StageStep.entry_of_ne (h : StageStep path scope files stage files' stage')
    {name : ResolvedPath} (hname : name ≠ tmpPath path) :
    files'.entry name = files.entry name := by
  cases h with
  | openedTemporary => exact entry_openTruncate_of_ne files hname
  | _ => rfl

theorem CounterStep.entry_lockPath {ticket : ℕ} {store store' : CounterStore}
    (h : CounterStep path scope ticket store stage store' stage') :
    store'.files.entry (lockPath path) = store.files.entry (lockPath path) := by
  cases h with
  | stage hstage => exact hstage.entry_of_ne (lockPath_ne_tmpPath path)
  | replaced hrename =>
    exact entry_rename_of_ne _ hrename (lockPath_ne_tmpPath path) (lockPath_ne path)

variable (path scope) in
/-- The calls of `allocate` on one state path with one scope. -/
def allocateCalls : Calls ℕ CounterStore Stage (Except Fault Nonce192) where
  opened := fun store => ((store.files.openCreate (lockPath path)).1,
    { store with files := (store.files.openCreate (lockPath path)).2 })
  first := .opening
  Inside := CounterStep path scope
  Fails := StageFailure
  result := Stage.result
  openRefused := .error (.thrown .systemError "open nonce counter lock")
  lockRefused := .error (.thrown .systemError "lock nonce counter state")
  lockOf := fun store => store.files.entry (lockPath path)
  lockOf_opened := fun store => entry_openCreate_self store.files
  opened_eq := fun store lock h => by
    rw [openCreate_of_entry store.files h]
  lockOf_inside := fun _ _ _ _ _ h => h.entry_lockPath

end Calls

/-- The processes with their files. -/
abbrev CounterSystem (Pid : Type) := System Pid ℕ CounterStore Stage (Except Fault Nonce192)

/-- The nonces that calls have returned. -/
def returned {Pid : Type} (s : CounterSystem Pid) : List (ℕ × Nonce192) :=
  s.finished.filterMap fun call => call.2.toOption.map (call.1, ·)
