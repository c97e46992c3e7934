/-
# The stages of a call

What a call that holds the lock knows in each of its stages, whatever system calls have
failed: the state file still has the bytes it had when the lock was taken, until it has
the complete record of the next state.  A call that meets no failure does to these bytes
what `allocate` does in one go.
-/
import RotSymEnc.NonceProcesses

open StatefulRuns PosixFiles LockedCalls PathNames

section Stages

variable (path : ResolvedPath) (scope : NonceScope128) (bytes : Option (List U8))
  (files : CounterFiles)

/-- What a call has to do where it finds the state file with these bytes. -/
def JobFrom (job : Job) : Prop :=
  ∃ current, loaded scope bytes = .ok current ∧ current.exhausted = false ∧
    job = ⟨current.next, current.advanced⟩

/-- The temporary file has the first bytes of the record. -/
def Staged (job : Job) (temporary offset : ℕ) : Prop :=
  files.entry (tmpPath path) = some temporary ∧
    files.content temporary = (recordBytes job.updated).take offset

/-- The state file has the complete record of the next state. -/
def Replaced (nonce : Nonce192) : Prop :=
  ∃ job, JobFrom scope bytes job ∧ job.allocated = nonce ∧
    files.read path = some (recordBytes job.updated)

/-- **What a call knows** that found the state file with these bytes. -/
def Stage.Sound : Stage → Prop
  | opening => files.read path = bytes
  | checking file => files.read path = bytes ∧ files.entry path = some file
  | reading file received => files.read path = bytes ∧ files.entry path = some file ∧
      (files.content file).length = kStateBytes ∧ received <+: files.content file
  | staging job => files.read path = bytes ∧ JobFrom scope bytes job
  | permitting job temporary => files.read path = bytes ∧ JobFrom scope bytes job ∧
      Staged path files job temporary 0
  | writing job temporary offset => files.read path = bytes ∧ JobFrom scope bytes job ∧
      offset ≤ kStateBytes ∧ Staged path files job temporary offset
  | syncing job => files.read path = bytes ∧ JobFrom scope bytes job ∧
      files.read (tmpPath path) = some (recordBytes job.updated)
  | replacing job => files.read path = bytes ∧ JobFrom scope bytes job ∧
      files.read (tmpPath path) = some (recordBytes job.updated)
  | visiting nonce => Replaced path scope bytes files nonce
  | settling nonce => Replaced path scope bytes files nonce
  | returning nonce => Replaced path scope bytes files nonce
  | throwing false _ => files.read path = bytes
  | throwing true _ => ∃ nonce, Replaced path scope bytes files nonce

/-- What a call knows that has met no failure: it throws what `allocate` throws. -/
def Stage.Undisturbed : Stage → Prop
  | throwing replaced e => replaced = false ∧ (allocateRecord scope bytes).1 = .error e
  | _ => True

variable {path scope bytes files} {files' : CounterFiles} {stage stage' : Stage}

/-! ## The state file -/

/-- Before the `rename` the state file is as it was. -/
theorem Stage.Sound.read_of_not_replaced (h : stage.Sound path scope bytes files)
    (hreplaced : stage.replaced = false) : files.read path = bytes := by
  cases stage with
  | opening => exact h
  | throwing replaced e =>
    obtain rfl : replaced = false := hreplaced
    exact h
  | visiting _ => cases hreplaced
  | settling _ => cases hreplaced
  | returning _ => cases hreplaced
  | _ => exact h.1

/-- After the `rename` it has the record of the next state. -/
theorem Stage.Sound.exists_replaced (h : stage.Sound path scope bytes files)
    (hreplaced : stage.replaced = true) : ∃ nonce, Replaced path scope bytes files nonce := by
  cases stage with
  | visiting nonce => exact ⟨nonce, h⟩
  | settling nonce => exact ⟨nonce, h⟩
  | returning nonce => exact ⟨nonce, h⟩
  | throwing replaced e =>
    obtain rfl : replaced = true := hreplaced
    exact h
  | _ => cases hreplaced

/-- What is to be done is known once the state file is loaded. -/
theorem sound_afterLoad (h : files.read path = bytes) {r : Except Fault CounterState}
    (hloaded : loaded scope bytes = r) : (Stage.afterLoad r).Sound path scope bytes files := by
  cases r with
  | error e => exact h
  | ok current =>
    unfold Stage.afterLoad
    dsimp only
    split
    next => exact h
    next hexhausted => exact ⟨h, current, hloaded, by simpa using hexhausted, rfl⟩

/-- The bytes that were received are all bytes of the state file. -/
theorem loaded_of_received {file : ℕ} {received : List U8}
    (h : (Stage.reading file received).Sound path scope bytes files)
    (hsize : received.length = kStateBytes) :
    loaded scope bytes = decodeRecord scope received := by
  obtain ⟨hread, hentry, hlength, hfront⟩ := h
  have hreceived := hfront.eq_of_length (hsize.trans hlength.symm)
  rw [← hread, read_of_entry files hentry, hreceived]
  rfl

/-- Writing on at the end of the temporary file. -/
theorem content_writeAt_staged {job : Job} {temporary offset : ℕ} (count : ℕ)
    (hoffset : offset ≤ kStateBytes) (h : Staged path files job temporary offset) :
    (files.writeAt temporary offset (((recordBytes job.updated).drop offset).take count)).content
      temporary = (recordBytes job.updated).take (offset + count) := by
  obtain ⟨-, hcontent⟩ := h
  have hlength : (files.content temporary).length = offset := by
    rw [hcontent, List.length_take, length_recordBytes]
    exact min_eq_left hoffset
  unfold Files.writeAt
  rw [content_store_self, List.take_of_length_le hlength.le,
    List.drop_eq_nil_of_le (hlength.le.trans (Nat.le_add_right _ _)), List.append_nil, hcontent,
    ← List.take_add]

/-- **A system call keeps what the call knows.** -/
theorem StageStep.sound (h : StageStep path scope files stage files' stage')
    (hsound : stage.Sound path scope bytes files) : stage'.Sound path scope bytes files' := by
  cases h with
  | openedNothing hentry =>
    have hnone : bytes = none := hsound.symm.trans ((read_eq_none_iff files).mpr hentry)
    exact sound_afterLoad hsound (by rw [hnone]; rfl)
  | opened hentry => exact ⟨hsound, hentry⟩
  | sizeDiffers hsize => exact hsound.1
  | sizeMatches hsize => exact ⟨hsound.1, hsound.2, hsize, List.nil_prefix⟩
  | received hchunk hfront =>
    obtain ⟨hread, hentry, hlength, -⟩ := hsound
    exact ⟨hread, hentry, hlength, hfront.trans (List.take_prefix _ _)⟩
  | receivedNothing hsize hend => exact hsound.1
  | decoded hsize => exact sound_afterLoad hsound.1 (loaded_of_received hsound hsize)
  | openedTemporary =>
    obtain ⟨hread, hjob⟩ := hsound
    refine ⟨?_, hjob, entry_openTruncate_self files, ?_⟩
    · rw [read_openTruncate_of_ne files (tmpPath_ne path).symm]
      exact hread
    · rw [content_openTruncate]
      rfl
  | permitted =>
    obtain ⟨hread, hjob, hstaged⟩ := hsound
    exact ⟨hread, hjob, Nat.zero_le _, hstaged⟩
  | wrote hcount hoffset =>
    obtain ⟨hread, hjob, hle, hstaged⟩ := hsound
    refine ⟨?_, hjob, hoffset, hstaged.1, content_writeAt_staged _ hle hstaged⟩
    exact (read_store_of_ne files hstaged.1 (tmpPath_ne path).symm _).trans hread
  | written =>
    obtain ⟨hread, hjob, -, hentry, hcontent⟩ := hsound
    refine ⟨hread, hjob, ?_⟩
    rw [read_of_entry _ hentry, hcontent, List.take_of_length_le (length_recordBytes _).le]
  | synced => exact hsound
  | visited => exact hsound
  | settled => exact hsound

/-- **The `rename`** puts the complete record in the place of the state file. -/
theorem replaced_of_rename {job : Job} (hsound : (Stage.replacing job).Sound path scope bytes files)
    (hrename : files.rename (tmpPath path) path = some files') :
    Replaced path scope bytes files' job.allocated := by
  obtain ⟨-, hjob, hread⟩ := hsound
  exact ⟨job, hjob, rfl, (read_rename_new _ hrename).trans hread⟩

theorem CounterStep.sound {ticket : ℕ} {store store' : CounterStore}
    (h : CounterStep path scope ticket store stage store' stage')
    (hsound : stage.Sound path scope bytes store.files) :
    stage'.Sound path scope bytes store'.files := by
  cases h with
  | stage hstage => exact hstage.sound hsound
  | replaced hrename => exact replaced_of_rename hsound hrename

/-- A failure keeps it as well. -/
theorem StageFailure.sound (h : StageFailure stage stage')
    (hsound : stage.Sound path scope bytes files) : stage'.Sound path scope bytes files := by
  have hthrow : ∀ e, (Stage.throwing stage.replaced e).Sound path scope bytes files := by
    intro e
    cases hreplaced : stage.replaced with
    | false => exact hsound.read_of_not_replaced hreplaced
    | true => exact hsound.exists_replaced hreplaced
  cases h with
  | systemCall _ => exact hthrow _
  | wroteNothing _ => exact hsound.1
  | hook _ => exact hthrow _

/-- **A step that is not the `rename` leaves the state file as it is.** -/
theorem StageStep.read_eq (h : StageStep path scope files stage files' stage')
    (hsound : stage.Sound path scope bytes files) : files'.read path = files.read path := by
  cases h with
  | openedTemporary => exact read_openTruncate_of_ne files (tmpPath_ne path).symm
  | wrote hcount hoffset =>
    exact read_store_of_ne files hsound.2.2.2.1 (tmpPath_ne path).symm _
  | _ => rfl

theorem StageStep.replaced_eq (h : StageStep path scope files stage files' stage') :
    stage'.replaced = stage.replaced := by
  have hafter : ∀ r, (Stage.afterLoad r).replaced = false := by
    intro r
    cases r with
    | error e => rfl
    | ok current =>
      unfold Stage.afterLoad
      dsimp only
      split <;> rfl
  cases h with
  | openedNothing _ => exact hafter _
  | decoded _ => exact hafter _
  | _ => rfl

theorem StageFailure.replaced_eq (h : StageFailure stage stage') :
    stage'.replaced = stage.replaced := by
  cases h <;> rfl

/-! ## Calls without failures -/

/-- What is thrown after loading is what `allocate` throws. -/
theorem undisturbed_afterLoad {r : Except Fault CounterState} (h : loaded scope bytes = r) :
    (Stage.afterLoad r).Undisturbed scope bytes := by
  cases r with
  | error e =>
    refine ⟨rfl, ?_⟩
    unfold allocateRecord
    rw [h]
  | ok current =>
    unfold Stage.afterLoad
    dsimp only
    split
    next hexhausted =>
      refine ⟨rfl, ?_⟩
      unfold allocateRecord
      rw [h]
      dsimp only
      rw [if_pos hexhausted]
    next => trivial

/-- **A system call that succeeds keeps a call undisturbed.** -/
theorem StageStep.undisturbed (h : StageStep path scope files stage files' stage')
    (hsound : stage.Sound path scope bytes files) : stage'.Undisturbed scope bytes := by
  cases h with
  | openedNothing hentry =>
    have hnone : bytes = none := hsound.symm.trans ((read_eq_none_iff files).mpr hentry)
    exact undisturbed_afterLoad (by rw [hnone]; rfl)
  | @sizeDiffers file hsize =>
    obtain ⟨hread, hentry⟩ := hsound
    have hloaded : loaded scope bytes
        = .error (.thrown .runtimeError "nonce counter state has an invalid size") := by
      rw [← hread, read_of_entry files hentry]
      exact dif_neg hsize
    exact undisturbed_afterLoad hloaded
  | receivedNothing hsize hend =>
    obtain ⟨-, -, hlength, -⟩ := hsound
    omega
  | decoded hsize => exact undisturbed_afterLoad (loaded_of_received hsound hsize)
  | _ => trivial

theorem CounterStep.undisturbed {ticket : ℕ} {store store' : CounterStore}
    (h : CounterStep path scope ticket store stage store' stage')
    (hsound : stage.Sound path scope bytes store.files) : stage'.Undisturbed scope bytes := by
  cases h with
  | stage hstage => exact hstage.undisturbed hsound
  | replaced hrename => trivial

/-- **A call without failures is the abstract counter** on the bytes of the state file. -/
theorem Stage.Sound.allocateRecord_eq (h : stage.Sound path scope bytes files)
    (hundisturbed : stage.Undisturbed scope bytes) {result : Except Fault Nonce192}
    (hresult : stage.result = some result) :
    allocateRecord scope bytes = (result, files.read path) := by
  cases stage with
  | returning nonce =>
    obtain rfl := Option.some.inj hresult
    obtain ⟨job, ⟨current, hloaded, hexhausted, rfl⟩, rfl, hread⟩ := h
    unfold allocateRecord
    rw [hloaded, hread]
    dsimp only
    rw [hexhausted, if_neg Bool.false_ne_true]
  | throwing replaced e =>
    obtain rfl := Option.some.inj hresult
    obtain ⟨rfl, herror⟩ := hundisturbed
    rw [allocateRecord_of_error herror]
    exact congrArg (Prod.mk _) h.symm
  | _ => cases hresult

end Stages
