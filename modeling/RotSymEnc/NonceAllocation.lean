/-
# Allocation across processes

The guarantees of `PersistentNonceCounter::allocate` for any number of processes, any
interleaving of their system calls and any failures: the nonces that are returned, the
state file, and the calls that do not finish.
-/
import RotSymEnc.NonceAttempts

open StatefulRuns PosixFiles LockedCalls PathNames

/-! ## Every call can finish -/

section Progress

variable {path : ResolvedPath} {scope : NonceScope128} {bytes : Option (List U8)}
  {files files' : CounterFiles} {stage stage' : Stage}

theorem size_afterLoad (r : Except Fault CounterState) :
    (Stage.afterLoad r).size ≤ kStateBytes + 7 := by
  cases r with
  | error e => exact Nat.zero_le _
  | ok current =>
    unfold Stage.afterLoad
    dsimp only
    split
    next => exact Nat.zero_le _
    next => exact le_rfl

/-- A system call brings a call closer to its end. -/
theorem StageStep.size_lt (h : StageStep path scope files stage files' stage') :
    stage'.size < stage.size := by
  cases h with
  | openedNothing _ =>
    refine (size_afterLoad _).trans_lt ?_
    simp only [Stage.size]
    omega
  | @received file received chunk hchunk hfront =>
    have hlength := hfront.length_le.trans (List.length_take_le _ _)
    have hpos := List.length_pos_iff.mpr hchunk
    rw [List.length_append] at hlength
    simp only [Stage.size, List.length_append]
    omega
  | decoded _ =>
    refine (size_afterLoad _).trans_lt ?_
    simp only [Stage.size]
    omega
  | wrote hcount hoffset =>
    simp only [Stage.size]
    omega
  | _ =>
    simp only [Stage.size, List.length_nil]
    omega

/-- **A call that holds the lock can go on.** -/
theorem Stage.Sound.exists_step (h : stage.Sound path scope bytes files)
    (hresult : stage.result = none) (ticket : ℕ) (consumed : List (ℕ × Nonce192)) :
    ∃ store' stage', CounterStep path scope ticket ⟨files, consumed⟩ stage store' stage' := by
  cases stage with
  | opening =>
    cases hentry : files.entry path with
    | none => exact ⟨_, _, .stage (.openedNothing hentry)⟩
    | some file => exact ⟨_, _, .stage (.opened hentry)⟩
  | checking file =>
    by_cases hsize : (files.content file).length = kStateBytes
    · exact ⟨_, _, .stage (.sizeMatches hsize)⟩
    · exact ⟨_, _, .stage (.sizeDiffers hsize)⟩
  | reading file received =>
    obtain ⟨-, -, hlength, ⟨rest, hrest⟩⟩ := h
    by_cases hempty : rest = []
    · refine ⟨_, _, .stage (.decoded ?_)⟩
      rw [← hlength, ← hrest, hempty, List.append_nil]
    · refine ⟨_, _, .stage (.received hempty ?_)⟩
      rw [List.take_of_length_le hlength.le, hrest]
  | staging job => exact ⟨_, _, .stage .openedTemporary⟩
  | permitting job temporary => exact ⟨_, _, .stage .permitted⟩
  | writing job temporary offset =>
    obtain ⟨-, -, hle, -⟩ := h
    rcases Nat.lt_or_ge offset kStateBytes with hlt | hge
    · exact ⟨_, _, .stage (.wrote Nat.one_pos hlt)⟩
    · obtain rfl := Nat.le_antisymm hle hge
      exact ⟨_, _, .stage .written⟩
  | syncing job => exact ⟨_, _, .stage .synced⟩
  | replacing job =>
    obtain ⟨-, -, hread⟩ := h
    cases hentry : files.entry (tmpPath path) with
    | none =>
      rw [(read_eq_none_iff files).mpr hentry] at hread
      cases hread
    | some temporary => exact ⟨_, _, .replaced (rename_of_entry files hentry)⟩
  | visiting nonce => exact ⟨_, _, .stage .visited⟩
  | settling nonce => exact ⟨_, _, .stage .settled⟩
  | returning nonce => cases hresult
  | throwing replaced e => cases hresult

theorem allocateCalls_advances (path : ResolvedPath) (scope : NonceScope128) (first : ℕ) :
    Advances (allocateCalls path scope) (HeldCounts path scope first) Stage.size where
  smaller := by
    intro ticket store stage store' stage' hstep
    cases hstep with
    | stage hstage => exact hstage.size_lt
    | replaced _ => exact Nat.lt_succ_self _
  inside := by
    rintro ticket store stage ⟨-, ⟨bytes, hsound⟩, -⟩ hresult
    exact hsound.exists_step hresult ticket store.consumed

end Progress

/-! ## The nonces that are returned -/

section Returned

variable {path : ResolvedPath} {scope : NonceScope128} {Pid : Type} {start s s' : CounterSystem Pid}
  {state : CounterState}

variable (path scope) in
/-- The counter stands at a state, and nobody has called `allocate` yet. -/
structure Start (start : CounterSystem Pid) (state : CounterState) : Prop where
  initial : Initial start
  recorded : Recorded scope (start.store.files.read path) state
  consumed : start.store.consumed = []

variable (path scope) in
/-- The invariant of all runs from there. -/
def CountsFrom (state : CounterState) (s : CounterSystem Pid) : Prop :=
  Safe (allocateCalls path scope) (FreeCounts path scope state.value)
    (HeldCounts path scope state.value) LeftCounts s

theorem mem_returned {call : ℕ × Nonce192} :
    call ∈ returned s ↔ (call.1, .ok call.2) ∈ s.finished := by
  unfold returned
  rw [List.mem_filterMap]
  constructor
  · rintro ⟨⟨ticket, result⟩, hmem, hresult⟩
    cases result with
    | error e => cases hresult
    | ok nonce =>
      obtain rfl := Option.some.inj hresult
      exact hmem
  · intro hmem
    exact ⟨_, hmem, rfl⟩

theorem Start.countsFrom (h : Start path scope start state) :
    CountsFrom path scope state start := by
  refine h.initial.safe ⟨⟨state, h.recorded, ?_⟩, ?_, ?_⟩
  · rw [h.consumed]
    rfl
  · rw [h.consumed]
    trivial
  · rw [h.consumed]
    exact List.forall_mem_nil _

/-- While nobody or somebody holds the lock, the state file counts what was taken. -/
theorem CountsFrom.exists_state (h : CountsFrom path scope state s) :
    ∃ current, Recorded scope (s.store.files.read path) current ∧
      current.value = state.value + s.store.consumed.length ∧
      Counted state.value s.store.consumed := by
  by_cases hfree : s.Free
  · obtain ⟨⟨current, hrecorded, hvalue⟩, hcounted, -⟩ := h.free hfree
    exact ⟨current, hrecorded, hvalue, hcounted⟩
  · unfold System.Free at hfree
    push Not at hfree
    obtain ⟨p, lock, ticket, stage, hp⟩ := hfree
    obtain ⟨⟨⟨current, hrecorded, hvalue⟩, hcounted, -⟩, -⟩ := h.held p lock ticket stage hp
    exact ⟨current, hrecorded, hvalue, hcounted⟩

/-- What is returned was taken. -/
theorem CountsFrom.mem_consumed (h : CountsFrom path scope state s) {call : ℕ × Nonce192}
    (hcall : call ∈ returned s) : call ∈ s.store.consumed :=
  h.finished call.1 (.ok call.2) (mem_returned.mp hcall) call.2 rfl

/-- **Nonces are returned in the order of the lock.** -/
theorem CountsFrom.returned_lt (h : CountsFrom path scope state s) {a b : ℕ × Nonce192}
    (ha : a ∈ returned s) (hb : b ∈ returned s) (hlt : a.1 < b.1) :
    nonceValue a.2 < nonceValue b.2 := by
  obtain ⟨current, -, -, hcounted⟩ := h.exists_state
  exact hcounted.lt_of_lt (h.mem_consumed ha) (h.mem_consumed hb) hlt

/-- Every call returns once. -/
theorem CountsFrom.returned_places (h : CountsFrom path scope state s) :
    (returned s).Pairwise fun a b => a.1 ≠ b.1 := by
  have hfinished : s.finished.Pairwise fun a b => a.1 ≠ b.1 :=
    List.pairwise_map.mp h.ordered.finished_nodup
  refine List.Pairwise.filterMap _ ?_ hfinished
  intro a a' hne b hb b' hb'
  have hplace : ∀ {call : ℕ × Except Fault Nonce192} {taken : ℕ × Nonce192},
      taken ∈ call.2.toOption.map (call.1, ·) → taken.1 = call.1 := by
    rintro ⟨ticket, result⟩ taken htaken
    cases result with
    | error e => cases htaken
    | ok nonce =>
      obtain rfl := Option.some.inj htaken
      rfl
  rw [hplace hb, hplace hb']
  exact hne

/-- **No nonce is returned twice.** -/
theorem CountsFrom.returned_nodup (h : CountsFrom path scope state s) :
    ((returned s).map Prod.snd).Nodup := by
  refine List.pairwise_map.mpr (h.returned_places.imp_of_mem ?_)
  intro a b ha hb hne heq
  rcases Nat.lt_or_gt_of_ne hne with hlt | hgt
  · exact absurd (heq ▸ h.returned_lt ha hb hlt) (lt_irrefl _)
  · exact absurd (heq ▸ h.returned_lt hb ha hgt) (lt_irrefl _)

/-- **What is returned is below what is persisted.** -/
theorem CountsFrom.returned_below (h : CountsFrom path scope state s) :
    ∃ current, Recorded scope (s.store.files.read path) current ∧
      ∀ call ∈ returned s,
        current.exhausted = true ∨ nonceValue call.2 < nonceValue current.next := by
  obtain ⟨current, hrecorded, hvalue, hcounted⟩ := h.exists_state
  refine ⟨current, hrecorded, fun call hcall => ?_⟩
  have hlt := hcounted.lt (h.mem_consumed hcall)
  cases hexhausted : current.exhausted with
  | true => exact .inl rfl
  | false =>
    rw [CounterState.value_of_not_exhausted hexhausted] at hvalue
    exact .inr (hlt.trans_eq hvalue.symm)

/-! ## The last nonce -/

/-- Once the last nonce is returned, nobody has one in hand. -/
theorem CountsFrom.exhausted (h : CountsFrom path scope state s) {call : ℕ × Nonce192}
    (hcall : call ∈ returned s) (hlast : nonceValue call.2 = 2 ^ 192 - 1) :
    (∃ current, Recorded scope (s.store.files.read path) current ∧ current.value = 2 ^ 192) ∧
    ∀ p lock ticket stage, s.phase p = .holding lock ticket stage → stage.replaced = false := by
  obtain ⟨current, hrecorded, hvalue, hcounted⟩ := h.exists_state
  have hlt := hcounted.lt (h.mem_consumed hcall)
  have hle := current.value_le
  refine ⟨⟨current, hrecorded, by omega⟩, fun p lock ticket stage hp => ?_⟩
  cases hreplaced : stage.replaced with
  | false => rfl
  | true =>
    -- a call after the last one would have taken a higher nonce
    obtain ⟨-, -, hmem, -⟩ := h.held p lock ticket stage hp
    obtain ⟨nonce, hnonce⟩ := hmem hreplaced
    obtain ⟨-, -, htickets⟩ := h.ordered.held p lock ticket stage hp
    have hfinished : call.1 ∈ s.finished.map Prod.fst :=
      List.mem_map.mpr ⟨_, mem_returned.mp hcall, rfl⟩
    have hplace := h.ordered.finished_lt _ hfinished
    have hne : call.1 ≠ ticket := by
      intro heq
      exact (h.ordered.ticket_lt p ticket (by rw [hp]; rfl)).2 (heq ▸ hfinished)
    have hhigher := hcounted.lt_of_lt (h.mem_consumed hcall) hnonce (by dsimp only; omega)
    have hbelow := hcounted.lt hnonce
    dsimp only at hhigher hbelow
    omega

/-- What the calls know once the last nonce is returned. -/
theorem CountsFrom.safe_exhausted (h : CountsFrom path scope state s) {call : ℕ × Nonce192}
    (hcall : call ∈ returned s) (hlast : nonceValue call.2 = 2 ^ 192 - 1) (thrown : Fault → Prop) :
    Safe (allocateCalls path scope) (fun _ store => store = s.store)
      (HeldExhausted path scope (s.store.files.read path) s.store s.tickets thrown)
      (LeftExhausted s.tickets thrown) s where
  ordered := h.ordered
  free := fun _ => rfl
  held := fun p lock ticket stage hp => by
    have hreplaced := (h.exhausted hcall hlast).2 p lock ticket stage hp
    obtain ⟨-, ⟨bytes, hsound⟩, -⟩ := h.held p lock ticket stage hp
    obtain ⟨-, -, htickets⟩ := h.ordered.held p lock ticket stage hp
    obtain rfl := hsound.read_of_not_replaced hreplaced
    exact ⟨rfl, hreplaced, hsound, fun hle => absurd hle (by omega)⟩
  left := fun p ticket result hp hle => by
    have hlt := (h.ordered.ticket_lt p ticket (by rw [hp]; rfl)).1
    omega
  finished := fun ticket result hmem hle => by
    have hlt := h.ordered.finished_lt ticket (List.mem_map.mpr ⟨_, hmem, rfl⟩)
    omega

variable [DecidableEq Pid]

theorem CountsFrom.run (h : CountsFrom path scope state s)
    (hrun : Run (allocateCalls path scope) s s') : CountsFrom path scope state s' :=
  (counts_protects path scope state.value).run h hrun

/-- **Every call can be completed**, whatever was killed before. -/
theorem CountsFrom.exists_finished (h : CountsFrom path scope state s) {p : Pid}
    (hp : s.phase p = .outside) :
    ∃ s' result, LockedCalls.Undisturbed (allocateCalls path scope) s s' ∧
      s'.phase p = .outside ∧ s'.tickets = s.tickets + 1 ∧
      s'.finished = (s.tickets, result) :: s.finished :=
  (allocateCalls_advances path scope state.value).exists_finished
    (counts_protects path scope state.value).toProtects h hp

/-- **After the last nonce** every later call throws and no file changes; without failures it
throws the overflow. -/
theorem CountsFrom.after_last (h : CountsFrom path scope state s) {call : ℕ × Nonce192}
    (hcall : call ∈ returned s) (hlast : nonceValue call.2 = 2 ^ 192 - 1) :
    (∀ s', Run (allocateCalls path scope) s s' → s'.store.files = s.store.files ∧
      ∀ later ∈ s'.finished, s.tickets ≤ later.1 → ∃ e, later.2 = .error e) ∧
    ∀ s', LockedCalls.Undisturbed (allocateCalls path scope) s s' →
      ∀ later ∈ s'.finished, s.tickets ≤ later.1 → later.2 = .error exhaustedFault := by
  obtain ⟨⟨current, hrecorded, hvalue⟩, -⟩ := h.exhausted hcall hlast
  have hplace := h.ordered.finished_lt _ (List.mem_map.mpr ⟨_, mem_returned.mp hcall, rfl⟩)
  have hentry : ∃ lock, s.store.files.entry (lockPath path) = some lock :=
    h.ordered.lock_opened (by omega)
  constructor
  · intro s' hrun
    have hsafe := (exhausted_protectsFailing hentry rfl hrecorded hvalue).run
      (h.safe_exhausted hcall hlast fun _ => True) hrun
    constructor
    · by_cases hfree : s'.Free
      · exact congrArg CounterStore.files (hsafe.free hfree)
      · unfold System.Free at hfree
        push Not at hfree
        obtain ⟨p, lock, ticket, stage, hp⟩ := hfree
        exact congrArg CounterStore.files (hsafe.held p lock ticket stage hp).1
    · intro later hlater hle
      obtain ⟨e, he, -⟩ := hsafe.finished later.1 later.2 hlater hle
      exact ⟨e, he⟩
  · intro s' hrun later hlater hle
    have hprotects := @exhausted_protects path scope _ s.store s.tickets (· = exhaustedFault)
      current hentry rfl hrecorded hvalue rfl
    have hsafe := hprotects.undisturbed (h.safe_exhausted hcall hlast _) hrun
    obtain ⟨e, he, rfl⟩ := hsafe.finished later.1 later.2 hlater hle
    exact he

/-! ## What an attempt does to the state file -/

/-- A call that does not hold the lock leaves the state file alone. -/
theorem read_eq_of_not_holding {p : Pid}
    (hp : ∀ lock ticket stage, s.phase p ≠ .holding lock ticket stage)
    (hstep : Step (allocateCalls path scope) p s s' ∨ Failure (allocateCalls path scope) p s s') :
    s'.store.files.read path = s.store.files.read path := by
  rcases hstep with hstep | hfailure
  · cases hstep with
    | opens _ => exact read_openCreate_of_ne s.store.files (lockPath_ne path).symm
    | inside hp' _ => exact absurd hp' (hp _ _ _)
    | _ => rfl
  · cases hfailure <;> rfl

variable (path scope) in
/-- An attempt that got the lock in state `s` and stops somewhere leaves the state file as it
was, where it stops before the `rename`, and has taken one nonce from it otherwise. -/
def AttemptsKeep (s : CounterSystem Pid) : Prop :=
  ∀ p lock ticket stage s₁ s₂, s.phase p = .holding lock ticket .opening →
    Run (allocateCalls path scope) s s₁ → s₁.phase p = .holding lock ticket stage →
    (Step (allocateCalls path scope) p s₁ s₂ ∨ Failure (allocateCalls path scope) p s₁ s₂) →
    (∀ lock ticket stage, s₂.phase p ≠ .holding lock ticket stage) →
    (stage.replaced = false → s₂.store.files.read path = s.store.files.read path) ∧
    (stage.replaced = true → ∃ before after,
      Recorded scope (s.store.files.read path) before ∧
      s₂.store.files.read path = some (recordBytes after) ∧ after.scope = scope ∧
      after.value = before.value + 1)

theorem CountsFrom.attemptsKeep (h : CountsFrom path scope state s) :
    AttemptsKeep path scope s := by
  intro p lock ticket stage s₁ s₂ hp hrun hp₁ hstop hp₂
  obtain ⟨hbefore, hafter⟩ := attempt_effect h.ordered hp hrun hp₁ hstop hp₂
  refine ⟨hbefore, fun hreplaced => ?_⟩
  obtain ⟨nonce, job, hjob, -, hread⟩ := hafter hreplaced
  obtain ⟨current, hrecorded, -⟩ := h.exists_state
  obtain ⟨-, hvalue, hrecord⟩ := hrecorded.job hjob
  exact ⟨current, job.updated, hrecorded, hread, hrecord.scope_eq, hvalue⟩

/-- **Without failures** the calls return one number after the other, from the one in the state
file on, and throw when there is none left. -/
theorem Start.numbered (h : Start path scope start state)
    (hrun : LockedCalls.Undisturbed (allocateCalls path scope) start s) :
    ∀ call ∈ s.finished,
      (state.value + call.1 < 2 ^ 192 →
        ∃ nonce, call.2 = .ok nonce ∧ nonceValue nonce = state.value + call.1) ∧
      (2 ^ 192 ≤ state.value + call.1 → call.2 = .error exhaustedFault) := by
  have hfree : FreeNumbered path scope state.value 0 start.store :=
    ⟨state, h.recorded, (min_eq_right state.value_le).symm⟩
  have hsafe := (numbered_protects path scope state.value).undisturbed (h.initial.safe hfree) hrun
  intro call hcall
  rcases hsafe.finished call.1 call.2 hcall with ⟨nonce, hresult, hvalue⟩ | ⟨hthrown, hle⟩
  · have hlt := nonceValue_lt nonce
    exact ⟨fun _ => ⟨nonce, hresult, hvalue⟩, fun hge => absurd hge (by omega)⟩
  · exact ⟨fun hlt => absurd hlt (by omega), fun _ => hthrown⟩

/-- **As many nonces as there are** can be returned, here all to one process. -/
theorem Start.exists_returned (h : Start path scope start state) (p : Pid) {n : ℕ}
    (hleft : state.value + n ≤ 2 ^ 192) :
    ∃ s, LockedCalls.Undisturbed (allocateCalls path scope) start s ∧ s.phase p = .outside ∧
      s.tickets = n ∧ (returned s).map (Prod.map id nonceValue)
        = (List.range n).reverse.map fun place => (place, state.value + place) := by
  induction n with
  | zero =>
    refine ⟨start, .refl, h.initial.phase p, h.initial.tickets, ?_⟩
    unfold returned
    rw [h.initial.finished]
    rfl
  | succ n ih =>
    obtain ⟨s, hrun, houtside, htickets, hreturned⟩ := ih (by omega)
    obtain ⟨s', result, hcall, houtside', htickets', hfinished⟩ :=
      (h.countsFrom.run hrun.run).exists_finished houtside
    have hundisturbed := hrun.trans hcall
    rw [htickets] at hfinished htickets'
    obtain ⟨hvalue, -⟩ :=
      h.numbered hundisturbed (n, result) (hfinished ▸ List.mem_cons_self)
    obtain ⟨nonce, rfl, hnonce⟩ := hvalue (by dsimp only; omega)
    have hmore : returned s' = (n, nonce) :: returned s := by
      unfold returned
      rw [hfinished]
      rfl
    refine ⟨s', hundisturbed, houtside', htickets', ?_⟩
    rw [hmore, List.map_cons, hreturned, List.range_succ, List.reverse_append, Prod.map_apply,
      hnonce]
    rfl

end Returned

/-- **Allocation across processes.**  Whatever any number of processes do that call `allocate`
on one state path with one scope, and whichever of them are killed or meet failing system calls:

* no nonce is returned twice, and later holders of the lock return higher nonces;
* the state file is absent or has one complete record, and what is returned is below it;
* only a call that holds the lock touches the state file; one that stops before the `rename`
  leaves it as it was, and one that stops after it has taken one nonce;
* without failures the call at each place returns the number of this place;
* once the last nonce is returned no file changes, and every later call throws;
* and every call can be completed. -/
theorem allocations_across_processes {Pid : Type} [DecidableEq Pid] {path : ResolvedPath}
    {scope : NonceScope128} {start s : CounterSystem Pid} {state : CounterState}
    (hstart : Start path scope start state) (hrun : Run (allocateCalls path scope) start s) :
    ((returned s).map Prod.snd).Nodup ∧
    (∀ a ∈ returned s, ∀ b ∈ returned s, a.1 < b.1 → nonceValue a.2 < nonceValue b.2) ∧
    (∃ current, Recorded scope (s.store.files.read path) current ∧
      ∀ call ∈ returned s,
        current.exhausted = true ∨ nonceValue call.2 < nonceValue current.next) ∧
    (∀ p s', (∀ lock ticket stage, s.phase p ≠ .holding lock ticket stage) →
      (Step (allocateCalls path scope) p s s' ∨ Failure (allocateCalls path scope) p s s') →
      s'.store.files.read path = s.store.files.read path) ∧
    AttemptsKeep path scope s ∧
    (LockedCalls.Undisturbed (allocateCalls path scope) start s →
      ∀ call ∈ s.finished,
        (state.value + call.1 < 2 ^ 192 →
          ∃ nonce, call.2 = .ok nonce ∧ nonceValue nonce = state.value + call.1) ∧
        (2 ^ 192 ≤ state.value + call.1 → call.2 = .error exhaustedFault)) ∧
    (∀ call ∈ returned s, nonceValue call.2 = 2 ^ 192 - 1 →
      (∀ s', Run (allocateCalls path scope) s s' → s'.store.files = s.store.files ∧
        ∀ later ∈ s'.finished, s.tickets ≤ later.1 → ∃ e, later.2 = .error e) ∧
      ∀ s', LockedCalls.Undisturbed (allocateCalls path scope) s s' →
        ∀ later ∈ s'.finished, s.tickets ≤ later.1 → later.2 = .error exhaustedFault) ∧
    ∀ p, s.phase p = .outside →
      ∃ s' result, LockedCalls.Undisturbed (allocateCalls path scope) s s' ∧
        s'.phase p = .outside ∧ s'.finished = (s.tickets, result) :: s.finished := by
  have hcounts := hstart.countsFrom.run hrun
  refine ⟨hcounts.returned_nodup, fun a ha b hb hlt => hcounts.returned_lt ha hb hlt,
    hcounts.returned_below, fun p s' hp hstep => read_eq_of_not_holding hp hstep,
    hcounts.attemptsKeep, hstart.numbered, ?_, fun p hp => ?_⟩
  · intro call hcall hlast
    exact hcounts.after_last hcall hlast
  · obtain ⟨s', result, hundisturbed, houtside, -, hfinished⟩ := hcounts.exists_finished hp
    exact ⟨s', result, hundisturbed, houtside, hfinished⟩

/-- No file, no call yet. -/
def unused (Pid : Type) : CounterSystem Pid :=
  ⟨⟨.empty, []⟩, fun _ => none, fun _ => .outside, 0, [], []⟩

theorem start_unused (Pid : Type) (path : ResolvedPath) (scope : NonceScope128) :
    Start path scope (unused Pid) (.initial scope) where
  initial := ⟨fun _ => rfl, fun _ => rfl, rfl, rfl⟩
  recorded := .inl ⟨rfl, rfl⟩
  consumed := rfl

/-- The first call of one of two processes, which returns the first nonce. -/
theorem allocations_across_processes_first :
    ∃ s nonce, Run (allocateCalls (localFile (text "nonce.state") (by decide))
        (Vector.replicate 16 7)) (unused Bool) s ∧
      returned s = [(0, nonce)] ∧ nonceValue nonce = 0 ∧
      ((returned s).map Prod.snd).Nodup := by
  have hstart := start_unused Bool (localFile (text "nonce.state") (by decide))
    (Vector.replicate 16 7)
  obtain ⟨-, -, -, -, -, -, -, hfinish⟩ := allocations_across_processes hstart .refl
  obtain ⟨s, result, hrun, -, hfinished⟩ := hfinish true rfl
  obtain ⟨hnodup, -, -, -, -, hnumbered, -⟩ := allocations_across_processes hstart hrun.run
  obtain ⟨hvalue, -⟩ := hnumbered hrun (0, result) (hfinished ▸ List.mem_cons_self)
  rw [CounterState.value_initial] at hvalue
  obtain ⟨nonce, rfl, hnonce⟩ := hvalue (by norm_num)
  refine ⟨s, nonce, hrun.run, ?_, hnonce, hnodup⟩
  unfold returned
  rw [hfinished]
  rfl
