/-
# Calls under a lock

Processes that call one procedure again and again: a call opens a lock, waits for it,
works in stages while it holds the lock, releases it and gives its result back.  Steps
of different processes interleave freely; a process may be killed at any moment, and
what it asks for may be refused.

The lock makes the stages of one call exclude those of all others.  So an assertion
about the shared store that every stage keeps and that every release and every kill
re-establishes holds in all runs: this is the rule `Protects` below, whose conditions
speak of one call only.
-/
import Mathlib

namespace LockedCalls

/-! ## Calls and systems -/

/-- The calls.  A stage with a `result` releases the lock; `Inside` has the steps of the
others, for the call with the given place in the order of the lock.  The lock is found in
the store, and no step moves it. -/
structure Calls (Lock Store Stage Result : Type) : Type where
  opened : Store → Lock × Store
  first : Stage
  Inside : ℕ → Store → Stage → Store → Stage → Prop
  Fails : Stage → Stage → Prop
  result : Stage → Option Result
  openRefused : Result
  lockRefused : Result
  lockOf : Store → Option Lock
  lockOf_opened : ∀ store, lockOf (opened store).2 = some (opened store).1
  opened_eq : ∀ store lock, lockOf store = some lock → opened store = (lock, store)
  lockOf_inside : ∀ ticket store stage store' stage', Inside ticket store stage store' stage' →
    lockOf store' = lockOf store

/-- Where a process is. -/
inductive Phase (Lock Stage Result : Type) : Type where
  | outside
  | opening
  | locking (lock : Lock)
  | holding (lock : Lock) (ticket : ℕ) (stage : Stage)
  | leaving (ticket : ℕ) (result : Result)
  | killed

/-- The place of a call in the order of the lock. -/
def Phase.ticket {Lock Stage Result : Type} : Phase Lock Stage Result → Option ℕ
  | holding _ ticket _ => some ticket
  | leaving ticket _ => some ticket
  | _ => none

/-- All processes, the store, and the history: how often the lock was taken, what the calls
that took it gave back, and what the calls gave back that did not get it. -/
structure System (Pid Lock Store Stage Result : Type) : Type where
  store : Store
  holder : Lock → Option Pid
  phase : Pid → Phase Lock Stage Result
  tickets : ℕ
  finished : List (ℕ × Result)
  refused : List Result

section Systems

variable {Pid Lock Store Stage Result : Type} (c : Calls Lock Store Stage Result)
  (s : System Pid Lock Store Stage Result)

/-- No call has been made yet. -/
structure Initial : Prop where
  phase : ∀ p, s.phase p = .outside
  holder : ∀ lock, s.holder lock = none
  tickets : s.tickets = 0
  finished : s.finished = []

/-- Nobody holds the lock. -/
def System.Free : Prop := ∀ p lock ticket stage, s.phase p ≠ .holding lock ticket stage

/-- **Who has the lock**: at most one process, with the last ticket; and no two calls have the
same ticket. -/
structure Ordered : Prop where
  opened : ∀ p lock, s.phase p = .locking lock → c.lockOf s.store = some lock
  held : ∀ p lock ticket stage, s.phase p = .holding lock ticket stage →
    c.lockOf s.store = some lock ∧ s.holder lock = some p ∧ ticket + 1 = s.tickets
  holds : ∀ p lock, s.holder lock = some p → ∃ ticket stage, s.phase p = .holding lock ticket stage
  lock_opened : 0 < s.tickets → ∃ lock, c.lockOf s.store = some lock
  ticket_lt : ∀ p ticket, (s.phase p).ticket = some ticket →
    ticket < s.tickets ∧ ticket ∉ s.finished.map Prod.fst
  ticket_inj : ∀ p q ticket, (s.phase p).ticket = some ticket →
    (s.phase q).ticket = some ticket → p = q
  finished_lt : ∀ ticket ∈ s.finished.map Prod.fst, ticket < s.tickets
  finished_nodup : (s.finished.map Prod.fst).Nodup

variable {c s} {p q : Pid}

theorem Initial.ordered (h : Initial s) : Ordered c s where
  opened := fun p lock hp => by
    rw [h.phase p] at hp
    cases hp
  held := fun p lock ticket stage hp => by
    rw [h.phase p] at hp
    cases hp
  holds := fun p lock hlock => by
    rw [h.holder lock] at hlock
    cases hlock
  lock_opened := fun htickets => absurd h.tickets (Nat.ne_of_gt htickets)
  ticket_lt := fun p ticket hp => by
    rw [h.phase p] at hp
    cases hp
  ticket_inj := fun p q ticket hp _ => by
    rw [h.phase p] at hp
    cases hp
  finished_lt := fun ticket hticket => by
    rw [h.finished] at hticket
    cases hticket
  finished_nodup := by
    rw [h.finished]
    exact List.nodup_nil

/-- **Mutual exclusion.** -/
theorem Ordered.exclusive (h : Ordered c s) {lock lock' : Lock} {ticket ticket' : ℕ}
    {stage stage' : Stage} (hp : s.phase p = .holding lock ticket stage)
    (hq : s.phase q = .holding lock' ticket' stage') : p = q := by
  obtain ⟨hlock, hholder, -⟩ := h.held p lock ticket stage hp
  obtain ⟨hlock', hholder', -⟩ := h.held q lock' ticket' stage' hq
  obtain rfl := Option.some.inj (hlock.symm.trans hlock')
  exact Option.some.inj (hholder.symm.trans hholder')

/-- A lock that can be taken is held by nobody. -/
theorem Ordered.free_of_holder (h : Ordered c s) {lock : Lock} (hp : s.phase p = .locking lock)
    (hfree : s.holder lock = none) : s.Free := by
  intro q lock' ticket stage hq
  obtain ⟨hlock', hholder, -⟩ := h.held q lock' ticket stage hq
  obtain rfl := Option.some.inj ((h.opened p lock hp).symm.trans hlock')
  rw [hfree] at hholder
  cases hholder

/-- A lock that was there is there when it is opened. -/
theorem lockOf_opened_of_some {store : Store} {lock : Lock} (h : c.lockOf store = some lock) :
    c.lockOf (c.opened store).2 = some lock := by
  rw [c.opened_eq store lock h]
  exact h

end Systems

section Runs

variable {Pid Lock Store Stage Result : Type} [DecidableEq Pid]

/-- The system with a process in another phase. -/
def System.goto (s : System Pid Lock Store Stage Result) (p : Pid)
    (phase : Phase Lock Stage Result) : System Pid Lock Store Stage Result :=
  { s with phase := Function.update s.phase p phase }

/-- A process in another phase, or in its own. -/
theorem goto_cases {s : System Pid Lock Store Stage Result} {p q : Pid}
    {phase phase' : Phase Lock Stage Result}
    (h : (s.goto p phase).phase q = phase') :
    (q = p ∧ phase' = phase) ∨ (q ≠ p ∧ s.phase q = phase') := by
  rcases eq_or_ne q p with rfl | hne
  · exact .inl ⟨rfl, h.symm.trans (Function.update_self _ _ _)⟩
  · exact .inr ⟨hne, (Function.update_of_ne hne _ _).symm.trans h⟩

variable [DecidableEq Lock] (c : Calls Lock Store Stage Result)

/-- A step of process `p` in which nothing goes wrong. -/
inductive Step (p : Pid) : System Pid Lock Store Stage Result →
    System Pid Lock Store Stage Result → Prop where
  | calls {s} (hp : s.phase p = .outside) : Step p s (s.goto p .opening)
  | opens {s} (hp : s.phase p = .opening) :
    Step p s { s.goto p (.locking (c.opened s.store).1) with store := (c.opened s.store).2 }
  | acquires {s lock} (hp : s.phase p = .locking lock) (hfree : s.holder lock = none) :
    Step p s { s.goto p (.holding lock s.tickets c.first) with
      holder := Function.update s.holder lock (some p), tickets := s.tickets + 1 }
  | inside {s lock ticket stage store' stage'} (hp : s.phase p = .holding lock ticket stage)
      (hinside : c.Inside ticket s.store stage store' stage') :
    Step p s { s.goto p (.holding lock ticket stage') with store := store' }
  | releases {s lock ticket stage result} (hp : s.phase p = .holding lock ticket stage)
      (hresult : c.result stage = some result) :
    Step p s { s.goto p (.leaving ticket result) with
      holder := Function.update s.holder lock none }
  | leaves {s ticket result} (hp : s.phase p = .leaving ticket result) :
    Step p s { s.goto p .outside with finished := (ticket, result) :: s.finished }

/-- A failure that meets process `p`.  The end of a process releases the lock it holds. -/
inductive Failure (p : Pid) : System Pid Lock Store Stage Result →
    System Pid Lock Store Stage Result → Prop where
  | opens {s} (hp : s.phase p = .opening) :
    Failure p s { s.goto p .outside with refused := c.openRefused :: s.refused }
  | acquires {s lock} (hp : s.phase p = .locking lock) :
    Failure p s { s.goto p .outside with refused := c.lockRefused :: s.refused }
  | inside {s lock ticket stage stage'} (hp : s.phase p = .holding lock ticket stage)
      (hfails : c.Fails stage stage') : Failure p s (s.goto p (.holding lock ticket stage'))
  | kill {s} : Failure p s { s.goto p .killed with
      holder := fun lock => if s.holder lock = some p then none else s.holder lock }

/-- Runs without failures. -/
def Undisturbed : System Pid Lock Store Stage Result → System Pid Lock Store Stage Result → Prop :=
  Relation.ReflTransGen fun s s' => ∃ p, Step c p s s'

/-- Runs in which any process may meet failures. -/
def Run : System Pid Lock Store Stage Result → System Pid Lock Store Stage Result → Prop :=
  Relation.ReflTransGen fun s s' => ∃ p, Step c p s s' ∨ Failure c p s s'

variable {c}

theorem Undisturbed.run {s s' : System Pid Lock Store Stage Result} (h : Undisturbed c s s') :
    Run c s s' := by
  unfold Undisturbed at h
  unfold Run
  exact h.lift id fun _ _ ⟨p, hstep⟩ => ⟨p, .inl hstep⟩

end Runs

/-! ## The order is kept -/

section Order

variable {Pid Lock Store Stage Result : Type} [DecidableEq Pid]
  {c : Calls Lock Store Stage Result} {s s' : System Pid Lock Store Stage Result} {p q : Pid}

/-- A process that goes where it has no other ticket takes none. -/
theorem ticket_of_goto {phase : Phase Lock Stage Result} {ticket : ℕ}
    (hkeeps : ∀ ticket', phase.ticket = some ticket' → (s.phase p).ticket = some ticket')
    (hq : ((s.goto p phase).phase q).ticket = some ticket) :
    (s.phase q).ticket = some ticket := by
  generalize hphase : (s.goto p phase).phase q = phase' at hq
  rcases goto_cases hphase with ⟨rfl, rfl⟩ | ⟨-, rfl⟩
  · exact hkeeps ticket hq
  · exact hq

/-- A process that does not hold the lock goes where it does not hold it either. -/
theorem Ordered.quiet (h : Ordered c s)
    (hp : ∀ lock ticket stage, s.phase p ≠ .holding lock ticket stage)
    {phase : Phase Lock Stage Result} (hticket : phase.ticket = none) {store : Store}
    (hstore : ∀ lock, c.lockOf s.store = some lock → c.lockOf store = some lock)
    (hlock : ∀ lock, phase = .locking lock → c.lockOf store = some lock) {refused : List Result} :
    Ordered c { s.goto p phase with store := store, refused := refused } where
  opened := fun q lock hq => by
    rcases goto_cases hq with ⟨-, hphase⟩ | ⟨-, hq⟩
    · exact hlock lock hphase.symm
    · exact hstore lock (h.opened q lock hq)
  held := fun q lock ticket stage hq => by
    rcases goto_cases hq with ⟨-, rfl⟩ | ⟨-, hq⟩
    · cases hticket
    · obtain ⟨hlockOf, hholder, htickets⟩ := h.held q lock ticket stage hq
      exact ⟨hstore lock hlockOf, hholder, htickets⟩
  holds := fun q lock hq => by
    obtain ⟨ticket, stage, hphase⟩ := h.holds q lock hq
    rcases eq_or_ne q p with rfl | hne
    · exact absurd hphase (hp lock ticket stage)
    · exact ⟨ticket, stage, (Function.update_of_ne hne _ _).trans hphase⟩
  lock_opened := fun htickets => by
    obtain ⟨lock, hlockOf⟩ := h.lock_opened htickets
    exact ⟨lock, hstore lock hlockOf⟩
  ticket_lt := fun q ticket hq =>
    h.ticket_lt q ticket (ticket_of_goto (fun _ hsome => by simp [hticket] at hsome) hq)
  ticket_inj := fun q q' ticket hq hq' =>
    h.ticket_inj q q' ticket (ticket_of_goto (fun _ hsome => by simp [hticket] at hsome) hq)
      (ticket_of_goto (fun _ hsome => by simp [hticket] at hsome) hq')
  finished_lt := h.finished_lt
  finished_nodup := h.finished_nodup

/-- The holder of the lock goes to another stage. -/
theorem Ordered.stage (h : Ordered c s) {lock : Lock} {ticket : ℕ} {stage : Stage}
    (hp : s.phase p = .holding lock ticket stage) {store : Store}
    (hstore : c.lockOf store = c.lockOf s.store) (stage' : Stage) :
    Ordered c { s.goto p (.holding lock ticket stage') with store := store } where
  opened := fun q lock' hq => by
    rcases goto_cases hq with ⟨-, hphase⟩ | ⟨-, hq⟩
    · cases hphase
    · exact hstore.trans (h.opened q lock' hq)
  held := fun q lock' ticket' stage'' hq => by
    rcases goto_cases hq with ⟨rfl, hphase⟩ | ⟨-, hq⟩
    · cases hphase
      obtain ⟨hlockOf, hholder, htickets⟩ := h.held q lock ticket stage hp
      exact ⟨hstore.trans hlockOf, hholder, htickets⟩
    · obtain ⟨hlockOf, hholder, htickets⟩ := h.held q lock' ticket' stage'' hq
      exact ⟨hstore.trans hlockOf, hholder, htickets⟩
  holds := fun q lock' hq => by
    obtain ⟨ticket', stage'', hphase⟩ := h.holds q lock' hq
    rcases eq_or_ne q p with rfl | hne
    · rw [hp] at hphase
      cases hphase
      exact ⟨ticket, stage', Function.update_self _ _ _⟩
    · exact ⟨ticket', stage'', (Function.update_of_ne hne _ _).trans hphase⟩
  lock_opened := fun _ => ⟨lock, hstore.trans (h.held p lock ticket stage hp).1⟩
  ticket_lt := fun q ticket' hq =>
    h.ticket_lt q ticket' (ticket_of_goto (fun _ hsome => hp ▸ hsome) hq)
  ticket_inj := fun q q' ticket' hq hq' =>
    h.ticket_inj q q' ticket' (ticket_of_goto (fun _ hsome => hp ▸ hsome) hq)
      (ticket_of_goto (fun _ hsome => hp ▸ hsome) hq')
  finished_lt := h.finished_lt
  finished_nodup := h.finished_nodup

/-- A call gives its result back. -/
theorem Ordered.leave (h : Ordered c s) {ticket : ℕ} {result : Result}
    (hp : s.phase p = .leaving ticket result) :
    Ordered c { s.goto p .outside with finished := (ticket, result) :: s.finished } where
  opened := fun q lock' hq => by
    rcases goto_cases hq with ⟨-, hphase⟩ | ⟨-, hq⟩
    · cases hphase
    · exact h.opened q lock' hq
  held := fun q lock' ticket' stage' hq => by
    rcases goto_cases hq with ⟨-, hphase⟩ | ⟨-, hq⟩
    · cases hphase
    · exact h.held q lock' ticket' stage' hq
  holds := fun q lock' hq => by
    obtain ⟨ticket', stage', hphase⟩ := h.holds q lock' hq
    rcases eq_or_ne q p with rfl | hne
    · rw [hp] at hphase
      cases hphase
    · exact ⟨ticket', stage', (Function.update_of_ne hne _ _).trans hphase⟩
  lock_opened := h.lock_opened
  ticket_lt := fun q ticket' hq => by
    generalize hphase : (s.goto p .outside).phase q = phase' at hq
    rcases goto_cases hphase with ⟨-, rfl⟩ | ⟨hne, rfl⟩
    · cases hq
    · obtain ⟨hlt, hmem⟩ := h.ticket_lt q ticket' hq
      refine ⟨hlt, fun hcons => ?_⟩
      rcases List.mem_cons.mp hcons with rfl | hmem'
      · -- the ticket that finishes was `p`'s alone
        exact hne (h.ticket_inj q p ticket' hq (by rw [hp]; rfl))
      · exact hmem hmem'
  ticket_inj := fun q q' ticket' hq hq' =>
    h.ticket_inj q q' ticket' (ticket_of_goto (fun _ hsome => by cases hsome) hq)
      (ticket_of_goto (fun _ hsome => by cases hsome) hq')
  finished_lt := fun ticket' hmem => by
    rcases List.mem_cons.mp hmem with rfl | hmem
    · exact (h.ticket_lt p _ (by rw [hp]; rfl)).1
    · exact h.finished_lt ticket' hmem
  finished_nodup :=
    List.nodup_cons.mpr ⟨(h.ticket_lt p ticket (by rw [hp]; rfl)).2, h.finished_nodup⟩

/-- A killed process that does not hold the lock changes no holder. -/
theorem Ordered.holder_of_not_holding (h : Ordered c s)
    (hp : ∀ lock ticket stage, s.phase p ≠ .holding lock ticket stage) :
    (fun lock => if s.holder lock = some p then none else s.holder lock) = s.holder := by
  funext lock
  refine if_neg fun hholder => ?_
  obtain ⟨ticket, stage, hphase⟩ := h.holds p lock hholder
  exact hp lock ticket stage hphase

variable [DecidableEq Lock]

/-- The holder of the lock gives it up. -/
theorem Ordered.release (h : Ordered c s) {lock : Lock} {ticket : ℕ} {stage : Stage}
    (hp : s.phase p = .holding lock ticket stage) {phase : Phase Lock Stage Result}
    (hlock : ∀ lock', phase ≠ .locking lock')
    (hheld : ∀ lock' ticket' stage', phase ≠ .holding lock' ticket' stage')
    (hticket : ∀ ticket', phase.ticket = some ticket' → ticket' = ticket) :
    Ordered c { s.goto p phase with holder := Function.update s.holder lock none } := by
  have hkeeps : ∀ ticket', phase.ticket = some ticket' →
      (s.phase p).ticket = some ticket' := by
    intro ticket' hsome
    rw [hp, hticket ticket' hsome]
    rfl
  exact {
    opened := fun q lock' hq => by
      rcases goto_cases hq with ⟨-, hphase⟩ | ⟨-, hq⟩
      · exact absurd hphase.symm (hlock lock')
      · exact h.opened q lock' hq
    held := fun q lock' ticket' stage' hq => by
      rcases goto_cases hq with ⟨-, hphase⟩ | ⟨hne, hq⟩
      · exact absurd hphase.symm (hheld lock' ticket' stage')
      · exact absurd (h.exclusive hq hp) hne
    holds := fun q lock' hq => by
      have hq : Function.update s.holder lock none lock' = some q := hq
      rcases eq_or_ne lock' lock with rfl | hne
      · rw [Function.update_self] at hq
        cases hq
      · rw [Function.update_of_ne hne] at hq
        obtain ⟨ticket', stage', hphase⟩ := h.holds q lock' hq
        -- no process holds two locks, so `q` is not the one that releases
        obtain rfl := h.exclusive hphase hp
        rw [hp] at hphase
        cases hphase
        exact absurd rfl hne
    lock_opened := h.lock_opened
    ticket_lt := fun q ticket' hq =>
      h.ticket_lt q ticket' (ticket_of_goto hkeeps hq)
    ticket_inj := fun q q' ticket' hq hq' =>
      h.ticket_inj q q' ticket' (ticket_of_goto hkeeps hq) (ticket_of_goto hkeeps hq')
    finished_lt := h.finished_lt
    finished_nodup := h.finished_nodup }

/-- A process takes the lock. -/
theorem Ordered.acquire (h : Ordered c s) {lock : Lock} (hp : s.phase p = .locking lock)
    (hfree : s.holder lock = none) (stage : Stage) :
    Ordered c { s.goto p (.holding lock s.tickets stage) with
      holder := Function.update s.holder lock (some p), tickets := s.tickets + 1 } where
  opened := fun q lock' hq => by
    rcases goto_cases hq with ⟨-, hphase⟩ | ⟨-, hq⟩
    · cases hphase
    · exact h.opened q lock' hq
  held := fun q lock' ticket' stage' hq => by
    rcases goto_cases hq with ⟨rfl, hphase⟩ | ⟨-, hq⟩
    · cases hphase
      exact ⟨h.opened q lock hp, Function.update_self _ _ _, rfl⟩
    · exact absurd hq (h.free_of_holder hp hfree q lock' ticket' stage')
  holds := fun q lock' hq => by
    have hq : Function.update s.holder lock (some p) lock' = some q := hq
    rcases eq_or_ne lock' lock with rfl | hne
    · rw [Function.update_self] at hq
      obtain rfl := Option.some.inj hq
      exact ⟨s.tickets, stage, Function.update_self _ _ _⟩
    · rw [Function.update_of_ne hne] at hq
      obtain ⟨ticket', stage', hphase⟩ := h.holds q lock' hq
      exact absurd hphase (h.free_of_holder hp hfree q lock' ticket' stage')
  lock_opened := fun _ => ⟨lock, h.opened p lock hp⟩
  ticket_lt := fun q ticket' hq => by
    generalize hphase : (s.goto p (.holding lock s.tickets stage)).phase q = phase' at hq
    rcases goto_cases hphase with ⟨-, rfl⟩ | ⟨-, rfl⟩
    · obtain rfl := Option.some.inj hq
      exact ⟨Nat.lt_succ_self _, fun hmem => lt_irrefl _ (h.finished_lt _ hmem)⟩
    · obtain ⟨hlt, hmem⟩ := h.ticket_lt q ticket' hq
      exact ⟨hlt.trans (Nat.lt_succ_self _), hmem⟩
  ticket_inj := fun q q' ticket' hq hq' => by
    generalize hphase : (s.goto p (.holding lock s.tickets stage)).phase q = phase' at hq
    generalize hphase' : (s.goto p (.holding lock s.tickets stage)).phase q' = phase'' at hq'
    -- the new ticket is above every ticket given out before
    rcases goto_cases hphase with ⟨rfl, rfl⟩ | ⟨-, rfl⟩ <;>
      rcases goto_cases hphase' with ⟨rfl, rfl⟩ | ⟨-, rfl⟩
    · rfl
    · obtain rfl := Option.some.inj hq
      exact absurd (h.ticket_lt q' _ hq').1 (lt_irrefl _)
    · obtain rfl := Option.some.inj hq'
      exact absurd (h.ticket_lt q _ hq).1 (lt_irrefl _)
    · exact h.ticket_inj q q' ticket' hq hq'
  finished_lt := fun ticket' hmem => (h.finished_lt ticket' hmem).trans (Nat.lt_succ_self _)
  finished_nodup := h.finished_nodup

/-- A killed holder gives up its lock. -/
theorem Ordered.holder_of_holding (h : Ordered c s) {lock : Lock} {ticket : ℕ} {stage : Stage}
    (hp : s.phase p = .holding lock ticket stage) :
    (fun lock => if s.holder lock = some p then none else s.holder lock)
      = Function.update s.holder lock none := by
  funext lock'
  rcases eq_or_ne lock' lock with rfl | hne
  · rw [Function.update_self, if_pos (h.held p lock' ticket stage hp).2.1]
  · rw [Function.update_of_ne hne]
    refine if_neg fun hholder => ?_
    obtain ⟨ticket', stage', hphase⟩ := h.holds p lock' hholder
    rw [hp] at hphase
    cases hphase
    exact hne rfl

theorem Ordered.step (h : Ordered c s) (hstep : Step c p s s') : Ordered c s' := by
  cases hstep with
  | calls hp =>
    refine h.quiet (fun lock ticket stage hheld => ?_) rfl (fun lock hlock => hlock) ?_
    · rw [hp] at hheld
      cases hheld
    · intro lock hphase
      cases hphase
  | opens hp =>
    refine h.quiet (fun lock ticket stage hheld => ?_) rfl
      (fun lock hlock => lockOf_opened_of_some hlock) ?_
    · rw [hp] at hheld
      cases hheld
    · intro lock hphase
      cases hphase
      exact c.lockOf_opened s.store
  | acquires hp hfree => exact h.acquire hp hfree c.first
  | inside hp hinside => exact h.stage hp (c.lockOf_inside _ _ _ _ _ hinside) _
  | releases hp hresult =>
    exact h.release hp (by simp) (by simp) fun ticket' hticket => (Option.some.inj hticket).symm
  | leaves hp => exact h.leave hp

theorem Ordered.failure (h : Ordered c s) (hfailure : Failure c p s s') : Ordered c s' := by
  cases hfailure with
  | opens hp =>
    refine h.quiet (fun lock ticket stage hheld => ?_) rfl (fun lock hlock => hlock) ?_
    · rw [hp] at hheld
      cases hheld
    · intro lock hphase
      cases hphase
  | acquires hp =>
    refine h.quiet (fun lock ticket stage hheld => ?_) rfl (fun lock hlock => hlock) ?_
    · rw [hp] at hheld
      cases hheld
    · intro lock hphase
      cases hphase
  | inside hp hfails => exact h.stage hp rfl _
  | kill =>
    by_cases hheld : ∃ lock ticket stage, s.phase p = .holding lock ticket stage
    · obtain ⟨lock, ticket, stage, hp⟩ := hheld
      rw [h.holder_of_holding hp]
      exact h.release hp (by simp) (by simp) fun ticket' hticket => by cases hticket
    · have hp : ∀ lock ticket stage, s.phase p ≠ .holding lock ticket stage :=
        fun lock ticket stage hp => hheld ⟨lock, ticket, stage, hp⟩
      rw [h.holder_of_not_holding hp]
      refine h.quiet hp rfl (fun lock hlock => hlock) ?_
      intro lock hphase
      cases hphase

end Order

/-! ## The rule of the lock -/

section Rule

variable {Pid Lock Store Stage Result : Type} (c : Calls Lock Store Stage Result)
  (Free : ℕ → Store → Prop) (Held : ℕ → Store → Stage → Prop) (Left : ℕ → Result → Store → Prop)

/-- **What one call owes the others.**  `Free` holds of the store while nobody has the lock, for
the number of calls that had it; `Held` while a call has it; and `Left` for the results of the
calls that have released it. -/
structure Protects : Prop where
  opens : ∀ tickets store, Free tickets store → Free tickets (c.opened store).2
  opens_left : ∀ ticket result store, Left ticket result store →
    Left ticket result (c.opened store).2
  acquires : ∀ tickets store, Free tickets store → Held tickets store c.first
  inside : ∀ ticket store stage store' stage', Held ticket store stage →
    c.Inside ticket store stage store' stage' → Held ticket store' stage'
  inside_left : ∀ ticket store stage store' stage', Held ticket store stage →
    c.Inside ticket store stage store' stage' →
      ∀ ticket' result, Left ticket' result store → Left ticket' result store'
  releases : ∀ ticket store stage result, Held ticket store stage → c.result stage = some result →
    Free (ticket + 1) store ∧ Left ticket result store

/-- And where calls fail and are killed. -/
structure ProtectsFailing : Prop extends Protects c Free Held Left where
  fails : ∀ ticket store stage stage', Held ticket store stage → c.Fails stage stage' →
    Held ticket store stage'
  kills : ∀ ticket store stage, Held ticket store stage → Free (ticket + 1) store

/-- The assertions hold. -/
structure Safe (s : System Pid Lock Store Stage Result) : Prop where
  ordered : Ordered c s
  free : s.Free → Free s.tickets s.store
  held : ∀ p lock ticket stage, s.phase p = .holding lock ticket stage → Held ticket s.store stage
  left : ∀ p ticket result, s.phase p = .leaving ticket result → Left ticket result s.store
  finished : ∀ ticket result, (ticket, result) ∈ s.finished → Left ticket result s.store

variable {c Free Held Left} {s s' : System Pid Lock Store Stage Result} {p : Pid}

/-- The assertions hold before the first call. -/
theorem Initial.safe (h : Initial s) (hfree : Free 0 s.store) : Safe c Free Held Left s where
  ordered := h.ordered
  free := fun _ => h.tickets ▸ hfree
  held := fun p lock ticket stage hp => by
    rw [h.phase p] at hp
    cases hp
  left := fun p ticket result hp => by
    rw [h.phase p] at hp
    cases hp
  finished := fun ticket result hmem => by
    rw [h.finished] at hmem
    cases hmem

variable [DecidableEq Pid]

/-- Nobody else comes to hold the lock where a process goes. -/
theorem free_of_goto {phase : Phase Lock Stage Result} (h : (s.goto p phase).Free)
    (hp : ∀ lock ticket stage, s.phase p ≠ .holding lock ticket stage) : s.Free := by
  intro q lock ticket stage hq
  rcases eq_or_ne q p with rfl | hne
  · exact hp lock ticket stage hq
  · exact h q lock ticket stage ((Function.update_of_ne hne _ _).trans hq)

/-- A process that does not hold the lock goes where it owes nothing. -/
theorem Safe.quiet (h : Safe c Free Held Left s)
    (hp : ∀ lock ticket stage, s.phase p ≠ .holding lock ticket stage)
    {phase : Phase Lock Stage Result} (hticket : phase.ticket = none) {refused : List Result}
    (hordered : Ordered c { s.goto p phase with refused := refused }) :
    Safe c Free Held Left { s.goto p phase with refused := refused } where
  ordered := hordered
  free := fun hfree => by
    have hgone : (s.goto p phase).Free := hfree
    exact h.free (free_of_goto hgone hp)
  held := fun q lock ticket stage hq => by
    rcases goto_cases hq with ⟨-, rfl⟩ | ⟨-, hq⟩
    · cases hticket
    · exact h.held q lock ticket stage hq
  left := fun q ticket result hq => by
    rcases goto_cases hq with ⟨-, rfl⟩ | ⟨-, hq⟩
    · cases hticket
    · exact h.left q ticket result hq
  finished := h.finished

/-- The holder of the lock goes to another stage. -/
theorem Safe.stage (h : Safe c Free Held Left s) {lock : Lock} {ticket : ℕ} {stage : Stage}
    (hp : s.phase p = .holding lock ticket stage) {store : Store} {stage' : Stage}
    (hstore : c.lockOf store = c.lockOf s.store) (hheld : Held ticket store stage')
    (hleft : ∀ ticket' result, Left ticket' result s.store → Left ticket' result store) :
    Safe c Free Held Left { s.goto p (.holding lock ticket stage') with store := store } where
  ordered := h.ordered.stage hp hstore stage'
  free := fun hfree => absurd (Function.update_self _ _ _) (hfree p lock ticket stage')
  held := fun q lock' ticket' stage'' hq => by
    rcases goto_cases hq with ⟨-, hphase⟩ | ⟨hne, hq⟩
    · cases hphase
      exact hheld
    · exact absurd (h.ordered.exclusive hq hp) hne
  left := fun q ticket' result hq => by
    rcases goto_cases hq with ⟨-, hphase⟩ | ⟨-, hq⟩
    · cases hphase
    · exact hleft ticket' result (h.left q ticket' result hq)
  finished := fun ticket' result hmem => hleft ticket' result (h.finished ticket' result hmem)

variable [DecidableEq Lock]

/-- The holder of the lock gives it up. -/
theorem Safe.release (h : Safe c Free Held Left s) {lock : Lock} {ticket : ℕ} {stage : Stage}
    (hp : s.phase p = .holding lock ticket stage) {phase : Phase Lock Stage Result}
    (hlock : ∀ lock', phase ≠ .locking lock')
    (hheld : ∀ lock' ticket' stage', phase ≠ .holding lock' ticket' stage')
    (hticket : ∀ ticket', phase.ticket = some ticket' → ticket' = ticket)
    (hfree : Free (ticket + 1) s.store)
    (hleft : ∀ ticket' result, phase = .leaving ticket' result → Left ticket' result s.store) :
    Safe c Free Held Left
      { s.goto p phase with holder := Function.update s.holder lock none } where
  ordered := h.ordered.release hp hlock hheld hticket
  free := fun _ => (h.ordered.held p lock ticket stage hp).2.2 ▸ hfree
  held := fun q lock' ticket' stage' hq => by
    rcases goto_cases hq with ⟨-, hphase⟩ | ⟨-, hq⟩
    · exact absurd hphase.symm (hheld lock' ticket' stage')
    · exact h.held q lock' ticket' stage' hq
  left := fun q ticket' result hq => by
    rcases goto_cases hq with ⟨-, hphase⟩ | ⟨-, hq⟩
    · exact hleft ticket' result hphase.symm
    · exact h.left q ticket' result hq
  finished := h.finished

/-- **One step keeps the assertions.** -/
theorem Protects.step (hc : Protects c Free Held Left) (h : Safe c Free Held Left s)
    (hstep : Step c p s s') : Safe c Free Held Left s' := by
  have hordered := h.ordered.step hstep
  cases hstep with
  | calls hp => exact h.quiet (by simp [hp]) rfl hordered
  | opens hp =>
    have hnot : ∀ lock ticket stage, s.phase p ≠ .holding lock ticket stage := by simp [hp]
    constructor
    · exact hordered
    · intro hfree
      exact hc.opens _ _ (h.free (free_of_goto (s := s) hfree hnot))
    · intro q lock ticket stage hq
      rcases goto_cases hq with ⟨-, hphase⟩ | ⟨-, hq⟩
      · cases hphase
      · -- somebody has the lock, so it was there before
        rw [c.opened_eq _ _ (h.ordered.held q lock ticket stage hq).1]
        exact h.held q lock ticket stage hq
    · intro q ticket result hq
      rcases goto_cases hq with ⟨-, hphase⟩ | ⟨-, hq⟩
      · cases hphase
      · exact hc.opens_left _ _ _ (h.left q ticket result hq)
    · intro ticket result hmem
      exact hc.opens_left _ _ _ (h.finished ticket result hmem)
  | acquires hp hfree =>
    have hnobody := h.ordered.free_of_holder hp hfree
    constructor
    · exact hordered
    · intro hfree'
      exact absurd (Function.update_self _ _ _) (hfree' p _ _ _)
    · intro q lock' ticket stage hq
      rcases goto_cases hq with ⟨-, hphase⟩ | ⟨-, hq⟩
      · cases hphase
        exact hc.acquires _ _ (h.free hnobody)
      · exact absurd hq (hnobody q lock' ticket stage)
    · intro q ticket result hq
      rcases goto_cases hq with ⟨-, hphase⟩ | ⟨-, hq⟩
      · cases hphase
      · exact h.left q ticket result hq
    · exact h.finished
  | inside hp hinside =>
    have hheld := h.held p _ _ _ hp
    exact h.stage hp (c.lockOf_inside _ _ _ _ _ hinside) (hc.inside _ _ _ _ _ hheld hinside)
      (hc.inside_left _ _ _ _ _ hheld hinside)
  | @releases lock ticket stage result hp hresult =>
    obtain ⟨hfree, hleft⟩ := hc.releases _ _ _ _ (h.held p _ _ _ hp) hresult
    refine h.release hp (by simp) (by simp) (fun ticket' hticket => ?_) hfree ?_
    · exact (Option.some.inj hticket).symm
    · intro ticket' result' hphase
      cases hphase
      exact hleft
  | @leaves ticket result hp =>
    constructor
    · exact hordered
    · intro hfree
      have hgone : (s.goto p .outside).Free := hfree
      exact h.free (free_of_goto hgone (by simp [hp]))
    · intro q lock ticket' stage hq
      rcases goto_cases hq with ⟨-, hphase⟩ | ⟨-, hq⟩
      · cases hphase
      · exact h.held q lock ticket' stage hq
    · intro q ticket' result' hq
      rcases goto_cases hq with ⟨-, hphase⟩ | ⟨-, hq⟩
      · cases hphase
      · exact h.left q ticket' result' hq
    · intro ticket' result' hmem
      rcases List.mem_cons.mp hmem with heq | hmem
      · cases heq
        exact h.left p ticket result hp
      · exact h.finished ticket' result' hmem

/-- **One failure keeps the assertions.** -/
theorem ProtectsFailing.failure (hc : ProtectsFailing c Free Held Left)
    (h : Safe c Free Held Left s) (hfailure : Failure c p s s') : Safe c Free Held Left s' := by
  have hordered := h.ordered.failure hfailure
  cases hfailure with
  | opens hp => exact h.quiet (by simp [hp]) rfl hordered
  | acquires hp => exact h.quiet (by simp [hp]) rfl hordered
  | inside hp hfails =>
    exact h.stage hp rfl (hc.fails _ _ _ _ (h.held p _ _ _ hp) hfails) fun _ _ hleft => hleft
  | kill =>
    by_cases hheld : ∃ lock ticket stage, s.phase p = .holding lock ticket stage
    · obtain ⟨lock, ticket, stage, hp⟩ := hheld
      rw [h.ordered.holder_of_holding hp]
      exact h.release hp (by simp) (by simp) (fun ticket' hticket => by cases hticket)
        (hc.kills _ _ _ (h.held p _ _ _ hp)) (by simp)
    · have hp : ∀ lock ticket stage, s.phase p ≠ .holding lock ticket stage :=
        fun lock ticket stage hp => hheld ⟨lock, ticket, stage, hp⟩
      rw [h.ordered.holder_of_not_holding hp] at hordered ⊢
      exact h.quiet hp rfl hordered

/-- **The rule of the lock**: the assertions hold in every run without failures. -/
theorem Protects.undisturbed (hc : Protects c Free Held Left) (h : Safe c Free Held Left s)
    (hrun : Undisturbed c s s') : Safe c Free Held Left s' := by
  induction hrun with
  | refl => exact h
  | tail _ hstep ih =>
    obtain ⟨p, hstep⟩ := hstep
    exact hc.step ih hstep

/-- **The rule of the lock**, with failures. -/
theorem ProtectsFailing.run (hc : ProtectsFailing c Free Held Left) (h : Safe c Free Held Left s)
    (hrun : Run c s s') : Safe c Free Held Left s' := by
  induction hrun with
  | refl => exact h
  | tail _ hstep ih =>
    obtain ⟨p, hstep | hfailure⟩ := hstep
    · exact hc.step ih hstep
    · exact hc.failure ih hfailure

end Rule

/-! ## No call waits for ever -/

section Progress

variable {Pid Lock Store Stage Result : Type} [DecidableEq Pid] [DecidableEq Lock]
  {c : Calls Lock Store Stage Result} {Free : ℕ → Store → Prop} {Held : ℕ → Store → Stage → Prop}
  {Left : ℕ → Result → Store → Prop} {s : System Pid Lock Store Stage Result} {p : Pid}

variable (c Held) in
/-- A call that holds the lock can go on to the end, and every step brings it closer. -/
structure Advances (size : Stage → ℕ) : Prop where
  smaller : ∀ ticket store stage store' stage', c.Inside ticket store stage store' stage' →
    size stage' < size stage
  inside : ∀ ticket store stage, Held ticket store stage → c.result stage = none →
    ∃ store' stage', c.Inside ticket store stage store' stage'

/-- **The holder of the lock can always release it.** -/
theorem Advances.exists_release {size : Stage → ℕ} (ha : Advances c Held size)
    (hc : Protects c Free Held Left) (h : Safe c Free Held Left s) {lock : Lock} {ticket : ℕ}
    {stage : Stage} (hp : s.phase p = .holding lock ticket stage) :
    ∃ s' result, Undisturbed c s s' ∧ s'.phase p = .leaving ticket result ∧
      (∀ q, q ≠ p → s'.phase q = s.phase q) ∧ s'.holder lock = none ∧
      s'.tickets = s.tickets ∧ s'.finished = s.finished := by
  induction hsize : size stage using Nat.strong_induction_on generalizing s stage with
  | _ n ih =>
    subst hsize
    cases hresult : c.result stage with
    | some result =>
      have hstep := Step.releases (c := c) hp hresult
      exact ⟨_, result, .single ⟨p, hstep⟩, Function.update_self _ _ _,
        fun q hne => Function.update_of_ne hne _ _, Function.update_self _ _ _, rfl, rfl⟩
    | none =>
      obtain ⟨store', stage', hinside⟩ := ha.inside _ _ _ (h.held p _ _ _ hp) hresult
      have hstep := Step.inside (c := c) hp hinside
      obtain ⟨s', result, hrun, hleaving, hothers, hholder, htickets, hfinished⟩ :=
        ih _ (ha.smaller _ _ _ _ _ hinside) (hc.step h hstep) (Function.update_self _ _ _) rfl
      refine ⟨s', result, .head ⟨p, hstep⟩ hrun, hleaving, fun q hne => ?_, hholder, htickets,
        hfinished⟩
      exact (hothers q hne).trans (Function.update_of_ne hne _ _)

/-- A process that waits for the lock can get it, for the holder can release it. -/
theorem Advances.exists_holder_none {size : Stage → ℕ} (ha : Advances c Held size)
    (hc : Protects c Free Held Left) (h : Safe c Free Held Left s) {lock : Lock}
    (hp : s.phase p = .locking lock) :
    ∃ s', Undisturbed c s s' ∧ s'.phase p = .locking lock ∧ s'.holder lock = none ∧
      s'.tickets = s.tickets ∧ s'.finished = s.finished := by
  cases hholder : s.holder lock with
  | none => exact ⟨s, .refl, hp, hholder, rfl, rfl⟩
  | some q =>
    obtain ⟨ticket, stage, hq⟩ := h.ordered.holds q lock hholder
    obtain ⟨s', result, hrun, -, hothers, hfree, htickets, hfinished⟩ := ha.exists_release hc h hq
    have hne : p ≠ q := by
      rintro rfl
      rw [hp] at hq
      cases hq
    exact ⟨s', hrun, (hothers p hne).trans hp, hfree, htickets, hfinished⟩

/-- **Every call can be completed**, whatever has been killed before. -/
theorem Advances.exists_finished {size : Stage → ℕ} (ha : Advances c Held size)
    (hc : Protects c Free Held Left) (h : Safe c Free Held Left s) (hp : s.phase p = .outside) :
    ∃ s' result, Undisturbed c s s' ∧ s'.phase p = .outside ∧ s'.tickets = s.tickets + 1 ∧
      s'.finished = (s.tickets, result) :: s.finished := by
  have hcalls := Step.calls (c := c) hp
  have hopens := Step.opens (c := c) (s := s.goto p .opening) (Function.update_self _ _ _)
  have hsafe := hc.step (hc.step h hcalls) hopens
  obtain ⟨s₁, hrun₁, hlocking, hholder, htickets₁, hfinished₁⟩ :=
    ha.exists_holder_none hc hsafe (Function.update_self _ _ _)
  have hacquires := Step.acquires (c := c) hlocking hholder
  obtain ⟨s₂, result, hrun₂, hleaving, -, -, htickets₂, hfinished₂⟩ :=
    ha.exists_release hc (hc.step (hc.undisturbed hsafe hrun₁) hacquires)
      (Function.update_self _ _ _)
  have hleaves := Step.leaves (c := c) hleaving
  have htickets : s₂.tickets = s.tickets + 1 :=
    htickets₂.trans (congrArg (· + 1) htickets₁)
  have hfinished : s₂.finished = s.finished := hfinished₂.trans hfinished₁
  refine ⟨{ s₂.goto p .outside with finished := (s₁.tickets, result) :: s₂.finished }, result, ?_,
    Function.update_self _ _ _, htickets, ?_⟩
  · exact .head ⟨p, hcalls⟩ (.head ⟨p, hopens⟩
      (hrun₁.trans (.head ⟨p, hacquires⟩ (hrun₂.tail ⟨p, hleaves⟩))))
  · exact congrArg₂ (fun ticket rest => (ticket, result) :: rest) htickets₁ hfinished

end Progress

end LockedCalls
