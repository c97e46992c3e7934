/-
# Invariants of stateful runs that may fail

A call that mutates objects it holds by reference and may throw is an `EStateM`
run: the objects are the state, and they survive the throw.  This module has
the rules by which an invariant of the objects is carried through such a run:
one rule for each way runs are put together, and an induction for each kind of
loop.  Nothing here depends on what the objects are.
-/
import Mathlib

namespace StatefulRuns

variable {φ σ α β : Type}

/-- `Leads I x J Q`: started in a state satisfying `I`, the run `x` does not fail,
ends in a state satisfying `J` and returns a value satisfying `Q`. -/
def Leads (I : σ → Prop) (x : EStateM φ σ α) (J : σ → Prop) (Q : α → Prop) : Prop :=
  ∀ s, I s → ∃ a s', x.run s = .ok a s' ∧ J s' ∧ Q a

/-- The run keeps the invariant `I`. -/
abbrev Keeps (I : σ → Prop) (x : EStateM φ σ α) (Q : α → Prop) : Prop := Leads I x I Q

/-! ## Runs on a part of the state -/

/-- Run `x` on the part of the state that `get` reads and `put` writes back; the
part is written back even when `x` throws. -/
def zoom {τ : Type} (part : σ → τ) (put : τ → σ → σ) (x : EStateM φ τ α) : EStateM φ σ α :=
  fun s => match x.run (part s) with
    | .ok a t => .ok a (put t s)
    | .error e t => .error e (put t s)

theorem zoom_run_of_ok {τ : Type} {part : σ → τ} {put : τ → σ → σ} {x : EStateM φ τ α}
    (s : σ) {a : α} {t : τ} (h : x.run (part s) = .ok a t) :
    (zoom part put x).run s = .ok a (put t s) := by
  simp only [EStateM.run] at h
  simp only [zoom, EStateM.run, h]

theorem zoom_run_of_error {τ : Type} {part : σ → τ} {put : τ → σ → σ} {x : EStateM φ τ α}
    (s : σ) {e : φ} {t : τ} (h : x.run (part s) = .error e t) :
    (zoom part put x).run s = .error e (put t s) := by
  simp only [EStateM.run] at h
  simp only [zoom, EStateM.run, h]

/-- What `Except` decides, as a run that leaves the state alone. -/
def lift (x : Except φ α) : EStateM φ σ α :=
  fun s => match x with
    | .ok a => .ok a s
    | .error e => .error e s

@[simp] theorem lift_ok_run (a : α) (s : σ) : (lift (.ok a : Except φ α)).run s = .ok a s := rfl

@[simp] theorem lift_error_run (e : φ) (s : σ) :
    (lift (.error e : Except φ α)).run s = .error e s := rfl

/-- A run is what it does from every state. -/
theorem run_ext {x y : EStateM φ σ α} (h : ∀ s, x.run s = y.run s) : x = y := funext h

/-- What a lifted decision returns, it decides. -/
theorem eq_ok_of_lift_run {x : Except φ α} {a : α} {s s' : σ}
    (h : (lift x : EStateM φ σ α).run s = .ok a s') : x = .ok a := by
  cases x with
  | ok b =>
    obtain ⟨rfl, -⟩ := EStateM.Result.ok.inj h
    rfl
  | error e => exact absurd h (by simp)

/-! ## Composition -/

theorem except_ok_bind (a : α) (f : α → Except φ β) : (Except.ok a >>= f) = f a := rfl

/-- A composed decision that succeeds has both parts succeed. -/
theorem exists_of_except_bind {x : Except φ α} {f : α → Except φ β} {b : β}
    (h : (x >>= f) = .ok b) : ∃ a, x = .ok a ∧ f a = .ok b := by
  cases x with
  | ok a => exact ⟨a, rfl, h⟩
  | error e => cases h

theorem lift_ok_bind (a : α) (f : α → EStateM φ σ β) : (lift (.ok a) >>= f) = f a := rfl

/-- A run continues where its first part ends. -/
theorem run_bind_of_ok {x : EStateM φ σ α} {f : α → EStateM φ σ β} {s s' : σ} {a : α}
    (h : x.run s = .ok a s') : (x >>= f).run s = (f a).run s' := by
  rw [EStateM.run_bind, h]

/-- A run ends where its first part throws. -/
theorem run_bind_of_error {x : EStateM φ σ α} {f : α → EStateM φ σ β} {s s' : σ} {e : φ}
    (h : x.run s = .error e s') : (x >>= f).run s = .error e s' := by
  rw [EStateM.run_bind, h]

/-- A composed run that returns has both parts return. -/
theorem exists_of_run_bind {x : EStateM φ σ α} {f : α → EStateM φ σ β} {s s'' : σ} {b : β}
    (h : (x >>= f).run s = .ok b s'') :
    ∃ a s', x.run s = .ok a s' ∧ (f a).run s' = .ok b s'' := by
  cases hx : x.run s with
  | ok a s' =>
    rw [run_bind_of_ok hx] at h
    exact ⟨a, s', rfl, h⟩
  | error e s' =>
    rw [run_bind_of_error hx] at h
    cases h

theorem keeps_pure {I : σ → Prop} {Q : α → Prop} {a : α} (ha : Q a) :
    Keeps I (pure a : EStateM φ σ α) Q :=
  fun s hs => ⟨a, s, rfl, hs, ha⟩

/-- What `Except` decides keeps every invariant. -/
theorem keeps_lift {I : σ → Prop} {x : Except φ α} {a : α} (hx : x = .ok a) :
    Keeps I (lift x : EStateM φ σ α) (· = a) := by
  subst hx
  exact keeps_pure rfl

/-- An update that establishes an invariant. -/
theorem leads_modify {I J : σ → Prop} {f : σ → σ} (hf : ∀ s, I s → J (f s)) :
    Leads I (modify f : EStateM φ σ PUnit) J fun _ => True :=
  fun s hs => ⟨(), f s, rfl, hf s hs, trivial⟩

/-- Sequencing: the second run starts where the first ends, and may use what it
returned. -/
theorem Leads.bind {I J K : σ → Prop} {x : EStateM φ σ α} {f : α → EStateM φ σ β}
    {Q : α → Prop} {R : β → Prop} (hx : Leads I x J Q) (hf : ∀ a, Q a → Leads J (f a) K R) :
    Leads I (x >>= f) K R := by
  intro s hs
  obtain ⟨a, s₁, hrun, hs₁, ha⟩ := hx s hs
  obtain ⟨b, s₂, hrun', hs₂, hb⟩ := hf a ha s₁ hs₁
  exact ⟨b, s₂, by rw [EStateM.run_bind, hrun]; exact hrun', hs₂, hb⟩

/-- Weakening what is known of the result. -/
theorem Leads.mono {I J : σ → Prop} {x : EStateM φ σ α} {Q R : α → Prop}
    (hx : Leads I x J Q) (hQR : ∀ a, Q a → R a) : Leads I x J R := by
  intro s hs
  obtain ⟨a, s', hrun, hs', ha⟩ := hx s hs
  exact ⟨a, s', hrun, hs', hQR a ha⟩

/-- The rule of consequence. -/
theorem Leads.weaken {I I' J J' : σ → Prop} {x : EStateM φ σ α} {Q : α → Prop}
    (hx : Leads I x J Q) (hI : ∀ s, I' s → I s) (hJ : ∀ s, J s → J' s) : Leads I' x J' Q := by
  intro s hs
  obtain ⟨a, s', hrun, hs', ha⟩ := hx s (hI s hs)
  exact ⟨a, s', hrun, hJ s' hs', ha⟩

/-! ## Runs that may fail -/

/-- `Ends I x J E`: started in a state satisfying `I`, the run `x` returns in a state
satisfying `J`, or throws a fault and leaves a state that satisfy `E`. -/
def Ends (I : σ → Prop) (x : EStateM φ σ α) (J : σ → Prop) (E : φ → σ → Prop) : Prop :=
  ∀ s, I s → (∃ a s', x.run s = .ok a s' ∧ J s') ∨ ∃ e s', x.run s = .error e s' ∧ E e s'

/-- The run throws from every state satisfying `I`. -/
abbrev Fails (I : σ → Prop) (x : EStateM φ σ α) (E : φ → σ → Prop) : Prop :=
  Ends I x (fun _ => False) E

section Ends

variable {I J K : σ → Prop} {E : φ → σ → Prop} {x : EStateM φ σ α} {f : α → EStateM φ σ β}

theorem fails_throw {e : φ} (he : ∀ s, I s → E e s) : Fails I (throw e : EStateM φ σ α) E :=
  fun s hs => .inr ⟨e, s, rfl, he s hs⟩

theorem fails_lift {y : Except φ α} {e : φ} (hy : y = .error e) (he : ∀ s, I s → E e s) :
    Fails I (lift y : EStateM φ σ α) E := by
  subst hy
  exact fun s hs => .inr ⟨e, s, rfl, he s hs⟩

/-- What throws, after a part that does not. -/
theorem Leads.bind_ends {Q : α → Prop} (hx : Leads I x J Q) (hf : ∀ a, Q a → Ends J (f a) K E) :
    Ends I (x >>= f) K E := by
  intro s hs
  obtain ⟨a, s₁, hrun, hs₁, ha⟩ := hx s hs
  rw [run_bind_of_ok hrun]
  exact hf a ha s₁ hs₁

/-- Sequencing: what the first part throws ends the run. -/
theorem Ends.bind (hx : Ends I x J E) (hf : ∀ a, Ends J (f a) K E) : Ends I (x >>= f) K E := by
  intro s hs
  rcases hx s hs with ⟨a, s₁, hrun, hs₁⟩ | ⟨e, s₁, hrun, he⟩
  · rw [run_bind_of_ok hrun]
    exact hf a s₁ hs₁
  · exact .inr ⟨e, s₁, run_bind_of_error hrun, he⟩

/-- What fails never returns. -/
theorem Fails.ends (hx : Fails I x E) : Ends I x J E := by
  intro s hs
  rcases hx s hs with ⟨a, s', -, hfalse⟩ | hthrown
  · exact hfalse.elim
  · exact .inr hthrown

theorem Fails.exists_error (hx : Fails I x E) {s : σ} (hs : I s) :
    ∃ e s', x.run s = .error e s' ∧ E e s' :=
  (hx s hs).resolve_left fun ⟨_, _, _, hfalse⟩ => hfalse

theorem Fails.bind (hx : Fails I x E) : Fails I (x >>= f) E :=
  Ends.bind hx fun _ _ hs => hs.elim

/-- A loop that throws in its first pass. -/
theorem fails_forM_cons {g : α → EStateM φ σ PUnit} {a : α} {l : List α} (hg : Fails I (g a) E) :
    Fails I (forM (a :: l) g) E := by
  rw [List.forM_cons]
  exact Fails.bind hg

theorem fails_foldlM_cons {g : β → α → EStateM φ σ β} {a : α} {l : List α} {b : β}
    (hg : Fails I (g b a) E) : Fails I ((a :: l).foldlM g b) E := by
  rw [List.foldlM_cons]
  exact Fails.bind hg

/-- What is left when a run has thrown. -/
theorem Ends.of_error (hx : Ends I x J E) {s s' : σ} {e : φ} (hs : I s)
    (hrun : x.run s = .error e s') : E e s' := by
  rcases hx s hs with ⟨a, s₁, hrun₁, -⟩ | ⟨e₁, s₁, hrun₁, he⟩
  · exact absurd (hrun.symm.trans hrun₁) (by simp)
  · obtain ⟨rfl, rfl⟩ := EStateM.Result.error.inj (hrun.symm.trans hrun₁)
    exact he

end Ends

/-! ## Runs with one outcome -/

/-- The runs return the same value, or throw exceptions of the same kind, and leave
the same state. -/
def SameOutcome {ε : Type} (kind : φ → ε) (x y : EStateM φ σ α) : Prop :=
  ∀ s, (∃ a s', x.run s = .ok a s' ∧ y.run s = .ok a s') ∨
    ∃ e e' s', x.run s = .error e s' ∧ y.run s = .error e' s' ∧ kind e = kind e'

theorem SameOutcome.refl {ε : Type} (kind : φ → ε) (x : EStateM φ σ α) :
    SameOutcome kind x x := by
  intro s
  cases h : x.run s with
  | ok a s' => exact .inl ⟨a, s', rfl, rfl⟩
  | error e s' => exact .inr ⟨e, e, s', rfl, rfl, rfl⟩

theorem SameOutcome.trans {ε : Type} {kind : φ → ε} {x y z : EStateM φ σ α}
    (hxy : SameOutcome kind x y) (hyz : SameOutcome kind y z) : SameOutcome kind x z := by
  intro s
  rcases hxy s with ⟨a, s', hx, hy⟩ | ⟨e, e', s', hx, hy, he⟩
  · rcases hyz s with ⟨b, t, hy', hz⟩ | ⟨e, e', t, hy', -, -⟩
    · rw [hy] at hy'
      exact .inl ⟨a, s', hx, by rw [hz]; exact hy'.symm⟩
    · exact absurd (hy.symm.trans hy') (by simp)
  · rcases hyz s with ⟨b, t, hy', -⟩ | ⟨f, f', t, hy', hz, hf⟩
    · exact absurd (hy.symm.trans hy') (by simp)
    · obtain ⟨rfl, rfl⟩ := EStateM.Result.error.inj (hy.symm.trans hy')
      exact .inr ⟨e, f', s', hx, hz, he.trans hf⟩

/-- Sequencing: the second runs need to agree on what the first one returns. -/
theorem SameOutcome.bind_returned {ε : Type} {kind : φ → ε} {x y : EStateM φ σ α}
    {f g : α → EStateM φ σ β} (hxy : SameOutcome kind x y)
    (hfg : ∀ a s s', x.run s = .ok a s' → SameOutcome kind (f a) (g a)) :
    SameOutcome kind (x >>= f) (y >>= g) := by
  intro s
  rcases hxy s with ⟨a, s', hx, hy⟩ | ⟨e, e', s', hx, hy, he⟩
  · rw [run_bind_of_ok hx, run_bind_of_ok hy]
    exact hfg a s s' hx s'
  · exact .inr ⟨e, e', s', run_bind_of_error hx, run_bind_of_error hy, he⟩

theorem SameOutcome.bind {ε : Type} {kind : φ → ε} {x y : EStateM φ σ α}
    {f g : α → EStateM φ σ β} (hxy : SameOutcome kind x y)
    (hfg : ∀ a, SameOutcome kind (f a) (g a)) : SameOutcome kind (x >>= f) (y >>= g) :=
  hxy.bind_returned fun a _ _ _ => hfg a

/-- Two decisions agree: they decide the same value, or faults of the same kind. -/
def Agree {ε : Type} (kind : φ → ε) (x y : Except φ α) : Prop :=
  (∃ a, x = .ok a ∧ y = .ok a) ∨ ∃ e e', x = .error e ∧ y = .error e' ∧ kind e = kind e'

theorem SameOutcome.lift {ε : Type} {kind : φ → ε} {x y : Except φ α} (h : Agree kind x y) :
    SameOutcome kind (lift x : EStateM φ σ α) (lift y) := by
  intro s
  rcases h with ⟨a, rfl, rfl⟩ | ⟨e, e', rfl, rfl, he⟩
  · exact .inl ⟨a, s, rfl, rfl⟩
  · exact .inr ⟨e, e', s, rfl, rfl, he⟩

/-! ## Loops -/

/-- A loop without a result: every pass keeps the invariant. -/
theorem keeps_forM {I : σ → Prop} {f : α → EStateM φ σ PUnit} (l : List α)
    (hf : ∀ a ∈ l, Keeps I (f a) fun _ => True) : Keeps I (forM l f) fun _ => True := by
  induction l with
  | nil => exact keeps_pure trivial
  | cons a l ih =>
    rw [List.forM_cons]
    exact (hf a (by simp)).bind fun _ _ => ih fun b hb => hf b (by simp [hb])

/-- A loop with an accumulator: every pass keeps the invariant of the state and
the property of the accumulator. -/
theorem keeps_foldlM {I : σ → Prop} {Q : β → Prop} {f : β → α → EStateM φ σ β} (l : List α)
    (hf : ∀ a ∈ l, ∀ b, Q b → Keeps I (f b a) Q) :
    ∀ b, Q b → Keeps I (l.foldlM f b) Q := by
  induction l with
  | nil => intro b hb; exact keeps_pure hb
  | cons a l ih =>
    intro b hb
    rw [List.foldlM_cons]
    exact (hf a (by simp) b hb).bind fun c hc =>
      ih (fun a' ha' => hf a' (by simp [ha'])) c hc

/-- A loop with an accumulator, where what is known of the state and of the accumulator
depends on the number of passes made. -/
theorem leads_foldlM {f : β → α → EStateM φ σ β} (l : List α) :
    ∀ (I : ℕ → σ → Prop) (Q : ℕ → β → Prop),
      (∀ i (hi : i < l.length) b, Q i b →
        Leads (I i) (f b (l.get ⟨i, hi⟩)) (I (i + 1)) (Q (i + 1))) →
      ∀ b, Q 0 b → Leads (I 0) (l.foldlM f b) (I l.length) (Q l.length) := by
  induction l with
  | nil =>
    intro I Q _ b hb
    exact keeps_pure hb
  | cons a l ih =>
    intro I Q hf b hb
    rw [List.foldlM_cons]
    refine (hf 0 (Nat.zero_lt_succ _) b hb).bind fun c hc => ?_
    -- the remaining passes are counted from one
    exact ih (fun i => I (i + 1)) (fun i => Q (i + 1))
      (fun i hi d hd => hf (i + 1) (Nat.succ_lt_succ hi) d hd) c hc

/-- The first `k` passes of a loop over the indices of an array. -/
theorem leads_foldlM_take {n k : ℕ} {I : ℕ → σ → Prop} {Q : ℕ → β → Prop}
    {f : β → Fin n → EStateM φ σ β}
    (hf : ∀ (i : Fin n) b, Q i.val b → Leads (I i.val) (f b i) (I (i.val + 1)) (Q (i.val + 1)))
    (hk : k ≤ n) {b : β} (hb : Q 0 b) :
    Leads (I 0) (((List.finRange n).take k).foldlM f b) (I k) (Q k) := by
  have hloop := leads_foldlM (f := f) ((List.finRange n).take k) I Q (fun i hi c hc => by
    have hin : i < n := by simp at hi; omega
    rw [List.get_eq_getElem, List.getElem_take, List.getElem_finRange]
    exact hf ⟨i, hin⟩ c hc) b hb
  rwa [List.length_take, List.length_finRange, min_eq_left hk] at hloop

/-- A loop over the indices of an array. -/
theorem leads_foldlM_finRange {n : ℕ} {I : ℕ → σ → Prop} {Q : ℕ → β → Prop}
    {f : β → Fin n → EStateM φ σ β}
    (hf : ∀ (i : Fin n) b, Q i.val b → Leads (I i.val) (f b i) (I (i.val + 1)) (Q (i.val + 1)))
    {b : β} (hb : Q 0 b) : Leads (I 0) ((List.finRange n).foldlM f b) (I n) (Q n) := by
  have hloop := leads_foldlM_take hf le_rfl hb
  rwa [List.take_of_length_le (List.length_finRange.le)] at hloop

/-- A loop without a result, where the invariant depends on the number of passes made. -/
theorem leads_forM {f : α → EStateM φ σ PUnit} (l : List α) :
    ∀ I : ℕ → σ → Prop,
      (∀ i (hi : i < l.length), Leads (I i) (f (l.get ⟨i, hi⟩)) (I (i + 1)) fun _ => True) →
      Leads (I 0) (forM l f) (I l.length) fun _ => True := by
  induction l with
  | nil =>
    intro I _
    exact keeps_pure trivial
  | cons a l ih =>
    intro I hf
    rw [List.forM_cons]
    refine (hf 0 (Nat.zero_lt_succ _)).bind fun _ _ => ?_
    exact ih (fun i => I (i + 1)) fun i hi => hf (i + 1) (Nat.succ_lt_succ hi)

theorem leads_forM_finRange {n : ℕ} {I : ℕ → σ → Prop} {f : Fin n → EStateM φ σ PUnit}
    (hf : ∀ i : Fin n, Leads (I i.val) (f i) (I (i.val + 1)) fun _ => True) :
    Leads (I 0) (forM (List.finRange n) f) (I n) fun _ => True := by
  have hloop := leads_forM (f := f) (List.finRange n) I fun i hi => by
    have hin : i < n := by rwa [List.length_finRange] at hi
    rw [List.get_eq_getElem, List.getElem_finRange]
    exact hf ⟨i, hin⟩
  rwa [List.length_finRange] at hloop

/-- A loop over the numbers below `n`, where the invariant depends on the number
reached. -/
theorem leads_forM_range {Inv : ℕ → σ → Prop} {f : ℕ → EStateM φ σ PUnit} {n : ℕ}
    (hf : ∀ i < n, Leads (Inv i) (f i) (Inv (i + 1)) fun _ => True) :
    Leads (Inv 0) (forM (List.range n) f) (Inv n) fun _ => True := by
  have hloop := leads_forM (f := f) (List.range n) Inv fun i hi => by
    rw [List.get_eq_getElem, List.getElem_range]
    rw [List.length_range] at hi
    exact hf i hi
  rwa [List.length_range] at hloop

/-- `for (i = start; i < stop; i = next i)`, where every pass advances. -/
def forBy (next : ℕ → ℕ) (stop start : ℕ) (hnext : ∀ i, start ≤ i → i < next i)
    (body : ∀ i, start ≤ i → EStateM φ σ PUnit) : EStateM φ σ PUnit :=
  if start < stop then do
    body start le_rfl
    forBy next stop (next start) (fun i hi => hnext i ((hnext start le_rfl).le.trans hi))
      fun i hi => body i ((hnext start le_rfl).le.trans hi)
  else pure ()
termination_by stop - start
decreasing_by
  have hadvance := hnext start le_rfl
  omega

/-- **The loop rule**: every pass carries the invariant to the next index, and the
loop ends at an index that has reached `stop`. -/
theorem leads_forBy {Inv : ℕ → σ → Prop} {next : ℕ → ℕ} {stop start : ℕ}
    {hnext : ∀ i, start ≤ i → i < next i} {body : ∀ i, start ≤ i → EStateM φ σ PUnit}
    (hbody : ∀ i hi, i < stop → Leads (Inv i) (body i hi) (Inv (next i)) fun _ => True) :
    Leads (Inv start) (forBy next stop start hnext body) (fun s => ∃ i, stop ≤ i ∧ Inv i s)
      fun _ => True := by
  induction hmeasure : stop - start using Nat.strong_induction_on generalizing start with
  | _ measure ih =>
    rw [forBy]
    by_cases hstart : start < stop
    · have hadvance := hnext start le_rfl
      rw [if_pos hstart]
      refine (hbody start le_rfl hstart).bind fun _ _ => ?_
      exact ih (stop - next start) (by omega) (fun i hi => hbody i (hadvance.le.trans hi)) rfl
    · rw [if_neg hstart]
      intro s hs
      exact ⟨(), s, rfl, ⟨start, not_lt.mp hstart, hs⟩, trivial⟩

/-- Loops whose passes have one outcome. -/
theorem SameOutcome.foldlM {ε : Type} {kind : φ → ε} {f g : β → α → EStateM φ σ β}
    (hfg : ∀ b a, SameOutcome kind (f b a) (g b a)) (l : List α) :
    ∀ b, SameOutcome kind (l.foldlM f b) (l.foldlM g b) := by
  induction l with
  | nil => exact fun b => SameOutcome.refl kind _
  | cons a l ih =>
    intro b
    rw [List.foldlM_cons, List.foldlM_cons]
    exact (hfg b a).bind ih

/-- **Forward simulation of loops**: where each pass that returns is followed by a pass on the
other side, a loop that returns is followed by a loop. -/
theorem foldlM_simulates {ε ε' γ ι : Type} {R : β → γ → Prop} {f : β → ι → Except ε β}
    {g : γ → ι → Except ε' γ}
    (hstep : ∀ b c i b', R b c → f b i = .ok b' → ∃ c', g c i = .ok c' ∧ R b' c') (l : List ι) :
    ∀ b c b', R b c → l.foldlM f b = .ok b' → ∃ c', l.foldlM g c = .ok c' ∧ R b' c' := by
  induction l with
  | nil =>
    intro b c b' hR h
    obtain rfl := Except.ok.inj h
    exact ⟨c, rfl, hR⟩
  | cons i l ih =>
    intro b c b' hR h
    rw [List.foldlM_cons] at h
    obtain ⟨b₁, hfirst, hrest⟩ := exists_of_except_bind h
    obtain ⟨c₁, hfollows, hR₁⟩ := hstep b c i b₁ hR hfirst
    obtain ⟨c', hrest', hR'⟩ := ih b₁ c₁ b' hR₁ hrest
    exact ⟨c', by rw [List.foldlM_cons, hfollows, except_ok_bind, hrest'], hR'⟩

/-- A loop over the indices of an array, where the property of the accumulator
depends on the index reached. -/
theorem foldlM_finRange_ok {n : ℕ} (P : ℕ → β → Prop) {f : β → Fin n → Except φ β}
    (hf : ∀ i b, P i.val b → ∃ b', f b i = .ok b' ∧ P (i.val + 1) b') {b : β} (hb : P 0 b) :
    ∃ b', (List.finRange n).foldlM f b = .ok b' ∧ P n b' := by
  induction n with
  | zero => exact ⟨b, rfl, hb⟩
  | succ n ih =>
    obtain ⟨c, hrun, hc⟩ := @ih (fun b i => f b i.castSucc) fun i b => hf i.castSucc b
    obtain ⟨d, hlast, hd⟩ := hf (Fin.last n) c hc
    refine ⟨d, ?_, hd⟩
    rw [List.finRange_succ_last, List.foldlM_append, List.foldlM_map, hrun]
    show List.foldlM f c [Fin.last n] = .ok d
    rw [List.foldlM_cons, hlast]
    rfl

end StatefulRuns
