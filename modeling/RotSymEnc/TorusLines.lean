/-
# Shifting one line of a grid

Positions of a grid are functions from a set of axes to a cyclic group of
coordinates.  `lineShift a p k` moves every position on the line through `p`
along axis `a` forward by `k` and fixes all others; it is a permutation of the
positions, and a filling of the grid is rotated by pulling it back along it.

Two facts are what a machine that rotates lines needs: the rotated filling holds
the same values (`lineRotate_eq_comp`), and a cursor that moves with the line
keeps the value under it (`lineRotate_cursor`).
-/
import Mathlib

namespace TorusLines

variable {ι G α : Type*}

/-! ## Lines -/

section Lines

/-- `q` lies on the line through `p` along axis `a`: the two agree on every
other axis. -/
def OnLine (a : ι) (p q : ι → G) : Prop := ∀ b, b ≠ a → q b = p b

theorem OnLine.symm {a : ι} {p q : ι → G} (h : OnLine a p q) : OnLine a q p :=
  fun b hb => (h b hb).symm

/-- Two points of one line have the same line through them. -/
theorem OnLine.congr {a : ι} {p q : ι → G} (h : OnLine a p q) (x : ι → G) :
    OnLine a p x ↔ OnLine a q x := by
  constructor
  · intro hx b hb
    rw [hx b hb, h b hb]
  · intro hx b hb
    rw [hx b hb, h b hb]

variable [DecidableEq ι]

instance [Fintype ι] [DecidableEq G] (a : ι) (p q : ι → G) : Decidable (OnLine a p q) :=
  inferInstanceAs (Decidable (∀ b, b ≠ a → q b = p b))

/-- Moving along the axis stays on the line. -/
@[simp] theorem onLine_update_iff {a : ι} {p q : ι → G} {x : G} :
    OnLine a p (Function.update q a x) ↔ OnLine a p q := by
  refine forall_congr' fun b => forall_congr' fun hb => ?_
  rw [Function.update_of_ne hb]

/-- The points of a line are its base point with one coordinate replaced. -/
theorem OnLine.eq_update {a : ι} {p q : ι → G} (h : OnLine a p q) :
    q = Function.update p a (q a) := by
  funext b
  by_cases hb : b = a
  · subst hb; simp
  · rw [Function.update_of_ne hb, h b hb]

/-- The base point of a line lies on it, and so does every point obtained from it
by replacing the coordinate along the axis. -/
theorem onLine_update_self (a : ι) (p : ι → G) (x : G) :
    OnLine a p (Function.update p a x) :=
  onLine_update_iff.mpr fun _ _ => rfl

end Lines

/-! ## The shift of a line -/

section Shift

variable [Fintype ι] [DecidableEq ι] [AddCommGroup G] [DecidableEq G]

/-- Move the positions on the line through `p` along `a` forward by `k`. -/
def lineShift (a : ι) (p : ι → G) (k : G) : Equiv.Perm (ι → G) where
  toFun q := if OnLine a p q then Function.update q a (q a + k) else q
  invFun q := if OnLine a p q then Function.update q a (q a - k) else q
  left_inv q := by
    by_cases h : OnLine a p q <;> simp [h]
  right_inv q := by
    by_cases h : OnLine a p q <;> simp [h]

theorem lineShift_apply (a : ι) (p : ι → G) (k : G) (q : ι → G) :
    lineShift a p k q = if OnLine a p q then Function.update q a (q a + k) else q := rfl

theorem lineShift_symm_apply (a : ι) (p : ι → G) (k : G) (q : ι → G) :
    (lineShift a p k).symm q = if OnLine a p q then Function.update q a (q a - k) else q := rfl

/-! ## The rotation of a filling -/

/-- The filling after the line through `p` along `a` is rotated forward by `k`:
the value at a position moves to the shifted position. -/
def lineRotate (a : ι) (p : ι → G) (k : G) (f : (ι → G) → α) : (ι → G) → α :=
  fun q => if OnLine a p q then f (Function.update q a (q a - k)) else f q

/-- Rotating only rearranges the values. -/
theorem lineRotate_eq_comp (a : ι) (p : ι → G) (k : G) (f : (ι → G) → α) :
    lineRotate a p k f = f ∘ (lineShift a p k).symm := by
  funext q
  rw [lineRotate, Function.comp_apply, lineShift_symm_apply]
  split <;> rfl

/-- **The value under a moving cursor.**  A cursor on the rotated line that
moves forward with it stays on the value it was on. -/
theorem lineRotate_cursor (a : ι) (p : ι → G) (k : G) (f : (ι → G) → α) :
    lineRotate a p k f (Function.update p a (p a + k)) = f p := by
  rw [lineRotate, if_pos (onLine_update_self a p _), Function.update_self, Function.update_idem,
    add_sub_cancel_right, Function.update_eq_self]

/-- The cells outside the line stay. -/
theorem lineRotate_of_not_onLine {a : ι} {p q : ι → G} (h : ¬ OnLine a p q) (k : G)
    (f : (ι → G) → α) : lineRotate a p k f q = f q :=
  if_neg h

/-- The positions outside the line stay. -/
theorem lineShift_of_not_onLine {a : ι} {p q : ι → G} (h : ¬ OnLine a p q) (k : G) :
    lineShift a p k q = q :=
  if_neg h

/-- A changed value moves with its position. -/
theorem lineRotate_update (a : ι) (p : ι → G) (k : G) (f : (ι → G) → α) (q : ι → G) (v : α) :
    lineRotate a p k (Function.update f q v)
      = Function.update (lineRotate a p k f) (lineShift a p k q) v := by
  rw [lineRotate_eq_comp, lineRotate_eq_comp, Function.update_comp_equiv, Equiv.symm_symm]

/-- A value of the line moves forward by `k`. -/
theorem lineRotate_moved (a : ι) (p : ι → G) (k : G) (f : (ι → G) → α) (x : G) :
    lineRotate a p k f (Function.update p a (x + k)) = f (Function.update p a x) := by
  rw [lineRotate, if_pos (onLine_update_self a p _), Function.update_self, Function.update_idem,
    add_sub_cancel_right]

/-- Which point of the line is named does not matter. -/
theorem lineRotate_congr {a : ι} {p q : ι → G} (h : OnLine a p q) (k : G) (f : (ι → G) → α) :
    lineRotate a q k f = lineRotate a p k f := by
  funext x
  unfold lineRotate
  rw [if_congr (h.congr x) rfl rfl]

/-- Rotations of one line add up. -/
theorem lineRotate_lineRotate (a : ι) (p : ι → G) (k l : G) (f : (ι → G) → α) :
    lineRotate a p l (lineRotate a p k f) = lineRotate a p (k + l) f := by
  funext q
  by_cases hq : OnLine a p q
  · have hq' : OnLine a p (Function.update q a (q a - l)) := onLine_update_iff.mpr hq
    unfold lineRotate
    rw [if_pos hq, if_pos hq, if_pos hq', Function.update_self, Function.update_idem, sub_sub,
      add_comm l k]
  · rw [lineRotate_of_not_onLine hq, lineRotate_of_not_onLine hq, lineRotate_of_not_onLine hq]

/-- **Rotations of lines without a common cell commute.** -/
theorem lineRotate_comm {a b : ι} {p q : ι → G}
    (hdisjoint : ∀ x, OnLine a p x → ¬ OnLine b q x) (k l : G) (f : (ι → G) → α) :
    lineRotate a p k (lineRotate b q l f) = lineRotate b q l (lineRotate a p k f) := by
  funext x
  by_cases hp : OnLine a p x
  · have hp' : OnLine a p (Function.update x a (x a - k)) := onLine_update_iff.mpr hp
    rw [lineRotate_of_not_onLine (hdisjoint x hp)]
    unfold lineRotate
    rw [if_pos hp, if_neg (hdisjoint _ hp'), if_pos hp]
  · rw [lineRotate_of_not_onLine hp]
    unfold lineRotate
    by_cases hq : OnLine b q x
    · have hq' : OnLine b q (Function.update x b (x b - l)) := onLine_update_iff.mpr hq
      rw [if_pos hq, if_pos hq, if_neg fun h => hdisjoint _ h hq']
    · rw [if_neg hq, if_neg hq, if_neg hp]

/-- The values along the line keep their sum. -/
theorem sum_lineRotate [Fintype G] {M : Type*} [AddCommMonoid M] (a : ι) (p : ι → G) (k : G)
    (f : (ι → G) → α) (g : α → M) :
    ∑ x, g (lineRotate a p k f (Function.update p a x)) = ∑ x, g (f (Function.update p a x)) := by
  refine (Fintype.sum_equiv (Equiv.addRight k) _ _ fun x => ?_).symm
  rw [Equiv.coe_addRight, lineRotate_moved]

/-- Rotating by nothing. -/
theorem lineRotate_zero (a : ι) (p : ι → G) (f : (ι → G) → α) :
    lineRotate a p 0 f = f := by
  funext q
  simp [lineRotate]

end Shift

/-! ## Writing a line cell by cell -/

/-- A sequence of writes to distinct addresses: a written address holds what was
written to it, every other address what it held before. -/
theorem foldl_update_apply {κ A : Type*} [DecidableEq A] (l : List κ) (addr : κ → A)
    (val : κ → α) (hinj : Function.Injective addr) (hnd : l.Nodup) (f : A → α) :
    (∀ i ∈ l, (l.foldl (fun f i => Function.update f (addr i) (val i)) f) (addr i) = val i)
      ∧ ∀ x, (∀ i ∈ l, addr i ≠ x) →
        (l.foldl (fun f i => Function.update f (addr i) (val i)) f) x = f x := by
  induction l generalizing f with
  | nil => simp
  | cons j l ih =>
    obtain ⟨hj, hnd⟩ := List.nodup_cons.mp hnd
    obtain ⟨hin, hout⟩ := ih hnd (Function.update f (addr j) (val j))
    refine ⟨fun i hi => ?_, fun x hx => ?_⟩
    · rw [List.foldl_cons]
      rcases List.mem_cons.mp hi with rfl | hi
      · rw [hout (addr i) fun i' hi' h => hj (hinj h ▸ hi'), Function.update_self]
      · exact hin i hi
    · rw [List.foldl_cons, hout x fun i hi => hx i (by simp [hi]),
        Function.update_of_ne fun h => hx j (by simp) h.symm]

end TorusLines
