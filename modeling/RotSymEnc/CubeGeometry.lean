/-
# What the cube operations do to the cells

The cube seen as a filling of the grid of positions `Axis → Fin 8`.  A call that
only reads through in-range coordinates is described by `Reads`; `rotateLine` is
the rotation of one line of the filling, so it rearranges the cells, and the
cursor that `advance` moves along with it keeps the byte under it.
-/
import RotSymEnc.Cube

open TorusLines StatefulRuns

/-! ## Positions -/

/-- A cell position: a coordinate in `[0,7]` for every axis. -/
abbrev Pos := Axis → Fin 8

/-- The linear index of a position. -/
def cellIndex (p : Pos) : Fin 512 :=
  ⟨(p .Z).val * 64 + (p .Y).val * 8 + (p .X).val, by omega⟩

/-- The position of a linear index. -/
def cellPos (i : Fin 512) : Pos
  | .X => ⟨i.val % 8, Nat.mod_lt _ (by decide)⟩
  | .Y => ⟨i.val / 8 % 8, Nat.mod_lt _ (by decide)⟩
  | .Z => ⟨i.val / 64, Nat.div_lt_of_lt_mul i.isLt⟩

/-- Positions and linear indices correspond. -/
def posEquiv : Pos ≃ Fin 512 where
  toFun := cellIndex
  invFun := cellPos
  left_inv p := by
    funext a
    cases a <;> apply Fin.ext <;> simp only [cellPos, cellIndex] <;> omega
  right_inv i := by
    apply Fin.ext
    simp only [cellPos, cellIndex]
    omega

theorem cellIndex_injective : Function.Injective cellIndex := posEquiv.injective

namespace Coord

/-- The position a coordinate names, reduced modulo 8. -/
def pos (coord : Coord) : Pos := fun axis => Fin.ofNat 8 (coord.get axis).toNat

/-- In range means every component is below 8. -/
theorem inRange_iff {coord : Coord} : coord.InRange ↔ ∀ axis, (coord.get axis).toNat < 8 := by
  simp only [InRange, BitVec.lt_def]
  constructor
  · rintro ⟨hx, hy, hz⟩ axis
    cases axis
    · exact hx
    · exact hy
    · exact hz
  · intro h
    exact ⟨h .X, h .Y, h .Z⟩

theorem InRange.pos_val {coord : Coord} (h : coord.InRange) (axis : Axis) :
    (coord.pos axis).val = (coord.get axis).toNat := by
  have := inRange_iff.mp h axis
  simp only [pos, Fin.val_ofNat]
  omega

theorem InRange.index_eq {coord : Coord} (h : coord.InRange) :
    coord.index = (cellIndex coord.pos).val := by
  simp only [index, cellIndex, h.pos_val]
  rfl

theorem InRange.index_lt {coord : Coord} (h : coord.InRange) : coord.index < 512 := by
  rw [h.index_eq]
  exact (cellIndex coord.pos).isLt

@[simp] theorem get_set_self (coord : Coord) (axis : Axis) (value : U8) :
    (coord.set axis value).get axis = value := by
  cases axis <;> rfl

theorem get_set_of_ne (coord : Coord) {axis axis' : Axis} (value : U8) (h : axis' ≠ axis) :
    (coord.set axis value).get axis' = coord.get axis' := by
  cases axis <;> cases axis' <;> first | rfl | exact absurd rfl h

/-- Replacing a component replaces the position's coordinate. -/
theorem pos_set (coord : Coord) (axis : Axis) (value : U8) :
    (coord.set axis value).pos = Function.update coord.pos axis (Fin.ofNat 8 value.toNat) := by
  funext axis'
  by_cases h : axis' = axis
  · subst h
    simp [pos]
  · rw [Function.update_of_ne h, pos, get_set_of_ne coord value h, pos]

theorem InRange.set {coord : Coord} (h : coord.InRange) (axis : Axis) {value : U8}
    (hv : value.toNat < 8) : (coord.set axis value).InRange := by
  rw [inRange_iff]
  intro axis'
  by_cases ha : axis' = axis
  · subst ha
    simpa using hv
  · rw [get_set_of_ne coord value ha]
    exact inRange_iff.mp h axis'

end Coord

/-- A sum reduced modulo 8 twice, as the sources do, is below 8. -/
theorem toNat_mod_eight_lt (value : U8) : (value % 8).toNat < 8 := by
  rw [BitVec.toNat_umod]
  exact Nat.mod_lt _ (by decide)

/-- Adding an amount and reducing is the addition of `Fin 8`. -/
theorem ofNat_add_mod_eight (value amount : U8) :
    Fin.ofNat 8 ((value + amount % 8) % 8).toNat
      = Fin.ofNat 8 value.toNat + Fin.ofNat 8 amount.toNat := by
  apply Fin.ext
  have h8 : (8 : U8).toNat = 8 := rfl
  simp only [BitVec.toNat_umod, BitVec.toNat_add, Fin.val_ofNat, Fin.val_add, h8]
  omega

/-- The cursor moves forward on its line. -/
theorem pos_advance (coord : Coord) (axis : Axis) (amount : U8) :
    (advance coord axis amount).pos
      = Function.update coord.pos axis (coord.pos axis + Fin.ofNat 8 amount.toNat) := by
  rw [advance, Coord.pos_set, ofNat_add_mod_eight]
  rfl

theorem Coord.InRange.advance {coord : Coord} (h : coord.InRange) (axis : Axis) (amount : U8) :
    (advance coord axis amount).InRange :=
  h.set axis (toNat_mod_eight_lt _)

/-! ## Cells -/

namespace Cube

/-- The byte at a position. -/
def cell (cube : Cube) (p : Pos) : U8 := cube.cells[cellIndex p]

/-- The cube with a given filling. -/
def ofCells (f : Pos → U8) : Cube := ⟨Vector.ofFn (f ∘ cellPos)⟩

@[simp] theorem cell_ofCells (f : Pos → U8) : (ofCells f).cell = f := by
  funext p
  simp only [cell, ofCells, Fin.getElem_fin, Vector.getElem_ofFn, Function.comp_apply]
  exact congrArg f (posEquiv.left_inv p)

theorem cell_injective : Function.Injective cell := by
  rintro ⟨v⟩ ⟨w⟩ h
  congr 1
  refine Vector.ext fun i hi => ?_
  have hcell := congrFun h (cellPos ⟨i, hi⟩)
  have hindex : cellIndex (cellPos ⟨i, hi⟩) = ⟨i, hi⟩ := posEquiv.right_inv _
  simpa only [cell, hindex, Fin.getElem_fin] using hcell

/-- Storing a byte updates the filling at one position. -/
theorem cell_set (cube : Cube) (p : Pos) (value : U8) :
    (Cube.mk (cube.cells.set (cellIndex p) value)).cell
      = Function.update cube.cell p value := by
  funext q
  by_cases h : q = p
  · subst h
    simp [cell]
  · have hne : (cellIndex p).val ≠ (cellIndex q).val := fun hv =>
      h (cellIndex_injective (Fin.ext hv.symm))
    rw [Function.update_of_ne h]
    simp [cell, hne]

/-- The cube with one line rotated. -/
def rotated (cube : Cube) (axis : Axis) (p : Pos) (amount : Fin 8) : Cube :=
  ofCells (lineRotate axis p amount cube.cell)

theorem cell_rotated (cube : Cube) (axis : Axis) (p : Pos) (amount : Fin 8) :
    (cube.rotated axis p amount).cell = lineRotate axis p amount cube.cell :=
  cell_ofCells _

/-- The checked read of an in-range coordinate. -/
theorem at_of_inRange (cube : Cube) {coord : Coord} (h : coord.InRange) :
    cube.at coord = .ok (cube.cell coord.pos) := by
  rw [Cube.at, if_pos h, dif_pos h.index_lt]
  simp only [cell, Fin.getElem_fin, h.index_eq]

end Cube

/-! ## Reading calls -/

/-- `Reads x a`: whatever was read before, the call `x` hands only in-range
coordinates to `Cube::unchecked` and returns `a`. -/
def Reads {α : Type} (x : AccessRun α) (a : α) : Prop :=
  ∀ accesses, ∃ new, x.run accesses = .ok a (new ++ accesses) ∧ ∀ c ∈ new, c.InRange

namespace Reads

variable {α β : Type}

theorem pure (a : α) : Reads (Pure.pure a) a :=
  fun _ => ⟨[], rfl, by simp⟩

theorem bind {x : AccessRun α} {f : α → AccessRun β} {a : α} {b : β} (hx : Reads x a)
    (hf : Reads (f a) b) : Reads (x >>= f) b := by
  intro accesses
  obtain ⟨new, hrun, hnew⟩ := hx accesses
  obtain ⟨new', hrun', hnew'⟩ := hf (new ++ accesses)
  refine ⟨new' ++ new, ?_, ?_⟩
  · rw [EStateM.run_bind, hrun, List.append_assoc]
    exact hrun'
  · intro c hc
    rcases List.mem_append.mp hc with h | h
    · exact hnew' c h
    · exact hnew c h

theorem lift {x : Except Fault α} {a : α} (h : x = .ok a) : Reads (StatefulRuns.lift x) a := by
  subst h
  exact pure a

/-- What a call reads is determined. -/
theorem unique {x : AccessRun α} {a a' : α} (h : Reads x a) (h' : Reads x a') : a = a' := by
  obtain ⟨new, hrun, -⟩ := h []
  obtain ⟨new', hrun', -⟩ := h' []
  exact (EStateM.Result.ok.inj (hrun.symm.trans hrun')).1

/-- An array filled by reading calls. -/
theorem ofFnM {n : ℕ} {f : Fin n → AccessRun α} {g : Fin n → α} (h : ∀ i, Reads (f i) (g i)) :
    Reads (Vector.ofFnM f) (Vector.ofFn g) := by
  induction n with
  | zero =>
    rw [Vector.ofFnM_zero]
    exact pure _
  | succ n ih =>
    rw [Vector.ofFnM_succ, Vector.ofFn_succ]
    exact (ih fun i => h i.castSucc).bind ((h (Fin.last n)).bind (pure _))

end Reads

theorem reads_unchecked (cube : Cube) {coord : Coord} (h : coord.InRange) :
    Reads (unchecked cube coord) (cube.cell coord.pos) := by
  intro accesses
  refine ⟨[coord], ?_, by simpa using h⟩
  have hcell : cube.cells.get ⟨coord.index, h.index_lt⟩ = cube.cell coord.pos := by
    simp only [Cube.cell, Vector.get_eq_getElem, Fin.getElem_fin, h.index_eq]
  rw [unchecked, EStateM.run_bind, EStateM.run_modify]
  simp only [dif_pos h.index_lt, EStateM.run_pure, List.singleton_append]
  exact congrArg (EStateM.Result.ok · (coord :: accesses)) hcell

/-- The cells of the line through a position. -/
def lineCells (cube : Cube) (axis : Axis) (p : Pos) : Vector U8 8 :=
  Vector.ofFn fun i : Fin 8 => cube.cell (Function.update p axis i)

theorem ofNat_toNat_ofNat (i : Fin 8) : Fin.ofNat 8 (BitVec.ofNat 8 i.val).toNat = i := by
  apply Fin.ext
  simp only [BitVec.toNat_ofNat, Fin.val_ofNat]
  omega

theorem reads_readLine (cube : Cube) (axis : Axis) {coord : Coord} (h : coord.InRange) :
    Reads (readLine cube axis coord) (lineCells cube axis coord.pos) := by
  refine Reads.ofFnM fun i => ?_
  have hi : (BitVec.ofNat 8 i.val).toNat < 8 := by
    rw [BitVec.toNat_ofNat]
    omega
  have hpos : Function.update coord.pos axis i = (coord.set axis (BitVec.ofNat 8 i)).pos := by
    rw [Coord.pos_set, ofNat_toNat_ofNat]
  rw [hpos]
  exact reads_unchecked cube (h.set axis hi)

/-- The diagonals are read in range, whatever the cube. -/
theorem exists_reads_bodyDiagonals (cube : Cube) : ∃ d, Reads (bodyDiagonals cube) d := by
  have hdiag : ∀ f : Fin 8 → Coord, (∀ i, (f i).InRange) →
      Reads (Vector.ofFnM fun i => unchecked cube (f i))
        (Vector.ofFn fun i => cube.cell (f i).pos) :=
    fun f hf => Reads.ofFnM fun i => reads_unchecked cube (hf i)
  exact ⟨_, (hdiag _ (by decide)).bind ((hdiag _ (by decide)).bind
    ((hdiag _ (by decide)).bind ((hdiag _ (by decide)).bind (Reads.pure _))))⟩

/-! ## The rotation -/

/-- A store through an in-range coordinate. -/
theorem uncheckedStore_run {coord : Coord} (h : coord.InRange) (value : U8) (mem : CubeMem) :
    (uncheckedStore coord value).run mem
      = .ok () ⟨Cube.ofCells (Function.update mem.cube.cell coord.pos value),
          coord :: mem.accesses⟩ := by
  have hset : Cube.mk (mem.cube.cells.set coord.index value h.index_lt)
      = Cube.ofCells (Function.update mem.cube.cell coord.pos value) := by
    apply Cube.cell_injective
    rw [Cube.cell_ofCells, ← Cube.cell_set]
    simp only [h.index_eq]
  simp only [uncheckedStore, EStateM.run_bind, EStateM.run_modify, EStateM.run_get,
    dif_pos h.index_lt, EStateM.run_set, hset]

/-- A loop of stores is a sequence of updates of the filling. -/
theorem forM_uncheckedStore_run {κ : Type} (l : List κ) (addr : κ → Coord) (val : κ → U8)
    (h : ∀ i, (addr i).InRange) (mem : CubeMem) :
    (forM l fun i => uncheckedStore (addr i) (val i)).run mem
      = .ok () ⟨Cube.ofCells
            (l.foldl (fun f i => Function.update f (addr i).pos (val i)) mem.cube.cell),
          (l.map addr).reverse ++ mem.accesses⟩ := by
  induction l generalizing mem with
  | nil =>
    have : Cube.ofCells mem.cube.cell = mem.cube := Cube.cell_injective (Cube.cell_ofCells _)
    simp [this]
  | cons i l ih =>
    rw [List.forM_cons, EStateM.run_bind, uncheckedStore_run (h i)]
    simp only [ih, Cube.cell_ofCells, List.foldl_cons, List.map_cons, List.reverse_cons,
      List.append_assoc, List.singleton_append]

/-- The line written back shifted is the rotated line. -/
theorem foldl_update_line (cube : Cube) (axis : Axis) (p : Pos) (shift : Fin 8) :
    (List.finRange 8).foldl
        (fun f i => Function.update f (Function.update p axis (i + shift))
          ((lineCells cube axis p).get i)) cube.cell
      = lineRotate axis p shift cube.cell := by
  have hinj : Function.Injective fun i : Fin 8 => Function.update p axis (i + shift) := by
    intro i j hij
    have := congrFun hij axis
    simpa using this
  obtain ⟨hin, hout⟩ := foldl_update_apply (List.finRange 8)
    (fun i => Function.update p axis (i + shift)) (fun i => (lineCells cube axis p).get i) hinj
    (List.nodup_finRange 8) cube.cell
  funext q
  by_cases hq : OnLine axis p q
  · have hq' : Function.update p axis (q axis - shift + shift) = q := by
      rw [sub_add_cancel, ← hq.eq_update]
    have := hin (q axis - shift) (List.mem_finRange _)
    rw [hq'] at this
    rw [this, lineRotate, if_pos hq]
    simp only [lineCells, Vector.get_eq_getElem, Vector.getElem_ofFn]
    congr 1
    rw [hq.eq_update]
    simp
  · rw [hout q, lineRotate, if_neg hq]
    rintro i - rfl
    exact hq (onLine_update_self axis p _)

/-- **`rotate_line` on an in-range point** rotates the line of the filling, and
hands only in-range coordinates to `Cube::unchecked`. -/
theorem rotateLine_run (axis : Axis) {coord : Coord} (h : coord.InRange) (amount : U8)
    (mem : CubeMem) :
    ∃ new, (rotateLine axis coord amount).run mem
        = .ok () ⟨mem.cube.rotated axis coord.pos (Fin.ofNat 8 amount.toNat), new ++ mem.accesses⟩
      ∧ ∀ c ∈ new, c.InRange := by
  have hamount : Fin.ofNat 8 amount.toNat = Fin.ofNat 8 (amount % 8).toNat := by
    apply Fin.ext
    simp [BitVec.toNat_umod]
  by_cases hzero : amount % 8 = 0
  · refine ⟨[], ?_, by simp⟩
    have hrot : mem.cube.rotated axis coord.pos 0 = mem.cube := by
      apply Cube.cell_injective
      rw [Cube.cell_rotated, lineRotate_zero]
    rw [hamount, hzero]
    simp only [rotateLine, h, not_true_eq_false, if_false, hzero, if_true, EStateM.run_pure]
    rw [show Fin.ofNat 8 (0 : U8).toNat = 0 from rfl, hrot]
    rfl
  · obtain ⟨new, hread, hnew⟩ := reads_readLine mem.cube axis h mem.accesses
    have haddr : ∀ i : Fin 8,
        (coord.set axis ((BitVec.ofNat 8 i + amount % 8) % 8)).InRange := fun i =>
      h.set axis (toNat_mod_eight_lt _)
    refine ⟨((List.finRange 8).map fun i : Fin 8 =>
      coord.set axis ((BitVec.ofNat 8 i + amount % 8) % 8)).reverse ++ new, ?_, ?_⟩
    · have hpos : ∀ i : Fin 8, (coord.set axis ((BitVec.ofNat 8 i + amount % 8) % 8)).pos
          = Function.update coord.pos axis (i + Fin.ofNat 8 amount.toNat) := fun i => by
        rw [Coord.pos_set, ofNat_add_mod_eight, ofNat_toNat_ofNat]
      have hline : (CubeMem.reading (readLine mem.cube axis coord)).run mem
          = .ok (lineCells mem.cube axis coord.pos) ⟨mem.cube, new ++ mem.accesses⟩ :=
        zoom_run_of_ok mem hread
      simp only [rotateLine, h, not_true_eq_false, if_false, hzero, EStateM.run_bind,
        EStateM.run_get, hline]
      rw [forM_uncheckedStore_run _ _ _ haddr]
      simp only [hpos, foldl_update_line, Cube.rotated, List.append_assoc]
    · intro c hc
      rcases List.mem_append.mp hc with hc | hc
      · obtain ⟨i, -, rfl⟩ := List.mem_map.mp (List.mem_reverse.mp hc)
        exact haddr i
      · exact hnew c hc

/-- An out-of-range point throws, and nothing is read or written. -/
theorem rotateLine_run_of_not_inRange (axis : Axis) {coord : Coord} (h : ¬ coord.InRange)
    (amount : U8) (mem : CubeMem) : (rotateLine axis coord amount).run mem
      = .error (.thrown .outOfRange "Cube coordinate is outside [0,7]") mem := by
  unfold rotateLine
  rw [if_pos h]
  rfl

/-! ## Rearrangements of the perfect cube -/

theorem vector_toList_eq_ofFn {α : Type} {n : ℕ} (v : Vector α n) :
    v.toList = List.ofFn fun i : Fin n => v[i] := by
  refine List.ext_getElem (by simp) fun i hi hi' => ?_
  simp

namespace Cube

/-- The cells of `cube` are those of `Cube::perfect()` in some order. -/
def IsRearrangement (cube : Cube) : Prop :=
  cube.cells.toList.Perm Cube.perfect.cells.toList

/-- The cells in index order. -/
theorem toList_eq_ofFn (cube : Cube) :
    cube.cells.toList = List.ofFn (cube.cell ∘ cellPos) := by
  rw [vector_toList_eq_ofFn]
  congr 1
  funext i
  have hindex : cellIndex (cellPos i) = i := posEquiv.right_inv i
  simp only [Function.comp_apply, Cube.cell, hindex]

/-- A rotation rearranges the cells. -/
theorem rotated_perm (cube : Cube) (axis : Axis) (p : Pos) (amount : Fin 8) :
    (cube.rotated axis p amount).cells.toList.Perm cube.cells.toList := by
  rw [toList_eq_ofFn, toList_eq_ofFn]
  have hcell : (cube.rotated axis p amount).cell ∘ cellPos = (cube.cell ∘ cellPos)
      ∘ posEquiv.symm.trans ((lineShift axis p amount).symm.trans posEquiv) := by
    funext i
    rw [cell_rotated, lineRotate_eq_comp]
    exact congrArg cube.cell (posEquiv.left_inv _).symm
  rw [hcell]
  exact Equiv.Perm.ofFn_comp_perm _ _

/-- The bytes of the perfect cube with a given high half. -/
def perfectBucket (high : Fin 16) : List U8 :=
  List.filter (fun b : U8 => b >>> 4 == BitVec.ofNat 8 high) Cube.perfect.cells.toList

/-- Each bucket holds each of its sixteen values twice. -/
theorem perfectBucket_count :
    ∀ high low : Fin 16, (perfectBucket high).count (BitVec.ofNat 8 (16 * high + low)) = 2 := by
  decide +kernel

/-- **Every byte value occurs twice** in the perfect cube. -/
theorem perfect_count (b : U8) : Cube.perfect.cells.toList.count b = 2 := by
  have hb := b.isLt
  let high : Fin 16 := ⟨b.toNat / 16, by omega⟩
  let low : Fin 16 := ⟨b.toNat % 16, by omega⟩
  have hsplit : BitVec.ofNat 8 (16 * high.val + low.val) = b := by
    apply BitVec.eq_of_toNat_eq
    rw [BitVec.toNat_ofNat]
    simp only [high, low]
    omega
  have hhigh : (b >>> 4 == BitVec.ofNat 8 high.val) = true := by
    rw [beq_iff_eq]
    apply BitVec.eq_of_toNat_eq
    rw [BitVec.toNat_ofNat, BitVec.toNat_ushiftRight, Nat.shiftRight_eq_div_pow]
    simp only [high]
    omega
  have hcount := perfectBucket_count high low
  rw [hsplit, perfectBucket] at hcount
  rw [← hcount]
  refine (List.count_filter ?_).symm
  exact hhigh

/-- A rearrangement holds every byte as often as `Cube::perfect()`. -/
theorem IsRearrangement.count {cube : Cube} (h : cube.IsRearrangement) (b : U8) :
    cube.cells.toList.count b = 2 :=
  (h.count_eq b).trans (perfect_count b)

end Cube
