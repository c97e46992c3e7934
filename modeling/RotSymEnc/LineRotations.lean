/-
# Rotations of lines

What `Cube::rotate_line` does, for every cube, every line and every amount: the
values of one line move forward along it, rotations of one line add up, those of
lines without a common cell commute, and the histogram and the sum of the line
are kept.  An out-of-range point throws before anything is written.
-/
import RotSymEnc.CubeGeometry

open TorusLines StatefulRuns

/-! ## Calls on a cube -/

/-- What a call of a mutating member function returns to its caller. -/
def CubeRun.returned {α : Type} (x : CubeRun α) (cube : Cube) : Except Fault α :=
  match x.run ⟨cube, []⟩ with
  | .ok a _ => .ok a
  | .error fault _ => .error fault

/-- The cube after the call, whether it returns or throws. -/
def CubeRun.after {α : Type} (x : CubeRun α) (cube : Cube) : Cube :=
  match x.run ⟨cube, []⟩ with
  | .ok _ mem => mem.cube
  | .error _ mem => mem.cube

/-- What a reading call returns to its caller. -/
def AccessRun.returned {α : Type} (x : AccessRun α) : Except Fault α :=
  match x.run [] with
  | .ok a _ => .ok a
  | .error fault _ => .error fault

theorem Reads.returned {α : Type} {x : AccessRun α} {a : α} (h : Reads x a) :
    x.returned = .ok a := by
  obtain ⟨new, hrun, -⟩ := h []
  unfold AccessRun.returned
  rw [hrun]

theorem rotateLine_returned (axis : Axis) {coord : Coord} (h : coord.InRange) (amount : U8)
    (cube : Cube) : (rotateLine axis coord amount).returned cube = .ok () := by
  obtain ⟨new, hrun, -⟩ := rotateLine_run axis h amount ⟨cube, []⟩
  unfold CubeRun.returned
  rw [hrun]

theorem rotateLine_after (axis : Axis) {coord : Coord} (h : coord.InRange) (amount : U8)
    (cube : Cube) : (rotateLine axis coord amount).after cube
      = cube.rotated axis coord.pos (Fin.ofNat 8 amount.toNat) := by
  obtain ⟨new, hrun, -⟩ := rotateLine_run axis h amount ⟨cube, []⟩
  unfold CubeRun.after
  rw [hrun]

/-! ## Lines -/

/-- In-range coordinates are positions. -/
theorem Coord.InRange.pos_inj {c d : Coord} (hc : c.InRange) (hd : d.InRange) :
    c.pos = d.pos ↔ c = d := by
  constructor
  · intro h
    have hget : ∀ axis, c.get axis = d.get axis := by
      intro axis
      have hval := congrArg Fin.val (congrFun h axis)
      rw [hc.pos_val, hd.pos_val] at hval
      exact BitVec.eq_of_toNat_eq hval
    obtain ⟨cx, cy, cz⟩ := c
    obtain ⟨dx, dy, dz⟩ := d
    obtain rfl : cx = dx := hget .X
    obtain rfl : cy = dy := hget .Y
    obtain rfl : cz = dz := hget .Z
    rfl
  · rintro rfl
    rfl

/-- `line_contains` compares the components of the other axes. -/
theorem lineContains_iff (axis : Axis) (c d : Coord) :
    lineContains axis c d = true ↔ ∀ axis', axis' ≠ axis → c.get axis' = d.get axis' := by
  have hall : ∀ P : Axis → Prop, (∀ axis', P axis') ↔ P .X ∧ P .Y ∧ P .Z := by
    intro P
    constructor
    · intro h
      exact ⟨h .X, h .Y, h .Z⟩
    · rintro ⟨hx, hy, hz⟩ axis'
      cases axis'
      · exact hx
      · exact hy
      · exact hz
  rw [hall]
  cases axis <;> simp [lineContains, Coord.get]

/-- On in-range points `line_contains` decides `OnLine`. -/
theorem onLine_pos_iff (axis : Axis) {c d : Coord} (hc : c.InRange) (hd : d.InRange) :
    OnLine axis c.pos d.pos ↔ lineContains axis c d = true := by
  rw [lineContains_iff]
  refine forall_congr' fun axis' => forall_congr' fun _ => ?_
  rw [← Fin.val_inj, hc.pos_val, hd.pos_val, BitVec.toNat_inj]
  exact eq_comm

/-- The coordinate of a position. -/
def Coord.ofPos (p : Pos) : Coord :=
  ⟨BitVec.ofNat 8 (p .X), BitVec.ofNat 8 (p .Y), BitVec.ofNat 8 (p .Z)⟩

theorem Coord.pos_ofPos (p : Pos) : (Coord.ofPos p).pos = p := by
  funext axis
  cases axis <;> exact ofNat_toNat_ofNat _

theorem Coord.inRange_ofPos (p : Pos) : (Coord.ofPos p).InRange := by
  have hlt : ∀ i : Fin 8, (BitVec.ofNat 8 i.val) < 8 := by decide
  exact ⟨hlt _, hlt _, hlt _⟩

/-! ## The histogram -/

/-- A rearrangement of the cells keeps the histogram. -/
theorem histogram_eq_of_perm {cube cube' : Cube}
    (h : cube.cells.toList.Perm cube'.cells.toList) : cube.histogram = cube'.histogram := by
  refine Vector.ext fun i hi => ?_
  have hi' : (BitVec.ofNat 8 i).toNat = i := by
    rw [BitVec.toNat_ofNat]
    omega
  have hget := histogram_getElem cube (BitVec.ofNat 8 i)
  have hget' := histogram_getElem cube' (BitVec.ofNat 8 i)
  rw [h.count_eq, ← hget'] at hget
  simpa only [hi'] using hget

/-! ## The line sums -/

/-- A loop of reading calls with an accumulator. -/
theorem Reads.foldlM {α β : Type} {f : β → α → AccessRun β} {g : β → α → β}
    (h : ∀ b a, Reads (f b a) (g b a)) (l : List α) :
    ∀ b, Reads (l.foldlM f b) (l.foldl g b) := by
  induction l with
  | nil => exact fun b => Reads.pure b
  | cons a l ih =>
    intro b
    rw [List.foldlM_cons, List.foldl_cons]
    exact (h b a).bind (ih _)

/-- The sum of the line through a position. -/
def sumOfLine (cube : Cube) (axis : Axis) (p : Pos) : U32 :=
  ∑ i, u32 (cube.cell (Function.update p axis i))

theorem reads_sumLine (cube : Cube) (axis : Axis) {coord : Coord} (h : coord.InRange) :
    Reads (sumLine cube axis coord) (sumOfLine cube axis coord.pos) := by
  have hsum : sumOfLine cube axis coord.pos
      = (List.finRange 8).foldl
        (fun sum i => sum + u32 (cube.cell (Function.update coord.pos axis i))) 0 := by
    rw [sumOfLine, Fin.sum_univ_def, List.sum_eq_foldl, List.foldl_map]
  rw [hsum]
  refine Reads.foldlM (fun sum i => ?_) _ _
  have hi : (BitVec.ofNat 8 i.val).toNat < 8 := by
    rw [BitVec.toNat_ofNat]
    omega
  have hpos : Function.update coord.pos axis i = (coord.set axis (BitVec.ofNat 8 i)).pos := by
    rw [Coord.pos_set, ofNat_toNat_ofNat]
  rw [hpos]
  exact (reads_unchecked cube (h.set axis hi)).bind (Reads.pure _)

/-- Which point of the line is named does not matter. -/
theorem sumOfLine_congr (cube : Cube) {axis : Axis} {p q : Pos} (h : OnLine axis p q) :
    sumOfLine cube axis q = sumOfLine cube axis p := by
  unfold sumOfLine
  refine Finset.sum_congr rfl fun i _ => ?_
  rw [h.eq_update, Function.update_idem]

/-- Two components index the 64 lines along an axis. -/
theorem pairIndex_lt (high low : Fin 8) : high.val * 8 + low.val < 64 := by omega

/-- The entry of `line_sums` that holds the sum of the line through a position. -/
def lineIndex (axis : Axis) (p : Pos) : Fin 192 :=
  match axis with
  | .X => ⟨(p .Z).val * 8 + (p .Y).val, (pairIndex_lt _ _).trans (by decide)⟩
  | .Y => ⟨64 + ((p .Z).val * 8 + (p .X).val),
      (Nat.add_lt_add_left (pairIndex_lt _ _) 64).trans (by decide)⟩
  | .Z => ⟨128 + ((p .Y).val * 8 + (p .X).val), Nat.add_lt_add_left (pairIndex_lt _ _) 128⟩

/-- The coordinate an entry of `line_sums` starts from. -/
def lineStart (axis : Axis) (low high : Fin 8) : Coord :=
  match axis with
  | .X => ⟨0, BitVec.ofNat 8 low, BitVec.ofNat 8 high⟩
  | .Y => ⟨BitVec.ofNat 8 low, 0, BitVec.ofNat 8 high⟩
  | .Z => ⟨BitVec.ofNat 8 low, BitVec.ofNat 8 high, 0⟩

theorem lineStart_inRange : ∀ (axis : Axis) (low high : Fin 8),
    (lineStart axis low high).InRange := by
  intro axis
  cases axis <;> decide

/-- The start of a line lies on it. -/
theorem onLine_lineStart (axis : Axis) (p : Pos) (low high : Fin 8)
    (h : match axis with
      | .X => p .Y = low ∧ p .Z = high
      | .Y => p .X = low ∧ p .Z = high
      | .Z => p .X = low ∧ p .Y = high) : OnLine axis p (lineStart axis low high).pos := by
  intro axis' hne
  cases axis <;> cases axis' <;>
    first
      | exact absurd rfl hne
      | exact (ofNat_toNat_ofNat low).trans h.1.symm
      | exact (ofNat_toNat_ofNat high).trans h.2.symm

/-- **`line_sums`** holds the sum of every line. -/
theorem reads_lineSums (cube : Cube) : ∃ sums, Reads (lineSums cube) sums ∧
    ∀ axis p, sums[lineIndex axis p] = sumOfLine cube axis p := by
  have hentries : ∀ axis : Axis, Reads
      (Vector.ofFnM fun out : Fin 64 =>
        sumLine cube axis (lineStart axis ⟨out % 8, by omega⟩ ⟨out / 8, by omega⟩))
      (Vector.ofFn fun out : Fin 64 =>
        sumOfLine cube axis (lineStart axis ⟨out % 8, by omega⟩ ⟨out / 8, by omega⟩).pos) := by
    intro axis
    exact Reads.ofFnM fun out => reads_sumLine cube axis (lineStart_inRange _ _ _)
  refine ⟨_, (hentries .X).bind ((hentries .Y).bind ((hentries .Z).bind (Reads.pure _))), ?_⟩
  intro axis p
  have hx := (p .X).isLt
  have hy := (p .Y).isLt
  have hz := (p .Z).isLt
  -- the entry of a line is found by dividing its offset by the side of the cube
  cases axis
  · simp only [lineIndex, Fin.getElem_fin]
    rw [Vector.getElem_append_left (by omega), Vector.getElem_append_left (by omega),
      Vector.getElem_ofFn]
    refine sumOfLine_congr cube (onLine_lineStart .X p _ _ ⟨?_, ?_⟩) <;> apply Fin.ext <;>
      simp only <;> omega
  · simp only [lineIndex, Fin.getElem_fin]
    rw [Vector.getElem_append_left (by omega), Vector.getElem_append_right (by omega) (by omega),
      Vector.getElem_ofFn]
    refine sumOfLine_congr cube (onLine_lineStart .Y p _ _ ⟨?_, ?_⟩) <;> apply Fin.ext <;>
      simp only <;> omega
  · simp only [lineIndex, Fin.getElem_fin]
    rw [Vector.getElem_append_right (by omega) (by omega), Vector.getElem_ofFn]
    refine sumOfLine_congr cube (onLine_lineStart .Z p _ _ ⟨?_, ?_⟩) <;> apply Fin.ext <;>
      simp only <;> omega

/-! ## The rotation -/

/-- Rotating twice adds the amounts. -/
theorem rotated_rotated (cube : Cube) (axis : Axis) (p : Pos) (j k : Fin 8) :
    (cube.rotated axis p j).rotated axis p k = cube.rotated axis p (j + k) := by
  apply Cube.cell_injective
  rw [Cube.cell_rotated, Cube.cell_rotated, Cube.cell_rotated, lineRotate_lineRotate]

theorem rotated_zero (cube : Cube) (axis : Axis) (p : Pos) : cube.rotated axis p 0 = cube := by
  apply Cube.cell_injective
  rw [Cube.cell_rotated, lineRotate_zero]

/-- The number of cells outside a line. -/
theorem card_offLine (axis : Axis) (p : Pos) :
    (Finset.univ.filter fun q : Pos => ¬ OnLine axis p q).card = 504 := by
  have hline : (Finset.univ.filter fun q : Pos => OnLine axis p q)
      = Finset.univ.image (Function.update p axis) := by
    ext q
    simp only [Finset.mem_filter, Finset.mem_univ, true_and, Finset.mem_image]
    constructor
    · intro hq
      exact ⟨q axis, hq.eq_update.symm⟩
    · rintro ⟨i, rfl⟩
      exact onLine_update_self axis p i
  have hcard : (Finset.univ.filter fun q : Pos => OnLine axis p q).card = 8 := by
    rw [hline, Finset.card_image_of_injective _ (Function.update_injective p axis)]
    rfl
  have htotal := Finset.card_filter_add_card_filter_not (s := Finset.univ)
    fun q : Pos => OnLine axis p q
  have hpos : (Finset.univ : Finset Pos).card = 512 := by
    rw [Finset.card_univ, Fintype.card_congr posEquiv, Fintype.card_fin]
  omega

section Rotation

variable (cube : Cube) (axis : Axis) {q : Coord}

/-- The value at line position `i` moves to position `i + amount`. -/
theorem rotateLine_moves (hq : q.InRange) (amount : U8) (i : Fin 8) :
    ((rotateLine axis q amount).after cube).at
        (q.set axis (BitVec.ofNat 8 ((i.val + amount.toNat) % 8)))
      = cube.at (q.set axis (BitVec.ofNat 8 i)) := by
  have hi : (BitVec.ofNat 8 i.val).toNat < 8 := by
    rw [BitVec.toNat_ofNat]
    omega
  have hto : (BitVec.ofNat 8 ((i.val + amount.toNat) % 8)).toNat
      = (i.val + amount.toNat) % 8 := by
    rw [BitVec.toNat_ofNat]
    omega
  have hsum : Fin.ofNat 8 ((i.val + amount.toNat) % 8) = i + Fin.ofNat 8 amount.toNat := by
    apply Fin.ext
    simp only [Fin.val_ofNat, Fin.val_add]
    omega
  rw [rotateLine_after axis hq, Cube.at_of_inRange _ (hq.set axis (by omega)),
    Cube.at_of_inRange _ (hq.set axis hi), Cube.cell_rotated, Coord.pos_set, Coord.pos_set, hto,
    hsum, ofNat_toNat_ofNat, lineRotate_moved]

/-- The cells outside the line stay. -/
theorem rotateLine_frame (hq : q.InRange) (amount : U8) {c : Coord} (hc : c.InRange)
    (hoff : lineContains axis q c = false) :
    ((rotateLine axis q amount).after cube).at c = cube.at c := by
  have hline : ¬ OnLine axis q.pos c.pos := by
    rw [onLine_pos_iff axis hq hc, hoff]
    exact Bool.false_ne_true
  rw [rotateLine_after axis hq, Cube.at_of_inRange _ hc, Cube.at_of_inRange _ hc,
    Cube.cell_rotated, lineRotate_of_not_onLine hline]

/-- The coordinates `line_contains` rejects. -/
theorem card_lineContains_false (hq : q.InRange) :
    (Finset.univ.filter fun p : Pos => lineContains axis q (Coord.ofPos p) = false).card
      = 504 := by
  rw [← card_offLine axis q.pos]
  congr 1
  refine Finset.filter_congr fun p _ => ?_
  have h := onLine_pos_iff axis hq (Coord.inRange_ofPos p)
  rw [Coord.pos_ofPos] at h
  rw [h, Bool.not_eq_true]

theorem rotateLine_congr (hq : q.InRange) (amount : U8) {q' : Coord} (hq' : q'.InRange)
    (h : lineContains axis q q' = true) :
    (rotateLine axis q' amount).after cube = (rotateLine axis q amount).after cube := by
  have hline := (onLine_pos_iff axis hq hq').mpr h
  rw [rotateLine_after axis hq', rotateLine_after axis hq]
  apply Cube.cell_injective
  rw [Cube.cell_rotated, Cube.cell_rotated, lineRotate_congr hline]

theorem rotateLine_rotateLine (hq : q.InRange) (a b : U8) :
    (rotateLine axis q b).after ((rotateLine axis q a).after cube)
      = (rotateLine axis q (BitVec.ofNat 8 ((a.toNat + b.toNat) % 8))).after cube := by
  have hsum : Fin.ofNat 8 a.toNat + Fin.ofNat 8 b.toNat
      = Fin.ofNat 8 (BitVec.ofNat 8 ((a.toNat + b.toNat) % 8)).toNat := by
    apply Fin.ext
    simp only [Fin.val_ofNat, Fin.val_add, BitVec.toNat_ofNat]
    omega
  rw [rotateLine_after axis hq, rotateLine_after axis hq, rotateLine_after axis hq,
    rotated_rotated, hsum]

/-- The complementary amount rotates back. -/
theorem rotateLine_undo (hq : q.InRange) (amount : U8) :
    (rotateLine axis q (8 - amount % 8)).after ((rotateLine axis q amount).after cube) = cube := by
  have h8 : (8 : U8).toNat = 8 := rfl
  have hsum : Fin.ofNat 8 amount.toNat + Fin.ofNat 8 (8 - amount % 8).toNat = 0 := by
    have hlt := toNat_mod_eight_lt amount
    apply Fin.ext
    simp only [Fin.val_ofNat, Fin.val_add, BitVec.toNat_sub, BitVec.toNat_umod, h8] at hlt ⊢
    omega
  rw [rotateLine_after axis hq, rotateLine_after axis hq, rotated_rotated, hsum, rotated_zero]

/-- Lines without a common cell rotate independently. -/
theorem rotateLine_comm (hq : q.InRange) (a b : U8) {axis' : Axis} {q' : Coord}
    (hq' : q'.InRange) (hdisjoint : ∀ c : Coord, c.InRange →
      ¬ (lineContains axis q c = true ∧ lineContains axis' q' c = true)) :
    (rotateLine axis' q' b).after ((rotateLine axis q a).after cube)
      = (rotateLine axis q a).after ((rotateLine axis' q' b).after cube) := by
  have hlines : ∀ p, OnLine axis q.pos p → ¬ OnLine axis' q'.pos p := by
    intro p hp hp'
    have hc := Coord.inRange_ofPos p
    rw [← Coord.pos_ofPos p] at hp hp'
    exact hdisjoint _ hc ⟨(onLine_pos_iff axis hq hc).mp hp, (onLine_pos_iff axis' hq' hc).mp hp'⟩
  rw [rotateLine_after axis hq, rotateLine_after axis hq, rotateLine_after axis' hq',
    rotateLine_after axis' hq']
  apply Cube.cell_injective
  simp only [Cube.cell_rotated]
  exact (lineRotate_comm hlines _ _ _).symm

theorem rotateLine_histogram (hq : q.InRange) (amount : U8) :
    ((rotateLine axis q amount).after cube).histogram = cube.histogram := by
  rw [rotateLine_after axis hq]
  exact histogram_eq_of_perm (Cube.rotated_perm cube axis q.pos _)

/-- The rotated line keeps its sum. -/
theorem rotateLine_sum (hq : q.InRange) (amount : U8) :
    sumOfLine ((rotateLine axis q amount).after cube) axis q.pos
      = sumOfLine cube axis q.pos := by
  rw [rotateLine_after axis hq]
  unfold sumOfLine
  rw [Cube.cell_rotated]
  exact sum_lineRotate axis q.pos _ cube.cell (fun byte => u32 byte)

end Rotation

/-- **`rotate_line`**, for every cube, every point and all amounts. -/
theorem rotateLine_spec (cube : Cube) (axis : Axis) (q : Coord) (a b : U8) :
    let rotated := (rotateLine axis q a).after cube
    (q.InRange →
      (rotateLine axis q a).returned cube = .ok () ∧
      (∀ i : Fin 8, rotated.at (q.set axis (BitVec.ofNat 8 ((i.val + a.toNat) % 8)))
        = cube.at (q.set axis (BitVec.ofNat 8 i))) ∧
      (∀ c : Coord, c.InRange → lineContains axis q c = false → rotated.at c = cube.at c) ∧
      (Finset.univ.filter fun p : Pos => lineContains axis q (Coord.ofPos p) = false).card = 504 ∧
      (∀ q' : Coord, q'.InRange → lineContains axis q q' = true →
        (rotateLine axis q' a).after cube = rotated) ∧
      (rotateLine axis q b).after rotated
        = (rotateLine axis q (BitVec.ofNat 8 ((a.toNat + b.toNat) % 8))).after cube ∧
      (rotateLine axis q (8 - a % 8)).after rotated = cube ∧
      (∀ (axis' : Axis) (q' : Coord), q'.InRange →
        (∀ c : Coord, c.InRange →
          ¬ (lineContains axis q c = true ∧ lineContains axis' q' c = true)) →
        (rotateLine axis' q' b).after rotated
          = (rotateLine axis q a).after ((rotateLine axis' q' b).after cube)) ∧
      rotated.histogram = cube.histogram ∧
      ∃ sums sums', (lineSums cube).returned = .ok sums ∧ (lineSums rotated).returned = .ok sums' ∧
        sums'[lineIndex axis q.pos] = sums[lineIndex axis q.pos]) ∧
    (¬ q.InRange →
      (rotateLine axis q a).returned cube
        = .error (.thrown .outOfRange "Cube coordinate is outside [0,7]") ∧
      rotated = cube) := by
  intro rotated
  constructor
  · intro hq
    obtain ⟨sums, hsums, hentry⟩ := reads_lineSums cube
    obtain ⟨sums', hsums', hentry'⟩ := reads_lineSums rotated
    refine ⟨rotateLine_returned axis hq a cube, rotateLine_moves cube axis hq a,
      fun c => rotateLine_frame cube axis hq a, card_lineContains_false axis hq,
      fun q' => rotateLine_congr cube axis hq a, rotateLine_rotateLine cube axis hq a b,
      rotateLine_undo cube axis hq a, fun axis' q' => rotateLine_comm cube axis hq a b,
      rotateLine_histogram cube axis hq a, sums, sums', hsums.returned, hsums'.returned, ?_⟩
    rw [hentry', hentry, rotateLine_sum cube axis hq a]
  · intro hq
    have hrun := rotateLine_run_of_not_inRange axis hq a ⟨cube, []⟩
    constructor
    · unfold CubeRun.returned
      rw [hrun]
    · show (rotateLine axis q a).after cube = cube
      unfold CubeRun.after
      rw [hrun]

/-- A line of the perfect cube, rotated by 3 and back by 5. -/
theorem rotateLine_spec_perfect :
    (⟨1, 2, 3⟩ : Coord).InRange ∧
      (rotateLine .X ⟨1, 2, 3⟩ (8 - 3 % 8)).after
        ((rotateLine .X ⟨1, 2, 3⟩ 3).after Cube.perfect) = Cube.perfect := by
  have hq : (⟨1, 2, 3⟩ : Coord).InRange := by decide
  exact ⟨hq, ((rotateLine_spec Cube.perfect .X ⟨1, 2, 3⟩ 3 250).1 hq).2.2.2.2.2.2.1⟩
