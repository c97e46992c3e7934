/-
# The cube

`pvc1::Cube`: 512 bytes in an 8×8×8 grid, its reads and writes through raw
coordinates, the in-place rotation of a line, and the cursor that advances with
it.

`Cube::unchecked` trusts its caller.  The model logs every coordinate handed to
it, and fails with `Fault.badAccess` where the linear index leaves the array; a
coordinate outside `[0,7]` whose index stays inside reads the wrong cell, as in
the source, and is caught by the log.
-/
import RotSymEnc.Words
import RotSymEnc.StatefulRuns
import RotSymEnc.TorusLines

open TorusLines StatefulRuns

/-! ## Axes and coordinates -/

/-- `enum class Axis`. -/
inductive Axis : Type where
  | X : Axis
  | Y : Axis
  | Z : Axis
  deriving DecidableEq, Repr

instance : Fintype Axis where
  elems := {.X, .Y, .Z}
  complete := by intro a; cases a <;> simp

/-- The enumerator's value. -/
def Axis.code : Axis → ℕ
  | .X => 0
  | .Y => 1
  | .Z => 2

/-- `static_cast<Axis>` of a value that must name an enumerator. -/
def Axis.ofCode : ℕ → Except Fault Axis
  | 0 => .ok .X
  | 1 => .ok .Y
  | 2 => .ok .Z
  | _ => .error .badEnumerator

/-- `struct Coord`: three raw bytes. -/
structure Coord : Type where
  x : U8
  y : U8
  z : U8
  deriving DecidableEq, Repr

namespace Coord

/-- Every component is inside `[0,7]`. -/
def InRange (coord : Coord) : Prop :=
  coord.x < 8 ∧ coord.y < 8 ∧ coord.z < 8

instance (coord : Coord) : Decidable coord.InRange :=
  inferInstanceAs (Decidable (_ ∧ _ ∧ _))

/-- `Cube::index`. -/
def index (coord : Coord) : ℕ :=
  coord.z.toNat * 64 + coord.y.toNat * 8 + coord.x.toNat

/-- The component along an axis. -/
def get (coord : Coord) : Axis → U8
  | .X => coord.x
  | .Y => coord.y
  | .Z => coord.z

/-- The three-way `switch` that replaces the component along an axis. -/
def set (coord : Coord) (axis : Axis) (value : U8) : Coord :=
  match axis with
  | .X => { coord with x := value }
  | .Y => { coord with y := value }
  | .Z => { coord with z := value }

end Coord

/-- `advance`: the cursor moves `amount` cells forward on its line, modulo 8. -/
def advance (coord : Coord) (axis : Axis) (amount : U8) : Coord :=
  coord.set axis ((coord.get axis + amount % 8) % 8)

/-- `line_contains`. -/
def lineContains (axis : Axis) (linePoint point : Coord) : Bool :=
  match axis with
  | .X => linePoint.y == point.y && linePoint.z == point.z
  | .Y => linePoint.x == point.x && linePoint.z == point.z
  | .Z => linePoint.x == point.x && linePoint.y == point.y

/-! ## The cube and its accesses -/

/-- `class Cube`: the 512 cells. -/
structure Cube : Type where
  cells : Vector U8 512
  deriving DecidableEq

set_option maxRecDepth 4000 in
/-- `Cube::perfect`. -/
def Cube.perfect : Cube where
  cells := #v[
    68, 69, 182, 183, 184, 185, 74, 75, 84, 85, 169, 168, 167, 166, 90, 91,
    107, 154, 102, 152, 151, 105, 149, 100, 123, 138, 137, 119, 120, 134, 133, 116,
    139, 122, 121, 135, 136, 118, 117, 132, 155, 106, 150, 104, 103, 153, 101, 148,
    164, 165, 89, 88, 87, 86, 170, 171, 180, 181, 70, 71, 72, 73, 186, 187,
    64, 65, 178, 179, 188, 189, 78, 79, 80, 81, 173, 172, 163, 162, 94, 95,
    111, 158, 98, 156, 147, 109, 145, 96, 127, 142, 141, 115, 124, 130, 129, 112,
    143, 126, 125, 131, 140, 114, 113, 128, 159, 110, 146, 108, 99, 157, 97, 144,
    160, 161, 93, 92, 83, 82, 174, 175, 176, 177, 66, 67, 76, 77, 190, 191,
    4, 5, 246, 247, 248, 249, 10, 11, 20, 21, 233, 232, 231, 230, 26, 27,
    43, 218, 38, 216, 215, 41, 213, 36, 59, 202, 201, 55, 56, 198, 197, 52,
    203, 58, 57, 199, 200, 54, 53, 196, 219, 42, 214, 40, 39, 217, 37, 212,
    228, 229, 25, 24, 23, 22, 234, 235, 244, 245, 6, 7, 8, 9, 250, 251,
    0, 1, 242, 243, 252, 253, 14, 15, 16, 17, 237, 236, 227, 226, 30, 31,
    47, 222, 34, 220, 211, 45, 209, 32, 63, 206, 205, 51, 60, 194, 193, 48,
    207, 62, 61, 195, 204, 50, 49, 192, 223, 46, 210, 44, 35, 221, 33, 208,
    224, 225, 29, 28, 19, 18, 238, 239, 240, 241, 2, 3, 12, 13, 254, 255,
    255, 254, 13, 12, 3, 2, 241, 240, 239, 238, 18, 19, 28, 29, 225, 224,
    208, 33, 221, 35, 44, 210, 46, 223, 192, 49, 50, 204, 195, 61, 62, 207,
    48, 193, 194, 60, 51, 205, 206, 63, 32, 209, 45, 211, 220, 34, 222, 47,
    31, 30, 226, 227, 236, 237, 17, 16, 15, 14, 253, 252, 243, 242, 1, 0,
    251, 250, 9, 8, 7, 6, 245, 244, 235, 234, 22, 23, 24, 25, 229, 228,
    212, 37, 217, 39, 40, 214, 42, 219, 196, 53, 54, 200, 199, 57, 58, 203,
    52, 197, 198, 56, 55, 201, 202, 59, 36, 213, 41, 215, 216, 38, 218, 43,
    27, 26, 230, 231, 232, 233, 21, 20, 11, 10, 249, 248, 247, 246, 5, 4,
    191, 190, 77, 76, 67, 66, 177, 176, 175, 174, 82, 83, 92, 93, 161, 160,
    144, 97, 157, 99, 108, 146, 110, 159, 128, 113, 114, 140, 131, 125, 126, 143,
    112, 129, 130, 124, 115, 141, 142, 127, 96, 145, 109, 147, 156, 98, 158, 111,
    95, 94, 162, 163, 172, 173, 81, 80, 79, 78, 189, 188, 179, 178, 65, 64,
    187, 186, 73, 72, 71, 70, 181, 180, 171, 170, 86, 87, 88, 89, 165, 164,
    148, 101, 153, 103, 104, 150, 106, 155, 132, 117, 118, 136, 135, 121, 122, 139,
    116, 133, 134, 120, 119, 137, 138, 123, 100, 149, 105, 151, 152, 102, 154, 107,
    91, 90, 166, 167, 168, 169, 85, 84, 75, 74, 185, 184, 183, 182, 69, 68  ]

/-- `make_body_diagonals`: the four space diagonals of an array of cells. -/
def makeBodyDiagonals (cells : Vector U8 512) : Vector U8 32 :=
  Vector.ofFn (fun i : Fin 8 => cells.get ⟨i.val * 64 + i.val * 8 + i.val, by omega⟩)
    ++ Vector.ofFn (fun i : Fin 8 => cells.get ⟨i.val * 64 + i.val * 8 + (7 - i.val), by omega⟩)
    ++ Vector.ofFn (fun i : Fin 8 => cells.get ⟨i.val * 64 + (7 - i.val) * 8 + i.val, by omega⟩)
    ++ Vector.ofFn (fun i : Fin 8 => cells.get ⟨(7 - i.val) * 64 + i.val * 8 + i.val, by omega⟩)

/-- `Cube::perfect_body_diagonals`. -/
def Cube.perfectBodyDiagonals : Vector U8 32 := makeBodyDiagonals Cube.perfect.cells

/-- `Cube::at`: the checked read. -/
def Cube.at (cube : Cube) (coord : Coord) : Except Fault U8 :=
  if coord.InRange then
    if h : coord.index < 512 then .ok cube.cells[coord.index] else .error .badAccess
  else .error (.thrown .outOfRange "Cube coordinate is outside [0,7]")

/-- A call that reads cubes through `Cube::unchecked`.  The state is the list of
coordinates handed to it so far, the latest first. -/
abbrev AccessRun := EStateM Fault (List Coord)

/-- `Cube::unchecked`, read. -/
def unchecked (cube : Cube) (coord : Coord) : AccessRun U8 := do
  modify fun accesses => coord :: accesses
  if h : coord.index < 512 then return cube.cells[coord.index]
  else throw .badAccess

/-- `read_line`: the eight cells of the line through a point. -/
def readLine (cube : Cube) (axis : Axis) (linePoint : Coord) : AccessRun (Vector U8 8) :=
  Vector.ofFnM fun i : Fin 8 => unchecked cube (linePoint.set axis (BitVec.ofNat 8 i))

/-- `Cube::body_diagonals`: the four space diagonals, concatenated. -/
def bodyDiagonals (cube : Cube) : AccessRun (Vector U8 32) := do
  let d0 ← Vector.ofFnM fun i : Fin 8 =>
    unchecked cube ⟨BitVec.ofNat 8 i, BitVec.ofNat 8 i, BitVec.ofNat 8 i⟩
  let d1 ← Vector.ofFnM fun i : Fin 8 =>
    unchecked cube ⟨7 - BitVec.ofNat 8 i, BitVec.ofNat 8 i, BitVec.ofNat 8 i⟩
  let d2 ← Vector.ofFnM fun i : Fin 8 =>
    unchecked cube ⟨BitVec.ofNat 8 i, 7 - BitVec.ofNat 8 i, BitVec.ofNat 8 i⟩
  let d3 ← Vector.ofFnM fun i : Fin 8 =>
    unchecked cube ⟨BitVec.ofNat 8 i, BitVec.ofNat 8 i, 7 - BitVec.ofNat 8 i⟩
  return d0 ++ d1 ++ d2 ++ d3

/-- The inner loops of `Cube::line_sums`: the sum of the cells of a line. -/
def sumLine (cube : Cube) (axis : Axis) (linePoint : Coord) : AccessRun U32 :=
  (List.finRange 8).foldlM (fun (sum : U32) (i : Fin 8) => do
    return sum + u32 (← unchecked cube (linePoint.set axis (BitVec.ofNat 8 i)))) 0

/-- `Cube::line_sums`: the lines along `X`, then those along `Y`, then those along `Z`. -/
def lineSums (cube : Cube) : AccessRun (Vector U32 192) := do
  let alongX ← Vector.ofFnM fun out : Fin 64 =>
    sumLine cube .X ⟨0, BitVec.ofNat 8 (out % 8), BitVec.ofNat 8 (out / 8)⟩
  let alongY ← Vector.ofFnM fun out : Fin 64 =>
    sumLine cube .Y ⟨BitVec.ofNat 8 (out % 8), 0, BitVec.ofNat 8 (out / 8)⟩
  let alongZ ← Vector.ofFnM fun out : Fin 64 =>
    sumLine cube .Z ⟨BitVec.ofNat 8 (out % 8), BitVec.ofNat 8 (out / 8), 0⟩
  return alongX ++ alongY ++ alongZ

/-- `Cube::histogram`. -/
def Cube.histogram (cube : Cube) : Vector U16 256 :=
  cube.cells.toList.foldl
    (fun counts value => counts.set value.toNat (counts[value.toNat] + 1)) (Vector.replicate 256 0)

/-- Counting a list byte by byte. -/
theorem foldl_histogram (l : List U8) (counts : Vector U16 256) (b : U8) :
    (l.foldl (fun (counts : Vector U16 256) value =>
        counts.set value.toNat (counts[value.toNat] + 1)) counts)[b.toNat]
      = counts[b.toNat] + BitVec.ofNat 16 (l.count b) := by
  induction l generalizing counts with
  | nil => simp
  | cons value l ih =>
    rw [List.foldl_cons, ih]
    by_cases h : value = b
    · subst h
      rw [Vector.getElem_set_self, List.count_cons_self, BitVec.add_assoc, BitVec.ofNat_add,
        BitVec.add_comm 1]
      rfl
    · have hne : value.toNat ≠ b.toNat := fun hv => h (BitVec.eq_of_toNat_eq hv)
      rw [Vector.getElem_set_ne _ _ hne, List.count_cons_of_ne h]

/-- The entries of `histogram` are the numbers of cells, modulo `2^16`. -/
theorem histogram_getElem (cube : Cube) (b : U8) :
    cube.histogram[b.toNat] = BitVec.ofNat 16 (cube.cells.toList.count b) := by
  unfold Cube.histogram
  rw [foldl_histogram, Vector.getElem_replicate, zero_add]

/-- A cube under mutation, with the coordinates handed to `Cube::unchecked`. -/
structure CubeMem : Type where
  cube : Cube
  accesses : List Coord

/-- A call of a mutating member function of `Cube`. -/
abbrev CubeRun := EStateM Fault CubeMem

/-- Reading calls inside a mutating one. -/
def CubeMem.reading {α : Type} (x : AccessRun α) : CubeRun α :=
  zoom CubeMem.accesses (fun accesses mem => { mem with accesses := accesses }) x

/-- `Cube::unchecked`, written through. -/
def uncheckedStore (coord : Coord) (value : U8) : CubeRun PUnit := do
  modify fun mem => { mem with accesses := coord :: mem.accesses }
  let mem ← get
  if h : coord.index < 512 then set { mem with cube := ⟨mem.cube.cells.set coord.index value⟩ }
  else throw .badAccess

/-- `Cube::rotate_line`: the line is read out, then written back shifted. -/
def rotateLine (axis : Axis) (linePoint : Coord) (amount : U8) : CubeRun PUnit := do
  if ¬ linePoint.InRange then
    throw (.thrown .outOfRange "Cube coordinate is outside [0,7]")
  let shift := amount % 8
  if shift = 0 then return
  let mem ← get
  let old ← CubeMem.reading (readLine mem.cube axis linePoint)
  forM (List.finRange 8) fun (i : Fin 8) =>
    uncheckedStore (linePoint.set axis ((BitVec.ofNat 8 i + shift) % 8)) (old.get i)
