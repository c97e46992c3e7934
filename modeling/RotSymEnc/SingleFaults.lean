/-
# The single faults of a state

`fault_injection_campaign.cpp` flips every bit of the cube and of the controller once.
The bits are numbered through: the cells of the cube in storage order, from the low
bit up, then the four lanes of the controller.  Flipping, naming the region of a bit
and measuring the distance of two states each cut the numbering up on their own.

The numbering itself is `stateBits`, a bit string.  The three functions are compared
with it, so that the enumeration is exact because a flip of a bit string is.
-/
import RotSymEnc.Controller
import RotSymEnc.BitStrings

open BitStrings StatefulRuns

/-! ## Sizes and regions -/

abbrev kCubeStateBits : ℕ := 512 * 8

abbrev kControllerStateBits : ℕ := 16 + 16 + 32 + 64

abbrev kC1StateBits : ℕ := kCubeStateBits + kControllerStateBits

/-- `enum class StateRegion`. -/
inductive StateRegion : Type where
  | Cube
  | AxisControl
  | AmountControl
  | Feedback
  | Transcript
  | Count
  deriving DecidableEq, Repr

/-- `require` of the campaign. -/
def requireThat (condition : Bool) (message : String) : Except Fault PUnit :=
  if condition then .ok () else .error (.thrown .runtimeError message)

/-- `state_region`. -/
def stateRegion (bit : ℕ) : Except Fault StateRegion := do
  requireThat (bit < kC1StateBits) "state-region bit is outside model"
  if bit < kCubeStateBits then return .Cube
  let bit := bit - kCubeStateBits
  if bit < 16 then return .AxisControl
  let bit := bit - 16
  if bit < 16 then return .AmountControl
  let bit := bit - 16
  if bit < 32 then return .Feedback
  return .Transcript

/-! ## Distances -/

/-- `controller_bit_distance`. -/
def controllerBitDistance (left right : ControllerState) : ℕ :=
  popcount (u16 (left.axisControl ^^^ right.axisControl))
    + popcount (u16 (left.amountControl ^^^ right.amountControl))
    + popcount (left.feedback ^^^ right.feedback)
    + popcount (left.transcript ^^^ right.transcript)

/-- `struct StateDistance`. -/
@[ext] structure StateDistance : Type where
  cubeBits : ℕ
  controllerBits : ℕ
  metadataBits : ℕ
  deriving DecidableEq, Repr

/-- `StateDistance::total`. -/
def StateDistance.total (distance : StateDistance) : ℕ :=
  distance.cubeBits + distance.controllerBits + distance.metadataBits

/-- The loop of `working_state_distance` over the storage of the two cubes. -/
def cubeBitDistance (left right : Cube) : ℕ :=
  (List.finRange 512).foldl
    (fun bits index => bits + popcount (u32 (left.cells[index] ^^^ right.cells[index]))) 0

/-- `working_state_distance`. -/
def workingStateDistance (left right : WorkingState) : StateDistance where
  cubeBits := cubeBitDistance left.cube right.cube
  controllerBits := controllerBitDistance left.controller right.controller
  metadataBits :=
    popcount (u32 (left.cursor.x ^^^ right.cursor.x))
      + popcount (u32 (left.cursor.y ^^^ right.cursor.y))
      + popcount (u32 (left.cursor.z ^^^ right.cursor.z))
      + popcount (BitVec.ofNat 32 left.previousAxis.code
          ^^^ BitVec.ofNat 32 right.previousAxis.code)
      + popcount (left.symbolIndex ^^^ right.symbolIndex)

/-! ## Flips -/

/-- `Cube::at`, its result combined with a mask by `^=`. -/
def Cube.xorAt (cube : Cube) (coord : Coord) (mask : U8) : Except Fault Cube := do
  let value ← cube.at coord
  return ⟨← arraySet cube.cells coord.index (value ^^^ mask)⟩

/-- The coordinate `flip_c1_state_bit` computes for a cell. -/
def faultCoord (cell : ℕ) : Coord :=
  ⟨BitVec.ofNat 8 (cell &&& 7), BitVec.ofNat 8 ((cell >>> 3) &&& 7),
    BitVec.ofNat 8 ((cell >>> 6) &&& 7)⟩

/-- `flip_c1_state_bit`. -/
def flipC1StateBit (state : WorkingState) (bit : ℕ) : Except Fault WorkingState := do
  requireThat (bit < kC1StateBits) "C1 state fault bit is outside model"
  if bit < kCubeStateBits then
    let cell := bit / 8
    let bitInCell := bit % 8
    let cube ← state.cube.xorAt (faultCoord cell) (u8 ((1 : U32) <<< bitInCell))
    return { state with cube }
  let controller := state.controller
  let controllerBit := bit - kCubeStateBits
  if controllerBit < 16 then
    let axisControl := controller.axisControl ^^^ u16 ((1 : U32) <<< controllerBit)
    return { state with controller := { controller with axisControl } }
  let controllerBit := controllerBit - 16
  if controllerBit < 16 then
    let amountControl := controller.amountControl ^^^ u16 ((1 : U32) <<< controllerBit)
    return { state with controller := { controller with amountControl } }
  let controllerBit := controllerBit - 16
  if controllerBit < 32 then
    let feedback := controller.feedback ^^^ ((1 : U32) <<< controllerBit)
    return { state with controller := { controller with feedback } }
  let controllerBit := controllerBit - 32
  requireThat (controllerBit < 64) "C1 transcript fault bit is outside model"
  let transcript := controller.transcript ^^^ ((1 : U64) <<< controllerBit)
  return { state with controller := { controller with transcript } }

/-! ## The numbered bits -/

/-- The lanes of a controller side by side, the first in the low bits. -/
def controllerWord (controller : ControllerState) : BitVec kControllerStateBits :=
  (controller.transcript ++ controller.feedback ++ controller.amountControl
    ++ controller.axisControl).cast (by decide)

/-- The bits of a cube, cell after cell. -/
def cubeBits (cube : Cube) (bit : ℕ) : Bool :=
  if h : bit / 8 < 512 then cube.cells[bit / 8].getLsbD (bit % 8) else false

/-- The bits of the cube and of the controller of a state, in the order of the campaign. -/
def stateBits (state : WorkingState) (bit : ℕ) : Bool :=
  if bit < kCubeStateBits then cubeBits state.cube bit
  else (controllerWord state.controller).getLsbD (bit - kCubeStateBits)

/-- The fields of a state outside the cube and the controller agree. -/
structure SameMetadata (left right : WorkingState) : Prop where
  cursor : left.cursor = right.cursor
  previousAxis : left.previousAxis = right.previousAxis
  symbolIndex : left.symbolIndex = right.symbolIndex

namespace StateRegion

/-- The first bit of a region. -/
def first : StateRegion → ℕ
  | Cube => 0
  | AxisControl => 4096
  | AmountControl => 4112
  | Feedback => 4128
  | Transcript => 4160
  | Count => 4224

/-- The number of bits of a region. -/
def size : StateRegion → ℕ
  | Cube => 4096
  | AxisControl => 16
  | AmountControl => 16
  | Feedback => 32
  | Transcript => 64
  | Count => 0

/-- The bit lies in the region. -/
def Holds (region : StateRegion) (bit : ℕ) : Prop :=
  region.first ≤ bit ∧ bit < region.first + region.size

/-- The bits of a region's component, numbered from 0. -/
def bits (state : WorkingState) : StateRegion → ℕ → Bool
  | Cube => cubeBits state.cube
  | AxisControl => state.controller.axisControl.getLsbD
  | AmountControl => state.controller.amountControl.getLsbD
  | Feedback => state.controller.feedback.getLsbD
  | Transcript => state.controller.transcript.getLsbD
  | Count => fun _ => false

/-- The number of bits of a region's component in which two states differ. -/
def bitDistance (left right : WorkingState) : StateRegion → ℕ
  | Cube => cubeBitDistance left.cube right.cube
  | AxisControl => popcount (left.controller.axisControl ^^^ right.controller.axisControl)
  | AmountControl => popcount (left.controller.amountControl ^^^ right.controller.amountControl)
  | Feedback => popcount (left.controller.feedback ^^^ right.controller.feedback)
  | Transcript => popcount (left.controller.transcript ^^^ right.controller.transcript)
  | Count => 0

/-- Every bit lies in one region at most. -/
theorem Holds.unique {region region' : StateRegion} {bit : ℕ} (h : region.Holds bit)
    (h' : region'.Holds bit) : region = region' := by
  obtain ⟨hlo, hhi⟩ := h
  obtain ⟨hlo', hhi'⟩ := h'
  cases region <;> cases region' <;> simp only [first, size] at hlo hhi hlo' hhi' <;>
    first | rfl | omega

/-- Every bit of the numbering lies in a region. -/
theorem exists_holds {bit : ℕ} (h : bit < kC1StateBits) :
    ∃ region : StateRegion, region.Holds bit := by
  simp only [kC1StateBits, kCubeStateBits, kControllerStateBits] at h
  unfold Holds
  by_cases hcube : bit < 4096
  · exact ⟨.Cube, Nat.zero_le _, by simpa [first, size] using hcube⟩
  by_cases haxis : bit < 4112
  · exact ⟨.AxisControl, by simp only [first]; omega, by simpa [first, size] using haxis⟩
  by_cases hamount : bit < 4128
  · exact ⟨.AmountControl, by simp only [first]; omega, by simpa [first, size] using hamount⟩
  by_cases hfeedback : bit < 4160
  · exact ⟨.Feedback, by simp only [first]; omega, by simpa [first, size] using hfeedback⟩
  · exact ⟨.Transcript, by simp only [first]; omega, by simpa [first, size] using h⟩

/-- A region lies inside the numbering. -/
theorem Holds.lt {region : StateRegion} {bit : ℕ} (h : region.Holds bit) :
    bit < kC1StateBits := by
  obtain ⟨hlo, hhi⟩ := h
  simp only [kC1StateBits, kCubeStateBits, kControllerStateBits]
  cases region <;> simp only [first, size] at hlo hhi <;> omega

end StateRegion

/-- **`state_region` names the region that holds the bit.** -/
theorem stateRegion_of_holds {region : StateRegion} {bit : ℕ} (h : region.Holds bit) :
    stateRegion bit = .ok region := by
  have hlt := h.lt
  obtain ⟨hlo, hhi⟩ := h
  unfold stateRegion requireThat
  rw [if_pos (by simpa using hlt)]
  rw [except_ok_bind]
  simp only [kCubeStateBits]
  cases region with
  | Cube =>
    simp only [StateRegion.first, StateRegion.size] at hlo hhi
    rw [if_pos (by omega)]
    rfl
  | AxisControl =>
    simp only [StateRegion.first, StateRegion.size] at hlo hhi
    rw [if_neg (by omega), if_pos (by omega)]
    rfl
  | AmountControl =>
    simp only [StateRegion.first, StateRegion.size] at hlo hhi
    rw [if_neg (by omega), if_neg (by omega), if_pos (by omega)]
    rfl
  | Feedback =>
    simp only [StateRegion.first, StateRegion.size] at hlo hhi
    rw [if_neg (by omega), if_neg (by omega), if_neg (by omega), if_pos (by omega)]
    rfl
  | Transcript =>
    simp only [StateRegion.first, StateRegion.size] at hlo hhi
    rw [if_neg (by omega), if_neg (by omega), if_neg (by omega), if_neg (by omega)]
    rfl
  | Count =>
    simp only [StateRegion.first, StateRegion.size] at hlo hhi
    omega

/-! ## The numbering and the components -/

/-- The bits of a region are the bits of its component, in order. -/
theorem stateBits_of_holds (state : WorkingState) {region : StateRegion} {bit : ℕ}
    (h : region.Holds bit) :
    stateBits state bit = region.bits state (bit - region.first) := by
  obtain ⟨hlo, hhi⟩ := h
  unfold stateBits controllerWord
  simp only [kCubeStateBits, BitVec.getLsbD_cast, BitVec.getLsbD_append]
  cases region with
  | Cube =>
    simp only [StateRegion.first, StateRegion.size] at hlo hhi ⊢
    rw [if_pos (by omega)]
    rfl
  | AxisControl =>
    simp only [StateRegion.first, StateRegion.size] at hlo hhi ⊢
    rw [if_neg (by omega), if_pos (by omega)]
    rfl
  | AmountControl =>
    simp only [StateRegion.first, StateRegion.size] at hlo hhi ⊢
    rw [if_neg (by omega), if_neg (by omega), if_pos (by omega), Nat.sub_sub]
    rfl
  | Feedback =>
    simp only [StateRegion.first, StateRegion.size] at hlo hhi ⊢
    rw [if_neg (by omega), if_neg (by omega), if_neg (by omega), if_pos (by omega), Nat.sub_sub,
      Nat.sub_sub]
    rfl
  | Transcript =>
    simp only [StateRegion.first, StateRegion.size] at hlo hhi ⊢
    rw [if_neg (by omega), if_neg (by omega), if_neg (by omega), if_neg (by omega), Nat.sub_sub,
      Nat.sub_sub, Nat.sub_sub]
    rfl
  | Count =>
    simp only [StateRegion.first, StateRegion.size] at hlo hhi
    omega

/-- A byte of the storage is a window of eight bits of the cube. -/
theorem cubeBits_cell (cube : Cube) (cell : Fin 512) {bit : ℕ} (h : bit < 8) :
    cubeBits cube (cell * 8 + bit) = cube.cells[cell].getLsbD bit := by
  have hcell : (cell.val * 8 + bit) / 8 = cell.val := by omega
  have hbit : (cell.val * 8 + bit) % 8 = bit := by omega
  unfold cubeBits
  simp only [hcell, hbit, cell.isLt, dite_true]
  rfl

/-- The loop over the two storages counts the differing bits of the cubes. -/
theorem cubeBitDistance_eq (left right : Cube) :
    cubeBitDistance left right = distance (cubeBits left) (cubeBits right) 0 (512 * 8) := by
  have hcell : ∀ cell : Fin 512, popcount (u32 (left.cells[cell] ^^^ right.cells[cell]))
      = distance (cubeBits left) (cubeBits right) (0 + cell * 8) 8 := by
    intro cell
    rw [popcount_setWidth (by omega), popcount_xor]
    apply distance_congr
    · intro i hi
      rw [Nat.zero_add, Nat.zero_add, cubeBits_cell left cell hi]
    · intro i hi
      rw [Nat.zero_add, Nat.zero_add, cubeBits_cell right cell hi]
  unfold cubeBitDistance
  rw [distance_mul, Finset.sum_range, Fin.sum_univ_def, List.sum_eq_foldl, List.foldl_map]
  simp only [hcell]

namespace StateRegion

/-- The distance of a component is the distance of the states in its region. -/
theorem bitDistance_eq (left right : WorkingState) (region : StateRegion) :
    region.bitDistance left right
      = distance (stateBits left) (stateBits right) region.first region.size := by
  have hbits : region.bitDistance left right
      = distance (region.bits left) (region.bits right) 0 region.size := by
    cases region with
    | Cube => exact cubeBitDistance_eq left.cube right.cube
    | AxisControl => exact popcount_xor _ _
    | AmountControl => exact popcount_xor _ _
    | Feedback => exact popcount_xor _ _
    | Transcript => exact popcount_xor _ _
    | Count => rfl
  have hwindow : ∀ (state : WorkingState), ∀ i < region.size,
      region.bits state (0 + i) = stateBits state (region.first + i) := by
    intro state i hi
    have hholds : region.Holds (region.first + i) := ⟨Nat.le_add_right _ _, by omega⟩
    rw [stateBits_of_holds state hholds, Nat.add_sub_cancel_left, Nat.zero_add]
  rw [hbits]
  exact distance_congr (hwindow left) (hwindow right)

end StateRegion

section Distances

variable (left right : WorkingState)

/-- The bits of the cube and of the controller that differ are those of the numbering. -/
theorem workingStateDistance_bits :
    (workingStateDistance left right).cubeBits + (workingStateDistance left right).controllerBits
      = distance (stateBits left) (stateBits right) 0 kC1StateBits := by
  have hsplit : kC1StateBits = 4096 + (16 + (16 + (32 + 64))) := by decide
  have hcube := StateRegion.bitDistance_eq left right .Cube
  have haxis := StateRegion.bitDistance_eq left right .AxisControl
  have hamount := StateRegion.bitDistance_eq left right .AmountControl
  have hfeedback := StateRegion.bitDistance_eq left right .Feedback
  have htranscript := StateRegion.bitDistance_eq left right .Transcript
  simp only [StateRegion.bitDistance, StateRegion.first, StateRegion.size]
    at hcube haxis hamount hfeedback htranscript
  simp only [workingStateDistance, controllerBitDistance, BitVec.setWidth_eq]
  rw [hsplit, distance_add, distance_add, distance_add, distance_add, hcube, haxis, hamount,
    hfeedback, htranscript]
  simp only [Nat.reduceAdd, Nat.add_assoc]

/-- The three counted coordinates, the axis and the index differ nowhere exactly when the
metadata agree. -/
theorem metadataBits_eq_zero_iff :
    (workingStateDistance left right).metadataBits = 0 ↔ SameMetadata left right := by
  have hcoord : ∀ x y : U8, popcount (u32 (x ^^^ y)) = 0 ↔ x = y := by
    intro x y
    rw [popcount_setWidth (by omega), popcount_xor_eq_zero_iff]
  have haxis : ∀ a b : Axis,
      popcount (BitVec.ofNat 32 a.code ^^^ BitVec.ofNat 32 b.code) = 0 ↔ a = b := by
    intro a b
    rw [popcount_xor_eq_zero_iff]
    cases a <;> cases b <;> decide
  simp only [workingStateDistance, Nat.add_eq_zero_iff, hcoord, haxis, popcount_xor_eq_zero_iff]
  constructor
  · rintro ⟨⟨⟨⟨hx, hy⟩, hz⟩, hprevious⟩, hindex⟩
    refine ⟨?_, hprevious, hindex⟩
    cases hl : left.cursor
    cases hr : right.cursor
    simp_all
  · rintro ⟨hcursor, hprevious, hindex⟩
    rw [hcursor]
    exact ⟨⟨⟨⟨rfl, rfl⟩, rfl⟩, hprevious⟩, hindex⟩

end Distances

/-- **A state is its numbered bits and its metadata.** -/
theorem eq_of_stateBits {left right : WorkingState} (hmeta : SameMetadata left right)
    (hbits : ∀ bit < kC1StateBits, stateBits left bit = stateBits right bit) : left = right := by
  have hregion : ∀ (region : StateRegion), ∀ i < region.size,
      region.bits left i = region.bits right i := by
    intro region i hi
    have hholds : region.Holds (region.first + i) := ⟨Nat.le_add_right _ _, by omega⟩
    have := hbits (region.first + i) hholds.lt
    rwa [stateBits_of_holds left hholds, stateBits_of_holds right hholds,
      Nat.add_sub_cancel_left] at this
  have hcube : left.cube = right.cube := by
    have hcells : left.cube.cells = right.cube.cells := by
      ext i hi
      rename_i k hk
      have := hregion .Cube (i * 8 + k) (by simp only [StateRegion.size]; omega)
      simpa [StateRegion.bits, cubeBits_cell _ ⟨i, hi⟩ hk, BitVec.getLsbD_eq_getElem hk] using this
    cases hl : left.cube
    cases hr : right.cube
    simpa [hl, hr] using hcells
  have hcontroller : left.controller = right.controller := by
    have haxis : left.controller.axisControl = right.controller.axisControl :=
      BitVec.eq_of_getLsbD_eq (hregion .AxisControl)
    have hamount : left.controller.amountControl = right.controller.amountControl :=
      BitVec.eq_of_getLsbD_eq (hregion .AmountControl)
    have hfeedback : left.controller.feedback = right.controller.feedback :=
      BitVec.eq_of_getLsbD_eq (hregion .Feedback)
    have htranscript : left.controller.transcript = right.controller.transcript :=
      BitVec.eq_of_getLsbD_eq (hregion .Transcript)
    cases hl : left.controller
    cases hr : right.controller
    simp_all
  obtain ⟨hcursor, hprevious, hindex⟩ := hmeta
  cases left
  cases right
  simp_all

/-! ## The flips -/

/-- The coordinate of a fault is that of its cell. -/
theorem faultCoord_index {cell : ℕ} (h : cell < 512) : (faultCoord cell).index = cell := by
  have hmask : ∀ n : ℕ, n &&& 7 = n % 8 := fun n => Nat.and_two_pow_sub_one_eq_mod n 3
  unfold faultCoord Coord.index
  simp only [hmask, Nat.shiftRight_eq_div_pow, BitVec.toNat_ofNat]
  omega

theorem faultCoord_inRange (cell : ℕ) : (faultCoord cell).InRange := by
  have hmask : ∀ n : ℕ, n &&& 7 = n % 8 := fun n => Nat.and_two_pow_sub_one_eq_mod n 3
  unfold faultCoord Coord.InRange
  have hlt : ∀ n : ℕ, BitVec.ofNat 8 (n % 8) < 8 := by
    intro n
    simp only [BitVec.lt_def, BitVec.toNat_ofNat, BitVec.reduceToNat]
    omega
  rw [hmask, hmask, hmask]
  exact ⟨hlt _, hlt _, hlt _⟩

/-- A mask through `Cube::at` changes one cell. -/
theorem xorAt_faultCoord (cube : Cube) {cell : ℕ} (h : cell < 512) (mask : U8) :
    cube.xorAt (faultCoord cell) mask = .ok ⟨cube.cells.set cell (cube.cells[cell] ^^^ mask)⟩ := by
  unfold Cube.xorAt Cube.at arraySet
  simp only [faultCoord_inRange, if_true, faultCoord_index h, h, dite_true]
  rfl

/-- One bit of a cube, flipped in its cell. -/
theorem cubeBits_set (cube : Cube) {cell k : ℕ} (h : cell < 512) (hk : k < 8) :
    cubeBits ⟨cube.cells.set cell (cube.cells[cell] ^^^ 1#8 <<< k)⟩
      = flipAt (cubeBits cube) (cell * 8 + k) := by
  funext bit
  by_cases hbit : bit / 8 = cell
  · -- A bit of the cell that changes.
    have hsplit : bit = cell * 8 + bit % 8 := by omega
    have hlt : bit % 8 < 8 := Nat.mod_lt _ (by omega)
    rw [hsplit, cubeBits_cell ⟨_⟩ ⟨cell, h⟩ hlt]
    simp only [Fin.getElem_fin, Vector.getElem_set_self]
    rw [getLsbD_xor_one_shiftLeft _ hk hlt]
    by_cases heq : bit % 8 = k
    · rw [heq, flipAt_self, flipAt_self, cubeBits_cell cube ⟨cell, h⟩ hk]
      rfl
    · rw [flipAt_of_ne _ _ heq, flipAt_of_ne _ _ (by omega), cubeBits_cell cube ⟨cell, h⟩ hlt]
      rfl
  · rw [flipAt_of_ne _ _ (by omega)]
    unfold cubeBits
    by_cases hin : bit / 8 < 512
    · simp only [hin, dite_true]
      rw [Vector.getElem_set_ne h hin (Ne.symm hbit)]
    · simp only [hin, dite_false]

/-- What a flip does to the regions: the bit is flipped in its own, and the others keep
their bits. -/
structure Flipped (region : StateRegion) (bit : ℕ) (state state' : WorkingState) : Prop where
  sameMetadata : SameMetadata state state'
  flipped : ∀ i < region.size,
    region.bits state' i = flipAt (region.bits state) (bit - region.first) i
  others : ∀ region' ≠ region, region'.bits state' = region'.bits state

/-- **`flip_c1_state_bit` flips the bit in the region that holds it.** -/
theorem flipC1StateBit_of_holds (state : WorkingState) {region : StateRegion} {bit : ℕ}
    (h : region.Holds bit) :
    ∃ state', flipC1StateBit state bit = .ok state' ∧ Flipped region bit state state' := by
  have hlt := h.lt
  obtain ⟨hlo, hhi⟩ := h
  have hmask : ∀ k, u16 ((1 : U32) <<< k) = 1#16 <<< k := setWidth_one_shiftLeft (by omega)
  unfold flipC1StateBit requireThat
  rw [if_pos (by simpa using hlt)]
  rw [except_ok_bind]
  simp only [kCubeStateBits]
  cases region with
  | Cube =>
    simp only [StateRegion.first, StateRegion.size] at hlo hhi
    -- the cube is addressed by byte, the controller words by their first bit
    have hmask : u8 ((1 : U32) <<< (bit % 8)) = 1#8 <<< (bit % 8) :=
      setWidth_one_shiftLeft (by omega) (bit % 8)
    have hcell : bit / 8 < 512 := by omega
    have hbit : bit / 8 * 8 + bit % 8 = bit := by omega
    rw [if_pos (by omega), hmask, xorAt_faultCoord state.cube hcell, except_ok_bind]
    refine ⟨_, rfl, ⟨rfl, rfl, rfl⟩, fun i _ => ?_, fun region' hne => ?_⟩
    · have := congrFun (cubeBits_set state.cube hcell (Nat.mod_lt bit (by omega : 0 < 8))) i
      rw [hbit] at this
      exact this
    · cases region' <;> first | exact absurd rfl hne | rfl
  | AxisControl =>
    simp only [StateRegion.first, StateRegion.size] at hlo hhi
    rw [if_neg (by omega), if_pos (by omega), hmask]
    refine ⟨_, rfl, ⟨rfl, rfl, rfl⟩, fun i hi => ?_, fun region' hne => ?_⟩
    · exact getLsbD_xor_one_shiftLeft _ (by omega) hi
    · cases region' <;> first | exact absurd rfl hne | rfl
  | AmountControl =>
    simp only [StateRegion.first, StateRegion.size] at hlo hhi
    rw [if_neg (by omega), if_neg (by omega), if_pos (by omega), hmask, Nat.sub_sub]
    refine ⟨_, rfl, ⟨rfl, rfl, rfl⟩, fun i hi => ?_, fun region' hne => ?_⟩
    · exact getLsbD_xor_one_shiftLeft _ (by omega) hi
    · cases region' <;> first | exact absurd rfl hne | rfl
  | Feedback =>
    simp only [StateRegion.first, StateRegion.size] at hlo hhi
    rw [if_neg (by omega), if_neg (by omega), if_neg (by omega), if_pos (by omega), Nat.sub_sub,
      Nat.sub_sub]
    refine ⟨_, rfl, ⟨rfl, rfl, rfl⟩, fun i hi => ?_, fun region' hne => ?_⟩
    · exact getLsbD_xor_one_shiftLeft _ (by omega) hi
    · cases region' <;> first | exact absurd rfl hne | rfl
  | Transcript =>
    simp only [StateRegion.first, StateRegion.size] at hlo hhi
    rw [if_neg (by omega), if_neg (by omega), if_neg (by omega), if_neg (by omega), Nat.sub_sub,
      Nat.sub_sub, Nat.sub_sub, if_pos (by simp; omega), except_ok_bind]
    refine ⟨_, rfl, ⟨rfl, rfl, rfl⟩, fun i hi => ?_, fun region' hne => ?_⟩
    · exact getLsbD_xor_one_shiftLeft _ (by omega) hi
    · cases region' <;> first | exact absurd rfl hne | rfl
  | Count =>
    simp only [StateRegion.first, StateRegion.size] at hlo hhi
    omega

namespace Flipped

variable {region : StateRegion} {bit : ℕ} {state state' : WorkingState}

/-- The numbered bits of the new state. -/
theorem stateBits_eq (h : Flipped region bit state state') (hbit : region.Holds bit) {i : ℕ}
    (hi : i < kC1StateBits) : stateBits state' i = flipAt (stateBits state) bit i := by
  obtain ⟨region', hholds⟩ := StateRegion.exists_holds hi
  by_cases hregion : region' = region
  · subst hregion
    have hinside : i - region'.first < region'.size := by
      have := hholds.1
      have := hholds.2
      omega
    rw [stateBits_of_holds state' hholds, h.flipped _ hinside]
    by_cases heq : i = bit
    · subst heq
      rw [flipAt_self, flipAt_self, stateBits_of_holds state hholds]
    · have hne : i - region'.first ≠ bit - region'.first := by
        have := hholds.1
        have := hbit.1
        omega
      rw [flipAt_of_ne _ _ hne, flipAt_of_ne _ _ heq, stateBits_of_holds state hholds]
  · have hne : i ≠ bit := by
      rintro rfl
      exact hregion (hholds.unique hbit)
    rw [flipAt_of_ne _ _ hne, stateBits_of_holds state' hholds, stateBits_of_holds state hholds,
      h.others region' hregion]

/-- The distance is one in the region of the bit, and zero in the others. -/
theorem bitDistance_eq (h : Flipped region bit state state') (hbit : region.Holds bit)
    (region' : StateRegion) :
    region'.bitDistance state state' = if region' = region then 1 else 0 := by
  have hflip : ∀ i < region'.size,
      stateBits state' (region'.first + i) = flipAt (stateBits state) bit (region'.first + i) := by
    intro i hi
    have hholds : region'.Holds (region'.first + i) := ⟨Nat.le_add_right _ _, by omega⟩
    exact h.stateBits_eq hbit hholds.lt
  have hwindow : region'.first ≤ bit ∧ bit < region'.first + region'.size ↔ region' = region := by
    constructor
    · intro hholds
      exact StateRegion.Holds.unique hholds hbit
    · rintro rfl
      exact hbit
  rw [StateRegion.bitDistance_eq, distance_congr (fun _ _ => rfl) hflip, distance_flipAt]
  simp only [hwindow]

/-- The three counts of a flip. -/
theorem workingStateDistance_eq (h : Flipped region bit state state') (hbit : region.Holds bit) :
    workingStateDistance state state'
      = ⟨if region = .Cube then 1 else 0, if region = .Cube then 0 else 1, 0⟩ := by
  have hcube := h.bitDistance_eq hbit .Cube
  have haxis := h.bitDistance_eq hbit .AxisControl
  have hamount := h.bitDistance_eq hbit .AmountControl
  have hfeedback := h.bitDistance_eq hbit .Feedback
  have htranscript := h.bitDistance_eq hbit .Transcript
  have hmetadata := (metadataBits_eq_zero_iff state state').2 h.sameMetadata
  have hcount : region ≠ .Count := by
    rintro rfl
    obtain ⟨hlo, hhi⟩ := hbit
    simp only [StateRegion.first, StateRegion.size] at hlo hhi
    omega
  simp only [StateRegion.bitDistance] at hcube haxis hamount hfeedback htranscript
  have hcontroller : controllerBitDistance state.controller state'.controller
      = if region = .Cube then 0 else 1 := by
    simp only [controllerBitDistance, BitVec.setWidth_eq]
    rw [haxis, hamount, hfeedback, htranscript]
    cases region <;> first | rfl | exact absurd rfl hcount
  apply StateDistance.ext
  · unfold workingStateDistance
    rw [hcube]
    exact if_congr eq_comm rfl rfl
  · exact hcontroller
  · exact hmetadata

end Flipped

/-- Two states that differ in one bit of the cube or of the controller, and in nothing
else. -/
def DifferInOneBit (state state' : WorkingState) : Prop :=
  SameMetadata state state' ∧
    ∃! bit, bit < kC1StateBits ∧ stateBits state' bit ≠ stateBits state bit

/-- The distances tell which states differ in one bit. -/
theorem differInOneBit_iff (state state' : WorkingState) :
    DifferInOneBit state state' ↔
      (workingStateDistance state state').metadataBits = 0 ∧
        (workingStateDistance state state').cubeBits
          + (workingStateDistance state state').controllerBits = 1 := by
  rw [metadataBits_eq_zero_iff, workingStateDistance_bits]
  unfold DifferInOneBit
  apply and_congr_right
  intro _
  constructor
  · rintro ⟨bit, ⟨hlt, hne⟩, hunique⟩
    have hflip : ∀ i < kC1StateBits,
        stateBits state' (0 + i) = flipAt (stateBits state) bit (0 + i) := by
      intro i hi
      rw [Nat.zero_add]
      by_cases h : i = bit
      · subst h
        rw [flipAt_self]
        exact Bool.eq_not_of_ne hne
      · rw [flipAt_of_ne _ _ h]
        by_contra hdiffer
        exact h (hunique i ⟨hi, hdiffer⟩)
    rw [distance_congr (fun _ _ => rfl) hflip, distance_flipAt, if_pos ⟨Nat.zero_le _, by omega⟩]
  · intro h
    obtain ⟨bit, -, hbit, hagree⟩ := exists_flipAt_of_distance_eq_one h
    have hlt : bit < kC1StateBits := by omega
    have hiff : ∀ i < kC1StateBits, stateBits state' i ≠ stateBits state i ↔ i = bit := by
      intro i hi
      have := hagree i hi
      rw [Nat.zero_add] at this
      rw [this, flipAt_ne_iff]
    exact ⟨bit, ⟨hlt, (hiff bit hlt).2 rfl⟩, fun i ⟨hi, hne⟩ => (hiff i hi).1 hne⟩

/-- A flip is the one state whose numbered bits are flipped and whose metadata are kept. -/
theorem flipC1StateBit_eq {state state' : WorkingState} {bit : ℕ} (hbit : bit < kC1StateBits)
    (hmeta : SameMetadata state state')
    (hbits : ∀ i < kC1StateBits, stateBits state' i = flipAt (stateBits state) bit i) :
    flipC1StateBit state bit = .ok state' := by
  obtain ⟨region, hholds⟩ := StateRegion.exists_holds hbit
  obtain ⟨flipped, hrun, hflipped⟩ := flipC1StateBit_of_holds state hholds
  have hsame : SameMetadata flipped state' :=
    ⟨hflipped.sameMetadata.cursor.symm.trans hmeta.cursor,
      hflipped.sameMetadata.previousAxis.symm.trans hmeta.previousAxis,
      hflipped.sameMetadata.symbolIndex.symm.trans hmeta.symbolIndex⟩
  have heq : flipped = state' := by
    apply eq_of_stateBits hsame
    intro i hi
    rw [hflipped.stateBits_eq hholds hi, hbits i hi]
  rw [hrun, heq]

/-- **The states reached by one flip are those that differ in one bit.** -/
theorem differInOneBit_iff_flip (state state' : WorkingState) :
    DifferInOneBit state state' ↔
      ∃ bit < kC1StateBits, flipC1StateBit state bit = .ok state' := by
  constructor
  · rintro ⟨hmeta, bit, ⟨hlt, hne⟩, hunique⟩
    refine ⟨bit, hlt, flipC1StateBit_eq hlt hmeta fun i hi => ?_⟩
    by_cases h : i = bit
    · subst h
      rw [flipAt_self]
      exact Bool.eq_not_of_ne hne
    · rw [flipAt_of_ne _ _ h]
      by_contra hdiffer
      exact h (hunique i ⟨hi, hdiffer⟩)
  · rintro ⟨bit, hlt, hrun⟩
    obtain ⟨region, hholds⟩ := StateRegion.exists_holds hlt
    obtain ⟨flipped, hrun', hflipped⟩ := flipC1StateBit_of_holds state hholds
    obtain rfl : flipped = state' := Except.ok.inj (hrun'.symm.trans hrun)
    have hiff : ∀ i < kC1StateBits, stateBits flipped i ≠ stateBits state i ↔ i = bit := by
      intro i hi
      rw [hflipped.stateBits_eq hholds hi, flipAt_ne_iff]
    exact ⟨hflipped.sameMetadata, bit, ⟨hlt, (hiff bit hlt).2 rfl⟩,
      fun i ⟨hi, hne⟩ => (hiff i hi).1 hne⟩

/-- The total distance separates states. -/
theorem total_eq_zero_iff (left right : WorkingState) :
    (workingStateDistance left right).total = 0 ↔ left = right := by
  unfold StateDistance.total
  rw [Nat.add_eq_zero_iff, workingStateDistance_bits, metadataBits_eq_zero_iff,
    distance_eq_zero_iff]
  constructor
  · rintro ⟨hbits, hmeta⟩
    apply eq_of_stateBits hmeta
    intro bit hbit
    simpa using hbits bit hbit
  · rintro rfl
    exact ⟨fun _ _ => rfl, rfl, rfl, rfl⟩

/-! ## The enumeration -/

/-- A flip is undone by the same flip: every numbered bit is back. -/
theorem Flipped.flip_back {region : StateRegion} {bit : ℕ} {state state' : WorkingState}
    (h : Flipped region bit state state') (hbit : region.Holds bit) :
    flipC1StateBit state' bit = .ok state := by
  have hmeta := h.sameMetadata
  apply flipC1StateBit_eq hbit.lt ⟨hmeta.cursor.symm, hmeta.previousAxis.symm,
    hmeta.symbolIndex.symm⟩
  intro i hi
  by_cases heq : i = bit
  · subst heq
    rw [flipAt_self, h.stateBits_eq hbit hi, flipAt_self, Bool.not_not]
  · rw [flipAt_of_ne _ _ heq, h.stateBits_eq hbit hi, flipAt_of_ne _ _ heq]

/-- Different flips of a state lead to different states. -/
theorem flipC1StateBit_ne (state : WorkingState) {bit bit' : ℕ} (hbit : bit < kC1StateBits)
    (hbit' : bit' < kC1StateBits) (hne : bit ≠ bit') :
    flipC1StateBit state bit ≠ flipC1StateBit state bit' := by
  intro heq
  obtain ⟨region, hholds⟩ := StateRegion.exists_holds hbit
  obtain ⟨region', hholds'⟩ := StateRegion.exists_holds hbit'
  obtain ⟨flipped, hrun, hflipped⟩ := flipC1StateBit_of_holds state hholds
  obtain ⟨flipped', hrun', hflipped'⟩ := flipC1StateBit_of_holds state hholds'
  have hsame : flipped = flipped' := Except.ok.inj (hrun.symm.trans (heq.trans hrun'))
  -- equal results would agree at `bit`, which only one of the flips inverts
  have hat : stateBits flipped bit = !stateBits state bit := by
    rw [hflipped.stateBits_eq hholds hbit, flipAt_self]
  rw [hsame, hflipped'.stateBits_eq hholds' hbit, flipAt_of_ne _ _ hne] at hat
  cases hb : stateBits state bit <;> simp [hb] at hat

/-- **The single faults of a state are enumerated exactly**: every numbered bit is flipped
alone, in the region that is named for it, and reversibly; different bits give different
states, every state that differs in one bit is reached, and the total distance is zero for
equal states only. -/
theorem single_faults_exact :
    (∀ (state : WorkingState) (bit : ℕ), bit < kC1StateBits → ∃ state' region,
      flipC1StateBit state bit = .ok state' ∧ stateRegion bit = .ok region ∧
      (∀ i < kC1StateBits, stateBits state' i ≠ stateBits state i ↔ i = bit) ∧
      (∀ region' : StateRegion,
        region'.bitDistance state state' = if region' = region then 1 else 0) ∧
      workingStateDistance state state'
        = ⟨if region = .Cube then 1 else 0, if region = .Cube then 0 else 1, 0⟩ ∧
      (workingStateDistance state state').total = 1 ∧ SameMetadata state state' ∧
      flipC1StateBit state' bit = .ok state) ∧
    (∀ (state : WorkingState) (bit bit' : ℕ), bit < kC1StateBits → bit' < kC1StateBits →
      bit ≠ bit' → flipC1StateBit state bit ≠ flipC1StateBit state bit') ∧
    (∀ state state' : WorkingState,
      (DifferInOneBit state state' ↔
        (workingStateDistance state state').metadataBits = 0 ∧
          (workingStateDistance state state').cubeBits
            + (workingStateDistance state state').controllerBits = 1) ∧
      (DifferInOneBit state state' ↔
        ∃ bit < kC1StateBits, flipC1StateBit state bit = .ok state')) ∧
    ∀ left right : WorkingState, (workingStateDistance left right).total = 0 ↔ left = right := by
  refine ⟨?_, ?_, fun state state' =>
    ⟨differInOneBit_iff state state', differInOneBit_iff_flip state state'⟩, total_eq_zero_iff⟩
  · intro state bit hbit
    obtain ⟨region, hholds⟩ := StateRegion.exists_holds hbit
    obtain ⟨state', hrun, hflipped⟩ := flipC1StateBit_of_holds state hholds
    have hdistance := hflipped.workingStateDistance_eq hholds
    have hmeta := hflipped.sameMetadata
    refine ⟨state', region, hrun, stateRegion_of_holds hholds, ?_,
      hflipped.bitDistance_eq hholds, hdistance, ?_, hmeta, ?_⟩
    · intro i hi
      rw [hflipped.stateBits_eq hholds hi, flipAt_ne_iff]
    · rw [hdistance]
      unfold StateDistance.total
      by_cases h : region = .Cube
      · simp [h]
      · simp [h]
    · exact hflipped.flip_back hholds
  · exact fun state bit bit' => flipC1StateBit_ne state
