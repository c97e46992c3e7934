/-
# Bounded containers

The vectors and spans of `cbmc_std.hpp`, which stand for the standard ones where the library is
model checked.  A vector is a size and a capacity over an array of fixed length; every write, read
and reservation is asserted.  What a writer appends is a list, and writers compose: a sequence of
them fails exactly where the reserved room is smaller than what it writes.
-/
import RotSymEnc.Words
import RotSymEnc.StatefulRuns

open StatefulRuns

/-! ## Checked runs -/

/-- A checked run ends without a value by an assertion, or as the code under check ends. -/
inductive Failure : Type where
  | assertion (description : String)
  | fault (fault : Fault)
  deriving DecidableEq

/-- `__CPROVER_assert`. -/
def cproverAssert (condition : Prop) [Decidable condition] (description : String) :
    Except Failure PUnit :=
  if condition then .ok () else .error (.assertion description)

theorem cproverAssert_of {condition : Prop} [Decidable condition] (h : condition)
    (description : String) : cproverAssert condition description = .ok () :=
  if_pos h

/-! ## Vectors -/

/-- `std::vector<T>`, with `PVC_CBMC_VECTOR_CAPACITY` the limit. -/
structure BoundedVector (T : Type) (limit : ℕ) : Type where
  elements : List T
  capacity : ℕ
  size_le : elements.length ≤ capacity
  capacity_le : capacity ≤ limit

namespace BoundedVector

variable {T : Type} {limit : ℕ}

/-- The vector of no size and no capacity. -/
def empty : BoundedVector T limit := ⟨[], 0, Nat.le_refl 0, Nat.zero_le limit⟩

theorem size_append {v : BoundedVector T limit} {written : List T}
    (h : v.elements.length + written.length ≤ v.capacity) :
    (v.elements ++ written).length ≤ v.capacity := by
  rw [List.length_append]
  exact h

/-- The vector with more elements, inside its capacity. -/
def append (v : BoundedVector T limit) (written : List T)
    (h : v.elements.length + written.length ≤ v.capacity) : BoundedVector T limit :=
  ⟨v.elements ++ written, v.capacity, size_append h, v.capacity_le⟩

theorem size_range (contents : ℕ → T) (count : ℕ) :
    ((List.range count).map contents).length ≤ count := by
  rw [List.length_map, List.length_range]

/-- `vector(size)`.  The elements are those that the memory happens to hold. -/
def ofSize (contents : ℕ → T) (count : U64) : Except Failure (BoundedVector T limit) :=
  if h : count.toNat ≤ limit then
    .ok ⟨(List.range count.toNat).map contents, count.toNat, size_range contents count.toNat, h⟩
  else .error (.assertion "bounded vector construction fits the model")

/-- `reserve`. -/
def reserve (v : BoundedVector T limit) (requested : U64) :
    Except Failure (BoundedVector T limit) :=
  if h : requested.toNat ≤ limit then
    .ok ⟨v.elements, max requested.toNat v.capacity, le_max_of_le_right v.size_le,
      max_le h v.capacity_le⟩
  else .error (.assertion "bounded reserve fits the model")

/-- `push_back`. -/
def pushBack (value : T) (v : BoundedVector T limit) : Except Failure (BoundedVector T limit) :=
  if h : v.elements.length < v.capacity then .ok (v.append [value] h)
  else .error (.assertion "frame write stays inside reserved capacity")

/-- `size()`. -/
def count (v : BoundedVector T limit) : U64 := BitVec.ofNat 64 v.elements.length

/-- `operator[]`, read. -/
def get (v : BoundedVector T limit) (index : ℕ) : Except Failure T :=
  match v.elements[index]? with
  | some value => .ok value
  | none => .error (.assertion "std::vector index is in bounds")

theorem size_set (v : BoundedVector T limit) (index : ℕ) (value : T) :
    (v.elements.set index value).length ≤ v.capacity := by
  rw [List.length_set]
  exact v.size_le

/-- `operator[]`, written. -/
def set (v : BoundedVector T limit) (index : ℕ) (value : T) :
    Except Failure (BoundedVector T limit) :=
  if index < v.elements.length then
    .ok ⟨v.elements.set index value, v.capacity, size_set v index value, v.capacity_le⟩
  else .error (.assertion "std::vector index is in bounds")

end BoundedVector

/-! ## Spans -/

/-- `std::span<const T>`: a pointer to an array, and a size which need not be the array's. -/
structure BoundedSpan (T : Type) : Type where
  data : List T
  size : U64

namespace BoundedSpan

variable {T : Type} {limit : ℕ}

/-- A whole array, or a vector. -/
def ofList (data : List T) : BoundedSpan T := ⟨data, BitVec.ofNat 64 data.length⟩

/-- What a pointer into the array reads. -/
def deref (span : BoundedSpan T) (index : ℕ) : Except Failure T :=
  match span.data[index]? with
  | some value => .ok value
  | none => .error (.fault .badAccess)

/-- `operator[]`. -/
def get (span : BoundedSpan T) (index : ℕ) : Except Failure T :=
  if index < span.size.toNat then span.deref index
  else .error (.assertion "std::span index is in bounds")

/-- The elements that the span shows. -/
def shown (span : BoundedSpan T) : List T := span.data.take span.size.toNat

/-- The array is as long as the span says. -/
def Backed (span : BoundedSpan T) : Prop := span.size.toNat ≤ span.data.length

end BoundedSpan

/-- `vector::insert` of the elements that a span shows. -/
def BoundedVector.insert {T : Type} {limit : ℕ} (position : BoundedVector T limit → ℕ)
    (source : BoundedSpan T) (v : BoundedVector T limit) :
    Except Failure (BoundedVector T limit) := do
  cproverAssert (position v = v.elements.length) "A1 only appends to its frames"
  (List.range source.size.toNat).foldlM (fun v i => do v.pushBack (← source.deref i)) v

/-! ## Writers -/

section Writers

variable {T : Type} {limit : ℕ}

/-- The writer appends these elements, or runs out of the room that was reserved. -/
structure Writes (f : BoundedVector T limit → Except Failure (BoundedVector T limit))
    (written : List T) : Prop where
  fits : ∀ v (h : v.elements.length + written.length ≤ v.capacity), f v = .ok (v.append written h)
  full : ∀ v, v.capacity < v.elements.length + written.length →
    f v = .error (.assertion "frame write stays inside reserved capacity")

theorem BoundedVector.append_nil (v : BoundedVector T limit) : v.append [] v.size_le = v := by
  unfold BoundedVector.append
  simp only [List.append_nil]

theorem BoundedVector.append_append {v : BoundedVector T limit} {a b : List T}
    (h : v.elements.length + (a ++ b).length ≤ v.capacity)
    (ha : v.elements.length + a.length ≤ v.capacity)
    (hb : (v.append a ha).elements.length + b.length ≤ (v.append a ha).capacity) :
    (v.append a ha).append b hb = v.append (a ++ b) h := by
  unfold BoundedVector.append
  simp only [List.append_assoc]

theorem writes_nil : Writes (fun v : BoundedVector T limit => .ok v) [] := by
  constructor
  · intro v h
    show Except.ok v = .ok (v.append [] h)
    rw [BoundedVector.append_nil]
  · intro v h
    exact absurd v.size_le (not_le.mpr h)

theorem writes_pushBack (value : T) :
    Writes (@BoundedVector.pushBack T limit value) [value] := by
  constructor
  · intro v h
    exact dif_pos h
  · intro v h
    exact dif_neg (by simpa using h)

/-- **Writers compose.**  The first write past the room ends the run. -/
theorem Writes.bind {f g : BoundedVector T limit → Except Failure (BoundedVector T limit)}
    {a b : List T} (hf : Writes f a) (hg : Writes g b) :
    Writes (fun v => f v >>= g) (a ++ b) := by
  constructor
  · intro v h
    have hab : v.elements.length + (a.length + b.length) ≤ v.capacity := by
      rw [← List.length_append]
      exact h
    have ha : v.elements.length + a.length ≤ v.capacity := by omega
    have hb : (v.append a ha).elements.length + b.length ≤ (v.append a ha).capacity := by
      show (v.elements ++ a).length + b.length ≤ v.capacity
      rw [List.length_append]
      omega
    show (f v >>= g) = _
    rw [hf.fits v ha, except_ok_bind, hg.fits _ hb, BoundedVector.append_append h]
  · intro v h
    rw [List.length_append] at h
    show (f v >>= g) = _
    by_cases ha : v.elements.length + a.length ≤ v.capacity
    · rw [hf.fits v ha, except_ok_bind]
      apply hg.full
      show v.capacity < (v.elements ++ a).length + b.length
      rw [List.length_append]
      omega
    · rw [hf.full v (not_le.mp ha)]
      rfl

/-- A loop of pushes appends what it reads. -/
theorem writes_pushes {element : ℕ → Except Failure T} {source : List T} : ∀ n ≤ source.length,
    (∀ i (h : i < source.length), element i = .ok source[i]) →
    Writes
      (fun v : BoundedVector T limit =>
        (List.range n).foldlM (fun v i => do v.pushBack (← element i)) v)
      (source.take n) := by
  intro n
  induction n with
  | zero => exact fun _ _ => writes_nil
  | succ n ih =>
    intro hn helement
    have hstep := (ih (by omega) helement).bind (@writes_pushBack T limit source[n])
    rw [List.take_append_getElem (by omega)] at hstep
    refine cast (congrArg (Writes · _) ?_) hstep
    funext v
    rw [List.range_succ, List.foldlM_append]
    congr 1
    funext w
    show _ = List.foldlM _ w [n]
    rw [List.foldlM_cons, helement n (by omega), except_ok_bind]
    simp only [List.foldlM_nil, bind_pure]

/-- **An insertion at the end** appends what the span shows. -/
theorem writes_insert {source : BoundedSpan T} (h : source.Backed) :
    Writes (@BoundedVector.insert T limit (fun v => v.elements.length) source)
      source.shown := by
  have hread : ∀ i (hi : i < source.data.length), source.deref i = .ok source.data[i] := by
    intro i hi
    unfold BoundedSpan.deref
    rw [List.getElem?_eq_getElem hi]
  have hend : @BoundedVector.insert T limit (fun v => v.elements.length) source
      = fun v => (List.range source.size.toNat).foldlM
          (fun v i => do v.pushBack (← source.deref i)) v := by
    funext v
    unfold BoundedVector.insert
    rw [cproverAssert_of rfl, except_ok_bind]
  rw [hend]
  exact writes_pushes source.size.toNat h hread

/-- What a writer leaves in a vector of its own reservation, if there is room for that. -/
theorem Writes.reserved {f : BoundedVector T limit → Except Failure (BoundedVector T limit)}
    {written : List T} (hf : Writes f written) {requested : U64}
    (h : requested.toNat = written.length) (hlimit : written.length ≤ limit) :
    ∃ v, (BoundedVector.empty.reserve requested >>= f) = .ok v ∧ v.elements = written ∧
      v.capacity = written.length := by
  have hreserve : requested.toNat ≤ limit := by omega
  unfold BoundedVector.reserve
  rw [dif_pos hreserve, except_ok_bind]
  have hfits : ([] : List T).length + written.length ≤ max requested.toNat 0 := by
    rw [List.length_nil]
    omega
  refine ⟨_, hf.fits _ hfits, List.nil_append written, ?_⟩
  show max requested.toNat 0 = written.length
  omega

end Writers
