/-
# Names behind paths

A path is resolved in two steps.  What stands up to its last slash leads to a directory,
through links, dots and repeated slashes; what stands behind it is a name in that
directory.  Two paths that are spelled differently may lead to one name, and what is
appended to a path is appended to the name.

How directories are found is left to the system: here it is a function from the front of
a path to a directory, which creating, writing and renaming files do not change.
-/
import Mathlib.Data.List.DropRight

namespace PathNames

/-- The byte between the components of a path. -/
abbrev slash : BitVec 8 := 0x2F

/-- The name of a file: not empty, neither `.` nor `..`, without slashes and zero bytes. -/
def IsFileName (name : List (BitVec 8)) : Prop :=
  name ≠ [] ∧ name ≠ [0x2E] ∧ name ≠ [0x2E, 0x2E] ∧ slash ∉ name ∧ 0 ∉ name

instance (name : List (BitVec 8)) : Decidable (IsFileName name) :=
  inferInstanceAs (Decidable (_ ∧ _ ∧ _ ∧ _ ∧ _))

/-- What may stand behind a name. -/
def IsSuffix (suffix : List (BitVec 8)) : Prop := slash ∉ suffix ∧ 0 ∉ suffix

instance (suffix : List (BitVec 8)) : Decidable (IsSuffix suffix) :=
  inferInstanceAs (Decidable (_ ∧ _))

/-- A resolved path: a directory and the name of a file in it. -/
@[ext]
structure ResolvedPath : Type where
  directory : ℕ
  name : List (BitVec 8)
  isFileName : IsFileName name
  deriving DecidableEq

theorem IsFileName.append {name suffix : List (BitVec 8)} (h : IsFileName name)
    (hsuffix : IsSuffix suffix) : IsFileName (name ++ suffix) := by
  obtain ⟨hnil, hdot, hdots, hslash, hzero⟩ := h
  obtain ⟨first, rest, rfl⟩ := List.exists_cons_of_ne_nil hnil
  refine ⟨by simp, ?_, ?_, ?_, ?_⟩
  · intro heq
    rw [List.cons_append, List.cons.injEq] at heq
    obtain ⟨rfl, hrest⟩ := heq
    obtain ⟨rfl, -⟩ := List.append_eq_nil_iff.mp hrest
    exact hdot rfl
  · intro heq
    rw [List.cons_append, List.cons.injEq] at heq
    obtain ⟨rfl, hrest⟩ := heq
    -- one dot of the two would already be the name
    cases rest with
    | nil => exact hdot rfl
    | cons second rest =>
      rw [List.cons_append, List.cons.injEq] at hrest
      obtain ⟨rfl, hrest⟩ := hrest
      obtain ⟨rfl, -⟩ := List.append_eq_nil_iff.mp hrest
      exact hdots rfl
  · rw [List.mem_append]
    exact not_or.mpr ⟨hslash, hsuffix.1⟩
  · rw [List.mem_append]
    exact not_or.mpr ⟨hzero, hsuffix.2⟩

/-- The path whose name has a suffix. -/
def ResolvedPath.append (path : ResolvedPath) (suffix : List (BitVec 8)) (h : IsSuffix suffix) :
    ResolvedPath :=
  ⟨path.directory, path.name ++ suffix, path.isFileName.append h⟩

/-- Suffixes of different lengths make different names. -/
theorem ResolvedPath.append_ne_append (path : ResolvedPath) {suffix suffix' : List (BitVec 8)}
    (h : IsSuffix suffix) (h' : IsSuffix suffix') (hlength : suffix.length ≠ suffix'.length) :
    path.append suffix h ≠ path.append suffix' h' := by
  intro heq
  have hname := congrArg (fun p => p.name.length) heq
  simp only [append, List.length_append] at hname
  omega

theorem ResolvedPath.append_ne (path : ResolvedPath) {suffix : List (BitVec 8)}
    (h : IsSuffix suffix) (hlength : 0 < suffix.length) : path.append suffix h ≠ path := by
  intro heq
  have hname := congrArg (fun p => p.name.length) heq
  simp only [append, List.length_append] at hname
  omega

/-! ## Resolution -/

/-- The front of a path, with the last slash. -/
def front (path : List (BitVec 8)) : List (BitVec 8) := path.rdropWhile (· ≠ slash)

/-- What stands behind the last slash. -/
def baseName (path : List (BitVec 8)) : List (BitVec 8) := path.rtakeWhile (· ≠ slash)

/-- A path that names a file, where the system finds the directory: the kernel reads no path with a
zero byte in it. -/
def resolve (directoryOf : List (BitVec 8) → Option ℕ) (path : List (BitVec 8)) :
    Option ResolvedPath :=
  if h : 0 ∉ path ∧ IsFileName (baseName path) then
    (directoryOf (front path)).map fun directory => ⟨directory, baseName path, h.2⟩
  else none

section Suffixes

variable {suffix : List (BitVec 8)} (h : IsSuffix suffix) (path : List (BitVec 8))

include h

theorem forall_ne_slash : ∀ c ∈ suffix.reverse, decide (c ≠ slash) = true := by
  intro c hc
  rw [decide_eq_true_iff]
  rintro rfl
  exact h.1 (List.mem_reverse.mp hc)

theorem front_append : front (path ++ suffix) = front path := by
  unfold front List.rdropWhile
  rw [List.reverse_append, List.dropWhile_append_of_pos (forall_ne_slash h)]

theorem baseName_append : baseName (path ++ suffix) = baseName path ++ suffix := by
  unfold baseName List.rtakeWhile
  rw [List.reverse_append, List.takeWhile_append_of_pos (forall_ne_slash h), List.reverse_append,
    List.reverse_reverse]

/-- **What is appended to a path** is appended to the name, in the same directory. -/
theorem resolve_append {directoryOf : List (BitVec 8) → Option ℕ} {path : List (BitVec 8)}
    {file : ResolvedPath} (hpath : resolve directoryOf path = some file) :
    resolve directoryOf (path ++ suffix) = some (file.append suffix h) := by
  unfold resolve at hpath
  split_ifs at hpath with hname
  obtain ⟨directory, hdirectory, rfl⟩ := Option.map_eq_some_iff.mp hpath
  have hvalid : 0 ∉ path ++ suffix ∧ IsFileName (baseName (path ++ suffix)) := by
    rw [List.mem_append, baseName_append h]
    exact ⟨not_or.mpr ⟨hname.1, h.2⟩, hname.2.append h⟩
  unfold resolve
  rw [dif_pos hvalid, front_append h, hdirectory, Option.map_some]
  congr 1
  exact ResolvedPath.ext rfl (baseName_append h path)

end Suffixes

end PathNames
