/-
# Files behind names

A POSIX file system as far as a program sees it that opens, truncates, writes and
renames files: a directory from names to inodes, and the content of every inode.
A name is a resolved one: two names are two entries of the file system, and no two
of them are hard links to one inode.

An open file is its inode.  It stays the same file when its name is renamed, and
whoever has opened a name before keeps the file it had then.
-/
import Mathlib

namespace PosixFiles

/-- The entries and the contents.  The inodes from `fresh` on are unused. -/
@[ext]
structure Files (Name Byte : Type) : Type where
  entry : Name → Option ℕ
  content : ℕ → List Byte
  fresh : ℕ
  entry_lt : ∀ name inode, entry name = some inode → inode < fresh
  entry_inj : ∀ name name' inode, entry name = some inode → entry name' = some inode → name = name'

namespace Files

variable {Name Byte : Type}

/-- The file system without a file. -/
def empty : Files Name Byte where
  entry := fun _ => none
  content := fun _ => []
  fresh := 0
  entry_lt := fun _ _ h => absurd h (by simp)
  entry_inj := fun _ _ _ h => absurd h (by simp)

/-- The bytes behind a name. -/
def read (files : Files Name Byte) (name : Name) : Option (List Byte) :=
  (files.entry name).map files.content

/-- The same entries with another content of one inode. -/
def store (files : Files Name Byte) (inode : ℕ) (bytes : List Byte) : Files Name Byte :=
  { files with content := Function.update files.content inode bytes }

/-- `write` at an offset inside the file or at its end. -/
def writeAt (files : Files Name Byte) (inode offset : ℕ) (bytes : List Byte) : Files Name Byte :=
  files.store inode ((files.content inode).take offset ++ bytes
    ++ (files.content inode).drop (offset + bytes.length))

variable [DecidableEq Name]

/-- The entries with a new empty file behind a name without one. -/
def insert (files : Files Name Byte) (name : Name) : Files Name Byte where
  entry := Function.update files.entry name (some files.fresh)
  content := Function.update files.content files.fresh []
  fresh := files.fresh + 1
  entry_lt := by
    intro other inode h
    rcases eq_or_ne other name with rfl | hne
    · rw [Function.update_self] at h
      exact Option.some.inj h ▸ Nat.lt_succ_self _
    · rw [Function.update_of_ne hne] at h
      exact (files.entry_lt other inode h).trans (Nat.lt_succ_self _)
  entry_inj := by
    intro other other' inode h h'
    rcases eq_or_ne other name with rfl | hne <;> rcases eq_or_ne other' other with rfl | hne'
    · rfl
    · rw [Function.update_self] at h
      rw [Function.update_of_ne hne'] at h'
      exact absurd (files.entry_lt other' inode h') (by have := Option.some.inj h; omega)
    · rfl
    · rw [Function.update_of_ne hne] at h
      rcases eq_or_ne other' name with rfl | hne''
      · rw [Function.update_self] at h'
        exact absurd (files.entry_lt other inode h) (by have := Option.some.inj h'; omega)
      · rw [Function.update_of_ne hne''] at h'
        exact files.entry_inj other other' inode h h'

/-- `open` with `O_CREAT`: the inode behind the name, a new one where there is none. -/
def openCreate (files : Files Name Byte) (name : Name) : ℕ × Files Name Byte :=
  match files.entry name with
  | some inode => (inode, files)
  | none => (files.fresh, files.insert name)

/-- `open` with `O_CREAT | O_TRUNC`. -/
def openTruncate (files : Files Name Byte) (name : Name) : ℕ × Files Name Byte :=
  ((files.openCreate name).1, (files.openCreate name).2.store (files.openCreate name).1 [])

/-- The entries with the file behind `old` moved to `new`. -/
def move (files : Files Name Byte) (old new : Name) (inode : ℕ)
    (hinode : files.entry old = some inode) : Files Name Byte where
  entry := Function.update (Function.update files.entry old none) new (some inode)
  content := files.content
  fresh := files.fresh
  entry_lt := by
    intro name inode' h
    rcases eq_or_ne name new with rfl | hnew
    · rw [Function.update_self] at h
      exact Option.some.inj h ▸ files.entry_lt old inode hinode
    · rw [Function.update_of_ne hnew] at h
      rcases eq_or_ne name old with rfl | hold
      · rw [Function.update_self] at h
        exact absurd h (by simp)
      · rw [Function.update_of_ne hold] at h
        exact files.entry_lt name inode' h
  entry_inj := by
    -- a name that keeps its entry is not `old`, the only one with the moved inode
    have hkeep : ∀ name inode', name ≠ new →
        Function.update (Function.update files.entry old none) new (some inode) name
          = some inode' → name ≠ old ∧ files.entry name = some inode' := by
      intro name inode' hnew h
      rw [Function.update_of_ne hnew] at h
      rcases eq_or_ne name old with rfl | hold
      · rw [Function.update_self] at h
        exact absurd h (by simp)
      · rw [Function.update_of_ne hold] at h
        exact ⟨hold, h⟩
    intro name name' inode' h h'
    by_cases hnew : name = new <;> by_cases hnew' : name' = new
    · exact hnew.trans hnew'.symm
    · subst hnew
      rw [Function.update_self] at h
      obtain ⟨hold, hentry⟩ := hkeep name' inode' hnew' h'
      exact absurd (files.entry_inj name' old inode' hentry (Option.some.inj h ▸ hinode)) hold
    · subst hnew'
      rw [Function.update_self] at h'
      obtain ⟨hold, hentry⟩ := hkeep name inode' hnew h
      exact absurd (files.entry_inj name old inode' hentry (Option.some.inj h' ▸ hinode)) hold
    · exact files.entry_inj name name' inode' (hkeep name inode' hnew h).2
        (hkeep name' inode' hnew' h').2

/-- `rename`: the file behind `old` is put behind `new`; there is none behind `old` then. -/
def rename (files : Files Name Byte) (old new : Name) : Option (Files Name Byte) :=
  match h : files.entry old with
  | none => none
  | some inode => some (files.move old new inode h)

end Files

/-! ## What is behind the names -/

section Behind

variable {Name Byte : Type} (files : Files Name Byte) {name name' : Name} {inode : ℕ}

theorem read_eq_none_iff : files.read name = none ↔ files.entry name = none :=
  Option.map_eq_none_iff

theorem read_of_entry (h : files.entry name = some inode) :
    files.read name = some (files.content inode) := by
  unfold Files.read
  rw [h, Option.map_some]

@[simp] theorem entry_store (bytes : List Byte) :
    (files.store inode bytes).entry = files.entry := rfl

@[simp] theorem content_store_self (bytes : List Byte) :
    (files.store inode bytes).content inode = bytes :=
  Function.update_self _ _ _

theorem read_store_self (h : files.entry name = some inode) (bytes : List Byte) :
    (files.store inode bytes).read name = some bytes :=
  (read_of_entry (files.store inode bytes) h).trans
    (congrArg some (content_store_self files bytes))

/-- Writing to a file changes what is behind its name only. -/
theorem read_store_of_ne (h : files.entry name = some inode) (hne : name' ≠ name)
    (bytes : List Byte) : (files.store inode bytes).read name' = files.read name' := by
  unfold Files.read
  rw [entry_store]
  cases hentry : files.entry name' with
  | none => rfl
  | some inode' =>
    have hinode : inode' ≠ inode := by
      rintro rfl
      exact hne (files.entry_inj name' name inode' hentry h)
    rw [Option.map_some, Option.map_some]
    exact congrArg some (Function.update_of_ne hinode _ _)

variable [DecidableEq Name]

/-- A file that is there is opened as it is. -/
theorem openCreate_of_entry (h : files.entry name = some inode) :
    files.openCreate name = (inode, files) := by
  unfold Files.openCreate
  rw [h]

theorem openCreate_of_none (h : files.entry name = none) :
    files.openCreate name = (files.fresh, files.insert name) := by
  unfold Files.openCreate
  rw [h]

theorem entry_openCreate_self :
    (files.openCreate name).2.entry name = some (files.openCreate name).1 := by
  cases h : files.entry name with
  | none =>
    rw [openCreate_of_none files h]
    exact Function.update_self _ _ _
  | some inode =>
    rw [openCreate_of_entry files h]
    exact h

theorem entry_openCreate_of_ne (hne : name' ≠ name) :
    (files.openCreate name).2.entry name' = files.entry name' := by
  cases h : files.entry name with
  | none =>
    rw [openCreate_of_none files h]
    exact Function.update_of_ne hne _ _
  | some inode => rw [openCreate_of_entry files h]

/-- Opening a file changes nothing behind other names. -/
theorem read_openCreate_of_ne (hne : name' ≠ name) :
    (files.openCreate name).2.read name' = files.read name' := by
  cases h : files.entry name with
  | none =>
    rw [openCreate_of_none files h]
    unfold Files.read
    have hentry : (files.insert name).entry name' = files.entry name' :=
      Function.update_of_ne hne _ _
    rw [hentry]
    cases hother : files.entry name' with
    | none => rfl
    | some inode =>
      have hlt := files.entry_lt name' inode hother
      rw [Option.map_some, Option.map_some]
      exact congrArg some (Function.update_of_ne (Nat.ne_of_lt hlt) _ _)
  | some inode => rw [openCreate_of_entry files h]

/-- An opened file is as it was, or empty where there was none. -/
theorem read_openCreate_self :
    (files.openCreate name).2.read name = some ((files.read name).getD []) := by
  cases h : files.entry name with
  | none =>
    rw [openCreate_of_none files h, (read_eq_none_iff files).mpr h]
    refine (read_of_entry _ (Function.update_self _ _ _)).trans ?_
    exact congrArg some (Function.update_self _ _ _)
  | some inode =>
    rw [openCreate_of_entry files h, read_of_entry files h]
    rfl

theorem entry_openTruncate_self :
    (files.openTruncate name).2.entry name = some (files.openTruncate name).1 :=
  entry_openCreate_self files

theorem entry_openTruncate_of_ne (hne : name' ≠ name) :
    (files.openTruncate name).2.entry name' = files.entry name' :=
  entry_openCreate_of_ne files hne

theorem read_openTruncate_of_ne (hne : name' ≠ name) :
    (files.openTruncate name).2.read name' = files.read name' :=
  (read_store_of_ne _ (entry_openCreate_self files) hne []).trans
    (read_openCreate_of_ne files hne)

@[simp] theorem content_openTruncate :
    (files.openTruncate name).2.content (files.openTruncate name).1 = [] :=
  content_store_self _ _

/-! ## Renaming -/

variable {files' : Files Name Byte} {old new : Name}

theorem rename_of_none (h : files.entry old = none) : files.rename old new = none := by
  unfold Files.rename
  split
  · rfl
  next inode hinode => exact absurd (h.symm.trans hinode) (by simp)

theorem rename_of_entry (h : files.entry old = some inode) :
    files.rename old new = some (files.move old new inode h) := by
  unfold Files.rename
  split
  next hnone => exact absurd (hnone.symm.trans h) (by simp)
  next inode' hinode =>
    obtain rfl : inode' = inode := Option.some.inj (hinode.symm.trans h)
    rfl

/-- A renamed file is behind its new name. -/
theorem entry_rename_new (h : files.rename old new = some files') :
    files'.entry new = files.entry old := by
  cases hentry : files.entry old with
  | none => exact absurd ((rename_of_none files hentry).symm.trans h) (by simp)
  | some inode =>
    obtain rfl := Option.some.inj ((rename_of_entry files hentry).symm.trans h)
    exact Function.update_self _ _ _

theorem content_rename (h : files.rename old new = some files') :
    files'.content = files.content := by
  cases hentry : files.entry old with
  | none => exact absurd ((rename_of_none files hentry).symm.trans h) (by simp)
  | some inode =>
    obtain rfl := Option.some.inj ((rename_of_entry files hentry).symm.trans h)
    rfl

theorem entry_rename_old (h : files.rename old new = some files') (hne : old ≠ new) :
    files'.entry old = none := by
  cases hentry : files.entry old with
  | none => exact absurd ((rename_of_none files hentry).symm.trans h) (by simp)
  | some inode =>
    obtain rfl := Option.some.inj ((rename_of_entry files hentry).symm.trans h)
    exact (Function.update_of_ne hne _ _).trans (Function.update_self _ _ _)

theorem entry_rename_of_ne (h : files.rename old new = some files') (hold : name ≠ old)
    (hnew : name ≠ new) : files'.entry name = files.entry name := by
  cases hentry : files.entry old with
  | none => exact absurd ((rename_of_none files hentry).symm.trans h) (by simp)
  | some inode =>
    obtain rfl := Option.some.inj ((rename_of_entry files hentry).symm.trans h)
    exact (Function.update_of_ne hnew _ _).trans (Function.update_of_ne hold _ _)

theorem read_rename_new (h : files.rename old new = some files') :
    files'.read new = files.read old := by
  unfold Files.read
  rw [entry_rename_new files h, content_rename files h]

theorem read_rename_old (h : files.rename old new = some files') (hne : old ≠ new) :
    files'.read old = none := by
  rw [read_eq_none_iff]
  exact entry_rename_old files h hne

theorem read_rename_of_ne (h : files.rename old new = some files') (hold : name ≠ old)
    (hnew : name ≠ new) : files'.read name = files.read name := by
  unfold Files.read
  rw [entry_rename_of_ne files h hold hnew, content_rename files h]

end Behind

end PosixFiles
