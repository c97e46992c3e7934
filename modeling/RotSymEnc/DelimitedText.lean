/-
# Delimited text

Lines and fields.  A reader takes the characters up to a delimiter, again and again, until the
stream is exhausted; a writer puts a delimiter behind every line, or between any two fields.  Where
no line and no field has the delimiter in it, what is written is read again.
-/
import Mathlib.Data.List.TakeWhile
import Mathlib.Tactic.Common

namespace DelimitedText

variable {α : Type} [DecidableEq α]

/-! ## The readers -/

/-- The characters up to the delimiter, and those behind it.  An exhausted stream has none. -/
def getline (delim : α) (stream : List α) : Option (List α × List α) :=
  if stream = [] then none
  else some (stream.takeWhile (· ≠ delim), (stream.dropWhile (· ≠ delim)).drop 1)

/-- What is left is shorter. -/
theorem length_lt_of_getline {delim : α} {stream line rest : List α}
    (h : getline delim stream = some (line, rest)) : rest.length < stream.length := by
  unfold getline at h
  split_ifs at h with hnil
  obtain ⟨-, rfl⟩ := Prod.mk.inj (Option.some.inj h)
  have hpos := List.length_pos_iff.mpr hnil
  have hdrop := (List.dropWhile_sublist (fun c => decide (c ≠ delim)) (l := stream)).length_le
  rw [List.length_drop]
  omega

/-- The lines of a stream. -/
def getlines (delim : α) (stream : List α) : List (List α) :=
  match _hline : getline delim stream with
  | none => []
  | some (line, rest) => line :: getlines delim rest
termination_by stream.length
decreasing_by exact length_lt_of_getline _hline

/-- The fields of a line: a delimiter at the end has an empty field behind it. -/
def splitFields (delim : α) (line : List α) : List (List α) :=
  if line.getLast? = some delim then getlines delim line ++ [[]] else getlines delim line

/-! ## The writers -/

/-- Lines, each with the delimiter behind it. -/
def putlines (delim : α) (lines : List (List α)) : List α := lines.flatMap (· ++ [delim])

/-- Fields, with the delimiter between them. -/
def joinFields (delim : α) : List (List α) → List α
  | [] => []
  | [field] => field
  | field :: fields => field ++ delim :: joinFields delim fields

/-! ## Lines -/

section Lines

variable {delim : α} {line rest : List α}

@[simp] theorem getlines_nil : getlines delim [] = [] := by
  rw [getlines]
  rfl

/-- Without the delimiter, all of a line is taken. -/
theorem takeWhile_ne (h : delim ∉ line) (rest : List α) :
    (line ++ delim :: rest).takeWhile (· ≠ delim) = line ∧
      (line ++ delim :: rest).dropWhile (· ≠ delim) = delim :: rest := by
  induction line with
  | nil => simp
  | cons c line ih =>
    obtain ⟨hc, hline⟩ := not_or.mp (mt List.mem_cons.mpr h)
    obtain ⟨htake, hdrop⟩ := ih hline
    have hne : decide (c ≠ delim) = true := decide_eq_true (Ne.symm hc)
    rw [List.cons_append, List.takeWhile_cons_of_pos (p := fun c => decide (c ≠ delim)) hne,
      List.dropWhile_cons_of_pos (p := fun c => decide (c ≠ delim)) hne, htake]
    exact ⟨rfl, hdrop⟩

/-- **A line is read** up to its delimiter. -/
theorem getlines_append (h : delim ∉ line) (rest : List α) :
    getlines delim (line ++ delim :: rest) = line :: getlines delim rest := by
  obtain ⟨htake, hdrop⟩ := takeWhile_ne h rest
  have hnil : line ++ delim :: rest ≠ [] := by simp
  have hline : getline delim (line ++ delim :: rest) = some (line, rest) := by
    unfold getline
    rw [if_neg hnil, htake, hdrop]
    rfl
  rw [getlines, hline]

/-- The last line needs no delimiter, unless it is empty. -/
theorem getlines_last (h : delim ∉ line) (hnil : line ≠ []) : getlines delim line = [line] := by
  have htake : line.takeWhile (· ≠ delim) = line := by
    rw [List.takeWhile_eq_self_iff]
    intro c hc
    have hne : c ≠ delim := fun heq => h (heq ▸ hc)
    simp [hne]
  have hdrop : line.dropWhile (· ≠ delim) = [] := by
    rw [List.dropWhile_eq_nil_iff]
    intro c hc
    have hne : c ≠ delim := fun heq => h (heq ▸ hc)
    simp [hne]
  have hline : getline delim line = some (line, []) := by
    unfold getline
    rw [if_neg hnil, htake, hdrop]
    rfl
  rw [getlines, hline]
  dsimp only
  rw [getlines_nil]

/-- **What is written line by line is read line by line.** -/
theorem getlines_putlines {lines : List (List α)} (h : ∀ line ∈ lines, delim ∉ line) :
    getlines delim (putlines delim lines) = lines := by
  induction lines with
  | nil => exact getlines_nil
  | cons line lines ih =>
    obtain ⟨hline, hlines⟩ := List.forall_mem_cons.mp h
    show getlines delim ((line ++ [delim]) ++ putlines delim lines) = line :: lines
    rw [List.append_assoc]
    show getlines delim (line ++ delim :: putlines delim lines) = line :: lines
    rw [getlines_append hline, ih hlines]

/-- No line is longer than the stream. -/
theorem length_le_of_mem_getlines {stream : List α} (h : line ∈ getlines delim stream) :
    line.length ≤ stream.length := by
  induction stream using getlines.induct delim with
  | case1 stream hnone =>
    rw [getlines, hnone] at h
    cases h
  | case2 stream first rest hline ih =>
    rw [getlines, hline] at h
    rcases List.mem_cons.mp h with rfl | hrest
    · unfold getline at hline
      split_ifs at hline
      obtain ⟨rfl, -⟩ := Prod.mk.inj (Option.some.inj hline)
      exact (List.takeWhile_sublist _).length_le
    · exact Nat.le_trans (ih hrest) (length_lt_of_getline hline).le

end Lines

/-! ## Fields -/

section Fields

variable {delim : α}

omit [DecidableEq α] in
/-- A joined line ends as its last field does. -/
theorem getLast?_joinFields {field : List α} {fields : List (List α)} (hfields : fields ≠ []) :
    (joinFields delim (field :: fields)).getLast?
      = if joinFields delim fields = [] then some delim
        else (joinFields delim fields).getLast? := by
  obtain ⟨second, others, rfl⟩ := List.exists_cons_of_ne_nil hfields
  show (field ++ delim :: joinFields delim (second :: others)).getLast? = _
  rw [List.getLast?_append]
  split_ifs with hnil
  · rw [hnil]
    rfl
  · rw [List.getLast?_cons_of_ne_nil hnil, List.getLast?_eq_some_getLast hnil]
    rfl

/-- The lines of a joined line are its fields, but for an empty last one. -/
theorem splitFields_joinFields {fields : List (List α)} (h : ∀ field ∈ fields, delim ∉ field)
    (hsome : joinFields delim fields ≠ []) :
    splitFields delim (joinFields delim fields) = fields := by
  induction fields with
  | nil => exact absurd rfl hsome
  | cons field fields ih =>
    obtain ⟨hfield, hrest⟩ := List.forall_mem_cons.mp h
    by_cases hfields : fields = []
    · subst hfields
      have hlast : (joinFields delim [field]).getLast? ≠ some delim :=
        fun heq => hfield (List.mem_of_getLast? heq)
      unfold splitFields
      rw [if_neg hlast]
      exact getlines_last hfield hsome
    · obtain ⟨second, others, rfl⟩ := List.exists_cons_of_ne_nil hfields
      have hlines : getlines delim (joinFields delim (field :: second :: others))
          = field :: getlines delim (joinFields delim (second :: others)) :=
        getlines_append hfield _
      unfold splitFields
      rw [hlines, getLast?_joinFields hfields]
      by_cases hnil : joinFields delim (second :: others) = []
      -- only a single empty field is joined to nothing
      · have hlast : second :: others = [[]] := by
          cases others with
          | nil => exact congrArg (fun field => [field]) hnil
          | cons third others => exact absurd hnil (by simp [joinFields])
        rw [if_pos hnil, if_pos rfl, hnil, getlines_nil, hlast]
        rfl
      · rw [if_neg hnil]
        have hsplit := ih hrest hnil
        unfold splitFields at hsplit
        split_ifs at hsplit ⊢ with hend
        · rw [List.cons_append, hsplit]
        · rw [hsplit]

omit [DecidableEq α] in
/-- Joining brings in the delimiter and nothing else. -/
theorem not_mem_joinFields {c : α} (hc : c ≠ delim) {fields : List (List α)}
    (h : ∀ field ∈ fields, c ∉ field) : c ∉ joinFields delim fields := by
  induction fields with
  | nil => exact List.not_mem_nil
  | cons field fields ih =>
    obtain ⟨hfield, hrest⟩ := List.forall_mem_cons.mp h
    cases fields with
    | nil => exact hfield
    | cons second others =>
      show c ∉ field ++ delim :: joinFields delim (second :: others)
      intro hmem
      rcases List.mem_append.mp hmem with hmem | hmem
      · exact hfield hmem
      · rcases List.mem_cons.mp hmem with rfl | hmem
        · exact hc rfl
        · exact ih hrest hmem

/-- No field is longer than the line. -/
theorem length_le_of_mem_splitFields {line field : List α} (h : field ∈ splitFields delim line) :
    field.length ≤ line.length := by
  unfold splitFields at h
  split_ifs at h
  · rcases List.mem_append.mp h with h | h
    · exact length_le_of_mem_getlines h
    · rw [List.mem_singleton.mp h]
      exact Nat.zero_le _
  · exact length_le_of_mem_getlines h

end Fields

end DelimitedText
