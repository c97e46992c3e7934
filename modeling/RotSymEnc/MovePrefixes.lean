/-
# The common prefix of two traces

`common_move_prefix` counts the moves that two traces have in common.  The traces of two returns
that start from one cube, cursor and axis, over messages of one length, part in a decision: the
first moves that differ have the same cursor, domain and phase, and rotate by another axis or
another amount.  Up to there the two runs have the same cube, and without such a move they end
with the same cube.
-/
import RotSymEnc.PassTraces

open TorusLines StatefulRuns

variable {C D : Type}

/-! ## Counting the common moves -/

/-- `same_physical_move`. -/
def Engine.samePhysicalMove (engine : Engine C D) (left right : MoveTraceOf C D) : Bool :=
  engine.axis left.decision = engine.axis right.decision
    && engine.amount left.decision = engine.amount right.decision
    && left.cursorBefore = right.cursorBefore
    && left.cursorAfter = right.cursorAfter
    && left.domain = right.domain
    && left.phase = right.phase

/-- The common form of `common_move_prefix` and `common_move_prefix_b`. -/
def Engine.commonMovePrefix (engine : Engine C D) :
    List (MoveTraceOf C D) → List (MoveTraceOf C D) → ℕ
  | left :: lefts, right :: rights =>
    if engine.samePhysicalMove left right then engine.commonMovePrefix lefts rights + 1 else 0
  | _, _ => 0

/-- `common_move_prefix`. -/
abbrev commonMovePrefix (left right : List MoveTrace) : ℕ := engineA2.commonMovePrefix left right

/-- `common_move_prefix_b`. -/
abbrev commonMovePrefixB (left right : List MoveTraceB) : ℕ := engineB.commonMovePrefix left right

namespace Engine

variable {engine : Engine C D} {left right : List (MoveTraceOf C D)}

theorem samePhysicalMove_iff (a b : MoveTraceOf C D) :
    engine.samePhysicalMove a b = true ↔ engine.axis a.decision = engine.axis b.decision ∧
      engine.amount a.decision = engine.amount b.decision ∧ a.cursorBefore = b.cursorBefore ∧
      a.cursorAfter = b.cursorAfter ∧ a.domain = b.domain ∧ a.phase = b.phase := by
  unfold samePhysicalMove
  simp only [Bool.and_eq_true, decide_eq_true_eq, and_assoc]

/-- The moves before the prefix ends are the same. -/
theorem samePhysicalMove_of_lt {j : ℕ} (h : j < engine.commonMovePrefix left right) :
    ∃ a b, left[j]? = some a ∧ right[j]? = some b ∧ engine.samePhysicalMove a b = true := by
  induction left generalizing right j with
  | nil => exact absurd h (Nat.not_lt_zero j)
  | cons a left ih =>
    cases right with
    | nil => exact absurd h (Nat.not_lt_zero j)
    | cons b right =>
      rw [commonMovePrefix] at h
      split at h
      next hsame =>
        cases j with
        | zero => exact ⟨a, b, rfl, rfl, hsame⟩
        | succ j => exact ih (Nat.lt_of_succ_lt_succ h)
      next => exact absurd h (Nat.not_lt_zero j)

/-- The moves where the prefix ends differ. -/
theorem not_samePhysicalMove {a b : MoveTraceOf C D}
    (ha : left[engine.commonMovePrefix left right]? = some a)
    (hb : right[engine.commonMovePrefix left right]? = some b) :
    engine.samePhysicalMove a b = false := by
  induction left generalizing right with
  | nil => exact absurd ha (by simp)
  | cons c left ih =>
    cases right with
    | nil => exact absurd hb (by simp)
    | cons d right =>
      rw [commonMovePrefix] at ha hb
      split at ha
      next hsame =>
        rw [if_pos hsame] at hb
        exact ih ha hb
      next hsame =>
        rw [if_neg hsame] at hb
        obtain rfl : c = a := Option.some.inj ha
        obtain rfl : d = b := Option.some.inj hb
        exact Bool.eq_false_iff.mpr hsame

end Engine

/-! ## Geometry -/

/-- What moves rotate: the cube, the cursor and the previous axis. -/
structure Geometry : Type where
  cube : Cube
  cursor : Coord
  previousAxis : Axis

/-- The geometry of a working state. -/
def WorkingStateOf.geometry (w : WorkingStateOf C) : Geometry :=
  ⟨w.cube, w.cursor, w.previousAxis⟩

/-- A rotation of the line through the cursor, which the cursor follows. -/
def Geometry.moved (g : Geometry) (axis : Axis) (amount : U8) : Geometry :=
  ⟨g.cube.rotated axis g.cursor.pos (Fin.ofNat 8 amount.toNat), advance g.cursor axis amount, axis⟩

/-- The geometry after the rotations of a trace. -/
def Engine.geometryAfter (engine : Engine C D) (g : Geometry) (moves : List (MoveTraceOf C D)) :
    Geometry :=
  moves.foldl (fun g move => g.moved (engine.axis move.decision) (engine.amount move.decision)) g

theorem Engine.geometryAfter_cons (engine : Engine C D) (g : Geometry) (move : MoveTraceOf C D)
    (moves : List (MoveTraceOf C D)) :
    engine.geometryAfter g (move :: moves) = engine.geometryAfter
      (g.moved (engine.axis move.decision) (engine.amount move.decision)) moves :=
  List.foldl_cons ..

/-- A trace of moves that start from a geometry, each where the one before it ended. -/
def Engine.Follows (engine : Engine C D) : Geometry → List (MoveTraceOf C D) → Prop
  | _, [] => True
  | g, move :: moves =>
    move.cursorBefore = g.cursor ∧ move.previousAxis = g.previousAxis ∧
      move.cursorAfter = advance g.cursor (engine.axis move.decision)
        (engine.amount move.decision) ∧
      engine.Follows (g.moved (engine.axis move.decision) (engine.amount move.decision)) moves

namespace Engine

variable {engine : Engine C D} {w w' : WorkingStateOf C} {events : List (Event C D)}

/-- **A path** follows its moves. -/
theorem Steps.follows (h : engine.Steps w events w') :
    w'.geometry = engine.geometryAfter w.geometry (movesOf events) ∧
      engine.Follows w.geometry (movesOf events) := by
  induction h with
  | nil w index => exact ⟨rfl, trivial⟩
  | entered index controller rest ih => exact ih
  | @moved w w' events index symbol domain phase d preview rest ih =>
    have hmoved : (engine.moveState { w with symbolIndex := index } symbol domain phase d).geometry
        = w.geometry.moved (engine.axis d) (engine.amount d) := by
      unfold Engine.moveState WorkingStateOf.afterMove WorkingStateOf.geometry Geometry.moved
      rfl
    rw [hmoved] at ih
    rw [movesOf_cons_moved, geometryAfter_cons]
    exact ⟨ih.1, rfl, rfl, rfl, ih.2⟩

/-- A move in a trace starts from the geometry of the moves before it. -/
theorem Follows.getElem? {g : Geometry} {moves : List (MoveTraceOf C D)}
    (h : engine.Follows g moves) {j : ℕ} {move : MoveTraceOf C D} (hmove : moves[j]? = some move) :
    move.cursorBefore = (engine.geometryAfter g (moves.take j)).cursor ∧
      move.previousAxis = (engine.geometryAfter g (moves.take j)).previousAxis ∧
      move.cursorAfter = advance (engine.geometryAfter g (moves.take j)).cursor
        (engine.axis move.decision) (engine.amount move.decision) := by
  induction moves generalizing g j with
  | nil => exact absurd hmove (by simp)
  | cons first moves ih =>
    obtain ⟨hcursor, haxis, hafter, hrest⟩ := h
    cases j with
    | zero =>
      obtain rfl : first = move := Option.some.inj hmove
      exact ⟨hcursor, haxis, hafter⟩
    | succ j =>
      rw [List.take_succ_cons, geometryAfter_cons]
      exact ih hrest hmove

/-- As long as the moves are the same, so is the geometry. -/
theorem geometryAfter_take (g : Geometry) {left right : List (MoveTraceOf C D)} {j : ℕ}
    (h : j ≤ engine.commonMovePrefix left right) :
    engine.geometryAfter g (left.take j) = engine.geometryAfter g (right.take j) := by
  induction left generalizing g right j with
  | nil =>
    obtain rfl : j = 0 := Nat.le_zero.mp h
    rw [List.take_zero, List.take_zero]
  | cons a left ih =>
    cases j with
    | zero => rw [List.take_zero, List.take_zero]
    | succ j =>
      obtain ⟨c, b, hc, hb, hsame⟩ := samePhysicalMove_of_lt (Nat.lt_of_lt_of_le (Nat.succ_pos j) h)
      obtain rfl : a = c := Option.some.inj hc
      cases right with
      | nil => exact absurd hb (by simp)
      | cons d right =>
        obtain rfl : d = b := Option.some.inj hb
        obtain ⟨haxis, hamount, -⟩ := (samePhysicalMove_iff a d).mp hsame
        rw [commonMovePrefix, if_pos hsame] at h
        rw [List.take_succ_cons, List.take_succ_cons, geometryAfter_cons, geometryAfter_cons,
          haxis, hamount]
        exact ih _ (Nat.le_of_succ_le_succ h)

/-! ## Where two traces part -/

/-- The traces have the same cube, cursor and axis up to the end of their common prefix, and part
there in a decision: at the same cursor, coming from the same axis, in the same domain and
phase, by another axis or another amount. -/
structure PartAtDecision (engine : Engine C D) (start : Geometry)
    (left right : List (MoveTraceOf C D)) : Prop where
  length_eq : left.length = right.length
  same : ∀ j ≤ engine.commonMovePrefix left right,
    engine.geometryAfter start (left.take j) = engine.geometryAfter start (right.take j)
  part : ∀ a b, left[engine.commonMovePrefix left right]? = some a →
    right[engine.commonMovePrefix left right]? = some b →
    a.cursorBefore = b.cursorBefore ∧ a.previousAxis = b.previousAxis ∧ a.domain = b.domain ∧
      a.phase = b.phase ∧ ¬(engine.axis a.decision = engine.axis b.decision ∧
        engine.amount a.decision = engine.amount b.decision)

/-- Two traces with one start and the same domains and phases part in a decision. -/
theorem partAtDecision {start : Geometry} {left right : List (MoveTraceOf C D)}
    (hleft : engine.Follows start left) (hright : engine.Follows start right)
    (hslots : left.map (fun move => (move.domain, move.phase))
      = right.map (fun move => (move.domain, move.phase))) :
    engine.PartAtDecision start left right where
  length_eq := by
    have := congrArg List.length hslots
    rwa [List.length_map, List.length_map] at this
  same j hj := geometryAfter_take start hj
  part a b ha hb := by
    obtain ⟨hcursor, haxis, hafter⟩ := hleft.getElem? ha
    obtain ⟨hcursor', haxis', hafter'⟩ := hright.getElem? hb
    have hgeometry := @geometryAfter_take C D engine start left right _ le_rfl
    have hslot := congrArg (·[engine.commonMovePrefix left right]?) hslots
    simp only [List.getElem?_map, ha, hb, Option.map_some, Option.some.injEq,
      Prod.mk.injEq] at hslot
    obtain ⟨hdomain, hphase⟩ := hslot
    have hbefore : a.cursorBefore = b.cursorBefore := by rw [hcursor, hcursor', hgeometry]
    refine ⟨hbefore, by rw [haxis, haxis', hgeometry], hdomain, hphase, ?_⟩
    rintro ⟨hsameAxis, hsameAmount⟩
    -- the cursor after a move follows from the cursor before it, so the moves would be the same
    have hsame : engine.samePhysicalMove a b = true := by
      refine (samePhysicalMove_iff a b).mpr ⟨hsameAxis, hsameAmount, hbefore, ?_, hdomain, hphase⟩
      rw [hafter, hafter', hgeometry, hsameAxis, hsameAmount]
    exact absurd hsame (Bool.eq_false_iff.mp (not_samePhysicalMove ha hb))

end Engine

/-! ## Two transcript returns -/

section Returns

variable {engine : Engine C D} {DecisionOk : D → Prop}

/-- The trace of a transcript return: it fills the slots of the pass and follows the geometry. -/
theorem transcriptReturn_follows (hengine : engine.Sound DecisionOk) {rules : ReturnRules C}
    (hrules : rules.Sound) (message : List U8) {profile : ReturnProfile}
    (hprofile : profile.Valid) {m : Machine C D} (hcursor : m.working.cursor.InRange) :
    ∃ m' moves, (engine.transcriptReturn rules message profile true).run m = .ok () m' ∧
      m'.trace = m.trace ++ moves ∧
      moves.map (fun move => move.input.slot)
        = returnSlots profile message.length m.working.symbolIndex ∧
      m'.working.geometry = engine.geometryAfter m.working.geometry moves ∧
      engine.Follows m.working.geometry moves := by
  obtain ⟨events, w', hsteps, hslots, -, hdoes⟩ :=
    walks_transcriptReturn hengine hrules message hprofile m.working hcursor
  obtain ⟨accesses, -, hrun⟩ := hdoes true m rfl
  exact ⟨_, movesOf events, hrun, rfl, hslots, hsteps.follows⟩

/-- Slots without their counters are the same for all passes of one shape. -/
theorem passSlots_shape (domain : Domain) (moves symbols : ℕ) (index index' : U64) :
    (passSlots domain moves symbols index).map (fun slot => (slot.domain, slot.phase))
      = (passSlots domain moves symbols index').map fun slot => (slot.domain, slot.phase) := by
  induction symbols generalizing index index' with
  | zero => rfl
  | succ symbols ih =>
    rw [passSlots, passSlots, List.map_append, List.map_append, List.map_map, List.map_map]
    exact congrArg (_ ++ ·) (ih _ _)

/-- Every pair of transcript returns over messages of one length, from states with one cube, cursor
and axis, fills the same domains and phases and parts in a decision; and where the traces do not
part, the final cubes, cursors and axes are the same. -/
def Engine.ReturnsPart (engine : Engine C D) (rules : ReturnRules C) : Prop :=
  ∀ (profile : ReturnProfile) (left right : List U8) (m n : Machine C D), profile.Valid →
    left.length = right.length → m.working.cursor.InRange →
    m.working.geometry = n.working.geometry →
    ∃ m' n' moves moves',
      (engine.transcriptReturn rules left profile true).run m = .ok () m' ∧
      (engine.transcriptReturn rules right profile true).run n = .ok () n' ∧
      m'.trace = m.trace ++ moves ∧ n'.trace = n.trace ++ moves' ∧
      moves.map (fun move => move.input.slot)
        = returnSlots profile left.length m.working.symbolIndex ∧
      moves'.map (fun move => move.input.slot)
        = returnSlots profile right.length n.working.symbolIndex ∧
      engine.PartAtDecision m.working.geometry moves moves' ∧
      (engine.commonMovePrefix moves moves' = moves.length →
        m'.working.geometry = n'.working.geometry)

theorem returnsPart (hengine : engine.Sound DecisionOk) {rules : ReturnRules C}
    (hrules : rules.Sound) : engine.ReturnsPart rules := by
  intro profile left right m n hprofile hlength hcursor hgeometry
  have hcursor' : n.working.cursor.InRange := by
    have := congrArg Geometry.cursor hgeometry
    show n.working.geometry.cursor.InRange
    rwa [← this]
  obtain ⟨m', moves, hrun, htrace, hslots, hend, hfollows⟩ :=
    transcriptReturn_follows hengine hrules left hprofile hcursor
  obtain ⟨n', moves', hrun', htrace', hslots', hend', hfollows'⟩ :=
    transcriptReturn_follows hengine hrules right hprofile hcursor'
  rw [← hgeometry] at hend' hfollows'
  have hshape : moves.map (fun move => (move.domain, move.phase))
      = moves'.map fun move => (move.domain, move.phase) := by
    have hmap : ∀ l : List (MoveTraceOf C D), l.map (fun move => (move.domain, move.phase))
        = (l.map fun move => move.input.slot).map fun slot => (slot.domain, slot.phase) := by
      intro l
      rw [List.map_map]
      rfl
    rw [hmap, hmap, hslots, hslots', hlength]
    unfold returnSlots
    rw [List.map_append, List.map_append, List.map_append, List.map_append,
      passSlots_shape _ _ _ _ n.working.symbolIndex, passSlots_shape .inputReturn _ _ _
        (n.working.symbolIndex + BitVec.ofNat 64 profile.initSymbols),
      passSlots_shape .returnSeal _ _ _ (n.working.symbolIndex
        + BitVec.ofNat 64 profile.initSymbols + BitVec.ofNat 64 right.length)]
  have hpart := Engine.partAtDecision hfollows hfollows' hshape
  refine ⟨m', n', moves, moves', hrun, hrun', htrace, htrace', hslots, hslots', hpart, ?_⟩
  intro hall
  have hsame := hpart.same _ le_rfl
  rw [hall, List.take_length, hpart.length_eq, List.take_length] at hsame
  rw [hend, hend', hsame]

end Returns

/-- **Two transcript returns part in a decision**, in A2 and in prototype B: two returns over
messages of one length that start from one cube, cursor and previous axis fill the same domains
and phases, each with the symbol counters fixed by its start, and `common_move_prefix` counts
the moves up to the first rotation in which they differ.  Up to there they have the same cube,
cursor and previous axis; their symbols and controllers may differ all the time. -/
theorem return_traces_part_at_decision :
    engineA2.ReturnsPart returnRulesA2 ∧ engineB.ReturnsPart returnRulesB :=
  ⟨returnsPart engineA2_sound returnRulesA2_sound, returnsPart engineB_sound returnRulesB_sound⟩
