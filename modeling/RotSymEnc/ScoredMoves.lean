/-
# The moves of prototype B are won by scores

Prototype B chooses by competition.  Its axis is the one with the smaller score, the first where
they tie, and its amount is the least of the seven candidates whose score is the smallest.  Each
candidate probes the cube once, so a move reads eleven cells and one line.  Over a whole sequence
of symbols, a difference in a cell that no move reads or turns stays in that cell and changes
nothing else.
-/
import RotSymEnc.MoveLocality

open TorusLines StatefulRuns

/-! ## The contest of the amounts -/

/-- A loop over all indices keeps what each pass hands to the next. -/
theorem foldl_finRange_induction {n : ℕ} {β : Type} (P : ℕ → β → Prop) {f : β → Fin n → β}
    (hf : ∀ i b, P i.val b → P (i.val + 1) (f b i)) {b : β} (hb : P 0 b) :
    P n ((List.finRange n).foldl f b) := by
  induction n with
  | zero => exact hb
  | succ n ih =>
    rw [List.finRange_succ_last, List.foldl_append, List.foldl_map]
    exact hf (Fin.last n) _ (ih fun i b hb => hf i.castSucc b hb)

/-- A vector with one entry replaced. -/
def putAt {α : Type} {n : ℕ} (v : Vector α (n + 1)) (slot : Fin (n + 1)) (a : α) :
    Vector α (n + 1) :=
  v.set slot a

/-- What is put is found, and the other entries stay. -/
theorem get_putAt {α : Type} {n : ℕ} (v : Vector α (n + 1)) (slot k : Fin (n + 1)) (a : α) :
    (putAt v slot a).get k = if k = slot then a else v.get k := by
  unfold putAt
  rw [Vector.get_eq_getElem, Vector.get_eq_getElem, Vector.getElem_set]
  by_cases h : k = slot
  · rw [if_pos h, if_pos (congrArg Fin.val h).symm]
  · rw [if_neg h, if_neg fun hval => h (Fin.ext hval.symm)]

/-- A candidate enters the contest with the byte probed for it and its score. -/
def AmountContest.enter (c : AmountContest) (slot : Fin 7) (probe : U8) (score : U32) :
    AmountContest :=
  let c := { c with
    amountScores := putAt c.amountScores slot score
    candidateProbes := putAt c.candidateProbes slot probe }
  if score < c.best then { c with best := score, selected := BitVec.ofNat 8 (slot.val + 1) } else c

/-- The contest after `n` candidates: it has their probes and scores, and the lead belongs to the
first of the smallest scores. -/
structure AmountContest.Fair (probe : Fin 7 → U8) (score : Fin 7 → U32) (n : ℕ)
    (c : AmountContest) : Prop where
  probes : ∀ k : Fin 7, k.val < n → c.candidateProbes.get k = probe k
  scores : ∀ k : Fin 7, k.val < n → c.amountScores.get k = score k
  best_le : ∀ k : Fin 7, k.val < n → c.best ≤ score k
  lead : (c.best = BitVec.allOnes 32 ∧ c.selected = 1) ∨
    ∃ slot : Fin 7, slot.val < n ∧ c.selected = BitVec.ofNat 8 (slot.val + 1) ∧
      c.best = score slot ∧ ∀ k < slot, c.best < score k

/-- **One candidate** keeps the contest fair. -/
theorem AmountContest.Fair.enter {probe : Fin 7 → U8} {score : Fin 7 → U32} {slot : Fin 7}
    {c : AmountContest} (h : c.Fair probe score slot) :
    (c.enter slot (probe slot) (score slot)).Fair probe score (slot + 1) := by
  have hlt : ∀ k : Fin 7, k.val < slot.val + 1 → k = slot ∨ k.val < slot.val := by
    intro k hk
    rcases Nat.lt_succ_iff_lt_or_eq.mp hk with hlt | heq
    · exact .inr hlt
    · exact .inl (Fin.ext heq)
  have hprobes : ∀ k : Fin 7, k.val < slot.val + 1 →
      (putAt c.candidateProbes slot (probe slot)).get k = probe k := by
    intro k hk
    rw [get_putAt]
    rcases hlt k hk with rfl | hk
    · exact if_pos rfl
    · rw [if_neg fun heq => (heq ▸ hk).false, h.probes k hk]
  have hscores : ∀ k : Fin 7, k.val < slot.val + 1 →
      (putAt c.amountScores slot (score slot)).get k = score k := by
    intro k hk
    rw [get_putAt]
    rcases hlt k hk with rfl | hk
    · exact if_pos rfl
    · rw [if_neg fun heq => (heq ▸ hk).false, h.scores k hk]
  unfold AmountContest.enter
  dsimp only
  split
  -- the candidate takes the lead, and every score before it is greater
  next hless =>
    have hbefore : ∀ k : Fin 7, k.val < slot.val → score slot < score k :=
      fun k hk => Nat.lt_of_lt_of_le hless (h.best_le k hk)
    refine ⟨hprobes, hscores, fun k hk => ?_, .inr ⟨slot, Nat.lt_succ_self _, rfl, rfl, ?_⟩⟩
    · rcases hlt k hk with rfl | hk
      · exact BitVec.le_refl _
      · exact BitVec.le_of_lt (hbefore k hk)
    · exact hbefore
  next hge =>
    refine ⟨hprobes, hscores, fun k hk => ?_, ?_⟩
    · rcases hlt k hk with rfl | hk
      · exact BitVec.not_lt.mp hge
      · exact h.best_le k hk
    · rcases h.lead with hstart | ⟨leader, hleader, hlead⟩
      · exact .inl hstart
      · exact .inr ⟨leader, hleader.trans (Nat.lt_succ_self _), hlead⟩

/-- The contest over all candidates. -/
def contestOf (probe : Fin 7 → U8) (score : Fin 7 → U32) : AmountContest :=
  (List.finRange 7).foldl (fun c slot => c.enter slot (probe slot) (score slot))
    ⟨Vector.replicate 7 0, Vector.replicate 7 0, BitVec.allOnes 32, 1⟩

/-- **The winner** is the first of the smallest scores. -/
theorem contestOf_fair (probe : Fin 7 → U8) (score : Fin 7 → U32) :
    (∀ k, (contestOf probe score).candidateProbes.get k = probe k) ∧
      (∀ k, (contestOf probe score).amountScores.get k = score k) ∧
      ∃ slot : Fin 7, (contestOf probe score).selected = BitVec.ofNat 8 (slot.val + 1) ∧
        (∀ k, score slot ≤ score k) ∧ ∀ k < slot, score slot < score k := by
  have hfair : (contestOf probe score).Fair probe score 7 :=
    foldl_finRange_induction (AmountContest.Fair probe score) (fun _ _ h => h.enter)
      ⟨fun k hk => absurd hk (Nat.not_lt_zero _), fun k hk => absurd hk (Nat.not_lt_zero _),
        fun k hk => absurd hk (Nat.not_lt_zero _), .inl ⟨rfl, rfl⟩⟩
  refine ⟨fun k => hfair.probes k k.isLt, fun k => hfair.scores k k.isLt, ?_⟩
  rcases hfair.lead with ⟨hbest, hselected⟩ | ⟨slot, -, hselected, hbest, hfirst⟩
  -- no score was below the greatest one, so all are equal to it and the first candidate wins
  · have hall : ∀ k, score k = BitVec.allOnes 32 := by
      intro k
      have hle := hfair.best_le k k.isLt
      rw [hbest] at hle
      exact BitVec.allOnes_le_iff.mp hle
    refine ⟨0, hselected, fun k => ?_, fun k hk => absurd hk (Nat.not_lt_zero _)⟩
    rw [hall, hall k]
    exact BitVec.le_refl _
  · exact ⟨slot, hselected, fun k => hbest ▸ hfair.best_le k k.isLt,
      fun k hk => hbest ▸ hfirst k hk⟩

/-! ## The decision -/

/-- A decision that is won: the axis by the smaller score, the first where they tie, and the amount
by the first of the smallest scores, each of which belongs to a byte probed once. -/
structure MoveDecisionB.Won (s : WorkingStateB) (injected : ControllerStateB) (domain : Domain)
    (phase : U8) (d : MoveDecisionB) : Prop where
  axisScores : d.axisScores = axisScoresB s injected d.probes domain phase
  axis : d.axis = chooseOtherAxis s.previousAxis (d.axisScores.get 1 < d.axisScores.get 0)
  candidateProbes : ∀ k : Fin 7, d.candidateProbes.get k = s.cube.cell
    (candidateCoord d.probes.amountCoord0 d.axis domain phase (k.val + 1)).pos
  amountScores : ∀ k : Fin 7, d.amountScores.get k
    = amountScoreB injected d.probes d.axis phase (k.val + 1) (d.candidateProbes.get k)
  amount : ∃ k : Fin 7, d.amount = BitVec.ofNat 8 (k.val + 1) ∧
    (∀ i, d.amountScores.get k ≤ d.amountScores.get i) ∧
    ∀ i < k, d.amountScores.get k < d.amountScores.get i

/-- The cells that a decision has read: the four probes and those of the seven candidates. -/
def MoveDecisionB.reads (d : MoveDecisionB) (domain : Domain) (phase : U8) : List Coord :=
  d.probes.coords ++ (List.finRange 7).map fun k =>
    candidateCoord d.probes.amountCoord0 d.axis domain phase (k.val + 1)

/-- The four coordinates probed do not depend on the cube. -/
theorem reads_readProbesB_coords (s : WorkingStateB) (injected : ControllerStateB)
    (domain : Domain) (phase : U8) : ∃ c0 c1 c2 c3 : Coord,
      (∀ cube : Cube, Reads (readProbesB { s with cube := cube } injected domain phase)
        ⟨c0, c1, c2, c3, cube.cell c0.pos, cube.cell c1.pos, cube.cell c2.pos,
          cube.cell c3.pos⟩) ∧
      c0.InRange ∧ c1.InRange ∧ c2.InRange ∧ c3.InRange := by
  have hcoord := coordinateB_inRange s.cursor
  refine ⟨coordinateB s.cursor injected.lane[0] injected.lane[2] injected.path phase
      (domainCode domain) 0,
    coordinateB s.cursor injected.lane[2] injected.lane[0] (rotl64 injected.path 23) phase
      (domainCode domain) 3,
    coordinateB s.cursor injected.lane[1] injected.lane[3] (rotl64 injected.path 31) phase
      (domainCode domain) 5,
    coordinateB s.cursor injected.lane[3] injected.lane[1] (rotl64 injected.path 47) phase
      (domainCode domain) 7, fun cube => ?_, ?_⟩
  · exact (reads_unchecked cube (hcoord _ _ _ _ _ _)).bind
      ((reads_unchecked cube (hcoord _ _ _ _ _ _)).bind
      ((reads_unchecked cube (hcoord _ _ _ _ _ _)).bind
      ((reads_unchecked cube (hcoord _ _ _ _ _ _)).bind (Reads.pure _))))
  · exact ⟨hcoord _ _ _ _ _ _, hcoord _ _ _ _ _ _, hcoord _ _ _ _ _ _, hcoord _ _ _ _ _ _⟩

theorem injectSymbolB_withCube (s : WorkingStateB) (cube : Cube) (symbol : U8) (domain : Domain) :
    injectSymbolB { s with cube := cube } symbol domain = injectSymbolB s symbol domain := by
  unfold injectSymbolB
  rfl

/-- The contest that decides the amount, given the bytes probed for the candidates. -/
def amountContestB (injected : ControllerStateB) (probes : ProbeSet) (axis : Axis)
    (domain : Domain) (phase : U8) (cell : Coord → U8) : AmountContest :=
  contestOf (fun k => cell (candidateCoord probes.amountCoord0 axis domain phase (k.val + 1)))
    fun k => amountScoreB injected probes axis phase (k.val + 1)
      (cell (candidateCoord probes.amountCoord0 axis domain phase (k.val + 1)))

/-- The decision of a move, given the probes and the bytes probed for the candidates. -/
def decideMoveB (s : WorkingStateB) (injected : ControllerStateB) (probes : ProbeSet)
    (domain : Domain) (phase : U8) (cell : Coord → U8) : MoveDecisionB :=
  let axisScores := axisScoresB s injected probes domain phase
  let axis := chooseOtherAxis s.previousAxis (axisScores.get 1 < axisScores.get 0)
  let contest := amountContestB injected probes axis domain phase cell
  ⟨axis, contest.selected, axisScores, contest.amountScores, contest.candidateProbes, probes⟩

/-- The preview reads the probes and decides. -/
theorem reads_previewMoveB {s : WorkingStateB} {symbol : U8} {domain : Domain} {phase : U8}
    {probes : ProbeSet}
    (h : Reads (readProbesB s (injectSymbolB s symbol domain) domain phase) probes) :
    Reads (previewMoveB s symbol domain phase)
      (decideMoveB s (injectSymbolB s symbol domain) probes domain phase
        fun c => s.cube.cell c.pos) := by
  unfold previewMoveB decideMoveB amountContestB
  refine h.bind ((Reads.foldlM (fun c slot => ?_) _ _).bind (Reads.pure _))
  exact (reads_unchecked s.cube (candidateCoord_inRange _ _ _ _ _)).bind (Reads.pure _)

/-- What a contest over the candidates gives the decision that is made from it. -/
theorem won_of_contest {contest : AmountContest} {probe : Fin 7 → U8} {score : Fin 7 → U8 → U32}
    (h : contest = contestOf probe fun k => score k (probe k)) :
    (∀ k, contest.candidateProbes.get k = probe k) ∧
    (∀ k, contest.amountScores.get k = score k (contest.candidateProbes.get k)) ∧
    ∃ k : Fin 7, contest.selected = BitVec.ofNat 8 (k.val + 1) ∧
      (∀ i, contest.amountScores.get k ≤ contest.amountScores.get i) ∧
      ∀ i < k, contest.amountScores.get k < contest.amountScores.get i := by
  obtain ⟨hprobes, hscores, slot, hselected, hleast, hfirst⟩ :=
    contestOf_fair probe fun k => score k (probe k)
  rw [← h] at hprobes hscores hselected
  refine ⟨hprobes, fun k => ?_, slot, hselected, fun i => ?_, fun i hi => ?_⟩
  · rw [hprobes, hscores]
  · rw [hscores, hscores]
    exact hleast i
  · rw [hscores, hscores]
    exact hfirst i hi

theorem amountContestB_won {injected : ControllerStateB} {probes : ProbeSet} {axis : Axis}
    {domain : Domain} {phase : U8} {cell : Coord → U8} {contest : AmountContest}
    (h : contest = amountContestB injected probes axis domain phase cell) :
    (∀ k, contest.candidateProbes.get k
      = cell (candidateCoord probes.amountCoord0 axis domain phase (k.val + 1))) ∧
    (∀ k, contest.amountScores.get k
      = amountScoreB injected probes axis phase (k.val + 1) (contest.candidateProbes.get k)) ∧
    ∃ k : Fin 7, contest.selected = BitVec.ofNat 8 (k.val + 1) ∧
      (∀ i, contest.amountScores.get k ≤ contest.amountScores.get i) ∧
      ∀ i < k, contest.amountScores.get k < contest.amountScores.get i :=
  @won_of_contest _ _ (fun k => amountScoreB injected probes axis phase (k.val + 1)) h

/-- A decision made from a contest is won, whatever the probes. -/
theorem won_of_amountContestB {s : WorkingStateB} {injected : ControllerStateB} {probes : ProbeSet}
    {domain : Domain} {phase : U8} {axisScores : Vector U32 2} {axis : Axis}
    {contest : AmountContest} (hscores : axisScores = axisScoresB s injected probes domain phase)
    (haxis : axis = chooseOtherAxis s.previousAxis (axisScores.get 1 < axisScores.get 0))
    (hcontest : contest = amountContestB injected probes axis domain phase
      fun c => s.cube.cell c.pos) :
    (MoveDecisionB.mk axis contest.selected axisScores contest.amountScores
      contest.candidateProbes probes).Won s injected domain phase := by
  obtain ⟨hprobes, hamounts, hwinner⟩ := amountContestB_won hcontest
  exact ⟨hscores, haxis, hprobes, hamounts, hwinner⟩

/-- **Every decision is won.** -/
theorem decideMoveB_won (s : WorkingStateB) (injected : ControllerStateB) (probes : ProbeSet)
    (domain : Domain) (phase : U8) :
    (decideMoveB s injected probes domain phase fun c => s.cube.cell c.pos).Won s injected domain
      phase :=
  won_of_amountContestB rfl rfl rfl

/-! ## A cell that is not read -/

/-- The contest sees the cube at its candidates only. -/
theorem amountContestB_congr {injected : ControllerStateB} {probes : ProbeSet} {axis : Axis}
    {domain : Domain} {phase : U8} {cell cell' : Coord → U8}
    (h : ∀ k : Fin 7, cell' (candidateCoord probes.amountCoord0 axis domain phase (k.val + 1))
      = cell (candidateCoord probes.amountCoord0 axis domain phase (k.val + 1))) :
    amountContestB injected probes axis domain phase cell'
      = amountContestB injected probes axis domain phase cell := by
  unfold amountContestB
  have hscore := fun k : Fin 7 =>
    congrArg (amountScoreB injected probes axis phase (k.val + 1)) (h k)
  exact congrArg₂ contestOf (funext h) (funext hscore)

theorem axisScoresB_withCube (s : WorkingStateB) (cube : Cube) (injected : ControllerStateB)
    (probes : ProbeSet) (domain : Domain) (phase : U8) :
    axisScoresB { s with cube := cube } injected probes domain phase
      = axisScoresB s injected probes domain phase := by
  unfold axisScoresB
  rfl

theorem decideMoveB_withCube {s : WorkingStateB} {injected : ControllerStateB} {probes : ProbeSet}
    {domain : Domain} {phase : U8} {cube : Cube}
    (h : ∀ c ∈ (decideMoveB s injected probes domain phase fun c => s.cube.cell c.pos).reads
      domain phase, cube.cell c.pos = s.cube.cell c.pos) :
    decideMoveB { s with cube := cube } injected probes domain phase (fun c => cube.cell c.pos)
      = decideMoveB s injected probes domain phase fun c => s.cube.cell c.pos := by
  -- the axis is decided before the contest, from the probes alone
  have hcontest := @amountContestB_congr injected probes (chooseOtherAxis s.previousAxis
      ((axisScoresB s injected probes domain phase).get 1
        < (axisScoresB s injected probes domain phase).get 0)) domain phase
    (fun c => s.cube.cell c.pos) (fun c => cube.cell c.pos) fun k =>
      h _ (List.mem_append_right _ (List.mem_map_of_mem (List.mem_finRange k)))
  unfold decideMoveB
  dsimp only
  rw [axisScoresB_withCube, hcontest]

/-- **The preview is local.**  It reads the cells of its decision and no other. -/
theorem previewMoveB_local (s : WorkingStateB) (symbol : U8) (domain : Domain) (phase : U8) :
    ∃ d, Reads (previewMoveB s symbol domain phase) d ∧
      d.Won s (injectSymbolB s symbol domain) domain phase ∧
      (∀ c ∈ d.reads domain phase, c.InRange) ∧
      ∀ cube : Cube, (∀ c ∈ d.reads domain phase, cube.cell c.pos = s.cube.cell c.pos) →
        Reads (previewMoveB { s with cube := cube } symbol domain phase) d := by
  obtain ⟨c0, c1, c2, c3, hreads, h0, h1, h2, h3⟩ :=
    reads_readProbesB_coords s (injectSymbolB s symbol domain) domain phase
  refine ⟨_, reads_previewMoveB (hreads s.cube), decideMoveB_won _ _ _ _ _, ?_, ?_⟩
  · intro c hc
    rcases List.mem_append.mp hc with hc | hc
    · have hprobes : c ∈ [c0, c1, c2, c3] := hc
      simp only [List.mem_cons, List.not_mem_nil, or_false] at hprobes
      rcases hprobes with rfl | rfl | rfl | rfl <;> assumption
    · obtain ⟨k, -, rfl⟩ := List.mem_map.mp hc
      exact candidateCoord_inRange _ _ _ _ _
  · intro cube hcells
    have hprobe := fun (c : Coord) (hc : c ∈ [c0, c1, c2, c3]) => hcells c
      (List.mem_append_left _ hc)
    have hreads' := hreads cube
    rw [hprobe c0 (by simp), hprobe c1 (by simp), hprobe c2 (by simp), hprobe c3 (by simp),
      ← injectSymbolB_withCube s cube] at hreads'
    have hpreview := reads_previewMoveB hreads'
    rw [injectSymbolB_withCube] at hpreview
    rw [← decideMoveB_withCube hcells]
    exact hpreview

/-! ## Moves and runs -/

/-- A move of prototype B that neither reads the cell at `p` nor turns its line. -/
structure MoveTraceOf.Misses (move : MoveTraceB) (p : Coord) : Prop where
  notRead : p ∉ move.decision.reads move.domain move.phase
  notTurned : lineContains move.decision.axis move.cursorBefore p = false

instance (move : MoveTraceB) (p : Coord) : Decidable (move.Misses p) :=
  decidable_of_iff (p ∉ move.decision.reads move.domain move.phase ∧
    lineContains move.decision.axis move.cursorBefore p = false)
    ⟨fun h => ⟨h.1, h.2⟩, fun h => ⟨h.1, h.2⟩⟩

section Parallel

variable {C D : Type} {p : Pos} {δ : U8} {s s' : WorkingStateOf C}

/-- Outside the line, a rotation leaves the difference where it is. -/
theorem DifferAt.rotated_outside (h : DifferAt p δ s s') {axis : Axis} {q : Pos}
    (hline : ¬ OnLine axis q p) (amount : Fin 8) {r : Pos} (hr : r ≠ p) :
    (s'.cube.rotated axis q amount).cell r = (s.cube.rotated axis q amount).cell r := by
  rw [h.rotated axis q amount, lineShift_of_not_onLine hline, Function.update_of_ne hr]

/-- A move that misses the cell feeds back the same. -/
theorem DifferAt.moveFeedback_eq {engine : Engine C D} {d : D} (h : DifferAt p δ s s') (phase : U8)
    (hline : ¬ OnLine (engine.axis d) s.cursor.pos p) :
    engine.moveFeedback s' d phase = engine.moveFeedback s d phase := by
  -- the line is the same before and after the cursor has advanced along it
  have hline' : ¬ OnLine (engine.axis d) (advance s.cursor (engine.axis d) (engine.amount d)).pos
      p := by
    rw [pos_advance]
    exact fun hp => hline fun b hb => (hp b hb).trans (Function.update_of_ne hb _ _)
  have hbefore := lineCells_congr hline h.elsewhere
  have hafter := lineCells_congr hline' fun r hr =>
    h.rotated_outside hline (Fin.ofNat 8 (engine.amount d).toNat) hr
  unfold Engine.moveFeedback
  rw [h.cursor_eq]
  dsimp only
  rw [hbefore, hafter]

/-- A move that misses the cell leaves the same lanes. -/
theorem DifferAt.lanes_eq {engine : Engine C D} {d : D} {symbol : U8} {domain : Domain} {phase : U8}
    (h : DifferAt p δ s s')
    (hinject : engine.inject s' symbol domain = engine.inject s symbol domain)
    (haxis1 : (engine.probes d).axisCoord1.pos ≠ p)
    (hamount1 : (engine.probes d).amountCoord1.pos ≠ p)
    (hline : ¬ OnLine (engine.axis d) s.cursor.pos p) :
    engine.nextController s' d symbol domain phase
      = engine.nextController s d symbol domain phase := by
  have hrotated := fun r (hr : r ≠ p) =>
    h.rotated_outside hline (Fin.ofNat 8 (engine.amount d).toNat) hr
  unfold Engine.nextController
  rw [h.moveFeedback_eq phase hline, h.cursor_eq, hinject]
  dsimp only
  rw [hrotated _ haxis1, hrotated _ hamount1]

end Parallel

/-- **One move on both states.**  A move that misses the cell is the same on both, and the cell
stays their only difference. -/
theorem DifferAt.moved {p : Coord} (hp : p.InRange) {δ : U8} {s s' : WorkingStateB}
    (h : DifferAt p.pos δ s s') (hcursor : s.cursor.InRange) {symbol : U8} {domain : Domain}
    {phase : U8} {d d' : MoveDecisionB} (hd : Reads (previewMoveB s symbol domain phase) d)
    (hd' : Reads (previewMoveB s' symbol domain phase) d')
    (hmiss : (engineB.moveTrace s symbol domain phase d).Misses p) :
    engineB.moveTrace s' symbol domain phase d' = engineB.moveTrace s symbol domain phase d ∧
      DifferAt p.pos δ (engineB.moveState s symbol domain phase d)
        (engineB.moveState s' symbol domain phase d') := by
  obtain ⟨hreads, hturns⟩ := hmiss
  obtain ⟨e, he, -, hrange, hlocal⟩ := previewMoveB_local s symbol domain phase
  obtain rfl : e = d := he.unique hd
  have hmisses : ∀ c ∈ e.reads domain phase, c.pos ≠ p.pos := by
    intro c hc hpos
    rw [(hrange c hc).pos_inj hp |>.mp hpos] at hc
    exact hreads hc
  have hsame : Reads (previewMoveB s' symbol domain phase) e := by
    rw [h.eq_withCube]
    exact hlocal s'.cube fun c hc => h.elsewhere c.pos (hmisses c hc)
  obtain rfl : e = d' := hsame.unique hd'
  have hline : ¬ OnLine e.axis s.cursor.pos p.pos := by
    rw [onLine_pos_iff _ hcursor hp]
    exact fun hon => Bool.false_ne_true (hturns.symm.trans hon)
  have hinject : injectSymbolB s' symbol domain = injectSymbolB s symbol domain := by
    rw [h.eq_withCube, injectSymbolB_withCube]
  have hprobes := fun c (hc : c ∈ e.probes.coords) => hmisses c (List.mem_append_left _ hc)
  have haxis1 : e.probes.axisCoord1.pos ≠ p.pos := hprobes _ (by simp [ProbeSet.coords])
  have hamount1 : e.probes.amountCoord1.pos ≠ p.pos := hprobes _ (by simp [ProbeSet.coords])
  have hlanes : engineB.nextController s' e symbol domain phase
      = engineB.nextController s e symbol domain phase :=
    h.lanes_eq hinject haxis1 hamount1 hline
  constructor
  · show engineB.moveTrace s' symbol domain phase e = engineB.moveTrace s symbol domain phase e
    unfold Engine.moveTrace
    rw [hlanes, @DifferAt.moveFeedback_eq _ _ _ _ _ _ engineB e h phase hline, h.cursor_eq,
      h.previousAxis_eq, h.controller_eq, h.symbolIndex_eq]
  · have hafter := h.afterMove e.axis e.amount (engineB.nextController s e symbol domain phase)
    rw [lineShift_of_not_onLine hline] at hafter
    show DifferAt p.pos δ (engineB.moveState s symbol domain phase e)
      (engineB.moveState s' symbol domain phase e)
    unfold Engine.moveState
    rw [hlanes]
    exact hafter

/-- **Two paths with the same inputs**, the first of which misses the cell, are the same moves, and
after every one of them the states differ in the cell alone. -/
theorem agree_of_steps {p : Coord} (hp : p.InRange) {δ : U8}
    {steps steps' : List (MoveTraceB × WorkingStateB)} {s s' w w' : WorkingStateB}
    (h : engineB.Steps s (performed steps) w) (h' : engineB.Steps s' (performed steps') w')
    (hinputs : steps'.map (fun step => step.1.input) = steps.map (fun step => step.1.input))
    (hindex : w'.symbolIndex = w.symbolIndex) (hcursor : s.cursor.InRange)
    (hdiffer : ∀ index, DifferAt p.pos δ { s with symbolIndex := index }
      { s' with symbolIndex := index }) (hmiss : ∀ step ∈ steps, step.1.Misses p) :
    steps'.map Prod.fst = steps.map Prod.fst ∧
      List.Forall₂ (DifferAt p.pos δ) (steps.map Prod.snd) (steps'.map Prod.snd) ∧
      DifferAt p.pos δ w w' := by
  induction steps generalizing steps' s s' with
  | nil =>
    obtain rfl : steps' = [] := List.map_eq_nil_iff.mp hinputs
    cases h with
    | nil _ index =>
      cases h' with
      | nil _ index' =>
        obtain rfl : index' = index := hindex
        exact ⟨rfl, .nil, hdiffer index'⟩
  | cons step steps ih =>
    obtain ⟨move, after⟩ := step
    cases steps' with
    | nil => exact absurd hinputs (by simp)
    | cons step' steps' =>
      obtain ⟨move', after'⟩ := step'
      obtain ⟨hinput, htail⟩ := List.cons.inj hinputs
      obtain ⟨hmiss, hrest⟩ := List.forall_mem_cons.mp hmiss
      change engineB.Steps s (.moved move after :: performed steps) w at h
      change engineB.Steps s' (.moved move' after' :: performed steps') w' at h'
      cases h with
      | @moved _ _ _ index symbol domain phase d preview rest =>
        cases h' with
        | @moved _ _ _ index' symbol' domain' phase' d' preview' rest' =>
          obtain ⟨rfl, rfl, rfl, rfl⟩ := MoveInput.mk.inj hinput
          obtain ⟨hmove, hafter⟩ := (hdiffer index').moved hp hcursor preview preview' hmiss
          obtain ⟨hmoves, hpoints, hend⟩ := ih rest rest' htail (hcursor.advance _ _)
            (fun index => hafter.withIndex index) hrest
          exact ⟨congrArg₂ List.cons hmove hmoves, .cons hafter hpoints, hend⟩

/-- The decisions along a run of moves are won, each for the state before it. -/
def WonAlong : WorkingStateB → List (MoveTraceB × WorkingStateB) → Prop
  | _, [] => True
  | s, step :: steps =>
    step.1.decision.Won { s with symbolIndex := step.1.symbolIndex }
        (injectSymbolB { s with symbolIndex := step.1.symbolIndex } step.1.symbol step.1.domain)
        step.1.domain step.1.phase ∧
      WonAlong step.2 steps

theorem wonAlong_of_steps {steps : List (MoveTraceB × WorkingStateB)} {s w : WorkingStateB}
    (h : engineB.Steps s (performed steps) w) : WonAlong s steps := by
  induction steps generalizing s with
  | nil => exact trivial
  | cons step steps ih =>
    obtain ⟨move, after⟩ := step
    change engineB.Steps s (.moved move after :: performed steps) w at h
    cases h with
    | @moved _ _ _ index symbol domain phase d preview rest =>
      obtain ⟨e, he, hwon, -⟩ := previewMoveB_local { s with symbolIndex := index } symbol domain
        phase
      obtain rfl : e = d := he.unique preview
      exact ⟨hwon, ih rest⟩

/-- The states noted by a machine that has gone through the moves of a path. -/
theorem Machine.points_extended {C D : Type} (m : Machine C D) (w : WorkingStateOf C)
    (accesses : List Coord) (steps : List (MoveTraceOf C D × WorkingStateOf C)) :
    (m.extended w accesses (historyOf true (performed steps))).points
      = (steps.map Prod.snd).reverse ++ m.points := by
  show ((performed steps).map Event.after).reverse ++ m.points = _
  unfold performed
  rw [List.map_map]
  rfl

/-- **The moves of prototype B are won.**  A sequence of symbols appends one move a phase, from any
state whose cursor is in range.  Every move takes the axis with the smaller score, the first where
they tie, and the least amount of the smallest score, where each candidate is scored by the byte
that is probed for it in the state before the move. -/
theorem sequence_moves_are_won (symbols : List U8) (domain : Domain) {moves : ℕ}
    (hmoves : CountOk moves) {m : Machine ControllerStateB MoveDecisionB}
    (hcursor : m.working.cursor.InRange) :
    ∃ m₁ steps, (absorbSequenceB symbols domain moves true).run m = .ok () m₁ ∧
      m₁.trace = m.trace ++ steps.map Prod.fst ∧
      m₁.points = (steps.map Prod.snd).reverse ++ m.points ∧
      steps.map (fun step => step.1.input)
        = sequenceInputs domain moves m.working.symbolIndex symbols ∧
      WonAlong m.working steps := by
  obtain ⟨steps, w, hsteps, -, hinputs, hdoes⟩ :=
    does_absorbSequence engineB_sound symbols domain hmoves hcursor
  obtain ⟨accesses, -, hrun⟩ := hdoes true m rfl
  refine ⟨_, steps, hrun, ?_, m.points_extended w accesses steps, hinputs,
    wonAlong_of_steps hsteps⟩
  rw [← movesOf_performed]
  rfl

/-- Two symbols of two moves each, from the fresh machine. -/
theorem sequence_moves_are_won_fresh :
    ∃ m₁ steps, (absorbSequenceB [0x61, 0x62] .inputForward 2 true).run freshMachineB = .ok () m₁ ∧
      m₁.trace = steps.map Prod.fst ∧ steps.length = 4 ∧ WonAlong freshMachineB.working steps := by
  obtain ⟨m₁, steps, hrun, htrace, -, hinputs, hwon⟩ :=
    sequence_moves_are_won [0x61, 0x62] .inputForward (show CountOk 2 by decide)
      (show freshMachineB.working.cursor.InRange by decide)
  refine ⟨m₁, steps, hrun, htrace, ?_, hwon⟩
  rw [← List.length_map (fun step => step.1.input), hinputs]
  rfl

/-- **A cell that is not read stays.**  Two machines of prototype B whose states differ in the cell
at `p` only.  If none of the moves of a sequence reads `p` or turns its line on the first, the
second appends the very same moves, and after each of them the cell at `p` is still the only
difference. -/
theorem unread_cell_stays {p : Coord} (hp : p.InRange) {δ : U8}
    {m m' : Machine ControllerStateB MoveDecisionB} (hcursor : m.working.cursor.InRange)
    (hdiffer : DifferAt p.pos δ m.working m'.working) (symbols : List U8) (domain : Domain)
    {moves : ℕ} (hmoves : CountOk moves) :
    ∃ m₁ moved, (absorbSequenceB symbols domain moves true).run m = .ok () m₁ ∧
      m₁.trace = m.trace ++ moved ∧
      moved.map MoveTraceOf.input = sequenceInputs domain moves m.working.symbolIndex symbols ∧
      ((∀ move ∈ moved, move.Misses p) →
        ∃ m₁', (absorbSequenceB symbols domain moves true).run m' = .ok () m₁' ∧
          m₁'.trace = m'.trace ++ moved ∧
          (∃ points points', m₁.points = points ++ m.points ∧ m₁'.points = points' ++ m'.points ∧
            List.Forall₂ (DifferAt p.pos δ) points points') ∧
          DifferAt p.pos δ m₁.working m₁'.working) := by
  have hcursor' : m'.working.cursor.InRange := hdiffer.cursor_eq ▸ hcursor
  obtain ⟨steps, w, hsteps, hindex, hinputs, hdoes⟩ :=
    does_absorbSequence engineB_sound symbols domain hmoves hcursor
  obtain ⟨steps', w', hsteps', hindex', hinputs', hdoes'⟩ :=
    does_absorbSequence engineB_sound symbols domain hmoves hcursor'
  obtain ⟨accesses, -, hrun⟩ := hdoes true m rfl
  obtain ⟨accesses', -, hrun'⟩ := hdoes' true m' rfl
  refine ⟨_, steps.map Prod.fst, hrun, ?_, ?_, fun hmiss => ?_⟩
  · rw [← movesOf_performed]
    rfl
  · rw [← hinputs, List.map_map]
    rfl
  -- the two runs take the same inputs, so the moves of the first are those of the second
  have hsame : steps'.map (fun step => step.1.input) = steps.map (fun step => step.1.input) := by
    rw [hinputs, hinputs', hdiffer.symbolIndex_eq]
  have hcount : w'.symbolIndex = w.symbolIndex :=
    hindex'.trans (hdiffer.symbolIndex_eq ▸ hindex.symm)
  obtain ⟨hmoves', hpoints, hend⟩ := agree_of_steps hp hsteps hsteps' hsame hcount hcursor
    hdiffer.withIndex fun step hstep => hmiss _ (List.mem_map_of_mem hstep)
  refine ⟨_, hrun', ?_, ⟨_, _, m.points_extended w accesses steps,
    m'.points_extended w' accesses' steps', List.forall₂_reverse_iff.mpr hpoints⟩, hend⟩
  rw [← hmoves', ← movesOf_performed]
  rfl

/-- The fresh machine of prototype B with one bit of the cell `(7,7,7)` flipped. -/
def flippedMachineB : Machine ControllerStateB MoveDecisionB :=
  { freshMachineB with working := freshMachineB.working.xored (Coord.pos ⟨7, 7, 7⟩) 1 }

/-- The moves of one symbol of two moves miss the cell `(7,7,7)`. -/
theorem unread_cell_stays_fresh :
    ∃ m₁ m₁', (absorbSequenceB [0x61] .inputForward 2 true).run freshMachineB = .ok () m₁ ∧
      (absorbSequenceB [0x61] .inputForward 2 true).run flippedMachineB = .ok () m₁' ∧
      m₁'.trace = m₁.trace ∧ m₁.trace.length = 2 ∧
      DifferAt (Coord.pos ⟨7, 7, 7⟩) 1 m₁.working m₁'.working := by
  obtain ⟨m₁, moved, hrun, htrace, hinputs, hstays⟩ := @unread_cell_stays ⟨7, 7, 7⟩ (by decide) 1
    freshMachineB flippedMachineB (by decide) (differAt_xored _ _ 1) [0x61] .inputForward 2
    (show CountOk 2 by decide)
  -- both moves are recorded in the trace of the first machine, which starts empty
  have hcheck : (match (absorbSequenceB [0x61] .inputForward 2 true).run freshMachineB with
      | .ok _ m => decide (∀ move ∈ m.trace, move.Misses ⟨7, 7, 7⟩)
      | .error _ _ => false) = true := by
    decide +kernel
  rw [hrun] at hcheck
  change m₁.trace = moved at htrace
  obtain ⟨m₁', hrun', htrace', -, hdiffer⟩ := hstays fun move hmove =>
    of_decide_eq_true hcheck move (htrace ▸ hmove)
  refine ⟨m₁, m₁', hrun, hrun', htrace'.trans htrace.symm, ?_, hdiffer⟩
  rw [htrace, ← List.length_map MoveTraceOf.input, hinputs]
  rfl
