/-
# The Walsh subspaces of the domain audit

`choose_variables`, `clear_counter_variables` and `apply_walsh_mask` of
`streamframe_domain_audit.cpp`: some bits of the nonce and of the counter are the variables,
and every mask flips those that it selects.  The stream frames of all masks are an affine
subspace, and there is a different one for every mask.
-/
import RotSymEnc.CommandLine
import RotSymEnc.Framing
import RotSymEnc.KeySchedule

/-! ## Variables and masks -/

/-- `enum class VariableKind`. -/
inductive VariableKind : Type where
  | nonce
  | counter
  deriving DecidableEq

/-- `struct Variable`. -/
structure Variable : Type where
  kind : VariableKind
  bit : ℕ
  deriving DecidableEq

/-- `kMaximumPayloadCounter`. -/
def kMaximumPayloadCounter : U64 := (1 <<< 59) - 1

/-- Nonce variables, evenly spaced. -/
def spreadVariables (count : ℕ) : List Variable :=
  (List.range count).map fun index => ⟨.nonce, index * 192 / count⟩

/-- Counter variables, from the low bit on. -/
def lowVariables (count : ℕ) : List Variable :=
  (List.range count).map fun index => ⟨.counter, index⟩

/-- `choose_variables`. -/
def chooseVariables (family : String) (count : ℕ) : Except Fault (List Variable) :=
  if family = "nonce-spread" then .ok (spreadVariables count)
  else if family = "counter-low" then .ok (lowVariables count)
  else if family = "mixed" then
    let nonceCount := count / 2
    let counterCount := count - nonceCount
    .ok (spreadVariables nonceCount ++ lowVariables counterCount)
  else .error (.thrown .logicError "unknown Walsh family")

/-- `clear_counter_variables`. -/
def clearCounterVariables (counter : U64) (chosen : List Variable) : U64 :=
  chosen.foldl (fun counter v =>
    if v.kind = .counter then counter &&& ~~~((1 : U64) <<< v.bit) else counter) counter

/-- A nonce and a counter. -/
structure WalshPoint : Type where
  nonce : Nonce192
  counter : U64

/-- The body of the loop of `apply_walsh_mask` for a selected variable. -/
def flipVariable (point : WalshPoint) (v : Variable) : Except Fault WalshPoint :=
  match v.kind with
  | .nonce =>
    if h : v.bit / 8 < 24 then
      let byte := point.nonce.get ⟨v.bit / 8, h⟩ ^^^ ((1 : U8) <<< (v.bit % 8))
      .ok { point with nonce := point.nonce.set (v.bit / 8) byte h }
    else .error .badAccess
  | .counter => .ok { point with counter := point.counter ^^^ ((1 : U64) <<< v.bit) }

/-- An iteration of the loop of `apply_walsh_mask`. -/
def maskStep (mask : ℕ) (point : WalshPoint) (entry : Variable × ℕ) : Except Fault WalshPoint :=
  if (mask >>> entry.2) &&& 1 = 0 then .ok point else flipVariable point entry.1

/-- `apply_walsh_mask`. -/
def applyWalshMask (point : WalshPoint) (chosen : List Variable) (mask : ℕ) :
    Except Fault WalshPoint :=
  chosen.zipIdx.foldlM (maskStep mask) point

/-- `evaluate_frame`. -/
def evaluateFrame (key : ResearchKey256) (nonce : Nonce192) (counter : U64) (tagSize : TagSize) :
    Except Fault ResearchOutput := do
  let frame ← PvcAead0.frameStreamBlock nonce counter tagSize
  if frame.length ≠ 48 then throw (.thrown .logicError "unexpected StreamFrame size")
  c1 key frame

/-! ## The bits of a point -/

/-- A bit of the nonce or the counter. -/
def WalshPoint.bit (point : WalshPoint) (v : Variable) : Bool :=
  match v.kind with
  | .nonce => (point.nonce[v.bit / 8]?.getD 0).getLsbD (v.bit % 8)
  | .counter => point.counter.getLsbD v.bit

/-- The variable is a bit of the nonce or the counter. -/
def Variable.InRange (v : Variable) : Prop :=
  v.bit < match v.kind with
    | .nonce => 192
    | .counter => 64

/-- A point is its bits. -/
theorem WalshPoint.ext_bit {p q : WalshPoint} (h : ∀ v : Variable, v.InRange → p.bit v = q.bit v) :
    p = q := by
  obtain ⟨nonce, counter⟩ := p
  obtain ⟨nonce', counter'⟩ := q
  have hnonce : nonce = nonce' := by
    refine Vector.ext fun i hi => BitVec.eq_of_getLsbD_eq fun j hj => ?_
    have hbit := h ⟨.nonce, 8 * i + j⟩ (show 8 * i + j < 192 by omega)
    unfold WalshPoint.bit at hbit
    dsimp only at hbit
    rw [show (8 * i + j) / 8 = i by omega, show (8 * i + j) % 8 = j by omega] at hbit
    rw [Vector.getElem?_eq_getElem hi, Vector.getElem?_eq_getElem hi] at hbit
    exact hbit
  have hcounter : counter = counter' :=
    BitVec.eq_of_getLsbD_eq fun j hj => h ⟨.counter, j⟩ hj
  rw [hnonce, hcounter]

theorem getLsbD_one_shiftLeft {w : ℕ} (i j : ℕ) (hi : i < w) :
    ((1 : BitVec w) <<< j).getLsbD i = decide (i = j) := by
  have htwoPow : (1 : BitVec w) <<< j = BitVec.twoPow w j := rfl
  rw [htwoPow, BitVec.getLsbD_twoPow]
  by_cases hij : i = j
  · subst hij
    rw [decide_eq_true hi, Bool.true_and]
  · rw [decide_eq_false hij, decide_eq_false (Ne.symm hij), Bool.and_false]

/-- **Flipping a variable** flips this bit and no other. -/
theorem flipVariable_eq {v : Variable} (h : v.InRange) (point : WalshPoint) :
    ∃ point', flipVariable point v = .ok point' ∧
      ∀ w : Variable, w.InRange → point'.bit w = (point.bit w ^^ decide (w = v)) := by
  obtain ⟨kind, bit⟩ := v
  cases kind with
  | nonce =>
    have hbit : bit < 192 := h
    have hbyte : bit / 8 < 24 := by omega
    refine ⟨_, dif_pos hbyte, ?_⟩
    rintro ⟨kind, other⟩ hother
    cases kind with
    | counter => simp [WalshPoint.bit]
    | nonce =>
      have hother : other < 192 := hother
      unfold WalshPoint.bit
      dsimp only
      rw [Vector.getElem?_eq_getElem (show other / 8 < 24 by omega),
        Vector.getElem?_eq_getElem (show other / 8 < 24 by omega)]
      -- two bits of one byte, or a byte the flip does not touch
      by_cases hsame : bit / 8 = other / 8
      · simp only [← hsame, Vector.getElem_set_self, Option.getD_some, BitVec.getLsbD_xor]
        rw [getLsbD_one_shiftLeft _ _ (Nat.mod_lt _ (by decide))]
        congr 1
        rw [decide_eq_decide, Variable.mk.injEq]
        constructor
        · intro hmod
          exact ⟨rfl, by omega⟩
        · rintro ⟨-, rfl⟩
          rfl
      · rw [Vector.getElem_set_ne _ _ hsame]
        have hne : (⟨.nonce, other⟩ : Variable) ≠ ⟨.nonce, bit⟩ := by
          intro heq
          obtain ⟨-, rfl⟩ := Variable.mk.inj heq
          exact hsame rfl
        rw [decide_eq_false hne, Bool.xor_false]
  | counter =>
    refine ⟨_, rfl, ?_⟩
    rintro ⟨kind, other⟩ hother
    cases kind with
    | nonce => simp [WalshPoint.bit]
    | counter =>
      unfold WalshPoint.bit
      dsimp only
      rw [BitVec.getLsbD_xor, getLsbD_one_shiftLeft _ _ hother]
      congr 1
      rw [decide_eq_decide, Variable.mk.injEq]
      exact ⟨fun heq => ⟨rfl, heq⟩, fun heq => heq.2⟩

/-! ## The bits that a mask flips -/

/-- Whether a mask, from its bit `index` on, flips a bit of the point. -/
def flips (mask : ℕ) (w : Variable) : ℕ → List Variable → Bool
  | _, [] => false
  | index, v :: chosen => (mask.testBit index && decide (w = v)) ^^ flips mask w (index + 1) chosen

theorem flips_zero (w : Variable) (index : ℕ) (chosen : List Variable) :
    flips 0 w index chosen = false := by
  induction chosen generalizing index with
  | nil => rfl
  | cons v chosen ih =>
    unfold flips
    rw [ih, Nat.zero_testBit]
    rfl

/-- What two masks flip together. -/
theorem flips_xor (m m' : ℕ) (w : Variable) (index : ℕ) (chosen : List Variable) :
    flips (m ^^^ m') w index chosen = (flips m w index chosen ^^ flips m' w index chosen) := by
  have hxor : ∀ a b d x y : Bool,
      (((a ^^ b) && d) ^^ (x ^^ y)) = (((a && d) ^^ x) ^^ ((b && d) ^^ y)) := by decide
  induction chosen generalizing index with
  | nil => rfl
  | cons v chosen ih =>
    unfold flips
    rw [ih, Nat.testBit_xor]
    exact hxor _ _ _ _ _

/-- A bit that is no variable is not flipped. -/
theorem flips_of_not_mem {w : Variable} {chosen : List Variable} (h : w ∉ chosen) (mask index : ℕ) :
    flips mask w index chosen = false := by
  induction chosen generalizing index with
  | nil => rfl
  | cons v chosen ih =>
    have hne : w ≠ v := fun heq => h (heq ▸ List.mem_cons_self)
    have hmem : w ∉ chosen := fun hmem => h (List.mem_cons_of_mem v hmem)
    unfold flips
    rw [ih hmem, decide_eq_false hne, Bool.and_false]
    rfl

/-- A variable that occurs once is flipped where the mask selects it. -/
theorem flips_getElem {chosen : List Variable} (h : chosen.Nodup) (mask index i : ℕ)
    (hi : i < chosen.length) : flips mask chosen[i] index chosen = mask.testBit (index + i) := by
  induction chosen generalizing index i with
  | nil => exact absurd hi (Nat.not_lt_zero i)
  | cons v chosen ih =>
    obtain ⟨hmem, hchosen⟩ := List.nodup_cons.mp h
    unfold flips
    cases i with
    | zero =>
      rw [List.getElem_cons_zero, flips_of_not_mem hmem, decide_eq_true rfl, Bool.and_true,
        Bool.xor_false, Nat.add_zero]
    | succ i =>
      have hi' : i < chosen.length := Nat.lt_of_succ_lt_succ hi
      have hne : chosen[i] ≠ v := fun heq => hmem (heq ▸ List.getElem_mem hi')
      rw [List.getElem_cons_succ, ih hchosen (index + 1) i hi', decide_eq_false hne, Bool.and_false,
        Bool.false_xor, Nat.add_right_comm, Nat.add_assoc]

/-- The selection of a mask, as the source tests it. -/
theorem shiftRight_and_one (mask index : ℕ) :
    (mask >>> index) &&& 1 = 0 ↔ mask.testBit index = false := by
  rw [Nat.testBit, Nat.and_comm, bne_eq_false_iff_eq]

/-- The loop, from any index on, flips the selected variables. -/
theorem foldlM_maskStep {chosen : List Variable} (h : ∀ v ∈ chosen, v.InRange)
    (point : WalshPoint) (mask index : ℕ) :
    ∃ point', (chosen.zipIdx index).foldlM (maskStep mask) point = .ok point' ∧
      ∀ w : Variable, w.InRange → point'.bit w = (point.bit w ^^ flips mask w index chosen) := by
  induction chosen generalizing point index with
  | nil => exact ⟨point, rfl, fun w _ => (Bool.xor_false _).symm⟩
  | cons v chosen ih =>
    obtain ⟨hv, hchosen⟩ := List.forall_mem_cons.mp h
    rw [List.zipIdx_cons, List.foldlM_cons]
    unfold flips maskStep
    dsimp only
    by_cases hselected : mask.testBit index = false
    · obtain ⟨point', hrun, hbits⟩ := ih hchosen point (index + 1)
      rw [if_pos ((shiftRight_and_one mask index).mpr hselected)]
      refine ⟨point', hrun, fun w hw => ?_⟩
      rw [hbits w hw, hselected, Bool.false_and, Bool.false_xor]
    · obtain ⟨flipped, hflip, hflipped⟩ := flipVariable_eq hv point
      obtain ⟨point', hrun, hbits⟩ := ih hchosen flipped (index + 1)
      rw [if_neg fun heq => hselected ((shiftRight_and_one mask index).mp heq), hflip]
      refine ⟨point', hrun, fun w hw => ?_⟩
      rw [hbits w hw, hflipped w hw, Bool.eq_true_of_not_eq_false hselected, Bool.true_and,
        Bool.xor_assoc]

/-- **`apply_walsh_mask`** flips the variables that the mask selects. -/
theorem applyWalshMask_eq {chosen : List Variable} (h : ∀ v ∈ chosen, v.InRange)
    (point : WalshPoint) (mask : ℕ) :
    ∃ point', applyWalshMask point chosen mask = .ok point' ∧
      ∀ w : Variable, w.InRange → point'.bit w = (point.bit w ^^ flips mask w 0 chosen) :=
  foldlM_maskStep h point mask 0

/-! ## The chosen variables -/

theorem mem_spreadVariables {count : ℕ} {v : Variable} (h : v ∈ spreadVariables count) :
    v.InRange ∧ v.kind = .nonce := by
  obtain ⟨index, hindex, rfl⟩ := List.mem_map.mp h
  exact ⟨Nat.div_lt_of_lt_mul (Nat.mul_lt_mul_of_pos_right (List.mem_range.mp hindex) (by decide)),
    rfl⟩

theorem mem_lowVariables {count : ℕ} {v : Variable} (h : v ∈ lowVariables count) :
    v.kind = .counter ∧ v.bit < count := by
  obtain ⟨index, hindex, rfl⟩ := List.mem_map.mp h
  exact ⟨rfl, List.mem_range.mp hindex⟩

/-- The spread formula repeats no bit as long as there are bits enough. -/
theorem nodup_spreadVariables {count : ℕ} (h : count ≤ 192) : (spreadVariables count).Nodup := by
  refine List.Nodup.map_on ?_ List.nodup_range
  intro index hindex index' hindex' heq
  obtain ⟨-, hbit⟩ := Variable.mk.inj heq
  have hpos : 0 < count := (Nat.zero_le _).trans_lt (List.mem_range.mp hindex)
  have hstep : ∀ i j, i < j → i * 192 / count < j * 192 / count := by
    intro i j hij
    calc i * 192 / count < (i * 192 + count) / count := by
          rw [Nat.add_div_right _ hpos]
          exact Nat.lt_succ_self _
      _ ≤ j * 192 / count := Nat.div_le_div_right (by omega)
  rcases lt_trichotomy index index' with hlt | rfl | hgt
  · exact absurd hbit (hstep _ _ hlt).ne
  · rfl
  · exact absurd hbit (hstep _ _ hgt).ne'

theorem nodup_lowVariables (count : ℕ) : (lowVariables count).Nodup :=
  List.Nodup.map (fun _ _ heq => (Variable.mk.inj heq).2) List.nodup_range

/-- **Every family chooses distinct bits**, and of the counter low ones only. -/
theorem chooseVariables_spec {family : String} {count : ℕ} (hcount : count ≤ 16)
    {chosen : List Variable} (h : chooseVariables family count = .ok chosen) :
    chosen.length = count ∧ chosen.Nodup ∧ (∀ v ∈ chosen, v.InRange) ∧
      ∀ v ∈ chosen, v.kind = .counter → v.bit < 59 := by
  have hlow : ∀ count' ≤ 16, ∀ v ∈ lowVariables count', v.InRange ∧ v.bit < 59 := by
    intro count' hle v hv
    obtain ⟨hkind, hbit⟩ := mem_lowVariables hv
    obtain ⟨kind, bit⟩ := v
    obtain rfl : kind = .counter := hkind
    have hbit : bit < count' := hbit
    exact ⟨show bit < 64 by omega, show bit < 59 by omega⟩
  unfold chooseVariables at h
  split at h
  · obtain rfl := Except.ok.inj h
    refine ⟨by simp [spreadVariables], nodup_spreadVariables (by omega),
      fun v hv => (mem_spreadVariables hv).1, fun v hv hkind => ?_⟩
    rw [(mem_spreadVariables hv).2] at hkind
    cases hkind
  · split at h
    · obtain rfl := Except.ok.inj h
      exact ⟨by simp [lowVariables], nodup_lowVariables count,
        fun v hv => (hlow count hcount v hv).1, fun v hv _ => (hlow count hcount v hv).2⟩
    · split at h
      · obtain rfl := Except.ok.inj h
        have hle : count - count / 2 ≤ 16 := by omega
        refine ⟨?_, ?_, fun v hv => ?_, fun v hv hkind => ?_⟩
        · rw [List.length_append]
          simp only [spreadVariables, lowVariables, List.length_map, List.length_range]
          omega
        · refine List.nodup_append.mpr ⟨nodup_spreadVariables (by omega), nodup_lowVariables _, ?_⟩
          rintro v hv w hw rfl
          have hkind := (mem_spreadVariables hv).2
          rw [(mem_lowVariables hw).1] at hkind
          cases hkind
        · rcases List.mem_append.mp hv with hv | hv
          · exact (mem_spreadVariables hv).1
          · exact (hlow _ hle v hv).1
        · rcases List.mem_append.mp hv with hv | hv
          · rw [(mem_spreadVariables hv).2] at hkind
            cases hkind
          · exact (hlow _ hle v hv).2
      · cases h

/-! ## Counters -/

/-- Clearing sets no bit. -/
theorem getLsbD_clearCounterVariables {counter : U64} {chosen : List Variable} {i : ℕ}
    (h : counter.getLsbD i = false) : (clearCounterVariables counter chosen).getLsbD i = false := by
  unfold clearCounterVariables
  induction chosen generalizing counter with
  | nil => exact h
  | cons v chosen ih =>
    rw [List.foldl_cons]
    refine ih ?_
    split
    · rw [BitVec.getLsbD_and, h, Bool.false_and]
    · exact h

/-- Without the bits from 59 on a counter is a payload counter. -/
theorem toNat_le_maximum {counter : U64} (h : ∀ i, 59 ≤ i → counter.getLsbD i = false) :
    counter.toNat ≤ 2 ^ 59 - 1 := by
  have hlt : counter.toNat < 2 ^ 59 := Nat.lt_pow_two_of_testBit _ fun i hi => h i hi
  omega

theorem getLsbD_masked (counter : U64) {i : ℕ} (hi : 59 ≤ i) :
    (counter &&& kMaximumPayloadCounter).getLsbD i = false := by
  have hmask : kMaximumPayloadCounter.getLsbD i = false := by
    have hlt : kMaximumPayloadCounter.toNat < 2 ^ i :=
      Nat.lt_of_lt_of_le (by decide : kMaximumPayloadCounter.toNat < 2 ^ 59)
        (Nat.pow_le_pow_right two_pos hi)
    exact Nat.testBit_lt_two_pow hlt
  rw [BitVec.getLsbD_and, hmask, Bool.and_false]

/-! ## Frames -/

/-- Two points, bit by bit. -/
def WalshPoint.xor (p q : WalshPoint) : WalshPoint :=
  ⟨Vector.zipWith (· ^^^ ·) p.nonce q.nonce, p.counter ^^^ q.counter⟩

theorem WalshPoint.bit_xor (p q : WalshPoint) {v : Variable} (hv : v.InRange) :
    (p.xor q).bit v = (p.bit v ^^ q.bit v) := by
  obtain ⟨kind, bit⟩ := v
  cases kind with
  | nonce =>
    have hbit : bit < 192 := hv
    have hbyte : bit / 8 < 24 := by omega
    unfold WalshPoint.bit WalshPoint.xor
    dsimp only
    rw [Vector.getElem?_eq_getElem hbyte, Vector.getElem?_eq_getElem hbyte,
      Vector.getElem?_eq_getElem hbyte, Vector.getElem_zipWith]
    exact BitVec.getLsbD_xor
  | counter => exact BitVec.getLsbD_xor

/-- Two byte strings, byte by byte. -/
def xorFrames (a b : List U8) : List U8 := List.zipWith (· ^^^ ·) a b

theorem xorFrames_append {a a' b b' : List U8} (h : a.length = b.length) :
    xorFrames (a ++ a') (b ++ b') = xorFrames a b ++ xorFrames a' b' :=
  List.zipWith_append h

theorem xorFrames_self_self (a : List U8) : xorFrames (xorFrames a a) a = a := by
  induction a with
  | nil => rfl
  | cons byte a ih =>
    unfold xorFrames at ih ⊢
    rw [List.zipWith_cons_cons, List.zipWith_cons_cons, ih, BitVec.xor_self, BitVec.zero_xor]

theorem length_xorFrames (a b : List U8) : (xorFrames a b).length = min a.length b.length :=
  List.length_zipWith

theorem u64be_xor (a b : U64) : u64be (a ^^^ b) = xorFrames (u64be a) (u64be b) := by
  unfold u64be xorFrames
  rw [List.zipWith_map, List.zipWith_self]
  refine List.map_congr_left fun i _ => ?_
  rw [BitVec.ushiftRight_xor_distrib]
  exact BitVec.setWidth_xor

/-- **The frame of the sum of three points** is the sum of their frames. -/
theorem streamBytes_xor (p q r : WalshPoint) (tagSize : TagSize) :
    PvcAead0.streamBytes ((p.xor q).xor r).nonce ((p.xor q).xor r).counter tagSize
      = xorFrames (xorFrames (PvcAead0.streamBytes p.nonce p.counter tagSize)
          (PvcAead0.streamBytes q.nonce q.counter tagSize))
          (PvcAead0.streamBytes r.nonce r.counter tagSize) := by
  have hnonce : ∀ a b : Nonce192,
      (Vector.zipWith (· ^^^ ·) a b).toList = xorFrames a.toList b.toList := by
    intro a b
    exact Vector.toList_zipWith
  unfold PvcAead0.streamBytes WalshPoint.xor
  dsimp only
  generalize PvcAead0.kMagic ++ [PvcAead0.kSeparator, PvcAead0.kFrameVersion, PvcAead0.kRoleStream,
    PvcAead0.kPrimitiveProfileC1, tagSize.value, PvcAead0.kReserved] = header
  rw [hnonce, hnonce, u64be_xor, u64be_xor]
  rw [xorFrames_append (by simp), xorFrames_append rfl,
    xorFrames_append (by simp [length_xorFrames]),
    xorFrames_append (by simp [length_xorFrames]), xorFrames_self_self]

/-! ## The subspace -/

/-- A point is read off its frame. -/
theorem point_eq_of_streamBytes {p q : WalshPoint} {tagSize : TagSize}
    (h : PvcAead0.streamBytes p.nonce p.counter tagSize
      = PvcAead0.streamBytes q.nonce q.counter tagSize) : p = q := by
  have heq := streamBytes_prefixFree _ (Set.mem_univ (p.nonce, p.counter, tagSize)) _
    (Set.mem_univ (q.nonce, q.counter, tagSize)) [] [] (congrArg (· ++ []) h)
  obtain ⟨nonce, counter⟩ := p
  obtain ⟨nonce', counter'⟩ := q
  obtain ⟨hnonce, hrest⟩ := Prod.mk.inj heq
  obtain rfl : nonce = nonce' := hnonce
  obtain rfl : counter = counter' := (Prod.mk.inj hrest).1
  rfl

section Points

variable {chosen : List Variable} {base : WalshPoint} {points : ℕ → WalshPoint}
  (hbits : ∀ mask (w : Variable), w.InRange →
    (points mask).bit w = (base.bit w ^^ flips mask w 0 chosen))
include hbits

/-- A mask is read off its point, one variable a bit. -/
theorem mask_eq_of_points_eq (hnodup : chosen.Nodup) (hrange : ∀ v ∈ chosen, v.InRange)
    {m m' : ℕ} (hm : m < 2 ^ chosen.length) (hm' : m' < 2 ^ chosen.length)
    (h : points m = points m') : m = m' := by
  refine Nat.eq_of_testBit_eq fun i => ?_
  by_cases hi : i < chosen.length
  · have hbit := hbits m chosen[i] (hrange _ (List.getElem_mem hi))
    rw [h, hbits m' chosen[i] (hrange _ (List.getElem_mem hi)),
      flips_getElem hnodup m 0 i hi, flips_getElem hnodup m' 0 i hi, Nat.zero_add] at hbit
    exact (Bool.xor_right_inj.mp hbit).symm
  · -- beyond the chosen variables neither mask has a bit
    have hle : 2 ^ chosen.length ≤ 2 ^ i := Nat.pow_le_pow_right two_pos (not_lt.mp hi)
    rw [Nat.testBit_lt_two_pow (hm.trans_le hle), Nat.testBit_lt_two_pow (hm'.trans_le hle)]

/-- The points are an affine subspace: the base point cancels in pairs. -/
theorem points_xor (m m' : ℕ) :
    points (m ^^^ m') = ((points m).xor (points m')).xor (points 0) := by
  refine WalshPoint.ext_bit fun v hv => ?_
  rw [WalshPoint.bit_xor _ _ hv, WalshPoint.bit_xor _ _ hv, hbits _ v hv, hbits _ v hv,
    hbits _ v hv, hbits _ v hv, flips_zero, flips_xor]
  cases base.bit v <;> cases flips m v 0 chosen <;> cases flips m' v 0 chosen <;> rfl

end Points

/-- `evaluate_frame` is `c1` on the frame. -/
theorem evaluateFrame_eq {tagSize : TagSize} (h : tagSize.Supported) (key : ResearchKey256)
    (nonce : Nonce192) (counter : U64) :
    evaluateFrame key nonce counter tagSize
      = c1 key (PvcAead0.streamBytes nonce counter tagSize) := by
  unfold evaluateFrame
  rw [PvcAead0.frameStreamBlock_eq h, StatefulRuns.except_ok_bind,
    if_neg (not_not.mpr (PvcAead0.length_streamBytes _ _ _))]

/-- Every family of the audit chooses its variables. -/
theorem exists_chooseVariables {family : String}
    (h : family ∈ ["nonce-spread", "counter-low", "mixed"]) (count : ℕ) :
    ∃ chosen, chooseVariables family count = .ok chosen := by
  unfold chooseVariables
  rcases List.mem_cons.mp h with rfl | h
  · exact ⟨_, rfl⟩
  · rcases List.mem_cons.mp h with rfl | h
    · exact ⟨_, rfl⟩
    · obtain rfl := List.mem_singleton.mp h
      exact ⟨_, rfl⟩

/-- **The Walsh enumeration visits an affine subspace of distinct inputs.**  The frames of the
masks are pairwise different, the frame of a sum of masks is the sum of their frames and the one
of mask 0, and all counters are payload counters; so equal outputs for two masks are outputs of
C1 on two inputs. -/
theorem walsh_subspace {arguments : List Text} {config : DomainAudit.Config}
    (hconfig : DomainAudit.parseConfig arguments = .ok config) {family : String}
    (hfamily : family ∈ ["nonce-spread", "counter-low", "mixed"]) {tagSize : TagSize}
    (hsupported : tagSize.Supported) (baseNonce : Nonce192) (counter : U64) :
    ∃ chosen, chooseVariables family config.walshVariables = .ok chosen ∧
      ∃ (points : ℕ → WalshPoint) (frames : ℕ → List U8),
        (∀ mask, applyWalshMask ⟨baseNonce,
            clearCounterVariables (counter &&& kMaximumPayloadCounter) chosen⟩ chosen mask
              = .ok (points mask) ∧
          (points mask).counter.toNat ≤ 2 ^ 59 - 1 ∧
          PvcAead0.frameStreamBlock (points mask).nonce (points mask).counter tagSize
            = .ok (frames mask)) ∧
        (∀ m < 2 ^ config.walshVariables, ∀ m' < 2 ^ config.walshVariables,
          frames m = frames m' → m = m') ∧
        (∀ m m', frames (m ^^^ m') = xorFrames (xorFrames (frames m) (frames m')) (frames 0)) ∧
        ∀ m < 2 ^ config.walshVariables, ∀ m' < 2 ^ config.walshVariables, m ≠ m' →
          ∀ key output,
            evaluateFrame key (points m).nonce (points m).counter tagSize = .ok output →
            evaluateFrame key (points m').nonce (points m').counter tagSize = .ok output →
            frames m ≠ frames m' ∧ c1 key (frames m) = .ok output ∧
              c1 key (frames m') = .ok output := by
  obtain ⟨-, -, hcount, -⟩ := DomainAudit.parseConfig_bounds hconfig
  obtain ⟨chosen, hchosen⟩ := exists_chooseVariables hfamily config.walshVariables
  obtain ⟨hlength, hnodup, hrange, hlow⟩ := chooseVariables_spec hcount hchosen
  refine ⟨chosen, hchosen, ?_⟩
  generalize hbase : (⟨baseNonce, clearCounterVariables (counter &&& kMaximumPayloadCounter) chosen⟩
    : WalshPoint) = base
  choose points hpoints hbits using applyWalshMask_eq hrange base
  have hinjective : ∀ m < 2 ^ config.walshVariables, ∀ m' < 2 ^ config.walshVariables,
      PvcAead0.streamBytes (points m).nonce (points m).counter tagSize
        = PvcAead0.streamBytes (points m').nonce (points m').counter tagSize → m = m' := by
    intro m hm m' hm' hframe
    rw [← hlength] at hm hm'
    exact mask_eq_of_points_eq hbits hnodup hrange hm hm' (point_eq_of_streamBytes hframe)
  refine ⟨points,
    fun mask => PvcAead0.streamBytes (points mask).nonce (points mask).counter tagSize,
    fun mask => ⟨hpoints mask, toNat_le_maximum fun i hi => ?_,
      PvcAead0.frameStreamBlock_eq hsupported _ _⟩, hinjective, fun m m' => ?_, ?_⟩
  · -- the five top bits of the counter are clear in the base point and never flipped
    rcases Nat.lt_or_ge i 64 with hlt | hge
    · have hbit := hbits mask ⟨.counter, i⟩ hlt
      have hnot : (⟨.counter, i⟩ : Variable) ∉ chosen := fun hmem =>
        absurd (hlow _ hmem rfl) (not_lt.mpr hi)
      have hbaseBit : base.bit ⟨.counter, i⟩ = false := by
        rw [← hbase]
        exact getLsbD_clearCounterVariables (getLsbD_masked counter hi)
      rw [flips_of_not_mem hnot, hbaseBit] at hbit
      exact hbit
    · exact BitVec.getLsbD_of_ge _ _ hge
  · show PvcAead0.streamBytes (points (m ^^^ m')).nonce (points (m ^^^ m')).counter tagSize = _
    rw [points_xor hbits]
    exact streamBytes_xor _ _ _ _
  · intro m hm m' hm' hne key output houtput houtput'
    rw [evaluateFrame_eq hsupported] at houtput houtput'
    exact ⟨fun heq => hne (hinjective m hm m' hm' heq), houtput, houtput'⟩

/-- The twelve variables of the default configuration, half of them in the nonce. -/
theorem walsh_subspace_default :
    ∃ frames : ℕ → List U8, (∀ m < 2 ^ 12, ∀ m' < 2 ^ 12, frames m = frames m' → m = m') ∧
      frames 3 = xorFrames (xorFrames (frames 1) (frames 2)) (frames 0) := by
  have hconfig : DomainAudit.parseConfig [] = .ok {} := rfl
  obtain ⟨-, -, -, frames, -, hinjective, hsum, -⟩ := @walsh_subspace [] {} hconfig "mixed"
    (by decide) .bits256 (by decide) (Vector.replicate 24 0) 0
  exact ⟨frames, hinjective, hsum 1 2⟩
