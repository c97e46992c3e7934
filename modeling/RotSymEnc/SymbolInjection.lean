/-
# Symbol injection

`inject_symbol` updates the four lanes in the order axis, amount, feedback,
transcript, and each update reads only lanes that can be recovered before it is
undone: the injection is a bijection of the lanes, whatever the symbol, and the
symbol itself shows in the axis lane.
-/
import RotSymEnc.Controller
import RotSymEnc.ReversibleWords

open Function ReversibleWords

/-! ## The lanes after an injection -/

/-- `symbol_word`. -/
def symbolWord (symbol : U8) : U16 := u16 symbol ||| (u16 (rotl8 symbol 3) <<< 8)

/-- `domain_word` of `inject_symbol`. -/
def domainWord (domain : Domain) : U16 :=
  u16 (domainCode domain) ||| (u16 (rotl8 (domainCode domain) 5) <<< 8)

/-- `index_fold`. -/
def indexFold (symbolIndex : U64) : U16 :=
  u16 (symbolIndex ^^^ (symbolIndex >>> 16) ^^^ (symbolIndex >>> 32))

/-- `event`. -/
def injectedEvent (symbol : U8) (domain : Domain) : U32 :=
  u32 (symbolWord symbol) ||| (u32 (domainWord domain) <<< 16)

section Lanes

variable (state : WorkingState) (symbol : U8) (domain : Domain)

theorem injectSymbol_axisControl :
    (injectSymbol state symbol domain).axisControl
      = rotl16 (state.controller.axisControl ^^^ symbolWord symbol ^^^ indexFold state.symbolIndex
          ^^^ fold32To16 state.controller.feedback) (3 + (state.symbolIndex &&& 7).toNat)
        + rotl16 (fold64To16 state.controller.transcript)
          (1 + (state.symbolIndex &&& 15).toNat)
        + coordinateWord state.cursor + domainWord domain := rfl

theorem injectSymbol_amountControl :
    (injectSymbol state symbol domain).amountControl
      = rotl16 (state.controller.amountControl + symbolWord symbol + u16 state.symbolIndex)
          (5 + ((state.symbolIndex >>> 1) &&& 7).toNat)
        ^^^ u16 (state.controller.feedback >>> 16)
        ^^^ fold32To16 (rotl32 state.controller.feedback 11)
        ^^^ rotl16 (injectSymbol state symbol domain).axisControl 7
        ^^^ rotl16 (fold64To16 state.controller.transcript)
          (9 + ((symbol ^^^ domainCode domain) &&& 7).toNat)
        ^^^ (domainWord domain + 0x4B39) := rfl

theorem injectSymbol_feedback :
    (injectSymbol state symbol domain).feedback
      = rotl32 (state.controller.feedback ^^^ injectedEvent symbol domain
          ^^^ u32 (coordinateWord state.cursor) ^^^ fold64To32 state.controller.transcript)
          (7 + (state.symbolIndex &&& 15).toNat)
        + u32 (injectSymbol state symbol domain).axisControl * 257
        + u32 (injectSymbol state symbol domain).amountControl * 263 := rfl

theorem injectSymbol_transcript :
    (injectSymbol state symbol domain).transcript
      = rotl64 (state.controller.transcript ^^^ (u64 (injectedEvent symbol domain)
          ||| (u64 (indexFold state.symbolIndex) <<< 32)
          ||| (u64 (coordinateWord state.cursor) <<< 48)))
          (11 + ((domainCode domain ^^^ symbol) &&& 31).toNat)
        + rotl64 ((u64 (injectSymbol state symbol domain).feedback <<< 16)
          ||| u64 (injectSymbol state symbol domain).axisControl) 23
        + u64 (injectSymbol state symbol domain).amountControl * 0x0001000100010001 := rfl

end Lanes

/-! ## Undoing the injection -/

theorem rotl_injective {w : ℕ} (shift : ℕ) : Injective fun value : BitVec w => rotl value shift :=
  rotateLeft_injective (shift % w)

/-- The state with other lanes. -/
def WorkingStateOf.withController {C : Type} (state : WorkingStateOf C) (controller : C) :
    WorkingStateOf C :=
  { state with controller := controller }

/-- The lanes can be recovered from the injected ones, the last updated first. -/
theorem injectSymbol_injective (state : WorkingState) (symbol : U8) (domain : Domain) :
    Injective fun c : ControllerState =>
      injectSymbol (state.withController c) symbol domain := by
  intro c d h
  have haxis := congrArg ControllerState.axisControl h
  have hamount := congrArg ControllerState.amountControl h
  have hfeedback := congrArg ControllerState.feedback h
  have htranscript := congrArg ControllerState.transcript h
  simp only at haxis hamount hfeedback htranscript
  -- the transcript update reads the new feedback, axis and amount lanes
  have ht : c.transcript = d.transcript := by
    rw [injectSymbol_transcript, injectSymbol_transcript, haxis, hamount, hfeedback] at htranscript
    have hrotated := add_const_injective _ (add_const_injective _ htranscript)
    exact xor_const_injective _ (rotl_injective _ hrotated)
  -- the feedback update reads the old transcript and the new axis and amount lanes
  have hf : c.feedback = d.feedback := by
    rw [injectSymbol_feedback, injectSymbol_feedback, haxis, hamount] at hfeedback
    simp only [WorkingStateOf.withController, ht] at hfeedback
    have hrotated := add_const_injective _ (add_const_injective _ hfeedback)
    have hxored := rotl_injective _ hrotated
    exact xor_const_injective _ (xor_const_injective _ (xor_const_injective _ hxored))
  -- the amount update reads the old transcript and feedback and the new axis lane
  have hm : c.amountControl = d.amountControl := by
    rw [injectSymbol_amountControl, injectSymbol_amountControl, haxis] at hamount
    simp only [WorkingStateOf.withController, ht, hf] at hamount
    have hfolds := xor_const_injective _ (xor_const_injective _ (xor_const_injective _ hamount))
    have hrotated := xor_const_injective _ (xor_const_injective _ hfolds)
    exact add_const_injective _ (add_const_injective _ (rotl_injective _ hrotated))
  have ha : c.axisControl = d.axisControl := by
    rw [injectSymbol_axisControl, injectSymbol_axisControl] at haxis
    simp only [WorkingStateOf.withController, ht, hf] at haxis
    have hrotated := add_const_injective _ (add_const_injective _ (add_const_injective _ haxis))
    have hxored := rotl_injective _ hrotated
    exact xor_const_injective _ (xor_const_injective _ (xor_const_injective _ hxored))
  obtain ⟨ca, cm, cf, ct⟩ := c
  obtain ⟨da, dm, df, dt⟩ := d
  simp only at ha hm hf ht
  rw [ha, hm, hf, ht]

/-- The lanes are four words. -/
def laneEquiv : ControllerState ≃ U16 × U16 × U32 × U64 where
  toFun c := (c.axisControl, c.amountControl, c.feedback, c.transcript)
  invFun l := ⟨l.1, l.2.1, l.2.2.1, l.2.2.2⟩
  left_inv _ := rfl
  right_inv _ := rfl

instance : Finite ControllerState := Finite.of_equiv _ laneEquiv.symm

/-- The symbol can be read off its word. -/
theorem symbolWord_injective : Injective symbolWord := by
  intro symbol symbol' h
  apply BitVec.eq_of_getLsbD_eq
  intro i hi
  have hbit := congrArg (fun word : U16 => word.getLsbD i) h
  have hi' : i < 16 := by omega
  simpa [symbolWord, hi, hi'] using hbit

/-- **Symbol injection** is a bijection of the lanes, and the injected axis lanes of
two symbols differ. -/
theorem injectSymbol_bijective :
    (∀ (cursor : Coord) (symbolIndex : U64) (symbol : U8) (domain : Domain) (cube : Cube)
        (previousAxis : Axis),
      Bijective fun c : ControllerState =>
        injectSymbol ⟨cube, cursor, previousAxis, c, symbolIndex⟩ symbol domain) ∧
    ∀ (state : WorkingState) (domain : Domain) (symbol symbol' : U8), symbol ≠ symbol' →
      (injectSymbol state symbol domain).axisControl
        ≠ (injectSymbol state symbol' domain).axisControl := by
  constructor
  · intro cursor symbolIndex symbol domain cube previousAxis
    have hinjective := injectSymbol_injective
      ⟨cube, cursor, previousAxis, ⟨0, 0, 0, 0⟩, symbolIndex⟩ symbol domain
    exact Finite.injective_iff_bijective.mp hinjective
  · intro state domain symbol symbol' hne h
    rw [injectSymbol_axisControl, injectSymbol_axisControl] at h
    have hrotated := add_const_injective _ (add_const_injective _ (add_const_injective _ h))
    have hxored := xor_const_injective _ (xor_const_injective _ (rotl_injective _ hrotated))
    exact hne (symbolWord_injective (const_xor_injective _ hxored))

/-- The symbols 0 and 1, injected into zero lanes. -/
theorem injectSymbol_bijective_zero :
    (0 : U8) ≠ 1 ∧
      (injectSymbol ⟨Cube.perfect, ⟨0, 0, 0⟩, .X, ⟨0, 0, 0, 0⟩, 0⟩ 0 .keyForward).axisControl
        ≠ (injectSymbol ⟨Cube.perfect, ⟨0, 0, 0⟩, .X, ⟨0, 0, 0, 0⟩, 0⟩ 1 .keyForward).axisControl :=
  ⟨by decide, injectSymbol_bijective.2 _ .keyForward 0 1 (by decide)⟩
