/-
# The command line of the MAC

`main.cpp` of PVC-MAC-0 takes options in any order.  It prints the tag of a message, or verifies a
tag given in hexadecimal, and the frame before either when it is asked to.  Verification on the
command line is exact: it accepts the printed tag, in either case of its letters, and nothing else.
-/
import RotSymEnc.HexReaders
import RotSymEnc.ProfileCommand

open StatefulRuns HexReaders

namespace MacCommand

open ProfileCommand (ProgramRun)

/-! ## The readers -/

/-- The exception of `hex_nibble`. -/
def nonHexadecimal : Fault := .thrown .invalidArgument "non-hexadecimal character"

/-- The exception of `parse_hex` for an odd length. -/
def oddLength : Fault := .thrown .invalidArgument "hex input must have even length"

/-- `hex_nibble`, with the exception for a character that is no digit. -/
def hexNibble (invalid : Fault) (c : U8) : Except Fault U32 :=
  if 48 ≤ c.toInt ∧ c.toInt ≤ 57 then .ok (u32 (c - 48))
  else if 97 ≤ c.toInt ∧ c.toInt ≤ 102 then .ok (u32 (c - 97) + 10)
  else if 65 ≤ c.toInt ∧ c.toInt ≤ 70 then .ok (u32 (c - 65) + 10)
  else .error invalid

/-- `parse_hex`. -/
def parseHex (value : Text) : Except Fault (List U8) :=
  readHex (hexNibble nonHexadecimal) oddLength value

/-- `parse_key`. -/
def parseKey (value : Text) : Except Fault ResearchKey256 := do
  let bytes ← parseHex value
  if h : bytes.length = 32 then return ⟨bytes.toArray, by simp [h]⟩
  else throw (.thrown .invalidArgument "--key-hex requires exactly 64 hex characters")

/-- The digits are those of `main.cpp` of the profile. -/
theorem hexNibble_takesDigits (invalid : Fault) : TakesDigits (hexNibble invalid) invalid := by
  have hvalue : ∀ c : U8, hexNibble .badAccess c
      = if IsHexDigit c then .ok ((hexValue c).setWidth 32) else .error .badAccess := by
    decide +kernel
  intro c
  have h := hvalue c
  unfold hexNibble at h ⊢
  split_ifs at h ⊢ <;> first | exact h | rfl

theorem parseHex_of_isHexText {value : Text} (h : IsHexText value) :
    parseHex value = .ok (hexBytes value) :=
  readHex_of_isHexText (by decide) (hexNibble_takesDigits _) h

/-- Every other text throws. -/
theorem parseHex_of_not_isHexText {value : Text} (h : ¬ IsHexText value) :
    ∃ what, parseHex value = .error (.thrown .invalidArgument what) := by
  rcases @readHex_of_not_isHexText _ _ _ (by decide) (hexNibble_takesDigits nonHexadecimal)
    oddLength value h with hrun | hrun
  · exact ⟨_, hrun⟩
  · exact ⟨_, hrun⟩

/-! ## The options -/

/-- The variables of `main` that the options set. -/
structure Options : Type where
  key : Option ResearchKey256 := none
  message : List U8 := []
  context : List U8 := []
  tagBytes : U64 := 32
  verify : Option (List U8) := none
  printFrame : Bool := false
  messageSet : Bool := false
  contextSet : Bool := false

/-- The message is given once. -/
def Options.withMessage (o : Options) (message : Except Fault (List U8)) :
    Except Fault Options := do
  if o.messageSet then throw (.thrown .invalidArgument "message specified more than once")
  return { o with message := ← message, messageSet := true }

/-- The context is given once. -/
def Options.withContext (o : Options) (context : Except Fault (List U8)) :
    Except Fault Options := do
  if o.contextSet then throw (.thrown .invalidArgument "context specified more than once")
  return { o with context := ← context, contextSet := true }

/-- The options with a value, and what the value does. -/
def valueOption (arg : Text) : Option (Text → Options → Except Fault Options) :=
  if arg = text "--key-hex" then
    some fun value o => do return { o with key := some (← parseKey value) }
  else if arg = text "--text" then some fun value o => o.withMessage (.ok value)
  else if arg = text "--message-hex" then some fun value o => o.withMessage (parseHex value)
  else if arg = text "--context" then some fun value o => o.withContext (.ok value)
  else if arg = text "--context-hex" then some fun value o => o.withContext (parseHex value)
  else if arg = text "--tag-bytes" then
    some fun value o => do return { o with tagBytes := BitVec.ofNat 64 (← parseSize value) }
  else if arg = text "--verify-hex" then
    some fun value o => do return { o with verify := some (← parseHex value) }
  else none

/-- The options without a value: `none` is `--help`, which ends the program. -/
def flagOption (arg : Text) (o : Options) : Except Fault (Option Options) :=
  if arg = text "--print-frame" then .ok (some { o with printFrame := true })
  else if arg = text "--help" then .ok none
  else .error (.thrown .invalidArgument ("unknown or incomplete argument: " ++ showText arg))

/-- The loop over the arguments. -/
def parseArguments : List Text → Options → Except Fault (Option Options)
  | [], o => .ok (some o)
  | arg :: rest, o =>
    match valueOption arg, rest with
    | some apply, value :: rest => do parseArguments rest (← apply value o)
    | _, rest => do
      match ← flagOption arg o with
      | some o => parseArguments rest o
      | none => return none

/-! ## The program -/

/-- A run of the program: it prints to `std::cout` and returns the status. -/
abbrev CommandRun := EStateM Fault Text

/-- `std::cout <<`. -/
def print (line : Text) : CommandRun PUnit := modify (· ++ line)

/-- `usage`. -/
def usage : Text :=
  text "PVC-MAC-0 Candidate M1 / v0.2.0 research CLI\n"
    ++ text "Usage:\n"
    ++ text "  pvc-mac0 --key-hex 64HEX [--text TEXT | --message-hex HEX]\n"
    ++ text "           [--context TEXT | --context-hex HEX] [--tag-bytes 16|24|32]\n"
    ++ text "           [--verify-hex HEX] [--print-frame]\n"

/-- The frame, where it is asked for. -/
def showFrame (o : Options) (tagSize : TagSize) : CommandRun PUnit :=
  if o.printFrame then do
    let frame ← lift (PvcMac0.frameMessage o.context o.message tagSize)
    print (text "frame=" ++ toHex frame ++ text "\n")
  else pure ()

/-- The tag is verified, where one is given, and printed where none is. -/
def answer (o : Options) (key : ResearchKey256) (tagSize : TagSize) : CommandRun ℕ :=
  match o.verify with
  | some supplied =>
    if size supplied ≠ o.tagBytes then
      throw (.thrown .invalidArgument "--verify-hex length must match --tag-bytes")
    else do
      let ok ← lift (PvcMac0.verifyTag key o.context o.message supplied).returned
      print (text (if ok then "VALID\n" else "INVALID\n"))
      return if ok then 0 else 2
  | none => do
    let tag ← lift (PvcMac0.computeTag key o.context o.message tagSize).returned
    print (text "tag=" ++ toHex tag ++ text "\n")
    return 0

/-- `main`, from the options on. -/
def perform (o : Options) : CommandRun ℕ :=
  match o.key with
  | none => throw (.thrown .invalidArgument "--key-hex is required")
  | some key => do
    let tagSize ← lift (PvcMac0.tagSizeFromBytes o.tagBytes)
    showFrame o tagSize
    answer o key tagSize

/-- The body of `main`. -/
def command (arguments : List Text) : CommandRun ℕ := do
  match ← lift (parseArguments arguments {}) with
  | none => do
    print usage
    return 0
  | some o => perform o

/-- What a run of the body shows: a thrown exception is printed, and ends with the status 1. -/
def shown : EStateM.Result Fault Text ℕ → Except Fault ProgramRun
  | .ok status out => .ok ⟨out, [], status⟩
  | .error (.thrown _ what) out => .ok ⟨out, text "error: " ++ text what ++ text "\n", 1⟩
  | .error fault _ => .error fault

/-- `main`. -/
def main (argv : List Text) : Except Fault ProgramRun := shown ((command argv.tail).run [])

/-! ## Options given later -/

/-- A flag is not an option with a value. -/
theorem valueOption_of_flagOption {arg : Text} {o : Options} {o' : Option Options}
    (h : flagOption arg o = .ok o') : valueOption arg = none := by
  unfold flagOption at h
  split_ifs at h with hframe hhelp
  · subst hframe
    decide +kernel
  · subst hhelp
    decide +kernel

/-- An option takes the next argument. -/
theorem parseArguments_value {arg : Text} {apply : Text → Options → Except Fault Options}
    (h : valueOption arg = some apply) (value : Text) (rest : List Text) (o : Options) :
    parseArguments (arg :: value :: rest) o = apply value o >>= parseArguments rest :=
  parseArguments.eq_2 o arg apply value rest h

/-- Where a flag is read, the loop goes on behind it. -/
theorem exists_of_parseArguments_flag {arg : Text} {rest : List Text} {o : Options}
    {result : Option Options}
    (hnone : ∀ apply value more, valueOption arg = some apply → rest = value :: more → False)
    (h : parseArguments (arg :: rest) o = .ok result) :
    ∃ flagged, flagOption arg o = .ok flagged ∧ valueOption arg = none ∧
      ∀ more o', flagged = some o' → parseArguments (arg :: more) o = parseArguments more o' := by
  have hflag : ∃ flagged, flagOption arg o = .ok flagged := by
    rw [parseArguments.eq_3 _ _ _ hnone] at h
    obtain ⟨flagged, hflagged, -⟩ := exists_of_except_bind h
    exact ⟨flagged, hflagged⟩
  obtain ⟨flagged, hflagged⟩ := hflag
  have hvalue := valueOption_of_flagOption hflagged
  refine ⟨flagged, hflagged, hvalue, fun more o' ho' => ?_⟩
  subst ho'
  rw [parseArguments.eq_3 _ _ _ fun apply value more happly => by simp [hvalue] at happly, hflagged,
    except_ok_bind]

/-- **Arguments behind others**: where the first ones are complete, the loop goes on with the rest
from the options they set. -/
theorem parseArguments_append {args : List Text} (extra : List Text) {o o' : Options}
    (h : parseArguments args o = .ok (some o')) :
    parseArguments (args ++ extra) o = parseArguments extra o' := by
  induction args, o using parseArguments.induct with
  | case1 o =>
    obtain rfl : o = o' := Option.some.inj (Except.ok.inj h)
    rfl
  | case2 arg o apply value rest happly ih =>
    rw [parseArguments_value happly] at h
    obtain ⟨o₁, ho₁, hrest⟩ := exists_of_except_bind h
    show parseArguments (arg :: value :: (rest ++ extra)) o = _
    rw [parseArguments_value happly, ho₁, except_ok_bind]
    exact ih o₁ hrest
  | case3 arg o rest hnone ih =>
    obtain ⟨flagged, hflag, hvalue, hstep⟩ := exists_of_parseArguments_flag hnone h
    cases flagged with
    | some o₁ =>
      rw [hstep rest o₁ rfl] at h
      show parseArguments (arg :: (rest ++ extra)) o = _
      rw [hstep (rest ++ extra) o₁ rfl]
      exact ih o₁ h
    | none =>
      rw [parseArguments.eq_3 _ _ _ hnone, hflag, except_ok_bind] at h
      cases h

theorem parseArguments_verify (value : Text) (o : Options) :
    parseArguments [text "--verify-hex", value] o
      = parseHex value >>= fun supplied => .ok (some { o with verify := some supplied }) := by
  have hvalue : valueOption (text "--verify-hex")
      = some fun value o => do return { o with verify := some (← parseHex value) } := by
    simp only [valueOption]
    rfl
  rw [parseArguments_value hvalue]
  cases parseHex value <;> rfl

/-! ## What a run prints -/

/-- The line of the frame. -/
def frameLine (o : Options) (framed : List U8) : Text :=
  if o.printFrame then text "frame=" ++ toHex framed ++ text "\n" else []

section Perform

variable {o : Options} {key : ResearchKey256} {tagSize : TagSize} {framed : List U8}

theorem main_of_options {program : Text} {args : List Text}
    (ho : parseArguments args {} = .ok (some o)) :
    main (program :: args) = shown ((perform o).run []) := by
  show shown ((command args).run []) = _
  unfold command
  rw [ho, run_bind_of_ok (lift_ok_run _ _)]

theorem showFrame_run (hframe : PvcMac0.frameMessage o.context o.message tagSize = .ok framed) :
    (showFrame o tagSize).run [] = .ok () (frameLine o framed) := by
  unfold showFrame frameLine
  by_cases hprint : o.printFrame = true
  · rw [if_pos hprint, if_pos hprint, hframe, run_bind_of_ok (lift_ok_run _ _)]
    rfl
  · rw [if_neg hprint, if_neg hprint]
    rfl

/-- **A complete request** is answered behind the line of the frame. -/
theorem perform_run (hkey : o.key = some key)
    (hsize : PvcMac0.tagSizeFromBytes o.tagBytes = .ok tagSize)
    (hframe : PvcMac0.frameMessage o.context o.message tagSize = .ok framed) :
    (perform o).run [] = (answer o key tagSize).run (frameLine o framed) := by
  unfold perform
  rw [hkey, hsize]
  dsimp only
  rw [run_bind_of_ok (lift_ok_run _ _), run_bind_of_ok (showFrame_run hframe)]

/-- The profile that the option `--tag-bytes` selects. -/
theorem supported_of_tagSizeFromBytes {bytes : U64}
    (h : PvcMac0.tagSizeFromBytes bytes = .ok tagSize) :
    tagSize.Supported ∧ bytes = tagSizeBytes tagSize := by
  unfold PvcMac0.tagSizeFromBytes tagSizeOfBytes at h
  split_ifs at h with h16 h24 h32
  · obtain rfl := Except.ok.inj h
    exact ⟨by decide, h16⟩
  · obtain rfl := Except.ok.inj h
    exact ⟨by decide, h24⟩
  · obtain rfl := Except.ok.inj h
    exact ⟨by decide, h32⟩

/-- A tag is printed only where the request is complete. -/
theorem exists_of_perform (hverify : o.verify = none) {status : ℕ} {out : Text}
    (h : (perform o).run [] = .ok status out) : ∃ key tagSize framed, o.key = some key ∧
      PvcMac0.tagSizeFromBytes o.tagBytes = .ok tagSize ∧
      PvcMac0.frameMessage o.context o.message tagSize = .ok framed := by
  cases hkey : o.key with
  | none =>
    unfold perform at h
    rw [hkey] at h
    cases h
  | some key =>
    unfold perform at h
    rw [hkey] at h
    obtain ⟨tagSize, out₁, hsize, h⟩ := exists_of_run_bind h
    obtain ⟨⟨⟩, out₂, -, h⟩ := exists_of_run_bind h
    unfold answer at h
    rw [hverify] at h
    obtain ⟨tag, out₃, htag, -⟩ := exists_of_run_bind h
    refine ⟨key, tagSize, ?_⟩
    cases hframe : PvcMac0.frameMessage o.context o.message tagSize with
    | ok framed => exact ⟨framed, rfl, eq_ok_of_lift_run hsize, rfl⟩
    | error fault =>
      rw [PrfRun.returned_of_error (PvcMac0.computeTag_run_of_error hframe key [])] at htag
      cases htag

/-- **Without a tag to verify** the tag is printed. -/
theorem answer_tag (hverify : o.verify = none) (hsupported : tagSize.Supported)
    (hframe : PvcMac0.frameMessage o.context o.message tagSize = .ok framed)
    (key : ResearchKey256) (out : Text) :
    (answer o key tagSize).run out = .ok 0
      (out ++ (text "tag=" ++ toHex (PvcMac0.tagBytes key framed tagSize) ++ text "\n")) := by
  unfold answer
  rw [hverify, PrfRun.returned_of_ok (PvcMac0.computeTag_run hsupported hframe key [])]
  rfl

theorem toNat_tagSizeBytes (h : tagSize.Supported) :
    (tagSizeBytes tagSize).toNat = tagSize.value.toNat := by
  rcases h with rfl | rfl | rfl <;> rfl

/-- **With a tag to verify** the answer says whether it is the one that would be printed. -/
theorem answer_verify {supplied : List U8} (hverify : o.verify = some supplied)
    (hlength : supplied.length < 2 ^ 64) (hsupported : tagSize.Supported)
    (hbytes : o.tagBytes = tagSizeBytes tagSize)
    (hframe : PvcMac0.frameMessage o.context o.message tagSize = .ok framed)
    (key : ResearchKey256) (out : Text) :
    (answer o key tagSize).run out =
      if supplied.length ≠ tagSize.value.toNat then
        .error (.thrown .invalidArgument "--verify-hex length must match --tag-bytes") out
      else if supplied = PvcMac0.tagBytes key framed tagSize then .ok 0 (out ++ text "VALID\n")
      else .ok 2 (out ++ text "INVALID\n") := by
  have hsize : size supplied = o.tagBytes ↔ supplied.length = tagSize.value.toNat := by
    rw [hbytes, ← BitVec.toNat_inj, toNat_size hlength, toNat_tagSizeBytes hsupported]
  unfold answer
  rw [hverify]
  dsimp only
  by_cases hmatch : supplied.length = tagSize.value.toNat
  · have hprofile : tagSizeOfLength supplied.length = tagSize := by
      rw [hmatch, tagSizeOfLength_toNat]
    have hrun := @PvcMac0.verifyTag_run o.context o.message supplied
      (hmatch ▸ hsupported.tagLength) framed (hprofile.symm ▸ hframe) key []
    rw [hprofile] at hrun
    rw [if_neg (not_not.mpr (hsize.mpr hmatch)), if_neg (not_not.mpr hmatch),
      PrfRun.returned_of_ok hrun]
    by_cases hequal : supplied = PvcMac0.tagBytes key framed tagSize
    · rw [if_pos hequal, decide_eq_true hequal]
      rfl
    · rw [if_neg hequal, decide_eq_false hequal]
      rfl
  · rw [if_pos (mt hsize.mp hmatch), if_pos hmatch]
    rfl

end Perform

/-- The bytes of a text are those of a written one exactly where the texts agree up to case. -/
theorem hexBytes_eq_iff {value : Text} (h : IsHexText value) (bytes : List U8) :
    hexBytes value = bytes ↔ value.map tolower = toHex bytes := by
  rw [← toHex_hexBytes h]
  constructor
  · intro heq
    rw [heq]
  · intro heq
    rw [← hexBytes_toHex bytes, ← heq, hexBytes_toHex]

theorem length_eq_toHex_iff {value : Text} (h : IsHexText value) (bytes : List U8) :
    value.length = (toHex bytes).length ↔ (hexBytes value).length = bytes.length := by
  have heven := h.1
  rw [length_toHex, length_hexBytes]
  omega

/-- A run of the program that ends with the status 0 has not thrown. -/
theorem exists_of_shown {result : EStateM.Result Fault Text ℕ} {run : ProgramRun}
    (h : shown result = .ok run) (hstatus : run.status = 0) :
    ∃ status out, result = .ok status out := by
  cases result with
  | ok status out => exact ⟨status, out, rfl⟩
  | error fault out =>
    cases fault with
    | thrown cls what =>
      obtain rfl := Except.ok.inj h
      cases hstatus
    | badAccess => cases h
    | badEnumerator => cases h

section Verify

variable {program : Text} {args : List Text} {o : Options}
  (ho : parseArguments args {} = .ok (some o)) {value : Text}

include ho

/-- A tag to verify behind the other arguments: the options are the same but for it. -/
theorem main_verify (hhex : IsHexText value) (hvalue : value.length < 2 ^ 64)
    {key : ResearchKey256} {tagSize : TagSize} {framed : List U8} (hkey : o.key = some key)
    (hsize : PvcMac0.tagSizeFromBytes o.tagBytes = .ok tagSize)
    (hframe : PvcMac0.frameMessage o.context o.message tagSize = .ok framed) :
    main (program :: (args ++ [text "--verify-hex", value])) = shown
      (if (hexBytes value).length ≠ tagSize.value.toNat then
        .error (.thrown .invalidArgument "--verify-hex length must match --tag-bytes")
          (frameLine o framed)
      else if hexBytes value = PvcMac0.tagBytes key framed tagSize then
        .ok 0 (frameLine o framed ++ text "VALID\n")
      else .ok 2 (frameLine o framed ++ text "INVALID\n")) := by
  obtain ⟨hsupported, hbytes⟩ := supported_of_tagSizeFromBytes hsize
  have hargs := parseArguments_append [text "--verify-hex", value] ho
  rw [parseArguments_verify, parseHex_of_isHexText hhex, except_ok_bind] at hargs
  have hbound : (hexBytes value).length < 2 ^ 64 := by
    rw [length_hexBytes]
    omega
  have hperform := @perform_run { o with verify := some (hexBytes value) } key tagSize framed hkey
    hsize hframe
  have hanswer := @answer_verify { o with verify := some (hexBytes value) } tagSize framed _ rfl
    hbound hsupported hbytes hframe key (frameLine o framed)
  rw [@main_of_options _ program _ hargs, hperform]
  exact congrArg shown hanswer

/-- A tag to verify that cannot be read ends the program before anything is printed. -/
theorem main_verify_of_not_isHexText (hhex : ¬ IsHexText value) : ∃ what,
    main (program :: (args ++ [text "--verify-hex", value]))
      = .ok ⟨[], text "error: " ++ text what ++ text "\n", 1⟩ := by
  obtain ⟨what, hthrown⟩ := parseHex_of_not_isHexText hhex
  have hargs := parseArguments_append [text "--verify-hex", value] ho
  rw [parseArguments_verify, hthrown] at hargs
  refine ⟨what, ?_⟩
  show shown ((command (args ++ [text "--verify-hex", value])).run []) = _
  unfold command
  rw [hargs]
  rfl

end Verify

/-- **Verification on the command line is exact.**  Let a list of arguments be read, without a tag
to verify, and let the program end with the status 0.  Then it has printed the line of the frame,
where that is asked for, and the tag.  With the arguments `--verify-hex VALUE` behind the others,
it accepts `VALUE` where that is the printed tag up to the case of its letters; it rejects every
other text of as many digits with the status 2; and everything else ends with an error. -/
theorem verify_accepts_exactly {program : Text} {args : List Text} {o : Options}
    (ho : parseArguments args {} = .ok (some o)) (hverify : o.verify = none) {run : ProgramRun}
    (hrun : main (program :: args) = .ok run) (hstatus : run.status = 0) :
    ∃ frame tag : Text, IsHexText tag ∧ tag.map tolower = tag ∧
      tag.length = 2 * o.tagBytes.toNat ∧
      run = ⟨frame ++ (text "tag=" ++ tag ++ text "\n"), [], 0⟩ ∧
      ∀ value : Text, value.length < 2 ^ 64 →
        (IsHexText value → value.length = tag.length →
          main (program :: (args ++ [text "--verify-hex", value]))
            = .ok (if value.map tolower = tag then ⟨frame ++ text "VALID\n", [], 0⟩
              else ⟨frame ++ text "INVALID\n", [], 2⟩)) ∧
        (IsHexText value → value.length ≠ tag.length →
          main (program :: (args ++ [text "--verify-hex", value])) = .ok ⟨frame,
            text "error: " ++ text "--verify-hex length must match --tag-bytes" ++ text "\n", 1⟩) ∧
        (¬ IsHexText value → ∃ what,
          main (program :: (args ++ [text "--verify-hex", value]))
            = .ok ⟨[], text "error: " ++ text what ++ text "\n", 1⟩) := by
  have hmain := @main_of_options o program args ho
  obtain ⟨status, out, hperform⟩ := exists_of_shown (hmain.symm.trans hrun) hstatus
  obtain ⟨key, tagSize, framed, hkey, hsize, hframe⟩ := exists_of_perform hverify hperform
  obtain ⟨hsupported, hbytes⟩ := supported_of_tagSizeFromBytes hsize
  have htag := answer_tag hverify hsupported hframe key (frameLine o framed)
  rw [← perform_run hkey hsize hframe] at htag
  have hlength := PvcMac0.length_tagBytes key framed hsupported
  refine ⟨frameLine o framed, toHex (PvcMac0.tagBytes key framed tagSize), isHexText_toHex _, ?_,
    ?_, ?_, fun value hvalue => ?_⟩
  · rw [← toHex_hexBytes (isHexText_toHex _), hexBytes_toHex]
  · rw [length_toHex, hlength, hbytes, toNat_tagSizeBytes hsupported]
  · rw [hmain, htag] at hrun
    exact (Except.ok.inj hrun).symm
  refine ⟨fun hhex hlen => ?_, fun hhex hlen => ?_, main_verify_of_not_isHexText ho⟩
  · have hhalf := (length_eq_toHex_iff hhex _).mp hlen
    rw [main_verify ho hhex hvalue hkey hsize hframe, if_neg (not_not.mpr (hhalf.trans hlength))]
    by_cases hequal : hexBytes value = PvcMac0.tagBytes key framed tagSize
    · rw [if_pos hequal, if_pos ((hexBytes_eq_iff hhex _).mp hequal)]
      rfl
    · rw [if_neg hequal, if_neg (mt (hexBytes_eq_iff hhex _).mpr hequal)]
      rfl
  · have hhalf := mt (length_eq_toHex_iff hhex _).mpr hlen
    rw [main_verify ho hhex hvalue hkey hsize hframe, if_pos (hlength ▸ hhalf)]
    rfl

/-- The arguments of a text under the key of zeros, with the smallest tag and the frame. -/
def textArguments : List Text :=
  [text "--text", text "abc", text "--print-frame", text "--tag-bytes", text "16",
    text "--key-hex", List.replicate 64 48]

/-- The options those arguments set. -/
def textOptions : Options where
  key := some (Vector.replicate 32 0)
  message := text "abc"
  tagBytes := 16
  printFrame := true
  messageSet := true

theorem parseArguments_textArguments : parseArguments textArguments {} = .ok (some textOptions) :=
  rfl

/-- The printed tag is accepted. -/
theorem verify_accepts_exactly_text :
    ∃ frame tag : Text,
      main (text "pvc-mac0" :: textArguments)
        = .ok ⟨frame ++ (text "tag=" ++ tag ++ text "\n"), [], 0⟩ ∧
      main (text "pvc-mac0" :: (textArguments ++ [text "--verify-hex", tag]))
        = .ok ⟨frame ++ text "VALID\n", [], 0⟩ := by
  have hsupported : TagSize.bits128.Supported := by decide
  have hframe := @PvcMac0.frameMessage_eq [] (text "abc") .bits128 hsupported (by decide)
  have hperform := (@perform_run textOptions _ .bits128 _ rfl rfl hframe).trans
    (answer_tag rfl hsupported hframe (Vector.replicate 32 0) _)
  have hmain := (@main_of_options _ (text "pvc-mac0") _ parseArguments_textArguments).trans
    (congrArg shown hperform)
  obtain ⟨frame, tag, hhex, hlower, hlength, hrun, hverify⟩ :=
    verify_accepts_exactly parseArguments_textArguments rfl hmain rfl
  have hshort : tag.length < 2 ^ 64 := hlength ▸ by decide
  refine ⟨frame, tag, hmain.trans (congrArg Except.ok hrun), ?_⟩
  rw [(hverify tag hshort).1 hhex rfl, if_pos hlower]

end MacCommand
