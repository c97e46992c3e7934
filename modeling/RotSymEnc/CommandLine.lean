/-
# Command lines

The arguments of a program are byte strings.  This module has the texts they are compared
with, `std::from_chars`, and the options of the domain audit.
-/
import RotSymEnc.Words

/-! ## Texts -/

/-- A `std::string`: bytes, of which a `char` is one. -/
abbrev Text := List U8

/-- The bytes of a literal, all of them ASCII. -/
def text (literal : String) : Text := literal.toList.map fun c => BitVec.ofNat 8 c.toNat

/-- A text inside the text of an exception. -/
def showText (bytes : Text) : String := String.ofList (bytes.map fun b => Char.ofNat b.toNat)

/-! ## Numbers -/

/-- The value of a digit, in a base up to 36. -/
def digitValue (base : ℕ) (c : U8) : Option ℕ :=
  let value :=
    if 48 ≤ c.toNat ∧ c.toNat ≤ 57 then c.toNat - 48
    else if 97 ≤ c.toNat ∧ c.toNat ≤ 122 then c.toNat - 87
    else if 65 ≤ c.toNat ∧ c.toNat ≤ 90 then c.toNat - 55
    else base
  if value < base then some value else none

/-- `std::from_chars` into 64 bits, where the whole text has to be a number. -/
def fromChars (base : ℕ) (argument : Text) : Option ℕ :=
  if argument = [] then none
  else argument.foldlM (fun value c => do
    let next := value * base + (← digitValue base c)
    if next < 2 ^ 64 then some next else none) 0

/-- `parse_size`. -/
def parseSize (argument : Text) : Except Fault ℕ :=
  match fromChars 10 argument with
  | some value => .ok value
  | none => .error (.thrown .invalidArgument ("invalid integer: " ++ showText argument))

/-- `parse_u64`. -/
def parseU64 (argument : Text) : Except Fault U64 :=
  let hexadecimal := argument.length > 2 ∧
    (text "0x" <+: argument ∨ text "0X" <+: argument)
  let digits := if hexadecimal then argument.drop 2 else argument
  match fromChars (if hexadecimal then 16 else 10) digits with
  | some value => .ok (BitVec.ofNat 64 value)
  | none => .error (.thrown .invalidArgument ("invalid u64: " ++ showText digits))

/-! ## The options of the domain audit -/

namespace DomainAudit

/-- `kDefaultSeed`. -/
def kDefaultSeed : U64 := 0x53545245414D4631

/-- `struct Config`. -/
structure Config : Type where
  samples : ℕ := 4096
  walshVariables : ℕ := 12
  walshTrials : ℕ := 2
  seed : U64 := kDefaultSeed

/-- An option: the name of its value, and what the value does. -/
def optionOf (argument : Text) : Option (String × (Text → Config → Except Fault Config)) :=
  if argument = text "--samples" then
    some ("samples", fun value config => do return { config with samples := ← parseSize value })
  else if argument = text "--walsh-variables" then
    some ("walsh variables", fun value config => do
      return { config with walshVariables := ← parseSize value })
  else if argument = text "--walsh-trials" then
    some ("walsh trials", fun value config => do
      return { config with walshTrials := ← parseSize value })
  else if argument = text "--seed" then
    some ("seed", fun value config => do return { config with seed := ← parseU64 value })
  else none

/-- The loop over the arguments. -/
def parseOptions : List Text → Config → Except Fault Config
  | [], config => .ok config
  | argument :: rest, config =>
    match optionOf argument with
    | none => .error (.thrown .invalidArgument ("unknown option: " ++ showText argument))
    | some (name, apply) =>
      match rest with
      | [] => .error (.thrown .invalidArgument ("missing " ++ name))
      | value :: rest => do parseOptions rest (← apply value config)

/-- `parse_config`. -/
def parseConfig (arguments : List Text) : Except Fault Config := do
  let config ← parseOptions arguments {}
  if config.samples < 256 then
    throw (.thrown .invalidArgument "samples must be at least 256")
  if config.walshVariables < 2 ∨ config.walshVariables > 16 then
    throw (.thrown .invalidArgument "walsh variables must be in 2..16")
  if config.walshTrials = 0 then
    throw (.thrown .invalidArgument "walsh trials must be positive")
  return config

/-- **What `parse_config` accepts.** -/
theorem parseConfig_bounds {arguments : List Text} {config : Config}
    (h : parseConfig arguments = .ok config) :
    256 ≤ config.samples ∧ 2 ≤ config.walshVariables ∧ config.walshVariables ≤ 16 ∧
      0 < config.walshTrials := by
  unfold parseConfig at h
  cases hoptions : parseOptions arguments {} with
  | error e =>
    rw [hoptions] at h
    cases h
  | ok parsed =>
    rw [hoptions] at h
    by_cases hsamples : parsed.samples < 256
    · simp only [if_pos hsamples, bind, Except.bind] at h
      cases h
    by_cases hvariables : parsed.walshVariables < 2 ∨ parsed.walshVariables > 16
    · simp only [if_neg hsamples, if_pos hvariables, bind, Except.bind] at h
      cases h
    by_cases htrials : parsed.walshTrials = 0
    · simp only [if_neg hsamples, if_neg hvariables, if_pos htrials, bind, Except.bind] at h
      cases h
    simp only [if_neg hsamples, if_neg hvariables, if_neg htrials, bind, Except.bind] at h
    obtain rfl := Except.ok.inj h
    omega

end DomainAudit
