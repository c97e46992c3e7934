/-
# Two command lines, one protocol

The reference implementation has a command line of its own, an earlier copy of the profile's.  It
looks at the arguments in another order and prints another usage text, but whatever the arguments,
the two programs print the same to `std::cout` and end with the same status.  So what one of them
seals, the other opens.
-/
import RotSymEnc.ProfileCommand

open StatefulRuns

namespace CandidateCommand

open ProfileCommand (ProgramRun)
open PvcAead0 (KeyPair512 sealMessage openMessage)

/-! ## The program -/

/-- `parse_tag_size`. -/
def parseTagSize (value : Text) : Except Fault TagSize :=
  if value = text "128" then .ok .bits128
  else if value = text "192" then .ok .bits192
  else if value = text "256" then .ok .bits256
  else .error (.thrown .invalidArgument "tag bits must be 128, 192, or 256")

/-- `usage`, and the status 2. -/
def usage : ProgramRun where
  out := []
  err := text "seal: pvc-aead0 seal ENC_KEY_HEX MAC_KEY_HEX NONCE_HEX TAG_BITS AD_HEX "
    ++ text "PLAINTEXT_HEX\n"
    ++ text "open: pvc-aead0 open ENC_KEY_HEX MAC_KEY_HEX NONCE_HEX AD_HEX CIPHERTEXT_HEX TAG_HEX\n"
  status := 2

/-- What `seal` prints. -/
def printSealed (sealed : SealedMessage) : ProgramRun where
  out := text "ciphertext=" ++ toHex sealed.ciphertext ++ text "\n" ++ text "tag="
    ++ toHex sealed.tag ++ text "\n"
  err := []
  status := 0

/-- The command `seal` of `main`: the tag size is read before the texts. -/
def sealCommand (encKey macKey nonce tagBits ad plaintext : Text) : Except Fault ProgramRun := do
  let encryptionKey ← fixedHex 32 encKey "encryption key"
  let authenticationKey ← fixedHex 32 macKey "authentication key"
  let keys : KeyPair512 := ⟨encryptionKey, authenticationKey⟩
  let nonce ← fixedHex 24 nonce "nonce"
  let tagSize ← parseTagSize tagBits
  let ad ← fromHex ad
  let plaintext ← fromHex plaintext
  let sealed ← (sealMessage keys nonce ad plaintext tagSize).returned
  return printSealed sealed

/-- The command `open` of `main`. -/
def openCommand (encKey macKey nonce ad ciphertext tag : Text) : Except Fault ProgramRun := do
  let encryptionKey ← fixedHex 32 encKey "encryption key"
  let authenticationKey ← fixedHex 32 macKey "authentication key"
  let keys : KeyPair512 := ⟨encryptionKey, authenticationKey⟩
  let nonce ← fixedHex 24 nonce "nonce"
  let ad ← fromHex ad
  let ciphertext ← fromHex ciphertext
  let tag ← fromHex tag
  match ← (openMessage keys nonce ad ciphertext tag).returned with
  | none => return { out := text "authentication=failed\n", err := [], status := 1 }
  | some plaintext =>
    return {
      out := text "authentication=ok\nplaintext=" ++ toHex plaintext ++ text "\n"
      err := []
      status := 0 }

/-- The body of `main`. -/
def dispatch (argv : List Text) : Except Fault ProgramRun :=
  match argv with
  | _ :: command :: arguments =>
    if command = text "seal" then
      match arguments with
      | [encKey, macKey, nonce, tagBits, ad, plaintext] =>
        sealCommand encKey macKey nonce tagBits ad plaintext
      | _ => .ok usage
    else if command = text "open" then
      match arguments with
      | [encKey, macKey, nonce, ad, ciphertext, tag] =>
        openCommand encKey macKey nonce ad ciphertext tag
      | _ => .ok usage
    else .ok usage
  | _ => .ok usage

/-- `main`: a thrown exception is printed, and ends with the status 1. -/
def main (argv : List Text) : Except Fault ProgramRun :=
  match dispatch argv with
  | .error (.thrown _ what) => .ok { out := [], err := text what ++ text "\n", status := 1 }
  | result => result

/-! ## Agreement -/

/-- Two bodies agree: they throw both, or show the same but for the usage texts, which both go to
`std::cerr`. -/
inductive Agree : Except Fault ProgramRun → Except Fault ProgramRun → Prop
  | refl (x : Except Fault ProgramRun) : Agree x x
  | thrown (cls cls' : ExceptionClass) (what what' : String) :
      Agree (.error (.thrown cls what)) (.error (.thrown cls' what'))
  | usage : Agree (.ok ProfileCommand.usage) (.ok usage)

section Agree

variable {α β : Type}

/-- What both compute first does not matter. -/
theorem Agree.bind (x : Except Fault α) {f g : α → Except Fault ProgramRun}
    (h : ∀ a, Agree (f a) (g a)) : Agree (x >>= f) (x >>= g) := by
  cases x with
  | ok a => exact h a
  | error fault => exact .refl _

/-- A decision that throws nothing but exceptions. -/
def OnlyThrows (x : Except Fault α) : Prop :=
  ∀ fault, x = .error fault → ∃ cls what, fault = .thrown cls what

/-- **Two decisions may change places**, where they throw nothing but exceptions. -/
theorem OnlyThrows.swap {x : Except Fault α} {y : Except Fault β} (hx : OnlyThrows x)
    (hy : OnlyThrows y) {f g : α → β → Except Fault ProgramRun}
    (h : ∀ a b, y = .ok b → Agree (f a b) (g a b)) :
    Agree (x >>= fun a => y >>= f a) (y >>= fun b => x >>= fun a => g a b) := by
  cases x with
  | ok a =>
    cases y with
    | ok b => exact h a b rfl
    | error fault => exact .refl _
  | error fault =>
    obtain ⟨cls, what, rfl⟩ := hx fault rfl
    cases y with
    | ok b => exact .refl _
    | error fault' =>
      obtain ⟨cls', what', rfl⟩ := hy fault' rfl
      exact .thrown cls cls' what what'

theorem OnlyThrows.bind {x : Except Fault α} {f : α → Except Fault β} (hx : OnlyThrows x)
    (hf : ∀ a, OnlyThrows (f a)) : OnlyThrows (x >>= f) := by
  intro fault h
  cases x with
  | ok a => exact hf a fault h
  | error fault' => exact hx fault (congrArg Except.error (Except.error.inj h))

theorem onlyThrows_pure (a : α) : OnlyThrows (pure a : Except Fault α) := by
  intro fault h
  cases h

theorem onlyThrows_fromHex (value : Text) : OnlyThrows (fromHex value) := by
  intro fault h
  by_cases hhex : IsHexText value
  · rw [fromHex_of_isHexText hhex] at h
    cases h
  · obtain ⟨what, hrun⟩ := fromHex_of_not_isHexText hhex
    rw [hrun] at h
    exact ⟨_, what, (Except.error.inj h).symm⟩

theorem onlyThrows_tagSize (value : Text) : OnlyThrows (ProfileCommand.tagSize value) := by
  intro fault h
  unfold ProfileCommand.tagSize at h
  split_ifs at h
  exact ⟨_, _, (Except.error.inj h).symm⟩

end Agree

/-- The profile seals as the reference implementation does, for the sizes the command line names. -/
theorem sealMessage_returned_eq {bits : Text} {tagSize : TagSize}
    (h : ProfileCommand.tagSize bits = .ok tagSize) (keys : KeyPair512) (nonce : Nonce192)
    (ad plaintext : List U8) :
    (PvcRotSymEnc1.sealMessage ⟨keys.encryptionKey, keys.authenticationKey⟩ nonce ad plaintext
      tagSize).returned = (sealMessage keys nonce ad plaintext tagSize).returned := by
  have hsupported : tagSize.Supported := by
    unfold ProfileCommand.tagSize at h
    split_ifs at h <;> (obtain rfl := Except.ok.inj h; decide)
  unfold PvcRotSymEnc1.sealMessage PvcRotSymEnc1.toA1TagSize
  rw [convertTagSize_of_supported hsupported, lift_ok_bind]
  show (sealMessage keys nonce ad plaintext tagSize >>= pure).returned = _
  rw [bind_pure]

/-- **`seal` of the two programs.**  The profile reads the tag size last. -/
theorem sealCommand_agree (encKey macKey nonce tagBits ad plaintext : Text) :
    Agree (ProfileCommand.sealCommand encKey macKey nonce tagBits ad plaintext)
      (sealCommand encKey macKey nonce tagBits ad plaintext) := by
  unfold ProfileCommand.sealCommand sealCommand
  refine Agree.bind _ fun encryptionKey => Agree.bind _ fun authenticationKey => ?_
  refine Agree.bind _ fun nonce => ?_
  -- both texts are read first, or the tag size is
  have htexts : OnlyThrows (fromHex ad >>= fun a => fromHex plaintext >>= fun p => pure (a, p)) :=
    (onlyThrows_fromHex ad).bind fun _ => (onlyThrows_fromHex plaintext).bind fun _ =>
      onlyThrows_pure _
  have hswap := @OnlyThrows.swap _ _ _ _ htexts (onlyThrows_tagSize tagBits)
    (fun texts tagSize => (PvcRotSymEnc1.sealMessage ⟨encryptionKey, authenticationKey⟩ nonce
      texts.1 texts.2 tagSize).returned >>= fun sealed => pure (printSealed sealed))
    (fun texts tagSize => (sealMessage ⟨encryptionKey, authenticationKey⟩ nonce
      texts.1 texts.2 tagSize).returned >>= fun sealed => pure (printSealed sealed))
    fun texts tagSize htag => by
      have hsame := sealMessage_returned_eq htag ⟨encryptionKey, authenticationKey⟩ nonce texts.1
        texts.2
      dsimp only at hsame ⊢
      rw [hsame]
      exact .refl _
  simp only [bind_assoc, pure_bind] at hswap
  exact hswap

/-- **`open` of the two programs.** -/
theorem openCommand_agree (encKey macKey nonce ad ciphertext tag : Text) :
    Agree (ProfileCommand.openCommand encKey macKey nonce ad ciphertext tag)
      (openCommand encKey macKey nonce ad ciphertext tag) := by
  unfold ProfileCommand.openCommand openCommand PvcRotSymEnc1.openMessage
  exact .refl _

/-- **The bodies agree**, whatever the arguments. -/
theorem dispatch_agree (argv : List Text) :
    Agree (ProfileCommand.dispatch argv) (dispatch argv) := by
  rcases argv with _ | ⟨program, _ | ⟨command, arguments⟩⟩
  · exact .usage
  · exact .usage
  unfold ProfileCommand.dispatch dispatch
  dsimp only
  by_cases hseal : command = text "seal"
  · rw [if_pos hseal, if_pos hseal]
    rcases arguments with _ | ⟨a, _ | ⟨b, _ | ⟨c, _ | ⟨d, _ | ⟨e, _ | ⟨f, _ | ⟨g, rest⟩⟩⟩⟩⟩⟩⟩ <;>
      first | exact .usage | exact sealCommand_agree a b c d e f
  rw [if_neg hseal, if_neg hseal]
  by_cases hopen : command = text "open"
  · rw [if_pos hopen, if_pos hopen]
    rcases arguments with _ | ⟨a, _ | ⟨b, _ | ⟨c, _ | ⟨d, _ | ⟨e, _ | ⟨f, _ | ⟨g, rest⟩⟩⟩⟩⟩⟩⟩ <;>
      first | exact .usage | exact openCommand_agree a b c d e f
  · rw [if_neg hopen, if_neg hopen]
    exact .usage

/-! ## The programs -/

/-- Two programs show the same to `std::cout` and end with the same status; where that is 0, they
also show the same to `std::cerr`. -/
def ShownAlike : Except Fault ProgramRun → Except Fault ProgramRun → Prop
  | .ok run, .ok run' =>
    run'.out = run.out ∧ run'.status = run.status ∧ (run.status = 0 → run' = run)
  | .error fault, .error fault' => fault' = fault
  | _, _ => False

theorem ShownAlike.refl (x : Except Fault ProgramRun) : ShownAlike x x := by
  cases x with
  | ok run => exact ⟨rfl, rfl, fun _ => rfl⟩
  | error fault => rfl

theorem main_alike (argv : List Text) : ShownAlike (ProfileCommand.main argv) (main argv) := by
  have hagree := dispatch_agree argv
  unfold ProfileCommand.main main
  generalize ProfileCommand.dispatch argv = x at hagree ⊢
  generalize dispatch argv = y at hagree ⊢
  cases hagree with
  | refl =>
    cases x with
    | ok run => exact .refl _
    | error fault => cases fault <;> exact .refl _
  | thrown cls cls' what what' => exact ⟨rfl, rfl, fun h => absurd h (Nat.succ_ne_zero 0)⟩
  | usage => exact ⟨rfl, rfl, fun h => absurd h (by decide)⟩

/-- A successful run of one program is one of the other. -/
theorem ShownAlike.eq_of_ok {x y : Except Fault ProgramRun} (h : ShownAlike x y) {run : ProgramRun}
    (hx : x = .ok run) (hstatus : run.status = 0) : y = .ok run := by
  subst hx
  cases y with
  | ok run' => exact congrArg Except.ok (h.2.2 hstatus)
  | error fault => cases h

/-- **The two command lines work together.**  Whatever the arguments, they show the same to
`std::cout` and end with the same status.  So what the profile's `seal` prints, the `open` of the
reference implementation takes, and the other way round. -/
theorem command_lines_interoperate :
    (∀ argv : List Text, ShownAlike (ProfileCommand.main argv) (main argv)) ∧
    ∀ (arguments : ProfileCommand.SealArguments) (program : Text), ∃ ciphertext tag : Text,
      (∀ sealing ∈ [ProfileCommand.main, main],
        sealing [program, text "seal", arguments.encKey, arguments.macKey, arguments.nonce,
          arguments.tagBits, arguments.ad, arguments.plaintext]
        = .ok ⟨text "ciphertext=" ++ ciphertext ++ text "\n" ++ text "tag=" ++ tag ++ text "\n",
            [], 0⟩) ∧
      ∀ opening ∈ [ProfileCommand.main, main],
        opening [program, text "open", arguments.encKey, arguments.macKey, arguments.nonce,
          arguments.ad, ciphertext, tag]
        = .ok ⟨text "authentication=ok\nplaintext=" ++ arguments.plaintext.map tolower
            ++ text "\n", [], 0⟩ := by
  refine ⟨main_alike, fun arguments program => ?_⟩
  obtain ⟨ciphertext, tag, -, -, hseal, hopen⟩ :=
    ProfileCommand.exists_sealed_texts arguments program
  refine ⟨ciphertext, tag, ?_, ?_⟩
  · intro sealing hsealing
    rcases List.mem_pair.mp hsealing with rfl | rfl
    · exact hseal
    · exact (main_alike _).eq_of_ok hseal rfl
  · intro opening hopening
    rcases List.mem_pair.mp hopening with rfl | rfl
    · exact hopen
    · exact (main_alike _).eq_of_ok hopen rfl

end CandidateCommand
