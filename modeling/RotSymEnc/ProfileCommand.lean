/-
# The command line of the profile

`main.cpp` reads its arguments as hexadecimal texts, seals or opens, and prints
hexadecimal texts.  What `seal` prints can be handed to `open` as it stands.
-/
import RotSymEnc.AeadCorrectness
import RotSymEnc.HexText

open StatefulRuns

namespace ProfileCommand

open PvcRotSymEnc1 (KeyPair512 sealMessage openMessage)

/-! ## The program -/

/-- What a run of the program shows: the bytes of its two streams, and its status. -/
structure ProgramRun : Type where
  out : Text
  err : Text
  status : ℕ
  deriving DecidableEq

/-- `tag_size`. -/
def tagSize (bits : Text) : Except Fault TagSize :=
  if bits = text "128" then .ok .bits128
  else if bits = text "192" then .ok .bits192
  else if bits = text "256" then .ok .bits256
  else .error (.thrown .invalidArgument "tag bits must be 128, 192, or 256")

/-- `usage`, and the status 2. -/
def usage : ProgramRun where
  out := []
  err := text "seal: pvc-rotsymenc1 seal ENC_KEY MAC_KEY NONCE TAG_BITS AD_HEX PLAINTEXT_HEX\n"
    ++ text "open: pvc-rotsymenc1 open ENC_KEY MAC_KEY NONCE AD_HEX CIPHERTEXT_HEX TAG_HEX\n"
  status := 2

/-- The command `seal` of `main`. -/
def sealCommand (encKey macKey nonce tagBits ad plaintext : Text) : Except Fault ProgramRun := do
  let encryptionKey ← fixedHex 32 encKey "encryption key"
  let authenticationKey ← fixedHex 32 macKey "authentication key"
  let keys : KeyPair512 := ⟨encryptionKey, authenticationKey⟩
  let nonce ← fixedHex 24 nonce "nonce"
  let ad ← fromHex ad
  let plaintext ← fromHex plaintext
  let tagSize ← tagSize tagBits
  let sealed ← (sealMessage keys nonce ad plaintext tagSize).returned
  return {
    out := text "ciphertext=" ++ toHex sealed.ciphertext ++ text "\n" ++ text "tag="
      ++ toHex sealed.tag ++ text "\n"
    err := []
    status := 0 }

/-- The command `open` of `main`. -/
def openCommand (encKey macKey nonce ad ciphertext tag : Text) : Except Fault ProgramRun := do
  let encryptionKey ← fixedHex 32 encKey "encryption key"
  let authenticationKey ← fixedHex 32 macKey "authentication key"
  let keys : KeyPair512 := ⟨encryptionKey, authenticationKey⟩
  let nonce ← fixedHex 24 nonce "nonce"
  let ad ← fromHex ad
  let ciphertext ← fromHex ciphertext
  let tag ← fromHex tag
  match ← (openMessage keys nonce ad ciphertext tag).returned with
  | none => return { out := text "authentication=failed\n", err := [], status := 1 }
  | some plaintext =>
    return {
      out := text "authentication=ok\nplaintext=" ++ toHex plaintext ++ text "\n"
      err := []
      status := 0 }

/-- The body of `main`. -/
def dispatch (argv : List Text) : Except Fault ProgramRun :=
  match argv with
  | _ :: command :: arguments =>
    if command = text "seal" then
      match arguments with
      | [encKey, macKey, nonce, tagBits, ad, plaintext] =>
        sealCommand encKey macKey nonce tagBits ad plaintext
      | _ => .ok usage
    else if command = text "open" then
      match arguments with
      | [encKey, macKey, nonce, ad, ciphertext, tag] =>
        openCommand encKey macKey nonce ad ciphertext tag
      | _ => .ok usage
    else .ok usage
  | _ => .ok usage

/-- `main`: a thrown exception is printed, and ends with the status 1. -/
def main (argv : List Text) : Except Fault ProgramRun :=
  match dispatch argv with
  | .error (.thrown _ what) => .ok { out := [], err := text what ++ text "\n", status := 1 }
  | result => result

theorem main_of_dispatch {argv : List Text} {run : ProgramRun} (h : dispatch argv = .ok run) :
    main argv = .ok run := by
  unfold main
  rw [h]

section Dispatch

variable (program first second third fourth fifth sixth : Text)

theorem dispatch_seal :
    dispatch [program, text "seal", first, second, third, fourth, fifth, sixth]
      = sealCommand first second third fourth fifth sixth := by
  unfold dispatch
  simp only [if_true]

theorem dispatch_open :
    dispatch [program, text "open", first, second, third, fourth, fifth, sixth]
      = openCommand first second third fourth fifth sixth := by
  have hcommand : text "open" ≠ text "seal" := by decide
  unfold dispatch
  simp only [hcommand, if_false, if_true]

end Dispatch

/-! ## The round trip -/

/-- The arguments of `seal`, all of them valid. -/
structure SealArguments : Type where
  encKey : Text
  macKey : Text
  nonce : Text
  tagBits : Text
  ad : Text
  plaintext : Text
  encKey_hex : IsHexText encKey
  encKey_length : encKey.length = 64
  macKey_hex : IsHexText macKey
  macKey_length : macKey.length = 64
  nonce_hex : IsHexText nonce
  nonce_length : nonce.length = 48
  tagBits_valid : tagBits = text "128" ∨ tagBits = text "192" ∨ tagBits = text "256"
  ad_hex : IsHexText ad
  plaintext_hex : IsHexText plaintext
  fits : 79 + ad.length / 2 + plaintext.length / 2 < 2 ^ 64

theorem tagSize_supported {bits : Text}
    (h : bits = text "128" ∨ bits = text "192" ∨ bits = text "256") :
    ∃ size : TagSize, tagSize bits = .ok size ∧ size.Supported := by
  rcases h with rfl | rfl | rfl
  · exact ⟨.bits128, by decide, by decide⟩
  · exact ⟨.bits192, by decide, by decide⟩
  · exact ⟨.bits256, by decide, by decide⟩

/-- **Sealing and opening on the command line.** -/
theorem exists_sealed_texts (arguments : SealArguments) (program : Text) :
    ∃ ciphertext tag : Text, IsHexText ciphertext ∧ IsHexText tag ∧
      main [program, text "seal", arguments.encKey, arguments.macKey, arguments.nonce,
          arguments.tagBits, arguments.ad, arguments.plaintext]
        = .ok ⟨text "ciphertext=" ++ ciphertext ++ text "\n" ++ text "tag=" ++ tag ++ text "\n",
            [], 0⟩ ∧
      main [program, text "open", arguments.encKey, arguments.macKey, arguments.nonce,
          arguments.ad, ciphertext, tag]
        = .ok ⟨text "authentication=ok\nplaintext=" ++ arguments.plaintext.map tolower
            ++ text "\n", [], 0⟩ := by
  obtain ⟨encryptionKey, hencKey, -⟩ := @fixedHex_of_isHexText _ 32 arguments.encKey_hex
    arguments.encKey_length "encryption key"
  obtain ⟨authenticationKey, hmacKey, -⟩ := @fixedHex_of_isHexText _ 32 arguments.macKey_hex
    arguments.macKey_length "authentication key"
  obtain ⟨nonce, hnonce, -⟩ := @fixedHex_of_isHexText _ 24 arguments.nonce_hex
    arguments.nonce_length "nonce"
  obtain ⟨size, hsize, hsupported⟩ := tagSize_supported arguments.tagBits_valid
  have hfits : 79 + (hexBytes arguments.ad).length + (hexBytes arguments.plaintext).length
      < 2 ^ 64 := by
    rw [length_hexBytes, length_hexBytes]
    exact arguments.fits
  obtain ⟨sealed, hsealed, hopened⟩ := PvcRotSymEnc1.exists_sealed hsupported
    ⟨encryptionKey, authenticationKey⟩ nonce hfits
  -- both commands parse the same keys, nonce and texts
  have hseal : sealCommand arguments.encKey arguments.macKey arguments.nonce arguments.tagBits
      arguments.ad arguments.plaintext = .ok ⟨text "ciphertext=" ++ toHex sealed.ciphertext
        ++ text "\n" ++ text "tag=" ++ toHex sealed.tag ++ text "\n", [], 0⟩ := by
    unfold sealCommand
    rw [hencKey, except_ok_bind, hmacKey, except_ok_bind, hnonce, except_ok_bind,
      fromHex_of_isHexText arguments.ad_hex, except_ok_bind,
      fromHex_of_isHexText arguments.plaintext_hex, except_ok_bind, hsize, except_ok_bind,
      hsealed, except_ok_bind]
    rfl
  have hopen : openCommand arguments.encKey arguments.macKey arguments.nonce arguments.ad
      (toHex sealed.ciphertext) (toHex sealed.tag)
        = .ok ⟨text "authentication=ok\nplaintext=" ++ arguments.plaintext.map tolower
          ++ text "\n", [], 0⟩ := by
    unfold openCommand
    rw [hencKey, except_ok_bind, hmacKey, except_ok_bind, hnonce, except_ok_bind,
      fromHex_of_isHexText arguments.ad_hex, except_ok_bind, fromHex_toHex, except_ok_bind,
      fromHex_toHex, except_ok_bind, hopened, except_ok_bind,
      ← toHex_hexBytes arguments.plaintext_hex]
    rfl
  refine ⟨toHex sealed.ciphertext, toHex sealed.tag, isHexText_toHex _, isHexText_toHex _, ?_, ?_⟩
  · apply main_of_dispatch
    rw [dispatch_seal, hseal]
  · apply main_of_dispatch
    rw [dispatch_open, hopen]

/-- **The codec of the command line is exact**: reading undoes writing; what can be read is
an even number of digits, of either case, and is written back in lower case; every other
text throws.  So what `seal` prints can be handed to `open`, which prints the plaintext
argument in lower case. -/
theorem hex_command_line_exact :
    (∀ bytes : List U8, fromHex (toHex bytes) = .ok bytes) ∧
    (∀ value : Text, ((∃ bytes, fromHex value = .ok bytes) ↔ IsHexText value) ∧
      (∀ bytes, fromHex value = .ok bytes → toHex bytes = value.map tolower) ∧
      (¬ IsHexText value → ∃ what, fromHex value = .error (.thrown .invalidArgument what))) ∧
    ∀ (arguments : SealArguments) (program : Text),
      ∃ ciphertext tag : Text, IsHexText ciphertext ∧ IsHexText tag ∧
        main [program, text "seal", arguments.encKey, arguments.macKey, arguments.nonce,
            arguments.tagBits, arguments.ad, arguments.plaintext]
          = .ok ⟨text "ciphertext=" ++ ciphertext ++ text "\n" ++ text "tag=" ++ tag ++ text "\n",
              [], 0⟩ ∧
        main [program, text "open", arguments.encKey, arguments.macKey, arguments.nonce,
            arguments.ad, ciphertext, tag]
          = .ok ⟨text "authentication=ok\nplaintext=" ++ arguments.plaintext.map tolower
              ++ text "\n", [], 0⟩ := by
  refine ⟨fromHex_toHex, fun value => ⟨?_, ?_, fromHex_of_not_isHexText⟩, exists_sealed_texts⟩
  · constructor
    · rintro ⟨bytes, h⟩
      exact ((fromHex_eq_ok_iff value bytes).1 h).1
    · intro h
      exact ⟨hexBytes value, fromHex_of_isHexText h⟩
  · intro bytes h
    obtain ⟨hhex, rfl⟩ := (fromHex_eq_ok_iff value bytes).1 h
    exact toHex_hexBytes hhex

/-- Keys and a nonce of zeros, a byte of associated data, and a plaintext in upper case. -/
theorem hex_command_line_exact_upper :
    ∃ ciphertext tag : Text,
      main [text "app", text "open", List.replicate 64 48, List.replicate 64 48,
          List.replicate 48 48, text "0a", ciphertext, tag]
        = .ok ⟨text "authentication=ok\nplaintext=" ++ text "4aff" ++ text "\n", [], 0⟩ := by
  let arguments : SealArguments :=
    { encKey := List.replicate 64 48, macKey := List.replicate 64 48,
      nonce := List.replicate 48 48, tagBits := text "192", ad := text "0a",
      plaintext := text "4AfF", encKey_hex := by decide, encKey_length := by decide,
      macKey_hex := by decide, macKey_length := by decide, nonce_hex := by decide,
      nonce_length := by decide, tagBits_valid := by decide, ad_hex := by decide,
      plaintext_hex := by decide, fits := by decide }
  obtain ⟨ciphertext, tag, -, -, -, hopen⟩ := hex_command_line_exact.2.2 arguments (text "app")
  have hlower : (text "4AfF").map tolower = text "4aff" := by decide
  exact ⟨ciphertext, tag, hlower ▸ hopen⟩

end ProfileCommand
