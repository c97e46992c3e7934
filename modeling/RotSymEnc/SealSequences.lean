/-
# Sequences of seals

Any number of `seal` calls, each under its own keys, nonce and profile; a call
that throws is caught and the next one goes on.  The C1 inputs of the whole
sequence are distinct where the nonces are, and a tuple that `open` accepts without
having been sealed needs a C1 input that no seal computed.
-/
import RotSymEnc.AeadCorrectness

open StatefulRuns

/-! ## Sequences -/

/-- The arguments of one `seal` call, apart from the keys. -/
structure SealQuery : Type where
  nonce : Nonce192
  associatedData : List U8
  plaintext : List U8
  tagSize : TagSize

namespace SealQuery

/-- The lengths are those of buffers. -/
def Sized (query : SealQuery) : Prop :=
  query.associatedData.length < 2 ^ 64 ∧ query.plaintext.length < 2 ^ 64

/-- The call. -/
def run (query : SealQuery) (keys : PvcRotSymEnc1.KeyPair512) : PrfRun SealedMessage :=
  PvcRotSymEnc1.sealMessage keys query.nonce query.associatedData query.plaintext query.tagSize

/-- The sizes fit the frames. -/
def Fits (query : SealQuery) : Prop :=
  79 + query.associatedData.length + query.plaintext.length < 2 ^ 64

instance (query : SealQuery) : Decidable query.Fits :=
  inferInstanceAs (Decidable (_ < _))

/-- The PRF inputs of the call: the stream frames, and the MAC frame where the
sizes fit. -/
def inputs (query : SealQuery) (keys : PvcRotSymEnc1.KeyPair512) : List PrfInput :=
  if query.tagSize.Supported then
    (List.range (blockCount query.plaintext.length)).map
        (fun i => .stream query.nonce (BitVec.ofNat 64 i) query.tagSize)
      ++ if query.Fits then
          [.mac query.nonce query.associatedData
            (PvcAead0.keystreamMasked keys.encryptionKey query.nonce query.tagSize query.plaintext)
            query.tagSize]
        else []
  else []

end SealQuery

/-- A call whose exception is caught. -/
def PrfRun.caught {α : Type} (x : PrfRun α) : PrfRun (Except Fault α) := fun calls =>
  match x.run calls with
  | .ok a calls' => .ok (.ok a) calls'
  | .error fault calls' => .ok (.error fault) calls'

/-- One `seal` call, with what it returned. -/
def sealOne (query : PvcRotSymEnc1.KeyPair512 × SealQuery) :
    PrfRun (SealQuery × Except Fault SealedMessage) := do
  let result ← (query.2.run query.1).caught
  return (query.2, result)

/-- One `seal` call after the other. -/
def sealAll (queries : List (PvcRotSymEnc1.KeyPair512 × SealQuery)) :
    PrfRun (List (SealQuery × Except Fault SealedMessage)) :=
  queries.mapM sealOne

/-- The tuples recorded: the nonce, the associated data, the ciphertext and the tag
of every call that returned. -/
def sealRecord (results : List (SealQuery × Except Fault SealedMessage)) :
    List (Nonce192 × List U8 × List U8 × List U8) :=
  results.filterMap fun result =>
    match result.2 with
    | .ok sealed => some (result.1.nonce, result.1.associatedData, sealed.ciphertext, sealed.tag)
    | .error _ => none

/-! ## The calls of a sequence -/

theorem PrfRun.caught_run_of_ok {α : Type} {x : PrfRun α} {a : α} {calls calls' : List PrfCall}
    (h : EStateM.run x calls = .ok a calls') :
    EStateM.run x.caught calls = .ok (.ok a) calls' := by
  simp only [EStateM.run] at h
  simp only [EStateM.run, PrfRun.caught, h]

theorem PrfRun.caught_run_of_error {α : Type} {x : PrfRun α} {fault : Fault}
    {calls calls' : List PrfCall} (h : EStateM.run x calls = .error fault calls') :
    EStateM.run x.caught calls = .ok (.error fault) calls' := by
  simp only [EStateM.run] at h
  simp only [EStateM.run, PrfRun.caught, h]

/-- The keystream calls have the stream frames as inputs. -/
theorem keystreamCalls_input (key : ResearchKey256) (nonce : Nonce192) (tagSize : TagSize)
    (n : ℕ) : (PvcAead0.keystreamCalls key nonce tagSize n).map PrfCall.input
      = ((List.range (blockCount n)).map fun i =>
          PrfInput.stream nonce (BitVec.ofNat 64 i) tagSize).map PrfInput.bytes := by
  rw [PvcAead0.keystreamCalls, List.map_map, List.map_map]
  rfl

/-- **The calls of one seal**: whatever was called before, it appends the calls of
its own inputs, and what it returns does not depend on them. -/
theorem run_caught_run (keys : PvcRotSymEnc1.KeyPair512) {query : SealQuery}
    (hsized : query.Sized) (calls : List PrfCall) :
    ∃ new, EStateM.run (query.run keys).caught calls
        = .ok (query.run keys).returned (calls ++ new) ∧
      new.map PrfCall.input = (query.inputs keys).map PrfInput.bytes := by
  obtain ⟨had, hpt⟩ := hsized
  by_cases ht : query.tagSize.Supported
  · by_cases hlen : query.Fits
    · have hrun := PvcRotSymEnc1.sealMessage_run ht keys query.nonce hlen
      refine ⟨PvcAead0.keystreamCalls keys.encryptionKey query.nonce query.tagSize
          query.plaintext.length
        ++ [PvcAead0.macCall keys.authenticationKey query.nonce query.associatedData
          (PvcAead0.keystreamMasked keys.encryptionKey query.nonce query.tagSize query.plaintext)
          query.tagSize], ?_, ?_⟩
      · rw [SealQuery.run, PrfRun.returned_of_ok (hrun []), ← List.append_assoc]
        exact PrfRun.caught_run_of_ok (hrun calls)
      · rw [List.map_append, keystreamCalls_input, SealQuery.inputs, if_pos ht, if_pos hlen,
          List.map_append]
        rfl
    · have hover : 2 ^ 64 ≤ 79 + query.associatedData.length + query.plaintext.length :=
        not_lt.mp hlen
      obtain ⟨what, hrun⟩ :=
        PvcRotSymEnc1.sealMessage_run_of_overflow ht keys query.nonce had hpt hover
      refine ⟨PvcAead0.keystreamCalls keys.encryptionKey query.nonce query.tagSize
        query.plaintext.length, ?_, ?_⟩
      · rw [SealQuery.run, PrfRun.returned_of_error (hrun [])]
        exact PrfRun.caught_run_of_error (hrun calls)
      · rw [keystreamCalls_input, SealQuery.inputs, if_pos ht, if_neg hlen, List.append_nil]
  · have hrun := PvcRotSymEnc1.sealMessage_run_of_not_supported ht keys query.nonce
      query.associatedData query.plaintext
    refine ⟨[], ?_, ?_⟩
    · rw [SealQuery.run, PrfRun.returned_of_error (hrun []), List.append_nil]
      exact PrfRun.caught_run_of_error (hrun calls)
    · rw [SealQuery.inputs, if_neg ht]
      rfl

/-- **The calls of a sequence** are the calls of its seals, one after the other, and
every seal returns what it returns alone. -/
theorem sealAll_run {queries : List (PvcRotSymEnc1.KeyPair512 × SealQuery)}
    (hsized : ∀ query ∈ queries, query.2.Sized) (calls : List PrfCall) :
    ∃ new, (sealAll queries).run calls
        = .ok (queries.map fun query => (query.2, (query.2.run query.1).returned))
          (calls ++ new) ∧
      new.map PrfCall.input
        = (queries.flatMap fun query => query.2.inputs query.1).map PrfInput.bytes := by
  induction queries generalizing calls with
  | nil => exact ⟨[], by rw [List.append_nil]; rfl, rfl⟩
  | cons query queries ih =>
    obtain ⟨new, hrun, hnew⟩ := run_caught_run query.1 (hsized query (by simp)) calls
    obtain ⟨rest, hruns, hrest⟩ := ih (fun q hq => hsized q (by simp [hq])) (calls ++ new)
    have hfirst : (sealOne query).run calls
        = .ok (query.2, (query.2.run query.1).returned) (calls ++ new) :=
      run_bind_of_ok hrun
    rw [sealAll] at hruns
    refine ⟨new ++ rest, ?_, ?_⟩
    · rw [sealAll, List.mapM_cons, run_bind_of_ok hfirst, run_bind_of_ok hruns, List.append_assoc]
      rfl
    · rw [List.map_append, hnew, hrest, List.flatMap_cons, List.map_append]

/-- The PRF inputs of a seal: a stream frame of one of its blocks, or its MAC frame. -/
theorem SealQuery.mem_inputs_iff {query : SealQuery} {keys : PvcRotSymEnc1.KeyPair512}
    {x : PrfInput} : x ∈ query.inputs keys ↔ query.tagSize.Supported ∧
      ((∃ i < blockCount query.plaintext.length,
          x = .stream query.nonce (BitVec.ofNat 64 i) query.tagSize) ∨
        query.Fits ∧ x = .mac query.nonce query.associatedData
          (PvcAead0.keystreamMasked keys.encryptionKey query.nonce query.tagSize query.plaintext)
          query.tagSize) := by
  by_cases ht : query.tagSize.Supported
  · by_cases hlen : query.Fits
    · simp [SealQuery.inputs, ht, hlen, eq_comm]
    · simp [SealQuery.inputs, ht, hlen, eq_comm]
  · simp [SealQuery.inputs, ht]

/-- A seal that returns has passed one input a block to C1, and the MAC frame. -/
theorem SealQuery.length_inputs {query : SealQuery} (ht : query.tagSize.Supported)
    (hfits : query.Fits) (keys : PvcRotSymEnc1.KeyPair512) :
    (query.inputs keys).length = blockCount query.plaintext.length + 1 := by
  rw [SealQuery.inputs, if_pos ht, if_pos hfits, List.length_append, List.length_map,
    List.length_range, List.length_singleton]

/-- The PRF inputs of a seal come from supported profiles and sizes that fit. -/
theorem SealQuery.ok_of_mem_inputs {query : SealQuery} {keys : PvcRotSymEnc1.KeyPair512}
    {x : PrfInput} (h : x ∈ query.inputs keys) : x.Ok := by
  obtain ⟨ht, ⟨i, -, rfl⟩ | ⟨hlen, rfl⟩⟩ := SealQuery.mem_inputs_iff.mp h
  · exact ht
  · exact ⟨ht, by rw [PvcAead0.length_keystreamMasked]; exact hlen⟩

/-- The PRF inputs of a seal carry its nonce. -/
theorem SealQuery.nonce_of_mem_inputs {query : SealQuery} {keys : PvcRotSymEnc1.KeyPair512}
    {x : PrfInput} (h : x ∈ query.inputs keys) : x.nonce = query.nonce := by
  obtain ⟨-, ⟨i, -, rfl⟩ | ⟨-, rfl⟩⟩ := SealQuery.mem_inputs_iff.mp h
  · rfl
  · rfl

/-- Counters of different blocks differ. -/
theorem nodup_stream_inputs (nonce : Nonce192) (tagSize : TagSize) {n : ℕ} (hn : n < 2 ^ 64) :
    ((List.range (blockCount n)).map fun i =>
      PrfInput.stream nonce (BitVec.ofNat 64 i) tagSize).Nodup := by
  refine List.Nodup.map_on ?_ List.nodup_range
  intro i hi j hj h
  rw [List.mem_range, blockCount] at hi hj
  have hcounter := congrArg BitVec.toNat (PrfInput.stream.inj h).2.1
  rwa [BitVec.toNat_ofNat, BitVec.toNat_ofNat, Nat.mod_eq_of_lt (by omega),
    Nat.mod_eq_of_lt (by omega)] at hcounter

/-- One seal passes no input to C1 twice. -/
theorem SealQuery.nodup_inputs {query : SealQuery} (hsized : query.Sized)
    (keys : PvcRotSymEnc1.KeyPair512) : (query.inputs keys).Nodup := by
  have hstream := nodup_stream_inputs query.nonce query.tagSize hsized.2
  rw [SealQuery.inputs]
  split
  · refine List.Nodup.append hstream ?_ ?_
    · split
      · exact List.nodup_singleton _
      · exact List.nodup_nil
    · intro x hx hmac
      obtain ⟨i, -, rfl⟩ := List.mem_map.mp hx
      split at hmac
      · exact absurd (List.mem_singleton.mp hmac) (by simp)
      · exact absurd hmac List.not_mem_nil
  · exact List.nodup_nil

theorem PrfRun.calls_of_caught {α : Type} {x : PrfRun α} {result : Except Fault α}
    {calls : List PrfCall} (h : EStateM.run x.caught [] = .ok result calls) : x.calls = calls := by
  cases hx : EStateM.run x [] with
  | ok a calls' =>
    rw [PrfRun.caught_run_of_ok hx] at h
    rw [PrfRun.calls, hx]
    exact (EStateM.Result.ok.inj h).2
  | error fault calls' =>
    rw [PrfRun.caught_run_of_error hx] at h
    rw [PrfRun.calls, hx]
    exact (EStateM.Result.ok.inj h).2

/-- The inputs of a whole sequence are distinct where the nonces are. -/
theorem nodup_flatMap_inputs {queries : List (PvcRotSymEnc1.KeyPair512 × SealQuery)}
    (hsized : ∀ query ∈ queries, query.2.Sized)
    (hnonces : (queries.map fun query => query.2.nonce).Nodup) :
    ((queries.flatMap fun query => query.2.inputs query.1).map PrfInput.bytes).Nodup := by
  refine List.Nodup.map_on ?_ (List.nodup_flatMap.mpr ⟨fun query hquery => ?_, ?_⟩)
  · intro x hx y hy hxy
    obtain ⟨query, -, hx⟩ := List.mem_flatMap.mp hx
    obtain ⟨query', -, hy⟩ := List.mem_flatMap.mp hy
    exact PrfInput.eq_of_prefix (SealQuery.ok_of_mem_inputs hx) (SealQuery.ok_of_mem_inputs hy)
      (by rw [hxy])
  · exact SealQuery.nodup_inputs (hsized query hquery) query.1
  · refine (List.pairwise_map.mp hnonces).imp fun {query query'} hne => ?_
    intro x hx hx'
    exact hne ((SealQuery.nonce_of_mem_inputs hx).symm.trans (SealQuery.nonce_of_mem_inputs hx'))

/-- The calls of `open` have PRF inputs. -/
theorem openMessage_calls_frame (keys : PvcRotSymEnc1.KeyPair512) (nonce : Nonce192)
    {associatedData ciphertext suppliedTag : List U8} (had : associatedData.length < 2 ^ 64)
    (hct : ciphertext.length < 2 ^ 64) (htag : suppliedTag.length < 2 ^ 64) :
    ∀ call ∈ (PvcRotSymEnc1.openMessage keys nonce associatedData ciphertext suppliedTag).calls,
      ∃ x : PrfInput, x.Ok ∧ call.input = x.bytes := by
  rw [PvcRotSymEnc1.openMessage, PvcRotSymEnc1.toA1Nonce]
  by_cases ht : TagLength suppliedTag.length
  · by_cases hlen : 79 + associatedData.length + ciphertext.length < 2 ^ 64
    · have hrun := PvcAead0.openMessage_run (PvcRotSymEnc1.toA1Keys keys) nonce ht hlen []
      split at hrun
      · rw [PrfRun.calls_of_ok hrun, List.nil_append]
        intro call hcall
        rcases List.mem_append.mp hcall with hmac | hstream
        · rw [List.mem_singleton.mp hmac]
          exact ⟨.mac nonce associatedData ciphertext _, ⟨ht.supported, hlen⟩, rfl⟩
        · obtain ⟨i, -, rfl⟩ := List.mem_map.mp hstream
          exact ⟨.stream nonce (BitVec.ofNat 64 i) _, ht.supported, rfl⟩
      · rw [PrfRun.calls_of_ok hrun, List.nil_append]
        intro call hcall
        rw [List.mem_singleton.mp hcall]
        exact ⟨.mac nonce associatedData ciphertext _, ⟨ht.supported, hlen⟩, rfl⟩
    · obtain ⟨what, hrun⟩ := PvcAead0.openMessage_run_of_overflow (PvcRotSymEnc1.toA1Keys keys)
        nonce ht had hct (not_lt.mp hlen) []
      rw [PrfRun.calls_of_error hrun]
      exact fun call hcall => absurd hcall List.not_mem_nil
  · rw [PrfRun.calls_of_ok (PvcAead0.openMessage_run_of_length (PvcRotSymEnc1.toA1Keys keys) nonce
      _ _ htag ht [])]
    exact fun call hcall => absurd hcall List.not_mem_nil

/-- **No two PRF inputs are confused.**  Of two byte strings that `seal` or `open`
may pass to C1 neither is a prefix of the other unless they are of one kind and
come from one tuple; every call of a seal or an open has such an input; and over
any sequence of seals with different nonces, under any keys, all inputs are
distinct. -/
theorem prf_inputs_separated :
    (∀ (x y : PrfInput) (a b : List U8), x.Sized → y.Sized → x.frame = .ok a → y.frame = .ok b →
      a <+: b → x = y) ∧
    (∀ (keys : PvcRotSymEnc1.KeyPair512) (query : SealQuery), query.Sized →
      ∀ call ∈ (query.run keys).calls, ∃ x : PrfInput, x.Sized ∧ x.frame = .ok call.input) ∧
    (∀ (keys : PvcRotSymEnc1.KeyPair512) (nonce : Nonce192)
      (associatedData ciphertext suppliedTag : List U8), associatedData.length < 2 ^ 64 →
      ciphertext.length < 2 ^ 64 → suppliedTag.length < 2 ^ 64 →
      ∀ call ∈ (PvcRotSymEnc1.openMessage keys nonce associatedData ciphertext
        suppliedTag).calls, ∃ x : PrfInput, x.Sized ∧ x.frame = .ok call.input) ∧
    ∀ queries : List (PvcRotSymEnc1.KeyPair512 × SealQuery),
      (∀ query ∈ queries, query.2.Sized) → (queries.map fun query => query.2.nonce).Nodup →
      ∃ results calls, (sealAll queries).run [] = .ok results calls ∧
        (calls.map PrfCall.input).Nodup := by
  refine ⟨?_, ?_, ?_, ?_⟩
  · intro x y a b hx hy ha hb hab
    obtain ⟨hx, rfl⟩ := PrfInput.ok_of_frame hx ha
    obtain ⟨hy, rfl⟩ := PrfInput.ok_of_frame hy hb
    exact PrfInput.eq_of_prefix hx hy hab
  · intro keys query hsized call hcall
    obtain ⟨new, hrun, hnew⟩ := run_caught_run keys hsized []
    rw [PrfRun.calls_of_caught hrun, List.nil_append] at hcall
    have hinput := List.mem_map_of_mem (f := PrfCall.input) hcall
    rw [hnew] at hinput
    obtain ⟨x, hx, hbytes⟩ := List.mem_map.mp hinput
    have hok := SealQuery.ok_of_mem_inputs hx
    exact ⟨x, hok.sized, by rw [← hbytes, PrfInput.frame_eq hok]⟩
  · intro keys nonce ad ct tag had hct htag call hcall
    obtain ⟨x, hok, hbytes⟩ := openMessage_calls_frame keys nonce had hct htag call hcall
    exact ⟨x, hok.sized, by rw [hbytes, PrfInput.frame_eq hok]⟩
  · intro queries hsized hnonces
    obtain ⟨new, hrun, hnew⟩ := sealAll_run hsized []
    refine ⟨_, _, hrun, ?_⟩
    rw [List.nil_append, hnew]
    exact nodup_flatMap_inputs hsized hnonces

/-- Two seals with different nonces and profiles, under one key for both roles. -/
theorem prf_inputs_separated_two :
    ∃ results calls, (sealAll
      [(⟨Vector.replicate 32 0, Vector.replicate 32 0⟩,
          ⟨Vector.replicate 24 1, [1], [2, 3], .bits128⟩),
        (⟨Vector.replicate 32 0, Vector.replicate 32 0⟩,
          ⟨Vector.replicate 24 2, [1], [2, 3], .bits256⟩)]).run [] = .ok results calls ∧
      (calls.map PrfCall.input).Nodup := by
  refine prf_inputs_separated.2.2.2 _ ?_ (by decide)
  simp only [List.forall_mem_cons, SealQuery.Sized]
  decide

/-! ## Forgeries -/

/-- A recorded tuple has the nonce of its seal. -/
theorem nonce_of_mem_sealRecord {results : List (SealQuery × Except Fault SealedMessage)}
    {tuple : Nonce192 × List U8 × List U8 × List U8} (h : tuple ∈ sealRecord results) :
    ∃ result ∈ results, tuple.1 = result.1.nonce := by
  obtain ⟨result, hresult, htuple⟩ := List.mem_filterMap.mp h
  refine ⟨result, hresult, ?_⟩
  split at htuple
  · exact congrArg Prod.fst (Option.some.inj htuple).symm
  · cases htuple

/-- A seal whose MAC frame is the one of a tuple with its tag recorded this tuple. -/
theorem mem_sealRecord {keys : PvcRotSymEnc1.KeyPair512} {queries : List SealQuery}
    {query : SealQuery} (hsized : query.Sized) (hquery : query ∈ queries) {nonce : Nonce192}
    {associatedData ciphertext suppliedTag : List U8} {tagSize : TagSize}
    (hinput : .mac nonce associatedData ciphertext tagSize ∈ query.inputs keys)
    (hmatch : suppliedTag
      = PvcAead0.sealedTag keys.authenticationKey nonce associatedData ciphertext tagSize) :
    (nonce, associatedData, ciphertext, suppliedTag) ∈ sealRecord
      ((queries.map fun query => (keys, query)).map
        fun query => (query.2, (query.2.run query.1).returned)) := by
  obtain ⟨ht, ⟨i, -, hstream⟩ | ⟨hfits, hmac⟩⟩ := SealQuery.mem_inputs_iff.mp hinput
  · exact absurd hstream (by simp)
  · obtain ⟨rfl, rfl, hct, rfl⟩ := PrfInput.mac.inj hmac
    have hreturned : (query.run keys).returned = .ok ⟨ciphertext, suppliedTag⟩ :=
      (PvcRotSymEnc1.sealMessage_returned_iff keys query.nonce hsized.1 hsized.2 _).mpr
        ⟨ht, hfits, hct, hmatch⟩
    refine List.mem_filterMap.mpr ⟨(query, (query.run keys).returned), ?_, ?_⟩
    · rw [List.map_map]
      exact List.mem_map.mpr ⟨query, hquery, rfl⟩
    · rw [hreturned]

/-- **Accepting a new tuple needs a new C1 value.**  After any sequence of seals
under one key pair, a tuple that `open` accepts and that was not recorded has a MAC
frame, the input of the first call of `open`, that differs from every input the
seals passed to C1. -/
theorem forgery_needs_fresh_input (keys : PvcRotSymEnc1.KeyPair512) (queries : List SealQuery)
    (hsized : ∀ query ∈ queries, query.Sized) (nonce : Nonce192)
    (associatedData ciphertext suppliedTag plaintext : List U8)
    (had : associatedData.length < 2 ^ 64) (hct : ciphertext.length < 2 ^ 64)
    (htag : suppliedTag.length < 2 ^ 64)
    (haccepted : (PvcRotSymEnc1.openMessage keys nonce associatedData ciphertext
      suppliedTag).returned = .ok (some plaintext)) :
    ∃ results calls framed, (sealAll (queries.map fun query => (keys, query))).run []
        = .ok results calls ∧
      (PrfInput.mac nonce associatedData ciphertext (tagSizeOfLength suppliedTag.length)).frame
        = .ok framed ∧
      (PvcRotSymEnc1.openMessage keys nonce associatedData ciphertext suppliedTag).calls.head?
        = some ⟨keys.authenticationKey, framed⟩ ∧
      ((nonce, associatedData, ciphertext, suppliedTag) ∉ sealRecord results →
        ∀ call ∈ calls, call.input ≠ framed) := by
  obtain ⟨ht, hlen, hmatch, -⟩ :=
    (PvcRotSymEnc1.openMessage_returned_iff keys nonce had hct htag plaintext).mp haccepted
  have hok : (PrfInput.mac nonce associatedData ciphertext
      (tagSizeOfLength suppliedTag.length)).Ok := ⟨ht.supported, hlen⟩
  obtain ⟨new, hrun, hnew⟩ := @sealAll_run (queries.map fun query => (keys, query))
    (by simpa using hsized) []
  refine ⟨_, _, _, hrun, PrfInput.frame_eq hok, ?_, ?_⟩
  · have hopen := PvcAead0.openMessage_run (PvcRotSymEnc1.toA1Keys keys) nonce ht hlen []
    rw [PvcRotSymEnc1.openMessage, PvcRotSymEnc1.toA1Nonce,
      PrfRun.calls_of_ok (hopen.trans (if_pos hmatch))]
    rfl
  · intro hfresh call hcall hinput
    rw [List.nil_append] at hcall
    have hmem := List.mem_map_of_mem (f := PrfCall.input) hcall
    rw [hnew, hinput] at hmem
    obtain ⟨x, hx, hbytes⟩ := List.mem_map.mp hmem
    obtain ⟨entry, hentry, hx⟩ := List.mem_flatMap.mp hx
    obtain ⟨query, hquery, rfl⟩ := List.mem_map.mp hentry
    have hsame := PrfInput.eq_of_prefix (SealQuery.ok_of_mem_inputs hx) hok (by rw [hbytes])
    rw [hsame] at hx
    exact hfresh (mem_sealRecord (hsized query hquery) hquery hx hmatch)

/-- After a seal under one nonce, a tuple with another nonce that `open` accepts: it was not
recorded, and its MAC frame is none of the two inputs of the seal. -/
theorem forgery_needs_fresh_input_other_nonce :
    ∃ (accepted : SealedMessage) (results : List (SealQuery × Except Fault SealedMessage))
      (calls : List PrfCall) (framed : List U8),
      (PvcRotSymEnc1.openMessage ⟨Vector.replicate 32 0, Vector.replicate 32 1⟩
        (Vector.replicate 24 3) [1] accepted.ciphertext accepted.tag).returned
          = .ok (some [4, 5]) ∧
      (sealAll [(⟨Vector.replicate 32 0, Vector.replicate 32 1⟩,
        ⟨Vector.replicate 24 2, [1], [4, 5], .bits128⟩)]).run [] = .ok results calls ∧
      (Vector.replicate 24 3, [1], accepted.ciphertext, accepted.tag) ∉ sealRecord results ∧
      (PrfInput.mac (Vector.replicate 24 3) [1] accepted.ciphertext .bits128).frame = .ok framed ∧
      calls.length = 2 ∧ ∀ call ∈ calls, call.input ≠ framed := by
  have had : [(1 : U8)].length < 2 ^ 64 := by decide
  have hpt : [(4 : U8), 5].length < 2 ^ 64 := by decide
  obtain ⟨accepted, hsealed, hopened⟩ := PvcRotSymEnc1.exists_sealed
    (show TagSize.bits128.Supported by decide) ⟨Vector.replicate 32 0, Vector.replicate 32 1⟩
    (Vector.replicate 24 3) (show 79 + [(1 : U8)].length + [(4 : U8), 5].length < 2 ^ 64 by decide)
  obtain ⟨hct, htag⟩ := PvcRotSymEnc1.length_sealed had hpt hsealed
  have htag : accepted.tag.length = 16 := htag
  obtain ⟨results, calls, framed, hrun, hframed, -, hfresh⟩ := forgery_needs_fresh_input
    ⟨Vector.replicate 32 0, Vector.replicate 32 1⟩
    [⟨Vector.replicate 24 2, [1], [4, 5], .bits128⟩] (by simp [SealQuery.Sized]) _ _ _ _ _ had
    (by rw [hct]; exact hpt) (by rw [htag]; decide) hopened
  obtain ⟨new, hseals, hinputs⟩ := @sealAll_run [(⟨Vector.replicate 32 0, Vector.replicate 32 1⟩,
    ⟨Vector.replicate 24 2, [1], [4, 5], .bits128⟩)] (by simp [SealQuery.Sized]) []
  obtain ⟨rfl, rfl⟩ := EStateM.Result.ok.inj (hrun.symm.trans hseals)
  have hunsealed : (Vector.replicate 24 3, [1], accepted.ciphertext, accepted.tag) ∉ sealRecord
      ([(⟨Vector.replicate 32 0, Vector.replicate 32 1⟩,
        ⟨Vector.replicate 24 2, [1], [4, 5], .bits128⟩)].map fun query =>
          (query.2, (query.2.run query.1).returned)) := by
    intro hmem
    obtain ⟨query, hquery, hnonce⟩ := nonce_of_mem_sealRecord hmem
    obtain rfl := List.mem_singleton.mp hquery
    exact absurd (show (Vector.replicate 24 3 : Nonce192) = Vector.replicate 24 2 from hnonce)
      (by decide)
  have hlength := congrArg List.length hinputs
  rw [List.length_map, List.length_map, List.flatMap_cons, List.flatMap_nil, List.append_nil,
    SealQuery.length_inputs (by decide) (by decide)] at hlength
  rw [htag] at hframed
  exact ⟨accepted, _, _, framed, hopened, hrun, hunsealed, hframed, hlength, hfresh hunsealed⟩
