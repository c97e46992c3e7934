/-
# Seals under a managed counter

A program that takes the nonce of every `seal` from one `PersistentNonceCounter`, in as many
processes as it likes and with whatever failures.  No C1 input repeats, whatever the keys and
the payloads are.
-/
import RotSymEnc.CounterRecovery
import RotSymEnc.NonceAllocation
import RotSymEnc.SealSequences

open StatefulRuns PosixFiles LockedCalls PathNames

/-- **Seals that take their nonces from one counter never repeat a C1 input.**  In every state
that any number of processes reach, by any interleaving and with any failures, the seals that use
every returned nonce at most once pass distinct inputs to C1, under whatever keys, and a detector
that watches them under one key reports none. -/
theorem managed_seals_separated {Pid : Type} [DecidableEq Pid] {path : ResolvedPath}
    {scope : NonceScope128} {start s : CounterSystem Pid} {state : CounterState}
    (h : Start path scope start state) (hrun : Run (allocateCalls path scope) start s)
    (queries : List (PvcRotSymEnc1.KeyPair512 × SealQuery))
    (hsized : ∀ query ∈ queries, query.2.Sized)
    (honce : (queries.map fun query => query.2.nonce).Subperm ((returned s).map Prod.snd))
    (key : ResearchKey256) :
    (∃ results calls, (sealAll queries).run [] = .ok results calls ∧
      (calls.map PrfCall.input).Nodup) ∧
    ∀ report ∈ (NonceReuseDetector.observeAll ⟨∅⟩
      (queries.map fun query => (key, query.2.nonce))).1, report = .fresh := by
  obtain ⟨used, hperm, hsub⟩ := honce
  have hnonces : (queries.map fun query => query.2.nonce).Nodup :=
    hperm.nodup_iff.mp (hsub.nodup (h.countsFrom.run hrun).returned_nodup)
  constructor
  · obtain ⟨new, hseals, hinputs⟩ := sealAll_run hsized []
    refine ⟨_, _, hseals, ?_⟩
    rw [List.nil_append, hinputs]
    exact nodup_flatMap_inputs hsized hnonces
  · intro report hreport
    have hpairs : (queries.map fun query => (key, query.2.nonce)).Nodup := by
      refine List.Nodup.of_map Prod.snd ?_
      rwa [List.map_map]
    rw [NonceReuseDetector.observeAll_fresh hpairs fun _ _ => Finset.notMem_empty _] at hreport
    exact List.eq_of_mem_replicate hreport

/-- Two nonces are returned, and two seals use them, with the same payload and under two key
pairs. -/
theorem managed_seals_separated_two :
    ∃ (s : CounterSystem Bool) (first second : Nonce192)
      (results : List (SealQuery × Except Fault SealedMessage)) (calls : List PrfCall),
      Run (allocateCalls (localFile (text "nonce.state") (by decide)) (Vector.replicate 16 7))
        (unused Bool) s ∧
      returned s = [(1, second), (0, first)] ∧
      (sealAll [(⟨Vector.replicate 32 0, Vector.replicate 32 1⟩, ⟨first, [1], [2, 3], .bits128⟩),
        (⟨Vector.replicate 32 1, Vector.replicate 32 0⟩, ⟨second, [1], [2, 3], .bits128⟩)]).run []
          = .ok results calls ∧
      calls.length = 4 ∧ (calls.map PrfCall.input).Nodup ∧
      ∀ report ∈ (NonceReuseDetector.observeAll ⟨∅⟩
        [(Vector.replicate 32 0, first), (Vector.replicate 32 0, second)]).1, report = .fresh := by
  have hstart := start_unused Bool (localFile (text "nonce.state") (by decide))
    (Vector.replicate 16 7)
  obtain ⟨s, hrun, -, -, hreturned⟩ := hstart.exists_returned true
    (show (CounterState.initial _).value + 2 ≤ 2 ^ 192 by rw [CounterState.value_initial]; norm_num)
  obtain ⟨⟨place, second⟩, rest, hreturned, hsecond, hrest⟩ := List.map_eq_cons_iff.mp hreturned
  obtain ⟨⟨place', first⟩, rest', rfl, hfirst, hnothing⟩ := List.map_eq_cons_iff.mp hrest
  obtain rfl := List.map_eq_nil_iff.mp hnothing
  obtain ⟨rfl, -⟩ := Prod.mk.inj hsecond
  obtain ⟨rfl, -⟩ := Prod.mk.inj hfirst
  have hsized : ∀ query ∈ [((⟨Vector.replicate 32 0, Vector.replicate 32 1⟩ :
      PvcRotSymEnc1.KeyPair512), (⟨first, [1], [2, 3], .bits128⟩ : SealQuery)),
      (⟨Vector.replicate 32 1, Vector.replicate 32 0⟩, ⟨second, [1], [2, 3], .bits128⟩)],
      query.2.Sized := by simp [SealQuery.Sized]
  have honce : [first, second].Subperm ((returned s).map Prod.snd) := by
    rw [hreturned]
    exact (List.Perm.swap second first []).subperm
  obtain ⟨⟨results, calls, hseals, hnodup⟩, hreports⟩ :=
    managed_seals_separated hstart hrun.run _ hsized honce (Vector.replicate 32 0)
  obtain ⟨new, hrun', hinputs⟩ := sealAll_run hsized []
  obtain ⟨-, rfl⟩ := EStateM.Result.ok.inj (hseals.symm.trans hrun')
  have ht : TagSize.bits128.Supported := by decide
  have hfits (nonce : Nonce192) : SealQuery.Fits ⟨nonce, [1], [2, 3], .bits128⟩ :=
    show 79 + 1 + 2 < 2 ^ 64 by decide
  have hlength := congrArg List.length hinputs
  rw [List.length_map, List.length_map, List.flatMap_cons, List.flatMap_cons, List.flatMap_nil,
    List.append_nil, List.length_append, SealQuery.length_inputs ht (hfits first),
    SealQuery.length_inputs ht (hfits second)] at hlength
  -- one call for the block and one for the tag, twice
  change calls.length = (2 + 31) / 32 + 1 + ((2 + 31) / 32 + 1) at hlength
  exact ⟨s, first, second, results, _, hrun.run, hreturned, hseals, hlength, hnodup, hreports⟩
