import RelayIde.AsyncRun.Aggregate

/-!
# Recovery of Async Runs

What a restart leaves of the runs the server stopped with.  Recovery makes two passes: terminal
runs whose evaluation was pending get a result, and open runs are cancelled.

- `recovered_iff` — recovery settles exactly the stores of such runs
-/

namespace RelayIde.AsyncRun

open RelayIde.Library List

/-! ## The two passes -/

/-- `recoverAsyncRunsImpl`: the store it leaves, and the runs that were open. -/
def Store.recoverAsyncRunsImpl (s : Store) (now : Timestamp) : Store × List Run :=
  let settled := s.updateWhere (fun _ => true) (·.recoverPending now) (recoverPending_id now)
  let cancelled := settled.updateWhere (fun _ => true) (·.recoverOpen now) (recoverOpen_id now)
  (cancelled, (settled.rows.filter fun run => !run.state.terminal).map (·.recoverOpen now))

theorem rows_recoverAsyncRunsImpl (s : Store) (now : Timestamp) :
    (s.recoverAsyncRunsImpl now).1.rows =
      s.rows.map fun run => (run.recoverPending now).recoverOpen now := by
  unfold Store.recoverAsyncRunsImpl
  simp only [Table.rows_updateWhere, map_map]
  rfl

structure Run.Settled (run : Run) : Prop where
  terminal : run.state.terminal = true
  notPending : ∀ contract, run.deliveryContract = some contract →
    contract.contractPending ≠ some true
  result : ∀ contract, run.deliveryContract = some contract → contract.result.isSome = true

structure Store.Recovered (s : Store) : Prop where
  settled : ∀ run ∈ s.rows, run.Settled
  again : ∀ now, s.recoverAsyncRunsImpl now = (s, [])

/-- What the passes need of a run.  A terminal run has its result, or a pending evaluation of some
    specs; an open one is not pending, and has its result or some specs. -/
def Run.Recoverable (run : Run) : Prop :=
  ∀ contract, run.deliveryContract = some contract →
    if run.state.terminal then
      if contract.contractPending = some true then contract.unsettled = true
      else contract.result.isSome = true
    else
      contract.contractPending ≠ some true ∧
        (contract.result.isSome = true ∨ contract.expect.getD [] ≠ [])

/-! ## One run -/

theorem recoverOpen_of_terminal {run : Run} (h : run.state.terminal = true) (now : Timestamp) :
    run.recoverOpen now = run :=
  if_pos h

theorem recoverPending_of_open {run : Run} (h : run.state.terminal = false) (now : Timestamp) :
    run.recoverPending now = run := by
  unfold Run.recoverPending
  split
  · rw [if_neg]
    intro hpending
    rw [h] at hpending
    exact absurd hpending.1 (by decide)
  · rfl

variable (run : Run) (now : Timestamp)

theorem state_recoverPending : (run.recoverPending now).state = run.state := by
  unfold Run.recoverPending
  split
  · split <;> rfl
  · rfl

theorem terminal_recoverOpen : (run.recoverOpen now).state.terminal = true := by
  unfold Run.recoverOpen
  split
  · assumption
  · rw [aggregate_terminal_iff]
    intro t ht
    obtain ⟨t, -, rfl⟩ := mem_map.mp ht
    exact cancelOpen_terminal now t

variable {run : Run}

theorem recover_of_settled (h : run.Settled) (now : Timestamp) :
    (run.recoverPending now).recoverOpen now = run := by
  have hpending : run.recoverPending now = run := by
    unfold Run.recoverPending
    split
    · rename_i contract hcontract
      exact if_neg fun hwaits => h.notPending contract hcontract hwaits.2.1
    · rfl
  rw [hpending, recoverOpen_of_terminal h.terminal]

theorem settled_recoverPending_iff (hterminal : run.state.terminal = true)
    (now : Timestamp) : (run.recoverPending now).Settled ↔ run.Recoverable := by
  unfold Run.Recoverable
  rw [hterminal]
  simp only [if_true]
  unfold Run.recoverPending
  split
  · rename_i contract hcontract
    simp only [hterminal, true_and]
    split
    · rename_i hwaits
      -- the pass records a result and clears the flag
      constructor
      · intro _ contract' h'
        rw [hcontract, Option.some.injEq] at h'
        subst h'
        rw [if_pos hwaits.1]
        exact hwaits.2
      · intro _
        refine ⟨hterminal, ?_, ?_⟩
        · intro contract' h'
          cases h'
          simp
        · intro contract' h'
          cases h'
          rfl
    · rename_i hskipped
      rw [not_and] at hskipped
      constructor
      · intro hsettled contract' h'
        rw [if_neg (hsettled.notPending contract' h')]
        exact hsettled.result contract' h'
      · intro hrun
        refine ⟨hterminal, ?_, ?_⟩
        · intro contract' h' hpending
          have hwaits := hrun contract' h'
          rw [if_pos hpending] at hwaits
          rw [hcontract, Option.some.injEq] at h'
          subst h'
          exact hskipped hpending hwaits
        · intro contract' h'
          have hresult := hrun contract' h'
          split_ifs at hresult with hpending
          · rw [hcontract, Option.some.injEq] at h'
            subst h'
            exact absurd hresult (hskipped hpending)
          · exact hresult
  · rename_i hnone
    refine ⟨fun _ contract h => ?_, fun _ => ⟨hterminal, fun contract h => ?_, fun contract h => ?_⟩⟩
    all_goals
      rw [hnone] at h
      cases h

theorem settled_recoverOpen_iff (hopen : run.state.terminal = false)
    (now : Timestamp) : (run.recoverOpen now).Settled ↔ run.Recoverable := by
  have hcontract : (run.recoverOpen now).deliveryContract = run.deliveryContract.map fun contract =>
      if contract.unsettled then contract.abandon now else contract := by
    unfold Run.recoverOpen
    rw [if_neg (by simp [hopen])]
  -- the flag stays as it was
  have hpending (contract : DeliveryContract) :
      (if contract.unsettled then contract.abandon now else contract).contractPending =
        contract.contractPending := by
    split <;> rfl
  have hresult (contract : DeliveryContract) :
      (if contract.unsettled then contract.abandon now else contract).result.isSome = true ↔
        contract.result.isSome = true ∨ contract.expect.getD [] ≠ [] := by
    split
    · rename_i hunsettled
      simp only [DeliveryContract.unsettled, Bool.and_eq_true, Bool.not_eq_true',
        isEmpty_eq_false_iff] at hunsettled
      exact iff_of_true rfl (.inr hunsettled.1)
    · rename_i hsettled
      simp only [DeliveryContract.unsettled, Bool.and_eq_true, Bool.not_eq_true',
        isEmpty_eq_false_iff, not_and, Option.isNone_iff_eq_none] at hsettled
      refine ⟨.inl, ?_⟩
      rintro (hsome | hspecs)
      · exact hsome
      · exact Option.isSome_iff_ne_none.mpr (hsettled hspecs)
  unfold Run.Recoverable
  simp only [hopen]
  constructor
  · intro h contract hrun
    have hafter : (run.recoverOpen now).deliveryContract =
        some (if contract.unsettled then contract.abandon now else contract) := by
      rw [hcontract, hrun, Option.map_some]
    exact ⟨hpending contract ▸ h.notPending _ hafter, (hresult contract).mp (h.result _ hafter)⟩
  · intro h
    refine ⟨terminal_recoverOpen run now, fun contract' hafter => ?_, fun contract' hafter => ?_⟩
    all_goals
      rw [hcontract, Option.map_eq_some_iff] at hafter
      obtain ⟨contract, hrun, rfl⟩ := hafter
    · exact hpending contract ▸ (h contract hrun).1
    · exact (hresult contract).mpr (h contract hrun).2

theorem settled_recover_iff (run : Run) (now : Timestamp) :
    ((run.recoverPending now).recoverOpen now).Settled ↔ run.Recoverable := by
  cases hstate : run.state.terminal with
  | true =>
    rw [recoverOpen_of_terminal ((congrArg _ (state_recoverPending run now)).trans hstate)]
    exact settled_recoverPending_iff hstate now
  | false =>
    rw [recoverPending_of_open hstate]
    exact settled_recoverOpen_iff hstate now

/-! ## The store -/

theorem recovered_of_settled {s : Store} (h : ∀ run ∈ s.rows, run.Settled) : s.Recovered := by
  refine ⟨h, fun now => ?_⟩
  have hpending (run : Run) (hrun : run ∈ s.rows) : run.recoverPending now = run := by
    have hsame := recover_of_settled (h run hrun) now
    rwa [recoverOpen_of_terminal
      ((congrArg _ (state_recoverPending run now)).trans (h run hrun).terminal)] at hsame
  refine Prod.ext (Table.ext ?_) ?_
  · rw [rows_recoverAsyncRunsImpl]
    conv_rhs => rw [← map_id s.rows]
    exact map_congr_left fun run hrun => recover_of_settled (h run hrun) now
  · show List.map _ (List.filter _ _) = []
    rw [map_eq_nil_iff, filter_eq_nil_iff]
    intro run' hrun'
    obtain ⟨run, hrun, rfl⟩ := mem_map.mp hrun'
    simp [hpending run hrun, (h run hrun).terminal]

/-- **Recovery**: wherever the server stops, recovery leaves every run terminal and settled, and
    nothing for another recovery, exactly if every run was recoverable. -/
theorem recovered_iff (ops : List Op) (now : Timestamp) :
    ((exec step Table.empty ops).recoverAsyncRunsImpl now).1.Recovered ↔
      ∀ run ∈ (exec step Table.empty ops).rows, run.Recoverable := by
  have hrows := rows_recoverAsyncRunsImpl (exec step Table.empty ops) now
  constructor
  · intro h run hrun
    apply (settled_recover_iff run now).mp
    apply h.settled
    rw [hrows]
    exact mem_map_of_mem hrun
  · intro h
    apply recovered_of_settled
    intro run' hrun'
    rw [hrows] at hrun'
    obtain ⟨run, hrun, rfl⟩ := mem_map.mp hrun'
    exact (settled_recover_iff run now).mpr (h run hrun)

/-- A run with a contract completes, and the server stops before the evaluation is marked as
    pending. -/
def stopBeforePending : List Op :=
  let contract : DeliveryContract :=
    { expect := some ["text:^DONE$"], contractPending := none, baseline := none, result := none,
      followupPostedAt := none, childRunId := none, abandonedAt := none, followupDecidedAt := none }
  [ .create ⟨"run", "message", "human:operator", ["agent"], some contract⟩ 1,
    .transition ⟨"run", "agent", .working, none, none, none⟩ 2,
    .transition ⟨"run", "agent", .completed, none, none, none⟩ 3 ]

/-- Its contract never gets a result. -/
theorem not_recovered_stopBeforePending :
    ¬((exec step Table.empty stopBeforePending).recoverAsyncRunsImpl 4).1.Recovered := by
  intro h
  have hrows : ((exec step Table.empty stopBeforePending).recoverAsyncRunsImpl 4).1.rows.map
      (fun run => (run.deliveryContract.map fun contract => contract.result)) = [some none] := by
    decide
  obtain ⟨run, hrun, hnone⟩ := mem_map.mp (hrows ▸ mem_singleton_self (some none))
  obtain ⟨contract, hcontract, hresult⟩ := Option.map_eq_some_iff.mp hnone
  have hsome := (h.settled run hrun).result contract hcontract
  rw [hresult] at hsome
  cases hsome

end RelayIde.AsyncRun
