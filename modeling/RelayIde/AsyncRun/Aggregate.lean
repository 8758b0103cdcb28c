import RelayIde.AsyncRun.Store

/-!
# The Stored Run State Is the Derived One

Every writer of the async-run store leaves the run state that its targets and its contract
result determine, with one exception: a transition recomputes the state from the targets
alone, so a result that was recorded as unmet before the last target completed is forgotten.

- `consistent_iff` — the store stays consistent along a run exactly when that is so
-/

namespace RelayIde.AsyncRun

open RelayIde.Library List

/-! ## Consistency -/

/-- The state of a run by its targets and its contract result. -/
def Run.derivedState (run : Run) : RunState :=
  if aggregateAsyncRunState run.targets = .completed ∧ run.unmetRecorded then .completedUnmet
  else aggregateAsyncRunState run.targets

structure Run.Consistent (run : Run) : Prop where
  state : run.state = run.derivedState
  completedAt : run.completedAt.isSome = run.state.terminal
  targets : ∀ t ∈ run.targets, t.completedAt.isSome = t.state.terminal
  noTargets : run.targets = [] → run.state = .rejected

def Store.Consistent (s : Store) : Prop :=
  ∀ run ∈ s.rows, run.Consistent

/-! ## The aggregate -/

theorem aggregate_nil : aggregateAsyncRunState [] = .rejected := rfl

theorem aggregate_terminal_iff (targets : List TargetRow) :
    (aggregateAsyncRunState targets).terminal = true ↔ ∀ t ∈ targets, t.state.terminal = true := by
  unfold aggregateAsyncRunState
  split
  · rename_i hempty
    rw [List.isEmpty_iff.mp hempty]
    simp [RunState.terminal]
  · split
    · rename_i hopen
      obtain ⟨t, ht, hstate⟩ := any_eq_true.mp hopen
      constructor
      · intro h
        split at h
        · simp [RunState.terminal] at h
        · split at h
          · simp [RunState.terminal] at h
          · split at h <;> simp [RunState.terminal] at h
      · intro hall
        simp [hall t ht] at hstate
    · rename_i hclosed
      have hall : ∀ t ∈ targets, t.state.terminal = true := by
        simpa using hclosed
      constructor
      · exact fun _ => hall
      · intro _
        split
        · rfl
        · split
          · rfl
          · split <;> rfl

theorem aggregate_completed_iff (targets : List TargetRow) :
    aggregateAsyncRunState targets = .completed ↔
      targets ≠ [] ∧ ∀ t ∈ targets, t.state = .completed := by
  constructor
  · intro h
    unfold aggregateAsyncRunState at h
    split at h
    · exact absurd h (by simp)
    · rename_i hne
      refine ⟨by simpa using hne, ?_⟩
      split at h
      · split at h
        · exact absurd h (by simp)
        · split at h
          · exact absurd h (by simp)
          · split at h <;> exact absurd h (by simp)
      · split at h
        · rename_i hall
          simpa using hall
        · split at h
          · exact absurd h (by simp)
          · split at h <;> exact absurd h (by simp)
  · rintro ⟨hne, hall⟩
    have hopen : targets.any (fun t => !t.state.terminal) = false := by
      rw [any_eq_false]
      intro t ht
      simp [hall t ht, TargetState.terminal]
    have hdone : targets.all (fun t => decide (t.state = .completed)) = true := by
      simpa using hall
    unfold aggregateAsyncRunState
    rw [if_neg (by simpa using hne), if_neg (by simp [hopen]), if_pos hdone]

theorem aggregate_queued {targets : List TargetRow} (hne : targets ≠ [])
    (hall : ∀ t ∈ targets, t.state = .queued) : aggregateAsyncRunState targets = .submitted := by
  have hopen : targets.any (fun t => !t.state.terminal) = true := by
    obtain ⟨t, rest, rfl⟩ := exists_cons_of_ne_nil hne
    simp [hall t mem_cons_self, TargetState.terminal]
  have hno (state : TargetState) (hstate : state ≠ .queued) :
      targets.any (fun t => decide (t.state = state)) = false := by
    rw [any_eq_false]
    intro t ht
    rw [hall t ht]
    simpa using hstate.symm
  unfold aggregateAsyncRunState
  rw [if_neg (by simpa using hne), if_pos hopen, if_neg (by simp [hno]), if_neg (by simp [hno]),
    if_neg (by simp [hno])]

theorem derivedState_terminal (run : Run) :
    run.derivedState.terminal = (aggregateAsyncRunState run.targets).terminal := by
  unfold Run.derivedState
  split
  · rename_i h
    rw [h.1]
    rfl
  · rfl

variable {run : Run} {s : Store}

theorem Run.Consistent.terminal_iff (h : run.Consistent) :
    run.state.terminal = true ↔ ∀ t ∈ run.targets, t.state.terminal = true := by
  rw [h.state, derivedState_terminal, aggregate_terminal_iff]

theorem consistent_of_aggregate (hstate : run.state = aggregateAsyncRunState run.targets)
    (hmet : ¬(aggregateAsyncRunState run.targets = .completed ∧ run.unmetRecorded))
    (hcompletedAt : run.completedAt.isSome = run.state.terminal)
    (htargets : ∀ t ∈ run.targets, t.completedAt.isSome = t.state.terminal) : run.Consistent where
  state := by rw [hstate, Run.derivedState, if_neg hmet]
  completedAt := hcompletedAt
  targets := htargets
  noTargets hnil := by rw [hstate, hnil, aggregate_nil]

/-! ## The writers -/

theorem consistent_newRun (input : CreateInput) (now : Timestamp) :
    (input.newRun now).Consistent := by
  have hqueued : ∀ t ∈ (input.newRun now).targets, t.state = .queued ∧ t.completedAt = none := by
    intro t ht
    obtain ⟨targetId, -, rfl⟩ := mem_map.mp ht
    exact ⟨rfl, rfl⟩
  have htargets : ∀ t ∈ (input.newRun now).targets, t.completedAt.isSome = t.state.terminal := by
    intro t ht
    rw [(hqueued t ht).1, (hqueued t ht).2]
    rfl
  by_cases hempty : input.targetIds = []
  · have hnil : (input.newRun now).targets = [] := by simp [CreateInput.newRun, hempty]
    apply consistent_of_aggregate
    · rw [hnil, aggregate_nil]
      simp [CreateInput.newRun, hempty]
    · rw [hnil, aggregate_nil]
      simp
    · simp [CreateInput.newRun, hempty, RunState.terminal]
    · exact htargets
  · have hne : (input.newRun now).targets ≠ [] := by
      intro hnil
      obtain ⟨targetId, rest, hcons⟩ := exists_cons_of_ne_nil hempty
      have hmem : targetId ∈ input.targetIds.dedup.insertionSort (· ≤ ·) := by
        rw [mem_insertionSort, mem_dedup, hcons]
        exact mem_cons_self
      rw [CreateInput.newRun, map_eq_nil_iff] at hnil
      rw [hnil] at hmem
      exact absurd hmem not_mem_nil
    have haggregate := aggregate_queued hne fun t ht => (hqueued t ht).1
    apply consistent_of_aggregate
    · rw [haggregate]
      simp [CreateInput.newRun, hempty]
    · rw [haggregate]
      simp
    · simp [CreateInput.newRun, hempty, RunState.terminal]
    · exact htargets

theorem SameOutcome.unmetRecorded {run' : Run} (h : SameOutcome run run') :
    run'.unmetRecorded = run.unmetRecorded := by
  unfold Run.unmetRecorded
  rw [h.result]

theorem SameOutcome.consistent {run' : Run} (h : SameOutcome run run') (hrun : run.Consistent) :
    run'.Consistent where
  state := by
    rw [h.state, hrun.state, Run.derivedState, Run.derivedState, h.targets, h.unmetRecorded]
  completedAt := by rw [h.completedAt, h.state, hrun.completedAt]
  targets := by
    rw [h.targets]
    exact hrun.targets
  noTargets := by
    rw [h.targets, h.state]
    exact hrun.noTargets

/-- Finalizing consults the recorded result, and recomputes the outcome of a completed run. -/
theorem consistent_finalize (hrun : run.Consistent) (input : FinalizeInput)
    (now : Timestamp) : (run.finalizeDeliveryContract input now).Consistent := by
  unfold Run.finalizeDeliveryContract Run.withContract
  split
  · exact hrun
  · rename_i contract hcontract
    split
    · have hstate := hrun.state
      have hkept : run.unmetRecorded = true →
          ((contract.finalize input).result.map (·.isUnmet)).getD false = true := by
        intro hunmet
        cases hresult : contract.result with
        | none => simp [Run.unmetRecorded, hcontract, hresult] at hunmet
        | some result =>
          simp only [Run.unmetRecorded, hcontract, Option.bind_some, hresult,
            Option.map_some] at hunmet
          simp [DeliveryContract.finalize, hresult, hunmet]
      by_cases hcompleted : run.state = .completed
      · -- the outcome is open: the result decides between the two completed states
        have haggregate : aggregateAsyncRunState run.targets = .completed := by
          rw [hcompleted, Run.derivedState] at hstate
          split at hstate
          · exact absurd hstate (by simp)
          · exact hstate.symm
        have hne := ((aggregate_completed_iff _).mp haggregate).1
        refine ⟨?_, ?_, hrun.targets, fun hnil => absurd hnil hne⟩
        · simp [hcompleted, Run.derivedState, haggregate, Run.unmetRecorded]
        · rw [hrun.completedAt, hcompleted]
          simp only [decide_true]
          split <;> rfl
      · refine ⟨?_, ?_, hrun.targets, ?_⟩
        · simp only [hcompleted, decide_false, Bool.false_and, Bool.false_eq_true, if_false]
          rw [hstate, Run.derivedState, Run.derivedState]
          by_cases haggregate : aggregateAsyncRunState run.targets = .completed
          · have hunmet : run.unmetRecorded = true := by
              by_contra hmet
              rw [Run.derivedState, if_neg (fun h => hmet h.2)] at hstate
              exact hcompleted (hstate.trans haggregate)
            rw [if_pos ⟨haggregate, hunmet⟩, if_pos ⟨haggregate, hkept hunmet⟩]
          · rw [if_neg fun h => haggregate h.1, if_neg fun h => haggregate h.1]
        · simp only [hcompleted]
          exact hrun.completedAt
        · simp only [hcompleted]
          exact hrun.noTargets
    · exact hrun

theorem isUnmet_abandon {contract : DeliveryContract} (h : contract.unsettled = true)
    (now : Timestamp) : ((contract.abandon now).result.map (·.isUnmet)).getD false = false := by
  have hne : contract.expect.getD [] ≠ [] := by
    simp only [DeliveryContract.unsettled, Bool.and_eq_true, Bool.not_eq_true',
      isEmpty_eq_false_iff] at h
    exact h.1
  obtain ⟨spec, rest, hcons⟩ := exists_cons_of_ne_nil hne
  simp [DeliveryContract.abandon, ContractResult.isUnmet]

theorem consistent_recoverPending (hrun : run.Consistent) (now : Timestamp) :
    (run.recoverPending now).Consistent := by
  unfold Run.recoverPending
  split
  · rename_i contract hcontract
    split
    · rename_i hpending
      have hnone : contract.result = none := by
        have hunsettled := hpending.2.2
        simp only [DeliveryContract.unsettled, Bool.and_eq_true, Option.isNone_iff_eq_none]
          at hunsettled
        exact hunsettled.2
      have hbefore : run.unmetRecorded = false := by
        simp [Run.unmetRecorded, hcontract, hnone]
      have hstate : run.state = aggregateAsyncRunState run.targets := by
        rw [hrun.state, Run.derivedState, if_neg (by simp [hbefore])]
      apply consistent_of_aggregate
      · exact hstate
      · simp only [Run.unmetRecorded, Option.bind_some, isUnmet_abandon hpending.2.2 now]
        simp
      · exact hrun.completedAt
      · exact hrun.targets
    · exact hrun
  · exact hrun

theorem cancelOpen_terminal (now : Timestamp) (t : TargetRow) :
    (t.cancelOpen now).state.terminal = true := by
  unfold TargetRow.cancelOpen
  split
  · assumption
  · rfl

theorem consistent_recoverOpen (hrun : run.Consistent) (now : Timestamp) :
    (run.recoverOpen now).Consistent := by
  unfold Run.recoverOpen
  split
  · exact hrun
  · rename_i hopen
    have hterminal : (aggregateAsyncRunState (run.targets.map (TargetRow.cancelOpen now))).terminal =
        true := by
      rw [aggregate_terminal_iff]
      intro t ht
      obtain ⟨t, -, rfl⟩ := mem_map.mp ht
      exact cancelOpen_terminal now t
    apply consistent_of_aggregate
    · rfl
    · -- a target that was still under way is cancelled now, so the run is not completed
      rintro ⟨hcompleted, -⟩
      rw [hrun.terminal_iff] at hopen
      push Not at hopen
      obtain ⟨t, ht, hstate⟩ := hopen
      have hall := ((aggregate_completed_iff _).mp hcompleted).2 _ (mem_map_of_mem ht)
      simp [TargetRow.cancelOpen, hstate] at hall
    · exact hterminal.symm
    · intro t' ht'
      obtain ⟨t, ht, rfl⟩ := mem_map.mp ht'
      unfold TargetRow.cancelOpen
      split
      · exact hrun.targets t ht
      · rfl

def Run.CompletesOverUnmet (run : Run) (input : TransitionInput) : Prop :=
  run.unmetRecorded = true ∧ run.targets.any input.selects = true ∧ input.state = .completed ∧
    ∀ t ∈ run.targets, input.selects t = true ∨ t.state = .completed

theorem transition_completed_iff {input : TransitionInput} (now : Timestamp)
    (hany : run.targets.any input.selects = true) :
    aggregateAsyncRunState
        (run.targets.map fun t => if input.selects t then input.apply now t else t) = .completed ↔
      input.state = .completed ∧
      ∀ t ∈ run.targets, input.selects t = true ∨ t.state = .completed := by
  obtain ⟨t₀, ht₀, hselects⟩ := any_eq_true.mp hany
  rw [aggregate_completed_iff]
  constructor
  · rintro ⟨-, hall⟩
    constructor
    · have h := hall _ (mem_map_of_mem ht₀)
      simpa [hselects, TransitionInput.apply] using h
    · intro t ht
      have h := hall _ (mem_map_of_mem ht)
      by_cases hsel : input.selects t = true
      · exact .inl hsel
      · simp only [hsel] at h
        exact .inr h
  · rintro ⟨hstate, hall⟩
    constructor
    · intro hnil
      rw [map_eq_nil_iff] at hnil
      rw [hnil] at ht₀
      exact absurd ht₀ not_mem_nil
    · intro t' ht'
      obtain ⟨t, ht, rfl⟩ := mem_map.mp ht'
      by_cases hsel : input.selects t = true
      · simp [hsel, TransitionInput.apply, hstate]
      · simp only [hsel]
        exact (hall t ht).resolve_left hsel

theorem consistent_transition_iff (hrun : run.Consistent) (input : TransitionInput)
    (now : Timestamp) :
    (run.transitionTarget input now).Consistent ↔ ¬run.CompletesOverUnmet input := by
  by_cases hany : run.targets.any input.selects = true
  · have hiff := transition_completed_iff now hany
    rw [Run.transitionTarget, if_pos hany]
    constructor
    · rintro h ⟨hunmet, -, hstate, hall⟩
      have hcompleted := hiff.mpr ⟨hstate, hall⟩
      have hderived := h.state
      rw [Run.derivedState, if_pos ⟨hcompleted, hunmet⟩] at hderived
      exact absurd (hcompleted.symm.trans hderived) (by simp)
    · intro hnot
      apply consistent_of_aggregate
      · rfl
      · rintro ⟨hcompleted, hunmet⟩
        obtain ⟨hstate, hall⟩ := hiff.mp hcompleted
        exact hnot ⟨hunmet, hany, hstate, hall⟩
      · show (if _ then some now else none).isSome = _
        split <;> simp_all
      · intro t' ht'
        obtain ⟨t, ht, rfl⟩ := mem_map.mp ht'
        by_cases hsel : input.selects t = true
        · simp only [hsel, if_true, TransitionInput.apply]
          split <;> simp_all
        · simp only [hsel]
          exact hrun.targets t ht
  · rw [Run.transitionTarget, if_neg hany]
    exact ⟨fun _ h => hany h.2.1, fun _ => hrun⟩

/-! ## Runs of the store -/

def MeetsContract (s : Store) : Op → Prop
  | .transition input _ =>
    ∀ run ∈ s.rows, run.id = input.runId → ¬run.CompletesOverUnmet input
  | _ => True

theorem consistent_updateRun (hs : s.Consistent) {runId : String} {f : Run → Run}
    (hf : ∀ run, (f run).id = run.id)
    (hstep : ∀ run ∈ s.rows, run.id = runId → run.Consistent → (f run).Consistent) :
    (s.updateRun runId f hf).Consistent := by
  intro run' hrun'
  obtain ⟨run, hrun, rfl⟩ := (mem_updateRun_iff hf).mp hrun'
  split
  · rename_i hid
    exact hstep run hrun hid (hs run hrun)
  · exact hs run hrun

/-- An operation within its contract keeps every run consistent. -/
theorem consistent_step (op : Op) (hs : s.Consistent) (hop : MeetsContract s op) :
    (step s op).Consistent := by
  cases op with
  | create input now =>
    intro run hrun
    rcases mem_createAsyncRun hrun with hrun | rfl
    · exact hs run hrun
    · exact consistent_newRun input now
  | transition input now =>
    apply consistent_updateRun hs (transitionTarget_id input now)
    intro run hrun hid hconsistent
    exact (consistent_transition_iff hconsistent input now).mpr (hop run hrun hid)
  | finalize input now =>
    apply consistent_updateRun hs (finalizeDeliveryContract_id input now)
    exact fun run _ _ hconsistent => consistent_finalize hconsistent input now
  | stampFollowup runId decidedAt now =>
    apply consistent_updateRun hs (stampFollowupDecidedAt_id decidedAt now)
    exact fun run _ _ hconsistent => (sameOutcome_stamp run decidedAt now).consistent hconsistent
  | setPending runId pending now =>
    apply consistent_updateRun hs (setContractPending_id pending now)
    exact fun run _ _ hconsistent => (sameOutcome_setPending run pending now).consistent hconsistent
  | setBaseline runId baseline now =>
    apply consistent_updateRun hs (setContractBaseline_id baseline now)
    exact fun run _ _ hconsistent =>
      (sameOutcome_setBaseline run baseline now).consistent hconsistent
  | recover now cutoff =>
    intro run' hrun'
    obtain ⟨run, hrun, rfl⟩ := mem_recoverAsyncRuns hrun'
    exact consistent_recoverOpen (consistent_recoverPending (hs run hrun) now) now

theorem meetsContract_of_consistent (op : Op) (hs : s.Consistent)
    (hstep : (step s op).Consistent) : MeetsContract s op := by
  cases op with
  | transition input now =>
    intro run hrun hid
    apply (consistent_transition_iff (hs run hrun) input now).mp
    apply hstep
    exact (mem_updateRun_iff (transitionTarget_id input _)).mpr ⟨run, hrun, by rw [if_pos hid]⟩
  | _ => trivial

/-- **The aggregate invariant**: along every run of the store, from empty, every state is
    consistent exactly when no transition completes a run over a recorded unmet result. -/
theorem consistent_iff (ops : List Op) :
    (∀ pre, pre <+: ops → Store.Consistent (exec step Table.empty pre)) ↔
      Guarded step MeetsContract Table.empty ops := by
  apply forall_prefix_iff_guarded (I := Store.Consistent)
  · exact fun _ h => h
  · exact fun s op hs hop => consistent_step op hs hop
  · exact fun s op hs hstep => meetsContract_of_consistent op hs hstep
  · intro run hrun
    exact absurd hrun not_mem_nil

/-- One target, cancelled by the watchdog, its contract finalized as unmet, and then the late
    completion. -/
def lateCompletion : List Op :=
  let contract : DeliveryContract :=
    { expect := some ["text:^DONE$"], contractPending := none, baseline := none, result := none,
      followupPostedAt := none, childRunId := none, abandonedAt := none, followupDecidedAt := none }
  let result : ContractResult :=
    { met := false, unmet := ["text:^DONE$"], unknown := none, evaluatedAt := 3 }
  [ .create ⟨"run", "message", "human:operator", ["agent"], some contract⟩ 1,
    .transition ⟨"run", "agent", .cancelled, some "watchdog", none, none⟩ 2,
    .finalize ⟨"run", result, none, none, none, none⟩ 3,
    .transition ⟨"run", "agent", .completed, none, none, none⟩ 4 ]

theorem not_consistent_after_late_completion :
    ¬Store.Consistent (exec step Table.empty lateCompletion) := by
  intro h
  have hrows : ((exec step Table.empty lateCompletion).rows.map fun run =>
      (run.state, run.derivedState)) = [(.completed, .completedUnmet)] := by decide
  obtain ⟨run, hrun, hpair⟩ := mem_map.mp (hrows ▸ mem_singleton_self _)
  have hstate := (h run hrun).state
  rw [Prod.mk.injEq] at hpair
  rw [hpair.1, hpair.2] at hstate
  exact absurd hstate (by decide)

end RelayIde.AsyncRun
