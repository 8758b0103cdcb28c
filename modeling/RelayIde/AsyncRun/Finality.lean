import Mathlib.Data.List.Forall2
import Mathlib.Data.List.Induction
import RelayIde.AsyncRun.Aggregate

/-!
# What Stays Once a Run Is Over

A target whose outcome came from the provider, from routing or from an interrupt is final: the
compare-and-set never selects it again.  A cancellation that Relay decided on its own (restart,
watchdog, turn ceiling) is provisional; a transition may still replace it, and one that names a
nonterminal state puts the target, and with it the run, back to work.

- `terminal_outcomes_stay` — the same, with what an exception needs
-/

namespace RelayIde.AsyncRun

open RelayIde.Library List

/-! ## One transition -/

/-- A target that no transition changes. -/
def TargetRow.final (t : TargetRow) : Bool :=
  t.state.terminal && !t.provisional

theorem final_iff_not_changeable (t : TargetRow) : t.final = true ↔ t.changeable = false := by
  unfold TargetRow.final TargetRow.changeable
  cases t.state.terminal <;> cases t.provisional <;> decide

/-- A transition that names a target and puts it back to work. -/
def Revives (run : Run) (t : TargetRow) (input : TransitionInput) : Prop :=
  input.runId = run.id ∧ input.targetId = t.targetId ∧ input.state.terminal = false

def TransitionInput.leaves (input : TransitionInput) (now : Timestamp) (run : Run) (t : TargetRow) :
    TargetRow :=
  if run.id = input.runId ∧ input.selects t = true then input.apply now t else t

theorem transitionTarget_targets (run : Run) (input : TransitionInput) (now : Timestamp) :
    (run.transitionTarget input now).targets =
      run.targets.map fun t => if input.selects t then input.apply now t else t := by
  unfold Run.transitionTarget
  split
  · rfl
  · rename_i hnone
    rw [map_congr_left, map_id]
    intro t ht
    have hsel : ¬input.selects t = true := fun h => hnone (any_eq_true.mpr ⟨t, ht, h⟩)
    rw [if_neg hsel]
    rfl

variable {s : Store} {input : TransitionInput} {now : Timestamp} {run' run : Run} {t : TargetRow}
  {inputs : List (TransitionInput × Timestamp)}

theorem mem_transition
    (h : run' ∈ (s.transitionAsyncRunTarget input now).rows) :
    ∃ run ∈ s.rows, run'.id = run.id ∧ run'.targets = run.targets.map (input.leaves now run) ∧
      (run' = run ∨ run' = run.transitionTarget input now) := by
  obtain ⟨run, hrun, rfl⟩ := (mem_updateRun_iff (transitionTarget_id input now)).mp h
  refine ⟨run, hrun, ?_, ?_, ?_⟩
  · split
    · exact transitionTarget_id input now run
    · rfl
  · split
    · rename_i hid
      rw [transitionTarget_targets]
      apply map_congr_left
      intro t _
      simp [TransitionInput.leaves, hid]
    · rename_i hid
      rw [map_congr_left, map_id]
      intro t _
      simp [TransitionInput.leaves, hid]
  · split
    · exact .inr rfl
    · exact .inl rfl

theorem leaves_targetId (input : TransitionInput) (now : Timestamp) (run : Run) (t : TargetRow) :
    (input.leaves now run t).targetId = t.targetId := by
  unfold TransitionInput.leaves
  split <;> rfl

theorem leaves_of_final (h : t.final = true) : input.leaves now run t = t := by
  have hchangeable := (final_iff_not_changeable t).mp h
  unfold TransitionInput.leaves
  rw [if_neg]
  rintro ⟨-, hsel⟩
  simp [TransitionInput.selects, hchangeable] at hsel

theorem revives_of_leaves
    (hbefore : t.state.terminal = true) (hafter : (input.leaves now run t).state.terminal = false) :
    t.provisional = true ∧ Revives run t input := by
  unfold TransitionInput.leaves at hafter
  split at hafter
  · rename_i h
    obtain ⟨hid, hsel⟩ := h
    simp only [TransitionInput.selects, TargetRow.changeable, hbefore, Bool.and_eq_true,
      decide_eq_true_eq] at hsel
    exact ⟨hsel.2, hid.symm, hsel.1.symm, hafter⟩
  · rw [hbefore] at hafter
    exact absurd hafter (by simp)

/-! ## Any number of transitions -/

def transitions (s : Store) (inputs : List (TransitionInput × Timestamp)) : Store :=
  exec (fun s input => s.transitionAsyncRunTarget input.1 input.2) s inputs

structure TargetFollows (inputs : List (TransitionInput × Timestamp)) (run : Run)
    (t t' : TargetRow) :
    Prop where
  targetId : t'.targetId = t.targetId
  final : t.final = true → t' = t
  terminal : t.state.terminal = true → t'.state.terminal = false →
    t.provisional = true ∧ ∃ input ∈ inputs, Revives run t input.1

structure Follows (inputs : List (TransitionInput × Timestamp)) (run run' : Run) : Prop where
  id : run'.id = run.id
  targets : List.Forall₂ (TargetFollows inputs run) run.targets run'.targets

theorem TargetFollows.refl (inputs : List (TransitionInput × Timestamp)) (run : Run)
    (t : TargetRow) : TargetFollows inputs run t t :=
  ⟨rfl, fun _ => rfl, fun h h' => absurd (h.symm.trans h') (by simp)⟩

/-- One more transition: a target it takes out of a terminal state was provisional then, and so
    it was at the start, or it had been revived before. -/
theorem TargetFollows.snoc
    {t' : TargetRow} (hid : run'.id = run.id) (h : TargetFollows inputs run t t')
    (input : TransitionInput) (now : Timestamp) :
    TargetFollows (inputs ++ [(input, now)]) run t (input.leaves now run' t') where
  targetId := (leaves_targetId input now run' t').trans h.targetId
  final hfinal := by
    rw [h.final hfinal]
    exact leaves_of_final hfinal
  terminal hterminal hopen := by
    cases hmid : t'.state.terminal with
    | false =>
      obtain ⟨hprovisional, input', hmem, hrevives⟩ := h.terminal hterminal hmid
      exact ⟨hprovisional, input', mem_append_left _ hmem, hrevives⟩
    | true =>
      obtain ⟨-, hrun, htarget, hstate⟩ := revives_of_leaves hmid hopen
      constructor
      · by_contra hnot
        have hfinal : t.final = true := by
          simp only [TargetRow.final, hterminal]
          simpa using hnot
        have hsame := h.final hfinal
        rw [hsame, leaves_of_final hfinal, hterminal] at hopen
        exact absurd hopen (by simp)
      · refine ⟨(input, now), by simp, ?_, ?_, hstate⟩
        · exact hrun.trans hid
        · exact htarget.trans h.targetId

theorem follows_snoc
    (h : Follows inputs run run') (input : TransitionInput) (now : Timestamp) {run'' : Run}
    (hid : run''.id = run'.id)
    (htargets : run''.targets = run'.targets.map (input.leaves now run')) :
    Follows (inputs ++ [(input, now)]) run run'' where
  id := hid.trans h.id
  targets := by
    rw [htargets, List.forall₂_map_right_iff]
    exact h.targets.imp fun t t' ht => ht.snoc h.id input now

theorem exists_follows (s : Store) (inputs : List (TransitionInput × Timestamp)) :
    ∀ run' ∈ (transitions s inputs).rows, ∃ run ∈ s.rows, Follows inputs run run' := by
  induction inputs using List.reverseRecOn with
  | nil =>
    intro run hrun
    refine ⟨run, hrun, rfl, List.forall₂_same.mpr fun t _ => ?_⟩
    exact .refl [] run t
  | append_singleton inputs last ih =>
    intro run'' hrun''
    rw [transitions, exec_append] at hrun''
    obtain ⟨run', hrun', hid, htargets, -⟩ := mem_transition hrun''
    obtain ⟨run, hrun, hfollows⟩ := ih run' hrun'
    exact ⟨run, hrun, follows_snoc hfollows last.1 last.2 hid htargets⟩

/-! ## Runs -/

/-- Every run the store can hold says `terminal` exactly when all its targets are; this needs
    nothing of the contract results. -/
def Store.Settles (s : Store) : Prop :=
  ∀ run ∈ s.rows, run.state.terminal = true ↔ ∀ t ∈ run.targets, t.state.terminal = true

theorem settles_updateRun (hs : s.Settles) {runId : String} {f : Run → Run}
    (hf : ∀ run, (f run).id = run.id)
    (hstep : ∀ run ∈ s.rows,
      (run.state.terminal = true ↔ ∀ t ∈ run.targets, t.state.terminal = true) →
      ((f run).state.terminal = true ↔ ∀ t ∈ (f run).targets, t.state.terminal = true)) :
    (s.updateRun runId f hf).Settles := by
  intro run' hrun'
  obtain ⟨run, hrun, rfl⟩ := (mem_updateRun_iff hf).mp hrun'
  split
  · exact hstep run hrun (hs run hrun)
  · exact hs run hrun

theorem settles_transition (hs : s.Settles) (input : TransitionInput) (now : Timestamp) :
    (s.transitionAsyncRunTarget input now).Settles := by
  apply settles_updateRun hs (transitionTarget_id input now)
  intro run _ hrun
  unfold Run.transitionTarget
  split
  · exact aggregate_terminal_iff _
  · exact hrun

theorem SameOutcome.settles (h : SameOutcome run run')
    (hrun : run.state.terminal = true ↔ ∀ t ∈ run.targets, t.state.terminal = true) :
    run'.state.terminal = true ↔ ∀ t ∈ run'.targets, t.state.terminal = true := by
  rw [h.state, h.targets]
  exact hrun

theorem settles_finalize (input : FinalizeInput) (now : Timestamp)
    (hrun : run.state.terminal = true ↔ ∀ t ∈ run.targets, t.state.terminal = true) :
    (run.finalizeDeliveryContract input now).state.terminal = true ↔
      ∀ t ∈ (run.finalizeDeliveryContract input now).targets, t.state.terminal = true := by
  unfold Run.finalizeDeliveryContract Run.withContract
  split
  · exact hrun
  · split
    · by_cases hcompleted : run.state = .completed
      · have hterminal : run.state.terminal = true := by
          rw [hcompleted]
          rfl
        have hall := hrun.mp hterminal
        constructor
        · exact fun _ => hall
        · intro _
          simp only [hcompleted]
          split <;> rfl
      · simp only [hcompleted]
        exact hrun
    · exact hrun

theorem settles_recover (now : Timestamp)
    (hrun : run.state.terminal = true ↔ ∀ t ∈ run.targets, t.state.terminal = true) :
    ((run.recoverPending now).recoverOpen now).state.terminal = true ↔
      ∀ t ∈ ((run.recoverPending now).recoverOpen now).targets, t.state.terminal = true := by
  have hpending : ((run.recoverPending now).state.terminal = true ↔
      ∀ t ∈ (run.recoverPending now).targets, t.state.terminal = true) := by
    unfold Run.recoverPending
    split
    · split <;> exact hrun
    · exact hrun
  unfold Run.recoverOpen
  split
  · exact hpending
  · exact aggregate_terminal_iff _

/-- After any operation a run is terminal with the last of its targets. -/
theorem settles_step (hs : s.Settles) (op : Op) : (step s op).Settles := by
  cases op with
  | create input now =>
    intro run hrun
    rcases mem_createAsyncRun hrun with hrun | rfl
    · exact hs run hrun
    · exact (consistent_newRun input now).terminal_iff
  | transition input now => exact settles_transition hs input now
  | finalize input now =>
    apply settles_updateRun hs (finalizeDeliveryContract_id input now)
    exact fun run _ hrun => settles_finalize input now hrun
  | stampFollowup runId decidedAt now =>
    apply settles_updateRun hs (stampFollowupDecidedAt_id decidedAt now)
    exact fun run _ hrun => (sameOutcome_stamp run decidedAt now).settles hrun
  | setPending runId pending now =>
    apply settles_updateRun hs (setContractPending_id pending now)
    exact fun run _ hrun => (sameOutcome_setPending run pending now).settles hrun
  | setBaseline runId baseline now =>
    apply settles_updateRun hs (setContractBaseline_id baseline now)
    exact fun run _ hrun => (sameOutcome_setBaseline run baseline now).settles hrun
  | recover now cutoff =>
    intro run' hrun'
    obtain ⟨run, hrun, rfl⟩ := mem_recoverAsyncRuns hrun'
    exact settles_recover now (hs run hrun)

theorem settles_exec (ops : List Op) : Store.Settles (exec step Table.empty ops) := by
  apply exec_invariant (I := Store.Settles)
  · exact fun s op hs => settles_step hs op
  · intro run hrun
    exact absurd hrun not_mem_nil

theorem settles_transitions (hs : s.Settles)
    (inputs : List (TransitionInput × Timestamp)) : (transitions s inputs).Settles := by
  apply exec_invariant (I := Store.Settles)
  · exact fun s input hs => settles_transition hs input.1 input.2
  · exact hs

/-- **Terminal outcomes stay, but for a revival**: after any operations of the store and any
    transitions, a final target is unchanged; a target or a run that was terminal and is not any
    more had a provisional cancellation, for which some transition named a nonterminal state. -/
theorem terminal_outcomes_stay (ops : List Op) (inputs : List (TransitionInput × Timestamp))
    {run run' : Run} (hrun : run ∈ (exec step Table.empty ops).rows)
    (hrun' : run' ∈ (transitions (exec step Table.empty ops) inputs).rows)
    (hid : run'.id = run.id) :
    List.Forall₂ (TargetFollows inputs run) run.targets run'.targets ∧
      (run.state.terminal = true → run'.state.terminal = false →
        ∃ t ∈ run.targets, t.provisional = true ∧ ∃ input ∈ inputs, Revives run t input.1) := by
  obtain ⟨run₀, hrun₀, hfollows⟩ := exists_follows _ inputs run' hrun'
  have hsame : run₀ = run := Table.eq_of_key_eq _ hrun₀ hrun (hfollows.id.symm.trans hid)
  subst hsame
  refine ⟨hfollows.targets, fun hterminal hopen => ?_⟩
  have hall := (settles_exec ops run₀ hrun₀).mp hterminal
  have hsettles := settles_transitions (settles_exec ops) inputs run' hrun'
  have hnot : ¬∀ t ∈ run'.targets, t.state.terminal = true := by
    rw [← hsettles, hopen]
    simp
  push Not at hnot
  obtain ⟨t', ht', hstate⟩ := hnot
  -- the target at the same place before the transitions
  obtain ⟨i, hi, rfl⟩ := getElem_of_mem ht'
  have hlength := hfollows.targets.length_eq
  have hi' : i < run₀.targets.length := by omega
  have htarget := hfollows.targets.get hi' hi
  have hmem : run₀.targets[i] ∈ run₀.targets := getElem_mem hi'
  have hopen' : (run'.targets[i]).state.terminal = false := by simpa using hstate
  obtain ⟨hprovisional, hrevived⟩ := htarget.terminal (hall _ hmem) hopen'
  exact ⟨_, hmem, hprovisional, hrevived⟩

/-- A run of one target, which ends as given. -/
def oneTarget (state : TargetState) (reason : Option String) : List Op :=
  [ .create ⟨"run", "message", "human:operator", ["agent"], none⟩ 1,
    .transition ⟨"run", "agent", state, reason, none, none⟩ 2 ]

def lateWorking : List (TransitionInput × Timestamp) :=
  [(⟨"run", "agent", .working, none, none, none⟩, 3)]

theorem terminal_outcomes_stay_completed :
    ∃ run ∈ (exec step Table.empty (oneTarget .completed none)).rows,
      ∃ run' ∈ (transitions (exec step Table.empty (oneTarget .completed none)) lateWorking).rows,
        run.state = .completed ∧
          List.Forall₂ (TargetFollows lateWorking run) run.targets run'.targets := by
  let target : TargetRow := ⟨"agent", .completed, none, none, none, 2, some 2⟩
  let run : Run :=
    ⟨"run", "message", "human:operator", .completed, none, none, [target], 1, 2, some 2⟩
  have hrun : run ∈ (exec step Table.empty (oneTarget .completed none)).rows := by decide
  have hrun' : run ∈ (transitions (exec step Table.empty (oneTarget .completed none))
      lateWorking).rows := by decide
  exact ⟨run, hrun, run, hrun', rfl, (terminal_outcomes_stay _ _ hrun hrun' rfl).1⟩

/-- The watchdog's cancellation is terminal, and the runtime's next transition takes it back. -/
theorem watchdog_cancellation_reopens :
    let s := exec step Table.empty (oneTarget .cancelled (some "watchdog"))
    (s.rows.map fun run => (run.state, run.targets.map (·.state))) = [(.cancelled, [.cancelled])] ∧
      ((transitions s lateWorking).rows.map fun run => (run.state, run.targets.map (·.state))) =
        [(.working, [.working])] := by
  decide

end RelayIde.AsyncRun
