import Mathlib.Data.List.Dedup
import Mathlib.Data.List.Sort
import RelayIde.Library.Machine
import RelayIde.Library.Table

/-!
# Async-Run Store

The tables `channel_async_runs` and `channel_async_run_targets`
(`server/channel-message-store.ts`).  A requester post opens a run with one target per
addressed profile; the state of the run is derived from the states of its targets whenever
one of them changes.

- `Op`, `step` — the store as a state machine
-/

open List

namespace RelayIde.AsyncRun

open RelayIde.Library

/-! ## Rows -/

/-- `ChannelAsyncRunTargetState`, less `completed_unmet`, which the column constraint refuses. -/
inductive TargetState where
  | queued
  | working
  | inputRequired
  | authRequired
  | completed
  | failed
  | cancelled
  | rejected
  | refused
  deriving DecidableEq

/-- The states of a target that has come to its end. -/
def TargetState.terminal : TargetState → Bool
  | .completed | .failed | .cancelled | .rejected | .refused => true
  | _ => false

/-- `ChannelAsyncRunState`. -/
inductive RunState where
  | submitted
  | working
  | inputRequired
  | authRequired
  | completed
  | completedUnmet
  | failed
  | cancelled
  | rejected
  deriving DecidableEq

def RunState.terminal : RunState → Bool
  | .completed | .completedUnmet | .failed | .cancelled | .rejected => true
  | _ => false

/-- `ChannelAsyncRunApprovalState`. -/
inductive ApprovalState where
  | requested
  | resolved
  | expired
  deriving DecidableEq

/-- A row of `channel_async_run_targets`. -/
structure TargetRow where
  targetId : String
  state : TargetState
  reason : Option String
  approvalState : Option ApprovalState
  turnId : Option String
  updatedAt : Timestamp
  completedAt : Option Timestamp
  deriving DecidableEq

/-- `deliveryContract.result`. -/
structure ContractResult where
  met : Bool
  unmet : List String
  /-- Specs that could not be verified, each with the reason. -/
  unknown : Option (List (String × String))
  evaluatedAt : Timestamp
  deriving DecidableEq

/-- Unmet specs and nothing left unverified: what turns `completed` into `completed_unmet`. -/
def ContractResult.isUnmet (result : ContractResult) : Bool :=
  !result.met && (result.unknown.getD []).isEmpty && !result.unmet.isEmpty

/-- `delivery_contract_json`. -/
structure DeliveryContract where
  /-- `none` when the stored value is not an array. -/
  expect : Option (List String)
  contractPending : Option Bool
  /-- The captured baseline, which may be an explicit null. -/
  baseline : Option (Option String)
  result : Option ContractResult
  followupPostedAt : Option Timestamp
  childRunId : Option String
  abandonedAt : Option Timestamp
  followupDecidedAt : Option Timestamp
  deriving DecidableEq

/-- A row of `channel_async_runs`, with its targets in the order of their ids. -/
structure Run where
  id : String
  requestMessageId : String
  requesterId : String
  state : RunState
  reason : Option String
  deliveryContract : Option DeliveryContract
  targets : List TargetRow
  createdAt : Timestamp
  updatedAt : Timestamp
  completedAt : Option Timestamp
  deriving DecidableEq

/-- The runs by id. -/
abbrev Store := Table Run.id

/-! ## The derived state -/

/-- The state of a run, by the states of its targets. -/
def aggregateAsyncRunState (targets : List TargetRow) : RunState :=
  if targets.isEmpty then .rejected
  else if targets.any fun t => !t.state.terminal then
    if targets.any fun t => decide (t.state = .authRequired) then .authRequired
    else if targets.any fun t => decide (t.state = .inputRequired) then .inputRequired
    else if targets.any fun t => decide (t.state = .working) then .working
    else .submitted
  else if targets.all fun t => decide (t.state = .completed) then .completed
  else if targets.all fun t => decide (t.state = .rejected) || decide (t.state = .refused) then
    .rejected
  else if targets.any fun t =>
      decide (t.state = .failed) || decide (t.state = .rejected) || decide (t.state = .refused) then
    .failed
  else .cancelled

def Run.unmetRecorded (run : Run) : Bool :=
  ((run.deliveryContract.bind (·.result)).map (·.isUnmet)).getD false

/-! ## Writers -/

/-- The reasons of a cancellation that later evidence may still replace. -/
def provisionalReasons : List String := ["server-restarted", "watchdog", "turn-ceiling"]

/-- A cancellation that Relay decided without the provider. -/
def TargetRow.provisional (t : TargetRow) : Bool :=
  decide (t.state = .cancelled) && (t.reason.map (decide <| · ∈ provisionalReasons)).getD false

/-- The fence of the compare-and-set. -/
def TargetRow.changeable (t : TargetRow) : Bool :=
  !t.state.terminal || t.provisional

/-- The input of `transitionAsyncRunTarget`. -/
structure TransitionInput where
  runId : String
  targetId : String
  state : TargetState
  reason : Option String
  approvalState : Option ApprovalState
  turnId : Option String

/-- The rows the compare-and-set hits. -/
def TransitionInput.selects (input : TransitionInput) (t : TargetRow) : Bool :=
  decide (t.targetId = input.targetId) && t.changeable

def TransitionInput.apply (input : TransitionInput) (now : Timestamp) (t : TargetRow) : TargetRow :=
  { t with
    state := input.state
    reason := input.reason
    approvalState := input.approvalState
    turnId := input.turnId.or t.turnId
    updatedAt := now
    completedAt := if input.state.terminal then some now else none }

/-- `transitionAsyncRunTargetImpl`, on the run it selects. -/
def Run.transitionTarget (run : Run) (input : TransitionInput) (now : Timestamp) : Run :=
  if run.targets.any input.selects then
    let targets := run.targets.map fun t => if input.selects t then input.apply now t else t
    let state := aggregateAsyncRunState targets
    { run with
      targets := targets
      state := state
      reason :=
        if run.reason = some "server-restarted" ∧ state ≠ .cancelled then none else run.reason
      updatedAt := now
      completedAt := if state.terminal then some now else none }
  else run

/-- The input of `finalizeAsyncRunDeliveryContract`. -/
structure FinalizeInput where
  runId : String
  result : ContractResult
  followupPostedAt : Option Timestamp
  childRunId : Option String
  abandonedAt : Option Timestamp
  followupDecidedAt : Option Timestamp

/-- The contract `finalizeAsyncRunDeliveryContractImpl` stores: what is recorded stays. -/
def DeliveryContract.finalize (contract : DeliveryContract) (input : FinalizeInput) :
    DeliveryContract :=
  { contract with
    contractPending := some false
    result := contract.result.or (some input.result)
    followupPostedAt := contract.followupPostedAt.or input.followupPostedAt
    childRunId := contract.childRunId.or input.childRunId
    abandonedAt := contract.abandonedAt.or input.abandonedAt
    followupDecidedAt := contract.followupDecidedAt.or input.followupDecidedAt }

/-- A writer of the contract: nothing happens without one, or when `expect` is no array. -/
def Run.withContract (run : Run) (f : DeliveryContract → Run) : Run :=
  match run.deliveryContract with
  | none => run
  | some contract => if contract.expect.isSome then f contract else run

/-- `finalizeAsyncRunDeliveryContractImpl`. -/
def Run.finalizeDeliveryContract (run : Run) (input : FinalizeInput) (now : Timestamp) : Run :=
  run.withContract fun contract =>
    let next := contract.finalize input
    let wantsUnmet := decide (run.state = .completed) && (next.result.map (·.isUnmet)).getD false
    { run with
      state := if wantsUnmet then .completedUnmet else run.state
      reason := if wantsUnmet then some "delivery-contract-unmet" else run.reason
      deliveryContract := some next
      updatedAt := now }

/-- `stampAsyncRunDeliveryContractFollowupDecidedAtImpl`. -/
def Run.stampFollowupDecidedAt (run : Run) (followupDecidedAt now : Timestamp) : Run :=
  run.withContract fun contract =>
    if contract.followupDecidedAt.isSome then run
    else
      { run with
        deliveryContract := some { contract with followupDecidedAt := some followupDecidedAt }
        updatedAt := now }

/-- `setAsyncRunDeliveryContractPendingImpl`. -/
def Run.setContractPending (run : Run) (pending : Bool) (now : Timestamp) : Run :=
  run.withContract fun contract =>
    if contract.contractPending = some pending then run
    else
      { run with
        deliveryContract := some { contract with contractPending := some pending }
        updatedAt := now }

/-- `setAsyncRunDeliveryContractBaselineImpl`: a baseline is captured once. -/
def Run.setContractBaseline (run : Run) (baseline : Option String) (now : Timestamp) : Run :=
  run.withContract fun contract =>
    if contract.baseline.isSome then run
    else
      { run with
        deliveryContract := some { contract with baseline := some baseline }
        updatedAt := now }

/-- The result a restart records for a contract nobody will evaluate. -/
def DeliveryContract.abandon (contract : DeliveryContract) (now : Timestamp) : DeliveryContract :=
  { contract with
    abandonedAt := contract.abandonedAt.or (some now)
    result := some
      { met := false
        unmet := []
        unknown := some ((contract.expect.getD []).map fun spec => (spec, "server-restarted"))
        evaluatedAt := now } }

/-- A contract with specs and no result yet. -/
def DeliveryContract.unsettled (contract : DeliveryContract) : Bool :=
  !(contract.expect.getD []).isEmpty && contract.result.isNone

/-- `recoverPendingTerminalRuns`, on one row. -/
def Run.recoverPending (run : Run) (now : Timestamp) : Run :=
  match run.deliveryContract with
  | some contract =>
    if run.state.terminal ∧ contract.contractPending = some true ∧ contract.unsettled then
      { run with
        deliveryContract := some { contract.abandon now with contractPending := some false }
        updatedAt := now }
    else run
  | none => run

/-- What a restart does to a target that was still under way. -/
def TargetRow.cancelOpen (now : Timestamp) (t : TargetRow) : TargetRow :=
  if t.state.terminal then t
  else
    { t with
      state := .cancelled
      reason := some "server-restarted"
      updatedAt := now
      completedAt := some now }

/-- `recoverAsyncRunsImpl`, on one open row. -/
def Run.recoverOpen (run : Run) (now : Timestamp) : Run :=
  if run.state.terminal then run
  else
    let targets := run.targets.map (TargetRow.cancelOpen now)
    { run with
      targets := targets
      state := aggregateAsyncRunState targets
      reason := some "server-restarted"
      updatedAt := now
      completedAt := some now
      deliveryContract := run.deliveryContract.map fun contract =>
        if contract.unsettled then contract.abandon now else contract }

/-- The run `appendCompleteWithAsyncRunImpl` opens for a stored message. -/
structure CreateInput where
  runId : String
  requestMessageId : String
  requesterId : String
  targetIds : List String
  deliveryContract : Option DeliveryContract

def CreateInput.newRun (input : CreateInput) (now : Timestamp) : Run where
  id := input.runId
  requestMessageId := input.requestMessageId
  requesterId := input.requesterId
  state := if input.targetIds.isEmpty then .rejected else .submitted
  reason := if input.targetIds.isEmpty then some "no-eligible-target" else none
  deliveryContract := input.deliveryContract
  targets := (input.targetIds.dedup.insertionSort (· ≤ ·)).map fun targetId =>
    { targetId := targetId, state := .queued, reason := none, approvalState := none,
      turnId := none, updatedAt := now, completedAt := none }
  createdAt := now
  updatedAt := now
  completedAt := if input.targetIds.isEmpty then some now else none

/-! ## The store -/

namespace Store

def getAsyncRun (s : Store) (id : String) : Option Run := s.find? id

def getAsyncRunForRequestMessage (s : Store) (messageId : String) : Option Run :=
  s.rows.find? fun run => decide (run.requestMessageId = messageId)

/-- The run half of `appendCompleteWithAsyncRunImpl`: a request that has a run is replayed. -/
def createAsyncRun (s : Store) (input : CreateInput) (now : Timestamp) : Store :=
  if (s.getAsyncRunForRequestMessage input.requestMessageId).isSome then s
  else s.insert (input.newRun now)

end Store

theorem transitionTarget_id (input : TransitionInput) (now : Timestamp) (run : Run) :
    (run.transitionTarget input now).id = run.id := by
  unfold Run.transitionTarget
  split <;> rfl

variable {run run' : Run} {f : DeliveryContract → Run}

theorem withContract_id
    (hf : ∀ contract, (f contract).id = run.id) : (run.withContract f).id = run.id := by
  unfold Run.withContract
  split
  · rfl
  · split
    · exact hf _
    · rfl

theorem finalizeDeliveryContract_id (input : FinalizeInput) (now : Timestamp) (run : Run) :
    (run.finalizeDeliveryContract input now).id = run.id :=
  withContract_id fun _ => rfl

theorem stampFollowupDecidedAt_id (decidedAt now : Timestamp) (run : Run) :
    (run.stampFollowupDecidedAt decidedAt now).id = run.id :=
  withContract_id fun _ => by split <;> rfl

theorem setContractPending_id (pending : Bool) (now : Timestamp) (run : Run) :
    (run.setContractPending pending now).id = run.id :=
  withContract_id fun _ => by split <;> rfl

theorem setContractBaseline_id (baseline : Option String) (now : Timestamp) (run : Run) :
    (run.setContractBaseline baseline now).id = run.id :=
  withContract_id fun _ => by split <;> rfl

theorem recoverPending_id (now : Timestamp) (run : Run) : (run.recoverPending now).id = run.id := by
  unfold Run.recoverPending
  split
  · split <;> rfl
  · rfl

theorem recoverOpen_id (now : Timestamp) (run : Run) : (run.recoverOpen now).id = run.id := by
  unfold Run.recoverOpen
  split <;> rfl

namespace Store

def updateRun (s : Store) (runId : String) (f : Run → Run) (hf : ∀ run, (f run).id = run.id) :
    Store :=
  s.updateWhere (fun run => decide (run.id = runId)) f hf

/-- A transition of one target of a run. -/
def transitionAsyncRunTarget (s : Store) (input : TransitionInput) (now : Timestamp) : Store :=
  s.updateRun input.runId (·.transitionTarget input now) (transitionTarget_id input now)

def finalizeAsyncRunDeliveryContract (s : Store) (input : FinalizeInput) (now : Timestamp) :
    Store :=
  s.updateRun input.runId (·.finalizeDeliveryContract input now)
    (finalizeDeliveryContract_id input now)

def stampAsyncRunDeliveryContractFollowupDecidedAt (s : Store) (runId : String)
    (decidedAt now : Timestamp) : Store :=
  s.updateRun runId (·.stampFollowupDecidedAt decidedAt now)
    (stampFollowupDecidedAt_id decidedAt now)

def setAsyncRunDeliveryContractPending (s : Store) (runId : String) (pending : Bool)
    (now : Timestamp) : Store :=
  s.updateRun runId (·.setContractPending pending now) (setContractPending_id pending now)

def setAsyncRunDeliveryContractBaseline (s : Store) (runId : String) (baseline : Option String)
    (now : Timestamp) : Store :=
  s.updateRun runId (·.setContractBaseline baseline now) (setContractBaseline_id baseline now)

/-- `pruneSettledAsyncRunsImpl`. -/
def pruneSettledAsyncRuns (s : Store) (cutoff : Timestamp) : Store :=
  s.deleteWhere fun run =>
    run.state.terminal && (run.completedAt.map (decide <| · < cutoff)).getD false

/-- `recoverAsyncRuns`: settle abandoned contracts, cancel open runs, drop old rows. -/
def recoverAsyncRuns (s : Store) (now cutoff : Timestamp) : Store :=
  let settled := s.updateWhere (fun _ => true) (·.recoverPending now) (recoverPending_id now)
  let cancelled := settled.updateWhere (fun _ => true) (·.recoverOpen now) (recoverOpen_id now)
  Store.pruneSettledAsyncRuns cancelled cutoff

end Store

inductive Op where
  | create (input : CreateInput) (now : Timestamp)
  | transition (input : TransitionInput) (now : Timestamp)
  | finalize (input : FinalizeInput) (now : Timestamp)
  | stampFollowup (runId : String) (decidedAt now : Timestamp)
  | setPending (runId : String) (pending : Bool) (now : Timestamp)
  | setBaseline (runId : String) (baseline : Option String) (now : Timestamp)
  | recover (now cutoff : Timestamp)

def step (s : Store) : Op → Store
  | .create input now => s.createAsyncRun input now
  | .transition input now => s.transitionAsyncRunTarget input now
  | .finalize input now => s.finalizeAsyncRunDeliveryContract input now
  | .stampFollowup runId decidedAt now =>
    s.stampAsyncRunDeliveryContractFollowupDecidedAt runId decidedAt now
  | .setPending runId pending now => s.setAsyncRunDeliveryContractPending runId pending now
  | .setBaseline runId baseline now => s.setAsyncRunDeliveryContractBaseline runId baseline now
  | .recover now cutoff => s.recoverAsyncRuns now cutoff

/-! ## What the writers leave of a row -/

variable {s : Store}

theorem mem_updateRun_iff {runId : String} {f : Run → Run} (hf : ∀ run, (f run).id = run.id) :
    run' ∈ (s.updateRun runId f hf).rows ↔
      ∃ run ∈ s.rows, run' = if run.id = runId then f run else run := by
  simp only [Store.updateRun, Table.rows_updateWhere, mem_map, decide_eq_true_eq]
  constructor
  · rintro ⟨run, hrun, heq⟩
    exact ⟨run, hrun, heq.symm⟩
  · rintro ⟨run, hrun, heq⟩
    exact ⟨run, hrun, heq.symm⟩

theorem mem_createAsyncRun {input : CreateInput} {now : Timestamp}
    (h : run ∈ (s.createAsyncRun input now).rows) : run ∈ s.rows ∨ run = input.newRun now := by
  unfold Store.createAsyncRun at h
  split at h
  · exact .inl h
  · unfold Table.insert at h
    split at h
    · exact .inl h
    · rcases mem_append.mp h with h | h
      · exact .inl h
      · exact .inr (mem_singleton.mp h)

/-- A request whose run id is free has a run after its creation: its own or the replayed one. -/
theorem exists_run_of_create {input : CreateInput} {now : Timestamp}
    (hfree : ∀ run ∈ s.rows, run.id ≠ input.runId) :
    ∃ run,
      (s.createAsyncRun input now).getAsyncRunForRequestMessage input.requestMessageId = some run := by
  rw [← Option.isSome_iff_exists]
  unfold Store.createAsyncRun
  split
  · assumption
  · have hinsert : (s.insert (input.newRun now)).rows = s.rows ++ [input.newRun now] := by
      have hnone : s.find? (input.newRun now).id = none :=
        (s.find?_eq_none_iff _).mpr hfree
      unfold Table.insert
      rw [dif_neg (by rw [hnone]; decide)]
    unfold Store.getAsyncRunForRequestMessage
    rw [hinsert, find?_isSome]
    exact ⟨_, mem_append_right _ (mem_singleton_self _), decide_eq_true rfl⟩

theorem mem_recoverAsyncRuns {now cutoff : Timestamp}
    (h : run' ∈ (s.recoverAsyncRuns now cutoff).rows) :
    ∃ run ∈ s.rows, run' = (run.recoverPending now).recoverOpen now := by
  unfold Store.recoverAsyncRuns Store.pruneSettledAsyncRuns at h
  simp only [Table.rows_deleteWhere, Table.rows_updateWhere, map_map, mem_filter, mem_map] at h
  have hmem := h.1
  obtain ⟨run, hrun, heq⟩ := hmem
  exact ⟨run, hrun, heq.symm⟩

structure SameOutcome (run run' : Run) : Prop where
  state : run'.state = run.state
  targets : run'.targets = run.targets
  completedAt : run'.completedAt = run.completedAt
  result : run'.deliveryContract.bind (·.result) = run.deliveryContract.bind (·.result)

theorem SameOutcome.refl (run : Run) : SameOutcome run run := ⟨rfl, rfl, rfl, rfl⟩

theorem sameOutcome_withContract
    (hf : ∀ contract, run.deliveryContract = some contract → SameOutcome run (f contract)) :
    SameOutcome run (run.withContract f) := by
  unfold Run.withContract
  split
  · exact .refl run
  · rename_i contract hcontract
    split
    · exact hf contract hcontract
    · exact .refl run

theorem sameOutcome_stamp (run : Run) (decidedAt now : Timestamp) :
    SameOutcome run (run.stampFollowupDecidedAt decidedAt now) := by
  apply sameOutcome_withContract
  intro contract hcontract
  split
  · exact .refl run
  · exact ⟨rfl, rfl, rfl, by simp [hcontract]⟩

theorem sameOutcome_setPending (run : Run) (pending : Bool) (now : Timestamp) :
    SameOutcome run (run.setContractPending pending now) := by
  apply sameOutcome_withContract
  intro contract hcontract
  split
  · exact .refl run
  · exact ⟨rfl, rfl, rfl, by simp [hcontract]⟩

theorem sameOutcome_setBaseline (run : Run) (baseline : Option String) (now : Timestamp) :
    SameOutcome run (run.setContractBaseline baseline now) := by
  apply sameOutcome_withContract
  intro contract hcontract
  split
  · exact .refl run
  · exact ⟨rfl, rfl, rfl, by simp [hcontract]⟩

end RelayIde.AsyncRun
