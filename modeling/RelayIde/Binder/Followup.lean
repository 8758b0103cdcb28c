import Mathlib.Data.List.Dedup
import RelayIde.AsyncRun.Rejection

/-!
# Delivery-Contract Follow-ups

A run whose contract turns out unmet is followed up by a child run for the same target
(`server/channel-agent-binder.ts`).  The evaluation that decides so is asynchronous: it awaits
the probes, records its result, decides, awaits once more and posts.  Between two awaits it runs
alone; what other evaluations and transitions do meanwhile is another operation.

- `followup_of_run` — one child at most, of the right depth and with a fresh contract, as long as
  no evaluation starts while another one of the same run is under way
-/

namespace RelayIde.Binder

open RelayIde.Library List
open RelayIde.AsyncRun (Run RunState ContractResult DeliveryContract TransitionInput)

/-! ## Evaluations -/

/-- What `evaluateDeliveryContract` resolves to. -/
structure ContractEvaluation where
  met : Bool
  unmet : List String
  /-- Specs that could not be verified, each with the reason. -/
  unknown : List (String × String)

def ContractEvaluation.result (evaluation : ContractEvaluation) (evaluatedAt : Timestamp) :
    ContractResult :=
  { met := evaluation.met, unmet := evaluation.unmet, unknown := some evaluation.unknown,
    evaluatedAt := evaluatedAt }

inductive EvaluationPhase where
  /-- At a probe, with the contract the transition returned. -/
  | probing (contract : DeliveryContract)
  /-- Before the post, with the contract it decided on. -/
  | posting (contract : DeliveryContract) (evaluation : ContractEvaluation)
      (evaluatedAt : Timestamp)

structure Evaluation where
  id : ℕ
  runId : String
  phase : EvaluationPhase

/-- A run as it was opened: the contract it started with and its two ancestry columns, which
    nothing writes later. -/
structure OpenedRun where
  runId : String
  followupDepth : Option ℕ
  parentRunId : Option String
  deliveryContract : Option DeliveryContract

structure FollowupState where
  runs : AsyncRun.Store
  /-- In the order they were opened. -/
  opened : List OpenedRun
  evaluations : List Evaluation
  nextEvaluation : ℕ

def FollowupState.start : FollowupState :=
  { runs := .empty, opened := [], evaluations := [], nextEvaluation := 0 }

/-- `contract.followupDepth ?? 0`, as the run's row carries it. -/
def FollowupState.followupDepth (s : FollowupState) (runId : String) : ℕ :=
  ((s.opened.find? fun opened => decide (opened.runId = runId)).bind (·.followupDepth)).getD 0

/-! ## Terminal transitions -/

def runStateText : RunState → String
  | .submitted => "submitted"
  | .working => "working"
  | .inputRequired => "input-required"
  | .authRequired => "auth-required"
  | .completed => "completed"
  | .completedUnmet => "completed_unmet"
  | .failed => "failed"
  | .cancelled => "cancelled"
  | .rejected => "rejected"

/-- A result that verifies nothing. -/
def unknownResult (expect : List String) (reason : String) (evaluatedAt : Timestamp) :
    ContractResult :=
  { met := false, unmet := [], unknown := some (expect.map fun spec => (spec, reason)),
    evaluatedAt := evaluatedAt }

def resultOnly (runId : String) (result : ContractResult) : AsyncRun.FinalizeInput :=
  { runId := runId, result := result, followupPostedAt := none, childRunId := none,
    abandonedAt := none, followupDecidedAt := none }

/-- Whether a run that a transition returned has a contract left to settle. -/
def DeliveryContract.awaitsResult (contract : DeliveryContract) (run : Run) : Bool :=
  !(contract.expect.getD []).isEmpty && contract.result.isNone && run.state.terminal

/-- `handleTerminalDeliveryContract`, with or without a live binding. -/
def handleTerminalDeliveryContract (s : FollowupState) (bound : Bool) (now : Timestamp)
    (run : Run) : FollowupState :=
  match run.deliveryContract with
  | none => s
  | some contract =>
    if DeliveryContract.awaitsResult contract run then
      let expect := contract.expect.getD []
      if run.state = .completed then
        if !bound then
          { s with
            runs := s.runs.finalizeAsyncRunDeliveryContract
              (resultOnly run.id (unknownResult expect
                "missing binding for completed contract evaluation" now)) now }
        else
          -- marked pending at once, then evaluated on its own
          let runs := s.runs.setAsyncRunDeliveryContractPending run.id true now
          let pending := ((runs.getAsyncRun run.id).bind (·.deliveryContract)).getD contract
          { s with
            runs := runs
            evaluations := s.evaluations ++ [⟨s.nextEvaluation, run.id, .probing pending⟩]
            nextEvaluation := s.nextEvaluation + 1 }
      else
        let reason := run.reason.getD (runStateText run.state)
        { s with
          runs := s.runs.finalizeAsyncRunDeliveryContract
            (resultOnly run.id (unknownResult expect
              s!"run ended {runStateText run.state}: {reason}" now)) now }
    else s

/-- A transition of a target; the store returns the run also when nothing changed. -/
def FollowupState.transition (s : FollowupState) (input : TransitionInput) (bound : Bool)
    (now : Timestamp) : FollowupState :=
  let runs := s.runs.transitionAsyncRunTarget input now
  match runs.getAsyncRun input.runId with
  | none => { s with runs := runs }
  | some run => handleTerminalDeliveryContract { s with runs := runs } bound now run

/-! ## Resumptions -/

def FollowupState.evaluation? (s : FollowupState) (id : ℕ) : Option Evaluation :=
  s.evaluations.find? fun e => decide (e.id = id)

/-- The evaluation returns. -/
def FollowupState.finish (s : FollowupState) (id : ℕ) : FollowupState :=
  { s with evaluations := s.evaluations.filter fun e => !decide (e.id = id) }

def FollowupState.suspend (s : FollowupState) (id : ℕ) (phase : EvaluationPhase) : FollowupState :=
  { s with
    evaluations := s.evaluations.map fun e => if e.id = id then { e with phase := phase } else e }

/-- `stampFollowupDecidedAt` of an evaluation that holds `contract`. -/
def FollowupState.stampFollowupDecidedAt (s : FollowupState) (contract : DeliveryContract)
    (runId : String) (now : Timestamp) : FollowupState :=
  if contract.followupDecidedAt.isSome then s
  else { s with runs := s.runs.stampAsyncRunDeliveryContractFollowupDecidedAt runId now now }

def FollowupState.abandon (s : FollowupState) (runId : String) (evaluation : ContractEvaluation)
    (evaluatedAt now : Timestamp) : FollowupState :=
  { s with
    runs := s.runs.finalizeAsyncRunDeliveryContract
      { resultOnly runId (evaluation.result evaluatedAt) with abandonedAt := some now } now }

/-- `maybePostDeliveryContractFollowup`, up to the await in it; `paused` is the brake. -/
def FollowupState.maybePostFollowup (s : FollowupState) (maxFollowups : ℕ) (paused : Bool)
    (id : ℕ) (runId : String) (contract : DeliveryContract) (evaluation : ContractEvaluation)
    (evaluatedAt now : Timestamp) : FollowupState :=
  if contract.followupPostedAt.isSome then (s.stampFollowupDecidedAt contract runId now).finish id
  else if paused then (s.stampFollowupDecidedAt contract runId now).finish id
  else if maxFollowups = 0 then (s.stampFollowupDecidedAt contract runId now).finish id
  else if s.followupDepth runId ≥ maxFollowups then
    ((s.abandon runId evaluation evaluatedAt now).stampFollowupDecidedAt contract runId now).finish
      id
  else s.suspend id (.posting contract evaluation evaluatedAt)

/-- `evaluateDeliveryContractForCompletedRun` behind its probes. -/
def FollowupState.evaluated (s : FollowupState) (maxFollowups : ℕ) (paused : Bool) (id : ℕ)
    (evaluation : ContractEvaluation) (evaluatedAt now : Timestamp) : FollowupState :=
  match s.evaluation? id with
  | some ⟨_, runId, .probing contract⟩ =>
    let runs := s.runs.finalizeAsyncRunDeliveryContract
      (resultOnly runId (evaluation.result evaluatedAt)) now
    let updated := ((runs.getAsyncRun runId).bind (·.deliveryContract)).getD contract
    let s := { s with runs := runs }
    if !evaluation.unknown.isEmpty then s.finish id
    else if evaluation.met then s.finish id
    else s.maybePostFollowup maxFollowups paused id runId updated evaluation evaluatedAt now
  | _ => s

/-- A probe that throws. -/
def FollowupState.evaluationFailed (s : FollowupState) (id : ℕ) (message : String)
    (evaluatedAt : Timestamp) : FollowupState :=
  match s.evaluation? id with
  | some ⟨_, runId, .probing contract⟩ =>
    let expect := contract.expect.getD []
    if expect.isEmpty || contract.result.isSome then s.finish id
    else
      { s with
        runs := s.runs.finalizeAsyncRunDeliveryContract
          (resultOnly runId (unknownResult expect message evaluatedAt)) evaluatedAt }.finish id
  | _ => s

structure PostSeed where
  runId : String
  requestMessageId : String
  requesterId : String

/-- Ids are generated anew. -/
def FollowupState.fresh (s : FollowupState) (seed : PostSeed) : Bool :=
  s.opened.all (fun opened => !decide (opened.runId = seed.runId)) &&
    (s.runs.getAsyncRunForRequestMessage seed.requestMessageId).isNone

/-- `appendCompleteWithAsyncRun`: the run with its ancestry columns. -/
def FollowupState.openRun (s : FollowupState) (seed : PostSeed) (targetIds : List String)
    (followupDepth : Option ℕ) (parentRunId : Option String)
    (deliveryContract : Option DeliveryContract) (now : Timestamp) : FollowupState :=
  { s with
    runs := s.runs.createAsyncRun
      { runId := seed.runId, requestMessageId := seed.requestMessageId,
        requesterId := seed.requesterId, targetIds := targetIds,
        deliveryContract := deliveryContract } now
    opened := s.opened ++ [⟨seed.runId, followupDepth, parentRunId, deliveryContract⟩] }

/-- `nextContract`, less the ancestry columns. -/
def nextContract (contract : DeliveryContract) : DeliveryContract :=
  { contract with result := none, followupPostedAt := none }

/-- The rest of `maybePostDeliveryContractFollowup`; without a seed the post fails. -/
def FollowupState.posted (s : FollowupState) (id : ℕ) (seed : Option PostSeed)
    (targetProfileId : String) (now : Timestamp) : FollowupState :=
  match s.evaluation? id with
  | some ⟨_, runId, .posting contract evaluation evaluatedAt⟩ =>
    match seed with
    | none => (s.abandon runId evaluation evaluatedAt now).finish id
    | some seed =>
      if s.fresh seed then
        let child := s.openRun seed [targetProfileId] (some (s.followupDepth runId + 1))
          (some runId) (some (nextContract contract)) now
        { child with
          runs := child.runs.finalizeAsyncRunDeliveryContract
            { resultOnly runId (evaluation.result evaluatedAt) with
              followupPostedAt := some now, childRunId := some seed.runId } now }.finish id
      else s
  | _ => s

/-! ## Operations -/

inductive FollowupOp where
  /-- An original post, perhaps with a contract. -/
  | post (seed : PostSeed) (targetIds : List String) (expect : Option (List String))
      (now : Timestamp)
  | transition (input : TransitionInput) (bound : Bool) (now : Timestamp)
  | captureBaseline (runId : String) (baseline : Option String) (now : Timestamp)
  | evaluated (id : ℕ) (evaluation : ContractEvaluation) (paused : Bool)
      (evaluatedAt now : Timestamp)
  | evaluationFailed (id : ℕ) (message : String) (evaluatedAt : Timestamp)
  | posted (id : ℕ) (seed : Option PostSeed) (targetProfileId : String) (now : Timestamp)
  /-- Evaluations do not survive a restart. -/
  | restart (now cutoff : Timestamp)

/-- The contract of a post that asks for one. -/
def newContract (expect : List String) : DeliveryContract :=
  { expect := some expect, contractPending := none, baseline := none, result := none,
    followupPostedAt := none, childRunId := none, abandonedAt := none, followupDecidedAt := none }

def FollowupState.step (maxFollowups : ℕ) (s : FollowupState) : FollowupOp → FollowupState
  | .post seed targetIds expect now =>
    if s.fresh seed then
      s.openRun seed targetIds (expect.map fun _ => 0) none (expect.map newContract) now
    else s
  | .transition input bound now => s.transition input bound now
  | .captureBaseline runId baseline now =>
    { s with runs := s.runs.setAsyncRunDeliveryContractBaseline runId baseline now }
  | .evaluated id evaluation paused evaluatedAt now =>
    s.evaluated maxFollowups paused id evaluation evaluatedAt now
  | .evaluationFailed id message evaluatedAt => s.evaluationFailed id message evaluatedAt
  | .posted id seed targetProfileId now => s.posted id seed targetProfileId now
  | .restart now cutoff =>
    { s with runs := s.runs.recoverAsyncRuns now cutoff, evaluations := [] }

/-! ## What the writers leave of a contract -/

structure SameStamps (contract contract' : DeliveryContract) : Prop where
  followupPostedAt : contract'.followupPostedAt = contract.followupPostedAt
  childRunId : contract'.childRunId = contract.childRunId
  abandonedAt : contract'.abandonedAt = contract.abandonedAt
  followupDecidedAt : contract'.followupDecidedAt = contract.followupDecidedAt

theorem SameStamps.trans {a b c : DeliveryContract} (h : SameStamps a b) (h' : SameStamps b c) :
    SameStamps a c :=
  ⟨h'.1.trans h.1, h'.2.trans h.2, h'.3.trans h.3, h'.4.trans h.4⟩

structure Unfollowed (contract : DeliveryContract) : Prop where
  followupPostedAt : contract.followupPostedAt = none
  childRunId : contract.childRunId = none
  abandonedAt : contract.abandonedAt = none
  followupDecidedAt : contract.followupDecidedAt = none

theorem Unfollowed.of_sameStamps {contract contract' : DeliveryContract}
    (h : Unfollowed contract) (hsame : SameStamps contract contract') : Unfollowed contract' :=
  ⟨hsame.1.trans h.1, hsame.2.trans h.2, hsame.3.trans h.3, hsame.4.trans h.4⟩

structure CarriesContract (contract contract' : DeliveryContract) : Prop where
  expect : contract'.expect = contract.expect
  result : contract.result.isSome = true → contract'.result.isSome = true
  stamps : contract'.result = none → SameStamps contract contract'

/-- A writer that leaves the stamps alone. -/
structure KeepsContract (contract contract' : DeliveryContract) : Prop
    extends CarriesContract contract contract' where
  same : SameStamps contract contract'

variable (id : ℕ) (contract : DeliveryContract) (run : Run) (input : AsyncRun.FinalizeInput)

theorem SameStamps.refl : SameStamps contract contract :=
  ⟨rfl, rfl, rfl, rfl⟩

theorem KeepsContract.refl : KeepsContract contract contract :=
  ⟨⟨rfl, id, fun _ => .refl contract⟩, .refl contract⟩

theorem CarriesContract.of_result_eq_none {contract contract' : DeliveryContract}
    (h : CarriesContract contract contract') (hresult : contract'.result = none) :
    contract.result = none := by
  by_contra hsome
  have hafter := h.result (Option.isSome_iff_ne_none.mpr hsome)
  simp [hresult] at hafter

variable {a b c : DeliveryContract}

theorem CarriesContract.trans (h : CarriesContract a b)
    (h' : CarriesContract b c) : CarriesContract a c where
  expect := h'.expect.trans h.expect
  result := fun hresult => h'.result (h.result hresult)
  stamps := fun hnone => (h.stamps (h'.of_result_eq_none hnone)).trans (h'.stamps hnone)

theorem KeepsContract.trans (h : KeepsContract a b)
    (h' : KeepsContract b c) : KeepsContract a c :=
  ⟨h.toCarriesContract.trans h'.toCarriesContract, h.same.trans h'.same⟩

/-- A run whose contract, if it has one, stems from the one before. -/
structure Passes (R : DeliveryContract → DeliveryContract → Prop) (run run' : Run) : Prop where
  id : run'.id = run.id
  contract : ∀ contract', run'.deliveryContract = some contract' →
    ∃ contract, run.deliveryContract = some contract ∧ R contract contract'

abbrev Carries : Run → Run → Prop := Passes CarriesContract
abbrev Keeps : Run → Run → Prop := Passes KeepsContract

variable {run' : Run} {f : Run → Run} {e : Evaluation} {now : Timestamp} {op : FollowupOp}
  {seed : PostSeed} {s' : FollowupState} {targetIds : List String} {followupDepth : Option ℕ}
  {parentRunId : Option String} {deliveryContract : Option DeliveryContract}
  {phase : EvaluationPhase}

section Passes

variable {R : DeliveryContract → DeliveryContract → Prop}

theorem Passes.of_eq (hrefl : ∀ contract, R contract contract) {run : Run}
    (hid : run'.id = run.id) (hcontract : run'.deliveryContract = run.deliveryContract) :
    Passes R run run' :=
  ⟨hid, fun contract' h => ⟨contract', hcontract ▸ h, hrefl contract'⟩⟩

theorem Passes.of_some {run : Run} {contract contract' : DeliveryContract}
    (hid : run'.id = run.id) (hbefore : run.deliveryContract = some contract)
    (hafter : run'.deliveryContract = some contract') (h : R contract contract') :
    Passes R run run' := by
  refine ⟨hid, fun after hsome => ⟨contract, hbefore, ?_⟩⟩
  rw [hafter, Option.some.injEq] at hsome
  exact hsome ▸ h

theorem Passes.trans (htrans : ∀ a b c, R a b → R b c → R a c) {a b c : Run}
    (h : Passes R a b) (h' : Passes R b c) : Passes R a c := by
  refine ⟨h'.id.trans h.id, fun cc hc => ?_⟩
  obtain ⟨cb, hb, hbc⟩ := h'.contract cc hc
  obtain ⟨ca, ha, hab⟩ := h.contract cb hb
  exact ⟨ca, ha, htrans ca cb cc hab hbc⟩

theorem Passes.imp {R' : DeliveryContract → DeliveryContract → Prop}
    (himp : ∀ a b, R a b → R' a b) {run : Run} (h : Passes R run run') : Passes R' run run' := by
  refine ⟨h.id, fun contract' hcontract' => ?_⟩
  obtain ⟨contract, hcontract, hrel⟩ := h.contract contract' hcontract'
  exact ⟨contract, hcontract, himp contract contract' hrel⟩

theorem passes_withContract (hrefl : ∀ contract, R contract contract) {run : Run}
    {f : DeliveryContract → Run}
    (hf : ∀ contract, run.deliveryContract = some contract → contract.expect.isSome = true →
      Passes R run (f contract)) : Passes R run (run.withContract f) := by
  unfold Run.withContract
  split
  · exact .of_eq hrefl rfl rfl
  · rename_i contract hcontract
    split
    · rename_i hexpect
      exact hf contract hcontract hexpect
    · exact .of_eq hrefl rfl rfl

end Passes

theorem Keeps.refl : Keeps run run := .of_eq KeepsContract.refl rfl rfl

theorem Keeps.carries {run : Run} (h : Keeps run run') : Carries run run' :=
  h.imp fun _ _ => KeepsContract.toCarriesContract

theorem Carries.refl : Carries run run := (Keeps.refl run).carries

theorem Carries.trans {a b c : Run} (h : Carries a b) (h' : Carries b c) : Carries a c :=
  Passes.trans (R := CarriesContract) (fun _ _ _ => .trans) h h'

theorem Keeps.trans {a b c : Run} (h : Keeps a b) (h' : Keeps b c) : Keeps a c :=
  Passes.trans (R := KeepsContract) (fun _ _ _ => .trans) h h'

theorem keeps_transitionTarget (input : TransitionInput) (now : Timestamp) :
    Keeps run (run.transitionTarget input now) := by
  apply Passes.of_eq KeepsContract.refl (AsyncRun.transitionTarget_id input now run)
  unfold Run.transitionTarget
  split <;> rfl

theorem keeps_setContractPending (pending : Bool) (now : Timestamp) :
    Keeps run (run.setContractPending pending now) := by
  apply passes_withContract KeepsContract.refl
  intro contract hcontract _
  split
  · exact Keeps.refl run
  · have hsame : SameStamps contract { contract with contractPending := some pending } :=
      ⟨rfl, rfl, rfl, rfl⟩
    exact .of_some rfl hcontract rfl ⟨⟨rfl, id, fun _ => hsame⟩, hsame⟩

theorem keeps_setContractBaseline (baseline : Option String) (now : Timestamp) :
    Keeps run (run.setContractBaseline baseline now) := by
  apply passes_withContract KeepsContract.refl
  intro contract hcontract _
  split
  · exact Keeps.refl run
  · have hsame : SameStamps contract { contract with baseline := some baseline } :=
      ⟨rfl, rfl, rfl, rfl⟩
    exact .of_some rfl hcontract rfl ⟨⟨rfl, id, fun _ => hsame⟩, hsame⟩

theorem finalize_result : (contract.finalize input).result.isSome = true := by
  unfold AsyncRun.DeliveryContract.finalize
  cases contract.result <;> rfl

theorem carries_finalize (now : Timestamp) :
    Carries run (run.finalizeDeliveryContract input now) := by
  apply passes_withContract fun contract => (KeepsContract.refl contract).toCarriesContract
  intro contract hcontract _
  have hsome := finalize_result contract input
  refine .of_some rfl hcontract rfl ⟨rfl, fun _ => hsome, fun hnone => ?_⟩
  rw [hnone] at hsome
  cases hsome

theorem keeps_resultOnly (runId : String) (result : ContractResult) (now : Timestamp) :
    Keeps run (run.finalizeDeliveryContract (resultOnly runId result) now) := by
  apply passes_withContract KeepsContract.refl
  intro contract hcontract _
  have hsame : SameStamps contract (contract.finalize (resultOnly runId result)) :=
    ⟨Option.or_none, Option.or_none, Option.or_none, Option.or_none⟩
  exact .of_some rfl hcontract rfl
    ⟨⟨rfl, fun _ => finalize_result contract _, fun _ => hsame⟩, hsame⟩

/-- A run whose contract cannot be evaluated any more. -/
def RunSettled (run : Run) : Prop :=
  ∀ contract, run.deliveryContract = some contract → contract.expect.isSome = true →
    contract.result.isSome = true

theorem runSettled_finalize (now : Timestamp) :
    RunSettled (run.finalizeDeliveryContract input now) := by
  intro contract' hcontract' hexpect
  unfold Run.finalizeDeliveryContract Run.withContract at hcontract'
  split at hcontract'
  · rename_i hnone
    rw [hnone] at hcontract'
    cases hcontract'
  · rename_i contract hcontract
    split at hcontract'
    · simp only [Option.some.injEq] at hcontract'
      rw [← hcontract']
      exact finalize_result contract input
    · rename_i hskipped
      rw [hcontract, Option.some.injEq] at hcontract'
      exact absurd (hcontract' ▸ hexpect) hskipped

theorem RunSettled.carries {run : Run} (h : RunSettled run) (hcarries : Carries run run') :
    RunSettled run' := by
  intro contract' hcontract' hexpect
  obtain ⟨contract, hcontract, hc⟩ := hcarries.contract contract' hcontract'
  exact hc.result (h contract hcontract (hc.expect ▸ hexpect))

theorem carries_stamp {run : Run} (h : RunSettled run) (decidedAt now : Timestamp) :
    Carries run (run.stampFollowupDecidedAt decidedAt now) := by
  apply passes_withContract fun contract => (KeepsContract.refl contract).toCarriesContract
  intro contract hcontract hexpect
  split
  · exact Carries.refl run
  · have hsome := h contract hcontract hexpect
    refine .of_some rfl hcontract rfl ⟨rfl, id, fun hnone => ?_⟩
    rw [show contract.result = none from hnone] at hsome
    cases hsome

theorem carries_recover (now : Timestamp) :
    Carries run ((run.recoverPending now).recoverOpen now) := by
  have hpending : Carries run (run.recoverPending now) := by
    unfold Run.recoverPending
    split
    · rename_i contract hcontract
      split
      · exact .of_some rfl hcontract rfl ⟨rfl, fun _ => rfl, fun hnone => by cases hnone⟩
      · exact Carries.refl run
    · exact Carries.refl run
  refine hpending.trans ?_
  unfold Run.recoverOpen
  split
  · exact Carries.refl _
  · refine ⟨rfl, fun contract' hcontract' => ?_⟩
    obtain ⟨contract, hcontract, rfl⟩ := Option.map_eq_some_iff.mp hcontract'
    refine ⟨contract, hcontract, ?_⟩
    split
    · exact ⟨rfl, fun _ => rfl, fun hnone => by cases hnone⟩
    · exact (KeepsContract.refl contract).toCarriesContract

/-! ## What a step can do -/

/-- No row gains a stamp. -/
def KeepsRows (runs runs' : AsyncRun.Store) : Prop :=
  ∀ run' ∈ runs'.rows, ∃ run ∈ runs.rows, Keeps run run'

/-- One run may be stamped, all others stay as they are. -/
def CarriesRow (runId : String) (runs runs' : AsyncRun.Store) : Prop :=
  ∀ run' ∈ runs'.rows, ∃ run ∈ runs.rows, run' = run ∨ (run.id = runId ∧ Carries run run')

/-- A run has no contract left to evaluate. -/
def Settles (runs : AsyncRun.Store) (runId : String) : Prop :=
  ∀ run ∈ runs.rows, run.id = runId → RunSettled run

variable {runs runs' runs'' : AsyncRun.Store} {runId : String}

theorem KeepsRows.refl (runs : AsyncRun.Store) : KeepsRows runs runs :=
  fun run hrun => ⟨run, hrun, Keeps.refl run⟩

theorem KeepsRows.trans (h : KeepsRows runs runs') (h' : KeepsRows runs' runs'') :
    KeepsRows runs runs'' := by
  intro run'' hrun''
  obtain ⟨run', hrun', hsecond⟩ := h' run'' hrun''
  obtain ⟨run, hrun, hfirst⟩ := h run' hrun'
  exact ⟨run, hrun, hfirst.trans hsecond⟩

theorem CarriesRow.refl (runId : String) (runs : AsyncRun.Store) : CarriesRow runId runs runs :=
  fun run hrun => ⟨run, hrun, .inl rfl⟩

theorem CarriesRow.trans (h : CarriesRow runId runs runs') (h' : CarriesRow runId runs' runs'') :
    CarriesRow runId runs runs'' := by
  intro run'' hrun''
  obtain ⟨run', hrun', hsecond⟩ := h' run'' hrun''
  obtain ⟨run, hrun, hfirst⟩ := h run' hrun'
  refine ⟨run, hrun, ?_⟩
  rcases hfirst with rfl | ⟨hid, hfirst⟩
  · exact hsecond
  · rcases hsecond with rfl | ⟨-, hsecond⟩
    · exact .inr ⟨hid, hfirst⟩
    · exact .inr ⟨hid, hfirst.trans hsecond⟩

theorem keepsRows_updateRun (hf : ∀ run, (f run).id = run.id)
    (hkeeps : ∀ run, Keeps run (f run)) : KeepsRows runs (runs.updateRun runId f hf) := by
  intro run' hrun'
  obtain ⟨run, hrun, rfl⟩ := (AsyncRun.mem_updateRun_iff hf).mp hrun'
  refine ⟨run, hrun, ?_⟩
  split
  · exact hkeeps run
  · exact Keeps.refl run

theorem carriesRow_updateRun (hf : ∀ run, (f run).id = run.id)
    (hcarries : ∀ run ∈ runs.rows, run.id = runId → Carries run (f run)) :
    CarriesRow runId runs (runs.updateRun runId f hf) := by
  intro run' hrun'
  obtain ⟨run, hrun, rfl⟩ := (AsyncRun.mem_updateRun_iff hf).mp hrun'
  refine ⟨run, hrun, ?_⟩
  split
  · rename_i hid
    exact .inr ⟨hid, hcarries run hrun hid⟩
  · exact .inl rfl

theorem carriesRow_finalize (now : Timestamp) :
    CarriesRow input.runId runs (runs.finalizeAsyncRunDeliveryContract input now) :=
  carriesRow_updateRun _ fun run _ _ => carries_finalize run input now

theorem keepsRows_resultOnly (runId : String) (result : ContractResult) (now : Timestamp) :
    KeepsRows runs (runs.finalizeAsyncRunDeliveryContract (resultOnly runId result) now) :=
  keepsRows_updateRun _ fun run => keeps_resultOnly run runId result now

theorem settles_finalize (now : Timestamp) :
    Settles (runs.finalizeAsyncRunDeliveryContract input now) input.runId := by
  intro run' hrun' hid
  obtain ⟨run, hrun, rfl⟩ := (AsyncRun.mem_updateRun_iff _).mp hrun'
  split at hid
  · rename_i hselected
    rw [if_pos hselected]
    exact runSettled_finalize run input now
  · rename_i hskipped
    exact absurd hid hskipped

theorem Settles.carriesRow (h : Settles runs runId) (hcarries : CarriesRow runId runs runs') :
    Settles runs' runId := by
  intro run' hrun' hid
  obtain ⟨run, hrun, rfl | ⟨hrunId, hstep⟩⟩ := hcarries run' hrun'
  · exact h run' hrun hid
  · exact (h run hrun hrunId).carries hstep

/-- Everything a step can do to the runs, the runs opened so far and the evaluations. -/
inductive Effect (maxFollowups : ℕ) (s : FollowupState) : FollowupOp → FollowupState → Prop where
  | kept {op : FollowupOp} {runs : AsyncRun.Store} (hruns : KeepsRows s.runs runs) :
    Effect maxFollowups s op { s with runs := runs }
  | opened {seed : PostSeed} {targetIds : List String} {expect : Option (List String)}
      {now : Timestamp} (hfresh : s.fresh seed = true) :
    Effect maxFollowups s (.post seed targetIds expect now)
      (s.openRun seed targetIds (expect.map fun _ => 0) none (expect.map newContract) now)
  | started {input : TransitionInput} {now : Timestamp} {runs : AsyncRun.Store} {run : Run}
      {contract captured : DeliveryContract} (hruns : KeepsRows s.runs runs)
      (hrun : run ∈ s.runs.rows) (hid : run.id = input.runId)
      (hcontract : run.deliveryContract = some contract) (hexpect : contract.expect.isSome = true)
      (hresult : contract.result = none) (hsame : SameStamps contract captured) :
    Effect maxFollowups s (.transition input true now)
      { s with
        runs := runs
        evaluations := s.evaluations ++ [⟨s.nextEvaluation, input.runId, .probing captured⟩]
        nextEvaluation := s.nextEvaluation + 1 }
  | finished {op : FollowupOp} {e : Evaluation} {runs : AsyncRun.Store} (he : e ∈ s.evaluations)
      (hruns : CarriesRow e.runId s.runs runs) :
    Effect maxFollowups s op ({ s with runs := runs }.finish e.id)
  | suspended {op : FollowupOp} {e : Evaluation} {contract captured : DeliveryContract}
      {evaluation : ContractEvaluation} {evaluatedAt : Timestamp} {runs : AsyncRun.Store}
      (he : e ∈ s.evaluations) (hphase : e.phase = .probing contract)
      (hruns : KeepsRows s.runs runs) (hsettles : Settles runs e.runId)
      (hcaptured : captured = contract ∨
        ∃ run ∈ runs.rows, run.id = e.runId ∧ run.deliveryContract = some captured)
      (hdepth : s.followupDepth e.runId < maxFollowups) :
    Effect maxFollowups s op
      ({ s with runs := runs }.suspend e.id (.posting captured evaluation evaluatedAt))
  | followed {op : FollowupOp} {e : Evaluation} {contract : DeliveryContract}
      {evaluation : ContractEvaluation} {evaluatedAt : Timestamp} {seed : PostSeed}
      {targetIds : List String} {now : Timestamp} {runs : AsyncRun.Store} (he : e ∈ s.evaluations)
      (hphase : e.phase = .posting contract evaluation evaluatedAt) (hfresh : s.fresh seed = true)
      (hruns : CarriesRow e.runId (s.openRun seed targetIds (some (s.followupDepth e.runId + 1))
        (some e.runId) (some (nextContract contract)) now).runs runs) :
    Effect maxFollowups s op
      ({ s.openRun seed targetIds (some (s.followupDepth e.runId + 1)) (some e.runId)
          (some (nextContract contract)) now with runs := runs }.finish e.id)
  | restarted {now cutoff : Timestamp} {runs : AsyncRun.Store}
      (hruns : ∀ run' ∈ runs.rows, ∃ run ∈ s.runs.rows, Carries run run') :
    Effect maxFollowups s (.restart now cutoff) { s with runs := runs, evaluations := [] }

/-! ## The operations and their effects -/

variable {maxFollowups : ℕ} {s : FollowupState}

theorem evaluation?_eq_some {id : ℕ} (h : s.evaluation? id = some e) :
    e ∈ s.evaluations ∧ e.id = id :=
  ⟨mem_of_find?_eq_some h, by simpa using find?_some h⟩

theorem DeliveryContract.awaitsResult_eq_true {contract : DeliveryContract} {run : Run}
    (h : DeliveryContract.awaitsResult contract run = true) :
    contract.expect.isSome = true ∧ contract.result = none := by
  simp only [DeliveryContract.awaitsResult, Bool.and_eq_true, Option.isNone_iff_eq_none] at h
  refine ⟨?_, h.1.2⟩
  cases hexpect : contract.expect with
  | none => simp [hexpect] at h
  | some expect => rfl

theorem sameStamps_pending {run : Run} (hrun : run ∈ runs.rows) {contract : DeliveryContract}
    (hcontract : run.deliveryContract = some contract) (now : Timestamp) :
    SameStamps contract
      ((((runs.setAsyncRunDeliveryContractPending run.id true now).getAsyncRun run.id).bind
        (·.deliveryContract)).getD contract) := by
  cases hfind : (runs.setAsyncRunDeliveryContractPending run.id true now).getAsyncRun run.id with
  | none => exact .refl contract
  | some run' =>
    obtain ⟨hmem, hid⟩ := (Table.find?_eq_some_iff _ _ _).mp hfind
    obtain ⟨before, hbefore, heq⟩ := (AsyncRun.mem_updateRun_iff _).mp hmem
    -- the row found is the one marked pending
    have hsame : before = run := by
      refine runs.eq_of_key_eq hbefore hrun ?_
      rw [← hid, heq]
      split
      · exact (AsyncRun.setContractPending_id true now before).symm
      · rfl
    subst hsame
    rw [if_pos rfl] at heq
    cases hafter : run'.deliveryContract with
    | none => simp only [Option.bind_some, hafter]; exact .refl contract
    | some contract' =>
      have hkeeps := keeps_setContractPending before true now
      obtain ⟨contract₀, hcontract₀, hk⟩ := hkeeps.contract contract' (heq ▸ hafter)
      rw [hcontract, Option.some.injEq] at hcontract₀
      simp only [Option.bind_some, hafter]
      exact hcontract₀ ▸ hk.same

/-- A terminal transition records a result without stamps, or starts an evaluation. -/
theorem effect_handleTerminalDeliveryContract {input : TransitionInput} {bound : Bool}
    (hruns : KeepsRows s.runs runs) {run : Run} (hrun : run ∈ runs.rows)
    (hid : run.id = input.runId) :
    Effect maxFollowups s (.transition input bound now)
      (handleTerminalDeliveryContract { s with runs := runs } bound now run) := by
  unfold handleTerminalDeliveryContract
  split
  · exact .kept hruns
  · rename_i contract hcontract
    split
    · rename_i hawaits
      split
      · split
        · exact .kept (hruns.trans (keepsRows_resultOnly _ _ _))
        · rename_i hbound
          obtain rfl : bound = true := by simpa using hbound
          obtain ⟨hexpect, hresult⟩ := DeliveryContract.awaitsResult_eq_true hawaits
          obtain ⟨before, hbefore, hkeeps⟩ := hruns run hrun
          obtain ⟨contract₀, hcontract₀, hk⟩ := hkeeps.contract contract hcontract
          have hpending :
              KeepsRows runs (runs.setAsyncRunDeliveryContractPending run.id true now) :=
            keepsRows_updateRun _ fun run => keeps_setContractPending run true now
          rw [hid] at hpending ⊢
          exact .started (hruns.trans hpending) hbefore (hkeeps.id.symm.trans hid) hcontract₀
            (hk.expect ▸ hexpect) (hk.of_result_eq_none hresult)
            (hk.same.trans (hid ▸ sameStamps_pending hrun hcontract now))
      · exact .kept (hruns.trans (keepsRows_resultOnly _ _ _))
    · exact .kept hruns

theorem effect_transition (input : TransitionInput) (bound : Bool) (now : Timestamp) :
    Effect maxFollowups s (.transition input bound now) (s.transition input bound now) := by
  have hruns : KeepsRows s.runs (s.runs.transitionAsyncRunTarget input now) :=
    keepsRows_updateRun _ fun run => keeps_transitionTarget run input now
  unfold FollowupState.transition
  dsimp only
  split
  · exact .kept hruns
  · rename_i run hrun
    obtain ⟨hmem, hid⟩ := (Table.find?_eq_some_iff _ _ _).mp hrun
    exact effect_handleTerminalDeliveryContract hruns hmem hid

theorem stampFollowupDecidedAt_eq (h : Settles s.runs runId) (contract : DeliveryContract)
    (now : Timestamp) : ∃ runs, CarriesRow runId s.runs runs ∧
      s.stampFollowupDecidedAt contract runId now = { s with runs := runs } := by
  unfold FollowupState.stampFollowupDecidedAt
  split
  · exact ⟨s.runs, .refl runId s.runs, rfl⟩
  · refine ⟨_, carriesRow_updateRun _ fun run hrun hid => ?_, rfl⟩
    exact carries_stamp (h run hrun hid) now now

theorem effect_maybePostFollowup {contract : DeliveryContract}
    (he : e ∈ s.evaluations) (hphase : e.phase = .probing contract)
    {evaluation : ContractEvaluation} {evaluatedAt : Timestamp}
    (hruns : runs = s.runs.finalizeAsyncRunDeliveryContract
      (resultOnly e.runId (evaluation.result evaluatedAt)) now)
    {captured : DeliveryContract} (hcaptured : captured = contract ∨
      ∃ run ∈ runs.rows, run.id = e.runId ∧ run.deliveryContract = some captured) (paused : Bool) :
    Effect maxFollowups s op ({ s with runs := runs }.maybePostFollowup maxFollowups paused e.id
      e.runId captured evaluation evaluatedAt now) := by
  have hrow : CarriesRow e.runId s.runs runs := by
    rw [hruns]
    exact carriesRow_finalize (resultOnly e.runId (evaluation.result evaluatedAt)) now
  have hsettles : Settles runs e.runId := by
    rw [hruns]
    exact settles_finalize (resultOnly e.runId (evaluation.result evaluatedAt)) now
  have hstamped : Effect maxFollowups s op
      ((FollowupState.stampFollowupDecidedAt { s with runs := runs } captured e.runId now).finish
        e.id) := by
    obtain ⟨runs', hstamp, heq⟩ :=
      stampFollowupDecidedAt_eq (s := { s with runs := runs }) hsettles captured now
    rw [heq]
    exact .finished he (hrow.trans hstamp)
  unfold FollowupState.maybePostFollowup
  split
  · exact hstamped
  · split
    · exact hstamped
    · split
      · exact hstamped
      · split
        · -- the chain is given up
          have habandon : CarriesRow e.runId runs _ := carriesRow_finalize
            { resultOnly e.runId (evaluation.result evaluatedAt) with abandonedAt := some now } now
          obtain ⟨runs', hstamp, heq⟩ := stampFollowupDecidedAt_eq
            (s := FollowupState.abandon { s with runs := runs } e.runId evaluation evaluatedAt now)
            (hsettles.carriesRow habandon) captured now
          rw [heq]
          exact .finished he ((hrow.trans habandon).trans hstamp)
        · rename_i hdepth
          refine .suspended he hphase ?_ hsettles hcaptured (Nat.lt_of_not_le hdepth)
          rw [hruns]
          exact keepsRows_resultOnly _ _ _

theorem effect_evaluated (evaluation : ContractEvaluation) (paused : Bool)
    (evaluatedAt now : Timestamp) :
    Effect maxFollowups s (.evaluated id evaluation paused evaluatedAt now)
      (s.evaluated maxFollowups paused id evaluation evaluatedAt now) := by
  unfold FollowupState.evaluated
  split
  · rename_i eid runId contract hfind
    obtain ⟨he, rfl⟩ := evaluation?_eq_some hfind
    have hrow : CarriesRow runId s.runs _ :=
      carriesRow_finalize (resultOnly runId (evaluation.result evaluatedAt)) now
    split
    · exact .finished he hrow
    · split
      · exact .finished he hrow
      · refine effect_maybePostFollowup he rfl rfl ?_ paused
        -- the contract the finalize returned, if there still is one
        generalize s.runs.finalizeAsyncRunDeliveryContract
          (resultOnly runId (evaluation.result evaluatedAt)) now = runs
        cases hrun : runs.getAsyncRun runId with
        | none => exact .inl rfl
        | some run =>
          obtain ⟨hmem, hid⟩ := (Table.find?_eq_some_iff _ _ _).mp hrun
          cases hcontract : run.deliveryContract with
          | none => exact .inl (by simp [hcontract])
          | some updated => exact .inr ⟨run, hmem, hid, by simp [hcontract]⟩
  · exact .kept (.refl s.runs)

theorem effect_evaluationFailed (message : String) (evaluatedAt : Timestamp) :
    Effect maxFollowups s (.evaluationFailed id message evaluatedAt)
      (s.evaluationFailed id message evaluatedAt) := by
  unfold FollowupState.evaluationFailed
  split
  · rename_i eid runId contract hfind
    obtain ⟨he, rfl⟩ := evaluation?_eq_some hfind
    dsimp only
    split
    · exact .finished he (.refl runId s.runs)
    · exact .finished he (carriesRow_finalize (resultOnly runId _) evaluatedAt)
  · exact .kept (.refl s.runs)

theorem effect_posted (seed : Option PostSeed) (targetProfileId : String) (now : Timestamp) :
    Effect maxFollowups s (.posted id seed targetProfileId now)
      (s.posted id seed targetProfileId now) := by
  unfold FollowupState.posted
  split
  · rename_i eid runId contract evaluation evaluatedAt hfind
    obtain ⟨he, rfl⟩ := evaluation?_eq_some hfind
    split
    · exact .finished he (carriesRow_finalize
        { resultOnly runId (evaluation.result evaluatedAt) with abandonedAt := some now } now)
    · rename_i seed
      split
      · rename_i hfresh
        exact .followed he rfl hfresh (carriesRow_finalize
          { resultOnly runId (evaluation.result evaluatedAt) with
            followupPostedAt := some now, childRunId := some seed.runId } now)
      · exact .kept (.refl s.runs)
  · exact .kept (.refl s.runs)

/-- **Effects**: whatever an operation does is one of them. -/
theorem effect_step (s : FollowupState) (op : FollowupOp) :
    Effect maxFollowups s op (s.step maxFollowups op) := by
  cases op with
  | post seed targetIds expect now =>
    unfold FollowupState.step
    dsimp only
    split
    · rename_i hfresh
      exact .opened hfresh
    · exact .kept (.refl s.runs)
  | transition input bound now => exact effect_transition input bound now
  | captureBaseline runId baseline now =>
    exact .kept (keepsRows_updateRun _ fun run => keeps_setContractBaseline run baseline now)
  | evaluated id evaluation paused evaluatedAt now =>
    exact effect_evaluated id evaluation paused evaluatedAt now
  | evaluationFailed id message evaluatedAt => exact effect_evaluationFailed id message evaluatedAt
  | posted id seed targetProfileId now => exact effect_posted id seed targetProfileId now
  | restart now cutoff =>
    refine .restarted fun run' hrun' => ?_
    obtain ⟨run, hrun, rfl⟩ := AsyncRun.mem_recoverAsyncRuns hrun'
    exact ⟨run, hrun, carries_recover run now⟩

/-! ## Depths -/

/-- A run that was opened under this id. -/
def FollowupState.Known (s : FollowupState) (runId : String) : Prop :=
  ∃ opened ∈ s.opened, opened.runId = runId

structure Grounded (maxFollowups : ℕ) (s : FollowupState) : Prop where
  ids : (s.evaluations.map (·.id)).Nodup
  below : ∀ e ∈ s.evaluations, e.id < s.nextEvaluation
  openedIds : (s.opened.map (·.runId)).Nodup
  rowsKnown : ∀ run ∈ s.runs.rows, s.Known run.id
  evaluationsKnown : ∀ e ∈ s.evaluations, s.Known e.runId
  bounded : ∀ opened ∈ s.opened, opened.followupDepth.getD 0 ≤ maxFollowups
  parent : ∀ child ∈ s.opened, ∀ parentRunId, child.parentRunId = some parentRunId →
    ∃ parent ∈ s.opened, parent.runId = parentRunId ∧
      child.followupDepth = some (parent.followupDepth.getD 0 + 1)
  posting : ∀ e ∈ s.evaluations, ∀ contract evaluation evaluatedAt,
    e.phase = .posting contract evaluation evaluatedAt → s.followupDepth e.runId < maxFollowups

theorem grounded_start : Grounded maxFollowups .start :=
  ⟨nodup_nil, fun _ he => (not_mem_nil he).elim, nodup_nil,
    fun _ hrun => (not_mem_nil hrun).elim, fun _ he => (not_mem_nil he).elim,
    fun _ ho => (not_mem_nil ho).elim, fun _ ho => (not_mem_nil ho).elim,
    fun _ he => (not_mem_nil he).elim⟩

theorem not_known_of_fresh (h : s.fresh seed = true) : ¬ s.Known seed.runId := by
  rintro ⟨opened, hopened, hid⟩
  simp only [FollowupState.fresh, Bool.and_eq_true, all_eq_true] at h
  have hne := h.1 opened hopened
  simp [hid] at hne

section
variable (h : Grounded maxFollowups s)
include h

theorem Grounded.of_sublist (hopened : s'.opened = s.opened)
    (hrows : ∀ run' ∈ s'.runs.rows, ∃ run ∈ s.runs.rows, run'.id = run.id)
    (hevaluations : s'.evaluations.Sublist s.evaluations)
    (hnext : s'.nextEvaluation = s.nextEvaluation) : Grounded maxFollowups s' where
  ids := h.ids.sublist (hevaluations.map _)
  below := fun e he => hnext ▸ h.below e (hevaluations.subset he)
  openedIds := hopened ▸ h.openedIds
  rowsKnown := fun run' hrun' => by
    obtain ⟨run, hrun, hid⟩ := hrows run' hrun'
    unfold FollowupState.Known
    rw [hopened, hid]
    exact h.rowsKnown run hrun
  evaluationsKnown := fun e he => by
    unfold FollowupState.Known
    rw [hopened]
    exact h.evaluationsKnown e (hevaluations.subset he)
  bounded := hopened ▸ h.bounded
  parent := hopened ▸ h.parent
  posting := fun e he contract evaluation evaluatedAt hphase => by
    unfold FollowupState.followupDepth
    rw [hopened]
    exact h.posting e (hevaluations.subset he) contract evaluation evaluatedAt hphase

theorem followupDepth_of_mem {opened : OpenedRun} (hopened : opened ∈ s.opened) :
    s.followupDepth opened.runId = opened.followupDepth.getD 0 := by
  unfold FollowupState.followupDepth
  cases hfind : s.opened.find? fun o => decide (o.runId = opened.runId) with
  | none =>
    have hne := find?_eq_none.mp hfind opened hopened
    simp at hne
  | some found =>
    have hid : found.runId = opened.runId := by simpa using find?_some hfind
    have hfound : found ∈ s.opened := mem_of_find?_eq_some hfind
    rw [inj_on_of_nodup_map h.openedIds hfound hopened hid]
    rfl

theorem grounded_openRun (hfresh : s.fresh seed = true)
    (hbounded : followupDepth.getD 0 ≤ maxFollowups)
    (hparent : ∀ runId, parentRunId = some runId → ∃ parent ∈ s.opened, parent.runId = runId ∧
      followupDepth = some (parent.followupDepth.getD 0 + 1)) :
    Grounded maxFollowups
      (s.openRun seed targetIds followupDepth parentRunId deliveryContract now) := by
  have hknown : ∀ runId, s.Known runId →
      (s.openRun seed targetIds followupDepth parentRunId deliveryContract now).Known runId :=
    fun runId ⟨opened, hopened, hid⟩ => ⟨opened, mem_append_left _ hopened, hid⟩
  refine ⟨h.ids, h.below, ?_, fun run hrun => ?_, fun e he => hknown _ (h.evaluationsKnown e he),
    fun opened hopened => ?_, fun child hchild runId hrunId => ?_,
    fun e he contract evaluation evaluatedAt hphase => ?_⟩
  · unfold FollowupState.openRun
    rw [map_append, nodup_append]
    refine ⟨h.openedIds, nodup_singleton _, fun id hid other hother heq => ?_⟩
    obtain ⟨opened, hopened, rfl⟩ := mem_map.mp hid
    rw [map_singleton, mem_singleton] at hother
    exact not_known_of_fresh hfresh ⟨opened, hopened, heq.trans hother⟩
  · rcases AsyncRun.mem_createAsyncRun hrun with hrun | rfl
    · exact hknown _ (h.rowsKnown run hrun)
    · exact ⟨_, mem_append_right _ (mem_singleton_self _), rfl⟩
  · rcases mem_append.mp hopened with hopened | hnew
    · exact h.bounded opened hopened
    · rw [mem_singleton.mp hnew]
      exact hbounded
  · rcases mem_append.mp hchild with hchild | hnew
    · obtain ⟨parent, hmem, hid, hdepth⟩ := h.parent child hchild runId hrunId
      exact ⟨parent, mem_append_left _ hmem, hid, hdepth⟩
    · rw [mem_singleton.mp hnew] at hrunId ⊢
      obtain ⟨parent, hmem, hid, hdepth⟩ := hparent runId hrunId
      exact ⟨parent, mem_append_left _ hmem, hid, hdepth⟩
  · -- an evaluated run is known, so the run opened last does not change its depth
    have hposting := h.posting e he contract evaluation evaluatedAt hphase
    obtain ⟨opened, hopened, hid⟩ := h.evaluationsKnown e he
    unfold FollowupState.followupDepth FollowupState.openRun at *
    rw [find?_append, Option.or_of_isSome]
    · exact hposting
    · rw [find?_isSome]
      exact ⟨opened, hopened, by simp [hid]⟩

end

theorem mem_finish {id : ℕ} (h : e ∈ (s.finish id).evaluations) :
    e ∈ s.evaluations ∧ e.id ≠ id := by
  simpa [FollowupState.finish] using h

theorem mem_suspend {id : ℕ}
    (h : e ∈ (s.suspend id phase).evaluations) :
    (e ∈ s.evaluations ∧ e.id ≠ id) ∨ ∃ e₀ ∈ s.evaluations, e₀.id = id ∧ e = { e₀ with phase } := by
  obtain ⟨e₀, he₀, rfl⟩ := mem_map.mp h
  split
  · rename_i hid
    exact .inr ⟨e₀, he₀, hid, rfl⟩
  · rename_i hid
    exact .inl ⟨he₀, hid⟩

theorem suspend_map {β : Type} {f : Evaluation → β} (hf : ∀ e phase, f { e with phase } = f e)
    {id : ℕ} : (s.suspend id phase).evaluations.map f = s.evaluations.map f := by
  unfold FollowupState.suspend
  rw [map_map]
  refine map_congr_left fun e _ => ?_
  simp only [Function.comp_apply]
  split
  · exact hf e phase
  · rfl

theorem grounded_effect (h : Grounded maxFollowups s)
    (heffect : Effect maxFollowups s op s') : Grounded maxFollowups s' := by
  cases heffect with
  | kept hruns =>
    refine h.of_sublist rfl (fun run' hrun' => ?_) (.refl _) rfl
    obtain ⟨run, hrun, hkeeps⟩ := hruns run' hrun'
    exact ⟨run, hrun, hkeeps.id⟩
  | @opened _ _ expect _ hfresh =>
    refine grounded_openRun h hfresh ?_ (fun runId hrunId => by cases hrunId)
    cases expect <;> exact Nat.zero_le _
  | started hruns hrun hid hcontract hexpect hresult hsame =>
    refine ⟨?_, fun e he => ?_, h.openedIds, fun run' hrun' => ?_, fun e he => ?_, h.bounded,
      h.parent, fun e he contract evaluation evaluatedAt hphase => ?_⟩
    · rw [map_append, nodup_append]
      refine ⟨h.ids, nodup_singleton _, fun id hmem other hother heq => ?_⟩
      obtain ⟨e, he, rfl⟩ := mem_map.mp hmem
      rw [map_singleton, mem_singleton] at hother
      exact absurd (heq.trans hother) (h.below e he).ne
    · rcases mem_append.mp he with he | hnew
      · exact (h.below e he).trans (Nat.lt_succ_self _)
      · rw [mem_singleton.mp hnew]
        exact Nat.lt_succ_self _
    · obtain ⟨run, hrun, hkeeps⟩ := hruns run' hrun'
      exact hkeeps.id ▸ h.rowsKnown run hrun
    · rcases mem_append.mp he with he | hnew
      · exact h.evaluationsKnown e he
      · rw [mem_singleton.mp hnew]
        exact hid ▸ h.rowsKnown _ hrun
    · rcases mem_append.mp he with he | hnew
      · exact h.posting e he contract evaluation evaluatedAt hphase
      · rw [mem_singleton.mp hnew] at hphase
        cases hphase
  | finished he hruns =>
    refine h.of_sublist rfl (fun run' hrun' => ?_) filter_sublist rfl
    obtain ⟨run, hrun, rfl | ⟨-, hcarries⟩⟩ := hruns run' hrun'
    · exact ⟨run', hrun, rfl⟩
    · exact ⟨run, hrun, hcarries.id⟩
  | @suspended _ e₀ _ _ _ _ _ he₀ hphase hruns hsettles hcaptured hdepth =>
    refine ⟨?_, fun e he => ?_, h.openedIds, fun run' hrun' => ?_, fun e he => ?_, h.bounded,
      h.parent, fun e he contract evaluation evaluatedAt hphase => ?_⟩
    · rw [suspend_map (fun _ _ => rfl)]
      exact h.ids
    · rcases mem_suspend he with ⟨he, -⟩ | ⟨e₁, he₁, -, rfl⟩
      · exact h.below e he
      · exact h.below e₁ he₁
    · obtain ⟨run, hrun, hkeeps⟩ := hruns run' hrun'
      exact hkeeps.id ▸ h.rowsKnown run hrun
    · rcases mem_suspend he with ⟨he, -⟩ | ⟨e₁, he₁, -, rfl⟩
      · exact h.evaluationsKnown e he
      · exact h.evaluationsKnown e₁ he₁
    · rcases mem_suspend he with ⟨he, -⟩ | ⟨e₁, he₁, hid, rfl⟩
      · exact h.posting e he contract evaluation evaluatedAt hphase
      · obtain rfl : e₁ = e₀ := inj_on_of_nodup_map h.ids he₁ he₀ hid
        exact hdepth
  | @followed _ e contract _ _ seed targetIds now _ he hphase hfresh hruns =>
    obtain ⟨parent, hparent, hid⟩ := h.evaluationsKnown e he
    have hdepth : s.followupDepth e.runId = parent.followupDepth.getD 0 :=
      hid ▸ followupDepth_of_mem h hparent
    have hopened : Grounded maxFollowups
        (s.openRun seed targetIds (some (s.followupDepth e.runId + 1)) (some e.runId)
          (some (nextContract contract)) now) :=
      grounded_openRun h hfresh (Nat.succ_le_of_lt (h.posting e he _ _ _ hphase))
        (fun runId hrunId =>
          ⟨parent, hparent, hid.trans (Option.some.inj hrunId), by rw [hdepth]⟩)
    refine hopened.of_sublist rfl (fun run' hrun' => ?_) filter_sublist rfl
    obtain ⟨run, hrun, rfl | ⟨-, hcarries⟩⟩ := hruns run' hrun'
    · exact ⟨run', hrun, rfl⟩
    · exact ⟨run, hrun, hcarries.id⟩
  | restarted hruns =>
    refine h.of_sublist rfl (fun run' hrun' => ?_) (nil_sublist _) rfl
    obtain ⟨run, hrun, hcarries⟩ := hruns run' hrun'
    exact ⟨run, hrun, hcarries.id⟩

/-! ## One evaluation at a time -/

/-- No run is transitioned on a live binding while an evaluation of it has yet to record its
    result. -/
def NoOverlap (s : FollowupState) : FollowupOp → Prop
  | .transition input true _ => ∀ e ∈ s.evaluations, e.runId = input.runId →
      ∀ run ∈ s.runs.rows, run.id = input.runId →
        ∀ contract, run.deliveryContract = some contract → contract.result.isSome = true
  | _ => True

/-- The run is the parent of one that was opened. -/
def FollowupState.FollowedUp (s : FollowupState) (runId : String) : Prop :=
  ∃ child ∈ s.opened, child.parentRunId = some runId

def EvaluationPhase.captured : EvaluationPhase → DeliveryContract
  | .probing captured => captured
  | .posting captured _ _ => captured

/-- What holds as long as evaluations of a run do not overlap. -/
structure Sound (s : FollowupState) : Prop where
  alone : (s.evaluations.map (·.runId)).Nodup
  /-- Without a result, nothing has followed. -/
  unsettled : ∀ run ∈ s.runs.rows, ∀ contract, run.deliveryContract = some contract →
    contract.result = none → Unfollowed contract ∧ ¬ s.FollowedUp run.id
  unfollowed : ∀ e ∈ s.evaluations, ¬ s.FollowedUp e.runId ∧ Unfollowed e.phase.captured
  probing : ∀ e ∈ s.evaluations, ∀ captured, e.phase = .probing captured →
    ∀ run ∈ s.runs.rows, run.id = e.runId → ∀ contract, run.deliveryContract = some contract →
      contract.expect.isSome = true ∧ Unfollowed contract
  posting : ∀ e ∈ s.evaluations, ∀ captured evaluation evaluatedAt,
    e.phase = .posting captured evaluation evaluatedAt →
      ∀ run ∈ s.runs.rows, run.id = e.runId → ∀ contract, run.deliveryContract = some contract →
        contract.result.isSome = true
  once : ∀ child ∈ s.opened, ∀ child' ∈ s.opened, ∀ runId, child.parentRunId = some runId →
    child'.parentRunId = some runId → child = child'
  anew : ∀ child ∈ s.opened, child.parentRunId.isSome = true →
    ∀ contract, child.deliveryContract = some contract →
      contract.result = none ∧ Unfollowed contract

theorem sound_start : Sound .start :=
  ⟨nodup_nil, fun _ hrun => (not_mem_nil hrun).elim,
    fun _ he => (not_mem_nil he).elim, fun _ he => (not_mem_nil he).elim,
    fun _ he => (not_mem_nil he).elim, fun _ ho => (not_mem_nil ho).elim,
    fun _ ho => (not_mem_nil ho).elim⟩

theorem Sound.of_sublist (h : Sound s) (hopened : s'.opened = s.opened)
    (hevaluations : s'.evaluations.Sublist s.evaluations)
    (hrows : ∀ run' ∈ s'.runs.rows, ∃ run ∈ s.runs.rows, Carries run run' ∧
      (Keeps run run' ∨ ∀ e ∈ s'.evaluations, e.runId ≠ run.id)) : Sound s' where
  alone := h.alone.sublist (hevaluations.map _)
  unsettled := fun run' hrun' contract' hcontract' hresult => by
    obtain ⟨run, hrun, hcarries, -⟩ := hrows run' hrun'
    obtain ⟨contract, hcontract, hc⟩ := hcarries.contract contract' hcontract'
    obtain ⟨hunfollowed, hnone⟩ :=
      h.unsettled run hrun contract hcontract (hc.of_result_eq_none hresult)
    refine ⟨hunfollowed.of_sameStamps (hc.stamps hresult), ?_⟩
    unfold FollowupState.FollowedUp
    rw [hopened, hcarries.id]
    exact hnone
  unfollowed := fun e he => by
    unfold FollowupState.FollowedUp
    rw [hopened]
    exact h.unfollowed e (hevaluations.subset he)
  probing := fun e he captured hphase run' hrun' hid contract' hcontract' => by
    obtain ⟨run, hrun, hcarries, hkeeps | hother⟩ := hrows run' hrun'
    · obtain ⟨contract, hcontract, hk⟩ := hkeeps.contract contract' hcontract'
      obtain ⟨hexpect, hunfollowed⟩ := h.probing e (hevaluations.subset he) captured hphase run hrun
        (hkeeps.id.symm.trans hid) contract hcontract
      exact ⟨hk.expect ▸ hexpect, hunfollowed.of_sameStamps hk.same⟩
    · exact absurd (hid.symm.trans hcarries.id) (hother e he)
  posting := fun e he captured evaluation evaluatedAt hphase run' hrun' hid contract'
      hcontract' => by
    obtain ⟨run, hrun, hcarries, -⟩ := hrows run' hrun'
    obtain ⟨contract, hcontract, hc⟩ := hcarries.contract contract' hcontract'
    exact hc.result (h.posting e (hevaluations.subset he) captured evaluation evaluatedAt hphase run
      hrun (hcarries.id.symm.trans hid) contract hcontract)
  once := hopened ▸ h.once
  anew := hopened ▸ h.anew

theorem Sound.keepsRows (h : Sound s) (hruns : KeepsRows s.runs runs) :
    Sound { s with runs := runs } := by
  refine h.of_sublist rfl (.refl _) fun run' hrun' => ?_
  obtain ⟨run, hrun, hkeeps⟩ := hruns run' hrun'
  exact ⟨run, hrun, hkeeps.carries, .inl hkeeps⟩

theorem Sound.carriesRow (h : Sound s) (hruns : CarriesRow runId s.runs runs) {id : ℕ}
    (hother : ∀ e ∈ (s.finish id).evaluations, e.runId ≠ runId) :
    Sound ({ s with runs := runs }.finish id) := by
  refine h.of_sublist rfl filter_sublist fun run' hrun' => ?_
  obtain ⟨run, hrun, rfl | ⟨hid, hcarries⟩⟩ := hruns run' hrun'
  · exact ⟨run', hrun, Carries.refl run', .inl (Keeps.refl run')⟩
  · exact ⟨run, hrun, hcarries, .inr fun e he => hid ▸ hother e he⟩

theorem Sound.runId_ne_of_finish (h : Sound s) {e₀ : Evaluation} (he₀ : e₀ ∈ s.evaluations) :
    ∀ e ∈ (s.finish e₀.id).evaluations, e.runId ≠ e₀.runId := by
  intro e he hsame
  obtain ⟨he, hid⟩ := mem_finish he
  exact hid (congrArg (·.id) (inj_on_of_nodup_map h.alone he he₀ hsame))

theorem sound_openRun (hgrounded : Grounded maxFollowups s) (h : Sound s)
    (hfresh : s.fresh seed = true) (hcontract : ∀ contract, deliveryContract = some contract →
      contract.result = none ∧ Unfollowed contract)
    (hparent : ∀ runId, parentRunId = some runId → s.Known runId ∧ ¬ s.FollowedUp runId ∧
      (∀ e ∈ s.evaluations, e.runId ≠ runId) ∧ ∀ run ∈ s.runs.rows, run.id = runId →
        ∀ contract, run.deliveryContract = some contract → contract.result.isSome = true) :
    Sound (s.openRun seed targetIds followupDepth parentRunId deliveryContract now) := by
  have hnew := not_known_of_fresh hfresh
  refine ⟨h.alone, fun run hrun contract hrow hresult => ?_,
    fun e he => ⟨?_, (h.unfollowed e he).2⟩,
    fun e he captured hphase run hrun hid => ?_,
    fun e he captured evaluation evaluatedAt hphase run hrun hid => ?_,
    fun child hchild child' hchild' runId hrunId hrunId' => ?_, fun child hchild hsome => ?_⟩
  · rcases AsyncRun.mem_createAsyncRun hrun with hrun | rfl
    · obtain ⟨hunfollowed, hnone⟩ := h.unsettled run hrun contract hrow hresult
      refine ⟨hunfollowed, ?_⟩
      rintro ⟨child, hchild, hid⟩
      rcases mem_append.mp hchild with hchild | hlast
      · exact hnone ⟨child, hchild, hid⟩
      · -- the parent of the run opened last has a result
        rw [mem_singleton.mp hlast] at hid
        have hsome := (hparent run.id hid).2.2.2 run hrun rfl contract hrow
        simp [hresult] at hsome
    · refine ⟨(hcontract contract hrow).2, ?_⟩
      rintro ⟨child, hchild, hid⟩
      rcases mem_append.mp hchild with hchild | hlast
      · obtain ⟨parent, hmem, hparentId, -⟩ := hgrounded.parent child hchild _ hid
        exact hnew ⟨parent, hmem, hparentId⟩
      · rw [mem_singleton.mp hlast] at hid
        exact hnew (hparent _ hid).1
  · rintro ⟨child, hchild, hid⟩
    rcases mem_append.mp hchild with hchild | hlast
    · exact (h.unfollowed e he).1 ⟨child, hchild, hid⟩
    · rw [mem_singleton.mp hlast] at hid
      exact (hparent _ hid).2.2.1 e he rfl
  · rcases AsyncRun.mem_createAsyncRun hrun with hrun | rfl
    · exact h.probing e he captured hphase run hrun hid
    · obtain ⟨opened, hopened, heq⟩ := hgrounded.evaluationsKnown e he
      exact absurd ⟨opened, hopened, heq.trans hid.symm⟩ hnew
  · rcases AsyncRun.mem_createAsyncRun hrun with hrun | rfl
    · exact h.posting e he captured evaluation evaluatedAt hphase run hrun hid
    · obtain ⟨opened, hopened, heq⟩ := hgrounded.evaluationsKnown e he
      exact absurd ⟨opened, hopened, heq.trans hid.symm⟩ hnew
  · rcases mem_append.mp hchild with hchild | hlast
    · rcases mem_append.mp hchild' with hchild' | hlast'
      · exact h.once child hchild child' hchild' runId hrunId hrunId'
      · rw [mem_singleton.mp hlast'] at hrunId'
        exact absurd ⟨child, hchild, hrunId⟩ (hparent runId hrunId').2.1
    · rcases mem_append.mp hchild' with hchild' | hlast'
      · rw [mem_singleton.mp hlast] at hrunId
        exact absurd ⟨child', hchild', hrunId'⟩ (hparent runId hrunId).2.1
      · rw [mem_singleton.mp hlast, mem_singleton.mp hlast']
  · rcases mem_append.mp hchild with hchild | hlast
    · exact h.anew child hchild hsome
    · rw [mem_singleton.mp hlast]
      exact hcontract

theorem sound_effect (hgrounded : Grounded maxFollowups s) (h : Sound s)
    (hop : NoOverlap s op) (heffect : Effect maxFollowups s op s') : Sound s' := by
  cases heffect with
  | kept hruns => exact h.keepsRows hruns
  | @opened _ _ expect _ hfresh =>
    refine sound_openRun hgrounded h hfresh (fun contract hcontract => ?_)
      (fun runId hrunId => by cases hrunId)
    obtain ⟨specs, -, rfl⟩ := Option.map_eq_some_iff.mp hcontract
    exact ⟨rfl, rfl, rfl, rfl, rfl⟩
  | @started input _ runs run contract captured hruns hrun hid hcontract hexpect hresult hsame =>
    have hkept : Sound { s with runs := runs } := h.keepsRows hruns
    obtain ⟨hunfollowed, hnone⟩ := h.unsettled run hrun contract hcontract hresult
    refine ⟨?_, hkept.unsettled, fun e he => ?_, fun e he captured' hphase => ?_,
      fun e he captured' evaluation evaluatedAt hphase => ?_, h.once, h.anew⟩
    · -- another evaluation of the run would be one before its result
      rw [map_append, nodup_append]
      refine ⟨h.alone, nodup_singleton _, fun other hmem last hlast heq => ?_⟩
      obtain ⟨e, he, rfl⟩ := mem_map.mp hmem
      rw [map_singleton, mem_singleton] at hlast
      have hsome := hop e he (heq.trans hlast) run hrun hid contract hcontract
      simp [hresult] at hsome
    · rcases mem_append.mp he with he | hlast
      · exact h.unfollowed e he
      · rw [mem_singleton.mp hlast]
        exact ⟨hid ▸ hnone, hunfollowed.of_sameStamps hsame⟩
    · rcases mem_append.mp he with he | hlast
      · exact hkept.probing e he captured' hphase
      · rw [mem_singleton.mp hlast]
        intro run' hrun' hid' contract' hcontract'
        obtain ⟨before, hbefore, hkeeps⟩ := hruns run' hrun'
        obtain ⟨contract₀, hcontract₀, hk⟩ := hkeeps.contract contract' hcontract'
        -- the row is the one that was found without a result
        obtain rfl : before = run :=
          s.runs.eq_of_key_eq hbefore hrun ((hkeeps.id.symm.trans hid').trans hid.symm)
        rw [hcontract, Option.some.injEq] at hcontract₀
        subst hcontract₀
        exact ⟨hk.expect ▸ hexpect, hunfollowed.of_sameStamps hk.same⟩
    · rcases mem_append.mp he with he | hlast
      · exact hkept.posting e he captured' evaluation evaluatedAt hphase
      · rw [mem_singleton.mp hlast] at hphase
        cases hphase
  | finished he hruns => exact h.carriesRow hruns (h.runId_ne_of_finish he)
  | @suspended _ e₀ contract captured _ _ runs he₀ hphase hruns hsettles hcaptured hdepth =>
    have hkept : Sound { s with runs := runs } := h.keepsRows hruns
    have hrow := hkept.probing e₀ he₀ contract hphase
    have hunfollowed : Unfollowed captured := by
      rcases hcaptured with rfl | ⟨run, hrun, hid, hcontract⟩
      · have hcaptured := (h.unfollowed e₀ he₀).2
        rw [hphase] at hcaptured
        exact hcaptured
      · exact (hrow run hrun hid captured hcontract).2
    have hself : ∀ e₁ ∈ s.evaluations, e₁.id = e₀.id → e₁ = e₀ := fun e₁ he₁ hid =>
      inj_on_of_nodup_map hgrounded.ids he₁ he₀ hid
    refine ⟨?_, hkept.unsettled, fun e he => ?_, fun e he captured' hphase' => ?_,
      fun e he captured' evaluation evaluatedAt hphase' => ?_, h.once, h.anew⟩
    · rw [suspend_map (fun _ _ => rfl)]
      exact h.alone
    · rcases mem_suspend he with ⟨he, -⟩ | ⟨e₁, he₁, -, rfl⟩
      · exact h.unfollowed e he
      · exact ⟨(h.unfollowed e₁ he₁).1, hunfollowed⟩
    · rcases mem_suspend he with ⟨he, -⟩ | ⟨e₁, he₁, -, rfl⟩
      · exact hkept.probing e he captured' hphase'
      · cases hphase'
    · rcases mem_suspend he with ⟨he, -⟩ | ⟨e₁, he₁, hid, rfl⟩
      · exact hkept.posting e he captured' evaluation evaluatedAt hphase'
      · obtain rfl := hself e₁ he₁ hid
        intro run hrun hrunId contract' hcontract'
        have hexpect := (hrow run hrun hrunId contract' hcontract').1
        exact hsettles run hrun hrunId contract' hcontract' hexpect
  | @followed _ e contract _ _ seed targetIds now _ he hphase hfresh hruns =>
    have hother := h.runId_ne_of_finish he
    have hfinished : Sound (s.finish e.id) := h.carriesRow (.refl e.runId s.runs) hother
    have hgroundedFinish : Grounded maxFollowups (s.finish e.id) :=
      hgrounded.of_sublist rfl (fun run hrun => ⟨run, hrun, rfl⟩) filter_sublist rfl
    obtain ⟨hnone, hcaptured⟩ := h.unfollowed e he
    rw [hphase] at hcaptured
    have hopened : Sound ((s.finish e.id).openRun seed targetIds
        (some (s.followupDepth e.runId + 1)) (some e.runId) (some (nextContract contract))
        now) := by
      refine sound_openRun hgroundedFinish hfinished hfresh (fun contract' hcontract' => ?_)
        (fun runId hrunId => ?_)
      · -- what the child does not reset, its parent has not set
        obtain rfl := Option.some.inj hcontract'
        exact ⟨rfl, rfl, hcaptured.childRunId, hcaptured.abandonedAt, hcaptured.followupDecidedAt⟩
      · obtain rfl := Option.some.inj hrunId
        exact ⟨hgrounded.evaluationsKnown e he, hnone, hother, h.posting e he _ _ _ hphase⟩
    exact hopened.of_sublist rfl (.refl _) fun run' hrun' => by
      obtain ⟨run, hrun, rfl | ⟨hid, hcarries⟩⟩ := hruns run' hrun'
      · exact ⟨run', hrun, Carries.refl run', .inl (Keeps.refl run')⟩
      · exact ⟨run, hrun, hcarries, .inr fun e' he' => hid ▸ hother e' he'⟩
  | restarted hruns =>
    refine h.of_sublist rfl (nil_sublist _) fun run' hrun' => ?_
    obtain ⟨run, hrun, hcarries⟩ := hruns run' hrun'
    exact ⟨run, hrun, hcarries, .inr fun e he => (not_mem_nil he).elim⟩

/-! ## At most one follow-up -/

/-- `n` follow-ups lead from one opened run to another. -/
inductive FollowupChain (s : FollowupState) : OpenedRun → OpenedRun → ℕ → Prop where
  | nil {opened : OpenedRun} (hopened : opened ∈ s.opened) : FollowupChain s opened opened 0
  | next {first parent child : OpenedRun} {n : ℕ} (hchain : FollowupChain s first parent n)
      (hchild : child ∈ s.opened) (hparent : child.parentRunId = some parent.runId) :
    FollowupChain s first child (n + 1)

structure FollowedUpOnce (maxFollowups : ℕ) (s : FollowupState) : Prop where
  once : ∀ runId,
    (s.opened.filter fun child => decide (child.parentRunId = some runId)).length ≤ 1
  depth : ∀ parent ∈ s.opened, ∀ child ∈ s.opened, child.parentRunId = some parent.runId →
    child.followupDepth = some (parent.followupDepth.getD 0 + 1)
  chain : ∀ original last n, original.parentRunId = none → FollowupChain s original last n →
    n ≤ maxFollowups
  /-- A follow-up starts without a result and without stamps. -/
  anew : ∀ child ∈ s.opened, child.parentRunId.isSome = true →
    ∀ contract, child.deliveryContract = some contract →
      contract.result = none ∧ Unfollowed contract

theorem FollowupChain.mem {first last : OpenedRun} {n : ℕ} (h : FollowupChain s first last n) :
    last ∈ s.opened := by
  cases h with
  | nil hopened => exact hopened
  | next _ hchild _ => exact hchild

theorem Grounded.depth (h : Grounded maxFollowups s) {parent child : OpenedRun}
    (hparent : parent ∈ s.opened) (hchild : child ∈ s.opened)
    (hrunId : child.parentRunId = some parent.runId) :
    child.followupDepth = some (parent.followupDepth.getD 0 + 1) := by
  obtain ⟨parent', hmem, hid, hdepth⟩ := h.parent child hchild parent.runId hrunId
  rw [hdepth, inj_on_of_nodup_map h.openedIds hmem hparent hid]

theorem depth_of_followupChain (h : Grounded maxFollowups s) {first last : OpenedRun} {n : ℕ}
    (hchain : FollowupChain s first last n) :
    last.followupDepth.getD 0 = first.followupDepth.getD 0 + n := by
  induction hchain with
  | nil _ => rfl
  | next hchain hchild hparent ih =>
    rw [h.depth hchain.mem hchild hparent, Option.getD_some, ih, Nat.add_assoc]

theorem length_followups_le_one (hgrounded : Grounded maxFollowups s) (h : Sound s)
    (runId : String) :
    (s.opened.filter fun child => decide (child.parentRunId = some runId)).length ≤ 1 := by
  have hnodup : (s.opened.filter fun child => decide (child.parentRunId = some runId)).Nodup :=
    (List.Nodup.of_map _ hgrounded.openedIds).filter _
  have hmem : ∀ child ∈ s.opened.filter fun child => decide (child.parentRunId = some runId),
      child ∈ s.opened ∧ child.parentRunId = some runId := fun child hchild => by
    simpa using hchild
  generalize s.opened.filter (fun child => decide (child.parentRunId = some runId)) = followups
    at hnodup hmem ⊢
  match followups with
  | [] => exact Nat.zero_le 1
  | [_] => exact Nat.le_refl 1
  | child :: child' :: rest =>
    obtain ⟨hchild, hid⟩ := hmem child (by simp)
    obtain ⟨hchild', hid'⟩ := hmem child' (by simp)
    have hsame := h.once child hchild child' hchild' runId hid hid'
    simp [hsame] at hnodup

theorem followedUpOnce_of_sound (hgrounded : Grounded maxFollowups s) (h : Sound s) :
    FollowedUpOnce maxFollowups s where
  once := length_followups_le_one hgrounded h
  depth := fun _ hparent _ hchild hrunId => hgrounded.depth hparent hchild hrunId
  chain := fun original last n _ hchain => by
    have hbounded := hgrounded.bounded last hchain.mem
    rw [depth_of_followupChain hgrounded hchain] at hbounded
    omega
  anew := h.anew

/-- **Follow-ups**: in every run of the server in which evaluations of a run do not overlap,
    a run has one follow-up at most, one deeper than itself, on a chain within the limit, and
    with a contract as new. -/
theorem followup_of_run {ops : List FollowupOp}
    (hops : Guarded (FollowupState.step maxFollowups) NoOverlap .start ops) :
    FollowedUpOnce maxFollowups (exec (FollowupState.step maxFollowups) .start ops) := by
  have hstep : ∀ s op, Grounded maxFollowups s ∧ Sound s → NoOverlap s op →
      Grounded maxFollowups (s.step maxFollowups op) ∧ Sound (s.step maxFollowups op) :=
    fun s op h hop => ⟨grounded_effect h.1 (effect_step s op),
      sound_effect h.1 h.2 hop (effect_step s op)⟩
  obtain ⟨hgrounded, hsound⟩ :=
    exec_invariant_of_guarded hstep ⟨grounded_start, sound_start⟩ hops
  exact followedUpOnce_of_sound hgrounded hsound

/-- The post whose follow-ups the runs below are about. -/
def briefPost : FollowupOp := .post ⟨"run", "m", "human"⟩ ["agent"] (some ["commit"]) 0

/-- The target of that post completes. -/
def completes : FollowupOp :=
  .transition ⟨"run", "agent", .completed, none, none, none⟩ true 1

/-- A follow-up of an unmet contract. -/
theorem followup_of_run_once :
    FollowedUpOnce 1 (exec (FollowupState.step 1) .start
      [briefPost, completes, .evaluated 0 ⟨false, ["commit"], []⟩ false 2 2,
        .posted 0 (some ⟨"next", "m'", "human"⟩) "agent" 3]) := by
  apply followup_of_run
  refine ⟨trivial, ?_, trivial, trivial, trivial⟩
  intro e he
  exact (not_mem_nil he).elim

/-- The second transition finds a completed run that still awaits its result. -/
theorem two_followups_of_overlapping_evaluations :
    ¬ ∀ (maxFollowups : ℕ) (ops : List FollowupOp),
      FollowedUpOnce maxFollowups (exec (FollowupState.step maxFollowups) .start ops) := by
  intro h
  have honce := (h 1 [briefPost, completes, completes,
    .evaluated 0 ⟨false, ["commit"], []⟩ false 2 2, .evaluated 1 ⟨false, ["commit"], []⟩ false 2 2,
    .posted 0 (some ⟨"next", "m'", "human"⟩) "agent" 3,
    .posted 1 (some ⟨"next'", "m''", "human"⟩) "agent" 3]).once "run"
  exact absurd honce (by decide)

end RelayIde.Binder
