import RelayIde.Callback.Admission

/-!
# Send Failures

What the binder does when the runtime rejects the message of a turn
(`server/channel-agent-binder.ts`).  The first failure waits for the binding to be bound again and
then sends the message once more, or queues it behind a newer turn; a second failure, or a first
one that cannot be retried, ends in an error row.  Between the failure and its handling, and while
the rebind is awaited, the binding may have gone on to another turn.

- `spares_iff` — it leaves another active turn alone, unless it falls through while one is active

The error row ends whatever turn is active: only the branch of completion callbacks compares it
with the turn that failed.
-/

namespace RelayIde.Binder

open List

open RelayIde.Callback (CallbackId CallbackState CallbackEdgeRequest TerminalReason channelTurnId)

/-! ## Bindings -/

abbrev TurnId := String

/-- A trigger, as far as its delivery reports on it. -/
structure Trigger where
  id : String
  threadId : Option String

structure QueuedTurn where
  trigger : Trigger
  reEnqueued : Bool
  completionCallback : Option CallbackId
  callbackEdgeRequest : Option CallbackEdgeRequest

inductive ChannelAgentStatus where
  | idle
  | turnActive
  | streaming
  | waiting

structure Continuation where
  childCallbackId : CallbackId
  parentCallbackId : CallbackId

structure DeferredTerminal where
  terminalReason : TerminalReason
  terminalMessageId : Option String
  continuation : Option Continuation

structure LiveBinding where
  channelId : String
  profileActorId : String
  displayName : String
  runtimeId : Option String
  /-- Whether there is an adapter. -/
  adapter : Bool
  status : ChannelAgentStatus
  activeTurnId : Option TurnId
  activeContent : Option String
  sendPreflight : Bool
  waitingOn : Option String
  sawStream : Bool
  openToolItems : List String
  threadOrientationPending : Bool
  retriedTurns : List TurnId
  parentMessageIdByTurn : TurnId → Option String
  requestMessageIdByTurn : TurnId → Option String
  absorbedRunIdsByTurn : TurnId → List String
  finalMessageByTurn : TurnId → Option String
  continuationByTurn : TurnId → Option Continuation
  completionCallbackByTurn : TurnId → Option CallbackId
  deferredCompletionTerminalByTurn : TurnId → Option DeferredTerminal
  queue : List QueuedTurn
  steeringQueue : List QueuedTurn
  steeringInFlight : Bool
  steeringAcceptedCount : ℕ

/-- `Map.delete`. -/
def erase {α : Type} (m : TurnId → Option α) (turnId : TurnId) : TurnId → Option α :=
  fun k => if k = turnId then none else m k

inductive TargetState where
  | completed
  | cancelled
  | failed

inductive ReceiptState where
  | queued
  | heldBusy
  | droppedQueueFull
  | completed
  | expiredWatchdog
  | failedRuntime

/-- What a binding does to the stores, the hub and its runtime, on behalf of a turn. -/
inductive Call where
  | transitionAsyncRunTarget (turnId : TurnId) (runId : Option String) (state : TargetState)
  | emitReceipt (turnId : TurnId) (messageId : String) (state : ReceiptState)
      (reasonCode : Option String)
  | createCompletionCallback (turnId : TurnId)
  | satisfyCompletionCallback (turnId : TurnId) (reason : TerminalReason)
      (messageId : Option String)
  | completeChildContinuation (turnId : TurnId) (childCallbackId : CallbackId)
      (reason : TerminalReason) (messageId : Option String)
  | releaseDeliveredCompletionCallback (turnId : TurnId) (callbackId : CallbackId)
  | postSystemRow (turnId : TurnId) (text : String) (parentMessageId : Option String)
  /-- `sendTurn`, of a turn that the queue hands out. -/
  | startTurn (turnId : TurnId) (content : String)
  /-- `adapter.sendMessage`. -/
  | sendMessage (turnId : TurnId) (content : String)

def Call.turnId : Call → TurnId
  | transitionAsyncRunTarget turnId _ _ => turnId
  | emitReceipt turnId _ _ _ => turnId
  | createCompletionCallback turnId => turnId
  | satisfyCompletionCallback turnId _ _ => turnId
  | completeChildContinuation turnId _ _ _ => turnId
  | releaseDeliveredCompletionCallback turnId _ => turnId
  | postSystemRow turnId _ _ => turnId
  | startTurn turnId _ => turnId
  | sendMessage turnId _ => turnId

/-- What `pump` takes from the queue of an idle binding. -/
structure Dispatch where
  queue : List QueuedTurn
  /-- The turn that `sendTurn` starts, and its packet. -/
  started : Option (TurnId × String)

/-- The stores, as the binder reads them, and the parts of the binder that build packets. -/
structure BinderEnv where
  /-- The profile of an actor id exists. -/
  profile : String → Bool
  /-- `getAsyncRunForRequestMessage`. -/
  asyncRunFor : String → Option String
  /-- The message exists. -/
  message : String → Bool
  callbackState : CallbackId → Option CallbackState
  /-- The creation of the callback edge of a turn does not throw. -/
  admits : TurnId → Bool
  /-- The packet of a retained turn, if it can be built again. -/
  packet : LiveBinding → TurnId → Option String
  dispatch : LiveBinding → Dispatch

def queueCap : ℕ := 8

/-! ## One binding -/

section

variable (env : BinderEnv) (binding : LiveBinding)

/-- `pump`: an idle binding with a runtime starts its next turn. -/
def pump : LiveBinding × List Call :=
  if binding.activeTurnId.isSome || binding.sendPreflight || !binding.adapter then (binding, [])
  else
    let next := env.dispatch binding
    match next.started with
    | none => ({ binding with queue := next.queue }, [])
    | some (turnId, content) =>
      ({ binding with
        queue := next.queue
        status := .turnActive
        activeTurnId := some turnId
        activeContent := some content },
        [.startTurn turnId content])

def occupiedTurnSlots : ℕ :=
  binding.queue.length + binding.steeringQueue.length + binding.steeringAcceptedCount +
    if binding.steeringInFlight then 1 else 0

/-- `terminalizeCompletionCallback`: held back while the turn's own callback is not accepted. -/
def terminalizeCompletionCallback (turnId : TurnId) (reason : TerminalReason) :
    LiveBinding × List Call :=
  let messageId := binding.finalMessageByTurn turnId
  let continuation := binding.continuationByTurn turnId
  if (binding.completionCallbackByTurn turnId).bind env.callbackState = some .delivered then
    ({ binding with
      deferredCompletionTerminalByTurn := fun k =>
        if k = turnId then some ⟨reason, messageId, continuation⟩
        else binding.deferredCompletionTerminalByTurn k }, [])
  else
    match continuation with
    | some continuation =>
      (binding, [.completeChildContinuation turnId continuation.childCallbackId reason messageId])
    | none => (binding, [.satisfyCompletionCallback turnId reason messageId])

def targetState : TerminalReason → TargetState
  | .completed | .safeIdle => .completed
  | .interrupt | .turnCeiling => .cancelled
  | _ => .failed

def terminalReceipt : TerminalReason → ReceiptState × Option String
  | .watchdog => (.expiredWatchdog, some "watchdog_force_drain")
  | .turnCeiling => (.expiredWatchdog, some "turn_ceiling")
  | .completed | .safeIdle => (.completed, none)
  | .interrupt => (.failedRuntime, none)
  | _ => (.failedRuntime, some "send_error")

/-- What `finishTurn` reports of the turn it ends: its run, the runs it absorbed, its receipt. -/
def terminalCalls (turnId : TurnId) (reason : TerminalReason) : List Call :=
  let run := ((binding.requestMessageIdByTurn turnId).bind env.asyncRunFor).map fun runId =>
    Call.transitionAsyncRunTarget turnId (some runId) (targetState reason)
  let absorbed := (binding.absorbedRunIdsByTurn turnId).map fun runId =>
    Call.transitionAsyncRunTarget turnId (some runId) (targetState reason)
  let receipt := ((binding.requestMessageIdByTurn turnId).or
      (binding.parentMessageIdByTurn turnId)).filter env.message |>.map fun messageId =>
    Call.emitReceipt turnId messageId (terminalReceipt reason).1 (terminalReceipt reason).2
  run.toList ++ absorbed ++ receipt.toList

/-- The binding is idle: no turn, nothing awaited, and requests not handed over fall back to the
    queue. -/
def LiveBinding.clearTurn : LiveBinding :=
  { binding with
    activeTurnId := none
    activeContent := none
    waitingOn := none
    sawStream := false
    openToolItems := []
    status := .idle }

/-- `finishTurn`: the active turn ends, whichever it is. -/
def finishTurn (reason : TerminalReason) : LiveBinding × List Call :=
  match binding.activeTurnId with
  | none => (binding, [])
  | some turnId =>
    let terminalized := terminalizeCompletionCallback env
      { binding with absorbedRunIdsByTurn := fun k =>
          if k = turnId then [] else binding.absorbedRunIdsByTurn k } turnId reason
    let b := terminalized.1
    let consumed := (b.completionCallbackByTurn turnId).bind env.callbackState = some .consumed
    let idle := { b.clearTurn with
      completionCallbackByTurn :=
        if consumed then erase b.completionCallbackByTurn turnId else b.completionCallbackByTurn
      finalMessageByTurn := erase b.finalMessageByTurn turnId
      continuationByTurn := erase b.continuationByTurn turnId
      queue := b.queue ++ b.steeringQueue
      steeringQueue := []
      steeringAcceptedCount := 0 }
    let pumped := pump env idle
    (pumped.1, terminalCalls env binding turnId reason ++ terminalized.2 ++ pumped.2)

end

/-! ## The handler -/

/-- A rejected `sendMessage`. -/
structure SendFailure where
  trigger : Trigger
  turnId : TurnId
  /-- The rejection is an `Error`. -/
  isError : Bool
  errText : String
  completionCallback : Option CallbackId
  callbackEdgeRequest : Option CallbackEdgeRequest

/-- `parentForTrigger`. -/
def Trigger.parent (trigger : Trigger) : Option String :=
  if trigger.threadId.isSome then some trigger.id else none

section

variable (env : BinderEnv) (binding : LiveBinding) (failure : SendFailure)

/-- `enqueueTurn`, of a trigger queued again. -/
def enqueueTurn : LiveBinding × List Call :=
  let delegated := failure.callbackEdgeRequest.isSome
  let turnId := failure.turnId
  if delegated && (binding.runtimeId.isNone || !env.admits turnId) then (binding, [])
  else
    let admission := if delegated then [Call.createCompletionCallback turnId] else []
    if queueCap ≤ occupiedTurnSlots binding then
      (binding, admission ++
        [.postSystemRow turnId
            s!"@{binding.displayName} has {queueCap} messages pending — message dropped"
            failure.trigger.parent,
          .emitReceipt turnId failure.trigger.id .droppedQueueFull (some "queue_cap")] ++
        if delegated then [.satisfyCompletionCallback turnId .error none] else [])
    else
      let queued := { binding with
        queue := binding.queue ++
          [⟨failure.trigger, true, failure.completionCallback, failure.callbackEdgeRequest⟩] }
      let state := if binding.activeTurnId.isSome then ReceiptState.heldBusy else .queued
      let pumped := pump env queued
      (pumped.1, admission ++ [.emitReceipt turnId failure.trigger.id state none] ++ pumped.2)

/-- `deliver`, up to its `await`, after `reorientRetainedPacket` if the runtime was replaced. -/
def redeliver (priorRuntimeId : Option String) : LiveBinding × List Call :=
  let reoriented :=
    if binding.runtimeId ≠ priorRuntimeId ∧ binding.threadOrientationPending = true then
      match env.packet binding failure.turnId with
      | some content => { binding with activeContent := some content }
      | none => binding
    else binding
  (reoriented, [.sendMessage failure.turnId (reoriented.activeContent.getD "")])

/-- The claim of a callback that was not accepted is given back. -/
def releaseUnacceptedCompletionCallbackTurn (turnId : TurnId) : LiveBinding × List Call :=
  match binding.completionCallbackByTurn turnId with
  | none => (binding, [])
  | some callbackId =>
    ({ binding with
      completionCallbackByTurn := erase binding.completionCallbackByTurn turnId
      deferredCompletionTerminalByTurn := erase binding.deferredCompletionTerminalByTurn turnId },
      [.releaseDeliveredCompletionCallback turnId callbackId])

def releaseCallbackTurn : LiveBinding × List Call :=
  let turnId := failure.turnId
  let released := releaseUnacceptedCompletionCallbackTurn binding turnId
  let b : LiveBinding := { released.1 with
    parentMessageIdByTurn := erase released.1.parentMessageIdByTurn turnId
    finalMessageByTurn := erase released.1.finalMessageByTurn turnId
    continuationByTurn := erase released.1.continuationByTurn turnId }
  if b.activeTurnId = some turnId then
    let pumped := pump env b.clearTurn
    (pumped.1, released.2 ++ pumped.2)
  else (b, released.2)

/-- The end of the handler: the callback turn is released, or an error row is posted and the active
    turn finished. -/
def giveUp : LiveBinding × List Call :=
  if failure.completionCallback.isSome then releaseCallbackTurn env binding failure
  else
    let finished := finishTurn env
      { binding with
        parentMessageIdByTurn := erase binding.parentMessageIdByTurn failure.turnId } .error
    (finished.1,
      [.emitReceipt failure.turnId failure.trigger.id .failedRuntime
          (some (if failure.isError then "send_rejected" else "send_error")),
        .postSystemRow failure.turnId
          s!"@{binding.displayName} could not receive the message: {failure.errText}"
          failure.trigger.parent] ++ finished.2)

end

/-! ## The binder -/

abbrev BindingRef := ℕ

structure BinderState where
  closed : Bool
  bindings : BindingRef → LiveBinding

/-- The calls made, with the binding that made each. -/
abbrev Calls := List (BindingRef × Call)

def BinderState.act (s : BinderState) (ref : BindingRef)
    (f : LiveBinding → LiveBinding × List Call) : BinderState × Calls :=
  ({ s with bindings := fun k => if k = ref then (f (s.bindings ref)).1 else s.bindings k },
    (f (s.bindings ref)).2.map fun call => (ref, call))

/-- The handler up to its `await`. -/
inductive Handling where
  | done (s : BinderState) (calls : Calls)
  /-- `ensureProfileBinding` was called. -/
  | rebinding (s : BinderState)

inductive RebindOutcome where
  | threw
  | bound (rebound : BindingRef)

section

variable (env : BinderEnv) (ref : BindingRef) (failure : SendFailure)

/-- `handleSendFailure`, up to the rebind. -/
def handleSendFailure (s : BinderState) : Handling :=
  if s.closed then .done s []
  else if failure.turnId ∈ (s.bindings ref).retriedTurns then
    let r := s.act ref fun b => giveUp env b failure
    .done r.1 r.2
  else
    let retried := (s.act ref fun b =>
      ({ b with retriedTurns := failure.turnId :: b.retriedTurns }, [])).1
    if env.profile (s.bindings ref).profileActorId then .rebinding retried
    else
      let r := retried.act ref fun b => giveUp env b failure
      .done r.1 r.2

/-- `handleSendFailure`, after the rebind: by then anything may have happened. -/
def afterRebind (priorRuntimeId : Option String) (s : BinderState) :
    RebindOutcome → BinderState × Calls
  | .threw => s.act ref fun b => giveUp env b failure
  | .bound rebound =>
    if s.closed then (s, [])
    else if (s.bindings rebound).adapter = false then s.act ref fun b => giveUp env b failure
    else if (s.bindings rebound).activeTurnId = some failure.turnId then
      s.act rebound fun b => redeliver env b failure priorRuntimeId
    else s.act rebound fun b => enqueueTurn env b failure

end

/-! ## Other turns -/

/-- An action of a binding leaves its active turn alone, unless that is the turn that failed. -/
def SparesTurn (turnId : TurnId) (b : LiveBinding) (r : LiveBinding × List Call) : Prop :=
  ∀ other, b.activeTurnId = some other → other ≠ turnId →
    r.1.activeTurnId = some other ∧ ∀ call ∈ r.2, call.turnId ≠ other

/-- A step of the binder leaves the active turns of all bindings alone, but for the turn that
    failed: they stay active, and nothing is done on their behalf. -/
def Spares (turnId : TurnId) (s s' : BinderState) (calls : Calls) : Prop :=
  ∀ ref other, (s.bindings ref).activeTurnId = some other → other ≠ turnId →
    (s'.bindings ref).activeTurnId = some other ∧
      ∀ made ∈ calls, made.1 = ref → made.2.turnId ≠ other

variable {env : BinderEnv} {failure : SendFailure}

theorem spares_refl (turnId : TurnId) (s : BinderState) : Spares turnId s s [] :=
  fun _ _ hactive _ => ⟨hactive, fun _ hmade => absurd hmade not_mem_nil⟩

variable {turnId : TurnId} {s : BinderState} {b : LiveBinding}

theorem spares_act_iff {ref : BindingRef} {f : LiveBinding → LiveBinding × List Call} :
    Spares turnId s (s.act ref f).1 (s.act ref f).2 ↔
      SparesTurn turnId (s.bindings ref) (f (s.bindings ref)) := by
  constructor
  · intro h other hactive hne
    obtain ⟨hstays, hcalls⟩ := h ref other hactive hne
    refine ⟨?_, fun call hcall => ?_⟩
    · simp only [BinderState.act] at hstays
      exact hstays
    · exact hcalls (ref, call) (mem_map_of_mem hcall) rfl
  · intro h ref' other hactive hne
    by_cases href : ref' = ref
    · subst href
      obtain ⟨hstays, hcalls⟩ := h other hactive hne
      refine ⟨?_, fun made hmade _ => ?_⟩
      · simp only [BinderState.act]
        exact hstays
      · obtain ⟨call, hcall, rfl⟩ := mem_map.mp hmade
        exact hcalls call hcall
    · refine ⟨?_, fun made hmade hmine => ?_⟩
      · simp only [BinderState.act, if_neg href]
        exact hactive
      · obtain ⟨call, -, rfl⟩ := mem_map.mp hmade
        exact absurd hmine.symm href

theorem pump_of_active (h : b.activeTurnId = some turnId) : pump env b = (b, []) := by
  unfold pump
  rw [h]
  rfl

theorem pump_of_idle (h : b.activeTurnId = none)
    (hstarted : (pump env b).1.activeTurnId = some turnId) :
    ∃ call ∈ (pump env b).2, call.turnId = turnId := by
  unfold pump at hstarted ⊢
  split at hstarted
  · rw [h] at hstarted
    cases hstarted
  · next hidle =>
    rw [if_neg hidle]
    simp only at hstarted ⊢
    split at hstarted
    · rw [h] at hstarted
      cases hstarted
    · next content _ =>
      obtain rfl := Option.some.inj hstarted
      exact ⟨_, mem_singleton_self _, rfl⟩

variable (b : LiveBinding)

theorem sparesTurn_enqueueTurn : SparesTurn failure.turnId b (enqueueTurn env b failure) := by
  intro other hactive hne
  unfold enqueueTurn
  simp only
  split
  · exact ⟨hactive, fun _ hcall => absurd hcall not_mem_nil⟩
  · -- whatever is said is said of the turn that failed
    split
    · refine ⟨hactive, fun call hcall => ?_⟩
      have hself : call.turnId = failure.turnId := by
        simp only [mem_append] at hcall
        rcases hcall with (hcall | hcall) | hcall
        · split at hcall
          · rw [mem_singleton.mp hcall]
            rfl
          · exact absurd hcall not_mem_nil
        · rcases mem_cons.mp hcall with rfl | hcall
          · rfl
          · rw [mem_singleton.mp hcall]
            rfl
        · split at hcall
          · rw [mem_singleton.mp hcall]
            rfl
          · exact absurd hcall not_mem_nil
      rw [hself]
      exact hne.symm
    · rw [pump_of_active (by exact hactive)]
      refine ⟨hactive, fun call hcall => ?_⟩
      have hself : call.turnId = failure.turnId := by
        simp only [mem_append, mem_singleton, not_mem_nil, or_false] at hcall
        rcases hcall with hcall | rfl
        · split at hcall
          · rw [mem_singleton.mp hcall]
            rfl
          · exact absurd hcall not_mem_nil
        · rfl
      rw [hself]
      exact hne.symm

theorem sparesTurn_redeliver (priorRuntimeId : Option String) :
    SparesTurn failure.turnId b (redeliver env b failure priorRuntimeId) := by
  intro other hactive hne
  refine ⟨?_, fun call hcall => ?_⟩
  · unfold redeliver
    split
    · split
      · exact hactive
      · exact hactive
    · exact hactive
  · rw [mem_singleton.mp hcall]
    exact hne.symm

theorem release_spares (turnId : TurnId) :
    (releaseUnacceptedCompletionCallbackTurn b turnId).1.activeTurnId = b.activeTurnId ∧
      ∀ call ∈ (releaseUnacceptedCompletionCallbackTurn b turnId).2, call.turnId = turnId := by
  unfold releaseUnacceptedCompletionCallbackTurn
  split
  · exact ⟨rfl, fun _ hcall => absurd hcall not_mem_nil⟩
  · refine ⟨rfl, fun call hcall => ?_⟩
    rw [mem_singleton.mp hcall]
    rfl

theorem sparesTurn_releaseCallbackTurn :
    SparesTurn failure.turnId b (releaseCallbackTurn env b failure) := by
  intro other hactive hne
  obtain ⟨hsame, hcalls⟩ := release_spares b failure.turnId
  have hother : ¬ some other = some failure.turnId := fun h => hne (Option.some.inj h)
  unfold releaseCallbackTurn
  simp only [hsame, hactive, if_neg hother]
  refine ⟨trivial, fun call hcall => ?_⟩
  rw [hcalls call hcall]
  exact hne.symm

theorem sparesTurn_giveUp_iff :
    SparesTurn failure.turnId b (giveUp env b failure) ↔
      failure.completionCallback.isSome = true ∨
        ∀ other, b.activeTurnId = some other → other = failure.turnId := by
  unfold giveUp
  by_cases hcallback : failure.completionCallback.isSome = true
  · rw [if_pos hcallback]
    exact iff_of_true (sparesTurn_releaseCallbackTurn b) (.inl hcallback)
  · rw [if_neg hcallback, or_iff_right hcallback]
    constructor
    · intro h other hactive
      by_contra hne
      obtain ⟨hstays, hcalls⟩ := h other hactive hne
      simp only [finishTurn, hactive] at hstays hcalls
      -- the turn that is active afterwards was started anew
      obtain ⟨call, hcall, hself⟩ := pump_of_idle rfl hstays
      exact hcalls call (by simp only [mem_append]; exact .inr (.inr hcall)) hself
    · intro h other hactive hne
      exact absurd (h other hactive) hne

/-! ## The whole handling -/

section

variable (env : BinderEnv) (ref : BindingRef) (failure : SendFailure)

/-- Handling a failure leaves every other active turn alone: before the rebind is awaited, and in
    whatever state `s'` the binder is found afterwards. -/
def SparesOtherTurns (s s' : BinderState) (outcome : RebindOutcome) : Prop :=
  match handleSendFailure env ref failure s with
  | .done s₁ calls => Spares failure.turnId s s₁ calls
  | .rebinding s₁ =>
    Spares failure.turnId s s₁ [] ∧
      Spares failure.turnId s'
        (afterRebind env ref failure (s.bindings ref).runtimeId s' outcome).1
        (afterRebind env ref failure (s.bindings ref).runtimeId s' outcome).2

/-- The binding as it is when the handler falls through to its end: at once when the turn was
    retried before or its profile is gone, after the rebind when that threw or left the binding
    without a runtime. -/
def reachesError (s s' : BinderState) (outcome : RebindOutcome) : Option LiveBinding :=
  if s.closed then none
  else if failure.turnId ∈ (s.bindings ref).retriedTurns ∨
      env.profile (s.bindings ref).profileActorId = false then
    some (s.bindings ref)
  else
    match outcome with
    | .threw => some (s'.bindings ref)
    | .bound rebound =>
      if s'.closed = true ∨ (s'.bindings rebound).adapter = true then none
      else some (s'.bindings ref)

variable {env ref failure}

theorem spares_giveUp_iff :
    Spares failure.turnId s (s.act ref fun b => giveUp env b failure).1
        (s.act ref fun b => giveUp env b failure).2 ↔
      failure.completionCallback.isSome = true ∨
        ∀ other, (s.bindings ref).activeTurnId = some other → other = failure.turnId :=
  spares_act_iff.trans (sparesTurn_giveUp_iff (s.bindings ref))

theorem spares_afterRebind_iff (priorRuntimeId : Option String) (s' : BinderState)
    (outcome : RebindOutcome) :
    Spares failure.turnId s' (afterRebind env ref failure priorRuntimeId s' outcome).1
        (afterRebind env ref failure priorRuntimeId s' outcome).2 ↔
      (∃ rebound, outcome = .bound rebound ∧
        (s'.closed = true ∨ (s'.bindings rebound).adapter = true)) ∨
      failure.completionCallback.isSome = true ∨
        ∀ other, (s'.bindings ref).activeTurnId = some other → other = failure.turnId := by
  cases outcome with
  | threw =>
    rw [or_iff_right (by rintro ⟨_, h, -⟩; cases h)]
    exact spares_giveUp_iff
  | bound rebound =>
    unfold afterRebind
    by_cases hclosed : s'.closed = true
    · simp only [hclosed]
      exact iff_of_true (spares_refl _ _) (.inl ⟨rebound, rfl, .inl trivial⟩)
    · simp only [hclosed]
      by_cases hadapter : (s'.bindings rebound).adapter = false
      · rw [if_pos hadapter, or_iff_right]
        · exact spares_giveUp_iff
        · rintro ⟨other, hbound, h | h⟩
          · cases h
          · cases hbound
            rw [hadapter] at h
            cases h
      · -- the turn is sent again, or queued
        refine iff_of_true ?_ (.inl ⟨rebound, rfl, .inr (Bool.not_eq_false _ ▸ hadapter)⟩)
        rw [if_neg (by decide), if_neg hadapter]
        split
        · exact spares_act_iff.mpr (sparesTurn_redeliver _ _)
        · exact spares_act_iff.mpr (sparesTurn_enqueueTurn _)

theorem activeTurnId_act (ref : BindingRef) (s : BinderState)
    (f : LiveBinding → LiveBinding × List Call)
    (hf : ∀ b, (f b).1.activeTurnId = b.activeTurnId) (k : BindingRef) :
    ((s.act ref f).1.bindings k).activeTurnId = (s.bindings k).activeTurnId := by
  by_cases hk : k = ref
  · subst hk
    simp only [BinderState.act]
    exact hf _
  · simp only [BinderState.act, if_neg hk]

theorem spares_congr {s₀ s' : BinderState} {calls : Calls}
    (h : ∀ k, (s.bindings k).activeTurnId = (s₀.bindings k).activeTurnId) :
    Spares turnId s₀ s' calls ↔ Spares turnId s s' calls := by
  unfold Spares
  simp only [h]

/-- **Send failures**: handling one leaves every other active turn alone exactly if it is the
    failure of a callback turn, or the handler does not fall through to the error row, or no other
    turn is active on the binding when it does. -/
theorem handleSendFailure_spares_iff (env : BinderEnv) (ref : BindingRef) (failure : SendFailure)
    (s s' : BinderState) (outcome : RebindOutcome) :
    SparesOtherTurns env ref failure s s' outcome ↔
      failure.completionCallback.isSome = true ∨
        ∀ b ∈ reachesError env ref failure s s' outcome,
          ∀ other, b.activeTurnId = some other → other = failure.turnId := by
  unfold SparesOtherTurns handleSendFailure reachesError
  by_cases hclosed : s.closed = true
  · simp only [hclosed]
    exact iff_of_true (spares_refl _ _) (.inr fun b hb => by cases hb)
  · rw [if_neg hclosed, if_neg hclosed]
    by_cases hretried : failure.turnId ∈ (s.bindings ref).retriedTurns
    · -- the single retry is spent
      simp only [hretried, if_true, true_or, Option.mem_some_iff, forall_eq']
      exact spares_giveUp_iff
    · rw [if_neg hretried]
      -- marking the turn as retried moves no active turn
      have hsame (k : BindingRef) := activeTurnId_act ref s
        (fun b => ({ b with retriedTurns := failure.turnId :: b.retriedTurns }, []))
        (fun _ => rfl) k
      cases hprofile : env.profile (s.bindings ref).profileActorId with
      | false =>
        simp only [or_true, if_true, Option.mem_some_iff, forall_eq', Bool.false_eq_true, if_false]
        rw [spares_congr hsame, spares_giveUp_iff, hsame ref]
      | true =>
        simp only [hretried, if_true]
        rw [spares_congr hsame, and_iff_right (spares_refl _ _), spares_afterRebind_iff]
        cases outcome with
        | threw => simp
        | bound rebound =>
          by_cases hreached : s'.closed = true ∨ (s'.bindings rebound).adapter = true
          · simp [hreached]
          · simp [hreached]

end

/-! ## A newer turn -/

/-- A store without runs, messages and callbacks, and an empty queue. -/
private def quietEnv : BinderEnv where
  profile := fun _ => true
  asyncRunFor := fun _ => none
  message := fun _ => false
  callbackState := fun _ => none
  admits := fun _ => true
  packet := fun _ _ => none
  dispatch := fun _ => ⟨[], none⟩

private def onSecondTurn : LiveBinding where
  channelId := "relay"
  profileActorId := "claude"
  displayName := "Claude"
  runtimeId := some "runtime"
  adapter := true
  status := .streaming
  activeTurnId := some (channelTurnId "chm:2" "claude")
  activeContent := some "pong"
  sendPreflight := false
  waitingOn := none
  sawStream := true
  openToolItems := []
  threadOrientationPending := false
  retriedTurns := [channelTurnId "chm:1" "claude"]
  parentMessageIdByTurn := fun _ => none
  requestMessageIdByTurn := fun _ => none
  absorbedRunIdsByTurn := fun _ => []
  finalMessageByTurn := fun _ => none
  continuationByTurn := fun _ => none
  completionCallbackByTurn := fun _ => none
  deferredCompletionTerminalByTurn := fun _ => none
  queue := []
  steeringQueue := []
  steeringInFlight := false
  steeringAcceptedCount := 0

/-- The second failure of the first turn ends the second turn. -/
theorem second_turn_not_spared :
    ¬ ∀ (env : BinderEnv) (ref : BindingRef) (failure : SendFailure) (s s' : BinderState)
      (outcome : RebindOutcome), SparesOtherTurns env ref failure s s' outcome := by
  intro h
  have hspares := h quietEnv 0
    ⟨⟨"chm:1", none⟩, channelTurnId "chm:1" "claude", true, "transport closed", none, none⟩
    ⟨false, fun _ => onSecondTurn⟩ ⟨false, fun _ => onSecondTurn⟩ .threw
  obtain ⟨hstays, -⟩ := hspares 0 (channelTurnId "chm:2" "claude") rfl (by decide)
  exact absurd hstays (by decide)

end RelayIde.Binder
