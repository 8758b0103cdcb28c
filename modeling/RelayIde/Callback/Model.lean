import Mathlib.Data.List.Sort
import RelayIde.Library.Table

/-!
# Completion Callback Table

The `channel_completion_callbacks` table and its writers
(`server/channel-message-store.ts`).  An edge records that a delegated turn owes its
requester a completion callback.  A delegated turn that delegates further keeps its own edge
open: it is deferred (`awaitingChild`), counts the announced children that have no edge yet
(`pendingChildIntents`), and its children point back at it
(`continuationParentCallbackId`).

Every writer is a function from the table to the table and what it returns; a transaction
that throws leaves the table as it was.
-/

namespace RelayIde.Callback

open RelayIde.Library

/-! ## Edges -/

/-- Edge id.  `completionCallbackEdgeId` renders it `chcb:<turn id>`, so it is never the
    empty string that the source's truthiness tests would skip. -/
structure CallbackId where
  turnId : String
  deriving DecidableEq

inductive CallbackState where
  /-- The delegated turn has not ended, or waits for a further delegation. -/
  | pending
  /-- The completion is known and not yet offered to the requester. -/
  | satisfied
  /-- Claimed by the binder for its in-memory queue. -/
  | delivered
  /-- Accepted by the requester, or suppressed by an explicit return. -/
  | consumed
  /-- Can never reach its requester. -/
  | undeliverable
  deriving DecidableEq

inductive TerminalReason where
  | completed
  | error
  | interrupt
  | unexpectedDisconnect
  | safeIdle
  | watchdog
  | turnCeiling
  deriving DecidableEq

inductive MessageDisposition where
  | finalMessage
  | noTerminalMessage
  deriving DecidableEq

inductive DeliveryReason where
  | requesterProfileUnavailable
  | continuationUndeliverable
  deriving DecidableEq

/-- A row of `channel_completion_callbacks`. -/
structure CallbackEdge where
  id : CallbackId
  channelId : String
  threadId : Option String
  triggerMessageId : String
  requesterProfileId : String
  targetProfileId : String
  targetRuntimeId : String
  targetTurnId : String
  continuationParentCallbackId : Option CallbackId
  awaitingChild : Bool
  /-- SQL `INTEGER`: nothing in the schema bounds it below. -/
  pendingChildIntents : Int
  continuationCompletedAt : Option Timestamp
  state : CallbackState
  terminalReason : Option TerminalReason
  terminalMessageId : Option String
  messageDisposition : Option MessageDisposition
  deliveryReason : Option DeliveryReason
  createdAt : Timestamp
  satisfiedAt : Option Timestamp
  deliveredAt : Option Timestamp
  consumedAt : Option Timestamp
  undeliverableAt : Option Timestamp
  updatedAt : Timestamp
  deriving DecidableEq

/-- The callback table, keyed by edge id. -/
abbrev CallbackTable := Table CallbackEdge.id

/-- `state IN ('pending','satisfied','delivered')`. -/
def CallbackState.unsettled : CallbackState → Bool
  | .pending | .satisfied | .delivered => true
  | .consumed | .undeliverable => false

def CallbackEdge.targets (e : CallbackEdge) (channelId targetProfileId targetTurnId : String) :
    Bool :=
  e.channelId == channelId && e.targetProfileId == targetProfileId && e.targetTurnId == targetTurnId

/-- `child.continuation_parent_callback_id = id`. -/
def CallbackEdge.childOf (e : CallbackEdge) (id : CallbackId) : Bool :=
  e.continuationParentCallbackId == some id

/-- Some row names `id` as its continuation parent. -/
def hasChild (t : CallbackTable) (id : CallbackId) : Bool :=
  t.rows.any (fun e => e.childOf id)

structure TerminalEvidence where
  terminalReason : TerminalReason
  terminalMessageId : Option String
  messageDisposition : MessageDisposition

/-- `SET terminal_reason, terminal_message_id, message_disposition`. -/
def CallbackEdge.withEvidence (e : CallbackEdge) (ev : TerminalEvidence) : CallbackEdge :=
  { e with
    terminalReason := some ev.terminalReason
    terminalMessageId := ev.terminalMessageId
    messageDisposition := some ev.messageDisposition }

/-! ## Creation -/

/-- Input of `createCompletionCallback`. -/
structure CreateInput where
  id : CallbackId
  channelId : String
  threadId : Option String
  triggerMessageId : String
  requesterProfileId : String
  targetProfileId : String
  targetRuntimeId : String
  targetTurnId : String
  continuationParentCallbackId : Option CallbackId

/-- The inserted row. -/
def CreateInput.newEdge (input : CreateInput) (now : Timestamp) : CallbackEdge :=
  { id := input.id
    channelId := input.channelId
    threadId := input.threadId
    triggerMessageId := input.triggerMessageId
    requesterProfileId := input.requesterProfileId
    targetProfileId := input.targetProfileId
    targetRuntimeId := input.targetRuntimeId
    targetTurnId := input.targetTurnId
    continuationParentCallbackId := input.continuationParentCallbackId
    awaitingChild := false
    pendingChildIntents := 0
    continuationCompletedAt := none
    state := .pending
    terminalReason := none
    terminalMessageId := none
    messageDisposition := none
    deliveryReason := none
    createdAt := now
    satisfiedAt := none
    deliveredAt := none
    consumedAt := none
    undeliverableAt := none
    updatedAt := now }

/-- The parent may take a child: it announced an intent that has no edge yet. -/
def acceptsChild (parent : CallbackEdge) (input : CreateInput) : Bool :=
  parent.channelId == input.channelId &&
    parent.targetProfileId == input.requesterProfileId &&
    parent.state == .pending && parent.awaitingChild &&
    decide (1 ≤ parent.pendingChildIntents)

/-- The named parent is valid, or none is named. -/
def parentAccepts (t : CallbackTable) (input : CreateInput) : Bool :=
  match input.continuationParentCallbackId with
  | none => true
  | some parentId =>
    match t.find? parentId with
    | none => false
    | some parent => acceptsChild parent input

/-- `pending_child_intents - 1` on a parent that still has one. -/
def takeIntent (t : CallbackTable) (now : Timestamp) (parentId : Option CallbackId) :
    CallbackTable :=
  match parentId with
  | none => t
  | some id =>
    t.updateWhere
      (fun e => e.id == id && e.state == .pending && e.awaitingChild &&
        decide (0 < e.pendingChildIntents))
      (fun e => { e with pendingChildIntents := e.pendingChildIntents - 1, updatedAt := now })
      (Table.keyed fun _ => rfl)

/-- `createCompletionCallbackImpl`; `none` is the thrown error, which rolls back. -/
def createCompletionCallback (t : CallbackTable) (now : Timestamp) (input : CreateInput) :
    CallbackTable × Option CallbackEdge :=
  if parentAccepts t input then
    match t.rows.find? (fun e =>
        e.targets input.channelId input.targetProfileId input.targetTurnId) with
    | some existing =>
      if existing.requesterProfileId ≠ input.requesterProfileId ∨
          existing.continuationParentCallbackId ≠ input.continuationParentCallbackId
      then (t, none)
      else (t, some existing)
    | none =>
      -- a taken primary key makes the insert throw
      if (t.find? input.id).isSome then (t, none)
      else
        let u := takeIntent (t.insert (input.newEdge now)) now input.continuationParentCallbackId
        (u, u.find? input.id)
  else (t, none)

/-! ## Evidence and fan-in -/

/-- Input of `satisfyCompletionCallback`. -/
structure SatisfyInput where
  channelId : String
  targetProfileId : String
  targetTurnId : String
  evidence : TerminalEvidence

/-- `state = 'satisfied'` with the evidence of the turn that ended. -/
def CallbackEdge.satisfyWith (e : CallbackEdge) (now : Timestamp) (ev : TerminalEvidence) :
    CallbackEdge :=
  { e.withEvidence ev with state := .satisfied, satisfiedAt := some now, updatedAt := now }

/-- `satisfyCompletionCallbackImpl`: satisfy the edge, or, while it awaits a child, record the
    evidence only. -/
def satisfyCompletionCallback (t : CallbackTable) (now : Timestamp) (input : SatisfyInput) :
    CallbackTable × Option CallbackEdge :=
  let hits (awaiting : Bool) (e : CallbackEdge) : Bool :=
    e.targets input.channelId input.targetProfileId input.targetTurnId &&
      e.state == .pending && e.awaitingChild == awaiting
  if t.rows.any (hits false) then
    let u := t.updateWhere (hits false) (fun e => e.satisfyWith now input.evidence)
      (Table.keyed fun _ => rfl)
    (u, u.rows.find? (fun e =>
      e.targets input.channelId input.targetProfileId input.targetTurnId))
  else
    (t.updateWhere (hits true)
      (fun e => { e.withEvidence input.evidence with updatedAt := now })
        (Table.keyed fun _ => rfl), none)

/-- `awaiting_child = 1, pending_child_intents + n`. -/
def CallbackEdge.announce (e : CallbackEdge) (now : Timestamp) (n : Nat) : CallbackEdge :=
  { e with
    awaitingChild := true
    pendingChildIntents := e.pendingChildIntents + n
    updatedAt := now }

/-- `deferCompletionCallbackForChildImpl`: announce children of the edge of a target turn. -/
def deferCompletionCallbackForChild (t : CallbackTable) (now : Timestamp)
    (channelId targetProfileId targetTurnId : String) (expectedChildCount : Nat) :
    CallbackTable × Option CallbackEdge :=
  let hits (e : CallbackEdge) : Bool :=
    e.targets channelId targetProfileId targetTurnId && e.state == .pending
  if t.rows.any hits then
    let u := t.updateWhere hits (fun e => e.announce now expectedChildCount)
      (Table.keyed fun _ => rfl)
    (u, u.rows.find? (fun e => e.targets channelId targetProfileId targetTurnId))
  else (t, none)

/-- `announceContinuationChildrenImpl`: announce children of an inherited ancestor edge. -/
def announceContinuationChildren (t : CallbackTable) (now : Timestamp) (callbackId : CallbackId)
    (expectedChildCount : Nat) : CallbackTable × Option CallbackEdge :=
  if expectedChildCount < 1 then (t, none)
  else
    let hits (e : CallbackEdge) : Bool := e.id == callbackId && e.state == .pending
    if t.rows.any hits then
      let u := t.updateWhere hits (fun e => e.announce now expectedChildCount)
        (Table.keyed fun _ => rfl)
      (u, u.find? callbackId)
    else (t, none)

/-- Input of `completeChildContinuation`. -/
structure CompleteInput where
  callbackId : CallbackId
  evidence : TerminalEvidence

/-- The parent a completed child satisfies: it is deferred, owes no intent and, by the caller's
    check, has no child left. -/
def fanInReady (parentId : CallbackId) (e : CallbackEdge) : Bool :=
  e.id == parentId && e.state == .pending && e.awaitingChild && e.pendingChildIntents == 0

/-- `completeChildContinuationImpl`: mark the child, and satisfy its parent when it was the
    last one. -/
def completeChildContinuation (t : CallbackTable) (now : Timestamp) (input : CompleteInput) :
    CallbackTable × Option CallbackEdge :=
  match t.find? input.callbackId with
  | none => (t, none)
  | some child =>
    match child.continuationParentCallbackId with
    | none => (t, none)
    | some parentId =>
      if child.state ≠ .consumed ∨ child.continuationCompletedAt ≠ none then (t, none)
      else
        let marked := t.updateWhere
          (fun e => e.id == input.callbackId && e.state == .consumed &&
            e.continuationCompletedAt.isNone)
          (fun e => { e with continuationCompletedAt := some now, updatedAt := now })
          (Table.keyed fun _ => rfl)
        if marked.rows.any (fun e => e.childOf parentId && e.continuationCompletedAt.isNone)
        then (marked, none)
        else if marked.rows.any (fanInReady parentId) then
          let u := marked.updateWhere (fanInReady parentId)
            (fun e => { e.satisfyWith now input.evidence with awaitingChild := false })
            (Table.keyed fun _ => rfl)
          (u, u.find? parentId)
        else (marked, none)

/-- `releaseDeferredCompletionCallbackImpl`: give one announced intent back; with no intent
    and no child left, the edge is no longer deferred. -/
def releaseDeferredCompletionCallback (t : CallbackTable) (now : Timestamp) (id : CallbackId) :
    CallbackTable × Option CallbackEdge :=
  let released := t.updateWhere
    (fun e => e.id == id && e.state == .pending && e.awaitingChild)
    (fun e => { e with
      pendingChildIntents := max 0 (e.pendingChildIntents - 1)
      updatedAt := now })
    (Table.keyed fun _ => rfl)
  let ready (e : CallbackEdge) : Bool :=
    e.id == id && e.state == .pending && e.awaitingChild && e.pendingChildIntents == 0 &&
      !hasChild released id
  if released.rows.any ready then
    let u := released.updateWhere ready
      (fun e => { e with
        awaitingChild := false
        state := if e.terminalReason = none then .pending else .satisfied
        satisfiedAt := if e.terminalReason = none then e.satisfiedAt else some now
        updatedAt := now })
      (Table.keyed fun _ => rfl)
    (u, u.find? id)
  else (released, none)

/-! ## Delivery -/

/-- `ORDER BY satisfied_at ASC, created_at ASC, id ASC`; a null `satisfied_at` sorts first. -/
def offerOrder (a b : CallbackEdge) : Prop :=
  let key (e : CallbackEdge) : Nat := match e.satisfiedAt with
    | none => 0
    | some at_ => at_ + 1
  key a < key b ∨ (key a = key b ∧ (a.createdAt < b.createdAt ∨
    (a.createdAt = b.createdAt ∧ a.id.turnId ≤ b.id.turnId)))

instance : DecidableRel offerOrder := fun a b => by
  unfold offerOrder
  infer_instance

def satisfiedEdges (t : CallbackTable) : List CallbackEdge :=
  (t.rows.filter (fun e => e.state == .satisfied)).insertionSort offerOrder

/-- `claimSatisfiedCompletionCallbacks`: hand up to `limit` edges to the binder. -/
def claimSatisfiedCompletionCallbacks (t : CallbackTable) (now : Timestamp) (limit : Int) :
    CallbackTable × List CallbackEdge :=
  let bounded := (max 1 (min 1000 limit)).toNat
  let candidates := (satisfiedEdges t).take bounded
  let u := t.updateWhere (fun e => candidates.any (fun c => c.id == e.id) && e.state == .satisfied)
    (fun e => { e with state := .delivered, deliveredAt := some now, updatedAt := now })
    (Table.keyed fun _ => rfl)
  (u, candidates.filterMap (fun c => u.find? c.id))

/-- `state = 'satisfied', delivered_at = NULL`. -/
def CallbackEdge.reoffer (e : CallbackEdge) (now : Timestamp) : CallbackEdge :=
  { e with state := .satisfied, deliveredAt := none, updatedAt := now }

/-- `releaseDeliveredCompletionCallbackImpl`: the offer failed, re-offer later. -/
def releaseDeliveredCompletionCallback (t : CallbackTable) (now : Timestamp) (id : CallbackId) :
    CallbackTable × Bool :=
  let hits (e : CallbackEdge) : Bool := e.id == id && e.state == .delivered
  (t.updateWhere hits (fun e => e.reoffer now) (Table.keyed fun _ => rfl), t.rows.any hits)

/-- `consumed`, at `now`. -/
def CallbackEdge.consume (e : CallbackEdge) (now : Timestamp) : CallbackEdge :=
  { e with state := .consumed, consumedAt := some now, updatedAt := now }

/-- `consumeCompletionCallback`: the requester accepted the callback. -/
def consumeCompletionCallback (t : CallbackTable) (now : Timestamp) (id : CallbackId) :
    CallbackTable × Bool :=
  let hits (e : CallbackEdge) : Bool := e.id == id && e.state == .delivered
  (t.updateWhere hits (fun e => e.consume now) (Table.keyed fun _ => rfl), t.rows.any hits)

/-- Input of `consumeCompletionCallbacksForExplicitReturn`. -/
structure ExplicitReturnInput where
  channelId : String
  targetProfileId : String
  targetTurnId : String
  requesterProfileIds : List String

/-- Edges the explicit return of a turn consumes. -/
def ExplicitReturnInput.selects (input : ExplicitReturnInput) (e : CallbackEdge) : Bool :=
  e.targets input.channelId input.targetProfileId input.targetTurnId &&
    input.requesterProfileIds.contains e.requesterProfileId && e.state.unsettled

/-- `consumeCompletionCallbacksForExplicitReturnImpl`: the delegated turn returned by itself. -/
def consumeCompletionCallbacksForExplicitReturn (t : CallbackTable) (now : Timestamp)
    (input : ExplicitReturnInput) : CallbackTable × List CallbackEdge :=
  let u := t.updateWhere input.selects (fun e => e.consume now) (Table.keyed fun _ => rfl)
  (u, (t.rows.filter input.selects).filterMap (fun e => u.find? e.id))

/-- `consumeAncestorCompletionCallbackForExplicitReturnImpl`: a continuation returned to the
    ancestor's requester. -/
def consumeAncestorCompletionCallbackForExplicitReturn (t : CallbackTable) (now : Timestamp)
    (id : CallbackId) : CallbackTable × Option CallbackEdge :=
  let hits (e : CallbackEdge) : Bool := e.id == id && e.state.unsettled
  let u := t.updateWhere hits (fun e => e.consume now) (Table.keyed fun _ => rfl)
  (u, if t.rows.any hits then u.find? id else none)

/-- `undeliverable`, at `now`. -/
def CallbackEdge.terminalize (e : CallbackEdge) (now : Timestamp) (reason : DeliveryReason) :
    CallbackEdge :=
  { e with
    state := .undeliverable
    deliveryReason := some reason
    undeliverableAt := some now
    updatedAt := now }

/-- The upward walk of `terminalizeDelivered…`: every unsettled ancestor loses the continuation
    it waits for.  It stops at a missing row or at an id already seen; each iteration sees a
    new row, so the fuel is the number of rows. -/
def terminalizeAncestors (now : Timestamp) :
    Nat → CallbackTable → List CallbackId → Option CallbackId → CallbackTable
  | 0, t, _, _ => t
  | _ + 1, t, _, none => t
  | fuel + 1, t, seen, some parentId =>
    if parentId ∈ seen then t
    else
      match t.find? parentId with
      | none => t
      | some parent =>
        terminalizeAncestors now fuel
          (t.updateWhere (fun e => e.id == parent.id && e.state.unsettled)
            (fun e => e.terminalize now .continuationUndeliverable) (Table.keyed fun _ => rfl))
          (parentId :: seen) parent.continuationParentCallbackId

/-- Input of `terminalizeDeliveredCompletionCallback`. -/
structure TerminalizeInput where
  id : CallbackId
  channelId : String
  threadId : Option String
  deliveryReason : DeliveryReason

/-- `terminalizeDeliveredCompletionCallbackImpl`: the claimed edge cannot be delivered. -/
def terminalizeDeliveredCompletionCallback (t : CallbackTable) (now : Timestamp)
    (input : TerminalizeInput) : CallbackTable × Option CallbackEdge :=
  let hits (e : CallbackEdge) : Bool :=
    e.id == input.id && e.channelId == input.channelId && e.threadId == input.threadId &&
      e.state == .delivered
  if t.rows.any hits then
    let terminalized := t.updateWhere hits (fun e => e.terminalize now input.deliveryReason)
      (Table.keyed fun _ => rfl)
    match terminalized.find? input.id with
    | none => (t, none)
    | some edge =>
      (terminalizeAncestors now terminalized.rows.length terminalized [edge.id]
        edge.continuationParentCallbackId, some edge)
  else (t, none)

/-! ## Recovery and retention -/

inductive TerminalStatus where
  | complete
  | failed
  | interrupted

/-- `selectTerminalCallbackMessage`: the newest finished reply row of an edge's target turn. -/
abbrev TerminalLookup := CallbackEdge → Option (String × TerminalStatus)

/-- Evidence the recovery attaches to an edge that was open at the restart. -/
def recoveredEvidence (message : Option (String × TerminalStatus)) : TerminalEvidence :=
  match message with
  | some (id, .complete) => ⟨.completed, some id, .finalMessage⟩
  | some (id, .failed) => ⟨.error, some id, .finalMessage⟩
  | some (id, .interrupted) => ⟨.interrupt, some id, .finalMessage⟩
  | none => ⟨.unexpectedDisconnect, none, .noTerminalMessage⟩

/-- `awaiting_child = 0, pending_child_intents = 0`. -/
def CallbackEdge.dropDefer (e : CallbackEdge) (now : Timestamp) : CallbackEdge :=
  { e with awaitingChild := false, pendingChildIntents := 0, updatedAt := now }

def recoverCompletionCallbacksImpl (t : CallbackTable) (now : Timestamp)
    (lookup : TerminalLookup) : CallbackTable × List CallbackEdge :=
  -- the in-memory queue is gone: re-offer what was claimed
  let reoffered := t.updateWhere (fun e => e.state == .delivered) (fun e => e.reoffer now)
    (Table.keyed fun _ => rfl)
  -- a defer without a child edge is not a live delegation
  let undeferred := reoffered.updateWhere
    (fun e => e.state == .pending && e.awaitingChild && !hasChild reoffered e.id)
    (fun e => e.dropDefer now) (Table.keyed fun _ => rfl)
  let satisfied := undeferred.updateWhere (fun e => e.state == .pending && !e.awaitingChild)
    (fun e => e.satisfyWith now (recoveredEvidence (lookup e))) (Table.keyed fun _ => rfl)
  (satisfied, satisfiedEdges satisfied)

/-- `continuation_completed_at` is missing on a consumed child, or the child is unsettled. -/
def CallbackEdge.incompleteChild (e : CallbackEdge) : Bool :=
  e.state.unsettled || (e.state == .consumed && e.continuationCompletedAt.isNone)

/-- The rows the retention sweep deletes. -/
def prunable (t : CallbackTable) (cutoff : Timestamp) (e : CallbackEdge) : Bool :=
  !e.state.unsettled &&
    (match e.consumedAt.or e.undeliverableAt with
      | none => false
      | some at_ => decide (at_ < cutoff)) &&
    !t.rows.any (fun child => child.childOf e.id && child.incompleteChild) &&
    !t.rows.any (fun parent =>
      e.continuationParentCallbackId == some parent.id && parent.state.unsettled)

/-- `pruneConsumedCompletionCallbacksImpl`, with the number of deleted rows. -/
def pruneConsumedCompletionCallbacksImpl (t : CallbackTable) (now : Timestamp)
    (olderThanMs : Nat) : CallbackTable × Nat :=
  let cutoff := now - olderThanMs
  (t.deleteWhere (prunable t cutoff), (t.rows.filter (prunable t cutoff)).length)

/-- `COMPLETION_CALLBACK_CONSUMED_RETENTION_MS`: seven days. -/
def completionCallbackConsumedRetentionMs : Nat := 7 * 24 * 60 * 60 * 1000

/-- `pruneConsumedCompletionCallbacks`: a negative age is clamped to zero. -/
def pruneConsumedCompletionCallbacks (t : CallbackTable) (now : Timestamp) (olderThanMs : Int) :
    CallbackTable × Nat :=
  pruneConsumedCompletionCallbacksImpl t now (max 0 olderThanMs).toNat

/-- `recoverCompletionCallbacks`: recover, then sweep settled history. -/
def recoverCompletionCallbacks (t : CallbackTable) (now : Timestamp) (lookup : TerminalLookup) :
    CallbackTable × List CallbackEdge :=
  let recovered := recoverCompletionCallbacksImpl t now lookup
  ((pruneConsumedCompletionCallbacksImpl recovered.1 now completionCallbackConsumedRetentionMs).1,
    recovered.2)

/-! ## The machine -/

inductive CallbackOp where
  | create (now : Timestamp) (input : CreateInput)
  | satisfy (now : Timestamp) (input : SatisfyInput)
  | defer (now : Timestamp) (channelId targetProfileId targetTurnId : String) (n : Nat)
  | announce (now : Timestamp) (id : CallbackId) (n : Nat)
  | completeChild (now : Timestamp) (input : CompleteInput)
  | releaseDeferred (now : Timestamp) (id : CallbackId)
  | claim (now : Timestamp) (limit : Int)
  | releaseDelivered (now : Timestamp) (id : CallbackId)
  | consume (now : Timestamp) (id : CallbackId)
  | explicitReturn (now : Timestamp) (input : ExplicitReturnInput)
  | ancestorReturn (now : Timestamp) (id : CallbackId)
  | terminalize (now : Timestamp) (input : TerminalizeInput)
  | recover (now : Timestamp) (lookup : TerminalLookup)
  | prune (now : Timestamp) (olderThanMs : Int)

/-- The table after one operation. -/
def step (t : CallbackTable) : CallbackOp → CallbackTable
  | .create now input => (createCompletionCallback t now input).1
  | .satisfy now input => (satisfyCompletionCallback t now input).1
  | .defer now channelId targetProfileId targetTurnId n =>
    (deferCompletionCallbackForChild t now channelId targetProfileId targetTurnId n).1
  | .announce now id n => (announceContinuationChildren t now id n).1
  | .completeChild now input => (completeChildContinuation t now input).1
  | .releaseDeferred now id => (releaseDeferredCompletionCallback t now id).1
  | .claim now limit => (claimSatisfiedCompletionCallbacks t now limit).1
  | .releaseDelivered now id => (releaseDeliveredCompletionCallback t now id).1
  | .consume now id => (consumeCompletionCallback t now id).1
  | .explicitReturn now input => (consumeCompletionCallbacksForExplicitReturn t now input).1
  | .ancestorReturn now id => (consumeAncestorCompletionCallbackForExplicitReturn t now id).1
  | .terminalize now input => (terminalizeDeliveredCompletionCallback t now input).1
  | .recover now lookup => (recoverCompletionCallbacks t now lookup).1
  | .prune now olderThanMs => (pruneConsumedCompletionCallbacks t now olderThanMs).1

end RelayIde.Callback
