import RelayIde.AsyncRun.Rejection
import RelayIde.Binder.Log

/-!
# Consecutive-Agent Brake

How the agent binder routes the rows of one channel (`server/channel-agent-binder.ts`).  Between
two human posts of a conversation scope only so many agent turns may route; after that the scope
is paused, and the targets that an agent post has already been promised are rejected.

- `brake_of_run` — the allowance over every run

What the binder reads from elsewhere (roles of runtimes, resolved profiles, callback edges) is an
input of each operation.
-/

namespace RelayIde.Binder

open RelayIde.Library List Function
open RelayIde.Channel (ChannelSenderKind ChannelMessageKind)

/-! ## Scopes and turns -/

def maxConsecutiveAgentTurns : ℕ := 4

structure ThreadId where
  text : String
  /-- Message ids are generated with a head of their own. -/
  nonempty : text ≠ ""
  deriving DecidableEq

/-- The root of the channel, or one of its threads. -/
abbrev ConversationScope := Option ThreadId

def conversationScopeKey (channelId : String) (threadId : ConversationScope) : String :=
  channelId ++ "\x00" ++ (threadId.map (·.text)).getD ""

/-- The origin of an agent row. -/
structure MessageSource where
  runtimeId : Option String
  turnId : Option String
  deriving DecidableEq

/-- A row as the router reads it. -/
structure RoutedMessage where
  id : String
  threadId : ConversationScope
  kind : ChannelMessageKind
  senderKind : ChannelSenderKind
  source : Option MessageSource
  /-- `meta.deliveryContractFollowup.targetProfileId`. -/
  followupTarget : Option String
  deriving DecidableEq

def presentText (text : Option String) : Option String :=
  text.filter (· ≠ "")

def agentTurnBrakeKey (message : RoutedMessage) : String :=
  match message.source.bind (presentText ·.runtimeId),
    message.source.bind (presentText ·.turnId) with
  | some runtimeId, some turnId => runtimeId ++ "\x00" ++ turnId
  -- a post without a provider turn is a turn of its own
  | _, _ => "message:" ++ message.id

/-! ## The router -/

/-- The entry of one scope in `consecutiveAgentTurns`. -/
structure ConsecutiveAgentTurns where
  count : ℕ
  /-- A set, in the order of its insertions. -/
  allowedTurnKeys : List String
  paused : Bool

structure CallbackEdgeRequest where
  requesterProfileId : String
  continuationParentCallbackId : Option String
  deriving DecidableEq

inductive RouteLane where
  | human
  | orchestrator
  | followup
  | agent (turnKey : String)
  deriving DecidableEq

/-- What the router does, as seen from outside. -/
inductive RouterEvent where
  /-- A human post lifts the brake. -/
  | humanPosted (threadId : ConversationScope)
  /-- `routeOne`. -/
  | routed (message : RoutedMessage) (profileId : String) (lane : RouteLane)
      (edge : Option CallbackEdgeRequest)
  | continuationPrepared (message : RoutedMessage)
  /-- The scope is paused. -/
  | paused (threadId : ConversationScope)
  /-- `emitReceipt` with `refused_policy`, `mention_chain_paused`. -/
  | receipt (message : RoutedMessage) (profileId : String)
  | systemRow (threadId : ConversationScope) (text : String)
  deriving DecidableEq

structure Router where
  closed : Bool
  consecutiveAgentTurns : String → Option ConsecutiveAgentTurns
  asyncRuns : AsyncRun.Store
  /-- The run ids handed out, and the messages whose posts opened a run. -/
  runIds : List String
  requests : List String
  /-- Newest first. -/
  events : List RouterEvent

def Router.start : Router where
  closed := false
  consecutiveAgentTurns := fun _ => none
  asyncRuns := .empty
  runIds := []
  requests := []
  events := []

def Router.note (s : Router) (e : RouterEvent) : Router :=
  { s with events := e :: s.events }

/-- The events of a loop, in order. -/
def Router.noteAll (s : Router) (events : List RouterEvent) : Router :=
  { s with events := events.reverse ++ s.events }

def Router.setTurns (s : Router) (key : String) (state : Option ConsecutiveAgentTurns) : Router :=
  { s with consecutiveAgentTurns := update s.consecutiveAgentTurns key state }

/-- A contract writer, as `handleTerminalDeliveryContract` calls them on a settled run. -/
inductive ContractWrite where
  | finalize (input : AsyncRun.FinalizeInput) (now : Timestamp)
  | stampFollowup (runId : String) (decidedAt now : Timestamp)
  | setPending (runId : String) (pending : Bool) (now : Timestamp)

def ContractWrite.op : ContractWrite → AsyncRun.Op
  | .finalize input now => .finalize input now
  | .stampFollowup runId decidedAt now => .stampFollowup runId decidedAt now
  | .setPending runId pending now => .setPending runId pending now

/-- What a routing call finds elsewhere. -/
structure RoutingEnv where
  now : Timestamp
  /-- `deps.runtimes.get(runtimeId)?.role === 'orchestrator'`. -/
  isOrchestrator : String → Bool
  /-- `requesterProfileForAgentMessage`. -/
  requesterProfileId : Option String
  /-- The contract writes that settling one rejected target brings about. -/
  settle : String → List ContractWrite

/-- The rejection of one target, with the contract writes behind it. -/
def rejectTarget (env : RoutingEnv) (runId reason : String) (runs : AsyncRun.Store)
    (profileId : String) : AsyncRun.Store :=
  exec AsyncRun.step
    (runs.transitionAsyncRunTarget
      { runId := runId, targetId := profileId, state := .rejected, reason := some reason,
        approvalState := none, turnId := none } env.now)
    ((env.settle profileId).map (·.op))

/-- `rejectPreAdmittedTargets`. -/
def Router.refuse (s : Router) (env : RoutingEnv) (message : RoutedMessage)
    (profileIds : List String) : Router :=
  match s.asyncRuns.getAsyncRunForRequestMessage message.id with
  | none => s
  | some run =>
    { s with
      asyncRuns := profileIds.foldl
        (rejectTarget env run.id "mention-chain-paused") s.asyncRuns }

/-- `prepareContinuation?.()`, and the id it yields. -/
def Router.prepareContinuation (s : Router) (message : RoutedMessage)
    (prepare : Option (Option String)) : Router :=
  if prepare.isSome then s.note (.continuationPrepared message) else s

/-- `routeOne` for each profile of an agent row. -/
def routedEvents (env : RoutingEnv) (message : RoutedMessage) (profileIds : List String)
    (callbackSuppressed : List String) (lane : RouteLane) (parentCallbackId : Option String) :
    List RouterEvent :=
  profileIds.map fun profileId =>
    .routed message profileId lane
      (if profileId ∈ callbackSuppressed then none
      else env.requesterProfileId.map fun requester => ⟨requester, parentCallbackId⟩)

def pausedText (count : ℕ) : String :=
  s!"Mention chain paused — {count} agent turns without a human."

def routeWithBrake (channelId : String) (env : RoutingEnv) (s : Router) (message : RoutedMessage)
    (profileIds : List String) (callbackSuppressed : List String)
    (prepare : Option (Option String)) : Router :=
  if profileIds.isEmpty then s
  else if ((message.source.bind (presentText ·.runtimeId)).map env.isOrchestrator).getD false then
    -- neither counted nor held back
    (s.prepareContinuation message prepare).noteAll
      (routedEvents env message profileIds callbackSuppressed .orchestrator prepare.join)
  else
    let turnKey := agentTurnBrakeKey message
    let scopeKey := conversationScopeKey channelId message.threadId
    let state := (s.consecutiveAgentTurns scopeKey).getD ⟨0, [], false⟩
    let receipts := profileIds.map fun profileId => RouterEvent.receipt message profileId
    let admitted := routedEvents env message profileIds callbackSuppressed (.agent turnKey)
      prepare.join
    -- pausing is checked for each dispatch, also for a turn that was admitted before
    if state.paused then
      ((s.setTurns scopeKey (some state)).refuse env message profileIds).noteAll receipts
    else if turnKey ∈ state.allowedTurnKeys then
      ((s.setTurns scopeKey (some state)).prepareContinuation message prepare).noteAll admitted
    else if state.count ≥ maxConsecutiveAgentTurns then
      ((((s.setTurns scopeKey (some { state with paused := true })).note
        (.paused message.threadId)).refuse env message profileIds).note
          (.systemRow message.threadId (pausedText state.count))).noteAll receipts
    else
      ((s.setTurns scopeKey (some
        { state with
          allowedTurnKeys := state.allowedTurnKeys ++ [turnKey]
          count := state.count + 1 })).prepareContinuation message prepare).noteAll admitted

/-- The follow-up branch of `handleMessagePosted`: not counted, but held back while paused. -/
def routeFollowup (channelId : String) (env : RoutingEnv) (s : Router) (message : RoutedMessage)
    (targetProfileId : String) (targetExists : Bool) : Router :=
  let state := s.consecutiveAgentTurns (conversationScopeKey channelId message.threadId)
  if (state.map (·.paused)).getD false then
    (s.refuse env message [targetProfileId]).note
      (.systemRow message.threadId (pausedText ((state.map (·.count)).getD 0)))
  else if !targetExists then
    match s.asyncRuns.getAsyncRunForRequestMessage message.id with
    | none => s
    | some run =>
      { s with
        asyncRuns := rejectTarget env run.id "target-profile-missing" s.asyncRuns targetProfileId }
  else s.note (.routed message targetProfileId .followup none)

/-- Routing of a post, by its kind and its sender. -/
def handleMessagePosted (channelId : String) (env : RoutingEnv) (s : Router)
    (message : RoutedMessage) (profileIds : List String) (targetExists : Bool) : Router :=
  if s.closed then s
  else
    match message.kind with
    | .system =>
      match message.followupTarget with
      | some targetProfileId => routeFollowup channelId env s message targetProfileId targetExists
      -- ordinary system rows never route
      | none => s
    | .message =>
      match message.senderKind with
      | .agent => routeWithBrake channelId env s message profileIds [] none
      | .human =>
        ((s.setTurns (conversationScopeKey channelId message.threadId) none).note
          (.humanPosted message.threadId)).noteAll
            (profileIds.map fun profileId => .routed message profileId .human none)
      | .system => s

def handleAssistantFinalized (channelId : String) (env : RoutingEnv) (s : Router)
    (message : RoutedMessage) (profileIds explicitReturnProfiles : List String)
    (prepare : Option (Option String)) : Router :=
  if s.closed then s
  else routeWithBrake channelId env s message profileIds explicitReturnProfiles prepare

/-! ## Operations -/

structure RunSeed where
  runId : String
  requesterId : String
  deliveryContract : Option AsyncRun.DeliveryContract

inductive RouterOp where
  /-- A post of the channel route: the row with its run, then the routing of it.  One resolver
      serves both. -/
  | post (env : RoutingEnv) (message : RoutedMessage) (profileIds : List String) (seed : RunSeed)
  /-- `postDeliveryContractFollowupTrigger`. -/
  | postFollowup (env : RoutingEnv) (message : RoutedMessage) (targetProfileId : String)
      (targetExists : Bool) (seed : RunSeed)
  /-- A row of a bound agent's turn is final. -/
  | assistantFinalized (env : RoutingEnv) (message : RoutedMessage)
      (profileIds explicitReturnProfiles : List String) (prepare : Option (Option String))
  /-- A system row without a run. -/
  | systemRow (env : RoutingEnv) (message : RoutedMessage)
  /-- Any other writer of the async runs; a run it opens is for a request posted earlier. -/
  | runs (op : AsyncRun.Op)
  | close

/-- `appendCompleteWithAsyncRun` for a new message. -/
def Router.openRun (s : Router) (env : RoutingEnv) (message : RoutedMessage)
    (targetIds : List String) (seed : RunSeed) : Router :=
  { s with
    asyncRuns := s.asyncRuns.createAsyncRun
      { runId := seed.runId, requestMessageId := message.id, requesterId := seed.requesterId,
        targetIds := targetIds, deliveryContract := seed.deliveryContract } env.now
    runIds := seed.runId :: s.runIds
    requests := message.id :: s.requests }

/-- Ids are generated anew: an operation that repeats one does not occur, and is ignored. -/
def Router.step (channelId : String) (s : Router) : RouterOp → Router
  | .post env message profileIds seed =>
    if message.id ∈ s.requests ∨ seed.runId ∈ s.runIds ∨ message.kind = .system then s
    else
      handleMessagePosted channelId env (s.openRun env message profileIds seed) message profileIds
        true
  | .postFollowup env message targetProfileId targetExists seed =>
    if message.id ∈ s.requests ∨ seed.runId ∈ s.runIds then s
    else
      handleMessagePosted channelId env (s.openRun env message [targetProfileId] seed)
        { message with
          kind := .system, senderKind := .system, followupTarget := some targetProfileId }
        [] targetExists
  | .assistantFinalized env message profileIds explicitReturnProfiles prepare =>
    if message.id ∈ s.requests then s
    else
      handleAssistantFinalized channelId env s message profileIds explicitReturnProfiles prepare
  | .systemRow env message =>
    handleMessagePosted channelId env s { message with kind := .system, followupTarget := none } []
      true
  | .runs op =>
    match op with
    | .create input now =>
      if input.requestMessageId ∈ s.requests ∧ input.runId ∉ s.runIds then
        { s with
          asyncRuns := AsyncRun.step s.asyncRuns (.create input now)
          runIds := input.runId :: s.runIds }
      else s
    | op => { s with asyncRuns := AsyncRun.step s.asyncRuns op }
  | .close => { s with closed := true, consecutiveAgentTurns := fun _ => none }

/-! ## What happened since the last human post -/

/-- The turn a non-orchestrator agent row of scope `t` is routed for. -/
def RouterEvent.agentTurn? (t : ConversationScope) : RouterEvent → Option String
  | .routed message _ (.agent turnKey) _ => if message.threadId = t then some turnKey else none
  | _ => none

/-- The events since the last human post in scope `t`, newest first. -/
def sinceHuman (t : ConversationScope) (events : List RouterEvent) : List RouterEvent :=
  events.takeWhile fun e => !decide (e = .humanPosted t)

def turnsSinceHuman (t : ConversationScope) (events : List RouterEvent) : List String :=
  (sinceHuman t events).filterMap (RouterEvent.agentTurn? t)

/-- No agent row is routed once the scope is paused. -/
def HeldAfterPause (t : ConversationScope) (recent : List RouterEvent) : Prop :=
  recent.Pairwise fun newer older => older = .paused t → newer.agentTurn? t = none

structure ScopeOk (state : ConsecutiveAgentTurns) (t : ConversationScope)
    (recent : List RouterEvent) : Prop where
  count : state.allowedTurnKeys.length = state.count
  bound : state.count ≤ maxConsecutiveAgentTurns
  allowed : ∀ e ∈ recent, ∀ k, e.agentTurn? t = some k → k ∈ state.allowedTurnKeys
  paused : .paused t ∈ recent → state.paused = true
  held : HeldAfterPause t recent

/-- An event that says nothing about scope `t`. -/
structure Quiet (t : ConversationScope) (e : RouterEvent) : Prop where
  notHuman : e ≠ .humanPosted t
  notPaused : e ≠ .paused t
  noTurn : e.agentTurn? t = none

/-- The allowance of a scope nobody has used. -/
def freshTurns : ConsecutiveAgentTurns := ⟨0, [], false⟩

variable {turnKey : String} {message : RoutedMessage} {e : RouterEvent} {I : AsyncRun.Store → Prop}
  {runs : AsyncRun.Store} {seed : RunSeed}

section Scopes

variable {state : ConsecutiveAgentTurns} {t : ConversationScope} {recent events : List RouterEvent}

section
variable (h : ScopeOk state t recent)
include h

theorem ScopeOk.quiet (hquiet : ∀ e ∈ events, Quiet t e) : ScopeOk state t (events ++ recent) where
  count := h.count
  bound := h.bound
  allowed e he k hturn := by
    rcases mem_append.mp he with he | he
    · rw [(hquiet e he).noTurn] at hturn
      cases hturn
    · exact h.allowed e he k hturn
  paused hpaused := by
    rcases mem_append.mp hpaused with hp | hp
    · exact absurd rfl (hquiet _ hp).notPaused
    · exact h.paused hp
  held := by
    refine pairwise_append.mpr ⟨?_, h.held, fun newer hn older _ _ => (hquiet newer hn).noTurn⟩
    exact pairwise_of_forall_mem_list fun newer hn older _ _ => (hquiet newer hn).noTurn

theorem ScopeOk.allow (hroom : state.count < maxConsecutiveAgentTurns) (turnKey : String) :
    ScopeOk { state with
      allowedTurnKeys := state.allowedTurnKeys ++ [turnKey], count := state.count + 1 } t recent :=
  ⟨by simp [h.count], hroom, fun e he k hturn => mem_append_left _ (h.allowed e he k hturn),
    h.paused, h.held⟩

end

end Scopes

/-! ## One routing call -/

section Routing

variable {channelId : String}

/-- The allowance of scope `t`. -/
def Router.allowance (channelId : String) (s : Router) (t : ConversationScope) :
    ConsecutiveAgentTurns :=
  (s.consecutiveAgentTurns (conversationScopeKey channelId t)).getD freshTurns

variable (s : Router)

@[simp] theorem allowance_noteAll (events : List RouterEvent) (t : ConversationScope) :
    (s.noteAll events).allowance channelId t = s.allowance channelId t := rfl

@[simp] theorem allowance_refuse (env : RoutingEnv) (message : RoutedMessage)
    (profileIds : List String) (t : ConversationScope) :
    (s.refuse env message profileIds).allowance channelId t = s.allowance channelId t := by
  unfold Router.refuse
  split <;> rfl

/-- The allowance of scope `t` fits what happened in it. -/
def Router.InScope (channelId : String) (s : Router) (t : ConversationScope) : Prop :=
  ScopeOk (s.allowance channelId t) t (sinceHuman t s.events)

variable {s : Router} {t : ConversationScope}

section
variable (h : s.InScope channelId t)
include h

end

end Routing

/-! ## Rejected requests -/

section Requests

section
variable (hstep : ∀ runs op, (∀ input now, op ≠ .create input now) → I runs →
  I (AsyncRun.step runs op))
include hstep

variable (env : RoutingEnv) (runId reason : String)

end

theorem rejectsFrom_rejectTargets (env : RoutingEnv) (runId reason : String)
    (profileIds : List String) (h : runs.RejectsFrom runId profileIds) :
    (profileIds.foldl (rejectTarget env runId reason) runs).RejectsFrom runId [] := by
  induction profileIds generalizing runs with
  | nil => exact h
  | cons profileId profileIds ih =>
    apply ih
    have hfirst := AsyncRun.rejectsFrom_transition h (some reason) env.now
    have hwrites (writes : List ContractWrite) : ∀ runs : AsyncRun.Store,
        runs.RejectsFrom runId profileIds →
          AsyncRun.Store.RejectsFrom (exec AsyncRun.step runs (writes.map (·.op))) runId
            profileIds := by
      induction writes with
      | nil => exact fun runs h => h
      | cons write writes ihw =>
        intro runs h
        apply ihw
        cases write with
        | finalize input now =>
          exact AsyncRun.rejectsFrom_updateRun h (AsyncRun.finalizeDeliveryContract_id input now)
            fun run => AsyncRun.keepsTargets_finalize run input now
        | stampFollowup otherId decidedAt now =>
          exact AsyncRun.rejectsFrom_updateRun h
            (AsyncRun.stampFollowupDecidedAt_id decidedAt now)
            fun run => AsyncRun.keepsTargets_stamp run decidedAt now
        | setPending otherId pending now =>
          exact AsyncRun.rejectsFrom_updateRun h (AsyncRun.setContractPending_id pending now)
            fun run => AsyncRun.keepsTargets_setPending run pending now
    exact hwrites _ _ hfirst

/-- Every run was opened under an id of its own for a request. -/
def Issued (runIds requests : List String) (runs : AsyncRun.Store) : Prop :=
  ∀ run ∈ runs.rows, run.id ∈ runIds ∧ run.requestMessageId ∈ requests

theorem Issued.step {runIds requests : List String}
    (h : Issued runIds requests runs) {op : AsyncRun.Op}
    (hop : ∀ input now, op ≠ .create input now) :
    Issued runIds requests (AsyncRun.step runs op) := by
  intro run' hrun'
  rcases AsyncRun.exists_derives_step op hrun' with ⟨run, hrun, hd⟩ | ⟨input, now, hcreate, -⟩
  · rw [hd.id, hd.requestMessageId]
    exact h run hrun
  · exact absurd hcreate (hop input now)

/-- A property of the runs, and of the ids that were handed out. -/
abbrev RunsProperty : Type := List String → List String → AsyncRun.Store → Prop

def Router.Holds (I : RunsProperty) (s : Router) : Prop :=
  I s.runIds s.requests s.asyncRuns

abbrev Router.RunsOk (s : Router) : Prop := s.Holds Issued

/-- A run that was opened, and all of whose targets are rejected. -/
abbrev Router.Rejected (s : Router) (runId : String) : Prop :=
  s.Holds fun runIds _ runs => runId ∈ runIds ∧ runs.AllRejected runId

/-- The run opened for a message is the one its targets were resolved for. -/
def Router.OpensFor (s : Router) (message : RoutedMessage) (profileIds : List String) : Prop :=
  ∀ run, s.asyncRuns.getAsyncRunForRequestMessage message.id = some run →
    s.asyncRuns.RejectsFrom run.id profileIds

variable {s : Router} {J : RunsProperty}

/-- Rejections of the targets of one run make up its rejection. -/
theorem rejected_of_opens (h : s.RunsOk) {run : AsyncRun.Run}
    (hrun : s.asyncRuns.getAsyncRunForRequestMessage message.id = some run)
    {profileIds : List String} (hopens : s.OpensFor message profileIds) (env : RoutingEnv)
    (reason : String) : { s with
      asyncRuns := profileIds.foldl (rejectTarget env run.id reason) s.asyncRuns }.Rejected
        run.id :=
  ⟨(h run (mem_of_find?_eq_some hrun)).1, AsyncRun.allRejected_of_rejectsFrom
    (rejectsFrom_rejectTargets env run.id reason profileIds (hopens run hrun))⟩

section
variable (hstep : ∀ runIds requests runs op, (∀ input now, op ≠ .create input now) →
  J runIds requests runs → J runIds requests (AsyncRun.step runs op))
include hstep

end

end Requests

/-! ## Runs of the router -/

section Posts

variable {channelId : String} {s : Router} {t : ConversationScope}

/-- **Opening a run** for a new message: the message finds it, with its targets open. -/
theorem runsOk_openRun (h : s.RunsOk) (env : RoutingEnv)
    (targetIds : List String) (hmessage : message.id ∉ s.requests) (hrun : seed.runId ∉ s.runIds) :
    (s.openRun env message targetIds seed).RunsOk ∧
      (s.openRun env message targetIds seed).OpensFor message targetIds ∧
      ∃ run, (s.openRun env message targetIds seed).asyncRuns.getAsyncRunForRequestMessage
        message.id = some run ∧ run.id = seed.runId := by
  set input : AsyncRun.CreateInput :=
    { runId := seed.runId, requestMessageId := message.id, requesterId := seed.requesterId,
      targetIds := targetIds, deliveryContract := seed.deliveryContract } with hinput
  have hmem : ∀ run ∈ (s.asyncRuns.createAsyncRun input env.now).rows,
      run ∈ s.asyncRuns.rows ∨ run = input.newRun env.now := fun run => AsyncRun.mem_createAsyncRun
  -- no other run was opened for this message, or under this id
  have hid : ∀ run ∈ (s.asyncRuns.createAsyncRun input env.now).rows,
      run.id = seed.runId → run = input.newRun env.now := fun run hr hid =>
    (hmem run hr).resolve_left fun hold => hrun (hid ▸ (h run hold).1)
  have hrequest : ∀ run ∈ (s.asyncRuns.createAsyncRun input env.now).rows,
      run.requestMessageId = message.id → run = input.newRun env.now := fun run hr heq =>
    (hmem run hr).resolve_left fun hold => hmessage (heq ▸ (h run hold).2)
  have hfound : ∀ run, (s.asyncRuns.createAsyncRun input env.now).getAsyncRunForRequestMessage
      message.id = some run → run = input.newRun env.now := fun run hfound =>
    hrequest run (mem_of_find?_eq_some hfound) (by simpa using find?_some hfound)
  refine ⟨fun run hr => ?_, fun run hget => ?_, ?_⟩
  · rcases hmem run hr with hold | rfl
    · have hids := h run hold
      exact ⟨mem_cons_of_mem _ hids.1, mem_cons_of_mem _ hids.2⟩
    · exact ⟨mem_cons_self, mem_cons_self⟩
  · intro run' hr' hid' t ht
    obtain rfl := hfound run hget
    rw [hid run' hr' hid'] at ht
    obtain ⟨targetId, htarget, rfl⟩ := mem_map.mp ht
    refine .inr ⟨?_, rfl⟩
    rwa [mem_insertionSort, mem_dedup] at htarget
  · have hfree : ∀ run ∈ s.asyncRuns.rows, run.id ≠ seed.runId :=
      fun run hr heq => hrun (heq ▸ (h run hr).1)
    obtain ⟨run, hget⟩ := @AsyncRun.exists_run_of_create s.asyncRuns input env.now hfree
    exact ⟨run, hget, by rw [hfound run hget]; rfl⟩

/-- The state of the router in a run: the runs are in order, and so are the scopes until it is
    closed; what was routed before stays within bounds. -/
structure Router.Ok (channelId : String) (s : Router) : Prop where
  runs : s.RunsOk
  scopes : s.closed = false → ∀ t, s.InScope channelId t
  turns : ∀ t, (turnsSinceHuman t s.events).dedup.length ≤ maxConsecutiveAgentTurns
  held : ∀ t, HeldAfterPause t (sinceHuman t s.events)

/-- The targets of a post are routed, or those of the run it opened are rejected. -/
def Router.Settles (s : Router) (message : RoutedMessage) (targetIds : List String)
    (runId : String) : Prop :=
  (∀ profileId ∈ targetIds, ∃ lane edge, .routed message profileId lane edge ∈ s.events) ∨
    s.Rejected runId

theorem settles_of_routed {targetIds : List String} {runId : String} {events : List RouterEvent}
    (h : ∀ profileId ∈ targetIds, ∃ lane edge, .routed message profileId lane edge ∈ events) :
    (s.noteAll events).Settles message targetIds runId := by
  refine .inl fun profileId hprofile => ?_
  obtain ⟨lane, edge, hmem⟩ := h profileId hprofile
  exact ⟨lane, edge, mem_append_left _ (mem_reverse.mpr hmem)⟩

theorem settles_of_routedEvents (env : RoutingEnv) (targetIds callbackSuppressed : List String)
    (lane : RouteLane) (parentCallbackId : Option String) {runId : String} :
    (s.noteAll (routedEvents env message targetIds callbackSuppressed lane
      parentCallbackId)).Settles message targetIds runId :=
  settles_of_routed fun _ hprofile => ⟨lane, _, mem_map.mpr ⟨_, hprofile, rfl⟩⟩

section Opened

variable {run : AsyncRun.Run} {targetIds : List String} (h : s.RunsOk)
  (hrun : s.asyncRuns.getAsyncRunForRequestMessage message.id = some run)
  (hopens : s.OpensFor message targetIds)
include h hrun hopens

theorem rejected_refuse (env : RoutingEnv) : (s.refuse env message targetIds).Rejected run.id := by
  rw [Router.refuse, hrun]
  exact rejected_of_opens h hrun hopens env _

/-- **The brake** routes an agent row, or rejects what its run was opened for. -/
theorem settles_routeWithBrake (channelId : String) (env : RoutingEnv) :
    (routeWithBrake channelId env s message targetIds [] none).Settles message targetIds run.id := by
  unfold routeWithBrake
  split
  · rename_i hnone
    rw [List.isEmpty_iff.mp hnone]
    exact .inl fun _ hprofile => absurd hprofile not_mem_nil
  · split
    · exact settles_of_routedEvents ..
    · dsimp only
      split
      · exact .inr (rejected_refuse (s := s.setTurns _ _) h hrun hopens env)
      · split
        · exact settles_of_routedEvents ..
        · split
          · exact .inr (rejected_refuse (s := (s.setTurns _ _).note _) h hrun hopens env)
          · exact settles_of_routedEvents ..

end Opened

theorem settles_routeFollowup {run : AsyncRun.Run} (h : s.RunsOk)
    (hrun : s.asyncRuns.getAsyncRunForRequestMessage message.id = some run)
    {targetProfileId : String} (hopens : s.OpensFor message [targetProfileId]) (channelId : String)
    (env : RoutingEnv) (targetExists : Bool) :
    (routeFollowup channelId env s message targetProfileId targetExists).Settles message
      [targetProfileId] run.id := by
  unfold routeFollowup
  dsimp only
  split
  · exact .inr (rejected_refuse h hrun hopens env)
  · split
    · rw [hrun]
      exact .inr (rejected_of_opens h hrun hopens env "target-profile-missing")
    · refine .inl fun profileId hprofile => ⟨.followup, none, ?_⟩
      rw [mem_singleton.mp hprofile]
      exact mem_cons_self

/-- The row, the targets and the run of an operation that an open router takes in as a post. -/
def Router.Takes (s : Router) (message : RoutedMessage) (targetIds : List String)
    (runId : String) : RouterOp → Prop
  | .post _ posted profileIds seed =>
    message = posted ∧ targetIds = profileIds ∧ runId = seed.runId ∧ s.closed = false ∧
      posted.id ∉ s.requests ∧ seed.runId ∉ s.runIds ∧ posted.kind = .message ∧
      posted.senderKind ≠ .system
  | .postFollowup _ posted targetProfileId _ seed =>
    message = { posted with
      kind := .system, senderKind := .system, followupTarget := some targetProfileId } ∧
      targetIds = [targetProfileId] ∧ runId = seed.runId ∧ s.closed = false ∧
      posted.id ∉ s.requests ∧ seed.runId ∉ s.runIds
  | _ => False

/-- **Posts** are routed, or the targets of their run are rejected. -/
theorem settles_step (h : s.RunsOk) {targetIds : List String} {runId : String} {op : RouterOp}
    (htakes : s.Takes message targetIds runId op) :
    (s.step channelId op).Settles message targetIds runId := by
  cases op with
  | post env posted profileIds seed =>
    obtain ⟨rfl, rfl, rfl, hopen, hmessage, hrun, hkind, hsender⟩ := htakes
    obtain ⟨hruns, hopens, run, hget, hid⟩ := runsOk_openRun h env targetIds hmessage hrun
    unfold Router.step
    dsimp only
    rw [if_neg (by simp [hmessage, hrun, hkind]), handleMessagePosted,
      if_neg (by simp [Router.openRun, hopen]), hkind]
    cases hsenderKind : message.senderKind with
    | system => exact absurd hsenderKind hsender
    | human =>
      exact settles_of_routed fun _ hprofile => ⟨.human, none, mem_map.mpr ⟨_, hprofile, rfl⟩⟩
    | agent => exact hid ▸ settles_routeWithBrake hruns hget hopens channelId env
  | postFollowup env posted targetProfileId targetExists seed =>
    obtain ⟨rfl, rfl, rfl, hopen, hmessage, hrun⟩ := htakes
    obtain ⟨hruns, hopens, run, hget, hid⟩ :=
      runsOk_openRun h env [targetProfileId] hmessage hrun
    unfold Router.step
    dsimp only
    rw [if_neg (by simp [hmessage, hrun]), handleMessagePosted,
      if_neg (by simp [Router.openRun, hopen])]
    exact hid ▸ @settles_routeFollowup { posted with
      kind := .system, senderKind := .system, followupTarget := some targetProfileId } _ _
      hruns hget _ hopens channelId env targetExists
  | assistantFinalized | systemRow | runs | close => exact htakes.elim

variable (env : RoutingEnv)

end Posts

end RelayIde.Binder
