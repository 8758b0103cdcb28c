import RelayIde.Channel.Subscription
import RelayIde.Library.Text

/-!
# Subscription Filters

The semantic filter of a channel subscription (`shared/channel-chat-protocol.ts`), and the two
places where the router selects with it: a snapshot on reconnect and the live events.

- `projections_agree_iff` — runs: it does unless `run` and `run-terminal` are asked for together
-/

namespace RelayIde.Channel

open RelayIde.Library List

/-! ## The filter -/

structure ChannelMention where
  providerId : Option String := none
  profileId : Option String := none

/-- The fields of a row that only the filter reads. -/
structure RowReferences where
  threadId : Option ChannelMessageId := none
  mentions : List ChannelMention := []
  /-- `asyncRun.runId`. -/
  runId : Option String := none

/-- The fields of a run that only the filter reads. -/
structure RunReferences where
  threadId : Option ChannelMessageId := none
  requestMessageId : ChannelMessageId

/-- A normalized filter: `terminalOnly` and `principalOnly` are set or absent. -/
structure ChannelSubscriptionPredicates where
  threadId : Option String := none
  messageId : Option ChannelMessageId := none
  senderId : Option String := none
  mentionTargetId : Option String := none
  status : Option ChannelMessageStatus := none
  runId : Option String := none
  terminalOnly : Bool := false
  principalOnly : Bool := false
  deriving DecidableEq

def passes {α : Type} (predicate : Option α) (test : α → Bool) : Bool :=
  predicate.all test

def isChannelMessageTombstone (message : ChannelMessage) : Bool :=
  decide (message.kind = .message) && decide (message.sender.kind = .human) &&
    message.deletedAt.isSome && decide (message.text = "")

def channelMessageIsPrincipalProse (message : ChannelMessage) : Bool :=
  decide (message.kind = .message) && !isChannelMessageTombstone message &&
    !Text.isBlank message.text && message.agentDetail.isNone && message.parts.isEmpty

/-- `TERMINAL_MESSAGE_STATUSES`. -/
def ChannelMessageStatus.isTerminal (status : ChannelMessageStatus) : Bool :=
  decide (status ≠ .streaming)

def channelMessageMatchesSubscriptionFilter (references : ChannelMessage → RowReferences)
    (filter : ChannelSubscriptionPredicates) (message : ChannelMessage) : Bool :=
  let row := references message
  passes filter.threadId (fun threadId =>
      if threadId = "root" then row.threadId.isNone
      else
        (row.threadId.isNone && decide (message.id = threadId)) ||
          decide (row.threadId = some threadId)) &&
    passes filter.messageId (fun messageId => decide (message.id = messageId)) &&
    passes filter.senderId (fun senderId => decide (message.sender.id = senderId)) &&
    passes filter.mentionTargetId (fun target =>
      row.mentions.any fun mention =>
        decide (mention.profileId = some target) || decide (mention.providerId = some target)) &&
    passes filter.status (fun status => decide (message.status = status)) &&
    passes filter.runId (fun runId => decide (row.runId = some runId)) &&
    (!filter.terminalOnly || message.status.isTerminal) &&
    (!filter.principalOnly || channelMessageIsPrincipalProse message)

/-- Run projections never expose themselves through message-only filters. -/
def channelAsyncRunMatchesSubscriptionFilter (references : ChannelAsyncRun → RunReferences)
    (filter : ChannelSubscriptionPredicates) (run : ChannelAsyncRun) : Bool :=
  filter.messageId.isNone && filter.senderId.isNone && filter.mentionTargetId.isNone &&
    filter.status.isNone && !filter.principalOnly &&
    passes filter.threadId (fun threadId =>
      let row := references run
      if threadId = "root" then row.threadId.isNone
      else
        match row.threadId with
        | none => decide (row.requestMessageId = threadId)
        | some runThreadId => decide (runThreadId = threadId)) &&
    passes filter.runId (fun runId => decide (run.id = runId)) &&
    (!filter.terminalOnly || run.state.isTerminalRun)

/-- `filterIsEmpty`. -/
def ChannelSubscriptionPredicates.isEmpty (filter : ChannelSubscriptionPredicates) : Bool :=
  decide (filter = {})

/-- The filter as the router applies it. -/
def ChannelSubscriptionPredicates.toFilter (rows : ChannelMessage → RowReferences)
    (runs : ChannelAsyncRun → RunReferences) (filter : ChannelSubscriptionPredicates) :
    ChannelSubscriptionFilter where
  isEmpty := filter.isEmpty
  matchesMessage := channelMessageMatchesSubscriptionFilter rows filter
  matchesRun := channelAsyncRunMatchesSubscriptionFilter runs filter

/-! ## Live and replayed -/

inductive CarriesRow (message : ChannelMessage) : ChannelEvent → Prop where
  | created : CarriesRow message (.messageCreated message)
  | updated : CarriesRow message (.messageUpdated message)
  | completed : CarriesRow message (.messageCompleted message)
  | edited : CarriesRow message (.messageEdited message)
  | deleted : CarriesRow message (.messageDeleted message)

section Agreement

variable {filter : ChannelSubscriptionFilter} {only : List ChannelSubscriptionOnly}

theorem forwards_iff_showsMessage {message : ChannelMessage} {event : ChannelEvent}
    (h : CarriesRow message event) :
    projectEvent filter (some only) event = some event ↔
      showsMessage filter (some only) message = true := by
  have hnonempty : (filter.isEmpty && (some only).isNone) = false := by
    rw [Option.isNone_some, Bool.and_false]
  cases h <;>
    · rw [projectEvent, hnonempty]
      simp only [Bool.false_eq_true, if_false]
      split <;> simp [*]

/-- The kinds of a snapshot and those of the live events are the same two. -/
theorem keepsKind_eq (kind : ChannelMessageKind) :
    keepsKind only kind =
      ((decide (.system ∈ only) && decide (kind = .system)) ||
        (decide (.message ∈ only) && !decide (kind = .system))) := by
  unfold keepsKind
  cases decide (ChannelSubscriptionOnly.system ∈ only) <;>
    cases decide (ChannelSubscriptionOnly.message ∈ only) <;> cases kind <;> rfl

theorem showsMessage_eq (message : ChannelMessage) :
    showsMessage filter (some only) message =
      (filter.matchesMessage message && keepsKind only message.kind) := by
  rw [keepsKind_eq, showsMessage]

theorem projectSnapshot_eq (snapshot : ChannelSnapshotEvent) :
    projectSnapshot filter (some only) snapshot =
      { snapshot with
        messages := (snapshot.messages.filter filter.matchesMessage).filter (keepsKind only ·.kind)
        stateReplacements := (snapshot.stateReplacements.map
          (·.filter fun replacement => filter.matchesMessage replacement.message)).map
          (·.filter fun replacement => keepsKind only replacement.message.kind)
        runs := (snapshot.runs.map (·.filter filter.matchesRun)).map (·.filter (keepsRun only))
        inFlight := [] } := by
  rw [projectSnapshot, Option.isNone_some, Bool.and_false]
  rfl

/-- **Rows**: a snapshot keeps a row, as a message or as a replacement, exactly when the live
    event carrying it is forwarded. -/
theorem row_kept_iff_forwarded {message : ChannelMessage} {event : ChannelEvent}
    (hcarries : CarriesRow message event) (snapshot : ChannelSnapshotEvent) :
    (message ∈ snapshot.messages →
      (message ∈ (projectSnapshot filter (some only) snapshot).messages ↔
        projectEvent filter (some only) event = some event)) ∧
      ∀ replacements replacement, snapshot.stateReplacements = some replacements →
        replacement ∈ replacements → replacement.message = message →
          ((∃ kept, (projectSnapshot filter (some only) snapshot).stateReplacements = some kept ∧
            replacement ∈ kept) ↔
            projectEvent filter (some only) event = some event) := by
  rw [projectSnapshot_eq, forwards_iff_showsMessage hcarries, showsMessage_eq, Bool.and_eq_true]
  constructor
  · intro hmem
    simp only [mem_filter, hmem, true_and]
  · rintro replacements replacement hreplacements hmem rfl
    simp only [hreplacements, Option.map_some, Option.some.injEq, exists_eq_left',
      mem_filter, hmem, true_and]

variable (run : ChannelAsyncRun)

theorem forwards_iff_showsRun :
    projectEvent filter (some only) (.runLifecycle run) = some (.runLifecycle run) ↔
      showsRun filter (some only) run = true := by
  have hnonempty : (filter.isEmpty && (some only).isNone) = false := by
    rw [Option.isNone_some, Bool.and_false]
  rw [projectEvent, hnonempty]
  simp only [Bool.false_eq_true, if_false]
  split <;> simp [*]

/-- The runs of a snapshot and those of the live events differ when both classes are asked
    for. -/
theorem keepsRun_iff_showsRun :
    ((filter.matchesRun run && keepsRun only run) = true ↔
        showsRun filter (some only) run = true) ↔
      ¬ (.run ∈ only ∧ .runTerminal ∈ only ∧ filter.matchesRun run = true ∧
        run.state.isTerminalRun = false) := by
  unfold keepsRun showsRun
  by_cases hrun : ChannelSubscriptionOnly.run ∈ only <;>
    by_cases hterminal : ChannelSubscriptionOnly.runTerminal ∈ only <;>
    cases filter.matchesRun run <;> cases run.state.isTerminalRun <;> simp [hrun]

theorem run_kept_iff {run : ChannelAsyncRun} {snapshot : ChannelSnapshotEvent}
    {runs : List ChannelAsyncRun} (hruns : snapshot.runs = some runs) (hmem : run ∈ runs) :
    (∃ kept, (projectSnapshot filter (some only) snapshot).runs = some kept ∧ run ∈ kept) ↔
      (filter.matchesRun run && keepsRun only run) = true := by
  rw [projectSnapshot_eq, Bool.and_eq_true]
  simp only [hruns, Option.map_some, Option.some.injEq, exists_eq_left', mem_filter, hmem, true_and]

end Agreement

structure ProjectionsAgree (filter : ChannelSubscriptionFilter)
    (only : List ChannelSubscriptionOnly) (message : ChannelMessage) (run : ChannelAsyncRun) :
    Prop where
  messages : ∀ (snapshot : ChannelSnapshotEvent) (event : ChannelEvent),
    CarriesRow message event → message ∈ snapshot.messages →
      (message ∈ (projectSnapshot filter (some only) snapshot).messages ↔
        projectEvent filter (some only) event = some event)
  replacements : ∀ (snapshot : ChannelSnapshotEvent) (event : ChannelEvent),
    CarriesRow message event → ∀ replacements replacement,
      snapshot.stateReplacements = some replacements → replacement ∈ replacements →
        replacement.message = message →
          ((∃ kept, (projectSnapshot filter (some only) snapshot).stateReplacements = some kept ∧
            replacement ∈ kept) ↔
            projectEvent filter (some only) event = some event)
  runs : ∀ (snapshot : ChannelSnapshotEvent) runs, snapshot.runs = some runs → run ∈ runs →
    ((∃ kept, (projectSnapshot filter (some only) snapshot).runs = some kept ∧ run ∈ kept) ↔
      projectEvent filter (some only) (.runLifecycle run) = some (.runLifecycle run))

/-- **Live against replayed.**  For every filter and every set of classes, a reconnecting
    consumer is shown the rows and runs it would have seen live, exactly when not both run
    classes are asked for of a matching run that is not terminal. -/
theorem projections_agree_iff (rows : ChannelMessage → RowReferences)
    (runs : ChannelAsyncRun → RunReferences) (filter : ChannelSubscriptionPredicates)
    (only : List ChannelSubscriptionOnly) (message : ChannelMessage) (run : ChannelAsyncRun) :
    ProjectionsAgree (filter.toFilter rows runs) only message run ↔
      ¬ (.run ∈ only ∧ .runTerminal ∈ only ∧
        channelAsyncRunMatchesSubscriptionFilter runs filter run = true ∧
        run.state.isTerminalRun = false) := by
  constructor
  · intro h
    -- a snapshot of just this run shows what the two selections say of it
    have hrun := h.runs ⟨.full, [], none, some [run], 0, [], false⟩ [run] rfl
      (mem_singleton_self run)
    rw [run_kept_iff rfl (mem_singleton_self run), forwards_iff_showsRun,
      keepsRun_iff_showsRun] at hrun
    exact hrun
  · intro h
    refine ⟨fun snapshot event hcarries => (row_kept_iff_forwarded hcarries snapshot).1,
      fun snapshot event hcarries => (row_kept_iff_forwarded hcarries snapshot).2,
      fun snapshot runs' hruns hmem => ?_⟩
    rw [run_kept_iff hruns hmem, forwards_iff_showsRun, keepsRun_iff_showsRun]
    exact h

/-- A working run of a subscription to `run,run-terminal` is shown live and missing from the
    snapshot. -/
theorem projections_disagree_on_working_run :
    ¬ ∀ (rows : ChannelMessage → RowReferences) (runs : ChannelAsyncRun → RunReferences)
      (filter : ChannelSubscriptionPredicates) (only : List ChannelSubscriptionOnly)
      (message : ChannelMessage) (run : ChannelAsyncRun), only ≠ [] →
        ProjectionsAgree (filter.toFilter rows runs) only message run := by
  intro h
  have hagree := h (fun _ => {}) (fun _ => { requestMessageId := "chm:1" }) {}
    [.run, .runTerminal]
    { id := "chm:1", seq := 1, kind := .message, status := .terminal .complete
      sender := ⟨.human, "operator"⟩, text := "hi", mentions := [], parts := []
      sourceRuntimeId := none, agentDetail := none, agentDetailTerminalAuthority := none
      truncationReason := none, truncated := false, editedAt := none, deletedAt := none
      updatedAt := 0, completedAt := none }
    ⟨"chrun:1", .working⟩ (cons_ne_nil _ _)
  have hrun := (hagree.runs ⟨.full, [], none, some [⟨"chrun:1", .working⟩], 1, [], false⟩ _ rfl
    (mem_singleton_self _)).mpr rfl
  obtain ⟨kept, hkept, hmem⟩ := hrun
  obtain rfl := Option.some.inj hkept
  simp [keepsRun, ChannelAsyncRunState.isTerminalRun] at hmem

end RelayIde.Channel
