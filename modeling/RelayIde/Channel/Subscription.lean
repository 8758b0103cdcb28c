import RelayIde.Channel.Session

/-!
# Channel Subscription

The NDJSON endpoint of one channel (`server/channel-subscription-router.ts`): a sink of the hub
that writes what it is handed as frames, each with the cursor a client may resume from.

- `resume_cursor_of_run` — no row is skipped, and the cursor falls at most once: when a cursor is
  answered by a full snapshot

What the response answers is an input: each handler comes with the `ResponseProbe`s it reads.
-/

open List

namespace RelayIde.Channel

open RelayIde.Library

/-! ## Frames -/

inductive SubscriptionCloseReason where
  | notFound
  | backpressure
  | transportClosed
  | authorizationRevoked
  deriving DecidableEq

inductive SubscriptionFrameBody where
  | opened
  | event (payload : ChannelEvent)
  | heartbeat
  | closed (reason : SubscriptionCloseReason) (retryable : Bool) (latestSeq : Option ℕ)

structure ChannelSubscriptionFrame where
  sequence : ℕ
  /-- Exclusive cursor safe to supply as `afterSeq` on reconnect. -/
  durableSeq : ℕ
  body : SubscriptionFrameBody

/-! ## The resume cursor -/

/-- The numbers that follow `contiguous` one by one. -/
def advanceThrough : (contiguous : ℕ) → List ℕ → ℕ
  | contiguous, [] => contiguous
  | contiguous, seq :: rest =>
    if seq = contiguous + 1 then advanceThrough seq rest else contiguous

/-- The distinct numbers above `contiguous`, ascending. -/
def freshSeqs (contiguous : ℕ) (messages : List ChannelMessage) : List ℕ :=
  ((messages.map (·.seq)).dedup.filter (contiguous < ·)).mergeSort (· ≤ ·)

/-- The cursor after a snapshot: a truncated one may advertise a head beyond omitted rows. -/
def snapshotCursor (current : ℕ) (event : ChannelSnapshotEvent) : ℕ :=
  if !event.truncated then event.latestSeq
  else
    match event.mode with
    | .catchup => advanceThrough current (freshSeqs current event.messages)
    | .full => advanceThrough 0 (freshSeqs 0 event.messages)

def advanceDurableCursor (current : ℕ) : ChannelEvent → ℕ
  -- a live gap must never become the next resume cursor
  | .messageCreated message => if message.seq = current + 1 then message.seq else current
  | .snapshot event => snapshotCursor current event
  | _ => current

/-! ## Projection -/

structure ChannelSubscriptionFilter where
  isEmpty : Bool
  matchesMessage : ChannelMessage → Bool
  matchesRun : ChannelAsyncRun → Bool

inductive ChannelSubscriptionOnly where
  | runTerminal
  | system
  | run
  | message
  deriving DecidableEq

/-- The states that `run-terminal` shows. -/
def ChannelAsyncRunState.isTerminalRun : ChannelAsyncRunState → Bool
  | .completed | .completedUnmet | .failed | .cancelled | .rejected => true
  | _ => false

/-- The rows of a snapshot that the classes of `only` keep. -/
def keepsKind (only : List ChannelSubscriptionOnly) (kind : ChannelMessageKind) : Bool :=
  let wantSystem := decide (.system ∈ only)
  let wantMessage := decide (.message ∈ only)
  if wantSystem && wantMessage then true
  else if wantSystem then decide (kind = .system)
  else if wantMessage then decide (kind = .message)
  else false

/-- The runs of a snapshot that the classes of `only` keep. -/
def keepsRun (only : List ChannelSubscriptionOnly) (run : ChannelAsyncRun) : Bool :=
  (decide (.run ∈ only) || decide (.runTerminal ∈ only)) &&
    (!decide (.runTerminal ∈ only) || run.state.isTerminalRun)

def projectSnapshot (filter : ChannelSubscriptionFilter)
    (only : Option (List ChannelSubscriptionOnly)) (event : ChannelSnapshotEvent) :
    ChannelSnapshotEvent :=
  if filter.isEmpty && only.isNone then event
  else
    let projected :=
      { event with
        messages := event.messages.filter filter.matchesMessage
        stateReplacements := event.stateReplacements.map
          (·.filter fun replacement => filter.matchesMessage replacement.message)
        runs := event.runs.map (·.filter filter.matchesRun)
        -- filters suppress deltas, so no cursor of a stream is carried either
        inFlight := [] }
    match only with
    | none => projected
    | some only =>
      { projected with
        messages := projected.messages.filter (keepsKind only ·.kind)
        stateReplacements := projected.stateReplacements.map
          (·.filter fun replacement => keepsKind only replacement.message.kind)
        runs := projected.runs.map (·.filter (keepsRun only)) }

/-- A row event passes as a whole or not at all. -/
def showsMessage (filter : ChannelSubscriptionFilter)
    (only : Option (List ChannelSubscriptionOnly)) (message : ChannelMessage) : Bool :=
  filter.matchesMessage message &&
    match only with
    | none => true
    | some only =>
      (decide (.system ∈ only) && decide (message.kind = .system)) ||
        (decide (.message ∈ only) && !decide (message.kind = .system))

def showsRun (filter : ChannelSubscriptionFilter) (only : Option (List ChannelSubscriptionOnly))
    (run : ChannelAsyncRun) : Bool :=
  filter.matchesRun run &&
    match only with
    | none => true
    | some only =>
      decide (.run ∈ only) || (decide (.runTerminal ∈ only) && run.state.isTerminalRun)

def projectEvent (filter : ChannelSubscriptionFilter)
    (only : Option (List ChannelSubscriptionOnly)) (event : ChannelEvent) : Option ChannelEvent :=
  match event with
  | .snapshot snapshot => some (.snapshot (projectSnapshot filter only snapshot))
  | _ =>
    if filter.isEmpty && only.isNone then some event
    else
      match event with
      | .messageCreated message | .messageUpdated message | .messageCompleted message
      | .messageEdited message | .messageDeleted message =>
        if showsMessage filter only message then some event else none
      -- a delta has no durable row to evaluate
      | .messageDelta .. => none
      | .runLifecycle run => if showsRun filter only run then some event else none
      | _ => some event

/-! ## The sink -/

structure SubscriptionConfig where
  writableSoftLimitBytes : ℕ
  writableHardLimitBytes : ℕ
  writableLowWatermarkBytes : ℕ
  filter : ChannelSubscriptionFilter
  only : Option (List ChannelSubscriptionOnly)
  /-- `projectRelayChannelPublicValue` for an operator client, else the payload itself. -/
  outgoing : ChannelEvent → ChannelEvent

/-- What the response answers while one frame is written. -/
structure ResponseProbe where
  /-- `res.destroyed || res.writableEnded`. -/
  gone : Bool := false
  /-- `res.writableLength` before the write and after it. -/
  lengthBefore : ℕ := 0
  lengthAfter : ℕ := 0
  /-- What `writeResponse` returns. -/
  flushed : Bool := true
  /-- `res.destroyed || res.writableEnded` when the connection is finished after the write. -/
  goneAfter : Bool := false

inductive SubscriptionNote where
  | handed (event : ChannelEvent)
  | written (frame : ChannelSubscriptionFrame)

structure SubscriptionSink where
  sequence : ℕ
  ended : Bool
  waitingForDrain : Bool
  lagging : Bool
  droppedDeltas : Bool
  resyncRetryScheduled : Bool
  durableSeq : ℕ
  /-- Newest first. -/
  notes : List SubscriptionNote

namespace SubscriptionSink

def note (s : SubscriptionSink) (n : SubscriptionNote) : SubscriptionSink :=
  { s with notes := n :: s.notes }

/-- The connection ends, with a closing frame unless the transport is gone. -/
def finish (s : SubscriptionSink) (reason : SubscriptionCloseReason) (latestSeq : Option ℕ)
    (retryable : Bool) (gone : Bool) : SubscriptionSink :=
  if s.ended then s
  else if gone then { s with ended := true }
  else
    { s with ended := true, sequence := s.sequence + 1 }.note
      (.written ⟨s.sequence, s.durableSeq, .closed reason retryable latestSeq⟩)

/-- One frame, and whether the transport took it. -/
def writeFrame (cfg : SubscriptionConfig) (probe : ResponseProbe) (s : SubscriptionSink)
    (body : SubscriptionFrameBody) : SubscriptionSink × Bool :=
  -- the frame takes its number whether it is written or not
  let frame : ChannelSubscriptionFrame := ⟨s.sequence, s.durableSeq, body⟩
  let s := { s with sequence := s.sequence + 1 }
  if s.ended || probe.gone then (s, false)
  else if probe.lengthBefore > cfg.writableHardLimitBytes then
    (s.finish .backpressure none true probe.gone, false)
  else
    let s := s.note (.written frame)
    if probe.lengthAfter > cfg.writableHardLimitBytes then
      (s.finish .backpressure none true probe.goneAfter, false)
    else ({ s with waitingForDrain := s.waitingForDrain || !probe.flushed }, true)

def emitResyncRequired (cfg : SubscriptionConfig) (probe : ResponseProbe) (s : SubscriptionSink) :
    SubscriptionSink × Bool :=
  s.writeFrame cfg probe (.event (.resyncRequired s.durableSeq))

def tryEmitResync (cfg : SubscriptionConfig) (probe : ResponseProbe) (s : SubscriptionSink) :
    SubscriptionSink :=
  if !s.droppedDeltas || s.ended || probe.gone then s
  else
    let sent := s.emitResyncRequired cfg probe
    if sent.2 then { sent.1 with droppedDeltas := false, resyncRetryScheduled := false }
    else if sent.1.ended || probe.goneAfter then sent.1
    else if !sent.1.resyncRetryScheduled then { sent.1 with resyncRetryScheduled := true }
    else sent.1.finish .backpressure none true probe.goneAfter

/-- What the router's `send` reads. -/
structure SendProbe where
  /-- `isStillAuthorized`. -/
  authorized : Bool := true
  /-- `res.writableLength` when the call begins. -/
  writableLength : ℕ := 0
  /-- Around the resync notice, should one be due. -/
  resync : ResponseProbe := {}
  /-- Around the event's own frame. -/
  event : ResponseProbe := {}

/-- Whether the delta is shed instead of written. -/
def shedsDelta (cfg : SubscriptionConfig) (probe : SendProbe) (s : SubscriptionSink) :
    ChannelEvent → Bool
  | .messageDelta .. => s.lagging || decide (probe.writableLength > cfg.writableSoftLimitBytes)
  | _ => false

/-- `sink.send` behind its limits: the cursor moves before the projection. -/
def sendEvent (cfg : SubscriptionConfig) (probe : SendProbe) (s : SubscriptionSink)
    (event : ChannelEvent) : SubscriptionSink × Bool :=
  if s.shedsDelta cfg probe event then ({ s with lagging := true, droppedDeltas := true }, true)
  else
    let s := { s with durableSeq := advanceDurableCursor s.durableSeq event }
    match projectEvent cfg.filter cfg.only event with
    | none => (s, true)
    | some projected => s.writeFrame cfg probe.event (.event (cfg.outgoing projected))

def send (cfg : SubscriptionConfig) (probe : SendProbe) (s : SubscriptionSink)
    (event : ChannelEvent) : SubscriptionSink × Bool :=
  if !probe.authorized then (s.finish .authorizationRevoked none false probe.event.gone, false)
  else if probe.writableLength > cfg.writableHardLimitBytes then
    (s.finish .backpressure none true probe.event.gone, false)
  else if s.lagging && decide (probe.writableLength < cfg.writableLowWatermarkBytes) then
    ({ s with lagging := false }.tryEmitResync cfg probe.resync).sendEvent cfg probe event
  else s.sendEvent cfg probe event

/-- `onDrain`, and the retry that a refused notice has put behind it. -/
def onDrain (cfg : SubscriptionConfig) (writableLength : ℕ) (probe retry : ResponseProbe)
    (s : SubscriptionSink) : SubscriptionSink :=
  let drained := { s with waitingForDrain := false }
  let s :=
    if drained.lagging && decide (writableLength < cfg.writableLowWatermarkBytes) then
      { drained with lagging := false }.tryEmitResync cfg probe
    else drained
  if s.resyncRetryScheduled then
    let s := { s with resyncRetryScheduled := false }
    if s.droppedDeltas && !s.ended && !retry.gone then
      let sent := s.emitResyncRequired cfg retry
      if sent.2 then { sent.1 with droppedDeltas := false }
      else sent.1.finish .backpressure none true retry.goneAfter
    else s
  else s

def onDrainDeadline (gone : Bool) (s : SubscriptionSink) : SubscriptionSink :=
  if s.waitingForDrain then s.finish .backpressure none true gone else s

def heartbeat (cfg : SubscriptionConfig) (probe : SendProbe) (s : SubscriptionSink) :
    SubscriptionSink :=
  if s.ended then s
  else if !probe.authorized then s.finish .authorizationRevoked none false probe.event.gone
  else if s.waitingForDrain || s.lagging ||
      decide (probe.writableLength > cfg.writableSoftLimitBytes) then s
  else (s.writeFrame cfg probe.event .heartbeat).1

/-- The sink of a new request, with its open frame. -/
def openFor (cfg : SubscriptionConfig) (afterSeq : Option ℕ) (probe : ResponseProbe) :
    SubscriptionSink :=
  let fresh : SubscriptionSink :=
    { sequence := 0
      ended := false
      waitingForDrain := false
      lagging := false
      droppedDeltas := false
      resyncRetryScheduled := false
      durableSeq := afterSeq.getD 0
      notes := [] }
  let sent := fresh.writeFrame cfg probe .opened
  if sent.2 then sent.1 else sent.1.finish .transportClosed none true probe.goneAfter

end SubscriptionSink

/-! ## The connection -/

variable {κ : Type}

def SessionOp.client? : SessionOp κ → Option κ
  | .subscribe c .. | .disconnect c | .receive c | .requestOlder c | .serveOlder c | .landOlder c
  | .failOlder c => some c
  | _ => none

/-- A channel whose hub feeds this connection as its client `none`. -/
structure Subscription (κ : Type) where
  session : Session (Option κ)
  sink : SubscriptionSink

/-- What the hub has delivered to the connection and the sink has not been handed yet. -/
def Subscription.transit (s : Subscription κ) : List ChannelEvent :=
  s.session.hub.sinks none

inductive SubscriptionOp (κ : Type) where
  /-- Any writer, timer or other client of the channel. -/
  | server (op : SessionOp (Option κ))
  /-- The next delivered event is handed to the sink; `gone` is what the closing finds should
      the sink refuse. -/
  | take (probe : SubscriptionSink.SendProbe) (gone : Bool)
  /-- The hub closes the sink. -/
  | close (reason : SubscriptionCloseReason) (latestSeq : Option ℕ) (gone : Bool)
  | drain (writableLength : ℕ) (probe retry : ResponseProbe)
  | drainDeadline (gone : Bool)
  | heartbeat (probe : SubscriptionSink.SendProbe)
  | transportClosed

section Steps

variable [DecidableEq κ]

/-- A request: the open frame, then the hub's subscription. -/
def Subscription.connect (scfg : SessionConfig) (cfg : SubscriptionConfig)
    (session : Session (Option κ)) (afterSeq : Option ℕ) (opening : ResponseProbe)
    (flushProbes : ChannelMessageId → Option κ → Probe) (probe : Probe) (queueProbes : ℕ → Probe) :
    Subscription κ :=
  { session :=
      { session with
        hub := session.hub.subscribe scfg.toHubConfig none afterSeq flushProbes probe queueProbes }
    sink := .openFor cfg afterSeq opening }

def SubscriptionSink.take (cfg : SubscriptionConfig) (probe : SendProbe) (gone : Bool)
    (s : SubscriptionSink) (event : ChannelEvent) : SubscriptionSink :=
  if s.ended then s
  else
    let sent := (s.note (.handed event)).send cfg probe event
    -- the hub drops a subscriber that refuses
    if sent.2 then sent.1 else sent.1.finish .transportClosed none true gone

def Subscription.step (scfg : SessionConfig) (cfg : SubscriptionConfig) (s : Subscription κ) :
    SubscriptionOp κ → Subscription κ
  | .server op =>
    if op.client? = some none then s else { s with session := s.session.step scfg op }
  | .take probe gone =>
    match s.transit with
    | [] => s
    | event :: rest =>
      { session :=
          { s.session with
            hub := { s.session.hub with sinks := Function.update s.session.hub.sinks none rest } }
        sink := s.sink.take cfg probe gone event }
  | .close reason latestSeq gone =>
    let retryable := decide (reason = .backpressure) || decide (reason = .transportClosed)
    { s with sink := s.sink.finish reason latestSeq retryable gone }
  | .drain writableLength probe retry =>
    { s with sink := s.sink.onDrain cfg writableLength probe retry }
  | .drainDeadline gone => { s with sink := s.sink.onDrainDeadline gone }
  | .heartbeat probe => { s with sink := s.sink.heartbeat cfg probe }
  | .transportClosed => { s with sink := { s.sink with ended := true } }

end Steps

/-! ## Cursor arithmetic -/

theorem le_advanceThrough (contiguous : ℕ) (seqs : List ℕ) :
    contiguous ≤ advanceThrough contiguous seqs := by
  induction seqs generalizing contiguous with
  | nil => exact le_rfl
  | cons seq rest ih =>
    unfold advanceThrough
    split
    · have hrest := ih seq
      omega
    · exact le_rfl

theorem mem_of_le_advanceThrough {contiguous q : ℕ} {seqs : List ℕ} (hlo : contiguous < q)
    (hhi : q ≤ advanceThrough contiguous seqs) : q ∈ seqs := by
  induction seqs generalizing contiguous with
  | nil => exact absurd hhi (Nat.not_le.mpr hlo)
  | cons seq rest ih =>
    unfold advanceThrough at hhi
    split at hhi
    · rename_i hseq
      by_cases hq : q = seq
      · exact hq ▸ mem_cons_self
      · exact mem_cons_of_mem _ (ih (by omega) hhi)
    · exact absurd hhi (Nat.not_le.mpr hlo)

def ChannelEvent.carried : ChannelEvent → List ChannelMessage
  | .snapshot event => event.messages
  | .messageCreated message | .messageUpdated message | .messageCompleted message
  | .messageEdited message | .messageDeleted message => [message]
  | _ => []

/-- The connect-time snapshot of a connection that resumes from `afterSeq`. -/
structure ResumesFrom (log : MessageLog) (afterSeq : Option ℕ) (event : ChannelSnapshotEvent) :
    Prop where
  versions : ∀ m ∈ event.messages, log.VersionOf m
  catchup : event.mode = .catchup → afterSeq.getD 0 ≤ event.latestSeq ∧
    Spans ChannelMessage.seq (afterSeq.getD 0) event.latestSeq event.messages
  full : event.mode = .full → event.truncated = false →
    Spans ChannelMessage.seq 0 event.latestSeq event.messages

/-- What the hub delivers: that snapshot, or something live about the log. -/
def Deliverable (log : MessageLog) (afterSeq : Option ℕ) : ChannelEvent → Prop
  | .snapshot event => ResumesFrom log afterSeq event
  | .messageCreated message => log.VersionOf message
  | _ => True

variable {log : MessageLog} {e event : ChannelEvent} {durableSeq : ℕ} {op : SessionOp (Option κ)}
  {sink : SubscriptionSink} {rest : List ChannelEvent}

theorem Deliverable.advance {log' : MessageLog} {afterSeq : Option ℕ}
    (h : Deliverable log afterSeq e) (hadv : log.Advances log') : Deliverable log' afterSeq e := by
  cases e with
  | snapshot event => exact ⟨fun m hm => hadv.version m (h.versions m hm), h.catchup, h.full⟩
  | messageCreated message => exact hadv.version _ h
  | _ => trivial

/-- The numbers a truncated snapshot is read through are those of its rows. -/
theorem mem_freshSeqs {rows : List ChannelMessage} {contiguous q : ℕ}
    (h : q ∈ freshSeqs contiguous rows) : ∃ m ∈ rows, m.seq = q := by
  rw [freshSeqs, mem_mergeSort, mem_filter, mem_dedup, mem_map] at h
  exact h.1

variable {afterSeq : Option ℕ}

/-- **Progress**: the cursor passes only rows that the event brings. -/
theorem carried_of_advanceDurableCursor {current q : ℕ}
    (he : Deliverable log afterSeq e) (hafter : afterSeq.getD 0 < q)
    (hlo : current < q) (hhi : q ≤ advanceDurableCursor current e) :
    ∃ m ∈ e.carried, m.seq = q ∧ log.VersionOf m := by
  cases e with
  | messageCreated message =>
    rw [advanceDurableCursor] at hhi
    split at hhi
    · exact ⟨message, mem_singleton_self _, by omega, he⟩
    · omega
  | snapshot event =>
    have hrow : ∃ m ∈ event.messages, m.seq = q := by
      change q ≤ snapshotCursor current event at hhi
      unfold snapshotCursor at hhi
      split at hhi
      · rename_i huntruncated
        rw [Bool.not_eq_true'] at huntruncated
        cases hmode : event.mode with
        | catchup => exact (he.catchup hmode).2.exists_mem hafter hhi
        | full => exact (he.full hmode huntruncated).exists_mem (by omega) hhi
      · cases hmode : event.mode with
        | catchup =>
          rw [hmode] at hhi
          exact mem_freshSeqs (mem_of_le_advanceThrough hlo hhi)
        | full =>
          rw [hmode] at hhi
          exact mem_freshSeqs (mem_of_le_advanceThrough (by omega) hhi)
    obtain ⟨m, hm, hseq⟩ := hrow
    exact ⟨m, hm, hseq, he.versions m hm⟩
  | _ => exact absurd hhi (Nat.not_le.mpr hlo)

theorem le_advanceDurableCursor {current : ℕ}
    (he : Deliverable log afterSeq e)
    (hsnapshot : ∀ event, e = .snapshot event →
      current = 0 ∨ (event.mode = .catchup ∧ current = afterSeq.getD 0)) :
    current ≤ advanceDurableCursor current e := by
  cases e with
  | messageCreated message =>
    rw [advanceDurableCursor]
    split <;> omega
  | snapshot event =>
    rcases hsnapshot event rfl with rfl | ⟨hmode, rfl⟩
    · exact Nat.zero_le _
    · show afterSeq.getD 0 ≤ snapshotCursor _ event
      unfold snapshotCursor
      split
      · exact (he.catchup hmode).1
      · rw [hmode]
        exact le_advanceThrough _ _
  | _ => exact le_rfl

/-! ## The connect-time snapshot -/

variable {cfg : HubConfig}

theorem seq_le_of_fullSnapshotRows {log : MessageLog}
    (h : (fullSnapshotRows cfg log).truncated = false) {first : ChannelMessage}
    {rest : List ChannelMessage} (hrows : (fullSnapshotRows cfg log).rows = first :: rest) :
    first.seq ≤ 1 := by
  unfold fullSnapshotRows at h hrows
  dsimp only at h hrows
  rw [Bool.or_eq_false_iff, hrows] at h
  simpa using h.2

theorem spans_fullSnapshotRows
    (h : (fullSnapshotRows cfg log).truncated = false) :
    Spans ChannelMessage.seq 0 log.latestSeq (fullSnapshotRows cfg log).rows := by
  obtain ⟨hranked, base, hbase, hspans⟩ := fullSnapshotRows_spec cfg log
  have hempty := latestSeq_eq_zero_of_fullSnapshotRows cfg log
  have hfirst := @seq_le_of_fullSnapshotRows cfg log h
  generalize (fullSnapshotRows cfg log).rows = rows at *
  have hzero : base = 0 := by
    cases rows with
    | nil =>
      have hlatest := hempty rfl
      omega
    | cons first rest =>
      have hone := hfirst rfl
      have hpos := hspans.lt mem_cons_self
      omega
  exact hzero ▸ hspans

section
variable {κ : Type} (cfg : HubConfig) (hub : Hub κ)

theorem resumesFrom_buildSnapshot (afterSeq : Option ℕ) :
    ResumesFrom hub.log afterSeq (hub.buildSnapshot cfg afterSeq) := by
  obtain ⟨base, hbase, -, hspans, hcatchup⟩ := spans_snapshotRows cfg hub.log afterSeq
  have hmode : (hub.buildSnapshot cfg afterSeq).mode = (snapshotRows cfg hub.log afterSeq).mode :=
    rfl
  have hlatest : (hub.buildSnapshot cfg afterSeq).latestSeq =
      (snapshotRows cfg hub.log afterSeq).snapshotLatestSeq := rfl
  have htruncated : (hub.buildSnapshot cfg afterSeq).truncated =
      (snapshotRows cfg hub.log afterSeq).truncated := rfl
  refine ⟨fun m hm => ?_, fun h => ?_, fun h h' => ?_⟩
  · exact ((eventOf_buildSnapshot cfg hub afterSeq).1 m hm).1
  · rw [messages_buildSnapshot]
    have hafter : afterSeq.getD 0 = base := by
      rw [hcatchup (hmode ▸ h), Option.getD_some]
    rw [hafter]
    exact ⟨hbase, spans_materialize hspans _⟩
  · rw [messages_buildSnapshot, hlatest]
    rw [htruncated] at h'
    rw [hmode] at h
    apply spans_materialize
    rcases snapshotRows_cases cfg hub.log afterSeq with hfull | ⟨since, -, -, -, hrows⟩
    · rw [hfull] at h' ⊢
      exact spans_fullSnapshotRows h'
    · rw [hrows] at h
      cases h

def NearHead (latestSeq : ℕ) (afterSeq : Option ℕ) : Prop :=
  afterSeq.getD 0 ≤ latestSeq ∧ latestSeq - afterSeq.getD 0 ≤ catchupMaxRows

theorem mode_buildSnapshot {afterSeq : Option ℕ}
    (hsome : 0 < afterSeq.getD 0) :
    (hub.buildSnapshot cfg afterSeq).mode = .catchup ↔ NearHead hub.log.latestSeq afterSeq := by
  have hmode : (hub.buildSnapshot cfg afterSeq).mode = (snapshotRows cfg hub.log afterSeq).mode :=
    rfl
  rw [hmode]
  cases afterSeq with
  | none => cases hsome
  | some since =>
    simp only [snapshotRows, needsFullSnapshot, NearHead, Option.getD_some, Bool.or_eq_true,
      decide_eq_true_eq]
    split
    · rename_i hfar
      refine iff_of_false (fun h => ?_) (by omega)
      cases h
    · rename_i hnear
      exact iff_of_true rfl (by omega)

end

/-! ## What a handler writes -/

/-- A handler leaves the cursor alone and writes frames that carry it. -/
def Writes (s s' : SubscriptionSink) : Prop :=
  s'.durableSeq = s.durableSeq ∧
    ∃ frames : List ChannelSubscriptionFrame,
      s'.notes = frames.map .written ++ s.notes ∧ ∀ f ∈ frames, f.durableSeq = s.durableSeq

theorem Writes.refl (s : SubscriptionSink) : Writes s s :=
  ⟨rfl, [], rfl, by simp⟩

theorem Writes.of_eq {s s' : SubscriptionSink} (hseq : s'.durableSeq = s.durableSeq)
    (hnotes : s'.notes = s.notes) : Writes s s' :=
  ⟨hseq, [], hnotes, by simp⟩

theorem Writes.trans {s s' s'' : SubscriptionSink} (h : Writes s s') (h' : Writes s' s'') :
    Writes s s'' := by
  obtain ⟨hseq, frames, hnotes, hframes⟩ := h
  obtain ⟨hseq', frames', hnotes', hframes'⟩ := h'
  refine ⟨hseq'.trans hseq, frames' ++ frames, ?_, fun f hf => ?_⟩
  · rw [hnotes', hnotes, map_append, append_assoc]
  · rcases mem_append.mp hf with hf | hf
    · rw [hframes' f hf, hseq]
    · exact hframes f hf

namespace SubscriptionSink

theorem writes_finish (s : SubscriptionSink) (reason : SubscriptionCloseReason)
    (latestSeq : Option ℕ) (retryable gone : Bool) :
    Writes s (s.finish reason latestSeq retryable gone) := by
  unfold finish
  split
  · exact .refl s
  · split
    · exact .of_eq rfl rfl
    · exact ⟨rfl, [_], rfl, by simp⟩

section
variable (cfg : SubscriptionConfig) (probe : ResponseProbe) (s : SubscriptionSink)

theorem writes_writeFrame (body : SubscriptionFrameBody) :
    Writes s (s.writeFrame cfg probe body).1 := by
  have hframe : Writes s ({ s with sequence := s.sequence + 1 }.note
      (.written ⟨s.sequence, s.durableSeq, body⟩)) := ⟨rfl, [_], rfl, by simp⟩
  unfold writeFrame
  dsimp only
  split
  · exact .of_eq rfl rfl
  · split
    · exact (Writes.of_eq rfl rfl).trans (writes_finish _ _ _ _ _)
    · split
      · exact hframe.trans (writes_finish _ _ _ _ _)
      · exact hframe.trans (.of_eq rfl rfl)

theorem writes_tryEmitResync : Writes s (s.tryEmitResync cfg probe) := by
  have hsent : Writes s (s.emitResyncRequired cfg probe).1 := writes_writeFrame cfg probe s _
  unfold tryEmitResync
  dsimp only
  split
  · exact .refl s
  · split
    · exact hsent.trans (.of_eq rfl rfl)
    · split
      · exact hsent
      · split
        · exact hsent.trans (.of_eq rfl rfl)
        · exact hsent.trans (writes_finish _ _ _ _ _)

end

theorem writes_onDrain (cfg : SubscriptionConfig) (writableLength : ℕ)
    (probe retry : ResponseProbe) (s : SubscriptionSink) :
    Writes s (s.onDrain cfg writableLength probe retry) := by
  have hretry (s : SubscriptionSink) : Writes s
      (if s.resyncRetryScheduled then
        if s.droppedDeltas && !s.ended && !retry.gone then
          if (({ s with resyncRetryScheduled := false }).emitResyncRequired cfg retry).2 then
            { (({ s with resyncRetryScheduled := false }).emitResyncRequired cfg retry).1 with
              droppedDeltas := false }
          else (({ s with resyncRetryScheduled := false }).emitResyncRequired cfg retry).1.finish
            .backpressure none true retry.goneAfter
        else { s with resyncRetryScheduled := false }
      else s) := by
    have hsent := writes_writeFrame cfg retry { s with resyncRetryScheduled := false }
      (.event (.resyncRequired s.durableSeq))
    have hflag : Writes s { s with resyncRetryScheduled := false } := .of_eq rfl rfl
    split
    · split
      · split
        · exact (hflag.trans hsent).trans (.of_eq rfl rfl)
        · exact (hflag.trans hsent).trans (writes_finish _ _ _ _ _)
      · exact hflag
    · exact .refl s
  refine Writes.trans ?_ (hretry _)
  split
  · exact (Writes.of_eq rfl rfl).trans (writes_tryEmitResync cfg probe _)
  · exact .of_eq rfl rfl

theorem writes_onDrainDeadline (gone : Bool) (s : SubscriptionSink) :
    Writes s (s.onDrainDeadline gone) := by
  unfold onDrainDeadline
  split
  · exact writes_finish _ _ _ _ _
  · exact .refl s

section
variable (cfg : SubscriptionConfig) (probe : SendProbe) (s : SubscriptionSink)

theorem writes_heartbeat : Writes s (s.heartbeat cfg probe) := by
  unfold heartbeat
  split
  · exact .refl s
  · split
    · exact writes_finish _ _ _ _ _
    · split
      · exact .refl s
      · exact writes_writeFrame _ _ _ _

/-- The cursor moves at one point of a call, if at all. -/
def Advances (event : ChannelEvent) (s s' : SubscriptionSink) : Prop :=
  Writes s s' ∨ ∃ mid, Writes s mid ∧
    Writes { mid with durableSeq := advanceDurableCursor mid.durableSeq event } s'

variable (event : ChannelEvent)

theorem advances_sendEvent : Advances event s (s.sendEvent cfg probe event).1 := by
  unfold sendEvent
  split
  · exact .inl (.of_eq rfl rfl)
  · refine .inr ⟨s, .refl s, ?_⟩
    split
    · exact .refl _
    · exact writes_writeFrame _ _ _ _

theorem advances_send : Advances event s (s.send cfg probe event).1 := by
  unfold send
  split
  · exact .inl (writes_finish _ _ _ _ _)
  · split
    · exact .inl (writes_finish _ _ _ _ _)
    · split
      · have hnotice : Writes s ({ s with lagging := false }.tryEmitResync cfg probe.resync) :=
          (Writes.of_eq rfl rfl).trans (writes_tryEmitResync _ _ _)
        rcases advances_sendEvent cfg probe _ event with h | ⟨mid, hmid, h⟩
        · exact .inl (hnotice.trans h)
        · exact .inr ⟨mid, hnotice.trans hmid, h⟩
      · exact advances_sendEvent cfg probe s event

end

theorem Advances.trans {s s' s'' : SubscriptionSink}
    (h : Advances event s s') (h' : Writes s' s'') : Advances event s s'' := by
  rcases h with h | ⟨mid, hmid, h⟩
  · exact .inl (h.trans h')
  · exact .inr ⟨mid, hmid, h.trans h'⟩

theorem advances_take (cfg : SubscriptionConfig) (probe : SendProbe) (gone : Bool)
    (s : SubscriptionSink) (event : ChannelEvent) (hlive : s.ended = false) :
    Advances event (s.note (.handed event)) (s.take cfg probe gone event) := by
  unfold take
  rw [hlive]
  have hsend := advances_send cfg probe (s.note (.handed event)) event
  dsimp only
  split
  · contradiction
  · split
    · exact hsend
    · exact hsend.trans (writes_finish _ _ _ _ _)

end SubscriptionSink

/-! ## Resuming skips nothing -/

/-- The rows between `afterSeq` and a cursor were brought by events handed over before. -/
def Covers (log : MessageLog) (afterSeq : Option ℕ) (notes : List SubscriptionNote)
    (durableSeq : ℕ) : Prop :=
  ∀ q, afterSeq.getD 0 < q → q ≤ durableSeq →
    ∃ e, .handed e ∈ notes ∧ ∃ m ∈ e.carried, m.seq = q ∧ log.VersionOf m

/-- Every frame written so far covers its cursor. -/
def FramesCover (log : MessageLog) (afterSeq : Option ℕ) (notes : List SubscriptionNote) : Prop :=
  ∀ newer f older, notes = newer ++ .written f :: older → Covers log afterSeq older f.durableSeq

theorem Covers.mono {log' : MessageLog} {afterSeq : Option ℕ} {notes notes' : List SubscriptionNote}
    (h : Covers log afterSeq notes durableSeq) (hadv : log.Advances log')
    (hnotes : notes ⊆ notes') : Covers log' afterSeq notes' durableSeq := by
  intro q hlo hhi
  obtain ⟨e, he, m, hm, hseq, hversion⟩ := h q hlo hhi
  exact ⟨e, hnotes he, m, hm, hseq, hadv.version m hversion⟩

theorem FramesCover.cons {log : MessageLog} {afterSeq : Option ℕ} {notes : List SubscriptionNote}
    {n : SubscriptionNote} (h : FramesCover log afterSeq notes)
    (hn : ∀ f, n = .written f → Covers log afterSeq notes f.durableSeq) :
    FramesCover log afterSeq (n :: notes) := by
  intro newer f older hsplit
  cases newer with
  | nil =>
    obtain ⟨rfl, rfl⟩ := List.cons.inj hsplit
    exact hn f rfl
  | cons n' newer => exact h newer f older (List.cons.inj hsplit).2

/-- The sink of a connection that resumes from `afterSeq`. -/
structure SinkCovers (log : MessageLog) (afterSeq : Option ℕ) (s : SubscriptionSink) : Prop where
  cursor : Covers log afterSeq s.notes s.durableSeq
  frames : FramesCover log afterSeq s.notes

section
variable {afterSeq : Option ℕ} {s s' : SubscriptionSink}

theorem SinkCovers.writes
    (h : SinkCovers log afterSeq s) (hw : Writes s s') : SinkCovers log afterSeq s' := by
  obtain ⟨hseq, frames, hnotes, hframes⟩ := hw
  refine ⟨?_, ?_⟩
  · rw [hseq, hnotes]
    exact h.cursor.mono (.refl log) (subset_append_right _ _)
  · rw [hnotes]
    clear hnotes
    -- each new frame carries the covered cursor
    induction frames with
    | nil => exact h.frames
    | cons f frames ih =>
      refine FramesCover.cons (ih fun g hg => hframes g (mem_cons_of_mem _ hg)) ?_
      rintro _ ⟨rfl⟩
      rw [hframes f mem_cons_self]
      exact h.cursor.mono (.refl log) (subset_append_right _ _)

theorem SinkCovers.take
    (h : SinkCovers log afterSeq s) (he : Deliverable log afterSeq event)
    (ha : SubscriptionSink.Advances event (s.note (.handed event)) s') :
    SinkCovers log afterSeq s' := by
  have hnoted : SinkCovers log afterSeq (s.note (.handed event)) := by
    refine ⟨h.cursor.mono (.refl log) (subset_cons_self _ _), h.frames.cons ?_⟩
    rintro f ⟨⟩
  rcases ha with hw | ⟨mid, hw, hw'⟩
  · exact hnoted.writes hw
  · have hmid := hnoted.writes hw
    have hhanded : SubscriptionNote.handed event ∈ mid.notes := by
      obtain ⟨-, frames, hnotes, -⟩ := hw
      rw [hnotes]
      exact mem_append_right _ mem_cons_self
    have hmoved : SinkCovers log afterSeq
        { mid with durableSeq := advanceDurableCursor mid.durableSeq event } := by
      refine ⟨fun q hlo hhi => ?_, hmid.frames⟩
      by_cases hold : q ≤ mid.durableSeq
      · exact hmid.cursor q hlo hold
      · obtain ⟨m, hm, hseq, hversion⟩ := carried_of_advanceDurableCursor he hlo
          (Nat.lt_of_not_le hold) hhi
        exact ⟨event, hhanded, m, hm, hseq, hversion⟩
    exact hmoved.writes hw'

end

/-! ## The cursor rises -/

def SubscriptionNote.frame? : SubscriptionNote → Option ChannelSubscriptionFrame
  | .handed _ => none
  | .written frame => some frame

/-- The frames written so far, newest first. -/
def SubscriptionSink.newestFrames (s : SubscriptionSink) : List ChannelSubscriptionFrame :=
  s.notes.filterMap SubscriptionNote.frame?

/-- The frames written so far, in order. -/
def SubscriptionSink.frames (s : SubscriptionSink) : List ChannelSubscriptionFrame :=
  s.newestFrames.reverse

def NeverFalls (frames : List ChannelSubscriptionFrame) : Prop :=
  frames.Pairwise fun earlier later => earlier.durableSeq ≤ later.durableSeq

theorem Writes.newestFrames {s s' : SubscriptionSink} (h : Writes s s') :
    ∃ frames, s'.newestFrames = frames ++ s.newestFrames ∧
      ∀ f ∈ frames, f.durableSeq = s.durableSeq := by
  obtain ⟨-, frames, hnotes, hframes⟩ := h
  refine ⟨frames, ?_, hframes⟩
  unfold SubscriptionSink.newestFrames
  rw [hnotes, filterMap_append, filterMap_map]
  congr 1
  exact filterMap_some

/-- The sink was handed a snapshot. -/
def Snapped (notes : List SubscriptionNote) : Prop :=
  ∃ event, .handed (.snapshot event) ∈ notes

/-- Since a snapshot was handed over, frames were written and nothing else was handed over. -/
def FramesBehindSnapshot (notes : List SubscriptionNote) : Prop :=
  ∀ newer event older, notes = newer ++ .handed (.snapshot event) :: older →
    ∀ n ∈ newer, ∃ f, n = .written f

theorem Writes.snapped {s s' : SubscriptionSink} (h : Writes s s') (hs : Snapped s'.notes) :
    Snapped s.notes := by
  obtain ⟨-, frames, hnotes, -⟩ := h
  obtain ⟨event, hevent⟩ := hs
  rw [hnotes] at hevent
  rcases mem_append.mp hevent with hevent | hevent
  · obtain ⟨f, -, hf⟩ := mem_map.mp hevent
    cases hf
  · exact ⟨event, hevent⟩

theorem FramesBehindSnapshot.handed {notes : List SubscriptionNote} (h : ¬ Snapped notes)
    (event : ChannelEvent) : FramesBehindSnapshot (.handed event :: notes) := by
  intro newer e older hsplit n hn
  cases newer with
  | nil => cases hn
  | cons first newer =>
    obtain ⟨-, hnotes⟩ := cons.inj hsplit
    exact absurd ⟨e, hnotes ▸ mem_append_right _ mem_cons_self⟩ h

theorem FramesBehindSnapshot.written {notes : List SubscriptionNote}
    (h : FramesBehindSnapshot notes) (frames : List ChannelSubscriptionFrame) :
    FramesBehindSnapshot (frames.map .written ++ notes) := by
  induction frames with
  | nil => exact h
  | cons f frames ih =>
    intro newer e older hsplit n hn
    cases newer with
    | nil => cases hn
    | cons first newer =>
      obtain ⟨hfirst, hnotes⟩ := cons.inj hsplit
      rcases mem_cons.mp hn with rfl | hn
      · exact ⟨f, hfirst.symm⟩
      · exact ih newer e older hnotes n hn

/-- Nothing but the given cursor has been told yet. -/
structure Waiting (afterSeq : Option ℕ) (s : SubscriptionSink) : Prop where
  cursor : s.durableSeq = afterSeq.getD 0
  frames : ∀ f ∈ s.newestFrames, f.durableSeq = afterSeq.getD 0
  behind : FramesBehindSnapshot s.notes

/-- Frames that carry the given cursor, up to a snapshot that is handed over, then frames whose
    cursors never fall; if `near`, they do not fall below the given one either. -/
structure Started (afterSeq : Option ℕ) (near : Prop) (s : SubscriptionSink) : Prop where
  split : ∃ started waiting, s.notes = started ++ waiting ∧
    (∀ f ∈ waiting.filterMap SubscriptionNote.frame?, f.durableSeq = afterSeq.getD 0) ∧
    ((started.filterMap SubscriptionNote.frame?).Pairwise
      fun later earlier => earlier.durableSeq ≤ later.durableSeq) ∧
    (∀ f ∈ started.filterMap SubscriptionNote.frame?,
      f.durableSeq ≤ s.durableSeq ∧ (near → afterSeq.getD 0 ≤ f.durableSeq)) ∧
    ¬ Snapped started ∧ FramesBehindSnapshot waiting
  near : near → afterSeq.getD 0 ≤ s.durableSeq

section Rising

variable {afterSeq : Option ℕ} {near : Prop} {s s' : SubscriptionSink}

theorem Waiting.writes (h : Waiting afterSeq s) (hw : Writes s s') : Waiting afterSeq s' := by
  obtain ⟨frames, hframes, hnew⟩ := hw.newestFrames
  refine ⟨hw.1.trans h.cursor, fun f hf => ?_, ?_⟩
  · rw [hframes] at hf
    rcases mem_append.mp hf with hf | hf
    · rw [hnew f hf, h.cursor]
    · exact h.frames f hf
  · obtain ⟨-, frames, hnotes, -⟩ := hw
    rw [hnotes]
    exact h.behind.written frames

/-- The cursor may move anywhere from there, if it need not stay above the given one. -/
theorem Waiting.move (h : Waiting afterSeq s) (hnear : near → afterSeq.getD 0 ≤ durableSeq) :
    Started afterSeq near { s with durableSeq := durableSeq } :=
  ⟨⟨[], s.notes, rfl, h.frames, List.Pairwise.nil, by simp, by simp [Snapped], h.behind⟩, hnear⟩

theorem Waiting.started (h : Waiting afterSeq s) : Started afterSeq near s :=
  Waiting.move h fun _ => h.cursor.ge

theorem filterMap_frame?_written (frames : List ChannelSubscriptionFrame) :
    (frames.map SubscriptionNote.written).filterMap SubscriptionNote.frame? = frames := by
  rw [filterMap_map]
  exact filterMap_some

theorem Started.writes (h : Started afterSeq near s) (hw : Writes s s') :
    Started afterSeq near s' := by
  obtain ⟨started, waiting, hsplit, hwaiting, hrises, hbelow, hsnapped, hbehind⟩ := h.split
  obtain ⟨hseq, frames, hnotes, hnew⟩ := hw
  refine ⟨⟨frames.map .written ++ started, waiting, ?_, hwaiting, ?_, fun f hf => ?_, ?_, hbehind⟩,
    fun hn => ?_⟩
  · rw [hnotes, hsplit, append_assoc]
  · rw [filterMap_append, filterMap_frame?_written]
    refine pairwise_append.mpr ⟨?_, hrises, fun later hl earlier he => ?_⟩
    · refine pairwise_of_forall_mem_list fun later hl earlier he => ?_
      rw [hnew later hl, hnew earlier he]
    · rw [hnew later hl]
      exact (hbelow earlier he).1
  · rw [filterMap_append, filterMap_frame?_written] at hf
    rw [hseq]
    rcases mem_append.mp hf with hf | hf
    · rw [hnew f hf]
      exact ⟨le_rfl, h.near⟩
    · exact hbelow f hf
  · rintro ⟨event, hevent⟩
    rcases mem_append.mp hevent with hevent | hevent
    · obtain ⟨f, -, hf⟩ := mem_map.mp hevent
      cases hf
    · exact hsnapped ⟨event, hevent⟩
  · rw [hseq]
    exact h.near hn

theorem Started.move (h : Started afterSeq near s) (hle : s.durableSeq ≤ durableSeq) :
    Started afterSeq near { s with durableSeq := durableSeq } := by
  obtain ⟨started, waiting, hsplit, hwaiting, hrises, hbelow, hplace⟩ := h.split
  refine ⟨⟨started, waiting, hsplit, hwaiting, hrises, fun f hf => ?_, hplace⟩, fun hn => ?_⟩
  · exact ⟨(hbelow f hf).1.trans hle, (hbelow f hf).2⟩
  · exact (h.near hn).trans hle

theorem Waiting.noted (h : Waiting afterSeq s) (hsnapped : ¬ Snapped s.notes)
    (event : ChannelEvent) : Waiting afterSeq (s.note (.handed event)) :=
  ⟨h.cursor, h.frames, .handed hsnapped event⟩

theorem Started.noted (h : Started afterSeq near s) (hevent : event.isSnapshot = false) :
    Started afterSeq near (s.note (.handed event)) := by
  obtain ⟨started, waiting, hsplit, hwaiting, hrises, hbelow, hsnapped, hbehind⟩ := h.split
  refine ⟨⟨.handed event :: started, waiting, ?_, hwaiting, hrises, hbelow, ?_, hbehind⟩, h.near⟩
  · show _ :: s.notes = _
    rw [hsplit]
    rfl
  · rintro ⟨e, he⟩
    rcases mem_cons.mp he with he | he
    · rw [← SubscriptionNote.handed.inj he] at hevent
      cases hevent
    · exact hsnapped ⟨e, he⟩

theorem Waiting.advances (h : Waiting afterSeq s) (ha : SubscriptionSink.Advances event s s')
    (hnear : near → afterSeq.getD 0 ≤ advanceDurableCursor (afterSeq.getD 0) event) :
    Started afterSeq near s' := by
  rcases ha with hw | ⟨mid, hw, hw'⟩
  · exact (h.writes hw).started
  · have hmid := h.writes hw
    refine (hmid.move fun hn => ?_).writes hw'
    rw [hmid.cursor]
    exact hnear hn

theorem Started.advances (h : Started afterSeq near s) (ha : SubscriptionSink.Advances event s s')
    (hle : s.durableSeq ≤ advanceDurableCursor s.durableSeq event) : Started afterSeq near s' := by
  rcases ha with hw | ⟨mid, hw, hw'⟩
  · exact h.writes hw
  · refine ((h.writes hw).move ?_).writes hw'
    rw [hw.1]
    exact hle

theorem Waiting.notice (h : Waiting afterSeq s)
    (hnotice : event.isNotice = true) (ha : SubscriptionSink.Advances event s s') :
    Waiting afterSeq s' := by
  have hstill (current : ℕ) : advanceDurableCursor current event = current := by
    cases event <;> first | rfl | cases hnotice
  rcases ha with hw | ⟨mid, hw, hw'⟩
  · exact h.writes hw
  · have hmid := h.writes hw
    rw [hstill] at hw'
    exact hmid.writes hw'

/-- The frames some notes tell of, in order. -/
def framesOf (notes : List SubscriptionNote) : List ChannelSubscriptionFrame :=
  (notes.filterMap SubscriptionNote.frame?).reverse

theorem Started.frames (h : Started afterSeq near s) :
    ∃ waiting started, s.notes = started ++ waiting ∧
      (∀ f ∈ framesOf waiting, f.durableSeq = afterSeq.getD 0) ∧ NeverFalls (framesOf started) ∧
      ¬ Snapped started ∧ FramesBehindSnapshot waiting ∧ (near → NeverFalls s.frames) := by
  obtain ⟨started, waiting, hsplit, hwaiting, hrises, hbelow, hsnapped, hbehind⟩ := h.split
  have hframes : s.frames = framesOf waiting ++ framesOf started := by
    rw [SubscriptionSink.frames, SubscriptionSink.newestFrames, hsplit, filterMap_append,
      reverse_append]
    rfl
  have hstarted : NeverFalls (framesOf started) := pairwise_reverse.mpr hrises
  have hgiven : ∀ f ∈ framesOf waiting, f.durableSeq = afterSeq.getD 0 :=
    fun f hf => hwaiting f (mem_reverse.mp hf)
  refine ⟨waiting, started, hsplit, hgiven, hstarted, hsnapped, hbehind, fun hn => ?_⟩
  rw [hframes]
  refine pairwise_append.mpr ⟨?_, hstarted, fun earlier he later hl => ?_⟩
  · refine pairwise_of_forall_mem_list fun earlier he later hl => ?_
    rw [hgiven earlier he, hgiven later hl]
  · rw [hgiven earlier he]
    exact (hbelow later (mem_reverse.mp hl)).2 hn

end Rising

/-! ## Connections -/

section Connections

variable [DecidableEq κ]

theorem deliverable_emits {scfg : SessionConfig} {s : Session κ} {op : SessionOp κ}
    {f : ChannelEvent} (afterSeq : Option ℕ) (h : Emits s op f) :
    Deliverable (s.step scfg op).hub.log afterSeq f := by
  have hrow {log : MessageLog} {m : ChannelMessage} (hlog : (s.step scfg op).hub.log = log)
      (hm : m ∈ log.rows) : (s.step scfg op).hub.log.VersionOf m :=
    MessageLog.versionOf_of_mem _ (hlog ▸ hm)
  cases h with
  | post h => exact hrow (by simp only [Session.step, h]; rfl) (MessageLog.mem_insertMessage h)
  | beginStream h =>
    exact hrow (by simp only [Session.step, h]; rfl) (MessageLog.mem_insertMessage h)
  | flush h =>
    obtain ⟨_, _, _, _, rfl⟩ := h
    trivial
  | subscribe h =>
    obtain ⟨_, _, _, _, _, rfl⟩ := h
    trivial
  | _ => trivial

/-- Operations of others only add live events to what is on its way to the connection. -/
theorem transit_server (scfg : SessionConfig) (s : Session (Option κ))
    (hop : op.client? ≠ some none) :
    ∃ new, (s.step scfg op).hub.sinks none = s.hub.sinks none ++ new ∧ ∀ f ∈ new, Emits s op f := by
  have hchange := sinks_step scfg s op none
  generalize (s.step scfg op).hub.sinks none = frames' at hchange
  generalize s.hub.sinks none = frames at hchange
  cases hchange with
  | live new hframes hnew => exact ⟨new, hframes, hnew⟩
  | read | connect | drop => exact absurd rfl hop

/-- What holds of a connection that resumes from `afterSeq`: what is on its way is about the log,
    and so is what the sink has told. -/
structure Subscription.Sound (afterSeq : Option ℕ) (s : Subscription κ) : Prop where
  transit : ∀ f ∈ s.transit, Deliverable s.session.hub.log afterSeq f
  sink : SinkCovers s.session.hub.log afterSeq s.sink

/-- As long as the snapshot is on its way, in front of all but notices, the cursor stands still. -/
structure Subscription.Rising (afterSeq : Option ℕ) (near : Prop) (s : Subscription κ) :
    Prop where
  first : SnapshotFirst s.transit
  started : Started afterSeq near s.sink
  waiting : ∀ event, .snapshot event ∈ s.transit →
    Waiting afterSeq s.sink ∧ ¬ Snapped s.sink.notes ∧
      (near → afterSeq.getD 0 = 0 ∨ event.mode = .catchup)

variable {scfg : SessionConfig} {cfg : SubscriptionConfig} {afterSeq : Option ℕ} {near : Prop}

omit [DecidableEq κ] in
theorem Subscription.Sound.writes {s : Subscription κ} (h : s.Sound afterSeq)
    (hw : Writes s.sink sink) :
    Subscription.Sound afterSeq { s with sink := sink } :=
  ⟨h.transit, h.sink.writes hw⟩

omit [DecidableEq κ] in
theorem Subscription.Rising.writes {s : Subscription κ} (h : s.Rising afterSeq near)
    (hw : Writes s.sink sink) :
    Subscription.Rising afterSeq near { s with sink := sink } :=
  ⟨h.first, h.started.writes hw,
    fun event he => ⟨(h.waiting event he).1.writes hw,
      fun hs => (h.waiting event he).2.1 (hw.snapped hs), (h.waiting event he).2.2⟩⟩

theorem Subscription.Sound.server {s : Subscription κ} (h : s.Sound afterSeq)
    (hop : op.client? ≠ some none) :
    Subscription.Sound afterSeq { s with session := s.session.step scfg op } := by
  have hadv := advances_step scfg s.session op
  obtain ⟨new, hnew, hemits⟩ := transit_server scfg s.session hop
  refine ⟨fun f hf => ?_, ⟨h.sink.cursor.mono hadv (List.Subset.refl _), ?_⟩⟩
  · change f ∈ (s.session.step scfg op).hub.sinks none at hf
    rw [hnew] at hf
    rcases mem_append.mp hf with hf | hf
    · exact (h.transit f hf).advance hadv
    · exact deliverable_emits afterSeq (hemits f hf)
  · intro newer f older hsplit
    exact (h.sink.frames newer f older hsplit).mono hadv (List.Subset.refl _)

theorem Subscription.Rising.server {s : Subscription κ} (h : s.Rising afterSeq near)
    (hop : op.client? ≠ some none) :
    Subscription.Rising afterSeq near { s with session := s.session.step scfg op } := by
  obtain ⟨new, hnew, hemits⟩ := transit_server scfg s.session hop
  have hlive : ∀ f ∈ new, f.isSnapshot = false := fun f hf => (hemits f hf).isSnapshot_eq_false
  refine ⟨?_, h.started, fun event he => ?_⟩
  · show SnapshotFirst ((s.session.step scfg op).hub.sinks none)
    rw [hnew]
    exact h.first.append hlive
  · change _ ∈ (s.session.step scfg op).hub.sinks none at he
    rw [hnew] at he
    rcases mem_append.mp he with he | he
    · exact h.waiting event he
    · exact absurd (hlive _ he) (by simp [ChannelEvent.isSnapshot])

/-- The connection once its next event is handed over. -/
def Subscription.taken (s : Subscription κ) (rest : List ChannelEvent) (sink : SubscriptionSink) :
    Subscription κ :=
  { session :=
      { s.session with
        hub := { s.session.hub with sinks := Function.update s.session.hub.sinks none rest } }
    sink := sink }

theorem Subscription.Sound.take {s : Subscription κ} (h : s.Sound afterSeq)
    (htransit : s.transit = event :: rest)
    (probe : SubscriptionSink.SendProbe) (gone : Bool) :
    (s.taken rest (s.sink.take cfg probe gone event)).Sound afterSeq := by
  have hevent := h.transit event (htransit ▸ mem_cons_self)
  refine ⟨fun f hf => ?_, ?_⟩
  · exact h.transit f (htransit ▸ mem_cons_of_mem _ hf)
  · show SinkCovers _ _ (s.sink.take cfg probe gone event)
    cases hended : s.sink.ended with
    | true =>
      rw [SubscriptionSink.take, if_pos hended]
      exact h.sink
    | false =>
      exact h.sink.take hevent (SubscriptionSink.advances_take cfg probe gone s.sink event hended)

theorem Subscription.Rising.take {s : Subscription κ} (h : s.Rising afterSeq near)
    (hsound : s.Sound afterSeq)
    (htransit : s.transit = event :: rest) (probe : SubscriptionSink.SendProbe) (gone : Bool) :
    (s.taken rest (s.sink.take cfg probe gone event)).Rising afterSeq near := by
  have hevent := hsound.transit event (htransit ▸ mem_cons_self)
  have hfirst := h.first
  rw [htransit] at hfirst
  -- behind anything but a notice there is no snapshot
  have hbehind : ∀ e, .snapshot e ∈ rest → event.isNotice = true :=
    fun e he => rel_of_pairwise_cons hfirst he rfl
  cases hended : s.sink.ended with
  | true =>
    have hsame : s.sink.take cfg probe gone event = s.sink := by
      rw [SubscriptionSink.take, if_pos hended]
    rw [hsame]
    refine ⟨?_, h.started, fun e he => ?_⟩
    · exact (pairwise_cons.mp hfirst).2
    · exact h.waiting e (htransit ▸ mem_cons_of_mem _ he)
  | false =>
    have hadv := SubscriptionSink.advances_take cfg probe gone s.sink event hended
    refine ⟨?_, ?_, fun e he => ?_⟩
    · exact (pairwise_cons.mp hfirst).2
    · show Started _ _ (s.sink.take cfg probe gone event)
      by_cases hsnapshot : ∃ e, event = .snapshot e
      · obtain ⟨e, rfl⟩ := hsnapshot
        obtain ⟨hwaiting, hsnapped, hmode⟩ := h.waiting e (htransit ▸ mem_cons_self)
        refine (hwaiting.noted hsnapped _).advances hadv fun hn => ?_
        have hstart : ∀ e', ChannelEvent.snapshot e = .snapshot e' →
            afterSeq.getD 0 = 0 ∨ (e'.mode = .catchup ∧ afterSeq.getD 0 = afterSeq.getD 0) := by
          rintro e' ⟨⟩
          exact (hmode hn).imp_right fun hm => ⟨hm, rfl⟩
        exact le_advanceDurableCursor hevent hstart
      · have hplain : event.isSnapshot = false := by
          cases event with
          | snapshot e => exact absurd ⟨e, rfl⟩ hsnapshot
          | _ => rfl
        refine (h.started.noted hplain).advances hadv ?_
        exact le_advanceDurableCursor hevent fun e he => absurd ⟨e, he⟩ hsnapshot
    · obtain ⟨hwaiting, hsnapped, hmode⟩ := h.waiting e (htransit ▸ mem_cons_of_mem _ he)
      have hnotice := hbehind e he
      have hstill : ¬ Snapped (s.sink.note (.handed event)).notes := by
        rintro ⟨e', he'⟩
        rcases mem_cons.mp he' with he' | he'
        · rw [← SubscriptionNote.handed.inj he'] at hnotice
          cases hnotice
        · exact hsnapped ⟨e', he'⟩
      refine ⟨?_, fun hs => hstill ?_, hmode⟩
      · show Waiting _ (s.sink.take cfg probe gone event)
        exact (hwaiting.noted hsnapped _).notice hnotice hadv
      · rcases hadv with hw | ⟨mid, hw, hw'⟩
        · exact hw.snapped hs
        · exact hw.snapped (hw'.snapped hs)

/-- What is on its way and what the sink has told stay covered by the log. -/
theorem Subscription.sound_step {s : Subscription κ} (h : s.Sound afterSeq)
    (op : SubscriptionOp κ) : (s.step scfg cfg op).Sound afterSeq := by
  cases op with
  | server op =>
    unfold Subscription.step
    dsimp only
    split
    · exact h
    · rename_i hop
      exact h.server hop
  | take probe gone =>
    unfold Subscription.step
    dsimp only
    split
    · exact h
    · rename_i event rest htransit
      exact h.take htransit probe gone
  | close reason latestSeq gone => exact h.writes (SubscriptionSink.writes_finish _ _ _ _ _)
  | drain writableLength probe retry => exact h.writes (SubscriptionSink.writes_onDrain _ _ _ _ _)
  | drainDeadline gone => exact h.writes (SubscriptionSink.writes_onDrainDeadline _ _)
  | heartbeat probe => exact h.writes (SubscriptionSink.writes_heartbeat _ _ _)
  | transportClosed => exact h.writes (.of_eq rfl rfl)

/-- A step keeps the snapshot in front of the frames that wait for it. -/
theorem Subscription.rising_step {s : Subscription κ} (hsound : s.Sound afterSeq)
    (h : s.Rising afterSeq near) (op : SubscriptionOp κ) :
    (s.step scfg cfg op).Rising afterSeq near := by
  cases op with
  | server op =>
    unfold Subscription.step
    dsimp only
    split
    · exact h
    · rename_i hop
      exact h.server hop
  | take probe gone =>
    unfold Subscription.step
    dsimp only
    split
    · exact h
    · rename_i event rest htransit
      exact h.take hsound htransit probe gone
  | close reason latestSeq gone => exact h.writes (SubscriptionSink.writes_finish _ _ _ _ _)
  | drain writableLength probe retry => exact h.writes (SubscriptionSink.writes_onDrain _ _ _ _ _)
  | drainDeadline gone => exact h.writes (SubscriptionSink.writes_onDrainDeadline _ _)
  | heartbeat probe => exact h.writes (SubscriptionSink.writes_heartbeat _ _ _)
  | transportClosed => exact h.writes (.of_eq rfl rfl)

theorem waiting_openFor (cfg : SubscriptionConfig) (afterSeq : Option ℕ) (opening : ResponseProbe) :
    Waiting afterSeq (.openFor cfg afterSeq opening) ∧
      ¬ Snapped (SubscriptionSink.openFor cfg afterSeq opening).notes := by
  let fresh : SubscriptionSink :=
    { sequence := 0, ended := false, waitingForDrain := false, lagging := false,
      droppedDeltas := false, resyncRetryScheduled := false,
      durableSeq := afterSeq.getD 0, notes := [] }
  have hfresh : Waiting afterSeq fresh :=
    ⟨rfl, by simp [fresh, SubscriptionSink.newestFrames], by simp [fresh, FramesBehindSnapshot]⟩
  have hnone : ¬ Snapped fresh.notes := fun hs => not_mem_nil hs.choose_spec
  have hopened := SubscriptionSink.writes_writeFrame cfg opening fresh .opened
  unfold SubscriptionSink.openFor
  dsimp only
  split
  · exact ⟨hfresh.writes hopened, fun hs => hnone (hopened.snapped hs)⟩
  · have hclosed := hopened.trans (SubscriptionSink.writes_finish _ .transportClosed none true
      opening.goneAfter)
    exact ⟨hfresh.writes hclosed, fun hs => hnone (hclosed.snapped hs)⟩

theorem SinkCovers.of_waiting {s : SubscriptionSink}
    (h : Waiting afterSeq s) : SinkCovers log afterSeq s := by
  refine ⟨fun q hlo hhi => ?_, fun newer f older hsplit q hlo hhi => ?_⟩
  · rw [h.cursor] at hhi
    omega
  · have hf : f ∈ s.newestFrames := by
      unfold SubscriptionSink.newestFrames
      rw [hsplit]
      exact mem_filterMap.mpr ⟨_, mem_append_right _ mem_cons_self, rfl⟩
    have hcursor := h.frames f hf
    omega

section Requests

variable (session : Session (Option κ)) (opening : ResponseProbe)
  (flushProbes : ChannelMessageId → Option κ → Probe) (probe : Probe) (queueProbes : ℕ → Probe)

theorem transit_connect : ∀ f ∈ (Subscription.connect scfg cfg session afterSeq opening flushProbes
      probe queueProbes).transit,
    f = .snapshot ((session.hub.preparedFor scfg.toHubConfig none flushProbes).buildSnapshot
        scfg.toHubConfig afterSeq) ∨
      session.hub.FlushDelta f ∨ f = .resyncRequired session.hub.log.latestSeq :=
  (sinks_subscribe_self scfg.toHubConfig session.hub none afterSeq flushProbes probe queueProbes).1

theorem Subscription.sound_connect : (Subscription.connect scfg cfg session afterSeq opening
    flushProbes probe queueProbes).Sound afterSeq := by
  have hlog : (Subscription.connect scfg cfg session afterSeq opening flushProbes probe
      queueProbes).session.hub.log = session.hub.log := log_subscribe _ _ _ _ _ _ _
  refine ⟨fun f hf => ?_, .of_waiting (waiting_openFor cfg afterSeq opening).1⟩
  rw [hlog]
  rcases transit_connect session opening flushProbes probe queueProbes f hf with
    rfl | ⟨_, _, _, _, _, rfl⟩ | rfl
  · have hresumes := resumesFrom_buildSnapshot scfg.toHubConfig
      (session.hub.preparedFor scfg.toHubConfig none flushProbes) afterSeq
    rwa [(preparedFor_spec scfg.toHubConfig session.hub none flushProbes).1] at hresumes
  · trivial
  · trivial

theorem Subscription.rising_connect : (Subscription.connect scfg cfg session afterSeq opening
    flushProbes probe queueProbes).Rising afterSeq
      (afterSeq.getD 0 = 0 ∨ NearHead session.hub.log.latestSeq afterSeq) := by
  obtain ⟨hwaiting, hsnapped⟩ := waiting_openFor cfg afterSeq opening
  refine ⟨?_, hwaiting.started, fun event he => ⟨hwaiting, hsnapped, fun hn => ?_⟩⟩
  · exact (sinks_subscribe_self scfg.toHubConfig session.hub none afterSeq flushProbes probe
      queueProbes).2
  · rcases Nat.eq_zero_or_pos (afterSeq.getD 0) with hzero | hpos
    · exact .inl hzero
    · have hnear : NearHead session.hub.log.latestSeq afterSeq := by
        rcases hn with hzero | hnear
        · omega
        · exact hnear
      rcases transit_connect session opening flushProbes probe queueProbes _ he with
        h | ⟨_, _, _, _, _, h⟩ | h
      · rw [ChannelEvent.snapshot.inj h]
        refine .inr ((mode_buildSnapshot _ _ hpos).mpr ?_)
        rwa [(preparedFor_spec scfg.toHubConfig session.hub none flushProbes).1]
      · cases h
      · cases h

end Requests

/-- **Resuming**: in every run of a connection, each frame's cursor passes only rows that the
    sink was handed before the frame.  Up to the snapshot, and to what is written before its own
    frame, the frames repeat the given cursor, those after it never fall back, and none does if the
    hub answers the cursor with a catch-up. -/
theorem resume_cursor_of_run (scfg : SessionConfig) (cfg : SubscriptionConfig)
    (session : Session (Option κ)) (afterSeq : Option ℕ) (opening : ResponseProbe)
    (flushProbes : ChannelMessageId → Option κ → Probe) (probe : Probe) (queueProbes : ℕ → Probe)
    (ops : List (SubscriptionOp κ)) :
    let s := exec (Subscription.step scfg cfg)
      (.connect scfg cfg session afterSeq opening flushProbes probe queueProbes) ops
    (∀ newer f older, s.sink.notes = newer ++ .written f :: older →
      ∀ m ∈ s.session.hub.log.rows, afterSeq.getD 0 < m.seq → m.seq ≤ f.durableSeq →
        ∃ e, .handed e ∈ older ∧ ∃ m' ∈ e.carried, m'.id = m.id) ∧
    (∃ waiting started, s.sink.notes = started ++ waiting ∧
      (∀ f ∈ framesOf waiting, f.durableSeq = afterSeq.getD 0) ∧ NeverFalls (framesOf started) ∧
      ¬ Snapped started ∧ FramesBehindSnapshot waiting) ∧
    (afterSeq.getD 0 = 0 ∨ NearHead session.hub.log.latestSeq afterSeq →
      NeverFalls s.sink.frames) := by
  intro s
  have hstep : ∀ (s : Subscription κ) (op : SubscriptionOp κ),
      s.Sound afterSeq ∧ s.Rising afterSeq (afterSeq.getD 0 = 0 ∨
        NearHead session.hub.log.latestSeq afterSeq) →
      (s.step scfg cfg op).Sound afterSeq ∧ (s.step scfg cfg op).Rising afterSeq
        (afterSeq.getD 0 = 0 ∨ NearHead session.hub.log.latestSeq afterSeq) :=
    fun s op h => ⟨s.sound_step h.1 op, s.rising_step h.1 h.2 op⟩
  obtain ⟨hsound, hrising⟩ := exec_invariant hstep ops
    ⟨Subscription.sound_connect session opening flushProbes probe queueProbes,
      Subscription.rising_connect session opening flushProbes probe queueProbes⟩
  obtain ⟨waiting, started, hnotes, hwaiting, hstarted, hsnapped, hbehind, hnear⟩ :=
    hrising.started.frames
  refine ⟨fun newer f older hsplit m hm hlo hhi => ?_, ⟨waiting, started, hnotes, hwaiting,
    hstarted, hsnapped, hbehind⟩, hnear⟩
  obtain ⟨e, he, m', hm', hseq, hversion⟩ := hsound.sink.frames newer f older hsplit m.seq hlo hhi
  refine ⟨e, he, m', hm', ?_⟩
  exact (hversion.id_eq_iff (MessageLog.versionOf_of_mem _ hm)).mpr hseq

end Connections

/-- A cursor ahead of an empty channel: the open frame carries it, the snapshot frame `0`. -/
theorem cursor_falls_ahead_of_head : let scfg : SessionConfig :=
      { snapshotMaxBytes := 4194304, connectQueueMaxEvents := 1000, connectQueueMaxBytes := 4194304,
        rowBytes := fun _ => 200, runBytes := fun _ => 200, eventBytes := fun _ => 200,
        historyMaxBytes := 4194304 }
    let cfg : SubscriptionConfig :=
      { writableSoftLimitBytes := 1048576, writableHardLimitBytes := 4194304,
        writableLowWatermarkBytes := 262144,
        filter := ⟨true, fun _ => true, fun _ => true⟩, only := none, outgoing := id }
    let opened : Subscription Unit :=
      .connect scfg cfg .start (some 5) {} (fun _ _ => {}) {} (fun _ => {})
    let s := exec (Subscription.step scfg cfg) opened [.take {} false]
    s.sink.frames.map (·.durableSeq) = [5, 0] ∧ ¬ NeverFalls s.sink.frames := by
  refine ⟨by decide, fun h => ?_⟩
  have hfalls := pairwise_map.mpr h
  revert hfalls
  decide

end RelayIde.Channel
