import Mathlib.Logic.Function.Basic
import RelayIde.Channel.MessageLog
import RelayIde.Channel.Reducer

/-!
# Channel Hub

The fan-out of one channel (`server/channel-hub.ts`): the accumulators of its open streams, its
subscribers, and the snapshot a subscriber starts from.

- `subscribe` — register, flush, snapshot, then the queued events

What a transport does is an input: each delivery comes with a `Probe`, the answers the sink
gives while it runs.  The frames a sink has accepted and its client has not read yet stand in
`sinks`.
-/

namespace RelayIde.Channel

open RelayIde.Library List Function

/-! ## Subscribers and accumulators -/

/-- suppress deltas above this -/
def watermarkHighBytes : ℕ := 1024 * 1024

/-- resume + resync below this -/
def watermarkLowBytes : ℕ := 256 * 1024

/-- close 4409 above this -/
def hardLimitBytes : ℕ := 4 * 1024 * 1024

/-- full snapshot window (last N messages) -/
def snapshotFullLimit : ℕ := 100

/-- catch-up beyond this gap falls back to a full snapshot -/
def catchupMaxRows : ℕ := 500

def snapshotRunMax : ℕ := 100

def snapshotRunMaxBytes : ℕ := 256 * 1024

/-- The hub's options, and the serialized size of what it bounds by bytes
    (`Buffer.byteLength(JSON.stringify(…), 'utf8')`). -/
structure HubConfig where
  snapshotMaxBytes : ℕ
  connectQueueMaxEvents : ℕ
  connectQueueMaxBytes : ℕ
  rowBytes : ChannelMessage → ℕ
  runBytes : ChannelAsyncRun → ℕ
  eventBytes : ChannelEvent → ℕ

/-- What a sink answers during one delivery. -/
structure Probe where
  ready : Bool := true
  bufferedAmount : ℕ := 0
  /-- Whether the resync notice is accepted, should one be sent. -/
  resyncAccepted : Bool := true
  /-- Whether the event itself is accepted, should it be sent. -/
  accepted : Bool := true
  /-- `sink.ready` after the delivery. -/
  readyAfter : Bool := true

structure Subscriber where
  /-- live events queue here until the connect-time snapshot has been sent -/
  buffering : Bool
  queue : List ChannelEvent
  queueBytes : ℕ
  snapshotLatestSeq : ℕ
  snapshotInFlight : ChannelMessageId → Option ℤ
  /-- suppressing deltas after a high-watermark breach until the buffer drains -/
  lagging : Bool

structure Accumulator where
  messageId : ChannelMessageId
  /-- authoritative in-memory text (>= last DB flush) -/
  text : String
  /-- text not yet emitted as a coalesced delta -/
  pendingText : String
  /-- last emitted deltaIndex (−1 before the first flush) -/
  deltaIndex : ℤ
  /-- Latest persisted full-row refresh waiting for one debounced broadcast. -/
  pendingUpdate : Option ChannelMessage

/-- The hub over the store of one channel, with subscribers named by `κ`. -/
structure Hub (κ : Type) where
  log : MessageLog
  /-- `channel_async_runs`, oldest first. -/
  asyncRuns : List ChannelAsyncRun
  accumulators : Table Accumulator.messageId
  subscribers : κ → Option Subscriber
  /-- The frames accepted by each client's current connection and not read yet. -/
  sinks : κ → List ChannelEvent

variable {κ : Type}

/-! ## Delivery -/

/-- The last part of `deliver`: only deltas are ever suppressed. -/
def sendOrSuppress (probe : Probe) (sub : Subscriber) (event : ChannelEvent) :
    Option Subscriber × List ChannelEvent :=
  match event with
  | .messageDelta .. =>
    -- suppress deltas while lagging
    if sub.lagging then (some sub, [])
    else if probe.bufferedAmount > watermarkHighBytes then (some { sub with lagging := true }, [])
    else if probe.accepted then (some sub, [event])
    else (none, [])
  | _ => if probe.accepted then (some sub, [event]) else (none, [])

/-- One event to one live subscriber: what becomes of it, and the frames its sink accepts. -/
def deliver (latestSeq : ℕ) (probe : Probe) (sub : Subscriber) (event : ChannelEvent) :
    Option Subscriber × List ChannelEvent :=
  if !probe.ready then (some sub, [])
  else if probe.bufferedAmount > hardLimitBytes then (none, [])
  else if sub.lagging && decide (probe.bufferedAmount < watermarkLowBytes) then
    if !probe.resyncAccepted then (none, [])
    else
      let sent := sendOrSuppress probe { sub with lagging := false } event
      (sent.1, .resyncRequired latestSeq :: sent.2)
  else sendOrSuppress probe sub event

/-- An event for one subscriber: queued while its snapshot is pending, delivered after. -/
def offer (cfg : HubConfig) (latestSeq : ℕ) (probe : Probe) (sub : Subscriber)
    (event : ChannelEvent) : Option Subscriber × List ChannelEvent :=
  if sub.buffering then
    if sub.queue.length ≥ cfg.connectQueueMaxEvents ∨
        sub.queueBytes + cfg.eventBytes event > cfg.connectQueueMaxBytes then (none, [])
    else
      (some { sub with
        queue := sub.queue ++ [event]
        queueBytes := sub.queueBytes + cfg.eventBytes event }, [])
  else deliver latestSeq probe sub event

def Hub.offerTo (cfg : HubConfig) (hub : Hub κ) (probes : κ → Probe) (event : ChannelEvent)
    (c : κ) : Option Subscriber × List ChannelEvent :=
  match hub.subscribers c with
  | none => (none, [])
  | some sub => offer cfg hub.log.latestSeq (probes c) sub event

/-- An event to every subscriber. -/
def Hub.broadcast (cfg : HubConfig) (hub : Hub κ) (probes : κ → Probe) (event : ChannelEvent) :
    Hub κ :=
  { hub with
    subscribers := fun c => (hub.offerTo cfg probes event c).1
    sinks := fun c => hub.sinks c ++ (hub.offerTo cfg probes event c).2 }

/-! ## Snapshots -/

inductive KeepEnd where
  | head
  | tail

/-- `tail` keeps the newest rows, `head` the oldest. -/
def assembleWithBudget (cfg : HubConfig) (candidate : List ChannelMessage) (keepEnd : KeepEnd)
    (maxBytes : ℕ) (keepFirstOverBudget : Bool) : Assembled ChannelMessage :=
  let size := fun row => cfg.rowBytes row + 1
  match keepEnd with
  | .head => takeWithin size maxBytes keepFirstOverBudget 0 candidate
  | .tail =>
    let pass := takeWithin size maxBytes keepFirstOverBudget 0 candidate.reverse
    { pass with kept := pass.kept.reverse }

structure SnapshotRows where
  mode : ChannelSnapshotMode
  rows : List ChannelMessage
  resyncRows : List ChannelMessage
  snapshotLatestSeq : ℕ
  truncated : Bool

/-- Without a cursor, with one ahead of the head, or too far behind it. -/
def needsFullSnapshot (latestSeq : ℕ) (sinceSeq : Option ℕ) : Bool :=
  match sinceSeq with
  | none => true
  | some sinceSeq => decide (sinceSeq > latestSeq) || decide (latestSeq - sinceSeq > catchupMaxRows)

def fullSnapshotRows (cfg : HubConfig) (log : MessageLog) : SnapshotRows :=
  let fullRows := log.history { limit := some snapshotFullLimit }
  let assembled := assembleWithBudget cfg fullRows .tail cfg.snapshotMaxBytes true
  { mode := .full
    rows := assembled.kept
    resyncRows := []
    snapshotLatestSeq := log.latestSeq
    truncated := assembled.truncated ||
      match assembled.kept.head? with
      | none => false
      | some first => decide (first.seq > 1) }

/-- The forward pages of a catch-up.  Each round adds a row, so `catchupMaxRows` rounds reach
    the loop's own bound. -/
def freshRows (log : MessageLog) : ℕ → ℕ → List ChannelMessage → List ChannelMessage
  | 0, _, fresh => fresh
  | rounds + 1, cursor, fresh =>
    if fresh.length < catchupMaxRows then
      let page := log.history { afterSeq := some cursor, limit := some 200 }
      match page.getLast? with
      | none => fresh
      | some last =>
        if page.length < 200 then fresh ++ page
        else freshRows log rounds last.seq (fresh ++ page)
    else fresh

def catchupSnapshotRows (cfg : HubConfig) (log : MessageLog) (sinceSeq : ℕ) : SnapshotRows :=
  let resync := log.listResyncRows sinceSeq catchupMaxRows
  let fresh := freshRows log catchupMaxRows sinceSeq []
  let freshAssembled := assembleWithBudget cfg fresh .head cfg.snapshotMaxBytes true
  let remainingBytes := cfg.snapshotMaxBytes - freshAssembled.bytes
  -- fresh rows consume the budget first; the remainder goes to the rows nearest the cursor
  let resyncAssembled :=
    if remainingBytes > 0 then assembleWithBudget cfg resync .tail remainingBytes false
    else { kept := [], truncated := decide (resync.length > 0), bytes := 0 }
  { mode := .catchup
    rows := freshAssembled.kept
    resyncRows := resyncAssembled.kept
    -- only a fresh-row truncation leaves an undelivered seq above the cursor
    snapshotLatestSeq :=
      match freshAssembled.truncated, freshAssembled.kept.getLast? with
      | true, some last => last.seq
      | _, _ => log.latestSeq
    truncated := freshAssembled.truncated || resyncAssembled.truncated }

def snapshotRows (cfg : HubConfig) (log : MessageLog) (sinceSeq : Option ℕ) : SnapshotRows :=
  match sinceSeq with
  | none => fullSnapshotRows cfg log
  | some since =>
    if needsFullSnapshot log.latestSeq sinceSeq then fullSnapshotRows cfg log
    else catchupSnapshotRows cfg log since

/-- Overlays the in-memory text of an open stream and records its index. -/
def materialize (accumulators : Table Accumulator.messageId) (message : ChannelMessage) :
    ChannelSnapshotStateReplacement :=
  match accumulators.find? message.id with
  | none => ⟨message, none⟩
  | some acc =>
    if message.status = .streaming then
      ⟨{ message with text := acc.text }, some ⟨message.id, acc.deltaIndex⟩⟩
    else ⟨message, none⟩

def packRuns (cfg : HubConfig) (newestFirst : List ChannelAsyncRun) : List ChannelAsyncRun :=
  (newestFirst.foldl
    (fun (acc : List ChannelAsyncRun × ℕ) run =>
      if acc.2 + cfg.runBytes run > snapshotRunMaxBytes then acc
      else (acc.1 ++ [run], acc.2 + cfg.runBytes run))
    ([], 0)).1.reverse

def Hub.buildSnapshot (cfg : HubConfig) (hub : Hub κ) (sinceSeq : Option ℕ) :
    ChannelSnapshotEvent :=
  let assembled := snapshotRows cfg hub.log sinceSeq
  let messages := assembled.rows.map (materialize hub.accumulators)
  let stateReplacements := assembled.resyncRows.map (materialize hub.accumulators)
  { mode := assembled.mode
    messages := messages.map (·.message)
    stateReplacements := if stateReplacements = [] then none else some stateReplacements
    runs := some (packRuns cfg (newest snapshotRunMax hub.asyncRuns).reverse)
    latestSeq := assembled.snapshotLatestSeq
    inFlight := messages.filterMap (·.inFlight)
    truncated := assembled.truncated }

/-! ## Streams -/

/-- An emitted delta: the index moves, nothing is pending. -/
def Accumulator.emitted (acc : Accumulator) : Accumulator :=
  { acc with pendingText := "", deltaIndex := acc.deltaIndex + 1 }

/-- Received text, not emitted yet. -/
def Accumulator.push (text : String) (acc : Accumulator) : Accumulator :=
  { acc with text := acc.text ++ text, pendingText := acc.pendingText ++ text }

def Accumulator.setPendingUpdate (message : Option ChannelMessage) (acc : Accumulator) :
    Accumulator :=
  { acc with pendingUpdate := message }

theorem keyed_emitted : ∀ acc : Accumulator, acc.emitted.messageId = acc.messageId :=
  fun _ => rfl

theorem keyed_push (text : String) :
    ∀ acc : Accumulator, (acc.push text).messageId = acc.messageId :=
  fun _ => rfl

theorem keyed_setPendingUpdate (message : Option ChannelMessage) :
    ∀ acc : Accumulator, (acc.setPendingUpdate message).messageId = acc.messageId :=
  fun _ => rfl

/-- What is held back of a row goes out as one delta. -/
def Hub.flushAccumulator (cfg : HubConfig) (hub : Hub κ) (probes : κ → Probe)
    (messageId : ChannelMessageId) : Hub κ :=
  match hub.accumulators.find? messageId with
  | none => hub
  | some acc =>
    if acc.pendingText.isEmpty then hub
    else
      { hub with
        accumulators := hub.accumulators.updateWhere (fun a => decide (a.messageId = messageId))
          Accumulator.emitted keyed_emitted }.broadcast cfg probes
        (.messageDelta messageId (acc.deltaIndex + 1) acc.pendingText)

/-- The accumulator's row refresh is taken. -/
def Hub.clearPendingUpdate (hub : Hub κ) (messageId : ChannelMessageId) : Hub κ :=
  { hub with
    accumulators := hub.accumulators.updateWhere (fun a => decide (a.messageId = messageId))
      (Accumulator.setPendingUpdate none) (keyed_setPendingUpdate none) }

def Hub.flushRowUpdate (cfg : HubConfig) (hub : Hub κ) (probes : κ → Probe)
    (messageId : ChannelMessageId) : Hub κ :=
  match hub.accumulators.find? messageId with
  | none => hub
  | some acc =>
    match acc.pendingUpdate with
    | none => hub.clearPendingUpdate messageId
    | some message =>
      (hub.clearPendingUpdate messageId).broadcast cfg probes (.messageUpdated message)

def Hub.flushPendingForChannel (cfg : HubConfig) (hub : Hub κ)
    (probes : ChannelMessageId → κ → Probe) : Hub κ :=
  (hub.accumulators.rows.map (·.messageId)).foldl
    (fun hub messageId => hub.flushAccumulator cfg (probes messageId) messageId) hub

/-- The accumulator of a stream that begins. -/
def Accumulator.opened (message : ChannelMessage) : Accumulator where
  messageId := message.id
  text := message.text
  pendingText := ""
  deltaIndex := -1
  pendingUpdate := none

/-- `accumulators.set(message.id, …)`. -/
def Hub.openAccumulator (hub : Hub κ) (message : ChannelMessage) : Hub κ :=
  { hub with
    accumulators := (hub.accumulators.deleteWhere fun a => decide (a.messageId = message.id)).insert
      (.opened message) }

theorem rows_openAccumulator (hub : Hub κ) (message : ChannelMessage) :
    (hub.openAccumulator message).accumulators.rows =
      (hub.accumulators.rows.filter fun a => !decide (a.messageId = message.id)) ++
        [.opened message] := by
  apply Table.rows_insert_of_new
  rw [Table.find?_eq_none_iff]
  intro a ha
  have hne := (mem_filter.mp ha).2
  simp only [Bool.not_eq_true', decide_eq_false_iff_not] at hne
  exact hne

def Hub.beginStreamBroadcast (cfg : HubConfig) (hub : Hub κ) (probes : κ → Probe)
    (message : ChannelMessage) : Hub κ :=
  (hub.openAccumulator message).broadcast cfg probes (.messageCreated message)

/-- Text is held back until the next flush. -/
def Hub.pushDelta (hub : Hub κ) (messageId : ChannelMessageId) (text : String) : Hub κ :=
  if text.isEmpty then hub
  else
    { hub with
      accumulators := hub.accumulators.updateWhere (fun a => decide (a.messageId = messageId))
        (Accumulator.push text) (keyed_push text) }

theorem rows_pushDelta (hub : Hub κ) (messageId : ChannelMessageId) (text : String) :
    (hub.pushDelta messageId text).accumulators.rows =
      hub.accumulators.rows.map fun a =>
        if a.messageId = messageId ∧ text.isEmpty = false then a.push text else a := by
  unfold Hub.pushDelta
  by_cases h : text.isEmpty <;> simp [h]

def Hub.updateStreamBroadcast (hub : Hub κ) (message : ChannelMessage) : Hub κ :=
  if message.status ≠ .streaming then hub
  else
    { hub with
      accumulators := hub.accumulators.updateWhere (fun a => decide (a.messageId = message.id))
        (Accumulator.setPendingUpdate (some message)) (keyed_setPendingUpdate (some message)) }

/-- `accumulators.delete(messageId)`. -/
def Hub.deleteAccumulator (hub : Hub κ) (messageId : ChannelMessageId) : Hub κ :=
  { hub with
    accumulators := hub.accumulators.deleteWhere fun a => decide (a.messageId = messageId) }

def Hub.completeStreamBroadcast (cfg : HubConfig) (hub : Hub κ) (probes : κ → Probe)
    (message : ChannelMessage) : Hub κ :=
  (hub.deleteAccumulator message.id).broadcast cfg probes (.messageCompleted message)

def Hub.broadcastCreated (cfg : HubConfig) (hub : Hub κ) (probes : κ → Probe)
    (message : ChannelMessage) : Hub κ :=
  hub.broadcast cfg probes (.messageCreated message)

def Hub.broadcastEdited (cfg : HubConfig) (hub : Hub κ) (probes : κ → Probe)
    (message : ChannelMessage) : Hub κ :=
  hub.broadcast cfg probes (.messageEdited message)

/-- An in-flight accumulator would keep appending deltas onto a row the operator just erased. -/
def Hub.broadcastDeleted (cfg : HubConfig) (hub : Hub κ) (probes : κ → Probe)
    (message : ChannelMessage) : Hub κ :=
  (hub.deleteAccumulator message.id).broadcast cfg probes (.messageDeleted message)

/-! ## Subscriptions -/

def Subscriber.duplicates (sub : Subscriber) : ChannelEvent → Bool
  | .messageCreated message => decide (message.seq ≤ sub.snapshotLatestSeq)
  | .messageDelta messageId deltaIndex _ =>
    match sub.snapshotInFlight messageId with
    | none => false
    | some recorded => decide (deltaIndex ≤ recorded)
  | _ => false

/-- The events queued during the snapshot, less the duplicates. -/
def flushQueue (latestSeq : ℕ) (probes : ℕ → Probe) :
    List ChannelEvent → ℕ → Subscriber → Option Subscriber × List ChannelEvent
  | [], _, sub => (some sub, [])
  | event :: rest, i, sub =>
    if sub.duplicates event then flushQueue latestSeq probes rest (i + 1) sub
    else
      match deliver latestSeq (probes i) sub event with
      | (none, frames) => (none, frames)
      | (some sub, frames) =>
        if !(probes i).readyAfter then (some sub, frames)
        else
          let flushed := flushQueue latestSeq probes rest (i + 1) sub
          (flushed.1, frames ++ flushed.2)

/-- The cursors a snapshot carries: of its fresh rows and of its replacements. -/
def ChannelSnapshotEvent.cursors (snapshot : ChannelSnapshotEvent) :
    ChannelMessageId → Option ℤ :=
  inFlightFromRefs
    (snapshot.inFlight ++ (snapshot.stateReplacements.getD []).filterMap (·.inFlight))

section Subscriptions

variable [DecidableEq κ]

def Hub.sendSnapshot (cfg : HubConfig) (hub : Hub κ) (c : κ) (afterSeq : Option ℕ)
    (probe : Probe) (queueProbes : ℕ → Probe) : Option Subscriber × List ChannelEvent :=
  match hub.subscribers c with
  -- closed while it was buffering: its sink takes nothing any more
  | none => (none, [])
  | some sub =>
    let snapshot := hub.buildSnapshot cfg afterSeq
    let seeded :=
      { sub with
        snapshotLatestSeq := snapshot.latestSeq
        snapshotInFlight := snapshot.cursors }
    match deliver hub.log.latestSeq probe seeded (.snapshot snapshot) with
    | (none, frames) => (none, frames)
    | (some sub, frames) =>
      if !probe.readyAfter then (none, frames)
      else
        let flushed := flushQueue hub.log.latestSeq queueProbes sub.queue 0
          { sub with queue := [], queueBytes := 0, buffering := false }
        (flushed.1, frames ++ flushed.2)

/-- A new connection of client `c`; the frames of its last one are lost with it. -/
def Hub.register (hub : Hub κ) (c : κ) : Hub κ :=
  { hub with
    subscribers := update hub.subscribers c
      (some
        { buffering := true
          queue := []
          queueBytes := 0
          snapshotLatestSeq := 0
          snapshotInFlight := fun _ => none
          lagging := false })
    sinks := update hub.sinks c [] }

/-- Registered first, then the channel flushed: the hub a snapshot is built from. -/
def Hub.preparedFor (cfg : HubConfig) (hub : Hub κ) (c : κ)
    (flushProbes : ChannelMessageId → κ → Probe) : Hub κ :=
  (hub.register c).flushPendingForChannel cfg flushProbes

/-- What is held back goes out first; then the subscriber is sent its snapshot. -/
def Hub.subscribe (cfg : HubConfig) (hub : Hub κ) (c : κ) (afterSeq : Option ℕ)
    (flushProbes : ChannelMessageId → κ → Probe) (probe : Probe) (queueProbes : ℕ → Probe) :
    Hub κ :=
  let prepared := hub.preparedFor cfg c flushProbes
  let sent := prepared.sendSnapshot cfg c afterSeq probe queueProbes
  { prepared with
    subscribers := update prepared.subscribers c sent.1
    sinks := update prepared.sinks c (prepared.sinks c ++ sent.2) }

/-- The connection of `c` is gone, with the frames it still held. -/
def Hub.disconnect (hub : Hub κ) (c : κ) : Hub κ :=
  { hub with
    subscribers := update hub.subscribers c none
    sinks := update hub.sinks c [] }

end Subscriptions

/-! ## What reaches a sink -/

theorem frames_sendOrSuppress (probe : Probe) (sub : Subscriber) (event : ChannelEvent) :
    (sendOrSuppress probe sub event).2 = [] ∨ (sendOrSuppress probe sub event).2 = [event] := by
  unfold sendOrSuppress
  repeat' split
  all_goals first | exact .inl rfl | exact .inr rfl

theorem frames_deliver (latestSeq : ℕ) (probe : Probe) (sub : Subscriber) (event : ChannelEvent) :
    (deliver latestSeq probe sub event).2 ∈
      [[], [.resyncRequired latestSeq], [event], [.resyncRequired latestSeq, event]] := by
  unfold deliver
  split
  · simp
  · split
    · simp
    · split
      · split
        · simp
        · rcases frames_sendOrSuppress probe { sub with lagging := false } event with h | h <;>
            simp [h]
      · rcases frames_sendOrSuppress probe sub event with h | h <;> simp [h]

theorem mem_deliver {latestSeq : ℕ} {probe : Probe} {sub : Subscriber} {event f : ChannelEvent}
    (hf : f ∈ (deliver latestSeq probe sub event).2) :
    f = event ∨ f = .resyncRequired latestSeq := by
  have hframes := frames_deliver latestSeq probe sub event
  generalize (deliver latestSeq probe sub event).2 = frames at hf hframes
  simp only [mem_cons, not_mem_nil, or_false] at hframes
  rcases hframes with rfl | rfl | rfl | rfl <;> simp at hf <;> tauto

def ChannelEvent.isSnapshot : ChannelEvent → Bool
  | .snapshot _ => true
  | _ => false

def ChannelEvent.isNotice : ChannelEvent → Bool
  | .resyncRequired _ => true
  | _ => false

/-- A snapshot stands behind notices only. -/
def SnapshotFirst (frames : List ChannelEvent) : Prop :=
  frames.Pairwise fun a b => b.isSnapshot = true → a.isNotice = true

theorem SnapshotFirst.append {frames new : List ChannelEvent} (h : SnapshotFirst frames)
    (hnew : ∀ f ∈ new, f.isSnapshot = false) : SnapshotFirst (frames ++ new) := by
  have hnone (a : ChannelEvent) : ∀ b ∈ new, b.isSnapshot = true → a.isNotice = true := by
    intro b hb hsnap
    rw [hnew b hb] at hsnap
    cases hsnap
  refine pairwise_append.mpr ⟨h, ?_, fun a _ => hnone a⟩
  exact pairwise_of_forall_mem_list fun a _ => hnone a

theorem snapshotFirst_deliver (latestSeq : ℕ) (probe : Probe) (sub : Subscriber)
    (event : ChannelEvent) : SnapshotFirst (deliver latestSeq probe sub event).2 := by
  have hframes := frames_deliver latestSeq probe sub event
  generalize (deliver latestSeq probe sub event).2 = frames at hframes
  simp only [mem_cons, not_mem_nil, or_false] at hframes
  rcases hframes with rfl | rfl | rfl | rfl <;> simp [SnapshotFirst, ChannelEvent.isNotice]

/-- Frames and queues grow by frames that satisfy `P`. -/
structure Grows (P : ChannelEvent → Prop) (hub hub' : Hub κ) : Prop where
  sinks : ∀ c, ∃ new, hub'.sinks c = hub.sinks c ++ new ∧ ∀ f ∈ new, P f
  queues : ∀ c sub', hub'.subscribers c = some sub' →
    ∃ sub, hub.subscribers c = some sub ∧ ∀ f ∈ sub'.queue, f ∈ sub.queue ∨ P f

theorem Grows.refl (P : ChannelEvent → Prop) (hub : Hub κ) : Grows P hub hub :=
  ⟨fun _ => ⟨[], (append_nil _).symm, by simp⟩, fun _ sub h => ⟨sub, h, fun _ hf => .inl hf⟩⟩

variable {P : ChannelEvent → Prop} {hub : Hub κ} {c : κ} {f : ChannelEvent}

theorem Grows.trans {hub₁ hub₂ hub₃ : Hub κ} (h : Grows P hub₁ hub₂)
    (h' : Grows P hub₂ hub₃) : Grows P hub₁ hub₃ := by
  refine ⟨fun c => ?_, fun c sub₃ h₃ => ?_⟩
  · obtain ⟨new, hnew, hP⟩ := h.sinks c
    obtain ⟨new', hnew', hP'⟩ := h'.sinks c
    refine ⟨new ++ new', by rw [hnew', hnew, append_assoc], fun f hf => ?_⟩
    rcases mem_append.mp hf with hf | hf
    · exact hP f hf
    · exact hP' f hf
  · obtain ⟨sub₂, h₂, hq₂⟩ := h'.queues c sub₃ h₃
    obtain ⟨sub₁, h₁, hq₁⟩ := h.queues c sub₂ h₂
    refine ⟨sub₁, h₁, fun f hf => ?_⟩
    rcases hq₂ f hf with hf | hf
    · exact hq₁ f hf
    · exact .inr hf

theorem Grows.mono {Q : ChannelEvent → Prop} {hub' : Hub κ} (h : Grows P hub hub')
    (hPQ : ∀ f, P f → Q f) : Grows Q hub hub' := by
  refine ⟨fun c => ?_, fun c sub' h' => ?_⟩
  · obtain ⟨new, hnew, hP⟩ := h.sinks c
    exact ⟨new, hnew, fun f hf => hPQ f (hP f hf)⟩
  · obtain ⟨sub, hsub, hq⟩ := h.queues c sub' h'
    exact ⟨sub, hsub, fun f hf => (hq f hf).imp_right (hPQ f)⟩

theorem Grows.of_eq {hub₀ hub' : Hub κ} (h : Grows P hub hub')
    (hsubs : hub₀.subscribers = hub.subscribers) (hsinks : hub₀.sinks = hub.sinks) :
    Grows P hub₀ hub' := by
  refine ⟨fun c => ?_, fun c sub' h' => ?_⟩
  · rw [hsinks]
    exact h.sinks c
  · rw [hsubs]
    exact h.queues c sub' h'

theorem queue_sendOrSuppress {probe : Probe} {sub sub' : Subscriber} {event : ChannelEvent}
    (h : (sendOrSuppress probe sub event).1 = some sub') : sub'.queue = sub.queue := by
  unfold sendOrSuppress at h
  repeat' split at h
  all_goals first
    | exact Option.some.inj h ▸ rfl
    | exact absurd h (by simp)

theorem queue_deliver {latestSeq : ℕ} {probe : Probe} {sub sub' : Subscriber}
    {event : ChannelEvent} (h : (deliver latestSeq probe sub event).1 = some sub') :
    sub'.queue = sub.queue := by
  unfold deliver at h
  split at h
  · exact Option.some.inj h ▸ rfl
  · split at h
    · exact absurd h (by simp)
    · split at h
      · split at h
        · exact absurd h (by simp)
        · have hq : sub'.queue = ({ sub with lagging := false } : Subscriber).queue :=
            queue_sendOrSuppress h
          exact hq
      · exact queue_sendOrSuppress h

variable (acc : Accumulator) (cfg : HubConfig)

theorem grows_broadcast (hub : Hub κ) (probes : κ → Probe) (event : ChannelEvent) :
    Grows (fun f => f = event ∨ f = .resyncRequired hub.log.latestSeq) hub
      (hub.broadcast cfg probes event) := by
  refine ⟨fun c => ⟨_, rfl, fun f hf => ?_⟩, fun c sub' h' => ?_⟩
  · unfold Hub.offerTo at hf
    split at hf
    · exact absurd hf not_mem_nil
    · unfold offer at hf
      split at hf
      · split at hf <;> exact absurd hf not_mem_nil
      · exact mem_deliver hf
  · change (hub.offerTo cfg probes event c).1 = some sub' at h'
    unfold Hub.offerTo at h'
    split at h'
    · cases h'
    · rename_i sub hsub
      refine ⟨sub, hsub, fun f hf => ?_⟩
      unfold offer at h'
      split at h'
      · split at h'
        · cases h'
        · cases h'
          rcases mem_append.mp hf with hf | hf
          · exact .inl hf
          · exact .inr (.inl (mem_singleton.mp hf))
      · rw [queue_deliver h'] at hf
        exact .inl hf

/-! ### Flushes -/

/-- The delta that flushing the stream `id` emits. -/
def Hub.FlushDeltaOf (hub : Hub κ) (id : ChannelMessageId) (f : ChannelEvent) : Prop :=
  ∃ acc ∈ hub.accumulators.rows, acc.messageId = id ∧ acc.pendingText.isEmpty = false ∧
    f = .messageDelta id (acc.deltaIndex + 1) acc.pendingText

def Hub.FlushDelta (hub : Hub κ) (f : ChannelEvent) : Prop :=
  ∃ id, hub.FlushDeltaOf id f

def Accumulator.flushed (acc : Accumulator) : Accumulator :=
  if acc.pendingText.isEmpty then acc else acc.emitted

@[simp] theorem messageId_flushed : acc.flushed.messageId = acc.messageId := by
  unfold Accumulator.flushed
  split <;> rfl

@[simp] theorem isEmpty_pendingText_flushed : acc.flushed.pendingText.isEmpty = true := by
  unfold Accumulator.flushed
  split
  · rename_i h
    exact h
  · rfl

@[simp] theorem pendingText_flushed : acc.flushed.pendingText = "" := by
  have hempty := isEmpty_pendingText_flushed acc
  unfold String.isEmpty at hempty
  simpa using hempty

@[simp] theorem flushed_flushed : acc.flushed.flushed = acc.flushed := by
  rw [Accumulator.flushed, if_pos (isEmpty_pendingText_flushed acc)]

section
variable (hub : Hub κ) (probes : κ → Probe) (id : ChannelMessageId)

@[simp] theorem log_flushAccumulator : (hub.flushAccumulator cfg probes id).log = hub.log := by
  unfold Hub.flushAccumulator
  split
  · rfl
  · split <;> rfl

theorem rows_flushAccumulator :
    (hub.flushAccumulator cfg probes id).accumulators.rows =
      hub.accumulators.rows.map fun a => if a.messageId = id then a.flushed else a := by
  have hsame (h : ∀ a ∈ hub.accumulators.rows, a.messageId = id → a.flushed = a) :
      hub.accumulators.rows = hub.accumulators.rows.map fun a =>
        if a.messageId = id then a.flushed else a := by
    have heq : ∀ a ∈ hub.accumulators.rows, (if a.messageId = id then a.flushed else a) = a := by
      intro a ha
      split
      · rename_i hid
        exact h a ha hid
      · rfl
    rw [map_congr_left heq, map_id']
  unfold Hub.flushAccumulator
  split
  · rename_i hnone
    exact hsame fun a ha hid => absurd hid ((Table.find?_eq_none_iff _ _).mp hnone a ha)
  · rename_i acc hacc
    obtain ⟨hmem, haid⟩ := (Table.find?_eq_some_iff _ _ _).mp hacc
    split
    · rename_i hempty
      refine hsame fun a ha hid => ?_
      rw [hub.accumulators.eq_of_key_eq ha hmem (hid.trans haid.symm), Accumulator.flushed,
        if_pos hempty]
    · rename_i hpending
      refine map_congr_left fun a ha => ?_
      by_cases hid : a.messageId = id
      · rw [hub.accumulators.eq_of_key_eq ha hmem (hid.trans haid.symm)]
        simp [Accumulator.flushed, hpending]
      · simp [hid]

theorem grows_flushAccumulator :
    Grows (fun f => hub.FlushDeltaOf id f ∨ f = .resyncRequired hub.log.latestSeq) hub
      (hub.flushAccumulator cfg probes id) := by
  unfold Hub.flushAccumulator
  split
  · exact .refl _ hub
  · rename_i acc hacc
    obtain ⟨hmem, haid⟩ := (Table.find?_eq_some_iff _ _ _).mp hacc
    split
    · exact .refl _ hub
    · rename_i hpending
      refine Grows.of_eq ((grows_broadcast cfg _ probes _).mono fun f hf => ?_) rfl rfl
      exact hf.imp_left fun he => ⟨acc, hmem, haid, by simpa using hpending, he⟩

end

theorem foldl_flushAccumulator (probes : ChannelMessageId → κ → Probe)
    (ids : List ChannelMessageId) (hub : Hub κ) :
    let hub' := ids.foldl (fun hub id => hub.flushAccumulator cfg (probes id) id) hub
    hub'.log = hub.log ∧
      hub'.accumulators.rows =
        (hub.accumulators.rows.map fun a => if a.messageId ∈ ids then a.flushed else a) ∧
      Grows (fun f => hub.FlushDelta f ∨ f = .resyncRequired hub.log.latestSeq) hub hub' := by
  induction ids generalizing hub with
  | nil => exact ⟨rfl, by simp, .refl _ hub⟩
  | cons id ids ih =>
    obtain ⟨hlog, hrows, hgrows⟩ := ih (hub.flushAccumulator cfg (probes id) id)
    have hone := rows_flushAccumulator cfg hub (probes id) id
    refine ⟨?_, ?_, ?_⟩
    · rw [foldl_cons, hlog, log_flushAccumulator]
    · rw [foldl_cons, hrows, hone, map_map]
      refine map_congr_left fun a _ => ?_
      show (if (if a.messageId = id then a.flushed else a).messageId ∈ ids then
          (if a.messageId = id then a.flushed else a).flushed
        else if a.messageId = id then a.flushed else a) = _
      by_cases hid : a.messageId = id
      · simp [hid]
      · simp [hid]
    · have hfirst := (grows_flushAccumulator cfg hub (probes id) id).mono
        (Q := fun f => hub.FlushDelta f ∨ f = .resyncRequired hub.log.latestSeq)
        fun f hf => hf.imp_left fun h => ⟨id, h⟩
      refine hfirst.trans (hgrows.mono fun f hf => ?_)
      rw [log_flushAccumulator] at hf
      refine hf.imp_left fun ⟨id', acc, hacc, haid, hpending, he⟩ => ?_
      -- an accumulator with pending text was not the one flushed
      rw [hone, mem_map] at hacc
      obtain ⟨a, ha, hacc⟩ := hacc
      by_cases hid : a.messageId = id
      · rw [if_pos hid] at hacc
        rw [← hacc, isEmpty_pendingText_flushed] at hpending
        cases hpending
      · rw [if_neg hid] at hacc
        subst hacc
        exact ⟨id', a, ha, haid, hpending, he⟩

theorem flushPendingForChannel_spec (hub : Hub κ) (probes : ChannelMessageId → κ → Probe) :
    (hub.flushPendingForChannel cfg probes).log = hub.log ∧
      (hub.flushPendingForChannel cfg probes).accumulators.rows =
        hub.accumulators.rows.map Accumulator.flushed ∧
      Grows (fun f => hub.FlushDelta f ∨ f = .resyncRequired hub.log.latestSeq) hub
        (hub.flushPendingForChannel cfg probes) := by
  obtain ⟨hlog, hrows, hgrows⟩ :=
    foldl_flushAccumulator cfg probes (hub.accumulators.rows.map (·.messageId)) hub
  refine ⟨hlog, ?_, hgrows⟩
  refine hrows.trans (map_congr_left fun a ha => ?_)
  rw [if_pos (mem_map_of_mem ha)]

/-- While a connection waits for its snapshot its sink takes no frame. -/
def Hub.Waits (hub : Hub κ) (c : κ) : Prop :=
  ∀ sub, hub.subscribers c = some sub → sub.buffering = true

theorem waits_broadcast (h : hub.Waits c) (probes : κ → Probe) (event : ChannelEvent) :
    (hub.broadcast cfg probes event).Waits c ∧
      (hub.broadcast cfg probes event).sinks c = hub.sinks c := by
  have hoffer : (∀ sub, (hub.offerTo cfg probes event c).1 = some sub → sub.buffering = true) ∧
      (hub.offerTo cfg probes event c).2 = [] := by
    unfold Hub.offerTo
    split
    · exact ⟨fun _ hsub => (nomatch hsub), rfl⟩
    · rename_i sub hsub
      unfold offer
      rw [if_pos (h sub hsub)]
      split
      · exact ⟨fun _ hsub => (nomatch hsub), rfl⟩
      · refine ⟨fun sub' hsub' => ?_, rfl⟩
        rw [← Option.some.inj hsub']
        exact h sub hsub
  refine ⟨hoffer.1, ?_⟩
  show hub.sinks c ++ (hub.offerTo cfg probes event c).2 = hub.sinks c
  rw [hoffer.2, append_nil]

theorem waits_flushAccumulator (h : hub.Waits c) (probes : κ → Probe) (id : ChannelMessageId) :
    (hub.flushAccumulator cfg probes id).Waits c ∧
      (hub.flushAccumulator cfg probes id).sinks c = hub.sinks c := by
  unfold Hub.flushAccumulator
  split
  · exact ⟨h, rfl⟩
  · split
    · exact ⟨h, rfl⟩
    · exact waits_broadcast cfg (show Hub.Waits { hub with accumulators := _ } c from h) probes _

theorem sinks_foldl_flushAccumulator (probes : ChannelMessageId → κ → Probe)
    (ids : List ChannelMessageId) (h : hub.Waits c) :
    (ids.foldl (fun hub id => hub.flushAccumulator cfg (probes id) id) hub).sinks c =
      hub.sinks c := by
  induction ids generalizing hub with
  | nil => rfl
  | cons id ids ih =>
    obtain ⟨hwaits, hsinks⟩ := waits_flushAccumulator cfg h (probes id) id
    rw [foldl_cons, ih hwaits, hsinks]

/-! ### Subscriptions -/

theorem mem_flushQueue {latestSeq : ℕ} {probes : ℕ → Probe} {queued : List ChannelEvent} {i : ℕ}
    {sub : Subscriber} (hf : f ∈ (flushQueue latestSeq probes queued i sub).2) :
    f ∈ queued ∨ f = .resyncRequired latestSeq := by
  induction queued generalizing i sub with
  | nil => exact absurd hf not_mem_nil
  | cons event rest ih =>
    have hcons : f = event ∨ f = .resyncRequired latestSeq →
        f ∈ event :: rest ∨ f = .resyncRequired latestSeq :=
      Or.imp_left fun h => h ▸ mem_cons_self
    unfold flushQueue at hf
    split at hf
    · exact (ih hf).imp_left (mem_cons_of_mem _)
    · split at hf
      · rename_i frames hdeliver
        exact hcons (mem_deliver (by rw [hdeliver]; exact hf))
      · rename_i sub' frames hdeliver
        have hframe (h : f ∈ frames) := mem_deliver (f := f) (by rw [hdeliver]; exact h)
        split at hf
        · exact hcons (hframe hf)
        · rcases mem_append.mp hf with hf | hf
          · exact hcons (hframe hf)
          · exact (ih hf).imp_left (mem_cons_of_mem _)

theorem Hub.FlushDelta.isSnapshot_eq_false (h : hub.FlushDelta f) : f.isSnapshot = false := by
  obtain ⟨_, _, _, _, _, rfl⟩ := h
  rfl

section Subscriptions

variable [DecidableEq κ]

variable (cfg : HubConfig)

section
variable (hub : Hub κ)

theorem preparedFor_spec (c : κ) (flushProbes : ChannelMessageId → κ → Probe) :
    (hub.preparedFor cfg c flushProbes).log = hub.log ∧
      (hub.preparedFor cfg c flushProbes).accumulators.rows =
        hub.accumulators.rows.map Accumulator.flushed ∧
      Grows (fun f => hub.FlushDelta f ∨ f = .resyncRequired hub.log.latestSeq) (hub.register c)
        (hub.preparedFor cfg c flushProbes) :=
  flushPendingForChannel_spec cfg (hub.register c) flushProbes

theorem sinks_preparedFor_self (c : κ) (flushProbes : ChannelMessageId → κ → Probe) :
    (hub.preparedFor cfg c flushProbes).sinks c = [] := by
  have hwaits : (hub.register c).Waits c := by
    intro sub hsub
    change update hub.subscribers c _ c = some sub at hsub
    rw [update_self] at hsub
    exact Option.some.inj hsub ▸ rfl
  have hsinks : (hub.register c).sinks c = [] := update_self ..
  exact (sinks_foldl_flushAccumulator cfg flushProbes _ hwaits).trans hsinks

section
variable (c : κ) (afterSeq : Option ℕ) (flushProbes : ChannelMessageId → κ → Probe) (probe : Probe) (queueProbes : ℕ → Probe)

theorem frames_sendSnapshot :
    let prepared := hub.preparedFor cfg c flushProbes
    let frames := (prepared.sendSnapshot cfg c afterSeq probe queueProbes).2
    (∀ f ∈ frames, f = .snapshot (prepared.buildSnapshot cfg afterSeq) ∨ hub.FlushDelta f ∨
      f = .resyncRequired hub.log.latestSeq) ∧ SnapshotFirst frames := by
  intro prepared
  obtain ⟨hlog, -, hgrows⟩ := preparedFor_spec cfg hub c flushProbes
  have hqueue : ∀ sub, prepared.subscribers c = some sub → ∀ f ∈ sub.queue,
      hub.FlushDelta f ∨ f = .resyncRequired hub.log.latestSeq := by
    intro sub hsub f hf
    obtain ⟨sub₀, hsub₀, hq⟩ := hgrows.queues c sub hsub
    have hnew : sub₀.queue = [] := by
      change update hub.subscribers c _ c = some sub₀ at hsub₀
      rw [update_self] at hsub₀
      exact Option.some.inj hsub₀ ▸ rfl
    rcases hq f hf with hf | hf
    · rw [hnew] at hf
      exact absurd hf not_mem_nil
    · exact hf
  unfold Hub.sendSnapshot
  cases hsub : prepared.subscribers c with
  | none => exact ⟨fun f hf => absurd hf not_mem_nil, List.Pairwise.nil⟩
  | some sub =>
    dsimp only
    have hlog' : prepared.log = hub.log := hlog
    rw [hlog']
    set seeded : Subscriber :=
      { sub with
        snapshotLatestSeq := (prepared.buildSnapshot cfg afterSeq).latestSeq
        snapshotInFlight := (prepared.buildSnapshot cfg afterSeq).cursors } with hseeded
    have hsent := @mem_deliver hub.log.latestSeq probe seeded
      (.snapshot (prepared.buildSnapshot cfg afterSeq))
    have hfirst := snapshotFirst_deliver hub.log.latestSeq probe seeded
      (.snapshot (prepared.buildSnapshot cfg afterSeq))
    have hkept := @queue_deliver hub.log.latestSeq probe seeded
    generalize hd : deliver hub.log.latestSeq probe seeded
      (.snapshot (prepared.buildSnapshot cfg afterSeq)) = sent at hsent hfirst
    obtain ⟨sub', frames⟩ := sent
    have hframes : ∀ f ∈ frames, f = .snapshot (prepared.buildSnapshot cfg afterSeq) ∨
        hub.FlushDelta f ∨ f = .resyncRequired hub.log.latestSeq :=
      fun f hf => (hsent hf).imp_right .inr
    cases sub' with
    | none => exact ⟨hframes, hfirst⟩
    | some sub' =>
      dsimp only
      split
      · exact ⟨hframes, hfirst⟩
      · have hq : sub'.queue = sub.queue := hkept (by rw [hd])
        -- the queue holds no snapshot
        have hflushed : ∀ f ∈ (flushQueue hub.log.latestSeq queueProbes sub'.queue 0
            { sub' with queue := [], queueBytes := 0, buffering := false }).2,
            hub.FlushDelta f ∨ f = .resyncRequired hub.log.latestSeq := by
          intro f hf
          rcases mem_flushQueue hf with hf | hf
          · exact hqueue sub hsub f (hq ▸ hf)
          · exact .inr hf
        refine ⟨fun f hf => ?_, hfirst.append fun f hf => ?_⟩
        · rcases mem_append.mp hf with hf | hf
          · exact hframes f hf
          · exact .inr (hflushed f hf)
        · rcases hflushed f hf with h | rfl
          · exact h.isSnapshot_eq_false
          · rfl

theorem sinks_subscribe_self :
    let frames := (hub.subscribe cfg c afterSeq flushProbes probe queueProbes).sinks c
    (∀ f ∈ frames,
      f = .snapshot ((hub.preparedFor cfg c flushProbes).buildSnapshot cfg afterSeq) ∨
        hub.FlushDelta f ∨ f = .resyncRequired hub.log.latestSeq) ∧ SnapshotFirst frames := by
  intro frames
  have hframes : frames = ((hub.preparedFor cfg c flushProbes).sendSnapshot cfg c afterSeq
      probe queueProbes).2 := by
    show update (hub.preparedFor cfg c flushProbes).sinks c _ c = _
    rw [update_self, sinks_preparedFor_self, nil_append]
  rw [hframes]
  exact frames_sendSnapshot cfg hub c afterSeq flushProbes probe queueProbes

end

theorem sinks_subscribe_of_ne {c' : κ} (hne : c' ≠ c)
    (afterSeq : Option ℕ) (flushProbes : ChannelMessageId → κ → Probe) (probe : Probe)
    (queueProbes : ℕ → Probe) :
    ∃ new, (hub.subscribe cfg c afterSeq flushProbes probe queueProbes).sinks c' =
        hub.sinks c' ++ new ∧
      ∀ f ∈ new, hub.FlushDelta f ∨ f = .resyncRequired hub.log.latestSeq := by
  obtain ⟨new, hnew, hP⟩ := (preparedFor_spec cfg hub c flushProbes).2.2.sinks c'
  refine ⟨new, ?_, hP⟩
  show update (hub.preparedFor cfg c flushProbes).sinks c _ c' = _
  rw [update_of_ne hne, hnew]
  show update hub.sinks c [] c' ++ new = _
  rw [update_of_ne hne]

section
variable (c : κ) (afterSeq : Option ℕ) (flushProbes : ChannelMessageId → κ → Probe) (probe : Probe) (queueProbes : ℕ → Probe)

theorem log_subscribe :
    (hub.subscribe cfg c afterSeq flushProbes probe queueProbes).log = hub.log :=
  (preparedFor_spec cfg hub c flushProbes).1

theorem rows_subscribe :
    (hub.subscribe cfg c afterSeq flushProbes probe queueProbes).accumulators.rows =
      hub.accumulators.rows.map Accumulator.flushed :=
  (preparedFor_spec cfg hub c flushProbes).2.1

end

end

end Subscriptions

end RelayIde.Channel
