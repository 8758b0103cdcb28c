import RelayIde.Library.Ranked
import RelayIde.Library.Table

/-!
# Channel Message Log

The rows of one channel in `channel_messages` and their writers
(`server/channel-message-store.ts`).  A row keeps its sequence number for ever: appends take
`MAX(seq) + 1`, and every other writer updates a row in place, a deletion included.

- `history`, `listResyncRows` — the reads the hub and the history route page through

`Advances` says what any writer leaves true of the messages already handed out.
-/

open List

namespace RelayIde.Channel

open RelayIde.Library

/-! ## Rows -/

abbrev ChannelMessageId := String

inductive ChannelSenderKind where
  | human
  | agent
  | system
  deriving DecidableEq

structure ChannelSenderRef where
  kind : ChannelSenderKind
  id : String
  deriving DecidableEq

inductive ChannelMessageKind where
  | message
  | system
  deriving DecidableEq

/-- `CHANNEL_TERMINAL_MESSAGE_STATUSES`. -/
inductive ChannelTerminalStatus where
  | complete
  | truncated
  | interrupted
  | failed
  deriving DecidableEq

/-- `CHANNEL_MESSAGE_STATUSES`. -/
inductive ChannelMessageStatus where
  | streaming
  | terminal (status : ChannelTerminalStatus)
  deriving DecidableEq

inductive ChannelTruncationReason where
  | sizeLimit
  | missingTerminal
  | restart
  deriving DecidableEq

/-- Whether a detail row's terminal status may still be corrected. -/
inductive AgentDetailTerminalAuthority where
  | provisional
  | explicit
  deriving DecidableEq

/-- A message as stored and as sent to clients, with the `meta_json` keys its writers touch. -/
structure ChannelMessage where
  id : ChannelMessageId
  seq : ℕ
  kind : ChannelMessageKind
  status : ChannelMessageStatus
  sender : ChannelSenderRef
  /-- `body.text`. -/
  text : String
  mentions : List String
  parts : List String
  /-- `source.runtimeId`. -/
  sourceRuntimeId : Option String
  agentDetail : Option String
  agentDetailTerminalAuthority : Option AgentDetailTerminalAuthority
  truncationReason : Option ChannelTruncationReason
  /-- `meta.truncated`, the legacy 256KB marker. -/
  truncated : Bool
  editedAt : Option Timestamp
  deletedAt : Option Timestamp
  updatedAt : Timestamp
  completedAt : Option Timestamp
  deriving DecidableEq

/-- The row predicate of `listResyncRows`: an agent row, an edited row or a tombstone. -/
def ChannelMessage.isResyncRow (m : ChannelMessage) : Bool :=
  m.sourceRuntimeId.isSome || m.editedAt.isSome || m.deletedAt.isSome

/-- A row the agent bridge still writes to: an open stream, or a detail row whose terminal status
    names its authority. -/
def ChannelMessage.isBridgeRow (m : ChannelMessage) : Bool :=
  decide (m.status = .streaming) || m.agentDetailTerminalAuthority.isSome

def isTombstoneRow (m : ChannelMessage) : Bool :=
  m.deletedAt.isSome

/-- `COALESCE(MAX(seq), 0)`. -/
def maxSeq (rows : List ChannelMessage) : ℕ :=
  (rows.map (·.seq)).foldr max 0

/-! ## The log -/

structure MessageLog where
  /-- The rows by id, in `seq` order. -/
  messages : Table ChannelMessage.id
  /-- Rows are stored in sequence order. -/
  ranked : Ranked ChannelMessage.seq messages.rows
  /-- No sequence number is skipped. -/
  dense : Spans ChannelMessage.seq 0 (maxSeq messages.rows) messages.rows
  /-- The bridge writes to rows of an agent runtime only. -/
  sourced : ∀ m ∈ messages.rows, m.isBridgeRow = true → m.sourceRuntimeId.isSome

namespace MessageLog

/-- The rows in sequence order. -/
def rows (log : MessageLog) : List ChannelMessage := log.messages.rows

/-- The channel without messages. -/
def empty : MessageLog :=
  ⟨.empty, by simp, by simp [maxSeq], by simp⟩

def latestSeq (log : MessageLog) : ℕ := maxSeq log.rows

def getMessage (log : MessageLog) (id : ChannelMessageId) : Option ChannelMessage :=
  log.messages.find? id

section
variable (log : MessageLog)
include log

theorem getMessage_eq_some_iff (id : ChannelMessageId) (m : ChannelMessage) :
    log.getMessage id = some m ↔ m ∈ log.rows ∧ m.id = id :=
  log.messages.find?_eq_some_iff id m

theorem getMessage_of_mem {m : ChannelMessage} (hm : m ∈ log.rows) : log.getMessage m.id = some m :=
  (log.getMessage_eq_some_iff _ _).mpr ⟨hm, rfl⟩

variable {m m' : ChannelMessage}

theorem eq_of_id_eq (hm : m ∈ log.rows)
    (hm' : m' ∈ log.rows) (h : m.id = m'.id) : m = m' :=
  log.messages.eq_of_key_eq hm hm' h

theorem eq_of_seq_eq (hm : m ∈ log.rows)
    (hm' : m' ∈ log.rows) (h : m.seq = m'.seq) : m = m' :=
  log.ranked.eq_of_rank_eq hm hm' h

theorem seq_le_latestSeq {m : ChannelMessage} (hm : m ∈ log.rows) : m.seq ≤ log.latestSeq :=
  log.dense.le hm

end

/-! ### Inserts -/

private theorem maxSeq_append_succ (rows : List ChannelMessage) (m : ChannelMessage)
    (h : m.seq = maxSeq rows + 1) : maxSeq (rows ++ [m]) = maxSeq rows + 1 := by
  have hfold (l : List ℕ) (n : ℕ) : l.foldr max n = max (l.foldr max 0) n := by
    induction l with
    | nil => simp
    | cons a l ih => simp [ih]
  rw [maxSeq, map_append, foldr_append, hfold]
  simp only [map_cons, h]
  exact max_eq_right (Nat.le_succ _)

/-- The log with one more row, under the next sequence number. -/
def push (log : MessageLog) (row : ChannelMessage) (hid : log.messages.find? row.id = none)
    (hseq : row.seq = log.latestSeq + 1)
    (hsource : row.isBridgeRow = true → row.sourceRuntimeId.isSome) : MessageLog where
  messages := log.messages.insert row
  ranked := by
    rw [log.messages.rows_insert_of_new row hid]
    show List.Pairwise _ _
    rw [pairwise_append]
    refine ⟨log.ranked, by simp, fun a ha b hb => ?_⟩
    rw [mem_singleton.mp hb, hseq]
    exact Nat.lt_succ_of_le (log.seq_le_latestSeq ha)
  dense := by
    rw [log.messages.rows_insert_of_new row hid, maxSeq_append_succ log.messages.rows row hseq]
    intro q
    have hq := log.dense q
    simp only [mem_append, mem_singleton, or_and_right, exists_or, exists_eq_left, hq, hseq]
    show (0 < q ∧ q ≤ log.latestSeq) ∨ log.latestSeq + 1 = q ↔ 0 < q ∧ q ≤ log.latestSeq + 1
    omega
  sourced := by
    rw [log.messages.rows_insert_of_new row hid]
    intro m hm hbridge
    rcases mem_append.mp hm with hm | hm
    · exact log.sourced m hm hbridge
    · rw [mem_singleton.mp hm] at hbridge ⊢
      exact hsource hbridge

/-- `INSERT … VALUES (…, (SELECT COALESCE(MAX(seq), 0) + 1 …), …)`; nothing when the id is taken. -/
def insertMessage (log : MessageLog) (draft : ChannelMessage)
    (hsource : draft.isBridgeRow = true → draft.sourceRuntimeId.isSome) :
    Option (MessageLog × ChannelMessage) :=
  if h : log.messages.find? draft.id = none then
    some (log.push { draft with seq := log.latestSeq + 1 } h rfl hsource,
      { draft with seq := log.latestSeq + 1 })
  else none

/-- Input of `appendComplete`. -/
structure AppendInput where
  /-- `createMessageId()`. -/
  id : ChannelMessageId
  kind : ChannelMessageKind := .message
  sender : ChannelSenderRef
  text : String
  mentions : List String := []
  parts : List String := []
  sourceRuntimeId : Option String := none

def appendComplete (log : MessageLog) (now : Timestamp) (input : AppendInput) :
    Option (MessageLog × ChannelMessage) :=
  log.insertMessage
    { id := input.id
      seq := 0
      kind := input.kind
      status := .terminal .complete
      sender := input.sender
      text := input.text
      mentions := input.mentions
      parts := input.parts
      sourceRuntimeId := input.sourceRuntimeId
      agentDetail := none
      agentDetailTerminalAuthority := none
      truncationReason := none
      truncated := false
      editedAt := none
      deletedAt := none
      updatedAt := now
      completedAt := some now }
    (by simp [ChannelMessage.isBridgeRow])

/-- Input of `beginStream`; the source runtime is mandatory. -/
structure BeginStreamInput where
  /-- `createMessageId()`. -/
  id : ChannelMessageId
  sender : ChannelSenderRef
  runtimeId : String
  text : String := ""
  mentions : List String := []
  parts : List String := []
  agentDetail : Option String := none

def beginStream (log : MessageLog) (now : Timestamp) (input : BeginStreamInput) :
    Option (MessageLog × ChannelMessage) :=
  log.insertMessage
    { id := input.id
      seq := 0
      kind := .message
      status := .streaming
      sender := input.sender
      text := input.text
      mentions := input.mentions
      parts := input.parts
      sourceRuntimeId := some input.runtimeId
      agentDetail := input.agentDetail
      agentDetailTerminalAuthority := none
      truncationReason := none
      truncated := false
      editedAt := none
      deletedAt := none
      updatedAt := now
      completedAt := none }
    (by simp)

/-! ### Updates in place -/

/-- A setter that keeps what identifies and classifies a row. -/
structure InPlace (f : ChannelMessage → ChannelMessage) : Prop where
  id : ∀ m, (f m).id = m.id
  seq : ∀ m, (f m).seq = m.seq
  source : ∀ m, (f m).sourceRuntimeId = m.sourceRuntimeId
  /-- No update hands a row to the bridge. -/
  bridge : ∀ m, (f m).isBridgeRow = true → m.isBridgeRow = true

variable {f : ChannelMessage → ChannelMessage} {log log' : MessageLog}
  {draft row m : ChannelMessage} {hsource : draft.isBridgeRow = true → draft.sourceRuntimeId.isSome}
  {id : ChannelMessageId} {now : Timestamp}

private theorem seq_setRow (hf : InPlace f) (id : ChannelMessageId) (m : ChannelMessage) :
    (if decide (m.id = id) then f m else m).seq = m.seq := by
  split
  · exact hf.seq m
  · rfl

/-- `UPDATE channel_messages SET … WHERE id = @id`. -/
def update (log : MessageLog) (id : ChannelMessageId) (f : ChannelMessage → ChannelMessage)
    (hf : InPlace f) : MessageLog :=
  ⟨log.messages.updateWhere (fun m => decide (m.id = id)) f (Table.keyed hf.id),
    by
      rw [Table.rows_updateWhere]
      exact log.ranked.map (seq_setRow hf id), by
      have hseqs : (log.rows.map fun m => if decide (m.id = id) then f m else m).map (·.seq) =
          log.rows.map (·.seq) := by
        rw [map_map]
        exact map_congr_left fun m _ => seq_setRow hf id m
      rw [Table.rows_updateWhere]
      show Spans _ 0 (maxSeq (log.rows.map _)) (log.rows.map _)
      rw [show maxSeq (log.rows.map _) = maxSeq log.rows from congrArg (List.foldr max 0) hseqs]
      apply log.dense.congr
      intro q
      rw [← mem_map, ← mem_map]
      exact iff_of_eq (congrArg (q ∈ ·) hseqs), by
      rw [Table.rows_updateWhere]
      intro m hm hbridge
      obtain ⟨m₀, hm₀, rfl⟩ := mem_map.mp hm
      by_cases hid : m₀.id = id
      · simp only [hid, decide_true, if_true] at hbridge ⊢
        rw [hf.source]
        exact log.sourced m₀ hm₀ (hf.bridge m₀ hbridge)
      · simp only [hid, decide_false, Bool.false_eq_true, if_false] at hbridge ⊢
        exact log.sourced m₀ hm₀ hbridge⟩

/-- The setter of `updateStreamText`. -/
def setStreamText (now : Timestamp) (text : String) (m : ChannelMessage) : ChannelMessage :=
  { m with text := text, updatedAt := now }

section
variable (now : Timestamp)

theorem setStreamText_inPlace (text : String) : InPlace (setStreamText now text) :=
  ⟨fun _ => rfl, fun _ => rfl, fun _ => rfl, fun _ h => h⟩

def updateStreamText (log : MessageLog) (now : Timestamp) (id : ChannelMessageId)
    (text : String) : MessageLog :=
  log.update id (setStreamText now text) (setStreamText_inPlace now text)

/-- The setter of `updateAgentDetail`: `WHERE … AND status = 'streaming'`. -/
def setAgentDetail (now : Timestamp) (detail : String) (m : ChannelMessage) : ChannelMessage :=
  if m.status = .streaming then { m with agentDetail := some detail, updatedAt := now } else m

theorem setAgentDetail_inPlace (detail : String) : InPlace (setAgentDetail now detail) := by
  constructor <;> intro m <;> unfold setAgentDetail <;> split <;> simp [ChannelMessage.isBridgeRow]

def updateAgentDetail (log : MessageLog) (now : Timestamp) (id : ChannelMessageId)
    (detail : String) : MessageLog :=
  log.update id (setAgentDetail now detail) (setAgentDetail_inPlace now detail)

/-- Input of `finalizeStream`. -/
structure FinalizeInput where
  text : String
  status : ChannelTerminalStatus
  agentDetail : Option String := none
  agentDetailTerminalAuthority : Option AgentDetailTerminalAuthority := none
  truncationReason : Option ChannelTruncationReason := none
  truncated : Bool := false

/-- The reason `finalizeStream` records. -/
def FinalizeInput.reason (input : FinalizeInput) : Option ChannelTruncationReason :=
  match input.truncationReason with
  | some reason => some reason
  | none =>
    if input.truncated then some .sizeLimit
    else if input.status = .truncated then some .missingTerminal
    else none

/-- The setter of `finalizeStream`, which has read the row as streaming. -/
def finalizeRow (now : Timestamp) (input : FinalizeInput) (m : ChannelMessage) : ChannelMessage :=
  if m.status = .streaming then
    { m with
      text := input.text
      status := .terminal input.status
      agentDetail := input.agentDetail.or m.agentDetail
      agentDetailTerminalAuthority :=
        input.agentDetailTerminalAuthority.or m.agentDetailTerminalAuthority
      truncationReason := input.reason.or m.truncationReason
      truncated := decide (input.reason = some .sizeLimit)
      updatedAt := now
      completedAt := some now }
  else m

theorem finalizeRow_inPlace (input : FinalizeInput) : InPlace (finalizeRow now input) := by
  constructor <;> intro m <;> unfold finalizeRow <;> split <;>
    simp_all [ChannelMessage.isBridgeRow]

/-- An already-final row is a no-op that returns the row. -/
def finalizeStream (log : MessageLog) (now : Timestamp) (id : ChannelMessageId)
    (input : FinalizeInput) : MessageLog × Option ChannelMessage :=
  match log.getMessage id with
  | none => (log, none)
  | some row =>
    if row.status ≠ .streaming then (log, some row)
    else
      let log' := log.update id (finalizeRow now input) (finalizeRow_inPlace now input)
      (log', log'.getMessage id)

/-- The setter of `resolveProvisionalAgentDetailTerminal`. -/
def resolveProvisionalRow (now : Timestamp) (text : String) (status : ChannelTerminalStatus)
    (agentDetail : String) (m : ChannelMessage) : ChannelMessage :=
  if m.status ≠ .streaming ∧ m.agentDetailTerminalAuthority = some .provisional then
    { m with
      text := text
      status := .terminal status
      agentDetail := some agentDetail
      agentDetailTerminalAuthority := some .explicit
      truncationReason := none
      truncated := false
      updatedAt := now
      completedAt := some now }
  else m

theorem resolveProvisionalRow_inPlace (text : String)
    (status : ChannelTerminalStatus) (agentDetail : String) :
    InPlace (resolveProvisionalRow now text status agentDetail) := by
  constructor <;> intro m <;> unfold resolveProvisionalRow <;> split <;>
    simp_all [ChannelMessage.isBridgeRow]

/-- The corrected row, and whether it was corrected. -/
def resolveProvisionalAgentDetailTerminal (log : MessageLog) (now : Timestamp)
    (id : ChannelMessageId) (text : String) (status : ChannelTerminalStatus)
    (agentDetail : String) : MessageLog × Option ChannelMessage × Bool :=
  match log.getMessage id with
  | none => (log, none, false)
  | some row =>
    if row.agentDetailTerminalAuthority ≠ some .provisional then (log, some row, false)
    else
      let log' := log.update id (resolveProvisionalRow now text status agentDetail)
        (resolveProvisionalRow_inPlace now text status agentDetail)
      (log', log'.getMessage id, decide (row.status ≠ .streaming))

/-- `ChannelMessageStoreError.code` of the two operator writes. -/
inductive ChannelMessageStoreError where
  | channelMessageNotFound
  | channelMessageNotEditable
  | channelMessageBodyEmpty
  | channelMessageNotDeletable

def ownCompletedMessage (m : ChannelMessage) (operatorId : String) : Bool :=
  decide (m.kind = .message) && decide (m.sender.kind = .human) &&
    decide (m.status = .terminal .complete) && decide (m.sender.id = operatorId)

/-- The setter of `editMessage`. -/
def editRow (now : Timestamp) (text : String) (mentions : Option (List String))
    (m : ChannelMessage) : ChannelMessage :=
  { m with
    text := text
    mentions := mentions.getD m.mentions
    editedAt := some now
    updatedAt := now }

theorem editRow_inPlace (text : String) (mentions : Option (List String)) :
    InPlace (editRow now text mentions) :=
  ⟨fun _ => rfl, fun _ => rfl, fun _ => rfl, fun _ h => h⟩

def editMessage (log : MessageLog) (now : Timestamp) (id : ChannelMessageId) (editorId : String)
    (text : String) (mentions : Option (List String)) :
    Except ChannelMessageStoreError (MessageLog × ChannelMessage) :=
  match log.getMessage id with
  | none => .error .channelMessageNotFound
  | some row =>
    if !ownCompletedMessage row editorId || isTombstoneRow row then
      .error .channelMessageNotEditable
    else if text.isEmpty then .error .channelMessageBodyEmpty
    else
      let log' := log.update id (editRow now text mentions) (editRow_inPlace now text mentions)
      match log'.getMessage id with
      | none => .error .channelMessageNotFound
      | some updated => .ok (log', updated)

/-- The setter of `deleteMessage`: the body goes with everything it implied, the row stays. -/
def deleteRow (now : Timestamp) (m : ChannelMessage) : ChannelMessage :=
  { m with
    text := ""
    mentions := []
    parts := []
    editedAt := none
    deletedAt := some now
    updatedAt := now }

theorem deleteRow_inPlace : InPlace (deleteRow now) :=
  ⟨fun _ => rfl, fun _ => rfl, fun _ => rfl, fun _ h => h⟩

end

/-- A second deletion returns the first tombstone. -/
def deleteMessage (log : MessageLog) (now : Timestamp) (id : ChannelMessageId)
    (deleterId : String) : Except ChannelMessageStoreError (MessageLog × ChannelMessage) :=
  match log.getMessage id with
  | none => .error .channelMessageNotFound
  | some row =>
    if isTombstoneRow row then .ok (log, row)
    else if !ownCompletedMessage row deleterId then .error .channelMessageNotDeletable
    else
      let log' := log.update id (deleteRow now) (deleteRow_inPlace now)
      match log'.getMessage id with
      | none => .error .channelMessageNotFound
      | some updated => .ok (log', updated)

/-! ### Reads -/

def channelHistoryDefaultLimit : ℕ := 50

def channelHistoryMaxLimit : ℕ := 200

def cleanLimit (limit : Option ℕ) (maxLimit : ℕ) : ℕ :=
  match limit with
  | none => channelHistoryDefaultLimit
  | some limit => max 1 (min maxLimit limit)

/-- Filter of `history`, without the thread clause. -/
structure ChannelHistoryFilter where
  afterSeq : Option ℕ := none
  beforeSeq : Option ℕ := none
  limit : Option ℕ := none

/-- `afterSeq` pages forward from the cursor; otherwise the newest rows below `beforeSeq`. -/
def history (log : MessageLog) (filter : ChannelHistoryFilter) : List ChannelMessage :=
  let limit := cleanLimit filter.limit channelHistoryMaxLimit
  match filter.afterSeq with
  | some afterSeq => (log.rows.filter fun m => decide (afterSeq < m.seq)).take limit
  | none =>
    match filter.beforeSeq with
    | some beforeSeq => newest limit (log.rows.filter fun m => decide (m.seq < beforeSeq))
    | none => newest limit log.rows

/-- The rows at or below the cursor that may have changed in place, the newest `limit`. -/
def listResyncRows (log : MessageLog) (uptoSeq : ℕ) (limit : ℕ) : List ChannelMessage :=
  newest (max 1 (min 1000 limit))
    (log.rows.filter fun m => decide (m.seq ≤ uptoSeq) && m.isResyncRow)

/-! ## What the writers leave true -/

section
variable (h : log.insertMessage draft hsource = some (log', row))
include h

theorem rows_insertMessage :
    row = { draft with seq := log.latestSeq + 1 } ∧ log'.rows = log.rows ++ [row] ∧
      log.getMessage draft.id = none := by
  unfold insertMessage at h
  split at h
  · rename_i hnone
    injection h with h
    injection h with hlog hrow
    subst hlog
    subst hrow
    exact ⟨rfl, log.messages.rows_insert_of_new _ hnone, hnone⟩
  · cases h

theorem mem_insertMessage : row ∈ log'.rows := by
  rw [(rows_insertMessage h).2.1]
  exact mem_append_right _ (mem_singleton.mpr rfl)

theorem latestSeq_insertMessage : log'.latestSeq = log.latestSeq + 1 := by
  obtain ⟨hrow, hrows, -⟩ := rows_insertMessage h
  rw [latestSeq, hrows]
  exact maxSeq_append_succ _ _ (by rw [hrow]; rfl)

end

section
variable (log : MessageLog) (id : ChannelMessageId) (f : ChannelMessage → ChannelMessage)

theorem rows_update (hf : InPlace f) :
    (log.update id f hf).rows = log.rows.map fun m => if m.id = id then f m else m := by
  show List.map (fun m => if decide (m.id = id) then f m else m) log.rows = _
  simp only [decide_eq_true_eq]

theorem latestSeq_update (hf : InPlace f) : (log.update id f hf).latestSeq = log.latestSeq := by
  rw [latestSeq, maxSeq, rows_update, map_map]
  refine congrArg (List.foldr max 0) (map_congr_left fun m _ => ?_)
  show (if m.id = id then f m else m).seq = m.seq
  split
  · exact hf.seq m
  · rfl

theorem getMessage_update (hf : InPlace f) (id' : ChannelMessageId) :
    (log.update id f hf).getMessage id' =
      (log.getMessage id').map fun m => if m.id = id then f m else m := by
  rw [getMessage, update, Table.find?_updateWhere]
  simp only [decide_eq_true_eq]
  rfl

end

/-- A message handed out for a row of the log: it has the row's id and number, and it still is
    the row unless a writer has marked the row as changeable in place. -/
def VersionOf (log : MessageLog) (m : ChannelMessage) : Prop :=
  ∃ r ∈ log.rows, r.id = m.id ∧ r.seq = m.seq ∧ (r.isResyncRow = false → r = m)

theorem versionOf_of_mem (log : MessageLog) {m : ChannelMessage} (hm : m ∈ log.rows) :
    log.VersionOf m :=
  ⟨m, hm, rfl, rfl, fun _ => rfl⟩

theorem VersionOf.seq_le (h : log.VersionOf m) : m.seq ≤ log.latestSeq := by
  obtain ⟨r, hr, -, hseq, -⟩ := h
  exact hseq ▸ log.seq_le_latestSeq hr

theorem VersionOf.seq_pos (h : log.VersionOf m) : 0 < m.seq := by
  obtain ⟨r, hr, -, hseq, -⟩ := h
  exact hseq ▸ log.dense.lt hr

theorem VersionOf.id_eq_iff {m' : ChannelMessage} (h : log.VersionOf m)
    (h' : log.VersionOf m') : m.id = m'.id ↔ m.seq = m'.seq := by
  obtain ⟨r, hr, hid, hseq, -⟩ := h
  obtain ⟨r', hr', hid', hseq', -⟩ := h'
  rw [← hid, ← hid', ← hseq, ← hseq']
  constructor
  · intro heq
    rw [log.eq_of_id_eq hr hr' heq]
  · intro heq
    rw [log.eq_of_seq_eq hr hr' heq]

/-- What every writer leaves true of the log and of the messages handed out before. -/
structure Advances (log log' : MessageLog) : Prop where
  latestSeq_le : log.latestSeq ≤ log'.latestSeq
  version : ∀ m, log.VersionOf m → log'.VersionOf m

theorem Advances.refl (log : MessageLog) : log.Advances log :=
  ⟨le_rfl, fun _ h => h⟩

theorem Advances.trans {log₁ log₂ log₃ : MessageLog} (h : log₁.Advances log₂)
    (h' : log₂.Advances log₃) : log₁.Advances log₃ :=
  ⟨h.latestSeq_le.trans h'.latestSeq_le, fun m hm => h'.version m (h.version m hm)⟩

theorem advances_insertMessage
    (h : log.insertMessage draft hsource = some (log', row)) : log.Advances log' := by
  refine ⟨?_, fun m hm => ?_⟩
  · rw [latestSeq_insertMessage h]
    exact Nat.le_succ _
  · obtain ⟨r, hr, hid, hseq, hsame⟩ := hm
    refine ⟨r, ?_, hid, hseq, hsame⟩
    rw [(rows_insertMessage h).2.1]
    exact mem_append_left _ hr

theorem advances_update (hf : InPlace f)
    (hmark : ∀ m ∈ log.rows, m.id = id → (f m).isResyncRow = false → f m = m) :
    log.Advances (log.update id f hf) := by
  refine ⟨(latestSeq_update log id f hf).ge, fun m hm => ?_⟩
  obtain ⟨r, hr, hid, hseq, hsame⟩ := hm
  refine ⟨if r.id = id then f r else r, ?_, ?_, ?_, ?_⟩
  · rw [rows_update]
    exact mem_map.mpr ⟨r, hr, rfl⟩
  · split
    · rw [hf.id, hid]
    · exact hid
  · split
    · rw [hf.seq, hseq]
    · exact hseq
  · split
    · rename_i hrid
      intro hplain
      have hfr := hmark r hr hrid hplain
      rw [hfr] at hplain ⊢
      exact hsame hplain
    · exact hsame

theorem isResyncRow_of_source (h : m.sourceRuntimeId.isSome) : m.isResyncRow = true := by
  simp [ChannelMessage.isResyncRow, h]

theorem isResyncRow_of_streaming (log : MessageLog) {m : ChannelMessage} (hm : m ∈ log.rows)
    (h : m.status = .streaming) : m.isResyncRow = true :=
  isResyncRow_of_source (log.sourced m hm (by simp [ChannelMessage.isBridgeRow, h]))

theorem advances_update_of_source (hf : InPlace f)
    (hsource : ∀ m ∈ log.rows, m.id = id → m.sourceRuntimeId.isSome) :
    log.Advances (log.update id f hf) := by
  apply advances_update hf
  intro m hm hid hplain
  have hmarked : (f m).isResyncRow = true :=
    isResyncRow_of_source (by rw [hf.source]; exact hsource m hm hid)
  rw [hmarked] at hplain
  cases hplain

theorem source_of_streaming (hget : log.getMessage id = some row) (h : row.status = .streaming) :
    ∀ m ∈ log.rows, m.id = id → m.sourceRuntimeId.isSome := by
  intro m hm hid
  obtain ⟨hrow, hrid⟩ := (log.getMessage_eq_some_iff _ _).mp hget
  rw [log.eq_of_id_eq hm hrow (hid.trans hrid.symm)]
  exact log.sourced row hrow (by simp [ChannelMessage.isBridgeRow, h])

theorem VersionOf.setText (h : log.VersionOf m)
    (hstreaming : m.status = .streaming) (text : String) :
    log.VersionOf { m with text := text } := by
  obtain ⟨r, hr, hid, hseq, hsame⟩ := h
  refine ⟨r, hr, hid, hseq, fun hplain => ?_⟩
  have hmarked := isResyncRow_of_streaming log hr (by rw [hsame hplain]; exact hstreaming)
  rw [hmarked] at hplain
  cases hplain

theorem advances_updateStreamText (now : Timestamp)
    {id : ChannelMessageId} (text : String) (hget : log.getMessage id = some row)
    (h : row.status = .streaming) : log.Advances (log.updateStreamText now id text) :=
  advances_update_of_source _ (source_of_streaming hget h)

section
variable (log : MessageLog) (now : Timestamp) (id : ChannelMessageId)

theorem advances_updateAgentDetail
    (detail : String) : log.Advances (log.updateAgentDetail now id detail) := by
  apply advances_update (setAgentDetail_inPlace now detail)
  intro m hm hid hplain
  unfold setAgentDetail at hplain ⊢
  split
  · rename_i hstreaming
    rw [if_pos hstreaming] at hplain
    have hmarked := isResyncRow_of_streaming log hm hstreaming
    simp only [ChannelMessage.isResyncRow] at hmarked hplain
    rw [hmarked] at hplain
    cases hplain
  · rfl

variable (input : FinalizeInput)

theorem finalizeStream_cases :
    (∃ row, log.getMessage id = some row ∧ row.status = .streaming ∧
      (log.finalizeStream now id input).1 =
        log.update id (finalizeRow now input) (finalizeRow_inPlace now input) ∧
      (log.finalizeStream now id input).2 = some (finalizeRow now input row)) ∨
    (log.finalizeStream now id input).1 = log ∧
      (log.finalizeStream now id input).2 = log.getMessage id ∧
      ∀ row, log.getMessage id = some row → row.status ≠ .streaming := by
  unfold finalizeStream
  cases hget : log.getMessage id with
  | none => exact .inr ⟨rfl, rfl, fun _ h => by cases h⟩
  | some row =>
    by_cases hstreaming : row.status = .streaming
    · refine .inl ⟨row, rfl, hstreaming, ?_⟩
      dsimp only
      rw [if_neg (not_not_intro hstreaming)]
      refine ⟨rfl, ?_⟩
      have hid : row.id = id := ((log.getMessage_eq_some_iff _ _).mp hget).2
      simp [getMessage_update, hget, hid]
    · refine .inr ?_
      dsimp only
      rw [if_pos hstreaming]
      refine ⟨rfl, rfl, fun row' h => ?_⟩
      injection h with h
      exact h ▸ hstreaming

theorem advances_finalizeStream : log.Advances (log.finalizeStream now id input).1 := by
  rcases finalizeStream_cases log now id input with ⟨row, hget, hrow, hlog, -⟩ | ⟨hlog, -, -⟩
  · rw [hlog]
    exact advances_update_of_source _ (source_of_streaming hget hrow)
  · rw [hlog]
    exact .refl log

end

theorem mem_of_getMessage (h : log.getMessage id = some m) : m ∈ log.rows :=
  ((log.getMessage_eq_some_iff _ _).mp h).1

theorem mem_finalizeStream {input : FinalizeInput}
    (h : (log.finalizeStream now id input).2 = some m) :
    m ∈ (log.finalizeStream now id input).1.rows ∧ m.status ≠ .streaming := by
  rcases finalizeStream_cases log now id input with
    ⟨row, hget, hrow, hlog, hret⟩ | ⟨hlog, hret, hfinal⟩
  · rw [hret] at h
    injection h with h
    subst h
    obtain ⟨hmem, hid⟩ := (log.getMessage_eq_some_iff _ _).mp hget
    refine ⟨?_, by simp [finalizeRow, hrow]⟩
    rw [hlog, rows_update]
    exact mem_map.mpr ⟨row, hmem, by rw [if_pos hid]⟩
  · rw [hret] at h
    rw [hlog]
    exact ⟨mem_of_getMessage h, hfinal m h⟩

theorem advances_resolveProvisional (log : MessageLog) (now : Timestamp) (id : ChannelMessageId)
    (text : String) (status : ChannelTerminalStatus) (agentDetail : String) :
    log.Advances (log.resolveProvisionalAgentDetailTerminal now id text status agentDetail).1 := by
  unfold resolveProvisionalAgentDetailTerminal
  cases hget : log.getMessage id with
  | none => exact .refl log
  | some row =>
    dsimp only
    split
    · exact .refl log
    · rename_i hprov
      refine advances_update_of_source (resolveProvisionalRow_inPlace _ _ _ _) (fun m hm hid => ?_)
      obtain ⟨hrow, hrid⟩ := (log.getMessage_eq_some_iff _ _).mp hget
      rw [log.eq_of_id_eq hm hrow (hid.trans hrid.symm)]
      exact log.sourced row hrow (by simp [ChannelMessage.isBridgeRow, not_not.mp hprov])

theorem mem_resolveProvisional {text : String} {status : ChannelTerminalStatus}
    {agentDetail : String}
    (h : (log.resolveProvisionalAgentDetailTerminal now id text status agentDetail).2.1 = some m) :
    m ∈ (log.resolveProvisionalAgentDetailTerminal now id text status agentDetail).1.rows := by
  unfold resolveProvisionalAgentDetailTerminal at h ⊢
  cases hget : log.getMessage id with
  | none => rw [hget] at h; cases h
  | some row =>
    rw [hget] at h
    dsimp only at h ⊢
    split
    · rename_i hprov
      rw [if_pos hprov] at h
      injection h with h
      exact h ▸ mem_of_getMessage hget
    · rename_i hprov
      rw [if_neg hprov] at h
      exact mem_of_getMessage h

theorem editMessage_ok {editorId text : String} {mentions : Option (List String)}
    (h : log.editMessage now id editorId text mentions = .ok (log', m)) :
    log.Advances log' ∧ m ∈ log'.rows := by
  unfold editMessage at h
  split at h
  · cases h
  · split at h
    · cases h
    · split at h
      · cases h
      · dsimp only at h
        split at h
        · cases h
        · rename_i hget
          injection h with h
          injection h with hlog hm
          subst hlog
          subst hm
          refine ⟨advances_update (editRow_inPlace _ _ _) fun m _ _ hplain => ?_, mem_of_getMessage hget⟩
          simp [ChannelMessage.isResyncRow, editRow] at hplain

theorem deleteMessage_ok {deleterId : String}
    (h : log.deleteMessage now id deleterId = .ok (log', m)) :
    log.Advances log' ∧ m ∈ log'.rows := by
  unfold deleteMessage at h
  split at h
  · cases h
  · rename_i row hget
    split at h
    · injection h with h
      injection h with hlog hm
      subst hlog
      subst hm
      exact ⟨.refl log, mem_of_getMessage hget⟩
    · split at h
      · cases h
      · dsimp only at h
        split at h
        · cases h
        · rename_i hget
          injection h with h
          injection h with hlog hm
          subst hlog
          subst hm
          refine ⟨advances_update (deleteRow_inPlace _) fun m _ _ hplain => ?_, mem_of_getMessage hget⟩
          simp [ChannelMessage.isResyncRow, deleteRow] at hplain

/-! ## What the reads return -/

section
variable (log : MessageLog)

variable (uptoSeq limit : ℕ)

theorem mem_listResyncRows_iff (m : ChannelMessage) :
    m ∈ log.listResyncRows uptoSeq limit ↔
      (m ∈ log.rows ∧ m.seq ≤ uptoSeq ∧ m.isResyncRow = true) ∧
        ((log.rows.filter fun r =>
          decide (r.seq ≤ uptoSeq) && r.isResyncRow && decide (m.seq ≤ r.seq)).length ≤
          max 1 (min 1000 limit)) := by
  have hranked : Ranked ChannelMessage.seq
      (log.rows.filter fun m => decide (m.seq ≤ uptoSeq) && m.isResyncRow) :=
    log.ranked.filter _
  rw [listResyncRows, mem_newest_iff hranked, filter_filter]
  simp only [mem_filter, Bool.and_eq_true, decide_eq_true_eq, Bool.and_comm]

theorem ranked_listResyncRows :
    Ranked ChannelMessage.seq (log.listResyncRows uptoSeq limit) :=
  (log.ranked.filter _).sublist (newest_suffix _ _).sublist

theorem history_before_suffix (beforeSeq limit : ℕ) :
    log.history { beforeSeq := some beforeSeq, limit := some limit } <:+
      log.rows.filter fun m => decide (m.seq < beforeSeq) :=
  newest_suffix _ _

theorem history_newest_suffix (limit : ℕ) : log.history { limit := some limit } <:+ log.rows :=
  newest_suffix _ _

end

end MessageLog

end RelayIde.Channel
