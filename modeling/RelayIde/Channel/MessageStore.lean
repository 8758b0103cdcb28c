import RelayIde.Channel.MessageLog
import RelayIde.Library.Machine
import RelayIde.Library.Text

/-!
# Message Store

The `channel_messages` table with all its channels (`server/channel-message-store.ts`).  Two
paths insert rows and allocate `seq` from the table's maximum: `appendComplete`, deduplicated by
the client's message id, and `beginStream`, deduplicated by the runtime's source triple.  Every
other writer updates one row in place.

The main theorem is the sequence-log contract over every order of writes: gap-free numbers per
channel, flat threads, immutable row identity, and replays that write nothing.
-/

open List

namespace RelayIde.Channel

open RelayIde.Library
open RelayIde.Library.Text (isSpace slice16 length16)
open MessageLog (InPlace FinalizeInput ownCompletedMessage setStreamText setAgentDetail finalizeRow
  resolveProvisionalRow editRow deleteRow)

/-! ## Tables -/

/-- A row of `channel_messages`. -/
structure MessageRow extends ChannelMessage where
  channelId : String
  threadId : Option ChannelMessageId
  parentMessageId : Option ChannelMessageId
  sourceTurnId : Option String
  sourceItemId : Option String
  clientMessageId : Option String
  createdAt : Timestamp

/-- `id TEXT PRIMARY KEY`. -/
def MessageRow.key (r : MessageRow) : ChannelMessageId := r.id

/-- A row of `channel_threads`. -/
structure ThreadRow where
  channelId : String
  rootMessageId : ChannelMessageId
  title : String
  createdAt : Timestamp
  updatedAt : Timestamp

/-- `PRIMARY KEY (channel_id, root_message_id)`. -/
def ThreadRow.key (r : ThreadRow) : String × ChannelMessageId := (r.channelId, r.rootMessageId)

structure MessageStore where
  messages : Table MessageRow.key
  threads : Table ThreadRow.key

inductive StoreError where
  | bodyTooLarge
  | agentDetailTooLarge
  | payloadTooLarge
  | partsInvalid
  | parentMessageNotFound
  | parentChannelMismatch
  | seqConflict
  | threadRootNotFound
  | threadTitleEmpty
  | threadTitleTooLong
  | messageNotFound
  | messageNotEditable
  | messageBodyEmpty
  | messageNotDeletable

namespace MessageStore

/-- The store of a fresh database. -/
def empty : MessageStore := ⟨.empty, .empty⟩

def selectById (s : MessageStore) (id : ChannelMessageId) : Option MessageRow :=
  s.messages.find? id

def channelRows (s : MessageStore) (channelId : String) : List MessageRow :=
  s.messages.rows.filter (fun r => r.channelId == channelId)

/-- `SELECT COALESCE(MAX(seq), 0) FROM channel_messages WHERE channel_id = @channelId`. -/
def latestSeq (s : MessageStore) (channelId : String) : ℕ :=
  ((s.channelRows channelId).map (·.seq)).foldr max 0

def selectByClientId (s : MessageStore) (channelId senderId clientMessageId : String) :
    Option MessageRow :=
  s.messages.rows.find? (fun r => r.channelId == channelId && r.sender.id == senderId &&
    r.clientMessageId == some clientMessageId)

/-- `selectBySource`: the columns are compared with `IS`, so an absent id matches an absent id. -/
def selectBySource (s : MessageStore) (runtimeId turnId itemId : Option String) :
    Option MessageRow :=
  s.messages.rows.find? (fun r => r.sourceRuntimeId == runtimeId && r.sourceTurnId == turnId &&
    r.sourceItemId == itemId)

/-! ## Payload checks -/

def channelMessageBodyMaxBytes : ℕ := 256 * 1024

def channelAgentDetailMaxBytes : ℕ := 256 * 1024

def channelMessageMaxImageParts : ℕ := 4

/-- The size of an agent detail, which is stored as its JSON text. -/
def detailBytes (detail : Option String) : ℕ :=
  (detail.map (·.utf8ByteSize)).getD 0

def assertMessagePayloadSize (text : String) (detail : Option String) : Except StoreError Unit :=
  if text.utf8ByteSize > channelMessageBodyMaxBytes then .error .bodyTooLarge
  else if detailBytes detail > channelAgentDetailMaxBytes then .error .agentDetailTooLarge
  else if text.utf8ByteSize + detailBytes detail > channelMessageBodyMaxBytes then
    .error .payloadTooLarge
  else .ok ()

def assertMessageParts (parts : List String) : Except StoreError Unit :=
  if parts.length > channelMessageMaxImageParts then .error .partsInvalid else .ok ()

/-- The checks both inserting paths run on their input. -/
def assertPayload (text : String) (detail : Option String) (parts : List String) :
    Except StoreError Unit :=
  match assertMessagePayloadSize text detail with
  | .error e => .error e
  | .ok () => assertMessageParts parts

/-! ## Threads -/

def resolveThread (s : MessageStore) (channelId : String) (parentMessageId : Option String) :
    Except StoreError (Option ChannelMessageId) :=
  -- an empty parent id is falsy, like an absent one
  match parentMessageId.filter (· ≠ "") with
  | none => .ok none
  | some parentMessageId =>
    match s.selectById parentMessageId with
    | none => .error .parentMessageNotFound
    | some parent =>
      if parent.channelId ≠ channelId then .error .parentChannelMismatch
      else .ok (some (parent.threadId.getD parent.id))

def channelThreadTitleMaxChars : ℕ := 160

def defaultThreadTitle : String := "untitled conversation"

/-- The words of a text: its maximal runs of characters that are no white space. -/
def words (s : String) : List (List Char) :=
  (s.toList.splitOnP isSpace).filter (· ≠ [])

/-- `replace(/\s+/g, ' ').trim()`. -/
def compact (s : String) : String :=
  " ".intercalate ((words s).map String.ofList)

def threadTitleFromRoot (root : MessageRow) : String :=
  let title := slice16 channelThreadTitleMaxChars (compact root.text)
  if title = "" then defaultThreadTitle else title

def normalizeThreadTitle (title : String) : Except StoreError String :=
  if compact title = "" then .error .threadTitleEmpty
  else if length16 (compact title) > channelThreadTitleMaxChars then .error .threadTitleTooLong
  else .ok (compact title)

/-- Claim a root exactly once when it first becomes a real thread. -/
def ensureThreadRecord (s : MessageStore) (channelId : String) (rootMessageId : ChannelMessageId) :
    Except StoreError MessageStore :=
  match s.selectById rootMessageId with
  | none => .error .threadRootNotFound
  | some root =>
    if root.channelId ≠ channelId ∨ root.threadId ≠ none then .error .threadRootNotFound
    else
      let thread : ThreadRow :=
        { channelId := channelId
          rootMessageId := rootMessageId
          title := threadTitleFromRoot root
          createdAt := root.createdAt
          updatedAt := root.updatedAt }
      .ok ⟨s.messages, s.threads.insert thread⟩

def touchThreadRecord (s : MessageStore) (channelId : String) (rootMessageId : ChannelMessageId)
    (updatedAt : Timestamp) : Except StoreError MessageStore :=
  match s.ensureThreadRecord channelId rootMessageId with
  | .error e => .error e
  | .ok s' =>
    let touched := s'.threads.updateWhere (fun t => decide (t.key = (channelId, rootMessageId)))
      (fun t => { t with updatedAt := max t.updatedAt updatedAt }) (Table.keyed fun _ => rfl)
    .ok ⟨s'.messages, touched⟩

/-! ## Inserting paths -/

/-- `idx_chm_client_dedupe` rejects the row. -/
def clientTaken (s : MessageStore) (row : MessageRow) : Bool :=
  row.clientMessageId.isSome &&
    s.messages.rows.any (fun r => r.channelId == row.channelId && r.sender.id == row.sender.id &&
      r.clientMessageId == row.clientMessageId)

/-- `idx_chm_source_dedupe` rejects the row. -/
def sourceTaken (s : MessageStore) (row : MessageRow) : Bool :=
  row.sourceRuntimeId.isSome && row.sourceTurnId.isSome && row.sourceItemId.isSome &&
    s.messages.rows.any (fun r => r.sourceRuntimeId == row.sourceRuntimeId &&
      r.sourceTurnId == row.sourceTurnId && r.sourceItemId == row.sourceItemId)

/-- `insertRow`: `seq` is one more than the channel's maximum; a taken id or dedupe key is a
    conflict. -/
def insertRow (s : MessageStore) (draft : MessageRow) :
    Except StoreError (MessageStore × MessageRow) :=
  let row := { draft with seq := s.latestSeq draft.channelId + 1 }
  if (s.selectById row.id).isSome || s.clientTaken row || s.sourceTaken row then
    .error .seqConflict
  else .ok ({ s with messages := s.messages.insert row }, row)

/-- `insertSourceRow`: `ON CONFLICT` on the source triple `DO NOTHING`, and the stored row is
    returned. -/
def insertSourceRow (s : MessageStore) (draft : MessageRow) :
    Except StoreError (MessageStore × MessageRow) :=
  if s.sourceTaken draft then
    match s.selectBySource draft.sourceRuntimeId draft.sourceTurnId draft.sourceItemId with
    | some existing => .ok (s, existing)
    | none => .error .seqConflict
  else s.insertRow draft

/-- A reply moves the record of its thread. -/
def claimThread (s : MessageStore) (now : Timestamp) (channelId : String)
    (threadId : Option ChannelMessageId) (row : MessageRow) :
    MessageStore × Except StoreError MessageRow :=
  match threadId with
  | none => (s, .ok row)
  | some root =>
    match s.touchThreadRecord channelId root now with
    | .ok s' => (s', .ok row)
    | .error e => (s, .error e)

structure AppendCompleteInput where
  /-- `createMessageId()`. -/
  id : ChannelMessageId
  channelId : String
  kind : ChannelMessageKind
  sender : ChannelSenderRef
  text : String
  parentMessageId : Option ChannelMessageId
  clientMessageId : Option String
  mentions : List String
  parts : List String
  /-- `meta.agentDetail`. -/
  agentDetail : Option String
  /-- `source.runtimeId`. -/
  sourceRuntimeId : Option String

def AppendCompleteInput.draft (input : AppendCompleteInput) (now : Timestamp)
    (threadId : Option ChannelMessageId) : MessageRow :=
  { id := input.id
    seq := 0
    kind := input.kind
    status := .terminal .complete
    sender := input.sender
    text := input.text
    mentions := input.mentions
    parts := input.parts
    sourceRuntimeId := input.sourceRuntimeId
    agentDetail := input.agentDetail
    agentDetailTerminalAuthority := none
    truncationReason := none
    truncated := false
    editedAt := none
    deletedAt := none
    updatedAt := now
    completedAt := some now
    channelId := input.channelId
    threadId := threadId
    parentMessageId := input.parentMessageId
    sourceTurnId := none
    sourceItemId := none
    clientMessageId := input.clientMessageId
    createdAt := now }

/-- The stored row an append repeats.  An empty client id is falsy and never looked up. -/
def AppendCompleteInput.replayed (input : AppendCompleteInput) (s : MessageStore) :
    Option MessageRow :=
  (input.clientMessageId.filter (· ≠ "")).bind
    (fun clientMessageId => s.selectByClientId input.channelId input.sender.id clientMessageId)

/-- A row that is final from the start, unless it replays one. -/
def appendComplete (s : MessageStore) (now : Timestamp) (input : AppendCompleteInput) :
    MessageStore × Except StoreError MessageRow :=
  match assertPayload input.text input.agentDetail input.parts with
  | .error e => (s, .error e)
  | .ok () =>
    match input.replayed s with
    | some existing => (s, .ok existing)
    | none =>
      match s.resolveThread input.channelId input.parentMessageId with
      | .error e => (s, .error e)
      | .ok threadId =>
        match s.insertRow (input.draft now threadId) with
        | .error e => (s, .error e)
        | .ok (s', row) => s'.claimThread now input.channelId threadId row

/-- The message half of `appendCompleteWithAsyncRun`, which looks the client id up first.  It is
    one transaction, so an error leaves the store as it was. -/
def appendCompleteWithAsyncRun (s : MessageStore) (now : Timestamp) (input : AppendCompleteInput) :
    MessageStore × Except StoreError MessageRow :=
  match input.replayed s with
  | some existing => (s, .ok existing)
  | none =>
    match s.appendComplete now input with
    | (s', .ok row) => (s', .ok row)
    | (_, .error e) => (s, .error e)

/-- `createThread`: a root without prose and its thread record. -/
def createThread (s : MessageStore) (now : Timestamp) (id : ChannelMessageId) (channelId : String)
    (title : String) : MessageStore × Except StoreError MessageRow :=
  match normalizeThreadTitle title with
  | .error e => (s, .error e)
  | .ok title =>
    match s.appendComplete now
      { id := id
        channelId := channelId
        kind := .system
        sender := { kind := .system, id := "system" }
        text := "conversation created"
        parentMessageId := none
        clientMessageId := none
        mentions := []
        parts := []
        agentDetail := none
        sourceRuntimeId := none } with
    | (s', .error e) => (s', .error e)
    | (s', .ok root) =>
      let thread : ThreadRow :=
        { channelId := channelId, rootMessageId := root.id, title := title, createdAt := now,
          updatedAt := now }
      (⟨s'.messages, s'.threads.insert thread⟩, .ok root)

structure BeginStreamInput where
  /-- `createMessageId()`. -/
  id : ChannelMessageId
  channelId : String
  sender : ChannelSenderRef
  runtimeId : String
  turnId : Option String
  itemId : Option String
  text : String
  parentMessageId : Option ChannelMessageId
  mentions : List String
  parts : List String
  agentDetail : Option String

def BeginStreamInput.draft (input : BeginStreamInput) (now : Timestamp)
    (threadId : Option ChannelMessageId) : MessageRow :=
  { id := input.id
    seq := 0
    kind := .message
    status := .streaming
    sender := input.sender
    text := input.text
    mentions := input.mentions
    parts := input.parts
    sourceRuntimeId := some input.runtimeId
    agentDetail := input.agentDetail
    agentDetailTerminalAuthority := none
    truncationReason := none
    truncated := false
    editedAt := none
    deletedAt := none
    updatedAt := now
    completedAt := none
    channelId := input.channelId
    threadId := threadId
    parentMessageId := input.parentMessageId
    sourceTurnId := input.turnId
    sourceItemId := input.itemId
    clientMessageId := none
    createdAt := now }

/-- A streaming row, unless its item has one. -/
def beginStream (s : MessageStore) (now : Timestamp) (input : BeginStreamInput) :
    MessageStore × Except StoreError MessageRow :=
  match s.selectBySource (some input.runtimeId) input.turnId input.itemId with
  | some existing => (s, .ok existing)
  | none =>
    match assertPayload input.text input.agentDetail input.parts with
    | .error e => (s, .error e)
    | .ok () =>
      match s.resolveThread input.channelId input.parentMessageId with
      | .error e => (s, .error e)
      | .ok threadId =>
        match s.insertSourceRow (input.draft now threadId) with
        | .error e => (s, .error e)
        | .ok (s', row) => s'.claimThread now input.channelId threadId row

/-! ## Updates in place -/

/-- `UPDATE channel_messages SET … WHERE id = @id`. -/
def updateRow (s : MessageStore) (id : ChannelMessageId) (f : ChannelMessage → ChannelMessage)
    (hf : ∀ m, (f m).id = m.id) : MessageStore :=
  ⟨s.messages.updateWhere (fun r => decide (r.id = id))
    (fun r => { r with toChannelMessage := f r.toChannelMessage })
    (Table.keyed fun r => hf r.toChannelMessage), s.threads⟩

def updateStreamText (s : MessageStore) (now : Timestamp) (id : ChannelMessageId)
    (text : String) : MessageStore × Except StoreError (Option MessageRow) :=
  match s.selectById id with
  | none => (s, .ok none)
  | some row =>
    match assertMessagePayloadSize text row.agentDetail with
    | .error e => (s, .error e)
    | .ok () =>
      let s' := s.updateRow id (setStreamText now text) (fun _ => rfl)
      (s', .ok (s'.selectById id))

def updateAgentDetail (s : MessageStore) (now : Timestamp) (id : ChannelMessageId)
    (detail : String) : MessageStore × Except StoreError (Option MessageRow) :=
  match s.selectById id with
  | none => (s, .ok none)
  | some row =>
    match assertMessagePayloadSize row.text (some detail) with
    | .error e => (s, .error e)
    | .ok () =>
      let s' := s.updateRow id (setAgentDetail now detail)
        (MessageLog.setAgentDetail_inPlace now detail).id
      (s', .ok (s'.selectById id))

/-- The corrected row, and whether it was corrected. -/
def resolveProvisionalAgentDetailTerminal (s : MessageStore) (now : Timestamp)
    (id : ChannelMessageId) (text : String) (status : ChannelTerminalStatus)
    (agentDetail : String) : MessageStore × Except StoreError (Option MessageRow × Bool) :=
  match s.selectById id with
  | none => (s, .ok (none, false))
  | some row =>
    if row.agentDetailTerminalAuthority ≠ some .provisional then (s, .ok (some row, false))
    else
      match assertMessagePayloadSize text (some agentDetail) with
      | .error e => (s, .error e)
      | .ok () =>
        let s' := s.updateRow id (resolveProvisionalRow now text status agentDetail)
          (MessageLog.resolveProvisionalRow_inPlace now text status agentDetail).id
        (s', .ok (s'.selectById id, decide (row.status ≠ .streaming)))

/-- A streaming row takes its final text; any other row stays. -/
def finalizeStream (s : MessageStore) (now : Timestamp) (id : ChannelMessageId)
    (input : FinalizeInput) : MessageStore × Except StoreError (Option MessageRow) :=
  match s.selectById id with
  | none => (s, .ok none)
  | some row =>
    if row.status ≠ .streaming then (s, .ok (some row))
    else
      match assertMessagePayloadSize input.text (input.agentDetail.or row.agentDetail) with
      | .error e => (s, .error e)
      | .ok () =>
        let s' := s.updateRow id (finalizeRow now input)
          (MessageLog.finalizeRow_inPlace now input).id
        (s', .ok (s'.selectById id))

/-- A message of another channel is reported as absent. -/
def editMessage (s : MessageStore) (now : Timestamp) (channelId : String) (id : ChannelMessageId)
    (editorId : String) (text : String) (mentions : Option (List String)) :
    MessageStore × Except StoreError MessageRow :=
  match (s.selectById id).filter (fun row => row.channelId = channelId) with
  | none => (s, .error .messageNotFound)
  | some row =>
    if !ownCompletedMessage row.toChannelMessage editorId ||
        isTombstoneRow row.toChannelMessage then (s, .error .messageNotEditable)
    else if text = "" then (s, .error .messageBodyEmpty)
    else
      match assertMessagePayloadSize text row.agentDetail with
      | .error e => (s, .error e)
      | .ok () =>
        let s' := s.updateRow id (editRow now text mentions) (fun _ => rfl)
        (s', match s'.selectById id with
          | some updated => .ok updated
          | none => .error .messageNotFound)

/-- A second deletion returns the first tombstone. -/
def deleteMessage (s : MessageStore) (now : Timestamp) (channelId : String)
    (id : ChannelMessageId) (deleterId : String) : MessageStore × Except StoreError MessageRow :=
  match (s.selectById id).filter (fun row => row.channelId = channelId) with
  | none => (s, .error .messageNotFound)
  | some row =>
    if isTombstoneRow row.toChannelMessage then (s, .ok row)
    else if !ownCompletedMessage row.toChannelMessage deleterId then
      (s, .error .messageNotDeletable)
    else
      let s' := s.updateRow id (deleteRow now) (fun _ => rfl)
      (s', match s'.selectById id with
        | some updated => .ok updated
        | none => .error .messageNotFound)

end MessageStore

inductive MessageOp where
  | appendComplete (now : Timestamp) (input : MessageStore.AppendCompleteInput)
  | appendCompleteWithAsyncRun (now : Timestamp) (input : MessageStore.AppendCompleteInput)
  | createThread (now : Timestamp) (id : ChannelMessageId) (channelId title : String)
  | beginStream (now : Timestamp) (input : MessageStore.BeginStreamInput)
  | updateStreamText (now : Timestamp) (id : ChannelMessageId) (text : String)
  | updateAgentDetail (now : Timestamp) (id : ChannelMessageId) (detail : String)
  | resolveProvisional (now : Timestamp) (id : ChannelMessageId) (text : String)
      (status : ChannelTerminalStatus) (agentDetail : String)
  | finalizeStream (now : Timestamp) (id : ChannelMessageId) (input : FinalizeInput)
  | editMessage (now : Timestamp) (channelId : String) (id : ChannelMessageId) (editorId : String)
      (text : String) (mentions : Option (List String))
  | deleteMessage (now : Timestamp) (channelId : String) (id : ChannelMessageId)
      (deleterId : String)

def MessageStore.step (s : MessageStore) : MessageOp → MessageStore
  | .appendComplete now input => (s.appendComplete now input).1
  | .appendCompleteWithAsyncRun now input => (s.appendCompleteWithAsyncRun now input).1
  | .createThread now id channelId title => (s.createThread now id channelId title).1
  | .beginStream now input => (s.beginStream now input).1
  | .updateStreamText now id text => (s.updateStreamText now id text).1
  | .updateAgentDetail now id detail => (s.updateAgentDetail now id detail).1
  | .resolveProvisional now id text status agentDetail =>
    (s.resolveProvisionalAgentDetailTerminal now id text status agentDetail).1
  | .finalizeStream now id input => (s.finalizeStream now id input).1
  | .editMessage now channelId id editorId text mentions =>
    (s.editMessage now channelId id editorId text mentions).1
  | .deleteMessage now channelId id deleterId => (s.deleteMessage now channelId id deleterId).1

/-! ## What one write does -/

structure KeepsIdentity (f : ChannelMessage → ChannelMessage) : Prop where
  id : ∀ m, (f m).id = m.id
  seq : ∀ m, (f m).seq = m.seq
  sender : ∀ m, (f m).sender = m.sender
  source : ∀ m, (f m).sourceRuntimeId = m.sourceRuntimeId

inductive Wrote (s : MessageStore) : Table MessageRow.key → Prop where
  /-- No message row was written. -/
  | kept : Wrote s s.messages
  /-- One row was updated in place. -/
  | rewrote (id : ChannelMessageId) (f : ChannelMessage → ChannelMessage) (hf : KeepsIdentity f) :
      Wrote s (s.updateRow id f hf.id).messages
  /-- One row was inserted under the next number of its channel. -/
  | inserted (row : MessageRow) (hid : s.selectById row.id = none)
      (hseq : row.seq = s.latestSeq row.channelId + 1)
      (hthread : s.resolveThread row.channelId row.parentMessageId = .ok row.threadId)
      (hclient : s.clientTaken row = false) (hsource : s.sourceTaken row = false) :
      Wrote s (s.messages.insert row)

namespace MessageStore

variable (s : MessageStore) (now : Timestamp) (text : String)

theorem messages_claimThread (channelId : String)
    (threadId : Option ChannelMessageId) (row : MessageRow) :
    (s.claimThread now channelId threadId row).1.messages = s.messages := by
  unfold claimThread touchThreadRecord ensureThreadRecord
  cases threadId with
  | none => rfl
  | some root =>
    dsimp only
    cases s.selectById root with
    | none => rfl
    | some row =>
      dsimp only
      split_ifs <;> rfl

section
variable {s s' : MessageStore} {draft row : MessageRow}

theorem insertRow_ok
    (h : s.insertRow draft = .ok (s', row)) :
    row = { draft with seq := s.latestSeq draft.channelId + 1 } ∧
      s'.messages = s.messages.insert row ∧ s.selectById row.id = none ∧
      s.clientTaken row = false ∧ s.sourceTaken row = false := by
  unfold insertRow at h
  dsimp only at h
  split_ifs at h with hconflict
  obtain ⟨rfl, rfl⟩ := h
  simp only [Bool.or_eq_true, not_or, Bool.not_eq_true, Option.isSome_eq_false_iff,
    Option.isNone_iff_eq_none] at hconflict
  exact ⟨rfl, rfl, hconflict.1.1, hconflict.1.2, hconflict.2⟩

private theorem wrote_insertRow
    (h : s.insertRow draft = .ok (s', row))
    (hthread : s.resolveThread draft.channelId draft.parentMessageId = .ok draft.threadId) :
    Wrote s s'.messages := by
  obtain ⟨rfl, hmessages, hid, hclient, hsource⟩ := insertRow_ok h
  rw [hmessages]
  exact .inserted _ hid rfl hthread hclient hsource

end

theorem wrote_appendComplete (input : AppendCompleteInput) :
    Wrote s (s.appendComplete now input).1.messages := by
  unfold appendComplete
  split
  · exact .kept
  · split
    · exact .kept
    · split
      · exact .kept
      · rename_i threadId hthread
        split
        · exact .kept
        · rename_i s' row hinsert
          rw [messages_claimThread]
          exact wrote_insertRow hinsert hthread

theorem wrote_beginStream (input : BeginStreamInput) :
    Wrote s (s.beginStream now input).1.messages := by
  unfold beginStream
  split
  · exact .kept
  · split
    · exact .kept
    · split
      · exact .kept
      · rename_i threadId hthread
        split
        · exact .kept
        · rename_i s' row hinsert
          rw [messages_claimThread]
          unfold insertSourceRow at hinsert
          split at hinsert
          · split at hinsert
            · simp only [Except.ok.injEq, Prod.mk.injEq] at hinsert
              rw [← hinsert.1]
              exact .kept
            · cases hinsert
          · exact wrote_insertRow hinsert hthread

theorem keepsIdentity_setStreamText : KeepsIdentity (setStreamText now text) :=
  ⟨fun _ => rfl, fun _ => rfl, fun _ => rfl, fun _ => rfl⟩

theorem keepsIdentity_setAgentDetail (detail : String) :
    KeepsIdentity (setAgentDetail now detail) := by
  have h := MessageLog.setAgentDetail_inPlace now detail
  refine ⟨h.id, h.seq, fun m => ?_, h.source⟩
  unfold setAgentDetail
  split <;> rfl

theorem keepsIdentity_resolveProvisionalRow
    (status : ChannelTerminalStatus) (agentDetail : String) :
    KeepsIdentity (resolveProvisionalRow now text status agentDetail) := by
  have h := MessageLog.resolveProvisionalRow_inPlace now text status agentDetail
  refine ⟨h.id, h.seq, fun m => ?_, h.source⟩
  unfold resolveProvisionalRow
  split <;> rfl

theorem keepsIdentity_finalizeRow (input : FinalizeInput) :
    KeepsIdentity (finalizeRow now input) := by
  have h := MessageLog.finalizeRow_inPlace now input
  refine ⟨h.id, h.seq, fun m => ?_, h.source⟩
  unfold finalizeRow
  split <;> rfl

theorem keepsIdentity_editRow (mentions : Option (List String)) :
    KeepsIdentity (editRow now text mentions) :=
  ⟨fun _ => rfl, fun _ => rfl, fun _ => rfl, fun _ => rfl⟩

theorem keepsIdentity_deleteRow : KeepsIdentity (deleteRow now) :=
  ⟨fun _ => rfl, fun _ => rfl, fun _ => rfl, fun _ => rfl⟩

/-- **Write inversion**: every write keeps the message rows, updates one in place, or inserts
    one under the next number. -/
theorem wrote_step (op : MessageOp) : Wrote s (s.step op).messages := by
  cases op with
  | appendComplete now input => exact wrote_appendComplete s now input
  | appendCompleteWithAsyncRun now input =>
    show Wrote s (s.appendCompleteWithAsyncRun now input).1.messages
    unfold appendCompleteWithAsyncRun
    have happend := wrote_appendComplete s now input
    split
    · exact .kept
    · split
      · rename_i heq
        rwa [heq] at happend
      · exact .kept
  | createThread now id channelId title =>
    show Wrote s (s.createThread now id channelId title).1.messages
    unfold createThread
    split
    · exact .kept
    · split
      · rename_i heq
        have happend := congrArg (fun p => p.1.messages) heq
        exact happend ▸ wrote_appendComplete s now _
      · rename_i heq
        have happend := congrArg (fun p => p.1.messages) heq
        exact happend ▸ wrote_appendComplete s now _
  | beginStream now input => exact wrote_beginStream s now input
  | updateStreamText now id text =>
    show Wrote s (s.updateStreamText now id text).1.messages
    unfold updateStreamText
    split
    · exact .kept
    · split
      · exact .kept
      · exact .rewrote id _ (keepsIdentity_setStreamText now text)
  | updateAgentDetail now id detail =>
    show Wrote s (s.updateAgentDetail now id detail).1.messages
    unfold updateAgentDetail
    split
    · exact .kept
    · split
      · exact .kept
      · exact .rewrote id _ (keepsIdentity_setAgentDetail now detail)
  | resolveProvisional now id text status agentDetail =>
    show Wrote s (s.resolveProvisionalAgentDetailTerminal now id text status agentDetail).1.messages
    unfold resolveProvisionalAgentDetailTerminal
    split
    · exact .kept
    · split
      · exact .kept
      · split
        · exact .kept
        · exact .rewrote id _ (keepsIdentity_resolveProvisionalRow now text status agentDetail)
  | finalizeStream now id input =>
    show Wrote s (s.finalizeStream now id input).1.messages
    unfold finalizeStream
    split
    · exact .kept
    · split
      · exact .kept
      · split
        · exact .kept
        · exact .rewrote id _ (keepsIdentity_finalizeRow now input)
  | editMessage now channelId id editorId text mentions =>
    show Wrote s (s.editMessage now channelId id editorId text mentions).1.messages
    unfold editMessage
    split
    · exact .kept
    · split
      · exact .kept
      · split
        · exact .kept
        · split
          · exact .kept
          · exact .rewrote id _ (keepsIdentity_editRow now text mentions)
  | deleteMessage now channelId id deleterId =>
    show Wrote s (s.deleteMessage now channelId id deleterId).1.messages
    unfold deleteMessage
    split
    · exact .kept
    · split
      · exact .kept
      · split
        · exact .kept
        · exact .rewrote id _ (keepsIdentity_deleteRow now)

end MessageStore

/-! ## The sequence-log invariant -/

/-- What holds of the message table in every state. -/
structure SequenceLog (s : MessageStore) : Prop where
  /-- A channel carries the numbers `1, …, n`, in order. -/
  seqs : ∀ channelId, (s.channelRows channelId).map (·.seq) =
    List.range' 1 (s.channelRows channelId).length
  /-- Threads are flat: a thread id names a root of the same channel. -/
  rooted : ∀ r ∈ s.messages.rows, ∀ root, r.threadId = some root →
    ∃ p ∈ s.messages.rows, p.id = root ∧ p.channelId = r.channelId ∧ p.threadId = none
  /-- `idx_chm_client_dedupe`. -/
  clientUnique : ∀ r ∈ s.messages.rows, ∀ r' ∈ s.messages.rows, r.channelId = r'.channelId →
    r.sender.id = r'.sender.id → r.clientMessageId = r'.clientMessageId →
    r.clientMessageId.isSome = true → r = r'
  /-- `idx_chm_source_dedupe`. -/
  sourceUnique : ∀ r ∈ s.messages.rows, ∀ r' ∈ s.messages.rows,
    r.sourceRuntimeId = r'.sourceRuntimeId → r.sourceTurnId = r'.sourceTurnId →
    r.sourceItemId = r'.sourceItemId → r.sourceRuntimeId.isSome = true →
    r.sourceTurnId.isSome = true → r.sourceItemId.isSome = true → r = r'

/-- Two states of one stored row. -/
structure SameRow (r r' : MessageRow) : Prop where
  id : r'.id = r.id
  seq : r'.seq = r.seq
  createdAt : r'.createdAt = r.createdAt
  channelId : r'.channelId = r.channelId
  threadId : r'.threadId = r.threadId
  parentMessageId : r'.parentMessageId = r.parentMessageId
  sender : r'.sender = r.sender
  clientMessageId : r'.clientMessageId = r.clientMessageId
  sourceRuntimeId : r'.sourceRuntimeId = r.sourceRuntimeId
  sourceTurnId : r'.sourceTurnId = r.sourceTurnId
  sourceItemId : r'.sourceItemId = r.sourceItemId

theorem SameRow.refl (r : MessageRow) : SameRow r r :=
  ⟨rfl, rfl, rfl, rfl, rfl, rfl, rfl, rfl, rfl, rfl, rfl⟩

variable {r : MessageRow} {f : ChannelMessage → ChannelMessage}

theorem SameRow.trans {r' r'' : MessageRow} (h : SameRow r r') (h' : SameRow r' r'') :
    SameRow r r'' :=
  ⟨h'.id.trans h.id, h'.seq.trans h.seq, h'.createdAt.trans h.createdAt,
    h'.channelId.trans h.channelId, h'.threadId.trans h.threadId,
    h'.parentMessageId.trans h.parentMessageId, h'.sender.trans h.sender,
    h'.clientMessageId.trans h.clientMessageId, h'.sourceRuntimeId.trans h.sourceRuntimeId,
    h'.sourceTurnId.trans h.sourceTurnId, h'.sourceItemId.trans h.sourceItemId⟩

namespace MessageStore

/-- The head of a channel with the numbers `1, …, n` is `n`. -/
theorem latestSeq_eq_length {s : MessageStore} (h : SequenceLog s) (channelId : String) :
    s.latestSeq channelId = (s.channelRows channelId).length := by
  have hmax (n : ℕ) : (List.range' 1 n).foldr max 0 = n := by
    induction n with
    | zero => rfl
    | succ n ih =>
      have hfold (l : List ℕ) (k : ℕ) : l.foldr max k = max (l.foldr max 0) k := by
        induction l with
        | nil => simp
        | cons a l ih => simp [ih]
      rw [range'_1_concat, foldr_append, hfold]
      simp only [foldr_cons, foldr_nil]
      omega
  rw [latestSeq, h.seqs channelId, hmax]

/-- The row an in-place write leaves of a row. -/
def rewritten (id : ChannelMessageId) (f : ChannelMessage → ChannelMessage) (r : MessageRow) :
    MessageRow :=
  if r.id = id then { r with toChannelMessage := f r.toChannelMessage } else r

theorem sameRow_rewritten (hf : KeepsIdentity f)
    (id : ChannelMessageId) (r : MessageRow) : SameRow r (rewritten id f r) := by
  unfold rewritten
  split
  · exact ⟨hf.id _, hf.seq _, rfl, rfl, rfl, rfl, hf.sender _, rfl, hf.source _, rfl, rfl⟩
  · exact SameRow.refl r

theorem rows_updateRow (s : MessageStore) (id : ChannelMessageId)
    (f : ChannelMessage → ChannelMessage) (hf : ∀ m, (f m).id = m.id) :
    (s.updateRow id f hf).messages.rows = s.messages.rows.map (rewritten id f) := by
  show List.map (fun r : MessageRow => if decide (r.id = id) then
    { r with toChannelMessage := f r.toChannelMessage } else r) s.messages.rows = _
  simp only [decide_eq_true_eq]
  rfl

section
variable {s : MessageStore}

private theorem mem_updateRow {id : ChannelMessageId} (hf : KeepsIdentity f)
    (hr : r ∈ (s.updateRow id f hf.id).messages.rows) :
    ∃ r₀ ∈ s.messages.rows, r = rewritten id f r₀ ∧ SameRow r₀ r := by
  rw [rows_updateRow, mem_map] at hr
  obtain ⟨r₀, hr₀, rfl⟩ := hr
  exact ⟨r₀, hr₀, rfl, sameRow_rewritten hf id r₀⟩

private theorem sequenceLog_rewrote (h : SequenceLog s)
    (id : ChannelMessageId) (hf : KeepsIdentity f) : SequenceLog (s.updateRow id f hf.id) := by
  have hchannel : ∀ channelId, (s.updateRow id f hf.id).channelRows channelId =
      (s.channelRows channelId).map (rewritten id f) := by
    intro channelId
    rw [channelRows, rows_updateRow, filter_map]
    refine congrArg (List.map _) (filter_congr fun r _ => ?_)
    rw [Function.comp_apply, (sameRow_rewritten hf id r).channelId]
  constructor
  · intro channelId
    rw [hchannel, map_map, length_map, ← h.seqs channelId]
    refine map_congr_left (fun r _ => ?_)
    exact (sameRow_rewritten hf id r).seq
  · intro r hr root hroot
    obtain ⟨r₀, hr₀, -, hsame⟩ := mem_updateRow hf hr
    obtain ⟨p, hp, hid, hch, hnone⟩ := h.rooted r₀ hr₀ root (hsame.threadId ▸ hroot)
    have hp' := sameRow_rewritten hf id p
    refine ⟨rewritten id f p, ?_, hp'.id.trans hid, ?_, hp'.threadId.trans hnone⟩
    · rw [rows_updateRow]
      exact mem_map_of_mem hp
    · rw [hp'.channelId, hsame.channelId, hch]
  · intro r hr r' hr' hch hsender hclient hsome
    obtain ⟨u, hu, rfl, hsame⟩ := mem_updateRow hf hr
    obtain ⟨v, hv, rfl, hsame'⟩ := mem_updateRow hf hr'
    rw [hsame.channelId, hsame'.channelId] at hch
    rw [hsame.sender, hsame'.sender] at hsender
    rw [hsame.clientMessageId, hsame'.clientMessageId] at hclient
    rw [hsame.clientMessageId] at hsome
    rw [h.clientUnique u hu v hv hch hsender hclient hsome]
  · intro r hr r' hr' hruntime hturn hitem h1 h2 h3
    obtain ⟨u, hu, rfl, hsame⟩ := mem_updateRow hf hr
    obtain ⟨v, hv, rfl, hsame'⟩ := mem_updateRow hf hr'
    rw [hsame.sourceRuntimeId, hsame'.sourceRuntimeId] at hruntime
    rw [hsame.sourceTurnId, hsame'.sourceTurnId] at hturn
    rw [hsame.sourceItemId, hsame'.sourceItemId] at hitem
    rw [hsame.sourceRuntimeId] at h1
    rw [hsame.sourceTurnId] at h2
    rw [hsame.sourceItemId] at h3
    rw [h.sourceUnique u hu v hv hruntime hturn hitem h1 h2 h3]

theorem resolveThread_root (h : SequenceLog s) {channelId : String}
    {parentMessageId : Option ChannelMessageId} {root : ChannelMessageId}
    (hthread : s.resolveThread channelId parentMessageId = .ok (some root)) :
    ∃ p ∈ s.messages.rows, p.id = root ∧ p.channelId = channelId ∧ p.threadId = none := by
  unfold resolveThread at hthread
  split at hthread
  · cases hthread
  · rename_i parentId _
    split at hthread
    · cases hthread
    · rename_i parent hparent
      obtain ⟨hmem, -⟩ := (s.messages.find?_eq_some_iff _ _).mp hparent
      split_ifs at hthread with hch
      simp only [Except.ok.injEq, Option.some.injEq] at hthread
      rw [not_not] at hch
      cases ht : parent.threadId with
      | none =>
        rw [ht] at hthread
        exact ⟨parent, hmem, hthread, hch, ht⟩
      | some root' =>
        -- the parent is a reply itself, and its own thread id names the root
        rw [ht] at hthread
        obtain ⟨p, hp, hid, hpch, hnone⟩ := h.rooted parent hmem root' ht
        exact ⟨p, hp, hid.trans hthread, hpch.trans hch, hnone⟩

private theorem sequenceLog_inserted (h : SequenceLog s) {row : MessageRow}
    {threads : Table ThreadRow.key} (hid : s.selectById row.id = none)
    (hseq : row.seq = s.latestSeq row.channelId + 1)
    (hthread : s.resolveThread row.channelId row.parentMessageId = .ok row.threadId)
    (hclient : s.clientTaken row = false) (hsource : s.sourceTaken row = false) :
    SequenceLog ⟨s.messages.insert row, threads⟩ := by
  have hrows : (s.messages.insert row).rows = s.messages.rows ++ [row] :=
    s.messages.rows_insert_of_new row hid
  have hfresh : ∀ r ∈ s.messages.rows, r.channelId = row.channelId →
      r.sender.id = row.sender.id → r.clientMessageId = row.clientMessageId →
      row.clientMessageId.isSome = true → False := by
    intro r hr hch hsender hcl hsome
    rw [clientTaken, hsome, Bool.true_and, any_eq_false] at hclient
    have hno := hclient r hr
    simp [hch, hsender, hcl] at hno
  have hfresh' : ∀ r ∈ s.messages.rows, r.sourceRuntimeId = row.sourceRuntimeId →
      r.sourceTurnId = row.sourceTurnId → r.sourceItemId = row.sourceItemId →
      row.sourceRuntimeId.isSome = true → row.sourceTurnId.isSome = true →
      row.sourceItemId.isSome = true → False := by
    intro r hr hruntime hturn hitem h1 h2 h3
    rw [sourceTaken, h1, h2, h3, Bool.true_and, Bool.true_and, Bool.true_and,
      any_eq_false] at hsource
    have hno := hsource r hr
    simp [hruntime, hturn, hitem] at hno
  constructor
  · intro channelId
    show ((s.messages.insert row).rows.filter _).map _ =
      List.range' 1 ((s.messages.insert row).rows.filter _).length
    rw [hrows, filter_append]
    by_cases hch : row.channelId = channelId
    · have hone : [row].filter (fun r => r.channelId == channelId) = [row] := by simp [hch]
      have hlen := latestSeq_eq_length h channelId
      rw [hone, map_append, length_append, length_singleton,
        range'_1_concat, ← channelRows, h.seqs channelId]
      simp only [map_cons, map_nil]
      rw [hseq, hch, hlen, Nat.add_comm]
    · have hnone : [row].filter (fun r => r.channelId == channelId) = [] := by simp [hch]
      rw [hnone, append_nil]
      exact h.seqs channelId
  · intro r hr root hroot
    change r ∈ (s.messages.insert row).rows at hr
    show ∃ p ∈ (s.messages.insert row).rows, _
    rw [hrows] at hr ⊢
    rcases mem_append.mp hr with hold | hnew
    · obtain ⟨p, hp, hrest⟩ := h.rooted r hold root hroot
      exact ⟨p, mem_append_left _ hp, hrest⟩
    · rw [mem_singleton.mp hnew] at hroot ⊢
      rw [hroot] at hthread
      obtain ⟨p, hp, hrest⟩ := resolveThread_root h hthread
      exact ⟨p, mem_append_left _ hp, hrest⟩
  · intro r hr r' hr' hch hsender hcl hsome
    change r ∈ (s.messages.insert row).rows at hr
    change r' ∈ (s.messages.insert row).rows at hr'
    rw [hrows] at hr hr'
    rcases mem_append.mp hr with hold | hnew <;> rcases mem_append.mp hr' with hold' | hnew'
    · exact h.clientUnique r hold r' hold' hch hsender hcl hsome
    · rw [mem_singleton.mp hnew'] at hch hsender hcl
      exact (hfresh r hold hch hsender hcl (hcl ▸ hsome)).elim
    · rw [mem_singleton.mp hnew] at hch hsender hcl hsome
      exact (hfresh r' hold' hch.symm hsender.symm hcl.symm hsome).elim
    · rw [mem_singleton.mp hnew, mem_singleton.mp hnew']
  · intro r hr r' hr' hruntime hturn hitem h1 h2 h3
    change r ∈ (s.messages.insert row).rows at hr
    change r' ∈ (s.messages.insert row).rows at hr'
    rw [hrows] at hr hr'
    rcases mem_append.mp hr with hold | hnew <;> rcases mem_append.mp hr' with hold' | hnew'
    · exact h.sourceUnique r hold r' hold' hruntime hturn hitem h1 h2 h3
    · rw [mem_singleton.mp hnew'] at hruntime hturn hitem
      exact (hfresh' r hold hruntime hturn hitem (hruntime ▸ h1) (hturn ▸ h2) (hitem ▸ h3)).elim
    · rw [mem_singleton.mp hnew] at hruntime hturn hitem h1 h2 h3
      exact (hfresh' r' hold' hruntime.symm hturn.symm hitem.symm h1 h2 h3).elim
    · rw [mem_singleton.mp hnew, mem_singleton.mp hnew']

end

section
variable {s s' : MessageStore}

theorem sequenceLog_of_messages_eq (h : SequenceLog s)
    (heq : s'.messages = s.messages) : SequenceLog s' := by
  obtain ⟨messages, threads⟩ := s'
  cases heq
  exact ⟨h.seqs, h.rooted, h.clientUnique, h.sourceUnique⟩

theorem sequenceLog_of_wrote (h : SequenceLog s)
    (hwrote : Wrote s s'.messages) : SequenceLog s' := by
  obtain ⟨messages, threads⟩ := s'
  cases hwrote with
  | kept => exact sequenceLog_of_messages_eq h rfl
  | rewrote id f hf => exact sequenceLog_of_messages_eq (sequenceLog_rewrote h id hf) rfl
  | inserted row hid hseq hthread hclient hsource =>
    exact sequenceLog_inserted h hid hseq hthread hclient hsource

theorem exists_sameRow_of_wrote (hwrote : Wrote s s'.messages)
    (hr : r ∈ s.messages.rows) : ∃ r' ∈ s'.messages.rows, SameRow r r' := by
  obtain ⟨messages, threads⟩ := s'
  cases hwrote with
  | kept => exact ⟨r, hr, SameRow.refl r⟩
  | rewrote id f hf =>
    refine ⟨rewritten id f r, ?_, sameRow_rewritten hf id r⟩
    show rewritten id f r ∈ (s.updateRow id f hf.id).messages.rows
    rw [rows_updateRow]
    exact mem_map_of_mem hr
  | inserted row hid hseq hthread hclient hsource =>
    refine ⟨r, ?_, SameRow.refl r⟩
    show r ∈ (s.messages.insert row).rows
    rw [s.messages.rows_insert_of_new row hid]
    exact mem_append_left _ hr

end

theorem sequenceLog_empty : SequenceLog empty := by
  constructor <;> simp [empty, channelRows]

/-- The log of every run is numbered without a gap. -/
theorem sequenceLog_exec (ops : List MessageOp) : SequenceLog (exec step empty ops) :=
  exec_invariant (fun s op h => sequenceLog_of_wrote h (wrote_step s op)) ops sequenceLog_empty

theorem exists_sameRow_exec (s : MessageStore) (ops : List MessageOp)
    (hr : r ∈ s.messages.rows) : ∃ r' ∈ (exec step s ops).messages.rows, SameRow r r' := by
  induction ops generalizing s r with
  | nil => exact ⟨r, hr, SameRow.refl r⟩
  | cons op ops ih =>
    obtain ⟨r', hr', hsame⟩ := exists_sameRow_of_wrote (wrote_step s op) hr
    obtain ⟨r'', hr'', hsame'⟩ := ih (s.step op) hr'
    exact ⟨r'', hr'', hsame.trans hsame'⟩

end MessageStore

/-! ## Replays -/

/-- A replayed write returns the stored row and writes nothing. -/
structure Replays (s : MessageStore) : Prop where
  /-- `appendComplete` checks the payload before it looks a client id up. -/
  appendComplete : ∀ (now : Timestamp) (input : MessageStore.AppendCompleteInput),
    ∀ r ∈ s.messages.rows, r.channelId = input.channelId → r.sender.id = input.sender.id →
      r.clientMessageId = input.clientMessageId → input.clientMessageId.isSome = true →
      (s.appendComplete now input).1 = s ∧
        (input.clientMessageId ≠ some "" →
          MessageStore.assertPayload input.text input.agentDetail input.parts = .ok () →
          (s.appendComplete now input).2 = .ok r)
  appendCompleteWithAsyncRun : ∀ (now : Timestamp) (input : MessageStore.AppendCompleteInput),
    ∀ r ∈ s.messages.rows, r.channelId = input.channelId → r.sender.id = input.sender.id →
      r.clientMessageId = input.clientMessageId → input.clientMessageId.isSome = true →
      (s.appendCompleteWithAsyncRun now input).1 = s ∧
        (input.clientMessageId ≠ some "" → (s.appendCompleteWithAsyncRun now input).2 = .ok r)
  /-- A triple with an absent id may be shared, and then names one of its rows. -/
  beginStream : ∀ (now : Timestamp) (input : MessageStore.BeginStreamInput),
    ∀ r ∈ s.messages.rows, r.sourceRuntimeId = some input.runtimeId →
      r.sourceTurnId = input.turnId → r.sourceItemId = input.itemId →
      (s.beginStream now input).1 = s ∧
        ∃ stored ∈ s.messages.rows, (s.beginStream now input).2 = .ok stored ∧
          stored.sourceRuntimeId = some input.runtimeId ∧ stored.sourceTurnId = input.turnId ∧
          stored.sourceItemId = input.itemId ∧
          (input.turnId.isSome = true → input.itemId.isSome = true → stored = r)

namespace MessageStore

section
variable {s : MessageStore}

theorem selectByClientId_of_mem (h : SequenceLog s)
    (hr : r ∈ s.messages.rows) {clientMessageId : String}
    (hclient : r.clientMessageId = some clientMessageId) :
    s.selectByClientId r.channelId r.sender.id clientMessageId = some r := by
  unfold selectByClientId
  cases hfind : s.messages.rows.find? (fun u => u.channelId == r.channelId &&
      u.sender.id == r.sender.id && u.clientMessageId == some clientMessageId) with
  | none =>
    have hno := find?_eq_none.mp hfind r hr
    simp [hclient] at hno
  | some u =>
    have hu := mem_of_find?_eq_some hfind
    have hmatch := find?_some hfind
    simp only [Bool.and_eq_true, beq_iff_eq] at hmatch
    obtain ⟨⟨hch, hsender⟩, hcl⟩ := hmatch
    rw [h.clientUnique u hu r hr hch hsender (hcl.trans hclient.symm) (by rw [hcl]; rfl)]

theorem exists_selectBySource_of_mem
    (hr : r ∈ s.messages.rows) : ∃ stored ∈ s.messages.rows,
      s.selectBySource r.sourceRuntimeId r.sourceTurnId r.sourceItemId = some stored ∧
      stored.sourceRuntimeId = r.sourceRuntimeId ∧ stored.sourceTurnId = r.sourceTurnId ∧
      stored.sourceItemId = r.sourceItemId := by
  unfold selectBySource
  cases hfind : s.messages.rows.find? (fun u => u.sourceRuntimeId == r.sourceRuntimeId &&
      u.sourceTurnId == r.sourceTurnId && u.sourceItemId == r.sourceItemId) with
  | none =>
    have hno := find?_eq_none.mp hfind r hr
    simp at hno
  | some u =>
    have hmatch := find?_some hfind
    simp only [Bool.and_eq_true, beq_iff_eq] at hmatch
    exact ⟨u, mem_of_find?_eq_some hfind, rfl, hmatch.1.1, hmatch.1.2, hmatch.2⟩

/-- Helper: an append under a stored client id writes nothing, whichever check ends it. -/
private theorem appendComplete_fst_of_clientTaken (now : Timestamp)
    (input : AppendCompleteInput) (htaken : ∀ row : MessageRow, row.channelId = input.channelId →
      row.sender.id = input.sender.id → row.clientMessageId = input.clientMessageId →
      s.clientTaken row = true) : (s.appendComplete now input).1 = s := by
  unfold appendComplete
  split
  · rfl
  · split
    · rfl
    · split
      · rfl
      · rename_i threadId _
        split
        · rfl
        · rename_i s' row hinsert
          obtain ⟨rfl, -, -, hclient, -⟩ := insertRow_ok hinsert
          rw [htaken _ rfl rfl rfl] at hclient
          cases hclient

/-- **Replays** write nothing in any state the invariant holds in. -/
theorem replays_of_sequenceLog (h : SequenceLog s) : Replays s := by
  have htaken : ∀ (input : AppendCompleteInput), ∀ r ∈ s.messages.rows,
      r.channelId = input.channelId → r.sender.id = input.sender.id →
      r.clientMessageId = input.clientMessageId → input.clientMessageId.isSome = true →
      ∀ now, (s.appendComplete now input).1 = s := by
    intro input r hr hch hsender hclient hsome now
    apply appendComplete_fst_of_clientTaken
    intro row hch' hsender' hclient'
    rw [clientTaken, hclient', hsome, Bool.true_and, any_eq_true]
    exact ⟨r, hr, by simp [hch, hch', hsender, hsender', hclient]⟩
  have hreplayed : ∀ (input : AppendCompleteInput), ∀ r ∈ s.messages.rows,
      r.channelId = input.channelId → r.sender.id = input.sender.id →
      r.clientMessageId = input.clientMessageId → input.clientMessageId.isSome = true →
      input.clientMessageId ≠ some "" → input.replayed s = some r := by
    intro input r hr hch hsender hclient hsome hne
    obtain ⟨clientMessageId, hid⟩ := Option.isSome_iff_exists.mp hsome
    have hne' : clientMessageId ≠ "" := fun he => hne (by rw [hid, he])
    rw [AppendCompleteInput.replayed, hid, ← hch, ← hsender]
    simp only [Option.filter, decide_eq_true hne']
    exact selectByClientId_of_mem h hr (hclient.trans hid)
  constructor
  · intro now input r hr hch hsender hclient hsome
    refine ⟨htaken input r hr hch hsender hclient hsome now, fun hne hpayload => ?_⟩
    unfold MessageStore.appendComplete
    simp only [hpayload, hreplayed input r hr hch hsender hclient hsome hne]
  · intro now input r hr hch hsender hclient hsome
    constructor
    · have hsame := htaken input r hr hch hsender hclient hsome now
      unfold MessageStore.appendCompleteWithAsyncRun
      split
      · rfl
      · split
        · rename_i heq
          exact (congrArg Prod.fst heq).symm.trans hsame
        · rfl
    · intro hne
      unfold MessageStore.appendCompleteWithAsyncRun
      simp only [hreplayed input r hr hch hsender hclient hsome hne]
  · intro now input r hr hruntime hturn hitem
    obtain ⟨stored, hmem, hselect, h1, h2, h3⟩ := exists_selectBySource_of_mem hr
    rw [hruntime, hturn, hitem] at hselect
    have hbegin : s.beginStream now input = (s, .ok stored) := by
      unfold MessageStore.beginStream
      simp only [hselect]
    rw [hbegin]
    refine ⟨rfl, stored, hmem, rfl, h1.trans hruntime, h2.trans hturn, h3.trans hitem, ?_⟩
    intro hturnSome hitemSome
    exact h.sourceUnique stored hmem r hr h1 h2 h3 (by rw [h1, hruntime]; rfl)
      (by rw [h2, hturn]; exact hturnSome) (by rw [h3, hitem]; exact hitemSome)

end

end MessageStore

/-- **Sequence log**: after every order of writes, each channel carries exactly the numbers up to
    its head, threads are flat, stored rows keep their identity through every later write, and
    replays write nothing. -/
theorem sequence_log (ops : List MessageOp) :
    (∀ channelId, ((exec MessageStore.step .empty ops).channelRows channelId).map (·.seq) =
      List.range' 1 ((exec MessageStore.step .empty ops).latestSeq channelId)) ∧
    (∀ r ∈ (exec MessageStore.step .empty ops).messages.rows, ∀ root, r.threadId = some root →
      ∃ p ∈ (exec MessageStore.step .empty ops).messages.rows,
        p.id = root ∧ p.channelId = r.channelId ∧ p.threadId = none) ∧
    (∀ later, ∀ r ∈ (exec MessageStore.step .empty ops).messages.rows,
      ∃ r' ∈ (exec MessageStore.step (exec MessageStore.step .empty ops) later).messages.rows,
        SameRow r r') ∧
    Replays (exec MessageStore.step .empty ops) := by
  have h := MessageStore.sequenceLog_exec ops
  refine ⟨?_, h.rooted, ?_, MessageStore.replays_of_sequenceLog h⟩
  · intro channelId
    rw [MessageStore.latestSeq_eq_length h]
    exact h.seqs channelId
  · intro later r hr
    exact MessageStore.exists_sameRow_exec _ later hr

/-- A post under one client id, with the given attachments. -/
def samplePost (id : ChannelMessageId) (parts : List String) : MessageStore.AppendCompleteInput :=
  { id := id
    channelId := "room"
    kind := .message
    sender := { kind := .human, id := "human:operator" }
    text := "hello"
    parentMessageId := none
    clientMessageId := some "draft-1"
    mentions := []
    parts := parts
    agentDetail := none
    sourceRuntimeId := none }

/-- A replayed client id is refused, not answered with the stored row, when the repeated request
    carries too many attachments. -/
theorem replay_refused_on_invalid_parts :
    (((exec MessageStore.step .empty [.appendComplete 1 (samplePost "chm:1" [])]).selectByClientId
      "room" "human:operator" "draft-1").map (·.id) = some "chm:1") ∧
    ((exec MessageStore.step .empty [.appendComplete 1 (samplePost "chm:1" [])]).appendComplete 2
      (samplePost "chm:2" ["a", "b", "c", "d", "e"])).2 = .error .partsInvalid := by
  exact ⟨rfl, rfl⟩

end RelayIde.Channel
