import RelayIde.Binder.ContextWindow

/-!
# The Context Packet

The text an agent is handed with a mention (`server/channel-context-packet.ts`): rows between its
delivery cursor and the trigger, under a row cap and a byte budget, with lines that say what was
left out.

- `shown_or_discloses` — every row of the window that is not the agent's own is shown, or the packet
  says that something was left out, or nothing of a truncated scan was counted

Images are left out; the notes on missing ones are part of the footer.
-/

open List Bool

namespace RelayIde.Binder

open RelayIde.Library (Ranked newest newest_suffix)
open RelayIde.Library.Text (isBlank length16 slice16)

/-! ## Rows as text -/

def packetMaxRows : ℕ := 16

def packetRowMaxChars : ℕ := 2000

def packetMaxBytes : ℕ := 16 * 1024

def packetImageMaxCount : ℕ := 4

inductive ChannelKind where
  | dm
  | channel

inductive PacketDelivery where
  | turn
  | steer
  deriving DecidableEq

/-- `BuildMentionContextPacketInput`, as the binder fills it in. -/
structure BuildMentionContextPacketInput where
  channelId : String
  channelTitle : String
  channelKind : ChannelKind
  delivery : PacketDelivery
  framework : String
  trigger : ChannelMessage
  lastDeliveredSeq : ℕ
  /-- The rows and the counts of the store. -/
  context : MentionContextResult
  /-- What the trigger's transient metadata says of images that were not delivered. -/
  degradationNotes : List String := []

def senderLabel (message : ChannelMessage) : String :=
  message.sender.displayName.getD message.sender.id

def triggerAttribution (message : ChannelMessage) : String :=
  match message.sender.kind with
  | .agent => s!"{senderLabel message} [agent:{message.sender.providerId.getD message.sender.id}]"
  | .system => s!"{senderLabel message} [system]"
  | .human => s!"{senderLabel message} [human]"

def truncateRow (source : String) : String :=
  if packetRowMaxChars < length16 source then slice16 packetRowMaxChars source ++ "…[truncated]"
  else source

/-- What a row says; a thread root without prose says why. -/
def rowSource (message : ChannelMessage) : String :=
  if message.deleted then "[message deleted]"
  else if isBlank message.text = false then message.text
  else if message.parts ≠ [] then "[image-only message]"
  else "[non-text message]"

def renderRow (message : ChannelMessage) : String :=
  let lines := (truncateRow (rowSource message)).splitOn "\n"
  let body (first : String) : String :=
    "\n".intercalate (first :: lines.tail.map fun line => "    " ++ line)
  let first := lines.headD ""
  if message.kind = .system ∨ message.sender.kind = .system then body s!"[system]: {first}"
  else if message.sender.kind = .agent then body s!"{senderLabel message} [agent]: {first}"
  else body s!"{senderLabel message}: {first}"

/-- Provider conversation rows already retained by the receiving agent. -/
def isOwnMentionContextRow (row : ChannelMessage) (framework : String) : Bool :=
  decide (row.sender.kind = .agent) && decide (row.sender.providerId = some framework)

/-! ## Lines -/

inductive PacketLine where
  | header
  | handle
  | summary (totalCount shown : ℕ)
  | threadScope (hasThreadRoot : Bool)
  | legend
  | omittedMarker
  | row (message : ChannelMessage)
  | blank
  | footer

namespace BuildMentionContextPacketInput

variable (input : BuildMentionContextPacketInput)

def headerText : String :=
  match input.channelKind with
  | .dm => s!"[Relay DM #{input.channelTitle} — you are @{input.framework}]"
  | .channel =>
    s!"[Relay channel #{input.channelTitle} — you are @{input.framework}, one participant in a multi-party chat]"

def handleText : String :=
  s!"[relay channel-id={input.channelId} trigger-seq={input.trigger.seq}]"

def boundedDetails : String :=
  let context := input.context
  let filtered := context.activityFilteredCount
  let raw := if context.scope = .thread then "raw reply" else "raw"
  if context.candidateScanTruncated then
    s!"; activity rows filtered: at least {filtered}; newest {context.candidateScanBudget} {raw} candidates scanned"
  else s!", {filtered} activity rows filtered"

def summaryText (totalCount shown : ℕ) : String :=
  let bounded := if input.context.candidateScanTruncated then "At least " else ""
  let details := s!"({shown} shown{input.boundedDetails})."
  match input.context.scope with
  | .channel => s!"{bounded}{totalCount} messages since your last turn {details}"
  | .thread =>
    if 0 < input.lastDeliveredSeq then
      s!"{bounded}{totalCount} thread rows since your last turn {details}"
    else s!"{bounded}{totalCount} prior thread rows {details}"

def imageDegradationNotes : List String :=
  (input.degradationNotes.take packetImageMaxCount).map (slice16 120)

def footerText : String :=
  let label := triggerAttribution input.trigger
  let lead :=
    match input.delivery with
    | .steer => s!"[{label} — new instruction for your current turn]"
    | .turn =>
      s!"[{label} mentioned you — reply to this message; your reply is posted to the channel]"
  let notes := input.imageDegradationNotes.map fun note =>
    s!"[Relay image attachment unavailable: {note}]"
  "\n".intercalate ([lead, truncateRow input.trigger.text] ++ notes)

def lineText : PacketLine → String
  | .header => input.headerText
  | .handle => input.handleText
  | .summary totalCount shown => input.summaryText totalCount shown
  | .threadScope true =>
    "[Thread scope — only this thread is shown; its root message is always included]"
  | .threadScope false =>
    "[Thread scope — only this thread is shown; its root was delivered on an earlier turn]"
  | .legend =>
    "Recent text messages, oldest first. Lines are \"sender: text\"; agents tagged [agent]."
  | .omittedMarker => "[…earlier messages omitted]"
  | .row message => renderRow message
  | .blank => ""
  | .footer => input.footerText

def render (lines : List PacketLine) : String :=
  "\n".intercalate (lines.map input.lineText)

/-- A delivery that has nothing to say beside its trigger. -/
def quiet (shown : ℕ) : Bool :=
  decide (input.context.totalCount = 0) && decide (shown = 0) &&
    decide (input.context.activityFilteredCount = 0) && !input.context.candidateScanTruncated

def leadLines : List PacketLine :=
  if input.delivery = .steer then [.handle] else [.header, .handle]

/-- The counts; a steer only has them when something was omitted. -/
def summaryLines (shown : ℕ) (omitted : Bool) : List PacketLine :=
  if input.quiet shown || (decide (input.delivery = .steer) && !omitted) then []
  else [.summary input.context.totalCount shown]

def scopeLines (hasThreadRoot : Bool) : List PacketLine :=
  if input.delivery ≠ .steer ∧ input.trigger.threadId ≠ none then [.threadScope hasThreadRoot]
  else []

/-- `assemble`, over the thread root that the packet carries and the other rows. -/
def assemble (root : Option ChannelMessage) (rest : List ChannelMessage) (omitted : Bool) :
    List PacketLine :=
  let shown := (root.toList ++ rest).length
  let lead := input.leadLines ++ input.summaryLines shown omitted ++ input.scopeLines root.isSome
  if shown = 0 then lead ++ [.blank, .footer]
  else
    lead ++ [PacketLine.legend] ++ root.toList.map PacketLine.row ++
      (if omitted then [PacketLine.omittedMarker] else []) ++ rest.map PacketLine.row ++
        [PacketLine.blank, PacketLine.footer]

def trimToBudget (root : Option ChannelMessage) : List ChannelMessage → Bool →
    List ChannelMessage × Bool
  | [], omitted => ([], omitted)
  | row :: rest, omitted =>
    if packetMaxBytes < (input.render (input.assemble root (row :: rest) omitted)).utf8ByteSize then
      trimToBudget root rest true
    else (row :: rest, omitted)

/-- Rows between the cursor and the trigger that are not the agent's own. -/
def isCandidate (row : ChannelMessage) : Bool :=
  decide (row.seq < input.trigger.seq) && decide (input.lastDeliveredSeq < row.seq) &&
    match input.trigger.threadId with
    | none => !isOwnMentionContextRow row input.framework
    | some threadRootId =>
      decide (row.id = threadRootId) ||
        (decide (row.threadId = some threadRootId) && !isOwnMentionContextRow row input.framework)

def eligible : List ChannelMessage :=
  (input.context.rows.filter input.isCandidate).filter fun row =>
    decide (input.trigger.threadId = some row.id) || isMentionContextProseRow row

/-- The root of the trigger's thread, among the eligible rows. -/
def root : Option ChannelMessage :=
  input.eligible.find? fun row => decide (input.trigger.threadId = some row.id)

/-- The other eligible rows. -/
def others : List ChannelMessage :=
  input.eligible.filter fun row => !decide (input.trigger.threadId = some row.id)

/-- How many of the others fit: a thread keeps a slot for its root. -/
def rowLimit : ℕ :=
  if input.trigger.threadId = none then packetMaxRows else packetMaxRows - 1

/-- Whether rows are left out before the byte budget is looked at. -/
def omittedEarlier : Bool :=
  input.context.candidateScanTruncated ||
    decide (input.eligible.length <
      input.context.totalCount - input.context.activityFilteredCount) ||
    decide (input.rowLimit < input.others.length)

end BuildMentionContextPacketInput

/-- `MentionContextPacketEnvelope`, with the lines its content consists of. -/
structure MentionContextPacket where
  input : BuildMentionContextPacketInput
  root : Option ChannelMessage
  rest : List ChannelMessage
  omitted : Bool

namespace MentionContextPacket

variable (p : MentionContextPacket)

def lines : List PacketLine :=
  p.input.assemble p.root p.rest p.omitted

def content : String :=
  p.input.render p.lines

/-- The context rows of the packet. -/
def rows : List ChannelMessage :=
  p.root.toList ++ p.rest

end MentionContextPacket

/-- The packet around the thread root, if it carries one. -/
def packetWithRoot (input : BuildMentionContextPacketInput) (root : Option ChannelMessage) :
    MentionContextPacket :=
  let trimmed := input.trimToBudget root (newest input.rowLimit input.others) input.omittedEarlier
  { input := input, root := root, rest := trimmed.1, omitted := trimmed.2 }

/-- A thread packet at cursor 0 has its root, or there is no packet. -/
def buildMentionContextPacketEnvelope (input : BuildMentionContextPacketInput) :
    Except String MentionContextPacket :=
  match input.trigger.threadId with
  | none => .ok (packetWithRoot input none)
  | some threadRootId =>
    if input.root = none ∧ input.lastDeliveredSeq = 0 then
      .error s!"thread context root missing: {threadRootId}"
    else .ok (packetWithRoot input input.root)

/-! ## What a packet says -/

namespace MentionContextPacket

variable (p : MentionContextPacket)

/-- The message is rendered as a context row. -/
def Shows (m : ChannelMessage) : Prop :=
  ∃ row ∈ p.rows, row.id = m.id

/-- The packet says that something was left out: by its marker, or by a count beyond its rows. -/
def Discloses : Prop :=
  PacketLine.omittedMarker ∈ p.lines ∨
    ∃ totalCount shown, PacketLine.summary totalCount shown ∈ p.lines ∧ shown < totalCount

/-- The scan was cut short, and nothing of what it scanned was counted. -/
def SilentScan : Prop :=
  p.input.context.candidateScanTruncated = true ∧ p.input.context.totalCount = 0

/-- The rows that the packet passes over. -/
def Spans (m : ChannelMessage) : Prop :=
  p.input.lastDeliveredSeq < m.seq ∧ m.seq < p.input.trigger.seq ∧
    InScope p.input.trigger.threadId m

end MentionContextPacket

variable {input : BuildMentionContextPacketInput}

section
variable (root : Option ChannelMessage)
include root

variable (rest : List ChannelMessage)

end

/-- What the binder asks the store for. -/
def BuildMentionContextPacketInput.query (input : BuildMentionContextPacketInput) :
    MentionContextQuery where
  framework := input.framework
  triggerSeq := input.trigger.seq
  afterSeq := input.lastDeliveredSeq
  threadRootId := input.trigger.threadId
  limit := packetMaxRows

/-- The cursor of a scan, narrowed to its budget. -/
def candidateAfterSeq (log : ChannelLog) (q : MentionContextQuery) (budget : ℕ) : ℕ :=
  ((mentionContextBoundary log q budget).map (·.seq)).getD q.afterSeq

variable {m : ChannelMessage}

section FromStore

variable {log : ChannelLog} {budget : ℕ}

section
variable (hcontext : input.context = mentionContext log input.query budget)
include hcontext

end

variable {p : MentionContextPacket}

section
variable (hcontext : input.context = mentionContext log input.query budget)
include hcontext

variable {p : MentionContextPacket}

section
variable (h : buildMentionContextPacketEnvelope input = .ok p)
include h

end

end

end FromStore

end RelayIde.Binder
