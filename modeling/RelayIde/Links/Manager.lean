import RelayIde.Library.Json
import RelayIde.Library.Machine
import RelayIde.Library.Table
import RelayIde.Security.Scope

/-!
# The Hub Side of Node Links

`HubNodeLinkManager` of `server/hub-node-link.ts`: requests, streams and browser terminals that
share the one link of a node.  Each kind is a table keyed by the id of the call.

- `World`, `step` — runs with a log of events and effects

A handler is called in the order of the effects and runs to its end; what it does to its own stream
is a later event.
-/

namespace RelayIde.Links

open RelayIde.Library RelayIde.Security

/-! ## Messages -/

abbrev Socket := ℕ

inductive Channel
  | control | rpc | events | pty | preview

/-- `RelayNodeEnvelope`, the fields that are read; `error` is the one that is truthy. -/
structure RelayNodeEnvelope (Num : Type) where
  nodeId : String
  channel : Channel
  type : String
  requestId : Option String := none
  streamId : Option String := none
  payload : Option (Json Num) := none
  error : Option (Json Num) := none

/-- `HubNodeLinkError`: an error of the hub, or the one a node reported. -/
inductive HubNodeLinkError (Num : Type)
  | nodeOffline (message : String)
  | reported (error : Json Num)

variable {Num : Type}

/-- The property of a payload that is an object. -/
def payloadField (payload : Option (Json Num)) (name : String) : Option (Json Num) :=
  payload.bind (Json.get? (JsText.utf16 name))

/-- The property, where it is a string. -/
def payloadText (payload : Option (Json Num)) (name : String) : Option JsText :=
  match payloadField payload name with
  | some (.str text) => some text
  | _ => none

/-- The error of a `tail.error` message, where it is an object. -/
def tailError (payload : Option (Json Num)) : Option (Json Num) :=
  match payloadField payload "error" with
  | some (.obj properties) => some (.obj properties)
  | some (.arr elements) => some (.arr elements)
  | _ => none

/-! ## The manager -/

/-- `PendingRpc`, with the type of the request, which its timer names. -/
structure PendingRpc where
  requestId : String
  nodeId : String
  nodeWs : Socket
  type : String

/-- `PendingStream`, with the type of the request, and whether the caller gave the optional
    handlers. -/
structure PendingStream where
  streamId : String
  nodeId : String
  nodeWs : Socket
  requestId : String
  type : String
  opened : Bool
  onError : Bool
  onEnd : Bool

def PendingStream.cancelType (stream : PendingStream) : String := stream.type ++ ".cancel"

structure BrowserPtyStream where
  streamId : String
  nodeId : String
  nodeWs : Socket
  sessionId : String
  browserWs : Socket

structure HubNodeLinkManager where
  links : String → Option Socket
  pending : Table PendingRpc.requestId
  streams : Table PendingStream.streamId
  ptyStreams : Table BrowserPtyStream.streamId

def HubNodeLinkManager.start : HubNodeLinkManager := ⟨fun _ => none, .empty, .empty, .empty⟩

/-- A call whose promise the manager holds. -/
inductive CallId
  | request (requestId : String)
  | stream (streamId : String)
deriving DecidableEq

inductive Settlement (Num : Type)
  | resolved (payload : Option (Json Num))
  | rejected (error : HubNodeLinkError Num)

def Settlement.isResolved : Settlement Num → Bool
  | .resolved _ => true
  | .rejected _ => false

inductive Effect (Num : Type)
  /-- A promise is returned and its timer runs; the caller gave an `onEnd` or not. -/
  | made (call : CallId) (nodeId : String) (nodeWs : Socket) (onEnd : Bool)
  | threw (error : HubNodeLinkError Num)
  | timerCleared (call : CallId)
  | settled (call : CallId) (settlement : Settlement Num)
  | onChunk (streamId : String) (payload : Option (Json Num))
  | onError (streamId : String) (error : HubNodeLinkError Num)
  | onEnd (streamId : String)
  | sent (ws : Socket) (message : RelayNodeEnvelope Num)
  | relayed (browserWs : Socket) (data : JsText)
  | ptyInput (nodeId sessionId : String) (data : String)
  | released (nodeId sessionId : String)
  | closed (ws : Socket) (code : ℕ) (reason : String)
  | nodeEvent (nodeId : String) (type : JsText) (data : Option (Json Num))

/-- `ws.readyState === ws.OPEN`. -/
abbrev Openness := Socket → Bool

section Operations

variable (isOpen : Openness) (m : HubNodeLinkManager)

def sendJson (ws : Socket) (message : RelayNodeEnvelope Num) : List (Effect Num) :=
  if isOpen ws then [.sent ws message] else []

def offline (nodeId : String) : HubNodeLinkError Num :=
  .nodeOffline ("node " ++ nodeId ++ " has no live reverse link")

def liveLink (nodeId : String) : Option Socket := (m.links nodeId).filter isOpen

/-- Sends a request over the live link of its node. -/
def request (nodeId type : String) (payload : Option (Json Num)) (requestId : String) :
    HubNodeLinkManager × List (Effect Num) :=
  match liveLink isOpen m nodeId with
  | none => (m, [.threw (offline nodeId)])
  | some ws =>
    ({ m with pending := m.pending.insert ⟨requestId, nodeId, ws, type⟩ },
      .made (.request requestId) nodeId ws false ::
        sendJson isOpen ws
          { nodeId, channel := .rpc, type, requestId := some requestId, payload })

/-- The timer of a request fires. -/
def requestTimeout (requestId : String) : HubNodeLinkManager × List (Effect Num) :=
  match m.pending.find? requestId with
  | none => (m, [])
  | some pending =>
    ({ m with pending := m.pending.deleteWhere fun p => p.requestId = requestId },
      [.settled (.request requestId)
        (.rejected (.nodeOffline
          ("node " ++ pending.nodeId ++ " did not answer " ++ pending.type)))])

def streamRequest (nodeId type : String) (payload : Option (Json Num)) (onError onEnd : Bool)
    (requestId streamId : String) : HubNodeLinkManager × List (Effect Num) :=
  match liveLink isOpen m nodeId with
  | none => (m, [.threw (offline nodeId)])
  | some ws =>
    ({ m with
        streams := m.streams.insert
          { streamId, nodeId, nodeWs := ws, requestId, type, opened := false, onError, onEnd } },
      .made (.stream streamId) nodeId ws onEnd ::
        sendJson isOpen ws
          { nodeId, channel := .rpc, type, requestId := some requestId, streamId := some streamId
            payload })

def withoutStream (streamId : String) : HubNodeLinkManager :=
  { m with streams := m.streams.deleteWhere fun s => s.streamId = streamId }

/-- The timer of a stream fires; that of an opened one was cleared. -/
def streamTimeout (streamId : String) : HubNodeLinkManager × List (Effect Num) :=
  match m.streams.find? streamId with
  | none => (m, [])
  | some stream =>
    if stream.opened then (m, [])
    else
      (withoutStream m streamId,
        [.settled (.stream streamId)
          (.rejected (.nodeOffline
            ("node " ++ stream.nodeId ++ " did not start " ++ stream.type)))])

/-- The optional `onEnd`. -/
def endHandler (stream : PendingStream) : List (Effect Num) :=
  if stream.onEnd then [.onEnd stream.streamId] else []

/-- The optional `onError`. -/
def errorHandler (stream : PendingStream) (error : HubNodeLinkError Num) : List (Effect Num) :=
  if stream.onError then [.onError stream.streamId error] else []

def cancelMessage (stream : PendingStream) : RelayNodeEnvelope Num :=
  { nodeId := stream.nodeId, channel := .rpc, type := stream.cancelType
    requestId := some stream.requestId, streamId := some stream.streamId }

/-- The caller gives up a stream, and the node is told. -/
def closeStream (streamId : String) : HubNodeLinkManager × List (Effect Num) :=
  match m.streams.find? streamId with
  | none => (m, [])
  | some stream =>
    (withoutStream m streamId,
      .timerCleared (.stream streamId) ::
        (sendJson isOpen stream.nodeWs (cancelMessage stream) ++ endHandler stream))

def attachPty (nodeId sessionId : String) (browserWs : Socket) (streamId : String) :
    HubNodeLinkManager × List (Effect Num) :=
  match liveLink isOpen m nodeId with
  | none => (m, [.threw (offline nodeId)])
  | some ws =>
    ({ m with ptyStreams := m.ptyStreams.insert ⟨streamId, nodeId, ws, sessionId, browserWs⟩ },
      sendJson isOpen ws
        { nodeId, channel := .pty, type := "pty.attach", streamId := some streamId
          payload := some (.obj [(JsText.utf16 "sessionId", .str (JsText.utf16 sessionId))]) })

inductive BrowserMessage (Num : Type)
  | ping
  | resize (cols rows : Num)
  | input (data : String)

/-- The listener that `attachPty` leaves on the browser socket. -/
def browserMessage (stream : BrowserPtyStream) (message : BrowserMessage Num) :
    List (Effect Num) :=
  if isOpen stream.nodeWs = false then [.closed stream.browserWs 1011 "node link closed"]
  else
    let toNode (type : String) (payload : Json Num) : List (Effect Num) :=
      sendJson isOpen stream.nodeWs
        { nodeId := stream.nodeId, channel := .pty, type, streamId := some stream.streamId
          payload := some payload }
    match message with
    | .ping =>
      if isOpen stream.browserWs
      then [.relayed stream.browserWs (JsText.utf16 "\x7b\"type\":\"pong\"\x7d")] else []
    | .resize cols rows =>
      toNode "pty.resize"
        (.obj [(JsText.utf16 "cols", .num cols), (JsText.utf16 "rows", .num rows)])
    | .input data =>
      .ptyInput stream.nodeId stream.sessionId data ::
        toNode "pty.input" (.obj [(JsText.utf16 "data", .str (JsText.utf16 data))])

def withoutPty (streamId : String) : HubNodeLinkManager :=
  { m with ptyStreams := m.ptyStreams.deleteWhere fun s => s.streamId = streamId }

/-- The browser socket of a terminal closes or fails. -/
def browserClose (streamId : String) : HubNodeLinkManager × List (Effect Num) :=
  match m.ptyStreams.find? streamId with
  | none => (m, [])
  | some stream =>
    (withoutPty m streamId,
      sendJson isOpen stream.nodeWs
        { nodeId := stream.nodeId, channel := .pty, type := "pty.detach"
          streamId := some streamId })

/-! ## Envelopes of nodes -/

/-- Before it opened, an error rejects the stream. -/
def handleStreamError (stream : PendingStream) (error : Json Num) :
    HubNodeLinkManager × List (Effect Num) :=
  if stream.opened then
    (m, .timerCleared (.stream stream.streamId) :: errorHandler stream (.reported error))
  else
    (withoutStream m stream.streamId,
      [.timerCleared (.stream stream.streamId),
        .settled (.stream stream.streamId) (.rejected (.reported error))])

/-- The first answer opens the stream and settles its call. -/
def openStream (stream : PendingStream) (payload : Option (Json Num)) :
    HubNodeLinkManager × List (Effect Num) :=
  ({ m with
      streams := m.streams.updateWhere (fun s => s.streamId = stream.streamId)
        (fun s => { s with opened := true }) fun _ => rfl },
    [.timerCleared (.stream stream.streamId),
      .settled (.stream stream.streamId) (.resolved payload)])

/-- `message.type.endsWith('.result')`. -/
def isResult (type : String) : Bool := ".result".toList.isSuffixOf type.toList

def isTailChunk (type : String) : Bool := type = "logs.tail.chunk" ∨ type = "fs.tail.chunk"

def isTailError (type : String) : Bool := type = "logs.tail.error" ∨ type = "fs.tail.error"

def isTailEnd (type : String) : Bool := type = "logs.tail.end" ∨ type = "fs.tail.end"

def handleStreamEnvelope (stream : PendingStream) (message : RelayNodeEnvelope Num) :
    (HubNodeLinkManager × List (Effect Num)) × Bool :=
  match message.error with
  | some error => (handleStreamError m stream error, true)
  | none =>
    if isResult message.type then (openStream m stream message.payload, true)
    else if isTailChunk message.type then
      ((m, [.onChunk stream.streamId message.payload]), true)
    else if isTailError message.type then
      ((m, (tailError message.payload).elim [] fun error =>
        errorHandler stream (.reported error)), true)
    else if isTailEnd message.type then (closeStream isOpen m stream.streamId, true)
    else ((m, []), false)

def handlePtyEnvelope (stream : BrowserPtyStream) (message : RelayNodeEnvelope Num) :
    (HubNodeLinkManager × List (Effect Num)) × Bool :=
  if message.type = "pty.data" then
    ((m, (payloadText message.payload "data").elim [] fun data =>
      [.relayed stream.browserWs data]), true)
  else if message.type = "pty.exit" then
    ((withoutPty m stream.streamId,
      .released stream.nodeId stream.sessionId ::
        if isOpen stream.browserWs then [.closed stream.browserWs 1000 ""] else []), true)
  else if message.type = "pty.error" then
    ((withoutPty m stream.streamId,
      if isOpen stream.browserWs then [.closed stream.browserWs 1011 ""] else []), true)
  else ((m, []), false)

def answerRequest (pending : PendingRpc) (message : RelayNodeEnvelope Num) :
    HubNodeLinkManager × List (Effect Num) :=
  ({ m with pending := m.pending.deleteWhere fun p => p.requestId = pending.requestId },
    [.timerCleared (.request pending.requestId),
      .settled (.request pending.requestId)
        (match message.error with
          | some error => .rejected (.reported error)
          | none => .resolved message.payload)])

def handleNodeEvent (message : RelayNodeEnvelope Num) : List (Effect Num) :=
  match payloadText message.payload "type" with
  | none => []
  | some type => [.nodeEvent message.nodeId type message.payload]

def ofNode {ρ : Type} (nodeId : ρ → String) (entry : Option ρ) (message : RelayNodeEnvelope Num) :
    Option ρ :=
  entry.filter fun row => nodeId row = message.nodeId

def handleEnvelope (message : RelayNodeEnvelope Num) :
    (HubNodeLinkManager × List (Effect Num)) × Bool :=
  match message.channel, truthy message.streamId, truthy message.requestId with
  | .rpc, some streamId, _ =>
    match ofNode (·.nodeId) (m.streams.find? streamId) message with
    | none => ((m, []), false)
    | some stream => handleStreamEnvelope isOpen m stream message
  | .rpc, none, some requestId =>
    match ofNode (·.nodeId) (m.pending.find? requestId) message with
    | none => ((m, []), false)
    | some pending => (answerRequest m pending message, true)
  | .pty, some streamId, _ =>
    match ofNode (·.nodeId) (m.ptyStreams.find? streamId) message with
    | none => ((m, []), false)
    | some stream => handlePtyEnvelope isOpen m stream message
  | .events, _, _ => ((m, handleNodeEvent message), true)
  | _, _, _ => ((m, []), false)

/-! ## The life of a link -/

def linkClosed (nodeId : String) : HubNodeLinkError Num :=
  .nodeOffline ("node " ++ nodeId ++ " link closed")

def rejectRequest (pending : PendingRpc) : List (Effect Num) :=
  [.timerCleared (.request pending.requestId),
    .settled (.request pending.requestId) (.rejected (linkClosed pending.nodeId))]

def loseStream (stream : PendingStream) : List (Effect Num) :=
  .timerCleared (.stream stream.streamId) ::
    ((if stream.opened then errorHandler stream (linkClosed stream.nodeId)
      else [.settled (.stream stream.streamId) (.rejected (linkClosed stream.nodeId))]) ++
    endHandler stream)

def losePty (stream : BrowserPtyStream) : List (Effect Num) :=
  .released stream.nodeId stream.sessionId ::
    if isOpen stream.browserWs then [.closed stream.browserWs 1011 "node link closed"] else []

/-- All calls over a link that is gone are rejected. -/
def cleanupNodeLinkResources (nodeId : String) (ws : Socket) :
    HubNodeLinkManager × List (Effect Num) :=
  let lostRequest (p : PendingRpc) : Bool := p.nodeId = nodeId ∧ p.nodeWs = ws
  let lostStream (s : PendingStream) : Bool := s.nodeId = nodeId ∧ s.nodeWs = ws
  let lostPty (s : BrowserPtyStream) : Bool := s.nodeId = nodeId ∧ s.nodeWs = ws
  ({ m with
      pending := m.pending.deleteWhere lostRequest
      streams := m.streams.deleteWhere lostStream
      ptyStreams := m.ptyStreams.deleteWhere lostPty },
    (m.pending.rows.filter lostRequest).flatMap rejectRequest ++
      (m.streams.rows.filter lostStream).flatMap loseStream ++
      (m.ptyStreams.rows.filter lostPty).flatMap (losePty isOpen))

/-- A second link of a node replaces the first. -/
def registerNodeLink (nodeId : String) (ws : Socket) :
    HubNodeLinkManager × List (Effect Num) :=
  let set (m : HubNodeLinkManager) : HubNodeLinkManager :=
    { m with links := Function.update m.links nodeId (some ws) }
  match (m.links nodeId).filter (· ≠ ws) with
  | none => (set m, [])
  | some existing =>
    let cleaned := cleanupNodeLinkResources isOpen m nodeId existing
    (set cleaned.1, cleaned.2 ++ if isOpen existing
      then [.closed existing 1012 "replaced by newer relay-node link"] else [])

def unregisterNodeLink (nodeId : String) (ws : Socket) :
    HubNodeLinkManager × List (Effect Num) :=
  let dropped :=
    if m.links nodeId = some ws then { m with links := Function.update m.links nodeId none }
    else m
  cleanupNodeLinkResources isOpen dropped nodeId ws

end Operations

/-! ## Runs -/

inductive Event (Num : Type)
  | registerNodeLink (nodeId : String) (ws : Socket)
  /-- The socket of a link closes or fails. -/
  | unregisterNodeLink (nodeId : String) (ws : Socket)
  /-- The ready state of a socket changes. -/
  | ready (ws : Socket) (isOpen : Bool)
  | request (nodeId type : String) (payload : Option (Json Num)) (requestId : String)
  | requestTimeout (requestId : String)
  | streamRequest (nodeId type : String) (payload : Option (Json Num)) (onError onEnd : Bool)
      (requestId streamId : String)
  | streamTimeout (streamId : String)
  | closeStream (streamId : String)
  | attachPty (nodeId sessionId : String) (browserWs : Socket) (streamId : String)
  | browserMessage (stream : BrowserPtyStream) (message : BrowserMessage Num)
  | browserClose (streamId : String)
  | envelope (message : RelayNodeEnvelope Num)

def perform (isOpen : Openness) (m : HubNodeLinkManager) :
    Event Num → HubNodeLinkManager × List (Effect Num)
  | .registerNodeLink nodeId ws => registerNodeLink isOpen m nodeId ws
  | .unregisterNodeLink nodeId ws => unregisterNodeLink isOpen m nodeId ws
  | .ready _ _ => (m, [])
  | .request nodeId type payload requestId => request isOpen m nodeId type payload requestId
  | .requestTimeout requestId => requestTimeout m requestId
  | .streamRequest nodeId type payload onError onEnd requestId streamId =>
    streamRequest isOpen m nodeId type payload onError onEnd requestId streamId
  | .streamTimeout streamId => streamTimeout m streamId
  | .closeStream streamId => closeStream isOpen m streamId
  | .attachPty nodeId sessionId browserWs streamId =>
    attachPty isOpen m nodeId sessionId browserWs streamId
  | .browserMessage stream message => (m, browserMessage isOpen stream message)
  | .browserClose streamId => browserClose isOpen m streamId
  | .envelope message => (handleEnvelope isOpen m message).1

structure LogEntry (Num : Type) where
  event : Event Num
  isOpen : Openness
  effects : List (Effect Num)

structure World (Num : Type) where
  manager : HubNodeLinkManager
  isOpen : Openness
  log : List (LogEntry Num)

def World.start : World Num := ⟨.start, fun _ => false, []⟩

def step (w : World Num) (event : Event Num) : World Num where
  manager := (perform w.isOpen w.manager event).1
  isOpen :=
    match event with
    | .ready ws isOpen => Function.update w.isOpen ws isOpen
    | _ => w.isOpen
  log := w.log ++ [⟨event, w.isOpen, (perform w.isOpen w.manager event).2⟩]

def Event.draws : Event Num → List String
  | .request _ _ _ requestId => [requestId]
  | .streamRequest _ _ _ _ _ requestId streamId => [requestId, streamId]
  | .attachPty _ _ _ streamId => [streamId]
  | _ => []

def Event.registers : Event Num → Option (String × Socket)
  | .registerNodeLink nodeId ws => some (nodeId, ws)
  | _ => none

/-- What runs are taken to meet: ids are drawn once, a socket is registered as one link, only a
    registered link closes, and a stream is closed through the handle its promise gave. -/
structure Admissible (w : World Num) (event : Event Num) : Prop where
  fresh : ∀ entry ∈ w.log, ∀ id ∈ event.draws, id ∉ entry.event.draws
  single : ∀ nodeId ws, event = .registerNodeLink nodeId ws →
    ∀ entry ∈ w.log, ∀ nodeId', entry.event.registers ≠ some (nodeId', ws)
  registered : ∀ nodeId ws, event = .unregisterNodeLink nodeId ws →
    ∃ entry ∈ w.log, entry.event.registers = some (nodeId, ws)
  handle : ∀ streamId, event = .closeStream streamId →
    ∃ entry ∈ w.log, ∃ payload, .settled (.stream streamId) (.resolved payload) ∈ entry.effects

end RelayIde.Links
