import RelayIde.Terminal.Stream

/-!
# Terminal Delivery

A client follows a terminal stream over a socket that may be backed up.  Live envelopes go through
a lane that sheds data and heals the gap with a replay; the replay at connect time goes through the
plain backpressure guard.  Envelopes are received in the order they were sent, and a connection
may be cut at any point.

- `Delivery`, `deliveryStep` — the server, the socket and the client
-/

namespace RelayIde.Terminal

open Library (JsText)

/-! ## The socket -/

def WS_LOW_LIMIT_BYTES : ℕ := 256 * 1024

def WS_SOFT_LIMIT_BYTES : ℕ := 1024 * 1024

def WS_HARD_LIMIT_BYTES : ℕ := 4 * 1024 * 1024

/-- A socket as its server sees it, and what is on its way to the client. -/
structure Socket where
  isOpen : Bool := false
  inFlight : List TerminalStreamEnvelope := []

def Socket.send (ws : Socket) (frames : List TerminalStreamEnvelope) : Socket :=
  { ws with inFlight := ws.inFlight ++ frames }

def Socket.close (ws : Socket) : Socket :=
  { ws with isOpen := false }

inductive BackpressureSendResult where
  | sent
  | dropped
  | closed
  | notOpen

structure BackpressureSendOptions where
  droppable : Bool := false
  closeWhenLagging : Bool := false

def sendWithBackpressure (ws : Socket) (buffered : ℕ) (envelope : TerminalStreamEnvelope)
    (opts : BackpressureSendOptions) : BackpressureSendResult × Socket :=
  if ws.isOpen = false then (.notOpen, ws)
  else if WS_HARD_LIMIT_BYTES < buffered then (.closed, ws.close)
  else if WS_SOFT_LIMIT_BYTES < buffered ∧ opts.closeWhenLagging = true then (.closed, ws.close)
  else if WS_SOFT_LIMIT_BYTES < buffered ∧ opts.droppable = true then (.dropped, ws)
  else (.sent, ws.send [envelope])

structure TerminalLaneState where
  lagging : Bool := false
  gapStartCursor : ℕ := 0

inductive TerminalLaneResult where
  | sent
  | dropped
  | suppressed
  | resync
  | closed
  | notOpen

structure TerminalLaneFrame where
  droppable : Bool
  gapStart : ℕ
  envelope : TerminalStreamEnvelope

def deliverTerminalEnvelope (ws : Socket) (buffered : ℕ) (state : TerminalLaneState)
    (frame : TerminalLaneFrame) (serializeResync : ℕ → List TerminalStreamEnvelope) :
    TerminalLaneResult × TerminalLaneState × Socket :=
  if ws.isOpen = false then (.notOpen, state, ws)
  else if WS_HARD_LIMIT_BYTES < buffered then (.closed, state, ws.close)
  else if state.lagging = true then
    if buffered < WS_LOW_LIMIT_BYTES then
      (.resync, { state with lagging := false }, ws.send (serializeResync state.gapStartCursor))
    else (.suppressed, state, ws)
  else if WS_SOFT_LIMIT_BYTES < buffered ∧ frame.droppable = true then
    (.dropped, { lagging := true, gapStartCursor := frame.gapStart }, ws)
  else (.sent, state, ws.send [frame.envelope])

def TerminalStreamEnvelope.isData (envelope : TerminalStreamEnvelope) : Bool :=
  match envelope.payload with
  | .data _ => true
  | _ => false

/-- The first byte that is missing when the envelope is shed. -/
def TerminalStreamEnvelope.gapStart (envelope : TerminalStreamEnvelope) : ℕ :=
  match envelope.payload with
  | .data payload => payload.range.start
  | _ => envelope.cursor

def terminalStreamSubscriber (stream : TerminalStreamState) (lane : TerminalLaneState) (ws : Socket)
    (buffered : ℕ) (envelope : TerminalStreamEnvelope) :
    TerminalLaneResult × TerminalLaneState × Socket :=
  deliverTerminalEnvelope ws buffered lane
    { droppable := envelope.isData, gapStart := envelope.gapStart, envelope := envelope }
    fun gapStartCursor => buildTerminalStreamReplay stream (some gapStartCursor)

def sendTerminalStreamEnvelope (ws : Socket) (buffered : ℕ) (envelope : TerminalStreamEnvelope) :
    Socket :=
  (sendWithBackpressure ws buffered envelope { droppable := envelope.isData }).2

/-- The loop over the replay at connect time; `buffered` is what is buffered before each of its
    envelopes. -/
def sendReplay (buffered : ℕ → ℕ) : ℕ → Socket → List TerminalStreamEnvelope → Socket
  | _, ws, [] => ws
  | i, ws, envelope :: envelopes =>
    sendReplay buffered (i + 1) (sendTerminalStreamEnvelope ws (buffered i) envelope) envelopes

/-! ## The client -/

/-- The client's connection, and all it received over time. -/
structure PtyConnection where
  terminalStreamCursor : ℕ := 0
  received : List TerminalStreamEnvelope := []

def handleTerminalStreamEnvelope (conn : PtyConnection) (envelope : TerminalStreamEnvelope) :
    PtyConnection where
  terminalStreamCursor := max conn.terminalStreamCursor envelope.cursor
  received := conn.received ++ [envelope]

/-- The `?cursor=` a client connects with. -/
def replayCursor (conn : PtyConnection) : Option ℕ :=
  if 0 < conn.terminalStreamCursor then some conn.terminalStreamCursor else none

/-! ## Runs -/

/-- The whole output, the server's side, and the client. -/
structure Delivery where
  output : JsText := []
  stream : TerminalStreamState := {}
  lane : TerminalLaneState := {}
  ws : Socket := {}
  connected : Bool := false
  client : PtyConnection := {}

inductive DeliveryOp where
  | output (data : JsText) (buffered : ℕ)
  | dropPrefix (bytes : ℕ)
  | resize (input : TerminalStreamResizeInput) (sessionFound : Bool) (buffered : ℕ)
  | receive
  | disconnect
  | connect (buffered : ℕ → ℕ)

def Delivery.fanOut (s : Delivery) (buffered : ℕ) (envelope : TerminalStreamEnvelope) : Delivery :=
  let delivered := terminalStreamSubscriber s.stream s.lane s.ws buffered envelope
  { s with lane := delivered.2.1, ws := delivered.2.2 }

def deliveryStep (s : Delivery) : DeliveryOp → Delivery
  | .output data buffered =>
    Delivery.fanOut
      { s with
        output := s.output ++ data
        stream := appendTerminalStreamData s.stream data false }
      buffered (dataEnvelope s.stream data false).toEnvelope
  | .dropPrefix bytes => { s with stream := dropTerminalStreamPrefixBytes s.stream bytes }
  | .resize input sessionFound buffered =>
    let resized := recordTerminalStreamResize s.stream input
    let s := { s with stream := resized.1 }
    if sessionFound then s.fanOut buffered resized.2 else s
  | .receive =>
    match s.ws.inFlight with
    | [] => s
    | envelope :: inFlight =>
      { s with
        ws := { s.ws with inFlight := inFlight }
        client := handleTerminalStreamEnvelope s.client envelope }
  | .disconnect => { s with ws := {}, connected := false }
  | .connect buffered =>
    if s.connected then s
    else
      { s with
        lane := {}
        ws := sendReplay buffered 0 { isOpen := true }
          (buildTerminalStreamReplay s.stream (replayCursor s.client))
        connected := true }

/-- A session whose output so far was partly evicted, and a client that is not connected yet. -/
def Delivery.initial (capacityBytes : ℕ) (initialChunks : List JsText) (evicted : JsText) :
    Delivery where
  output := evicted ++ initialChunks.flatten
  stream := createTerminalStreamState capacityBytes initialChunks evicted.length

end RelayIde.Terminal
