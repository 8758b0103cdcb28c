import RelayIde.Library.JsText

/-!
# The Terminal Stream

The output of a PTY session, retained in frames up to a capacity.  A cursor is a position in the
whole output, counted in UTF-16 code units, which the source calls bytes.

- `tiles_replayData` — so is what a replay sends, from the cursor it starts at

The wire format (`type`, `version`, `sessionId`, `timestamp`) is left out.
-/

namespace RelayIde.Terminal

open List

open Library (JsText)

/-! ## Envelopes -/

/-- Default per-session scrollback cap. -/
def DEFAULT_SESSION_REPLAY_CAPACITY_BYTES : ℕ := 256 * 1024

inductive TerminalStreamResizeOwner where
  | active
  | passive
  deriving DecidableEq

structure TerminalStreamCursorRange where
  start : ℕ
  stop : ℕ

structure TerminalStreamResizePayload where
  cols : ℕ
  rows : ℕ
  owner : TerminalStreamResizeOwner
  ownerClientId : Option String
  sourceClientId : String
  applied : Bool

structure TerminalStreamMetadataPayload where
  capacityBytes : ℕ
  bytesDropped : ℕ
  oldestCursor : ℕ
  latestCursor : ℕ
  activeResizeOwnerId : Option String
  lastResize : Option TerminalStreamResizePayload

structure TerminalStreamDataPayload where
  data : JsText
  bytes : ℕ
  range : TerminalStreamCursorRange

inductive TerminalStreamLagReason where
  | cursorTooOld
  | cursorTooNew
  | serverBackfill
  deriving DecidableEq

structure TerminalStreamLagPayload where
  reason : TerminalStreamLagReason
  requestedCursor : Option ℕ
  oldestCursor : ℕ
  latestCursor : ℕ
  bytesDropped : ℕ
  message : String

inductive TerminalStreamPayload where
  | metadata (payload : TerminalStreamMetadataPayload)
  | data (payload : TerminalStreamDataPayload)
  | replayStart (requestedCursor : Option ℕ) (startCursor endCursor : ℕ)
  | replayEnd (cursor replayedFrames : ℕ)
  | lag (payload : TerminalStreamLagPayload)
  | resize (payload : TerminalStreamResizePayload)

structure TerminalStreamEnvelope where
  seq : ℕ
  cursor : ℕ
  replay : Bool
  payload : TerminalStreamPayload

/-- An envelope of kind `data`, which is what the stream retains. -/
structure TerminalStreamDataEnvelope where
  seq : ℕ
  cursor : ℕ
  replay : Bool
  payload : TerminalStreamDataPayload

def TerminalStreamDataEnvelope.toEnvelope (frame : TerminalStreamDataEnvelope) :
    TerminalStreamEnvelope where
  seq := frame.seq
  cursor := frame.cursor
  replay := frame.replay
  payload := .data frame.payload

/-! ## The stream -/

structure TerminalStreamState where
  nextSeq : ℕ := 0
  cursor : ℕ := 0
  oldestCursor : ℕ := 0
  capacityBytes : ℕ := DEFAULT_SESSION_REPLAY_CAPACITY_BYTES
  bytesDropped : ℕ := 0
  frames : List TerminalStreamDataEnvelope := []
  activeResizeOwnerId : Option String := none
  lastResize : Option TerminalStreamResizePayload := none

/-- The loop of `trimTerminalStreamToCapacity`, over the oldest cursor, the bytes dropped and the
    frames.  The newest frame always stays. -/
def trimFrames (cursor capacityBytes : ℕ) :
    ℕ → ℕ → List TerminalStreamDataEnvelope → ℕ × ℕ × List TerminalStreamDataEnvelope
  | oldestCursor, bytesDropped, evicted :: next :: frames =>
    if oldestCursor + capacityBytes < cursor then
      trimFrames cursor capacityBytes evicted.payload.range.stop
        (max bytesDropped evicted.payload.range.stop) (next :: frames)
    else (oldestCursor, bytesDropped, evicted :: next :: frames)
  | oldestCursor, bytesDropped, frames => (oldestCursor, bytesDropped, frames)

def trimTerminalStreamToCapacity (state : TerminalStreamState) : TerminalStreamState :=
  let trimmed :=
    trimFrames state.cursor state.capacityBytes state.oldestCursor state.bytesDropped state.frames
  { state with
    oldestCursor := trimmed.1
    bytesDropped := trimmed.2.1
    frames := trimmed.2.2 }

/-- The envelope of a chunk of output. -/
def dataEnvelope (state : TerminalStreamState) (data : JsText) (replay : Bool) :
    TerminalStreamDataEnvelope where
  seq := state.nextSeq
  cursor := state.cursor + data.length
  replay := replay
  payload :=
    { data := data
      bytes := data.length
      range := { start := state.cursor, stop := state.cursor + data.length } }

/-- The stream behind the chunk; its envelope is `dataEnvelope`. -/
def appendTerminalStreamData (state : TerminalStreamState) (data : JsText) (replay : Bool) :
    TerminalStreamState :=
  trimTerminalStreamToCapacity
    { state with
      nextSeq := state.nextSeq + 1
      cursor := state.cursor + data.length
      frames := state.frames ++ [dataEnvelope state data replay] }

def createTerminalStreamState (capacityBytes : ℕ) (initialChunks : List JsText)
    (bytesDropped : ℕ) : TerminalStreamState :=
  initialChunks.foldl (fun state chunk => appendTerminalStreamData state chunk true)
    { cursor := bytesDropped
      oldestCursor := bytesDropped
      capacityBytes := capacityBytes
      bytesDropped := bytesDropped }

/-- A payload without what lies before a cursor inside it. -/
def TerminalStreamDataPayload.sliceFrom (cursor : ℕ) (payload : TerminalStreamDataPayload) :
    TerminalStreamDataPayload where
  data := payload.data.drop (cursor - payload.range.start)
  bytes := (payload.data.drop (cursor - payload.range.start)).length
  range := { start := cursor, stop := payload.range.stop }

/-- What a payload shows from a cursor on, if it shows anything. -/
def TerminalStreamDataPayload.from? (cursor : ℕ) (payload : TerminalStreamDataPayload) :
    Option TerminalStreamDataPayload :=
  if payload.range.stop ≤ cursor then none
  else if cursor ≤ payload.range.start then some payload
  else some (payload.sliceFrom cursor)

def payloadsFrom (cursor : ℕ) (payloads : List TerminalStreamDataPayload) :
    List TerminalStreamDataPayload :=
  payloads.filterMap (·.from? cursor)

def dropTerminalStreamPrefixBytes (state : TerminalStreamState) (bytes : ℕ) :
    TerminalStreamState :=
  if bytes = 0 then state
  else
    let oldestCursor :=
      max state.oldestCursor (min state.cursor (state.oldestCursor + bytes))
    { state with
      oldestCursor := oldestCursor
      bytesDropped := max state.bytesDropped oldestCursor
      frames := state.frames.filterMap fun frame =>
        (frame.payload.from? oldestCursor).map fun payload => { frame with payload := payload } }

structure TerminalStreamResizeInput where
  cols : ℕ
  rows : ℕ
  owner : TerminalStreamResizeOwner
  sourceClientId : String

def resizePayload (state : TerminalStreamState) (input : TerminalStreamResizeInput) :
    TerminalStreamResizePayload where
  cols := input.cols
  rows := input.rows
  owner := input.owner
  ownerClientId :=
    if input.owner = .active then some input.sourceClientId else state.activeResizeOwnerId
  sourceClientId := input.sourceClientId
  applied := decide (input.owner = .active)

def recordTerminalStreamResize (state : TerminalStreamState) (input : TerminalStreamResizeInput) :
    TerminalStreamState × TerminalStreamEnvelope :=
  ({ state with
      nextSeq := state.nextSeq + 1
      activeResizeOwnerId := (resizePayload state input).ownerClientId
      lastResize := some (resizePayload state input) },
    { seq := state.nextSeq
      cursor := state.cursor
      replay := false
      payload := .resize (resizePayload state input) })

/-! ## Replay -/

def terminalStreamMetadataPayload (state : TerminalStreamState) :
    TerminalStreamMetadataPayload where
  capacityBytes := state.capacityBytes
  bytesDropped := state.bytesDropped
  oldestCursor := state.oldestCursor
  latestCursor := state.cursor
  activeResizeOwnerId := state.activeResizeOwnerId
  lastResize := state.lastResize

def TerminalStreamLagReason.message : TerminalStreamLagReason → String
  | .cursorTooOld =>
    "requested terminal cursor is older than the bounded replay buffer; replay starts at the oldest retained cursor"
  | .cursorTooNew =>
    "requested terminal cursor is newer than the server cursor; replay is empty and live output will continue from the current cursor"
  | .serverBackfill => "server is backfilling terminal output from the requested cursor"

/-- Whether the requested cursor is outside what the stream retains, and on which side. -/
def lagReason (state : TerminalStreamState) (requestedCursor : ℕ) :
    Option TerminalStreamLagReason :=
  if requestedCursor < state.oldestCursor then some .cursorTooOld
  else if state.cursor < requestedCursor then some .cursorTooNew
  else if requestedCursor < state.cursor then some .serverBackfill
  else none

def replayStartCursor (state : TerminalStreamState) : Option ℕ → ℕ
  | none => state.oldestCursor
  | some requestedCursor =>
    if requestedCursor < state.oldestCursor then state.oldestCursor
    else if state.cursor < requestedCursor then state.cursor
    else max state.oldestCursor requestedCursor

def lagPayload (state : TerminalStreamState) (requestedCursor : Option ℕ)
    (reason : TerminalStreamLagReason) : TerminalStreamLagPayload where
  reason := reason
  requestedCursor := requestedCursor
  oldestCursor := state.oldestCursor
  latestCursor := state.cursor
  bytesDropped := state.bytesDropped
  message := reason.message

/-- The frames a replay sends. -/
def replayData (state : TerminalStreamState) (requestedCursor : Option ℕ) :
    List TerminalStreamDataPayload :=
  if requestedCursor.any (state.cursor < ·) then []
  else payloadsFrom (replayStartCursor state requestedCursor) (state.frames.map (·.payload))

/-- The cursors and payloads of a replay from its start on, in the order they are pushed. -/
def replayTail (state : TerminalStreamState) (requestedCursor : Option ℕ) :
    List (ℕ × TerminalStreamPayload) :=
  (replayStartCursor state requestedCursor,
      .replayStart requestedCursor (replayStartCursor state requestedCursor) state.cursor) ::
    ((replayData state requestedCursor).map (fun payload => (payload.range.stop, .data payload)) ++
      [(state.cursor, .replayEnd state.cursor (replayData state requestedCursor).length)])

/-- The notice of a replay, if the client has to be told. -/
def replayLag (state : TerminalStreamState) (requestedCursor : Option ℕ) :
    Option TerminalStreamPayload :=
  (requestedCursor.bind (lagReason state)).map fun reason =>
    .lag (lagPayload state requestedCursor reason)

def replayPayloads (state : TerminalStreamState) (requestedCursor : Option ℕ) :
    List (ℕ × TerminalStreamPayload) :=
  (replayStartCursor state requestedCursor, .metadata (terminalStreamMetadataPayload state)) ::
    match replayLag state requestedCursor with
    | some lag => (replayStartCursor state requestedCursor, lag) :: replayTail state requestedCursor
    | none => replayTail state requestedCursor

def buildTerminalStreamReplay (state : TerminalStreamState) (requestedCursor : Option ℕ) :
    List TerminalStreamEnvelope :=
  ((replayPayloads state requestedCursor).zipIdx state.nextSeq).map fun entry =>
    { seq := entry.2, cursor := entry.1.1, replay := true, payload := entry.1.2 }

/-! ## The frames are the output -/

def Shows (output : JsText) (payload : TerminalStreamDataPayload) : Prop :=
  payload.data <+: output.drop payload.range.start ∧
    payload.range.stop = payload.range.start + payload.data.length

variable {output : JsText} {payloads : List TerminalStreamDataPayload} {start stop cursor : ℕ}
  {state : TerminalStreamState}

variable {payload : TerminalStreamDataPayload}

theorem Shows.append
    (h : Shows output payload) (more : JsText) : Shows (output ++ more) payload := by
  refine ⟨?_, h.2⟩
  rw [drop_append]
  exact h.1.trans (prefix_append _ _)

theorem Shows.sliceFrom
    (h : Shows output payload) {cursor : ℕ} (hstart : payload.range.start ≤ cursor)
    (hstop : cursor ≤ payload.range.stop) : Shows output (payload.sliceFrom cursor) := by
  obtain ⟨⟨more, hmore⟩, hlength⟩ := h
  constructor
  · -- both sides drop the same text
    refine ⟨more, ?_⟩
    have hdrop : output.drop cursor =
        (output.drop payload.range.start).drop (cursor - payload.range.start) := by
      rw [drop_drop, Nat.add_sub_cancel' hstart]
    show payload.data.drop (cursor - payload.range.start) ++ more = output.drop cursor
    rw [hdrop, ← hmore, drop_append_of_le_length (by omega)]
  · simp only [TerminalStreamDataPayload.sliceFrom, length_drop]
    omega

/-- Payloads that cut the output between two cursors into pieces. -/
def Tiles (output : JsText) : ℕ → List TerminalStreamDataPayload → ℕ → Prop
  | start, [], stop => start = stop
  | start, payload :: payloads, stop =>
    payload.range.start = start ∧ Shows output payload ∧
      Tiles output payload.range.stop payloads stop

theorem Tiles.le (h : Tiles output start payloads stop) : start ≤ stop := by
  induction payloads generalizing start with
  | nil => exact Nat.le_of_eq h
  | cons payload payloads ih =>
    obtain ⟨hstart, hshows, hrest⟩ := h
    have hlength := hshows.2
    have hle := ih hrest
    omega

theorem Tiles.append {payloads' : List TerminalStreamDataPayload} {mid : ℕ}
    (h : Tiles output start payloads mid)
    (h' : Tiles output mid payloads' stop) : Tiles output start (payloads ++ payloads') stop := by
  induction payloads generalizing start with
  | nil =>
    rw [show start = mid from h]
    exact h'
  | cons payload payloads ih =>
    obtain ⟨hstart, hshows, hrest⟩ := h
    exact ⟨hstart, hshows, ih hrest⟩

section
variable (h : Tiles output start payloads stop)
include h

theorem Tiles.output_append (more : JsText) : Tiles (output ++ more) start payloads stop := by
  induction payloads generalizing start with
  | nil => exact h
  | cons payload payloads ih =>
    obtain ⟨hstart, hshows, hrest⟩ := h
    exact ⟨hstart, hshows.append more, ih hrest⟩

theorem Tiles.from_of_lt (hlt : cursor < start) : payloadsFrom cursor payloads = payloads := by
  induction payloads generalizing start with
  | nil => rfl
  | cons payload payloads ih =>
    obtain ⟨rfl, hshows, hrest⟩ := h
    have hlength := hshows.2
    have hnext := ih hrest (by omega)
    unfold payloadsFrom at hnext ⊢
    rw [filterMap_cons, TerminalStreamDataPayload.from?, if_neg (by omega),
      if_pos (by omega), hnext]

/-- **The output from a cursor on**: the payloads before the cursor show nothing of it, the one
    around the cursor is cut, and those behind it stay. -/
theorem Tiles.from (hstart : start ≤ cursor)
    (hstop : cursor ≤ stop) : Tiles output cursor (payloadsFrom cursor payloads) stop := by
  induction payloads generalizing start with
  | nil =>
    have heq : start = stop := h
    show cursor = stop
    omega
  | cons payload payloads ih =>
    obtain ⟨rfl, hshows, hrest⟩ := h
    by_cases hbefore : payload.range.stop ≤ cursor
    · have hnext := ih hrest hbefore
      unfold payloadsFrom at hnext ⊢
      rw [filterMap_cons, TerminalStreamDataPayload.from?, if_pos hbefore]
      exact hnext
    · have hbehind := hrest.from_of_lt (show cursor < payload.range.stop by omega)
      unfold payloadsFrom at hbehind ⊢
      rw [filterMap_cons, TerminalStreamDataPayload.from?, if_neg hbefore, hbehind]
      by_cases hwhole : cursor ≤ payload.range.start
      · -- the cursor is where the payload starts
        rw [if_pos hwhole]
        exact ⟨by omega, hshows, hrest⟩
      · rw [if_neg hwhole]
        exact ⟨rfl, hshows.sliceFrom hstart (by omega), hrest⟩

end

structure Retains (output : JsText) (state : TerminalStreamState) : Prop where
  cursor : state.cursor = output.length
  tiles : Tiles output state.oldestCursor (state.frames.map (·.payload)) state.cursor

theorem Retains.oldest_le (h : Retains output state) : state.oldestCursor ≤ state.cursor :=
  h.tiles.le

theorem tiles_trimFrames (capacityBytes : ℕ)
    {frames : List TerminalStreamDataEnvelope} {oldestCursor : ℕ} (bytesDropped : ℕ)
    (h : Tiles output oldestCursor (frames.map (·.payload)) cursor) :
    let trimmed := trimFrames cursor capacityBytes oldestCursor bytesDropped frames
    Tiles output trimmed.1 (trimmed.2.2.map (·.payload)) cursor := by
  fun_induction trimFrames cursor capacityBytes oldestCursor bytesDropped frames with
  | case1 oldestCursor bytesDropped evicted next frames hover ih =>
    obtain ⟨-, -, hrest⟩ := h
    exact ih hrest
  | case2 oldestCursor bytesDropped evicted next frames hfits
  | case3 oldestCursor bytesDropped frames hfew => exact h

theorem Retains.trim (h : Retains output state) :
    Retains output (trimTerminalStreamToCapacity state) where
  cursor := h.cursor
  tiles := tiles_trimFrames state.capacityBytes state.bytesDropped h.tiles

theorem Retains.shows (h : Retains output state) (data : JsText) (replay : Bool) :
    Shows (output ++ data) (dataEnvelope state data replay).payload := by
  refine ⟨?_, rfl⟩
  have hdrop : (output ++ data).drop state.cursor = data := by rw [h.cursor, drop_left]
  exact ⟨[], (append_nil data).trans hdrop.symm⟩

/-- **Output** is retained. -/
theorem Retains.append (h : Retains output state) (data : JsText) (replay : Bool) :
    Retains (output ++ data) (appendTerminalStreamData state data replay) := by
  apply Retains.trim
  constructor
  · show state.cursor + data.length = _
    rw [length_append, h.cursor]
  · -- one more payload behind the others
    simp only [map_append]
    apply (h.tiles.output_append data).append
    exact ⟨rfl, h.shows data replay, rfl⟩

theorem retains_create (capacityBytes : ℕ) (initialChunks : List JsText) (evicted : JsText) :
    Retains (evicted ++ initialChunks.flatten)
      (createTerminalStreamState capacityBytes initialChunks evicted.length) := by
  have hfold : ∀ (chunks : List JsText) (output : JsText) (state : TerminalStreamState),
      Retains output state → Retains (output ++ chunks.flatten)
        (chunks.foldl (fun state chunk => appendTerminalStreamData state chunk true) state) := by
    intro chunks
    induction chunks with
    | nil =>
      intro output state h
      rw [flatten_nil, append_nil]
      exact h
    | cons chunk chunks ih =>
      intro output state h
      rw [flatten_cons, ← append_assoc]
      exact ih _ _ (h.append chunk true)
  apply hfold
  exact ⟨rfl, rfl⟩

section
variable (h : Retains output state)
include h

/-- **Dropping a prefix** leaves the output behind it. -/
theorem Retains.dropPrefix (bytes : ℕ) :
    Retains output (dropTerminalStreamPrefixBytes state bytes) := by
  unfold dropTerminalStreamPrefixBytes
  split
  · exact h
  · have hle := h.oldest_le
    refine ⟨h.cursor, ?_⟩
    have htiles := h.tiles.from (le_max_left state.oldestCursor
      (min state.cursor (state.oldestCursor + bytes))) (by omega)
    unfold payloadsFrom at htiles
    rw [map_filterMap]
    simpa [Function.comp_def] using htiles

theorem Retains.resize (input : TerminalStreamResizeInput) :
    Retains output (recordTerminalStreamResize state input).1 :=
  ⟨h.cursor, h.tiles⟩

/-! ## What a replay sends -/

theorem Retains.le_replayStartCursor (requestedCursor : Option ℕ) :
    state.oldestCursor ≤ replayStartCursor state requestedCursor ∧
      replayStartCursor state requestedCursor ≤ state.cursor := by
  have hle := h.oldest_le
  cases requestedCursor with
  | none => exact ⟨le_refl _, hle⟩
  | some requestedCursor =>
    unfold replayStartCursor
    dsimp only
    split
    · exact ⟨le_refl _, hle⟩
    · split
      · exact ⟨hle, le_refl _⟩
      · omega

/-- **A replay sends the output** from its start on, unless the client is ahead of the stream. -/
theorem Retains.replayData {requestedCursor : Option ℕ}
    (hrequested : requestedCursor.any (state.cursor < ·) = false) :
    Tiles output (replayStartCursor state requestedCursor) (replayData state requestedCursor)
      state.cursor := by
  obtain ⟨hstart, hstop⟩ := h.le_replayStartCursor requestedCursor
  unfold Terminal.replayData
  rw [if_neg (by rw [hrequested]; exact Bool.false_ne_true)]
  exact h.tiles.from hstart hstop

end

end RelayIde.Terminal
