import RelayIde.Library.Machine
import RelayIde.Terminal.Lane

/-!
# What a Terminal Client Receives

The data a client receives is the output of the session, one range behind the other, unless a notice
says where it goes on.  A replay sends its cursor ahead of the notice, and the replay at connect
time is not healed when data is shed; both show when the client comes back.

- `contiguous_of_run` — runs in which nothing is shed at connect time and no notice is cut off
-/

namespace RelayIde.Terminal

open List

open Library (JsText Guarded exec exec_invariant_of_guarded)

/-! ## What the client sees -/

def resume (position : Option ℕ) : TerminalStreamPayload → Option ℕ
  | .data payload => if payload.data = [] then position else some payload.range.stop
  | .lag payload => if payload.reason = .cursorTooOld then some payload.oldestCursor else position
  | _ => position

def Follows (output : JsText) (position : Option ℕ) : TerminalStreamPayload → Prop
  | .data payload =>
    Shows output payload ∧ (payload.data ≠ [] → ∀ x ∈ position, x = payload.range.start)
  | .lag payload => payload.reason = .cursorTooOld → ∀ x ∈ position, x ≤ payload.oldestCursor
  | _ => True

/-- **Received envelopes without an unannounced gap**, from a position on. -/
def Contiguous (output : JsText) : Option ℕ → List TerminalStreamEnvelope → Prop
  | _, [] => True
  | position, envelope :: envelopes =>
    Follows output position envelope.payload ∧
      Contiguous output (resume position envelope.payload) envelopes

structure View where
  position : Option ℕ
  cursor : ℕ

def View.receive (v : View) (content : ℕ × TerminalStreamPayload) : View where
  position := resume v.position content.2
  cursor := max v.cursor content.1

def PtyConnection.view (conn : PtyConnection) : View where
  position := conn.received.foldl (fun position envelope => resume position envelope.payload) none
  cursor := conn.terminalStreamCursor

/-- The cursor is where the output goes on. -/
def View.Settled (v : View) : Prop :=
  ∀ x ∈ v.position, x = v.cursor

def TerminalStreamEnvelope.content (envelope : TerminalStreamEnvelope) :
    ℕ × TerminalStreamPayload :=
  (envelope.cursor, envelope.payload)

theorem view_handle (conn : PtyConnection) (envelope : TerminalStreamEnvelope) :
    (handleTerminalStreamEnvelope conn envelope).view = conn.view.receive envelope.content := by
  simp [PtyConnection.view, handleTerminalStreamEnvelope, View.receive,
    TerminalStreamEnvelope.content]

def Arrives (output : JsText) (v : View) : ℕ × TerminalStreamPayload → Prop
  | (cursor, .data payload) =>
    v.Settled ∧ payload.range.start = v.cursor ∧ cursor = payload.range.stop ∧ Shows output payload
  | (cursor, .lag payload) =>
    payload.reason = .cursorTooOld → payload.oldestCursor = cursor ∧ v.cursor ≤ cursor ∧ 0 < cursor
  | _ => True

/-- Envelopes that follow one another. -/
def Flows (output : JsText) : View → List (ℕ × TerminalStreamPayload) → Prop
  | _, [] => True
  | v, content :: contents => Arrives output v content ∧ Flows output (v.receive content) contents

/-- The view behind envelopes that are still on their way. -/
def View.after (v : View) (contents : List (ℕ × TerminalStreamPayload)) : View :=
  contents.foldl View.receive v

theorem cursor_le_after (v : View) (contents : List (ℕ × TerminalStreamPayload)) :
    v.cursor ≤ (v.after contents).cursor := by
  induction contents generalizing v with
  | nil => exact le_refl _
  | cons content contents ih =>
    apply le_trans (le_max_left v.cursor content.1)
    exact ih (v.receive content)

theorem after_append (v : View) (contents contents' : List (ℕ × TerminalStreamPayload)) :
    v.after (contents ++ contents') = (v.after contents).after contents' :=
  foldl_append

variable {v : View} {contents : List (ℕ × TerminalStreamPayload)}
  {position requestedCursor : Option ℕ} {envelopes : List TerminalStreamEnvelope}
  {envelope : TerminalStreamEnvelope} {state : TerminalStreamState} {ws : Socket} {s : Delivery}

section
variable {output : JsText}

theorem flows_append
    {contents' : List (ℕ × TerminalStreamPayload)} (h : Flows output v contents)
    (h' : Flows output (v.after contents) contents') : Flows output v (contents ++ contents') := by
  induction contents generalizing v with
  | nil => exact h'
  | cons content contents ih => exact ⟨h.1, ih h.2 h'⟩

theorem Arrives.output_append {content : ℕ × TerminalStreamPayload}
    (h : Arrives output v content) (more : JsText) : Arrives (output ++ more) v content := by
  obtain ⟨cursor, payload⟩ := content
  cases payload with
  | data payload => exact ⟨h.1, h.2.1, h.2.2.1, h.2.2.2.append more⟩
  | lag payload => exact h
  | metadata payload | replayStart requestedCursor startCursor endCursor
  | replayEnd cursor replayedFrames | resize payload => trivial

theorem Flows.output_append (h : Flows output v contents) (more : JsText) :
    Flows (output ++ more) v contents := by
  induction contents generalizing v with
  | nil => trivial
  | cons content contents ih => exact ⟨h.1.output_append more, ih h.2⟩

theorem Follows.output_append
    {payload : TerminalStreamPayload} (h : Follows output position payload) (more : JsText) :
    Follows (output ++ more) position payload := by
  cases payload with
  | data payload => exact ⟨h.1.append more, h.2⟩
  | lag payload => exact h
  | metadata payload => trivial
  | replayStart requestedCursor startCursor endCursor => trivial
  | replayEnd cursor replayedFrames => trivial
  | resize payload => trivial

theorem Contiguous.output_append (h : Contiguous output position envelopes)
    (more : JsText) :
    Contiguous (output ++ more) position envelopes := by
  induction envelopes generalizing position with
  | nil => trivial
  | cons envelope envelopes ih =>
    exact ⟨h.1.output_append more, ih h.2⟩

theorem Contiguous.concat (h : Contiguous output position envelopes)
    (hfollows : Follows output
      (envelopes.foldl (fun position envelope => resume position envelope.payload) position)
      envelope.payload) : Contiguous output position (envelopes ++ [envelope]) := by
  induction envelopes generalizing position with
  | nil => exact ⟨hfollows, trivial⟩
  | cons first envelopes ih => exact ⟨h.1, ih h.2 hfollows⟩

/-- A position is one of a byte received, and not ahead of the cursor. -/
def View.Behind (v : View) : Prop :=
  ∀ x ∈ v.position, 0 < x ∧ x ≤ v.cursor

theorem Arrives.follows
    (h : Arrives output v envelope.content) (hbehind : v.Behind) :
    Follows output v.position envelope.payload := by
  unfold TerminalStreamEnvelope.content at h
  unfold Follows
  split
  · rename_i payload hpayload
    rw [hpayload] at h
    obtain ⟨hsettled, hstart, -, hshows⟩ := h
    refine ⟨hshows, fun _ x hx => ?_⟩
    rw [hstart]
    exact hsettled x hx
  · rename_i payload hpayload
    rw [hpayload] at h
    intro hold x hx
    obtain ⟨holdest, hcursor, -⟩ := h hold
    rw [holdest]
    exact (hbehind x hx).2.trans hcursor
  · trivial

theorem View.Behind.receive (hbehind : v.Behind)
    {content : ℕ × TerminalStreamPayload} (h : Arrives output v content) :
    (v.receive content).Behind := by
  obtain ⟨cursor, payload⟩ := content
  -- a position that stays is still behind the cursor
  have hstays : ∀ x ∈ v.position, 0 < x ∧ x ≤ max v.cursor cursor :=
    fun x hx => ⟨(hbehind x hx).1, (hbehind x hx).2.trans (le_max_left _ _)⟩
  intro x hx
  unfold View.receive resume at hx
  cases payload with
  | data payload =>
    dsimp only at hx
    obtain ⟨hsettled, hstart, hcursor, hshows⟩ := h
    split at hx
    · exact hstays x hx
    · rename_i hne
      obtain rfl := Option.mem_some_iff.mp hx
      have hlength := length_pos_of_ne_nil hne
      have hstop := hshows.2
      exact ⟨by omega, hcursor ▸ le_max_right _ _⟩
  | lag payload =>
    dsimp only at hx
    split at hx
    · rename_i hold
      obtain rfl := Option.mem_some_iff.mp hx
      obtain ⟨holdest, hcursor, hpos⟩ := h hold
      exact ⟨holdest ▸ hpos, holdest ▸ le_max_right _ _⟩
    · exact hstays x hx
  | metadata payload | replayStart requestedCursor startCursor endCursor
  | replayEnd cursor replayedFrames | resize payload => exact hstays x hx

/-! ## Replays -/

theorem receive_data (hsettled : v.Settled)
    {payload : TerminalStreamDataPayload} (hstart : payload.range.start = v.cursor)
    (hshows : Shows output payload) :
    (v.receive (payload.range.stop, .data payload)).Settled ∧
      (v.receive (payload.range.stop, .data payload)).cursor = payload.range.stop := by
  have hstop := hshows.2
  have hcursor : max v.cursor payload.range.stop = payload.range.stop := max_eq_right (by omega)
  refine ⟨?_, hcursor⟩
  intro x hx
  show x = max v.cursor payload.range.stop
  unfold View.receive resume at hx
  dsimp only at hx
  split at hx
  · rename_i hempty
    rw [hempty, length_nil] at hstop
    rw [hsettled x hx]
    omega
  · obtain rfl := Option.mem_some_iff.mp hx
    exact hcursor.symm

theorem flows_tiles {payloads : List TerminalStreamDataPayload} {start stop : ℕ}
    (h : Tiles output start payloads stop) (hsettled : v.Settled)
    (hcursor : v.cursor = start) :
    let contents := payloads.map fun payload =>
    (payload.range.stop, TerminalStreamPayload.data payload)
    Flows output v contents ∧ (v.after contents).Settled ∧ (v.after contents).cursor = stop := by
  induction payloads generalizing start v with
  | nil => exact ⟨trivial, hsettled, hcursor.trans h⟩
  | cons payload payloads ih =>
    obtain ⟨hstart, hshows, hrest⟩ := h
    obtain ⟨hsettled', hcursor'⟩ := receive_data hsettled (hstart.trans hcursor.symm) hshows
    obtain ⟨hflows, hafter⟩ := ih hrest hsettled' hcursor'
    exact ⟨⟨⟨hsettled, hstart.trans hcursor.symm, rfl, hshows⟩, hflows⟩, hafter⟩

end

/-- An envelope that neither carries data nor a notice, and whose cursor is no news. -/
theorem receive_of_le {cursor : ℕ} {p : TerminalStreamPayload}
    (hresume : resume v.position p = v.position) (hle : cursor ≤ v.cursor) :
    v.receive (cursor, p) = v := by
  unfold View.receive
  rw [hresume, max_eq_left hle]

theorem content_buildTerminalStreamReplay (state : TerminalStreamState)
    (requestedCursor : Option ℕ) :
    (buildTerminalStreamReplay state requestedCursor).map (·.content) =
      replayPayloads state requestedCursor := by
  unfold buildTerminalStreamReplay
  rw [map_map]
  show ((replayPayloads state requestedCursor).zipIdx state.nextSeq).map Prod.fst = _
  exact zipIdx_map_fst _ _

theorem flows_replayTail {output : JsText} (h : Retains output state)
    (hrequested : requestedCursor.any (state.cursor < ·) = false) (hsettled : v.Settled)
    (hcursor : v.cursor = replayStartCursor state requestedCursor) :
    Flows output v (replayTail state requestedCursor) ∧
      (v.after (replayTail state requestedCursor)).Settled ∧
      (v.after (replayTail state requestedCursor)).cursor = state.cursor := by
  obtain ⟨hflows, hsettled', hcursor'⟩ := flows_tiles (h.replayData hrequested) hsettled hcursor
  unfold replayTail
  generalize (replayData state requestedCursor).map (fun payload =>
    (payload.range.stop, TerminalStreamPayload.data payload)) = data at hflows hsettled' hcursor' ⊢
  generalize (replayData state requestedCursor).length = replayedFrames
  -- the envelopes around the data are no news
  have hstart : v.receive (replayStartCursor state requestedCursor, .replayStart requestedCursor
      (replayStartCursor state requestedCursor) state.cursor) = v :=
    receive_of_le rfl hcursor.ge
  have hstop : (v.after data).receive (state.cursor, .replayEnd state.cursor replayedFrames) =
      v.after data :=
    receive_of_le rfl hcursor'.ge
  have hend : v.after ((replayStartCursor state requestedCursor, .replayStart requestedCursor
      (replayStartCursor state requestedCursor) state.cursor) ::
      (data ++ [(state.cursor, .replayEnd state.cursor replayedFrames)])) = v.after data := by
    show (v.receive _).after (data ++ _) = _
    rw [hstart, after_append]
    exact hstop
  refine ⟨⟨trivial, ?_⟩, hend ▸ hsettled', hend ▸ hcursor'⟩
  rw [hstart]
  exact flows_append hflows ⟨trivial, trivial⟩

/-- Two ways to follow a view: over an envelope that is no news, and over one that is. -/
theorem flows_cons {output : JsText} {v' : View} {content : ℕ × TerminalStreamPayload} {stop : ℕ}
    (harrives : Arrives output v content)
    (hreceive : v.receive content = v')
    (h : Flows output v' contents ∧ (v'.after contents).Settled ∧
      (v'.after contents).cursor = stop) :
    Flows output v (content :: contents) ∧ (v.after (content :: contents)).Settled ∧
      (v.after (content :: contents)).cursor = stop := by
  subst hreceive
  exact ⟨⟨harrives, h.1⟩, h.2⟩

/-- **A replay** brings a settled view up to the stream, from the cursor it asks for. -/
theorem flows_replay {output : JsText} (h : Retains output state) (hsettled : v.Settled)
    (hle : v.cursor ≤ state.cursor)
    (hrequested : requestedCursor = some v.cursor ∨
      (requestedCursor = none ∧ v.position = none ∧ v.cursor = 0)) :
    Flows output v (replayPayloads state requestedCursor) ∧
      (v.after (replayPayloads state requestedCursor)).Settled ∧
      (v.after (replayPayloads state requestedCursor)).cursor = state.cursor := by
  unfold replayPayloads
  rcases hrequested with rfl | ⟨rfl, hnone, hzero⟩
  · have hany : (some v.cursor).any (state.cursor < ·) = false := by simpa using hle
    by_cases hold : v.cursor < state.oldestCursor
    · -- the metadata runs ahead, and the notice says so
      have hlag : replayLag state (some v.cursor) =
          some (.lag (lagPayload state (some v.cursor) .cursorTooOld)) := by
        show ((lagReason state v.cursor).map _) = _
        rw [lagReason, if_pos hold]
        rfl
      have hstart : replayStartCursor state (some v.cursor) = state.oldestCursor := if_pos hold
      have htail := flows_replayTail h hany
        (v := { position := some state.oldestCursor, cursor := state.oldestCursor })
        (fun x hx => (Option.mem_some_iff.mp hx).symm) hstart.symm
      rw [hlag, hstart]
      have hnotice : (v.receive (state.oldestCursor, .metadata
          (terminalStreamMetadataPayload state))).receive (state.oldestCursor, .lag
          (lagPayload state (some v.cursor) .cursorTooOld)) =
          { position := some state.oldestCursor, cursor := state.oldestCursor } := by
        show View.mk _ (max (max v.cursor state.oldestCursor) state.oldestCursor) = _
        rw [max_eq_right hold.le, max_self]
        rfl
      refine flows_cons ?_ rfl (flows_cons ?_ hnotice htail)
      · trivial
      · exact fun _ => ⟨rfl, max_le hold.le (le_refl _), by omega⟩
    · -- the client is where the replay starts
      have hstart : replayStartCursor state (some v.cursor) = v.cursor := by
        unfold replayStartCursor
        dsimp only
        rw [if_neg hold, if_neg (by omega), max_eq_right (by omega)]
      have htail := flows_replayTail h hany hsettled hstart.symm
      rw [hstart]
      refine flows_cons ?_ (receive_of_le rfl (le_refl _)) ?_
      · trivial
      unfold replayLag
      rw [Option.bind_some, lagReason, if_neg hold, if_neg (by omega)]
      by_cases hbehind : v.cursor < state.cursor
      · rw [if_pos hbehind]
        refine flows_cons ?_ (receive_of_le rfl (le_refl _)) htail
        intro hreason
        cases hreason
      · rw [if_neg hbehind]
        exact htail
  · -- a client without a cursor takes what there is
    have hany : (none : Option ℕ).any (state.cursor < ·) = false := rfl
    have htail := flows_replayTail h hany
      (v := { position := none, cursor := state.oldestCursor }) (by simp [View.Settled]) rfl
    refine flows_cons ?_ ?_ htail
    · trivial
    show View.mk v.position (max v.cursor state.oldestCursor) = _
    rw [hnone, hzero, Nat.zero_max]

/-! ## Runs -/

/-- Nothing is shed of a replay that is sent from `i` on: an envelope with data does not meet a
    backed-up socket, unless the socket has been closed. -/
def ShedsNothing (buffered : ℕ → ℕ) : ℕ → List TerminalStreamEnvelope → Prop
  | _, [] => True
  | i, envelope :: envelopes =>
    WS_HARD_LIMIT_BYTES < buffered i ∨
      (¬(WS_SOFT_LIMIT_BYTES < buffered i ∧
          ∃ payload, envelope.payload = .data payload ∧ payload.data ≠ []) ∧
        ShedsNothing buffered (i + 1) envelopes)

def Unbroken (s : Delivery) : DeliveryOp → Prop
  | .disconnect => s.client.view.Settled
  | .connect buffered =>
    s.connected = false → ShedsNothing buffered 0
      (buildTerminalStreamReplay s.stream (replayCursor s.client))
  | _ => True

theorem sendReplay_closed (buffered : ℕ → ℕ) (i : ℕ) (h : ws.isOpen = false)
    (envelopes : List TerminalStreamEnvelope) : sendReplay buffered i ws envelopes = ws := by
  induction envelopes generalizing i with
  | nil => rfl
  | cons envelope envelopes ih =>
    unfold sendReplay sendTerminalStreamEnvelope sendWithBackpressure
    rw [if_pos h]
    exact ih (i + 1)

theorem receive_empty {output : JsText}
    (h : Arrives output v envelope.content) (hdata : envelope.isData = true)
    (hempty : ∀ payload, envelope.payload = .data payload → payload.data = []) :
    v.receive envelope.content = v := by
  obtain ⟨seq, cursor, replay, payload⟩ := envelope
  cases payload with
  | data payload =>
    obtain ⟨-, hstart, hcursor, hshows⟩ := h
    have hnil := hempty payload rfl
    have hstop := hshows.2
    rw [hnil, length_nil] at hstop
    exact receive_of_le (if_pos hnil) (by omega)
  | metadata payload | replayStart requestedCursor startCursor endCursor
  | replayEnd cursor replayedFrames | lag payload | resize payload => cases hdata

/-- **The replay at connect time**, when nothing of it is shed. -/
theorem flows_sendReplay {output : JsText} (buffered : ℕ → ℕ)
    (envelopes : List TerminalStreamEnvelope) {i : ℕ}
    (hopen : ws.isOpen = true) (hflows : Flows output v (envelopes.map (·.content)))
    (hsheds : ShedsNothing buffered i envelopes) :
    ∃ sent, (sendReplay buffered i ws envelopes).inFlight = ws.inFlight ++ sent ∧
      Flows output v (sent.map (·.content)) ∧
      (v.after (sent.map (·.content))).cursor ≤ (v.after (envelopes.map (·.content))).cursor ∧
      ((sendReplay buffered i ws envelopes).isOpen = true →
        v.after (sent.map (·.content)) = v.after (envelopes.map (·.content))) := by
  induction envelopes generalizing i ws v with
  | nil => exact ⟨[], (append_nil _).symm, trivial, le_refl _, fun _ => rfl⟩
  | cons envelope envelopes ih =>
    unfold sendReplay sendTerminalStreamEnvelope sendWithBackpressure
    rw [if_neg (by rw [hopen]; simp)]
    obtain ⟨harrives, hflows⟩ := hflows
    rcases hsheds with hhard | ⟨hkept, hsheds⟩
    · -- the socket is closed here, and nothing more is sent
      rw [if_pos hhard, sendReplay_closed buffered (i + 1) rfl]
      refine ⟨[], (append_nil _).symm, trivial, cursor_le_after v _, fun hclosed => ?_⟩
      cases hclosed
    · by_cases hhard : WS_HARD_LIMIT_BYTES < buffered i
      · rw [if_pos hhard, sendReplay_closed buffered (i + 1) rfl]
        refine ⟨[], (append_nil _).symm, trivial, cursor_le_after v _, fun hclosed => ?_⟩
        cases hclosed
      · rw [if_neg hhard, if_neg (by simp)]
        split
        · -- what is shed carries no byte
          rename_i hshed
          have hsame : v.receive envelope.content = v := by
            apply receive_empty harrives hshed.2
            intro payload hpayload
            by_contra hne
            exact hkept ⟨hshed.1, payload, hpayload, hne⟩
          rw [hsame] at hflows
          obtain ⟨sent, hsent, hflows', hcursor, hend⟩ := ih hopen hflows hsheds
          refine ⟨sent, hsent, hflows', ?_, ?_⟩
          · show _ ≤ ((v.receive envelope.content).after _).cursor
            rw [hsame]
            exact hcursor
          · show _ → _ = (v.receive envelope.content).after _
            rw [hsame]
            exact hend
        · have hopen' : (ws.send [envelope]).isOpen = true := hopen
          obtain ⟨sent, hsent, hflows', hcursor, hend⟩ := ih hopen' hflows hsheds
          refine ⟨envelope :: sent, ?_, ⟨harrives, hflows'⟩, hcursor, hend⟩
          rw [hsent]
          exact append_assoc _ _ _

/-- The view of the client when all that is on its way has arrived. -/
def Delivery.ending (s : Delivery) : View :=
  s.client.view.after (s.ws.inFlight.map (·.content))

/-- What was received has no unannounced gap, and what is on its way keeps it so. -/
structure Flowing (s : Delivery) : Prop where
  retains : Retains s.output s.stream
  received : Contiguous s.output none s.client.received
  behind : s.client.view.Behind
  flows : Flows s.output s.client.view (s.ws.inFlight.map (·.content))
  ahead : s.ending.cursor ≤ s.stream.cursor
  cut : s.connected = false →
    s.ws.isOpen = false ∧ s.ws.inFlight = [] ∧ s.client.view.Settled

/-- Where an open socket stands: at the stream, or at the gap of a lane that lags. -/
def Live (s : Delivery) : Prop :=
  s.ws.isOpen = true → s.ending.Settled ∧
    s.ending.cursor = if s.lane.lagging then s.lane.gapStartCursor else s.stream.cursor

/-- **The delivery invariant.** -/
structure Delivering (s : Delivery) : Prop extends Flowing s where
  live : Live s

theorem ending_send (s : Delivery) (lane : TerminalLaneState)
    (frames : List TerminalStreamEnvelope) :
    Delivery.ending { s with lane := lane, ws := s.ws.send frames } =
      s.ending.after (frames.map (·.content)) := by
  unfold Delivery.ending Socket.send
  rw [map_append, after_append]

theorem Flowing.send (h : Flowing s) (lane : TerminalLaneState)
    {frames : List TerminalStreamEnvelope} (hopen : s.ws.isOpen = true)
    (hflows : Flows s.output s.ending (frames.map (·.content)))
    (hcursor : (s.ending.after (frames.map (·.content))).cursor ≤ s.stream.cursor) :
    Flowing { s with lane := lane, ws := s.ws.send frames } where
  retains := h.retains
  received := h.received
  behind := h.behind
  flows := by
    unfold Socket.send
    rw [map_append]
    exact flows_append h.flows hflows
  ahead := by
    rw [ending_send]
    exact hcursor
  cut hconnected := by
    have hclosed := (h.cut hconnected).1
    rw [hopen] at hclosed
    cases hclosed

structure Expects (s : Delivery) (envelope : TerminalStreamEnvelope) : Prop where
  settled : s.ending.Settled
  lagging : s.lane.lagging = true → s.ending.cursor = s.lane.gapStartCursor
  arrives : s.lane.lagging = false → Arrives s.output s.ending envelope.content
  received : s.lane.lagging = false → (s.ending.receive envelope.content).Settled ∧
    (s.ending.receive envelope.content).cursor = s.stream.cursor
  gapStart : s.lane.lagging = false → envelope.isData = true → envelope.gapStart = s.ending.cursor

/-- **The lane** sends, sheds or heals, and stands where the next envelope is expected. -/
theorem Flowing.fanOut (h : Flowing s) (buffered : ℕ)
    (hexpects : s.ws.isOpen = true → Expects s envelope) :
    Delivering (s.fanOut buffered envelope) := by
  unfold Delivery.fanOut terminalStreamSubscriber deliverTerminalEnvelope
  by_cases hopen : s.ws.isOpen = false
  · rw [if_pos hopen]
    refine ⟨h, fun hlive => ?_⟩
    rw [show s.ws.isOpen = true from hlive] at hopen
    cases hopen
  · have hopen' : s.ws.isOpen = true := by simpa using hopen
    obtain ⟨hsettled, hlagging, harrives, hreceived, hgap⟩ := hexpects hopen'
    rw [if_neg hopen]
    by_cases hhard : WS_HARD_LIMIT_BYTES < buffered
    · rw [if_pos hhard]
      refine ⟨⟨h.retains, h.received, h.behind, h.flows, h.ahead, fun hconnected => ?_⟩, ?_⟩
      · exact ⟨rfl, (h.cut hconnected).2⟩
      · intro hlive
        cases hlive
    · rw [if_neg hhard]
      cases hlag : s.lane.lagging with
      | true =>
        have hstart := hlagging hlag
        rw [if_pos rfl]
        split
        · -- drained: the replay heals the gap
          have hrequested : some s.lane.gapStartCursor = some s.ending.cursor ∨
              (some s.lane.gapStartCursor = none ∧ s.ending.position = none ∧ s.ending.cursor = 0) :=
            .inl (congrArg some hstart.symm)
          have hreplay := flows_replay h.retains hsettled h.ahead hrequested
          rw [← content_buildTerminalStreamReplay] at hreplay
          refine ⟨h.send _ hopen' hreplay.1 hreplay.2.2.le, fun _ => ?_⟩
          rw [ending_send]
          exact hreplay.2
        · refine ⟨h, fun _ => ⟨hsettled, ?_⟩⟩
          show s.ending.cursor = if s.lane.lagging then _ else _
          rw [hlag]
          exact hstart
      | false =>
        rw [if_neg Bool.false_ne_true]
        split
        · -- shed: the lane remembers where
          rename_i hshed
          refine ⟨⟨h.retains, h.received, h.behind, h.flows, h.ahead, h.cut⟩, fun _ => ?_⟩
          exact ⟨hsettled, (hgap hlag hshed.2).symm⟩
        · have hflows : Flows s.output s.ending ([envelope].map (·.content)) :=
            ⟨harrives hlag, trivial⟩
          refine ⟨h.send _ hopen' hflows (hreceived hlag).2.le, fun _ => ?_⟩
          rw [ending_send]
          refine ⟨(hreceived hlag).1, ?_⟩
          show _ = if s.lane.lagging then _ else _
          rw [hlag]
          exact (hreceived hlag).2

theorem Delivering.output (h : Delivering s) (data : JsText) (buffered : ℕ) :
    Delivering (deliveryStep s (.output data buffered)) := by
  apply Flowing.fanOut
  · refine ⟨h.retains.append data false, h.received.output_append data, h.behind,
      h.flows.output_append data, ?_, h.cut⟩
    exact h.ahead.trans (Nat.le_add_right _ _)
  · intro hopen
    obtain ⟨hsettled, hcursor⟩ := h.live hopen
    have hshows := h.retains.shows data false
    have hatStream : s.lane.lagging = false → s.ending.cursor = s.stream.cursor := by
      intro hlag
      rw [hcursor, hlag]
      rfl
    refine ⟨hsettled, fun hlag => ?_, fun hlag => ?_, fun hlag => ?_, fun hlag _ => ?_⟩
    · rw [show s.lane.lagging = true from hlag] at hcursor
      exact hcursor
    · exact ⟨hsettled, (hatStream hlag).symm, rfl, hshows⟩
    · exact receive_data hsettled (hatStream hlag).symm hshows
    · exact (hatStream hlag).symm

theorem Delivering.resize (h : Delivering s) (input : TerminalStreamResizeInput)
    (sessionFound : Bool) (buffered : ℕ) :
    Delivering (deliveryStep s (.resize input sessionFound buffered)) := by
  have hflowing : Flowing { s with stream := (recordTerminalStreamResize s.stream input).1 } :=
    ⟨h.retains.resize input, h.received, h.behind, h.flows, h.ahead, h.cut⟩
  cases sessionFound with
  | false => exact ⟨hflowing, h.live⟩
  | true =>
    apply hflowing.fanOut
    intro hopen
    obtain ⟨hsettled, hcursor⟩ := h.live hopen
    have hatStream : s.lane.lagging = false → s.ending.cursor = s.stream.cursor := by
      intro hlag
      rw [hcursor, hlag]
      rfl
    have hsame : s.lane.lagging = false →
        s.ending.receive (s.stream.cursor, .resize (resizePayload s.stream input)) = s.ending :=
      fun hlag => receive_of_le rfl (hatStream hlag).ge
    refine ⟨hsettled, fun hlag => ?_, fun _ => trivial, fun hlag => ?_, fun _ hdata => ?_⟩
    · rw [show s.lane.lagging = true from hlag] at hcursor
      exact hcursor
    · exact ⟨(hsame hlag).symm ▸ hsettled, (congrArg View.cursor (hsame hlag)).trans (hatStream hlag)⟩
    · cases hdata

theorem Delivering.receive (h : Delivering s) : Delivering (deliveryStep s .receive) := by
  unfold deliveryStep
  cases hflight : s.ws.inFlight with
  | nil => simpa using h
  | cons envelope inFlight =>
    have hflows := h.flows
    rw [hflight] at hflows
    obtain ⟨harrives, hrest⟩ := hflows
    have hview : (handleTerminalStreamEnvelope s.client envelope).view =
        s.client.view.receive envelope.content := view_handle s.client envelope
    have hend : Delivery.ending { s with
        ws := { s.ws with inFlight := inFlight }
        client := handleTerminalStreamEnvelope s.client envelope } = s.ending := by
      unfold Delivery.ending
      rw [hflight]
      show View.after _ _ = View.after (s.client.view.receive envelope.content) _
      rw [← hview]
    refine ⟨⟨h.retains, ?_, ?_, ?_, ?_, fun hconnected => ?_⟩, ?_⟩
    · exact h.received.concat (harrives.follows h.behind)
    · show View.Behind (handleTerminalStreamEnvelope s.client envelope).view
      rw [hview]
      exact h.behind.receive harrives
    · show Flows s.output (handleTerminalStreamEnvelope s.client envelope).view _
      rw [hview]
      exact hrest
    · rw [hend]
      exact h.ahead
    · have hnone := (h.cut hconnected).2.1
      rw [hflight] at hnone
      cases hnone
    · intro hopen
      rw [hend]
      exact h.live hopen

theorem Delivering.disconnect (h : Delivering s) (hsettled : s.client.view.Settled) :
    Delivering (deliveryStep s .disconnect) where
  retains := h.retains
  received := h.received
  behind := h.behind
  flows := trivial
  ahead := (cursor_le_after s.client.view _).trans h.ahead
  cut _ := ⟨rfl, rfl, hsettled⟩
  live hopen := by cases hopen

theorem replayCursor_eq {conn : PtyConnection} (h : conn.view.Behind) :
    replayCursor conn = some conn.view.cursor ∨
      (replayCursor conn = none ∧ conn.view.position = none ∧ conn.view.cursor = 0) := by
  unfold replayCursor
  by_cases hpos : 0 < conn.terminalStreamCursor
  · rw [if_pos hpos]
    exact .inl rfl
  · rw [if_neg hpos]
    have hzero : conn.view.cursor = 0 := Nat.eq_zero_of_not_pos hpos
    refine .inr ⟨rfl, ?_, hzero⟩
    -- a position would be behind the cursor 0
    apply Option.eq_none_iff_forall_not_mem.mpr
    intro x hx
    have hx := h x hx
    omega

theorem Delivering.connect (h : Delivering s) (buffered : ℕ → ℕ)
    (hsheds : s.connected = false → ShedsNothing buffered 0
      (buildTerminalStreamReplay s.stream (replayCursor s.client))) :
    Delivering (deliveryStep s (.connect buffered)) := by
  unfold deliveryStep
  cases hconnected : s.connected with
  | true => simpa using h
  | false =>
    obtain ⟨hclosed, hflight, hsettled⟩ := h.cut hconnected
    have hle : s.client.view.cursor ≤ s.stream.cursor :=
      (cursor_le_after s.client.view _).trans h.ahead
    obtain ⟨hflows, hend⟩ := flows_replay h.retains hsettled hle (replayCursor_eq h.behind)
    rw [← content_buildTerminalStreamReplay] at hflows hend
    have hopen : ({ isOpen := true } : Socket).isOpen = true := rfl
    obtain ⟨sent, hsent, hflows', hcursor, hlive⟩ :=
      flows_sendReplay buffered _ hopen hflows (hsheds hconnected)
    rw [nil_append] at hsent
    refine ⟨⟨h.retains, h.received, h.behind, ?_, ?_, fun hcut => by cases hcut⟩, ?_⟩
    · show Flows s.output s.client.view (List.map _ (sendReplay _ _ _ _).inFlight)
      rw [hsent]
      exact hflows'
    · show (s.client.view.after (List.map _ (sendReplay _ _ _ _).inFlight)).cursor ≤ _
      rw [hsent]
      exact hcursor.trans hend.2.le
    · intro hopen
      show (s.client.view.after (List.map _ (sendReplay _ _ _ _).inFlight)).Settled ∧
        (s.client.view.after (List.map _ (sendReplay _ _ _ _).inFlight)).cursor = _
      rw [hsent, hlive hopen]
      exact hend

/-- **One step** that sheds nothing at connect time and cuts off no notice. -/
theorem delivering_step (h : Delivering s) (op : DeliveryOp)
    (hunbroken : Unbroken s op) : Delivering (deliveryStep s op) := by
  cases op with
  | output data buffered => exact h.output data buffered
  | dropPrefix bytes =>
    have hcursor : (dropTerminalStreamPrefixBytes s.stream bytes).cursor = s.stream.cursor := by
      unfold dropTerminalStreamPrefixBytes
      split <;> rfl
    refine ⟨⟨h.retains.dropPrefix bytes, h.received, h.behind, h.flows, ?_, h.cut⟩, ?_⟩
    · exact h.ahead.trans hcursor.ge
    · intro hopen
      show s.ending.Settled ∧ s.ending.cursor =
        if s.lane.lagging then _ else (dropTerminalStreamPrefixBytes s.stream bytes).cursor
      rw [hcursor]
      exact h.live hopen
  | resize input sessionFound buffered => exact h.resize input sessionFound buffered
  | receive => exact h.receive
  | disconnect => exact h.disconnect hunbroken
  | connect buffered => exact h.connect buffered hunbroken

section
variable (capacityBytes : ℕ) (initialChunks : List JsText) (evicted : JsText)

theorem delivering_initial : Delivering (Delivery.initial capacityBytes initialChunks evicted) where
  retains := retains_create capacityBytes initialChunks evicted
  received := trivial
  behind := by simp [View.Behind, PtyConnection.view, Delivery.initial]
  flows := trivial
  ahead := Nat.zero_le _
  cut _ := ⟨rfl, rfl, by simp [View.Settled, PtyConnection.view, Delivery.initial]⟩
  live hopen := by cases hopen

/-! ## No unannounced gap -/

/-- **No unannounced gap**: whatever is put out, trimmed, dropped, resized, shed and replayed, in a
    run that sheds nothing at connect time and cuts off no notice, the data a client receives is
    the output text of its ranges, each range starting where the one before it ended or where a
    notice said. -/
theorem contiguous_of_run
    (ops : List DeliveryOp)
    (h : Guarded deliveryStep Unbroken (Delivery.initial capacityBytes initialChunks evicted) ops) :
    let s := exec deliveryStep (Delivery.initial capacityBytes initialChunks evicted) ops
    Contiguous s.output none s.client.received := by
  have hstep : ∀ s op, Delivering s → Unbroken s op → Delivering (deliveryStep s op) :=
    fun s op hs hop => delivering_step hs op hop
  exact (exec_invariant_of_guarded hstep
    (delivering_initial capacityBytes initialChunks evicted) h).received

end

theorem shedsNothing_of_le {buffered : ℕ → ℕ} (h : ∀ i, buffered i ≤ WS_SOFT_LIMIT_BYTES) (i : ℕ)
    (envelopes : List TerminalStreamEnvelope) : ShedsNothing buffered i envelopes := by
  induction envelopes generalizing i with
  | nil => trivial
  | cons envelope envelopes ih =>
    refine .inr ⟨?_, ih (i + 1)⟩
    rintro ⟨hsoft, -⟩
    have hle := h i
    omega

/-- A client that sees `ab`, is cut off, and sees `c` when it comes back. -/
def comesBack : List DeliveryOp :=
  [.connect fun _ => 0, .output [97, 98] 0, .receive, .receive, .receive, .receive, .disconnect,
    .output [99] 0, .connect fun _ => 0, .receive, .receive, .receive, .receive, .receive]

theorem contiguous_of_comesBack :
    let s := exec deliveryStep (Delivery.initial 8 [] []) comesBack
    Contiguous s.output none s.client.received := by
  apply contiguous_of_run
  have hquiet := shedsNothing_of_le (fun _ => Nat.zero_le WS_SOFT_LIMIT_BYTES) 0
  refine ⟨fun _ => hquiet _, trivial, trivial, trivial, trivial, trivial, ?_, trivial,
    fun _ => hquiet _, trivial, trivial, trivial, trivial, trivial, trivial⟩
  intro x hx
  cases hx
  rfl

/-- What a client that saw `ab` misses: the replay of `cdef` is shed, and the cursor behind it is
    received. -/
def shedAtConnect : List DeliveryOp :=
  [.connect fun _ => 0, .output [97, 98] 0, .receive, .receive, .receive, .receive, .disconnect,
    .output [99, 100] 0, .output [101, 102] 0,
    .connect fun i => if 3 ≤ i then WS_SOFT_LIMIT_BYTES + 1 else 0,
    .receive, .receive, .receive, .receive, .output [103, 104] 0, .receive]

/-- The notice that `cd` was dropped is cut off behind the metadata that carries its cursor. -/
def noticeCutOff : List DeliveryOp :=
  [.connect fun _ => 0, .output [97, 98] 0, .receive, .receive, .receive, .receive, .disconnect,
    .output [99, 100] 0, .dropPrefix 4, .connect fun _ => 0, .receive, .disconnect,
    .connect fun _ => 0, .receive, .receive, .receive, .output [101, 102] 0, .receive]

/-- Both clients see `ab` and then later output, without a notice of the gap. -/
theorem unannounced_gaps :
    ¬Contiguous (exec deliveryStep (Delivery.initial 8 [] []) shedAtConnect).output none
      (exec deliveryStep (Delivery.initial 8 [] []) shedAtConnect).client.received ∧
    ¬Contiguous (exec deliveryStep (Delivery.initial 8 [] []) noticeCutOff).output none
      (exec deliveryStep (Delivery.initial 8 [] []) noticeCutOff).client.received := by
  constructor
  · -- the ninth envelope shows [6, 8) to a client at 2
    intro h
    have hlast : ([103, 104] : JsText) ≠ [] → ∀ x ∈ some 2, x = 6 := h.2.2.2.2.2.2.2.2.1.2
    have hsix := hlast (by simp) 2 rfl
    cases hsix
  · -- the ninth envelope shows [4, 6) to a client at 2
    intro h
    have hlast : ([101, 102] : JsText) ≠ [] → ∀ x ∈ some 2, x = 4 := h.2.2.2.2.2.2.2.2.1.2
    have hfour := hlast (by simp) 2 rfl
    cases hfour

end RelayIde.Terminal
