import RelayIde.Channel.PublicValue
import RelayIde.Channel.Reducer
import RelayIde.Library.Lines
import RelayIde.Library.Utf8

/-!
# Subscription Stream Reader

How a client reads the NDJSON response of a subscription (`shared/channel-client.ts`): chunks as
the transport hands them out, a partial line carried from one to the next, and two limits in bytes.

- `updates_of_chunks` — how a response is cut matters only where it is longer than its limit

The validator of channel events and what the reducer reads of one are parameters, and so are the
two readings of numbers.
-/

namespace RelayIde.Channel

open RelayIde.Library List
open RelayIde.Library.JsText (utf16)
open RelayIde.Library.Utf8 (Bytes)

/-! ## Frames -/

structure StreamReader (Num : Type) where
  format : Json.NumberFormat Num
  /-- The value of a safe integer that is not negative. -/
  safeNat : Num → Option ℕ
  isChannelEventV1 : Json Num → Bool
  /-- The channel ids of an event and of the rows and runs in it. -/
  channelIds : Json Num → List JsText
  /-- What the reducer reads of an event. -/
  event : Json Num → ChannelEvent
  channelId : JsText
  token : Option JsText
  maxLineBytes : ℕ
  maxStreamBytes : ℕ

variable {Num : Type} (r : StreamReader Num)

def StreamReader.natProperty (key : String) (properties : List (JsText × Json Num)) : Option ℕ :=
  match Json.property (utf16 key) properties with
  | some (.num n) => r.safeNat n
  | _ => none

def isText : Option (Json Num) → Bool
  | some (.str _) => true
  | _ => false

def SUBSCRIPTION_FRAME_COMMON_KEYS : List JsText :=
  ["schemaVersion", "frame", "channelId", "sequence", "occurredAt", "durableSeq"].map utf16

def hasOnlySubscriptionFrameKeys (properties : List (JsText × Json Num)) (allowed : List JsText) :
    Bool :=
  properties.all fun p => allowed.contains p.1

def isTextOf (text : JsText) : Option (Json Num) → Bool
  | some (.str t) => decide (t = text)
  | _ => false

def StreamReader.hasValidSubscriptionFrameBase (properties : List (JsText × Json Num)) : Bool :=
  decide (r.natProperty "schemaVersion" properties = some 1) &&
    isTextOf r.channelId (Json.property (utf16 "channelId") properties) &&
    (r.natProperty "sequence" properties).isSome &&
    isText (Json.property (utf16 "occurredAt") properties) &&
    (r.natProperty "durableSeq" properties).isSome

def isHeartbeat : Json Num → Bool
  | .obj properties =>
    decide (properties.length = 1) &&
      isTextOf (utf16 "channel-heartbeat-v1") (Json.property (utf16 "type") properties)
  | _ => false

def StreamReader.eventMatchesSubscriptionChannel (event : Json Num) : Bool :=
  (r.channelIds event).all fun id => decide (id = r.channelId)

def StreamReader.isSubscriptionFrame : Json Num → Bool
  | .obj frame =>
    let kind := Json.property (utf16 "frame") frame
    if !r.hasValidSubscriptionFrameBase frame then false
    else if isTextOf (utf16 "open") kind then
      hasOnlySubscriptionFrameKeys frame SUBSCRIPTION_FRAME_COMMON_KEYS
    else if isTextOf (utf16 "event") kind then
      hasOnlySubscriptionFrameKeys frame (SUBSCRIPTION_FRAME_COMMON_KEYS ++ [utf16 "payload"]) &&
        match Json.property (utf16 "payload") frame with
        | none => false
        | some payload =>
          isHeartbeat payload ||
            (r.isChannelEventV1 payload && r.eventMatchesSubscriptionChannel payload)
    else if !isTextOf (utf16 "closed") kind then false
    else
      hasOnlySubscriptionFrameKeys frame
          (SUBSCRIPTION_FRAME_COMMON_KEYS ++ ["reason", "retryable", "latestSeq"].map utf16) &&
        isText (Json.property (utf16 "reason") frame) &&
        (match Json.property (utf16 "retryable") frame with
          | some (.bool _) => true
          | _ => false) &&
        ((Json.property (utf16 "latestSeq") frame).isNone ||
          (r.natProperty "latestSeq" frame).isSome)
  | _ => false

/-- The payload of a frame that goes to the reducer, projected. -/
def StreamReader.publicPayload (frame : Json Num) : Option (Json Num) :=
  if isTextOf (utf16 "event") (frame.get? (utf16 "frame")) then
    match frame.get? (utf16 "payload") with
    | some payload =>
      if r.isChannelEventV1 payload then some (projectRelayChannelPublicValue payload r.token)
      else none
    | none => none
  else none

/-- The reducer takes the projected event. -/
def StreamReader.reduceFrame (state : ChannelReducerState) (frame : Json Num) :
    ChannelReducerState :=
  match r.publicPayload frame with
  | some payload => applyChannelEvent state (r.event payload)
  | none => state

def StreamReader.frameSeq (frame : Json Num) : ℕ :=
  match frame with
  | .obj properties => (r.natProperty "durableSeq" properties).getD 0
  | _ => 0

/-- A frame as it is handed out: projected, but for the payload, which is projected by itself where
    it is an event, and is left as it is where it is a heartbeat. -/
def StreamReader.publicFrame (frame : Json Num) : Json Num :=
  match projectRelayChannelPublicValue frame r.token with
  | .obj properties =>
    match r.publicPayload frame, frame.get? (utf16 "payload") with
    | some payload, _ => .obj (Json.assign properties (utf16 "payload") payload)
    | none, some payload => .obj (Json.assign properties (utf16 "payload") payload)
    | none, none => .obj properties
  | value => value

/-! ## The reader -/

structure SubscriptionUpdate (Num : Type) where
  frame : Json Num
  /-- State after this frame's payload. -/
  state : ChannelReducerState
  durableSeq : ℕ

inductive StreamEnd where
  | clean
  | lineBytes
  | streamBytes
  | invalidNdjson
  | invalidFrame

structure StreamOutcome (Num : Type) where
  updates : List (SubscriptionUpdate Num)
  how : StreamEnd

/-- The variables of `subscribe` between two bytes, and what it has yielded. -/
structure ClientStream (Num : Type) where
  state : ChannelReducerState
  durableSeq : ℕ
  pendingLine : Bytes
  updates : List (SubscriptionUpdate Num)

/-- A frame is reduced and yielded. -/
def StreamReader.deliver (s : ClientStream Num) (frame : Json Num) : ClientStream Num :=
  let state := r.reduceFrame s.state frame
  -- the cursor comes from the frame, never from the reducer
  let durableSeq := max s.durableSeq (r.frameSeq frame)
  { s with
    state := state
    durableSeq := durableSeq
    updates := s.updates ++ [⟨r.publicFrame frame, state, durableSeq⟩] }

/-- `emit`, for the pending line. -/
def StreamReader.emit (s : ClientStream Num) : Except (StreamOutcome Num) (ClientStream Num) :=
  let line := Lines.trim (Utf8.decode s.pendingLine)
  if line = [] then .ok s
  else
    match Json.parse r.format (line.flatMap JsText.ofChar) with
    | none => .error ⟨s.updates, .invalidNdjson⟩
    | some frame =>
      if r.isSubscriptionFrame frame then .ok (r.deliver s frame)
      else .error ⟨s.updates, .invalidFrame⟩

def StreamReader.readBytes (s : ClientStream Num) (segment : Bytes) :
    Bytes → Except (StreamOutcome Num) (ClientStream Num)
  | [] =>
    -- the final segment has no line feed and is carried over
    if r.maxLineBytes < (s.pendingLine ++ segment).length then .error ⟨s.updates, .lineBytes⟩
    else .ok { s with pendingLine := s.pendingLine ++ segment }
  | b :: rest =>
    if b ≠ 10 then readBytes s (segment ++ [b]) rest
    else if r.maxLineBytes < (s.pendingLine ++ segment).length then
      .error ⟨s.updates, .lineBytes⟩
    else
      match r.emit { s with pendingLine := s.pendingLine ++ segment } with
      | .error outcome => .error outcome
      | .ok s => readBytes { s with pendingLine := [] } [] rest

/-- What follows the last chunk. -/
def StreamReader.finish (s : ClientStream Num) : StreamOutcome Num :=
  match r.emit s with
  | .error outcome => outcome
  | .ok s => ⟨s.updates, .clean⟩

def StreamReader.readChunks (streamBytes : ℕ) (s : ClientStream Num) :
    List Bytes → StreamOutcome Num
  | [] => r.finish s
  | chunk :: rest =>
    if r.maxStreamBytes < streamBytes + chunk.length then ⟨s.updates, .streamBytes⟩
    else
      match r.readBytes s [] chunk with
      | .error outcome => outcome
      | .ok s => readChunks (streamBytes + chunk.length) s rest

def initialStream (state : Option ChannelReducerState) (afterSeq : Option ℕ) :
    ClientStream Num where
  state := state.getD initialChannelReducerState
  durableSeq := afterSeq.getD 0
  pendingLine := []
  updates := []

/-- `subscribe`, once the response is there. -/
def StreamReader.subscribe (state : Option ChannelReducerState) (afterSeq : Option ℕ)
    (chunks : List Bytes) : StreamOutcome Num :=
  r.readChunks 0 (initialStream state afterSeq) chunks

/-! ## Cutting chunks -/

variable {r}

/-- How a reading that is not over goes on. -/
def settle (reading : Except (StreamOutcome Num) (ClientStream Num))
    (next : ClientStream Num → StreamOutcome Num) : StreamOutcome Num :=
  match reading with
  | .error outcome => outcome
  | .ok s => next s

theorem readBytes_pending (s : ClientStream Num) (front segment bytes : Bytes) :
    r.readBytes { s with pendingLine := s.pendingLine ++ front } segment bytes =
      r.readBytes s (front ++ segment) bytes := by
  induction bytes generalizing segment with
  | nil =>
    unfold StreamReader.readBytes
    rw [append_assoc]
  | cons b rest ih =>
    unfold StreamReader.readBytes
    rw [ih (segment ++ [b]), append_assoc front, append_assoc]

variable {s : ClientStream Num} {segment : Bytes} {outcome : StreamOutcome Num}
  {frames : List (Json Num)}

theorem readBytes_of_long
    (h : r.maxLineBytes < (s.pendingLine ++ segment).length) (bytes : Bytes) :
    r.readBytes s segment bytes = .error ⟨s.updates, .lineBytes⟩ := by
  induction bytes generalizing segment with
  | nil =>
    unfold StreamReader.readBytes
    rw [if_pos h]
  | cons b rest ih =>
    unfold StreamReader.readBytes
    split_ifs with hfeed
    · refine ih ?_
      rw [length_append] at h ⊢
      rw [length_append]
      omega
    · rfl

theorem readBytes_append (s : ClientStream Num) (segment front back : Bytes) :
    r.readBytes s segment (front ++ back) =
      (r.readBytes s segment front).bind fun s => r.readBytes s [] back := by
  induction front generalizing s segment with
  | nil =>
    rw [StreamReader.readBytes]
    split_ifs with hlong
    · exact readBytes_of_long hlong back
    · -- what is carried over is in front of the next chunk
      have hpending := readBytes_pending (r := r) s segment [] back
      rw [append_nil] at hpending
      exact hpending.symm
  | cons b front ih =>
    rw [cons_append, StreamReader.readBytes, StreamReader.readBytes]
    split_ifs with hfeed hlong
    · exact ih s (segment ++ [b])
    · rfl
    · cases r.emit { s with pendingLine := s.pendingLine ++ segment } with
      | error outcome => rfl
      | ok s => exact ih _ []

theorem pendingLine_of_readBytes {s' : ClientStream Num} {bytes : Bytes}
    (h : r.readBytes s segment bytes = .ok s') : s'.pendingLine.length ≤ r.maxLineBytes := by
  induction bytes generalizing s segment with
  | nil =>
    unfold StreamReader.readBytes at h
    split_ifs at h with hlong
    cases h
    exact Nat.le_of_not_lt hlong
  | cons b rest ih =>
    unfold StreamReader.readBytes at h
    split_ifs at h with hfeed hlong
    · exact ih h
    · split at h
      · cases h
      · exact ih h

theorem readChunks_eq {streamBytes : ℕ} {chunks : List Bytes}
    (hpending : s.pendingLine.length ≤ r.maxLineBytes)
    (hbytes : streamBytes + chunks.flatten.length ≤ r.maxStreamBytes) :
    r.readChunks streamBytes s chunks = settle (r.readBytes s [] chunks.flatten) r.finish := by
  induction chunks generalizing streamBytes s with
  | nil =>
    unfold StreamReader.readChunks StreamReader.readBytes
    rw [append_nil, if_neg (Nat.not_lt.mpr hpending)]
    rfl
  | cons chunk rest ih =>
    rw [flatten_cons, length_append] at hbytes
    unfold StreamReader.readChunks
    rw [flatten_cons, readBytes_append, if_neg (by omega)]
    cases hread : r.readBytes s [] chunk with
    | error outcome => rfl
    | ok s' => exact ih (pendingLine_of_readBytes hread) (by omega)

theorem exists_readChunks_eq (streamBytes : ℕ) (chunks : List Bytes)
    (hpending : s.pendingLine.length ≤ r.maxLineBytes) (hstart : streamBytes ≤ r.maxStreamBytes)
    (hbytes : r.maxStreamBytes < streamBytes + chunks.flatten.length) :
    ∃ front, front <+: chunks.flatten ∧
      r.readChunks streamBytes s chunks =
        settle (r.readBytes s [] front) fun s => ⟨s.updates, .streamBytes⟩ := by
  induction chunks generalizing streamBytes s with
  | nil =>
    rw [flatten_nil, length_nil] at hbytes
    omega
  | cons chunk rest ih =>
    rw [flatten_cons, length_append] at hbytes
    unfold StreamReader.readChunks
    split_ifs with hover
    · -- the chunk is not looked at
      refine ⟨[], nil_prefix, ?_⟩
      unfold StreamReader.readBytes
      rw [append_nil, if_neg (Nat.not_lt.mpr hpending)]
      rfl
    · cases hread : r.readBytes s [] chunk with
      | error outcome =>
        refine ⟨chunk, ⟨rest.flatten, rfl⟩, ?_⟩
        rw [hread]
        rfl
      | ok s' =>
        obtain ⟨front, hfront, heq⟩ :=
          ih _ (pendingLine_of_readBytes hread) (Nat.le_of_not_lt hover) (by omega)
        refine ⟨chunk ++ front, ?_, ?_⟩
        · exact prefix_append_right_inj chunk |>.mpr hfront
        · rw [readBytes_append, hread]
          exact heq

/-! ## What is yielded -/

def yielded : Except (StreamOutcome Num) (ClientStream Num) → List (SubscriptionUpdate Num)
  | .error outcome => outcome.updates
  | .ok s => s.updates

/-- An error leaves the updates as they are, and is none of the limit on the response. -/
theorem emit_error
    (h : r.emit s = .error outcome) : outcome.updates = s.updates ∧ outcome.how ≠ .clean := by
  unfold StreamReader.emit at h
  dsimp only at h
  split_ifs at h
  split at h
  · cases h
    exact ⟨rfl, StreamEnd.noConfusion⟩
  · split_ifs at h
    cases h
    exact ⟨rfl, StreamEnd.noConfusion⟩

variable {s' : ClientStream Num}

theorem emit_ok (h : r.emit s = .ok s') :
    s' = s ∨ ∃ frame, r.isSubscriptionFrame frame = true ∧ s' = r.deliver s frame := by
  unfold StreamReader.emit at h
  dsimp only at h
  split_ifs at h
  · cases h
    exact .inl rfl
  · split at h
    · cases h
    · rename_i frame hparse
      split_ifs at h with hvalid
      cases h
      exact .inr ⟨frame, hvalid, rfl⟩

theorem prefix_of_emit (h : r.emit s = .ok s') :
    s.updates <+: s'.updates := by
  obtain rfl | ⟨frame, -, rfl⟩ := emit_ok h
  · exact prefix_rfl
  · exact prefix_append _ _

theorem prefix_readBytes (s : ClientStream Num) (segment bytes : Bytes) :
    s.updates <+: yielded (r.readBytes s segment bytes) := by
  induction bytes generalizing s segment with
  | nil =>
    rw [StreamReader.readBytes]
    split_ifs
    · exact prefix_rfl
    · exact prefix_rfl
  | cons b rest ih =>
    rw [StreamReader.readBytes]
    split_ifs
    · exact ih s (segment ++ [b])
    · exact prefix_rfl
    · split
      · rename_i outcome hemit
        exact (emit_error hemit).1.symm ▸ prefix_rfl
      · rename_i s' hemit
        exact (prefix_of_emit hemit).trans (ih { s' with pendingLine := [] } [])

theorem readBytes_error {bytes : Bytes} (h : r.readBytes s segment bytes = .error outcome) :
    outcome.how ≠ .clean := by
  induction bytes generalizing s segment with
  | nil =>
    rw [StreamReader.readBytes] at h
    split_ifs at h
    cases h
    exact StreamEnd.noConfusion
  | cons b rest ih =>
    rw [StreamReader.readBytes] at h
    split_ifs at h
    · exact ih h
    · cases h
      exact StreamEnd.noConfusion
    · split at h
      · rename_i error hemit
        cases h
        exact (emit_error hemit).2
      · exact ih h

def StreamReader.updatesOf (r : StreamReader Num) (state : ChannelReducerState) (durableSeq : ℕ) :
    List (Json Num) → List (SubscriptionUpdate Num)
  | [] => []
  | frame :: rest =>
    ⟨r.publicFrame frame, r.reduceFrame state frame, max durableSeq (r.frameSeq frame)⟩ ::
      r.updatesOf (r.reduceFrame state frame) (max durableSeq (r.frameSeq frame)) rest

def StreamReader.cursorOf (r : StreamReader Num) (durableSeq : ℕ) (frames : List (Json Num)) : ℕ :=
  frames.foldl (fun seq frame => max seq (r.frameSeq frame)) durableSeq

section
variable (state : ChannelReducerState) (durableSeq : ℕ) (frames : List (Json Num))

theorem updatesOf_concat
    (frame : Json Num) :
    r.updatesOf state durableSeq (frames ++ [frame]) = r.updatesOf state durableSeq frames ++
      [⟨r.publicFrame frame, r.reduceFrame (frames.foldl r.reduceFrame state) frame,
        max (r.cursorOf durableSeq frames) (r.frameSeq frame)⟩] := by
  induction frames generalizing state durableSeq with
  | nil => rfl
  | cons first rest ih =>
    rw [cons_append, StreamReader.updatesOf, ih]
    rfl

theorem getElem?_updatesOf (i : ℕ) :
    (r.updatesOf state durableSeq frames)[i]? = frames[i]?.map fun frame =>
      ⟨r.publicFrame frame, (frames.take (i + 1)).foldl r.reduceFrame state,
        r.cursorOf durableSeq (frames.take (i + 1))⟩ := by
  induction frames generalizing state durableSeq i with
  | nil => rfl
  | cons first rest ih =>
    rw [StreamReader.updatesOf]
    cases i with
    | zero => rfl
    | succ i =>
      rw [getElem?_cons_succ, ih]
      rfl

end

theorem le_durableSeq_of_mem_updatesOf {state : ChannelReducerState} {durableSeq : ℕ}
    {update : SubscriptionUpdate Num}
    (h : update ∈ r.updatesOf state durableSeq frames) : durableSeq ≤ update.durableSeq := by
  induction frames generalizing state durableSeq with
  | nil => exact absurd h not_mem_nil
  | cons first rest ih =>
    rcases mem_cons.mp h with rfl | hrest
    · exact Nat.le_max_left _ _
    · exact (Nat.le_max_left _ _).trans (ih hrest)

theorem pairwise_updatesOf (state : ChannelReducerState) (durableSeq : ℕ)
    (frames : List (Json Num)) :
    (r.updatesOf state durableSeq frames).Pairwise fun u v => u.durableSeq ≤ v.durableSeq := by
  induction frames generalizing state durableSeq with
  | nil => exact .nil
  | cons first rest ih =>
    exact pairwise_cons.mpr ⟨fun update hupdate => le_durableSeq_of_mem_updatesOf hupdate, ih _ _⟩

structure Folded (r : StreamReader Num) (state : ChannelReducerState) (durableSeq : ℕ)
    (frames : List (Json Num)) (updates : List (SubscriptionUpdate Num)) : Prop where
  valid : ∀ frame ∈ frames, r.isSubscriptionFrame frame = true
  updates : updates = r.updatesOf state durableSeq frames

structure FoldedStream (r : StreamReader Num) (state : ChannelReducerState) (durableSeq : ℕ)
    (s : ClientStream Num) (frames : List (Json Num)) : Prop where
  yielded : Folded r state durableSeq frames s.updates
  state : s.state = frames.foldl r.reduceFrame state
  durableSeq : s.durableSeq = r.cursorOf durableSeq frames

variable {state : ChannelReducerState} {durableSeq : ℕ}

theorem FoldedStream.deliver (h : FoldedStream r state durableSeq s frames) {frame : Json Num}
    (hframe : r.isSubscriptionFrame frame = true) :
    FoldedStream r state durableSeq (r.deliver s frame) (frames ++ [frame]) where
  yielded := by
    refine ⟨fun f hf => ?_, ?_⟩
    · rcases mem_append.mp hf with hf | hf
      · exact h.yielded.valid f hf
      · exact mem_singleton.mp hf ▸ hframe
    · rw [updatesOf_concat, ← h.yielded.updates, ← h.state, ← h.durableSeq]
      rfl
  state := by
    rw [foldl_append, ← h.state]
    rfl
  durableSeq := by
    unfold StreamReader.cursorOf
    rw [foldl_append]
    show max s.durableSeq (r.frameSeq frame) = _
    rw [h.durableSeq]
    rfl

/-- What has been read of a response, be it over or not. -/
def FoldedReading (r : StreamReader Num) (state : ChannelReducerState) (durableSeq : ℕ) :
    Except (StreamOutcome Num) (ClientStream Num) → Prop
  | .error outcome => ∃ frames, Folded r state durableSeq frames outcome.updates
  | .ok s => ∃ frames, FoldedStream r state durableSeq s frames

section
variable (h : FoldedStream r state durableSeq s frames)
include h

theorem folded_emit : FoldedReading r state durableSeq (r.emit s) := by
  cases hemit : r.emit s with
  | error outcome => exact ⟨frames, (emit_error hemit).1 ▸ h.yielded⟩
  | ok s' =>
    obtain rfl | ⟨frame, hframe, rfl⟩ := emit_ok hemit
    · exact ⟨frames, h⟩
    · exact ⟨frames ++ [frame], h.deliver hframe⟩

theorem folded_readBytes (segment bytes : Bytes) :
    FoldedReading r state durableSeq (r.readBytes s segment bytes) := by
  induction bytes generalizing s segment frames with
  | nil =>
    rw [StreamReader.readBytes]
    split_ifs
    · exact ⟨frames, h.yielded⟩
    · exact ⟨frames, h.yielded, h.state, h.durableSeq⟩
  | cons b rest ih =>
    rw [StreamReader.readBytes]
    split_ifs
    · exact ih h (segment ++ [b])
    · exact ⟨frames, h.yielded⟩
    · have hline := folded_emit (s := { s with pendingLine := s.pendingLine ++ segment })
        ⟨h.yielded, h.state, h.durableSeq⟩
      split
      · rename_i outcome hemit
        rw [hemit] at hline
        exact hline
      · rename_i s' hemit
        rw [hemit] at hline
        obtain ⟨frames', h'⟩ := hline
        exact ih (s := { s' with pendingLine := [] }) ⟨h'.yielded, h'.state, h'.durableSeq⟩ []

theorem folded_readChunks (streamBytes : ℕ) (chunks : List Bytes) :
    ∃ frames', Folded r state durableSeq frames' (r.readChunks streamBytes s chunks).updates := by
  induction chunks generalizing s frames streamBytes with
  | nil =>
    rw [StreamReader.readChunks, StreamReader.finish]
    have hline := folded_emit h
    split
    · rename_i outcome hemit
      rw [hemit] at hline
      exact hline
    · rename_i s' hemit
      rw [hemit] at hline
      obtain ⟨frames', h'⟩ := hline
      exact ⟨frames', h'.yielded⟩
  | cons chunk rest ih =>
    rw [StreamReader.readChunks]
    split_ifs
    · exact ⟨frames, h.yielded⟩
    · have hchunk := folded_readBytes h [] chunk
      split
      · rename_i outcome hread
        rw [hread] at hchunk
        exact hchunk
      · rename_i s' hread
        rw [hread] at hchunk
        obtain ⟨frames', h'⟩ := hchunk
        exact ih h' _

end

/-! ## Any two ways of cutting -/

/-- The reading was cut short by the limit on the response, where the other may have gone on. -/
def StopsShort (outcome outcome' : StreamOutcome Num) : Prop :=
  outcome.how = .streamBytes ∧ outcome.updates <+: outcome'.updates

/-- Of two readings that stop at the limit, one stops where the other has been. -/
theorem stopsShort_of_front {front front' : Bytes} (h : front <+: front')
    {outcome' : StreamOutcome Num}
    (houtcome : outcome = settle (r.readBytes s [] front) fun s => ⟨s.updates, .streamBytes⟩)
    (houtcome' : outcome' = settle (r.readBytes s [] front') fun s => ⟨s.updates, .streamBytes⟩) :
    outcome = outcome' ∨ StopsShort outcome outcome' := by
  obtain ⟨back, rfl⟩ := h
  rw [readBytes_append] at houtcome'
  cases hread : r.readBytes s [] front with
  | error error =>
    rw [hread] at houtcome houtcome'
    exact .inl (houtcome.trans houtcome'.symm)
  | ok s' =>
    rw [hread] at houtcome houtcome'
    refine .inr ⟨houtcome ▸ rfl, ?_⟩
    have hbefore := prefix_readBytes (r := r) s' [] back
    rw [houtcome, houtcome']
    show s'.updates <+: (settle (r.readBytes s' [] back) _).updates
    cases hback : r.readBytes s' [] back with
    | error error | ok s'' =>
      rw [hback] at hbefore
      exact hbefore

/-- However a response is cut, a client sees the same of one within the limit; of a longer one,
    which never ends cleanly, one client may see less, and then because of the limit.  Each sees
    the frames folded so far, under a cursor that never falls. -/
theorem updates_of_chunks (r : StreamReader Num) (state : Option ChannelReducerState)
    (afterSeq : Option ℕ) {chunks chunks' : List Bytes} (h : chunks.flatten = chunks'.flatten) :
    (chunks.flatten.length ≤ r.maxStreamBytes →
      r.subscribe state afterSeq chunks = r.subscribe state afterSeq chunks') ∧
    (r.maxStreamBytes < chunks.flatten.length →
      (r.subscribe state afterSeq chunks).how ≠ .clean ∧
      (r.subscribe state afterSeq chunks = r.subscribe state afterSeq chunks' ∨
        StopsShort (r.subscribe state afterSeq chunks) (r.subscribe state afterSeq chunks') ∨
        StopsShort (r.subscribe state afterSeq chunks') (r.subscribe state afterSeq chunks))) ∧
    (∃ frames : List (Json Num), (∀ frame ∈ frames, r.isSubscriptionFrame frame = true) ∧
      ∀ i, (r.subscribe state afterSeq chunks).updates[i]? = frames[i]?.map fun frame =>
        (⟨r.publicFrame frame,
          (frames.take (i + 1)).foldl r.reduceFrame (state.getD initialChannelReducerState),
          r.cursorOf (afterSeq.getD 0) (frames.take (i + 1))⟩ : SubscriptionUpdate Num)) ∧
    (r.subscribe state afterSeq chunks).updates.Pairwise
      fun u v => u.durableSeq ≤ v.durableSeq := by
  have hpending : (initialStream state afterSeq : ClientStream Num).pendingLine.length ≤
      r.maxLineBytes := Nat.zero_le _
  have hfolded : FoldedStream r (state.getD initialChannelReducerState) (afterSeq.getD 0)
      (initialStream state afterSeq) [] :=
    ⟨⟨fun _ hnone => absurd hnone not_mem_nil, rfl⟩, rfl, rfl⟩
  obtain ⟨frames, hvalid, hupdates⟩ := folded_readChunks hfolded 0 chunks
  refine ⟨fun hshort => ?_, fun hlong => ?_, ⟨frames, hvalid, fun i => ?_⟩, ?_⟩
  · unfold StreamReader.subscribe
    rw [readChunks_eq hpending (by omega), readChunks_eq hpending (by rw [← h]; omega), h]
  · obtain ⟨front, hfront, heq⟩ := exists_readChunks_eq 0 chunks hpending (Nat.zero_le _) (by omega)
    obtain ⟨front', hfront', heq'⟩ := exists_readChunks_eq 0 chunks'
      hpending (Nat.zero_le _) (by rw [← h]; omega)
    refine ⟨?_, ?_⟩
    · unfold StreamReader.subscribe
      rw [heq]
      cases hread : r.readBytes (initialStream state afterSeq) [] front with
      | error outcome => exact readBytes_error hread
      | ok s => exact StreamEnd.noConfusion
    · -- both stop in the same bytes, one no later than the other
      rcases prefix_or_prefix_of_prefix hfront (h ▸ hfront') with hle | hle
      · exact (stopsShort_of_front hle heq heq').imp_right .inl
      · exact (stopsShort_of_front hle heq' heq).elim (fun heq => .inl heq.symm)
          fun hstop => .inr (.inr hstop)
  · rw [← getElem?_updatesOf, ← hupdates]
    rfl
  · have hpairs := pairwise_updatesOf (r := r) (state.getD initialChannelReducerState)
      (afterSeq.getD 0) frames
    rwa [← hupdates] at hpairs

/-- A reader that numbers its frames, and knows no event. -/
def countingReader (maxStreamBytes : ℕ) : StreamReader (Option ℕ) where
  format := Json.counting
  safeNat n := n
  isChannelEventV1 _ := false
  channelIds _ := []
  event _ := .resyncRequired 0
  channelId := utf16 "c"
  token := none
  maxLineBytes := 200
  maxStreamBytes := maxStreamBytes

/-- An `open` frame. -/
def openLine : Bytes :=
  Utf8.encode ("\x7b\"schemaVersion\":1,\"frame\":\"open\",\"channelId\":\"c\",".toList ++
    "\"sequence\":0,\"occurredAt\":\"\",\"durableSeq\":7\x7d\n".toList)

theorem runs_openLine :
    openLine.length ≤ 100 ∧
      ((countingReader 100).subscribe none none
        [openLine.take 5, openLine.drop 5]).updates.length = 1 ∧
      ((countingReader 96).subscribe none none [openLine, [10, 10]]).updates.length = 1 ∧
      ((countingReader 96).subscribe none none [openLine ++ [10, 10]]).updates.length = 0 := by
  decide +kernel

/-- A response cut inside a line. -/
theorem updates_of_chunks_example :
    ((countingReader 100).subscribe none none
        [openLine.take 5, openLine.drop 5]).updates.length = 1 ∧
      (countingReader 100).subscribe none none [openLine.take 5, openLine.drop 5] =
        (countingReader 100).subscribe none none [openLine] := by
  have hflat : [openLine.take 5, openLine.drop 5].flatten = [openLine].flatten := by
    simp only [flatten_cons, flatten_nil, append_nil, take_append_drop]
  refine ⟨runs_openLine.2.1, (updates_of_chunks (countingReader 100) none none hflat).1 ?_⟩
  rw [hflat, flatten_singleton]
  exact runs_openLine.1

/-- Where the bytes behind a frame go over the limit, it depends on the chunks whether the frame is
    handed out. -/
theorem chunks_matter_past_limit :
    ¬ ∀ (r : StreamReader (Option ℕ)) (state : Option ChannelReducerState) (afterSeq : Option ℕ)
      (chunks chunks' : List Bytes), chunks.flatten = chunks'.flatten →
        r.subscribe state afterSeq chunks = r.subscribe state afterSeq chunks' := by
  intro h
  have hflat : [openLine, [10, 10]].flatten = [openLine ++ [10, 10]].flatten := by
    simp only [flatten_cons, flatten_nil, append_nil]
  have heq := h (countingReader 96) none none _ _ hflat
  obtain ⟨-, -, hcut, hwhole⟩ := runs_openLine
  rw [heq, hwhole] at hcut
  exact absurd hcut Nat.zero_ne_one

end RelayIde.Channel
