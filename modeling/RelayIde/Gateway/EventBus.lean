import Mathlib.Data.List.Infix
import Mathlib.Data.List.Nodup
import Std.Data.String.ToNat
import RelayIde.Library.Machine

/-!
# The Gateway Event Bus

Models `createCliGatewayEventBus` of `server/cli-gateway-event-bus.ts`, and a response of
`server/cli-gateway-events.ts` that replays a topic behind a cursor and then follows it, until its
client goes away or its socket refuses a write.

- `resume_complete` — a response goes on behind its cursor, or says that it does not
-/

namespace RelayIde.Gateway

open RelayIde.Library List

variable {τ β : Type}

/-! ## The bus -/

structure CliGatewayMetadataEvent (τ β : Type) where
  cursor : String
  topic : τ
  /-- What else a publisher passes. -/
  body : β

/-- The template of `publish`, over the clock and the counter. -/
def cursorOf (now sequence : ℕ) : String :=
  "cg:" ++ now.repr ++ ":" ++ sequence.repr

/-- On the buffer of the topic; an absent cursor is read as the empty one. -/
def replay (buffer : List (CliGatewayMetadataEvent τ β)) (cursor : String) :
    List (CliGatewayMetadataEvent τ β) × Bool :=
  if cursor = "" then ([], false)
  else
    match buffer.findIdx? (·.cursor = cursor) with
    | some index => (buffer.drop (index + 1), false)
    | none => (buffer, 0 < buffer.length)

/-- The bus and one response that may listen to it. -/
structure CliGatewayEventBus (τ β : Type) where
  maxEvents : ℕ := 1000
  buffers : τ → List (CliGatewayMetadataEvent τ β) := fun _ => []
  sequence : ℕ := 0
  /-- The subscription of the response: its topic, and `eventMatchesFilter` on its filter. -/
  listener : Option (τ × (CliGatewayMetadataEvent τ β → Bool)) := none
  /-- What was written to the response. -/
  received : List (CliGatewayMetadataEvent τ β) := []

/-- A call of `publish`, with the reading of the clock. -/
structure Publication (τ β : Type) where
  now : ℕ
  topic : τ
  body : β

/-- The event of the `n`-th publication. -/
def Publication.event (n : ℕ) (p : Publication τ β) : CliGatewayMetadataEvent τ β :=
  ⟨cursorOf p.now n, p.topic, p.body⟩

/-- What happens while the response is open. -/
inductive GatewayOp (τ β : Type) where
  /-- A publication, and what `res.write` answers should the response write the event. -/
  | publish (p : Publication τ β) (accepts : Bool)
  /-- The client goes away. -/
  | close

namespace CliGatewayEventBus

variable [DecidableEq τ] (bus : CliGatewayEventBus τ β)

/-- `publish` up to its listeners: the event enters the buffer of its topic, which is cut. -/
def push (p : Publication τ β) : CliGatewayEventBus τ β :=
  let buffer := bus.buffers p.topic ++ [p.event bus.sequence]
  { bus with
    sequence := bus.sequence + 1
    buffers := Function.update bus.buffers p.topic (buffer.drop (buffer.length - bus.maxEvents)) }

/-- The callback of the subscription: a refused write still queues the event, and ends the
    response. -/
def deliver (event : CliGatewayMetadataEvent τ β) (accepts : Bool) : CliGatewayEventBus τ β :=
  match bus.listener with
  | none => bus
  | some (topic, wants) =>
    if event.topic = topic ∧ wants event then
      { bus with
        received := bus.received ++ [event]
        listener := if accepts then some (topic, wants) else none }
    else bus

/-- One event of the life of a response. -/
def step : GatewayOp τ β → CliGatewayEventBus τ β
  | .publish p accepts => (bus.push p).deliver (p.event bus.sequence) accepts
  | .close => { bus with listener := none }

/-- `replay` and `subscribe`, with nothing between them; and whether a gap is announced. -/
def resume (topic : τ) (wants : CliGatewayMetadataEvent τ β → Bool) (cursor : String) :
    CliGatewayEventBus τ β × Bool :=
  let (events, replayDropped) := replay (bus.buffers topic) cursor
  ({ bus with listener := some (topic, wants), received := events.filter wants }, replayDropped)

end CliGatewayEventBus

open CliGatewayEventBus

/-! ## What was published -/

/-- The events of a topic, as a list of publications makes them. -/
def topicEvents [DecidableEq τ] (topic : τ) (publications : List (Publication τ β)) :
    List (CliGatewayMetadataEvent τ β) :=
  (publications.mapIdx Publication.event).filter (·.topic = topic)

/-- The publications made while the response listens, up to the one whose write is refused; `n`
    came before. -/
def heard [DecidableEq τ] (topic : τ) (wants : CliGatewayMetadataEvent τ β → Bool) :
    ℕ → List (GatewayOp τ β) → List (Publication τ β)
  | _, [] => []
  | _, .close :: _ => []
  | n, .publish p accepts :: ops =>
    if p.topic = topic ∧ wants (p.event n) ∧ ¬ accepts then [p]
    else p :: heard topic wants (n + 1) ops

theorem topicEvents_concat [DecidableEq τ] (topic : τ) (publications : List (Publication τ β))
    (p : Publication τ β) :
    topicEvents topic (publications ++ [p]) =
      topicEvents topic publications ++
        if p.topic = topic then [p.event publications.length] else [] := by
  rw [topicEvents, mapIdx_concat, filter_append]
  congr 1
  by_cases htopic : p.topic = topic <;> simp [Publication.event, htopic]

/-- The counter stands behind the last colon of a cursor. -/
theorem cursorOf_inj {now now' n n' : ℕ} (h : cursorOf now n = cursorOf now' n') : n = n' := by
  have hdigits (m : ℕ) : ':' ∉ m.repr.toList := fun hmem => by
    rw [Nat.toList_repr] at hmem
    exact absurd (Nat.isDigit_of_mem_toDigits (by decide) (by decide) hmem) (by decide)
  have hlist := congrArg String.toList h
  simp only [cursorOf, String.toList_append, append_assoc] at hlist
  have hrest := (append_cons_inj_of_notMem (hdigits _) (hdigits _)).mp (append_cancel_left hlist)
  exact Nat.repr_injective (String.toList_inj.mp hrest.2.2)

/-- No two events have one cursor. -/
theorem cursors_nodup (publications : List (Publication τ β)) :
    ((publications.mapIdx Publication.event).map (·.cursor)).Nodup := by
  rw [Nodup, pairwise_iff_getElem]
  intro i j hi hj hij hsame
  simp only [getElem_map, getElem_mapIdx] at hsame
  exact hij.ne (cursorOf_inj hsame)

theorem cursor_ne_empty {publications : List (Publication τ β)}
    {event : CliGatewayMetadataEvent τ β}
    (h : event ∈ publications.mapIdx Publication.event) : event.cursor ≠ "" := by
  obtain ⟨i, hi, rfl⟩ := mem_mapIdx.mp h
  intro hempty
  have htext := congrArg String.toList hempty
  simp [Publication.event, cursorOf] at htext

/-! ## What the buffers hold -/

variable {maxEvents : ℕ}

/-- A buffer that was cut before is cut like the whole log. -/
theorem drop_push {α : Type} (log : List α) (a : α) (n : ℕ) :
    (log.drop (log.length - n) ++ [a]).drop ((log.drop (log.length - n) ++ [a]).length - n) =
      (log ++ [a]).drop ((log ++ [a]).length - n) := by
  rw [← drop_append_of_le_length (Nat.sub_le _ _), drop_drop]
  congr 1
  simp only [length_drop, length_append, length_singleton]
  omega

/-- Every buffer is the end of its topic's publications. -/
structure Recorded [DecidableEq τ] (maxEvents : ℕ) (publications : List (Publication τ β))
    (bus : CliGatewayEventBus τ β) : Prop where
  capacity : bus.maxEvents = maxEvents
  counted : bus.sequence = publications.length
  buffers : ∀ topic, bus.buffers topic =
    (topicEvents topic publications).drop ((topicEvents topic publications).length - maxEvents)

theorem Recorded.push [DecidableEq τ] {publications : List (Publication τ β)}
    {bus : CliGatewayEventBus τ β} (h : Recorded maxEvents publications bus)
    (p : Publication τ β) : Recorded maxEvents (publications ++ [p]) (bus.push p) := by
  refine ⟨h.capacity, ?_, fun topic => ?_⟩
  · rw [length_append, ← h.counted]
    rfl
  · rw [topicEvents_concat]
    by_cases htopic : p.topic = topic
    · subst htopic
      rw [if_pos rfl, ← drop_push, ← h.buffers, ← h.capacity, ← h.counted]
      exact Function.update_self _ _ _
    · rw [if_neg htopic, append_nil, ← h.buffers]
      exact Function.update_of_ne (Ne.symm htopic) _ _

/-- After any publications each buffer is the end of its topic's log. -/
theorem recorded_of_run [DecidableEq τ] (maxEvents : ℕ) (publications : List (Publication τ β)) :
    Recorded maxEvents publications
      (exec push ({ maxEvents } : CliGatewayEventBus τ β) publications) := by
  induction publications using List.reverseRecOn with
  | nil => exact ⟨rfl, rfl, fun _ => by simp [topicEvents]⟩
  | append_singleton publications p ih =>
    rw [exec_append]
    exact ih.push p

/-- A cursor in the buffer resumes behind it; one the buffer has lost is answered with all of it,
    and the gap is announced. -/
theorem replay_drop {log : List (CliGatewayMetadataEvent τ β)}
    (hlog : (log.map (·.cursor)).Nodup) (m : ℕ) (k : Fin log.length) (hk : log[k].cursor ≠ "") :
    replay (log.drop m) log[k].cursor =
      (log.drop (max (k + 1) m), decide (k < m ∧ 0 < (log.drop m).length)) := by
  have hinj (i : ℕ) (hi : i < log.length) (heq : log[i].cursor = log[k].cursor) : i = k := by
    refine (@Nodup.getElem_inj_iff _ _ hlog i (by simpa) k (by simp)).mp ?_
    simpa using heq
  unfold replay
  rw [if_neg hk]
  by_cases hm : k < m
  · have hnone : (log.drop m).findIdx? (·.cursor = log[k].cursor) = none := by
      rw [findIdx?_eq_none_iff]
      intro event hevent
      obtain ⟨i, hi, rfl⟩ := mem_iff_getElem.mp hevent
      rw [getElem_drop, decide_eq_false_iff_not]
      intro heq
      have := hinj _ _ heq
      omega
    rw [hnone, max_eq_right hm]
    simp [hm]
  · have hsome : (log.drop m).findIdx? (·.cursor = log[k].cursor) = some (k - m) := by
      rw [findIdx?_eq_some_iff_getElem]
      have hback : m + (k - m) = k := by omega
      refine ⟨by simp; omega, by simp [hback], fun i hi heq => ?_⟩
      rw [getElem_drop, decide_eq_true_eq] at heq
      have := hinj _ _ heq
      omega
    have hnext : m + (k - m + 1) = k + 1 := by omega
    rw [hsome, max_eq_left (by omega)]
    simp [hm, hnext]

/-! ## What a response is given -/

section Response

variable [DecidableEq τ] {bus : CliGatewayEventBus τ β} {topic : τ}
  {wants : CliGatewayMetadataEvent τ β → Bool} {m : ℕ}

/-- A response that ended is given nothing more. -/
theorem received_of_ended (h : bus.listener = none) (ops : List (GatewayOp τ β)) :
    (exec step bus ops).received = bus.received := by
  induction ops generalizing bus with
  | nil => rfl
  | cons op ops ih =>
    have hstep : (bus.step op).listener = none ∧ (bus.step op).received = bus.received := by
      cases op with
      | publish p accepts => simp [step, deliver, push, h]
      | close => exact ⟨rfl, rfl⟩
    rw [exec_cons, ih hstep.1, hstep.2]

/-- The response has been given what it wants of the topic from the `m`-th event on. -/
structure Following (topic : τ) (wants : CliGatewayMetadataEvent τ β → Bool) (m : ℕ)
    (publications : List (Publication τ β)) (bus : CliGatewayEventBus τ β) : Prop where
  counted : bus.sequence = publications.length
  listening : bus.listener = some (topic, wants)
  behind : m ≤ (topicEvents topic publications).length
  received : bus.received = ((topicEvents topic publications).drop m).filter wants

/-- A publication the response wants is written to it, and ends it if the write is refused. -/
theorem step_publish (h : bus.listener = some (topic, wants)) (p : Publication τ β)
    (accepts : Bool) :
    bus.step (.publish p accepts) =
      if p.topic = topic ∧ wants (p.event bus.sequence) then
        { bus.push p with
          received := bus.received ++ [p.event bus.sequence]
          listener := if accepts then some (topic, wants) else none }
      else bus.push p := by
  simp only [step, deliver, push, h, Publication.event]

/-- The response holds what it wants of the topic after a publication, and goes on listening
    unless the write was refused. -/
theorem Following.publish {publications : List (Publication τ β)}
    (h : Following topic wants m publications bus) (p : Publication τ β) (accepts : Bool) :
    (bus.step (.publish p accepts)).received =
        ((topicEvents topic (publications ++ [p])).drop m).filter wants ∧
      if p.topic = topic ∧ wants (p.event publications.length) ∧ ¬ accepts then
        (bus.step (.publish p accepts)).listener = none
      else Following topic wants m (publications ++ [p]) (bus.step (.publish p accepts)) := by
  have hcounted : (bus.push p).sequence = (publications ++ [p]).length := by
    rw [length_append, ← h.counted]
    rfl
  have hlog := topicEvents_concat topic publications p
  have hbehind : m ≤ (topicEvents topic (publications ++ [p])).length := by
    rw [hlog, length_append]
    exact h.behind.trans (Nat.le_add_right _ _)
  rw [step_publish h.listening, h.counted]
  by_cases hgiven : p.topic = topic ∧ wants (p.event publications.length)
  · have hreceived : bus.received ++ [p.event publications.length] =
        ((topicEvents topic (publications ++ [p])).drop m).filter wants := by
      rw [hlog, if_pos hgiven.1, drop_append_of_le_length h.behind, filter_append, h.received,
        filter_singleton, hgiven.2, cond_true]
    rw [if_pos hgiven]
    refine ⟨hreceived, ?_⟩
    cases accepts with
    | false =>
      rw [if_pos ⟨hgiven.1, hgiven.2, Bool.false_ne_true⟩]
      rfl
    | true =>
      rw [if_neg fun hrefused => hrefused.2.2 rfl]
      exact ⟨hcounted, rfl, hbehind, hreceived⟩
  · -- an event of another topic, or one the filter drops, leaves the response as it was
    have hreceived : bus.received =
        ((topicEvents topic (publications ++ [p])).drop m).filter wants := by
      rw [hlog, h.received]
      split
      · have hdropped : wants (p.event publications.length) = false :=
          Bool.eq_false_iff.mpr fun hwants => hgiven ⟨‹_›, hwants⟩
        rw [drop_append_of_le_length h.behind, filter_append, filter_singleton, hdropped,
          cond_false, append_nil]
      · rw [append_nil]
    rw [if_neg hgiven, if_neg fun hrefused => hgiven ⟨hrefused.1, hrefused.2.1⟩]
    exact ⟨hreceived, hcounted, h.listening, hbehind, hreceived⟩

/-- Whatever happens, the response is given what was published while it listened. -/
theorem Following.run {publications : List (Publication τ β)}
    (h : Following topic wants m publications bus) (ops : List (GatewayOp τ β)) :
    (exec step bus ops).received =
      ((topicEvents topic (publications ++ heard topic wants publications.length ops)).drop
        m).filter wants := by
  induction ops generalizing bus publications with
  | nil => simpa [heard] using h.received
  | cons op ops ih =>
    rw [exec_cons]
    cases op with
    | close =>
      rw [received_of_ended rfl, heard, append_nil]
      exact h.received
    | publish p accepts =>
      obtain ⟨hreceived, hnext⟩ := h.publish p accepts
      unfold heard
      split at hnext
      · rw [if_pos ‹_›, received_of_ended hnext, hreceived]
      · rw [if_neg ‹_›, ih hnext, length_append, append_assoc]
        rfl

end Response

/-- **Resuming**: a response opened behind an event of the topic is given what it wants of the
    events after it, each once and in order, until it ends: at a refused write, which still gives
    the event, or when its client goes away.  What it misses is what the buffer no longer holds,
    and then it is told so, unless nothing is buffered at all. -/
theorem resume_complete [DecidableEq τ] (maxEvents : ℕ) (before : List (Publication τ β))
    (topic : τ) (wants : CliGatewayMetadataEvent τ β → Bool) (after : List (GatewayOp τ β)) :
    let bus : CliGatewayEventBus τ β := exec push { maxEvents } before
    let log := topicEvents topic before
    ∀ k : Fin log.length,
      let resumed := bus.resume topic wants log[k].cursor
      (exec step resumed.1 after).received =
          ((topicEvents topic (before ++ heard topic wants before.length after)).drop
            (max (k + 1) (log.length - maxEvents))).filter wants ∧
        (resumed.2 = true ↔ k < log.length - maxEvents ∧ 0 < maxEvents) := by
  intro bus log k resumed
  have hbus : Recorded maxEvents before bus := recorded_of_run maxEvents before
  have hcursor : log[k].cursor ≠ "" := cursor_ne_empty (mem_of_mem_filter (getElem_mem k.isLt))
  have hreplay := @replay_drop _ _ log ((cursors_nodup before).sublist (filter_sublist.map _))
    (log.length - maxEvents) k hcursor
  rw [← hbus.buffers topic] at hreplay
  have hheld : (bus.buffers topic).length = log.length - (log.length - maxEvents) := by
    rw [hbus.buffers, length_drop]
  have hstart : Following topic wants (max (k + 1) (log.length - maxEvents)) before resumed.1 := by
    simp only [resumed, resume, hreplay]
    exact ⟨hbus.counted, rfl, by show _ ≤ log.length; omega, rfl⟩
  refine ⟨hstart.run after, ?_⟩
  simp only [resumed, resume, hreplay, decide_eq_true_eq, hheld]
  omega

end RelayIde.Gateway
