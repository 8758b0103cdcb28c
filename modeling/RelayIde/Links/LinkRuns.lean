import RelayIde.Links.Multiplexing

/-!
# Runs of the Link Manager

What holds of every call after any admissible run, and when the promises and the node hear of the
end of every call.

- `multiplexing_of_run` — whole runs
-/

namespace RelayIde.Links

open RelayIde.Library List Function

variable {Num : Type}

/-! ## The invariant -/

/-- The row of a stream is what its request put there. -/
def Records (entry : LogEntry Num) (stream : PendingStream) : Prop :=
  (∃ payload, entry.event = .streamRequest stream.nodeId stream.type payload stream.onError
    stream.onEnd stream.requestId stream.streamId) ∧
  .made (.stream stream.streamId) stream.nodeId stream.nodeWs stream.onEnd ∈ entry.effects

structure OnLiveLinks (m : HubNodeLinkManager) : Prop where
  pending : ∀ p ∈ m.pending.rows, m.links p.nodeId = some p.nodeWs
  streams : ∀ s ∈ m.streams.rows, m.links s.nodeId = some s.nodeWs
  ptyStreams : ∀ s ∈ m.ptyStreams.rows, m.links s.nodeId = some s.nodeWs

/-- A call that was made waits, or its timer was cleared, or its promise is settled. -/
def OverUnlessWaiting (call : CallId) (l : List (Effect Num)) (entry : Option Entry) : Prop :=
  (entry = none ∧ l = []) ∨ (∃ e, entry = some e ∧ e.opened = false) ∨
    .timerCleared call ∈ l ∨ ∃ settlement, .settled call settlement ∈ l

/-- **The invariant** of admissible runs. -/
structure Inv (w : World Num) : Prop where
  distinct : w.log.Pairwise fun entry later => ∀ id ∈ later.event.draws, id ∉ entry.event.draws
  steps : ∀ entry ∈ w.log, ∀ call, ∃ before after,
    CallStep entry.event call before (about call entry.effects) after
  calls : ∀ call, CallInv call (trace w call) (entryOf w.manager call)
  waits : ∀ call, OverUnlessWaiting call (trace w call) (entryOf w.manager call)
  own : ∀ entry ∈ w.log, ∀ message, entry.event = .envelope message → ∀ call,
    about call entry.effects ≠ [] → ∀ nodeId nodeWs onEnd,
    .made call nodeId nodeWs onEnd ∈ trace w call → message.nodeId = nodeId
  live : OnLiveLinks w.manager
  recorded : ∀ stream ∈ w.manager.streams.rows, ∃ entry ∈ w.log, Records entry stream
  closed : ∀ entry ∈ w.log, ∀ nodeId ws, entry.event = .unregisterNodeLink nodeId ws →
    w.manager.links nodeId ≠ some ws ∧
      ∃ entry' ∈ w.log, entry'.event.registers = some (nodeId, ws)

theorem inv_start : Inv (World.start : World Num) where
  distinct := .nil
  steps := fun _ h => by cases h
  calls := fun call => by
    cases call with
    | request requestId | stream streamId => exact .unmade
  waits := fun call => by
    cases call with
    | request requestId | stream streamId => exact .inl ⟨rfl, rfl⟩
  own := fun _ h => by cases h
  live := ⟨(fun _ h => by cases h), (fun _ h => by cases h), (fun _ h => by cases h)⟩
  recorded := fun _ h => by cases h
  closed := fun _ h => by cases h

variable {effects l : List (Effect Num)} {nodeId streamId : String} {nodeWs ws : Socket}
  {onEnd : Bool} {effect : Effect Num} {e : Entry} {message : RelayNodeEnvelope Num}
  {events : List (Event Num)} {stream : PendingStream} {entry : LogEntry Num}

theorem CallStep.of_made {event : Event Num} {call : CallId} {before after : Option Entry}
    (h : CallStep event call before effects after)
    (hmade : .made call nodeId nodeWs onEnd ∈ effects) :
    effects = [.made call nodeId nodeWs onEnd] ∧
      ∃ id ∈ event.draws, call = .request id ∨ call = .stream id := by
  have hhandler {l : List (Effect Num)} (h : ∀ effect ∈ l, effect.isHandler = true) :
      .made call nodeId nodeWs onEnd ∉ l := fun hmem => by cases h _ hmem
  have hend {e : Entry} : .made call nodeId nodeWs onEnd ∉ (endOf call e : List (Effect Num)) :=
    fun hmem => by cases mem_endOf hmem
  cases h with
  | made _ _ _ hdraws => exact ⟨by rw [mem_singleton.mp hmade], hdraws⟩
  | untouched => cases hmade
  | timedOut | opened | answered => simp at hmade
  | handled e effects message hevent hnode hhandlers => exact absurd hmade (hhandler hhandlers)
  | erred e effects message hevent hnode hopened hhandlers =>
    simp [hhandler hhandlers] at hmade
  | closed e streamId hcall hevent | lost e error hwaiting => simp [hend] at hmade
  | lostOpened e effects hopened hhandlers => simp [hhandler hhandlers, hend] at hmade

theorem OverUnlessWaiting.step {event : Event Num} {call : CallId} {before after : Option Entry}
    (hover : OverUnlessWaiting call l before) (h : CallStep event call before effects after) :
    OverUnlessWaiting call (l ++ effects) after := by
  have hcleared {effects : List (Effect Num)} {after : Option Entry} :
      OverUnlessWaiting call (l ++ .timerCleared call :: effects) after :=
    .inr (.inr (.inl (mem_append_right l mem_cons_self)))
  cases h with
  | untouched => rwa [append_nil]
  | made nodeId nodeWs onEnd => exact .inr (.inl ⟨_, rfl, rfl⟩)
  | timedOut e error =>
    exact .inr (.inr (.inr ⟨_, mem_append_right l mem_cons_self⟩))
  | handled e effects =>
    obtain ⟨hnone, -⟩ | hwaiting | hcleared | ⟨settlement, hsettled⟩ := hover
    · cases hnone
    · exact .inr (.inl hwaiting)
    · exact .inr (.inr (.inl (mem_append_left effects hcleared)))
    · exact .inr (.inr (.inr ⟨settlement, mem_append_left effects hsettled⟩))
  | erred | opened | answered | closed | lost | lostOpened => exact hcleared

section Traces

variable {w : World Num} {event : Event Num} {call : CallId}

/-- The trace of a call grows by what an event does about it. -/
theorem trace_step (w : World Num) (event : Event Num) (call : CallId) :
    trace (step w event) call =
      trace w call ++ about call (perform w.isOpen w.manager event).2 := by
  simp [trace, step]

theorem mem_trace :
    effect ∈ trace w call ↔
      effect.callOf = some call ∧ ∃ entry ∈ w.log, effect ∈ entry.effects := by
  simp only [trace, mem_flatMap, about, mem_filter, decide_eq_true_eq]
  constructor
  · rintro ⟨entry, hentry, heffect, hcall⟩
    exact ⟨hcall, entry, hentry, heffect⟩
  · rintro ⟨hcall, entry, hentry, heffect⟩
    exact ⟨entry, hentry, heffect, hcall⟩

theorem Inv.drawn (h : Inv w) (heffect : effect ∈ trace w call) :
    ∃ entry ∈ w.log, ∃ id ∈ entry.event.draws, call = .request id ∨ call = .stream id := by
  obtain ⟨nodeId, nodeWs, onEnd, hmade⟩ :
      ∃ nodeId nodeWs onEnd, .made call nodeId nodeWs onEnd ∈ trace w call := by
    have hcall := h.calls call
    generalize trace w call = l, entryOf w.manager call = e at hcall heffect
    cases hcall with
    | unmade => cases heffect
    | waiting | opened | done => exact ⟨_, _, _, mem_cons_self⟩
  obtain ⟨-, entry, hentry, hmem⟩ := mem_trace.mp hmade
  obtain ⟨before, after, hstep⟩ := h.steps entry hentry call
  have habout : .made call nodeId nodeWs onEnd ∈ about call entry.effects :=
    mem_filter.mpr ⟨hmem, by simp [Effect.callOf]⟩
  exact ⟨entry, hentry, (hstep.of_made habout).2⟩

end Traces

/-! ## Rows come and go -/

/-- Only rows of before are left, on the links of before. -/
structure Shrinks (m m' : HubNodeLinkManager) : Prop where
  links : m'.links = m.links
  pending : ∀ p ∈ m'.pending.rows, p ∈ m.pending.rows
  streams : ∀ s ∈ m'.streams.rows, ∃ opened, { s with opened } ∈ m.streams.rows
  ptyStreams : ∀ s ∈ m'.ptyStreams.rows, s ∈ m.ptyStreams.rows

section Rows

variable (isOpen : Openness) (m : HubNodeLinkManager)

theorem Shrinks.refl : Shrinks m m :=
  ⟨rfl, fun _ h => h, fun s h => ⟨s.opened, h⟩, fun _ h => h⟩

variable (streamId : String)

theorem shrinks_withoutStream : Shrinks m (withoutStream m streamId) :=
  ⟨rfl, fun _ h => h, fun s h => ⟨s.opened, (mem_filter.mp h).1⟩, fun _ h => h⟩

theorem shrinks_withoutPty : Shrinks m (withoutPty m streamId) :=
  ⟨rfl, fun _ h => h, fun s h => ⟨s.opened, h⟩, fun _ h => (mem_filter.mp h).1⟩

theorem shrinks_closeStream : Shrinks m (@closeStream Num isOpen m streamId).1 := by
  unfold closeStream
  split
  · exact .refl m
  · exact shrinks_withoutStream m streamId

variable (stream : PendingStream)

theorem shrinks_openStream (payload : Option (Json Num)) :
    Shrinks m (openStream m stream payload).1 := by
  refine ⟨rfl, fun _ h => h, fun s h => ?_, fun _ h => h⟩
  obtain ⟨s', hs', rfl⟩ := mem_map.mp h
  refine ⟨s'.opened, ?_⟩
  split <;> exact hs'

theorem shrinks_handleStreamEnvelope (message : RelayNodeEnvelope Num) :
    Shrinks m (handleStreamEnvelope isOpen m stream message).1.1 := by
  unfold handleStreamEnvelope
  split
  · simp only [handleStreamError]
    split
    · exact .refl m
    · exact shrinks_withoutStream m stream.streamId
  · split_ifs
    · exact shrinks_openStream m stream message.payload
    · exact .refl m
    · exact .refl m
    · exact shrinks_closeStream isOpen m stream.streamId
    · exact .refl m

theorem shrinks_handlePtyEnvelope (stream : BrowserPtyStream) (message : RelayNodeEnvelope Num) :
    Shrinks m (handlePtyEnvelope isOpen m stream message).1.1 := by
  unfold handlePtyEnvelope
  split_ifs
  · exact .refl m
  · exact shrinks_withoutPty m stream.streamId
  · exact shrinks_withoutPty m stream.streamId
  · exact shrinks_withoutPty m stream.streamId
  · exact shrinks_withoutPty m stream.streamId
  · exact .refl m

theorem shrinks_handleEnvelope (message : RelayNodeEnvelope Num) :
    Shrinks m (handleEnvelope isOpen m message).1.1 := by
  unfold handleEnvelope
  split
  · split
    · exact .refl m
    · exact shrinks_handleStreamEnvelope isOpen m _ message
  · split
    · exact .refl m
    · exact ⟨rfl, fun _ h => (mem_filter.mp h).1, fun s h => ⟨s.opened, h⟩, fun _ h => h⟩
  · split
    · exact .refl m
    · exact shrinks_handlePtyEnvelope isOpen m _ message
  · exact .refl m
  · exact .refl m

theorem shrinks_cleanup (nodeId : String) (ws : Socket) :
    Shrinks m (@cleanupNodeLinkResources Num isOpen m nodeId ws).1 :=
  ⟨rfl, fun _ h => (mem_filter.mp h).1, fun s h => ⟨s.opened, (mem_filter.mp h).1⟩,
    fun _ h => (mem_filter.mp h).1⟩

def Event.brings : Event Num → Bool
  | .registerNodeLink _ _ | .unregisterNodeLink _ _ | .request _ _ _ _
  | .streamRequest _ _ _ _ _ _ _ | .attachPty _ _ _ _ => true
  | _ => false

theorem shrinks_perform (event : Event Num) (h : event.brings = false) :
    Shrinks m (perform isOpen m event).1 := by
  cases event with
  | registerNodeLink | unregisterNodeLink | request | streamRequest | attachPty => cases h
  | ready | browserMessage => exact .refl m
  | requestTimeout requestId =>
    simp only [perform, requestTimeout]
    split
    · exact .refl m
    · exact ⟨rfl, fun _ h => (mem_filter.mp h).1, fun s h => ⟨s.opened, h⟩, fun _ h => h⟩
  | streamTimeout streamId =>
    simp only [perform, streamTimeout]
    split
    · exact .refl m
    · split
      · exact .refl m
      · exact shrinks_withoutStream m streamId
  | closeStream streamId => exact shrinks_closeStream isOpen m streamId
  | browserClose streamId =>
    simp only [perform, browserClose]
    split
    · exact .refl m
    · exact shrinks_withoutPty m streamId
  | envelope message => exact shrinks_handleEnvelope isOpen m message

theorem Shrinks.live {m m' : HubNodeLinkManager} (h : Shrinks m m') (hlive : OnLiveLinks m) :
    OnLiveLinks m' := by
  refine ⟨fun p hp => ?_, fun s hs => ?_, fun s hs => ?_⟩
  · rw [h.links]
    exact hlive.pending p (h.pending p hp)
  · rw [h.links]
    obtain ⟨opened, hmem⟩ := h.streams s hs
    exact hlive.streams { s with opened } hmem
  · rw [h.links]
    exact hlive.ptyStreams s (h.ptyStreams s hs)

theorem links_of_liveLink
    (h : liveLink isOpen m nodeId = some ws) : m.links nodeId = some ws ∧ isOpen ws = true :=
  Option.filter_eq_some_iff.mp h

section
variable (hlive : OnLiveLinks m)
include hlive

theorem OnLiveLinks.cleanup {nodeId : String} {ws : Socket}
    (hlink : m.links nodeId = some ws) (other : Option Socket) :
    OnLiveLinks { (@cleanupNodeLinkResources Num isOpen m nodeId ws).1 with
      links := update m.links nodeId other } := by
  have hkept : ∀ nodeId' ws', m.links nodeId' = some ws' →
      (!decide (nodeId' = nodeId ∧ ws' = ws)) = true →
      update m.links nodeId other nodeId' = some ws' := by
    intro nodeId' ws' hlink' hkept
    by_cases hnode : nodeId' = nodeId
    · rw [hnode, hlink] at hlink'
      simp [hnode, (Option.some.inj hlink').symm] at hkept
    · rwa [update_of_ne hnode]
  refine ⟨fun p hp => ?_, fun s hs => ?_, fun s hs => ?_⟩
  · obtain ⟨hmem, hkeeps⟩ := mem_filter.mp hp
    exact hkept p.nodeId p.nodeWs (hlive.pending p hmem) hkeeps
  · obtain ⟨hmem, hkeeps⟩ := mem_filter.mp hs
    exact hkept s.nodeId s.nodeWs (hlive.streams s hmem) hkeeps
  · obtain ⟨hmem, hkeeps⟩ := mem_filter.mp hs
    exact hkept s.nodeId s.nodeWs (hlive.ptyStreams s hmem) hkeeps

theorem live_registerNodeLink (nodeId : String) (ws : Socket) :
    OnLiveLinks (@registerNodeLink Num isOpen m nodeId ws).1 := by
  unfold registerNodeLink
  split
  · rename_i hnone
    have hsame : ∀ other ws', m.links other = some ws' →
        update m.links nodeId (some ws) other = some ws' := by
      intro other ws' hlink
      by_cases heq : other = nodeId
      · subst heq
        rw [hlink] at hnone
        simp only [Option.filter_eq_none_iff, Option.some.injEq, forall_eq'] at hnone
        have heq : ws' = ws := not_not.mp fun hne => hnone (decide_eq_true hne)
        rw [update_self, heq]
      · rwa [update_of_ne heq]
    exact ⟨fun p hp => hsame _ _ (hlive.pending p hp), fun s hs => hsame _ _ (hlive.streams s hs),
      fun s hs => hsame _ _ (hlive.ptyStreams s hs)⟩
  · rename_i existing hexisting
    exact hlive.cleanup isOpen m (Option.filter_eq_some_iff.mp hexisting).1 (some ws)

theorem live_unregisterNodeLink (nodeId : String) (ws : Socket) :
    OnLiveLinks (@unregisterNodeLink Num isOpen m nodeId ws).1 := by
  unfold unregisterNodeLink
  split
  · rename_i hlink
    exact @OnLiveLinks.cleanup Num isOpen m hlive nodeId ws hlink none
  · exact (shrinks_cleanup isOpen m nodeId ws).live hlive

theorem live_perform (event : Event Num) :
    OnLiveLinks (perform isOpen m event).1 := by
  cases hbrings : event.brings with
  | false => exact (shrinks_perform isOpen m event hbrings).live hlive
  | true =>
    cases event with
    | registerNodeLink nodeId ws => exact live_registerNodeLink isOpen m hlive nodeId ws
    | unregisterNodeLink nodeId ws => exact live_unregisterNodeLink isOpen m hlive nodeId ws
    | request nodeId type payload requestId =>
      simp only [perform, request]
      cases hlink : liveLink isOpen m nodeId with
      | none => exact hlive
      | some ws =>
        refine ⟨fun p hp => ?_, hlive.streams, hlive.ptyStreams⟩
        obtain hold | rfl := Table.mem_insert hp
        · exact hlive.pending p hold
        · exact (links_of_liveLink isOpen m hlink).1
    | streamRequest nodeId type payload onError onEnd requestId streamId =>
      simp only [perform, streamRequest]
      cases hlink : liveLink isOpen m nodeId with
      | none => exact hlive
      | some ws =>
        refine ⟨hlive.pending, fun s hs => ?_, hlive.ptyStreams⟩
        obtain hold | rfl := Table.mem_insert hs
        · exact hlive.streams s hold
        · exact (links_of_liveLink isOpen m hlink).1
    | attachPty nodeId sessionId browserWs streamId =>
      simp only [perform, attachPty]
      cases hlink : liveLink isOpen m nodeId with
      | none => exact hlive
      | some ws =>
        refine ⟨hlive.pending, hlive.streams, fun s hs => ?_⟩
        obtain hold | rfl := Table.mem_insert hs
        · exact hlive.ptyStreams s hold
        · exact (links_of_liveLink isOpen m hlink).1
    | _ => cases hbrings

end

theorem records_perform (event : Event Num) {s : PendingStream}
    (hs : s ∈ (perform isOpen m event).1.streams.rows) :
    (∃ opened, { s with opened } ∈ m.streams.rows) ∨
      Records ⟨event, isOpen, (perform isOpen m event).2⟩ s := by
  cases hbrings : event.brings with
  | false => exact .inl ((shrinks_perform isOpen m event hbrings).streams s hs)
  | true =>
    cases event with
    | registerNodeLink nodeId ws =>
      left
      simp only [perform, registerNodeLink] at hs
      split at hs
      · exact ⟨s.opened, hs⟩
      · exact (@shrinks_cleanup Num isOpen m nodeId _).streams s hs
    | unregisterNodeLink nodeId ws =>
      left
      simp only [perform, unregisterNodeLink] at hs
      split at hs
      · exact (@shrinks_cleanup Num isOpen
          { m with links := update m.links nodeId none } nodeId ws).streams s hs
      · exact (@shrinks_cleanup Num isOpen m nodeId ws).streams s hs
    | request nodeId type payload requestId =>
      left
      simp only [perform, request] at hs
      cases hlink : liveLink isOpen m nodeId with
      | none | some ws =>
        rw [hlink] at hs
        exact ⟨s.opened, hs⟩
    | attachPty nodeId sessionId browserWs streamId =>
      left
      simp only [perform, attachPty] at hs
      cases hlink : liveLink isOpen m nodeId with
      | none =>
        rw [hlink] at hs
        exact ⟨s.opened, hs⟩
      | some ws =>
        rw [hlink] at hs
        exact ⟨s.opened, hs⟩
    | streamRequest nodeId type payload onError onEnd requestId streamId =>
      simp only [perform, streamRequest] at hs ⊢
      cases hlink : liveLink isOpen m nodeId with
      | none =>
        rw [hlink] at hs
        exact .inl ⟨s.opened, hs⟩
      | some ws =>
        rw [hlink] at hs
        obtain hold | rfl := Table.mem_insert hs
        · exact .inl ⟨s.opened, hold⟩
        · exact .inr ⟨⟨payload, rfl⟩, mem_cons_self⟩
    | _ => cases hbrings

end Rows

/-! ## The invariant of runs -/

section Invariant

variable {w : World Num} {event : Event Num}

theorem Inv.trace_of_fresh (h : Inv w) (hA : Admissible w event) {call : CallId}
    (hdraws : ∃ id ∈ event.draws, call = .request id ∨ call = .stream id) : trace w call = [] := by
  rw [eq_nil_iff_forall_not_mem]
  intro effect heffect
  obtain ⟨entry, hentry, id, hid, hcall⟩ := h.drawn heffect
  obtain ⟨id', hid', hcall'⟩ := hdraws
  have heq : id' = id := by
    obtain rfl | rfl := hcall
    · obtain hcall' | hcall' := hcall' <;> cases hcall'
      rfl
    · obtain hcall' | hcall' := hcall' <;> cases hcall'
      rfl
  exact hA.fresh entry hentry id' hid' (heq ▸ hid)

theorem Inv.entryOf_of_trace (h : Inv w) {call : CallId} (htrace : trace w call = []) :
    entryOf w.manager call = none := by
  have hcall := h.calls call
  rw [htrace] at hcall
  generalize entryOf w.manager call = e at hcall
  cases hcall with
  | unmade => rfl

theorem Inv.steps_of (h : Inv w) (hA : Admissible w event) :
    Steps event w.manager (perform w.isOpen w.manager event) := by
  refine steps_perform w.isOpen w.manager event fun id hid => ⟨?_, ?_⟩
  · exact h.entryOf_of_trace (h.trace_of_fresh hA ⟨id, hid, .inl rfl⟩)
  · exact h.entryOf_of_trace (h.trace_of_fresh hA ⟨id, hid, .inr rfl⟩)

variable {call : CallId}

theorem CallInv.made_of_entry
    (h : CallInv call l (some e))
    (hmade : .made call nodeId nodeWs onEnd ∈ l) : nodeId = e.nodeId ∧ nodeWs = e.nodeWs := by
  have hhead {rest : List (Effect Num)} (hrest : ∀ effect ∈ rest, effect.isMade = false)
      (hmem : .made call nodeId nodeWs onEnd ∈ .made call e.nodeId e.nodeWs e.onEnd :: rest) :
      nodeId = e.nodeId ∧ nodeWs = e.nodeWs := by
    obtain heq | hmem := mem_cons.mp hmem
    · injection heq with _ hnode hws
      exact ⟨hnode, hws⟩
    · cases hrest _ hmem
  cases h with
  | waiting e rest hwaiting hrest => exact hhead (isMade_of_handlers hrest) hmade
  | opened e rest hopened hresolved hends hrest => exact hhead hrest hmade

theorem CallStep.node_of_envelope {before after : Option Entry}
    (h : CallStep (.envelope message) call before effects after) (hsome : effects ≠ []) :
    ∃ e, before = some e ∧ message.nodeId = e.nodeId := by
  cases h with
  | untouched => exact absurd rfl hsome
  | made nodeId nodeWs onEnd hdraws henvelope | lost e error hwaiting henvelope
  | lostOpened e effects hopened hhandlers henvelope => exact absurd rfl (henvelope message)
  | timedOut e error hwaiting htimer => cases htimer
  | handled e _ _ hevent hnode | opened e _ _ hevent hnode
  | erred e _ _ hevent hnode | answered e _ _ hevent hnode =>
    injection hevent with hevent
    exact ⟨e, rfl, hevent ▸ hnode⟩
  | closed e streamId hcall hevent =>
    obtain hevent | ⟨message', hevent, hnode, -⟩ := hevent
    · cases hevent
    · injection hevent with hevent
      exact ⟨e, rfl, hevent ▸ hnode⟩

theorem mem_about
    (h : effect ∈ effects) (hcall : effect.callOf = some call) : effect ∈ about call effects :=
  mem_filter.mpr ⟨h, decide_eq_true hcall⟩

theorem Inv.own_step (h : Inv w) (hA : Admissible w event) :
    ∀ entry ∈ (step w event).log, ∀ message, entry.event = .envelope message → ∀ call,
      about call entry.effects ≠ [] → ∀ nodeId nodeWs onEnd,
      .made call nodeId nodeWs onEnd ∈ trace (step w event) call → message.nodeId = nodeId := by
  intro entry hentry message hevent call hsome nodeId nodeWs onEnd hmade
  have hstep := h.steps_of hA call
  rw [trace_step] at hmade
  obtain hentry | hentry := mem_append.mp hentry
  · obtain hmade | hmade := mem_append.mp hmade
    · exact h.own entry hentry message hevent call hsome nodeId nodeWs onEnd hmade
    · -- The call is made only now, so nothing happened to it before.
      have hnone := h.trace_of_fresh hA ((hstep.of_made hmade).2)
      have hempty := flatMap_eq_nil_iff.mp hnone entry hentry
      exact absurd hempty hsome
  · obtain rfl := mem_singleton.mp hentry
    subst hevent
    obtain ⟨e, hbefore, hnode⟩ := hstep.node_of_envelope hsome
    have hcall := h.calls call
    rw [hbefore] at hcall
    obtain hmade | hmade := mem_append.mp hmade
    · rw [hnode, (hcall.made_of_entry hmade).1]
    · obtain ⟨id, hid, -⟩ := (hstep.of_made hmade).2
      cases hid

variable (isOpen : Openness) (m : HubNodeLinkManager)

theorem links_registerNodeLink (nodeId : String)
    (ws : Socket) : (@registerNodeLink Num isOpen m nodeId ws).1.links =
      update m.links nodeId (some ws) := by
  unfold registerNodeLink
  split <;> rfl

theorem links_perform (event : Event Num)
    (h : (perform isOpen m event).1.links nodeId = some ws) :
    m.links nodeId = some ws ∨ event.registers = some (nodeId, ws) := by
  cases hbrings : event.brings with
  | false => exact .inl ((shrinks_perform isOpen m event hbrings).links ▸ h)
  | true =>
    cases event with
    | registerNodeLink nodeId' ws' =>
      rw [perform, links_registerNodeLink] at h
      by_cases heq : nodeId = nodeId'
      · subst heq
        rw [update_self, Option.some.injEq] at h
        rw [h]
        exact .inr rfl
      · rw [update_of_ne heq] at h
        exact .inl h
    | unregisterNodeLink nodeId' ws' =>
      simp only [perform, unregisterNodeLink, cleanupNodeLinkResources] at h
      split at h
      · simp only at h
        by_cases heq : nodeId = nodeId'
        · subst heq
          simp at h
        · rw [update_of_ne heq] at h
          exact .inl h
      · exact .inl h
    | request nodeId' type payload requestId =>
      simp only [perform, request] at h
      split at h <;> exact .inl h
    | streamRequest nodeId' type payload onError onEnd requestId streamId =>
      simp only [perform, streamRequest] at h
      split at h <;> exact .inl h
    | attachPty nodeId' sessionId browserWs streamId =>
      simp only [perform, attachPty] at h
      split at h <;> exact .inl h
    | _ => cases hbrings

theorem links_unregisterNodeLink (Num : Type) (isOpen : Openness) (m : HubNodeLinkManager)
    (nodeId : String)
    (ws : Socket) : (@unregisterNodeLink Num isOpen m nodeId ws).1.links nodeId ≠ some ws := by
  simp only [unregisterNodeLink, cleanupNodeLinkResources]
  split
  · simp
  · assumption

theorem Inv.closed_step (h : Inv w) (hA : Admissible w event) :
    ∀ entry ∈ (step w event).log, ∀ nodeId ws, entry.event = .unregisterNodeLink nodeId ws →
      (step w event).manager.links nodeId ≠ some ws ∧
        ∃ entry' ∈ (step w event).log, entry'.event.registers = some (nodeId, ws) := by
  intro entry hentry nodeId ws hevent
  obtain hentry | hentry := mem_append.mp hentry
  · obtain ⟨hlink, entry', hentry', hregisters⟩ := h.closed entry hentry nodeId ws hevent
    refine ⟨fun hnow => ?_, entry', mem_append_left _ hentry', hregisters⟩
    obtain hbefore | hregisters' := links_perform w.isOpen w.manager event hnow
    · exact hlink hbefore
    · have hregister : event = .registerNodeLink nodeId ws := by
        cases event <;> cases hregisters'
        rfl
      exact hA.single nodeId ws hregister entry' hentry' nodeId hregisters
  · obtain rfl := mem_singleton.mp hentry
    subst hevent
    obtain ⟨entry', hentry', hregisters⟩ := hA.registered nodeId ws rfl
    exact ⟨links_unregisterNodeLink Num w.isOpen w.manager nodeId ws, entry',
      mem_append_left _ hentry', hregisters⟩

/-- **One event.** -/
theorem inv_step (h : Inv w) (hA : Admissible w event) : Inv (step w event) where
  distinct := by
    refine pairwise_append.mpr ⟨h.distinct, pairwise_singleton _ _, ?_⟩
    intro entry hentry later hlater id hid
    obtain rfl := mem_singleton.mp hlater
    exact hA.fresh entry hentry id hid
  steps := fun entry hentry call => by
    obtain hentry | hentry := mem_append.mp hentry
    · exact h.steps entry hentry call
    · obtain rfl := mem_singleton.mp hentry
      exact ⟨_, _, h.steps_of hA call⟩
  calls := fun call => by
    rw [trace_step]
    exact (h.calls call).step (h.steps_of hA call) (h.trace_of_fresh hA)
  waits := fun call => by
    rw [trace_step]
    exact (h.waits call).step (h.steps_of hA call)
  own := h.own_step hA
  live := live_perform w.isOpen w.manager h.live event
  recorded := fun stream hstream => by
    obtain ⟨opened, hold⟩ | hnew := records_perform w.isOpen w.manager event hstream
    · obtain ⟨entry, hentry, hrecords⟩ := h.recorded { stream with opened } hold
      exact ⟨entry, mem_append_left _ hentry, hrecords⟩
    · exact ⟨_, mem_append_right _ mem_cons_self, hnew⟩
  closed := h.closed_step hA

/-- The invariant holds along every admissible run. -/
theorem inv_of_run {w : World Num} (h : Inv w)
    (hA : Guarded step Admissible w events) : Inv (exec step w events) :=
  exec_invariant_of_guarded (fun _ _ h hA => inv_step h hA) h hA

end Invariant

/-! ## After the end -/

/-- The event ends the stream: its handle, its node, or the loss of its link. -/
def Ends (w : World Num) (event : Event Num) (streamId : String) : Prop :=
  ∃ e, entryOf w.manager (.stream streamId) = some e ∧
    (event = .closeStream streamId ∨
      (∃ message, event = .envelope message ∧ message.nodeId = e.nodeId ∧
        endsStream message streamId) ∨
      event = .unregisterNodeLink e.nodeId e.nodeWs ∨
      ∃ ws, ws ≠ e.nodeWs ∧ event = .registerNodeLink e.nodeId ws)

section After

variable {w : World Num} {event : Event Num}

theorem entryOf_closeStream (isOpen : Openness) (m : HubNodeLinkManager) (streamId : String) :
    entryOf (@closeStream Num isOpen m streamId).1 (.stream streamId) = none := by
  unfold closeStream
  cases hfind : m.streams.find? streamId with
  | none => simp [entryOf, hfind]
  | some stream => simp [entryOf_withoutStream]

theorem isResult_of_isTailEnd {type : String} (h : isTailEnd type = true) :
    isResult type = false ∧ isTailChunk type = false ∧ isTailError type = false := by
  obtain rfl | rfl := of_decide_eq_true h
  · decide
  · decide

theorem handleEnvelope_of_endsStream (isOpen : Openness) (m : HubNodeLinkManager)
    (hfind : m.streams.find? streamId = some stream) (hnode : message.nodeId = stream.nodeId)
    (h : endsStream message streamId) :
    (handleEnvelope isOpen m message).1 = closeStream isOpen m streamId := by
  obtain ⟨hchannel, hid, herror, hend⟩ := h
  obtain ⟨hresult, hchunk, htailError⟩ := isResult_of_isTailEnd hend
  have hstream : stream.streamId = streamId := ((m.streams.find?_eq_some_iff _ _).mp hfind).2
  have hof : ofNode (·.nodeId) (m.streams.find? streamId) message = some stream := by
    rw [hfind]
    exact Option.filter_eq_some_iff.mpr ⟨rfl, decide_eq_true hnode.symm⟩
  unfold handleEnvelope
  rw [hchannel, hid]
  simp [hof, handleStreamEnvelope, Option.isNone_iff_eq_none.mp herror, hresult, hchunk, htailError,
    hend, hstream]

theorem gone_of_ends (h : Inv w) (hends : Ends w event streamId) :
    entryOf (step w event).manager (.stream streamId) = none := by
  obtain ⟨e, hentry, hevent⟩ := hends
  obtain ⟨stream, hfind, rfl⟩ := Option.map_eq_some_iff.mp hentry
  have hlink : w.manager.links stream.nodeId = some stream.nodeWs :=
    h.live.streams stream ((w.manager.streams.find?_eq_some_iff _ _).mp hfind).1
  obtain rfl | ⟨message, rfl, hnode, hend⟩ | rfl | ⟨ws, hws, rfl⟩ := hevent
  · exact entryOf_closeStream w.isOpen w.manager streamId
  · simp only [step, perform]
    rw [handleEnvelope_of_endsStream w.isOpen w.manager hfind hnode hend]
    exact entryOf_closeStream w.isOpen w.manager streamId
  · simp only [step, perform, unregisterNodeLink, ofStream, hlink]
    rw [entryOf_cleanup]
    change (entryOf w.manager (.stream streamId)).filter _ = none
    rw [hentry]
    simp [Entry.onLink, ofStream]
  · have hexisting : (w.manager.links stream.nodeId).filter (· ≠ ws) = some stream.nodeWs := by
      rw [hlink]
      exact Option.filter_eq_some_iff.mpr ⟨rfl, decide_eq_true (Ne.symm hws)⟩
    simp only [step, perform, registerNodeLink, ofStream, hexisting]
    change entryOf (@cleanupNodeLinkResources Num w.isOpen w.manager stream.nodeId
      stream.nodeWs).1 (.stream streamId) = none
    rw [entryOf_cleanup, hentry]
    simp [Entry.onLink, ofStream]

/-- Nothing more happens to a call that is over. -/
theorem Inv.done_step (h : Inv w) (hA : Admissible w event) {call : CallId}
    (hmade : trace w call ≠ []) (hgone : entryOf w.manager call = none) :
    trace (step w event) call = trace w call ∧ entryOf (step w event).manager call = none := by
  have hstep := h.steps_of hA call
  rw [hgone] at hstep
  rw [trace_step]
  have hmanager : (step w event).manager = (perform w.isOpen w.manager event).1 := rfl
  rw [hmanager]
  generalize about call (perform w.isOpen w.manager event).2 = effects,
    entryOf (perform w.isOpen w.manager event).1 call = after at hstep
  cases hstep with
  | untouched => exact ⟨append_nil _, rfl⟩
  | made nodeId nodeWs onEnd hdraws => exact absurd (h.trace_of_fresh hA hdraws) hmade

/-- A call that is over keeps its trace for good. -/
theorem done_of_run {w : World Num} (h : Inv w) {call : CallId} (hmade : trace w call ≠ [])
    (hgone : entryOf w.manager call = none) (hA : Guarded step Admissible w events) :
    trace (exec step w events) call = trace w call := by
  induction events generalizing w with
  | nil => rfl
  | cons event events ih =>
    obtain ⟨hA, hrest⟩ := hA
    obtain ⟨htrace, hgone'⟩ := h.done_step hA hmade hgone
    rw [exec_cons, ih (inv_step h hA) (htrace ▸ hmade) hgone' hrest, htrace]

end After

/-- What holds of every call and every row. -/
structure Multiplexed (w : World Num) : Prop where
  once : ∀ call, SettledOnce (trace w call)
  own : ∀ entry ∈ w.log, ∀ message, entry.event = .envelope message → ∀ call,
    about call entry.effects ≠ [] → ∀ nodeId nodeWs onEnd,
    .made call nodeId nodeWs onEnd ∈ trace w call → message.nodeId = nodeId
  ended : ∀ streamId nodeId nodeWs onEnd,
    .made (.stream streamId) nodeId nodeWs onEnd ∈ trace w (.stream streamId) →
    entryOf w.manager (.stream streamId) = none →
    Opened (.stream streamId) (trace w (.stream streamId)) →
    (trace w (.stream streamId)).filter Effect.isEnd = if onEnd then [.onEnd streamId] else []
  live : OnLiveLinks w.manager
  closed : ∀ entry ∈ w.log, ∀ nodeId ws, entry.event = .unregisterNodeLink nodeId ws →
    w.manager.links nodeId ≠ some ws

theorem CallInv.settledOnce {call : CallId} {e : Option Entry}
    (h : CallInv call l e) : SettledOnce l := by
  cases h with
  | unmade => exact .inr (Nat.zero_le 1)
  | waiting e rest hwaiting hrest =>
    right
    change (settlements rest).length ≤ 1
    rw [settlements_of_handlers hrest]
    exact Nat.zero_le 1
  | opened e rest hopened hresolved hends hmade hall => exact .inl hall
  | done e rest hmade honce hends => exact honce

theorem Inv.multiplexed {w : World Num} (h : Inv w) : Multiplexed w where
  once := fun call => (h.calls call).settledOnce
  own := h.own
  ended := fun streamId nodeId nodeWs onEnd hmade hgone hopened => by
    have hcall := h.calls (.stream streamId)
    rw [hgone] at hcall
    generalize trace w (.stream streamId) = l at hcall hmade hopened
    cases hcall with
    | unmade => cases hmade
    | done e rest hrest honce hends =>
      have honEnd : onEnd = e.onEnd := by
        obtain heq | hmem := mem_cons.mp hmade
        · injection heq
        · cases hrest _ hmem
      rw [filter_cons_of_neg (by simp [Effect.isEnd]), hends, honEnd]
      · rfl
      · obtain ⟨payload, hmem⟩ := hopened
        exact ⟨payload, mem_of_ne_of_mem (by simp) hmem⟩
  live := h.live
  closed := fun entry hentry nodeId ws hevent => (h.closed entry hentry nodeId ws hevent).1

/-! ## Promises settled and nodes told -/

/-- The hub gives the stream up: its start timer ends the wait, or its handle closed it. -/
def GivesUp (entry : LogEntry Num) (streamId : String) : Prop :=
  (entry.event = .streamTimeout streamId ∧
    ∃ settlement, .settled (.stream streamId) settlement ∈ entry.effects) ∨
    entry.event = .closeStream streamId ∧ .timerCleared (.stream streamId) ∈ entry.effects

/-- The timer of the call fired after the call was made. -/
def TimedOut (w : World Num) (call : CallId) : Prop :=
  ∃ pre entry post, w.log = pre ++ entry :: post ∧ entry.event.timerOf = some call ∧
    ∃ first ∈ pre, ∃ nodeId nodeWs onEnd, .made call nodeId nodeWs onEnd ∈ first.effects

/-- What the callers and the nodes are promised when calls end. -/
structure Kept (w : World Num) : Prop where
  settled : ∀ call, .timerCleared call ∈ trace w call ∨ TimedOut w call →
    ∃ settlement, .settled call settlement ∈ trace w call
  cancelled : ∀ entry ∈ w.log, ∀ stream, Records entry stream →
    ∀ entry' ∈ w.log, GivesUp entry' stream.streamId → entry'.isOpen stream.nodeWs = true →
    .sent stream.nodeWs (cancelMessage stream) ∈ entry'.effects

structure Orderly (w : World Num) (event : Event Num) : Prop where
  ended : ∀ message streamId, event = .envelope message → endsStream message streamId →
    ∀ e, entryOf w.manager (.stream streamId) = some e → message.nodeId = e.nodeId →
    e.opened = true
  started : ∀ streamId, event = .streamTimeout streamId →
    ∀ e, entryOf w.manager (.stream streamId) = some e → e.opened = false →
    w.isOpen e.nodeWs = false

section Kept

variable {w : World Num} {event : Event Num}

variable {call : CallId}

theorem CallInv.not_settled
    (h : CallInv call l (some e)) (hwaiting : e.opened = false) (settlement : Settlement Num) :
    .settled call settlement ∉ l := by
  cases h with
  | waiting e rest _ hrest =>
    intro hmem
    obtain heq | hmem := mem_cons.mp hmem
    · cases heq
    · cases hrest _ hmem
  | opened e rest hopened => simp [hopened] at hwaiting

theorem CallInv.settled_of_opened
    (h : CallInv call l (some e)) (hopened : e.opened = true) :
    ∃ settlement, .settled call settlement ∈ l := by
  cases h with
  | waiting e rest hwaiting => simp [hopened] at hwaiting
  | opened e rest _ hresolved =>
    obtain ⟨payload, hmem⟩ := hresolved
    exact ⟨_, mem_cons_of_mem _ hmem⟩

theorem CallInv.settled_step
    {before after : Option Entry} (hinv : CallInv call l before)
    (hstep : CallStep event call before effects after)
    (hclosed : ∀ e streamId, before = some e → call = .stream streamId →
      (event = .closeStream streamId ∨ ∃ message, event = .envelope message ∧
        message.nodeId = e.nodeId ∧ endsStream message streamId) → e.opened = true)
    (h : .timerCleared call ∈ l → ∃ settlement, .settled call settlement ∈ l) :
    .timerCleared call ∈ l ++ effects →
      ∃ settlement, .settled call settlement ∈ l ++ effects := by
  have hold (hsettled : ∃ settlement, .settled call settlement ∈ l) :
      ∃ settlement, .settled call settlement ∈ l ++ effects :=
    hsettled.imp fun _ => mem_append_left effects
  have hnew (settlement : Settlement Num) (hmem : .settled call settlement ∈ effects) :
      ∃ settlement, .settled call settlement ∈ l ++ effects :=
    ⟨settlement, mem_append_right l hmem⟩
  intro htimer
  cases hstep with
  | untouched => simpa using h (by simpa using htimer)
  | made => exact hold (h (by simpa using htimer))
  | handled e effects message hevent hnode hhandlers =>
    refine hold (h ?_)
    have hnot : .timerCleared call ∉ effects := fun hmem => by cases hhandlers _ hmem
    simpa [hnot] using htimer
  | timedOut e error | lost e error => exact hnew (.rejected error) (by simp)
  | opened e payload => exact hnew (.resolved payload) (by simp)
  | answered e settlement => exact hnew settlement (by simp)
  | erred e effects message hevent hnode hopened | lostOpened e effects hopened =>
    exact hold (hinv.settled_of_opened hopened)
  | closed e streamId hcall hevent =>
    exact hold (hinv.settled_of_opened (hclosed e streamId rfl hcall hevent))

theorem Inv.opened_of_handle (h : Inv w) (hA : Admissible w event)
    (hevent : event = .closeStream streamId)
    (hentry : entryOf w.manager (.stream streamId) = some e) : e.opened = true := by
  obtain ⟨entry, hmem, payload, hsettled⟩ := hA.handle streamId hevent
  have hcall := h.calls (.stream streamId)
  rw [hentry] at hcall
  by_contra hwaiting
  exact hcall.not_settled (Bool.eq_false_iff.mpr hwaiting) _
    (mem_trace.mpr ⟨rfl, entry, hmem, hsettled⟩)

/-- A timer that fires in a step is that of a call made before it. -/
theorem TimedOut.of_step {call : CallId} (h : TimedOut (step w event) call) :
    TimedOut w call ∨ event.timerOf = some call ∧ trace w call ≠ [] := by
  obtain ⟨pre, entry, post, hlog, htimer, first, hfirst, nodeId, nodeWs, onEnd, hmade⟩ := h
  obtain rfl | ⟨post, last, rfl⟩ := eq_nil_or_concat' post
  · obtain ⟨rfl, hentry⟩ := append_inj' hlog rfl
    obtain ⟨rfl, -⟩ := cons_eq_cons.mp hentry
    exact .inr ⟨htimer, ne_nil_of_mem (mem_trace.mpr ⟨rfl, first, hfirst, hmade⟩)⟩
  · rw [← cons_append, ← append_assoc] at hlog
    exact .inl ⟨pre, entry, post, (append_inj' hlog rfl).1, htimer, first, hfirst, nodeId, nodeWs,
      onEnd, hmade⟩

/-- The timer of a call that waits settles it. -/
theorem settled_of_waiting (isOpen : Openness) (m : HubNodeLinkManager) {call : CallId}
    (htimer : event.timerOf = some call) (hentry : entryOf m call = some e)
    (hwaiting : e.opened = false) :
    ∃ settlement, .settled call settlement ∈ (perform isOpen m event).2 := by
  cases event with
  | requestTimeout requestId =>
    cases htimer
    obtain ⟨pending, hfind, rfl⟩ := Option.map_eq_some_iff.mp hentry
    simp [perform, requestTimeout, hfind]
  | streamTimeout streamId =>
    cases htimer
    obtain ⟨stream, hfind, rfl⟩ := Option.map_eq_some_iff.mp hentry
    have hopened : stream.opened = false := hwaiting
    simp [perform, streamTimeout, hfind, hopened]
  | _ => cases htimer

/-- A cleared or fired timer means that the call is settled. -/
theorem settled_step (h : Inv w) (hkept : Kept w) (hA : Admissible w event)
    (hO : Orderly w event) (call : CallId) :
    .timerCleared call ∈ trace (step w event) call ∨ TimedOut (step w event) call →
      ∃ settlement, .settled call settlement ∈ trace (step w event) call := by
  have hcleared := (h.calls call).settled_step (h.steps_of hA call)
    (fun e streamId hentry hcall hevent => by
      subst hcall
      obtain hevent | ⟨message, hevent, hnode, hends⟩ := hevent
      · exact h.opened_of_handle hA hevent hentry
      · exact hO.ended message streamId hevent hends e hentry hnode)
    fun hcleared => hkept.settled call (.inl hcleared)
  rw [trace_step]
  rintro (htimer | htimedOut)
  · exact hcleared htimer
  · obtain hold | ⟨htimer, hmade⟩ := htimedOut.of_step
    · exact (hkept.settled call (.inr hold)).imp fun _ => mem_append_left _
    · -- the call waits, or its timer was cleared or fired before
      obtain ⟨-, hnil⟩ | ⟨e, hentry, hwaiting⟩ | hover := h.waits call
      · exact absurd hnil hmade
      · obtain ⟨settlement, hsettled⟩ := settled_of_waiting w.isOpen w.manager htimer hentry hwaiting
        exact ⟨settlement, mem_append_right _ (mem_about hsettled rfl)⟩
      · obtain hold | ⟨settlement, hsettled⟩ := hover
        · exact (hkept.settled call (.inl hold)).imp fun _ => mem_append_left _
        · exact ⟨settlement, mem_append_left _ hsettled⟩

theorem Inv.eq_of_draws (h : Inv w) {entry' : LogEntry Num} (hentry : entry ∈ w.log)
    (hentry' : entry' ∈ w.log) {id : String} (hid : id ∈ entry.event.draws)
    (hid' : id ∈ entry'.event.draws) : entry = entry' := by
  have hsymm : Std.Symm fun a b : LogEntry Num => ∀ id ∈ b.event.draws, id ∉ a.event.draws :=
    ⟨fun _ _ h id hid hid' => h id hid' hid⟩
  by_contra hne
  exact h.distinct.forall hentry hentry' hne id hid' hid

theorem Records.draws (h : Records entry stream) : stream.streamId ∈ entry.event.draws := by
  obtain ⟨⟨payload, hevent⟩, -⟩ := h
  rw [hevent]
  exact mem_cons_of_mem _ mem_cons_self

theorem Inv.eq_of_records (h : Inv w) {entry' : LogEntry Num} (hentry : entry ∈ w.log)
    (hentry' : entry' ∈ w.log) {stream' : PendingStream} (hrecords : Records entry stream)
    (hrecords' : Records entry' stream') (hid : stream.streamId = stream'.streamId) :
    stream.nodeWs = stream'.nodeWs ∧
      (cancelMessage stream : RelayNodeEnvelope Num) = cancelMessage stream' := by
  obtain rfl := h.eq_of_draws hentry hentry' hrecords.draws (hid ▸ hrecords'.draws)
  obtain ⟨⟨payload, hevent⟩, hmade⟩ := hrecords
  obtain ⟨⟨payload', hevent'⟩, hmade'⟩ := hrecords'
  rw [← hid] at hmade'
  obtain ⟨before, after, hstep⟩ := h.steps entry hentry (.stream stream.streamId)
  have hws := (hstep.of_made (mem_about hmade rfl)).1.symm.trans
    (hstep.of_made (mem_about hmade' rfl)).1
  injection hws with hws
  injection hws with _ _ hws
  refine ⟨hws, ?_⟩
  injection hevent.symm.trans hevent' with hnode htype _ _ _ hrequest
  simp only [cancelMessage, PendingStream.cancelType, hnode, htype, hrequest, hid]

end Kept

section Runs

variable {w : World Num} {event : Event Num}

theorem CallStep.of_timer {call : CallId} {before after : Option Entry}
    (h : CallStep event call before effects after) (htimer : event.timerOf = some call)
    {settlement : Settlement Num} (hsettled : .settled call settlement ∈ effects) :
    ∃ e, before = some e ∧ e.opened = false := by
  have hhandler {l : List (Effect Num)} (h : ∀ effect ∈ l, effect.isHandler = true) :
      .settled call settlement ∉ l := fun hmem => by cases h _ hmem
  have hend {e : Entry} : .settled call settlement ∉ (endOf call e : List (Effect Num)) :=
    fun hmem => by cases mem_endOf hmem
  cases h with
  | timedOut e error hwaiting => exact ⟨e, rfl, hwaiting⟩
  | lost e error hwaiting => exact ⟨e, rfl, hwaiting⟩
  | untouched => cases hsettled
  | made => simp at hsettled
  | opened e payload message hevent | answered e settlement message hevent =>
    rw [hevent] at htimer
    cases htimer
  | handled e effects message hevent hnode hhandlers => exact absurd hsettled (hhandler hhandlers)
  | erred e effects message hevent hnode hopened hhandlers =>
    simp [hhandler hhandlers] at hsettled
  | closed e streamId hcall hevent => simp [hend] at hsettled
  | lostOpened e effects hopened hhandlers => simp [hhandler hhandlers, hend] at hsettled

theorem mem_trace_of_log {call : CallId} (hentry : entry ∈ w.log) (heffect : effect ∈ entry.effects)
    (hcall : effect.callOf = some call) : effect ∈ trace w call :=
  mem_trace.mpr ⟨hcall, entry, hentry, heffect⟩

theorem GivesUp.trace_ne_nil (hentry : entry ∈ w.log)
    (h : GivesUp entry streamId) : trace w (.stream streamId) ≠ [] := by
  obtain ⟨-, settlement, hsettled⟩ | ⟨-, hcleared⟩ := h
  · exact ne_nil_of_mem (mem_trace_of_log hentry hsettled rfl)
  · exact ne_nil_of_mem (mem_trace_of_log hentry hcleared rfl)

theorem sent_of_closeStream (isOpen : Openness) (m : HubNodeLinkManager) {stream : PendingStream}
    (hfind : m.streams.find? stream.streamId = some stream) (hopen : isOpen stream.nodeWs = true) :
    .sent stream.nodeWs (cancelMessage stream) ∈ (@closeStream Num isOpen m stream.streamId).2 := by
  simp [closeStream, hfind, sendJson, hopen]

/-- A stream given up on an open link is cancelled there. -/
theorem cancelled_step (h : Inv w) (hkept : Kept w) (hA : Admissible w event)
    (hO : Orderly w event) :
    ∀ entry ∈ (step w event).log, ∀ stream, Records entry stream →
      ∀ entry' ∈ (step w event).log, GivesUp entry' stream.streamId →
      entry'.isOpen stream.nodeWs = true →
      .sent stream.nodeWs (cancelMessage stream) ∈ entry'.effects := by
  intro entry hentry stream hrecords entry' hentry' hgives hopen
  obtain hold | hnow := mem_append.mp hentry
  · obtain hold' | hnow' := mem_append.mp hentry'
    · exact hkept.cancelled entry hold stream hrecords entry' hold' hgives hopen
    obtain rfl := mem_singleton.mp hnow'
    have hmade := mem_trace_of_log hold hrecords.2 rfl
    obtain ⟨hevent, settlement, hsettled⟩ | ⟨hevent, hcleared⟩ := hgives
    · simp only at hevent
      obtain ⟨e, hbefore, hwaiting⟩ := (h.steps_of hA (.stream stream.streamId)).of_timer
        (by rw [hevent]; rfl) (mem_about hsettled rfl)
      have hcall := h.calls (.stream stream.streamId)
      rw [hbefore] at hcall
      have hclosed := hO.started stream.streamId hevent e hbefore hwaiting
      rw [← (hcall.made_of_entry hmade).2] at hclosed
      exact absurd hopen (by simp [hclosed])
    · subst hevent
      cases hfind : w.manager.streams.find? stream.streamId with
      | none => simp [perform, closeStream, hfind] at hcleared
      | some row =>
        obtain ⟨hrow, hid⟩ := (w.manager.streams.find?_eq_some_iff _ _).mp hfind
        obtain ⟨first, hfirst, hrecorded⟩ := h.recorded row hrow
        obtain ⟨hws, hcancel⟩ := h.eq_of_records hold hfirst hrecords hrecorded hid.symm
        rw [hws, hcancel]
        rw [← hid] at hfind
        have hsent := @sent_of_closeStream Num w.isOpen w.manager row hfind (hws ▸ hopen)
        rw [hid] at hsent
        exact hsent
  · -- The request of the stream comes now, so nothing happened to the stream before.
    obtain rfl := mem_singleton.mp hnow
    have hnone : trace w (.stream stream.streamId) = [] :=
      h.trace_of_fresh hA ⟨stream.streamId, hrecords.draws, .inr rfl⟩
    obtain ⟨⟨payload, hevent⟩, -⟩ := hrecords
    simp only at hevent
    obtain hold' | hnow' := mem_append.mp hentry'
    · exact absurd hnone (hgives.trace_ne_nil hold')
    · obtain rfl := mem_singleton.mp hnow'
      obtain ⟨hevent', -⟩ | ⟨hevent', -⟩ := hgives
      all_goals
        rw [hevent] at hevent'
        cases hevent'

theorem kept_step (h : Inv w) (hkept : Kept w) (hA : Admissible w event) (hO : Orderly w event) :
    Kept (step w event) :=
  ⟨settled_step h hkept hA hO, cancelled_step h hkept hA hO⟩

theorem kept_start : Kept (World.start : World Num) where
  settled := fun call h => by
    obtain h | ⟨pre, entry, post, hlog, -⟩ := h
    · cases h
    · exact absurd hlog (by simp [World.start])
  cancelled := fun _ h => by cases h

/-- **Exactness.** A step that is not orderly breaks a promise or leaves the node to run on. -/
theorem orderly_of_kept (h : Inv w) (hkept : Kept (step w event)) : Orderly w event where
  ended := fun message streamId hevent hends e hentry hnode => by
    subst hevent
    by_contra hopened
    have hcall := h.calls (.stream streamId)
    rw [hentry] at hcall
    obtain ⟨stream, hfind, rfl⟩ := Option.map_eq_some_iff.mp hentry
    have heffects : (perform w.isOpen w.manager (.envelope message)).2 =
        .timerCleared (.stream streamId) :: (sendJson w.isOpen stream.nodeWs
          (cancelMessage stream) ++ endHandler stream) := by
      simp only [perform, handleEnvelope_of_endsStream w.isOpen w.manager hfind hnode hends,
        closeStream, hfind]
    obtain ⟨settlement, hsettled⟩ := hkept.settled (.stream streamId) (.inl (by
      rw [trace_step, heffects]
      exact mem_append_right _ (mem_about mem_cons_self rfl)))
    rw [trace_step, heffects] at hsettled
    obtain hold | hnew := mem_append.mp hsettled
    · exact hcall.not_settled (Bool.eq_false_iff.mpr hopened) settlement hold
    · have hmem := (mem_filter.mp hnew).1
      simp [sendJson, endHandler] at hmem
  started := fun streamId hevent e hentry hwaiting => by
    subst hevent
    by_contra hopen
    obtain ⟨stream, hfind, rfl⟩ := Option.map_eq_some_iff.mp hentry
    obtain ⟨hrow, rfl⟩ := (w.manager.streams.find?_eq_some_iff _ _).mp hfind
    obtain ⟨entry, hentry, hrecords⟩ := h.recorded stream hrow
    have hopened : stream.opened = false := hwaiting
    have hsent := hkept.cancelled entry (mem_append_left _ hentry) stream hrecords _
      (mem_append_right _ mem_cons_self)
      (.inl ⟨rfl, by simp [perform, streamTimeout, hfind, hopened]⟩)
      (by simpa [ofStream] using hopen)
    simp [perform, streamTimeout, hfind, hopened] at hsent

end Runs

/-! ## Whole runs -/

/-- **Calls over shared links.** After any run every promise was settled at most once, a call hears
    of no node but its own, an opened stream that is gone had its `onEnd` once, and the tables hold
    no dead link; a call that is gone hears nothing more.  Every promise whose timer is gone is
    settled, and every stream given up on an open link cancelled, exactly in orderly runs. -/
theorem multiplexing_of_run (events : List (Event Num))
    (hA : Guarded step Admissible World.start events) :
    Multiplexed (exec step World.start events) ∧
    (∀ pre post, events = pre ++ post → ∀ call nodeId nodeWs onEnd,
      .made call nodeId nodeWs onEnd ∈ trace (exec step World.start pre) call →
      entryOf (exec step World.start pre).manager call = none →
      trace (exec step World.start events) call = trace (exec step World.start pre) call) ∧
    (∀ pre event post, events = pre ++ event :: post → ∀ streamId,
      Ends (exec step World.start pre) event streamId →
      entryOf (exec step World.start (pre ++ [event])).manager (.stream streamId) = none) ∧
    ((∀ pre, pre <+: events → Kept (exec step World.start pre)) ↔
      Guarded step Orderly World.start events) := by
  refine ⟨(inv_of_run inv_start hA).multiplexed, ?_, ?_, ?_⟩
  · rintro pre post rfl call nodeId nodeWs onEnd hmade hgone
    obtain ⟨hpre, hpost⟩ := (guarded_append step Admissible _ pre post).mp hA
    rw [exec_append]
    exact done_of_run (inv_of_run inv_start hpre) (ne_nil_of_mem hmade) hgone hpost
  · rintro pre event post rfl streamId hends
    have hpre := ((guarded_append step Admissible _ pre (event :: post)).mp hA).1
    rw [exec_append]
    exact gone_of_ends (inv_of_run inv_start hpre) hends
  · refine forall_prefix_iff_guarded_of (A := Admissible) (I := fun w => Inv w ∧ Kept w)
      (fun _ h => h.2) ?_ ?_ ⟨inv_start, kept_start⟩ hA
    · exact fun _ _ h hA hO => ⟨inv_step h.1 hA, kept_step h.1 h.2 hA hO⟩
    · exact fun _ _ h _ hkept => orderly_of_kept h.1 hkept

/-- A tail that its node ends after `ended`. -/
def tailRun (ended : List (Event ℕ)) : List (Event ℕ) :=
  [.ready 0 true, .registerNodeLink "node" 0,
    .streamRequest "node" "fs.tail" none true true "rpc-1" "stream-1"] ++ ended

def tailEnvelope (type : String) : Event ℕ :=
  .envelope { nodeId := "node", channel := .rpc, type, streamId := some "stream-1" }

theorem admissible_tailRun (types : List String) :
    Guarded step Admissible World.start (tailRun (types.map tailEnvelope)) := by
  refine (guarded_append step Admissible _ _ _).mpr ⟨?_, ?_⟩
  · refine ⟨⟨?_, ?_, ?_, ?_⟩, ⟨?_, ?_, ?_, ?_⟩, ⟨?_, ?_, ?_, ?_⟩, trivial⟩
    all_goals simp [step, World.start, Event.draws, Event.registers]
  · refine guarded_of_forall (fun event hevent w => ?_) _
    obtain ⟨type, -, rfl⟩ := mem_map.mp hevent
    exact ⟨(fun _ _ _ h => by cases h), (fun _ _ h => by cases h), (fun _ _ h => by cases h),
      (fun _ h => by cases h)⟩

theorem multiplexed_tailRun :
    Multiplexed (exec step World.start
      (tailRun (["fs.tail.result", "fs.tail.end"].map tailEnvelope))) :=
  (multiplexing_of_run _ (admissible_tailRun ["fs.tail.result", "fs.tail.end"])).1

/-- A tail that ends before its result: the start timer is cleared and the promise pends forever. -/
theorem unsettled_after_early_end :
    Guarded step Admissible World.start (tailRun (["fs.tail.end"].map tailEnvelope)) ∧
    .timerCleared (.stream "stream-1") ∈
      trace (exec step World.start (tailRun (["fs.tail.end"].map tailEnvelope)))
        (.stream "stream-1") ∧
    ∀ settlement, .settled (.stream "stream-1") settlement ∉
      trace (exec step World.start (tailRun (["fs.tail.end"].map tailEnvelope)))
        (.stream "stream-1") := by
  have htrace : trace (exec step World.start (tailRun (["fs.tail.end"].map tailEnvelope)))
      (.stream "stream-1") =
        [.made (.stream "stream-1") "node" 0 true, .timerCleared (.stream "stream-1"),
          .onEnd "stream-1"] := rfl
  rw [htrace]
  exact ⟨admissible_tailRun ["fs.tail.end"], by simp, by simp⟩

end RelayIde.Links
