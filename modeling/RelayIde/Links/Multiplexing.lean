import RelayIde.Links.Manager

/-!
# Calls over a Shared Link

The promise, the handlers and the timer of one call, whatever else goes over the link of its node.

- `CallInv`, `CallInv.step` — what the effects of a call tell of its entry
-/

namespace RelayIde.Links

open RelayIde.Library List

variable {Num : Type}

/-! ## One call among many -/

def Effect.callOf : Effect Num → Option CallId
  | .made call _ _ _ | .timerCleared call | .settled call _ => some call
  | .onChunk streamId _ | .onError streamId _ | .onEnd streamId => some (.stream streamId)
  | _ => none

def about (call : CallId) (effects : List (Effect Num)) : List (Effect Num) :=
  effects.filter fun effect => effect.callOf = some call

/-- A handler of the caller, other than `onEnd`. -/
def Effect.isHandler : Effect Num → Bool
  | .onChunk _ _ | .onError _ _ => true
  | _ => false

/-- A call as its table holds it. -/
structure Entry where
  nodeId : String
  nodeWs : Socket
  opened : Bool
  onEnd : Bool

def ofRequest (p : PendingRpc) : Entry := ⟨p.nodeId, p.nodeWs, false, false⟩

def ofStream (s : PendingStream) : Entry := ⟨s.nodeId, s.nodeWs, s.opened, s.onEnd⟩

def entryOf (m : HubNodeLinkManager) : CallId → Option Entry
  | .request requestId => (m.pending.find? requestId).map ofRequest
  | .stream streamId => (m.streams.find? streamId).map ofStream

/-- The `onEnd` of a call, where the caller gave one. -/
def endOf (call : CallId) (entry : Entry) : List (Effect Num) :=
  match call with
  | .stream streamId => if entry.onEnd then [.onEnd streamId] else []
  | .request _ => []

def Event.timerOf : Event Num → Option CallId
  | .requestTimeout requestId => some (.request requestId)
  | .streamTimeout streamId => some (.stream streamId)
  | _ => none

def endsStream (message : RelayNodeEnvelope Num) (streamId : String) : Prop :=
  message.channel = .rpc ∧ Security.truthy message.streamId = some streamId ∧
    message.error.isNone = true ∧ isTailEnd message.type = true

inductive CallStep (event : Event Num) (call : CallId) :
    Option Entry → List (Effect Num) → Option Entry → Prop
  | untouched (before : Option Entry) : CallStep event call before [] before
  | made (nodeId : String) (nodeWs : Socket) (onEnd : Bool)
      (hdraws : ∃ id ∈ event.draws, call = .request id ∨ call = .stream id)
      (henvelope : ∀ message, event ≠ .envelope message) :
      CallStep event call none [.made call nodeId nodeWs onEnd]
        (some ⟨nodeId, nodeWs, false, onEnd⟩)
  | timedOut (e : Entry) (error : HubNodeLinkError Num) (hwaiting : e.opened = false)
      (htimer : event.timerOf = some call) :
      CallStep event call (some e)
        [.settled call (.rejected error)] none
  | handled (e : Entry) (effects : List (Effect Num)) (message : RelayNodeEnvelope Num)
      (hevent : event = .envelope message) (hnode : message.nodeId = e.nodeId)
      (hhandlers : ∀ effect ∈ effects, effect.isHandler = true) :
      CallStep event call (some e) effects (some e)
  | erred (e : Entry) (effects : List (Effect Num)) (message : RelayNodeEnvelope Num)
      (hevent : event = .envelope message) (hnode : message.nodeId = e.nodeId)
      (hopened : e.opened = true) (hhandlers : ∀ effect ∈ effects, effect.isHandler = true) :
      CallStep event call (some e) (.timerCleared call :: effects) (some e)
  | opened (e : Entry) (payload : Option (Json Num)) (message : RelayNodeEnvelope Num)
      (hevent : event = .envelope message) (hnode : message.nodeId = e.nodeId) :
      CallStep event call (some e)
        [.timerCleared call, .settled call (.resolved payload)] (some { e with opened := true })
  | answered (e : Entry) (settlement : Settlement Num) (message : RelayNodeEnvelope Num)
      (hevent : event = .envelope message) (hnode : message.nodeId = e.nodeId)
      (hwaiting : e.opened = false)
      (hcall : settlement.isResolved = true → ∃ requestId, call = .request requestId) :
      CallStep event call (some e) [.timerCleared call, .settled call settlement] none
  | closed (e : Entry) (streamId : String) (hcall : call = .stream streamId)
      (hevent : event = .closeStream streamId ∨
        ∃ message, event = .envelope message ∧ message.nodeId = e.nodeId ∧
          endsStream message streamId) :
      CallStep event call (some e) (.timerCleared call :: endOf call e) none
  | lost (e : Entry) (error : HubNodeLinkError Num) (hwaiting : e.opened = false)
      (henvelope : ∀ message, event ≠ .envelope message) :
      CallStep event call (some e)
        (.timerCleared call :: .settled call (.rejected error) :: endOf call e) none
  | lostOpened (e : Entry) (effects : List (Effect Num)) (hopened : e.opened = true)
      (hhandlers : ∀ effect ∈ effects, effect.isHandler = true)
      (henvelope : ∀ message, event ≠ .envelope message) :
      CallStep event call (some e) (.timerCleared call :: (effects ++ endOf call e)) none

variable {ρ : Type} {streamId requestId : String} {stream : PendingStream} {pending : PendingRpc}
  {m' : HubNodeLinkManager} {message : RelayNodeEnvelope Num} {e : Entry} {rest : List (Effect Num)}

section About

variable {call other : CallId}

theorem about_append (l l' : List (Effect Num)) :
    about call (l ++ l') = about call l ++ about call l' :=
  filter_append l l'

section
variable {l : List (Effect Num)}

theorem about_of_forall (h : ∀ effect ∈ l, effect.callOf = some other) :
    about call l = if other = call then l else [] := by
  unfold about
  split
  · rename_i heq
    rw [filter_eq_self]
    intro effect heffect
    simp [h effect heffect, heq]
  · rename_i hne
    rw [filter_eq_nil_iff]
    intro effect heffect
    simp [h effect heffect, hne]

theorem about_of_ne (h : ∀ effect ∈ l, effect.callOf ≠ some call) : about call l = [] := by
  unfold about
  rw [filter_eq_nil_iff]
  intro effect heffect
  simp [h effect heffect]

theorem about_of_none (h : ∀ effect ∈ l, effect.callOf = none) : about call l = [] :=
  about_of_ne fun effect heffect hcall => by simp [h effect heffect] at hcall

end

@[simp] theorem about_sendJson (isOpen : Openness) (ws : Socket)
    (message : RelayNodeEnvelope Num) : about call (sendJson isOpen ws message) = [] := by
  apply about_of_none
  intro effect heffect
  unfold sendJson at heffect
  split at heffect
  · rw [mem_singleton.mp heffect]
    rfl
  · cases heffect

theorem about_flatMap {key : ρ → String} (t : Table key) (p : ρ → Bool)
    {f : ρ → List (Effect Num)} (toCall : String → CallId) (hinj : Function.Injective toCall)
    (hf : ∀ r, ∀ effect ∈ f r, effect.callOf = some (toCall (key r))) (k : String) :
    about (toCall k) ((t.rows.filter p).flatMap f) = ((t.find? k).filter p).elim [] f := by
  have hrows : about (toCall k) ((t.rows.filter p).flatMap f) =
      (t.rows.filter p).flatMap fun r => if key r = k then f r else [] := by
    rw [about, filter_flatMap]
    refine flatMap_congr fun r _ => ?_
    rw [← about, about_of_forall (hf r)]
    simp only [hinj.eq_iff]
  have hkept := (t.deleteWhere fun r => !p r).flatMap_of_key k f
  rw [Table.find?_deleteWhere, Table.rows_deleteWhere] at hkept
  simp only [Bool.not_not] at hkept
  rw [hrows, hkept]

end About

/-! ## What an event does to a call -/

section Perform

variable (isOpen : Openness) (m : HubNodeLinkManager) {call : CallId} {event : Event Num}

theorem entryOf_withoutRequest (requestId : String) :
    entryOf { m with pending := m.pending.deleteWhere fun p => p.requestId = requestId } call =
      if call = .request requestId then none else entryOf m call := by
  cases call with
  | stream streamId => rfl
  | request other =>
    simp only [entryOf, Table.find?_deleteWhere]
    cases hfind : m.pending.find? other with
    | none => simp
    | some p =>
      have hp : p.requestId = other := ((m.pending.find?_eq_some_iff _ _).mp hfind).2
      by_cases heq : other = requestId
      · simp [hp, heq]
      · simp [hp, heq]

theorem entryOf_withoutStream (streamId : String) :
    entryOf (withoutStream m streamId) call =
      if call = .stream streamId then none else entryOf m call := by
  cases call with
  | request requestId => rfl
  | stream other =>
    simp only [entryOf, withoutStream, Table.find?_deleteWhere]
    cases hfind : m.streams.find? other with
    | none => simp
    | some s =>
      have hs : s.streamId = other := ((m.streams.find?_eq_some_iff _ _).mp hfind).2
      by_cases heq : other = streamId
      · simp [hs, heq]
      · simp [hs, heq]

theorem entryOf_of_streams (h : m.streams.find? streamId = some stream) :
    entryOf m (.stream streamId) = some (ofStream stream) ∧ stream.streamId = streamId := by
  refine ⟨?_, ((m.streams.find?_eq_some_iff _ _).mp h).2⟩
  rw [entryOf, h]
  rfl

theorem entryOf_of_pending (h : m.pending.find? requestId = some pending) :
    entryOf m (.request requestId) = some (ofRequest pending) ∧ pending.requestId = requestId := by
  refine ⟨?_, ((m.pending.find?_eq_some_iff _ _).mp h).2⟩
  rw [entryOf, h]
  rfl

section
variable (stream : PendingStream)

theorem callOf_endHandler :
    ∀ effect ∈ (endHandler stream : List (Effect Num)),
      effect.callOf = some (.stream stream.streamId) := by
  intro effect heffect
  unfold endHandler at heffect
  split at heffect
  · rw [mem_singleton.mp heffect]
    rfl
  · cases heffect

theorem callOf_errorHandler (error : HubNodeLinkError Num) :
    ∀ effect ∈ errorHandler stream error, effect.callOf = some (.stream stream.streamId) ∧
      effect.isHandler = true := by
  intro effect heffect
  unfold errorHandler at heffect
  split at heffect
  · rw [mem_singleton.mp heffect]
    exact ⟨rfl, rfl⟩
  · cases heffect

theorem endOf_ofStream :
    (endOf (.stream stream.streamId) (ofStream stream) : List (Effect Num)) =
      endHandler stream := rfl

end

/-- What an event does to every call. -/
def Steps (event : Event Num) (m : HubNodeLinkManager)
    (result : HubNodeLinkManager × List (Effect Num)) : Prop :=
  ∀ call, CallStep event call (entryOf m call) (about call result.2) (entryOf result.1 call)

theorem about_cons (effect : Effect Num) (l : List (Effect Num)) :
    about call (effect :: l) =
      if effect.callOf = some call then effect :: about call l else about call l := by
  simp [about, filter_cons]

theorem callStep_of_target (target : CallId) (own : List (Effect Num)) (after : Option Entry)
    {effects : List (Effect Num)}
    (hown : ∀ call, about call effects = if target = call then own else [])
    (hentry : ∀ call, entryOf m' call = if call = target then after else entryOf m call)
    (h : CallStep event target (entryOf m target) own after) : Steps event m (m', effects) := by
  intro call
  rw [hown, hentry]
  by_cases heq : target = call
  · subst heq
    rwa [if_pos rfl, if_pos rfl]
  · rw [if_neg heq, if_neg (Ne.symm heq)]
    exact .untouched _

theorem callStep_of_own (target : CallId) (after : Option Entry)
    {effects : List (Effect Num)} (hown : ∀ effect ∈ effects, effect.callOf = some target)
    (hentry : ∀ call, entryOf m' call = if call = target then after else entryOf m call)
    (h : CallStep event target (entryOf m target) effects after) : Steps event m (m', effects) :=
  callStep_of_target m target effects after (fun _ => about_of_forall hown) hentry h

section
variable (nodeId type : String) (payload : Option (Json Num))

theorem callStep_request (requestId : String)
    (hfresh : entryOf m (.request requestId) = none) :
    Steps (.request nodeId type payload requestId) m
      (request isOpen m nodeId type payload requestId) := by
  unfold request
  cases liveLink isOpen m nodeId with
  | none => exact fun _ => .untouched _
  | some ws =>
    have hnone : m.pending.find? requestId = none := Option.map_eq_none_iff.mp hfresh
    refine callStep_of_target m (.request requestId)
      [.made (.request requestId) nodeId ws false] (some ⟨nodeId, ws, false, false⟩) ?_ ?_ ?_
    · intro call
      rw [about_cons]
      simp [Effect.callOf]
    · intro call
      cases call with
      | stream streamId => rfl
      | request other =>
        simp only [entryOf, Table.find?_insert]
        by_cases heq : requestId = other
        · subst heq
          simp [hnone, ofRequest]
        · simp [heq, Ne.symm heq]
    · rw [hfresh]
      exact .made nodeId ws false ⟨requestId, mem_cons_self, .inl rfl⟩ fun _ h => by cases h

theorem callStep_streamRequest
    (onError onEnd : Bool) (requestId streamId : String)
    (hfresh : entryOf m (.stream streamId) = none) :
    Steps (.streamRequest nodeId type payload onError onEnd requestId streamId) m
      (streamRequest isOpen m nodeId type payload onError onEnd requestId streamId) := by
  unfold streamRequest
  cases liveLink isOpen m nodeId with
  | none => exact fun _ => .untouched _
  | some ws =>
    have hnone : m.streams.find? streamId = none := Option.map_eq_none_iff.mp hfresh
    refine callStep_of_target m (.stream streamId)
      [.made (.stream streamId) nodeId ws onEnd] (some ⟨nodeId, ws, false, onEnd⟩) ?_ ?_ ?_
    · intro call
      rw [about_cons]
      simp [Effect.callOf]
    · intro call
      cases call with
      | request other => rfl
      | stream other =>
        simp only [entryOf, Table.find?_insert]
        by_cases heq : streamId = other
        · subst heq
          simp [hnone, ofStream]
        · simp [heq, Ne.symm heq]
    · rw [hfresh]
      exact .made nodeId ws onEnd
        ⟨streamId, mem_cons_of_mem _ mem_cons_self, .inr rfl⟩ fun _ h => by cases h

end

theorem callStep_requestTimeout (requestId : String) :
    Steps (.requestTimeout requestId : Event Num) m (requestTimeout m requestId) := by
  unfold requestTimeout
  cases hfind : m.pending.find? requestId with
  | none => exact fun _ => .untouched _
  | some pending =>
    refine callStep_of_own m (.request requestId) none ?_
      (fun call => entryOf_withoutRequest m requestId) ?_
    · simp [Effect.callOf]
    · rw [(entryOf_of_pending m hfind).1]
      exact .timedOut _ _ rfl rfl

theorem callStep_streamTimeout (streamId : String) :
    Steps (.streamTimeout streamId : Event Num) m (streamTimeout m streamId) := by
  unfold streamTimeout
  cases hfind : m.streams.find? streamId with
  | none => exact fun _ => .untouched _
  | some stream =>
    cases hopened : stream.opened with
    | true =>
      simp only [hopened]
      exact fun _ => .untouched _
    | false =>
      simp only [hopened]
      refine callStep_of_own m (.stream streamId) none ?_
        (fun call => entryOf_withoutStream m streamId) ?_
      · simp [Effect.callOf]
      · rw [(entryOf_of_streams m hfind).1]
        exact .timedOut _ _ hopened rfl

theorem callStep_closeStream {event : Event Num} (streamId : String)
    (hevent : ∀ stream, m.streams.find? streamId = some stream → event = .closeStream streamId ∨
      ∃ message, event = .envelope message ∧ message.nodeId = stream.nodeId ∧
        endsStream message streamId) :
    Steps event m (closeStream isOpen m streamId) := by
  unfold closeStream
  cases hfind : m.streams.find? streamId with
  | none => exact fun _ => .untouched _
  | some stream =>
    obtain ⟨hentry, rfl⟩ := entryOf_of_streams m hfind
    refine callStep_of_target m (.stream stream.streamId)
      (.timerCleared (.stream stream.streamId) :: endHandler stream) none ?_
      (fun call => entryOf_withoutStream m stream.streamId) ?_
    · intro call
      rw [about_cons, about_append, about_of_forall (callOf_endHandler stream)]
      by_cases heq : CallId.stream stream.streamId = call
      · simp [Effect.callOf, heq]
      · simp [Effect.callOf, heq]
    · rw [hentry]
      exact .closed (ofStream stream) stream.streamId rfl (hevent stream hfind)

theorem steps_of_none {effects : List (Effect Num)}
    (heffects : ∀ effect ∈ effects, effect.callOf = none)
    (hpending : m'.pending = m.pending) (hstreams : m'.streams = m.streams) :
    Steps event m (m', effects) := by
  intro call
  have hentry : entryOf m' call = entryOf m call := by
    cases call with
    | request requestId => rw [entryOf, entryOf, hpending]
    | stream streamId => rw [entryOf, entryOf, hstreams]
  rw [about_of_none heffects, hentry]
  exact .untouched _

theorem callOf_sendJson (ws : Socket) (message : RelayNodeEnvelope Num) :
    ∀ effect ∈ sendJson isOpen ws message, effect.callOf = none := by
  intro effect heffect
  unfold sendJson at heffect
  split at heffect
  · rw [mem_singleton.mp heffect]
    rfl
  · cases heffect

theorem entryOf_openStream (stream : PendingStream) (payload : Option (Json Num)) (call : CallId) :
    entryOf (openStream m stream payload).1 call =
      if call = .stream stream.streamId then
        (entryOf m (.stream stream.streamId)).map fun e => { e with opened := true }
      else entryOf m call := by
  cases call with
  | request requestId => rfl
  | stream other =>
    simp only [entryOf, openStream, Table.find?_updateWhere]
    by_cases heq : other = stream.streamId
    · subst heq
      cases hfind : m.streams.find? stream.streamId with
      | none => simp
      | some s =>
        have hs := (m.streams.find?_eq_some_iff _ _).mp hfind
        simp [hs.2, ofStream]
    · cases hfind : m.streams.find? other with
      | none => simp [heq]
      | some s =>
        have hs := (m.streams.find?_eq_some_iff _ _).mp hfind
        simp [hs.2, heq]

theorem callStep_handleStreamEnvelope (hchannel : message.channel = .rpc)
    (hid : Security.truthy message.streamId = some streamId)
    (hfind : m.streams.find? streamId = some stream) (hnode : message.nodeId = stream.nodeId) :
    Steps (.envelope message) m (handleStreamEnvelope isOpen m stream message).1 := by
  obtain ⟨hentry, rfl⟩ := entryOf_of_streams m hfind
  have hsame : ∀ call, entryOf m call =
      if call = .stream stream.streamId then entryOf m (.stream stream.streamId)
      else entryOf m call := by
    intro call
    split
    · rename_i heq
      rw [heq]
    · rfl
  unfold handleStreamEnvelope
  cases herror : message.error with
  | some error =>
    simp only [handleStreamError]
    split
    · rename_i hopened
      refine callStep_of_own m (.stream stream.streamId) _ ?_ hsame ?_
      · intro effect heffect
        obtain rfl | heffect := mem_cons.mp heffect
        · rfl
        · exact (callOf_errorHandler stream _ effect heffect).1
      · rw [hentry]
        exact .erred _ _ message rfl hnode hopened fun effect heffect =>
          (callOf_errorHandler stream _ effect heffect).2
    · rename_i hopened
      refine callStep_of_own m (.stream stream.streamId) none (by simp [Effect.callOf])
        (fun call => entryOf_withoutStream m stream.streamId) ?_
      rw [hentry]
      refine .answered _ (.rejected (.reported error)) message rfl hnode ?_ ?_
      · exact Bool.eq_false_iff.mpr hopened
      · exact fun hresolved => by cases hresolved
  | none =>
    split_ifs with hresult hchunk htailError hend
    · refine callStep_of_own m (.stream stream.streamId) _ (by simp [Effect.callOf])
        (entryOf_openStream m stream message.payload) ?_
      rw [hentry]
      exact .opened _ _ message rfl hnode
    · refine callStep_of_own m (.stream stream.streamId) _ (by simp [Effect.callOf]) hsame ?_
      rw [hentry]
      exact .handled _ _ message rfl hnode (by simp [Effect.isHandler])
    · cases htail : tailError message.payload with
      | none => exact steps_of_none m (fun _ h => absurd h not_mem_nil) rfl rfl
      | some error =>
        refine callStep_of_own m (.stream stream.streamId) _ ?_ hsame ?_
        · exact fun effect heffect => (callOf_errorHandler stream _ effect heffect).1
        · rw [hentry]
          exact .handled _ _ message rfl hnode fun effect heffect =>
            (callOf_errorHandler stream _ effect heffect).2
    · refine callStep_closeStream isOpen m stream.streamId fun other hother => .inr ?_
      obtain rfl : stream = other := Option.some.inj (hfind.symm.trans hother)
      exact ⟨message, rfl, hnode, hchannel, hid, by rw [herror]; rfl, hend⟩
    · exact fun _ => .untouched _

theorem callStep_answerRequest (hfind : m.pending.find? requestId = some pending)
    (hnode : message.nodeId = pending.nodeId) :
    Steps (.envelope message) m (answerRequest m pending message) := by
  obtain ⟨hentry, rfl⟩ := entryOf_of_pending m hfind
  refine callStep_of_own m (.request pending.requestId) none (by simp [Effect.callOf])
    (fun call => entryOf_withoutRequest m pending.requestId) ?_
  rw [hentry]
  exact .answered _ _ message rfl hnode rfl fun _ => ⟨pending.requestId, rfl⟩

theorem steps_handlePtyEnvelope (stream : BrowserPtyStream) (message : RelayNodeEnvelope Num) :
    Steps event m (handlePtyEnvelope isOpen m stream message).1 := by
  unfold handlePtyEnvelope
  split_ifs
  · refine steps_of_none m ?_ rfl rfl
    cases payloadText message.payload "data" with
    | none => exact fun _ h => absurd h not_mem_nil
    | some data => simp [Effect.callOf]
  · exact steps_of_none m (by simp [Effect.callOf]) rfl rfl
  · exact steps_of_none m (by simp [Effect.callOf]) rfl rfl
  · exact steps_of_none m (by simp [Effect.callOf]) rfl rfl
  · exact steps_of_none m (by simp [Effect.callOf]) rfl rfl
  · exact fun _ => .untouched _

theorem ofNode_eq_some {nodeId : ρ → String} {entry : Option ρ} {row : ρ}
    (h : ofNode nodeId entry message = some row) :
    entry = some row ∧ message.nodeId = nodeId row := by
  obtain ⟨hentry, hnode⟩ := Option.filter_eq_some_iff.mp h
  exact ⟨hentry, (of_decide_eq_true hnode).symm⟩

/-- **An envelope.** It touches the call it names, and only if that was made to its node. -/
theorem steps_handleEnvelope (message : RelayNodeEnvelope Num) :
    Steps (.envelope message) m (handleEnvelope isOpen m message).1 := by
  unfold handleEnvelope
  split
  · rename_i streamId _ hchannel hid
    split
    · exact fun _ => .untouched _
    · rename_i stream hstream
      obtain ⟨hfind, hnode⟩ := ofNode_eq_some hstream
      exact callStep_handleStreamEnvelope isOpen m hchannel hid hfind hnode
  · split
    · exact fun _ => .untouched _
    · rename_i pending hpending
      obtain ⟨hfind, hnode⟩ := ofNode_eq_some hpending
      exact callStep_answerRequest m hfind hnode
  · split
    · exact fun _ => .untouched _
    · exact steps_handlePtyEnvelope isOpen m _ _
  · refine steps_of_none m ?_ rfl rfl
    unfold handleNodeEvent
    split <;> simp [Effect.callOf]
  · exact fun _ => .untouched _

end Perform

/-! ## The life of a link -/

section Cleanup

variable (isOpen : Openness) (m : HubNodeLinkManager) {event : Event Num}

theorem callOf_rejectRequest (pending : PendingRpc) :
    ∀ effect ∈ (rejectRequest pending : List (Effect Num)),
      effect.callOf = some (.request pending.requestId) := by
  simp [rejectRequest, Effect.callOf]

theorem callOf_loseStream (stream : PendingStream) :
    ∀ effect ∈ (loseStream stream : List (Effect Num)),
      effect.callOf = some (.stream stream.streamId) := by
  intro effect heffect
  obtain rfl | heffect := mem_cons.mp heffect
  · rfl
  obtain heffect | heffect := mem_append.mp heffect
  · split at heffect
    · exact (callOf_errorHandler stream _ effect heffect).1
    · rw [mem_singleton.mp heffect]
      rfl
  · exact callOf_endHandler stream effect heffect

theorem callOf_losePty (stream : BrowserPtyStream) :
    ∀ effect ∈ (losePty isOpen stream : List (Effect Num)), effect.callOf = none := by
  intro effect heffect
  obtain rfl | heffect := mem_cons.mp heffect
  · rfl
  · split at heffect
    · rw [mem_singleton.mp heffect]
      rfl
    · cases heffect

/-- The call is held by a link that is lost. -/
def Entry.onLink (e : Entry) (nodeId : String) (ws : Socket) : Bool :=
  e.nodeId = nodeId ∧ e.nodeWs = ws

theorem entryOf_cleanup (nodeId : String) (ws : Socket) (call : CallId) :
    entryOf (@cleanupNodeLinkResources Num isOpen m nodeId ws).1 call =
      (entryOf m call).filter fun e => !e.onLink nodeId ws := by
  cases call with
  | request requestId | stream streamId =>
    simp only [entryOf, cleanupNodeLinkResources, Table.find?_deleteWhere, Option.filter_map]
    rfl

def lose (m : HubNodeLinkManager) (nodeId : String) (ws : Socket) : CallId → List (Effect Num)
  | .request requestId =>
    ((m.pending.find? requestId).filter fun p => (ofRequest p).onLink nodeId ws).elim []
      rejectRequest
  | .stream streamId =>
    ((m.streams.find? streamId).filter fun s => (ofStream s).onLink nodeId ws).elim [] loseStream

theorem callOf_flatMap {f : ρ → List (Effect Num)} (other : ρ → Option CallId)
    {rows : List ρ} (hf : ∀ r, ∀ effect ∈ f r, effect.callOf = other r) :
    ∀ effect ∈ rows.flatMap f, ∃ r, effect.callOf = other r := by
  intro effect heffect
  obtain ⟨r, -, heffect⟩ := mem_flatMap.mp heffect
  exact ⟨r, hf r effect heffect⟩

theorem about_cleanup (nodeId : String) (ws : Socket) (call : CallId) :
    about call (@cleanupNodeLinkResources Num isOpen m nodeId ws).2 =
      lose m nodeId ws call := by
  have hpty (rows : List BrowserPtyStream) :
      about call (rows.flatMap (@losePty Num isOpen)) = [] := by
    refine about_of_none fun effect heffect => ?_
    obtain ⟨r, hr⟩ := callOf_flatMap (fun _ => none) (callOf_losePty isOpen) effect heffect
    exact hr
  cases call with
  | request requestId =>
    have hstreams (rows : List PendingStream) :
        about (.request requestId) (rows.flatMap (@loseStream Num)) = [] := by
      refine about_of_ne fun effect heffect hcall => ?_
      obtain ⟨r, hr⟩ := callOf_flatMap _ callOf_loseStream effect heffect
      cases hr.symm.trans hcall
    simp only [cleanupNodeLinkResources, about_append, hpty, hstreams, append_nil]
    exact about_flatMap m.pending _ CallId.request (fun _ _ h => by cases h; rfl)
      callOf_rejectRequest requestId
  | stream streamId =>
    have hpending (rows : List PendingRpc) :
        about (.stream streamId) (rows.flatMap (@rejectRequest Num)) = [] := by
      refine about_of_ne fun effect heffect hcall => ?_
      obtain ⟨r, hr⟩ := callOf_flatMap _ callOf_rejectRequest effect heffect
      cases hr.symm.trans hcall
    simp only [cleanupNodeLinkResources, about_append, hpty, hpending, append_nil]
    exact about_flatMap m.streams _ CallId.stream (fun _ _ h => by cases h; rfl)
      callOf_loseStream streamId

theorem steps_cleanup {event : Event Num} (henvelope : ∀ message, event ≠ .envelope message)
    (nodeId : String) (ws : Socket) :
    Steps event m (cleanupNodeLinkResources isOpen m nodeId ws) := by
  intro call
  rw [about_cleanup, entryOf_cleanup]
  cases call with
  | request requestId =>
    simp only [lose, entryOf]
    cases hfind : m.pending.find? requestId with
    | none => exact .untouched _
    | some pending =>
      have hid := ((m.pending.find?_eq_some_iff _ _).mp hfind).2
      cases honLink : (ofRequest pending).onLink nodeId ws with
      | false =>
        simp only [Option.map_some, Option.filter, honLink]
        exact .untouched _
      | true =>
        simp only [Option.map_some, Option.filter, honLink, ← hid]
        exact .lost _ _ rfl henvelope
  | stream streamId =>
    simp only [lose, entryOf]
    cases hfind : m.streams.find? streamId with
    | none => exact .untouched _
    | some stream =>
      have hid := ((m.streams.find?_eq_some_iff _ _).mp hfind).2
      cases honLink : (ofStream stream).onLink nodeId ws with
      | false =>
        simp only [Option.map_some, Option.filter, honLink, Bool.false_eq_true, if_false,
          Bool.not_false, if_true]
        exact .untouched _
      | true =>
        simp only [Option.map_some, Option.filter, honLink, Bool.not_true, Bool.false_eq_true,
          if_false, if_true, ← hid]
        cases hopened : stream.opened with
        | true =>
          have heffects : (loseStream stream : List (Effect Num)) =
              .timerCleared (.stream stream.streamId) ::
                (errorHandler stream (linkClosed stream.nodeId) ++
                  endOf (.stream stream.streamId) (ofStream stream)) := by
            simp only [loseStream, hopened, if_true, endOf_ofStream]
          rw [Option.elim_some, heffects]
          exact .lostOpened _ _ hopened (fun effect heffect =>
            (callOf_errorHandler stream _ effect heffect).2) henvelope
        | false =>
          have heffects : (loseStream stream : List (Effect Num)) =
              .timerCleared (.stream stream.streamId) ::
                .settled (.stream stream.streamId) (.rejected (linkClosed stream.nodeId)) ::
                endOf (.stream stream.streamId) (ofStream stream) := by
            simp [loseStream, hopened, endOf_ofStream]
          rw [Option.elim_some, heffects]
          exact .lost _ _ hopened henvelope

/-! The events other than an envelope. -/

theorem steps_of_links {result : HubNodeLinkManager × List (Effect Num)}
    (h : Steps event m result) (hpending : m'.pending = result.1.pending)
    (hstreams : m'.streams = result.1.streams) {own : List (Effect Num)}
    (hown : ∀ effect ∈ own, effect.callOf = none) : Steps event m (m', result.2 ++ own) := by
  intro call
  have hentry : entryOf m' call = entryOf result.1 call := by
    cases call with
    | request requestId => rw [entryOf, entryOf, hpending]
    | stream streamId => rw [entryOf, entryOf, hstreams]
  rw [about_append, about_of_none hown, append_nil, hentry]
  exact h call

theorem steps_registerNodeLink (nodeId : String) (ws : Socket) :
    Steps (.registerNodeLink nodeId ws : Event Num) m (registerNodeLink isOpen m nodeId ws) := by
  unfold registerNodeLink
  split
  · exact steps_of_none m (fun _ h => absurd h not_mem_nil) rfl rfl
  · refine steps_of_links m (steps_cleanup isOpen m (fun _ h => by cases h) nodeId _) rfl rfl ?_
    intro effect heffect
    split at heffect
    · rw [mem_singleton.mp heffect]
      rfl
    · cases heffect

theorem steps_unregisterNodeLink (nodeId : String) (ws : Socket) :
    Steps (.unregisterNodeLink nodeId ws : Event Num) m
      (unregisterNodeLink isOpen m nodeId ws) := by
  have henvelope (message : RelayNodeEnvelope Num) :
      (.unregisterNodeLink nodeId ws : Event Num) ≠ .envelope message := fun h => by cases h
  unfold unregisterNodeLink
  split
  · exact steps_cleanup isOpen { m with links := Function.update m.links nodeId none } henvelope
      nodeId ws
  · exact steps_cleanup isOpen m henvelope nodeId ws

theorem steps_attachPty (nodeId sessionId : String) (browserWs : Socket) (streamId : String) :
    Steps event m (@attachPty Num isOpen m nodeId sessionId browserWs streamId) := by
  unfold attachPty
  cases liveLink isOpen m nodeId with
  | none => exact fun _ => .untouched _
  | some ws => exact steps_of_none m (callOf_sendJson isOpen ws _) rfl rfl

theorem steps_browserClose (streamId : String) :
    Steps event m (@browserClose Num isOpen m streamId) := by
  unfold browserClose
  cases m.ptyStreams.find? streamId with
  | none => exact fun _ => .untouched _
  | some stream => exact steps_of_none m (callOf_sendJson isOpen _ _) rfl rfl

theorem callOf_browserMessage (stream : BrowserPtyStream) (message : BrowserMessage Num) :
    ∀ effect ∈ browserMessage isOpen stream message, effect.callOf = none := by
  intro effect heffect
  unfold browserMessage at heffect
  split at heffect
  · rw [mem_singleton.mp heffect]
    rfl
  · cases message with
    | ping =>
      simp only at heffect
      split at heffect
      · rw [mem_singleton.mp heffect]
        rfl
      · cases heffect
    | resize cols rows => exact callOf_sendJson isOpen _ _ effect heffect
    | input data =>
      obtain rfl | heffect := mem_cons.mp heffect
      · rfl
      · exact callOf_sendJson isOpen _ _ effect heffect

/-- **One event.** -/
theorem steps_perform (event : Event Num)
    (hfresh : ∀ id ∈ event.draws, entryOf m (.request id) = none ∧ entryOf m (.stream id) = none) :
    Steps event m (perform isOpen m event) := by
  cases event with
  | registerNodeLink nodeId ws => exact steps_registerNodeLink isOpen m nodeId ws
  | unregisterNodeLink nodeId ws => exact steps_unregisterNodeLink isOpen m nodeId ws
  | ready ws isOpen => exact fun _ => .untouched _
  | request nodeId type payload requestId =>
    exact callStep_request isOpen m nodeId type payload requestId (hfresh requestId mem_cons_self).1
  | requestTimeout requestId => exact callStep_requestTimeout m requestId
  | streamRequest nodeId type payload onError onEnd requestId streamId =>
    exact callStep_streamRequest isOpen m nodeId type payload onError onEnd requestId streamId
      (hfresh streamId (mem_cons_of_mem _ mem_cons_self)).2
  | streamTimeout streamId => exact callStep_streamTimeout m streamId
  | closeStream streamId =>
    exact callStep_closeStream isOpen m streamId fun _ _ => .inl rfl
  | attachPty nodeId sessionId browserWs streamId =>
    exact steps_attachPty isOpen m nodeId sessionId browserWs streamId
  | browserMessage stream message =>
    exact steps_of_none m (callOf_browserMessage isOpen stream message) rfl rfl
  | browserClose streamId => exact steps_browserClose isOpen m streamId
  | envelope message => exact steps_handleEnvelope isOpen m message

end Cleanup

/-! ## What is over a run -/

def trace (w : World Num) (call : CallId) : List (Effect Num) :=
  w.log.flatMap fun entry => about call entry.effects

def Effect.settlement? : Effect Num → Option (Settlement Num)
  | .settled _ settlement => some settlement
  | _ => none

/-- What the promise of a call was settled with, in order; only the first one counts. -/
def settlements (effects : List (Effect Num)) : List (Settlement Num) :=
  effects.filterMap Effect.settlement?

/-- The promise is settled once: a later settlement can only be one more resolution. -/
def SettledOnce (effects : List (Effect Num)) : Prop :=
  (∀ settlement ∈ settlements effects, settlement.isResolved = true) ∨
    (settlements effects).length ≤ 1

def Effect.isEnd : Effect Num → Bool
  | .onEnd _ => true
  | _ => false

def Effect.isMade : Effect Num → Bool
  | .made _ _ _ _ => true
  | _ => false

/-- The stream was opened: its promise was resolved. -/
def Opened (call : CallId) (effects : List (Effect Num)) : Prop :=
  ∃ payload, .settled call (.resolved payload) ∈ effects

inductive CallInv (call : CallId) : List (Effect Num) → Option Entry → Prop
  | unmade : CallInv call [] none
  | waiting (e : Entry) (rest : List (Effect Num)) (hwaiting : e.opened = false)
      (hrest : ∀ effect ∈ rest, effect.isHandler = true) :
      CallInv call (.made call e.nodeId e.nodeWs e.onEnd :: rest) (some e)
  | opened (e : Entry) (rest : List (Effect Num)) (hopened : e.opened = true)
      (hresolved : Opened call rest) (hends : rest.filter Effect.isEnd = [])
      (hmade : ∀ effect ∈ rest, effect.isMade = false)
      (hall : ∀ settlement ∈ settlements rest, settlement.isResolved = true) :
      CallInv call (.made call e.nodeId e.nodeWs e.onEnd :: rest) (some e)
  | done (e : Entry) (rest : List (Effect Num))
      (hmade : ∀ effect ∈ rest, effect.isMade = false) (honce : SettledOnce rest)
      (hends : Opened call rest → rest.filter Effect.isEnd = endOf call e) :
      CallInv call (.made call e.nodeId e.nodeWs e.onEnd :: rest) none

section Histories

variable {call : CallId} {event : Event Num} {l effects : List (Effect Num)}
  {before after : Option Entry}

@[simp] theorem about_nil : about call ([] : List (Effect Num)) = [] := rfl

@[simp] theorem settlements_nil : settlements ([] : List (Effect Num)) = [] := rfl

@[simp] theorem settlements_settled (settlement : Settlement Num) :
    settlements (.settled call settlement :: l) = settlement :: settlements l := rfl

@[simp] theorem settlements_timerCleared :
    settlements (.timerCleared call :: l) = settlements l := rfl

theorem settlements_append (l l' : List (Effect Num)) :
    settlements (l ++ l') = settlements l ++ settlements l' :=
  filterMap_append

section
variable (h : ∀ effect ∈ l, effect.isHandler = true)
include h

theorem settlements_of_handlers : settlements l = [] := by
  unfold settlements
  rw [filterMap_eq_nil_iff]
  intro effect heffect
  have hhandler := h effect heffect
  cases effect <;> simp_all [Effect.isHandler, Effect.settlement?]

theorem ends_of_handlers : l.filter Effect.isEnd = [] := by
  rw [filter_eq_nil_iff]
  intro effect heffect
  have hhandler := h effect heffect
  cases effect <;> simp_all [Effect.isHandler, Effect.isEnd]

theorem isMade_of_handlers : ∀ effect ∈ l, effect.isMade = false := by
  intro effect heffect
  have hhandler := h effect heffect
  cases effect <;> simp_all [Effect.isHandler, Effect.isMade]

end

theorem not_opened_of_settlements (h : settlements l = []) : ¬Opened call l := by
  rintro ⟨payload, hmem⟩
  have : Settlement.resolved payload ∈ settlements l :=
    mem_filterMap.mpr ⟨_, hmem, rfl⟩
  rw [h] at this
  cases this

theorem mem_endOf {effect : Effect Num} (h : effect ∈ endOf call e) : effect.isEnd = true := by
  unfold endOf at h
  cases call with
  | request requestId => cases h
  | stream streamId =>
    simp only at h
    split at h
    · rw [mem_singleton.mp h]
      rfl
    · cases h

theorem settlements_endOf (e : Entry) : settlements (endOf call e : List (Effect Num)) = [] := by
  unfold settlements
  rw [filterMap_eq_nil_iff]
  intro effect heffect
  have hend := mem_endOf heffect
  cases effect <;> simp_all [Effect.isEnd, Effect.settlement?]

theorem ends_endOf (e : Entry) :
    (endOf call e : List (Effect Num)).filter Effect.isEnd = endOf call e :=
  filter_eq_self.mpr fun _ heffect => mem_endOf heffect

theorem isMade_endOf (e : Entry) : ∀ effect ∈ (endOf call e : List (Effect Num)),
    effect.isMade = false := by
  intro effect heffect
  have hend := mem_endOf heffect
  cases effect <;> simp_all [Effect.isEnd, Effect.isMade]

theorem CallInv.done_of_waiting (hrest : ∀ effect ∈ rest, effect.isHandler = true)
    (hmade : ∀ effect ∈ effects, effect.isMade = false)
    (honce : (settlements effects).length ≤ 1)
    (hends : Opened call effects → effects.filter Effect.isEnd = endOf call e) :
    CallInv call ((.made call e.nodeId e.nodeWs e.onEnd :: rest) ++ effects) none := by
  refine .done e (rest ++ effects) ?_ ?_ ?_
  · intro effect heffect
    obtain h | h := mem_append.mp heffect
    · exact isMade_of_handlers hrest effect h
    · exact hmade effect h
  · right
    rwa [settlements_append, settlements_of_handlers hrest]
  · rintro ⟨payload, hmem⟩
    rw [filter_append, ends_of_handlers hrest]
    obtain h | h := mem_append.mp hmem
    · exact absurd ⟨payload, h⟩ (not_opened_of_settlements (settlements_of_handlers hrest))
    · exact hends ⟨payload, h⟩

theorem CallInv.done_of_opened
    (hends : rest.filter Effect.isEnd = []) (hmade : ∀ effect ∈ rest, effect.isMade = false)
    (hall : ∀ settlement ∈ settlements rest, settlement.isResolved = true)
    (hmade' : ∀ effect ∈ effects, effect.isMade = false) (hnone : settlements effects = [])
    (hends' : effects.filter Effect.isEnd = endOf call e) :
    CallInv call ((.made call e.nodeId e.nodeWs e.onEnd :: rest) ++ effects) none := by
  refine .done e (rest ++ effects) ?_ (.inl ?_) fun _ => ?_
  · intro effect heffect
    obtain h | h := mem_append.mp heffect
    · exact hmade effect h
    · exact hmade' effect h
  · rwa [settlements_append, hnone, append_nil]
  · rw [filter_append, hends, nil_append, hends']

theorem CallInv.opened_of_opened (hopened : e.opened = true)
    (hresolved : Opened call rest) (hends : rest.filter Effect.isEnd = [])
    (hmade : ∀ effect ∈ rest, effect.isMade = false)
    (hall : ∀ settlement ∈ settlements rest, settlement.isResolved = true)
    (hmade' : ∀ effect ∈ effects, effect.isMade = false) (hends' : effects.filter Effect.isEnd = [])
    (hall' : ∀ settlement ∈ settlements effects, settlement.isResolved = true) :
    CallInv call ((.made call e.nodeId e.nodeWs e.onEnd :: rest) ++ effects) (some e) := by
  refine .opened e (rest ++ effects) hopened ?_ ?_ ?_ ?_
  · exact hresolved.imp fun _ => mem_append_left effects
  · rw [filter_append, hends, hends', append_nil]
  · intro effect heffect
    obtain h | h := mem_append.mp heffect
    · exact hmade effect h
    · exact hmade' effect h
  · intro settlement hmem
    rw [settlements_append] at hmem
    obtain h | h := mem_append.mp hmem
    · exact hall settlement h
    · exact hall' settlement h

/-- **One event and one call.** A call is made once; a stream that is closed was opened. -/
theorem CallInv.step (hinv : CallInv call l before)
    (hstep : CallStep event call before effects after)
    (hfresh : (∃ id ∈ event.draws, call = .request id ∨ call = .stream id) → l = []) :
    CallInv call (l ++ effects) after := by
  cases hstep with
  | untouched => rwa [append_nil]
  | made nodeId nodeWs onEnd hdraws =>
    rw [hfresh hdraws]
    exact .waiting ⟨nodeId, nodeWs, false, onEnd⟩ [] rfl fun _ h => by cases h
  | timedOut e error hwaiting =>
    cases hinv with
    | opened e rest hopened => simp [hopened] at hwaiting
    | waiting e rest _ hrest =>
      refine .done_of_waiting hrest (by simp [Effect.isMade]) (by simp) ?_
      · rintro ⟨payload, hmem⟩
        simp at hmem
  | handled e effects message hevent hnode hhandlers =>
    cases hinv with
    | waiting e rest hwaiting hrest =>
      refine .waiting e (rest ++ effects) hwaiting fun effect heffect => ?_
      obtain h | h := mem_append.mp heffect
      · exact hrest effect h
      · exact hhandlers effect h
    | opened e rest hopened hresolved hends hmade hall =>
      refine .opened_of_opened hopened hresolved hends hmade hall (isMade_of_handlers hhandlers)
        (ends_of_handlers hhandlers) ?_
      rw [settlements_of_handlers hhandlers]
      exact fun _ h => by cases h
  | erred e effects message hevent hnode hopened hhandlers =>
    cases hinv with
    | waiting e rest hwaiting => simp [hwaiting] at hopened
    | opened e rest _ hresolved hends hmade hall =>
      refine .opened_of_opened hopened hresolved hends hmade hall ?_ ?_ ?_
      · simpa [Effect.isMade] using isMade_of_handlers hhandlers
      · simpa [Effect.isEnd] using ends_of_handlers hhandlers
      · rw [settlements_timerCleared, settlements_of_handlers hhandlers]
        exact fun _ h => by cases h
  | opened e payload message hevent hnode =>
    cases hinv with
    | waiting e rest hwaiting hrest =>
      refine .opened ⟨e.nodeId, e.nodeWs, true, e.onEnd⟩
        (rest ++ [.timerCleared call, .settled call (.resolved payload)]) rfl
        ⟨payload, mem_append_right rest (mem_cons_of_mem _ mem_cons_self)⟩ ?_ ?_ ?_
      · rw [filter_append, ends_of_handlers hrest]
        simp [Effect.isEnd]
      · intro effect heffect
        obtain h | h := mem_append.mp heffect
        · exact isMade_of_handlers hrest effect h
        · revert h
          simp only [mem_cons, not_mem_nil, or_false]
          rintro (rfl | rfl) <;> rfl
      · rw [settlements_append, settlements_of_handlers hrest]
        simp [Settlement.isResolved]
    | opened e rest hopened hresolved hends hmade hall =>
      have hsame : { e with opened := true } = e := by rw [← hopened]
      rw [hsame]
      exact .opened_of_opened hopened hresolved hends hmade hall (by simp [Effect.isMade])
        (by simp [Effect.isEnd]) (by simp [Settlement.isResolved])
  | answered e settlement message hevent hnode hwaiting hcall =>
    cases hinv with
    | opened e rest hopened => simp [hopened] at hwaiting
    | waiting e rest _ hrest =>
      refine .done_of_waiting hrest (by simp [Effect.isMade]) (by simp) ?_
      · rintro ⟨payload, hmem⟩
        simp at hmem
        obtain ⟨requestId, rfl⟩ := hcall (by rw [← hmem]; rfl)
        simp [endOf, Effect.isEnd]
  | closed e streamId hcall hevent =>
    have hmade : ∀ effect ∈ (.timerCleared call :: endOf call e : List (Effect Num)),
        effect.isMade = false := by
      simpa [Effect.isMade] using isMade_endOf e
    have hends : (.timerCleared call :: endOf call e : List (Effect Num)).filter Effect.isEnd =
        endOf call e := by
      simpa [Effect.isEnd] using ends_endOf e
    have hnone : settlements (.timerCleared call :: endOf call e : List (Effect Num)) = [] := by
      rw [settlements_timerCleared, settlements_endOf]
    cases hinv with
    | waiting e rest hwaiting hrest =>
      exact .done_of_waiting hrest hmade (by simp [hnone]) fun _ => hends
    | opened e rest hopened hresolved hends' hmade' hall =>
      exact .done_of_opened hends' hmade' hall hmade hnone hends
  | lost e error hwaiting =>
    cases hinv with
    | opened e rest hopened => simp [hopened] at hwaiting
    | waiting e rest _ hrest =>
      refine .done_of_waiting hrest ?_ ?_ ?_
      · simpa [Effect.isMade] using isMade_endOf e
      · rw [settlements_timerCleared, settlements_settled, settlements_endOf]
        rfl
      · intro _
        simpa [Effect.isEnd] using ends_endOf e
  | lostOpened e effects hopened hhandlers =>
    cases hinv with
    | waiting e rest hwaiting => simp [hwaiting] at hopened
    | opened e rest _ hresolved hends hmade hall =>
      refine .done_of_opened hends hmade hall ?_ ?_ ?_
      · intro effect heffect
        obtain rfl | heffect := mem_cons.mp heffect
        · rfl
        obtain h | h := mem_append.mp heffect
        · exact isMade_of_handlers hhandlers effect h
        · exact isMade_endOf e effect h
      · rw [settlements_timerCleared, settlements_append, settlements_of_handlers hhandlers,
          settlements_endOf]
        rfl
      · rw [filter_cons_of_neg (by simp [Effect.isEnd]), filter_append,
          ends_of_handlers hhandlers, ends_endOf]
        rfl

end Histories

end RelayIde.Links
