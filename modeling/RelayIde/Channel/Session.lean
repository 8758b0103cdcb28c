import RelayIde.Channel.Snapshot
import RelayIde.Library.Machine

/-!
# Channel Sessions

One channel with its hub and its clients: every writer of the store with the broadcast that
follows it, the hub's timers, and what a client does on its own (connect, read a frame, scroll
back through the history route).  A store write and its broadcast are one synchronous call
sequence in the server, hence one operation.

- `sinks_step`, `clients_step`, `advances_step` — what one operation does to the frames in
  flight, to the clients and to the log
-/

namespace RelayIde.Channel

open RelayIde.Library MessageLog List Function

/-! ## Clients -/

/-- The hub's options with the history route's budget. -/
structure SessionConfig extends HubConfig where
  historyMaxBytes : ℕ

/-- `HISTORY_PAGE_LIMIT` of the client. -/
def historyPageLimit : ℕ := 50

/-- `budgetHistoryRows(messages, 'backward', maxBytes)`: the newest rows, one at least. -/
def budgetHistoryRows (cfg : SessionConfig) (messages : List ChannelMessage) :
    List ChannelMessage :=
  (takeWithin (fun row => cfg.rowBytes row + 1) cfg.historyMaxBytes true 0
    messages.reverse).kept.reverse

/-- The rows of `GET /channels/:id/messages?beforeSeq=…&limit=…`: the store reads one row more
    than the page, which `budgetHistoryPage` drops again. -/
def historyPageBefore (cfg : SessionConfig) (log : MessageLog) (beforeSeq limit : ℕ) :
    List ChannelMessage :=
  budgetHistoryRows cfg
    (newest limit (log.history { beforeSeq := some beforeSeq, limit := some (limit + 1) }))

/-- The one `loadOlder` call of a client that may be under way. -/
inductive OlderPage where
  | idle
  /-- Requested with `beforeSeq`, the then-earliest held seq. -/
  | requested (beforeSeq : ℕ)
  /-- Answered by the server, not yet merged. -/
  | served (beforeSeq : ℕ) (page : List ChannelMessage)

structure ChannelClient where
  reducer : ChannelReducerState
  olderPage : OlderPage

structure Session (κ : Type) where
  hub : Hub κ
  clients : κ → ChannelClient

variable {κ : Type}

/-- No messages, no streams, nobody connected. -/
def Session.start : Session κ where
  hub :=
    { log := .empty
      asyncRuns := []
      accumulators := .empty
      subscribers := fun _ => none
      sinks := fun _ => [] }
  clients := fun _ => { reducer := initialChannelReducerState, olderPage := .idle }

/-! ## Operations -/

inductive SessionOp (κ : Type) where
  /-- `appendComplete` and `broadcastCreated`. -/
  | post (now : Timestamp) (input : MessageLog.AppendInput) (probes : κ → Probe)
  /-- `beginStream` and `beginStreamBroadcast`. -/
  | beginStream (now : Timestamp) (input : MessageLog.BeginStreamInput) (probes : κ → Probe)
  | pushDelta (id : ChannelMessageId) (text : String)
  /-- The coalesce timer. -/
  | flush (id : ChannelMessageId) (probes : κ → Probe)
  /-- The bridge's debounced `updateStreamText`, for a stream it still holds open. -/
  | persistText (now : Timestamp) (id : ChannelMessageId) (text : String)
  /-- `updateAgentDetail` and `updateStreamBroadcast`. -/
  | updateDetail (now : Timestamp) (id : ChannelMessageId) (detail : String)
  /-- The row-update timer. -/
  | flushRowUpdate (id : ChannelMessageId) (probes : κ → Probe)
  /-- `finalizeStream` and `completeStreamBroadcast`. -/
  | finalize (now : Timestamp) (id : ChannelMessageId) (input : MessageLog.FinalizeInput)
      (probes : κ → Probe)
  /-- `resolveProvisionalAgentDetailTerminal` and `completeStreamBroadcast`. -/
  | resolveProvisional (now : Timestamp) (id : ChannelMessageId) (text : String)
      (status : ChannelTerminalStatus) (agentDetail : String) (probes : κ → Probe)
  /-- `editMessage` and `broadcastEdited`. -/
  | edit (now : Timestamp) (id : ChannelMessageId) (editorId text : String)
      (mentions : Option (List String)) (probes : κ → Probe)
  /-- `deleteMessage` and `broadcastDeleted`. -/
  | delete (now : Timestamp) (id : ChannelMessageId) (deleterId : String) (probes : κ → Probe)
  /-- A run projection as the run store has it, and `broadcastRunLifecycle`. -/
  | runLifecycle (asyncRuns : List ChannelAsyncRun) (run : ChannelAsyncRun) (probes : κ → Probe)
  | deliveryReceipt (id : ChannelMessageId) (probes : κ → Probe)
  /-- Client `c` connects; `resume` sends its held `lastSeq` as the cursor. -/
  | subscribe (c : κ) (resume : Bool) (flushProbes : ChannelMessageId → κ → Probe)
      (probe : Probe) (queueProbes : ℕ → Probe)
  | disconnect (c : κ)
  /-- Client `c` folds its next frame. -/
  | receive (c : κ)
  /-- `loadOlder`, up to its request. -/
  | requestOlder (c : κ)
  /-- The history route answers. -/
  | serveOlder (c : κ)
  /-- The answer is merged. -/
  | landOlder (c : κ)
  /-- The request failed. -/
  | failOlder (c : κ)

def Hub.completeReturned (cfg : HubConfig) (hub : Hub κ) (probes : κ → Probe) :
    Option ChannelMessage → Hub κ
  | none => hub
  | some message => hub.completeStreamBroadcast cfg probes message

/-! ## Live events -/

/-- The live events an operation sends; a resync notice may precede any of them. -/
inductive Emits (s : Session κ) : SessionOp κ → ChannelEvent → Prop where
  | notice (op : SessionOp κ) (n : ℕ) : Emits s op (.resyncRequired n)
  | post {now input probes log message}
      (h : s.hub.log.appendComplete now input = some (log, message)) :
      Emits s (.post now input probes) (.messageCreated message)
  | beginStream {now input probes log message}
      (h : s.hub.log.beginStream now input = some (log, message)) :
      Emits s (.beginStream now input probes) (.messageCreated message)
  | flush {id probes f} (h : s.hub.FlushDeltaOf id f) : Emits s (.flush id probes) f
  | rowUpdate {id probes acc message} (hacc : acc ∈ s.hub.accumulators.rows)
      (h : acc.pendingUpdate = some message) :
      Emits s (.flushRowUpdate id probes) (.messageUpdated message)
  | finalize {now id input probes message}
      (h : (s.hub.log.finalizeStream now id input).2 = some message) :
      Emits s (.finalize now id input probes) (.messageCompleted message)
  | resolve {now id text status agentDetail probes message}
      (h : (s.hub.log.resolveProvisionalAgentDetailTerminal now id text status agentDetail).2.1 =
        some message) :
      Emits s (.resolveProvisional now id text status agentDetail probes)
        (.messageCompleted message)
  | edit {now id editorId text mentions probes log message}
      (h : s.hub.log.editMessage now id editorId text mentions = .ok (log, message)) :
      Emits s (.edit now id editorId text mentions probes) (.messageEdited message)
  | delete {now id deleterId probes log message}
      (h : s.hub.log.deleteMessage now id deleterId = .ok (log, message)) :
      Emits s (.delete now id deleterId probes) (.messageDeleted message)
  | runLifecycle {asyncRuns run probes} :
      Emits s (.runLifecycle asyncRuns run probes) (.runLifecycle run)
  | deliveryReceipt {id probes} : Emits s (.deliveryReceipt id probes) (.deliveryReceipt id)
  | subscribe {c resume flushProbes probe queueProbes f} (h : s.hub.FlushDelta f) :
      Emits s (.subscribe c resume flushProbes probe queueProbes) f

theorem Emits.isSnapshot_eq_false {s : Session κ} {op : SessionOp κ} {f : ChannelEvent}
    (h : Emits s op f) : f.isSnapshot = false := by
  cases h with
  | flush h =>
    obtain ⟨_, _, _, _, rfl⟩ := h
    rfl
  | subscribe h => exact h.isSnapshot_eq_false
  | _ => rfl

/-! ## Steps -/

variable [DecidableEq κ]

def Session.setClient (s : Session κ) (c : κ) (client : ChannelClient) : Session κ :=
  { s with clients := update s.clients c client }

def Session.step (cfg : SessionConfig) (s : Session κ) : SessionOp κ → Session κ
  | .post now input probes =>
    match s.hub.log.appendComplete now input with
    | none => s
    | some (log, message) =>
      { s with
        hub := { s.hub with log := log }.broadcastCreated cfg.toHubConfig probes message }
  | .beginStream now input probes =>
    match s.hub.log.beginStream now input with
    | none => s
    | some (log, message) =>
      { s with
        hub := { s.hub with log := log }.beginStreamBroadcast cfg.toHubConfig probes message }
  | .pushDelta id text => { s with hub := s.hub.pushDelta id text }
  | .flush id probes => { s with hub := s.hub.flushAccumulator cfg.toHubConfig probes id }
  | .persistText now id text =>
    match s.hub.log.getMessage id with
    | none => s
    | some row =>
      if row.status ≠ .streaming then s
      else { s with hub := { s.hub with log := s.hub.log.updateStreamText now id text } }
  | .updateDetail now id detail =>
    let hub := { s.hub with log := s.hub.log.updateAgentDetail now id detail }
    match hub.log.getMessage id with
    | none => s
    | some updated => { s with hub := hub.updateStreamBroadcast updated }
  | .flushRowUpdate id probes =>
    { s with hub := s.hub.flushRowUpdate cfg.toHubConfig probes id }
  | .finalize now id input probes =>
    let written := s.hub.log.finalizeStream now id input
    { s with
      hub := { s.hub with log := written.1 }.completeReturned cfg.toHubConfig probes written.2 }
  | .resolveProvisional now id text status agentDetail probes =>
    let resolved := s.hub.log.resolveProvisionalAgentDetailTerminal now id text status agentDetail
    { s with
      hub := { s.hub with log := resolved.1 }.completeReturned cfg.toHubConfig probes
        (if resolved.2.2 then resolved.2.1 else none) }
  | .edit now id editorId text mentions probes =>
    match s.hub.log.editMessage now id editorId text mentions with
    | .error _ => s
    | .ok (log, message) =>
      { s with
        hub := { s.hub with log := log }.broadcastEdited cfg.toHubConfig probes message }
  | .delete now id deleterId probes =>
    match s.hub.log.deleteMessage now id deleterId with
    | .error _ => s
    | .ok (log, message) =>
      { s with
        hub := { s.hub with log := log }.broadcastDeleted cfg.toHubConfig probes message }
  | .runLifecycle asyncRuns run probes =>
    { s with
      hub := { s.hub with asyncRuns := asyncRuns }.broadcast cfg.toHubConfig probes
        (.runLifecycle run) }
  | .deliveryReceipt id probes =>
    { s with hub := s.hub.broadcast cfg.toHubConfig probes (.deliveryReceipt id) }
  | .subscribe c resume flushProbes probe queueProbes =>
    let afterSeq := if resume then some (s.clients c).reducer.lastSeq else none
    { s with
      hub := s.hub.subscribe cfg.toHubConfig c afterSeq flushProbes probe queueProbes }
  | .disconnect c => { s with hub := s.hub.disconnect c }
  | .receive c =>
    match s.hub.sinks c with
    | [] => s
    | frame :: rest =>
      { hub := { s.hub with sinks := update s.hub.sinks c rest }
        clients := update s.clients c
          { s.clients c with
            reducer := applyChannelEvent (s.clients c).reducer frame } }
  | .requestOlder c =>
    match (s.clients c).olderPage, (s.clients c).reducer.messages.head? with
    | .idle, some earliest =>
      s.setClient c { s.clients c with olderPage := .requested earliest.seq }
    -- one call at a time; without a held row nothing has announced older rows
    | _, _ => s
  | .serveOlder c =>
    match (s.clients c).olderPage with
    | .requested beforeSeq =>
      s.setClient c
        { s.clients c with
          olderPage :=
            .served beforeSeq (historyPageBefore cfg s.hub.log beforeSeq historyPageLimit) }
    | _ => s
  | .landOlder c =>
    match (s.clients c).olderPage with
    | .served _ page =>
      s.setClient c
        { reducer := mergeHistoryPage (s.clients c).reducer page
          olderPage := .idle }
    | _ => s
  | .failOlder c => s.setClient c { s.clients c with olderPage := .idle }

/-! ## What one operation does -/

/-- The snapshot a subscription of client `c` is sent. -/
def Session.snapshotFor (cfg : SessionConfig) (s : Session κ) (c : κ) (resume : Bool)
    (flushProbes : ChannelMessageId → κ → Probe) : ChannelSnapshotEvent :=
  (s.hub.preparedFor cfg.toHubConfig c flushProbes).buildSnapshot cfg.toHubConfig
    (if resume then some (s.clients c).reducer.lastSeq else none)

/-- What one operation does to the frames in flight of one client. -/
inductive SinkChange (cfg : SessionConfig) (s : Session κ) (c : κ) :
    SessionOp κ → List ChannelEvent → List ChannelEvent → Prop where
  /-- Live events are appended. -/
  | live {op frames frames'} (new : List ChannelEvent) (hframes : frames' = frames ++ new)
      (hnew : ∀ f ∈ new, Emits s op f) : SinkChange cfg s c op frames frames'
  /-- The client reads its first frame. -/
  | read {frame rest} : SinkChange cfg s c (.receive c) (frame :: rest) rest
  /-- A new connection starts over, with a snapshot in front of everything but notices. -/
  | connect {resume flushProbes probe queueProbes frames} (new : List ChannelEvent)
      (hnew : ∀ f ∈ new, f = .snapshot (s.snapshotFor cfg c resume flushProbes) ∨
        Emits s (.subscribe c resume flushProbes probe queueProbes) f)
      (hfirst : SnapshotFirst new) :
      SinkChange cfg s c (.subscribe c resume flushProbes probe queueProbes) frames new
  | drop {frames} : SinkChange cfg s c (.disconnect c) frames []

section
variable {cfg : SessionConfig} {s : Session κ}

private theorem SinkChange.unchanged {c : κ}
    {op : SessionOp κ} {frames : List ChannelEvent} : SinkChange cfg s c op frames frames :=
  .live [] (append_nil _).symm (by simp)

private theorem SinkChange.of_grows {op : SessionOp κ}
    {P : ChannelEvent → Prop} {hub₀ hub' : Hub κ} (h : Grows P hub₀ hub')
    (hsinks : hub₀.sinks = s.hub.sinks) (hP : ∀ f, P f → Emits s op f) (c : κ) :
    SinkChange cfg s c op (s.hub.sinks c) (hub'.sinks c) := by
  obtain ⟨new, hnew, hall⟩ := h.sinks c
  rw [hsinks] at hnew
  exact .live new hnew fun f hf => hP f (hall f hf)

private theorem SinkChange.of_broadcast {op : SessionOp κ}
    {event : ChannelEvent} (hub₀ : Hub κ) (probes : κ → Probe)
    (hsinks : hub₀.sinks = s.hub.sinks) (hemits : Emits s op event) (c : κ) :
    SinkChange cfg s c op (s.hub.sinks c)
      ((hub₀.broadcast cfg.toHubConfig probes event).sinks c) := by
  refine .of_grows (grows_broadcast cfg.toHubConfig hub₀ probes event) hsinks ?_ c
  rintro f (rfl | rfl)
  · exact hemits
  · exact .notice op _

private theorem sinks_completeReturned {op : SessionOp κ}
    (hub₀ : Hub κ) (probes : κ → Probe) (hsinks : hub₀.sinks = s.hub.sinks)
    (returned : Option ChannelMessage)
    (hemits : ∀ m, returned = some m → Emits s op (.messageCompleted m)) (c : κ) :
    SinkChange cfg s c op (s.hub.sinks c)
      ((hub₀.completeReturned cfg.toHubConfig probes returned).sinks c) := by
  cases returned with
  | none =>
    show SinkChange cfg s c op (s.hub.sinks c) (hub₀.sinks c)
    rw [hsinks]
    exact .unchanged
  | some m => exact .of_broadcast _ probes hsinks (hemits m rfl) c

end

/-- **Frames in flight**: what one operation does to them. -/
theorem sinks_step (cfg : SessionConfig) (s : Session κ) (op : SessionOp κ) (c : κ) :
    SinkChange cfg s c op (s.hub.sinks c) ((s.step cfg op).hub.sinks c) := by
  cases op with
  | post now input probes =>
    unfold Session.step
    dsimp only
    split
    · exact .unchanged
    · rename_i log message h
      exact .of_broadcast { s.hub with log := log } probes rfl (.post h) c
  | beginStream now input probes =>
    unfold Session.step
    dsimp only
    split
    · exact .unchanged
    · rename_i log message h
      exact .of_broadcast ({ s.hub with log := log }.openAccumulator message) probes rfl
        (.beginStream h) c
  | pushDelta id text =>
    show SinkChange _ _ _ _ _ ((s.hub.pushDelta id text).sinks c)
    unfold Hub.pushDelta
    split <;> exact .unchanged
  | flush id probes =>
    refine .of_grows (grows_flushAccumulator cfg.toHubConfig s.hub probes id) rfl ?_ c
    rintro f (h | rfl)
    · exact .flush h
    · exact .notice _ _
  | persistText now id text =>
    unfold Session.step
    dsimp only
    split
    · exact .unchanged
    · split <;> exact .unchanged
  | updateDetail now id detail =>
    unfold Session.step
    dsimp only
    split
    · exact .unchanged
    · unfold Hub.updateStreamBroadcast
      split <;> exact .unchanged
  | flushRowUpdate id probes =>
    show SinkChange _ _ _ _ _ ((s.hub.flushRowUpdate cfg.toHubConfig probes id).sinks c)
    unfold Hub.flushRowUpdate
    split
    · exact .unchanged
    · rename_i acc hacc
      split
      · exact .unchanged
      · rename_i message hmessage
        have hmem := ((s.hub.accumulators.find?_eq_some_iff _ _).mp hacc).1
        exact .of_broadcast (s.hub.clearPendingUpdate id) probes rfl (.rowUpdate hmem hmessage) c
  | finalize now id input probes =>
    exact sinks_completeReturned { s.hub with log := (s.hub.log.finalizeStream now id input).1 }
      probes rfl _ (fun m h => .finalize h) c
  | resolveProvisional now id text status agentDetail probes =>
    refine sinks_completeReturned
      { s.hub with
        log := (s.hub.log.resolveProvisionalAgentDetailTerminal now id text status agentDetail).1 }
      probes rfl _ (fun m h => ?_) c
    split at h
    · exact .resolve h
    · cases h
  | edit now id editorId text mentions probes =>
    unfold Session.step
    dsimp only
    split
    · exact .unchanged
    · rename_i log message h
      exact .of_broadcast { s.hub with log := log } probes rfl (.edit h) c
  | delete now id deleterId probes =>
    unfold Session.step
    dsimp only
    split
    · exact .unchanged
    · rename_i log message h
      exact .of_broadcast ({ s.hub with log := log }.deleteAccumulator message.id) probes rfl
        (.delete h) c
  | runLifecycle asyncRuns run probes =>
    exact .of_broadcast { s.hub with asyncRuns := asyncRuns } probes rfl .runLifecycle c
  | deliveryReceipt id probes => exact .of_broadcast s.hub probes rfl .deliveryReceipt c
  | subscribe c' resume flushProbes probe queueProbes =>
    by_cases hc : c = c'
    · subst hc
      obtain ⟨hframes, hfirst⟩ := sinks_subscribe_self cfg.toHubConfig s.hub c
        (if resume then some (s.clients c).reducer.lastSeq else none) flushProbes probe queueProbes
      refine .connect _ (fun f hf => ?_) hfirst
      rcases hframes f hf with h | h | rfl
      · exact .inl h
      · exact .inr (.subscribe h)
      · exact .inr (.notice _ _)
    · obtain ⟨new, hnew, hall⟩ := sinks_subscribe_of_ne cfg.toHubConfig s.hub hc
        (if resume then some (s.clients c').reducer.lastSeq else none) flushProbes probe queueProbes
      refine .live new hnew fun f hf => ?_
      rcases hall f hf with h | rfl
      · exact .subscribe h
      · exact .notice _ _
  | disconnect c' =>
    show SinkChange _ _ _ _ _ (update s.hub.sinks c' [] c)
    by_cases hc : c = c'
    · subst hc
      rw [update_self]
      exact .drop
    · rw [update_of_ne hc]
      exact .unchanged
  | receive c' =>
    unfold Session.step
    dsimp only
    split
    · exact .unchanged
    · rename_i frame rest hframes
      show SinkChange _ _ _ _ _ (update s.hub.sinks c' rest c)
      by_cases hc : c = c'
      · subst hc
        rw [update_self, hframes]
        exact .read
      · rw [update_of_ne hc]
        exact .unchanged
  | requestOlder c' | serveOlder c' | landOlder c' =>
    unfold Session.step
    dsimp only
    split <;> exact .unchanged
  | failOlder c' => exact .unchanged

/-- What one operation does to one client. -/
inductive ClientChange (cfg : SessionConfig) (s : Session κ) (c : κ) :
    SessionOp κ → ChannelClient → Prop where
  | unchanged {op} : ClientChange cfg s c op (s.clients c)
  | read {frame rest} (h : s.hub.sinks c = frame :: rest) :
      ClientChange cfg s c (.receive c)
        { s.clients c with reducer := applyChannelEvent (s.clients c).reducer frame }
  | request {earliest} (hidle : (s.clients c).olderPage = .idle)
      (h : (s.clients c).reducer.messages.head? = some earliest) :
      ClientChange cfg s c (.requestOlder c)
        { s.clients c with olderPage := .requested earliest.seq }
  | serve {beforeSeq} (h : (s.clients c).olderPage = .requested beforeSeq) :
      ClientChange cfg s c (.serveOlder c)
        { s.clients c with
          olderPage :=
            .served beforeSeq (historyPageBefore cfg s.hub.log beforeSeq historyPageLimit) }
  | land {beforeSeq page} (h : (s.clients c).olderPage = .served beforeSeq page) :
      ClientChange cfg s c (.landOlder c)
        { reducer := mergeHistoryPage (s.clients c).reducer page, olderPage := .idle }
  | fail : ClientChange cfg s c (.failOlder c) { s.clients c with olderPage := .idle }

theorem ClientChange.update {cfg : SessionConfig} {s : Session κ} {c c' : κ} {op : SessionOp κ}
    {client : ChannelClient} (h : c = c' → ClientChange cfg s c op client) :
    ClientChange cfg s c op (update s.clients c' client c) := by
  by_cases hc : c = c'
  · subst hc
    rw [update_self]
    exact h rfl
  · rw [update_of_ne hc]
    exact .unchanged

section
variable (cfg : SessionConfig)
include cfg

/-- **Clients**: what one operation does to them. -/
theorem clients_step (s : Session κ) (op : SessionOp κ) (c : κ) :
    ClientChange cfg s c op ((s.step cfg op).clients c) := by
  cases op with
  | receive c' =>
    unfold Session.step
    dsimp only
    split
    · exact .unchanged
    · rename_i frame rest hframes
      refine .update fun hc => ?_
      subst hc
      exact .read hframes
  | requestOlder c' =>
    unfold Session.step
    dsimp only
    split
    · rename_i earliest hidle hhead
      refine .update fun hc => ?_
      subst hc
      exact .request hidle hhead
    · exact .unchanged
  | serveOlder c' =>
    unfold Session.step
    dsimp only
    split
    · rename_i beforeSeq hpage
      refine .update fun hc => ?_
      subst hc
      exact .serve hpage
    · exact .unchanged
  | landOlder c' =>
    unfold Session.step
    dsimp only
    split
    · rename_i beforeSeq page hpage
      refine .update fun hc => ?_
      subst hc
      exact .land hpage
    · exact .unchanged
  | failOlder c' =>
    refine .update fun hc => ?_
    subst hc
    exact .fail
  | post now input probes | beginStream now input probes | updateDetail now id detail
  | edit now id editorId text mentions probes | delete now id deleterId probes =>
    unfold Session.step
    dsimp only
    split <;> exact .unchanged
  | persistText now id text =>
    unfold Session.step
    dsimp only
    split
    · exact .unchanged
    · split <;> exact .unchanged
  | _ => exact .unchanged

theorem step_receive_of_nil {s : Session κ} {c : κ}
    (h : s.hub.sinks c = []) : s.step cfg (.receive c) = s := by
  unfold Session.step
  simp only [h]

/-- A client applies the first frame of its queue and leaves the rest of the session. -/
theorem step_receive_of_cons {s : Session κ} {c : κ} {frame : ChannelEvent}
    {rest : List ChannelEvent} (h : s.hub.sinks c = frame :: rest) :
    (s.step cfg (.receive c)).hub.log = s.hub.log ∧
      (s.step cfg (.receive c)).hub.sinks c = rest ∧
      (s.step cfg (.receive c)).clients c =
        { s.clients c with reducer := applyChannelEvent (s.clients c).reducer frame } := by
  unfold Session.step
  simp [h]

/-- **The log**: every operation leaves it advanced. -/
theorem advances_step (s : Session κ) (op : SessionOp κ) :
    s.hub.log.Advances (s.step cfg op).hub.log := by
  cases op with
  | post now input probes | beginStream now input probes =>
    unfold Session.step
    dsimp only
    split
    · exact .refl _
    · rename_i h
      exact advances_insertMessage h
  | persistText now id text =>
    unfold Session.step
    dsimp only
    split
    · exact .refl _
    · rename_i row hget
      split
      · exact .refl _
      · rename_i hstreaming
        exact advances_updateStreamText now text hget (not_not.mp hstreaming)
  | updateDetail now id detail =>
    have hadv := advances_updateAgentDetail s.hub.log now id detail
    unfold Session.step
    dsimp only
    split
    · exact .refl _
    · unfold Hub.updateStreamBroadcast
      split <;> exact hadv
  | finalize now id input probes =>
    have hadv := advances_finalizeStream s.hub.log now id input
    unfold Session.step Hub.completeReturned
    dsimp only
    split <;> exact hadv
  | resolveProvisional now id text status agentDetail probes =>
    have hadv := advances_resolveProvisional s.hub.log now id text status agentDetail
    unfold Session.step Hub.completeReturned
    dsimp only
    split <;> exact hadv
  | edit now id editorId text mentions probes =>
    unfold Session.step
    dsimp only
    split
    · exact .refl _
    · rename_i h
      exact (editMessage_ok h).1
  | delete now id deleterId probes =>
    unfold Session.step
    dsimp only
    split
    · exact .refl _
    · rename_i h
      exact (deleteMessage_ok h).1
  | subscribe c resume flushProbes probe queueProbes =>
    show s.hub.log.Advances (s.hub.subscribe _ _ _ _ _ _).log
    rw [log_subscribe]
    exact .refl _
  | flush id probes =>
    show s.hub.log.Advances (s.hub.flushAccumulator _ _ _).log
    rw [log_flushAccumulator]
    exact .refl _
  | pushDelta id text =>
    show s.hub.log.Advances (s.hub.pushDelta _ _).log
    unfold Hub.pushDelta
    split <;> exact .refl _
  | flushRowUpdate id probes =>
    show s.hub.log.Advances (s.hub.flushRowUpdate _ _ _).log
    unfold Hub.flushRowUpdate
    split
    · exact .refl _
    · split <;> exact .refl _
  | receive c | requestOlder c | serveOlder c | landOlder c =>
    unfold Session.step
    dsimp only
    split <;> exact .refl _
  | _ => exact .refl _

end

/-! ### Waiting row refreshes -/

/-- The rows waiting for their debounced broadcast. -/
def Hub.Pending (hub : Hub κ) (m : ChannelMessage) : Prop :=
  ∃ acc ∈ hub.accumulators.rows, acc.pendingUpdate = some m

omit [DecidableEq κ] in
theorem pending_deleteAccumulator {hub : Hub κ} {id : ChannelMessageId} {m : ChannelMessage}
    (h : (hub.deleteAccumulator id).Pending m) : hub.Pending m := by
  obtain ⟨acc, hacc, hm⟩ := h
  exact ⟨acc, (mem_filter.mp hacc).1, hm⟩

omit [DecidableEq κ] in
theorem pending_of_map {hub hub' : Hub κ} {f : Accumulator → Accumulator}
    (hrows : hub'.accumulators.rows = hub.accumulators.rows.map f)
    (hf : ∀ acc m, (f acc).pendingUpdate = some m → acc.pendingUpdate = some m)
    {m : ChannelMessage} (h : hub'.Pending m) : hub.Pending m := by
  obtain ⟨acc, hacc, hm⟩ := h
  rw [hrows] at hacc
  obtain ⟨acc₀, hacc₀, rfl⟩ := mem_map.mp hacc
  exact ⟨acc₀, hacc₀, hf acc₀ m hm⟩

@[simp] theorem pendingUpdate_flushed (acc : Accumulator) :
    acc.flushed.pendingUpdate = acc.pendingUpdate := by
  unfold Accumulator.flushed
  split <;> rfl

/-- A pending row was pending or is in the log. -/
theorem pending_step (cfg : SessionConfig) (s : Session κ) (op : SessionOp κ)
    {m : ChannelMessage} (h : (s.step cfg op).hub.Pending m) :
    s.hub.Pending m ∨ m ∈ (s.step cfg op).hub.log.rows := by
  cases op with
  | post now input probes | edit now id editorId text mentions probes | receive c
  | requestOlder c | serveOlder c | landOlder c =>
    unfold Session.step at h
    dsimp only at h
    split at h <;> exact .inl h
  | beginStream now input probes =>
    unfold Session.step at h
    dsimp only at h
    split at h
    · exact .inl h
    · rename_i log message _
      obtain ⟨acc, hacc, hm⟩ := h
      refine .inl ?_
      change acc ∈ (({ s.hub with log := log } : Hub κ).openAccumulator message).accumulators.rows
        at hacc
      rw [rows_openAccumulator] at hacc
      rcases mem_append.mp hacc with hacc | hacc
      · exact ⟨acc, (mem_filter.mp hacc).1, hm⟩
      · -- the accumulator that is opened waits for nothing
        rw [mem_singleton.mp hacc] at hm
        cases hm
  | pushDelta id text =>
    refine .inl ?_
    refine pending_of_map (rows_pushDelta s.hub id text) (fun acc m hm => ?_) h
    split at hm <;> exact hm
  | flush id probes =>
    refine .inl (pending_of_map (rows_flushAccumulator cfg.toHubConfig s.hub probes id) ?_ h)
    intro acc m hm
    split at hm
    · rwa [pendingUpdate_flushed] at hm
    · exact hm
  | persistText now id text =>
    unfold Session.step at h
    dsimp only at h
    split at h
    · exact .inl h
    · split at h <;> exact .inl h
  | updateDetail now id detail =>
    unfold Session.step at h ⊢
    dsimp only at h ⊢
    split at h
    · exact .inl h
    · rename_i updated hget
      unfold Hub.updateStreamBroadcast at h ⊢
      split at h
      · exact .inl h
      · rename_i hstreaming
        obtain ⟨acc, hacc, hm⟩ := h
        obtain ⟨acc₀, hacc₀, rfl⟩ := mem_map.mp hacc
        split at hm
        · refine .inr ?_
          rw [if_neg hstreaming, ← Option.some.inj hm]
          exact mem_of_getMessage hget
        · exact .inl ⟨acc₀, hacc₀, hm⟩
  | flushRowUpdate id probes =>
    refine .inl ?_
    change (s.hub.flushRowUpdate cfg.toHubConfig probes id).Pending m at h
    have hclear (h : (s.hub.clearPendingUpdate id).Pending m) : s.hub.Pending m := by
      refine pending_of_map (Table.rows_updateWhere _ _ _ (keyed_setPendingUpdate none))
        (fun acc m hm => ?_) h
      split at hm
      · cases hm
      · exact hm
    unfold Hub.flushRowUpdate at h
    split at h
    · exact h
    · split at h <;> exact hclear h
  | finalize now id input probes | resolveProvisional now id text status agentDetail probes =>
    refine .inl ?_
    unfold Session.step Hub.completeReturned at h
    dsimp only at h
    split at h
    · exact h
    · exact pending_deleteAccumulator h
  | delete now id deleterId probes =>
    unfold Session.step at h
    dsimp only at h
    split at h
    · exact .inl h
    · exact .inl (pending_deleteAccumulator h)
  | subscribe c resume flushProbes probe queueProbes =>
    refine .inl (pending_of_map (rows_subscribe cfg.toHubConfig s.hub c _ flushProbes probe
      queueProbes) (fun acc m hm => ?_) h)
    rwa [pendingUpdate_flushed] at hm
  | _ => exact .inl h

/-! ## Coherence -/

/-- A page the history route has answered with. -/
def PageOf (log : MessageLog) (page : List ChannelMessage) : Prop :=
  (∀ m ∈ page, log.VersionOf m) ∧ Ranked ChannelMessage.seq page

/-- Everything handed out is about the log: waiting refreshes, frames, pages, timelines. -/
structure Session.Coherent (s : Session κ) : Prop where
  pending : ∀ m, s.hub.Pending m → s.hub.log.VersionOf m
  frames : ∀ c, ∀ f ∈ s.hub.sinks c, EventOf s.hub.log f
  pages : ∀ c beforeSeq page, (s.clients c).olderPage = .served beforeSeq page →
    PageOf s.hub.log page
  windows : ∀ c, Window s.hub.log (s.clients c).reducer

theorem eventOf_emits {cfg : SessionConfig} {s : Session κ} (hs : s.Coherent)
    {op : SessionOp κ} {f : ChannelEvent} (h : Emits s op f) :
    EventOf (s.step cfg op).hub.log f := by
  have hrow {log : MessageLog} {m : ChannelMessage} (hlog : (s.step cfg op).hub.log = log)
      (hm : m ∈ log.rows) : (s.step cfg op).hub.log.VersionOf m :=
    versionOf_of_mem _ (hlog ▸ hm)
  cases h with
  | notice op n | runLifecycle | deliveryReceipt => trivial
  | @post now input probes log message h | @beginStream now input probes log message h =>
    exact hrow (by simp only [Session.step, h]; rfl) (mem_insertMessage h)
  | flush h =>
    obtain ⟨_, _, _, _, rfl⟩ := h
    trivial
  | subscribe h =>
    obtain ⟨_, _, _, _, _, rfl⟩ := h
    trivial
  | rowUpdate hacc h => exact (advances_step cfg s _).version _ (hs.pending _ ⟨_, hacc, h⟩)
  | finalize h => exact hrow (by simp only [Session.step, h]; rfl) (mem_finalizeStream h).1
  | resolve h =>
    refine hrow ?_ (mem_resolveProvisional h)
    unfold Session.step Hub.completeReturned
    dsimp only
    split <;> rfl
  | edit h => exact hrow (by simp only [Session.step, h]; rfl) (editMessage_ok h).2
  | delete h => exact hrow (by simp only [Session.step, h]; rfl) (deleteMessage_ok h).2

theorem eventOf_snapshotFor {cfg : SessionConfig} (s : Session κ) (c : κ) (resume : Bool)
    (flushProbes : ChannelMessageId → κ → Probe) :
    EventOf s.hub.log (.snapshot (s.snapshotFor cfg c resume flushProbes)) := by
  have hof := eventOf_buildSnapshot cfg.toHubConfig
    (s.hub.preparedFor cfg.toHubConfig c flushProbes)
    (if resume then some (s.clients c).reducer.lastSeq else none)
  rwa [(preparedFor_spec cfg.toHubConfig s.hub c flushProbes).1] at hof

section
variable (cfg : SessionConfig) (log : MessageLog) (beforeSeq limit : ℕ)

theorem historyPageBefore_suffix :
    historyPageBefore cfg log beforeSeq limit <:+
      log.rows.filter fun m => decide (m.seq < beforeSeq) := by
  have hbudget : historyPageBefore cfg log beforeSeq limit <:+
      newest limit (log.history { beforeSeq := some beforeSeq, limit := some (limit + 1) }) :=
    takeWithin_reverse_suffix _ _ _ _ _
  exact (hbudget.trans (newest_suffix _ _)).trans (log.history_before_suffix beforeSeq (limit + 1))

theorem pageOf_historyPageBefore : PageOf log (historyPageBefore cfg log beforeSeq limit) := by
  have hsub : (historyPageBefore cfg log beforeSeq limit).Sublist log.rows :=
    (historyPageBefore_suffix cfg log beforeSeq limit).sublist.trans filter_sublist
  exact ⟨fun m hm => log.versionOf_of_mem (hsub.subset hm), log.ranked.sublist hsub⟩

end

theorem PageOf.advance {log log' : MessageLog} {page : List ChannelMessage}
    (h : PageOf log page) (hadv : log.Advances log') : PageOf log' page :=
  ⟨fun m hm => hadv.version m (h.1 m hm), h.2⟩

omit [DecidableEq κ] in
theorem coherent_start : (Session.start : Session κ).Coherent where
  pending := by
    rintro m ⟨acc, hacc, -⟩
    exact absurd hacc not_mem_nil
  frames := fun c f hf => absurd hf not_mem_nil
  pages := fun c beforeSeq page h => by cases h
  windows := fun c => window_initial _

/-- **Coherence** is kept by every operation. -/
theorem coherent_step (cfg : SessionConfig) {s : Session κ} (hs : s.Coherent)
    (op : SessionOp κ) : (s.step cfg op).Coherent := by
  have hadv := advances_step cfg s op
  refine ⟨fun m hm => ?_, fun c => ?_, fun c => ?_, fun c => ?_⟩
  · rcases pending_step cfg s op hm with hm | hm
    · exact hadv.version m (hs.pending m hm)
    · exact versionOf_of_mem _ hm
  · have hchange := sinks_step cfg s op c
    have hold : ∀ f ∈ s.hub.sinks c, EventOf (s.step cfg op).hub.log f :=
      fun f hf => (hs.frames c f hf).advance hadv
    generalize (s.step cfg op).hub.sinks c = frames' at hchange
    intro f hf
    generalize hframes : s.hub.sinks c = frames at hchange hold
    cases hchange with
    | live new hnew hemits =>
      rw [hnew] at hf
      rcases mem_append.mp hf with hf | hf
      · exact hold f hf
      · exact eventOf_emits hs (hemits f hf)
    | read => exact hold f (mem_cons_of_mem _ hf)
    | connect _ hnew =>
      rcases hnew f hf with rfl | hemits
      · exact (eventOf_snapshotFor s c _ _).advance hadv
      · exact eventOf_emits hs hemits
    | drop => exact absurd hf not_mem_nil
  · have hchange := clients_step cfg s op c
    have hold : ∀ beforeSeq page, (s.clients c).olderPage = .served beforeSeq page →
        PageOf (s.step cfg op).hub.log page :=
      fun beforeSeq page h => (hs.pages c beforeSeq page h).advance hadv
    generalize (s.step cfg op).clients c = client at hchange
    intro beforeSeq page hpage
    cases hchange with
    | unchanged | read => exact hold beforeSeq page hpage
    | request | land | fail => cases hpage
    | serve =>
      cases hpage
      exact (pageOf_historyPageBefore cfg _ _ _).advance hadv
  · have hchange := clients_step cfg s op c
    have hold : Window (s.step cfg op).hub.log (s.clients c).reducer := (hs.windows c).advance hadv
    generalize (s.step cfg op).clients c = client at hchange
    cases hchange with
    | unchanged | request | serve | fail => exact hold
    | read hframe =>
      apply window_applyChannelEvent hold
      apply (hs.frames c _ _).advance hadv
      rw [hframe]
      exact mem_cons_self
    | land hserved =>
      obtain ⟨hversions, hranked⟩ := (hs.pages c _ _ hserved).advance hadv
      exact window_mergeHistoryPage hold hversions hranked

theorem coherent_exec (cfg : SessionConfig) (ops : List (SessionOp κ)) :
    (exec (Session.step cfg) Session.start ops).Coherent :=
  @exec_invariant _ _ _ Session.Coherent (fun _ op hs => coherent_step cfg hs op) _ ops
    coherent_start

end RelayIde.Channel
