import RelayIde.Channel.Session

/-!
# Catch-up Convergence

What a client holds once it has applied the catch-up snapshots a hub builds for its cursor.  A
row that went stale while the client was away is healed by the round whose snapshot refreshes
it, and by no other.

- `catchUp_converges_iff` — which rows are current afterwards
-/

namespace RelayIde.Channel

open RelayIde.Library MessageLog List

variable {κ : Type}

/-! ## Rounds -/

/-- The durable row, an open stream with its accumulated text. -/
def Hub.currentRow (hub : Hub κ) (id : ChannelMessageId) : Option ChannelMessage :=
  (hub.log.getMessage id).map fun m => (materialize hub.accumulators m).message

/-- `n` times the snapshot the hub builds for the client's cursor. -/
def catchUp (cfg : HubConfig) (hub : Hub κ) (s : ChannelReducerState) : ℕ → ChannelReducerState
  | 0 => s
  | n + 1 =>
    let held := catchUp cfg hub s n
    applyChannelEvent held (.snapshot (hub.buildSnapshot cfg (some held.lastSeq)))

/-- The snapshot for this cursor heals `m`: it replaces everything, or its bounds leave room for
    the refresh of `m`. -/
def Refreshes (cfg : HubConfig) (log : MessageLog) (cursor : ℕ) (m : ChannelMessage) : Prop :=
  needsFullSnapshot log.latestSeq (some cursor) = true ∨ ResyncFits cfg log cursor m

variable {hub : Hub κ} {m : ChannelMessage} {s : ChannelReducerState}

theorem currentRow_materialize {row : ChannelMessage} (h : row ∈ hub.log.rows) :
    hub.currentRow (materialize hub.accumulators row).message.id =
      some (materialize hub.accumulators row).message := by
  rw [id_materialize, Hub.currentRow, hub.log.getMessage_of_mem h]
  rfl

theorem isResyncRow_of_stale {r : ChannelMessage} (hr : r ∈ hub.log.rows)
    (hsame : r.isResyncRow = false → r = m)
    (hstale : hub.currentRow m.id ≠ some m) : r.isResyncRow = true := by
  by_contra hplain
  have he := hsame (by simpa using hplain)
  apply hstale
  have hfinal : r.status ≠ .streaming := fun h => hplain (isResyncRow_of_streaming hub.log hr h)
  have hcurrent := currentRow_materialize hr
  rw [materialize_of_final _ hfinal] at hcurrent
  rw [← he]
  exact hcurrent

structure Round (cfg : HubConfig) (hub : Hub κ) (s s' : ChannelReducerState) : Prop where
  window : Window hub.log s'
  healed : ∀ m ∈ s'.messages, hub.currentRow m.id = some m ∨
    (m ∈ s.messages ∧ ¬ Refreshes cfg hub.log s.lastSeq m)
  missed : ∀ m ∈ s.messages, hub.currentRow m.id ≠ some m →
    ¬ Refreshes cfg hub.log s.lastSeq m → m ∈ s'.messages

variable (cfg : HubConfig)

variable (hub : Hub κ)

theorem round_full
    (hneeds : needsFullSnapshot hub.log.latestSeq (some s.lastSeq) = true) :
    Round cfg hub s (applyChannelEvent s (.snapshot (hub.buildSnapshot cfg (some s.lastSeq)))) := by
  have hrows : snapshotRows cfg hub.log (some s.lastSeq) = fullSnapshotRows cfg hub.log :=
    if_pos hneeds
  have he := eventOf_buildSnapshot cfg hub (some s.lastSeq)
  have hmode : (hub.buildSnapshot cfg (some s.lastSeq)).mode = .full :=
    congrArg SnapshotRows.mode hrows
  have hstep : applyChannelEvent s (.snapshot (hub.buildSnapshot cfg (some s.lastSeq))) =
      applyFullSnapshot s (hub.buildSnapshot cfg (some s.lastSeq)) := by
    show applySnapshot s _ = _
    unfold applySnapshot
    rw [hmode]
  rw [hstep]
  refine ⟨window_applyFullSnapshot he, fun m hm => .inl ?_, fun m _ _ hmiss => ?_⟩
  · rw [messages_applyFullSnapshot he.2.1, messages_buildSnapshot] at hm
    obtain ⟨row, hrow, rfl⟩ := mem_map.mp hm
    exact currentRow_materialize ((rows_sublist cfg hub.log _).subset hrow)
  · exact absurd (.inl hneeds) hmiss

section
variable (hw : Window hub.log s)
include hw

theorem round_catchup
    (hneeds : needsFullSnapshot hub.log.latestSeq (some s.lastSeq) = false) :
    Round cfg hub s (applyChannelEvent s (.snapshot (hub.buildSnapshot cfg (some s.lastSeq)))) := by
  set event := hub.buildSnapshot cfg (some s.lastSeq) with hevent
  have he : EventOf hub.log (.snapshot event) := eventOf_buildSnapshot cfg hub (some s.lastSeq)
  have hrows : snapshotRows cfg hub.log (some s.lastSeq) =
      catchupSnapshotRows cfg hub.log s.lastSeq := if_neg (by simp [hneeds])
  have hmode : event.mode = .catchup := congrArg SnapshotRows.mode hrows
  have hstep : applyChannelEvent s (.snapshot event) = applyCatchupSnapshot s event := by
    show applySnapshot s _ = _
    unfold applySnapshot
    rw [hmode]
  rw [hstep]
  obtain ⟨hw', -⟩ := window_applyCatchupSnapshot hw he
  have hwm := window_mergeCatchup hw he
  have hex := existing_mergeCatchup hw he
  have hnodup : ((event.stateReplacements.getD []).map (·.message.id)).Nodup :=
    nodup_replacements_buildSnapshot cfg hub (some s.lastSeq)
  have hreplacement (m : ChannelMessage) (hm : m ∈ s.messages)
      (hstale : hub.currentRow m.id ≠ some m) :
      (∃ rep ∈ event.stateReplacements.getD [], rep.message.id = m.id) ↔
        Refreshes cfg hub.log s.lastSeq m := by
    obtain ⟨r, hr, hid, hseq, hsame⟩ := hw.versions m hm
    rw [exists_replacement_iff cfg hub hneeds hr hid hseq (hw.seq_le m hm), Refreshes, hneeds]
    simp [isResyncRow_of_stale hr hsame hstale]
  have hfresh (m : ChannelMessage) (hm : m ∈ catchupRows s event) :
      hub.currentRow m.id = some m := by
    have hm := ((mem_catchupRows he.2.1).mp hm).1
    rw [messages_buildSnapshot] at hm
    obtain ⟨row, hrow, rfl⟩ := mem_map.mp hm
    exact currentRow_materialize ((rows_sublist cfg hub.log _).subset hrow)
  refine ⟨hw', fun m hm => ?_, fun m hm hstale hmiss => ?_⟩
  · have hby := hw'.byId_of_mem hm
    -- the entry of `m` is the one the fresh rows left, unless it was replaced
    have hmerged (h : (applyCatchupSnapshot s event).entry m.id = (mergeCatchup s event).entry m.id)
        (hnone : m ∈ s.messages → hub.currentRow m.id ≠ some m →
          ¬ Refreshes cfg hub.log s.lastSeq m) :
        hub.currentRow m.id = some m ∨ (m ∈ s.messages ∧ ¬ Refreshes cfg hub.log s.lastSeq m) := by
      have hbym : (mergeCatchup s event).byId m.id = some m := by
        rw [← hby]
        exact (congrArg Prod.fst h).symm
      rcases (mem_mergeCatchup he).mp (hwm.mem_of_byId hbym) with hm | ⟨hm, -⟩
      · exact .inl (hfresh m hm)
      · by_cases hcurrent : hub.currentRow m.id = some m
        · exact .inl hcurrent
        · exact .inr ⟨hm, hnone hm hcurrent⟩
    by_cases hrep : ∃ rep ∈ event.stateReplacements.getD [], rep.message.id = m.id
    · obtain ⟨rep, hrep, hid⟩ := hrep
      by_cases hheld : (s.byId rep.message.id).isSome
      · have hentry := entry_applySnapshotStateReplacements_of_mem hwm hex he.2.2.2 hnodup hrep
          hheld
        have hrow : some m = some rep.message := by
          rw [← hby, ← hid]
          exact congrArg Prod.fst hentry
        rw [Option.some.inj hrow]
        change rep ∈ (hub.buildSnapshot cfg _).stateReplacements.getD [] at hrep
        rw [replacements_buildSnapshot] at hrep
        obtain ⟨row, hmem, rfl⟩ := mem_map.mp hrep
        exact .inl (currentRow_materialize (resyncRows_subset cfg hub.log _ hmem))
      · have hnone := Option.not_isSome_iff_eq_none.mp hheld
        rw [hid] at hnone
        refine hmerged (entry_applySnapshotStateReplacements_of_not_held hnone) fun hm => ?_
        rw [hw.byId_of_mem hm] at hnone
        cases hnone
    · refine hmerged ?_ fun hm hstale h => hrep ((hreplacement m hm hstale).mpr h)
      push Not at hrep
      exact entry_applySnapshotStateReplacements_of_forall_ne hrep
  · have hrep : ∀ rep ∈ event.stateReplacements.getD [], rep.message.id ≠ m.id := by
      intro rep hrep hid
      exact hmiss ((hreplacement m hm hstale).mp ⟨rep, hrep, hid⟩)
    have hentry : (applyCatchupSnapshot s event).entry m.id = (mergeCatchup s event).entry m.id :=
      entry_applySnapshotStateReplacements_of_forall_ne hrep
    -- no fresh row has a number at or below the cursor
    have hkept : m ∈ (mergeCatchup s event).messages := by
      refine (mem_mergeCatchup he).mpr (.inr ⟨hm, fun c hc hid => ?_⟩)
      have hc := ((mem_catchupRows he.2.1).mp hc).1
      have hlt := lt_of_mem_messages_buildSnapshot cfg hub hneeds hc
      have hseq := ((he.1 c hc).1.id_eq_iff (hw.versions m hm)).mp hid
      have hle := hw.seq_le m hm
      omega
    apply hw'.mem_of_byId
    rw [show (applyCatchupSnapshot s event).byId m.id = (mergeCatchup s event).byId m.id from
      congrArg Prod.fst hentry]
    exact hwm.byId_of_mem hkept

theorem round_catchUp :
    Round cfg hub s (applyChannelEvent s
      (.snapshot (hub.buildSnapshot cfg (some s.lastSeq)))) := by
  cases hneeds : needsFullSnapshot hub.log.latestSeq (some s.lastSeq) with
  | false => exact round_catchup cfg hub hw hneeds
  | true => exact round_full cfg hub hneeds

/-! ## Any number of rounds -/

variable (n : ℕ)

theorem window_catchUp : Window hub.log (catchUp cfg hub s n) := by
  induction n with
  | zero => exact hw
  | succ n ih => exact (round_catchUp cfg hub ih).window

theorem healed_catchUp
    (hm : m ∈ (catchUp cfg hub s n).messages) :
    hub.currentRow m.id = some m ∨
      (m ∈ s.messages ∧ ∀ i < n, ¬ Refreshes cfg hub.log (catchUp cfg hub s i).lastSeq m) := by
  induction n with
  | zero => exact .inr ⟨hm, fun i hi => absurd hi (Nat.not_lt_zero i)⟩
  | succ n ih =>
    rcases (round_catchUp cfg hub (window_catchUp cfg hub hw n)).healed m hm with h | ⟨hm, hmiss⟩
    · exact .inl h
    · refine (ih hm).imp_right fun ⟨hheld, hnone⟩ => ⟨hheld, fun i hi => ?_⟩
      rcases Nat.lt_succ_iff_lt_or_eq.mp hi with hi | rfl
      · exact hnone i hi
      · exact hmiss

theorem missed_catchUp (hm : m ∈ s.messages)
    (hstale : hub.currentRow m.id ≠ some m)
    (hnone : ∀ i < n, ¬ Refreshes cfg hub.log (catchUp cfg hub s i).lastSeq m) :
    m ∈ (catchUp cfg hub s n).messages := by
  induction n with
  | zero => exact hm
  | succ n ih =>
    apply (round_catchUp cfg hub (window_catchUp cfg hub hw n)).missed m
    · exact ih fun i hi => hnone i (hi.trans (Nat.lt_succ_self n))
    · exact hstale
    · exact hnone n (Nat.lt_succ_self n)

theorem current_catchUp_iff :
    (∀ m ∈ (catchUp cfg hub s n).messages, hub.currentRow m.id = some m) ↔
      ∀ m ∈ s.messages, hub.currentRow m.id ≠ some m →
        ∃ i < n, Refreshes cfg hub.log (catchUp cfg hub s i).lastSeq m := by
  constructor
  · intro h m hm hstale
    by_contra hnone
    push Not at hnone
    exact hstale (h m (missed_catchUp cfg hub hw n hm hstale hnone))
  · intro h m hm
    by_contra hstale
    obtain ⟨hheld, hnone⟩ := (healed_catchUp cfg hub hw n hm).resolve_left hstale
    obtain ⟨i, hi, hrefreshed⟩ := h m hheld hstale
    exact hnone i hi hrefreshed

end

variable [DecidableEq κ]

/-- **Convergence**: in every reachable session, a client that catches up holds current rows only,
    exactly if each row that went stale is refreshed by one of its rounds. -/
theorem catchUp_converges_iff (cfg : SessionConfig) (ops : List (SessionOp κ)) (c : κ)
    (flushProbes : ChannelMessageId → κ → Probe) (n : ℕ) :
    let s := exec (Session.step cfg) Session.start ops
    let hub := s.hub.preparedFor cfg.toHubConfig c flushProbes
    let held := (s.clients c).reducer
    (∀ m ∈ (catchUp cfg.toHubConfig hub held n).messages, hub.currentRow m.id = some m) ↔
      ∀ m ∈ held.messages, hub.currentRow m.id ≠ some m →
        ∃ i < n, Refreshes cfg.toHubConfig hub.log
          (catchUp cfg.toHubConfig hub held i).lastSeq m := by
  intro s hub held
  apply current_catchUp_iff
  have hw : Window s.hub.log held := (coherent_exec cfg ops).windows c
  have hlog : hub.log = s.hub.log := (preparedFor_spec cfg.toHubConfig s.hub c flushProbes).1
  rw [hlog]
  exact hw

/-! ## One edit below five hundred agent rows -/

/-- A server whose budgets bound nothing here. -/
def roomyServer : SessionConfig where
  snapshotMaxBytes := 10000
  connectQueueMaxEvents := 100
  connectQueueMaxBytes := 100
  rowBytes := fun _ => 0
  runBytes := fun _ => 0
  eventBytes := fun _ => 0
  historyMaxBytes := 10000

def firstRow : ChannelMessage where
  id := "first"
  seq := 1
  kind := .message
  status := .terminal .complete
  sender := ⟨.human, "operator"⟩
  text := "hello"
  mentions := []
  parts := []
  sourceRuntimeId := none
  agentDetail := none
  agentDetailTerminalAuthority := none
  truncationReason := none
  truncated := false
  editedAt := none
  deletedAt := none
  updatedAt := 0
  completedAt := some 0

/-- The operator posts, and a client connects. -/
def firstOps : List (SessionOp Unit) :=
  [.post 0 { id := "first", sender := ⟨.human, "operator"⟩, text := "hello" } (fun _ => {}),
    .subscribe () false (fun _ _ => {}) {} (fun _ => {}), .receive ()]

/-- The id of the row an agent posts behind `n` rows. -/
def agentId (n : ℕ) : ChannelMessageId := String.ofList (List.replicate (n + 5) 'x')

def agentOp (n : ℕ) : SessionOp Unit :=
  .post 0
    { id := agentId n
      sender := ⟨.agent, "claude"⟩
      text := "done"
      sourceRuntimeId := some "runtime" }
    (fun _ => {})

/-- Agent rows behind `n` rows, each read as it arrives. -/
def agentOps (n : ℕ) : ℕ → List (SessionOp Unit)
  | 0 => []
  | count + 1 => agentOp n :: .receive () :: agentOps (n + 1) count

/-- The client goes away, and the operator edits the first row. -/
def editOps : List (SessionOp Unit) :=
  [.disconnect (), .edit 1 "first" "operator" "goodbye" none (fun _ => {})]

/-- The client has read all `n` rows, the first of them the operator's. -/
structure Tracks (n : ℕ) (s : Session Unit) : Prop where
  coherent : s.Coherent
  subscriber : ∃ sub, s.hub.subscribers () = some sub ∧ sub.buffering = false ∧
    sub.lagging = false
  sinks : s.hub.sinks () = []
  fresh : ∀ r ∈ s.hub.log.rows, r.id.length < n + 5
  latestSeq : s.hub.log.latestSeq = n
  lastSeq : (s.clients ()).reducer.lastSeq = n
  stored : firstRow ∈ s.hub.log.rows
  held : firstRow ∈ (s.clients ()).reducer.messages
  others : ∀ r ∈ s.hub.log.rows, r = firstRow ∨ r.isResyncRow = true

theorem tracks_firstOps : Tracks 1 (exec (Session.step roomyServer) Session.start firstOps) := by
  refine ⟨coherent_exec roomyServer firstOps, ⟨_, rfl, ?_, ?_⟩, rfl, ?_, ?_, ?_, ?_, ?_, ?_⟩
  all_goals decide

theorem length_agentId (n : ℕ) : (agentId n).length = n + 5 := by
  simp [agentId]

/-- One row and its frame leave the client one row further. -/
theorem tracks_step {n : ℕ} {s : Session Unit} (h : Tracks n s) :
    Tracks (n + 1) ((s.step roomyServer (agentOp n)).step roomyServer (.receive ())) := by
  have hnew : s.hub.log.messages.find? (agentId n) = none := by
    rw [Table.find?_eq_none_iff]
    intro r hr hid
    have hlt := h.fresh r hr
    rw [hid, length_agentId] at hlt
    exact lt_irrefl _ hlt
  obtain ⟨log, row, happend⟩ : ∃ log row, s.hub.log.appendComplete 0
      { id := agentId n
        sender := ⟨.agent, "claude"⟩
        text := "done"
        sourceRuntimeId := some "runtime" } = some (log, row) := by
    unfold appendComplete insertMessage
    rw [dif_pos hnew]
    exact ⟨_, _, rfl⟩
  obtain ⟨hrow, hrows, -⟩ := rows_insertMessage happend
  have hlatest := latestSeq_insertMessage happend
  obtain ⟨sub, hsub, hbuffering, hlagging⟩ := h.subscriber
  have hoffer : ({ s.hub with log := log } : Hub Unit).offerTo roomyServer.toHubConfig
      (fun _ => {}) (.messageCreated row) () = (some sub, [.messageCreated row]) := by
    simp [Hub.offerTo, hsub, offer, hbuffering, deliver, hlagging, sendOrSuppress]
  set posted := s.step roomyServer (agentOp n) with hposted
  have hcoherent : posted.Coherent := coherent_step roomyServer h.coherent (agentOp n)
  have hstep : posted =
      { s with
        hub := ({ s.hub with log := log } : Hub Unit).broadcastCreated roomyServer.toHubConfig
          (fun _ => {}) row } := by
    rw [hposted]
    simp only [agentOp, Session.step, happend]
  have hlog : posted.hub.log = log := by rw [hstep]; rfl
  have hclient : posted.clients () = s.clients () := by rw [hstep]
  have hsubscriber : posted.hub.subscribers () = some sub := by
    rw [hstep]
    exact congrArg Prod.fst hoffer
  have hsinks : posted.hub.sinks () = [.messageCreated row] := by
    rw [hstep]
    show s.hub.sinks () ++ (Hub.offerTo _ _ _ _ ()).2 = _
    rw [hoffer, h.sinks, nil_append]
  obtain ⟨hreadLog, hreadSinks, hreadClient⟩ := step_receive_of_cons roomyServer hsinks
  have hreadSubs : ((posted.step roomyServer (.receive ())).hub.subscribers ()) = some sub := by
    unfold Session.step
    simp only [hsinks]
    exact hsubscriber
  -- the row is the next one of a client that is up to date
  have hseq : row.seq = n + 1 := by rw [hrow, ← h.latestSeq]
  have hnotheld : (s.clients ()).reducer.byId row.id = none := by
    rw [Option.eq_none_iff_forall_ne_some]
    intro m hm
    have hw := h.coherent.windows ()
    obtain ⟨r, hr, hrid, -⟩ := hw.versions m (hw.mem_of_byId hm)
    have hlt := h.fresh r hr
    rw [hrid, hw.id_of_byId hm, hrow, length_agentId] at hlt
    exact lt_irrefl _ hlt
  have happly : applyChannelEvent (s.clients ()).reducer (.messageCreated row) =
      { (s.clients ()).reducer with
        messages := sortedInsert (s.clients ()).reducer.messages row
        byId := rebuildById (sortedInsert (s.clients ()).reducer.messages row)
        lastSeq := row.seq } := by
    show applyMessageCreated _ row = _
    unfold applyMessageCreated
    rw [if_neg (by simp [hnotheld]), if_neg (by rw [h.lastSeq]; omega),
      if_neg (by rw [h.lastSeq]; omega)]
  refine ⟨coherent_step roomyServer hcoherent _, ⟨sub, hreadSubs, hbuffering, hlagging⟩,
    hreadSinks, ?_, ?_, ?_, ?_, ?_, ?_⟩
  · rw [hreadLog, hlog, hrows]
    intro r hr
    rcases mem_append.mp hr with hr | hr
    · have hlt := h.fresh r hr
      omega
    · rw [mem_singleton.mp hr, hrow, length_agentId]
      omega
  · rw [hreadLog, hlog, hlatest, h.latestSeq]
  · rw [hreadClient, hclient, happly]
    exact hseq
  · rw [hreadLog, hlog, hrows]
    exact mem_append_left _ h.stored
  · rw [hreadClient, hclient, happly]
    refine mem_sortedInsert.mpr (.inr ⟨h.held, fun hid => ?_⟩)
    have hlength := length_agentId n
    rw [hrow] at hid
    change firstRow.id = agentId n at hid
    rw [← hid] at hlength
    have hlt := h.fresh firstRow h.stored
    omega
  · rw [hreadLog, hlog, hrows]
    intro r hr
    rcases mem_append.mp hr with hr | hr
    · exact h.others r hr
    · rw [mem_singleton.mp hr, hrow]
      exact .inr rfl

theorem tracks_exec (count n : ℕ) {s : Session Unit} (h : Tracks n s) :
    Tracks (n + count) (exec (Session.step roomyServer) s (agentOps n count)) := by
  induction count generalizing n s with
  | zero => exact h
  | succ count ih =>
    have hrest := ih (n + 1) (tracks_step h)
    rw [Nat.add_right_comm] at hrest
    exact hrest

theorem editMessage_firstRow {log : MessageLog} (h : firstRow ∈ log.rows) :
    log.editMessage 1 "first" "operator" "goodbye" none =
      .ok (log.update "first" (editRow 1 "goodbye" none) (editRow_inPlace 1 "goodbye" none),
        editRow 1 "goodbye" none firstRow) := by
  have hget : log.getMessage "first" = some firstRow := log.getMessage_of_mem h
  have hget' : (log.update "first" (editRow 1 "goodbye" none)
      (editRow_inPlace 1 "goodbye" none)).getMessage "first" =
        some (editRow 1 "goodbye" none firstRow) := by
    rw [getMessage_update, hget]
    rfl
  have hown : (!ownCompletedMessage firstRow "operator" || isTombstoneRow firstRow) = false := by
    decide
  have htext : "goodbye".isEmpty = false := by decide
  unfold editMessage
  simp [hget, hown, hget']

theorem edited_of_tracks {n : ℕ} {s : Session Unit} (h : Tracks n s) :
    let edited := exec (Session.step roomyServer) s editOps
    edited.hub.log = s.hub.log.update "first" (editRow 1 "goodbye" none)
        (editRow_inPlace 1 "goodbye" none) ∧
      (edited.clients ()).reducer = (s.clients ()).reducer := by
  intro edited
  have hedit := editMessage_firstRow h.stored
  have hstep : edited = (s.step roomyServer (.disconnect ())).step roomyServer
    (.edit 1 "first" "operator" "goodbye" none (fun _ => {})) := rfl
  rw [hstep]
  simp only [Session.step, Hub.disconnect, hedit]
  exact ⟨rfl, trivial⟩

/-- With nothing above the cursor, and every refresh well within the bytes, the snapshot says it
    is whole. -/
theorem truncated_of_roomyServer {κ : Type} (hub : Hub κ) :
    (hub.buildSnapshot roomyServer.toHubConfig (some hub.log.latestSeq)).truncated = false := by
  have hneeds : needsFullSnapshot hub.log.latestSeq (some hub.log.latestSeq) = false := by
    simp [needsFullSnapshot]
  obtain ⟨-, hgap, hrows⟩ := snapshotRows_of_not_needsFull roomyServer.toHubConfig hub.log hneeds
  show (snapshotRows roomyServer.toHubConfig hub.log _).truncated = false
  rw [hrows]
  have hsum (l : List ChannelMessage) :
      (l.map fun row => roomyServer.toHubConfig.rowBytes row + 1).sum = l.length := by
    induction l with
    | nil => rfl
    | cons a l ih =>
      rw [map_cons, sum_cons, ih]
      exact Nat.add_comm 1 l.length
  have hfresh : freshRows hub.log catchupMaxRows hub.log.latestSeq [] = [] := by
    rw [freshRows_eq hub.log _ hgap, ← length_eq_zero_iff, length_above]
    exact Nat.sub_self _
  have hresync : (hub.log.listResyncRows hub.log.latestSeq catchupMaxRows).length ≤ 500 := by
    unfold listResyncRows
    rw [length_newest]
    exact min_le_left _ _
  have hhead : assembleWithBudget roomyServer.toHubConfig [] .head
      roomyServer.toHubConfig.snapshotMaxBytes true = ⟨[], false, 0⟩ := rfl
  unfold catchupSnapshotRows
  rw [hfresh]
  apply truncated_takeWithin_of_le
  rw [hsum, length_reverse, Nat.zero_add]
  exact hresync.trans (by decide)

/-- The run, with `count` agent rows. -/
def editRun (count : ℕ) : List (SessionOp Unit) :=
  firstOps ++ (agentOps 1 count ++ editOps)

/-- Behind so many refreshable rows the edit is not refreshed, and nothing tells the client. -/
theorem stale_after_editRun {count : ℕ} (h : catchupMaxRows ≤ count) :
    let s := exec (Session.step roomyServer) Session.start (editRun count)
    let hub := s.hub.preparedFor roomyServer.toHubConfig () (fun _ _ => {})
    let held := (s.clients ()).reducer
    (hub.buildSnapshot roomyServer.toHubConfig (some held.lastSeq)).truncated = false ∧
      ¬ ∀ m ∈ (catchUp roomyServer.toHubConfig hub held 1).messages,
        hub.currentRow m.id = some m := by
  intro s hub held
  obtain ⟨tracked, htracked, hs⟩ : ∃ tracked, Tracks (1 + count) tracked ∧
      s = exec (Session.step roomyServer) tracked editOps := by
    refine ⟨_, tracks_exec count 1 tracks_firstOps, ?_⟩
    rw [← exec_append]
    rfl
  obtain ⟨hlog, hreducer⟩ := edited_of_tracks htracked
  rw [← hs] at hlog hreducer
  have hhublog : hub.log = s.hub.log := (preparedFor_spec roomyServer.toHubConfig s.hub () _).1
  have hheld : held = (tracked.clients ()).reducer := hreducer
  have hlatest : hub.log.latestSeq = 1 + count := by
    rw [hhublog, hlog, latestSeq_update, htracked.latestSeq]
  have hcursor : held.lastSeq = hub.log.latestSeq := by
    rw [hheld, htracked.lastSeq, hlatest]
  have hw : Window hub.log held := by
    rw [hhublog]
    exact (coherent_exec roomyServer (editRun count)).windows ()
  refine ⟨?_, ?_⟩
  · rw [hcursor]
    exact truncated_of_roomyServer hub
  · rw [current_catchUp_iff roomyServer.toHubConfig hub hw 1]
    intro hall
    have hstored : editRow 1 "goodbye" none firstRow ∈ hub.log.rows := by
      rw [hhublog, hlog]
      exact mem_map.mpr ⟨firstRow, htracked.stored, if_pos rfl⟩
    have hmem : firstRow ∈ held.messages := by
      rw [hheld]
      exact htracked.held
    have hstale : hub.currentRow firstRow.id ≠ some firstRow := by
      have hcurrent := currentRow_materialize hstored
      rw [materialize_of_final _ (by decide)] at hcurrent
      intro he
      have hsame := hcurrent.symm.trans he
      exact absurd (congrArg ChannelMessage.text (Option.some.inj hsame)) (by decide)
    obtain ⟨i, hi, hrefreshed⟩ := hall firstRow hmem hstale
    obtain rfl : i = 0 := by omega
    change Refreshes _ hub.log held.lastSeq firstRow at hrefreshed
    rw [hcursor] at hrefreshed
    rcases hrefreshed with hneeds | ⟨hcount, -⟩
    · simp [needsFullSnapshot] at hneeds
    · -- every row of the log competes with the first
      have hall : resyncFrom hub.log hub.log.latestSeq firstRow = hub.log.rows := by
        unfold resyncFrom
        rw [filter_eq_self]
        intro r hr
        have hresync : r.isResyncRow = true := by
          rw [hhublog, hlog] at hr
          obtain ⟨r₀, hr₀, rfl⟩ := mem_map.mp hr
          rcases htracked.others r₀ hr₀ with rfl | hr₀'
          · rfl
          · split
            · simp [ChannelMessage.isResyncRow, editRow]
            · exact hr₀'
        have hle := hub.log.seq_le_latestSeq hr
        have hlt : 0 < r.seq := hub.log.dense.lt hr
        simp only [hresync, hle, decide_true, Bool.true_and, decide_eq_true_eq]
        exact hlt
      have hlength := hub.log.dense.length_eq hub.log.ranked
      rw [hall] at hcount
      change hub.log.rows.length = hub.log.latestSeq - 0 at hlength
      omega

/-- **Silent loss**: five hundred rows below the cursor are enough. -/
theorem catchUp_fails_behind_agent_rows :
    let s := exec (Session.step roomyServer) Session.start (editRun 500)
    let hub := s.hub.preparedFor roomyServer.toHubConfig () (fun _ _ => {})
    let held := (s.clients ()).reducer
    (hub.buildSnapshot roomyServer.toHubConfig (some held.lastSeq)).truncated = false ∧
      ¬ ∀ m ∈ (catchUp roomyServer.toHubConfig hub held 1).messages,
        hub.currentRow m.id = some m :=
  stale_after_editRun (by decide)

end RelayIde.Channel
