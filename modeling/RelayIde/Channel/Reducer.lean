import Mathlib.Data.List.Sort
import Mathlib.Logic.Function.Basic
import RelayIde.Channel.MessageLog
import RelayIde.Library.Record

/-!
# Client Timeline Reducer

The pure reducer over channel events (`shared/channel-chat-protocol.ts`) that a client folds
the frames of its socket through, and the merge of a history page.

- `mergeHistoryPage` — the older rows a scroll fetched

A `Record` keyed by message id is a function to `Option`; the held rows stand in `messages`
and in `byId`.  `Window` says when a state is a window of a log, and every event a hub
sends about that log preserves it.
-/

namespace RelayIde.Channel

open RelayIde.Library List Function

/-! ## Events -/

inductive ChannelAsyncRunState where
  | submitted
  | working
  | inputRequired
  | authRequired
  | completed
  | completedUnmet
  | failed
  | cancelled
  | rejected

/-- A correlated run, by what its projection on a timeline is keyed with. -/
structure ChannelAsyncRun where
  id : String
  state : ChannelAsyncRunState

structure ChannelInFlightRef where
  messageId : ChannelMessageId
  deltaIndex : ℤ

structure ChannelSnapshotStateReplacement where
  message : ChannelMessage
  inFlight : Option ChannelInFlightRef

inductive ChannelSnapshotMode where
  | full
  | catchup
  deriving DecidableEq

structure ChannelSnapshotEvent where
  mode : ChannelSnapshotMode
  messages : List ChannelMessage
  stateReplacements : Option (List ChannelSnapshotStateReplacement)
  /-- Old hubs omit the projection. -/
  runs : Option (List ChannelAsyncRun)
  latestSeq : ℕ
  inFlight : List ChannelInFlightRef
  truncated : Bool

/-- `ChannelEventV1`. -/
inductive ChannelEvent where
  | snapshot (event : ChannelSnapshotEvent)
  | messageCreated (message : ChannelMessage)
  | messageDelta (messageId : ChannelMessageId) (deltaIndex : ℤ) (text : String)
  | messageUpdated (message : ChannelMessage)
  | messageCompleted (message : ChannelMessage)
  | messageEdited (message : ChannelMessage)
  | messageDeleted (message : ChannelMessage)
  | resyncRequired (latestSeq : ℕ)
  | runLifecycle (run : ChannelAsyncRun)
  | deliveryReceipt (messageId : ChannelMessageId)

/-! ## The reducer -/

structure ChannelReducerState where
  /-- seq-ordered -/
  messages : List ChannelMessage
  byId : ChannelMessageId → Option ChannelMessage
  runs : String → Option ChannelAsyncRun
  lastSeq : ℕ
  /-- last applied deltaIndex per streaming message -/
  inFlightDelta : ChannelMessageId → Option ℤ
  /-- streams that received an out-of-order delta -/
  quarantined : ChannelMessageId → Bool
  needsCatchup : Bool

def initialChannelReducerState : ChannelReducerState where
  messages := []
  byId := fun _ => none
  runs := fun _ => none
  lastSeq := 0
  inFlightDelta := fun _ => none
  quarantined := fun _ => false
  needsCatchup := false

/-- Drops the row with the same id, then inserts before the first row of larger `seq`. -/
def sortedInsert (messages : List ChannelMessage) (message : ChannelMessage) :
    List ChannelMessage :=
  insertRanked ChannelMessage.seq
    (messages.filter fun existing => decide (existing.id ≠ message.id))
    message

/-- A later row of the same id wins. -/
def rebuildById (messages : List ChannelMessage) : ChannelMessageId → Option ChannelMessage :=
  record ChannelMessage.id (fun message => message) messages

def inFlightFromRefs (inFlight : List ChannelInFlightRef) : ChannelMessageId → Option ℤ :=
  record ChannelInFlightRef.messageId ChannelInFlightRef.deltaIndex inFlight

/-- `Object.fromEntries(runs.map((run) => [run.id, run]))`, over the entries before. -/
def mergeRuns (runs : String → Option ChannelAsyncRun) (entries : List ChannelAsyncRun) :
    String → Option ChannelAsyncRun :=
  extendRecord ChannelAsyncRun.id (fun run => run) runs entries

/-- `rows.sort((a, b) => a.seq - b.seq)`. -/
def sortBySeq (rows : List ChannelMessage) : List ChannelMessage :=
  rows.insertionSort fun a b => a.seq ≤ b.seq

/-- `messages.map((row) => row.id === message.id ? message : row)`. -/
def replaceRow (messages : List ChannelMessage) (message : ChannelMessage) :
    List ChannelMessage :=
  messages.map fun row => if row.id = message.id then message else row

/-- The state with a held row overwritten in place. -/
def ChannelReducerState.replace (state : ChannelReducerState) (message : ChannelMessage) :
    ChannelReducerState :=
  { state with
    messages := replaceRow state.messages message
    byId := update state.byId message.id (some message) }

/-- One replacement of the loop in `applySnapshotStateReplacements`. -/
def applyStateReplacement (existingById : ChannelMessageId → Option ChannelMessage)
    (state : ChannelReducerState) (replacement : ChannelSnapshotStateReplacement) :
    ChannelReducerState :=
  match existingById replacement.message.id with
  | none => state
  | some existing =>
    if existing.seq ≠ replacement.message.seq then state
    else
      { state.replace replacement.message with
        quarantined := update state.quarantined replacement.message.id false
        inFlightDelta := update state.inFlightDelta replacement.message.id
          (replacement.inFlight.map (·.deltaIndex)) }

/-- Overwrites rows the client already held; never adds one. -/
def applySnapshotStateReplacements (state : ChannelReducerState)
    (existingById : ChannelMessageId → Option ChannelMessage)
    (replacements : List ChannelSnapshotStateReplacement) : ChannelReducerState :=
  replacements.foldl (applyStateReplacement existingById) state

/-- `mode === 'full'`: the window is replaced. -/
def applyFullSnapshot (state : ChannelReducerState) (event : ChannelSnapshotEvent) :
    ChannelReducerState :=
  let messages := sortBySeq event.messages
  { messages := messages
    byId := rebuildById messages
    runs :=
      match event.runs with
      | none => state.runs
      | some runs => mergeRuns (fun _ => none) runs
    lastSeq := event.latestSeq
    inFlightDelta := inFlightFromRefs event.inFlight
    quarantined := fun _ => false
    needsCatchup := false }

/-- The fresh rows a catch-up snapshot merges: rows already held, and rows past the cursor. -/
def catchupRows (state : ChannelReducerState) (event : ChannelSnapshotEvent) :
    List ChannelMessage :=
  (sortBySeq event.messages).filter fun message =>
    (state.byId message.id).isSome || decide (message.seq > state.lastSeq)

/-- The state after the fresh rows of a catch-up snapshot. -/
def mergeCatchup (state : ChannelReducerState) (event : ChannelSnapshotEvent) :
    ChannelReducerState :=
  let messages := (catchupRows state event).foldl sortedInsert state.messages
  { messages := messages
    byId := rebuildById messages
    runs := mergeRuns state.runs (event.runs.getD [])
    lastSeq := max state.lastSeq event.latestSeq
    -- only the streams of this snapshot keep a delta cursor
    inFlightDelta := inFlightFromRefs event.inFlight
    quarantined := state.quarantined
    needsCatchup := false }

/-- `mode === 'catchup'`: durable progress is merged, replacements overwrite the rows that were
    held before. -/
def applyCatchupSnapshot (state : ChannelReducerState) (event : ChannelSnapshotEvent) :
    ChannelReducerState :=
  applySnapshotStateReplacements (mergeCatchup state event) state.byId
    (event.stateReplacements.getD [])

def applySnapshot (state : ChannelReducerState) (event : ChannelSnapshotEvent) :
    ChannelReducerState :=
  match event.mode with
  | .full => applyFullSnapshot state event
  | .catchup => applyCatchupSnapshot state event

def applyMessageCreated (state : ChannelReducerState) (message : ChannelMessage) :
    ChannelReducerState :=
  if (state.byId message.id).isSome then state
  else if message.seq ≤ state.lastSeq then state
  else if message.seq > state.lastSeq + 1 then { state with needsCatchup := true }
  else
    let messages := sortedInsert state.messages message
    { state with
      messages := messages
      byId := rebuildById messages
      lastSeq := message.seq }

/-- A delta counts only behind the one before it. -/
def applyMessageDelta (state : ChannelReducerState) (messageId : ChannelMessageId)
    (deltaIndex : ℤ) (text : String) : ChannelReducerState :=
  match state.byId messageId with
  | none => { state with needsCatchup := true }
  | some existing =>
    if existing.status ≠ .streaming then state
    else if state.quarantined messageId then state
    else if deltaIndex ≠ (state.inFlightDelta messageId).getD (-1) + 1 then
      -- out of order: this message waits for its completed row
      { state with quarantined := update state.quarantined messageId true }
    else
      { state.replace { existing with text := existing.text ++ text } with
        inFlightDelta := update state.inFlightDelta messageId (some deltaIndex) }

def applyMessageUpdated (state : ChannelReducerState) (message : ChannelMessage) :
    ChannelReducerState :=
  match state.byId message.id with
  | none => { state with needsCatchup := true }
  | some existing =>
    if existing.status ≠ .streaming ∨ message.status ≠ .streaming then state
    else if message.seq ≠ existing.seq then { state with needsCatchup := true }
    else state.replace message

def applyMessageCompleted (state : ChannelReducerState) (message : ChannelMessage) :
    ChannelReducerState :=
  match state.byId message.id with
  | none => { state with needsCatchup := true }
  | some _ =>
    { state.replace message with
      inFlightDelta := update state.inFlightDelta message.id none
      quarantined := update state.quarantined message.id false }

/-- The common body of the edited and the deleted lane: neither touches a live stream. -/
def applyMessageRewritten (state : ChannelReducerState) (message : ChannelMessage) :
    ChannelReducerState :=
  match state.byId message.id with
  | none => state
  | some existing =>
    if existing.status = .streaming then state
    else if message.seq ≠ existing.seq then { state with needsCatchup := true }
    else state.replace message

def applyMessageEdited (state : ChannelReducerState) (message : ChannelMessage) :
    ChannelReducerState :=
  applyMessageRewritten state message

def applyMessageDeleted (state : ChannelReducerState) (message : ChannelMessage) :
    ChannelReducerState :=
  applyMessageRewritten state message

/-- `applyChannelEventV1`. -/
def applyChannelEvent (state : ChannelReducerState) : ChannelEvent → ChannelReducerState
  | .snapshot event => applySnapshot state event
  | .messageCreated message => applyMessageCreated state message
  | .messageDelta messageId deltaIndex text => applyMessageDelta state messageId deltaIndex text
  | .messageUpdated message => applyMessageUpdated state message
  | .messageCompleted message => applyMessageCompleted state message
  | .messageEdited message => applyMessageEdited state message
  | .messageDeleted message => applyMessageDeleted state message
  | .resyncRequired _ => { state with needsCatchup := true }
  | .runLifecycle run => { state with runs := update state.runs run.id (some run) }
  -- receipts are an observation stream, not timeline state
  | .deliveryReceipt _ => state

/-- Additive: never lowers `lastSeq`. -/
def mergeHistoryPage (state : ChannelReducerState) (page : List ChannelMessage) :
    ChannelReducerState :=
  if page = [] then state
  else
    let messages := (sortBySeq page).foldl sortedInsert state.messages
    let highestSeq :=
      match messages.getLast? with
      | some last => last.seq
      | none => state.lastSeq
    { state with
      messages := messages
      byId := rebuildById messages
      lastSeq := max state.lastSeq highestSeq }

/-! ## Lists of rows -/

variable {messages page : List ChannelMessage} {message x : ChannelMessage} {log : MessageLog}
  {s s' : ChannelReducerState} {existingById : ChannelMessageId → Option ChannelMessage}
  {id : ChannelMessageId} {replacements : List ChannelSnapshotStateReplacement}
  {event : ChannelSnapshotEvent}

theorem mem_sortedInsert :
    x ∈ sortedInsert messages message ↔ x = message ∨ (x ∈ messages ∧ x.id ≠ message.id) := by
  simp [sortedInsert]

theorem mem_foldl_sortedInsert
    (hpage : (page.map (·.id)).Nodup) :
    x ∈ page.foldl sortedInsert messages ↔ x ∈ page ∨ (x ∈ messages ∧ ∀ m ∈ page, m.id ≠ x.id) := by
  induction page generalizing messages with
  | nil => simp
  | cons a page ih =>
    rw [map_cons, nodup_cons] at hpage
    rw [foldl_cons, ih hpage.2, mem_sortedInsert]
    have hnew : ∀ m ∈ page, m.id ≠ a.id := fun m hm he =>
      hpage.1 (he ▸ mem_map_of_mem hm)
    simp only [mem_cons, forall_eq_or_imp]
    constructor
    · rintro (hx | ⟨rfl | ⟨hx, hne⟩, hrest⟩)
      · exact .inl (.inr hx)
      · exact .inl (.inl rfl)
      · exact .inr ⟨hx, Ne.symm hne, hrest⟩
    · rintro ((rfl | hx) | ⟨hx, hne, hrest⟩)
      · exact .inr ⟨.inl rfl, hnew⟩
      · exact .inl hx
      · exact .inr ⟨.inr ⟨hx, Ne.symm hne⟩, hrest⟩

theorem rebuildById_eq_some_iff
    (h : (messages.map (·.id)).Nodup) (id : ChannelMessageId) (m : ChannelMessage) :
    rebuildById messages id = some m ↔ m ∈ messages ∧ m.id = id := by
  rw [rebuildById, record_eq_some_iff h]
  constructor
  · rintro ⟨a, ha, hid, rfl⟩
    exact ⟨ha, hid⟩
  · rintro ⟨hm, hid⟩
    exact ⟨m, hm, hid, rfl⟩

variable {rows : List ChannelMessage} {log' : MessageLog} {e : ChannelEvent} {m : ChannelMessage}
  {r : ChannelSnapshotStateReplacement}

theorem sortBySeq_of_ranked (h : Ranked ChannelMessage.seq rows) : sortBySeq rows = rows :=
  List.Pairwise.insertionSort_eq (h.imp fun hlt => Nat.le_of_lt hlt)

theorem mem_replaceRow :
    x ∈ replaceRow messages message ↔
      (x = message ∧ ∃ r ∈ messages, r.id = message.id) ∨ (x ∈ messages ∧ x.id ≠ message.id) := by
  unfold replaceRow
  rw [mem_map]
  constructor
  · rintro ⟨r, hr, rfl⟩
    split
    · rename_i hid
      exact .inl ⟨rfl, r, hr, hid⟩
    · rename_i hid
      exact .inr ⟨hr, hid⟩
  · rintro (⟨rfl, r, hr, hid⟩ | ⟨hx, hid⟩)
    · exact ⟨r, hr, if_pos hid⟩
    · exact ⟨x, hx, if_neg hid⟩

/-! ## Windows of a log -/

/-- The held rows are distinct rows of the log, in order and indexed by id. -/
structure Window (log : MessageLog) (s : ChannelReducerState) : Prop where
  versions : ∀ m ∈ s.messages, log.VersionOf m
  ranked : Ranked ChannelMessage.seq s.messages
  byId_iff : ∀ id m, s.byId id = some m ↔ m ∈ s.messages ∧ m.id = id
  seq_le : ∀ m ∈ s.messages, m.seq ≤ s.lastSeq
  lastSeq_le : s.lastSeq ≤ log.latestSeq

/-- What holds of every event about a log, whenever it was sent. -/
def EventOf (log : MessageLog) : ChannelEvent → Prop
  | .snapshot event =>
    (∀ m ∈ event.messages, log.VersionOf m ∧ m.seq ≤ event.latestSeq) ∧
      Ranked ChannelMessage.seq event.messages ∧ event.latestSeq ≤ log.latestSeq ∧
      ∀ r ∈ event.stateReplacements.getD [], log.VersionOf r.message
  | .messageCreated message => log.VersionOf message
  | .messageUpdated message => log.VersionOf message
  | .messageCompleted message => log.VersionOf message
  | .messageEdited message => log.VersionOf message
  | .messageDeleted message => log.VersionOf message
  | .messageDelta .. => True
  | .resyncRequired _ => True
  | .runLifecycle _ => True
  | .deliveryReceipt _ => True

theorem window_initial (log : MessageLog) : Window log initialChannelReducerState :=
  ⟨by simp [initialChannelReducerState], by simp [initialChannelReducerState],
    by simp [initialChannelReducerState], by simp [initialChannelReducerState],
    Nat.zero_le _⟩

theorem Window.advance (h : Window log s) (hadv : log.Advances log') : Window log' s :=
  ⟨fun m hm => hadv.version m (h.versions m hm), h.ranked, h.byId_iff, h.seq_le,
    h.lastSeq_le.trans hadv.latestSeq_le⟩

theorem EventOf.advance (h : EventOf log e) (hadv : log.Advances log') : EventOf log' e := by
  cases e with
  | snapshot event =>
    exact ⟨fun m hm => ⟨hadv.version m (h.1 m hm).1, (h.1 m hm).2⟩, h.2.1,
      h.2.2.1.trans hadv.latestSeq_le, fun r hr => hadv.version _ (h.2.2.2 r hr)⟩
  | messageCreated message | messageUpdated message | messageCompleted message
  | messageEdited message | messageDeleted message => exact hadv.version _ h
  | messageDelta | resyncRequired | runLifecycle | deliveryReceipt => trivial

theorem ids_nodup
    (hversions : ∀ m ∈ rows, log.VersionOf m) (hranked : Ranked ChannelMessage.seq rows) :
    (rows.map (·.id)).Nodup := by
  show List.Pairwise _ _
  rw [pairwise_map]
  refine List.Pairwise.imp_of_mem (fun {a b} ha hb hlt hid => ?_) hranked
  have hseq := ((hversions a ha).id_eq_iff (hversions b hb)).mp hid
  omega

section
variable (h : Window log s)
include h

theorem Window.ids_nodup : (s.messages.map (·.id)).Nodup :=
  Channel.ids_nodup h.versions h.ranked

theorem Window.byId_of_mem (hm : m ∈ s.messages) : s.byId m.id = some m :=
  (h.byId_iff _ _).mpr ⟨hm, rfl⟩

variable {id : ChannelMessageId}

theorem Window.mem_of_byId (hm : s.byId id = some m) : m ∈ s.messages :=
  ((h.byId_iff _ _).mp hm).1

theorem Window.id_of_byId (hm : s.byId id = some m) : m.id = id :=
  ((h.byId_iff _ _).mp hm).2

theorem Window.congr (hmessages : s'.messages = s.messages) (hbyId : s'.byId = s.byId)
    (hlast : s'.lastSeq = s.lastSeq) : Window log s' := by
  refine ⟨?_, ?_, ?_, ?_, ?_⟩
  · rw [hmessages]
    exact h.versions
  · rw [hmessages]
    exact h.ranked
  · rw [hmessages, hbyId]
    exact h.byId_iff
  · rw [hmessages, hlast]
    exact h.seq_le
  · rw [hlast]
    exact h.lastSeq_le

theorem Window.replace
    {message existing : ChannelMessage} (hheld : s.byId message.id = some existing)
    (hversion : log.VersionOf message) : Window log (s.replace message) := by
  have hexisting := h.mem_of_byId hheld
  have hid : existing.id = message.id := h.id_of_byId hheld
  have hseq : existing.seq = message.seq :=
    ((h.versions _ hexisting).id_eq_iff hversion).mp hid
  have hmem (x : ChannelMessage) : x ∈ replaceRow s.messages message ↔
      x = message ∨ (x ∈ s.messages ∧ x.id ≠ message.id) := by
    have hex : ∃ r ∈ s.messages, r.id = message.id := ⟨existing, hexisting, hid⟩
    rw [mem_replaceRow, and_iff_left hex]
  refine ⟨?_, ?_, ?_, ?_, h.lastSeq_le⟩
  · intro m hm
    rcases (hmem m).mp hm with rfl | ⟨hm, -⟩
    · exact hversion
    · exact h.versions m hm
  · refine (pairwise_map.mpr ?_ : Ranked _ (replaceRow s.messages message))
    have hkeep : ∀ r ∈ s.messages, (if r.id = message.id then message else r).seq = r.seq := by
      intro r hr
      split
      · rename_i hrid
        exact (((h.versions r hr).id_eq_iff hversion).mp hrid).symm
      · rfl
    refine List.Pairwise.imp_of_mem (fun {a b} ha hb hlt => ?_) h.ranked
    rw [hkeep a ha, hkeep b hb]
    exact hlt
  · intro id m
    show update s.byId message.id (some message) id = some m ↔
      m ∈ replaceRow s.messages message ∧ m.id = id
    rw [hmem]
    by_cases hidm : id = message.id
    · subst hidm
      simp only [update_self, Option.some.injEq]
      constructor
      · rintro rfl
        exact ⟨.inl rfl, rfl⟩
      · rintro ⟨rfl | ⟨-, hne⟩, he⟩
        · rfl
        · exact absurd he hne
    · rw [update_of_ne hidm, h.byId_iff]
      constructor
      · rintro ⟨hm, he⟩
        exact ⟨.inr ⟨hm, he ▸ hidm⟩, he⟩
      · rintro ⟨rfl | ⟨hm, -⟩, he⟩
        · exact absurd he.symm hidm
        · exact ⟨hm, he⟩
  · intro m hm
    rcases (hmem m).mp hm with rfl | ⟨hm, -⟩
    · exact hseq ▸ h.seq_le _ hexisting
    · exact h.seq_le m hm

end

theorem ranked_foldl_sortedInsert
    (hpage : ∀ m ∈ page, log.VersionOf m) (hversions : ∀ m ∈ messages, log.VersionOf m)
    (hranked : Ranked ChannelMessage.seq messages) :
    (∀ m ∈ page.foldl sortedInsert messages, log.VersionOf m) ∧
      Ranked ChannelMessage.seq (page.foldl sortedInsert messages) := by
  induction page generalizing messages with
  | nil => exact ⟨hversions, hranked⟩
  | cons a page ih =>
    have ha : log.VersionOf a := hpage a mem_cons_self
    apply ih
    · exact fun m hm => hpage m (mem_cons_of_mem _ hm)
    · intro m hm
      rcases mem_sortedInsert.mp hm with rfl | ⟨hm, -⟩
      · exact ha
      · exact hversions m hm
    · apply Ranked.insertRanked (hranked.filter _)
      intro b hb hseq
      obtain ⟨hb, hne⟩ := mem_filter.mp hb
      have hid := ((hversions b hb).id_eq_iff ha).mpr hseq
      simp [hid] at hne

theorem window_rebuild
    (hbyId : s.byId = rebuildById s.messages) (hversions : ∀ m ∈ s.messages, log.VersionOf m)
    (hranked : Ranked ChannelMessage.seq s.messages) (hle : ∀ m ∈ s.messages, m.seq ≤ s.lastSeq)
    (hlast : s.lastSeq ≤ log.latestSeq) : Window log s := by
  refine ⟨hversions, hranked, ?_, hle, hlast⟩
  intro id m
  rw [hbyId]
  exact rebuildById_eq_some_iff (Channel.ids_nodup hversions hranked) id m

/-! ## What each writer does to a window -/

/-- A row is held under its id. -/
def ChannelReducerState.Holds (s : ChannelReducerState) (id : ChannelMessageId) : Prop :=
  (s.byId id).isSome

theorem Window.holds_iff (h : Window log s)
    (id : ChannelMessageId) : s.Holds id ↔ ∃ m ∈ s.messages, m.id = id := by
  unfold ChannelReducerState.Holds
  rw [Option.isSome_iff_exists]
  exact exists_congr fun m => h.byId_iff id m

theorem holds_replace {existing : ChannelMessage}
    (hheld : s.byId message.id = some existing) (id : ChannelMessageId) :
    (s.replace message).Holds id ↔ s.Holds id := by
  show (update s.byId message.id (some message) id).isSome ↔ (s.byId id).isSome
  by_cases hid : id = message.id
  · subst hid
    simp [hheld]
  · rw [update_of_ne hid]

theorem Window.seqs_congr (h : Window log s)
    (h' : Window log s') (hholds : ∀ id, s'.Holds id ↔ s.Holds id) (q : ℕ) :
    (∃ m ∈ s'.messages, m.seq = q) ↔ ∃ m ∈ s.messages, m.seq = q := by
  have hone {s s' : ChannelReducerState} (h : Window log s) (h' : Window log s')
      (hholds : ∀ id, s.Holds id → s'.Holds id) (hq : ∃ m ∈ s.messages, m.seq = q) :
      ∃ m ∈ s'.messages, m.seq = q := by
    obtain ⟨m, hm, rfl⟩ := hq
    obtain ⟨m', hm', hid⟩ := (h'.holds_iff _).mp (hholds _ ((h.holds_iff _).mpr ⟨m, hm, rfl⟩))
    exact ⟨m', hm', ((h'.versions m' hm').id_eq_iff (h.versions m hm)).mp hid⟩
  exact ⟨hone h' h fun id => (hholds id).mp, hone h h' fun id => (hholds id).mpr⟩

/-! ### The replacement loop -/

/-- Ids held under `existingById` are held in the state, all as versions of the log. -/
structure Existing (log : MessageLog) (s : ChannelReducerState)
    (existingById : ChannelMessageId → Option ChannelMessage) : Prop where
  version : ∀ id m, existingById id = some m → log.VersionOf m ∧ m.id = id
  held : ∀ id m, existingById id = some m → s.Holds id

/-- Between versions of one log the sequence check of the loop never fails. -/
theorem applyStateReplacement_of_held
    (hex : Existing log s existingById)
    (hr : log.VersionOf r.message) (hheld : (existingById r.message.id).isSome) :
    applyStateReplacement existingById s r =
      { s.replace r.message with
        quarantined := update s.quarantined r.message.id false
        inFlightDelta := update s.inFlightDelta r.message.id (r.inFlight.map (·.deltaIndex)) } := by
  obtain ⟨e, he⟩ := Option.isSome_iff_exists.mp hheld
  obtain ⟨hversion, hid⟩ := hex.version _ _ he
  unfold applyStateReplacement
  rw [he]
  dsimp only
  rw [if_neg]
  exact not_not_intro ((hversion.id_eq_iff hr).mp hid)

theorem applyStateReplacement_of_not_held (hheld : ¬ (existingById r.message.id).isSome) :
    applyStateReplacement existingById s r = s := by
  unfold applyStateReplacement
  rw [Option.not_isSome_iff_eq_none.mp hheld]

theorem window_applyStateReplacement (h : Window log s) (hex : Existing log s existingById)
    (hr : log.VersionOf r.message) :
    Window log (applyStateReplacement existingById s r) ∧
      ∀ id, (applyStateReplacement existingById s r).Holds id ↔ s.Holds id := by
  by_cases hheld : (existingById r.message.id).isSome
  · rw [applyStateReplacement_of_held hex hr hheld]
    obtain ⟨e, he⟩ := Option.isSome_iff_exists.mp hheld
    obtain ⟨held, hby⟩ := Option.isSome_iff_exists.mp (hex.held _ _ he)
    exact ⟨(h.replace hby hr).congr rfl rfl rfl, holds_replace hby⟩
  · rw [applyStateReplacement_of_not_held hheld]
    exact ⟨h, fun _ => Iff.rfl⟩

theorem Existing.congr (hex : Existing log s existingById)
    (hholds : ∀ id, s'.Holds id ↔ s.Holds id) : Existing log s' existingById :=
  ⟨hex.version, fun id m hm => (hholds id).mpr (hex.held id m hm)⟩

theorem window_applySnapshotStateReplacements (h : Window log s)
    (hex : Existing log s existingById) {replacements : List ChannelSnapshotStateReplacement}
    (hr : ∀ r ∈ replacements, log.VersionOf r.message) :
    Window log (applySnapshotStateReplacements s existingById replacements) ∧
      ∀ id, (applySnapshotStateReplacements s existingById replacements).Holds id ↔
        s.Holds id := by
  induction replacements generalizing s with
  | nil => exact ⟨h, fun _ => Iff.rfl⟩
  | cons r rs ih =>
    obtain ⟨hw, hholds⟩ := window_applyStateReplacement h hex (hr r mem_cons_self)
    obtain ⟨hw', hholds'⟩ := ih hw (hex.congr hholds) fun r hr' => hr r (mem_cons_of_mem _ hr')
    exact ⟨hw', fun id => (hholds' id).trans (hholds id)⟩

section
variable (s : ChannelReducerState) (existingById : ChannelMessageId → Option ChannelMessage)

@[simp] theorem lastSeq_applyStateReplacement
    (r : ChannelSnapshotStateReplacement) :
    (applyStateReplacement existingById s r).lastSeq = s.lastSeq := by
  unfold applyStateReplacement
  split
  · rfl
  · split <;> rfl

@[simp] theorem lastSeq_applySnapshotStateReplacements
    (replacements : List ChannelSnapshotStateReplacement) :
    (applySnapshotStateReplacements s existingById replacements).lastSeq = s.lastSeq := by
  unfold applySnapshotStateReplacements
  induction replacements generalizing s with
  | nil => rfl
  | cons r rs ih => rw [foldl_cons, ih, lastSeq_applyStateReplacement]

end

def ChannelReducerState.entry (s : ChannelReducerState) (id : ChannelMessageId) :
    Option ChannelMessage × Option ℤ × Bool :=
  (s.byId id, s.inFlightDelta id, s.quarantined id)

theorem entry_applyStateReplacement_of_ne (hid : id ≠ r.message.id) :
    (applyStateReplacement existingById s r).entry id = s.entry id := by
  unfold applyStateReplacement
  split
  · rfl
  · split
    · rfl
    · simp [ChannelReducerState.entry, ChannelReducerState.replace, update_of_ne hid]

theorem entry_applySnapshotStateReplacements_of_forall_ne
    (hid : ∀ r ∈ replacements, r.message.id ≠ id) :
    (applySnapshotStateReplacements s existingById replacements).entry id = s.entry id := by
  unfold applySnapshotStateReplacements
  induction replacements generalizing s with
  | nil => rfl
  | cons r rs ih =>
    rw [foldl_cons, ih fun r hr => hid r (mem_cons_of_mem _ hr)]
    exact entry_applyStateReplacement_of_ne (hid r mem_cons_self).symm

theorem entry_applySnapshotStateReplacements_of_not_held (hid : existingById id = none) :
    (applySnapshotStateReplacements s existingById replacements).entry id = s.entry id := by
  unfold applySnapshotStateReplacements
  induction replacements generalizing s with
  | nil => rfl
  | cons r rs ih =>
    rw [foldl_cons, ih]
    by_cases he : id = r.message.id
    · rw [applyStateReplacement_of_not_held (by simp [← he, hid])]
    · exact entry_applyStateReplacement_of_ne he

theorem entry_applySnapshotStateReplacements_of_mem (h : Window log s)
    (hex : Existing log s existingById) {replacements : List ChannelSnapshotStateReplacement}
    (hversions : ∀ r ∈ replacements, log.VersionOf r.message)
    (hnodup : (replacements.map (·.message.id)).Nodup)
    (hr : r ∈ replacements) (hheld : (existingById r.message.id).isSome) :
    (applySnapshotStateReplacements s existingById replacements).entry r.message.id =
      (some r.message, r.inFlight.map (·.deltaIndex), false) := by
  induction replacements generalizing s with
  | nil => exact absurd hr not_mem_nil
  | cons a rs ih =>
    rw [map_cons, nodup_cons] at hnodup
    have ha := hversions a mem_cons_self
    have hrs : ∀ r ∈ rs, log.VersionOf r.message :=
      fun r hr => hversions r (mem_cons_of_mem _ hr)
    obtain ⟨hw, hholds⟩ := window_applyStateReplacement h hex ha
    show (applySnapshotStateReplacements (applyStateReplacement existingById s a) existingById
      rs).entry r.message.id = _
    rcases mem_cons.mp hr with rfl | hr
    · -- the later replacements are of other rows
      rw [entry_applySnapshotStateReplacements_of_forall_ne fun r' hr' he =>
          hnodup.1 (mem_map.mpr ⟨r', hr', he⟩),
        applyStateReplacement_of_held hex ha hheld]
      simp [ChannelReducerState.entry, ChannelReducerState.replace]
    · exact ih hw (hex.congr hholds) hrs hnodup.2 hr

theorem mem_applySnapshotStateReplacements
    (hm : m ∈ (applySnapshotStateReplacements s existingById replacements).messages) :
    m ∈ s.messages ∨ ∃ r ∈ replacements, r.message = m := by
  induction replacements generalizing s with
  | nil => exact .inl hm
  | cons r rs ih =>
    rcases ih hm with hm | ⟨r', hr', he⟩
    · unfold applyStateReplacement at hm
      split at hm
      · exact .inl hm
      · split at hm
        · exact .inl hm
        · rcases mem_replaceRow.mp hm with ⟨rfl, -⟩ | ⟨hm, -⟩
          · exact .inr ⟨r, mem_cons_self, rfl⟩
          · exact .inl hm
    · exact .inr ⟨r', mem_cons_of_mem _ hr', he⟩

/-! ### Snapshots -/

theorem messages_applyFullSnapshot (h : Ranked ChannelMessage.seq event.messages) :
    (applyFullSnapshot s event).messages = event.messages :=
  sortBySeq_of_ranked h

theorem window_applyFullSnapshot (he : EventOf log (.snapshot event)) :
    Window log (applyFullSnapshot s event) := by
  obtain ⟨hmessages, hranked, hlatest, -⟩ := he
  have hrows := messages_applyFullSnapshot (s := s) hranked
  apply window_rebuild
  · rfl
  · rw [hrows]
    exact fun m hm => (hmessages m hm).1
  · rw [hrows]
    exact hranked
  · rw [hrows]
    exact fun m hm => (hmessages m hm).2
  · exact hlatest

theorem mem_catchupRows (h : Ranked ChannelMessage.seq event.messages) :
    m ∈ catchupRows s event ↔ m ∈ event.messages ∧ (s.Holds m.id ∨ s.lastSeq < m.seq) := by
  rw [catchupRows, sortBySeq_of_ranked h]
  simp [ChannelReducerState.Holds]

theorem versions_catchupRows (he : EventOf log (.snapshot event)) :
    ∀ m ∈ catchupRows s event, log.VersionOf m :=
  fun m hm => (he.1 m ((mem_catchupRows he.2.1).mp hm).1).1

theorem mem_mergeCatchup (he : EventOf log (.snapshot event)) :
    m ∈ (mergeCatchup s event).messages ↔
      m ∈ catchupRows s event ∨ (m ∈ s.messages ∧ ∀ c ∈ catchupRows s event, c.id ≠ m.id) := by
  apply mem_foldl_sortedInsert
  refine ids_nodup (versions_catchupRows he) ?_
  rw [catchupRows, sortBySeq_of_ranked he.2.1]
  exact he.2.1.filter _

section
variable (h : Window log s) {event : ChannelSnapshotEvent} (he : EventOf log (.snapshot event))
include h he

theorem window_mergeCatchup :
    Window log (mergeCatchup s event) := by
  obtain ⟨hversions, hranked⟩ :=
    ranked_foldl_sortedInsert (versions_catchupRows he) h.versions h.ranked
  refine window_rebuild rfl hversions hranked (fun m hm => ?_) ?_
  · rcases (mem_mergeCatchup he).mp hm with hm | ⟨hm, -⟩
    · have hle := (he.1 m ((mem_catchupRows he.2.1).mp hm).1).2
      exact hle.trans (le_max_right _ _)
    · exact (h.seq_le m hm).trans (le_max_left _ _)
  · exact max_le h.lastSeq_le he.2.2.1

theorem existing_mergeCatchup :
    Existing log (mergeCatchup s event) s.byId := by
  refine ⟨fun id m hm => ⟨h.versions m (h.mem_of_byId hm), h.id_of_byId hm⟩, fun id m hm => ?_⟩
  rw [(window_mergeCatchup h he).holds_iff]
  by_cases hfresh : ∃ c ∈ catchupRows s event, c.id = id
  · obtain ⟨c, hc, hid⟩ := hfresh
    exact ⟨c, (mem_mergeCatchup he).mpr (.inl hc), hid⟩
  · push Not at hfresh
    refine ⟨m, (mem_mergeCatchup he).mpr (.inr ⟨h.mem_of_byId hm, ?_⟩), h.id_of_byId hm⟩
    rw [h.id_of_byId hm]
    exact hfresh

theorem window_applyCatchupSnapshot :
    Window log (applyCatchupSnapshot s event) ∧
      ∀ id, (applyCatchupSnapshot s event).Holds id ↔ (mergeCatchup s event).Holds id :=
  window_applySnapshotStateReplacements (window_mergeCatchup h he) (existing_mergeCatchup h he)
    he.2.2.2

end

@[simp] theorem lastSeq_applyCatchupSnapshot (s : ChannelReducerState)
    (event : ChannelSnapshotEvent) :
    (applyCatchupSnapshot s event).lastSeq = max s.lastSeq event.latestSeq :=
  lastSeq_applySnapshotStateReplacements _ _ _

/-! ### Live events -/

section
variable (h : Window log s)
include h

theorem window_applyMessageCreated {message : ChannelMessage} (hm : log.VersionOf message) :
    Window log (applyMessageCreated s message) := by
  unfold applyMessageCreated
  split
  · exact h
  · split
    · exact h
    · split
      · exact h.congr rfl rfl rfl
      · rename_i hnot hlow hgap
        have hpage : ∀ m ∈ [message], log.VersionOf m := by simpa using hm
        obtain ⟨hversions, hranked⟩ := ranked_foldl_sortedInsert hpage h.versions h.ranked
        refine window_rebuild rfl hversions hranked (fun m hmem => ?_) hm.seq_le
        rcases mem_sortedInsert.mp hmem with rfl | ⟨hmem, -⟩
        · exact le_rfl
        · exact (h.seq_le m hmem).trans (by show s.lastSeq ≤ message.seq; omega)

theorem window_applyMessageDelta (messageId : ChannelMessageId) (deltaIndex : ℤ) (text : String) :
    Window log (applyMessageDelta s messageId deltaIndex text) := by
  unfold applyMessageDelta
  split
  · exact h.congr rfl rfl rfl
  · rename_i existing hby
    split
    · exact h
    · rename_i hstat
      split
      · exact h
      · split
        · exact h.congr rfl rfl rfl
        · have hid : existing.id = messageId := h.id_of_byId hby
          have hversion := (h.versions _ (h.mem_of_byId hby)).setText (not_not.mp hstat)
            (existing.text ++ text)
          have hby' : s.byId ({ existing with text := existing.text ++ text } :
              ChannelMessage).id = some existing := by
            rw [hid]
            exact hby
          exact (h.replace hby' hversion).congr rfl rfl rfl

section
variable {message : ChannelMessage}

theorem window_applyMessageUpdated (hm : log.VersionOf message) :
    Window log (applyMessageUpdated s message) := by
  unfold applyMessageUpdated
  split
  · exact h.congr rfl rfl rfl
  · rename_i existing hby
    split
    · exact h
    · split
      · exact h.congr rfl rfl rfl
      · exact h.replace hby hm

theorem window_applyMessageCompleted (hm : log.VersionOf message) :
    Window log (applyMessageCompleted s message) := by
  unfold applyMessageCompleted
  split
  · exact h.congr rfl rfl rfl
  · rename_i existing hby
    exact (h.replace hby hm).congr rfl rfl rfl

theorem window_applyMessageRewritten (hm : log.VersionOf message) :
    Window log (applyMessageRewritten s message) := by
  unfold applyMessageRewritten
  split
  · exact h
  · rename_i existing hby
    split
    · exact h
    · split
      · exact h.congr rfl rfl rfl
      · exact h.replace hby hm

end

/-- **Windows**: every event about the log keeps the state a window of the log. -/
theorem window_applyChannelEvent (he : EventOf log e) : Window log (applyChannelEvent s e) := by
  cases e with
  | snapshot event =>
    show Window log (applySnapshot s event)
    unfold applySnapshot
    split
    · exact window_applyFullSnapshot he
    · exact (window_applyCatchupSnapshot h he).1
  | messageCreated message => exact window_applyMessageCreated h he
  | messageDelta id deltaIndex text => exact window_applyMessageDelta h id deltaIndex text
  | messageUpdated message => exact window_applyMessageUpdated h he
  | messageCompleted message => exact window_applyMessageCompleted h he
  | messageEdited message | messageDeleted message => exact window_applyMessageRewritten h he
  | resyncRequired latestSeq | runLifecycle run => exact h.congr rfl rfl rfl
  | deliveryReceipt id => exact h

end

/-! ### History pages -/

theorem mem_mergeHistoryPage
    (hids : (page.map (·.id)).Nodup) (hranked : Ranked ChannelMessage.seq page) :
    m ∈ (mergeHistoryPage s page).messages ↔
      m ∈ page ∨ (m ∈ s.messages ∧ ∀ r ∈ page, r.id ≠ m.id) := by
  unfold mergeHistoryPage
  split
  · rename_i hnil
    simp [hnil]
  · rw [sortBySeq_of_ranked hranked]
    exact mem_foldl_sortedInsert hids

theorem window_mergeHistoryPage (h : Window log s)
    {page : List ChannelMessage} (hversions : ∀ m ∈ page, log.VersionOf m)
    (hranked : Ranked ChannelMessage.seq page) : Window log (mergeHistoryPage s page) := by
  unfold mergeHistoryPage
  split
  · exact h
  · obtain ⟨hall, hsorted⟩ := ranked_foldl_sortedInsert hversions h.versions h.ranked
    dsimp only
    rw [sortBySeq_of_ranked hranked]
    refine window_rebuild rfl hall hsorted (fun m hm => ?_) (max_le h.lastSeq_le ?_)
    · -- the last row has the highest number
      rw [getLast?_eq_some_getLast (ne_nil_of_mem hm)]
      refine le_max_of_le_right ?_
      rcases eq_nil_or_concat (page.foldl sortedInsert s.messages) with hnil | ⟨l, x, hl⟩
      · rw [hnil] at hm
        exact absurd hm not_mem_nil
      · rw [concat_eq_append] at hl
        simp only [hl, getLast_append_singleton] at hm ⊢
        rw [hl] at hsorted
        rcases mem_append.mp hm with hm | hm
        · exact (hsorted.lt_of_append hm (by simp)).le
        · rw [mem_singleton.mp hm]
    · split
      · rename_i last hlast
        exact (hall last (mem_of_getLast? hlast)).seq_le
      · exact h.lastSeq_le

end RelayIde.Channel
