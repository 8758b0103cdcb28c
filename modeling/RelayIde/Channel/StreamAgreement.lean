import RelayIde.Channel.Streams

/-!
# Stream Text Agreement

A client that folds the frames it was sent holds, of every open stream, exactly the text that
had been flushed at the delta index it has recorded, and of every closed one the durable row.

- `ResumesFully` — the condition on a reconnect
-/

namespace RelayIde.Channel

open RelayIde.Library MessageLog List Function

/-! ## Held rows -/

/-- What a client knows of one id, against what was flushed. -/
def EntryOk (flushedAt : FlushedText) (log : MessageLog) :
    Option ChannelMessage × Option ℤ × Bool → Prop
  | (some m, cursor, quarantined) =>
    (m.status = .streaming → quarantined = false →
      flushedAt m.id (cursor.getD (-1)) = some m.text) ∧
    (m.status ≠ .streaming → m ∈ log.rows)
  | (none, cursor, _) => cursor = none

variable {flushedAt : FlushedText} {log : MessageLog} {s : ChannelReducerState}
  {frames : List ChannelEvent}

variable {m message : ChannelMessage} {flushedAt' : FlushedText} {log' : MessageLog}
  {event : ChannelSnapshotEvent} {f : ChannelEvent}

theorem RowOk.entryOk {cursor : Option ℤ} (h : RowOk flushedAt log m cursor) (quarantined : Bool) :
    EntryOk flushedAt log (some m, cursor, quarantined) :=
  ⟨fun hm _ => h.streaming hm, h.final⟩

def RowsOk (flushedAt : FlushedText) (log : MessageLog) (s : ChannelReducerState) : Prop :=
  ∀ id, EntryOk flushedAt log (s.entry id)

theorem rowsOk_initial (flushedAt : FlushedText) (log : MessageLog) :
    RowsOk flushedAt log initialChannelReducerState :=
  fun _ => rfl

theorem RowsOk.grow (h : RowsOk flushedAt log s)
    (hg : FlushedGrows flushedAt flushedAt' log log') : RowsOk flushedAt' log' s := by
  intro id
  have hid := h id
  unfold ChannelReducerState.entry at hid ⊢
  cases hby : s.byId id with
  | none =>
    rw [hby] at hid
    exact hid
  | some m =>
    rw [hby] at hid
    exact ⟨fun hm hq => hg.text _ _ _ (hid.1 hm hq), fun hm => hg.final m (hid.2 hm) hm⟩

theorem RowsOk.of_entry {s' : ChannelReducerState} (h : RowsOk flushedAt log s)
    (id : ChannelMessageId)
    (hother : ∀ id', id' ≠ id → s'.entry id' = s.entry id')
    (hid : EntryOk flushedAt log (s'.entry id)) : RowsOk flushedAt log s' := by
  intro id'
  by_cases he : id' = id
  · rw [he]
    exact hid
  · rw [hother id' he]
    exact h id'

/-! ## The fold -/

/-- A row stays to be refreshed: streaming, in order, with a delta recorded. -/
def ChannelReducerState.Follows (s : ChannelReducerState) (m : ChannelMessage) : Prop :=
  m ∈ s.messages ∧ m.status = .streaming ∧ s.quarantined m.id = false ∧
    (s.inFlightDelta m.id).getD (-1) ≠ -1

def Resumes (s : ChannelReducerState) : ChannelEvent → Prop
  | .snapshot event => event.mode = .catchup →
      (∀ m ∈ event.messages, s.lastSeq < m.seq) ∧
      ∀ m, s.Follows m → ∃ r ∈ event.stateReplacements.getD [], r.message.id = m.id
  | _ => True

section
variable (h : RowsOk flushedAt log s)
include h

theorem rowsOk_applyMessageCreated (hw : Window log s) (hm : RowOk flushedAt log message none)
    (hw' : Window log (applyMessageCreated s message)) :
    RowsOk flushedAt log (applyMessageCreated s message) := by
  unfold applyMessageCreated at hw' ⊢
  split
  · exact h
  · rename_i hnew
    rw [if_neg hnew] at hw'
    split
    · exact h
    · rename_i hlow
      rw [if_neg hlow] at hw'
      split
      · exact h
      · rename_i hgap
        rw [if_neg hgap] at hw'
        have hnone : s.byId message.id = none := Option.not_isSome_iff_eq_none.mp hnew
        have hcursor : s.inFlightDelta message.id = none := by
          have hid := h message.id
          unfold ChannelReducerState.entry at hid
          rw [hnone] at hid
          exact hid
        apply h.of_entry message.id
        · intro id' hne
          refine congrArg (·, _, _) (Option.ext fun m => ?_)
          rw [hw'.byId_iff, hw.byId_iff]
          refine and_congr_left fun hid => ?_
          rw [mem_sortedInsert]
          constructor
          · rintro (rfl | ⟨hm, -⟩)
            · exact absurd hid.symm hne
            · exact hm
          · exact fun hm => .inr ⟨hm, by rw [hid]; exact hne⟩
        · unfold ChannelReducerState.entry
          rw [(hw'.byId_iff message.id message).mpr ⟨mem_sortedInsert.mpr (.inl rfl), rfl⟩]
          show EntryOk flushedAt log (some message, s.inFlightDelta message.id, _)
          rw [hcursor]
          exact hm.entryOk _

theorem rowsOk_applyMessageDelta (hw : Window log s) {id : ChannelMessageId} {k : ℤ} {text : String}
    (hdelta : FrameOk flushedAt log (.messageDelta id k text)) :
    RowsOk flushedAt log (applyMessageDelta s id k text) := by
  unfold applyMessageDelta
  split
  · exact h
  · rename_i existing hby
    obtain rfl : existing.id = id := hw.id_of_byId hby
    have hentry := h existing.id
    unfold ChannelReducerState.entry at hentry
    rw [hby] at hentry
    split
    · exact h
    · rename_i hstreaming
      split
      · exact h
      · rename_i hlive
        split
        · -- flagged: nothing is said of a quarantined row
          apply h.of_entry existing.id
          · intro id' hne
            simp [ChannelReducerState.entry, update_of_ne hne]
          · simp only [ChannelReducerState.entry, hby, update_self]
            exact ⟨fun _ hq => (by cases hq), hentry.2⟩
        · rename_i hnext
          obtain ⟨t, ht, ht'⟩ := hdelta
          have hk : (s.inFlightDelta existing.id).getD (-1) = k - 1 := by omega
          have htext := hentry.1 (not_not.mp hstreaming) (by simpa using hlive)
          rw [hk, ht] at htext
          apply h.of_entry existing.id
          · intro id' hne
            simp [ChannelReducerState.entry, ChannelReducerState.replace,
              update_of_ne hne]
          · simp only [ChannelReducerState.entry, ChannelReducerState.replace, update_self]
            refine ⟨fun _ _ => ?_, fun hfinal => absurd hfinal hstreaming⟩
            show flushedAt existing.id k = some (existing.text ++ text)
            rw [ht', Option.some.inj htext]

theorem rowsOk_applyMessageCompleted
    (hm : FrameOk flushedAt log (.messageCompleted message)) :
    RowsOk flushedAt log (applyMessageCompleted s message) := by
  unfold applyMessageCompleted
  split
  · exact h
  · apply h.of_entry message.id
    · intro id' hne
      simp [ChannelReducerState.entry, ChannelReducerState.replace, update_of_ne hne]
    · simp only [ChannelReducerState.entry, ChannelReducerState.replace, update_self]
      exact ⟨fun hstreaming => absurd hstreaming hm.1, fun _ => hm.2⟩

end

theorem rowsOk_applyFullSnapshot (s : ChannelReducerState)
    (he : EventOf log (.snapshot event)) (hok : SnapshotOk flushedAt log event) :
    RowsOk flushedAt log (applyFullSnapshot s event) := by
  have hw := window_applyFullSnapshot (s := s) he
  have hrows : (applyFullSnapshot s event).messages = event.messages :=
    messages_applyFullSnapshot he.2.1
  intro id
  show EntryOk flushedAt log
    ((applyFullSnapshot s event).byId id, inFlightFromRefs event.inFlight id, false)
  cases hby : (applyFullSnapshot s event).byId id with
  | none =>
    show inFlightFromRefs event.inFlight id = none
    rw [Option.eq_none_iff_forall_ne_some]
    intro k hk
    obtain ⟨m, hm, hid⟩ := hok.refs id k hk
    have hheld := (hw.byId_iff id m).mpr ⟨hrows ▸ hm, hid⟩
    rw [hby] at hheld
    cases hheld
  | some m =>
    obtain ⟨hm, rfl⟩ := (hw.byId_iff id m).mp hby
    rw [hrows] at hm
    exact (hok.messages m hm).entryOk false

section
variable (h : RowsOk flushedAt log s)
include h

section
variable (hw : Window log s) (he : EventOf log (.snapshot event)) (hok : SnapshotOk flushedAt log event) (hnew : ∀ m ∈ event.messages, s.lastSeq < m.seq)
include hw he hok hnew

/-- After the fresh rows: every entry but those that wait for their replacement. -/
theorem entryOk_mergeCatchup
    (id : ChannelMessageId) (hfollows : ∀ m, m.id = id → ¬ s.Follows m) :
    EntryOk flushedAt log ((mergeCatchup s event).entry id) := by
  have hw' := window_mergeCatchup hw he
  have hfresh (m : ChannelMessage) : m ∈ catchupRows s event ↔ m ∈ event.messages := by
    rw [mem_catchupRows he.2.1]
    exact and_iff_left_of_imp fun hm => .inr (hnew m hm)
  show EntryOk flushedAt log
    ((mergeCatchup s event).byId id, inFlightFromRefs event.inFlight id, s.quarantined id)
  cases hby : (mergeCatchup s event).byId id with
  | none =>
    show inFlightFromRefs event.inFlight id = none
    rw [Option.eq_none_iff_forall_ne_some]
    intro k hk
    obtain ⟨m, hm, hid⟩ := hok.refs id k hk
    have hheld := (hw'.byId_iff id m).mpr
      ⟨(mem_mergeCatchup he).mpr (.inl ((hfresh m).mpr hm)), hid⟩
    rw [hby] at hheld
    cases hheld
  | some m =>
    obtain ⟨hm, rfl⟩ := (hw'.byId_iff id m).mp hby
    rcases (mem_mergeCatchup he).mp hm with hm | ⟨hm, hold⟩
    · exact (hok.messages m ((hfresh m).mp hm)).entryOk _
    · -- held before and not refreshed: the cursor is gone, so it must not have been needed
      have hnone : inFlightFromRefs event.inFlight m.id = none := by
        rw [Option.eq_none_iff_forall_ne_some]
        intro k hk
        obtain ⟨m', hm', hid⟩ := hok.refs m.id k hk
        exact hold m' ((hfresh m').mpr hm') hid
      have hentry := h m.id
      unfold ChannelReducerState.entry at hentry
      rw [hw.byId_of_mem hm] at hentry
      rw [hnone]
      refine ⟨fun hstreaming hq => ?_, hentry.2⟩
      have htext := hentry.1 hstreaming hq
      have hcursor : (s.inFlightDelta m.id).getD (-1) = -1 := by
        by_contra hne
        exact hfollows m rfl ⟨hm, hstreaming, hq, hne⟩
      rw [hcursor] at htext
      exact htext

theorem rowsOk_applyCatchupSnapshot
    (hcovers : ∀ m, s.Follows m → ∃ r ∈ event.stateReplacements.getD [], r.message.id = m.id) :
    RowsOk flushedAt log (applyCatchupSnapshot s event) := by
  have hw' := window_mergeCatchup hw he
  have hex := existing_mergeCatchup hw he
  intro id
  by_cases hreplaced : ∃ r ∈ event.stateReplacements.getD [], r.message.id = id
  · obtain ⟨r, hr, rfl⟩ := hreplaced
    by_cases hheld : (s.byId r.message.id).isSome
    · rw [applyCatchupSnapshot,
        entry_applySnapshotStateReplacements_of_mem hw' hex he.2.2.2 hok.nodup hr hheld]
      exact (hok.replaced r hr).entryOk false
    · have hnone := Option.not_isSome_iff_eq_none.mp hheld
      rw [applyCatchupSnapshot, entry_applySnapshotStateReplacements_of_not_held hnone]
      apply entryOk_mergeCatchup h hw he hok hnew
      intro m hid hfollows
      rw [← hid, hw.byId_of_mem hfollows.1] at hnone
      cases hnone
  · push Not at hreplaced
    rw [applyCatchupSnapshot, entry_applySnapshotStateReplacements_of_forall_ne hreplaced]
    apply entryOk_mergeCatchup h hw he hok hnew
    intro m hid hfollows
    obtain ⟨r, hr, hrid⟩ := hcovers m hfollows
    exact hreplaced r hr (hrid.trans hid)

end

/-- **The fold**: a frame that agrees with what was flushed leaves rows that do. -/
theorem rowsOk_applyChannelEvent (hw : Window log s) (he : EventOf log f)
    (hf : FrameOk flushedAt log f)
    (hresumes : Resumes s f) : RowsOk flushedAt log (applyChannelEvent s f) := by
  cases f with
  | snapshot event =>
    show RowsOk flushedAt log (applySnapshot s event)
    unfold applySnapshot
    split
    · exact rowsOk_applyFullSnapshot s he hf
    · rename_i hmode
      obtain ⟨hnew, hcovers⟩ := hresumes hmode
      exact rowsOk_applyCatchupSnapshot h hw he hf hnew hcovers
  | messageCreated message =>
    exact rowsOk_applyMessageCreated h hw hf (window_applyMessageCreated hw he)
  | messageDelta id k text => exact rowsOk_applyMessageDelta h hw hf
  | messageCompleted message => exact rowsOk_applyMessageCompleted h hf
  | resyncRequired latestSeq => exact h
  | _ => exact absurd hf id

end

/-! ## Closed rows stay closed -/

/-- A row that a fold leaves was held, was sent, or is a stream that was held open. -/
theorem mem_applyChannelEvent (hw : Window log s) (he : EventOf log f)
    (hm : m ∈ (applyChannelEvent s f).messages) :
    m ∈ s.messages ∨ m ∈ f.rows ∨
      (m.status = .streaming ∧
        ∃ existing ∈ s.messages, existing.id = m.id ∧ existing.status = .streaming) := by
  have hreplace {message : ChannelMessage} (hm : m ∈ (s.replace message).messages) :
      m ∈ s.messages ∨ m = message := by
    rcases mem_replaceRow.mp hm with ⟨rfl, -⟩ | ⟨hm, -⟩
    · exact .inr rfl
    · exact .inl hm
  cases f with
  | snapshot event =>
    change m ∈ (applySnapshot s event).messages at hm
    unfold applySnapshot at hm
    split at hm
    · rw [messages_applyFullSnapshot he.2.1] at hm
      exact .inr (.inl (mem_append_left _ hm))
    · rcases mem_applySnapshotStateReplacements hm with hm | ⟨r, hr, rfl⟩
      · rcases (mem_mergeCatchup he).mp hm with hm | ⟨hm, -⟩
        · exact .inr (.inl (mem_append_left _ ((mem_catchupRows he.2.1).mp hm).1))
        · exact .inl hm
      · exact .inr (.inl (mem_append_right _ (mem_map_of_mem hr)))
  | messageCreated message =>
    change m ∈ (applyMessageCreated s message).messages at hm
    unfold applyMessageCreated at hm
    repeat' split at hm
    · exact .inl hm
    · exact .inl hm
    · exact .inl hm
    · rcases mem_sortedInsert.mp hm with rfl | ⟨hm, -⟩
      · exact .inr (.inl (mem_singleton.mpr rfl))
      · exact .inl hm
  | messageDelta id k text =>
    change m ∈ (applyMessageDelta s id k text).messages at hm
    unfold applyMessageDelta at hm
    split at hm
    · exact .inl hm
    · rename_i existing hby
      split at hm
      · exact .inl hm
      · rename_i hstreaming
        split at hm
        · exact .inl hm
        · split at hm
          · exact .inl hm
          · rcases hreplace hm with hm | rfl
            · exact .inl hm
            · exact .inr (.inr ⟨not_not.mp hstreaming, existing, hw.mem_of_byId hby, rfl,
                not_not.mp hstreaming⟩)
  | messageUpdated message =>
    change m ∈ (applyMessageUpdated s message).messages at hm
    unfold applyMessageUpdated at hm
    repeat' split at hm
    · exact .inl hm
    · exact .inl hm
    · exact .inl hm
    · exact (hreplace hm).imp_right fun h => .inl (mem_singleton.mpr h)
  | messageCompleted message =>
    change m ∈ (applyMessageCompleted s message).messages at hm
    unfold applyMessageCompleted at hm
    split at hm
    · exact .inl hm
    · exact (hreplace hm).imp_right fun h => .inl (mem_singleton.mpr h)
  | messageEdited message | messageDeleted message =>
    change m ∈ (applyMessageRewritten s message).messages at hm
    unfold applyMessageRewritten at hm
    repeat' split at hm
    · exact .inl hm
    · exact .inl hm
    · exact .inl hm
    · exact (hreplace hm).imp_right fun h => .inl (mem_singleton.mpr h)
  | _ => exact .inl hm

theorem FrameOk.final_mem (h : FrameOk flushedAt log f) (hm : m ∈ f.rows)
    (hfinal : m.status ≠ .streaming) : m ∈ log.rows := by
  cases f with
  | snapshot event =>
    rcases mem_append.mp hm with hm | hm
    · exact (h.messages m hm).final hfinal
    · obtain ⟨r, hr, rfl⟩ := mem_map.mp hm
      exact (h.replaced r hr).final hfinal
  | messageCreated message =>
    obtain rfl := mem_singleton.mp hm
    exact RowOk.final h hfinal
  | messageCompleted message =>
    obtain rfl := mem_singleton.mp hm
    exact h.2
  | messageUpdated message | messageEdited message | messageDeleted message => exact h.elim
  | _ => exact absurd hm not_mem_nil

/-- A frame that opens no row that `m` closes. -/
def KeepsClosed (m : ChannelMessage) (f : ChannelEvent) : Prop :=
  m.status ≠ .streaming → ∀ m' ∈ f.rows, m'.id = m.id → m'.status ≠ .streaming

theorem keepsClosed_of_liveRows (hm : m.status ≠ .streaming → m ∈ log.rows) (hf : LiveRows log f) :
    KeepsClosed m f := by
  intro hfinal m' hm' hid hstreaming
  obtain ⟨r, hr, hrid, hrow⟩ := hf m' hm' hstreaming
  rw [log.eq_of_id_eq hr (hm hfinal) (hrid.trans hid)] at hrow
  exact hfinal hrow

/-! ## Every interleaving -/

structure StreamClientInv (flushedAt : FlushedText) (log : MessageLog) (s : ChannelReducerState)
    (frames : List ChannelEvent) : Prop where
  rows : RowsOk flushedAt log s
  sent : ∀ f ∈ frames, FrameOk flushedAt log f
  resumes : ∀ f ∈ frames, Resumes s f
  first : SnapshotFirst frames
  held : ∀ m ∈ s.messages, ∀ f ∈ frames, KeepsClosed m f
  order : frames.Pairwise fun a b => ∀ m ∈ a.rows, KeepsClosed m b

theorem RowsOk.final_mem (h : RowsOk flushedAt log s) (hw : Window log s) (hm : m ∈ s.messages)
    (hfinal : m.status ≠ .streaming) : m ∈ log.rows := by
  have hentry := h m.id
  unfold ChannelReducerState.entry at hentry
  rw [hw.byId_of_mem hm] at hentry
  exact hentry.2 hfinal

theorem StreamClientInv.grow (h : StreamClientInv flushedAt log s frames)
    (hg : FlushedGrows flushedAt flushedAt' log log') : StreamClientInv flushedAt' log' s frames :=
  ⟨h.rows.grow hg, fun f hf => (h.sent f hf).grow hg, h.resumes, h.first, h.held, h.order⟩

theorem streamClientInv_receive {frame : ChannelEvent} {rest : List ChannelEvent}
    (h : StreamClientInv flushedAt log s (frame :: rest)) (hw : Window log s)
    (he : EventOf log frame) : StreamClientInv flushedAt log (applyChannelEvent s frame) rest := by
  have hframe := h.sent frame mem_cons_self
  refine ⟨?_, fun f hf => h.sent f (mem_cons_of_mem _ hf), fun f hf => ?_,
    List.Pairwise.of_cons h.first, fun m hm f hf => ?_, List.Pairwise.of_cons h.order⟩
  · exact rowsOk_applyChannelEvent h.rows hw he hframe (h.resumes frame mem_cons_self)
  · have hresumes := h.resumes f (mem_cons_of_mem _ hf)
    cases f with
    | snapshot event =>
      -- the frame just read was a notice, which changes neither rows nor cursors
      have hnotice := rel_of_pairwise_cons h.first hf rfl
      cases frame with
      | resyncRequired latestSeq => exact hresumes
      | _ => cases hnotice
    | _ => trivial
  · intro hfinal
    rcases mem_applyChannelEvent hw he hm with hm | hm | ⟨hstreaming, -⟩
    · exact h.held m hm f (mem_cons_of_mem _ hf) hfinal
    · exact rel_of_pairwise_cons h.order hf m hm hfinal
    · exact absurd hstreaming hfinal

theorem resumes_of_not_snapshot (h : f.isSnapshot = false) : Resumes s f := by
  cases f with
  | snapshot event => cases h
  | _ => trivial

theorem StreamClientInv.append {new : List ChannelEvent}
    (h : StreamClientInv flushedAt log s frames) (hw : Window log s)
    (hfirst : SnapshotFirst (frames ++ new)) (hresumes : ∀ f ∈ new, Resumes s f)
    (hsent : ∀ f ∈ new, FrameOk flushedAt log f ∧ LiveRows log f) :
    StreamClientInv flushedAt log s (frames ++ new) := by
  have hclosed (f : ChannelEvent) (hf : FrameOk flushedAt log f) (g : ChannelEvent)
      (hg : g ∈ new) : ∀ m ∈ f.rows, KeepsClosed m g :=
    fun m hm => keepsClosed_of_liveRows (hf.final_mem hm) (hsent g hg).2
  refine ⟨h.rows, fun f hf => ?_, fun f hf => ?_, hfirst, fun m hm f hf => ?_, ?_⟩
  · rcases mem_append.mp hf with hf | hf
    · exact h.sent f hf
    · exact (hsent f hf).1
  · rcases mem_append.mp hf with hf | hf
    · exact h.resumes f hf
    · exact hresumes f hf
  · rcases mem_append.mp hf with hf | hf
    · exact h.held m hm f hf
    · exact keepsClosed_of_liveRows (h.rows.final_mem hw hm) (hsent f hf).2
  · refine pairwise_append.mpr ⟨h.order, ?_, fun f hf g hg => hclosed f (h.sent f hf) g hg⟩
    exact pairwise_of_forall_mem_list fun f hf g hg => hclosed f (hsent f hf).1 g hg

theorem StreamClientInv.drop
    (h : StreamClientInv flushedAt log s frames) : StreamClientInv flushedAt log s [] :=
  ⟨h.rows, fun _ hf => absurd hf not_mem_nil, fun _ hf => absurd hf not_mem_nil,
    List.Pairwise.nil, fun _ _ _ hf => absurd hf not_mem_nil, List.Pairwise.nil⟩

variable {κ : Type}

/-- The condition on a reconnect: beyond the catch-up gap, or the refresh of every stream the
    client follows fits. -/
def ResumesFully (cfg : SessionConfig) (s : Session κ) : SessionOp κ → Prop
  | .subscribe c true _ _ _ =>
    needsFullSnapshot s.hub.log.latestSeq (some (s.clients c).reducer.lastSeq) = true ∨
      ∀ m, (s.clients c).reducer.Follows m →
        ResyncFits cfg.toHubConfig s.hub.log (s.clients c).reducer.lastSeq m
  | _ => True

theorem resumes_buildSnapshot (cfg : HubConfig) (hub : Hub κ) {s : ChannelReducerState}
    (hw : Window hub.log s) (hfits : needsFullSnapshot hub.log.latestSeq (some s.lastSeq) = true ∨
      ∀ m, s.Follows m → ResyncFits cfg hub.log s.lastSeq m) :
    Resumes s (.snapshot (hub.buildSnapshot cfg (some s.lastSeq))) := by
  intro hmode
  have hneeds : needsFullSnapshot hub.log.latestSeq (some s.lastSeq) = false := by
    change (snapshotRows cfg hub.log (some s.lastSeq)).mode = .catchup at hmode
    unfold snapshotRows at hmode
    dsimp only at hmode
    split at hmode
    · cases hmode
    · rename_i hneeds
      simpa using hneeds
  refine ⟨fun m hm => lt_of_mem_messages_buildSnapshot cfg hub hneeds hm, fun m hm => ?_⟩
  have hfit := (hfits.resolve_left (by simp [hneeds])) m hm
  obtain ⟨hheld, hstreaming, -, -⟩ := hm
  obtain ⟨r, hr, hid, hseq, hsame⟩ := hw.versions m hheld
  refine (exists_replacement_iff cfg hub hneeds hr hid hseq (hw.seq_le m hheld)).mpr ⟨?_, hfit⟩
  by_contra hplain
  have he := hsame (by simpa using hplain)
  exact hplain (isResyncRow_of_streaming hub.log hr (he ▸ hstreaming))

/-- The invariant of runs that meet the condition. -/
structure AgreementInv (o : Observed κ) : Prop where
  coherent : o.session.Coherent
  streams : StreamsOk o.flushedAt o.session.hub
  clients : ∀ c, StreamClientInv o.flushedAt o.session.hub.log (o.session.clients c).reducer
    (o.session.hub.sinks c)

theorem agreementInv_start : AgreementInv (Observed.start : Observed κ) where
  coherent := coherent_start
  streams := streamsOk_start
  clients := fun _ =>
    { rows := rowsOk_initial _ _
      sent := fun _ hf => absurd hf not_mem_nil
      resumes := fun _ hf => absurd hf not_mem_nil
      first := List.Pairwise.nil
      held := fun _ hm => absurd hm not_mem_nil
      order := List.Pairwise.nil }

variable {op : SessionOp κ} {cfg : SessionConfig} {o : Observed κ}

section Steps

variable [DecidableEq κ]

/-- Operations on streams leave a client alone, unless it reads a frame. -/
theorem reducer_of_onStreams (cfg : SessionConfig) (s : Session κ)
    (hop : op.OnStreams) {c : κ} (hne : op ≠ .receive c) :
    ((s.step cfg op).clients c).reducer = (s.clients c).reducer := by
  have hchange := clients_step cfg s op c
  generalize (s.step cfg op).clients c = client at hchange ⊢
  cases hchange with
  | unchanged => rfl
  | read => exact absurd rfl hne
  | request | serve | land | fail => exact absurd hop id

theorem resumes_snapshotFor {s : Session κ} {c : κ}
    (hw : Window s.hub.log (s.clients c).reducer) {resume : Bool}
    {flushProbes : ChannelMessageId → κ → Probe} {probe : Probe} {queueProbes : ℕ → Probe}
    (hguard : ResumesFully cfg s (.subscribe c resume flushProbes probe queueProbes)) :
    Resumes (s.clients c).reducer (.snapshot (s.snapshotFor cfg c resume flushProbes)) := by
  have hlog := (preparedFor_spec cfg.toHubConfig s.hub c flushProbes).1
  cases resume with
  | false => exact fun hmode => (nomatch hmode)
  | true =>
    apply resumes_buildSnapshot
    · rw [hlog]
      exact hw
    · rw [hlog]
      exact hguard

/-- **Step**: an operation on streams that meets the condition keeps every client in agreement. -/
theorem agreementInv_step (cfg : SessionConfig) (ho : AgreementInv o) (hop : op.OnStreams)
    (hguard : ResumesFully cfg o.session op) :
    AgreementInv (o.step cfg op) := by
  have hstreams := streamsOk_step cfg ho.streams hop
  have hcoherent := coherent_step cfg ho.coherent op
  refine ⟨hcoherent, hstreams, fun c => ?_⟩
  have hinv := (ho.clients c).grow (flushedGrows_step cfg o hop)
  have hw := hcoherent.windows c
  by_cases hc : op = .receive c
  · subst hc
    cases hframes : o.session.hub.sinks c with
    | nil =>
      have hsame := step_receive_of_nil cfg hframes
      show StreamClientInv _ (o.session.step cfg _).hub.log
        ((o.session.step cfg _).clients c).reducer ((o.session.step cfg _).hub.sinks c)
      rw [hsame, hframes]
      have hkept := hinv
      change StreamClientInv _ (o.session.step cfg _).hub.log _ _ at hkept
      rw [hsame, hframes] at hkept
      exact hkept
    | cons frame rest =>
      obtain ⟨hlog, hsinks, hclient⟩ := step_receive_of_cons cfg hframes
      show StreamClientInv _ (o.session.step cfg _).hub.log
        ((o.session.step cfg _).clients c).reducer ((o.session.step cfg _).hub.sinks c)
      change StreamClientInv _ (o.session.step cfg _).hub.log _ _ at hinv
      rw [hsinks, hclient]
      rw [hframes] at hinv
      have hwindow := ho.coherent.windows c
      have he := ho.coherent.frames c frame (hframes ▸ mem_cons_self)
      rw [← hlog] at hwindow he
      exact streamClientInv_receive hinv hwindow he
  · have hreducer := reducer_of_onStreams cfg o.session hop hc
    show StreamClientInv _ (o.session.step cfg op).hub.log
      ((o.session.step cfg op).clients c).reducer ((o.session.step cfg op).hub.sinks c)
    rw [hreducer]
    change Window (o.session.step cfg op).hub.log ((o.session.step cfg op).clients c).reducer at hw
    rw [hreducer] at hw
    have hchange := sinks_step cfg o.session op c
    generalize (o.session.step cfg op).hub.sinks c = frames' at hchange ⊢
    generalize o.session.hub.sinks c = frames at hchange hinv
    cases hchange with
    | live new hnew hemits =>
      subst hnew
      have hplain : ∀ f ∈ new, f.isSnapshot = false :=
        fun f hf => (hemits f hf).isSnapshot_eq_false
      exact hinv.append hw (hinv.first.append hplain)
        (fun f hf => resumes_of_not_snapshot (hplain f hf))
        fun f hf => frameOk_of_emits ho.streams hop (hemits f hf)
    | read => exact absurd rfl hc
    | connect _ hnew hfirst =>
      refine hinv.drop.append hw hfirst (fun f hf => ?_) (fun f hf => ?_)
      · rcases hnew f hf with rfl | hemits
        · exact resumes_snapshotFor (ho.coherent.windows c) hguard
        · exact resumes_of_not_snapshot hemits.isSnapshot_eq_false
      · rcases hnew f hf with rfl | hemits
        · exact frameOk_snapshotFor ho.streams c _ _ _ _
        · exact frameOk_of_emits ho.streams hop hemits
    | drop => exact hinv.drop

/-- What a client shows of the streams, against what the hub has flushed. -/
def TextAgrees (o : Observed κ) (c : κ) : Prop :=
  ∀ m ∈ (o.session.clients c).reducer.messages,
    (m.status = .streaming → (o.session.clients c).reducer.quarantined m.id = false →
      o.flushedAt m.id (((o.session.clients c).reducer.inFlightDelta m.id).getD (-1)) =
        some m.text) ∧
    (m.status ≠ .streaming → o.session.hub.log.getMessage m.id = some m)

/-- A completed row that the client reads and holds is from then on the durable one. -/
def CompletionShown (cfg : SessionConfig) (o : Observed κ) (c : κ) : Prop :=
  ∀ message rest, o.session.hub.sinks c = .messageCompleted message :: rest →
    ∀ m ∈ (o.session.clients c).reducer.messages, m.id = message.id →
      message ∈ ((o.step cfg (.receive c)).session.clients c).reducer.messages ∧
        message.status ≠ .streaming ∧
        (o.step cfg (.receive c)).session.hub.log.getMessage message.id = some message

omit [DecidableEq κ] in
theorem textAgrees_of_inv (ho : AgreementInv o) (c : κ) : TextAgrees o c := by
  intro m hm
  have hw := ho.coherent.windows c
  have hentry := (ho.clients c).rows m.id
  unfold ChannelReducerState.entry at hentry
  rw [hw.byId_of_mem hm] at hentry
  refine ⟨hentry.1, fun hfinal => ?_⟩
  exact o.session.hub.log.getMessage_of_mem (hentry.2 hfinal)

theorem completionShown_of_inv (cfg : SessionConfig) (ho : AgreementInv o) (c : κ) :
    CompletionShown cfg o c := by
  intro message rest hframes m hm hid
  obtain ⟨hlog, -, hclient⟩ := step_receive_of_cons cfg hframes
  have hframe := (ho.clients c).sent (.messageCompleted message) (hframes ▸ mem_cons_self)
  refine ⟨?_, hframe.1, ?_⟩
  · show message ∈ ((o.session.step cfg _).clients c).reducer.messages
    rw [hclient]
    show message ∈ (applyMessageCompleted _ message).messages
    rw [applyMessageCompleted, ← hid, (ho.coherent.windows c).byId_of_mem hm]
    exact mem_map.mpr ⟨m, hm, if_pos hid⟩
  · show (o.session.step cfg _).hub.log.getMessage message.id = some message
    rw [hlog]
    exact o.session.hub.log.getMessage_of_mem hframe.2

theorem closed_row_stays (cfg : SessionConfig) (ho : AgreementInv o) (hop : op.OnStreams) (c : κ)
    {m' : ChannelMessage}
    (hm : m ∈ (o.session.clients c).reducer.messages) (hfinal : m.status ≠ .streaming)
    (hm' : m' ∈ ((o.session.step cfg op).clients c).reducer.messages) (hid : m'.id = m.id) :
    m' = m := by
  have hw := ho.coherent.windows c
  have hinv := ho.clients c
  have hsame (h : m' ∈ (o.session.clients c).reducer.messages) : m' = m := by
    have hby := hw.byId_of_mem h
    rw [hid, hw.byId_of_mem hm] at hby
    exact (Option.some.inj hby).symm
  by_cases hc : op = .receive c
  · subst hc
    cases hframes : o.session.hub.sinks c with
    | nil =>
      rw [step_receive_of_nil cfg hframes] at hm'
      exact hsame hm'
    | cons frame rest =>
      obtain ⟨-, -, hclient⟩ := step_receive_of_cons cfg hframes
      rw [hclient] at hm'
      have hframe : frame ∈ o.session.hub.sinks c := hframes ▸ mem_cons_self
      rcases mem_applyChannelEvent hw (ho.coherent.frames c frame hframe) hm' with
        h | h | ⟨-, existing, hexisting, heid, hstreaming⟩
      · exact hsame h
      · -- both are the durable row
        have hclosed := hinv.held m hm frame hframe hfinal m' h hid
        exact o.session.hub.log.eq_of_id_eq ((hinv.sent frame hframe).final_mem h hclosed)
          (hinv.rows.final_mem hw hm hfinal) hid
      · have hby := hw.byId_of_mem hexisting
        rw [heid, hid, hw.byId_of_mem hm] at hby
        rw [Option.some.inj hby] at hfinal
        exact absurd hstreaming hfinal
  · rw [reducer_of_onStreams cfg _ hop hc] at hm'
    exact hsame hm'

/-- **Runs**: the condition keeps every client in agreement. -/
theorem agreementInv_exec {ops : List (SessionOp κ)} (hops : ∀ op ∈ ops, op.OnStreams)
    (hguard : Guarded (Observed.step cfg) (fun o op => ResumesFully cfg o.session op)
      Observed.start ops) :
    AgreementInv (exec (Observed.step cfg) (Observed.start : Observed κ) ops) :=
  @exec_invariant_of_guarded _ _ (Observed.step cfg)
    (fun o op => op.OnStreams ∧ ResumesFully cfg o.session op) AgreementInv
    (fun _ _ ho hg => agreementInv_step cfg ho hg.1 hg.2) _ ops agreementInv_start
    (hguard.imp fun op hop _ hg => ⟨hops op hop, hg⟩)

/-- **Stream text agreement**: in every interleaving whose reconnects meet the condition, a
    client shows of every open stream what was flushed at the index it has recorded, of every
    closed one the durable row, and a closed row never changes again; a held row whose completion
    it reads is the durable one from then on. -/
theorem stream_text_agreement (cfg : SessionConfig) (ops : List (SessionOp κ))
    (hops : ∀ op ∈ ops, op.OnStreams)
    (hguard : Guarded (Observed.step cfg) (fun o op => ResumesFully cfg o.session op)
      Observed.start ops) (pre : List (SessionOp κ)) (hpre : pre <+: ops) (c : κ) :
    TextAgrees (exec (Observed.step cfg) Observed.start pre) c ∧
      CompletionShown cfg (exec (Observed.step cfg) Observed.start pre) c ∧
      ∀ op, pre ++ [op] <+: ops →
        ∀ m ∈ ((exec (Observed.step cfg) Observed.start pre).session.clients c).reducer.messages,
        ∀ m' ∈ ((exec (Observed.step cfg) Observed.start
          (pre ++ [op])).session.clients c).reducer.messages,
          m.status ≠ .streaming → m'.id = m.id → m' = m := by
  have hinv := agreementInv_exec (fun op hop => hops op (hpre.subset hop)) (hguard.of_prefix hpre)
  refine ⟨textAgrees_of_inv hinv c, completionShown_of_inv cfg hinv c, fun op hop m hm m' hm' hfinal hid => ?_⟩
  rw [exec_append] at hm'
  exact closed_row_stays cfg hinv (hops op (hop.subset (by simp))) c hm hfinal hm' hid

end Steps

/-! ## A stream that is held and one that is lost -/

def twoRowServer : SessionConfig where
  snapshotMaxBytes := 4
  connectQueueMaxEvents := 100
  connectQueueMaxBytes := 100
  rowBytes := fun _ => 1
  runBytes := fun _ => 1
  eventBytes := fun _ => 1
  historyMaxBytes := 100

/-- A client that has read the first delta of a stream goes away. -/
def followedAndLeft : List (SessionOp Unit) :=
  [.beginStream 0 { id := "stream", sender := ⟨.agent, "claude"⟩, runtimeId := "runtime" }
      (fun _ => {}),
    .subscribe () false (fun _ _ => {}) {} (fun _ => {}), .receive (),
    .pushDelta "stream" "hello", .flush "stream" (fun _ => {}), .receive (),
    .disconnect ()]

def comesBack : List (SessionOp Unit) :=
  [.subscribe () true (fun _ _ => {}) {} (fun _ => {}), .receive ()]

def streamWentOn : List (SessionOp Unit) :=
  followedAndLeft ++ [.pushDelta "stream" " there"] ++ comesBack

theorem stream_text_agreement_of_streamWentOn :
    TextAgrees (exec (Observed.step twoRowServer) Observed.start streamWentOn) () ∧
      CompletionShown twoRowServer (exec (Observed.step twoRowServer) Observed.start
        streamWentOn) () ∧
      ∀ op, streamWentOn ++ [op] <+: streamWentOn →
        ∀ m ∈ ((exec (Observed.step twoRowServer) Observed.start
          streamWentOn).session.clients ()).reducer.messages,
        ∀ m' ∈ ((exec (Observed.step twoRowServer) Observed.start
          (streamWentOn ++ [op])).session.clients ()).reducer.messages,
          m.status ≠ .streaming → m'.id = m.id → m' = m := by
  refine stream_text_agreement twoRowServer streamWentOn ?_ ?_ streamWentOn prefix_rfl ()
  · intro op hop
    simp only [streamWentOn, followedAndLeft, comesBack, cons_append, nil_append,
      mem_cons, not_mem_nil, or_false] at hop
    rcases hop with rfl | rfl | rfl | rfl | rfl | rfl | rfl | rfl | rfl | rfl <;> trivial
  · refine ⟨trivial, trivial, trivial, trivial, trivial, trivial, trivial, trivial, ?_, trivial,
      trivial⟩
    refine .inr fun m hm => ?_
    have hfits : ∀ m ∈ ((exec (Observed.step twoRowServer) Observed.start (followedAndLeft ++
        [.pushDelta "stream" " there"])).session.clients ()).reducer.messages,
        ResyncFits twoRowServer.toHubConfig (exec (Observed.step twoRowServer) Observed.start
          (followedAndLeft ++ [.pushDelta "stream" " there"])).session.hub.log 1 m := by
      decide
    exact hfits m hm.1

/-- While it was away, two rows took the whole budget of a snapshot. -/
def budgetSpent : List (SessionOp Unit) :=
  followedAndLeft ++
    [.post 0 { id := "first", sender := ⟨.human, "operator"⟩, text := "large" } (fun _ => {}),
      .post 0 { id := "second", sender := ⟨.human, "operator"⟩, text := "large" } (fun _ => {})] ++
    comesBack

/-- **Lost cursor**: the row still shows its delta, the client has no index for it any more. -/
theorem stream_text_agreement_fails_on_spent_budget :
    (∀ op ∈ budgetSpent, op.OnStreams) ∧
      ¬ ∀ pre, pre <+: budgetSpent → ∀ c,
        TextAgrees (exec (Observed.step twoRowServer) Observed.start pre) c := by
  refine ⟨fun op hop => ?_, fun h => ?_⟩
  · simp only [budgetSpent, followedAndLeft, comesBack, cons_append, nil_append,
      mem_cons, not_mem_nil, or_false] at hop
    rcases hop with rfl | rfl | rfl | rfl | rfl | rfl | rfl | rfl | rfl | rfl | rfl <;> trivial
  · have hagrees := h budgetSpent prefix_rfl ()
    obtain ⟨m, hm, hstreaming, hlive, hne⟩ : ∃ m ∈ ((exec (Observed.step twoRowServer)
        Observed.start budgetSpent).session.clients ()).reducer.messages,
        m.status = .streaming ∧
        ((exec (Observed.step twoRowServer) Observed.start
          budgetSpent).session.clients ()).reducer.quarantined m.id = false ∧
        (exec (Observed.step twoRowServer) Observed.start budgetSpent).flushedAt m.id
          ((((exec (Observed.step twoRowServer) Observed.start
            budgetSpent).session.clients ()).reducer.inFlightDelta m.id).getD (-1)) ≠
          some m.text := by
      decide
    exact hne ((hagrees m hm).1 hstreaming hlive)

end RelayIde.Channel
