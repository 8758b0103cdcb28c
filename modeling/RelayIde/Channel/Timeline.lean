import RelayIde.Channel.Session

/-!
# Timelines Without Silent Gaps

What a client may skip: nothing.  Every writer of the held rows (full snapshot, catch-up
snapshot, live append, history page) keeps them one piece of the log that ends at the cursor,
with one exception, a history page that lands after the window it was requested for is gone.

- `noSilentGap_iff` — no gap, exactly in the runs whose pages adjoin
-/

namespace RelayIde.Channel

open RelayIde.Library MessageLog List Function

/-! ## One piece of the log -/

/-- The held rows are a piece of the log that ends at the cursor. -/
structure Contiguous (s : ChannelReducerState) : Prop where
  spans : ∃ base ≤ s.lastSeq, Spans ChannelMessage.seq base s.lastSeq s.messages
  /-- Nothing held is nothing announced. -/
  start : s.messages = [] → s.lastSeq = 0

theorem contiguous_initial : Contiguous initialChannelReducerState :=
  ⟨⟨0, le_rfl, by simp [initialChannelReducerState]⟩, fun _ => rfl⟩

variable {log : MessageLog} {s : ChannelReducerState} {page : List ChannelMessage}

theorem Contiguous.congr {s' : ChannelReducerState} (h : Contiguous s)
    (hw : Window log s) (hw' : Window log s') (hholds : ∀ id, s'.Holds id ↔ s.Holds id)
    (hlast : s'.lastSeq = s.lastSeq) : Contiguous s' := by
  refine ⟨?_, fun hnil => ?_⟩
  · obtain ⟨base, hbase, hspans⟩ := h.spans
    rw [hlast]
    exact ⟨base, hbase, hspans.congr (hw.seqs_congr hw' hholds)⟩
  · rw [hlast]
    apply h.start
    rw [eq_nil_iff_forall_not_mem]
    intro m hm
    obtain ⟨m', hm', -⟩ := (hw'.holds_iff m.id).mp
      ((hholds m.id).mpr ((hw.holds_iff m.id).mpr ⟨m, hm, rfl⟩))
    rw [hnil] at hm'
    exact absurd hm' not_mem_nil

/-- Events that neither add a row nor move the cursor. -/
def ChannelEvent.isPassive : ChannelEvent → Bool
  | .snapshot _ => false
  | .messageCreated _ => false
  | _ => true

theorem passive_applyMessageRewritten (s : ChannelReducerState) (message : ChannelMessage) :
    (applyMessageRewritten s message).lastSeq = s.lastSeq ∧
      ∀ id, (applyMessageRewritten s message).Holds id ↔ s.Holds id := by
  unfold applyMessageRewritten
  split
  · exact ⟨rfl, fun _ => Iff.rfl⟩
  · rename_i existing hby
    repeat' split
    · exact ⟨rfl, fun _ => Iff.rfl⟩
    · exact ⟨rfl, fun _ => Iff.rfl⟩
    · exact ⟨rfl, holds_replace hby⟩

variable {e f : ChannelEvent} {event : ChannelSnapshotEvent} {beforeSeq lastSeq : ℕ}
  {cfg : SessionConfig}

theorem passive_applyChannelEvent (hw : Window log s) (he : e.isPassive = true) :
    (applyChannelEvent s e).lastSeq = s.lastSeq ∧
      ∀ id, (applyChannelEvent s e).Holds id ↔ s.Holds id := by
  cases e with
  | snapshot event | messageCreated message => cases he
  | messageDelta id deltaIndex text =>
    show (applyMessageDelta s id deltaIndex text).lastSeq = _ ∧
      ∀ id', (applyMessageDelta s id deltaIndex text).Holds id' ↔ _
    unfold applyMessageDelta
    split
    · exact ⟨rfl, fun _ => Iff.rfl⟩
    · rename_i existing hby
      repeat' split
      · exact ⟨rfl, fun _ => Iff.rfl⟩
      · exact ⟨rfl, fun _ => Iff.rfl⟩
      · exact ⟨rfl, fun _ => Iff.rfl⟩
      · have hheld : s.byId existing.id = some existing := by
          rw [hw.id_of_byId hby]
          exact hby
        exact ⟨rfl, holds_replace hheld⟩
  | messageUpdated message =>
    show (applyMessageUpdated s message).lastSeq = _ ∧
      ∀ id, (applyMessageUpdated s message).Holds id ↔ _
    unfold applyMessageUpdated
    split
    · exact ⟨rfl, fun _ => Iff.rfl⟩
    · rename_i existing hby
      repeat' split
      · exact ⟨rfl, fun _ => Iff.rfl⟩
      · exact ⟨rfl, fun _ => Iff.rfl⟩
      · exact ⟨rfl, holds_replace hby⟩
  | messageCompleted message =>
    show (applyMessageCompleted s message).lastSeq = _ ∧
      ∀ id, (applyMessageCompleted s message).Holds id ↔ _
    unfold applyMessageCompleted
    split
    · exact ⟨rfl, fun _ => Iff.rfl⟩
    · rename_i existing hby
      exact ⟨rfl, holds_replace hby⟩
  | messageEdited message | messageDeleted message => exact passive_applyMessageRewritten s message
  | resyncRequired latestSeq | runLifecycle run | deliveryReceipt id =>
    exact ⟨rfl, fun _ => Iff.rfl⟩

/-! ## The writers of the held rows -/

theorem contiguous_applyMessageCreated
    (h : Contiguous s) (hw : Window log s) (message : ChannelMessage) :
    Contiguous (applyMessageCreated s message) ∧
      s.lastSeq ≤ (applyMessageCreated s message).lastSeq := by
  unfold applyMessageCreated
  split
  · exact ⟨h, le_rfl⟩
  · rename_i hnew
    split
    · exact ⟨h, le_rfl⟩
    · split
      · exact ⟨h.congr hw (hw.congr rfl rfl rfl) (fun _ => Iff.rfl) rfl, le_rfl⟩
      · rename_i hlow hgap
        have hmem (m : ChannelMessage) :
            m ∈ sortedInsert s.messages message ↔ m = message ∨ m ∈ s.messages := by
          rw [mem_sortedInsert]
          refine or_congr_right (and_iff_left_of_imp fun hm hid => hnew ?_)
          exact (hw.holds_iff message.id).mpr ⟨m, hm, hid⟩
        obtain ⟨base, hbase, hspans⟩ := h.spans
        refine ⟨⟨⟨base, ?_, ?_⟩, fun hnil => ?_⟩, ?_⟩
        · show base ≤ message.seq
          omega
        · show Spans ChannelMessage.seq base message.seq (sortedInsert s.messages message)
          intro q
          have hq := hspans q
          simp only [hmem, or_and_right, exists_or, exists_eq_left, hq]
          omega
        · have hself : message ∈ sortedInsert s.messages message := (hmem _).mpr (.inl rfl)
          change sortedInsert s.messages message = [] at hnil
          rw [hnil] at hself
          exact absurd hself not_mem_nil
        · show s.lastSeq ≤ message.seq
          omega

/-- A snapshot on its way meets the window it will find. -/
def SnapshotAdjoins (lastSeq : ℕ) (event : ChannelSnapshotEvent) : Prop :=
  match event.mode with
  | .full => lastSeq ≤ event.latestSeq ∧
      (∃ base ≤ event.latestSeq, Spans ChannelMessage.seq base event.latestSeq event.messages) ∧
      (event.messages = [] → event.latestSeq = 0)
  | .catchup => ∃ since ≤ lastSeq, Spans ChannelMessage.seq since event.latestSeq event.messages

theorem contiguous_applyFullSnapshot
    (hranked : Ranked ChannelMessage.seq event.messages) (hmode : event.mode = .full)
    (hadj : SnapshotAdjoins s.lastSeq event) : Contiguous (applyFullSnapshot s event) := by
  unfold SnapshotAdjoins at hadj
  rw [hmode] at hadj
  obtain ⟨-, ⟨base, hbase, hspans⟩, hnil⟩ := hadj
  refine ⟨⟨base, hbase, ?_⟩, ?_⟩
  · rw [messages_applyFullSnapshot hranked]
    exact hspans
  · rw [messages_applyFullSnapshot hranked]
    exact hnil

theorem spans_mergeCatchup {base since : ℕ}
    (hw : Window log s) (he : EventOf log (.snapshot event))
    (hbase : base ≤ s.lastSeq) (hspans : Spans ChannelMessage.seq base s.lastSeq s.messages)
    (hsince : since ≤ s.lastSeq)
    (hfresh : Spans ChannelMessage.seq since event.latestSeq event.messages) :
    Spans ChannelMessage.seq base (max s.lastSeq event.latestSeq)
    (mergeCatchup s event).messages := by
  intro q
  constructor
  · rintro ⟨m, hm, rfl⟩
    rcases (mem_mergeCatchup he).mp hm with hm | ⟨hm, -⟩
    · obtain ⟨hm, hheld | hnew⟩ := (mem_catchupRows he.2.1).mp hm
      · obtain ⟨m', hm', hid⟩ := (hw.holds_iff _).mp hheld
        have hseq := ((hw.versions m' hm').id_eq_iff (he.1 m hm).1).mp hid
        rw [← hseq]
        exact ⟨hspans.lt hm', (hspans.le hm').trans (le_max_left _ _)⟩
      · exact ⟨hbase.trans_lt hnew, (hfresh.le hm).trans (le_max_right _ _)⟩
    · exact ⟨hspans.lt hm, (hspans.le hm).trans (le_max_left _ _)⟩
  · rintro ⟨hlo, hhi⟩
    by_cases hq : q ≤ s.lastSeq
    · -- a row held before the merge is held after it
      obtain ⟨m, hm, rfl⟩ := hspans.exists_mem hlo hq
      have hheld := (existing_mergeCatchup hw he).held m.id m (hw.byId_of_mem hm)
      obtain ⟨m', hm', hid⟩ := ((window_mergeCatchup hw he).holds_iff _).mp hheld
      exact ⟨m', hm',
        (((window_mergeCatchup hw he).versions m' hm').id_eq_iff (hw.versions m hm)).mp hid⟩
    · obtain ⟨m, hm, rfl⟩ := hfresh.exists_mem (by omega : since < q) (by omega)
      refine ⟨m, (mem_mergeCatchup he).mpr (.inl ?_), rfl⟩
      exact (mem_catchupRows he.2.1).mpr ⟨hm, .inr (by omega)⟩

theorem contiguous_applyCatchupSnapshot (h : Contiguous s) (hw : Window log s)
    (he : EventOf log (.snapshot event)) (hmode : event.mode = .catchup)
    (hadj : SnapshotAdjoins s.lastSeq event) : Contiguous (applyCatchupSnapshot s event) := by
  unfold SnapshotAdjoins at hadj
  rw [hmode] at hadj
  obtain ⟨since, hsince, hfresh⟩ := hadj
  obtain ⟨base, hbase, hspans⟩ := h.spans
  have hmerged := spans_mergeCatchup hw he hbase hspans hsince hfresh
  have hfinal : Contiguous (mergeCatchup s event) := by
    refine ⟨⟨base, le_max_of_le_left hbase, hmerged⟩, fun hnil => ?_⟩
    rw [hnil, spans_nil_iff] at hmerged
    have hlast : s.lastSeq = 0 := by
      apply h.start
      by_contra hne
      obtain ⟨m, hm⟩ := exists_mem_of_ne_nil _ hne
      have hlt := hspans.lt hm
      have hle := hspans.le hm
      omega
    show max s.lastSeq event.latestSeq = 0
    omega
  obtain ⟨hw', hholds⟩ := window_applyCatchupSnapshot hw he
  exact hfinal.congr (window_mergeCatchup hw he) hw' hholds (lastSeq_applyCatchupSnapshot s event)

theorem lastSeq_mergeHistoryPage (hw : Window log s)
    {page : List ChannelMessage} (hpage : PageOf log page) (hle : ∀ m ∈ page, m.seq ≤ s.lastSeq) :
    (mergeHistoryPage s page).lastSeq = s.lastSeq := by
  have hmem (m : ChannelMessage) := mem_mergeHistoryPage (s := s) (m := m)
    (ids_nodup hpage.1 hpage.2) hpage.2
  unfold mergeHistoryPage at hmem ⊢
  split
  · rfl
  · rename_i hne
    rw [if_neg hne] at hmem
    apply max_eq_left
    split
    · rename_i last hlast
      rcases (hmem last).mp (mem_of_getLast? hlast) with hm | ⟨hm, -⟩
      · exact hle last hm
      · exact hw.seq_le last hm
    · exact le_rfl

/-- The numbers held after a page are those of the page and those held before. -/
theorem seqs_mergeHistoryPage (hw : Window log s)
    {page : List ChannelMessage} (hpage : PageOf log page) (q : ℕ) :
    (∃ m ∈ (mergeHistoryPage s page).messages, m.seq = q) ↔
      (∃ m ∈ page, m.seq = q) ∨ ∃ m ∈ s.messages, m.seq = q := by
  have hmem (m : ChannelMessage) := mem_mergeHistoryPage (s := s) (m := m)
    (ids_nodup hpage.1 hpage.2) hpage.2
  simp only [hmem]
  constructor
  · rintro ⟨m, hm | ⟨hm, -⟩, rfl⟩
    · exact .inl ⟨m, hm, rfl⟩
    · exact .inr ⟨m, hm, rfl⟩
  · rintro (⟨m, hm, rfl⟩ | ⟨m, hm, rfl⟩)
    · exact ⟨m, .inl hm, rfl⟩
    · by_cases hfresh : ∃ r ∈ page, r.id = m.id
      · obtain ⟨r, hr, hid⟩ := hfresh
        exact ⟨r, .inl hr, ((hpage.1 r hr).id_eq_iff (hw.versions m hm)).mp hid⟩
      · push Not at hfresh
        exact ⟨m, .inr ⟨hm, hfresh⟩, rfl⟩

/-- Where a page may land: at the top of the held window, or inside it. -/
def LandsOn (s : ChannelReducerState) (beforeSeq : ℕ) (page : List ChannelMessage) : Prop :=
  page = [] ∨ ∀ first ∈ s.messages.head?, first.seq ≤ beforeSeq

/-- What a page requested with `beforeSeq` is. -/
structure PageBelow (log : MessageLog) (lastSeq beforeSeq : ℕ) (page : List ChannelMessage) :
    Prop where
  pageOf : PageOf log page
  pos : 0 < beforeSeq
  le_lastSeq : beforeSeq ≤ lastSeq
  spans : ∃ base ≤ beforeSeq - 1, Spans ChannelMessage.seq base (beforeSeq - 1) page

theorem contiguous_mergeHistoryPage
    (h : Contiguous s) (hw : Window log s) {page : List ChannelMessage}
    (hpage : PageBelow log s.lastSeq beforeSeq page) (hlands : LandsOn s beforeSeq page) :
    Contiguous (mergeHistoryPage s page) ∧ (mergeHistoryPage s page).lastSeq = s.lastSeq := by
  obtain ⟨top, htop, hbelow⟩ := hpage.spans
  obtain ⟨base, hbase, hspans⟩ := h.spans
  have hpos := hpage.pos
  have hle := hpage.le_lastSeq
  have hlast := lastSeq_mergeHistoryPage hw hpage.pageOf fun m hm => by
    have := hbelow.le hm
    omega
  refine ⟨?_, hlast⟩
  rcases hlands with rfl | hfirst
  · exact h
  · obtain ⟨first, hhead⟩ : ∃ first, s.messages.head? = some first := by
      rw [← Option.isSome_iff_exists, isSome_head?]
      intro hnil
      have hzero := h.start hnil
      omega
    have hmem : first ∈ s.messages := mem_of_head? hhead
    have hadj : base ≤ beforeSeq - 1 := by
      have hlt := hspans.lt hmem
      have := hfirst first hhead
      omega
    refine ⟨⟨min top base, ?_, ?_⟩, fun hnil => ?_⟩
    · rw [hlast]
      exact (min_le_right _ _).trans hbase
    · rw [hlast]
      exact hbelow.union hspans hadj (by omega) (seqs_mergeHistoryPage hw hpage.pageOf)
    · obtain ⟨m, hm, -⟩ := (seqs_mergeHistoryPage hw hpage.pageOf first.seq).mpr
        (.inr ⟨first, hmem, rfl⟩)
      rw [hnil] at hm
      exact absurd hm not_mem_nil

/-! ## No silent gap -/

/-- The held rows ascend with distinct ids, the index agrees with them, and no message of the
    log is missing between the earliest held one and the cursor. -/
structure NoSilentGap (log : MessageLog) (s : ChannelReducerState) : Prop where
  ascending : s.messages.Pairwise fun a b => a.seq < b.seq
  unique : (s.messages.map (·.id)).Nodup
  byId_iff : ∀ id m, s.byId id = some m ↔ m ∈ s.messages ∧ m.id = id
  held : ∀ m ∈ s.messages, m.seq ≤ s.lastSeq ∧ ∃ r ∈ log.rows, r.id = m.id ∧ r.seq = m.seq
  contiguous : ∀ first ∈ s.messages.head?, ∀ r ∈ log.rows, first.seq ≤ r.seq →
    r.seq ≤ s.lastSeq → ∃ m ∈ s.messages, m.id = r.id

theorem noSilentGap_of_contiguous (h : Contiguous s) (hw : Window log s) : NoSilentGap log s where
  ascending := hw.ranked
  unique := hw.ids_nodup
  byId_iff := hw.byId_iff
  held := by
    intro m hm
    obtain ⟨r, hr, hid, hseq, -⟩ := hw.versions m hm
    exact ⟨hw.seq_le m hm, r, hr, hid, hseq⟩
  contiguous := by
    intro first hfirst r hr hlo hhi
    obtain ⟨base, -, hspans⟩ := h.spans
    have hlt := hspans.lt (mem_of_head? hfirst)
    obtain ⟨m, hm, hseq⟩ := hspans.exists_mem (hlt.trans_le hlo) hhi
    exact ⟨m, hm, ((hw.versions m hm).id_eq_iff (log.versionOf_of_mem hr)).mpr hseq⟩

theorem landsOn_of_noSilentGap (hw : Window log s) {page : List ChannelMessage}
    (hpage : PageBelow log s.lastSeq beforeSeq page)
    (hgap : NoSilentGap log (mergeHistoryPage s page)) : LandsOn s beforeSeq page := by
  by_contra hnot
  unfold LandsOn at hnot
  push Not at hnot
  obtain ⟨hne, first, hfirst, hover⟩ := hnot
  obtain ⟨top, -, hbelow⟩ := hpage.spans
  have hpos := hpage.pos
  have hle := hpage.le_lastSeq
  have hlast := lastSeq_mergeHistoryPage hw hpage.pageOf fun m hm => by
    have := hbelow.le hm
    omega
  have hw' := window_mergeHistoryPage hw hpage.pageOf.1 hpage.pageOf.2
  -- the row at the cursor of the request is in the log, and between page and window
  obtain ⟨r, hr, hseq⟩ := log.dense.exists_mem hpos (hle.trans hw.lastSeq_le)
  obtain ⟨low, hlow⟩ := exists_mem_of_ne_nil _ hne
  obtain ⟨low', hlow', hlowseq⟩ := (seqs_mergeHistoryPage hw hpage.pageOf low.seq).mpr
    (.inl ⟨low, hlow, rfl⟩)
  obtain ⟨head, hhead⟩ : ∃ head, (mergeHistoryPage s page).messages.head? = some head := by
    rw [← Option.isSome_iff_exists, isSome_head?]
    exact ne_nil_of_mem hlow'
  have hheadle := hw'.ranked.head?_le hhead hlow'
  have hlowle := hbelow.le hlow
  obtain ⟨m, hm, hid⟩ := hgap.contiguous head hhead r hr (by omega) (by omega)
  have hmseq := ((hw'.versions m hm).id_eq_iff (log.versionOf_of_mem hr)).mp hid
  rcases (seqs_mergeHistoryPage hw hpage.pageOf m.seq).mp ⟨m, hm, rfl⟩ with
    ⟨m', hm', hseq'⟩ | ⟨m', hm', hseq'⟩
  · have := hbelow.le hm'
    omega
  · have := hw.ranked.head?_le hfirst hm'
    omega

/-! ## Frames on their way -/

/-- What a frame on its way needs of the window it will find. -/
def Adjoins (lastSeq : ℕ) : ChannelEvent → Prop
  | .snapshot event => SnapshotAdjoins lastSeq event
  | _ => True

theorem adjoins_of_not_snapshot (h : f.isSnapshot = false) : Adjoins lastSeq f := by
  cases f with
  | snapshot event => cases h
  | _ => trivial

theorem isPassive_of_isNotice (h : f.isNotice = true) : f.isPassive = true := by
  cases f with
  | resyncRequired latestSeq => rfl
  | _ => cases h

/-- **Frames**: the next frame keeps a window contiguous, and the frames behind it adjoin. -/
theorem contiguous_applyChannelEvent (h : Contiguous s) (hw : Window log s) (he : EventOf log e)
    (hadj : Adjoins s.lastSeq e) :
    Contiguous (applyChannelEvent s e) ∧ s.lastSeq ≤ (applyChannelEvent s e).lastSeq := by
  by_cases hpassive : e.isPassive = true
  · obtain ⟨hlast, hholds⟩ := passive_applyChannelEvent hw hpassive
    exact ⟨h.congr hw (window_applyChannelEvent hw he) hholds hlast, hlast.ge⟩
  · cases e with
    | snapshot event =>
      show Contiguous (applySnapshot s event) ∧ s.lastSeq ≤ (applySnapshot s event).lastSeq
      unfold applySnapshot
      split
      · rename_i hmode
        refine ⟨contiguous_applyFullSnapshot he.2.1 hmode hadj, ?_⟩
        change SnapshotAdjoins s.lastSeq event at hadj
        unfold SnapshotAdjoins at hadj
        rw [hmode] at hadj
        exact hadj.1
      · rename_i hmode
        refine ⟨contiguous_applyCatchupSnapshot h hw he hmode hadj, ?_⟩
        rw [lastSeq_applyCatchupSnapshot]
        exact le_max_left _ _
    | messageCreated message => exact contiguous_applyMessageCreated h hw message
    | _ => exact absurd rfl hpassive

theorem snapshotAdjoins_buildSnapshot {κ : Type} (cfg : HubConfig) (hub : Hub κ)
    (hlast : lastSeq ≤ hub.log.latestSeq) (resume : Bool) :
    SnapshotAdjoins lastSeq (hub.buildSnapshot cfg (if resume then some lastSeq else none)) := by
  have hmessages := messages_buildSnapshot cfg hub (if resume then some lastSeq else none)
  generalize hsince : (if resume then some lastSeq else none) = sinceSeq at hmessages ⊢
  have hlatest : (hub.buildSnapshot cfg sinceSeq).latestSeq =
    (snapshotRows cfg hub.log sinceSeq).snapshotLatestSeq := rfl
  have hmode : (hub.buildSnapshot cfg sinceSeq).mode =
    (snapshotRows cfg hub.log sinceSeq).mode := rfl
  unfold SnapshotAdjoins
  rw [hmode, hlatest, hmessages]
  rcases snapshotRows_cases cfg hub.log sinceSeq with h | ⟨since, hsome, hle, hgap, h⟩ <;> rw [h]
  · obtain ⟨-, base, hbase, hspans⟩ := fullSnapshotRows_spec cfg hub.log
    refine ⟨hlast, ⟨base, hbase, spans_materialize hspans _⟩, fun hnil => ?_⟩
    exact latestSeq_eq_zero_of_fullSnapshotRows cfg hub.log (map_eq_nil_iff.mp hnil)
  · obtain ⟨-, -, -, hspans⟩ := catchupSnapshotRows_spec cfg hub.log hle hgap
    refine ⟨since, ?_, spans_materialize hspans _⟩
    rw [hsome] at hsince
    split at hsince
    · exact (Option.some.inj hsince).ge
    · cases hsince

/-! ## Every interleaving -/

structure ClientInv (log : MessageLog) (client : ChannelClient) (frames : List ChannelEvent) :
    Prop where
  contiguous : Contiguous client.reducer
  adjoins : ∀ f ∈ frames, Adjoins client.reducer.lastSeq f
  first : SnapshotFirst frames
  requested : ∀ beforeSeq, client.olderPage = .requested beforeSeq →
    0 < beforeSeq ∧ beforeSeq ≤ client.reducer.lastSeq
  served : ∀ beforeSeq page, client.olderPage = .served beforeSeq page →
    PageBelow log client.reducer.lastSeq beforeSeq page

theorem PageBelow.advance {log' : MessageLog} {lastSeq' : ℕ}
    (h : PageBelow log lastSeq beforeSeq page)
    (hadv : log.Advances log') (hle : lastSeq ≤ lastSeq') :
    PageBelow log' lastSeq' beforeSeq page :=
  ⟨h.pageOf.advance hadv, h.pos, h.le_lastSeq.trans hle, h.spans⟩

theorem pageBelow_historyPageBefore (cfg : SessionConfig) {log : MessageLog} (hpos : 0 < beforeSeq)
    (hle : beforeSeq ≤ lastSeq)
    (hlast : lastSeq ≤ log.latestSeq) (limit : ℕ) :
    PageBelow log lastSeq beforeSeq (historyPageBefore cfg log beforeSeq limit) := by
  refine ⟨pageOf_historyPageBefore cfg log beforeSeq limit, hpos, hle, ?_⟩
  obtain ⟨front, hfront⟩ := historyPageBefore_suffix cfg log beforeSeq limit
  have hbelow : Spans ChannelMessage.seq 0 (beforeSeq - 1)
      (front ++ historyPageBefore cfg log beforeSeq limit) := by
    have hspans := log.dense.filter_lt beforeSeq
    have hmin : min (maxSeq log.messages.rows) (beforeSeq - 1) = beforeSeq - 1 := by
      change lastSeq ≤ maxSeq log.messages.rows at hlast
      omega
    rw [hmin] at hspans
    rw [hfront]
    exact hspans
  have hranked : Ranked ChannelMessage.seq
      (front ++ historyPageBefore cfg log beforeSeq limit) := by
    rw [hfront]
    exact log.ranked.filter _
  obtain ⟨mid, -, hmid, -, hspans⟩ := hbelow.split hranked (Nat.zero_le _)
  exact ⟨mid, hmid, hspans⟩

variable {κ : Type}

/-- The exact condition: a page lands only where it was requested, or inside the window. -/
def PageAdjoins (s : Session κ) : SessionOp κ → Prop
  | .landOlder c =>
    match (s.clients c).olderPage with
    | .served beforeSeq page => LandsOn (s.clients c).reducer beforeSeq page
    | _ => True
  | _ => True

/-- The invariant of guarded runs. -/
structure TimelineInv (s : Session κ) : Prop where
  coherent : s.Coherent
  clients : ∀ c, ClientInv s.hub.log (s.clients c) (s.hub.sinks c)

theorem timelineInv_start : TimelineInv (Session.start : Session κ) where
  coherent := coherent_start
  clients := fun _ =>
    { contiguous := contiguous_initial
      adjoins := fun _ hf => absurd hf not_mem_nil
      first := List.Pairwise.nil
      requested := fun _ h => (nomatch h)
      served := fun _ _ h => (nomatch h) }

variable {op : SessionOp κ} {client : ChannelClient} {frames : List ChannelEvent}

theorem clientInv_of_clientChange {s : Session κ} (hs : TimelineInv s) (hguard : PageAdjoins s op)
    {c : κ} (hop : op ≠ .receive c) (hchange : ClientChange cfg s c op client) :
    ClientInv s.hub.log client (s.hub.sinks c) ∧
      client.reducer.lastSeq = (s.clients c).reducer.lastSeq := by
  have hinv := hs.clients c
  have hw := hs.coherent.windows c
  cases hchange with
  | unchanged => exact ⟨hinv, rfl⟩
  | read => exact absurd rfl hop
  | request hidle hhead =>
    refine ⟨⟨hinv.contiguous, hinv.adjoins, hinv.first, ?_, fun _ _ h => (nomatch h)⟩, rfl⟩
    intro beforeSeq h
    cases h
    have hmem := mem_of_head? hhead
    exact ⟨(hw.versions _ hmem).seq_pos, hw.seq_le _ hmem⟩
  | serve hrequested =>
    refine ⟨⟨hinv.contiguous, hinv.adjoins, hinv.first, fun _ h => (nomatch h), ?_⟩, rfl⟩
    intro beforeSeq page h
    cases h
    obtain ⟨hpos, hle⟩ := hinv.requested _ hrequested
    exact pageBelow_historyPageBefore cfg hpos hle hw.lastSeq_le historyPageLimit
  | @land beforeSeq page hserved =>
    have hlands : LandsOn (s.clients c).reducer beforeSeq page := by
      simp only [PageAdjoins, hserved] at hguard
      exact hguard
    obtain ⟨hcontiguous, hlast⟩ :=
      contiguous_mergeHistoryPage hinv.contiguous hw (hinv.served _ _ hserved) hlands
    refine ⟨⟨hcontiguous, ?_, hinv.first, fun _ h => (nomatch h), fun _ _ h => (nomatch h)⟩, hlast⟩
    show ∀ f ∈ _, Adjoins (mergeHistoryPage _ _).lastSeq f
    rw [hlast]
    exact hinv.adjoins
  | fail =>
    exact ⟨⟨hinv.contiguous, hinv.adjoins, hinv.first, fun _ h => (nomatch h),
      fun _ _ h => (nomatch h)⟩, rfl⟩

section Steps

variable [DecidableEq κ]

/-- Frames arrive behind what is on its way, or start over with a snapshot. -/
theorem clientInv_of_sinkChange {s : Session κ} (hs : TimelineInv s) {c : κ} (hop : op ≠ .receive c)
    (hinv : ClientInv s.hub.log client (s.hub.sinks c))
    (hlast : client.reducer.lastSeq = (s.clients c).reducer.lastSeq)
    (hchange : SinkChange cfg s c op (s.hub.sinks c) frames) :
    ClientInv s.hub.log client frames := by
  generalize hold : s.hub.sinks c = old at hinv hchange
  cases hchange with
  | live new hnew hemits =>
    subst hnew
    refine ⟨hinv.contiguous, fun f hf => ?_, ?_, hinv.requested, hinv.served⟩
    · rcases mem_append.mp hf with hf | hf
      · exact hinv.adjoins f hf
      · exact adjoins_of_not_snapshot (hemits f hf).isSnapshot_eq_false
    · exact hinv.first.append fun f hf => (hemits f hf).isSnapshot_eq_false
  | read => exact absurd rfl hop
  | connect _ hnew hfirst =>
    have hw := hs.coherent.windows c
    refine ⟨hinv.contiguous, fun f hf => ?_, hfirst, hinv.requested, hinv.served⟩
    rcases hnew f hf with rfl | hemits
    · rw [hlast]
      refine snapshotAdjoins_buildSnapshot cfg.toHubConfig _ ?_ _
      rw [(preparedFor_spec cfg.toHubConfig s.hub c _).1]
      exact hw.lastSeq_le
    · exact adjoins_of_not_snapshot hemits.isSnapshot_eq_false
  | drop =>
    exact ⟨hinv.contiguous, fun f hf => absurd hf not_mem_nil, List.Pairwise.nil,
      hinv.requested, hinv.served⟩

theorem ClientInv.advance {log log' : MessageLog} (h : ClientInv log client frames)
    (hadv : log.Advances log') :
    ClientInv log' client frames :=
  ⟨h.contiguous, h.adjoins, h.first, h.requested,
    fun beforeSeq page hserved => (h.served beforeSeq page hserved).advance hadv le_rfl⟩

theorem clientInv_receive {log : MessageLog} {frame : ChannelEvent}
    {rest : List ChannelEvent} (h : ClientInv log client (frame :: rest))
    (hw : Window log client.reducer) (he : EventOf log frame) :
    ClientInv log { client with reducer := applyChannelEvent client.reducer frame } rest := by
  obtain ⟨hcontiguous, hlast⟩ := contiguous_applyChannelEvent h.contiguous hw he
    (h.adjoins frame mem_cons_self)
  refine ⟨hcontiguous, fun f hf => ?_, List.Pairwise.of_cons h.first, ?_, ?_⟩
  · show Adjoins (applyChannelEvent client.reducer frame).lastSeq f
    by_cases hsnap : f.isSnapshot = true
    · -- then the frame just read was passive
      have hpassive := isPassive_of_isNotice (rel_of_pairwise_cons h.first hf hsnap)
      rw [(passive_applyChannelEvent hw hpassive).1]
      exact h.adjoins f (mem_cons_of_mem _ hf)
    · exact adjoins_of_not_snapshot (by simpa using hsnap)
  · intro beforeSeq hrequested
    obtain ⟨hpos, hle⟩ := h.requested beforeSeq hrequested
    exact ⟨hpos, hle.trans hlast⟩
  · intro beforeSeq page hserved
    exact (h.served beforeSeq page hserved).advance (.refl log) hlast

/-- **Step**: an operation that meets the condition keeps every client contiguous. -/
theorem timelineInv_step (cfg : SessionConfig) {s : Session κ} (hs : TimelineInv s)
    (hguard : PageAdjoins s op) : TimelineInv (s.step cfg op) := by
  refine ⟨coherent_step cfg hs.coherent op, fun c => ?_⟩
  by_cases hop : op = .receive c
  · subst hop
    cases hframes : s.hub.sinks c with
    | nil =>
      rw [step_receive_of_nil cfg hframes]
      exact hs.clients c
    | cons frame rest =>
      obtain ⟨hlog, hsinks, hclients⟩ := step_receive_of_cons cfg hframes
      rw [hlog, hsinks, hclients]
      have hinv := hs.clients c
      have he := hs.coherent.frames c
      rw [hframes] at hinv he
      exact clientInv_receive hinv (hs.coherent.windows c) (he frame mem_cons_self)
  · obtain ⟨hinv, hlast⟩ := clientInv_of_clientChange hs hguard hop (clients_step cfg s op c)
    exact (clientInv_of_sinkChange hs hop hinv hlast (sinks_step cfg s op c)).advance
      (advances_step cfg s op)

/-- **Runs**: so does every guarded run. -/
theorem timelineInv_exec {ops : List (SessionOp κ)}
    (hops : Guarded (Session.step cfg) PageAdjoins Session.start ops) :
    TimelineInv (exec (Session.step cfg) Session.start ops) :=
  @exec_invariant_of_guarded _ _ _ PageAdjoins TimelineInv
    (fun _ _ hs hguard => timelineInv_step cfg hs hguard) _ ops timelineInv_start hops

/-- No client of the session has a silent gap. -/
def AllGapless (s : Session κ) : Prop :=
  ∀ c, NoSilentGap s.hub.log (s.clients c).reducer

theorem pageAdjoins_of_allGapless (cfg : SessionConfig) {s : Session κ} (hs : TimelineInv s)
    (h : AllGapless (s.step cfg op)) : PageAdjoins s op := by
  unfold PageAdjoins
  split
  · rename_i c
    split
    · rename_i beforeSeq page hserved
      have hgap := h c
      simp only [Session.step, hserved, Session.setClient, update_self] at hgap
      exact landsOn_of_noSilentGap (hs.coherent.windows c) ((hs.clients c).served _ _ hserved) hgap
    · trivial
  · trivial

/-- **No silent gap**: in every interleaving, the timelines stay free of gaps exactly as long as
    each history page lands on the window it was requested for, or inside a later one. -/
theorem noSilentGap_iff (cfg : SessionConfig) (ops : List (SessionOp κ)) :
    (∀ pre, pre <+: ops → ∀ c,
      NoSilentGap (exec (Session.step cfg) Session.start pre).hub.log
        ((exec (Session.step cfg) Session.start pre).clients c).reducer) ↔
      Guarded (Session.step cfg) PageAdjoins Session.start ops :=
  @forall_prefix_iff_guarded _ _ (Session.step cfg) PageAdjoins TimelineInv AllGapless
    (fun _ hs c => noSilentGap_of_contiguous (hs.clients c).contiguous (hs.coherent.windows c))
    (fun _ _ hs hguard => timelineInv_step cfg hs hguard)
    (fun _ _ hs h => pageAdjoins_of_allGapless cfg hs h) Session.start ops timelineInv_start

end Steps

/-! ## A page that lands late -/

/-- A server that bounds a snapshot to two units, a row counting one and its comma one. -/
def smallServer : SessionConfig where
  snapshotMaxBytes := 2
  connectQueueMaxEvents := 100
  connectQueueMaxBytes := 100
  rowBytes := fun _ => 1
  runBytes := fun _ => 1
  eventBytes := fun _ => 1
  historyMaxBytes := 100

/-- The `n`-th post of an operator. -/
def lateOp (n : ℕ) : SessionOp Unit :=
  .post 0
    { id := String.ofList (List.replicate n 'x')
      sender := ⟨.human, "operator"⟩
      text := "hello" }
    (fun _ => {})

/-- The posts from the `n`-th on. -/
def lateOps (n : ℕ) : ℕ → List (SessionOp Unit)
  | 0 => []
  | count + 1 => lateOp n :: lateOps (n + 1) count

/-- A client that holds the second of two rows asks for the first and goes away before the
    answer lands. -/
def beforeAway : List (SessionOp Unit) :=
  [lateOp 0, lateOp 1, .subscribe () false (fun _ _ => {}) {} (fun _ => {}), .receive (),
    .requestOlder (), .serveOlder (), .disconnect ()]

/-- It comes back too late for a catch-up. -/
def afterAway : List (SessionOp Unit) :=
  [.subscribe () true (fun _ _ => {}) {} (fun _ => {}), .receive ()]

/-- Nobody is connected, no stream is open, and the next post has a new id. -/
structure Away (n : ℕ) (page : List ChannelMessage) (s : Session Unit) : Prop where
  subscribers : s.hub.subscribers = fun _ => none
  sinks : s.hub.sinks = fun _ => []
  accumulators : s.hub.accumulators = .empty
  fresh : ∀ r ∈ s.hub.log.rows, r.id.length < n
  latestSeq : s.hub.log.latestSeq = n
  lastSeq : (s.clients ()).reducer.lastSeq = 2
  olderPage : (s.clients ()).olderPage = .served 2 page

theorem away_beforeAway :
    ∃ page, page ≠ [] ∧ Away 2 page (exec (Session.step smallServer) Session.start beforeAway) := by
  refine ⟨_, ?_, ?_, ?_, ?_, ?_, ?_, ?_, rfl⟩
  · decide
  · exact funext fun _ => rfl
  · exact funext fun _ => rfl
  · exact Table.ext rfl
  · decide
  · decide
  · decide

theorem away_step {n : ℕ} {s : Session Unit} (h : Away n page s) :
    Away (n + 1) page (s.step smallServer (lateOp n)) := by
  have hlength : (String.ofList (List.replicate n 'x')).length = n := by simp
  have hnew : s.hub.log.messages.find? (String.ofList (List.replicate n 'x')) = none := by
    rw [Table.find?_eq_none_iff]
    intro r hr hid
    have hlt := h.fresh r hr
    rw [hid, hlength] at hlt
    exact lt_irrefl _ hlt
  obtain ⟨log, row, happend⟩ : ∃ log row, s.hub.log.appendComplete 0
      { id := String.ofList (List.replicate n 'x')
        sender := ⟨.human, "operator"⟩
        text := "hello" } = some (log, row) := by
    unfold appendComplete insertMessage
    rw [dif_pos hnew]
    exact ⟨_, _, rfl⟩
  obtain ⟨hrow, hrows, -⟩ := rows_insertMessage happend
  have hlatest := latestSeq_insertMessage happend
  simp only [lateOp, Session.step, happend]
  refine ⟨?_, ?_, h.accumulators, fun r hr => ?_, ?_, h.lastSeq, h.olderPage⟩
  · funext c
    show (Hub.offerTo _ _ _ _ c).1 = none
    simp [Hub.offerTo, h.subscribers]
  · funext c
    show s.hub.sinks c ++ (Hub.offerTo _ _ _ _ c).2 = []
    simp [Hub.offerTo, h.subscribers, h.sinks]
  · change r ∈ log.rows at hr
    rw [hrows] at hr
    rcases mem_append.mp hr with hr | hr
    · exact (h.fresh r hr).trans (Nat.lt_succ_self n)
    · rw [mem_singleton.mp hr, hrow]
      show (String.ofList (List.replicate n 'x')).length < n + 1
      omega
  · show log.latestSeq = n + 1
    rw [hlatest, h.latestSeq]

theorem away_exec (count n : ℕ) {s : Session Unit} (h : Away n page s) :
    Away (n + count) page (exec (Session.step smallServer) s (lateOps n count)) := by
  induction count generalizing n s with
  | zero => exact h
  | succ count ih =>
    have hrest := ih (n + 1) (away_step h)
    rw [Nat.add_right_comm] at hrest
    exact hrest

theorem sinks_subscribe_of_no_streams {κ : Type} [DecidableEq κ] (cfg : HubConfig) {hub : Hub κ}
    (h : hub.accumulators = .empty) (c : κ) (afterSeq : Option ℕ) :
    (hub.subscribe cfg c afterSeq (fun _ _ => {}) {} (fun _ => {})).sinks c =
      [.snapshot ((hub.register c).buildSnapshot cfg afterSeq)] := by
  have hprepared : hub.preparedFor cfg c (fun _ _ => {}) = hub.register c := by
    unfold Hub.preparedFor Hub.flushPendingForChannel
    have hrows : (hub.register c).accumulators.rows = [] := by
      show hub.accumulators.rows = []
      rw [h]
      rfl
    rw [hrows]
    rfl
  unfold Hub.subscribe Hub.sendSnapshot
  rw [hprepared]
  have hsub : (hub.register c).subscribers c =
      some
        { buffering := true
          queue := []
          queueBytes := 0
          snapshotLatestSeq := 0
          snapshotInFlight := fun _ => none
          lagging := false } := update_self ..
  have hsink : (hub.register c).sinks c = [] := update_self ..
  simp only [hsub, update_self, hsink]
  rfl

/-- After the posts the connection is sent the newest rows, far above the page. -/
theorem not_landsOn_afterAway {n : ℕ} {s : Session Unit}
    (h : Away n page s) (hne : page ≠ []) (hn : 502 < n) :
    ((exec (Session.step smallServer) s afterAway).clients ()).olderPage = .served 2 page ∧
      ¬ LandsOn ((exec (Session.step smallServer) s afterAway).clients ()).reducer 2 page := by
  have hfull : snapshotRows smallServer.toHubConfig s.hub.log (some 2) =
      fullSnapshotRows smallServer.toHubConfig s.hub.log := by
    unfold snapshotRows
    dsimp only
    rw [if_pos]
    simp only [needsFullSnapshot, h.latestSeq, catchupMaxRows, Bool.or_eq_true, decide_eq_true_eq]
    omega
  set connected := s.step smallServer (.subscribe () true (fun _ _ => {}) {} (fun _ => {}))
    with hconnected
  set event := (s.hub.register ()).buildSnapshot smallServer.toHubConfig (some 2) with hevent
  have hsinks : connected.hub.sinks () = [.snapshot event] := by
    show (s.hub.subscribe _ () (some (s.clients ()).reducer.lastSeq) _ _ _).sinks () = _
    rw [h.lastSeq]
    exact sinks_subscribe_of_no_streams _ h.accumulators () (some 2)
  obtain ⟨-, -, hclient⟩ := step_receive_of_cons smallServer hsinks
  show ((connected.step smallServer (.receive ())).clients ()).olderPage = _ ∧
    ¬ LandsOn ((connected.step smallServer (.receive ())).clients ()).reducer 2 page
  rw [hclient]
  refine ⟨h.olderPage, ?_⟩
  have hmode : event.mode = .full := congrArg SnapshotRows.mode hfull
  have hmessages : event.messages =
      (fullSnapshotRows smallServer.toHubConfig s.hub.log).rows.map
        fun m => (materialize s.hub.accumulators m).message := by
    rw [messages_buildSnapshot]
    show List.map _ (snapshotRows _ s.hub.log _).rows = _
    rw [hfull]
    rfl
  obtain ⟨hranked, base, -, hspans⟩ := fullSnapshotRows_spec smallServer.toHubConfig s.hub.log
  have hlength := hspans.length_eq hranked
  have hle := length_fullSnapshotRows_le smallServer.toHubConfig s.hub.log
  have hspans' := spans_materialize hspans s.hub.accumulators
  have hranked' := ranked_materialize hranked s.hub.accumulators
  rw [← hmessages] at hspans' hranked'
  rw [h.latestSeq] at hspans' hlength
  rintro (hnil | hfirst)
  · exact hne hnil
  · -- at most a hundred rows, the last one the newest
    have hpos : 0 < (fullSnapshotRows smallServer.toHubConfig s.hub.log).rows.length := by
      rw [length_pos_iff]
      intro hnil
      have hzero := latestSeq_eq_zero_of_fullSnapshotRows smallServer.toHubConfig s.hub.log hnil
      rw [h.latestSeq] at hzero
      omega
    obtain ⟨m, hm, -⟩ := hspans'.exists_mem (q := n) (by omega) le_rfl
    change ∀ first ∈ (applySnapshot (s.clients ()).reducer event).messages.head?, _ at hfirst
    unfold applySnapshot at hfirst
    rw [hmode, messages_applyFullSnapshot hranked'] at hfirst
    obtain ⟨first, hhead⟩ : ∃ first, event.messages.head? = some first := by
      rw [← Option.isSome_iff_exists, isSome_head?]
      exact ne_nil_of_mem hm
    have hlow := hspans'.lt (mem_of_head? hhead)
    have htwo := hfirst first hhead
    simp only [snapshotFullLimit] at hle
    omega

/-- The run up to the page that lands, with `count` posts while the client is away. -/
def awayRun (count : ℕ) : List (SessionOp Unit) :=
  beforeAway ++ (lateOps 2 count ++ afterAway)

theorem guarded_awayRun (count : ℕ) :
    Guarded (Session.step smallServer) PageAdjoins Session.start (awayRun count) := by
  have hlate (n : ℕ) (op : SessionOp Unit) (hop : op ∈ lateOps n count)
      (s : Session Unit) : PageAdjoins s op := by
    induction count generalizing n with
    | zero => exact absurd hop not_mem_nil
    | succ count ih =>
      rcases mem_cons.mp hop with rfl | hop
      · trivial
      · exact ih (n + 1) hop
  refine guarded_of_forall (fun op hop s => ?_) _
  rcases mem_append.mp hop with hop | hop
  · simp only [beforeAway, mem_cons, not_mem_nil, or_false] at hop
    rcases hop with rfl | rfl | rfl | rfl | rfl | rfl | rfl <;> trivial
  · rcases mem_append.mp hop with hop | hop
    · exact hlate 2 op hop s
    · simp only [afterAway, mem_cons, not_mem_nil, or_false] at hop
      rcases hop with rfl | rfl <;> trivial

theorem not_allGapless_of_late_page {count : ℕ} (h : catchupMaxRows < count) :
    ¬ AllGapless (exec (Session.step smallServer) Session.start
      (awayRun count ++ [.landOlder ()])) := by
  intro hgapless
  have hinv := timelineInv_exec (guarded_awayRun count)
  obtain ⟨page, hne, haway⟩ := away_beforeAway
  have hmany : 502 < 2 + count := by
    simp only [catchupMaxRows] at h
    omega
  obtain ⟨hserved, hlands⟩ := not_landsOn_afterAway (away_exec count 2 haway) hne hmany
  rw [← exec_append, ← exec_append] at hserved hlands
  rw [exec_append, exec_cons, exec_nil] at hgapless
  have hadjoins := pageAdjoins_of_allGapless smallServer hinv hgapless
  change ((exec (Session.step smallServer) Session.start (awayRun count)).clients ()).olderPage =
    .served 2 page at hserved
  simp only [PageAdjoins, hserved] at hadjoins
  exact hlands hadjoins

/-- **Late page**: five hundred and one posts are enough. -/
theorem noSilentGap_fails_on_late_page :
    ¬ ∀ pre, pre <+: awayRun 501 ++ [.landOlder ()] → ∀ c,
      NoSilentGap (exec (Session.step smallServer) Session.start pre).hub.log
        ((exec (Session.step smallServer) Session.start pre).clients c).reducer :=
  fun h => not_allGapless_of_late_page (by decide) (h _ prefix_rfl)

end RelayIde.Channel
