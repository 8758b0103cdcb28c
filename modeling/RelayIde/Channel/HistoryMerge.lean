import RelayIde.Channel.Streams
import RelayIde.Channel.Timeline

/-!
# Merging History Pages

A page of `channels.history` is read at one time and merged at another, over rows that events
may have moved on meanwhile.  `mergeHistoryPage` takes every row of the page.

- `mergeHistoryPage_laws` — the merge, and exactly when no held row moves back
-/

namespace RelayIde.Channel

open RelayIde.Library MessageLog List

/-! ## Readings -/

/-- The rows of a channel over time. -/
structure LogHistory where
  log : ℕ → MessageLog
  advances : ∀ t, (log t).Advances (log (t + 1))

variable {t : ℕ} {H : LogHistory} {page : List ChannelMessage} {pages : List (List ChannelMessage)}

theorem LogHistory.advances_of_le (H : LogHistory) {t' : ℕ} (h : t ≤ t') :
    (H.log t).Advances (H.log t') := by
  induction h with
  | refl => exact Advances.refl _
  | step _ ih => exact ih.trans (H.advances _)

/-- A page: some of the rows as they stood at one time, in their order. -/
def LogHistory.ReadAt (H : LogHistory) (t : ℕ) (page : List ChannelMessage) : Prop :=
  page.Sublist (H.log t).rows

/-- A version the row has left behind: `held` was stored later, and `m` never again. -/
def LogHistory.Older (H : LogHistory) (m held : ChannelMessage) : Prop :=
  ∃ t, held ∈ (H.log t).rows ∧ ∀ t' ≥ t, m ∉ (H.log t').rows

theorem LogHistory.not_older_self (H : LogHistory) (m : ChannelMessage) : ¬ H.Older m m := by
  rintro ⟨t, hmem, hnever⟩
  exact hnever t le_rfl hmem

theorem LogHistory.exists_log (H : LogHistory) {s : ChannelReducerState} {t' : ℕ}
    (hw : Window (H.log t) s) :
    ∃ log, Window log s ∧ ∀ page, H.ReadAt t' page → PageOf log page := by
  refine ⟨H.log (max t t'), hw.advance (H.advances_of_le (le_max_left t t')), ?_⟩
  intro page hpage
  refine ⟨fun m hm => ?_, (H.log t').ranked.sublist hpage⟩
  have hrow := (H.log t').versionOf_of_mem (hpage.subset hm)
  exact (H.advances_of_le (le_max_right t t')).version m hrow

theorem LogHistory.ReadAt.eq_of_id_eq {page' : List ChannelMessage}
    (hpage : H.ReadAt t page) (hpage' : H.ReadAt t page') {m m' : ChannelMessage}
    (hm : m ∈ page) (hm' : m' ∈ page') (h : m.id = m'.id) : m = m' :=
  (H.log t).eq_of_id_eq (hpage.subset hm) (hpage'.subset hm') h

/-! ## The merge -/

section Merge

variable {log : MessageLog} {s : ChannelReducerState}

theorem window_foldl_mergeHistoryPage (hw : Window log s)
    (hpages : ∀ page ∈ pages, PageOf log page) : Window log (pages.foldl mergeHistoryPage s) := by
  induction pages generalizing s with
  | nil => exact hw
  | cons page pages ih =>
    have hpage := hpages page mem_cons_self
    exact ih (window_mergeHistoryPage hw hpage.1 hpage.2)
      fun page' hpage' => hpages page' (mem_cons_of_mem page hpage')

section
variable (s : ChannelReducerState) (page : List ChannelMessage)

theorem lastSeq_le_mergeHistoryPage : s.lastSeq ≤ (mergeHistoryPage s page).lastSeq := by
  unfold mergeHistoryPage
  split
  · exact le_rfl
  · exact le_max_left _ _

@[simp]
theorem quarantined_mergeHistoryPage : (mergeHistoryPage s page).quarantined = s.quarantined := by
  unfold mergeHistoryPage
  split <;> rfl

@[simp]
theorem inFlightDelta_mergeHistoryPage :
    (mergeHistoryPage s page).inFlightDelta = s.inFlightDelta := by
  unfold mergeHistoryPage
  split <;> rfl

end

/-- The cursor, the index and the rows after a page are a function of the rows. -/
theorem mergeHistoryPage_eq_self
    (hrows : (mergeHistoryPage s page).messages = s.messages)
    (hindex : s.byId = rebuildById s.messages)
    (hcursor : ∀ last, s.messages.getLast? = some last → last.seq ≤ s.lastSeq) :
    mergeHistoryPage s page = s := by
  unfold mergeHistoryPage at hrows ⊢
  split
  · rfl
  · rename_i hne
    rw [if_neg hne] at hrows
    dsimp only at hrows ⊢
    rw [hrows, ← hindex]
    cases hlast : s.messages.getLast? with
    | none => simp only [max_self]
    | some last => simp only [max_eq_left (hcursor last hlast)]

theorem mergeHistoryPage_idem (hw : Window log s) (hpage : PageOf log page) :
    mergeHistoryPage (mergeHistoryPage s page) page = mergeHistoryPage s page := by
  by_cases hne : page = []
  · rw [hne]
    rfl
  have hw' := window_mergeHistoryPage hw hpage.1 hpage.2
  have hids := ids_nodup hpage.1 hpage.2
  apply mergeHistoryPage_eq_self
  · have hw'' := window_mergeHistoryPage hw' hpage.1 hpage.2
    apply hw''.ranked.eq_of_mem_iff hw'.ranked
    intro m
    rw [mem_mergeHistoryPage hids hpage.2, mem_mergeHistoryPage hids hpage.2]
    -- what the second merge keeps of the first is what the first kept
    constructor
    · rintro (hm | ⟨hm, -⟩)
      · exact .inl hm
      · exact hm
    · rintro (hm | hm)
      · exact .inl hm
      · exact .inr ⟨.inr hm, hm.2⟩
  · unfold mergeHistoryPage
    rw [if_neg hne]
  · intro last hlast
    exact hw'.seq_le last (mem_of_getLast? hlast)

end Merge

theorem mem_foldl_mergeHistoryPage {s : ChannelReducerState}
    (hpages : ∀ page ∈ pages, H.ReadAt t page)
    {m : ChannelMessage} :
    m ∈ (pages.foldl mergeHistoryPage s).messages ↔
      (∃ page ∈ pages, m ∈ page) ∨
        (m ∈ s.messages ∧ ∀ page ∈ pages, ∀ r ∈ page, r.id ≠ m.id) := by
  induction pages generalizing s with
  | nil => simp
  | cons page pages ih =>
    have hpage := hpages page mem_cons_self
    have hrest : ∀ page' ∈ pages, H.ReadAt t page' := fun page' hpage' =>
      hpages page' (mem_cons_of_mem page hpage')
    have hranked := (H.log t).ranked.sublist hpage
    have hids : (page.map (·.id)).Nodup := ids_nodup
      (fun r hr => (H.log t).versionOf_of_mem (hpage.subset hr)) hranked
    rw [foldl_cons, ih hrest, mem_mergeHistoryPage hids hranked]
    simp only [mem_cons, exists_eq_or_imp, forall_eq_or_imp]
    constructor
    · rintro (hm | ⟨hm | ⟨hm, hfirst⟩, hlater⟩)
      · exact .inl (.inr hm)
      · exact .inl (.inl hm)
      · exact .inr ⟨hm, hfirst, hlater⟩
    · rintro ((hm | hm) | ⟨hm, hfirst, hlater⟩)
      · -- a row of the first page: a later page has the same version of it, or none
        by_cases hagain : ∃ page' ∈ pages, m ∈ page'
        · exact .inl hagain
        · refine .inr ⟨.inl hm, ?_⟩
          intro page' hpage' r hr hid
          apply hagain
          have hsame := (hrest page' hpage').eq_of_id_eq hpage hr hm hid
          exact ⟨page', hpage', hsame ▸ hr⟩
      · exact .inl hm
      · exact .inr ⟨.inr ⟨hm, hfirst⟩, hlater⟩

theorem foldl_mergeHistoryPage_perm {t' : ℕ} {s : ChannelReducerState}
    (hw : Window (H.log t) s) {pages' : List (List ChannelMessage)}
    (hperm : pages.Perm pages') (hpages : ∀ page ∈ pages, H.ReadAt t' page) :
    (pages.foldl mergeHistoryPage s).messages = (pages'.foldl mergeHistoryPage s).messages := by
  have hpages' : ∀ page ∈ pages', H.ReadAt t' page := fun page hpage =>
    hpages page (hperm.mem_iff.mpr hpage)
  obtain ⟨log, hw', hpageOf⟩ := H.exists_log hw
  have h := window_foldl_mergeHistoryPage hw' fun page hpage => hpageOf page (hpages page hpage)
  have h' := window_foldl_mergeHistoryPage hw' fun page hpage => hpageOf page (hpages' page hpage)
  apply h.ranked.eq_of_mem_iff h'.ranked
  intro m
  rw [mem_foldl_mergeHistoryPage hpages, mem_foldl_mergeHistoryPage hpages']
  simp only [hperm.mem_iff]

/-! ## Held rows -/

/-- A row that takes deltas. -/
def ChannelReducerState.Live (s : ChannelReducerState) (m : ChannelMessage) : Prop :=
  m ∈ s.messages ∧ m.status = .streaming ∧ s.quarantined m.id = false

/-- The text of a live row is the one flushed at the delta index recorded for it. -/
def ChannelReducerState.Based (s : ChannelReducerState) (flushedAt : FlushedText)
    (m : ChannelMessage) : Prop :=
  flushedAt m.id ((s.inFlightDelta m.id).getD (-1)) = some m.text

/-- No held row moved back: a settled one was not replaced by an older version, and a live one
    that is still live has the text its next delta continues. -/
def KeepsHeld (H : LogHistory) (flushedAt : FlushedText) (s s' : ChannelReducerState) : Prop :=
  (∀ held ∈ s.messages, held.status ≠ .streaming →
    ∀ m ∈ s'.messages, m.id = held.id → ¬ H.Older m held) ∧
  ∀ held, s.Live held → ∀ m, s'.Live m → m.id = held.id → s'.Based flushedAt m

/-- The page is no older than what is held: it has no older version of a settled row, and of a
    live row at most the text that is held. -/
def UpToDate (H : LogHistory) (s : ChannelReducerState) (page : List ChannelMessage) : Prop :=
  ∀ m ∈ page, ∀ held ∈ s.messages, m.id = held.id →
    (held.status ≠ .streaming → ¬ H.Older m held) ∧
    (s.Live held → m.status = .streaming → m.text = held.text)

theorem keepsHeld_mergeHistoryPage_iff {flushedAt : FlushedText}
    {s : ChannelReducerState} {t' : ℕ} (hw : Window (H.log t) s)
    (hbased : ∀ m, s.Live m → s.Based flushedAt m) (hpage : H.ReadAt t' page) :
    KeepsHeld H flushedAt s (mergeHistoryPage s page) ↔ UpToDate H s page := by
  obtain ⟨log, hw', hpageOf⟩ := H.exists_log hw
  have hpageLog := hpageOf page hpage
  have hmem (m : ChannelMessage) := mem_mergeHistoryPage (s := s) (m := m)
    (ids_nodup hpageLog.1 hpageLog.2) hpageLog.2
  have hsame {m held : ChannelMessage} (hm : m ∈ s.messages) (hheld : held ∈ s.messages)
      (hid : m.id = held.id) : m = held := by
    have hby := hw.byId_of_mem hm
    rw [hid, hw.byId_of_mem hheld] at hby
    exact (Option.some.inj hby).symm
  constructor
  · rintro ⟨hsettled, hlive⟩ m hm held hheld hid
    have hmerged : m ∈ (mergeHistoryPage s page).messages := (hmem m).mpr (.inl hm)
    refine ⟨fun hfinal => hsettled held hheld hfinal m hmerged hid, ?_⟩
    intro hheldLive hstreaming
    have hquarantine : (mergeHistoryPage s page).quarantined m.id = false := by
      rw [quarantined_mergeHistoryPage, hid]
      exact hheldLive.2.2
    have htext := hlive held hheldLive m ⟨hmerged, hstreaming, hquarantine⟩ hid
    have hheldText := hbased held hheldLive
    unfold ChannelReducerState.Based at htext hheldText
    rw [inFlightDelta_mergeHistoryPage, hid, hheldText] at htext
    exact (Option.some.inj htext).symm
  · intro hcurrent
    constructor
    · intro held hheld hfinal m hm hid
      rcases (hmem m).mp hm with hm | ⟨hm, -⟩
      · exact (hcurrent m hm held hheld hid).1 hfinal
      · rw [hsame hm hheld hid]
        exact H.not_older_self held
    · intro held hheldLive m hmLive hid
      unfold ChannelReducerState.Based
      rw [inFlightDelta_mergeHistoryPage, hid]
      have htext : m.text = held.text := by
        rcases (hmem m).mp hmLive.1 with hm | ⟨hm, -⟩
        · exact (hcurrent m hm held hheldLive.1 hid).2 hheldLive hmLive.2.1
        · rw [hsame hm hheldLive.1 hid]
      rw [htext]
      exact hbased held hheldLive

/-- Merging a page keeps the rows ascending with distinct ids, never lowers the cursor, is
    idempotent, and pages of one reading may come in any order; no held row moves back exactly
    when the page is up to date with what is held. -/
theorem mergeHistoryPage_laws (H : LogHistory) (flushedAt : FlushedText)
    {s : ChannelReducerState} {t t' : ℕ} (hw : Window (H.log t) s)
    (hbased : ∀ m, s.Live m → s.Based flushedAt m) {page : List ChannelMessage}
    (hpage : H.ReadAt t' page) :
    Ranked ChannelMessage.seq (mergeHistoryPage s page).messages ∧
    ((mergeHistoryPage s page).messages.map (·.id)).Nodup ∧
    s.lastSeq ≤ (mergeHistoryPage s page).lastSeq ∧
    mergeHistoryPage (mergeHistoryPage s page) page = mergeHistoryPage s page ∧
    (∀ pages pages' : List (List ChannelMessage), pages.Perm pages' →
      (∀ p ∈ pages, H.ReadAt t' p) →
      (pages.foldl mergeHistoryPage s).messages = (pages'.foldl mergeHistoryPage s).messages) ∧
    (KeepsHeld H flushedAt s (mergeHistoryPage s page) ↔ UpToDate H s page) := by
  obtain ⟨log, hw', hpageOf⟩ := H.exists_log hw
  have hpageLog := hpageOf page hpage
  have hmerged := window_mergeHistoryPage hw' hpageLog.1 hpageLog.2
  exact ⟨hmerged.ranked, hmerged.ids_nodup, lastSeq_le_mergeHistoryPage s page,
    mergeHistoryPage_idem hw' hpageLog,
    fun _ _ hperm hpages => foldl_mergeHistoryPage_perm hw hperm hpages,
    keepsHeld_mergeHistoryPage_iff hw hbased hpage⟩

/-! ### A reply that completes while a page is on its way -/

def openReply : MessageLog :=
  ((MessageLog.empty.beginStream 0
    { id := "reply"
      sender := { kind := .agent, id := "claude" }
      runtimeId := "runtime"
      text := "he" }).map (·.1)).getD .empty

/-- The reply is completed at time one. -/
def replyHistory : LogHistory where
  log t :=
    if t = 0 then openReply
    else (openReply.finalizeStream 1 "reply" { text := "hello", status := .complete }).1
  advances t := by
    by_cases ht : t = 0
    · rw [if_pos ht, if_neg (Nat.succ_ne_zero t)]
      exact advances_finalizeStream openReply 1 "reply" _
    · rw [if_neg ht, if_neg (Nat.succ_ne_zero t)]
      exact Advances.refl _

/-- A client that loaded the rows as they stood at a time. -/
def loadedAt (t : ℕ) : ChannelReducerState :=
  mergeHistoryPage initialChannelReducerState (replyHistory.log t).rows

theorem window_loadedAt (t : ℕ) : Window (replyHistory.log t) (loadedAt t) :=
  window_mergeHistoryPage (window_initial _)
    (fun _ hm => (replyHistory.log t).versionOf_of_mem hm) (replyHistory.log t).ranked

/-- The open reply is held and the page brings it completed. -/
theorem mergeHistoryPage_laws_completed :
    Ranked ChannelMessage.seq
      (mergeHistoryPage (loadedAt 0) (replyHistory.log 1).rows).messages ∧
    ((mergeHistoryPage (loadedAt 0) (replyHistory.log 1).rows).messages.map (·.id)).Nodup ∧
    (loadedAt 0).lastSeq ≤ (mergeHistoryPage (loadedAt 0) (replyHistory.log 1).rows).lastSeq ∧
    mergeHistoryPage (mergeHistoryPage (loadedAt 0) (replyHistory.log 1).rows)
        (replyHistory.log 1).rows =
      mergeHistoryPage (loadedAt 0) (replyHistory.log 1).rows ∧
    (∀ pages pages' : List (List ChannelMessage), pages.Perm pages' →
      (∀ p ∈ pages, replyHistory.ReadAt 1 p) →
      (pages.foldl mergeHistoryPage (loadedAt 0)).messages =
        (pages'.foldl mergeHistoryPage (loadedAt 0)).messages) ∧
    (KeepsHeld replyHistory (fun _ _ => some "he") (loadedAt 0)
        (mergeHistoryPage (loadedAt 0) (replyHistory.log 1).rows) ↔
      UpToDate replyHistory (loadedAt 0) (replyHistory.log 1).rows) := by
  refine mergeHistoryPage_laws replyHistory (fun _ _ => some "he") (window_loadedAt 0) ?_
    (List.Sublist.refl _)
  intro m hm
  have htext : ∀ m ∈ (loadedAt 0).messages, m.text = "he" := by decide
  exact congrArg some (htext m hm.1).symm

/-- The completed reply is held and the page, read before, opens it again. -/
theorem stale_page_reopens :
    ¬ ∀ (H : LogHistory) (flushedAt : FlushedText) (s : ChannelReducerState) (t t' : ℕ)
      (page : List ChannelMessage), Window (H.log t) s →
      (∀ m, s.Live m → s.Based flushedAt m) → H.ReadAt t' page →
      KeepsHeld H flushedAt s (mergeHistoryPage s page) := by
  intro hclaim
  have hnotLive : ∀ m, ¬ (loadedAt 1).Live m := by
    intro m hm
    have hfinal : ∀ m ∈ (loadedAt 1).messages, m.status ≠ .streaming := by decide
    exact hfinal m hm.1 hm.2.1
  have hkeeps := hclaim replyHistory (fun _ _ => none) (loadedAt 1) 1 0 openReply.rows
    (window_loadedAt 1) (fun m hlive => absurd hlive (hnotLive m)) (List.Sublist.refl _)
  -- one settled row is held, and the merge leaves the open one of the first reading
  have hheld : ∃ held ∈ (loadedAt 1).messages, held.status ≠ .streaming ∧
      held ∈ (replyHistory.log 1).rows ∧
      ∃ m ∈ (mergeHistoryPage (loadedAt 1) openReply.rows).messages, m.id = held.id ∧
        m ∉ (replyHistory.log 1).rows := by decide
  obtain ⟨held, hmem, hfinal, hstored, m, hm, hid, hnever⟩ := hheld
  apply hkeeps.1 held hmem hfinal m hm hid
  refine ⟨1, hstored, ?_⟩
  intro t ht
  have hlog : replyHistory.log t = replyHistory.log 1 := by
    show (if t = 0 then openReply else _) = _
    rw [if_neg (by omega)]
    rfl
  rw [hlog]
  exact hnever

end RelayIde.Channel
