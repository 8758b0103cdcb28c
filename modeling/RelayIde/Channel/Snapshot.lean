import RelayIde.Channel.Hub

/-!
# What a Snapshot Covers

The rows a snapshot is made of, as facts about the log and its cursor.

- `eventOf_buildSnapshot` — a snapshot is an event about the log
-/

namespace RelayIde.Channel

open RelayIde.Library List

/-! ## The overlay -/

variable (accumulators : Table Accumulator.messageId) (m : ChannelMessage) (cfg : HubConfig)
  (log : MessageLog) (since cursor : ℕ) (sinceSeq : Option ℕ)

@[simp] theorem id_materialize : (materialize accumulators m).message.id = m.id := by
  unfold materialize
  split
  · rfl
  · split <;> rfl

@[simp] theorem seq_materialize : (materialize accumulators m).message.seq = m.seq := by
  unfold materialize
  split
  · rfl
  · split <;> rfl

@[simp] theorem status_materialize : (materialize accumulators m).message.status = m.status := by
  unfold materialize
  split
  · rfl
  · split <;> rfl

theorem materialize_of_final {m : ChannelMessage}
    (h : m.status ≠ .streaming) : materialize accumulators m = ⟨m, none⟩ := by
  unfold materialize
  split
  · rfl
  · rw [if_neg h]

section
variable {accumulators : Table Accumulator.messageId}

theorem materialize_of_streaming {acc : Accumulator}
    (hacc : acc ∈ accumulators.rows) {m : ChannelMessage} (hid : acc.messageId = m.id)
    (h : m.status = .streaming) :
    materialize accumulators m = ⟨{ m with text := acc.text }, some ⟨m.id, acc.deltaIndex⟩⟩ := by
  unfold materialize
  rw [(accumulators.find?_eq_some_iff m.id acc).mpr ⟨hacc, hid⟩]
  dsimp only
  rw [if_pos h]

theorem messageId_inFlight_materialize
    {m : ChannelMessage} {ref : ChannelInFlightRef}
    (h : ref ∈ (materialize accumulators m).inFlight) : ref.messageId = m.id := by
  unfold materialize at h
  split at h
  · cases h
  · split at h
    · rw [← Option.some.inj h]
    · cases h

end

theorem versionOf_materialize {log : MessageLog} {m : ChannelMessage} (h : log.VersionOf m) :
    log.VersionOf (materialize accumulators m).message := by
  unfold materialize
  split
  · exact h
  · split
    · rename_i hstreaming
      exact h.setText hstreaming _
    · exact h

/-! ## Full snapshots -/

theorem fullSnapshotRows_suffix : (fullSnapshotRows cfg log).rows <:+ log.rows := by
  have hkept : (fullSnapshotRows cfg log).rows <:+ log.history { limit := some snapshotFullLimit } :=
    takeWithin_reverse_suffix _ _ _ _ _
  exact hkept.trans (log.history_newest_suffix snapshotFullLimit)

theorem fullSnapshotRows_spec :
    Ranked ChannelMessage.seq (fullSnapshotRows cfg log).rows ∧
      ∃ base ≤ log.latestSeq,
        Spans ChannelMessage.seq base log.latestSeq (fullSnapshotRows cfg log).rows := by
  obtain ⟨front, hfront⟩ := fullSnapshotRows_suffix cfg log
  refine ⟨log.ranked.sublist (fullSnapshotRows_suffix cfg log).sublist, ?_⟩
  have hdense : Spans ChannelMessage.seq 0 log.latestSeq
      (front ++ (fullSnapshotRows cfg log).rows) := by
    rw [hfront]
    exact log.dense
  obtain ⟨base, -, hbase, -, hspans⟩ := hdense.split (by rw [hfront]; exact log.ranked)
    (Nat.zero_le _)
  exact ⟨base, hbase, hspans⟩

theorem length_fullSnapshotRows_le :
    (fullSnapshotRows cfg log).rows.length ≤ snapshotFullLimit := by
  have hkept : (fullSnapshotRows cfg log).rows <:+ log.history { limit := some snapshotFullLimit } :=
    takeWithin_reverse_suffix _ _ _ _ _
  refine hkept.length_le.trans ?_
  show (newest snapshotFullLimit log.rows).length ≤ snapshotFullLimit
  rw [length_newest]
  exact min_le_left _ _

theorem latestSeq_eq_zero_of_fullSnapshotRows
    (h : (fullSnapshotRows cfg log).rows = []) : log.latestSeq = 0 := by
  by_contra hne
  obtain ⟨m, hm, -⟩ := log.dense.exists_mem (Nat.pos_of_ne_zero hne) le_rfl
  have hpage : log.history { limit := some snapshotFullLimit } ≠ [] := by
    have hlength := length_newest snapshotFullLimit log.rows
    have hpos : 0 < log.rows.length := length_pos_of_mem hm
    rw [← length_pos_iff]
    show 0 < (newest snapshotFullLimit log.rows).length
    rw [hlength]
    exact lt_min (by decide) hpos
  apply kept_takeWithin_ne_nil (fun row => cfg.rowBytes row + 1) cfg.snapshotMaxBytes 0
    (l := (log.history { limit := some snapshotFullLimit }).reverse)
  · simpa using hpage
  · exact reverse_eq_nil_iff.mp h

/-! ## Catch-up snapshots -/

def MessageLog.above (log : MessageLog) (cursor : ℕ) : List ChannelMessage :=
  log.rows.filter fun m => decide (cursor < m.seq)

theorem spans_above : Spans ChannelMessage.seq cursor log.latestSeq (log.above cursor) := by
  have hspans := log.dense.filter_gt cursor
  rwa [Nat.zero_max] at hspans

theorem ranked_above : Ranked ChannelMessage.seq (log.above cursor) :=
  log.ranked.filter _

theorem length_above : (log.above cursor).length = log.latestSeq - cursor :=
  (spans_above log cursor).length_eq (ranked_above log cursor)

private theorem freshRows_of_invariant
    (hgap : (log.above since).length ≤ catchupMaxRows) (rounds cursor : ℕ)
    (fresh : List ChannelMessage) (hinv : fresh ++ log.above cursor = log.above since)
    (hrounds : (log.above since).length ≤ fresh.length + rounds) :
    freshRows log rounds cursor fresh = log.above since := by
  have hlen : fresh.length + (log.above cursor).length = (log.above since).length := by
    rw [← length_append, hinv]
  have hdone (h : (log.above cursor).length = 0) : fresh = log.above since := by
    rw [← hinv, length_eq_zero_iff.mp h, append_nil]
  induction rounds generalizing cursor fresh with
  | zero => exact hdone (by omega)
  | succ rounds ih =>
    unfold freshRows
    split
    · rename_i hroom
      dsimp only
      have hpage : log.history { afterSeq := some cursor, limit := some 200 } =
          (log.above cursor).take 200 := rfl
      rw [hpage]
      split
      · rename_i hnone
        rw [getLast?_eq_none_iff, take_eq_nil_iff] at hnone
        rcases hnone with hnone | hnone
        · cases hnone
        · exact hdone (by rw [hnone]; rfl)
      · rename_i last hlast
        split
        · rename_i hshort
          rw [length_take] at hshort
          rw [take_of_length_le (by omega), hinv]
        · rename_i hfull
          have hrest : log.above last.seq = (log.above cursor).drop 200 :=
            log.ranked.filter_gt_page hlast
          have hinv' : fresh ++ (log.above cursor).take 200 ++ log.above last.seq =
              log.above since := by
            rw [hrest, append_assoc, take_append_drop, hinv]
          apply ih last.seq _ hinv'
          · rw [length_append]
            omega
          · rw [← length_append, hinv']
          · intro hzero
            rw [← hinv', length_eq_zero_iff.mp hzero, append_nil]
    · exact hdone (by omega)

/-- **Forward pages**: within the catch-up gap the loop returns every row above the cursor. -/
theorem freshRows_eq (hgap : log.latestSeq - since ≤ catchupMaxRows) :
    freshRows log catchupMaxRows since [] = log.above since := by
  rw [← length_above] at hgap
  exact freshRows_of_invariant log since hgap catchupMaxRows since [] (nil_append _)
    (by simpa using hgap)

/-- The pass over the fresh rows. -/
def freshAssembled (cfg : HubConfig) (log : MessageLog) (since : ℕ) : Assembled ChannelMessage :=
  assembleWithBudget cfg (freshRows log catchupMaxRows since []) .head cfg.snapshotMaxBytes true

/-- The bytes the fresh rows leave to the resync rows. -/
def remainingBytes (cfg : HubConfig) (log : MessageLog) (since : ℕ) : ℕ :=
  cfg.snapshotMaxBytes - (freshAssembled cfg log since).bytes

theorem snapshotLatestSeq_of_whole
    (h : (freshAssembled cfg log since).truncated = false) :
    (catchupSnapshotRows cfg log since).snapshotLatestSeq = log.latestSeq := by
  rw [freshAssembled] at h
  simp only [catchupSnapshotRows, h]

theorem snapshotLatestSeq_of_cut {last : ChannelMessage}
    (h : (freshAssembled cfg log since).truncated = true)
    (hlast : (catchupSnapshotRows cfg log since).rows.getLast? = some last) :
    (catchupSnapshotRows cfg log since).snapshotLatestSeq = last.seq := by
  rw [freshAssembled] at h
  simp only [catchupSnapshotRows] at hlast
  simp only [catchupSnapshotRows, h, hlast]

/-- **Fresh rows**: contiguous from the cursor up to the head the snapshot advertises. -/
theorem catchupSnapshotRows_spec {since : ℕ}
    (hsince : since ≤ log.latestSeq) (hgap : log.latestSeq - since ≤ catchupMaxRows) :
    let assembled := catchupSnapshotRows cfg log since
    assembled.rows.Sublist log.rows ∧ since ≤ assembled.snapshotLatestSeq ∧
      assembled.snapshotLatestSeq ≤ log.latestSeq ∧
      Spans ChannelMessage.seq since assembled.snapshotLatestSeq assembled.rows := by
  intro assembled
  obtain ⟨rest, hsplit, -, htrunc, -⟩ := takeWithin_spec (fun row => cfg.rowBytes row + 1)
    cfg.snapshotMaxBytes true 0 (freshRows log catchupMaxRows since [])
  rw [freshRows_eq log since hgap] at hsplit
  have hrows : assembled.rows = (freshAssembled cfg log since).kept := rfl
  have hkept : log.above since = assembled.rows ++ rest := by
    rw [hrows, freshAssembled, freshRows_eq log since hgap]
    exact hsplit
  have hspans : Spans ChannelMessage.seq since log.latestSeq (assembled.rows ++ rest) := by
    rw [← hkept]
    exact spans_above log since
  have hranked : Ranked ChannelMessage.seq (assembled.rows ++ rest) := by
    rw [← hkept]
    exact ranked_above log since
  have hsub : assembled.rows.Sublist log.rows := by
    have hprefix : assembled.rows.Sublist (log.above since) := by
      rw [hkept]
      exact sublist_append_left _ _
    exact hprefix.trans filter_sublist
  refine ⟨hsub, ?_⟩
  by_cases htail : rest = []
  · -- nothing was cut off
    have hfull : (freshAssembled cfg log since).truncated = false := by
      rw [Bool.eq_false_iff]
      exact fun h => htrunc.mp h htail
    rw [snapshotLatestSeq_of_whole cfg log since hfull]
    rw [htail, append_nil] at hspans
    exact ⟨hsince, le_rfl, hspans⟩
  · have hcut : (freshAssembled cfg log since).truncated = true := htrunc.mpr htail
    have hne : assembled.rows ≠ [] := by
      apply kept_takeWithin_ne_nil
      rw [freshRows_eq log since hgap, hkept]
      exact fun h => htail (append_eq_nil_iff.mp h).2
    obtain ⟨front, last, hlast⟩ := eq_nil_or_concat assembled.rows |>.resolve_left hne
    rw [concat_eq_append] at hlast
    rw [snapshotLatestSeq_of_cut cfg log since hcut (by rw [hlast, getLast?_concat]), hlast]
    obtain ⟨mid, hlo, hhi, hleft, -⟩ := hspans.split hranked hsince
    rw [hlast] at hleft hranked
    -- the last kept row carries the highest kept number
    have htop : last.seq = mid := by
      apply le_antisymm
      · exact hleft.le (by simp)
      · have hlt : since < mid := (hleft.lt (a := last) (by simp)).trans_le (hleft.le (by simp))
        obtain ⟨a, ha, hamid⟩ := hleft.exists_mem hlt le_rfl
        rw [← hamid]
        have hfront : Ranked ChannelMessage.seq (front ++ [last]) :=
          hranked.sublist (sublist_append_left _ _)
        rcases mem_append.mp ha with ha | ha
        · exact (hfront.lt_of_append ha (by simp)).le
        · rw [mem_singleton.mp ha]
    show since ≤ last.seq ∧ last.seq ≤ log.latestSeq ∧
      Spans ChannelMessage.seq since last.seq (front ++ [last])
    rw [htop]
    exact ⟨hlo, hhi, hleft⟩

/-- The rows a refresh of `m` competes with: from it up to the cursor. -/
def resyncFrom (log : MessageLog) (since : ℕ) (m : ChannelMessage) : List ChannelMessage :=
  log.rows.filter fun r => decide (r.seq ≤ since) && r.isResyncRow && decide (m.seq ≤ r.seq)

/-- The refresh of `m` fits: both bounds hold from it up to the cursor. -/
def ResyncFits (cfg : HubConfig) (log : MessageLog) (since : ℕ) (m : ChannelMessage) : Prop :=
  (resyncFrom log since m).length ≤ catchupMaxRows ∧
    ((resyncFrom log since m).map fun r => cfg.rowBytes r + 1).sum ≤ remainingBytes cfg log since

instance (cfg : HubConfig) (log : MessageLog) (since : ℕ) (m : ChannelMessage) :
    Decidable (ResyncFits cfg log since m) :=
  inferInstanceAs (Decidable (_ ∧ _))

theorem resyncRows_eq :
    (catchupSnapshotRows cfg log since).resyncRows =
      if remainingBytes cfg log since > 0 then
        (takeWithin (fun row => cfg.rowBytes row + 1) (remainingBytes cfg log since) false 0
          (log.listResyncRows since catchupMaxRows).reverse).kept.reverse
      else [] := by
  show (if remainingBytes cfg log since > 0 then _ else _ : Assembled ChannelMessage).kept = _
  split <;> rfl

/-- **Refreshed rows**: exactly the resync rows that fit. -/
theorem mem_resyncRows_iff (m : ChannelMessage) :
    m ∈ (catchupSnapshotRows cfg log since).resyncRows ↔
      m ∈ log.rows ∧ m.seq ≤ since ∧ m.isResyncRow = true ∧ ResyncFits cfg log since m := by
  set candidates := log.listResyncRows since catchupMaxRows with hcandidates
  have hranked : Ranked ChannelMessage.seq candidates := log.ranked_listResyncRows _ _
  have hmem (r : ChannelMessage) : r ∈ candidates ↔
      (r ∈ log.rows ∧ r.seq ≤ since ∧ r.isResyncRow = true) ∧
        (resyncFrom log since r).length ≤ catchupMaxRows :=
    log.mem_listResyncRows_iff since catchupMaxRows r
  -- a candidate competes with every resync row from it on
  have hsame (hm : m ∈ candidates) :
      (candidates.filter fun r => decide (m.seq ≤ r.seq)) = resyncFrom log since m := by
    apply Ranked.eq_of_mem_iff (hranked.filter _) (log.ranked.filter _)
    intro r
    rw [mem_filter, hmem]
    simp only [mem_filter, Bool.and_eq_true, decide_eq_true_eq]
    constructor
    · rintro ⟨⟨⟨hr, hle, hres⟩, -⟩, hge⟩
      exact ⟨hr, ⟨hle, hres⟩, hge⟩
    · rintro ⟨hr, ⟨hle, hres⟩, hge⟩
      refine ⟨⟨⟨hr, hle, hres⟩, ?_⟩, hge⟩
      refine le_trans ?_ ((hmem m).mp hm).2
      apply List.Sublist.length_le
      apply monotone_filter_right
      intro x hx
      simp only [Bool.and_eq_true, decide_eq_true_eq] at hx ⊢
      exact ⟨hx.1, hge.trans hx.2⟩
  have hfits : m ∈ (takeWithin (fun row => cfg.rowBytes row + 1) (remainingBytes cfg log since)
      false 0 candidates.reverse).kept.reverse ↔
      m ∈ log.rows ∧ m.seq ≤ since ∧ m.isResyncRow = true ∧ ResyncFits cfg log since m := by
    rw [mem_reverse, mem_takeWithin_reverse_iff hranked]
    constructor
    · rintro ⟨hm, hbytes⟩
      rw [hsame hm] at hbytes
      obtain ⟨⟨hrow, hle, hres⟩, hcount⟩ := (hmem m).mp hm
      exact ⟨hrow, hle, hres, hcount, hbytes⟩
    · rintro ⟨hrow, hle, hres, hcount, hbytes⟩
      have hm : m ∈ candidates := (hmem m).mpr ⟨⟨hrow, hle, hres⟩, hcount⟩
      exact ⟨hm, by rw [hsame hm]; exact hbytes⟩
  rw [resyncRows_eq]
  split
  · exact hfits
  · rename_i hnone
    constructor
    · intro h
      exact absurd h not_mem_nil
    · -- a row takes at least one byte
      rintro ⟨hrow, hle, hres, -, hbytes⟩
      exfalso
      apply hnone
      have hself : m ∈ resyncFrom log since m := by
        simp [resyncFrom, hrow, hle, hres]
      have hone : cfg.rowBytes m + 1 ≤
          ((resyncFrom log since m).map fun r => cfg.rowBytes r + 1).sum :=
        single_le_sum (by simp) _ (mem_map_of_mem hself)
      omega

/-! ## The snapshot event -/

theorem spans_materialize {lo hi : ℕ} {rows : List ChannelMessage}
    (h : Spans ChannelMessage.seq lo hi rows) (accumulators : Table Accumulator.messageId) :
    Spans ChannelMessage.seq lo hi (rows.map fun m => (materialize accumulators m).message) := by
  apply h.congr
  intro q
  constructor
  · rintro ⟨a, ha, rfl⟩
    obtain ⟨m, hm, rfl⟩ := mem_map.mp ha
    exact ⟨m, hm, (seq_materialize accumulators m).symm⟩
  · rintro ⟨m, hm, rfl⟩
    exact ⟨_, mem_map_of_mem hm, seq_materialize accumulators m⟩

theorem ranked_materialize {rows : List ChannelMessage} (h : Ranked ChannelMessage.seq rows)
    (accumulators : Table Accumulator.messageId) :
    Ranked ChannelMessage.seq (rows.map fun m => (materialize accumulators m).message) :=
  h.map fun m => seq_materialize accumulators m

variable {κ : Type}

section
variable (hub : Hub κ) (sinceSeq : Option ℕ)

theorem messages_buildSnapshot :
    (hub.buildSnapshot cfg sinceSeq).messages =
      (snapshotRows cfg hub.log sinceSeq).rows.map
        fun m => (materialize hub.accumulators m).message := by
  show List.map _ (List.map _ _) = _
  rw [map_map]
  rfl

theorem replacements_buildSnapshot :
    (hub.buildSnapshot cfg sinceSeq).stateReplacements.getD [] =
      (snapshotRows cfg hub.log sinceSeq).resyncRows.map (materialize hub.accumulators) := by
  show Option.getD (if _ = [] then none else some _) [] = _
  split
  · rename_i h
    exact h.symm
  · rfl

theorem inFlightFromRefs_buildSnapshot
    (hids : ((snapshotRows cfg hub.log sinceSeq).rows.map (·.id)).Nodup) (id : ChannelMessageId)
    (k : ℤ) :
    inFlightFromRefs (hub.buildSnapshot cfg sinceSeq).inFlight id = some k ↔
      ∃ m ∈ (snapshotRows cfg hub.log sinceSeq).rows,
        (materialize hub.accumulators m).inFlight = some ⟨id, k⟩ := by
  have hrefs : (hub.buildSnapshot cfg sinceSeq).inFlight =
      (snapshotRows cfg hub.log sinceSeq).rows.filterMap
        fun m => (materialize hub.accumulators m).inFlight :=
    filterMap_map
  have hnodup : ((hub.buildSnapshot cfg sinceSeq).inFlight.map (·.messageId)).Nodup := by
    rw [hrefs]
    show List.Pairwise _ _
    rw [pairwise_map]
    refine List.Pairwise.filterMap _ (fun a b hne ref href ref' href' => ?_) (pairwise_map.mp hids)
    rw [messageId_inFlight_materialize href, messageId_inFlight_materialize href']
    exact hne
  rw [inFlightFromRefs, record_eq_some_iff hnodup, hrefs]
  constructor
  · rintro ⟨ref, href, rfl, rfl⟩
    exact mem_filterMap.mp href
  · rintro ⟨m, hm, href⟩
    exact ⟨⟨id, k⟩, mem_filterMap.mpr ⟨m, hm, href⟩, rfl, rfl⟩

end

/-- A snapshot is either the newest part of the log, or what lies above a cursor with some rows
    below it refreshed. -/
theorem snapshotRows_cases :
    snapshotRows cfg log sinceSeq = fullSnapshotRows cfg log ∨
      ∃ since, sinceSeq = some since ∧ since ≤ log.latestSeq ∧
        log.latestSeq - since ≤ catchupMaxRows ∧
        snapshotRows cfg log sinceSeq = catchupSnapshotRows cfg log since := by
  unfold snapshotRows
  cases sinceSeq with
  | none => exact .inl rfl
  | some since =>
    dsimp only
    split
    · exact .inl rfl
    · rename_i hneeds
      refine .inr ⟨since, rfl, ?_, ?_, rfl⟩ <;>
        simp only [needsFullSnapshot, Bool.or_eq_true, decide_eq_true_eq] at hneeds <;> omega

theorem resyncRows_subset
    {m : ChannelMessage} (hm : m ∈ (snapshotRows cfg log sinceSeq).resyncRows) : m ∈ log.rows := by
  rcases snapshotRows_cases cfg log sinceSeq with h | ⟨since, -, -, -, h⟩ <;> rw [h] at hm
  · exact absurd hm not_mem_nil
  · exact ((mem_resyncRows_iff cfg log since m).mp hm).1

theorem ranked_resyncRows :
    Ranked ChannelMessage.seq (snapshotRows cfg log sinceSeq).resyncRows := by
  rcases snapshotRows_cases cfg log sinceSeq with h | ⟨since, -, -, -, h⟩ <;> rw [h]
  · exact ranked_nil
  · rw [resyncRows_eq]
    split
    · exact (log.ranked_listResyncRows since catchupMaxRows).sublist
        (takeWithin_reverse_suffix _ _ _ _ _).sublist
    · exact ranked_nil

theorem rows_sublist : (snapshotRows cfg log sinceSeq).rows.Sublist log.rows := by
  rcases snapshotRows_cases cfg log sinceSeq with h | ⟨since, -, hle, hgap, h⟩ <;> rw [h]
  · exact (fullSnapshotRows_suffix cfg log).sublist
  · exact (catchupSnapshotRows_spec cfg log hle hgap).1

theorem spans_snapshotRows :
    ∃ base ≤ (snapshotRows cfg log sinceSeq).snapshotLatestSeq,
      (snapshotRows cfg log sinceSeq).snapshotLatestSeq ≤ log.latestSeq ∧
      Spans ChannelMessage.seq base (snapshotRows cfg log sinceSeq).snapshotLatestSeq
        (snapshotRows cfg log sinceSeq).rows ∧
      ((snapshotRows cfg log sinceSeq).mode = .catchup → sinceSeq = some base) := by
  rcases snapshotRows_cases cfg log sinceSeq with h | ⟨since, hsome, hle, hgap, h⟩ <;> rw [h]
  · obtain ⟨-, base, hbase, hspans⟩ := fullSnapshotRows_spec cfg log
    exact ⟨base, hbase, le_rfl, hspans, fun hmode => nomatch hmode⟩
  · obtain ⟨-, hlo, hhi, hspans⟩ := catchupSnapshotRows_spec cfg log hle hgap
    exact ⟨since, hlo, hhi, hspans, fun _ => hsome⟩

theorem snapshotRows_of_not_needsFull {since : ℕ}
    (h : needsFullSnapshot log.latestSeq (some since) = false) :
    since ≤ log.latestSeq ∧ log.latestSeq - since ≤ catchupMaxRows ∧
      snapshotRows cfg log (some since) = catchupSnapshotRows cfg log since := by
  have hrows : snapshotRows cfg log (some since) = catchupSnapshotRows cfg log since :=
    if_neg (by simp [h])
  simp only [needsFullSnapshot, Bool.or_eq_false_iff, decide_eq_false_iff_not] at h
  exact ⟨by omega, by omega, hrows⟩

section
variable (hub : Hub κ)

theorem lt_of_mem_messages_buildSnapshot {since : ℕ}
    (h : needsFullSnapshot hub.log.latestSeq (some since) = false) {m : ChannelMessage}
    (hm : m ∈ (hub.buildSnapshot cfg (some since)).messages) : since < m.seq := by
  obtain ⟨hle, hgap, hrows⟩ := snapshotRows_of_not_needsFull cfg hub.log h
  obtain ⟨-, -, -, hspans⟩ := catchupSnapshotRows_spec cfg hub.log hle hgap
  rw [messages_buildSnapshot, hrows] at hm
  exact (spans_materialize hspans hub.accumulators).lt hm

/-- **Replacements**: a catch-up refreshes a held row exactly when the row may have changed in
    place and its refresh fits. -/
theorem exists_replacement_iff {since : ℕ}
    (h : needsFullSnapshot hub.log.latestSeq (some since) = false) {m r : ChannelMessage}
    (hr : r ∈ hub.log.rows) (hid : r.id = m.id) (hseq : r.seq = m.seq) (hle : m.seq ≤ since) :
    (∃ rep ∈ (hub.buildSnapshot cfg (some since)).stateReplacements.getD [],
      rep.message.id = m.id) ↔ r.isResyncRow = true ∧ ResyncFits cfg hub.log since m := by
  obtain ⟨-, -, hrows⟩ := snapshotRows_of_not_needsFull cfg hub.log h
  have hfits : ResyncFits cfg hub.log since r ↔ ResyncFits cfg hub.log since m := by
    unfold ResyncFits resyncFrom
    rw [hseq]
  rw [replacements_buildSnapshot, hrows, ← hfits]
  constructor
  · rintro ⟨rep, hrep, hrid⟩
    obtain ⟨row, hrow, rfl⟩ := mem_map.mp hrep
    obtain ⟨hmem, -, hresync, hrowfits⟩ := (mem_resyncRows_iff cfg hub.log since row).mp hrow
    rw [id_materialize] at hrid
    obtain rfl := hub.log.eq_of_id_eq hmem hr (hrid.trans hid.symm)
    exact ⟨hresync, hrowfits⟩
  · rintro ⟨hresync, hrowfits⟩
    have hrow := (mem_resyncRows_iff cfg hub.log since r).mpr
      ⟨hr, hseq ▸ hle, hresync, hrowfits⟩
    exact ⟨_, mem_map_of_mem hrow, (id_materialize _ _).trans hid⟩

theorem nodup_replacements_buildSnapshot (sinceSeq : Option ℕ) :
    (((hub.buildSnapshot cfg sinceSeq).stateReplacements.getD []).map
      (·.message.id)).Nodup := by
  rw [replacements_buildSnapshot, map_map]
  have hresync : ((snapshotRows cfg hub.log sinceSeq).resyncRows.map (·.id)).Nodup :=
    ids_nodup
      (fun m hm => hub.log.versionOf_of_mem (resyncRows_subset cfg hub.log sinceSeq hm))
      (ranked_resyncRows cfg hub.log sinceSeq)
  have hsame : ((snapshotRows cfg hub.log sinceSeq).resyncRows.map fun m =>
      (materialize hub.accumulators m).message.id) =
        (snapshotRows cfg hub.log sinceSeq).resyncRows.map (·.id) :=
    map_congr_left fun m _ => id_materialize hub.accumulators m
  exact hsame ▸ hresync

/-- **Snapshots**: a snapshot is an event about the log it is built from. -/
theorem eventOf_buildSnapshot (sinceSeq : Option ℕ) :
    EventOf hub.log (.snapshot (hub.buildSnapshot cfg sinceSeq)) := by
  obtain ⟨base, hbase, hlatest, hspans, -⟩ := spans_snapshotRows cfg hub.log sinceSeq
  have hsub := rows_sublist cfg hub.log sinceSeq
  refine ⟨fun m hm => ?_, ?_, hlatest, fun r hr => ?_⟩
  · rw [messages_buildSnapshot] at hm
    obtain ⟨row, hrow, rfl⟩ := mem_map.mp hm
    refine ⟨?_, ?_⟩
    · exact versionOf_materialize _ (hub.log.versionOf_of_mem (hsub.subset hrow))
    · rw [seq_materialize]
      exact hspans.le hrow
  · rw [messages_buildSnapshot]
    exact ranked_materialize (hub.log.ranked.sublist hsub) _
  · rw [replacements_buildSnapshot] at hr
    obtain ⟨row, hrow, rfl⟩ := mem_map.mp hr
    exact versionOf_materialize _
      (hub.log.versionOf_of_mem (resyncRows_subset cfg hub.log sinceSeq hrow))

end

end RelayIde.Channel
