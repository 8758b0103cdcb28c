import RelayIde.Channel.CatchUp

/-!
# Ranges of Snapshots

Which part of the log a snapshot delivers, and what rounds of catch-up snapshots deliver together.

- `snapshot_of_range` — the block, its budget, and what `truncated` says
-/

open List

namespace RelayIde.Library

variable {α : Type}

theorem length_le_one_or_sum_le (weight : α → ℕ) (budget : ℕ) (l : List α) :
    (takeWithin weight budget true 0 l).kept.length ≤ 1 ∨
      ((takeWithin weight budget true 0 l).kept.map weight).sum ≤ budget := by
  cases l with
  | nil => exact .inl (Nat.zero_le 1)
  | cons a l =>
    have hkept : (takeWithin weight budget true 0 (a :: l)).kept =
        a :: (takeWithin weight budget false (weight a) l).kept := by
      simp [takeWithin]
    rw [hkept]
    by_cases hfits : weight a ≤ budget
    · obtain ⟨-, -, hbytes, -⟩ := takeWithin_spec weight budget false (weight a) l
      have hle := bytes_takeWithin_le weight budget (weight a) l hfits
      rw [map_cons, sum_cons]
      exact .inr (hbytes ▸ hle)
    · -- nothing fits behind an element that is over the budget alone
      refine .inl ?_
      cases l with
      | nil => simp [takeWithin]
      | cons b l =>
        have hover : weight a + weight b > budget := by omega
        simp [takeWithin, hover]

end RelayIde.Library

namespace RelayIde.Channel

open RelayIde.Library MessageLog

variable {κ : Type}

/-! ## The budget -/

/-- The bytes of rows, as the pass counts them. -/
def rowsBytes (cfg : HubConfig) (rows : List ChannelMessage) : ℕ :=
  (rows.map fun row => cfg.rowBytes row + 1).sum

variable (cfg : HubConfig) (log : MessageLog)

theorem rowsBytes_snapshotRows (sinceSeq : Option ℕ) :
    (snapshotRows cfg log sinceSeq).rows.length ≤ 1 ∨
      rowsBytes cfg (snapshotRows cfg log sinceSeq).rows ≤ cfg.snapshotMaxBytes := by
  rcases snapshotRows_cases cfg log sinceSeq with h | ⟨since, -, -, -, h⟩ <;> rw [h]
  · have hpass := length_le_one_or_sum_le (fun row => cfg.rowBytes row + 1) cfg.snapshotMaxBytes
      (log.history { limit := some snapshotFullLimit }).reverse
    rwa [← length_reverse, ← sum_reverse, ← map_reverse] at hpass
  · exact length_le_one_or_sum_le _ _ _

/-! ## Full snapshots -/

theorem rows_eq_nil_of_latestSeq {log : MessageLog} (h : log.latestSeq = 0) : log.rows = [] := by
  rw [eq_nil_iff_forall_not_mem]
  intro m hm
  have hpos := log.dense.lt hm
  have hle := log.seq_le_latestSeq hm
  omega

theorem truncated_fullSnapshotRows_iff :
    (fullSnapshotRows cfg log).truncated = true ↔ (fullSnapshotRows cfg log).rows ≠ log.rows := by
  obtain ⟨front, hfront⟩ := fullSnapshotRows_suffix cfg log
  obtain ⟨rest, hsplit, -, htrunc, -⟩ := takeWithin_spec (fun row => cfg.rowBytes row + 1)
    cfg.snapshotMaxBytes true 0 (log.history { limit := some snapshotFullLimit }).reverse
  have hflag : (fullSnapshotRows cfg log).truncated =
      ((takeWithin (fun row => cfg.rowBytes row + 1) cfg.snapshotMaxBytes true 0
          (log.history { limit := some snapshotFullLimit }).reverse).truncated ||
        (fullSnapshotRows cfg log).rows.head?.any fun first => decide (first.seq > 1)) := by
    unfold fullSnapshotRows
    dsimp only
    split <;> rename_i heq <;> rw [heq] <;> rfl
  have hlength : (fullSnapshotRows cfg log).rows.length + rest.length ≤ log.rows.length := by
    have hrows : (fullSnapshotRows cfg log).rows.length =
        (takeWithin (fun row => cfg.rowBytes row + 1) cfg.snapshotMaxBytes true 0
          (log.history { limit := some snapshotFullLimit }).reverse).kept.length :=
      length_reverse
    have hpage := congrArg List.length hsplit
    rw [length_reverse, length_append, ← hrows] at hpage
    rw [← hpage]
    exact (log.history_newest_suffix snapshotFullLimit).length_le
  have hranked : Ranked ChannelMessage.seq (front ++ (fullSnapshotRows cfg log).rows) := by
    rw [hfront]
    exact log.ranked
  rw [hflag, Bool.or_eq_true, htrunc]
  cases hhead : (fullSnapshotRows cfg log).rows.head? with
  | none =>
    -- only an empty log has an empty snapshot
    have hnil := head?_eq_none_iff.mp hhead
    have hlog := rows_eq_nil_of_latestSeq (latestSeq_eq_zero_of_fullSnapshotRows cfg log hnil)
    rw [hlog, hnil] at hlength
    rw [hlog, hnil]
    simpa using length_eq_zero_iff.mp (Nat.le_zero.mp (by simpa using hlength))
  | some first =>
    obtain ⟨tail, htail⟩ := head?_eq_some_iff.mp hhead
    rw [Option.any_some, decide_eq_true_eq]
    constructor
    · rintro (hrest | hlate) hwhole
      · rw [hwhole] at hlength
        have hpos := length_pos_of_ne_nil hrest
        omega
      · -- a whole log starts with its first row
        have hmem : first ∈ log.rows := by simp [← hwhole, htail]
        obtain ⟨m, hm, hseq⟩ := log.dense.exists_mem Nat.one_pos
          ((log.dense.lt hmem).trans_le (log.dense.le hmem))
        have hle := log.ranked.head?_le (hwhole ▸ hhead) hm
        omega
    · intro hpart
      refine .inr ?_
      have hne : front ≠ [] := by
        rintro rfl
        exact hpart hfront
      obtain ⟨m, hm⟩ := exists_mem_of_ne_nil _ hne
      have hlt := hranked.lt_of_append hm (b := first) (by simp [htail])
      have hpos := log.dense.lt (hfront ▸ mem_append_left _ hm : m ∈ log.rows)
      omega

/-! ## Catch-up snapshots -/

variable {since : ℕ} {s : ChannelReducerState}

theorem prefix_catchupSnapshotRows (hgap : log.latestSeq - since ≤ catchupMaxRows) :
    ∃ rest, log.above since = (catchupSnapshotRows cfg log since).rows ++ rest ∧
      ((freshAssembled cfg log since).truncated = true ↔ rest ≠ []) := by
  obtain ⟨rest, hsplit, -, htrunc, -⟩ := takeWithin_spec (fun row => cfg.rowBytes row + 1)
    cfg.snapshotMaxBytes true 0 (freshRows log catchupMaxRows since [])
  rw [freshRows_eq log since hgap] at hsplit
  refine ⟨rest, ?_, htrunc⟩
  show _ = (freshAssembled cfg log since).kept ++ rest
  unfold freshAssembled
  rw [freshRows_eq log since hgap]
  exact hsplit

theorem above_eq_rows_append
    (hsince : since ≤ log.latestSeq) (hgap : log.latestSeq - since ≤ catchupMaxRows) :
    log.above since = (catchupSnapshotRows cfg log since).rows ++
      log.above (catchupSnapshotRows cfg log since).snapshotLatestSeq := by
  obtain ⟨hsub, hlo, hhi, hspans⟩ := catchupSnapshotRows_spec cfg log hsince hgap
  have hranked := log.ranked.sublist hsub
  have habove {c : ℕ} {m : ChannelMessage} : m ∈ log.above c ↔ m ∈ log.rows ∧ c < m.seq := by
    simp [above]
  have hall : Ranked ChannelMessage.seq ((catchupSnapshotRows cfg log since).rows ++
      log.above (catchupSnapshotRows cfg log since).snapshotLatestSeq) := by
    show List.Pairwise _ _
    rw [pairwise_append]
    refine ⟨hranked, ranked_above log _, fun a ha b hb => ?_⟩
    exact (hspans.le ha).trans_lt (habove.mp hb).2
  refine Ranked.eq_of_mem_iff (ranked_above log since) hall fun m => ?_
  rw [mem_append, habove, habove]
  constructor
  · rintro ⟨hm, hlt⟩
    by_cases hle : m.seq ≤ (catchupSnapshotRows cfg log since).snapshotLatestSeq
    · obtain ⟨row, hrow, hseq⟩ := hspans.exists_mem hlt hle
      exact .inl (log.eq_of_seq_eq (hsub.subset hrow) hm hseq ▸ hrow)
    · exact .inr ⟨hm, by omega⟩
  · rintro (hm | ⟨hm, hlt⟩)
    · exact ⟨hsub.subset hm, hspans.lt hm⟩
    · exact ⟨hm, by omega⟩

theorem lt_snapshotLatestSeq
    (hsince : since < log.latestSeq) (hgap : log.latestSeq - since ≤ catchupMaxRows) :
    since < (catchupSnapshotRows cfg log since).snapshotLatestSeq := by
  obtain ⟨-, -, -, hspans⟩ := catchupSnapshotRows_spec cfg log hsince.le hgap
  have hne : (catchupSnapshotRows cfg log since).rows ≠ [] := by
    show (freshAssembled cfg log since).kept ≠ []
    apply kept_takeWithin_ne_nil
    rw [freshRows_eq log since hgap, ← length_pos_iff, length_above]
    omega
  obtain ⟨m, hm⟩ := exists_mem_of_ne_nil _ hne
  exact (hspans.lt hm).trans_le (hspans.le hm)

theorem snapshotLatestSeq_eq (hgap : log.latestSeq - since ≤ catchupMaxRows) :
    if (catchupSnapshotRows cfg log since).rows = log.above since then
      (catchupSnapshotRows cfg log since).snapshotLatestSeq = log.latestSeq
    else
      ∃ last, (catchupSnapshotRows cfg log since).rows.getLast? = some last ∧
        (catchupSnapshotRows cfg log since).snapshotLatestSeq = last.seq := by
  obtain ⟨rest, hrest, htrunc⟩ := prefix_catchupSnapshotRows cfg log hgap
  split_ifs with hwhole
  · have hnil : rest = [] := by
      rw [hwhole] at hrest
      exact self_eq_append_right.mp hrest
    exact snapshotLatestSeq_of_whole cfg log since
      (Bool.eq_false_iff.mpr fun h => htrunc.mp h hnil)
  · have hcut : (freshAssembled cfg log since).truncated = true := by
      rw [htrunc]
      rintro rfl
      exact hwhole (by rw [hrest, append_nil])
    have hne : (catchupSnapshotRows cfg log since).rows ≠ [] := by
      show (freshAssembled cfg log since).kept ≠ []
      apply kept_takeWithin_ne_nil
      rw [freshRows_eq log since hgap]
      intro hnil
      rw [hnil] at hrest hwhole
      exact hwhole (append_eq_nil_iff.mp hrest.symm).1
    have hlast := getLast?_eq_some_getLast hne
    exact ⟨_, hlast, snapshotLatestSeq_of_cut cfg log since hcut hlast⟩

theorem truncated_catchupSnapshotRows_iff (hgap : log.latestSeq - since ≤ catchupMaxRows) :
    (catchupSnapshotRows cfg log since).truncated = true ↔
      (catchupSnapshotRows cfg log since).rows ≠ log.above since ∨
        (catchupSnapshotRows cfg log since).resyncRows ≠
          log.listResyncRows since catchupMaxRows := by
  obtain ⟨rest, hrest, htrunc⟩ := prefix_catchupSnapshotRows cfg log hgap
  have hfresh : (freshAssembled cfg log since).truncated = true ↔
      (catchupSnapshotRows cfg log since).rows ≠ log.above since := by
    rw [htrunc, hrest, ne_eq, ne_eq, self_eq_append_right]
  rw [← hfresh, resyncRows_eq]
  have hflag : (catchupSnapshotRows cfg log since).truncated =
      ((freshAssembled cfg log since).truncated ||
        (if remainingBytes cfg log since > 0 then
          assembleWithBudget cfg (log.listResyncRows since catchupMaxRows) .tail
            (remainingBytes cfg log since) false
        else
          ⟨[], decide ((log.listResyncRows since catchupMaxRows).length > 0), 0⟩).truncated) := rfl
  rw [hflag, Bool.or_eq_true]
  refine or_congr Iff.rfl ?_
  split
  · obtain ⟨rest, hsplit, -, htrunc, -⟩ := takeWithin_spec (fun row => cfg.rowBytes row + 1)
      (remainingBytes cfg log since) false 0 (log.listResyncRows since catchupMaxRows).reverse
    refine htrunc.trans (not_congr ?_)
    show _ ↔ List.reverse _ = _
    rw [reverse_eq_iff]
    constructor
    · intro hnil
      exact (hsplit.trans (by rw [hnil, append_nil])).symm
    · intro hkept
      exact self_eq_append_right.mp (hkept.trans hsplit)
  · rw [decide_eq_true_eq, gt_iff_lt, length_pos_iff]
    exact ⟨Ne.symm, Ne.symm⟩

/-! ## Rounds -/

/-- The fresh rows of `n` rounds, in the order they arrive. -/
def delivered (cfg : HubConfig) (hub : Hub κ) (s : ChannelReducerState) : ℕ → List ChannelMessage
  | 0 => []
  | n + 1 =>
    delivered cfg hub s n ++ (hub.buildSnapshot cfg (some (catchUp cfg hub s n).lastSeq)).messages

/-- The row as the hub sends it. -/
def overlaid (hub : Hub κ) (m : ChannelMessage) : ChannelMessage :=
  (materialize hub.accumulators m).message

theorem lastSeq_round (hub : Hub κ)
    (hneeds : needsFullSnapshot hub.log.latestSeq (some s.lastSeq) = false) :
    (applyChannelEvent s (.snapshot (hub.buildSnapshot cfg (some s.lastSeq)))).lastSeq =
      (catchupSnapshotRows cfg hub.log s.lastSeq).snapshotLatestSeq := by
  obtain ⟨hle, hgap, hrows⟩ := snapshotRows_of_not_needsFull cfg hub.log hneeds
  have hmode : (hub.buildSnapshot cfg (some s.lastSeq)).mode = .catchup :=
    congrArg SnapshotRows.mode hrows
  have hhead : (hub.buildSnapshot cfg (some s.lastSeq)).latestSeq =
      (catchupSnapshotRows cfg hub.log s.lastSeq).snapshotLatestSeq :=
    congrArg SnapshotRows.snapshotLatestSeq hrows
  show (applySnapshot s _).lastSeq = _
  unfold applySnapshot
  rw [hmode]
  rw [lastSeq_applyCatchupSnapshot, hhead]
  exact max_eq_right (catchupSnapshotRows_spec cfg hub.log hle hgap).2.1

structure Progress (cfg : HubConfig) (hub : Hub κ) (s : ChannelReducerState) (n : ℕ) : Prop where
  near : needsFullSnapshot hub.log.latestSeq (some (catchUp cfg hub s n).lastSeq) = false
  whole : delivered cfg hub s n ++
      (hub.log.above (catchUp cfg hub s n).lastSeq).map (overlaid hub) =
    (hub.log.above s.lastSeq).map (overlaid hub)
  moves : hub.log.latestSeq ≤ (catchUp cfg hub s n).lastSeq ∨
    s.lastSeq + n ≤ (catchUp cfg hub s n).lastSeq

theorem needsFullSnapshot_eq_false_iff {latestSeq : ℕ} :
    needsFullSnapshot latestSeq (some since) = false ↔
      since ≤ latestSeq ∧ latestSeq - since ≤ catchupMaxRows := by
  simp [needsFullSnapshot]

theorem progress_catchUp (hub : Hub κ)
    (hneeds : needsFullSnapshot hub.log.latestSeq (some s.lastSeq) = false) (n : ℕ) :
    Progress cfg hub s n := by
  induction n with
  | zero => exact ⟨hneeds, nil_append _, .inr le_rfl⟩
  | succ n ih =>
    obtain ⟨hle, hgap, hrows⟩ := snapshotRows_of_not_needsFull cfg hub.log ih.near
    obtain ⟨-, hlo, hhi, -⟩ := catchupSnapshotRows_spec cfg hub.log hle hgap
    have hlast : (catchUp cfg hub s (n + 1)).lastSeq =
        (catchupSnapshotRows cfg hub.log (catchUp cfg hub s n).lastSeq).snapshotLatestSeq :=
      lastSeq_round cfg hub ih.near
    refine ⟨?_, ?_, ?_⟩
    · rw [needsFullSnapshot_eq_false_iff]
      omega
    · -- the round takes its rows from the front of what was left
      have hmessages : (hub.buildSnapshot cfg (some (catchUp cfg hub s n).lastSeq)).messages =
          (catchupSnapshotRows cfg hub.log (catchUp cfg hub s n).lastSeq).rows.map
            (overlaid hub) := by
        rw [messages_buildSnapshot, hrows]
        rfl
      rw [← ih.whole, above_eq_rows_append cfg hub.log hle hgap, hlast, map_append]
      show (_ ++ _) ++ _ = _
      rw [hmessages, append_assoc]
    · rw [hlast]
      rcases hle.eq_or_lt with heq | hlt
      · exact .inl (heq ▸ hlo)
      · have hstep := lt_snapshotLatestSeq cfg hub.log hlt hgap
        have hmoves := ih.moves
        omega

theorem delivered_eq_above (hub : Hub κ)
    (hneeds : needsFullSnapshot hub.log.latestSeq (some s.lastSeq) = false) {n : ℕ}
    (hn : (hub.log.above s.lastSeq).length ≤ n) :
    delivered cfg hub s n = (hub.log.above s.lastSeq).map (overlaid hub) ∧
      (catchUp cfg hub s n).lastSeq = hub.log.latestSeq := by
  have hp := progress_catchUp cfg hub hneeds n
  have hnear := needsFullSnapshot_eq_false_iff.mp hp.near
  rw [length_above] at hn
  have hend : (catchUp cfg hub s n).lastSeq = hub.log.latestSeq := by
    have hmoves := hp.moves
    omega
  refine ⟨?_, hend⟩
  have hnone : hub.log.above (catchUp cfg hub s n).lastSeq = [] := by
    rw [← length_eq_zero_iff, length_above, hend, Nat.sub_self]
  rw [← hp.whole, hnone, map_nil, append_nil]

/-! ## Snapshots of a range -/

structure FullRange (cfg : HubConfig) (hub : Hub κ) (sinceSeq : Option ℕ) : Prop where
  mode : (hub.buildSnapshot cfg sinceSeq).mode = .full
  newest : (snapshotRows cfg hub.log sinceSeq).rows <:+ hub.log.rows
  limit : (snapshotRows cfg hub.log sinceSeq).rows.length ≤ snapshotFullLimit
  truncated : (hub.buildSnapshot cfg sinceSeq).truncated = true ↔
    (snapshotRows cfg hub.log sinceSeq).rows ≠ hub.log.rows
  latestSeq : (hub.buildSnapshot cfg sinceSeq).latestSeq = hub.log.latestSeq

structure CatchUpRange (cfg : HubConfig) (hub : Hub κ) (since : ℕ) : Prop where
  mode : (hub.buildSnapshot cfg (some since)).mode = .catchup
  block : hub.log.above since <:+ hub.log.rows
  oldest : (snapshotRows cfg hub.log (some since)).rows <+: hub.log.above since
  truncated : (hub.buildSnapshot cfg (some since)).truncated = true ↔
    (snapshotRows cfg hub.log (some since)).rows ≠ hub.log.above since ∨
      (snapshotRows cfg hub.log (some since)).resyncRows ≠
        hub.log.listResyncRows since catchupMaxRows
  latestSeq : if (snapshotRows cfg hub.log (some since)).rows = hub.log.above since then
      (hub.buildSnapshot cfg (some since)).latestSeq = hub.log.latestSeq
    else
      ∃ last, (snapshotRows cfg hub.log (some since)).rows.getLast? = some last ∧
        (hub.buildSnapshot cfg (some since)).latestSeq = last.seq
  /-- Rounds from any client with this cursor deliver each row above it once, in order. -/
  rounds : ∀ s : ChannelReducerState, s.lastSeq = since →
    ∀ n, (hub.log.above since).length ≤ n →
      delivered cfg hub s n = (hub.log.above since).map (overlaid hub) ∧
        (catchUp cfg hub s n).lastSeq = hub.log.latestSeq

theorem above_suffix (cursor : ℕ) : log.above cursor <:+ log.rows := by
  refine ⟨log.rows.filter fun m => decide (m.seq ≤ cursor), ?_⟩
  have hall : Ranked ChannelMessage.seq
      (log.rows.filter (fun m => decide (m.seq ≤ cursor)) ++ log.above cursor) := by
    show List.Pairwise _ _
    rw [pairwise_append]
    refine ⟨log.ranked.filter _, ranked_above log cursor, fun a ha b hb => ?_⟩
    simp only [above, mem_filter, decide_eq_true_eq] at ha hb
    exact ha.2.trans_lt hb.2
  refine Ranked.eq_of_mem_iff hall log.ranked fun m => ?_
  rw [mem_append, above, mem_filter, mem_filter, decide_eq_true_eq,
    decide_eq_true_eq, ← and_or_left]
  exact and_iff_left (le_or_gt _ _)

/-- A snapshot delivers the newest rows of the log, or the oldest above the cursor. -/
theorem snapshot_of_range (cfg : HubConfig) (hub : Hub κ) (sinceSeq : Option ℕ) :
    (hub.buildSnapshot cfg sinceSeq).messages =
        (snapshotRows cfg hub.log sinceSeq).rows.map (overlaid hub) ∧
      ((snapshotRows cfg hub.log sinceSeq).rows.length ≤ 1 ∨
        rowsBytes cfg (snapshotRows cfg hub.log sinceSeq).rows ≤ cfg.snapshotMaxBytes) ∧
      if needsFullSnapshot hub.log.latestSeq sinceSeq = true then FullRange cfg hub sinceSeq
      else ∃ since, sinceSeq = some since ∧ CatchUpRange cfg hub since := by
  refine ⟨messages_buildSnapshot cfg hub sinceSeq, rowsBytes_snapshotRows cfg hub.log sinceSeq, ?_⟩
  split_ifs with hneeds
  · have hrows : snapshotRows cfg hub.log sinceSeq = fullSnapshotRows cfg hub.log := by
      cases sinceSeq with
      | none => rfl
      | some since => exact if_pos hneeds
    refine ⟨congrArg SnapshotRows.mode hrows, ?_, ?_, ?_,
      congrArg SnapshotRows.snapshotLatestSeq hrows⟩
    · rw [hrows]
      exact fullSnapshotRows_suffix cfg hub.log
    · rw [hrows]
      exact length_fullSnapshotRows_le cfg hub.log
    · show (snapshotRows cfg hub.log sinceSeq).truncated = true ↔ _
      rw [hrows]
      exact truncated_fullSnapshotRows_iff cfg hub.log
  · obtain ⟨since, rfl⟩ : ∃ since, sinceSeq = some since := by
      cases sinceSeq with
      | none => exact absurd rfl hneeds
      | some since => exact ⟨since, rfl⟩
    rw [Bool.not_eq_true] at hneeds
    obtain ⟨hle, hgap, hrows⟩ := snapshotRows_of_not_needsFull cfg hub.log hneeds
    refine ⟨since, rfl, congrArg SnapshotRows.mode hrows, above_suffix hub.log since, ?_, ?_, ?_,
      ?_⟩
    · obtain ⟨rest, hrest, -⟩ := prefix_catchupSnapshotRows cfg hub.log hgap
      rw [hrows]
      exact ⟨rest, hrest.symm⟩
    · show (snapshotRows cfg hub.log (some since)).truncated = true ↔ _
      rw [hrows]
      exact truncated_catchupSnapshotRows_iff cfg hub.log hgap
    · have hhead : (hub.buildSnapshot cfg (some since)).latestSeq =
          (catchupSnapshotRows cfg hub.log since).snapshotLatestSeq :=
        congrArg SnapshotRows.snapshotLatestSeq hrows
      rw [hhead, hrows]
      exact snapshotLatestSeq_eq cfg hub.log hgap
    · rintro s rfl n hn
      exact delivered_eq_above cfg hub hneeds hn

/-! ## Tight budgets -/

/-- A server with a small budget, whose rows take a byte and their text. -/
def tightServer : SessionConfig where
  snapshotMaxBytes := 4
  connectQueueMaxEvents := 100
  connectQueueMaxBytes := 100
  rowBytes := fun row => 1 + row.text.length
  runBytes := fun _ => 0
  eventBytes := fun _ => 0
  historyMaxBytes := 10000

/-- One agent row, complete. -/
def oneRow : Session Unit :=
  exec (Session.step tightServer) Session.start [agentOp 0]

/-- Two agent streams, one with text that is not stored yet. -/
def twoStreams : Session Unit :=
  exec (Session.step tightServer) Session.start
    [.beginStream 0 { id := "a", sender := ⟨.agent, "claude"⟩, runtimeId := "runtime" }
        (fun _ => {}),
      .beginStream 1 { id := "b", sender := ⟨.agent, "claude"⟩, runtimeId := "runtime" }
        (fun _ => {}),
      .pushDelta "b" "working"]

/-- A catch-up from the head leaves out no row above it, and is truncated with no row delivered.
    With its open streams overlaid, a snapshot of two rows is over the budget. -/
theorem truncated_catchup_at_head :
    ((oneRow.hub.buildSnapshot tightServer.toHubConfig (some 1)).mode = .catchup ∧
      oneRow.hub.log.above 1 = [] ∧
      (oneRow.hub.buildSnapshot tightServer.toHubConfig (some 1)).messages = [] ∧
      (oneRow.hub.buildSnapshot tightServer.toHubConfig (some 1)).truncated = true) ∧
    (twoStreams.hub.buildSnapshot tightServer.toHubConfig none).messages.length = 2 ∧
      tightServer.snapshotMaxBytes < rowsBytes tightServer.toHubConfig
        (twoStreams.hub.buildSnapshot tightServer.toHubConfig none).messages := by
  decide

end RelayIde.Channel
