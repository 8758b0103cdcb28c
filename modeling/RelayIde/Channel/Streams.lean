import RelayIde.Channel.Session

/-!
# Streams and Their Flushed Text

The text a hub has emitted of each open stream, by delta index.  `Observed` carries it next to
the session: the text an accumulator stands at whenever nothing is pending, once per index, the
initial text under the index `-1`.

- `FrameOk` — what a frame says of streams agrees with what was flushed
-/

namespace RelayIde.Channel

open RelayIde.Library MessageLog List

/-! ## What was flushed -/

/-- The flushed text of a stream at a delta index. -/
abbrev FlushedText := ChannelMessageId → ℤ → Option String

/-- Notes the text of every accumulator with nothing pending; an index is noted once. -/
def noteFlushed (accumulators : Table Accumulator.messageId) (flushedAt : FlushedText) :
    FlushedText := fun id k =>
  match flushedAt id k, accumulators.find? id with
  | none, some acc => if acc.deltaIndex = k ∧ acc.pendingText = "" then some acc.text else none
  | known, _ => known

structure Observed (κ : Type) where
  session : Session κ
  flushedAt : FlushedText

variable {κ : Type}

def Observed.start : Observed κ where
  session := .start
  flushedAt := fun _ _ => none

def Observed.step [DecidableEq κ] (cfg : SessionConfig) (o : Observed κ) (op : SessionOp κ) :
    Observed κ where
  session := o.session.step cfg op
  flushedAt := noteFlushed (o.session.step cfg op).hub.accumulators o.flushedAt

variable {accumulators : Table Accumulator.messageId} {flushedAt flushedAt' : FlushedText}
  {hub hub' : Hub κ}

variable {id : ChannelMessageId} {t : String} {m : ChannelMessage} {op : SessionOp κ}
  {o : Observed κ} {f : ChannelEvent}

theorem noteFlushed_of_some {k : ℤ}
    (h : flushedAt id k = some t) : noteFlushed accumulators flushedAt id k = some t := by
  unfold noteFlushed
  rw [h]

theorem noteFlushed_of_mem {acc : Accumulator} (hacc : acc ∈ accumulators.rows)
    (h : flushedAt acc.messageId acc.deltaIndex = none) (hpending : acc.pendingText = "") :
    noteFlushed accumulators flushedAt acc.messageId acc.deltaIndex = some acc.text := by
  unfold noteFlushed
  rw [h, (accumulators.find?_eq_some_iff acc.messageId acc).mpr ⟨hacc, rfl⟩]
  exact if_pos ⟨rfl, hpending⟩

/-- A noted text was known before, or is the one an accumulator stands at. -/
theorem noteFlushed_eq_some {k : ℤ} (h : noteFlushed accumulators flushedAt id k = some t) :
    flushedAt id k = some t ∨ ∃ acc ∈ accumulators.rows, acc.messageId = id ∧
      acc.deltaIndex = k := by
  unfold noteFlushed at h
  split at h
  · rename_i acc hknown hacc
    split at h
    · rename_i hstands
      obtain ⟨hmem, hid⟩ := (accumulators.find?_eq_some_iff id acc).mp hacc
      exact .inr ⟨acc, hmem, hid, hstands.1⟩
    · cases h
  · exact .inl h

/-! ## What an operation does to the streams -/

def SessionOp.OnStreams : SessionOp κ → Prop
  | .post .. => True
  | .beginStream .. => True
  | .pushDelta .. => True
  | .flush .. => True
  | .persistText .. => True
  | .finalize .. => True
  | .subscribe .. => True
  | .disconnect _ => True
  | .receive _ => True
  | _ => False

inductive StreamChange (hub hub' : Hub κ) : Prop where
  | unchanged (hrows : hub'.log.rows = hub.log.rows)
      (haccs : hub'.accumulators.rows = hub.accumulators.rows)
  | appended (row : ChannelMessage) (hrows : hub'.log.rows = hub.log.rows ++ [row])
      (hfinal : row.status ≠ .streaming)
      (haccs : hub'.accumulators.rows = hub.accumulators.rows)
  | opened (row : ChannelMessage) (hrows : hub'.log.rows = hub.log.rows ++ [row])
      (hnew : ∀ m ∈ hub.log.rows, m.id ≠ row.id) (hstreaming : row.status = .streaming)
      (haccs : hub'.accumulators.rows =
        (hub.accumulators.rows.filter fun a => !decide (a.messageId = row.id)) ++ [.opened row])
  | pushed (id : ChannelMessageId) (text : String) (hrows : hub'.log.rows = hub.log.rows)
      (haccs : hub'.accumulators.rows = hub.accumulators.rows.map fun a =>
        if a.messageId = id ∧ text.isEmpty = false then a.push text else a)
  | flushed (which : ChannelMessageId → Bool) (hrows : hub'.log.rows = hub.log.rows)
      (haccs : hub'.accumulators.rows = hub.accumulators.rows.map fun a =>
        if which a.messageId then a.flushed else a)
  | persisted (write : ChannelMessage → ChannelMessage)
      (hrows : hub'.log.rows = hub.log.rows.map write) (hid : ∀ m, (write m).id = m.id)
      (hstatus : ∀ m, (write m).status = m.status)
      (hfinal : ∀ m ∈ hub.log.rows, m.status ≠ .streaming → write m = m)
      (haccs : hub'.accumulators.rows = hub.accumulators.rows)
  | closed (now : Timestamp) (id : ChannelMessageId) (input : FinalizeInput)
      (hrows : hub'.log.rows = hub.log.rows.map fun m =>
        if m.id = id then finalizeRow now input m else m)
      (haccs : hub'.accumulators.rows =
        hub.accumulators.rows.filter fun a => !decide (a.messageId = id))

variable (cfg : SessionConfig) (now : Timestamp) (input : FinalizeInput)

theorem id_finalizeRow (m : ChannelMessage) : (finalizeRow now input m).id = m.id :=
  (finalizeRow_inPlace now input).id m

theorem status_finalizeRow (m : ChannelMessage) :
    (finalizeRow now input m).status ≠ .streaming := by
  unfold finalizeRow
  split
  · simp
  · assumption

theorem finalizeRow_of_final (h : m.status ≠ .streaming) : finalizeRow now input m = m :=
  if_neg h

/-- Completion: the returned row is closed, one that was final already included. -/
theorem streamChange_finalize (cfg : HubConfig) (hub : Hub κ) (now : Timestamp)
    (id : ChannelMessageId) (input : FinalizeInput) (probes : κ → Probe) :
    StreamChange hub
      ({ hub with log := (hub.log.finalizeStream now id input).1 }.completeReturned cfg probes
        (hub.log.finalizeStream now id input).2) := by
  rcases finalizeStream_cases hub.log now id input with
    ⟨row, hget, hrow, hlog, hret⟩ | ⟨hlog, hret, hfinal⟩
  · have hid : row.id = id := ((hub.log.getMessage_eq_some_iff _ _).mp hget).2
    rw [hret, hlog]
    apply StreamChange.closed now id input
    · exact rows_update _ _ _ (finalizeRow_inPlace now input)
    · show hub.accumulators.rows.filter
        (fun a => !decide (a.messageId = (finalizeRow now input row).id)) = _
      rw [id_finalizeRow, hid]
  · rw [hret, hlog]
    cases hget : hub.log.getMessage id with
    | none => exact .unchanged rfl rfl
    | some row =>
      obtain ⟨hmem, hid⟩ := (hub.log.getMessage_eq_some_iff _ _).mp hget
      apply StreamChange.closed now id input
      · show hub.log.rows = _
        have hkeep : ∀ m ∈ hub.log.rows,
            (if m.id = id then finalizeRow now input m else m) = m := by
          intro m hm
          split
          · rename_i hmid
            apply finalizeRow_of_final
            rw [hub.log.eq_of_id_eq hm hmem (hmid.trans hid.symm)]
            exact hfinal row hget
          · rfl
        rw [map_congr_left hkeep, map_id']
      · show hub.accumulators.rows.filter (fun a => !decide (a.messageId = row.id)) = _
        rw [hid]

theorem streamChange_step [DecidableEq κ] (s : Session κ) (hop : op.OnStreams) : StreamChange s.hub
    (s.step cfg op).hub := by
  cases op with
  | post now input probes =>
    unfold Session.step
    dsimp only
    split
    · exact .unchanged rfl rfl
    · rename_i log message h
      obtain ⟨hrow, hrows, -⟩ := rows_insertMessage h
      exact .appended message hrows (by rw [hrow]; simp) rfl
  | beginStream now input probes =>
    unfold Session.step
    dsimp only
    split
    · exact .unchanged rfl rfl
    · rename_i log message h
      obtain ⟨hrow, hrows, hnew⟩ := rows_insertMessage h
      refine .opened message hrows (fun m hm hid => ?_) (by rw [hrow])
        (rows_openAccumulator { s.hub with log := log } message)
      exact (Table.find?_eq_none_iff _ _).mp hnew m hm (by rw [hid, hrow])
  | pushDelta id text =>
    have hlog : (s.hub.pushDelta id text).log = s.hub.log := by
      unfold Hub.pushDelta
      split <;> rfl
    exact .pushed id text (congrArg MessageLog.rows hlog) (rows_pushDelta s.hub id text)
  | flush id probes =>
    refine .flushed (fun id' => decide (id' = id))
      (congrArg MessageLog.rows (log_flushAccumulator cfg.toHubConfig s.hub probes id)) ?_
    simp only [decide_eq_true_eq]
    exact rows_flushAccumulator cfg.toHubConfig s.hub probes id
  | persistText now id text =>
    unfold Session.step
    dsimp only
    split
    · exact .unchanged rfl rfl
    · rename_i row hget
      split
      · exact .unchanged rfl rfl
      · rename_i hstreaming
        obtain ⟨hmem, hid⟩ := (s.hub.log.getMessage_eq_some_iff _ _).mp hget
        refine .persisted (fun m => if m.id = id then setStreamText now text m else m)
          (rows_update _ _ _ (setStreamText_inPlace now text)) (fun m => ?_) (fun m => ?_)
            (fun m hm hfinal => ?_) rfl
        · split <;> rfl
        · split <;> rfl
        · refine if_neg fun hmid => hfinal ?_
          rw [s.hub.log.eq_of_id_eq hm hmem (hmid.trans hid.symm)]
          exact not_not.mp hstreaming
  | finalize now id input probes =>
    exact streamChange_finalize cfg.toHubConfig s.hub now id input probes
  | subscribe c resume flushProbes probe queueProbes =>
    refine .flushed (fun _ => true) (congrArg MessageLog.rows (log_subscribe ..)) ?_
    exact rows_subscribe ..
  | disconnect c => exact .unchanged rfl rfl
  | receive c =>
    unfold Session.step
    dsimp only
    split <;> exact .unchanged rfl rfl
  | _ => exact absurd hop id

/-! ## Accumulators hold what was flushed -/

theorem StreamChange.final_mem (h : StreamChange hub hub') (hm : m ∈ hub.log.rows)
    (hfinal : m.status ≠ .streaming) :
    m ∈ hub'.log.rows := by
  cases h with
  | unchanged hrows | pushed id text hrows | flushed which hrows => exact hrows ▸ hm
  | appended row hrows | opened row hrows => exact hrows ▸ mem_append_left _ hm
  | persisted write hrows hid hstatus hkeep =>
    rw [hrows]
    exact mem_map.mpr ⟨m, hm, hkeep m hm hfinal⟩
  | closed now id input hrows =>
    rw [hrows]
    refine mem_map.mpr ⟨m, hm, ?_⟩
    split
    · exact finalizeRow_of_final now input hfinal
    · rfl

structure StreamsOk (flushedAt : FlushedText) (hub : Hub κ) : Prop where
  text : ∀ acc ∈ hub.accumulators.rows, ∃ t,
    flushedAt acc.messageId acc.deltaIndex = some t ∧ acc.text = t ++ acc.pendingText
  ahead : ∀ acc ∈ hub.accumulators.rows, ∀ k, acc.deltaIndex < k →
    flushedAt acc.messageId k = none
  row : ∀ acc ∈ hub.accumulators.rows, ∃ m ∈ hub.log.rows,
    m.id = acc.messageId ∧ m.status = .streaming
  opened : ∀ m ∈ hub.log.rows, m.status = .streaming →
    ∃ acc ∈ hub.accumulators.rows, acc.messageId = m.id
  known : ∀ id k t, flushedAt id k = some t → ∃ m ∈ hub.log.rows, m.id = id

/-- The same, before the new texts are noted. -/
structure StreamsNotable (flushedAt : FlushedText) (hub : Hub κ) : Prop where
  text : ∀ acc ∈ hub.accumulators.rows,
    (∃ t, flushedAt acc.messageId acc.deltaIndex = some t ∧ acc.text = t ++ acc.pendingText) ∨
      (flushedAt acc.messageId acc.deltaIndex = none ∧ acc.pendingText = "")
  ahead : ∀ acc ∈ hub.accumulators.rows, ∀ k, acc.deltaIndex < k →
    flushedAt acc.messageId k = none
  row : ∀ acc ∈ hub.accumulators.rows, ∃ m ∈ hub.log.rows,
    m.id = acc.messageId ∧ m.status = .streaming
  opened : ∀ m ∈ hub.log.rows, m.status = .streaming →
    ∃ acc ∈ hub.accumulators.rows, acc.messageId = m.id
  known : ∀ id k t, flushedAt id k = some t → ∃ m ∈ hub.log.rows, m.id = id

theorem StreamsNotable.note (h : StreamsNotable flushedAt hub) :
    StreamsOk (noteFlushed hub.accumulators flushedAt) hub where
  text := by
    intro acc hacc
    rcases h.text acc hacc with ⟨t, ht, htext⟩ | ⟨hnone, hpending⟩
    · exact ⟨t, noteFlushed_of_some ht, htext⟩
    · refine ⟨acc.text, noteFlushed_of_mem hacc hnone hpending, ?_⟩
      rw [hpending, String.append_empty]
  ahead := by
    intro acc hacc k hk
    rw [Option.eq_none_iff_forall_ne_some]
    intro t ht
    rcases noteFlushed_eq_some ht with ht | ⟨acc', hacc', hid, rfl⟩
    · rw [h.ahead acc hacc k hk] at ht
      cases ht
    · rw [hub.accumulators.eq_of_key_eq hacc' hacc hid] at hk
      exact lt_irrefl _ hk
  row := h.row
  opened := h.opened
  known := by
    intro id k t ht
    rcases noteFlushed_eq_some ht with ht | ⟨acc, hacc, rfl, rfl⟩
    · exact h.known id k t ht
    · obtain ⟨m, hm, hid, -⟩ := h.row acc hacc
      exact ⟨m, hm, hid⟩

/-- **Streams**: an operation on streams keeps the correspondence. -/
theorem streamsNotable_of_change (h : StreamsOk flushedAt hub) (hc : StreamChange hub hub') :
    StreamsNotable flushedAt hub' := by
  cases hc with
  | unchanged hrows haccs =>
    refine ⟨?_, ?_, ?_, ?_, ?_⟩ <;> simp only [hrows, haccs]
    · exact fun acc hacc => .inl (h.text acc hacc)
    · exact h.ahead
    · exact h.row
    · exact h.opened
    · exact h.known
  | appended row hrows hfinal haccs =>
    refine ⟨?_, ?_, ?_, ?_, ?_⟩ <;> simp only [hrows, haccs]
    · exact fun acc hacc => .inl (h.text acc hacc)
    · exact h.ahead
    · intro acc hacc
      obtain ⟨m, hm, hrow⟩ := h.row acc hacc
      exact ⟨m, mem_append_left _ hm, hrow⟩
    · intro m hm hstreaming
      rcases mem_append.mp hm with hm | hm
      · exact h.opened m hm hstreaming
      · exact absurd (mem_singleton.mp hm ▸ hstreaming) hfinal
    · intro id k t ht
      obtain ⟨m, hm, hid⟩ := h.known id k t ht
      exact ⟨m, mem_append_left _ hm, hid⟩
  | opened row hrows hnew hstreaming haccs =>
    -- nothing was flushed under an id that is not in the log
    have hfresh (k : ℤ) : flushedAt row.id k = none := by
      rw [Option.eq_none_iff_forall_ne_some]
      intro t ht
      obtain ⟨m, hm, hid⟩ := h.known _ _ _ ht
      exact hnew m hm hid
    refine ⟨?_, ?_, ?_, ?_, ?_⟩ <;> simp only [hrows, haccs]
    · intro acc hacc
      rcases mem_append.mp hacc with hacc | hacc
      · exact .inl (h.text acc (mem_filter.mp hacc).1)
      · rw [mem_singleton.mp hacc]
        exact .inr ⟨hfresh _, rfl⟩
    · intro acc hacc k hk
      rcases mem_append.mp hacc with hacc | hacc
      · exact h.ahead acc (mem_filter.mp hacc).1 k hk
      · rw [mem_singleton.mp hacc]
        exact hfresh k
    · intro acc hacc
      rcases mem_append.mp hacc with hacc | hacc
      · obtain ⟨m, hm, hrow⟩ := h.row acc (mem_filter.mp hacc).1
        exact ⟨m, mem_append_left _ hm, hrow⟩
      · rw [mem_singleton.mp hacc]
        exact ⟨row, by simp, rfl, hstreaming⟩
    · intro m hm hm'
      rcases mem_append.mp hm with hm | hm
      · obtain ⟨acc, hacc, hid⟩ := h.opened m hm hm'
        refine ⟨acc, mem_append_left _ (mem_filter.mpr ⟨hacc, ?_⟩), hid⟩
        simpa [hid] using hnew m hm
      · rw [mem_singleton.mp hm]
        exact ⟨.opened row, by simp, rfl⟩
    · intro id k t ht
      obtain ⟨m, hm, hid⟩ := h.known id k t ht
      exact ⟨m, mem_append_left _ hm, hid⟩
  | pushed id text hrows haccs =>
    have hmap {acc : Accumulator} (hacc : acc ∈ hub'.accumulators.rows) :
        ∃ a ∈ hub.accumulators.rows, acc.messageId = a.messageId ∧
          acc.deltaIndex = a.deltaIndex ∧
          ∃ more, acc.text = a.text ++ more ∧ acc.pendingText = a.pendingText ++ more := by
      rw [haccs] at hacc
      obtain ⟨a, ha, rfl⟩ := mem_map.mp hacc
      refine ⟨a, ha, ?_⟩
      split
      · exact ⟨rfl, rfl, text, rfl, rfl⟩
      · exact ⟨rfl, rfl, "", String.append_empty.symm, String.append_empty.symm⟩
    refine ⟨?_, ?_, ?_, ?_, ?_⟩
    · intro acc hacc
      obtain ⟨a, ha, hid, hindex, more, htext, hpending⟩ := hmap hacc
      obtain ⟨t, ht, hat⟩ := h.text a ha
      refine .inl ⟨t, by rw [hid, hindex]; exact ht, ?_⟩
      rw [htext, hpending, hat, String.append_assoc]
    · intro acc hacc k hk
      obtain ⟨a, ha, hid, hindex, -⟩ := hmap hacc
      rw [hid]
      exact h.ahead a ha k (hindex ▸ hk)
    · intro acc hacc
      obtain ⟨a, ha, hid, -⟩ := hmap hacc
      rw [hrows, hid]
      exact h.row a ha
    · intro m hm hstreaming
      rw [hrows] at hm
      obtain ⟨a, ha, hid⟩ := h.opened m hm hstreaming
      rw [haccs]
      refine ⟨_, mem_map_of_mem ha, ?_⟩
      split <;> exact hid
    · rw [hrows]
      exact h.known
  | flushed which hrows haccs =>
    have hmap {acc : Accumulator} (hacc : acc ∈ hub'.accumulators.rows) :
        ∃ a ∈ hub.accumulators.rows, acc = a ∨ acc = a.emitted := by
      rw [haccs] at hacc
      obtain ⟨a, ha, rfl⟩ := mem_map.mp hacc
      refine ⟨a, ha, ?_⟩
      unfold Accumulator.flushed
      split
      · split
        · exact .inl rfl
        · exact .inr rfl
      · exact .inl rfl
    refine ⟨?_, ?_, ?_, ?_, ?_⟩
    · intro acc hacc
      obtain ⟨a, ha, rfl | rfl⟩ := hmap hacc
      · exact .inl (h.text _ ha)
      · -- the index moves on to one that is not noted yet
        exact .inr ⟨h.ahead a ha _ (Int.lt_succ a.deltaIndex), rfl⟩
    · intro acc hacc k hk
      obtain ⟨a, ha, rfl | rfl⟩ := hmap hacc
      · exact h.ahead _ ha k hk
      · exact h.ahead a ha k ((Int.lt_succ a.deltaIndex).trans hk)
    · intro acc hacc
      rw [hrows]
      obtain ⟨a, ha, rfl | rfl⟩ := hmap hacc
      · exact h.row _ ha
      · exact h.row a ha
    · intro m hm hstreaming
      rw [hrows] at hm
      obtain ⟨a, ha, hid⟩ := h.opened m hm hstreaming
      rw [haccs]
      refine ⟨_, mem_map_of_mem ha, ?_⟩
      split
      · rw [messageId_flushed]
        exact hid
      · exact hid
    · rw [hrows]
      exact h.known
  | persisted write hrows hid hstatus hkeep haccs =>
    refine ⟨?_, ?_, ?_, ?_, ?_⟩ <;> simp only [hrows, haccs]
    · exact fun acc hacc => .inl (h.text acc hacc)
    · exact h.ahead
    · intro acc hacc
      obtain ⟨m, hm, hmid, hstreaming⟩ := h.row acc hacc
      exact ⟨write m, mem_map_of_mem hm, (hid m).trans hmid, (hstatus m).trans hstreaming⟩
    · intro m hm hstreaming
      obtain ⟨m₀, hm₀, rfl⟩ := mem_map.mp hm
      obtain ⟨acc, hacc, haid⟩ := h.opened m₀ hm₀ ((hstatus m₀).symm.trans hstreaming)
      exact ⟨acc, hacc, haid.trans (hid m₀).symm⟩
    · intro id k t ht
      obtain ⟨m, hm, hmid⟩ := h.known id k t ht
      exact ⟨write m, mem_map_of_mem hm, (hid m).trans hmid⟩
  | closed now id input hrows haccs =>
    have hsame (m : ChannelMessage) :
        (if m.id = id then finalizeRow now input m else m).id = m.id := by
      split
      · exact id_finalizeRow now input m
      · rfl
    refine ⟨?_, ?_, ?_, ?_, ?_⟩ <;> simp only [hrows, haccs]
    · exact fun acc hacc => .inl (h.text acc (mem_filter.mp hacc).1)
    · exact fun acc hacc => h.ahead acc (mem_filter.mp hacc).1
    · intro acc hacc
      obtain ⟨hacc, hne⟩ := mem_filter.mp hacc
      obtain ⟨m, hm, hmid, hstreaming⟩ := h.row acc hacc
      refine ⟨m, mem_map.mpr ⟨m, hm, if_neg ?_⟩, hmid, hstreaming⟩
      rw [hmid]
      simpa using hne
    · intro m hm hstreaming
      obtain ⟨m₀, hm₀, rfl⟩ := mem_map.mp hm
      split at hstreaming
      · exact absurd hstreaming (status_finalizeRow now input m₀)
      · rename_i hne
        obtain ⟨acc, hacc, haid⟩ := h.opened m₀ hm₀ hstreaming
        refine ⟨acc, mem_filter.mpr ⟨hacc, ?_⟩, by rw [if_neg hne]; exact haid⟩
        simpa [haid] using hne
    · intro id' k t ht
      obtain ⟨m, hm, hmid⟩ := h.known id' k t ht
      exact ⟨_, mem_map_of_mem hm, (hsame m).trans hmid⟩

theorem streamsOk_start : StreamsOk (fun _ _ => none) (Session.start : Session κ).hub := by
  constructor
  · exact fun acc hacc => absurd hacc not_mem_nil
  · exact fun acc hacc => absurd hacc not_mem_nil
  · exact fun acc hacc => absurd hacc not_mem_nil
  · exact fun m hm => absurd hm not_mem_nil
  · intro id k t ht
    cases ht

/-- A step keeps streams and rows in agreement. -/
theorem streamsOk_step [DecidableEq κ]
    (h : StreamsOk o.flushedAt o.session.hub) (hop : op.OnStreams) :
    StreamsOk (o.step cfg op).flushedAt (o.step cfg op).session.hub :=
  (streamsNotable_of_change h (streamChange_step cfg o.session hop)).note

/-! ## Frames agree with what was flushed -/

def ChannelEvent.rows : ChannelEvent → List ChannelMessage
  | .snapshot event => event.messages ++ (event.stateReplacements.getD []).map (·.message)
  | .messageCreated message => [message]
  | .messageUpdated message => [message]
  | .messageCompleted message => [message]
  | .messageEdited message => [message]
  | .messageDeleted message => [message]
  | _ => []

structure RowOk (flushedAt : FlushedText) (log : MessageLog) (m : ChannelMessage)
    (cursor : Option ℤ) : Prop where
  streaming : m.status = .streaming → flushedAt m.id (cursor.getD (-1)) = some m.text
  final : m.status ≠ .streaming → m ∈ log.rows

structure SnapshotOk (flushedAt : FlushedText) (log : MessageLog)
    (event : ChannelSnapshotEvent) : Prop where
  messages : ∀ m ∈ event.messages, RowOk flushedAt log m (inFlightFromRefs event.inFlight m.id)
  refs : ∀ id k, inFlightFromRefs event.inFlight id = some k → ∃ m ∈ event.messages, m.id = id
  replaced : ∀ r ∈ event.stateReplacements.getD [],
    RowOk flushedAt log r.message (r.inFlight.map (·.deltaIndex))
  nodup : ((event.stateReplacements.getD []).map (·.message.id)).Nodup

def FrameOk (flushedAt : FlushedText) (log : MessageLog) : ChannelEvent → Prop
  | .snapshot event => SnapshotOk flushedAt log event
  | .messageCreated message => RowOk flushedAt log message none
  | .messageDelta id k text => ∃ t,
      flushedAt id (k - 1) = some t ∧ flushedAt id k = some (t ++ text)
  | .messageCompleted message => message.status ≠ .streaming ∧ message ∈ log.rows
  | .resyncRequired _ => True
  | _ => False

structure FlushedGrows (flushedAt flushedAt' : FlushedText) (log log' : MessageLog) : Prop where
  text : ∀ id k t, flushedAt id k = some t → flushedAt' id k = some t
  final : ∀ m ∈ log.rows, m.status ≠ .streaming → m ∈ log'.rows

theorem RowOk.grow {log log' : MessageLog} {cursor : Option ℤ} (h : RowOk flushedAt log m cursor)
    (hg : FlushedGrows flushedAt flushedAt' log log') : RowOk flushedAt' log' m cursor :=
  ⟨fun hm => hg.text _ _ _ (h.streaming hm), fun hm => hg.final m (h.final hm) hm⟩

theorem FrameOk.grow {log log' : MessageLog} (h : FrameOk flushedAt log f)
    (hg : FlushedGrows flushedAt flushedAt' log log') : FrameOk flushedAt' log' f := by
  cases f with
  | snapshot event =>
    exact ⟨fun m hm => (h.messages m hm).grow hg, h.refs, fun r hr => (h.replaced r hr).grow hg,
      h.nodup⟩
  | messageCreated message => exact RowOk.grow h hg
  | messageDelta id k text =>
    obtain ⟨t, ht, ht'⟩ := h
    exact ⟨t, hg.text _ _ _ ht, hg.text _ _ _ ht'⟩
  | messageCompleted message => exact ⟨h.1, hg.final _ h.2 h.1⟩
  | resyncRequired latestSeq => trivial
  | _ => exact h

theorem rowOk_materialize (h : StreamsOk flushedAt hub)
    (hflushed : ∀ acc ∈ hub.accumulators.rows, acc.pendingText = "") (hm : m ∈ hub.log.rows) :
    RowOk flushedAt hub.log (materialize hub.accumulators m).message
      ((materialize hub.accumulators m).inFlight.map (·.deltaIndex)) := by
  by_cases hstreaming : m.status = .streaming
  · obtain ⟨acc, hacc, hid⟩ := h.opened m hm hstreaming
    rw [materialize_of_streaming hacc hid hstreaming]
    refine ⟨fun _ => ?_, fun hfinal => absurd hstreaming hfinal⟩
    obtain ⟨t, ht, htext⟩ := h.text acc hacc
    rw [hflushed acc hacc, String.append_empty] at htext
    show flushedAt m.id acc.deltaIndex = some acc.text
    rw [← hid, ht, htext]
  · rw [materialize_of_final _ hstreaming]
    exact ⟨fun hm => absurd hm hstreaming, fun _ => hm⟩

/-- **Snapshots**: of a hub that has flushed everything. -/
theorem snapshotOk_buildSnapshot (cfg : HubConfig) {hub : Hub κ} (h : StreamsOk flushedAt hub)
    (hflushed : ∀ acc ∈ hub.accumulators.rows, acc.pendingText = "") (sinceSeq : Option ℕ) :
    SnapshotOk flushedAt hub.log (hub.buildSnapshot cfg sinceSeq) := by
  have hsub := rows_sublist cfg hub.log sinceSeq
  have hids : ((snapshotRows cfg hub.log sinceSeq).rows.map (·.id)).Nodup :=
    ids_nodup (fun m hm => hub.log.versionOf_of_mem (hsub.subset hm)) (hub.log.ranked.sublist hsub)
  have hrefs := inFlightFromRefs_buildSnapshot cfg hub sinceSeq hids
  refine ⟨fun m hm => ?_, fun id k hk => ?_, fun r hr => ?_,
    nodup_replacements_buildSnapshot cfg hub sinceSeq⟩
  · rw [messages_buildSnapshot] at hm
    obtain ⟨row, hrow, rfl⟩ := mem_map.mp hm
    have hok := rowOk_materialize h hflushed (hsub.subset hrow)
    refine ⟨fun hstreaming => ?_, hok.final⟩
    rw [status_materialize] at hstreaming
    obtain ⟨acc, hacc, hid⟩ := h.opened row (hsub.subset hrow) hstreaming
    have hoverlay := materialize_of_streaming hacc hid hstreaming
    have hcursor := (hrefs row.id acc.deltaIndex).mpr ⟨row, hrow, by rw [hoverlay]⟩
    have htext := hok.streaming (by rw [status_materialize]; exact hstreaming)
    rw [id_materialize] at htext ⊢
    rw [hcursor]
    rw [hoverlay] at htext ⊢
    exact htext
  · obtain ⟨row, hrow, href⟩ := (hrefs id k).mp hk
    rw [messages_buildSnapshot]
    refine ⟨_, mem_map_of_mem hrow, ?_⟩
    rw [id_materialize]
    exact (messageId_inFlight_materialize (Option.mem_def.mpr href)).symm
  · rw [replacements_buildSnapshot] at hr
    obtain ⟨row, hrow, rfl⟩ := mem_map.mp hr
    exact rowOk_materialize h hflushed (resyncRows_subset cfg hub.log sinceSeq hrow)

/-- The streaming rows a frame carries are streaming in the log. -/
def LiveRows (log : MessageLog) (f : ChannelEvent) : Prop :=
  ∀ m ∈ f.rows, m.status = .streaming → ∃ r ∈ log.rows, r.id = m.id ∧ r.status = .streaming

theorem frameOk_flushDelta (h : StreamsOk flushedAt hub) (h' : StreamsOk flushedAt' hub')
    (hmono : ∀ id k t, flushedAt id k = some t → flushedAt' id k = some t)
    (hf : hub.FlushDeltaOf id f)
    (hflushed : ∀ acc ∈ hub.accumulators.rows, acc.messageId = id →
      acc.flushed ∈ hub'.accumulators.rows) (log : MessageLog) :
    FrameOk flushedAt' log f ∧ LiveRows log f := by
  obtain ⟨acc, hacc, hid, hpending, rfl⟩ := hf
  obtain ⟨t, ht, htext⟩ := h.text acc hacc
  have hstep : acc.flushed = acc.emitted := by
    unfold Accumulator.flushed
    rw [if_neg (by simp [hpending])]
  obtain ⟨t', ht', htext'⟩ := h'.text _ (hflushed acc hacc hid)
  rw [hstep] at ht' htext'
  refine ⟨⟨t, ?_, ?_⟩, fun m hm => absurd hm not_mem_nil⟩
  · rw [Int.add_sub_cancel, ← hid]
    exact hmono _ _ _ ht
  · have hnew : t' = t ++ acc.pendingText := by
      rw [← htext]
      exact (htext'.trans String.append_empty).symm
    rw [← hid, ← hnew]
    exact ht'

theorem flushedGrows_step [DecidableEq κ] (o : Observed κ) (hop : op.OnStreams) :
    FlushedGrows o.flushedAt (o.step cfg op).flushedAt o.session.hub.log
      (o.step cfg op).session.hub.log :=
  ⟨fun _ _ _ ht => noteFlushed_of_some ht,
    fun _ hm hfinal => (streamChange_step cfg o.session hop).final_mem hm hfinal⟩

/-- **Live frames** of the operations on streams. -/
theorem frameOk_of_emits [DecidableEq κ] {cfg : SessionConfig}
    (h : StreamsOk o.flushedAt o.session.hub) (hop : op.OnStreams) (hf : Emits o.session op f) :
    FrameOk (o.step cfg op).flushedAt (o.step cfg op).session.hub.log f ∧
      LiveRows (o.step cfg op).session.hub.log f := by
  have h' := streamsOk_step cfg h hop
  have hmono := (flushedGrows_step cfg o hop).text
  cases hf with
  | notice => exact ⟨trivial, fun m hm => absurd hm not_mem_nil⟩
  | @post now input probes log message happend =>
    have hlog : (o.session.step cfg (.post now input probes)).hub.log = log := by
      simp only [Session.step, happend]
      rfl
    have hfinal : message.status ≠ .streaming := by
      rw [(rows_insertMessage happend).1]
      simp
    refine ⟨⟨fun hm => absurd hm hfinal, fun _ => ?_⟩, fun m hm hstreaming => ?_⟩
    · show message ∈ (o.session.step cfg (.post now input probes)).hub.log.rows
      rw [hlog]
      exact mem_insertMessage happend
    · rw [mem_singleton.mp hm] at hstreaming
      exact absurd hstreaming hfinal
  | @beginStream now input probes log message hbegin =>
    have hhub : (o.session.step cfg (.beginStream now input probes)).hub =
        ({ o.session.hub with log := log } : Hub κ).beginStreamBroadcast cfg.toHubConfig probes
          message := by
      simp only [Session.step, hbegin]
    have hstreaming : message.status = .streaming := by
      rw [(rows_insertMessage hbegin).1]
    have hmem : message ∈ (o.session.step cfg (.beginStream now input probes)).hub.log.rows := by
      rw [hhub]
      exact mem_insertMessage hbegin
    refine ⟨⟨fun _ => ?_, fun hfinal => absurd hstreaming hfinal⟩, fun m hm _ => ?_⟩
    · obtain ⟨t, ht, htext⟩ := h'.text (.opened message) (by
        show _ ∈ (o.session.step cfg (.beginStream now input probes)).hub.accumulators.rows
        rw [hhub]
        show _ ∈ (Hub.openAccumulator _ message).accumulators.rows
        rw [rows_openAccumulator]
        exact mem_append_right _ (mem_singleton.mpr rfl))
      show _ = some message.text
      rw [show message.text = t from htext.trans String.append_empty]
      exact ht
    · rw [mem_singleton.mp hm]
      exact ⟨message, hmem, rfl, hstreaming⟩
  | @flush id probes f hdelta =>
    refine frameOk_flushDelta h h' hmono hdelta (fun acc hacc hid => ?_) _
    show _ ∈ (o.session.hub.flushAccumulator _ probes id).accumulators.rows
    rw [rows_flushAccumulator]
    exact mem_map.mpr ⟨acc, hacc, if_pos hid⟩
  | @subscribe c resume flushProbes probe queueProbes f hdelta =>
    obtain ⟨id, hdelta⟩ := hdelta
    refine frameOk_flushDelta h h' hmono hdelta (fun acc hacc _ => ?_) _
    show _ ∈ (o.session.hub.subscribe _ c _ flushProbes probe queueProbes).accumulators.rows
    rw [rows_subscribe]
    exact mem_map_of_mem hacc
  | @finalize now id input probes message hmessage =>
    obtain ⟨hmem, hfinal⟩ := mem_finalizeStream hmessage
    refine ⟨⟨hfinal, ?_⟩, fun m hm hstreaming => ?_⟩
    · show message ∈ (o.session.step cfg (.finalize now id input probes)).hub.log.rows
      simp only [Session.step, hmessage]
      exact hmem
    · rw [mem_singleton.mp hm] at hstreaming
      exact absurd hstreaming hfinal
  | rowUpdate | resolve | edit | delete | runLifecycle | deliveryReceipt => exact absurd hop id

/-- **The snapshot** of a new connection. -/
theorem frameOk_snapshotFor [DecidableEq κ] {cfg : SessionConfig}
    (h : StreamsOk o.flushedAt o.session.hub) (c : κ) (resume : Bool)
    (flushProbes : ChannelMessageId → κ → Probe) (probe : Probe) (queueProbes : ℕ → Probe) :
    let o' := o.step cfg (.subscribe c resume flushProbes probe queueProbes)
    FrameOk o'.flushedAt o'.session.hub.log
        (.snapshot (o.session.snapshotFor cfg c resume flushProbes)) ∧
      LiveRows o'.session.hub.log (.snapshot (o.session.snapshotFor cfg c resume flushProbes)) := by
  intro o'
  have h' : StreamsOk o'.flushedAt o'.session.hub := streamsOk_step cfg h trivial
  set prepared := o.session.hub.preparedFor cfg.toHubConfig c flushProbes with hprepared
  -- the subscription changes subscribers and sinks of the prepared hub only
  have hok : StreamsOk o'.flushedAt prepared :=
    ⟨h'.text, h'.ahead, h'.row, h'.opened, h'.known⟩
  have hflushed : ∀ acc ∈ prepared.accumulators.rows, acc.pendingText = "" := by
    intro acc hacc
    rw [(preparedFor_spec cfg.toHubConfig o.session.hub c flushProbes).2.1] at hacc
    obtain ⟨a, -, rfl⟩ := mem_map.mp hacc
    exact pendingText_flushed a
  refine ⟨snapshotOk_buildSnapshot cfg.toHubConfig hok hflushed _, fun m hm hstreaming => ?_⟩
  have hrow : ∃ row ∈ prepared.log.rows, (materialize prepared.accumulators row).message = m := by
    rcases mem_append.mp hm with hm | hm
    · change m ∈ (prepared.buildSnapshot cfg.toHubConfig _).messages at hm
      rw [messages_buildSnapshot] at hm
      obtain ⟨row, hrow, rfl⟩ := mem_map.mp hm
      exact ⟨row, (rows_sublist _ _ _).subset hrow, rfl⟩
    · obtain ⟨r, hr, rfl⟩ := mem_map.mp hm
      change r ∈ (prepared.buildSnapshot cfg.toHubConfig _).stateReplacements.getD [] at hr
      rw [replacements_buildSnapshot] at hr
      obtain ⟨row, hrow, rfl⟩ := mem_map.mp hr
      exact ⟨row, resyncRows_subset _ _ _ hrow, rfl⟩
  obtain ⟨row, hmem, rfl⟩ := hrow
  refine ⟨row, hmem, (id_materialize _ _).symm, ?_⟩
  rwa [status_materialize] at hstreaming

end RelayIde.Channel
