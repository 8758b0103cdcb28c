import RelayIde.Channel.MessageLog

/-!
# Rows the Agent Binder Reads

The rows of one channel as the agent binder and the context packet see them
(`server/channel-message-store.ts`).  A message is named by its sequence number: the store
hands out one id and one number per row, and only ever compares ids for equality.

- `Grows` — what any of them leaves of the rows that are already there
-/

open List

namespace RelayIde.Binder

open RelayIde.Library
open RelayIde.Channel (ChannelSenderKind ChannelMessageKind)

/-! ## Rows -/

/-- A message, named by its sequence number in the channel. -/
abbrev MessageId := ℕ

structure ChannelSenderRef where
  kind : ChannelSenderKind
  id : String
  displayName : Option String
  /-- The provider framework of an agent sender. -/
  providerId : Option String
  deriving DecidableEq

/-- A row, with the columns that routing and the context packet read. -/
structure ChannelMessage where
  seq : ℕ
  kind : ChannelMessageKind
  sender : ChannelSenderRef
  /-- The root of the thread the row replies in. -/
  threadId : Option MessageId
  /-- `body.text`. -/
  text : String
  /-- The attachments of `parts`. -/
  parts : List String
  agentDetail : Option String
  /-- `isChannelMessageDeleted`: `meta.deletedAt` is set. -/
  deleted : Bool
  deriving DecidableEq

namespace ChannelMessage

def id (m : ChannelMessage) : MessageId := m.seq

/-- The row with the columns that later writers touch blanked out: what stays fixed. -/
def fixed (m : ChannelMessage) : ChannelMessage :=
  { m with text := "", parts := [], deleted := false }

variable {m m' : ChannelMessage}

theorem seq_eq_of_fixed (h : m.fixed = m'.fixed) : m.seq = m'.seq := by
  have hseq := congrArg ChannelMessage.seq h
  exact hseq

theorem sender_eq_of_fixed (h : m.fixed = m'.fixed) : m.sender = m'.sender := by
  have hsender := congrArg ChannelMessage.sender h
  exact hsender

theorem threadId_eq_of_fixed (h : m.fixed = m'.fixed) : m.threadId = m'.threadId := by
  have hthreadId := congrArg ChannelMessage.threadId h
  exact hthreadId

end ChannelMessage

/-- What a writer supplies for a new row. -/
structure Draft where
  kind : ChannelMessageKind
  sender : ChannelSenderRef
  parentMessageId : Option MessageId
  text : String
  parts : List String
  agentDetail : Option String

/-- `COALESCE(MAX(seq), 0)`. -/
def maxSeq (rows : List ChannelMessage) : ℕ :=
  (rows.map (·.seq)).foldr max 0

theorem le_maxSeq {rows : List ChannelMessage} {m : ChannelMessage} (h : m ∈ rows) :
    m.seq ≤ maxSeq rows := by
  induction rows with
  | nil => exact absurd h not_mem_nil
  | cons row rows ih =>
    rcases mem_cons.mp h with rfl | h
    · exact le_max_left _ _
    · exact (ih h).trans (le_max_right _ _)

/-! ## The log -/

structure ChannelLog where
  rows : List ChannelMessage
  /-- Rows are stored in sequence order. -/
  ranked : Ranked ChannelMessage.seq rows
  /-- A reply names a root that was there before it. -/
  rooted : ∀ m ∈ rows, ∀ t ∈ m.threadId,
    ∃ root ∈ rows, root.id = t ∧ root.threadId = none ∧ root.seq < m.seq

namespace ChannelLog

def empty : ChannelLog := ⟨[], by simp, by simp⟩

def latestSeq (log : ChannelLog) : ℕ := maxSeq log.rows

def getMessage (log : ChannelLog) (id : MessageId) : Option ChannelMessage :=
  log.rows.find? fun m => decide (m.id = id)

variable (log : ChannelLog) (id : MessageId)

theorem getMessage_eq_some_iff (m : ChannelMessage) :
    log.getMessage id = some m ↔ m ∈ log.rows ∧ m.id = id := by
  constructor
  · intro h
    have hid := find?_some h
    exact ⟨mem_of_find?_eq_some h, by simpa using hid⟩
  · rintro ⟨hm, hid⟩
    cases hfind : log.getMessage id with
    | none =>
      have hnone := find?_eq_none.mp hfind m hm
      exact absurd hid (by simpa using hnone)
    | some m' =>
      have hid' := find?_some hfind
      have hm' := mem_of_find?_eq_some hfind
      have : m' = m := by
        apply log.ranked.eq_of_rank_eq hm' hm
        rw [decide_eq_true_eq] at hid'
        exact hid'.trans hid.symm
      rw [this]

/-- Why `resolveThread` refuses a parent. -/
inductive StoreError where
  | parentMessageNotFound

/-- `resolveThread`: a reply joins the thread of its parent, or opens one under it. -/
def resolveThread (log : ChannelLog) :
    Option MessageId → Except StoreError (Option MessageId)
  | none => .ok none
  | some parentMessageId =>
    match log.getMessage parentMessageId with
    | none => .error .parentMessageNotFound
    | some parent => .ok (some (parent.threadId.getD parent.id))

theorem resolveThread_rooted {log : ChannelLog} {parent : Option MessageId}
    {threadId : Option MessageId} (h : log.resolveThread parent = .ok threadId) :
    ∀ t ∈ threadId, ∃ root ∈ log.rows, root.id = t ∧ root.threadId = none := by
  cases parent with
  | none =>
    simp only [resolveThread, Except.ok.injEq] at h
    simp [← h]
  | some parentMessageId =>
    cases hparent : log.getMessage parentMessageId with
    | none => simp [resolveThread, hparent] at h
    | some parent =>
      simp only [resolveThread, hparent, Except.ok.injEq] at h
      subst h
      obtain ⟨hmem, -⟩ := (getMessage_eq_some_iff _ _ _).mp hparent
      rintro t ht
      simp only [Option.mem_def, Option.some.injEq] at ht
      cases hroot : parent.threadId with
      | none =>
        rw [hroot] at ht
        exact ⟨parent, hmem, ht, hroot⟩
      | some root =>
        rw [hroot] at ht
        obtain ⟨row, hrow, hid, hnone, -⟩ := log.rooted parent hmem root (by simp [hroot])
        exact ⟨row, hrow, hid.trans ht, hnone⟩

def newRow (log : ChannelLog) (draft : Draft) (threadId : Option MessageId) : ChannelMessage where
  seq := log.latestSeq + 1
  kind := draft.kind
  sender := draft.sender
  threadId := threadId
  text := draft.text
  parts := draft.parts
  agentDetail := draft.agentDetail
  deleted := false

/-- `appendComplete`; a post whose parent is unknown leaves the log as it is. -/
def appendComplete (log : ChannelLog) (draft : Draft) : ChannelLog :=
  match hthread : log.resolveThread draft.parentMessageId with
  | .error _ => log
  | .ok threadId =>
    { rows := log.rows ++ [log.newRow draft threadId]
      ranked := by
        apply pairwise_append.mpr
        refine ⟨log.ranked, pairwise_singleton _ _, ?_⟩
        intro m hm row hrow
        rw [mem_singleton.mp hrow]
        exact Nat.lt_succ_of_le (le_maxSeq hm)
      rooted := by
        intro m hm t ht
        rcases mem_append.mp hm with hm | hm
        · obtain ⟨root, hroot, hrest⟩ := log.rooted m hm t ht
          exact ⟨root, mem_append_left _ hroot, hrest⟩
        · rw [mem_singleton.mp hm] at ht ⊢
          obtain ⟨root, hroot, hid, hnone⟩ := resolveThread_rooted hthread t ht
          exact ⟨root, mem_append_left _ hroot, hid, hnone, Nat.lt_succ_of_le (le_maxSeq hroot)⟩ }

/-- An update of one row that leaves its fixed columns alone. -/
def rewrite (log : ChannelLog) (id : MessageId) (f : ChannelMessage → ChannelMessage)
    (hf : ∀ m, (f m).fixed = m.fixed) : ChannelLog where
  rows := log.rows.map fun m => if m.id = id then f m else m
  ranked := by
    apply log.ranked.map
    intro m
    split
    · exact ChannelMessage.seq_eq_of_fixed (hf m)
    · rfl
  rooted := by
    have hfixed (m : ChannelMessage) : (if m.id = id then f m else m).fixed = m.fixed := by
      split
      · exact hf m
      · rfl
    intro m hm t ht
    obtain ⟨row, hrow, rfl⟩ := mem_map.mp hm
    rw [ChannelMessage.threadId_eq_of_fixed (hfixed row)] at ht
    obtain ⟨root, hroot, hid, hnone, hlt⟩ := log.rooted row hrow t ht
    refine ⟨_, mem_map_of_mem hroot, ?_, ?_, ?_⟩
    · exact (ChannelMessage.seq_eq_of_fixed (hfixed root)).trans hid
    · exact (ChannelMessage.threadId_eq_of_fixed (hfixed root)).trans hnone
    · rw [ChannelMessage.seq_eq_of_fixed (hfixed root), ChannelMessage.seq_eq_of_fixed (hfixed row)]
      exact hlt

/-- The text of a row as its stream or its author leaves it; a tombstone keeps none. -/
def setText (log : ChannelLog) (id : MessageId) (text : String) : ChannelLog :=
  log.rewrite id (fun m => if m.deleted then m else { m with text := text })
    fun m => by split <;> rfl

/-- `deleteMessage`: the row stays as a tombstone without content. -/
def tombstone (log : ChannelLog) (id : MessageId) : ChannelLog :=
  log.rewrite id (fun m => { m with text := "", parts := [], deleted := true }) fun _ => rfl

/-! ## Growth -/

/-- What any writer leaves of a log: the rows keep their fixed columns, and new ones are newer. -/
structure Grows (log log' : ChannelLog) : Prop where
  kept : ∀ m ∈ log.rows, ∃ m' ∈ log'.rows, m'.fixed = m.fixed
  fresh : ∀ m' ∈ log'.rows, m'.seq ≤ log.latestSeq → ∃ m ∈ log.rows, m'.fixed = m.fixed
  latest : log.latestSeq ≤ log'.latestSeq

theorem Grows.refl : Grows log log :=
  ⟨fun m hm => ⟨m, hm, rfl⟩, fun m hm _ => ⟨m, hm, rfl⟩, le_refl _⟩

variable (f : ChannelMessage → ChannelMessage)

end ChannelLog

end RelayIde.Binder
