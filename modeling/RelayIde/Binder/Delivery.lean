import RelayIde.Binder.ContextPacket
import RelayIde.Library.Machine

/-!
# Deliveries of a Binding

A binding hands its agent packets that reach from its delivery cursor to a trigger, and moves the
cursor to the trigger when the runtime accepts one.  Packets are built, accepted and given up in any
order, while the channel goes on.

- `complete_of_run` — runs in which the agent is told of every row its packets pass over

A packet leaves out rows of the agent's framework, whichever profile wrote them.
-/

namespace RelayIde.Binder

open List

open RelayIde.Library (Ranked Guarded exec guarded_append exec_invariant_of_guarded)

/-! ## Packets and the cursor -/

structure Binding where
  channelId : String
  threadId : Option MessageId
  profileActorId : String
  framework : String
  displayName : String

/-- The topic row of a channel, as far as a packet shows it. -/
structure ChannelTopic where
  title : String
  channelKind : ChannelKind

structure Delivery where
  log : ChannelLog := .empty
  topic : ChannelTopic := { title := "", channelKind := .channel }
  /-- The durable cursor. -/
  lastDeliveredSeq : ℕ := 0
  threadOrientationPending : Bool := false
  /-- The packets that the runtime accepted so far. -/
  accepted : List MentionContextPacket := []

/-- A fresh runtime without provider state is oriented from the start of its thread. -/
def effectiveCursor (binding : Binding) (s : Delivery) : ℕ :=
  if binding.threadId ≠ none ∧ s.threadOrientationPending = true then 0 else s.lastDeliveredSeq

def packetInput (binding : Binding) (s : Delivery) (trigger : ChannelMessage)
    (delivery : PacketDelivery) : BuildMentionContextPacketInput where
  channelId := binding.channelId
  channelTitle := s.topic.title
  channelKind := s.topic.channelKind
  delivery := delivery
  framework := binding.framework
  trigger := trigger
  lastDeliveredSeq := effectiveCursor binding s
  context := mentionContext s.log
    { framework := binding.framework
      triggerSeq := trigger.seq
      afterSeq := effectiveCursor binding s
      threadRootId := trigger.threadId
      limit := packetMaxRows }
    mentionContextCandidateScanBudget

def buildPacket (binding : Binding) (s : Delivery) (trigger : ChannelMessage)
    (delivery : PacketDelivery) : Except String MentionContextPacket :=
  buildMentionContextPacketEnvelope (packetInput binding s trigger delivery)

/-- Acceptance orients the runtime, and never lowers the cursor. -/
def advanceCursor (s : Delivery) (trigger : ChannelMessage) : Delivery :=
  { s with
    threadOrientationPending := false
    lastDeliveredSeq := max s.lastDeliveredSeq trigger.seq }

def Delivery.accept (s : Delivery) (packet : MentionContextPacket) : Delivery :=
  { advanceCursor s packet.input.trigger with accepted := s.accepted ++ [packet] }

/-! ## Runs -/

/-- The deliveries of a binding, and the packets that were built and are not accepted yet. -/
structure DeliveryRun where
  delivery : Delivery := {}
  pending : List MentionContextPacket := []

inductive DeliveryOp where
  | append (draft : Draft)
  | setText (id : MessageId) (text : String)
  | tombstone (id : MessageId)
  | setTopic (topic : ChannelTopic)
  /-- A fresh runtime is bound. -/
  | orient
  | build (trigger : ChannelMessage) (delivery : PacketDelivery)
  | accept (i : ℕ)
  | giveUp (i : ℕ)

/-- A row of the binding's thread, or of its channel. -/
def KnownTrigger (binding : Binding) (log : ChannelLog) (trigger : ChannelMessage) : Prop :=
  trigger.threadId = binding.threadId ∧ ∃ m ∈ log.rows, m.fixed = trigger.fixed

instance (binding : Binding) (log : ChannelLog) (trigger : ChannelMessage) :
    Decidable (KnownTrigger binding log trigger) :=
  inferInstanceAs (Decidable (_ ∧ _))

def Delivery.setLog (s : Delivery) (log : ChannelLog) : Delivery :=
  { s with log := log }

def deliveryStep (binding : Binding) (s : DeliveryRun) : DeliveryOp → DeliveryRun
  | .append draft => { s with delivery := s.delivery.setLog (s.delivery.log.appendComplete draft) }
  | .setText id text =>
    { s with delivery := s.delivery.setLog (s.delivery.log.setText id text) }
  | .tombstone id => { s with delivery := s.delivery.setLog (s.delivery.log.tombstone id) }
  | .setTopic topic => { s with delivery := { s.delivery with topic := topic } }
  | .orient => { s with delivery := { s.delivery with threadOrientationPending := true } }
  | .build trigger delivery =>
    if KnownTrigger binding s.delivery.log trigger then
      match buildPacket binding s.delivery trigger delivery with
      | .error _ => s
      | .ok packet => { s with pending := s.pending ++ [packet] }
    else s
  | .accept i =>
    match s.pending[i]? with
    | none => s
    | some packet =>
      { delivery := s.delivery.accept packet, pending := s.pending.eraseIdx i }
  | .giveUp i => { s with pending := s.pending.eraseIdx i }

/-! ## Completeness -/

/-- The bound profile did not write the row. -/
def Foreign (binding : Binding) (m : ChannelMessage) : Prop :=
  ¬(m.sender.kind = .agent ∧ m.sender.id = binding.profileActorId)

def Delivery.Triggered (s : Delivery) (m : ChannelMessage) : Prop :=
  ∃ p ∈ s.accepted, p.input.trigger.id = m.id

/-- The row reached the agent, or it was told that something was left out there. -/
def Delivery.Accounted (s : Delivery) (m : ChannelMessage) : Prop :=
  ∃ p ∈ s.accepted, p.input.trigger.id = m.id ∨ p.Shows m ∨ (p.Spans m ∧ p.Discloses)

/-- **Completeness**: prose of the binding's scope at or below the cursor, by anyone but the bound
    profile, is accounted for. -/
def Complete (binding : Binding) (s : Delivery) : Prop :=
  ∀ m ∈ s.log.rows, isMentionContextProseRow m = true → Foreign binding m →
    InScope binding.threadId m → m.seq ≤ s.lastDeliveredSeq → s.Accounted m

/-- A packet that spans a row tells of it: the own-row filter lets the row pass, and what is
    scanned is counted. -/
def Tells (binding : Binding) (p : MentionContextPacket) (m : ChannelMessage) : Prop :=
  mentionContextOwnRow binding.threadId binding.framework m = true ∧ ¬p.SilentScan

variable {binding : Binding}

variable {p : MentionContextPacket} {m : ChannelMessage} {s : DeliveryRun} {id : MessageId}

variable {m' : ChannelMessage}

section
variable (h : m'.fixed = m.fixed)
include h

theorem spans_of_fixed : p.Spans m' ↔ p.Spans m := by
  unfold MentionContextPacket.Spans InScope ChannelMessage.id
  rw [ChannelMessage.seq_eq_of_fixed h, ChannelMessage.threadId_eq_of_fixed h]

theorem shows_of_fixed : p.Shows m' ↔ p.Shows m := by
  unfold MentionContextPacket.Shows ChannelMessage.id
  rw [ChannelMessage.seq_eq_of_fixed h]

theorem foreign_of_fixed : Foreign binding m' ↔ Foreign binding m := by
  unfold Foreign
  rw [ChannelMessage.sender_eq_of_fixed h]

theorem tells_of_fixed : Tells binding p m' ↔ Tells binding p m := by
  unfold Tells mentionContextOwnRow ChannelMessage.id
  rw [ChannelMessage.sender_eq_of_fixed h, ChannelMessage.seq_eq_of_fixed h]

end

theorem triggered_of_fixed {s : Delivery} {m' : ChannelMessage} (h : m'.fixed = m.fixed) :
    s.Triggered m' ↔ s.Triggered m := by
  unfold Delivery.Triggered
  have hid : m'.id = m.id := ChannelMessage.seq_eq_of_fixed h
  rw [hid]

structure Truthful (binding : Binding) (s : Delivery) (p : MentionContextPacket) : Prop where
  threadId : p.input.trigger.threadId = binding.threadId
  known : p.input.trigger.seq ≤ s.log.latestSeq
  passed : p.input.lastDeliveredSeq ≤ s.lastDeliveredSeq
  covers : ∀ m ∈ s.log.rows, p.Spans m → Foreign binding m →
    mentionContextOwnRow binding.threadId binding.framework m = true →
    (p.input.delivery = .turn ∨ isMentionContextProseRow m = true) →
      s.Triggered m ∨ p.Shows m ∨ p.Discloses ∨ p.SilentScan

theorem Truthful.mono {s s' : Delivery} (h : Truthful binding s p)
    (hgrows : ChannelLog.Grows s.log s'.log) (hcursor : s.lastDeliveredSeq ≤ s'.lastDeliveredSeq)
    (haccepted : s.accepted ⊆ s'.accepted)
    (hprose : ∀ m ∈ s.log.rows, ∀ m' ∈ s'.log.rows, m'.fixed = m.fixed → p.Spans m →
      Foreign binding m → isMentionContextProseRow m' = true →
        isMentionContextProseRow m = true ∨ s.Triggered m ∨ p.input.delivery = .turn ∨ p.Shows m ∨
        p.Discloses) :
    Truthful binding s' p where
  threadId := h.threadId
  known := h.known.trans hgrows.latest
  passed := h.passed.trans hcursor
  covers := by
    intro m' hm' hspans hforeign hown hseen
    -- the row is an old one
    obtain ⟨m, hm, hfixed⟩ := hgrows.fresh m' hm' (hspans.2.1.le.trans h.known)
    have hspans' := (spans_of_fixed hfixed).mp hspans
    have hforeign' := (foreign_of_fixed hfixed).mp hforeign
    have hown' : mentionContextOwnRow binding.threadId binding.framework m = true := by
      unfold mentionContextOwnRow ChannelMessage.id at hown ⊢
      rw [← ChannelMessage.sender_eq_of_fixed hfixed, ← ChannelMessage.seq_eq_of_fixed hfixed]
      exact hown
    have htriggered : s.Triggered m → s'.Triggered m' := by
      rintro ⟨q, hq, hid⟩
      exact ⟨q, haccepted hq, hid.trans (ChannelMessage.seq_eq_of_fixed hfixed).symm⟩
    have hcovers (hseen : p.input.delivery = .turn ∨ isMentionContextProseRow m = true) :
        s'.Triggered m' ∨ p.Shows m' ∨ p.Discloses ∨ p.SilentScan := by
      rw [shows_of_fixed hfixed]
      exact (h.covers m hm hspans' hforeign' hown' hseen).imp_left htriggered
    rcases hseen with hturn | hprose'
    · exact hcovers (.inl hturn)
    · have hwas := hprose m hm m' hm' hfixed hspans' hforeign' hprose'
      rcases hwas with hold | htrigger | hturn | hshows | hdisc
      · exact hcovers (.inr hold)
      · exact .inl (htriggered htrigger)
      · exact hcovers (.inl hturn)
      · exact .inr (.inl ((shows_of_fixed hfixed).mpr hshows))
      · exact .inr (.inr (.inl hdisc))

/-- **The delivery invariant**: what lies at or below the cursor was passed over by an accepted
    packet, packets keep their word, and accepted ones told of the prose of others. -/
structure Delivers (binding : Binding) (s : DeliveryRun) : Prop where
  cursor : s.delivery.lastDeliveredSeq ≤ s.delivery.log.latestSeq
  passed : ∀ m ∈ s.delivery.log.rows, InScope binding.threadId m →
    m.seq ≤ s.delivery.lastDeliveredSeq →
      ∃ p ∈ s.delivery.accepted, p.input.trigger.id = m.id ∨ p.Spans m
  built : ∀ p ∈ s.delivery.accepted ++ s.pending, Truthful binding s.delivery p
  told : ∀ p ∈ s.delivery.accepted, ∀ m ∈ s.delivery.log.rows,
    isMentionContextProseRow m = true → Foreign binding m → p.Spans m →
      s.delivery.Triggered m ∨ Tells binding p m

theorem Delivers.complete (h : Delivers binding s) : Complete binding s.delivery := by
  intro m hm hprose hforeign hscope hle
  have htriggered : s.delivery.Triggered m → s.delivery.Accounted m := by
    rintro ⟨q, hq, hid⟩
    exact ⟨q, hq, .inl hid⟩
  obtain ⟨p, hp, hid | hspans⟩ := h.passed m hm hscope hle
  · exact ⟨p, hp, .inl hid⟩
  · rcases h.told p hp m hm hprose hforeign hspans with htrigger | ⟨hown, hloud⟩
    · exact htriggered htrigger
    · have hcovers := (h.built p (mem_append_left _ hp)).covers m hm hspans hforeign
        hown (.inr hprose)
      rcases hcovers with htrigger | hshows | hdiscloses | hsilent
      · exact htriggered htrigger
      · exact ⟨p, hp, .inr (.inl hshows)⟩
      · exact ⟨p, hp, .inr (.inr ⟨hspans, hdiscloses⟩)⟩
      · exact absurd hsilent hloud

/-! ## Steps -/

/-- How prose comes about in a log: a packet that passed over the row before tells of it. -/
def ProseAppears (binding : Binding) (s : DeliveryRun) (log' : ChannelLog) : Prop :=
  ∀ m ∈ s.delivery.log.rows, ∀ m' ∈ log'.rows, m'.fixed = m.fixed → Foreign binding m →
    isMentionContextProseRow m' = true → isMentionContextProseRow m = true ∨
      ∀ p ∈ s.delivery.accepted ++ s.pending, p.Spans m →
        s.delivery.Triggered m ∨
          (Tells binding p m ∧ (p.input.delivery = .turn ∨ p.Shows m ∨ p.Discloses))

theorem Delivers.setLog (h : Delivers binding s) {log' : ChannelLog}
    (hgrows : ChannelLog.Grows s.delivery.log log') (hprose : ProseAppears binding s log') :
    Delivers binding { s with delivery := s.delivery.setLog log' } where
  cursor := h.cursor.trans hgrows.latest
  passed := by
    intro m' hm' hscope hle
    obtain ⟨m, hm, hfixed⟩ := hgrows.fresh m' hm' (hle.trans h.cursor)
    have hseq := ChannelMessage.seq_eq_of_fixed hfixed
    have hscope' : InScope binding.threadId m := by
      unfold InScope ChannelMessage.id at hscope ⊢
      rwa [← hseq, ← ChannelMessage.threadId_eq_of_fixed hfixed]
    obtain ⟨p, hp, hover⟩ := h.passed m hm hscope' (hseq ▸ hle)
    refine ⟨p, hp, ?_⟩
    rw [spans_of_fixed hfixed]
    exact hover.imp_left fun hid => hid.trans hseq.symm
  built := by
    intro p hp
    show Truthful binding (s.delivery.setLog log') p
    refine (h.built p hp).mono hgrows (le_refl _) (List.Subset.refl _) ?_
    intro m hm m' hm' hfixed hspans hforeign hprose'
    rcases hprose m hm m' hm' hfixed hforeign hprose' with hold | htold
    · exact .inl hold
    · right
      exact (htold p hp hspans).imp_right And.right
  told := by
    intro p hp m' hm' hprose' hforeign hspans
    have hp' := mem_append_left s.pending hp
    obtain ⟨m, hm, hfixed⟩ := hgrows.fresh m' hm' (hspans.2.1.le.trans (h.built p hp').known)
    rw [tells_of_fixed hfixed]
    have htriggered : (s.delivery.setLog log').Triggered m' ↔ s.delivery.Triggered m :=
      triggered_of_fixed hfixed
    rw [htriggered]
    rw [foreign_of_fixed hfixed] at hforeign
    rw [spans_of_fixed hfixed] at hspans
    rcases hprose m hm m' hm' hfixed hforeign hprose' with hold | htold
    · exact h.told p hp m hm hold hforeign hspans
    · exact (htold p hp' hspans).imp_right And.left

theorem Delivers.build (h : Delivers binding s) (hp : Truthful binding s.delivery p) :
    Delivers binding { s with pending := s.pending ++ [p] } where
  cursor := h.cursor
  passed := h.passed
  built := by
    intro q hq
    rcases mem_append.mp hq with hq | hq
    · exact h.built q (mem_append_left _ hq)
    · rcases mem_append.mp hq with hq | hq
      · exact h.built q (mem_append_right _ hq)
      · rwa [mem_singleton.mp hq]
  told := h.told

/-- A row of the scope between the old cursor and the new one is spanned, or the trigger. -/
theorem spans_of_passed {s : Delivery} (hp : Truthful binding s p)
    (hscope : InScope binding.threadId m)
    (hpast : ¬m.seq ≤ s.lastDeliveredSeq) (hle : m.seq ≤ p.input.trigger.seq) :
    p.input.trigger.id = m.id ∨ p.Spans m := by
  rcases hle.eq_or_lt with heq | hlt
  · exact .inl heq.symm
  · right
    refine ⟨?_, hlt, ?_⟩
    · exact lt_of_le_of_lt hp.passed (not_le.mp hpast)
    · rw [hp.threadId]
      exact hscope

theorem Delivers.accept (h : Delivers binding s)
    (hp : p ∈ s.pending) (htold : ∀ m ∈ s.delivery.log.rows, isMentionContextProseRow m = true →
      Foreign binding m → p.Spans m → s.delivery.Triggered m ∨ Tells binding p m) (i : ℕ) :
    Delivers binding { delivery := s.delivery.accept p, pending := s.pending.eraseIdx i } := by
  have htruthful := h.built p (mem_append_right _ hp)
  have hsub : s.delivery.accepted ⊆ (s.delivery.accept p).accepted :=
    subset_append_left _ _
  have htriggered {m : ChannelMessage} :
      s.delivery.Triggered m → (s.delivery.accept p).Triggered m := by
    rintro ⟨q, hq, hid⟩
    exact ⟨q, hsub hq, hid⟩
  refine ⟨?_, ?_, ?_, ?_⟩
  · exact max_le h.cursor htruthful.known
  · intro m hm hscope hle
    by_cases hpast : m.seq ≤ s.delivery.lastDeliveredSeq
    · obtain ⟨q, hq, hover⟩ := h.passed m hm hscope hpast
      exact ⟨q, hsub hq, hover⟩
    · refine ⟨p, by simp [Delivery.accept], ?_⟩
      have hle : m.seq ≤ max s.delivery.lastDeliveredSeq p.input.trigger.seq := hle
      apply spans_of_passed htruthful hscope hpast
      omega
  · intro q hq
    have hq' : q ∈ s.delivery.accepted ++ s.pending := by
      rcases mem_append.mp hq with hq | hq
      · rcases mem_append.mp hq with hq | hq
        · exact mem_append_left _ hq
        · rw [mem_singleton.mp hq]
          exact mem_append_right _ hp
      · exact mem_append_right _ ((eraseIdx_sublist _ i).subset hq)
    show Truthful binding (s.delivery.accept p) q
    refine (h.built q hq').mono (ChannelLog.Grows.refl _) (le_max_left _ _) hsub ?_
    intro m hm m' hm' hfixed _ _ hprose
    left
    rwa [← s.delivery.log.ranked.eq_of_rank_eq hm' hm (ChannelMessage.seq_eq_of_fixed hfixed)]
  · intro q hq m hm hprose hforeign hspans
    rcases mem_append.mp hq with hq | hq
    · exact (h.told q hq m hm hprose hforeign hspans).imp_left htriggered
    · rw [mem_singleton.mp hq] at hspans ⊢
      exact (htold m hm hprose hforeign hspans).imp_left htriggered

end RelayIde.Binder
