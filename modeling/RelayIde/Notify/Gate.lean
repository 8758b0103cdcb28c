import Mathlib

/-!
# The Notification Gate

The budget of OS notifications (`createNotifyGate`), when the charges of events come back late.

- `Reached.budget` — the limits, and that no signal is lost or counted twice
-/

namespace RelayIde.Notify

open List hiding dropWhile

def NOTIFY_OS_RATE_LIMIT_MS : ℕ := 60000
def NOTIFY_OS_BURST_LIMIT : ℕ := 3
def NOTIFY_OS_BURST_WINDOW_MS : ℕ := 10000

inductive NotifyReason
  | mention | dmReply | turnComplete

structure NotifySettings where
  mentions : Bool
  dmReplies : Bool
  turnComplete : Bool

def notifyReasonEnabled (settings : NotifySettings) : NotifyReason → Bool
  | .mention => settings.mentions
  | .dmReply => settings.dmReplies
  | .turnComplete => settings.turnComplete

structure NotifyChannel where
  id : String
  title : String

/-- A signal without a row has `seq` 0. -/
structure NotifySignal where
  reason : NotifyReason
  channel : NotifyChannel
  seq : ℕ
  senderLabel : String
  raisedAt : ℕ

structure NotifyGateContext where
  settings : NotifySettings
  activeChannelId : Option String
  documentHidden : Bool
  windowFocused : Bool
  lastReadSeq : Option ℕ
  now : ℕ

structure NotifyEvent where
  key : String
  reason : NotifyReason
  channelId : String
  channelTitle : String
  badge : Bool
  os : Bool
  count : ℕ
  osOverflow : ℕ
  osChargedAt : Option ℕ
  senderLabel : String
  seq : ℕ
  raisedAt : ℕ

structure NotifyGate where
  lastSeqByChannel : String → Option ℕ := fun _ => none
  lastOsAtByChannel : String → Option ℕ := fun _ => none
  coalescedByChannel : String → Option ℕ := fun _ => none
  /-- Oldest first. -/
  osFiredAt : List ℕ := []
  overflowChannels : Finset String := ∅

def notifyChannelKey (channelId : String) : String := "relay-channel:" ++ channelId

def pruneBurstLedger (gate : NotifyGate) (now : ℕ) : NotifyGate :=
  let osFiredAt := gate.osFiredAt.dropWhile fun oldest => oldest + NOTIFY_OS_BURST_WINDOW_MS ≤ now
  { gate with
    osFiredAt
    overflowChannels := if osFiredAt = [] then ∅ else gate.overflowChannels }

def replayed (gate : NotifyGate) (signal : NotifySignal) : Bool :=
  0 < signal.seq && (gate.lastSeqByChannel signal.channel.id).any (signal.seq ≤ ·)

def markSeen (gate : NotifyGate) (signal : NotifySignal) : NotifyGate :=
  { gate with
    lastSeqByChannel :=
      if 0 < signal.seq then
        Function.update gate.lastSeqByChannel signal.channel.id (some signal.seq)
      else gate.lastSeqByChannel }

def withinChannelWindow (gate : NotifyGate) (channelId : String) (now : ℕ) : Bool :=
  (gate.lastOsAtByChannel channelId).any (now < · + NOTIFY_OS_RATE_LIMIT_MS)

def pile (gate : NotifyGate) (channelId : String) : ℕ :=
  (gate.coalescedByChannel channelId).getD 0

/-- The event of a signal that gets no OS notification. -/
def inApp (signal : NotifySignal) : NotifyEvent where
  key := notifyChannelKey signal.channel.id
  reason := signal.reason
  channelId := signal.channel.id
  channelTitle := signal.channel.title
  badge := true
  os := false
  count := 1
  osOverflow := 0
  osChargedAt := none
  senderLabel := signal.senderLabel
  seq := signal.seq
  raisedAt := signal.raisedAt

def holdBack (gate : NotifyGate) (channelId : String) : NotifyGate :=
  { gate with
    coalescedByChannel :=
      Function.update gate.coalescedByChannel channelId (some (pile gate channelId + 1)) }

/-- A hidden tab: the ledgers are charged, or the signal goes on the channel's pile. -/
def charge (gate : NotifyGate) (signal : NotifySignal) (now : ℕ) : NotifyGate × NotifyEvent :=
  let id := signal.channel.id
  let within := withinChannelWindow gate id now
  let gate := pruneBurstLedger gate now
  let burstExhausted := NOTIFY_OS_BURST_LIMIT ≤ gate.osFiredAt.length
  if within = true ∨ burstExhausted then
    if burstExhausted ∧ within = false then
      let overflowChannels := insert id gate.overflowChannels
      ({ holdBack gate id with overflowChannels },
        { inApp signal with
          osOverflow :=
            if gate.overflowChannels.card < overflowChannels.card then overflowChannels.card
            else 0 })
    else (holdBack gate id, inApp signal)
  else
    ({ gate with
        coalescedByChannel := Function.update gate.coalescedByChannel id none
        lastOsAtByChannel := Function.update gate.lastOsAtByChannel id (some now)
        osFiredAt := gate.osFiredAt ++ [now] },
      { inApp signal with os := true, count := pile gate id + 1, osChargedAt := some now })

def evaluate (gate : NotifyGate) (signal : NotifySignal) (ctx : NotifyGateContext) :
    NotifyGate × Option NotifyEvent :=
  if notifyReasonEnabled ctx.settings signal.reason = false then (gate, none)
  else if replayed gate signal then (gate, none)
  else
    let gate := markSeen gate signal
    if 0 < signal.seq ∧ ctx.lastReadSeq.any (signal.seq ≤ ·) = true then (gate, none)
    else if some signal.channel.id = ctx.activeChannelId ∧ ctx.documentHidden = false ∧
        ctx.windowFocused = true then (gate, none)
    else if ctx.documentHidden then
      let (gate, event) := charge gate signal ctx.now
      (gate, some event)
    else (gate, some (inApp signal))

def refundOs (gate : NotifyGate) (event : NotifyEvent) : NotifyGate :=
  match event.osChargedAt with
  | none => gate
  | some chargedAt =>
    { gate with
      coalescedByChannel := Function.update gate.coalescedByChannel event.channelId
        (some (pile gate event.channelId + event.count))
      lastOsAtByChannel :=
        if gate.lastOsAtByChannel event.channelId = some chargedAt then
          Function.update gate.lastOsAtByChannel event.channelId none
        else gate.lastOsAtByChannel
      osFiredAt := gate.osFiredAt.erase chargedAt }

/-! ## Runs -/

/-- An event that came out, with the channels held back until then and from then on. -/
structure Issued where
  event : NotifyEvent
  now : ℕ
  hidden : Bool
  before : Finset String
  after : Finset String

/-- The grants in the burst window that ends at `now`. -/
def burst (grants : List Issued) (now : ℕ) : List Issued :=
  grants.filter (now < ·.now + NOTIFY_OS_BURST_WINDOW_MS)

/-- The channels held back since no grant was in the burst window. -/
def sinceEmpty (grants : List Issued) (now : ℕ) (held : Finset String) : Finset String :=
  if burst grants now = [] then ∅ else held

/-- No grant of the channel is in its own window. -/
def Rested (grants : List Issued) (channelId : String) (now : ℕ) : Prop :=
  ∀ e ∈ grants, e.event.channelId = channelId → e.now + NOTIFY_OS_RATE_LIMIT_MS ≤ now

instance (grants : List Issued) (channelId : String) (now : ℕ) :
    Decidable (Rested grants channelId now) := List.decidableBAll _ _

def issue (grants : List Issued) (ctx : NotifyGateContext) (held : Finset String)
    (event : NotifyEvent) : Issued where
  event
  now := ctx.now
  hidden := ctx.documentHidden
  before := sinceEmpty grants ctx.now held
  after :=
    -- the channel rested, so it is the burst budget that holds the event back
    if ctx.documentHidden ∧ event.os = false ∧ Rested grants event.channelId ctx.now then
      insert event.channelId (sinceEmpty grants ctx.now held)
    else sinceEmpty grants ctx.now held

/-- The gate after some calls, with all events, the grants that were not refunded, and the channels
    held back. -/
inductive Reached : NotifyGate → List Issued → List Issued → Finset String → ℕ → Prop
  | start : Reached {} [] [] ∅ 0
  | silent {gate log grants held now} {signal ctx} (h : Reached gate log grants held now)
      (hnow : now ≤ ctx.now) (hnone : (evaluate gate signal ctx).2 = none) :
      Reached (evaluate gate signal ctx).1 log grants (sinceEmpty grants ctx.now held) ctx.now
  | event {gate log grants held now} {signal ctx event} (h : Reached gate log grants held now)
      (hnow : now ≤ ctx.now) (hsome : (evaluate gate signal ctx).2 = some event) :
      Reached (evaluate gate signal ctx).1 (log ++ [issue grants ctx held event])
        (if event.os then grants ++ [issue grants ctx held event] else grants)
        (issue grants ctx held event).after ctx.now
  | refund {gate log before e after held now}
      (h : Reached gate log (before ++ e :: after) held now) :
      Reached (refundOs gate e.event) log (before ++ after) held now
  | refundInApp {gate log grants held now} {e : Issued} (h : Reached gate log grants held now)
      (he : e ∈ log) (hos : e.event.os = false) :
      Reached (refundOs gate e.event) log grants held now

/-! ## The budget -/

/-- Grants of one channel are a rate limit apart. -/
def Spaced (grants : List Issued) : Prop :=
  grants.Pairwise fun e e' => e.event.channelId = e'.event.channelId →
    e.now + NOTIFY_OS_RATE_LIMIT_MS ≤ e'.now

/-- No window that is shorter than a burst window holds more grants than allowed. -/
def Limited (grants : List Issued) : Prop :=
  ∀ a b, b < a + NOTIFY_OS_BURST_WINDOW_MS →
    grants.countP (fun e => a ≤ e.now && e.now ≤ b) ≤ NOTIFY_OS_BURST_LIMIT

/-- What the grants of a channel stand for, and its pile, are its events in a hidden tab. -/
def Conserved (gate : NotifyGate) (log grants : List Issued) : Prop :=
  ∀ c, pile gate c + ((grants.filter (·.event.channelId = c)).map (·.event.count)).sum =
    log.countP fun e => e.hidden && e.event.channelId == c

def RowsOnce (log : List Issued) : Prop :=
  log.Pairwise fun e e' => 0 < e.event.seq → e.event.channelId = e'.event.channelId →
    e.event.seq ≠ e'.event.seq

/-- Overflow is reported by an event that adds its channel, and is the number of the channels. -/
def Issued.Overflows (e : Issued) : Prop :=
  e.event.osOverflow ≠ 0 → e.event.channelId ∉ e.before ∧ e.event.channelId ∈ e.after ∧
    e.event.osOverflow = e.after.card

/-! ## One signal -/

variable {gate : NotifyGate} {log grants before after : List Issued} {held : Finset String}
  {now n : ℕ} {signal : NotifySignal} {ctx : NotifyGateContext} {e : Issued}

/-- What a signal can do. -/
theorem evaluate_cases (gate : NotifyGate) (signal : NotifySignal) (ctx : NotifyGateContext) :
    (∃ gate', evaluate gate signal ctx = (gate', none) ∧
        (gate' = gate ∨ gate' = markSeen gate signal ∧ replayed gate signal = false)) ∨
      (replayed gate signal = false ∧ ctx.documentHidden = false ∧
        evaluate gate signal ctx = (markSeen gate signal, some (inApp signal))) ∨
      (replayed gate signal = false ∧ ctx.documentHidden = true ∧
        evaluate gate signal ctx = ((charge (markSeen gate signal) signal ctx.now).1,
          some (charge (markSeen gate signal) signal ctx.now).2)) := by
  unfold evaluate
  by_cases hon : notifyReasonEnabled ctx.settings signal.reason = false
  · exact .inl ⟨gate, if_pos hon, .inl rfl⟩
  by_cases hseen : replayed gate signal = true
  · exact .inl ⟨gate, by rw [if_neg hon, if_pos hseen], .inl rfl⟩
  rw [if_neg hon, if_neg hseen]
  rw [Bool.not_eq_true] at hseen
  dsimp only
  split_ifs with hread hwatch hhidden
  · exact .inl ⟨_, rfl, .inr ⟨rfl, hseen⟩⟩
  · exact .inl ⟨_, rfl, .inr ⟨rfl, hseen⟩⟩
  · exact .inr (.inr ⟨hseen, hhidden, rfl⟩)
  · exact .inr (.inl ⟨hseen, by simpa using hhidden, rfl⟩)

/-! ## The ledgers -/

/-- The ledgers of the gate hold the grants that were not refunded. -/
structure Ledger (gate : NotifyGate) (grants : List Issued) (held : Finset String) (now : ℕ) :
    Prop where
  past : ∀ e ∈ grants, e.now ≤ now
  charged : ∀ e ∈ grants, e.event.osChargedAt = some e.now
  sorted : gate.osFiredAt.Pairwise (· ≤ ·)
  fired : ∃ cut ≤ now, gate.osFiredAt ~
    (grants.map (·.now)).filter (cut < · + NOTIFY_OS_BURST_WINDOW_MS)
  last : ∀ c t, gate.lastOsAtByChannel c = some t → ∃ e ∈ grants, e.event.channelId = c ∧ e.now = t
  window : ∀ e ∈ grants, gate.lastOsAtByChannel e.event.channelId = some e.now ∨
    e.now + NOTIFY_OS_RATE_LIMIT_MS ≤ now
  spaced : Spaced grants
  limited : Limited grants
  overflow : burst grants now ≠ [] → gate.overflowChannels = held

theorem map_burst (grants : List Issued) (now : ℕ) : (burst grants now).map (·.now) =
    (grants.map (·.now)).filter (now < · + NOTIFY_OS_BURST_WINDOW_MS) := by
  rw [filter_map]
  rfl

theorem burst_later (hn : now ≤ n) (h : burst grants n ≠ []) : burst grants now ≠ [] := by
  obtain ⟨e, he⟩ := exists_mem_of_ne_nil _ h
  refine ne_nil_of_mem (a := e) ?_
  simp only [burst, mem_filter, decide_eq_true_eq] at he ⊢
  exact ⟨he.1, by omega⟩

theorem Ledger.later (h : Ledger gate grants held now) (hn : now ≤ n) :
    Ledger gate grants (sinceEmpty grants n held) n where
  past e he := (h.past e he).trans hn
  charged := h.charged
  sorted := h.sorted
  fired := by
    obtain ⟨cut, hcut, hperm⟩ := h.fired
    exact ⟨cut, hcut.trans hn, hperm⟩
  last := h.last
  window e he := (h.window e he).imp_right fun hold => hold.trans hn
  spaced := h.spaced
  limited := h.limited
  overflow hburst := by rw [sinceEmpty, if_neg hburst, h.overflow (burst_later hn hburst)]

/-- What drops the aged grants of a sorted ledger keeps the others. -/
theorem dropWhile_eq_filter {l : List ℕ} (h : l.Pairwise (· ≤ ·)) (w n : ℕ) :
    l.dropWhile (fun t => t + w ≤ n) = l.filter (n < · + w) := by
  induction l with
  | nil => rfl
  | cons t l ih =>
    obtain ⟨hhead, htail⟩ := pairwise_cons.mp h
    by_cases ht : t + w ≤ n
    · rw [dropWhile_cons_of_pos (by simpa using ht), filter_cons_of_neg (by simpa using ht),
        ih htail]
    · rw [dropWhile_cons_of_neg (by simpa using ht), eq_comm, filter_eq_self]
      intro s hs
      have hle : t ≤ s := by
        rcases mem_cons.mp hs with rfl | hs
        · exact le_refl _
        · exact hhead s hs
      simp only [decide_eq_true_eq]
      omega

section
variable (h : Ledger gate grants held now)
include h

theorem Ledger.prune (hheld : burst grants now = [] → held = ∅) :
    (pruneBurstLedger gate now).osFiredAt ~ (burst grants now).map (·.now) ∧
      (pruneBurstLedger gate now).overflowChannels = held ∧
      Ledger (pruneBurstLedger gate now) grants held now := by
  have hfilter := dropWhile_eq_filter h.sorted NOTIFY_OS_BURST_WINDOW_MS now
  have hburst : (pruneBurstLedger gate now).osFiredAt ~ (burst grants now).map (·.now) := by
    obtain ⟨cut, hcut, hperm⟩ := h.fired
    show gate.osFiredAt.dropWhile _ ~ _
    rw [hfilter, map_burst]
    refine (hperm.filter _).trans (.of_eq ?_)
    rw [filter_filter]
    refine filter_congr fun t _ => ?_
    rw [← Bool.decide_and, decide_eq_decide]
    omega
  have hnil : (pruneBurstLedger gate now).osFiredAt = [] ↔ burst grants now = [] := by
    rw [← length_eq_zero_iff, hburst.length_eq, length_map, length_eq_zero_iff]
  have hoverflow : (pruneBurstLedger gate now).overflowChannels = held := by
    show (if (pruneBurstLedger gate now).osFiredAt = [] then ∅ else gate.overflowChannels) = _
    by_cases hempty : burst grants now = []
    · rw [if_pos (hnil.mpr hempty), hheld hempty]
    · rw [if_neg (hnil.not.mpr hempty), h.overflow hempty]
  refine ⟨hburst, hoverflow, { h with sorted := ?_, fired := ⟨now, le_refl _, ?_⟩, overflow := ?_ }⟩
  · exact h.sorted.sublist (dropWhile_sublist _)
  · exact hburst.trans (.of_eq (map_burst _ _))
  · exact fun _ => hoverflow

theorem Ledger.within_iff (c : String) :
    withinChannelWindow gate c now = false ↔ Rested grants c now := by
  rw [withinChannelWindow, Option.any_eq_false]
  constructor
  · rintro hopen e he rfl
    obtain hlast | hold := h.window e he
    · simpa using hopen _ hlast
    · exact hold
  · intro hall t ht
    obtain ⟨e, he, hc, rfl⟩ := h.last c t ht
    simpa using hall e he hc

theorem Ledger.grant (hcharged : e.event.osChargedAt = some now)
    (hnow : e.now = now) {id : String} (hid : e.event.channelId = id)
    (hfired : gate.osFiredAt ~ (burst grants now).map (·.now))
    (hroom : gate.osFiredAt.length < NOTIFY_OS_BURST_LIMIT)
    (hoverflow : gate.overflowChannels = held)
    (hrested : Rested grants id now) (coalesced) :
    Ledger { gate with
      coalescedByChannel := coalesced
      lastOsAtByChannel := Function.update gate.lastOsAtByChannel id (some now)
      osFiredAt := gate.osFiredAt ++ [now] } (grants ++ [e]) held now := by
  subst hnow hid
  refine ⟨?_, ?_, ?_, ⟨e.now, le_refl _, ?_⟩, ?_, ?_, ?_, ?_, fun _ => hoverflow⟩
  · exact forall_mem_append.mpr ⟨h.past, forall_mem_singleton.mpr (le_refl _)⟩
  · exact forall_mem_append.mpr ⟨h.charged, forall_mem_singleton.mpr hcharged⟩
  · refine pairwise_append.mpr ⟨h.sorted, pairwise_singleton _ _, fun t ht => ?_⟩
    obtain ⟨g, hg, rfl⟩ := mem_map.mp (hfired.mem_iff.mp ht)
    exact forall_mem_singleton.mpr (h.past g (mem_of_mem_filter hg))
  · refine (hfired.append_right _).trans (.of_eq ?_)
    rw [map_append, filter_append, map_burst]
    simp [NOTIFY_OS_BURST_WINDOW_MS]
  · intro c t hc
    dsimp only at hc
    rw [Function.update_apply] at hc
    split_ifs at hc with heq
    · exact ⟨e, mem_append_right _ mem_cons_self, heq.symm, by simpa using hc⟩
    · obtain ⟨g, hg, hgrant⟩ := h.last c t hc
      exact ⟨g, mem_append_left _ hg, hgrant⟩
  · dsimp only
    refine forall_mem_append.mpr ⟨fun g hg => ?_, forall_mem_singleton.mpr (.inl ?_)⟩
    · rw [Function.update_apply]
      split_ifs with heq
      · exact .inr (hrested g hg heq)
      · exact h.window g hg
    · rw [Function.update_self]
  · exact pairwise_append.mpr ⟨h.spaced, pairwise_singleton _ _, fun g hg =>
      forall_mem_singleton.mpr (hrested g hg)⟩
  · intro a b hab
    rw [countP_append, countP_singleton]
    split
    · next hin =>
      -- what is in one window with the new grant was in the burst window when it was charged
      rw [Bool.and_eq_true, decide_eq_true_eq, decide_eq_true_eq] at hin
      have hle : grants.countP (fun g => a ≤ g.now && g.now ≤ b) ≤ gate.osFiredAt.length := by
        rw [hfired.length_eq, length_map, burst, ← countP_eq_length_filter]
        refine countP_mono_left fun g _ hg => ?_
        rw [Bool.and_eq_true, decide_eq_true_eq, decide_eq_true_eq] at hg
        rw [decide_eq_true_eq]
        omega
      omega
    · exact h.limited a b hab

end

theorem Ledger.refund (h : Ledger gate (before ++ e :: after) held now) :
    Ledger (refundOs gate e.event) (before ++ after) held now := by
  have hsub : before ++ after <+ before ++ e :: after := (sublist_cons_self e after).append_left _
  have hperm : before ++ e :: after ~ e :: (before ++ after) := perm_middle
  have hspaced : ∀ g ∈ before ++ after, g.event.channelId = e.event.channelId → g.now ≠ e.now := by
    obtain ⟨-, hafter, hbefore⟩ := pairwise_append.mp h.spaced
    intro g hg hc heq
    have hpos : 0 < NOTIFY_OS_RATE_LIMIT_MS := by decide
    rcases mem_append.mp hg with hg | hg
    · have := hbefore g hg e mem_cons_self hc
      omega
    · have := (pairwise_cons.mp hafter).1 g hg hc.symm
      omega
  rw [refundOs, h.charged e (mem_append_right _ mem_cons_self)]
  refine ⟨fun g hg => h.past g (hsub.subset hg), fun g hg => h.charged g (hsub.subset hg),
    h.sorted.sublist erase_sublist, ?_, ?_, ?_, h.spaced.sublist hsub,
    fun a b hab => hsub.countP_le.trans (h.limited a b hab), fun hne => h.overflow ?_⟩
  · obtain ⟨cut, hcut, hfired⟩ := h.fired
    refine ⟨cut, hcut, (hfired.erase e.now).trans ?_⟩
    have htimes := ((hperm.map Issued.now).filter (cut < · + NOTIFY_OS_BURST_WINDOW_MS)).erase e.now
    refine htimes.trans (.of_eq ?_)
    rw [map_cons]
    by_cases hin : cut < e.now + NOTIFY_OS_BURST_WINDOW_MS
    · rw [filter_cons_of_pos (by simpa using hin), erase_cons_head]
    · rw [filter_cons_of_neg (by simpa using hin), erase_of_not_mem]
      simp [hin]
  · intro c t hc
    have hother : gate.lastOsAtByChannel c = some t ∧ ¬(e.event.channelId = c ∧ e.now = t) := by
      dsimp only at hc
      split_ifs at hc with hlast
      · rw [Function.update_apply] at hc
        split_ifs at hc with hne
        exact ⟨hc, fun heq => hne heq.1.symm⟩
      · exact ⟨hc, fun heq => hlast (by rw [heq.1, heq.2, hc])⟩
    obtain ⟨g, hg, hgrant⟩ := h.last c t hother.1
    obtain rfl | hg := mem_cons.mp (hperm.mem_iff.mp hg)
    · exact absurd hgrant hother.2
    · exact ⟨g, hg, hgrant⟩
  · intro g hg
    dsimp only
    obtain hlast | hold := h.window g (hsub.subset hg)
    · left
      split_ifs with hmatch
      · rw [Function.update_apply, if_neg, hlast]
        intro hc
        rw [← hc, hlast, Option.some_inj] at hmatch
        exact hspaced g hg hc hmatch
      · exact hlast
    · exact .inr hold
  · intro hnil
    exact hne (sublist_nil.mp (hnil ▸ hsub.filter _))

/-! ## Signals of a hidden tab -/

/-- What a call has to keep of one event. -/
structure Charged (gate gate' : NotifyGate) (signal : NotifySignal) (i : Issued) : Prop where
  seen : gate'.lastSeqByChannel = gate.lastSeqByChannel
  channel : i.event.channelId = signal.channel.id
  seq : i.event.seq = signal.seq
  free : i.event.os = false → i.event.osChargedAt = none
  pile : ∀ c, pile gate' c +
    (if i.event.os = true ∧ signal.channel.id = c then i.event.count else 0) =
      pile gate c + (i.hidden && signal.channel.id == c).toNat
  overflows : i.Overflows

theorem pile_holdBack (gate : NotifyGate) (id c : String) :
    pile (holdBack gate id) c = pile gate c + (id == c).toNat := by
  rw [pile, holdBack]
  dsimp only
  rw [Function.update_apply]
  by_cases hc : c = id
  · simp [hc, pile]
  · simp [hc, Ne.symm hc, pile]

theorem Ledger.charge (h : Ledger gate grants held now) (hn : now ≤ ctx.now)
    (hhidden : ctx.documentHidden = true) (signal : NotifySignal) {gate' event}
    (heq : charge gate signal ctx.now = (gate', event)) :
    let i := issue grants ctx held event
    Ledger gate' (if event.os then grants ++ [i] else grants) i.after ctx.now ∧
      Charged gate gate' signal i := by
  have hlater := h.later hn
  obtain ⟨hfired, hoverflow, hpruned⟩ := hlater.prune fun hnil => if_pos hnil
  have hrested := hlater.within_iff signal.channel.id
  unfold Notify.charge at heq
  dsimp only at heq
  set p := pruneBurstLedger gate ctx.now with hp
  have hpile (c : String) : pile (holdBack p signal.channel.id) c + 0 =
      pile gate c + (ctx.documentHidden && signal.channel.id == c).toNat := by
    rw [hhidden]
    exact pile_holdBack p signal.channel.id c
  by_cases hheld : withinChannelWindow gate signal.channel.id ctx.now = true ∨
      NOTIFY_OS_BURST_LIMIT ≤ p.osFiredAt.length
  · rw [if_pos hheld] at heq
    by_cases hburst : NOTIFY_OS_BURST_LIMIT ≤ p.osFiredAt.length ∧
        withinChannelWindow gate signal.channel.id ctx.now = false
    · -- held back by the burst budget
      rw [if_pos hburst] at heq
      obtain ⟨rfl, rfl⟩ := Prod.mk.inj heq
      have hafter (overflow : ℕ) :
          (issue grants ctx held { inApp signal with osOverflow := overflow }).after =
            insert signal.channel.id (sinceEmpty grants ctx.now held) :=
        if_pos ⟨hhidden, rfl, hrested.mp hburst.2⟩
      refine ⟨{ hpruned with overflow := fun _ => ?_ }, rfl, rfl, rfl, fun _ => rfl, hpile, ?_⟩
      · rw [hafter, hoverflow]
      · rw [Issued.Overflows, hafter, ← hoverflow]
        intro hne
        have hgrew : p.overflowChannels.card <
            (insert signal.channel.id p.overflowChannels).card := by
          by_contra hsame
          exact hne (if_neg hsame)
        refine ⟨fun hin => ?_, Finset.mem_insert_self _ _, if_pos hgrew⟩
        have hmem : signal.channel.id ∈ p.overflowChannels := hoverflow.symm ▸ hin
        rw [Finset.insert_eq_self.mpr hmem] at hgrew
        exact lt_irrefl _ hgrew
    · -- held back by the channel's own window
      rw [if_neg hburst] at heq
      obtain ⟨rfl, rfl⟩ := Prod.mk.inj heq
      have hafter : (issue grants ctx held (inApp signal)).after =
          sinceEmpty grants ctx.now held := by
        refine if_neg fun h => hburst ?_
        have hopen := hrested.mpr h.2.2
        exact ⟨hheld.resolve_left (by rw [hopen]; decide), hopen⟩
      refine ⟨?_, rfl, rfl, rfl, fun _ => rfl, hpile, fun hne => absurd rfl hne⟩
      rw [hafter]
      exact { hpruned with }
  · rw [if_neg hheld] at heq
    obtain ⟨rfl, hevent⟩ := Prod.mk.inj heq
    have hos : event.os = true := by rw [← hevent]
    rw [not_or, Bool.not_eq_true, Nat.not_le] at hheld
    have hafter : (issue grants ctx held event).after = sinceEmpty grants ctx.now held :=
      if_neg fun h => by rw [hos] at h; cases h.2.1
    subst hevent
    refine ⟨?_, rfl, rfl, rfl, fun h => absurd (hos.symm.trans h) (by decide), fun c => ?_,
      fun hne => absurd rfl hne⟩
    · rw [hafter, if_pos hos]
      refine hpruned.grant ?_ ?_ ?_ hfired hheld.2 hoverflow (hrested.mp hheld.1) _ <;> rfl
    · simp only [issue, inApp, hhidden, pile, Function.update_apply, Bool.true_and, true_and]
      by_cases hc : c = signal.channel.id
      · subst hc
        simp
        rfl
      · simp [hc, Ne.symm hc, hp, pruneBurstLedger]

/-! ## The count -/

/-- What the log of the events says of the gate. -/
structure Counted (gate : NotifyGate) (log grants : List Issued) : Prop where
  free : ∀ e ∈ log, e.event.os = false → e.event.osChargedAt = none
  seen : ∀ e ∈ log, 0 < e.event.seq →
    ∃ s, gate.lastSeqByChannel e.event.channelId = some s ∧ e.event.seq ≤ s
  rows : RowsOnce log
  conserved : Conserved gate log grants
  overflows : ∀ e ∈ log, e.Overflows

theorem Counted.seen_markSeen (h : Counted gate log grants) (hnew : replayed gate signal = false)
    (he : e ∈ log) (hpos : 0 < e.event.seq) :
    (∃ s, (markSeen gate signal).lastSeqByChannel e.event.channelId = some s ∧ e.event.seq ≤ s) ∧
      (e.event.channelId = signal.channel.id → e.event.seq ≠ signal.seq) := by
  obtain ⟨s, hs, hle⟩ := h.seen e he hpos
  unfold markSeen
  dsimp only
  by_cases hseq : 0 < signal.seq
  · rw [if_pos hseq, Function.update_apply]
    by_cases hc : e.event.channelId = signal.channel.id
    · have hlt : s < signal.seq := by simpa [replayed, hseq, ← hc, hs] using hnew
      rw [if_pos hc]
      exact ⟨⟨_, rfl, by omega⟩, fun _ => by omega⟩
    · rw [if_neg hc]
      exact ⟨⟨s, hs, hle⟩, fun heq => absurd heq hc⟩
  · rw [if_neg hseq]
    exact ⟨⟨s, hs, hle⟩, fun _ => by omega⟩

theorem Counted.event (h : Counted gate log grants) (hnew : replayed gate signal = false)
    {gate'} (he : Charged (markSeen gate signal) gate' signal e) :
    Counted gate' (log ++ [e]) (if e.event.os then grants ++ [e] else grants) where
  free := forall_mem_append.mpr ⟨h.free, forall_mem_singleton.mpr he.free⟩
  seen := by
    rw [he.seen]
    refine forall_mem_append.mpr ⟨fun g hg hpos => (h.seen_markSeen hnew hg hpos).1, ?_⟩
    refine forall_mem_singleton.mpr fun hpos => ⟨signal.seq, ?_, he.seq.le⟩
    rw [he.seq] at hpos
    rw [he.channel, markSeen]
    dsimp only
    rw [if_pos hpos, Function.update_self]
  rows := by
    refine pairwise_append.mpr ⟨h.rows, pairwise_singleton _ _, fun g hg => ?_⟩
    refine forall_mem_singleton.mpr fun hpos hc => ?_
    rw [he.channel] at hc
    rw [he.seq]
    exact (h.seen_markSeen hnew hg hpos).2 hc
  conserved c := by
    have hpile := he.pile c
    have hold := h.conserved c
    have hcount : (((if e.event.os then grants ++ [e] else grants).filter
        (·.event.channelId = c)).map (·.event.count)).sum =
        ((grants.filter (·.event.channelId = c)).map (·.event.count)).sum +
          if e.event.os = true ∧ signal.channel.id = c then e.event.count else 0 := by
      rw [← he.channel]
      cases e.event.os <;> by_cases hc : e.event.channelId = c <;> simp [hc]
    rw [hcount, countP_append, countP_singleton, he.channel]
    change pile gate c + _ = _ at hold
    change _ = pile gate c + _ at hpile
    rw [Bool.toNat, Bool.cond_eq_ite] at hpile
    omega
  overflows := forall_mem_append.mpr ⟨h.overflows, forall_mem_singleton.mpr he.overflows⟩

theorem Counted.refund (h : Counted gate log (before ++ e :: after)) (at' : ℕ)
    (hcharged : e.event.osChargedAt = some at') :
    Counted (refundOs gate e.event) log (before ++ after) := by
  rw [refundOs, hcharged]
  refine ⟨h.free, h.seen, h.rows, fun c => ?_, h.overflows⟩
  have hold := h.conserved c
  simp only [filter_append, filter_cons, map_append, sum_append_nat] at hold ⊢
  simp only [pile, Function.update_apply]
  by_cases hc : c = e.event.channelId
  · subst hc
    simp [pile] at hold ⊢
    omega
  · simpa [hc, Ne.symm hc, pile] using hold

/-! ## Runs keep the budget -/

theorem Reached.invariant (h : Reached gate log grants held now) :
    Ledger gate grants held now ∧ Counted gate log grants := by
  induction h with
  | start =>
    refine ⟨⟨?_, ?_, .nil, ⟨0, le_refl _, .nil⟩, ?_, ?_, .nil, ?_, ?_⟩, ⟨?_, ?_, .nil, ?_, ?_⟩⟩ <;>
      simp [pile, burst, Limited, Conserved]
  | @silent gate log grants held now signal ctx _ hnow hnone ih =>
    obtain ⟨gate', heq, rfl | ⟨rfl, hnew⟩⟩ | ⟨-, -, heq⟩ | ⟨-, -, heq⟩ :=
      evaluate_cases gate signal ctx
    · rw [heq]
      exact ⟨ih.1.later hnow, ih.2⟩
    · rw [heq]
      exact ⟨{ ih.1.later hnow with },
        { ih.2 with seen := fun e he hpos => (ih.2.seen_markSeen hnew he hpos).1 }⟩
    · rw [heq] at hnone
      cases hnone
    · rw [heq] at hnone
      cases hnone
  | @event gate log grants held now signal ctx event _ hnow hsome ih =>
    obtain ⟨gate', heq, -⟩ | ⟨hnew, hhidden, heq⟩ | ⟨hnew, hhidden, heq⟩ :=
      evaluate_cases gate signal ctx
    · rw [heq] at hsome
      cases hsome
    · rw [heq] at hsome ⊢
      cases hsome
      have hafter : (issue grants ctx held (inApp signal)).after = sinceEmpty grants ctx.now held :=
        if_neg fun h => by rw [hhidden] at h; cases h.1
      refine ⟨?_, ih.2.event hnew ⟨rfl, rfl, rfl, fun _ => rfl, fun c => ?_, fun h => absurd rfl h⟩⟩
      · rw [hafter]
        exact { ih.1.later hnow with }
      · simp [issue, inApp, hhidden]
    · rw [heq] at hsome ⊢
      cases hsome
      have hmarked : Ledger (markSeen gate signal) grants held now := { ih.1 with }
      obtain ⟨hledger, hcharged⟩ := hmarked.charge hnow hhidden signal rfl
      exact ⟨hledger, ih.2.event hnew hcharged⟩
  | @refund gate log before e after held now _ ih =>
    exact ⟨ih.1.refund, ih.2.refund _ (ih.1.charged e (mem_append_right _ mem_cons_self))⟩
  | @refundInApp gate log grants held now e _ he hos ih =>
    rw [refundOs, ih.2.free e he hos]
    exact ih

/-- **The notification budget.** -/
theorem Reached.budget (h : Reached gate log grants held now) : Spaced grants ∧ Limited grants ∧
    Conserved gate log grants ∧ RowsOnce log ∧ ∀ e ∈ log, e.Overflows :=
  have ⟨hledger, hcounted⟩ := h.invariant
  ⟨hledger.spaced, hledger.limited, hcounted.conserved, hcounted.rows, hcounted.overflows⟩

def hiddenTab : NotifyGateContext := ⟨⟨true, true, true⟩, none, true, false, none, 0⟩

def mentioned : NotifySignal := ⟨.mention, ⟨"a", "a"⟩, 1, "b", 0⟩

def granted : Issued := issue [] hiddenTab ∅ (charge {} mentioned 0).2

/-- A refunded mention waits on the pile of its channel. -/
theorem pile_refunded :
    pile (refundOs (evaluate {} mentioned hiddenTab).1 granted.event) "a" = 1 := by
  have hrun : Reached (evaluate {} mentioned hiddenTab).1 [granted] ([] ++ granted :: []) ∅ 0 :=
    Reached.event .start (le_refl 0) rfl
  exact hrun.refund.budget.2.2.1 "a"

end RelayIde.Notify
