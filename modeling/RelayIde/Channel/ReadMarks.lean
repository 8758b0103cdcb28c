import Mathlib.Algebra.Order.Group.Int
import Mathlib.Logic.Function.Basic
import RelayIde.Library.Machine
import RelayIde.Library.Record

/-!
# Unread Markers of a Page

A page keeps, for every channel, the head it has seen and the marker up to which the operator
has read; the marker is mirrored to local storage, which outlives the page.  Markers are pushed
to the hub, whose answers, boot payloads and broadcasts are merged upwards; a clamp moves both
down to a head that restarted low and fences the payloads that are older than itself.

- `readMarks_of_run` — what a run does to the markers and heads
-/

namespace RelayIde.Channel.ReadMarks

open RelayIde.Library List Function

/-! ## The store -/

/-- A mark on its way to the hub. -/
structure Push where
  channelId : String
  lastReadSeq : ℤ
  issuedAt : ℕ

structure Marks where
  latestSeqByChannel : String → Option ℤ
  lastReadByChannel : String → Option ℤ
  clampedAtByChannel : String → Option ℕ
  activityRaisedAtByChannel : String → Option ℕ
  /-- The number that the text of a channel's entry in local storage reads as. -/
  persisted : String → Option ℤ

structure ChannelActivityState extends Marks where
  pendingReadStatePush : String → Option ℤ
  readStatePushTimers : String → Bool
  inFlight : List Push

def readPersistedLastRead (persisted : String → Option ℤ) (channelId : String) : ℤ :=
  match persisted channelId with
  | none => 0
  | some seq => if 0 < seq then seq else 0

def persistLastRead (persisted : String → Option ℤ) (channelId : String) (seq : ℤ) :
    String → Option ℤ :=
  update persisted channelId (some seq)

/-! ## Pushing marks -/

/-- Publishes what is armed for a channel and cancels its window. -/
def flushChannelReadState (s : ChannelActivityState) (channelId : String) (now : ℕ) :
    ChannelActivityState :=
  let s := { s with readStatePushTimers := update s.readStatePushTimers channelId false }
  match s.pendingReadStatePush channelId with
  | none => s
  | some seq =>
    { s with
      pendingReadStatePush := update s.pendingReadStatePush channelId none
      inFlight := s.inFlight ++ [⟨channelId, seq, now⟩] }

/-- A burst of marks is one request with the highest of them; a hidden page has no window. -/
def scheduleReadStatePush (s : ChannelActivityState) (channelId : String) (seq : ℤ)
    (hidden : Bool) (now : ℕ) : ChannelActivityState :=
  if ¬ 0 < seq then s
  else if (s.pendingReadStatePush channelId).any (seq ≤ ·) then s
  else
    let s := { s with
      pendingReadStatePush := update s.pendingReadStatePush channelId (some seq) }
    if hidden then flushChannelReadState s channelId now
    else { s with readStatePushTimers := update s.readStatePushTimers channelId true }

def discardReadStatePushAbove (s : ChannelActivityState) (channelId : String) (headSeq : ℤ) :
    ChannelActivityState :=
  match s.pendingReadStatePush channelId with
  | none => s
  | some pending =>
    if pending ≤ headSeq then s
    else { s with
      readStatePushTimers := update s.readStatePushTimers channelId false
      pendingReadStatePush := update s.pendingReadStatePush channelId none }

/-! ## The operations of the store -/

def recordActivity (m : Marks) (channelId : String) (latestSeq : ℤ) (now : ℕ) : Marks :=
  if (m.latestSeqByChannel channelId).any (latestSeq ≤ ·) then m
  else { m with
    latestSeqByChannel := update m.latestSeqByChannel channelId (some latestSeq)
    activityRaisedAtByChannel :=
      update m.activityRaisedAtByChannel channelId (some now) }

structure ListRow where
  id : String
  latestSeq : ℤ

/-- The rows that a seed applies: each is compared with the store before the seed. -/
def seededRows (m : Marks) (rows : List ListRow) (fetchedAt : ℕ) : List ListRow :=
  rows.filter fun row =>
    0 < row.latestSeq && !(m.clampedAtByChannel row.id).any (fetchedAt ≤ ·) &&
      !(m.latestSeqByChannel row.id).any (row.latestSeq ≤ ·)

def seedChannelActivity (m : Marks) (rows : List ListRow) (fetchedAt : ℕ) : Marks :=
  let seeded := seededRows m rows fetchedAt
  { m with
    latestSeqByChannel := extendRecord ListRow.id ListRow.latestSeq m.latestSeqByChannel seeded
    activityRaisedAtByChannel := extendRecord ListRow.id
      (fun row => max ((m.activityRaisedAtByChannel row.id).getD 0) fetchedAt)
      m.activityRaisedAtByChannel seeded }

/-- A mark writes local storage and the store, unless the store is there already. -/
def markStores (m : Marks) (channelId : String) (seq : ℤ) : Bool :=
  0 < seq && !(m.lastReadByChannel channelId).any (seq ≤ ·)

def writeMark (m : Marks) (channelId : String) (seq : ℤ) : Marks :=
  { m with
    persisted := persistLastRead m.persisted channelId seq
    lastReadByChannel := update m.lastReadByChannel channelId (some seq) }

def markChannelRead (s : ChannelActivityState) (channelId : String) (seq : ℤ) (hidden : Bool)
    (now : ℕ) : ChannelActivityState :=
  if markStores s.toMarks channelId seq then
    scheduleReadStatePush { s with toMarks := writeMark s.toMarks channelId seq }
      channelId seq hidden now
  else s

structure ReadStateRow where
  channelId : String
  lastReadSeq : Option ℤ

structure Merge where
  persisted : String → Option ℤ
  merged : String → Option ℤ
  hubIsBehind : List (String × ℤ)

/-- One row of a merge, against the store before it and local storage as it is. -/
def mergeRow (m : Marks) (fetchedAt : ℕ) (gathered : Merge) (row : ReadStateRow) : Merge :=
  let hub := row.lastReadSeq.getD 0
  if (m.clampedAtByChannel row.channelId).any (fetchedAt ≤ ·) then gathered
  else
    let localSeq := max ((m.lastReadByChannel row.channelId).getD 0)
      (readPersistedLastRead gathered.persisted row.channelId)
    if localSeq < hub then
      { gathered with
        persisted := persistLastRead gathered.persisted row.channelId hub
        merged := update gathered.merged row.channelId (some hub) }
    else if hub < localSeq then
      { gathered with hubIsBehind := gathered.hubIsBehind ++ [(row.channelId, localSeq)] }
    else gathered

def gather (m : Marks) (rows : List ReadStateRow) (fetchedAt : ℕ) : Merge :=
  rows.foldl (mergeRow m fetchedAt) ⟨m.persisted, fun _ => none, []⟩

def writeMerge (m : Marks) (gathered : Merge) : Marks :=
  { m with
    persisted := gathered.persisted
    lastReadByChannel := fun c => (gathered.merged c).or (m.lastReadByChannel c) }

def mergeReadState (s : ChannelActivityState) (rows : List ReadStateRow) (fetchedAt : ℕ)
    (hidden : Bool) (now : ℕ) : ChannelActivityState :=
  let gathered := gather s.toMarks rows fetchedAt
  gathered.hubIsBehind.foldl (fun s behind => scheduleReadStatePush s behind.1 behind.2 hidden now)
    { s with toMarks := writeMerge s.toMarks gathered }

/-- The clamp finds a marker above the head. -/
def lowersRead (m : Marks) (channelId : String) (headSeq : ℤ) : Bool :=
  (m.lastReadByChannel channelId).any (headSeq < ·) ||
    headSeq < readPersistedLastRead m.persisted channelId

/-- The clamp finds a head above its own that the page has not raised since. -/
def lowersHead (m : Marks) (channelId : String) (headSeq : ℤ) (observedAt : Option ℕ) : Bool :=
  let headIsStale := observedAt.any fun observedAt =>
    (m.activityRaisedAtByChannel channelId).any (observedAt ≤ ·)
  !headIsStale && (m.latestSeqByChannel channelId).any (headSeq < ·)

def writeClamp (m : Marks) (channelId : String) (headSeq : ℤ) (observedAt : Option ℕ)
    (now : ℕ) : Marks :=
  let read := lowersRead m channelId headSeq
  let head := lowersHead m channelId headSeq observedAt
  if !read && !head then m
  else { m with
    persisted := if read then persistLastRead m.persisted channelId headSeq else m.persisted
    lastReadByChannel :=
      if read then update m.lastReadByChannel channelId (some headSeq)
      else m.lastReadByChannel
    latestSeqByChannel :=
      if head then update m.latestSeqByChannel channelId (some headSeq)
      else m.latestSeqByChannel
    clampedAtByChannel := update m.clampedAtByChannel channelId (some now) }

def clampChannelStores (s : ChannelActivityState) (channelId : String) (headSeq : ℤ)
    (observedAt : Option ℕ) (now : ℕ) : ChannelActivityState :=
  let s := discardReadStatePushAbove s channelId headSeq
  { s with toMarks := writeClamp s.toMarks channelId headSeq observedAt now }

/-! ## A page and its clamps -/

inductive PageOp where
  | recordActivity (channelId : String) (latestSeq : ℤ)
  | seedChannelActivity (rows : List ListRow) (fetchedAt : ℕ)
  | markChannelRead (channelId : String) (seq : ℤ) (hidden : Bool)
  | mergeReadState (rows : List ReadStateRow) (fetchedAt : ℕ) (hidden : Bool)
  | clampChannelStores (channelId : String) (headSeq : ℤ) (observedAt : Option ℕ)
  /-- The window of a channel's push is over. -/
  | pushDue (channelId : String)
  /-- The page is hidden or left. -/
  | pageHidden (channelIds : List String)
  /-- The hub answers the push at `index`, or its request failed. -/
  | answered (index : ℕ) (lastReadSeq : Option ℤ) (hidden : Bool)
  /-- A new page, with the local storage of the old one. -/
  | reload

/-- An operation and the wall-clock time at which it happens. -/
structure Event where
  now : ℕ
  op : PageOp

def emptyMarks (persisted : String → Option ℤ) : Marks where
  latestSeqByChannel := fun _ => none
  lastReadByChannel := fun _ => none
  clampedAtByChannel := fun _ => none
  activityRaisedAtByChannel := fun _ => none
  persisted := persisted

/-- A page that has just been loaded. -/
def loaded (persisted : String → Option ℤ) : ChannelActivityState where
  toMarks := emptyMarks persisted
  pendingReadStatePush := fun _ => none
  readStatePushTimers := fun _ => false
  inFlight := []

/-- An answer below what was pushed is the head of the channel; any other is merged. -/
def publishReadState (s : ChannelActivityState) (push : Push) (lastReadSeq : ℤ) (hidden : Bool)
    (now : ℕ) : ChannelActivityState :=
  if lastReadSeq < push.lastReadSeq then
    clampChannelStores s push.channelId lastReadSeq (some push.issuedAt) now
  else mergeReadState s [⟨push.channelId, some lastReadSeq⟩] push.issuedAt hidden now

/-- What an event comes down to: an operation of the store, or nothing that the markers see. -/
inductive Effect where
  | activity (channelId : String) (latestSeq : ℤ)
  | seed (rows : List ListRow) (fetchedAt : ℕ)
  | mark (channelId : String) (seq : ℤ)
  | merge (rows : List ReadStateRow) (fetchedAt : ℕ)
  | clamp (channelId : String) (headSeq : ℤ) (observedAt : Option ℕ)
  | reload
  | none

/-- What the effect makes of the store and local storage. -/
def Effect.apply (m : Marks) (now : ℕ) : Effect → Marks
  | .activity channelId latestSeq => recordActivity m channelId latestSeq now
  | .seed rows fetchedAt => seedChannelActivity m rows fetchedAt
  | .mark channelId seq => if markStores m channelId seq then writeMark m channelId seq else m
  | .merge rows fetchedAt => writeMerge m (gather m rows fetchedAt)
  | .clamp channelId headSeq observedAt => writeClamp m channelId headSeq observedAt now
  | .reload => emptyMarks m.persisted
  | .none => m

def effect (s : ChannelActivityState) : PageOp → Effect
  | .recordActivity channelId latestSeq => .activity channelId latestSeq
  | .seedChannelActivity rows fetchedAt => .seed rows fetchedAt
  | .markChannelRead channelId seq _ => .mark channelId seq
  | .mergeReadState rows fetchedAt _ => .merge rows fetchedAt
  | .clampChannelStores channelId headSeq observedAt => .clamp channelId headSeq observedAt
  | .pushDue _ | .pageHidden _ => .none
  | .answered index lastReadSeq _ =>
    match s.inFlight[index]?, lastReadSeq with
    | some push, some seq =>
      if seq < push.lastReadSeq then .clamp push.channelId seq (some push.issuedAt)
      else .merge [⟨push.channelId, some seq⟩] push.issuedAt
    | _, _ => .none
  | .reload => .reload

def pageStep (s : ChannelActivityState) (event : Event) : ChannelActivityState :=
  let now := event.now
  match event.op with
  | .recordActivity channelId latestSeq =>
    { s with toMarks := recordActivity s.toMarks channelId latestSeq now }
  | .seedChannelActivity rows fetchedAt =>
    { s with toMarks := seedChannelActivity s.toMarks rows fetchedAt }
  | .markChannelRead channelId seq hidden => markChannelRead s channelId seq hidden now
  | .mergeReadState rows fetchedAt hidden => mergeReadState s rows fetchedAt hidden now
  | .clampChannelStores channelId headSeq observedAt =>
    clampChannelStores s channelId headSeq observedAt now
  | .pushDue channelId =>
    if s.readStatePushTimers channelId then flushChannelReadState s channelId now else s
  | .pageHidden channelIds => channelIds.foldl (flushChannelReadState · · now) s
  | .answered index lastReadSeq hidden =>
    match s.inFlight[index]? with
    | none => s
    | some push =>
      let s := { s with inFlight := s.inFlight.eraseIdx index }
      match lastReadSeq with
      | none => s
      | some seq => publishReadState s push seq hidden now
  | .reload => loaded s.persisted

section frame

variable (s : ChannelActivityState) (channelId : String) (now : ℕ)

@[simp] theorem flushChannelReadState_toMarks :
    (flushChannelReadState s channelId now).toMarks = s.toMarks := by
  simp only [flushChannelReadState]
  split <;> rfl

@[simp] theorem scheduleReadStatePush_toMarks (seq : ℤ) (hidden : Bool) :
    (scheduleReadStatePush s channelId seq hidden now).toMarks = s.toMarks := by
  simp only [scheduleReadStatePush]
  split
  · rfl
  · split
    · rfl
    · split
      · exact flushChannelReadState_toMarks _ _ _
      · rfl

@[simp] theorem discardReadStatePushAbove_toMarks (headSeq : ℤ) :
    (discardReadStatePushAbove s channelId headSeq).toMarks = s.toMarks := by
  simp only [discardReadStatePushAbove]
  split
  · rfl
  · split <;> rfl

@[simp] theorem mergeReadState_toMarks (rows : List ReadStateRow) (fetchedAt : ℕ) (hidden : Bool) :
    (mergeReadState s rows fetchedAt hidden now).toMarks =
      writeMerge s.toMarks (gather s.toMarks rows fetchedAt) := by
  have hfold : ∀ (behind : List (String × ℤ)) (s : ChannelActivityState),
      (behind.foldl (fun s b => scheduleReadStatePush s b.1 b.2 hidden now) s).toMarks =
        s.toMarks := by
    intro behind
    induction behind with
    | nil => exact fun _ => rfl
    | cons b rest ih =>
      intro s
      rw [foldl_cons, ih]
      exact scheduleReadStatePush_toMarks _ _ _ _ _
  simp only [mergeReadState, hfold]

@[simp] theorem clampChannelStores_toMarks (headSeq : ℤ) (observedAt : Option ℕ) :
    (clampChannelStores s channelId headSeq observedAt now).toMarks =
      writeClamp s.toMarks channelId headSeq observedAt now := by
  simp [clampChannelStores]

theorem pageStep_toMarks (event : Event) :
    (pageStep s event).toMarks = (effect s event.op).apply s.toMarks event.now := by
  obtain ⟨now, op⟩ := event
  cases op with
  | recordActivity channelId latestSeq | seedChannelActivity rows fetchedAt | reload => rfl
  | markChannelRead channelId seq hidden =>
    simp only [pageStep, markChannelRead, effect, Effect.apply]
    split
    · exact scheduleReadStatePush_toMarks _ _ _ _ _
    · rfl
  | mergeReadState rows fetchedAt hidden => exact mergeReadState_toMarks _ _ _ _ _
  | clampChannelStores channelId headSeq observedAt => exact clampChannelStores_toMarks _ _ _ _ _
  | pushDue channelId =>
    simp only [pageStep]
    split
    · exact flushChannelReadState_toMarks _ _ _
    · rfl
  | pageHidden channelIds =>
    simp only [pageStep]
    induction channelIds generalizing s with
    | nil => rfl
    | cons c rest ih =>
      rw [foldl_cons, ih]
      exact flushChannelReadState_toMarks _ _ _
  | answered index lastReadSeq hidden =>
    simp only [pageStep, effect]
    cases s.inFlight[index]? with
    | none => rfl
    | some push =>
      cases lastReadSeq with
      | none => rfl
      | some seq =>
        simp only [publishReadState]
        split
        · exact clampChannelStores_toMarks _ _ _ _ _
        · exact mergeReadState_toMarks _ _ _ _ _

end frame

/-! ## Markers and clamps -/

/-- The marker that answers whether a channel is unread. -/
def marker (m : Marks) (channelId : String) : ℤ :=
  (m.lastReadByChannel channelId).getD (readPersistedLastRead m.persisted channelId)

/-- A clamp of the page, and whether it found something to lower since the page was loaded. -/
structure Clamp where
  channelId : String
  headSeq : ℤ
  time : ℕ
  found : Bool
  deriving DecidableEq

structure Observed where
  page : ChannelActivityState
  clamps : List Clamp
  now : ℕ

def Observed.step (o : Observed) (event : Event) : Observed where
  page := pageStep o.page event
  clamps := match effect o.page event.op with
    | .clamp channelId headSeq observedAt =>
      o.clamps ++ [⟨channelId, headSeq, event.now, lowersRead o.page.toMarks channelId headSeq ||
        lowersHead o.page.toMarks channelId headSeq observedAt⟩]
    | .reload => o.clamps.map fun clamp => { clamp with found := false }
    | _ => o.clamps
  now := event.now

def Observed.start (persisted : String → Option ℤ) : Observed := ⟨loaded persisted, [], 0⟩

/-- Times do not decrease. -/
def Timely (o : Observed) (event : Event) : Prop :=
  o.now ≤ event.now

/-- No payload that is as old as a clamp which found nothing to lower, or which an earlier page
    made, tells of more than its head. -/
def ToldBelow (clamps : List Clamp) (channelId : String) (seq : ℤ) (fetchedAt : ℕ) : Prop :=
  ∀ clamp ∈ clamps, clamp.found = false → clamp.channelId = channelId →
    fetchedAt ≤ clamp.time → seq ≤ clamp.headSeq

/-- A first mark of a page is not below the marker in local storage, and payloads tell of no
    more than the unfenced clamps allow. -/
def Safe (o : Observed) (event : Event) : Prop :=
  match effect o.page event.op with
  | .mark channelId seq => 0 < seq → o.page.lastReadByChannel channelId = none →
      readPersistedLastRead o.page.persisted channelId ≤ seq
  | .seed rows fetchedAt => ∀ row ∈ rows, ToldBelow o.clamps row.id row.latestSeq fetchedAt
  | .merge rows fetchedAt => ∀ row ∈ rows,
      ToldBelow o.clamps row.channelId (row.lastReadSeq.getD 0) fetchedAt
  | _ => True

/-- The markers of a channel do not fall. -/
def Rises (before after : Marks) (channelId : String) : Prop :=
  marker before channelId ≤ marker after channelId ∧
    readPersistedLastRead before.persisted channelId ≤
      readPersistedLastRead after.persisted channelId

/-- Neither the head nor a marker of a clamped channel is raised above the head of the clamp. -/
def StaysClamped (before after : Marks) (clamp : Clamp) : Prop :=
  (∀ seq, after.latestSeqByChannel clamp.channelId = some seq →
      before.latestSeqByChannel clamp.channelId = some seq ∨ seq ≤ clamp.headSeq) ∧
    (marker after clamp.channelId = marker before clamp.channelId ∨
      marker after clamp.channelId ≤ clamp.headSeq) ∧
    (readPersistedLastRead after.persisted clamp.channelId =
        readPersistedLastRead before.persisted clamp.channelId ∨
      readPersistedLastRead after.persisted clamp.channelId ≤ clamp.headSeq)

/-- What a step is to do: only a clamp lowers the markers of its channel, and no payload as old
    as a clamp raises anything above its head. -/
def KeepsRead (o : Observed) (event : Event) : Prop :=
  let before := o.page.toMarks
  let after := (o.step event).page.toMarks
  match effect o.page event.op with
  | .clamp channelId _ _ => ∀ c, c ≠ channelId → Rises before after c
  | .seed _ fetchedAt | .merge _ fetchedAt =>
    (∀ c, Rises before after c) ∧
      ∀ clamp ∈ o.clamps, fetchedAt ≤ clamp.time → StaysClamped before after clamp
  | _ => ∀ c, Rises before after c

/-! ## One step -/

/-- A marker of the store is the one in local storage. -/
def Mirrored (m : Marks) : Prop :=
  ∀ c seq, m.lastReadByChannel c = some seq → m.persisted c = some seq

variable {c : String} {seq : ℤ} {fetchedAt : ℕ}

section steps

variable {m : Marks} {now : ℕ}

theorem readPersistedLastRead_of_eq {persisted : String → Option ℤ}
    (h : persisted c = some seq) : readPersistedLastRead persisted c = max seq 0 := by
  rw [readPersistedLastRead, h]
  dsimp only
  split <;> omega

section
variable (persisted : String → Option ℤ)
include persisted

theorem readPersistedLastRead_nonneg (c : String) : 0 ≤ readPersistedLastRead persisted c := by
  rw [readPersistedLastRead]
  cases persisted c with
  | none => exact le_rfl
  | some seq => dsimp only; split <;> omega

@[simp] theorem persistLastRead_self (c : String) (seq : ℤ) :
    persistLastRead persisted c seq c = some seq :=
  update_self ..

theorem persistLastRead_of_ne {c' : String} (seq : ℤ)
    (h : c ≠ c') : persistLastRead persisted c' seq c = persisted c :=
  update_of_ne h ..

end

theorem Mirrored.marker_le (h : Mirrored m) (c : String) :
    marker m c ≤ readPersistedLastRead m.persisted c := by
  rw [marker]
  cases hread : m.lastReadByChannel c with
  | none => exact le_rfl
  | some seq =>
    rw [readPersistedLastRead_of_eq (h c seq hread)]
    exact le_max_left seq 0

theorem rises_refl (m : Marks) (c : String) : Rises m m c := ⟨le_rfl, le_rfl⟩

theorem marker_congr {m m' : Marks} (hread : m'.lastReadByChannel c = m.lastReadByChannel c)
    (hpersisted : m'.persisted c = m.persisted c) :
    marker m' c = marker m c ∧
      readPersistedLastRead m'.persisted c = readPersistedLastRead m.persisted c := by
  have hstored : readPersistedLastRead m'.persisted c = readPersistedLastRead m.persisted c := by
    rw [readPersistedLastRead, readPersistedLastRead, hpersisted]
  exact ⟨by rw [marker, marker, hread, hstored], hstored⟩

theorem rises_congr {m m' : Marks} (hread : m'.lastReadByChannel c = m.lastReadByChannel c)
    (hpersisted : m'.persisted c = m.persisted c) : Rises m m' c := by
  obtain ⟨hmarker, hstored⟩ := marker_congr hread hpersisted
  exact ⟨hmarker.ge, hstored.ge⟩

/-- Both markers of a channel are at `seq`. -/
structure MarkedAt (m : Marks) (c : String) (seq : ℤ) : Prop where
  read : m.lastReadByChannel c = some seq
  stored : m.persisted c = some seq

theorem MarkedAt.marker_eq (h : MarkedAt m c seq) : marker m c = seq := by
  rw [marker, h.read, Option.getD_some]

theorem recordActivity_marks (m : Marks) (channelId : String) (latestSeq : ℤ) (now : ℕ) :
    (recordActivity m channelId latestSeq now).lastReadByChannel = m.lastReadByChannel ∧
      (recordActivity m channelId latestSeq now).persisted = m.persisted ∧
      (recordActivity m channelId latestSeq now).clampedAtByChannel = m.clampedAtByChannel := by
  rw [recordActivity]
  split <;> exact ⟨rfl, rfl, rfl⟩

/-! ### Marks -/

theorem writeMark_markedAt (m : Marks) (channelId : String) (seq : ℤ) :
    MarkedAt (writeMark m channelId seq) channelId seq :=
  ⟨update_self .., update_self ..⟩

theorem Mirrored.writeMark (h : Mirrored m) (channelId : String) (seq : ℤ) :
    Mirrored (writeMark m channelId seq) := by
  intro c seq' hread
  by_cases hc : c = channelId
  · subst hc
    rw [(writeMark_markedAt m c seq).read] at hread
    rw [(writeMark_markedAt m c seq).stored, hread]
  · simp only [ReadMarks.writeMark, update_of_ne hc] at hread
    simp only [ReadMarks.writeMark, persistLastRead_of_ne _ _ hc]
    exact h c seq' hread

/-- A mark is above the marker of the store; without one it has to be above local storage. -/
theorem writeMark_rises (h : Mirrored m) {channelId : String}
    (hstores : markStores m channelId seq = true)
    (hsafe : 0 < seq → m.lastReadByChannel channelId = none →
      readPersistedLastRead m.persisted channelId ≤ seq) (c : String) :
    Rises m (writeMark m channelId seq) c := by
  simp only [markStores, Bool.and_eq_true, decide_eq_true_eq, Bool.not_eq_true'] at hstores
  obtain ⟨hpos, hread⟩ := hstores
  by_cases hc : c = channelId
  · subst hc
    have hat := writeMark_markedAt m c seq
    have hstored : readPersistedLastRead m.persisted c ≤ seq := by
      cases hcurrent : m.lastReadByChannel c with
      | none => exact hsafe hpos hcurrent
      | some current =>
        rw [hcurrent, Option.any_some, decide_eq_false_iff_not] at hread
        rw [readPersistedLastRead_of_eq (h c current hcurrent)]
        omega
    refine ⟨?_, ?_⟩
    · rw [hat.marker_eq]
      exact (h.marker_le c).trans hstored
    · rw [readPersistedLastRead_of_eq hat.stored]
      omega
  · exact rises_congr (update_of_ne hc ..) (update_of_ne hc ..)

/-! ### Merges -/

structure Gathers (m : Marks) (fetchedAt : ℕ) (rows : List ReadStateRow) (g : Merge) : Prop where
  untouched : ∀ c, g.merged c = none → g.persisted c = m.persisted c
  raised : ∀ c seq, g.merged c = some seq → g.persisted c = some seq ∧
    max ((m.lastReadByChannel c).getD 0) (readPersistedLastRead m.persisted c) < seq ∧
    (m.clampedAtByChannel c).any (fetchedAt ≤ ·) = false ∧
    ∃ row ∈ rows, row.channelId = c ∧ row.lastReadSeq.getD 0 = seq

theorem gathers_mergeRow {rows : List ReadStateRow} {g : Merge}
    (h : Gathers m fetchedAt rows g) {row : ReadStateRow} (hrow : row ∈ rows) :
    Gathers m fetchedAt rows (mergeRow m fetchedAt g row) := by
  rw [mergeRow]
  dsimp only
  split
  · exact h
  rename_i hopen
  split
  · -- the hub is ahead
    rename_i hahead
    refine ⟨fun c hc => ?_, fun c seq hc => ?_⟩
    · by_cases hcr : c = row.channelId
      · subst hcr
        simp only [update_self] at hc
        cases hc
      · simp only [update_of_ne hcr] at hc
        simp only [persistLastRead_of_ne _ _ hcr]
        exact h.untouched c hc
    · by_cases hcr : c = row.channelId
      · subst hcr
        simp only [update_self, Option.some.injEq] at hc
        subst hc
        refine ⟨persistLastRead_self _ _ _, ?_, by simpa using hopen, row, hrow, rfl, rfl⟩
        -- an earlier row of the payload may have raised local storage already
        have hgrown : readPersistedLastRead m.persisted row.channelId ≤
            readPersistedLastRead g.persisted row.channelId := by
          cases hmerged : g.merged row.channelId with
          | none => rw [readPersistedLastRead, readPersistedLastRead, h.untouched _ hmerged]
          | some seq =>
            obtain ⟨hstored, hlt, -, -⟩ := h.raised _ _ hmerged
            rw [readPersistedLastRead_of_eq hstored]
            omega
        omega
      · simp only [update_of_ne hcr] at hc
        simp only [persistLastRead_of_ne _ _ hcr]
        exact h.raised c seq hc
  · split
    · exact ⟨h.untouched, h.raised⟩
    · exact h

section
variable (m : Marks) (rows : List ReadStateRow) (fetchedAt : ℕ)

theorem gathers_gather : Gathers m fetchedAt rows (gather m rows fetchedAt) := by
  have hfold : ∀ (rest : List ReadStateRow) (g : Merge), (∀ row ∈ rest, row ∈ rows) →
      Gathers m fetchedAt rows g →
        Gathers m fetchedAt rows (rest.foldl (mergeRow m fetchedAt) g) := by
    intro rest
    induction rest with
    | nil => exact fun _ _ h => h
    | cons row rest ih =>
      intro g hrest h
      apply ih _ fun r hr => hrest r (mem_cons_of_mem _ hr)
      exact gathers_mergeRow h (hrest row mem_cons_self)
  apply hfold rows _ fun _ h => h
  exact ⟨fun _ _ => rfl, fun _ _ h => by cases h⟩

theorem writeMerge_cases (c : String) :
    let m' := writeMerge m (gather m rows fetchedAt)
    (m'.lastReadByChannel c = m.lastReadByChannel c ∧ m'.persisted c = m.persisted c) ∨
      ∃ seq, MarkedAt m' c seq ∧
        max ((m.lastReadByChannel c).getD 0) (readPersistedLastRead m.persisted c) < seq ∧
        (m.clampedAtByChannel c).any (fetchedAt ≤ ·) = false ∧
        ∃ row ∈ rows, row.channelId = c ∧ row.lastReadSeq.getD 0 = seq := by
  have hgathers := gathers_gather m rows fetchedAt
  dsimp only [writeMerge]
  cases hmerged : (gather m rows fetchedAt).merged c with
  | none => exact .inl ⟨by rw [Option.none_or], hgathers.untouched c hmerged⟩
  | some seq =>
    obtain ⟨hstored, hlt, hopen, hrow⟩ := hgathers.raised c seq hmerged
    exact .inr ⟨seq, ⟨by simp [hmerged], hstored⟩, hlt, hopen, hrow⟩

end

theorem Mirrored.writeMerge (h : Mirrored m) (rows : List ReadStateRow) (fetchedAt : ℕ) :
    Mirrored (writeMerge m (gather m rows fetchedAt)) := by
  intro c seq hread
  rcases writeMerge_cases m rows fetchedAt c with ⟨hsame, hstored⟩ | ⟨seq', hat, -⟩
  · rw [hstored]
    rw [hsame] at hread
    exact h c seq hread
  · rw [hat.read] at hread
    rw [hat.stored, hread]

theorem writeMerge_rises (m : Marks) (rows : List ReadStateRow) (fetchedAt : ℕ) (c : String) :
    Rises m (writeMerge m (gather m rows fetchedAt)) c := by
  rcases writeMerge_cases m rows fetchedAt c with ⟨hread, hstored⟩ | ⟨seq, hat, hlt, -⟩
  · exact rises_congr hread hstored
  · refine ⟨?_, ?_⟩
    · rw [hat.marker_eq, marker]
      cases hread : m.lastReadByChannel c with
      | none => rw [Option.getD_none]; omega
      | some current =>
        rw [hread, Option.getD_some] at hlt
        rw [Option.getD_some]
        omega
    · rw [readPersistedLastRead_of_eq hat.stored]
      omega

/-! ### Clamps -/

theorem Mirrored.writeClamp (h : Mirrored m) (channelId : String) (headSeq : ℤ)
    (observedAt : Option ℕ) : Mirrored (writeClamp m channelId headSeq observedAt now) := by
  rw [ReadMarks.writeClamp]
  split
  · exact h
  intro c seq hread
  by_cases hlowers : lowersRead m channelId headSeq = true
  · simp only [if_pos hlowers] at hread ⊢
    exact h.writeMark channelId headSeq c seq hread
  · simp only [if_neg hlowers] at hread ⊢
    exact h c seq hread

theorem writeClamp_rises (m : Marks) {channelId : String} (headSeq : ℤ)
    (observedAt : Option ℕ) (hc : c ≠ channelId) :
    Rises m (writeClamp m channelId headSeq observedAt now) c := by
  rw [ReadMarks.writeClamp]
  split
  · exact rises_refl m c
  apply rises_congr
  · dsimp only
    split
    · exact update_of_ne hc ..
    · rfl
  · dsimp only
    split
    · exact update_of_ne hc ..
    · rfl

end steps

/-! ## Runs -/

/-- What holds of a page and its clamps whatever happens. -/
structure ReadInv (o : Observed) : Prop where
  mirrored : Mirrored o.page.toMarks
  past : ∀ clamp ∈ o.clamps, clamp.time ≤ o.now
  /-- A clamp that found something to lower has stamped its channel. -/
  fenced : ∀ clamp ∈ o.clamps, clamp.found = true →
    ∃ t, o.page.clampedAtByChannel clamp.channelId = some t ∧ clamp.time ≤ t

theorem readInv_start (persisted : String → Option ℤ) : ReadInv (.start persisted) where
  mirrored := fun _ _ h => by cases h
  past := fun _ h => (not_mem_nil h).elim
  fenced := fun _ h => (not_mem_nil h).elim

section runs

variable {o : Observed} {event : Event}

theorem Observed.step_marks (o : Observed) (event : Event) :
    (o.step event).page.toMarks = (effect o.page event.op).apply o.page.toMarks event.now :=
  pageStep_toMarks o.page event

/-- A payload as old as a clamp tells of no more than its head, or is fenced out. -/
theorem ReadInv.told (h : ReadInv o) {clamp : Clamp} (hclamp : clamp ∈ o.clamps)
    (hold : fetchedAt ≤ clamp.time)
    (htold : ToldBelow o.clamps clamp.channelId seq fetchedAt)
    (hopen : (o.page.clampedAtByChannel clamp.channelId).any (fetchedAt ≤ ·) = false) :
    seq ≤ clamp.headSeq := by
  cases hfound : clamp.found with
  | false => exact htold clamp hclamp hfound rfl hold
  | true =>
    obtain ⟨t, hstamp, hle⟩ := h.fenced clamp hclamp hfound
    rw [hstamp, Option.any_some, decide_eq_false_iff_not] at hopen
    omega

theorem ReadInv.step (h : ReadInv o) (htimely : Timely o event) : ReadInv (o.step event) := by
  have hmarks := o.step_marks event
  have hpast : ∀ clamp ∈ o.clamps, clamp.time ≤ event.now := fun clamp hclamp =>
    (h.past clamp hclamp).trans htimely
  cases heffect : effect o.page event.op with
  | clamp channelId headSeq observedAt =>
    rw [heffect, Effect.apply] at hmarks
    have hclamps : (o.step event).clamps = o.clamps ++ [⟨channelId, headSeq, event.now,
        lowersRead o.page.toMarks channelId headSeq ||
          lowersHead o.page.toMarks channelId headSeq observedAt⟩] := by
      simp only [Observed.step, heffect]
    refine ⟨?_, ?_, ?_⟩
    · rw [hmarks]
      exact h.mirrored.writeClamp channelId headSeq observedAt
    · rw [hclamps]
      intro clamp hclamp
      rcases mem_append.mp hclamp with hold | hnew
      · exact hpast clamp hold
      · obtain rfl := mem_singleton.mp hnew
        exact le_rfl
    · -- the stamp of the channel is the time of this clamp, if it lowers anything
      rw [hclamps]
      intro clamp hclamp hfound
      rw [hmarks, writeClamp]
      split
      · rename_i hnothing
        rcases mem_append.mp hclamp with hold | hnew
        · exact h.fenced clamp hold hfound
        · simp_all
      · by_cases hc : clamp.channelId = channelId
        · refine ⟨event.now, by simp [hc], ?_⟩
          rcases mem_append.mp hclamp with hold | hnew
          · exact hpast clamp hold
          · obtain rfl := mem_singleton.mp hnew
            exact le_rfl
        · rcases mem_append.mp hclamp with hold | hnew
          · obtain ⟨t, hstamp, hle⟩ := h.fenced clamp hold hfound
            exact ⟨t, by simpa [update_of_ne hc] using hstamp, hle⟩
          · obtain rfl := mem_singleton.mp hnew
            exact absurd rfl hc
  | reload =>
    rw [heffect] at hmarks
    have hclamps : (o.step event).clamps =
        o.clamps.map fun clamp => { clamp with found := false } := by
      simp only [Observed.step, heffect]
    refine ⟨?_, ?_, ?_⟩
    · rw [hmarks]
      exact fun _ _ hread => by cases hread
    · rw [hclamps]
      intro clamp hclamp
      obtain ⟨old, hold, rfl⟩ := mem_map.mp hclamp
      exact hpast old hold
    · rw [hclamps]
      intro clamp hclamp hfound
      obtain ⟨old, -, rfl⟩ := mem_map.mp hclamp
      cases hfound
  | activity channelId latestSeq =>
    rw [heffect, Effect.apply] at hmarks
    obtain ⟨hread, hstored, hstamps⟩ :=
      recordActivity_marks o.page.toMarks channelId latestSeq event.now
    have hclamps : (o.step event).clamps = o.clamps := by simp only [Observed.step, heffect]
    rw [← hmarks] at hread hstored hstamps
    refine ⟨?_, hclamps ▸ hpast, ?_⟩
    · intro c seq hc
      rw [hread] at hc
      rw [hstored]
      exact h.mirrored c seq hc
    · rw [hclamps, hstamps]
      exact h.fenced
  | seed rows fetchedAt | none =>
    rw [heffect] at hmarks
    have hclamps : (o.step event).clamps = o.clamps := by simp only [Observed.step, heffect]
    exact ⟨hmarks ▸ h.mirrored, hclamps ▸ hpast, by rw [hclamps, hmarks]; exact h.fenced⟩
  | mark channelId seq =>
    rw [heffect, Effect.apply] at hmarks
    have hclamps : (o.step event).clamps = o.clamps := by simp only [Observed.step, heffect]
    split at hmarks
    · exact ⟨hmarks ▸ h.mirrored.writeMark channelId seq, hclamps ▸ hpast,
        by rw [hclamps, hmarks]; exact h.fenced⟩
    · exact ⟨hmarks ▸ h.mirrored, hclamps ▸ hpast, by rw [hclamps, hmarks]; exact h.fenced⟩
  | merge rows fetchedAt =>
    rw [heffect] at hmarks
    have hclamps : (o.step event).clamps = o.clamps := by simp only [Observed.step, heffect]
    exact ⟨hmarks ▸ h.mirrored.writeMerge rows fetchedAt, hclamps ▸ hpast,
      by rw [hclamps, hmarks]; exact h.fenced⟩

/-- **One step** keeps what has been read, if it is safe. -/
theorem ReadInv.keepsRead (h : ReadInv o) (hsafe : Safe o event) : KeepsRead o event := by
  have hmarks := o.step_marks event
  rw [KeepsRead]
  rw [Safe] at hsafe
  rw [hmarks]
  cases heffect : effect o.page event.op with
  | clamp channelId headSeq observedAt => exact fun c hc => writeClamp_rises _ _ _ hc
  | reload => exact fun c => ⟨h.mirrored.marker_le c, le_rfl⟩
  | none => exact fun c => rises_refl _ c
  | activity channelId latestSeq =>
    intro c
    obtain ⟨hread, hstored, -⟩ :=
      recordActivity_marks o.page.toMarks channelId latestSeq event.now
    exact rises_congr (congrFun hread c) (congrFun hstored c)
  | mark channelId seq =>
    intro c
    rw [heffect] at hsafe
    rw [Effect.apply]
    split
    · rename_i hstores
      exact writeMark_rises h.mirrored hstores hsafe c
    · exact rises_refl _ c
  | seed rows fetchedAt =>
    rw [heffect] at hsafe
    refine ⟨fun c => rises_congr rfl rfl, fun clamp hclamp hold => ⟨?_, .inl rfl, .inl rfl⟩⟩
    intro seq hseq
    rcases extendRecord_cases hseq with hbefore | ⟨row, hrow, hid, rfl⟩
    · exact .inl hbefore
    · right
      obtain ⟨hmem, happlied⟩ := mem_filter.mp hrow
      simp only [Bool.and_eq_true, Bool.not_eq_true'] at happlied
      apply h.told hclamp hold
      · exact hid ▸ hsafe row hmem
      · exact hid ▸ happlied.1.2
  | merge rows fetchedAt =>
    rw [heffect] at hsafe
    refine ⟨fun c => writeMerge_rises _ _ _ c, fun clamp hclamp hold => ⟨fun _ => .inl, ?_⟩⟩
    rcases writeMerge_cases o.page.toMarks rows fetchedAt clamp.channelId with
      ⟨hread, hstored⟩ | ⟨seq, hat, hlt, hopen, row, hrow, hid, rfl⟩
    · obtain ⟨hmarker, hpersisted⟩ := marker_congr hread hstored
      exact ⟨.inl hmarker, .inl hpersisted⟩
    · have hle : row.lastReadSeq.getD 0 ≤ clamp.headSeq :=
        h.told hclamp hold (hid ▸ hsafe row hrow) hopen
      have hpos := readPersistedLastRead_nonneg o.page.persisted clamp.channelId
      refine ⟨.inr (hat.marker_eq.trans_le hle), .inr ?_⟩
      rw [Effect.apply, readPersistedLastRead_of_eq hat.stored]
      omega

/-- **Runs**: in a run at nondecreasing times whose first marks are not below local storage and
    whose payloads tell of no more than the unfenced clamps allow, every step keeps what has been
    read. -/
theorem readMarks_of_run (persisted : String → Option ℤ) {events : List Event}
    (htimely : Guarded Observed.step Timely (.start persisted) events)
    (hsafe : Guarded Observed.step Safe (.start persisted) events) :
    ∀ pre event, pre ++ [event] <+: events →
      KeepsRead (exec Observed.step (.start persisted) pre) event := by
  intro pre event hpre
  have htimely' := htimely.of_prefix hpre
  have hsafe' := hsafe.of_prefix hpre
  rw [guarded_append] at htimely' hsafe'
  have hstep : ∀ s a, ReadInv s → Timely s a → ReadInv (s.step a) := fun _ _ hinv => hinv.step
  have hinv := exec_invariant_of_guarded hstep (readInv_start persisted) htimely'.1
  exact hinv.keepsRead hsafe'.2.1

end runs

def storedMarker (channelId : String) (seq : ℤ) : String → Option ℤ :=
  update (fun _ => none) channelId (some seq)

/-- The page is loaded with a marker at 9, and the operator leaves the channel at 3. -/
def markBelowStorage : List Event :=
  [⟨1, .markChannelRead "dm" 3 false⟩]

/-- A clamp to 2 finds nothing to lower, and then the list that was fetched before it arrives. -/
def listAfterEmptyClamp : List Event :=
  [⟨5, .clampChannelStores "dm" 2 none⟩, ⟨6, .seedChannelActivity [⟨"dm", 9⟩] 4⟩]

/-- The first mark of a page lowers both markers, and a list as old as a clamp that found nothing
    to lower raises the head above it. -/
theorem unread_again_after_reload :
    (¬ ∀ pre event, pre ++ [event] <+: markBelowStorage →
      KeepsRead (exec Observed.step (.start (storedMarker "dm" 9)) pre) event) ∧
    ¬ ∀ pre event, pre ++ [event] <+: listAfterEmptyClamp →
      KeepsRead (exec Observed.step (.start fun _ => none) pre) event := by
  constructor
  · intro h
    have hfalls := h [] ⟨1, .markChannelRead "dm" 3 false⟩ (prefix_refl _) "dm"
    exact absurd hfalls.1 (by decide)
  · intro h
    have hraised := h [⟨5, .clampChannelStores "dm" 2 none⟩]
      ⟨6, .seedChannelActivity [⟨"dm", 9⟩] 4⟩ (prefix_refl _)
    have hstays := hraised.2 ⟨"dm", 2, 5, false⟩ (by decide) (by decide)
    exact absurd (hstays.1 9 rfl) (by decide)

/-- A marker above a restarted head is clamped, and then an old list arrives. -/
def clampedPage : List Event :=
  [⟨1, .mergeReadState [⟨"dm", some 9⟩] 1 false⟩, ⟨5, .clampChannelStores "dm" 2 none⟩,
    ⟨6, .seedChannelActivity [⟨"dm", 9⟩] 4⟩]

/-- An old payload that arrives behind it keeps what is read. -/
theorem readMarks_of_clampedPage :
    KeepsRead (exec Observed.step (.start fun _ => none) clampedPage)
      ⟨7, .mergeReadState [⟨"dm", some 9⟩] 4 false⟩ := by
  have hfound : ∀ clamp ∈ [(⟨"dm", 2, 5, true⟩ : Clamp)], clamp.found ≠ false := by simp
  refine @readMarks_of_run (fun _ => none)
    (clampedPage ++ [⟨7, .mergeReadState [⟨"dm", some 9⟩] 4 false⟩]) ?_ ?_ clampedPage _
    prefix_rfl
  · exact ⟨Nat.zero_le _, (by decide : 1 ≤ 5), (by decide : 5 ≤ 6), (by decide : 6 ≤ 7), trivial⟩
  · refine ⟨?_, trivial, ?_, ?_, trivial⟩
    · exact fun _ _ _ hclamp => (not_mem_nil hclamp).elim
    · exact fun _ _ clamp hclamp hnot => absurd hnot (hfound clamp hclamp)
    · exact fun _ _ clamp hclamp hnot => absurd hnot (hfound clamp hclamp)

end RelayIde.Channel.ReadMarks
