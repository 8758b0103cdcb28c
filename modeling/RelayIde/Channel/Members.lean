import RelayIde.Channel.MemberId
import RelayIde.Library.Table

/-!
# Channel Membership Table

The `channel_members` table and the operations that decide membership on it
(`server/channel-message-store.ts`).  A removed member keeps its row as a tombstone
(`removedAt` set), so every operation first selects the stored spellings of one
participant and then reads or writes their removal state.

- `repairRemovedMemberClasses` buckets by `memberFoldKey`

The main theorem says for which sets of ids both selections are one equivalence.
-/

namespace RelayIde.Channel

open RelayIde.Library List

/-! ## Rows and selections -/

/-- A row of `channel_members`. -/
structure MemberRow where
  channelId : String
  memberKind : MemberKind
  memberId : String
  joinedAt : Timestamp
  metadataJson : String
  invitedBy : Option String
  removedAt : Option Timestamp
  removedBy : Option String
  deriving DecidableEq

/-- `PRIMARY KEY (channel_id, member_kind, member_id)`. -/
def MemberRow.key (r : MemberRow) : String × MemberKind × String :=
  (r.channelId, r.memberKind, r.memberId)

abbrev MemberTable := Table MemberRow.key

/-- The member reference handed to callers. -/
structure ChannelMemberRef where
  kind : MemberKind
  id : String
  joinedAt : Timestamp
  invitedBy : Option String
  removedAt : Option Timestamp

def memberRowToRef (row : MemberRow) : ChannelMemberRef :=
  { kind := row.memberKind
    id := row.memberId
    joinedAt := row.joinedAt
    -- an empty inviter is falsy and left off the ref
    invitedBy := row.invitedBy.filter (· ≠ "")
    removedAt := row.removedAt }

/-- `ORDER BY joined_at ASC, member_id ASC`. -/
def joinedOrder (a b : MemberRow) : Prop :=
  a.joinedAt < b.joinedAt ∨ (a.joinedAt = b.joinedAt ∧ a.memberId ≤ b.memberId)

instance : DecidableRel joinedOrder := fun a b => by
  unfold joinedOrder
  infer_instance

/-- The row predicate the member lookup statements share. -/
def matchesParams (p : MemberMatchParams) (r : MemberRow) : Bool :=
  r.channelId == p.channelId && r.memberKind == p.memberKind && p.ids.contains r.memberId

/-- `matchMemberRowsStmt`: every stored spelling of one participant, live and tombstoned. -/
def matchMemberRows (t : MemberTable) (p : MemberMatchParams) : List MemberRow :=
  (t.rows.filter (matchesParams p)).insertionSort joinedOrder

/-- `selectMemberExactStmt`. -/
def selectMemberExact (t : MemberTable) (channelId : String) (kind : MemberKind)
    (id : String) : Option MemberRow :=
  t.find? (channelId, kind, id)

/-! ## Statements -/

/-- `SET removed_at, removed_by`. -/
def MemberRow.tombstone (r : MemberRow) (removedAt : Timestamp) (removedBy : Option String) :
    MemberRow :=
  { r with removedAt := some removedAt, removedBy := removedBy }

/-- `SET removed_at = NULL, removed_by = NULL, invited_by, joined_at`. -/
def MemberRow.readmit (r : MemberRow) (invitedBy : Option String) (joinedAt : Timestamp) :
    MemberRow :=
  { r with removedAt := none, removedBy := none, invitedBy := invitedBy, joinedAt := joinedAt }

@[simp] theorem key_tombstone (r : MemberRow) (removedAt : Timestamp)
    (removedBy : Option String) : (r.tombstone removedAt removedBy).key = r.key := rfl

@[simp] theorem key_readmit (r : MemberRow) (invitedBy : Option String)
    (joinedAt : Timestamp) : (r.readmit invitedBy joinedAt).key = r.key := rfl

/-- `tombstoneMemberStmt` on one exact row. -/
def tombstoneMember (t : MemberTable) (channelId : String) (kind : MemberKind) (id : String)
    (removedAt : Timestamp) (removedBy : Option String) : MemberTable :=
  t.updateWhere (fun r => decide (r.key = (channelId, kind, id)))
    (fun r => r.tombstone removedAt removedBy) (fun r => key_tombstone r _ _)

/-- `upsertMemberStmt`: the first inviter wins, and only a human row is revived. -/
def upsertMemberRow (t : MemberTable) (row : MemberRow) : MemberTable :=
  t.upsert row
    (fun r => { r with
      metadataJson := row.metadataJson
      invitedBy := r.invitedBy.or row.invitedBy
      removedAt := if r.memberKind = .human then none else r.removedAt
      removedBy := if r.memberKind = .human then none else r.removedBy })
    (Table.keyed fun _ => rfl)

/-! ## Operations -/

/-- `isMember`: some matched row is live. -/
def isMember (t : MemberTable) (channelId : String) (kind : MemberKind) (id : String) : Bool :=
  t.rows.any (fun r => matchesParams (memberMatchParams channelId kind id) r && r.removedAt.isNone)

/-- Arguments of a membership write. -/
structure MemberInput where
  channelId : String
  kind : MemberKind
  id : String
  /-- Inviter on an invite or upsert, remover on a removal. -/
  actor : Option String
  /-- `JSON.stringify(metadata ?? {})`. -/
  metadataJson : String := "{}"

/-- A fresh live row for a membership write. -/
def MemberInput.newRow (input : MemberInput) (joinedAt : Timestamp) : MemberRow :=
  { channelId := input.channelId
    memberKind := input.kind
    memberId := input.id
    joinedAt := joinedAt
    metadataJson := input.metadataJson
    invitedBy := input.actor
    removedAt := none
    removedBy := none }

/-- `inviteMember`: a no-op on a live participant, else every stored spelling is readmitted. -/
def inviteMember (t : MemberTable) (now : Timestamp) (input : MemberInput) :
    MemberTable × ChannelMemberRef :=
  let params := memberMatchParams input.channelId input.kind input.id
  let rows := matchMemberRows t params
  let insertNew (u : MemberTable) : MemberTable × ChannelMemberRef :=
    (upsertMemberRow u (input.newRow now),
      { kind := input.kind, id := input.id, joinedAt := now, invitedBy := input.actor,
        removedAt := none })
  match rows.find? (fun r => r.removedAt.isNone) with
  | some live => (t, memberRowToRef live)
  | none =>
    if rows.length > 0 then
      let u := t.updateEach rows (fun _ r => r.readmit input.actor now)
        (fun _ r => key_readmit r _ _)
      match (matchMemberRows u params).find? (fun r => r.removedAt.isNone) with
      | some row => (u, memberRowToRef row)
      | none => insertNew u
    else insertNew t

/-- `removeMember`: every live spelling is tombstoned with one stamp. -/
def removeMember (t : MemberTable) (now : Timestamp) (input : MemberInput) :
    MemberTable × Option ChannelMemberRef :=
  let rows := matchMemberRows t (memberMatchParams input.channelId input.kind input.id)
  let live := rows.filter (fun r => r.removedAt.isNone)
  match live with
  | [] => (t, none)
  | first :: _ =>
    (t.updateEach live (fun _ r => r.tombstone now input.actor) (fun _ r => key_tombstone r _ _),
      some (memberRowToRef first))

/-- `classRemovalStamp`: the stamp of a participant whose stored spellings are all removed. -/
def classRemovalStamp (t : MemberTable) (channelId : String) (kind : MemberKind) (id : String) :
    Option (Timestamp × Option String) :=
  match kind with
  | .human => none
  | .agent =>
    let rows := matchMemberRows t (memberMatchParams channelId kind id)
    match rows.find? (fun r => r.removedAt.isSome) with
    | none => none
    | some removed =>
      if rows.any (fun r => r.removedAt.isNone) then none
      else removed.removedAt.map (fun at_ => (at_, removed.removedBy))

/-- `inheritClassRemoval`: apply an inherited stamp to the row just written. -/
def inheritClassRemoval (t : MemberTable) (channelId : String) (kind : MemberKind) (id : String)
    (stamp : Option (Timestamp × Option String)) : MemberTable :=
  match stamp with
  | none => t
  | some (removedAt, removedBy) => tombstoneMember t channelId kind id removedAt removedBy

/-- `upsertMember`: a participant writes its own way in; the stored row is read back. -/
def upsertMember (t : MemberTable) (now : Timestamp) (input : MemberInput) :
    MemberTable × Option ChannelMemberRef :=
  let existing := selectMemberExact t input.channelId input.kind input.id
  let stamp := match existing with
    | some _ => none
    | none => classRemovalStamp t input.channelId input.kind input.id
  let joinedAt := match existing with
    | some row => row.joinedAt
    | none => now
  let written := inheritClassRemoval (upsertMemberRow t (input.newRow joinedAt))
    input.channelId input.kind input.id stamp
  (written, (selectMemberExact written input.channelId input.kind input.id).map memberRowToRef)

def channelMembershipBindingInviter : String := "binding"

/-- `enrollBoundMember`: mirror a durable binding onto the table. -/
def enrollBoundMember (t : MemberTable) (now : Timestamp) (channelId : String)
    (profileActorId : String) : MemberTable :=
  let stamp := classRemovalStamp t channelId .agent profileActorId
  let input : MemberInput :=
    { channelId := channelId, kind := .agent, id := profileActorId,
      actor := some channelMembershipBindingInviter }
  let enrolled := t.upsert (input.newRow now)
    (fun r => { r with invitedBy := r.invitedBy.or (some channelMembershipBindingInviter) })
    (Table.keyed fun _ => rfl)
  inheritClassRemoval enrolled channelId .agent profileActorId stamp

/-! ## Fold repair -/

/-- `ORDER BY removed_at ASC`, tombstone-free rows first. -/
def removedOrder (a b : MemberRow) : Prop :=
  match a.removedAt, b.removedAt with
  | none, _ => True
  | some _, none => False
  | some x, some y => x ≤ y

instance : DecidableRel removedOrder := fun a b => by
  unfold removedOrder
  cases a.removedAt <;> cases b.removedAt <;> infer_instance

def repairClassKey (r : MemberRow) : String × String :=
  (r.channelId, memberFoldKey .agent r.memberId)

/-- Agent rows of the channels that hold a tombstoned agent. -/
def repairRows (t : MemberTable) : List MemberRow :=
  (t.rows.filter (fun r => r.memberKind == .agent &&
    t.rows.any (fun s => s.channelId == r.channelId && s.memberKind == .agent &&
      s.removedAt.isSome))).insertionSort removedOrder

/-- The tombstone a row's bucket carries, earliest first. -/
def bucketTombstone (rows : List MemberRow) (r : MemberRow) : Option MemberRow :=
  rows.find? (fun s => decide (repairClassKey s = repairClassKey r) && s.removedAt.isSome)

/-- The update the repair runs on one live row of a removed bucket. -/
def repairRow (rows : List MemberRow) (s r : MemberRow) : MemberRow :=
  match bucketTombstone rows s with
  | none => r
  | some removed => { r with removedAt := removed.removedAt, removedBy := removed.removedBy }

/-- `repairRemovedMemberClasses`: re-tombstone live rows whose fold class was removed. -/
def repairRemovedMemberClasses (t : MemberTable) : MemberTable :=
  let rows := repairRows t
  t.updateEach (rows.filter (fun r => r.removedAt.isNone)) (repairRow rows) (fun s r => by
    unfold repairRow
    cases bucketTombstone rows s <;> rfl)

/-! ## Rows an operation reads and writes -/

variable (t : MemberTable) (p : MemberMatchParams)

theorem mem_matchMemberRows (r : MemberRow) :
    r ∈ matchMemberRows t p ↔ r ∈ t.rows ∧ matchesParams p r = true := by
  rw [matchMemberRows, mem_insertionSort, mem_filter]

theorem matchMemberRows_nodup : (matchMemberRows t p).Nodup := by
  rw [matchMemberRows, (perm_insertionSort joinedOrder _).nodup_iff]
  exact t.rows_nodup.filter _

theorem matchesParams_agent_iff (channelId a : String) (r : MemberRow) :
    matchesParams (memberMatchParams channelId .agent a) r = true ↔
      r.channelId = channelId ∧ r.memberKind = .agent ∧ MatchesMember a r.memberId := by
  have hch : (memberMatchParams channelId .agent a).channelId = channelId := rfl
  have hkind : (memberMatchParams channelId .agent a).memberKind = .agent := rfl
  have hids : ∀ channelId', (memberMatchParams channelId' .agent a).ids =
      (memberMatchParams channelId .agent a).ids := fun _ => rfl
  simp [matchesParams, MatchesMember, hids, hch, hkind, and_assoc]

variable (t : MemberTable) (now : Timestamp) (input : MemberInput)

theorem rows_removeMember :
    (removeMember t now input).1.rows = t.rows.map (fun r =>
      if matchesParams (memberMatchParams input.channelId input.kind input.id) r = true ∧
        r.removedAt = none then r.tombstone now input.actor else r) := by
  unfold removeMember
  generalize hp : memberMatchParams input.channelId input.kind input.id = p
  have hlive : ∀ r, r ∈ (matchMemberRows t p).filter (fun r => r.removedAt.isNone) ↔
      r ∈ t.rows ∧ matchesParams p r = true ∧ r.removedAt = none := by
    intro r
    simp [mem_matchMemberRows, and_assoc]
  cases hsel : (matchMemberRows t p).filter (fun r => r.removedAt.isNone) with
  | nil =>
    simp only [hsel]
    rw [hsel] at hlive
    have hsame : ∀ r ∈ t.rows, (if matchesParams p r = true ∧ r.removedAt = none
        then r.tombstone now input.actor else r) = r := by
      intro r hr
      rw [if_neg]
      intro h
      simpa using (hlive r).mpr ⟨hr, h⟩
    rw [map_congr_left hsame, map_id']
  | cons first rest =>
    have hnd := (matchMemberRows_nodup t p).filter (fun r => r.removedAt.isNone)
    simp only [hsel]
    rw [← hsel, Table.rows_updateEach_of_subset _ _ _ _ hnd (fun s hs => ((hlive s).mp hs).1)]
    refine map_congr_left (fun r hr => ?_)
    simp only [hlive, hr, true_and]

theorem rows_inviteMember_of_removed
    (hlive : isMember t input.channelId input.kind input.id = false) (hrow : ∃ r ∈ t.rows,
      matchesParams (memberMatchParams input.channelId input.kind input.id) r = true) :
    (inviteMember t now input).1.rows = t.rows.map (fun r =>
      if matchesParams (memberMatchParams input.channelId input.kind input.id) r = true
      then r.readmit input.actor now else r) := by
  unfold inviteMember
  simp only [isMember] at hlive
  generalize hp : memberMatchParams input.channelId input.kind input.id = p at hlive hrow ⊢
  obtain ⟨r, hr, hmatch⟩ := hrow
  have hrsel : r ∈ matchMemberRows t p := (mem_matchMemberRows t p r).mpr ⟨hr, hmatch⟩
  have hnolive : (matchMemberRows t p).find? (fun r => r.removedAt.isNone) = none := by
    rw [find?_eq_none]
    intro s hs hsn
    obtain ⟨hst, hsm⟩ := (mem_matchMemberRows t p s).mp hs
    have hall := any_eq_false.mp hlive s hst
    simp [hsm, hsn] at hall
  have hlen : (matchMemberRows t p).length > 0 := length_pos_of_mem hrsel
  have hrows : (t.updateEach (matchMemberRows t p) (fun _ r => r.readmit input.actor now)
      (fun _ r => key_readmit r _ _)).rows = t.rows.map (fun r =>
        if matchesParams p r = true then r.readmit input.actor now else r) := by
    rw [Table.rows_updateEach_of_subset _ _ _ _ (matchMemberRows_nodup t p)
      (fun s hs => ((mem_matchMemberRows t p s).mp hs).1)]
    refine map_congr_left (fun s hs => ?_)
    simp only [mem_matchMemberRows, hs, true_and]
  simp only [hnolive, hlen]
  -- the readmitted row is live and still matched, so the insert is not reached
  cases hf : (matchMemberRows (t.updateEach (matchMemberRows t p)
      (fun _ r => r.readmit input.actor now) (fun _ r => key_readmit r _ _)) p).find?
      (fun r => r.removedAt.isNone) with
  | some row => exact hrows
  | none =>
    exfalso
    have hmem : r.readmit input.actor now ∈ matchMemberRows (t.updateEach (matchMemberRows t p)
        (fun _ r => r.readmit input.actor now) (fun _ r => key_readmit r _ _)) p := by
      rw [mem_matchMemberRows, hrows]
      refine ⟨mem_map.mpr ⟨r, hr, by rw [if_pos hmatch]⟩, ?_⟩
      exact hmatch
    have := find?_eq_none.mp hf _ hmem
    simp [MemberRow.readmit] at this

/-! ## One identity -/

/-- `r` is a row of the fold class of the agent `a` in a channel. -/
def InFoldClass (channelId a : String) (r : MemberRow) : Prop :=
  r.channelId = channelId ∧ r.memberKind = .agent ∧
    memberFoldKey .agent a = memberFoldKey .agent r.memberId

instance (channelId a : String) (r : MemberRow) : Decidable (InFoldClass channelId a r) := by
  unfold InFoldClass
  infer_instance

/-- Every agent row of the table is stored under an id of `S`. -/
def StoredUnder (S : Set String) (t : MemberTable) : Prop :=
  ∀ r ∈ t.rows, r.memberKind = .agent → r.memberId ∈ S

/-- Channel membership identifies the ids of `S` by one equivalence, on which all the
    operations act. -/
structure OneMembershipIdentity (S : Set String) : Prop where
  refl : ∀ a ∈ S, MatchesMember a a
  symm : ∀ a ∈ S, ∀ b ∈ S, MatchesMember a b → MatchesMember b a
  trans : ∀ a ∈ S, ∀ b ∈ S, ∀ c ∈ S, MatchesMember a b → MatchesMember b c → MatchesMember a c
  coincide : ∀ a ∈ S, ∀ b ∈ S,
    MatchesMember a b ↔ memberFoldKey .agent a = memberFoldKey .agent b
  /-- `isMember` reads the fold class. -/
  isMember_class : ∀ (t : MemberTable) (channelId : String), StoredUnder S t → ∀ a ∈ S,
    (isMember t channelId .agent a = true ↔
      ∃ r ∈ t.rows, InFoldClass channelId a r ∧ r.removedAt = none)
  /-- `removeMember` tombstones the live rows of the fold class. -/
  removeMember_class : ∀ (t : MemberTable) (now : Timestamp) (input : MemberInput),
    StoredUnder S t → input.kind = .agent → input.id ∈ S →
    (removeMember t now input).1.rows = t.rows.map (fun r =>
      if InFoldClass input.channelId input.id r ∧ r.removedAt = none
      then r.tombstone now input.actor else r)
  /-- `inviteMember` readmits the rows of a removed fold class. -/
  inviteMember_class : ∀ (t : MemberTable) (now : Timestamp) (input : MemberInput),
    StoredUnder S t → input.kind = .agent → input.id ∈ S →
    (∃ r ∈ t.rows, InFoldClass input.channelId input.id r) →
    (∀ r ∈ t.rows, InFoldClass input.channelId input.id r → r.removedAt ≠ none) →
    (inviteMember t now input).1.rows = t.rows.map (fun r =>
      if InFoldClass input.channelId input.id r then r.readmit input.actor now else r)
  /-- The repair buckets together the agent rows of a channel that match each other. -/
  repair_class : ∀ (t : MemberTable), StoredUnder S t → ∀ r ∈ t.rows, ∀ s ∈ t.rows,
    r.memberKind = .agent → s.memberKind = .agent →
    (repairClassKey r = repairClassKey s ↔
      r.channelId = s.channelId ∧ MatchesMember r.memberId s.memberId)

section
variable {S : Set String} (hagree : ∀ a ∈ S, ∀ b ∈ S, MatchesMember a b ↔ memberFoldKey .agent a = memberFoldKey .agent b)
include hagree

private theorem matchesParams_iff_inFoldClass
    {t : MemberTable} (hstored : StoredUnder S t) {a : String} (ha : a ∈ S)
    (channelId : String) {r : MemberRow} (hr : r ∈ t.rows) :
    matchesParams (memberMatchParams channelId .agent a) r = true ↔ InFoldClass channelId a r := by
  rw [matchesParams_agent_iff]
  constructor
  · rintro ⟨hch, hkind, hmatch⟩
    exact ⟨hch, hkind, (hagree a ha _ (hstored r hr hkind)).mp hmatch⟩
  · rintro ⟨hch, hkind, hfold⟩
    exact ⟨hch, hkind, (hagree a ha _ (hstored r hr hkind)).mpr hfold⟩

/-- Helper: one equivalence follows from agreement of the two canonicalizations. -/
private theorem oneMembershipIdentity_of_agree :
    OneMembershipIdentity S where
  refl a ha := (hagree a ha a ha).mpr rfl
  symm a ha b hb hab := (hagree b hb a ha).mpr ((hagree a ha b hb).mp hab).symm
  trans a ha b hb c hc hab hbc :=
    (hagree a ha c hc).mpr (((hagree a ha b hb).mp hab).trans ((hagree b hb c hc).mp hbc))
  coincide := hagree
  isMember_class t channelId hstored a ha := by
    simp only [isMember, any_eq_true, Bool.and_eq_true, Option.isNone_iff_eq_none]
    constructor
    · rintro ⟨r, hr, hmatch, hlive⟩
      exact ⟨r, hr, (matchesParams_iff_inFoldClass hagree hstored ha channelId hr).mp hmatch,
        hlive⟩
    · rintro ⟨r, hr, hclass, hlive⟩
      exact ⟨r, hr, (matchesParams_iff_inFoldClass hagree hstored ha channelId hr).mpr hclass,
        hlive⟩
  removeMember_class t now input hstored hkind ha := by
    rw [rows_removeMember, hkind]
    refine map_congr_left (fun r hr => ?_)
    simp only [matchesParams_iff_inFoldClass hagree hstored ha input.channelId hr]
  inviteMember_class t now input hstored hkind ha hex hremoved := by
    have hlive : isMember t input.channelId input.kind input.id = false := by
      rw [hkind, isMember, any_eq_false]
      intro r hr h
      rw [Bool.and_eq_true, Option.isNone_iff_eq_none] at h
      exact hremoved r hr
        ((matchesParams_iff_inFoldClass hagree hstored ha input.channelId hr).mp h.1) h.2
    obtain ⟨r, hr, hclass⟩ := hex
    rw [rows_inviteMember_of_removed t now input hlive ⟨r, hr, by
      rw [hkind]
      exact (matchesParams_iff_inFoldClass hagree hstored ha input.channelId hr).mpr hclass⟩,
      hkind]
    refine map_congr_left (fun s hs => ?_)
    simp only [matchesParams_iff_inFoldClass hagree hstored ha input.channelId hs]
  repair_class t hstored r hr s hs hrk hsk := by
    rw [repairClassKey, repairClassKey, Prod.mk.injEq,
      hagree _ (hstored r hr hrk) _ (hstored s hs hsk)]

end

/-- **Membership identity**: matching and folding are one equivalence on a set of ids, and
    every operation acts on its classes, exactly when no two of the ids form a spelling gap. -/
theorem oneMembershipIdentity_iff (S : Set String) :
    OneMembershipIdentity S ↔ ∀ a ∈ S, ∀ b ∈ S, ¬ SpellingGap a b := by
  constructor
  · intro h a ha b hb
    exact (matches_iff_fold_eq a b).mp (h.coincide a ha b hb)
  · intro h
    apply oneMembershipIdentity_of_agree
    intro a ha b hb
    exact (matches_iff_fold_eq a b).mpr (h a ha b hb)

/-- Two spellings of the built-in Claude profile: the prefixed profile id matches the bare
    vendor id but is not matched by it, although both fold onto `claude`. -/
theorem membershipIdentity_fails_on_prefixed_profile :
    MatchesMember "agent:agent-profile:claude:default" "claude" ∧
      ¬ MatchesMember "claude" "agent:agent-profile:claude:default" ∧
      memberFoldKey .agent "claude" = memberFoldKey .agent "agent:agent-profile:claude:default" ∧
      ¬ OneMembershipIdentity Set.univ := by
  have hasym : ¬ MatchesMember "claude" "agent:agent-profile:claude:default" := by decide
  have hsym : MatchesMember "agent:agent-profile:claude:default" "claude" := by decide
  refine ⟨hsym, hasym, by decide, ?_⟩
  intro h
  exact hasym (h.symm _ (Set.mem_univ _) _ (Set.mem_univ _) hsym)

end RelayIde.Channel
