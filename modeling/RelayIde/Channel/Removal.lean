import RelayIde.Channel.Members
import RelayIde.Channel.MessageLog
import RelayIde.Library.Machine

/-!
# Removal From a Channel

A removed participant must stay out of a channel until somebody invites it again.  The
tables below are written by the store's implicit writers, none of which is an admission
(`server/channel-message-store.ts`):

- `backfillChannelMembership` — rows derived from the transcript and the bindings, followed by
  the fold repair

The main theorem says for which participants a removal survives every sequence of them.
-/

namespace RelayIde.Channel

open RelayIde.Library List
open RelayIde.Library.Text (hasPrefix)

/-! ## The tables a backfill reads -/

inductive AgentRole where
  | implementer
  | reviewer
  | orchestrator
  | context
  | collaborator
  deriving DecidableEq

/-- The columns of `channel_messages` the backfill selects. -/
structure SenderRow where
  channelId : String
  senderKind : ChannelSenderKind
  senderId : String
  createdAt : Timestamp

/-- A row of `channel_agent_bindings`. -/
structure BindingRow where
  channelId : String
  /-- The empty string is the root scope. -/
  threadScopeId : String
  profileActorId : String
  bindingRole : Option AgentRole
  createdAt : Timestamp

/-- `PRIMARY KEY (channel_id, thread_scope_id, profile_actor_id)`. -/
def BindingRow.key (r : BindingRow) : String × String × String :=
  (r.channelId, r.threadScopeId, r.profileActorId)

abbrev BindingTable := Table BindingRow.key

structure MemberStore where
  members : MemberTable
  messages : List SenderRow
  bindings : BindingTable

/-- Arguments of a binding write; an absent role keeps the stored one. -/
structure BindingInput where
  channelId : String
  threadId : Option String
  profileActorId : String
  role : Option (Option AgentRole)

/-- `writeBindingImpl`. -/
def writeBinding (t : BindingTable) (now : Timestamp) (input : BindingInput) : BindingTable :=
  let scope := input.threadId.getD ""
  let existing := t.find? (input.channelId, scope, input.profileActorId)
  let role := input.role.getD (existing.bind (·.bindingRole))
  t.upsert
    { channelId := input.channelId
      threadScopeId := scope
      profileActorId := input.profileActorId
      bindingRole := role
      createdAt := now }
    (fun r => { r with bindingRole := role })
    (Table.keyed fun _ => rfl)

def getSoleOrchestratorBinding (t : BindingTable) (channelId : String) : Option BindingRow :=
  t.rows.find? (fun r => r.channelId == channelId && r.threadScopeId == "" &&
    decide (r.bindingRole = some .orchestrator))

/-! ## Writers of the store -/

def channelMembershipBackfillInviter : String := "backfill"

/-- A participant proved by the transcript or by a binding, and when. -/
structure BackfillSource where
  key : String × MemberKind × String
  createdAt : Timestamp

/-- `WHERE sender_kind IN ('human','agent')`. -/
def SenderRow.source? (r : SenderRow) : Option BackfillSource :=
  match r.senderKind with
  | .human => some ⟨(r.channelId, .human, r.senderId), r.createdAt⟩
  | .agent => some ⟨(r.channelId, .agent, r.senderId), r.createdAt⟩
  | .system => none

/-- A binding names an agent. -/
def BindingRow.source (r : BindingRow) : BackfillSource :=
  ⟨(r.channelId, .agent, r.profileActorId), r.createdAt⟩

/-- `SELECT …, MIN(created_at), '{}', @inviter … GROUP BY channel_id, kind, id`. -/
def backfillRows (sources : List BackfillSource) : List MemberRow :=
  (sources.map (·.key)).dedup.map (fun k =>
    { channelId := k.1
      memberKind := k.2.1
      memberId := k.2.2
      joinedAt := (((sources.filter (·.key == k)).map (·.createdAt)).min?).getD 0
      metadataJson := "{}"
      invitedBy := some channelMembershipBackfillInviter
      removedAt := none
      removedBy := none })

/-- `INSERT OR IGNORE` of every selected row. -/
def insertOrIgnore (t : MemberTable) (rows : List MemberRow) : MemberTable :=
  rows.foldl Table.insert t

/-- `backfillChannelMembership`, with the number of rows it added. -/
def backfillChannelMembership (s : MemberStore) (includeMessageSenders : Bool) :
    MemberTable × Nat :=
  let fromMessages :=
    if includeMessageSenders
    then insertOrIgnore s.members (backfillRows (s.messages.filterMap SenderRow.source?))
    else s.members
  let fromBindings :=
    insertOrIgnore fromMessages (backfillRows (s.bindings.rows.map BindingRow.source))
  (repairRemovedMemberClasses fromBindings, fromBindings.rows.length - s.members.rows.length)

def MemberStore.enroll (s : MemberStore) (now : Timestamp) (input : BindingInput)
    (mirrored : Bool) : MemberStore :=
  if mirrored
  then { s with members := enrollBoundMember s.members now input.channelId input.profileActorId }
  else s

/-- `upsertBinding`: the orchestrator role is refused here. -/
def MemberStore.upsertBinding (s : MemberStore) (now : Timestamp) (input : BindingInput)
    (mirrored : Bool) : MemberStore :=
  if input.role = some (some .orchestrator) then s
  else { s with bindings := writeBinding s.bindings now input }.enroll now input mirrored

/-- `designateSoleOrchestrator`: refused while another profile holds the designation. -/
def MemberStore.designateSoleOrchestrator (s : MemberStore) (now : Timestamp)
    (input : BindingInput) (mirrored : Bool) : MemberStore :=
  let designation := { input with role := some (some .orchestrator) }
  let write : MemberStore := { s with bindings := writeBinding s.bindings now designation }
  match getSoleOrchestratorBinding s.bindings input.channelId with
  | some designated =>
    if designated.profileActorId ≠ input.profileActorId then s
    else write.enroll now input mirrored
  | none => write.enroll now input mirrored

inductive MemberOp where
  | upsertMember (now : Timestamp) (input : MemberInput)
  | inviteMember (now : Timestamp) (input : MemberInput)
  | removeMember (now : Timestamp) (input : MemberInput)
  /-- A durable message, which a later backfill reads. -/
  | appendMessage (row : SenderRow)
  | upsertBinding (now : Timestamp) (input : BindingInput) (mirrored : Bool)
  | designateSoleOrchestrator (now : Timestamp) (input : BindingInput) (mirrored : Bool)
  /-- The v17 migration derives from the transcript too, a reopen from the bindings alone. -/
  | backfillMembership (includeMessageSenders : Bool)

/-- One operation. -/
def MemberStore.step (s : MemberStore) : MemberOp → MemberStore
  | .upsertMember now input => { s with members := (Channel.upsertMember s.members now input).1 }
  | .inviteMember now input => { s with members := (Channel.inviteMember s.members now input).1 }
  | .removeMember now input => { s with members := (Channel.removeMember s.members now input).1 }
  | .appendMessage row => { s with messages := s.messages ++ [row] }
  | .upsertBinding now input mirrored => s.upsertBinding now input mirrored
  | .designateSoleOrchestrator now input mirrored =>
    s.designateSoleOrchestrator now input mirrored
  | .backfillMembership includeMessageSenders =>
    { s with members := (backfillChannelMembership s includeMessageSenders).1 }

/-! ## One participant -/

/-- The key of a row that stores some spelling of a participant. -/
def OfParticipant (channelId : String) (kind : MemberKind) (a : String)
    (k : String × MemberKind × String) : Prop :=
  k.1 = channelId ∧ k.2.1 = kind ∧ memberFoldKey kind a = memberFoldKey kind k.2.2

instance (channelId : String) (kind : MemberKind) (a : String)
    (k : String × MemberKind × String) : Decidable (OfParticipant channelId kind a k) := by
  unfold OfParticipant
  infer_instance

theorem OfParticipant.eq_of_human {channelId a : String} {k : String × MemberKind × String}
    (h : OfParticipant channelId .human a k) : k = (channelId, .human, a) := by
  obtain ⟨hch, hkind, hid⟩ := h
  exact Prod.ext hch (Prod.ext hkind (Eq.symm hid))

structure Removed (S : Set String) (t : MemberTable) (channelId : String) (kind : MemberKind)
    (a : String) : Prop where
  ids : StoredUnder S t
  stored : ∃ k r, OfParticipant channelId kind a k ∧ t.find? k = some r
  tombstoned : ∀ k r, OfParticipant channelId kind a k → t.find? k = some r →
    r.removedAt.isSome = true

/-- The agent ids of `S` that name the participant `a` form no spelling gap with any id of `S`;
    human ids have one spelling. -/
def Ungapped (S : Set String) (kind : MemberKind) (a : String) : Prop :=
  kind = .agent → ∀ b ∈ S, ∀ c ∈ S,
    memberFoldKey .agent a = memberFoldKey .agent b ∨
      memberFoldKey .agent a = memberFoldKey .agent c → ¬ SpellingGap b c

theorem matchesParams_iff_of_ungapped {S : Set String} {kind : MemberKind} {a b : String}
    (hgap : Ungapped S kind a) (hb : kind = .agent → b ∈ S) (channelId : String) (r : MemberRow)
    (hr : r.memberKind = .agent → r.memberId ∈ S)
    (hab : memberFoldKey kind a = memberFoldKey kind b ∨
      memberFoldKey kind a = memberFoldKey kind r.memberId) :
    matchesParams (memberMatchParams channelId kind b) r = true ↔
      OfParticipant channelId kind b r.key := by
  cases kind with
  | human =>
    have hids : (memberMatchParams channelId .human b).ids = [b, b, b, b, b, b] := rfl
    have hch : (memberMatchParams channelId .human b).channelId = channelId := rfl
    have hkind : (memberMatchParams channelId .human b).memberKind = .human := rfl
    rw [matchesParams, hids, hch, hkind]
    simp [OfParticipant, MemberRow.key, memberFoldKey, and_assoc, @eq_comm _ b]
  | agent =>
    rw [matchesParams_agent_iff]
    constructor
    · rintro ⟨hch, hkind, hmatch⟩
      have hagree := (matches_iff_fold_eq b r.memberId).mpr
        (hgap rfl b (hb rfl) r.memberId (hr hkind) hab)
      exact ⟨hch, hkind, hagree.mp hmatch⟩
    · rintro ⟨hch, hkind, hfold⟩
      have hagree := (matches_iff_fold_eq b r.memberId).mpr
        (hgap rfl b (hb rfl) r.memberId (hr hkind) hab)
      exact ⟨hch, hkind, hagree.mpr hfold⟩

theorem isMember_eq_false_of_removed {S : Set String} {t : MemberTable} {channelId : String}
    {kind : MemberKind} {a b : String} (h : Removed S t channelId kind a)
    (hgap : Ungapped S kind a) (hb : kind = .agent → b ∈ S)
    (hab : memberFoldKey kind a = memberFoldKey kind b) : isMember t channelId kind b = false := by
  rw [isMember, any_eq_false]
  intro r hr hlive
  rw [Bool.and_eq_true, Option.isNone_iff_eq_none] at hlive
  have hof := (matchesParams_iff_of_ungapped hgap hb channelId r (h.ids r hr) (.inl hab)).mp hlive.1
  have hkey : OfParticipant channelId kind a r.key := ⟨hof.1, hof.2.1, hab.trans hof.2.2⟩
  have hsome := h.tombstoned r.key r hkey (t.find?_key hr)
  rw [hlive.2] at hsome
  cases hsome

/-! ## Statements on a removed participant -/

section Statements

variable {S : Set String} {t : MemberTable} {channelId : String} {kind : MemberKind} {a : String}

theorem storedUnder_iff (S : Set String) (t : MemberTable) :
    StoredUnder S t ↔ ∀ k r, t.find? k = some r → k.2.1 = .agent → k.2.2 ∈ S := by
  constructor
  · intro h k r hr hk
    obtain ⟨hmem, rfl⟩ := (t.find?_eq_some_iff k r).mp hr
    exact h r hmem hk
  · intro h r hr hk
    exact h r.key r (t.find?_key hr) hk

theorem StoredUnder.updateWhere (h : StoredUnder S t) (p : MemberRow → Bool)
    (f : MemberRow → MemberRow) (hf : ∀ r, (f r).key = r.key) :
    StoredUnder S (t.updateWhere p f hf) := by
  rw [storedUnder_iff] at h ⊢
  intro k r hr
  rw [Table.find?_updateWhere, Option.map_eq_some_iff] at hr
  obtain ⟨s, hs, -⟩ := hr
  exact h k s hs

theorem StoredUnder.upsert (h : StoredUnder S t) (row : MemberRow) (f : MemberRow → MemberRow)
    (hf : ∀ r, (f r).key = r.key) (hrow : row.memberKind = .agent → row.memberId ∈ S) :
    StoredUnder S (t.upsert row f hf) := by
  rw [storedUnder_iff] at h ⊢
  intro k r hr
  rw [Table.find?_upsert] at hr
  split at hr
  · rename_i hkey
    subst hkey
    exact hrow
  · exact h k r hr

theorem StoredUnder.insert (h : StoredUnder S t) (row : MemberRow)
    (hrow : row.memberKind = .agent → row.memberId ∈ S) : StoredUnder S (t.insert row) := by
  rw [storedUnder_iff] at h ⊢
  intro k r hr
  rw [Table.find?_insert] at hr
  split at hr
  · rename_i hkey
    subst hkey
    exact hrow
  · exact h k r hr

section
variable (h : Removed S t channelId kind a)
include h

theorem Removed.updateWhere (p : MemberRow → Bool)
    (f : MemberRow → MemberRow) (hf : ∀ r, (f r).key = r.key)
    (hkeep : ∀ r, OfParticipant channelId kind a r.key → p r = true →
      r.removedAt.isSome = true → (f r).removedAt.isSome = true) :
    Removed S (t.updateWhere p f hf) channelId kind a := by
  refine ⟨h.ids.updateWhere p f hf, ?_, ?_⟩
  · obtain ⟨k, r, hk, hr⟩ := h.stored
    exact ⟨k, _, hk, by rw [Table.find?_updateWhere, hr]; rfl⟩
  · intro k r hk hr
    rw [Table.find?_updateWhere, Option.map_eq_some_iff] at hr
    obtain ⟨s, hs, rfl⟩ := hr
    have hskey : s.key = k := ((t.find?_eq_some_iff k s).mp hs).2
    have hsome := h.tombstoned k s hk hs
    cases hp : p s with
    | false => exact hsome
    | true => exact hkeep s (hskey ▸ hk) hp hsome

theorem Removed.updateEach (selected : List MemberRow)
    (f : MemberRow → MemberRow → MemberRow) (hf : ∀ s r, (f s r).key = r.key)
    (hkeep : ∀ s ∈ selected, ∀ r, OfParticipant channelId kind a s.key →
      r.removedAt.isSome = true → (f s r).removedAt.isSome = true) :
    Removed S (t.updateEach selected f hf) channelId kind a := by
  induction selected generalizing t with
  | nil => exact h
  | cons s rest ih =>
    apply ih
    · apply h.updateWhere
      intro r hr hp hsome
      have hkey : r.key = s.key := of_decide_eq_true hp
      exact hkeep s mem_cons_self r (hkey ▸ hr) hsome
    · intro u hu
      exact hkeep u (mem_cons_of_mem s hu)

variable (row : MemberRow) (f : MemberRow → MemberRow)

section
variable (hf : ∀ r, (f r).key = r.key) (hid : row.memberKind = .agent → row.memberId ∈ S)
include hf hid

theorem Removed.upsert
    (hkeep : OfParticipant channelId kind a row.key → ∀ r, r.key = row.key →
      r.removedAt.isSome = true → (f r).removedAt.isSome = true)
    (hrow : OfParticipant channelId kind a row.key → (t.find? row.key).isSome = true) :
    Removed S (t.upsert row f hf) channelId kind a := by
  refine ⟨h.ids.upsert row f hf hid, ?_, ?_⟩
  · obtain ⟨k, r, hk, hr⟩ := h.stored
    cases hfind : (t.upsert row f hf).find? k with
    | some s => exact ⟨k, s, hk, hfind⟩
    | none =>
      rw [Table.find?_upsert, hr] at hfind
      split at hfind <;> cases hfind
  · intro k r hk hr
    rw [Table.find?_upsert] at hr
    split at hr
    · rename_i hkey
      subst hkey
      obtain ⟨s, hs⟩ := Option.isSome_iff_exists.mp (hrow hk)
      rw [hs, Option.some.injEq] at hr
      subst hr
      have hskey : s.key = row.key := ((t.find?_eq_some_iff _ s).mp hs).2
      exact hkeep hk s hskey (h.tombstoned _ s hk hs)
    · exact h.tombstoned k r hk hr

theorem Removed.upsert_tombstone (removedAt : Timestamp)
    (removedBy : Option String) :
    Removed S (Channel.tombstoneMember (t.upsert row f hf) row.channelId row.memberKind
      row.memberId removedAt removedBy) channelId kind a := by
  refine ⟨(h.ids.upsert row f hf hid).updateWhere _ _ _, ?_, ?_⟩
  · obtain ⟨k, r, hk, hr⟩ := h.stored
    cases hfind : (t.upsert row f hf).find? k with
    | some s =>
      exact ⟨k, _, hk, by rw [Channel.tombstoneMember, Table.find?_updateWhere, hfind]; rfl⟩
    | none =>
      rw [Table.find?_upsert, hr] at hfind
      split at hfind <;> cases hfind
  · intro k r hk hr
    rw [Channel.tombstoneMember, Table.find?_updateWhere, Option.map_eq_some_iff] at hr
    obtain ⟨s, hs, rfl⟩ := hr
    have hskey : s.key = k := ((Table.find?_eq_some_iff _ k s).mp hs).2
    cases hp : decide (s.key = (row.channelId, row.memberKind, row.memberId)) with
    | true => rfl
    | false =>
      -- the other rows are the ones stored before
      have hne : row.key ≠ k := fun he => of_decide_eq_false hp (hskey.trans he.symm)
      rw [Table.find?_upsert, if_neg hne] at hs
      exact h.tombstoned k s hk hs

theorem Removed.upsert_inherit
    (stamp : Option (Timestamp × Option String))
    (hkeep : OfParticipant channelId kind a row.key → ∀ r, r.key = row.key →
      r.removedAt.isSome = true → (f r).removedAt.isSome = true)
    (hrow : OfParticipant channelId kind a row.key →
      stamp.isSome = true ∨ (t.find? row.key).isSome = true) :
    Removed S (inheritClassRemoval (t.upsert row f hf) row.channelId row.memberKind
      row.memberId stamp) channelId kind a := by
  cases stamp with
  | none =>
    apply h.upsert row f hf hid hkeep
    intro hk
    exact (hrow hk).resolve_left (by simp)
  | some stamp => exact h.upsert_tombstone row f hf hid stamp.1 stamp.2

end

theorem Removed.insert (row : MemberRow) (hid : row.memberKind = .agent → row.memberId ∈ S)
    (hrow : OfParticipant channelId kind a row.key → (t.find? row.key).isSome = true) :
    Removed S (t.insert row) channelId kind a := by
  refine ⟨h.ids.insert row hid, ?_, ?_⟩
  · obtain ⟨k, r, hk, hr⟩ := h.stored
    refine ⟨k, r, hk, ?_⟩
    rw [Table.find?_insert, hr]
    split <;> rfl
  · intro k r hk hr
    rw [Table.find?_insert] at hr
    split at hr
    · rename_i hkey
      subst hkey
      obtain ⟨s, hs⟩ := Option.isSome_iff_exists.mp (hrow hk)
      rw [hs, Option.some.injEq] at hr
      subst hr
      exact h.tombstoned _ s hk hs
    · exact h.tombstoned k r hk hr

end

end Statements

/-! ## Operations on a removed participant -/

section Operations

variable {S : Set String} {t : MemberTable} {channelId : String} {kind : MemberKind} {a : String}

theorem classRemovalStamp_of_removed {b : String} (h : Removed S t channelId .agent a)
    (hgap : Ungapped S .agent a) (hb : b ∈ S)
    (hab : memberFoldKey .agent a = memberFoldKey .agent b) :
    (classRemovalStamp t channelId .agent b).isSome = true := by
  have hread : ∀ r, r ∈ matchMemberRows t (memberMatchParams channelId .agent b) ↔
      r ∈ t.rows ∧ OfParticipant channelId .agent a r.key := by
    intro r
    rw [mem_matchMemberRows]
    refine and_congr_right (fun hr => ?_)
    rw [matchesParams_iff_of_ungapped hgap (fun _ => hb) channelId r (h.ids r hr) (.inl hab),
      OfParticipant, OfParticipant, hab]
  have htomb : ∀ r ∈ matchMemberRows t (memberMatchParams channelId .agent b),
      r.removedAt.isSome = true := by
    intro r hr
    obtain ⟨hmem, hk⟩ := (hread r).mp hr
    exact h.tombstoned r.key r hk (t.find?_key hmem)
  obtain ⟨k, r, hk, hr⟩ := h.stored
  obtain ⟨hmem, rfl⟩ := (t.find?_eq_some_iff k r).mp hr
  have hrow := (hread r).mpr ⟨hmem, hk⟩
  unfold classRemovalStamp
  generalize matchMemberRows t (memberMatchParams channelId .agent b) = rows at htomb hrow
  have hnolive : rows.any (fun r => r.removedAt.isNone) = false := by
    rw [any_eq_false]
    intro s hs hnone
    have hsome := htomb s hs
    rw [Option.isNone_iff_eq_none] at hnone
    rw [hnone] at hsome
    cases hsome
  cases hfind : rows.find? (fun r => r.removedAt.isSome) with
  | none =>
    exact absurd (htomb r hrow) (find?_eq_none.mp hfind r hrow)
  | some removed =>
    have hsome : removed.removedAt.isSome = true := by simpa using find?_some hfind
    simp [hnolive, hfind, hsome]

section
variable (h : Removed S t channelId kind a)
include h

section
variable (hgap : Ungapped S kind a)
include hgap

theorem Removed.upsertMember
    (now : Timestamp) (input : MemberInput) (hid : input.kind = .agent → input.id ∈ S)
    (hspare : ¬ (kind = .human ∧
      OfParticipant channelId kind a (input.channelId, input.kind, input.id))) :
    Removed S (upsertMember t now input).1 channelId kind a := by
  refine h.upsert_inherit _ _ _ hid _ ?_ ?_
  · intro hk r hr hsome
    have hagent : r.memberKind ≠ .human := by
      intro hhuman
      have hkey : r.memberKind = input.kind := congrArg (fun k => k.2.1) hr
      exact hspare ⟨hk.2.1.symm.trans (hkey.symm.trans hhuman), hk⟩
    rw [if_neg hagent]
    exact hsome
  · intro hk
    cases hexisting : selectMemberExact t input.channelId input.kind input.id with
    | some row => exact .inr (Option.isSome_iff_exists.mpr ⟨row, hexisting⟩)
    | none =>
      left
      obtain ⟨hch, hkind, hfold⟩ := hk
      cases hkd : kind with
      | human => exact absurd ⟨hkd, hch, hkind, hfold⟩ hspare
      | agent =>
        subst hkd
        have hkind' : input.kind = .agent := hkind
        have hch' : input.channelId = channelId := hch
        rw [hkind', hch']
        exact classRemovalStamp_of_removed h hgap (hid hkind') hfold

theorem Removed.enrollBoundMember
    (now : Timestamp) (channelId' profileActorId : String) (hid : profileActorId ∈ S) :
    Removed S (enrollBoundMember t now channelId' profileActorId) channelId kind a := by
  refine h.upsert_inherit _ _ _ (fun _ => hid) _ ?_ ?_
  · intro _ r _ hsome
    exact hsome
  · intro hk
    left
    obtain ⟨hch, hkind, hfold⟩ := hk
    have hkind' : MemberKind.agent = kind := hkind
    have hch' : channelId' = channelId := hch
    subst hkind' hch'
    exact classRemovalStamp_of_removed h hgap hid hfold

theorem not_ofParticipant_of_matches (input : MemberInput) (hid : input.kind = .agent → input.id ∈ S)
    (hspare : ¬ OfParticipant channelId kind a (input.channelId, input.kind, input.id))
    {r : MemberRow} (hr : r ∈ matchMemberRows t
      (memberMatchParams input.channelId input.kind input.id)) :
    ¬ OfParticipant channelId kind a r.key := by
  intro hk
  obtain ⟨hmem, hmatch⟩ := (mem_matchMemberRows _ _ _).mp hr
  have hchannel : r.channelId = input.channelId := by
    have hm := hmatch
    simp only [matchesParams, Bool.and_eq_true, beq_iff_eq] at hm
    exact hm.1.1
  have hkind : r.memberKind = input.kind := by
    have hm := hmatch
    simp only [matchesParams, Bool.and_eq_true, beq_iff_eq] at hm
    exact hm.1.2
  have hsame : kind = input.kind := hk.2.1.symm.trans hkind
  subst hsame
  have hof := (matchesParams_iff_of_ungapped hgap hid input.channelId r (h.ids r hmem)
    (.inr hk.2.2)).mp hmatch
  exact hspare ⟨hchannel.symm.trans hk.1, rfl, hk.2.2.trans hof.2.2.symm⟩

theorem Removed.inviteMember
    (now : Timestamp) (input : MemberInput) (hid : input.kind = .agent → input.id ∈ S)
    (hspare : ¬ OfParticipant channelId kind a (input.channelId, input.kind, input.id)) :
    Removed S (inviteMember t now input).1 channelId kind a := by
  have hreadmit : Removed S (t.updateEach
      (matchMemberRows t (memberMatchParams input.channelId input.kind input.id))
      (fun _ r => r.readmit input.actor now) (fun _ r => key_readmit r _ _)) channelId kind a := by
    apply h.updateEach
    intro s hs r hk
    exact absurd hk (not_ofParticipant_of_matches h hgap input hid hspare hs)
  have hinsert : ∀ u, Removed S u channelId kind a →
      Removed S (upsertMemberRow u (input.newRow now)) channelId kind a := by
    intro u hu
    apply hu.upsert _ _ _ hid
    · intro hk
      exact absurd hk hspare
    · intro hk
      exact absurd hk hspare
  unfold Channel.inviteMember
  dsimp only
  split
  · exact h
  · split
    · split
      · exact hreadmit
      · exact hinsert _ hreadmit
    · exact hinsert t h

end

theorem Removed.removeMember (now : Timestamp)
    (input : MemberInput) : Removed S (removeMember t now input).1 channelId kind a := by
  unfold Channel.removeMember
  dsimp only
  split
  · exact h
  · apply h.updateEach
    intro s _ r _ _
    rfl

end

end Operations

/-! ## Backfill and repair -/

section Backfill

variable {S : Set String} {t : MemberTable} {channelId : String} {kind : MemberKind} {a : String}

/-- A stored row of the participant is a tombstone; raw inserts may have put live ones beside it. -/
structure Tombstoned (S : Set String) (t : MemberTable) (channelId a : String) : Prop where
  ids : StoredUnder S t
  tombstone : ∃ k r, OfParticipant channelId .agent a k ∧ t.find? k = some r ∧
    r.removedAt.isSome = true

theorem Removed.toTombstoned (h : Removed S t channelId .agent a) : Tombstoned S t channelId a := by
  obtain ⟨k, r, hk, hr⟩ := h.stored
  exact ⟨h.ids, k, r, hk, hr, h.tombstoned k r hk hr⟩

theorem Tombstoned.insertOrIgnore (h : Tombstoned S t channelId a) (rows : List MemberRow)
    (hids : ∀ r ∈ rows, r.memberKind = .agent → r.memberId ∈ S) :
    Tombstoned S (insertOrIgnore t rows) channelId a := by
  induction rows generalizing t with
  | nil => exact h
  | cons row rest ih =>
    apply ih
    · obtain ⟨k, r, hk, hr, hsome⟩ := h.tombstone
      refine ⟨h.ids.insert row (hids row mem_cons_self), k, r, hk, ?_, hsome⟩
      rw [Table.find?_insert, hr]
      split <;> rfl
    · intro r hr
      exact hids r (mem_cons_of_mem row hr)

theorem Removed.insertOrIgnore_human (h : Removed S t channelId .human a) (rows : List MemberRow)
    (hids : ∀ r ∈ rows, r.memberKind = .agent → r.memberId ∈ S) :
    Removed S (insertOrIgnore t rows) channelId .human a := by
  induction rows generalizing t with
  | nil => exact h
  | cons row rest ih =>
    apply ih
    · apply h.insert row (hids row mem_cons_self)
      intro hk
      obtain ⟨k, r, hk', hr⟩ := h.stored
      rw [hk.eq_of_human, ← hk'.eq_of_human, hr]
      rfl
    · intro r hr
      exact hids r (mem_cons_of_mem row hr)

theorem removedAt_repairRow (rows : List MemberRow) (s r : MemberRow)
    (h : r.removedAt.isSome = true) : (repairRow rows s r).removedAt.isSome = true := by
  unfold repairRow
  cases hb : bucketTombstone rows s with
  | none => exact h
  | some removed =>
    have hsome := find?_some hb
    rw [Bool.and_eq_true] at hsome
    exact hsome.2

theorem Removed.repair (h : Removed S t channelId kind a) :
    Removed S (repairRemovedMemberClasses t) channelId kind a := by
  apply h.updateEach
  intro s _ r _ hsome
  exact removedAt_repairRow _ s r hsome

variable (t : MemberTable)

theorem mem_repairRows (r : MemberRow) :
    r ∈ repairRows t ↔ r ∈ t.rows ∧ r.memberKind = .agent ∧
      ∃ s ∈ t.rows, s.channelId = r.channelId ∧ s.memberKind = .agent ∧
        s.removedAt.isSome = true := by
  simp [repairRows, and_assoc]

theorem rows_repairRemovedMemberClasses :
    (repairRemovedMemberClasses t).rows = t.rows.map (fun r =>
      if r ∈ (repairRows t).filter (fun r => r.removedAt.isNone)
      then repairRow (repairRows t) r r else r) := by
  apply Table.rows_updateEach_of_subset
  · apply List.Nodup.filter
    rw [repairRows, (perm_insertionSort removedOrder _).nodup_iff]
    exact t.rows_nodup.filter _
  · intro s hs
    exact ((mem_repairRows t s).mp (mem_of_mem_filter hs)).1

/-- **Repair**: one tombstone of an agent's class is enough to tombstone the class. -/
theorem Tombstoned.repair (h : Tombstoned S t channelId a) :
    Removed S (repairRemovedMemberClasses t) channelId .agent a := by
  obtain ⟨k, u, hk, hu, husome⟩ := h.tombstone
  obtain ⟨humem, rfl⟩ := (t.find?_eq_some_iff k u).mp hu
  -- every row is kept under its key
  have hkey : ∀ r : MemberRow, (if r ∈ (repairRows t).filter (fun r => r.removedAt.isNone)
      then repairRow (repairRows t) r r else r).key = r.key := by
    intro r
    split
    · unfold repairRow
      cases bucketTombstone (repairRows t) r <;> rfl
    · rfl
  have hmem : ∀ r, r ∈ (repairRemovedMemberClasses t).rows ↔ ∃ s ∈ t.rows,
      (if s ∈ (repairRows t).filter (fun r => r.removedAt.isNone)
        then repairRow (repairRows t) s s else s) = r := by
    intro r
    rw [rows_repairRemovedMemberClasses, mem_map]
  refine ⟨?_, ?_, ?_⟩
  · intro r hr
    obtain ⟨s, hs, rfl⟩ := (hmem r).mp hr
    have hs' := h.ids s hs
    have hk' := hkey s
    rw [MemberRow.key, Prod.mk.injEq, Prod.mk.injEq] at hk'
    rw [hk'.2.1, hk'.2.2]
    exact hs'
  · exact ⟨u.key, _, hk, (Table.find?_eq_some_iff _ _ _).mpr ⟨(hmem _).mpr ⟨u, humem, rfl⟩, hkey u⟩⟩
  · intro k r hkr hr
    obtain ⟨hrmem, rfl⟩ := (Table.find?_eq_some_iff _ k r).mp hr
    obtain ⟨s, hs, rfl⟩ := (hmem r).mp hrmem
    rw [hkey s] at hkr
    -- `s` lies in the bucket of the tombstone `u`
    have hload : s ∈ repairRows t := (mem_repairRows t s).mpr
      ⟨hs, hkr.2.1, u, humem, hk.1.trans hkr.1.symm, hk.2.1, husome⟩
    have huload : u ∈ repairRows t := (mem_repairRows t u).mpr
      ⟨humem, hk.2.1, u, humem, rfl, hk.2.1, husome⟩
    have hbucket : repairClassKey u = repairClassKey s := by
      rw [repairClassKey, repairClassKey, Prod.mk.injEq]
      exact ⟨hk.1.trans hkr.1.symm, hk.2.2.symm.trans hkr.2.2⟩
    split
    · unfold repairRow
      cases hb : bucketTombstone (repairRows t) s with
      | none =>
        have hno := find?_eq_none.mp hb u huload
        simp [hbucket, husome] at hno
      | some removed =>
        have hsome := find?_some hb
        rw [Bool.and_eq_true] at hsome
        exact hsome.2
    · rename_i hlive
      rw [mem_filter, not_and] at hlive
      have hsome := hlive hload
      rwa [Option.isNone_iff_eq_none, ← ne_eq, Option.ne_none_iff_isSome] at hsome

/-- The rows a backfill inserts name participants the transcript or a binding names. -/
theorem mem_backfillRows {sources : List BackfillSource} {r : MemberRow}
    (h : r ∈ backfillRows sources) : ∃ source ∈ sources, source.key = r.key := by
  obtain ⟨k, hk, rfl⟩ := mem_map.mp h
  rw [mem_dedup, mem_map] at hk
  exact hk

end Backfill

/-! ## Runs -/

/-- Every agent id of the store's tables lies in `S`. -/
structure MemberStore.Uses (S : Set String) (s : MemberStore) : Prop where
  members : StoredUnder S s.members
  messages : ∀ r ∈ s.messages, r.senderKind = .agent → r.senderId ∈ S
  bindings : ∀ r ∈ s.bindings.rows, r.profileActorId ∈ S

/-- Every agent id an operation writes lies in `S`. -/
def MemberOp.Uses (S : Set String) : MemberOp → Prop
  | .upsertMember _ input => input.kind = .agent → input.id ∈ S
  | .inviteMember _ input => input.kind = .agent → input.id ∈ S
  | .removeMember _ input => input.kind = .agent → input.id ∈ S
  | .appendMessage row => row.senderKind = .agent → row.senderId ∈ S
  | .upsertBinding _ input _ => input.profileActorId ∈ S
  | .designateSoleOrchestrator _ input _ => input.profileActorId ∈ S
  | .backfillMembership _ => True

/-- The operation does not admit the participant: no invite of any of its spellings, and for a
    human no write of its own. -/
def MemberOp.Spares (channelId : String) (kind : MemberKind) (a : String) : MemberOp → Prop
  | .inviteMember _ input =>
    ¬ OfParticipant channelId kind a (input.channelId, input.kind, input.id)
  | .upsertMember _ input =>
    ¬ (kind = .human ∧ OfParticipant channelId kind a (input.channelId, input.kind, input.id))
  | _ => True

/-- The participant is removed in a store that only uses ids of `S`. -/
structure RemovedIn (S : Set String) (s : MemberStore) (channelId : String) (kind : MemberKind)
    (a : String) : Prop where
  members : Removed S s.members channelId kind a
  messages : ∀ r ∈ s.messages, r.senderKind = .agent → r.senderId ∈ S
  bindings : ∀ r ∈ s.bindings.rows, r.profileActorId ∈ S

section Runs

variable {S : Set String} {s : MemberStore} {channelId : String} {kind : MemberKind} {a : String}

theorem RemovedIn.backfill (h : RemovedIn S s channelId kind a) (includeMessageSenders : Bool) :
    Removed S (backfillChannelMembership s includeMessageSenders).1 channelId kind a := by
  have hmessages : ∀ r ∈ backfillRows (s.messages.filterMap SenderRow.source?),
      r.memberKind = .agent → r.memberId ∈ S := by
    intro r hr hagent
    obtain ⟨source, hsource, hkey⟩ := mem_backfillRows hr
    obtain ⟨row, hrow, hs⟩ := mem_filterMap.mp hsource
    have hid := h.messages row hrow
    unfold SenderRow.source? at hs
    cases hkind : row.senderKind with
    | human =>
      simp only [hkind, Option.some.injEq] at hs
      subst hs
      have hk : MemberKind.human = r.memberKind := congrArg (fun k => k.2.1) hkey
      rw [hagent] at hk
      cases hk
    | agent =>
      simp only [hkind, Option.some.injEq] at hs
      subst hs
      have hk : row.senderId = r.memberId := congrArg (fun k => k.2.2) hkey
      exact hk ▸ hid hkind
    | system => simp [hkind] at hs
  have hbindings : ∀ r ∈ backfillRows (s.bindings.rows.map BindingRow.source),
      r.memberKind = .agent → r.memberId ∈ S := by
    intro r hr _
    obtain ⟨source, hsource, hkey⟩ := mem_backfillRows hr
    obtain ⟨row, hrow, rfl⟩ := mem_map.mp hsource
    have hk : row.profileActorId = r.memberId := congrArg (fun k => k.2.2) hkey
    exact hk ▸ h.bindings row hrow
  have hm := h.members
  cases kind with
  | human =>
    apply Removed.repair
    apply Removed.insertOrIgnore_human _ _ hbindings
    split
    · exact hm.insertOrIgnore_human _ hmessages
    · exact hm
  | agent =>
    apply Tombstoned.repair
    apply Tombstoned.insertOrIgnore _ _ hbindings
    split
    · exact hm.toTombstoned.insertOrIgnore _ hmessages
    · exact hm.toTombstoned

theorem bindings_writeBinding (h : ∀ r ∈ s.bindings.rows, r.profileActorId ∈ S) (now : Timestamp)
    (input : BindingInput) (hid : input.profileActorId ∈ S) :
    ∀ r ∈ (writeBinding s.bindings now input).rows, r.profileActorId ∈ S := by
  intro r hr
  have hfind := Table.find?_key _ hr
  unfold writeBinding at hfind
  rw [Table.find?_upsert] at hfind
  split at hfind
  · rename_i hkey
    have hp : input.profileActorId = r.profileActorId := congrArg (fun k => k.2.2) hkey
    exact hp ▸ hid
  · exact h r ((Table.find?_eq_some_iff _ _ _).mp hfind).1

theorem RemovedIn.writeAndEnroll (h : RemovedIn S s channelId kind a) (hgap : Ungapped S kind a)
    (now : Timestamp) (input written : BindingInput) (mirrored : Bool)
    (hid : input.profileActorId ∈ S) (hwritten : written.profileActorId ∈ S) :
    RemovedIn S (MemberStore.enroll { s with bindings := writeBinding s.bindings now written }
      now input mirrored) channelId kind a := by
  have hbindings := bindings_writeBinding h.bindings now written hwritten
  unfold MemberStore.enroll
  split
  · exact ⟨h.members.enrollBoundMember hgap now _ _ hid, h.messages, hbindings⟩
  · exact ⟨h.members, h.messages, hbindings⟩

theorem RemovedIn.step (h : RemovedIn S s channelId kind a) (hgap : Ungapped S kind a)
    (op : MemberOp) (huses : op.Uses S) (hspare : op.Spares channelId kind a) :
    RemovedIn S (s.step op) channelId kind a := by
  cases op with
  | upsertMember now input =>
    exact ⟨h.members.upsertMember hgap now input huses hspare, h.messages, h.bindings⟩
  | inviteMember now input =>
    exact ⟨h.members.inviteMember hgap now input huses hspare, h.messages, h.bindings⟩
  | removeMember now input =>
    exact ⟨h.members.removeMember now input, h.messages, h.bindings⟩
  | appendMessage row =>
    refine ⟨h.members, ?_, h.bindings⟩
    intro r hr
    rcases mem_append.mp hr with hold | hnew
    · exact h.messages r hold
    · rw [mem_singleton.mp hnew]
      exact huses
  | upsertBinding now input mirrored =>
    show RemovedIn S (s.upsertBinding now input mirrored) channelId kind a
    unfold MemberStore.upsertBinding
    split
    · exact h
    · exact h.writeAndEnroll hgap now input input mirrored huses huses
  | designateSoleOrchestrator now input mirrored =>
    show RemovedIn S (s.designateSoleOrchestrator now input mirrored) channelId kind a
    unfold MemberStore.designateSoleOrchestrator
    split
    · split
      · exact h
      · exact h.writeAndEnroll hgap now input _ mirrored huses huses
    · exact h.writeAndEnroll hgap now input _ mirrored huses huses
  | backfillMembership includeMessageSenders =>
    exact ⟨h.backfill includeMessageSenders, h.messages, h.bindings⟩

theorem removedIn_removeMember (hs : s.Uses S) (hgap : Ungapped S kind a)
    (ha : kind = .agent → a ∈ S) (now : Timestamp) (removedBy : Option String) (metadata : String)
    (hstored : ∃ r ∈ s.members.rows, OfParticipant channelId kind a r.key) :
    RemovedIn S (s.step (.removeMember now ⟨channelId, kind, a, removedBy, metadata⟩))
      channelId kind a := by
  have hkey : ∀ r : MemberRow, (if matchesParams (memberMatchParams channelId kind a) r = true ∧
      r.removedAt = none then r.tombstone now removedBy else r).key = r.key := by
    intro r
    split <;> rfl
  have hrows := rows_removeMember s.members now ⟨channelId, kind, a, removedBy, metadata⟩
  refine ⟨⟨?_, ?_, ?_⟩, hs.messages, hs.bindings⟩
  · intro r hr
    change r ∈ (removeMember s.members now ⟨channelId, kind, a, removedBy, metadata⟩).1.rows at hr
    rw [hrows, mem_map] at hr
    obtain ⟨u, hu, rfl⟩ := hr
    have hk := hkey u
    rw [MemberRow.key, Prod.mk.injEq, Prod.mk.injEq] at hk
    rw [hk.2.1, hk.2.2]
    exact hs.members u hu
  · obtain ⟨u, hu, hof⟩ := hstored
    refine ⟨u.key, _, hof, (Table.find?_eq_some_iff _ _ _).mpr ⟨?_, hkey u⟩⟩
    change _ ∈ (removeMember s.members now ⟨channelId, kind, a, removedBy, metadata⟩).1.rows
    rw [hrows, mem_map]
    exact ⟨u, hu, rfl⟩
  · intro k r hk hr
    obtain ⟨hmem, rfl⟩ := (Table.find?_eq_some_iff _ k r).mp hr
    change r ∈ (removeMember s.members now ⟨channelId, kind, a, removedBy, metadata⟩).1.rows at hmem
    rw [hrows, mem_map] at hmem
    obtain ⟨u, hu, rfl⟩ := hmem
    rw [hkey u] at hk
    have hmatch := (matchesParams_iff_of_ungapped hgap ha channelId u (hs.members u hu)
      (.inl rfl)).mpr hk
    split
    · rfl
    · rename_i hlive
      rw [not_and] at hlive
      exact Option.ne_none_iff_isSome.mp (hlive hmatch)

end Runs

/-- **Removal sticks**: after a removal that found a stored row, a participant whose spellings
    in use form no gap stays out under every spelling, whatever the implicit writers do, until
    somebody invites it or, for a human, until its own next write. -/
theorem removal_sticks (S : Set String) (s : MemberStore) (channelId : String)
    (kind : MemberKind) (a : String) (now : Timestamp) (removedBy : Option String)
    (metadata : String) (ops : List MemberOp)
    (hs : s.Uses S) (ha : kind = .agent → a ∈ S) (hgap : Ungapped S kind a)
    (hstored : ∃ r ∈ s.members.rows, OfParticipant channelId kind a r.key)
    (huses : ∀ op ∈ ops, op.Uses S) (hspare : ∀ op ∈ ops, op.Spares channelId kind a) :
    ∀ later, later <+: ops → ∀ b, (kind = .agent → b ∈ S) →
      memberFoldKey kind a = memberFoldKey kind b →
      isMember (exec MemberStore.step
        (s.step (.removeMember now ⟨channelId, kind, a, removedBy, metadata⟩)) later).members
        channelId kind b = false := by
  intro later hlater b hb hab
  have hbase := removedIn_removeMember hs hgap ha now removedBy metadata hstored
  have hstep : ∀ u op, RemovedIn S u channelId kind a → (op.Uses S ∧ op.Spares channelId kind a) →
      RemovedIn S (u.step op) channelId kind a :=
    fun u op h hop => h.step hgap op hop.1 hop.2
  have hguard : Guarded MemberStore.step (fun _ op => op.Uses S ∧ op.Spares channelId kind a)
      (s.step (.removeMember now ⟨channelId, kind, a, removedBy, metadata⟩)) later := by
    apply guarded_of_forall
    intro op hop _
    exact ⟨huses op (hlater.subset hop), hspare op (hlater.subset hop)⟩
  exact isMember_eq_false_of_removed (exec_invariant_of_guarded hstep hbase hguard).members
    hgap hb hab

/-- A store whose only row is a live member of the channel `room`. -/
def storeWithMember (kind : MemberKind) (id : String) : MemberStore :=
  { members := Table.empty.insert
      { channelId := "room", memberKind := kind, memberId := id, joinedAt := 1,
        metadataJson := "{}", invitedBy := none, removedAt := none, removedBy := none }
    messages := []
    bindings := Table.empty }

/-- A removed profile agent posts under its prefixed spelling, is bound again, and the server
    reopens. -/
theorem removal_sticks_for_profile_agent :
    isMember (exec MemberStore.step
      ((storeWithMember .agent "agent-profile:codex:team").step
        (.removeMember 2 ⟨"room", .agent, "agent-profile:codex:team", some "human:operator", "{}"⟩))
      [.appendMessage ⟨"room", .agent, "agent:agent-profile:codex:team", 3⟩,
        .upsertMember 3 ⟨"room", .agent, "agent:agent-profile:codex:team", none, "{}"⟩,
        .upsertBinding 4 ⟨"room", none, "agent-profile:codex:team", none⟩ false,
        .backfillMembership true]).members "room" .agent "agent:agent-profile:codex:team" =
      false := by
  have hcanon : ∀ b ∈ ({"agent-profile:codex:team", "agent:agent-profile:codex:team"} : Set String),
      hasPrefix agentProfileIdPrefix (canonicalChannelMemberId b) = true := by
    rintro b (rfl | rfl) <;> decide
  refine removal_sticks {"agent-profile:codex:team", "agent:agent-profile:codex:team"}
    (storeWithMember .agent "agent-profile:codex:team") "room" .agent "agent-profile:codex:team"
    2 (some "human:operator") "{}" _ ?_ ?_ ?_ ?_ ?_ ?_ _ (prefix_refl _) _ ?_ ?_
  · refine ⟨?_, by simp [storeWithMember], by simp [storeWithMember]⟩
    intro r hr _
    have hrow : r.memberId = "agent-profile:codex:team" := by
      change r ∈ [_] at hr
      rw [mem_singleton.mp hr]
    rw [hrow]
    exact .inl rfl
  · intro _
    exact .inl rfl
  · intro _ b hb c _ _
    exact not_gap_of_profile b c (hcanon b hb)
  · exact ⟨_, mem_singleton.mpr rfl, by decide⟩
  · simp [MemberOp.Uses]
  · simp [MemberOp.Spares]
  · intro _
    exact .inr rfl
  · decide

/-- Two removals that do not stick by design: a human that writes again, and an agent of which
    no row was stored to carry the tombstone. -/
theorem removal_does_not_bind_humans_and_strangers :
    isMember (exec MemberStore.step (storeWithMember .human "human:kim")
      [.removeMember 2 ⟨"room", .human, "human:kim", some "human:operator", "{}"⟩,
        .upsertMember 3 ⟨"room", .human, "human:kim", none, "{}"⟩]).members
      "room" .human "human:kim" = true ∧
    isMember (exec MemberStore.step (storeWithMember .human "human:kim")
      [.removeMember 2 ⟨"room", .agent, "codex", some "human:operator", "{}"⟩,
        .upsertMember 3 ⟨"room", .agent, "codex", none, "{}"⟩]).members
      "room" .agent "codex" = true := by
  decide

end RelayIde.Channel
