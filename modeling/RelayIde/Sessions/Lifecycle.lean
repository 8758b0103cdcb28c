import RelayIde.Sessions.Registry

/-!
# The Life of a Scoped Session

What the registry keeps over runs: a valid session is the only one of its name, a revoked one stays
revoked, and reports of a node do not take back what a renewal gave.

- `lifecycle_of_run` — whole runs
-/

namespace RelayIde.Sessions

open RelayIde.Library RelayIde.Security List

/-! ## Valid sessions -/

variable {r record : SessionEnvelopeRecord} {sessionId expiresAt : String} {nodeId : Option String}
  {now : ℤ} {context : ValidationContext} {op : Op}

section Validation

variable {dates : Dates} {records : Registry}

/-- Every record is named after its node and its session. -/
def AllScoped (records : Registry) : Prop := ∀ r ∈ records.rows, r.envelope.IsScoped

theorem joined_of_isScoped {envelope : SessionEnvelope} (h : envelope.IsScoped) :
    envelope.globalSessionId = Percent.joined envelope.nodeId envelope.sessionId := by
  unfold SessionEnvelope.IsScoped createGlobalSessionId at h
  split at h
  · cases h
  · exact (Option.some.inj h).symm

theorem AllScoped.eq_of_names (h : AllScoped records) {s : SessionEnvelopeRecord}
    (hr : r ∈ records.rows) (hs : s ∈ records.rows) (hnode : r.envelope.nodeId = s.envelope.nodeId)
    (hsession : r.envelope.sessionId = s.envelope.sessionId) : r = s := by
  refine records.eq_of_key_eq hr hs ?_
  unfold SessionEnvelopeRecord.key
  rw [joined_of_isScoped (h r hr), joined_of_isScoped (h s hs), hnode, hsession]

theorem AllScoped.key_ne (h : AllScoped records)
    (hr : r ∈ records.rows) : r.key ≠ r.envelope.sessionId := by
  unfold SessionEnvelopeRecord.key
  rw [joined_of_isScoped (h r hr)]
  exact Percent.joined_ne _ _

theorem mem_of_find? {k : String} (h : records.find? k = some r) : r ∈ records.rows ∧ r.key = k :=
  (records.find?_eq_some_iff _ _).mp h

theorem mem_of_readRecord (h : readRecord records sessionId nodeId = some r) :
    r ∈ records.rows := by
  unfold readRecord at h
  split at h
  · obtain h | ⟨-, h⟩ := Option.or_eq_some_iff.mp h
    · exact (mem_of_find? h).1
    · exact mem_of_find?_eq_some h
  · obtain h | ⟨-, h⟩ := Option.or_eq_some_iff.mp h
    · exact (mem_of_find? h).1
    · exact mem_of_find?_eq_some h

/-- A session that may be used, and the only one the request can mean. -/
structure ValidFor (dates : Dates) (records : Registry) (context : ValidationContext) (now : ℤ)
    (record : SessionEnvelopeRecord) : Prop where
  mem : record ∈ records.rows
  session : record.envelope.sessionId = context.sessionId
  node : ∀ nodeId, truthy context.nodeId = some nodeId → record.envelope.nodeId = nodeId
  globalId : ∀ globalId, truthy context.globalSessionId = some globalId →
    record.envelope.globalSessionId = globalId
  unrevoked : truthy record.revokedAt = none
  unexpired : ∀ ms, parseExpiryMs dates record.envelope.expiresAt = some ms → (now : WithBot ℤ) < ms
  only : ∀ other ∈ records.rows, other.envelope.sessionId = context.sessionId →
    (∀ nodeId, truthy context.nodeId = some nodeId → other.envelope.nodeId = nodeId) →
    other = record

theorem unrevoked_of_active (h : lifecycleState dates record now = .active) :
    truthy record.revokedAt = none ∧
      ∀ ms, parseExpiryMs dates record.envelope.expiresAt = some ms → (now : WithBot ℤ) < ms := by
  unfold lifecycleState at h
  split at h
  · cases h
  · rename_i hrevoked
    refine ⟨by simpa using hrevoked, fun ms hms => ?_⟩
    rw [hms] at h
    simp only at h
    split at h
    · cases h
    · rename_i hlt
      exact not_le.mp hlt

theorem eq_of_length_le_one {α : Type} {l : List α} (h : l.length ≤ 1) {a b : α} (ha : a ∈ l)
    (hb : b ∈ l) : a = b := by
  cases l with
  | nil => cases ha
  | cons c l =>
    obtain rfl : l = [] := length_eq_zero_iff.mp (Nat.le_zero.mp (Nat.le_of_succ_le_succ h))
    exact (mem_singleton.mp ha).trans (mem_singleton.mp hb).symm

theorem validate_ok (hscoped : AllScoped records)
    (h : validate dates records context now = .ok record) :
    ValidFor dates records context now record := by
  unfold validate at h
  simp only at h
  split at h
  · cases h
  rename_i hambiguous
  split at h
  · split at h <;> cases h
  rename_i found hfound
  split at h
  · cases h
  rename_i hnode
  split at h
  · cases h
  rename_i hsession
  split at h
  · cases h
  rename_i hglobal
  split at h
  · cases h
  · cases h
  rename_i hactive
  obtain rfl : found = record := Except.ok.inj h
  have hmem := mem_of_readRecord hfound
  have hsession : found.envelope.sessionId = context.sessionId := not_not.mp hsession
  obtain ⟨hunrevoked, hunexpired⟩ := unrevoked_of_active hactive
  refine ⟨hmem, hsession, ?_, ?_, hunrevoked, hunexpired, ?_⟩
  · intro nodeId hnodeId
    by_contra hne
    exact hnode ⟨nodeId, hnodeId, hne⟩
  · intro globalId hglobalId
    rw [hglobalId] at hglobal
    by_contra hne
    simp [Ne.symm hne] at hglobal
  · intro other hother hothersession hothernode
    cases hgiven : truthy context.nodeId with
    | some nodeId =>
      have hfoundnode : found.envelope.nodeId = nodeId := by
        by_contra hne
        exact hnode ⟨nodeId, hgiven, hne⟩
      exact hscoped.eq_of_names hother hmem ((hothernode nodeId hgiven).trans hfoundnode.symm)
        (hothersession.trans hsession.symm)
    | none =>
      -- The session id is no global id, so the records were counted.
      have hnone : records.find? context.sessionId = none := by
        by_contra hsome
        obtain ⟨direct, hdirect⟩ := Option.ne_none_iff_exists'.mp hsome
        obtain rfl : direct = found := by
          unfold readRecord at hfound
          rw [hgiven, hdirect] at hfound
          exact Option.some.inj hfound
        exact hscoped.key_ne hmem ((mem_of_find? hdirect).2.trans hsession.symm)
      have hcount : countLocalSessionId records context.sessionId ≤ 1 := by
        by_contra hmany
        exact hambiguous ⟨hgiven, hnone, not_le.mp hmany⟩
      have hin {r : SessionEnvelopeRecord} (hr : r ∈ records.rows)
          (hid : r.envelope.sessionId = context.sessionId) :
          r ∈ records.rows.filter fun record => record.envelope.sessionId = context.sessionId :=
        mem_filter.mpr ⟨hr, decide_eq_true hid⟩
      exact eq_of_length_le_one hcount (hin hother hothersession) (hin hmem hsession)

end Validation

/-! ## Steps -/

section Steps

variable {dates : Dates} {records : Registry}

def SameIds (e e' : SessionEnvelope) : Prop :=
  e.sessionId = e'.sessionId ∧ e.nodeId = e'.nodeId ∧ e.globalSessionId = e'.globalSessionId

theorem sameIds_preserveRenewedExpiry (dates : Dates) (previous incoming : SessionEnvelope) :
    SameIds (preserveRenewedExpiry dates previous incoming) incoming := by
  unfold preserveRenewedExpiry
  split
  · split
    · split
      · split <;> exact ⟨rfl, rfl, rfl⟩
      · exact ⟨rfl, rfl, rfl⟩
    · exact ⟨rfl, rfl, rfl⟩
  · exact ⟨rfl, rfl, rfl⟩

theorem SameIds.isScoped {e e' : SessionEnvelope} (h : SameIds e e') (h' : e'.IsScoped) :
    e.IsScoped := by
  unfold SessionEnvelope.IsScoped at *
  rw [h.1, h.2.1, h.2.2, h']

theorem mem_of_toRevoke (h : toRevoke records sessionId nodeId = some r) : r ∈ records.rows := by
  unfold toRevoke at h
  split at h
  · exact mem_of_readRecord h
  · exact (mem_of_find? h).1

theorem toRenew_ok {expiryMs : ℤ}
    (h : toRenew dates records sessionId nodeId expiresAt now = .ok (record, expiryMs)) :
    validate dates records { sessionId, nodeId := truthy nodeId } now = .ok record ∧
      dates.parse expiresAt = some expiryMs ∧ now < expiryMs := by
  unfold toRenew at h
  split at h
  · cases h
  rename_i found hfound
  split at h
  · cases h
  split at h
  · cases h
  rename_i ms hms
  injection h with h
  injection h with hrecord hexpiry
  subst hrecord hexpiry
  obtain ⟨hparse, hlt⟩ := Option.filter_eq_some_iff.mp hms
  exact ⟨hfound, hparse, of_decide_eq_true hlt⟩

theorem mem_of_validate
    (h : validate dates records context now = .ok record) : record ∈ records.rows := by
  unfold validate at h
  simp only at h
  split at h
  · cases h
  split at h
  · split at h <;> cases h
  rename_i found hfound
  split_ifs at h
  split at h
  · cases h
  split at h <;> cases h
  exact mem_of_readRecord hfound

/-- A record is revoked at some time, if at all. -/
def Dated (r : SessionEnvelopeRecord) : Prop := r.revokedAt ≠ some ""

theorem dated_revokeRecord (dates : Dates) (reason : Option String) (now : ℤ) (h : Dated r) : Dated
    (revokeRecord dates reason now r) := by
  unfold Dated revokeRecord at *
  cases hr : r.revokedAt with
  | none => simpa using dates.toISOString_ne now
  | some text => simpa [hr] using h

/-- Every record stood before, or comes from the envelope. -/
theorem mem_step (hr : r ∈ (step dates records op).rows) :
    ((∃ s ∈ records.rows, SameIds r.envelope s.envelope) ∨
      ∃ envelope, (op = .create envelope ∨ op = .upsert envelope) ∧ SameIds r.envelope envelope) ∧
    ((∀ s ∈ records.rows, Dated s) → Dated r) := by
  have hsame {s : SessionEnvelopeRecord} (hs : s ∈ records.rows) :
      ∃ s' ∈ records.rows, SameIds s.envelope s'.envelope := ⟨s, hs, rfl, rfl, rfl⟩
  have hold (hr : r ∈ records.rows) :
      ((∃ s ∈ records.rows, SameIds r.envelope s.envelope) ∨
        ∃ envelope, (op = .create envelope ∨ op = .upsert envelope) ∧
          SameIds r.envelope envelope) ∧
      ((∀ s ∈ records.rows, Dated s) → Dated r) :=
    ⟨.inl (hsame hr), fun h => h r hr⟩
  cases op with
  | create envelope =>
    obtain rfl | ⟨hs, -⟩ := Table.mem_set.mp hr
    · exact ⟨.inr ⟨envelope, .inl rfl, rfl, rfl, rfl⟩, fun _ => by simp [Dated]⟩
    · exact hold hs
  | upsert envelope =>
    simp only [step, upsert] at hr
    split at hr
    · rename_i previous hprevious
      obtain rfl | ⟨hs, -⟩ := Table.mem_set.mp hr
      · refine ⟨.inr ⟨envelope, .inr rfl, ?_⟩, fun h => h previous (mem_of_find? hprevious).1⟩
        exact sameIds_preserveRenewedExpiry dates _ envelope
      · exact hold hs
    · obtain rfl | ⟨hs, -⟩ := Table.mem_set.mp hr
      · exact ⟨.inr ⟨envelope, .inr rfl, rfl, rfl, rfl⟩, fun _ => by simp [Dated]⟩
      · exact hold hs
  | renew sessionId nodeId expiresAt now =>
    simp only [step, renew] at hr
    split at hr
    · exact hold hr
    · rename_i record expiryMs hrenew
      have hmem := mem_of_validate (toRenew_ok hrenew).1
      obtain rfl | ⟨hs, -⟩ := Table.mem_set.mp hr
      · exact ⟨.inl ⟨record, hmem, rfl, rfl, rfl⟩, fun h => h record hmem⟩
      · exact hold hs
  | revoke sessionId nodeId reason now =>
    simp only [step, revoke] at hr
    split at hr
    · rename_i record hrecord
      have hmem := mem_of_toRevoke hrecord
      obtain rfl | ⟨hs, -⟩ := Table.mem_set.mp hr
      · exact ⟨.inl ⟨record, hmem, rfl, rfl, rfl⟩,
          fun h => dated_revokeRecord dates reason now (h record hmem)⟩
      · exact hold hs
    · exact hold hr
  | revokeForNode nodeId reason now =>
    obtain ⟨s, hs, rfl⟩ := mem_map.mp hr
    split
    · exact ⟨.inl ⟨s, hs, rfl, rfl, rfl⟩, fun h => dated_revokeRecord dates reason now (h s hs)⟩
    · exact ⟨.inl (hsame hs), fun h => h s hs⟩
  | delete sessionId nodeId =>
    simp only [step, delete] at hr
    split at hr
    · exact hold (mem_filter.mp hr).1
    · exact hold hr
  | validate context now | list options now => exact hold hr

/-- What holds of the records after every run. -/
structure Inv (records : Registry) : Prop where
  named : AllScoped records
  dated : ∀ r ∈ records.rows, Dated r

theorem inv_step (h : Inv records) (hop : op.IsScoped) : Inv (step dates records op) where
  named := fun r hr => by
    obtain ⟨s, hs, hids⟩ | ⟨envelope, hop', hids⟩ := (mem_step hr).1
    · exact hids.isScoped (h.named s hs)
    · obtain rfl | rfl := hop'
      · exact hids.isScoped hop
      · exact hids.isScoped hop
  dated := fun _ hr => (mem_step hr).2 h.dated

/-! The record of one session. -/

def Spares (key : String) (records : Registry) : Op → Prop
  | .create envelope => envelope.globalSessionId ≠ key
  | .delete sessionId nodeId => ∀ r, readRecord records sessionId nodeId = some r → r.key ≠ key
  | _ => True

inductive RecordStep (dates : Dates) (op : Op) (before : SessionEnvelopeRecord) :
    SessionEnvelopeRecord → Prop
  | same : RecordStep dates op before before
  | upserted (envelope : SessionEnvelope) (hop : op = .upsert envelope)
      (hkey : envelope.globalSessionId = before.key) :
      RecordStep dates op before
        { before with envelope := preserveRenewedExpiry dates before.envelope envelope }
  | renewed (sessionId : String) (nodeId : Option String) (expiresAt : String) (now expiryMs : ℤ)
      (hop : op = .renew sessionId nodeId expiresAt now)
      (hparse : dates.parse expiresAt = some expiryMs) :
      RecordStep dates op before { before with
        envelope := { before.envelope with expiresAt := some (dates.toISOString expiryMs) } }
  | revoked (reason : Option String) (now : ℤ) (hop : (∃ sessionId nodeId,
      op = .revoke sessionId nodeId reason now) ∨ ∃ nodeId, op = .revokeForNode nodeId reason now) :
      RecordStep dates op before (revokeRecord dates reason now before)

variable (dates) in
theorem recordStep {key : String} (hspares : Spares key records op)
    {before : SessionEnvelopeRecord} (hbefore : records.find? key = some before) :
    ∃ after, (step dates records op).find? key = some after ∧ RecordStep dates op before after := by
  have hkey : before.key = key := (mem_of_find? hbefore).2
  have hset (r : SessionEnvelopeRecord) (hne : r.key ≠ key) :
      (records.set r).find? key = some before := by
    rw [Table.find?_set, if_neg hne, hbefore]
  have hself (r : SessionEnvelopeRecord) (heq : r.key = key) :
      (records.set r).find? key = some r := by
    rw [Table.find?_set, if_pos heq]
  have hmember {r : SessionEnvelopeRecord} (hr : r ∈ records.rows) (heq : r.key = key) :
      r = before :=
    records.eq_of_key_eq hr (mem_of_find? hbefore).1 (heq.trans hkey.symm)
  cases op with
  | create envelope => exact ⟨before, hset _ hspares, .same⟩
  | upsert envelope =>
    simp only [step, upsert]
    by_cases heq : envelope.globalSessionId = key
    · rw [heq, hbefore]
      refine ⟨_, hself _ ?_, .upserted envelope rfl (heq.trans hkey.symm)⟩
      exact (sameIds_preserveRenewedExpiry dates _ envelope).2.2.trans heq
    · refine ⟨before, ?_, .same⟩
      split
      · exact hset _ ((sameIds_preserveRenewedExpiry dates _ envelope).2.2.trans_ne heq)
      · exact hset _ heq
  | renew sessionId nodeId expiresAt now =>
    simp only [step, renew]
    split
    · exact ⟨before, hbefore, .same⟩
    · rename_i record expiryMs hrenew
      obtain ⟨hvalid, hparse, -⟩ := toRenew_ok hrenew
      by_cases heq : record.key = key
      · obtain rfl := hmember (mem_of_validate hvalid) heq
        exact ⟨_, hself _ heq, .renewed sessionId nodeId expiresAt now expiryMs rfl hparse⟩
      · exact ⟨before, hset _ heq, .same⟩
  | revoke sessionId nodeId reason now =>
    simp only [step, revoke]
    split
    · rename_i record hrecord
      by_cases heq : record.key = key
      · obtain rfl := hmember (mem_of_toRevoke hrecord) heq
        exact ⟨_, hself _ heq, .revoked reason now (.inl ⟨sessionId, nodeId, rfl⟩)⟩
      · exact ⟨before, hset _ heq, .same⟩
    · exact ⟨before, hbefore, .same⟩
  | revokeForNode nodeId reason now =>
    have hfind : (step dates records (.revokeForNode nodeId reason now)).find? key = _ :=
      records.find?_updateWhere (isRevokedForNode dates nodeId now)
        (revokeRecord dates reason now) (fun _ => rfl) key
    rw [hfind, hbefore, Option.map_some]
    by_cases hrevoked : isRevokedForNode dates nodeId now before = true
    · rw [if_pos hrevoked]
      exact ⟨_, rfl, .revoked reason now (.inr ⟨nodeId, rfl⟩)⟩
    · rw [if_neg hrevoked]
      exact ⟨_, rfl, .same⟩
  | delete sessionId nodeId =>
    simp only [step, delete]
    split
    · rename_i found hfound
      have hne : before.key ≠ found.key := fun heq => hspares found hfound (heq.symm.trans hkey)
      refine ⟨before, ?_, .same⟩
      simp [Table.find?_deleteWhere, hbefore, hne]
    · exact ⟨before, hbefore, .same⟩
  | validate context now | list options now => exact ⟨before, hbefore, .same⟩

end Steps

/-! ## Revocation -/

section Revocation

variable {dates : Dates} {records : Registry} {key : String}

def RevokedIn (records : Registry) (key : String) : Prop :=
  ∃ r, records.find? key = some r ∧ (truthy r.revokedAt).isSome = true

def Revokes (dates : Dates) (records : Registry) (key : String) : Op → Prop
  | .revoke sessionId nodeId _ _ => ∃ r, toRevoke records sessionId nodeId = some r ∧ r.key = key
  | .revokeForNode nodeId _ now =>
    ∃ r, records.find? key = some r ∧ isRevokedForNode dates nodeId now r = true
  | _ => False

theorem truthy_revokeRecord (dates : Dates) (reason : Option String) (now : ℤ) (h : Dated r) :
    (truthy (revokeRecord dates reason now r).revokedAt).isSome = true := by
  have hdated := dated_revokeRecord dates reason now h
  unfold Dated at hdated
  cases hr : (revokeRecord dates reason now r).revokedAt with
  | none => simp [revokeRecord] at hr
  | some text =>
    rw [hr] at hdated
    simpa [truthy] using hdated

theorem revokedIn_of_revokes (h : Inv records) (hop : Revokes dates records key op) :
    RevokedIn (step dates records op) key := by
  cases op with
  | revoke sessionId nodeId reason now =>
    obtain ⟨r, hr, hkey⟩ := hop
    refine ⟨revokeRecord dates reason now r, ?_, ?_⟩
    · simp only [step, revoke, hr]
      have hkey' : (revokeRecord dates reason now r).key = key := hkey
      rw [Table.find?_set, if_pos hkey']
    · exact truthy_revokeRecord dates reason now (h.dated r (mem_of_toRevoke hr))
  | revokeForNode nodeId reason now =>
    obtain ⟨r, hr, hrevoked⟩ := hop
    refine ⟨revokeRecord dates reason now r, ?_, ?_⟩
    · have hfind : (step dates records (.revokeForNode nodeId reason now)).find? key = _ :=
        records.find?_updateWhere (isRevokedForNode dates nodeId now)
          (revokeRecord dates reason now) (fun _ => rfl) key
      rw [hfind, hr, Option.map_some, if_pos hrevoked]
    · exact truthy_revokeRecord dates reason now (h.dated r (mem_of_find? hr).1)
  | _ => exact hop.elim

/-- A revocation lasts through every operation that spares it. -/
theorem revokedIn_step (hspares : Spares key records op) (h : RevokedIn records key) :
    RevokedIn (step dates records op) key := by
  obtain ⟨r, hr, hrevoked⟩ := h
  obtain ⟨after, hafter, hstep⟩ := recordStep dates hspares hr
  refine ⟨after, hafter, ?_⟩
  cases hstep with
  | same | upserted envelope | renewed => exact hrevoked
  | revoked reason now =>
    cases hr : r.revokedAt with
    | none => simp [hr, truthy] at hrevoked
    | some text => simpa [revokeRecord, hr] using hrevoked

variable (dates) in
theorem RevokedIn.lifecycleState (h : RevokedIn records key)
    (hr : r ∈ records.rows) (hkey : r.key = key) (now : ℤ) :
    lifecycleState dates r now = .revoked := by
  obtain ⟨s, hs, hrevoked⟩ := h
  obtain rfl : r = s :=
    records.eq_of_key_eq hr (mem_of_find? hs).1 (hkey.trans (mem_of_find? hs).2.symm)
  unfold Sessions.lifecycleState
  rw [if_pos hrevoked]

structure Gone (dates : Dates) (records : Registry) (key : String) : Prop where
  invalid : ∀ context now record, validate dates records context now = .ok record →
    record.key ≠ key
  unlisted : ∀ now, ∀ envelope ∈ listActive dates records now, envelope.globalSessionId ≠ key
  inactive : ∀ options now, ∀ summary ∈ listSummaries dates records options now,
    summary.envelope.globalSessionId = key → summary.status ≠ .active

theorem RevokedIn.gone (hinv : Inv records) (h : RevokedIn records key) :
    Gone dates records key where
  invalid := fun context now record hvalid hkey => by
    have hvalid := validate_ok hinv.named hvalid
    obtain ⟨s, hs, hrevoked⟩ := h
    obtain rfl : record = s :=
      records.eq_of_key_eq hvalid.mem (mem_of_find? hs).1 (hkey.trans (mem_of_find? hs).2.symm)
    simp [hvalid.unrevoked] at hrevoked
  unlisted := fun now envelope henvelope hkey => by
    obtain ⟨r, hr, rfl⟩ := mem_map.mp henvelope
    obtain ⟨hmem, hkept⟩ := mem_filter.mp hr
    simp [h.lifecycleState dates hmem hkey now] at hkept
  inactive := fun options now summary hsummary hkey => by
    obtain ⟨r, hr, rfl⟩ := mem_map.mp hsummary
    obtain ⟨hmem, -⟩ := mem_filter.mp hr
    simp [lifecycleSummary, h.lifecycleState dates hmem hkey now]

end Revocation

/-! ## Renewal -/

section Renewal

variable {dates : Dates} {records : Registry} {key : String} {T : ℤ}

/-- The session expires at a date, not before `T`. -/
def Lasts (dates : Dates) (records : Registry) (key : String) (T : ℤ) : Prop :=
  ∃ r text ms, records.find? key = some r ∧ truthy r.envelope.expiresAt = some text ∧
    dates.parse text = some ms ∧ T ≤ ms

def Extends (dates : Dates) (key : String) (records : Registry) : Op → Prop
  | .create envelope => envelope.globalSessionId ≠ key
  | .upsert envelope => envelope.globalSessionId = key → ∀ r, records.find? key = some r →
    sameAuthorityForExpiryPreservation r.envelope envelope = true ∧
      ∃ text ms, truthy envelope.expiresAt = some text ∧ dates.parse text = some ms
  | .renew sessionId nodeId expiresAt now => ∀ r ms,
    toRenew dates records sessionId nodeId expiresAt now = .ok (r, ms) → r.key ≠ key
  | .delete sessionId nodeId => ∀ r, readRecord records sessionId nodeId = some r → r.key ≠ key
  | _ => True

theorem lasts_of_renew
    (h : toRenew dates records sessionId nodeId expiresAt now = .ok (r, T)) :
    Lasts dates (step dates records (.renew sessionId nodeId expiresAt now)) r.key T := by
  have hparse := dates.parse_toISOString expiresAt T (toRenew_ok h).2.1
  refine ⟨{ r with envelope :=
    { r.envelope with expiresAt := some (dates.toISOString T) } }, dates.toISOString T, T, ?_, ?_,
    hparse, le_refl T⟩
  · simp only [step, renew, h]
    rw [Table.find?_set]
    exact if_pos rfl
  · exact (truthy_eq_some_iff _ _).mpr ⟨rfl, dates.toISOString_ne T⟩

theorem preserveRenewedExpiry_of_dates {previous incoming : SessionEnvelope} {text text' : String}
    {ms ms' : ℤ} (hsame : sameAuthorityForExpiryPreservation previous incoming = true)
    (hprevious : truthy previous.expiresAt = some text) (hparse : dates.parse text = some ms)
    (hincoming : truthy incoming.expiresAt = some text') (hparse' : dates.parse text' = some ms') :
    ∃ text'' ms'', truthy (preserveRenewedExpiry dates previous incoming).expiresAt = some text'' ∧
      dates.parse text'' = some ms'' ∧ ms ≤ ms'' := by
  simp only [preserveRenewedExpiry, hsame, if_true, hprevious, hincoming, hparse, hparse']
  split
  · exact ⟨text, ms, hprevious, hparse, le_refl ms⟩
  · rename_i hle
    exact ⟨text', ms', hincoming, hparse', not_lt.mp hle⟩

/-- An operation that extends the session does not bring its end forward. -/
theorem lasts_step (hop : Extends dates key records op)
    (h : Lasts dates records key T) : Lasts dates (step dates records op) key T := by
  obtain ⟨r, text, ms, hr, htext, hparse, hle⟩ := h
  have hkey : r.key = key := (mem_of_find? hr).2
  have hspares : Spares key records op := by
    cases op with
    | create | delete => exact hop
    | _ => trivial
  by_cases hrenews : ∃ sessionId nodeId expiresAt now, op = .renew sessionId nodeId expiresAt now
  · -- A renewal that succeeds is one of another session.
    obtain ⟨sessionId, nodeId, expiresAt, now, rfl⟩ := hrenews
    refine ⟨r, text, ms, ?_, htext, hparse, hle⟩
    simp only [step, renew]
    split
    · exact hr
    · rename_i record expiryMs hrenew
      rw [Table.find?_set]
      exact (if_neg (hop record expiryMs hrenew)).trans hr
  obtain ⟨after, hafter, hstep⟩ := recordStep dates hspares hr
  cases hstep with
  | same | revoked reason now => exact ⟨_, text, ms, hafter, htext, hparse, hle⟩
  | upserted envelope hop' henvelope =>
    subst hop'
    obtain ⟨hsame, text', ms', htext', hparse'⟩ := hop (henvelope.trans hkey) r hr
    obtain ⟨text'', ms'', htext'', hparse'', hle'⟩ :=
      preserveRenewedExpiry_of_dates hsame htext hparse htext' hparse'
    exact ⟨_, text'', ms'', hafter, htext'', hparse'', hle.trans hle'⟩
  | renewed sessionId nodeId expiresAt now expiryMs hop' =>
    exact absurd ⟨sessionId, nodeId, expiresAt, now, hop'⟩ hrenews

theorem Lasts.expiry (h : Lasts dates records key T) :
    ∃ r, records.find? key = some r ∧
      ∀ ms, parseExpiryMs dates r.envelope.expiresAt = some ms → (T : WithBot ℤ) ≤ ms := by
  obtain ⟨r, text, ms, hr, htext, hparse, hle⟩ := h
  refine ⟨r, hr, fun ms' hms' => ?_⟩
  simp only [parseExpiryMs, htext, hparse, Option.map_some, Option.some.injEq] at hms'
  rw [← hms']
  exact_mod_cast hle

end Renewal

/-! ## Whole runs -/

section Runs

variable {dates : Dates}

theorem inv_of_run {records : Registry} (h : Inv records) {ops : List Op}
    (hops : ∀ op ∈ ops, op.IsScoped) : Inv (exec (step dates) records ops) :=
  exec_invariant_of_guarded (I := Inv) (G := fun _ op => op.IsScoped)
    (fun _ _ h hop => inv_step h hop) h (guarded_of_forall (fun op hop _ => hops op hop) records)

theorem inv_empty : Inv Table.empty := ⟨fun _ h => (by cases h), fun _ h => (by cases h)⟩

/-- **Scoped sessions.** A session validates only if it is the one that is meant, neither revoked
    nor expired; a shared session id needs its node; a revoked session is gone for good; and a
    renewed one keeps its expiry while its node reports it with the same authority and a date. -/
theorem lifecycle_of_run (dates : Dates) (ops : List Op) (hops : ∀ op ∈ ops, op.IsScoped) :
    (∀ context now record,
      validate dates (exec (step dates) Table.empty ops) context now = .ok record →
      ValidFor dates (exec (step dates) Table.empty ops) context now record) ∧
    (∀ r ∈ (exec (step dates) Table.empty ops).rows, ∀ s ∈ (exec (step dates) Table.empty ops).rows,
      r.envelope.sessionId = s.envelope.sessionId → r.envelope.nodeId ≠ s.envelope.nodeId →
      ∀ context now record, context.sessionId = r.envelope.sessionId →
      truthy context.nodeId = none →
      validate dates (exec (step dates) Table.empty ops) context now ≠ .ok record) ∧
    (∀ pre op post key, ops = pre ++ op :: post →
      Revokes dates (exec (step dates) Table.empty pre) key op →
      Guarded (step dates) (Spares key) (exec (step dates) Table.empty (pre ++ [op])) post →
      Gone dates (exec (step dates) Table.empty ops) key) ∧
    ∀ pre sessionId nodeId expiresAt now post r T,
      ops = pre ++ .renew sessionId nodeId expiresAt now :: post →
      toRenew dates (exec (step dates) Table.empty pre) sessionId nodeId expiresAt now =
        .ok (r, T) →
      Guarded (step dates) (Extends dates r.key) (exec (step dates) Table.empty
        (pre ++ [.renew sessionId nodeId expiresAt now])) post →
      ∃ after, (exec (step dates) Table.empty ops).find? r.key = some after ∧
        ∀ ms, parseExpiryMs dates after.envelope.expiresAt = some ms → (T : WithBot ℤ) ≤ ms := by
  have hinv : Inv (exec (step dates) Table.empty ops) := inv_of_run inv_empty hops
  have hsplit (pre : List Op) (op : Op) (post : List Op) :
      exec (step dates) Table.empty (pre ++ op :: post) =
        exec (step dates) (exec (step dates) Table.empty (pre ++ [op])) post := by
    rw [← exec_append, append_assoc, singleton_append]
  refine ⟨fun context now record hvalid => validate_ok hinv.named hvalid, ?_, ?_, ?_⟩
  · intro r hr s hs hsession hnode context now record hcontext hnone hvalid
    have honly := (validate_ok hinv.named hvalid).only
    have hnodes (other : SessionEnvelopeRecord) (nodeId : String)
        (h : truthy context.nodeId = some nodeId) : other.envelope.nodeId = nodeId := by
      rw [hnone] at h
      cases h
    have hrs : r = s := (honly r hr hcontext.symm (hnodes r)).trans
      (honly s hs (hsession.symm.trans hcontext.symm) (hnodes s)).symm
    exact hnode (by rw [hrs])
  · rintro pre op post key rfl hrevokes hpost
    have hpre : Inv (exec (step dates) Table.empty pre) :=
      inv_of_run inv_empty fun op hop => hops op (mem_append_left _ hop)
    refine RevokedIn.gone hinv ?_
    rw [hsplit]
    refine exec_invariant_of_guarded (I := fun records => RevokedIn records key)
      (fun _ _ h hspares => revokedIn_step hspares h) ?_ hpost
    rw [exec_append]
    exact revokedIn_of_revokes hpre hrevokes
  · rintro pre sessionId nodeId expiresAt now post r T rfl hrenew hpost
    refine Lasts.expiry ?_
    rw [hsplit]
    refine exec_invariant_of_guarded (I := fun records => Lasts dates records r.key T)
      (fun _ _ h hop => lasts_step hop h) ?_ hpost
    rw [exec_append]
    exact lasts_of_renew hrenew

end Runs

/-- Three seconds, and no other date. -/
def seconds : List (ℤ × String) :=
  [(1000, "1970-01-01T00:00:01.000Z"), (2000, "1970-01-01T00:00:02.000Z"),
    (3000, "1970-01-01T00:00:03.000Z")]

def secondDates : Dates where
  parse text := (seconds.find? fun second => second.2 = text).map (·.1)
  toISOString ms := ((seconds.find? fun second => second.1 = ms).map (·.2)).getD "Invalid Date"
  parse_toISOString := fun s t h => by
    have hall : ∀ second ∈ seconds, (seconds.find? fun other => other.2 =
        ((seconds.find? fun third => third.1 = second.1).map (·.2)).getD "Invalid Date").map
          (·.1) = some second.1 := by decide
    obtain ⟨second, hfind, rfl⟩ := Option.map_eq_some_iff.mp h
    exact hall second (mem_of_find?_eq_some hfind)
  toISOString_ne := fun t h => by
    have hall : ∀ second ∈ seconds, second.2 ≠ "" := by decide
    cases hfind : seconds.find? fun second => second.1 = t with
    | none => simp [hfind] at h
    | some second =>
      rw [hfind] at h
      exact hall second (mem_of_find?_eq_some hfind) h

def reported (expiresAt : Option String) : SessionEnvelope where
  sessionId := "s"
  globalSessionId := "n:s"
  nodeId := "n"
  intent := .routedNodeSession
  scope := { kind := .nodeCwd, nodeId := "n", cwd := "/" }
  issuedAt := "1970-01-01T00:00:00.000Z"
  expiresAt
  revocable := true
  peerIdentity := .relayNode "n" none

def renewal : List Op :=
  [.upsert (reported (some "1970-01-01T00:00:02.000Z")),
    .renew "s" (some "n") "1970-01-01T00:00:03.000Z" 0]

theorem valid_after_renewal :
    ValidFor secondDates (exec (step secondDates) Table.empty renewal) { sessionId := "s" } 2000
      ⟨reported (some "1970-01-01T00:00:03.000Z"), none, none⟩ :=
  (lifecycle_of_run secondDates renewal (by decide)).1 _ _ _ (by rfl)

/-- A renewal to the third second does not outlast a report without a date, nor one of an earlier
    second behind one without an expiry, though both have the authority and an expiry that is not
    null; and a session that has expired when its node is revoked is valid again once reported. -/
theorem renewal_and_revocation_lost :
    toRenew secondDates (exec (step secondDates) Table.empty (renewal.take 1)) "s" (some "n")
      "1970-01-01T00:00:03.000Z" 0 =
        .ok (⟨reported (some "1970-01-01T00:00:02.000Z"), none, none⟩, 3000) ∧
    ((exec (step secondDates) Table.empty
      (renewal ++ [.upsert (reported (some "soon"))])).find? "n:s").map
        (fun r => parseExpiryMs secondDates r.envelope.expiresAt) = some (some ⊥) ∧
    ((exec (step secondDates) Table.empty (renewal ++ [.upsert (reported none),
      .upsert (reported (some "1970-01-01T00:00:02.000Z"))])).find? "n:s").map
        (fun r => parseExpiryMs secondDates r.envelope.expiresAt) =
          some (some ((2000 : ℤ) : WithBot ℤ)) ∧
    validate secondDates (exec (step secondDates) Table.empty
      [.upsert (reported (some "1970-01-01T00:00:01.000Z")), .revokeForNode "n" none 2000,
        .upsert (reported (some "1970-01-01T00:00:03.000Z"))]) { sessionId := "s" } 2000 =
        .ok ⟨reported (some "1970-01-01T00:00:03.000Z"), none, none⟩ := by
  refine ⟨by rfl, by rfl, by rfl, by rfl⟩

end RelayIde.Sessions
