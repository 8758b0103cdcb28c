import RelayIde.Profiles.Credentials

/-!
# The Two Views of a Credential

What the registry accepts against what the rows say, over any run of mints, revocations,
deletions and restarts in which calls of the store may throw.

- `Inv` — the invariant of runs, kept by every call
-/

namespace RelayIde.Profiles.Credentials

open RelayIde.Library RelayIde.Security RelayIde.Security.ActorCredential List

/-! ## What the calls leave -/

variable (registry : Registry)

theorem get_revoke (credentialId revokedBy : String) (now : ℤ) (id : String) :
    (ActorCredential.revoke registry credentialId revokedBy now).2.get id =
      (registry.get id).map fun c =>
        if id = credentialId then c.revoke revokedBy now else c := by
  unfold ActorCredential.revoke
  cases hheld : registry.get credentialId with
  | none =>
    by_cases hid : id = credentialId
    · rw [hid, hheld]
      rfl
    · simp [hid]
  | some credential =>
    have hfind := registry.credentials.find?_updateWhere (fun c => decide (c.id = credentialId))
      (fun c => c.revoke revokedBy now) (fun _ => rfl) id
    rw [Registry.get]
    rw [hfind]
    cases hget : registry.get id with
    | none =>
      rw [Registry.get] at hget
      rw [hget]
      rfl
    | some c =>
      have hcid : c.id = id := ((Table.find?_eq_some_iff _ _ _).mp hget).2
      rw [Registry.get] at hget
      rw [hget]
      simp [hcid]

/-- Where several rows name a record, the last one's revoker stays. -/
theorem get_revokeRows (rows : List AgentProfileCredentialRow)
    (revokedBy : AgentProfileCredentialRow → String) (now : ℤ) (id : String) :
    ∃ revoker, (revokeRows registry rows revokedBy now).get id = (registry.get id).map fun c =>
      if rows.any (·.credentialId = id) then c.revoke revoker now else c := by
  induction rows generalizing registry with
  | nil => exact ⟨"", by simp [revokeRows]⟩
  | cons row rows ih =>
    unfold revokeRows at ih ⊢
    obtain ⟨last, hlast⟩ := ih (ActorCredential.revoke registry row.credentialId
      (revokedBy row) now).2
    refine ⟨if rows.any (·.credentialId = id) then last else revokedBy row, ?_⟩
    rw [foldl_cons, hlast, get_revoke, Option.map_map]
    congr 1
    funext c
    by_cases hid : id = row.credentialId
    · subst hid
      cases rows.any (·.credentialId = row.credentialId) <;>
        simp [InternalCredentialRecord.revoke]
    · cases hrest : rows.any (·.credentialId = id) <;> simp [hid, Ne.symm hid, hrest]

variable {registry : Registry} {input : MintInput} {now : ℤ} {secret profileId id : String}
  {c : InternalCredentialRecord} {stored : AgentProfileCredentialRow}
  {revoked : List AgentProfileCredentialRow} {w : World} {works lists : Bool} {op : Op}

theorem issue_eq_ok {sha256Hex : String → String} {registry' : Registry} {ceiling : ℤ}
    {uuid token : String}
    (h : issue sha256Hex registry (issueInput input ceiling) now uuid secret =
      .ok (token, registry')) :
    token = laneToken "relay-sac-v1" uuid secret ∧ registry.get uuid = none ∧
      ∃ c : InternalCredentialRecord, c.id = uuid ∧ c.revokedAt = none ∧
        c.secretHash = sha256Hex secret ∧ c.expiresAt = now + requestedTtl input.ttlMs ceiling ∧
          registry' = registry.store c := by
  obtain ⟨actorType, -, h⟩ := bind_eq_ok h
  obtain ⟨audience, -, h⟩ := bind_eq_ok h
  obtain ⟨capabilities, -, h⟩ := bind_eq_ok h
  obtain ⟨scope, -, h⟩ := bind_eq_ok h
  obtain ⟨expiresAt, hexpires, h⟩ := bind_eq_ok h
  obtain ⟨_, hnew, h⟩ := bind_eq_ok h
  cases h
  refine ⟨rfl, checkNewId_eq_ok hnew, _, rfl, rfl, rfl, ?_, rfl⟩
  obtain ⟨requested, hrequested, hexpires⟩ := bind_eq_ok hexpires
  cases hrequested
  split at hexpires
  · cases hexpires
  · cases hexpires
    rfl

theorem get_stored (hnew : registry.get c.id = none) (id : String) :
    (registry.store c).get id = if c.id = id then some c else registry.get id :=
  Table.find?_insert_of_new _ _ _ hnew

theorem select_revokeLive (s : Store) (profileId revokedBy now credentialId : String) :
    (s.revokeLiveCredentials profileId revokedBy now).1.selectCredentialById credentialId =
      (s.selectCredentialById credentialId).map fun row =>
        if row.isLiveOf profileId then row.revoke now revokedBy else row :=
  s.credentials.find?_retire (·.isLiveOf profileId)
    (AgentProfileCredentialRow.revoke now revokedBy) (fun _ => rfl) (fun _ => rfl) credentialId

theorem any_revokeLive (s : Store) (profileId revokedBy now id : String) :
    ((s.revokeLiveCredentials profileId revokedBy now).2.any (·.credentialId = id)) =
      (s.selectCredentialById id).any (·.isLiveOf profileId) := by
  rw [Bool.eq_iff_iff]
  unfold Store.revokeLiveCredentials Store.selectLiveCredentials
  rw [any_map, any_eq_true, Option.any_eq_true]
  constructor
  · rintro ⟨row, hrow, hid⟩
    obtain ⟨hmem, hlive⟩ := mem_filter.mp hrow
    have hrowId : row.credentialId = id := of_decide_eq_true hid
    exact ⟨row, (s.credentials.find?_eq_some_iff _ _).mpr ⟨hmem, hrowId⟩, hlive⟩
  · rintro ⟨row, hrow, hlive⟩
    obtain ⟨hmem, hid⟩ := (s.credentials.find?_eq_some_iff _ _).mp hrow
    exact ⟨row, mem_filter.mpr ⟨hmem, hlive⟩, decide_eq_true hid⟩

theorem requireNonEmpty_eq_ok {value field trimmed : String}
    (h : requireNonEmpty value field = .ok trimmed) : Text.trim value = trimmed := by
  unfold requireNonEmpty readTrimmed at h
  split at h
  · rename_i hread
    split at hread
    · cases hread
    · cases hread
      cases h
      rfl
  · cases h

section
variable {now : String} {s s' : Store} {input : AgentProfileCredentialWriteInput}

theorem recordCredential_eq_ok
    (h : recordCredential now s input = (.ok (stored, revoked), s')) :
    revoked = (s.revokeLiveCredentials (Text.trim input.profileId) "rotated" now).2 ∧
      s.selectCredentialById (Text.trim input.credentialId) = none ∧
        ∃ new : AgentProfileCredentialRow, new.credentialId = Text.trim input.credentialId ∧
          new.profileId = Text.trim input.profileId ∧ new.revokedAt = none ∧
            new.secretHash = Text.trim input.secretHash ∧
              new.expiresAt = Text.trim input.expiresAt ∧
                ∀ id, s'.selectCredentialById id = if new.credentialId = id then some new else
                  (s.revokeLiveCredentials (Text.trim input.profileId) "rotated"
                    now).1.selectCredentialById id := by
  unfold recordCredential at h
  cases hcheck : checkCredential input with
  | error e =>
    rw [hcheck] at h
    cases h
  | ok plan =>
    obtain ⟨profileId, credentialId, secretHash⟩ := plan
    rw [hcheck] at h
    dsimp only at h
    rcases transaction_cases s (mintCredential now s input profileId credentialId secretHash) with
      ⟨e, he⟩ | ⟨s'', r, hmint, hr⟩
    · rw [he] at h
      cases h
    · rw [hr] at h
      cases h
      obtain ⟨found, hprofile, hcheck⟩ := bind_eq_ok hcheck
      obtain ⟨credential, hcredential, hcheck⟩ := bind_eq_ok hcheck
      obtain ⟨hash, hhash, hcheck⟩ := bind_eq_ok hcheck
      split at hcheck
      · cases hcheck
        obtain ⟨actorId, -, hmint⟩ := bind_eq_ok hmint
        obtain ⟨issuerId, -, hmint⟩ := bind_eq_ok hmint
        obtain ⟨issuedAt, -, hmint⟩ := bind_eq_ok hmint
        obtain ⟨expiresAt, hexpires, hmint⟩ := bind_eq_ok hmint
        obtain ⟨credentials, hinsert, hmint⟩ := bind_eq_ok hmint
        dsimp only at hmint
        split at hmint
        · cases hmint
          rw [requireNonEmpty_eq_ok hprofile, requireNonEmpty_eq_ok hcredential,
            requireNonEmpty_eq_ok hhash, requireNonEmpty_eq_ok hexpires]
          have hinsert := IndexedTable.find?_insert (mapError_eq_ok hinsert)
          refine ⟨rfl, ?_, _, rfl, rfl, rfl, rfl, rfl, fun id => (hinsert id).2⟩
          have hnone : ((s.revokeLiveCredentials profileId "rotated"
              now).1.selectCredentialById credentialId) = none := (hinsert "").1
          rw [select_revokeLive, Option.map_eq_none_iff] at hnone
          exact hnone
        · cases hmint
      · cases hcheck

theorem recordCredential_error {e : Thrown}
    (h : recordCredential now s input = (.error e, s')) : s' = s := by
  have hthrown := (callStep_recordCredential now s input).thrown e
  rw [h] at hthrown
  exact hthrown rfl

end

theorem delete_cases (now : String) (s : Store) (profileId : String) :
    (∃ e, delete now s profileId = (.error e, s)) ∨
      ∃ removed s', delete now s profileId = (.ok removed, s') ∧ ∀ id,
        s'.selectCredentialById id =
          (s.revokeLiveCredentials profileId "agent-profile-deleted" now).1.selectCredentialById
            id := by
  unfold delete
  split
  · exact .inl ⟨_, rfl⟩
  · exact .inr ⟨_, _, rfl, fun id => rfl⟩

/-! ## What a call does to rows and records -/

section Steps

variable (dates : IsoDates) (sha256Hex : String → String)

/-- A record of the registry has a row that says the same of it, or whose profile was deleted
    without a sweep. -/
def Backed (w : World) (id : String) (c : InternalCredentialRecord) : Prop :=
  ∃ row, w.store.selectCredentialById id = some row ∧ row.secretHash = c.secretHash ∧
    dates.FourDigit c.expiresAt ∧ row.expiresAt = dates.toISOString c.expiresAt ∧
      (row.revokedAt = none ∨ row.profileId ∈ w.unswept)

/-- A record that may authenticate has its row. -/
def Holds (w : World) (id : String) (c : InternalCredentialRecord) : Prop :=
  c.revokedAt.isSome = true ∨ c.expiresAt ≤ w.clock ∨ Backed dates w id c

/-- A row was there before, and was at most revoked since. -/
def KeptRow (row row' : AgentProfileCredentialRow) : Prop :=
  row'.secretHash = row.secretHash ∧ row'.profileId = row.profileId ∧
    row'.expiresAt = row.expiresAt ∧
      (row'.revokedAt = row.revokedAt ∨ ∃ t, row'.revokedAt = some (dates.toISOString t))

/-- What a call that draws `draw?` leaves of the two views. -/
structure StepOf (w : World) (draw? : Option (String × String)) (w' : World) : Prop where
  rows : ∀ id row', w'.store.selectCredentialById id = some row' →
    (∃ row, w.store.selectCredentialById id = some row ∧ KeptRow dates row row') ∨
      ∃ secret, draw? = some (id, secret) ∧ row'.secretHash = sha256Hex secret ∧
        row'.revokedAt = none ∧ ∃ t, dates.FourDigit t ∧ row'.expiresAt = dates.toISOString t
  records : ∀ id c', w'.registry.get id = some c' →
    (∃ c, w.registry.get id = some c ∧ c'.secretHash = c.secretHash ∧
      c'.expiresAt = c.expiresAt ∧ (c.revokedAt.isSome = true → c'.revokedAt.isSome = true)) ∨
    (∃ secret, draw? = some (id, secret) ∧ c'.secretHash = sha256Hex secret) ∨
    ∃ row, w'.store.selectCredentialById id = some row ∧ c'.secretHash = row.secretHash ∧
      (row.revokedAt.isSome = true → c'.revokedAt.isSome = true)
  holds : ∀ id c', w'.registry.get id = some c' → Holds dates w' id c'

end Steps

variable {dates : IsoDates} {sha256Hex : String → String}

variable (row : AgentProfileCredentialRow)

theorem KeptRow.refl : KeptRow dates row row :=
  ⟨rfl, rfl, rfl, .inl rfl⟩

theorem keptRow_revoke (now : ℤ) (revokedBy : String) :
    KeptRow dates row (row.revoke (dates.toISOString now) revokedBy) :=
  ⟨rfl, rfl, rfl, .inr ⟨now, rfl⟩⟩

theorem keptRow_revokeLive {s : Store} {revokedBy : String} {row' : AgentProfileCredentialRow}
    (h : (s.revokeLiveCredentials profileId revokedBy
      (dates.toISOString now)).1.selectCredentialById id = some row') :
    ∃ row, s.selectCredentialById id = some row ∧ KeptRow dates row row' := by
  rw [select_revokeLive] at h
  obtain ⟨row, hrow, rfl⟩ := Option.map_eq_some_iff.mp h
  refine ⟨row, hrow, ?_⟩
  split
  · exact keptRow_revoke row now revokedBy
  · exact KeptRow.refl row

theorem StepOf.of_same {w' : World} {draw? : Option (String × String)} (hstore : w'.store = w.store)
    (hregistry : w'.registry = w.registry) (hunswept : w'.unswept = w.unswept)
    (hclock : w.clock ≤ w'.clock) (hw : ∀ id c, w.registry.get id = some c → Holds dates w id c) :
    StepOf dates sha256Hex w draw? w' where
  rows id row' hrow' := by
    rw [hstore] at hrow'
    exact .inl ⟨row', hrow', KeptRow.refl row'⟩
  records id c' hget := by
    rw [hregistry] at hget
    exact .inl ⟨c', hget, rfl, rfl, fun h => h⟩
  holds id c' hget := by
    rw [hregistry] at hget
    rcases hw id c' hget with hrevoked | hexpired | ⟨row, hrow, hbacked⟩
    · exact .inl hrevoked
    · exact .inr (.inl (Int.le_trans hexpired hclock))
    · refine .inr (.inr ⟨row, hstore ▸ hrow, ?_⟩)
      rw [hunswept]
      exact hbacked

theorem holds_rotated (revokedBy : String) {w' : World} {by' : String}
    (hclock : w.clock ≤ w'.clock) (hunswept : w'.unswept = w.unswept) (hw : Holds dates w id c)
    (hrow : ∀ row, w.store.selectCredentialById id = some row →
      w'.store.selectCredentialById id =
        some (if row.isLiveOf profileId then row.revoke (dates.toISOString now) revokedBy
          else row)) :
    Holds dates w' id (if (w.store.selectCredentialById id).any (·.isLiveOf profileId) then
      c.revoke by' now else c) := by
  split
  · exact .inl rfl
  · rename_i hnot
    rcases hw with hrevoked | hexpired | ⟨row, hfound, hhash, hdigit, hexpires, hlive⟩
    · exact .inl hrevoked
    · exact .inr (.inl (Int.le_trans hexpired hclock))
    · have hdead : row.isLiveOf profileId = false := by
        rw [hfound] at hnot
        simpa using hnot
      have hafter := hrow row hfound
      rw [hdead] at hafter
      exact .inr (.inr ⟨row, hafter, hhash, hdigit, hexpires, hunswept ▸ hlive⟩)

theorem eq_of_fields_eq {s a : String} (h : Text.fields '.' s = [a]) : s = a := by
  have hlength := Text.length_fields '.' s
  rw [h, length_singleton] at hlength
  have hdot : '.' ∉ s.toList := count_eq_zero.mp (by omega)
  rw [Text.fields_of_not_mem hdot] at h
  exact head_eq_of_cons_eq h

/-- A token that is read back at all is read back as what it was made of. -/
theorem eq_of_parse_laneToken {lane id' secret' : String} (hlane : '.' ∉ lane.toList)
    (h : parseLaneToken lane (laneToken lane id secret) = some (id', secret')) :
    id' = id ∧ secret' = secret := by
  rw [parseLaneToken, fields_laneToken hlane] at h
  have hid := Text.length_fields '.' id
  have hsecret := Text.length_fields '.' secret
  split at h
  · rename_i first first' second hfields
    split at h
    · cases h
      rw [List.cons.injEq] at hfields
      -- three fields in all, so one of the id and one of the secret
      cases hparts : Text.fields '.' id with
      | nil =>
        rw [hparts] at hid
        simp at hid
      | cons a rest =>
        rw [hparts, cons_append, List.cons.injEq] at hfields
        obtain ⟨-, rfl, hrest⟩ := hfields
        have hnil : rest = [] := by
          have hlength := congrArg List.length hrest
          rw [length_append, length_singleton] at hlength
          rw [← length_eq_zero_iff]
          omega
        subst hnil
        exact ⟨(eq_of_fields_eq hparts).symm, (eq_of_fields_eq hrest).symm⟩
    · cases h
  · cases h

theorem dot_not_mem_lane : '.' ∉ "relay-sac-v1".toList := by simp

theorem stepOf_dropped {w' : World} {revokedBy : String} (hnew : w.registry.get c.id = none)
    (hhash : c.secretHash = sha256Hex secret) (hstore : w'.store = w.store)
    (hregistry : w'.registry = (ActorCredential.revoke (w.registry.store c) c.id revokedBy now).2)
    (hunswept : w'.unswept = w.unswept) (hclock : w.clock ≤ w'.clock)
    (hw : ∀ id c, w.registry.get id = some c → Holds dates w id c) :
    StepOf dates sha256Hex w (some (c.id, secret)) w' := by
  have hget : ∀ id c', w'.registry.get id = some c' →
      c.id = id ∧ c' = c.revoke revokedBy now ∨ w.registry.get id = some c' := by
    intro id c' h
    rw [hregistry, get_revoke, get_stored hnew] at h
    by_cases hid : c.id = id
    · left
      refine ⟨hid, ?_⟩
      simpa [hid] using h.symm
    · rw [if_neg hid] at h
      right
      simpa [Ne.symm hid] using h
  have hsame : StepOf dates sha256Hex w (some (c.id, secret)) { w with clock := w'.clock } :=
    StepOf.of_same rfl rfl rfl hclock hw
  refine ⟨fun id row' hrow' => hsame.rows id row' (hstore ▸ hrow'), fun id c' h => ?_,
    fun id c' h => ?_⟩
  · rcases hget id c' h with ⟨rfl, rfl⟩ | hold
    · exact .inr (.inl ⟨secret, rfl, hhash⟩)
    · exact .inl ⟨c', hold, rfl, rfl, fun h => h⟩
  · rcases hget id c' h with ⟨-, rfl⟩ | hold
    · exact .inl rfl
    · rcases hsame.holds id c' hold with hrevoked | hexpired | ⟨row, hrow, hbacked⟩
      · exact .inl hrevoked
      · exact .inr (.inl hexpired)
      · refine .inr (.inr ⟨row, hstore.symm ▸ hrow, ?_⟩)
        rw [hunswept]
        exact hbacked

theorem stepOf_minted {w' : World} {credential : CredentialRecord}
    (hcredential : credential = c.toCredentialRecord)
    (hid : Text.trim c.id = c.id) (hsha : Text.trim (sha256Hex secret) = sha256Hex secret)
    (hdigit : dates.FourDigit c.expiresAt) (hlive : c.revokedAt = none)
    (hnew : w.registry.get c.id = none) (hhash : c.secretHash = sha256Hex secret)
    (hrecord : recordCredential (dates.toISOString now) w.store
      (writeInput dates input credential (sha256Hex secret)) = (.ok (stored, revoked), w'.store))
    (hregistry : w'.registry = revokeRows (w.registry.store c) revoked (fun _ => input.issuerId)
      now)
    (hunswept : w'.unswept = w.unswept) (hclock : w.clock ≤ w'.clock)
    (hw : ∀ id c, w.registry.get id = some c → Holds dates w id c) :
    StepOf dates sha256Hex w (some (c.id, secret)) w' := by
  subst hcredential
  obtain ⟨hrevoked, hunused, new, hstoredId, -, hnewLive, hstoredHash, hstoredExpires, hselect⟩ :=
    recordCredential_eq_ok hrecord
  have hnewId : new.credentialId = c.id := hstoredId.trans hid
  have hfresh : w.store.selectCredentialById c.id = none := hid ▸ hunused
  have hnewHash : new.secretHash = sha256Hex secret := hstoredHash.trans hsha
  have hnewExpires : new.expiresAt = dates.toISOString c.expiresAt :=
    hstoredExpires.trans (dates.trim_toISOString _)
  -- what the registry holds under an id
  have hget : ∀ id c', w'.registry.get id = some c' →
      id = c.id ∧ c' = c ∨ id ≠ c.id ∧ ∃ c₀, w.registry.get id = some c₀ ∧
        ∃ revoker, c' = if (w.store.selectCredentialById id).any
          (·.isLiveOf (Text.trim input.profileId)) then c₀.revoke revoker now else c₀ := by
    intro id c' h
    obtain ⟨revoker, hrows⟩ :=
      get_revokeRows (w.registry.store c) revoked (fun _ => input.issuerId) now id
    rw [hregistry, hrows, hrevoked, any_revokeLive, get_stored hnew] at h
    by_cases heq : c.id = id
    · subst heq
      rw [if_pos rfl] at h
      have hnot : (w.store.selectCredentialById c.id).any
          (·.isLiveOf (Text.trim input.profileId)) = false := by rw [hfresh]; rfl
      left
      refine ⟨rfl, ?_⟩
      have hsome := Option.some.inj h
      rw [← hsome]
      exact if_neg (by rw [Bool.not_eq_true]; exact hnot)
    · rw [if_neg heq] at h
      obtain ⟨c₀, hc₀, rfl⟩ := Option.map_eq_some_iff.mp h
      exact .inr ⟨Ne.symm heq, c₀, hc₀, revoker, rfl⟩
  refine ⟨fun id row' hrow' => ?_, fun id c' h => ?_, fun id c' h => ?_⟩
  · rw [hselect] at hrow'
    split at hrow'
    · rename_i hsame
      cases hrow'
      obtain rfl : c.id = id := hnewId.symm.trans hsame
      exact .inr ⟨secret, rfl, hnewHash, hnewLive, c.expiresAt, hdigit, hnewExpires⟩
    · exact .inl (keptRow_revokeLive hrow')
  · rcases hget id c' h with ⟨rfl, rfl⟩ | ⟨-, c₀, hc₀, revoker, rfl⟩
    · exact .inr (.inl ⟨secret, rfl, hhash⟩)
    · refine .inl ⟨c₀, hc₀, ?_⟩
      split
      · exact ⟨rfl, rfl, fun _ => rfl⟩
      · exact ⟨rfl, rfl, fun h => h⟩
  · rcases hget id c' h with ⟨rfl, rfl⟩ | ⟨hne, c₀, hc₀, revoker, rfl⟩
    · refine .inr (.inr ⟨new, ?_, hnewHash.trans hhash.symm, hdigit, hnewExpires, .inl hnewLive⟩)
      rw [hselect, if_pos hnewId]
    · refine holds_rotated "rotated" hclock hunswept (hw id c₀ hc₀) fun row hrow => ?_
      rw [hselect, if_neg (fun heq => hne (heq.symm.trans hnewId)), select_revokeLive, hrow]
      rfl

theorem mint_cases (dates : IsoDates) (sha256Hex : String → String) (w : World) (input : MintInput)
    (ceiling now : ℤ) (uuid secret : String) (works : Bool) :
    (∃ e, mint dates sha256Hex w input ceiling now uuid secret works = (.error e, w)) ∨
    ∃ c : InternalCredentialRecord, c.id = uuid ∧ w.registry.get c.id = none ∧
      c.revokedAt = none ∧ c.secretHash = sha256Hex secret ∧
        c.expiresAt = now + requestedTtl input.ttlMs ceiling ∧
          ((∃ e, mint dates sha256Hex w input ceiling now uuid secret works = (.error e, { w with
              registry := (ActorCredential.revoke (w.registry.store c) c.id input.issuerId
                now).2 })) ∨
            ∃ stored revoked store token, recordCredential (dates.toISOString now) w.store
                (writeInput dates input c.toCredentialRecord (sha256Hex secret)) =
                  (.ok (stored, revoked), store) ∧
              mint dates sha256Hex w input ceiling now uuid secret works =
                (.ok (stored, token), { w with
                  store
                  registry := revokeRows (w.registry.store c) revoked (fun _ => input.issuerId) now })) := by
  generalize hr : mint dates sha256Hex w input ceiling now uuid secret works = r
  unfold mint at hr
  cases hissue : issue sha256Hex w.registry (issueInput input ceiling) now uuid secret with
  | error e =>
    rw [hissue] at hr
    exact .inl ⟨_, hr.symm⟩
  | ok issued =>
    obtain ⟨token, registry⟩ := issued
    obtain ⟨rfl, hnew, c, rfl, hlive, hhash, hexpires, rfl⟩ := issue_eq_ok hissue
    refine .inr ⟨c, rfl, hnew, hlive, hhash, hexpires, ?_⟩
    have hheld : (w.registry.store c).get c.id = some c := by rw [get_stored hnew, if_pos rfl]
    rw [hissue] at hr
    dsimp only at hr
    rw [hheld] at hr
    unfold persist at hr
    cases hparse : parseLaneToken "relay-sac-v1" (laneToken "relay-sac-v1" c.id secret) with
    | none =>
      rw [hparse] at hr
      exact .inl ⟨_, hr.symm⟩
    | some parsed =>
      obtain ⟨id', secret'⟩ := parsed
      obtain ⟨rfl, rfl⟩ := eq_of_parse_laneToken dot_not_mem_lane hparse
      rw [hparse] at hr
      dsimp only at hr
      rcases hrecord : recordCredential (dates.toISOString now) w.store
        (writeInput dates input c.toCredentialRecord (sha256Hex secret')) with ⟨outcome, store⟩
      rw [hrecord] at hr
      cases works with
      | false => exact .inl ⟨_, hr.symm⟩
      | true =>
        cases outcome with
        | error e =>
          cases recordCredential_error hrecord
          exact .inl ⟨_, hr.symm⟩
        | ok pair =>
          obtain ⟨stored, revoked⟩ := pair
          exact .inr ⟨stored, revoked, store, _, rfl, hr.symm⟩

variable {ceiling : ℤ} {uuid : String}

/-- A mint moves the clock and uses up its secret. -/
theorem step_mint
    {r : Except ServiceError (AgentProfileCredentialRow × String) × World}
    (h : mint dates sha256Hex w input ceiling now uuid secret works = r) :
    step dates sha256Hex w (.mint input ceiling now uuid secret works) =
      { r.2 with clock := now, drawn := secret :: w.drawn } := by
  subst h
  rfl

theorem stepOf_mint
    (hsha : ∀ text, Text.trim (sha256Hex text) = sha256Hex text)
    (hw : ∀ id c, w.registry.get id = some c → Holds dates w id c)
    (hadmissible : Admissible dates sha256Hex w (.mint input ceiling now uuid secret works)) :
    StepOf dates sha256Hex w (some (uuid, secret))
      (step dates sha256Hex w (.mint input ceiling now uuid secret works)) := by
  obtain ⟨hclock, -, hdigit, huuid, -⟩ := hadmissible
  rcases mint_cases dates sha256Hex w input ceiling now uuid secret works with
    ⟨e, he⟩ | ⟨c, rfl, hnew, hlive, hhash, hexpires, ⟨e, he⟩ |
      ⟨stored, revoked, store, token, hrecord, hminted⟩⟩
  · rw [step_mint he]
    exact StepOf.of_same rfl rfl rfl hclock hw
  · rw [step_mint he]
    exact stepOf_dropped hnew hhash rfl rfl rfl hclock hw
  · rw [step_mint hminted]
    exact stepOf_minted rfl huuid (hsha secret) (hexpires.symm ▸ hdigit) hlive hnew hhash hrecord
      rfl rfl hclock hw

theorem revoke_works (dates : IsoDates) (sha256Hex : String → String) (w : World)
    (profileId revokedBy : String) (now : ℤ) :
    (step dates sha256Hex w (.revoke profileId revokedBy now true)).store =
        (w.store.revokeLiveCredentials profileId revokedBy (dates.toISOString now)).1 ∧
      (step dates sha256Hex w (.revoke profileId revokedBy now true)).registry =
        revokeRows w.registry (w.store.revokeLiveCredentials profileId revokedBy
          (dates.toISOString now)).2 (fun _ => revokedBy) now ∧
        (step dates sha256Hex w (.revoke profileId revokedBy now true)).unswept = w.unswept := by
  simp only [step, perform, revoke]
  cases hrevoked : (w.store.revokeLiveCredentials profileId revokedBy
      (dates.toISOString now)).2 with
  | nil | cons first rest => exact ⟨rfl, rfl, rfl⟩

theorem stepOf_revoke {revokedBy : String}
    (hw : ∀ id c, w.registry.get id = some c → Holds dates w id c) (hclock : w.clock ≤ now) :
    StepOf dates sha256Hex w none
      (step dates sha256Hex w (.revoke profileId revokedBy now works)) := by
  cases works with
  | false => exact StepOf.of_same rfl rfl rfl hclock hw
  | true =>
    obtain ⟨hstore, hregistry, hunswept⟩ :=
      revoke_works dates sha256Hex w profileId revokedBy now
    have hget : ∀ id c', (step dates sha256Hex w
        (.revoke profileId revokedBy now true)).registry.get id = some c' →
        ∃ c, w.registry.get id = some c ∧ ∃ revoker,
          c' = if (w.store.selectCredentialById id).any (·.isLiveOf profileId) then
            c.revoke revoker now else c := by
      intro id c' h
      obtain ⟨revoker, hrows⟩ := get_revokeRows w.registry (w.store.revokeLiveCredentials profileId
        revokedBy (dates.toISOString now)).2 (fun _ => revokedBy) now id
      rw [hregistry, hrows, any_revokeLive] at h
      obtain ⟨c, hc, rfl⟩ := Option.map_eq_some_iff.mp h
      exact ⟨c, hc, revoker, rfl⟩
    refine ⟨fun id row' hrow' => .inl (keptRow_revokeLive (hstore ▸ hrow')), fun id c' h => ?_,
      fun id c' h => ?_⟩
    · obtain ⟨c, hc, revoker, rfl⟩ := hget id c' h
      refine .inl ⟨c, hc, ?_⟩
      split
      · exact ⟨rfl, rfl, fun _ => rfl⟩
      · exact ⟨rfl, rfl, fun h => h⟩
    · obtain ⟨c, hc, revoker, rfl⟩ := hget id c' h
      refine holds_rotated revokedBy hclock hunswept (hw id c hc) fun row hrow => ?_
      rw [hstore, select_revokeLive, hrow]
      rfl

theorem any_listed (s : Store) (now profileId id : String) :
    (((listRestorableCredentials s now).filter fun row => decide (row.profileId = profileId)).any
      (·.credentialId = id)) = (s.selectCredentialById id).any fun row =>
        decide (row.profileId = profileId ∧ now < row.expiresAt) := by
  rw [Bool.eq_iff_iff]
  rw [any_eq_true, Option.any_eq_true]
  constructor
  · rintro ⟨row, hrow, hid⟩
    obtain ⟨hlisted, hprofile⟩ := mem_filter.mp hrow
    obtain ⟨hmem, hlater⟩ := mem_filter.mp hlisted
    refine ⟨row, (s.credentials.find?_eq_some_iff _ _).mpr ⟨hmem, of_decide_eq_true hid⟩, ?_⟩
    exact decide_eq_true ⟨of_decide_eq_true hprofile, of_decide_eq_true hlater⟩
  · rintro ⟨row, hrow, hboth⟩
    obtain ⟨hmem, hid⟩ := (s.credentials.find?_eq_some_iff _ _).mp hrow
    obtain ⟨hprofile, hlater⟩ := of_decide_eq_true hboth
    refine ⟨row, mem_filter.mpr ⟨mem_filter.mpr ⟨hmem, decide_eq_true hlater⟩, ?_⟩,
      decide_eq_true hid⟩
    exact decide_eq_true hprofile

theorem stepOf_deleted {w' : World} {listedAt : ℤ}
    (hnow : w.clock ≤ listedAt) (hdigit : dates.FourDigit listedAt)
    (hstore : ∀ id, w'.store.selectCredentialById id =
      (w.store.revokeLiveCredentials profileId "agent-profile-deleted"
        (dates.toISOString now)).1.selectCredentialById id)
    (hregistry : w'.registry = if lists then revokeRows w.registry
        ((listRestorableCredentials w'.store (dates.toISOString listedAt)).filter
          fun row => decide (row.profileId = profileId))
        (fun row => row.revokedBy.getD "agent-profile-deleted") listedAt
      else w.registry)
    (hunswept : w'.unswept = if lists then w.unswept.filter (· ≠ profileId)
      else profileId :: w.unswept)
    (hclock : w'.clock = listedAt) (hw : ∀ id c, w.registry.get id = some c → Holds dates w id c) :
    StepOf dates sha256Hex w none w' := by
  have hget : ∀ id c', w'.registry.get id = some c' → ∃ c, w.registry.get id = some c ∧
      ∃ revoker, c' = if lists ∧ (w'.store.selectCredentialById id).any (fun row =>
          decide (row.profileId = profileId ∧ dates.toISOString listedAt < row.expiresAt)) then
        c.revoke revoker listedAt else c := by
    intro id c' h
    rw [hregistry] at h
    cases lists with
    | false => exact ⟨c', h, "", by simp⟩
    | true =>
      obtain ⟨revoker, hrows⟩ := get_revokeRows w.registry
        ((listRestorableCredentials w'.store (dates.toISOString listedAt)).filter
          fun row => decide (row.profileId = profileId))
        (fun row => row.revokedBy.getD "agent-profile-deleted") listedAt id
      rw [if_pos rfl, hrows, any_listed] at h
      obtain ⟨c, hc, rfl⟩ := Option.map_eq_some_iff.mp h
      exact ⟨c, hc, revoker, by simp⟩
  refine ⟨fun id row' hrow' => .inl (keptRow_revokeLive (hstore id ▸ hrow')), fun id c' h => ?_,
    fun id c' h => ?_⟩
  · obtain ⟨c, hc, revoker, rfl⟩ := hget id c' h
    refine .inl ⟨c, hc, ?_⟩
    split
    · exact ⟨rfl, rfl, fun _ => rfl⟩
    · exact ⟨rfl, rfl, fun h => h⟩
  · obtain ⟨c, hc, revoker, rfl⟩ := hget id c' h
    split
    · exact .inl rfl
    · rename_i hnot
      rcases hw id c hc with hrevoked | hexpired | ⟨row, hrow, hhash, hcdigit, hexpires, hlive⟩
      · exact .inl hrevoked
      · exact .inr (.inl (hclock ▸ Int.le_trans hexpired hnow))
      · have hafter := hstore id
        rw [select_revokeLive, hrow, Option.map_some] at hafter
        by_cases hprofile : row.profileId = profileId
        · -- a row of the deleted profile: its record was revoked, has expired or was not swept
          have hkept : ∀ row', (if row.isLiveOf profileId then
              row.revoke (dates.toISOString now) "agent-profile-deleted" else row) = row' →
                row'.profileId = profileId ∧ row'.expiresAt = row.expiresAt ∧
                  row'.secretHash = row.secretHash := by
            rintro row' rfl
            split
            · exact ⟨hprofile, rfl, rfl⟩
            · exact ⟨hprofile, rfl, rfl⟩
          obtain ⟨hpid, hsame, hhash'⟩ := hkept _ rfl
          cases lists with
          | false =>
            refine .inr (.inr ⟨_, hafter, hhash'.trans hhash, hcdigit, hsame.trans hexpires,
              .inr ?_⟩)
            rw [hpid, hunswept]
            exact mem_cons_self
          | true =>
            refine .inr (.inl ?_)
            rw [hafter] at hnot
            simp only [Option.any_some, hpid, hsame, hexpires, true_and, decide_eq_true_eq,
              dates.lt_iff listedAt c.expiresAt hdigit hcdigit] at hnot
            rw [hclock]
            exact Int.not_lt.mp hnot
        · have hdead : row.isLiveOf profileId = false := by
            simp [AgentProfileCredentialRow.isLiveOf, hprofile]
          rw [hdead] at hafter
          refine .inr (.inr ⟨row, hafter, hhash, hcdigit, hexpires, hlive.imp_right ?_⟩)
          intro hmem
          rw [hunswept]
          cases lists with
          | false => exact mem_cons_of_mem _ hmem
          | true => exact mem_filter.mpr ⟨hmem, decide_eq_true hprofile⟩

theorem deleteProfile_cases (dates : IsoDates) (sha256Hex : String → String) (w : World)
    (profileId : String) (now listedAt : ℤ) (works lists : Bool) :
    ((perform dates sha256Hex w (.deleteProfile profileId now listedAt works lists)).1 = false ∧
      (step dates sha256Hex w (.deleteProfile profileId now listedAt works lists)).store =
        w.store ∧
      (step dates sha256Hex w (.deleteProfile profileId now listedAt works lists)).registry =
        w.registry ∧
      (step dates sha256Hex w (.deleteProfile profileId now listedAt works lists)).unswept =
        w.unswept) ∨
    ∃ w', step dates sha256Hex w (.deleteProfile profileId now listedAt works lists) = w' ∧
      (∀ id, w'.store.selectCredentialById id = (w.store.revokeLiveCredentials profileId
        "agent-profile-deleted" (dates.toISOString now)).1.selectCredentialById id) ∧
      w'.registry = (if lists then revokeRows w.registry
        ((listRestorableCredentials w'.store (dates.toISOString listedAt)).filter
          fun row => decide (row.profileId = profileId))
        (fun row => row.revokedBy.getD "agent-profile-deleted") listedAt
        else w.registry) ∧
      w'.unswept = (if lists then w.unswept.filter (· ≠ profileId)
        else profileId :: w.unswept) ∧ w'.clock = listedAt := by
  cases works with
  | false => exact .inl ⟨rfl, rfl, rfl, rfl⟩
  | true =>
    rcases delete_cases (dates.toISOString now) w.store profileId with
      ⟨e, he⟩ | ⟨removed, s', hdelete, hselect⟩
    · left
      simp [step, perform, deleteProfile, attempt, he, Except.mapError, Except.toBool]
    · refine .inr ⟨_, rfl, ?_⟩
      simp only [step, perform, deleteProfile, hdelete]
      cases lists <;> exact ⟨hselect, rfl, rfl, rfl⟩

theorem stepOf_deleteProfile {listedAt : ℤ}
    (hw : ∀ id c, w.registry.get id = some c → Holds dates w id c)
    (hadmissible : Admissible dates sha256Hex w
      (.deleteProfile profileId now listedAt works lists)) :
    StepOf dates sha256Hex w none
      (step dates sha256Hex w (.deleteProfile profileId now listedAt works lists)) := by
  obtain ⟨hclock, hdigit, -⟩ := hadmissible
  rcases deleteProfile_cases dates sha256Hex w profileId now listedAt works lists with
    ⟨-, hstore, hregistry, hunswept⟩ | ⟨w', hstep, hselect, hregistry, hunswept, htime⟩
  · exact StepOf.of_same hstore hregistry hunswept hclock hw
  · rw [hstep]
    exact stepOf_deleted hclock hdigit hselect hregistry hunswept htime hw

theorem get_restoreRows {rows : List AgentProfileCredentialRow}
    (h : (rows.foldl (restoreRow dates) registry).get id = some c) :
    registry.get id = some c ∨ ∃ row ∈ rows, row.credentialId = id ∧
      c.secretHash = row.secretHash ∧
        storedTime (restoreInput dates row).revokedAt = .ok c.revokedAt ∧
          requiredTime (dateInput dates row.expiresAt) = .ok c.expiresAt := by
  induction rows generalizing registry with
  | nil => exact .inl h
  | cons row rows ih =>
    rcases ih h with hheld | ⟨row', hmem, hrow'⟩
    · unfold restoreRow at hheld
      split at hheld
      · exact .inl hheld
      · split at hheld
        · rename_i registry' himport
          obtain ⟨c', hnew, rfl, hid, hhash, hrevoked, hexpires⟩ :=
            importCredential_eq_ok himport
          rw [← hid] at hnew
          rw [get_stored hnew] at hheld
          split at hheld
          · rename_i heq
            cases hheld
            exact .inr ⟨row, mem_cons_self, hid.symm.trans heq, hhash, hrevoked, hexpires⟩
          · exact .inl hheld
        · exact .inl hheld
    · exact .inr ⟨row', mem_cons_of_mem _ hmem, hrow'⟩

/-! ## The invariant -/

section Invariant

variable (dates : IsoDates) (sha256Hex : String → String)

structure RowOk (drawn : List String) (row : AgentProfileCredentialRow) : Prop where
  drawn : ∃ secret ∈ drawn, row.secretHash = sha256Hex secret
  dated : ∃ t, dates.FourDigit t ∧ row.expiresAt = dates.toISOString t
  marked : ∀ text, row.revokedAt = some text → text ≠ ""

structure Inv (w : World) : Prop where
  rows : ∀ id row, w.store.selectCredentialById id = some row → RowOk dates sha256Hex w.drawn row
  records : ∀ id c, w.registry.get id = some c → ∃ secret ∈ w.drawn, c.secretHash = sha256Hex secret
  holds : ∀ id c, w.registry.get id = some c → Holds dates w id c
  own : ∀ id id' row row', w.store.selectCredentialById id = some row →
    w.store.selectCredentialById id' = some row' → row.secretHash = row'.secretHash → id = id'
  distinct : ∀ secret ∈ w.drawn, ∀ other ∈ w.drawn, sha256Hex secret = sha256Hex other →
    secret = other

end Invariant

theorem select_restart {w : World} {maxTtlMs now : ℤ} {prunes lists : Bool} {id : String}
    {row : AgentProfileCredentialRow}
    (h : (restart dates w maxTtlMs now prunes lists).store.selectCredentialById id = some row) :
    w.store.selectCredentialById id = some row := by
  cases prunes with
  | false => exact h
  | true =>
    have hfind : (restart dates w maxTtlMs now true lists).store.selectCredentialById id =
        (w.store.selectCredentialById id).filter
          fun row => !decide (row.expiresAt ≤ dates.toISOString now) :=
      w.store.credentials.find?_remove _ id
    rw [hfind] at h
    exact (Option.filter_eq_some_iff.mp h).1

theorem record_of_restart (hI : Inv dates sha256Hex w) {maxTtlMs : ℤ} {prunes : Bool}
    (h : (restart dates w maxTtlMs now prunes lists).registry.get id = some c) :
    ∃ row, (restart dates w maxTtlMs now prunes lists).store.selectCredentialById id = some row ∧
      c.secretHash = row.secretHash ∧ (row.revokedAt.isSome = true → c.revokedAt.isSome = true) ∧
        dates.FourDigit c.expiresAt ∧ row.expiresAt = dates.toISOString c.expiresAt := by
  cases lists with
  | false => cases h
  | true =>
    rcases get_restoreRows h with hheld | ⟨row, hmem, hid, hhash, hrevoked, hexpires⟩
    · cases hheld
    · have hrow : (restart dates w maxTtlMs now prunes true).store.selectCredentialById id =
          some row :=
        (Table.find?_eq_some_iff _ _ _).mpr ⟨(mem_filter.mp hmem).1, hid⟩
      obtain ⟨-, ⟨t, hdigit, htext⟩, hmarked⟩ := hI.rows id row (select_restart hrow)
      have htime : c.expiresAt = t := by
        unfold dateInput at hexpires
        rw [htext, dates.parse_toISOString t hdigit] at hexpires
        exact (Except.ok.inj hexpires).symm
      refine ⟨row, hrow, hhash, fun hsome => ?_, htime ▸ hdigit, htime ▸ htext⟩
      obtain ⟨text, hmark⟩ := Option.isSome_iff_exists.mp hsome
      -- the mark is not empty, so its date is imported, or nothing is
      have htruthy : truthy row.revokedAt = some text :=
        (truthy_eq_some_iff _ _).mpr ⟨hmark, hmarked text hmark⟩
      unfold restoreInput dateInput at hrevoked
      simp only [htruthy] at hrevoked
      split at hrevoked
      · rw [← Except.ok.inj hrevoked]
        rfl
      · cases hrevoked

theorem stepOf_restart (hI : Inv dates sha256Hex w) {maxTtlMs : ℤ} {prunes : Bool} :
    StepOf dates sha256Hex w none
      (step dates sha256Hex w (.restart maxTtlMs now prunes lists)) where
  rows id row' hrow' :=
    .inl ⟨row', @select_restart dates w maxTtlMs now prunes lists id row' hrow', KeptRow.refl row'⟩
  records id c' h := by
    obtain ⟨row, hrow, hhash, hrevoked, -⟩ := record_of_restart hI h
    exact .inr (.inr ⟨row, hrow, hhash, hrevoked⟩)
  holds id c' h := by
    obtain ⟨row, hrow, hhash, hrevoked, hdigit, hexpires⟩ := record_of_restart hI h
    cases hmark : row.revokedAt with
    | none => exact .inr (.inr ⟨row, hrow, hhash.symm, hdigit, hexpires, .inl hmark⟩)
    | some text => exact .inl (hrevoked (by rw [hmark]; rfl))

/-- Every operation is one of the steps of the views. -/
theorem stepOf_step (hsha : ∀ text, Text.trim (sha256Hex text) = sha256Hex text)
    (hI : Inv dates sha256Hex w) (h : Admissible dates sha256Hex w op) :
    StepOf dates sha256Hex w op.draw? (step dates sha256Hex w op) := by
  cases op with
  | mint input ceiling now uuid secret works => exact stepOf_mint hsha hI.holds h
  | revoke profileId revokedBy now works => exact stepOf_revoke hI.holds h.1
  | deleteProfile profileId now listedAt works lists => exact stepOf_deleteProfile hI.holds h
  | restart maxTtlMs now prunes lists => exact stepOf_restart hI

theorem ne_of_admissible (h : Admissible dates sha256Hex w op)
    (hdraw : op.draw? = some (id, secret)) :
    ∀ known ∈ w.drawn, sha256Hex secret ≠ sha256Hex known := by
  cases op with
  | mint input ceiling now uuid drawn works =>
    cases hdraw
    exact h.2.2.2.2
  | revoke | deleteProfile | restart => cases hdraw

theorem drawn_step (w : World) (op : Op) :
    (step dates sha256Hex w op).drawn = (op.draw?.map (·.2)).toList ++ w.drawn := rfl

theorem mem_drawn_step (h : secret ∈ w.drawn) : secret ∈ (step dates sha256Hex w op).drawn :=
  mem_append_right _ h

theorem mem_drawn_of_draw
    (h : op.draw? = some (id, secret)) : secret ∈ (step dates sha256Hex w op).drawn := by
  rw [drawn_step, h]
  exact mem_cons_self

/-- The views agree after each operation. -/
theorem inv_step (hsha : ∀ text, Text.trim (sha256Hex text) = sha256Hex text)
    (hI : Inv dates sha256Hex w) (h : Admissible dates sha256Hex w op) :
    Inv dates sha256Hex (step dates sha256Hex w op) := by
  have hstep := stepOf_step hsha hI h
  have hrows : ∀ id row, (step dates sha256Hex w op).store.selectCredentialById id = some row →
      RowOk dates sha256Hex (step dates sha256Hex w op).drawn row := by
    intro id row' hrow'
    rcases hstep.rows id row' hrow' with
      ⟨row, hrow, hhash, -, hexpires, hmark⟩ | ⟨secret, hdraw, hhash, hlive, hdated⟩
    · obtain ⟨⟨secret, hdrawn, hrowHash⟩, ⟨t, hdigit, htext⟩, hmarked⟩ := hI.rows id row hrow
      refine ⟨⟨secret, mem_drawn_step hdrawn, hhash.trans hrowHash⟩,
        ⟨t, hdigit, hexpires.trans htext⟩, fun text htext => ?_⟩
      rcases hmark with hsame | ⟨t', hnow⟩
      · exact hmarked text (hsame.symm.trans htext)
      · rw [hnow] at htext
        cases htext
        exact dates.toISOString_ne t'
    · refine ⟨⟨secret, mem_drawn_of_draw hdraw, hhash⟩, hdated, fun text htext => ?_⟩
      rw [hlive] at htext
      cases htext
  -- the digest of a new secret is that of no row and no secret before
  have hnew : ∀ id secret, op.draw? = some (id, secret) → ∀ id' row,
      w.store.selectCredentialById id' = some row → sha256Hex secret ≠ row.secretHash := by
    intro id secret hdraw id' row hrow heq
    obtain ⟨known, hknown, hhash⟩ := (hI.rows id' row hrow).drawn
    exact ne_of_admissible h hdraw known hknown (heq.trans hhash)
  refine ⟨hrows, fun id c' hget => ?_, hstep.holds, ?_, ?_⟩
  · rcases hstep.records id c' hget with
      ⟨c, hc, hhash, -⟩ | ⟨secret, hdraw, hhash⟩ | ⟨row, hrow, hhash, -⟩
    · obtain ⟨secret, hdrawn, hold⟩ := hI.records id c hc
      exact ⟨secret, mem_drawn_step hdrawn, hhash.trans hold⟩
    · exact ⟨secret, mem_drawn_of_draw hdraw, hhash⟩
    · obtain ⟨secret, hdrawn, hrowHash⟩ := (hrows id row hrow).drawn
      exact ⟨secret, hdrawn, hhash.trans hrowHash⟩
  · intro id id' row row' hrow hrow' heq
    rcases hstep.rows id row hrow with ⟨old, hold, hhash, -⟩ | ⟨secret, hdraw, hhash, -⟩ <;>
      rcases hstep.rows id' row' hrow' with ⟨old', hold', hhash', -⟩ | ⟨secret', hdraw', hhash', -⟩
    · exact hI.own id id' old old' hold hold' (hhash.symm.trans (heq.trans hhash'))
    · exact absurd (hhash'.symm.trans (heq.symm.trans hhash)) (hnew id' secret' hdraw' id old hold)
    · exact absurd (hhash.symm.trans (heq.trans hhash')) (hnew id secret hdraw id' old' hold')
    · cases hdraw.symm.trans hdraw'
      rfl
  · intro secret hsecret other hother heq
    have hcase : ∀ text, text ∈ (step dates sha256Hex w op).drawn →
        (∃ id, op.draw? = some (id, text)) ∨ text ∈ w.drawn := by
      intro text htext
      rw [drawn_step, mem_append, Option.mem_toList, Option.map_eq_some_iff] at htext
      refine htext.imp_left ?_
      rintro ⟨⟨id, drawn⟩, hdraw, rfl⟩
      exact ⟨id, hdraw⟩
    rcases hcase secret hsecret with ⟨id, hdraw⟩ | hknown <;>
      rcases hcase other hother with ⟨id', hdraw'⟩ | hknown'
    · cases hdraw.symm.trans hdraw'
      rfl
    · exact absurd heq (ne_of_admissible h hdraw other hknown')
    · exact absurd heq.symm (ne_of_admissible h hdraw' secret hknown)
    · exact hI.distinct secret hknown other hknown' heq

end RelayIde.Profiles.Credentials
