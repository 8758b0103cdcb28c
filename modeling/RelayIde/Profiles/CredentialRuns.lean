import RelayIde.Profiles.CredentialViews

/-!
# Runs of Profile Credentials

What requests are let in after any run of mints, revocations, deletions and restarts in which
calls of the store may throw.

- `views_of_run` — what holds after any run
-/

namespace RelayIde.Profiles.Credentials

open RelayIde.Library RelayIde.Security RelayIde.Security.ActorCredential

/-! ## Accepted tokens -/

/-- Some request is let in with the token. -/
def Accepts (sha256Hex : String → String) (w : World) (token : String) (time : ℤ) : Prop :=
  ∃ input credential grantedBits,
    validate sha256Hex w.registry token input time = .ok credential grantedBits

variable {w : World} {token id secret digest profileId : String} {time now : ℤ} {op : Op}
  {row : AgentProfileCredentialRow} {input : MintInput} {works : Bool}

section
variable (htoken : parseLaneToken "relay-sac-v1" token = some (id, secret))
include htoken

variable {sha256Hex : String → String}

theorem accepts_record (h : Accepts sha256Hex w token time) :
    ∃ c, w.registry.get id = some c ∧ c.secretHash = sha256Hex secret ∧ time < c.expiresAt ∧
      c.revokedAt = none := by
  obtain ⟨input, credential, grantedBits, h⟩ := h
  obtain ⟨c, haccepted, -⟩ := accepted_of_validate h
  obtain ⟨id', secret', hparse, hget, hhash⟩ := haccepted.token
  rw [htoken] at hparse
  cases hparse
  exact ⟨c, hget, hhash, haccepted.unexpired, haccepted.unrevoked⟩

theorem accepts_congr {w' : World}
    (hget : w'.registry.get id = w.registry.get id) (h : Accepts sha256Hex w token time) :
    Accepts sha256Hex w' token time := by
  obtain ⟨input, credential, grantedBits, h⟩ := h
  refine ⟨input, credential, grantedBits, ?_⟩
  unfold validate at h ⊢
  rw [htoken] at h ⊢
  dsimp only at h ⊢
  rw [hget]
  exact h

end

theorem exists_parse_of_accepts {sha256Hex : String → String} (h : Accepts sha256Hex w token time) :
    ∃ id secret, parseLaneToken "relay-sac-v1" token = some (id, secret) := by
  obtain ⟨input, credential, grantedBits, h⟩ := h
  obtain ⟨c, haccepted, -⟩ := accepted_of_validate h
  obtain ⟨id, secret, hparse, -⟩ := haccepted.token
  exact ⟨id, secret, hparse⟩

theorem eq_of_fields {s t : String} (h : Text.fields '.' s = Text.fields '.' t) : s = t := by
  have hparts : s.toList.splitOn '.' = t.toList.splitOn '.' :=
    List.map_injective_iff.mpr (fun a b hab => String.ofList_injective hab) h
  have hjoined := congrArg (List.intercalate ['.']) hparts
  rw [List.intercalate_splitOn, List.intercalate_splitOn] at hjoined
  exact String.toList_inj.mp hjoined

theorem token_eq_of_parse {lane token' : String}
    (h : parseLaneToken lane token = some (id, secret))
    (h' : parseLaneToken lane token' = some (id, secret)) : token = token' := by
  have hfields : ∀ text, parseLaneToken lane text = some (id, secret) →
      Text.fields '.' text = [lane, id, secret] := by
    intro text htext
    unfold parseLaneToken at htext
    split at htext
    · rename_i first id' secret' hsplit
      split_ifs at htext with hlane
      cases htext
      rw [hsplit, hlane.1]
    · cases htext
  exact eq_of_fields ((hfields token h).trans (hfields token' h').symm)

/-! ## Dead digests -/

section Dead

variable (dates : IsoDates) (sha256Hex : String → String)

structure RowsDead (w : World) (digest : String) : Prop where
  drawn : ∃ secret ∈ w.drawn, digest = sha256Hex secret
  rows : ∀ id row, w.store.selectCredentialById id = some row → row.secretHash = digest →
    row.revokedAt.isSome = true

structure Dead (w : World) (digest : String) : Prop extends RowsDead sha256Hex w digest where
  records : ∀ id c, w.registry.get id = some c → c.secretHash = digest →
    c.revokedAt.isSome = true ∨ c.expiresAt ≤ w.clock

/-- Whatever runs next, no secret of the digest lets a request in. -/
def NeverAccepted (w : World) (digest : String) : Prop :=
  ∀ later, Guarded (step dates sha256Hex) (Admissible dates sha256Hex) w later →
    ∀ token id secret, parseLaneToken "relay-sac-v1" token = some (id, secret) →
      sha256Hex secret = digest → ∀ time, (exec (step dates sha256Hex) w later).clock ≤ time →
        ¬ Accepts sha256Hex (exec (step dates sha256Hex) w later) token time

/-- The rows whose credential a call ends, if it reports success. -/
def Ends : Op → AgentProfileCredentialRow → Prop
  | .mint input _ _ _ _ _, row => row.isLiveOf (Text.trim input.profileId) = true
  | .revoke profileId _ _ _, row => row.isLiveOf profileId = true
  | .deleteProfile profileId _ _ _ lists, row => row.profileId = profileId ∧ lists = true
  | .restart _ _ _ _, _ => False

end Dead

variable {dates : IsoDates} {sha256Hex : String → String}

section
variable (hsha : ∀ text, Text.trim (sha256Hex text) = sha256Hex text)
include hsha

theorem rowsDead_step
    (hI : Inv dates sha256Hex w) (hop : Admissible dates sha256Hex w op)
    (h : RowsDead sha256Hex w digest) :
    RowsDead sha256Hex (step dates sha256Hex w op) digest := by
  obtain ⟨known, hknown, rfl⟩ := h.drawn
  refine ⟨⟨known, mem_drawn_step hknown, rfl⟩, fun id row' hrow' hdigest => ?_⟩
  rcases (stepOf_step hsha hI hop).rows id row' hrow' with
    ⟨row, hrow, hhash, -, -, hmark⟩ | ⟨secret, hdraw, hhash, -⟩
  · have hrevoked := h.rows id row hrow (hhash.symm.trans hdigest)
    rcases hmark with hsame | ⟨t, hnow⟩
    · rw [hsame]
      exact hrevoked
    · rw [hnow]
      rfl
  · exact absurd (hhash.symm.trans hdigest) (ne_of_admissible hop hdraw known hknown)

/-- A dead token stays dead. -/
theorem dead_step
    (hI : Inv dates sha256Hex w) (hop : Admissible dates sha256Hex w op)
    (h : Dead sha256Hex w digest) :
    Dead sha256Hex (step dates sha256Hex w op) digest := by
  have hrows := rowsDead_step hsha hI hop h.toRowsDead
  obtain ⟨known, hknown, rfl⟩ := h.drawn
  refine ⟨hrows, fun id c' hget hdigest => ?_⟩
  rcases (stepOf_step hsha hI hop).records id c' hget with
    ⟨c, hc, hhash, hexpires, hrevoked⟩ | ⟨secret, hdraw, hhash⟩ | ⟨row, hrow, hhash, hrevoked⟩
  · rcases h.records id c hc (hhash.symm.trans hdigest) with hdead | hexpired
    · exact .inl (hrevoked hdead)
    · rw [hexpires]
      exact .inr (Int.le_trans hexpired hop.1)
  · exact absurd (hhash.symm.trans hdigest) (ne_of_admissible hop hdraw known hknown)
  · exact .inl (hrevoked (hrows.rows id row hrow (hhash.symm.trans hdigest)))

theorem dead_restart (hI : Inv dates sha256Hex w) {maxTtlMs : ℤ} {prunes lists : Bool}
    (hop : Admissible dates sha256Hex w (.restart maxTtlMs now prunes lists))
    (h : RowsDead sha256Hex w digest) :
    Dead sha256Hex (step dates sha256Hex w (.restart maxTtlMs now prunes lists)) digest := by
  have hrows := rowsDead_step hsha hI hop h
  refine ⟨hrows, fun id c hget hdigest => ?_⟩
  obtain ⟨row, hrow, hhash, hrevoked, -⟩ := record_of_restart hI hget
  exact .inl (hrevoked (hrows.rows id row hrow (hhash.symm.trans hdigest)))

theorem inv_and_of_run
    {P : World → Prop} (hP : ∀ w op, Inv dates sha256Hex w → Admissible dates sha256Hex w op →
      P w → P (step dates sha256Hex w op)) {ops : List Op}
    (hops : Guarded (step dates sha256Hex) (Admissible dates sha256Hex) w ops)
    (hI : Inv dates sha256Hex w) (hw : P w) :
    Inv dates sha256Hex (exec (step dates sha256Hex) w ops) ∧
      P (exec (step dates sha256Hex) w ops) :=
  exec_invariant_of_guarded (I := fun w => Inv dates sha256Hex w ∧ P w)
    (fun w op h hop => ⟨inv_step hsha h.1 hop, hP w op h.1 hop h.2⟩) ⟨hI, hw⟩ hops

theorem neverAccepted_of_dead (hI : Inv dates sha256Hex w) (h : Dead sha256Hex w digest) :
    NeverAccepted dates sha256Hex w digest := by
  intro later hlater token id secret htoken hdigest time htime haccepts
  obtain ⟨c, hget, hhash, hunexpired, hlive⟩ := accepts_record htoken haccepts
  obtain ⟨-, hdead⟩ := inv_and_of_run hsha (P := fun w => Dead sha256Hex w digest)
    (fun _ _ hI hop => dead_step hsha hI hop) hlater hI h
  rcases hdead.records id c hget (hhash.trans hdigest) with hrevoked | hexpired
  · rw [hlive] at hrevoked
    cases hrevoked
  · omega

end

theorem dead_of_row (hI : Inv dates sha256Hex w) (id : String)
    (row : AgentProfileCredentialRow) (hrow : w.store.selectCredentialById id = some row)
    (hrevoked : row.revokedAt.isSome = true) (hrecord : ∀ c, w.registry.get id = some c →
      c.revokedAt.isSome = true ∨ c.expiresAt ≤ w.clock) :
    Dead sha256Hex w row.secretHash := by
  obtain ⟨secret, hdrawn, hdigest⟩ := (hI.rows id row hrow).drawn
  refine ⟨⟨⟨secret, hdrawn, hdigest⟩, fun id' row' hrow' hhash => ?_⟩, fun id' c hget hhash => ?_⟩
  · obtain rfl := hI.own id' id row' row hrow' hrow hhash
    rw [hrow] at hrow'
    cases hrow'
    exact hrevoked
  · rcases hI.holds id' c hget with hdead | hexpired | ⟨row', hrow', hhash', -⟩
    · exact .inl hdead
    · exact .inr hexpired
    · -- the row of the record has the digest, so it is the row
      obtain rfl := hI.own id' id row' row hrow' hrow (hhash'.trans hhash)
      exact hrecord c hget

/-! ## What ends a credential -/

theorem isSome_retired {now revokedBy : String} (h : row.profileId = profileId) :
    (if row.isLiveOf profileId then row.revoke now revokedBy else row).revokedAt.isSome =
      true := by
  split
  · rfl
  · rename_i hnot
    cases hmark : row.revokedAt with
    | none =>
      refine absurd ?_ hnot
      simp [AgentProfileCredentialRow.isLiveOf, h, hmark]
    | some text => rfl

section
variable (row : AgentProfileCredentialRow) (profileId now revokedBy : String)

theorem secretHash_retired :
    (if row.isLiveOf profileId then row.revoke now revokedBy else row).secretHash =
      row.secretHash := by
  split <;> rfl

theorem profileId_retired :
    (if row.isLiveOf profileId then row.revoke now revokedBy else row).profileId =
      row.profileId := by
  split <;> rfl

end

section
variable (hsha : ∀ text, Text.trim (sha256Hex text) = sha256Hex text)
include hsha

theorem dead_of_minted
    (hI : Inv dates sha256Hex w) {ceiling : ℤ} {uuid : String}
    (hop : Admissible dates sha256Hex w (.mint input ceiling now uuid secret works))
    (hok : (perform dates sha256Hex w (.mint input ceiling now uuid secret works)).1 = true)
    (hrow : w.store.selectCredentialById id = some row)
    (hlive : row.isLiveOf (Text.trim input.profileId) = true) :
    Dead sha256Hex (step dates sha256Hex w (.mint input ceiling now uuid secret works))
      row.secretHash := by
  have hI' := inv_step hsha hI hop
  rcases mint_cases dates sha256Hex w input ceiling now uuid secret works with
    ⟨e, he⟩ | ⟨c, rfl, hnew, -, -, -, ⟨e, he⟩ | ⟨stored, revoked, store, token, hrecord, hmint⟩⟩
  · simp [perform, he, Except.toBool] at hok
  · simp [perform, he, Except.toBool] at hok
  · rw [step_mint hmint] at hI' ⊢
    obtain ⟨hrevoked, hunused, new, hnewId, -, -, -, -, hselect⟩ := recordCredential_eq_ok hrecord
    dsimp only [writeInput] at hrevoked hunused hnewId hselect
    -- the new row has an id of its own, so the old row is the one that was rotated
    have hother : new.credentialId ≠ id := by
      rintro rfl
      rw [← hnewId, hrow] at hunused
      cases hunused
    have hafter := hselect id
    rw [if_neg hother, select_revokeLive, hrow, Option.map_some, if_pos hlive] at hafter
    refine dead_of_row hI' id (row.revoke (dates.toISOString now) "rotated") hafter rfl
      fun c' hget => ?_
    obtain ⟨revoker, hrows⟩ := get_revokeRows (w.registry.store c) revoked
      (fun _ => input.issuerId) now id
    rw [hrows, hrevoked, any_revokeLive, hrow, Option.any_some, hlive] at hget
    obtain ⟨old, -, rfl⟩ := Option.map_eq_some_iff.mp hget
    exact .inl rfl

theorem dead_of_revoked (hI : Inv dates sha256Hex w) {revokedBy : String}
    (hop : Admissible dates sha256Hex w (.revoke profileId revokedBy now works))
    (hok : (perform dates sha256Hex w (.revoke profileId revokedBy now works)).1 = true)
    (hrow : w.store.selectCredentialById id = some row) (hlive : row.isLiveOf profileId = true) :
    Dead sha256Hex (step dates sha256Hex w (.revoke profileId revokedBy now works))
      row.secretHash := by
  have hI' := inv_step hsha hI hop
  cases works with
  | false => cases hok
  | true =>
    obtain ⟨hstore, hregistry, -⟩ := revoke_works dates sha256Hex w profileId revokedBy now
    refine dead_of_row hI' id (row.revoke (dates.toISOString now) revokedBy) ?_ rfl
      fun c' hget => ?_
    · rw [hstore, select_revokeLive, hrow, Option.map_some, if_pos hlive]
    · obtain ⟨revoker, hrows⟩ := get_revokeRows w.registry (w.store.revokeLiveCredentials profileId
        revokedBy (dates.toISOString now)).2 (fun _ => revokedBy) now id
      rw [hregistry, hrows, any_revokeLive, hrow, Option.any_some, hlive] at hget
      obtain ⟨old, -, rfl⟩ := Option.map_eq_some_iff.mp hget
      exact .inl rfl

end

theorem row_of_deleted {listedAt : ℤ} {lists : Bool}
    (hok : (perform dates sha256Hex w (.deleteProfile profileId now listedAt works lists)).1 =
      true)
    (hrow : w.store.selectCredentialById id = some row) (hprofile : row.profileId = profileId) :
    (step dates sha256Hex w (.deleteProfile profileId now listedAt works lists)).unswept =
        (if lists then w.unswept.filter (· ≠ profileId) else profileId :: w.unswept) ∧
      ∃ row', (step dates sha256Hex w (.deleteProfile profileId now listedAt works
          lists)).store.selectCredentialById id = some row' ∧ row'.revokedAt.isSome = true ∧
        row'.secretHash = row.secretHash ∧ row'.profileId = profileId := by
  rcases deleteProfile_cases dates sha256Hex w profileId now listedAt works lists with
    ⟨hfailed, -⟩ | ⟨w', hstep, hselect, -, hunswept, -⟩
  · rw [hfailed] at hok
    cases hok
  · rw [hstep]
    have hafter := hselect id
    rw [select_revokeLive, hrow] at hafter
    exact ⟨hunswept, _, hafter, isSome_retired hprofile, secretHash_retired row profileId _ _,
      (profileId_retired row profileId _ _).trans hprofile⟩

section
variable (hsha : ∀ text, Text.trim (sha256Hex text) = sha256Hex text)
include hsha

theorem dead_of_deleted (hI : Inv dates sha256Hex w) {listedAt : ℤ}
    (hop : Admissible dates sha256Hex w (.deleteProfile profileId now listedAt works true))
    (hok : (perform dates sha256Hex w (.deleteProfile profileId now listedAt works true)).1 = true)
    (hrow : w.store.selectCredentialById id = some row) (hprofile : row.profileId = profileId) :
    Dead sha256Hex (step dates sha256Hex w (.deleteProfile profileId now listedAt works true))
      row.secretHash := by
  obtain ⟨hunswept, row', hrow', hrevoked, hhash, hprofile'⟩ := row_of_deleted hok hrow hprofile
  have hI' := inv_step hsha hI hop
  rw [← hhash]
  refine dead_of_row hI' id row' hrow' hrevoked fun c hget => ?_
  rcases hI'.holds id c hget with hdead | hexpired | ⟨backing, hbacking, -, -, -, hlive⟩
  · exact .inl hdead
  · exact .inr hexpired
  · -- the row is revoked, and its profile was swept
    rw [hrow'] at hbacking
    cases hbacking
    rcases hlive with hnone | hmem
    · rw [hnone] at hrevoked
      cases hrevoked
    · rw [hunswept, hprofile'] at hmem
      simp at hmem

theorem rowsDead_of_deleted (hI : Inv dates sha256Hex w) {listedAt : ℤ} {lists : Bool}
    (hop : Admissible dates sha256Hex w (.deleteProfile profileId now listedAt works lists))
    (hok : (perform dates sha256Hex w (.deleteProfile profileId now listedAt works lists)).1 = true)
    (hrow : w.store.selectCredentialById id = some row) (hprofile : row.profileId = profileId) :
    RowsDead sha256Hex (step dates sha256Hex w (.deleteProfile profileId now listedAt works lists))
      row.secretHash := by
  obtain ⟨-, row', hrow', hrevoked, hhash, -⟩ := row_of_deleted hok hrow hprofile
  have hI' := inv_step hsha hI hop
  obtain ⟨secret, hdrawn, hdigest⟩ := (hI'.rows id row' hrow').drawn
  rw [← hhash]
  refine ⟨⟨secret, hdrawn, hdigest⟩, fun id₂ row₂ hrow₂ hhash₂ => ?_⟩
  obtain rfl := hI'.own id₂ id row₂ row' hrow₂ hrow' hhash₂
  rw [hrow'] at hrow₂
  cases hrow₂
  exact hrevoked

theorem dead_of_ends (hI : Inv dates sha256Hex w) (hop : Admissible dates sha256Hex w op)
    (hok : (perform dates sha256Hex w op).1 = true)
    (hrow : w.store.selectCredentialById id = some row)
    (hends : Ends op row) : Dead sha256Hex (step dates sha256Hex w op) row.secretHash := by
  cases op with
  | mint input ceiling now uuid secret works => exact dead_of_minted hsha hI hop hok hrow hends
  | revoke profileId revokedBy now works => exact dead_of_revoked hsha hI hop hok hrow hends
  | deleteProfile profileId now listedAt works lists =>
    obtain ⟨hprofile, rfl⟩ := hends
    exact dead_of_deleted hsha hI hop hok hrow hprofile
  | restart maxTtlMs now prunes lists => cases hends

end

theorem failed_mint {ceiling : ℤ} {uuid : String}
    (hfailed : (perform dates sha256Hex w (.mint input ceiling now uuid secret works)).1 = false) :
    (step dates sha256Hex w (.mint input ceiling now uuid secret works)).store = w.store ∧
      ∀ id, (step dates sha256Hex w (.mint input ceiling now uuid secret works)).registry.get id =
          w.registry.get id ∨
        w.registry.get id = none ∧ ∀ c, (step dates sha256Hex w
          (.mint input ceiling now uuid secret works)).registry.get id = some c →
            c.revokedAt.isSome = true := by
  rcases mint_cases dates sha256Hex w input ceiling now uuid secret works with
    ⟨e, he⟩ | ⟨c, rfl, hnew, -, -, -, ⟨e, he⟩ | ⟨stored, revoked, store, token, -, hmint⟩⟩
  · rw [step_mint he]
    exact ⟨rfl, fun id => .inl rfl⟩
  · rw [step_mint he]
    refine ⟨rfl, fun id => ?_⟩
    rw [get_revoke, get_stored hnew]
    by_cases hid : c.id = id
    · subst hid
      refine .inr ⟨hnew, fun c' hget => ?_⟩
      rw [if_pos rfl, Option.map_some, if_pos rfl] at hget
      cases hget
      rfl
    · left
      simp [hid, Ne.symm hid]
  · simp [perform, hmint, Except.toBool] at hfailed

theorem dead_of_failed_mint (hI : Inv dates sha256Hex w) {ceiling : ℤ} {uuid : String}
    (hop : Admissible dates sha256Hex w (.mint input ceiling now uuid secret works))
    (hfailed : (perform dates sha256Hex w (.mint input ceiling now uuid secret works)).1 = false) :
    Dead sha256Hex (step dates sha256Hex w (.mint input ceiling now uuid secret works))
      (sha256Hex secret) := by
  obtain ⟨hstore, hregistry⟩ := failed_mint hfailed
  have hnew := ne_of_admissible hop rfl
  refine ⟨⟨⟨secret, List.mem_cons_self, rfl⟩, fun id row hrow hhash => ?_⟩,
    fun id c hget hhash => ?_⟩
  · rw [hstore] at hrow
    obtain ⟨known, hknown, hold⟩ := (hI.rows id row hrow).drawn
    exact absurd (hhash.symm.trans hold) (hnew known hknown)
  · rcases hregistry id with hsame | ⟨-, hrevoked⟩
    · rw [hsame] at hget
      obtain ⟨known, hknown, hold⟩ := hI.records id c hget
      exact absurd (hhash.symm.trans hold) (hnew known hknown)
    · exact .inl (hrevoked c hget)

/-! ## Coherence -/

section Coherence

variable (dates : IsoDates) (sha256Hex : String → String)

/-- A hub that has minted nothing yet. -/
structure Start (w : World) : Prop where
  rows : ∀ id, w.store.selectCredentialById id = none
  records : ∀ id, w.registry.get id = none
  drawn : w.drawn = []

/-- The two views agree on what lets a request in, now and later. -/
structure Coherent (w : World) : Prop where
  /-- An accepted token has its row, unexpired, and live unless the deletion of its profile was not
      followed into the registry. -/
  backed : ∀ token id secret time, parseLaneToken "relay-sac-v1" token = some (id, secret) →
    w.clock ≤ time → Accepts sha256Hex w token time →
    ∃ row expires, w.store.selectCredentialById id = some row ∧
      row.secretHash = sha256Hex secret ∧ dates.parse row.expiresAt = some expires ∧
      time < expires ∧ (row.revokedAt = none ∨ row.profileId ∈ w.unswept)
  /-- Any other profile has at most one. -/
  one : ∀ token token' id id' secret secret' time time' row row',
    parseLaneToken "relay-sac-v1" token = some (id, secret) →
    parseLaneToken "relay-sac-v1" token' = some (id', secret') →
    w.clock ≤ time → w.clock ≤ time' →
    Accepts sha256Hex w token time → Accepts sha256Hex w token' time' →
    w.store.selectCredentialById id = some row → w.store.selectCredentialById id' = some row' →
    row.profileId = row'.profileId → row.profileId ∉ w.unswept →
    id = id' ∧ sha256Hex secret = sha256Hex secret' ∧
      (Function.Injective sha256Hex → token = token')
  /-- A reported revocation, rotation or deletion is final. -/
  ended : ∀ op, Admissible dates sha256Hex w op → (perform dates sha256Hex w op).1 = true →
    ∀ id row, w.store.selectCredentialById id = some row → Ends op row →
      NeverAccepted dates sha256Hex (step dates sha256Hex w op) row.secretHash
  /-- A deletion that was not followed is final with the next restart. -/
  deleted : ∀ profileId now listedAt works lists,
    Admissible dates sha256Hex w (.deleteProfile profileId now listedAt works lists) →
    (perform dates sha256Hex w (.deleteProfile profileId now listedAt works lists)).1 = true →
    ∀ id row, w.store.selectCredentialById id = some row → row.profileId = profileId →
    ∀ between, Guarded (step dates sha256Hex) (Admissible dates sha256Hex)
      (step dates sha256Hex w (.deleteProfile profileId now listedAt works lists)) between →
    ∀ maxTtlMs now' prunes lists', Admissible dates sha256Hex
        (exec (step dates sha256Hex)
          (step dates sha256Hex w (.deleteProfile profileId now listedAt works lists)) between)
        (.restart maxTtlMs now' prunes lists') →
      NeverAccepted dates sha256Hex
        (step dates sha256Hex (exec (step dates sha256Hex)
          (step dates sha256Hex w (.deleteProfile profileId now listedAt works lists)) between)
          (.restart maxTtlMs now' prunes lists')) row.secretHash
  /-- A mint that fails adds no token and takes none away. -/
  failed : ∀ input ceiling now uuid secret works,
    Admissible dates sha256Hex w (.mint input ceiling now uuid secret works) →
    (perform dates sha256Hex w (.mint input ceiling now uuid secret works)).1 = false →
    NeverAccepted dates sha256Hex
        (step dates sha256Hex w (.mint input ceiling now uuid secret works)) (sha256Hex secret) ∧
      ∀ token time, Accepts sha256Hex w token time → Accepts sha256Hex
        (step dates sha256Hex w (.mint input ceiling now uuid secret works)) token time

end Coherence

theorem inv_of_start (h : Start w) : Inv dates sha256Hex w where
  rows id row hrow := by
    rw [h.rows id] at hrow
    cases hrow
  records id c hget := by
    rw [h.records id] at hget
    cases hget
  holds id c hget := by
    rw [h.records id] at hget
    cases hget
  own id id' row row' hrow := by
    rw [h.rows id] at hrow
    cases hrow
  distinct secret hsecret := by
    rw [h.drawn] at hsecret
    cases hsecret

theorem backed_of_inv (hI : Inv dates sha256Hex w)
    (htoken : parseLaneToken "relay-sac-v1" token = some (id, secret)) (htime : w.clock ≤ time)
    (h : Accepts sha256Hex w token time) :
    ∃ row expires, w.store.selectCredentialById id = some row ∧
      row.secretHash = sha256Hex secret ∧ dates.parse row.expiresAt = some expires ∧
      time < expires ∧ (row.revokedAt = none ∨ row.profileId ∈ w.unswept) := by
  obtain ⟨c, hget, hhash, hunexpired, hlive⟩ := accepts_record htoken h
  rcases hI.holds id c hget with hrevoked | hexpired | ⟨row, hrow, hrowHash, hdigit, htext, hmark⟩
  · rw [hlive] at hrevoked
    cases hrevoked
  · omega
  · refine ⟨row, c.expiresAt, hrow, hrowHash.trans hhash, ?_, hunexpired, hmark⟩
    rw [htext]
    exact dates.parse_toISOString c.expiresAt hdigit

theorem eq_of_live {s : Store} {id' : String} {row' : AgentProfileCredentialRow}
    (hrow : s.selectCredentialById id = some row) (hrow' : s.selectCredentialById id' = some row')
    (hlive : row.revokedAt = none) (hlive' : row'.revokedAt = none)
    (hprofile : row.profileId = row'.profileId) : id = id' := by
  obtain ⟨hmem, hid⟩ := (s.credentials.find?_eq_some_iff _ _).mp hrow
  obtain ⟨hmem', hid'⟩ := (s.credentials.find?_eq_some_iff _ _).mp hrow'
  rw [← hid, ← hid']
  refine congrArg _ (s.credentials.eq_of_indexed hmem hmem' (i := row.profileId) ?_ ?_)
  · simp [AgentProfileCredentialRow.liveOf, hlive]
  · simp [AgentProfileCredentialRow.liveOf, hlive', hprofile]

theorem coherent_of_inv (hsha : ∀ text, Text.trim (sha256Hex text) = sha256Hex text)
    (hI : Inv dates sha256Hex w) : Coherent dates sha256Hex w where
  backed token id secret time htoken htime h := backed_of_inv hI htoken htime h
  one token token' id id' secret secret' time time' row row' htoken htoken' htime htime' h h'
      hrow hrow' hprofile hswept := by
    obtain ⟨found, -, hfound, hhash, -, -, hmark⟩ := backed_of_inv hI htoken htime h
    obtain ⟨found', -, hfound', hhash', -, -, hmark'⟩ := backed_of_inv hI htoken' htime' h'
    rw [hrow] at hfound
    rw [hrow'] at hfound'
    cases hfound
    cases hfound'
    have hlive : row.revokedAt = none := hmark.resolve_right hswept
    have hlive' : row'.revokedAt = none := hmark'.resolve_right (hprofile ▸ hswept)
    obtain rfl := eq_of_live hrow hrow' hlive hlive' hprofile
    rw [hrow] at hrow'
    cases hrow'
    have hdigest : sha256Hex secret = sha256Hex secret' := hhash.symm.trans hhash'
    refine ⟨rfl, hdigest, fun hinjective => ?_⟩
    obtain rfl := hinjective hdigest
    exact token_eq_of_parse htoken htoken'
  ended op hop hok id row hrow hends :=
    neverAccepted_of_dead hsha (inv_step hsha hI hop) (dead_of_ends hsha hI hop hok hrow hends)
  deleted profileId now listedAt works lists hop hok id row hrow hprofile between hbetween maxTtlMs
      now' prunes lists' hrestart := by
    have hrows := rowsDead_of_deleted hsha hI hop hok hrow hprofile
    obtain ⟨hI', hrows'⟩ := inv_and_of_run hsha
      (P := fun w => RowsDead sha256Hex w row.secretHash)
      (fun _ _ hI hop => rowsDead_step hsha hI hop) hbetween (inv_step hsha hI hop) hrows
    exact neverAccepted_of_dead hsha (inv_step hsha hI' hrestart)
      (dead_restart hsha hI' hrestart hrows')
  failed input ceiling now uuid secret works hop hfailed := by
    refine ⟨neverAccepted_of_dead hsha (inv_step hsha hI hop)
      (dead_of_failed_mint hI hop hfailed), fun token time h => ?_⟩
    obtain ⟨id, given, htoken⟩ := exists_parse_of_accepts h
    obtain ⟨c, hget, -⟩ := accepts_record htoken h
    refine accepts_congr htoken ?_ h
    rcases (failed_mint hfailed).2 id with hsame | ⟨hnone, -⟩
    · exact hsame
    · rw [hget] at hnone
      cases hnone

/-- After any run from a hub that has minted nothing, the two views agree. -/
theorem coherent_of_run (hsha : ∀ text, Text.trim (sha256Hex text) = sha256Hex text)
    {w : World} (hstart : Start w) {ops : List Op}
    (hops : Guarded (step dates sha256Hex) (Admissible dates sha256Hex) w ops) :
    Coherent dates sha256Hex (exec (step dates sha256Hex) w ops) := by
  apply coherent_of_inv hsha
  exact (inv_and_of_run hsha (P := fun _ => True) (fun _ _ _ _ _ => trivial) hops
    (inv_of_start hstart) trivial).1

/-! ## A mint, and a deletion that is not followed -/

/-- Two dates, a quarter of an hour apart. -/
def quarterDates : IsoDates where
  toISOString t := if t = 0 then "1970-01-01T00:00:00.000Z" else "1970-01-01T00:15:00.000Z"
  parse text :=
    if text = "1970-01-01T00:00:00.000Z" then some 0
    else if text = "1970-01-01T00:15:00.000Z" then some 900000 else none
  FourDigit t := t = 0 ∨ t = 900000
  toISOString_ne t := by split <;> decide
  trim_toISOString t := by split <;> rfl
  parse_toISOString := by
    rintro t (rfl | rfl) <;> rfl
  lt_iff := by
    rintro s t (rfl | rfl) (rfl | rfl) <;> decide

def emptyHub : World := ⟨Store.empty, .empty 900000, 0, [], []⟩

theorem start_emptyHub : Start emptyHub := ⟨fun _ => rfl, fun _ => rfl, rfl⟩

/-- A profile is given the secret `00`. -/
def mint00 : Op :=
  .mint { profileId := "p1", issuerId := "op", ttlMs := some 900000 } 900000 0 "c1" "00" true

def accountRead : ValidateInput where
  audience := "relay:cli-gateway:v1"
  requiredCapabilities := ["session:read"]
  scope := { taskRef := some "relay:cli-gateway:v1:read" }

/-- Whether a token lets a request in. -/
def validates (sha256Hex : String → String) (w : World) (token : String) (input : ValidateInput)
    (time : ℤ) : Bool :=
  match validate sha256Hex w.registry token input time with
  | .ok _ _ => true
  | .failed _ _ _ => false

theorem accepts_of_validates {sha256Hex : String → String} (input : ValidateInput)
    (h : validates sha256Hex w token input time = true) : Accepts sha256Hex w token time := by
  unfold validates at h
  split at h
  · rename_i hok
    exact ⟨input, _, _, hok⟩
  · cases h

/-- The hub after the mint, and after the deletion that is not followed. -/
theorem runs_mint00 :
    let w := exec (step quarterDates sha256HexOf00) emptyHub [mint00]
    let deletion := Op.deleteProfile "p1" 0 0 true false
    Text.trim digest00 = digest00 ∧
      validates sha256HexOf00 w "relay-sac-v1.c1.00" accountRead 0 = true ∧
      (perform quarterDates sha256HexOf00 w deletion).1 = true ∧
      ((step quarterDates sha256HexOf00 w deletion).store.selectCredentialById "c1").any
        (·.revokedAt.isSome) = true ∧
      validates sha256HexOf00 (step quarterDates sha256HexOf00 w deletion) "relay-sac-v1.c1.00"
        accountRead 0 = true := by
  decide +kernel

theorem guarded_mint00 : Guarded (step quarterDates sha256HexOf00)
    (Admissible quarterDates sha256HexOf00) emptyHub [mint00] :=
  ⟨⟨Int.le_refl 0, .inl rfl, .inr rfl, rfl, fun known hknown => by cases hknown⟩, trivial⟩

/-- The views agree after a mint, and its token lets a request in. -/
theorem coherent_of_mint00 :
    Coherent quarterDates sha256HexOf00
        (exec (step quarterDates sha256HexOf00) emptyHub [mint00]) ∧
      Accepts sha256HexOf00 (exec (step quarterDates sha256HexOf00) emptyHub [mint00])
        "relay-sac-v1.c1.00" 0 :=
  ⟨coherent_of_run (fun _ => runs_mint00.1) start_emptyHub guarded_mint00,
    accepts_of_validates accountRead runs_mint00.2.1⟩

/-- The deletion of a profile is reported, and where listing the rows throws its token still lets
    a request in. -/
theorem accepted_after_deletion :
    let w := exec (step quarterDates sha256HexOf00) emptyHub [mint00]
    let deletion := Op.deleteProfile "p1" 0 0 true false
    Admissible quarterDates sha256HexOf00 w deletion ∧
      (perform quarterDates sha256HexOf00 w deletion).1 = true ∧
      (∃ row, (step quarterDates sha256HexOf00 w deletion).store.selectCredentialById "c1" =
        some row ∧ row.revokedAt.isSome = true) ∧
      Accepts sha256HexOf00 (step quarterDates sha256HexOf00 w deletion) "relay-sac-v1.c1.00" 0 := by
  obtain ⟨-, -, hreported, hrevoked, hvalidates⟩ := runs_mint00
  exact ⟨⟨Int.le_refl 0, .inl rfl, Int.le_refl 0, Int.le_refl 0, .inl rfl⟩, hreported,
    (Option.any_eq_true _ _).mp hrevoked, accepts_of_validates accountRead hvalidates⟩

end RelayIde.Profiles.Credentials
