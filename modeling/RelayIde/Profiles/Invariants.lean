import RelayIde.Library.Machine
import RelayIde.Profiles.Store

/-!
# Invariants of the Profile Store

What every run of the store keeps: the flags of the defaults, the blobs beside their columns, the
secrets beside their provider, and the revocations of credentials.

- `invariants_of_run` — all of it, over every run from an empty store
-/

namespace RelayIde.Profiles

open RelayIde.Library RelayIde.Security

/-! ## Rows and their blobs -/

def Agrees (row : AgentProfileRow) : Prop :=
  ∃ profile, row.profileJson = some profile ∧ isAgentProfile profile = true ∧
    profile.id = row.id ∧ profile.providerId = row.providerId ∧
      profile.isDefault = row.isDefault ∧ profile.isBuiltIn = row.isBuiltIn

def Agreeing (s : Store) : Prop :=
  ∀ id row, s.selectById id = some row → Agrees row

variable {s s' : Store} {id providerId now credentialId : String} {row : AgentProfileRow}
  {profile : AgentProfile} {α : Type} {op : Op} {input : AgentProfileCredentialWriteInput}
  {nextSecret : Option (Option String)} {old new : Option AgentProfileRow}

theorem id_of_selectById (h : s.selectById id = some row) : row.id = id :=
  ((s.profiles.find?_eq_some_iff _ _).mp h).2

theorem selectDefaultForProvider_eq_some (h : s.selectDefaultForProvider providerId = some row) :
    s.selectById row.id = some row ∧ row.providerId = providerId ∧ row.isDefault = true := by
  refine ⟨s.profiles.find?_key (List.mem_of_find?_eq_some h), ?_⟩
  simpa using List.find?_some h

theorem eq_of_defaults {id' : String} {row' : AgentProfileRow}
    (h : s.selectById id = some row) (h' : s.selectById id' = some row')
    (hdefault : row.isDefault = true) (hdefault' : row'.isDefault = true)
    (hprovider : row.providerId = row'.providerId) : row = row' := by
  apply s.profiles.eq_of_indexed ((s.profiles.find?_eq_some_iff _ _).mp h).1
    ((s.profiles.find?_eq_some_iff _ _).mp h').1
  · exact if_pos hdefault
  · rw [hprovider]
    exact if_pos hdefault'

theorem agrees_of_stored
    (hjson : row.profileJson = toStoredJson profile) (hvalid : isAgentProfile profile = true)
    (hid : profile.id = row.id) (hprovider : profile.providerId = row.providerId)
    (hdefault : profile.isDefault = row.isDefault) (hbuiltIn : profile.isBuiltIn = row.isBuiltIn) :
    Agrees row :=
  ⟨_, hjson, hvalid, hid, hprovider, hdefault, hbuiltIn⟩

theorem rowToProfileSafe_of_agrees (h : Agrees row) :
    ∃ profile, rowToProfileSafe row = some profile := by
  obtain ⟨profile, hjson, hvalid, -⟩ := h
  unfold rowToProfileSafe
  rw [hjson]
  exact ⟨_, if_pos hvalid⟩

theorem rowToProfileSafe_eq_some (h : rowToProfileSafe row = some profile) (hagrees : Agrees row) :
    isAgentProfile profile = true ∧ profile.id = row.id ∧ profile.providerId = row.providerId ∧
      profile.isDefault = row.isDefault ∧ profile.isBuiltIn = row.isBuiltIn := by
  obtain ⟨parsed, hjson, hvalid, hid, hprovider, hdefault, hbuiltIn⟩ := hagrees
  unfold rowToProfileSafe at h
  rw [hjson] at h
  simp only [hvalid, if_true, Option.some.injEq] at h
  subst h
  -- the reconciled fields are those of the blob, so the check still passes
  refine ⟨?_, rfl, rfl, rfl, rfl⟩
  rw [← hid, ← hprovider]
  exact hvalid

theorem getById_eq_some (hs : Agreeing s) {id : String} {profile : AgentProfile}
    (h : getById s id = some profile) : ∃ row, s.selectById id = some row ∧ row.id = id ∧
      isAgentProfile profile = true ∧ profile.id = id ∧ profile.providerId = row.providerId ∧
        profile.isDefault = row.isDefault ∧ profile.isBuiltIn = row.isBuiltIn := by
  obtain ⟨row, hrow, hsafe⟩ := Option.bind_eq_some_iff.mp h
  have hid := id_of_selectById hrow
  obtain ⟨hvalid, hpid, hrest⟩ := rowToProfileSafe_eq_some hsafe (hs id row hrow)
  exact ⟨row, hrow, hid, hvalid, hpid.trans hid, hrest⟩

theorem exists_getById (h : s.selectById id = some row) (hagrees : Agrees row) :
    ∃ profile, getById s id = some profile := by
  obtain ⟨profile, hsafe⟩ := rowToProfileSafe_of_agrees hagrees
  refine ⟨profile, ?_⟩
  unfold getById
  rw [h]
  exact hsafe

/-! ## What a statement leaves -/

theorem mapError_eq_ok {ε ε' : Type} {f : ε → ε'} {r : Except ε α} {a : α}
    (h : r.mapError f = .ok a) : r = .ok a := by
  cases r with
  | error e => cases h
  | ok b =>
    cases h
    rfl

theorem onProfiles_eq_ok
    {r : Except Violation (IndexedTable AgentProfileRow.id AgentProfileRow.defaultOf)}
    (h : s.onProfiles r = .ok s') : ∃ profiles, r = .ok profiles ∧ s' = { s with profiles } := by
  cases r with
  | error e => cases h
  | ok profiles =>
    cases h
    exact ⟨profiles, rfl, rfl⟩

theorem selectById_of_update {f : AgentProfileRow → AgentProfileRow}
    {hf : ∀ row, (f row).id = row.id} (h : s.onProfiles (s.profiles.update id f hf) = .ok s')
    (id' : String) :
    s'.credentials = s.credentials ∧ s'.selectById id' =
      if id = id' then (s.selectById id).map f else s.selectById id' := by
  obtain ⟨profiles, hupdate, rfl⟩ := onProfiles_eq_ok h
  exact ⟨rfl, IndexedTable.find?_update hupdate id'⟩

theorem selectById_of_insert (h : s.insertRow row = .ok s') (id : String) :
    s'.credentials = s.credentials ∧ s.selectById row.id = none ∧
      s'.selectById id = if row.id = id then some row else s.selectById id := by
  obtain ⟨profiles, hinsert, rfl⟩ := onProfiles_eq_ok h
  exact ⟨rfl, IndexedTable.find?_insert hinsert id⟩

/-! ## What a call does to a profile -/

/-- A call that supplies the secret of a profile, and goes through. -/
def Supplies (s : Store) (op : Op) (id secret : String) : Prop :=
  match op with
  | .create now uuid input => (∃ profile, (create now uuid s input).1 = .ok profile ∧
      profile.id = id) ∧ normalizeGatewaySecret input.hermesApiKey = .ok (some secret)
  | .update now target patch => target = id ∧ (∃ profile, (update now s target patch).1 =
      .ok profile) ∧ ∃ value, patch.hermesApiKey = .given value ∧
        normalizeGatewaySecret (some value) = .ok (some secret)
  | _ => False

/-- What a call that leaves `s'` does to the row under one id. -/
inductive RowStep (s : Store) (op : Op) (s' : Store) :
    Option AgentProfileRow → Option AgentProfileRow → Prop where
  | absent : RowStep s op s' none none
  | kept {old new : AgentProfileRow} (hid : new.id = old.id)
      (hprovider : new.providerId = old.providerId)
      (hsecret : new.hermesApiKey = old.hermesApiKey)
      (hdefault : old.isDefault = true → new.isDefault = true)
      (hagrees : Agrees old → Agrees new) : RowStep s op s' (some old) (some new)
  | cleared {old new winner : AgentProfileRow} (hid : new.id = old.id)
      (hprovider : new.providerId = old.providerId)
      (hsecret : new.hermesApiKey = old.hermesApiKey) (hagrees : Agrees new)
      (hwinner : s'.selectById winner.id = some winner) (hother : winner.id ≠ old.id)
      (hwins : winner.isDefault = true ∧ winner.providerId = old.providerId) :
      RowStep s op s' (some old) (some new)
  | updated {old new : AgentProfileRow} (hid : new.id = old.id) (hagrees : Agrees new)
      (hdefault : old.isDefault = true →
        new.isDefault = true ∧ new.providerId = old.providerId)
      (hsecret : ∀ secret, new.hermesApiKey = some secret → Supplies s op new.id secret ∨
        new.providerId = old.providerId ∧ old.hermesApiKey = some secret) :
      RowStep s op s' (some old) (some new)
  | created {new : AgentProfileRow} (hagrees : Agrees new)
      (hsecret : ∀ secret, new.hermesApiKey = some secret → Supplies s op new.id secret) :
      RowStep s op s' none (some new)
  | deleted {old : AgentProfileRow} (hop : ∃ now, op = .delete now old.id) :
      RowStep s op s' (some old) none

theorem RowStep.refl (row : Option AgentProfileRow) : RowStep s op s' row row := by
  cases row with
  | none => exact .absent
  | some row => exact .kept rfl rfl rfl id id

/-! ## Operations on profiles -/

theorem passed {β : Type} {c : Prop} [Decidable c] {status : ℕ} {code message : String}
    {f : α → Except Thrown β} {g : Except Thrown β} {b : β}
    (h : (if c then refuse status code message >>= f else g) = .ok b) : ¬ c ∧ g = .ok b := by
  split at h
  · cases h
  · rename_i hc
    exact ⟨hc, h⟩

theorem buildProfile_eq_ok {isDefault : Bool} {input : AgentProfileCreateInput}
    (h : buildProfile id providerId isDefault input = .ok profile) :
    isAgentProfile profile = true ∧ profile.id = id ∧ profile.providerId = providerId ∧
      profile.isDefault = isDefault := by
  unfold buildProfile at h
  dsimp only at h
  split at h
  · rename_i hvalid
    cases h
    exact ⟨hvalid, rfl, rfl, rfl⟩
  · cases h

theorem createRow_eq_ok {uuid : String} {input : AgentProfileCreateInput}
    (h : createRow now uuid s input = .ok row) :
    Agrees row ∧ normalizeGatewaySecret input.hermesApiKey = .ok row.hermesApiKey := by
  obtain ⟨providerId, -, h⟩ := bind_eq_ok h
  obtain ⟨-, h⟩ := passed h
  obtain ⟨-, h⟩ := passed h
  obtain ⟨profile, hprofile, h⟩ := bind_eq_ok h
  obtain ⟨secret, hsecret, h⟩ := bind_eq_ok h
  cases h
  obtain ⟨hvalid, hid, hprovider, hdefault⟩ := buildProfile_eq_ok hprofile
  exact ⟨agrees_of_stored rfl hvalid hid hprovider hdefault rfl, hsecret⟩

/-- What `create` does: nothing, or one row more that is read back. -/
theorem create_cases (now uuid : String) (s : Store) (input : AgentProfileCreateInput) :
    (∃ e, create now uuid s input = (.error e, s)) ∨
      ∃ row profile s', create now uuid s input = (.ok profile, s') ∧ profile.id = row.id ∧
        Agrees row ∧ normalizeGatewaySecret input.hermesApiKey = .ok row.hermesApiKey ∧
          s.insertRow row = .ok s' := by
  unfold create
  cases hrow : createRow now uuid s input with
  | error e => exact .inl ⟨e, rfl⟩
  | ok row =>
    dsimp only
    cases hinsert : s.insertRow row with
    | error violation => exact .inl ⟨_, rfl⟩
    | ok s' =>
      right
      obtain ⟨hagrees, hsecret⟩ := createRow_eq_ok hrow
      -- the row is in the store, so it is found again
      have hfound : s'.selectById row.id = some row := by
        rw [(selectById_of_insert hinsert row.id).2.2, if_pos rfl]
      obtain ⟨profile, hread⟩ := exists_getById hfound hagrees
      refine ⟨row, profile, s', ?_, ?_, hagrees, hsecret, hinsert⟩
      · simp only [readBack, hread]
      · obtain ⟨row', hrow', hsafe⟩ := Option.bind_eq_some_iff.mp hread
        cases hfound.symm.trans hrow'
        exact (rowToProfileSafe_eq_some hsafe hagrees).2.1

theorem patchedSecret_eq_ok {field : Field String} {providerChanged : Bool}
    (h : patchedSecret field providerChanged = .ok nextSecret) :
    (nextSecret = none → providerChanged = false) ∧
      ∀ secret, nextSecret = some (some secret) → ∃ value, field = .given value ∧
        normalizeGatewaySecret (some value) = .ok (some secret) := by
  cases field with
  | given value =>
    dsimp only [patchedSecret] at h
    cases hsecret : normalizeGatewaySecret (some value) with
    | error e =>
      rw [hsecret] at h
      cases h
    | ok secret =>
      rw [hsecret] at h
      cases h
      exact ⟨nofun, fun k hk => ⟨value, rfl, by cases hk; exact hsecret⟩⟩
  | null =>
    cases h
    exact ⟨nofun, nofun⟩
  | absent | undefined =>
    cases h
    cases providerChanged <;> simp

/-- What `checkUpdate` lets through. -/
structure Planned (current profile : AgentProfile) (field : Field String)
    (nextSecret : Option (Option String)) : Prop where
  valid : isAgentProfile profile = true
  id : profile.id = current.id
  isBuiltIn : profile.isBuiltIn = current.isBuiltIn
  isDefault : current.isDefault = true →
    profile.isDefault = true ∧ profile.providerId = current.providerId
  keeps : nextSecret = none → profile.providerId = current.providerId
  supplies : ∀ secret, nextSecret = some (some secret) → ∃ value, field = .given value ∧
    normalizeGatewaySecret (some value) = .ok (some secret)

theorem checkUpdate_eq_ok {patch : AgentProfileUpdateInput} {current : AgentProfile}
    (h : checkUpdate s id patch = .ok (current, profile, nextSecret)) :
    getById s id = some current ∧ Planned current profile patch.hermesApiKey nextSecret := by
  unfold checkUpdate at h
  cases hcurrent : getById s id with
  | none =>
    rw [hcurrent] at h
    cases h
  | some found =>
    rw [hcurrent] at h
    obtain ⟨-, h⟩ := passed h
    obtain ⟨providerId, -, h⟩ := bind_eq_ok h
    obtain ⟨-, h⟩ := passed h
    obtain ⟨isDefault, -, h⟩ := bind_eq_ok h
    obtain ⟨hretains, h⟩ := passed h
    obtain ⟨hstays, h⟩ := passed h
    obtain ⟨hvalid, h⟩ := passed h
    obtain ⟨secret, hsecret, h⟩ := bind_eq_ok h
    cases h
    obtain ⟨hkeeps, hsupplies⟩ := patchedSecret_eq_ok hsecret
    refine ⟨rfl, by simpa using hvalid, rfl, rfl, ?_, ?_, hsupplies⟩
    · intro hdefault
      have htrue : isDefault = true := by simpa [hdefault] using hretains
      have hsame : providerId = current.providerId := by simpa [hdefault] using hstays
      exact ⟨htrue, hsame⟩
    · intro hnone
      have hsame : providerId = current.providerId := by simpa using hkeeps hnone
      exact hsame

/-- The former default of a provider, without its flag. -/
structure ClearedRow (old new : AgentProfileRow) : Prop where
  id : new.id = old.id
  providerId : new.providerId = old.providerId
  hermesApiKey : new.hermesApiKey = old.hermesApiKey
  agrees : Agrees new

theorem clearDefault_eq_ok {previous : Option AgentProfileRow}
    (hs : Agreeing s) (hprevious : ∀ row, previous = some row → s.selectById row.id = some row)
    (h : (match previous with
      | some row => clearDefault now s row
      | none => .ok s) = .ok s') :
    s'.credentials = s.credentials ∧ ∀ id, s'.selectById id = s.selectById id ∨
      ∃ old new, previous = some old ∧ old.id = id ∧ s'.selectById id = some new ∧
        ClearedRow old new := by
  cases previous with
  | none =>
    cases h
    exact ⟨rfl, fun id => .inl rfl⟩
  | some old =>
    have hfound := hprevious old rfl
    obtain ⟨profile, hsafe⟩ := rowToProfileSafe_of_agrees (hs old.id old hfound)
    dsimp only [clearDefault] at h
    rw [hsafe] at h
    obtain ⟨hvalid, hid, hprovider, -, hbuiltIn⟩ :=
      rowToProfileSafe_eq_some hsafe (hs old.id old hfound)
    refine ⟨(selectById_of_update h "").1, fun id => ?_⟩
    have hrow := (selectById_of_update h id).2
    by_cases heq : old.id = id
    · rw [if_pos heq, hfound] at hrow
      refine .inr ⟨old, _, rfl, heq, hrow, rfl, rfl, rfl, ?_⟩
      exact agrees_of_stored rfl hvalid hid hprovider rfl hbuiltIn
    · rw [if_neg heq] at hrow
      exact .inl hrow

theorem writeUpdate_eq_ok {current : AgentProfile} {field : Field String} (hs : Agreeing s)
    (hcurrent : getById s id = some current) (hplan : Planned current profile field nextSecret)
    (h : writeUpdate now s id current profile nextSecret = .ok (s', ())) :
    s'.credentials = s.credentials ∧ ∃ old new, s.selectById id = some old ∧
      s'.selectById id = some new ∧ new.id = id ∧ Agrees new ∧
        new.providerId = profile.providerId ∧ new.isDefault = profile.isDefault ∧
          new.hermesApiKey = nextSecret.getD old.hermesApiKey ∧
            ∀ id', id ≠ id' → s'.selectById id' = s.selectById id' ∨
              ∃ loser row, s.selectById id' = some loser ∧ s'.selectById id' = some row ∧
                ClearedRow loser row ∧ profile.isDefault = true ∧
                  loser.providerId = profile.providerId := by
  obtain ⟨old, hold, hid, -, hpid, -⟩ := getById_eq_some hs hcurrent
  have hprofile : profile.id = old.id := hplan.id.trans (hpid.trans hid.symm)
  unfold writeUpdate at h
  obtain ⟨cleared, hcleared, h⟩ := bind_eq_ok h
  obtain ⟨written, hwritten, h⟩ := bind_eq_ok h
  have hcleared := mapError_eq_ok hcleared
  have hwritten := mapError_eq_ok hwritten
  -- the row that may lose its flag is another one
  have hprevious : ∀ row, (if profile.isDefault = true ∧ (!current.isDefault) = true then
      (s.selectDefaultForProvider profile.providerId).filter (decide <| ·.id ≠ id)
      else none) = some row → s.selectById row.id = some row ∧ row.id ≠ id ∧
        profile.isDefault = true ∧ row.providerId = profile.providerId := by
    intro row hrow
    split at hrow
    · rename_i hflag
      obtain ⟨hselect, hother⟩ := Option.filter_eq_some_iff.mp hrow
      obtain ⟨hfound, hprovider, -⟩ := selectDefaultForProvider_eq_some hselect
      exact ⟨hfound, of_decide_eq_true hother, hflag.1, hprovider⟩
    · cases hrow
  obtain ⟨hcredentials, hrows⟩ :=
    clearDefault_eq_ok hs (fun row hrow => (hprevious row hrow).1) hcleared
  have hcurrentRow : cleared.selectById id = some old := by
    rcases hrows id with hsame | ⟨loser, row, hloser, hlid, -⟩
    · rw [hsame, hold]
    · exact absurd hlid (hprevious loser hloser).2.1
  have hothers : ∀ id', id ≠ id' → cleared.selectById id' = s.selectById id' ∨
      ∃ loser row, s.selectById id' = some loser ∧ cleared.selectById id' = some row ∧
        ClearedRow loser row ∧ profile.isDefault = true ∧
          loser.providerId = profile.providerId := by
    intro id' hne
    rcases hrows id' with hsame | ⟨loser, row, hloser, rfl, hrow, hclearedRow⟩
    · exact .inl hsame
    · obtain ⟨hfound, -, hflag, hprovider⟩ := hprevious loser hloser
      exact .inr ⟨loser, row, hfound, hrow, hclearedRow, hflag, hprovider⟩
  have hupdated := fun id' => (selectById_of_update hwritten id').2
  have hwrittenRow := hupdated id
  rw [if_pos rfl, hcurrentRow] at hwrittenRow
  cases nextSecret with
  | none =>
    cases h
    refine ⟨(selectById_of_update hwritten "").1.trans hcredentials, old, _, hold, hwrittenRow,
      hid, ?_, rfl, rfl, rfl, fun id' hne => ?_⟩
    · exact agrees_of_stored rfl hplan.valid hprofile rfl rfl rfl
    · rw [hupdated id', if_neg hne]
      exact hothers id' hne
  | some secret =>
    obtain ⟨done, hdone, h⟩ := bind_eq_ok h
    cases h
    have hdone := mapError_eq_ok hdone
    have hfinal := fun id' => (selectById_of_update hdone id').2
    have hfinalRow := hfinal id
    rw [if_pos rfl, hwrittenRow] at hfinalRow
    refine ⟨((selectById_of_update hdone "").1.trans (selectById_of_update hwritten "").1).trans
      hcredentials, old, _, hold, hfinalRow, hid, ?_, rfl, rfl, rfl, fun id' hne => ?_⟩
    · exact agrees_of_stored rfl hplan.valid hprofile rfl rfl rfl
    · rw [hfinal id', if_neg hne, hupdated id', if_neg hne]
      exact hothers id' hne

/-- What the transaction of `setDefault` leaves. -/
theorem flipDefault_eq_ok {target : AgentProfile}
    (hs : Agreeing s) (htarget : getById s id = some target) (hnot : target.isDefault = false)
    (h : flipDefault now s target id = .ok (s', ())) :
    s'.credentials = s.credentials ∧ ∃ old new, s.selectById id = some old ∧
      s'.selectById id = some new ∧ new.id = id ∧ Agrees new ∧
        new.providerId = old.providerId ∧ new.isDefault = true ∧
          new.hermesApiKey = old.hermesApiKey ∧
            ∀ id', id ≠ id' → s'.selectById id' = s.selectById id' ∨
              ∃ loser row, s.selectById id' = some loser ∧ s'.selectById id' = some row ∧
                ClearedRow loser row ∧ loser.providerId = old.providerId := by
  obtain ⟨old, hold, hid, hvalid, htid, hprovider, hdefault, hbuiltIn⟩ := getById_eq_some hs htarget
  obtain ⟨cleared, hcleared, h⟩ := bind_eq_ok h
  obtain ⟨flipped, hflipped, h⟩ := bind_eq_ok h
  cases h
  have hcleared := mapError_eq_ok hcleared
  have hflipped := mapError_eq_ok hflipped
  -- the target has no flag, so the default that is cleared is another row
  have hprevious : ∀ row, s.selectDefaultForProvider target.providerId = some row →
      s.selectById row.id = some row ∧ row.id ≠ id ∧ row.providerId = old.providerId := by
    intro row hrow
    obtain ⟨hfound, hsame, hflag⟩ := selectDefaultForProvider_eq_some hrow
    refine ⟨hfound, ?_, hsame.trans hprovider⟩
    rintro rfl
    cases hold.symm.trans hfound
    rw [hnot, hflag] at hdefault
    cases hdefault
  obtain ⟨hcredentials, hrows⟩ :=
    clearDefault_eq_ok hs (fun row hrow => (hprevious row hrow).1) hcleared
  have htargetRow : cleared.selectById id = some old := by
    rcases hrows id with hsame | ⟨loser, row, hloser, hlid, -⟩
    · rw [hsame, hold]
    · exact absurd hlid (hprevious loser hloser).2.1
  have hfinal := fun id' => (selectById_of_update hflipped id').2
  have hfinalRow := hfinal id
  rw [if_pos rfl, htargetRow] at hfinalRow
  refine ⟨(selectById_of_update hflipped "").1.trans hcredentials, old, _, hold, hfinalRow, hid,
    ?_, rfl, rfl, rfl, fun id' hne => ?_⟩
  · exact agrees_of_stored rfl hvalid (htid.trans hid.symm) hprovider rfl hbuiltIn
  · rw [hfinal id', if_neg hne]
    rcases hrows id' with hsame | ⟨loser, row, hloser, rfl, hrow, hclearedRow⟩
    · exact .inl hsame
    · obtain ⟨hfound, -, hsame⟩ := hprevious loser hloser
      exact .inr ⟨loser, row, hfound, hrow, hclearedRow, hsame⟩

/-! ## Calls on profiles -/

theorem transaction_cases (s : Store) (body : Except Thrown (Store × α)) :
    (∃ e, transaction s body = (.error e, s)) ∨
      ∃ s' a, body = .ok (s', a) ∧ transaction s body = (.ok a, s') := by
  cases body with
  | error e => exact .inl ⟨e, rfl⟩
  | ok r => exact .inr ⟨r.1, r.2, rfl, rfl⟩

theorem readBack_of_agrees (h : s.selectById id = some row) (hagrees : Agrees row) :
    ∃ profile, readBack s id = .ok profile ∧ profile.id = id := by
  obtain ⟨profile, hread⟩ := exists_getById h hagrees
  refine ⟨profile, ?_, ?_⟩
  · unfold readBack
    rw [hread]
  · obtain ⟨row', hrow', hsafe⟩ := Option.bind_eq_some_iff.mp hread
    cases h.symm.trans hrow'
    exact (rowToProfileSafe_eq_some hsafe hagrees).2.1.trans (id_of_selectById h)

/-- What a call leaves when it goes through, and that it leaves the store alone when it throws. -/
structure CallStep {α : Type} (s : Store) (op : Op) (r : Except Thrown α × Store) : Prop where
  rows : ∀ id, RowStep s op r.2 (s.selectById id) (r.2.selectById id)
  thrown : ∀ e, r.1 = .error e → r.2 = s

theorem callStep_thrown (s : Store) (op : Op) (e : Thrown) :
    CallStep s op ((.error e, s) : Except Thrown α × Store) :=
  ⟨fun _ => RowStep.refl _, fun _ _ => rfl⟩

theorem callStep_create (now uuid : String) (s : Store) (input : AgentProfileCreateInput) :
    CallStep s (.create now uuid input) (create now uuid s input) := by
  rcases create_cases now uuid s input with ⟨e, he⟩ |
    ⟨row, profile, s', hcreate, hid, hagrees, hsecret, hinsert⟩
  · rw [he]
    exact callStep_thrown s _ e
  · refine ⟨fun id => ?_, fun e he => by rw [hcreate] at he; cases he⟩
    obtain ⟨-, hnew, hrow⟩ := selectById_of_insert hinsert id
    rw [hcreate, hrow]
    by_cases heq : row.id = id
    · rw [if_pos heq, ← heq, hnew]
      refine .created hagrees fun secret hk => ⟨⟨profile, by rw [hcreate], hid⟩, ?_⟩
      rw [hsecret, hk]
    · rw [if_neg heq]
      exact RowStep.refl _

theorem callStep_update (now : String) {s : Store} (hs : Agreeing s) (id : String)
    (patch : AgentProfileUpdateInput) :
    CallStep s (.update now id patch) (update now s id patch) := by
  generalize hr : update now s id patch = r
  have hupdate := hr
  unfold update at hr
  cases hcheck : checkUpdate s id patch with
  | error e =>
    rw [hcheck] at hr
    subst hr
    exact callStep_thrown s _ e
  | ok plan =>
    obtain ⟨current, profile, nextSecret⟩ := plan
    rw [hcheck] at hr
    dsimp only at hr
    obtain ⟨hcurrent, hplan⟩ := checkUpdate_eq_ok hcheck
    rcases transaction_cases s (writeUpdate now s id current profile nextSecret) with
      ⟨e, he⟩ | ⟨s', _, hwrite, htransaction⟩
    · rw [he] at hr
      subst hr
      exact callStep_thrown s _ e
    · obtain ⟨-, old, new, hold, hnew, hid, hagrees, hprovider, hdefault, hsecret, hothers⟩ :=
        writeUpdate_eq_ok hs hcurrent hplan hwrite
      obtain ⟨written, hread, -⟩ := readBack_of_agrees hnew hagrees
      rw [htransaction, andReadBack, hread] at hr
      subst hr
      refine ⟨fun id' => ?_, fun e he => by cases he⟩
      obtain ⟨row, hrow, -, -, -, hcprovider, hcdefault, -⟩ := getById_eq_some hs hcurrent
      cases hold.symm.trans hrow
      by_cases heq : id = id'
      · subst heq
        rw [hold, hnew]
        have holdId := id_of_selectById hold
        refine .updated (hid.trans holdId.symm) hagrees ?_ fun secret hk => ?_
        · intro hflag
          obtain ⟨hstays, hsame⟩ := hplan.isDefault (hcdefault.trans hflag)
          exact ⟨hdefault.trans hstays, hprovider.trans (hsame.trans hcprovider)⟩
        · -- the secret stays only beside the provider it was stored for
          cases hnext : nextSecret with
          | none =>
            rw [hnext] at hsecret
            exact .inr ⟨hprovider.trans ((hplan.keeps hnext).trans hcprovider),
              hsecret.symm.trans hk⟩
          | some next =>
            rw [hnext] at hsecret
            obtain rfl : next = some secret := hsecret.symm.trans hk
            exact .inl ⟨hid.symm, ⟨written, congrArg Prod.fst hupdate⟩, hplan.supplies secret hnext⟩
      · rcases hothers id' heq with hsame | ⟨loser, row, hloser, hrow, hcleared, hflag, hloses⟩
        · rw [hsame]
          exact RowStep.refl _
        · rw [hloser, hrow]
          refine .cleared hcleared.id hcleared.providerId hcleared.hermesApiKey hcleared.agrees
            (hid.symm ▸ hnew) ?_ ⟨hdefault.trans hflag, hprovider.trans hloses.symm⟩
          rw [hid, id_of_selectById hloser]
          exact heq

theorem callStep_setDefault (now : String) {s : Store} (hs : Agreeing s) (id : String) :
    CallStep s (.setDefault now id) (setDefault now s id) := by
  generalize hr : setDefault now s id = r
  unfold setDefault at hr
  cases htarget : getById s id with
  | none =>
    rw [htarget] at hr
    subst hr
    exact callStep_thrown s _ _
  | some target =>
    rw [htarget] at hr
    dsimp only at hr
    by_cases hflag : target.isDefault = true
    · rw [if_pos hflag] at hr
      subst hr
      exact ⟨fun _ => RowStep.refl _, fun e he => by cases he⟩
    · rw [if_neg hflag] at hr
      rcases transaction_cases s (flipDefault now s target id) with
        ⟨e, he⟩ | ⟨s', _, hflip, htransaction⟩
      · rw [he] at hr
        subst hr
        exact callStep_thrown s _ e
      · obtain ⟨-, old, new, hold, hnew, hid, hagrees, hprovider, hdefault, hsecret, hothers⟩ :=
          flipDefault_eq_ok hs htarget (by simpa using hflag) hflip
        obtain ⟨written, hread, -⟩ := readBack_of_agrees hnew hagrees
        rw [htransaction, andReadBack, hread] at hr
        subst hr
        refine ⟨fun id' => ?_, fun e he => by cases he⟩
        by_cases heq : id = id'
        · subst heq
          rw [hold, hnew]
          exact .kept (hid.trans (id_of_selectById hold).symm) hprovider hsecret
            (fun _ => hdefault) fun _ => hagrees
        · rcases hothers id' heq with hsame | ⟨loser, row, hloser, hrow, hcleared, hloses⟩
          · rw [hsame]
            exact RowStep.refl _
          · rw [hloser, hrow]
            refine .cleared hcleared.id hcleared.providerId hcleared.hermesApiKey hcleared.agrees
              (hid.symm ▸ hnew) ?_ ⟨hdefault, hprovider.trans hloses.symm⟩
            rw [hid, id_of_selectById hloser]
            exact heq

theorem callStep_delete (now : String) (s : Store) (id : String) :
    CallStep s (.delete now id) (delete now s id) := by
  unfold delete
  split
  · exact callStep_thrown s _ _
  · refine ⟨fun id' => ?_, fun e he => by cases he⟩
    have hrow : (s.profiles.delete id).find? id' =
        if id = id' then none else s.selectById id' := IndexedTable.find?_delete _ _ _
    have hgoal : RowStep s (.delete now id)
        { s with
          credentials := (s.revokeLiveCredentials id "agent-profile-deleted" now).1.credentials
          profiles := s.profiles.delete id }
        (s.selectById id') ((s.profiles.delete id).find? id') := by
      rw [hrow]
      by_cases heq : id = id'
      · rw [if_pos heq]
        cases hold : s.selectById id' with
        | none => exact .absent
        | some old =>
          rw [heq, ← id_of_selectById hold]
          exact .deleted ⟨now, rfl⟩
      · rw [if_neg heq]
        exact RowStep.refl _
    exact hgoal

structure Seeded (old new : Option AgentProfileRow) : Prop where
  stays : ∀ row, old = some row → ∃ row', new = some row' ∧ row'.id = row.id ∧
    row'.providerId = row.providerId ∧ row'.hermesApiKey = row.hermesApiKey ∧
      (row.isDefault = true → row'.isDefault = true) ∧ (Agrees row → Agrees row')
  fresh : old = none → ∀ row, new = some row → Agrees row ∧ row.hermesApiKey = none

theorem Seeded.refl (row : Option AgentProfileRow) : Seeded row row :=
  ⟨fun row h => ⟨row, h, rfl, rfl, rfl, id, id⟩, fun h row h' => by rw [h] at h'; cases h'⟩

theorem Seeded.trans {mid : Option AgentProfileRow} (h : Seeded old mid)
    (h' : Seeded mid new) : Seeded old new where
  stays row hrow := by
    obtain ⟨row', hrow', hid, hprovider, hsecret, hdefault, hagrees⟩ := h.stays row hrow
    obtain ⟨row'', hrow'', hid', hprovider', hsecret', hdefault', hagrees'⟩ := h'.stays row' hrow'
    exact ⟨row'', hrow'', hid'.trans hid, hprovider'.trans hprovider, hsecret'.trans hsecret,
      hdefault' ∘ hdefault, hagrees' ∘ hagrees⟩
  fresh hnone row hrow := by
    cases mid with
    | none => exact h'.fresh rfl row hrow
    | some between =>
      obtain ⟨hagrees, hsecret⟩ := h.fresh hnone between rfl
      obtain ⟨row', hrow', -, -, hsame, -, hstill⟩ := h'.stays between rfl
      cases hrow.symm.trans hrow'
      exact ⟨hstill hagrees, hsame.trans hsecret⟩

theorem Seeded.rowStep (h : Seeded old new) : RowStep s op s' old new := by
  cases old with
  | some row =>
    obtain ⟨row', rfl, hid, hprovider, hsecret, hdefault, hagrees⟩ := h.stays row rfl
    exact .kept hid hprovider hsecret hdefault hagrees
  | none =>
    cases new with
    | none => exact .absent
    | some row =>
      obtain ⟨hagrees, hsecret⟩ := h.fresh rfl row rfl
      refine .created hagrees fun secret hk => ?_
      rw [hsecret] at hk
      cases hk

theorem Seeded.agreeing (h : ∀ id, Seeded (s.selectById id) (s'.selectById id))
    (hs : Agreeing s) : Agreeing s' := by
  intro id row hrow
  cases hold : s.selectById id with
  | none => exact ((h id).fresh hold row hrow).1
  | some old =>
    obtain ⟨row', hrow', -, -, -, -, hagrees⟩ := (h id).stays old hold
    cases hrow.symm.trans hrow'
    exact hagrees (hs id old hold)

theorem isAgentProfile_builtInDefault (h : providerId ≠ "") :
    isAgentProfile (builtInDefault providerId) = true := by
  have hid : builtInAgentProfileId providerId ≠ "" := by
    unfold builtInAgentProfileId
    intro hempty
    have hlist := congrArg String.toList hempty
    simp at hlist
  simp [isAgentProfile, builtInDefault, hid, h]

theorem map_eq_ok {ε β : Type} {f : α → β} {r : Except ε α} {b : β} (h : r.map f = .ok b) :
    ∃ a, r = .ok a ∧ f a = b := by
  cases r with
  | error e => cases h
  | ok a =>
    cases h
    exact ⟨a, rfl, rfl⟩

theorem seeded_of_insert (h : s.insertRow row = .ok s')
    (hagrees : Agrees row) (hsecret : row.hermesApiKey = none) :
    s'.credentials = s.credentials ∧ ∀ id, Seeded (s.selectById id) (s'.selectById id) := by
  refine ⟨(selectById_of_insert h "").1, fun id => ?_⟩
  obtain ⟨-, hnew, hrow⟩ := selectById_of_insert h id
  rw [hrow]
  by_cases heq : row.id = id
  · rw [if_pos heq, ← heq, hnew]
    refine ⟨(fun old hold => by cases hold), fun _ found hfound => ?_⟩
    obtain rfl := Option.some.inj hfound
    exact ⟨hagrees, hsecret⟩
  · rw [if_neg heq]
    exact Seeded.refl _

theorem seeded_seedFramework {frameworkId : String} {added : ℕ}
    (hs : Agreeing s) (h : seedFramework now s frameworkId = .ok (s', added)) :
    s'.credentials = s.credentials ∧ ∀ id, Seeded (s.selectById id) (s'.selectById id) := by
  unfold seedFramework at h
  cases htrimmed : readTrimmed frameworkId with
  | none =>
    rw [htrimmed] at h
    cases h
    exact ⟨rfl, fun id => Seeded.refl _⟩
  | some providerId =>
    rw [htrimmed] at h
    dsimp only at h
    have hprovider : providerId ≠ "" := by
      unfold readTrimmed at htrimmed
      split at htrimmed
      · cases htrimmed
      · rename_i hne
        cases htrimmed
        exact hne
    split at h
    · cases h
      exact ⟨rfl, fun id => Seeded.refl _⟩
    · cases hrow : s.selectById (builtInAgentProfileId providerId) with
      | some row =>
        rw [hrow] at h
        obtain ⟨written, hwritten, hpair⟩ := map_eq_ok (mapError_eq_ok h)
        cases hpair
        obtain ⟨profile, hsafe⟩ := rowToProfileSafe_of_agrees (hs _ row hrow)
        obtain ⟨hvalid, hid, hsame, -, -⟩ := rowToProfileSafe_eq_some hsafe (hs _ row hrow)
        refine ⟨(selectById_of_update hwritten "").1, fun id => ?_⟩
        rw [(selectById_of_update hwritten id).2]
        by_cases heq : builtInAgentProfileId providerId = id
        · rw [if_pos heq, ← heq, hrow]
          -- the survivor keeps its provider, whichever that is
          refine ⟨fun old hold => ?_, nofun⟩
          cases hold
          refine ⟨_, rfl, rfl, rfl, rfl, fun _ => rfl, fun _ => ?_⟩
          rw [hsafe]
          exact agrees_of_stored rfl hvalid hid hsame rfl rfl
        · rw [if_neg heq]
          exact Seeded.refl _
      | none =>
        rw [hrow] at h
        obtain ⟨written, hwritten, hpair⟩ := map_eq_ok (mapError_eq_ok h)
        cases hpair
        refine seeded_of_insert hwritten ?_ rfl
        exact agrees_of_stored rfl (isAgentProfile_builtInDefault hprovider) rfl rfl rfl rfl

theorem seeded_seedAll {frameworks : List String} {inserted count : ℕ} (hs : Agreeing s)
    (h : seedAll now s inserted frameworks = .ok (s', count)) :
    s'.credentials = s.credentials ∧ ∀ id, Seeded (s.selectById id) (s'.selectById id) := by
  induction frameworks generalizing s inserted with
  | nil =>
    cases h
    exact ⟨rfl, fun id => Seeded.refl _⟩
  | cons frameworkId frameworks ih =>
    unfold seedAll at h
    cases hone : seedFramework now s frameworkId with
    | error e =>
      rw [hone] at h
      cases h
    | ok r =>
      rw [hone] at h
      obtain ⟨hcredentials, hseeded⟩ := seeded_seedFramework hs hone
      obtain ⟨hcredentials', hseeded'⟩ := ih (Seeded.agreeing hseeded hs) h
      exact ⟨hcredentials'.trans hcredentials, fun id => (hseeded id).trans (hseeded' id)⟩

theorem callStep_seedBuiltIns (now : String) {s : Store} (hs : Agreeing s)
    (frameworks : List String) :
    CallStep s (.seedBuiltIns now frameworks) (seedBuiltIns now s frameworks) := by
  unfold seedBuiltIns
  rcases transaction_cases s (seedAll now s 0 frameworks) with ⟨e, he⟩ | ⟨s', count, hseed, hr⟩
  · rw [he]
    exact callStep_thrown s _ e
  · rw [hr]
    refine ⟨fun id => ?_, fun e he => by cases he⟩
    exact ((seeded_seedAll hs hseed).2 id).rowStep

/-! ## Calls on credentials -/

/-- What a call leaves of a credential: it stays, and a revoked one stays revoked. -/
def CredentialStep (old new : Option AgentProfileCredentialRow) : Prop :=
  ∀ row, old = some row → ∃ row', new = some row' ∧ row'.profileId = row.profileId ∧
    (row.revokedAt.isSome = true → row'.revokedAt.isSome = true)

theorem revokeLiveCredentials_row {row : AgentProfileCredentialRow}
    (h : s.selectCredentialById credentialId = some row)
    (profileId revokedBy now : String) :
    ∃ row', (s.revokeLiveCredentials profileId revokedBy now).1.selectCredentialById credentialId =
      some row' ∧ row'.profileId = row.profileId ∧
        (row.revokedAt.isSome = true ∨ row.profileId = profileId →
          row'.revokedAt.isSome = true) := by
  have hfind : (s.revokeLiveCredentials profileId revokedBy
      now).1.selectCredentialById credentialId = (s.selectCredentialById credentialId).map
        fun row => if row.isLiveOf profileId then row.revoke now revokedBy else row :=
    s.credentials.find?_retire (·.isLiveOf profileId)
      (AgentProfileCredentialRow.revoke now revokedBy) (fun _ => rfl) (fun _ => rfl) credentialId
  rw [hfind, h]
  refine ⟨_, rfl, ?_⟩
  dsimp only
  split
  · exact ⟨rfl, fun _ => rfl⟩
  · rename_i hnot
    refine ⟨rfl, fun hrow => ?_⟩
    rcases hrow with hrevoked | hprofile
    · exact hrevoked
    · -- a row of the profile that was not live has been revoked before
      simpa [AgentProfileCredentialRow.isLiveOf, hprofile, ← Option.ne_none_iff_isSome] using hnot

theorem mintCredential_eq_ok {profileId secretHash : String}
    {r : AgentProfileCredentialRow × List AgentProfileCredentialRow}
    (h : mintCredential now s input profileId credentialId secretHash = .ok (s', r)) :
    s'.profiles = s.profiles ∧ ∀ id, CredentialStep
      ((s.revokeLiveCredentials profileId "rotated" now).1.selectCredentialById id)
      (s'.selectCredentialById id) := by
  unfold mintCredential at h
  dsimp only at h
  obtain ⟨actorId, -, h⟩ := bind_eq_ok h
  obtain ⟨issuerId, -, h⟩ := bind_eq_ok h
  obtain ⟨issuedAt, -, h⟩ := bind_eq_ok h
  obtain ⟨expiresAt, -, h⟩ := bind_eq_ok h
  obtain ⟨credentials, hinsert, h⟩ := bind_eq_ok h
  split at h
  · cases h
    refine ⟨rfl, fun id row hrow => ?_⟩
    obtain ⟨hnew, hfind⟩ := IndexedTable.find?_insert (mapError_eq_ok hinsert) id
    refine ⟨row, hfind.trans ?_, rfl, fun hrevoked => hrevoked⟩
    -- the new credential has an id of its own
    rw [if_neg]
    · exact hrow
    · rintro rfl
      cases hnew.symm.trans hrow
  · cases h

/-- A call that ends the credentials of a profile, and goes through. -/
def Ends (s : Store) (op : Op) (profileId : String) : Prop :=
  (∃ r, (perform s op).1 = .ok r) ∧
    match op with
    | .delete _ id => id = profileId
    | .recordCredential _ input => readTrimmed input.profileId = some profileId
    | .revokeCredential _ id _ => id = profileId
    | _ => False

theorem checkCredential_eq_ok {profileId secretHash : String}
    (h : checkCredential input = .ok (profileId, credentialId, secretHash)) :
    readTrimmed input.profileId = some profileId := by
  obtain ⟨found, hfound, h⟩ := bind_eq_ok h
  obtain ⟨credential, -, h⟩ := bind_eq_ok h
  obtain ⟨hash, -, h⟩ := bind_eq_ok h
  split at h
  · cases h
    unfold requireNonEmpty at hfound
    cases htrimmed : readTrimmed input.profileId with
    | none =>
      rw [htrimmed] at hfound
      cases hfound
    | some trimmed =>
      rw [htrimmed] at hfound
      cases hfound
      rfl
  · cases h

theorem recordCredential_row {row : AgentProfileCredentialRow}
    (h : s.selectCredentialById credentialId = some row) :
    ∃ row', (recordCredential now s input).2.selectCredentialById credentialId = some row' ∧
      row'.profileId = row.profileId ∧ (row.revokedAt.isSome = true ∨
        (∃ r, (recordCredential now s input).1 = .ok r) ∧
          readTrimmed input.profileId = some row.profileId → row'.revokedAt.isSome = true) := by
  unfold recordCredential
  cases hcheck : checkCredential input with
  | error e =>
    refine ⟨row, h, rfl, fun hends => hends.resolve_right ?_⟩
    rintro ⟨⟨r, hr⟩, -⟩
    cases hr
  | ok plan =>
    obtain ⟨profileId, freshId, secretHash⟩ := plan
    dsimp only
    rcases transaction_cases s (mintCredential now s input profileId freshId secretHash) with
      ⟨e, he⟩ | ⟨s', r, hmint, hr⟩
    · rw [he]
      refine ⟨row, h, rfl, fun hends => hends.resolve_right ?_⟩
      rintro ⟨⟨r, hr⟩, -⟩
      cases hr
    · rw [hr]
      obtain ⟨mid, hmid, hprofile, hrevoked⟩ := revokeLiveCredentials_row h profileId "rotated" now
      obtain ⟨row', hrow', hprofile', hrevoked'⟩ :=
        (mintCredential_eq_ok hmint).2 credentialId mid hmid
      refine ⟨row', hrow', hprofile'.trans hprofile, fun hends => hrevoked' (hrevoked ?_)⟩
      rcases hends with hrow | ⟨-, hsame⟩
      · exact .inl hrow
      · exact .inr (Option.some.inj (hsame.symm.trans (checkCredential_eq_ok hcheck)))

/-! ## Runs -/

theorem callStep_answering {f : α → Returned} {r : Except Thrown α × Store} (h : CallStep s op r) :
    CallStep s op (answering f r) := by
  refine ⟨h.rows, fun e he => ?_⟩
  cases hr : r.1 with
  | error e' => exact h.thrown e' hr
  | ok a =>
    unfold answering at he
    rw [hr] at he
    cases he

theorem callStep_of_profiles {r : Except Thrown α × Store}
    (hprofiles : r.2.profiles = s.profiles) (hthrown : ∀ e, r.1 = .error e → r.2 = s) :
    CallStep s op r := by
  refine ⟨fun id => ?_, hthrown⟩
  have hsame : r.2.selectById id = s.selectById id := congrArg (·.find? id) hprofiles
  rw [hsame]
  exact RowStep.refl _

theorem callStep_recordCredential (now : String) (s : Store)
    (input : AgentProfileCredentialWriteInput) :
    CallStep s (.recordCredential now input) (recordCredential now s input) := by
  unfold recordCredential
  cases hcheck : checkCredential input with
  | error e => exact callStep_thrown s _ e
  | ok plan =>
    obtain ⟨profileId, credentialId, secretHash⟩ := plan
    dsimp only
    rcases transaction_cases s (mintCredential now s input profileId credentialId secretHash) with
      ⟨e, he⟩ | ⟨s', r, hmint, hr⟩
    · rw [he]
      exact callStep_thrown s _ e
    · rw [hr]
      exact callStep_of_profiles (mintCredential_eq_ok hmint).1 fun e he => by cases he

theorem callStep_perform (hs : Agreeing s) (op : Op) : CallStep s op (perform s op) := by
  cases op with
  | create now uuid input => exact callStep_answering (callStep_create now uuid s input)
  | update now id patch => exact callStep_answering (callStep_update now hs id patch)
  | setDefault now id => exact callStep_answering (callStep_setDefault now hs id)
  | delete now id => exact callStep_answering (callStep_delete now s id)
  | seedBuiltIns now frameworks =>
    exact callStep_answering (callStep_seedBuiltIns now hs frameworks)
  | recordCredential now input =>
    exact callStep_answering (callStep_recordCredential now s input)
  | revokeCredential now profileId revokedBy =>
    exact callStep_answering (callStep_of_profiles rfl fun e he => by cases he)

/-- A credential keeps its profile, and a revocation. -/
theorem credential_step (hs : Agreeing s) (op : Op) {credentialId : String}
    {row : AgentProfileCredentialRow} (h : s.selectCredentialById credentialId = some row) :
    ∃ row', (step s op).selectCredentialById credentialId = some row' ∧
      row'.profileId = row.profileId ∧
        (row.revokedAt.isSome = true ∨ Ends s op row.profileId → row'.revokedAt.isSome = true) := by
  -- a call that does not touch the credentials ends none
  have hsame (hcredentials : (step s op).credentials = s.credentials)
      (hends : ¬ Ends s op row.profileId) : ∃ row',
        (step s op).selectCredentialById credentialId = some row' ∧
          row'.profileId = row.profileId ∧
            (row.revokedAt.isSome = true ∨ Ends s op row.profileId →
              row'.revokedAt.isSome = true) := by
    refine ⟨row, ?_, rfl, fun hor => hor.resolve_right hends⟩
    unfold Store.selectCredentialById at h ⊢
    rw [hcredentials, h]
  cases op with
  | create now uuid input =>
    refine hsame ?_ fun hends => hends.2
    simp only [step, perform, answering]
    rcases create_cases now uuid s input with ⟨e, he⟩ |
      ⟨new, profile, s', hcreate, -, -, -, hinsert⟩
    · rw [he]
    · rw [hcreate]
      exact (selectById_of_insert hinsert "").1
  | update now id patch =>
    refine hsame ?_ fun hends => hends.2
    have hcredentials : (update now s id patch).2.credentials = s.credentials := by
      unfold update
      cases hcheck : checkUpdate s id patch with
      | error e => rfl
      | ok plan =>
        obtain ⟨current, profile, nextSecret⟩ := plan
        obtain ⟨hcurrent, hplan⟩ := checkUpdate_eq_ok hcheck
        dsimp only
        rcases transaction_cases s (writeUpdate now s id current profile nextSecret) with
          ⟨e, he⟩ | ⟨s', _, hwrite, hr⟩
        · rw [he]
          rfl
        · rw [hr]
          exact (writeUpdate_eq_ok hs hcurrent hplan hwrite).1
    exact hcredentials
  | setDefault now id =>
    refine hsame ?_ fun hends => hends.2
    have hcredentials : (setDefault now s id).2.credentials = s.credentials := by
      unfold setDefault
      cases htarget : getById s id with
      | none => rfl
      | some target =>
        dsimp only
        by_cases hflag : target.isDefault = true
        · rw [if_pos hflag]
        · rw [if_neg hflag]
          rcases transaction_cases s (flipDefault now s target id) with
            ⟨e, he⟩ | ⟨s', _, hflip, hr⟩
          · rw [he]
            rfl
          · rw [hr]
            exact (flipDefault_eq_ok hs htarget (by simpa using hflag) hflip).1
    exact hcredentials
  | seedBuiltIns now frameworks =>
    refine hsame ?_ fun hends => hends.2
    have hcredentials : (seedBuiltIns now s frameworks).2.credentials = s.credentials := by
      unfold seedBuiltIns
      rcases transaction_cases s (seedAll now s 0 frameworks) with ⟨e, he⟩ | ⟨s', _, hseed, hr⟩
      · rw [he]
      · rw [hr]
        exact (seeded_seedAll hs hseed).1
    exact hcredentials
  | delete now id =>
    by_cases hforbidden : ((getById s id).any fun profile =>
        profile.isBuiltIn && profile.isDefault) = true
    · have hrefused : delete now s id =
          (refuse 409 "agent_profile_builtin_default_delete_forbidden"
            "The built-in default profile cannot be deleted.", s) := if_pos hforbidden
      refine hsame (congrArg (·.2.credentials) hrefused) fun ⟨⟨r, hr⟩, _⟩ => ?_
      simp only [perform, hrefused] at hr
      cases hr
    · obtain ⟨row', hrow', hprofile, hrevoked⟩ :=
        revokeLiveCredentials_row h id "agent-profile-deleted" now
      refine ⟨row', ?_, hprofile, fun hor => hrevoked (hor.imp (fun hrow => hrow)
        fun hends => hends.2.symm)⟩
      have hdeleted : (delete now s id).2.credentials =
          (s.revokeLiveCredentials id "agent-profile-deleted" now).1.credentials := by
        unfold delete
        rw [if_neg hforbidden]
      exact (congrArg (·.find? credentialId) hdeleted).trans hrow'
  | recordCredential now input =>
    obtain ⟨row', hrow', hprofile, hrevoked⟩ :=
      @recordCredential_row s now _ input _ h
    simp only [step, perform, answering, Ends]
    refine ⟨row', hrow', hprofile, fun hor => hrevoked (hor.imp (fun hrow => hrow) ?_)⟩
    rintro ⟨⟨r, hr⟩, hsame⟩
    obtain ⟨r', hr', -⟩ := map_eq_ok hr
    exact ⟨⟨r', hr'⟩, hsame⟩
  | revokeCredential now profileId revokedBy =>
    obtain ⟨row', hrow', hprofile, hrevoked⟩ := revokeLiveCredentials_row h profileId revokedBy now
    exact ⟨row', hrow', hprofile, fun hor => hrevoked (hor.imp (fun hrow => hrow)
      fun hends => hends.2.symm)⟩

theorem RowStep.agrees (h : RowStep s op s' old new) (hold : ∀ row, old = some row → Agrees row) :
    ∀ row, new = some row → Agrees row := by
  intro row hrow
  cases h with
  | absent | deleted => cases hrow
  | kept hid hprovider hsecret hdefault hagrees =>
    cases hrow
    exact hagrees (hold _ rfl)
  | cleared hid hprovider hsecret hagrees | updated hid hagrees | created hagrees =>
    cases hrow
    exact hagrees

theorem agreeing_step (hs : Agreeing s) (op : Op) : Agreeing (step s op) :=
  fun id => ((callStep_perform hs op).rows id).agrees fun row hrow => hs id row hrow

/-- Every reached store agrees with itself. -/
theorem agreeing_of_run (ops : List Op) : Agreeing (exec step Store.empty ops) := by
  have hstart : Agreeing Store.empty := fun id row h => by cases h
  exact exec_invariant (I := Agreeing) (fun s op hs => agreeing_step hs op) ops hstart

/-- A default is taken from a provider only by deleting it, or by another default. -/
def KeepsDefaults (s : Store) (op : Op) : Prop :=
  ∀ id row, s.selectById id = some row → row.isDefault = true →
    (∃ row', (step s op).selectById id = some row' ∧ row'.isDefault = true ∧
      row'.providerId = row.providerId) ∨
    (∃ now, op = .delete now id) ∨
    ∃ other row', other ≠ id ∧ (step s op).selectById other = some row' ∧
      row'.isDefault = true ∧ row'.providerId = row.providerId

theorem keepsDefaults (hs : Agreeing s) (op : Op) : KeepsDefaults s op := by
  intro id row hrow hflag
  have hstep := (callStep_perform hs op).rows id
  have hid := id_of_selectById hrow
  generalize hnew : (perform s op).2.selectById id = new at hstep
  rw [hrow] at hstep
  cases hstep with
  | kept _ hprovider _ hdefault => exact .inl ⟨_, hnew, hdefault hflag, hprovider⟩
  | cleared _ _ _ _ hwinner hother hwins =>
    exact .inr (.inr ⟨_, _, hid ▸ hother, hwinner, hwins⟩)
  | updated _ _ hdefault =>
    obtain ⟨hstays, hprovider⟩ := hdefault hflag
    exact .inl ⟨_, hnew, hstays, hprovider⟩
  | deleted hop =>
    rw [hid] at hop
    exact .inr (.inl hop)

def SuppliedIn (ops : List Op) (id secret providerId : String) : Prop :=
  ∃ before op after, ops = before ++ op :: after ∧
    Supplies (exec step Store.empty before) op id secret ∧
      ∀ mid, mid <+: after → ∃ row,
        (exec step Store.empty (before ++ op :: mid)).selectById id = some row ∧
          row.providerId = providerId

theorem SuppliedIn.snoc {ops : List Op} {secret : String} (h : SuppliedIn ops id secret providerId)
    (hrow : (exec step Store.empty (ops ++ [op])).selectById id = some row)
    (hprovider : row.providerId = providerId) : SuppliedIn (ops ++ [op]) id secret providerId := by
  obtain ⟨before, supply, after, rfl, hsupplies, hsince⟩ := h
  refine ⟨before, supply, after ++ [op], by simp, hsupplies, fun mid hmid => ?_⟩
  -- up to the last call as before, and after it the row at hand
  rcases List.prefix_concat_iff.mp hmid with rfl | hshort
  · refine ⟨row, ?_, hprovider⟩
    rw [← hrow]
    simp
  · exact hsince mid hshort

theorem suppliedIn_of_secret (ops : List Op) {id secret : String} {row : AgentProfileRow}
    (hrow : (exec step Store.empty ops).selectById id = some row)
    (hsecret : row.hermesApiKey = some secret) : SuppliedIn ops id secret row.providerId := by
  induction ops using List.reverseRecOn generalizing row with
  | nil => cases hrow
  | append_singleton ops op ih =>
    have hafter := hrow
    rw [exec_append] at hrow
    have hstep := (callStep_perform (agreeing_of_run ops) op).rows id
    have hnew : (perform (exec step Store.empty ops) op).2.selectById id = some row := hrow
    rw [hnew] at hstep
    -- supplied by this very call
    have hhere (h : Supplies (exec step Store.empty ops) op row.id secret) :
        SuppliedIn (ops ++ [op]) id secret row.providerId := by
      refine ⟨ops, op, [], rfl, id_of_selectById hnew ▸ h, fun mid hmid => ?_⟩
      rw [List.prefix_nil.mp hmid]
      exact ⟨row, hafter, rfl⟩
    generalize hold : (exec step Store.empty ops).selectById id = old at hstep
    cases hstep with
    | kept _ hprovider hsame | cleared _ hprovider hsame =>
      rw [hprovider]
      exact (ih hold (hsame.symm.trans hsecret)).snoc hafter hprovider
    | updated _ _ _ hcause =>
      rcases hcause secret hsecret with hsupplies | ⟨hprovider, hbefore⟩
      · exact hhere hsupplies
      · rw [hprovider]
        exact (ih hold hbefore).snoc hafter hprovider
    | created _ hcause => exact hhere (hcause secret hsecret)

theorem revoked_of_run (hs : Agreeing s) (ops : List Op) {credentialId : String}
    {row : AgentProfileCredentialRow} (h : s.selectCredentialById credentialId = some row)
    (hrevoked : row.revokedAt.isSome = true) :
    ∃ row', (exec step s ops).selectCredentialById credentialId = some row' ∧
      row'.revokedAt.isSome = true := by
  induction ops generalizing s row with
  | nil => exact ⟨row, h, hrevoked⟩
  | cons op ops ih =>
    obtain ⟨row', hrow', -, hstays⟩ := credential_step hs op h
    exact ih (agreeing_step hs op) hrow' (hstays (.inl hrevoked))

/-- **Invariants of the profile store.** After any run from an empty store, and at any call after
    it: a provider has one default at most, and loses it only by its deletion or to another default;
    every blob agrees with its columns; a secret that can be read was supplied for the provider its
    profile has had ever since; a profile has one live credential at most, and an ended one is never
    live again; a call that throws changes nothing. -/
theorem invariants_of_run (ops : List Op) :
    let s := exec step Store.empty ops
    (∀ id id' row row', s.selectById id = some row → s.selectById id' = some row' →
      row.isDefault = true → row'.isDefault = true → row.providerId = row'.providerId →
        id = id') ∧
    (∀ op, KeepsDefaults s op) ∧
    (∀ id row, s.selectById id = some row → Agrees row) ∧
    (∀ id secret, getGatewaySecret s id = some secret → ∃ row, s.selectById id = some row ∧
      SuppliedIn ops id secret row.providerId) ∧
    (∀ id id' row row', s.selectCredentialById id = some row →
      s.selectCredentialById id' = some row' → row.revokedAt = none → row'.revokedAt = none →
        row.profileId = row'.profileId → id = id') ∧
    (∀ before op after id row, ops = before ++ op :: after →
      (exec step Store.empty before).selectCredentialById id = some row →
        (row.revokedAt.isSome = true ∨ Ends (exec step Store.empty before) op row.profileId) →
          ∃ row', s.selectCredentialById id = some row' ∧ row'.revokedAt.isSome = true) ∧
    ∀ op e, (perform s op).1 = .error e → step s op = s := by
  intro s
  have hs : Agreeing s := agreeing_of_run ops
  refine ⟨?_, fun op => keepsDefaults hs op, hs, ?_, ?_, ?_,
    fun op => (callStep_perform hs op).thrown⟩
  · intro id id' row row' hrow hrow' hdefault hdefault' hprovider
    rw [← id_of_selectById hrow, eq_of_defaults hrow hrow' hdefault hdefault' hprovider]
    exact id_of_selectById hrow'
  · intro id secret hread
    obtain ⟨hstored, -⟩ := Option.filter_eq_some_iff.mp hread
    obtain ⟨row, hrow, hsecret⟩ := Option.bind_eq_some_iff.mp hstored
    exact ⟨row, hrow, suppliedIn_of_secret ops hrow hsecret⟩
  · intro id id' row row' hrow hrow' hlive hlive' hprofile
    have hmem := (s.credentials.find?_eq_some_iff _ _).mp hrow
    have hmem' := (s.credentials.find?_eq_some_iff _ _).mp hrow'
    have heq : row = row' := by
      apply s.credentials.eq_of_indexed hmem.1 hmem'.1
      · exact if_pos (by rw [hlive]; rfl)
      · rw [hprofile]
        exact if_pos (by rw [hlive']; rfl)
    rw [← hmem.2, heq]
    exact hmem'.2
  · intro before op after id row hops hrow hends
    have hbefore := agreeing_of_run before
    obtain ⟨row', hrow', -, hrevoked⟩ := credential_step hbefore op hrow
    have hlater := revoked_of_run (agreeing_step hbefore op) after hrow' (hrevoked hends)
    obtain rfl := hops
    rw [← exec_cons, ← exec_append] at hlater
    exact hlater

end RelayIde.Profiles
