import RelayIde.Library.IndexedTable
import RelayIde.Library.Text
import RelayIde.Security.Scope

/-!
# The Store of Agent Profiles

`createAgentProfileStore` of `server/agent-profile-store.ts`: profile rows with a flag column, a
JSON blob and a write-only secret, and the credential rows of the profiles.

- `Op`, `step` — runs
-/

namespace RelayIde.Profiles

open RelayIde.Library RelayIde.Security

/-! ## Profiles -/

structure AgentProfileAvatarRef where
  id : String
  sha256 : Option String := none
  mediaType : Option String := none
  byteCount : Option ℕ := none

inductive AgentProfileRespondTo
  | ownerOnly | allowlist | anyone

structure AgentProfile where
  id : String
  providerId : String
  displayName : String
  avatar : Option AgentProfileAvatarRef := none
  systemPrompt : Option String := none
  model : Option String := none
  provider : Option String := none
  effort : Option String := none
  envVars : Option (List (String × String)) := none
  hermesProfile : Option String := none
  hermesApiKeySet : Option Bool := none
  namePool : Option (List String) := none
  respondTo : Option AgentProfileRespondTo := none
  respondToAllowlist : Option (List String) := none
  isDefault : Bool
  isBuiltIn : Bool

def builtInAgentProfileId (providerId : String) : String :=
  "agent-profile:" ++ providerId ++ ":default"

/-- `HERMES_PROFILE_PATTERN`. -/
def isHermesProfileChar (c : Char) : Bool :=
  c.isAlphanum || c = '.' || c = '_' || c = '-'

def isValidHermesProfile (value : String) : Bool :=
  value ≠ "." && value ≠ ".." && value ≠ "" && value.length ≤ 64 &&
    value.toList.all isHermesProfileChar

/-- `HERMES_API_KEY_PATTERN`: printable ASCII without the space. -/
def isValidHermesApiKey (value : String) : Bool :=
  value ≠ "" && value.length ≤ 4096 &&
    value.toList.all fun c => decide (0x21 ≤ c.toNat ∧ c.toNat ≤ 0x7e)

/-- What `isAgentProfile` checks beyond the types of the fields. -/
def isAgentProfile (p : AgentProfile) : Bool :=
  p.id ≠ "" && p.providerId ≠ "" && p.hermesProfile.all isValidHermesProfile

/-! ## Rows -/

structure AgentProfileRow where
  id : String
  providerId : String
  isDefault : Bool
  isBuiltIn : Bool
  /-- What the text of the blob parses to; nothing if it does not. -/
  profileJson : Option AgentProfile
  createdAt : String
  updatedAt : String
  hermesApiKey : Option String

structure AgentProfileCredentialRow where
  credentialId : String
  profileId : String
  actorId : String
  displayName : Option String
  issuerId : String
  secretHash : String
  capabilities : List String
  issuedAt : String
  expiresAt : String
  revokedAt : Option String
  revokedBy : Option String
  lastUsedAt : Option String

/-- `idx_agent_profiles_one_default`. -/
def AgentProfileRow.defaultOf (row : AgentProfileRow) : Option String :=
  if row.isDefault then some row.providerId else none

/-- `idx_agent_profile_credentials_one_live`. -/
def AgentProfileCredentialRow.liveOf (row : AgentProfileCredentialRow) : Option String :=
  if row.revokedAt.isNone then some row.profileId else none

/-- `WHERE profile_id = ? AND revoked_at IS NULL`. -/
def AgentProfileCredentialRow.isLiveOf (profileId : String) (row : AgentProfileCredentialRow) :
    Bool :=
  decide (row.profileId = profileId ∧ row.revokedAt.isNone)

def AgentProfileCredentialRow.revoke (now revokedBy : String) (row : AgentProfileCredentialRow) :
    AgentProfileCredentialRow :=
  { row with revokedAt := some now, revokedBy := some revokedBy }

structure Store where
  profiles : IndexedTable AgentProfileRow.id AgentProfileRow.defaultOf
  credentials : IndexedTable AgentProfileCredentialRow.credentialId AgentProfileCredentialRow.liveOf

namespace Store

def empty : Store := ⟨.empty, .empty⟩

def selectById (s : Store) (id : String) : Option AgentProfileRow := s.profiles.find? id

def selectDefaultForProvider (s : Store) (providerId : String) : Option AgentProfileRow :=
  s.profiles.rows.find? fun row => decide (row.providerId = providerId ∧ row.isDefault)

def selectLiveCredentials (s : Store) (profileId : String) : List AgentProfileCredentialRow :=
  s.credentials.rows.filter (·.isLiveOf profileId)

def selectCredentialById (s : Store) (credentialId : String) : Option AgentProfileCredentialRow :=
  s.credentials.find? credentialId

end Store

structure AgentProfileStoreError where
  status : ℕ
  code : String
  message : String

inductive Thrown
  | store (error : AgentProfileStoreError)
  | sqlite (violation : Violation)

/-- `throw new AgentProfileStoreError(status, code, message)`. -/
def refuse {α : Type} (status : ℕ) (code message : String) : Except Thrown α :=
  .error (.store ⟨status, code, message⟩)

def readTrimmed (value : String) : Option String :=
  if Text.trim value = "" then none else some (Text.trim value)

def requireNonEmpty (value field : String) : Except Thrown String :=
  match readTrimmed value with
  | some trimmed => .ok trimmed
  | none => refuse 400 "agent_profile_field_required" (field ++ " is required.")

/-- `toStoredJson`: the blob never says whether a secret is stored. -/
def toStoredJson (profile : AgentProfile) : Option AgentProfile :=
  some { profile with hermesApiKeySet := none }

/-- `rowToProfileSafe`: the columns win over the blob. -/
def rowToProfileSafe (row : AgentProfileRow) : Option AgentProfile :=
  match row.profileJson with
  | none => none
  | some parsed =>
    if isAgentProfile parsed then
      some { parsed with
        id := row.id
        providerId := row.providerId
        isDefault := row.isDefault
        isBuiltIn := row.isBuiltIn
        hermesApiKeySet := if row.hermesApiKey.isSome then some true else none }
    else none

def getById (s : Store) (id : String) : Option AgentProfile :=
  (s.selectById id).bind rowToProfileSafe

def getGatewaySecret (s : Store) (profileId : String) : Option String :=
  ((s.selectById profileId).bind (·.hermesApiKey)).filter isValidHermesApiKey

def normalizeGatewaySecret (value : Option String) : Except Thrown (Option String) :=
  match value.bind readTrimmed with
  | none => .ok none
  | some trimmed =>
    if isValidHermesApiKey trimmed then .ok (some trimmed)
    else refuse 400 "agent_profile_gateway_secret_invalid"
      "hermesApiKey must be printable, space-free ASCII (max 4096 characters)."

def rethrowConstraint (violation : Violation) (providerId : String) : Thrown :=
  match violation with
  | .index => .store ⟨409, "agent_profile_default_exists", "Provider \"" ++ providerId ++
      "\" already has a default profile; use setDefault to change it."⟩
  | .key => .store ⟨409, "agent_profile_id_exists", "agent_profile_id_exists"⟩

/-- The profile an operation has just written. -/
def readBack (s : Store) (id : String) : Except Thrown AgentProfile :=
  match getById s id with
  | some written => .ok written
  | none => refuse 500 "agent_profile_write_failed" "agent_profile_write_failed"

/-- `db.transaction`: what throws in it is rolled back. -/
def transaction {α : Type} (s : Store) (body : Except Thrown (Store × α)) :
    Except Thrown α × Store :=
  match body with
  | .ok (s', a) => (.ok a, s')
  | .error e => (.error e, s)

/-! ## Statements -/

namespace Store

def onProfiles (s : Store)
    (r : Except Violation (IndexedTable AgentProfileRow.id AgentProfileRow.defaultOf)) :
    Except Violation Store :=
  r.map fun profiles => { s with profiles }

def insertRow (s : Store) (row : AgentProfileRow) : Except Violation Store :=
  s.onProfiles (s.profiles.insert row)

/-- `clearDefault` and `setDefaultRow`: the flag and the blob of one row. -/
def setFlag (s : Store) (isDefault : Bool) (profileJson : Option AgentProfile)
    (now id : String) : Except Violation Store :=
  s.onProfiles (s.profiles.update id
    (fun row => { row with isDefault, profileJson, updatedAt := now }) fun _ => rfl)

def updateRow (s : Store) (profile : AgentProfile) (now id : String) : Except Violation Store :=
  s.onProfiles (s.profiles.update id (fun row =>
    { row with
      providerId := profile.providerId
      isDefault := profile.isDefault
      isBuiltIn := profile.isBuiltIn
      profileJson := toStoredJson profile
      updatedAt := now }) fun _ => rfl)

def updateGatewaySecret (s : Store) (hermesApiKey : Option String) (now id : String) :
    Except Violation Store :=
  s.onProfiles (s.profiles.update id
    (fun row => { row with hermesApiKey, updatedAt := now }) fun _ => rfl)

def promoteBuiltInDefault (s : Store) (profileJson : Option AgentProfile) (now id : String) :
    Except Violation Store :=
  s.onProfiles (s.profiles.update id
    (fun row => { row with isDefault := true, isBuiltIn := true, profileJson, updatedAt := now })
    fun _ => rfl)

/-- `revokeCredentialById` for every live credential of a profile. -/
def revokeLiveCredentials (s : Store) (profileId revokedBy now : String) :
    Store × List AgentProfileCredentialRow :=
  let credentials := s.credentials.retire (·.isLiveOf profileId)
    (AgentProfileCredentialRow.revoke now revokedBy) (fun _ => rfl) fun _ => rfl
  ({ s with credentials },
    (s.selectLiveCredentials profileId).map (AgentProfileCredentialRow.revoke now revokedBy))

end Store

/-! ## Inputs -/

/-- A field of a patch: left out, or there with a value or without one. -/
inductive Field (α : Type)
  | absent
  | undefined
  | null
  | given (value : α)
deriving DecidableEq

structure AgentProfileCreateInput where
  id : Option String := none
  providerId : String
  displayName : Option String := none
  avatar : Option AgentProfileAvatarRef := none
  systemPrompt : Option String := none
  model : Option String := none
  provider : Option String := none
  effort : Option String := none
  envVars : Option (List (String × String)) := none
  hermesProfile : Option String := none
  hermesApiKey : Option String := none
  namePool : Option (List String) := none
  respondTo : Option AgentProfileRespondTo := none
  respondToAllowlist : Option (List String) := none
  isDefault : Option Bool := none
  isBuiltIn : Option Bool := none

structure AgentProfileUpdateInput where
  providerId : Field String := .absent
  displayName : Field String := .absent
  avatar : Field AgentProfileAvatarRef := .absent
  systemPrompt : Field String := .absent
  model : Field String := .absent
  provider : Field String := .absent
  effort : Field String := .absent
  envVars : Field (List (String × String)) := .absent
  hermesProfile : Field String := .absent
  hermesApiKey : Field String := .absent
  namePool : Field (List String) := .absent
  respondTo : Field AgentProfileRespondTo := .absent
  respondToAllowlist : Field (List String) := .absent
  isDefault : Field Bool := .absent
  isBuiltIn : Field Bool := .absent

structure AgentProfileCredentialWriteInput where
  credentialId : String
  profileId : String
  actorId : String
  displayName : Option String := none
  issuerId : String
  secretHash : String
  capabilities : List String
  issuedAt : String
  expiresAt : String

def nonEmpty {α : Type} (l : List α) : Option (List α) :=
  if l.isEmpty then none else some l

/-- `stringRecord`; assigning text to `__proto__` sets no property. -/
def stringRecord (entries : List (String × String)) : Option (List (String × String)) :=
  nonEmpty (entries.filter fun entry => entry.1 ≠ "__proto__")

def stringList (value : List String) : Option (List String) :=
  nonEmpty (value.filter fun entry => !Text.isBlank entry)

def generateProfileId (providerId : String) (isDefault : Bool) (uuid : String) : String :=
  if isDefault then builtInAgentProfileId providerId
  else "agent-profile:" ++ providerId ++ ":" ++ uuid

def buildProfile (id providerId : String) (isDefault : Bool) (input : AgentProfileCreateInput) :
    Except Thrown AgentProfile :=
  let profile : AgentProfile :=
    { id, providerId, isDefault
      displayName := input.displayName.getD ""
      avatar := input.avatar
      isBuiltIn := input.isBuiltIn.getD false
      systemPrompt := input.systemPrompt.bind readTrimmed
      model := input.model.bind readTrimmed
      provider := input.provider.bind readTrimmed
      effort := input.effort.bind readTrimmed
      hermesProfile := input.hermesProfile.bind readTrimmed
      envVars := input.envVars.bind stringRecord
      namePool := input.namePool.bind stringList
      respondTo := input.respondTo
      respondToAllowlist := input.respondToAllowlist.bind stringList }
  if isAgentProfile profile then .ok profile
  else refuse 400 "agent_profile_invalid" "agent_profile_invalid"

/-- A field after its patch: set to what is left of a given value, else removed. -/
def Field.patch {α : Type} (field : Field α) (normalize : α → Option α) (current : Option α) :
    Option α :=
  match field with
  | .absent => current
  | .given value => normalize value
  | .undefined | .null => none

def applyProfilePatch (current : AgentProfile) (patch : AgentProfileUpdateInput)
    (providerId : String) (isDefault : Bool) : AgentProfile :=
  -- a binding names a profile of the old provider's gateway, and does not follow a new provider
  let hermesProfile := if providerId ≠ current.providerId then none else current.hermesProfile
  { current with
    providerId, isDefault
    displayName := (patch.displayName.patch some (some current.displayName)).getD ""
    avatar := patch.avatar.patch some current.avatar
    systemPrompt := patch.systemPrompt.patch readTrimmed current.systemPrompt
    model := patch.model.patch readTrimmed current.model
    provider := patch.provider.patch readTrimmed current.provider
    effort := patch.effort.patch readTrimmed current.effort
    hermesProfile := patch.hermesProfile.patch readTrimmed hermesProfile
    envVars := patch.envVars.patch stringRecord current.envVars
    namePool := patch.namePool.patch stringList current.namePool
    respondTo := patch.respondTo.patch some current.respondTo
    respondToAllowlist := patch.respondToAllowlist.patch stringList current.respondToAllowlist }

/-! ## Operations on profiles -/

section Operations

-- the time and the randomness of one call, and the store it finds
variable (now uuid : String) (s : Store)

/-- The row `create` inserts. -/
def createRow (input : AgentProfileCreateInput) : Except Thrown AgentProfileRow := do
  let providerId ← requireNonEmpty input.providerId "providerId"
  let isDefault := input.isDefault.getD false
  let id := (input.id.bind readTrimmed).getD (generateProfileId providerId isDefault uuid)
  -- a second default is reported before an id that is taken
  if isDefault && (s.selectDefaultForProvider providerId).isSome then
    refuse 409 "agent_profile_default_exists" ("Provider \"" ++ providerId ++
      "\" already has a default profile; use setDefault to change it.")
  if (s.selectById id).isSome then
    refuse 409 "agent_profile_id_exists" ("Agent profile \"" ++ id ++ "\" already exists.")
  let profile ← buildProfile id providerId isDefault input
  let hermesApiKey ← normalizeGatewaySecret input.hermesApiKey
  pure
    { id, providerId, isDefault, hermesApiKey
      isBuiltIn := profile.isBuiltIn
      profileJson := toStoredJson profile
      createdAt := now
      updatedAt := now }

def create (input : AgentProfileCreateInput) : Except Thrown AgentProfile × Store :=
  match createRow now uuid s input with
  | .error e => (.error e, s)
  | .ok row =>
    match s.insertRow row with
    | .error violation => (.error (rethrowConstraint violation row.providerId), s)
    | .ok s' => (readBack s' row.id, s')

def patchedProvider (current : AgentProfile) : Field String → Except Thrown String
  | .absent => .ok current.providerId
  | .given providerId => requireNonEmpty providerId "providerId"
  | .undefined | .null => requireNonEmpty "" "providerId"

def patchedDefault (current : AgentProfile) : Field Bool → Except Thrown Bool
  | .absent => .ok current.isDefault
  | .given isDefault => .ok isDefault
  | .undefined | .null => refuse 400 "agent_profile_invalid" "agent_profile_invalid"

/-- The secret after a patch, or nothing where the stored one stays.  It authenticates against the
    gateway of one provider, so a new provider clears it. -/
def patchedSecret (field : Field String) (providerChanged : Bool) :
    Except Thrown (Option (Option String)) :=
  match field with
  | .given secret => (normalizeGatewaySecret (some secret)).map some
  | .null => .ok (some none)
  | .absent | .undefined => .ok (if providerChanged then some none else none)

/-- What `update` checks before its transaction: the profile before and after, and the secret. -/
def checkUpdate (id : String) (patch : AgentProfileUpdateInput) :
    Except Thrown (AgentProfile × AgentProfile × Option (Option String)) := do
  let some current := getById s id
    | refuse 404 "agent_profile_not_found" "agent_profile_not_found"
  if patch.isBuiltIn = .null ∨ patch.isBuiltIn = .given (!current.isBuiltIn) then
    refuse 400 "agent_profile_is_built_in_immutable"
      "isBuiltIn is managed by the store and cannot be changed."
  let providerId ← patchedProvider current patch.providerId
  if current.isBuiltIn ∧ providerId ≠ current.providerId then
    refuse 400 "agent_profile_builtin_provider_change_forbidden"
      "Built-in profiles cannot change providerId."
  let isDefault ← patchedDefault current patch.isDefault
  if current.isDefault ∧ !isDefault then
    refuse 409 "agent_profile_last_default" "A provider must retain a default profile."
  if current.isDefault ∧ providerId ≠ current.providerId then
    refuse 409 "agent_profile_default_provider_change_forbidden"
      "Move a non-default profile, or set another default first."
  let profile := applyProfilePatch current patch providerId isDefault
  if !isAgentProfile profile then
    refuse 400 "agent_profile_invalid" "agent_profile_invalid"
  let nextSecret ← patchedSecret patch.hermesApiKey (providerId ≠ current.providerId)
  pure (current, profile, nextSecret)

/-- The default of a provider is cleared, unless its blob cannot be read. -/
def clearDefault (previous : AgentProfileRow) : Except Violation Store :=
  match rowToProfileSafe previous with
  | some profile =>
    s.setFlag false (toStoredJson { profile with isDefault := false }) now previous.id
  | none => .ok s

/-- The transaction of `update`. -/
def writeUpdate (id : String) (current profile : AgentProfile)
    (nextSecret : Option (Option String)) : Except Thrown (Store × Unit) := do
  -- a profile that becomes the default takes the flag from the one that has it
  let previous := if profile.isDefault ∧ !current.isDefault then
      (s.selectDefaultForProvider profile.providerId).filter (·.id ≠ id)
    else none
  let cleared ← (match previous with
    | some previous => clearDefault now s previous
    | none => .ok s).mapError Thrown.sqlite
  let written ← (cleared.updateRow profile now id).mapError (rethrowConstraint · profile.providerId)
  match nextSecret with
  | some secret => do
    let done ← (written.updateGatewaySecret secret now id).mapError Thrown.sqlite
    pure (done, ())
  | none => pure (written, ())

def andReadBack (id : String) (written : Except Thrown Unit × Store) :
    Except Thrown AgentProfile × Store :=
  match written with
  | (.ok _, s') => (readBack s' id, s')
  | (.error e, s') => (.error e, s')

def update (id : String) (patch : AgentProfileUpdateInput) : Except Thrown AgentProfile × Store :=
  match checkUpdate s id patch with
  | .error e => (.error e, s)
  | .ok (current, profile, nextSecret) =>
    andReadBack id (transaction s (writeUpdate now s id current profile nextSecret))

/-- The transaction of `setDefault`. -/
def flipDefault (target : AgentProfile) (id : String) : Except Thrown (Store × Unit) := do
  let cleared ← (match s.selectDefaultForProvider target.providerId with
    | some current => clearDefault now s current
    | none => .ok s).mapError Thrown.sqlite
  let flipped ← (cleared.setFlag true (toStoredJson { target with isDefault := true }) now
    id).mapError Thrown.sqlite
  pure (flipped, ())

def setDefault (profileId : String) : Except Thrown AgentProfile × Store :=
  match getById s profileId with
  | none => (refuse 404 "agent_profile_not_found" "agent_profile_not_found", s)
  | some target =>
    if target.isDefault then (.ok target, s)
    else andReadBack profileId (transaction s (flipDefault now s target profileId))

def delete (id : String) : Except Thrown Bool × Store :=
  if (getById s id).any fun profile => profile.isBuiltIn && profile.isDefault then
    (refuse 409 "agent_profile_builtin_default_delete_forbidden"
      "The built-in default profile cannot be deleted.", s)
  else
    let revoked := (s.revokeLiveCredentials id "agent-profile-deleted" now).1
    (.ok (s.selectById id).isSome, { revoked with profiles := revoked.profiles.delete id })

def builtInDefault (providerId : String) : AgentProfile where
  id := builtInAgentProfileId providerId
  providerId
  displayName := ""
  isDefault := true
  isBuiltIn := true

/-- One framework of `seedBuiltIns`, and how many rows it adds. -/
def seedFramework (frameworkId : String) : Except Thrown (Store × ℕ) :=
  match readTrimmed frameworkId with
  | none => .ok (s, 0)
  | some providerId =>
    if (s.selectDefaultForProvider providerId).isSome then .ok (s, 0)
    else
      match s.selectById (builtInAgentProfileId providerId) with
      | some row =>
        -- the survivor under the stable id is promoted in place, with the overlay it has
        let healed := ((rowToProfileSafe row).getD (builtInDefault providerId))
        ((s.promoteBuiltInDefault
            (toStoredJson { healed with isDefault := true, isBuiltIn := true }) now
            (builtInAgentProfileId providerId)).map (·, 0)).mapError Thrown.sqlite
      | none =>
        ((s.insertRow
            { id := builtInAgentProfileId providerId, providerId
              isDefault := true
              isBuiltIn := true
              profileJson := toStoredJson (builtInDefault providerId)
              createdAt := now
              updatedAt := now
              hermesApiKey := none }).map (·, 1)).mapError Thrown.sqlite

/-- The transaction of `seedBuiltIns`, behind what was `inserted` before. -/
def seedAll : Store → ℕ → List String → Except Thrown (Store × ℕ)
  | s, inserted, [] => .ok (s, inserted)
  | s, inserted, frameworkId :: frameworks =>
    match seedFramework now s frameworkId with
    | .error e => .error e
    | .ok (s', added) => seedAll s' (inserted + added) frameworks

def seedBuiltIns (frameworks : List String) : Except Thrown ℕ × Store :=
  transaction s (seedAll now s 0 frameworks)

/-! ## Operations on credentials -/

/-- A sha256 digest in lower-case hex. -/
def isSecretHash (text : String) : Bool :=
  text.length = 64 && text.toList.all fun c => c.isDigit || ('a' ≤ c && c ≤ 'f')

/-- The transaction of `recordCredential`. -/
def mintCredential (input : AgentProfileCredentialWriteInput)
    (profileId credentialId secretHash : String) :
    Except Thrown (Store × AgentProfileCredentialRow × List AgentProfileCredentialRow) := do
  let (rotated, revoked) := s.revokeLiveCredentials profileId "rotated" now
  let actorId ← requireNonEmpty input.actorId "actorId"
  let issuerId ← requireNonEmpty input.issuerId "issuerId"
  let issuedAt ← requireNonEmpty input.issuedAt "issuedAt"
  let expiresAt ← requireNonEmpty input.expiresAt "expiresAt"
  let credentials ← (rotated.credentials.insert
    { credentialId, profileId, actorId, issuerId, secretHash, issuedAt, expiresAt
      displayName := input.displayName.bind readTrimmed
      capabilities := input.capabilities
      revokedAt := none
      revokedBy := none
      lastUsedAt := none }).mapError Thrown.sqlite
  let minted : Store := { rotated with credentials }
  match minted.selectCredentialById credentialId with
  | some stored => pure (minted, stored, revoked)
  | none =>
    refuse 500 "agent_profile_credential_write_failed"
      "credential row disappeared immediately after insert"

/-- What `recordCredential` checks before its transaction. -/
def checkCredential (input : AgentProfileCredentialWriteInput) :
    Except Thrown (String × String × String) := do
  let profileId ← requireNonEmpty input.profileId "profileId"
  let credentialId ← requireNonEmpty input.credentialId "credentialId"
  let secretHash ← requireNonEmpty input.secretHash "secretHash"
  if isSecretHash secretHash then pure (profileId, credentialId, secretHash)
  else
    refuse 400 "agent_profile_credential_secret_hash_invalid"
      "credential secret hash must be a sha256 hex digest"

def recordCredential (input : AgentProfileCredentialWriteInput) :
    Except Thrown (AgentProfileCredentialRow × List AgentProfileCredentialRow) × Store :=
  match checkCredential input with
  | .error e => (.error e, s)
  | .ok (profileId, credentialId, secretHash) =>
    transaction s (mintCredential now s input profileId credentialId secretHash)

def revokeCredential (profileId revokedBy : String) :
    Except Thrown (Option AgentProfileCredentialRow) × Store :=
  let (s', revoked) := s.revokeLiveCredentials profileId revokedBy now
  (.ok revoked.head?, s')

end Operations

/-! ## Runs -/

/-- A call, with the time and the randomness it draws. -/
inductive Op
  | create (now uuid : String) (input : AgentProfileCreateInput)
  | update (now id : String) (patch : AgentProfileUpdateInput)
  | setDefault (now profileId : String)
  | delete (now id : String)
  | seedBuiltIns (now : String) (frameworks : List String)
  | recordCredential (now : String) (input : AgentProfileCredentialWriteInput)
  | revokeCredential (now profileId revokedBy : String)

inductive Returned
  | profile (profile : AgentProfile)
  | deleted (removed : Bool)
  | inserted (count : ℕ)
  | recorded (stored : AgentProfileCredentialRow) (revoked : List AgentProfileCredentialRow)
  | revoked (row : Option AgentProfileCredentialRow)

def answering {α : Type} (f : α → Returned) (r : Except Thrown α × Store) :
    Except Thrown Returned × Store :=
  (r.1.map f, r.2)

def perform (s : Store) : Op → Except Thrown Returned × Store
  | .create now uuid input => answering .profile (create now uuid s input)
  | .update now id patch => answering .profile (update now s id patch)
  | .setDefault now profileId => answering .profile (setDefault now s profileId)
  | .delete now id => answering .deleted (delete now s id)
  | .seedBuiltIns now frameworks => answering .inserted (seedBuiltIns now s frameworks)
  | .recordCredential now input =>
    answering (fun r => .recorded r.1 r.2) (recordCredential now s input)
  | .revokeCredential now profileId revokedBy =>
    answering .revoked (revokeCredential now s profileId revokedBy)

def step (s : Store) (op : Op) : Store := (perform s op).2

end RelayIde.Profiles
