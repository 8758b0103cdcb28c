import RelayIde.Library.Machine
import RelayIde.Library.Table
import RelayIde.Security.Scope

/-!
# Scoped Actor Credentials

Models `shared/scoped-actor-credentials.ts`: the registry that issues, restores, checks and
revokes the credentials of agents, command line clients and automation systems.

- `revoke`, `revokeByGrantId` — revocation

`Confined` states what an accepted request respects, and `ReadsEveryId` when the rule table
looks at all of it.  The digest of a secret is the parameter `sha256Hex`; the time of a call is
an argument, in milliseconds.
-/

namespace RelayIde.Security.ActorCredential

open RelayIde.Library List

/-! ## Records -/

/-- `ACTOR_CREDENTIAL_AUDIENCES`. -/
inductive Audience
  | registryTest | cliGateway
deriving DecidableEq

def Audience.ofString? : String → Option Audience
  | "relay:registry-test" => some .registryTest
  | "relay:cli-gateway:v1" => some .cliGateway
  | _ => none

def Audience.text : Audience → String
  | .registryTest => "relay:registry-test"
  | .cliGateway => "relay:cli-gateway:v1"

/-- `ScopedActorCredentialRegistryError`. -/
inductive RegistryError
  | unsupportedActorType (value : String)
  | unknownAudience (value : String)
  | unknownCapability (value : String)
  | scopeRequired
  | invalidSecretHash
  | expiryRequired (message : String)
  | expiryExceedsMaxTtl
  | duplicateCredentialId (id : String)
  /-- `toISOString` of an invalid date. -/
  | rangeError

/-- `ScopedActorCredentialRecord`. -/
structure CredentialRecord where
  id : String
  actorType : ActorType
  actorId : String
  grantId : Option String
  audience : Audience
  capabilities : List RelayCapabilityBit
  scope : Scope
  issuedAt : ℤ
  expiresAt : ℤ
  revokedAt : Option ℤ
  revokedBy : Option String

/-- `InternalScopedActorCredentialRecord`. -/
structure InternalCredentialRecord extends CredentialRecord where
  secretHash : String

structure Registry where
  credentials : Table (fun c : InternalCredentialRecord => c.id)
  maxTtlMs : ℤ

/-- `new ScopedActorCredentialRegistry({ maxTtlMs })`. -/
def Registry.empty (maxTtlMs : ℤ) : Registry := ⟨Table.empty, maxTtlMs⟩

def Registry.get (s : Registry) (id : String) : Option InternalCredentialRecord :=
  s.credentials.find? id

/-! ## Issue and import -/

/-- `IssueScopedActorCredentialInput`. -/
structure IssueInput where
  id : Option String := none
  actorType : String
  actorId : String
  grantId : Option String := none
  audience : String
  capabilities : List String
  scope : ScopeFields (Option (List String))
  expiresAt : DateInput := .absent
  ttlMs : Option ℤ := none
  notAfter : DateInput := .absent

def normalizeActorType (value : String) : Except RegistryError ActorType :=
  match ActorType.ofString? value with
  | some actorType => .ok actorType
  | none => .error (.unsupportedActorType value)

def normalizeAudience (value : String) : Except RegistryError Audience :=
  match Audience.ofString? value with
  | some audience => .ok audience
  | none => .error (.unknownAudience value)

def normalizeCredentialCapabilities (values : List String) :
    Except RegistryError (List RelayCapabilityBit) :=
  match normalizeCapabilities [] values with
  | .ok bits => .ok bits
  | .error value => .error (.unknownCapability value)

def normalizeCredentialScope (scope : ScopeFields (Option (List String))) :
    Except RegistryError Scope :=
  match normalizeScope scope with
  | some scope => .ok scope
  | none => .error .scopeRequired

/-- The expiry asked for, before the ceilings. -/
def requestedExpiry (input : IssueInput) (issuedAt : ℤ) : Except RegistryError ℤ :=
  match input.expiresAt, input.ttlMs with
  | .time ms, _ => .ok ms
  | .invalid, _ => .error (.expiryRequired "scoped actor credential expiry must be a valid date")
  | .absent, some ttlMs => .ok (issuedAt + ttlMs)
  | .absent, none =>
    .error (.expiryRequired "scoped actor credentials require expiresAt or ttlMs")

def resolveExpiry (maxTtlMs : ℤ) (input : IssueInput) (issuedAt : ℤ) :
    Except RegistryError ℤ := do
  let expiresAt ← requestedExpiry input issuedAt
  if expiresAt - issuedAt > maxTtlMs then throw .expiryExceedsMaxTtl
  else
    match input.notAfter with
    | .absent => return expiresAt
    | .invalid => throw (.expiryRequired "scoped actor credential expiry ceiling is invalid")
    | .time notAfter =>
      if notAfter ≤ issuedAt then
        throw (.expiryRequired "scoped actor credential expiry ceiling must be in the future")
      else return min expiresAt notAfter

/-- No credential is replaced. -/
def Registry.checkNewId (s : Registry) (id : String) : Except RegistryError Unit :=
  if (s.get id).isSome then .error (.duplicateCredentialId id) else .ok ()

def Registry.store (s : Registry) (credential : InternalCredentialRecord) : Registry :=
  { s with credentials := s.credentials.insert credential }

/-- `issueAt`, for `issue` with the clock's time and for `issuePrepared` with the captured one.
    `uuid` and `secret` are the random values drawn, the secret in hexadecimal. -/
def issue (sha256Hex : String → String) (s : Registry) (input : IssueInput) (issuedAt : ℤ)
    (uuid secret : String) : Except RegistryError (String × Registry) := do
  let actorType ← normalizeActorType input.actorType
  let audience ← normalizeAudience input.audience
  let capabilities ← normalizeCredentialCapabilities input.capabilities
  let scope ← normalizeCredentialScope input.scope
  let expiresAt ← resolveExpiry s.maxTtlMs input issuedAt
  let id := input.id.getD uuid
  s.checkNewId id
  let credential : InternalCredentialRecord :=
    { id, actorType, actorId := input.actorId, grantId := truthy input.grantId, audience,
      capabilities, scope, issuedAt, expiresAt, revokedAt := none, revokedBy := none,
      secretHash := sha256Hex secret }
  return (laneToken "relay-sac-v1" id secret, s.store credential)

/-- `ImportScopedActorCredentialInput`. -/
structure ImportInput where
  id : String
  actorType : String
  actorId : String
  grantId : Option String
  audience : String
  capabilities : List String
  scope : ScopeFields (Option (List String))
  issuedAt : DateInput
  expiresAt : DateInput
  revokedAt : DateInput
  revokedBy : Option String
  secretHash : String

/-- `/^[0-9a-f]{64}$/`. -/
def isSha256Hex (text : String) : Bool :=
  text.toList.length = 64 && text.toList.all fun c => c.isDigit || ('a' ≤ c && c ≤ 'f')

def checkSecretHash (secretHash : String) : Except RegistryError Unit :=
  if isSha256Hex secretHash then .ok () else .error .invalidSecretHash

/-- The stored time of an optional date; `toISOString` refuses an invalid one. -/
def storedTime : DateInput → Except RegistryError (Option ℤ)
  | .absent => .ok none
  | .invalid => .error .rangeError
  | .time ms => .ok (some ms)

def requiredTime : DateInput → Except RegistryError ℤ
  | .time ms => .ok ms
  | _ => .error (.expiryRequired "scoped actor credential issuedAt/expiresAt must be valid dates")

def importCredential (s : Registry) (input : ImportInput) : Except RegistryError Registry := do
  let actorType ← normalizeActorType input.actorType
  let audience ← normalizeAudience input.audience
  let capabilities ← normalizeCredentialCapabilities input.capabilities
  let scope ← normalizeCredentialScope input.scope
  checkSecretHash input.secretHash
  let issuedAt ← requiredTime input.issuedAt
  let expiresAt ← requiredTime input.expiresAt
  s.checkNewId input.id
  let revokedAt ← storedTime input.revokedAt
  let credential : InternalCredentialRecord :=
    { id := input.id, actorType, actorId := input.actorId, grantId := truthy input.grantId,
      audience, capabilities, scope, issuedAt, expiresAt, revokedAt,
      revokedBy := truthy input.revokedBy, secretHash := input.secretHash }
  return s.store credential

/-! ## The rule table -/

/-- `ScopedActorCredentialValidationScope`. -/
structure ValidationScope where
  nodeId : Option String := none
  sessionId : Option String := none
  globalSessionId : Option String := none
  workContextId : Option String := none
  workContextIds : Option (List String) := none
  deferWorkContextScope : Bool := false
  channelId : Option String := none
  channelIds : Option (List String) := none
  repoId : Option String := none
  path : Option String := none
  taskRef : Option String := none

/-- `ScopedActorCredentialValidationFailureReason`. -/
inductive FailureReason
  | malformedCredential
  | unknownAudience
  | wrongAudience
  | expired
  | revoked
  | missingScope
  | wrongScope (d : ScopeDimension)
  | unknownCapability
  | insufficientCapability

def singletonScopeValue (value : Option String) : Option (List String) :=
  (truthy value).map fun v => [v]

def normalizedRequestedScopeValues (values : Option (List String)) : Option (List String) :=
  let normalized := (values.getD []).filter fun value => !Text.isBlank value
  if normalized = [] then none else some normalized

def pathMatchesCredentialPrefix : String → String → Bool := pathMatchesPrefix

def listIncludesRequestedValue (values : List String) (requested : String) : Bool :=
  values.contains requested

structure ScopeValidationRule where
  dimension : ScopeDimension
  values : Option ScopeValues
  requested : Option (List String)
  deferred : Bool
  /-- Deny when the dimension is requested but the credential holds no values for it. -/
  requiredWhenRequested : Bool
  covers : List String → String → Bool

def ValidationScope.requested (expected : ValidationScope) :
    ScopeDimension → Option (List String)
  | .node => singletonScopeValue expected.nodeId
  | .session => singletonScopeValue expected.sessionId
  | .globalSession => singletonScopeValue expected.globalSessionId
  | .workContext => normalizedRequestedScopeValues
      (expected.workContextIds <|> singletonScopeValue expected.workContextId)
  | .channel => normalizedRequestedScopeValues
      (expected.channelIds <|> singletonScopeValue expected.channelId)
  | .repo => singletonScopeValue expected.repoId
  | .path => singletonScopeValue expected.path
  | .task => singletonScopeValue expected.taskRef

/-- How a rule compares: paths with their prefixes, everything else by membership. -/
def covers : ScopeDimension → List String → String → Bool
  | .path => fun stems path => stems.any fun stem => pathMatchesCredentialPrefix path stem
  | _ => listIncludesRequestedValue

def scopeRule (scope : Scope) (expected : ValidationScope) (d : ScopeDimension) :
    ScopeValidationRule where
  dimension := d
  values := scope.values d
  requested := expected.requested d
  deferred := d = .workContext && expected.deferWorkContextScope
  requiredWhenRequested := d = .channel
  covers := covers d

/-- What the loop over the rules denies. -/
def ScopeValidationRule.denies (rule : ScopeValidationRule) : Bool :=
  match rule.values, rule.requested with
  | none, requested => requested.isSome && rule.requiredWhenRequested
  | some _, none => false
  | some held, some requested => !requested.all fun value => rule.covers held.values value

/-- What the check after the loop denies. -/
def ScopeValidationRule.missing (rule : ScopeValidationRule) : Bool :=
  rule.values.isSome && rule.requested.isNone && !rule.deferred

def validateCredentialScope (scope : Scope) (expected : ValidationScope) :
    Option FailureReason :=
  let rules := ScopeDimension.all.map (scopeRule scope expected)
  match rules.find? fun rule => rule.denies with
  | some rule => some (.wrongScope rule.dimension)
  | none => if rules.any fun rule => rule.missing then some .missingScope else none

/-! ## Validation and revocation -/

/-- `ValidateScopedActorCredentialInput`. -/
structure ValidateInput where
  audience : String
  requiredCapabilities : List String
  scope : ValidationScope := {}

/-- `ScopedActorCredentialValidationResult`. -/
inductive ValidationResult
  | ok (credential : CredentialRecord) (grantedBits : List String)
  | failed (reason : FailureReason) (credentialId : Option String) (deniedBits : List String)

/-- `validate`, with the checks on the presented token first. -/
def validate (sha256Hex : String → String) (s : Registry) (token : String)
    (input : ValidateInput) (now : ℤ) : ValidationResult :=
  match parseLaneToken "relay-sac-v1" token with
  | none => .failed .malformedCredential none []
  | some (id, secret) =>
    match s.get id with
    | none => .failed .malformedCredential (some id) []
    | some credential =>
      if credential.secretHash ≠ sha256Hex secret then
        .failed .malformedCredential (some id) []
      else
        match Audience.ofString? input.audience with
        | none => .failed .unknownAudience (some credential.id) []
        | some audience =>
          if credential.audience ≠ audience then
            .failed .wrongAudience (some credential.id) []
          else if credential.expiresAt ≤ now then
            .failed .expired (some credential.id) input.requiredCapabilities
          else if credential.revokedAt.isSome then
            .failed .revoked (some credential.id) input.requiredCapabilities
          else
            match truthy (input.requiredCapabilities.find? fun bit => !isRelayCapabilityBit bit) with
            | some unknown => .failed .unknownCapability (some credential.id) [unknown]
            | none =>
              let lacking :=
                missingCapabilities credential.capabilities input.requiredCapabilities
              if lacking ≠ [] then
                .failed .insufficientCapability (some credential.id) lacking
              else
                match validateCredentialScope credential.scope input.scope with
                | some reason => .failed reason (some credential.id) input.requiredCapabilities
                | none => .ok credential.toCredentialRecord input.requiredCapabilities

/-- Helper: the assignments of `revoke`. -/
def InternalCredentialRecord.revoke (revokedBy : String) (now : ℤ)
    (credential : InternalCredentialRecord) : InternalCredentialRecord :=
  { credential with revokedAt := some now, revokedBy := some revokedBy }

/-- `revoke`, with the record it returns. -/
def revoke (s : Registry) (credentialId revokedBy : String) (now : ℤ) :
    Option CredentialRecord × Registry :=
  match s.get credentialId with
  | none => (none, s)
  | some credential =>
    (some (credential.revoke revokedBy now).toCredentialRecord,
      { s with
        credentials := s.credentials.updateWhere (fun c => decide (c.id = credentialId))
          (fun c => c.revoke revokedBy now) (fun _ => rfl) })

/-- The credentials that `revokeByGrantId` does not skip. -/
def InternalCredentialRecord.revocable (grantId : String) (now : ℤ)
    (credential : InternalCredentialRecord) : Bool :=
  credential.grantId = some grantId && credential.revokedAt.isNone &&
    !decide (credential.expiresAt ≤ now)

/-- `revokeByGrantId`: a loop of `revoke` over the credentials of the grant, with the records it
    returns. -/
def revokeByGrantId (s : Registry) (grantId revokedBy : String) (now : ℤ) :
    List CredentialRecord × Registry :=
  ((s.credentials.rows.filter (·.revocable grantId now)).map
      fun c => (c.revoke revokedBy now).toCredentialRecord,
    { s with
      credentials := s.credentials.updateWhere (·.revocable grantId now)
        (fun c => c.revoke revokedBy now) (fun _ => rfl) })

def exportCredential (c : InternalCredentialRecord) : ImportInput where
  id := c.id
  actorType := c.actorType.text
  actorId := c.actorId
  grantId := c.grantId
  audience := c.audience.text
  capabilities := c.capabilities.map (·.val)
  scope := c.scope.fields.map fun values => values.map (·.values)
  issuedAt := .time c.issuedAt
  expiresAt := .time c.expiresAt
  revokedAt := (c.revokedAt.map DateInput.time).getD .absent
  revokedBy := c.revokedBy
  secretHash := c.secretHash

/-! ## What an accepted request respects -/

def ValidationScope.single (expected : ValidationScope) : ScopeDimension → Option String
  | .node => expected.nodeId
  | .session => expected.sessionId
  | .globalSession => expected.globalSessionId
  | .workContext => expected.workContextId
  | .channel => expected.channelId
  | .repo => expected.repoId
  | .path => expected.path
  | .task => expected.taskRef

def ValidationScope.listed (expected : ValidationScope) : ScopeDimension → Option (List String)
  | .workContext => expected.workContextIds
  | .channel => expected.channelIds
  | _ => none

/-- A request names a value in one of the two fields of a dimension.  Blank texts name nothing. -/
def ValidationScope.Requests (expected : ValidationScope) (d : ScopeDimension)
    (value : String) : Prop :=
  Text.isBlank value = false ∧
    (expected.single d = some value ∨ ∃ ids, expected.listed d = some ids ∧ value ∈ ids)

/-- What a credential promises about an accepted request. -/
structure Confined (c : CredentialRecord) (input : ValidateInput) (now : ℤ) : Prop where
  unrevoked : c.revokedAt = none
  unexpired : now < c.expiresAt
  audience : Audience.ofString? input.audience = some c.audience
  capable : ∀ capability ∈ input.requiredCapabilities, ∃ bit ∈ c.capabilities, bit.val = capability
  inside : ∀ d held value, c.scope.values d = some held → input.scope.Requests d value →
    Inside d held.values value
  named : ∀ d, (c.scope.values d).isSome → (∃ value, input.scope.Requests d value) ∨
    d = .workContext ∧ input.scope.deferWorkContextScope = true
  channelScoped : ∀ value, input.scope.Requests .channel value →
    (c.scope.values .channel).isSome

/-- The rule table sees the whole request: a single id that a list hides is one of the values
    held, and behind a matched path prefix no `..` leads out of all the prefixes. -/
structure ReadsEveryId (scope : Scope) (expected : ValidationScope) : Prop where
  channel : ∀ ids value, expected.channelIds = some ids → expected.channelId = some value →
    Text.isBlank value = false → ∃ held, scope.values .channel = some held ∧ value ∈ held.values
  workContext : ∀ ids value held, expected.workContextIds = some ids →
    expected.workContextId = some value → Text.isBlank value = false →
    scope.values .workContext = some held → value ∈ held.values
  path : ∀ held stem rest, scope.values .path = some held → stem ∈ held.values →
    expected.path = some (directoryText stem ++ rest) →
    ∃ top ∈ held.values, PosixPath.Within (PosixPath.resolve top)
      (PosixPath.walk (PosixPath.resolve stem) (PosixPath.segments rest))

theorem singletonScopeValue_eq_some_iff (text : Option String) (values : List String) :
    singletonScopeValue text = some values ↔
      ∃ value, text = some value ∧ value ≠ "" ∧ values = [value] := by
  rw [singletonScopeValue, Option.map_eq_some_iff]
  constructor
  · rintro ⟨value, hvalue, rfl⟩
    rw [truthy_eq_some_iff] at hvalue
    exact ⟨value, hvalue.1, hvalue.2, rfl⟩
  · rintro ⟨value, htext, hne, rfl⟩
    exact ⟨value, (truthy_eq_some_iff _ _).mpr ⟨htext, hne⟩, rfl⟩

theorem normalizedRequestedScopeValues_eq_some_iff (texts : Option (List String))
    (values : List String) :
    normalizedRequestedScopeValues texts = some values ↔
      ∃ given, texts = some given ∧ values ≠ [] ∧
        values = given.filter fun value => !Text.isBlank value := by
  cases texts with
  | none => simp [normalizedRequestedScopeValues]
  | some given =>
    simp only [normalizedRequestedScopeValues, Option.getD_some]
    split <;> rename_i hnil
    · simp [hnil]
    · constructor
      · rintro ⟨⟩
        exact ⟨given, rfl, hnil, rfl⟩
      · rintro ⟨_, ⟨⟩, _, rfl⟩
        rfl

theorem orElse_singleton_eq_some_iff (listed : Option (List String)) (single : Option String)
    (given : List String) :
    (listed <|> singletonScopeValue single) = some given ↔
      listed = some given ∨
        listed = none ∧ ∃ value, single = some value ∧ value ≠ "" ∧ given = [value] := by
  cases listed with
  | none =>
    rw [← singletonScopeValue_eq_some_iff]
    simp
  | some ids => simp

variable {listed : Option (List String)} {single : Option String} {since : ℤ}

section Requested

variable {expected : ValidationScope} {d : ScopeDimension} {values : List String} {value : String}

theorem requested_ne_nil (h : expected.requested d = some values) : values ≠ [] := by
  cases d
  case workContext | channel =>
    obtain ⟨given, _, hne, _⟩ := (normalizedRequestedScopeValues_eq_some_iff _ _).mp h
    exact hne
  all_goals
    obtain ⟨v, _, _, rfl⟩ := (singletonScopeValue_eq_some_iff _ _).mp h
    simp

/-- Helper: what the rule of a dimension with a list field reads is requested. -/
theorem requests_of_listed
    (h : normalizedRequestedScopeValues (listed <|> singletonScopeValue single) = some values)
    (hvalue : value ∈ values) :
    Text.isBlank value = false ∧
      (single = some value ∨ ∃ ids, listed = some ids ∧ value ∈ ids) := by
  obtain ⟨given, hgiven, _, rfl⟩ := (normalizedRequestedScopeValues_eq_some_iff _ _).mp h
  rw [mem_filter] at hvalue
  refine ⟨by simpa using hvalue.2, ?_⟩
  obtain hlisted | ⟨_, v, hsingle, _, rfl⟩ := (orElse_singleton_eq_some_iff _ _ _).mp hgiven
  · exact .inr ⟨given, hlisted, hvalue.1⟩
  · rw [mem_singleton.mp hvalue.1]
    exact .inl hsingle

theorem requests_of_requested (h : expected.requested d = some values) (hvalue : value ∈ values)
    (hblank : Text.isBlank value = false) : expected.Requests d value := by
  cases d
  case workContext | channel => exact requests_of_listed h hvalue
  all_goals
    obtain ⟨v, hsingle, _, rfl⟩ := (singletonScopeValue_eq_some_iff _ _).mp h
    rw [mem_singleton.mp hvalue]
    rw [mem_singleton.mp hvalue] at hblank
    exact ⟨hblank, .inl hsingle⟩

/-- Helper: of the two fields of a dimension a list hides the single one. -/
theorem requested_or_hidden (hblank : Text.isBlank value = false)
    (h : single = some value ∨ ∃ ids, listed = some ids ∧ value ∈ ids) :
    (∃ values, normalizedRequestedScopeValues (listed <|> singletonScopeValue single) =
        some values ∧ value ∈ values) ∨
      single = some value ∧ ∃ ids, listed = some ids := by
  have hread : ∀ given, (listed <|> singletonScopeValue single) = some given → value ∈ given →
      ∃ values, normalizedRequestedScopeValues (listed <|> singletonScopeValue single) =
        some values ∧ value ∈ values := by
    intro given hgiven hmem
    have hkept : value ∈ given.filter fun v => !Text.isBlank v :=
      mem_filter.mpr ⟨hmem, by simp [hblank]⟩
    refine ⟨_, (normalizedRequestedScopeValues_eq_some_iff _ _).mpr
      ⟨given, hgiven, ne_nil_of_mem hkept, rfl⟩, hkept⟩
  obtain hsingle | ⟨ids, hids, hmem⟩ := h
  · cases hlisted : listed with
    | some ids => exact .inr ⟨hsingle, ids, rfl⟩
    | none =>
      rw [← hlisted]
      refine .inl (hread [value] ?_ mem_cons_self)
      rw [orElse_singleton_eq_some_iff]
      exact .inr ⟨hlisted, value, hsingle, Text.ne_empty_of_not_blank hblank, rfl⟩
  · exact .inl (hread ids ((orElse_singleton_eq_some_iff _ _ _).mpr (.inl hids)) hmem)

theorem requested_of_requests (h : expected.Requests d value) :
    (∃ values, expected.requested d = some values ∧ value ∈ values) ∨
      expected.single d = some value ∧ (∃ ids, expected.listed d = some ids) ∧
        (d = .workContext ∨ d = .channel) := by
  obtain ⟨hblank, hfields⟩ := h
  cases d
  case workContext | channel =>
    obtain hread | ⟨hsingle, hids⟩ := requested_or_hidden hblank hfields
    · exact .inl hread
    · exact .inr ⟨hsingle, hids, by simp⟩
  all_goals
    obtain hsingle | ⟨ids, hids, _⟩ := hfields
    · refine .inl ⟨[value], (singletonScopeValue_eq_some_iff _ _).mpr ?_, mem_cons_self⟩
      exact ⟨value, hsingle, Text.ne_empty_of_not_blank hblank, rfl⟩
    · cases hids

end Requested

/-! ## The rule table accepts -/

section Accepted

variable {scope : Scope} {expected : ValidationScope} {d : ScopeDimension} {held : ScopeValues}
  {values : List String} {value : String}

theorem of_validateCredentialScope_eq_none (h : validateCredentialScope scope expected = none)
    (d : ScopeDimension) :
    (scopeRule scope expected d).denies = false ∧ (scopeRule scope expected d).missing = false := by
  have hmem : scopeRule scope expected d ∈ ScopeDimension.all.map (scopeRule scope expected) :=
    mem_map.mpr ⟨d, ScopeDimension.mem_all d, rfl⟩
  rw [validateCredentialScope] at h
  split at h
  · cases h
  · rename_i hfind
    split at h
    · cases h
    · rename_i hany
      constructor
      · simpa using find?_eq_none.mp hfind _ hmem
      · by_contra hmissing
        apply hany
        exact any_eq_true.mpr ⟨_, hmem, by simpa using hmissing⟩

theorem covers_of_accepted (h : validateCredentialScope scope expected = none)
    (hheld : scope.values d = some held) (hread : expected.requested d = some values)
    (hvalue : value ∈ values) : covers d held.values value = true := by
  have hdenies := (of_validateCredentialScope_eq_none h d).1
  simp only [ScopeValidationRule.denies, scopeRule, hheld, hread, Bool.not_eq_false',
    all_eq_true] at hdenies
  exact hdenies value hvalue

theorem pathMatchesPrefix_not_blank {path stem : String} (hstem : Text.isBlank stem = false)
    (h : pathMatchesPrefix path stem = true) : Text.isBlank path = false := by
  obtain rfl | ⟨rest, rfl⟩ := (pathMatchesPrefix_iff path stem).mp h
  · exact hstem
  · rw [directoryText]
    split <;> simp [Text.isBlank_append, hstem]

theorem not_blank_of_covers (h : covers d held.values value = true) :
    Text.isBlank value = false := by
  cases d
  case path =>
    obtain ⟨stem, hstem, hcovers⟩ := any_eq_true.mp h
    exact pathMatchesPrefix_not_blank (held.not_blank stem hstem) hcovers
  all_goals exact held.not_blank value (by simpa [covers, listIncludesRequestedValue] using h)

theorem named_of_accepted (h : validateCredentialScope scope expected = none)
    (hheld : scope.values d = some held) :
    (∃ value, expected.Requests d value) ∨
      d = .workContext ∧ expected.deferWorkContextScope = true := by
  have hmissing := (of_validateCredentialScope_eq_none h d).2
  cases hread : expected.requested d with
  | none =>
    simp only [ScopeValidationRule.missing, scopeRule, hheld, hread, Option.isSome_some,
      Option.isNone_none, Bool.true_and, Bool.not_eq_false', Bool.and_eq_true,
      decide_eq_true_eq] at hmissing
    exact .inr hmissing
  | some values =>
    obtain ⟨value, hvalue⟩ := exists_mem_of_ne_nil values (requested_ne_nil hread)
    have hcovers := covers_of_accepted h hheld hread hvalue
    exact .inl ⟨value, requests_of_requested hread hvalue (not_blank_of_covers hcovers)⟩

theorem channel_of_accepted (h : validateCredentialScope scope expected = none)
    (hread : expected.requested .channel = some values) :
    ∃ held, scope.values .channel = some held := by
  have hdenies := (of_validateCredentialScope_eq_none h .channel).1
  cases hheld : scope.values .channel with
  | some held => exact ⟨held, rfl⟩
  | none => simp [ScopeValidationRule.denies, scopeRule, hheld, hread] at hdenies

theorem inside_path_of_covers (hread : ReadsEveryId scope expected)
    (hheld : scope.values .path = some held) (hsingle : expected.path = some value)
    (h : covers .path held.values value = true) : Inside .path held.values value := by
  obtain ⟨stem, hstem, hcovers⟩ := any_eq_true.mp h
  obtain rfl | ⟨rest, rfl⟩ := (pathMatchesPrefix_iff value stem).mp hcovers
  · exact ⟨value, hstem, PosixPath.within_refl _⟩
  · obtain ⟨top, htop, hwithin⟩ := hread.path held stem rest hheld hstem hsingle
    refine ⟨top, htop, ?_⟩
    have hne : stem ≠ "" := Text.ne_empty_of_not_blank (held.not_blank stem hstem)
    rw [resolve_directoryText_append hne]
    exact hwithin

theorem inside_of_accepted (h : validateCredentialScope scope expected = none)
    (hread : ReadsEveryId scope expected) (hheld : scope.values d = some held)
    (hrequests : expected.Requests d value) : Inside d held.values value := by
  obtain ⟨values, hvalues, hmem⟩ | ⟨hsingle, ⟨ids, hids⟩, hd⟩ := requested_of_requests hrequests
  · have hcovers := covers_of_accepted h hheld hvalues hmem
    cases d
    case path =>
      obtain ⟨path, hpath, _, rfl⟩ := (singletonScopeValue_eq_some_iff _ _).mp hvalues
      rw [mem_singleton] at hmem
      rw [← hmem] at hpath
      exact inside_path_of_covers hread hheld hpath hcovers
    all_goals simpa [Inside, covers, listIncludesRequestedValue] using hcovers
  · obtain rfl | rfl := hd
    · exact hread.workContext ids value held hids hsingle hrequests.1 hheld
    · obtain ⟨held', hheld', hmem⟩ := hread.channel ids value hids hsingle hrequests.1
      rw [hheld] at hheld'
      cases hheld'
      exact hmem

theorem channelScoped_of_accepted (h : validateCredentialScope scope expected = none)
    (hread : ReadsEveryId scope expected) (hrequests : expected.Requests .channel value) :
    (scope.values .channel).isSome = true := by
  obtain ⟨values, hvalues, _⟩ | ⟨hsingle, ⟨ids, hids⟩, _⟩ := requested_of_requests hrequests
  · obtain ⟨held, hheld⟩ := channel_of_accepted h hvalues
    simp [hheld]
  · obtain ⟨held, hheld, _⟩ := hread.channel ids value hids hsingle hrequests.1
    simp [hheld]

end Accepted

/-! ## Accepted tokens -/

structure Accepted (sha256Hex : String → String) (s : Registry) (token : String)
    (input : ValidateInput) (now : ℤ) (c : InternalCredentialRecord) : Prop where
  token : ∃ id secret, parseLaneToken "relay-sac-v1" token = some (id, secret) ∧
    s.get id = some c ∧ c.secretHash = sha256Hex secret
  audience : Audience.ofString? input.audience = some c.audience
  unexpired : now < c.expiresAt
  unrevoked : c.revokedAt = none
  capable : ∀ capability ∈ input.requiredCapabilities, ∃ bit ∈ c.capabilities, bit.val = capability
  scope : validateCredentialScope c.scope input.scope = none

variable {sha256Hex : String → String} {s s' : Registry} {token id revokedBy : String}
  {input : ValidateInput} {now : ℤ} {c : InternalCredentialRecord}

theorem accepted_of_validate {credential : CredentialRecord} {bits : List String}
    (h : validate sha256Hex s token input now = .ok credential bits) :
    ∃ c, Accepted sha256Hex s token input now c ∧ c.toCredentialRecord = credential := by
  rw [validate] at h
  split at h
  · cases h
  · rename_i id secret hparse
    split at h
    · cases h
    · rename_i c hget
      split at h
      · cases h
      · rename_i hhash
        split at h
        · cases h
        · rename_i audience haudience
          split_ifs at h with hwrong hexpired hrevoked
          split at h
          · cases h
          · dsimp only at h
            split_ifs at h with hlacking
            split at h
            · cases h
            · rename_i hscope
              rw [not_not] at hhash hwrong hlacking
              cases h
              refine ⟨c, ?_, rfl⟩
              exact {
                token := ⟨id, secret, hparse, hget, hhash⟩
                audience := by rw [haudience, hwrong]
                unexpired := by omega
                unrevoked := by simpa using hrevoked
                capable := (missingCapabilities_eq_nil_iff _ _).mp hlacking
                scope := hscope }

theorem confined_iff_of_accepted (h : Accepted sha256Hex s token input now c) :
    Confined c.toCredentialRecord input now ↔ ReadsEveryId c.scope input.scope := by
  constructor
  · intro hconf
    refine ⟨?_, ?_, ?_⟩
    · intro ids value _ hsingle hblank
      have hrequests : input.scope.Requests .channel value := ⟨hblank, .inl hsingle⟩
      obtain ⟨held, hheld⟩ := Option.isSome_iff_exists.mp (hconf.channelScoped value hrequests)
      exact ⟨held, hheld, hconf.inside .channel held value hheld hrequests⟩
    · intro ids value held _ hsingle hblank hheld
      exact hconf.inside .workContext held value hheld ⟨hblank, .inl hsingle⟩
    · intro held stem rest hheld hstem hpath
      have hmatch : pathMatchesPrefix (directoryText stem ++ rest) stem = true :=
        (pathMatchesPrefix_iff _ _).mpr (.inr ⟨rest, rfl⟩)
      have hblank := pathMatchesPrefix_not_blank (held.not_blank stem hstem) hmatch
      obtain ⟨top, htop, hwithin⟩ :=
        hconf.inside .path held _ hheld ⟨hblank, .inl hpath⟩
      refine ⟨top, htop, ?_⟩
      rw [← resolve_directoryText_append (Text.ne_empty_of_not_blank (held.not_blank stem hstem))]
      exact hwithin
  · intro hread
    exact {
      unrevoked := h.unrevoked
      unexpired := h.unexpired
      audience := h.audience
      capable := h.capable
      inside := fun _ _ _ hheld hrequests => inside_of_accepted h.scope hread hheld hrequests
      named := fun _ hheld =>
        have ⟨_, hsome⟩ := Option.isSome_iff_exists.mp hheld
        named_of_accepted h.scope hsome
      channelScoped := fun _ hrequests => channelScoped_of_accepted h.scope hread hrequests }

/-! ## Revocation -/

inductive RegistryOp
  | issue (input : IssueInput) (issuedAt : ℤ) (uuid secret : String)
  | importCredential (input : ImportInput)
  | revoke (credentialId revokedBy : String) (now : ℤ)
  | revokeByGrantId (grantId revokedBy : String) (now : ℤ)

/-- A failed call leaves the registry as it was. -/
def step (sha256Hex : String → String) (s : Registry) : RegistryOp → Registry
  | .issue input issuedAt uuid secret =>
    match issue sha256Hex s input issuedAt uuid secret with
    | .ok (_, s') => s'
    | .error _ => s
  | .importCredential input =>
    match importCredential s input with
    | .ok s' => s'
    | .error _ => s
  | .revoke credentialId revokedBy now => (revoke s credentialId revokedBy now).2
  | .revokeByGrantId grantId revokedBy now => (revokeByGrantId s grantId revokedBy now).2

theorem checkNewId_eq_ok {u : Unit} (h : s.checkNewId id = .ok u) : s.get id = none := by
  rw [Registry.checkNewId] at h
  split at h
  · cases h
  · rename_i hnew
    simpa using hnew

theorem get_store {credential : InternalCredentialRecord}
    (hnew : s.get credential.id = none) (h : s.get id = some c) :
    (s.store credential).get id = some c := by
  rw [Registry.get, Registry.store, Table.find?_insert_of_new _ _ _ hnew]
  split
  · rename_i heq
    rw [heq, h] at hnew
    cases hnew
  · exact h

theorem get_issue {input : IssueInput} {issuedAt : ℤ} {uuid secret : String}
    (h : issue sha256Hex s input issuedAt uuid secret = .ok (token, s')) {id : String}
    {c : InternalCredentialRecord} (hget : s.get id = some c) : s'.get id = some c := by
  obtain ⟨actorType, -, h⟩ := bind_eq_ok h
  obtain ⟨audience, -, h⟩ := bind_eq_ok h
  obtain ⟨capabilities, -, h⟩ := bind_eq_ok h
  obtain ⟨scope, -, h⟩ := bind_eq_ok h
  obtain ⟨expiresAt, -, h⟩ := bind_eq_ok h
  obtain ⟨_, hnew, h⟩ := bind_eq_ok h
  cases h
  exact get_store (checkNewId_eq_ok hnew) hget

theorem importCredential_eq_ok {input : ImportInput} (h : importCredential s input = .ok s') :
    ∃ credential : InternalCredentialRecord, s.get input.id = none ∧ s' = s.store credential ∧
      credential.id = input.id ∧ credential.secretHash = input.secretHash ∧
      storedTime input.revokedAt = .ok credential.revokedAt ∧
      requiredTime input.expiresAt = .ok credential.expiresAt := by
  obtain ⟨actorType, -, h⟩ := bind_eq_ok h
  obtain ⟨audience, -, h⟩ := bind_eq_ok h
  obtain ⟨capabilities, -, h⟩ := bind_eq_ok h
  obtain ⟨scope, -, h⟩ := bind_eq_ok h
  obtain ⟨_, -, h⟩ := bind_eq_ok h
  obtain ⟨issuedAt, -, h⟩ := bind_eq_ok h
  obtain ⟨expiresAt, hexpires, h⟩ := bind_eq_ok h
  obtain ⟨_, hnew, h⟩ := bind_eq_ok h
  obtain ⟨revokedAt, hrevoked, h⟩ := bind_eq_ok h
  cases h
  exact ⟨_, checkNewId_eq_ok hnew, rfl, rfl, rfl, hrevoked, hexpires⟩

/-- `c'` is `c`, revoked or not. -/
def Retains (c c' : InternalCredentialRecord) : Prop :=
  c'.expiresAt = c.expiresAt ∧ (c.revokedAt.isSome = true → c'.revokedAt.isSome = true)

theorem retains_refl (c : InternalCredentialRecord) : Retains c c := ⟨rfl, id⟩

theorem get_updateWhere_revoke {p : InternalCredentialRecord → Bool}
    (hkey : ∀ c : InternalCredentialRecord, (c.revoke revokedBy now).id = c.id) {id : String}
    {c : InternalCredentialRecord} (hget : s.get id = some c) :
    ∃ c', (s.credentials.updateWhere p (fun c => c.revoke revokedBy now) hkey).find? id =
        some c' ∧ Retains c c' ∧ (p c = true → c'.revokedAt.isSome = true) := by
  rw [Table.find?_updateWhere]
  rw [Registry.get] at hget
  rw [hget, Option.map_some]
  refine ⟨_, rfl, ?_⟩
  by_cases hp : p c = true
  · rw [if_pos hp]
    exact ⟨⟨rfl, fun _ => rfl⟩, fun _ => rfl⟩
  · rw [if_neg hp]
    exact ⟨retains_refl c, fun h => absurd h hp⟩

/-- No call forgets a credential, moves its expiry or takes its revocation back. -/
theorem get_step (sha256Hex : String → String) {s : Registry} (op : RegistryOp) {id : String}
    {c : InternalCredentialRecord} (hget : s.get id = some c) :
    ∃ c', (step sha256Hex s op).get id = some c' ∧ Retains c c' := by
  cases op with
  | issue input issuedAt uuid secret =>
    simp only [step]
    split
    · rename_i hissue
      exact ⟨c, get_issue hissue hget, retains_refl c⟩
    · exact ⟨c, hget, retains_refl c⟩
  | importCredential input =>
    simp only [step]
    split
    · rename_i himport
      obtain ⟨credential, hnew, rfl, hid, -⟩ := importCredential_eq_ok himport
      rw [← hid] at hnew
      exact ⟨c, get_store hnew hget, retains_refl c⟩
    · exact ⟨c, hget, retains_refl c⟩
  | revoke credentialId revokedBy now =>
    simp only [step, revoke]
    split
    · exact ⟨c, hget, retains_refl c⟩
    · obtain ⟨c', hc', hretains, -⟩ := get_updateWhere_revoke (fun _ => rfl) hget
      exact ⟨c', hc', hretains⟩
  | revokeByGrantId grantId revokedBy now =>
    obtain ⟨c', hc', hretains, -⟩ := get_updateWhere_revoke (fun _ => rfl) hget
    exact ⟨c', hc', hretains⟩

/-- The record stored under `id` is refused from the time `since` on. -/
def ClosedSince (since : ℤ) (id : String) (s : Registry) : Prop :=
  ∃ c, s.get id = some c ∧ (c.revokedAt.isSome = true ∨ c.expiresAt ≤ since)

inductive LivesOn (sha256Hex : String → String) (id : String) (s : Registry) : Registry → Prop
  | refl : LivesOn sha256Hex id s s
  | step {s' : Registry} (op : RegistryOp) : LivesOn sha256Hex id s s' →
      LivesOn sha256Hex id s (step sha256Hex s' op)
  | restore {s' t t' : Registry} {c : InternalCredentialRecord} : LivesOn sha256Hex id s s' →
      s'.get id = some c → importCredential t (exportCredential c) = .ok t' →
      LivesOn sha256Hex id s t'

theorem get_of_restore {t t' : Registry} (h : importCredential t (exportCredential c) = .ok t') :
    ∃ c', t'.get c.id = some c' ∧ c'.revokedAt = c.revokedAt ∧ c'.expiresAt = c.expiresAt := by
  obtain ⟨credential, hnew, rfl, hid, -, hrevoked, hexpires⟩ := importCredential_eq_ok h
  refine ⟨credential, ?_, ?_, ?_⟩
  · rw [← hid] at hnew
    have hc : credential.id = c.id := hid
    rw [Registry.get, Registry.store, Table.find?_insert_of_new _ _ _ hnew, if_pos hc]
  · have htime : storedTime (exportCredential c).revokedAt = .ok c.revokedAt := by
      cases hc : c.revokedAt <;> simp [exportCredential, storedTime, hc]
    rw [htime] at hrevoked
    exact (Except.ok.inj hrevoked).symm
  · exact (Except.ok.inj hexpires).symm

theorem closedSince_livesOn (hlives : LivesOn sha256Hex id s s') (h : ClosedSince since id s) :
    ClosedSince since id s' := by
  induction hlives with
  | refl => exact h
  | step op _ ih =>
    obtain ⟨c, hget, hclosed⟩ := ih
    obtain ⟨c', hget', hexpires, hrevoked⟩ := get_step sha256Hex op hget
    refine ⟨c', hget', ?_⟩
    rw [hexpires]
    exact hclosed.imp_left hrevoked
  | restore _ hget himport ih =>
    obtain ⟨c, hget', hclosed⟩ := ih
    rw [hget] at hget'
    obtain rfl := Option.some.inj hget'
    have hid := ((Table.find?_eq_some_iff _ _ _).mp hget).2
    obtain ⟨c', hstored, hrevoked, hexpires⟩ := get_of_restore himport
    rw [hid] at hstored
    refine ⟨c', hstored, ?_⟩
    rw [hrevoked, hexpires]
    exact hclosed

theorem not_accepted_of_closedSince {secret : String}
    (h : ClosedSince since id s) (hnow : since ≤ now)
    (hparse : parseLaneToken "relay-sac-v1" token = some (id, secret))
    (credential : CredentialRecord) (bits : List String) :
    validate sha256Hex s token input now ≠ .ok credential bits := by
  intro hok
  obtain ⟨c, haccepted, -⟩ := accepted_of_validate hok
  obtain ⟨id', secret', hparse', hget', -⟩ := haccepted.token
  rw [hparse] at hparse'
  cases hparse'
  obtain ⟨c', hget, hclosed⟩ := h
  rw [hget] at hget'
  cases hget'
  obtain hrevoked | hexpired := hclosed
  · simp [haccepted.unrevoked] at hrevoked
  · have := haccepted.unexpired
    omega

theorem closedSince_revoke {record : CredentialRecord}
    (h : (revoke s id revokedBy now).1 = some record) (since : ℤ) :
    ClosedSince since id (revoke s id revokedBy now).2 := by
  rw [revoke] at h ⊢
  split at h
  · cases h
  · rename_i c hget
    obtain ⟨c', hc', -, hrevoked⟩ := get_updateWhere_revoke
      (p := fun c => decide (c.id = id)) (fun _ => rfl) hget
    have hid : c.id = id := ((Table.find?_eq_some_iff _ _ _).mp hget).2
    exact ⟨c', hc', .inl (hrevoked (by simpa using hid))⟩

theorem closedSince_revokeByGrantId {grantId : String} (hget : s.get id = some c)
    (hgrant : c.grantId = some grantId) :
    ClosedSince now id (revokeByGrantId s grantId revokedBy now).2 := by
  obtain ⟨c', hc', ⟨hexpires, hkept⟩, hrevoked⟩ := get_updateWhere_revoke
    (p := fun c => c.revocable grantId now) (fun _ => rfl) hget
  refine ⟨c', hc', ?_⟩
  by_cases hselected : c.revocable grantId now = true
  · exact .inl (hrevoked hselected)
  · -- a skipped credential is revoked already, or expired
    simp only [InternalCredentialRecord.revocable, hgrant, decide_true, Bool.true_and,
      Bool.and_eq_true, Bool.not_eq_true', decide_eq_false_iff_not, not_and, not_not] at hselected
    by_cases hnone : c.revokedAt.isNone = true
    · rw [hexpires]
      exact .inr (hselected hnone)
    · exact .inl (hkept (by simpa [Option.isSome_iff_ne_none] using hnone))

/-- An accepted request is confined exactly when the rule table reads every id of it and its path
    stays below the prefixes; and a revoked credential is never accepted again. -/
theorem confined_iff_readsEveryId (sha256Hex : String → String) :
    (∀ s token input now credential bits,
      validate sha256Hex s token input now = .ok credential bits →
        (Confined credential input now ↔ ReadsEveryId credential.scope input.scope)) ∧
    (∀ s id revokedBy t record, (revoke s id revokedBy t).1 = some record →
      ∀ s', LivesOn sha256Hex id (revoke s id revokedBy t).2 s' →
      ∀ token secret input now, parseLaneToken "relay-sac-v1" token = some (id, secret) →
      ∀ credential bits, validate sha256Hex s' token input now ≠ .ok credential bits) ∧
    (∀ s id c grantId revokedBy t, s.get id = some c → c.grantId = some grantId →
      ∀ s', LivesOn sha256Hex id (revokeByGrantId s grantId revokedBy t).2 s' →
      ∀ token secret input now, t ≤ now →
      parseLaneToken "relay-sac-v1" token = some (id, secret) →
      ∀ credential bits, validate sha256Hex s' token input now ≠ .ok credential bits) := by
  refine ⟨?_, ?_, ?_⟩
  · intro s token input now credential bits hok
    obtain ⟨c, haccepted, rfl⟩ := accepted_of_validate hok
    exact confined_iff_of_accepted haccepted
  · intro s id revokedBy t record hrevoke s' hlives token secret input now hparse
    have hclosed := closedSince_livesOn hlives (closedSince_revoke hrevoke now)
    exact not_accepted_of_closedSince hclosed (Int.le_refl now) hparse
  · intro s id c grantId revokedBy t hget hgrant s' hlives token secret input now hnow hparse
    have hclosed := closedSince_livesOn hlives (closedSince_revokeByGrantId hget hgrant)
    exact not_accepted_of_closedSince hclosed hnow hparse

/-! ## A credential, a request that hides a channel, and a path that climbs -/

/-- The digest of the secret `00`. -/
def digest00 : String := "f1534392279bddbf9d43dde8701cb5be14b82f76ec6607bf8d6ad557f60f304e"

/-- A digest that is right on `00`. -/
def sha256HexOf00 : String → String := fun _ => digest00

/-- A credential for `session:read`. -/
def credentialFor (scope : Scope) : InternalCredentialRecord where
  id := "c1"
  actorType := .agent
  actorId := "a"
  grantId := some "g1"
  audience := .cliGateway
  capabilities := [⟨"session:read", sessionRead_mem⟩]
  scope := scope
  issuedAt := 0
  expiresAt := 60000
  revokedAt := none
  revokedBy := none
  secretHash := digest00

/-- A registry with this one credential. -/
def registryWith (scope : Scope) : Registry :=
  (Registry.empty 900000).store (credentialFor scope)

def nodeScope : Scope where
  fields := ⟨some ⟨["n1"], by decide, by decide⟩, none, none, none, none, none, none, none⟩
  restricts := by decide

def pathScope : Scope where
  fields := ⟨none, none, none, none, none, none, some ⟨["/srv/a"], by decide, by decide⟩, none⟩
  restricts := by decide

def requestFor (scope : ValidationScope) : ValidateInput where
  audience := "relay:cli-gateway:v1"
  requiredCapabilities := ["session:read"]
  scope := scope

/-- A request for the node of the credential is accepted, and refused after a revocation. -/
theorem confined_iff_on_node :
    (∃ credential bits,
      validate sha256HexOf00 (registryWith nodeScope) "relay-sac-v1.c1.00"
        (requestFor { nodeId := some "n1" }) 0 = .ok credential bits ∧
      (Confined credential (requestFor { nodeId := some "n1" }) 0 ↔
        ReadsEveryId credential.scope { nodeId := some "n1" })) ∧
    (∀ credential bits,
      validate sha256HexOf00 (revoke (registryWith nodeScope) "c1" "op" 5).2
        "relay-sac-v1.c1.00" (requestFor { nodeId := some "n1" }) 6 ≠ .ok credential bits) ∧
    (∀ credential bits,
      validate sha256HexOf00 (revokeByGrantId (registryWith nodeScope) "g1" "op" 5).2
        "relay-sac-v1.c1.00" (requestFor { nodeId := some "n1" }) 6 ≠ .ok credential bits) := by
  obtain ⟨hiff, hrevoked, hgrant⟩ := confined_iff_readsEveryId sha256HexOf00
  have hok : validate sha256HexOf00 (registryWith nodeScope) "relay-sac-v1.c1.00"
      (requestFor { nodeId := some "n1" }) 0 =
        .ok (credentialFor nodeScope).toCredentialRecord ["session:read"] := rfl
  refine ⟨⟨_, _, hok, hiff _ _ _ _ _ _ hok⟩, ?_, ?_⟩
  · exact hrevoked _ _ _ _ _ rfl _ .refl _ "00" _ _ rfl
  · exact hgrant _ _ _ _ _ 5 rfl rfl _ .refl _ "00" _ 6 (by decide) rfl

/-- An empty channel list hides the single channel, and a textual prefix lets `..` through. -/
theorem accepted_outside_scope :
    (∃ credential bits,
      validate sha256HexOf00 (registryWith nodeScope) "relay-sac-v1.c1.00"
        (requestFor { nodeId := some "n1", channelId := some "z", channelIds := some [] }) 0 =
          .ok credential bits ∧
      ¬Confined credential
        (requestFor { nodeId := some "n1", channelId := some "z", channelIds := some [] }) 0) ∧
    (∃ credential bits,
      validate sha256HexOf00 (registryWith pathScope) "relay-sac-v1.c1.00"
        (requestFor { path := some "/srv/a/../../etc" }) 0 = .ok credential bits ∧
      ¬Confined credential (requestFor { path := some "/srv/a/../../etc" }) 0) := by
  refine ⟨⟨_, _, rfl, fun hconf => ?_⟩, ⟨_, _, rfl, fun hconf => ?_⟩⟩
  · have hscoped := hconf.channelScoped "z" ⟨by decide, .inl rfl⟩
    cases hscoped
  · obtain ⟨stem, hstem, hwithin⟩ :=
      hconf.inside .path ⟨["/srv/a"], by decide, by decide⟩ "/srv/a/../../etc" rfl
        ⟨by decide, .inl rfl⟩
    rw [mem_singleton] at hstem
    subst hstem
    exact absurd hwithin (by decide)

end RelayIde.Security.ActorCredential
