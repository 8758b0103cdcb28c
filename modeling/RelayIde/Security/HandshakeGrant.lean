import RelayIde.Library.Machine
import RelayIde.Library.Table
import RelayIde.Security.Scope

/-!
# Operator Handshake Grants

Models `shared/operator-handshake-grants.ts`: one-time grants that an agent requests, an operator
approves or denies, and a node accepts at most once.

- `World`, `step` — a run of calls at nondecreasing times, with what each of them reported

`Matches` compares a validation with the request of the grant.  The digest is the parameter
`sha256Hex`.
-/

namespace RelayIde.Security.HandshakeGrant

open RelayIde.Library List Function

/-! ## Grants -/

/-- `HANDSHAKE_GRANT_AUDIENCES`. -/
inductive Audience
  | operatorHandshake | cliGateway | operatorClient | nodePairToken | registryTest
deriving DecidableEq

def Audience.ofString? : String → Option Audience
  | "relay:operator-handshake:v1" => some .operatorHandshake
  | "relay:cli-gateway:v1" => some .cliGateway
  | "relay:operator-client:v1" => some .operatorClient
  | "relay:node-pair-token:v1" => some .nodePairToken
  | "relay:registry-test" => some .registryTest
  | _ => none

def Audience.text : Audience → String
  | .operatorHandshake => "relay:operator-handshake:v1"
  | .cliGateway => "relay:cli-gateway:v1"
  | .operatorClient => "relay:operator-client:v1"
  | .nodePairToken => "relay:node-pair-token:v1"
  | .registryTest => "relay:registry-test"

theorem Audience.ofString?_eq_some_iff (value : String) (audience : Audience) :
    ofString? value = some audience ↔ value = audience.text := by
  constructor
  · intro h
    unfold ofString? at h
    split at h <;> cases h <;> rfl
  · rintro rfl
    cases audience <;> rfl

/-- `HandshakeGrantRequestStatus`. -/
inductive Status
  | requested | approved | denied | revoked | expired | consumed
deriving DecidableEq

/-- `HandshakeGrantActor`. -/
@[ext] structure Actor where
  type : String
  id : String

/-- `HandshakeGrantSessionBinding`. -/
structure SessionBinding where
  sessionId : Option String := none
  globalSessionId : Option String := none
  workContextId : Option String := none
  authSessionHash : Option String := none

def SessionBinding.fields (binding : SessionBinding) : List (Option String) :=
  [binding.sessionId, binding.globalSessionId, binding.workContextId, binding.authSessionHash]

/-- `HandshakeGrantHighRiskApprovalRef`. -/
structure HighRiskApprovalRef where
  challengeId : String
  contractHash : String
  approvedAt : String

/-- What a grant allows; no call changes it. -/
structure Terms where
  actorType : ActorType
  actorId : String
  audience : Audience
  capabilities : List RelayCapabilityBit
  scope : Scope
  deviceIdHash : Option String
  sessionBinding : Option SessionBinding
  createdAt : ℤ
  expiresAt : ℤ

/-- `InternalHandshakeGrantRecord`. -/
structure GrantRecord extends Terms where
  id : String
  status : Status
  approvedAt : Option ℤ := none
  deniedAt : Option ℤ := none
  revokedAt : Option ℤ := none
  consumedAt : Option ℤ := none
  consumedBy : Option String := none
  highRiskApproval : Option HighRiskApprovalRef := none
  handleHash : Option String := none

/-- `HandshakeGrantRegistryError`. -/
inductive RegistryError
  | unsupportedActorType (value : String)
  | unknownAudience (value : String)
  | unknownCapability (value : String)
  | scopeRequired
  | expiryRequired
  | expiryExceedsMaxTtl
  | duplicateGrantId (id : String)
  | highRiskApprovalRequired
  | grantNotFound (id : String)
  | grantNotPending (id : String) (status : Status)

structure Registry where
  grants : Table (fun g : GrantRecord => g.id)
  maxTtlMs : ℤ

/-- `new HandshakeGrantRegistry({ maxTtlMs })`. -/
def Registry.empty (maxTtlMs : ℤ) : Registry := ⟨Table.empty, maxTtlMs⟩

def Registry.get (s : Registry) (id : String) : Option GrantRecord :=
  s.grants.find? id

/-- Assignments to the fields of a stored grant. -/
def Registry.modify (s : Registry) (id : String) (f : GrantRecord → GrantRecord)
    (hf : ∀ g, (f g).id = g.id) : Registry :=
  { s with grants := s.grants.updateWhere (fun g => decide (g.id = id)) f hf }

/-- A random text: hexadecimal digits, or a UUID. -/
abbrev RandomText := {text : String // text ≠ "" ∧ '.' ∉ text.toList}

/-! ## Request, approve, deny, revoke -/

/-- `RequestHandshakeGrantInput`. -/
structure RequestInput where
  id : Option String := none
  actor : Actor
  audience : String
  capabilities : List String
  scope : ScopeFields (Option (List String))
  device : Option String := none
  sessionBinding : Option SessionBinding := none
  expiresAt : DateInput := .absent
  ttlMs : Option ℤ := none

def normalizeActorType (value : String) : Except RegistryError ActorType :=
  match ActorType.ofString? value with
  | some actorType => .ok actorType
  | none => .error (.unsupportedActorType value)

def normalizeAudience (value : String) : Except RegistryError Audience :=
  match Audience.ofString? value with
  | some audience => .ok audience
  | none => .error (.unknownAudience value)

def normalizeGrantCapabilities (values : List String) :
    Except RegistryError (List RelayCapabilityBit) :=
  match normalizeCapabilities [] values with
  | .ok bits => .ok bits
  | .error value => .error (.unknownCapability value)

def normalizeGrantScope (scope : ScopeFields (Option (List String))) :
    Except RegistryError Scope :=
  match normalizeScope scope with
  | some scope => .ok scope
  | none => .error .scopeRequired

/-- `DEFAULT_HANDSHAKE_GRANT_TTL_MS`. -/
def defaultGrantTtlMs : ℤ := 10 * 60 * 1000

/-- The ceiling on an expiry that was asked for. -/
def checkTtl (maxTtlMs createdAt expiresAt : ℤ) : Except RegistryError ℤ :=
  if expiresAt - createdAt > maxTtlMs then .error .expiryExceedsMaxTtl else .ok expiresAt

def resolveExpiry (maxTtlMs : ℤ) (input : RequestInput) (createdAt : ℤ) :
    Except RegistryError ℤ :=
  match input.expiresAt, input.ttlMs with
  | .absent, none => .ok (createdAt + defaultGrantTtlMs)
  | .absent, some ttlMs => checkTtl maxTtlMs createdAt (createdAt + ttlMs)
  | .invalid, _ => .error .expiryRequired
  | .time ms, _ => checkTtl maxTtlMs createdAt ms

/-- `copySessionBinding`: empty fields are dropped. -/
def copySessionBinding (binding : SessionBinding) : SessionBinding where
  sessionId := truthy binding.sessionId
  globalSessionId := truthy binding.globalSessionId
  workContextId := truthy binding.workContextId
  authSessionHash := truthy binding.authSessionHash

def requestTerms (sha256Hex : String → String) (maxTtlMs : ℤ) (input : RequestInput)
    (createdAt : ℤ) : Except RegistryError Terms := do
  let actorType ← normalizeActorType input.actor.type
  let audience ← normalizeAudience input.audience
  let capabilities ← normalizeGrantCapabilities input.capabilities
  let scope ← normalizeGrantScope input.scope
  let expiresAt ← resolveExpiry maxTtlMs input createdAt
  return {
    actorType, actorId := input.actor.id, audience, capabilities, scope
    deviceIdHash := input.device.map sha256Hex
    sessionBinding := input.sessionBinding.map copySessionBinding
    createdAt, expiresAt }

def Registry.checkNewId (s : Registry) (id : String) : Except RegistryError Unit :=
  if (s.get id).isSome then .error (.duplicateGrantId id) else .ok ()

/-- `request`, with the stored grant. -/
def request (sha256Hex : String → String) (s : Registry) (input : RequestInput) (now : ℤ)
    (uuid : RandomText) : Except RegistryError (GrantRecord × Registry) := do
  let terms ← requestTerms sha256Hex s.maxTtlMs input now
  let id := input.id.getD uuid.val
  s.checkNewId id
  let grant : GrantRecord := { terms with id, status := .requested }
  return (grant, { s with grants := s.grants.insert grant })

def requiresHighRiskApproval (capabilities : List RelayCapabilityBit) : Bool :=
  capabilities.any fun bit => highRiskCapabilities.contains bit.val

/-- The evidence has its three fields. -/
def HighRiskApprovalRef.complete (evidence : HighRiskApprovalRef) : Bool :=
  !Text.isBlank evidence.challengeId && !Text.isBlank evidence.contractHash &&
    !Text.isBlank evidence.approvedAt

def normalizeHighRiskApprovalEvidence (evidence : Option HighRiskApprovalRef) :
    Option HighRiskApprovalRef :=
  evidence.filter fun e => e.complete

/-- `relay-ohg-v1.id.secret`. -/
def grantHandle (id : String) (secret : RandomText) : String :=
  laneToken "relay-ohg-v1" id secret.val

/-- Helper: the assignments of an approval. -/
def GrantRecord.approve (sha256Hex : String → String) (now : ℤ) (secret : RandomText)
    (evidence : Option HighRiskApprovalRef) (g : GrantRecord) : GrantRecord :=
  { g with
    handleHash := some (sha256Hex secret.val)
    status := .approved
    approvedAt := some now
    highRiskApproval := evidence <|> g.highRiskApproval }

/-- Helper: the assignments of a denial. -/
def GrantRecord.deny (now : ℤ) (g : GrantRecord) : GrantRecord :=
  { g with status := .denied, deniedAt := some now }

/-- Helper: the assignments of a revocation. -/
def GrantRecord.revoke (now : ℤ) (g : GrantRecord) : GrantRecord :=
  { g with status := .revoked, revokedAt := some now }

@[simp] theorem GrantRecord.approve_id (sha256Hex : String → String) (now : ℤ)
    (secret : RandomText) (evidence : Option HighRiskApprovalRef) (g : GrantRecord) :
    (g.approve sha256Hex now secret evidence).id = g.id := rfl

variable (now : ℤ) (g : GrantRecord)

@[simp] theorem GrantRecord.deny_id : (g.deny now).id = g.id := rfl

@[simp] theorem GrantRecord.revoke_id : (g.revoke now).id = g.id := rfl

/-- `approve`, with the handle.  A high-risk grant without complete evidence is denied on the
    spot. -/
def approve (sha256Hex : String → String) (s : Registry) (grantId : String)
    (evidence : Option HighRiskApprovalRef) (now : ℤ) (secret : RandomText) :
    Except RegistryError String × Registry :=
  match s.get grantId with
  | none => (.error (.grantNotFound grantId), s)
  | some grant =>
    if grant.status ≠ .requested then (.error (.grantNotPending grantId grant.status), s)
    else if requiresHighRiskApproval grant.capabilities &&
        (normalizeHighRiskApprovalEvidence evidence).isNone then
      (.error .highRiskApprovalRequired, s.modify grantId (·.deny now) fun _ => rfl)
    else
      (.ok (grantHandle grant.id secret),
        s.modify grantId (·.approve sha256Hex now secret evidence) fun _ => rfl)

def deny (s : Registry) (grantId : String) (now : ℤ) : Registry :=
  match s.get grantId with
  | none => s
  | some grant =>
    if grant.status ≠ .requested then s else s.modify grantId (·.deny now) fun _ => rfl

/-- `revoke`, with whether there was a grant to revoke. -/
def revoke (s : Registry) (grantId : String) (now : ℤ) : Bool × Registry :=
  match s.get grantId with
  | none => (false, s)
  | some _ => (true, s.modify grantId (·.revoke now) fun _ => rfl)

/-! ## The rule table -/

/-- `HandshakeGrantValidationScope`. -/
structure ValidationScope where
  nodeId : Option String := none
  sessionId : Option String := none
  globalSessionId : Option String := none
  workContextId : Option String := none
  channelId : Option String := none
  channelIds : Option (List String) := none
  repoId : Option String := none
  path : Option String := none
  taskRef : Option String := none

def ValidationScope.single (expected : ValidationScope) : ScopeDimension → Option String
  | .node => expected.nodeId
  | .session => expected.sessionId
  | .globalSession => expected.globalSessionId
  | .workContext => expected.workContextId
  | .channel => expected.channelId
  | .repo => expected.repoId
  | .path => expected.path
  | .task => expected.taskRef

/-- `requestedValues`: only channels have a list. -/
def ValidationScope.listed (expected : ValidationScope) : ScopeDimension → Option (List String)
  | .channel => expected.channelIds
  | _ => none

/-- `HandshakeGrantValidationFailureReason`. -/
inductive FailureReason
  | malformedGrant
  | laneMixing
  | unknownAudience
  | wrongAudience
  | notApproved
  | expired
  | revoked
  | replayed
  | actorMismatch
  | deviceMismatch
  | sessionMismatch
  | missingScope
  | wrongScope (d : ScopeDimension)
  | unknownCapability
  | insufficientCapability
deriving DecidableEq

def pathMatchesGrantPrefix : String → String → Bool := pathMatchesPrefix

def listIncludesRequestedValue (values : List String) (requested : String) : Bool :=
  values.contains requested

/-- How a rule compares: paths with their prefixes, everything else by membership. -/
def covers : ScopeDimension → List String → String → Bool
  | .path => fun stems path => stems.any fun stem => pathMatchesGrantPrefix path stem
  | _ => listIncludesRequestedValue

structure ScopeValidationRule where
  dimension : ScopeDimension
  values : Option ScopeValues
  requested : Option String
  requestedValues : Option (List String)
  covers : List String → String → Bool

def scopeRule (scope : Scope) (expected : ValidationScope) (d : ScopeDimension) :
    ScopeValidationRule where
  dimension := d
  values := scope.values d
  requested := truthy (expected.single d)
  requestedValues := expected.listed d
  covers := covers d

/-- What the loop over the rules denies.  The listed values are compared by membership, and before
    the single one. -/
def ScopeValidationRule.denies (rule : ScopeValidationRule) : Bool :=
  match rule.values with
  | none => false
  | some held =>
    (rule.requestedValues.getD []).any (fun value => !held.values.contains value) ||
      rule.requested.any fun value => !rule.covers held.values value

/-- What the check after the loop denies. -/
def ScopeValidationRule.missing (rule : ScopeValidationRule) : Bool :=
  rule.values.isSome && rule.requested.isNone && (rule.requestedValues.getD []).isEmpty

def validateGrantScope (scope : Scope) (expected : ValidationScope) : Option FailureReason :=
  let rules := ScopeDimension.all.map (scopeRule scope expected)
  match rules.find? fun rule => rule.denies with
  | some rule => some (.wrongScope rule.dimension)
  | none => if rules.any fun rule => rule.missing then some .missingScope else none

/-! ## Validation -/

/-- `ValidateHandshakeGrantInput`. -/
structure ValidateInput where
  audience : String
  requiredCapabilities : List String
  actor : Option Actor := none
  deviceId : Option String := none
  sessionBinding : Option SessionBinding := none
  scope : ValidationScope := {}
  consume : Option Bool := none

/-- `HandshakeGrantValidationResult`. -/
inductive ValidationResult
  | ok (grant : GrantRecord) (grantedBits : List String) (consumed : Bool)
  | failed (reason : FailureReason) (grantId : Option String) (deniedBits : List String)

/-- `toLowerCase` on what it can turn into ASCII. -/
def toLowerCase (text : String) : List Char :=
  text.toList.map fun c => if c = '\u212A' then 'k' else c.toLower

def isForeignCredentialLane (value : String) : Bool :=
  let trimmed := toLowerCase (Text.trim value)
  ["bearer ", "relay-sac-v1.", "pair_", "node_", "relay-pair-", "relay-node-"].any
      (fun start => start.toList.isPrefixOf trimmed) ||
    [".secret_", "connect.sid=", "token="].any fun part =>
      trimmed.tails.any fun rest => part.toList.isPrefixOf rest

def actorMatches (g : Terms) (requested : Actor) : Bool :=
  g.actorType.text = requested.type && g.actorId = requested.id

/-- Whether a binding field is absent in the grant or equal in the request. -/
def fieldMatches (grantField requestedField : Option String) : Bool :=
  (truthy grantField).isNone || grantField = requestedField

def sessionBindingMatches (grantBinding requestedBinding : Option SessionBinding) : Bool :=
  match grantBinding with
  | none => true
  | some binding =>
    let requested := requestedBinding.getD {}
    fieldMatches binding.sessionId requested.sessionId &&
      fieldMatches binding.globalSessionId requested.globalSessionId &&
      fieldMatches binding.workContextId requested.workContextId &&
      fieldMatches binding.authSessionHash requested.authSessionHash

/-- The first unknown capability of a list, unless that is the empty text. -/
def unknownCapability (requiredCapabilities : List String) : Option String :=
  truthy (requiredCapabilities.find? fun bit => !isRelayCapabilityBit bit)

/-- The checks of `validate` on a grant whose secret was presented, in their order, with the
    reason and the denied bits of the first that fails. -/
def refusal (sha256Hex : String → String) (g : GrantRecord) (input : ValidateInput) (now : ℤ) :
    Option (FailureReason × List String) :=
  if (Audience.ofString? input.audience).isNone then some (.unknownAudience, [])
  else if Audience.ofString? input.audience ≠ some g.audience then some (.wrongAudience, [])
  else if g.status = .requested ∨ g.status = .denied then some (.notApproved, [])
  else if g.expiresAt ≤ now then some (.expired, input.requiredCapabilities)
  else if g.revokedAt.isSome ∨ g.status = .revoked then
    some (.revoked, input.requiredCapabilities)
  else if g.consumedAt.isSome ∨ g.status = .consumed then
    some (.replayed, input.requiredCapabilities)
  else if input.actor.any (fun actor => !actorMatches g.toTerms actor) then
    some (.actorMismatch, input.requiredCapabilities)
  else if g.deviceIdHash.any (fun idHash => sha256Hex (input.deviceId.getD "") ≠ idHash) then
    some (.deviceMismatch, input.requiredCapabilities)
  else if sessionBindingMatches g.sessionBinding input.sessionBinding = false then
    some (.sessionMismatch, input.requiredCapabilities)
  else if (unknownCapability input.requiredCapabilities).isSome then
    some (.unknownCapability, (unknownCapability input.requiredCapabilities).toList)
  else if missingCapabilities g.capabilities input.requiredCapabilities ≠ [] then
    some (.insufficientCapability, missingCapabilities g.capabilities input.requiredCapabilities)
  else (validateGrantScope g.scope input.scope).map fun reason =>
    (reason, input.requiredCapabilities)

/-- Helper: the assignments of a consuming validation. -/
def GrantRecord.consume (now : ℤ) (actor : Option Actor) (g : GrantRecord) : GrantRecord :=
  { g with
    status := .consumed
    consumedAt := some now
    consumedBy := some ((actor.map fun a => a.type ++ ":" ++ a.id).getD "unknown") }

@[simp] theorem GrantRecord.consume_id (now : ℤ) (actor : Option Actor) (g : GrantRecord) :
    (g.consume now actor).id = g.id := rfl

def validate (sha256Hex : String → String) (s : Registry) (handle : String)
    (input : ValidateInput) (now : ℤ) : ValidationResult × Registry :=
  match parseLaneToken "relay-ohg-v1" handle with
  | none =>
    (.failed (if isForeignCredentialLane handle then .laneMixing else .malformedGrant) none [], s)
  | some (id, secret) =>
    match s.get id with
    | none => (.failed .malformedGrant (some id) [], s)
    | some grant =>
      if grant.handleHash ≠ some (sha256Hex secret) then
        (.failed .malformedGrant (some id) [], s)
      else
        match refusal sha256Hex grant input now with
        | some (reason, deniedBits) =>
          (.failed reason (some grant.id) deniedBits,
            if reason = .expired then
              s.modify id (fun g => { g with status := .expired }) fun _ => rfl
            else s)
        | none =>
          if input.consume.getD true then
            (.ok (grant.consume now input.actor) input.requiredCapabilities true,
              s.modify id (·.consume now input.actor) fun _ => rfl)
          else (.ok grant input.requiredCapabilities false, s)

/-! ## A validation that matches a request -/

def ValidationScope.Names (expected : ValidationScope) (d : ScopeDimension)
    (value : String) : Prop :=
  (expected.single d = some value ∧ value ≠ "") ∨ ∃ ids, expected.listed d = some ids ∧ value ∈ ids

structure Matches (r : RequestInput) (v : ValidateInput) : Prop where
  audience : v.audience = r.audience
  actor : ∀ actor, v.actor = some actor → actor = r.actor
  device : ∀ device, r.device = some device → v.deviceId.getD "" = device
  session : ∀ binding, r.sessionBinding = some binding →
    List.Forall₂ (fun grantField requestedField =>
        ∀ value, grantField = some value → value ≠ "" → requestedField = some value)
      binding.fields (v.sessionBinding.getD {}).fields
  capable : ∀ capability ∈ v.requiredCapabilities, capability ∈ r.capabilities
  inside : ∀ d held, scopeValues (r.scope.get d) = some held →
    (∃ value, v.scope.Names d value) ∧ ∀ value, v.scope.Names d value → Inside d held.values value

/-- The requested path compares with the path prefixes by its text as it does once resolved. -/
def PathsAgree (scope : Scope) (expected : ValidationScope) : Prop :=
  ∀ held path stem, scope.values .path = some held → expected.path = some path →
    stem ∈ held.values → (pathMatchesPrefix path stem = true ↔
      PosixPath.Within (PosixPath.resolve stem) (PosixPath.resolve path))

section Rules

variable {scope : Scope} {expected : ValidationScope} {d : ScopeDimension} {held : ScopeValues}

theorem validateGrantScope_eq_none_iff :
    validateGrantScope scope expected = none ↔
      ∀ d, (scopeRule scope expected d).denies = false ∧
        (scopeRule scope expected d).missing = false := by
  have hmem : ∀ d, scopeRule scope expected d ∈ ScopeDimension.all.map (scopeRule scope expected) :=
    fun d => mem_map.mpr ⟨d, ScopeDimension.mem_all d, rfl⟩
  constructor
  · intro h d
    rw [validateGrantScope] at h
    split at h
    · cases h
    · rename_i hfind
      split at h
      · cases h
      · rename_i hany
        constructor
        · simpa using find?_eq_none.mp hfind _ (hmem d)
        · by_contra hmissing
          apply hany
          exact any_eq_true.mpr ⟨_, hmem d, by simpa using hmissing⟩
  · intro h
    have hfind : (ScopeDimension.all.map (scopeRule scope expected)).find? (·.denies) = none := by
      rw [find?_eq_none]
      intro rule hrule
      obtain ⟨d, _, rfl⟩ := mem_map.mp hrule
      simp [(h d).1]
    have hany : (ScopeDimension.all.map (scopeRule scope expected)).any (·.missing) = false := by
      rw [any_eq_false]
      intro rule hrule
      obtain ⟨d, _, rfl⟩ := mem_map.mp hrule
      simp [(h d).2]
    simp [validateGrantScope, hfind, hany]

theorem covers_of_listed {ids : List String} (h : expected.listed d = some ids)
    (values : List String) (value : String) : covers d values value = values.contains value := by
  cases d
  case channel => rfl
  all_goals cases h

theorem denies_eq_false_iff (hheld : scope.values d = some held) :
    (scopeRule scope expected d).denies = false ↔
      ∀ value, expected.Names d value → covers d held.values value = true := by
  simp only [ScopeValidationRule.denies, scopeRule, hheld, Bool.or_eq_false_iff, any_eq_false,
    Option.any_eq_false, Bool.not_eq_false']
  constructor
  · rintro ⟨hlisted, hsingle⟩ value (⟨hvalue, hne⟩ | ⟨ids, hids, hmem⟩)
    · exact hsingle value ((truthy_eq_some_iff _ _).mpr ⟨hvalue, hne⟩)
    · rw [covers_of_listed hids]
      simpa using hlisted value (by simpa [hids] using hmem)
  · intro hnamed
    constructor
    · intro value hmem
      cases hids : expected.listed d with
      | none => simp [hids] at hmem
      | some ids =>
        have hcovers := hnamed value (.inr ⟨ids, hids, by simpa [hids] using hmem⟩)
        rw [covers_of_listed hids] at hcovers
        simpa using hcovers
    · intro value hvalue
      obtain ⟨hvalue, hne⟩ := (truthy_eq_some_iff _ _).mp hvalue
      exact hnamed value (.inl ⟨hvalue, hne⟩)

theorem missing_eq_false_iff (hheld : scope.values d = some held) :
    (scopeRule scope expected d).missing = false ↔ ∃ value, expected.Names d value := by
  simp only [ScopeValidationRule.missing, scopeRule, hheld, Option.isSome_some, Bool.true_and,
    Bool.and_eq_false_iff]
  constructor
  · rintro (hsingle | hlisted)
    · obtain ⟨value, hvalue⟩ := Option.isSome_iff_exists.mp (by simpa using hsingle)
      obtain ⟨hvalue, hne⟩ := (truthy_eq_some_iff _ _).mp hvalue
      exact ⟨value, .inl ⟨hvalue, hne⟩⟩
    · cases hids : expected.listed d with
      | none => simp [hids] at hlisted
      | some ids =>
        obtain ⟨value, hmem⟩ := exists_mem_of_ne_nil ids (by simpa [hids] using hlisted)
        exact ⟨value, .inr ⟨ids, hids, hmem⟩⟩
  · rintro ⟨value, ⟨hvalue, hne⟩ | ⟨ids, hids, hmem⟩⟩
    · left
      rw [(truthy_eq_some_iff _ _).mpr ⟨hvalue, hne⟩]
      rfl
    · right
      simpa [hids] using ne_nil_of_mem hmem

theorem covers_iff_inside (hagree : PathsAgree scope expected) (hheld : scope.values d = some held)
    {value : String} (hnames : expected.Names d value) :
    covers d held.values value = true ↔ Inside d held.values value := by
  cases d
  case path =>
    obtain ⟨hpath, _⟩ | ⟨_, hids, _⟩ := hnames
    · simp only [covers, any_eq_true]
      constructor
      · rintro ⟨stem, hstem, hmatch⟩
        exact ⟨stem, hstem, (hagree held value stem hheld hpath hstem).mp hmatch⟩
      · rintro ⟨stem, hstem, hwithin⟩
        exact ⟨stem, hstem, (hagree held value stem hheld hpath hstem).mpr hwithin⟩
    · cases hids
  all_goals simp [covers, listIncludesRequestedValue, Inside]

theorem validateGrantScope_iff_inside (hagree : PathsAgree scope expected) :
    validateGrantScope scope expected = none ↔ ∀ d held, scope.values d = some held →
      (∃ value, expected.Names d value) ∧
        ∀ value, expected.Names d value → Inside d held.values value := by
  rw [validateGrantScope_eq_none_iff]
  constructor
  · intro h d held hheld
    refine ⟨(missing_eq_false_iff hheld).mp (h d).2, fun value hnames => ?_⟩
    rw [← covers_iff_inside hagree hheld hnames]
    exact (denies_eq_false_iff hheld).mp (h d).1 value hnames
  · intro h d
    cases hheld : scope.values d with
    | none =>
      simp [ScopeValidationRule.denies, ScopeValidationRule.missing, scopeRule, hheld]
    | some held =>
      obtain ⟨hnamed, hinside⟩ := h d held hheld
      refine ⟨(denies_eq_false_iff hheld).mpr fun value hnames => ?_,
        (missing_eq_false_iff hheld).mpr hnamed⟩
      rw [covers_iff_inside hagree hheld hnames]
      exact hinside value hnames

end Rules

/-! ## The checks of a validation -/

/-- A grant that can still be used. -/
structure Usable (g : GrantRecord) (now : ℤ) : Prop where
  decided : ¬(g.status = .requested ∨ g.status = .denied)
  unexpired : now < g.expiresAt
  unrevoked : ¬(g.revokedAt.isSome = true ∨ g.status = .revoked)
  unconsumed : ¬(g.consumedAt.isSome = true ∨ g.status = .consumed)

structure Complies (sha256Hex : String → String) (terms : Terms) (v : ValidateInput) : Prop where
  audience : Audience.ofString? v.audience = some terms.audience
  actor : v.actor.any (fun actor => !actorMatches terms actor) = false
  device : terms.deviceIdHash.any
    (fun idHash => decide (sha256Hex (v.deviceId.getD "") ≠ idHash)) = false
  session : sessionBindingMatches terms.sessionBinding v.sessionBinding = true
  known : unknownCapability v.requiredCapabilities = none
  capable : missingCapabilities terms.capabilities v.requiredCapabilities = []
  scope : validateGrantScope terms.scope v.scope = none

theorem ite_some_eq_none_iff {α : Type} {p : Prop} [Decidable p] {a : α} {next : Option α} :
    (if p then some a else next) = none ↔ ¬p ∧ next = none := by
  by_cases hp : p <;> simp [hp]

theorem refusal_eq_none_iff (sha256Hex : String → String) (g : GrantRecord) (v : ValidateInput)
    (now : ℤ) :
    refusal sha256Hex g v now = none ↔ Usable g now ∧ Complies sha256Hex g.toTerms v := by
  simp only [refusal, ite_some_eq_none_iff, Option.map_eq_none_iff, not_not,
    Option.isSome_eq_false_iff, Bool.not_eq_true, Option.isNone_iff_eq_none, Bool.not_eq_false]
  constructor
  · rintro ⟨_, haudience, hdecided, hexpires, hrevoked, hconsumed, hactor, hdevice, hsession,
      hknown, hcapable, hscope⟩
    exact ⟨⟨hdecided, by omega, hrevoked, hconsumed⟩,
      ⟨haudience, hactor, hdevice, hsession, hknown, hcapable, hscope⟩⟩
  · rintro ⟨husable, hcomplies⟩
    have hexpires := husable.unexpired
    exact ⟨by simp [hcomplies.audience], hcomplies.audience, husable.decided, by omega,
      husable.unrevoked, husable.unconsumed, hcomplies.actor, hcomplies.device,
      hcomplies.session, hcomplies.known, hcomplies.capable, hcomplies.scope⟩

theorem fieldMatches_truthy_iff (grantField requestedField : Option String) :
    fieldMatches (truthy grantField) requestedField = true ↔
      ∀ value, grantField = some value → value ≠ "" → requestedField = some value := by
  cases hgrant : truthy grantField with
  | none =>
    simp only [fieldMatches, truthy, Option.filter_none, Option.isNone_none, Bool.true_or, true_iff]
    intro value hvalue hne
    rw [(truthy_eq_some_iff _ _).mpr ⟨hvalue, hne⟩] at hgrant
    cases hgrant
  | some bound =>
    obtain ⟨hbound, hne⟩ := (truthy_eq_some_iff _ _).mp hgrant
    have htruthy : truthy (some bound) = some bound := (truthy_eq_some_iff _ _).mpr ⟨rfl, hne⟩
    simp [fieldMatches, htruthy, hbound, hne, eq_comm]

theorem sessionBindingMatches_iff (grantBinding requestedBinding : Option SessionBinding) :
    sessionBindingMatches (grantBinding.map copySessionBinding) requestedBinding = true ↔
      ∀ binding, grantBinding = some binding →
        List.Forall₂ (fun grantField requestedField =>
            ∀ value, grantField = some value → value ≠ "" → requestedField = some value)
          binding.fields (requestedBinding.getD {}).fields := by
  cases grantBinding with
  | none => simp [sessionBindingMatches]
  | some binding =>
    simp only [sessionBindingMatches, Option.map_some, copySessionBinding, Bool.and_eq_true,
      fieldMatches_truthy_iff, Option.some.injEq, forall_eq', SessionBinding.fields,
      List.forall₂_cons, List.forall₂_nil_left_iff, and_true, and_assoc]

variable {createdAt : ℤ} {r : RequestInput} {terms : Terms}

theorem requestTerms_eq_ok {sha256Hex : String → String} {maxTtlMs : ℤ}
    (h : requestTerms sha256Hex maxTtlMs r createdAt = .ok terms) :
    r.actor.type = terms.actorType.text ∧ r.actor.id = terms.actorId ∧
      r.audience = terms.audience.text ∧
      (∀ capability, (∃ bit ∈ terms.capabilities, bit.val = capability) ↔
        capability ∈ r.capabilities) ∧
      (∀ d, terms.scope.values d = scopeValues (r.scope.get d)) ∧
      terms.deviceIdHash = r.device.map sha256Hex ∧
      terms.sessionBinding = r.sessionBinding.map copySessionBinding := by
  obtain ⟨actorType, hactor, h⟩ := bind_eq_ok h
  obtain ⟨audience, haudience, h⟩ := bind_eq_ok h
  obtain ⟨capabilities, hcapabilities, h⟩ := bind_eq_ok h
  obtain ⟨scope, hscope, h⟩ := bind_eq_ok h
  obtain ⟨expiresAt, -, h⟩ := bind_eq_ok h
  cases h
  refine ⟨?_, rfl, ?_, ?_, ?_, rfl, rfl⟩
  · rw [normalizeActorType] at hactor
    split at hactor
    · cases hactor
      exact (ActorType.ofString?_eq_some_iff _ _).mp ‹_›
    · cases hactor
  · rw [normalizeAudience] at haudience
    split at haudience
    · cases haudience
      exact (Audience.ofString?_eq_some_iff _ _).mp ‹_›
    · cases haudience
  · rw [normalizeGrantCapabilities] at hcapabilities
    split at hcapabilities
    · rename_i bits hbits
      cases hcapabilities
      intro capability
      rw [mem_normalizeCapabilities hbits capability]
      simp
    · cases hcapabilities
  · rw [normalizeGrantScope] at hscope
    split at hscope
    · rename_i normalized hnormalized
      cases hscope
      exact values_of_normalizeScope hnormalized
    · cases hscope

theorem unknownCapability_eq_none {capabilities : List String}
    (h : ∀ capability ∈ capabilities, capability ∈ relayCapabilityBits) :
    unknownCapability capabilities = none := by
  have hfind : (capabilities.find? fun bit => !isRelayCapabilityBit bit) = none := by
    rw [find?_eq_none]
    intro bit hbit
    simp [isRelayCapabilityBit, h bit hbit]
  simp [unknownCapability, hfind, truthy]

theorem complies_iff_matches {sha256Hex : String → String} (hinj : Injective sha256Hex)
    {maxTtlMs : ℤ} (h : requestTerms sha256Hex maxTtlMs r createdAt = .ok terms) {v : ValidateInput}
    (hagree : PathsAgree terms.scope v.scope) : Complies sha256Hex terms v ↔ Matches r v := by
  obtain ⟨htype, hid, haudience, hcapable, hscope, hdevice, hsession⟩ := requestTerms_eq_ok h
  have hactor : ∀ actor : Actor, actorMatches terms actor = true ↔ actor = r.actor := by
    intro actor
    rw [Actor.ext_iff, htype, hid]
    simp only [actorMatches, Bool.and_eq_true, decide_eq_true_eq]
    exact and_congr eq_comm eq_comm
  constructor
  · intro hc
    refine ⟨?_, ?_, ?_, ?_, ?_, ?_⟩
    · rw [haudience]
      exact (Audience.ofString?_eq_some_iff _ _).mp hc.audience
    · intro actor hsome
      have hmatch := hc.actor
      rw [hsome] at hmatch
      exact (hactor actor).mp (by simpa using hmatch)
    · intro device hsome
      have hmatch := hc.device
      rw [hdevice, hsome] at hmatch
      exact hinj (by simpa using hmatch)
    · have hmatch := hc.session
      rw [hsession] at hmatch
      exact (sessionBindingMatches_iff _ _).mp hmatch
    · intro capability hmem
      exact (hcapable capability).mp
        ((missingCapabilities_eq_nil_iff _ _).mp hc.capable capability hmem)
    · intro d held hheld
      exact (validateGrantScope_iff_inside hagree).mp hc.scope d held (by rw [hscope d, hheld])
  · intro hm
    refine ⟨?_, ?_, ?_, ?_, ?_, ?_, ?_⟩
    · rw [Audience.ofString?_eq_some_iff, hm.audience, haudience]
    · rw [Option.any_eq_false]
      intro actor hsome
      simpa using (hactor actor).mpr (hm.actor actor hsome)
    · rw [hdevice, Option.any_eq_false]
      intro idHash hidHash
      obtain ⟨device, hsome, rfl⟩ := Option.map_eq_some_iff.mp hidHash
      simp [hm.device device hsome]
    · rw [hsession]
      exact (sessionBindingMatches_iff _ _).mpr hm.session
    · apply unknownCapability_eq_none
      intro capability hmem
      obtain ⟨bit, _, rfl⟩ := (hcapable capability).mpr (hm.capable capability hmem)
      exact bit.property
    · rw [missingCapabilities_eq_nil_iff]
      intro capability hmem
      exact (hcapable capability).mpr (hm.capable capability hmem)
    · rw [validateGrantScope_iff_inside hagree]
      intro d held hheld
      exact hm.inside d held (by rw [← hscope d, hheld])

/-! ## Runs -/

inductive Event
  | requested (grantId : String) (input : RequestInput) (terms : Terms)
  | approved (grantId handle : String) (evidence : Option HighRiskApprovalRef)
  | revoked (grantId : String)
  | accepted (grantId : String) (consumed : Bool)

def Event.grantId : Event → String
  | .requested id _ _ => id
  | .approved id _ _ => id
  | .revoked id => id
  | .accepted id _ => id

structure World where
  registry : Registry
  events : List Event

/-- Before the first call. -/
def World.empty (maxTtlMs : ℤ) : World := ⟨Registry.empty maxTtlMs, []⟩

inductive Op
  | request (input : RequestInput) (now : ℤ) (uuid : RandomText)
  | approve (grantId : String) (evidence : Option HighRiskApprovalRef) (now : ℤ)
      (secret : RandomText)
  | deny (grantId : String) (now : ℤ)
  | revoke (grantId : String) (now : ℤ)
  | validate (handle : String) (input : ValidateInput) (now : ℤ)

def step (sha256Hex : String → String) (w : World) : Op → World
  | .request input now uuid =>
    match request sha256Hex w.registry input now uuid with
    | .error _ => w
    | .ok (grant, s) => ⟨s, w.events ++ [.requested grant.id input grant.toTerms]⟩
  | .approve grantId evidence now secret =>
    match approve sha256Hex w.registry grantId evidence now secret with
    | (.error _, s) => ⟨s, w.events⟩
    | (.ok handle, s) => ⟨s, w.events ++ [.approved grantId handle evidence]⟩
  | .deny grantId now => ⟨deny w.registry grantId now, w.events⟩
  | .revoke grantId now =>
    match revoke w.registry grantId now with
    | (false, s) => ⟨s, w.events⟩
    | (true, s) => ⟨s, w.events ++ [.revoked grantId]⟩
  | .validate handle input now =>
    match validate sha256Hex w.registry handle input now with
    | (.failed _ _ _, s) => ⟨s, w.events⟩
    | (.ok grant _ consumed, s) => ⟨s, w.events ++ [.accepted grant.id consumed]⟩

/-- The calls that the textual handle and the textual path test serve well: a chosen id is not
    empty and holds no dot, a path compares by its text as it does once resolved. -/
def Guard (w : World) : Op → Prop
  | .request input _ _ => ∀ id, input.id = some id → id ≠ "" ∧ '.' ∉ id.toList
  | .validate handle input _ => ∀ id secret g,
    parseLaneToken "relay-ohg-v1" handle = some (id, secret) → w.registry.get id = some g →
      PathsAgree g.scope input.scope
  | _ => True

/-! ## What a record knows of the run -/

structure History (sha256Hex : String → String) (maxTtlMs : ℤ) (events : List Event)
    (g : GrantRecord) : Prop where
  readable : g.id ≠ "" ∧ '.' ∉ g.id.toList
  requested : ∃ r, Event.requested g.id r g.toTerms ∈ events
  terms : ∀ r terms, Event.requested g.id r terms ∈ events →
    terms = g.toTerms ∧ ∃ createdAt, requestTerms sha256Hex maxTtlMs r createdAt = .ok terms
  handle : ∀ digest, g.handleHash = some digest → ∃ secret evidence,
    Event.approved g.id (grantHandle g.id secret) evidence ∈ events ∧
      digest = sha256Hex secret.val ∧ (requiresHighRiskApproval g.capabilities = true →
        (normalizeHighRiskApprovalEvidence evidence).isSome = true)
  approved : ∀ handle evidence, Event.approved g.id handle evidence ∈ events →
    ¬(g.status = .requested ∨ g.status = .denied) ∧
      ∃ secret, handle = grantHandle g.id secret ∧ g.handleHash = some (sha256Hex secret.val)
  revoked : Event.revoked g.id ∈ events ↔ g.revokedAt.isSome = true
  revokedStatus : g.status = .revoked → g.revokedAt.isSome = true
  consumed : Event.accepted g.id true ∈ events ↔ g.consumedAt.isSome = true
  consumedStatus : g.status = .consumed → g.consumedAt.isSome = true

variable {more : List Event} {evidence : Option HighRiskApprovalRef} {s : Registry}
  {f : GrantRecord → GrantRecord} {consumed : Bool} {uuid : RandomText} {bits : List String}

section History

variable {sha256Hex : String → String} {maxTtlMs : ℤ} {events : List Event} {g : GrantRecord}

theorem History.of_other (h : History sha256Hex maxTtlMs events g)
    (hmore : ∀ e ∈ more, e.grantId ≠ g.id) : History sha256Hex maxTtlMs (events ++ more) g := by
  have hmem : ∀ e : Event, e.grantId = g.id → (e ∈ events ++ more ↔ e ∈ events) := by
    intro e he
    rw [mem_append, or_iff_left]
    exact fun hin => hmore e hin he
  obtain ⟨r, hr⟩ := h.requested
  constructor
  · exact h.readable
  · exact ⟨r, (hmem _ rfl).mpr hr⟩
  · intro r terms hevent
    exact h.terms r terms ((hmem _ rfl).mp hevent)
  · intro digest hdigest
    obtain ⟨secret, evidence, hevent, hrest⟩ := h.handle digest hdigest
    exact ⟨secret, evidence, (hmem _ rfl).mpr hevent, hrest⟩
  · intro handle evidence hevent
    exact h.approved handle evidence ((hmem _ rfl).mp hevent)
  · rw [hmem _ rfl]
    exact h.revoked
  · exact h.revokedStatus
  · rw [hmem _ rfl]
    exact h.consumed
  · exact h.consumedStatus

theorem History.fresh {id : String} (hid : id ≠ "" ∧ '.' ∉ id.toList)
    (hfresh : ∀ e ∈ events, e.grantId ≠ id)
    (hterms : requestTerms sha256Hex maxTtlMs r createdAt = .ok terms) :
    History sha256Hex maxTtlMs (events ++ [.requested id r terms])
      { terms with id, status := .requested } := by
  have honly : ∀ e : Event, e.grantId = id → e ∈ events ++ [.requested id r terms] →
      e = .requested id r terms := by
    intro e he hmem
    rw [mem_append, mem_singleton] at hmem
    exact hmem.resolve_left fun hold => hfresh e hold he
  constructor
  · exact hid
  · exact ⟨r, mem_append_right _ mem_cons_self⟩
  · intro r' terms' hevent
    cases honly _ rfl hevent
    exact ⟨rfl, createdAt, hterms⟩
  · intro digest hdigest
    cases hdigest
  · intro handle evidence hevent
    cases honly _ rfl hevent
  · constructor
    · intro hevent
      cases honly _ rfl hevent
    · intro hsome
      cases hsome
  · intro hstatus
    cases hstatus
  · constructor
    · intro hevent
      cases honly _ rfl hevent
    · intro hsome
      cases hsome
  · intro hstatus
    cases hstatus

section
variable (h : History sha256Hex maxTtlMs events g)
include h

theorem History.deny (hstatus : g.status = .requested)
    (now : ℤ) : History sha256Hex maxTtlMs events (g.deny now) where
  readable := h.readable
  requested := h.requested
  terms := h.terms
  handle := h.handle
  approved := fun handle evidence hevent =>
    absurd (.inl hstatus) (h.approved handle evidence hevent).1
  revoked := h.revoked
  revokedStatus := fun hrevoked => by cases hrevoked
  consumed := h.consumed
  consumedStatus := fun hconsumed => by cases hconsumed

theorem History.expire : History sha256Hex maxTtlMs events { g with status := .expired } where
  readable := h.readable
  requested := h.requested
  terms := h.terms
  handle := h.handle
  approved := fun handle evidence hevent =>
    ⟨fun hpending => by cases hpending <;> contradiction, (h.approved handle evidence hevent).2⟩
  revoked := h.revoked
  revokedStatus := fun hrevoked => by cases hrevoked
  consumed := h.consumed
  consumedStatus := fun hconsumed => by cases hconsumed

theorem History.approve (hstatus : g.status = .requested)
    (hevidence : requiresHighRiskApproval g.capabilities = true →
      (normalizeHighRiskApprovalEvidence evidence).isSome = true) (now : ℤ) (secret : RandomText) :
    History sha256Hex maxTtlMs (events ++ [.approved g.id (grantHandle g.id secret) evidence])
      (g.approve sha256Hex now secret evidence) where
  readable := h.readable
  requested := by
    obtain ⟨r, hr⟩ := h.requested
    exact ⟨r, mem_append_left _ hr⟩
  terms := by
    intro r terms hevent
    exact h.terms r terms (by simpa using hevent)
  handle := by
    intro digest hdigest
    exact ⟨secret, evidence, by simp, (Option.some.inj hdigest).symm, hevidence⟩
  approved := by
    intro handle evidence' hevent
    rw [mem_append, mem_singleton] at hevent
    obtain hold | hnew := hevent
    · exact absurd (.inl hstatus) (h.approved _ _ hold).1
    · cases hnew
      exact ⟨fun hpending => by cases hpending <;> contradiction, secret, rfl, rfl⟩
  revoked := by
    rw [← show g.revokedAt = (g.approve sha256Hex now secret evidence).revokedAt from rfl,
      ← h.revoked]
    simp
  revokedStatus := fun hrevoked => by cases hrevoked
  consumed := by
    rw [← show g.consumedAt = (g.approve sha256Hex now secret evidence).consumedAt from rfl,
      ← h.consumed]
    simp
  consumedStatus := fun hconsumed => by cases hconsumed

theorem History.revoke (now : ℤ) :
    History sha256Hex maxTtlMs (events ++ [.revoked g.id]) (g.revoke now) where
  readable := h.readable
  requested := by
    obtain ⟨r, hr⟩ := h.requested
    exact ⟨r, mem_append_left _ hr⟩
  terms := by
    intro r terms hevent
    exact h.terms r terms (by simpa using hevent)
  handle := by
    intro digest hdigest
    obtain ⟨secret, evidence, hevent, hrest⟩ := h.handle digest hdigest
    exact ⟨secret, evidence, mem_append_left _ hevent, hrest⟩
  approved := by
    intro handle evidence hevent
    have hold : Event.approved g.id handle evidence ∈ events := by simpa using hevent
    exact ⟨fun hpending => by cases hpending <;> contradiction, (h.approved _ _ hold).2⟩
  revoked := by simp [GrantRecord.revoke]
  revokedStatus := fun _ => rfl
  consumed := by
    rw [← show g.consumedAt = (g.revoke now).consumedAt from rfl, ← h.consumed]
    simp
  consumedStatus := fun hconsumed => by cases hconsumed

theorem History.consume (now : ℤ) (actor : Option Actor) :
    History sha256Hex maxTtlMs (events ++ [.accepted g.id true]) (g.consume now actor) where
  readable := h.readable
  requested := by
    obtain ⟨r, hr⟩ := h.requested
    exact ⟨r, mem_append_left _ hr⟩
  terms := by
    intro r terms hevent
    exact h.terms r terms (by simpa using hevent)
  handle := by
    intro digest hdigest
    obtain ⟨secret, evidence, hevent, hrest⟩ := h.handle digest hdigest
    exact ⟨secret, evidence, mem_append_left _ hevent, hrest⟩
  approved := by
    intro handle evidence hevent
    have hold : Event.approved g.id handle evidence ∈ events := by simpa using hevent
    exact ⟨fun hpending => by cases hpending <;> contradiction, (h.approved _ _ hold).2⟩
  revoked := by
    rw [← show g.revokedAt = (g.consume now actor).revokedAt from rfl, ← h.revoked]
    simp
  revokedStatus := fun hrevoked => by cases hrevoked
  consumed := by simp [GrantRecord.consume]
  consumedStatus := fun _ => rfl

theorem History.look : History sha256Hex maxTtlMs (events ++ [.accepted g.id false]) g where
  readable := h.readable
  requested := by
    obtain ⟨r, hr⟩ := h.requested
    exact ⟨r, mem_append_left _ hr⟩
  terms := by
    intro r terms hevent
    exact h.terms r terms (by simpa using hevent)
  handle := by
    intro digest hdigest
    obtain ⟨secret, evidence, hevent, hrest⟩ := h.handle digest hdigest
    exact ⟨secret, evidence, mem_append_left _ hevent, hrest⟩
  approved := by
    intro handle evidence hevent
    exact h.approved handle evidence (by simpa using hevent)
  revoked := by simpa using h.revoked
  revokedStatus := h.revokedStatus
  consumed := by simpa using h.consumed
  consumedStatus := h.consumedStatus

end

end History

/-! ## The invariant of a run -/

/-- Nothing is accepted for a grant after a consuming validation of it. -/
def UsedOnce (events : List Event) : Prop :=
  events.Pairwise fun e e' => ∀ id, e = .accepted id true → ∀ consumed, e' ≠ .accepted id consumed

/-- The records and the reports of a run agree. -/
structure Inv (sha256Hex : String → String) (w : World) : Prop where
  history : ∀ id g, w.registry.get id = some g →
    History sha256Hex w.registry.maxTtlMs w.events g
  stored : ∀ e ∈ w.events, (w.registry.get e.grantId).isSome = true
  once : UsedOnce w.events

theorem inv_empty (sha256Hex : String → String) (maxTtlMs : ℤ) :
    Inv sha256Hex (World.empty maxTtlMs) where
  history := fun id g hget => by cases hget
  stored := fun e he => by cases he
  once := List.Pairwise.nil

section Step

variable {sha256Hex : String → String} {w : World} {id : String} {g : GrantRecord}

theorem id_of_get (hget : s.get id = some g) : g.id = id :=
  ((Table.find?_eq_some_iff _ _ _).mp hget).2

theorem get_modify (s : Registry) (id k : String) (f : GrantRecord → GrantRecord)
    (hf : ∀ g, (f g).id = g.id) :
    (s.modify id f hf).get k = (s.get k).map fun g => if g.id = id then f g else g := by
  rw [Registry.get, Registry.modify, Table.find?_updateWhere]
  simp [Registry.get]

theorem inv_modify (h : Inv sha256Hex w) (hget : w.registry.get id = some g)
    (hf : ∀ g, (f g).id = g.id)
    (hmore : ∀ e ∈ more, e.grantId = id)
    (hg : History sha256Hex w.registry.maxTtlMs (w.events ++ more) (f g))
    (honce : UsedOnce (w.events ++ more)) :
    Inv sha256Hex ⟨w.registry.modify id f hf, w.events ++ more⟩ where
  history := by
    intro k g' hget'
    rw [get_modify] at hget'
    obtain ⟨old, hold, rfl⟩ := Option.map_eq_some_iff.mp hget'
    by_cases hid : old.id = id
    · rw [if_pos hid]
      have hk : k = id := (id_of_get hold).symm.trans hid
      rw [hk, hget] at hold
      cases hold
      exact hg
    · rw [if_neg hid]
      apply (h.history k old hold).of_other
      intro e he heq
      exact hid (heq.symm.trans (hmore e he))
  stored := by
    intro e he
    rw [get_modify, Option.isSome_map]
    obtain hold | hnew := mem_append.mp he
    · exact h.stored e hold
    · rw [hmore e hnew, hget]
      rfl
  once := honce

theorem inv_modify_silent (h : Inv sha256Hex w) (hget : w.registry.get id = some g)
    (hf : ∀ g, (f g).id = g.id)
    (hg : History sha256Hex w.registry.maxTtlMs w.events (f g)) :
    Inv sha256Hex ⟨w.registry.modify id f hf, w.events⟩ := by
  rw [← append_nil w.events] at hg ⊢
  refine inv_modify h hget hf (fun e he => by cases he) hg ?_
  rw [append_nil]
  exact h.once

variable {events : List Event}

theorem usedOnce_report (h : UsedOnce events) {e : Event}
    (he : ∀ id consumed, e ≠ .accepted id consumed) : UsedOnce (events ++ [e]) := by
  refine pairwise_append.mpr ⟨h, pairwise_singleton _ _, ?_⟩
  intro old _ new hnew id _ consumed
  rw [mem_singleton.mp hnew]
  exact he id consumed

theorem usedOnce_accepted (h : UsedOnce events)
    (hnew : Event.accepted id true ∉ events) : UsedOnce (events ++ [.accepted id consumed]) := by
  refine pairwise_append.mpr ⟨h, pairwise_singleton _ _, ?_⟩
  rintro old hold new hmem id' rfl consumed' heq
  rw [mem_singleton.mp hmem] at heq
  cases heq
  exact hnew hold

theorem request_eq_ok {s' : Registry} {input : RequestInput} {now : ℤ}
    (h : request sha256Hex s input now uuid = .ok (g, s')) :
    ∃ terms, requestTerms sha256Hex s.maxTtlMs input now = .ok terms ∧ s.get g.id = none ∧
      g = { terms with id := input.id.getD uuid.val, status := .requested } ∧
      s' = { s with grants := s.grants.insert g } := by
  obtain ⟨terms, hterms, h⟩ := bind_eq_ok h
  obtain ⟨_, hcheck, h⟩ := bind_eq_ok h
  cases h
  refine ⟨terms, hterms, ?_, rfl, rfl⟩
  rw [Registry.checkNewId] at hcheck
  split at hcheck
  · cases hcheck
  · rename_i hnone
    simpa using hnone

theorem inv_request (h : Inv sha256Hex w) {input : RequestInput} {now : ℤ}
    (hguard : ∀ id, input.id = some id → id ≠ "" ∧ '.' ∉ id.toList)
    (hok : request sha256Hex w.registry input now uuid = .ok (g, s)) :
    Inv sha256Hex ⟨s, w.events ++ [.requested g.id input g.toTerms]⟩ := by
  obtain ⟨terms, hterms, hnew, hg, rfl⟩ := request_eq_ok hok
  have hgets : ∀ k, (w.registry.grants.insert g).find? k =
      if g.id = k then some g else w.registry.get k :=
    fun k => Table.find?_insert_of_new _ _ _ hnew
  have hfresh : ∀ e ∈ w.events, e.grantId ≠ g.id := by
    intro e he heq
    have hsome := h.stored e he
    rw [heq, hnew] at hsome
    cases hsome
  constructor
  · intro k g' hget'
    rw [Registry.get, hgets] at hget'
    split at hget'
    · cases hget'
      have hreadable : g.id ≠ "" ∧ '.' ∉ g.id.toList := by
        rw [hg]
        cases hid : input.id with
        | none => exact uuid.property
        | some id => exact hguard id hid
      rw [hg] at hfresh hreadable ⊢
      exact History.fresh hreadable hfresh hterms
    · rename_i hk
      apply (h.history k g' hget').of_other
      intro e he heq
      rw [mem_singleton.mp he] at heq
      exact hk (heq.trans (id_of_get hget'))
  · intro e he
    rw [Registry.get, hgets]
    split
    · rfl
    · rename_i hk
      rw [mem_append, mem_singleton] at he
      obtain hold | rfl := he
      · exact h.stored e hold
      · exact absurd rfl hk
  · exact usedOnce_report h.once (by intro id consumed heq; cases heq)

/-- An accepted handle is the one that was approved, and its grant could still be used. -/
theorem validate_eq_ok {handle : String} {input : ValidateInput} {now : ℤ}
    (h : (validate sha256Hex s handle input now).1 = .ok g bits consumed) :
    ∃ id secret grant, parseLaneToken "relay-ohg-v1" handle = some (id, secret) ∧
      s.get id = some grant ∧ grant.handleHash = some (sha256Hex secret) ∧
      refusal sha256Hex grant input now = none ∧ g.id = grant.id ∧
      consumed = input.consume.getD true ∧
      (validate sha256Hex s handle input now).2 =
        if consumed then s.modify id (·.consume now input.actor) fun _ => rfl else s := by
  rw [validate] at h ⊢
  split at h
  · cases h
  · rename_i id secret hparse
    split at h
    · cases h
    · rename_i grant hget
      split at h
      · cases h
      · rename_i hhash
        split at h
        · cases h
        · rename_i hrefusal
          rw [not_not] at hhash
          refine ⟨id, secret, grant, hparse, hget, hhash, hrefusal, ?_⟩
          split at h <;> cases h
          · simp_all
          · simp_all

/-- A grant is taken out of its history by the digest of its secret alone. -/
theorem approved_of_accepted (hinj : Injective sha256Hex)
    (h : History sha256Hex w.registry.maxTtlMs w.events g) {handle secret : String}
    (hparse : parseLaneToken "relay-ohg-v1" handle = some (g.id, secret))
    (hhash : g.handleHash = some (sha256Hex secret)) :
    ∃ evidence, Event.approved g.id handle evidence ∈ w.events ∧
      (requiresHighRiskApproval g.capabilities = true →
        (normalizeHighRiskApprovalEvidence evidence).isSome = true) := by
  obtain ⟨secret', evidence, hevent, hdigest, hevidence⟩ := h.handle _ hhash
  have hsecret : secret = secret'.val := hinj hdigest
  rw [eq_laneToken_of_parse hparse, hsecret]
  exact ⟨evidence, hevent, hevidence⟩

section
variable (h : Inv sha256Hex w)
include h

variable (grantId : String)

theorem inv_approve
    (evidence : Option HighRiskApprovalRef) (now : ℤ) (secret : RandomText) :
    Inv sha256Hex (step sha256Hex w (.approve grantId evidence now secret)) := by
  simp only [step, approve]
  cases hget : w.registry.get grantId with
  | none => exact h
  | some grant =>
    have hid := id_of_get hget
    by_cases hstatus : grant.status = .requested
    · have hhistory := h.history grantId grant hget
      dsimp only
      rw [if_neg (not_not.mpr hstatus)]
      by_cases hrisk : (requiresHighRiskApproval grant.capabilities &&
          (normalizeHighRiskApprovalEvidence evidence).isNone) = true
      · rw [if_pos hrisk]
        exact inv_modify_silent h hget (GrantRecord.deny_id now) (hhistory.deny hstatus now)
      · rw [if_neg hrisk]
        have hevidence : requiresHighRiskApproval grant.capabilities = true →
            (normalizeHighRiskApprovalEvidence evidence).isSome = true := by
          intro hrequired
          simpa [hrequired, Option.isSome_iff_ne_none] using hrisk
        subst hid
        apply inv_modify h hget
        · simp [Event.grantId]
        · exact hhistory.approve hstatus hevidence now secret
        · exact usedOnce_report h.once (by intro id consumed heq; cases heq)
    · dsimp only
      rw [if_pos hstatus]
      exact h

theorem inv_deny (now : ℤ) : Inv sha256Hex (step sha256Hex w (.deny grantId now)) := by
  simp only [step, deny]
  cases hget : w.registry.get grantId with
  | none => exact h
  | some grant =>
    by_cases hstatus : grant.status = .requested
    · dsimp only
      rw [if_neg (not_not.mpr hstatus)]
      have hhistory := h.history grantId grant hget
      exact inv_modify_silent h hget (GrantRecord.deny_id now) (hhistory.deny hstatus now)
    · dsimp only
      rw [if_pos hstatus]
      exact h

theorem inv_revoke (now : ℤ) : Inv sha256Hex (step sha256Hex w (.revoke grantId now)) := by
  simp only [step, revoke]
  cases hget : w.registry.get grantId with
  | none => exact h
  | some grant =>
    have hhistory := h.history grantId grant hget
    obtain rfl := id_of_get hget
    apply inv_modify h hget
    · simp [Event.grantId]
    · exact hhistory.revoke now
    · exact usedOnce_report h.once (by intro id consumed heq; cases heq)

/-- A refused handle uses up no grant. -/
theorem inv_of_failed {handle : String} {input : ValidateInput} {now : ℤ}
    {reason : FailureReason} {grantId : Option String}
    (hfailed : (validate sha256Hex w.registry handle input now).1 = .failed reason grantId bits) :
    Inv sha256Hex ⟨(validate sha256Hex w.registry handle input now).2, w.events⟩ := by
  rw [validate] at hfailed ⊢
  split
  · exact h
  · rename_i id secret hparse
    split
    · exact h
    · rename_i grant hget
      split
      · exact h
      · split
        · split
          · apply inv_modify_silent h hget
            exact (h.history id grant hget).expire
          · exact h
        · rename_i hhash _ hrefusal
          simp only [hparse, hget, hhash, hrefusal, if_false] at hfailed
          split at hfailed <;> cases hfailed

/-- A validation uses a grant up at most once. -/
theorem inv_validate (handle : String) (input : ValidateInput) (now : ℤ) :
    Inv sha256Hex (step sha256Hex w (.validate handle input now)) := by
  simp only [step]
  cases hresult : validate sha256Hex w.registry handle input now with
  | mk result s =>
    have hresult' : (validate sha256Hex w.registry handle input now).1 = result := by rw [hresult]
    have hstate : (validate sha256Hex w.registry handle input now).2 = s := by rw [hresult]
    cases result with
    | failed reason grantId bits =>
      have hinv := inv_of_failed h hresult'
      rwa [hstate] at hinv
    | ok g bits consumed =>
      obtain ⟨id, secret, grant, hparse, hget, hhash, hrefusal, hid, hconsumed, hafter⟩ :=
        validate_eq_ok hresult'
      rw [hstate] at hafter
      obtain ⟨husable, -⟩ := (refusal_eq_none_iff _ _ _ _).mp hrefusal
      have hhistory := h.history id grant hget
      obtain rfl := id_of_get hget
      have hunused : Event.accepted grant.id true ∉ w.events := by
        rw [hhistory.consumed]
        exact fun hsome => husable.unconsumed (.inl hsome)
      dsimp only
      rw [hid, hafter]
      cases consumed with
      | true =>
        apply inv_modify h hget
        · simp [Event.grantId]
        · exact hhistory.consume now input.actor
        · exact usedOnce_accepted h.once hunused
      | false =>
        rw [if_neg (by decide)]
        exact {
          history := by
            intro k g' hget'
            by_cases hk : g'.id = grant.id
            · have hkk : k = grant.id := (id_of_get hget').symm.trans hk
              rw [hkk, hget] at hget'
              cases hget'
              exact hhistory.look
            · apply (h.history k g' hget').of_other
              intro e he heq
              rw [mem_singleton.mp he] at heq
              exact hk heq.symm
          stored := by
            intro e he
            rw [mem_append, mem_singleton] at he
            obtain hold | rfl := he
            · exact h.stored e hold
            · simp [Event.grantId, hget]
          once := usedOnce_accepted h.once hunused }

end

/-- Every operation keeps the histories of the grants. -/
theorem inv_step (op : Op) (h : Inv sha256Hex w) (hguard : Guard w op) :
    Inv sha256Hex (step sha256Hex w op) := by
  cases op with
  | request input now uuid =>
    simp only [step]
    split
    · exact h
    · rename_i grant s hok
      exact inv_request h hguard hok
  | approve grantId evidence now secret => exact inv_approve h grantId evidence now secret
  | deny grantId now => exact inv_deny h grantId now
  | revoke grantId now => exact inv_revoke h grantId now
  | validate handle input now => exact inv_validate h handle input now

end Step

theorem inv_exec (sha256Hex : String → String) {maxTtlMs : ℤ} {ops : List Op}
    (hops : Guarded (step sha256Hex) Guard (World.empty maxTtlMs) ops) :
    Inv sha256Hex (exec (step sha256Hex) (World.empty maxTtlMs) ops) := by
  have hstep : ∀ w op, Inv sha256Hex w → Guard w op → Inv sha256Hex (step sha256Hex w op) :=
    fun w op h hguard => inv_step op h hguard
  exact exec_invariant_of_guarded hstep (inv_empty sha256Hex maxTtlMs) hops

/-! ## One-time use -/

/-- What stands behind an accepted validation of the grant `id`. -/
structure ApprovedUse (w : World) (handle : String) (input : ValidateInput) (now : ℤ)
    (id : String) : Prop where
  approved : ∃ r terms evidence, Event.requested id r terms ∈ w.events ∧
    Event.approved id handle evidence ∈ w.events ∧
    ((∃ capability ∈ r.capabilities, capability ∈ highRiskCapabilities) →
      ∃ e, evidence = some e ∧ e.complete = true) ∧
    now < terms.expiresAt ∧ Matches r input
  unrevoked : Event.revoked id ∉ w.events
  unconsumed : Event.accepted id true ∉ w.events

section Use

variable {sha256Hex : String → String} {w : World} {handle : String} {input : ValidateInput}
  {now : ℤ}

theorem approvedUse_of_accepted (hinj : Injective sha256Hex) (h : Inv sha256Hex w)
    (hguard : Guard w (.validate handle input now)) {g : GrantRecord}
    (hok : (validate sha256Hex w.registry handle input now).1 = .ok g bits consumed) :
    ApprovedUse w handle input now g.id := by
  obtain ⟨id, secret, grant, hparse, hget, hhash, hrefusal, hid, -, -⟩ := validate_eq_ok hok
  obtain ⟨husable, hcomplies⟩ := (refusal_eq_none_iff _ _ _ _).mp hrefusal
  have hagree := hguard id secret grant hparse hget
  have hhistory := h.history id grant hget
  obtain rfl := id_of_get hget
  rw [hid]
  obtain ⟨r, hrequested⟩ := hhistory.requested
  obtain ⟨-, createdAt, hterms⟩ := hhistory.terms r _ hrequested
  obtain ⟨evidence, happroved, hevidence⟩ := approved_of_accepted hinj hhistory hparse hhash
  have hmatches := (complies_iff_matches hinj hterms hagree).mp hcomplies
  refine ⟨⟨r, grant.toTerms, evidence, hrequested, happroved, ?_, husable.unexpired, hmatches⟩,
    ?_, ?_⟩
  · rintro ⟨capability, hmem, hrisk⟩
    obtain ⟨-, -, -, hcapable, -⟩ := requestTerms_eq_ok hterms
    obtain ⟨bit, hbit, rfl⟩ := (hcapable capability).mpr hmem
    have hrequired : requiresHighRiskApproval grant.capabilities = true :=
      any_eq_true.mpr ⟨bit, hbit, by simpa using hrisk⟩
    obtain ⟨e, he⟩ := Option.isSome_iff_exists.mp (hevidence hrequired)
    obtain ⟨he, hcomplete⟩ := Option.filter_eq_some_iff.mp he
    exact ⟨e, he, hcomplete⟩
  · rw [hhistory.revoked]
    exact fun hsome => husable.unrevoked (.inl hsome)
  · rw [hhistory.consumed]
    exact fun hsome => husable.unconsumed (.inl hsome)

theorem accepted_of_approved (hinj : Injective sha256Hex) (h : Inv sha256Hex w)
    (hguard : Guard w (.validate handle input now)) {id : String}
    (hrequested : Event.requested id r terms ∈ w.events)
    (happroved : Event.approved id handle evidence ∈ w.events)
    (hunrevoked : Event.revoked id ∉ w.events) (hunconsumed : Event.accepted id true ∉ w.events)
    (hnow : now < terms.expiresAt) (hmatches : Matches r input) :
    ∃ g bits consumed,
      (validate sha256Hex w.registry handle input now).1 = .ok g bits consumed := by
  obtain ⟨grant, hget⟩ := Option.isSome_iff_exists.mp (h.stored _ hrequested)
  have hhistory := h.history _ grant hget
  obtain rfl : grant.id = id := id_of_get hget
  obtain ⟨rfl, createdAt, hterms⟩ := hhistory.terms r terms hrequested
  obtain ⟨hdecided, secret, rfl, hhash⟩ := hhistory.approved handle evidence happroved
  have hparse : parseLaneToken "relay-ohg-v1" (grantHandle grant.id secret) =
      some (grant.id, secret.val) :=
    parseLaneToken_laneToken (by decide) hhistory.readable.2 hhistory.readable.1
      secret.property.2 secret.property.1
  have husable : Usable grant now := by
    refine ⟨hdecided, hnow, ?_, ?_⟩
    · rw [hhistory.revoked] at hunrevoked
      rintro (hsome | hstatus)
      · exact hunrevoked hsome
      · exact hunrevoked (hhistory.revokedStatus hstatus)
    · rw [hhistory.consumed] at hunconsumed
      rintro (hsome | hstatus)
      · exact hunconsumed hsome
      · exact hunconsumed (hhistory.consumedStatus hstatus)
  have hcomplies := (complies_iff_matches hinj hterms (hguard _ _ grant hparse hget)).mpr hmatches
  have hrefusal := (refusal_eq_none_iff sha256Hex grant input now).mpr ⟨husable, hcomplies⟩
  have hget' : w.registry.get grant.id = some grant := hget
  simp only [validate, hparse, hget', hhash, hrefusal, ne_eq, not_true_eq_false, if_false]
  split
  · exact ⟨_, _, _, rfl⟩
  · exact ⟨_, _, _, rfl⟩

end Use

/-- In a guarded run a grant is accepted by at most one consuming validation and never after it;
    every accepted validation was approved, in time, by no more than was asked for; and until it
    is revoked, consumed or expired, an approved handle is accepted. -/
theorem one_time_of_run {sha256Hex : String → String} (hinj : Injective sha256Hex)
    {maxTtlMs : ℤ} {ops : List Op}
    (hops : Guarded (step sha256Hex) Guard (World.empty maxTtlMs) ops) {w : World}
    (hw : w = exec (step sha256Hex) (World.empty maxTtlMs) ops) :
    UsedOnce w.events ∧
    ∀ handle input now, Guard w (.validate handle input now) →
      (∀ g bits consumed,
        (validate sha256Hex w.registry handle input now).1 = .ok g bits consumed →
          ApprovedUse w handle input now g.id) ∧
      (∀ id r terms evidence, Event.requested id r terms ∈ w.events →
        Event.approved id handle evidence ∈ w.events → Event.revoked id ∉ w.events →
        Event.accepted id true ∉ w.events → now < terms.expiresAt → Matches r input →
        ∃ g bits consumed,
          (validate sha256Hex w.registry handle input now).1 = .ok g bits consumed) := by
  have hinv : Inv sha256Hex w := by
    rw [hw]
    exact inv_exec sha256Hex hops
  refine ⟨hinv.once, fun handle input now hguard => ⟨?_, ?_⟩⟩
  · intro g bits consumed hok
    exact approvedUse_of_accepted hinj hinv hguard hok
  · intro id r terms evidence hrequested happroved hunrevoked hunconsumed hnow hmatches
    exact accepted_of_approved hinj hinv hguard hrequested happroved hunrevoked hunconsumed hnow
      hmatches

/-- A digest that is right on `00`, and injective. -/
def digestOf (text : String) : String :=
  if text = "00" then "f1534392279bddbf9d43dde8701cb5be14b82f76ec6607bf8d6ad557f60f304e"
  else "-" ++ text

theorem digestOf_injective : Injective digestOf := by
  intro s t h
  rw [digestOf, digestOf] at h
  split at h <;> split at h
  · simp_all
  · have := congrArg (fun text => text.toList.head?) h
    simp at this
  · have := congrArg (fun text => text.toList.head?) h
    simp at this
  · simpa using h

def requestOf (id : String) (scope : ScopeFields (Option (List String))) : RequestInput where
  id := some id
  actor := ⟨"cli", "a"⟩
  audience := "relay:cli-gateway:v1"
  capabilities := ["session:read"]
  scope := scope

def validationOf (scope : ValidationScope) : ValidateInput where
  audience := "relay:cli-gateway:v1"
  requiredCapabilities := ["session:read"]
  scope := scope

def nodeScope : ScopeFields (Option (List String)) :=
  ⟨some ["n1"], none, none, none, none, none, none, none⟩

def pathScope : ScopeFields (Option (List String)) :=
  ⟨none, none, none, none, none, none, some ["/srv/a"], none⟩

/-- A grant is requested and approved. -/
def approvedRun (id : String) (scope : ScopeFields (Option (List String))) : List Op :=
  [.request (requestOf id scope) 0 ⟨"11", by decide⟩, .approve id none 1 ⟨"00", by decide⟩]

def approvedWorld (id : String) (scope : ScopeFields (Option (List String))) : World :=
  exec (step digestOf) (World.empty 1800000) (approvedRun id scope)

theorem node_ne_nil : ["n1"] ≠ [] := by decide

theorem node_not_blank : ∀ v ∈ ["n1"], Text.isBlank v = false := by decide

def nodeTerms : Terms where
  actorType := .cli
  actorId := "a"
  audience := .cliGateway
  capabilities := [⟨"session:read", sessionRead_mem⟩]
  scope := ⟨⟨some ⟨["n1"], node_ne_nil, node_not_blank⟩, none, none, none, none, none, none, none⟩,
    by decide⟩
  deviceIdHash := none
  sessionBinding := none
  createdAt := 0
  expiresAt := 600000

theorem matches_on_node (id : String) :
    Matches (requestOf id nodeScope) (validationOf { nodeId := some "n1" }) where
  audience := rfl
  actor := fun actor hactor => by cases hactor
  device := fun device hdevice => by cases hdevice
  session := fun binding hbinding => by cases hbinding
  capable := fun capability hmem => hmem
  inside := by
    intro d held hheld
    cases d
    case node =>
      have hvalues : held.values = ["n1"] := by
        cases hheld
        rfl
      rw [hvalues]
      refine ⟨⟨"n1", .inl ⟨rfl, by decide⟩⟩, ?_⟩
      rintro value (⟨hvalue, -⟩ | ⟨ids, hids, -⟩)
      · cases hvalue
        exact mem_cons_self
      · cases hids
    all_goals cases hheld

/-- The handle of an approved grant is accepted by a validation for its node. -/
theorem accepted_on_node :
    UsedOnce (approvedWorld "g1" nodeScope).events ∧
    ∃ g bits consumed, (validate digestOf (approvedWorld "g1" nodeScope).registry
      "relay-ohg-v1.g1.00" (validationOf { nodeId := some "n1" }) 2).1 = .ok g bits consumed := by
  have hguarded : Guarded (step digestOf) Guard (World.empty 1800000)
    (approvedRun "g1" nodeScope) :=
    ⟨fun id hid => by cases hid; decide, trivial, trivial⟩
  have hguard : Guard (approvedWorld "g1" nodeScope)
      (.validate "relay-ohg-v1.g1.00" (validationOf { nodeId := some "n1" }) 2) :=
    fun _ _ _ _ _ _ _ _ _ hpath => by cases hpath
  obtain ⟨honce, huse⟩ := one_time_of_run digestOf_injective hguarded rfl
  refine ⟨honce, (huse _ _ _ hguard).2 "g1" (requestOf "g1" nodeScope) nodeTerms none ?_ ?_ ?_ ?_
    (by decide) ?_⟩
  · exact mem_cons_self
  · exact mem_cons_of_mem _ mem_cons_self
  · exact fun hrevoked => by cases hrevoked with | tail _ h => cases h with | tail _ h => cases h
  · exact fun haccepted => by cases haccepted with | tail _ h => cases h with | tail _ h => cases h
  · exact matches_on_node "g1"

/-- An approved handle whose grant id holds a dot is refused, and a path that climbs out of its
    prefix is accepted. -/
theorem dotted_id_refused_and_climb_accepted :
    (Event.requested "a.b" (requestOf "a.b" nodeScope) nodeTerms ∈
        (approvedWorld "a.b" nodeScope).events ∧
      Event.approved "a.b" "relay-ohg-v1.a.b.00" none ∈ (approvedWorld "a.b" nodeScope).events ∧
      (approvedWorld "a.b" nodeScope).events.length = 2 ∧ 2 < nodeTerms.expiresAt ∧
      Matches (requestOf "a.b" nodeScope) (validationOf { nodeId := some "n1" }) ∧
      ∀ g bits consumed, (validate digestOf (approvedWorld "a.b" nodeScope).registry
        "relay-ohg-v1.a.b.00" (validationOf { nodeId := some "n1" }) 2).1 ≠
          .ok g bits consumed) ∧
    (∃ g bits consumed, (validate digestOf (approvedWorld "g1" pathScope).registry
        "relay-ohg-v1.g1.00" (validationOf { path := some "/srv/a/../../etc" }) 2).1 =
          .ok g bits consumed ∧
      ¬ApprovedUse (approvedWorld "g1" pathScope) "relay-ohg-v1.g1.00"
        (validationOf { path := some "/srv/a/../../etc" }) 2 g.id) := by
  refine ⟨⟨mem_cons_self, mem_cons_of_mem _ mem_cons_self, rfl, by decide,
    matches_on_node "a.b", fun g bits consumed hok => ?_⟩, ⟨_, _, _, rfl, fun huse => ?_⟩⟩
  · cases hok
  · obtain ⟨r, terms, evidence, hrequested, -, -, -, hmatches⟩ := huse.approved
    have hr : r = requestOf "g1" pathScope := by
      cases hrequested with
      | head => rfl
      | tail _ h => cases h with | tail _ h => cases h
    subst hr
    obtain ⟨-, hinside⟩ := hmatches.inside .path ⟨["/srv/a"], by decide, by decide⟩ rfl
    obtain ⟨stem, hstem, hwithin⟩ := hinside "/srv/a/../../etc" (.inl ⟨rfl, by decide⟩)
    rw [mem_singleton] at hstem
    subst hstem
    exact absurd hwithin (by decide)

end RelayIde.Security.HandshakeGrant
