import RelayIde.Profiles.Invariants
import RelayIde.Security.ActorCredential

/-!
# Credentials of Agent Profiles

`createAgentProfileCredentialService` of `server/agent-profile-credentials.ts`: every profile
credential has a row in the store and a record in the registry that authenticates requests, and
a restart fills a fresh registry from the rows.

- `Admissible` — what the clock and the random values promise
-/

namespace RelayIde.Profiles.Credentials

open RelayIde.Library RelayIde.Security RelayIde.Security.ActorCredential

/-! ## Dates -/

structure IsoDates where
  toISOString : ℤ → String
  parse : String → Option ℤ
  /-- The instants of the years with four digits. -/
  FourDigit : ℤ → Prop
  toISOString_ne : ∀ t, toISOString t ≠ ""
  trim_toISOString : ∀ t, Text.trim (toISOString t) = toISOString t
  parse_toISOString : ∀ t, FourDigit t → parse (toISOString t) = some t
  lt_iff : ∀ s t, FourDigit s → FourDigit t → (toISOString s < toISOString t ↔ s < t)

/-! ## Rows that outlive the process -/

def listRestorableCredentials (s : Store) (now : String) : List AgentProfileCredentialRow :=
  s.credentials.rows.filter fun row => decide (now < row.expiresAt)

def pruneExpiredCredentials (s : Store) (now : String) : Store :=
  { s with credentials := s.credentials.remove fun row => decide (row.expiresAt ≤ now) }

/-! ## The service -/

def agentProfileCredentialScope : ScopeFields (Option (List String)) where
  nodeIds := none
  sessionIds := none
  globalSessionIds := none
  workContextIds := none
  channelIds := none
  repoIds := none
  pathPrefixes := none
  taskRefs := some ["relay:cli-gateway:v1:read"]

def agentProfileCredentialCapabilities : List String :=
  ["session:read", "context:read", "context:write"]

/-- `AgentProfileCredentialMintInput`. -/
structure MintInput where
  profileId : String
  displayName : Option String := none
  issuerId : String
  ttlMs : Option ℤ := none

inductive ServiceError
  /-- What the registry refuses. -/
  | registry (error : RegistryError)
  /-- What the store refuses. -/
  | store (thrown : Thrown)
  /-- A call of the store that fails on its own, having written nothing. -/
  | storeFailed
  | mintFailed
  | notFound

/-- The two views, with a record of what happened: the time, the secrets drawn so far, and the
    profiles whose deletion was not followed into this registry. -/
structure World where
  store : Store
  registry : Registry
  clock : ℤ
  drawn : List String
  unswept : List String

section Service

variable (dates : IsoDates) (sha256Hex : String → String)

/-- The lifetime of a new credential, under the ceiling of the hub. -/
def requestedTtl (ttlMs : Option ℤ) (ceiling : ℤ) : ℤ :=
  match ttlMs with
  | some ttlMs => if 0 < ttlMs then min ttlMs ceiling else ceiling
  | none => ceiling

/-- `issueAgentProfileCliGatewayActorCredential`. -/
def issueInput (input : MintInput) (ceiling : ℤ) : IssueInput where
  actorType := "agent"
  actorId := input.profileId
  audience := "relay:cli-gateway:v1"
  capabilities := agentProfileCredentialCapabilities
  scope := agentProfileCredentialScope
  ttlMs := some (requestedTtl input.ttlMs ceiling)

/-- `revokeInRegistry`, for each of a list of rows. -/
def revokeRows (registry : Registry) (rows : List AgentProfileCredentialRow)
    (revokedBy : AgentProfileCredentialRow → String) (now : ℤ) : Registry :=
  rows.foldl (fun registry row => (ActorCredential.revoke registry row.credentialId (revokedBy row)
    now).2) registry

/-- The row of a credential that was just issued. -/
def writeInput (input : MintInput) (credential : CredentialRecord) (secretHash : String) :
    AgentProfileCredentialWriteInput where
  credentialId := credential.id
  profileId := input.profileId
  actorId := credential.actorId
  displayName := truthy input.displayName
  issuerId := input.issuerId
  secretHash
  capabilities := credential.capabilities.map (·.val)
  issuedAt := dates.toISOString credential.issuedAt
  expiresAt := dates.toISOString credential.expiresAt

/-- A call of the store, which may throw instead of doing its work. -/
def attempt {α : Type} (works : Bool) (s : Store) (r : Except Thrown α × Store) :
    Except ServiceError α × Store :=
  if works then (r.1.mapError .store, r.2) else (.error .storeFailed, s)

/-- `mint`, behind the issue in the registry. -/
def persist (w : World) (input : MintInput) (now : ℤ) (works : Bool) (registry : Registry)
    (credential : CredentialRecord) (token : String) :
    Except ServiceError (AgentProfileCredentialRow × String) × World :=
  -- a credential that is not stored is revoked on the spot
  let dropped : World := { w with
    registry := (ActorCredential.revoke registry credential.id input.issuerId now).2 }
  match parseLaneToken "relay-sac-v1" token with
  | none => (.error .mintFailed, dropped)
  | some (_, secret) =>
    match attempt works w.store (recordCredential (dates.toISOString now) w.store
        (writeInput dates input credential (sha256Hex secret))) with
    | (.error e, store) => (.error e, { dropped with store })
    | (.ok (stored, revoked), store) =>
      (.ok (stored, token), { w with
        store
        registry := revokeRows registry revoked (fun _ => input.issuerId) now })

def mint (w : World) (input : MintInput) (ceiling now : ℤ) (uuid secret : String) (works : Bool) :
    Except ServiceError (AgentProfileCredentialRow × String) × World :=
  match issue sha256Hex w.registry (issueInput input ceiling) now uuid secret with
  | .error e => (.error (.registry e), w)
  | .ok (token, registry) =>
    match registry.get uuid with
    | none => (.error .mintFailed, w)
    | some credential =>
      persist dates sha256Hex w input now works registry credential.toCredentialRecord token

def revoke (w : World) (profileId revokedBy : String) (now : ℤ) (works : Bool) :
    Except ServiceError AgentProfileCredentialRow × World :=
  if works then
    let (store, revoked) :=
      w.store.revokeLiveCredentials profileId revokedBy (dates.toISOString now)
    match revoked with
    | [] => (.error .notFound, { w with store })
    | first :: _ => (.ok first, { w with
        store
        registry := revokeRows w.registry revoked (fun _ => revokedBy) now })
  else (.error .storeFailed, w)

/-- `revokeForDeletedProfile`: the rows of the profile that have not expired are revoked in the
    registry, unless listing them throws. -/
def revokeForDeletedProfile (w : World) (profileId : String) (now : ℤ) (lists : Bool) : World :=
  if lists then
    { w with
      registry := revokeRows w.registry
        ((listRestorableCredentials w.store (dates.toISOString now)).filter
          fun row => decide (row.profileId = profileId))
        (fun row => row.revokedBy.getD "agent-profile-deleted") now
      unswept := w.unswept.filter (· ≠ profileId) }
  else { w with unswept := profileId :: w.unswept }

/-- A deletion in the store, and what follows one that went through. -/
def deleteProfile (w : World) (profileId : String) (now listedAt : ℤ) (works lists : Bool) :
    Except ServiceError Bool × World :=
  match attempt works w.store (delete (dates.toISOString now) w.store profileId) with
  | (.error e, store) => (.error e, { w with store })
  | (.ok removed, store) =>
    (.ok removed, revokeForDeletedProfile dates { w with store } profileId listedAt lists)

def dateInput (text : String) : DateInput :=
  match dates.parse text with
  | some ms => .time ms
  | none => .invalid

/-- What `rehydrate` imports of a row. -/
def restoreInput (row : AgentProfileCredentialRow) : ImportInput where
  id := row.credentialId
  actorType := "agent"
  actorId := row.actorId
  grantId := none
  audience := "relay:cli-gateway:v1"
  capabilities := row.capabilities
  scope := agentProfileCredentialScope
  issuedAt := dateInput dates row.issuedAt
  expiresAt := dateInput dates row.expiresAt
  revokedAt := match truthy row.revokedAt with
    | some revokedAt => dateInput dates revokedAt
    | none => .absent
  revokedBy := row.revokedBy
  secretHash := row.secretHash

/-- One row of `rehydrate`: skipped where the registry has its credential, or cannot import it. -/
def restoreRow (registry : Registry) (row : AgentProfileCredentialRow) : Registry :=
  if (registry.get row.credentialId).isSome then registry
  else
    match importCredential registry (restoreInput dates row) with
    | .ok registry => registry
    | .error _ => registry

/-- A fresh registry filled by `rehydrate`; pruning may fail by itself, and a listing that throws
    leaves the registry empty. -/
def restart (w : World) (maxTtlMs now : ℤ) (prunes lists : Bool) : World :=
  let store := if prunes then pruneExpiredCredentials w.store (dates.toISOString now) else w.store
  { w with
    store
    registry := if lists then
        (listRestorableCredentials store (dates.toISOString now)).foldl (restoreRow dates)
          (.empty maxTtlMs)
      else .empty maxTtlMs
    unswept := [] }

end Service

/-! ## Runs -/

inductive Op
  | mint (input : MintInput) (ceiling now : ℤ) (uuid secret : String) (works : Bool)
  | revoke (profileId revokedBy : String) (now : ℤ) (works : Bool)
  | deleteProfile (profileId : String) (now listedAt : ℤ) (works lists : Bool)
  | restart (maxTtlMs now : ℤ) (prunes lists : Bool)

def Op.time : Op → ℤ
  | .mint _ _ now _ _ _ | .revoke _ _ now _ | .restart _ now _ _ => now
  | .deleteProfile _ _ listedAt _ _ => listedAt

def Op.draw? : Op → Option (String × String)
  | .mint _ _ _ uuid secret _ => some (uuid, secret)
  | _ => none

section Runs

variable (dates : IsoDates) (sha256Hex : String → String)

/-- A call, and whether it reports success. -/
def perform (w : World) : Op → Bool × World
  | .mint input ceiling now uuid secret works =>
    let r := mint dates sha256Hex w input ceiling now uuid secret works
    (r.1.isOk, r.2)
  | .revoke profileId revokedBy now works =>
    let r := revoke dates w profileId revokedBy now works
    (r.1.isOk, r.2)
  | .deleteProfile profileId now listedAt works lists =>
    let r := deleteProfile dates w profileId now listedAt works lists
    (r.1.isOk, r.2)
  | .restart maxTtlMs now prunes lists => (true, restart dates w maxTtlMs now prunes lists)

def step (w : World) (op : Op) : World :=
  { (perform dates sha256Hex w op).2 with
    clock := op.time
    drawn := (op.draw?.map (·.2)).toList ++ w.drawn }

/-- The clock does not run backwards and stays, with the expiries, in the years with four digits; a
    drawn id is trimmed, and a drawn secret has a digest of its own. -/
def Admissible (w : World) (op : Op) : Prop :=
  w.clock ≤ op.time ∧ dates.FourDigit op.time ∧
    match op with
    | .mint input ceiling now uuid secret _ =>
      dates.FourDigit (now + requestedTtl input.ttlMs ceiling) ∧ Text.trim uuid = uuid ∧
        ∀ known ∈ w.drawn, sha256Hex secret ≠ sha256Hex known
    | .deleteProfile _ now listedAt _ _ =>
      w.clock ≤ now ∧ now ≤ listedAt ∧ dates.FourDigit now
    | _ => True

end Runs

end RelayIde.Profiles.Credentials
