import Mathlib.Algebra.Order.Ring.Rat
import RelayIde.Library.Text
import RelayIde.Security.NodeAcl

/-!
# Node Records

A paired node as the hub stores it, with the calls that act on one record: the rotation of its
credential, heartbeats, revocation and the update marks of `server/hub-node-registry.ts`.

- `beginCredentialRotation`, `proveCredentialRotation`, … — the life of a credential

Times are milliseconds.  Both timestamps of a call are one time.
-/

namespace RelayIde.Nodes

open RelayIde.Library RelayIde.Security

/-! ## Platform -/

def isBase64Url (c : Char) : Bool :=
  c.isAlphanum || c = '-' || c = '_'

/-- The text of `crypto.randomBytes(24).toString('base64url')`. -/
abbrev RandomText := {text : String // text ≠ "" ∧ ∀ c ∈ text.toList, isBase64Url c = true}

def randomToken (kind : String) (random : RandomText) : String :=
  kind ++ "_" ++ random.val

/-- The properties of a proof segment that are read: its strings, and the number `iat`. -/
structure ProofSegment where
  typ : Option String := none
  alg : Option String := none
  fpr : Option String := none
  nodeId : Option String := none
  credentialId : Option String := none
  aud : Option String := none
  jti : Option String := none
  iat : Option ℚ := none

structure Crypto where
  sha256 : String → String
  /-- The digest of the canonical public key, absent where the text is no ed25519 key. -/
  keyDigest : String → Option String
  /-- Base64url and JSON of an object. -/
  parseProofSegment : String → Option ProofSegment
  /-- Whether the third text is a signature of the second under the public key. -/
  verify : String → String → String → Bool

variable (c : Crypto)

/-- `nodePublicKeyFingerprint`, absent where the source throws. -/
def nodePublicKeyFingerprint (publicKeyPem : String) : Option String :=
  (c.keyDigest publicKeyPem).map ("nkey_" ++ ·)

def safeNodePublicKeyFingerprint (publicKeyPem : Option String) : Option String :=
  match publicKeyPem with
  | none => none
  | some pem => if pem = "" then none else nodePublicKeyFingerprint c pem

structure BoundKey where
  publicKey : String
  publicKeyFingerprint : String
deriving DecidableEq

def boundKey (publicKey : Option String) : Option BoundKey :=
  match publicKey, safeNodePublicKeyFingerprint c publicKey with
  | some key, some fingerprint => some ⟨key, fingerprint⟩
  | _, _ => none

inductive RelayNodeErrorCode
  | unauthorized | tokenAlreadyUsed | tokenExpired | versionSkew | protocolIncompatible
  | notFound | nodeRevoked | rotationInProgress | invalidRequest | nodeBusy | internal
  | credentialMissing | credentialMalformed | credentialMismatch | credentialExpired
  | repairRequired | proofRequired | proofInvalid | forbidden
deriving DecidableEq

/-- `HubNodeRegistryError`, and the error of a refused authentication. -/
structure RelayNodeError where
  code : RelayNodeErrorCode
  message : String
  retryable : Bool := false
  reasonCode : Option String := none

def relayNodeLinkProtocolVersion : String := "1.0"

/-- `assertCompatibleProtocol`: the error it throws. -/
def assertCompatibleProtocol (protocolVersion : String) : Option RelayNodeError :=
  if protocolVersion = relayNodeLinkProtocolVersion then none
  else some
    { code :=
        if Text.firstSegment '.' protocolVersion =
          Text.firstSegment '.' relayNodeLinkProtocolVersion
        then .versionSkew else .protocolIncompatible
      message := "relay-node-link protocol " ++ protocolVersion ++
        " must exactly match hub protocol " ++ relayNodeLinkProtocolVersion }

/-! ## Records -/

inductive RotationState
  | issuing | delivered | proved | stable | failed
deriving DecidableEq

structure StoredCredentialRotation where
  rotationId : String
  previousCredentialId : String
  nextCredentialId : String
  nextCredentialHash : Option String
  nextKey : Option BoundKey
  state : RotationState
  issuedAt : ℤ
  deliveredAt : Option ℤ := none
  provedAt : Option ℤ := none
  stableAt : Option ℤ := none
  failedAt : Option ℤ := none
  failureReason : Option String := none

structure StoredActiveCredential where
  credentialId : String
  tokenHash : String
  issuedAt : ℤ
  expiresAt : Option ℤ := none
  revokedAt : Option ℤ := none
  key : Option BoundKey

/-- A paired node.  The constructor of the registry fills in `activeCredential` and `acl` of
    older records, so both are always there. -/
structure StoredNodeRecord where
  nodeId : String
  displayName : String
  activeCredential : StoredActiveCredential
  credentialId : String
  credentialHash : String
  credentialIssuedAt : ℤ
  protocolVersion : String
  acl : RelayNodeAcl
  credentialRotation : Option StoredCredentialRotation := none
  pairedAt : ℤ
  lastSeenAt : ℤ
  linkDisconnectedAt : Option ℤ := none
  revokedAt : Option ℤ := none
  updatingAt : Option ℤ := none

def ensureNodeAcl (node : StoredNodeRecord) : RelayNodeAcl :=
  normalizeNodeAcl node.acl node.nodeId node.credentialId node.displayName

inductive CredentialState
  | revoked | rotationFailed | rotating | active

def credentialState (node : StoredNodeRecord) : CredentialState :=
  if node.revokedAt.isSome then .revoked
  else match node.credentialRotation with
    | none => .active
    | some rotation =>
      if rotation.state = .failed then .rotationFailed
      else if rotation.state = .stable then .active else .rotating

/-- `HubNodeSummary`: the identity, credential and policy of a node. -/
structure HubNodeSummary where
  nodeId : String
  displayName : String
  credentialId : String
  credentialState : CredentialState
  publicKeyFingerprint : Option String
  trustTier : RelayTrustTier
  grants : RelayAclGrant

def publicNode (node : StoredNodeRecord) : HubNodeSummary where
  nodeId := node.nodeId
  displayName := node.displayName
  credentialId := node.activeCredential.credentialId
  credentialState := credentialState node
  publicKeyFingerprint := node.activeCredential.key.map (·.publicKeyFingerprint)
  trustTier := (applyTrustTierOverlay (ensureNodeAcl node)).trustTier
  grants := (applyTrustTierOverlay (ensureNodeAcl node)).grants

/-- `RelayNodeCredential`: what a node is handed once. -/
structure RelayNodeCredential where
  nodeId : String
  credentialId : String
  token : String
  issuedAt : ℤ
  publicKeyFingerprint : Option String
deriving DecidableEq

structure CredentialDraw where
  id : RandomText
  secret : RandomText

/-- `credentialToken`: the token, of the form `nodeId.secret`. -/
def credentialToken (nodeId : String) (draw : CredentialDraw) : String :=
  nodeId ++ "." ++ randomToken "secret" draw.secret

def CredentialDraw.credentialId (draw : CredentialDraw) : String :=
  randomToken "cred" draw.id

/-! ## Calls -/

/-- What a call did about the registry file. -/
inductive Save
  | unsaved | debounced | written
deriving DecidableEq

/-- What a call leaves behind. -/
structure Outcome (σ α : Type) where
  state : σ
  save : Save
  result : Except RelayNodeError α

namespace Outcome

variable {σ α : Type}

/-- The call throws. -/
def refuse (s : σ) (e : RelayNodeError) : Outcome σ α := ⟨s, .unsaved, .error e⟩

/-- The call answers and saves nothing. -/
def answer (s : σ) (a : α) : Outcome σ α := ⟨s, .unsaved, .ok a⟩

/-- The call answers after `persist`. -/
def persist (s : σ) (a : α) : Outcome σ α := ⟨s, .written, .ok a⟩

/-- The same call with its answer seen through `f`. -/
def map {β : Type} (f : α → β) (o : Outcome σ α) : Outcome σ β :=
  ⟨o.state, o.save, o.result.map f⟩

end Outcome

def notPaired : RelayNodeError := { code := .notFound, message := "node is not paired" }

def nodeWasRevoked : RelayNodeError := { code := .nodeRevoked, message := "node was revoked" }

/-- A rotation that a node can still prove. -/
def provableRotation (node : StoredNodeRecord) : Option StoredCredentialRotation :=
  match node.credentialRotation with
  | none => none
  | some rotation =>
    if rotation.state = .stable ∨ rotation.nextCredentialHash = none then none else some rotation

def updateAclCredential (node : StoredNodeRecord) (credentialId : String) (now : ℤ) :
    StoredNodeRecord :=
  { node with
    acl :=
      { ensureNodeAcl node with
        peer := { (ensureNodeAcl node).peer with credentialId := some credentialId }
        updatedAt := now } }

/-- The error of `assertNoActiveRotation`. -/
def assertNoActiveRotation (node : StoredNodeRecord) : Option RelayNodeError :=
  match node.credentialRotation with
  | none => none
  | some rotation =>
    if rotation.state = .stable then none
    else some
      { code := .rotationInProgress, message := "credential rotation is already in progress"
        retryable := true, reasonCode := some "ROTATION_IN_PROGRESS" }

structure RotationDraw where
  credential : CredentialDraw
  rotation : RandomText

def nextRotation (node : StoredNodeRecord) (publicKey : Option String) (now : ℤ)
    (draw : RotationDraw) : StoredCredentialRotation where
  rotationId := randomToken "rot" draw.rotation
  previousCredentialId := node.credentialId
  nextCredentialId := draw.credential.credentialId
  nextCredentialHash := some (c.sha256 (credentialToken node.nodeId draw.credential))
  nextKey := (boundKey c publicKey).orElse fun _ => node.activeCredential.key
  state := .issuing
  issuedAt := now

def beginCredentialRotation (node : StoredNodeRecord) (publicKey : Option String) (now : ℤ)
    (draw : RotationDraw) : Outcome StoredNodeRecord (RelayNodeCredential × String) :=
  if node.revokedAt.isSome then .refuse node nodeWasRevoked
  else match assertNoActiveRotation node with
    | some e => .refuse node e
    | none =>
      let rotation := nextRotation c node publicKey now draw
      .persist { node with credentialRotation := some rotation }
        ({ nodeId := node.nodeId
           credentialId := rotation.nextCredentialId
           token := credentialToken node.nodeId draw.credential
           issuedAt := now
           publicKeyFingerprint := rotation.nextKey.map (·.publicKeyFingerprint) },
          rotation.rotationId)

/-- `requireRotationNode`: the rotation of that id, or the error. -/
def requireRotation (node : StoredNodeRecord) (rotationId : String) :
    Except RelayNodeError StoredCredentialRotation :=
  match node.credentialRotation with
  | some rotation =>
    if rotation.rotationId = rotationId then .ok rotation
    else .error { code := .notFound, message := "credential rotation was not found" }
  | none => .error { code := .notFound, message := "credential rotation was not found" }

def markCredentialRotationDelivered (node : StoredNodeRecord) (rotationId : String) (now : ℤ) :
    Outcome StoredNodeRecord HubNodeSummary :=
  match requireRotation node rotationId with
  | .error e => .refuse node e
  | .ok rotation =>
    if rotation.state = .issuing then
      let next :=
        { node with
          credentialRotation :=
            some { rotation with state := .delivered, deliveredAt := some now } }
      .persist next (publicNode next)
    else .answer node (publicNode node)

def failCredentialRotation (node : StoredNodeRecord) (rotationId reason : String) (now : ℤ) :
    Outcome StoredNodeRecord HubNodeSummary :=
  match requireRotation node rotationId with
  | .error e => .refuse node e
  | .ok rotation =>
    if rotation.state = .stable then .answer node (publicNode node)
    else
      let next :=
        { node with
          credentialRotation :=
            some { rotation with
              state := .failed, failedAt := some now, failureReason := some reason } }
      .persist next (publicNode next)

def nothingToClear : RelayNodeError :=
  { code := .invalidRequest
    message := "node has no failed or in-progress credential rotation to clear" }

def clearCredentialRotationFailure (node : StoredNodeRecord) :
    Outcome StoredNodeRecord HubNodeSummary :=
  match node.credentialRotation with
  | none => .refuse node nothingToClear
  | some rotation =>
    if rotation.state = .stable then .refuse node nothingToClear
    else
      let next := { node with credentialRotation := none }
      .persist next (publicNode next)

/-- The credential of a provable rotation comes into force. -/
def switchCredential (node : StoredNodeRecord) (rotation : StoredCredentialRotation)
    (nextCredentialHash : String) (now : ℤ) : StoredNodeRecord :=
  let switched :=
    updateAclCredential
      { node with
        credentialId := rotation.nextCredentialId
        credentialHash := nextCredentialHash
        credentialIssuedAt := now }
      rotation.nextCredentialId now
  { switched with
    activeCredential :=
      { credentialId := rotation.nextCredentialId
        tokenHash := nextCredentialHash
        issuedAt := now
        key := rotation.nextKey }
    credentialRotation :=
      some { rotation with
        nextCredentialHash := none, nextKey := none
        state := .stable, provedAt := some now, stableAt := some now } }

def proveCredentialRotation (node : StoredNodeRecord) (credentialId : String) (now : ℤ) :
    StoredNodeRecord :=
  match provableRotation node with
  | none => node
  | some rotation =>
    if rotation.nextCredentialId = credentialId then
      match rotation.nextCredentialHash with
      | none => node
      | some nextCredentialHash => switchCredential node rotation nextCredentialHash now
    else node

/-- The credential id of a heartbeat, where it is not empty. -/
def provenNode (node : StoredNodeRecord) (credentialId : Option String) (now : ℤ) :
    StoredNodeRecord :=
  match truthy credentialId with
  | none => node
  | some credentialId => proveCredentialRotation node credentialId now

def provedRotation (node : StoredNodeRecord) (credentialId : Option String) : Option String :=
  ((provableRotation node).filter fun rotation =>
    truthy credentialId = some rotation.nextCredentialId).map (·.rotationId)

/-- The answer comes with the rotation the audit trail reports as proved. -/
def recordHeartbeat (node : StoredNodeRecord) (protocolVersion : String)
    (credentialId : Option String) (now : ℤ) :
    Outcome StoredNodeRecord (HubNodeSummary × Option String) :=
  if node.revokedAt.isSome then .refuse node nodeWasRevoked
  else
    let next :=
      { provenNode node credentialId now with
        lastSeenAt := now, linkDisconnectedAt := none, protocolVersion }
    ⟨next, .debounced, .ok (publicNode next, provedRotation node credentialId)⟩

def markNodeLinkDisconnected (node : StoredNodeRecord) (now : ℤ) :
    Outcome StoredNodeRecord HubNodeSummary :=
  if node.revokedAt.isSome then .answer node (publicNode node)
  else
    let next := { node with linkDisconnectedAt := some now }
    .persist next (publicNode next)

def revokeNode (node : StoredNodeRecord) (now : ℤ) : Outcome StoredNodeRecord HubNodeSummary :=
  if node.revokedAt.isSome then .answer node (publicNode node)
  else
    let next :=
      { node with
        revokedAt := some now
        activeCredential := { node.activeCredential with revokedAt := some now } }
    .persist next (publicNode next)

def markNodeUpdating (node : StoredNodeRecord) (now : ℤ) :
    Outcome StoredNodeRecord HubNodeSummary :=
  if node.revokedAt.isSome then .refuse node nodeWasRevoked
  else if node.updatingAt.isSome then .answer node (publicNode node)
  else
    let next := { node with updatingAt := some now }
    .persist next (publicNode next)

def markNodeUpdateComplete (node : StoredNodeRecord) :
    Outcome StoredNodeRecord HubNodeSummary :=
  if node.revokedAt.isSome then .refuse node nodeWasRevoked
  else if node.updatingAt.isSome then
    let next := { node with updatingAt := none }
    .persist next (publicNode next)
  else .answer node (publicNode node)

end RelayIde.Nodes
