import RelayIde.Library.FirstMatch
import RelayIde.Library.Machine
import RelayIde.Nodes.Record

/-!
# The Hub Node Registry

`server/hub-node-registry.ts`: pair tokens, pairing requests, node records and the credentials
nodes present, over one registry file that every call but a heartbeat writes at once.

- `World`, `step` — a run of calls with their answers
-/

namespace RelayIde.Nodes

open RelayIde.Library RelayIde.Security List

/-! ## The registry file -/

structure StoredPairToken where
  tokenId : String
  tokenHash : String
  displayName : Option String
  platform : Option String
  trustTier : Option RelayTrustTier
  allowedCapabilities : Option (List RelayCapabilityBit)
  requiresConfirmationCapabilities : Option (List RelayCapabilityBit)
  createdAt : ℤ
  expiresAt : ℤ
  usedAt : Option ℤ := none

/-- `NodePairingRequestState`. -/
inductive PairingState
  | pending | approved | denied | expired
deriving DecidableEq

def PairingState.text : PairingState → String
  | .pending => "pending"
  | .approved => "approved"
  | .denied => "denied"
  | .expired => "expired"

inductive NodePairingTrustProfile
  | devWorkstation | sandboxRunner | automationRunner | infraProdHost
deriving DecidableEq

def nodePairingProfileTrustTier : NodePairingTrustProfile → RelayTrustTier
  | .devWorkstation => .dev
  | .sandboxRunner => .sandbox
  | .automationRunner => .sandbox
  | .infraProdHost => .prod

structure StoredPendingPairingRequest where
  requestId : String
  correlationId : String
  deviceCode : String
  statusTokenHash : String
  state : PairingState
  reasonCode : String
  key : Option BoundKey
  displayName : String
  protocolVersion : String
  requestedProfile : NodePairingTrustProfile
  requestedTrustTier : RelayTrustTier
  capabilityBits : List RelayCapabilityBit
  requestedRoots : List String
  requiresExactOperationApproval : Bool
  createdAt : ℤ
  expiresAt : ℤ
  decidedAt : Option ℤ := none
  nodeId : Option String := none
  credentialId : Option String := none
  credentialDeliveredAt : Option ℤ := none
deriving DecidableEq

structure RegistryFile where
  pairTokens : List StoredPairToken
  nodes : List StoredNodeRecord
  pendingPairings : List StoredPendingPairingRequest

def emptyRegistryFile : RegistryFile := ⟨[], [], []⟩

/-! ## Pair tokens -/

section PairTokens

variable (c : Crypto)

structure PairTokenCapabilityEnvelope where
  allowed : Option (List String) := none
  requiresConfirmation : Option (List String) := none

structure PairTokenOptions where
  displayName : Option String := none
  ttlMs : Option ℤ := none
  platform : Option String := none
  trustTier : Option RelayTrustTier := none
  capabilityEnvelope : Option PairTokenCapabilityEnvelope := none

structure PairTokenDraw where
  pairToken : RandomText
  tokenId : RandomText

structure PairTokenResponse where
  tokenId : String
  pairToken : String
  expiresAt : ℤ

def defaultPairTokenTtlMs : ℤ := 10 * 60 * 1000

/-- A list field that is left out when it is empty. -/
def storedList (bits : List RelayCapabilityBit) : Option (List RelayCapabilityBit) :=
  if bits = [] then none else some bits

/-- `normalizeCapabilityBits` of a field that may be absent. -/
def normalizeField (values : Option (List String)) : List RelayCapabilityBit :=
  normalizeCapabilityBits (values.getD [])

def storedPairToken (options : PairTokenOptions) (now : ℤ) (draw : PairTokenDraw) :
    StoredPairToken where
  tokenId := randomToken "pt" draw.tokenId
  tokenHash := c.sha256 (randomToken "pair" draw.pairToken)
  displayName := truthy options.displayName
  platform := truthy options.platform
  trustTier := options.trustTier
  allowedCapabilities :=
    storedList (normalizeField (options.capabilityEnvelope.bind (·.allowed)))
  requiresConfirmationCapabilities :=
    storedList (normalizeField (options.capabilityEnvelope.bind (·.requiresConfirmation)))
  createdAt := now
  expiresAt := now + options.ttlMs.getD defaultPairTokenTtlMs

def createPairToken (s : RegistryFile) (options : PairTokenOptions) (now : ℤ)
    (draw : PairTokenDraw) : Outcome RegistryFile PairTokenResponse :=
  let stored := storedPairToken c options now draw
  .persist { s with pairTokens := s.pairTokens ++ [stored] }
    { tokenId := stored.tokenId
      pairToken := randomToken "pair" draw.pairToken
      expiresAt := stored.expiresAt }

/-- `node:pair-token:create` is no capability of a node. -/
def isNodeBit (capability : RelayCapabilityBit) : Bool :=
  capability.val != "node:pair-token:create"

def nodeBits (stored : Option (List RelayCapabilityBit)) : List RelayCapabilityBit :=
  (normalizeCapabilityBits ((stored.getD []).map (·.val))).filter isNodeBit

def createNodeAclForPairToken (pairToken : StoredPairToken)
    (nodeId credentialId displayName : String) (createdAt : ℤ) : RelayNodeAcl :=
  let base := createLegacyDefaultNodeAcl nodeId credentialId displayName
    (pairToken.trustTier.getD .dev) createdAt
  let nodeAllowed := nodeBits pairToken.allowedCapabilities
  let nodeRequiresConfirmation := nodeBits pairToken.requiresConfirmationCapabilities
  if nodeAllowed = [] ∧ nodeRequiresConfirmation = [] then base
  else applyTrustTierOverlay
    { base with
      grants :=
        { allowed := if nodeAllowed = [] then base.grants.allowed else nodeAllowed
          requiresConfirmation := nodeRequiresConfirmation } }

/-- The manifest fields that name a node, and its key. -/
structure PairExchangeInput where
  pairToken : String
  displayName : Option String := none
  platform : String := ""
  protocolVersion : Option String := none
  publicKey : Option String := none

structure NodeDraw where
  node : RandomText
  credential : CredentialDraw

def NodeDraw.nodeId (draw : NodeDraw) : String := randomToken "node" draw.node

def NodeDraw.token (draw : NodeDraw) : String := credentialToken draw.nodeId draw.credential

/-- `nodeDisplayName`: never the host name. -/
def nodeDisplayName (displayName : Option String) (platform : String) : String :=
  match truthy (displayName.map Text.trim) with
  | some name => name
  | none => if Text.trim platform = "" then "Relay node" else Text.trim platform ++ " Relay node"

/-- A node record as both pairing lanes create it. -/
def newNode (draw : NodeDraw) (displayName protocolVersion : String) (key : Option BoundKey)
    (acl : RelayNodeAcl) (now : ℤ) : StoredNodeRecord where
  nodeId := draw.nodeId
  displayName
  activeCredential :=
    { credentialId := draw.credential.credentialId
      tokenHash := c.sha256 draw.token
      issuedAt := now
      key }
  credentialId := draw.credential.credentialId
  credentialHash := c.sha256 draw.token
  credentialIssuedAt := now
  protocolVersion
  acl
  pairedAt := now
  lastSeenAt := now

def newCredential (draw : NodeDraw) (key : Option BoundKey) (now : ℤ) : RelayNodeCredential where
  nodeId := draw.nodeId
  credentialId := draw.credential.credentialId
  token := draw.token
  issuedAt := now
  publicKeyFingerprint := key.map (·.publicKeyFingerprint)

/-- Why a stored token cannot be exchanged, if so. -/
def pairTokenRefusal (pairToken : StoredPairToken) (now : ℤ) : Option RelayNodeError :=
  if pairToken.usedAt.isSome then some
    { code := .tokenAlreadyUsed, message := "pair token has already been used"
      reasonCode := some "PAIR_TOKEN_REUSE_DENIED" }
  else if pairToken.expiresAt ≤ now then some
    { code := .tokenExpired, message := "pair token expired"
      reasonCode := some "PAIR_TOKEN_EXPIRED" }
  else none

def pairTokenNotFound : RelayNodeError :=
  { code := .unauthorized, message := "pair token was not found"
    reasonCode := some "PAIR_TOKEN_NOT_FOUND" }

def requestedProtocol (protocolVersion : Option String) : String :=
  protocolVersion.getD relayNodeLinkProtocolVersion

def redeemablePairToken (s : RegistryFile) (input : PairExchangeInput) (now : ℤ) :
    Except RelayNodeError StoredPairToken :=
  match assertCompatibleProtocol (requestedProtocol input.protocolVersion) with
  | some e => .error e
  | none =>
    match s.pairTokens.find? fun t => t.tokenHash = c.sha256 input.pairToken with
    | none => .error pairTokenNotFound
    | some pairToken =>
      match pairTokenRefusal pairToken now with
      | some e => .error e
      | none => .ok pairToken

def exchangedNode (pairToken : StoredPairToken) (input : PairExchangeInput) (now : ℤ)
    (draw : NodeDraw) : StoredNodeRecord :=
  let displayName := nodeDisplayName (input.displayName.or pairToken.displayName) input.platform
  newNode c draw displayName (requestedProtocol input.protocolVersion)
    (boundKey c input.publicKey)
    (createNodeAclForPairToken pairToken draw.nodeId draw.credential.credentialId displayName now)
    now

def exchangePairToken (s : RegistryFile) (input : PairExchangeInput) (now : ℤ)
    (draw : NodeDraw) : Outcome RegistryFile (RelayNodeCredential × HubNodeSummary) :=
  match redeemablePairToken c s input now with
  | .error e => .refuse s e
  | .ok pairToken =>
    let node := exchangedNode c pairToken input now draw
    .persist
      { s with
        pairTokens := modifyFirst (fun t => decide (t.tokenHash = c.sha256 input.pairToken))
          (fun t => { t with usedAt := some now }) s.pairTokens
        nodes := s.nodes ++ [node] }
      (newCredential draw (boundKey c input.publicKey) now, publicNode node)

end PairTokens

/-! ## Expiry and pruning of pairing requests -/

section Expiry

/-- `NODE_PAIRING_REASON_CODES`, those that records carry. -/
def reasonRequested : String := "PENDING_PAIRING_REQUESTED"

def reasonApproved : String := "PENDING_PAIRING_APPROVED"

def reasonDenied : String := "PENDING_PAIRING_DENIED"

def reasonExpired : String := "PENDING_PAIRING_EXPIRED"

def reasonEdited : String := "PENDING_PAIRING_ACCESS_EDITED"

def reasonCredentialIssued : String := "PENDING_PAIRING_CREDENTIAL_ISSUED"

def reasonReplayDenied : String := "PENDING_PAIRING_REPLAY_DENIED"

def pendingPairingResolvedRetentionMs : ℤ := 60 * 60 * 1000

def maxRetainedResolvedPairings : ℕ := 256

/-- A request that a node could still turn into a credential. -/
def isActiveClaimablePairing (record : StoredPendingPairingRequest) : Bool :=
  record.state = .pending ∨ (record.state = .approved ∧ record.credentialDeliveredAt = none)

/-- A request that waits for a decision past its time. -/
def isOverdue (now : ℤ) (record : StoredPendingPairingRequest) : Bool :=
  record.state = .pending ∧ record.expiresAt ≤ now

/-- One round of the loop of `expirePendingPairingNow`. -/
def expireRecord (now : ℤ) (record : StoredPendingPairingRequest) : StoredPendingPairingRequest :=
  if isOverdue now record then
    { record with state := .expired, reasonCode := reasonExpired, decidedAt := some now }
  else record

def isResolved (record : StoredPendingPairingRequest) : Bool :=
  record.state = .denied ∨ record.state = .expired ∨
    (record.state = .approved ∧ record.credentialDeliveredAt.isSome)

def decisionMs (record : StoredPendingPairingRequest) : ℤ :=
  record.decidedAt.getD record.createdAt

/-- A resolved request past the retention window. -/
def isForgotten (now : ℤ) (record : StoredPendingPairingRequest) : Bool :=
  isResolved record ∧ decisionMs record + pendingPairingResolvedRetentionMs ≤ now

/-- The ids of the resolved requests beyond the newest ones. -/
def surplusIds (kept : List StoredPendingPairingRequest) : List String :=
  let resolved := (kept.filter isResolved).insertionSort fun a b => decisionMs a ≤ decisionMs b
  (resolved.take (resolved.length - maxRetainedResolvedPairings)).map (·.requestId)

def prunePendingPairings (records : List StoredPendingPairingRequest) (now : ℤ) :
    List StoredPendingPairingRequest :=
  let kept := records.filter fun record => !isForgotten now record
  kept.filter fun record => !(surplusIds kept).contains record.requestId

/-- The requests after expiry and pruning, and whether any changed. -/
def expirePendingPairingNow (s : RegistryFile) (now : ℤ) : RegistryFile × Bool :=
  let expired := s.pendingPairings.map (expireRecord now)
  let kept := prunePendingPairings expired now
  ({ s with pendingPairings := kept },
    s.pendingPairings.any (isOverdue now) || kept.length != expired.length)

/-- A call that starts with `expirePendingPairingNow`, which saves what it changed. -/
def afterExpiry {α : Type} (s : RegistryFile) (now : ℤ)
    (f : RegistryFile → Outcome RegistryFile α) : Outcome RegistryFile α :=
  let expired := expirePendingPairingNow s now
  { f expired.1 with
    save :=
      if expired.2 = true ∧ (f expired.1).save = .unsaved then .written else (f expired.1).save }

end Expiry

/-! ## Pairing requests -/

section Pairing

variable (c : Crypto)

def normalizeNodePairingDeviceCode (input : String) : List Char :=
  (input.toList.filter Char.isAlphanum).map Char.toUpper

def deviceCodeAlphabet : List Char := "ABCDEFGHJKLMNPQRSTUVWXYZ23456789".toList

/-- Six letters of the alphabet. -/
abbrev DeviceLetters :=
  {letters : List Char // letters.length = 6 ∧ ∀ letter ∈ letters, letter ∈ deviceCodeAlphabet}

/-- `randomDeviceCode`. -/
def deviceCodeOf (letters : DeviceLetters) : String :=
  String.ofList (letters.val.take 3 ++ '-' :: letters.val.drop 3)

/-- `generateUniqueDeviceCode`, given what is drawn at each attempt. -/
def generateUniqueDeviceCode (s : RegistryFile) (codes : ℕ → DeviceLetters) : Option String :=
  ((List.range 64).map fun attempt => deviceCodeOf (codes attempt)).find? fun code =>
    !s.pendingPairings.any fun record =>
      isActiveClaimablePairing record &&
        normalizeNodePairingDeviceCode record.deviceCode == normalizeNodePairingDeviceCode code

def noDeviceCode : RelayNodeError :=
  { code := .internal, message := "could not allocate a unique pairing device code" }

def resolvePendingPairingCapabilityBits (requestedCapabilities : Option (List String)) :
    List RelayCapabilityBit :=
  (normalizeCapabilityBits
    (legacyDefaultAllowedCapabilities.map (·.val) ++
      (normalizeField requestedCapabilities).map (·.val))).filter isNodeBit

/-- One more requested root, up to sixteen. -/
def addRequestedRoot (cleaned : List String) (root : String) : List String :=
  let trimmed := Text.slice16 256 (Text.trim root)
  if 16 ≤ cleaned.length ∨ trimmed = "" ∨ trimmed ∈ cleaned then cleaned else cleaned ++ [trimmed]

def sanitizeRequestedRoots (roots : Option (List String)) : List String :=
  (roots.getD []).foldl addRequestedRoot []

def isHighRiskNodePairingRequest (profile : NodePairingTrustProfile)
    (requestedCapabilities : List RelayCapabilityBit) : Bool :=
  nodePairingProfileTrustTier profile = .prod ∨
    ∃ bit ∈ requestedCapabilities,
      bit.val ∈ highRiskCapabilities ∧ bit ∉ legacyDefaultAllowedCapabilities

def defaultPendingPairingTtlMs : ℤ := 10 * 60 * 1000

def maxPendingPairingTtlMs : ℤ := 60 * 60 * 1000

def maxPendingPairingRequests : ℕ := 256

/-- `clampPendingPairingTtlMs`; what is no finite number is absent. -/
def clampPendingPairingTtlMs (ttlMs : Option ℤ) : ℤ :=
  match ttlMs with
  | none => defaultPendingPairingTtlMs
  | some ttl => if ttl ≤ 0 then defaultPendingPairingTtlMs else min ttl maxPendingPairingTtlMs

structure PendingPairingRequestInput where
  publicKey : Option String := none
  displayName : Option String := none
  platform : String := ""
  requestedProfile : Option NodePairingTrustProfile := none
  requestedCapabilities : Option (List String) := none
  requestedRoots : Option (List String) := none
  protocolVersion : Option String := none
  correlationId : Option String := none
  ttlMs : Option ℤ := none

structure PendingPairingDraw where
  request : RandomText
  statusToken : RandomText
  correlation : RandomText
  codes : ℕ → DeviceLetters

def PendingPairingDraw.requestId (draw : PendingPairingDraw) : String :=
  randomToken "ppreq" draw.request

def PendingPairingDraw.token (draw : PendingPairingDraw) : String :=
  randomToken "pstat" draw.statusToken

structure NodePairingRequestSummary where
  requestId : String
  correlationId : String
  deviceCode : String
  state : PairingState
  reasonCode : String
  displayName : String
  requestedProfile : NodePairingTrustProfile
  requestedTrustTier : RelayTrustTier
  requestedRoots : List String
  requiresExactOperationApproval : Bool
  publicKeyFingerprint : Option String
  createdAt : ℤ
  expiresAt : ℤ
  decidedAt : Option ℤ
  nodeId : Option String
  credentialId : Option String

def publicPendingPairing (record : StoredPendingPairingRequest) : NodePairingRequestSummary where
  requestId := record.requestId
  correlationId := record.correlationId
  deviceCode := record.deviceCode
  state := record.state
  reasonCode := record.reasonCode
  displayName := record.displayName
  requestedProfile := record.requestedProfile
  requestedTrustTier := record.requestedTrustTier
  requestedRoots := record.requestedRoots
  requiresExactOperationApproval := record.requiresExactOperationApproval
  publicKeyFingerprint := record.key.map (·.publicKeyFingerprint)
  createdAt := record.createdAt
  expiresAt := record.expiresAt
  decidedAt := record.decidedAt
  nodeId := record.nodeId
  credentialId := record.credentialId

def pendingRecord (input : PendingPairingRequestInput) (now : ℤ) (draw : PendingPairingDraw)
    (deviceCode : String) : StoredPendingPairingRequest :=
  let profile := input.requestedProfile.getD .devWorkstation
  let bits := resolvePendingPairingCapabilityBits input.requestedCapabilities
  { requestId := draw.requestId
    correlationId := input.correlationId.getD (randomToken "ppcorr" draw.correlation)
    deviceCode
    statusTokenHash := c.sha256 draw.token
    state := .pending
    reasonCode := reasonRequested
    key := boundKey c input.publicKey
    displayName := nodeDisplayName input.displayName input.platform
    protocolVersion := requestedProtocol input.protocolVersion
    requestedProfile := profile
    requestedTrustTier := nodePairingProfileTrustTier profile
    capabilityBits := bits
    requestedRoots := sanitizeRequestedRoots input.requestedRoots
    requiresExactOperationApproval := isHighRiskNodePairingRequest profile bits
    createdAt := now
    expiresAt := now + clampPendingPairingTtlMs input.ttlMs }

def tooManyPendingPairings : RelayNodeError :=
  { code := .nodeBusy
    message := "too many pending pairing requests; " ++
      "retry after existing requests are resolved or expire"
    retryable := true, reasonCode := some "PENDING_PAIRING_CAPACITY_EXHAUSTED" }

def submitPendingPairingRequest (s : RegistryFile) (input : PendingPairingRequestInput) (now : ℤ)
    (draw : PendingPairingDraw) : Outcome RegistryFile (NodePairingRequestSummary × String) :=
  match assertCompatibleProtocol (requestedProtocol input.protocolVersion) with
  | some e => .refuse s e
  | none =>
    afterExpiry s now fun s =>
      if maxPendingPairingRequests ≤
          (s.pendingPairings.filter fun record => record.state = .pending).length then
        .refuse s tooManyPendingPairings
      else match generateUniqueDeviceCode s draw.codes with
        | none => .refuse s noDeviceCode
        | some deviceCode =>
          let record := pendingRecord c input now draw deviceCode
          .persist { s with pendingPairings := s.pendingPairings ++ [record] }
            (publicPendingPairing record, draw.token)

/-- What a list call asks for. -/
structure ListOptions where
  state : Option PairingState := none
  includeResolved : Bool := false

def ListOptions.shows (options : ListOptions) (record : StoredPendingPairingRequest) : Bool :=
  match options.state with
  | some state => record.state = state
  | none => options.includeResolved || record.state = .pending || record.state = .approved

def listPendingPairingRequests (s : RegistryFile) (options : ListOptions) (now : ℤ) :
    Outcome RegistryFile (List NodePairingRequestSummary) :=
  afterExpiry s now fun s =>
    .answer s ((s.pendingPairings.filter options.shows).map publicPendingPairing)

def pendingPairing? (s : RegistryFile) (requestId : String) :
    Option StoredPendingPairingRequest :=
  s.pendingPairings.find? fun record => record.requestId = requestId

def getPendingPairingRequest (s : RegistryFile) (requestId : String) (now : ℤ) :
    Outcome RegistryFile (Option NodePairingRequestSummary) :=
  afterExpiry s now fun s => .answer s ((pendingPairing? s requestId).map publicPendingPairing)

/-- The request a device code shows: the active one, else the last. -/
def locatedByCode (s : RegistryFile) (deviceCode : String) : Option StoredPendingPairingRequest :=
  if normalizeNodePairingDeviceCode deviceCode = [] then none
  else
    let located := s.pendingPairings.filter fun record =>
      normalizeNodePairingDeviceCode record.deviceCode = normalizeNodePairingDeviceCode deviceCode
    (located.find? isActiveClaimablePairing).or located.getLast?

def findPendingPairingRequestByDeviceCode (s : RegistryFile) (deviceCode : String) (now : ℤ) :
    Outcome RegistryFile (Option NodePairingRequestSummary) :=
  afterExpiry s now fun s => .answer s ((locatedByCode s deviceCode).map publicPendingPairing)

def pendingPairingNotFound : RelayNodeError :=
  { code := .notFound, message := "pending pairing request was not found"
    reasonCode := some "PENDING_PAIRING_NOT_FOUND" }

/-- A call on the request of an id: `requirePendingPairingRecord`, then the call. -/
def onPending {α : Type} (s : RegistryFile) (requestId : String) (now : ℤ)
    (f : RegistryFile → StoredPendingPairingRequest → Outcome RegistryFile α) :
    Outcome RegistryFile α :=
  afterExpiry s now fun s =>
    match pendingPairing? s requestId with
    | none => .refuse s pendingPairingNotFound
    | some record => f s record

/-- The error of `assertPendingState`. -/
def assertPendingState (record : StoredPendingPairingRequest) (verb : String) :
    Option RelayNodeError :=
  match record.state with
  | .pending => none
  | .expired => some
    { code := .tokenExpired, message := "cannot " ++ verb ++ " an expired pairing request"
      reasonCode := some reasonExpired }
  | state => some
    { code := .invalidRequest
      message := "cannot " ++ verb ++ " a " ++ state.text ++ " pairing request"
      reasonCode := some reasonReplayDenied }

structure PendingPairingAccessEdit where
  displayName : Option String := none
  requestedProfile : Option NodePairingTrustProfile := none
  requestedCapabilities : Option (List String) := none
  requestedRoots : Option (List String) := none

def applyPendingPairingAccessEdit (record : StoredPendingPairingRequest)
    (edit : PendingPairingAccessEdit) : StoredPendingPairingRequest :=
  let profile := edit.requestedProfile.getD record.requestedProfile
  let bits :=
    if edit.requestedCapabilities.isSome
    then resolvePendingPairingCapabilityBits edit.requestedCapabilities
    else record.capabilityBits
  { record with
    displayName := (truthy (edit.displayName.map Text.trim)).getD record.displayName
    requestedProfile := profile
    requestedTrustTier :=
      (edit.requestedProfile.map nodePairingProfileTrustTier).getD record.requestedTrustTier
    capabilityBits := bits
    requestedRoots :=
      if edit.requestedRoots.isSome then sanitizeRequestedRoots edit.requestedRoots
      else record.requestedRoots
    requiresExactOperationApproval := isHighRiskNodePairingRequest profile bits }

def changePending (s : RegistryFile) (requestId : String)
    (f : StoredPendingPairingRequest → StoredPendingPairingRequest) : RegistryFile :=
  { s with
    pendingPairings :=
      modifyFirst (fun record => decide (record.requestId = requestId)) f s.pendingPairings }

def decidePending (s : RegistryFile) (requestId verb : String) (now : ℤ)
    (f : StoredPendingPairingRequest → StoredPendingPairingRequest) :
    Outcome RegistryFile (NodePairingRequestSummary × List RelayCapabilityBit) :=
  onPending s requestId now fun s record =>
    match assertPendingState record verb with
    | some e => .refuse s e
    | none =>
      .persist (changePending s requestId f)
        (publicPendingPairing (f record), (f record).capabilityBits)

def editPendingPairingAccess (s : RegistryFile) (requestId : String)
    (edit : PendingPairingAccessEdit) (now : ℤ) :
    Outcome RegistryFile (NodePairingRequestSummary × List RelayCapabilityBit) :=
  decidePending s requestId "edit access for" now fun record =>
    { applyPendingPairingAccessEdit record edit with reasonCode := reasonEdited }

def approvedRecord (edit : Option PendingPairingAccessEdit) (now : ℤ)
    (record : StoredPendingPairingRequest) : StoredPendingPairingRequest :=
  { (match edit with
      | some edit => applyPendingPairingAccessEdit record edit
      | none => record) with
    state := .approved, reasonCode := reasonApproved, decidedAt := some now }

def approvePendingPairingRequest (s : RegistryFile) (requestId : String)
    (edit : Option PendingPairingAccessEdit) (now : ℤ) :
    Outcome RegistryFile (NodePairingRequestSummary × List RelayCapabilityBit) :=
  decidePending s requestId "approve" now (approvedRecord edit now)

def denyPendingPairingRequest (s : RegistryFile) (requestId : String) (now : ℤ) :
    Outcome RegistryFile (NodePairingRequestSummary × List RelayCapabilityBit) :=
  decidePending s requestId "deny" now fun record =>
    { record with state := .denied, reasonCode := reasonDenied, decidedAt := some now }

def createNodeAclForPendingPairing (record : StoredPendingPairingRequest)
    (nodeId credentialId displayName : String) (createdAt : ℤ) : RelayNodeAcl :=
  applyTrustTierOverlay
    { createLegacyDefaultNodeAcl nodeId credentialId displayName record.requestedTrustTier
        createdAt with
      grants := { allowed := record.capabilityBits, requiresConfirmation := [] } }

/-- `buildPairedNodeFromPendingPairing`: the node record. -/
def claimedNode (record : StoredPendingPairingRequest) (now : ℤ) (draw : NodeDraw) :
    StoredNodeRecord :=
  newNode c draw record.displayName record.protocolVersion
    (boundKey c (record.key.map (·.publicKey)))
    (createNodeAclForPendingPairing record draw.nodeId draw.credential.credentialId
      record.displayName now)
    now

/-- The record of a request whose credential was handed out. -/
def deliveredRecord (now : ℤ) (draw : NodeDraw) (record : StoredPendingPairingRequest) :
    StoredPendingPairingRequest :=
  { record with
    nodeId := some draw.nodeId, credentialId := some draw.credential.credentialId
    credentialDeliveredAt := some now, reasonCode := reasonCredentialIssued }

def statusTokenInvalid : RelayNodeError :=
  { code := .unauthorized, message := "pending pairing status token is invalid"
    reasonCode := some "PENDING_PAIRING_STATUS_TOKEN_INVALID" }

structure PendingPairingPollResult where
  request : NodePairingRequestSummary
  claim : Option (RelayNodeCredential × HubNodeSummary) := none

def claimPending (statusToken : String) (now : ℤ) (draw : NodeDraw) (s : RegistryFile)
    (record : StoredPendingPairingRequest) : Outcome RegistryFile PendingPairingPollResult :=
  if c.sha256 (Text.trim statusToken) ≠ record.statusTokenHash then
    .refuse s statusTokenInvalid
  else if record.state ≠ .approved ∨ record.credentialDeliveredAt.isSome then
    .answer s { request := publicPendingPairing record }
  else
    let node := claimedNode c record now draw
    .persist
      { changePending s record.requestId (deliveredRecord now draw) with
        nodes := s.nodes ++ [node] }
      { request := publicPendingPairing (deliveredRecord now draw record)
        claim := some
          (newCredential draw (boundKey c (record.key.map (·.publicKey))) now, publicNode node) }

def pollPendingPairingRequest (s : RegistryFile) (requestId statusToken : String) (now : ℤ)
    (draw : NodeDraw) : Outcome RegistryFile PendingPairingPollResult :=
  -- `requirePendingPairingRecord` runs the expiry again
  afterExpiry s now fun s => onPending s requestId now (claimPending c statusToken now draw)

end Pairing

/-! ## Presented credentials -/

section Authenticate

variable (c : Crypto)

def credentialError (code : RelayNodeErrorCode) (reasonCode message : String) : RelayNodeError :=
  { code, message, reasonCode := some reasonCode }

def credentialMissing : RelayNodeError :=
  credentialError .credentialMissing "NODE_CREDENTIAL_MISSING"
    "node credential is missing; re-pair this node"

def credentialMalformed : RelayNodeError :=
  credentialError .credentialMalformed "NODE_CREDENTIAL_MALFORMED"
    "node credential is malformed; re-pair this node"

def credentialMismatch : RelayNodeError :=
  credentialError .credentialMismatch "NODE_CREDENTIAL_MISMATCH"
    "node credential does not match the stable node identity"

def credentialExpired : RelayNodeError :=
  credentialError .credentialExpired "NODE_CREDENTIAL_EXPIRED"
    "node credential expired; rotate or re-pair"

def credentialRevoked : RelayNodeError :=
  credentialError .nodeRevoked "NODE_REVOKED" "node credential was revoked"

def repairRequired : RelayNodeError :=
  credentialError .repairRequired "REPAIR_REQUIRED"
    "node credential no longer matches hub state; re-pair required"

/-- `parseCredentialToken`: the node id of `nodeId.secret`. -/
def parseCredentialToken (token : String) : Except RelayNodeError String :=
  if token = "" then .error credentialMissing
  else match Text.fields '.' token with
    | [nodeId, secret] =>
      if nodeId = "" ∨ secret = "" ∨ Text.hasPrefix "node_" nodeId = false then
        .error credentialMalformed
      else .ok nodeId
    | _ => .error credentialMalformed

/-- What a presented token locates. -/
structure ResolvedCredential where
  node : StoredNodeRecord
  credentialId : String
  matchesRotation : Bool
  keyBound : Bool
  rotationId : Option String

/-- Whether the stored expiry of the active credential has passed. -/
def isExpired (node : StoredNodeRecord) (now : ℤ) : Bool :=
  node.activeCredential.expiresAt.any fun expiresAt => expiresAt ≤ now

def matchingRotation (node : StoredNodeRecord) (tokenHash : String) :
    Option StoredCredentialRotation :=
  (provableRotation node).filter fun rotation => rotation.nextCredentialHash = some tokenHash

def resolveOnNode (node : StoredNodeRecord) (tokenHash : String) (now : ℤ) :
    Except RelayNodeError ResolvedCredential :=
  if node.activeCredential.tokenHash ≠ tokenHash ∧ matchingRotation node tokenHash = none then
    if (node.credentialRotation.map (·.state)) = some .stable then .error repairRequired
    else .error credentialMismatch
  else if isExpired node now then .error credentialExpired
  else if node.revokedAt.isSome then .error credentialRevoked
  else .ok (match matchingRotation node tokenHash with
    | some rotation =>
      { node, credentialId := rotation.nextCredentialId, matchesRotation := true
        keyBound := rotation.nextKey.isSome, rotationId := some rotation.rotationId }
    | none =>
      { node, credentialId := node.credentialId, matchesRotation := false
        keyBound := node.activeCredential.key.isSome, rotationId := none })

def findNode (s : RegistryFile) (nodeId : String) : Option StoredNodeRecord :=
  s.nodes.find? fun node => node.nodeId = nodeId

def resolveCredentialForAuth (s : RegistryFile) (token : String) (now : ℤ) :
    Except RelayNodeError ResolvedCredential :=
  match parseCredentialToken (Text.trim token) with
  | .error e => .error e
  | .ok nodeId =>
    match findNode s nodeId with
    | none => .error repairRequired
    | some node => resolveOnNode node (c.sha256 (Text.trim token)) now

/-- `CredentialAuthResult`, when it is one. -/
structure Authenticated where
  node : HubNodeSummary
  credentialId : String
  keyBound : Bool
  rotationId : Option String

def sourceRefused : RelayNodeError :=
  { code := .forbidden
    message := "node credential source does not match " ++
      "the expected Tailscale/MagicDNS binding" }

/-- `commitCredentialAllow`; `strictDeny` is the verdict of the source evaluation. -/
def commitCredentialAllow (s : RegistryFile) (resolved : ResolvedCredential) (strictDeny : Bool) :
    Outcome RegistryFile Authenticated :=
  if strictDeny then ⟨s, .written, .error sourceRefused⟩
  else
    .persist s
      { node := publicNode resolved.node, credentialId := resolved.credentialId
        keyBound := resolved.keyBound, rotationId := resolved.rotationId }

def authenticateCredentialDetailed (s : RegistryFile) (token : String) (strictDeny : Bool)
    (now : ℤ) : Outcome RegistryFile Authenticated :=
  match resolveCredentialForAuth c s token now with
  | .error e => .refuse s e
  | .ok resolved => commitCredentialAllow s resolved strictDeny

inductive NodeLinkProofAudience
  | nodeLink | nodeHeartbeat

def NodeLinkProofAudience.text : NodeLinkProofAudience → String
  | .nodeLink => "relay:node-link:v1"
  | .nodeHeartbeat => "relay:node-heartbeat:v1"

/-- `NodeLinkProofFailureReason`. -/
inductive ProofFailure
  | malformed | unsupportedAlg | fingerprintMismatch | nodeMismatch | credentialMismatch
  | audienceMismatch | stale | signatureInvalid

def ProofFailure.text : ProofFailure → String
  | .malformed => "NODE_LINK_PROOF_MALFORMED"
  | .unsupportedAlg => "NODE_LINK_PROOF_UNSUPPORTED_ALG"
  | .fingerprintMismatch => "NODE_LINK_PROOF_FINGERPRINT_MISMATCH"
  | .nodeMismatch => "NODE_LINK_PROOF_NODE_MISMATCH"
  | .credentialMismatch => "NODE_LINK_PROOF_CREDENTIAL_MISMATCH"
  | .audienceMismatch => "NODE_LINK_PROOF_AUDIENCE_MISMATCH"
  | .stale => "NODE_LINK_PROOF_STALE"
  | .signatureInvalid => "NODE_LINK_PROOF_SIGNATURE_INVALID"

structure ExpectedProof where
  nodeId : String
  credentialId : String
  audience : NodeLinkProofAudience
  key : BoundKey

structure VerifiedProof where
  jti : String
  issuedAtMs : ℚ

def defaultNodeLinkProofFreshnessMs : ℚ := 5 * 60 * 1000

/-- The checks on the decoded segments, in the order of the source. -/
def checkProof (header payload : ProofSegment) (signed signature : String)
    (expected : ExpectedProof) (now : ℤ) (freshnessMs : ℚ) : Except ProofFailure VerifiedProof :=
  if header.typ ≠ some "relay-node-proof+v1" then .error .malformed
  else if header.alg ≠ some "ed25519" then .error .unsupportedAlg
  else if header.fpr ≠ some expected.key.publicKeyFingerprint then .error .fingerprintMismatch
  else if payload.nodeId ≠ some expected.nodeId then .error .nodeMismatch
  else if payload.credentialId ≠ some expected.credentialId then .error .credentialMismatch
  else if payload.aud ≠ some expected.audience.text then .error .audienceMismatch
  else match payload.iat, truthy payload.jti with
    | some iat, some jti =>
      if freshnessMs < |(now : ℚ) - iat * 1000| then .error .stale
      else match nodePublicKeyFingerprint c expected.key.publicKey with
        | none => .error .signatureInvalid
        | some fingerprint =>
          if fingerprint ≠ expected.key.publicKeyFingerprint then .error .fingerprintMismatch
          else if c.verify expected.key.publicKey signed signature = false then
            .error .signatureInvalid
          else .ok ⟨jti, iat * 1000⟩
    | _, _ => .error .malformed

def verifyNodeLinkProof (proof : String) (expected : ExpectedProof) (now : ℤ)
    (freshnessMs : ℚ) : Except ProofFailure VerifiedProof :=
  match Text.fields '.' proof with
  | [first, second, third] =>
    if first = "" ∨ second = "" ∨ third = "" then .error .malformed
    else match c.parseProofSegment first, c.parseProofSegment second with
      | some header, some payload =>
        checkProof c header payload (first ++ "." ++ second) third expected now freshnessMs
      | _, _ => .error .malformed
  | _ => .error .malformed

def boundKeyForCredential (node : StoredNodeRecord) (credentialId : String) : Option BoundKey :=
  ((node.credentialRotation.filter fun rotation =>
      rotation.nextCredentialId = credentialId).bind (·.nextKey)).orElse fun _ =>
    if node.activeCredential.credentialId = credentialId then node.activeCredential.key else none

structure NodeLinkProofContext where
  audience : NodeLinkProofAudience
  proof : Option String := none
  proofFreshnessMs : Option ℚ := none
  strictDeny : Bool := false

def NodeLinkProofContext.freshnessMs (context : NodeLinkProofContext) : ℚ :=
  context.proofFreshnessMs.getD defaultNodeLinkProofFreshnessMs

end Authenticate

/-! ## The registry in memory and on disk -/

/-- The state in memory, the file as last written, whether a heartbeat waits to be written, and
    the replay guard for proofs. -/
structure HubNodeRegistry where
  state : RegistryFile
  file : RegistryFile
  heartbeatPersistDirty : Bool := false
  nodeLinkProofReplay : List (String × ℚ) := []
  nextNodeLinkProofReplayPruneAtMs : ℤ := 0

def HubNodeRegistry.load (file : RegistryFile) : HubNodeRegistry := { state := file, file }

/-- The registry after a call on its state. -/
def HubNodeRegistry.settle {α : Type} (r : HubNodeRegistry) (o : Outcome RegistryFile α) :
    HubNodeRegistry :=
  match o.save with
  | .unsaved => { r with state := o.state }
  | .debounced => { r with state := o.state, heartbeatPersistDirty := true }
  | .written => { r with state := o.state, file := o.state, heartbeatPersistDirty := false }

def flushPendingHeartbeatPersist (r : HubNodeRegistry) : HubNodeRegistry :=
  if r.heartbeatPersistDirty then { r with file := r.state, heartbeatPersistDirty := false } else r

section Proof

variable (c : Crypto)

def nodeLinkProofReplayPruneThreshold : ℕ := 1024

def nodeLinkProofReplayPruneIntervalMs : ℤ := 30 * 1000

def pruneNodeLinkProofReplay (r : HubNodeRegistry) (now : ℤ) : HubNodeRegistry :=
  if r.nodeLinkProofReplay.length ≤ nodeLinkProofReplayPruneThreshold ∨
      now < r.nextNodeLinkProofReplayPruneAtMs then r
  else
    { r with
      nodeLinkProofReplay := r.nodeLinkProofReplay.filter fun entry => (now : ℚ) < entry.2
      nextNodeLinkProofReplayPruneAtMs := now + nodeLinkProofReplayPruneIntervalMs }

def proofDenied (code : RelayNodeErrorCode) (reasonCode : String) : RelayNodeError :=
  { code
    message :=
      if code = .proofRequired then "node-link requires proof of private-key possession"
      else "node-link proof of private-key possession was rejected"
    reasonCode := some reasonCode }

/-- The proof of a request to present the key-bound credential `resolved`, or the error. -/
def provenCredential (resolved : ResolvedCredential) (context : NodeLinkProofContext)
    (now : ℤ) : Except RelayNodeError VerifiedProof :=
  match boundKeyForCredential resolved.node resolved.credentialId with
  | none => .error (proofDenied .proofInvalid "NODE_LINK_PROOF_BINDING_UNAVAILABLE")
  | some key =>
    match truthy context.proof with
    | none => .error (proofDenied .proofRequired "NODE_LINK_PROOF_MISSING")
    | some proof =>
      match verifyNodeLinkProof c proof
          { nodeId := resolved.node.nodeId, credentialId := resolved.credentialId
            audience := context.audience, key } now context.freshnessMs with
      | .error failure => .error (proofDenied .proofInvalid failure.text)
      | .ok verified => .ok verified

/-- The replay guard: the registry with the proof noted, unless it was seen. -/
def noteProof (r : HubNodeRegistry) (credentialId : String) (verified : VerifiedProof)
    (freshnessMs : ℚ) (now : ℤ) : Option HubNodeRegistry × HubNodeRegistry :=
  let pruned := pruneNodeLinkProofReplay r now
  let replayKey := credentialId ++ ":" ++ verified.jti
  if pruned.nodeLinkProofReplay.any fun entry => entry.1 = replayKey then (none, pruned)
  else
    (some { pruned with
      nodeLinkProofReplay :=
        pruned.nodeLinkProofReplay ++ [(replayKey, verified.issuedAtMs + freshnessMs + 1)] },
      pruned)

structure Response (α : Type) where
  registry : HubNodeRegistry
  save : Save
  result : Except RelayNodeError α

/-- A call on the state alone. -/
def HubNodeRegistry.respond {α : Type} (r : HubNodeRegistry) (o : Outcome RegistryFile α) :
    Response α :=
  ⟨r.settle o, o.save, o.result⟩

def authenticateNodeLinkWithProof (r : HubNodeRegistry) (token : String)
    (context : NodeLinkProofContext) (now : ℤ) : Response Authenticated :=
  match resolveCredentialForAuth c r.state token now with
  | .error e => r.respond (.refuse r.state e)
  | .ok resolved =>
    if resolved.keyBound = false then
      r.respond (commitCredentialAllow r.state resolved context.strictDeny)
    else match provenCredential c resolved context now with
      | .error e => r.respond (.refuse r.state e)
      | .ok verified =>
        match noteProof r resolved.credentialId verified context.freshnessMs now with
        | (none, pruned) =>
          pruned.respond (.refuse r.state (proofDenied .proofInvalid "NODE_LINK_PROOF_REPLAYED"))
        | (some noted, _) =>
          noted.respond (commitCredentialAllow r.state resolved context.strictDeny)

end Proof

/-! ## Runs -/

inductive NodeCall
  | beginCredentialRotation (publicKey : Option String) (draw : RotationDraw)
  | markCredentialRotationDelivered (rotationId : String)
  | failCredentialRotation (rotationId reason : String)
  | clearCredentialRotationFailure
  | recordHeartbeat (protocolVersion : String) (credentialId : Option String)
  | markNodeLinkDisconnected
  | revokeNode
  | markNodeUpdating
  | markNodeUpdateComplete

inductive RegistryCall
  | createPairToken (options : PairTokenOptions) (draw : PairTokenDraw)
  | exchangePairToken (input : PairExchangeInput) (draw : NodeDraw)
  | submitPendingPairingRequest (input : PendingPairingRequestInput) (draw : PendingPairingDraw)
  | listPendingPairingRequests (options : ListOptions)
  | getPendingPairingRequest (requestId : String)
  | findPendingPairingRequestByDeviceCode (deviceCode : String)
  | editPendingPairingAccess (requestId : String) (edit : PendingPairingAccessEdit)
  | approvePendingPairingRequest (requestId : String) (edit : Option PendingPairingAccessEdit)
  | denyPendingPairingRequest (requestId : String)
  | pollPendingPairingRequest (requestId statusToken : String) (draw : NodeDraw)
  | onNode (nodeId : String) (call : NodeCall)
  | authenticateCredential (token : String) (strictDeny : Bool)
  | authenticateNodeLink (token : String) (context : NodeLinkProofContext)
  | flushPendingHeartbeatPersist

inductive Reply
  | minted (response : PairTokenResponse)
  | paired (credential : RelayNodeCredential) (node : HubNodeSummary)
  | submitted (request : NodePairingRequestSummary) (statusToken : String)
  | listed (requests : List NodePairingRequestSummary)
  | located (request : Option NodePairingRequestSummary)
  | decided (request : NodePairingRequestSummary) (grantedBits : List RelayCapabilityBit)
  | polled (result : PendingPairingPollResult)
  | rotating (credential : RelayNodeCredential) (rotationId : String)
  | beat (node : HubNodeSummary) (proved : Option String)
  | node (node : HubNodeSummary)
  | authenticated (result : Authenticated)
  | flushed

section Run

variable (c : Crypto)

def runOnNode (node : StoredNodeRecord) (now : ℤ) : NodeCall → Outcome StoredNodeRecord Reply
  | .beginCredentialRotation publicKey draw =>
    (beginCredentialRotation c node publicKey now draw).map fun answer =>
      .rotating answer.1 answer.2
  | .markCredentialRotationDelivered rotationId =>
    (markCredentialRotationDelivered node rotationId now).map .node
  | .failCredentialRotation rotationId reason =>
    (failCredentialRotation node rotationId reason now).map .node
  | .clearCredentialRotationFailure => (clearCredentialRotationFailure node).map .node
  | .recordHeartbeat protocolVersion credentialId =>
    (recordHeartbeat node protocolVersion credentialId now).map fun answer =>
      .beat answer.1 answer.2
  | .markNodeLinkDisconnected => (markNodeLinkDisconnected node now).map .node
  | .revokeNode => (revokeNode node now).map .node
  | .markNodeUpdating => (markNodeUpdating node now).map .node
  | .markNodeUpdateComplete => (markNodeUpdateComplete node).map .node

def NodeCall.refusal : NodeCall → Option RelayNodeError
  | .recordHeartbeat protocolVersion _ => assertCompatibleProtocol protocolVersion
  | _ => none

def onNode (s : RegistryFile) (nodeId : String) (call : NodeCall) (now : ℤ) :
    Outcome RegistryFile Reply :=
  match call.refusal with
  | some e => .refuse s e
  | none =>
    match findNode s nodeId with
    | none => .refuse s notPaired
    | some node =>
      let outcome := runOnNode c node now call
      ⟨{ s with
          nodes := modifyFirst (fun n => decide (n.nodeId = nodeId)) (fun _ => outcome.state)
            s.nodes },
        outcome.save, outcome.result⟩

def run (r : HubNodeRegistry) (now : ℤ) : RegistryCall → Response Reply
  | .createPairToken options draw =>
    r.respond ((createPairToken c r.state options now draw).map .minted)
  | .exchangePairToken input draw =>
    r.respond ((exchangePairToken c r.state input now draw).map fun answer =>
      .paired answer.1 answer.2)
  | .submitPendingPairingRequest input draw =>
    r.respond ((submitPendingPairingRequest c r.state input now draw).map fun answer =>
      .submitted answer.1 answer.2)
  | .listPendingPairingRequests options =>
    r.respond ((listPendingPairingRequests r.state options now).map .listed)
  | .getPendingPairingRequest requestId =>
    r.respond ((getPendingPairingRequest r.state requestId now).map .located)
  | .findPendingPairingRequestByDeviceCode deviceCode =>
    r.respond ((findPendingPairingRequestByDeviceCode r.state deviceCode now).map .located)
  | .editPendingPairingAccess requestId edit =>
    r.respond ((editPendingPairingAccess r.state requestId edit now).map fun answer =>
      .decided answer.1 answer.2)
  | .approvePendingPairingRequest requestId edit =>
    r.respond ((approvePendingPairingRequest r.state requestId edit now).map fun answer =>
      .decided answer.1 answer.2)
  | .denyPendingPairingRequest requestId =>
    r.respond ((denyPendingPairingRequest r.state requestId now).map fun answer =>
      .decided answer.1 answer.2)
  | .pollPendingPairingRequest requestId statusToken draw =>
    r.respond ((pollPendingPairingRequest c r.state requestId statusToken now draw).map .polled)
  | .onNode nodeId call => r.respond (onNode c r.state nodeId call now)
  | .authenticateCredential token strictDeny =>
    r.respond ((authenticateCredentialDetailed c r.state token strictDeny now).map .authenticated)
  | .authenticateNodeLink token context =>
    let response := authenticateNodeLinkWithProof c r token context now
    ⟨response.registry, response.save, response.result.map .authenticated⟩
  | .flushPendingHeartbeatPersist =>
    ⟨flushPendingHeartbeatPersist r,
      if r.heartbeatPersistDirty then .written else .unsaved, .ok .flushed⟩

end Run

def NodeCall.draws : NodeCall → List RandomText
  | .beginCredentialRotation _ draw => [draw.credential.id, draw.credential.secret, draw.rotation]
  | _ => []

def RegistryCall.draws : RegistryCall → List RandomText
  | .createPairToken _ draw => [draw.pairToken, draw.tokenId]
  | .exchangePairToken _ draw => [draw.node, draw.credential.id, draw.credential.secret]
  | .submitPendingPairingRequest _ draw => [draw.request, draw.statusToken, draw.correlation]
  | .pollPendingPairingRequest _ _ draw => [draw.node, draw.credential.id, draw.credential.secret]
  | .onNode _ call => call.draws
  | _ => []

structure CallRecord where
  call : RegistryCall
  now : ℤ
  save : Save
  result : Except RelayNodeError Reply

structure World where
  registry : HubNodeRegistry
  log : List CallRecord

/-- A hub that starts without a registry file. -/
def World.start : World := ⟨.load emptyRegistryFile, []⟩

structure Timed where
  call : RegistryCall
  now : ℤ

/-- One call of a run. -/
def step (c : Crypto) (w : World) (op : Timed) : World :=
  let response := run c w.registry op.now op.call
  ⟨response.registry, w.log ++ [⟨op.call, op.now, response.save, response.result⟩]⟩

/-- What runs are taken to meet: times do not decrease, and no random text is drawn twice. -/
structure Admissible (w : World) (op : Timed) : Prop where
  later : ∀ entry ∈ w.log, entry.now ≤ op.now
  distinct : op.call.draws.Nodup
  fresh : ∀ entry ∈ w.log, ∀ text ∈ op.call.draws, text ∉ entry.call.draws

instance (w : World) (op : Timed) : Decidable (Admissible w op) :=
  decidable_of_iff
    ((∀ entry ∈ w.log, entry.now ≤ op.now) ∧ op.call.draws.Nodup ∧
      ∀ entry ∈ w.log, ∀ text ∈ op.call.draws, text ∉ entry.call.draws)
    ⟨fun h => ⟨h.1, h.2.1, h.2.2⟩, fun h => ⟨h.later, h.distinct, h.fresh⟩⟩

/-! ## What a call touches -/

theorem randomToken_inj {kind : String} {a b : RandomText}
    (h : randomToken kind a = randomToken kind b) : a = b :=
  Subtype.ext ((String.append_right_inj (kind ++ "_")).mp h)

variable {α : Type} {w : World} {op : Timed}

section
variable (r : HubNodeRegistry) (o : Outcome RegistryFile α)

@[simp] theorem state_settle : (r.settle o).state = o.state := by
  unfold HubNodeRegistry.settle
  split <;> rfl

@[simp] theorem state_respond : (r.respond o).registry.state = o.state :=
  state_settle r o

end

@[simp] theorem state_map {σ β : Type} (f : α → β) (o : Outcome σ α) :
    (o.map f).state = o.state := rfl

section
variable (s : RegistryFile) (now : ℤ) (f : RegistryFile → Outcome RegistryFile α)

@[simp] theorem state_afterExpiry :
    (afterExpiry s now f).state = (f (expirePendingPairingNow s now).1).state := rfl

@[simp] theorem result_afterExpiry :
    (afterExpiry s now f).result = (f (expirePendingPairingNow s now).1).result := rfl

end

@[simp] theorem state_flushPendingHeartbeatPersist (r : HubNodeRegistry) :
    (flushPendingHeartbeatPersist r).state = r.state := by
  unfold flushPendingHeartbeatPersist
  split <;> rfl

theorem state_commitCredentialAllow (s : RegistryFile) (resolved : ResolvedCredential)
    (strictDeny : Bool) : (commitCredentialAllow s resolved strictDeny).state = s := by
  unfold commitCredentialAllow
  split <;> rfl

section Touches

variable (c : Crypto)

theorem state_authenticateCredentialDetailed (s : RegistryFile) (token : String)
    (strictDeny : Bool) (now : ℤ) :
    (authenticateCredentialDetailed c s token strictDeny now).state = s := by
  unfold authenticateCredentialDetailed
  split
  · rfl
  · exact state_commitCredentialAllow _ _ _

theorem state_authenticateNodeLinkWithProof (r : HubNodeRegistry) (token : String)
    (context : NodeLinkProofContext) (now : ℤ) :
    (authenticateNodeLinkWithProof c r token context now).registry.state = r.state := by
  unfold authenticateNodeLinkWithProof
  split
  · exact state_respond _ _
  · split
    · rw [state_respond]
      exact state_commitCredentialAllow _ _ _
    · split
      · exact state_respond _ _
      · split
        · exact state_respond _ _
        · rw [state_respond]
          exact state_commitCredentialAllow _ _ _

/-- The pairing lane outside of polls. -/
def RegistryCall.onRequests : RegistryCall → Bool
  | .submitPendingPairingRequest _ _ | .listPendingPairingRequests _
  | .getPendingPairingRequest _ | .findPendingPairingRequestByDeviceCode _
  | .editPendingPairingAccess _ _ | .approvePendingPairingRequest _ _
  | .denyPendingPairingRequest _ => true
  | _ => false

theorem frame_onPending (s : RegistryFile) (requestId : String) (now : ℤ)
    (f : RegistryFile → StoredPendingPairingRequest → Outcome RegistryFile α)
    (h : ∀ s record, (f s record).state.pairTokens = s.pairTokens ∧
      (f s record).state.nodes = s.nodes) :
    (onPending s requestId now f).state.pairTokens = s.pairTokens ∧
      (onPending s requestId now f).state.nodes = s.nodes := by
  rw [onPending, state_afterExpiry]
  split
  · exact ⟨rfl, rfl⟩
  · exact h _ _

theorem frame_decidePending (s : RegistryFile) (requestId verb : String) (now : ℤ)
    (f : StoredPendingPairingRequest → StoredPendingPairingRequest) :
    (decidePending s requestId verb now f).state.pairTokens = s.pairTokens ∧
      (decidePending s requestId verb now f).state.nodes = s.nodes := by
  refine frame_onPending s requestId now _ fun s record => ?_
  split <;> exact ⟨rfl, rfl⟩

theorem frame_onRequests (r : HubNodeRegistry) (now : ℤ) {call : RegistryCall}
    (h : call.onRequests = true) :
    (run c r now call).registry.state.pairTokens = r.state.pairTokens ∧
      (run c r now call).registry.state.nodes = r.state.nodes := by
  cases call with
  | submitPendingPairingRequest input draw =>
    simp only [run, state_respond, state_map, submitPendingPairingRequest]
    split
    · exact ⟨rfl, rfl⟩
    · rw [state_afterExpiry]
      split
      · exact ⟨rfl, rfl⟩
      · split <;> exact ⟨rfl, rfl⟩
  | listPendingPairingRequests options | getPendingPairingRequest requestId
  | findPendingPairingRequestByDeviceCode deviceCode =>
    simp only [run, state_respond]
    exact ⟨rfl, rfl⟩
  | editPendingPairingAccess requestId edit | approvePendingPairingRequest requestId edit
  | denyPendingPairingRequest requestId =>
    simp only [run, state_respond]
    exact frame_decidePending _ _ _ _ _
  | _ => cases h

theorem pairTokens_poll (s : RegistryFile) (requestId statusToken : String) (now : ℤ)
    (draw : NodeDraw) :
    (pollPendingPairingRequest c s requestId statusToken now draw).state.pairTokens =
      s.pairTokens := by
  rw [pollPendingPairingRequest, state_afterExpiry, onPending, state_afterExpiry]
  split
  · rfl
  · unfold claimPending
    split
    · rfl
    · split <;> rfl

theorem frame_onNode (s : RegistryFile) (nodeId : String) (call : NodeCall) (now : ℤ) :
    (onNode c s nodeId call now).state.pairTokens = s.pairTokens ∧
      (onNode c s nodeId call now).state.pendingPairings = s.pendingPairings := by
  unfold onNode
  split
  · exact ⟨rfl, rfl⟩
  · split <;> exact ⟨rfl, rfl⟩

end Touches

/-! ## Logs of admissible runs -/

/-- No two calls drew the same text. -/
def FreshLog (log : List CallRecord) : Prop :=
  log.Pairwise fun a b => ∀ text ∈ a.call.draws, text ∉ b.call.draws

def entryOf (c : Crypto) (w : World) (op : Timed) : CallRecord :=
  ⟨op.call, op.now, (run c w.registry op.now op.call).save,
    (run c w.registry op.now op.call).result⟩

theorem log_step (c : Crypto) (w : World) (op : Timed) :
    (step c w op).log = w.log ++ [entryOf c w op] := rfl

theorem registry_step (c : Crypto) (w : World) (op : Timed) :
    (step c w op).registry = (run c w.registry op.now op.call).registry := rfl

/-- A call adds one record to the log. -/
theorem mem_log_step {c : Crypto} {entry : CallRecord} :
    entry ∈ (step c w op).log ↔ entry ∈ w.log ∨ entry = entryOf c w op := by
  rw [log_step, mem_append, mem_singleton]

theorem freshLog_step (c : Crypto) (h : FreshLog w.log)
    (hop : Admissible w op) : FreshLog (step c w op).log := by
  rw [log_step, FreshLog, pairwise_append]
  refine ⟨h, pairwise_singleton _ _, ?_⟩
  intro entry hentry new hnew text htext hmem
  obtain rfl := mem_singleton.mp hnew
  exact hop.fresh entry hentry text hmem htext

theorem FreshLog.eq {log : List CallRecord} (h : FreshLog log) {a b : CallRecord} (ha : a ∈ log)
    (hb : b ∈ log) (text : RandomText) (hta : text ∈ a.call.draws) (htb : text ∈ b.call.draws) :
    a = b := by
  by_contra hne
  have hsymm : Std.Symm fun a b : CallRecord => ∀ text ∈ a.call.draws, text ∉ b.call.draws :=
    ⟨fun a b hab text htext hmem => hab text hmem htext⟩
  exact List.Pairwise.forall h ha hb hne text hta htb

/-! ## A platform for concrete runs -/

def knownDigests : List (String × String) :=
  [("pair_A", "6356563d15c6a3be077b4fea180afd7c455b15a106d1618b3a21c11aaf3f5db4"),
    ("node_C.secret_E", "ee1de4af3a20058f4fdfd254c75e33b1f80e268036665eb174b60bc0f1de6abd"),
    ("node_C.secret_G", "768771f284c04ab93db96cb37b74f8236b87f52f67da1e3b9a95d68524e08261"),
    ("node_C.secret_J", "45bbb466f51cc6c3c21d0a24478692c98a7af2599062a5b423da8de4431c4c8b"),
    ("pstat_B", "da9bb70101f1dccf4806bce85f52f522980d4c29f1b2b37142653b435f05a428")]

/-- A digest that is right on the known texts, and injective. -/
def digestOf (text : String) : String :=
  match knownDigests.find? fun known => known.1 = text with
  | some known => known.2
  | none => "-" ++ text

theorem digestOf_injective : Function.Injective digestOf := by
  have hdash : ∀ known ∈ knownDigests, ∀ text, known.2 ≠ "-" ++ text := by
    simp only [knownDigests, forall_mem_cons, ne_eq, String.ext_iff, String.toList_append]
    refine ⟨?_, ?_, ?_, ?_, ?_, by simp⟩ <;>
      exact fun text h => absurd (String.toList_ofList.symm.trans h :) (by simp)
  have hvalues : ∀ a ∈ knownDigests, ∀ b ∈ knownDigests, a.2 = b.2 → a.1 = b.1 := by
    simp [knownDigests]
  intro s t h
  unfold digestOf at h
  split at h <;> split at h
  · rename_i _ a hs _ b ht
    have hkeys := hvalues a (mem_of_find?_eq_some hs) b (mem_of_find?_eq_some ht) h
    have hs : a.1 = s := by simpa using find?_some hs
    have ht : b.1 = t := by simpa using find?_some ht
    rw [← hs, ← ht, hkeys]
  · rename_i _ a hs _ _
    exact absurd h (hdash a (mem_of_find?_eq_some hs) t)
  · rename_i _ _ _ b ht
    exact absurd h.symm (hdash b (mem_of_find?_eq_some ht) s)
  · exact (String.append_right_inj "-").mp h

/-- A platform on which no text is a key. -/
def keylessCrypto : Crypto where
  sha256 := digestOf
  keyDigest := fun _ => none
  parseProofSegment := fun _ => none
  verify := fun _ _ _ => false

/-- The texts `A` to `E` as drawn for a mint and an exchange. -/
def mintDraw : PairTokenDraw := ⟨⟨"A", by simp [isBase64Url]⟩, ⟨"B", by simp [isBase64Url]⟩⟩

def nodeDraw : NodeDraw :=
  ⟨⟨"C", by simp [isBase64Url]⟩, ⟨⟨"D", by simp [isBase64Url]⟩, ⟨"E", by simp [isBase64Url]⟩⟩⟩

end RelayIde.Nodes
