import RelayIde.Security.NodeAcl

/-!
# Hub Policy Evaluation

`evaluateHubPolicy` of `server/hub-policy-evaluator.ts`: the cascade of checks that a request to a
node passes before its capabilities are looked up in the access list of the node.

- `appendPolicyAudit` — what a failed audit write makes of it
-/

namespace RelayIde.Policy

open RelayIde.Library RelayIde.Security

/-! ## Requests, nodes and access lists -/

inductive PeerKind
  | hub | node | localUser | system
deriving DecidableEq

structure HubPolicyPeerIdentity where
  kind : PeerKind
  nodeId : Option String := none
  credentialId : Option String := none
  displayName : Option String := none

structure HubPolicyIntent where
  action : String
  target : Option String := none

inductive PolicyScopeKind
  | node | workspace | repo | path
deriving DecidableEq

structure RelayPolicyScope where
  kind : PolicyScopeKind
  workspaceIds : Option (List String) := none
  repoIds : Option (List String) := none
  pathPrefixes : Option (List String) := none

inductive HubPolicyScopeKind
  | localCompatibility
  | policy (kind : PolicyScopeKind)
  | nodeCwd
  | worktree
deriving DecidableEq

structure HubPolicyScope where
  kind : HubPolicyScopeKind
  nodeId : String
  cwd : Option String := none
  path : Option String := none
  workspaceId : Option String := none
  repoId : Option String := none
  repoPath : Option String := none
  worktreePath : Option String := none

structure RelayAclSummary where
  policyVersion : String
  ref : String
  trustTier : RelayTrustTier
  allowed : List RelayCapabilityBit
  requiresConfirmation : List RelayCapabilityBit
  scope : RelayPolicyScope
  revokedAt : Option String := none
  supersededBy : Option String := none

inductive HubNodeStatus
  | online | stale | offline | revoked | updating
deriving DecidableEq

inductive HubNodeCredentialState
  | active | rotating | rotationFailed | revoked
deriving DecidableEq

structure HubNodeTrust where
  tier : Option RelayTrustTier := none
  policy : Option RelayAclSummary := none

structure HubNodeSummary where
  nodeId : String
  status : HubNodeStatus
  trust : HubNodeTrust
  credentialState : HubNodeCredentialState
  credentialId : String

structure HubPolicyEvaluationInput where
  peer : HubPolicyPeerIdentity
  node : Option HubNodeSummary
  nodeId : String
  intent : HubPolicyIntent
  scope : HubPolicyScope
  requiredCapabilities : List String
  expiresAt : Option String := none
  revokedAt : Option String := none
  sessionId : Option String := none
  correlationId : Option String := none

/-! ## Decisions -/

/-- `HubPolicyDecisionKind`. -/
inductive DecisionKind
  | allow | deny | challenge | revoke
deriving DecidableEq

/-- `HubPolicyReasonCode`. -/
inductive ReasonCode
  | allowed | challengeRequired | nodeNotPaired | nodeRevoked | nodeIdMismatch | peerNodeMismatch
  | peerCredentialMismatch | scopeNodeMismatch | scopeDenied | aclMissing | aclRevoked
  | sessionExpired | sessionRevoked | unknownCapability | capabilityDenied
  | auditWriteFailedClosed | localCompatibilityAllowed
deriving DecidableEq

structure HubPolicyDecision where
  decision : DecisionKind
  reasonCode : ReasonCode
  message : String
  nodeId : String
  peer : HubPolicyPeerIdentity
  intent : HubPolicyIntent
  scope : HubPolicyScope
  trustTier : Option RelayTrustTier
  aclRef : Option String
  policyVersion : Option String
  requiredBits : List RelayCapabilityBit
  grantedBits : List RelayCapabilityBit
  deniedBits : List RelayCapabilityBit
  challengeBits : List RelayCapabilityBit
  unknownBits : List String
  sessionId : Option String
  correlationId : Option String

def baseDecision (input : HubPolicyEvaluationInput) (requiredBits : List RelayCapabilityBit)
    (unknownBits : List String) : HubPolicyDecision where
  decision := .deny
  reasonCode := .capabilityDenied
  message := "policy denied"
  nodeId := input.nodeId
  peer := input.peer
  intent := input.intent
  scope := input.scope
  trustTier := none
  aclRef := none
  policyVersion := none
  requiredBits
  grantedBits := []
  deniedBits := requiredBits
  challengeBits := []
  unknownBits
  sessionId := truthy input.sessionId
  correlationId := truthy input.correlationId

def withPolicy (decision : HubPolicyDecision) (node : HubNodeSummary) : HubPolicyDecision :=
  { decision with
    trustTier := ((node.trust.policy.map (·.trustTier)).or node.trust.tier).or decision.trustTier
    aclRef := (node.trust.policy.map (·.ref)).or decision.aclRef
    policyVersion := (node.trust.policy.map (·.policyVersion)).or decision.policyVersion }

def deny (decision : HubPolicyDecision) (reasonCode : ReasonCode) (message : String) :
    HubPolicyDecision :=
  { decision with decision := .deny, reasonCode, message }

def revoke (decision : HubPolicyDecision) (node : HubNodeSummary) (reasonCode : ReasonCode)
    (message : String) : HubPolicyDecision :=
  { withPolicy decision node with decision := .revoke, reasonCode, message }

/-! ## Scopes -/

def canonicalPolicyPath (value : String) : Option String :=
  let trimmed := Text.trim value
  if trimmed = "" ∨ '\x00' ∈ trimmed.toList then none
  else
    let normalized := PosixPath.normalize trimmed
    if PosixPath.isAbsolute normalized then some normalized else none

def pathWithinPrefix (candidate prefixText : String) : Bool :=
  match canonicalPolicyPath candidate, canonicalPolicyPath prefixText with
  | some candidatePath, some prefixPath =>
    candidatePath = prefixPath || (prefixPath ++ "/").toList.isPrefixOf candidatePath.toList
  | _, _ => false

def HubPolicyScope.requestedPath (scope : HubPolicyScope) : Option String :=
  ((scope.path.or scope.worktreePath).or scope.repoPath).or scope.cwd

def scopeMatchesPolicy (policy : RelayPolicyScope) (scope : HubPolicyScope) : Bool :=
  if scope.kind = .localCompatibility then true
  else
    match policy.kind with
    | .node => true
    | .workspace =>
      (truthy scope.workspaceId).any fun id => (policy.workspaceIds.getD []).contains id
    | .repo =>
      ((truthy scope.repoId).any fun id => (policy.repoIds.getD []).contains id) ||
        (truthy scope.repoPath).any fun path => (policy.repoIds.getD []).contains path
    | .path =>
      (truthy scope.requestedPath).any fun requested =>
        (policy.pathPrefixes.getD []).any fun prefixText => pathWithinPrefix requested prefixText

/-! ## The decision -/

/-- The loop of `normalizeRequiredCapabilities`. -/
def sortCapabilities (seen : List String) : List String → List RelayCapabilityBit × List String
  | [] => ([], [])
  | bit :: required =>
    if bit ∈ seen then sortCapabilities seen required
    else
      let (known, unknown) := sortCapabilities (bit :: seen) required
      if h : bit ∈ relayCapabilityBits then (⟨bit, h⟩ :: known, unknown)
      else (known, bit :: unknown)

/-- The known and the unknown bits, each once. -/
def normalizeRequiredCapabilities (required : List String) :
    List RelayCapabilityBit × List String :=
  sortCapabilities [] required

def isExpired (parse : String → Option ℤ) (expiresAt : Option String) (now : ℤ) : Bool :=
  match truthy expiresAt with
  | none => false
  | some text =>
    match parse text with
    | none => true
    | some ms => ms ≤ now

def decideBits (decision : HubPolicyDecision) (policy : RelayAclSummary)
    (scope : HubPolicyScope) (required : List RelayCapabilityBit) : HubPolicyDecision :=
  let withBits := { decision with
    grantedBits := required.filter fun bit =>
      decide (bit ∉ policy.requiresConfirmation ∧ bit ∈ policy.allowed)
    challengeBits := required.filter fun bit => decide (bit ∈ policy.requiresConfirmation)
    deniedBits := required.filter fun bit =>
      decide (bit ∉ policy.requiresConfirmation ∧ bit ∉ policy.allowed) }
  if withBits.deniedBits ≠ [] then
    deny withBits .capabilityDenied "node ACL does not grant a required capability"
  else if withBits.challengeBits ≠ [] then
    { withBits with
      decision := .challenge
      reasonCode := .challengeRequired
      message := "node ACL requires confirmation for this capability" }
  else
    { withBits with
      decision := .allow
      reasonCode :=
        if scope.kind = .localCompatibility then .localCompatibilityAllowed else .allowed
      message := "policy allowed" }

def evaluateHubPolicy (parse : String → Option ℤ) (now : ℤ) (input : HubPolicyEvaluationInput) :
    HubPolicyDecision :=
  let (known, unknown) := normalizeRequiredCapabilities input.requiredCapabilities
  let base := baseDecision input known unknown
  match input.node with
  | none => deny base .nodeNotPaired "node is not paired"
  | some node =>
    if node.status = .revoked ∨ node.credentialState = .revoked then
      revoke base node .nodeRevoked "node credential was revoked"
    else if node.nodeId ≠ input.nodeId then
      deny (withPolicy base node) .nodeIdMismatch "policy node does not match requested node"
    else if input.peer.kind = .node ∧ input.peer.nodeId ≠ some input.nodeId then
      deny (withPolicy base node) .peerNodeMismatch
        "node credential cannot act as a different node"
    else if input.peer.kind = .node ∧
        (truthy input.peer.credentialId).any (· ≠ node.credentialId) then
      deny (withPolicy base node) .peerCredentialMismatch
        "node credential does not match the active credential for this node"
    else if input.scope.nodeId ≠ input.nodeId then
      deny (withPolicy base node) .scopeNodeMismatch
        "requested scope belongs to a different node"
    else if (truthy input.revokedAt).isSome then
      revoke (withPolicy base node) node .sessionRevoked "scoped session has been revoked"
    else if isExpired parse input.expiresAt now then
      revoke (withPolicy base node) node .sessionExpired "scoped session has expired"
    else
      match node.trust.policy with
      | none => deny (withPolicy base node) .aclMissing "node ACL policy is missing"
      | some policy =>
        if (truthy policy.revokedAt).isSome ∨ (truthy policy.supersededBy).isSome then
          revoke (withPolicy base node) node .aclRevoked "node ACL is revoked or superseded"
        else if ¬scopeMatchesPolicy policy.scope input.scope then
          deny (withPolicy base node) .scopeDenied "requested scope is outside the node ACL"
        else if unknown ≠ [] then
          deny (withPolicy base node) .unknownCapability
            "required capability is unknown to this policy version"
        else decideBits (withPolicy base node) policy input.scope known

/-! ## The audit write -/

/-- `classifySecurityAuditWriteFailure`: whether a write that failed closes. -/
def failsClosed (trustTier : Option RelayTrustTier) (requiredBits : List RelayCapabilityBit) :
    Bool :=
  trustTier = some .prod || requiredBits.any fun bit => highRiskCapabilities.contains bit.val

/-- `appendPolicyAudit`, by whether there is a sink and whether its write succeeds. -/
def appendPolicyAudit (written : Option Bool) (decision : HubPolicyDecision) :
    HubPolicyDecision :=
  if written = some false ∧ failsClosed decision.trustTier decision.requiredBits then
    deny { decision with
        grantedBits := []
        deniedBits := decision.requiredBits
        challengeBits := [] } .auditWriteFailedClosed
      ("Security audit write failed; operation must be denied for prod or destructive " ++
        "capability scope.")
  else decision

end RelayIde.Policy
