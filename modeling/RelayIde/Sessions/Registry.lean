import RelayIde.Library.Machine
import RelayIde.Library.Percent
import RelayIde.Library.Table
import RelayIde.Library.Text
import RelayIde.Security.Scope

/-!
# The Registry of Scoped Sessions

`InMemorySessionEnvelopeRegistry` of `server/session-envelope-registry.ts`: envelopes of sessions
by their global id, which nodes report again and again, and which are renewed and revoked.

- `Op`, `step` — runs
-/

namespace RelayIde.Sessions

open RelayIde.Library RelayIde.Security

/-! ## Envelopes -/

/-- What `Date` does: it parses text, and writes an instant so that it parses back. -/
structure Dates where
  parse : String → Option ℤ
  toISOString : ℤ → String
  parse_toISOString : ∀ s t, parse s = some t → parse (toISOString t) = some t
  toISOString_ne : ∀ t, toISOString t ≠ ""

/-- `createGlobalSessionId`; it throws on a blank part. -/
def createGlobalSessionId (nodeId localSessionId : String) : Option String :=
  if Text.isBlank nodeId || Text.isBlank localSessionId then none
  else some (Percent.joined nodeId localSessionId)

def expectedGlobalId (nodeId sessionId : String) : String := Percent.joined nodeId sessionId

inductive SessionIntentKind
  | localDevCompatibility | routedNodeSession
deriving DecidableEq

inductive SessionScopeKind
  | localCompatibility | nodeCwd | repo | worktree
deriving DecidableEq

/-- `SessionScope`; an absent path and a null one are compared as one. -/
structure SessionScope where
  kind : SessionScopeKind
  nodeId : String
  cwd : String
  repoPath : Option String := none
  worktreePath : Option String := none
deriving DecidableEq

inductive SessionPeerIdentity
  | localUser (id : String)
  | relayNode (nodeId : String) (credentialId : Option String)
  | agent (id adapter : String) (credentialId : Option String)
  | unknown (id : Option String)
deriving DecidableEq

structure SessionEnvelope where
  sessionId : String
  globalSessionId : String
  nodeId : String
  intent : SessionIntentKind
  scope : SessionScope
  issuedAt : String
  expiresAt : Option String
  revocable : Bool
  peerIdentity : SessionPeerIdentity

structure SessionEnvelopeRecord where
  envelope : SessionEnvelope
  revokedAt : Option String
  revokeReason : Option String

def SessionEnvelopeRecord.key (record : SessionEnvelopeRecord) : String :=
  record.envelope.globalSessionId

inductive ScopedSessionLifecycleState
  | active | expired | revoked
deriving DecidableEq

structure ScopedSessionSummary where
  envelope : SessionEnvelope
  status : ScopedSessionLifecycleState
  revokedAt : Option String
  revokeReason : Option String
  expired : Bool
  expiresInMs : Option ℤ

/-- The errors of `validate` and `renew`, with their details. -/
inductive SessionError
  | ambiguousLocalSessionId (sessionId : String) (localMatches : ℕ)
  | nodeMismatch (expectedNodeId : String) (actualNodeId : Option String)
  | notFound (sessionId : String) (nodeId globalSessionId : Option String)
  | idMismatch (expectedSessionId actualSessionId : String)
  | globalIdMismatch (expectedGlobalSessionId actualGlobalSessionId : String)
  | revoked (revokedAt revokeReason : Option String)
  | expired (expiresAt : Option String)
  | nonRenewable (sessionId nodeId : String)
  | renewalExpiresInPast (expiresAt : String)

/-- Instants are compared by cases on whether there is one. -/
instance decidableLEInstant : DecidableLE (WithBot ℤ)
  | none, _ => isTrue bot_le
  | some a, some b => decidable_of_iff (a ≤ b) WithBot.coe_le_coe.symm
  | some a, none => isFalse (WithBot.not_coe_le_bot a)

section Records

variable (dates : Dates)

/-- No expiry, or when; text that is no date has expired since ever. -/
def parseExpiryMs (expiresAt : Option String) : Option (WithBot ℤ) :=
  (truthy expiresAt).map fun text =>
    match dates.parse text with
    | some ms => (ms : WithBot ℤ)
    | none => ⊥

def lifecycleState (record : SessionEnvelopeRecord) (now : ℤ) : ScopedSessionLifecycleState :=
  if (truthy record.revokedAt).isSome then .revoked
  else
    match parseExpiryMs dates record.envelope.expiresAt with
    | some expiryMs => if expiryMs ≤ (now : WithBot ℤ) then .expired else .active
    | none => .active

/-- What is left of a session's time, and nothing of one that has expired since ever. -/
def remaining (expiryMs : WithBot ℤ) (now : ℤ) : ℤ :=
  match expiryMs with
  | some ms => max 0 (ms - now)
  | none => 0

def lifecycleSummary (record : SessionEnvelopeRecord) (now : ℤ) : ScopedSessionSummary where
  envelope := record.envelope
  status := lifecycleState dates record now
  revokedAt := record.revokedAt
  revokeReason := record.revokeReason
  expired := lifecycleState dates record now = .expired
  expiresInMs := (parseExpiryMs dates record.envelope.expiresAt).map (remaining · now)

def revokeRecord (reason : Option String) (now : ℤ) (record : SessionEnvelopeRecord) :
    SessionEnvelopeRecord :=
  { record with
    revokedAt := some (record.revokedAt.getD (dates.toISOString now))
    revokeReason := some (reason.getD (record.revokeReason.getD "operator-revoked")) }

def sameAuthorityForExpiryPreservation (previous incoming : SessionEnvelope) : Bool :=
  previous.sessionId = incoming.sessionId ∧
    previous.globalSessionId = incoming.globalSessionId ∧
    previous.nodeId = incoming.nodeId ∧
    previous.issuedAt = incoming.issuedAt ∧
    previous.revocable = incoming.revocable ∧
    previous.intent = incoming.intent ∧
    previous.scope = incoming.scope ∧
    previous.peerIdentity = incoming.peerIdentity

def preserveRenewedExpiry (previous incoming : SessionEnvelope) : SessionEnvelope :=
  if sameAuthorityForExpiryPreservation previous incoming then
    match truthy previous.expiresAt, truthy incoming.expiresAt with
    | some previousAt, some incomingAt =>
      match dates.parse previousAt, dates.parse incomingAt with
      | some previousMs, some incomingMs =>
        if previousMs > incomingMs then { incoming with expiresAt := previous.expiresAt }
        else incoming
      | _, _ => incoming
    | _, _ => incoming
  else incoming

end Records

/-! ## Operations -/

/-- The records by their global session id, in the order they came. -/
abbrev Registry := Table SessionEnvelopeRecord.key

structure ValidationContext where
  sessionId : String
  nodeId : Option String := none
  globalSessionId : Option String := none

structure ListOptions where
  includeRevoked : Bool := false
  includeExpired : Bool := true

section Operations

variable (dates : Dates) (records : Registry)

/-- `create`, of an envelope that is normalized. -/
def create (envelope : SessionEnvelope) : Registry := records.set ⟨envelope, none, none⟩

def upsert (envelope : SessionEnvelope) : Registry :=
  match records.find? envelope.globalSessionId with
  | some previous =>
    records.set { previous with envelope := preserveRenewedExpiry dates previous.envelope envelope }
  | none => records.set ⟨envelope, none, none⟩

def readRecord (sessionIdOrGlobalId : String) (nodeId : Option String) :
    Option SessionEnvelopeRecord :=
  match truthy nodeId with
  | some nodeId =>
    (records.find? (expectedGlobalId nodeId sessionIdOrGlobalId)).or
      (records.rows.find? fun record =>
        record.envelope.nodeId = nodeId ∧
          (record.envelope.sessionId = sessionIdOrGlobalId ∨
            record.envelope.globalSessionId = sessionIdOrGlobalId))
  | none =>
    (records.find? sessionIdOrGlobalId).or
      (records.rows.find? fun record => record.envelope.sessionId = sessionIdOrGlobalId)

/-- `list`, before it is sorted by the time of issue. -/
def list (options : ListOptions) (now : ℤ) : List SessionEnvelopeRecord :=
  records.rows.filter fun record =>
    match lifecycleState dates record now with
    | .revoked => options.includeRevoked
    | .expired => options.includeExpired
    | .active => true

def listActive (now : ℤ) : List SessionEnvelope :=
  (list dates records { includeRevoked := false, includeExpired := false } now).map (·.envelope)

def listSummaries (options : ListOptions) (now : ℤ) : List ScopedSessionSummary :=
  (list dates records options now).map (lifecycleSummary dates · now)

def countLocalSessionId (sessionId : String) : ℕ :=
  (records.rows.filter fun record => record.envelope.sessionId = sessionId).length

/-- The record that `revoke` names. -/
def toRevoke (sessionIdOrGlobalId : String) (nodeId : Option String) :
    Option SessionEnvelopeRecord :=
  match truthy nodeId with
  | some _ => readRecord records sessionIdOrGlobalId nodeId
  | none => records.find? sessionIdOrGlobalId

def revoke (sessionIdOrGlobalId : String) (nodeId reason : Option String) (now : ℤ) : Registry :=
  match toRevoke records sessionIdOrGlobalId nodeId with
  | some record => records.set (revokeRecord dates reason now record)
  | none => records

/-- The records that `revokeForNode` revokes: those of the node that are active. -/
def isRevokedForNode (nodeId : String) (now : ℤ) (record : SessionEnvelopeRecord) : Bool :=
  record.envelope.nodeId = nodeId ∧ lifecycleState dates record now = .active

def revokeForNode (nodeId : String) (reason : Option String) (now : ℤ) : Registry :=
  records.updateWhere (isRevokedForNode dates nodeId now) (revokeRecord dates reason now)
    fun _ => rfl

def validate (context : ValidationContext) (now : ℤ) :
    Except SessionError SessionEnvelopeRecord :=
  let localMatches := countLocalSessionId records context.sessionId
  if truthy context.nodeId = none ∧ records.find? context.sessionId = none ∧ 1 < localMatches then
    .error (.ambiguousLocalSessionId context.sessionId localMatches)
  else
    match readRecord records context.sessionId context.nodeId with
    | none =>
      match (truthy context.nodeId).bind fun _ => readRecord records context.sessionId none with
      | some mismatched => .error (.nodeMismatch mismatched.envelope.nodeId context.nodeId)
      | none => .error (.notFound context.sessionId context.nodeId context.globalSessionId)
    | some record =>
      if ∃ nodeId, truthy context.nodeId = some nodeId ∧ record.envelope.nodeId ≠ nodeId then
        .error (.nodeMismatch record.envelope.nodeId context.nodeId)
      else if record.envelope.sessionId ≠ context.sessionId then
        .error (.idMismatch record.envelope.sessionId context.sessionId)
      else
        match (truthy context.globalSessionId).filter (· ≠ record.envelope.globalSessionId) with
        | some actual => .error (.globalIdMismatch record.envelope.globalSessionId actual)
        | none =>
          match lifecycleState dates record now with
          | .revoked => .error (.revoked record.revokedAt record.revokeReason)
          | .expired => .error (.expired record.envelope.expiresAt)
          | .active => .ok record

/-- The record `renew` extends, and the time it extends it to. -/
def toRenew (sessionId : String) (nodeId : Option String) (expiresAt : String) (now : ℤ) :
    Except SessionError (SessionEnvelopeRecord × ℤ) :=
  match validate dates records { sessionId, nodeId := truthy nodeId } now with
  | .error error => .error error
  | .ok record =>
    if record.envelope.revocable = false then
      .error (.nonRenewable record.envelope.sessionId record.envelope.nodeId)
    else
      match (dates.parse expiresAt).filter (now < ·) with
      | none => .error (.renewalExpiresInPast expiresAt)
      | some expiryMs => .ok (record, expiryMs)

def renew (sessionId : String) (nodeId : Option String) (expiresAt : String) (now : ℤ) :
    Registry :=
  match toRenew dates records sessionId nodeId expiresAt now with
  | .error _ => records
  | .ok (record, expiryMs) =>
    records.set { record with
      envelope := { record.envelope with expiresAt := some (dates.toISOString expiryMs) } }

def delete (sessionIdOrGlobalId : String) (nodeId : Option String) : Registry :=
  match readRecord records sessionIdOrGlobalId nodeId with
  | some found => records.deleteWhere fun record => record.key = found.key
  | none => records

end Operations

/-! ## Runs -/

inductive Op
  | create (envelope : SessionEnvelope)
  | upsert (envelope : SessionEnvelope)
  | renew (sessionId : String) (nodeId : Option String) (expiresAt : String) (now : ℤ)
  | revoke (sessionIdOrGlobalId : String) (nodeId reason : Option String) (now : ℤ)
  | revokeForNode (nodeId : String) (reason : Option String) (now : ℤ)
  | delete (sessionIdOrGlobalId : String) (nodeId : Option String)
  | validate (context : ValidationContext) (now : ℤ)
  | list (options : ListOptions) (now : ℤ)

def step (dates : Dates) (records : Registry) : Op → Registry
  | .create envelope => create records envelope
  | .upsert envelope => upsert dates records envelope
  | .renew sessionId nodeId expiresAt now => renew dates records sessionId nodeId expiresAt now
  | .revoke sessionIdOrGlobalId nodeId reason now =>
    revoke dates records sessionIdOrGlobalId nodeId reason now
  | .revokeForNode nodeId reason now => revokeForNode dates records nodeId reason now
  | .delete sessionIdOrGlobalId nodeId => delete records sessionIdOrGlobalId nodeId
  | .validate _ _ | .list _ _ => records

/-- The name of a session is made of those of its node and its own. -/
def SessionEnvelope.IsScoped (envelope : SessionEnvelope) : Prop :=
  createGlobalSessionId envelope.nodeId envelope.sessionId = some envelope.globalSessionId

instance (envelope : SessionEnvelope) : Decidable envelope.IsScoped :=
  inferInstanceAs (Decidable (_ = _))

def Op.IsScoped : Op → Prop
  | .create envelope | .upsert envelope => envelope.IsScoped
  | _ => True

instance : DecidablePred Op.IsScoped
  | .create envelope | .upsert envelope => inferInstanceAs (Decidable envelope.IsScoped)
  | .renew _ _ _ _ | .revoke _ _ _ _ | .revokeForNode _ _ _ | .delete _ _ | .validate _ _
  | .list _ _ => inferInstanceAs (Decidable True)

end RelayIde.Sessions
