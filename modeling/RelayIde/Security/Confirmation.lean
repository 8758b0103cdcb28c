import RelayIde.Audit.Entry
import RelayIde.Library.Machine
import RelayIde.Library.Table
import RelayIde.Security.Scope

/-!
# Confirmation Challenges

Models the challenge store of `server/confirmation-challenges.ts`: a high-risk operation is held
back behind a challenge, a second session approves it, and the requester redeems the token once.

- `World`, `step` — a run of calls, each at its own time

`redemption_of_run` says what stands behind a redemption.
-/

namespace RelayIde.Security.Confirmation

open RelayIde.Library List
open RelayIde.Library.Json
open RelayIde.Library.JsText (utf16)
open RelayIde.Audit (stableStringify)

/-! ## Challenges -/

/-- `ConfirmationChallengeStatus`. -/
inductive Status
  | pending | approved | denied | revoked | expired | redeemed | invalidated
deriving DecidableEq

def Status.text : Status → String
  | .pending => "pending"
  | .approved => "approved"
  | .denied => "denied"
  | .revoked => "revoked"
  | .expired => "expired"
  | .redeemed => "redeemed"
  | .invalidated => "invalidated"

/-- `ConfirmationReasonCode`. -/
inductive ReasonCode
  | required | approved | denied | deniedRevoke | expired | alreadyUsed | sameSession
  | paramMismatch | notFound | notApproved | tokenInvalid | requesterMismatch | contextMismatch
  | sameActor | sameCredential | approvalTargetInvalid

/-- The values of `HighRiskApprovalOutcome` that the store sets. -/
inductive Outcome
  | challengeCreated | approvalTargetInvalid | denied | approved | expired | redeemed
  | reuseDenied | mismatchDenied | auditWriteFailed

/-- `HighRiskApprovalActorKind`. -/
inductive ActorKind
  | browserSession | scopedActor | human | node | system
deriving DecidableEq

/-- The identity of a requester or an approver, as far as the store compares it. -/
structure Identity where
  kind : ActorKind
  actorType : Option String := none
  actorId : Option String := none
  credentialId : Option String := none
  sessionId : Option String := none

/-- `HighRiskApprovalTarget`. -/
inductive TargetKind
  | human | operator | session | external

structure ApprovalTarget where
  kind : TargetKind
  id : Option String := none
  sessionId : Option String := none

/-- The fields of `HubPolicyDecision` that a redemption compares. -/
structure PolicyDecision (Num : Type) where
  nodeId : String
  action : String
  target : Option String
  sessionId : Option String
  requiredBits : List RelayCapabilityBit
  challengeBits : List RelayCapabilityBit
  scope : Json Num

/-- What a challenge is about; no call changes it. -/
structure Terms where
  challengeId : String
  requesterAuthSessionHash : String
  requester : Identity
  approvalTarget : ApprovalTarget
  nodeId : String
  action : String
  target : Option String
  sessionId : Option String
  requiredBits : List RelayCapabilityBit
  challengeBits : List RelayCapabilityBit
  canonicalParamsHash : JsText
  scopeHash : JsText
  createdAt : ℤ
  expiresAt : ℤ
  maxFailedRedemptions : ℕ

/-- `ConfirmationChallenge`. -/
structure Challenge extends Terms where
  status : Status
  approverAuthSessionHash : Option String := none
  approver : Option Identity := none
  approvedAt : Option ℤ := none
  tokenExpiresAt : Option ℤ := none
  tokenHash : Option JsText := none
  requesterToken : Option String := none
  redeemedAt : Option ℤ := none
  failedRedemptions : ℕ := 0
  reasonCode : ReasonCode
  message : String
  outcome : Outcome

/-- `ConfirmationChallengeStoreOptions`, without the random sources. -/
structure Options where
  challengeTtlMs : ℤ := 5 * 60 * 1000
  tokenTtlMs : ℤ := 60 * 1000
  maxFailedRedemptions : ℕ := 3
  maxChallenges : ℕ := 1000

/-- The challenges in the order of the map. -/
abbrev Store := Table (fun c : Challenge => c.challengeId)

/-- Assignments to the fields of a stored challenge. -/
def modify (s : Store) (challengeId : String) (f : Challenge → Challenge)
    (hf : ∀ c, (f c).challengeId = c.challengeId) : Store :=
  s.updateWhere (fun c => decide (c.challengeId = challengeId)) f hf

/-- `ConfirmationFailure`. -/
structure Failure where
  reasonCode : ReasonCode
  message : String

/-! ## Digests and comparisons -/

section Digests

variable {Num : Type} (sha256Hex : JsText → JsText) (F : NumberFormat Num)

def hashToken (token : String) : JsText :=
  sha256Hex (utf16 ("relay-confirmation-token:" ++ token))

def hashCanonicalParams (params : Json Num) : JsText :=
  sha256Hex (stableStringify F params)

def hashIdentity (value : String) : JsText :=
  sha256Hex (utf16 ("relay-high-risk-approval:" ++ value))

/-- Two optional texts are both given, not empty and equal by their digests. -/
def sameHashed (requester approver : Option String) : Bool :=
  match truthy requester, truthy approver with
  | some r, some a => hashIdentity sha256Hex r = hashIdentity sha256Hex a
  | _, _ => false

def sameHighRiskActor (requester approver : Identity) : Bool :=
  requester.actorType = approver.actorType &&
    sameHashed sha256Hex requester.actorId approver.actorId

def sameHighRiskCredential (requester approver : Identity) : Bool :=
  sameHashed sha256Hex requester.credentialId approver.credentialId

def sameHighRiskSession (requester approver : Identity) : Bool :=
  sameHashed sha256Hex requester.sessionId approver.sessionId

/-- `challengeContextMatches`.  The stable texts of two lists of capability bits are equal exactly
    when the lists are. -/
def challengeContextMatches (c : Challenge) (decision : PolicyDecision Num) : Bool :=
  c.nodeId = decision.nodeId && c.action = decision.action && c.target = decision.target &&
    c.sessionId = decision.sessionId && c.requiredBits = decision.requiredBits &&
    c.challengeBits = decision.challengeBits &&
    c.scopeHash = sha256Hex (stableStringify F decision.scope)

end Digests

def requiresStructuredApprover (requester : Identity) : Bool :=
  requester.kind = .scopedActor || (truthy requester.actorId).isSome ||
    (truthy requester.credentialId).isSome

def approverSatisfiesTarget (approver : Identity) (target : ApprovalTarget) : Bool :=
  match target.kind with
  | .human | .operator =>
    approver.kind = .human && ((truthy target.id).isNone || approver.actorId = target.id)
  | .session => (truthy target.sessionId).isSome && approver.sessionId = target.sessionId
  | .external => true

/-! ## Expiry and pruning -/

/-- `isTerminalChallengeStatus`. -/
def isTerminal (status : Status) : Bool :=
  status ≠ .pending && status ≠ .approved

def challengeExpired (c : Challenge) (now : ℤ) : Bool :=
  c.expiresAt ≤ now

def tokenExpired (c : Challenge) (now : ℤ) (includeToken : Bool) : Bool :=
  includeToken && c.tokenExpiresAt.any (fun ms => decide (ms ≤ now))

/-- Whether `expireIfNeeded` expires a challenge. -/
def expires (c : Challenge) (now : ℤ) (includeToken : Bool) : Bool :=
  !isTerminal c.status && (challengeExpired c now || tokenExpired c now includeToken)

/-- Helper: the assignments of `expireIfNeeded`. -/
def Challenge.expire (now : ℤ) (includeToken : Bool) (c : Challenge) : Challenge :=
  { c with
    status := .expired
    reasonCode := .expired
    outcome := .expired
    requesterToken := none
    message :=
      if tokenExpired c now includeToken then "confirmation token expired"
      else "confirmation challenge expired" }

section
variable (now : ℤ) (includeToken : Bool) (c : Challenge)

@[simp] theorem Challenge.expire_challengeId :
    (c.expire now includeToken).challengeId = c.challengeId := rfl

/-- `expireIfNeeded` on one challenge. -/
def expireIfNeeded (now : ℤ) (includeToken : Bool) (c : Challenge) : Challenge :=
  if expires c now includeToken then c.expire now includeToken else c

theorem expireIfNeeded_challengeId :
    (expireIfNeeded now includeToken c).challengeId = c.challengeId := by
  rw [expireIfNeeded]
  split <;> rfl

end

def pruneExpired (s : Store) (now : ℤ) : Store :=
  s.updateWhere (fun _ => true) (expireIfNeeded now true) (expireIfNeeded_challengeId now true)

/-- When a challenge was last decided. -/
def finishedAt (c : Challenge) : ℤ :=
  ((c.redeemedAt <|> c.approvedAt).getD c.expiresAt)

def evictWhile (tooMany : ℕ → Bool) : ℕ → Store → Store
  | 0, s => s
  | turns + 1, s =>
    if tooMany s.rows.length then
      match s.rows.find? (fun c => isTerminal c.status) with
      | none => s
      | some c =>
        evictWhile tooMany turns (s.deleteWhere fun d => decide (d.challengeId = c.challengeId))
    else s

def pruneStoredChallenges (o : Options) (s : Store) (now : ℤ) : Store :=
  let cutoff := now - max (max o.challengeTtlMs o.tokenTtlMs) 1
  let kept := (pruneExpired s now).deleteWhere fun c =>
    isTerminal c.status && decide (finishedAt c < cutoff)
  evictWhile (fun size => decide (max 1 o.maxChallenges < size)) kept.rows.length kept

/-- `ensureCapacityForNewChallenge`. -/
def ensureCapacity (o : Options) (s : Store) : Store :=
  evictWhile (fun size => decide (max 1 o.maxChallenges ≤ size)) s.rows.length s

/-! ## The calls -/

section Calls

variable {Num : Type} (sha256Hex : JsText → JsText) (F : NumberFormat Num) (o : Options)

/-- The input of `createChallenge`. -/
structure CreateInput (Num : Type) where
  decision : PolicyDecision Num
  requesterAuthSessionHash : String
  requester : Option Identity := none
  approvalTarget : Option ApprovalTarget := none
  canonicalParams : Json Num

def newTerms (input : CreateInput Num) (now : ℤ) (randomId : String) : Terms where
  challengeId := randomId
  requesterAuthSessionHash := input.requesterAuthSessionHash
  requester := input.requester.getD { kind := .browserSession }
  approvalTarget := input.approvalTarget.getD { kind := .human }
  nodeId := input.decision.nodeId
  action := input.decision.action
  target := input.decision.target
  sessionId := truthy input.decision.sessionId
  requiredBits := input.decision.requiredBits
  challengeBits := input.decision.challengeBits
  canonicalParamsHash := hashCanonicalParams sha256Hex F input.canonicalParams
  scopeHash := sha256Hex (stableStringify F input.decision.scope)
  createdAt := now
  expiresAt := now + o.challengeTtlMs
  maxFailedRedemptions := o.maxFailedRedemptions

def newChallenge (input : CreateInput Num) (now : ℤ) (randomId : String) : Challenge :=
  { newTerms sha256Hex F o input now randomId with
    status := .pending
    reasonCode := .required
    message := "confirmation required before Relay routes this operation to the node"
    outcome := .challengeCreated }

/-- `createChallenge`; `none` is the capacity error.  The id drawn for a challenge is a new one. -/
def createChallenge (s : Store) (input : CreateInput Num) (now : ℤ) (randomId : String) :
    Option Challenge × Store :=
  let room := ensureCapacity o (pruneStoredChallenges o s now)
  if max 1 o.maxChallenges ≤ room.rows.length then (none, room)
  else
    let challenge := newChallenge sha256Hex F o input now randomId
    (some challenge, room.insert challenge)

/-- `ConfirmationDecision`. -/
inductive Decision
  | approve | deny | denyRevoke
deriving DecidableEq

/-- The input of `approveChallenge`. -/
structure ApproveInput where
  challengeId : String
  approverAuthSessionHash : String
  approver : Option Identity := none
  decision : Decision

/-- Helper: the assignments of `failChallenge`. -/
def Challenge.fail (reasonCode : ReasonCode) (message : String) (outcome : Option Outcome)
    (c : Challenge) : Challenge :=
  { c with reasonCode, message, outcome := outcome.getD c.outcome }

@[simp] theorem Challenge.fail_challengeId (reasonCode : ReasonCode) (message : String)
    (outcome : Option Outcome) (c : Challenge) :
    (c.fail reasonCode message outcome).challengeId = c.challengeId := rfl

/-- The checks of `approveChallenge` on the approver, in their order, with what `failChallenge`
    writes for the first that fails. -/
def approverRefusal (c : Challenge) (input : ApproveInput) :
    Option (ReasonCode × String × Option Outcome) :=
  if c.requesterAuthSessionHash = input.approverAuthSessionHash then
    some (.sameSession,
      "the requesting browser/auth session cannot approve its own challenge", none)
  else if requiresStructuredApprover c.requester && input.approver.isNone then
    some (.approvalTargetInvalid,
      "approval requires a distinct human/operator approver identity",
      some .approvalTargetInvalid)
  else if input.approver.any (sameHighRiskActor sha256Hex c.requester) then
    some (.sameActor,
      "the requesting autonomous actor cannot approve its own high-risk challenge",
      some .approvalTargetInvalid)
  else if input.approver.any (sameHighRiskCredential sha256Hex c.requester) then
    some (.sameCredential,
      "the requesting scoped credential cannot approve its own high-risk challenge",
      some .approvalTargetInvalid)
  else if input.approver.any (sameHighRiskSession sha256Hex c.requester) then
    some (.sameSession, "the requesting session cannot approve its own high-risk challenge",
      some .approvalTargetInvalid)
  else if input.approver.any
    (fun approver => !approverSatisfiesTarget approver c.approvalTarget) then
    some (.approvalTargetInvalid, "approver does not match the challenge approval target",
      some .approvalTargetInvalid)
  else none

/-- Helper: the assignments of a denial. -/
def Challenge.deny (input : ApproveInput) (now : ℤ) (c : Challenge) : Challenge :=
  { c with
    status := if input.decision = .deny then .denied else .revoked
    reasonCode := if input.decision = .deny then .denied else .deniedRevoke
    message :=
      if input.decision = .deny then
        "confirmation challenge was denied by a distinct authenticated session"
      else "confirmation challenge was denied and the grant should be revoked"
    approverAuthSessionHash := some input.approverAuthSessionHash
    approver := input.approver <|> c.approver
    approvedAt := some now
    outcome := .denied }

variable (input : ApproveInput) (now : ℤ)

@[simp] theorem Challenge.deny_challengeId (c : Challenge) :
    (c.deny input now).challengeId = c.challengeId := rfl

/-- Helper: the assignments of an approval. -/
def Challenge.approve (input : ApproveInput) (now : ℤ) (token : String) (c : Challenge) :
    Challenge :=
  { c with
    status := .approved
    reasonCode := .approved
    message := "confirmation challenge approved by a distinct authenticated session"
    approverAuthSessionHash := some input.approverAuthSessionHash
    approver := input.approver <|> c.approver
    approvedAt := some now
    tokenExpiresAt := some (now + o.tokenTtlMs)
    tokenHash := some (hashToken sha256Hex token)
    requesterToken := some token
    outcome := .approved }

@[simp] theorem Challenge.approve_challengeId (token : String)
    (c : Challenge) : (c.approve sha256Hex o input now token).challengeId = c.challengeId := rfl

/-- `confirmation challenge is …`. -/
def notApproved (status : Status) : Failure :=
  ⟨.notApproved, "confirmation challenge is " ++ status.text⟩

/-- What `expireIfNeeded` reports. -/
def expiryFailure (c : Challenge) (now : ℤ) (includeToken : Bool) : Failure :=
  ⟨.expired, (c.expire now includeToken).message⟩

/-- `approveChallenge`, with the token. -/
def approveChallenge (s : Store) (input : ApproveInput) (now : ℤ) (randomToken : String) :
    Except Failure String × Store :=
  match s.find? input.challengeId with
  | none => (.error ⟨.notFound, "confirmation challenge not found"⟩, s)
  | some c =>
    if expires c now false then
      (.error (expiryFailure c now false),
        modify s c.challengeId (.expire now false) (Challenge.expire_challengeId now false))
    else if c.status ≠ .pending then (.error (notApproved c.status), s)
    else
      match approverRefusal sha256Hex c input with
      | some (reasonCode, message, outcome) =>
        (.error ⟨reasonCode, message⟩,
          modify s c.challengeId (.fail reasonCode message outcome)
            (Challenge.fail_challengeId reasonCode message outcome))
      | none =>
        if input.decision ≠ .approve then
          (.error ⟨(c.deny input now).reasonCode, (c.deny input now).message⟩,
            modify s c.challengeId (.deny input now) (Challenge.deny_challengeId input now))
        else
          (.ok randomToken,
            modify s c.challengeId (.approve sha256Hex o input now randomToken)
              (Challenge.approve_challengeId sha256Hex o input now randomToken))

/-- The input of `redeemToken`. -/
structure RedeemInput (Num : Type) where
  token : String
  requesterAuthSessionHash : String
  decision : PolicyDecision Num
  canonicalParams : Json Num

/-- Helper: the assignments of `invalidateRedemptionChallenge`. -/
def Challenge.invalidateRedemption (reasonCode : ReasonCode) (message : String) (c : Challenge) :
    Challenge :=
  { c with
    failedRedemptions := c.failedRedemptions + 1
    status := .invalidated
    reasonCode
    message
    outcome := .mismatchDenied
    tokenExpiresAt := none
    tokenHash := none
    requesterToken := none }

@[simp] theorem Challenge.invalidateRedemption_challengeId (reasonCode : ReasonCode)
    (message : String) (c : Challenge) :
    (c.invalidateRedemption reasonCode message).challengeId = c.challengeId := rfl

/-- Helper: the assignment of a repeated redemption. -/
def Challenge.reuse (c : Challenge) : Challenge :=
  { c with outcome := .reuseDenied }

@[simp] theorem Challenge.reuse_challengeId (c : Challenge) :
    c.reuse.challengeId = c.challengeId := rfl

/-- Helper: the assignments of a redemption. -/
def Challenge.redeem (now : ℤ) (c : Challenge) : Challenge :=
  { c with
    status := .redeemed
    redeemedAt := some now
    reasonCode := .approved
    message := "confirmation token redeemed"
    outcome := .redeemed
    requesterToken := none }

@[simp] theorem Challenge.redeem_challengeId (now : ℤ) (c : Challenge) :
    (c.redeem now).challengeId = c.challengeId := rfl

def contextMismatchMessage : String :=
  "confirmation token context drift invalidated the approved challenge"

def paramMismatchMessage : String :=
  "confirmation token parameter drift invalidated the approved challenge"

def requesterMismatchMessage : String :=
  "confirmation token can only be redeemed by the original requesting auth session"

def approverRedeemsMessage : String :=
  "the approving browser/auth session cannot redeem its own approval"

/-- `redeemToken`, with the redeemed challenge. -/
def redeemToken (s : Store) (input : RedeemInput Num) (now : ℤ) :
    Except Failure Challenge × Store :=
  match s.rows.find? (fun c => c.tokenHash = some (hashToken sha256Hex input.token)) with
  | none => (.error ⟨.tokenInvalid, "confirmation token is invalid"⟩, s)
  | some c =>
    if expires c now true then
      (.error (expiryFailure c now true),
        modify s c.challengeId (.expire now true) (Challenge.expire_challengeId now true))
    else if c.status = .redeemed then
      (.error ⟨.alreadyUsed, "confirmation token was already used"⟩,
        modify s c.challengeId .reuse Challenge.reuse_challengeId)
    else if c.status ≠ .approved then (.error (notApproved c.status), s)
    else if c.requesterAuthSessionHash ≠ input.requesterAuthSessionHash then
      (.error ⟨.requesterMismatch, requesterMismatchMessage⟩,
        modify s c.challengeId (.fail .requesterMismatch requesterMismatchMessage none)
          (Challenge.fail_challengeId .requesterMismatch requesterMismatchMessage none))
    else if c.approverAuthSessionHash = some input.requesterAuthSessionHash then
      (.error ⟨.sameSession, approverRedeemsMessage⟩,
        modify s c.challengeId (.fail .sameSession approverRedeemsMessage none)
          (Challenge.fail_challengeId .sameSession approverRedeemsMessage none))
    else if challengeContextMatches sha256Hex F c input.decision = false then
      (.error ⟨.contextMismatch, contextMismatchMessage⟩,
        modify s c.challengeId (.invalidateRedemption .contextMismatch contextMismatchMessage)
          (Challenge.invalidateRedemption_challengeId .contextMismatch contextMismatchMessage))
    else if c.canonicalParamsHash ≠ hashCanonicalParams sha256Hex F input.canonicalParams then
      (.error ⟨.paramMismatch, paramMismatchMessage⟩,
        modify s c.challengeId (.invalidateRedemption .paramMismatch paramMismatchMessage)
          (Challenge.invalidateRedemption_challengeId .paramMismatch paramMismatchMessage))
    else
      (.ok (c.redeem now), modify s c.challengeId (.redeem now) (Challenge.redeem_challengeId now))

def getRequesterToken (s : Store) (challengeId requesterAuthSessionHash : String) (now : ℤ) :
    Except Failure String × Store :=
  match s.find? challengeId with
  | none => (.error ⟨.notFound, "confirmation challenge not found"⟩, s)
  | some c =>
    if expires c now true then
      (.error (expiryFailure c now true),
        modify s c.challengeId (.expire now true) (Challenge.expire_challengeId now true))
    else if c.requesterAuthSessionHash ≠ requesterAuthSessionHash then
      (.error ⟨.requesterMismatch,
        "confirmation token can only be picked up by the original requesting auth session"⟩, s)
    else if c.status = .redeemed then
      (.error ⟨.alreadyUsed, "confirmation token was already used"⟩, s)
    else if c.status ≠ .approved then (.error (notApproved c.status), s)
    else
      match truthy c.requesterToken with
      | none => (.error ⟨.tokenInvalid, "confirmation token is no longer available"⟩, s)
      | some token => (.ok token, s)

/-- Helper: the assignments of `invalidateChallenge`. -/
def Challenge.invalidate (reasonCode : ReasonCode) (message : String) (now : ℤ) (c : Challenge) :
    Challenge :=
  { c with
    status := .invalidated
    reasonCode
    message
    outcome :=
      if message.toList.tails.any fun rest => "audit write failed".toList.isPrefixOf rest then
        .auditWriteFailed
      else .mismatchDenied
    approvedAt := some now
    tokenExpiresAt := none
    tokenHash := none
    requesterToken := none }

@[simp] theorem Challenge.invalidate_challengeId (reasonCode : ReasonCode) (message : String)
    (now : ℤ) (c : Challenge) :
    (c.invalidate reasonCode message now).challengeId = c.challengeId := rfl

def invalidateChallenge (s : Store) (challengeId : String) (reasonCode : ReasonCode)
    (message : String) (now : ℤ) : Store :=
  modify s challengeId (.invalidate reasonCode message now)
    (Challenge.invalidate_challengeId reasonCode message now)

end Calls

/-! ## Runs -/

inductive Event (Num : Type)
  | created (challengeId : String) (input : CreateInput Num) (now : ℤ)
  | approved (challengeId : String) (input : ApproveInput) (now : ℤ)
  | redeemed (challengeId : String)

def Event.challengeId {Num : Type} : Event Num → String
  | .created id _ _ => id
  | .approved id _ _ => id
  | .redeemed id => id

structure World (Num : Type) where
  store : Store
  events : List (Event Num)

/-- Before the first call. -/
def World.empty (Num : Type) : World Num := ⟨Table.empty, []⟩

inductive Op (Num : Type)
  | createChallenge (input : CreateInput Num) (now : ℤ) (randomId : String)
  | approveChallenge (input : ApproveInput) (now : ℤ) (randomToken : String)
  | redeemToken (input : RedeemInput Num) (now : ℤ)
  | getRequesterToken (challengeId requesterAuthSessionHash : String) (now : ℤ)
  | invalidateChallenge (challengeId : String) (reasonCode : ReasonCode) (message : String)
      (now : ℤ)
  /-- `getChallenge` and `listChallenges`. -/
  | prune (now : ℤ)

section Runs

variable {Num : Type} (sha256Hex : JsText → JsText) (F : NumberFormat Num) (o : Options)

/-- One call and its report. -/
def step (w : World Num) : Op Num → World Num
  | .createChallenge input now randomId =>
    match createChallenge sha256Hex F o w.store input now randomId with
    | (none, s) => ⟨s, w.events⟩
    | (some c, s) => ⟨s, w.events ++ [.created c.challengeId input now]⟩
  | .approveChallenge input now randomToken =>
    match approveChallenge sha256Hex o w.store input now randomToken with
    | (.error _, s) => ⟨s, w.events⟩
    | (.ok _, s) => ⟨s, w.events ++ [.approved input.challengeId input now]⟩
  | .redeemToken input now =>
    match redeemToken sha256Hex F w.store input now with
    | (.error _, s) => ⟨s, w.events⟩
    | (.ok c, s) => ⟨s, w.events ++ [.redeemed c.challengeId]⟩
  | .getRequesterToken challengeId requesterAuthSessionHash now =>
    ⟨(getRequesterToken w.store challengeId requesterAuthSessionHash now).2, w.events⟩
  | .invalidateChallenge challengeId reasonCode message now =>
    ⟨invalidateChallenge w.store challengeId reasonCode message now, w.events⟩
  | .prune now => ⟨pruneStoredChallenges o w.store now, w.events⟩

/-- Random ids are distinct: none is drawn twice in a run. -/
def FreshId (w : World Num) : Op Num → Prop
  | .createChallenge _ _ randomId => ∀ e ∈ w.events, e.challengeId ≠ randomId
  | _ => True

structure Distinct (creation : CreateInput Num) (approval : ApproveInput) : Prop where
  authSession : approval.approverAuthSessionHash ≠ creation.requesterAuthSessionHash
  actor : ∀ requester approver id, creation.requester = some requester →
    approval.approver = some approver → requester.actorId = some id → id ≠ "" →
    requester.actorType = approver.actorType → approver.actorId ≠ some id
  credential : ∀ requester approver id, creation.requester = some requester →
    approval.approver = some approver → requester.credentialId = some id → id ≠ "" →
    approver.credentialId ≠ some id
  session : ∀ requester approver id, creation.requester = some requester →
    approval.approver = some approver → requester.sessionId = some id → id ≠ "" →
    approver.sessionId ≠ some id

structure SameContext (created redeemed : PolicyDecision Num) : Prop where
  nodeId : redeemed.nodeId = created.nodeId
  action : redeemed.action = created.action
  target : redeemed.target = created.target
  sessionId : redeemed.sessionId = truthy created.sessionId
  requiredBits : redeemed.requiredBits = created.requiredBits
  challengeBits : redeemed.challengeBits = created.challengeBits
  scope : sha256Hex (stableStringify F redeemed.scope) =
    sha256Hex (stableStringify F created.scope)

/-- What stands behind a redemption of the challenge `id`. -/
structure Redeemable (w : World Num) (input : RedeemInput Num) (now : ℤ) (id : String) : Prop where
  approved : ∃ creation createdAt approval approvedAt,
    Event.created id creation createdAt ∈ w.events ∧
    Event.approved id approval approvedAt ∈ w.events ∧
    approval.decision = .approve ∧ Distinct creation approval ∧
    input.requesterAuthSessionHash = creation.requesterAuthSessionHash ∧
    SameContext sha256Hex F creation.decision input.decision ∧
    hashCanonicalParams sha256Hex F input.canonicalParams =
      hashCanonicalParams sha256Hex F creation.canonicalParams ∧
    now < createdAt + o.challengeTtlMs ∧ now < approvedAt + o.tokenTtlMs
  unredeemed : Event.redeemed id ∉ w.events

/-! ## What a challenge knows of the run -/

structure Cleared (terms : Terms) (input : ApproveInput) : Prop where
  authSession : terms.requesterAuthSessionHash ≠ input.approverAuthSessionHash
  actor : input.approver.any (sameHighRiskActor sha256Hex terms.requester) = false
  credential : input.approver.any (sameHighRiskCredential sha256Hex terms.requester) = false
  session : input.approver.any (sameHighRiskSession sha256Hex terms.requester) = false

/-- A stored challenge tells what was reported about it. -/
structure History (events : List (Event Num)) (c : Challenge) : Prop where
  created : ∃ input now, Event.created c.challengeId input now ∈ events ∧
    c.toTerms = newTerms sha256Hex F o input now c.challengeId
  approved : c.status = .approved → ∃ input now, Event.approved c.challengeId input now ∈ events ∧
    input.decision = .approve ∧ Cleared sha256Hex c.toTerms input ∧
    c.tokenExpiresAt = some (now + o.tokenTtlMs)
  redeemed : Event.redeemed c.challengeId ∈ events → isTerminal c.status = true

/-- `d` is what a call makes of `c` without approving it: a terminal status, or the same one and
    the same token expiry. -/
structure Follows (c d : Challenge) : Prop where
  terms : d.toTerms = c.toTerms
  status : isTerminal d.status = true ∨
    d.status = c.status ∧ d.tokenExpiresAt = c.tokenExpiresAt

end Runs

section Follows

variable {Num : Type} {sha256Hex : JsText → JsText} {F : NumberFormat Num} {o : Options}
  {events : List (Event Num)} {c d : Challenge}

theorem follows_refl (c : Challenge) : Follows c c := ⟨rfl, .inr ⟨rfl, rfl⟩⟩

section
variable (now : ℤ) (includeToken : Bool) (c : Challenge)

theorem follows_expire : Follows c (c.expire now includeToken) := ⟨rfl, .inl rfl⟩

theorem follows_expireIfNeeded : Follows c (expireIfNeeded now includeToken c) := by
  rw [expireIfNeeded]
  split
  · exact follows_expire now includeToken c
  · exact follows_refl c

end

theorem follows_fail (reasonCode : ReasonCode) (message : String) (outcome : Option Outcome)
    (c : Challenge) : Follows c (c.fail reasonCode message outcome) := ⟨rfl, .inr ⟨rfl, rfl⟩⟩

theorem follows_deny (input : ApproveInput) (now : ℤ) (c : Challenge) :
    Follows c (c.deny input now) := by
  refine ⟨rfl, .inl ?_⟩
  simp only [Challenge.deny]
  split <;> rfl

theorem follows_reuse (c : Challenge) : Follows c c.reuse :=
  ⟨rfl, .inr ⟨rfl, rfl⟩⟩

section
variable (reasonCode : ReasonCode) (message : String)

theorem follows_invalidateRedemption
    (c : Challenge) : Follows c (c.invalidateRedemption reasonCode message) := ⟨rfl, .inl rfl⟩

theorem follows_invalidate (now : ℤ)
    (c : Challenge) : Follows c (c.invalidate reasonCode message now) := ⟨rfl, .inl rfl⟩

end

theorem isTerminal_iff (status : Status) :
    isTerminal status = true ↔ status ≠ .pending ∧ status ≠ .approved := by
  simp [isTerminal]

section
variable (h : History sha256Hex F o events c)
include h

theorem History.follows (hf : Follows c d) : History sha256Hex F o events d := by
  have hid : d.challengeId = c.challengeId := by rw [hf.terms]
  constructor
  · rw [hf.terms]
    exact h.created
  · intro happroved
    obtain hterminal | ⟨hstatus, htoken⟩ := hf.status
    · exact absurd happroved ((isTerminal_iff _).mp hterminal).2
    · rw [hf.terms, htoken]
      exact h.approved (hstatus ▸ happroved)
  · intro hredeemed
    rw [hid] at hredeemed
    obtain hterminal | ⟨hstatus, -⟩ := hf.status
    · exact hterminal
    · rw [hstatus]
      exact h.redeemed hredeemed

theorem History.of_other {e : Event Num}
    (he : e.challengeId ≠ c.challengeId) : History sha256Hex F o (events ++ [e]) c := by
  obtain ⟨input, now, hcreated, hterms⟩ := h.created
  constructor
  · exact ⟨input, now, mem_append_left _ hcreated, hterms⟩
  · intro happroved
    obtain ⟨input, now, hevent, hrest⟩ := h.approved happroved
    exact ⟨input, now, mem_append_left _ hevent, hrest⟩
  · intro hredeemed
    rw [mem_append, mem_singleton] at hredeemed
    obtain hold | rfl := hredeemed
    · exact h.redeemed hold
    · exact absurd rfl he

theorem History.approve (hstatus : c.status = .pending)
    {input : ApproveInput} (hdecision : input.decision = .approve)
    (hcleared : Cleared sha256Hex c.toTerms input) (now : ℤ) (token : String) :
    History sha256Hex F o (events ++ [.approved c.challengeId input now])
      (c.approve sha256Hex o input now token) := by
  obtain ⟨creation, createdAt, hcreated, hterms⟩ := h.created
  constructor
  · exact ⟨creation, createdAt, mem_append_left _ hcreated, hterms⟩
  · intro _
    exact ⟨input, now, mem_append_right _ mem_cons_self, hdecision, hcleared, rfl⟩
  · intro hredeemed
    have hold : Event.redeemed c.challengeId ∈ events := by
      simpa using hredeemed
    have hterminal := h.redeemed hold
    rw [hstatus] at hterminal
    cases hterminal

theorem History.redeem (now : ℤ) :
    History sha256Hex F o (events ++ [.redeemed c.challengeId]) (c.redeem now) := by
  obtain ⟨input, createdAt, hcreated, hterms⟩ := h.created
  constructor
  · exact ⟨input, createdAt, mem_append_left _ hcreated, hterms⟩
  · intro happroved
    cases happroved
  · intro _
    rfl

end

theorem history_newChallenge {input : CreateInput Num} {now : ℤ} {randomId : String}
    (hfresh : ∀ e ∈ events, e.challengeId ≠ randomId) :
    History sha256Hex F o (events ++ [.created randomId input now])
      (newChallenge sha256Hex F o input now randomId) := by
  constructor
  · exact ⟨input, now, mem_append_right _ mem_cons_self, rfl⟩
  · intro happroved
    cases happroved
  · intro hredeemed
    rw [mem_append, mem_singleton] at hredeemed
    obtain hold | hnew := hredeemed
    · exact absurd rfl (hfresh _ hold)
    · cases hnew

end Follows

/-! ## The invariant of a run -/

section Run

variable {Num : Type} {sha256Hex : JsText → JsText} {F : NumberFormat Num} {o : Options}

/-- No challenge is redeemed twice. -/
def RedeemedOnce (events : List (Event Num)) : Prop :=
  events.Pairwise fun e e' => ∀ id, e = .redeemed id → e' ≠ .redeemed id

/-- The challenges and the reports of a run agree. -/
structure Inv (sha256Hex : JsText → JsText) (F : NumberFormat Num) (o : Options)
    (w : World Num) : Prop where
  history : ∀ c ∈ w.store.rows, History sha256Hex F o w.events c
  once : RedeemedOnce w.events

theorem inv_empty : Inv sha256Hex F o (World.empty Num) :=
  ⟨(fun c hc => by cases hc), List.Pairwise.nil⟩

/-- Every challenge of `t` follows one of `s`. -/
def FollowsAll (s t : Store) : Prop :=
  ∀ d ∈ t.rows, ∃ c ∈ s.rows, Follows c d

theorem followsAll_refl (s : Store) : FollowsAll s s :=
  fun d hd => ⟨d, hd, follows_refl d⟩

theorem FollowsAll.subset {s t u : Store} (h : FollowsAll s t) (hsub : u.rows ⊆ t.rows) :
    FollowsAll s u :=
  fun d hd => h d (hsub hd)

theorem followsAll_modify (s : Store) (id : String) {f : Challenge → Challenge}
    (hf : ∀ c, (f c).challengeId = c.challengeId) (hfollows : ∀ c, Follows c (f c)) :
    FollowsAll s (modify s id f hf) := by
  intro d hd
  obtain ⟨c, hc, rfl⟩ := mem_map.mp hd
  refine ⟨c, hc, ?_⟩
  split
  · exact hfollows c
  · exact follows_refl c

theorem rows_evictWhile_subset (tooMany : ℕ → Bool) (turns : ℕ) (s : Store) :
    (evictWhile tooMany turns s).rows ⊆ s.rows := by
  induction turns generalizing s with
  | zero => exact fun c hc => hc
  | succ turns ih =>
    rw [evictWhile]
    split
    · split
      · exact fun c hc => hc
      · intro c hc
        have hkept := ih _ hc
        exact (mem_filter.mp hkept).1
    · exact fun c hc => hc

theorem followsAll_prune (s : Store) (now : ℤ) : FollowsAll s (pruneStoredChallenges o s now) := by
  have hexpired : FollowsAll s (pruneExpired s now) := by
    intro d hd
    obtain ⟨c, hc, rfl⟩ := mem_map.mp hd
    exact ⟨c, hc, follows_expireIfNeeded now true c⟩
  refine hexpired.subset (fun c hc => ?_)
  have hkept := rows_evictWhile_subset _ _ _ hc
  exact (mem_filter.mp hkept).1

/-- Moves that add no event keep the invariant. -/
theorem inv_of_followsAll {w : World Num} (h : Inv sha256Hex F o w) {s : Store}
    (hs : FollowsAll w.store s) : Inv sha256Hex F o ⟨s, w.events⟩ := by
  refine ⟨fun d hd => ?_, h.once⟩
  obtain ⟨c, hc, hfollows⟩ := hs d hd
  exact (h.history c hc).follows hfollows

theorem redeemedOnce_report {events : List (Event Num)} (h : RedeemedOnce events) {e : Event Num}
    (he : ∀ id, e = .redeemed id → Event.redeemed id ∉ events) : RedeemedOnce (events ++ [e]) := by
  refine pairwise_append.mpr ⟨h, pairwise_singleton _ _, ?_⟩
  rintro old hold new hmem id rfl hnew
  rw [mem_singleton.mp hmem] at hnew
  exact he id hnew hold

theorem inv_modify {w : World Num} (h : Inv sha256Hex F o w) {id : String}
    {f : Challenge → Challenge} (hf : ∀ c, (f c).challengeId = c.challengeId) {e : Event Num}
    (he : e.challengeId = id)
    (hone : ∀ c ∈ w.store.rows, c.challengeId = id → History sha256Hex F o (w.events ++ [e]) (f c))
    (honce : RedeemedOnce (w.events ++ [e])) :
    Inv sha256Hex F o ⟨modify w.store id f hf, w.events ++ [e]⟩ := by
  refine ⟨fun d hd => ?_, honce⟩
  obtain ⟨c, hc, rfl⟩ := mem_map.mp hd
  by_cases hid : c.challengeId = id
  · simp only [hid]
    exact hone c hc hid
  · simp only [hid]
    apply (h.history c hc).of_other
    rw [he]
    exact fun heq => hid heq.symm

theorem inv_createChallenge {w : World Num} (h : Inv sha256Hex F o w) (input : CreateInput Num)
    (now : ℤ) (randomId : String) (hfresh : ∀ e ∈ w.events, e.challengeId ≠ randomId) :
    Inv sha256Hex F o (step sha256Hex F o w (.createChallenge input now randomId)) := by
  have hroom : FollowsAll w.store (ensureCapacity o (pruneStoredChallenges o w.store now)) :=
    (followsAll_prune w.store now).subset (rows_evictWhile_subset _ _ _)
  have hkept := inv_of_followsAll h hroom
  simp only [step, createChallenge]
  split
  · rename_i hnone
    split at hnone
    · cases hnone
      exact hkept
    · cases hnone
  · rename_i challenge s hsome
    split at hsome
    · cases hsome
    · obtain ⟨hchallenge, hs⟩ := Prod.mk.inj hsome
      obtain rfl := Option.some.inj hchallenge
      have hnew : (ensureCapacity o (pruneStoredChallenges o w.store now)).find? randomId =
          none := by
        rw [Table.find?_eq_none_iff]
        intro c hc hid
        obtain ⟨creation, createdAt, hcreated, -⟩ := (hkept.history c hc).created
        exact hfresh _ hcreated hid
      rw [← hs]
      refine ⟨fun c hc => ?_, redeemedOnce_report h.once (by intro id heq; cases heq)⟩
      rw [Table.rows_insert_of_new _ _ hnew, mem_append, mem_singleton] at hc
      obtain hold | rfl := hc
      · obtain ⟨creation, createdAt, hcreated, -⟩ := (hkept.history c hold).created
        apply (hkept.history c hold).of_other
        exact fun heq => hfresh _ hcreated heq.symm
      · exact history_newChallenge hfresh

theorem approverRefusal_eq_none {c : Challenge} {input : ApproveInput}
    (h : approverRefusal sha256Hex c input = none) : Cleared sha256Hex c.toTerms input := by
  rw [approverRefusal] at h
  split_ifs at h with hsession hstructured hactor hcredential hidentity htarget
  exact ⟨hsession, by simpa using hactor, by simpa using hcredential, by simpa using hidentity⟩

theorem inv_approveChallenge {w : World Num} (h : Inv sha256Hex F o w) (input : ApproveInput)
    (now : ℤ) (randomToken : String) :
    Inv sha256Hex F o (step sha256Hex F o w (.approveChallenge input now randomToken)) := by
  simp only [step, approveChallenge]
  cases hfind : w.store.find? input.challengeId with
  | none => exact h
  | some c =>
    obtain ⟨hc, hid⟩ := (Table.find?_eq_some_iff _ _ _).mp hfind
    dsimp only
    by_cases hexpires : expires c now false = true
    · rw [if_pos hexpires]
      exact inv_of_followsAll h (followsAll_modify _ _ _ (follows_expire now false))
    · rw [if_neg hexpires]
      by_cases hstatus : c.status = .pending
      · rw [if_neg (not_not.mpr hstatus)]
        cases hrefusal : approverRefusal sha256Hex c input with
        | some refusal =>
          exact inv_of_followsAll h (followsAll_modify _ _ _ (follows_fail _ _ _))
        | none =>
          by_cases hdecision : input.decision = .approve
          · rw [if_neg (not_not.mpr hdecision)]
            apply inv_modify h
            · exact hid.symm
            · intro d hd hsame
              have hdc : d = c := w.store.eq_of_key_eq hd hc hsame
              rw [hdc, ← hid]
              exact (h.history c hc).approve hstatus hdecision (approverRefusal_eq_none hrefusal)
                now randomToken
            · exact redeemedOnce_report h.once (by intro id heq; cases heq)
          · rw [if_pos hdecision]
            exact inv_of_followsAll h (followsAll_modify _ _ _ (follows_deny input now))
      · rw [if_pos hstatus]
        exact h

section
variable {s : Store} {input : RedeemInput Num} {now : ℤ}

theorem redeemToken_eq_ok {d : Challenge}
    (h : (redeemToken sha256Hex F s input now).1 = .ok d) :
    ∃ c ∈ s.rows, d = c.redeem now ∧ expires c now true = false ∧ c.status = .approved ∧
      c.requesterAuthSessionHash = input.requesterAuthSessionHash ∧
      challengeContextMatches sha256Hex F c input.decision = true ∧
      c.canonicalParamsHash = hashCanonicalParams sha256Hex F input.canonicalParams ∧
      (redeemToken sha256Hex F s input now).2 =
        modify s c.challengeId (.redeem now) (Challenge.redeem_challengeId now) := by
  rw [redeemToken] at h ⊢
  split at h
  · cases h
  · rename_i c hfind
    split_ifs at h with hexpires hredeemed hstatus hrequester happrover hcontext hparams
    rw [not_not] at hstatus hrequester hparams
    cases h
    refine ⟨c, mem_of_find?_eq_some hfind, rfl, by simpa using hexpires, hstatus, hrequester,
      by simpa using hcontext, hparams, ?_⟩
    simp [hexpires, hstatus, hrequester, happrover, hcontext, hparams]

theorem followsAll_ite {failure : Failure} {p : Prop} [Decidable p]
    {a b : Except Failure Challenge × Store} (ha : FollowsAll s a.2)
    (hb : b.1 = .error failure → FollowsAll s b.2)
    (h : (if p then a else b).1 = .error failure) : FollowsAll s (if p then a else b).2 := by
  by_cases hp : p
  · rwa [if_pos hp]
  · rw [if_neg hp] at h ⊢
    exact hb h

theorem followsAll_of_failed {failure : Failure}
    (h : (redeemToken sha256Hex F s input now).1 = .error failure) :
    FollowsAll s (redeemToken sha256Hex F s input now).2 := by
  rw [redeemToken] at h ⊢
  split at h
  · exact followsAll_refl s
  · -- the checks in the order of the source
    refine followsAll_ite (followsAll_modify _ _ (Challenge.expire_challengeId now true)
      (follows_expire now true)) (fun h => ?_) h
    refine followsAll_ite (followsAll_modify _ _ Challenge.reuse_challengeId follows_reuse)
      (fun h => ?_) h
    refine followsAll_ite (followsAll_refl s) (fun h => ?_) h
    refine followsAll_ite (followsAll_modify _ _ (Challenge.fail_challengeId _ _ _)
      (follows_fail _ _ _)) (fun h => ?_) h
    refine followsAll_ite (followsAll_modify _ _ (Challenge.fail_challengeId _ _ _)
      (follows_fail _ _ _)) (fun h => ?_) h
    refine followsAll_ite (followsAll_modify _ _ (Challenge.invalidateRedemption_challengeId _ _)
      (follows_invalidateRedemption _ _)) (fun h => ?_) h
    refine followsAll_ite (followsAll_modify _ _ (Challenge.invalidateRedemption_challengeId _ _)
      (follows_invalidateRedemption _ _)) (fun h => ?_) h
    cases h

end

theorem unredeemed_of_approved {events : List (Event Num)} {c : Challenge}
    (h : History sha256Hex F o events c) (hstatus : c.status = .approved) :
    Event.redeemed c.challengeId ∉ events := by
  intro hredeemed
  have hterminal := h.redeemed hredeemed
  rw [hstatus] at hterminal
  cases hterminal

/-- A redemption is recorded once; a refused one adds no event. -/
theorem inv_redeemToken {w : World Num} (h : Inv sha256Hex F o w) (input : RedeemInput Num)
    (now : ℤ) : Inv sha256Hex F o (step sha256Hex F o w (.redeemToken input now)) := by
  simp only [step]
  cases hresult : redeemToken sha256Hex F w.store input now with
  | mk result s =>
    have hfst : (redeemToken sha256Hex F w.store input now).1 = result := by rw [hresult]
    have hsnd : (redeemToken sha256Hex F w.store input now).2 = s := by rw [hresult]
    cases result with
    | error failure =>
      have hfollows := followsAll_of_failed hfst
      rw [hsnd] at hfollows
      exact inv_of_followsAll h hfollows
    | ok d =>
      obtain ⟨c, hc, rfl, -, hstatus, -, -, -, hafter⟩ := redeemToken_eq_ok hfst
      rw [← hsnd, hafter]
      have hunredeemed := unredeemed_of_approved (h.history c hc) hstatus
      apply inv_modify h
      · rfl
      · intro d hd hsame
        have hdc : d = c := w.store.eq_of_key_eq hd hc hsame
        rw [hdc]
        exact (h.history c hc).redeem now
      · apply redeemedOnce_report h.once
        intro id heq
        cases heq
        exact hunredeemed

theorem followsAll_getRequesterToken (s : Store) (challengeId requesterAuthSessionHash : String)
    (now : ℤ) : FollowsAll s (getRequesterToken s challengeId requesterAuthSessionHash now).2 := by
  rw [getRequesterToken]
  split
  · exact followsAll_refl s
  · split_ifs
    · exact followsAll_modify _ _ (Challenge.expire_challengeId now true) (follows_expire now true)
    · exact followsAll_refl s
    · exact followsAll_refl s
    · exact followsAll_refl s
    · split <;> exact followsAll_refl s

/-- Every operation with a fresh id keeps the histories. -/
theorem inv_step {w : World Num} (op : Op Num) (h : Inv sha256Hex F o w) (hfresh : FreshId w op) :
    Inv sha256Hex F o (step sha256Hex F o w op) := by
  cases op with
  | createChallenge input now randomId => exact inv_createChallenge h input now randomId hfresh
  | approveChallenge input now randomToken => exact inv_approveChallenge h input now randomToken
  | redeemToken input now => exact inv_redeemToken h input now
  | getRequesterToken challengeId requesterAuthSessionHash now =>
    exact inv_of_followsAll h (followsAll_getRequesterToken _ _ _ _)
  | invalidateChallenge challengeId reasonCode message now =>
    exact inv_of_followsAll h (followsAll_modify _ _ _ (follows_invalidate reasonCode message now))
  | prune now => exact inv_of_followsAll h (followsAll_prune _ now)

theorem inv_exec {ops : List (Op Num)}
    (hops : Guarded (step sha256Hex F o) FreshId (World.empty Num) ops) :
    Inv sha256Hex F o (exec (step sha256Hex F o) (World.empty Num) ops) := by
  have hstep : ∀ w op, Inv sha256Hex F o w → FreshId w op →
      Inv sha256Hex F o (step sha256Hex F o w op) :=
    fun w op h hfresh => inv_step op h hfresh
  exact exec_invariant_of_guarded hstep inv_empty hops

end Run

/-! ## Redemption -/

section Redemption

variable {Num : Type} {sha256Hex : JsText → JsText} {F : NumberFormat Num} {o : Options}

/-- Equal texts have equal digests, so what passes a comparison of digests is different. -/
theorem ne_of_not_sameHashed {requester approver : Option String} {id : String}
    (h : sameHashed sha256Hex requester approver = false) (hrequester : requester = some id)
    (hne : id ≠ "") : approver ≠ some id := by
  rintro rfl
  have hid : truthy (some id) = some id := (truthy_eq_some_iff _ _).mpr ⟨rfl, hne⟩
  rw [hrequester] at h
  simp [sameHashed, hid] at h

theorem distinct_of_cleared {creation : CreateInput Num} {createdAt : ℤ} {id : String}
    {approval : ApproveInput}
    (h : Cleared sha256Hex (newTerms sha256Hex F o creation createdAt id) approval) :
    Distinct creation approval := by
  have hrequester : ∀ requester, creation.requester = some requester →
      (newTerms sha256Hex F o creation createdAt id).requester = requester := by
    intro requester hsome
    simp [newTerms, hsome]
  constructor
  · exact fun heq => h.authSession heq.symm
  · intro requester approver actorId hsome happrover hid hne htype
    have hactor := h.actor
    rw [happrover, hrequester requester hsome] at hactor
    simp only [Option.any_some, sameHighRiskActor, htype] at hactor
    exact ne_of_not_sameHashed hactor hid hne
  · intro requester approver credentialId hsome happrover hid hne
    have hcredential := h.credential
    rw [happrover, hrequester requester hsome] at hcredential
    exact ne_of_not_sameHashed hcredential hid hne
  · intro requester approver sessionId hsome happrover hid hne
    have hsession := h.session
    rw [happrover, hrequester requester hsome] at hsession
    exact ne_of_not_sameHashed hsession hid hne

theorem sameContext_of_matches {c : Challenge} {creation : CreateInput Num} {createdAt : ℤ}
    {id : String} (hterms : c.toTerms = newTerms sha256Hex F o creation createdAt id)
    {decision : PolicyDecision Num} (h : challengeContextMatches sha256Hex F c decision = true) :
    SameContext sha256Hex F creation.decision decision := by
  simp only [challengeContextMatches, hterms, Bool.and_eq_true, decide_eq_true_eq] at h
  obtain ⟨⟨⟨⟨⟨⟨hnode, haction⟩, htarget⟩, hsession⟩, hrequired⟩, hchallenge⟩, hscope⟩ := h
  exact ⟨hnode.symm, haction.symm, htarget.symm, hsession.symm, hrequired.symm, hchallenge.symm,
    hscope.symm⟩

theorem unexpired_of_not_expires {c : Challenge} {now tokenExpiresAt : ℤ}
    (h : expires c now true = false) (hstatus : c.status = .approved)
    (htoken : c.tokenExpiresAt = some tokenExpiresAt) :
    now < c.expiresAt ∧ now < tokenExpiresAt := by
  simp only [expires, hstatus, isTerminal, challengeExpired, tokenExpired, htoken] at h
  simpa using h

theorem redeemable_of_redeemed {w : World Num} (h : Inv sha256Hex F o w) {input : RedeemInput Num}
    {now : ℤ} {d : Challenge}
    (hok : (redeemToken sha256Hex F w.store input now).1 = .ok d) :
    Redeemable sha256Hex F o w input now d.challengeId := by
  obtain ⟨c, hc, rfl, hexpires, hstatus, hrequester, hcontext, hparams, -⟩ :=
    redeemToken_eq_ok hok
  have hhistory := h.history c hc
  obtain ⟨creation, createdAt, hcreated, hterms⟩ := hhistory.created
  obtain ⟨approval, approvedAt, happroved, hdecision, hcleared, htoken⟩ := hhistory.approved hstatus
  obtain ⟨hchallenge, htokenTime⟩ := unexpired_of_not_expires hexpires hstatus htoken
  rw [hterms] at hcleared hrequester hparams hchallenge
  refine ⟨⟨creation, createdAt, approval, approvedAt, hcreated, happroved, hdecision,
    distinct_of_cleared hcleared, hrequester.symm, sameContext_of_matches hterms hcontext,
    hparams.symm, hchallenge, htokenTime⟩, ?_⟩
  have hunredeemed : Event.redeemed c.challengeId ∉ w.events :=
    unredeemed_of_approved hhistory hstatus
  exact hunredeemed

end Redemption

/-- In a run whose random ids are distinct, no challenge is redeemed twice, and a redemption was
    approved by someone other than the requester, comes from the requester, repeats the context
    and the parameters of the creation, and is in time for the challenge and for its token. -/
theorem redemption_of_run {Num : Type} (sha256Hex : JsText → JsText) (F : NumberFormat Num)
    (o : Options) {ops : List (Op Num)}
    (hops : Guarded (step sha256Hex F o) FreshId (World.empty Num) ops) {w : World Num}
    (hw : w = exec (step sha256Hex F o) (World.empty Num) ops) :
    RedeemedOnce w.events ∧
    ∀ input now c, (redeemToken sha256Hex F w.store input now).1 = .ok c →
      Redeemable sha256Hex F o w input now c.challengeId := by
  have hinv : Inv sha256Hex F o w := by
    rw [hw]
    exact inv_exec hops
  exact ⟨hinv.once, fun input now c hok => redeemable_of_redeemed hinv hok⟩

/-- A decision to run a command. -/
def execDecision : PolicyDecision (Option ℕ) where
  nodeId := "n1"
  action := "pty.exec.arbitrary"
  target := none
  sessionId := some "s1"
  requiredBits := [⟨"pty:exec:arbitrary", by decide⟩]
  challengeBits := [⟨"pty:exec:arbitrary", by decide⟩]
  scope := .null

/-- The requester `a` asks, the browser session `b` approves. -/
def approvedRun : List (Op (Option ℕ)) :=
  [.createChallenge ⟨execDecision, "a", none, none, .null⟩ 0 "c1",
    .approveChallenge ⟨"c1", "b", none, .approve⟩ 10 "token"]

/-- The requester redeems the token of an approved challenge. -/
theorem redeemable_after_approval :
    ∃ c, (redeemToken id counting
        (exec (step id counting {}) (World.empty (Option ℕ)) approvedRun).store
        ⟨"token", "a", execDecision, .null⟩ 20).1 = .ok c ∧
      Redeemable id counting {} (exec (step id counting {}) (World.empty (Option ℕ)) approvedRun)
        ⟨"token", "a", execDecision, .null⟩ 20 c.challengeId := by
  have hfresh : Guarded (step id counting {}) FreshId (World.empty (Option ℕ)) approvedRun :=
    ⟨fun e he => (by cases he), trivial, trivial⟩
  obtain ⟨-, hredeem⟩ := redemption_of_run id counting {} hfresh rfl
  have hok : ∃ c, (redeemToken id counting
      (exec (step id counting {}) (World.empty (Option ℕ)) approvedRun).store
      ⟨"token", "a", execDecision, .null⟩ 20).1 = .ok c := ⟨_, rfl⟩
  obtain ⟨c, hc⟩ := hok
  exact ⟨c, hc, hredeem _ _ _ hc⟩

end RelayIde.Security.Confirmation
