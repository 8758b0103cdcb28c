import RelayIde.Library.Json

/-!
# Security Audit Entries

An audit entry is normalized from what the caller reports and hashed over its stable JSON text,
so that the stored log can be checked against the hashes later.

- `fields_of_hash_eq` — what two entries with one hash have in common

SHA-256, the redaction of audit material and number formatting are parameters.
-/

open List

namespace RelayIde.Audit

open Library
open Library.JsText (utf16 WellFormed)
open Library.Json

structure Runtime (Num Material : Type) where
  numbers : NumberFormat Num
  sha256Hex : JsText → JsText
  redactAuditValue : Material → Json Num
  wellFormed_sha256Hex : ∀ t, WellFormed (sha256Hex t)

/-- No two texts that an encoder to UTF-8 keeps share a digest. -/
def Runtime.CollisionFree {Num Material : Type} (R : Runtime Num Material) : Prop :=
  ∀ t t', WellFormed t → WellFormed t' → R.sha256Hex t = R.sha256Hex t' → t = t'

variable {Num Material : Type}

/-! ## Stable text -/

def protoKey : JsText := utf16 "__proto__"

/-- `sortForJson`: every object is rebuilt from `{}` by `sorted[key] = …`.  Under the key
    `__proto__` that assignment sets the prototype and creates no property. -/
def sortForJson (value : Json Num) : Json Num :=
  sortWith (fun key => key != protoKey) value

def stableStringify (F : NumberFormat Num) (value : Json Num) : JsText :=
  stringify F (sortForJson value)

/-! ## Entries -/

def SECURITY_AUDIT_SCHEMA_VERSION : ℕ := 1

def SECURITY_AUDIT_EVENT_TYPES : List JsText :=
  ["grant", "denial", "challenge", "approval", "expiry", "revocation", "rotation",
    "failed_redemption", "same_session_approval_attempt", "bridge_event"].map utf16

def isSecurityAuditEventType (value : JsText) : Bool :=
  SECURITY_AUDIT_EVENT_TYPES.contains value

inductive SecurityAuditDecision where
  | allow | deny | requiresConfirmation | approved | expired | revoked | rotated | failed
  | recorded
  deriving DecidableEq

def SecurityAuditDecision.text : SecurityAuditDecision → JsText
  | .allow => utf16 "allow"
  | .deny => utf16 "deny"
  | .requiresConfirmation => utf16 "requires_confirmation"
  | .approved => utf16 "approved"
  | .expired => utf16 "expired"
  | .revoked => utf16 "revoked"
  | .rotated => utf16 "rotated"
  | .failed => utf16 "failed"
  | .recorded => utf16 "recorded"

inductive PeerKind where
  | hub | node | user | system

def PeerKind.text : PeerKind → JsText
  | .hub => utf16 "hub"
  | .node => utf16 "node"
  | .user => utf16 "user"
  | .system => utf16 "system"

inductive RelayTrustTier where
  | sandbox | dev | prod

def RelayTrustTier.text : RelayTrustTier → JsText
  | .sandbox => utf16 "sandbox"
  | .dev => utf16 "dev"
  | .prod => utf16 "prod"

structure SecurityAuditPeerIdentity where
  kind : PeerKind
  nodeId : Option JsText := none
  credentialId : Option JsText := none
  displayName : Option JsText := none
  principalHash : Option JsText := none

structure SecurityAuditNodeIdentity where
  nodeId : Option JsText := none
  trustTier : Option RelayTrustTier := none

structure SecurityAuditIntent where
  action : JsText
  target : Option JsText := none

/-- A report.  `sourceDiagnostics` is an object, given by its properties. -/
structure SecurityAuditEntryInput (Num Material : Type) where
  eventId : Option JsText := none
  timestamp : Option JsText := none
  eventType : JsText
  decision : SecurityAuditDecision
  reasonCode : JsText
  peer : SecurityAuditPeerIdentity
  node : Option SecurityAuditNodeIdentity := none
  sessionId : Option JsText := none
  intent : SecurityAuditIntent
  scope : Option Material := none
  params : Option Material := none
  requiredBits : List JsText := []
  grantedBits : List JsText := []
  deniedBits : List JsText := []
  aclRef : Option JsText := none
  policyVersion : Option JsText := none
  sourceDiagnostics : Option (List (JsText × Json Num)) := none
  correlationId : Option JsText := none

/-- What a call generates where the report leaves it out: two UUIDs and the time. -/
structure Generated where
  eventId : JsText
  timestamp : JsText
  correlationId : JsText
  wellFormed : WellFormed eventId ∧ WellFormed timestamp ∧ WellFormed correlationId

/-- An entry.  The fields that a row keeps as JSON are JSON values: nothing checks their shape
    when a row is read. -/
structure NormalizedSecurityAuditEntry (Num : Type) where
  eventId : JsText
  timestamp : JsText
  sequence : ℕ
  schemaVersion : Num
  eventType : JsText
  decision : JsText
  reasonCode : JsText
  peer : Json Num
  node : Json Num
  sessionId : Option JsText
  intent : Json Num
  scopeHash : JsText
  paramsHash : JsText
  requiredBits : Json Num
  grantedBits : Json Num
  deniedBits : Json Num
  aclRef : Option JsText
  policyVersion : Option JsText
  sourceDiagnostics : Option (Json Num)
  correlationId : JsText
  prevHash : Option JsText
  entryHash : JsText

def truthy (t : Option JsText) : Option JsText :=
  t.filter (· ≠ [])

/-- `...(t ? { [key]: t } : {})` -/
def truthyField (key : JsText) (t : Option JsText) : List (JsText × Json Num) :=
  ((truthy t).map fun t => (key, Json.str t)).toList

def normalizePeer (peer : SecurityAuditPeerIdentity) : Json Num :=
  .obj ((utf16 "kind", .str peer.kind.text) ::
    (truthyField (utf16 "nodeId") peer.nodeId ++
      truthyField (utf16 "credentialId") peer.credentialId ++
      truthyField (utf16 "displayName") peer.displayName ++
      truthyField (utf16 "principalHash") peer.principalHash))

def normalizeNode (node : Option SecurityAuditNodeIdentity) : Json Num :=
  .obj (truthyField (utf16 "nodeId") (node.bind (·.nodeId)) ++
    truthyField (utf16 "trustTier") ((node.bind (·.trustTier)).map (·.text)))

def normalizeIntent (intent : SecurityAuditIntent) : Json Num :=
  .obj ((utf16 "action", .str intent.action) :: truthyField (utf16 "target") intent.target)

def bitsJson (bits : List JsText) : Json Num :=
  .arr (bits.map .str)

/-! ## Hashes -/

/-- The keys of an entry without its hash, in the order the literal lists them. -/
inductive Field where
  | eventId | timestamp | sequence | schemaVersion | eventType | decision | reasonCode
  | peer | node | sessionId | intent | scopeHash | paramsHash
  | requiredBits | grantedBits | deniedBits | aclRef | policyVersion | sourceDiagnostics
  | correlationId | prevHash
  deriving DecidableEq

namespace Field

def all : List Field :=
  [eventId, timestamp, sequence, schemaVersion, eventType, decision, reasonCode, peer, node,
    sessionId, intent, scopeHash, paramsHash, requiredBits, grantedBits, deniedBits, aclRef,
    policyVersion, sourceDiagnostics, correlationId, prevHash]

def key : Field → JsText
  | eventId => utf16 "eventId"
  | timestamp => utf16 "timestamp"
  | sequence => utf16 "sequence"
  | schemaVersion => utf16 "schemaVersion"
  | eventType => utf16 "eventType"
  | decision => utf16 "decision"
  | reasonCode => utf16 "reasonCode"
  | peer => utf16 "peer"
  | node => utf16 "node"
  | sessionId => utf16 "sessionId"
  | intent => utf16 "intent"
  | scopeHash => utf16 "scopeHash"
  | paramsHash => utf16 "paramsHash"
  | requiredBits => utf16 "requiredBits"
  | grantedBits => utf16 "grantedBits"
  | deniedBits => utf16 "deniedBits"
  | aclRef => utf16 "aclRef"
  | policyVersion => utf16 "policyVersion"
  | sourceDiagnostics => utf16 "sourceDiagnostics"
  | correlationId => utf16 "correlationId"
  | prevHash => utf16 "prevHash"

/-- The value of a key, `none` where the literal spreads `{}`. -/
def value (F : NumberFormat Num) (e : NormalizedSecurityAuditEntry Num) :
    Field → Option (Json Num)
  | eventId => some (.str e.eventId)
  | timestamp => some (.str e.timestamp)
  | sequence => some (.num (F.ofNat e.sequence))
  | schemaVersion => some (.num e.schemaVersion)
  | eventType => some (.str e.eventType)
  | decision => some (.str e.decision)
  | reasonCode => some (.str e.reasonCode)
  | peer => some e.peer
  | node => some e.node
  | sessionId => e.sessionId.map .str
  | intent => some e.intent
  | scopeHash => some (.str e.scopeHash)
  | paramsHash => some (.str e.paramsHash)
  | requiredBits => some e.requiredBits
  | grantedBits => some e.grantedBits
  | deniedBits => some e.deniedBits
  | aclRef => e.aclRef.map .str
  | policyVersion => e.policyVersion.map .str
  | sourceDiagnostics => e.sourceDiagnostics
  | correlationId => some (.str e.correlationId)
  | prevHash => some (match e.prevHash with | none => .null | some hash => .str hash)

end Field

def hashedFields (F : NumberFormat Num) (e : NormalizedSecurityAuditEntry Num) :
    List (JsText × Json Num) :=
  Field.all.filterMap fun f => (f.value F e).map fun v => (f.key, v)

def entryHashPayload (F : NumberFormat Num) (e : NormalizedSecurityAuditEntry Num) : JsText :=
  stableStringify F (.obj (hashedFields F e))

def computeSecurityAuditEntryHash (R : Runtime Num Material)
    (e : NormalizedSecurityAuditEntry Num) : JsText :=
  R.sha256Hex (entryHashPayload R.numbers e)

def hashAuditMaterial (R : Runtime Num Material) (value : Option Material) : JsText :=
  R.sha256Hex (stableStringify R.numbers ((value.map R.redactAuditValue).getD .null))

/-- The entry of a report, its place in the chain given.  `none`: the event type is unknown. -/
def normalizeSecurityAuditEntry (R : Runtime Num Material)
    (input : SecurityAuditEntryInput Num Material) (generated : Generated) (sequence : ℕ)
    (prevHash : Option JsText) : Option (NormalizedSecurityAuditEntry Num) :=
  if isSecurityAuditEventType input.eventType then
    let base : NormalizedSecurityAuditEntry Num :=
      { eventId := input.eventId.getD generated.eventId
        timestamp := input.timestamp.getD generated.timestamp
        sequence := sequence
        schemaVersion := R.numbers.ofNat SECURITY_AUDIT_SCHEMA_VERSION
        eventType := input.eventType
        decision := input.decision.text
        reasonCode := input.reasonCode
        peer := normalizePeer input.peer
        node := normalizeNode input.node
        sessionId := truthy input.sessionId
        intent := normalizeIntent input.intent
        scopeHash := hashAuditMaterial R input.scope
        paramsHash := hashAuditMaterial R input.params
        requiredBits := bitsJson input.requiredBits
        grantedBits := bitsJson input.grantedBits
        deniedBits := bitsJson input.deniedBits
        aclRef := truthy input.aclRef
        policyVersion := truthy input.policyVersion
        sourceDiagnostics := input.sourceDiagnostics.map .obj
        correlationId := input.correlationId.getD generated.correlationId
        prevHash := prevHash
        entryHash := [] }
    some { base with entryHash := computeSecurityAuditEntryHash R base }
  else none

/-- `verifySecurityAuditEntryHash`: the recomputed hash if it differs from the entry's own. -/
def verifySecurityAuditEntryHash (R : Runtime Num Material)
    (e : NormalizedSecurityAuditEntry Num) : Option JsText :=
  if computeSecurityAuditEntryHash R e = e.entryHash then none
  else some (computeSecurityAuditEntryHash R e)

/-! ## What a hash determines -/

namespace Field

theorem nodup_keys : (all.map key).Nodup := by
  decide

theorem key_ne_protoKey (f : Field) : f.key ≠ protoKey := by
  cases f <;> decide

theorem mem_all (f : Field) : f ∈ all := by
  cases f <;> decide

end Field

private theorem property_filterMap (value : Field → Option (Json Num)) {fields : List Field}
    (h : (fields.map Field.key).Nodup) {f : Field} (hf : f ∈ fields) :
    property f.key (fields.filterMap fun f => (value f).map fun v => (f.key, v)) = value f := by
  induction fields with
  | nil => exact absurd hf not_mem_nil
  | cons g fields ih =>
    rw [map_cons, nodup_cons] at h
    rcases mem_cons.mp hf with heq | hf
    · -- no later field has the key
      subst heq
      cases hv : value f with
      | some v => simp [property, hv]
      | none =>
        rw [filterMap_cons_none (by simp [hv]), property, find?_eq_none.mpr]
        · rfl
        · intro p hp heq
          obtain ⟨g, hg, hgp⟩ := mem_filterMap.mp hp
          cases hvg : value g with
          | none => simp [hvg] at hgp
          | some w =>
            rw [hvg, Option.map_some, Option.some.injEq] at hgp
            subst hgp
            exact h.1 (mem_map.mpr ⟨g, hg, by simpa using heq⟩)
    · have hne : g.key ≠ f.key := by
        intro heq
        exact h.1 (heq ▸ mem_map_of_mem hf)
      rw [← ih h.2 hf]
      cases hv : value g with
      | none => rw [filterMap_cons_none (by simp [hv])]
      | some v =>
        rw [filterMap_cons_some (by simp [hv]; rfl)]
        simp [property, hne]

variable (F : NumberFormat Num) (e : NormalizedSecurityAuditEntry Num)

theorem property_hashedFields (f : Field) : property f.key (hashedFields F e) = f.value F e :=
  property_filterMap (Field.value F e) Field.nodup_keys (Field.mem_all f)

theorem nodup_hashedFields : ((hashedFields F e).map Prod.fst).Nodup := by
  have hsub : ((hashedFields F e).map Prod.fst).Sublist (Field.all.map Field.key) := by
    unfold hashedFields
    generalize Field.all = fields
    induction fields with
    | nil => exact List.Sublist.slnil
    | cons f fields ih =>
      cases hv : f.value F e with
      | none =>
        rw [filterMap_cons_none (by simp [hv])]
        exact ih.cons f.key
      | some v =>
        rw [filterMap_cons_some (by simp [hv]; rfl)]
        exact ih.cons_cons f.key
  exact Field.nodup_keys.sublist hsub

/-- A value as a stable text shows it. -/
def shown (F : NumberFormat Num) (v : Json Num) : Json Num :=
  reread F (sortForJson v)

variable {F : NumberFormat Num}

theorem str_eq_of_shown {t t' : JsText}
    (h : (some (.str t) : Option (Json Num)).map (shown F) = (some (.str t')).map (shown F)) :
    t = t' := by
  simpa [shown, sortForJson, sortWith, reread] using h

theorem optional_eq_of_shown {t t' : Option JsText}
    (h : (t.map Json.str : Option (Json Num)).map (shown F) =
      (t'.map Json.str).map (shown F)) : t = t' := by
  cases t with
  | none =>
    cases t' with
    | none => rfl
    | some t' => cases h
  | some t =>
    cases t' with
    | none => cases h
    | some t' => rw [str_eq_of_shown h]

theorem prevHash_eq_of_shown {e e' : NormalizedSecurityAuditEntry Num}
    (h : (Field.prevHash.value F e).map (shown F) = (Field.prevHash.value F e').map (shown F)) :
    e.prevHash = e'.prevHash := by
  simp only [Field.value, Option.map_some, Option.some.injEq] at h
  cases hp : e.prevHash with
  | none =>
    cases hp' : e'.prevHash with
    | none => rfl
    | some t' =>
      rw [hp, hp'] at h
      cases h
  | some t =>
    cases hp' : e'.prevHash with
    | none =>
      rw [hp, hp'] at h
      cases h
    | some t' =>
      rw [hp, hp'] at h
      rw [str_eq_of_shown (congrArg some h)]

/-- **A stable text determines the properties**, as it shows them. -/
theorem property_of_stable_eq (F : NumberFormat Num) {fields fields' : List (JsText × Json Num)}
    (h : (fields.map Prod.fst).Nodup) (h' : (fields'.map Prod.fst).Nodup)
    (heq : stableStringify F (.obj fields) = stableStringify F (.obj fields')) {key : JsText}
    (hkey : key ≠ protoKey) :
    (property key fields).map (shown F) = (property key fields').map (shown F) := by
  have hread (fields : List (JsText × Json Num)) (h : (fields.map Prod.fst).Nodup) :
      get? key (shown F (.obj fields)) = (property key fields).map (shown F) := by
    have hget := property_sortWith (fun key => key != protoKey) h key
    rw [if_pos (by simpa using hkey)] at hget
    rw [shown, sortForJson, sortWith] at *
    rw [reread, get?, rereadProperties_eq_map, property_map]
    rw [get?] at hget
    rw [hget, Option.map_map]
    rfl
  have hparse := congrArg (parse F) heq
  rw [stableStringify, stableStringify, sortForJson, sortForJson,
    parse_stringify F (enumerated_sortWith _ _), parse_stringify F (enumerated_sortWith _ _),
    Option.some.injEq] at hparse
  rw [← hread fields h, ← hread fields' h']
  exact congrArg (get? key) hparse

/-- **A hash determines the fields**, as the stable text shows them. -/
theorem fields_of_hash_eq {R : Runtime Num Material} (hsha : R.CollisionFree)
    {e e' : NormalizedSecurityAuditEntry Num}
    (h : computeSecurityAuditEntryHash R e = computeSecurityAuditEntryHash R e') (f : Field) :
    (f.value R.numbers e).map (shown R.numbers) = (f.value R.numbers e').map (shown R.numbers) := by
  have htext := hsha _ _ (wellFormed_stringify _ _) (wellFormed_stringify _ _) h
  have hproperty := property_of_stable_eq R.numbers (nodup_hashedFields _ e)
    (nodup_hashedFields _ e') htext f.key_ne_protoKey
  rwa [property_hashedFields, property_hashedFields] at hproperty

end RelayIde.Audit
