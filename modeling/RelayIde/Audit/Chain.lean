import RelayIde.Audit.Log
import RelayIde.Library.Machine

/-!
# The Chain of Appended Entries

What a sequence of appends leaves in the table, and when it passes its own check: the hash is
taken over the entry in memory, the check over the entry read back from its row.

- `verify_of_appends` — which reports survive the way through their row
-/

namespace RelayIde.Audit

open Library List
open Library.JsText (utf16 toWellFormed WellFormed)
open Library.Json

variable {Num Material : Type}

/-! ## Normalized values -/

/-- Properties with text values, their keys among `keys` in this order. -/
def Texts (keys : List JsText) (properties : List (JsText × Json Num)) : Prop :=
  (properties.map Prod.fst).Sublist keys ∧ ∀ p ∈ properties, ∃ t, p.2 = .str t

theorem texts_single (key t : JsText) : Texts [key] [(key, (.str t : Json Num))] :=
  ⟨List.Sublist.refl _, fun p hp => ⟨t, by rw [mem_singleton.mp hp]⟩⟩

theorem texts_truthyField (key : JsText) (t : Option JsText) :
    Texts [key] (truthyField key t : List (JsText × Json Num)) := by
  unfold truthyField
  cases truthy t with
  | none => exact ⟨nil_sublist _, fun p hp => absurd hp not_mem_nil⟩
  | some t => exact texts_single key t

theorem Texts.append {keys keys' : List JsText} {l l' : List (JsText × Json Num)}
    (h : Texts keys l) (h' : Texts keys' l') : Texts (keys ++ keys') (l ++ l') := by
  constructor
  · rw [map_append]
    exact h.1.append h'.1
  · intro p hp
    rcases mem_append.mp hp with hp | hp
    · exact h.2 p hp
    · exact h'.2 p hp

/-- What every column value of an appended entry is. -/
structure Storable (v : Json Num) : Prop where
  plain : Plain v
  enumerated : Enumerated v
  protoFree : mentions protoKey v = false

theorem Texts.storable {keys : List JsText} {properties : List (JsText × Json Num)}
    (h : Texts keys properties) (hkeys : keys.Pairwise Precedes) (hproto : protoKey ∉ keys) :
    Storable (.obj properties) := by
  refine ⟨?_, ⟨?_, ?_⟩, ?_⟩
  · rw [Plain, plainProperties_iff]
    intro p hp
    obtain ⟨t, ht⟩ := h.2 p hp
    rw [ht]
    trivial
  · rw [← pairwise_map]
    exact hkeys.sublist h.1
  · rw [enumeratedProperties_iff]
    intro p hp
    obtain ⟨t, ht⟩ := h.2 p hp
    rw [ht]
    trivial
  · rw [mentions, mentionsProperties_eq_any, Bool.or_eq_false_iff, any_eq_false, any_eq_false]
    constructor
    · intro p hp heq
      apply hproto
      rw [← beq_iff_eq.mp heq]
      exact h.1.subset (mem_map_of_mem hp)
    · intro p hp
      obtain ⟨t, ht⟩ := h.2 p hp
      rw [ht]
      exact Bool.false_ne_true

theorem storable_normalizePeer (peer : SecurityAuditPeerIdentity) :
    Storable (normalizePeer peer : Json Num) := by
  have htexts := (@texts_single Num (utf16 "kind") peer.kind.text).append
    ((((texts_truthyField (utf16 "nodeId") peer.nodeId).append
      (texts_truthyField (utf16 "credentialId") peer.credentialId)).append
      (texts_truthyField (utf16 "displayName") peer.displayName)).append
      (texts_truthyField (utf16 "principalHash") peer.principalHash))
  exact htexts.storable (by decide) (by decide)

theorem storable_normalizeNode (node : Option SecurityAuditNodeIdentity) :
    Storable (normalizeNode node : Json Num) := by
  have htexts := (@texts_truthyField Num (utf16 "nodeId") (node.bind (·.nodeId))).append
    (texts_truthyField (utf16 "trustTier") ((node.bind (·.trustTier)).map (·.text)))
  exact htexts.storable (by decide) (by decide)

theorem storable_normalizeIntent (intent : SecurityAuditIntent) :
    Storable (normalizeIntent intent : Json Num) := by
  have htexts := (@texts_single Num (utf16 "action") intent.action).append
    (texts_truthyField (utf16 "target") intent.target)
  exact htexts.storable (by decide) (by decide)

theorem storable_bitsJson (bits : List JsText) : Storable (bitsJson bits : Json Num) := by
  refine ⟨?_, ?_, ?_⟩
  · rw [bitsJson, Plain, plainElements_iff]
    intro v hv
    obtain ⟨t, -, rfl⟩ := mem_map.mp hv
    trivial
  · rw [bitsJson, Enumerated, enumeratedElements_iff]
    intro v hv
    obtain ⟨t, -, rfl⟩ := mem_map.mp hv
    trivial
  · rw [bitsJson, mentions, mentionsElements_eq_any, any_eq_false]
    intro v hv
    obtain ⟨t, -, rfl⟩ := mem_map.mp hv
    exact Bool.false_ne_true

variable {F : NumberFormat Num} {log' : SecurityAuditLog Num}

theorem Storable.parse_column {v : Json Num} (h : Storable v) :
    parse F (toWellFormed (stringify F v)) = some v := by
  rw [wellFormed_stringify F v, parse_stringify F h.enumerated, reread_of_plain F v h.plain]

/-- An entry as `append` normalizes it; its hash is computed over the other fields. -/
structure Normalized (R : Runtime Num Material) (entry : NormalizedSecurityAuditEntry Num) :
    Prop where
  schemaVersion : entry.schemaVersion = R.numbers.ofNat SECURITY_AUDIT_SCHEMA_VERSION
  eventType : WellFormed entry.eventType
  decision : WellFormed entry.decision
  peer : Storable entry.peer
  node : Storable entry.node
  intent : Storable entry.intent
  requiredBits : Storable entry.requiredBits
  grantedBits : Storable entry.grantedBits
  deniedBits : Storable entry.deniedBits
  sessionId : truthy entry.sessionId = entry.sessionId
  aclRef : truthy entry.aclRef = entry.aclRef
  policyVersion : truthy entry.policyVersion = entry.policyVersion
  scopeHash : WellFormed entry.scopeHash
  paramsHash : WellFormed entry.paramsHash
  prevHash : entry.prevHash.map toWellFormed = entry.prevHash
  entryHash : entry.entryHash = computeSecurityAuditEntryHash R entry

theorem truthy_truthy (t : Option JsText) : truthy (truthy t) = truthy t := by
  unfold truthy
  rw [Option.filter_filter]
  congr 1
  funext t
  simp

theorem wellFormed_of_isSecurityAuditEventType {t : JsText}
    (h : isSecurityAuditEventType t = true) : WellFormed t := by
  have hall : ∀ t ∈ SECURITY_AUDIT_EVENT_TYPES, WellFormed t := by decide
  exact hall t (contains_iff_mem.mp h)

theorem SecurityAuditDecision.wellFormed_text (decision : SecurityAuditDecision) :
    WellFormed decision.text := by
  cases decision <;> decide

variable {R : Runtime Num Material} {input : SecurityAuditEntryInput Num Material}
  {generated : Generated} {sequence : ℕ} {prevHash : Option JsText}
  {entry : NormalizedSecurityAuditEntry Num} {log : SecurityAuditLog Num}
  {entries : List (NormalizedSecurityAuditEntry Num)} {table : List (JsText × JsText)}

theorem normalized_of_normalize (hprev : prevHash.map toWellFormed = prevHash)
    (h : normalizeSecurityAuditEntry R input generated sequence prevHash = some entry) :
    Normalized R entry := by
  unfold normalizeSecurityAuditEntry at h
  split at h
  · rename_i htype
    cases h
    exact
      { schemaVersion := rfl
        eventType := wellFormed_of_isSecurityAuditEventType htype
        decision := input.decision.wellFormed_text
        peer := storable_normalizePeer input.peer
        node := storable_normalizeNode input.node
        intent := storable_normalizeIntent input.intent
        requiredBits := storable_bitsJson input.requiredBits
        grantedBits := storable_bitsJson input.grantedBits
        deniedBits := storable_bitsJson input.deniedBits
        sessionId := truthy_truthy input.sessionId
        aclRef := truthy_truthy input.aclRef
        policyVersion := truthy_truthy input.policyVersion
        scopeHash := R.wellFormed_sha256Hex _
        paramsHash := R.wellFormed_sha256Hex _
        prevHash := hprev
        entryHash := rfl }
  · cases h

/-! ## Through a row and back -/

/-- What a row gives back: texts as UTF-8 keeps them, and no source diagnostics. -/
def readBack (entry : NormalizedSecurityAuditEntry Num) : NormalizedSecurityAuditEntry Num :=
  { entry with
    eventId := toWellFormed entry.eventId
    timestamp := toWellFormed entry.timestamp
    reasonCode := toWellFormed entry.reasonCode
    sessionId := entry.sessionId.map toWellFormed
    aclRef := entry.aclRef.map toWellFormed
    policyVersion := entry.policyVersion.map toWellFormed
    sourceDiagnostics := none
    correlationId := toWellFormed entry.correlationId }

theorem truthy_map_toWellFormed {t : Option JsText} (h : truthy t = t) :
    truthy (t.map toWellFormed) = t.map toWellFormed := by
  cases t with
  | none => rfl
  | some t =>
    have hne : t ≠ [] := by
      intro hnil
      subst hnil
      cases h
    rw [truthy]
    simpa using JsText.toWellFormed_ne_nil hne

theorem wellFormed_entryHash (h : Normalized R entry) :
    toWellFormed entry.entryHash = entry.entryHash := by
  rw [h.entryHash]
  exact R.wellFormed_sha256Hex _

theorem rowToEntry_entryToRow (h : Normalized R entry) :
    rowToEntry R.numbers (entryToRow R.numbers entry) = some (readBack entry) := by
  have htype : toWellFormed entry.eventType = entry.eventType := h.eventType
  have hdecision : toWellFormed entry.decision = entry.decision := h.decision
  have hscope : toWellFormed entry.scopeHash = entry.scopeHash := h.scopeHash
  have hparams : toWellFormed entry.paramsHash = entry.paramsHash := h.paramsHash
  simp [rowToEntry, entryToRow, h.peer.parse_column, h.node.parse_column, h.intent.parse_column,
    h.requiredBits.parse_column, h.grantedBits.parse_column, h.deniedBits.parse_column,
    truthy_map_toWellFormed h.sessionId, truthy_map_toWellFormed h.aclRef,
    truthy_map_toWellFormed h.policyVersion, htype, hdecision, hscope, hparams, h.prevHash,
    wellFormed_entryHash h, readBack]

/-- The entry comes back as it was. -/
structure Faithful (entry : NormalizedSecurityAuditEntry Num) : Prop where
  eventId : WellFormed entry.eventId
  timestamp : WellFormed entry.timestamp
  reasonCode : WellFormed entry.reasonCode
  sessionId : ∀ t, entry.sessionId = some t → WellFormed t
  aclRef : ∀ t, entry.aclRef = some t → WellFormed t
  policyVersion : ∀ t, entry.policyVersion = some t → WellFormed t
  correlationId : WellFormed entry.correlationId
  sourceDiagnostics : entry.sourceDiagnostics = none

theorem map_toWellFormed_eq_iff (t : Option JsText) :
    t.map toWellFormed = t ↔ ∀ s, t = some s → WellFormed s := by
  cases t with
  | none => simp
  | some t => simp [WellFormed]

theorem Faithful.readBack_eq (h : Faithful entry) : readBack entry = entry := by
  have heventId : toWellFormed entry.eventId = entry.eventId := h.eventId
  have htimestamp : toWellFormed entry.timestamp = entry.timestamp := h.timestamp
  have hreason : toWellFormed entry.reasonCode = entry.reasonCode := h.reasonCode
  have hcorrelation : toWellFormed entry.correlationId = entry.correlationId := h.correlationId
  rw [readBack, heventId, htimestamp, hreason, hcorrelation,
    (map_toWellFormed_eq_iff _).mpr h.sessionId, (map_toWellFormed_eq_iff _).mpr h.aclRef,
    (map_toWellFormed_eq_iff _).mpr h.policyVersion, ← h.sourceDiagnostics]

/-- **Through the row**: only an entry that comes back as it was keeps its hash. -/
theorem faithful_of_hash_readBack (hsha : R.CollisionFree)
    {entry : NormalizedSecurityAuditEntry Num}
    (h : computeSecurityAuditEntryHash R (readBack entry) =
      computeSecurityAuditEntryHash R entry) : Faithful entry := by
  have hfield := fields_of_hash_eq hsha h
  exact
    { eventId := str_eq_of_shown (hfield .eventId)
      timestamp := str_eq_of_shown (hfield .timestamp)
      reasonCode := str_eq_of_shown (hfield .reasonCode)
      sessionId := (map_toWellFormed_eq_iff _).mp (optional_eq_of_shown (hfield .sessionId))
      aclRef := (map_toWellFormed_eq_iff _).mp (optional_eq_of_shown (hfield .aclRef))
      policyVersion := (map_toWellFormed_eq_iff _).mp (optional_eq_of_shown (hfield .policyVersion))
      correlationId := str_eq_of_shown (hfield .correlationId)
      sourceDiagnostics := by
        have hnone := hfield .sourceDiagnostics
        simpa [Field.value, readBack] using hnone }

/-! ## The log under appends -/

/-- A call of `append`. -/
structure AppendCall (Num Material : Type) where
  input : SecurityAuditEntryInput Num Material
  generated : Generated

def appendStep (R : Runtime Num Material) (log : SecurityAuditLog Num)
    (call : AppendCall Num Material) : SecurityAuditLog Num :=
  match append R log call.input call.generated with
  | .ok (log', _) => log'
  | .error _ => log

variable {calls : List (AppendCall Num Material)}

def logAfter (R : Runtime Num Material) (calls : List (AppendCall Num Material)) :
    SecurityAuditLog Num :=
  exec (appendStep R) emptyLog calls

def accepted (R : Runtime Num Material) :
    SecurityAuditLog Num → List (AppendCall Num Material) → List (AppendCall Num Material)
  | _, [] => []
  | log, call :: calls =>
    match append R log call.input call.generated with
    | .ok (log', _) => call :: accepted R log' calls
    | .error _ => accepted R log calls

/-- The log holds the rows of `entries`, the entries of the accepted calls. -/
structure Appended (R : Runtime Num Material) (log : SecurityAuditLog Num)
    (calls : List (AppendCall Num Material)) (entries : List (NormalizedSecurityAuditEntry Num)) :
    Prop where
  rows : log.rows = entries.map (entryToRow R.numbers)
  checkpoint : log.checkpoint = tail log.rows
  numbered : log.rows.map (·.sequence) = List.range' 1 log.rows.length
  linked : HashChain.Linked (·.entryHash) (·.prevHash) none entries log.checkpoint.latestHash
  normalized : ∀ entry ∈ entries, Normalized R entry
  reported : List.Forall₂ (fun call entry => ∃ sequence prevHash,
    normalizeSecurityAuditEntry R call.input call.generated sequence prevHash = some entry)
    calls entries

theorem appended_emptyLog (R : Runtime Num Material) : Appended R emptyLog [] [] where
  rows := rfl
  checkpoint := rfl
  numbered := rfl
  linked := HashChain.Linked.nil none
  normalized _ h := absurd h not_mem_nil
  reported := List.Forall₂.nil

theorem append_ok
    (h : append R log input generated = .ok (log', entry)) :
    normalizeSecurityAuditEntry R input generated ((tail log.rows).latestSequence + 1)
      (tail log.rows).latestHash = some entry ∧
    log' = { rows := log.rows ++ [entryToRow R.numbers entry]
             checkpoint := checkpointAfterInsert log.checkpoint (entryToRow R.numbers entry) } := by
  unfold append at h
  split at h
  · cases h
  · cases hentry : normalizeSecurityAuditEntry R input generated
        ((tail log.rows).latestSequence + 1) (tail log.rows).latestHash with
    | none =>
      rw [hentry] at h
      cases h
    | some e =>
      rw [hentry] at h
      dsimp only at h
      unfold insertRow at h
      split at h
      · cases h
      · rename_i log'' hinsert
        split at hinsert
        · cases hinsert
        · cases hinsert
          cases h
          exact ⟨rfl, rfl⟩

theorem sequence_of_normalize
    (h : normalizeSecurityAuditEntry R input generated sequence prevHash = some entry) :
    entry.sequence = sequence ∧ entry.prevHash = prevHash := by
  unfold normalizeSecurityAuditEntry at h
  split at h
  · cases h
    exact ⟨rfl, rfl⟩
  · cases h

section
variable (h : Appended R log calls entries)
include h

theorem Appended.tail_latestHash :
    (tail log.rows).latestHash.map toWellFormed = (tail log.rows).latestHash := by
  rw [h.rows, tail, getLast?_map]
  cases hlast : entries.getLast? with
  | none => rfl
  | some entry =>
    have hentry := h.normalized entry (mem_of_getLast? hlast)
    show some (toWellFormed (toWellFormed entry.entryHash)) = some (toWellFormed entry.entryHash)
    rw [wellFormed_entryHash hentry, wellFormed_entryHash hentry]

theorem Appended.tail_latestSequence : (tail log.rows).latestSequence = log.rows.length := by
  have hnumbered := h.numbered
  unfold tail
  cases hlast : log.rows.getLast? with
  | none =>
    rw [getLast?_eq_none_iff.mp hlast]
    rfl
  | some row =>
    obtain ⟨front, hfront⟩ := getLast?_eq_some_iff.mp hlast
    rw [hfront, map_append, length_append, length_singleton, range'_concat] at hnumbered
    have hrow := (append_inj' hnumbered rfl).2
    rw [map_singleton, List.cons.injEq] at hrow
    rw [hfront, length_append, length_singleton]
    dsimp only
    omega

variable {call : AppendCall Num Material}

/-- **One append** keeps the log a chain up to its checkpoint. -/
theorem Appended.append_ok
    {entry : NormalizedSecurityAuditEntry Num}
    (hok : append R log call.input call.generated = .ok (log', entry)) :
    Appended R log' (calls ++ [call]) (entries ++ [entry]) := by
  obtain ⟨hnormalize, rfl⟩ := Audit.append_ok hok
  have hentry := normalized_of_normalize h.tail_latestHash hnormalize
  obtain ⟨hsequence, hprev⟩ := sequence_of_normalize hnormalize
  have hnext : (entryToRow R.numbers entry).sequence = log.rows.length + 1 := by
    rw [← h.tail_latestSequence]
    exact hsequence
  have hlink : (entryToRow R.numbers entry).prevHash = log.checkpoint.latestHash := by
    show entry.prevHash.map toWellFormed = log.checkpoint.latestHash
    rw [hentry.prevHash, hprev, h.checkpoint]
  -- the trigger finds its condition met
  have hcheckpoint : checkpointAfterInsert log.checkpoint (entryToRow R.numbers entry) =
      { latestSequence := (entryToRow R.numbers entry).sequence
        latestHash := some (entryToRow R.numbers entry).entryHash } := by
    unfold checkpointAfterInsert
    rw [if_pos ⟨by rw [hnext, h.checkpoint, h.tail_latestSequence], hlink.symm⟩]
  refine ⟨?_, ?_, ?_, ?_, ?_, ?_⟩
  · rw [h.rows, map_append, map_singleton]
  · rw [hcheckpoint, tail, getLast?_concat]
  · rw [map_append, h.numbered, map_singleton, hnext, length_append,
      length_singleton, range'_concat, Nat.one_mul, Nat.add_comm 1]
  · rw [HashChain.linked_concat, hcheckpoint]
    refine ⟨?_, ?_⟩
    · rw [hprev, ← h.checkpoint]
      exact h.linked
    · exact congrArg some (wellFormed_entryHash hentry)
  · intro e he
    rcases mem_append.mp he with he | he
    · exact h.normalized e he
    · rw [mem_singleton.mp he]
      exact hentry
  · exact rel_append h.reported (List.Forall₂.cons ⟨_, _, hnormalize⟩ List.Forall₂.nil)

/-- **A run of appends**: the log is the chain of the accepted reports. -/
theorem appended_exec (more : List (AppendCall Num Material)) :
    ∃ entries', Appended R (exec (appendStep R) log more) (calls ++ accepted R log more)
      entries' := by
  induction more generalizing log calls entries with
  | nil => exact ⟨entries, by rw [accepted, append_nil]; exact h⟩
  | cons call more ih =>
    rw [exec_cons, appendStep, accepted]
    cases hok : append R log call.input call.generated with
    | error e => exact ih h
    | ok result =>
      obtain ⟨entries', h'⟩ := ih (h.append_ok hok)
      exact ⟨entries', by simpa using h'⟩

end

theorem appended_logAfter (R : Runtime Num Material) (calls : List (AppendCall Num Material)) :
    ∃ entries, Appended R (logAfter R calls) (accepted R emptyLog calls) entries := by
  obtain ⟨entries, h⟩ := appended_exec (appended_emptyLog R) calls
  exact ⟨entries, h⟩

/-! ## A concrete runtime -/

/-- A digest function given by a table, with a text of its own for every other argument. -/
def digestIn (table : List (JsText × JsText)) (t : JsText) : JsText :=
  match table.lookup t with
  | some digest => digest
  | none => if WellFormed t then utf16 "sha256:" ++ t else utf16 "sha256"

theorem mem_of_lookup {t digest : JsText}
    (h : table.lookup t = some digest) : (t, digest) ∈ table := by
  obtain ⟨front, back, rfl, -⟩ := lookup_eq_some_iff.mp h
  exact mem_append_right _ mem_cons_self

theorem wellFormed_digestIn
    (h : ∀ p ∈ table, WellFormed p.2) (t : JsText) : WellFormed (digestIn table t) := by
  unfold digestIn
  cases hlookup : table.lookup t with
  | some digest =>
    exact h _ (mem_of_lookup hlookup)
  | none =>
    dsimp only
    split
    · rename_i ht
      exact JsText.WellFormed.append (by decide) ht
    · decide

theorem digestIn_injective (hnodup : (table.map Prod.snd).Nodup)
    (hhex : ∀ p ∈ table, p.2.head? ≠ some 115) {t t' : JsText} (ht : WellFormed t)
    (ht' : WellFormed t') (h : digestIn table t = digestIn table t') : t = t' := by
  have hother (t digest : JsText) (hlookup : table.lookup t = some digest) (t' : JsText) :
      digest ≠ utf16 "sha256:" ++ t' := by
    intro heq
    subst heq
    exact hhex _ (mem_of_lookup hlookup) rfl
  unfold digestIn at h
  rw [if_pos ht, if_pos ht'] at h
  cases hlookup : table.lookup t with
  | some digest =>
    rw [hlookup] at h
    cases hlookup' : table.lookup t' with
    | some digest' =>
      rw [hlookup'] at h
      subst h
      have hpair := inj_on_of_nodup_map hnodup (mem_of_lookup hlookup) (mem_of_lookup hlookup') rfl
      exact congrArg Prod.fst hpair
    | none =>
      rw [hlookup'] at h
      exact absurd h (hother t digest hlookup t')
  | none =>
    rw [hlookup] at h
    cases hlookup' : table.lookup t' with
    | some digest' =>
      rw [hlookup'] at h
      exact absurd h.symm (hother t' digest' hlookup' t)
    | none =>
      rw [hlookup'] at h
      exact append_cancel_left h

/-- The payload of a denial, with what stands behind its sequence. -/
def denialPayload (diagnostics : String) : JsText :=
  utf16 ("\x7b\"correlationId\":\"c1\",\"decision\":\"deny\",\"deniedBits\":[],\"eventId\":\"e1\"," ++
    "\"eventType\":\"denial\",\"grantedBits\":[],\"intent\":\x7b\"action\":\"node.hello\"\x7d," ++
    "\"node\":\x7b\x7d,\"paramsHash\":" ++
    "\"74234e98afe7498fb5daf1f36ac2d78acc339464f950703b8c019892f982b90b\"," ++
    "\"peer\":\x7b\"kind\":\"node\",\"nodeId\":\"n1\"\x7d,\"prevHash\":null," ++
    "\"reasonCode\":\"SOURCE_DRIFT\",\"requiredBits\":[],\"schemaVersion\":1,\"scopeHash\":" ++
    "\"74234e98afe7498fb5daf1f36ac2d78acc339464f950703b8c019892f982b90b\",\"sequence\":1" ++
    diagnostics ++ ",\"timestamp\":\"2026-01-01T00:00:00.000Z\"\x7d")

/-- The SHA-256 digests of the texts hashed below. -/
def sha256Table : List (JsText × JsText) :=
  [(nullWord, utf16 "74234e98afe7498fb5daf1f36ac2d78acc339464f950703b8c019892f982b90b"),
    (denialPayload ",\"sourceDiagnostics\":\x7b\"policy\":\"audit\",\"state\":\"drift\"\x7d",
      utf16 "69114622f7d9f42b8e53323f593fc1daeddf15297a687c0e251080757195e16d"),
    (denialPayload "", utf16 "c50ce49f7be48f2ff407602b9c0779c0d6021a8e17316f8a6472a8b16dfafa5c")]

theorem digests_sha256Table :
    (∀ p ∈ sha256Table, WellFormed p.2) ∧ (sha256Table.map Prod.snd).Nodup ∧
      ∀ p ∈ sha256Table, p.2.head? ≠ some 115 := by
  decide +kernel

def tableRuntime : Runtime (Option ℕ) (Json (Option ℕ)) where
  numbers := counting
  sha256Hex := digestIn sha256Table
  redactAuditValue value := value
  wellFormed_sha256Hex := wellFormed_digestIn digests_sha256Table.1

theorem collisionFree_tableRuntime : tableRuntime.CollisionFree :=
  fun _ _ => digestIn_injective digests_sha256Table.2.1 digests_sha256Table.2.2

/-- A node denied at its hello, with or without the diagnostics of its source. -/
def denial (sourceDiagnostics : Option (List (JsText × Json (Option ℕ)))) :
    AppendCall (Option ℕ) (Json (Option ℕ)) where
  input :=
    { eventId := some (utf16 "e1")
      timestamp := some (utf16 "2026-01-01T00:00:00.000Z")
      eventType := utf16 "denial"
      decision := .deny
      reasonCode := utf16 "SOURCE_DRIFT"
      peer := { kind := .node, nodeId := some (utf16 "n1") }
      intent := { action := utf16 "node.hello" }
      sourceDiagnostics := sourceDiagnostics
      correlationId := some (utf16 "c1") }
  generated :=
    { eventId := utf16 "7f0c1c1e-4f6e-4c1b-9d53-6f4f9a1e0b21"
      timestamp := utf16 "2026-01-01T00:00:00.000Z"
      correlationId := utf16 "0b9ad3c4-33c5-4a43-8a53-6d2e7a5f9c10"
      wellFormed := by decide }

def driftDiagnostics : List (JsText × Json (Option ℕ)) :=
  [(utf16 "state", .str (utf16 "drift")), (utf16 "policy", .str (utf16 "audit"))]

/-! ## The check of an appended log -/

theorem decoded_unique {rows : List (AuditRow Num)}
    {entries' : List (NormalizedSecurityAuditEntry Num)}
    (h : List.Forall₂ (fun row entry => rowToEntry F row = some entry) rows entries)
    (h' : List.Forall₂ (fun row entry => rowToEntry F row = some entry) rows entries') :
    entries = entries' := by
  induction h generalizing entries' with
  | nil => exact (List.forall₂_nil_left_iff.mp h').symm
  | cons hrow _ ih =>
    obtain ⟨entry, rest, hentry, hrest, rfl⟩ := List.forall₂_cons_left_iff.mp h'
    rw [ih hrest, Option.some.inj (hrow.symm.trans hentry)]

theorem Appended.decoded (h : Appended R log calls entries) :
    List.Forall₂ (fun row entry => rowToEntry R.numbers row = some entry) log.rows
      (entries.map readBack) := by
  rw [h.rows, List.forall₂_map_left_iff, List.forall₂_map_right_iff, List.forall₂_same]
  intro entry he
  exact rowToEntry_entryToRow (h.normalized entry he)

/-- **The check of an appended log** passes when every entry read back has the hash of the entry
    that was hashed. -/
theorem Appended.verify_ok_iff (h : Appended R log calls entries) :
    (verify R log).ok = true ↔ ∀ entry ∈ entries,
      computeSecurityAuditEntryHash R (readBack entry) =
        computeSecurityAuditEntryHash R entry := by
  unfold verify verifyAuditRows
  rw [verifyFrom_ok]
  constructor
  · rintro ⟨entries', hverified⟩ entry he
    obtain rfl := decoded_unique h.decoded hverified.decoded
    rw [hverified.hashed _ (mem_map_of_mem he)]
    exact (h.normalized entry he).entryHash
  · intro hall
    refine ⟨entries.map readBack, h.decoded, ?_, ?_, ?_, ?_⟩
    · exact h.numbered
    · intro e he
      obtain ⟨entry, hentry, rfl⟩ := mem_map.mp he
      rw [hall entry hentry]
      exact (h.normalized entry hentry).entryHash.symm
    · rw [HashChain.linked_map]
      exact h.linked
    · rw [h.checkpoint, h.tail_latestSequence, Nat.zero_add]

def SecurityAuditEntryInput.columnTexts (input : SecurityAuditEntryInput Num Material) :
    List JsText :=
  input.reasonCode :: [input.eventId, input.timestamp, input.sessionId, input.aclRef,
    input.policyVersion, input.correlationId].reduceOption

/-- A report whose entry comes back from its row. -/
def SecurityAuditEntryInput.SurvivesRow (input : SecurityAuditEntryInput Num Material) : Prop :=
  input.sourceDiagnostics = none ∧ ∀ t ∈ input.columnTexts, WellFormed t

theorem wellFormed_truthy_iff (t : Option JsText) :
    (∀ s, truthy t = some s → WellFormed s) ↔ ∀ s, t = some s → WellFormed s := by
  unfold truthy
  constructor
  · intro h s hs
    by_cases hnil : s = []
    · subst hnil
      rfl
    · exact h s (by rw [hs, Option.filter_some, if_pos (by simpa using hnil)])
  · intro h s hs
    exact h s (Option.eq_some_of_filter_eq_some hs)

theorem wellFormed_getD_iff {t : Option JsText} {generated : JsText} (h : WellFormed generated) :
    WellFormed (t.getD generated) ↔ ∀ s, t = some s → WellFormed s := by
  cases t with
  | none => simp [h]
  | some t => simp

theorem faithful_iff_survivesRow
    (h : normalizeSecurityAuditEntry R input generated sequence prevHash = some entry) :
    Faithful entry ↔ input.SurvivesRow := by
  unfold normalizeSecurityAuditEntry at h
  split at h
  · cases h
    obtain ⟨heventId, htimestamp, hcorrelationId⟩ := generated.wellFormed
    constructor
    · intro hf
      have heventId := (wellFormed_getD_iff heventId).mp hf.eventId
      have htimestamp := (wellFormed_getD_iff htimestamp).mp hf.timestamp
      have hcorrelationId := (wellFormed_getD_iff hcorrelationId).mp hf.correlationId
      have hsessionId := (wellFormed_truthy_iff _).mp hf.sessionId
      have haclRef := (wellFormed_truthy_iff _).mp hf.aclRef
      have hpolicyVersion := (wellFormed_truthy_iff _).mp hf.policyVersion
      refine ⟨by simpa using hf.sourceDiagnostics, fun t ht => ?_⟩
      rcases mem_cons.mp ht with rfl | ht
      · exact hf.reasonCode
      · rw [reduceOption_mem_iff] at ht
        simp only [mem_cons, not_mem_nil, or_false] at ht
        rcases ht with ht | ht | ht | ht | ht | ht
        · exact heventId t ht.symm
        · exact htimestamp t ht.symm
        · exact hsessionId t ht.symm
        · exact haclRef t ht.symm
        · exact hpolicyVersion t ht.symm
        · exact hcorrelationId t ht.symm
    · rintro ⟨hdiagnostics, htexts⟩
      have hoptional (t : Option JsText) (ht : t ∈ [input.eventId, input.timestamp,
          input.sessionId, input.aclRef, input.policyVersion, input.correlationId]) :
          ∀ s, t = some s → WellFormed s := by
        intro s hs
        apply htexts s
        exact mem_cons_of_mem _ (reduceOption_mem_iff.mpr (hs ▸ ht))
      exact
        { eventId := (wellFormed_getD_iff heventId).mpr (hoptional _ (by simp))
          timestamp := (wellFormed_getD_iff htimestamp).mpr (hoptional _ (by simp))
          reasonCode := htexts _ mem_cons_self
          sessionId := (wellFormed_truthy_iff _).mpr (hoptional _ (by simp))
          aclRef := (wellFormed_truthy_iff _).mpr (hoptional _ (by simp))
          policyVersion := (wellFormed_truthy_iff _).mpr (hoptional _ (by simp))
          correlationId := (wellFormed_getD_iff hcorrelationId).mpr (hoptional _ (by simp))
          sourceDiagnostics := by rw [hdiagnostics]; rfl }
  · cases h

theorem verify_of_survivesRow (h : ∀ call ∈ accepted R emptyLog calls, call.input.SurvivesRow) :
    (verify R (logAfter R calls)).ok = true ∧
      (verify R (logAfter R calls)).entriesVerified = (accepted R emptyLog calls).length := by
  obtain ⟨entries, happended⟩ := appended_logAfter R calls
  have hok : (verify R (logAfter R calls)).ok = true := by
    rw [happended.verify_ok_iff]
    intro entry he
    obtain ⟨call, hcall, sequence, prevHash, hnormalize⟩ :=
      HashChain.exists_of_forall₂_right happended.reported he
    have hfaithful := (faithful_iff_survivesRow hnormalize).mpr (h call hcall)
    rw [hfaithful.readBack_eq]
  refine ⟨hok, ?_⟩
  unfold verify verifyAuditRows
  rw [verifyFrom_entriesVerified hok, happended.rows, length_map,
    happended.reported.length_eq, Nat.zero_add]

theorem survivesRow_of_verify (hsha : R.CollisionFree)
    {calls : List (AppendCall Num Material)} (hok : (verify R (logAfter R calls)).ok = true)
    (hcall : call ∈ accepted R emptyLog calls) :
    call.input.SurvivesRow := by
  obtain ⟨entries, happended⟩ := appended_logAfter R calls
  obtain ⟨entry, he, sequence, prevHash, hnormalize⟩ :=
    HashChain.exists_of_forall₂_left happended.reported hcall
  have hhash := happended.verify_ok_iff.mp hok entry he
  exact (faithful_iff_survivesRow hnormalize).mp (faithful_of_hash_readBack hsha hhash)

theorem accepted_first (h : isSecurityAuditEventType call.input.eventType = true) :
    accepted R emptyLog [call] = [call] := by
  have hinsert (row : AuditRow Num) : insertRow emptyLog row =
      some { rows := [row], checkpoint := checkpointAfterInsert emptyLog.checkpoint row } := rfl
  have htail : (emptyLog : SecurityAuditLog Num).checkpoint =
      tail (emptyLog : SecurityAuditLog Num).rows := rfl
  rw [accepted, append, if_neg (not_not.mpr htail), normalizeSecurityAuditEntry, if_pos h]
  simp only [hinsert, accepted]

/-- **Which reports a log can hold**: a log of appends passes its own check, with as many entries
    as there were appends, when every accepted report survives its row; and unless two payloads
    share a digest, only then. -/
theorem verify_of_appends (R : Runtime Num Material) (calls : List (AppendCall Num Material)) :
    ((∀ call ∈ accepted R emptyLog calls, call.input.SurvivesRow) →
      (verify R (logAfter R calls)).ok = true ∧
      (verify R (logAfter R calls)).entriesVerified = (accepted R emptyLog calls).length) ∧
    (R.CollisionFree → (verify R (logAfter R calls)).ok = true →
      ∀ call ∈ accepted R emptyLog calls, call.input.SurvivesRow) :=
  ⟨verify_of_survivesRow, fun hsha hok _ hcall => survivesRow_of_verify hsha hok hcall⟩

theorem denial_survivesRow :
    ∀ call ∈ accepted tableRuntime emptyLog [denial none], call.input.SurvivesRow := by
  intro call hcall
  rw [mem_singleton.mp hcall]
  exact ⟨rfl, by decide⟩

/-- A denial without diagnostics is held, and its log passes. -/
theorem verify_of_denial :
    (verify tableRuntime (logAfter tableRuntime [denial none])).ok = true ∧
    ∀ call ∈ accepted tableRuntime emptyLog [denial none], call.input.SurvivesRow := by
  obtain ⟨hpasses, hsurvives⟩ := verify_of_appends tableRuntime [denial none]
  have hok := (hpasses denial_survivesRow).1
  exact ⟨hok, hsurvives collisionFree_tableRuntime hok⟩

/-- With diagnostics the same denial is accepted, and the log no longer passes: no column keeps
    what the hash covers. -/
theorem diagnostics_break_verification :
    (accepted tableRuntime emptyLog [denial (some driftDiagnostics)]).length = 1 ∧
    (verify tableRuntime (logAfter tableRuntime [denial (some driftDiagnostics)])).ok = false := by
  have haccepted : accepted tableRuntime emptyLog [denial (some driftDiagnostics)] =
      [denial (some driftDiagnostics)] := accepted_first (by decide)
  refine ⟨by rw [haccepted]; rfl, ?_⟩
  rw [← Bool.not_eq_true]
  intro hok
  have hcall : denial (some driftDiagnostics) ∈
      accepted tableRuntime emptyLog [denial (some driftDiagnostics)] := by
    rw [haccepted]
    exact mem_cons_self
  have hnone := (survivesRow_of_verify collisionFree_tableRuntime hok hcall).1
  cases hnone

end RelayIde.Audit
