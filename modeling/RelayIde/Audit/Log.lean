import RelayIde.Audit.Entry
import RelayIde.Library.HashChain

/-!
# The Security Audit Log

The table `security_audit_log`, its checkpoint row and the trigger that moves it, and the check
of a stored log against its hashes.  A row is read back from its columns, so what the table has
no column for does not come back.

- `verifyAuditRows_ok` — what a passed check says
-/

namespace RelayIde.Audit

open Library List
open Library.JsText (toWellFormed WellFormed)
open Library.Json

variable {Num Material : Type}

/-! ## Rows -/

structure AuditRow (Num : Type) where
  sequence : ℕ
  eventId : JsText
  occurredAt : JsText
  schemaVersion : Num
  eventType : JsText
  decision : JsText
  reasonCode : JsText
  peerJson : JsText
  nodeJson : JsText
  sessionId : Option JsText
  intentJson : JsText
  scopeHash : JsText
  paramsHash : JsText
  requiredBitsJson : JsText
  grantedBitsJson : JsText
  deniedBitsJson : JsText
  aclRef : Option JsText
  policyVersion : Option JsText
  correlationId : JsText
  prevHash : Option JsText
  entryHash : JsText

/-- The row `append` inserts.  A TEXT column keeps the UTF-8 encoding of a text. -/
def entryToRow (F : NumberFormat Num) (entry : NormalizedSecurityAuditEntry Num) :
    AuditRow Num where
  sequence := entry.sequence
  eventId := toWellFormed entry.eventId
  occurredAt := toWellFormed entry.timestamp
  schemaVersion := entry.schemaVersion
  eventType := toWellFormed entry.eventType
  decision := toWellFormed entry.decision
  reasonCode := toWellFormed entry.reasonCode
  peerJson := toWellFormed (stringify F entry.peer)
  nodeJson := toWellFormed (stringify F entry.node)
  sessionId := entry.sessionId.map toWellFormed
  intentJson := toWellFormed (stringify F entry.intent)
  scopeHash := toWellFormed entry.scopeHash
  paramsHash := toWellFormed entry.paramsHash
  requiredBitsJson := toWellFormed (stringify F entry.requiredBits)
  grantedBitsJson := toWellFormed (stringify F entry.grantedBits)
  deniedBitsJson := toWellFormed (stringify F entry.deniedBits)
  aclRef := entry.aclRef.map toWellFormed
  policyVersion := entry.policyVersion.map toWellFormed
  correlationId := toWellFormed entry.correlationId
  prevHash := entry.prevHash.map toWellFormed
  entryHash := toWellFormed entry.entryHash

/-- The entry of a row; `none` when a JSON column does not parse. -/
def rowToEntry (F : NumberFormat Num) (row : AuditRow Num) :
    Option (NormalizedSecurityAuditEntry Num) := do
  let peer ← parse F row.peerJson
  let node ← parse F row.nodeJson
  let intent ← parse F row.intentJson
  let requiredBits ← parse F row.requiredBitsJson
  let grantedBits ← parse F row.grantedBitsJson
  let deniedBits ← parse F row.deniedBitsJson
  return {
    eventId := row.eventId
    timestamp := row.occurredAt
    sequence := row.sequence
    schemaVersion := row.schemaVersion
    eventType := row.eventType
    decision := row.decision
    reasonCode := row.reasonCode
    peer := peer
    node := node
    sessionId := truthy row.sessionId
    intent := intent
    scopeHash := row.scopeHash
    paramsHash := row.paramsHash
    requiredBits := requiredBits
    grantedBits := grantedBits
    deniedBits := deniedBits
    aclRef := truthy row.aclRef
    policyVersion := truthy row.policyVersion
    sourceDiagnostics := none
    correlationId := row.correlationId
    prevHash := row.prevHash
    entryHash := row.entryHash }

/-! ## The store -/

structure AuditCheckpointRow where
  latestSequence : ℕ
  latestHash : Option JsText
  deriving DecidableEq

structure SecurityAuditLog (Num : Type) where
  rows : List (AuditRow Num)
  checkpoint : AuditCheckpointRow

/-- A new database, after `ensureSecurityAuditCheckpoint`. -/
def emptyLog : SecurityAuditLog Num where
  rows := []
  checkpoint := { latestSequence := 0, latestHash := none }

/-- The sequence and the hash of the last row. -/
def tail (rows : List (AuditRow Num)) : AuditCheckpointRow :=
  match rows.getLast? with
  | none => { latestSequence := 0, latestHash := none }
  | some row => { latestSequence := row.sequence, latestHash := some row.entryHash }

/-- The trigger `security_audit_checkpoint_after_insert`. -/
def checkpointAfterInsert (checkpoint : AuditCheckpointRow) (row : AuditRow Num) :
    AuditCheckpointRow :=
  if checkpoint.latestSequence + 1 = row.sequence ∧ checkpoint.latestHash = row.prevHash
  then { latestSequence := row.sequence, latestHash := some row.entryHash }
  else checkpoint

/-- The insertion of a row, which the keys of the table may refuse. -/
def insertRow (log : SecurityAuditLog Num) (row : AuditRow Num) : Option (SecurityAuditLog Num) :=
  if log.rows.any (fun r => r.sequence == row.sequence || r.eventId == row.eventId) then none
  else some { rows := log.rows ++ [row], checkpoint := checkpointAfterInsert log.checkpoint row }

/-- Why `append` throws; the transaction is rolled back. -/
inductive AppendError where
  | checkpointMismatch (checkpoint tail : AuditCheckpointRow)
  | unknownEventType (eventType : JsText)
  | uniqueConstraint

def append (R : Runtime Num Material) (log : SecurityAuditLog Num)
    (input : SecurityAuditEntryInput Num Material) (generated : Generated) :
    Except AppendError (SecurityAuditLog Num × NormalizedSecurityAuditEntry Num) :=
  -- assertCheckpointMatchesTail
  if log.checkpoint ≠ tail log.rows then
    .error (.checkpointMismatch log.checkpoint (tail log.rows))
  else
    match normalizeSecurityAuditEntry R input generated ((tail log.rows).latestSequence + 1)
      (tail log.rows).latestHash with
    | none => .error (.unknownEventType input.eventType)
    | some entry =>
      match insertRow log (entryToRow R.numbers entry) with
      | none => .error .uniqueConstraint
      | some log => .ok (log, entry)

/-! ## Verification -/

inductive BreakReason where
  | malformedRow | sequenceGap | prevHashMismatch | entryHashMismatch | tailCheckpointMismatch

/-- `string | number | null`, or absent. -/
inductive BreakValue where
  | absent
  | null
  | text (t : JsText)
  | number (n : ℕ)

def BreakValue.ofHash : Option JsText → BreakValue
  | none => .null
  | some hash => .text hash

structure SecurityAuditVerificationBreak where
  sequence : ℕ
  eventId : Option JsText := none
  reason : BreakReason
  expected : BreakValue := .absent
  actual : BreakValue := .absent

/-- The outcome; `ok` is that there is no break. -/
structure SecurityAuditVerificationResult where
  entriesVerified : ℕ
  lastHash : Option JsText
  breakAt : Option SecurityAuditVerificationBreak := none

def SecurityAuditVerificationResult.ok (result : SecurityAuditVerificationResult) : Bool :=
  result.breakAt.isNone

/-- The two comparisons with the checkpoint, behind the last row. -/
def verifyTail (checkpoint : AuditCheckpointRow) (entriesVerified : ℕ) (prevHash : Option JsText) :
    SecurityAuditVerificationResult :=
  if checkpoint.latestSequence ≠ entriesVerified then
    { entriesVerified := entriesVerified
      lastHash := prevHash
      breakAt := some
        { sequence := entriesVerified + 1
          reason := .tailCheckpointMismatch
          expected := .number checkpoint.latestSequence
          actual := .number entriesVerified } }
  else if checkpoint.latestHash ≠ prevHash then
    { entriesVerified := entriesVerified
      lastHash := prevHash
      breakAt := some
        { sequence := entriesVerified
          reason := .tailCheckpointMismatch
          expected := .ofHash checkpoint.latestHash
          actual := .ofHash prevHash } }
  else { entriesVerified := entriesVerified, lastHash := prevHash }

/-- The loop over the rows: `expectedSequence` is one more than `entriesVerified`. -/
def verifyFrom (R : Runtime Num Material) (checkpoint : AuditCheckpointRow) :
    ℕ → Option JsText → List (AuditRow Num) → SecurityAuditVerificationResult
  | entriesVerified, prevHash, [] => verifyTail checkpoint entriesVerified prevHash
  | entriesVerified, prevHash, row :: rows =>
    let stop (b : SecurityAuditVerificationBreak) : SecurityAuditVerificationResult :=
      { entriesVerified := entriesVerified, lastHash := prevHash, breakAt := some b }
    if row.sequence ≠ entriesVerified + 1 then
      stop
        { sequence := entriesVerified + 1
          eventId := some row.eventId
          reason := .sequenceGap
          expected := .number (entriesVerified + 1)
          actual := .number row.sequence }
    else
      match rowToEntry R.numbers row with
      | none =>
        stop { sequence := row.sequence, eventId := some row.eventId, reason := .malformedRow }
      | some entry =>
        if entry.prevHash ≠ prevHash then
          stop
            { sequence := entry.sequence
              eventId := some entry.eventId
              reason := .prevHashMismatch
              expected := .ofHash prevHash
              actual := .ofHash entry.prevHash }
        else
          match verifySecurityAuditEntryHash R entry with
          | some expected =>
            stop
              { sequence := entry.sequence
                eventId := some entry.eventId
                reason := .entryHashMismatch
                expected := .text expected
                actual := .text entry.entryHash }
          | none => verifyFrom R checkpoint (entriesVerified + 1) (some entry.entryHash) rows

def verifyAuditRows (R : Runtime Num Material) (rows : List (AuditRow Num))
    (checkpoint : AuditCheckpointRow) : SecurityAuditVerificationResult :=
  verifyFrom R checkpoint 0 none rows

/-- `verify()` on a database that SQLite can read. -/
def verify (R : Runtime Num Material) (log : SecurityAuditLog Num) :
    SecurityAuditVerificationResult :=
  verifyAuditRows R log.rows log.checkpoint

/-! ## What a passed check says -/

/-- The entries behind a list of rows that passes the check, from the row number `n + 1` on. -/
structure Verified (R : Runtime Num Material) (checkpoint : AuditCheckpointRow) (n : ℕ)
    (prevHash : Option JsText) (rows : List (AuditRow Num))
    (entries : List (NormalizedSecurityAuditEntry Num)) : Prop where
  decoded : List.Forall₂ (fun row entry => rowToEntry R.numbers row = some entry) rows entries
  numbered : rows.map (·.sequence) = List.range' (n + 1) rows.length
  hashed : ∀ entry ∈ entries, computeSecurityAuditEntryHash R entry = entry.entryHash
  linked : HashChain.Linked (·.entryHash) (·.prevHash) prevHash entries checkpoint.latestHash
  latest : checkpoint.latestSequence = n + rows.length

theorem verifyTail_ok (checkpoint : AuditCheckpointRow) (n : ℕ) (prevHash : Option JsText) :
    (verifyTail checkpoint n prevHash).ok = true ↔
      checkpoint.latestSequence = n ∧ checkpoint.latestHash = prevHash := by
  unfold verifyTail SecurityAuditVerificationResult.ok
  split
  · rename_i hsequence
    simp [hsequence]
  · rename_i hsequence
    split
    · rename_i hhash
      simp [hhash]
    · rename_i hhash
      simp only [ne_eq, not_not] at hsequence hhash
      simp [hsequence, hhash]

variable {R : Runtime Num Material} {checkpoint : AuditCheckpointRow} {n : ℕ}
  {prevHash : Option JsText} {rows : List (AuditRow Num)}

theorem verifySecurityAuditEntryHash_eq_none {e : NormalizedSecurityAuditEntry Num} :
    verifySecurityAuditEntryHash R e = none ↔ computeSecurityAuditEntryHash R e = e.entryHash := by
  unfold verifySecurityAuditEntryHash
  split <;> simp_all

theorem verifyFrom_cons_ok {row : AuditRow Num} :
    (verifyFrom R checkpoint n prevHash (row :: rows)).ok = true ↔
      row.sequence = n + 1 ∧ ∃ entry, rowToEntry R.numbers row = some entry ∧
        entry.prevHash = prevHash ∧ computeSecurityAuditEntryHash R entry = entry.entryHash ∧
        (verifyFrom R checkpoint (n + 1) (some entry.entryHash) rows).ok = true := by
  rw [verifyFrom]
  by_cases hsequence : row.sequence = n + 1
  · rw [if_neg (not_not.mpr hsequence)]
    cases hentry : rowToEntry R.numbers row with
    | none => simp [SecurityAuditVerificationResult.ok]
    | some entry =>
      dsimp only
      by_cases hprev : entry.prevHash = prevHash
      · rw [if_neg (not_not.mpr hprev)]
        cases hhash : verifySecurityAuditEntryHash R entry with
        | none =>
          have hequal := verifySecurityAuditEntryHash_eq_none.mp hhash
          simp [hsequence, hprev, hequal]
        | some expected =>
          have hdiffer : computeSecurityAuditEntryHash R entry ≠ entry.entryHash := by
            intro hequal
            rw [verifySecurityAuditEntryHash_eq_none.mpr hequal] at hhash
            cases hhash
          simp [SecurityAuditVerificationResult.ok, hdiffer]
      · simp [SecurityAuditVerificationResult.ok, hprev]
  · simp [SecurityAuditVerificationResult.ok, hsequence]

/-- **A passed check** is a chain of decoded entries from the start to the checkpoint. -/
theorem verifyFrom_ok :
    (verifyFrom R checkpoint n prevHash rows).ok = true ↔
      ∃ entries, Verified R checkpoint n prevHash rows entries := by
  induction rows generalizing n prevHash with
  | nil =>
    rw [verifyFrom, verifyTail_ok]
    constructor
    · rintro ⟨hsequence, hhash⟩
      refine ⟨[], List.Forall₂.nil, rfl, fun _ h => absurd h not_mem_nil, ?_, hsequence⟩
      exact HashChain.Linked.nil_iff.mpr hhash
    · rintro ⟨entries, h⟩
      obtain rfl := List.forall₂_nil_left_iff.mp h.decoded
      exact ⟨h.latest, HashChain.Linked.nil_iff.mp h.linked⟩
  | cons row rows ih =>
    rw [verifyFrom_cons_ok]
    constructor
    · rintro ⟨hsequence, entry, hentry, hprev, hhash, hrest⟩
      obtain ⟨entries, h⟩ := ih.mp hrest
      refine ⟨entry :: entries, List.Forall₂.cons hentry h.decoded, ?_, ?_, ?_, ?_⟩
      · rw [map_cons, length_cons, range'_succ, hsequence, h.numbered]
      · intro e he
        rcases mem_cons.mp he with rfl | he
        · exact hhash
        · exact h.hashed e he
      · exact HashChain.Linked.cons hprev h.linked
      · rw [h.latest, length_cons, Nat.add_assoc, Nat.add_comm 1]
    · rintro ⟨entries, h⟩
      obtain ⟨entry, rest, hentry, hdecoded, rfl⟩ := List.forall₂_cons_left_iff.mp h.decoded
      have hnumbered := h.numbered
      rw [map_cons, length_cons, range'_succ, List.cons.injEq] at hnumbered
      obtain ⟨hprev, hlinked⟩ := HashChain.Linked.cons_iff.mp h.linked
      refine ⟨hnumbered.1, entry, hentry, hprev, h.hashed entry mem_cons_self, ih.mpr ?_⟩
      refine ⟨rest, hdecoded, hnumbered.2, ?_, hlinked, ?_⟩
      · intro e he
        exact h.hashed e (mem_cons_of_mem entry he)
      · rw [h.latest, length_cons, Nat.add_assoc, Nat.add_comm 1]

theorem verifyFrom_entriesVerified
    (h : (verifyFrom R checkpoint n prevHash rows).ok = true) :
    (verifyFrom R checkpoint n prevHash rows).entriesVerified = n + rows.length := by
  induction rows generalizing n prevHash with
  | nil =>
    rw [verifyFrom]
    unfold verifyTail
    split
    · rfl
    · split <;> rfl
  | cons row rows ih =>
    obtain ⟨hsequence, entry, hentry, hprev, hhash, hrest⟩ := verifyFrom_cons_ok.mp h
    have hstep : verifyFrom R checkpoint n prevHash (row :: rows) =
        verifyFrom R checkpoint (n + 1) (some entry.entryHash) rows := by
      rw [verifyFrom, if_neg (not_not.mpr hsequence), hentry]
      dsimp only
      rw [if_neg (not_not.mpr hprev), verifySecurityAuditEntryHash_eq_none.mpr hhash]
    rw [hstep, ih hrest, length_cons, Nat.add_assoc, Nat.add_comm 1]

end RelayIde.Audit
