import RelayIde.Audit.Chain

/-!
# Tampering with a Log

A log is presented with other rows than it was written with, under the same checkpoint.  If the
check passes, the hashes lead backwards from the checkpoint to the entries that were appended,
as far as the stable text shows them.

- `tamper_evident` — when the presented rows decode to the appended entries
-/

namespace RelayIde.Audit

open Library List
open Library.JsText (utf16 toWellFormed WellFormed)
open Library.Json

variable {Num Material : Type}

/-! ## Comparing entries -/

/-- All fields are equal, the JSON values up to the order of properties. -/
structure SameEntry (e e' : NormalizedSecurityAuditEntry Num) : Prop where
  eventId : e.eventId = e'.eventId
  timestamp : e.timestamp = e'.timestamp
  sequence : e.sequence = e'.sequence
  schemaVersion : e.schemaVersion = e'.schemaVersion
  eventType : e.eventType = e'.eventType
  decision : e.decision = e'.decision
  reasonCode : e.reasonCode = e'.reasonCode
  peer : Same e.peer e'.peer
  node : Same e.node e'.node
  sessionId : e.sessionId = e'.sessionId
  intent : Same e.intent e'.intent
  scopeHash : e.scopeHash = e'.scopeHash
  paramsHash : e.paramsHash = e'.paramsHash
  requiredBits : Same e.requiredBits e'.requiredBits
  grantedBits : Same e.grantedBits e'.grantedBits
  deniedBits : Same e.deniedBits e'.deniedBits
  aclRef : e.aclRef = e'.aclRef
  policyVersion : e.policyVersion = e'.policyVersion
  sourceDiagnostics : e.sourceDiagnostics = e'.sourceDiagnostics
  correlationId : e.correlationId = e'.correlationId
  prevHash : e.prevHash = e'.prevHash
  entryHash : e.entryHash = e'.entryHash

def decodeRows (F : NumberFormat Num) :
    List (AuditRow Num) → Option (List (NormalizedSecurityAuditEntry Num))
  | [] => some []
  | row :: rows => do
    let entry ← rowToEntry F row
    let entries ← decodeRows F rows
    return entry :: entries

variable {F : NumberFormat Num} {rows : List (AuditRow Num)} {row : AuditRow Num}
  {e e' : NormalizedSecurityAuditEntry Num} {v : Json Num} {R : Runtime Num Material}

variable {entries : List (NormalizedSecurityAuditEntry Num)} {v' : Json Num}
  {checkpoint : AuditCheckpointRow}

theorem decodeRows_of_forall₂
    (h : List.Forall₂ (fun row entry => rowToEntry F row = some entry) rows entries) :
    decodeRows F rows = some entries := by
  induction h with
  | nil => rfl
  | cons hrow _ ih => simp [decodeRows, hrow, ih]

def AuditRow.jsonColumns (row : AuditRow Num) : List JsText :=
  [row.peerJson, row.nodeJson, row.intentJson, row.requiredBitsJson, row.grantedBitsJson,
    row.deniedBitsJson]

/-- No JSON column decodes to a value with a property `__proto__`. -/
def AuditRow.HidesNothing (F : NumberFormat Num) (row : AuditRow Num) : Prop :=
  ∀ t ∈ row.jsonColumns, ∀ v, parse F t = some v → mentions protoKey v = false

def jsonValues (e : NormalizedSecurityAuditEntry Num) : List (Json Num) :=
  [e.peer, e.node, e.intent, e.requiredBits, e.grantedBits, e.deniedBits]

section
variable (h : rowToEntry F row = some e)
include h

theorem rowToEntry_inv :
    row.jsonColumns.map (parse F) = (jsonValues e).map some ∧ e.sequence = row.sequence ∧
      e.sourceDiagnostics = none := by
  unfold rowToEntry at h
  simp only [Option.bind_eq_bind, Option.bind_eq_some_iff, Option.pure_def, Option.some.injEq] at h
  obtain ⟨peer, hpeer, node, hnode, intent, hintent, required, hrequired, granted, hgranted,
    denied, hdenied, rfl⟩ := h
  refine ⟨?_, rfl, rfl⟩
  simp [AuditRow.jsonColumns, jsonValues, hpeer, hnode, hintent, hrequired, hgranted, hdenied]

theorem enumerated_jsonValues : ∀ v ∈ jsonValues e, Enumerated v := by
  intro v hv
  have hmem : some v ∈ row.jsonColumns.map (parse F) := by
    rw [(rowToEntry_inv h).1]
    exact mem_map_of_mem hv
  obtain ⟨t, -, ht⟩ := mem_map.mp hmem
  exact enumerated_parse ht

theorem hidesNothing_iff :
    row.HidesNothing F ↔ ∀ v ∈ jsonValues e, mentions protoKey v = false := by
  have hcolumns := (rowToEntry_inv h).1
  constructor
  · intro hrow v hv
    have hmem : some v ∈ row.jsonColumns.map (parse F) := by
      rw [hcolumns]
      exact mem_map_of_mem hv
    obtain ⟨t, ht, hparse⟩ := mem_map.mp hmem
    exact hrow t ht v hparse
  · intro hvalues t ht v hparse
    have hmem : some v ∈ (jsonValues e).map some := by
      rw [← hcolumns, ← hparse]
      exact mem_map_of_mem ht
    obtain ⟨w, hw, heq⟩ := mem_map.mp hmem
    rw [← Option.some.inj heq]
    exact hvalues w hw

end

/-! ## What the stable text shows -/

theorem Storable.shown_eq (h : Storable v) : shown F v = canonical v := by
  rw [shown, sortForJson, sortWith_of_not_mentions protoKey v h.protoFree]
  exact reread_of_plain F _ (plain_sortWith _ v h.plain)

/-- A value shown like a stored one has its properties, unless it hides some. -/
theorem Storable.same_of_shown_eq (h : Storable v)
    (hfree : mentions protoKey v' = false) (hshown : shown F v = shown F v') : Same v v' := by
  rw [h.shown_eq, shown, sortForJson, sortWith_of_not_mentions protoKey v' hfree] at hshown
  exact (eq_of_reread_eq F _ _ (plain_sortWith _ v h.plain) hshown.symm).symm

theorem Storable.protoFree_of_same (h : Storable v) (hv' : Enumerated v')
    (hsame : Same v v') : mentions protoKey v' = false := by
  rw [← mentions_canonical protoKey v' hv', ← hsame, mentions_canonical protoKey v h.enumerated]
  exact h.protoFree

/-- What two entries have in common whose stable texts are equal. -/
structure ShownAlike (F : NumberFormat Num) (e e' : NormalizedSecurityAuditEntry Num) : Prop where
  fields : ∀ f : Field, (f.value F e).map (shown F) = (f.value F e').map (shown F)
  entryHash : e.entryHash = e'.entryHash

theorem ShownAlike.sameEntry (h : ShownAlike R.numbers e e')
    (he : Normalized R e) (hdiagnostics : e.sourceDiagnostics = e'.sourceDiagnostics)
    (hsequence : e.sequence = e'.sequence)
    (hfree : ∀ v ∈ jsonValues e', mentions protoKey v = false) : SameEntry e e' where
  eventId := str_eq_of_shown (h.fields .eventId)
  timestamp := str_eq_of_shown (h.fields .timestamp)
  sequence := hsequence
  schemaVersion := by
    have hfield := Option.some.inj (h.fields .schemaVersion)
    rw [he.schemaVersion] at hfield ⊢
    exact (eq_one_of_reread_eq hfield.symm).symm
  eventType := str_eq_of_shown (h.fields .eventType)
  decision := str_eq_of_shown (h.fields .decision)
  reasonCode := str_eq_of_shown (h.fields .reasonCode)
  peer := he.peer.same_of_shown_eq (hfree _ (by simp [jsonValues]))
    (Option.some.inj (h.fields .peer))
  node := he.node.same_of_shown_eq (hfree _ (by simp [jsonValues]))
    (Option.some.inj (h.fields .node))
  sessionId := optional_eq_of_shown (h.fields .sessionId)
  intent := he.intent.same_of_shown_eq (hfree _ (by simp [jsonValues]))
    (Option.some.inj (h.fields .intent))
  scopeHash := str_eq_of_shown (h.fields .scopeHash)
  paramsHash := str_eq_of_shown (h.fields .paramsHash)
  requiredBits := he.requiredBits.same_of_shown_eq (hfree _ (by simp [jsonValues]))
    (Option.some.inj (h.fields .requiredBits))
  grantedBits := he.grantedBits.same_of_shown_eq (hfree _ (by simp [jsonValues]))
    (Option.some.inj (h.fields .grantedBits))
  deniedBits := he.deniedBits.same_of_shown_eq (hfree _ (by simp [jsonValues]))
    (Option.some.inj (h.fields .deniedBits))
  aclRef := optional_eq_of_shown (h.fields .aclRef)
  policyVersion := optional_eq_of_shown (h.fields .policyVersion)
  sourceDiagnostics := hdiagnostics
  correlationId := str_eq_of_shown (h.fields .correlationId)
  prevHash := prevHash_eq_of_shown (h.fields .prevHash)
  entryHash := h.entryHash

theorem SameEntry.protoFree (h : SameEntry e e') (he : Normalized R e)
    (he' : ∀ v ∈ jsonValues e', Enumerated v) :
    ∀ v ∈ jsonValues e', mentions protoKey v = false := by
  intro v hv
  have henumerated := he' v hv
  simp only [jsonValues, mem_cons, not_mem_nil, or_false] at hv
  rcases hv with rfl | rfl | rfl | rfl | rfl | rfl
  · exact he.peer.protoFree_of_same henumerated h.peer
  · exact he.node.protoFree_of_same henumerated h.node
  · exact he.intent.protoFree_of_same henumerated h.intent
  · exact he.requiredBits.protoFree_of_same henumerated h.requiredBits
  · exact he.grantedBits.protoFree_of_same henumerated h.grantedBits
  · exact he.deniedBits.protoFree_of_same henumerated h.deniedBits

/-! ## Presented rows -/

theorem verified_logAfter (hsha : R.CollisionFree)
    {calls : List (AppendCall Num Material)} (hlog : (verify R (logAfter R calls)).ok = true) :
    ∃ entries, Verified R (logAfter R calls).checkpoint 0 none (logAfter R calls).rows entries ∧
      ∀ e ∈ entries, Normalized R e := by
  obtain ⟨appended, happended⟩ := appended_logAfter R calls
  obtain ⟨entries, hverified⟩ := verifyFrom_ok.mp hlog
  refine ⟨entries, hverified, fun e he => ?_⟩
  obtain rfl := decoded_unique happended.decoded hverified.decoded
  obtain ⟨e, happend, rfl⟩ := mem_map.mp he
  have hhash := happended.verify_ok_iff.mp hlog e happend
  rw [(faithful_of_hash_readBack hsha hhash).readBack_eq]
  exact happended.normalized e happend

/-- **From the checkpoint backwards**: two lists of rows that verify under one checkpoint are
    shown alike, row by row. -/
theorem shownAlike_of_verified (hsha : R.CollisionFree) {rows rows' : List (AuditRow Num)}
    {entries' : List (NormalizedSecurityAuditEntry Num)}
    (h : Verified R checkpoint 0 none rows entries)
    (h' : Verified R checkpoint 0 none rows' entries') :
    List.Forall₂ (ShownAlike R.numbers) entries entries' := by
  have hlen : entries.length = entries'.length := by
    have hsequence := h.latest.symm.trans h'.latest
    rw [← h.decoded.length_eq, ← h'.decoded.length_eq]
    omega
  have hlinked : HashChain.Linked (computeSecurityAuditEntryHash R) (·.prevHash) none entries
      checkpoint.latestHash := h.linked.congr fun e he => (h.hashed e he).symm
  have hlinked' : HashChain.Linked (computeSecurityAuditEntryHash R) (·.prevHash) none entries'
      checkpoint.latestHash := h'.linked.congr fun e he => (h'.hashed e he).symm
  have halike : List.Forall₂ (fun e e' => computeSecurityAuditEntryHash R e =
      computeSecurityAuditEntryHash R e') entries entries' :=
    HashChain.forall₂_of_linked (fun e e' heq =>
      ⟨heq, prevHash_eq_of_shown (fields_of_hash_eq hsha heq .prevHash)⟩) hlen hlinked hlinked'
  refine HashChain.forall₂_imp_mem halike fun e he e' he' heq => ?_
  refine ⟨fields_of_hash_eq hsha heq, ?_⟩
  rw [← h.hashed e he, ← h'.hashed e' he', heq]

theorem sequence_of_verified (h : Verified R checkpoint 0 none rows entries) :
    entries.map (·.sequence) = List.range' 1 checkpoint.latestSequence := by
  have hsame : entries.map (·.sequence) = rows.map (·.sequence) := by
    have hdecoded := h.decoded
    clear h
    induction hdecoded with
    | nil => rfl
    | cons hrow _ ih => rw [map_cons, map_cons, ih, (rowToEntry_inv hrow).2.1]
  rw [hsame, h.numbered, h.latest, Nat.zero_add, Nat.zero_add]

/-! ## A property the hash does not cover -/

theorem sortForJson_protoKey (value : Json Num) (properties : List (JsText × Json Num)) :
    sortForJson (.obj ((protoKey, value) :: properties)) = sortForJson (.obj properties) := by
  have hdropped (l : List (JsText × Json Num)) :
      (l.orderedInsert keyLe (protoKey, sortForJson value)).filter (fun p => p.1 != protoKey) =
        l.filter (fun p => p.1 != protoKey) := by
    induction l with
    | nil => simp
    | cons p l ih =>
      rw [List.orderedInsert]
      split
      · simp
      · rw [filter_cons, filter_cons, ih]
  rw [sortForJson, sortForJson, sortWith, sortWith, sortProperties, insertionSort_cons]
  exact congrArg (fun l => Json.obj (assignAll [] l)) (hdropped _)

theorem hash_congr
    (h : ∀ f : Field, (f.value R.numbers e).map sortForJson =
      (f.value R.numbers e').map sortForJson) :
    computeSecurityAuditEntryHash R e = computeSecurityAuditEntryHash R e' := by
  have hsorted (e : NormalizedSecurityAuditEntry Num) :
      sortProperties (fun key => key != protoKey) (hashedFields R.numbers e) =
        Field.all.filterMap fun f => ((f.value R.numbers e).map sortForJson).map (f.key, ·) := by
    rw [sortProperties_eq_map, hashedFields, map_filterMap]
    congr 1
    funext f
    cases f.value R.numbers e <;> rfl
  have heq := (hsorted e).trans ((congrArg (Field.all.filterMap ·)
    (funext fun f => by rw [h f])).trans (hsorted e').symm)
  rw [computeSecurityAuditEntryHash, computeSecurityAuditEntryHash, entryHashPayload,
    entryHashPayload, stableStringify, stableStringify, sortForJson, sortForJson, sortWith,
    sortWith, heq]

theorem verifyFrom_setPeer {n : ℕ} {prevHash : Option JsText} {t : JsText} {peer peer' : Json Num}
    (hpeer : parse R.numbers row.peerJson = some peer)
    (hpeer' : parse R.numbers t = some peer') (hsort : sortForJson peer = sortForJson peer')
    (h : (verifyFrom R checkpoint n prevHash (row :: rows)).ok = true) :
    (verifyFrom R checkpoint n prevHash ({ row with peerJson := t } :: rows)).ok = true := by
  obtain ⟨hsequence, e, hdecoded, hprev, hhash, hrest⟩ := verifyFrom_cons_ok.mp h
  have hset : rowToEntry R.numbers { row with peerJson := t } = some { e with peer := peer' } ∧
      e.peer = peer := by
    unfold rowToEntry at hdecoded ⊢
    rw [hpeer] at hdecoded
    simp only [hpeer', Option.bind_eq_bind, Option.bind_some, Option.bind_eq_some_iff,
      Option.pure_def, Option.some.injEq] at hdecoded ⊢
    obtain ⟨node, hnode, intent, hintent, required, hrequired, granted, hgranted, denied, hdenied,
      rfl⟩ := hdecoded
    simp [hnode, hintent, hrequired, hgranted, hdenied]
  refine verifyFrom_cons_ok.mpr ⟨hsequence, { e with peer := peer' }, hset.1, hprev, ?_, hrest⟩
  have hsame : computeSecurityAuditEntryHash R { e with peer := peer' } =
      computeSecurityAuditEntryHash R e := by
    apply hash_congr
    intro f
    cases f with
    | peer =>
      show some (sortForJson peer') = some (sortForJson e.peer)
      rw [hset.2, hsort]
    | _ => rfl
  rw [hsame, hhash]

/-- **What presented rows may change**: under the checkpoint of a log of appends that verifies,
    rows that verify decode to the appended entries, up to the order of properties, exactly when
    no JSON column hides a property `__proto__`. -/
theorem tamper_evident {R : Runtime Num Material} (hsha : R.CollisionFree)
    (calls : List (AppendCall Num Material)) (hlog : (verify R (logAfter R calls)).ok = true)
    (rows : List (AuditRow Num))
    (hrows : (verifyAuditRows R rows (logAfter R calls).checkpoint).ok = true) :
    ∃ appended presented, decodeRows R.numbers (logAfter R calls).rows = some appended ∧
      decodeRows R.numbers rows = some presented ∧
      (List.Forall₂ SameEntry appended presented ↔ ∀ row ∈ rows, row.HidesNothing R.numbers) := by
  obtain ⟨appended, happended, hnormalized⟩ := verified_logAfter hsha hlog
  obtain ⟨presented, hpresented⟩ := verifyFrom_ok.mp hrows
  refine ⟨appended, presented, decodeRows_of_forall₂ happended.decoded,
    decodeRows_of_forall₂ hpresented.decoded, ?_⟩
  constructor
  · intro hsame row hrow
    obtain ⟨e', he', hdecoded⟩ := HashChain.exists_of_forall₂_left hpresented.decoded hrow
    obtain ⟨e, he, hsame⟩ := HashChain.exists_of_forall₂_right hsame he'
    rw [hidesNothing_iff hdecoded]
    exact hsame.protoFree (hnormalized e he) (enumerated_jsonValues hdecoded)
  · intro hhides
    have halike := shownAlike_of_verified hsha happended hpresented
    have hsequences : List.Forall₂ (fun e e' : NormalizedSecurityAuditEntry Num =>
        e.sequence = e'.sequence) appended presented := by
      have heq := (sequence_of_verified happended).trans (sequence_of_verified hpresented).symm
      rwa [← List.forall₂_eq_eq_eq, List.forall₂_map_left_iff, List.forall₂_map_right_iff] at heq
    have hboth := List.Forall₂.mp (fun e e' hs ha => And.intro hs ha) hsequences halike
    refine HashChain.forall₂_imp_mem hboth fun e he e' he' h => ?_
    obtain ⟨row', hrow', hdecoded'⟩ := HashChain.exists_of_forall₂_right hpresented.decoded he'
    obtain ⟨row, -, hdecoded⟩ := HashChain.exists_of_forall₂_right happended.decoded he
    refine h.2.sameEntry (hnormalized e he) ?_ h.1 ?_
    · rw [(rowToEntry_inv hdecoded).2.2, (rowToEntry_inv hdecoded').2.2]
    · exact (hidesNothing_iff hdecoded').mp (hhides row' hrow')

/-- The rows of a verified log are rows that verify. -/
theorem tamper_evident_of_denial :
    ∃ appended presented,
      decodeRows counting (logAfter tableRuntime [denial none]).rows = some appended ∧
      decodeRows counting (logAfter tableRuntime [denial none]).rows = some presented ∧
      (List.Forall₂ SameEntry appended presented ↔
        ∀ row ∈ (logAfter tableRuntime [denial none]).rows, row.HidesNothing counting) := by
  have hok : (verify tableRuntime (logAfter tableRuntime [denial none])).ok = true :=
    (verify_of_survivesRow denial_survivesRow).1
  exact tamper_evident collisionFree_tableRuntime [denial none] hok _ hok

def disguisedPeer : Json (Option ℕ) :=
  .obj [(protoKey, .obj [(utf16 "kind", .str (utf16 "hub"))]),
    (utf16 "kind", .str (utf16 "node")), (utf16 "nodeId", .str (utf16 "n1"))]

def disguise (row : AuditRow (Option ℕ)) : AuditRow (Option ℕ) :=
  { row with peerJson := stringify counting disguisedPeer }

theorem parse_disguisedPeer :
    parse counting (stringify counting disguisedPeer) = some disguisedPeer := by
  have henumerated : Enumerated disguisedPeer := by
    refine ⟨?_, ⟨⟨?_, ?_⟩, ?_⟩⟩
    · rw [← pairwise_map]
      decide
    · exact pairwise_singleton _ _
    · exact ⟨trivial, trivial⟩
    · exact ⟨trivial, trivial, trivial⟩
  have hplain : Plain disguisedPeer := ⟨⟨trivial, trivial⟩, trivial, trivial, trivial⟩
  rw [parse_stringify counting henumerated, reread_of_plain counting _ hplain]

/-- The log of one denial verifies, and so does the log with its peer disguised, which decodes to
    another entry. -/
theorem disguise_unnoticed :
    (verify tableRuntime (logAfter tableRuntime [denial none])).ok = true ∧
    (verifyAuditRows tableRuntime ((logAfter tableRuntime [denial none]).rows.map disguise)
      (logAfter tableRuntime [denial none]).checkpoint).ok = true ∧
    ∃ appended presented,
      decodeRows counting (logAfter tableRuntime [denial none]).rows = some appended ∧
      decodeRows counting ((logAfter tableRuntime [denial none]).rows.map disguise) =
        some presented ∧
      ¬ List.Forall₂ SameEntry appended presented := by
  have hok : (verify tableRuntime (logAfter tableRuntime [denial none])).ok = true :=
    (verify_of_survivesRow denial_survivesRow).1
  obtain ⟨appended, happended⟩ := appended_logAfter tableRuntime [denial none]
  obtain ⟨entries, hverified, hnormalized⟩ := verified_logAfter collisionFree_tableRuntime hok
  rw [accepted_first (by decide)] at happended
  obtain ⟨e, rest, ⟨sequence, prevHash, hnormalize⟩, hrest, rfl⟩ :=
    List.forall₂_cons_left_iff.mp happended.reported
  obtain rfl := List.forall₂_nil_left_iff.mp hrest
  have he := happended.normalized e mem_cons_self
  have hrows := happended.rows
  have hpeer : e.peer = .obj [(utf16 "kind", .str (utf16 "node")),
      (utf16 "nodeId", .str (utf16 "n1"))] := by
    rw [normalizeSecurityAuditEntry, if_pos (by decide)] at hnormalize
    rw [← Option.some.inj hnormalize]
    rfl
  have hparse : parse counting (entryToRow counting e).peerJson = some e.peer :=
    he.peer.parse_column
  have hsort : sortForJson e.peer = sortForJson disguisedPeer := by
    rw [hpeer]
    exact (sortForJson_protoKey _ _).symm
  have hdisguised : (verifyAuditRows tableRuntime
      ((logAfter tableRuntime [denial none]).rows.map disguise)
      (logAfter tableRuntime [denial none]).checkpoint).ok = true := by
    have hpass := hok
    rw [verify, hrows] at hpass
    rw [hrows]
    exact verifyFrom_setPeer hparse parse_disguisedPeer hsort hpass
  obtain ⟨presented, hpresented⟩ := verifyFrom_ok.mp hdisguised
  refine ⟨hok, hdisguised, entries, presented, decodeRows_of_forall₂ hverified.decoded,
    decodeRows_of_forall₂ hpresented.decoded, fun hsame => ?_⟩
  -- the presented entry has a property that no appended entry has
  have hmem : disguise (entryToRow counting e) ∈
      (logAfter tableRuntime [denial none]).rows.map disguise := by
    rw [hrows]
    exact mem_cons_self
  obtain ⟨e', he', hdecoded⟩ := HashChain.exists_of_forall₂_left hpresented.decoded hmem
  obtain ⟨e₀, he₀, hsame⟩ := HashChain.exists_of_forall₂_right hsame he'
  have hfree := hsame.protoFree (hnormalized e₀ he₀) (enumerated_jsonValues hdecoded)
  have hhides := (hidesNothing_iff hdecoded).mpr hfree _ mem_cons_self disguisedPeer
    parse_disguisedPeer
  exact absurd hhides (by decide)

end RelayIde.Audit
