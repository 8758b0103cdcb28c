import RelayIde.Nodes.NodeCalls

/-!
# Pairing Requests

The life of a pairing request: an operator decides it while it is pending and in time, and the
node that holds its status token claims one credential for what was approved.

- `pairing_of_run` — whole runs
-/

namespace RelayIde.Nodes

open RelayIde.Library RelayIde.Security List Function

/-! ## Events in the log -/

def CallRecord.submitted (entry : CallRecord) : Option (NodePairingRequestSummary × String) :=
  match entry.call, entry.result with
  | .submitPendingPairingRequest _ _, .ok (.submitted request statusToken) =>
    some (request, statusToken)
  | _, _ => none

/-- The id of a request that was approved, and the bits that were granted. -/
def CallRecord.approved (entry : CallRecord) : Option (String × List RelayCapabilityBit) :=
  match entry.call, entry.result with
  | .approvePendingPairingRequest requestId _, .ok (.decided _ grantedBits) =>
    some (requestId, grantedBits)
  | _, _ => none

/-- A credential that a poll handed out. -/
structure Claim where
  requestId : String
  statusToken : String
  credential : RelayNodeCredential
  node : HubNodeSummary

def CallRecord.claimed (entry : CallRecord) : Option Claim :=
  match entry.call, entry.result with
  | .pollPendingPairingRequest requestId statusToken _, .ok (.polled result) =>
    result.claim.map fun pair => ⟨requestId, statusToken, pair.1, pair.2⟩
  | _, _ => none

structure Silent (entry : CallRecord) : Prop where
  submitted : entry.submitted = none
  approved : entry.approved = none
  claimed : entry.claimed = none

/-! ## One call -/

def changed (records : List StoredPendingPairingRequest) (requestId : String)
    (f : StoredPendingPairingRequest → StoredPendingPairingRequest) :
    List StoredPendingPairingRequest :=
  modifyFirst (fun record => decide (record.requestId = requestId)) f records

def editedRecord (edit : PendingPairingAccessEdit) (record : StoredPendingPairingRequest) :
    StoredPendingPairingRequest :=
  { applyPendingPairingAccessEdit record edit with reasonCode := reasonEdited }

/-- The record a denial leaves. -/
def deniedRecord (now : ℤ) (record : StoredPendingPairingRequest) : StoredPendingPairingRequest :=
  { record with state := .denied, reasonCode := reasonDenied, decidedAt := some now }

inductive RequestStep (c : Crypto) (s : RegistryFile) (entry : CallRecord) :
    List StoredPendingPairingRequest → Prop
  | untouched (hsilent : Silent entry) : RequestStep c s entry s.pendingPairings
  | expiry (hsilent : Silent entry) : RequestStep c s entry (expired s entry.now)
  | submission (input : PendingPairingRequestInput) (draw : PendingPairingDraw)
      (deviceCode : String) (hcall : entry.call = .submitPendingPairingRequest input draw)
      (hcode : generateUniqueDeviceCode (expirePendingPairingNow s entry.now).1 draw.codes =
        some deviceCode)
      (hsubmitted : entry.submitted =
        some (publicPendingPairing (pendingRecord c input entry.now draw deviceCode), draw.token))
      (happroved : entry.approved = none) (hclaimed : entry.claimed = none) :
      RequestStep c s entry
        (expired s entry.now ++ [pendingRecord c input entry.now draw deviceCode])
  | edit (record : StoredPendingPairingRequest) (edit : PendingPairingAccessEdit)
      (hfind : (expired s entry.now).find? (fun r => decide (r.requestId = record.requestId)) =
        some record)
      (hpending : record.state = .pending) (hsilent : Silent entry)
      (hok : ∃ reply, entry.result = .ok reply) :
      RequestStep c s entry
        (changed (expired s entry.now) record.requestId (editedRecord edit))
  | approval (record : StoredPendingPairingRequest) (edit : Option PendingPairingAccessEdit)
      (hfind : (expired s entry.now).find? (fun r => decide (r.requestId = record.requestId)) =
        some record)
      (hpending : record.state = .pending) (hsubmitted : entry.submitted = none)
      (happroved : entry.approved =
        some (record.requestId, (approvedRecord edit entry.now record).capabilityBits))
      (hclaimed : entry.claimed = none) :
      RequestStep c s entry
        (changed (expired s entry.now) record.requestId (approvedRecord edit entry.now))
  | denial (record : StoredPendingPairingRequest)
      (hfind : (expired s entry.now).find? (fun r => decide (r.requestId = record.requestId)) =
        some record)
      (hpending : record.state = .pending) (hsilent : Silent entry)
      (hok : ∃ reply, entry.result = .ok reply) :
      RequestStep c s entry
        (changed (expired s entry.now) record.requestId (deniedRecord entry.now))
  | claim (record : StoredPendingPairingRequest) (statusToken : String) (draw : NodeDraw)
      (hfind : (expired s entry.now).find? (fun r => decide (r.requestId = record.requestId)) =
        some record)
      (hhash : c.sha256 (Text.trim statusToken) = record.statusTokenHash)
      (happrovedState : record.state = .approved) (hunclaimed : record.credentialDeliveredAt = none)
      (hsubmitted : entry.submitted = none) (happroved : entry.approved = none)
      (hclaimed : entry.claimed = some
        ⟨record.requestId, statusToken,
          newCredential draw (boundKey c (record.key.map (·.publicKey))) entry.now,
          publicNode (claimedNode c record entry.now draw)⟩) :
      RequestStep c s entry
        (changed (expired s entry.now) record.requestId (deliveredRecord entry.now draw))

theorem decidePending_cases (s : RegistryFile) (requestId verb : String) (now : ℤ)
    (f : StoredPendingPairingRequest → StoredPendingPairingRequest) :
    (∃ record, pendingPairing? (expirePendingPairingNow s now).1 requestId = some record ∧
      record.state = .pending ∧
      (decidePending s requestId verb now f).state.pendingPairings =
        changed (expired s now) requestId f ∧
      (decidePending s requestId verb now f).result =
        .ok (publicPendingPairing (f record), (f record).capabilityBits)) ∨
    ((decidePending s requestId verb now f).state.pendingPairings = expired s now ∧
      ∃ e, (decidePending s requestId verb now f).result = .error e) := by
  rw [decidePending, onPending, state_afterExpiry, result_afterExpiry]
  cases hfind : pendingPairing? (expirePendingPairingNow s now).1 requestId with
  | none => exact .inr ⟨rfl, _, rfl⟩
  | some record =>
    cases hassert : assertPendingState record verb with
    | some e => exact .inr ⟨by simp [hassert, Outcome.refuse], e, by simp [hassert, Outcome.refuse]⟩
    | none =>
      refine .inl ⟨record, rfl, ?_, by simp [hassert, Outcome.persist, changePending, changed],
        by simp [hassert, Outcome.persist]⟩
      unfold assertPendingState at hassert
      split at hassert
      · assumption
      · cases hassert
      · cases hassert

theorem pendingPairings_exchange (c : Crypto) (s : RegistryFile) (input : PairExchangeInput)
    (now : ℤ) (draw : NodeDraw) :
    (exchangePairToken c s input now draw).state.pendingPairings = s.pendingPairings := by
  unfold exchangePairToken
  split <;> rfl

/-- **What a call does to the requests.** -/
theorem requestStep_step (c : Crypto) (w : World) (op : Timed) :
    RequestStep c w.registry.state (entryOf c w op)
      (step c w op).registry.state.pendingPairings := by
  obtain ⟨call, now⟩ := op
  rw [registry_step]
  cases call with
  | createPairToken options draw =>
    exact .untouched ⟨rfl, rfl, rfl⟩
  | exchangePairToken input draw =>
    simp only [run, state_respond, state_map, pendingPairings_exchange]
    exact .untouched ⟨rfl, rfl, rfl⟩
  | submitPendingPairingRequest input draw =>
    simp only [run, state_respond, state_map]
    cases hcompatible : assertCompatibleProtocol (requestedProtocol input.protocolVersion) with
    | some e =>
      have hout : submitPendingPairingRequest c w.registry.state input now draw =
          .refuse w.registry.state e := by
        rw [submitPendingPairingRequest, hcompatible]
      rw [hout]
      refine .untouched ⟨?_, rfl, rfl⟩
      simp [entryOf, CallRecord.submitted, run, hout, HubNodeRegistry.respond, Outcome.map,
        Outcome.refuse, Except.map]
    | none =>
      simp only [submitPendingPairingRequest, hcompatible, state_afterExpiry]
      split
      · rename_i hfull
        refine .expiry ⟨?_, rfl, rfl⟩
        simp [entryOf, CallRecord.submitted, run, submitPendingPairingRequest, hcompatible, hfull,
          HubNodeRegistry.respond, Outcome.map, Outcome.refuse, Except.map]
      · rename_i hroom
        cases hcode : generateUniqueDeviceCode (expirePendingPairingNow w.registry.state now).1
            draw.codes with
        | none =>
          refine .expiry ⟨?_, rfl, rfl⟩
          simp [entryOf, CallRecord.submitted, run, submitPendingPairingRequest, hcompatible, hroom,
            hcode, HubNodeRegistry.respond, Outcome.map, Outcome.refuse, Except.map]
        | some deviceCode =>
          refine .submission input draw deviceCode rfl hcode ?_ rfl rfl
          simp [entryOf, CallRecord.submitted, run, submitPendingPairingRequest, hcompatible, hroom,
            hcode, HubNodeRegistry.respond, Outcome.map, Outcome.persist, Except.map]
  | listPendingPairingRequests _ | getPendingPairingRequest _
  | findPendingPairingRequestByDeviceCode _ =>
    simp only [run, state_respond]
    exact .expiry ⟨rfl, rfl, rfl⟩
  | editPendingPairingAccess requestId edit =>
    simp only [run, state_respond]
    obtain ⟨record, hfind, hpending, hstate, hresult⟩ | ⟨hstate, -⟩ :=
      decidePending_cases w.registry.state requestId "edit access for" now (editedRecord edit)
    · obtain rfl : record.requestId = requestId := by simpa using find?_some hfind
      refine hstate ▸ .edit record edit hfind hpending ⟨rfl, rfl, rfl⟩ ?_
      exact ⟨_, congrArg (Except.map fun answer : NodePairingRequestSummary × _ =>
        Reply.decided answer.1 answer.2) hresult⟩
    · exact hstate ▸ .expiry ⟨rfl, rfl, rfl⟩
  | approvePendingPairingRequest requestId edit =>
    simp only [run, state_respond]
    have happroved : ∀ result, (approvePendingPairingRequest w.registry.state requestId edit
          now).result = result →
        (entryOf c w ⟨.approvePendingPairingRequest requestId edit, now⟩).approved =
          result.toOption.map fun answer => (requestId, answer.2) := by
      rintro result rfl
      cases hresult : (approvePendingPairingRequest w.registry.state requestId edit now).result <;>
        simp [entryOf, CallRecord.approved, run, hresult, HubNodeRegistry.respond, Outcome.map,
          Except.map, Except.toOption]
    obtain ⟨record, hfind, hpending, hstate, hresult⟩ | ⟨hstate, e, hresult⟩ :=
      decidePending_cases w.registry.state requestId "approve" now (approvedRecord edit now)
    · obtain rfl : record.requestId = requestId := by simpa using find?_some hfind
      exact hstate ▸ .approval record edit hfind hpending rfl (happroved _ hresult) rfl
    · exact hstate ▸ .expiry ⟨rfl, happroved _ hresult, rfl⟩
  | denyPendingPairingRequest requestId =>
    simp only [run, state_respond]
    obtain ⟨record, hfind, hpending, hstate, hresult⟩ | ⟨hstate, -⟩ :=
      decidePending_cases w.registry.state requestId "deny" now (deniedRecord now)
    · obtain rfl : record.requestId = requestId := by simpa using find?_some hfind
      refine hstate ▸ .denial record hfind hpending ⟨rfl, rfl, rfl⟩ ?_
      exact ⟨_, congrArg (Except.map fun answer : NodePairingRequestSummary × _ =>
        Reply.decided answer.1 answer.2) hresult⟩
    · exact hstate ▸ .expiry ⟨rfl, rfl, rfl⟩
  | pollPendingPairingRequest requestId statusToken draw =>
    simp only [run, state_respond, state_map]
    have hclaimed : ∀ result, (pollPendingPairingRequest c w.registry.state requestId statusToken
          now draw).result = result →
        (entryOf c w ⟨.pollPendingPairingRequest requestId statusToken draw, now⟩).claimed =
          result.toOption.bind fun answer =>
            answer.claim.map fun pair => ⟨requestId, statusToken, pair.1, pair.2⟩ := by
      rintro result rfl
      cases hresult : (pollPendingPairingRequest c w.registry.state requestId statusToken now
          draw).result <;>
        simp [entryOf, CallRecord.claimed, run, hresult, HubNodeRegistry.respond, Outcome.map,
          Except.map, Except.toOption]
    obtain ⟨record, hfind, hhash, happroved, hdelivered, hstate, hresult⟩ | ⟨hstate, hresult⟩ :=
      poll_cases c w.registry.state requestId statusToken now draw
    · obtain rfl : record.requestId = requestId := by simpa using find?_some hfind
      rw [hstate]
      exact .claim record statusToken draw hfind hhash happroved hdelivered rfl rfl
        (hclaimed _ hresult)
    · rw [hstate]
      refine .expiry ⟨rfl, rfl, ?_⟩
      cases hpoll : (pollPendingPairingRequest c w.registry.state requestId statusToken now
          draw).result with
      | error e => exact hclaimed _ hpoll
      | ok result =>
        rw [hclaimed _ hpoll]
        simp [hresult result hpoll, Except.toOption]
  | onNode nodeId call =>
    simp only [run, state_respond, (frame_onNode c _ _ _ _).2]
    exact .untouched ⟨rfl, rfl, rfl⟩
  | authenticateCredential token strictDeny =>
    simp only [run, state_respond, state_map, state_authenticateCredentialDetailed]
    exact .untouched ⟨rfl, rfl, rfl⟩
  | authenticateNodeLink token context =>
    simp only [run, state_authenticateNodeLinkWithProof]
    exact .untouched ⟨rfl, rfl, rfl⟩
  | flushPendingHeartbeatPersist =>
    simp only [run, state_flushPendingHeartbeatPersist]
    exact .untouched ⟨rfl, rfl, rfl⟩

/-! ## Lists of requests -/

def CodesDiffer (records : List StoredPendingPairingRequest) : Prop :=
  records.Pairwise fun a b =>
    isActiveClaimablePairing a = true → isActiveClaimablePairing b = true →
      normalizeNodePairingDeviceCode a.deviceCode ≠ normalizeNodePairingDeviceCode b.deviceCode

variable {deviceCode statusToken : String} {input : PendingPairingRequestInput} {ops : List Timed}

section Records

variable {records : List StoredPendingPairingRequest} {s : RegistryFile} {now : ℤ}
  {record : StoredPendingPairingRequest}
  {f : StoredPendingPairingRequest → StoredPendingPairingRequest}

theorem mem_changed (hids : (records.map (·.requestId)).Nodup)
    (hfind : records.find? (fun r => decide (r.requestId = record.requestId)) = some record)
    {b : StoredPendingPairingRequest} (h : b ∈ changed records record.requestId f) :
    b = f record ∨ (b ∈ records ∧ b.requestId ≠ record.requestId) := by
  rw [changed, modifyFirst_eq_map hids, mem_map] at h
  obtain ⟨old, hold, rfl⟩ := h
  by_cases hid : old.requestId = record.requestId
  · rw [if_pos hid, eq_of_requestId_eq hids hold (mem_of_find?_eq_some hfind) hid]
    exact .inl rfl
  · rw [if_neg hid]
    exact .inr ⟨hold, hid⟩

theorem ids_changed (hf : ∀ r, (f r).requestId = r.requestId) :
    (changed records record.requestId f).map (·.requestId) = records.map (·.requestId) :=
  map_modifyFirst (fun r _ => hf r) records

theorem CodesDiffer.changed (h : CodesDiffer records) (hids : (records.map (·.requestId)).Nodup)
    (hfind : records.find? (fun r => decide (r.requestId = record.requestId)) = some record)
    (hcode : ∀ r, (f r).deviceCode = r.deviceCode)
    (hactive : isActiveClaimablePairing record = true) :
    CodesDiffer (changed records record.requestId f) := by
  have hmap : Nodes.changed records record.requestId f =
      records.map fun r => if r.requestId = record.requestId then f r else r :=
    modifyFirst_eq_map hids _
  have hkeep : ∀ r ∈ records, (isActiveClaimablePairing
      (if r.requestId = record.requestId then f r else r) = true →
        isActiveClaimablePairing r = true) ∧
      (if r.requestId = record.requestId then f r else r).deviceCode = r.deviceCode := by
    intro r hr
    split
    · rename_i hid
      obtain rfl := eq_of_requestId_eq hids hr (mem_of_find?_eq_some hfind) hid
      exact ⟨fun _ => hactive, hcode r⟩
    · exact ⟨id, rfl⟩
  rw [hmap, CodesDiffer, pairwise_map]
  refine h.imp_of_mem ?_
  intro a b ha hb hdiffer hactiveA hactiveB
  rw [(hkeep a ha).2, (hkeep b hb).2]
  exact hdiffer ((hkeep a ha).1 hactiveA) ((hkeep b hb).1 hactiveB)

theorem codesDiffer_expired (h : CodesDiffer s.pendingPairings) : CodesDiffer (expired s now) := by
  have hmap : CodesDiffer (s.pendingPairings.map (expireRecord now)) := by
    rw [CodesDiffer, pairwise_map]
    refine h.imp ?_
    intro a b hdiffer hactiveA hactiveB
    have hsameA := expireRecord_of_active hactiveA
    have hsameB := expireRecord_of_active hactiveB
    rw [hsameA] at hactiveA ⊢
    rw [hsameB] at hactiveB ⊢
    exact hdiffer hactiveA hactiveB
  exact hmap.sublist (prunePendingPairings_sublist _ now)

theorem codesDiffer_append (h : CodesDiffer records)
    (hnew : ∀ r ∈ records, isActiveClaimablePairing r = true →
      normalizeNodePairingDeviceCode r.deviceCode ≠
        normalizeNodePairingDeviceCode record.deviceCode) :
    CodesDiffer (records ++ [record]) := by
  refine pairwise_append.mpr ⟨h, pairwise_singleton _ _, ?_⟩
  intro a ha b hb hactive _
  rw [mem_singleton.mp hb]
  exact hnew a ha hactive

theorem generateUniqueDeviceCode_eq_some {codes : ℕ → DeviceLetters}
    (h : generateUniqueDeviceCode s codes = some deviceCode) :
    (∃ letters, deviceCode = deviceCodeOf letters) ∧
      ∀ r ∈ s.pendingPairings, isActiveClaimablePairing r = true →
        normalizeNodePairingDeviceCode r.deviceCode ≠ normalizeNodePairingDeviceCode deviceCode := by
  constructor
  · obtain ⟨attempt, -, rfl⟩ := mem_map.mp (mem_of_find?_eq_some h)
    exact ⟨codes attempt, rfl⟩
  · intro r hr hactive heq
    have hfree := find?_some h
    rw [Bool.not_eq_true', any_eq_false] at hfree
    exact hfree r hr (by simp [hactive, heq])

theorem normalize_deviceCodeOf_ne_nil (letters : DeviceLetters) :
    normalizeNodePairingDeviceCode (deviceCodeOf letters) ≠ [] := by
  obtain ⟨letters, hlength, hletters⟩ := letters
  have hall : deviceCodeAlphabet.all Char.isAlphanum = true := by decide
  have halnum := all_eq_true.mp hall
  obtain ⟨head, tail, rfl⟩ := exists_cons_of_length_eq_add_one hlength
  have hhead : head.isAlphanum = true := halnum head (hletters head mem_cons_self)
  simp [normalizeNodePairingDeviceCode, deviceCodeOf, hhead]

/-- **Lookup.** A claimable request is the one its code shows. -/
theorem locatedByCode_of_active (hcodes : CodesDiffer s.pendingPairings)
    (h : record ∈ s.pendingPairings) (hactive : isActiveClaimablePairing record = true)
    (hlocated : normalizeNodePairingDeviceCode record.deviceCode ≠ [])
    (hcode : normalizeNodePairingDeviceCode deviceCode =
      normalizeNodePairingDeviceCode record.deviceCode) :
    locatedByCode s deviceCode = some record := by
  set located := s.pendingPairings.filter fun r => decide
    (normalizeNodePairingDeviceCode r.deviceCode = normalizeNodePairingDeviceCode deviceCode)
    with hdef
  have hmem : record ∈ located := mem_filter.mpr ⟨h, by simp [hcode]⟩
  -- the first claimable match has the code of `record`, so it is `record`
  have hfind : located.find? isActiveClaimablePairing = some record := by
    cases hfirst : located.find? isActiveClaimablePairing with
    | none => exact absurd hactive (by simpa using find?_eq_none.mp hfirst record hmem)
    | some first =>
      by_contra hne
      have hne : first ≠ record := fun heq => hne (congrArg some heq)
      obtain ⟨hfirstMem, hfirstCode⟩ := mem_filter.mp (mem_of_find?_eq_some hfirst)
      have hsame : normalizeNodePairingDeviceCode first.deviceCode =
          normalizeNodePairingDeviceCode record.deviceCode :=
        (of_decide_eq_true hfirstCode).trans hcode
      have hsymm : Std.Symm fun a b : StoredPendingPairingRequest =>
          isActiveClaimablePairing a = true → isActiveClaimablePairing b = true →
            normalizeNodePairingDeviceCode a.deviceCode ≠
              normalizeNodePairingDeviceCode b.deviceCode :=
        ⟨fun a b hab hb ha heq => hab ha hb heq.symm⟩
      exact List.Pairwise.forall hcodes hfirstMem h hne (find?_some hfirst) hactive hsame
  unfold locatedByCode
  rw [if_neg (hcode ▸ hlocated)]
  change (located.find? isActiveClaimablePairing).or located.getLast? = some record
  rw [hfind, Option.some_or]

end Records

/-! ## What the log knows -/

/-- What the log knows of a stored request that the call `sub` submitted. -/
structure Tracked (c : Crypto) (log : List CallRecord) (record : StoredPendingPairingRequest)
    (sub : CallRecord) (draw : PendingPairingDraw) : Prop where
  logged : sub ∈ log
  submission : ∃ input deviceCode, sub.call = .submitPendingPairingRequest input draw ∧
    sub.submitted =
      some (publicPendingPairing (pendingRecord c input sub.now draw deviceCode), draw.token) ∧
    record.expiresAt = (pendingRecord c input sub.now draw deviceCode).expiresAt
  requestId : record.requestId = draw.requestId
  statusToken : record.statusTokenHash = c.sha256 draw.token
  located : normalizeNodePairingDeviceCode record.deviceCode ≠ []
  approval : record.state = .approved → ∃ app, [sub, app].Sublist log ∧
    app.approved = some (record.requestId, record.capabilityBits) ∧ app.now < record.expiresAt
  unclaimed : record.credentialDeliveredAt = none →
    ∀ entry ∈ log, ∀ claim, entry.claimed = some claim → claim.requestId ≠ record.requestId
  delivered : record.credentialDeliveredAt.isSome = true → record.state = .approved

/-- What stands behind a credential: the node's own submission, then an approval in time, then
    this poll, and the bits of the approval. -/
def Authorized (log : List CallRecord) (entry : CallRecord) (claim : Claim) : Prop :=
  ∃ sub app request bits, [sub, app, entry].Sublist log ∧
    sub.submitted = some (request, Text.trim claim.statusToken) ∧
    request.requestId = claim.requestId ∧ app.approved = some (claim.requestId, bits) ∧
    app.now < request.expiresAt ∧
    ∀ bit, (bit ∈ claim.node.grants.allowed ∨ bit ∈ claim.node.grants.requiresConfirmation) ↔
      bit ∈ bits

structure Known (c : Crypto) (records : List StoredPendingPairingRequest)
    (log : List CallRecord) : Prop where
  ids : (records.map (·.requestId)).Nodup
  codes : CodesDiffer records
  tracked : ∀ record ∈ records, ∃ sub draw, Tracked c log record sub draw

structure PairingInv (c : Crypto) (w : World) : Prop where
  freshLog : FreshLog w.log
  submits : ∀ entry ∈ w.log, ∀ request statusToken,
    entry.submitted = some (request, statusToken) → ∃ input draw,
      entry.call = .submitPendingPairingRequest input draw ∧ request.requestId = draw.requestId
  known : Known c w.registry.state.pendingPairings w.log
  authorized : ∀ entry ∈ w.log, ∀ claim, entry.claimed = some claim → Authorized w.log entry claim
  once : ((w.log.filterMap (·.claimed)).map (·.requestId)).Nodup

section Track

variable {c : Crypto} {log : List CallRecord} {record : StoredPendingPairingRequest}
  {sub entry : CallRecord} {draw : PendingPairingDraw} {now : ℤ}

section
variable (h : Tracked c log record sub draw)
include h

theorem Tracked.append
    (hentry : ∀ claim, entry.claimed = some claim → claim.requestId ≠ record.requestId) :
    Tracked c (log ++ [entry]) record sub draw :=
  { h with
    logged := mem_append_left _ h.logged
    approval := by
      intro happroved
      obtain ⟨app, hsublist, rest⟩ := h.approval happroved
      exact ⟨app, hsublist.trans (sublist_append_left _ _), rest⟩
    unclaimed := by
      intro hnone other hother claim hclaim
      obtain hold | hnew := mem_append.mp hother
      · exact h.unclaimed hnone other hold claim hclaim
      · rw [mem_singleton.mp hnew] at hclaim
        exact hentry claim hclaim }

theorem Tracked.undelivered (hstate : record.state ≠ .approved) :
    record.credentialDeliveredAt = none := by
  cases hdelivered : record.credentialDeliveredAt with
  | none => rfl
  | some at' =>
    refine absurd (h.delivered ?_) hstate
    rw [hdelivered]
    rfl

theorem Tracked.expire (now : ℤ) : Tracked c log (expireRecord now record) sub draw := by
  obtain ⟨-, hsame⟩ | ⟨hover, hexpired⟩ := expireRecord_eq_self_or now record
  · rwa [hsame]
  · have hpending : record.state = .pending := (of_decide_eq_true hover).1
    have hnone := h.undelivered (by rw [hpending]; decide)
    rw [hexpired]
    exact
      { h with
        approval := fun happroved => by cases happroved
        delivered := fun hsome => by
          rw [hnone] at hsome
          cases hsome }

theorem Tracked.afterDecision (hpending : record.state = .pending)
    {after : StoredPendingPairingRequest} (hid : after.requestId = record.requestId)
    (hexpires : after.expiresAt = record.expiresAt)
    (hhash : after.statusTokenHash = record.statusTokenHash)
    (hcode : after.deviceCode = record.deviceCode)
    (hdelivered : after.credentialDeliveredAt = record.credentialDeliveredAt)
    (hstate : after.state ≠ .approved) : Tracked c log after sub draw := by
  have hnone := h.undelivered (by rw [hpending]; decide)
  refine
    { logged := h.logged
      submission := ?_
      requestId := hid.trans h.requestId
      statusToken := hhash.trans h.statusToken
      located := hcode ▸ h.located
      approval := fun happroved => absurd happroved hstate
      unclaimed := ?_
      delivered := ?_ }
  · rw [hexpires]
    exact h.submission
  · intro _ other hother claim hclaim
    rw [hid]
    exact h.unclaimed hnone other hother claim hclaim
  · intro hsome
    rw [hdelivered, hnone] at hsome
    cases hsome

end

end Track

theorem Authorized.append {log : List CallRecord} {entry : CallRecord} {claim : Claim}
    (h : Authorized log entry claim) (new : CallRecord) : Authorized
    (log ++ [new]) entry claim := by
  obtain ⟨sub, app, request, bits, hsublist, rest⟩ := h
  exact ⟨sub, app, request, bits, hsublist.trans (sublist_append_left _ _), rest⟩

/-! ## One call on known requests -/

section Known

variable {c : Crypto} {s : RegistryFile} {log : List CallRecord}
  {records : List StoredPendingPairingRequest} {record : StoredPendingPairingRequest}
  {entry : CallRecord} {now : ℤ}

theorem Known.expired (h : Known c s.pendingPairings log) (now : ℤ) :
    Known c (expired s now) log where
  ids := h.ids.sublist (ids_expired_sublist s now)
  codes := codesDiffer_expired h.codes
  tracked := by
    intro record hrecord
    obtain ⟨old, hold, rfl⟩ := mem_of_mem_expired hrecord
    obtain ⟨sub, draw, htracked⟩ := h.tracked old hold
    exact ⟨sub, draw, htracked.expire now⟩

theorem Known.append (h : Known c records log) (hclaimed : entry.claimed = none) :
    Known c records (log ++ [entry]) where
  ids := h.ids
  codes := h.codes
  tracked := by
    intro record hrecord
    obtain ⟨sub, draw, htracked⟩ := h.tracked record hrecord
    refine ⟨sub, draw, htracked.append ?_⟩
    intro claim hclaim
    rw [hclaimed] at hclaim
    cases hclaim

theorem Known.change (h : Known c records log)
    (hfind : records.find? (fun r => decide (r.requestId = record.requestId)) = some record)
    {f : StoredPendingPairingRequest → StoredPendingPairingRequest}
    (hid : ∀ r, (f r).requestId = r.requestId) (hcode : ∀ r, (f r).deviceCode = r.deviceCode)
    (hactive : isActiveClaimablePairing record = true)
    (hclaimed : ∀ claim, entry.claimed = some claim → claim.requestId = record.requestId)
    (htracked : ∀ sub draw, Tracked c log record sub draw →
      Tracked c (log ++ [entry]) (f record) sub draw) :
    Known c (changed records record.requestId f) (log ++ [entry]) where
  ids := by
    rw [ids_changed hid]
    exact h.ids
  codes := h.codes.changed h.ids hfind hcode hactive
  tracked := by
    intro r hr
    obtain rfl | ⟨hmem, hne⟩ := mem_changed h.ids hfind hr
    · obtain ⟨sub, draw, hold⟩ := h.tracked record (mem_of_find?_eq_some hfind)
      exact ⟨sub, draw, htracked sub draw hold⟩
    · obtain ⟨sub, draw, hold⟩ := h.tracked r hmem
      refine ⟨sub, draw, hold.append ?_⟩
      intro claim hclaim heq
      exact hne (heq.symm.trans (hclaimed claim hclaim))

theorem isActive_of_pending (h : record.state = .pending) :
    isActiveClaimablePairing record = true := by
  simp [isActiveClaimablePairing, h]

theorem isActive_of_approved (h : record.state = .approved)
    (hnone : record.credentialDeliveredAt = none) : isActiveClaimablePairing record = true := by
  simp [isActiveClaimablePairing, h, hnone]

theorem lt_expiresAt_of_pending (hmem : record ∈ Nodes.expired s now)
    (hpending : record.state = .pending) : now < record.expiresAt := by
  have hintime := not_overdue_of_mem_expired hmem
  simpa [isOverdue, hpending] using hintime

theorem Known.edit (h : Known c records log) {edit : PendingPairingAccessEdit}
    (hfind : records.find? (fun r => decide (r.requestId = record.requestId)) = some record)
    (hpending : record.state = .pending) (hclaimed : entry.claimed = none) :
    Known c (changed records record.requestId (editedRecord edit)) (log ++ [entry]) := by
  refine h.change hfind (fun _ => rfl) (fun _ => rfl) (isActive_of_pending hpending)
    (fun claim hclaim => by rw [hclaimed] at hclaim; cases hclaim) ?_
  intro sub draw htracked
  refine Tracked.append ?_ fun claim hclaim => by rw [hclaimed] at hclaim; cases hclaim
  refine htracked.afterDecision hpending rfl rfl rfl rfl rfl ?_
  change record.state ≠ .approved
  rw [hpending]
  decide

theorem Known.denial (h : Known c records log)
    (hfind : records.find? (fun r => decide (r.requestId = record.requestId)) = some record)
    (hpending : record.state = .pending) (hclaimed : entry.claimed = none) :
    Known c (changed records record.requestId (deniedRecord now)) (log ++ [entry]) := by
  refine h.change hfind (fun _ => rfl) (fun _ => rfl) (isActive_of_pending hpending)
    (fun claim hclaim => by rw [hclaimed] at hclaim; cases hclaim) ?_
  intro sub draw htracked
  refine Tracked.append ?_ fun claim hclaim => by rw [hclaimed] at hclaim; cases hclaim
  exact htracked.afterDecision hpending rfl rfl rfl rfl rfl (by simp [deniedRecord])

theorem approvedRecord_fields (edit : Option PendingPairingAccessEdit) (now : ℤ)
    (record : StoredPendingPairingRequest) :
    (approvedRecord edit now record).requestId = record.requestId ∧
      (approvedRecord edit now record).deviceCode = record.deviceCode ∧
      (approvedRecord edit now record).expiresAt = record.expiresAt ∧
      (approvedRecord edit now record).statusTokenHash = record.statusTokenHash ∧
      (approvedRecord edit now record).credentialDeliveredAt = record.credentialDeliveredAt ∧
      (approvedRecord edit now record).state = .approved := by
  cases edit <;> exact ⟨rfl, rfl, rfl, rfl, rfl, rfl⟩

theorem Known.approval (h : Known c records log) {edit : Option PendingPairingAccessEdit}
    (hfind : records.find? (fun r => decide (r.requestId = record.requestId)) = some record)
    (hpending : record.state = .pending) (hintime : entry.now < record.expiresAt)
    (happroved : entry.approved =
      some (record.requestId, (approvedRecord edit entry.now record).capabilityBits))
    (hclaimed : entry.claimed = none) :
    Known c (changed records record.requestId (approvedRecord edit entry.now))
      (log ++ [entry]) := by
  have hfields := fun r => approvedRecord_fields edit entry.now r
  refine h.change hfind (fun r => (hfields r).1) (fun r => (hfields r).2.1)
    (isActive_of_pending hpending)
    (fun claim hclaim => by rw [hclaimed] at hclaim; cases hclaim) ?_
  intro sub draw htracked
  obtain ⟨hid, hcode, hexpires, hhash, hdelivered, hstate⟩ := hfields record
  have hnone := htracked.undelivered (by rw [hpending]; decide)
  refine
    { logged := mem_append_left _ htracked.logged
      submission := by rw [hexpires]; exact htracked.submission
      requestId := hid.trans htracked.requestId
      statusToken := hhash.trans htracked.statusToken
      located := hcode ▸ htracked.located
      approval := fun _ => ⟨entry, ?_, by rw [hid]; exact happroved, by rw [hexpires]; exact hintime⟩
      unclaimed := ?_
      delivered := fun _ => hstate }
  · exact (singleton_sublist.mpr htracked.logged).append (List.Sublist.refl [entry])
  · intro _ other hother claim hclaim
    rw [hid]
    obtain hold | hnew := mem_append.mp hother
    · exact htracked.unclaimed hnone other hold claim hclaim
    · rw [mem_singleton.mp hnew, hclaimed] at hclaim
      cases hclaim

theorem Known.claim (h : Known c records log) {claim : Claim} {draw : NodeDraw}
    (hfind : records.find? (fun r => decide (r.requestId = record.requestId)) = some record)
    (happroved : record.state = .approved) (hnone : record.credentialDeliveredAt = none)
    (hclaimed : entry.claimed = some claim) (hid : claim.requestId = record.requestId) :
    Known c (changed records record.requestId (deliveredRecord now draw)) (log ++ [entry]) := by
  refine h.change hfind (fun _ => rfl) (fun _ => rfl) (isActive_of_approved happroved hnone)
    (fun other hother => ?_) ?_
  · rw [hclaimed] at hother
    cases hother
    exact hid
  · intro sub statusDraw htracked
    refine
      { logged := mem_append_left _ htracked.logged
        submission := htracked.submission
        requestId := htracked.requestId
        statusToken := htracked.statusToken
        located := htracked.located
        approval := fun _ => ?_
        unclaimed := fun hnone' => by cases hnone'
        delivered := fun _ => happroved }
    obtain ⟨app, hsublist, rest⟩ := htracked.approval happroved
    exact ⟨app, hsublist.trans (sublist_append_left _ _), rest⟩

end Known

/-! ## Runs -/

theorem pairingInv_start (c : Crypto) : PairingInv c World.start where
  freshLog := List.Pairwise.nil
  submits := by simp [World.start]
  known :=
    { ids := nodup_nil
      codes := List.Pairwise.nil
      tracked := by simp [World.start, HubNodeRegistry.load, emptyRegistryFile] }
  authorized := by simp [World.start]
  once := nodup_nil

section Step

variable {c : Crypto} {w : World} {op : Timed}

theorem PairingInv.fresh_requestId (h : PairingInv c w) (hop : Admissible w op)
    {draw : PendingPairingDraw}
    (hcall : op.call = .submitPendingPairingRequest input draw) {sub : CallRecord}
    (hsub : sub ∈ w.log) {request : NodePairingRequestSummary}
    (hsubmitted : sub.submitted = some (request, statusToken)) :
    request.requestId ≠ draw.requestId := by
  intro heq
  obtain ⟨input', draw', hcall', hid⟩ := h.submits sub hsub request statusToken hsubmitted
  have hdraw : draw'.request = draw.request := randomToken_inj (hid.symm.trans heq)
  apply hop.fresh sub hsub draw.request
  · rw [hcall]
    exact mem_cons_self
  · rw [hcall', ← hdraw]
    exact mem_cons_self

theorem Tracked.submitted_requestId {log : List CallRecord} {record : StoredPendingPairingRequest}
    {sub : CallRecord} {draw : PendingPairingDraw} (h : Tracked c log record sub draw) :
    ∃ request, sub.submitted = some (request, draw.token) ∧
      request.requestId = record.requestId ∧ request.expiresAt = record.expiresAt := by
  obtain ⟨input, deviceCode, -, hsubmitted, hexpires⟩ := h.submission
  exact ⟨_, hsubmitted, h.requestId.symm, hexpires.symm⟩

theorem PairingInv.known_submission (h : PairingInv c w) (hop : Admissible w op)
    {draw : PendingPairingDraw}
    (hcall : op.call = .submitPendingPairingRequest input draw)
    (hcode : generateUniqueDeviceCode (expirePendingPairingNow w.registry.state op.now).1
      draw.codes = some deviceCode)
    (hsubmitted : (entryOf c w op).submitted =
      some (publicPendingPairing (pendingRecord c input op.now draw deviceCode), draw.token))
    (hclaimed : (entryOf c w op).claimed = none) :
    Known c (expired w.registry.state op.now ++ [pendingRecord c input op.now draw deviceCode])
      (w.log ++ [entryOf c w op]) := by
  obtain ⟨⟨letters, hletters⟩, hfree⟩ := generateUniqueDeviceCode_eq_some hcode
  have hold := (h.known.expired op.now).append hclaimed
  refine ⟨?_, ?_, ?_⟩
  · rw [map_append]
    refine nodup_append.mpr ⟨hold.ids, by simp, ?_⟩
    rintro id hid other hother rfl
    obtain ⟨record, hrecord, rfl⟩ := mem_map.mp hid
    obtain ⟨sub, subDraw, htracked⟩ := (h.known.expired op.now).tracked record hrecord
    obtain ⟨request, hsub, hrequest, -⟩ := htracked.submitted_requestId
    apply h.fresh_requestId hop hcall htracked.logged hsub
    rw [hrequest]
    exact mem_singleton.mp hother
  · exact codesDiffer_append hold.codes fun r hr hactive => hfree r hr hactive
  · intro record hrecord
    obtain hmem | hnew := mem_append.mp hrecord
    · exact hold.tracked record hmem
    · rw [mem_singleton.mp hnew]
      refine ⟨entryOf c w op, draw,
        { logged := mem_append_right _ mem_cons_self
          submission := ⟨input, deviceCode, hcall, hsubmitted, rfl⟩
          requestId := rfl
          statusToken := rfl
          located := ?_
          approval := fun happroved => by cases happroved
          unclaimed := ?_
          delivered := fun hsome => by cases hsome }⟩
      · change normalizeNodePairingDeviceCode deviceCode ≠ []
        rw [hletters]
        exact normalize_deviceCodeOf_ne_nil letters
      · -- a claimed request was submitted before, under another id
        intro _ other hother claim hclaim heq
        obtain hother | hother := mem_append.mp hother
        · obtain ⟨sub, app, request, bits, hsublist, hsub, hrequest, -⟩ :=
            h.authorized other hother claim hclaim
          have hlogged : sub ∈ w.log := hsublist.subset mem_cons_self
          exact h.fresh_requestId hop hcall hlogged hsub (hrequest.trans heq)
        · rw [mem_singleton.mp hother, hclaimed] at hclaim
          cases hclaim

theorem mem_grants_claimedNode (record : StoredPendingPairingRequest) (now : ℤ) (draw : NodeDraw)
    (bit : RelayCapabilityBit) :
    (bit ∈ (publicNode (claimedNode c record now draw)).grants.allowed ∨
        bit ∈ (publicNode (claimedNode c record now draw)).grants.requiresConfirmation) ↔
      bit ∈ record.capabilityBits := by
  have hgrants : (publicNode (claimedNode c record now draw)).grants =
      (createNodeAclForPendingPairing record draw.nodeId draw.credential.credentialId
        record.displayName now).grants :=
    grants_publicNode_newNode c draw _ _ _ now
      (settled_createNodeAclForPendingPairing record _ _ _ _) rfl
  rw [hgrants, createNodeAclForPendingPairing, mem_grants_applyTrustTierOverlay]
  simp

theorem authorized_of_claim (hinj : Injective c.sha256) (h : PairingInv c w)
    {record : StoredPendingPairingRequest} {draw : NodeDraw}
    (hmem : record ∈ expired w.registry.state op.now)
    (hhash : c.sha256 (Text.trim statusToken) = record.statusTokenHash)
    (happroved : record.state = .approved) (credential : RelayNodeCredential) :
    Authorized (w.log ++ [entryOf c w op]) (entryOf c w op)
      ⟨record.requestId, statusToken, credential,
        publicNode (claimedNode c record op.now draw)⟩ := by
  obtain ⟨sub, subDraw, htracked⟩ := (h.known.expired op.now).tracked record hmem
  obtain ⟨request, hsubmitted, hrequest, hexpires⟩ := htracked.submitted_requestId
  obtain ⟨app, hsublist, happ, hintime⟩ := htracked.approval happroved
  have htoken : Text.trim statusToken = subDraw.token := hinj (hhash.trans htracked.statusToken)
  refine ⟨sub, app, request, record.capabilityBits, ?_, ?_, hrequest, happ, hexpires ▸ hintime, ?_⟩
  · exact hsublist.append (List.Sublist.refl [entryOf c w op])
  · rw [htoken]
    exact hsubmitted
  · exact mem_grants_claimedNode record op.now draw

theorem PairingInv.of_unclaimed (h : PairingInv c w) (hop : Admissible w op)
    (hsubmits : ∀ request statusToken, (entryOf c w op).submitted = some (request, statusToken) →
      ∃ input draw, op.call = .submitPendingPairingRequest input draw ∧
        request.requestId = draw.requestId)
    (hclaimed : (entryOf c w op).claimed = none)
    (hknown : Known c (step c w op).registry.state.pendingPairings (w.log ++ [entryOf c w op])) :
    PairingInv c (step c w op) where
  freshLog := freshLog_step c h.freshLog hop
  submits := by
    intro entry hentry request statusToken hsubmitted
    obtain hold | rfl := mem_log_step.mp hentry
    · exact h.submits entry hold request statusToken hsubmitted
    · exact hsubmits request statusToken hsubmitted
  known := hknown
  authorized := by
    intro entry hentry claim hclaim
    obtain hold | rfl := mem_log_step.mp hentry
    · exact (h.authorized entry hold claim hclaim).append _
    · rw [hclaimed] at hclaim
      cases hclaim
  once := by
    rw [log_step, filterMap_append]
    have hnil : [entryOf c w op].filterMap (·.claimed) = [] := by simp [hclaimed]
    rw [hnil]
    simpa using h.once

/-- A call keeps every request known and every claim authorized. -/
theorem pairingInv_step (hinj : Injective c.sha256) (h : PairingInv c w)
    (hop : Admissible w op) : PairingInv c (step c w op) := by
  have hstep := requestStep_step c w op
  have hnone : (entryOf c w op).submitted = none →
      ∀ request statusToken, (entryOf c w op).submitted = some (request, statusToken) →
        ∃ input draw, op.call = .submitPendingPairingRequest input draw ∧
          request.requestId = draw.requestId := by
    intro hnone request statusToken hsome
    rw [hnone] at hsome
    cases hsome
  have hexpired := h.known.expired op.now
  generalize hafter : (step c w op).registry.state.pendingPairings = after at hstep
  cases hstep with
  | untouched hsilent =>
    exact h.of_unclaimed hop (hnone hsilent.submitted) hsilent.claimed
      (hafter ▸ h.known.append hsilent.claimed)
  | expiry hsilent =>
    exact h.of_unclaimed hop (hnone hsilent.submitted) hsilent.claimed
      (hafter ▸ hexpired.append hsilent.claimed)
  | submission input draw deviceCode hcall hcode hsubmitted happroved hclaimed =>
    refine h.of_unclaimed hop ?_ hclaimed
      (hafter ▸ h.known_submission hop hcall hcode hsubmitted hclaimed)
    intro request statusToken hsome
    rw [hsubmitted] at hsome
    cases hsome
    exact ⟨input, draw, hcall, rfl⟩
  | edit record edit hfind hpending hsilent hok =>
    exact h.of_unclaimed hop (hnone hsilent.submitted) hsilent.claimed
      (hafter ▸ hexpired.edit hfind hpending hsilent.claimed)
  | approval record edit hfind hpending hsubmitted happroved hclaimed =>
    have hintime := lt_expiresAt_of_pending (mem_of_find?_eq_some hfind) hpending
    exact h.of_unclaimed hop (hnone hsubmitted) hclaimed
      (hafter ▸ hexpired.approval hfind hpending hintime happroved hclaimed)
  | denial record hfind hpending hsilent hok =>
    exact h.of_unclaimed hop (hnone hsilent.submitted) hsilent.claimed
      (hafter ▸ hexpired.denial hfind hpending hsilent.claimed)
  | claim record statusToken draw hfind hhash happrovedState hunclaimed hsubmitted happroved
      hclaimed =>
    have hmem := mem_of_find?_eq_some hfind
    refine
      { freshLog := freshLog_step c h.freshLog hop
        submits := ?_
        known := hafter ▸ hexpired.claim hfind happrovedState hunclaimed hclaimed rfl
        authorized := ?_
        once := ?_ }
    · intro entry hentry request token hsome
      obtain hold | rfl := mem_log_step.mp hentry
      · exact h.submits entry hold request token hsome
      · exact hnone hsubmitted request token hsome
    · intro entry hentry claim hclaim
      obtain hold | rfl := mem_log_step.mp hentry
      · exact (h.authorized entry hold claim hclaim).append _
      · rw [hclaimed] at hclaim
        cases hclaim
        exact authorized_of_claim hinj h hmem hhash happrovedState _
    · rw [log_step, filterMap_append, map_append]
      have hlast : [entryOf c w op].filterMap (·.claimed) = [⟨record.requestId, statusToken,
          newCredential draw (boundKey c (record.key.map (·.publicKey))) op.now,
          publicNode (claimedNode c record op.now draw)⟩] := by
        simp only [filterMap_cons, hclaimed]
        rfl
      rw [hlast]
      refine nodup_append.mpr ⟨h.once, by simp, ?_⟩
      rintro id hid other hother rfl
      obtain ⟨claim, hclaim, rfl⟩ := mem_map.mp hid
      obtain ⟨entry, hentry, hentryClaimed⟩ := mem_filterMap.mp hclaim
      obtain ⟨sub, subDraw, htracked⟩ := hexpired.tracked record hmem
      exact htracked.unclaimed hunclaimed entry hentry claim hentryClaimed (mem_singleton.mp hother)

end Step

theorem pairingInv_exec {c : Crypto} (hinj : Injective c.sha256)
    (hops : Guarded (step c) Admissible World.start ops) :
    PairingInv c (exec (step c) World.start ops) :=
  exec_invariant_of_guarded (fun _ _ h hop => pairingInv_step hinj h hop) (pairingInv_start c) hops

/-! ## Decided requests stay decided -/

structure Closed (w : World) (requestId : String) : Prop where
  submitted : ∃ sub ∈ w.log, ∃ request statusToken, sub.submitted = some (request, statusToken) ∧
    request.requestId = requestId
  closed : ∀ record ∈ w.registry.state.pendingPairings, record.requestId = requestId →
    record.state = .denied ∨ record.state = .expired

/-- A call neither approves the request of an id nor hands out its credential. -/
def Spares (requestId : String) (entry : CallRecord) : Prop :=
  (∀ bits, entry.approved ≠ some (requestId, bits)) ∧
    ∀ claim, entry.claimed = some claim → claim.requestId ≠ requestId

section Closed

variable {c : Crypto} {w : World} {op : Timed} {requestId : String}

theorem Silent.spares {entry : CallRecord} (h : Silent entry) (requestId : String) :
    Spares requestId entry := by
  refine ⟨fun bits heq => ?_, fun claim hclaim => ?_⟩
  · rw [h.approved] at heq
    cases heq
  · rw [h.claimed] at hclaim
    cases hclaim

theorem Closed.expired (h : Closed w requestId) (now : ℤ) :
    ∀ record ∈ expired w.registry.state now, record.requestId = requestId →
      record.state = .denied ∨ record.state = .expired := by
  intro record hrecord hid
  obtain ⟨old, hold, rfl⟩ := mem_of_mem_expired hrecord
  rw [requestId_expireRecord] at hid
  obtain ⟨-, hsame⟩ | ⟨-, hexpired⟩ := expireRecord_eq_self_or now old
  · rw [hsame]
    exact h.closed old hold hid
  · rw [hexpired]
    exact .inr rfl

theorem Closed.ne (h : Closed w requestId) {record : StoredPendingPairingRequest} {now : ℤ}
    (hmem : record ∈ Nodes.expired w.registry.state now)
    (hopen : record.state = .pending ∨ record.state = .approved) :
    record.requestId ≠ requestId := by
  intro hid
  obtain hstate | hstate := h.expired now record hmem hid <;> rw [hstate] at hopen <;>
    obtain hopen | hopen := hopen <;> cases hopen

theorem Closed.changed (h : Closed w requestId) (hinv : PairingInv c w)
    {record : StoredPendingPairingRequest} {now : ℤ}
    {f : StoredPendingPairingRequest → StoredPendingPairingRequest}
    (hfind : (Nodes.expired w.registry.state now).find?
      (fun r => decide (r.requestId = record.requestId)) = some record)
    (hopen : record.state = .pending ∨ record.state = .approved)
    (hid : ∀ r, (f r).requestId = r.requestId) :
    ∀ r ∈ Nodes.changed (Nodes.expired w.registry.state now) record.requestId f,
      r.requestId = requestId → r.state = .denied ∨ r.state = .expired := by
  intro r hr hrid
  obtain rfl | ⟨hmem, -⟩ := mem_changed (hinv.known.expired now).ids hfind hr
  · rw [hid] at hrid
    exact absurd hrid (h.ne (mem_of_find?_eq_some hfind) hopen)
  · exact h.expired now r hmem hrid

/-- **Closed requests.** No call reopens one, approves it or hands out a credential for it. -/
theorem closed_step (hinv : PairingInv c w) (hop : Admissible w op) (h : Closed w requestId) :
    Closed (step c w op) requestId ∧ Spares requestId (entryOf c w op) := by
  have hstep := requestStep_step c w op
  have hsubmitted : ∃ sub ∈ (step c w op).log, ∃ request statusToken,
      sub.submitted = some (request, statusToken) ∧ request.requestId = requestId := by
    obtain ⟨sub, hsub, rest⟩ := h.submitted
    exact ⟨sub, mem_log_step.mpr (.inl hsub), rest⟩
  generalize hafter : (step c w op).registry.state.pendingPairings = after at hstep
  suffices hgoal : (∀ record ∈ after, record.requestId = requestId →
      record.state = .denied ∨ record.state = .expired) ∧ Spares requestId (entryOf c w op) from
    ⟨⟨hsubmitted, hafter ▸ hgoal.1⟩, hgoal.2⟩
  cases hstep with
  | untouched hsilent => exact ⟨h.closed, hsilent.spares requestId⟩
  | expiry hsilent => exact ⟨h.expired op.now, hsilent.spares requestId⟩
  | submission input draw deviceCode hcall hcode hsubmission happroved hclaimed =>
    refine ⟨?_, fun bits heq => ?_, fun claim hclaim => ?_⟩
    · intro record hrecord hid
      obtain hmem | hnew := mem_append.mp hrecord
      · exact h.expired op.now record hmem hid
      · -- the new request has an id of its own
        obtain ⟨sub, hsub, request, statusToken, hsome, hrequest⟩ := h.submitted
        rw [mem_singleton.mp hnew] at hid
        exact absurd (hrequest.trans hid.symm) (hinv.fresh_requestId hop hcall hsub hsome)
    · rw [happroved] at heq
      cases heq
    · rw [hclaimed] at hclaim
      cases hclaim
  | edit record edit hfind hpending hsilent hok | denial record hfind hpending hsilent hok =>
    exact ⟨h.changed hinv hfind (.inl hpending) fun _ => rfl, hsilent.spares requestId⟩
  | approval record edit hfind hpending hnone happroved hclaimed =>
    refine ⟨h.changed hinv hfind (.inl hpending) fun r => (approvedRecord_fields _ _ r).1,
      fun bits heq => ?_, fun claim hclaim => ?_⟩
    · rw [happroved] at heq
      cases heq
      exact h.ne (mem_of_find?_eq_some hfind) (.inl hpending) rfl
    · rw [hclaimed] at hclaim
      cases hclaim
  | claim record statusToken draw hfind hhash happroved hunclaimed hnone hnoApproval hclaimed =>
    refine ⟨h.changed hinv hfind (.inr happroved) fun _ => rfl,
      fun bits heq => ?_, fun claim hclaim => ?_⟩
    · rw [hnoApproval] at heq
      cases heq
    · rw [hclaimed] at hclaim
      cases hclaim
      exact h.ne (mem_of_find?_eq_some hfind) (.inr happroved)

/-- A closed request is spared by every later call. -/
theorem closed_exec (hinj : Injective c.sha256)
    (hinv : PairingInv c w) (hops : Guarded (step c) Admissible w ops) (h : Closed w requestId) :
    ∃ later, (exec (step c) w ops).log = w.log ++ later ∧
      ∀ entry ∈ later, Spares requestId entry := by
  induction ops generalizing w with
  | nil => exact ⟨[], by simp, by simp⟩
  | cons op ops ih =>
    obtain ⟨hclosed, hspares⟩ := closed_step hinv hops.1 h
    obtain ⟨later, hlog, hlater⟩ := ih (pairingInv_step hinj hinv hops.1) hops.2 hclosed
    refine ⟨entryOf c w op :: later, ?_, ?_⟩
    · rw [exec_cons, hlog, log_step, append_assoc]
      rfl
    · intro entry hentry
      obtain rfl | hmem := mem_cons.mp hentry
      · exact hspares
      · exact hlater entry hmem

end Closed

/-! ## The life of a request -/

/-- What holds after a run, and of the next call. -/
structure Lifecycle (c : Crypto) (w : World) : Prop where
  once : ((w.log.filterMap (·.claimed)).map (·.requestId)).Nodup
  nodes : w.registry.state.nodes.map (·.nodeId) =
    (w.log.filterMap (·.created)).map (·.nodeId)
  authorized : ∀ entry ∈ w.log, ∀ claim, entry.claimed = some claim → Authorized w.log entry claim
  codes : (w.registry.state.pendingPairings.filter isActiveClaimablePairing).Pairwise fun a b =>
    normalizeNodePairingDeviceCode a.deviceCode ≠ normalizeNodePairingDeviceCode b.deviceCode
  approval : ∀ op requestId bits, (entryOf c w op).approved = some (requestId, bits) →
    ∃ record ∈ w.registry.state.pendingPairings, record.requestId = requestId ∧
      record.state = .pending ∧ op.now < record.expiresAt
  kept : ∀ op, ∀ record ∈ w.registry.state.pendingPairings,
    isActiveClaimablePairing record = true → isOverdue op.now record = false →
      ∃ after ∈ (step c w op).registry.state.pendingPairings, after.requestId = record.requestId
  found : ∀ now deviceCode, ∀ record ∈ expired w.registry.state now,
    isActiveClaimablePairing record = true →
      normalizeNodePairingDeviceCode deviceCode =
          normalizeNodePairingDeviceCode record.deviceCode →
        (findPendingPairingRequestByDeviceCode w.registry.state deviceCode now).result =
          .ok (some (publicPendingPairing record))
  thrown : ∀ op e, (entryOf c w op).result = .error e →
    (∀ record ∈ w.registry.state.pendingPairings, isOverdue op.now record = true ∨
      record ∈ (step c w op).registry.state.pendingPairings ∨
      Dropped w.registry.state op.now record) ∧
    ∀ after ∈ (step c w op).registry.state.pendingPairings,
      ∃ record ∈ w.registry.state.pendingPairings, after = expireRecord op.now record ∨
        after = record

section Life

variable {c : Crypto} {w : World}

theorem exists_mem_changed {records : List StoredPendingPairingRequest}
    {record : StoredPendingPairingRequest}
    {f : StoredPendingPairingRequest → StoredPendingPairingRequest}
    (hf : ∀ r, (f r).requestId = r.requestId) (id : String) (h : record ∈ records) :
    ∃ after ∈ changed records id f, after.requestId = record.requestId := by
  have hmem : record.requestId ∈ (changed records id f).map (·.requestId) := by
    rw [changed, map_modifyFirst fun r _ => hf r]
    exact mem_map_of_mem h
  exact mem_map.mp hmem

theorem PairingInv.kept (h : PairingInv c w) (op : Timed) {record : StoredPendingPairingRequest}
    (hmem : record ∈ w.registry.state.pendingPairings)
    (hactive : isActiveClaimablePairing record = true) (hintime : isOverdue op.now record = false) :
    ∃ after ∈ (step c w op).registry.state.pendingPairings, after.requestId = record.requestId := by
  have hstep := requestStep_step c w op
  have hexpired : record ∈ expired w.registry.state op.now :=
    mem_expired_of_active h.known.ids hmem hactive hintime
  generalize (step c w op).registry.state.pendingPairings = after at hstep ⊢
  cases hstep with
  | untouched _ => exact ⟨record, hmem, rfl⟩
  | expiry _ => exact ⟨record, hexpired, rfl⟩
  | submission input draw deviceCode _ _ _ _ _ =>
    exact ⟨record, mem_append_left _ hexpired, rfl⟩
  | edit other edit _ _ _ _ | denial other _ _ _ _ | claim other statusToken draw _ _ _ _ _ _ _ =>
    refine exists_mem_changed ?_ _ hexpired
    exact fun _ => rfl
  | approval other edit _ _ _ _ _ =>
    exact exists_mem_changed (fun r => (approvedRecord_fields _ _ r).1) _ hexpired

theorem exists_ok_of_event {entry : CallRecord}
    (h : entry.submitted ≠ none ∨ entry.approved ≠ none ∨ entry.claimed ≠ none) :
    ∃ reply, entry.result = .ok reply := by
  cases hresult : entry.result with
  | ok reply => exact ⟨reply, rfl⟩
  | error e =>
    obtain ⟨call, now, save, result⟩ := entry
    obtain rfl : result = .error e := hresult
    exfalso
    obtain h | h | h := h <;> apply h <;> cases call <;> rfl

/-- **A call that throws.** It may only expire and drop requests. -/
theorem PairingInv.thrown (h : PairingInv c w) (op : Timed) {e : RelayNodeError}
    (herror : (entryOf c w op).result = .error e) :
    (∀ record ∈ w.registry.state.pendingPairings, isOverdue op.now record = true ∨
      record ∈ (step c w op).registry.state.pendingPairings ∨
      Dropped w.registry.state op.now record) ∧
    ∀ after ∈ (step c w op).registry.state.pendingPairings,
      ∃ record ∈ w.registry.state.pendingPairings, after = expireRecord op.now record ∨
        after = record := by
  have hstep := requestStep_step c w op
  have hnot : ¬∃ reply, (entryOf c w op).result = .ok reply := by
    rintro ⟨reply, hok⟩
    rw [herror] at hok
    cases hok
  generalize (step c w op).registry.state.pendingPairings = after at hstep ⊢
  cases hstep with
  | untouched _ =>
    exact ⟨fun record hmem => .inr (.inl hmem), fun record hmem => ⟨record, hmem, .inr rfl⟩⟩
  | expiry _ =>
    refine ⟨fun record hmem => ?_, fun record hmem => ?_⟩
    · cases hover : isOverdue op.now record with
      | true => exact .inl rfl
      | false => exact .inr (mem_expired_or_dropped h.known.ids hmem hover)
    · obtain ⟨old, hold, heq⟩ := mem_of_mem_expired hmem
      exact ⟨old, hold, .inl heq⟩
  | submission input draw deviceCode _ _ hsubmitted _ _ =>
    exact absurd (exists_ok_of_event (.inl (by rw [hsubmitted]; simp))) hnot
  | edit other edit _ _ _ hok | denial other _ _ _ hok => exact absurd hok hnot
  | approval other edit _ _ _ happroved _ =>
    exact absurd (exists_ok_of_event (.inr (.inl (by rw [happroved]; simp)))) hnot
  | claim other statusToken draw _ _ _ _ _ _ hclaimed =>
    exact absurd (exists_ok_of_event (.inr (.inr (by rw [hclaimed]; simp)))) hnot

theorem pending_of_approved (op : Timed) {requestId : String} {bits : List RelayCapabilityBit}
    (happroved : (entryOf c w op).approved = some (requestId, bits)) :
    ∃ record ∈ w.registry.state.pendingPairings, record.requestId = requestId ∧
      record.state = .pending ∧ op.now < record.expiresAt := by
  have hstep := requestStep_step c w op
  generalize (step c w op).registry.state.pendingPairings = after at hstep
  cases hstep with
  | approval record edit hfind hpending _ happrovedRecord _ =>
    rw [happrovedRecord] at happroved
    cases happroved
    have hmem := mem_of_find?_eq_some hfind
    exact ⟨record, mem_of_active_of_mem_expired hmem (isActive_of_pending hpending), rfl, hpending,
      lt_expiresAt_of_pending hmem hpending⟩
  | untouched hsilent | expiry hsilent | edit _ _ _ _ hsilent _ | denial _ _ _ hsilent _ =>
    rw [hsilent.approved] at happroved; cases happroved
  | submission _ _ _ _ _ _ hnone _ | claim _ _ _ _ _ _ _ _ hnone _ =>
    rw [hnone] at happroved; cases happroved

theorem PairingInv.found (h : PairingInv c w) (now : ℤ) (deviceCode : String)
    {record : StoredPendingPairingRequest} (hmem : record ∈ expired w.registry.state now)
    (hactive : isActiveClaimablePairing record = true)
    (hcode : normalizeNodePairingDeviceCode deviceCode =
      normalizeNodePairingDeviceCode record.deviceCode) :
    (findPendingPairingRequestByDeviceCode w.registry.state deviceCode now).result =
      .ok (some (publicPendingPairing record)) := by
  obtain ⟨sub, draw, htracked⟩ := (h.known.expired now).tracked record hmem
  have hlocated : locatedByCode (expirePendingPairingNow w.registry.state now).1 deviceCode =
      some record :=
    locatedByCode_of_active (h.known.expired now).codes hmem hactive htracked.located hcode
  rw [findPendingPairingRequestByDeviceCode, result_afterExpiry, hlocated]
  rfl

end Life

/-- **Pairing requests.** After every admissible run requests live as wanted, and once a request
    was denied or has expired no later call approves it or hands out a credential for it. -/
theorem pairing_of_run {c : Crypto} (hinj : Injective c.sha256) {ops : List Timed}
    (hops : Guarded (step c) Admissible World.start ops) :
    Lifecycle c (exec (step c) World.start ops) ∧
      ∀ pre post, ops = pre ++ post →
        ∀ record ∈ (exec (step c) World.start pre).registry.state.pendingPairings,
          record.state = .denied ∨ record.state = .expired →
            ∃ later, (exec (step c) World.start ops).log =
                (exec (step c) World.start pre).log ++ later ∧
              ∀ entry ∈ later, Spares record.requestId entry := by
  have hinv := pairingInv_exec hinj hops
  refine ⟨?_, ?_⟩
  · exact
      { once := hinv.once
        nodes := nodes_of_run c ops
        authorized := hinv.authorized
        codes := pairwise_filter.mpr hinv.known.codes
        approval := fun op _ _ happroved => pending_of_approved op happroved
        kept := fun op _ hmem hactive hintime => hinv.kept op hmem hactive hintime
        found := fun now deviceCode _ hmem hactive hcode =>
          hinv.found now deviceCode hmem hactive hcode
        thrown := fun op _ herror => hinv.thrown op herror }
  · rintro pre post rfl record hmem hstate
    obtain ⟨hpre, hpost⟩ := (guarded_append _ _ _ _ _).mp hops
    have hinvPre := pairingInv_exec hinj hpre
    obtain ⟨sub, draw, htracked⟩ := hinvPre.known.tracked record hmem
    obtain ⟨request, hsubmitted, hrequest, -⟩ := htracked.submitted_requestId
    rw [exec_append]
    refine closed_exec hinj hinvPre hpost
      ⟨⟨sub, htracked.logged, request, draw.token, hsubmitted, hrequest⟩, ?_⟩
    intro other hother hid
    rwa [eq_of_requestId_eq hinvPre.known.ids hother hmem hid]

theorem drawn_A : "A" ≠ "" ∧ ∀ c ∈ "A".toList, isBase64Url c = true := by
  simp [isBase64Url]

theorem drawn_B : "B" ≠ "" ∧ ∀ c ∈ "B".toList, isBase64Url c = true := by
  simp [isBase64Url]

theorem drawn_F : "F" ≠ "" ∧ ∀ c ∈ "F".toList, isBase64Url c = true := by
  simp [isBase64Url]

/-- A request is submitted with the texts `A`, `B` and `F`. -/
def submitDraw : PendingPairingDraw :=
  ⟨⟨"A", drawn_A⟩, ⟨"B", drawn_B⟩, ⟨"F", drawn_F⟩,
    fun _ => ⟨"ABCDEF".toList, rfl, by rw [← forall_iff_forall_mem]; decide⟩⟩

/-- A request that is approved and claimed. -/
def claimRun : List Timed :=
  [⟨.submitPendingPairingRequest {} submitDraw, 0⟩,
    ⟨.approvePendingPairingRequest "ppreq_A" none, 1⟩,
    ⟨.pollPendingPairingRequest "ppreq_A" "pstat_B" nodeDraw, 2⟩]

/-- An approved request is claimed once, on the authority of its approval. -/
theorem pairing_of_claimRun :
    Lifecycle keylessCrypto (exec (step keylessCrypto) World.start claimRun) ∧
      ((exec (step keylessCrypto) World.start claimRun).log.filterMap (·.claimed)).map
        (·.requestId) = ["ppreq_A"] := by
  have hops : Guarded (step keylessCrypto) Admissible World.start claimRun := by decide
  exact ⟨(pairing_of_run digestOf_injective hops).1, by decide⟩

/-- A request that was denied more than an hour ago. -/
def denialRun : List Timed :=
  [⟨.submitPendingPairingRequest {} submitDraw, 0⟩, ⟨.denyPendingPairingRequest "ppreq_A", 1⟩]

/-- An edit of a request that does not exist. -/
def lateEdit : Timed := ⟨.editPendingPairingAccess "ppreq_C" {}, 3600002⟩

/-- A call that throws drops a request that was denied long ago, though it had not expired. -/
theorem denied_request_dropped_by_failing_edit :
    Guarded (step keylessCrypto) Admissible World.start (denialRun ++ [lateEdit]) ∧
      (∃ e, (entryOf keylessCrypto (exec (step keylessCrypto) World.start denialRun)
        lateEdit).result = .error e) ∧
      ∃ record ∈ (exec (step keylessCrypto) World.start denialRun).registry.state.pendingPairings,
        isOverdue lateEdit.now record = false ∧
        record ∉ (step keylessCrypto (exec (step keylessCrypto) World.start denialRun)
          lateEdit).registry.state.pendingPairings := by
  refine ⟨by decide, ⟨pendingPairingNotFound, rfl⟩, ?_⟩
  have hstate : (exec (step keylessCrypto) World.start denialRun).registry.state.pendingPairings.map
      (isOverdue lateEdit.now) = [false] := by
    decide
  have hgone : (step keylessCrypto (exec (step keylessCrypto) World.start denialRun)
      lateEdit).registry.state.pendingPairings.length = 0 := by
    decide
  obtain ⟨record, hrecord, hintime⟩ := mem_map.mp (hstate ▸ mem_singleton_self false)
  refine ⟨record, hrecord, hintime, ?_⟩
  rw [eq_nil_of_length_eq_zero hgone]
  exact not_mem_nil

end RelayIde.Nodes
