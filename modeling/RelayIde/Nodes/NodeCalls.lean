import RelayIde.Nodes.Expiry
import RelayIde.Nodes.PairToken

/-!
# Calls on Node Records

What a call does to the node records: it adds one with the credential it answers, it acts on one,
or it leaves them alone.

- `nodes_of_run` — the nodes are those whose credentials were handed out
-/

namespace RelayIde.Nodes

open RelayIde.Library RelayIde.Security

/-! ## One record -/

section Record

variable (c : Crypto) (node : StoredNodeRecord) (now : ℤ)

@[simp] theorem nodeId_provenNode (credentialId : Option String) :
    (provenNode node credentialId now).nodeId = node.nodeId := by
  unfold provenNode
  split
  · rfl
  · unfold proveCredentialRotation
    split
    · rfl
    · split
      · split <;> rfl
      · rfl

theorem nodeId_runOnNode (call : NodeCall) :
    (runOnNode c node now call).state.nodeId = node.nodeId := by
  cases call with
  | beginCredentialRotation publicKey draw =>
    simp only [runOnNode, beginCredentialRotation]
    split
    · rfl
    · split <;> rfl
  | markCredentialRotationDelivered rotationId =>
    simp only [runOnNode, markCredentialRotationDelivered]
    split
    · rfl
    · split <;> rfl
  | failCredentialRotation rotationId reason =>
    simp only [runOnNode, failCredentialRotation]
    split
    · rfl
    · split <;> rfl
  | clearCredentialRotationFailure =>
    simp only [runOnNode, clearCredentialRotationFailure]
    split
    · rfl
    · split <;> rfl
  | recordHeartbeat protocolVersion credentialId =>
    simp only [runOnNode, recordHeartbeat]
    split
    · rfl
    · exact nodeId_provenNode node now credentialId
  | markNodeLinkDisconnected =>
    simp only [runOnNode, markNodeLinkDisconnected]
    split <;> rfl
  | revokeNode =>
    simp only [runOnNode, revokeNode]
    split <;> rfl
  | markNodeUpdating =>
    simp only [runOnNode, markNodeUpdating]
    split
    · rfl
    · split <;> rfl
  | markNodeUpdateComplete =>
    simp only [runOnNode, markNodeUpdateComplete]
    split
    · rfl
    · split <;> rfl

end Record

/-! ## One call -/

/-- The credential that an exchange or a claim answered. -/
def CallRecord.created (entry : CallRecord) : Option RelayNodeCredential :=
  match entry.call, entry.result with
  | .exchangePairToken _ _, .ok (.paired credential _) => some credential
  | .pollPendingPairingRequest _ _ _, .ok (.polled result) => result.claim.map (·.1)
  | _, _ => none

inductive NodeStep (c : Crypto) (nodes : List StoredNodeRecord) (entry : CallRecord) :
    List StoredNodeRecord → Prop
  | untouched (hcreated : entry.created = none)
      (hcall : ∀ nodeId call, entry.call = .onNode nodeId call → ∃ e, entry.result = .error e) :
      NodeStep c nodes entry nodes
  | added (draw : NodeDraw) (displayName protocolVersion : String) (key : Option BoundKey)
      (acl : RelayNodeAcl)
      (hdraws : entry.call.draws = [draw.node, draw.credential.id, draw.credential.secret])
      (hacl : acl.Settled)
      (hpeer : acl.peer = ⟨draw.nodeId, some draw.credential.credentialId, some displayName⟩)
      (hcreated : entry.created = some (newCredential draw key entry.now))
      (hcall : ∀ nodeId call, entry.call ≠ .onNode nodeId call) :
      NodeStep c nodes entry
        (nodes ++ [newNode c draw displayName protocolVersion key acl entry.now])
  | acted (nodeId : String) (call : NodeCall) (node : StoredNodeRecord)
      (hcall : entry.call = .onNode nodeId call) (hrefusal : call.refusal = none)
      (hfind : (nodes.find? fun n => decide (n.nodeId = nodeId)) = some node)
      (hresult : entry.result = (runOnNode c node entry.now call).result)
      (hcreated : entry.created = none) :
      NodeStep c nodes entry
        (modifyFirst (fun n => decide (n.nodeId = nodeId))
          (fun _ => (runOnNode c node entry.now call).state) nodes)

theorem settled_createNodeAclForPendingPairing (record : StoredPendingPairingRequest)
    (nodeId credentialId displayName : String) (now : ℤ) :
    (createNodeAclForPendingPairing record nodeId credentialId displayName now).Settled :=
  settled_applyTrustTierOverlay _

section Poll

variable (c : Crypto) (s : RegistryFile) (requestId statusToken : String) (now : ℤ)
  (draw : NodeDraw)

theorem poll_eq :
    (pollPendingPairingRequest c s requestId statusToken now draw).state =
        (onPending s requestId now (claimPending c statusToken now draw)).state ∧
      (pollPendingPairingRequest c s requestId statusToken now draw).result =
        (onPending s requestId now (claimPending c statusToken now draw)).result := by
  unfold pollPendingPairingRequest onPending
  simp [expirePendingPairingNow_twice]

/-- **A poll.** It hands out a credential for an approved request whose own token was presented,
    or changes nothing but what expires. -/
theorem poll_cases :
    (∃ record, pendingPairing? (expirePendingPairingNow s now).1 requestId = some record ∧
      c.sha256 (Text.trim statusToken) = record.statusTokenHash ∧ record.state = .approved ∧
      record.credentialDeliveredAt = none ∧
      (pollPendingPairingRequest c s requestId statusToken now draw).state =
        { changePending (expirePendingPairingNow s now).1 requestId (deliveredRecord now draw) with
          nodes := s.nodes ++ [claimedNode c record now draw] } ∧
      (pollPendingPairingRequest c s requestId statusToken now draw).result =
        .ok { request := publicPendingPairing (deliveredRecord now draw record)
              claim := some (newCredential draw (boundKey c (record.key.map (·.publicKey))) now,
                publicNode (claimedNode c record now draw)) }) ∨
    ((pollPendingPairingRequest c s requestId statusToken now draw).state =
        (expirePendingPairingNow s now).1 ∧
      ∀ result, (pollPendingPairingRequest c s requestId statusToken now draw).result =
        .ok result → result.claim = none) := by
  obtain ⟨hstate, hresult⟩ := poll_eq c s requestId statusToken now draw
  rw [hstate, hresult, onPending, state_afterExpiry, result_afterExpiry]
  cases hfind : pendingPairing? (expirePendingPairingNow s now).1 requestId with
  | none => exact .inr ⟨rfl, fun result h => by cases h⟩
  | some record =>
    have hid : record.requestId = requestId := by simpa using List.find?_some hfind
    simp only [claimPending]
    split_ifs with hhash hdone
    · exact .inr ⟨rfl, fun result h => by cases h⟩
    · refine .inr ⟨rfl, fun result h => ?_⟩
      cases h
      rfl
    · rw [not_or] at hdone
      refine .inl ⟨record, rfl, not_not.mp hhash, not_not.mp hdone.1, by simpa using hdone.2, ?_,
        rfl⟩
      rw [hid]
      rfl

end Poll

/-- **What a call does to the nodes.** -/
theorem nodeStep_step (c : Crypto) (w : World) (op : Timed) :
    NodeStep c w.registry.state.nodes (entryOf c w op) (step c w op).registry.state.nodes := by
  obtain ⟨call, now⟩ := op
  rw [registry_step]
  cases call with
  | createPairToken options draw =>
    exact .untouched rfl fun _ _ h => by cases h
  | exchangePairToken input draw =>
    simp only [run]
    cases hredeem : redeemablePairToken c w.registry.state input now with
    | error e =>
      have hout : exchangePairToken c w.registry.state input now draw =
          .refuse w.registry.state e := by
        rw [exchangePairToken, hredeem]
      rw [hout]
      refine .untouched ?_ fun _ _ h => by cases h
      simp [entryOf, CallRecord.created, run, hout, HubNodeRegistry.respond, Outcome.map,
        Outcome.refuse, Except.map]
    | ok pairToken =>
      simp only [exchangePairToken, hredeem]
      refine .added draw _ _ (boundKey c input.publicKey) _ rfl
        (settled_createNodeAclForPairToken pairToken) (peer_createNodeAclForPairToken pairToken) ?_
        (fun _ _ h => by cases h)
      simp [entryOf, CallRecord.created, run, exchangePairToken, hredeem, HubNodeRegistry.respond,
        Outcome.map, Outcome.persist, Except.map]
  | submitPendingPairingRequest _ _ | listPendingPairingRequests _ | getPendingPairingRequest _
  | findPendingPairingRequestByDeviceCode _ | editPendingPairingAccess _ _
  | approvePendingPairingRequest _ _ | denyPendingPairingRequest _ =>
    rw [(frame_onRequests c _ _ rfl).2]
    refine .untouched rfl ?_
    intro _ _ h
    cases h
  | pollPendingPairingRequest requestId statusToken draw =>
    simp only [run, state_respond, state_map]
    obtain ⟨record, -, -, -, -, hstate, hresult⟩ | ⟨hstate, hresult⟩ :=
      poll_cases c w.registry.state requestId statusToken now draw
    · rw [hstate]
      have hadded : ∀ entry, entry = entryOf c w
          ⟨.pollPendingPairingRequest requestId statusToken draw, now⟩ →
          entry.created = some (newCredential draw (boundKey c (record.key.map (·.publicKey)))
            entry.now) →
          NodeStep c w.registry.state.nodes entry
            (w.registry.state.nodes ++ [claimedNode c record entry.now draw]) := by
        rintro entry hentry hcreated
        refine .added draw _ _ (boundKey c (record.key.map (·.publicKey))) _ ?_
          (settled_createNodeAclForPendingPairing record _ _ _ _) rfl hcreated ?_
        · rw [hentry]
          rfl
        · rw [hentry]
          intro _ _ h
          cases h
      refine hadded _ rfl ?_
      simp [entryOf, CallRecord.created, run, hresult, HubNodeRegistry.respond, Outcome.map,
        Except.map]
    · rw [hstate]
      refine .untouched ?_ fun _ _ h => by cases h
      cases hpoll : (pollPendingPairingRequest c w.registry.state requestId statusToken now
          draw).result with
      | error e =>
        simp [entryOf, CallRecord.created, run, hpoll, HubNodeRegistry.respond, Outcome.map,
          Except.map]
      | ok result =>
        simp [entryOf, CallRecord.created, run, hpoll, HubNodeRegistry.respond, Outcome.map,
          Except.map, hresult result hpoll]
  | onNode nodeId call =>
    simp only [run, state_respond]
    unfold onNode
    cases hrefusal : call.refusal with
    | some e =>
      refine .untouched rfl fun _ _ _ => ⟨e, ?_⟩
      simp [entryOf, run, onNode, hrefusal, HubNodeRegistry.respond, Outcome.refuse]
    | none =>
      cases hfind : findNode w.registry.state nodeId with
      | none =>
        refine .untouched rfl fun _ _ _ => ⟨notPaired, ?_⟩
        simp [entryOf, run, onNode, hrefusal, hfind, HubNodeRegistry.respond, Outcome.refuse]
      | some node =>
        refine .acted nodeId call node rfl hrefusal hfind ?_ rfl
        simp [entryOf, run, onNode, hrefusal, hfind, HubNodeRegistry.respond]
  | authenticateCredential token strictDeny =>
    simp only [run, state_respond, state_map, state_authenticateCredentialDetailed]
    exact .untouched rfl fun _ _ h => by cases h
  | authenticateNodeLink token context =>
    simp only [run, state_authenticateNodeLinkWithProof]
    exact .untouched rfl fun _ _ h => by cases h
  | flushPendingHeartbeatPersist =>
    simp only [run, state_flushPendingHeartbeatPersist]
    exact .untouched rfl fun _ _ h => by cases h

/-- The nodes are those whose credentials were handed out, in that order. -/
theorem nodes_of_run (c : Crypto) (ops : List Timed) :
    (exec (step c) World.start ops).registry.state.nodes.map (·.nodeId) =
      ((exec (step c) World.start ops).log.filterMap (·.created)).map (·.nodeId) := by
  refine exec_invariant (I := fun w : World => w.registry.state.nodes.map (·.nodeId) =
    (w.log.filterMap (·.created)).map (·.nodeId)) ?_ ops rfl
  intro w op h
  rw [log_step, List.filterMap_append, List.map_append, ← h]
  have hstep := nodeStep_step c w op
  generalize (step c w op).registry.state.nodes = after at hstep ⊢
  cases hstep with
  | untouched hcreated _ => simp [hcreated]
  | added draw _ _ key _ _ _ _ hcreated _ => simp [hcreated, newNode, newCredential]
  | acted nodeId call node _ _ hfind _ hcreated =>
    have hid : node.nodeId = nodeId := by simpa using List.find?_some hfind
    rw [map_modifyFirst]
    · simp [hcreated]
    · intro other hother
      rw [nodeId_runOnNode, hid]
      exact (of_decide_eq_true hother).symm

end RelayIde.Nodes
