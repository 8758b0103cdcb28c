import RelayIde.Nodes.Rotation

/-!
# Crashes

The hub writes its registry file with every decision, but for heartbeats, which only schedule a
write.  A heartbeat also proves rotations, so a hub that is lost before the write comes back with
the credential that was superseded.

- `survives_iff_not_overtaken` — the one is the failure of the other
-/

namespace RelayIde.Nodes

open RelayIde.Library RelayIde.Security List Bool

/-! ## What is written -/

/-- A call that saves what it changes. -/
def Thorough {σ α : Type} (s : σ) (o : Outcome σ α) : Prop :=
  o.save = .written ∨ (o.save = .unsaved ∧ o.state = s)

section Thorough

variable {σ α : Type} (s : σ)

theorem thorough_refuse (e : RelayNodeError) : Thorough s (.refuse s e : Outcome σ α) :=
  .inr ⟨rfl, rfl⟩

theorem thorough_answer (a : α) : Thorough s (.answer s a) := .inr ⟨rfl, rfl⟩

theorem thorough_persist (s' : σ) (a : α) : Thorough s (.persist s' a) := .inl rfl

theorem Thorough.map {s : σ} {β : Type} {o : Outcome σ α} (h : Thorough s o) (f : α → β) :
    Thorough s (o.map f) := h

end Thorough

section Write

variable (c : Crypto)

theorem expirePendingPairingNow_of_unchanged {s : RegistryFile} {now : ℤ}
    (h : (expirePendingPairingNow s now).2 = false) : (expirePendingPairingNow s now).1 = s := by
  simp only [expirePendingPairingNow, or_eq_false_iff, bne_eq_false_iff_eq] at h
  obtain ⟨hnone, hlength⟩ := h
  have hmap : s.pendingPairings.map (expireRecord now) = s.pendingPairings := by
    rw [map_congr_left (g := id), map_id]
    intro record hrecord
    have hintime := any_eq_false.mp hnone record hrecord
    exact expireRecord_of_not_overdue (eq_false_iff.mpr hintime)
  rw [hmap] at hlength
  have hkept : prunePendingPairings s.pendingPairings now = s.pendingPairings := by
    refine List.Sublist.eq_of_length ?_ hlength
    exact filter_sublist.trans filter_sublist
  simp only [expirePendingPairingNow, hmap, hkept]

section
variable (s : RegistryFile)
include s

theorem save_afterExpiry {α : Type} (now : ℤ)
    (f : RegistryFile → Outcome RegistryFile α) :
    (afterExpiry s now f).save =
      if (expirePendingPairingNow s now).2 = true ∧
          (f (expirePendingPairingNow s now).1).save = .unsaved then .written
      else (f (expirePendingPairingNow s now).1).save := rfl

theorem thorough_afterExpiry {α : Type} (now : ℤ)
    {f : RegistryFile → Outcome RegistryFile α} (hf : ∀ s, Thorough s (f s)) :
    Thorough s (afterExpiry s now f) := by
  rw [Thorough, save_afterExpiry, state_afterExpiry]
  cases hchanged : (expirePendingPairingNow s now).2 with
  | true =>
    obtain hsave | ⟨hsave, -⟩ := hf (expirePendingPairingNow s now).1 <;> simp [hsave]
  | false =>
    rw [expirePendingPairingNow_of_unchanged hchanged]
    simpa [Thorough] using hf s

theorem thorough_onPending {α : Type} (requestId : String) (now : ℤ)
    {f : RegistryFile → StoredPendingPairingRequest → Outcome RegistryFile α}
    (hf : ∀ s record, Thorough s (f s record)) : Thorough s (onPending s requestId now f) := by
  refine thorough_afterExpiry s now fun s => ?_
  split
  · exact thorough_refuse s _
  · exact hf s _

theorem thorough_decidePending (requestId verb : String) (now : ℤ)
    (f : StoredPendingPairingRequest → StoredPendingPairingRequest) :
    Thorough s (decidePending s requestId verb now f) := by
  refine thorough_onPending s requestId now fun s record => ?_
  split
  · exact thorough_refuse s _
  · exact thorough_persist s _ _

theorem thorough_pollPendingPairingRequest (requestId statusToken : String)
    (now : ℤ) (draw : NodeDraw) :
    Thorough s (pollPendingPairingRequest c s requestId statusToken now draw) := by
  refine thorough_afterExpiry s now fun s => ?_
  refine thorough_onPending s requestId now fun s record => ?_
  unfold claimPending
  split
  · exact thorough_refuse s _
  · split
    · exact thorough_answer s _
    · exact thorough_persist s _ _

theorem thorough_submitPendingPairingRequest (input : PendingPairingRequestInput)
    (now : ℤ) (draw : PendingPairingDraw) :
    Thorough s (submitPendingPairingRequest c s input now draw) := by
  unfold submitPendingPairingRequest
  split
  · exact thorough_refuse s _
  · refine thorough_afterExpiry s now fun s => ?_
    split
    · exact thorough_refuse s _
    · split
      · exact thorough_refuse s _
      · exact thorough_persist s _ _

theorem thorough_commitCredentialAllow (resolved : ResolvedCredential)
    (strictDeny : Bool) : Thorough s (commitCredentialAllow s resolved strictDeny) := by
  unfold commitCredentialAllow
  split
  · exact .inl rfl
  · exact thorough_persist s _ _

end

theorem thorough_runOnNode (node : StoredNodeRecord) (now : ℤ) (call : NodeCall)
    (h : ∀ version credentialId, call ≠ .recordHeartbeat version credentialId) :
    Thorough node (runOnNode c node now call) := by
  cases call with
  | beginCredentialRotation publicKey draw =>
    simp only [runOnNode, beginCredentialRotation]
    split
    · exact thorough_refuse node _
    · split
      · exact thorough_refuse node _
      · exact thorough_persist node _ _
  | markCredentialRotationDelivered rotationId =>
    simp only [runOnNode, markCredentialRotationDelivered]
    split
    · exact thorough_refuse node _
    · split
      · exact thorough_persist node _ _
      · exact thorough_answer node _
  | failCredentialRotation rotationId reason =>
    simp only [runOnNode, failCredentialRotation]
    split
    · exact thorough_refuse node _
    · split
      · exact thorough_answer node _
      · exact thorough_persist node _ _
  | clearCredentialRotationFailure =>
    simp only [runOnNode, clearCredentialRotationFailure]
    split
    · exact thorough_refuse node _
    · split
      · exact thorough_refuse node _
      · exact thorough_persist node _ _
  | recordHeartbeat version credentialId => exact absurd rfl (h version credentialId)
  | markNodeLinkDisconnected =>
    simp only [runOnNode, markNodeLinkDisconnected]
    split
    · exact thorough_answer node _
    · exact thorough_persist node _ _
  | revokeNode =>
    simp only [runOnNode, Nodes.revokeNode]
    split
    · exact thorough_answer node _
    · exact thorough_persist node _ _
  | markNodeUpdating =>
    simp only [runOnNode, Nodes.markNodeUpdating]
    split
    · exact thorough_refuse node _
    · split
      · exact thorough_answer node _
      · exact thorough_persist node _ _
  | markNodeUpdateComplete =>
    simp only [runOnNode, Nodes.markNodeUpdateComplete]
    split
    · exact thorough_refuse node _
    · split
      · exact thorough_persist node _ _
      · exact thorough_answer node _

end Write

/-! ## What is not written -/

structure Beat (w : World) (op : Timed) (nodeId version : String) (credentialId : Option String)
    (node : StoredNodeRecord) : Prop where
  call : op.call = .onNode nodeId (.recordHeartbeat version credentialId)
  compatible : assertCompatibleProtocol version = none
  found : findNode w.registry.state nodeId = some node
  paired : node.revokedAt = none

/-- The record a heartbeat leaves. -/
def beaten (node : StoredNodeRecord) (version : String) (credentialId : Option String) (now : ℤ) :
    StoredNodeRecord :=
  { provenNode node credentialId now with
    lastSeenAt := now, linkDisconnectedAt := none, protocolVersion := version }

/-- What a call leaves in memory and on disk. -/
inductive Saved (w : World) (op : Timed) : Save → HubNodeRegistry → Prop
  | written (r : HubNodeRegistry) (hfile : r.file = r.state) : Saved w op .written r
  | unchanged (save : Save) (r : HubNodeRegistry) (hsave : save ≠ .written)
      (hfile : r.file = w.registry.file) (hstate : r.state = w.registry.state) : Saved w op save r
  | beat (r : HubNodeRegistry) (nodeId version : String) (credentialId : Option String)
      (node : StoredNodeRecord) (hbeat : Beat w op nodeId version credentialId node)
      (hfile : r.file = w.registry.file)
      (hstate : r.state =
        { w.registry.state with
          nodes := modifyFirst (fun n => decide (n.nodeId = nodeId))
            (fun _ => beaten node version credentialId op.now) w.registry.state.nodes }) :
      Saved w op .debounced r

section Saved

variable {c : Crypto} {w : World} {op : Timed}

theorem saved_of_thorough {α : Type} {r : HubNodeRegistry} (hfile : r.file = w.registry.file)
    {o : Outcome RegistryFile α} (h : Thorough w.registry.state o) :
    Saved w op o.save (r.settle o) := by
  unfold HubNodeRegistry.settle
  obtain hsave | ⟨hsave, hstate⟩ := h
  · rw [hsave]
    exact .written _ rfl
  · rw [hsave]
    refine .unchanged _ _ ?_ hfile hstate
    intro h
    cases h

/-- A call that answers with an outcome saves what the outcome asks for. -/
theorem saved_respond {o : Outcome RegistryFile Reply}
    (h : Thorough w.registry.state o) :
    Saved w op (w.registry.respond o).save (w.registry.respond o).registry :=
  saved_of_thorough rfl h

theorem saved_onNode (nodeId : String) (call : NodeCall) (hcall : op.call = .onNode nodeId call) :
    Saved w op (onNode c w.registry.state nodeId call op.now).save
      (w.registry.settle (onNode c w.registry.state nodeId call op.now)) := by
  unfold onNode
  split
  · exact saved_of_thorough rfl (thorough_refuse _ _)
  · rename_i hrefusal
    split
    · exact saved_of_thorough rfl (thorough_refuse _ _)
    · rename_i node hfind
      have hsame : ∀ after, after = node →
          { w.registry.state with
            nodes := modifyFirst (fun n => decide (n.nodeId = nodeId)) (fun _ => after)
              w.registry.state.nodes } = w.registry.state := by
        intro after hafter
        rw [modifyFirst_of_fixed hfind hafter]
      by_cases hbeat : ∃ version credentialId, call = .recordHeartbeat version credentialId
      · obtain ⟨version, credentialId, rfl⟩ := hbeat
        cases hrevoked : node.revokedAt with
        | some time =>
          have hout : runOnNode c node op.now (.recordHeartbeat version credentialId) =
              .refuse node nodeWasRevoked := by
            simp [runOnNode, recordHeartbeat, hrevoked, Outcome.map, Outcome.refuse, Except.map]
          rw [hout]
          exact saved_of_thorough rfl (.inr ⟨rfl, hsame _ rfl⟩)
        | none =>
          have hout : runOnNode c node op.now (.recordHeartbeat version credentialId) =
              ⟨beaten node version credentialId op.now, .debounced,
                .ok (.beat (publicNode (beaten node version credentialId op.now))
                  (provedRotation node credentialId))⟩ := by
            simp [runOnNode, recordHeartbeat, hrevoked, beaten, Outcome.map, Except.map]
          rw [hout]
          exact .beat _ nodeId version credentialId node ⟨hcall, hrefusal, hfind, hrevoked⟩ rfl rfl
      · have hthorough := thorough_runOnNode c node op.now call
          fun version credentialId h => hbeat ⟨version, credentialId, h⟩
        refine saved_of_thorough rfl ?_
        obtain hsave | ⟨hsave, hstate⟩ := hthorough
        · exact .inl hsave
        · exact .inr ⟨hsave, hsame _ hstate⟩

theorem saved_authenticateNodeLinkWithProof (token : String) (context : NodeLinkProofContext)
    (now : ℤ) :
    Saved w op (authenticateNodeLinkWithProof c w.registry token context now).save
      (authenticateNodeLinkWithProof c w.registry token context now).registry := by
  have hnote : ∀ credentialId verified freshnessMs,
      (noteProof w.registry credentialId verified freshnessMs now).2.file = w.registry.file ∧
        ∀ noted, (noteProof w.registry credentialId verified freshnessMs now).1 = some noted →
          noted.file = w.registry.file := by
    intro credentialId verified freshnessMs
    have hpruned : (pruneNodeLinkProofReplay w.registry now).file = w.registry.file := by
      unfold pruneNodeLinkProofReplay
      split <;> rfl
    simp only [noteProof]
    split
    · exact ⟨hpruned, fun noted h => by cases h⟩
    · refine ⟨hpruned, fun noted h => ?_⟩
      cases h
      exact hpruned
  unfold authenticateNodeLinkWithProof
  split
  · exact saved_of_thorough rfl (thorough_refuse _ _)
  · split
    · exact saved_of_thorough rfl (thorough_commitCredentialAllow _ _ _)
    · split
      · exact saved_of_thorough rfl (thorough_refuse _ _)
      · rename_i verified _
        split
        · rename_i pruned heq
          refine saved_of_thorough ?_ (thorough_refuse _ _)
          exact (congrArg (·.2.file) heq).symm.trans (hnote _ _ _).1
        · rename_i noted _ heq
          refine saved_of_thorough ?_ (thorough_commitCredentialAllow _ _ _)
          exact (hnote _ _ _).2 noted (congrArg (·.1) heq)

/-- **One call.** It writes the file, or it changes nothing, or it is a heartbeat. -/
theorem saved_step (c : Crypto) (w : World) (op : Timed) :
    Saved w op (entryOf c w op).save (step c w op).registry := by
  rw [registry_step]
  obtain ⟨call, now⟩ := op
  cases call with
  | createPairToken options draw =>
    simp only [entryOf, run]
    exact .written _ rfl
  | exchangePairToken input draw =>
    simp only [entryOf, run]
    refine saved_respond (Thorough.map ?_ _)
    unfold exchangePairToken
    split
    · exact thorough_refuse _ _
    · exact thorough_persist _ _ _
  | submitPendingPairingRequest input draw =>
    simp only [entryOf, run]
    exact saved_respond ((thorough_submitPendingPairingRequest c _ _ _ _).map _)
  | listPendingPairingRequests options | getPendingPairingRequest requestId
  | findPendingPairingRequestByDeviceCode deviceCode =>
    simp only [entryOf, run]
    exact saved_respond ((thorough_afterExpiry _ _ fun s => thorough_answer s _).map _)
  | editPendingPairingAccess requestId edit | approvePendingPairingRequest requestId edit
  | denyPendingPairingRequest requestId =>
    simp only [entryOf, run]
    exact saved_respond ((thorough_decidePending _ _ _ _ _).map _)
  | pollPendingPairingRequest requestId statusToken draw =>
    simp only [entryOf, run]
    exact saved_respond ((thorough_pollPendingPairingRequest c _ _ _ _ _).map _)
  | onNode nodeId call =>
    simp only [entryOf, run]
    exact saved_onNode nodeId call rfl
  | authenticateCredential token strictDeny =>
    simp only [entryOf, run]
    refine saved_respond (Thorough.map ?_ _)
    unfold authenticateCredentialDetailed
    split
    · exact thorough_refuse _ _
    · exact thorough_commitCredentialAllow _ _ _
  | authenticateNodeLink token context =>
    simp only [entryOf, run]
    exact saved_authenticateNodeLinkWithProof token context now
  | flushPendingHeartbeatPersist =>
    simp only [entryOf, run, flushPendingHeartbeatPersist]
    split
    · exact .written _ rfl
    · refine .unchanged _ _ ?_ rfl rfl
      intro h
      cases h

end Saved

/-! ## Registries that refuse alike -/

structure SameAccess (a b : StoredNodeRecord) : Prop where
  nodeId : b.nodeId = a.nodeId
  credentialId : b.credentialId = a.credentialId
  activeCredential : b.activeCredential = a.activeCredential
  credentialRotation : b.credentialRotation = a.credentialRotation
  revokedAt : b.revokedAt = a.revokedAt

/-- Two registries that differ in how nodes were seen alone. -/
structure SameRegistry (s s' : RegistryFile) : Prop where
  pairTokens : s'.pairTokens = s.pairTokens
  pendingPairings : s'.pendingPairings = s.pendingPairings
  nodes : List.Forall₂ SameAccess s.nodes s'.nodes

/-- What a node presents to the hub, or an operator decides. -/
def RegistryCall.presents : RegistryCall → Bool
  | .exchangePairToken _ _ | .pollPendingPairingRequest _ _ _ | .approvePendingPairingRequest _ _
  | .authenticateCredential _ _ | .authenticateNodeLink _ _ => true
  | _ => false

/-- An answer that grants nothing: an error, or the status of a request. -/
def isRefusal : Except RelayNodeError Reply → Bool
  | .error _ => true
  | .ok (.polled result) => result.claim.isNone
  | .ok _ => false

variable {resolved : ResolvedCredential} {nodeId version : String} {node : StoredNodeRecord}
  {credentialId : Option String} {ring : CredentialRing} {next : RelayNodeCredential}

section Same

variable {c : Crypto} {a b : StoredNodeRecord} {s s' : RegistryFile} {now : ℤ}

theorem SameAccess.refl (a : StoredNodeRecord) : SameAccess a a := ⟨rfl, rfl, rfl, rfl, rfl⟩

theorem SameAccess.trans {d : StoredNodeRecord} (hab : SameAccess a b) (hbd : SameAccess b d) :
    SameAccess a d where
  nodeId := hbd.nodeId.trans hab.nodeId
  credentialId := hbd.credentialId.trans hab.credentialId
  activeCredential := hbd.activeCredential.trans hab.activeCredential
  credentialRotation := hbd.credentialRotation.trans hab.credentialRotation
  revokedAt := hbd.revokedAt.trans hab.revokedAt

theorem SameRegistry.refl (s : RegistryFile) : SameRegistry s s where
  pairTokens := rfl
  pendingPairings := rfl
  nodes := List.forall₂_same.mpr fun node _ => SameAccess.refl node

theorem forall₂_trans {α : Type} {R : α → α → Prop} (hR : ∀ x y z, R x y → R y z → R x z) :
    ∀ {l m n : List α}, List.Forall₂ R l m → List.Forall₂ R m n → List.Forall₂ R l n
  | _, _, _, .nil, .nil => .nil
  | _, _, _, .cons hxy hl, .cons hyz hm => .cons (hR _ _ _ hxy hyz) (forall₂_trans hR hl hm)

theorem SameRegistry.trans {s'' : RegistryFile} (h : SameRegistry s s')
    (h' : SameRegistry s' s'') : SameRegistry s s'' where
  pairTokens := h'.pairTokens.trans h.pairTokens
  pendingPairings := h'.pendingPairings.trans h.pendingPairings
  nodes := forall₂_trans (fun _ _ _ hab hbd => hab.trans hbd) h.nodes h'.nodes

theorem SameAccess.resolveOnNode (h : SameAccess a b) {tokenHash : String}
    (hok : resolveOnNode a tokenHash now = .ok resolved) :
    resolved.node = a ∧ Nodes.resolveOnNode b tokenHash now = .ok { resolved with node := b } := by
  have hprovable : provableRotation b = provableRotation a := by
    rw [provableRotation, provableRotation, h.credentialRotation]
  have hmatching : matchingRotation b tokenHash = matchingRotation a tokenHash := by
    rw [matchingRotation, matchingRotation, hprovable]
  have hexpired : isExpired b now = isExpired a now := by
    rw [isExpired, isExpired, h.activeCredential]
  unfold Nodes.resolveOnNode at hok ⊢
  rw [hmatching, hexpired, h.activeCredential, h.revokedAt, h.credentialId]
  split_ifs at hok ⊢
  cases hmatch : matchingRotation a tokenHash with
  | none | some rotation =>
    rw [hmatch] at hok
    cases hok
    exact ⟨rfl, rfl⟩

theorem SameRegistry.findNode (h : SameRegistry s s') (hfind : findNode s nodeId = some node) :
    ∃ node', Nodes.findNode s' nodeId = some node' ∧ SameAccess node node' := by
  have hnodes := h.nodes
  unfold Nodes.findNode at hfind ⊢
  generalize s.nodes = nodes at hnodes hfind
  generalize s'.nodes = nodes' at hnodes ⊢
  induction hnodes with
  | nil => cases hfind
  | @cons x y l l' hxy _ ih =>
    rw [find?_cons] at hfind ⊢
    rw [hxy.nodeId]
    split at hfind
    · cases hfind
      exact ⟨y, rfl, hxy⟩
    · exact ih hfind

theorem SameRegistry.resolve (h : SameRegistry s s') {token : String}
    (hok : resolveCredentialForAuth c s token now = .ok resolved) :
    ∃ node, SameAccess resolved.node node ∧
      resolveCredentialForAuth c s' token now = .ok { resolved with node } := by
  unfold resolveCredentialForAuth at hok ⊢
  split at hok
  · cases hok
  · split at hok
    · cases hok
    · rename_i nodeId _ node hfind
      obtain ⟨node', hfind', hsame⟩ := h.findNode hfind
      obtain ⟨hnode, hresolved⟩ := hsame.resolveOnNode hok
      refine ⟨node', hnode ▸ hsame, ?_⟩
      simpa [hfind'] using hresolved

section
variable (h : s'.pendingPairings = s.pendingPairings)
include h

theorem pendingPairings_expirePendingPairingNow :
    (expirePendingPairingNow s' now).1.pendingPairings =
      (expirePendingPairingNow s now).1.pendingPairings := by
  simp only [expirePendingPairingNow, h]

theorem result_onPending {α : Type} (requestId : String)
    {f : RegistryFile → StoredPendingPairingRequest → Outcome RegistryFile α}
    (hf : ∀ t t' record, (f t' record).result = (f t record).result) :
    (onPending s' requestId now f).result = (onPending s requestId now f).result := by
  rw [onPending, onPending, result_afterExpiry, result_afterExpiry, pendingPairing?, pendingPairing?,
    pendingPairings_expirePendingPairingNow h]
  split
  · rfl
  · exact hf _ _ _

theorem result_approvePendingPairingRequest
    (requestId : String) (edit : Option PendingPairingAccessEdit) :
    (approvePendingPairingRequest s' requestId edit now).result =
      (approvePendingPairingRequest s requestId edit now).result := by
  refine result_onPending h requestId fun t t' record => ?_
  split <;> rfl

theorem result_pollPendingPairingRequest (requestId statusToken : String) (draw : NodeDraw) :
    (pollPendingPairingRequest c s' requestId statusToken now draw).result =
      (pollPendingPairingRequest c s requestId statusToken now draw).result := by
  rw [(poll_eq c s' requestId statusToken now draw).2, (poll_eq c s requestId statusToken now draw).2]
  refine result_onPending h requestId fun t t' record => ?_
  simp only [claimPending]
  split
  · rfl
  · split <;> rfl

end

theorem result_exchangePairToken (h : s'.pairTokens = s.pairTokens) (input : PairExchangeInput)
    (draw : NodeDraw) :
    (exchangePairToken c s' input now draw).result =
    (exchangePairToken c s input now draw).result := by
  have hredeem : redeemablePairToken c s' input now = redeemablePairToken c s input now := by
    rw [redeemablePairToken, redeemablePairToken, h]
  unfold exchangePairToken
  rw [hredeem]
  split <;> rfl

theorem commitCredentialAllow_cases (s : RegistryFile) (resolved : ResolvedCredential)
    (strictDeny : Bool) :
    (commitCredentialAllow s resolved strictDeny).result = .error sourceRefused ∧
        strictDeny = true ∨
      (∃ accepted, (commitCredentialAllow s resolved strictDeny).result = .ok accepted) ∧
        strictDeny = false := by
  cases strictDeny with
  | true => exact .inl ⟨rfl, rfl⟩
  | false => exact .inr ⟨⟨_, rfl⟩, rfl⟩

theorem noteProof_load (s : RegistryFile) (credentialId : String) (verified : VerifiedProof)
    (freshnessMs : ℚ) (now : ℤ) : ∃ noted pruned,
    noteProof (.load s) credentialId verified freshnessMs now = (some noted, pruned) := by
  simp [noteProof, pruneNodeLinkProofReplay, HubNodeRegistry.load]

theorem SameAccess.provenCredential (h : SameAccess a b)
    (hnode : resolved.node = a) (context : NodeLinkProofContext) :
    Nodes.provenCredential c { resolved with node := b } context now =
      Nodes.provenCredential c resolved context now := by
  subst hnode
  have hkey : boundKeyForCredential b resolved.credentialId =
      boundKeyForCredential resolved.node resolved.credentialId := by
    rw [boundKeyForCredential, boundKeyForCredential, h.credentialRotation, h.activeCredential]
  rw [Nodes.provenCredential, Nodes.provenCredential, hkey, h.nodeId]

theorem exists_ok_commitCredentialAllow (s : RegistryFile) (resolved : ResolvedCredential)
    (strictDeny : Bool) :
    (∃ accepted, (commitCredentialAllow s resolved strictDeny).result = .ok accepted) ↔
      strictDeny = false := by
  obtain ⟨hresult, rfl⟩ | ⟨haccepted, rfl⟩ := commitCredentialAllow_cases s resolved strictDeny
  · simp [hresult]
  · exact iff_of_true haccepted rfl

theorem exists_ok_authenticateCredentialDetailed (s : RegistryFile) (token : String)
    (strictDeny : Bool) :
    (∃ accepted, (authenticateCredentialDetailed c s token strictDeny now).result = .ok accepted) ↔
      strictDeny = false ∧ ∃ resolved, resolveCredentialForAuth c s token now = .ok resolved := by
  unfold authenticateCredentialDetailed
  cases resolveCredentialForAuth c s token now with
  | error e => simp [Outcome.refuse]
  | ok resolved => simp [exists_ok_commitCredentialAllow]

theorem exists_ok_authenticateNodeLinkWithProof (s : RegistryFile) (token : String)
    (context : NodeLinkProofContext) :
    (∃ accepted, (authenticateNodeLinkWithProof c (.load s) token context now).result =
        .ok accepted) ↔
      context.strictDeny = false ∧ ∃ resolved,
        resolveCredentialForAuth c s token now = .ok resolved ∧
        (resolved.keyBound = false ∨
          ∃ verified, Nodes.provenCredential c resolved context now = .ok verified) := by
  have hstate : (HubNodeRegistry.load s).state = s := rfl
  unfold authenticateNodeLinkWithProof
  rw [hstate]
  cases hresolve : resolveCredentialForAuth c s token now with
  | error e => simp [HubNodeRegistry.respond, Outcome.refuse]
  | ok resolved =>
    cases hkey : resolved.keyBound with
    | false => simp [hkey, HubNodeRegistry.respond, exists_ok_commitCredentialAllow]
    | true =>
      cases hproven : Nodes.provenCredential c resolved context now with
      | error e => simp [hkey, hproven, HubNodeRegistry.respond, Outcome.refuse]
      | ok verified =>
        obtain ⟨noted, pruned, hnoted⟩ :=
          noteProof_load s resolved.credentialId verified context.freshnessMs now
        simp [hkey, hproven, hnoted, HubNodeRegistry.respond, exists_ok_commitCredentialAllow]

theorem isRefusal_map {α : Type} {f : α → Reply} (hf : ∀ a, isRefusal (.ok (f a)) = false)
    (result : Except RelayNodeError α) :
    isRefusal (result.map f) = false ↔ ∃ a, result = .ok a := by
  cases result with
  | error e => simp [Except.map, isRefusal]
  | ok a => simpa [Except.map] using hf a

theorem isRefusal_authenticateCredential (s : RegistryFile) (token : String) (strictDeny : Bool) :
    isRefusal (run c (.load s) now (.authenticateCredential token strictDeny)).result = false ↔
      strictDeny = false ∧ ∃ resolved, resolveCredentialForAuth c s token now = .ok resolved := by
  simp only [run, HubNodeRegistry.respond, Outcome.map]
  rw [isRefusal_map fun _ => rfl]
  exact exists_ok_authenticateCredentialDetailed s token strictDeny

theorem isRefusal_authenticateNodeLink (s : RegistryFile) (token : String)
    (context : NodeLinkProofContext) :
    isRefusal (run c (.load s) now (.authenticateNodeLink token context)).result = false ↔
      context.strictDeny = false ∧ ∃ resolved,
        resolveCredentialForAuth c s token now = .ok resolved ∧
        (resolved.keyBound = false ∨
          ∃ verified, Nodes.provenCredential c resolved context now = .ok verified) := by
  simp only [run]
  rw [isRefusal_map fun _ => rfl]
  exact exists_ok_authenticateNodeLinkWithProof s token context

/-- **Like registries.** What one refuses, the other refuses. -/
theorem SameRegistry.isRefusal (h : SameRegistry s s') {call : RegistryCall}
    (hcall : call.presents = true)
    (hrefused : Nodes.isRefusal (run c (.load s') now call).result = true) :
    Nodes.isRefusal (run c (.load s) now call).result = true := by
  by_contra haccepted
  rw [not_eq_true] at haccepted
  rw [← not_eq_false] at hrefused
  apply hrefused
  cases call with
  | exchangePairToken input draw =>
    rw [← haccepted]
    refine congrArg Nodes.isRefusal ?_
    exact congrArg (Except.map _) (result_exchangePairToken h.pairTokens input draw)
  | approvePendingPairingRequest requestId edit =>
    rw [← haccepted]
    refine congrArg Nodes.isRefusal ?_
    exact congrArg (Except.map _)
      (result_approvePendingPairingRequest h.pendingPairings requestId edit)
  | pollPendingPairingRequest requestId statusToken draw =>
    rw [← haccepted]
    refine congrArg Nodes.isRefusal ?_
    exact congrArg (Except.map _)
      (result_pollPendingPairingRequest h.pendingPairings requestId statusToken draw)
  | authenticateCredential token strictDeny =>
    obtain ⟨hallowed, resolved, hresolved⟩ :=
      (isRefusal_authenticateCredential s token strictDeny).mp haccepted
    obtain ⟨node, -, hresolved'⟩ := h.resolve hresolved
    exact (isRefusal_authenticateCredential s' token strictDeny).mpr ⟨hallowed, _, hresolved'⟩
  | authenticateNodeLink token context =>
    obtain ⟨hallowed, resolved, hresolved, hproof⟩ :=
      (isRefusal_authenticateNodeLink s token context).mp haccepted
    obtain ⟨node, hsame, hresolved'⟩ := h.resolve hresolved
    refine (isRefusal_authenticateNodeLink s' token context).mpr
      ⟨hallowed, _, hresolved', hproof.imp_right ?_⟩
    rintro ⟨verified, hverified⟩
    exact ⟨verified, (hsame.provenCredential rfl context).trans hverified⟩
  | _ => cases hcall

end Same

/-! ## The crash -/

/-- The registry loaded from the file refuses what the lost one refused, its replay guard for
    proofs aside. -/
def Survives (c : Crypto) (w : World) : Prop :=
  ∀ now, (∀ entry ∈ w.log, entry.now ≤ now) → ∀ call : RegistryCall, call.presents = true →
    isRefusal (run c (.load w.registry.state) now call).result = true →
      isRefusal (run c (.load w.registry.file) now call).result = true

/-- A heartbeat that names the credential of the rotation its node can prove. -/
def ProvesRotation (w : World) (op : Timed) : Prop :=
  ∃ nodeId version credentialId node rotation, Beat w op nodeId version credentialId node ∧
    provableRotation node = some rotation ∧ truthy credentialId = some rotation.nextCredentialId

/-- None of the calls writes the file. -/
def Quiet (c : Crypto) (w : World) (ops : List Timed) : Prop :=
  Guarded (step c) (fun w op => (entryOf c w op).save ≠ .written) w ops

/-- A rotation was proved, and the file was not written since. -/
def Overtaken (c : Crypto) (ops : List Timed) : Prop :=
  ∃ pre op post, ops = pre ++ op :: post ∧ ProvesRotation (exec (step c) World.start pre) op ∧
    Quiet c (exec (step c) World.start (pre ++ [op])) post

section Crash

variable {c : Crypto} {w : World} {op : Timed} {ops : List Timed}

theorem sameAccess_beaten {now : ℤ} (h : ∀ rotation, provableRotation node = some rotation →
      truthy credentialId ≠ some rotation.nextCredentialId) :
    SameAccess node (beaten node version credentialId now) := by
  have hsame : provenNode node credentialId now = node := by
    unfold provenNode
    split
    · rfl
    · rename_i presented hpresented
      unfold proveCredentialRotation
      split
      · rfl
      · rename_i rotation hprovable
        rw [if_neg]
        rintro rfl
        exact h rotation hprovable hpresented
  rw [beaten, hsame]
  exact ⟨rfl, rfl, rfl, rfl, rfl⟩

theorem forall₂_modifyFirst {nodes : List StoredNodeRecord} {after : StoredNodeRecord}
    (hfind : (nodes.find? fun n => decide (n.nodeId = nodeId)) = some node)
    (h : SameAccess node after) :
    List.Forall₂ SameAccess nodes
      (modifyFirst (fun n => decide (n.nodeId = nodeId)) (fun _ => after) nodes) := by
  induction nodes with
  | nil => exact .nil
  | cons other nodes ih =>
    rw [find?_cons] at hfind
    rw [modifyFirst]
    cases hother : decide (other.nodeId = nodeId) with
    | true =>
      rw [hother] at hfind
      cases hfind
      exact .cons h (List.forall₂_same.mpr fun node _ => SameAccess.refl node)
    | false =>
      rw [hother] at hfind
      exact .cons (SameAccess.refl other) (ih hfind)

theorem file_of_written (hsave : (entryOf c w op).save = .written) :
    (step c w op).registry.file = (step c w op).registry.state := by
  have hsaved := saved_step c w op
  rw [hsave] at hsaved
  generalize (step c w op).registry = r at hsaved ⊢
  cases hsaved with
  | written _ hfile => exact hfile
  | unchanged _ _ hsave _ _ => exact absurd rfl hsave

/-- A call that does not write leaves the file, and what is not a heartbeat the state. -/
theorem quiet_cases (hquiet : (entryOf c w op).save ≠ .written) :
    (step c w op).registry.file = w.registry.file ∧
      ((step c w op).registry.state = w.registry.state ∨
        ∃ nodeId version credentialId node, Beat w op nodeId version credentialId node ∧
          (step c w op).registry.state =
            { w.registry.state with
              nodes := modifyFirst (fun n => decide (n.nodeId = nodeId))
                (fun _ => beaten node version credentialId op.now) w.registry.state.nodes }) := by
  have hsaved := saved_step c w op
  generalize (step c w op).registry = r at hsaved ⊢
  generalize (entryOf c w op).save = save at hsaved hquiet
  cases hsaved with
  | written _ hfile => exact absurd rfl hquiet
  | unchanged _ _ hsave hfile hstate => exact ⟨hfile, .inl hstate⟩
  | beat _ nodeId version credentialId node hbeat hfile hstate =>
    exact ⟨hfile, .inr ⟨nodeId, version, credentialId, node, hbeat, hstate⟩⟩

/-- **A quiet call.** What it leaves refuses alike, unless a rotation is proved. -/
theorem sameRegistry_step (hquiet : (entryOf c w op).save ≠ .written)
    (hproves : ¬ProvesRotation w op) :
    SameRegistry w.registry.state (step c w op).registry.state := by
  obtain ⟨-, hstate | ⟨nodeId, version, credentialId, node, hbeat, hstate⟩⟩ := quiet_cases hquiet
  · rw [hstate]
    exact SameRegistry.refl _
  · rw [hstate]
    refine ⟨rfl, rfl, forall₂_modifyFirst hbeat.found (sameAccess_beaten ?_)⟩
    intro rotation hprovable hpresented
    exact hproves ⟨nodeId, version, credentialId, node, rotation, hbeat, hprovable, hpresented⟩

theorem sameRegistry_exec (hquiet : Quiet c w ops)
    (hproves : ∀ pre op post, ops = pre ++ op :: post → ¬ProvesRotation (exec (step c) w pre) op) :
    SameRegistry w.registry.state (exec (step c) w ops).registry.state := by
  induction ops generalizing w with
  | nil => exact SameRegistry.refl _
  | cons op ops ih =>
    refine (sameRegistry_step hquiet.1 (hproves [] op ops rfl)).trans (ih hquiet.2 ?_)
    intro pre other post heq
    exact hproves (op :: pre) other post (congrArg (op :: ·) heq)

/-- Calls that save nothing leave the file as it is. -/
theorem file_exec (hquiet : Quiet c w ops) :
    (exec (step c) w ops).registry.file = w.registry.file := by
  induction ops generalizing w with
  | nil => rfl
  | cons op ops ih => exact (ih hquiet.2).trans (quiet_cases hquiet.1).1

/-- The file holds the registry as it stood after some prefix of the run. -/
theorem file_of_run (c : Crypto) (ops : List Timed) : ∃ pre post, ops = pre ++ post ∧
    (exec (step c) World.start ops).registry.file =
      (exec (step c) World.start pre).registry.state ∧
    Quiet c (exec (step c) World.start pre) post := by
  induction ops using List.reverseRecOn with
  | nil => exact ⟨[], [], rfl, rfl, trivial⟩
  | append_singleton ops op ih =>
    by_cases hsave : (entryOf c (exec (step c) World.start ops) op).save = .written
    · refine ⟨ops ++ [op], [], (append_nil _).symm, ?_, trivial⟩
      rw [exec_append]
      exact file_of_written hsave
    · obtain ⟨pre, post, rfl, hfile, hquiet⟩ := ih
      refine ⟨pre, post ++ [op], append_assoc _ _ _, ?_, ?_⟩
      · rw [exec_append]
        exact (quiet_cases hsave).1.trans hfile
      · rw [exec_append] at hsave
        exact (guarded_append _ _ _ _ _).mpr ⟨hquiet, hsave, trivial⟩

end Crash

/-! ## Tokens that come back -/

section Back

variable {c : Crypto} {w : World} {op : Timed} {ops : List Timed}

theorem isSpace_of_isBase64Url {ch : Char} (h : isBase64Url ch = true) :
    Text.isSpace ch = false := by
  have hspaces : ∀ n ∈ [9, 10, 11, 12, 13, 32, 160, 5760, 8192, 8193, 8194, 8195, 8196, 8197, 8198,
      8199, 8200, 8201, 8202, 8232, 8233, 8239, 8287, 12288, 65279],
      isBase64Url (Char.ofNat n) = false := by decide
  rw [eq_false_iff]
  intro hspace
  have hfalse := hspaces ch.toNat (of_decide_eq_true hspace)
  rw [Char.ofNat_toNat, h] at hfalse
  cases hfalse

section
variable (text : RandomText) (draw : CredentialDraw)

theorem trim_credentialToken :
    Text.trim (credentialToken (randomToken "node" text) draw) =
      credentialToken (randomToken "node" text) draw := by
  apply Text.trim_eq_self
  have htext : ∀ text : RandomText, ∀ ch ∈ text.val.toList, Text.isSpace ch = false :=
    fun text ch h => isSpace_of_isBase64Url (text.property.2 ch h)
  have hfixed : ∀ part ∈ ["node", "_", ".", "secret"], ∀ ch ∈ part.toList,
      Text.isSpace ch = false := by simp [Text.isSpace]
  intro ch hch
  simp only [credentialToken, randomToken, String.toList_append, mem_append] at hch
  obtain (((hch | hch) | hch) | hch) | (hch | hch) | hch := hch
  · exact hfixed "node" (by decide) ch hch
  · exact hfixed "_" (by decide) ch hch
  · exact htext text ch hch
  · exact hfixed "." (by decide) ch hch
  · exact hfixed "secret" (by decide) ch hch
  · exact hfixed "_" (by decide) ch hch
  · exact htext draw.secret ch hch

theorem parseCredentialToken_credentialToken :
    parseCredentialToken (credentialToken (randomToken "node" text) draw) =
      .ok (randomToken "node" text) := by
  have hnonempty : ∀ kind text, kind ≠ "" → randomToken kind text ≠ "" := by
    simp [randomToken]
  have hprefix : Text.hasPrefix "node_" (randomToken "node" text) = true :=
    Text.hasPrefix_append "node_" text.val
  have htoken : credentialToken (randomToken "node" text) draw ≠ "" := by
    simp [credentialToken]
  unfold parseCredentialToken
  rw [if_neg htoken, fields_credentialToken draw (dot_not_mem_randomToken text).1]
  simp [hnonempty, hprefix]

end

theorem resolve_current {s : RegistryFile} {log : List CallRecord} (h : RingInv c s.nodes log)
    (hnode : node ∈ s.nodes) (hheld : Held c log node ring) (hpaired : ring.revoked = false)
    (now : ℤ) : Text.trim ring.current.token = ring.current.token ∧
      ∃ resolved, resolveCredentialForAuth c s ring.current.token now = .ok resolved := by
  obtain ⟨-, -, text, -, hname⟩ := h.named node hnode
  obtain ⟨-, -, draw, hissued, -, -⟩ := hheld.drawn.drawn _ hheld.drawn.sound.current
  have htoken : ring.current.token = credentialToken (randomToken "node" text) draw := by
    rw [hissued.token, hname]
  have htrim : Text.trim ring.current.token = ring.current.token := by
    rw [htoken]
    exact trim_credentialToken text draw
  have hparse : parseCredentialToken ring.current.token = .ok node.nodeId := by
    rw [htoken, hname]
    exact parseCredentialToken_credentialToken text draw
  have hrevoked : node.revokedAt.isSome = false := hheld.keeps.revoked.trans hpaired
  have hexpired : isExpired node now = false := by
    rw [isExpired, hheld.keeps.unexpiring]
    rfl
  refine ⟨htrim, ?_⟩
  unfold resolveCredentialForAuth
  rw [htrim, hparse]
  simp only [findNode, find?_of_mem h.ids hnode]
  simp [resolveOnNode, hheld.keeps.activeHash, hexpired, hrevoked]

theorem names_step (hquiet : (entryOf c w op).save ≠ .written) :
    (step c w op).registry.state.nodes.map (·.nodeId) =
      w.registry.state.nodes.map (·.nodeId) := by
  obtain ⟨-, hstate | ⟨nodeId, version, credentialId, node, hbeat, hstate⟩⟩ := quiet_cases hquiet
  · rw [hstate]
  · rw [hstate, map_modifyFirst]
    intro other hother
    rw [of_decide_eq_true hother, ← (findNode_eq_some hbeat.found).2]
    exact nodeId_provenNode node op.now credentialId

theorem names_exec (hquiet : Quiet c w ops) :
    (exec (step c) w ops).registry.state.nodes.map (·.nodeId) =
      w.registry.state.nodes.map (·.nodeId) := by
  induction ops generalizing w with
  | nil => rfl
  | cons op ops ih => exact (ih hquiet.2).trans (names_step hquiet.1)

theorem entryOf_beat (c : Crypto) (hbeat : Beat w op nodeId version credentialId node) :
    (entryOf c w op).save = .debounced ∧ (entryOf c w op).result =
      .ok (.beat (publicNode (beaten node version credentialId op.now))
        (provedRotation node credentialId)) := by
  obtain ⟨call, now⟩ := op
  obtain rfl : call = .onNode nodeId (.recordHeartbeat version credentialId) := hbeat.call
  simp [entryOf, run, onNode, NodeCall.refusal, hbeat.compatible, hbeat.found, runOnNode,
    recordHeartbeat, hbeat.paired, beaten, HubNodeRegistry.respond, Outcome.map, Except.map]

theorem ringOf_beat
    (hbeat : Beat w op nodeId version credentialId node) (hring : ringOf nodeId w.log = some ring)
    (hpending : ring.pending = some next) (hid : truthy credentialId = some next.credentialId) :
    ringOf nodeId (step c w op).log = some (ring.move .prove) := by
  obtain ⟨-, hresult⟩ := entryOf_beat c hbeat
  have hcall : (entryOf c w op).call = .onNode nodeId (.recordHeartbeat version credentialId) :=
    hbeat.call
  have hcreated : (entryOf c w op).created = none := by
    rw [CallRecord.created, hcall]
  rw [log_step, ringOf_append, ringStep, hcreated, hcall, hresult, hring]
  simp [NodeCall.moved, NodeCall.move, hpending, hid]

theorem exists_now (log : List CallRecord) : ∃ now, ∀ entry ∈ log, entry.now ≤ now := by
  induction log with
  | nil => exact ⟨0, fun _ h => absurd h not_mem_nil⟩
  | cons entry log ih =>
    obtain ⟨now, hnow⟩ := ih
    refine ⟨max entry.now now, fun other hother => ?_⟩
    obtain rfl | hother := mem_cons.mp hother
    · exact le_max_left _ _
    · exact (hnow other hother).trans (le_max_right _ _)

end Back

/-! ## Every crash -/

section Every

variable {c : Crypto} {ops : List Timed}

/-- Where nothing proved went unwritten, a reload refuses as the lost registry did. -/
theorem survives_of_not_overtaken (h : ¬Overtaken c ops) :
    Survives c (exec (step c) World.start ops) := by
  obtain ⟨pre, post, rfl, hfile, hquiet⟩ := file_of_run c ops
  intro now _ call hcall hrefused
  rw [hfile]
  refine SameRegistry.isRefusal ?_ hcall hrefused
  rw [exec_append]
  refine sameRegistry_exec hquiet ?_
  rintro first op rest rfl hproves
  refine h ⟨pre ++ first, op, rest, (append_assoc _ _ _).symm, ?_, ?_⟩
  · rwa [exec_append]
  · obtain ⟨-, hlater⟩ := (guarded_append _ _ _ _ _).mp hquiet
    rw [exec_append, exec_append]
    exact hlater.2

theorem not_live_of_proved {written before : CredentialRing}
    (hwritten : written.Sound) (hsteps : RingStep written before)
    (hpending : before.pending = some next) : ¬(before.move .prove).Live written.current := by
  intro hlive
  have hnext := KeyRing.eq_of_live_prove hpending hlive
  -- it did not wait when the file was written, and so not later
  exact hsteps.waiting _ hwritten.current hwritten.apart (hnext ▸ hpending)

theorem not_survives_of_overtaken (hinj : Function.Injective c.sha256)
    (hops : Guarded (step c) Admissible World.start ops) (h : Overtaken c ops) :
    ¬Survives c (exec (step c) World.start ops) := by
  obtain ⟨pre, op, post, rfl, ⟨nodeId, version, credentialId, node, rotation, hbeat, hprovable,
    hpresented⟩, hquiet⟩ := h
  obtain ⟨first, rest, rfl, hfile, hrest⟩ := file_of_run c pre
  -- the run up to the write, to the proof, past it, and to the crash
  obtain ⟨hbefore, hop, hpost⟩ := (guarded_append _ _ _ _ _).mp hops
  obtain ⟨hfirst, hmiddle⟩ := (guarded_append _ _ _ _ _).mp hbefore
  have hinv₀ := ringInv_of_run hfirst
  have hinv₁ := ringInv_of_run hbefore
  have hinv₂ := ringInv_step hinv₁ hop
  have hinv₃ := ringInv_of_run hops
  have hnames := names_exec hrest
  rw [exec_append] at hquiet
  rw [exec_append, exec_cons] at hinv₃ ⊢
  rw [exec_append] at hinv₁ hinv₂ hinv₃ hbeat hop hpost hquiet hfile ⊢
  set w₀ := exec (step c) World.start first
  set w₁ := exec (step c) w₀ rest
  set w₂ := step c w₁ op
  -- the ring before the proof
  obtain ⟨hnode, hname⟩ := findNode_eq_some hbeat.found
  obtain ⟨ring₁, hheld₁⟩ := hinv₁.held node hnode
  obtain ⟨-, hnone⟩ | ⟨other, next, hpending, hother, hid, -, -⟩ :=
    provableRotation_of_waits hheld₁.keeps.rotation
  · rw [hnone] at hprovable
    cases hprovable
  obtain rfl : other = rotation := Option.some.inj (hother.symm.trans hprovable)
  have htold₁ : ringOf nodeId w₁.log = some ring₁ := hname ▸ hheld₁.told
  -- the ring when the file was written
  have hknown : nodeId ∈ w₀.registry.state.nodes.map (·.nodeId) := by
    rw [← hnames]
    exact mem_map.mpr ⟨node, hnode, hname⟩
  obtain ⟨node₀, hnode₀, hname₀⟩ := mem_map.mp hknown
  obtain ⟨ring₀, hheld₀⟩ := hinv₀.held node₀ hnode₀
  have htold₀ : ringOf nodeId w₀.log = some ring₀ := hname₀ ▸ hheld₀.told
  obtain ⟨ring, hring, hsteps⟩ := ringStep_exec hinv₀ hmiddle htold₀
  obtain rfl : ring = ring₁ := Option.some.inj (hring.symm.trans htold₁)
  -- the proof ends its credential, for good
  have htold₂ : ringOf nodeId w₂.log = some (ring.move .prove) :=
    ringOf_beat hbeat htold₁ hpending (hpresented.trans (congrArg some hid))
  obtain ⟨ring₃, htold₃, hlast⟩ := ringStep_exec hinv₂ hpost htold₂
  obtain ⟨moved, hmoved, hproof⟩ := ringStep_step hinv₁ hop htold₁
  obtain rfl : moved = ring.move .prove := Option.some.inj (hmoved.symm.trans htold₂)
  have hissued : ring₀.current ∈ (ring.move .prove).issued :=
    hproof.issued _ (hsteps.issued _ hheld₀.drawn.sound.current)
  have hdead : ¬ring₃.Live ring₀.current := hlast.ended _ hissued
    (not_live_of_proved hheld₀.drawn.sound hsteps hpending)
  -- the file knows it as the one in force
  have hpaired : ring₀.revoked = false := by
    cases hrevoked : ring₀.revoked with
    | false => rfl
    | true =>
      have hlater := hheld₁.keeps.revoked.trans (hsteps.revoked hrevoked)
      rw [hbeat.paired] at hlater
      cases hlater
  obtain ⟨now, hnow⟩ := exists_now (exec (step c) w₂ post).log
  obtain ⟨htrim, resolved, hresolved⟩ := resolve_current hinv₀ hnode₀ hheld₀ hpaired now
  have hbeaten : (entryOf c w₁ op).save ≠ .written := by
    rw [(entryOf_beat c hbeat).1]
    intro h
    cases h
  have hstate : (exec (step c) w₂ post).registry.file = w₀.registry.state :=
    (file_exec hquiet).trans ((quiet_cases hbeaten).1.trans hfile)
  intro hsurvives
  have hrefused := hsurvives now hnow (.authenticateCredential ring₀.current.token false) rfl ?_
  · rw [hstate, (isRefusal_authenticateCredential w₀.registry.state _ false).mpr
      ⟨rfl, resolved, hresolved⟩] at hrefused
    cases hrefused
  · rw [← not_eq_false]
    intro haccepted
    obtain ⟨-, resolved', hresolved'⟩ := (isRefusal_authenticateCredential _ _ false).mp haccepted
    exact not_resolved_of_not_live hinj hinv₃ htold₃ (hlast.issued _ hissued) hdead htrim now
      resolved' hresolved'

end Every

/-- **Crashes.** A registry that is lost after an admissible run comes back refusing what it
    refused exactly when no rotation was proved since the file was written. -/
theorem survives_iff_not_overtaken {c : Crypto} (hinj : Function.Injective c.sha256)
    {ops : List Timed} (hops : Guarded (step c) Admissible World.start ops) :
    Survives c (exec (step c) World.start ops) ↔ ¬Overtaken c ops :=
  ⟨fun hsurvives h => not_survives_of_overtaken hinj hops h hsurvives, survives_of_not_overtaken⟩

/-- A rotation is proved, and the write that the heartbeat scheduled is made. -/
def flushedRun : List Timed := rotateRun ++ [⟨.flushPendingHeartbeatPersist, 4⟩]

/-- What was proved and then written survives. -/
theorem flushedRun_survives :
    Survives keylessCrypto (exec (step keylessCrypto) World.start flushedRun) := by
  have hops : Guarded (step keylessCrypto) Admissible World.start flushedRun := by decide
  refine (survives_iff_not_overtaken digestOf_injective hops).mpr ?_
  rintro ⟨pre, op, post, hsplit, ⟨nodeId, version, credentialId, node, rotation, hbeat, -⟩, hquiet⟩
  have hcall := hbeat.call
  -- the heartbeat is the fourth call, and the fifth one writes
  obtain _ | ⟨_, _ | ⟨_, _ | ⟨_, _ | ⟨_, _ | ⟨_, _⟩⟩⟩⟩⟩ := pre
  · cases hsplit
    cases hcall
  · cases hsplit
    cases hcall
  · cases hsplit
    cases hcall
  · cases hsplit
    exact hquiet.1 (by decide)
  · cases hsplit
    cases hcall
  · simp [flushedRun, rotateRun, pairRun] at hsplit

/-- A hub that is lost after a heartbeat proved a rotation accepts the old token again. -/
theorem superseded_token_returns :
    Guarded (step keylessCrypto) Admissible World.start rotateRun ∧
      isRefusal (run keylessCrypto
        (.load (exec (step keylessCrypto) World.start rotateRun).registry.state) 4
        (.authenticateCredential "node_C.secret_E" false)).result = true ∧
      isRefusal (run keylessCrypto
        (.load (exec (step keylessCrypto) World.start rotateRun).registry.file) 4
        (.authenticateCredential "node_C.secret_E" false)).result = false := by
  refine ⟨?_, ?_, ?_⟩ <;> decide

end RelayIde.Nodes
