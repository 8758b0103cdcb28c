import RelayIde.Library.KeyRing
import RelayIde.Nodes.NodeCalls

/-!
# Credential Rotation

The credentials of a node are a key ring that the log tells: a credential is issued with the node,
others by rotations, a heartbeat that names the waiting one proves it.  The hub keeps the ring in
several places of a record, and a node link is accepted only for a live key of it.

- `rotation_of_run` — whole runs
-/

namespace RelayIde.Nodes

open RelayIde.Library RelayIde.Security List Function

/-! ## The ring of a node -/

abbrev CredentialRing := KeyRing RelayNodeCredential

def NodeCall.move (ring : CredentialRing) (call : NodeCall) (reply : Reply) :
    Option (KeyRing.Move RelayNodeCredential) :=
  match call, reply with
  | .beginCredentialRotation _ _, .rotating credential _ => some (.begin credential)
  | .clearCredentialRotationFailure, _ => some .clear
  | .revokeNode, _ => some .revoke
  | .recordHeartbeat _ credentialId, _ =>
    -- only the id of the waiting credential proves it
    if ring.pending.any fun next => truthy credentialId = some next.credentialId then some .prove
    else none
  | _, _ => none

def NodeCall.moved (ring : CredentialRing) (call : NodeCall) :
    Except RelayNodeError Reply → CredentialRing
  | .ok reply => (call.move ring reply).elim ring ring.move
  | .error _ => ring

def ringStep (nodeId : String) (ring : Option CredentialRing) (entry : CallRecord) :
    Option CredentialRing :=
  match entry.created with
  | some credential => if credential.nodeId = nodeId then some (.of credential) else ring
  | none =>
    match entry.call with
    | .onNode target call =>
      if target = nodeId then ring.map fun ring => call.moved ring entry.result else ring
    | _ => ring

def ringOf (nodeId : String) (log : List CallRecord) : Option CredentialRing :=
  log.foldl (ringStep nodeId) none

theorem ringOf_append (nodeId : String) (log : List CallRecord) (entry : CallRecord) :
    ringOf nodeId (log ++ [entry]) = ringStep nodeId (ringOf nodeId log) entry := by
  rw [ringOf, foldl_append]
  rfl

/-! ## A record and its ring -/

inductive Waits (c : Crypto) : Option StoredCredentialRotation → Option RelayNodeCredential → Prop
  | none : Waits c none none
  | done (rotation : StoredCredentialRotation) (hstable : rotation.state = .stable)
      (hkey : rotation.nextKey = Option.none) : Waits c (some rotation) Option.none
  | waiting (rotation : StoredCredentialRotation) (next : RelayNodeCredential)
      (hstate : rotation.state ≠ .stable) (hid : rotation.nextCredentialId = next.credentialId)
      (hhash : rotation.nextCredentialHash = some (c.sha256 next.token))
      (hkey : rotation.nextKey.map (·.publicKeyFingerprint) = next.publicKeyFingerprint) :
      Waits c (some rotation) (some next)

/-- A record holds a ring: every place that names a credential names the one in force. -/
structure Keeps (c : Crypto) (node : StoredNodeRecord) (ring : CredentialRing) : Prop where
  credentialId : node.credentialId = ring.current.credentialId
  credentialHash : node.credentialHash = c.sha256 ring.current.token
  activeId : node.activeCredential.credentialId = ring.current.credentialId
  activeHash : node.activeCredential.tokenHash = c.sha256 ring.current.token
  activeKey :
    node.activeCredential.key.map (·.publicKeyFingerprint) = ring.current.publicKeyFingerprint
  peer : node.acl.peer.credentialId = some ring.current.credentialId
  unexpiring : node.activeCredential.expiresAt = none
  revoked : node.revokedAt.isSome = ring.revoked
  rotation : Waits c node.credentialRotation ring.pending

variable {rotation : StoredCredentialRotation} {credential : RelayNodeCredential}
  {draw : CredentialDraw} {acl : RelayNodeAcl} {verified : VerifiedProof}
  {resolved : ResolvedCredential} {context : NodeLinkProofContext} {token : String}
  {ops : List Timed} {s : RegistryFile} {accepted : Authenticated}

section Record

variable {c : Crypto} {node : StoredNodeRecord} {ring : CredentialRing} {now : ℤ}

theorem provableRotation_of_waits (h : Waits c node.credentialRotation ring.pending) :
    (ring.pending = none ∧ provableRotation node = none) ∨
    ∃ rotation next, ring.pending = some next ∧ provableRotation node = some rotation ∧
      rotation.nextCredentialId = next.credentialId ∧
      rotation.nextCredentialHash = some (c.sha256 next.token) ∧
      rotation.nextKey.map (·.publicKeyFingerprint) = next.publicKeyFingerprint := by
  unfold provableRotation
  generalize node.credentialRotation = stored at h ⊢
  generalize ring.pending = waiting at h ⊢
  cases h with
  | none => exact .inl ⟨rfl, rfl⟩
  | done rotation hstable hkey =>
    left
    simp [hstable]
  | waiting rotation next hstate hid hhash hkey =>
    right
    refine ⟨rotation, next, rfl, ?_, hid, hhash, hkey⟩
    simp [hstate, hhash]

theorem Keeps.switch (h : Keeps c node ring)
    {next : RelayNodeCredential} (hpending : ring.pending = some next)
    (hid : rotation.nextCredentialId = next.credentialId)
    (hkey : rotation.nextKey.map (·.publicKeyFingerprint) = next.publicKeyFingerprint) :
    Keeps c (switchCredential node rotation (c.sha256 next.token) now) (ring.move .prove) := by
  change Keeps c _ ring.promote
  rw [KeyRing.promote_of_some hpending]
  exact
    { credentialId := hid
      credentialHash := rfl
      activeId := hid
      activeHash := rfl
      activeKey := hkey
      peer := congrArg some hid
      unexpiring := rfl
      revoked := h.revoked
      rotation := .done _ rfl rfl }

theorem Keeps.provenNode (h : Keeps c node ring) (now : ℤ) (credentialId : Option String) :
    Keeps c (provenNode node credentialId now)
      (if ring.pending.any fun next => truthy credentialId = some next.credentialId
        then ring.move .prove else ring) := by
  unfold Nodes.provenNode
  cases hid : truthy credentialId with
  | none => simpa using h
  | some presented =>
    simp only [proveCredentialRotation]
    obtain ⟨hpending, hprovable⟩ | ⟨rotation, next, hpending, hprovable, hnext, hhash, hkey⟩ :=
      provableRotation_of_waits h.rotation
    · simpa [hpending, hprovable] using h
    · rw [hprovable, hpending]
      by_cases heq : rotation.nextCredentialId = presented
      · have hsame : presented = next.credentialId := heq ▸ hnext
        simpa [heq, hhash, hsame] using h.switch hpending hnext hkey
      · have hother : presented ≠ next.credentialId := fun hsame => heq (hnext.trans hsame.symm)
        simpa [heq, hother] using h

theorem fingerprint_nextRotation (now : ℤ) (publicKey : Option String) (draw : RotationDraw)
    (hactive : node.activeCredential.key.isSome = true) :
    (nextRotation c node publicKey now draw).nextKey.isSome = true := by
  simp only [nextRotation]
  cases boundKey c publicKey with
  | none => exact hactive
  | some key => rfl

theorem Keeps.rotated (h : Keeps c node ring) {stored : Option StoredCredentialRotation}
    (hwaits : Waits c stored ring.pending) :
    Keeps c { node with credentialRotation := stored } ring :=
  { h with rotation := hwaits }

theorem Waits.restated {rotation' : StoredCredentialRotation}
    {pending : Option RelayNodeCredential} (h : Waits c (some rotation) pending)
    (hstate : rotation.state ≠ .stable) (hstate' : rotation'.state ≠ .stable)
    (hid : rotation'.nextCredentialId = rotation.nextCredentialId)
    (hhash : rotation'.nextCredentialHash = rotation.nextCredentialHash)
    (hkey : rotation'.nextKey = rotation.nextKey) : Waits c (some rotation') pending := by
  cases h with
  | done _ hstable _ => exact absurd hstable hstate
  | waiting _ next _ hnext hnextHash hnextKey =>
    exact .waiting rotation' next hstate' (hid.trans hnext) (hhash.trans hnextHash)
      (hkey ▸ hnextKey)

theorem requireRotation_eq_ok {rotationId : String}
    (h : requireRotation node rotationId = .ok rotation) :
    node.credentialRotation = some rotation := by
  unfold requireRotation at h
  split at h
  · split at h
    · cases h
      assumption
    · cases h
  · cases h

/-- **A call on a node.** The record keeps the ring that the answer tells. -/
theorem Keeps.runOnNode (h : Keeps c node ring) (call : NodeCall) :
    Keeps c (runOnNode c node now call).state
      (call.moved ring (runOnNode c node now call).result) := by
  cases call with
  | beginCredentialRotation publicKey draw =>
    simp only [Nodes.runOnNode, beginCredentialRotation]
    split
    · exact h
    · split
      · exact h
      · exact { h with rotation := .waiting _ _ (fun hstable => by cases hstable) rfl rfl rfl }
  | markCredentialRotationDelivered rotationId =>
    simp only [Nodes.runOnNode, markCredentialRotationDelivered]
    split
    · exact h
    · rename_i rotation hrequired
      have hstored := requireRotation_eq_ok hrequired
      split
      · rename_i hissuing
        refine h.rotated ((hstored ▸ h.rotation).restated ?_ ?_ rfl rfl rfl)
        · rw [hissuing]
          exact fun hstable => by cases hstable
        · exact fun hstable => by cases hstable
      · exact h
  | failCredentialRotation rotationId reason =>
    simp only [Nodes.runOnNode, failCredentialRotation]
    split
    · exact h
    · rename_i rotation hrequired
      have hstored := requireRotation_eq_ok hrequired
      split
      · exact h
      · rename_i hstate
        refine h.rotated ((hstored ▸ h.rotation).restated hstate ?_ rfl rfl rfl)
        exact fun hstable => by cases hstable
  | clearCredentialRotationFailure =>
    simp only [Nodes.runOnNode, clearCredentialRotationFailure]
    split
    · exact h
    · split
      · exact h
      · exact { h with rotation := .none }
  | recordHeartbeat protocolVersion credentialId =>
    simp only [Nodes.runOnNode, recordHeartbeat]
    split
    · exact h
    · have hproven := h.provenNode now credentialId
      have hring : NodeCall.moved ring (.recordHeartbeat protocolVersion credentialId)
          (.ok (.beat (publicNode { Nodes.provenNode node credentialId now with
            lastSeenAt := now, linkDisconnectedAt := none, protocolVersion })
            (provedRotation node credentialId))) =
          if ring.pending.any fun next => truthy credentialId = some next.credentialId
            then ring.move .prove else ring := by
        simp only [NodeCall.moved, NodeCall.move]
        split <;> rfl
      exact hring ▸ { hproven with }
  | markNodeLinkDisconnected =>
    simp only [Nodes.runOnNode, Nodes.markNodeLinkDisconnected]
    split
    · exact h
    · exact { h with }
  | revokeNode =>
    simp only [Nodes.runOnNode, Nodes.revokeNode]
    split
    · rename_i hrevoked
      exact { h with revoked := hrevoked }
    · exact { h with revoked := rfl }
  | markNodeUpdating =>
    simp only [Nodes.runOnNode, Nodes.markNodeUpdating]
    split
    · exact h
    · split
      · exact h
      · exact { h with }
  | markNodeUpdateComplete =>
    simp only [Nodes.runOnNode, Nodes.markNodeUpdateComplete]
    split
    · exact h
    · split
      · exact { h with }
      · exact h

end Record

/-! ## What is issued -/

def Bound (credential : RelayNodeCredential) : Prop := credential.publicKeyFingerprint.isSome = true

structure IssuedFor (nodeId : String) (draw : CredentialDraw) (credential : RelayNodeCredential) :
    Prop where
  owner : credential.nodeId = nodeId
  credentialId : credential.credentialId = draw.credentialId
  token : credential.token = credentialToken nodeId draw

theorem moved_cases (c : Crypto) (node : StoredNodeRecord) (now : ℤ) (ring : CredentialRing)
    (call : NodeCall) :
    call.moved ring (runOnNode c node now call).result = ring ∨
    ∃ m, call.moved ring (runOnNode c node now call).result = ring.move m ∧
      ∀ credential, m.issues = some credential → ∃ publicKey draw,
        call = .beginCredentialRotation publicKey draw ∧
        IssuedFor node.nodeId draw.credential credential ∧
        (node.activeCredential.key.isSome = true → Bound credential) := by
  cases hresult : (runOnNode c node now call).result with
  | error e => exact .inl rfl
  | ok reply =>
    cases hmove : call.move ring reply with
    | none =>
      left
      simp [NodeCall.moved, hmove]
    | some m =>
      refine .inr ⟨m, by simp [NodeCall.moved, hmove], ?_⟩
      intro credential hissues
      unfold NodeCall.move at hmove
      split at hmove
      · rename_i publicKey draw issued rotationId
        cases hmove
        cases hissues
        -- the answer is that of a rotation that was begun
        simp only [runOnNode, beginCredentialRotation] at hresult
        split at hresult
        · cases hresult
        · split at hresult
          · cases hresult
          · cases hresult
            refine ⟨publicKey, draw, rfl, ⟨rfl, rfl, rfl⟩, fun hactive => ?_⟩
            simpa [Bound] using fingerprint_nextRotation now publicKey draw hactive
      · cases hmove
        cases hissues
      · cases hmove
        cases hissues
      · split at hmove
        · cases hmove
          cases hissues
        · cases hmove
      · cases hmove

def DrawnIn (nodeId : String) (log : List CallRecord) (credential : RelayNodeCredential) : Prop :=
  ∃ entry ∈ log, ∃ draw, IssuedFor nodeId draw credential ∧ draw.id ∈ entry.call.draws ∧
    draw.secret ∈ entry.call.draws

structure RingDrawn (nodeId : String) (log : List CallRecord) (ring : CredentialRing) : Prop where
  sound : ring.Sound
  drawn : ∀ credential ∈ ring.issued, DrawnIn nodeId log credential
  distinct : ring.issued.Pairwise fun a b => a.credentialId ≠ b.credentialId ∧ a.token ≠ b.token
  inherited : KeyRing.Inherited Bound ring

section Drawn

variable {nodeId : String} {log : List CallRecord} {ring : CredentialRing} {entry : CallRecord}

theorem DrawnIn.append (h : DrawnIn nodeId log credential)
    (entry : CallRecord) : DrawnIn nodeId (log ++ [entry]) credential := by
  obtain ⟨other, hother, rest⟩ := h
  exact ⟨other, mem_append_left _ hother, rest⟩

theorem RingDrawn.append (h : RingDrawn nodeId log ring) (entry : CallRecord) :
    RingDrawn nodeId (log ++ [entry]) ring :=
  { h with drawn := fun credential hmem => (h.drawn credential hmem).append entry }

theorem texts_of_issuedFor {a b : CredentialDraw} {x y : RelayNodeCredential}
    (ha : IssuedFor nodeId a x) (hb : IssuedFor nodeId b y) :
    (x.credentialId = y.credentialId → a.id = b.id) ∧
    (x.token = y.token → a.secret = b.secret) := by
  constructor
  · intro h
    rw [ha.credentialId, hb.credentialId] at h
    exact randomToken_inj h
  · intro h
    rw [ha.token, hb.token] at h
    exact randomToken_inj ((String.append_right_inj _).mp h)

theorem ringDrawn_of (draw : CredentialDraw)
    (hissued : IssuedFor nodeId draw credential) (hid : draw.id ∈ entry.call.draws)
    (hsecret : draw.secret ∈ entry.call.draws) :
    RingDrawn nodeId (log ++ [entry]) (.of credential) where
  sound := KeyRing.sound_of credential
  drawn := by
    intro other hother
    obtain rfl := mem_singleton.mp hother
    exact ⟨entry, mem_append_right _ (mem_singleton_self entry), draw, hissued, hid, hsecret⟩
  distinct := pairwise_singleton _ _
  inherited := KeyRing.inherited_of Bound credential

section
variable (h : RingDrawn nodeId log ring)
include h

theorem RingDrawn.apart (hfresh : ∀ other ∈ log, ∀ text ∈ entry.call.draws, text ∉ other.call.draws)
    {old new : RelayNodeCredential} (hold : old ∈ ring.issued)
    (hissued : IssuedFor nodeId draw new) (hid : draw.id ∈ entry.call.draws)
    (hsecret : draw.secret ∈ entry.call.draws) :
    old.credentialId ≠ new.credentialId ∧ old.token ≠ new.token := by
  obtain ⟨other, hother, oldDraw, holdIssued, holdId, holdSecret⟩ := h.drawn old hold
  obtain ⟨hsameId, hsameSecret⟩ := texts_of_issuedFor holdIssued hissued
  refine ⟨fun heq => ?_, fun heq => ?_⟩
  · exact hfresh other hother draw.id hid (hsameId heq ▸ holdId)
  · exact hfresh other hother draw.secret hsecret (hsameSecret heq ▸ holdSecret)

theorem RingDrawn.move (m : KeyRing.Move RelayNodeCredential)
    (hfresh : ∀ other ∈ log, ∀ text ∈ entry.call.draws, text ∉ other.call.draws)
    (hissues : ∀ credential, m.issues = some credential → ∃ draw,
      IssuedFor nodeId draw credential ∧ draw.id ∈ entry.call.draws ∧
      draw.secret ∈ entry.call.draws ∧ (Bound ring.current → Bound credential)) :
    RingDrawn nodeId (log ++ [entry]) (ring.move m) where
  sound := by
    refine h.sound.move m fun credential hnew hmem => ?_
    obtain ⟨draw, hissued, hid, hsecret, -⟩ := hissues credential hnew
    exact (h.apart hfresh hmem hissued hid hsecret).1 rfl
  drawn := by
    intro credential hmem
    rw [KeyRing.issued_move, mem_append, Option.mem_toList] at hmem
    obtain hmem | hnew := hmem
    · exact (h.drawn credential hmem).append entry
    · obtain ⟨draw, hissued, hid, hsecret, -⟩ := hissues credential hnew
      exact ⟨entry, mem_append_right _ (mem_singleton_self entry), draw, hissued, hid,
        hsecret⟩
  distinct := by
    rw [KeyRing.issued_move, pairwise_append]
    refine ⟨h.distinct, ?_, ?_⟩
    · cases m.issues with
      | none => exact List.Pairwise.nil
      | some credential => exact pairwise_singleton _ _
    · intro old hold new hnew
      obtain ⟨draw, hissued, hid, hsecret, -⟩ := hissues new (Option.mem_toList.mp hnew)
      exact h.apart hfresh hold hissued hid hsecret
  inherited := by
    refine h.inherited.move fun credential hnew hcurrent => ?_
    obtain ⟨-, -, -, -, hbound⟩ := hissues credential hnew
    exact hbound hcurrent

theorem RingDrawn.eq {a b : RelayNodeCredential} (ha : a ∈ ring.issued) (hb : b ∈ ring.issued)
    (heq : a.credentialId = b.credentialId ∨ a.token = b.token) : a = b := by
  by_contra hne
  have hsymm : Std.Symm fun a b : RelayNodeCredential =>
      a.credentialId ≠ b.credentialId ∧ a.token ≠ b.token :=
    ⟨fun _ _ h => ⟨h.1.symm, h.2.symm⟩⟩
  obtain ⟨hid, htoken⟩ := h.distinct.forall ha hb hne
  obtain heq | heq := heq
  · exact hid heq
  · exact htoken heq

end

end Drawn

/-! ## Runs -/

structure Held (c : Crypto) (log : List CallRecord) (node : StoredNodeRecord)
    (ring : CredentialRing) : Prop where
  told : ringOf node.nodeId log = some ring
  keeps : Keeps c node ring
  drawn : RingDrawn node.nodeId log ring

structure RingInv (c : Crypto) (nodes : List StoredNodeRecord) (log : List CallRecord) :
    Prop where
  ids : (nodes.map (·.nodeId)).Nodup
  named : ∀ node ∈ nodes, ∃ entry ∈ log, ∃ text ∈ entry.call.draws,
    node.nodeId = randomToken "node" text
  held : ∀ node ∈ nodes, ∃ ring, Held c log node ring
  known : ∀ nodeId ring, ringOf nodeId log = some ring → ∃ node ∈ nodes, node.nodeId = nodeId

theorem ringInv_start (c : Crypto) : RingInv c [] [] where
  ids := nodup_nil
  named := fun _ h => absurd h not_mem_nil
  held := fun _ h => absurd h not_mem_nil
  known := fun _ _ h => by cases h

theorem ringStep_untouched {nodeId : String} {ring : Option CredentialRing} {entry : CallRecord}
    (hcreated : entry.created = none)
    (hcall : ∀ nodeId call, entry.call = .onNode nodeId call → ∃ e, entry.result = .error e) :
    ringStep nodeId ring entry = ring := by
  unfold ringStep
  rw [hcreated]
  cases hentry : entry.call with
  | onNode target call =>
    obtain ⟨e, he⟩ := hcall target call hentry
    have hsame : (fun ring => NodeCall.moved ring call (.error e)) = id := rfl
    simp [he, hsame]
  | _ => rfl

theorem keeps_newNode (c : Crypto) (draw : NodeDraw) (displayName protocolVersion : String)
    (key : Option BoundKey) (now : ℤ)
    (hpeer : acl.peer = ⟨draw.nodeId, some draw.credential.credentialId, some displayName⟩) :
    Keeps c (newNode c draw displayName protocolVersion key acl now)
      (.of (newCredential draw key now)) where
  credentialId := rfl
  credentialHash := rfl
  activeId := rfl
  activeHash := rfl
  activeKey := rfl
  peer := congrArg _ hpeer
  unexpiring := rfl
  revoked := rfl
  rotation := .none

section Step

variable {c : Crypto} {nodes : List StoredNodeRecord} {log : List CallRecord} {entry : CallRecord}

section
variable (h : RingInv c nodes log)
include h

theorem RingInv.named_append (entry : CallRecord) :
    ∀ node ∈ nodes, ∃ other ∈ log ++ [entry], ∃ text ∈ other.call.draws,
      node.nodeId = randomToken "node" text := by
  intro node hnode
  obtain ⟨other, hother, rest⟩ := h.named node hnode
  exact ⟨other, mem_append_left _ hother, rest⟩

theorem RingInv.untouched (hcreated : entry.created = none)
    (hcall : ∀ nodeId call, entry.call = .onNode nodeId call → ∃ e, entry.result = .error e) :
    RingInv c nodes (log ++ [entry]) where
  ids := h.ids
  named := h.named_append entry
  held := by
    intro node hnode
    obtain ⟨ring, hheld⟩ := h.held node hnode
    refine ⟨ring, ?_, hheld.keeps, hheld.drawn.append entry⟩
    rw [ringOf_append, ringStep_untouched hcreated hcall, hheld.told]
  known := by
    intro nodeId ring hring
    rw [ringOf_append, ringStep_untouched hcreated hcall] at hring
    exact h.known nodeId ring hring

theorem RingInv.added {draw : NodeDraw}
    (displayName protocolVersion : String) {key : Option BoundKey}
    (hfresh : ∀ other ∈ log, ∀ text ∈ entry.call.draws, text ∉ other.call.draws)
    (hdraws : entry.call.draws = [draw.node, draw.credential.id, draw.credential.secret])
    (hpeer : acl.peer = ⟨draw.nodeId, some draw.credential.credentialId, some displayName⟩)
    (hcreated : entry.created = some (newCredential draw key entry.now)) :
    RingInv c (nodes ++ [newNode c draw displayName protocolVersion key acl entry.now])
      (log ++ [entry]) := by
  have hring : ∀ nodeId, ringOf nodeId (log ++ [entry]) =
      if draw.nodeId = nodeId then some (.of (newCredential draw key entry.now))
      else ringOf nodeId log := by
    intro nodeId
    rw [ringOf_append, ringStep, hcreated]
    rfl
  -- the id of the new node is drawn now
  have hnew : ∀ node ∈ nodes, draw.nodeId ≠ node.nodeId := by
    intro node hnode heq
    obtain ⟨other, hother, text, htext, hname⟩ := h.named node hnode
    refine hfresh other hother draw.node ?_ ?_
    · rw [hdraws]
      exact mem_cons_self
    · exact randomToken_inj (heq.trans hname) ▸ htext
  constructor
  · rw [map_append, nodup_append]
    refine ⟨h.ids, nodup_singleton _, ?_⟩
    intro old hold new hmem heq
    obtain rfl := mem_singleton.mp hmem
    obtain ⟨node, hnode, rfl⟩ := mem_map.mp hold
    exact hnew node hnode heq.symm
  · intro node hnode
    obtain hnode | hnode := mem_append.mp hnode
    · exact h.named_append entry node hnode
    · obtain rfl := mem_singleton.mp hnode
      refine ⟨entry, mem_append_right _ (mem_singleton_self entry), draw.node, ?_, rfl⟩
      rw [hdraws]
      exact mem_cons_self
  · intro node hnode
    obtain hnode | hnode := mem_append.mp hnode
    · obtain ⟨ring, hheld⟩ := h.held node hnode
      refine ⟨ring, ?_, hheld.keeps, hheld.drawn.append entry⟩
      rw [hring, if_neg (hnew node hnode), hheld.told]
    · obtain rfl := mem_singleton.mp hnode
      refine ⟨.of (newCredential draw key entry.now), ?_, ?_, ?_⟩
      · exact (hring _).trans (if_pos rfl)
      · exact keeps_newNode c draw displayName protocolVersion key entry.now hpeer
      · refine ringDrawn_of draw.credential ⟨rfl, rfl, rfl⟩ ?_ ?_ <;> simp [hdraws]
  · intro nodeId ring hsome
    rw [hring] at hsome
    split at hsome
    · rename_i heq
      exact ⟨_, mem_append_right _ (mem_singleton_self _), heq⟩
    · obtain ⟨node, hnode, heq⟩ := h.known nodeId ring hsome
      exact ⟨node, mem_append_left _ hnode, heq⟩

theorem RingInv.acted {nodeId : String} {call : NodeCall} {node : StoredNodeRecord}
    (hfresh : ∀ other ∈ log, ∀ text ∈ entry.call.draws, text ∉ other.call.draws)
    (hcall : entry.call = .onNode nodeId call)
    (hfind : (nodes.find? fun n => decide (n.nodeId = nodeId)) = some node)
    (hresult : entry.result = (runOnNode c node entry.now call).result)
    (hcreated : entry.created = none) :
    RingInv c
      (modifyFirst (fun n => decide (n.nodeId = nodeId))
        (fun _ => (runOnNode c node entry.now call).state) nodes) (log ++ [entry]) := by
  have hnode : node ∈ nodes := mem_of_find?_eq_some hfind
  have hid : node.nodeId = nodeId := by simpa using find?_some hfind
  have hring : ∀ other, ringOf other (log ++ [entry]) =
      if nodeId = other then (ringOf other log).map fun ring => call.moved ring entry.result
      else ringOf other log := by
    intro other
    rw [ringOf_append, ringStep, hcreated, hcall]
  have hnames : (modifyFirst (fun n => decide (n.nodeId = nodeId))
      (fun _ => (runOnNode c node entry.now call).state) nodes).map (·.nodeId) =
      nodes.map (·.nodeId) := by
    rw [map_modifyFirst]
    intro other hother
    rw [nodeId_runOnNode, hid]
    exact (of_decide_eq_true hother).symm
  have hmem : ∀ after ∈ modifyFirst (fun n => decide (n.nodeId = nodeId))
      (fun _ => (runOnNode c node entry.now call).state) nodes,
      after = (runOnNode c node entry.now call).state ∨ after ∈ nodes ∧ nodeId ≠ after.nodeId := by
    intro after hafter
    rw [modifyFirst_eq_map h.ids] at hafter
    obtain ⟨old, hold, heq⟩ := mem_map.mp hafter
    split at heq
    · exact .inl heq.symm
    · subst heq
      exact .inr ⟨hold, fun hsame => ‹¬_› hsame.symm⟩
  constructor
  · rw [hnames]
    exact h.ids
  · intro after hafter
    obtain rfl | ⟨hold, -⟩ := hmem after hafter
    · rw [nodeId_runOnNode]
      exact h.named_append entry node hnode
    · exact h.named_append entry after hold
  · intro after hafter
    obtain rfl | ⟨hold, hother⟩ := hmem after hafter
    · obtain ⟨ring, hheld⟩ := h.held node hnode
      refine ⟨call.moved ring entry.result, ?_, ?_, ?_⟩
      · rw [nodeId_runOnNode, hid, hring, if_pos rfl, ← hid, hheld.told]
        rfl
      · rw [hresult]
        exact hheld.keeps.runOnNode call
      · rw [nodeId_runOnNode, hresult]
        obtain hsame | ⟨m, hmove, hissues⟩ := moved_cases c node entry.now ring call
        · rw [hsame]
          exact hheld.drawn.append entry
        · rw [hmove]
          refine hheld.drawn.move m hfresh fun credential hnew => ?_
          obtain ⟨publicKey, draw, rfl, hissued, hbound⟩ := hissues credential hnew
          refine ⟨draw.credential, hissued, ?_, ?_, fun hcurrent => hbound ?_⟩
          · simp [hcall, RegistryCall.draws, NodeCall.draws]
          · simp [hcall, RegistryCall.draws, NodeCall.draws]
          · rw [Bound, ← hheld.keeps.activeKey, Option.isSome_map] at hcurrent
            exact hcurrent
    · obtain ⟨ring, hheld⟩ := h.held after hold
      refine ⟨ring, ?_, hheld.keeps, hheld.drawn.append entry⟩
      rw [hring, if_neg hother, hheld.told]
  · intro other ring hsome
    have hold : ∃ ring, ringOf other log = some ring := by
      rw [hring] at hsome
      split at hsome
      · obtain ⟨old, hold, -⟩ := Option.map_eq_some_iff.mp hsome
        exact ⟨old, hold⟩
      · exact ⟨ring, hsome⟩
    obtain ⟨old, hold⟩ := hold
    obtain ⟨known, hknown, hname⟩ := h.known other old hold
    have hname' : other ∈ (modifyFirst (fun n => decide (n.nodeId = nodeId))
        (fun _ => (runOnNode c node entry.now call).state) nodes).map (·.nodeId) := by
      rw [hnames]
      exact mem_map.mpr ⟨known, hknown, hname⟩
    exact mem_map.mp hname'

end

end Step

/-- A call moves the key ring of each node as its record says. -/
theorem ringInv_step {c : Crypto} {w : World} {op : Timed}
    (h : RingInv c w.registry.state.nodes w.log) (hop : Admissible w op) :
    RingInv c (step c w op).registry.state.nodes (step c w op).log := by
  have hfresh : ∀ other ∈ w.log, ∀ text ∈ (entryOf c w op).call.draws,
      text ∉ other.call.draws := hop.fresh
  have hstep := nodeStep_step c w op
  generalize (step c w op).registry.state.nodes = after at hstep ⊢
  cases hstep with
  | untouched hcreated hcall => exact h.untouched hcreated hcall
  | added draw displayName protocolVersion key acl hdraws _ hpeer hcreated _ =>
    exact h.added displayName protocolVersion hfresh hdraws hpeer hcreated
  | acted nodeId call node hcall _ hfind hresult hcreated =>
    exact h.acted hfresh hcall hfind hresult hcreated

/-! ## Acceptance -/

/-- A valid proof of possession of the key with that fingerprint. -/
def Proven (c : Crypto) (nodeId credentialId fingerprint : String)
    (context : NodeLinkProofContext) (now : ℤ) : Prop :=
  ∃ proof publicKey first second signature header payload iat,
    context.proof = some proof ∧ Text.fields '.' proof = [first, second, signature] ∧
    c.parseProofSegment first = some header ∧ c.parseProofSegment second = some payload ∧
    header.fpr = some fingerprint ∧ payload.nodeId = some nodeId ∧
    payload.credentialId = some credentialId ∧ payload.aud = some context.audience.text ∧
    payload.iat = some iat ∧ |(now : ℚ) - iat * 1000| ≤ context.freshnessMs ∧
    nodePublicKeyFingerprint c publicKey = some fingerprint ∧
    c.verify publicKey (first ++ "." ++ second) signature = true

section Accept

variable {c : Crypto} {node : StoredNodeRecord} {ring : CredentialRing} {now : ℤ}

theorem truthy_eq_some {text : Option String} {value : String} (h : truthy text = some value) :
    text = some value := by
  exact (Option.filter_eq_some_iff.mp h).1

theorem checkProof_eq_ok {header payload : ProofSegment} {signed signature : String}
    {expected : ExpectedProof} {freshnessMs : ℚ}
    (h : checkProof c header payload signed signature expected now freshnessMs = .ok verified) :
    header.fpr = some expected.key.publicKeyFingerprint ∧
      payload.nodeId = some expected.nodeId ∧
      payload.credentialId = some expected.credentialId ∧
      payload.aud = some expected.audience.text ∧
      (∃ iat, payload.iat = some iat ∧ |(now : ℚ) - iat * 1000| ≤ freshnessMs) ∧
      nodePublicKeyFingerprint c expected.key.publicKey = some expected.key.publicKeyFingerprint ∧
      c.verify expected.key.publicKey signed signature = true := by
  unfold checkProof at h
  obtain ⟨-, h⟩ := ite_error_eq_ok h
  obtain ⟨-, h⟩ := ite_error_eq_ok h
  obtain ⟨hfpr, h⟩ := ite_error_eq_ok h
  obtain ⟨hnode, h⟩ := ite_error_eq_ok h
  obtain ⟨hcredential, h⟩ := ite_error_eq_ok h
  obtain ⟨haud, h⟩ := ite_error_eq_ok h
  split at h
  · rename_i iat jti hiat hjti
    obtain ⟨hstale, h⟩ := ite_error_eq_ok h
    split at h
    · cases h
    · rename_i fingerprint hkey
      obtain ⟨hsame, h⟩ := ite_error_eq_ok h
      obtain ⟨hverify, -⟩ := ite_error_eq_ok h
      exact ⟨not_not.mp hfpr, not_not.mp hnode, not_not.mp hcredential, not_not.mp haud,
        ⟨iat, hiat, not_lt.mp hstale⟩, hkey.trans (congrArg some (not_not.mp hsame)),
        Bool.eq_true_of_not_eq_false hverify⟩
  · cases h

theorem proven_of_provenCredential (h : provenCredential c resolved context now = .ok verified) :
    ∃ key, boundKeyForCredential resolved.node resolved.credentialId = some key ∧
      Proven c resolved.node.nodeId resolved.credentialId key.publicKeyFingerprint context now := by
  unfold provenCredential at h
  split at h
  · cases h
  · rename_i key hkey
    refine ⟨key, hkey, ?_⟩
    split at h
    · cases h
    · rename_i proof hproof
      split at h
      · cases h
      · rename_i ok hverified
        unfold verifyNodeLinkProof at hverified
        split at hverified
        · rename_i first second signature hfields
          split_ifs at hverified
          split at hverified
          · rename_i header payload hheader hpayload
            obtain ⟨hfpr, hnode, hcredential, haud, ⟨iat, hiat, hfresh⟩, hdigest, hverify⟩ :=
              checkProof_eq_ok hverified
            exact ⟨proof, key.publicKey, first, second, signature, header, payload, iat,
              truthy_eq_some hproof, hfields, hheader, hpayload, hfpr, hnode, hcredential, haud,
              hiat, hfresh, hdigest, hverify⟩
          · cases hverified
        · cases hverified

theorem boundKeyForCredential_of_use {nodeId : String} {log : List CallRecord}
    (h : Keeps c node ring) (hdrawn : RingDrawn nodeId log ring)
    (huse : credential = ring.current ∨ ring.pending = some credential) :
    (boundKeyForCredential node credential.credentialId).map (·.publicKeyFingerprint) =
      credential.publicKeyFingerprint := by
  have hissued : credential ∈ ring.issued := by
    obtain rfl | hpending := huse
    · exact hdrawn.sound.current
    · exact hdrawn.sound.pending _ hpending
  -- a record falls back to the key of the active credential
  have hactive : ring.current.credentialId = credential.credentialId →
      node.activeCredential.key.map (·.publicKeyFingerprint) = credential.publicKeyFingerprint := by
    intro heq
    rw [h.activeKey, hdrawn.eq hdrawn.sound.current hissued (.inl heq)]
  have hsound := hdrawn.sound.pending
  have hwaits := h.rotation
  unfold boundKeyForCredential
  rw [h.activeId]
  generalize node.credentialRotation = stored at hwaits ⊢
  generalize ring.pending = pending at hwaits huse hsound ⊢
  cases hwaits with
  | none =>
    obtain rfl | huse := huse
    · simpa using hactive rfl
    · cases huse
  | done rotation hstable hkey =>
    obtain rfl | huse := huse
    · have hnone : ((some rotation).filter fun rotation => decide (rotation.nextCredentialId =
          ring.current.credentialId)).bind (·.nextKey) = none := by
        cases hid : decide (rotation.nextCredentialId = ring.current.credentialId) <;>
          simp [hkey]
      rw [hnone]
      simpa using hactive rfl
    · cases huse
  | waiting rotation next hstate hid hhash hkey =>
    by_cases hsame : rotation.nextCredentialId = credential.credentialId
    · have hnext : next = credential :=
        hdrawn.eq (hsound next rfl) hissued (.inl (hid.symm.trans hsame))
      subst hnext
      simp only [Option.filter_some, hsame, decide_true, if_true, Option.bind_some]
      cases hnextKey : rotation.nextKey with
      | some key => simpa [hnextKey] using hkey
      | none =>
        rw [hnextKey] at hkey
        by_cases hcurrent : ring.current.credentialId = next.credentialId
        · simpa [hcurrent] using hactive hcurrent
        · simpa [hcurrent] using hkey
    · obtain rfl | huse := huse
      · simpa [Option.filter_some, hsame] using hactive rfl
      · cases huse
        exact absurd hid hsame

theorem live_of_resolveOnNode (hinj : Injective c.sha256) (h : Keeps c node ring)
    (hok : resolveOnNode node (c.sha256 token) now = .ok resolved) :
    resolved.node = node ∧ ∃ credential, ring.Live credential ∧ credential.token = token ∧
      resolved.credentialId = credential.credentialId ∧
      resolved.keyBound = credential.publicKeyFingerprint.isSome := by
  unfold resolveOnNode at hok
  split_ifs at hok with hmismatch _ hexpired hrevoked
  have hlive : ring.revoked = false := by
    rw [← h.revoked]
    exact Bool.eq_false_iff.mpr hrevoked
  cases hmatch : matchingRotation node (c.sha256 token) with
  | none =>
    rw [hmatch] at hok hmismatch
    cases hok
    have hhash : node.activeCredential.tokenHash = c.sha256 token := by simpa using hmismatch
    refine ⟨rfl, ring.current, ⟨hlive, .inl rfl⟩, hinj (h.activeHash ▸ hhash), h.credentialId, ?_⟩
    rw [← h.activeKey, Option.isSome_map]
  | some rotation =>
    rw [hmatch] at hok
    cases hok
    obtain ⟨hprovable, hhash⟩ := Option.filter_eq_some_iff.mp hmatch
    obtain ⟨-, hnone⟩ | ⟨other, next, hpending, hother, hid, hnextHash, hkey⟩ :=
      provableRotation_of_waits h.rotation
    · rw [hnone] at hprovable
      cases hprovable
    · obtain rfl : other = rotation := Option.some.inj (hother ▸ hprovable)
      have htoken : c.sha256 next.token = c.sha256 token := by
        simpa [hnextHash] using hhash
      refine ⟨rfl, next, ⟨hlive, .inr hpending⟩, hinj htoken, hid, ?_⟩
      rw [← hkey, Option.isSome_map]

end Accept

/-! ## Every run -/

section Run

variable {c : Crypto} {w : World} {op : Timed} {nodeId : String} {ring : CredentialRing}

/-- How one call moves a ring. -/
structure RingStep (ring ring' : CredentialRing) : Prop where
  issued : ∀ credential ∈ ring.issued, credential ∈ ring'.issued
  revoked : ring.revoked = true → ring'.revoked = true
  waiting : ∀ credential ∈ ring.issued, ring.pending ≠ some credential →
    ring'.pending ≠ some credential
  ended : ∀ credential ∈ ring.issued, ¬ring.Live credential → ¬ring'.Live credential
  inherited : Bound ring.current → Bound ring'.current ∧
    ∀ credential ∈ ring'.issued, credential ∉ ring.issued → Bound credential

theorem RingStep.refl (ring : CredentialRing) : RingStep ring ring where
  issued := fun _ h => h
  revoked := id
  waiting := fun _ _ h => h
  ended := fun _ _ h => h
  inherited := fun h => ⟨h, fun _ hmem hnot => absurd hmem hnot⟩

theorem RingStep.trans {a b d : CredentialRing} (hab : RingStep a b) (hbd : RingStep b d) :
    RingStep a d where
  issued := fun credential h => hbd.issued credential (hab.issued credential h)
  revoked := fun h => hbd.revoked (hab.revoked h)
  waiting := fun credential hmem h =>
    hbd.waiting credential (hab.issued credential hmem) (hab.waiting credential hmem h)
  ended := fun credential hmem h =>
    hbd.ended credential (hab.issued credential hmem) (hab.ended credential hmem h)
  inherited := by
    intro h
    obtain ⟨hb, hnewb⟩ := hab.inherited h
    obtain ⟨hd, hnewd⟩ := hbd.inherited hb
    refine ⟨hd, fun credential hmem hnot => ?_⟩
    by_cases hin : credential ∈ b.issued
    · exact hnewb credential hin hnot
    · exact hnewd credential hmem hin

theorem ringStep_move (hinherited : KeyRing.Inherited Bound ring)
    (m : KeyRing.Move RelayNodeCredential) (hissues : ∀ credential, m.issues = some credential →
      credential ∉ ring.issued ∧ (Bound ring.current → Bound credential)) :
    RingStep ring (ring.move m) where
  issued := by
    intro credential hmem
    rw [KeyRing.issued_move]
    exact mem_append_left _ hmem
  revoked := fun h => KeyRing.revoked_move h m
  waiting := fun credential hmem hidle hwaits =>
    (KeyRing.pending_move hwaits).elim hidle fun hnew => (hissues credential hnew).1 hmem
  ended := fun credential hmem hdead =>
    KeyRing.not_live_move hdead fun hnew => (hissues credential hnew).1 hmem
  inherited := by
    intro hcurrent
    refine ⟨hinherited.current_move hcurrent m, fun credential hmem hnot => ?_⟩
    rw [KeyRing.issued_move, mem_append, Option.mem_toList] at hmem
    obtain hmem | hnew := hmem
    · exact absurd hmem hnot
    · exact (hissues credential hnew).2 hcurrent

/-- **One call.** The ring of a node stays, or moves without issuing anything known. -/
theorem ringStep_step (h : RingInv c w.registry.state.nodes w.log) (hop : Admissible w op)
    (hring : ringOf nodeId w.log = some ring) :
    ∃ ring', ringOf nodeId (step c w op).log = some ring' ∧ RingStep ring ring' := by
  obtain ⟨node, hnode, hname⟩ := h.known nodeId ring hring
  obtain ⟨ring₀, hheld⟩ := h.held node hnode
  obtain rfl : ring₀ = ring := Option.some.inj (hheld.told.symm.trans (hname ▸ hring))
  have hinv := ringInv_step h hop
  have hstep := nodeStep_step c w op
  rw [log_step] at hinv ⊢
  rw [ringOf_append, hring]
  generalize (step c w op).registry.state.nodes = after at hinv hstep
  cases hstep with
  | untouched hcreated hcall =>
    exact ⟨ring₀, ringStep_untouched hcreated hcall, RingStep.refl ring₀⟩
  | added draw displayName protocolVersion key acl _ _ _ hcreated _ =>
    refine ⟨ring₀, ?_, RingStep.refl ring₀⟩
    have hids := hinv.ids
    rw [map_append, nodup_append] at hids
    have hne : draw.nodeId ≠ nodeId := by
      intro heq
      refine hids.2.2 nodeId ?_ draw.nodeId mem_cons_self heq.symm
      exact mem_map.mpr ⟨node, hnode, hname⟩
    rw [ringStep, hcreated]
    exact if_neg hne
  | acted target call node' hcall _ hfind hresult hcreated =>
    rw [ringStep, hcreated, hcall]
    by_cases htarget : target = nodeId
    · have hfound : node' = node := by
        have hsame := find?_of_mem h.ids hnode
        rw [hname, ← htarget] at hsame
        exact Option.some.inj (hfind.symm.trans hsame)
      subst hfound
      refine ⟨call.moved ring₀ (entryOf c w op).result, if_pos htarget, ?_⟩
      -- what is issued now is not among what was issued
      have hdistinct : ∀ m, call.moved ring₀ (entryOf c w op).result = ring₀.move m →
          ∀ credential, m.issues = some credential → credential ∉ ring₀.issued := by
        intro m hmove credential hnew hmem
        have htold : ringOf nodeId (w.log ++ [entryOf c w op]) = some (ring₀.move m) := by
          rw [ringOf_append, hring, ringStep, hcreated, hcall, ← hmove]
          exact if_pos htarget
        obtain ⟨after, hafter, hafterName⟩ := hinv.known nodeId _ htold
        obtain ⟨ring', hheld'⟩ := hinv.held after hafter
        obtain rfl : ring' = ring₀.move m :=
          Option.some.inj (hheld'.told.symm.trans (hafterName ▸ htold))
        have hpairs := hheld'.drawn.distinct
        rw [KeyRing.issued_move, pairwise_append] at hpairs
        exact (hpairs.2.2 credential hmem credential (Option.mem_toList.mpr hnew)).1 rfl
      obtain hsame | ⟨m, hmove, hissues⟩ := moved_cases c node' (entryOf c w op).now ring₀ call
      · rw [hresult, hsame]
        exact RingStep.refl ring₀
      · rw [← hresult] at hmove
        rw [hmove]
        refine ringStep_move hheld.drawn.inherited m fun credential hnew => ?_
        refine ⟨hdistinct m hmove credential hnew, fun hcurrent => ?_⟩
        obtain ⟨-, -, -, -, hbound⟩ := hissues credential hnew
        apply hbound
        rw [Bound, ← hheld.keeps.activeKey, Option.isSome_map] at hcurrent
        exact hcurrent
    · exact ⟨ring₀, if_neg htarget, RingStep.refl ring₀⟩

theorem ringStep_exec (h : RingInv c w.registry.state.nodes w.log)
    (hops : Guarded (step c) Admissible w ops) (hring : ringOf nodeId w.log = some ring) :
    ∃ ring', ringOf nodeId (exec (step c) w ops).log = some ring' ∧ RingStep ring ring' := by
  induction ops generalizing w ring with
  | nil => exact ⟨ring, hring, RingStep.refl ring⟩
  | cons op ops ih =>
    obtain ⟨ring', hring', hmoved⟩ := ringStep_step h hops.1 hring
    obtain ⟨ring'', hring'', hmoved'⟩ := ih (ringInv_step h hops.1) hops.2 hring'
    exact ⟨ring'', hring'', hmoved.trans hmoved'⟩

end Run

/-! ## The law -/

section Law

variable {c : Crypto} {w : World} {nodeId : String} {ring : CredentialRing}

theorem dot_not_mem_randomToken (text : RandomText) :
    '.' ∉ (randomToken "node" text).toList ∧ '.' ∉ (randomToken "secret" text).toList := by
  have htext : '.' ∉ text.val.toList := fun h => by simpa [isBase64Url] using text.property.2 _ h
  simp [randomToken, htext]

theorem fields_credentialToken (draw : CredentialDraw) (hnode : '.' ∉ nodeId.toList) :
    Text.fields '.' (credentialToken nodeId draw) =
      [nodeId, randomToken "secret" draw.secret] := by
  refine (Text.fields_append '.' nodeId (randomToken "secret" draw.secret)).trans ?_
  rw [Text.fields_of_not_mem hnode, Text.fields_of_not_mem (dot_not_mem_randomToken draw.secret).2]
  rfl

theorem eq_of_parseCredentialToken {other : String} (hnode : '.' ∉ nodeId.toList)
    (h : parseCredentialToken (credentialToken nodeId draw) = .ok other) : other = nodeId := by
  unfold parseCredentialToken at h
  simp only [fields_credentialToken draw hnode] at h
  split_ifs at h
  exact (Except.ok.inj h).symm

theorem findNode_eq_some {node : StoredNodeRecord}
    (h : findNode s nodeId = some node) : node ∈ s.nodes ∧ node.nodeId = nodeId :=
  ⟨mem_of_find?_eq_some h, by simpa using find?_some h⟩

/-- **Acceptance.** A token is resolved for a live key of the node it names. -/
theorem live_of_resolveCredentialForAuth (hinj : Injective c.sha256)
    {log : List CallRecord} (h : RingInv c s.nodes log) {now : ℤ}
    (hok : resolveCredentialForAuth c s token now = .ok resolved) :
    ∃ ring credential, parseCredentialToken (Text.trim token) = .ok resolved.node.nodeId ∧
      Held c log resolved.node ring ∧ ring.Live credential ∧ credential.token = Text.trim token ∧
      resolved.credentialId = credential.credentialId ∧
      resolved.keyBound = credential.publicKeyFingerprint.isSome := by
  unfold resolveCredentialForAuth at hok
  split at hok
  · cases hok
  · rename_i nodeId hparse
    split at hok
    · cases hok
    · rename_i node hfind
      obtain ⟨hnode, rfl⟩ := findNode_eq_some hfind
      obtain ⟨ring, hheld⟩ := h.held node hnode
      obtain ⟨hsame, credential, hlive, htoken, hid, hbound⟩ :=
        live_of_resolveOnNode hinj hheld.keeps hok
      exact ⟨ring, credential, hsame ▸ hparse, hsame ▸ hheld, hlive, htoken, hid, hbound⟩

theorem not_resolved_of_not_live (hinj : Injective c.sha256)
    {log : List CallRecord} (h : RingInv c s.nodes log) (hring : ringOf nodeId log = some ring)
    (hmem : credential ∈ ring.issued)
    (hdead : ¬ring.Live credential) (htoken : Text.trim token = credential.token)
    (now : ℤ) (resolved : ResolvedCredential) :
    resolveCredentialForAuth c s token now ≠ .ok resolved := by
  intro hok
  obtain ⟨ring', live, hparse, hheld', hlive, hliveToken, -, -⟩ :=
    live_of_resolveCredentialForAuth hinj h hok
  obtain ⟨node, hnode, rfl⟩ := h.known nodeId ring hring
  obtain ⟨ring₀, hheld⟩ := h.held node hnode
  obtain rfl : ring₀ = ring := Option.some.inj (hheld.told.symm.trans hring)
  obtain ⟨-, -, draw, hissued, -, -⟩ := hheld.drawn.drawn credential hmem
  obtain ⟨-, -, text, -, hname⟩ := h.named node hnode
  have hdot : '.' ∉ node.nodeId.toList := hname ▸ (dot_not_mem_randomToken text).1
  rw [htoken, hissued.token] at hparse
  have hsame := eq_of_parseCredentialToken hdot hparse
  have htold := hheld'.told
  rw [hsame, hring] at htold
  obtain rfl := Option.some.inj htold
  have heq : live = credential :=
    hheld.drawn.eq (hlive.mem_issued hheld.drawn.sound) hmem (.inr (hliveToken.trans htoken))
  exact hdead (heq ▸ hlive)

structure AcceptedFor (c : Crypto) (log : List CallRecord) (token : String)
    (context : NodeLinkProofContext) (now : ℤ) (accepted : Authenticated) (nodeId : String)
    (ring : CredentialRing) (credential : RelayNodeCredential) : Prop where
  told : ringOf nodeId log = some ring
  live : ring.Live credential
  token : credential.token = Text.trim token
  credentialId : accepted.credentialId = credential.credentialId
  proven : ∀ fingerprint, credential.publicKeyFingerprint = some fingerprint →
    Proven c nodeId credential.credentialId fingerprint context now

theorem credentialId_of_commitCredentialAllow {strictDeny : Bool}
    (h : (commitCredentialAllow s resolved strictDeny).result = .ok accepted) :
    accepted.credentialId = resolved.credentialId := by
  unfold commitCredentialAllow at h
  split at h
  · cases h
  · cases h
    rfl

/-- **Links.** A link is accepted for a live key, and for one bound to a key only with a proof. -/
theorem acceptedFor_of_ok (hinj : Injective c.sha256)
    (h : RingInv c w.registry.state.nodes w.log) {now : ℤ}
    (hok : (authenticateNodeLinkWithProof c w.registry token context now).result = .ok accepted) :
    ∃ nodeId ring credential, AcceptedFor c w.log token context now accepted nodeId ring
      credential := by
  unfold authenticateNodeLinkWithProof at hok
  split at hok
  · cases hok
  · rename_i resolved hresolve
    obtain ⟨ring, credential, -, hheld, hlive, htoken, hid, hbound⟩ :=
      live_of_resolveCredentialForAuth hinj h hresolve
    refine ⟨resolved.node.nodeId, ring, credential, ?_⟩
    split at hok
    · rename_i hkey
      refine ⟨hheld.told, hlive, htoken, (credentialId_of_commitCredentialAllow hok).trans hid, ?_⟩
      intro fingerprint hfingerprint
      rw [hfingerprint, hkey] at hbound
      cases hbound
    · split at hok
      · cases hok
      · rename_i verified hproven
        split at hok
        · cases hok
        · refine ⟨hheld.told, hlive, htoken,
            (credentialId_of_commitCredentialAllow hok).trans hid, ?_⟩
          intro fingerprint hfingerprint
          obtain ⟨key, hlookup, hproof⟩ := proven_of_provenCredential hproven
          rw [hid] at hlookup hproof
          have hdigest := boundKeyForCredential_of_use hheld.keeps hheld.drawn hlive.2
          rw [hlookup, hfingerprint] at hdigest
          obtain rfl : key.publicKeyFingerprint = fingerprint := Option.some.inj hdigest
          exact hproof

theorem refused_of_not_live (hinj : Injective c.sha256)
    (h : RingInv c w.registry.state.nodes w.log) (hring : ringOf nodeId w.log = some ring)
    (hmem : credential ∈ ring.issued)
    (hdead : ¬ring.Live credential) (htoken : Text.trim token = credential.token)
    (context : NodeLinkProofContext) (now : ℤ) (accepted : Authenticated) :
    (authenticateNodeLinkWithProof c w.registry token context now).result ≠ .ok accepted := by
  intro hok
  unfold authenticateNodeLinkWithProof at hok
  split at hok
  · cases hok
  · rename_i resolved hresolve
    exact not_resolved_of_not_live hinj h hring hmem hdead htoken now resolved hresolve

end Law

theorem ringInv_of_run {c : Crypto} (hops : Guarded (step c) Admissible World.start ops) :
    RingInv c (exec (step c) World.start ops).registry.state.nodes
      (exec (step c) World.start ops).log :=
  exec_invariant_of_guarded (I := fun w : World => RingInv c w.registry.state.nodes w.log)
    (fun _ _ h hop => ringInv_step h hop) (ringInv_start c) hops

structure RotationSafe (c : Crypto) (w : World) : Prop where
  accepted : ∀ token context now accepted,
    (authenticateNodeLinkWithProof c w.registry token context now).result = .ok accepted →
      ∃ nodeId ring credential,
        AcceptedFor c w.log token context now accepted nodeId ring credential
  agreement : ∀ node ∈ w.registry.state.nodes, ∃ ring, ringOf node.nodeId w.log = some ring ∧
    Keeps c node ring

structure Lasting (c : Crypto) (w : World) (ring ring' : CredentialRing) : Prop where
  refused : ∀ credential ∈ ring.issued, ¬ring.Live credential → ∀ token,
    Text.trim token = credential.token → ∀ context now accepted,
      (authenticateNodeLinkWithProof c w.registry token context now).result ≠ .ok accepted
  bound : Bound ring.current → Bound ring'.current ∧
    ∀ credential ∈ ring'.issued, credential ∉ ring.issued → Bound credential

/-- **Rotation.** After every admissible run a link is accepted for a live credential alone, the
    places of a record agree, ended credentials stay refused, and a bound credential in force is
    followed by bound ones. -/
theorem rotation_of_run {c : Crypto} (hinj : Injective c.sha256) {ops : List Timed}
    (hops : Guarded (step c) Admissible World.start ops) :
    RotationSafe c (exec (step c) World.start ops) ∧
      ∀ pre post, ops = pre ++ post → ∀ nodeId ring,
        ringOf nodeId (exec (step c) World.start pre).log = some ring →
          ∃ ring', ringOf nodeId (exec (step c) World.start ops).log = some ring' ∧
            Lasting c (exec (step c) World.start ops) ring ring' := by
  refine ⟨⟨?_, ?_⟩, ?_⟩
  · intro token context now accepted hok
    exact acceptedFor_of_ok hinj (ringInv_of_run hops) hok
  · intro node hnode
    obtain ⟨ring, hheld⟩ := (ringInv_of_run hops).held node hnode
    exact ⟨ring, hheld.told, hheld.keeps⟩
  · rintro pre post rfl nodeId ring hring
    obtain ⟨hpre, hpost⟩ := (guarded_append _ _ _ _ _).mp hops
    have hafter := ringInv_of_run hops
    rw [exec_append] at hafter ⊢
    obtain ⟨ring', hring', hmoved⟩ := ringStep_exec (ringInv_of_run hpre) hpost hring
    refine ⟨ring', hring', ?_, hmoved.inherited⟩
    intro credential hmem hdead token htoken context now accepted
    exact refused_of_not_live hinj hafter hring' (hmoved.issued credential hmem)
      (hmoved.ended credential hmem hdead) htoken context now accepted

/-- The texts `F` to `H`, and then `I` to `K`, as drawn for two rotations. -/
def firstRotation : RotationDraw :=
  ⟨⟨⟨"F", by simp [isBase64Url]⟩, ⟨"G", by simp [isBase64Url]⟩⟩, ⟨"H", by simp [isBase64Url]⟩⟩

def secondRotation : RotationDraw :=
  ⟨⟨⟨"I", by simp [isBase64Url]⟩, ⟨"J", by simp [isBase64Url]⟩⟩, ⟨"K", by simp [isBase64Url]⟩⟩

/-- A node is paired without a key. -/
def pairRun : List Timed :=
  [⟨.createPairToken {} mintDraw, 0⟩, ⟨.exchangePairToken { pairToken := "pair_A" } nodeDraw, 1⟩]

/-- Its credential is rotated, and a heartbeat proves the new one. -/
def rotateRun : List Timed :=
  pairRun ++
    [⟨.onNode "node_C" (.beginCredentialRotation none firstRotation), 2⟩,
      ⟨.onNode "node_C" (.recordHeartbeat "1.0" (some "cred_F")), 3⟩]

/-- A rotated credential refuses the token of pairing. -/
theorem rotation_of_rotateRun :
    (ringOf "node_C" (exec (step keylessCrypto) World.start rotateRun).log).map
        (·.current.credentialId) = some "cred_F" ∧
      ∀ context now accepted,
        (authenticateNodeLinkWithProof keylessCrypto
          (exec (step keylessCrypto) World.start rotateRun).registry "node_C.secret_E" context
          now).result ≠ .ok accepted := by
  have hops : Guarded (step keylessCrypto) Admissible World.start rotateRun := by decide
  have hring : (ringOf "node_C" (exec (step keylessCrypto) World.start rotateRun).log).map
      (fun ring => (ring.current.credentialId, ring.pending,
        ring.issued.map fun credential => (credential.credentialId, credential.token))) =
      some ("cred_F", none, [("cred_D", "node_C.secret_E"), ("cred_F", "node_C.secret_G")]) := by
    decide
  obtain ⟨ring, htold, hring⟩ := Option.map_eq_some_iff.mp hring
  obtain ⟨hcurrent, hpending, hissued⟩ : ring.current.credentialId = "cred_F" ∧
      ring.pending = none ∧ ring.issued.map
        (fun credential => (credential.credentialId, credential.token)) =
        [("cred_D", "node_C.secret_E"), ("cred_F", "node_C.secret_G")] := by
    simpa using hring
  refine ⟨by rw [htold, Option.map_some, hcurrent], ?_⟩
  have hfirst : ("cred_D", "node_C.secret_E") ∈ ring.issued.map
      fun credential => (credential.credentialId, credential.token) := by
    rw [hissued]
    exact mem_cons_self
  obtain ⟨credential, hmem, hfirst⟩ := mem_map.mp hfirst
  obtain ⟨hid, htoken⟩ := Prod.mk.inj hfirst
  obtain ⟨ring', htold', hlasting⟩ := (rotation_of_run digestOf_injective hops).2 rotateRun []
    (append_nil _).symm "node_C" ring htold
  refine hlasting.refused credential hmem ?_ "node_C.secret_E" (by rw [htoken]; decide)
  -- the credential of pairing is neither in force nor waiting
  rintro ⟨-, rfl | hwaiting⟩
  · rw [hcurrent] at hid
    exact absurd hid (by decide)
  · rw [hpending] at hwaiting
    cases hwaiting

def nodeKeyPem : String :=
  "-----BEGIN PUBLIC KEY-----\n" ++
    "MCowBQYDK2VwAyEA11qYAYKxCrfVS/7TyWQHOg7hcvPapiMlrwIaaPcHURo=\n" ++
    "-----END PUBLIC KEY-----\n"

/-- A platform that knows this key. -/
def keyedCrypto : Crypto :=
  { keylessCrypto with
    keyDigest := fun publicKeyPem =>
      if publicKeyPem = nodeKeyPem then some "BuP9j9opu2CrWVV95h7bCuzbIxE0vjDnW0Vfjht5L6k"
      else none }

/-- A rotation to a key is withdrawn, and another one begun without a key. -/
def withdrawRun : List Timed :=
  pairRun ++
    [⟨.onNode "node_C" (.beginCredentialRotation (some nodeKeyPem) firstRotation), 2⟩,
      ⟨.onNode "node_C" .clearCredentialRotationFailure, 3⟩,
      ⟨.onNode "node_C" (.beginCredentialRotation none secondRotation), 4⟩]

/-- A bound credential that was withdrawn is followed by one that is not bound. -/
theorem unbound_after_withdrawn_key :
    Guarded (step keyedCrypto) Admissible World.start withdrawRun ∧
      (ringOf "node_C" (exec (step keyedCrypto) World.start withdrawRun).log).map
          (fun ring => ring.issued.map fun credential =>
            (credential.credentialId, credential.publicKeyFingerprint.isSome)) =
        some [("cred_D", false), ("cred_F", true), ("cred_I", false)] := by
  constructor <;> decide

end RelayIde.Nodes
