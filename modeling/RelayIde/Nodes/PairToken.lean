import RelayIde.Nodes.Registry

/-!
# Pair Tokens

Every pair token is exchanged at most once and in time, and the node it creates stays within the
capability envelope of the token, as far as that envelope names a capability a node can hold.

- `pairTokens_of_run` — whole runs
-/

namespace RelayIde.Nodes

open RelayIde.Library RelayIde.Security List Function

/-! ## Mints and exchanges in the log -/

def CallRecord.minted (entry : CallRecord) : Option (PairTokenOptions × PairTokenResponse) :=
  match entry.call, entry.result with
  | .createPairToken options _, .ok (.minted response) => some (options, response)
  | _, _ => none

/-- The token of a successful exchange and the node it created. -/
def CallRecord.exchanged (entry : CallRecord) : Option (String × HubNodeSummary) :=
  match entry.call, entry.result with
  | .exchangePairToken input _, .ok (.paired _ node) => some (input.pairToken, node)
  | _, _ => none

structure SingleUse (log : List CallRecord) : Prop where
  once : ((log.filterMap (·.exchanged)).map (·.1)).Nodup
  inTime : ∀ entry ∈ log, ∀ token node, entry.exchanged = some (token, node) →
    ∃ mint ∈ log, ∃ options response, mint.minted = some (options, response) ∧
      response.pairToken = token ∧ entry.now < response.expiresAt

def PairTokenCapabilityEnvelope.allows (envelope : PairTokenCapabilityEnvelope)
    (bit : RelayCapabilityBit) : Prop :=
  bit.val ∈ envelope.allowed.getD []

def PairTokenCapabilityEnvelope.confirms (envelope : PairTokenCapabilityEnvelope)
    (bit : RelayCapabilityBit) : Prop :=
  bit.val ∈ envelope.requiresConfirmation.getD []

instance (envelope : PairTokenCapabilityEnvelope) (bit : RelayCapabilityBit) :
    Decidable (envelope.allows bit) :=
  inferInstanceAs (Decidable (bit.val ∈ envelope.allowed.getD []))

instance (envelope : PairTokenCapabilityEnvelope) (bit : RelayCapabilityBit) :
    Decidable (envelope.confirms bit) :=
  inferInstanceAs (Decidable (bit.val ∈ envelope.requiresConfirmation.getD []))

structure Within (envelope : PairTokenCapabilityEnvelope) (grants : RelayAclGrant) : Prop where
  listed : ∀ bit, bit ∈ grants.allowed ∨ bit ∈ grants.requiresConfirmation →
    envelope.allows bit ∨ envelope.confirms bit
  silent : ∀ bit, envelope.confirms bit → ¬envelope.allows bit → bit ∉ grants.allowed

/-- Every node created by a token that was minted with an envelope stays within it. -/
def Enveloped (log : List CallRecord) : Prop :=
  ∀ entry ∈ log, ∀ token node, entry.exchanged = some (token, node) →
    ∀ mint ∈ log, ∀ options response, mint.minted = some (options, response) →
      response.pairToken = token →
        ∀ envelope, options.capabilityEnvelope = some envelope → Within envelope node.grants

/-- The envelope allows some capability of a node, or confirms every default capability that the
    tier would grant silently. -/
def Covers (envelope : PairTokenCapabilityEnvelope) (trustTier : RelayTrustTier) : Prop :=
  (∃ bit, envelope.allows bit ∧ isNodeBit bit = true) ∨
    ∀ bit ∈ legacyDefaultAllowedCapabilities, Security.confirms trustTier bit = false →
      envelope.confirms bit

/-! ## The access list of one exchange -/

theorem mem_storedList (bits : List RelayCapabilityBit) (bit : RelayCapabilityBit) :
    bit ∈ (storedList bits).getD [] ↔ bit ∈ bits := by
  unfold storedList
  split
  · rename_i h
    simp [h]
  · rfl

theorem mem_nodeBits_storedList (values : Option (List String)) (bit : RelayCapabilityBit) :
    bit ∈ nodeBits (storedList (normalizeField values)) ↔
      bit.val ∈ values.getD [] ∧ isNodeBit bit = true := by
  rw [nodeBits, mem_filter, mem_normalizeCapabilityBits_val, mem_storedList, normalizeField,
    mem_normalizeCapabilityBits]

theorem isNodeBit_legacyDefault :
    ∀ bit ∈ legacyDefaultAllowedCapabilities, isNodeBit bit = true := by
  decide

section Acl

variable {nodeId credentialId displayName : String} {trustTier : RelayTrustTier} {now : ℤ}

theorem mem_grants_createLegacyDefaultNodeAcl (bit : RelayCapabilityBit) :
    bit ∈ (createLegacyDefaultNodeAcl nodeId credentialId displayName trustTier
        now).grants.allowed ↔
      bit ∈ legacyDefaultAllowedCapabilities ∧ Security.confirms trustTier bit = false := by
  rw [createLegacyDefaultNodeAcl]
  simp

theorem settled_createNodeAclForPairToken (pairToken : StoredPairToken) :
    (createNodeAclForPairToken pairToken nodeId credentialId displayName now).Settled := by
  unfold createNodeAclForPairToken
  dsimp only
  split
  · exact settled_applyTrustTierOverlay _
  · exact settled_applyTrustTierOverlay _

theorem peer_createNodeAclForPairToken (pairToken : StoredPairToken) :
    (createNodeAclForPairToken pairToken nodeId credentialId displayName now).peer =
      ⟨nodeId, some credentialId, some displayName⟩ := by
  unfold createNodeAclForPairToken
  dsimp only
  split <;> rfl

/-- **The defaults.** Without a bit of its own that a node can hold, the allowed list of the
    token gives way to the default list. -/
theorem mem_grants_createNodeAclForPairToken (nodeId credentialId displayName : String) (now : ℤ)
    (pairToken : StoredPairToken) (bit : RelayCapabilityBit) :
    let allowed := nodeBits pairToken.allowedCapabilities
    let required := nodeBits pairToken.requiresConfirmationCapabilities
    let tier := pairToken.trustTier.getD .dev
    let grants := (createNodeAclForPairToken pairToken nodeId credentialId displayName now).grants
    (allowed ≠ [] →
      ((bit ∈ grants.allowed ∨ bit ∈ grants.requiresConfirmation) ↔
        (bit ∈ allowed ∨ bit ∈ required)) ∧
      (bit ∈ grants.allowed → bit ∉ required)) ∧
    (allowed = [] → required ≠ [] →
      ((bit ∈ grants.allowed ∨ bit ∈ grants.requiresConfirmation) ↔
        ((bit ∈ legacyDefaultAllowedCapabilities ∧ Security.confirms tier bit = false) ∨
          bit ∈ required)) ∧
      (bit ∈ grants.allowed → bit ∉ required)) ∧
    (allowed = [] → required = [] →
      (bit ∈ grants.allowed ↔
        bit ∈ legacyDefaultAllowedCapabilities ∧ Security.confirms tier bit = false)) := by
  unfold createNodeAclForPairToken
  refine ⟨?_, ?_, ?_⟩
  · intro hallowed
    rw [if_neg (fun h => hallowed h.1), if_neg hallowed]
    refine ⟨by rw [mem_grants_applyTrustTierOverlay], ?_⟩
    rw [mem_allowed_applyTrustTierOverlay]
    exact fun h => h.2.1
  · intro hallowed hrequired
    rw [if_neg (fun h => hrequired h.2), if_pos hallowed]
    refine ⟨?_, ?_⟩
    · rw [mem_grants_applyTrustTierOverlay, mem_grants_createLegacyDefaultNodeAcl]
    · rw [mem_allowed_applyTrustTierOverlay]
      exact fun h => h.2.1
  · intro hallowed hrequired
    rw [if_pos ⟨hallowed, hrequired⟩]
    exact mem_grants_createLegacyDefaultNodeAcl bit

end Acl

theorem grants_publicNode_newNode (c : Crypto) (draw : NodeDraw)
    (displayName protocolVersion : String) (key : Option BoundKey) {acl : RelayNodeAcl} (now : ℤ)
    (hacl : acl.Settled)
    (hpeer : acl.peer = ⟨draw.nodeId, some draw.credential.credentialId, some displayName⟩) :
    (publicNode (newNode c draw displayName protocolVersion key acl now)).grants = acl.grants := by
  have hensure : ensureNodeAcl (newNode c draw displayName protocolVersion key acl now) = acl :=
    hacl.normalize displayName hpeer
  rw [publicNode, hensure]
  exact congrArg (·.grants) hacl.overlay

theorem grants_publicNode_exchangedNode (c : Crypto) (pairToken : StoredPairToken)
    (input : PairExchangeInput) (now : ℤ) (draw : NodeDraw) :
    ∃ name, (publicNode (exchangedNode c pairToken input now draw)).grants =
      (createNodeAclForPairToken pairToken draw.nodeId draw.credential.credentialId name
        now).grants :=
  ⟨_, grants_publicNode_newNode c draw _ _ _ now (settled_createNodeAclForPairToken pairToken)
    (peer_createNodeAclForPairToken pairToken)⟩

variable {options : PairTokenOptions} {input : PairExchangeInput} {pairToken : StoredPairToken}
  {draw : PairTokenDraw}

/-- **One exchange.** The new node stays within the envelope exactly when the envelope covers the
    defaults that stand in for an empty list. -/
theorem within_iff_covers (c : Crypto)
    {envelope : PairTokenCapabilityEnvelope}
    (henvelope : options.capabilityEnvelope = some envelope)
    (minted : ℤ) (mintDraw : PairTokenDraw) (used : Option ℤ) (input : PairExchangeInput) (now : ℤ)
    (draw : NodeDraw) :
    Within envelope (publicNode (exchangedNode c
        { storedPairToken c options minted mintDraw with usedAt := used } input now draw)).grants ↔
      Covers envelope (options.trustTier.getD .dev) := by
  set stored : StoredPairToken :=
    { storedPairToken c options minted mintDraw with usedAt := used } with hstored
  obtain ⟨name, hgrants⟩ := grants_publicNode_exchangedNode c stored input now draw
  rw [hgrants]
  have hallowed : ∀ bit, bit ∈ nodeBits stored.allowedCapabilities ↔
      envelope.allows bit ∧ isNodeBit bit = true := by
    intro bit
    rw [hstored, storedPairToken, henvelope]
    exact mem_nodeBits_storedList envelope.allowed bit
  have hrequired : ∀ bit, bit ∈ nodeBits stored.requiresConfirmationCapabilities ↔
      envelope.confirms bit ∧ isNodeBit bit = true := by
    intro bit
    rw [hstored, storedPairToken, henvelope]
    exact mem_nodeBits_storedList envelope.requiresConfirmation bit
  have htier : stored.trustTier = options.trustTier := rfl
  have hbits := mem_grants_createNodeAclForPairToken draw.nodeId draw.credential.credentialId name
    now stored
  by_cases hsome : nodeBits stored.allowedCapabilities = []
  · -- nothing a node can hold is allowed: the default list takes over
    have hnone : ¬∃ bit, envelope.allows bit ∧ isNodeBit bit = true := by
      rintro ⟨bit, hbit⟩
      have := (hallowed bit).mpr hbit
      rw [hsome] at this
      cases this
    by_cases hconfirm : nodeBits stored.requiresConfirmationCapabilities = []
    · constructor
      · intro h
        refine .inr fun bit hbit hsilent => ?_
        obtain hlist | hlist :=
          h.listed bit (.inl (((hbits bit).2.2 hsome hconfirm).mpr ⟨hbit, hsilent⟩))
        · exact absurd ⟨bit, hlist, isNodeBit_legacyDefault bit hbit⟩ hnone
        · exact hlist
      · rintro (h | h)
        · exact absurd h hnone
        · have hread : (⟨"session:read", by decide⟩ : RelayCapabilityBit) ∈
              nodeBits stored.requiresConfirmationCapabilities :=
            (hrequired _).mpr ⟨h _ (by decide) (by cases options.trustTier.getD .dev <;> decide),
              by decide⟩
          rw [hconfirm] at hread
          cases hread
    · constructor
      · intro h
        refine .inr fun bit hbit hsilent => ?_
        obtain hlist | hlist :=
          h.listed bit (((hbits bit).2.1 hsome hconfirm).1.mpr (.inl ⟨hbit, hsilent⟩))
        · exact absurd ⟨bit, hlist, isNodeBit_legacyDefault bit hbit⟩ hnone
        · exact hlist
      · rintro (h | h)
        · exact absurd h hnone
        · refine ⟨fun bit hbit => .inr ?_, fun bit hlist _ hmem => ?_⟩
          · obtain ⟨hdefault, hsilent⟩ | hlist := ((hbits bit).2.1 hsome hconfirm).1.mp hbit
            · exact h bit hdefault hsilent
            · exact ((hrequired bit).mp hlist).1
          · have hnode : isNodeBit bit = true := by
              obtain ⟨hdefault, -⟩ | hreq :=
                ((hbits bit).2.1 hsome hconfirm).1.mp (.inl hmem)
              · exact isNodeBit_legacyDefault bit hdefault
              · exact ((hrequired bit).mp hreq).2
            exact ((hbits bit).2.1 hsome hconfirm).2 hmem ((hrequired bit).mpr ⟨hlist, hnode⟩)
  · constructor
    · intro _
      obtain ⟨bit, hbit⟩ := exists_mem_of_ne_nil _ hsome
      exact .inl ⟨bit, (hallowed bit).mp hbit⟩
    · intro _
      refine ⟨fun bit hbit => ?_, fun bit hlist _ hmem => ?_⟩
      · obtain hlist | hlist := ((hbits bit).1 hsome).1.mp hbit
        · exact .inl ((hallowed bit).mp hlist).1
        · exact .inr ((hrequired bit).mp hlist).1
      · have hnode : isNodeBit bit = true := by
          obtain hlist' | hreq := ((hbits bit).1 hsome).1.mp (.inl hmem)
          · exact ((hallowed bit).mp hlist').2
          · exact ((hrequired bit).mp hreq).2
        exact ((hbits bit).1 hsome).2 hmem ((hrequired bit).mpr ⟨hlist, hnode⟩)

/-! ## One call -/

section Call

variable (c : Crypto)

def mintResponse (options : PairTokenOptions) (now : ℤ) (draw : PairTokenDraw) :
    PairTokenResponse where
  tokenId := randomToken "pt" draw.tokenId
  pairToken := randomToken "pair" draw.pairToken
  expiresAt := now + options.ttlMs.getD defaultPairTokenTtlMs

theorem redeemablePairToken_eq_ok {s : RegistryFile} {now : ℤ}
    (h : redeemablePairToken c s input now = .ok pairToken) :
    (s.pairTokens.find? fun t => decide (t.tokenHash = c.sha256 input.pairToken)) = some pairToken ∧
      pairToken.usedAt = none ∧ now < pairToken.expiresAt := by
  unfold redeemablePairToken at h
  split at h
  · cases h
  · split at h
    · cases h
    · rename_i stored hfind
      split at h
      · cases h
      · rename_i hrefusal
        obtain rfl : stored = pairToken := Except.ok.inj h
        unfold pairTokenRefusal at hrefusal
        split_ifs at hrefusal with hused hexpired
        exact ⟨hfind, by simpa using hused, not_le.mp hexpired⟩

/-- **What a call does to the tokens.** It mints one, exchanges one, or leaves them alone. -/
theorem pairTokens_step (w : World) (op : Timed) :
    (∃ options draw, op.call = .createPairToken options draw ∧
      (step c w op).registry.state.pairTokens =
        w.registry.state.pairTokens ++ [storedPairToken c options op.now draw] ∧
      (entryOf c w op).minted = some (options, mintResponse options op.now draw) ∧
      (entryOf c w op).exchanged = none) ∨
    (∃ input draw pairToken, op.call = .exchangePairToken input draw ∧
      redeemablePairToken c w.registry.state input op.now = .ok pairToken ∧
      (step c w op).registry.state.pairTokens =
        modifyFirst (fun t => decide (t.tokenHash = c.sha256 input.pairToken))
          (fun t => { t with usedAt := some op.now }) w.registry.state.pairTokens ∧
      (entryOf c w op).minted = none ∧
      (entryOf c w op).exchanged =
        some (input.pairToken, publicNode (exchangedNode c pairToken input op.now draw))) ∨
    ((step c w op).registry.state.pairTokens = w.registry.state.pairTokens ∧
      (entryOf c w op).minted = none ∧ (entryOf c w op).exchanged = none ∧
      ∀ input draw, op.call = .exchangePairToken input draw →
        ∀ pairToken, redeemablePairToken c w.registry.state input op.now ≠ .ok pairToken) := by
  obtain ⟨call, now⟩ := op
  cases call with
  | createPairToken options draw =>
    refine .inl ⟨options, draw, rfl, ?_, rfl, rfl⟩
    rfl
  | exchangePairToken input draw =>
    cases hredeem : redeemablePairToken c w.registry.state input now with
    | error e =>
      have hout : exchangePairToken c w.registry.state input now draw =
          .refuse w.registry.state e := by
        rw [exchangePairToken, hredeem]
      refine .inr (.inr ⟨?_, rfl, ?_, ?_⟩)
      · rw [step]
        simp only [run, hout]
        rfl
      · simp [entryOf, CallRecord.exchanged, run, hout, HubNodeRegistry.respond, Outcome.map,
          Outcome.refuse, Except.map]
      · rintro input' draw' heq pairToken hok
        obtain ⟨rfl, -⟩ := RegistryCall.exchangePairToken.inj heq
        rw [hredeem] at hok
        cases hok
    | ok pairToken =>
      refine .inr (.inl ⟨input, draw, pairToken, rfl, hredeem, ?_, rfl, ?_⟩)
      · rw [step]
        simp only [run, exchangePairToken, hredeem]
        rfl
      · simp [entryOf, CallRecord.exchanged, run, exchangePairToken, hredeem,
          HubNodeRegistry.respond, Outcome.map, Outcome.persist, Except.map]
  | submitPendingPairingRequest _ _ | listPendingPairingRequests _ | getPendingPairingRequest _
  | findPendingPairingRequestByDeviceCode _ | editPendingPairingAccess _ _
  | approvePendingPairingRequest _ _ | denyPendingPairingRequest _ =>
    exact .inr (.inr ⟨(frame_onRequests c _ _ rfl).1, rfl, rfl, fun _ _ h => by cases h⟩)
  | pollPendingPairingRequest requestId statusToken draw =>
    refine .inr (.inr ⟨?_, rfl, rfl, fun _ _ h => by cases h⟩)
    rw [step]
    simp only [run, state_respond]
    exact pairTokens_poll c _ _ _ _ _
  | onNode nodeId call =>
    refine .inr (.inr ⟨?_, rfl, rfl, fun _ _ h => by cases h⟩)
    rw [step]
    simp only [run, state_respond]
    exact (frame_onNode c _ _ _ _).1
  | authenticateCredential token strictDeny =>
    refine .inr (.inr ⟨?_, rfl, rfl, fun _ _ h => by cases h⟩)
    rw [step]
    simp [run, state_authenticateCredentialDetailed]
  | authenticateNodeLink token context =>
    refine .inr (.inr ⟨?_, rfl, rfl, fun _ _ h => by cases h⟩)
    rw [step]
    simp only [run, state_authenticateNodeLinkWithProof]
  | flushPendingHeartbeatPersist =>
    refine .inr (.inr ⟨?_, rfl, rfl, fun _ _ h => by cases h⟩)
    rw [step]
    simp [run]

end Call

/-! ## Runs -/

structure TokenInv (c : Crypto) (w : World) : Prop where
  freshLog : FreshLog w.log
  minted : ∀ mint ∈ w.log, ∀ options response, mint.minted = some (options, response) →
    ∃ draw, mint.call = .createPairToken options draw ∧
      response = mintResponse options mint.now draw
  stored : ∀ t ∈ w.registry.state.pairTokens, ∃ mint ∈ w.log, ∃ options draw,
    mint.call = .createPairToken options draw ∧
      mint.minted = some (options, mintResponse options mint.now draw) ∧
      t = { storedPairToken c options mint.now draw with usedAt := t.usedAt }
  digests : (w.registry.state.pairTokens.map (·.tokenHash)).Nodup
  unused : ∀ t ∈ w.registry.state.pairTokens, t.usedAt = none →
    ∀ entry ∈ w.log, ∀ token node, entry.exchanged = some (token, node) →
      c.sha256 token ≠ t.tokenHash
  single : SingleUse w.log

/-- The exchanges that stay within their envelope: a token that can be exchanged was minted
    without an envelope or with one that covers the defaults. -/
def Covered (c : Crypto) (w : World) (op : Timed) : Prop :=
  ∀ input draw, op.call = .exchangePairToken input draw →
    ∀ pairToken, redeemablePairToken c w.registry.state input op.now = .ok pairToken →
      ∀ mint ∈ w.log, ∀ options response, mint.minted = some (options, response) →
        response.pairToken = input.pairToken →
          ∀ envelope, options.capabilityEnvelope = some envelope →
            Covers envelope (options.trustTier.getD .dev)

theorem tokenInv_start (c : Crypto) : TokenInv c World.start where
  freshLog := List.Pairwise.nil
  minted := by simp [World.start]
  stored := by simp [World.start, HubNodeRegistry.load, emptyRegistryFile]
  digests := nodup_nil
  unused := by simp [World.start]
  single := ⟨nodup_nil, by simp [World.start]⟩

section Step

variable {c : Crypto} {w : World} {op : Timed}

theorem TokenInv.mint_unique (h : TokenInv c w) {a b : CallRecord} (ha : a ∈ w.log)
    (hb : b ∈ w.log) {optionsA optionsB : PairTokenOptions}
    {responseA responseB : PairTokenResponse} (hma : a.minted = some (optionsA, responseA))
    (hmb : b.minted = some (optionsB, responseB))
    (htoken : responseA.pairToken = responseB.pairToken) : a = b := by
  obtain ⟨drawA, hcallA, rfl⟩ := h.minted a ha _ _ hma
  obtain ⟨drawB, hcallB, rfl⟩ := h.minted b hb _ _ hmb
  have hdraw : drawA.pairToken = drawB.pairToken := randomToken_inj htoken
  apply h.freshLog.eq ha hb drawA.pairToken
  · rw [hcallA]
    exact mem_cons_self
  · rw [hcallB, hdraw]
    exact mem_cons_self

theorem TokenInv.hash_ne (h : TokenInv c w) (hinj : Injective c.sha256)
    (hop : Admissible w op) (hcall : op.call = .createPairToken options draw) {t : StoredPairToken}
    (ht : t ∈ w.registry.state.pairTokens) :
    t.tokenHash ≠ c.sha256 (randomToken "pair" draw.pairToken) := by
  intro heq
  obtain ⟨mint, hmint, options', draw', hcall', -, hstored⟩ := h.stored t ht
  rw [hstored] at heq
  have hdraw : draw'.pairToken = draw.pairToken := randomToken_inj (hinj heq)
  apply hop.fresh mint hmint draw.pairToken
  · rw [hcall]
    exact mem_cons_self
  · rw [hcall', ← hdraw]
    exact mem_cons_self

theorem singleUse_of_none (h : SingleUse w.log) (hnone : (entryOf c w op).exchanged = none) :
    SingleUse (step c w op).log := by
  constructor
  · rw [log_step, filterMap_append]
    have hnil : List.filterMap (fun entry => entry.exchanged) [entryOf c w op] = [] := by
      simp [hnone]
    rw [hnil]
    simpa using h.once
  · intro entry hentry token node hexchanged
    obtain hold | rfl := mem_log_step.mp hentry
    · obtain ⟨mint, hmint, rest⟩ := h.inTime entry hold token node hexchanged
      exact ⟨mint, mem_log_step.mpr (.inl hmint), rest⟩
    · rw [hnone] at hexchanged
      cases hexchanged

end Step

section Step

variable {c : Crypto} {w : World} {op : Timed}

theorem tokenInv_mint (h : TokenInv c w) (hinj : Injective c.sha256)
    (hop : Admissible w op) (hcall : op.call = .createPairToken options draw)
    (htokens : (step c w op).registry.state.pairTokens =
      w.registry.state.pairTokens ++ [storedPairToken c options op.now draw])
    (hminted : (entryOf c w op).minted = some (options, mintResponse options op.now draw))
    (hnone : (entryOf c w op).exchanged = none) : TokenInv c (step c w op) where
  freshLog := freshLog_step c h.freshLog hop
  minted := by
    intro mint hmint options' response hsome
    obtain hold | rfl := mem_log_step.mp hmint
    · exact h.minted mint hold options' response hsome
    · rw [hminted] at hsome
      cases hsome
      exact ⟨draw, hcall, rfl⟩
  stored := by
    intro t ht
    rw [htokens, mem_append, mem_singleton] at ht
    obtain hold | rfl := ht
    · obtain ⟨mint, hmint, rest⟩ := h.stored t hold
      exact ⟨mint, mem_log_step.mpr (.inl hmint), rest⟩
    · exact ⟨entryOf c w op, mem_log_step.mpr (.inr rfl), options, draw, hcall, hminted, rfl⟩
  digests := by
    rw [htokens, map_append]
    refine nodup_append.mpr ⟨h.digests, by simp, ?_⟩
    rintro digest hdigest other hother rfl
    obtain ⟨t, ht, rfl⟩ := mem_map.mp hdigest
    exact h.hash_ne hinj hop hcall ht (mem_singleton.mp hother)
  unused := by
    intro t ht hunused entry hentry token node hexchanged
    obtain hentry | rfl := mem_log_step.mp hentry
    · rw [htokens, mem_append, mem_singleton] at ht
      obtain hold | rfl := ht
      · exact h.unused t hold hunused entry hentry token node hexchanged
      · -- an exchanged token was minted before, with other draws
        intro hhash
        obtain ⟨mint, hmint, options', response, hsome, rfl, -⟩ :=
          h.single.inTime entry hentry token node hexchanged
        obtain ⟨draw', hcall', rfl⟩ := h.minted mint hmint _ _ hsome
        have hdraw : draw'.pairToken = draw.pairToken := randomToken_inj (hinj hhash)
        apply hop.fresh mint hmint draw.pairToken
        · rw [hcall]
          exact mem_cons_self
        · rw [hcall', ← hdraw]
          exact mem_cons_self
    · rw [hnone] at hexchanged
      cases hexchanged
  single := singleUse_of_none h.single hnone

theorem tokenInv_exchange (h : TokenInv c w) (hinj : Injective c.sha256)
    (hop : Admissible w op)
    {node : HubNodeSummary}
    (hredeem : redeemablePairToken c w.registry.state input op.now = .ok pairToken)
    (htokens : (step c w op).registry.state.pairTokens =
      modifyFirst (fun t => decide (t.tokenHash = c.sha256 input.pairToken))
        (fun t => { t with usedAt := some op.now }) w.registry.state.pairTokens)
    (hnone : (entryOf c w op).minted = none)
    (hexchanged : (entryOf c w op).exchanged = some (input.pairToken, node)) :
    TokenInv c (step c w op) := by
  obtain ⟨hfind, hunused, hnow⟩ := redeemablePairToken_eq_ok c hredeem
  have hmem : pairToken ∈ w.registry.state.pairTokens := mem_of_find?_eq_some hfind
  have hhash : pairToken.tokenHash = c.sha256 input.pairToken := by
    simpa using find?_some hfind
  have hmap : (step c w op).registry.state.pairTokens =
      w.registry.state.pairTokens.map fun t =>
        if t.tokenHash = c.sha256 input.pairToken then { t with usedAt := some op.now } else t := by
    rw [htokens]
    exact modifyFirst_eq_map h.digests _
  refine
    { freshLog := freshLog_step c h.freshLog hop
      minted := ?_
      stored := ?_
      digests := ?_
      unused := ?_
      single := ⟨?_, ?_⟩ }
  · intro mint hmint options response hsome
    obtain hold | rfl := mem_log_step.mp hmint
    · exact h.minted mint hold options response hsome
    · rw [hnone] at hsome
      cases hsome
  · intro t ht
    rw [hmap, mem_map] at ht
    obtain ⟨old, hold, rfl⟩ := ht
    obtain ⟨mint, hmint, options, draw, hcall, hminted, hstored⟩ := h.stored old hold
    refine ⟨mint, mem_log_step.mpr (.inl hmint), options, draw, hcall, hminted, ?_⟩
    split
    · rw [hstored]
    · exact hstored
  · have hkeys : (step c w op).registry.state.pairTokens.map (·.tokenHash) =
        w.registry.state.pairTokens.map (·.tokenHash) := by
      rw [htokens]
      apply map_modifyFirst
      exact fun t _ => rfl
    rw [hkeys]
    exact h.digests
  · intro t ht hunusedT entry hentry token' node' hexchanged'
    rw [hmap, mem_map] at ht
    obtain ⟨old, hold, rfl⟩ := ht
    split at hunusedT
    · cases hunusedT
    · rename_i hother
      rw [if_neg hother]
      obtain hentry | rfl := mem_log_step.mp hentry
      · exact h.unused old hold hunusedT entry hentry token' node' hexchanged'
      · rw [hexchanged] at hexchanged'
        cases hexchanged'
        exact fun heq => hother heq.symm
  · -- the token was unused, so no exchange of it is in the log
    rw [log_step, filterMap_append, map_append]
    have hlast : List.filterMap (fun entry => entry.exchanged) [entryOf c w op] =
        [(input.pairToken, node)] := by
      simp [hexchanged]
    rw [hlast]
    refine nodup_append.mpr ⟨h.single.once, by simp, ?_⟩
    rintro token htoken other hother rfl
    obtain ⟨⟨token', node'⟩, hpair, rfl⟩ := mem_map.mp htoken
    obtain ⟨entry, hentry, hentryExchanged⟩ := mem_filterMap.mp hpair
    apply h.unused pairToken hmem hunused entry hentry token' node' hentryExchanged
    rw [hhash]
    exact congrArg c.sha256 (mem_singleton.mp hother)
  · intro entry hentry token' node' hexchanged'
    obtain hentry | rfl := mem_log_step.mp hentry
    · obtain ⟨mint, hmint, rest⟩ := h.single.inTime entry hentry token' node' hexchanged'
      exact ⟨mint, mem_log_step.mpr (.inl hmint), rest⟩
    · rw [hexchanged] at hexchanged'
      cases hexchanged'
      obtain ⟨mint, hmint, options, draw, hcall, hminted, hstored⟩ := h.stored pairToken hmem
      refine ⟨mint, mem_log_step.mpr (.inl hmint), options, _, hminted, ?_, ?_⟩
      · rw [hstored] at hhash
        exact hinj hhash
      · rw [hstored] at hnow
        exact hnow

theorem tokenInv_other (h : TokenInv c w) (hop : Admissible w op)
    (htokens : (step c w op).registry.state.pairTokens = w.registry.state.pairTokens)
    (hminted : (entryOf c w op).minted = none) (hnone : (entryOf c w op).exchanged = none) :
    TokenInv c (step c w op) where
  freshLog := freshLog_step c h.freshLog hop
  minted := by
    intro mint hmint options response hsome
    obtain hold | rfl := mem_log_step.mp hmint
    · exact h.minted mint hold options response hsome
    · rw [hminted] at hsome
      cases hsome
  stored := by
    intro t ht
    rw [htokens] at ht
    obtain ⟨mint, hmint, rest⟩ := h.stored t ht
    exact ⟨mint, mem_log_step.mpr (.inl hmint), rest⟩
  digests := by
    rw [htokens]
    exact h.digests
  unused := by
    intro t ht hunused entry hentry token node hexchanged
    rw [htokens] at ht
    obtain hold | rfl := mem_log_step.mp hentry
    · exact h.unused t ht hunused entry hold token node hexchanged
    · rw [hnone] at hexchanged
      cases hexchanged
  single := singleUse_of_none h.single hnone

/-- The stored pair tokens stay those that were minted. -/
theorem tokenInv_step (hinj : Injective c.sha256) (h : TokenInv c w)
    (hop : Admissible w op) : TokenInv c (step c w op) := by
  obtain ⟨options, draw, hcall, htokens, hminted, hnone⟩ |
    ⟨input, draw, pairToken, -, hredeem, htokens, hnone, hexchanged⟩ |
    ⟨htokens, hminted, hnone, -⟩ := pairTokens_step c w op
  · exact tokenInv_mint h hinj hop hcall htokens hminted hnone
  · exact tokenInv_exchange h hinj hop hredeem htokens hnone hexchanged
  · exact tokenInv_other h hop htokens hminted hnone

/-- **The envelope over one call.** The log stays within the envelopes exactly when the call is
    covered. -/
theorem enveloped_step_iff (hinj : Injective c.sha256) (h : TokenInv c w)
    (henveloped : Enveloped w.log) (hop : Admissible w op) :
    Enveloped (step c w op).log ↔ Covered c w op := by
  have hstep : TokenInv c (step c w op) := tokenInv_step hinj h hop
  obtain ⟨options, draw, hcall, htokens, hminted, hnone⟩ |
    ⟨input, draw, pairToken, hcall, hredeem, htokens, hnone, hexchanged⟩ |
    ⟨htokens, hminted, hnone, hrefused⟩ := pairTokens_step c w op
  · refine iff_of_true ?_ ?_
    · intro entry hentry token node hexchanged mint hmint options' response hsome hpair
      obtain hentry | rfl := mem_log_step.mp hentry
      · -- the mint of an exchanged token is an earlier one
        obtain ⟨mint', hmint', options'', response', hsome', hpair', -⟩ :=
          h.single.inTime entry hentry token node hexchanged
        have heq := hstep.mint_unique hmint (mem_log_step.mpr (.inl hmint')) hsome hsome'
          (hpair.trans hpair'.symm)
        subst heq
        exact henveloped entry hentry token node hexchanged mint hmint' options' response hsome
          hpair
      · rw [hnone] at hexchanged
        cases hexchanged
    · intro input draw' heq
      rw [hcall] at heq
      cases heq
  · obtain ⟨hfind, -, -⟩ := redeemablePairToken_eq_ok c hredeem
    have hhash : pairToken.tokenHash = c.sha256 input.pairToken := by
      simpa using find?_some hfind
    obtain ⟨origin, horigin, options, mintDraw, -, hminted, hstored⟩ :=
      h.stored pairToken (mem_of_find?_eq_some hfind)
    have htoken : randomToken "pair" mintDraw.pairToken = input.pairToken := by
      rw [hstored] at hhash
      exact hinj hhash
    -- the envelope of this exchange is the one of the mint that stored the token
    have hown : ∀ envelope, options.capabilityEnvelope = some envelope →
        (Within envelope (publicNode (exchangedNode c pairToken input op.now draw)).grants ↔
          Covers envelope (options.trustTier.getD .dev)) := by
      intro envelope henvelope
      rw [hstored]
      exact within_iff_covers c henvelope origin.now mintDraw pairToken.usedAt input op.now draw
    constructor
    · intro hnew input' draw' heq pairToken' _ mint hmint options' response hsome hpair
      rw [hcall] at heq
      obtain ⟨rfl, rfl⟩ := RegistryCall.exchangePairToken.inj heq
      have heq := h.mint_unique hmint horigin hsome hminted (hpair.trans htoken.symm)
      subst heq
      rw [hminted] at hsome
      cases hsome
      intro envelope henvelope
      exact (hown envelope henvelope).mp
        (hnew _ (mem_log_step.mpr (.inr rfl)) _ _ hexchanged mint
          (mem_log_step.mpr (.inl hmint)) _ _ hminted htoken envelope henvelope)
    · intro hcovered entry hentry token node hentryExchanged mint hmint options' response hsome
      have hmint : mint ∈ w.log := by
        obtain hmint | rfl := mem_log_step.mp hmint
        · exact hmint
        · rw [hnone] at hsome
          cases hsome
      obtain hentry | rfl := mem_log_step.mp hentry
      · exact henveloped entry hentry token node hentryExchanged mint hmint options' response hsome
      · rw [hexchanged] at hentryExchanged
        cases hentryExchanged
        intro hpair envelope henvelope
        have hcovers := hcovered input draw hcall pairToken hredeem mint hmint options' response
          hsome hpair envelope henvelope
        have heq := h.mint_unique hmint horigin hsome hminted (hpair.trans htoken.symm)
        subst heq
        rw [hminted] at hsome
        cases hsome
        exact (hown envelope henvelope).mpr hcovers
  · refine iff_of_true ?_ ?_
    · intro entry hentry token node hexchanged mint hmint options' response hsome
      obtain hentry | rfl := mem_log_step.mp hentry
      · obtain hmint | rfl := mem_log_step.mp hmint
        · exact henveloped entry hentry token node hexchanged mint hmint options' response hsome
        · rw [hminted] at hsome
          cases hsome
      · rw [hnone] at hexchanged
        cases hexchanged
    · intro input draw hcall pairToken hredeem
      exact absurd hredeem (hrefused input draw hcall pairToken)

end Step

/-- **Pair tokens.** In every admissible run tokens are exchanged once and in time, and the nodes
    stay within the envelopes all along exactly when each exchange is covered. -/
theorem pairTokens_of_run {c : Crypto} (hinj : Injective c.sha256) {ops : List Timed}
    (hops : Guarded (step c) Admissible World.start ops) :
    SingleUse (exec (step c) World.start ops).log ∧
      ((∀ pre, pre <+: ops → Enveloped (exec (step c) World.start pre).log) ↔
        Guarded (step c) (Covered c) World.start ops) := by
  have hstep : ∀ w op, TokenInv c w → Admissible w op → TokenInv c (step c w op) :=
    fun w op h hop => tokenInv_step hinj h hop
  constructor
  · exact (exec_invariant_of_guarded hstep (tokenInv_start c) hops).single
  · refine forall_prefix_iff_guarded_of
      (I := fun w => TokenInv c w ∧ Enveloped w.log) (fun w h => h.2) ?_ ?_
      ⟨tokenInv_start c, by simp [Enveloped, World.start]⟩ hops
    · rintro w op ⟨h, henveloped⟩ hop hcovered
      exact ⟨tokenInv_step hinj h hop, (enveloped_step_iff hinj h henveloped hop).mpr hcovered⟩
    · rintro w op ⟨h, henveloped⟩ hop hnew
      exact (enveloped_step_iff hinj h henveloped hop).mp hnew

def envelopeRun (envelope : PairTokenCapabilityEnvelope) : List Timed :=
  [⟨.createPairToken { capabilityEnvelope := some envelope } mintDraw, 0⟩,
    ⟨.exchangePairToken { pairToken := "pair_A" } nodeDraw, 1⟩]

/-- A token that may only read sessions creates a node that may only read sessions. -/
theorem pairTokens_of_readRun :
    SingleUse (exec (step keylessCrypto) World.start
      (envelopeRun { allowed := some ["session:read", "node:pair-token:create"] })).log ∧
    Enveloped (exec (step keylessCrypto) World.start
      (envelopeRun { allowed := some ["session:read", "node:pair-token:create"] })).log := by
  have hops : Guarded (step keylessCrypto) Admissible World.start
      (envelopeRun { allowed := some ["session:read", "node:pair-token:create"] }) := by
    decide
  obtain ⟨hsingle, henveloped⟩ := pairTokens_of_run digestOf_injective hops
  refine ⟨hsingle, henveloped.mpr ⟨?_, ?_, trivial⟩ _ (prefix_refl _)⟩
  · intro input draw hcall
    cases hcall
  · intro input draw hcall pairToken _ mint hmint options response hminted _ envelope henvelope
    obtain rfl := mem_singleton.mp hmint
    cases hminted
    cases henvelope
    exact .inl ⟨⟨"session:read", by decide⟩, mem_cons_self, by decide⟩

def confirmWrites : PairTokenCapabilityEnvelope :=
  { requiresConfirmation := some ["rpc:fs:write"] }

/-- A token that lists a capability only for confirmation creates a node with the defaults. -/
theorem defaults_beyond_envelope :
    Guarded (step keylessCrypto) Admissible World.start (envelopeRun confirmWrites) ∧
      ¬Enveloped (exec (step keylessCrypto) World.start (envelopeRun confirmWrites)).log := by
  refine ⟨by decide, ?_⟩
  intro h
  set mint : Timed :=
    ⟨.createPairToken { capabilityEnvelope := some confirmWrites } mintDraw, 0⟩
  set exchange : Timed := ⟨.exchangePairToken { pairToken := "pair_A" } nodeDraw, 1⟩
  have hnode : ((entryOf keylessCrypto (step keylessCrypto World.start mint) exchange).exchanged.map
      fun pair => (pair.1, decide ((⟨"session:read", by decide⟩ : RelayCapabilityBit) ∈
        pair.2.grants.allowed))) = some ("pair_A", true) := by
    decide
  obtain ⟨⟨token, node⟩, hexchanged, hpair⟩ := Option.map_eq_some_iff.mp hnode
  obtain ⟨rfl, hread⟩ := Prod.mk.inj hpair
  -- reading sessions is in neither list of the envelope
  have hwithin := h _ (mem_cons_of_mem _ mem_cons_self) "pair_A" node hexchanged
    (entryOf keylessCrypto World.start mint) mem_cons_self _ _ rfl rfl _ rfl
  obtain hlist | hlist := hwithin.listed _ (.inl (of_decide_eq_true hread))
  · exact absurd hlist (by decide)
  · exact absurd hlist (by decide)

end RelayIde.Nodes
