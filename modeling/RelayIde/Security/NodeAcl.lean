import RelayIde.Security.Scope

/-!
# Node Access Lists

The capability lists of a paired node: `shared/security-policy.ts`.

- `RelayNodeAcl.Settled` — a list that normalizing leaves alone
-/

namespace RelayIde.Security

open List

/-! ## Lists of capabilities -/

def addCapabilityBit (normalized : List RelayCapabilityBit) (value : String) :
    List RelayCapabilityBit :=
  if h : value ∈ relayCapabilityBits then
    if ⟨value, h⟩ ∈ normalized then normalized else normalized ++ [⟨value, h⟩]
  else normalized

/-- Unknown values are skipped here, unlike in `normalizeCapabilities`. -/
def normalizeCapabilityBits (values : List String) : List RelayCapabilityBit :=
  values.foldl addCapabilityBit []

theorem mem_addCapabilityBit (normalized : List RelayCapabilityBit) (value : String)
    (bit : RelayCapabilityBit) :
    bit ∈ addCapabilityBit normalized value ↔ bit ∈ normalized ∨ bit.val = value := by
  obtain ⟨text, htext⟩ := bit
  unfold addCapabilityBit
  split
  · rename_i hknown
    split
    · rename_i hseen
      constructor
      · exact .inl
      · rintro (hold | rfl)
        · exact hold
        · exact hseen
    · simp
  · rename_i hunknown
    constructor
    · exact .inl
    · rintro (hold | rfl)
      · exact hold
      · exact absurd htext hunknown

variable (values : List String)

theorem mem_foldl_addCapabilityBit (normalized : List RelayCapabilityBit)
    (bit : RelayCapabilityBit) :
    bit ∈ values.foldl addCapabilityBit normalized ↔ bit ∈ normalized ∨ bit.val ∈ values := by
  induction values generalizing normalized with
  | nil => simp
  | cons value values ih =>
    rw [foldl_cons, ih, mem_addCapabilityBit, mem_cons, or_assoc]

theorem mem_normalizeCapabilityBits (bit : RelayCapabilityBit) :
    bit ∈ normalizeCapabilityBits values ↔ bit.val ∈ values := by
  simp [normalizeCapabilityBits, mem_foldl_addCapabilityBit]

theorem mem_normalizeCapabilityBits_val (bits : List RelayCapabilityBit)
    (bit : RelayCapabilityBit) : bit ∈ normalizeCapabilityBits (bits.map (·.val)) ↔ bit ∈ bits := by
  rw [mem_normalizeCapabilityBits, mem_map]
  constructor
  · rintro ⟨other, hmem, heq⟩
    exact Subtype.ext heq ▸ hmem
  · exact fun hmem => ⟨bit, hmem, rfl⟩

theorem foldl_addCapabilityBit_of_nodup (bits normalized : List RelayCapabilityBit)
    (h : (normalized ++ bits).Nodup) :
    (bits.map (·.val)).foldl addCapabilityBit normalized = normalized ++ bits := by
  induction bits generalizing normalized with
  | nil => simp
  | cons bit bits ih =>
    have hnew : bit ∉ normalized := by
      intro hmem
      exact (nodup_append.mp h).2.2 bit hmem bit mem_cons_self rfl
    have hadd : addCapabilityBit normalized bit.val = normalized ++ [bit] := by
      rw [addCapabilityBit, dif_pos bit.property, if_neg hnew]
    rw [map_cons, foldl_cons, hadd, ih _ (by simpa using h)]
    simp

theorem normalizeCapabilityBits_of_nodup {bits : List RelayCapabilityBit} (h : bits.Nodup) :
    normalizeCapabilityBits (bits.map (·.val)) = bits := by
  simpa [normalizeCapabilityBits] using foldl_addCapabilityBit_of_nodup bits [] h

theorem nodup_addCapabilityBit {normalized : List RelayCapabilityBit} (h : normalized.Nodup)
    (value : String) : (addCapabilityBit normalized value).Nodup := by
  unfold addCapabilityBit
  split
  · split
    · exact h
    · rename_i hnew
      exact nodup_append.mpr ⟨h, by simp, by rintro a ha b hb rfl; simp_all⟩
  · exact h

theorem nodup_normalizeCapabilityBits (values : List String) :
    (normalizeCapabilityBits values).Nodup := by
  refine List.foldlRecOn values addCapabilityBit nodup_nil ?_
  intro normalized h value _
  exact nodup_addCapabilityBit h value

/-! ## Access lists -/

inductive RelayTrustTier
  | sandbox | dev | prod
deriving DecidableEq

structure RelayAclGrant where
  allowed : List RelayCapabilityBit
  requiresConfirmation : List RelayCapabilityBit

structure RelayAclPeerIdentity where
  nodeId : String
  credentialId : Option String
  displayName : Option String

structure RelayNodeAcl where
  ref : String
  peer : RelayAclPeerIdentity
  trustTier : RelayTrustTier
  grants : RelayAclGrant
  createdAt : ℤ
  updatedAt : ℤ

def legacyDefaultAllowedCapabilities : List RelayCapabilityBit :=
  [⟨"session:read", by decide⟩, ⟨"session:create:terminal", by decide⟩,
    ⟨"session:attach", by decide⟩, ⟨"session:control:kill", by decide⟩,
    ⟨"session:control:rename", by decide⟩, ⟨"rpc:fs:list", by decide⟩,
    ⟨"rpc:fs:read", by decide⟩, ⟨"rpc:fs:tail", by decide⟩, ⟨"rpc:git:read", by decide⟩,
    ⟨"logs:read", by decide⟩, ⟨"context:read", by decide⟩, ⟨"context:write", by decide⟩,
    ⟨"inbox:read", by decide⟩, ⟨"inbox:write", by decide⟩, ⟨"artifact:write", by decide⟩,
    ⟨"settings:read", by decide⟩, ⟨"integration:webhook:read", by decide⟩]

/-- The bits that the tier does not grant silently. -/
def confirms (trustTier : RelayTrustTier) (capability : RelayCapabilityBit) : Bool :=
  trustTier = .prod ∧ capability.val ∈ highRiskCapabilities

/-- The loop of `applyTrustTierOverlay`: the bits allowed silently so far, and those required. -/
def overlayBit (trustTier : RelayTrustTier)
    (lists : List RelayCapabilityBit × List RelayCapabilityBit) (capability : RelayCapabilityBit) :
    List RelayCapabilityBit × List RelayCapabilityBit :=
  if capability ∈ lists.2 then lists
  else if confirms trustTier capability then (lists.1, lists.2 ++ [capability])
  else (lists.1 ++ [capability], lists.2)

/-- The two lists of the result. -/
def overlayLists (trustTier : RelayTrustTier) (grants : RelayAclGrant) :
    List RelayCapabilityBit × List RelayCapabilityBit :=
  (normalizeCapabilityBits (grants.allowed.map (·.val))).foldl (overlayBit trustTier)
    ([], normalizeCapabilityBits (grants.requiresConfirmation.map (·.val)))

def applyTrustTierOverlay (acl : RelayNodeAcl) : RelayNodeAcl :=
  { acl with
    grants :=
      { allowed := (overlayLists acl.trustTier acl.grants).1
        requiresConfirmation := (overlayLists acl.trustTier acl.grants).2 } }

/-- `createLegacyDefaultNodeAcl`, for the callers that give every field. -/
def createLegacyDefaultNodeAcl (nodeId credentialId displayName : String)
    (trustTier : RelayTrustTier) (createdAt : ℤ) : RelayNodeAcl :=
  applyTrustTierOverlay
    { ref := "acl:" ++ nodeId ++ ":1.0"
      peer := { nodeId, credentialId := some credentialId, displayName := some displayName }
      trustTier
      grants := { allowed := legacyDefaultAllowedCapabilities, requiresConfirmation := [] }
      createdAt
      updatedAt := createdAt }

/-- `normalizeNodeAcl` of a list that has its fields. -/
def normalizeNodeAcl (acl : RelayNodeAcl) (nodeId credentialId displayName : String) :
    RelayNodeAcl :=
  applyTrustTierOverlay
    { acl with
      peer :=
        { nodeId, credentialId := some credentialId,
          displayName := some (acl.peer.displayName.getD displayName) }
      grants :=
        { allowed := normalizeCapabilityBits (acl.grants.allowed.map (·.val))
          requiresConfirmation :=
            normalizeCapabilityBits (acl.grants.requiresConfirmation.map (·.val)) } }

/-! ## What the overlay does -/

section Overlay

variable (trustTier : RelayTrustTier)

theorem mem_foldl_overlayBit (bits silent required : List RelayCapabilityBit)
    (hbits : bits.Nodup) (bit : RelayCapabilityBit) :
    (bit ∈ (bits.foldl (overlayBit trustTier) (silent, required)).1 ↔
      bit ∈ silent ∨ (bit ∈ bits ∧ bit ∉ required ∧ confirms trustTier bit = false)) ∧
    (bit ∈ (bits.foldl (overlayBit trustTier) (silent, required)).2 ↔
      bit ∈ required ∨ (bit ∈ bits ∧ confirms trustTier bit = true)) := by
  induction bits generalizing silent required with
  | nil => simp
  | cons head bits ih =>
    obtain ⟨hhead, hrest⟩ := nodup_cons.mp hbits
    rw [foldl_cons, overlayBit]
    split
    · -- an explicit confirmation bit is skipped
      rename_i hrequired
      rw [(ih silent required hrest).1, (ih silent required hrest).2]
      grind
    · rename_i hrequired
      split
      · rename_i hconfirms
        rw [(ih silent (required ++ [head]) hrest).1, (ih silent (required ++ [head]) hrest).2]
        grind
      · rename_i hconfirms
        rw [(ih (silent ++ [head]) required hrest).1, (ih (silent ++ [head]) required hrest).2]
        grind

variable {trustTier} {acl : RelayNodeAcl}

variable (bit : RelayCapabilityBit)

@[simp] theorem mem_allowed_applyTrustTierOverlay :
    bit ∈ (applyTrustTierOverlay acl).grants.allowed ↔
      bit ∈ acl.grants.allowed ∧ bit ∉ acl.grants.requiresConfirmation ∧
        confirms acl.trustTier bit = false := by
  rw [applyTrustTierOverlay, overlayLists,
    (mem_foldl_overlayBit _ _ _ _ (nodup_normalizeCapabilityBits _) bit).1]
  simp only [mem_normalizeCapabilityBits_val, not_mem_nil, false_or]

@[simp] theorem mem_requiresConfirmation_applyTrustTierOverlay :
    bit ∈ (applyTrustTierOverlay acl).grants.requiresConfirmation ↔
      bit ∈ acl.grants.requiresConfirmation ∨
        (bit ∈ acl.grants.allowed ∧ confirms acl.trustTier bit = true) := by
  rw [applyTrustTierOverlay, overlayLists,
    (mem_foldl_overlayBit _ _ _ _ (nodup_normalizeCapabilityBits _) bit).2]
  simp only [mem_normalizeCapabilityBits_val]

/-- **Overlay.** The tier moves bits between the lists and drops none. -/
theorem mem_grants_applyTrustTierOverlay :
    (bit ∈ (applyTrustTierOverlay acl).grants.allowed ∨
      bit ∈ (applyTrustTierOverlay acl).grants.requiresConfirmation) ↔
    (bit ∈ acl.grants.allowed ∨ bit ∈ acl.grants.requiresConfirmation) := by
  rw [mem_allowed_applyTrustTierOverlay, mem_requiresConfirmation_applyTrustTierOverlay]
  cases confirms acl.trustTier bit <;> simp <;> tauto

theorem nodup_foldl_overlayBit (bits silent required : List RelayCapabilityBit)
    (hbits : (silent ++ bits).Nodup) (hrequired : required.Nodup) :
    (bits.foldl (overlayBit trustTier) (silent, required)).1.Nodup ∧
      (bits.foldl (overlayBit trustTier) (silent, required)).2.Nodup := by
  induction bits generalizing silent required with
  | nil => exact ⟨by simpa using hbits, hrequired⟩
  | cons head bits ih =>
    have hdrop : (silent ++ bits).Nodup :=
      hbits.sublist (List.Sublist.append_left (sublist_cons_self head bits) silent)
    rw [foldl_cons, overlayBit]
    split
    · exact ih silent required hdrop hrequired
    · rename_i hnew
      split
      · refine ih silent (required ++ [head]) hdrop ?_
        exact nodup_append.mpr ⟨hrequired, by simp, by rintro a ha b hb rfl; simp_all⟩
      · exact ih (silent ++ [head]) required (by simpa using hbits) hrequired

end Overlay

/-! ## Settled lists -/

/-- Lists without repetitions, disjoint, and with nothing left for the tier to move. -/
structure RelayNodeAcl.Settled (acl : RelayNodeAcl) : Prop where
  allowed : acl.grants.allowed.Nodup
  requiresConfirmation : acl.grants.requiresConfirmation.Nodup
  silent : ∀ bit ∈ acl.grants.allowed,
    bit ∉ acl.grants.requiresConfirmation ∧ confirms acl.trustTier bit = false

theorem settled_applyTrustTierOverlay (acl : RelayNodeAcl) :
    (applyTrustTierOverlay acl).Settled := by
  have hnodup := @nodup_foldl_overlayBit acl.trustTier
    (normalizeCapabilityBits (acl.grants.allowed.map (·.val))) []
    (normalizeCapabilityBits (acl.grants.requiresConfirmation.map (·.val)))
    (by simpa using nodup_normalizeCapabilityBits _) (nodup_normalizeCapabilityBits _)
  refine ⟨hnodup.1, hnodup.2, ?_⟩
  intro bit hbit
  rw [mem_allowed_applyTrustTierOverlay] at hbit
  obtain ⟨-, hrequired, hconfirms⟩ := hbit
  refine ⟨?_, hconfirms⟩
  rw [mem_requiresConfirmation_applyTrustTierOverlay]
  rintro (hmem | ⟨-, htrue⟩)
  · exact hrequired hmem
  · rw [hconfirms] at htrue
    cases htrue

theorem foldl_overlayBit_of_silent {trustTier : RelayTrustTier}
    (bits silent required : List RelayCapabilityBit)
    (h : ∀ bit ∈ bits, bit ∉ required ∧ confirms trustTier bit = false) :
    bits.foldl (overlayBit trustTier) (silent, required) = (silent ++ bits, required) := by
  induction bits generalizing silent with
  | nil => simp
  | cons head bits ih =>
    obtain ⟨hrequired, hconfirms⟩ := h head mem_cons_self
    have hstep : overlayBit trustTier (silent, required) head = (silent ++ [head], required) := by
      simp [overlayBit, hrequired, hconfirms]
    rw [foldl_cons, hstep, ih _ fun bit hbit => h bit (mem_cons_of_mem head hbit)]
    simp

variable {acl : RelayNodeAcl}

theorem RelayNodeAcl.Settled.overlay (h : acl.Settled) :
    applyTrustTierOverlay acl = acl := by
  have hlists : overlayLists acl.trustTier acl.grants =
      (acl.grants.allowed, acl.grants.requiresConfirmation) := by
    rw [overlayLists, normalizeCapabilityBits_of_nodup h.allowed,
      normalizeCapabilityBits_of_nodup h.requiresConfirmation,
      foldl_overlayBit_of_silent _ _ _ h.silent, nil_append]
  rw [applyTrustTierOverlay, hlists]

/-- **Normalizing.** A settled list under its node's own names is left as it is. -/
theorem RelayNodeAcl.Settled.normalize (h : acl.Settled)
    {nodeId credentialId name : String} (displayName : String)
    (hpeer : acl.peer = ⟨nodeId, some credentialId, some name⟩) :
    normalizeNodeAcl acl nodeId credentialId displayName = acl := by
  obtain ⟨ref, peer, tier, ⟨allowed, required⟩, createdAt, updatedAt⟩ := acl
  obtain rfl : peer = _ := hpeer
  rw [normalizeNodeAcl]
  simp only [normalizeCapabilityBits_of_nodup h.allowed,
    normalizeCapabilityBits_of_nodup h.requiresConfirmation]
  exact h.overlay

/-- **Reloading.** A normalized list has every bit of the one it came from, none twice and none that
    the tier confirms silently, and normalizing it again leaves it as it is. -/
theorem normalizeNodeAcl_settles (acl : RelayNodeAcl) (nodeId credentialId displayName : String) :
    let normalized := normalizeNodeAcl acl nodeId credentialId displayName
    normalized.Settled ∧
      (∀ bit, bit ∈ normalized.grants.allowed ∨ bit ∈ normalized.grants.requiresConfirmation ↔
        bit ∈ acl.grants.allowed ∨ bit ∈ acl.grants.requiresConfirmation) ∧
      ∀ name, normalizeNodeAcl normalized nodeId credentialId name = normalized := by
  have hsettled := settled_applyTrustTierOverlay
  refine ⟨hsettled _, fun bit => ?_, fun name => ?_⟩
  · rw [normalizeNodeAcl, mem_grants_applyTrustTierOverlay, mem_normalizeCapabilityBits_val,
      mem_normalizeCapabilityBits_val]
  · exact (hsettled _).normalize name rfl

/-! ## One capability -/

/-- The `decision` of a `RelayAclCapabilityResolution`. -/
inductive AclResolution
  | allow | requiresConfirmation | deny

/-- On a list whose lifecycle has this `revokedAt`. -/
def resolveAclCapability (acl : RelayNodeAcl) (revokedAt : Option String) (capability : String) :
    AclResolution :=
  if h : capability ∈ relayCapabilityBits then
    let grants := (applyTrustTierOverlay acl).grants
    if (truthy revokedAt).isSome then .deny
    else if ⟨capability, h⟩ ∈ grants.requiresConfirmation then .requiresConfirmation
    else if ⟨capability, h⟩ ∈ grants.allowed then .allow
    else .deny
  else .deny

theorem resolveAclCapability_eq_allow_iff (acl : RelayNodeAcl) (revokedAt : Option String)
    (capability : String) : resolveAclCapability acl revokedAt capability = .allow ↔
      truthy revokedAt = none ∧ ∃ h : capability ∈ relayCapabilityBits,
        ⟨capability, h⟩ ∈ (applyTrustTierOverlay acl).grants.allowed ∧
        ⟨capability, h⟩ ∉ (applyTrustTierOverlay acl).grants.requiresConfirmation := by
  unfold resolveAclCapability
  split
  · rename_i hknown
    cases truthy revokedAt with
    | some _ => simp
    | none =>
      simp only [Option.isSome_none, Bool.false_eq_true, if_false]
      split
      · rename_i hconfirm
        simp [hconfirm]
      · split <;> simp_all
  · rename_i hunknown
    simp [hunknown]

end RelayIde.Security
