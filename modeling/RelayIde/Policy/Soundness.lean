import RelayIde.Policy.Evaluator

/-!
# Soundness of Hub Policy Evaluation

When a request is allowed, against what the access list says, and what a wider access list
changes.

- `allow_iff_permitted` — the decision is right but for these
-/

namespace RelayIde.Policy

open RelayIde.Library RelayIde.Security List

/-! ## Required bits -/

theorem mem_sortCapabilities (seen required : List String) (bit : String) :
    (∀ h : bit ∈ relayCapabilityBits, ⟨bit, h⟩ ∈ (sortCapabilities seen required).1 ↔
        bit ∈ required ∧ bit ∉ seen) ∧
      (bit ∈ (sortCapabilities seen required).2 ↔
        bit ∉ relayCapabilityBits ∧ bit ∈ required ∧ bit ∉ seen) := by
  induction required generalizing seen with
  | nil => simp [sortCapabilities]
  | cons first required ih =>
    have hnext : bit ∈ first :: required ∧ bit ∉ seen ↔
        (bit = first ∧ bit ∉ seen) ∨ bit ∈ required ∧ bit ∉ first :: seen := by
      by_cases hbit : bit = first
      · simp [hbit]
      · simp [hbit]
    obtain ⟨hknown, hunknown⟩ := ih (first :: seen)
    rw [sortCapabilities]
    split_ifs with hseen hfirst
    · -- a bit that was seen is passed over
      have hsame : bit ∈ first :: required ∧ bit ∉ seen ↔ bit ∈ required ∧ bit ∉ seen := by
        rw [mem_cons]
        constructor
        · rintro ⟨rfl | hmem, hnot⟩
          · exact absurd hseen hnot
          · exact ⟨hmem, hnot⟩
        · rintro ⟨hmem, hnot⟩
          exact ⟨.inr hmem, hnot⟩
      rw [hsame]
      exact ih seen
    · rw [hnext]
      refine ⟨fun h => ?_, ?_⟩
      · rw [mem_cons, hknown h, Subtype.mk.injEq]
        simp only [and_iff_left_of_imp (fun heq : bit = first => heq ▸ hseen)]
      · rw [hunknown]
        constructor
        · rintro ⟨hnot, hrest⟩
          exact ⟨hnot, .inr hrest⟩
        · rintro ⟨hnot, ⟨rfl, -⟩ | hrest⟩
          · exact absurd hfirst hnot
          · exact ⟨hnot, hrest⟩
    · rw [hnext]
      refine ⟨fun h => ?_, ?_⟩
      · rw [hknown h]
        constructor
        · exact .inr
        · rintro (⟨rfl, -⟩ | hrest)
          · exact absurd h hfirst
          · exact hrest
      · rw [mem_cons, hunknown]
        constructor
        · rintro (rfl | ⟨hnot, hrest⟩)
          · exact ⟨hfirst, .inl ⟨rfl, hseen⟩⟩
          · exact ⟨hnot, .inr hrest⟩
        · rintro ⟨hnot, ⟨rfl, -⟩ | hrest⟩
          · exact .inl rfl
          · exact .inr ⟨hnot, hrest⟩

variable {required : List String} {code : ReasonCode} {policy : RelayAclSummary}
  {d : HubPolicyDecision}

theorem mem_known {bit : String} (h : bit ∈ relayCapabilityBits) :
    ⟨bit, h⟩ ∈ (normalizeRequiredCapabilities required).1 ↔ bit ∈ required := by
  rw [normalizeRequiredCapabilities, (mem_sortCapabilities [] required bit).1 h]
  simp

theorem unknown_eq_nil_iff (required : List String) :
    (normalizeRequiredCapabilities required).2 = [] ↔
      ∀ bit ∈ required, bit ∈ relayCapabilityBits := by
  rw [eq_nil_iff_forall_not_mem]
  constructor
  · intro h bit hbit
    by_contra hnot
    refine h bit ?_
    rw [normalizeRequiredCapabilities, (mem_sortCapabilities [] required bit).2]
    exact ⟨hnot, hbit, not_mem_nil⟩
  · intro h bit hbit
    rw [normalizeRequiredCapabilities, (mem_sortCapabilities [] required bit).2] at hbit
    exact hbit.1 (h bit hbit.2.1)

/-! ## Paths -/

def absolutePath (text : String) : Option PosixPath.Place :=
  let trimmed := Text.trim text
  if '\x00' ∈ trimmed.toList ∨ ¬PosixPath.isAbsolute trimmed then none
  else some (PosixPath.resolve trimmed)

/-- A path lies at or below another, by whole segments. -/
def Inside (requested stem : String) : Prop :=
  ∃ place root, absolutePath requested = some place ∧ absolutePath stem = some root ∧
    PosixPath.Within root place

/-- The normal text of a prefix ends with a slash, and the requested path has another. -/
def SlashMiss (requested stem : String) : Prop :=
  PosixPath.EndsInSlash (Text.trim stem) ∧ canonicalPolicyPath requested ≠ canonicalPolicyPath stem

theorem canonicalPolicyPath_eq_some {value text : String}
    (h : canonicalPolicyPath value = some text) :
    text = PosixPath.normalize (Text.trim value) ∧
      absolutePath value = some (PosixPath.resolve (Text.trim value)) ∧
        (PosixPath.origin (Text.trim value)).absolute = true := by
  unfold canonicalPolicyPath at h
  dsimp only at h
  split_ifs at h with hempty habs
  rw [PosixPath.isAbsolute_normalize, PosixPath.isAbsolute_eq] at habs
  rw [not_or] at hempty
  refine ⟨(Option.some.inj h).symm, ?_, habs⟩
  unfold absolutePath
  rw [if_neg (by simp [hempty.2, PosixPath.isAbsolute_eq, habs])]

theorem canonicalPolicyPath_of_absolute {value : String} {place : PosixPath.Place}
    (h : absolutePath value = some place) :
    canonicalPolicyPath value = some (PosixPath.normalize (Text.trim value)) := by
  unfold absolutePath at h
  dsimp only at h
  split_ifs at h with hbad
  rw [not_or, not_not] at hbad
  have hne : Text.trim value ≠ "" := by
    intro hempty
    rw [hempty] at hbad
    exact absurd hbad.2 (by decide)
  unfold canonicalPolicyPath
  dsimp only
  rw [if_neg (by simp [hne, hbad.1]), PosixPath.isAbsolute_normalize, if_pos hbad.2]

theorem pathWithinPrefix_iff (requested stem : String) :
    pathWithinPrefix requested stem = true ↔ Inside requested stem ∧ ¬SlashMiss requested stem := by
  constructor
  · intro h
    unfold pathWithinPrefix at h
    split at h
    · rename_i candidatePath prefixPath hcandidate hprefix
      obtain ⟨rfl, hplace, hc⟩ := canonicalPolicyPath_eq_some hcandidate
      obtain ⟨rfl, hroot, hp⟩ := canonicalPolicyPath_eq_some hprefix
      rw [Bool.or_eq_true, decide_eq_true_eq, isPrefixOf_iff_prefix] at h
      obtain ⟨hwithin, hslash⟩ := (PosixPath.startsWith_normalize_iff hp hc).mp h
      refine ⟨⟨_, _, hplace, hroot, hwithin⟩, fun hmiss => hmiss.2 ?_⟩
      rw [hcandidate, hprefix, hslash hmiss.1]
    · cases h
  · rintro ⟨⟨place, root, hplace, hroot, hwithin⟩, hmiss⟩
    have hcandidate := canonicalPolicyPath_of_absolute hplace
    have hprefix := canonicalPolicyPath_of_absolute hroot
    obtain ⟨-, hplace', hc⟩ := canonicalPolicyPath_eq_some hcandidate
    obtain ⟨-, hroot', hp⟩ := canonicalPolicyPath_eq_some hprefix
    rw [Option.some.inj (hplace.symm.trans hplace'),
      Option.some.inj (hroot.symm.trans hroot')] at hwithin
    unfold pathWithinPrefix
    rw [hcandidate, hprefix, Bool.or_eq_true, decide_eq_true_eq, isPrefixOf_iff_prefix]
    refine (PosixPath.startsWith_normalize_iff hp hc).mpr ⟨hwithin, fun hends => ?_⟩
    by_contra hne
    refine hmiss ⟨hends, ?_⟩
    rw [hcandidate, hprefix]
    exact fun heq => hne (Option.some.inj heq)

/-! ## Permitted requests -/

/-- The requested scope lies in the scope of the access list. -/
def InScope (policy : RelayPolicyScope) (scope : HubPolicyScope) : Prop :=
  scope.kind = .localCompatibility ∨
    match policy.kind with
    | .node => True
    | .workspace =>
      ∃ id, truthy scope.workspaceId = some id ∧ id ∈ policy.workspaceIds.getD []
    | .repo =>
      ∃ id, (truthy scope.repoId = some id ∨ truthy scope.repoPath = some id) ∧
        id ∈ policy.repoIds.getD []
    | .path =>
      ∃ requested, truthy scope.requestedPath = some requested ∧
        ∃ stem ∈ policy.pathPrefixes.getD [], Inside requested stem

/-- Every prefix that the requested path lies inside misses it. -/
def ScopeMissed (policy : RelayPolicyScope) (scope : HubPolicyScope) : Prop :=
  scope.kind ≠ .localCompatibility ∧ policy.kind = .path ∧
    ∀ requested, truthy scope.requestedPath = some requested →
      ∀ stem ∈ policy.pathPrefixes.getD [], Inside requested stem → SlashMiss requested stem

structure Cleared (parse : String → Option ℤ) (now : ℤ) (input : HubPolicyEvaluationInput)
    (node : HubNodeSummary) (policy : RelayAclSummary) : Prop where
  unrevoked : node.status ≠ .revoked ∧ node.credentialState ≠ .revoked
  sameNode : node.nodeId = input.nodeId ∧ input.scope.nodeId = input.nodeId
  peer : input.peer.kind = .node → input.peer.nodeId = some input.nodeId ∧
    ∀ id, truthy input.peer.credentialId = some id → id = node.credentialId
  session : truthy input.revokedAt = none ∧
    ∀ text, truthy input.expiresAt = some text → ∃ ms, parse text = some ms ∧ now < ms
  acl : truthy policy.revokedAt = none ∧ truthy policy.supersededBy = none

/-- Every required bit is known, allowed, and needs no confirmation. -/
def Granted (policy : RelayAclSummary) (required : List String) : Prop :=
  ∀ bit ∈ required, ∃ h : bit ∈ relayCapabilityBits,
    ⟨bit, h⟩ ∈ policy.allowed ∧ ⟨bit, h⟩ ∉ policy.requiresConfirmation

/-- The request passes every check. -/
def Permitted (parse : String → Option ℤ) (now : ℤ) (input : HubPolicyEvaluationInput) : Prop :=
  ∃ node policy, input.node = some node ∧ node.trust.policy = some policy ∧
    Cleared parse now input node policy ∧ Granted policy input.requiredCapabilities ∧
      InScope policy.scope input.scope

/-- The request passes every check, and its path is missed by the textual test. -/
def Missed (parse : String → Option ℤ) (now : ℤ) (input : HubPolicyEvaluationInput) : Prop :=
  ∃ node policy, input.node = some node ∧ node.trust.policy = some policy ∧
    Cleared parse now input node policy ∧ Granted policy input.requiredCapabilities ∧
      InScope policy.scope input.scope ∧ ScopeMissed policy.scope input.scope

theorem any_truthy {value : Option String} {p : String → Bool} :
    (truthy value).any p = true ↔ ∃ text, truthy value = some text ∧ p text = true := by
  rw [Option.any_eq_true]

theorem scopeMatchesPolicy_iff (policy : RelayPolicyScope) (scope : HubPolicyScope) :
    scopeMatchesPolicy policy scope = true ↔ InScope policy scope ∧ ¬ScopeMissed policy scope := by
  unfold scopeMatchesPolicy InScope ScopeMissed
  by_cases hlocal : scope.kind = .localCompatibility
  · simp [hlocal]
  · rw [if_neg hlocal]
    cases hkind : policy.kind with
    | node => simp
    | workspace => simp [hlocal, any_truthy]
    | repo =>
      simp [any_truthy, hlocal, or_and_right, exists_or]
    | path =>
      simp only [any_truthy, any_eq_true, pathWithinPrefix_iff, hlocal, false_or, ne_eq,
        not_false_eq_true, true_and]
      constructor
      · rintro ⟨requested, hrequested, stem, hstem, hinside, hmiss⟩
        refine ⟨⟨requested, hrequested, stem, hstem, hinside⟩, fun hall => hmiss ?_⟩
        exact hall requested hrequested stem hstem hinside
      · rintro ⟨⟨requested, hrequested, -⟩, hall⟩
        push Not at hall
        obtain ⟨requested', hrequested', stem, hstem, hinside, hmiss⟩ := hall
        exact ⟨requested', hrequested', stem, hstem, hinside, hmiss⟩

variable (parse : String → Option ℤ) (now : ℤ) (input : HubPolicyEvaluationInput)

theorem isExpired_eq_false_iff (expiresAt : Option String) (now : ℤ) :
    isExpired parse expiresAt now = false ↔
      ∀ text, truthy expiresAt = some text → ∃ ms, parse text = some ms ∧ now < ms := by
  unfold isExpired
  cases truthy expiresAt with
  | none => simp
  | some text =>
    cases hparse : parse text with
    | none | some ms => simp [hparse]

/-! ## The cascade -/

/-- The checks up to the bits. -/
structure Reached (parse : String → Option ℤ) (now : ℤ) (input : HubPolicyEvaluationInput)
    (node : HubNodeSummary) (policy : RelayAclSummary) : Prop extends
    Cleared parse now input node policy where
  scope : scopeMatchesPolicy policy.scope input.scope = true
  known : (normalizeRequiredCapabilities input.requiredCapabilities).2 = []

/-- The codes of a decision that looked at the bits. -/
def ReasonCode.Examined (code : ReasonCode) : Prop :=
  code = .capabilityDenied ∨ code = .challengeRequired ∨ code = .allowed ∨
    code = .localCompatibilityAllowed

instance (code : ReasonCode) : Decidable code.Examined :=
  inferInstanceAs (Decidable (_ ∨ _))

/-- A decision made before the bits. -/
structure Refused (d : HubPolicyDecision) : Prop where
  decision : d.decision = .deny ∨ d.decision = .revoke
  reasonCode : ¬d.reasonCode.Examined

theorem refused_deny (d : HubPolicyDecision) (message : String)
    (h : ¬code.Examined) : Refused (deny d code message) :=
  ⟨.inl rfl, h⟩

theorem refused_revoke (d : HubPolicyDecision) (node : HubNodeSummary)
    (message : String) (h : ¬code.Examined) : Refused (revoke d node code message) :=
  ⟨.inr rfl, h⟩

theorem evaluate_cases :
    (∃ node policy, input.node = some node ∧ node.trust.policy = some policy ∧
      Reached parse now input node policy ∧
      evaluateHubPolicy parse now input = decideBits
        (withPolicy (baseDecision input
          (normalizeRequiredCapabilities input.requiredCapabilities).1
          (normalizeRequiredCapabilities input.requiredCapabilities).2) node) policy input.scope
        (normalizeRequiredCapabilities input.requiredCapabilities).1) ∨
    Refused (evaluateHubPolicy parse now input) ∧ ∀ node policy, input.node = some node →
      node.trust.policy = some policy → ¬Reached parse now input node policy := by
  unfold evaluateHubPolicy
  cases hnode : input.node with
  | none =>
    refine .inr ⟨refused_deny _ _ (by decide), fun node policy hsome => ?_⟩
    cases hsome
  | some node =>
    dsimp only
    -- the checks in their order, each with what it refutes
    by_cases hrevoked : node.status = .revoked ∨ node.credentialState = .revoked
    · rw [if_pos hrevoked]
      refine .inr ⟨refused_revoke _ _ _ (by decide), ?_⟩
      rintro _ policy ⟨⟩ - hreached
      rcases hrevoked with hstatus | hstate
      · exact hreached.unrevoked.1 hstatus
      · exact hreached.unrevoked.2 hstate
    rw [if_neg hrevoked]
    by_cases hnodeId : node.nodeId ≠ input.nodeId
    · rw [if_pos hnodeId]
      refine .inr ⟨refused_deny _ _ (by decide), ?_⟩
      rintro _ policy ⟨⟩ - hreached
      exact hnodeId hreached.sameNode.1
    rw [if_neg hnodeId]
    by_cases hpeer : input.peer.kind = .node ∧ input.peer.nodeId ≠ some input.nodeId
    · rw [if_pos hpeer]
      refine .inr ⟨refused_deny _ _ (by decide), ?_⟩
      rintro _ policy ⟨⟩ - hreached
      exact hpeer.2 (hreached.peer hpeer.1).1
    rw [if_neg hpeer]
    by_cases hcredential : input.peer.kind = .node ∧
        (truthy input.peer.credentialId).any (· ≠ node.credentialId)
    · rw [if_pos hcredential]
      refine .inr ⟨refused_deny _ _ (by decide), ?_⟩
      rintro _ policy ⟨⟩ - hreached
      obtain ⟨id, hid, hne⟩ := any_truthy.mp hcredential.2
      exact of_decide_eq_true hne ((hreached.peer hcredential.1).2 id hid)
    rw [if_neg hcredential]
    by_cases hscope : input.scope.nodeId ≠ input.nodeId
    · rw [if_pos hscope]
      refine .inr ⟨refused_deny _ _ (by decide), ?_⟩
      rintro _ policy ⟨⟩ - hreached
      exact hscope hreached.sameNode.2
    rw [if_neg hscope]
    by_cases hsession : (truthy input.revokedAt).isSome = true
    · rw [if_pos hsession]
      refine .inr ⟨refused_revoke _ _ _ (by decide), ?_⟩
      rintro _ policy ⟨⟩ - hreached
      rw [hreached.session.1] at hsession
      cases hsession
    rw [if_neg hsession]
    by_cases hexpired : isExpired parse input.expiresAt now = true
    · rw [if_pos hexpired]
      refine .inr ⟨refused_revoke _ _ _ (by decide), ?_⟩
      rintro _ policy ⟨⟩ - hreached
      rw [(isExpired_eq_false_iff _ _ _).mpr hreached.session.2] at hexpired
      cases hexpired
    rw [if_neg hexpired]
    cases hpolicy : node.trust.policy with
    | none =>
      refine .inr ⟨refused_deny _ _ (by decide), ?_⟩
      rintro _ policy ⟨⟩ hsome
      rw [hpolicy] at hsome
      cases hsome
    | some policy =>
      dsimp only
      by_cases hacl : (truthy policy.revokedAt).isSome = true ∨
          (truthy policy.supersededBy).isSome = true
      · rw [if_pos hacl]
        refine .inr ⟨refused_revoke _ _ _ (by decide), ?_⟩
        rintro _ policy' ⟨⟩ hsome hreached
        cases hpolicy.symm.trans hsome
        simp [hreached.acl.1, hreached.acl.2] at hacl
      rw [if_neg hacl]
      by_cases hmatches : ¬scopeMatchesPolicy policy.scope input.scope = true
      · rw [if_pos hmatches]
        refine .inr ⟨refused_deny _ _ (by decide), ?_⟩
        rintro _ policy' ⟨⟩ hsome hreached
        cases hpolicy.symm.trans hsome
        exact hmatches hreached.scope
      rw [if_neg hmatches]
      by_cases hunknown : (normalizeRequiredCapabilities input.requiredCapabilities).2 ≠ []
      · rw [if_pos hunknown]
        refine .inr ⟨refused_deny _ _ (by decide), ?_⟩
        rintro _ policy' ⟨⟩ hsome hreached
        cases hpolicy.symm.trans hsome
        exact hunknown hreached.known
      rw [if_neg hunknown]
      refine .inl ⟨node, policy, rfl, hpolicy, ?_, rfl⟩
      rw [not_or] at hrevoked hacl
      rw [not_not] at hmatches
      refine ⟨⟨hrevoked, ⟨not_not.mp hnodeId, not_not.mp hscope⟩,
        fun hkind => ⟨?_, fun id hid => ?_⟩, ⟨?_, ?_⟩, ?_, ?_⟩, hmatches, not_not.mp hunknown⟩
      · by_contra hne
        exact hpeer ⟨hkind, hne⟩
      · by_contra hne
        exact hcredential ⟨hkind, any_truthy.mpr ⟨id, hid, decide_eq_true hne⟩⟩
      · simpa using hsession
      · exact (isExpired_eq_false_iff _ _ _).mp (by simpa using hexpired)
      · simpa using hacl.1
      · simpa using hacl.2

/-! ## The bits -/

/-- What a decision that looked at the bits says of them. -/
structure SplitBits (input : HubPolicyEvaluationInput) (policy : RelayAclSummary)
    (d : HubPolicyDecision) : Prop where
  required : ∀ bit, bit ∈ d.requiredBits ↔ bit.val ∈ input.requiredCapabilities
  /-- Each required bit is granted, challenged or denied, once. -/
  parts : (d.grantedBits ++ (d.challengeBits ++ d.deniedBits)).Perm d.requiredBits
  granted : ∀ bit ∈ d.grantedBits, bit ∈ policy.allowed ∧ bit ∉ policy.requiresConfirmation
  challenged : ∀ bit ∈ d.challengeBits, bit ∈ policy.requiresConfirmation
  denied : ∀ bit ∈ d.deniedBits, bit ∉ policy.allowed ∧ bit ∉ policy.requiresConfirmation
  /-- A denied bit decides before a challenged one. -/
  decision : d.decision =
    if d.deniedBits ≠ [] then .deny else if d.challengeBits ≠ [] then .challenge else .allow

theorem perm_of_split {α : Type} (p q : α → Prop) [DecidablePred p] [DecidablePred q] (l : List α) :
    (l.filter (fun a => decide (¬p a ∧ q a)) ++ (l.filter (fun a => decide (p a)) ++
      l.filter fun a => decide (¬p a ∧ ¬q a))).Perm l := by
  induction l with
  | nil => simp
  | cons a l ih =>
    by_cases hp : p a
    · simp only [filter_cons, hp]
      refine List.Perm.trans ?_ (ih.cons a)
      exact perm_middle
    · by_cases hq : q a
      · simpa [hp, hq] using ih
      · simp only [filter_cons, hp, hq]
        refine List.Perm.trans ?_ (ih.cons a)
        rw [← append_assoc, ← append_assoc]
        exact perm_middle

theorem splitBits_decideBits {input : HubPolicyEvaluationInput} (scope : HubPolicyScope)
    (hrequired : ∀ bit, bit ∈ d.requiredBits ↔ bit.val ∈ input.requiredCapabilities) :
    SplitBits input policy (decideBits d policy scope d.requiredBits) := by
  have hparts := perm_of_split (fun bit => bit ∈ policy.requiresConfirmation)
    (fun bit => bit ∈ policy.allowed) d.requiredBits
  unfold decideBits
  dsimp only
  split_ifs with hdenied hchallenged hlocal
  all_goals
    refine ⟨hrequired, hparts, ?_, ?_, ?_, ?_⟩
    · intro bit hbit
      exact (of_decide_eq_true (mem_filter.mp hbit).2).symm
    · intro bit hbit
      exact of_decide_eq_true (mem_filter.mp hbit).2
    · intro bit hbit
      exact (of_decide_eq_true (mem_filter.mp hbit).2).symm
  · exact (if_pos hdenied).symm
  · exact ((if_neg hdenied).trans (if_pos hchallenged)).symm
  · exact ((if_neg hdenied).trans (if_neg hchallenged)).symm
  · exact ((if_neg hdenied).trans (if_neg hchallenged)).symm

theorem granted_iff {input : HubPolicyEvaluationInput}
    (hknown : (normalizeRequiredCapabilities input.requiredCapabilities).2 = [])
    (h : SplitBits input policy d) :
    d.decision = .allow ↔ Granted policy input.requiredCapabilities := by
  rw [unknown_eq_nil_iff] at hknown
  have hmem : ∀ bit, bit ∈ d.requiredBits ↔
      bit ∈ d.grantedBits ∨ bit ∈ d.challengeBits ∨ bit ∈ d.deniedBits := by
    intro bit
    rw [← h.parts.mem_iff, mem_append, mem_append]
  rw [h.decision]
  constructor
  · intro hallow bit hbit
    split_ifs at hallow with hdenied hchallenged
    rw [not_not] at hdenied hchallenged
    have hrequired := (hmem ⟨bit, hknown bit hbit⟩).mp ((h.required _).mpr hbit)
    rw [hdenied, hchallenged] at hrequired
    refine ⟨hknown bit hbit, h.granted _ ?_⟩
    simpa using hrequired
  · intro hgranted
    have hall : ∀ bit ∈ d.requiredBits,
        bit ∈ policy.allowed ∧ bit ∉ policy.requiresConfirmation := by
      intro bit hbit
      obtain ⟨_, hboth⟩ := hgranted bit.val ((h.required bit).mp hbit)
      exact hboth
    have hdenied : d.deniedBits = [] := by
      rw [eq_nil_iff_forall_not_mem]
      intro bit hbit
      exact (h.denied bit hbit).1 (hall bit ((hmem bit).mpr (.inr (.inr hbit)))).1
    have hchallenged : d.challengeBits = [] := by
      rw [eq_nil_iff_forall_not_mem]
      intro bit hbit
      exact (hall bit ((hmem bit).mpr (.inr (.inl hbit)))).2 (h.challenged bit hbit)
    simp [hdenied, hchallenged]

theorem splitBits_of_reached (node : HubNodeSummary) (policy : RelayAclSummary) :
    SplitBits input policy (decideBits
      (withPolicy (baseDecision input
        (normalizeRequiredCapabilities input.requiredCapabilities).1
        (normalizeRequiredCapabilities input.requiredCapabilities).2) node) policy input.scope
      (normalizeRequiredCapabilities input.requiredCapabilities).1) :=
  splitBits_decideBits input.scope fun bit => mem_known bit.property

theorem decision_eq_allow_iff :
    (evaluateHubPolicy parse now input).decision = .allow ↔
      ∃ node policy, input.node = some node ∧ node.trust.policy = some policy ∧
        Cleared parse now input node policy ∧ Granted policy input.requiredCapabilities ∧
          scopeMatchesPolicy policy.scope input.scope = true := by
  rcases evaluate_cases parse now input with
    ⟨node, policy, hnode, hpolicy, hreached, hdecision⟩ | ⟨hrefused, hnot⟩
  · have hgranted := granted_iff hreached.known (splitBits_of_reached input node policy)
    rw [hdecision, hgranted]
    constructor
    · intro h
      exact ⟨node, policy, hnode, hpolicy, hreached.toCleared, h, hreached.scope⟩
    · rintro ⟨node', policy', hnode', hpolicy', -, h, -⟩
      cases hnode.symm.trans hnode'
      cases hpolicy.symm.trans hpolicy'
      exact h
  · constructor
    · intro hallow
      rcases hrefused.decision with hdeny | hrevoke
      · rw [hdeny] at hallow
        cases hallow
      · rw [hrevoke] at hallow
        cases hallow
    · rintro ⟨node, policy, hnode, hpolicy, hcleared, hgranted, hscope⟩
      refine absurd ⟨hcleared, hscope, ?_⟩ (hnot node policy hnode hpolicy)
      exact (unknown_eq_nil_iff _).mpr fun bit hbit => (hgranted bit hbit).1

/-! ## Wider access lists -/

structure Wider (policy policy' : RelayAclSummary) : Prop where
  allowed : policy.allowed ⊆ policy'.allowed
  requiresConfirmation : policy'.requiresConfirmation ⊆ policy.requiresConfirmation
  standing : policy'.revokedAt = policy.revokedAt ∧ policy'.supersededBy = policy.supersededBy
  scope : policy'.scope.kind = .node ∨ policy'.scope.kind = policy.scope.kind ∧
    policy.scope.workspaceIds.getD [] ⊆ policy'.scope.workspaceIds.getD [] ∧
    policy.scope.repoIds.getD [] ⊆ policy'.scope.repoIds.getD [] ∧
    policy.scope.pathPrefixes.getD [] ⊆ policy'.scope.pathPrefixes.getD []

/-- The request, to a node with another access list, for other capabilities. -/
def HubPolicyEvaluationInput.under (input : HubPolicyEvaluationInput) (node : HubNodeSummary)
    (policy : RelayAclSummary) (requiredCapabilities : List String) : HubPolicyEvaluationInput :=
  { input with
    node := some { node with trust := { node.trust with policy := some policy } }
    requiredCapabilities }

theorem scopeMatchesPolicy_mono {policy' : RelayAclSummary} {scope : HubPolicyScope}
    (hwider : Wider policy policy') (h : scopeMatchesPolicy policy.scope scope = true) :
    scopeMatchesPolicy policy'.scope scope = true := by
  unfold scopeMatchesPolicy at h ⊢
  by_cases hlocal : scope.kind = .localCompatibility
  · rw [if_pos hlocal]
  · rw [if_neg hlocal] at h ⊢
    rcases hwider.scope with hnode | ⟨hkind, hworkspaces, hrepos, hpaths⟩
    · rw [hnode]
    · rw [hkind]
      cases hcase : policy.scope.kind with
      | node => rfl
      | workspace =>
        rw [hcase] at h
        obtain ⟨id, hid, hmem⟩ := any_truthy.mp h
        refine any_truthy.mpr ⟨id, hid, ?_⟩
        exact contains_iff_mem.mpr (hworkspaces (contains_iff_mem.mp hmem))
      | repo =>
        rw [hcase] at h
        rw [Bool.or_eq_true] at h ⊢
        refine h.imp (fun h => ?_) fun h => ?_
        all_goals
          obtain ⟨id, hid, hmem⟩ := any_truthy.mp h
          refine any_truthy.mpr ⟨id, hid, ?_⟩
          exact contains_iff_mem.mpr (hrepos (contains_iff_mem.mp hmem))
      | path =>
        rw [hcase] at h
        obtain ⟨requested, hrequested, hany⟩ := any_truthy.mp h
        obtain ⟨stem, hstem, hwithin⟩ := any_eq_true.mp hany
        refine any_truthy.mpr ⟨requested, hrequested, ?_⟩
        exact any_eq_true.mpr ⟨stem, hpaths hstem, hwithin⟩

theorem allow_mono {parse : String → Option ℤ} {now : ℤ} {input : HubPolicyEvaluationInput}
    {node : HubNodeSummary} {policy' : RelayAclSummary}
    (hnode : input.node = some node) (hpolicy : node.trust.policy = some policy)
    (hwider : Wider policy policy') (hrequired : required ⊆ input.requiredCapabilities)
    (h : (evaluateHubPolicy parse now input).decision = .allow) :
    (evaluateHubPolicy parse now (input.under node policy' required)).decision = .allow := by
  rw [decision_eq_allow_iff] at h ⊢
  obtain ⟨node₀, policy₀, hnode₀, hpolicy₀, hcleared, hgranted, hscope⟩ := h
  cases hnode.symm.trans hnode₀
  cases hpolicy.symm.trans hpolicy₀
  refine ⟨_, policy', rfl, rfl, ?_, ?_, scopeMatchesPolicy_mono hwider hscope⟩
  · refine ⟨hcleared.unrevoked, hcleared.sameNode, hcleared.peer, hcleared.session, ?_⟩
    rw [hwider.standing.1, hwider.standing.2]
    exact hcleared.acl
  · intro bit hbit
    obtain ⟨hknown, hallowed, hconfirm⟩ := hgranted bit (hrequired hbit)
    refine ⟨hknown, hwider.allowed hallowed, fun hmem => hconfirm ?_⟩
    exact hwider.requiresConfirmation hmem

/-! ## The decision -/

theorem permitted_iff :
    ((evaluateHubPolicy parse now input).decision = .allow ↔ Permitted parse now input) ↔
      ¬Missed parse now input := by
  rw [decision_eq_allow_iff]
  constructor
  · rintro hiff ⟨node, policy, hnode, hpolicy, hcleared, hgranted, hscope, hmissed⟩
    obtain ⟨node', policy', hnode', hpolicy', -, -, hmatches⟩ :=
      hiff.mpr ⟨node, policy, hnode, hpolicy, hcleared, hgranted, hscope⟩
    cases hnode.symm.trans hnode'
    cases hpolicy.symm.trans hpolicy'
    exact ((scopeMatchesPolicy_iff _ _).mp hmatches).2 hmissed
  · intro hnot
    constructor
    · rintro ⟨node, policy, hnode, hpolicy, hcleared, hgranted, hmatches⟩
      exact ⟨node, policy, hnode, hpolicy, hcleared, hgranted,
        ((scopeMatchesPolicy_iff _ _).mp hmatches).1⟩
    · rintro ⟨node, policy, hnode, hpolicy, hcleared, hgranted, hscope⟩
      refine ⟨node, policy, hnode, hpolicy, hcleared, hgranted,
        (scopeMatchesPolicy_iff _ _).mpr ⟨hscope, fun hmissed => hnot ?_⟩⟩
      exact ⟨node, policy, hnode, hpolicy, hcleared, hgranted, hscope, hmissed⟩

theorem splitBits_of_examined {parse : String → Option ℤ} {now : ℤ}
    {input : HubPolicyEvaluationInput}
    (h : (evaluateHubPolicy parse now input).reasonCode.Examined) :
    ∃ node policy, input.node = some node ∧ node.trust.policy = some policy ∧
      SplitBits input policy (evaluateHubPolicy parse now input) := by
  rcases evaluate_cases parse now input with
    ⟨node, policy, hnode, hpolicy, -, hdecision⟩ | ⟨hrefused, -⟩
  · refine ⟨node, policy, hnode, hpolicy, ?_⟩
    rw [hdecision]
    exact splitBits_of_reached input node policy
  · exact absurd h hrefused.reasonCode

/-- A decision is right exactly when the path of the request is not missed; its bits are split as
    the access list says, a wider list keeps it, and an audit write that fails closed undoes it. -/
theorem evaluateHubPolicy_sound (parse : String → Option ℤ) (now : ℤ)
    (input : HubPolicyEvaluationInput) :
    (((evaluateHubPolicy parse now input).decision = .allow ↔ Permitted parse now input) ↔
      ¬Missed parse now input) ∧
    ((evaluateHubPolicy parse now input).reasonCode.Examined →
      ∃ node policy, input.node = some node ∧ node.trust.policy = some policy ∧
        SplitBits input policy (evaluateHubPolicy parse now input)) ∧
    (∀ node policy policy' required, input.node = some node → node.trust.policy = some policy →
      Wider policy policy' → required ⊆ input.requiredCapabilities →
      (evaluateHubPolicy parse now input).decision = .allow →
      (evaluateHubPolicy parse now (input.under node policy' required)).decision = .allow) ∧
    ∀ written, (appendPolicyAudit written (evaluateHubPolicy parse now input)).decision = .allow ↔
      (evaluateHubPolicy parse now input).decision = .allow ∧
        ¬(written = some false ∧ failsClosed (evaluateHubPolicy parse now input).trustTier
          (evaluateHubPolicy parse now input).requiredBits = true) := by
  refine ⟨permitted_iff parse now input, splitBits_of_examined, ?_, fun written => ?_⟩
  · intro node policy policy' required hnode hpolicy hwider hrequired h
    exact allow_mono hnode hpolicy hwider hrequired h
  · unfold appendPolicyAudit
    split_ifs with hcloses
    · simp [deny, hcloses]
    · simp [hcloses]

/-! ## One capability at a time -/

/-- `summarizeAcl`, for a list with this version, scope and lifecycle. -/
def summarizeAcl (acl : RelayNodeAcl) (policyVersion : String) (scope : RelayPolicyScope)
    (revokedAt supersededBy : Option String) : RelayAclSummary where
  policyVersion
  ref := acl.ref
  trustTier := acl.trustTier
  allowed := (applyTrustTierOverlay acl).grants.allowed
  requiresConfirmation := (applyTrustTierOverlay acl).grants.requiresConfirmation
  scope
  revokedAt := truthy revokedAt
  supersededBy := truthy supersededBy

/-- **Two readings of one list**: the evaluator lets through what passes its other checks and is
    allowed bit by bit, and on a production node no high-risk bit is. -/
theorem allow_iff_resolved (node : HubNodeSummary) (acl : RelayNodeAcl) (policyVersion : String)
    (scope : RelayPolicyScope) (revokedAt supersededBy : Option String) (required : List String) :
    let policy := summarizeAcl acl policyVersion scope revokedAt supersededBy
    let request := input.under node policy required
    let trusting := { node with trust := { node.trust with policy := some policy } }
    ((evaluateHubPolicy parse now request).decision = .allow ↔
      Cleared parse now request trusting policy ∧ scopeMatchesPolicy scope input.scope = true ∧
        ∀ bit ∈ required, resolveAclCapability acl revokedAt bit = .allow) ∧
    ((evaluateHubPolicy parse now request).decision = .allow → acl.trustTier = .prod →
      ∀ bit ∈ required, bit ∉ highRiskCapabilities) := by
  intro policy request trusting
  have hiff : (evaluateHubPolicy parse now request).decision = .allow ↔
      Cleared parse now request trusting policy ∧ Granted policy required ∧
        scopeMatchesPolicy scope input.scope = true := by
    rw [decision_eq_allow_iff]
    constructor
    · rintro ⟨node', policy', hnode, hpolicy, hrest⟩
      cases hnode
      cases hpolicy
      exact hrest
    · exact fun h => ⟨trusting, policy, rfl, rfl, h⟩
  rw [hiff]
  refine ⟨⟨?_, ?_⟩, ?_⟩
  · rintro ⟨hcleared, hgranted, hscope⟩
    refine ⟨hcleared, hscope, fun bit hbit => ?_⟩
    have hstanding : truthy (truthy revokedAt) = none := hcleared.acl.1
    refine (resolveAclCapability_eq_allow_iff acl revokedAt bit).mpr ⟨?_, hgranted bit hbit⟩
    simpa [truthy] using hstanding
  · rintro ⟨hcleared, hscope, hresolved⟩
    refine ⟨hcleared, fun bit hbit => ?_, hscope⟩
    exact ((resolveAclCapability_eq_allow_iff acl revokedAt bit).mp (hresolved bit hbit)).2
  · rintro ⟨-, hgranted, -⟩ hprod bit hbit hrisk
    obtain ⟨hknown, hallowed, -⟩ := hgranted bit hbit
    have hsilent := ((settled_applyTrustTierOverlay acl).silent _ hallowed).2
    rw [confirms, decide_eq_false_iff_not] at hsilent
    exact hsilent ⟨hprod, hrisk⟩

/-! ## A path below the root -/

theorem fsRead_mem : "rpc:fs:read" ∈ relayCapabilityBits := by decide

/-- A node whose access list covers everything below `/`. -/
def rootNode : HubNodeSummary where
  nodeId := "n1"
  status := .online
  credentialState := .active
  credentialId := "cred1"
  trust :=
    { tier := some .dev
      policy := some {
        policyVersion := "1.0"
        ref := "acl1"
        trustTier := .dev
        allowed := [⟨"rpc:fs:read", fsRead_mem⟩]
        requiresConfirmation := []
        scope := { kind := .path, pathPrefixes := some ["/"] } } }

/-- A read of a file below `/`. -/
def rootRead : HubPolicyEvaluationInput where
  peer := { kind := .hub }
  node := some rootNode
  nodeId := "n1"
  intent := { action := "rpc.fs.read" }
  scope := { kind := .policy .path, nodeId := "n1", path := some "/srv/a" }
  requiredCapabilities := ["rpc:fs:read"]

/-- The read is denied, though the prefix `/` covers it. -/
theorem not_allowed_below_root :
    ¬∀ (parse : String → Option ℤ) (now : ℤ) (input : HubPolicyEvaluationInput),
      (evaluateHubPolicy parse now input).decision = .allow ↔ Permitted parse now input := by
  intro hall
  have hdenied : (evaluateHubPolicy (fun _ => none) 0 rootRead).decision = .deny := by
    decide
  have hpermitted : Permitted (fun _ => none) 0 rootRead := by
    refine ⟨rootNode, _, rfl, rfl, ⟨by decide, by decide, by decide,
      ⟨rfl, by simp [rootRead, truthy]⟩, by decide⟩, ?_,
      .inr ⟨"/srv/a", rfl, "/", by decide, _, _, rfl, rfl, by decide⟩⟩
    intro bit hbit
    cases mem_singleton.mp hbit
    exact ⟨by decide, by decide, by decide⟩
  rw [(hall _ _ _).mpr hpermitted] at hdenied
  cases hdenied

end RelayIde.Policy
