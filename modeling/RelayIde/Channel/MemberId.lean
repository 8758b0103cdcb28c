import RelayIde.Library.Text

/-!
# Channel Member Ids

The two canonicalizations of an agent member id:

- `matches_iff_fold_eq` — the two agree on a pair of ids unless the pair is a `SpellingGap`
-/

namespace RelayIde.Channel

open RelayIde.Library.Text

/-! ## Id grammar -/

/-- `member_kind` of a membership row. -/
inductive MemberKind where
  /-- A person; human ids never fold. -/
  | human
  /-- An agent participant. -/
  | agent
  deriving DecidableEq

/-- Prefix `deriveSender` stamps on an ordinary scoped-actor post. -/
def agentPrefix : String := "agent:"

/-- `AGENT_PROFILE_ID_PREFIX`: namespace prefix every profile Actor id carries. -/
def agentProfileIdPrefix : String := "agent-profile:"

/-- Canonical comparison form of a member id: one `agent:` prefix is stripped. -/
def canonicalChannelMemberId (id : String) : String :=
  (stripPrefix? agentPrefix id).getD id

def builtInAgentProfileId (providerId : String) : String :=
  agentProfileIdPrefix ++ providerId ++ ":default"

/-- Vendor framework id embedded in a profile Actor id, if there is a non-empty one. -/
def parseAgentProfileProviderId (profileActorId : String) : Option String :=
  match stripPrefix? agentProfileIdPrefix profileActorId with
  | none => none
  | some rest =>
    let vendor := firstSegment ':' rest
    if vendor = "" then none else some vendor

/-- Vendor of a *default* built-in profile Actor id, `none` for anything else. -/
def defaultProfileVendorId (id : String) : Option String :=
  match parseAgentProfileProviderId id with
  | none => none
  | some vendor => if id = builtInAgentProfileId vendor then some vendor else none

/-- The value that identifies one participant in the fold repair. -/
def memberFoldKey (kind : MemberKind) (id : String) : String :=
  match kind with
  | .human => id
  | .agent =>
    let canonical := canonicalChannelMemberId id
    (defaultProfileVendorId canonical).getD canonical

/-- Bound parameters of the member lookup statements. -/
structure MemberMatchParams where
  channelId : String
  memberKind : MemberKind
  memberId : String
  canonicalId : String
  prefixedId : String
  defaultProfileId : String
  vendorId : String
  prefixedVendorId : String

/-- Bind a member id for `isMember` and for the invite/remove class match. -/
def memberMatchParams (channelId : String) (kind : MemberKind) (id : String) :
    MemberMatchParams :=
  let canonical := match kind with
    | .agent => canonicalChannelMemberId id
    | .human => id
  let vendor := match kind with
    | .agent => defaultProfileVendorId canonical
    | .human => none
  { channelId := channelId
    memberKind := kind
    memberId := id
    canonicalId := canonical
    prefixedId := match kind with
      | .agent => agentPrefix ++ canonical
      | .human => id
    defaultProfileId :=
      if kind = .agent ∧ hasPrefix agentProfileIdPrefix canonical = false
      then builtInAgentProfileId canonical
      else id
    vendorId := vendor.getD id
    prefixedVendorId := match vendor with
      | some v => agentPrefix ++ v
      | none => id }

/-- The bound values of the `member_id IN (…)` list. -/
def MemberMatchParams.ids (p : MemberMatchParams) : List String :=
  [p.memberId, p.canonicalId, p.prefixedId, p.defaultProfileId, p.vendorId, p.prefixedVendorId]

/-! ## Canonical form -/

@[simp] theorem canonicalChannelMemberId_agentPrefix (t : String) :
    canonicalChannelMemberId (agentPrefix ++ t) = t := by
  simp [canonicalChannelMemberId]

theorem canonicalChannelMemberId_of_not_prefix {id : String}
    (h : hasPrefix agentPrefix id = false) : canonicalChannelMemberId id = id := by
  rw [canonicalChannelMemberId, (stripPrefix?_eq_none_iff _ _).mpr h]
  rfl

theorem canonicalChannelMemberId_cases (id : String) :
    (hasPrefix agentPrefix id = false ∧ canonicalChannelMemberId id = id) ∨
      id = agentPrefix ++ canonicalChannelMemberId id := by
  cases h : hasPrefix agentPrefix id with
  | false => exact .inl ⟨rfl, canonicalChannelMemberId_of_not_prefix h⟩
  | true =>
    obtain ⟨t, rfl⟩ := (hasPrefix_iff _ _).mp h
    exact .inr (by simp)

theorem canonicalChannelMemberId_eq_iff (b d : String) :
    canonicalChannelMemberId b = d ↔
      b = agentPrefix ++ d ∨ (b = d ∧ hasPrefix agentPrefix d = false) := by
  constructor
  · rintro rfl
    rcases canonicalChannelMemberId_cases b with ⟨hp, hc⟩ | hb
    · exact .inr ⟨hc.symm, by rw [hc]; exact hp⟩
    · exact .inl hb
  · rintro (rfl | ⟨rfl, hp⟩)
    · simp
    · exact canonicalChannelMemberId_of_not_prefix hp

theorem not_agentPrefix_of_profilePrefix {c : String}
    (h : hasPrefix agentProfileIdPrefix c = true) : hasPrefix agentPrefix c = false := by
  cases hb : hasPrefix agentPrefix c with
  | false => rfl
  | true =>
    obtain ⟨t, rfl⟩ := (hasPrefix_iff _ _).mp h
    obtain ⟨u, hu⟩ := (hasPrefix_iff _ _).mp hb
    have hl : (agentProfileIdPrefix ++ t).toList = (agentPrefix ++ u).toList := by rw [hu]
    simp [agentProfileIdPrefix, agentPrefix] at hl

theorem not_agentPrefix_of_no_colon {v : String} (hv : ':' ∉ v.toList) :
    hasPrefix agentPrefix v = false := by
  cases h : hasPrefix agentPrefix v with
  | false => rfl
  | true => exact absurd (mem_of_hasPrefix h (by decide)) hv

/-! ## Default profiles -/

theorem builtInAgentProfileId_eq (v : String) :
    builtInAgentProfileId v = agentProfileIdPrefix ++ (v ++ ":default") := by
  simp [builtInAgentProfileId, String.append_assoc]

@[simp] theorem hasPrefix_builtIn (v : String) :
    hasPrefix agentProfileIdPrefix (builtInAgentProfileId v) = true := by
  rw [builtInAgentProfileId_eq]
  exact hasPrefix_append _ _

theorem defaultProfileVendorId_eq_some_iff (id v : String) :
    defaultProfileVendorId id = some v ↔
      v ≠ "" ∧ ':' ∉ v.toList ∧ id = builtInAgentProfileId v := by
  constructor
  · intro h
    unfold defaultProfileVendorId parseAgentProfileProviderId at h
    cases hs : stripPrefix? agentProfileIdPrefix id with
    | none => simp [hs] at h
    | some rest =>
      by_cases hne : firstSegment ':' rest = ""
      · simp [hs, hne] at h
      · simp only [hs, hne, if_false] at h
        by_cases hid : id = builtInAgentProfileId (firstSegment ':' rest)
        · rw [if_pos hid] at h
          cases h
          exact ⟨hne, not_mem_firstSegment ':' rest, hid⟩
        · simp [hid] at h
  · rintro ⟨hne, hcolon, rfl⟩
    have hseg : firstSegment ':' (v ++ ":default") = v := firstSegment_append ':' v "default" hcolon
    have hparse : parseAgentProfileProviderId (builtInAgentProfileId v) = some v := by
      rw [builtInAgentProfileId_eq]
      simp [parseAgentProfileProviderId, hseg, hne]
    simp [defaultProfileVendorId, hparse]

theorem defaultProfileVendorId_of_not_profile {c : String}
    (h : hasPrefix agentProfileIdPrefix c = false) : defaultProfileVendorId c = none := by
  cases hv : defaultProfileVendorId c with
  | none => rfl
  | some v =>
    obtain ⟨-, -, rfl⟩ := (defaultProfileVendorId_eq_some_iff c v).mp hv
    simp at h

theorem foldedCanonical_eq_iff (d k : String) :
    (defaultProfileVendorId d).getD d = k ↔
      (d = k ∧ defaultProfileVendorId k = none) ∨
        (k ≠ "" ∧ ':' ∉ k.toList ∧ d = builtInAgentProfileId k) := by
  cases hv : defaultProfileVendorId d with
  | none =>
    constructor
    · intro h
      have hd : d = k := h
      exact .inl ⟨hd, hd ▸ hv⟩
    · rintro (⟨rfl, -⟩ | hk)
      · rfl
      · rw [(defaultProfileVendorId_eq_some_iff d k).mpr hk] at hv
        cases hv
  | some v =>
    constructor
    · intro h
      have hvk : v = k := h
      exact .inr (hvk ▸ (defaultProfileVendorId_eq_some_iff d v).mp hv)
    · rintro (⟨rfl, hnone⟩ | hk)
      · rw [hnone] at hv
        cases hv
      · rw [(defaultProfileVendorId_eq_some_iff d k).mpr hk] at hv
        cases hv
        rfl

/-! ## What each side identifies -/

/-- The three shapes of a canonical agent id, as the match parameters treat them. -/
inductive CanonicalShape (c : String) : Prop where
  /-- The default profile of the vendor `v`. -/
  | defaultProfile (v : String) (hne : v ≠ "") (hcolon : ':' ∉ v.toList)
      (heq : c = builtInAgentProfileId v)
  /-- Another profile Actor id. -/
  | otherProfile (hp : hasPrefix agentProfileIdPrefix c = true)
      (hv : defaultProfileVendorId c = none)
  /-- No profile Actor id at all. -/
  | bare (hp : hasPrefix agentProfileIdPrefix c = false)

theorem canonicalShape (c : String) : CanonicalShape c := by
  cases hp : hasPrefix agentProfileIdPrefix c with
  | false => exact .bare hp
  | true =>
    cases hv : defaultProfileVendorId c with
    | none => exact .otherProfile hp hv
    | some v =>
      obtain ⟨hne, hcolon, heq⟩ := (defaultProfileVendorId_eq_some_iff c v).mp hv
      exact .defaultProfile v hne hcolon heq

/-- A row stored under `b` is matched by the parameters bound for `a`. -/
def MatchesMember (a b : String) : Prop :=
  ∀ channelId, b ∈ (memberMatchParams channelId .agent a).ids

instance (a b : String) : Decidable (MatchesMember a b) :=
  decidable_of_iff (b ∈ (memberMatchParams "" .agent a).ids) ⟨fun h _ => h, fun h => h ""⟩

theorem ids_memberMatchParams (channelId a : String) :
    (memberMatchParams channelId .agent a).ids =
      [a, canonicalChannelMemberId a, agentPrefix ++ canonicalChannelMemberId a,
        if MemberKind.agent = .agent ∧
          hasPrefix agentProfileIdPrefix (canonicalChannelMemberId a) = false
        then builtInAgentProfileId (canonicalChannelMemberId a)
        else a,
        (defaultProfileVendorId (canonicalChannelMemberId a)).getD a,
        match defaultProfileVendorId (canonicalChannelMemberId a) with
        | some v => agentPrefix ++ v
        | none => a] := by
  rfl

theorem matchesMember_iff (a b : String) :
    MatchesMember a b ↔
      (b = canonicalChannelMemberId a ∨ b = agentPrefix ++ canonicalChannelMemberId a) ∨
      (hasPrefix agentProfileIdPrefix (canonicalChannelMemberId a) = false ∧
        b = builtInAgentProfileId (canonicalChannelMemberId a)) ∨
      ∃ v, defaultProfileVendorId (canonicalChannelMemberId a) = some v ∧
        (b = v ∨ b = agentPrefix ++ v) := by
  -- the id itself is always one of the first two spellings
  have hself : a = canonicalChannelMemberId a ∨ a = agentPrefix ++ canonicalChannelMemberId a := by
    rcases canonicalChannelMemberId_cases a with ⟨-, hc⟩ | hc
    · exact .inl hc.symm
    · exact .inr hc
  constructor
  · intro h
    have hmem := h ""
    rw [ids_memberMatchParams] at hmem
    cases hp : hasPrefix agentProfileIdPrefix (canonicalChannelMemberId a) <;>
      cases hv : defaultProfileVendorId (canonicalChannelMemberId a) <;>
        grind
  · intro h channelId
    simp only [ids_memberMatchParams, List.mem_cons]
    rcases h with (rfl | rfl) | ⟨hp, rfl⟩ | ⟨v, hv, rfl | rfl⟩
    · exact .inr (.inl rfl)
    · exact .inr (.inr (.inl rfl))
    · simp [hp]
    · simp [hv]
    · simp [hv]

/-- Ids the fold repair puts in one bucket with `a`. -/
theorem eq_memberFoldKey_iff (k b : String) :
    k = memberFoldKey .agent b ↔
      (canonicalChannelMemberId b = k ∧ defaultProfileVendorId k = none) ∨
        (k ≠ "" ∧ ':' ∉ k.toList ∧ canonicalChannelMemberId b = builtInAgentProfileId k) := by
  rw [eq_comm]
  exact foldedCanonical_eq_iff (canonicalChannelMemberId b) k

/-! ## Where the two disagree -/

/-- Pairs of spellings on which matching and folding disagree.  All of them start from an id
    whose canonical form `c` is no profile Actor id. -/
inductive SpellingGap (a b : String) : Prop where
  /-- The prefixed default profile id of a bare vendor id folds onto it but is not bound. -/
  | prefixedProfile
      (hbare : hasPrefix agentProfileIdPrefix (canonicalChannelMemberId a) = false)
      (hne : canonicalChannelMemberId a ≠ "")
      (hcolon : ':' ∉ (canonicalChannelMemberId a).toList)
      (hb : b = agentPrefix ++ builtInAgentProfileId (canonicalChannelMemberId a))
  /-- An id that is no vendor segment binds a profile id that does not fold back onto it. -/
  | brokenProfile
      (hbare : hasPrefix agentProfileIdPrefix (canonicalChannelMemberId a) = false)
      (hseg : canonicalChannelMemberId a = "" ∨ ':' ∈ (canonicalChannelMemberId a).toList)
      (hb : b = builtInAgentProfileId (canonicalChannelMemberId a))
  /-- A twice-prefixed id binds its once-prefixed form, whose own canonical form is shorter. -/
  | nestedPrefix
      (hnested : hasPrefix agentPrefix (canonicalChannelMemberId a) = true)
      (hb : b = canonicalChannelMemberId a)

theorem not_profilePrefix_of_no_colon {v : String} (hv : ':' ∉ v.toList) :
    hasPrefix agentProfileIdPrefix v = false := by
  cases h : hasPrefix agentProfileIdPrefix v with
  | false => rfl
  | true => exact absurd (mem_of_hasPrefix h (by decide)) hv

theorem not_gap_of_profile (a b : String)
    (hp : hasPrefix agentProfileIdPrefix (canonicalChannelMemberId a) = true) :
    ¬ SpellingGap a b := by
  intro hgap
  cases hgap with
  | prefixedProfile hbare _ _ _ | brokenProfile hbare _ _ => rw [hp] at hbare; cases hbare
  | nestedPrefix hnested _ =>
    rw [not_agentPrefix_of_profilePrefix hp] at hnested
    cases hnested

/-- Helper: on the default profile of a vendor, both sides name the same four spellings. -/
private theorem agree_of_defaultProfile (a b v : String) (hne : v ≠ "") (hcolon : ':' ∉ v.toList)
    (heq : canonicalChannelMemberId a = builtInAgentProfileId v) :
    MatchesMember a b ↔ memberFoldKey .agent a = memberFoldKey .agent b := by
  have hvendor : defaultProfileVendorId (canonicalChannelMemberId a) = some v :=
    (defaultProfileVendorId_eq_some_iff _ _).mpr ⟨hne, hcolon, heq⟩
  have hkey : memberFoldKey .agent a = v := by simp [memberFoldKey, hvendor]
  have hv : defaultProfileVendorId v = none :=
    defaultProfileVendorId_of_not_profile (not_profilePrefix_of_no_colon hcolon)
  have hpv : hasPrefix agentPrefix v = false := not_agentPrefix_of_no_colon hcolon
  have hpb : hasPrefix agentPrefix (builtInAgentProfileId v) = false :=
    not_agentPrefix_of_profilePrefix (hasPrefix_builtIn v)
  rw [matchesMember_iff, eq_memberFoldKey_iff, canonicalChannelMemberId_eq_iff,
    canonicalChannelMemberId_eq_iff, heq]
  simp only [hasPrefix_builtIn]
  grind

private theorem agree_of_otherProfile (a b : String)
    (hp : hasPrefix agentProfileIdPrefix (canonicalChannelMemberId a) = true)
    (hvendor : defaultProfileVendorId (canonicalChannelMemberId a) = none) :
    MatchesMember a b ↔ memberFoldKey .agent a = memberFoldKey .agent b := by
  have hkey : memberFoldKey .agent a = canonicalChannelMemberId a := by
    simp [memberFoldKey, hvendor]
  have hcolon : ':' ∈ (canonicalChannelMemberId a).toList := mem_of_hasPrefix hp (by decide)
  have hpa := not_agentPrefix_of_profilePrefix hp
  rw [matchesMember_iff, eq_memberFoldKey_iff, canonicalChannelMemberId_eq_iff]
  simp only [hp]
  grind

private theorem fold_eq_of_bare (a b : String)
    (hp : hasPrefix agentProfileIdPrefix (canonicalChannelMemberId a) = false) :
    memberFoldKey .agent a = memberFoldKey .agent b ↔
      (b = agentPrefix ++ canonicalChannelMemberId a ∨
        (b = canonicalChannelMemberId a ∧
          hasPrefix agentPrefix (canonicalChannelMemberId a) = false)) ∨
      (canonicalChannelMemberId a ≠ "" ∧ ':' ∉ (canonicalChannelMemberId a).toList ∧
        (b = builtInAgentProfileId (canonicalChannelMemberId a) ∨
          b = agentPrefix ++ builtInAgentProfileId (canonicalChannelMemberId a))) := by
  have hvendor := defaultProfileVendorId_of_not_profile hp
  have hkey : memberFoldKey .agent a = canonicalChannelMemberId a := by
    simp [memberFoldKey, hvendor]
  have hpb : hasPrefix agentPrefix (builtInAgentProfileId (canonicalChannelMemberId a)) = false :=
    not_agentPrefix_of_profilePrefix (hasPrefix_builtIn _)
  rw [hkey, eq_memberFoldKey_iff, canonicalChannelMemberId_eq_iff, canonicalChannelMemberId_eq_iff]
  grind

private theorem bare_spellings_ne (c : String) :
    builtInAgentProfileId c ≠ agentPrefix ++ c ∧
      agentPrefix ++ builtInAgentProfileId c ≠ builtInAgentProfileId c ∧
      agentPrefix ++ builtInAgentProfileId c ≠ c ∧
      agentPrefix ++ c ≠ c := by
  refine ⟨?_, ?_, ?_, ?_⟩
  · intro h
    have hp := not_agentPrefix_of_profilePrefix (hasPrefix_builtIn c)
    rw [h, hasPrefix_append] at hp
    cases hp
  · intro h
    have hp := not_agentPrefix_of_profilePrefix (hasPrefix_builtIn c)
    rw [← h, hasPrefix_append] at hp
    cases hp
  · intro h
    have hl := congrArg (fun s => s.toList.length) h
    simp [builtInAgentProfileId] at hl
    omega
  · intro h
    have hl := congrArg (fun s => s.toList.length) h
    simp [agentPrefix] at hl
    omega

private theorem agree_of_bare_iff (a b : String)
    (hp : hasPrefix agentProfileIdPrefix (canonicalChannelMemberId a) = false) :
    (MatchesMember a b ↔ memberFoldKey .agent a = memberFoldKey .agent b) ↔ ¬ SpellingGap a b := by
  obtain ⟨hbc, hpb, hpbcan, hpc⟩ := bare_spellings_ne (canonicalChannelMemberId a)
  have hvendor := defaultProfileVendorId_of_not_profile hp
  -- a default profile id carries the profile prefix, which the bare form lacks
  have hcb : builtInAgentProfileId (canonicalChannelMemberId a) ≠ canonicalChannelMemberId a := by
    intro h
    rw [← h, hasPrefix_builtIn] at hp
    cases hp
  have hpbc : agentPrefix ++ builtInAgentProfileId (canonicalChannelMemberId a) ≠
      agentPrefix ++ canonicalChannelMemberId a := by
    rw [Ne, String.append_right_inj]
    exact hcb
  constructor
  · intro hagree hgap
    rw [matchesMember_iff, fold_eq_of_bare a b hp] at hagree
    cases hgap with
    | prefixedProfile _ hne hcolon hb | brokenProfile _ hseg hb | nestedPrefix hnested hb => grind
  · intro hgap
    have h1 : ¬ (canonicalChannelMemberId a ≠ "" ∧ ':' ∉ (canonicalChannelMemberId a).toList ∧
        b = agentPrefix ++ builtInAgentProfileId (canonicalChannelMemberId a)) :=
      fun h => hgap (.prefixedProfile hp h.1 h.2.1 h.2.2)
    have h2 : ¬ ((canonicalChannelMemberId a = "" ∨ ':' ∈ (canonicalChannelMemberId a).toList) ∧
        b = builtInAgentProfileId (canonicalChannelMemberId a)) :=
      fun h => hgap (.brokenProfile hp h.1 h.2)
    have h3 : ¬ (hasPrefix agentPrefix (canonicalChannelMemberId a) = true ∧
        b = canonicalChannelMemberId a) :=
      fun h => hgap (.nestedPrefix h.1 h.2)
    rw [matchesMember_iff, fold_eq_of_bare a b hp]
    grind

theorem matches_iff_fold_eq (a b : String) :
    (MatchesMember a b ↔ memberFoldKey .agent a = memberFoldKey .agent b) ↔
      ¬ SpellingGap a b := by
  cases canonicalShape (canonicalChannelMemberId a) with
  | bare hp => exact agree_of_bare_iff a b hp
  | defaultProfile v hne hcolon heq =>
    refine iff_of_true (agree_of_defaultProfile a b v hne hcolon heq) ?_
    exact not_gap_of_profile a b (by rw [heq]; exact hasPrefix_builtIn v)
  | otherProfile hp hv =>
    exact iff_of_true (agree_of_otherProfile a b hp hv) (not_gap_of_profile a b hp)

end RelayIde.Channel
