import RelayIde.Library.Table
import RelayIde.Search.Query

/-!
# Search Scopes

The `in:` clauses of a channel search name projects or channels
(`server/channel-chat-router.ts`).  They are resolved against the topics the caller may see; the
catalog of workspaces holds others, too.

- `scope_resolution_laws` — visible, conjunctive, unambiguous, and blind to what is not visible
-/

namespace RelayIde.Search

open RelayIde.Library RelayIde.Library.JsText List

/-! ## Aliases -/

structure AliasTables where
  /-- `normalize('NFKC')`. -/
  nfkc : JsText → JsText
  toLowerCase : JsText → JsText

/-- `text.replace(/\s+/g, ' ')`. -/
def collapseSpaces : JsText → JsText
  | [] => []
  | unit :: text =>
    if isSpace unit then
      if text.head?.any isSpace then collapseSpaces text else 32 :: collapseSpaces text
    else unit :: collapseSpaces text

def normalizeChannelSearchAlias (u : AliasTables) (value : JsText) : JsText :=
  u.toLowerCase (collapseSpaces (trim (u.nfkc value)))

/-- What a topic's aliases are taken from. -/
structure WorkspaceTopic where
  id : String
  workspaceId : String
  /-- `display.title`. -/
  title : JsText
  repoPath : Option JsText := none
  worktreePath : Option JsText := none
  cwd : Option JsText := none

structure Workspace where
  id : String
  name : JsText

/-- `path.posix.basename(candidate.replaceAll('\\', '/'))`. -/
def slashBasename (candidate : JsText) : JsText :=
  let slashed := candidate.map fun unit => if unit = 92 then 47 else unit
  (slashed.rdropWhile (· == 47)).rtakeWhile (· != 47)

/-- Human aliases a channel can own without exposing its opaque durable id. -/
def channelSearchAliases (u : AliasTables) (topic : WorkspaceTopic) : List JsText :=
  let paths := [topic.repoPath, topic.worktreePath, topic.cwd].filterMap fun path => path
  let basenames := ((paths.filter (· ≠ [])).map slashBasename).filter (· ≠ [])
  ((topic.title :: basenames).map (normalizeChannelSearchAlias u)).filter (· ≠ [])

/-! ## Resolution -/

/-- The topics the caller may see, by id. -/
abbrev VisibleTopics := Table WorkspaceTopic.id

/-- What an alias names: a key and the channels behind it. -/
structure ScopeTarget where
  key : String
  channelIds : List String

abbrev ScopeTargets := Table ScopeTarget.key

inductive UnavailableReason where
  | scopeNotFound
  | scopeAmbiguous

structure ScopeRefusal where
  unavailableReason : UnavailableReason
  scopeAlias : JsText

section Resolve

variable (u : AliasTables) (visible : VisibleTopics)

def channelsOf (workspace : Workspace) : List String :=
  (visible.rows.filter fun topic => decide (topic.workspaceId = workspace.id)).map (·.id)

/-- The target a workspace of that name is; without visible channels it is treated as absent. -/
def workspaceTarget? (name : JsText) (workspace : Workspace) : Option ScopeTarget :=
  if normalizeChannelSearchAlias u workspace.name ≠ name then none
  else if channelsOf visible workspace = [] then none
  else some ⟨"workspace:" ++ workspace.id, channelsOf visible workspace⟩

local instance : LawfulBEq JsText := inferInstance

def channelTarget? (name : JsText) (topic : WorkspaceTopic) : Option ScopeTarget :=
  if name ∈ channelSearchAliases u topic then some ⟨"channel:" ++ topic.id, [topic.id]⟩ else none

def workspaceTargets (workspaces : List Workspace) (name : JsText) : ScopeTargets :=
  Table.empty.setAll (workspaces.filterMap (workspaceTarget? u visible name))

def channelTargets (name : JsText) : ScopeTargets :=
  Table.empty.setAll (visible.rows.filterMap (channelTarget? u name))

/-- A project owns the bare alias before its channels do. -/
def scopeTargets (workspaces : List Workspace) (name : JsText) : ScopeTargets :=
  let projects := workspaceTargets u visible workspaces name
  if projects.rows ≠ [] then projects else channelTargets u visible name

def resolveAlias (workspaces : List Workspace) (name : JsText) :
    Except ScopeRefusal (List String) :=
  match (scopeTargets u visible workspaces name).rows with
  | [] => .error ⟨.scopeNotFound, name⟩
  | [target] => .ok target.channelIds
  | _ => .error ⟨.scopeAmbiguous, name⟩

/-- The loop over the aliases: repeated clauses are conjunctive. -/
def resolveFrom (workspaces : List Workspace) (selected : Option (List String)) :
    List JsText → Except ScopeRefusal (List String)
  | [] => .ok (selected.getD [])
  | name :: names =>
    match resolveAlias u visible workspaces name with
    | .error refusal => .error refusal
    | .ok resolved =>
      resolveFrom workspaces
        (some (match selected with
          | none => resolved
          | some selected => selected.filter (· ∈ resolved)))
        names

def resolveChannelSearchScopes (names : List JsText) (workspaces : List Workspace) :
    Except ScopeRefusal (List String) :=
  if names = [] then .ok (visible.rows.map (·.id))
  else resolveFrom u visible workspaces none names

end Resolve

/-! ## What an alias names -/

variable {workspace : Workspace} {id : String} {name : JsText} {target : ScopeTarget}
  {ids : List String} {workspaces' : List Workspace} {names : List JsText}

section Targets

variable {u : AliasTables} {visible : VisibleTopics}

structure NamedProject (u : AliasTables) (visible : VisibleTopics) (workspaces : List Workspace)
    (name : JsText) (workspace : Workspace) : Prop where
  listed : workspace ∈ workspaces
  named : normalizeChannelSearchAlias u workspace.name = name
  seen : ∃ topic ∈ visible.rows, topic.workspaceId = workspace.id

structure NamedChannel (u : AliasTables) (visible : VisibleTopics) (name : JsText)
    (topic : WorkspaceTopic) : Prop where
  seen : topic ∈ visible.rows
  named : name ∈ channelSearchAliases u topic

theorem channelsOf_ne_nil_iff (workspace : Workspace) :
    channelsOf visible workspace ≠ [] ↔
      ∃ topic ∈ visible.rows, topic.workspaceId = workspace.id := by
  unfold channelsOf
  rw [ne_eq, map_eq_nil_iff, filter_eq_nil_iff]
  push Not
  simp only [decide_eq_true_eq]

theorem mem_channelsOf :
    id ∈ channelsOf visible workspace ↔
      ∃ topic ∈ visible.rows, topic.workspaceId = workspace.id ∧ topic.id = id := by
  unfold channelsOf
  simp [and_assoc]

theorem workspaceTarget?_eq_some_iff :
    workspaceTarget? u visible name workspace = some target ↔
      normalizeChannelSearchAlias u workspace.name = name ∧
        (∃ topic ∈ visible.rows, topic.workspaceId = workspace.id) ∧
        target = ⟨"workspace:" ++ workspace.id, channelsOf visible workspace⟩ := by
  rw [← channelsOf_ne_nil_iff]
  unfold workspaceTarget?
  split
  · next hname => exact iff_of_false (by simp) (fun h => hname h.1)
  · next hname =>
    rw [not_not] at hname
    split
    · next hnil => exact iff_of_false (by simp) (fun h => h.2.1 hnil)
    · next hnil =>
      rw [Option.some.injEq]
      exact ⟨fun h => ⟨hname, hnil, h.symm⟩, fun h => h.2.2.symm⟩

theorem append_left_injective {front a b : String} (h : front ++ a = front ++ b) : a = b := by
  have hlist := congrArg String.toList h
  rw [String.toList_append, String.toList_append, append_cancel_left_eq] at hlist
  exact String.toList_inj.mp hlist

theorem mem_workspaceTargets {workspaces : List Workspace} :
    target ∈ (workspaceTargets u visible workspaces name).rows ↔
      ∃ workspace, NamedProject u visible workspaces name workspace ∧
        target = ⟨"workspace:" ++ workspace.id, channelsOf visible workspace⟩ := by
  have hmem (target : ScopeTarget) :
      target ∈ workspaces.filterMap (workspaceTarget? u visible name) ↔
        ∃ workspace, NamedProject u visible workspaces name workspace ∧
          target = ⟨"workspace:" ++ workspace.id, channelsOf visible workspace⟩ := by
    rw [mem_filterMap]
    constructor
    · rintro ⟨workspace, hlisted, htarget⟩
      obtain ⟨hnamed, hseen, htarget⟩ := workspaceTarget?_eq_some_iff.mp htarget
      exact ⟨workspace, ⟨hlisted, hnamed, hseen⟩, htarget⟩
    · rintro ⟨workspace, ⟨hlisted, hnamed, hseen⟩, htarget⟩
      exact ⟨workspace, hlisted, workspaceTarget?_eq_some_iff.mpr ⟨hnamed, hseen, htarget⟩⟩
  rw [workspaceTargets, Table.mem_setAll]
  · rw [hmem]
    exact or_iff_right not_mem_nil
  · -- the channels of a target depend on its key only
    intro a ha b hb hkey
    obtain ⟨workspace, -, rfl⟩ := (hmem a).mp ha
    obtain ⟨workspace', -, rfl⟩ := (hmem b).mp hb
    have hid := append_left_injective hkey
    unfold channelsOf
    rw [hid]

theorem mem_channelTargets :
    target ∈ (channelTargets u visible name).rows ↔
      ∃ topic, NamedChannel u visible name topic ∧
        target = ⟨"channel:" ++ topic.id, [topic.id]⟩ := by
  have hmem (target : ScopeTarget) :
      target ∈ visible.rows.filterMap (channelTarget? u name) ↔
        ∃ topic, NamedChannel u visible name topic ∧
          target = ⟨"channel:" ++ topic.id, [topic.id]⟩ := by
    rw [mem_filterMap]
    constructor
    · rintro ⟨topic, hseen, htarget⟩
      unfold channelTarget? at htarget
      split at htarget
      · next hnamed => exact ⟨topic, ⟨hseen, hnamed⟩, (Option.some.inj htarget).symm⟩
      · cases htarget
    · rintro ⟨topic, ⟨hseen, hnamed⟩, rfl⟩
      exact ⟨topic, hseen, if_pos hnamed⟩
  rw [channelTargets, Table.mem_setAll]
  · rw [hmem]
    exact or_iff_right not_mem_nil
  · intro a ha b hb hkey
    obtain ⟨topic, -, rfl⟩ := (hmem a).mp ha
    obtain ⟨topic', -, rfl⟩ := (hmem b).mp hb
    rw [append_left_injective hkey]

variable {workspaces : List Workspace}

theorem workspaceTargets_eq_nil_iff :
    (workspaceTargets u visible workspaces name).rows = [] ↔
      ∀ workspace, ¬ NamedProject u visible workspaces name workspace := by
  rw [eq_nil_iff_forall_not_mem]
  constructor
  · intro h workspace hnamed
    exact h _ (mem_workspaceTargets.mpr ⟨workspace, hnamed, rfl⟩)
  · intro h target hmem
    obtain ⟨workspace, hnamed, -⟩ := mem_workspaceTargets.mp hmem
    exact h workspace hnamed

theorem mem_scopeTargets :
    target ∈ (scopeTargets u visible workspaces name).rows ↔
      (∃ workspace, NamedProject u visible workspaces name workspace ∧
        target = ⟨"workspace:" ++ workspace.id, channelsOf visible workspace⟩) ∨
      ((∀ workspace, ¬ NamedProject u visible workspaces name workspace) ∧
        ∃ topic, NamedChannel u visible name topic ∧
          target = ⟨"channel:" ++ topic.id, [topic.id]⟩) := by
  unfold scopeTargets
  simp only
  split
  · next hprojects =>
    rw [ne_eq, workspaceTargets_eq_nil_iff] at hprojects
    rw [mem_workspaceTargets]
    exact (or_iff_left fun h => hprojects h.1).symm
  · next hprojects =>
    rw [not_not, workspaceTargets_eq_nil_iff] at hprojects
    rw [mem_channelTargets]
    constructor
    · exact fun h => .inr ⟨hprojects, h⟩
    · rintro (⟨workspace, hnamed, -⟩ | ⟨-, h⟩)
      · exact absurd hnamed (hprojects workspace)
      · exact h

theorem resolveAlias_ok_iff :
    resolveAlias u visible workspaces name = .ok ids ↔
      ∃ target, (scopeTargets u visible workspaces name).rows = [target] ∧
        ids = target.channelIds := by
  unfold resolveAlias
  rcases (scopeTargets u visible workspaces name).rows with _ | ⟨target, _ | ⟨target', more⟩⟩
  · simp
  · simp [eq_comm]
  · simp

def Matches (u : AliasTables) (workspaces : List Workspace) (name : JsText)
    (topic : WorkspaceTopic) : Prop :=
  (∃ workspace ∈ workspaces, normalizeChannelSearchAlias u workspace.name = name ∧
    topic.workspaceId = workspace.id) ∨ name ∈ channelSearchAliases u topic

/-- **One alias** resolves to visible channels it matches. -/
theorem visible_of_resolveAlias
    (h : resolveAlias u visible workspaces name = .ok ids)
    (hid : id ∈ ids) : ∃ topic ∈ visible.rows, topic.id = id ∧ Matches u workspaces name topic := by
  obtain ⟨target, hrows, rfl⟩ := resolveAlias_ok_iff.mp h
  have hmem : target ∈ (scopeTargets u visible workspaces name).rows := by
    rw [hrows]
    exact mem_singleton_self target
  rcases mem_scopeTargets.mp hmem with ⟨workspace, hnamed, rfl⟩ | ⟨-, topic, hnamed, rfl⟩
  · obtain ⟨topic, hseen, hworkspace, rfl⟩ := mem_channelsOf.mp hid
    exact ⟨topic, hseen, rfl, .inl ⟨workspace, hnamed.listed, hnamed.named, hworkspace⟩⟩
  · rw [mem_singleton.mp hid]
    exact ⟨topic, hnamed.seen, rfl, .inr hnamed.named⟩

/-- Two targets: two projects of that name, or no project and two channels. -/
def Ambiguous (u : AliasTables) (visible : VisibleTopics) (workspaces : List Workspace)
    (name : JsText) : Prop :=
  (∃ workspace workspace', NamedProject u visible workspaces name workspace ∧
    NamedProject u visible workspaces name workspace' ∧ workspace.id ≠ workspace'.id) ∨
  ((∀ workspace, ¬ NamedProject u visible workspaces name workspace) ∧
    ∃ topic topic', NamedChannel u visible name topic ∧ NamedChannel u visible name topic' ∧
      topic.id ≠ topic'.id)

theorem not_resolves_of_ambiguous
    (h : Ambiguous u visible workspaces name) (ids : List String) :
    resolveAlias u visible workspaces name ≠ .ok ids := by
  intro hok
  obtain ⟨target, hrows, -⟩ := resolveAlias_ok_iff.mp hok
  -- both targets would have to be the only one
  have honly {t : ScopeTarget} (ht : t ∈ (scopeTargets u visible workspaces name).rows) :
      t = target := by
    rw [hrows] at ht
    exact mem_singleton.mp ht
  rcases h with ⟨workspace, workspace', hnamed, hnamed', hne⟩ |
    ⟨hnone, topic, topic', hnamed, hnamed', hne⟩
  · have heq := (honly (mem_scopeTargets.mpr (.inl ⟨workspace, hnamed, rfl⟩))).trans
      (honly (mem_scopeTargets.mpr (.inl ⟨workspace', hnamed', rfl⟩))).symm
    exact hne (append_left_injective (congrArg ScopeTarget.key heq))
  · have heq := (honly (mem_scopeTargets.mpr (.inr ⟨hnone, topic, hnamed, rfl⟩))).trans
      (honly (mem_scopeTargets.mpr (.inr ⟨hnone, topic', hnamed', rfl⟩))).symm
    exact hne (append_left_injective (congrArg ScopeTarget.key heq))

/-- The catalogs list the same workspaces among those with a visible channel. -/
def Agree (visible : VisibleTopics) (workspaces workspaces' : List Workspace) : Prop :=
  ∀ workspace : Workspace, (∃ topic ∈ visible.rows, topic.workspaceId = workspace.id) →
    (workspace ∈ workspaces ↔ workspace ∈ workspaces')

theorem Agree.namedProject_iff
    (h : Agree visible workspaces workspaces') (name : JsText) (workspace : Workspace) :
    NamedProject u visible workspaces name workspace ↔
      NamedProject u visible workspaces' name workspace :=
  ⟨fun hnamed => ⟨(h workspace hnamed.seen).mp hnamed.listed, hnamed.named, hnamed.seen⟩,
    fun hnamed => ⟨(h workspace hnamed.seen).mpr hnamed.listed, hnamed.named, hnamed.seen⟩⟩

/-- **Two runs**: an alias fares alike in catalogs that agree on what is visible. -/
theorem resolveAlias_congr
    (h : Agree visible workspaces workspaces') (name : JsText) :
    resolveAlias u visible workspaces name = resolveAlias u visible workspaces' name := by
  have hperm : (scopeTargets u visible workspaces name).rows.Perm
      (scopeTargets u visible workspaces' name).rows := by
    rw [perm_ext_iff_of_nodup (Table.rows_nodup _) (Table.rows_nodup _)]
    intro target
    rw [mem_scopeTargets, mem_scopeTargets]
    simp only [h.namedProject_iff]
  unfold resolveAlias
  rcases hrows : (scopeTargets u visible workspaces name).rows with
    _ | ⟨target, _ | ⟨target', more⟩⟩ <;> rw [hrows] at hperm
  · rw [hperm.nil_eq]
  · rw [perm_singleton.mp hperm.symm]
  · -- two targets or more, in whatever order
    rcases hrows' : (scopeTargets u visible workspaces' name).rows with
      _ | ⟨target₂, _ | ⟨target₂', more'⟩⟩
    · rw [hrows'] at hperm
      cases hperm.eq_nil
    · rw [hrows'] at hperm
      exact absurd hperm.length_eq (by simp)
    · rfl

end Targets

/-! ## A list of aliases -/

section Lists

variable {u : AliasTables} {visible : VisibleTopics} {workspaces : List Workspace}

theorem resolveFrom_ok_iff (selected : Option (List String)) (names : List JsText) :
    (∃ ids, resolveFrom u visible workspaces selected names = .ok ids) ↔
      ∀ name ∈ names, ∃ ids, resolveAlias u visible workspaces name = .ok ids := by
  induction names generalizing selected with
  | nil => exact iff_of_true ⟨_, rfl⟩ (by simp)
  | cons name names ih =>
    rw [forall_mem_cons]
    cases hname : resolveAlias u visible workspaces name with
    | error refusal =>
      refine iff_of_false ?_ (by simp)
      rintro ⟨ids, hids⟩
      rw [resolveFrom, hname] at hids
      cases hids
    | ok resolved =>
      simp only [resolveFrom, hname, ih]
      exact (and_iff_right ⟨resolved, rfl⟩).symm

theorem mem_resolveFrom {selected : List String}
    (h : resolveFrom u visible workspaces (some selected) names = .ok ids) (id : String) :
    id ∈ ids ↔ id ∈ selected ∧
      ∀ name ∈ names, ∃ resolved, resolveAlias u visible workspaces name = .ok resolved ∧
        id ∈ resolved := by
  induction names generalizing selected with
  | nil =>
    obtain rfl := Except.ok.inj h
    simp
  | cons name names ih =>
    rw [resolveFrom] at h
    cases hname : resolveAlias u visible workspaces name with
    | error refusal =>
      rw [hname] at h
      cases h
    | ok resolved =>
      rw [hname] at h
      rw [ih h, mem_filter, forall_mem_cons, hname, and_assoc]
      simp

/-- **Conjunction**: a list of aliases resolves to what each of them names. -/
theorem mem_resolve_iff
    (h : resolveChannelSearchScopes u visible names workspaces = .ok ids) (id : String) :
    id ∈ ids ↔ (∃ topic ∈ visible.rows, topic.id = id) ∧
      ∀ name ∈ names, ∃ resolved, resolveAlias u visible workspaces name = .ok resolved ∧
        id ∈ resolved := by
  unfold resolveChannelSearchScopes at h
  split at h
  · next hnil =>
    obtain rfl := Except.ok.inj h
    rw [hnil]
    simp
  · next hne =>
    cases names with
    | nil => exact absurd rfl hne
    | cons name names =>
      rw [resolveFrom] at h
      cases hname : resolveAlias u visible workspaces name with
      | error refusal =>
        rw [hname] at h
        cases h
      | ok resolved =>
        rw [hname] at h
        rw [mem_resolveFrom h, forall_mem_cons, hname]
        simp only [Except.ok.injEq, exists_eq_left']
        constructor
        · rintro ⟨hid, hrest⟩
          obtain ⟨topic, hseen, hsame, -⟩ := visible_of_resolveAlias hname hid
          exact ⟨⟨topic, hseen, hsame⟩, hid, hrest⟩
        · rintro ⟨-, hboth⟩
          exact hboth

theorem resolve_ok_iff (names : List JsText) :
    (∃ ids, resolveChannelSearchScopes u visible names workspaces = .ok ids) ↔
      ∀ name ∈ names, ∃ ids, resolveAlias u visible workspaces name = .ok ids := by
  unfold resolveChannelSearchScopes
  split
  · next hnil => exact iff_of_true ⟨_, rfl⟩ (by simp [hnil])
  · exact resolveFrom_ok_iff none names

theorem resolveFrom_congr
    (h : Agree visible workspaces workspaces') (selected : Option (List String))
    (names : List JsText) :
    resolveFrom u visible workspaces selected names =
      resolveFrom u visible workspaces' selected names := by
  induction names generalizing selected with
  | nil => rfl
  | cons name names ih =>
    rw [resolveFrom, resolveFrom, resolveAlias_congr h]
    cases resolveAlias u visible workspaces' name with
    | error refusal => rfl
    | ok resolved => exact ih _

end Lists

structure ScopeLaws (u : AliasTables) (visible : VisibleTopics) (workspaces : List Workspace)
    (names : List JsText) : Prop where
  /-- Only visible channels are returned, each matched by every alias. -/
  matched : ∀ ids, resolveChannelSearchScopes u visible names workspaces = .ok ids →
    ∀ id ∈ ids, ∃ topic ∈ visible.rows, topic.id = id ∧
      ∀ name ∈ names, Matches u workspaces name topic
  /-- The list resolves when each alias does by itself. -/
  resolves : (∃ ids, resolveChannelSearchScopes u visible names workspaces = .ok ids) ↔
    ∀ name ∈ names, ∃ ids, resolveChannelSearchScopes u visible [name] workspaces = .ok ids
  /-- Then it resolves to the visible channels that each alias by itself resolves to. -/
  conjunctive : ∀ ids, resolveChannelSearchScopes u visible names workspaces = .ok ids →
    ∀ id, id ∈ ids ↔ (∃ topic ∈ visible.rows, topic.id = id) ∧
      ∀ name ∈ names, ∃ resolved,
        resolveChannelSearchScopes u visible [name] workspaces = .ok resolved ∧ id ∈ resolved
  /-- Neither order nor repetition of the aliases matters. -/
  unordered : ∀ names', (∀ name, name ∈ names ↔ name ∈ names') →
    ∀ ids, resolveChannelSearchScopes u visible names workspaces = .ok ids →
      ∃ ids', resolveChannelSearchScopes u visible names' workspaces = .ok ids' ∧
        ∀ id, id ∈ ids ↔ id ∈ ids'
  /-- An alias that names two targets never resolves. -/
  unambiguous : ∀ name ∈ names, Ambiguous u visible workspaces name →
    ∀ ids, resolveChannelSearchScopes u visible names workspaces ≠ .ok ids
  /-- Catalogs that agree on what is visible give the same result, refusals included. -/
  blind : ∀ workspaces', Agree visible workspaces workspaces' →
    resolveChannelSearchScopes u visible names workspaces' =
      resolveChannelSearchScopes u visible names workspaces

variable (u : AliasTables) (visible : VisibleTopics) (workspaces : List Workspace)

theorem resolve_singleton (name : JsText) :
    resolveChannelSearchScopes u visible [name] workspaces =
      resolveAlias u visible workspaces name := by
  rw [resolveChannelSearchScopes, resolveFrom]
  cases resolveAlias u visible workspaces name <;> rfl

/-- **Scopes leak nothing**: for every list of aliases, every map of visible topics and every
    catalog of workspaces. -/
theorem scope_resolution_laws (names : List JsText) : ScopeLaws u visible workspaces names where
  matched := by
    intro ids h id hid
    obtain ⟨⟨topic, hseen, rfl⟩, hnames⟩ := (mem_resolve_iff h id).mp hid
    refine ⟨topic, hseen, rfl, fun name hname => ?_⟩
    obtain ⟨resolved, hresolved, hmem⟩ := hnames name hname
    obtain ⟨topic', hseen', hsame, hmatches⟩ := visible_of_resolveAlias hresolved hmem
    rwa [← visible.eq_of_key_eq hseen' hseen hsame]
  resolves := by
    simp only [resolve_singleton]
    exact resolve_ok_iff names
  conjunctive := by
    simp only [resolve_singleton]
    exact fun ids h => mem_resolve_iff h
  unordered := by
    intro names' hsame ids h
    have hall := (resolve_ok_iff names).mp ⟨ids, h⟩
    obtain ⟨ids', h'⟩ := (resolve_ok_iff names').mpr fun name hname =>
      hall name ((hsame name).mpr hname)
    refine ⟨ids', h', fun id => ?_⟩
    rw [mem_resolve_iff h, mem_resolve_iff h']
    simp only [hsame]
  unambiguous := by
    intro name hname hambiguous ids h
    obtain ⟨resolved, hresolved⟩ := (resolve_ok_iff names).mp ⟨ids, h⟩ name hname
    exact not_resolves_of_ambiguous hambiguous resolved hresolved
  blind := by
    intro workspaces' hagree
    unfold resolveChannelSearchScopes
    rw [resolveFrom_congr hagree]

end RelayIde.Search
