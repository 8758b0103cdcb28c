import RelayIde.Library.Text

/-!
# The Workspace Filter of the Work-Context Store

`WorkContextStore.list` filters by workspace with a SQL mirror of `normalizeWorkspaceId`.
The mirror trims with SQL's `TRIM`, which removes only U+0020; the function trims every
kind of white space, and an empty query id is no filter at all.

- `ScopeAgrees.of_contexts` — the topics derived from it are then the scoped part of all
-/

namespace RelayIde.Workspace.Contexts

open RelayIde.Library List

/-! ## Workspace ids -/

def LOCAL_WORKSPACE_ID : String := "ws:local"

def LEGACY_WORKSPACE_ID_SENTINELS : List String := ["workspace:local", "ws:derived"]

def isLegacyWorkspaceIdSentinel (value : String) : Bool :=
  LEGACY_WORKSPACE_ID_SENTINELS.contains (Text.trim value)

def isLocalWorkspaceRef : Option String → Bool
  | none => true
  | some value =>
    let trimmed := Text.trim value
    trimmed == "" || trimmed == LOCAL_WORKSPACE_ID || isLegacyWorkspaceIdSentinel trimmed

def normalizeWorkspaceId (raw : Option String) : String :=
  if isLocalWorkspaceRef raw then LOCAL_WORKSPACE_ID else Text.trim (raw.getD "")

/-- SQL `TRIM`. -/
def sqlTrim (s : String) : String :=
  String.ofList ((s.toList.dropWhile (· == ' ')).rdropWhile (· == ' '))

/-- `LOCAL_WORKSPACE_SQL_ALIASES`. -/
def sqlAliases : List String := "" :: LEGACY_WORKSPACE_ID_SENTINELS

/-- `NORMALIZED_WORKSPACE_ID_SQL` on valid JSON; `json_extract` of a missing id is `NULL`. -/
def normalizedWorkspaceIdSql (raw : Option String) : String :=
  let trimmed := (raw.map sqlTrim).getD ""
  if sqlAliases.contains trimmed then LOCAL_WORKSPACE_ID else trimmed

theorem trim_trim (s : String) : Text.trim (Text.trim s) = Text.trim s := by
  have hdrop : ((s.toList.dropWhile Text.isSpace).rdropWhile Text.isSpace).dropWhile Text.isSpace =
      (s.toList.dropWhile Text.isSpace).rdropWhile Text.isSpace := by
    rw [dropWhile_eq_self_iff]
    intro hlength
    have hstart := rdropWhile_prefix Text.isSpace (s.toList.dropWhile Text.isSpace)
    rw [hstart.getElem hlength]
    exact dropWhile_get_zero_not Text.isSpace s.toList (hlength.trans_le hstart.length_le)
  rw [Text.trim, Text.trim, String.toList_ofList, hdrop, rdropWhile_idempotent]

theorem trim_pad {a b : List Char} (ha : ∀ c ∈ a, Text.isSpace c = true)
    (hb : ∀ c ∈ b, Text.isSpace c = true) (m : List Char) :
    Text.trim (String.ofList (a ++ m ++ b)) = Text.trim (String.ofList m) := by
  have hdrop : ∀ l : List Char, (l ++ b).rdropWhile Text.isSpace = l.rdropWhile Text.isSpace := by
    intro l
    rw [List.rdropWhile, reverse_append, dropWhile_append_of_pos, List.rdropWhile]
    intro c hc
    exact hb c (mem_reverse.mp hc)
  rw [Text.trim, Text.trim, String.toList_ofList, String.toList_ofList, append_assoc,
    dropWhile_append_of_pos ha, dropWhile_append]
  split
  · rename_i hall
    rw [isEmpty_iff.mp hall, dropWhile_eq_nil_iff.mpr hb]
  · rw [hdrop]

/-- `TRIM` removes part of what `trim` does. -/
theorem trim_sqlTrim (s : String) : Text.trim (sqlTrim s) = Text.trim s := by
  have hspace : ∀ c, (c == ' ') = true → Text.isSpace c = true := by
    intro c hc
    rw [beq_iff_eq.mp hc]
    decide
  have hsplit : s.toList = s.toList.takeWhile (· == ' ') ++
      (s.toList.dropWhile (· == ' ')).rdropWhile (· == ' ') ++
      (s.toList.dropWhile (· == ' ')).rtakeWhile (· == ' ') := by
    rw [append_assoc, rdropWhile_append_rtakeWhile, takeWhile_append_dropWhile]
  conv_rhs => rw [← String.ofList_toList (s := s), hsplit]
  rw [sqlTrim, trim_pad]
  · intro c hc
    exact hspace c (mem_takeWhile_imp (p := (· == ' ')) hc)
  · intro c hc
    exact hspace c (mem_rtakeWhile_imp (p := (· == ' ')) hc)

theorem normalizeWorkspaceId_eq (value : String) :
    normalizeWorkspaceId (some value) =
      if Text.trim value ∈ LOCAL_WORKSPACE_ID :: sqlAliases then LOCAL_WORKSPACE_ID
      else Text.trim value := by
  have hlocal : isLocalWorkspaceRef (some value) = true ↔
      Text.trim value ∈ LOCAL_WORKSPACE_ID :: sqlAliases := by
    rw [isLocalWorkspaceRef, isLegacyWorkspaceIdSentinel, trim_trim]
    generalize Text.trim value = t
    simp only [sqlAliases, Bool.or_eq_true, beq_iff_eq, contains_iff_mem, mem_cons]
    tauto
  rw [normalizeWorkspaceId, Option.getD_some]
  simp only [hlocal]

theorem trim_normalizeWorkspaceId (raw : Option String) :
    Text.trim (normalizeWorkspaceId raw) = normalizeWorkspaceId raw := by
  have hlocal : Text.trim LOCAL_WORKSPACE_ID = LOCAL_WORKSPACE_ID := by decide
  unfold normalizeWorkspaceId
  split
  · exact hlocal
  · exact trim_trim _

variable {value : String}

theorem normalizedWorkspaceIdSql_eq (h : sqlTrim value = Text.trim value) :
    normalizedWorkspaceIdSql (some value) = normalizeWorkspaceId (some value) := by
  rw [normalizeWorkspaceId_eq, normalizedWorkspaceIdSql, Option.map_some, h]
  by_cases hlocal : Text.trim value = LOCAL_WORKSPACE_ID
  · simp [hlocal]
  · simp [hlocal]

/-- Where they do not, the SQL side keeps white space that no normalised id has. -/
theorem normalizedWorkspaceIdSql_ne (h : sqlTrim value ≠ Text.trim value)
    (raw : Option String) : normalizedWorkspaceIdSql (some value) ≠ normalizeWorkspaceId raw := by
  have hpadded : Text.trim (sqlTrim value) ≠ sqlTrim value := by
    rw [trim_sqlTrim]
    exact h.symm
  have halias : sqlTrim value ∉ sqlAliases := by
    intro hmem
    apply hpadded
    have htrimmed : ∀ a ∈ sqlAliases, Text.trim a = a := by decide
    exact htrimmed _ hmem
  intro heq
  apply hpadded
  rw [normalizedWorkspaceIdSql, Option.map_some, Option.getD_some, if_neg (by simpa using halias)]
    at heq
  rw [heq, trim_normalizeWorkspaceId]

/-! ## The store -/

structure SessionRef where
  nodeId : String
  sessionId : String
  cwd : Option String

/-- A work context, as far as listing and deriving read it. -/
structure WorkContext (T : Type) where
  id : String
  title : Option String
  createdAt : String
  updatedAt : String
  /-- `anchors.project?.workspaceId`. -/
  workspaceId : Option String
  session : Option SessionRef
  /-- `anchors.repo?.localPath`. -/
  repoPath : Option String
  /-- `anchors.worktree?.localPath`. -/
  worktreePath : Option String
  tasks : List T
  artifactIds : List String

/-- A row: an update of `context_json` leaves `created_at` as it was inserted. -/
structure WorkContextRow (T : Type) where
  createdAt : String
  context : WorkContext T

variable {T : Type} {valid : WorkContext T → Bool}

/-- A string JavaScript takes for true. -/
def truthy (s : Option String) : Option String :=
  s.filter (· ≠ "")

/-- `valid` stands for `assertValidPersistableContext`. -/
def canonicalizePersistableContext (valid : WorkContext T → Bool) (context : WorkContext T) :
    Option (WorkContext T) := do
  guard (valid context)
  let canonical := { context with title := truthy context.title }
  guard (valid canonical)
  pure canonical

/-- `upsertContext`. -/
def upsertContext (rows : List (WorkContextRow T)) (context : WorkContext T) :
    List (WorkContextRow T) :=
  if rows.any (·.context.id == context.id) then
    rows.map fun row => if row.context.id == context.id then { row with context } else row
  else rows ++ [⟨context.createdAt, context⟩]

/-- Every writer of the store ends here; a context that is refused changes no row. -/
def write (valid : WorkContext T → Bool) (rows : List (WorkContextRow T))
    (context : WorkContext T) : List (WorkContextRow T) :=
  ((canonicalizePersistableContext valid context).map (upsertContext rows)).getD rows

/-- The rows of a store after a sequence of writes. -/
def stored (valid : WorkContext T → Bool) (writes : List (WorkContext T)) :
    List (WorkContextRow T) :=
  writes.foldl (write valid) []

def rowToContext (valid : WorkContext T → Bool) (row : WorkContextRow T) :
    Option (WorkContext T) :=
  canonicalizePersistableContext valid row.context

/-- `ORDER BY updated_at DESC, created_at DESC`. -/
def recency (a b : WorkContextRow T) : Prop :=
  b.context.updatedAt < a.context.updatedAt ∨
    (a.context.updatedAt = b.context.updatedAt ∧ b.createdAt ≤ a.createdAt)

instance : DecidableRel (recency (T := T)) := fun a b => by
  unfold recency
  infer_instance

instance : Std.Total (recency (T := T)) := ⟨fun a b => by
  rcases lt_trichotomy a.context.updatedAt b.context.updatedAt with h | h | h
  · exact .inr (.inl h)
  · exact (le_total b.createdAt a.createdAt).imp (.inr ⟨h, ·⟩) (.inr ⟨h.symm, ·⟩)
  · exact .inl (.inl h)⟩

instance : IsTrans (WorkContextRow T) recency := ⟨fun a b c hab hbc => by
  rcases hab with hab | ⟨hab, hab'⟩ <;> rcases hbc with hbc | ⟨hbc, hbc'⟩
  · exact .inl (hbc.trans hab)
  · exact .inl (hbc ▸ hab)
  · exact .inl (hab ▸ hbc)
  · exact .inr ⟨hab.trans hbc, hbc'.trans hab'⟩⟩

structure ListOptions where
  workspaceId : Option String := none
  limit : Option ℕ := none

/-- `WorkContextStore.list`; an empty `workspaceId` and a zero `limit` count as absent. -/
def list (valid : WorkContext T → Bool) (rows : List (WorkContextRow T)) (options : ListOptions) :
    List (WorkContext T) :=
  let matching := match truthy options.workspaceId with
    | some workspaceId => rows.filter fun row : WorkContextRow T =>
        normalizedWorkspaceIdSql row.context.workspaceId == normalizeWorkspaceId (some workspaceId)
    | none => rows
  let selected := match options.limit.filter (0 < ·) with
    | some limit => (matching.insertionSort recency).take limit
    | none => matching.insertionSort recency
  selected.filterMap (rowToContext valid)

/-- What the store keeps is canonical, so no read drops or changes it. -/
def Canonical (valid : WorkContext T → Bool) (row : WorkContextRow T) : Prop :=
  rowToContext valid row = some row.context

theorem truthy_truthy (s : Option String) : truthy (truthy s) = truthy s := by
  rw [truthy, truthy, Option.filter_filter]
  simp only [Bool.and_self]

theorem canonicalize_idem {context canonical : WorkContext T}
    (h : canonicalizePersistableContext valid context = some canonical) :
    canonicalizePersistableContext valid canonical = some canonical := by
  simp only [canonicalizePersistableContext, Option.bind_eq_bind, Option.bind_eq_some_iff,
    Option.guard_eq_some', Option.pure_def, Option.some.injEq] at h ⊢
  obtain ⟨-, -, -, hvalid, rfl⟩ := h
  refine ⟨(), hvalid, (), ?_, ?_⟩
  · rw [truthy_truthy]
    exact hvalid
  · rw [truthy_truthy]

variable {rows : List (WorkContextRow T)} {w : String}

theorem canonical_write (h : ∀ row ∈ rows, Canonical valid row)
    (context : WorkContext T) : ∀ row ∈ write valid rows context, Canonical valid row := by
  intro row hrow
  cases hcanonical : canonicalizePersistableContext valid context with
  | none =>
    rw [write, hcanonical] at hrow
    exact h row hrow
  | some canonical =>
    have hnew := canonicalize_idem hcanonical
    rw [write, hcanonical, Option.map_some, upsertContext] at hrow
    split at hrow
    · obtain ⟨old, hold, rfl⟩ := mem_map.mp hrow
      split
      · exact hnew
      · exact h old hold
    · rcases mem_append.mp hrow with hrow | hrow
      · exact h row hrow
      · rw [mem_singleton.mp hrow]
        exact hnew

theorem canonical_stored (writes : List (WorkContext T)) :
    ∀ row ∈ stored valid writes, Canonical valid row := by
  refine List.foldlRecOn (motive := fun rows => ∀ row ∈ rows, Canonical valid row) writes
    (write valid) ?_ ?_
  · intro row hrow
    cases hrow
  · intro rows hrows context _
    exact canonical_write hrows context

/-! ## The scoped list -/

variable (p : WorkContextRow T → Bool)

theorem filter_orderedInsert (a : WorkContextRow T)
    (h : rows.Pairwise recency) :
    (rows.orderedInsert recency a).filter p =
      if p a then (rows.filter p).orderedInsert recency a else rows.filter p := by
  induction rows with
  | nil => by_cases ha : p a <;> simp [ha]
  | cons b rest ih =>
    obtain ⟨hb, hrest⟩ := pairwise_cons.mp h
    by_cases hab : recency a b
    · have hfirst : ∀ row ∈ (b :: rest).filter p, recency a row := by
        intro row hrow
        rcases mem_cons.mp (mem_filter.mp hrow).1 with rfl | hrow
        · exact hab
        · exact IsTrans.trans _ _ _ hab (hb row hrow)
      rw [orderedInsert_cons_of_le _ _ hab, filter_cons]
      cases hrows : (b :: rest).filter p with
      | nil => simp
      | cons c cs =>
        rw [orderedInsert_cons_of_le _ _ (hfirst c (by simp [hrows]))]
    · rw [orderedInsert_cons, if_neg hab, filter_cons, ih hrest]
      by_cases hp : p b <;> by_cases ha : p a <;> simp [hp, ha, hab]

theorem filter_insertionSort (rows : List (WorkContextRow T)) :
    (rows.insertionSort recency).filter p = (rows.filter p).insertionSort recency := by
  induction rows with
  | nil => rfl
  | cons a rest ih =>
    rw [insertionSort_cons, filter_orderedInsert p a (pairwise_insertionSort _ _), ih, filter_cons]
    split
    · rfl
    · rfl

theorem filterMap_rowToContext (h : ∀ row ∈ rows, Canonical valid row) :
    rows.filterMap (rowToContext valid) = rows.map (·.context) := by
  rw [← filterMap_eq_map]
  exact filterMap_congr h

variable (writes : List (WorkContext T))

theorem list_all :
    list valid (stored valid writes) {} =
      ((stored valid writes).insertionSort recency).map (·.context) := by
  have hcanonical : ∀ row ∈ (stored valid writes).insertionSort recency, Canonical valid row := by
    intro row hrow
    exact canonical_stored writes row ((mem_insertionSort _).mp hrow)
  exact filterMap_rowToContext hcanonical

/-- A non-empty workspace id filters the whole list by the SQL normalisation. -/
theorem list_scoped (hw : w ≠ "") :
    list valid (stored valid writes) { workspaceId := some w } =
      (list valid (stored valid writes) {}).filter fun context =>
        normalizedWorkspaceIdSql context.workspaceId == normalizeWorkspaceId (some w) := by
  have htruthy : truthy (some w) = some w := by simp [truthy, hw]
  have hcanonical : ∀ row ∈ ((stored valid writes).insertionSort recency).filter
      (fun row => normalizedWorkspaceIdSql row.context.workspaceId ==
        normalizeWorkspaceId (some w)), Canonical valid row := by
    intro row hrow
    exact canonical_stored writes row ((mem_insertionSort _).mp (mem_filter.mp hrow).1)
  rw [list_all, filter_map]
  refine Eq.trans ?_ (filterMap_rowToContext hcanonical)
  rw [filter_insertionSort]
  simp only [list, htruthy]
  rfl

theorem list_unscoped (rows : List (WorkContextRow T)) :
    list valid rows { workspaceId := some "" } = list valid rows {} :=
  rfl

/-- The stored workspace ids on which the filter and `normalizeWorkspaceId` agree about `w`. -/
def PlainlyPadded (rows : List (WorkContextRow T)) (w : String) : Prop :=
  if w = "" then
    ∀ row ∈ rows, normalizeWorkspaceId row.context.workspaceId = LOCAL_WORKSPACE_ID
  else
    ∀ row ∈ rows, ∀ value, row.context.workspaceId = some value →
      normalizeWorkspaceId (some value) = normalizeWorkspaceId (some w) →
      sqlTrim value = Text.trim value

/-- One context: both sides agree unless other white space pads an id of the workspace. -/
theorem filter_agrees_iff (raw : Option String) (w : String) :
    (normalizedWorkspaceIdSql raw = normalizeWorkspaceId (some w) ↔
        normalizeWorkspaceId raw = normalizeWorkspaceId (some w)) ↔
      ∀ value, raw = some value →
        normalizeWorkspaceId (some value) = normalizeWorkspaceId (some w) →
        sqlTrim value = Text.trim value := by
  cases raw with
  | none =>
    have hsql : normalizedWorkspaceIdSql none = normalizeWorkspaceId none := rfl
    simp [hsql]
  | some value =>
    by_cases htrim : sqlTrim value = Text.trim value
    · simp [normalizedWorkspaceIdSql_eq htrim, htrim]
    · simp [normalizedWorkspaceIdSql_ne htrim, htrim]

theorem filter_eq_filter_iff {p q : WorkContext T → Bool} {l : List (WorkContext T)} :
    l.filter p = l.filter q ↔ ∀ a ∈ l, (p a = true ↔ q a = true) := by
  constructor
  · intro h a ha
    have hmem : a ∈ l.filter p ↔ a ∈ l.filter q := by rw [h]
    simpa [ha] using hmem
  · intro h
    exact filter_congr fun a ha => Bool.eq_iff_iff.mpr (h a ha)

theorem list_eq_filter_iff (writes : List (WorkContext T)) (w : String) :
    list valid (stored valid writes) { workspaceId := some w } =
        (list valid (stored valid writes) {}).filter (fun context =>
          normalizeWorkspaceId context.workspaceId == normalizeWorkspaceId (some w)) ↔
      PlainlyPadded (stored valid writes) w := by
  have hmem : ∀ P : WorkContext T → Prop, (∀ context ∈ list valid (stored valid writes) {},
      P context) ↔ ∀ row ∈ stored valid writes, P row.context := by
    intro P
    rw [list_all]
    simp
  by_cases hw : w = ""
  · subst hw
    have hlocal : normalizeWorkspaceId (some "") = LOCAL_WORKSPACE_ID := by decide
    rw [list_unscoped, eq_comm, filter_eq_self]
    simp only [beq_iff_eq]
    exact hmem fun context => normalizeWorkspaceId context.workspaceId = LOCAL_WORKSPACE_ID
  · rw [list_scoped writes hw, filter_eq_filter_iff, PlainlyPadded, if_neg hw]
    simp only [beq_iff_eq, ← filter_agrees_iff]
    exact hmem fun context =>
      (normalizedWorkspaceIdSql context.workspaceId = normalizeWorkspaceId (some w) ↔
        normalizeWorkspaceId context.workspaceId = normalizeWorkspaceId (some w))

/-! ## Derived topics -/

def WORKSPACE_TOPICS_LIST_SENTINEL_LIMIT : ℕ := 201

structure WorkspaceTopic (T : Type) where
  id : String
  workspaceId : String
  title : String
  /-- `grouping.order`. -/
  order : ℕ
  nodeId : Option String
  repoPath : Option String
  worktreePath : Option String
  cwd : Option String
  workContextIds : List String
  sessionIds : Option (List String)
  taskRefs : Option (List T)
  artifactIds : Option (List String)
  createdAt : String
  updatedAt : String

/-- The topic of the context at `index`; `topicId` stands for `createWorkspaceTopicId`. -/
def derivedTopic (topicId : String → String → String) (now : String) (index : ℕ)
    (context : WorkContext T) : WorkspaceTopic T :=
  let workspaceId := normalizeWorkspaceId context.workspaceId
  { id := topicId ("derived-" ++ context.id) workspaceId
    workspaceId
    title := context.title.getD context.id
    order := index
    nodeId := truthy (context.session.map (·.nodeId))
    repoPath := truthy context.repoPath
    worktreePath := truthy context.worktreePath
    cwd := truthy (context.session.bind (·.cwd))
    workContextIds := [context.id]
    sessionIds := (truthy (context.session.map (·.sessionId))).map ([·])
    taskRefs := if context.tasks.isEmpty then none else some context.tasks
    artifactIds := if context.artifactIds.isEmpty then none else some context.artifactIds
    createdAt := context.createdAt
    updatedAt := if context.updatedAt = "" then now else context.updatedAt }

def deriveWorkspaceTopicsFromWorkContexts (topicId : String → String → String) (now : String)
    (contexts : List (WorkContext T)) : List (WorkspaceTopic T) :=
  (contexts.take WORKSPACE_TOPICS_LIST_SENTINEL_LIMIT).mapIdx (derivedTopic topicId now)

/-- A topic without its position in the derived list. -/
def WorkspaceTopic.unnumbered (topic : WorkspaceTopic T) : WorkspaceTopic T :=
  { topic with order := 0 }

variable {topicId : String → String → String} {now : String}

theorem unnumbered_derive (topicId : String → String → String) (now : String)
    (contexts : List (WorkContext T)) :
    (deriveWorkspaceTopicsFromWorkContexts topicId now contexts).map (·.unnumbered) =
      (contexts.take WORKSPACE_TOPICS_LIST_SENTINEL_LIMIT).map (derivedTopic topicId now 0) := by
  apply ext_getElem
  · simp [deriveWorkspaceTopicsFromWorkContexts]
  · intro i _ _
    simp [deriveWorkspaceTopicsFromWorkContexts, WorkspaceTopic.unnumbered, derivedTopic]

/-- The topics of a workspace, without their numbering. -/
def scopedPart (topics : List (WorkspaceTopic T)) (workspaceId : String) :
    List (WorkspaceTopic T) :=
  (topics.filter (·.workspaceId == workspaceId)).map (·.unnumbered)

theorem scopedPart_derive (contexts : List (WorkContext T)) (workspaceId : String) :
    scopedPart (deriveWorkspaceTopicsFromWorkContexts topicId now contexts) workspaceId =
      ((contexts.take WORKSPACE_TOPICS_LIST_SENTINEL_LIMIT).filter
        (normalizeWorkspaceId ·.workspaceId == workspaceId)).map (derivedTopic topicId now 0) := by
  have h := congrArg (List.filter (·.workspaceId == workspaceId))
    (unnumbered_derive topicId now contexts)
  rw [filter_map, filter_map] at h
  exact h

/-- What the filter promises: the listed contexts are the normalised part of all contexts, in
their order.  The topics derived from them are the scoped part of the topics of all contexts,
each list numbered and cut off by itself. -/
structure ScopeAgrees (topicId : String → String → String) (now : String)
    (all scopedContexts : List (WorkContext T)) (w : String) : Prop where
  contexts : scopedContexts =
    all.filter (normalizeWorkspaceId ·.workspaceId == normalizeWorkspaceId (some w))
  topics_start :
    scopedPart (deriveWorkspaceTopicsFromWorkContexts topicId now all)
        (normalizeWorkspaceId (some w)) <+:
      (deriveWorkspaceTopicsFromWorkContexts topicId now scopedContexts).map (·.unnumbered)
  topics : all.length ≤ WORKSPACE_TOPICS_LIST_SENTINEL_LIMIT →
    scopedPart (deriveWorkspaceTopicsFromWorkContexts topicId now all)
        (normalizeWorkspaceId (some w)) =
      (deriveWorkspaceTopicsFromWorkContexts topicId now scopedContexts).map (·.unnumbered)

theorem ScopeAgrees.of_contexts {all scopedContexts : List (WorkContext T)} (h : scopedContexts =
      all.filter (normalizeWorkspaceId ·.workspaceId == normalizeWorkspaceId (some w))) :
    ScopeAgrees topicId now all scopedContexts w := by
  have hlength : scopedContexts.length ≤ all.length := h ▸ length_filter_le _ _
  constructor
  · exact h
  · rw [scopedPart_derive, unnumbered_derive, h]
    apply List.IsPrefix.map
    rw [prefix_take_iff]
    exact ⟨( take_prefix _ _).filter _, (length_filter_le _ _).trans (length_take_le _ _)⟩
  · intro hall
    rw [scopedPart_derive, unnumbered_derive, take_of_length_le hall,
      take_of_length_le (hlength.trans hall), h]

/-- The filter keeps its promise exactly when the stored ids of the queried workspace are
padded with U+0020 only, and the empty query finds a store of local contexts. -/
theorem list_scoped_iff (topicId : String → String → String) (now : String)
    (valid : WorkContext T → Bool) (writes : List (WorkContext T)) (w : String) :
    ScopeAgrees topicId now (list valid (stored valid writes) {})
        (list valid (stored valid writes) { workspaceId := some w }) w ↔
      PlainlyPadded (stored valid writes) w := by
  rw [← list_eq_filter_iff]
  exact ⟨fun h => h.contexts, fun h => .of_contexts h⟩

/-- A context whose workspace id starts with a tab. -/
def tabbed : WorkContext Unit :=
  { id := "wc:1", title := none, createdAt := "2026-01-01T00:00:00Z",
    updatedAt := "2026-01-01T00:00:00Z", workspaceId := some "\tws:acme", session := none,
    repoPath := none, worktreePath := none, tasks := [], artifactIds := [] }

theorem tabbed_not_listed :
    ¬ ScopeAgrees (fun workspaceId contextId => workspaceId ++ contextId) "2026-01-02T00:00:00Z"
      (list (fun _ => true) (stored (fun _ => true) [tabbed]) {})
      (list (fun _ => true) (stored (fun _ => true) [tabbed]) { workspaceId := some "ws:acme" })
      "ws:acme" := by
  intro h
  have hlength := congrArg List.length h.contexts
  revert hlength
  decide

end RelayIde.Workspace.Contexts
