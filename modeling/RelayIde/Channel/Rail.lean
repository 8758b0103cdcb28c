import Mathlib.Data.Rat.Defs
import RelayIde.Library.Forest

/-!
# The Channel Rail

Models `buildTopicNavModel` and `selectChannelRailTree` of `frontend/src/lib/state/topic-nav.ts`,
as far as they arrange topics.  Parent pointers are arbitrary; `adopts` decides per topic whether
its parent takes it or it becomes a root.

- `rail_faithful` — the rail shows every topic once, under its root, in one lane
-/

namespace RelayIde.Channel.Rail

open RelayIde.Library List Function

/-! ## The navigation model -/

/-- A topic as a rail item, with the fields that place it. -/
structure TopicNavItem where
  id : String
  workspaceId : String
  parentId : Option String
  title : String
  isDirectMessage : Bool
  attentionPriority : ℤ
  pinned : Bool
  order : ℚ

/-- A string JavaScript takes for true. -/
def truthy (s : Option String) : Option String :=
  s.filter (· ≠ "")

/-- `byId.get`. -/
def byId (items : List TopicNavItem) (id : String) : Option TopicNavItem :=
  items.find? (·.id == id)

/-- How many items the walk has not seen. -/
def unseen (items : List TopicNavItem) (seen : List String) : ℕ :=
  (items.filter (·.id ∉ seen)).length

variable {id : String} {seen : List String}

theorem unseen_cons_lt {items : List TopicNavItem} {item : TopicNavItem}
    (hitem : byId items id = some item) (hnew : id ∉ seen) :
    unseen items (id :: seen) < unseen items seen := by
  have hid : item.id = id := by simpa using find?_some hitem
  have hsub : items.filter (·.id ∉ id :: seen) =
      (items.filter (·.id ∉ seen)).filter (·.id ≠ id) := by
    rw [filter_filter]
    exact filter_congr fun x _ => by simp
  rw [unseen, hsub]
  refine length_filter_lt_length_iff_exists.mpr ⟨item, ?_, by simpa using hid⟩
  simp [mem_of_find?_eq_some hitem, hid, hnew]

/-- The walk up from a parent: back at the child, or at an item twice, is a cycle. -/
def wouldCreateCycle (items : List TopicNavItem) (childId : String) (seen : List String)
    (currentId : Option String) : Bool :=
  match truthy currentId with
  | none => false
  | some id =>
    if h : id = childId ∨ id ∈ seen then true
    else match hitem : byId items id with
      | none => false
      | some item => wouldCreateCycle items childId (id :: seen) item.parentId
termination_by unseen items seen
decreasing_by exact unseen_cons_lt hitem (not_or.mp h).2

def compareItems (localeCompare : String → String → ℤ) (a b : TopicNavItem) : ℚ :=
  if a.attentionPriority ≠ b.attentionPriority then b.attentionPriority - a.attentionPriority
  else if a.pinned ≠ b.pinned then if a.pinned then -1 else 1
  else if a.order ≠ b.order then a.order - b.order
  else localeCompare a.title b.title

/-- Whether the declared parent takes the item. -/
def adopts (items : List TopicNavItem) (item : TopicNavItem) : Bool :=
  match truthy item.parentId with
  | none => false
  | some parentId => parentId != item.id && (byId items parentId).isSome &&
      !wouldCreateCycle items item.id [] (some parentId)

structure TopicNavModel where
  rootIds : List String := []
  /-- `byId.get(id).childIds`. -/
  childIds : String → List String := fun _ => []

def place (items : List TopicNavItem) (model : TopicNavModel) (item : TopicNavItem) :
    TopicNavModel :=
  if adopts items item then
    { model with childIds := fun id =>
        if item.parentId = some id then model.childIds id ++ [item.id] else model.childIds id }
  else { model with rootIds := model.rootIds ++ [item.id] }

def sortIds (localeCompare : String → String → ℤ) (items : List TopicNavItem)
    (ids : List String) : List String :=
  ids.mergeSort fun a b => match byId items a, byId items b with
    | some a, some b => decide (compareItems localeCompare a b ≤ 0)
    | _, _ => true

/-- `buildTopicNavModel`, from the items it makes of the topics. -/
def buildTopicNavModel (localeCompare : String → String → ℤ) (items : List TopicNavItem) :
    TopicNavModel :=
  let placed := items.foldl (place items) {}
  { rootIds := sortIds localeCompare items placed.rootIds
    childIds := fun id => sortIds localeCompare items (placed.childIds id) }

/-! ## The rail -/

structure TopicNavWorkspace where
  id : String
  name : String
  color : Option String
  icon : Option String
  pinned : Bool
  order : ℚ

/-- `S` holds the channel summaries. -/
inductive ChannelRailNode (S : Type)
  | mk (item : TopicNavItem) (unread : Bool) (summary : Option S)
      (children : List (ChannelRailNode S))

structure ChannelRailActivitySnapshot (S : Type) where
  unreadByChannel : String → Option Bool
  summaryByChannel : String → Option S

structure ChannelRailSection (S : Type) where
  channels : List (ChannelRailNode S)
  directMessages : List (ChannelRailNode S)
  unread : Bool

structure ChannelRailWorkspaceGroup (S : Type) extends ChannelRailSection S where
  id : String
  title : String
  color : Option String
  icon : Option String
  pinned : Bool
  empty : Bool

structure ChannelRailTree (S : Type) where
  groups : List (ChannelRailWorkspaceGroup S)
  orphans : ChannelRailSection S

variable {S : Type}

def ChannelRailNode.item : ChannelRailNode S → TopicNavItem
  | mk item .. => item

mutual
def hasUnreadNode : ChannelRailNode S → Bool
  | .mk _ unread _ children => unread || someUnread children
/-- `nodes.some(hasUnreadNode)`. -/
def someUnread : List (ChannelRailNode S) → Bool
  | [] => false
  | node :: nodes => hasUnreadNode node || someUnread nodes
end

/-- `buildNode`; the recursion of the source has no bound, `fuel` is one. -/
def buildNode (items : List TopicNavItem) (model : TopicNavModel)
    (activity : ChannelRailActivitySnapshot S) : ℕ → String → Option (ChannelRailNode S)
  | 0, _ => none
  | fuel + 1, id => (byId items id).map fun item =>
      .mk item ((activity.unreadByChannel item.id).getD false) (activity.summaryByChannel item.id)
        ((model.childIds id).filterMap (buildNode items model activity fuel))

section Tree

variable (items : List TopicNavItem) (model : TopicNavModel)
  (activity : ChannelRailActivitySnapshot S) (fuel : ℕ)

/-- `partition`. -/
def railSection (ids : List String) : ChannelRailSection S :=
  let nodes := ids.filterMap (buildNode items model activity fuel)
  let channels := nodes.filter (!·.item.isDirectMessage)
  let directMessages := nodes.filter (·.item.isDirectMessage)
  { channels, directMessages, unread := someUnread (channels ++ directMessages) }

/-- The known workspace that a root is listed under. -/
def laneOf (workspaces : List TopicNavWorkspace) (id : String) : Option String :=
  (truthy ((byId items id).map (·.workspaceId))).filter fun workspaceId =>
    workspaces.any (·.id == workspaceId)

/-- Pinned first, then by order, then by id. -/
def sortWorkspaces (localeCompare : String → String → ℤ) (workspaces : List TopicNavWorkspace) :
    List TopicNavWorkspace :=
  workspaces.mergeSort fun a b =>
    let compared : ℚ :=
      if a.pinned ≠ b.pinned then if a.pinned then -1 else 1
      else if a.order ≠ b.order then a.order - b.order
      else localeCompare a.id b.id
    decide (compared ≤ 0)

def selectChannelRailTree (localeCompare : String → String → ℤ)
    (workspaces : List TopicNavWorkspace) : ChannelRailTree S where
  groups := (sortWorkspaces localeCompare workspaces).map fun workspace =>
    let lane := railSection items model activity fuel
      (model.rootIds.filter (laneOf items workspaces · = some workspace.id))
    { toChannelRailSection := lane
      id := workspace.id
      title := workspace.name
      color := workspace.color
      icon := workspace.icon
      pinned := workspace.pinned
      empty := lane.channels.isEmpty && lane.directMessages.isEmpty }
  orphans := railSection items model activity fuel
    (model.rootIds.filter (laneOf items workspaces · = none))

end Tree

/-! ## The forest of adopted topics -/

variable {items : List TopicNavItem} {localeCompare : String → String → ℤ}

/-- The first is the declared parent of the second. -/
def Declares (items : List TopicNavItem) (p i : String) : Prop :=
  ∃ item, byId items i = some item ∧ truthy item.parentId = some p

theorem acc_of_walk {childId : String} {currentId : Option String}
    (h : wouldCreateCycle items childId seen currentId = false) {p : String}
    (hp : truthy currentId = some p) : Acc (Declares items) p := by
  fun_induction wouldCreateCycle items childId seen currentId generalizing p with
  | case1 _ _ hnone => simp [hnone] at hp
  | case2 => cases h
  | case3 _ _ id hid _ hmissing =>
    cases hid.symm.trans hp
    refine Acc.intro _ fun q ⟨item, hitem, _⟩ => ?_
    simp [hmissing] at hitem
  | case4 _ _ id hid _ item hitem ih =>
    cases hid.symm.trans hp
    refine Acc.intro _ fun q ⟨item', hitem', hq⟩ => ?_
    cases hitem.symm.trans hitem'
    exact ih h hq

/-- The parent that took an item. -/
def adoptedParent (items : List TopicNavItem) (id : String) : Option String :=
  (byId items id).bind fun item => if adopts items item then item.parentId else none

theorem of_adopts {item : TopicNavItem} (h : adopts items item = true) :
    ∃ p, item.parentId = some p ∧ truthy item.parentId = some p ∧
      (byId items p).isSome = true ∧ Acc (Declares items) p := by
  unfold adopts at h
  split at h
  · cases h
  · rename_i p hp
    simp only [Bool.and_eq_true, Bool.not_eq_true'] at h
    refine ⟨p, (Option.filter_eq_some_iff.mp hp).1, hp, h.1.2, acc_of_walk h.2 ?_⟩
    exact Option.filter_eq_some_iff.mpr ⟨rfl, (Option.filter_eq_some_iff.mp hp).2⟩

theorem adoptedParent_eq_some {i p : String} (h : adoptedParent items i = some p) :
    Declares items p i ∧ (byId items p).isSome = true ∧ Acc (Declares items) p := by
  obtain ⟨item, hitem, h⟩ := Option.bind_eq_some_iff.mp h
  split at h
  · rename_i hadopts
    obtain ⟨p', hp, htruthy, hrest⟩ := of_adopts hadopts
    cases hp.symm.trans h
    exact ⟨⟨item, hitem, htruthy⟩, hrest⟩
  · cases h

theorem byId_isSome : (byId items id).isSome = true ↔ id ∈ items.map (·.id) := by
  simp [byId]

theorem byId_of_mem (h : (items.map (·.id)).Nodup) {item : TopicNavItem} (hitem : item ∈ items) :
    byId items item.id = some item := by
  obtain ⟨found, hfound⟩ := Option.isSome_iff_exists.mp (byId_isSome.mpr (mem_map_of_mem hitem))
  have hid : found.id = item.id := by simpa using find?_some hfound
  rw [hfound, inj_on_of_nodup_map h (mem_of_find?_eq_some hfound) hitem hid]

theorem foldl_place (l : List TopicNavItem) (model : TopicNavModel) :
    (l.foldl (place items) model).rootIds =
        model.rootIds ++ (l.filter (!adopts items ·)).map (·.id) ∧
      ∀ p, (l.foldl (place items) model).childIds p = model.childIds p ++
        (l.filter fun item => adopts items item && decide (item.parentId = some p)).map
          (·.id) := by
  induction l generalizing model with
  | nil => simp
  | cons item l ih =>
    obtain ⟨hroots, hchildren⟩ := ih (place items model item)
    refine ⟨hroots.trans ?_, fun p => (hchildren p).trans ?_⟩
    · cases hadopts : adopts items item <;> simp [place, hadopts]
    · cases hadopts : adopts items item with
      | false => simp [place, hadopts]
      | true => by_cases hp : item.parentId = some p <;> simp [place, hadopts, hp]

theorem perm_childIds (h : (items.map (·.id)).Nodup) (p : String) :
    (buildTopicNavModel localeCompare items).childIds p ~
      (items.map (·.id)).filter (adoptedParent items · = some p) := by
  refine (mergeSort_perm _ _).trans (Perm.of_eq ?_)
  rw [(foldl_place items {}).2 p, filter_map]
  refine congrArg (map _) (filter_congr fun item hitem => ?_)
  rw [comp, adoptedParent, byId_of_mem h hitem, Option.bind_some]
  cases adopts items item <;> simp

theorem perm_rootIds (h : (items.map (·.id)).Nodup) :
    (buildTopicNavModel localeCompare items).rootIds ~
      (items.map (·.id)).filter (adoptedParent items · = none) := by
  refine (mergeSort_perm _ _).trans (Perm.of_eq ?_)
  rw [(foldl_place items {}).1, filter_map]
  refine congrArg (map _) (filter_congr fun item hitem => ?_)
  rw [comp, adoptedParent, byId_of_mem h hitem, Option.bind_some]
  cases hadopts : adopts items item with
  | false => simp
  | true =>
    obtain ⟨p, hp, -⟩ := of_adopts hadopts
    simp [hp]

/-- The topics with the parents that took them. -/
def railForest (localeCompare : String → String → ℤ) (items : List TopicNavItem)
    (h : (items.map (·.id)).Nodup) : Forest String where
  ids := items.map (·.id)
  up := adoptedParent items
  children := (buildTopicNavModel localeCompare items).childIds
  nodup := h
  closed := fun _ _ hp => byId_isSome.mp (adoptedParent_eq_some hp).2.1
  ends := ⟨fun i => Acc.intro i fun _ hp => Subrelation.accessible
    (fun hup => (adoptedParent_eq_some hup).1) (adoptedParent_eq_some hp).2.2⟩
  perm_children := perm_childIds h

/-! ## What the rail shows -/

mutual
/-- The topics of a node. -/
def ChannelRailNode.topics : ChannelRailNode S → List String
  | .mk item _ _ children => item.id :: topicsOf children
def topicsOf : List (ChannelRailNode S) → List String
  | [] => []
  | node :: nodes => node.topics ++ topicsOf nodes
end

variable (nodes : List (ChannelRailNode S))

theorem topicsOf_eq : topicsOf nodes = nodes.flatMap (·.topics) := by
  induction nodes with
  | nil => rfl
  | cons node nodes ih => rw [topicsOf, ih, flatMap_cons]

theorem someUnread_eq : someUnread nodes = nodes.any hasUnreadNode := by
  induction nodes with
  | nil => rfl
  | cons node nodes ih => rw [someUnread, ih, any_cons]

def ChannelRailSection.topics (lane : ChannelRailSection S) : List String :=
  topicsOf (lane.channels ++ lane.directMessages)

section Shown

variable {model : TopicNavModel} {ids : List String} (activity : ChannelRailActivitySnapshot S)

/-- What the activity says of a topic. -/
def ChannelRailActivitySnapshot.unread (activity : ChannelRailActivitySnapshot S) (id : String) :
    Bool :=
  (activity.unreadByChannel id).getD false

/-- The nodes built from some ids show what going down from these ids lists. -/
theorem nodes_spec (hchildren : ∀ p, model.childIds p ⊆ items.map (·.id)) (fuel : ℕ)
    (hids : ids ⊆ items.map (·.id)) :
    topicsOf (ids.filterMap (buildNode items model activity fuel)) =
        Forest.listed model.childIds fuel ids ∧
      someUnread (ids.filterMap (buildNode items model activity fuel)) =
        (Forest.listed model.childIds fuel ids).any activity.unread := by
  induction fuel generalizing ids with
  | zero =>
    have hnil : ids.filterMap (buildNode items model activity 0) = [] := by
      simp [buildNode]
    rw [hnil]
    exact ⟨rfl, rfl⟩
  | succ fuel ih =>
    induction ids with
    | nil => exact ⟨rfl, rfl⟩
    | cons id ids ihids =>
      obtain ⟨hid, hrest⟩ := cons_subset.mp hids
      obtain ⟨item, hitem⟩ := Option.isSome_iff_exists.mp (byId_isSome.mpr hid)
      have heq : item.id = id := by simpa using find?_some hitem
      obtain ⟨htopics, hunread⟩ := ih (hchildren id)
      obtain ⟨htopics', hunread'⟩ := ihids hrest
      have hnode : buildNode items model activity (fuel + 1) id = some (.mk item
          (activity.unread item.id) (activity.summaryByChannel item.id)
          ((model.childIds id).filterMap (buildNode items model activity fuel))) := by
        rw [buildNode, hitem]
        rfl
      have hlisted : Forest.listed model.childIds (fuel + 1) (id :: ids) =
          id :: Forest.listed model.childIds fuel (model.childIds id) ++
            Forest.listed model.childIds (fuel + 1) ids := flatMap_cons
      rw [filterMap_cons_some hnode, hlisted]
      constructor
      · rw [topicsOf, ChannelRailNode.topics, htopics, htopics', heq]
      · rw [someUnread, hasUnreadNode, hunread, hunread', heq, any_append, any_cons]

theorem section_spec (hchildren : ∀ p, model.childIds p ⊆ items.map (·.id)) (fuel : ℕ)
    (hids : ids ⊆ items.map (·.id)) :
    (railSection items model activity fuel ids).topics ~ Forest.listed model.childIds fuel ids ∧
      (railSection items model activity fuel ids).unread =
        (Forest.listed model.childIds fuel ids).any activity.unread := by
  obtain ⟨htopics, hunread⟩ := nodes_spec activity hchildren fuel hids
  have hperm := (perm_append_comm.trans
    (filter_append_perm (·.item.isDirectMessage) (ids.filterMap (buildNode items model activity fuel))))
  constructor
  · rw [← htopics, topicsOf_eq, ChannelRailSection.topics, topicsOf_eq]
    exact hperm.flatMap_right _
  · rw [← hunread, someUnread_eq, railSection, someUnread_eq]
    exact hperm.any_eq

theorem buildNode_succ {F : Forest String} (hchildren : F.children = model.childIds)
    (hids : F.ids = items.map (·.id)) {bound : ℕ} (hbound : ∀ i ∈ F.ids, F.depth i < bound)
    (fuel : ℕ) (hfuel : id ∈ F.ids → bound ≤ F.depth id + fuel) :
    buildNode items model activity (fuel + 1) id = buildNode items model activity fuel id := by
  cases hitem : byId items id with
  | none => cases fuel <;> simp [buildNode, hitem]
  | some item =>
    have hid : id ∈ F.ids := hids ▸ byId_isSome.mp (by simp [hitem])
    induction fuel generalizing id item with
    | zero =>
      have hlt := hbound id hid
      have hle := hfuel hid
      omega
    | succ fuel ih =>
      refine congrArg (Option.map · _) (funext fun item' => ?_)
      refine congrArg _ (filterMap_congr fun c hc => ?_)
      obtain ⟨hc, hup⟩ := Forest.mem_children.mp (hchildren ▸ hc)
      obtain ⟨child, hchild⟩ := Option.isSome_iff_exists.mp (byId_isSome.mpr (hids ▸ hc))
      refine ih (fun _ => ?_) child hchild hc
      have hle := hfuel hid
      rw [Forest.depth_child hup]
      omega

end Shown

/-- Each topic is a root or a child of its declared parent, once, and below one root. -/
structure FaithfulModel (items : List TopicNavItem) (model : TopicNavModel) : Prop where
  placed : model.rootIds ++ (items.map (·.id)).flatMap model.childIds ~ items.map (·.id)
  declared : ∀ p, ∀ c ∈ model.childIds p, ∃ item ∈ items, item.id = c ∧ item.parentId = some p
  root : ∀ i ∈ items.map (·.id),
    ∃! r, r ∈ model.rootIds ∧ Forest.Reaches model.childIds r i

theorem faithful_model (h : (items.map (·.id)).Nodup) :
    FaithfulModel items (buildTopicNavModel localeCompare items) where
  placed := ((perm_rootIds h).append_right _).trans
    (railForest localeCompare items h).perm_roots_children
  declared := by
    intro p c hc
    obtain ⟨-, hup⟩ := mem_filter.mp ((perm_childIds h p).mem_iff.mp hc)
    obtain ⟨⟨item, hitem, hp⟩, -⟩ := adoptedParent_eq_some (of_decide_eq_true hup)
    exact ⟨item, mem_of_find?_eq_some hitem, by simpa using find?_some hitem,
      (Option.filter_eq_some_iff.mp hp).1⟩
  root := by
    intro i hi
    have hunique := Forest.existsUnique_root (F := railForest localeCompare items h) hi
    simpa [(perm_rootIds h).mem_iff, railForest] using hunique

/-- The lanes of the rail: one for each workspace, and the orphans'. -/
def ChannelRailTree.lanes (tree : ChannelRailTree S) :
    List (Option String × ChannelRailSection S) :=
  tree.groups.map (fun group => (some group.id, group.toChannelRailSection)) ++
    [(none, tree.orphans)]

/-- The rail shows every topic once, in the lane of its root's workspace, and a lane is unread
exactly when one of its topics is. -/
structure FaithfulRail (items : List TopicNavItem) (model : TopicNavModel)
    (workspaces : List TopicNavWorkspace) (activity : ChannelRailActivitySnapshot S)
    (tree : ChannelRailTree S) : Prop where
  once : tree.lanes.flatMap (·.2.topics) ~ items.map (·.id)
  lanes : tree.groups.map (·.id) ~ workspaces.map (·.id)
  shown : ∀ lane ∈ tree.lanes, ∀ i, i ∈ lane.2.topics ↔ ∃ r ∈ model.rootIds,
    laneOf items workspaces r = lane.1 ∧ Forest.Reaches model.childIds r i
  unread : ∀ lane ∈ tree.lanes, lane.2.unread = true ↔
    ∃ i ∈ lane.2.topics, activity.unread i = true

theorem of_laneOf {workspaces : List TopicNavWorkspace} {workspaceId : String}
    (h : laneOf items workspaces id = some workspaceId) :
    workspaceId ∈ workspaces.map (·.id) := by
  have hknown := (Option.filter_eq_some_iff.mp h).2
  simpa using hknown

/-- The model and the rail made from it are faithful; the recursion that makes the rail ends. -/
def Faithful (localeCompare : String → String → ℤ) (items : List TopicNavItem)
    (workspaces : List TopicNavWorkspace) (activity : ChannelRailActivitySnapshot S) : Prop :=
  let model := buildTopicNavModel localeCompare items
  let rail := fun fuel =>
    selectChannelRailTree items model activity fuel localeCompare workspaces
  FaithfulModel items model ∧ ∃ bound, ∀ fuel ≥ bound,
    rail fuel = rail bound ∧ FaithfulRail items model workspaces activity (rail fuel)

/-- **The rail** is faithful to any topics and workspaces of distinct ids, whatever their parent
pointers. -/
theorem rail_faithful (localeCompare : String → String → ℤ) (items : List TopicNavItem)
    (workspaces : List TopicNavWorkspace) (activity : ChannelRailActivitySnapshot S)
    (h : (items.map (·.id)).Nodup) (hworkspaces : (workspaces.map (·.id)).Nodup) :
    Faithful localeCompare items workspaces activity := by
  let model := buildTopicNavModel localeCompare items
  let F := railForest localeCompare items h
  obtain ⟨bound, hbound⟩ := F.exists_depth_lt
  refine ⟨faithful_model h, bound, fun fuel hfuel => ?_⟩
  have hchildren : ∀ p, model.childIds p ⊆ items.map (·.id) := by
    intro p c hc
    exact (Forest.mem_children (F := F).mp hc).1
  have hroots : ∀ r ∈ model.rootIds, r ∈ F.ids ∧ F.up r = none := by
    intro r hr
    obtain ⟨hmem, hroot⟩ := mem_filter.mp ((perm_rootIds h).mem_iff.mp hr)
    exact ⟨hmem, of_decide_eq_true hroot⟩
  have hids : ∀ p : String → Bool, model.rootIds.filter p ⊆ items.map (·.id) := by
    intro p r hr
    exact (hroots r (mem_filter.mp hr).1).1
  have hdeep : ∀ i ∈ F.ids, F.depth i < fuel := fun i hi => (hbound i hi).trans_le hfuel
  constructor
  · have hnode : buildNode items model activity fuel = buildNode items model activity bound := by
      induction fuel, hfuel using Nat.le_induction with
      | base => rfl
      | succ fuel hle ih =>
        rw [← ih fun i hi => (hbound i hi).trans_le hle]
        funext id
        exact buildNode_succ activity (F := F) rfl rfl hbound fuel fun _ => by omega
    change selectChannelRailTree items model activity fuel localeCompare workspaces =
      selectChannelRailTree items model activity bound localeCompare workspaces
    simp only [selectChannelRailTree, railSection, hnode]
  · let lane := fun workspaceId : Option String => railSection items model activity fuel
      (model.rootIds.filter (laneOf items workspaces · = workspaceId))
    have hlanes : (selectChannelRailTree items model activity fuel localeCompare workspaces).lanes =
        ((sortWorkspaces localeCompare workspaces).map fun w => (some w.id, lane (some w.id))) ++
          [(none, lane none)] := by
      simp [ChannelRailTree.lanes, selectChannelRailTree, lane]
    have hlane : ∀ l ∈ (selectChannelRailTree items model activity fuel localeCompare
        workspaces).lanes, l.2 = lane l.1 := by
      intro l hl
      rw [hlanes, mem_append, mem_map, mem_singleton] at hl
      obtain ⟨w, -, rfl⟩ | rfl := hl
      · rfl
      · rfl
    have hspec := fun workspaceId => section_spec activity hchildren fuel
      (hids (laneOf items workspaces · = workspaceId))
    have hsorted : sortWorkspaces localeCompare workspaces ~ workspaces := mergeSort_perm _ _
    constructor
    · have hrootIds : (sortWorkspaces localeCompare workspaces).flatMap (fun w =>
          model.rootIds.filter (laneOf items workspaces · = some w.id)) ++
          model.rootIds.filter (laneOf items workspaces · = none) ~ model.rootIds := by
        have hperm := perm_filter_none (laneOf items workspaces)
          ((hsorted.map (·.id)).nodup_iff.mpr hworkspaces)
          fun r (_ : r ∈ model.rootIds) a ha => (hsorted.map (·.id)).mem_iff.mpr (of_laneOf ha)
        rw [flatMap_map] at hperm
        exact perm_append_comm.trans hperm
      rw [hlanes, flatMap_append, flatMap_map, flatMap_singleton]
      refine ((Perm.flatMap_left _ fun w _ => (hspec (some w.id)).1).append (hspec none).1).trans ?_
      rw [← Forest.listed_flatMap, ← Forest.listed_append]
      exact (Forest.listed_perm (hrootIds.trans (perm_rootIds h)) fuel).trans
        (Forest.listed_roots (F := F) hdeep)
    · simpa [selectChannelRailTree, comp_def] using hsorted.map (·.id)
    · intro l hl i
      rw [hlane l hl, (hspec l.1).1.mem_iff]
      refine (Forest.mem_listed_iff (F := F) hdeep
        fun r hr => hroots r (mem_filter.mp hr).1).trans ?_
      simp only [mem_filter, decide_eq_true_eq, and_assoc]
      rfl
    · intro l hl
      rw [hlane l hl, (hspec l.1).2, any_eq_true]
      exact exists_congr fun i => and_congr_left fun _ => (hspec l.1).1.mem_iff.symm

def topic (id workspaceId : String) (parentId : Option String) : TopicNavItem :=
  ⟨id, workspaceId, parentId, id, false, 0, false, 0⟩

/-- Three topics below each other, two that are each other's parent, one of another workspace, one
of a workspace that is not known, and one whose parent is not known. -/
def nestedTopics : List TopicNavItem :=
  [topic "c" "ws:1" (some "b"), topic "b" "ws:2" (some "a"), topic "a" "ws:1" none,
    topic "x" "ws:2" (some "y"), topic "y" "ws:1" (some "x"), topic "d" "ws:2" none,
    topic "e" "ws:3" none, topic "f" "ws:2" (some "gone")]

/-- The second workspace is pinned, and comes first. -/
def twoWorkspaces : List TopicNavWorkspace :=
  [⟨"ws:1", "One", none, none, false, 0⟩, ⟨"ws:2", "Two", none, none, true, 0⟩]

/-- One topic is unread, deep below its root. -/
def unreadDeep : ChannelRailActivitySnapshot Unit :=
  ⟨fun id => if id = "c" then some true else none, fun _ => none⟩

theorem nested_faithful : Faithful (fun _ _ => 0) nestedTopics twoWorkspaces unreadDeep :=
  rail_faithful _ _ _ _ (by decide) (by decide)

/-- A topic that names no workspace, and a workspace without a name. -/
def unset : TopicNavItem := topic "topic:a" "" none

def nameless : TopicNavWorkspace := ⟨"", "", none, none, false, 0⟩

def quiet : ChannelRailActivitySnapshot Unit := ⟨fun _ => none, fun _ => none⟩

/-- The lane whose id the topic carries does not show it. -/
theorem unset_not_in_lane : ∃ group ∈ (selectChannelRailTree [unset]
      (buildTopicNavModel (fun _ _ => 0) [unset]) quiet 1 (fun _ _ => 0) [nameless]).groups,
    group.id = unset.workspaceId ∧ unset.id ∉ group.topics := by
  refine ⟨_, mem_map.mpr ⟨nameless, by simp [sortWorkspaces], rfl⟩, rfl, ?_⟩
  have hnone : (buildTopicNavModel (fun _ _ => 0) [unset]).rootIds.filter
      (laneOf [unset] [nameless] · = some nameless.id) = [] := by
    refine filter_eq_nil_iff.mpr fun r _ hr => ?_
    have htruthy := (Option.filter_eq_some_iff.mp (of_decide_eq_true hr)).1
    exact absurd (Option.filter_eq_some_iff.mp htruthy).2 (by decide)
  simp [ChannelRailSection.topics, railSection, hnone, topicsOf]

end RelayIde.Channel.Rail
