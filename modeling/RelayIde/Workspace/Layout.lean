import Mathlib.Algebra.Order.Group.Int
import Mathlib.Data.List.InsertIdx
import Mathlib.Data.List.Nodup
import Mathlib.Data.List.Pairwise
import Mathlib.Data.List.Perm.Basic
import RelayIde.Library.LeafTree
import RelayIde.Library.Machine

/-!
# The Workspace Layout Tree

The workspace is a tree of splits whose leaves are panes, each with an ordered list of tabs
and the id of its active one.  The operations rewrite the whole tree and prune the panes that
a removal has emptied.

- `layout_of_run` — the runs whose layouts are all well formed
-/

namespace RelayIde.Workspace

open RelayIde.Library List Function

/-! ## Tabs, panes and splits -/

inductive FileTabType where
  | diff
  | code
  | html
  deriving DecidableEq

def FileTabType.text : FileTabType → String
  | .diff => "diff"
  | .code => "code"
  | .html => "html"

inductive WorkspaceTab where
  | session (sessionId : String) (nodeId : Option String)
  | file (filePath : String) (tabType : FileTabType) (token : Option String)
  deriving DecidableEq

abbrev WorkspaceTabId := String

def fileTabKey (filePath : String) (tabType : Option FileTabType) : String :=
  (tabType.getD .code).text ++ "::" ++ filePath

def workspaceTabId : WorkspaceTab → WorkspaceTabId
  | .session sessionId _ => "session::" ++ sessionId
  | .file filePath tabType _ => "file::" ++ fileTabKey filePath (some tabType)

structure WorkspacePane where
  id : String
  activeTabId : Option WorkspaceTabId
  tabs : List WorkspaceTab
  deriving DecidableEq

inductive SplitDirection where
  | horizontal
  | vertical

inductive SplitPlacement where
  | before
  | after

structure WorkspaceSplit where
  id : String
  direction : SplitDirection

abbrev WorkspaceLayoutNode := LeafTree WorkspaceSplit WorkspacePane

/-- `null`, `undefined` and the empty id count as no id. -/
def truthyId : Option WorkspaceTabId → Bool
  | none => false
  | some tabId => tabId ≠ ""

/-- The id of a new pane is drawn outside. -/
def makePane (id : String) (tabs : List WorkspaceTab) (activeTabId : Option WorkspaceTabId) :
    WorkspacePane :=
  let ids := tabs.map workspaceTabId
  let active := if truthyId activeTabId && !(activeTabId.any ids.contains) then none
    else activeTabId
  let active := if !truthyId active && 0 < ids.length then ids.head? else active
  { id, activeTabId := active, tabs }

structure TabLocation where
  paneId : String
  index : ℕ

def findTabLocation (node : WorkspaceLayoutNode) (tabId : WorkspaceTabId) : Option TabLocation :=
  node.findSome? fun pane =>
    (pane.tabs.findIdx? (workspaceTabId · = tabId)).map fun index => ⟨pane.id, index⟩

def findPane (node : WorkspaceLayoutNode) (paneId : String) : Option WorkspacePane :=
  node.findSome? fun pane => if pane.id = paneId then some pane else none

def listPanes (node : WorkspaceLayoutNode) : List WorkspacePane :=
  node.leaves

def mapPanes (node : WorkspaceLayoutNode) (fn : WorkspacePane → WorkspacePane) :
    WorkspaceLayoutNode :=
  node.map fn

/-- `tabs` is the list after the removal. -/
def pickActiveAfterRemoval (tabs : List WorkspaceTab) (removedIndex : ℕ)
    (prevActive : Option WorkspaceTabId) (removedTabId : WorkspaceTabId) :
    Option WorkspaceTabId :=
  if prevActive ≠ some removedTabId then prevActive
  else
    let neighbor := if tabs.length ≤ removedIndex then tabs.getLast? else tabs[removedIndex]?
    neighbor.map workspaceTabId

def WorkspacePane.isEmpty (pane : WorkspacePane) : Bool :=
  pane.tabs.isEmpty

/-- A subtree that pruning leaves untouched is rebuilt equal to itself. -/
def pruneLayout (layout : WorkspaceLayoutNode) : WorkspaceLayoutNode :=
  layout.prune WorkspacePane.isEmpty

/-! ## The operations -/

def selectLayoutTab (layout : WorkspaceLayoutNode) (paneId : String) (tabId : WorkspaceTabId) :
    WorkspaceLayoutNode :=
  mapPanes layout fun p =>
    if p.id ≠ paneId then p
    else if ¬ p.tabs.any (workspaceTabId · = tabId) then p
    else { p with activeTabId := some tabId }

/-- The pane without the tab at `index`, whose id is `tabId`. -/
def WorkspacePane.removeAt (p : WorkspacePane) (index : ℕ) (tabId : WorkspaceTabId) :
    WorkspacePane :=
  let tabs := p.tabs.eraseIdx index
  { p with tabs, activeTabId := pickActiveAfterRemoval tabs index p.activeTabId tabId }

def closeLayoutTab (layout : WorkspaceLayoutNode) (tabId : WorkspaceTabId) :
    WorkspaceLayoutNode :=
  pruneLayout (mapPanes layout fun p =>
    match p.tabs.findIdx? (workspaceTabId · = tabId) with
    | none => p
    | some idx => p.removeAt idx tabId)

/-- `Math.max(0, Math.min(index, last))` -/
def clampIndex (index last : ℤ) : ℕ :=
  (max 0 (min index last)).toNat

def moveTabToPane (layout : WorkspaceLayoutNode) (tabId : WorkspaceTabId)
    (targetPaneId : String) (targetIndex : Option ℤ) : WorkspaceLayoutNode :=
  match findTabLocation layout tabId with
  | none => layout
  | some loc =>
    match findPane layout targetPaneId, findPane layout loc.paneId with
    | some target, some sourcePane =>
      match sourcePane.tabs[loc.index]? with
      | none => layout
      | some tabObj =>
        if loc.paneId = targetPaneId then
          let lastIndex : ℤ := target.tabs.length - 1
          let dest := clampIndex (targetIndex.getD lastIndex) lastIndex
          if dest = loc.index then layout
          else
            match target.tabs[loc.index]? with
            | none => layout
            | some removed =>
              let newTabs := (target.tabs.eraseIdx loc.index).insertIdx dest removed
              mapPanes layout fun p =>
                if p.id = targetPaneId then
                  { p with tabs := newTabs, activeTabId := some (workspaceTabId removed) }
                else p
        else
          pruneLayout (mapPanes layout fun p =>
            if p.id = loc.paneId then p.removeAt loc.index tabId
            else if p.id = targetPaneId then
              let dest := clampIndex (targetIndex.getD p.tabs.length) p.tabs.length
              { p with
                tabs := p.tabs.insertIdx dest tabObj
                activeTabId := some (workspaceTabId tabObj) }
            else p)
    | _, _ => layout

/-- The new child of a split and the one that was there, in their order. -/
def SplitPlacement.arrange {β : Type} (placement : SplitPlacement) (added present : β) : List β :=
  match placement with
  | .before => [added, present]
  | .after => [present, added]

def splitPaneWithTab (newPaneId newSplitId : String) (layout : WorkspaceLayoutNode)
    (targetPaneId : String) (tabId : WorkspaceTabId) (direction : SplitDirection)
    (placement : SplitPlacement) : WorkspaceLayoutNode :=
  match findPane layout targetPaneId, findTabLocation layout tabId with
  | some target, some tabLoc =>
    match (findPane layout tabLoc.paneId).bind (·.tabs[tabLoc.index]?) with
    | none => layout
    | some tab =>
      let sameSourceAndTarget := tabLoc.paneId = targetPaneId
      if sameSourceAndTarget ∧ target.tabs.length ≤ 1 then layout
      else
        let newPane := makePane newPaneId [tab] none
        pruneLayout (layout.bind fun p =>
          if p.id = targetPaneId then
            let targetWithoutTab :=
              if sameSourceAndTarget then
                match p.tabs.findIdx? (workspaceTabId · = tabId) with
                | none => p -- the pane of that id has the tab
                | some idx => p.removeAt idx tabId
              else p
            .node ⟨newSplitId, direction⟩
              (placement.arrange (.leaf newPane) (.leaf targetWithoutTab))
          else if ¬ sameSourceAndTarget ∧ p.id = tabLoc.paneId then
            .leaf (p.removeAt tabLoc.index tabId)
          else .leaf p)
  | _, _ => layout

def addTabToPane (layout : WorkspaceLayoutNode) (paneId : String) (tab : WorkspaceTab)
    (activate : Option Bool) (index : Option ℤ) : WorkspaceLayoutNode :=
  let id := workspaceTabId tab
  match findPane layout paneId with
  | none => layout
  | some _ =>
    match findTabLocation layout id with
    | some _ =>
      let moved := moveTabToPane layout id paneId index
      if activate = some false then moved else selectLayoutTab moved paneId id
    | none =>
      mapPanes layout fun p =>
        if p.id ≠ paneId then p
        else
          let dest := clampIndex (index.getD p.tabs.length) p.tabs.length
          { p with
            tabs := p.tabs.insertIdx dest tab
            activeTabId := if activate = some false then p.activeTabId else some id }

def createDefaultWorkspaceLayout (id : String) (tabs : List WorkspaceTab)
    (activeTabId : Option WorkspaceTabId) : WorkspacePane :=
  makePane id tabs activeTabId

/-! ## What a layout shows -/

/-- The active id names one of the pane's tabs, and is absent only from an empty pane. -/
def WorkspacePane.ActiveValid (p : WorkspacePane) : Prop :=
  match p.activeTabId with
  | none => p.tabs = []
  | some tabId => tabId ∈ p.tabs.map workspaceTabId

instance (p : WorkspacePane) : Decidable p.ActiveValid :=
  match h : p.activeTabId with
  | none => decidable_of_iff (p.tabs = []) (by simp [WorkspacePane.ActiveValid, h])
  | some tabId =>
    decidable_of_iff (tabId ∈ p.tabs.map workspaceTabId) (by simp [WorkspacePane.ActiveValid, h])

def tabsOf (panes : List WorkspacePane) : List WorkspaceTab :=
  panes.flatMap (·.tabs)

def tabsIn (panes : List WorkspacePane) (paneId : String) : List WorkspaceTab :=
  tabsOf (panes.filter (·.id = paneId))

def others (tabId : WorkspaceTabId) (tabs : List WorkspaceTab) : List WorkspaceTab :=
  tabs.filter (workspaceTabId · ≠ tabId)

structure WellFormed (layout : WorkspaceLayoutNode) : Prop where
  paneIds : ((listPanes layout).map (·.id)).Nodup
  tabIds : ((tabsOf (listPanes layout)).map workspaceTabId).Nodup
  /-- Every split has two children or more, and no empty pane below it. -/
  full : LeafTree.Full WorkspacePane.isEmpty layout
  active : ∀ p ∈ listPanes layout, p.ActiveValid

/-- In every pane the tabs other than the named one are the same, in the same order. -/
def SameElsewhere (tabId : WorkspaceTabId) (before after : List WorkspacePane) : Prop :=
  ∀ paneId, others tabId (tabsIn after paneId) = others tabId (tabsIn before paneId)

variable {xs : List WorkspaceTab} {f : WorkspacePane → List WorkspacePane} {β : Type}
  {targetPaneId : String} {loc : TabLocation} {q source : WorkspacePane}
  {next : WorkspaceLayoutNode}

section lists

variable {ps : List WorkspacePane} {tabId : WorkspaceTabId} {tab : WorkspaceTab}

@[simp] theorem tabsOf_nil : tabsOf [] = [] := rfl

@[simp] theorem tabsOf_cons (p : WorkspacePane) (ps : List WorkspacePane) :
    tabsOf (p :: ps) = p.tabs ++ tabsOf ps := by
  simp only [tabsOf, flatMap_cons]

@[simp] theorem tabsOf_append (ps qs : List WorkspacePane) :
    tabsOf (ps ++ qs) = tabsOf ps ++ tabsOf qs := by
  simp only [tabsOf, flatMap_append]

theorem mem_tabsOf : tab ∈ tabsOf ps ↔ ∃ p ∈ ps, tab ∈ p.tabs := by
  simp only [tabsOf, mem_flatMap]

@[simp] theorem others_append (xs ys : List WorkspaceTab) :
    others tabId (xs ++ ys) = others tabId xs ++ others tabId ys := by
  simp only [others, filter_append]

@[simp] theorem others_nil : others tabId [] = [] := rfl

@[simp] theorem others_cons (x : WorkspaceTab) (xs : List WorkspaceTab) :
    others tabId (x :: xs) =
      if workspaceTabId x = tabId then others tabId xs else x :: others tabId xs := by
  by_cases h : workspaceTabId x = tabId <;> simp [others, h]

@[simp] theorem others_others (xs : List WorkspaceTab) :
    others tabId (others tabId xs) = others tabId xs := by
  simp [others]

@[simp] theorem others_insertIdx (xs : List WorkspaceTab) (i : ℕ) :
    others (workspaceTabId tab) (xs.insertIdx i tab) = others (workspaceTabId tab) xs := by
  induction xs generalizing i with
  | nil => cases i <;> simp
  | cons x rest ih =>
    cases i with
    | zero => simp
    | succ i => simp [ih i]

theorem others_eq_self (h : ∀ x ∈ xs, workspaceTabId x ≠ tabId) : others tabId xs = xs :=
  filter_eq_self.mpr fun x hx => by simpa using h x hx

theorem mem_others : tab ∈ others tabId xs ↔ tab ∈ xs ∧ workspaceTabId tab ≠ tabId := by
  simp [others]

theorem others_tabsOf : others tabId (tabsOf ps) = ps.flatMap fun p => others tabId p.tabs := by
  induction ps with
  | nil => rfl
  | cons p rest ih => simp [ih]

theorem tabsOf_filter_nonempty (ps : List WorkspacePane) :
    tabsOf (ps.filter (! ·.isEmpty)) = tabsOf ps := by
  induction ps with
  | nil => rfl
  | cons p rest ih =>
    cases hp : p.isEmpty with
    | true =>
      have htabs : p.tabs = [] := List.isEmpty_iff.mp hp
      simp [hp, htabs, ih]
    | false => simp [hp, ih]

theorem tabsIn_filter_nonempty (ps : List WorkspacePane) (paneId : String) :
    tabsIn (ps.filter (! ·.isEmpty)) paneId = tabsIn ps paneId := by
  rw [tabsIn, tabsIn, filter_comm, tabsOf_filter_nonempty]

theorem tabsIn_flatMap (f : WorkspacePane → List WorkspacePane) (paneId : String) :
    tabsIn (ps.flatMap f) paneId = ps.flatMap fun p => tabsIn (f p) paneId := by
  induction ps with
  | nil => rfl
  | cons p rest ih =>
    rw [flatMap_cons, flatMap_cons, ← ih]
    simp [tabsIn]

theorem tabsIn_single (p : WorkspacePane) (paneId : String) :
    tabsIn [p] paneId = if p.id = paneId then p.tabs else [] := by
  by_cases h : p.id = paneId <;> simp [tabsIn, h]

/-- Panes that are rewritten one by one keep the other tabs where each of them does. -/
theorem sameElsewhere_flatMap (h : ∀ p ∈ ps, ∀ paneId, others tabId (tabsIn (f p) paneId) =
      if p.id = paneId then others tabId p.tabs else []) :
    SameElsewhere tabId ps (ps.flatMap f) := by
  intro paneId
  rw [tabsIn_flatMap]
  induction ps with
  | nil => rfl
  | cons p rest ih =>
    have hp := h p mem_cons_self paneId
    have hrest := ih fun q hq => h q (mem_cons_of_mem _ hq)
    rw [flatMap_cons, others_append, hrest, hp]
    by_cases hid : p.id = paneId <;> simp [tabsIn, hid]

theorem sameElsewhere_map {f : WorkspacePane → WorkspacePane}
    (h : ∀ p ∈ ps, (f p).id = p.id ∧ others tabId (f p).tabs = others tabId p.tabs) :
    SameElsewhere tabId ps (ps.map f) := by
  rw [map_eq_flatMap]
  apply sameElsewhere_flatMap
  intro p hp paneId
  obtain ⟨hid, htabs⟩ := h p hp
  rw [tabsIn_single, hid]
  split
  · exact htabs
  · rfl

theorem perm_flatMap_of_unique {x : β} {f g : WorkspacePane → List β} (hids : (ps.map (·.id)).Nodup)
    (htarget : targetPaneId ∈ ps.map (·.id))
    (hf : ∀ p ∈ ps, (f p).Perm (if p.id = targetPaneId then x :: g p else g p)) :
    (ps.flatMap f).Perm (x :: ps.flatMap g) := by
  induction ps with
  | nil => cases htarget
  | cons p rest ih =>
    rw [map_cons, nodup_cons] at hids
    have hp := hf p mem_cons_self
    by_cases hid : p.id = targetPaneId
    · -- it is this pane, and no later one has the target id
      have hrest : (rest.flatMap f).Perm (rest.flatMap g) := by
        apply List.Perm.flatMap_left
        intro q hq
        have hq' := hf q (mem_cons_of_mem _ hq)
        have hne : q.id ≠ targetPaneId := fun h =>
          hids.1 (mem_map.mpr ⟨q, hq, h.trans hid.symm⟩)
        rwa [if_neg hne] at hq'
      rw [if_pos hid] at hp
      exact hp.append hrest
    · rw [if_neg hid] at hp
      have htarget' : targetPaneId ∈ rest.map (·.id) :=
        (mem_cons.mp htarget).resolve_left fun h => hid h.symm
      have hrest := ih hids.2 htarget' fun q hq => hf q (mem_cons_of_mem _ hq)
      exact (hp.append hrest).trans perm_middle

theorem perm_tabsOf_flatMap {g : WorkspacePane → List WorkspaceTab}
    (hids : (ps.map (·.id)).Nodup) (htarget : targetPaneId ∈ ps.map (·.id))
    (hf : ∀ p ∈ ps, (tabsOf (f p)).Perm (if p.id = targetPaneId then tab :: g p else g p)) :
    (tabsOf (ps.flatMap f)).Perm (tab :: ps.flatMap g) := by
  rw [tabsOf, flatMap_assoc]
  exact perm_flatMap_of_unique hids htarget hf

theorem perm_cons_others (hnodup : (xs.map workspaceTabId).Nodup)
    (hmem : tab ∈ xs) : (tab :: others (workspaceTabId tab) xs).Perm xs := by
  induction xs with
  | nil => cases hmem
  | cons x rest ih =>
    rw [map_cons, nodup_cons] at hnodup
    rcases mem_cons.mp hmem with rfl | hmem
    · have hrest : others (workspaceTabId tab) rest = rest := others_eq_self fun y hy h =>
        hnodup.1 (mem_map.mpr ⟨y, hy, h⟩)
      rw [others_cons, if_pos rfl, hrest]
    · have hne : workspaceTabId x ≠ workspaceTabId tab := fun h =>
        hnodup.1 (mem_map.mpr ⟨tab, hmem, h.symm⟩)
      rw [others_cons, if_neg hne]
      exact (List.Perm.swap x tab _).trans ((ih hnodup.2 hmem).cons x)

theorem eraseIdx_of_findIdx? {i : ℕ}
    (hnodup : (xs.map workspaceTabId).Nodup)
    (hfind : xs.findIdx? (workspaceTabId · = tabId) = some i) :
    xs.eraseIdx i = others tabId xs ∧ ∃ x, xs[i]? = some x ∧ workspaceTabId x = tabId := by
  induction xs generalizing i with
  | nil => cases hfind
  | cons x rest ih =>
    rw [map_cons, nodup_cons] at hnodup
    rw [findIdx?_cons] at hfind
    by_cases hx : workspaceTabId x = tabId
    · simp only [hx, decide_true, if_true, Option.some.injEq] at hfind
      subst hfind
      have hrest : others tabId rest = rest := others_eq_self fun y hy h =>
        hnodup.1 (mem_map.mpr ⟨y, hy, h.trans hx.symm⟩)
      refine ⟨?_, x, rfl, hx⟩
      rw [eraseIdx_cons_zero, others_cons, if_pos hx, hrest]
    · simp only [hx, decide_false, Bool.false_eq_true, if_false, Option.map_eq_some_iff] at hfind
      obtain ⟨j, hj, rfl⟩ := hfind
      obtain ⟨herase, y, hy, hname⟩ := ih hnodup.2 hj
      refine ⟨?_, y, hy, hname⟩
      rw [eraseIdx_cons_succ, herase, others_cons, if_neg hx]

end lists

/-! ## Lookups and removals -/

section lookups

variable {layout : WorkspaceLayoutNode} {paneId : String} {tabId : WorkspaceTabId}
  {tab : WorkspaceTab} {p : WorkspacePane}

theorem findPane_some (h : findPane layout paneId = some p) :
    p ∈ listPanes layout ∧ p.id = paneId := by
  rw [findPane, LeafTree.findSome?_eq] at h
  obtain ⟨q, hq, hfound⟩ := exists_of_findSome?_eq_some h
  split at hfound
  · rename_i hid
    cases hfound
    exact ⟨hq, hid⟩
  · cases hfound

theorem findPane_none (h : findPane layout paneId = none) :
    ∀ p ∈ listPanes layout, p.id ≠ paneId := by
  rw [findPane, LeafTree.findSome?_eq, findSome?_eq_none_iff] at h
  intro p hp hid
  have hnone := h p hp
  rw [if_pos hid] at hnone
  cases hnone

theorem findTabLocation_none (h : findTabLocation layout tabId = none) :
    ∀ t ∈ tabsOf (listPanes layout), workspaceTabId t ≠ tabId := by
  rw [findTabLocation, LeafTree.findSome?_eq, findSome?_eq_none_iff] at h
  intro t ht
  obtain ⟨p, hp, hmem⟩ := mem_tabsOf.mp ht
  have hnone := h p hp
  rw [Option.map_eq_none_iff, findIdx?_eq_none_iff] at hnone
  simpa using hnone t hmem

theorem findTabLocation_some (h : findTabLocation layout tabId = some loc) :
    ∃ p ∈ listPanes layout, p.id = loc.paneId ∧
      p.tabs.findIdx? (workspaceTabId · = tabId) = some loc.index := by
  rw [findTabLocation, LeafTree.findSome?_eq] at h
  obtain ⟨p, hp, hfound⟩ := exists_of_findSome?_eq_some h
  obtain ⟨index, hindex, rfl⟩ := Option.map_eq_some_iff.mp hfound
  exact ⟨p, hp, rfl, hindex⟩

section
variable (h : WellFormed layout)
include h

theorem WellFormed.eq_of_id_eq
    (hp : p ∈ listPanes layout) (hq : q ∈ listPanes layout) (hid : p.id = q.id) : p = q :=
  inj_on_of_nodup_map h.paneIds hp hq hid

theorem WellFormed.nodup_flatMap :
    (∀ p ∈ listPanes layout, (p.tabs.map workspaceTabId).Nodup) ∧
      (listPanes layout).Pairwise fun p q =>
        (p.tabs.map workspaceTabId).Disjoint (q.tabs.map workspaceTabId) := by
  have hids := h.tabIds
  rw [tabsOf, map_flatMap] at hids
  exact List.nodup_flatMap.mp hids

theorem WellFormed.nodup_tabs (hp : p ∈ listPanes layout) : (p.tabs.map workspaceTabId).Nodup :=
  h.nodup_flatMap.1 p hp

theorem WellFormed.eq_of_tab {t t' : WorkspaceTab}
    (hp : p ∈ listPanes layout) (hq : q ∈ listPanes layout) (ht : t ∈ p.tabs) (ht' : t' ∈ q.tabs)
    (hid : workspaceTabId t = workspaceTabId t') : p = q := by
  by_contra hne
  have hsymm : Std.Symm fun p q : WorkspacePane =>
      (p.tabs.map workspaceTabId).Disjoint (q.tabs.map workspaceTabId) :=
    ⟨fun _ _ hdisjoint _ ha hb => hdisjoint hb ha⟩
  have hdisjoint := h.nodup_flatMap.2.forall hp hq hne
  exact hdisjoint (mem_map_of_mem ht) (hid ▸ mem_map_of_mem ht')

end

end lookups

/-! ## Removing a tab -/

section removal

variable {layout : WorkspaceLayoutNode} {paneId : String} {tabId : WorkspaceTabId}
  {tab : WorkspaceTab} {p : WorkspacePane} {index : ℕ}

theorem WorkspacePane.removeAt_tabs (hnodup : (p.tabs.map workspaceTabId).Nodup)
    (hfind : p.tabs.findIdx? (workspaceTabId · = tabId) = some index) :
    (p.removeAt index tabId).tabs = others tabId p.tabs :=
  (eraseIdx_of_findIdx? hnodup hfind).1

theorem pickActiveAfterRemoval_neighbor (tabs : List WorkspaceTab) (removedIndex : ℕ)
    (removedTabId : WorkspaceTabId) :
    match pickActiveAfterRemoval tabs removedIndex (some removedTabId) removedTabId with
    | none => tabs = []
    | some tabId => tabId ∈ tabs.map workspaceTabId := by
  have hpick : pickActiveAfterRemoval tabs removedIndex (some removedTabId) removedTabId =
      (if tabs.length ≤ removedIndex then tabs.getLast? else tabs[removedIndex]?).map
        workspaceTabId := by
    rw [pickActiveAfterRemoval, if_neg (by simp)]
  rw [hpick]
  by_cases hlast : tabs.length ≤ removedIndex
  · rw [if_pos hlast]
    cases hlast? : tabs.getLast? with
    | none => exact getLast?_eq_none_iff.mp hlast?
    | some t => exact mem_map_of_mem (mem_of_getLast? hlast?)
  · rw [if_neg hlast]
    have hget : tabs[removedIndex]? = some tabs[removedIndex] :=
      getElem?_eq_getElem (by omega)
    rw [hget]
    exact mem_map_of_mem (getElem_mem _)

theorem WorkspacePane.ActiveValid.removeAt (h : p.ActiveValid)
    (hnodup : (p.tabs.map workspaceTabId).Nodup)
    (hfind : p.tabs.findIdx? (workspaceTabId · = tabId) = some index) :
    (p.removeAt index tabId).ActiveValid := by
  obtain ⟨herase, x, hx, -⟩ := eraseIdx_of_findIdx? hnodup hfind
  have hmem : x ∈ p.tabs := mem_of_getElem? hx
  by_cases hactive : p.activeTabId = some tabId
  · -- the active tab goes: a neighbour takes over
    have hpicked := pickActiveAfterRemoval_neighbor (p.tabs.eraseIdx index) index tabId
    rwa [← hactive] at hpicked
  · -- another tab is active, and it stays
    have hkept : (p.removeAt index tabId).activeTabId = p.activeTabId := by
      exact if_pos hactive
    rw [ActiveValid, hkept, removeAt_tabs hnodup hfind]
    rw [ActiveValid] at h
    cases hid : p.activeTabId with
    | none => rw [hid] at h; simp only [h] at hmem; cases hmem
    | some t =>
      rw [hid] at h
      obtain ⟨y, hy, rfl⟩ := mem_map.mp h
      refine mem_map_of_mem (mem_others.mpr ⟨hy, fun hne => hactive ?_⟩)
      rw [hid, hne]

/-- What `closeLayoutTab` makes of a pane. -/
def WorkspacePane.close (tabId : WorkspaceTabId) (p : WorkspacePane) : WorkspacePane :=
  match p.tabs.findIdx? (workspaceTabId · = tabId) with
  | none => p
  | some idx => p.removeAt idx tabId

theorem closeLayoutTab_eq (layout : WorkspaceLayoutNode) (tabId : WorkspaceTabId) :
    closeLayoutTab layout tabId = pruneLayout (mapPanes layout (.close tabId)) := rfl

@[simp] theorem WorkspacePane.close_id (p : WorkspacePane) : (p.close tabId).id = p.id := by
  rw [close]
  split <;> rfl

theorem WorkspacePane.close_tabs (hnodup : (p.tabs.map workspaceTabId).Nodup) :
    (p.close tabId).tabs = others tabId p.tabs := by
  rw [close]
  split
  · rename_i hnone
    rw [findIdx?_eq_none_iff] at hnone
    exact (others_eq_self fun x hx => by simpa using hnone x hx).symm
  · rename_i idx hfind
    exact removeAt_tabs hnodup hfind

theorem WorkspacePane.ActiveValid.close (h : p.ActiveValid)
    (hnodup : (p.tabs.map workspaceTabId).Nodup) : (p.close tabId).ActiveValid := by
  rw [WorkspacePane.close]
  split
  · exact h
  · rename_i idx hfind
    exact h.removeAt hnodup hfind

end removal

/-! ## Pruning -/

section pruning

variable {layout : WorkspaceLayoutNode} {tabId : WorkspaceTabId}

theorem wellFormed_pruneLayout (hids : ((listPanes layout).map (·.id)).Nodup)
    (htabs : ((tabsOf (listPanes layout)).map workspaceTabId).Nodup)
    (hactive : ∀ p ∈ listPanes layout, p.ActiveValid)
    (hsome : ∃ p ∈ listPanes layout, p.isEmpty = false) : WellFormed (pruneLayout layout) := by
  have hpanes : listPanes (pruneLayout layout) = (listPanes layout).filter (! ·.isEmpty) :=
    LeafTree.leaves_prune hsome
  refine ⟨?_, ?_, LeafTree.full_prune hsome, ?_⟩
  · rw [hpanes]
    exact hids.sublist (filter_sublist.map _)
  · rw [hpanes, tabsOf_filter_nonempty]
    exact htabs
  · intro p hp
    rw [hpanes] at hp
    exact hactive p (mem_of_mem_filter hp)

theorem tabsOf_pruneLayout (hsome : ∃ p ∈ listPanes layout, p.isEmpty = false) :
    tabsOf (listPanes (pruneLayout layout)) = tabsOf (listPanes layout) := by
  have hpanes : listPanes (pruneLayout layout) = (listPanes layout).filter (! ·.isEmpty) :=
    LeafTree.leaves_prune hsome
  rw [hpanes, tabsOf_filter_nonempty]

theorem tabsIn_pruneLayout (hsome : ∃ p ∈ listPanes layout, p.isEmpty = false) (paneId : String) :
    tabsIn (listPanes (pruneLayout layout)) paneId = tabsIn (listPanes layout) paneId := by
  have hpanes : listPanes (pruneLayout layout) = (listPanes layout).filter (! ·.isEmpty) :=
    LeafTree.leaves_prune hsome
  rw [hpanes, tabsIn_filter_nonempty]

@[simp] theorem listPanes_mapPanes (layout : WorkspaceLayoutNode)
    (fn : WorkspacePane → WorkspacePane) :
    listPanes (mapPanes layout fn) = (listPanes layout).map fn :=
  LeafTree.leaves_map fn layout

end pruning

/-! ## Each operation -/

section operations

variable {layout : WorkspaceLayoutNode} {paneId : String} {tabId : WorkspaceTabId}

section
variable (h : WellFormed layout)
include h

theorem WellFormed.mapPanes {fn : WorkspacePane → WorkspacePane}
    (hid : ∀ p ∈ listPanes layout, (fn p).id = p.id)
    (htabs : ((tabsOf ((listPanes layout).map fn)).map workspaceTabId).Nodup)
    (hempty : ∀ p ∈ listPanes layout, (fn p).tabs = [] → p.tabs = [])
    (hactive : ∀ p ∈ listPanes layout, (fn p).ActiveValid) : WellFormed (mapPanes layout fn) := by
  refine ⟨?_, ?_, ?_, ?_⟩
  · rw [listPanes_mapPanes, map_map]
    have hids : (listPanes layout).map ((·.id) ∘ fn) = (listPanes layout).map (·.id) :=
      map_congr_left hid
    rw [hids]
    exact h.paneIds
  · rw [listPanes_mapPanes]
    exact htabs
  · apply h.full.map
    intro p hp hgone
    exact List.isEmpty_iff.mpr (hempty p hp (List.isEmpty_iff.mp hgone))
  · rw [listPanes_mapPanes]
    intro q hq
    obtain ⟨p, hp, rfl⟩ := mem_map.mp hq
    exact hactive p hp

/-- **Selecting** a tab moves no tab. -/
theorem selectLayoutTab_wellFormed (paneId : String) (tabId : WorkspaceTabId) :
    WellFormed (selectLayoutTab layout paneId tabId) ∧
      (listPanes (selectLayoutTab layout paneId tabId)).map (fun p => (p.id, p.tabs)) =
        (listPanes layout).map fun p => (p.id, p.tabs) := by
  set fn : WorkspacePane → WorkspacePane := fun p =>
    if p.id ≠ paneId then p
    else if ¬ p.tabs.any (workspaceTabId · = tabId) then p
    else { p with activeTabId := some tabId } with hfn
  have hsame : ∀ p, (fn p).id = p.id ∧ (fn p).tabs = p.tabs := by
    intro p
    simp only [hfn]
    split
    · exact ⟨rfl, rfl⟩
    · split <;> exact ⟨rfl, rfl⟩
  have htabs : tabsOf ((listPanes layout).map fn) = tabsOf (listPanes layout) := by
    simp only [tabsOf, flatMap_map, (hsame _).2]
  constructor
  · apply h.mapPanes
    · exact fun p _ => (hsame p).1
    · rw [htabs]
      exact h.tabIds
    · exact fun p _ hempty => (hsame p).2 ▸ hempty
    · intro p hp
      split
      · exact h.active p hp
      · split
        · exact h.active p hp
        · rename_i hany
          simpa [WorkspacePane.ActiveValid] using hany
  · rw [selectLayoutTab, listPanes_mapPanes, map_map]
    exact map_congr_left fun p _ => by rw [comp, (hsame p).1, (hsame p).2]

theorem WellFormed.exists_kept (htwo : 2 ≤ (listPanes layout).length)
    (tabId : WorkspaceTabId) : ∃ p ∈ listPanes layout, others tabId p.tabs ≠ [] := by
  have hnonempty : ∀ p ∈ listPanes layout, p.tabs ≠ [] := by
    rcases h.full.leaf_or_kept with ⟨p, rfl⟩ | hall
    · simp [listPanes] at htwo
    · exact fun p hp hnil => by simpa [WorkspacePane.isEmpty, hnil] using hall p hp
  match hpanes : listPanes layout with
  | [] | [_] => simp [hpanes] at htwo
  | p :: q :: rest =>
    have hp : p ∈ listPanes layout := by simp [hpanes]
    have hq : q ∈ listPanes layout := by simp [hpanes]
    by_contra hnone
    have hall : ∀ r ∈ p :: q :: rest, ∀ t ∈ r.tabs, workspaceTabId t = tabId := by
      intro r hr t ht
      by_contra hne
      have hmem := mem_others.mpr ⟨ht, hne⟩
      exact hnone ⟨r, hr, ne_nil_of_mem hmem⟩
    obtain ⟨t, ht⟩ := exists_mem_of_ne_nil _ (hnonempty p hp)
    obtain ⟨t', ht'⟩ := exists_mem_of_ne_nil _ (hnonempty q hq)
    have heq : p = q := h.eq_of_tab hp hq ht ht'
      ((hall p (by simp) t ht).trans (hall q (by simp) t' ht').symm)
    have hids := h.paneIds
    rw [hpanes, heq] at hids
    simp at hids

/-- **Closing** removes exactly the named tab. -/
theorem closeLayoutTab_wellFormed (tabId : WorkspaceTabId) :
    WellFormed (closeLayoutTab layout tabId) ∧
      tabsOf (listPanes (closeLayoutTab layout tabId)) =
        others tabId (tabsOf (listPanes layout)) ∧
      ∀ paneId, tabsIn (listPanes (closeLayoutTab layout tabId)) paneId =
        others tabId (tabsIn (listPanes layout) paneId) := by
  have hclose : ∀ p ∈ listPanes layout, (p.close tabId).tabs = others tabId p.tabs :=
    fun p hp => WorkspacePane.close_tabs (h.nodup_tabs hp)
  have hactive : ∀ p ∈ listPanes (mapPanes layout (.close tabId)), p.ActiveValid := by
    rw [listPanes_mapPanes]
    intro q hq
    obtain ⟨p, hp, rfl⟩ := mem_map.mp hq
    exact (h.active p hp).close (h.nodup_tabs hp)
  have hids : ((listPanes (mapPanes layout (.close tabId))).map (·.id)).Nodup := by
    simpa [comp_def] using h.paneIds
  have htabs : tabsOf (listPanes (mapPanes layout (.close tabId))) =
      others tabId (tabsOf (listPanes layout)) := by
    rw [listPanes_mapPanes, others_tabsOf, tabsOf, flatMap_map]
    exact flatMap_congr hclose
  have hin : ∀ paneId, tabsIn (listPanes (mapPanes layout (.close tabId))) paneId =
      others tabId (tabsIn (listPanes layout) paneId) := by
    intro paneId
    rw [listPanes_mapPanes, tabsIn, tabsIn, others_tabsOf, filter_map, tabsOf, flatMap_map]
    have hfilter : (fun p : WorkspacePane => decide (p.id = paneId)) ∘ (.close tabId) =
        fun p : WorkspacePane => decide (p.id = paneId) := by
      funext p
      simp
    rw [hfilter]
    exact flatMap_congr fun p hp => hclose p (mem_of_mem_filter hp)
  have hnodup : ((tabsOf (listPanes (mapPanes layout (.close tabId)))).map
      workspaceTabId).Nodup := by
    rw [htabs]
    exact h.tabIds.sublist (filter_sublist.map _)
  rw [closeLayoutTab_eq]
  rcases h.full.leaf_or_two with ⟨p, rfl⟩ | htwo
  · -- the only pane stays, even without tabs
    have hleaf : pruneLayout (mapPanes (.leaf p) (.close tabId)) =
        mapPanes (.leaf p) (.close tabId) := by
      simp [pruneLayout, mapPanes, LeafTree.map]
    rw [hleaf]
    refine ⟨⟨hids, hnodup, ?_, hactive⟩, htabs, hin⟩
    simpa [mapPanes, LeafTree.map] using LeafTree.Full.leaf (p.close tabId)
  · obtain ⟨p, hp, hkept⟩ := h.exists_kept htwo tabId
    have hsome : ∃ q ∈ listPanes (mapPanes layout (.close tabId)), q.isEmpty = false := by
      refine ⟨p.close tabId, ?_, ?_⟩
      · rw [listPanes_mapPanes]
        exact mem_map_of_mem hp
      · simpa [WorkspacePane.isEmpty, hclose p hp] using hkept
    refine ⟨wellFormed_pruneLayout hids hnodup hactive hsome, ?_, ?_⟩
    · rw [tabsOf_pruneLayout hsome, htabs]
    · intro paneId
      rw [tabsIn_pruneLayout hsome, hin]

theorem WellFormed.findPane_id {p : WorkspacePane}
    (hp : p ∈ listPanes layout) : findPane layout p.id = some p := by
  cases hfound : findPane layout p.id with
  | none => exact absurd rfl (findPane_none hfound p hp)
  | some q =>
    obtain ⟨hq, hid⟩ := findPane_some hfound
    rw [h.eq_of_id_eq hq hp hid]

theorem WellFormed.located (hloc : findTabLocation layout tabId = some loc) :
    ∃ source ∈ listPanes layout, source.id = loc.paneId ∧
      source.tabs.findIdx? (workspaceTabId · = tabId) = some loc.index ∧
      ∃ tab, source.tabs[loc.index]? = some tab ∧ tab ∈ source.tabs ∧
        workspaceTabId tab = tabId := by
  obtain ⟨source, hsource, hid, hfind⟩ := findTabLocation_some hloc
  obtain ⟨-, tab, htab, hname⟩ := eraseIdx_of_findIdx? (h.nodup_tabs hsource) hfind
  exact ⟨source, hsource, hid, hfind, tab, htab, mem_of_getElem? htab, hname⟩

theorem WellFormed.others_of_ne {p : WorkspacePane}
    {tab : WorkspaceTab} (hsource : source ∈ listPanes layout) (htab : tab ∈ source.tabs)
    (hp : p ∈ listPanes layout) (hne : p ≠ source) : others (workspaceTabId tab) p.tabs = p.tabs :=
  others_eq_self fun _ hx hid => hne (h.eq_of_tab hp hsource hx htab hid)

end

theorem clampIndex_le (index : ℤ) (last : ℕ) : clampIndex index last ≤ last := by
  rw [clampIndex]
  omega

section
variable (h : WellFormed layout)
include h

variable {tab : WorkspaceTab}

theorem WellFormed.perm_moved
    (htab : tab ∈ tabsOf (listPanes layout))
    (htarget : targetPaneId ∈ (listPanes layout).map (·.id))
    (hf : ∀ p ∈ listPanes layout, (tabsOf (f p)).Perm
      (if p.id = targetPaneId then tab :: others (workspaceTabId tab) p.tabs
        else others (workspaceTabId tab) p.tabs)) :
    (tabsOf ((listPanes layout).flatMap f)).Perm (tabsOf (listPanes layout)) := by
  refine (perm_tabsOf_flatMap h.paneIds htarget hf).trans ?_
  rw [← others_tabsOf]
  exact perm_cons_others h.tabIds htab

/-- **Moving** within a pane. -/
theorem WellFormed.moveWithin {index dest : ℕ} (hsource : source ∈ listPanes layout)
    (hfind : source.tabs.findIdx? (workspaceTabId · = workspaceTabId tab) = some index)
    (htab : source.tabs[index]? = some tab) (hdest : dest ≤ (source.tabs.eraseIdx index).length)
    (hnext : next = Workspace.mapPanes layout fun p =>
      if p.id = source.id then
        { p with
          tabs := (source.tabs.eraseIdx index).insertIdx dest tab
          activeTabId := some (workspaceTabId tab) }
      else p) :
    WellFormed next ∧ (tabsOf (listPanes next)).Perm (tabsOf (listPanes layout)) ∧
      SameElsewhere (workspaceTabId tab) (listPanes layout) (listPanes next) := by
  have hmem : tab ∈ source.tabs := mem_of_getElem? htab
  have herase := (eraseIdx_of_findIdx? (h.nodup_tabs hsource) hfind).1
  set fn : WorkspacePane → WorkspacePane := fun p =>
    if p.id = source.id then
      { p with
        tabs := (source.tabs.eraseIdx index).insertIdx dest tab
        activeTabId := some (workspaceTabId tab) }
    else p with hfn
  have hpanes : listPanes next = (listPanes layout).map fn := by rw [hnext, listPanes_mapPanes]
  have hat : ∀ p ∈ listPanes layout, p.id = source.id →
      (fn p).tabs = (others (workspaceTabId tab) p.tabs).insertIdx dest tab := by
    intro p hp hid
    rw [h.eq_of_id_eq hp hsource hid, hfn, ← herase]
    simp
  have hoff : ∀ p, p.id ≠ source.id → fn p = p := fun p hid => by
    simp only [hfn, if_neg hid]
  have hid : ∀ p, (fn p).id = p.id := fun p => by
    simp only [hfn]
    split <;> rfl
  have hothers : ∀ p ∈ listPanes layout,
      others (workspaceTabId tab) (fn p).tabs = others (workspaceTabId tab) p.tabs := by
    intro p hp
    by_cases hps : p.id = source.id
    · rw [hat p hp hps, others_insertIdx, others_others]
    · rw [hoff p hps]
  have hperm : (tabsOf ((listPanes layout).map fn)).Perm (tabsOf (listPanes layout)) := by
    rw [map_eq_flatMap]
    apply h.perm_moved (mem_tabsOf.mpr ⟨source, hsource, hmem⟩) (mem_map_of_mem hsource)
    intro p hp
    rw [tabsOf_cons, tabsOf_nil, append_nil]
    by_cases hps : p.id = source.id
    · rw [if_pos hps, hat p hp hps]
      apply perm_insertIdx
      rwa [h.eq_of_id_eq hp hsource hps, ← herase]
    · rw [if_neg hps, hoff p hps]
      rw [h.others_of_ne hsource hmem hp fun heq => hps (by rw [heq])]
  have hsame : SameElsewhere (workspaceTabId tab) (listPanes layout) ((listPanes layout).map fn) :=
    sameElsewhere_map fun p hp => ⟨hid p, hothers p hp⟩
  rw [← hpanes] at hperm hsame
  refine ⟨?_, hperm, hsame⟩
  rw [hnext]
  apply h.mapPanes
  · exact fun p _ => hid p
  · rw [← listPanes_mapPanes, ← hnext]
    exact (hperm.map workspaceTabId).nodup_iff.mpr h.tabIds
  · intro p hp hempty
    by_cases hps : p.id = source.id
    · have htabs : (fn p).tabs = [] := hempty
      rw [hat p hp hps] at htabs
      have hlength := congrArg List.length htabs
      rw [length_insertIdx_of_le_length] at hlength
      · simp at hlength
      · rwa [h.eq_of_id_eq hp hsource hps, ← herase]
    · have htabs : (fn p).tabs = [] := hempty
      rwa [hoff p hps] at htabs
  · intro p hp
    show (fn p).ActiveValid
    by_cases hps : p.id = source.id
    · have hactive : (fn p).activeTabId = some (workspaceTabId tab) := by
        simp only [hfn, if_pos hps]
      rw [WorkspacePane.ActiveValid, hactive, hat p hp hps]
      apply mem_map_of_mem
      rw [mem_insertIdx]
      · exact .inl rfl
      · rwa [h.eq_of_id_eq hp hsource hps, ← herase]
    · rw [hoff p hps]
      exact h.active p hp

theorem WellFormed.place
    (htab : tab ∈ tabsOf (listPanes layout)) (f : WorkspacePane → List WorkspacePane)
    (htarget : targetPaneId ∈ (listPanes layout).map (·.id))
    {t : WorkspaceLayoutNode} (ht : listPanes t = (listPanes layout).flatMap f)
    (hids : (((listPanes layout).flatMap f).map (·.id)).Nodup)
    (hf : ∀ p ∈ listPanes layout, (tabsOf (f p)).Perm
      (if p.id = targetPaneId then tab :: others (workspaceTabId tab) p.tabs
        else others (workspaceTabId tab) p.tabs))
    (hothers : ∀ p ∈ listPanes layout, ∀ paneId,
      others (workspaceTabId tab) (tabsIn (f p) paneId) =
        if p.id = paneId then others (workspaceTabId tab) p.tabs else [])
    (hactive : ∀ p ∈ listPanes layout, ∀ q ∈ f p, q.ActiveValid) :
    WellFormed (pruneLayout t) ∧
      (tabsOf (listPanes (pruneLayout t))).Perm (tabsOf (listPanes layout)) ∧
      SameElsewhere (workspaceTabId tab) (listPanes layout) (listPanes (pruneLayout t)) := by
  have hperm : (tabsOf (listPanes t)).Perm (tabsOf (listPanes layout)) := by
    rw [ht]
    exact h.perm_moved htab htarget hf
  have hsome : ∃ p ∈ listPanes t, p.isEmpty = false := by
    obtain ⟨p, hp, hmem⟩ := mem_tabsOf.mp (hperm.mem_iff.mpr htab)
    refine ⟨p, hp, ?_⟩
    simpa [WorkspacePane.isEmpty] using ne_nil_of_mem hmem
  have hactive' : ∀ q ∈ listPanes t, q.ActiveValid := by
    rw [ht]
    intro q hq
    obtain ⟨p, hp, hmem⟩ := mem_flatMap.mp hq
    exact hactive p hp q hmem
  rw [← ht] at hids
  refine ⟨?_, ?_, ?_⟩
  · exact wellFormed_pruneLayout hids ((hperm.map workspaceTabId).nodup_iff.mpr h.tabIds)
      hactive' hsome
  · rw [tabsOf_pruneLayout hsome]
    exact hperm
  · intro paneId
    rw [tabsIn_pruneLayout hsome, ht]
    exact sameElsewhere_flatMap hothers paneId

/-- **Moving** to another pane. -/
theorem WellFormed.moveAcross {index : ℕ} {dest : WorkspacePane → ℕ}
    (hsource : source ∈ listPanes layout)
    (hfind : source.tabs.findIdx? (workspaceTabId · = workspaceTabId tab) = some index)
    (hmem : tab ∈ source.tabs) (hne : source.id ≠ targetPaneId)
    (htarget : targetPaneId ∈ (listPanes layout).map (·.id))
    (hdest : ∀ p : WorkspacePane, dest p ≤ p.tabs.length)
    (hnext : next = pruneLayout (Workspace.mapPanes layout fun p =>
      if p.id = source.id then p.removeAt index (workspaceTabId tab)
      else if p.id = targetPaneId then
        { p with
          tabs := p.tabs.insertIdx (dest p) tab
          activeTabId := some (workspaceTabId tab) }
      else p)) :
    WellFormed next ∧ (tabsOf (listPanes next)).Perm (tabsOf (listPanes layout)) ∧
      SameElsewhere (workspaceTabId tab) (listPanes layout) (listPanes next) := by
  set fn : WorkspacePane → WorkspacePane := fun p =>
    if p.id = source.id then p.removeAt index (workspaceTabId tab)
    else if p.id = targetPaneId then
      { p with
        tabs := p.tabs.insertIdx (dest p) tab
        activeTabId := some (workspaceTabId tab) }
    else p with hfn
  have hid : ∀ p, (fn p).id = p.id := fun p => by
    simp only [hfn]
    split
    · rfl
    · split <;> rfl
  have hfrom : ∀ p ∈ listPanes layout, p.id = source.id →
      (fn p).tabs = others (workspaceTabId tab) p.tabs ∧ (fn p).ActiveValid := by
    intro p hp hps
    have heq := h.eq_of_id_eq hp hsource hps
    have hnodup := h.nodup_tabs hsource
    simp only [hfn, heq]
    exact ⟨WorkspacePane.removeAt_tabs hnodup hfind, (h.active source hsource).removeAt hnodup hfind⟩
  have hto : ∀ p ∈ listPanes layout, p.id = targetPaneId →
      (fn p).tabs = (others (workspaceTabId tab) p.tabs).insertIdx (dest p) tab ∧
        dest p ≤ (others (workspaceTabId tab) p.tabs).length ∧
        (fn p).activeTabId = some (workspaceTabId tab) := by
    intro p hp hpt
    have hps : p.id ≠ source.id := fun heq => hne (heq ▸ hpt)
    have hothers := h.others_of_ne hsource hmem hp fun heq => hps (by rw [heq])
    rw [hothers]
    simp only [hfn, if_neg hps, if_pos hpt]
    exact ⟨trivial, hdest p, trivial⟩
  have hoff : ∀ p ∈ listPanes layout, p.id ≠ source.id → p.id ≠ targetPaneId →
      fn p = p ∧ others (workspaceTabId tab) p.tabs = p.tabs := by
    intro p hp hps hpt
    refine ⟨by simp only [hfn, if_neg hps, if_neg hpt], ?_⟩
    exact h.others_of_ne hsource hmem hp fun heq => hps (by rw [heq])
  have ht : listPanes (Workspace.mapPanes layout fn) =
      (listPanes layout).flatMap fun p => [fn p] := by
    rw [listPanes_mapPanes, map_eq_flatMap]
  rw [hnext]
  apply h.place (mem_tabsOf.mpr ⟨source, hsource, hmem⟩) _ htarget ht
  · rw [← map_eq_flatMap, map_map]
    simpa only [comp_def, hid] using h.paneIds
  · intro p hp
    rw [tabsOf_cons, tabsOf_nil, append_nil]
    by_cases hpt : p.id = targetPaneId
    · obtain ⟨htabs, hle, -⟩ := hto p hp hpt
      rw [if_pos hpt, htabs]
      exact perm_insertIdx _ _ hle
    · rw [if_neg hpt]
      by_cases hps : p.id = source.id
      · rw [(hfrom p hp hps).1]
      · obtain ⟨hfix, hothers⟩ := hoff p hp hps hpt
        rw [hfix, hothers]
  · intro p hp paneId
    rw [tabsIn_single, hid]
    split
    · by_cases hpt : p.id = targetPaneId
      · rw [(hto p hp hpt).1, others_insertIdx, others_others]
      · by_cases hps : p.id = source.id
        · rw [(hfrom p hp hps).1, others_others]
        · rw [(hoff p hp hps hpt).1]
    · rfl
  · intro p hp q hq
    obtain rfl := mem_singleton.mp hq
    by_cases hpt : p.id = targetPaneId
    · obtain ⟨htabs, hle, hactive⟩ := hto p hp hpt
      rw [WorkspacePane.ActiveValid, hactive, htabs]
      exact mem_map_of_mem ((mem_insertIdx hle).mpr (.inl rfl))
    · by_cases hps : p.id = source.id
      · exact (hfrom p hp hps).2
      · rw [(hoff p hp hps hpt).1]
        exact h.active p hp

/-- **Moving** keeps the tabs, and the order of the others in every pane. -/
theorem moveTabToPane_wellFormed (tabId : WorkspaceTabId)
    (targetPaneId : String) (targetIndex : Option ℤ) :
    let next := moveTabToPane layout tabId targetPaneId targetIndex
    WellFormed next ∧ (tabsOf (listPanes next)).Perm (tabsOf (listPanes layout)) ∧
      SameElsewhere tabId (listPanes layout) (listPanes next) := by
  have hunchanged : WellFormed layout ∧
      (tabsOf (listPanes layout)).Perm (tabsOf (listPanes layout)) ∧
      SameElsewhere tabId (listPanes layout) (listPanes layout) :=
    ⟨h, .refl _, fun _ => rfl⟩
  rw [moveTabToPane]
  cases hloc : findTabLocation layout tabId with
  | none => exact hunchanged
  | some loc =>
    obtain ⟨source, hsource, hid, hfind, tab, hget, hmem, rfl⟩ := h.located hloc
    have hsource' : findPane layout loc.paneId = some source := hid ▸ h.findPane_id hsource
    cases htarget : findPane layout targetPaneId with
    | none => simpa only [hsource'] using hunchanged
    | some target =>
      obtain ⟨htargetMem, htargetId⟩ := findPane_some htarget
      simp only [hsource', hget]
      split
      · -- the tab stays in its pane
        rename_i hsame
        have htargetEq : target = source :=
          h.eq_of_id_eq htargetMem hsource (htargetId.trans (hsame.symm.trans hid.symm))
        subst htargetEq
        split
        · exact hunchanged
        · simp only [hget]
          apply h.moveWithin hsource hfind hget ?_ (by rw [htargetId])
          have hlength := length_eraseIdx_of_lt (List.getElem?_eq_some_iff.mp hget).1
          have hpos : 0 < target.tabs.length := length_pos_of_mem hmem
          have hlast : ((target.tabs.length : ℤ) - 1) = (target.tabs.length - 1 : ℕ) := by omega
          rw [hlength, hlast]
          exact clampIndex_le _ _
      · -- the tab goes to another pane
        rename_i hother
        exact h.moveAcross hsource hfind hmem (hid ▸ hother)
          (mem_map.mpr ⟨target, htargetMem, htargetId⟩)
          (fun p => clampIndex_le (targetIndex.getD p.tabs.length) _) (by rw [hid])

end

@[simp] theorem SplitPlacement.map_arrange {γ : Type} (g : β → γ) (placement : SplitPlacement)
    (added present : β) :
    (placement.arrange added present).map g = placement.arrange (g added) (g present) := by
  cases placement <;> rfl

@[simp] theorem SplitPlacement.mem_arrange (placement : SplitPlacement)
    (added present x : β) : x ∈ placement.arrange added present ↔ x = added ∨ x = present := by
  cases placement <;> simp [arrange, or_comm]

theorem SplitPlacement.perm_arrange (placement : SplitPlacement) (added present : β) :
    (placement.arrange added present).Perm [added, present] := by
  cases placement with
  | before => exact .refl _
  | after => exact List.Perm.swap added present []

/-- **Splitting** keeps the tabs, and the order of the others in every pane. -/
theorem splitPaneWithTab_wellFormed (h : WellFormed layout) {newPaneId : String}
    (hfresh : newPaneId ∉ (listPanes layout).map (·.id)) (newSplitId targetPaneId : String)
    (tabId : WorkspaceTabId) (direction : SplitDirection) (placement : SplitPlacement) :
    let next := splitPaneWithTab newPaneId newSplitId layout targetPaneId tabId direction placement
    WellFormed next ∧ (tabsOf (listPanes next)).Perm (tabsOf (listPanes layout)) ∧
      SameElsewhere tabId (listPanes layout) (listPanes next) := by
  have hunchanged : WellFormed layout ∧
      (tabsOf (listPanes layout)).Perm (tabsOf (listPanes layout)) ∧
      SameElsewhere tabId (listPanes layout) (listPanes layout) :=
    ⟨h, .refl _, fun _ => rfl⟩
  rw [splitPaneWithTab]
  cases htarget : findPane layout targetPaneId with
  | none => exact hunchanged
  | some target =>
    cases hloc : findTabLocation layout tabId with
    | none => exact hunchanged
    | some loc =>
      obtain ⟨htargetMem, htargetId⟩ := findPane_some htarget
      obtain ⟨source, hsource, hid, hfind, tab, hget, hmem, rfl⟩ := h.located hloc
      have hsource' : findPane layout loc.paneId = some source := hid ▸ h.findPane_id hsource
      simp only [hsource', Option.bind_some, hget]
      split
      · exact hunchanged
      have hnew : makePane newPaneId [tab] none =
          ⟨newPaneId, some (workspaceTabId tab), [tab]⟩ := rfl
      set newPane : WorkspacePane := ⟨newPaneId, some (workspaceTabId tab), [tab]⟩ with hnewPane
      -- the target pane without the tab, if it is there
      set rest : WorkspacePane → WorkspacePane := fun p =>
        if loc.paneId = targetPaneId then p.close (workspaceTabId tab) else p with hrest
      set f : WorkspacePane → List WorkspacePane := fun p =>
        if p.id = targetPaneId then
          placement.arrange newPane (rest p)
        else if loc.paneId ≠ targetPaneId ∧ p.id = loc.paneId then
          [p.removeAt loc.index (workspaceTabId tab)]
        else [p] with hf
      have hrestTabs : ∀ p ∈ listPanes layout, p.id = targetPaneId →
          (rest p).tabs = others (workspaceTabId tab) p.tabs ∧ (rest p).ActiveValid := by
        intro p hp hpt
        simp only [hrest]
        split
        · exact ⟨WorkspacePane.close_tabs (h.nodup_tabs hp),
            (h.active p hp).close (h.nodup_tabs hp)⟩
        · rename_i hne
          refine ⟨(h.others_of_ne hsource hmem hp fun heq => hne ?_).symm, h.active p hp⟩
          rw [← hid, ← heq, hpt]
      have hrestId : ∀ p, (rest p).id = p.id := fun p => by
        simp only [hrest]
        split
        · exact WorkspacePane.close_id p
        · rfl
      have hoff : ∀ p ∈ listPanes layout, p.id ≠ targetPaneId → ∃ q, f p = [q] ∧ q.id = p.id ∧
          q.tabs = others (workspaceTabId tab) p.tabs ∧ q.ActiveValid := by
        intro p hp hpt
        simp only [hf, if_neg hpt]
        split
        · rename_i hfrom
          have heq := h.eq_of_id_eq hp hsource (hfrom.2.trans hid.symm)
          rw [heq]
          exact ⟨_, rfl, rfl, WorkspacePane.removeAt_tabs (h.nodup_tabs hsource) hfind,
            (h.active source hsource).removeAt (h.nodup_tabs hsource) hfind⟩
        · rename_i hnot
          refine ⟨p, rfl, rfl, (h.others_of_ne hsource hmem hp fun heq => hnot ?_).symm,
            h.active p hp⟩
          have hpl : p.id = loc.paneId := by rw [heq, hid]
          exact ⟨fun hlt => hpt (hpl.trans hlt), hpl⟩
      have hids : (((listPanes layout).flatMap f).map (·.id)).Nodup := by
        rw [map_flatMap]
        have hperm : ((listPanes layout).flatMap fun p => (f p).map (·.id)).Perm
            (newPaneId :: (listPanes layout).flatMap fun p => [p.id]) := by
          apply perm_flatMap_of_unique h.paneIds (mem_map.mpr ⟨target, htargetMem, htargetId⟩)
          intro p hp
          by_cases hpt : p.id = targetPaneId
          · simp only [hf, if_pos hpt, SplitPlacement.map_arrange, hrestId]
            exact SplitPlacement.perm_arrange placement newPaneId p.id
          · obtain ⟨q, hfp, hqid, -, -⟩ := hoff p hp hpt
            rw [if_neg hpt, hfp, map_singleton, hqid]
        rw [hperm.nodup_iff, ← map_eq_flatMap, nodup_cons]
        exact ⟨hfresh, h.paneIds⟩
      have hleaves : ∀ p, (LeafTree.leaves (if p.id = targetPaneId then
            .node ⟨newSplitId, direction⟩ (placement.arrange (.leaf newPane) (.leaf (rest p)))
          else if ¬ loc.paneId = targetPaneId ∧ p.id = loc.paneId then
            .leaf (p.removeAt loc.index (workspaceTabId tab))
          else .leaf p : WorkspaceLayoutNode)) = f p := by
        intro p
        simp only [hf]
        split
        · cases placement <;> rfl
        · split <;> rfl
      refine h.place (mem_tabsOf.mpr ⟨source, hsource, hmem⟩) f
        (mem_map.mpr ⟨target, htargetMem, htargetId⟩) ?_ hids ?_ ?_ ?_
      · exact (LeafTree.leaves_bind _ _).trans (flatMap_congr fun p _ => hleaves p)
      · intro p hp
        by_cases hpt : p.id = targetPaneId
        · simp only [hf, if_pos hpt]
          have htabs := (hrestTabs p hp hpt).1
          cases placement with
          | before | after => simp [SplitPlacement.arrange, htabs, hnewPane]
        · obtain ⟨q, hfp, -, hqtabs, -⟩ := hoff p hp hpt
          rw [if_neg hpt, hfp, tabsOf_cons, tabsOf_nil, append_nil, hqtabs]
      · intro p hp paneId
        by_cases hpt : p.id = targetPaneId
        · -- the new pane has the moved tab only
          have htabs := (hrestTabs p hp hpt).1
          have hnewIn : others (workspaceTabId tab) (tabsIn [newPane] paneId) = [] := by
            rw [tabsIn_single]
            split <;> simp [hnewPane]
          have hrestIn : others (workspaceTabId tab) (tabsIn [rest p] paneId) =
              if p.id = paneId then others (workspaceTabId tab) p.tabs else [] := by
            rw [tabsIn_single, hrestId, htabs]
            split <;> simp
          have happend : ∀ a b : WorkspacePane,
              tabsIn [a, b] paneId = tabsIn [a] paneId ++ tabsIn [b] paneId := fun a b => by
            rw [tabsIn, tabsIn, tabsIn, ← tabsOf_append, ← filter_append]
            rfl
          simp only [hf, if_pos hpt]
          cases placement with
          | before =>
            rw [SplitPlacement.arrange, happend, others_append, hnewIn, hrestIn, nil_append]
          | after =>
            rw [SplitPlacement.arrange, happend, others_append, hnewIn, hrestIn, append_nil]
        · obtain ⟨q, hfp, hqid, hqtabs, -⟩ := hoff p hp hpt
          rw [hfp, tabsIn_single, hqid, hqtabs]
          split <;> simp
      · intro p hp q hq
        by_cases hpt : p.id = targetPaneId
        · have hnewActive : newPane.ActiveValid := by
            simp [hnewPane, WorkspacePane.ActiveValid]
          have hrestActive := (hrestTabs p hp hpt).2
          simp only [hf, if_pos hpt, SplitPlacement.mem_arrange] at hq
          rcases hq with rfl | rfl
          · exact hnewActive
          · exact hrestActive
        · obtain ⟨r, hfp, -, -, hactive⟩ := hoff p hp hpt
          rw [hfp, mem_singleton] at hq
          exact hq ▸ hactive

theorem tabsOf_congr {ps qs : List WorkspacePane}
    (h : ps.map (fun p => (p.id, p.tabs)) = qs.map fun p => (p.id, p.tabs)) :
    tabsOf ps = tabsOf qs ∧ ∀ paneId, tabsIn ps paneId = tabsIn qs paneId := by
  have htabs : ∀ rs : List WorkspacePane,
      tabsOf rs = (rs.map fun p => (p.id, p.tabs)).flatMap (·.2) := fun rs => by
    rw [tabsOf, flatMap_map]
  have hin : ∀ (rs : List WorkspacePane) (paneId : String), tabsIn rs paneId =
      ((rs.map fun p => (p.id, p.tabs)).filter (·.1 = paneId)).flatMap (·.2) := by
    intro rs paneId
    rw [tabsIn, htabs, filter_map]
    rfl
  refine ⟨by rw [htabs, h, ← htabs], fun paneId => ?_⟩
  rw [hin, h, ← hin]

/-- A tab that is not in the layout is **added**; without being activated it joins a pane that
    has tabs. -/
theorem addTabToPane_of_new (h : WellFormed layout) {tab : WorkspaceTab} {pane : WorkspacePane}
    (hpane : findPane layout paneId = some pane)
    (hnone : findTabLocation layout (workspaceTabId tab) = none) (activate : Option Bool)
    (index : Option ℤ) :
    let next := addTabToPane layout paneId tab activate index
    (tabsOf (listPanes next)).Perm (tab :: tabsOf (listPanes layout)) ∧
      SameElsewhere (workspaceTabId tab) (listPanes layout) (listPanes next) ∧
      (WellFormed next ↔ (activate = some false → pane.tabs ≠ [])) := by
  obtain ⟨hmem, rfl⟩ := findPane_some hpane
  set fn : WorkspacePane → WorkspacePane := fun p =>
    if p.id ≠ pane.id then p
    else
      let dest := clampIndex (index.getD p.tabs.length) p.tabs.length
      { p with
        tabs := p.tabs.insertIdx dest tab
        activeTabId := if activate = some false then p.activeTabId else some (workspaceTabId tab) }
    with hfn
  have hnext : addTabToPane layout pane.id tab activate index = Workspace.mapPanes layout fn := by
    simp only [addTabToPane, hpane, hnone, hfn]
  have hpanes : listPanes (addTabToPane layout pane.id tab activate index) =
      (listPanes layout).map fn := by rw [hnext, listPanes_mapPanes]
  have hoff : ∀ p, p.id ≠ pane.id → fn p = p := fun p hne => by
    simp only [hfn, if_pos hne]
  set dest := clampIndex (index.getD pane.tabs.length) pane.tabs.length with hdest
  have hle : dest ≤ pane.tabs.length := clampIndex_le _ _
  have hat : fn pane = ⟨pane.id, if activate = some false then pane.activeTabId
      else some (workspaceTabId tab), pane.tabs.insertIdx dest tab⟩ := by
    simp [hfn, hdest]
  have heq : ∀ p ∈ listPanes layout, p.id = pane.id → p = pane := fun p hp hid =>
    h.eq_of_id_eq hp hmem hid
  have hid : ∀ p, (fn p).id = p.id := fun p => by
    simp only [hfn]
    split <;> rfl
  have hperm : (tabsOf ((listPanes layout).map fn)).Perm (tab :: tabsOf (listPanes layout)) := by
    rw [map_eq_flatMap]
    apply perm_tabsOf_flatMap h.paneIds (mem_map_of_mem hmem)
    intro p hp
    rw [tabsOf_cons, tabsOf_nil, append_nil]
    by_cases hpp : p.id = pane.id
    · rw [if_pos hpp, heq p hp hpp, hat]
      exact perm_insertIdx _ _ hle
    · rw [if_neg hpp, hoff p hpp]
  have hsame : SameElsewhere (workspaceTabId tab) (listPanes layout)
      ((listPanes layout).map fn) := by
    apply sameElsewhere_map
    intro p hp
    refine ⟨hid p, ?_⟩
    by_cases hpp : p.id = pane.id
    · rw [heq p hp hpp, hat]
      exact others_insertIdx _ _
    · rw [hoff p hpp]
  dsimp only
  rw [hpanes]
  refine ⟨hperm, hsame, fun hwf hfalse hempty => ?_, fun hactivate => ?_⟩
  · -- the pane was empty, so no id was active in it
    have hvalid := hwf.active (fn pane) (hpanes ▸ mem_map_of_mem hmem)
    have hbefore := h.active pane hmem
    rw [WorkspacePane.ActiveValid] at hbefore hvalid
    cases hactive : pane.activeTabId with
    | none =>
      simp only [hat, if_pos hfalse, hactive] at hvalid
      have hlength := congrArg List.length hvalid
      rw [length_insertIdx_of_le_length hle] at hlength
      simp at hlength
    | some t =>
      rw [hactive, hempty] at hbefore
      cases hbefore
  · rw [hnext]
    apply h.mapPanes
    · exact fun p _ => hid p
    · rw [(hperm.map workspaceTabId).nodup_iff, map_cons, nodup_cons]
      refine ⟨fun hin => ?_, h.tabIds⟩
      obtain ⟨t, ht, hname⟩ := mem_map.mp hin
      exact findTabLocation_none hnone t ht hname
    · intro p hp hempty
      by_cases hpp : p.id = pane.id
      · rw [heq p hp hpp, hat] at hempty
        have hlength := congrArg List.length hempty
        rw [length_insertIdx_of_le_length hle] at hlength
        simp at hlength
      · rwa [hoff p hpp] at hempty
    · intro p hp
      by_cases hpp : p.id = pane.id
      · have hin : ∀ t ∈ pane.tabs, t ∈ pane.tabs.insertIdx dest tab := fun t ht =>
          (mem_insertIdx hle).mpr (.inr ht)
        rw [heq p hp hpp, hat]
        by_cases hfalse : activate = some false
        · -- the active tab of the pane stays active
          simp only [if_pos hfalse]
          have hbefore := h.active pane hmem
          rw [WorkspacePane.ActiveValid] at hbefore
          cases hactive : pane.activeTabId with
          | none =>
            rw [hactive] at hbefore
            exact absurd hbefore (hactivate hfalse)
          | some t =>
            rw [hactive] at hbefore
            obtain ⟨x, hx, rfl⟩ := mem_map.mp hbefore
            exact mem_map_of_mem (hin x hx)
        · simp only [if_neg hfalse]
          exact mem_map_of_mem ((mem_insertIdx hle).mpr (.inl rfl))
      · rw [hoff p hpp]
        exact h.active p hp

theorem addTabToPane_of_present (h : WellFormed layout) {tab : WorkspaceTab}
    (hloc : findTabLocation layout (workspaceTabId tab) = some loc)
    (paneId : String) (activate : Option Bool) (index : Option ℤ) :
    let next := addTabToPane layout paneId tab activate index
    WellFormed next ∧ (tabsOf (listPanes next)).Perm (tabsOf (listPanes layout)) ∧
      SameElsewhere (workspaceTabId tab) (listPanes layout) (listPanes next) := by
  rw [addTabToPane]
  cases findPane layout paneId with
  | none => exact ⟨h, .refl _, fun _ => rfl⟩
  | some pane =>
    simp only [hloc]
    obtain ⟨hmoved, hperm, hsame⟩ :=
      moveTabToPane_wellFormed h (workspaceTabId tab) paneId index
    split
    · exact ⟨hmoved, hperm, hsame⟩
    · obtain ⟨hselected, hshown⟩ :=
        selectLayoutTab_wellFormed hmoved paneId (workspaceTabId tab)
      obtain ⟨htabs, hin⟩ := tabsOf_congr hshown
      refine ⟨hselected, by rw [htabs]; exact hperm, fun id => ?_⟩
      rw [hin]
      exact hsame id

end operations

/-! ## Runs -/

inductive LayoutOp where
  | selectLayoutTab (paneId : String) (tabId : WorkspaceTabId)
  | closeLayoutTab (tabId : WorkspaceTabId)
  | moveTabToPane (tabId : WorkspaceTabId) (targetPaneId : String) (targetIndex : Option ℤ)
  | splitPaneWithTab (newPaneId newSplitId targetPaneId : String) (tabId : WorkspaceTabId)
      (direction : SplitDirection) (placement : SplitPlacement)
  | addTabToPane (paneId : String) (tab : WorkspaceTab) (activate : Option Bool)
      (index : Option ℤ)

def applyOp (layout : WorkspaceLayoutNode) : LayoutOp → WorkspaceLayoutNode
  | .selectLayoutTab paneId tabId => selectLayoutTab layout paneId tabId
  | .closeLayoutTab tabId => closeLayoutTab layout tabId
  | .moveTabToPane tabId targetPaneId targetIndex =>
    moveTabToPane layout tabId targetPaneId targetIndex
  | .splitPaneWithTab newPaneId newSplitId targetPaneId tabId direction placement =>
    splitPaneWithTab newPaneId newSplitId layout targetPaneId tabId direction placement
  | .addTabToPane paneId tab activate index => addTabToPane layout paneId tab activate index

def Fresh (layout : WorkspaceLayoutNode) : LayoutOp → Prop
  | .splitPaneWithTab newPaneId _ _ _ _ _ => newPaneId ∉ (listPanes layout).map (·.id)
  | _ => True

def Activates (layout : WorkspaceLayoutNode) : LayoutOp → Prop
  | .addTabToPane paneId _ activate _ =>
    activate = some false → ∀ p ∈ listPanes layout, p.id = paneId → p.tabs ≠ []
  | _ => True

instance (layout : WorkspaceLayoutNode) : DecidablePred (Fresh layout)
  | .splitPaneWithTab _ _ _ _ _ _ => inferInstanceAs (Decidable (¬ _ ∈ _))
  | .selectLayoutTab _ _ | .closeLayoutTab _ | .moveTabToPane _ _ _ | .addTabToPane _ _ _ _ =>
    inferInstanceAs (Decidable True)

instance (layout : WorkspaceLayoutNode) : DecidablePred (Activates layout)
  | .addTabToPane paneId _ activate _ => inferInstanceAs (Decidable
      (activate = some false → ∀ p ∈ listPanes layout, p.id = paneId → p.tabs ≠ []))
  | .selectLayoutTab _ _ | .closeLayoutTab _ | .moveTabToPane _ _ _
  | .splitPaneWithTab _ _ _ _ _ _ => inferInstanceAs (Decidable True)

/-- What an operation does to the tabs: those of all panes, and those of each pane. -/
def Respects (op : LayoutOp) (before after : List WorkspacePane) : Prop :=
  match op with
  | .selectLayoutTab _ _ =>
    after.map (fun p => (p.id, p.tabs)) = before.map fun p => (p.id, p.tabs)
  | .closeLayoutTab tabId =>
    tabsOf after = others tabId (tabsOf before) ∧
      ∀ paneId, tabsIn after paneId = others tabId (tabsIn before paneId)
  | .moveTabToPane tabId _ _ | .splitPaneWithTab _ _ _ tabId _ _ =>
    (tabsOf after).Perm (tabsOf before) ∧ SameElsewhere tabId before after
  | .addTabToPane paneId tab _ _ =>
    (tabsOf after).Perm
        (if paneId ∈ before.map (·.id) ∧
            workspaceTabId tab ∉ (tabsOf before).map workspaceTabId
          then tab :: tabsOf before else tabsOf before) ∧
      SameElsewhere (workspaceTabId tab) before after

section runs

variable {layout : WorkspaceLayoutNode}

theorem addTabToPane_cases (h : WellFormed layout) (paneId : String) (tab : WorkspaceTab)
    (activate : Option Bool) (index : Option ℤ) :
    Respects (.addTabToPane paneId tab activate index) (listPanes layout)
        (listPanes (addTabToPane layout paneId tab activate index)) ∧
      (WellFormed (addTabToPane layout paneId tab activate index) ↔
        Activates layout (.addTabToPane paneId tab activate index)) := by
  cases hpane : findPane layout paneId with
  | none =>
    have hids : paneId ∉ (listPanes layout).map (·.id) := fun hmem => by
      obtain ⟨p, hp, hid⟩ := mem_map.mp hmem
      exact findPane_none hpane p hp hid
    have hnext : addTabToPane layout paneId tab activate index = layout := by
      simp only [addTabToPane, hpane]
    rw [hnext, Respects, if_neg fun hin => hids hin.1]
    refine ⟨⟨.refl _, fun _ => rfl⟩, fun _ _ p hp hid => ?_, fun _ => h⟩
    exact absurd hid (findPane_none hpane p hp)
  | some pane =>
    obtain ⟨hmem, hid⟩ := findPane_some hpane
    cases hloc : findTabLocation layout (workspaceTabId tab) with
    | some loc =>
      obtain ⟨hwf, hperm, hsame⟩ := addTabToPane_of_present h hloc paneId activate index
      obtain ⟨source, hsource, hsourceId, -, t, -, ht, hname⟩ := h.located hloc
      have hin : workspaceTabId tab ∈ (tabsOf (listPanes layout)).map workspaceTabId :=
        mem_map.mpr ⟨t, mem_tabsOf.mpr ⟨source, hsource, ht⟩, hname⟩
      rw [Respects, if_neg fun hnot => hnot.2 hin]
      refine ⟨⟨hperm, hsame⟩, fun _ _ p hp hpid hempty => ?_, fun _ => hwf⟩
      -- an empty pane is the only one, so the tab would be nowhere
      rcases h.full.leaf_or_kept with ⟨q, rfl⟩ | hall
      · simp only [listPanes, LeafTree.leaves_leaf, mem_singleton] at hp hsource
        rw [hsource, ← hp, hempty] at ht
        cases ht
      · have hkept := hall p hp
        simp [WorkspacePane.isEmpty, hempty] at hkept
    | none =>
      obtain ⟨hperm, hsame, hwf⟩ := addTabToPane_of_new h hpane hloc activate index
      have hnew : workspaceTabId tab ∉ (tabsOf (listPanes layout)).map workspaceTabId :=
        fun hin => by
          obtain ⟨t, ht, hname⟩ := mem_map.mp hin
          exact findTabLocation_none hloc t ht hname
      rw [Respects, if_pos ⟨mem_map.mpr ⟨pane, hmem, hid⟩, hnew⟩]
      refine ⟨⟨hperm, hsame⟩, hwf.trans ⟨fun hactivates hfalse p hp hpid => ?_, fun hall hfalse => ?_⟩⟩
      · rw [h.eq_of_id_eq hp hmem (hpid.trans hid.symm)]
        exact hactivates hfalse
      · exact hall hfalse pane hmem hid

/-- **One step.** -/
theorem applyOp_wellFormed (h : WellFormed layout) {op : LayoutOp} (hfresh : Fresh layout op) :
    Respects op (listPanes layout) (listPanes (applyOp layout op)) ∧
      (WellFormed (applyOp layout op) ↔ Activates layout op) := by
  cases op with
  | selectLayoutTab paneId tabId =>
    obtain ⟨hwf, hshown⟩ := selectLayoutTab_wellFormed h paneId tabId
    exact ⟨hshown, fun _ => trivial, fun _ => hwf⟩
  | closeLayoutTab tabId =>
    obtain ⟨hwf, htabs, hin⟩ := closeLayoutTab_wellFormed h tabId
    exact ⟨⟨htabs, hin⟩, fun _ => trivial, fun _ => hwf⟩
  | moveTabToPane tabId targetPaneId targetIndex =>
    obtain ⟨hwf, hperm, hsame⟩ := moveTabToPane_wellFormed h tabId targetPaneId targetIndex
    exact ⟨⟨hperm, hsame⟩, fun _ => trivial, fun _ => hwf⟩
  | splitPaneWithTab newPaneId newSplitId targetPaneId tabId direction placement =>
    obtain ⟨hwf, hperm, hsame⟩ :=
      splitPaneWithTab_wellFormed h hfresh newSplitId targetPaneId tabId direction placement
    exact ⟨⟨hperm, hsame⟩, fun _ => trivial, fun _ => hwf⟩
  | addTabToPane paneId tab activate index =>
    exact addTabToPane_cases h paneId tab activate index

def start (id : String) (tabs : List WorkspaceTab) (activeTabId : Option WorkspaceTabId) :
    WorkspaceLayoutNode :=
  .leaf (createDefaultWorkspaceLayout id tabs activeTabId)

theorem makePane_activeValid (id : String) (tab : WorkspaceTab) (rest : List WorkspaceTab)
    (activeTabId : Option WorkspaceTabId) :
    (makePane id (tab :: rest) activeTabId).ActiveValid := by
  have hvalid : ∀ active : Option WorkspaceTabId,
      (truthyId active = true → active.any ((tab :: rest).map workspaceTabId).contains) →
      WorkspacePane.ActiveValid ⟨id, if (!truthyId active && decide (0 < (tab :: rest).length)) then
        ((tab :: rest).map workspaceTabId).head? else active, tab :: rest⟩ := by
    intro active hcontained
    cases active with
    | none => simp [WorkspacePane.ActiveValid, truthyId]
    | some t =>
      by_cases ht : t = ""
      · simp [WorkspacePane.ActiveValid, truthyId, ht]
      · simpa [WorkspacePane.ActiveValid, truthyId, ht] using hcontained
  rw [makePane]
  apply hvalid
  split
  · simp [truthyId]
  · rename_i hkept
    intro htruthy
    simpa [htruthy] using hkept

variable (id : String) {tabs : List WorkspaceTab}

theorem wellFormed_start
    (hdistinct : (tabs.map workspaceTabId).Nodup) (activeTabId : Option WorkspaceTabId) :
    WellFormed (start id tabs activeTabId) ↔ (tabs = [] → activeTabId ≠ some "") := by
  have hactive : (createDefaultWorkspaceLayout id tabs activeTabId).ActiveValid ↔
      (tabs = [] → activeTabId ≠ some "") := by
    cases tabs with
    | nil =>
      cases activeTabId with
      | none => simp [createDefaultWorkspaceLayout, makePane, WorkspacePane.ActiveValid]
      | some t =>
        by_cases ht : t = "" <;>
          simp [createDefaultWorkspaceLayout, makePane, WorkspacePane.ActiveValid, truthyId, ht]
    | cons tab rest =>
      exact ⟨fun _ hnil => (cons_ne_nil _ _ hnil).elim,
        fun _ => makePane_activeValid id tab rest activeTabId⟩
  constructor
  · exact fun h => hactive.mp (h.active _ (by simp [listPanes, start]))
  · intro h
    refine ⟨by simp [listPanes, start], ?_, .leaf _, ?_⟩
    · simpa [listPanes, start, createDefaultWorkspaceLayout, makePane] using hdistinct
    · intro p hp
      simp only [listPanes, start, LeafTree.leaves_leaf, mem_singleton] at hp
      exact hp ▸ hactive.mpr h

/-- **Runs**: the layouts of a run that draws fresh pane ids are well formed, and its operations
    do to the tabs what they are to do, exactly when no tab is added to an empty pane without
    being activated and an empty workspace does not start with the empty tab id active. -/
theorem layout_of_run
    (hdistinct : (tabs.map workspaceTabId).Nodup) (activeTabId : Option WorkspaceTabId)
    {ops : List LayoutOp} (hfresh : Guarded applyOp Fresh (start id tabs activeTabId) ops) :
    ((∀ pre, pre <+: ops → WellFormed (exec applyOp (start id tabs activeTabId) pre)) ∧
      ∀ pre op, pre ++ [op] <+: ops →
        Respects op (listPanes (exec applyOp (start id tabs activeTabId) pre))
          (listPanes (exec applyOp (start id tabs activeTabId) (pre ++ [op])))) ↔
      (tabs = [] → activeTabId ≠ some "") ∧
        Guarded applyOp Activates (start id tabs activeTabId) ops := by
  have hiff := fun hs : WellFormed (start id tabs activeTabId) =>
    forall_prefix_iff_guarded_of (G := Activates) (fun _ h => h)
      (fun s op h hf hg => (applyOp_wellFormed h hf).2.mpr hg)
      (fun s op h hf hwf => (applyOp_wellFormed h hf).2.mp hwf) hs hfresh
  constructor
  · rintro ⟨hall, -⟩
    have hs : WellFormed (start id tabs activeTabId) := hall [] nil_prefix
    exact ⟨(wellFormed_start id hdistinct activeTabId).mp hs, (hiff hs).mp hall⟩
  · rintro ⟨hstart, hguard⟩
    have hs := (wellFormed_start id hdistinct activeTabId).mpr hstart
    have hall := (hiff hs).mpr hguard
    refine ⟨hall, fun pre op hpre => ?_⟩
    have hfresh' := hfresh.of_prefix hpre
    rw [guarded_append] at hfresh'
    rw [exec_append]
    exact (applyOp_wellFormed (hall pre ((prefix_append pre [op]).trans hpre)) hfresh'.2.1).1

end runs

/-- A tab added to the empty workspace without being activated, then one that is split off. -/
def quietAdd : List LayoutOp :=
  [.addTabToPane "pane-1" (.session "s1" none) (some false) none]

def splitRun : List LayoutOp :=
  [.addTabToPane "pane-1" (.session "s1" none) none none,
    .addTabToPane "pane-1" (.file "a.ts" .code none) (some false) (some 0),
    .splitPaneWithTab "pane-2" "split-1" "pane-1" "session::s1" .horizontal .after,
    .closeLayoutTab "file::code::a.ts"]

/-- The pane has a tab and none of them is active. -/
theorem no_active_tab_after_quietAdd :
    ¬ WellFormed (exec applyOp (start "pane-1" [] none) quietAdd) := by
  intro h
  have hactive := h.active ⟨"pane-1", none, [.session "s1" none]⟩ (by decide)
  exact absurd hactive (by decide)

theorem layout_of_splitRun :
    (∀ pre, pre <+: splitRun → WellFormed (exec applyOp (start "pane-1" [] none) pre)) ∧
      ∀ pre op, pre ++ [op] <+: splitRun →
        Respects op (listPanes (exec applyOp (start "pane-1" [] none) pre))
          (listPanes (exec applyOp (start "pane-1" [] none) (pre ++ [op]))) := by
  have hfresh : Guarded applyOp Fresh (start "pane-1" [] none) splitRun :=
    ⟨trivial, trivial, by decide, trivial, trivial⟩
  have hactivates : Guarded applyOp Activates (start "pane-1" [] none) splitRun :=
    ⟨by decide, by decide, trivial, trivial, trivial⟩
  exact (layout_of_run "pane-1" (by decide) none hfresh).mpr ⟨by decide, hactivates⟩

end RelayIde.Workspace
