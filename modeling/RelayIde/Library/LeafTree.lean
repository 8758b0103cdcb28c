import Mathlib.Data.List.Basic

/-!
# Trees with Values at the Leaves

A leaf carries a value, an inner node a label and a list of children.  A tree is read by the
list of its leaves; rewriting every leaf, replacing leaves by trees and pruning leaves that
are gone are described by what they do to that list.

- `LeafTree.full_prune`, `LeafTree.leaves_prune` — what pruning leaves
-/

open List

namespace RelayIde.Library

/-- A tree with values `α` at its leaves and labels `ν` at its inner nodes. -/
inductive LeafTree (ν α : Type) where
  | leaf (a : α)
  | node (label : ν) (children : List (LeafTree ν α))

namespace LeafTree

variable {ν α β : Type}

theorem inductionOn {P : LeafTree ν α → Prop} (leaf : ∀ a, P (.leaf a))
    (node : ∀ label children, (∀ c ∈ children, P c) → P (.node label children)) : ∀ t, P t := by
  intro t
  refine @LeafTree.rec ν α P (fun children => ∀ c ∈ children, P c) leaf node ?_ ?_ t
  · exact fun _ h => (not_mem_nil h).elim
  · exact fun c rest hc hrest u hu => (mem_cons.mp hu).elim (fun h => h ▸ hc) (hrest u)

/-! ## Leaves -/

mutual
/-- The values at the leaves, from left to right. -/
def leaves : LeafTree ν α → List α
  | .leaf a => [a]
  | .node _ children => leavesOf children
def leavesOf : List (LeafTree ν α) → List α
  | [] => []
  | c :: rest => leaves c ++ leavesOf rest
end

theorem leavesOf_eq_flatMap (children : List (LeafTree ν α)) :
    leavesOf children = children.flatMap leaves := by
  induction children with
  | nil => rfl
  | cons c rest ih => simp [leavesOf, ih]

@[simp] theorem leaves_leaf (a : α) : (leaf a : LeafTree ν α).leaves = [a] := by
  simp only [leaves]

@[simp] theorem leaves_node (label : ν) (children : List (LeafTree ν α)) :
    (node label children).leaves = children.flatMap leaves := by
  simp only [leaves, leavesOf_eq_flatMap]

mutual
/-- The first result that `f` finds at a leaf. -/
def findSome? (f : α → Option β) : LeafTree ν α → Option β
  | .leaf a => f a
  | .node _ children => findSomeOf? f children
def findSomeOf? (f : α → Option β) : List (LeafTree ν α) → Option β
  | [] => none
  | c :: rest =>
    match findSome? f c with
    | some b => some b
    | none => findSomeOf? f rest
end

theorem findSome?_eq (f : α → Option β) (t : LeafTree ν α) :
    t.findSome? f = t.leaves.findSome? f := by
  induction t using inductionOn with
  | leaf a => simp [findSome?]
  | node label children ih =>
    rw [findSome?, leaves_node]
    induction children with
    | nil => rfl
    | cons c rest ihrest =>
      have hrest := ihrest fun c hc => ih c (mem_cons_of_mem _ hc)
      rw [findSomeOf?, flatMap_cons, findSome?_append, ih c mem_cons_self, hrest]
      cases c.leaves.findSome? f <;> simp

/-! ## Rewriting leaves -/

mutual
def bind (f : α → LeafTree ν α) : LeafTree ν α → LeafTree ν α
  | .leaf a => f a
  | .node label children => .node label (bindOf f children)
def bindOf (f : α → LeafTree ν α) : List (LeafTree ν α) → List (LeafTree ν α)
  | [] => []
  | c :: rest => bind f c :: bindOf f rest
end

section
variable (f : α → LeafTree ν α)
include f

theorem bindOf_eq_map (children : List (LeafTree ν α)) :
    bindOf f children = children.map (bind f) := by
  induction children with
  | nil => rfl
  | cons c rest ih => simp only [bindOf, map_cons, ih]

@[simp] theorem bind_leaf (a : α) : (leaf a).bind f = f a := by
  simp only [bind]

@[simp] theorem bind_node (label : ν) (children : List (LeafTree ν α)) :
    (node label children).bind f = node label (children.map (bind f)) := by
  simp only [bind, bindOf_eq_map]

theorem leaves_bind (t : LeafTree ν α) :
    (t.bind f).leaves = t.leaves.flatMap fun a => (f a).leaves := by
  induction t using inductionOn with
  | leaf a => simp
  | node label children ih =>
    simp only [bind_node, leaves_node, flatMap_map, flatMap_assoc]
    exact flatMap_congr fun c hc => ih c hc

end

/-- A value in the place of each leaf. -/
def map (f : α → α) (t : LeafTree ν α) : LeafTree ν α :=
  t.bind fun a => .leaf (f a)

@[simp] theorem leaves_map (f : α → α) (t : LeafTree ν α) : (t.map f).leaves = t.leaves.map f := by
  simp only [map, leaves_bind, leaves_leaf]
  induction t.leaves with
  | nil => rfl
  | cons a rest ih => simp [ih]

/-! ## Pruning -/

variable {gone : α → Bool}

def isGone (gone : α → Bool) : LeafTree ν α → Bool
  | .leaf a => gone a
  | .node _ _ => false

mutual
/-- The tree without the leaves below a node that are gone, if anything remains; an only child
    takes the place of its parent. -/
def prune? (gone : α → Bool) : LeafTree ν α → Option (LeafTree ν α)
  | .leaf a => some (.leaf a)
  | .node label children =>
    match keptOf gone children with
    | [] => none
    | [c] => some c
    | kept => some (.node label kept)
def keptOf (gone : α → Bool) : List (LeafTree ν α) → List (LeafTree ν α)
  | [] => []
  | c :: rest =>
    match prune? gone c with
    | none => keptOf gone rest
    | some c' => if c'.isGone gone then keptOf gone rest else c' :: keptOf gone rest
end

/-- The pruned tree, or the tree as it is where nothing would remain. -/
def prune (gone : α → Bool) (t : LeafTree ν α) : LeafTree ν α :=
  (t.prune? gone).getD t

/-- Every node has two children or more, and none of them is gone. -/
inductive Full (gone : α → Bool) : LeafTree ν α → Prop
  | leaf (a : α) : Full gone (.leaf a)
  | node {label : ν} {children : List (LeafTree ν α)} (htwo : 2 ≤ children.length)
      (hkept : ∀ c ∈ children, c.isGone gone = false) (hfull : ∀ c ∈ children, Full gone c) :
      Full gone (.node label children)

theorem mem_keptOf {children : List (LeafTree ν α)} {c' : LeafTree ν α}
    (h : c' ∈ keptOf gone children) :
    c'.isGone gone = false ∧ ∃ c ∈ children, c.prune? gone = some c' := by
  induction children with
  | nil => cases h
  | cons c rest ih =>
    have hrest : c' ∈ keptOf gone rest →
        c'.isGone gone = false ∧ ∃ d ∈ c :: rest, d.prune? gone = some c' := fun hmem => by
      obtain ⟨hkept, d, hd, hpruned⟩ := ih hmem
      exact ⟨hkept, d, mem_cons_of_mem _ hd, hpruned⟩
    rw [keptOf] at h
    cases hprune : prune? gone c with
    | none => simp only [hprune] at h; exact hrest h
    | some d =>
      simp only [hprune] at h
      split at h
      · exact hrest h
      · rename_i hkept
        rcases mem_cons.mp h with rfl | hmem
        · exact ⟨by simpa using hkept, c, mem_cons_self, hprune⟩
        · exact hrest hmem

variable (t : LeafTree ν α)

theorem full_prune? : ∀ t', t.prune? gone = some t' → Full gone t' := by
  induction t using inductionOn with
  | leaf a =>
    intro t' h
    simp only [prune?, Option.some.injEq] at h
    exact h ▸ .leaf a
  | node label children ih =>
    intro t' h
    have hkept : ∀ c ∈ keptOf gone children, c.isGone gone = false ∧ Full gone c := by
      intro c hc
      obtain ⟨hkept, d, hd, hpruned⟩ := mem_keptOf hc
      exact ⟨hkept, ih d hd c hpruned⟩
    rw [prune?] at h
    split at h
    · cases h
    · rename_i c hone
      cases h
      exact (hkept t' (by simp [hone])).2
    · rename_i hnil hone
      cases h
      refine .node ?_ (fun c hc => (hkept c hc).1) (fun c hc => (hkept c hc).2)
      match hkeptOf : keptOf gone children with
      | [] => exact absurd hkeptOf hnil
      | [c] => exact absurd hkeptOf (hone c)
      | _ :: _ :: _ => simp

/-- The leaves that a tree shows to its parent: none where nothing remains of it or it is gone. -/
def shown (gone : α → Bool) : Option (LeafTree ν α) → List α
  | none => []
  | some t => if t.isGone gone then [] else t.leaves

theorem shown_prune? :
    shown gone (t.prune? gone) = t.leaves.filter (! gone ·) := by
  induction t using inductionOn with
  | leaf a => by_cases h : gone a <;> simp [prune?, shown, isGone, h]
  | node label children ih =>
    have hleaves : (keptOf gone children).flatMap leaves =
        children.flatMap fun c => c.leaves.filter (! gone ·) := by
      clear label
      induction children with
      | nil => rfl
      | cons c rest ihrest =>
        have hrest := ihrest fun c hc => ih c (mem_cons_of_mem _ hc)
        have hc := ih c mem_cons_self
        rw [flatMap_cons, ← hc, keptOf]
        cases prune? gone c with
        | none => simpa [shown] using hrest
        | some c' =>
          simp only [shown]
          split
          · simpa using hrest
          · rw [flatMap_cons, hrest]
    rw [leaves_node, filter_flatMap, ← hleaves, prune?]
    split
    · rename_i hnil
      simp [hnil, shown]
    · rename_i c hone
      have hmem : c ∈ keptOf gone children := by simp [hone]
      simp [hone, shown, (mem_keptOf hmem).1]
    · simp [shown, isGone]

section prune

variable {t : LeafTree ν α}

/-- Where some leaf remains, the leaves of the pruned tree are those that remain. -/
theorem leaves_prune (h : ∃ a ∈ t.leaves, gone a = false) :
    (t.prune gone).leaves = t.leaves.filter (! gone ·) := by
  have hshown : shown gone (t.prune? gone) = t.leaves.filter (! gone ·) := shown_prune? t
  obtain ⟨a, ha, hkept⟩ := h
  have hmem : a ∈ t.leaves.filter (! gone ·) := mem_filter.mpr ⟨ha, by simp [hkept]⟩
  rw [prune]
  cases hprune : t.prune? gone with
  | none => simp only [hprune] at hshown; rw [← hshown] at hmem; cases hmem
  | some t' =>
    simp only [hprune, shown] at hshown
    split at hshown
    · rw [← hshown] at hmem; cases hmem
    · exact hshown

theorem full_prune (h : ∃ a ∈ t.leaves, gone a = false) : Full gone (t.prune gone) := by
  obtain ⟨a, ha, hkept⟩ := h
  rw [prune]
  cases hprune : t.prune? gone with
  | none =>
    have hshown : shown gone (t.prune? gone) = t.leaves.filter (! gone ·) := shown_prune? t
    have hmem : a ∈ t.leaves.filter (! gone ·) := mem_filter.mpr ⟨ha, by simp [hkept]⟩
    rw [← hshown, hprune] at hmem
    cases hmem
  | some t' => exact full_prune? t t' hprune

theorem Full.map {f : α → α} (h : Full gone t)
    (hf : ∀ a ∈ t.leaves, gone (f a) = true → gone a = true) : Full gone (t.map f) := by
  induction h with
  | leaf a => simpa [LeafTree.map] using Full.leaf (f a)
  | @node label children htwo hkept _ ih =>
    rw [leaves_node] at hf
    have hchild : ∀ c ∈ children, ∀ a ∈ c.leaves, a ∈ children.flatMap leaves :=
      fun c hc a ha => mem_flatMap.mpr ⟨c, hc, ha⟩
    rw [LeafTree.map, bind_node]
    refine .node (by simpa using htwo) ?_ ?_
    · intro c hc
      obtain ⟨d, hd, rfl⟩ := mem_map.mp hc
      cases d with
      | node _ _ => simp [isGone]
      | leaf a =>
        have hfa := hf a (hchild _ hd a (by simp))
        have hgone : gone a = false := hkept _ hd
        exact Bool.eq_false_iff.mpr fun hgone' => Bool.false_ne_true (hgone.symm.trans (hfa hgone'))
    · intro c hc
      obtain ⟨d, hd, rfl⟩ := mem_map.mp hc
      exact ih d hd fun a ha => hf a (hchild d hd a ha)

theorem Full.leaf_or_kept (h : Full gone t) :
    (∃ a, t = .leaf a) ∨ ∀ a ∈ t.leaves, gone a = false := by
  induction h with
  | leaf a => exact .inl ⟨a, rfl⟩
  | @node label children _ hkept _ ih =>
    right
    intro a ha
    rw [leaves_node] at ha
    obtain ⟨c, hc, hmem⟩ := mem_flatMap.mp ha
    rcases ih c hc with ⟨b, rfl⟩ | hall
    · rw [leaves_leaf, mem_singleton] at hmem
      exact hmem ▸ hkept _ hc
    · exact hall a hmem

theorem Full.leaves_ne_nil (h : Full gone t) : t.leaves ≠ [] := by
  induction h with
  | leaf a => simp
  | @node label children htwo _ _ ih =>
    match children, htwo with
    | c :: rest, _ => simpa using fun hc => absurd hc (ih c mem_cons_self)

theorem Full.leaf_or_two (h : Full gone t) : (∃ a, t = .leaf a) ∨ 2 ≤ t.leaves.length := by
  cases h with
  | leaf a => exact .inl ⟨a, rfl⟩
  | @node label children htwo _ hfull =>
    right
    match children, htwo with
    | c :: d :: rest, _ =>
      have hc := length_pos_iff.mpr (hfull c (by simp)).leaves_ne_nil
      have hd := length_pos_iff.mpr (hfull d (by simp)).leaves_ne_nil
      simp only [leaves_node, flatMap_cons, length_append]
      omega

@[simp] theorem prune_leaf (a : α) : (leaf a : LeafTree ν α).prune gone = leaf a := by
  simp [prune, prune?]

end prune

end LeafTree

end RelayIde.Library
