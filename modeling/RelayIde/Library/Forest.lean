import Mathlib.Algebra.Order.BigOperators.Group.List
import Mathlib.Algebra.Order.Group.Nat
import Mathlib.Data.List.Nodup
import Mathlib.Data.List.Perm.Basic
import Mathlib.Logic.Relation

/-!
# Forests

Finitely many entries, each below at most one other, where going up always ends.

- `Forest.root_unique` — an entry is reached from one root
-/

namespace RelayIde.Library

open List

variable {α : Type}

variable {l : List α} {β : Type} {k : ℕ}

theorem perm_filter_or {p q : α → Bool} (h : ∀ a ∈ l, p a = true → q a = false) :
    l.filter p ++ l.filter q ~ l.filter fun a => p a || q a := by
  have hperm := filter_append_perm p (l.filter fun a => p a || q a)
  rw [filter_filter, filter_filter] at hperm
  have hp : (l.filter fun a => p a && (p a || q a)) = l.filter p :=
    filter_congr fun a _ => by cases p a <;> simp
  have hq : (l.filter fun a => (!p a) && (p a || q a)) = l.filter q := by
    apply filter_congr
    intro a ha
    cases hpa : p a with
    | true => simp [h a ha hpa]
    | false => simp
  rw [← hp, ← hq]
  exact hperm

namespace Forest

/-- The entries found from `l`, going down `k` levels. -/
def listed (children : α → List α) : ℕ → List α → List α
  | 0, _ => []
  | k + 1, l => l.flatMap fun i => i :: listed children k (children i)

variable {children : α → List α}

theorem listed_perm {l' : List α} (h : l ~ l') (k : ℕ) :
    listed children k l ~ listed children k l' := by
  cases k with
  | zero => exact .nil
  | succ k => exact h.flatMap_right _

theorem listed_flatMap (f : β → List α) (k : ℕ) (l : List β) :
    listed children k (l.flatMap f) = l.flatMap fun b => listed children k (f b) := by
  cases k with
  | zero => simp [listed]
  | succ k => exact flatMap_assoc

theorem listed_append (k : ℕ) (l l' : List α) :
    listed children k (l ++ l') = listed children k l ++ listed children k l' := by
  cases k with
  | zero => rfl
  | succ k => exact flatMap_append

theorem listed_succ (k : ℕ) (l : List α) :
    listed children (k + 1) l ~ l ++ listed children k (l.flatMap children) := by
  have hperm := flatMap_append_perm l (fun i => [i]) (fun i => listed children k (children i))
  rw [flatMap_singleton', ← listed_flatMap] at hperm
  exact hperm.symm

/-- Below, through any number of children. -/
abbrev Reaches (children : α → List α) : α → α → Prop :=
  Relation.ReflTransGen fun p i => i ∈ children p

theorem reaches_of_listed {i : α} (h : i ∈ listed children k l) :
    ∃ r ∈ l, Reaches children r i := by
  induction k generalizing l with
  | zero => cases h
  | succ k ih =>
    obtain ⟨r, hr, hi⟩ := mem_flatMap.mp h
    rcases mem_cons.mp hi with rfl | hi
    · exact ⟨i, hr, .refl⟩
    · obtain ⟨c, hc, hreaches⟩ := ih hi
      exact ⟨r, hr, hreaches.head hc⟩

end Forest

variable [DecidableEq α]

variable (up : β → Option α)

/-- Sorting entries by what `up` says of them. -/
theorem flatMap_filter_perm (ids : List β)
    (h : l.Nodup) : (l.flatMap fun a => ids.filter (up · = some a)) ~
      ids.filter fun b => decide (∃ a ∈ l, up b = some a) := by
  induction l with
  | nil => simp
  | cons a l ih =>
    obtain ⟨ha, hl⟩ := nodup_cons.mp h
    refine ((ih hl).append_left _).trans ((perm_filter_or ?_).trans (Perm.of_eq ?_))
    · intro b _ hb
      rw [decide_eq_false_iff_not]
      rintro ⟨a', ha', hb'⟩
      rw [decide_eq_true_eq.mp hb, Option.some.injEq] at hb'
      exact ha (hb' ▸ ha')
    · exact filter_congr fun b _ => by simp

theorem perm_filter_none {ids : List β}
    (h : l.Nodup) (hl : ∀ b ∈ ids, ∀ a, up b = some a → a ∈ l) :
    ids.filter (up · = none) ++ (l.flatMap fun a => ids.filter (up · = some a)) ~ ids := by
  refine ((flatMap_filter_perm up ids h).append_left _).trans
    ((Perm.of_eq ?_).trans (filter_append_perm (up · = none) ids))
  congr 1
  apply filter_congr
  intro b hb
  cases hup : up b with
  | none => simp
  | some a => simp [hl b hb a hup]

/-- Entries with their parents; a parent's children may be in any order. -/
structure Forest (α : Type) [DecidableEq α] where
  ids : List α
  up : α → Option α
  children : α → List α
  nodup : ids.Nodup
  closed : ∀ i p, up i = some p → p ∈ ids
  ends : WellFounded fun p i => up i = some p
  perm_children : ∀ p, children p ~ ids.filter (up · = some p)

namespace Forest

variable (F : Forest α)

/-- How far an entry is below its root. -/
noncomputable def depth : α → ℕ :=
  F.ends.fix fun i depth => match h : F.up i with
    | none => 0
    | some p => depth p h + 1

variable {F} {i p : α}

theorem depth_root (h : F.up i = none) : F.depth i = 0 := by
  rw [depth, WellFounded.fix_eq]
  split
  · rfl
  · simp_all

theorem depth_child (h : F.up i = some p) : F.depth i = F.depth p + 1 := by
  rw [depth, WellFounded.fix_eq]
  split
  · simp_all
  · rename_i p' hp
    rw [h, Option.some.injEq] at hp
    rw [hp]

theorem depth_eq_zero_iff : F.depth i = 0 ↔ F.up i = none := by
  cases h : F.up i with
  | none => simp [depth_root h]
  | some p => simp [depth_child h]

theorem mem_children : i ∈ F.children p ↔ i ∈ F.ids ∧ F.up i = some p := by
  simp [(F.perm_children p).mem_iff]

theorem children_level (m : ℕ) : (F.ids.filter (F.depth · = m)).flatMap F.children ~
    F.ids.filter (F.depth · = m + 1) := by
  refine (Perm.flatMap_left _ fun p _ => F.perm_children p).trans
    ((flatMap_filter_perm F.up F.ids (F.nodup.filter _)).trans (Perm.of_eq ?_))
  apply filter_congr
  intro i _
  cases h : F.up i with
  | none => simp [depth_root h]
  | some p => simp [depth_child h, F.closed i p h]

/-- From level `m`, going down lists `k` levels. -/
theorem listed_level (k m : ℕ) : listed F.children k (F.ids.filter (F.depth · = m)) ~
    F.ids.filter fun i => m ≤ F.depth i ∧ F.depth i < m + k := by
  induction k generalizing m with
  | zero =>
    rw [listed, filter_eq_nil_iff.mpr]
    intro i _
    simp
  | succ k ih =>
    refine (listed_succ k _).trans
      ((((listed_perm (children_level m) k).trans (ih (m + 1))).append_left _).trans
        ((perm_filter_or ?_).trans (Perm.of_eq ?_)))
    · intro i _ hi
      simp only [decide_eq_true_eq, decide_eq_false_iff_not] at hi ⊢
      omega
    · apply filter_congr
      intro i _
      rw [← Bool.decide_or, decide_eq_decide]
      omega

theorem listed_roots (hk : ∀ i ∈ F.ids, F.depth i < k) :
    listed F.children k (F.ids.filter (F.up · = none)) ~ F.ids := by
  have hroots : F.ids.filter (F.up · = none) = F.ids.filter (F.depth · = 0) := by
    simp only [depth_eq_zero_iff]
  rw [hroots]
  refine (listed_level k 0).trans (Perm.of_eq (filter_eq_self.mpr ?_))
  intro i hi
  simpa using hk i hi

theorem exists_depth_lt (F : Forest α) : ∃ k, ∀ i ∈ F.ids, F.depth i < k := by
  refine ⟨(F.ids.map F.depth).sum + 1, fun i hi => ?_⟩
  exact Nat.lt_succ_of_le (single_le_sum (by simp) _ (mem_map_of_mem hi))

theorem perm_roots_children (F : Forest α) :
    F.ids.filter (F.up · = none) ++ F.ids.flatMap F.children ~ F.ids :=
  ((Perm.flatMap_left _ fun p _ => F.perm_children p).append_left _).trans
    (perm_filter_none F.up F.nodup fun i _ p => F.closed i p)

theorem root_unique {r r' : α} (hr : F.up r = none) (hr' : F.up r' = none)
    (h : Reaches F.children r i) (h' : Reaches F.children r' i) : r = r' := by
  induction h with
  | refl =>
    cases h' with
    | refl => rfl
    | tail _ hchild => simp [(mem_children.mp hchild).2] at hr
  | tail _ hchild ih =>
    cases h' with
    | refl => simp [(mem_children.mp hchild).2] at hr'
    | tail h' hchild' =>
      have hup := (mem_children.mp hchild).2.symm.trans (mem_children.mp hchild').2
      exact ih (Option.some.inj hup ▸ h')

theorem mem_listed_iff (hk : ∀ i ∈ F.ids, F.depth i < k)
    (hl : ∀ r ∈ l, r ∈ F.ids ∧ F.up r = none) :
    i ∈ listed F.children k l ↔ ∃ r ∈ l, Reaches F.children r i := by
  refine ⟨reaches_of_listed, ?_⟩
  rintro ⟨r, hr, hreaches⟩
  obtain ⟨hmem, hroot⟩ := hl r hr
  have hi : i ∈ F.ids := by
    cases hreaches with
    | refl => exact hmem
    | tail _ hchild => exact (mem_children.mp hchild).1
  have hlisted := (listed_roots hk).mem_iff.mpr hi
  rw [← flatMap_singleton' (F.ids.filter _), listed_flatMap] at hlisted
  obtain ⟨r', hr', hi'⟩ := mem_flatMap.mp hlisted
  obtain ⟨r'', hr'', hreaches'⟩ := reaches_of_listed hi'
  rw [mem_singleton.mp hr''] at hreaches'
  have hup : F.up r' = none := by simpa using (mem_filter.mp hr').2
  rw [← flatMap_singleton' l, listed_flatMap]
  exact mem_flatMap.mpr ⟨r, hr, root_unique hroot hup hreaches hreaches' ▸ hi'⟩

theorem existsUnique_root (hi : i ∈ F.ids) :
    ∃! r, (r ∈ F.ids ∧ F.up r = none) ∧ Reaches F.children r i := by
  obtain ⟨k, hk⟩ := F.exists_depth_lt
  obtain ⟨r, hr, hreaches⟩ := reaches_of_listed ((listed_roots hk).mem_iff.mpr hi)
  obtain ⟨hmem, hroot⟩ := mem_filter.mp hr
  refine ⟨r, ⟨⟨hmem, by simpa using hroot⟩, hreaches⟩, ?_⟩
  rintro r' ⟨⟨-, hr'⟩, hreaches'⟩
  exact root_unique hr' (by simpa using hroot) hreaches' hreaches

end Forest

end RelayIde.Library
