import Mathlib.Data.List.Nodup
import Mathlib.Tactic.Common

/-!
# Upserts

A list of values with keys, in which a value replaces the first of its key or is appended, and in
which all values of a key are updated in place.

- `upsertBy_eq_self` — upserting what is there changes nothing
-/

namespace RelayIde.Library

open List

variable {α κ : Type} [DecidableEq κ] (key : α → κ)

/-- Replaces the first value of the same key, or appends. -/
def upsertBy (x : α) : List α → List α
  | [] => [x]
  | a :: l => if key a = key x then x :: l else a :: upsertBy x l

/-- Updates the values of a key. -/
def updateBy (k : κ) (f : α → α) (l : List α) : List α :=
  l.map fun a => if key a = k then f a else a

variable {key}

theorem keys_upsertBy (x : α) (l : List α) :
    (upsertBy key x l).map key =
      if key x ∈ l.map key then l.map key else l.map key ++ [key x] := by
  induction l with
  | nil => rfl
  | cons a l ih =>
    unfold upsertBy
    by_cases ha : key a = key x
    · simp [ha]
    · have hne : ¬ key x = key a := fun h => ha h.symm
      rw [if_neg ha, map_cons, ih, map_cons]
      by_cases hmem : key x ∈ l.map key
      · rw [if_pos hmem, if_pos (mem_cons_of_mem _ hmem)]
      · rw [if_neg hmem, if_neg, cons_append]
        rw [mem_cons]
        exact fun h => h.elim hne hmem

variable {l : List α} {k : κ} {f : α → α}

theorem nodup_upsertBy (h : (l.map key).Nodup) (x : α) : ((upsertBy key x l).map key).Nodup := by
  rw [keys_upsertBy]
  split
  · exact h
  · next hnew => exact nodup_append.mpr ⟨h, nodup_singleton _, by
      intro a ha b hb hab
      rw [mem_singleton.mp hb] at hab
      exact hnew (hab ▸ ha)⟩

theorem mem_upsertBy {x y : α} (h : y ∈ upsertBy key x l) : y = x ∨ y ∈ l := by
  induction l with
  | nil => exact .inl (mem_singleton.mp h)
  | cons a l ih =>
    unfold upsertBy at h
    split at h
    · rcases mem_cons.mp h with rfl | h
      · exact .inl rfl
      · exact .inr (mem_cons_of_mem _ h)
    · rcases mem_cons.mp h with rfl | h
      · exact .inr mem_cons_self
      · exact (ih h).imp_right (mem_cons_of_mem _)

theorem self_mem_upsertBy (x : α) (l : List α) : x ∈ upsertBy key x l := by
  induction l with
  | nil => exact mem_singleton_self x
  | cons a l ih =>
    unfold upsertBy
    split
    · exact mem_cons_self
    · exact mem_cons_of_mem _ ih

/-- Upserting a value that is there changes nothing, where keys are unique. -/
theorem upsertBy_eq_self (h : (l.map key).Nodup) {x : α} (hx : x ∈ l) : upsertBy key x l = l := by
  induction l with
  | nil => exact absurd hx not_mem_nil
  | cons a l ih =>
    rw [map_cons, nodup_cons] at h
    unfold upsertBy
    rcases mem_cons.mp hx with rfl | hx
    · rw [if_pos rfl]
    · have hne : key a ≠ key x := fun heq => h.1 (heq ▸ mem_map_of_mem hx)
      rw [if_neg hne, ih h.2 hx]

theorem keys_updateBy (hf : ∀ a, key (f a) = key a) (l : List α) :
    (updateBy key k f l).map key = l.map key := by
  unfold updateBy
  rw [map_map]
  apply map_congr_left
  intro a _
  show key (if key a = k then f a else a) = key a
  split
  · exact hf a
  · rfl

theorem mem_updateBy {y : α} :
    y ∈ updateBy key k f l ↔ ∃ a ∈ l, y = if key a = k then f a else a := by
  unfold updateBy
  rw [mem_map]
  exact exists_congr fun a => and_congr_right fun _ => eq_comm

theorem updateBy_eq_self (h : ∀ a ∈ l, key a = k → f a = a) : updateBy key k f l = l := by
  have hself : ∀ a ∈ l, (if key a = k then f a else a) = a := by
    intro a ha
    split
    · next hk => exact h a ha hk
    · rfl
  unfold updateBy
  rw [map_congr_left hself, map_id']

end RelayIde.Library
