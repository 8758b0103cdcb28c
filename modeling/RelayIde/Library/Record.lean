import Mathlib.Data.List.Nodup
import Mathlib.Logic.Function.Basic

/-!
# Records

A record with optional entries is a function from its keys; writing a list of entries into one
lets the later entry of a key win.

- `record` — the record of a list of entries
-/

namespace RelayIde.Library

open List Function

variable {α κ β : Type} [DecidableEq κ]

/-- `for (const a of entries) map[key(a)] = value(a)`. -/
def extendRecord (key : α → κ) (value : α → β) (map : κ → Option β) (entries : List α) :
    κ → Option β :=
  entries.foldl (fun map a => update map (key a) (some (value a))) map

def record (key : α → κ) (value : α → β) (entries : List α) : κ → Option β :=
  extendRecord key value (fun _ => none) entries

variable {key : α → κ} {value : α → β} {entries : List α}

/-- Entries with distinct keys are read back, and shadow what stood there before. -/
theorem extendRecord_eq_some_iff
    (h : (entries.map key).Nodup) (map : κ → Option β) (k : κ) (b : β) :
    extendRecord key value map entries k = some b ↔
      (∃ a ∈ entries, key a = k ∧ value a = b) ∨
        (map k = some b ∧ ∀ a ∈ entries, key a ≠ k) := by
  unfold extendRecord
  induction entries generalizing map with
  | nil => simp
  | cons a entries ih =>
    rw [map_cons, nodup_cons] at h
    rw [foldl_cons, ih h.2]
    by_cases ha : key a = k
    · have hnot : ∀ x ∈ entries, key x ≠ k := fun x hx he =>
        h.1 (ha.trans he.symm ▸ mem_map_of_mem hx)
      subst ha
      simp only [update_self, Option.some.injEq, mem_cons]
      constructor
      · rintro (⟨x, hx, hxk, -⟩ | ⟨hb, -⟩)
        · exact absurd hxk (hnot x hx)
        · exact .inl ⟨a, .inl rfl, rfl, hb⟩
      · rintro (⟨x, rfl | hx, hxk, hb⟩ | ⟨-, hne⟩)
        · exact .inr ⟨hb, hnot⟩
        · exact absurd hxk (hnot x hx)
        · exact absurd rfl (hne a (.inl rfl))
    · rw [update_of_ne (Ne.symm ha)]
      simp [ha]

theorem extendRecord_cases
    {map : κ → Option β} {k : κ} {b : β} (h : extendRecord key value map entries k = some b) :
    map k = some b ∨ ∃ a ∈ entries, key a = k ∧ value a = b := by
  induction entries generalizing map with
  | nil => exact .inl h
  | cons a rest ih =>
    have hrest : extendRecord key value (update map (key a) (some (value a))) rest k = some b := h
    rcases ih hrest with hmap | ⟨x, hx, hxk, hxb⟩
    · by_cases hk : k = key a
      · subst hk
        rw [update_self, Option.some.injEq] at hmap
        exact .inr ⟨a, mem_cons_self, rfl, hmap⟩
      · rw [update_of_ne hk] at hmap
        exact .inl hmap
    · exact .inr ⟨x, mem_cons_of_mem _ hx, hxk, hxb⟩

theorem record_eq_some_iff
    (h : (entries.map key).Nodup) (k : κ) (b : β) :
    record key value entries k = some b ↔ ∃ a ∈ entries, key a = k ∧ value a = b := by
  rw [record, extendRecord_eq_some_iff h]
  simp

end RelayIde.Library
