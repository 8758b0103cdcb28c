import Mathlib.Data.List.Basic

/-!
# The First Match of a List

Records kept in a list and changed in place: a lookup finds the first record of a key, and a
change touches that record only.

- `modifyFirst_eq_map` — with distinct keys, every record of the key is the first one
-/

namespace RelayIde.Library

open List

variable {α β κ : Type}

/-- `l` with its first member that satisfies `p` changed by `f`. -/
def modifyFirst (p : α → Bool) (f : α → α) : List α → List α
  | [] => []
  | a :: l => if p a then f a :: l else a :: modifyFirst p f l

/-- Only the first match changes. -/
example : modifyFirst (· = 2) (· + 10) [1, 2, 3, 2] = [1, 12, 3, 2] := by
  simp [modifyFirst]

section Modify

variable {p : α → Bool} {f : α → α}

theorem modifyFirst_of_fixed {l : List α} {a : α} (h : l.find? p = some a) (hf : f a = a) :
    modifyFirst p f l = l := by
  induction l with
  | nil => rfl
  | cons b l ih =>
    rw [find?_cons] at h
    rw [modifyFirst]
    cases hp : p b with
    | true =>
      rw [hp] at h
      obtain rfl : b = a := Option.some.inj h
      rw [if_pos rfl, hf]
    | false =>
      rw [hp] at h
      rw [if_neg (by simp), ih h]

theorem map_modifyFirst {g : α → β} (hg : ∀ a, p a = true → g (f a) = g a) (l : List α) :
    (modifyFirst p f l).map g = l.map g := by
  induction l with
  | nil => rfl
  | cons a l ih =>
    rw [modifyFirst]
    cases hp : p a with
    | true => simp [hg a hp]
    | false => simp [ih]

end Modify

section Keyed

variable [DecidableEq κ] {key : α → κ} {f : α → α}

theorem modifyFirst_eq_map {l : List α} (h : (l.map key).Nodup) (k : κ) :
    modifyFirst (fun a => decide (key a = k)) f l =
      l.map fun a => if key a = k then f a else a := by
  induction l with
  | nil => rfl
  | cons a l ih =>
    rw [map_cons, nodup_cons] at h
    rw [modifyFirst, map_cons]
    by_cases ha : key a = k
    · rw [if_pos (by simpa using ha), if_pos ha]
      congr 1
      symm
      rw [map_congr_left (g := id), map_id]
      intro b hb
      have hne : key b ≠ k := by
        rintro rfl
        exact h.1 (ha ▸ mem_map_of_mem hb)
      simp [hne]
    · rw [if_neg (by simpa using ha), if_neg ha, ih h.2]

theorem find?_of_mem {l : List α} (h : (l.map key).Nodup) {a : α} (ha : a ∈ l) :
    (l.find? fun b => decide (key b = key a)) = some a := by
  induction l with
  | nil => cases ha
  | cons b l ih =>
    rw [map_cons, nodup_cons] at h
    obtain rfl | hmem := mem_cons.mp ha
    · simp
    · have hne : key b ≠ key a := by
        intro heq
        exact h.1 (heq ▸ mem_map_of_mem hmem)
      simpa [hne] using ih h.2 hmem

end Keyed

end RelayIde.Library
