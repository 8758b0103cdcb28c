import Mathlib.Data.List.Basic

/-!
# Drop-Oldest Rings

A bounded array that overwrites its oldest element once it is full, as a view of the list of
everything that was ever pushed.

- `Holds` — a ring and the list it retains the end of
-/

open List

namespace RelayIde.Library

variable {α : Type}

/-- An array, the slot that is overwritten next, and how many elements were overwritten. -/
structure RingBuffer (α : Type) where
  items : List α := []
  next : ℕ := 0
  dropped : ℕ := 0

namespace RingBuffer

def push (cap : ℕ) (r : RingBuffer α) (a : α) : RingBuffer α :=
  if r.items.length < cap then { r with items := r.items ++ [a] }
  else ⟨r.items.set r.next a, (r.next + 1) % cap, r.dropped + 1⟩

/-- The elements, oldest first. -/
def toList (cap : ℕ) (r : RingBuffer α) : List α :=
  if r.items.length < cap then r.items else r.items.drop r.next ++ r.items.take r.next

def newestIndex (cap : ℕ) (r : RingBuffer α) : ℕ :=
  if r.items.length < cap then r.items.length - 1 else (r.next + cap - 1) % cap

def newest? (cap : ℕ) (r : RingBuffer α) : Option α :=
  r.items[r.newestIndex cap]?

def setNewest (cap : ℕ) (r : RingBuffer α) (a : α) : RingBuffer α :=
  { r with items := r.items.set (r.newestIndex cap) a }

/-- A ring and the list of what was pushed: the whole list in order while there is room, and then
    a rotation of the end of the list. -/
inductive Holds (cap : ℕ) : RingBuffer α → List α → Prop
  | filling (items : List α) (hlen : items.length < cap) : Holds cap ⟨items, 0, 0⟩ items
  | full (lost front back : List α) (hback : back ≠ [])
      (hlen : front.length + back.length = cap) :
      Holds cap ⟨front ++ back, front.length, lost.length⟩ (lost ++ (back ++ front))

variable {cap : ℕ} {r : RingBuffer α} {l : List α}

theorem holds_empty (hcap : 0 < cap) : Holds cap ({} : RingBuffer α) [] :=
  .filling [] hcap

theorem Holds.push (h : Holds cap r l) (a : α) : Holds cap (r.push cap a) (l ++ [a]) := by
  cases h with
  | filling items hlen =>
    simp only [RingBuffer.push, if_pos hlen]
    by_cases hroom : (l ++ [a]).length < cap
    · exact .filling _ hroom
    · have hfull : Holds cap _ _ := .full [] [] (l ++ [a]) (by simp) (by simp at hroom ⊢; omega)
      simpa using hfull
  | full lost front back hback hlen =>
    obtain ⟨x, back, rfl⟩ := exists_cons_of_ne_nil hback
    have hset : (front ++ x :: back).set front.length a = front ++ a :: back := by
      simp
    have hnot : ¬ (front ++ x :: back).length < cap := by
      rw [length_append]
      omega
    simp only [RingBuffer.push, if_neg hnot]
    rw [length_cons] at hlen
    by_cases hlast : back = []
    · -- the overwritten slot was the last one: the array is in order again
      subst hlast
      have hwrap : (front.length + 1) % cap = 0 := by
        rw [← hlen, length_nil, Nat.mod_self]
      have hfull : Holds cap _ _ := .full (lost ++ [x]) [] (front ++ [a]) (by simp)
        (by simpa using hlen)
      simpa [hwrap] using hfull
    · have hpos : 0 < back.length := length_pos_of_ne_nil hlast
      have hnext : (front.length + 1) % cap = front.length + 1 := Nat.mod_eq_of_lt (by omega)
      have hfull : Holds cap _ _ := .full (lost ++ [x]) (front ++ [a]) back hlast (by simp; omega)
      simpa [hnext] using hfull

theorem Holds.toList (h : Holds cap r l) : r.toList cap = l.drop (l.length - cap) := by
  cases h with
  | filling items hlen =>
    rw [RingBuffer.toList, if_pos hlen, Nat.sub_eq_zero_of_le (Nat.le_of_lt hlen), drop_zero]
  | full lost front back hback hlen =>
    have hnot : ¬ (front ++ back).length < cap := by
      rw [length_append]
      omega
    have hdrop : (lost ++ (back ++ front)).length - cap = lost.length := by
      simp only [length_append]
      omega
    rw [RingBuffer.toList, if_neg hnot, hdrop]
    simp

theorem Holds.dropped (h : Holds cap r l) : r.dropped + (r.toList cap).length = l.length := by
  rw [h.toList]
  cases h with
  | filling items hlen | full lost front back hback hlen => simp; omega

/-- The newest slot holds the last element pushed, and setting it replaces that element. -/
theorem Holds.newest {a : α} (h : Holds cap r (l ++ [a])) :
    r.newest? cap = some a ∧ ∀ b, Holds cap (r.setNewest cap b) (l ++ [b]) := by
  generalize hl : l ++ [a] = pushed at h
  cases h with
  | filling items hlen =>
    subst hl
    have hindex : newestIndex cap ⟨l ++ [a], 0, 0⟩ = l.length := by
      rw [newestIndex, if_pos hlen, length_append, length_singleton, Nat.add_sub_cancel]
    rw [newest?, hindex]
    refine ⟨by simp, fun b => ?_⟩
    have hset : setNewest cap ⟨l ++ [a], 0, 0⟩ b = ⟨l ++ [b], 0, 0⟩ := by
      simp [setNewest, hindex]
    rw [hset]
    exact .filling _ (by simpa using hlen)
  | full lost front back hback hlen =>
    have hnot : ¬ (front ++ back).length < cap := by
      rw [length_append]
      omega
    -- the newest element is in front of the next slot, or at the end of the array
    obtain rfl | ⟨front, y, rfl⟩ := front.eq_nil_or_concat'
    · obtain ⟨back, y, rfl⟩ := (eq_nil_or_concat' back).resolve_left hback
      rw [append_nil, ← append_assoc] at hl
      obtain ⟨rfl, hlast⟩ := append_inj' hl rfl
      cases hlast
      have hindex : newestIndex cap ⟨[] ++ (back ++ [a]), 0, lost.length⟩ = back.length := by
        rw [length_append, length_singleton, length_nil] at hlen
        rw [newestIndex, if_neg hnot]
        show (0 + cap - 1) % cap = back.length
        rw [Nat.mod_eq_of_lt (by omega)]
        omega
      rw [length_nil, newest?, hindex]
      refine ⟨by simp, fun b => ?_⟩
      have hset : setNewest cap ⟨[] ++ (back ++ [a]), 0, lost.length⟩ b =
          ⟨[] ++ (back ++ [b]), 0, lost.length⟩ := by
        rw [setNewest, hindex]
        simp
      rw [hset, append_assoc]
      have hfull : Holds cap _ _ := .full lost [] (back ++ [b]) (by simp) (by simpa using hlen)
      rwa [append_nil] at hfull
    · rw [← append_assoc, ← append_assoc] at hl
      obtain ⟨rfl, hlast⟩ := append_inj' hl rfl
      cases hlast
      have hindex : newestIndex cap ⟨front ++ [a] ++ back, (front ++ [a]).length, lost.length⟩ =
          front.length := by
        rw [length_append, length_singleton] at hlen ⊢
        rw [newestIndex, if_neg hnot]
        have hsum : front.length + 1 + cap - 1 = front.length + cap := by omega
        rw [hsum, Nat.add_mod_right, Nat.mod_eq_of_lt (by omega)]
      rw [newest?, hindex]
      refine ⟨by simp, fun b => ?_⟩
      have hset : setNewest cap ⟨front ++ [a] ++ back, (front ++ [a]).length, lost.length⟩ b =
          ⟨front ++ [b] ++ back, (front ++ [b]).length, lost.length⟩ := by
        rw [setNewest, hindex]
        simp
      have hfull : Holds cap _ _ := .full lost (front ++ [b]) back hback (by simpa using hlen)
      rw [hset]
      simpa using hfull

theorem Holds.newest?_nil (h : Holds cap r []) : r.newest? cap = none := by
  generalize hl : ([] : List α) = pushed at h
  cases h with
  | filling items hlen =>
    subst hl
    rfl
  | full lost front back hback hlen => simp_all

end RingBuffer

end RelayIde.Library
