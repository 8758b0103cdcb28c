import Mathlib.Data.List.Infix
import Mathlib.Tactic.Common

/-!
# Eviction from the Front

A list that loses its oldest elements while it is over some limit, stops at a pinned one, and
keeps its last.

- `evict_eq_self` — it does nothing where it would stop
-/

namespace RelayIde.Library

open List

variable {α : Type}

def evict (exceeds : List α → Bool) (pinned : α → Bool) : List α → List α
  | [] => []
  | [x] => [x]
  | x :: y :: l =>
    if exceeds (x :: y :: l) && !pinned x then evict exceeds pinned (y :: l) else x :: y :: l

/-- Nothing more is evicted. -/
def Stops (exceeds : List α → Bool) (pinned : α → Bool) (l : List α) : Prop :=
  exceeds l = false ∨ l.length ≤ 1 ∨ ∃ x rest, l = x :: rest ∧ pinned x = true

variable (exceeds : List α → Bool) (pinned : α → Bool)

theorem evict_suffix (l : List α) : evict exceeds pinned l <:+ l := by
  induction l with
  | nil => exact suffix_refl _
  | cons x l ih =>
    cases l with
    | nil => exact suffix_refl _
    | cons y l =>
      unfold evict
      split
      · exact ih.trans (suffix_cons x _)
      · exact suffix_refl _

theorem evict_stops (l : List α) : Stops exceeds pinned (evict exceeds pinned l) := by
  induction l with
  | nil => exact .inr (.inl (Nat.zero_le _))
  | cons x l ih =>
    cases l with
    | nil => exact .inr (.inl (le_refl _))
    | cons y l =>
      unfold evict
      split
      · exact ih
      · next hstop =>
        rw [Bool.and_eq_true, not_and, Bool.not_eq_true', Bool.not_eq_false] at hstop
        cases hover : exceeds (x :: y :: l) with
        | false => exact .inl hover
        | true => exact .inr (.inr ⟨x, y :: l, rfl, hstop hover⟩)

variable {exceeds} {pinned}

theorem mem_evict_of_pinned {l : List α} {x : α} (hx : x ∈ l) (hpinned : pinned x = true) :
    x ∈ evict exceeds pinned l := by
  induction l with
  | nil => exact hx
  | cons y l ih =>
    cases l with
    | nil => exact hx
    | cons z l =>
      unfold evict
      split
      · next hevicted =>
        -- what is evicted is not pinned
        rw [Bool.and_eq_true] at hevicted
        apply ih
        apply (mem_cons.mp hx).resolve_left
        intro heq
        rw [← heq, hpinned] at hevicted
        cases hevicted.2
      · exact hx

theorem evict_eq_self {l : List α} (h : Stops exceeds pinned l) : evict exceeds pinned l = l := by
  match l with
  | [] => rfl
  | [x] => rfl
  | x :: y :: l =>
    unfold evict
    rcases h with hunder | hlength | ⟨z, rest, hz, hpinned⟩
    · rw [hunder, Bool.false_and, if_neg Bool.false_ne_true]
    · rw [length_cons, length_cons] at hlength
      omega
    · rw [(List.cons.inj hz).1, hpinned, Bool.not_true, Bool.and_false, if_neg Bool.false_ne_true]

end RelayIde.Library
