import Mathlib.Data.List.Basic

/-!
# Segments

A list cut at every occurrence of a separator: the terminated segments, and what follows the last
separator.

- `not_mem_rest` — what follows the last separator holds none
-/

namespace RelayIde.Library

open List

variable {α : Type} [DecidableEq α]

def joinFront (piece : List α) : List (List α) × List α → List (List α) × List α
  | ([], rest) => ([], piece ++ rest)
  | (segment :: more, rest) => ((piece ++ segment) :: more, rest)

/-- The segments a separator terminates, and the unterminated rest. -/
def segments (sep : α) : List α → List (List α) × List α
  | [] => ([], [])
  | a :: t =>
    if a = sep then ([] :: (segments sep t).1, (segments sep t).2)
    else joinFront [a] (segments sep t)

variable {sep : α}

theorem segments_sep (t : List α) :
    segments sep (sep :: t) = ([] :: (segments sep t).1, (segments sep t).2) :=
  if_pos rfl

theorem segments_cons {a : α} (h : a ≠ sep) (t : List α) :
    segments sep (a :: t) = joinFront [a] (segments sep t) :=
  if_neg h

omit [DecidableEq α] in
theorem joinFront_nil (s : List (List α) × List α) : joinFront [] s = s := by
  rcases s with ⟨_ | ⟨segment, more⟩, rest⟩ <;> rfl

omit [DecidableEq α] in
theorem joinFront_joinFront (piece piece' : List α) (s : List (List α) × List α) :
    joinFront piece (joinFront piece' s) = joinFront (piece ++ piece') s := by
  rcases s with ⟨_ | ⟨segment, more⟩, rest⟩ <;> simp [joinFront]

theorem segments_joinFront {piece : List α} (h : sep ∉ piece) (t : List α) :
    segments sep (piece ++ t) = joinFront piece (segments sep t) := by
  induction piece with
  | nil => exact (joinFront_nil _).symm
  | cons a piece ih =>
    rw [mem_cons, not_or] at h
    rw [cons_append, segments_cons (fun ha => h.1 ha.symm), ih h.2, joinFront_joinFront]
    rfl

theorem not_mem_rest (t : List α) : sep ∉ (segments sep t).2 := by
  induction t with
  | nil => exact not_mem_nil
  | cons a t ih =>
    by_cases ha : a = sep
    · rw [ha, segments_sep]
      exact ih
    · rw [segments_cons ha]
      rcases hs : segments sep t with ⟨_ | ⟨segment, more⟩, rest⟩
      · rw [hs] at ih
        rw [joinFront, singleton_append, mem_cons, not_or]
        exact ⟨fun h => ha h.symm, ih⟩
      · rw [hs] at ih
        exact ih

/-- **Cutting**: a list is segmented by segmenting a front part, and what that leaves over with
    the remainder. -/
theorem segments_append (t t' : List α) :
    segments sep (t ++ t') =
      ((segments sep t).1 ++ (segments sep ((segments sep t).2 ++ t')).1,
        (segments sep ((segments sep t).2 ++ t')).2) := by
  induction t with
  | nil => rfl
  | cons a t ih =>
    by_cases ha : a = sep
    · subst ha
      rw [cons_append, segments_sep, segments_sep, ih]
      rfl
    · rw [cons_append, segments_cons ha, segments_cons ha, ih]
      rcases segments sep t with ⟨_ | ⟨segment, more⟩, rest⟩
      · -- no segment yet: the item waits in the rest
        simp [joinFront, segments_cons ha]
      · rfl

end RelayIde.Library
