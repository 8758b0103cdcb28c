import Mathlib.Data.List.Basic
import Mathlib.Logic.Relation

/-!
# Links Along a List

Rows of a log link back to earlier rows.  Following links forward along the list always ends:
if every open row has a link to a later row that is open or closed, then every open row reaches
a closed one.
-/

namespace RelayIde.Library

open List

variable {α : Type}

theorem exists_transGen_of_later (l : List α) (isOpen : α → Prop) {R : α → α → Prop}
    {good : α → Prop} (hnext : ∀ pre x post, l = pre ++ x :: post → isOpen x →
      ∃ y ∈ post, R x y ∧ (good y ∨ isOpen y))
    {x : α} (hx : x ∈ l) (hopen : isOpen x) : ∃ y, Relation.TransGen R x y ∧ good y := by
  obtain ⟨pre, post, rfl⟩ := append_of_mem hx
  -- induction on how much of the list follows `x`
  generalize hn : post.length = n
  induction n using Nat.strongRecOn generalizing pre x post with
  | ind n ih =>
    obtain ⟨y, hy, hxy, hgood | hyopen⟩ := hnext pre x post rfl hopen
    · exact ⟨y, .single hxy, hgood⟩
    · obtain ⟨mid, rest, rfl⟩ := append_of_mem hy
      have hlt : rest.length < n := by
        rw [← hn, length_append, length_cons]
        omega
      have hassoc : pre ++ x :: (mid ++ y :: rest) = (pre ++ x :: mid) ++ y :: rest := by simp
      rw [hassoc] at hnext
      obtain ⟨z, hyz, hz⟩ := ih rest.length hlt hyopen (pre ++ x :: mid) rest hnext (by simp) rfl
      exact ⟨z, .head hxy hyz, hz⟩

/-- A link target that precedes nothing it links from lies later in the list. -/
theorem mem_later_of_pairwise {l pre post : List α} {x y : α} {P : α → α → Prop}
    (hl : l = pre ++ x :: post) (hpair : l.Pairwise P) (hy : y ∈ l) (hne : y ≠ x)
    (hbefore : ¬ P y x) : y ∈ post := by
  subst hl
  rw [mem_append, mem_cons] at hy
  rcases hy with hpre | rfl | hpost
  · have hP := (pairwise_append.mp hpair).2.2 y hpre x mem_cons_self
    exact absurd hP hbefore
  · exact absurd rfl hne
  · exact hpost

end RelayIde.Library
