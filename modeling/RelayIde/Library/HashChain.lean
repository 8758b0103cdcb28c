import Mathlib.Data.List.Basic
import Mathlib.Data.List.Forall2
import Mathlib.Data.List.Induction

/-!
# Hash Chains

A list whose items each name the digest of the item before.  Nothing is assumed about the items
but what links them: `link` is the digest an item names, `digest` the one it is named by.

- `forall₂_of_linked` — the last digest commits to the whole chain
-/

namespace RelayIde.Library.HashChain

open List

variable {α β : Type} {r : α → β → Prop} {l : List α} {l' : List β}

theorem exists_of_forall₂_left
    (h : List.Forall₂ r l l') {a : α} (ha : a ∈ l) : ∃ b ∈ l', r a b := by
  induction h with
  | nil => exact absurd ha not_mem_nil
  | cons hab _ ih =>
    rcases mem_cons.mp ha with rfl | ha
    · exact ⟨_, mem_cons_self, hab⟩
    · obtain ⟨b, hb, hr⟩ := ih ha
      exact ⟨b, mem_cons_of_mem _ hb, hr⟩

theorem exists_of_forall₂_right (h : List.Forall₂ r l l') {b : β} (hb : b ∈ l') : ∃ a ∈ l, r a b :=
  exists_of_forall₂_left h.flip hb

theorem forall₂_imp_mem {α β : Type} {r s : α → β → Prop} {l : List α} {l' : List β}
    (h : List.Forall₂ r l l') (himp : ∀ a ∈ l, ∀ b ∈ l', r a b → s a b) : List.Forall₂ s l l' := by
  induction h with
  | nil => exact List.Forall₂.nil
  | cons hab _ ih =>
    refine List.Forall₂.cons (himp _ mem_cons_self _ mem_cons_self hab) (ih ?_)
    intro a ha b hb
    exact himp a (mem_cons_of_mem _ ha) b (mem_cons_of_mem _ hb)

variable {α δ : Type} (digest : α → δ) (link : α → Option δ)

inductive Linked : Option δ → List α → Option δ → Prop
  | nil (start : Option δ) : Linked start [] start
  | cons {start : Option δ} {a : α} {items : List α} {last : Option δ} (head : link a = start)
      (tail : Linked (some (digest a)) items last) : Linked start (a :: items) last

variable {digest link}

variable {start : Option δ} {items : List α}

variable {last : Option δ}

theorem Linked.nil_iff : Linked digest link start [] last ↔ last = start := by
  constructor
  · intro h
    cases h
    rfl
  · rintro rfl
    exact Linked.nil last

theorem Linked.cons_iff {a : α} :
    Linked digest link start (a :: items) last ↔
      link a = start ∧ Linked digest link (some (digest a)) items last := by
  constructor
  · intro h
    cases h with
    | cons head tail => exact ⟨head, tail⟩
  · rintro ⟨head, tail⟩
    exact Linked.cons head tail

theorem linked_concat {a : α} :
    Linked digest link start (items ++ [a]) last ↔
      Linked digest link start items (link a) ∧ last = some (digest a) := by
  induction items generalizing start with
  | nil =>
    rw [nil_append, Linked.cons_iff, Linked.nil_iff, Linked.nil_iff]
  | cons b items ih =>
    rw [cons_append, Linked.cons_iff, Linked.cons_iff, ih, and_assoc]

theorem linked_map {β : Type} (f : β → α) {last : Option δ} {items : List β} :
    Linked digest link start (items.map f) last ↔
      Linked (fun b => digest (f b)) (fun b => link (f b)) start items last := by
  induction items generalizing start with
  | nil => rw [map_nil, Linked.nil_iff, Linked.nil_iff]
  | cons b items ih => rw [map_cons, Linked.cons_iff, Linked.cons_iff, ih]

theorem Linked.congr {digest' : α → δ} {last : Option δ}
    (h : Linked digest link start items last) (hitems : ∀ a ∈ items, digest a = digest' a) :
    Linked digest' link start items last := by
  induction h with
  | nil start => exact Linked.nil start
  | cons head _ ih =>
    refine Linked.cons head ?_
    rw [← hitems _ mem_cons_self]
    exact ih fun b hb => hitems b (mem_cons_of_mem _ hb)

/-- **Commitment.**  Two chains of one length from one start to one end hold the same items, as
    far as a digest determines its item. -/
theorem forall₂_of_linked {r : α → α → Prop}
    (hdigest : ∀ a b, digest a = digest b → r a b ∧ link a = link b)
    {last : Option δ} {items' : List α} (hlen : items.length = items'.length)
    (h : Linked digest link start items last) (h' : Linked digest link start items' last) :
    List.Forall₂ r items items' := by
  -- backwards from the common end: the last items agree, so they name one digest before them
  induction items using List.reverseRecOn generalizing items' last with
  | nil =>
    rw [length_nil, eq_comm, length_eq_zero_iff] at hlen
    subst hlen
    exact List.Forall₂.nil
  | append_singleton items a ih =>
    cases items' using List.reverseRecOn with
    | nil => simp at hlen
    | append_singleton items' b =>
      rw [linked_concat] at h h'
      obtain ⟨hr, hlink⟩ := hdigest a b (Option.some.inj (h.2.symm.trans h'.2))
      rw [hlink] at h
      have hfront := ih (by simpa using hlen) h.1 h'.1
      exact rel_append hfront (List.Forall₂.cons hr List.Forall₂.nil)

end RelayIde.Library.HashChain
