import Mathlib

/-!
# Occurrences

Where a needle occurs in a list, and how that composes when the list is put together around
separators the needle does not contain.

- `indexOf_terminated` — the first place behind lines that do not hold the needle
-/

namespace RelayIde.Library

open List

variable {α : Type} [DecidableEq α]

/-- `indexOf` of a needle, `none` for `-1`. -/
def indexOf (needle : List α) : List α → Option ℕ
  | [] => if needle = [] then some 0 else none
  | a :: t => if needle <+: a :: t then some 0 else (indexOf needle t).map (· + 1)

def occurrences (needle : List α) : List α → ℕ
  | [] => 0
  | a :: t => (if needle <+: a :: t then 1 else 0) + occurrences needle t

variable {needle : List α}

/-! ## First occurrences -/

theorem indexOf_nil (h : needle ≠ []) : indexOf needle [] = none :=
  if_neg h

theorem indexOf_cons (a : α) (t : List α) :
    indexOf needle (a :: t) =
      if needle <+: a :: t then some 0 else (indexOf needle t).map (· + 1) :=
  rfl

theorem occurrences_nil : occurrences needle [] = 0 :=
  rfl

theorem occurrences_cons (a : α) (t : List α) :
    occurrences needle (a :: t) = (if needle <+: a :: t then 1 else 0) + occurrences needle t :=
  rfl

variable {t : List α} {i : ℕ} {lines : List (List α)}

section
variable (h : indexOf needle t = some i)
include h

theorem indexOf_bound : i + needle.length ≤ t.length := by
  induction t generalizing i with
  | nil =>
    rw [indexOf] at h
    split at h
    · next hnil =>
      obtain rfl := Option.some.inj h
      rw [hnil]
      exact le_refl _
    · cases h
  | cons a t ih =>
    rw [indexOf] at h
    split at h
    · next hpre =>
      obtain rfl := Option.some.inj h
      rw [Nat.zero_add]
      exact hpre.length_le
    · obtain ⟨j, hj, rfl⟩ := Option.map_eq_some_iff.mp h
      have hbound := ih hj
      rw [length_cons]
      omega

theorem indexOf_append_of_some
    (hne : needle ≠ []) (more : List α) : indexOf needle (t ++ more) = some i := by
  induction t generalizing i with
  | nil =>
    rw [indexOf_nil hne] at h
    cases h
  | cons a t ih =>
    rw [indexOf] at h
    rw [cons_append, indexOf]
    split at h
    · next hpre =>
      have hwhole : needle <+: a :: (t ++ more) := hpre.trans (prefix_append (a :: t) more)
      rw [if_pos hwhole]
      exact h
    · next hpre =>
      obtain ⟨j, hj, rfl⟩ := Option.map_eq_some_iff.mp h
      have hroom := indexOf_bound hj
      rw [if_neg, ih hj]
      · rfl
      · -- the needle is no longer than the list it occurs in
        intro hlong
        refine hpre ((prefix_append_right_inj []).mp ?_)
        rw [nil_append, nil_append]
        exact prefix_of_prefix_length_le hlong (prefix_append (a :: t) more)
          (by rw [length_cons]; omega)

theorem indexOf_take {k : ℕ} (hne : needle ≠ [])
    (hk : k ≤ i) : indexOf needle (t.take k) = none := by
  cases htake : indexOf needle (t.take k) with
  | none => rfl
  | some j =>
    have hwhole := indexOf_append_of_some htake hne (t.drop k)
    rw [take_append_drop, h] at hwhole
    obtain rfl := Option.some.inj hwhole
    have hbound := indexOf_bound htake
    have hpos := length_pos_iff.mpr hne
    rw [length_take] at hbound
    omega

end

theorem indexOf_of_not_mem {a : α} (ha : a ∈ needle) (ht : a ∉ t) : indexOf needle t = none := by
  induction t with
  | nil => exact indexOf_nil (ne_nil_of_mem ha)
  | cons b t ih =>
    rw [indexOf, if_neg fun hpre => ht (hpre.subset ha), ih fun h => ht (mem_cons_of_mem b h)]
    rfl

theorem indexOf_singleton {a : α} (h : a ∉ t) (more : List α) :
    indexOf [a] (t ++ a :: more) = some t.length := by
  induction t with
  | nil => exact if_pos (prefix_append [a] more)
  | cons b t ih =>
    rw [mem_cons, not_or] at h
    rw [cons_append, indexOf_cons, if_neg fun hpre => h.1 (cons_prefix_cons.mp hpre).1, ih h.2]
    rfl

theorem occurrences_eq_zero_iff (hne : needle ≠ []) (t : List α) :
    occurrences needle t = 0 ↔ indexOf needle t = none := by
  induction t with
  | nil => exact iff_of_true rfl (indexOf_nil hne)
  | cons a t ih =>
    rw [occurrences, indexOf]
    split
    · exact iff_of_false (by omega) (by simp)
    · rw [Nat.zero_add, ih, Option.map_eq_none_iff]

theorem sum_occurrences_eq_zero (hne : needle ≠ [])
    (h : ∀ line ∈ lines, indexOf needle line = none) :
    (lines.map (occurrences needle)).sum = 0 := by
  induction lines with
  | nil => rfl
  | cons line lines ih =>
    obtain ⟨hline, hrest⟩ := forall_mem_cons.mp h
    rw [map_cons, sum_cons, (occurrences_eq_zero_iff hne line).mpr hline, ih hrest]

/-! ## Separators and trailers -/

section Separator

variable {sep : α} (hsep : sep ∉ needle)

include hsep

omit [DecidableEq α] in
theorem prefix_sep_iff (t more : List α) : needle <+: t ++ sep :: more ↔ needle <+: t := by
  refine ⟨fun h => ?_, fun h => h.trans (prefix_append t _)⟩
  rcases prefix_or_prefix_of_prefix h (prefix_append t (sep :: more)) with hshort | hlong
  · exact hshort
  · obtain ⟨rest, rfl⟩ := hlong
    have hrest := (prefix_append_right_inj t).mp h
    cases rest with
    | nil => rw [append_nil]
    | cons b rest =>
      obtain ⟨rfl, -⟩ := cons_prefix_cons.mp hrest
      exact absurd (mem_append_right t mem_cons_self) hsep

/-- **First occurrence around a separator**: in front of it, or behind it. -/
theorem indexOf_sep (hne : needle ≠ []) (t more : List α) :
    indexOf needle (t ++ sep :: more) =
      (indexOf needle t).or ((indexOf needle more).map (· + (t.length + 1))) := by
  induction t with
  | nil =>
    rw [nil_append, indexOf_cons, if_neg, indexOf_nil hne]
    · rfl
    · intro hpre
      have hnil := (prefix_sep_iff hsep [] more).mp hpre
      exact hne (prefix_nil.mp hnil)
  | cons a t ih =>
    rw [cons_append, indexOf, indexOf, ← cons_append]
    simp only [prefix_sep_iff hsep]
    split
    · rfl
    · rw [ih]
      cases indexOf needle t with
      | some i => rfl
      | none =>
        cases indexOf needle more with
        | none => rfl
        | some j =>
          congr 1

theorem occurrences_sep (hne : needle ≠ []) (t more : List α) :
    occurrences needle (t ++ sep :: more) = occurrences needle t + occurrences needle more := by
  induction t with
  | nil =>
    rw [nil_append, occurrences_cons, if_neg]
    · rfl
    · intro hpre
      have hnil := (prefix_sep_iff hsep [] more).mp hpre
      exact hne (prefix_nil.mp hnil)
  | cons a t ih =>
    rw [cons_append, occurrences, occurrences, ← cons_append]
    simp only [prefix_sep_iff hsep]
    rw [ih, Nat.add_assoc]

/-- Lines, each with the separator behind it. -/
def terminated (sep : α) (lines : List (List α)) : List α :=
  lines.flatMap (· ++ [sep])

omit hsep [DecidableEq α] in
theorem intercalate_append (lines : List (List α)) {parts : List (List α)} (h : parts ≠ []) :
    [sep].intercalate (lines ++ parts) = terminated sep lines ++ [sep].intercalate parts := by
  induction lines with
  | nil => rfl
  | cons line lines ih =>
    have hne : lines ++ parts ≠ [] := append_ne_nil_of_right_ne_nil lines h
    rw [cons_append, intercalate_cons_of_ne_nil hne, ih]
    simp [terminated]

/-- **Behind other lines**: the needle first occurs where it first occurs in the rest. -/
theorem indexOf_terminated (hne : needle ≠ [])
    (hlines : ∀ line ∈ lines, indexOf needle line = none) (more : List α) :
    indexOf needle (terminated sep lines ++ more) =
      (indexOf needle more).map (· + (terminated sep lines).length) := by
  induction lines with
  | nil =>
    rw [show terminated sep [] ++ more = more from rfl]
    cases indexOf needle more <;> rfl
  | cons line lines ih =>
    obtain ⟨hline, hrest⟩ := forall_mem_cons.mp hlines
    have hshape : terminated sep (line :: lines) ++ more =
        line ++ sep :: (terminated sep lines ++ more) := by
      simp [terminated]
    rw [hshape, indexOf_sep hsep hne, hline, ih hrest, Option.none_or, Option.map_map]
    congr 1
    funext i
    simp [terminated]
    omega

theorem occurrences_terminated (hne : needle ≠ []) (lines : List (List α)) (more : List α) :
    occurrences needle (terminated sep lines ++ more) =
      (lines.map (occurrences needle)).sum + occurrences needle more := by
  induction lines with
  | nil => exact (Nat.zero_add _).symm
  | cons line lines ih =>
    have hshape : terminated sep (line :: lines) ++ more =
        line ++ sep :: (terminated sep lines ++ more) := by
      simp [terminated]
    rw [hshape, occurrences_sep hsep hne, ih, map_cons, sum_cons, Nat.add_assoc]

end Separator

section Trailer

variable {last : α} {trailer : List α} (hlast : needle.getLast? = some last)
  (htrailer : last ∉ trailer)

include hlast htrailer

omit [DecidableEq α] in
theorem prefix_trail_iff (t : List α) : needle <+: t ++ trailer ↔ needle <+: t := by
  refine ⟨fun h => ?_, fun h => h.trans (prefix_append t _)⟩
  rcases prefix_or_prefix_of_prefix h (prefix_append t trailer) with hshort | hlong
  · exact hshort
  · obtain ⟨rest, rfl⟩ := hlong
    have hrest := (prefix_append_right_inj t).mp h
    rcases eq_nil_or_concat rest with rfl | ⟨front, b, rfl⟩
    · rw [append_nil]
    · rw [concat_eq_append, ← append_assoc, getLast?_concat] at hlast
      obtain rfl := Option.some.inj hlast
      exact absurd (hrest.subset (by simp)) htrailer

/-- **A trailer** without the needle's last item holds no part of an occurrence. -/
theorem indexOf_trail (t : List α) : indexOf needle (t ++ trailer) = indexOf needle t := by
  have hmem : last ∈ needle := mem_of_getLast? hlast
  have hne : needle ≠ [] := ne_nil_of_mem hmem
  induction t with
  | nil => rw [nil_append, indexOf_of_not_mem hmem htrailer, indexOf_nil hne]
  | cons a t ih =>
    rw [cons_append, indexOf, indexOf, ← cons_append, ih]
    simp only [prefix_trail_iff hlast htrailer]

end Trailer

end RelayIde.Library
