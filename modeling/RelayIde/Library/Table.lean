import Mathlib.Data.List.Nodup

/-!
# Keyed Tables

A relational table with a primary key, kept as the list of its rows together with the
proof that no key repeats.  The operations are the statements a row store issues:

- `upsert` — `INSERT … ON CONFLICT (key) DO UPDATE SET …`

The lemmas describe each operation through membership in `rows` and through `find?`,
so that a client never unfolds one.
-/

open List

namespace RelayIde.Library

/-- An instant as an ISO string renders it, by its milliseconds: the strings of one format compare
    like the instants they name. -/
abbrev Timestamp := Nat

/-- Rows of type `ρ` with pairwise distinct keys. -/
structure Table {ρ κ : Type} (key : ρ → κ) where
  /-- The rows, in storage order. -/
  rows : List ρ
  /-- The primary-key constraint. -/
  keys_nodup : (rows.map key).Nodup

namespace Table

variable {ρ κ : Type} {key : ρ → κ}

/-- The table without rows. -/
def empty : Table key := ⟨[], by simp⟩

@[ext] theorem ext {t u : Table key} (h : t.rows = u.rows) : t = u := by
  cases t
  cases u
  simp_all

@[simp] theorem rows_empty : (empty : Table key).rows = [] := rfl

variable (t : Table key) (p : ρ → Bool) (f : ρ → ρ) (r : ρ) (k : κ)

theorem rows_nodup : t.rows.Nodup :=
  List.Nodup.of_map key t.keys_nodup

theorem eq_of_key_eq {r s : ρ} (hr : r ∈ t.rows) (hs : s ∈ t.rows) (hk : key r = key s) : r = s :=
  inj_on_of_nodup_map t.keys_nodup hr hs hk

/-! ## Lookup -/

/-- The row stored under a key. -/
def find? [DecidableEq κ] (t : Table key) (k : κ) : Option ρ :=
  t.rows.find? (fun r => decide (key r = k))

theorem find?_eq_some_iff [DecidableEq κ] (r : ρ) :
    t.find? k = some r ↔ r ∈ t.rows ∧ key r = k := by
  constructor
  · intro h
    exact ⟨mem_of_find?_eq_some h, by simpa using find?_some h⟩
  · rintro ⟨hr, hk⟩
    cases hf : t.find? k with
    | none =>
      have hnone := find?_eq_none.mp hf r hr
      simp [hk] at hnone
    | some s =>
      have hs : s ∈ t.rows := mem_of_find?_eq_some hf
      have hsk : key s = k := by simpa using find?_some hf
      rw [t.eq_of_key_eq hs hr (hsk.trans hk.symm)]

theorem find?_eq_none_iff [DecidableEq κ] : t.find? k = none ↔ ∀ r ∈ t.rows, key r ≠ k := by
  simp [find?]

theorem find?_key [DecidableEq κ] {r : ρ} (hr : r ∈ t.rows) : t.find? (key r) = some r :=
  (t.find?_eq_some_iff _ _).mpr ⟨hr, rfl⟩

theorem flatMap_of_key [DecidableEq κ] {β : Type} (g : ρ → List β) :
    (t.rows.flatMap fun r => if key r = k then g r else []) = (t.find? k).elim [] g := by
  cases hfind : t.find? k with
  | none =>
    refine flatMap_eq_nil_iff.mpr fun r hr => ?_
    exact if_neg ((t.find?_eq_none_iff k).mp hfind r hr)
  | some r =>
    obtain ⟨hr, hk⟩ := (t.find?_eq_some_iff k r).mp hfind
    obtain ⟨before, after, hrows⟩ := append_of_mem hr
    have hnodup := t.keys_nodup
    rw [hrows, map_append, map_cons, nodup_append, nodup_cons] at hnodup
    obtain ⟨-, ⟨hafter, -⟩, hbefore⟩ := hnodup
    have hnone : ∀ l : List ρ, (∀ s ∈ l, key s ≠ k) →
        (l.flatMap fun r => if key r = k then g r else []) = [] :=
      fun l h => flatMap_eq_nil_iff.mpr fun s hs => if_neg (h s hs)
    rw [hrows, flatMap_append, flatMap_cons, if_pos hk, hnone before, hnone after, append_nil]
    · rfl
    · intro s hs heq
      exact hafter (heq.trans hk.symm ▸ mem_map_of_mem hs)
    · intro s hs heq
      exact hbefore (key s) (mem_map_of_mem hs) (key r) mem_cons_self
        (heq.trans hk.symm)

@[simp] theorem find?_empty [DecidableEq κ] : (empty : Table key).find? k = none := rfl

/-! ## Update and delete -/

/-- A setter keeps the key.  Passing the proof through this lemma keeps its type in the form the
    operations below state it in. -/
theorem keyed {f : ρ → ρ} (h : ∀ r, key (f r) = key r) : ∀ r, key (f r) = key r := h

/-- `UPDATE … SET f WHERE p`, for a setter that leaves the key alone. -/
def updateWhere (t : Table key) (p : ρ → Bool) (f : ρ → ρ)
    (hf : ∀ r, key (f r) = key r) : Table key :=
  ⟨t.rows.map (fun r => if p r then f r else r), by
    have hkeys : (t.rows.map (fun r => if p r then f r else r)).map key = t.rows.map key := by
      rw [map_map]
      refine map_congr_left (fun r _ => ?_)
      by_cases hp : p r <;> simp [hp, hf]
    rw [hkeys]
    exact t.keys_nodup⟩

section
variable (hf : ∀ r, key (f r) = key r)
include hf

@[simp] theorem rows_updateWhere :
    (t.updateWhere p f hf).rows = t.rows.map (fun r => if p r then f r else r) := rfl

theorem find?_updateWhere [DecidableEq κ] (k : κ) :
    (t.updateWhere p f hf).find? k = (t.find? k).map (fun r => if p r then f r else r) := by
  cases h : t.find? k with
  | none =>
    rw [find?_eq_none_iff] at h
    rw [Option.map_none, find?_eq_none_iff]
    intro r hr
    rw [rows_updateWhere, mem_map] at hr
    obtain ⟨s, hs, rfl⟩ := hr
    by_cases hp : p s <;> simp [hp, hf, h s hs]
  | some s =>
    rw [find?_eq_some_iff] at h
    refine (find?_eq_some_iff _ _ _).mpr ⟨?_, ?_⟩
    · exact mem_map.mpr ⟨s, h.1, rfl⟩
    · by_cases hp : p s <;> simp [hp, hf, h.2]

theorem rows_updateWhere_ite :
    (if t.rows.any p then t.updateWhere p f hf else t).rows = (t.updateWhere p f hf).rows := by
  split
  · rfl
  · rename_i hnone
    rw [rows_updateWhere]
    have hsame : ∀ r ∈ t.rows, (if p r then f r else r) = r := by
      intro r hr
      rw [if_neg]
      intro hp
      exact hnone (any_eq_true.mpr ⟨r, hr, hp⟩)
    rw [map_congr_left hsame, map_id']

end

/-- One `UPDATE … WHERE key = …` for every row of a previously selected list. -/
def updateEach [DecidableEq κ] (t : Table key) (selected : List ρ) (f : ρ → ρ → ρ)
    (hf : ∀ s r, key (f s r) = key r) : Table key :=
  selected.foldl (fun acc s => acc.updateWhere (fun r => decide (key r = key s)) (f s) (hf s)) t

private theorem rows_updateEach [DecidableEq κ] (selected : List ρ) (f : ρ → ρ → ρ)
    (hf : ∀ s r, key (f s r) = key r) (hnd : (selected.map key).Nodup) (t : Table key) :
    (t.updateEach selected f hf).rows = t.rows.map (fun r =>
      match selected.find? (fun s => decide (key r = key s)) with
      | some s => f s r
      | none => r) := by
  induction selected generalizing t with
  | nil => simp [updateEach]
  | cons s rest ih =>
    rw [map_cons, nodup_cons] at hnd
    have hstep := ih hnd.2 (t.updateWhere (fun r => decide (key r = key s)) (f s) (hf s))
    rw [updateEach, foldl_cons, ← updateEach, hstep, rows_updateWhere, map_map]
    refine map_congr_left (fun r _ => ?_)
    by_cases hk : key r = key s
    · -- the head update hits `r`, and no later one does
      have hrest : rest.find? (fun u => decide (key r = key u)) = none := by
        rw [find?_eq_none]
        intro u hu hku
        apply hnd.1
        exact mem_map.mpr ⟨u, hu, by simpa [hk, eq_comm] using hku⟩
      have hrest' : rest.find? (fun u => decide (key s = key u)) = none := by
        simpa [hk] using hrest
      simp [hk, hf, hrest']
    · simp [hk]

theorem rows_updateEach_of_subset [DecidableEq κ] [DecidableEq ρ]
    (selected : List ρ) (f : ρ → ρ → ρ) (hf : ∀ s r, key (f s r) = key r)
    (hnd : selected.Nodup) (hsub : ∀ s ∈ selected, s ∈ t.rows) :
    (t.updateEach selected f hf).rows =
      t.rows.map (fun r => if r ∈ selected then f r r else r) := by
  have hkeys : (selected.map key).Nodup :=
    hnd.map_on (fun r hr s hs hk => t.eq_of_key_eq (hsub r hr) (hsub s hs) hk)
  rw [rows_updateEach selected f hf hkeys t]
  refine map_congr_left (fun r hr => ?_)
  cases hfind : selected.find? (fun s => decide (key r = key s)) with
  | none =>
    have hnot : r ∉ selected := fun hmem => by
      have := find?_eq_none.mp hfind r hmem
      simp at this
    simp [hnot]
  | some s =>
    have hs : s ∈ selected := mem_of_find?_eq_some hfind
    have hk : key r = key s := by simpa using find?_some hfind
    have hrs : r = s := t.eq_of_key_eq hr (hsub s hs) hk
    simp [hrs, hs]

/-- `DELETE … WHERE p`. -/
def deleteWhere (t : Table key) (p : ρ → Bool) : Table key :=
  ⟨t.rows.filter (fun r => !p r),
    List.Nodup.sublist (List.Sublist.map key filter_sublist) t.keys_nodup⟩

@[simp] theorem rows_deleteWhere : (t.deleteWhere p).rows = t.rows.filter (fun r => !p r) := rfl

theorem find?_deleteWhere [DecidableEq κ] :
    (t.deleteWhere p).find? k = (t.find? k).filter (fun r => !p r) := by
  cases h : t.find? k with
  | none =>
    rw [find?_eq_none_iff] at h
    refine (find?_eq_none_iff _ _).mpr (fun r hr => h r ?_)
    exact (mem_filter.mp hr).1
  | some s =>
    rw [find?_eq_some_iff] at h
    by_cases hp : p s
    · simp only [Option.filter, hp]
      refine (find?_eq_none_iff _ _).mpr (fun r hr hk => ?_)
      have hmem := mem_filter.mp hr
      have hrs : r = s := t.eq_of_key_eq hmem.1 h.1 (hk.trans h.2.symm)
      simp [hrs, hp] at hmem
    · simp only [Option.filter, hp]
      exact (find?_eq_some_iff _ _ _).mpr ⟨mem_filter.mpr ⟨h.1, by simp [hp]⟩, h.2⟩

/-! ## Insert and upsert -/

/-- `INSERT`, skipped when the key is already taken. -/
def insert [DecidableEq κ] (t : Table key) (r : ρ) : Table key :=
  if h : (t.find? (key r)).isSome then t
  else ⟨t.rows ++ [r], by
    have hnone : t.find? (key r) = none := by simpa using h
    rw [find?_eq_none_iff] at hnone
    rw [map_append, nodup_append]
    refine ⟨t.keys_nodup, by simp, ?_⟩
    intro a ha b hb
    obtain ⟨s, hs, rfl⟩ := mem_map.mp ha
    simp only [map_cons, map_nil, mem_singleton] at hb
    subst hb
    exact hnone s hs⟩

theorem rows_insert_of_new [DecidableEq κ]
    (h : t.find? (key r) = none) : (t.insert r).rows = t.rows ++ [r] := by
  simp [insert, h]

theorem mem_insert [DecidableEq κ] {t : Table key} {r s : ρ} (h : s ∈ (t.insert r).rows) :
    s ∈ t.rows ∨ s = r := by
  unfold insert at h
  split at h
  · exact .inl h
  · simpa using h

theorem find?_insert_of_new [DecidableEq κ] (h : t.find? (key r) = none) :
    (t.insert r).find? k = if key r = k then some r else t.find? k := by
  simp only [find?, rows_insert_of_new t r h]
  by_cases hk : key r = k
  · subst hk
    have : t.rows.find? (fun s => decide (key s = key r)) = none := h
    simp [this]
  · simp [hk]

theorem find?_insert [DecidableEq κ] :
    (t.insert r).find? k = if key r = k then some ((t.find? k).getD r) else t.find? k := by
  cases h : t.find? (key r) with
  | none =>
    rw [find?_insert_of_new t r k h]
    by_cases hk : key r = k
    · subst hk
      simp [h]
    · simp [hk]
  | some s =>
    have hsame : t.insert r = t := by simp [insert, h]
    rw [hsame]
    by_cases hk : key r = k
    · subst hk
      simp [h]
    · simp [hk]

/-- `INSERT … ON CONFLICT (key) DO UPDATE SET f`. -/
def upsert [DecidableEq κ] (t : Table key) (r : ρ) (f : ρ → ρ)
    (hf : ∀ s, key (f s) = key s) : Table key :=
  if (t.find? (key r)).isSome then t.updateWhere (fun s => decide (key s = key r)) f hf
  else t.insert r

theorem find?_upsert [DecidableEq κ] (f : ρ → ρ) (hf : ∀ s, key (f s) = key s) (k : κ) :
    (t.upsert r f hf).find? k =
      if key r = k then some (((t.find? k).map f).getD r) else t.find? k := by
  unfold upsert
  cases h : t.find? (key r) with
  | none =>
    simp only [Option.isSome_none, Bool.false_eq_true, if_false]
    rw [find?_insert_of_new t r k h]
    by_cases hk : key r = k
    · subst hk
      simp [h]
    · simp [hk]
  | some s =>
    simp only [Option.isSome_some, if_true]
    rw [find?_updateWhere]
    by_cases hk : key r = k
    · subst hk
      have hs : key s = key r := ((find?_eq_some_iff _ _ _).mp h).2
      simp [h, hs]
    · cases hf' : t.find? k with
      | none => simp [hk]
      | some u =>
        have hu : key u = k := ((find?_eq_some_iff _ _ _).mp hf').2
        have hne : ¬ key u = key r := fun he => hk (he.symm.trans hu)
        simp [hk, hne]

/-- `map.set(key, r)`: in place of the row of that key, or behind the others. -/
def set [DecidableEq κ] (t : Table key) (r : ρ) : Table key :=
  t.upsert r (fun s => if key s = key r then r else s) fun s => by
    split
    · rename_i h
      exact h.symm
    · rfl

theorem find?_set [DecidableEq κ] :
    (t.set r).find? k = if key r = k then some r else t.find? k := by
  unfold set
  rw [find?_upsert]
  by_cases hk : key r = k
  · cases hfind : t.find? k with
    | none => simp
    | some s =>
      have hs : key s = k := ((find?_eq_some_iff _ _ _).mp hfind).2
      simp [hk, hs]
  · simp [hk]

theorem mem_set [DecidableEq κ] {t : Table key} {r s : ρ} :
    s ∈ (t.set r).rows ↔ s = r ∨ s ∈ t.rows ∧ key r ≠ key s := by
  have hfind (u : Table key) : s ∈ u.rows ↔ u.find? (key s) = some s := by
    rw [find?_eq_some_iff]
    simp
  rw [hfind, find?_set, hfind t]
  by_cases hk : key r = key s
  · simp [hk, eq_comm]
  · have hne : s ≠ r := fun h => hk (h ▸ rfl)
    simp [hk, hne]

def setAll [DecidableEq κ] (t : Table key) (rows : List ρ) : Table key :=
  rows.foldl set t

theorem mem_setAll [DecidableEq κ] {t : Table key} {rows : List ρ} {s : ρ}
    (h : ∀ r ∈ rows, ∀ r' ∈ t.rows ++ rows, key r = key r' → r = r') :
    s ∈ (t.setAll rows).rows ↔ s ∈ t.rows ∨ s ∈ rows := by
  induction rows generalizing t with
  | nil => simp [setAll]
  | cons r rows ih =>
    have hset : ∀ r' ∈ (t.set r).rows, r' = r ∨ r' ∈ t.rows := fun r' hr' =>
      (mem_set.mp hr').imp_right And.left
    rw [setAll, foldl_cons, ← setAll, ih]
    · rw [mem_set, mem_cons, or_assoc]
      constructor
      · rintro (hs | ⟨hs, -⟩ | hs)
        · exact .inr (.inl hs)
        · exact .inl hs
        · exact .inr (.inr hs)
      · rintro (hs | hs | hs)
        · by_cases hkey : key r = key s
          · -- the row it would replace is the same row
            exact .inl (h r mem_cons_self s (mem_append_left _ hs) hkey).symm
          · exact .inr (.inl ⟨hs, hkey⟩)
        · exact .inl hs
        · exact .inr (.inr hs)
    · intro a ha b hb hkey
      refine h a (mem_cons_of_mem r ha) b ?_ hkey
      rcases mem_append.mp hb with hb | hb
      · rcases hset b hb with rfl | hb
        · exact mem_append_right _ mem_cons_self
        · exact mem_append_left _ hb
      · exact mem_append_right _ (mem_cons_of_mem r hb)

end Table

end RelayIde.Library
