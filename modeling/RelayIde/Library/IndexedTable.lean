import RelayIde.Library.Table

/-!
# Tables with a Partial Unique Index

A keyed table together with a partial index: `indexed` gives the rows under the index their
index value, and no two rows share one.  A statement that would break either constraint is
refused and leaves the table alone, as a row store does it.

- `retire` — `UPDATE … WHERE p` that takes rows out of the index
-/

open List

namespace RelayIde.Library

/-- Which constraint a statement would have broken. -/
inductive Violation
  | key | index

/-- No index value is shared by two rows. -/
def UniqueIndex {ρ κ ι : Type} (key : ρ → κ) (indexed : ρ → Option ι) (rows : List ρ) : Prop :=
  ∀ r ∈ rows, ∀ r' ∈ rows, (indexed r).isSome → indexed r = indexed r' → key r = key r'

instance {ρ κ ι : Type} [DecidableEq κ] [DecidableEq ι] (key : ρ → κ) (indexed : ρ → Option ι)
    (rows : List ρ) : Decidable (UniqueIndex key indexed rows) :=
  inferInstanceAs (Decidable (∀ r ∈ rows, ∀ r' ∈ rows, _ → _ → _))

structure IndexedTable {ρ κ ι : Type} (key : ρ → κ) (indexed : ρ → Option ι) extends
    Table key where
  unique : UniqueIndex key indexed rows

namespace IndexedTable

variable {ρ κ ι : Type} {key : ρ → κ} {indexed : ρ → Option ι}

/-- The table without rows. -/
def empty : IndexedTable key indexed := ⟨Table.empty, fun r hr => by simp at hr⟩

variable (t : IndexedTable key indexed)

theorem eq_of_indexed {r r' : ρ} {i : ι} (hr : r ∈ t.rows)
    (hr' : r' ∈ t.rows) (hi : indexed r = some i) (hi' : indexed r' = some i) : r = r' := by
  apply t.eq_of_key_eq hr hr'
  apply t.unique r hr r' hr'
  · rw [hi]
    rfl
  · rw [hi, hi']

variable [DecidableEq κ]

/-- `DELETE … WHERE key = k`. -/
def delete (t : IndexedTable key indexed) (k : κ) : IndexedTable key indexed :=
  ⟨t.deleteWhere fun r => decide (key r = k), fun r hr r' hr' =>
    t.unique r (mem_of_mem_filter hr) r' (mem_of_mem_filter hr')⟩

theorem find?_delete (k k' : κ) : (t.delete k).find? k' = if k = k' then none else t.find? k' := by
  unfold delete
  rw [Table.find?_deleteWhere]
  cases hfind : t.find? k' with
  | none => simp
  | some r =>
    have hr : key r = k' := ((t.find?_eq_some_iff _ _).mp hfind).2
    by_cases hk : k = k'
    · simp [hk, hr]
    · simp [hk, hr, Ne.symm hk]

/-- `DELETE … WHERE p`. -/
def remove (t : IndexedTable key indexed) (p : ρ → Bool) : IndexedTable key indexed :=
  ⟨t.deleteWhere p, fun r hr r' hr' =>
    t.unique r (mem_of_mem_filter hr) r' (mem_of_mem_filter hr')⟩

variable (p : ρ → Bool)

theorem find?_remove (k : κ) :
    (t.remove p).find? k = (t.find? k).filter fun r => !p r :=
  t.toTable.find?_deleteWhere p k

/-- `UPDATE … SET f WHERE p`, for a setter that takes rows out of the index. -/
def retire (t : IndexedTable key indexed) (p : ρ → Bool) (f : ρ → ρ)
    (hf : ∀ r, key (f r) = key r) (hout : ∀ r, indexed (f r) = none) :
    IndexedTable key indexed :=
  ⟨t.updateWhere p f hf, fun s hs s' hs' hsome heq => by
    rw [Table.rows_updateWhere, mem_map] at hs hs'
    obtain ⟨r, hr, rfl⟩ := hs
    obtain ⟨r', hr', rfl⟩ := hs'
    -- a row that was set is out of the index, so neither of the two is
    by_cases hp : p r
    · simp [hp, hout] at hsome
    · rw [if_neg hp] at hsome heq ⊢
      by_cases hp' : p r'
      · rw [heq, if_pos hp', hout] at hsome
        simp at hsome
      · rw [if_neg hp'] at heq ⊢
        exact t.unique r hr r' hr' hsome heq⟩

theorem find?_retire (f : ρ → ρ)
    (hf : ∀ r, key (f r) = key r) (hout : ∀ r, indexed (f r) = none) (k : κ) :
    (t.retire p f hf hout).find? k = (t.find? k).map fun r => if p r then f r else r :=
  t.find?_updateWhere p f hf k

variable [DecidableEq ι]

/-- A changed table, unless it breaks the index. -/
def commit (t : Table key) : Except Violation (IndexedTable key indexed) :=
  if h : UniqueIndex key indexed t.rows then .ok ⟨t, h⟩ else .error .index

def insert (t : IndexedTable key indexed) (r : ρ) : Except Violation (IndexedTable key indexed) :=
  if (t.find? (key r)).isSome then .error .key else commit (t.toTable.insert r)

/-- `UPDATE … SET f WHERE key = k`. -/
def update (t : IndexedTable key indexed) (k : κ) (f : ρ → ρ) (hf : ∀ r, key (f r) = key r) :
    Except Violation (IndexedTable key indexed) :=
  commit (t.updateWhere (fun r => decide (key r = k)) f hf)

theorem commit_eq_ok {t : Table key} {u : IndexedTable key indexed} (h : commit t = .ok u) :
    u.toTable = t := by
  unfold commit at h
  split at h
  · cases h
    rfl
  · cases h

variable {t u : IndexedTable key indexed}

theorem find?_insert {r : ρ} (h : t.insert r = .ok u) (k : κ) :
    t.find? (key r) = none ∧ u.find? k = if key r = k then some r else t.find? k := by
  unfold insert at h
  split at h
  · cases h
  · rename_i hnew
    rw [Option.isSome_iff_ne_none, not_not] at hnew
    refine ⟨hnew, ?_⟩
    rw [commit_eq_ok h, Table.find?_insert_of_new _ _ _ hnew]

theorem find?_update {k : κ} {f : ρ → ρ}
    {hf : ∀ r, key (f r) = key r} (h : t.update k f hf = .ok u) (k' : κ) :
    u.find? k' = if k = k' then (t.find? k).map f else t.find? k' := by
  rw [commit_eq_ok h, Table.find?_updateWhere]
  cases hfind : t.find? k' with
  | none =>
    by_cases hk : k = k'
    · simp [hk, hfind]
    · simp [hk]
  | some r =>
    have hr : key r = k' := ((t.find?_eq_some_iff _ _).mp hfind).2
    by_cases hk : k = k'
    · simp [hk, hr, hfind]
    · simp [hk, hr, Ne.symm hk]

end IndexedTable

end RelayIde.Library
