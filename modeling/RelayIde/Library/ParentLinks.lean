import Mathlib.Data.List.Nodup
import Mathlib.Logic.Relation
import Mathlib.Tactic.Ring

/-!
# Parent Links

Entries that name their parents, searched downwards from a root.  The links may form any graph, and
several entries may have one key.

- `walk_spec` — it ends within as many rounds as there are entries, and finds what descends from
  the root
-/

namespace RelayIde.Library.ParentLinks

open List

variable {ρ κ : Type} [DecidableEq κ] (key parent : ρ → κ) (table : List ρ)

/-- The entries below a key. -/
def children (k : κ) : List ρ :=
  table.filter fun r => decide (parent r = k)

/-- An entry of the second key names the first as its parent. -/
def Links (k k' : κ) : Prop :=
  ∃ r ∈ table, parent r = k ∧ key r = k'

/-- A child or a child's descendant. -/
abbrev Descends : κ → κ → Prop := Relation.TransGen (Links key parent table)

/-- The search: `none` where the rounds run out. -/
def walk : ℕ → List κ → List ρ → List ρ → Option (List ρ)
  | _, _, [], found => some found
  | 0, _, _ :: _, _ => none
  | fuel + 1, seen, r :: queue, found =>
    if key r ∈ seen then walk fuel seen queue found
    else walk fuel (key r :: seen) (queue ++ children parent table (key r)) (found ++ [r])

variable {key parent table}

variable {r : ρ} {seen : List κ} {root : κ}

theorem mem_children {k : κ} : r ∈ children parent table k ↔ r ∈ table ∧ parent r = k := by
  simp [children]

/-- How many entries hang below keys not seen yet. -/
def unseen (parent : ρ → κ) (table : List ρ) (seen : List κ) : ℕ :=
  (table.filter fun r => decide (parent r ∉ seen)).length

theorem unseen_cons (parent : ρ → κ) (table : List ρ) {k : κ} (hnew : k ∉ seen) :
    (children parent table k).length + unseen parent table (k :: seen) =
      unseen parent table seen := by
  unfold children unseen
  simp only [mem_cons, not_or]
  induction table with
  | nil => rfl
  | cons r table ih =>
    simp only [filter_cons, decide_eq_true_eq]
    by_cases hk : parent r = k
    · subst hk
      simp only [hnew, not_true_eq_false, false_and, if_true, if_false, not_false_eq_true,
        length_cons]
      omega
    · by_cases hseen : parent r ∈ seen
      · simpa [hk, hseen] using ih
      · simp only [hk, hseen, not_false_eq_true, and_self, if_true, if_false, length_cons]
        omega

/-- What is known between two rounds. -/
structure Searched (key parent : ρ → κ) (table : List ρ) (root : κ) (seen : List κ)
    (queue found : List ρ) : Prop where
  nodup : (found.map key).Nodup
  seen_iff : ∀ k, k ∈ seen ↔ k = root ∨ k ∈ found.map key
  fresh : root ∉ found.map key
  entries : ∀ r ∈ found, r ∈ table
  /-- Everything in sight descends from the root. -/
  descends : ∀ r ∈ found ++ queue, Descends key parent table root (key r)
  queued : ∀ r ∈ queue, r ∈ table
  /-- What hangs below a seen key is seen or waits. -/
  frontier : ∀ k ∈ seen, ∀ r ∈ children parent table k, key r ∈ seen ∨ r ∈ queue

theorem searched_start (key parent : ρ → κ) (table : List ρ) (root : κ) :
    Searched key parent table root [root] (children parent table root) [] where
  nodup := nodup_nil
  seen_iff := by simp
  fresh := not_mem_nil
  entries := fun _ h => absurd h not_mem_nil
  descends := fun r hr =>
    Relation.TransGen.single ⟨r, (mem_children.mp hr).1, (mem_children.mp hr).2, rfl⟩
  queued := fun _ hr => (mem_children.mp hr).1
  frontier := fun k hk r hr => .inr (mem_singleton.mp hk ▸ hr)

variable {queue found : List ρ}

theorem Searched.skip
    (h : Searched key parent table root seen (r :: queue) found) (hseen : key r ∈ seen) :
    Searched key parent table root seen queue found where
  nodup := h.nodup
  seen_iff := h.seen_iff
  fresh := h.fresh
  entries := h.entries
  descends := fun r' hr' => h.descends r' <| by
    rcases mem_append.mp hr' with hr' | hr'
    · exact mem_append_left _ hr'
    · exact mem_append_right _ (mem_cons_of_mem _ hr')
  queued := fun r' hr' => h.queued r' (mem_cons_of_mem _ hr')
  frontier := fun k hk r' hr' => by
    rcases h.frontier k hk r' hr' with hr' | hr'
    · exact .inl hr'
    · rcases mem_cons.mp hr' with rfl | hr'
      · exact .inl hseen
      · exact .inr hr'

theorem Searched.find
    (h : Searched key parent table root seen (r :: queue) found) (hnew : key r ∉ seen) :
    Searched key parent table root (key r :: seen) (queue ++ children parent table (key r))
      (found ++ [r]) := by
  have hdescends := h.descends r (by simp)
  have hnot := mt (h.seen_iff (key r)).mpr hnew
  rw [not_or] at hnot
  refine ⟨?_, fun k => ?_, ?_, fun r' hr' => ?_, fun r' hr' => ?_, fun r' hr' => ?_,
    fun k hk r' hr' => ?_⟩
  · rw [map_append, nodup_append]
    refine ⟨h.nodup, nodup_singleton _, fun a ha b hb => ?_⟩
    rw [mem_singleton.mp hb]
    exact fun heq => hnot.2 (heq ▸ ha)
  · rw [mem_cons, h.seen_iff, map_append, mem_append, map_singleton, mem_singleton]
    tauto
  · rw [map_append, mem_append, map_singleton, mem_singleton, not_or]
    exact ⟨h.fresh, Ne.symm hnot.1⟩
  · rcases mem_append.mp hr' with hr' | hr'
    · exact h.entries r' hr'
    · exact mem_singleton.mp hr' ▸ h.queued r mem_cons_self
  · rcases mem_append.mp hr' with hr' | hr'
    · rcases mem_append.mp hr' with hr' | hr'
      · exact h.descends r' (mem_append_left _ hr')
      · exact mem_singleton.mp hr' ▸ hdescends
    · rcases mem_append.mp hr' with hr' | hr'
      · exact h.descends r' (by simp [hr'])
      · -- a child of what was found
        obtain ⟨hmem, hparent⟩ := mem_children.mp hr'
        exact hdescends.tail ⟨r', hmem, hparent, rfl⟩
  · rcases mem_append.mp hr' with hr' | hr'
    · exact h.queued r' (mem_cons_of_mem _ hr')
    · exact (mem_children.mp hr').1
  · rcases mem_cons.mp hk with rfl | hk
    · exact .inr (mem_append_right _ hr')
    · rcases h.frontier k hk r' hr' with hr' | hr'
      · exact .inl (mem_cons_of_mem _ hr')
      · rcases mem_cons.mp hr' with rfl | hr'
        · exact .inl mem_cons_self
        · exact .inr (mem_append_left _ hr')

theorem searched_walk (fuel : ℕ) {queue found : List ρ}
    (h : Searched key parent table root seen queue found)
    (hfuel : queue.length + unseen parent table seen ≤ fuel) :
    ∃ seen' found', walk key parent table fuel seen queue found = some found' ∧
      Searched key parent table root seen' [] found' := by
  induction fuel generalizing seen queue found with
  | zero =>
    obtain rfl : queue = [] := length_eq_zero_iff.mp (by omega)
    exact ⟨seen, found, rfl, h⟩
  | succ fuel ih =>
    cases queue with
    | nil => exact ⟨seen, found, rfl, h⟩
    | cons r queue =>
      unfold walk
      rw [length_cons] at hfuel
      split_ifs with hseen
      · exact ih (h.skip hseen) (by omega)
      · refine ih (h.find hseen) ?_
        have hcount := unseen_cons parent table hseen
        rw [length_append]
        omega

theorem walk_spec (key parent : ρ → κ) (table : List ρ) (root : κ) {fuel : ℕ}
    (hfuel : table.length ≤ fuel) :
    ∃ found, walk key parent table fuel [root] (children parent table root) [] = some found ∧
      (found.map key).Nodup ∧ (∀ r ∈ found, r ∈ table) ∧
      ∀ k, k ∈ found.map key ↔ k ≠ root ∧ Descends key parent table root k := by
  have hcount := unseen_cons parent table (not_mem_nil (a := root))
  have hall : unseen parent table [] = table.length := by
    unfold unseen
    rw [filter_eq_self.mpr fun r _ => by simp]
  obtain ⟨seen, found, hwalk, h⟩ :=
    searched_walk fuel (searched_start key parent table root) (by omega)
  refine ⟨found, hwalk, h.nodup, h.entries, fun k => ⟨fun hk => ⟨?_, ?_⟩, fun ⟨hne, hk⟩ => ?_⟩⟩
  · rintro rfl
    exact h.fresh hk
  · obtain ⟨r, hr, rfl⟩ := mem_map.mp hk
    exact h.descends r (mem_append_left _ hr)
  · have hseen : ∀ k, Descends key parent table root k → k ∈ seen := by
      have hstep {k k' : κ} (hk : k ∈ seen) (hlinks : Links key parent table k k') : k' ∈ seen := by
        obtain ⟨r, hr, hparent, rfl⟩ := hlinks
        exact (h.frontier k hk r (mem_children.mpr ⟨hr, hparent⟩)).resolve_right not_mem_nil
      intro k hk
      induction hk with
      | single hlinks => exact hstep ((h.seen_iff root).mpr (.inl rfl)) hlinks
      | tail _ hlinks ih => exact hstep ih hlinks
    exact ((h.seen_iff k).mp (hseen k hk)).resolve_left hne

end RelayIde.Library.ParentLinks
