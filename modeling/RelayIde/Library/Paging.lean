import RelayIde.Library.Ranked

/-!
# Paging

A list handed out page by page.  A page is cut from a window at the front of what is left, twice:
after a number of items and within a budget of weight.  Whether there is more is judged by the
window, which looks ahead by one item or does not.

- `walk_exact_iff` — without one, exactly when the budget cuts before the window does
-/

namespace RelayIde.Library

open List

variable {α : Type} (weight : α → ℕ) (budget : ℕ)

/-! ## Pages -/

/-- The page at the front of a list, seen through a window, and whether more is announced. -/
def firstPage (limit window : ℕ) (l : List α) : List α × Bool :=
  let seen := l.take window
  let cut := takeWithin weight budget true 0 (seen.take limit)
  (cut.kept, cut.truncated || decide (limit < seen.length))

/-- The pages of a list, up to the first that announces no more. -/
def walk (limit window : ℕ) : ℕ → List α → Option (List (List α))
  | 0, _ => none
  | fuel + 1, l =>
    let page := firstPage weight budget limit window l
    if page.2 then (walk limit window fuel (l.drop page.1.length)).map (page.1 :: ·)
    else some [page.1]

variable {weight budget}

theorem takeWithin_take (weight : α → ℕ) (budget : ℕ) (keepOne : Bool) (bytes n : ℕ) (l : List α) :
    (takeWithin weight budget keepOne bytes (l.take n)).kept =
        (takeWithin weight budget keepOne bytes l).kept.take n ∧
      ((takeWithin weight budget keepOne bytes (l.take n)).truncated = true ↔
        (takeWithin weight budget keepOne bytes l).truncated = true ∧
          (takeWithin weight budget keepOne bytes l).kept.length < n) := by
  induction l generalizing n keepOne bytes with
  | nil => simp [takeWithin]
  | cons a l ih =>
    cases n with
    | zero => simp [takeWithin]
    | succ n =>
      rw [take_succ_cons, takeWithin, takeWithin]
      split
      · simp
      · obtain ⟨hkept, htruncated⟩ := ih false (bytes + weight a) n
        simp [hkept, htruncated]

variable (keepOne : Bool) (bytes : ℕ) (l : List α)

theorem kept_front : (takeWithin weight budget keepOne bytes l).kept <+: l := by
  obtain ⟨rest, hl, -⟩ := takeWithin_spec weight budget keepOne bytes l
  exact ⟨rest, hl.symm⟩

theorem kept_eq_self_iff :
    (takeWithin weight budget keepOne bytes l).truncated = false ↔
      (takeWithin weight budget keepOne bytes l).kept = l := by
  obtain ⟨rest, hl, -, htruncated, -⟩ := takeWithin_spec weight budget keepOne bytes l
  rw [← Bool.not_eq_true, htruncated, not_not]
  constructor
  · rintro rfl
    rw [append_nil] at hl
    exact hl.symm
  · intro hkept
    rw [hkept] at hl
    exact append_right_eq_self.mp hl.symm

theorem firstPage_front (weight : α → ℕ) (budget limit window : ℕ) (l : List α) :
    (firstPage weight budget limit window l).1 <+: l :=
  (kept_front true 0 _).trans (( take_prefix _ _).trans ( take_prefix _ _))

variable {limit window : ℕ}

variable {l : List α} {fuel : ℕ} {pages : List (List α)}

theorem firstPage_ne_nil (hlimit : 0 < limit)
    (h : (firstPage weight budget limit window l).2 = true) :
    (firstPage weight budget limit window l).1 ≠ [] := by
  apply kept_takeWithin_ne_nil
  intro hnil
  unfold firstPage at h
  rw [take_eq_nil_iff] at hnil
  rcases hnil with hzero | hnil
  · omega
  · simp [hnil, takeWithin] at h

theorem firstPage_of_last (h : (firstPage weight budget limit window l).2 = false) :
    (firstPage weight budget limit window l).1 = l.take window ∧
      (l.take window).length ≤ limit := by
  unfold firstPage at h ⊢
  simp only at h ⊢
  rw [Bool.or_eq_false_iff, decide_eq_false_iff_not, not_lt] at h
  obtain ⟨hcut, hshort⟩ := h
  rw [kept_eq_self_iff] at hcut
  rw [hcut, take_of_length_le hshort]
  exact ⟨rfl, hshort⟩

/-- **Termination**: the walk ends after at most as many pages as there are items, and one. -/
theorem walk_eq_some (weight : α → ℕ) (budget window : ℕ) (hlimit : 0 < limit)
    (h : l.length < fuel) :
    ∃ pages, walk weight budget limit window fuel l = some pages := by
  induction fuel generalizing l with
  | zero => omega
  | succ fuel ih =>
    rw [walk]
    split
    · next hmore =>
      have hne := length_pos_iff.mpr (firstPage_ne_nil hlimit hmore)
      have hle := (firstPage_front weight budget limit window l).length_le
      obtain ⟨pages, hpages⟩ := ih (l := l.drop
        (firstPage weight budget limit window l).1.length) (by rw [length_drop]; omega)
      exact ⟨_, by rw [hpages]; rfl⟩
    · exact ⟨_, rfl⟩

/-! ## What is handed out -/

theorem walk_exact_of_lookahead (hwindow : limit < window)
    (h : walk weight budget limit window fuel l = some pages) :
    pages.flatten = l := by
  induction fuel generalizing l pages with
  | zero => cases h
  | succ fuel ih =>
    rw [walk] at h
    split at h
    · obtain ⟨rest, hrest, rfl⟩ := Option.map_eq_some_iff.mp h
      rw [flatten_cons, ih hrest]
      exact (prefix_append_drop (firstPage_front weight budget limit window l)).symm
    · next hlast =>
      obtain rfl := Option.some.inj h
      obtain ⟨hpage, hshort⟩ := firstPage_of_last (Bool.eq_false_iff.mpr hlast)
      rw [flatten_singleton, hpage]
      apply take_of_length_le
      rw [length_take] at hshort
      omega

/-- A list split by the budget alone: as many items as it allows, and one at least. -/
def byteGroups (weight : α → ℕ) (budget : ℕ) : List α → List (List α)
  | [] => []
  | a :: l =>
    let kept := (takeWithin weight budget true 0 (a :: l)).kept
    kept :: byteGroups weight budget ((a :: l).drop kept.length)
termination_by l => l.length
decreasing_by
  have hne := length_pos_iff.mpr
    (kept_takeWithin_ne_nil weight budget 0 (cons_ne_nil a l))
  rw [length_drop]
  simp only [length_cons] at *
  omega

/-- Every group but the last is shorter than `n`, and the last is not longer. -/
def GroupsFit (n : ℕ) : List (List α) → Prop
  | [] => True
  | [group] => group.length ≤ n
  | group :: next :: groups => group.length < n ∧ GroupsFit n (next :: groups)

theorem byteGroups_of_ne_nil (h : l ≠ []) :
    byteGroups weight budget l =
      (takeWithin weight budget true 0 l).kept ::
        byteGroups weight budget (l.drop (takeWithin weight budget true 0 l).kept.length) := by
  cases l with
  | nil => exact absurd rfl h
  | cons a l => rw [byteGroups]

theorem byteGroups_ne_nil (weight : α → ℕ) (budget : ℕ) (h : l ≠ []) :
    byteGroups weight budget l ≠ [] := by
  rw [byteGroups_of_ne_nil h]
  exact cons_ne_nil _ _

theorem byteGroups_of_le (hne : l ≠ []) (h : (l.map weight).sum ≤ budget) :
    byteGroups weight budget l = [l] := by
  have hwhole : (takeWithin weight budget true 0 l).kept = l :=
    (kept_eq_self_iff true 0 l).mp (truncated_takeWithin_of_le weight true (by omega))
  rw [byteGroups_of_ne_nil hne, hwhole, drop_length, byteGroups]

theorem firstPage_of_window_le (weight : α → ℕ) (budget : ℕ) (hwindow : window ≤ limit)
    (l : List α) :
    (firstPage weight budget limit window l).1 =
        (takeWithin weight budget true 0 l).kept.take window ∧
      ((firstPage weight budget limit window l).2 = true ↔
        (takeWithin weight budget true 0 l).truncated = true ∧
          (takeWithin weight budget true 0 l).kept.length < window) := by
  have hseen : (l.take window).take limit = l.take window :=
    take_of_length_le ((length_take_le _ _).trans hwindow)
  have hnot : ¬ limit < (l.take window).length :=
    not_lt.mpr ((length_take_le _ _).trans hwindow)
  obtain ⟨hkept, htruncated⟩ := takeWithin_take weight budget true 0 window l
  unfold firstPage
  simp only [hseen, hkept, hnot, decide_false, Bool.or_false, htruncated, and_self]

/-- **Exactness**: without a look ahead the pages put together are the list exactly when the
    budget alone splits it into groups that fit the window. -/
theorem walk_exact_iff (hwindow : window ≤ limit)
    (h : walk weight budget limit window fuel l = some pages) :
    pages.flatten = l ↔ GroupsFit window (byteGroups weight budget l) := by
  induction fuel generalizing l pages with
  | zero => cases h
  | succ fuel ih =>
    obtain ⟨hpage, hmore⟩ := firstPage_of_window_le weight budget hwindow l
    obtain ⟨rest, hl, -, htruncated, -⟩ := takeWithin_spec weight budget true 0 l
    set group := (takeWithin weight budget true 0 l).kept with hgroup
    have hdrop : l.drop group.length = rest := by
      rw [hl, drop_left]
    rw [walk] at h
    split at h
    · next hyes =>
      -- the budget cut first: the page is the group
      obtain ⟨hcut, hlt⟩ := hmore.mp hyes
      rw [take_of_length_le hlt.le] at hpage
      obtain ⟨more, hrest, rfl⟩ := Option.map_eq_some_iff.mp h
      rw [hpage, hdrop] at hrest
      have hne : rest ≠ [] := htruncated.mp hcut
      have hlne : l ≠ [] := by
        rw [hl]
        exact append_ne_nil_of_right_ne_nil _ hne
      rw [byteGroups_of_ne_nil hlne, hdrop]
      obtain ⟨next, groups, hgroups⟩ :=
        exists_cons_of_ne_nil (byteGroups_ne_nil weight budget hne)
      rw [hgroups, GroupsFit, ← hgroups, ← ih hrest, flatten_cons, hpage, and_iff_right hlt]
      conv_lhs => rw [hl]
      rw [append_cancel_left_eq]
    · next hno =>
      obtain rfl := Option.some.inj h
      obtain ⟨hall, -⟩ := firstPage_of_last (Bool.eq_false_iff.mpr hno)
      rw [flatten_singleton, hall, take_eq_self_iff]
      by_cases hnil : l = []
      · rw [hnil, byteGroups]
        exact iff_of_true (Nat.zero_le _) trivial
      · rw [byteGroups_of_ne_nil hnil, ← hgroup, hdrop]
        by_cases hcut : rest = []
        · rw [hcut, append_nil] at hl
          rw [hcut, byteGroups, GroupsFit, ← hl]
        · -- the window cut first: rows are left behind
          have hlong : window ≤ group.length := by
            by_contra hlt
            exact hno (hmore.mpr ⟨htruncated.mpr hcut, by omega⟩)
          obtain ⟨next, groups, hgroups⟩ := exists_cons_of_ne_nil
            (byteGroups_ne_nil weight budget hcut)
          rw [hgroups]
          refine iff_of_false ?_ (fun h => absurd h.1 (by omega))
          have hpos := length_pos_iff.mpr hcut
          have hlength := congrArg List.length hl
          rw [length_append] at hlength
          omega

end RelayIde.Library
