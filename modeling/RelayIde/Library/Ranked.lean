import Mathlib

/-!
# Ranked Lists

A list whose elements carry strictly ascending ranks, such as the rows of a log by sequence
number.  A window of such a list is described by the half-open interval of ranks it spans, so
that gaps are statements about ranks and not about positions.

- `mem_suffix_iff` — membership in a bounded suffix, by what it weighs
-/

namespace RelayIde.Library

open List

variable {α : Type} {rank : α → ℕ}

/-- The elements carry strictly ascending ranks. -/
def Ranked (rank : α → ℕ) (l : List α) : Prop :=
  l.Pairwise (fun a b => rank a < rank b)

/-- The ranks of the elements are exactly `lo + 1, …, hi`. -/
def Spans (rank : α → ℕ) (lo hi : ℕ) (l : List α) : Prop :=
  ∀ q, (∃ a ∈ l, rank a = q) ↔ lo < q ∧ q ≤ hi

/-! ## Ranked lists -/

@[simp] theorem ranked_nil : Ranked rank [] := List.Pairwise.nil

variable {l : List α} {a : α} {lo hi : ℕ}

section
variable (h : Ranked rank l)
include h

theorem Ranked.sublist {l' : List α} (hs : l'.Sublist l) : Ranked rank l' :=
  List.Pairwise.sublist hs h

theorem Ranked.filter (p : α → Bool) : Ranked rank (l.filter p) :=
  h.sublist filter_sublist

theorem Ranked.eq_of_rank_eq {b : α} (ha : a ∈ l) (hb : b ∈ l) (hab : rank a = rank b) : a = b := by
  induction l with
  | nil => exact absurd ha not_mem_nil
  | cons c l ih =>
    have htail : Ranked rank l := h.sublist (sublist_cons_self c l)
    have hhead : ∀ x ∈ l, rank c < rank x := fun x hx => rel_of_pairwise_cons h hx
    rcases mem_cons.mp ha with hac | hal <;> rcases mem_cons.mp hb with hbc | hbl
    · rw [hac, hbc]
    · exact absurd hab (hac ▸ hhead b hbl).ne
    · exact absurd hab (hbc ▸ hhead a hal).ne'
    · exact ih htail hal hbl

theorem Ranked.nodup : l.Nodup := by
  refine List.Pairwise.imp (fun {a b} (hlt : rank a < rank b) heq => ?_) h
  rw [heq] at hlt
  exact lt_irrefl _ hlt

theorem Ranked.eq_of_mem_iff {l' : List α} (h' : Ranked rank l')
    (hiff : ∀ a, a ∈ l ↔ a ∈ l') : l = l' := by
  have hperm : l.Perm l' := by
    rw [perm_ext_iff_of_nodup]
    · exact hiff
    · exact h.nodup
    · exact h'.nodup
  refine hperm.eq_of_pairwise (fun a b _ _ hab hba => ?_) h h'
  exact absurd hab (Nat.lt_asymm hba)

end

theorem Ranked.lt_of_append {p s : List α} (h : Ranked rank (p ++ s)) {b : α} (ha : a ∈ p)
    (hb : b ∈ s) : rank a < rank b :=
  (pairwise_append.mp h).2.2 a ha b hb

theorem Ranked.head?_le (h : Ranked rank l) {first : α} (hfirst : first ∈ l.head?)
    (ha : a ∈ l) : rank first ≤ rank a := by
  cases l with
  | nil => exact absurd ha not_mem_nil
  | cons b l =>
    obtain rfl : b = first := Option.some.inj hfirst
    rcases mem_cons.mp ha with rfl | ha
    · exact le_rfl
    · exact (rel_of_pairwise_cons h ha).le

theorem Ranked.map (h : Ranked rank l) {f : α → α} (hf : ∀ a, rank (f a) = rank a) :
    Ranked rank (l.map f) := by
  show (l.map f).Pairwise _
  rw [pairwise_map]
  exact h.imp fun {a b} hab => by rw [hf, hf]; exact hab

/-! ## Intervals of ranks -/

theorem Spans.lt (h : Spans rank lo hi l) (ha : a ∈ l) : lo < rank a :=
  ((h (rank a)).mp ⟨a, ha, rfl⟩).1

theorem Spans.le (h : Spans rank lo hi l) (ha : a ∈ l) : rank a ≤ hi :=
  ((h (rank a)).mp ⟨a, ha, rfl⟩).2

theorem Spans.exists_mem {q : ℕ} (h : Spans rank lo hi l) (hlo : lo < q)
    (hhi : q ≤ hi) : ∃ a ∈ l, rank a = q :=
  (h q).mpr ⟨hlo, hhi⟩

@[simp] theorem spans_nil_iff : Spans rank lo hi [] ↔ hi ≤ lo := by
  constructor
  · intro h
    by_contra hlt
    obtain ⟨a, ha, -⟩ := h.exists_mem (by omega : lo < hi) le_rfl
    exact absurd ha not_mem_nil
  · intro h q
    simp only [not_mem_nil, false_and, exists_false, false_iff]
    omega

theorem Spans.congr {l' : List α} (h : Spans rank lo hi l)
    (hiff : ∀ q, (∃ a ∈ l', rank a = q) ↔ ∃ a ∈ l, rank a = q) : Spans rank lo hi l' :=
  fun q => (hiff q).trans (h q)

theorem Spans.split {p s : List α} (h : Spans rank lo hi (p ++ s))
    (hr : Ranked rank (p ++ s)) (hle : lo ≤ hi) :
    ∃ mid, lo ≤ mid ∧ mid ≤ hi ∧ Spans rank lo mid p ∧ Spans rank mid hi s := by
  rcases eq_nil_or_concat p with rfl | ⟨p', last, rfl⟩
  · exact ⟨lo, le_rfl, hle, by simp, by simpa using h⟩
  · rw [concat_eq_append] at h hr ⊢
    have hlast : last ∈ p' ++ [last] ++ s := by simp
    have hp : Ranked rank (p' ++ [last]) := hr.sublist (sublist_append_left _ _)
    have htop : ∀ a ∈ p' ++ [last], rank a ≤ rank last := by
      intro a ha
      rcases mem_append.mp ha with ha | ha
      · exact (hp.lt_of_append ha (by simp)).le
      · rw [mem_singleton.mp ha]
    have hbottom : ∀ b ∈ s, rank last < rank b := fun b hb =>
      hr.lt_of_append (a := last) (by simp) hb
    refine ⟨rank last, (h.lt hlast).le, h.le hlast, fun q => ?_, fun q => ?_⟩
    · constructor
      · rintro ⟨a, ha, rfl⟩
        exact ⟨h.lt (mem_append_left _ ha), htop a ha⟩
      · rintro ⟨hlo, hq⟩
        obtain ⟨a, ha, rfl⟩ := h.exists_mem hlo (hq.trans (h.le hlast))
        rcases mem_append.mp ha with ha | ha
        · exact ⟨a, ha, rfl⟩
        · exact absurd hq (Nat.not_le.mpr (hbottom a ha))
    · constructor
      · rintro ⟨b, hb, rfl⟩
        exact ⟨hbottom b hb, h.le (mem_append_right _ hb)⟩
      · rintro ⟨hq, hhi⟩
        obtain ⟨b, hb, rfl⟩ := h.exists_mem ((h.lt hlast).trans hq) hhi
        rcases mem_append.mp hb with hb | hb
        · exact absurd hq (Nat.not_lt.mpr (htop b hb))
        · exact ⟨b, hb, rfl⟩

theorem Spans.filter_gt (h : Spans rank lo hi l) (c : ℕ) :
    Spans rank (max lo c) hi (l.filter fun a => decide (c < rank a)) := by
  intro q
  simp only [mem_filter, decide_eq_true_eq]
  constructor
  · rintro ⟨a, ⟨ha, hc⟩, rfl⟩
    exact ⟨max_lt (h.lt ha) hc, h.le ha⟩
  · rintro ⟨hq, hhi⟩
    obtain ⟨a, ha, rfl⟩ := h.exists_mem ((le_max_left lo c).trans_lt hq) hhi
    exact ⟨a, ⟨ha, (le_max_right lo c).trans_lt hq⟩, rfl⟩

theorem Spans.filter_lt (h : Spans rank lo hi l) (c : ℕ) :
    Spans rank lo (min hi (c - 1)) (l.filter fun a => decide (rank a < c)) := by
  intro q
  simp only [mem_filter, decide_eq_true_eq]
  constructor
  · rintro ⟨a, ⟨ha, hc⟩, rfl⟩
    have hhi := h.le ha
    exact ⟨h.lt ha, by omega⟩
  · rintro ⟨hq, hhi⟩
    obtain ⟨a, ha, rfl⟩ := h.exists_mem hq (by omega : q ≤ hi)
    exact ⟨a, ⟨ha, by omega⟩, rfl⟩

theorem Spans.union {l₁ l₂ : List α} {mid mid' : ℕ} (h₁ : Spans rank lo mid l₁)
    (h₂ : Spans rank mid' hi l₂) (hadj : mid' ≤ mid) (hmid : mid ≤ hi)
    (hl : ∀ q, (∃ a ∈ l, rank a = q) ↔ (∃ a ∈ l₁, rank a = q) ∨ ∃ a ∈ l₂, rank a = q) :
    Spans rank (min lo mid') hi l := by
  intro q
  rw [hl, h₁ q, h₂ q]
  omega

theorem Spans.length_eq (h : Spans rank lo hi l) (hr : Ranked rank l) : l.length = hi - lo := by
  have hnodup : (l.map rank).Nodup := by
    show List.Pairwise _ _
    rw [pairwise_map]
    exact hr.imp fun hlt => hlt.ne
  have hranks : (l.map rank).toFinset = Finset.Ioc lo hi := by
    ext q
    rw [mem_toFinset, mem_map, Finset.mem_Ioc]
    exact h q
  have hcard := toFinset_card_of_nodup hnodup
  rw [hranks, Nat.card_Ioc, length_map] at hcard
  exact hcard.symm

/-- What lies above the last row of a forward page is the rest of the rows above its cursor. -/
theorem Ranked.filter_gt_page (h : Ranked rank l) {c n : ℕ} {last : α}
    (hlast : ((l.filter fun a => decide (c < rank a)).take n).getLast? = some last) :
    (l.filter fun a => decide (rank last < rank a)) =
      (l.filter fun a => decide (c < rank a)).drop n := by
  set above := l.filter (fun a => decide (c < rank a)) with habove
  have hmem : last ∈ above.take n := mem_of_getLast? hlast
  have hc : c < rank last := by
    have := mem_filter.mp (mem_of_mem_take hmem)
    simpa using this.2
  have hranked : Ranked rank (above.take n ++ above.drop n) := by
    rw [take_append_drop]
    exact h.filter _
  have hsame : (l.filter fun a => decide (rank last < rank a)) =
      above.filter fun a => decide (rank last < rank a) := by
    rw [filter_filter]
    refine filter_congr fun a _ => ?_
    rw [Bool.eq_iff_iff, Bool.and_eq_true, decide_eq_true_eq, decide_eq_true_eq]
    omega
  have hfront : (above.take n).filter (fun a => decide (rank last < rank a)) = [] := by
    rw [filter_eq_nil_iff]
    intro a ha
    obtain ⟨l', hl'⟩ := getLast?_eq_some_iff.mp hlast
    rw [hl'] at ha hranked
    have hpage : Ranked rank (l' ++ [last]) := hranked.sublist (sublist_append_left _ _)
    rcases mem_append.mp ha with ha | ha
    · simpa using (hpage.lt_of_append ha (mem_singleton.mpr rfl)).le
    · simp [mem_singleton.mp ha]
  have hback : (above.drop n).filter (fun a => decide (rank last < rank a)) = above.drop n := by
    rw [filter_eq_self]
    intro a ha
    simpa using hranked.lt_of_append hmem ha
  rw [hsame]
  conv_lhs => rw [← take_append_drop n above]
  rw [filter_append, hfront, hback, nil_append]

/-- What lies below an element of a ranked list is what stands in front of it. -/
theorem Ranked.filter_lt_append {p s : List α} (h : Ranked rank (p ++ a :: s)) :
    ((p ++ a :: s).filter fun b => decide (rank b < rank a)) = p := by
  have hfront : p.filter (fun b => decide (rank b < rank a)) = p := by
    rw [filter_eq_self]
    exact fun b hb => decide_eq_true (h.lt_of_append hb mem_cons_self)
  have hback : (a :: s).filter (fun b => decide (rank b < rank a)) = [] := by
    rw [filter_eq_nil_iff]
    intro b hb
    have hle : rank a ≤ rank b :=
      Ranked.head?_le (h.sublist (sublist_append_right p (a :: s))) rfl hb
    simpa using hle
  rw [filter_append, hfront, hback, append_nil]

/-! ## Insertion -/

/-- Insertion before the first element of larger rank. -/
def insertRanked (rank : α → ℕ) (l : List α) (a : α) : List α :=
  let index := l.findIdx (fun b => decide (rank a < rank b))
  l.take index ++ a :: l.drop index

@[simp] theorem mem_insertRanked {b : α} : b ∈ insertRanked rank l a ↔ b = a ∨ b ∈ l := by
  unfold insertRanked
  generalize l.findIdx _ = index
  conv_rhs => rw [← take_append_drop index l]
  simp only [mem_append, mem_cons]
  tauto

theorem Ranked.insertRanked (h : Ranked rank l)
    (hnew : ∀ b ∈ l, rank b ≠ rank a) : Ranked rank (insertRanked rank l a) := by
  unfold Library.insertRanked
  set index := l.findIdx (fun b => decide (rank a < rank b)) with hindex
  have hfront : ∀ b ∈ l.take index, rank b < rank a := by
    intro b hb
    obtain ⟨i, hi, rfl⟩ := mem_take_iff_getElem.mp hb
    have hlt : i < index := lt_of_lt_of_le hi (min_le_left _ _)
    have hnot := not_of_lt_findIdx (hindex ▸ hlt)
    have hne := hnew _ (getElem_mem (by omega : i < l.length))
    simp only [decide_eq_false_iff_not] at hnot
    omega
  have hback : ∀ b ∈ l.drop index, rank a < rank b := by
    intro b hb
    by_cases hlen : index < l.length
    · have hfound := findIdx_getElem (w := hindex ▸ hlen)
      rw [drop_eq_getElem_cons hlen, mem_cons] at hb
      have hhead : rank a < rank l[index] := by simpa using hfound
      rcases hb with rfl | hb
      · exact hhead
      · have hdrop : Ranked rank (l.drop index) := h.sublist (drop_sublist _ _)
        rw [drop_eq_getElem_cons hlen] at hdrop
        exact hhead.trans (rel_of_pairwise_cons hdrop hb)
    · rw [drop_eq_nil_of_le (by omega)] at hb
      exact absurd hb not_mem_nil
  show List.Pairwise _ _
  rw [pairwise_append, pairwise_cons]
  refine ⟨h.sublist (take_sublist _ _), ⟨hback, h.sublist (drop_sublist _ _)⟩, ?_⟩
  intro x hx y hy
  rcases mem_cons.mp hy with rfl | hy
  · exact hfront x hx
  · exact (hfront x hx).trans (hback y hy)

/-! ## Bounded suffixes -/

/-- The last `n` elements: `ORDER BY rank DESC LIMIT n`, put back in ascending order. -/
def newest (n : ℕ) (l : List α) : List α :=
  (l.reverse.take n).reverse

theorem newest_suffix (n : ℕ) (l : List α) : newest n l <:+ l := by
  have hprefix : l.reverse.take n <+: l.reverse := take_prefix n l.reverse
  rw [← reverse_suffix, reverse_reverse] at hprefix
  exact hprefix

theorem length_newest (n : ℕ) (l : List α) : (newest n l).length = min n l.length := by
  simp [newest]

/-- Membership in a suffix that is as long as a budget allows: what stands from the element
    onwards must fit. -/
theorem mem_suffix_iff {p s : List α} (h : Ranked rank (p ++ s)) (weight : α → ℕ) {n : ℕ}
    (hs : (s.map weight).sum ≤ n)
    (hp : ∀ x ∈ p.getLast?, n < weight x + (s.map weight).sum) (ha : a ∈ p ++ s) :
    a ∈ s ↔ (((p ++ s).filter fun b => decide (rank a ≤ rank b)).map weight).sum ≤ n := by
  rw [filter_append, map_append, sum_append]
  constructor
  · intro hmem
    have hfront : p.filter (fun b => decide (rank a ≤ rank b)) = [] := by
      rw [filter_eq_nil_iff]
      intro b hb
      have := h.lt_of_append hb hmem
      simp only [decide_eq_true_eq]
      omega
    rw [hfront, map_nil, sum_nil, Nat.zero_add]
    have hsub : ((s.filter fun b => decide (rank a ≤ rank b)).map weight).Sublist (s.map weight) :=
      List.Sublist.map weight filter_sublist
    exact (hsub.sum_le_sum fun _ _ => Nat.zero_le _).trans hs
  · intro hle
    rcases mem_append.mp ha with ha | ha
    · exfalso
      -- everything from `a` on, the last element of `p` included, weighs too much
      rcases eq_nil_or_concat p with rfl | ⟨p', last, rfl⟩
      · exact absurd ha not_mem_nil
      · rw [concat_eq_append] at h hp ha hle
        have hover := hp last (by simp)
        have hback : s.filter (fun b => decide (rank a ≤ rank b)) = s := by
          rw [filter_eq_self]
          intro b hb
          simpa using (h.lt_of_append ha hb).le
        have hlast : rank a ≤ rank last := by
          have hp' : Ranked rank (p' ++ [last]) := h.sublist (sublist_append_left _ _)
          rcases mem_append.mp ha with ha | ha
          · exact (hp'.lt_of_append ha (by simp)).le
          · rw [mem_singleton.mp ha]
        rw [hback, filter_append, map_append, sum_append] at hle
        simp only [filter_cons, hlast, decide_true, if_true, map_cons, sum_cons] at hle
        omega
    · exact ha

/-- Membership in the last `n` elements: at most `n` of them from there on. -/
theorem mem_newest_iff (h : Ranked rank l) (n : ℕ) (a : α) :
    a ∈ newest n l ↔
      a ∈ l ∧ (l.filter fun b => decide (rank a ≤ rank b)).length ≤ n := by
  obtain ⟨p, hp⟩ := newest_suffix n l
  have hlen := length_newest n l
  have hl : l.length = p.length + (newest n l).length := by
    rw [← length_append, hp]
  have hiff (ha : a ∈ l) := mem_suffix_iff (hp.symm ▸ h) (fun _ => 1) (n := n)
    (by simp; omega) (by
      intro x hx
      have : p ≠ [] := by rintro rfl; simp at hx
      have := length_pos_of_ne_nil this
      simp; omega) (a := a) (hp.symm ▸ ha)
  constructor
  · intro hmem
    have ha : a ∈ l := (newest_suffix n l).subset hmem
    have hle := (hiff ha).mp hmem
    rw [hp] at hle
    exact ⟨ha, by simpa using hle⟩
  · rintro ⟨ha, hle⟩
    apply (hiff ha).mpr
    rw [hp]
    simpa using hle

/-! ## Prefixes within a budget -/

/-- What a bounded pass over a list returned. -/
structure Assembled (α : Type) where
  /-- The elements kept, in the order of the pass. -/
  kept : List α
  /-- Whether the pass stopped early. -/
  truncated : Bool
  /-- The weight of the kept elements, on top of the starting weight. -/
  bytes : ℕ

/-- The longest prefix within a budget, from a weight of `bytes`.  `keepOne` admits the next
    element whatever it weighs; it never does after the first. -/
def takeWithin (weight : α → ℕ) (budget : ℕ) : (keepOne : Bool) → (bytes : ℕ) → List α → Assembled α
  | _, bytes, [] => ⟨[], false, bytes⟩
  | keepOne, bytes, a :: rest =>
    if bytes + weight a > budget ∧ keepOne = false then ⟨[], true, bytes⟩
    else
      let tail := takeWithin weight budget false (bytes + weight a) rest
      ⟨a :: tail.kept, tail.truncated, tail.bytes⟩

variable (weight : α → ℕ) (budget : ℕ) (keepOne : Bool)

/-- The kept part is a prefix; the pass stops only before an element that does not fit. -/
theorem takeWithin_spec (bytes : ℕ) (l : List α) :
    ∃ rest, l = (takeWithin weight budget keepOne bytes l).kept ++ rest ∧
      (takeWithin weight budget keepOne bytes l).bytes =
        bytes + ((takeWithin weight budget keepOne bytes l).kept.map weight).sum ∧
      ((takeWithin weight budget keepOne bytes l).truncated = true ↔ rest ≠ []) ∧
      ∀ x ∈ rest.head?, budget < (takeWithin weight budget keepOne bytes l).bytes + weight x := by
  induction l generalizing keepOne bytes with
  | nil => exact ⟨[], by simp [takeWithin]⟩
  | cons a l ih =>
    unfold takeWithin
    split
    · rename_i hover
      exact ⟨a :: l, by simpa using hover.1⟩
    · obtain ⟨rest, hl, hbytes, htrunc, hrest⟩ := ih false (bytes + weight a)
      refine ⟨rest, ?_, ?_, htrunc, hrest⟩
      · simpa using hl
      · simp only [map_cons, sum_cons]
        omega

theorem truncated_takeWithin_of_le {budget : ℕ} {bytes : ℕ}
    (h : bytes + (l.map weight).sum ≤ budget) :
    (takeWithin weight budget keepOne bytes l).truncated = false := by
  obtain ⟨rest, hl, hbytes, htrunc, hrest⟩ := takeWithin_spec weight budget keepOne bytes l
  rw [Bool.eq_false_iff]
  intro hcut
  obtain ⟨x, rest', rfl⟩ := exists_cons_of_ne_nil (htrunc.mp hcut)
  have hover := hrest x rfl
  rw [hl, map_append, sum_append, map_cons, sum_cons] at h
  omega

theorem bytes_takeWithin_le (bytes : ℕ) (l : List α) (h : bytes ≤ budget) :
    (takeWithin weight budget false bytes l).bytes ≤ budget := by
  induction l generalizing bytes with
  | nil => exact h
  | cons a l ih =>
    unfold takeWithin
    split
    · exact h
    · rename_i hfits
      apply ih
      simp only [and_true, not_lt] at hfits
      exact hfits

theorem kept_takeWithin_ne_nil (bytes : ℕ) (h : l ≠ []) :
    (takeWithin weight budget true bytes l).kept ≠ [] := by
  cases l with
  | nil => exact absurd rfl h
  | cons a l => simp [takeWithin]

theorem takeWithin_reverse_suffix (bytes : ℕ)
    (l : List α) : (takeWithin weight budget keepOne bytes l.reverse).kept.reverse <:+ l := by
  obtain ⟨rest, hrest, -⟩ := takeWithin_spec weight budget keepOne bytes l.reverse
  refine ⟨rest.reverse, ?_⟩
  rw [← reverse_append, ← hrest, reverse_reverse]

theorem mem_takeWithin_reverse_iff (h : Ranked rank l) (weight : α → ℕ) (budget : ℕ) (a : α) :
    a ∈ (takeWithin weight budget false 0 l.reverse).kept ↔
      a ∈ l ∧ ((l.filter fun b => decide (rank a ≤ rank b)).map weight).sum ≤ budget := by
  obtain ⟨rest, hl, hbytes, -, hrest⟩ := takeWithin_spec weight budget false 0 l.reverse
  have hle := bytes_takeWithin_le weight budget 0 l.reverse (Nat.zero_le _)
  set kept := (takeWithin weight budget false 0 l.reverse).kept with hkept
  have hsplit : l = rest.reverse ++ kept.reverse := by
    rw [← reverse_append, ← hl, reverse_reverse]
  have hsum : (kept.reverse.map weight).sum = (kept.map weight).sum := by
    rw [map_reverse, sum_reverse]
  have hiff (ha : a ∈ l) := mem_suffix_iff (hsplit ▸ h) weight (n := budget)
    (by rw [hsum]; omega) (by
      intro x hx
      rw [getLast?_reverse] at hx
      have := hrest x hx
      omega) (a := a) (hsplit ▸ ha)
  rw [← hsplit] at hiff
  constructor
  · intro hmem
    have ha : a ∈ l := by
      rw [hsplit]
      exact mem_append_right _ (mem_reverse.mpr hmem)
    exact ⟨ha, (hiff ha).mp (mem_reverse.mpr hmem)⟩
  · rintro ⟨ha, hfits⟩
    exact mem_reverse.mp ((hiff ha).mpr hfits)

end RelayIde.Library
