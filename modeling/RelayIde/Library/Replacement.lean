import Mathlib.Data.List.Basic
import Mathlib.Data.List.Infix
import Mathlib.Data.List.Perm.Basic

/-!
# Replacing Needles by a Marker

What `text.split(needle).join(marker)` does to a list, and what several of them do one after the
other.  The marker is delimited: it starts and ends with elements that no needle has, so that a
needle can neither straddle its edges nor be put together from what surrounds it.

- `foldl_eq_of_perm` — a fold whose inverted pairs commute
-/

namespace RelayIde.Library

open List

variable {α : Type} [DecidableEq α]

/-! ## One needle -/

/-- The replacement, with `k` elements of the last occurrence still to be skipped. -/
def replaceFrom (needle marker : List α) : ℕ → List α → List α
  | _, [] => []
  | k + 1, _ :: rest => replaceFrom needle marker k rest
  | 0, a :: rest =>
    if needle <+: a :: rest then marker ++ replaceFrom needle marker (needle.length - 1) rest
    else a :: replaceFrom needle marker 0 rest

/-- `text.split(needle).join(marker)`, for a needle that is not empty. -/
def replaceAll (needle marker text : List α) : List α :=
  replaceFrom needle marker 0 text

variable {needle marker : List α}

theorem replaceFrom_eq_drop (k : ℕ) (text : List α) :
    replaceFrom needle marker k text = replaceAll needle marker (text.drop k) := by
  induction text generalizing k with
  | nil =>
    cases k <;> rfl
  | cons a rest ih =>
    cases k with
    | zero => rfl
    | succ k => exact ih k

theorem replaceAll_append_self (hne : needle ≠ []) (rest : List α) :
    replaceAll needle marker (needle ++ rest) = marker ++ replaceAll needle marker rest := by
  cases needle with
  | nil => exact absurd rfl hne
  | cons a tail =>
    have hstart : a :: tail <+: a :: (tail ++ rest) := prefix_append (a :: tail) rest
    rw [cons_append, replaceAll, replaceFrom, replaceFrom_eq_drop]
    simp

variable {a : α} {rest front word : List α}

theorem replaceAll_cons (h : ¬ needle <+: a :: rest) :
    replaceAll needle marker (a :: rest) = a :: replaceAll needle marker rest := by
  rw [replaceAll, replaceFrom, if_neg h]
  rfl

theorem replaceAll_induction (hne : needle ≠ []) {P : List α → Prop} (nil : P [])
    (found : ∀ rest, P rest → P (needle ++ rest))
    (kept : ∀ a rest, ¬ needle <+: a :: rest → P rest → P (a :: rest)) (text : List α) :
    P text := by
  induction hlength : text.length using Nat.strong_induction_on generalizing text with
  | _ n ih =>
    cases text with
    | nil => exact nil
    | cons a rest =>
      by_cases hstart : needle <+: a :: rest
      · obtain ⟨tail, htail⟩ := hstart
        rw [← htail]
        refine found tail (ih tail.length ?_ tail rfl)
        rw [← hlength, ← htail, length_append]
        have := length_pos_of_ne_nil hne
        omega
      · refine kept a rest hstart (ih rest.length ?_ rest rfl)
        rw [← hlength, length_cons]
        omega

theorem replaceAll_eq_self {text : List α} (h : ¬ needle <:+: text) :
    replaceAll needle marker text = text := by
  induction text with
  | nil => rfl
  | cons a rest ih =>
    rw [replaceAll_cons fun hstart => h hstart.isInfix, ih fun hinside => h (infix_cons hinside)]

theorem replaceAll_self (hne : needle ≠ []) (text : List α) :
    replaceAll needle needle text = text := by
  induction text using replaceAll_induction hne with
  | nil => rfl
  | found rest ih => rw [replaceAll_append_self hne, ih]
  | kept a rest h ih => rw [replaceAll_cons h, ih]

theorem replaceAll_append
    (h : ∀ i < front.length, ¬ needle <+: (front ++ rest).drop i) :
    replaceAll needle marker (front ++ rest) = front ++ replaceAll needle marker rest := by
  induction front with
  | nil => rfl
  | cons a front ih =>
    rw [cons_append, replaceAll_cons, ih]
    · rfl
    · intro i hi
      exact h (i + 1) (by simpa using hi)
    · exact h 0 (by simp)

/-! ## A delimited marker -/

/-- A list without the delimiters. -/
def Plain (opening closing : α) (word : List α) : Prop :=
  opening ∉ word ∧ closing ∉ word

def DelimitedBy (opening closing : α) (marker : List α) : Prop :=
  ∃ body, marker = opening :: (body ++ [closing])

variable {opening closing : α}

omit [DecidableEq α] in
theorem Plain.of_infix {word' : List α} (h : Plain opening closing word)
    (hinside : word' <:+: word) : Plain opening closing word' :=
  ⟨fun hmem => h.1 (hinside.subset hmem), fun hmem => h.2 (hinside.subset hmem)⟩

omit [DecidableEq α] in
theorem DelimitedBy.mem_suffix (h : DelimitedBy opening closing marker)
    (hsuffix : word <:+ marker) (hne : word ≠ []) : closing ∈ word := by
  obtain ⟨body, rfl⟩ := h
  obtain ⟨front, hfront⟩ := hsuffix
  have hlast := congrArg List.getLast? hfront
  rw [getLast?_append_of_ne_nil _ hne] at hlast
  refine mem_of_getLast? (hlast.trans ?_)
  rw [← cons_append, getLast?_concat]

section
variable (hmarker : DelimitedBy opening closing marker)
include hmarker

theorem prefix_replaceAll (hne : needle ≠ []) {text : List α} (hword : Plain opening closing word)
    (h : word <+: replaceAll needle marker text) : word <+: text := by
  induction text using replaceAll_induction hne generalizing word with
  | nil => exact h
  | found rest ih =>
    rw [replaceAll_append_self hne] at h
    obtain ⟨body, rfl⟩ := hmarker
    rcases prefix_cons_iff.mp h with rfl | ⟨tail, rfl, -⟩
    · exact nil_prefix
    · exact absurd mem_cons_self hword.1
  | kept a rest hkept ih =>
    rw [replaceAll_cons hkept] at h
    rcases prefix_cons_iff.mp h with rfl | ⟨tail, rfl, htail⟩
    · exact nil_prefix
    · rw [cons_prefix_cons]
      exact ⟨rfl, ih (hword.of_infix (suffix_cons a tail).isInfix) htail⟩

theorem infix_replaceAll (hne : needle ≠ []) {text : List α} (hword : Plain opening closing word)
    (h : word <:+: replaceAll needle marker text) : word <:+: text ∨ word <:+: marker := by
  induction text using replaceAll_induction hne with
  | nil => exact .inl h
  | found rest ih =>
    rw [replaceAll_append_self hne] at h
    have hrest : word <:+: replaceAll needle marker rest →
        word <:+: needle ++ rest ∨ word <:+: marker := fun hinside =>
      (ih hinside).imp_left infix_append_of_infix_right
    rcases infix_append_iff.mp h with hinside | hinside | ⟨front, back, rfl, hfront, hback⟩
    · exact .inr hinside
    · exact hrest hinside
    · -- a part that straddles the edge has the closing delimiter
      rcases eq_or_ne front [] with rfl | hfrontNe
      · exact hrest hback.isInfix
      · exact absurd (mem_append_left _ (hmarker.mem_suffix hfront hfrontNe)) hword.2
  | kept a rest hkept ih =>
    rw [replaceAll_cons hkept] at h
    rcases infix_cons_iff.mp h with hstart | hinside
    · rcases prefix_cons_iff.mp hstart with rfl | ⟨tail, rfl, htail⟩
      · exact .inl nil_infix
      · have hplain := hword.of_infix (suffix_cons a tail).isInfix
        refine .inl (List.IsPrefix.isInfix ?_)
        rw [cons_prefix_cons]
        exact ⟨rfl, prefix_replaceAll hmarker hne hplain htail⟩
    · exact (ih hinside).imp_left infix_cons

theorem not_infix_replaceAll (hne : needle ≠ [])
    (hplain : Plain opening closing needle) (hother : ¬ needle <:+: marker) (text : List α) :
    ¬ needle <:+: replaceAll needle marker text := by
  induction text using replaceAll_induction hne with
  | nil => exact fun h => hne (infix_nil.mp h)
  | found rest ih =>
    rw [replaceAll_append_self hne, infix_append_iff]
    rintro (hinside | hinside | ⟨front, back, hsplit, hfront, hback⟩)
    · exact hother hinside
    · exact ih hinside
    · rcases eq_or_ne front [] with rfl | hfrontNe
      · exact ih (hsplit ▸ hback.isInfix)
      · exact hplain.2 (hsplit ▸ mem_append_left _ (hmarker.mem_suffix hfront hfrontNe))
  | kept a rest hkept ih =>
    rw [replaceAll_cons hkept, infix_cons_iff]
    rintro (hstart | hinside)
    · refine hkept (prefix_replaceAll hmarker hne hplain ?_)
      rw [replaceAll_cons hkept]
      exact hstart
    · exact ih hinside

theorem replaceAll_marker_append
    (hplain : Plain opening closing needle) (hother : ¬ needle <:+: marker) (rest : List α) :
    replaceAll needle marker (marker ++ rest) = marker ++ replaceAll needle marker rest := by
  refine replaceAll_append fun i hi hstart => ?_
  rw [drop_append_of_le_length hi.le] at hstart
  rcases prefix_or_prefix_of_prefix hstart (prefix_append _ rest) with hpre | hpre
  · exact hother (hpre.isInfix.trans (drop_suffix i marker).isInfix)
  · -- the needle reaches over the end of the marker
    have hne : marker.drop i ≠ [] := by
      rw [Ne, drop_eq_nil_iff]
      omega
    exact hplain.2 (hpre.subset (hmarker.mem_suffix (drop_suffix i marker) hne))

end

/-! ## Two needles -/

/-- An occurrence of one needle has elements of an occurrence of another one. -/
def Overlap (needle needle' text : List α) : Prop :=
  ∃ i j, needle <+: text.drop i ∧ needle' <+: text.drop j ∧
    i < j + needle'.length ∧ j < i + needle.length

section Overlap

omit [DecidableEq α]

variable {needle' text : List α}

theorem Overlap.symm (h : Overlap needle needle' text) : Overlap needle' needle text := by
  obtain ⟨i, j, hi, hj, hlt, hlt'⟩ := h
  exact ⟨j, i, hj, hi, hlt', hlt⟩

theorem Overlap.of_infix {part : List α} (h : Overlap needle needle' part)
    (hinside : part <:+: text) : Overlap needle needle' text := by
  obtain ⟨front, back, rfl⟩ := hinside
  obtain ⟨i, j, hi, hj, hlt, hlt'⟩ := h
  have hshift : ∀ {word : List α} {k : ℕ}, word <+: part.drop k →
      word <+: (front ++ part ++ back).drop (front.length + k) := by
    intro word k hword
    rw [drop_append, drop_append]
    simp only [Nat.add_sub_cancel_left]
    have hnil : front.drop (front.length + k) = [] := by simp
    rw [hnil]
    exact hword.trans (prefix_append _ _)
  exact ⟨front.length + i, front.length + j, hshift hi, hshift hj, by omega, by omega⟩

theorem exists_plain_overlap_of_le {i j : ℕ} (hle : i ≤ j) (hi : needle <+: text.drop i)
    (hj : needle' <+: text.drop j) (hlt : j < i + needle.length) (hne : needle' ≠ [])
    (hplain : Plain opening closing needle) (hplain' : Plain opening closing needle') :
    ∃ part, part <:+: text ∧ Plain opening closing part ∧ Overlap needle needle' part := by
  obtain ⟨rest, hrest⟩ := hi
  obtain ⟨d, rfl⟩ := Nat.exists_eq_add_of_le hle
  have hd : d < needle.length := by omega
  rw [← drop_drop, ← hrest, drop_append_of_le_length hd.le] at hj
  have htext : needle ++ rest <:+: text := hrest ▸ (drop_suffix i text).isInfix
  have hpos := length_pos_of_ne_nil hne
  rcases prefix_or_prefix_of_prefix hj (prefix_append _ rest) with hwithin | hbeyond
  · -- the second needle ends within the first
    refine ⟨needle, infix_append_left.trans htext, hplain, 0, d, ?_, hwithin, ?_, ?_⟩
    · exact prefix_rfl
    · omega
    · omega
  · -- it reaches over the end of the first
    have hsplit : needle.take d ++ needle.drop d = needle := take_append_drop d needle
    refine ⟨needle.take d ++ needle', ?_, ⟨?_, ?_⟩, 0, d, ?_, ?_, ?_, ?_⟩
    · obtain ⟨back, hback⟩ := hj
      refine List.IsInfix.trans ⟨[], back, ?_⟩ htext
      rw [nil_append, append_assoc, hback, ← append_assoc, hsplit]
    · rw [mem_append]
      rintro (hmem | hmem)
      · exact hplain.1 (mem_of_mem_take hmem)
      · exact hplain'.1 hmem
    · rw [mem_append]
      rintro (hmem | hmem)
      · exact hplain.2 (mem_of_mem_take hmem)
      · exact hplain'.2 hmem
    · obtain ⟨tail, htail⟩ := hbeyond
      refine ⟨tail, ?_⟩
      rw [drop_zero, ← htail, ← append_assoc, hsplit]
    · rw [drop_append_of_le_length (by simp; omega)]
      simp
    · omega
    · omega

theorem Overlap.exists_plain (h : Overlap needle needle' text) (hne : needle ≠ [])
    (hne' : needle' ≠ []) (hplain : Plain opening closing needle)
    (hplain' : Plain opening closing needle') :
    ∃ part, part <:+: text ∧ Plain opening closing part ∧ Overlap needle needle' part := by
  obtain ⟨i, j, hi, hj, hlt, hlt'⟩ := h
  rcases Nat.le_total i j with hle | hle
  · exact exists_plain_overlap_of_le hle hi hj hlt' hne' hplain hplain'
  · obtain ⟨part, hpart, hword, hoverlap⟩ :=
      exists_plain_overlap_of_le hle hj hi hlt hne hplain' hplain
    exact ⟨part, hpart, hword, hoverlap.symm⟩

theorem not_overlap_of_append
    (h : ¬ Overlap needle needle' (front ++ rest)) : ¬ Overlap needle needle' rest :=
  fun hoverlap => h (hoverlap.of_infix infix_append_right)

/-- Needles that overlap do so within the text. -/
theorem not_overlap_of_forall (hne : needle ≠ []) (hne' : needle' ≠ [])
    (h : ∀ i < text.length, ∀ j < text.length, ¬ (needle <+: text.drop i ∧
      needle' <+: text.drop j ∧ i < j + needle'.length ∧ j < i + needle.length)) :
    ¬ Overlap needle needle' text := by
  have hlt {word : List α} {i : ℕ} (hword : word ≠ []) (hi : word <+: text.drop i) :
      i < text.length := by
    by_contra hge
    rw [drop_of_length_le (not_lt.mp hge), prefix_nil] at hi
    exact hword hi
  rintro ⟨i, j, hi, hj, hij, hji⟩
  exact h i (hlt hne hi) j (hlt hne' hj) ⟨hi, hj, hij, hji⟩

end Overlap

variable {needle' : List α}

/-- Where a needle stands, one that does not overlap it starts behind it. -/
theorem replaceAll_append_of_not_overlap (hne : needle' ≠ [])
    (h : ¬ Overlap needle needle' (needle ++ rest)) :
    replaceAll needle' marker (needle ++ rest) = needle ++ replaceAll needle' marker rest := by
  refine replaceAll_append fun i hi hstart => h ⟨0, i, ?_, hstart, ?_, ?_⟩
  · exact prefix_append needle rest
  · have := length_pos_of_ne_nil hne
    omega
  · omega

theorem replaceAll_cons_replaceAll (hmarker : DelimitedBy opening closing marker)
    (hne : needle ≠ []) (hplain' : Plain opening closing needle')
    (h : ¬ needle <+: a :: rest) (h' : ¬ needle' <+: a :: rest) :
    replaceAll needle' marker (a :: replaceAll needle marker rest) =
      a :: replaceAll needle' marker (replaceAll needle marker rest) := by
  refine replaceAll_cons fun hstart => h' (prefix_replaceAll hmarker hne hplain' ?_)
  rw [replaceAll_cons h]
  exact hstart

/-- **Order**: two plain needles that do not overlap may be replaced in either order. -/
theorem replaceAll_comm (hmarker : DelimitedBy opening closing marker) (hne : needle ≠ [])
    (hne' : needle' ≠ []) (hplain : Plain opening closing needle)
    (hplain' : Plain opening closing needle') (hother : ¬ needle <:+: marker)
    (hother' : ¬ needle' <:+: marker) {text : List α} (h : ¬ Overlap needle needle' text) :
    replaceAll needle' marker (replaceAll needle marker text) =
      replaceAll needle marker (replaceAll needle' marker text) := by
  induction hlength : text.length using Nat.strong_induction_on generalizing text with
  | _ n ih =>
    by_cases hfirst : needle <+: text
    · obtain ⟨rest, rfl⟩ := hfirst
      have hshorter : rest.length < n := by
        have := length_pos_of_ne_nil hne
        rw [← hlength, length_append]
        omega
      rw [replaceAll_append_self hne, replaceAll_marker_append hmarker hplain' hother',
        replaceAll_append_of_not_overlap hne' h, replaceAll_append_self hne,
        ih rest.length hshorter (not_overlap_of_append h) rfl]
    · by_cases hsecond : needle' <+: text
      · obtain ⟨rest, rfl⟩ := hsecond
        have hshorter : rest.length < n := by
          have := length_pos_of_ne_nil hne'
          rw [← hlength, length_append]
          omega
        rw [replaceAll_append_of_not_overlap hne fun hoverlap => h hoverlap.symm,
          replaceAll_append_self hne', replaceAll_append_self hne',
          replaceAll_marker_append hmarker hplain hother,
          ih rest.length hshorter (not_overlap_of_append h) rfl]
      · cases text with
        | nil => rfl
        | cons a rest =>
          have hrest : ¬ Overlap needle needle' rest := fun hoverlap =>
            h (hoverlap.of_infix (suffix_cons a rest).isInfix)
          rw [replaceAll_cons hfirst, replaceAll_cons hsecond,
            replaceAll_cons_replaceAll hmarker hne hplain' hfirst hsecond,
            replaceAll_cons_replaceAll hmarker hne' hplain hsecond hfirst,
            ih rest.length (by rw [← hlength, length_cons]; omega) hrest rfl]

/-! ## Many needles -/

section Folds

omit [DecidableEq α]

variable {β : Type} {f : β → α → β} {I : β → Prop}

theorem foldl_cons_of_comm
    (hI : ∀ b ∈ front, ∀ s, I s → I (f s b))
    (hcomm : ∀ b ∈ front, ∀ s, I s → f (f s b) a = f (f s a) b) {s : β} (hs : I s) :
    f (front.foldl f s) a = front.foldl f (f s a) := by
  induction front generalizing s with
  | nil => rfl
  | cons b front ih =>
    rw [foldl_cons, foldl_cons, ← hcomm b mem_cons_self s hs]
    exact ih (fun c hc => hI c (mem_cons_of_mem b hc))
      (fun c hc => hcomm c (mem_cons_of_mem b hc)) (hI b mem_cons_self s hs)

/-- Two orders of one list fold alike when the pairs they invert commute. -/
theorem foldl_eq_of_perm {l l' : List α} (hperm : l.Perm l') (hnodup : l.Nodup)
    (hI : ∀ a ∈ l, ∀ s, I s → I (f s a))
    (hcomm : ∀ a b, [a, b].Sublist l → [b, a].Sublist l' → ∀ s, I s → f (f s b) a = f (f s a) b)
    {s : β} (hs : I s) : l.foldl f s = l'.foldl f s := by
  induction l generalizing l' s with
  | nil => rw [perm_nil.mp hperm.symm]
  | cons a rest ih =>
    obtain ⟨front, back, rfl⟩ := append_of_mem (hperm.subset mem_cons_self)
    have hrest : rest.Perm (front ++ back) :=
      (perm_cons a).mp (hperm.trans perm_middle)
    have hmem : ∀ b ∈ front, b ∈ rest := fun b hb =>
      hrest.symm.subset (mem_append_left _ hb)
    -- everything that comes before `a` in the second order is inverted with it
    have hfront : ∀ b ∈ front, ∀ s, I s → f (f s b) a = f (f s a) b := by
      intro b hb
      refine hcomm a b ?_ ?_
      · exact List.Sublist.cons_cons a (singleton_sublist.mpr (hmem b hb))
      · exact List.Sublist.append (singleton_sublist.mpr hb)
          (List.Sublist.cons_cons a (nil_sublist back))
    rw [foldl_cons, foldl_append, foldl_cons,
      foldl_cons_of_comm (fun b hb => hI b (mem_cons_of_mem a (hmem b hb))) hfront hs,
      ← foldl_append]
    refine ih hrest (nodup_cons.mp hnodup).2 (fun b hb => hI b (mem_cons_of_mem a hb))
      (fun b c hbc hcb => hcomm b c (hbc.cons a) ?_) (hI a mem_cons_self s hs)
    exact hcb.trans ((sublist_cons_self a back).append_left front)

end Folds

/-- One needle after the other. -/
def replaceEach (needles : List (List α)) (marker text : List α) : List α :=
  needles.foldl (fun text needle => replaceAll needle marker text) text

def Stems (opening closing : α) (marker origin text : List α) : Prop :=
  ∀ word, Plain opening closing word → word <:+: text → word <:+: origin ∨ word <:+: marker

variable {origin text : List α}

omit [DecidableEq α] in
theorem Stems.refl (text : List α) : Stems opening closing marker text text :=
  fun _ _ hinside => .inl hinside

theorem Stems.replaceAll (h : Stems opening closing marker origin text)
    (hmarker : DelimitedBy opening closing marker) (hne : needle ≠ []) :
    Stems opening closing marker origin (replaceAll needle marker text) := by
  intro word hword hinside
  rcases infix_replaceAll hmarker hne hword hinside with htext | hin
  · exact h word hword htext
  · exact .inr hin

variable {needles needles' : List (List α)}

theorem Stems.replaceEach (h : Stems opening closing marker origin text)
    (hmarker : DelimitedBy opening closing marker) (hne : ∀ needle ∈ needles, needle ≠ []) :
    Stems opening closing marker origin (replaceEach needles marker text) := by
  induction needles generalizing text with
  | nil => exact h
  | cons needle rest ih =>
    exact ih (h.replaceAll hmarker (hne needle mem_cons_self))
      fun other hother => hne other (mem_cons_of_mem needle hother)

theorem replaceEach_eq_self (h : ∀ needle ∈ needles, replaceAll needle marker text = text) :
    replaceEach needles marker text = text := by
  induction needles with
  | nil => rfl
  | cons needle rest ih =>
    rw [replaceEach, foldl_cons, h needle mem_cons_self]
    exact ih fun other hother => h other (mem_cons_of_mem needle hother)

section
variable (hmarker : DelimitedBy opening closing marker)
include hmarker

theorem not_infix_replaceEach
    (hne : ∀ needle ∈ needles, needle ≠ []) (hmem : needle ∈ needles)
    (hplain : Plain opening closing needle) (hother : ¬ needle <:+: marker) (text : List α) :
    ¬ needle <:+: replaceEach needles marker text := by
  induction needles generalizing text with
  | nil => cases hmem
  | cons first rest ih =>
    have hneRest : ∀ needle ∈ rest, needle ≠ [] := fun other h =>
      hne other (mem_cons_of_mem first h)
    rcases mem_cons.mp hmem with rfl | hmem
    · intro hinside
      have hstems : Stems opening closing marker (replaceAll needle marker text) _ :=
        (Stems.refl (replaceAll needle marker text)).replaceEach hmarker hneRest
      rcases hstems needle hplain hinside with hfirst | hin
      · exact not_infix_replaceAll hmarker (hne needle mem_cons_self) hplain hother text hfirst
      · exact hother hin
    · exact ih hneRest hmem (replaceAll first marker text)

/-- Two needles that get in each other's way. -/
def Interfere (marker needle needle' text : List α) : Prop :=
  Overlap needle needle' text ∨ (needle <:+: marker ∧ needle' <:+: text) ∨
    (needle' <:+: marker ∧ needle <:+: text)

theorem replaceAll_comm_of_stems
    (hstems : Stems opening closing marker origin text) (hne : needle ≠ [])
    (hplain' : Plain opening closing needle') (horigin : ¬ needle' <:+: origin)
    (hother' : ¬ needle' <:+: marker) :
    replaceAll needle' marker (replaceAll needle marker text) =
      replaceAll needle marker (replaceAll needle' marker text) := by
  have habsent : ∀ t, Stems opening closing marker origin t → ¬ needle' <:+: t :=
    fun t h hinside => (h needle' hplain' hinside).elim horigin hother'
  rw [replaceAll_eq_self (habsent _ (hstems.replaceAll hmarker hne)),
    replaceAll_eq_self (habsent _ hstems)]

/-- **Orders**: plain needles may be replaced in two orders alike, if those that the orders invert
    do not interfere. -/
theorem replaceEach_eq_of_perm
    (hperm : needles.Perm needles') (hnodup : needles.Nodup) (hne : ∀ needle ∈ needles, needle ≠ [])
    (hplain : ∀ needle ∈ needles, Plain opening closing needle)
    (hone : ∀ a ∈ needles, ∀ b ∈ needles, a <:+: marker → b <:+: marker → a = b)
    (hsafe : ∀ a b, [a, b].Sublist needles → [b, a].Sublist needles' →
      ¬ Interfere marker a b origin)
    (hstems : Stems opening closing marker origin text) :
    replaceEach needles marker text = replaceEach needles' marker text := by
  refine foldl_eq_of_perm (I := Stems opening closing marker origin) hperm hnodup
    (fun needle hneedle t ht => ht.replaceAll hmarker (hne needle hneedle))
    (fun a b hab hba t ht => ?_) hstems
  have ha : a ∈ needles := hab.subset mem_cons_self
  have hb : b ∈ needles := hab.subset (mem_cons_of_mem a mem_cons_self)
  have hdistinct : a ≠ b := by
    rintro rfl
    have htwice := hnodup.sublist hab
    simp at htwice
  have hsafe := hsafe a b hab hba
  by_cases hina : a <:+: marker
  · -- the marker has `a`, so `b` does not occur
    have horigin : ¬ b <:+: origin := fun h => hsafe (.inr (.inl ⟨hina, h⟩))
    have hinb : ¬ b <:+: marker := fun h => hdistinct (hone a ha b hb hina h)
    exact (replaceAll_comm_of_stems hmarker ht (hne a ha) (hplain b hb) horigin hinb).symm
  · by_cases hinb : b <:+: marker
    · have horigin : ¬ a <:+: origin := fun h => hsafe (.inr (.inr ⟨hinb, h⟩))
      exact replaceAll_comm_of_stems hmarker ht (hne b hb) (hplain a ha) horigin hina
    · refine (replaceAll_comm hmarker (hne a ha) (hne b hb) (hplain a ha) (hplain b hb) hina hinb
        fun hoverlap => ?_).symm
      obtain ⟨part, hpart, hword, hwithin⟩ :=
        hoverlap.exists_plain (hne a ha) (hne b hb) (hplain a ha) (hplain b hb)
      rcases ht part hword hpart with horigin | hin
      · exact hsafe (.inl (hwithin.of_infix horigin))
      · obtain ⟨i, -, hi, -⟩ := hwithin
        exact hina ((hi.isInfix.trans (drop_suffix i part).isInfix).trans hin)

end

end RelayIde.Library
