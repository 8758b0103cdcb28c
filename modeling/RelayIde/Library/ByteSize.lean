import RelayIde.Library.Json

/-!
# Byte Sizes

How many bytes a text takes in UTF-8, and how many its JSON can take.

- `byteLength_stringify_obj_le` — an object takes no more than its properties together
-/

open List

namespace RelayIde.Library

namespace JsText

/-! ## Text -/

/-- The bytes of a code unit that is not part of a surrogate pair. -/
def unitBytes (u : ℕ) : ℕ :=
  if u < 0x80 then 1 else if u < 0x800 then 2 else 3

/-- `Buffer.byteLength(text, 'utf8')`. -/
def byteLength : JsText → ℕ
  | [] => 0
  | [u] => unitBytes u
  | u :: v :: rest =>
    if isHighSurrogate u && isLowSurrogate v then 4 + byteLength rest
    else unitBytes u + byteLength (v :: rest)

attribute [local simp] byteLength toWellFormed

theorem unitBytes_pos (u : ℕ) : 0 < unitBytes u := by
  unfold unitBytes
  split_ifs <;> decide

theorem unitBytes_le (u : ℕ) : unitBytes u ≤ 3 := by
  unfold unitBytes
  split_ifs <;> decide

theorem unitBytes_of_high {u : ℕ} (h : isHighSurrogate u = true) : unitBytes u = 3 := by
  have hu := (isHighSurrogate_iff u).mp h
  unfold unitBytes
  rw [if_neg (by omega), if_neg (by omega)]

theorem byteLength_low_cons {v : ℕ} (h : isLowSurrogate v = true) (rest : JsText) :
    byteLength (v :: rest) = 3 + byteLength rest := by
  have hv := (isLowSurrogate_iff v).mp h
  have hunit : unitBytes v = 3 := by
    unfold unitBytes
    rw [if_neg (by omega), if_neg (by omega)]
  have hhigh : isHighSurrogate v = false := by
    rw [← Bool.not_eq_true, isHighSurrogate_iff]
    omega
  cases rest with
  | nil => exact hunit
  | cons w rest =>
    rw [byteLength, hhigh, Bool.false_and, if_neg Bool.false_ne_true, hunit]

variable (u : ℕ) (t : JsText)

/-- One more unit in front makes a text larger, even where it completes a pair. -/
theorem byteLength_lt_cons : byteLength t < byteLength (u :: t) := by
  cases t with
  | nil => exact unitBytes_pos u
  | cons v rest =>
    rw [byteLength]
    split
    · rename_i hpair
      rw [Bool.and_eq_true] at hpair
      rw [byteLength_low_cons hpair.2]
      omega
    · have hpos := unitBytes_pos u
      omega

theorem byteLength_cons_le :
    byteLength (u :: t) ≤ unitBytes u + byteLength t := by
  cases t with
  | nil => exact le_refl _
  | cons v rest =>
    rw [byteLength]
    split
    · rename_i hpair
      rw [Bool.and_eq_true] at hpair
      rw [byteLength_low_cons hpair.2, unitBytes_of_high hpair.1]
      omega
    · exact le_refl _

theorem byteLength_append_le (a b : JsText) :
    byteLength (a ++ b) ≤ byteLength a + byteLength b := by
  induction a using byteLength.induct with
  | case1 => rw [nil_append, byteLength, Nat.zero_add]
  | case2 u => exact byteLength_cons_le u b
  | case3 u v rest hpair ih =>
    rw [cons_append, cons_append, byteLength, if_pos hpair, byteLength, if_pos hpair]
    omega
  | case4 u v rest hpair ih =>
    rw [cons_append] at ih
    rw [cons_append, cons_append, byteLength, if_neg hpair, byteLength, if_neg hpair]
    omega

theorem byteLength_lt_append (a : JsText) {b : JsText} (hb : b ≠ []) :
    byteLength a < byteLength (a ++ b) := by
  induction a using byteLength.induct with
  | case1 =>
    obtain ⟨v, rest, rfl⟩ := exists_cons_of_ne_nil hb
    exact lt_of_le_of_lt (Nat.zero_le _) (byteLength_lt_cons v rest)
  | case2 u =>
    obtain ⟨v, rest, rfl⟩ := exists_cons_of_ne_nil hb
    rw [singleton_append, byteLength, byteLength]
    split
    · have hunit := unitBytes_le u
      omega
    · have hpos : 0 < byteLength (v :: rest) :=
        lt_of_le_of_lt (Nat.zero_le _) (byteLength_lt_cons v rest)
      omega
  | case3 u v rest hpair ih =>
    rw [cons_append, cons_append, byteLength, if_pos hpair, byteLength, if_pos hpair]
    omega
  | case4 u v rest hpair ih =>
    rw [cons_append] at ih
    rw [cons_append, cons_append, byteLength, if_neg hpair, byteLength, if_neg hpair]
    omega

theorem byteLength_lt_append_left {a : JsText} (ha : a ≠ []) (b : JsText) :
    byteLength b < byteLength (a ++ b) := by
  induction a with
  | nil => exact absurd rfl ha
  | cons u a ih =>
    have hstep := byteLength_lt_cons u (a ++ b)
    cases a with
    | nil => exact hstep
    | cons v a => exact (ih (cons_ne_nil v a)).trans hstep

theorem byteLength_le (t : JsText) : byteLength t ≤ 3 * t.length := by
  induction t with
  | nil => exact le_refl _
  | cons u t ih =>
    have hstep := byteLength_cons_le u t
    have hunit := unitBytes_le u
    rw [length_cons]
    omega

theorem byteLength_ascii_le {t : JsText} (h : ∀ u ∈ t, u < 0x80) : byteLength t ≤ t.length := by
  induction t with
  | nil => exact le_refl _
  | cons u t ih =>
    have hstep := byteLength_cons_le u t
    have hunit : unitBytes u = 1 := if_pos (h u mem_cons_self)
    have hrest := ih fun v hv => h v (mem_cons_of_mem _ hv)
    rw [length_cons]
    omega

/-! ## Parts of a text -/

theorem byteLength_le_of_isPrefix {a b : JsText} (h : a <+: b) : byteLength a ≤ byteLength b := by
  obtain ⟨s, rfl⟩ := h
  by_cases hs : s = []
  · rw [hs, append_nil]
  · exact (byteLength_lt_append a hs).le

theorem WellFormed.byteLength_append {a : JsText} (h : WellFormed a) (b : JsText) :
    byteLength (a ++ b) = byteLength a + byteLength b := by
  induction a using toWellFormed.induct with
  | case1 => rw [nil_append, byteLength, Nat.zero_add]
  | case2 u =>
    rw [WellFormed, toWellFormed, List.cons.injEq, replaceSurrogate_eq_iff, isSurrogate,
      Bool.or_eq_false_iff] at h
    cases b with
    | nil => rfl
    | cons v b =>
      have hpair : ¬(isHighSurrogate u && isLowSurrogate v) = true := by simp [h.1.1]
      rw [singleton_append, byteLength, byteLength, if_neg hpair]
  | case3 u v rest hpair ih =>
    rw [WellFormed, toWellFormed, if_pos hpair, List.cons.injEq, List.cons.injEq] at h
    rw [cons_append, cons_append, byteLength, if_pos hpair, byteLength, if_pos hpair, ih h.2.2,
      Nat.add_assoc]
  | case4 u v rest hpair ih =>
    rw [WellFormed, toWellFormed, if_neg hpair, List.cons.injEq] at h
    rw [cons_append, cons_append, byteLength, if_neg hpair, byteLength, if_neg hpair, ← cons_append,
      ih h.2, Nat.add_assoc]

/-- A character of two code units behind `before`. -/
structure Pair (t before : JsText) (u v : ℕ) : Prop where
  part : before ++ [u, v] <+: t
  high : isHighSurrogate u = true
  low : isLowSurrogate v = true
  whole : WellFormed before

variable {t before : JsText} {u v : ℕ}

theorem Pair.take (h : Pair t before u v) :
    t.take (before.length + 1) = before ++ [u] ∧ t.take (before.length + 2) = before ++ [u, v] := by
  obtain ⟨after, rfl⟩ := h.part
  rw [append_assoc]
  exact ⟨take_length_add_append 1, take_length_add_append 2⟩

theorem Pair.byteLength_half (h : Pair t before u v) :
    byteLength (before ++ [u]) = byteLength before + 3 ∧
      byteLength (before ++ [u, v]) = byteLength before + 4 := by
  rw [h.whole.byteLength_append, h.whole.byteLength_append]
  simp [byteLength, unitBytes_of_high h.high, h.high, h.low]

theorem WellFormed.take {t : JsText} (h : WellFormed t) (k : ℕ) :
    WellFormed (t.take k) ∨ ∃ before u v, Pair t before u v ∧ k = before.length + 1 := by
  induction t using toWellFormed.induct generalizing k with
  | case1 => exact .inl (by rw [take_nil]; rfl)
  | case2 u =>
    cases k with
    | zero => exact .inl rfl
    | succ k => exact .inl (by rw [take_succ_cons, take_nil]; exact h)
  | case3 u v rest hpair ih =>
    rw [WellFormed, toWellFormed, if_pos hpair, List.cons.injEq, List.cons.injEq] at h
    have huv : WellFormed [u, v] := by rw [WellFormed, toWellFormed, if_pos hpair]; rfl
    rw [Bool.and_eq_true] at hpair
    rcases k with _ | _ | k
    · exact .inl rfl
    · exact .inr ⟨[], u, v, ⟨⟨rest, rfl⟩, hpair.1, hpair.2, rfl⟩, rfl⟩
    · obtain hrest | ⟨before, u', v', hp, rfl⟩ := ih h.2.2 k
      · exact .inl (huv.append hrest)
      · refine .inr ⟨u :: v :: before, u', v', ⟨?_, hp.high, hp.low, huv.append hp.whole⟩, rfl⟩
        exact cons_prefix_cons.mpr ⟨rfl, cons_prefix_cons.mpr ⟨rfl, hp.part⟩⟩
  | case4 u v rest hpair ih =>
    rw [WellFormed, toWellFormed, if_neg hpair, List.cons.injEq] at h
    have hu : WellFormed [u] := by rw [WellFormed, toWellFormed, h.1]
    cases k with
    | zero => exact .inl rfl
    | succ k =>
      obtain hrest | ⟨before, u', v', hp, rfl⟩ := ih h.2 k
      · exact .inl (hu.append hrest)
      · refine .inr ⟨u :: before, u', v', ⟨?_, hp.high, hp.low, hu.append hp.whole⟩, rfl⟩
        exact cons_prefix_cons.mpr ⟨rfl, hp.part⟩

/-! ## String literals -/

/-- An escape is at most six characters of one byte; what is not escaped is one unit. -/
theorem byteLength_quoteUnit_le (u : ℕ) : byteLength (quoteUnit u) ≤ 6 := by
  unfold quoteUnit
  cases hl : escapeLetter? u with
  | some letter => exact (byteLength_le [92, letter]).trans (le_refl 6)
  | none =>
    dsimp only
    split
    · have hdigit (d : ℕ) : hexDigit (d % 16) < 0x80 := by
        unfold hexDigit
        split_ifs <;> omega
      refine byteLength_ascii_le fun v hv => ?_
      simp only [unicodeEscape, mem_cons, not_mem_nil, or_false] at hv
      obtain rfl | rfl | rfl | rfl | rfl | rfl := hv
      · decide
      · decide
      all_goals exact hdigit _
    · exact (unitBytes_le u).trans (by decide)

theorem byteLength_quoteBody_le (t : JsText) : byteLength (quoteBody t) ≤ 6 * t.length := by
  induction t using quoteBody.induct with
  | case1 => exact le_refl _
  | case2 u => exact byteLength_quoteUnit_le u
  | case3 u v rest hpair ih =>
    rw [quoteBody, if_pos hpair, byteLength, if_pos hpair, length_cons, length_cons]
    omega
  | case4 u v rest hpair ih =>
    have hunit := byteLength_quoteUnit_le u
    have hparts := byteLength_append_le (quoteUnit u) (quoteBody (v :: rest))
    rw [quoteBody, if_neg hpair, length_cons]
    omega

end JsText

/-! ## JSON -/

namespace Json

open JsText (quoteBody byteLength byteLength_append_le byteLength_cons_le
  byteLength_quoteBody_le unitBytes)

variable {Num : Type}

theorem byteLength_quote_le (t : JsText) : byteLength (quote t) ≤ 2 + 6 * t.length := by
  have hopen := byteLength_cons_le 34 (quoteBody t ++ [34])
  have hbody := byteLength_append_le (quoteBody t) [34]
  have hquote := byteLength_quoteBody_le t
  have hunit : unitBytes 34 = 1 := rfl
  have hone : byteLength [34] = 1 := rfl
  rw [quote]
  omega

/-- What the properties of an object take, each with its colon and its comma. -/
def propertiesBytes (F : NumberFormat Num) (properties : List (JsText × Json Num)) : ℕ :=
  (properties.map fun p => byteLength (quote p.1) + byteLength (stringify F p.2) + 2).sum

variable (F : NumberFormat Num)

@[simp]
theorem propertiesBytes_nil : propertiesBytes F [] = 0 := rfl

@[simp]
theorem propertiesBytes_cons (p : JsText × Json Num)
    (rest : List (JsText × Json Num)) :
    propertiesBytes F (p :: rest) =
      byteLength (quote p.1) + byteLength (stringify F p.2) + 2 + propertiesBytes F rest := rfl

@[simp]
theorem propertiesBytes_append (a b : List (JsText × Json Num)) :
    propertiesBytes F (a ++ b) = propertiesBytes F a + propertiesBytes F b := by
  rw [propertiesBytes, map_append, sum_append]
  rfl

private theorem byteLength_property_le {mark : ℕ}
    (hmark : unitBytes mark = 1) (key : JsText) (v : Json Num) (rest : JsText) :
    byteLength (mark :: (quote key ++ 58 :: (stringify F v ++ rest))) ≤
      byteLength (quote key) + byteLength (stringify F v) + 2 + byteLength rest := by
  have h1 := byteLength_cons_le mark (quote key ++ 58 :: (stringify F v ++ rest))
  have h2 := byteLength_append_le (quote key) (58 :: (stringify F v ++ rest))
  have h3 := byteLength_cons_le 58 (stringify F v ++ rest)
  have h4 := byteLength_append_le (stringify F v) rest
  have hcolon : unitBytes 58 = 1 := rfl
  omega

variable (properties : List (JsText × Json Num))

theorem byteLength_stringifyProperties_le :
    byteLength (stringifyProperties F properties) ≤ propertiesBytes F properties + 1 := by
  induction properties with
  | nil =>
    exact le_refl _
  | cons p rest ih =>
    obtain ⟨key, v⟩ := p
    have hstep := byteLength_property_le F (show unitBytes 44 = 1 from rfl) key v
      (stringifyProperties F rest)
    simp only [stringifyProperties, propertiesBytes_cons]
    omega

theorem byteLength_stringify_obj_le :
    byteLength (stringify F (.obj properties)) ≤ propertiesBytes F properties + 2 := by
  cases properties with
  | nil =>
    exact le_refl _
  | cons p rest =>
    obtain ⟨key, v⟩ := p
    have hstep := byteLength_property_le F (show unitBytes 123 = 1 from rfl) key v
      (stringifyProperties F rest)
    have hrest := byteLength_stringifyProperties_le F rest
    simp only [stringify, propertiesBytes_cons]
    omega

/-! ## Numbers a double counts exactly -/

theorem length_decimal_le {n digits : ℕ} (hpos : 0 < digits) (h : n < 10 ^ digits) :
    (decimal n).length ≤ digits := by
  rw [decimal, length_map]
  exact Nat.toDigits_length 10 n digits hpos h

theorem decimal_ne_nullWord (n : ℕ) : decimal n ≠ nullWord :=
  decimal_ne_of_not_digit (by decide) _ _

/-- The naturals below `2 ^ 53`, and negative zero (`none`).  A larger count is the largest. -/
def exactCounting : NumberFormat (Option (Fin (2 ^ 53))) where
  read t :=
    if t = [45, 48] then some none
    else if h : decimalValue t < 2 ^ 53 then some (some ⟨decimalValue t, h⟩) else none
  print n := decimal ((n.map Fin.val).getD 0)
  ofNat n := some ⟨min n (2 ^ 53 - 1), by omega⟩
  negativeZero := none
  token n := by
    refine .inr ⟨decimal_ne_nil _, fun u hu => ?_, ?_⟩
    · have hdigit := mem_decimal hu
      simp [isNumberUnit, hdigit.1, hdigit.2]
    · rw [if_neg (decimal_ne_of_not_digit (by decide) _ _), decimalValue_decimal]
      cases n with
      | none => rfl
      | some k =>
        rw [dif_pos (show (((some k).map Fin.val).getD 0) < 2 ^ 53 from k.isLt)]
        rfl
  read_print n _ hn := by
    cases n with
    | none => exact absurd rfl hn
    | some k =>
      simp only [Option.map_some, Option.getD_some]
      rw [if_neg (decimal_ne_of_not_digit (by decide) _ _)]
      simp only [decimalValue_decimal, k.isLt, dif_pos]
  print_negativeZero := rfl
  print_ofNat k := decimal_ne_nullWord _
  ofNat_ne_negativeZero k := by simp
  one_ne_zero := by decide

theorem length_exactCounting_print (n : Option (Fin (2 ^ 53))) :
    (exactCounting.print n).length ≤ 16 := by
  apply length_decimal_le (by decide)
  cases n with
  | none => decide
  | some k => exact k.isLt.trans (by decide)

theorem exactCounting_ofNat_inj {a b : ℕ} (ha : a < 2 ^ 53) (hb : b < 2 ^ 53)
    (h : exactCounting.ofNat a = exactCounting.ofNat b) : a = b := by
  have hval := congrArg Fin.val (Option.some.inj h)
  dsimp only at hval
  omega

end Json

end RelayIde.Library
