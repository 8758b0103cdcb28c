import RelayIde.Library.JsText

/-!
# Code Points

The code points of a sequence of code units: a pair of surrogates is one, any other unit is one by
itself.  Code points order texts in the way that their UTF-8 encodings are ordered.

- `between_iff_prefix` — the texts between a text and its successor are those that start with it
-/

namespace RelayIde.Library.JsText

open List

/-- A code point that is no surrogate. -/
def IsScalar (c : ℕ) : Prop := c < 0xD800 ∨ (0xE000 ≤ c ∧ c ≤ 0x10FFFF)

instance (c : ℕ) : Decidable (IsScalar c) := inferInstanceAs (Decidable (_ ∨ _))

/-- `[...text]`. -/
def codePoints : JsText → List ℕ
  | [] => []
  | [u] => [u]
  | u :: v :: rest =>
    if isHighSurrogate u && isLowSurrogate v then
      (0x10000 + (u - 0xD800) * 0x400 + (v - 0xDC00)) :: codePoints rest
    else u :: codePoints (v :: rest)

/-- `String.fromCodePoint`. -/
def ofCodePoint (c : ℕ) : JsText :=
  if c < 0x10000 then [c]
  else [0xD800 + (c - 0x10000) / 0x400, 0xDC00 + (c - 0x10000) % 0x400]

def ofCodePoints (cs : List ℕ) : JsText := cs.flatMap ofCodePoint

theorem codePoints_ofCodePoint_append {c : ℕ} (hc : IsScalar c) (t : JsText) :
    codePoints (ofCodePoint c ++ t) = c :: codePoints t := by
  unfold ofCodePoint
  split_ifs with hsmall
  · have hhigh : isHighSurrogate c = false := by
      rw [Bool.eq_false_iff, ne_eq, isHighSurrogate_iff]
      unfold IsScalar at hc
      omega
    cases t with
    | nil => rfl
    | cons v rest => simp [codePoints, hhigh]
  · have hle : c ≤ 0x10FFFF := by
      unfold IsScalar at hc
      omega
    have hhigh : isHighSurrogate (0xD800 + (c - 0x10000) / 0x400) = true := by
      rw [isHighSurrogate_iff]
      omega
    have hlow : isLowSurrogate (0xDC00 + (c - 0x10000) % 0x400) = true := by
      rw [isLowSurrogate_iff]
      omega
    simp only [cons_append, nil_append, codePoints, hhigh, hlow, Bool.and_self, if_true,
      List.cons.injEq, and_true]
    omega

theorem codePoints_ofCodePoints {cs : List ℕ} (hcs : ∀ c ∈ cs, IsScalar c) :
    codePoints (ofCodePoints cs) = cs := by
  induction cs with
  | nil => rfl
  | cons c cs ih =>
    unfold ofCodePoints at ih ⊢
    rw [flatMap_cons, codePoints_ofCodePoint_append (hcs c mem_cons_self),
      ih fun d hd => hcs d (mem_cons_of_mem _ hd)]

/-! ## Successors -/

/-- The next scalar value, if there is one. -/
def successor? (c : ℕ) : Option ℕ :=
  let next := c + 1
  let next := if 0xD800 ≤ next ∧ next ≤ 0xDFFF then 0xE000 else next
  if 0x10FFFF < next then none else some next

theorem lt_successor_iff {c n : ℕ} (hn : successor? c = some n) {x : ℕ} (hx : IsScalar x) :
    x < n ↔ x ≤ c := by
  unfold successor? at hn
  unfold IsScalar at hx
  dsimp only at hn
  split_ifs at hn with hskip hmax hmax
  · cases hn
    omega
  · cases hn
    omega

theorem isScalar_successor {c n : ℕ} (hn : successor? c = some n) : IsScalar n := by
  unfold successor? at hn
  unfold IsScalar
  dsimp only at hn
  split_ifs at hn with hskip hmax hmax
  · cases hn
    omega
  · cases hn
    omega

/-- The texts from a text on, and before its successor, are those that start with it. -/
theorem between_iff_prefix {stem : List ℕ} {c n : ℕ} (hn : successor? c = some n) {t : List ℕ}
    (ht : ∀ x ∈ t, IsScalar x) : (¬t < stem ++ [c] ∧ t < stem ++ [n]) ↔ stem ++ [c] <+: t := by
  induction stem generalizing t with
  | nil =>
    cases t with
    | nil => simp
    | cons x t =>
      have hx := lt_successor_iff hn (ht x mem_cons_self)
      rw [nil_append, nil_append, cons_lt_cons_iff, cons_lt_cons_iff, cons_prefix_cons]
      simp only [not_lt_nil, and_false, or_false, nil_prefix, and_true]
      omega
  | cons s stem ih =>
    cases t with
    | nil => simp
    | cons x t =>
      have hrest := ih fun y hy => ht y (mem_cons_of_mem _ hy)
      rw [cons_append, cons_append, cons_lt_cons_iff, cons_lt_cons_iff, cons_prefix_cons, ← hrest]
      constructor
      · rintro ⟨hnot, hlt⟩
        rw [not_or, not_and] at hnot
        obtain rfl : s = x := by
          rcases hlt with hlt | ⟨heq, -⟩
          · exact absurd hlt hnot.1
          · exact heq.symm
        exact ⟨rfl, hnot.2 rfl, by simpa using hlt⟩
      · rintro ⟨rfl, hnot, hlt⟩
        exact ⟨by simpa using hnot, .inr ⟨rfl, hlt⟩⟩

end RelayIde.Library.JsText
