import Mathlib.Data.List.Basic
import Mathlib.Tactic.Common
import Mathlib.Tactic.IntervalCases

/-!
# ECMAScript Text

Strings as sequences of UTF-16 code units, which is what ECMAScript programs compare, slice and
serialize.  Not every such sequence is Unicode text: a surrogate may stand alone, and an encoder
to UTF-8 replaces it.

- `readString_quoteBody` — reading inverts writing on every sequence of code units
-/

open List

namespace RelayIde.Library

/-- A string by its UTF-16 code units. -/
abbrev JsText := List ℕ

variable {t : JsText} {u : ℕ}

namespace JsText

/-! ## Code units -/

/-- The code units of a character. -/
def ofChar (c : Char) : JsText :=
  if c.toNat < 0x10000 then [c.toNat]
  else [0xD800 + (c.toNat - 0x10000) / 0x400, 0xDC00 + (c.toNat - 0x10000) % 0x400]

/-- The code units of a literal. -/
def utf16 (s : String) : JsText :=
  s.toList.flatMap ofChar

def isHighSurrogate (u : ℕ) : Bool :=
  decide (0xD800 ≤ u) && decide (u ≤ 0xDBFF)

def isLowSurrogate (u : ℕ) : Bool :=
  decide (0xDC00 ≤ u) && decide (u ≤ 0xDFFF)

def isSurrogate (u : ℕ) : Bool :=
  isHighSurrogate u || isLowSurrogate u

/-- A code unit that is not paired with a neighbour, in an encoding to UTF-8. -/
def replaceSurrogate (u : ℕ) : ℕ :=
  if isSurrogate u then 0xFFFD else u

/-- `String.prototype.toWellFormed`: an unpaired surrogate becomes U+FFFD, as it does in an
    encoder to UTF-8. -/
def toWellFormed : JsText → JsText
  | [] => []
  | [u] => [replaceSurrogate u]
  | u :: v :: rest =>
    if isHighSurrogate u && isLowSurrogate v then u :: v :: toWellFormed rest
    else replaceSurrogate u :: toWellFormed (v :: rest)

/-- No surrogate stands alone. -/
def WellFormed (t : JsText) : Prop :=
  toWellFormed t = t

instance (t : JsText) : Decidable (WellFormed t) := by
  unfold WellFormed
  infer_instance

theorem isHighSurrogate_iff (u : ℕ) : isHighSurrogate u = true ↔ 0xD800 ≤ u ∧ u ≤ 0xDBFF := by
  simp [isHighSurrogate]

theorem isLowSurrogate_iff (u : ℕ) : isLowSurrogate u = true ↔ 0xDC00 ≤ u ∧ u ≤ 0xDFFF := by
  simp [isLowSurrogate]

theorem isSurrogate_iff (u : ℕ) : isSurrogate u = true ↔ 0xD800 ≤ u ∧ u ≤ 0xDFFF := by
  rw [isSurrogate, Bool.or_eq_true, isHighSurrogate_iff, isLowSurrogate_iff]
  omega

theorem replaceSurrogate_eq_iff (u : ℕ) : replaceSurrogate u = u ↔ isSurrogate u = false := by
  unfold replaceSurrogate
  cases hu : isSurrogate u with
  | false => simp
  | true =>
    have hbound := (isSurrogate_iff u).mp hu
    simp only [if_true, Bool.true_eq_false, iff_false]
    omega

theorem wellFormed_of_forall (h : ∀ u ∈ t, isSurrogate u = false) : WellFormed t := by
  induction t using toWellFormed.induct with
  | case1 => rfl
  | case2 u =>
    rw [WellFormed, toWellFormed, (replaceSurrogate_eq_iff u).mpr (h u mem_cons_self)]
  | case3 u v rest hpair ih =>
    have hu := h u mem_cons_self
    rw [isSurrogate, Bool.or_eq_false_iff] at hu
    rw [hu.1] at hpair
    cases hpair
  | case4 u v rest hpair ih =>
    have hrest := ih fun w hw => h w (mem_cons_of_mem u hw)
    rw [WellFormed] at hrest ⊢
    rw [toWellFormed, if_neg hpair, hrest, (replaceSurrogate_eq_iff u).mpr (h u mem_cons_self)]

theorem toWellFormed_append (h : WellFormed t) (s : JsText) :
    toWellFormed (t ++ s) = t ++ toWellFormed s := by
  induction t using toWellFormed.induct with
  | case1 => rfl
  | case2 u =>
    rw [WellFormed, toWellFormed, List.cons.injEq, replaceSurrogate_eq_iff] at h
    have hu := h.1
    rw [isSurrogate, Bool.or_eq_false_iff] at hu
    cases s with
    | nil =>
      have hone : replaceSurrogate u = u := (replaceSurrogate_eq_iff u).mpr h.1
      simp [toWellFormed, hone]
    | cons v s =>
      rw [singleton_append, toWellFormed, hu.1, Bool.false_and, if_neg Bool.false_ne_true,
        (replaceSurrogate_eq_iff u).mpr h.1, singleton_append]
  | case3 u v rest hpair ih =>
    rw [WellFormed, toWellFormed, if_pos hpair, List.cons.injEq, List.cons.injEq] at h
    rw [cons_append, cons_append, toWellFormed, if_pos hpair, ih h.2.2, cons_append, cons_append]
  | case4 u v rest hpair ih =>
    rw [WellFormed, toWellFormed, if_neg hpair, List.cons.injEq] at h
    rw [cons_append, cons_append, toWellFormed, if_neg hpair, ← cons_append, ih h.2, h.1]
    rfl

theorem WellFormed.append {s : JsText} (ht : WellFormed t) (hs : WellFormed s) :
    WellFormed (t ++ s) := by
  rw [WellFormed, toWellFormed_append ht, hs]

theorem toWellFormed_ne_nil (h : t ≠ []) : toWellFormed t ≠ [] := by
  rcases t with _ | ⟨u, _ | ⟨v, rest⟩⟩
  · exact absurd rfl h
  · exact cons_ne_nil _ _
  · rw [toWellFormed]
    split <;> exact cons_ne_nil _ _

theorem WellFormed.cons {u : ℕ} (hu : u < 0xD800) {t : JsText} (ht : WellFormed t) :
    WellFormed (u :: t) := by
  have hone : WellFormed [u] := by
    apply wellFormed_of_forall
    intro v hv
    rw [mem_singleton.mp hv, ← Bool.not_eq_true, isSurrogate_iff]
    omega
  exact hone.append ht

/-! ## String literals -/

/-- A lower-case hexadecimal digit. -/
def hexDigit (d : ℕ) : ℕ :=
  if d < 10 then 48 + d else 87 + d

def hexValue? (u : ℕ) : Option ℕ :=
  if 48 ≤ u ∧ u ≤ 57 then some (u - 48)
  else if 97 ≤ u ∧ u ≤ 102 then some (u - 87)
  else if 65 ≤ u ∧ u ≤ 70 then some (u - 55)
  else none

/-- `\\uXXXX`. -/
def unicodeEscape (u : ℕ) : JsText :=
  [92, 117, hexDigit (u / 4096 % 16), hexDigit (u / 256 % 16), hexDigit (u / 16 % 16),
    hexDigit (u % 16)]

def escapeLetter? (u : ℕ) : Option ℕ :=
  if u = 8 then some 98
  else if u = 9 then some 116
  else if u = 10 then some 110
  else if u = 12 then some 102
  else if u = 13 then some 114
  else if u = 34 then some 34
  else if u = 92 then some 92
  else none

/-- A code unit that is not part of a surrogate pair, inside a literal. -/
def quoteUnit (u : ℕ) : JsText :=
  match escapeLetter? u with
  | some letter => [92, letter]
  | none => if decide (u < 32) || isSurrogate u then unicodeEscape u else [u]

/-- `QuoteJSONString` without the quotes: an unpaired surrogate is written as an escape. -/
def quoteBody : JsText → JsText
  | [] => []
  | [u] => quoteUnit u
  | u :: v :: rest =>
    if isHighSurrogate u && isLowSurrogate v then u :: v :: quoteBody rest
    else quoteUnit u ++ quoteBody (v :: rest)

def escapedUnit? (letter : ℕ) : Option ℕ :=
  if letter = 34 then some 34
  else if letter = 92 then some 92
  else if letter = 47 then some 47
  else if letter = 98 then some 8
  else if letter = 102 then some 12
  else if letter = 110 then some 10
  else if letter = 114 then some 13
  else if letter = 116 then some 9
  else none

/-- The value of four hexadecimal digits. -/
def hexValue4? (a b c d : ℕ) : Option ℕ :=
  match hexValue? a, hexValue? b, hexValue? c, hexValue? d with
  | some a, some b, some c, some d => some (a * 4096 + b * 256 + c * 16 + d)
  | _, _, _, _ => none

/-- The string after an opening quote, and the text behind its closing quote. -/
def readString : JsText → Option (JsText × JsText)
  | [] => none
  | u :: rest =>
    if u = 34 then some ([], rest)
    else if u = 92 then
      match rest with
      | [] => none
      | letter :: rest' =>
        if letter = 117 then
          match rest' with
          | a :: b :: c :: d :: rest'' =>
            match hexValue4? a b c d with
            | none => none
            | some u => (readString rest'').map fun p => (u :: p.1, p.2)
          | _ => none
        else
          match escapedUnit? letter with
          | none => none
          | some u => (readString rest').map fun p => (u :: p.1, p.2)
    else if u < 32 then none
    else (readString rest).map fun p => (u :: p.1, p.2)

/-! ## Reading inverts writing -/

theorem hexValue?_hexDigit {d : ℕ} (h : d < 16) : hexValue? (hexDigit d) = some d := by
  interval_cases d <;> rfl

theorem hexValue4?_digits (h : u < 65536) :
    hexValue4? (hexDigit (u / 4096 % 16)) (hexDigit (u / 256 % 16)) (hexDigit (u / 16 % 16))
      (hexDigit (u % 16)) = some u := by
  unfold hexValue4?
  rw [hexValue?_hexDigit (Nat.mod_lt _ (by decide)), hexValue?_hexDigit (Nat.mod_lt _ (by decide)),
    hexValue?_hexDigit (Nat.mod_lt _ (by decide)), hexValue?_hexDigit (Nat.mod_lt _ (by decide))]
  simp only [Option.some.injEq]
  omega

theorem readString_unicodeEscape (h : u < 65536) (t : JsText) :
    readString (unicodeEscape u ++ t) = (readString t).map fun p => (u :: p.1, p.2) := by
  rw [unicodeEscape]
  rw [readString.eq_def]
  simp [hexValue4?_digits h]

theorem readString_plain (hquote : u ≠ 34) (hslash : u ≠ 92) (hctl : ¬ u < 32)
    (t : JsText) : readString (u :: t) = (readString t).map fun p => (u :: p.1, p.2) := by
  rw [readString.eq_def]
  simp only [hquote, hslash, hctl, if_false]

theorem readString_quoteUnit (u : ℕ) (t : JsText) :
    readString (quoteUnit u ++ t) = (readString t).map fun p => (u :: p.1, p.2) := by
  have hletter : ∀ letter, escapeLetter? u = some letter →
      letter ≠ 117 ∧ escapedUnit? letter = some u := by
    intro letter h
    unfold escapeLetter? at h
    split_ifs at h <;> cases h <;> subst_vars <;> decide
  have hplain : escapeLetter? u = none → u ≠ 34 ∧ u ≠ 92 := by
    intro h
    unfold escapeLetter? at h
    split_ifs at h
    exact ⟨by assumption, by assumption⟩
  unfold quoteUnit
  cases hl : escapeLetter? u with
  | some letter =>
    obtain ⟨hne, hunit⟩ := hletter letter hl
    show readString (92 :: letter :: t) = _
    rw [readString.eq_def]
    simp [hne, hunit]
  | none =>
    obtain ⟨hquote, hslash⟩ := hplain hl
    dsimp only
    split
    · rename_i hescape
      rw [Bool.or_eq_true, decide_eq_true_eq, isSurrogate_iff] at hescape
      exact readString_unicodeEscape (by omega) t
    · rename_i hescape
      rw [Bool.or_eq_true, decide_eq_true_eq, not_or] at hescape
      exact readString_plain hquote hslash hescape.1 t

theorem readString_quoteBody (t rest : JsText) :
    readString (quoteBody t ++ 34 :: rest) = some (t, rest) := by
  have hclose : readString (34 :: rest) = some ([], rest) := by
    rw [readString.eq_def]
    simp
  induction t using quoteBody.induct with
  | case1 => exact hclose
  | case2 u =>
    rw [quoteBody, readString_quoteUnit, hclose]
    rfl
  | case3 u v rest' hpair ih =>
    have hunits := hpair
    rw [Bool.and_eq_true, isHighSurrogate_iff, isLowSurrogate_iff] at hunits
    rw [quoteBody, if_pos hpair, cons_append, cons_append,
      readString_plain (by omega) (by omega) (by omega),
      readString_plain (by omega) (by omega) (by omega), ih]
    rfl
  | case4 u v rest' hpair ih =>
    rw [quoteBody, if_neg hpair, append_assoc, readString_quoteUnit, ih]
    rfl

theorem wellFormed_of_lt (h : ∀ u ∈ t, u < 0xD800) : WellFormed t := by
  apply wellFormed_of_forall
  intro u hu
  have hlt := h u hu
  rw [← Bool.not_eq_true, isSurrogate_iff]
  omega

theorem hexDigit_lt (d : ℕ) (h : d < 16) : hexDigit d < 0xD800 := by
  unfold hexDigit
  split <;> omega

theorem wellFormed_unicodeEscape (u : ℕ) : WellFormed (unicodeEscape u) := by
  apply wellFormed_of_lt
  have hmod (n : ℕ) : hexDigit (n % 16) < 0xD800 := hexDigit_lt _ (Nat.mod_lt _ (by decide))
  intro v hv
  simp only [unicodeEscape, mem_cons, not_mem_nil, or_false] at hv
  rcases hv with rfl | rfl | rfl | rfl | rfl | rfl
  · decide
  · decide
  · exact hmod _
  · exact hmod _
  · exact hmod _
  · exact hmod _

theorem wellFormed_quoteUnit (u : ℕ) : WellFormed (quoteUnit u) := by
  unfold quoteUnit
  cases hl : escapeLetter? u with
  | some letter =>
    have hletter : letter < 0xD800 := by
      unfold escapeLetter? at hl
      split_ifs at hl <;> cases hl <;> decide
    apply wellFormed_of_lt
    intro w hw
    rcases mem_cons.mp hw with rfl | hw
    · decide
    · rwa [mem_singleton.mp hw]
  | none =>
    dsimp only
    split
    · exact wellFormed_unicodeEscape u
    · rename_i hescape
      rw [Bool.or_eq_true, not_or, Bool.not_eq_true, Bool.not_eq_true] at hescape
      apply wellFormed_of_forall
      intro w hw
      rw [mem_singleton.mp hw]
      exact hescape.2

/-- A literal holds no unpaired surrogate, whatever it was written from. -/
theorem wellFormed_quoteBody (t : JsText) : WellFormed (quoteBody t) := by
  induction t using quoteBody.induct with
  | case1 => rfl
  | case2 u => exact wellFormed_quoteUnit u
  | case3 u v rest' hpair ih =>
    rw [quoteBody, if_pos hpair, WellFormed, toWellFormed, if_pos hpair, ih]
  | case4 u v rest' hpair ih =>
    rw [quoteBody, if_neg hpair]
    exact (wellFormed_quoteUnit u).append ih

end JsText

end RelayIde.Library
