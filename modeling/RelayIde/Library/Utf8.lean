import Mathlib.Data.List.Basic
import Mathlib.Tactic.Common

/-!
# UTF-8

Text to bytes, and bytes to text the way a replacing decoder reads them: what is no character
becomes U+FFFD, one for each longest piece that could have started one.

- `decode_encode_append` — encoded text decodes to itself, whatever follows it
-/

namespace RelayIde.Library.Utf8

open List

/-- Bytes as numbers below 256. -/
abbrev Bytes := List ℕ

def encodeChar (c : Char) : Bytes :=
  if c.toNat < 0x80 then [c.toNat]
  else if c.toNat < 0x800 then [0xC0 + c.toNat / 64, 0x80 + c.toNat % 64]
  else if c.toNat < 0x10000 then
    [0xE0 + c.toNat / 4096, 0x80 + c.toNat / 64 % 64, 0x80 + c.toNat % 64]
  else
    [0xF0 + c.toNat / 262144, 0x80 + c.toNat / 4096 % 64, 0x80 + c.toNat / 64 % 64,
      0x80 + c.toNat % 64]

def encode (t : List Char) : Bytes :=
  t.flatMap encodeChar

/-- A character begun: the bytes it still needs, its value so far and the range of its next
    byte. -/
structure Pending where
  needed : ℕ
  value : ℕ
  lower : ℕ := 0x80
  upper : ℕ := 0xBF

/-- A byte between characters. -/
def start (b : ℕ) : List Char × Option Pending :=
  if b < 0x80 then ([Char.ofNat b], none)
  else if 0xC2 ≤ b ∧ b ≤ 0xDF then ([], some { needed := 1, value := b - 0xC0 })
  else if 0xE0 ≤ b ∧ b ≤ 0xEF then
    ([], some
      { needed := 2
        value := b - 0xE0
        lower := if b = 0xE0 then 0xA0 else 0x80
        upper := if b = 0xED then 0x9F else 0xBF })
  else if 0xF0 ≤ b ∧ b ≤ 0xF4 then
    ([], some
      { needed := 3
        value := b - 0xF0
        lower := if b = 0xF0 then 0x90 else 0x80
        upper := if b = 0xF4 then 0x8F else 0xBF })
  else (['\uFFFD'], none)

/-- One byte: the characters it completes and the character it leaves begun. -/
def step : Option Pending → ℕ → List Char × Option Pending
  | none, b => start b
  | some p, b =>
    if p.lower ≤ b ∧ b ≤ p.upper then
      if p.needed = 1 then ([Char.ofNat (p.value * 64 + (b - 0x80))], none)
      else ([], some { needed := p.needed - 1, value := p.value * 64 + (b - 0x80) })
    else ('\uFFFD' :: (start b).1, (start b).2)

def decodeFrom : Option Pending → Bytes → List Char
  | none, [] => []
  | some _, [] => ['\uFFFD']
  | pending, b :: rest => (step pending b).1 ++ decodeFrom (step pending b).2 rest

/-- `buffer.toString('utf-8')`. -/
def decode (bytes : Bytes) : List Char :=
  decodeFrom none bytes

/-! ## Reading what was written -/

theorem decodeFrom_cons (pending : Option Pending) (b : ℕ) (rest : Bytes) :
    decodeFrom pending (b :: rest) =
      (step pending b).1 ++ decodeFrom (step pending b).2 rest := by
  cases pending <;> rfl

variable {p : Pending} {b : ℕ}

theorem decodeFrom_last (hrange : p.lower ≤ b ∧ b ≤ p.upper)
    (hneeded : p.needed = 1) (rest : Bytes) :
    decodeFrom (some p) (b :: rest) =
      Char.ofNat (p.value * 64 + (b - 0x80)) :: decodeFrom none rest := by
  rw [decodeFrom_cons, step, if_pos hrange, if_pos hneeded]
  rfl

theorem decodeFrom_more (hrange : p.lower ≤ b ∧ b ≤ p.upper)
    (hneeded : p.needed ≠ 1) (rest : Bytes) :
    decodeFrom (some p) (b :: rest) =
      decodeFrom (some { needed := p.needed - 1, value := p.value * 64 + (b - 0x80) }) rest := by
  rw [decodeFrom_cons, step, if_pos hrange, if_neg hneeded]
  rfl

theorem toNat_bounds (c : Char) : c.toNat < 0xD800 ∨ (0xDFFF < c.toNat ∧ c.toNat < 0x110000) :=
  c.valid

private theorem ofNat_eq {c : Char} {n : ℕ} (h : n = c.toNat) : Char.ofNat n = c := by
  rw [h, Char.ofNat_toNat]

theorem decodeFrom_encodeChar (c : Char) (rest : Bytes) :
    decodeFrom none (encodeChar c ++ rest) = c :: decodeFrom none rest := by
  have hbounds := toNat_bounds c
  unfold encodeChar
  split
  · -- one byte
    rename_i h1
    rw [singleton_append, decodeFrom_cons, step, start, if_pos h1, ofNat_eq rfl]
    rfl
  · split
    · -- two bytes
      rename_i h1 h2
      have hlead : start (0xC0 + c.toNat / 64) =
          ([], some { needed := 1, value := 0xC0 + c.toNat / 64 - 0xC0 }) := by
        rw [start, if_neg (by omega), if_pos (by omega)]
      rw [cons_append, singleton_append, decodeFrom_cons, step, hlead, nil_append,
        decodeFrom_last (by dsimp only; omega) rfl]
      dsimp only
      rw [@ofNat_eq c _ (by omega)]
    · split
      · -- three bytes
        rename_i h1 h2 h3
        have hlead : start (0xE0 + c.toNat / 4096) =
            ([], some
              { needed := 2
                value := 0xE0 + c.toNat / 4096 - 0xE0
                lower := if 0xE0 + c.toNat / 4096 = 0xE0 then 0xA0 else 0x80
                upper := if 0xE0 + c.toNat / 4096 = 0xED then 0x9F else 0xBF }) := by
          rw [start, if_neg (by omega), if_neg (by omega), if_pos (by omega)]
        rw [cons_append, cons_append, singleton_append, decodeFrom_cons, step,
          hlead, nil_append, decodeFrom_more (by dsimp only; split <;> split <;> omega)
            (by dsimp only; omega),
          decodeFrom_last (by dsimp only; omega) rfl]
        dsimp only
        rw [@ofNat_eq c _ (by omega)]
      · -- four bytes
        rename_i h1 h2 h3
        have hlead : start (0xF0 + c.toNat / 262144) =
            ([], some
              { needed := 3
                value := 0xF0 + c.toNat / 262144 - 0xF0
                lower := if 0xF0 + c.toNat / 262144 = 0xF0 then 0x90 else 0x80
                upper := if 0xF0 + c.toNat / 262144 = 0xF4 then 0x8F else 0xBF }) := by
          rw [start, if_neg (by omega), if_neg (by omega), if_neg (by omega), if_pos (by omega)]
        rw [cons_append, cons_append, cons_append, singleton_append,
          decodeFrom_cons, step, hlead, nil_append,
          decodeFrom_more (by dsimp only; split <;> split <;> omega) (by dsimp only; omega),
          decodeFrom_more (by dsimp only; omega) (by dsimp only; omega),
          decodeFrom_last (by dsimp only; omega) rfl]
        dsimp only
        rw [@ofNat_eq c _ (by omega)]

/-- **Encoded text decodes to itself**, whatever follows it. -/
theorem decode_encode_append (t : List Char) (rest : Bytes) :
    decode (encode t ++ rest) = t ++ decode rest := by
  induction t with
  | nil => rfl
  | cons c t ih =>
    show decodeFrom none ((encodeChar c ++ encode t) ++ rest) = c :: (t ++ decode rest)
    rw [append_assoc, decodeFrom_encodeChar]
    exact congrArg (c :: ·) ih

theorem decode_encode (t : List Char) : decode (encode t) = t := by
  have h := decode_encode_append t []
  rwa [append_nil, show decode [] = [] from rfl, append_nil] at h

theorem encode_append (t t' : List Char) : encode (t ++ t') = encode t ++ encode t' :=
  flatMap_append

end RelayIde.Library.Utf8
