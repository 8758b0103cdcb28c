import Mathlib.Data.List.Infix
import Mathlib.Tactic.IntervalCases
import RelayIde.Library.Utf8

/-!
# Percent Encoding

The escapes of a URI component: unreserved characters stand for themselves, every other one for the
bytes of its UTF-8 encoding, two hexadecimal digits each.

- `joined_ne` — two encoded components around a colon are not the second one
-/

namespace RelayIde.Library.Percent

open RelayIde.Library.Utf8 List

/-- The characters that stand for themselves. -/
def unreserved : List Char :=
  "ABCDEFGHIJKLMNOPQRSTUVWXYZabcdefghijklmnopqrstuvwxyz0123456789-_.!~*'()".toList

def hexDigit (n : ℕ) : Char := "0123456789ABCDEF".toList.getD n '0'

def escape (b : ℕ) : List Char := ['%', hexDigit (b / 16), hexDigit (b % 16)]

def encodeChar (c : Char) : List Char :=
  if c ∈ unreserved then [c] else (Utf8.encodeChar c).flatMap escape

def encodeChars (t : List Char) : List Char := t.flatMap encodeChar

def encodeURIComponent (s : String) : String := String.ofList (encodeChars s.toList)

/-! ## Two components -/

/-- Two encoded components joined by a colon. -/
def joined (s t : String) : String := encodeURIComponent s ++ ":" ++ encodeURIComponent t

theorem toList_joined (s t : String) :
    (joined s t).toList = encodeChars s.toList ++ ':' :: encodeChars t.toList := by
  simp [joined, encodeURIComponent]

theorem length_encodeChars (t : List Char) : t.length ≤ (encodeChars t).length := by
  induction t with
  | nil => exact Nat.le_refl _
  | cons c t ih =>
    have hpos : 1 ≤ (encodeChar c).length := by
      unfold encodeChar
      split
      · exact Nat.le_refl _
      · unfold Utf8.encodeChar
        split_ifs <;> simp [escape]
    rw [encodeChars, flatMap_cons, length_append, ← encodeChars, length_cons]
    omega

theorem joined_ne (s t : String) : joined s t ≠ t := by
  intro h
  have hlength := congrArg (fun s : String => s.toList.length) h
  simp only [toList_joined, length_append, length_cons] at hlength
  have := length_encodeChars t.toList
  omega

end RelayIde.Library.Percent
