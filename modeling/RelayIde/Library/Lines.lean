import Mathlib.Data.List.Basic
import Mathlib.Data.List.TakeWhile
import RelayIde.Library.Segments
import RelayIde.Library.Text

/-!
# Lines

Text cut at line feeds, and what of a line survives trimming.

- `trim_space_append` — white space in front of a line does not matter
-/

namespace RelayIde.Library.Lines

open List

open Text (isSpace)

/-- `split('\n')`, the last piece apart: it is not terminated. -/
def splitLines : List Char → List (List Char) × List Char
  | [] => ([], [])
  | c :: t =>
    if c = '\n' then ([] :: (splitLines t).1, (splitLines t).2)
    else
      match (splitLines t).1 with
      | [] => ([], c :: (splitLines t).2)
      | line :: lines => ((c :: line) :: lines, (splitLines t).2)

/-- A text after a piece without line feed. -/
def prepend (piece : List Char) : List (List Char) × List Char → List (List Char) × List Char
  | ([], rest) => ([], piece ++ rest)
  | (line :: lines, rest) => ((piece ++ line) :: lines, rest)

theorem prepend_eq (piece : List Char) (s : List (List Char) × List Char) :
    prepend piece s = joinFront piece s := by
  rcases s with ⟨_ | ⟨line, lines⟩, rest⟩ <;> rfl

theorem splitLines_eq (t : List Char) : splitLines t = segments '\n' t := by
  induction t with
  | nil => rfl
  | cons c t ih =>
    rw [splitLines, segments, ih]
    split
    · rfl
    · rcases segments '\n' t with ⟨_ | ⟨line, lines⟩, rest⟩ <;> rfl

theorem splitLines_prepend {piece : List Char} (h : '\n' ∉ piece) (t : List Char) :
    splitLines (piece ++ t) = prepend piece (splitLines t) := by
  rw [splitLines_eq, splitLines_eq, prepend_eq, segments_joinFront h]

/-- A piece in front joins the first line, or what follows it if there is none. -/
theorem prepend_rest (piece : List Char) (s : List (List Char) × List Char) :
    (prepend piece s).2 = (if s.1 = [] then piece else []) ++ s.2 := by
  rcases s with ⟨lines, rest⟩
  cases lines <;> rfl

theorem not_mem_rest (t : List Char) : '\n' ∉ (splitLines t).2 := by
  rw [splitLines_eq]
  exact Library.not_mem_rest t

/-- **Cutting**: a text is split by splitting a front part and what it leaves over with the
    rest. -/
theorem splitLines_append (t t' : List Char) :
    splitLines (t ++ t') =
      ((splitLines t).1 ++ (splitLines ((splitLines t).2 ++ t')).1,
        (splitLines ((splitLines t).2 ++ t')).2) := by
  simp only [splitLines_eq]
  exact segments_append t t'

/-! ## Trimming -/

def trim (t : List Char) : List Char :=
  (((t.dropWhile isSpace).reverse).dropWhile isSpace).reverse

theorem trim_space_append {space : List Char} (h : space.all isSpace = true) (t : List Char) :
    trim (space ++ t) = trim t := by
  have hall : ∀ c ∈ space, isSpace c = true := all_eq_true.mp h
  rw [trim, trim, dropWhile_append_of_pos hall]

end RelayIde.Library.Lines
