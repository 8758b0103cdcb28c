import Mathlib

/-!
# Text Prefixes and Segments

The few string operations that an identifier grammar of the form
`prefix:segment:segment` needs, with the lemmas that turn them into equations
about `++`:

- `trim s`, `isBlank s`, `length16 s`, `slice16 n s` — `trim`, `length` and `slice` on UTF-16 text

Every operation runs on the character list, so closed instances evaluate in the kernel.
-/

namespace RelayIde.Library.Text

open List

/-! ## Prefixes -/

def stripChars : List Char → List Char → Option (List Char)
  | [], s => some s
  | _ :: _, [] => none
  | p :: ps, c :: cs => if p = c then stripChars ps cs else none

theorem stripChars_eq_some_iff (p s t : List Char) : stripChars p s = some t ↔ s = p ++ t := by
  induction p generalizing s with
  | nil => simp [stripChars]
  | cons x xs ih =>
    cases s with
    | nil => simp [stripChars]
    | cons c cs =>
      by_cases h : x = c
      · subst h
        simp [stripChars, ih]
      · have hne : c ≠ x := fun hc => h hc.symm
        simp [stripChars, h, hne]

/-- The rest of `s` after the prefix `p`, or `none` when `s` does not start with `p`. -/
def stripPrefix? (p s : String) : Option String :=
  (stripChars p.toList s.toList).map String.ofList

/-- Whether `s` starts with `p`. -/
def hasPrefix (p s : String) : Bool :=
  (stripPrefix? p s).isSome

theorem stripPrefix?_eq_some_iff (p s t : String) : stripPrefix? p s = some t ↔ s = p ++ t := by
  unfold stripPrefix?
  constructor
  · intro h
    obtain ⟨cs, hcs, rfl⟩ := Option.map_eq_some_iff.mp h
    have hs := (stripChars_eq_some_iff _ _ _).mp hcs
    rw [← String.toList_inj]
    simp [hs]
  · rintro rfl
    have hs := (stripChars_eq_some_iff p.toList (p ++ t).toList t.toList).mpr (by simp)
    rw [hs]
    simp

@[simp] theorem stripPrefix?_append (p t : String) : stripPrefix? p (p ++ t) = some t :=
  (stripPrefix?_eq_some_iff p (p ++ t) t).mpr rfl

theorem hasPrefix_iff (p s : String) : hasPrefix p s = true ↔ ∃ t, s = p ++ t := by
  simp [hasPrefix, Option.isSome_iff_exists, stripPrefix?_eq_some_iff]

@[simp] theorem hasPrefix_append (p t : String) : hasPrefix p (p ++ t) = true :=
  (hasPrefix_iff p _).mpr ⟨t, rfl⟩

theorem stripPrefix?_eq_none_iff (p s : String) :
    stripPrefix? p s = none ↔ hasPrefix p s = false := by
  simp [hasPrefix]

theorem mem_of_hasPrefix {p s : String} {c : Char} (h : hasPrefix p s = true)
    (hc : c ∈ p.toList) : c ∈ s.toList := by
  obtain ⟨t, rfl⟩ := (hasPrefix_iff p s).mp h
  simp [hc]

/-! ## Segments -/

/-- The part of `s` before the first separator (all of `s` when there is none). -/
def firstSegment (sep : Char) (s : String) : String :=
  String.ofList (s.toList.takeWhile (· != sep))

theorem not_mem_firstSegment (sep : Char) (s : String) : sep ∉ (firstSegment sep s).toList := by
  intro h
  rw [firstSegment, String.toList_ofList] at h
  have hp := mem_takeWhile_imp h
  simp at hp

theorem firstSegment_append (sep : Char) (v rest : String) (hv : sep ∉ v.toList) :
    firstSegment sep (v ++ (String.singleton sep ++ rest)) = v := by
  have hall : ∀ c ∈ v.toList, (c != sep) = true := by
    intro c hc
    have : c ≠ sep := fun h => hv (h ▸ hc)
    simpa using this
  simp only [firstSegment, String.toList_append]
  rw [takeWhile_append_of_pos hall]
  simp

/-- `s.split(sep)`. -/
def fields (sep : Char) (s : String) : List String :=
  (s.toList.splitOn sep).map String.ofList

theorem fields_of_not_mem {sep : Char} {s : String} (hs : sep ∉ s.toList) : fields sep s = [s] := by
  simp [fields, splitOn_eq_singleton hs]

theorem fields_append (sep : Char) (s t : String) :
    fields sep (s ++ String.singleton sep ++ t) = fields sep s ++ fields sep t := by
  have htext : (s ++ String.singleton sep ++ t).toList = s.toList ++ sep :: t.toList := by
    simp
  rw [fields, htext, splitOn_append_cons_self, map_append]
  rfl

theorem length_fields (sep : Char) (s : String) :
    (fields sep s).length = s.toList.count sep + 1 := by
  rw [fields, length_map]
  induction s.toList with
  | nil => simp
  | cons c cs ih =>
    rw [splitOn_cons_eq_if_modifyHead, count_cons]
    by_cases hc : (c == sep) = true
    · simp [hc, ih]
    · simp [hc, ih]

/-! ## UTF-16 text -/

/-- ECMAScript white space and line terminators. -/
def isSpace (c : Char) : Bool :=
  c.toNat ∈ [9, 10, 11, 12, 13, 32, 160, 5760, 8192, 8193, 8194, 8195, 8196, 8197, 8198, 8199, 8200,
    8201, 8202, 8232, 8233, 8239, 8287, 12288, 65279]

/-- `s.trim()`. -/
def trim (s : String) : String :=
  String.ofList ((s.toList.dropWhile isSpace).rdropWhile isSpace)

/-- `s.trim().length === 0`. -/
def isBlank (s : String) : Bool :=
  s.toList.all isSpace

theorem trim_eq_self {s : String} (h : ∀ c ∈ s.toList, isSpace c = false) : trim s = s := by
  have hdrop : s.toList.dropWhile isSpace = s.toList := by
    rw [dropWhile_eq_self_iff]
    intro hlength
    simp [h _ (getElem_mem hlength)]
  have hrdrop : s.toList.rdropWhile isSpace = s.toList := by
    rw [rdropWhile_eq_self_iff]
    intro hne
    simp [h _ (getLast_mem hne)]
  rw [trim, hdrop, hrdrop, String.ofList_toList]

theorem isBlank_trim {s : String} (h : trim s ≠ "") : isBlank (trim s) = false := by
  have hne : (s.toList.dropWhile isSpace).rdropWhile isSpace ≠ [] := by
    intro hnil
    apply h
    rw [trim, hnil]
  have hlast := rdropWhile_last_not isSpace (s.toList.dropWhile isSpace) hne
  rw [isBlank, trim, String.toList_ofList, all_eq_false]
  exact ⟨_, getLast_mem hne, hlast⟩

theorem isBlank_append (s t : String) : isBlank (s ++ t) = (isBlank s && isBlank t) := by
  simp [isBlank]

theorem ne_empty_of_not_blank {s : String} (h : isBlank s = false) : s ≠ "" := by
  rintro rfl
  cases h

/-- The UTF-16 code units of a character. -/
def units (c : Char) : ℕ :=
  if c.toNat < 0x10000 then 1 else 2

/-- `s.length`. -/
def length16 (s : String) : ℕ :=
  (s.toList.map units).sum

/-- The first `n` code units.  Half of a surrogate pair is encoded as U+FFFD. -/
def takeUnits : ℕ → List Char → List Char
  | _, [] => []
  | n, c :: cs =>
    if units c ≤ n then c :: takeUnits (n - units c) cs
    else if n = 0 then []
    else ['\uFFFD']

/-- `s.slice(0, n)`. -/
def slice16 (n : ℕ) (s : String) : String :=
  String.ofList (takeUnits n s.toList)

end RelayIde.Library.Text
