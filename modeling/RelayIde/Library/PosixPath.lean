import Mathlib.Data.List.Basic
import Mathlib.Data.List.Induction
import Mathlib.Data.List.Infix

/-!
# POSIX Path Resolution

A path text is split at its slashes and walked one segment at a time: an empty segment and `.`
stay, `..` climbs to the parent, any other segment descends.  Above the root `..` stays, above
the start of a relative path it is kept as a name.

- `normalize` — the normal text of a path

`resolve_append_slash` splits the resolution of a path at one of its slashes, and
`startsWith_normalize_iff` compares containment with the test for a textual prefix.
-/

open List

namespace RelayIde.Library.PosixPath

/-- A part of a path between two slashes. -/
abbrev Segment := List Char

/-- The segment that stays in place. -/
def dot : Segment := ['.']

/-- The segment that climbs to the parent. -/
def dotDot : Segment := ['.', '.']

def segments (path : String) : List Segment :=
  path.toList.splitOn '/'

/-! ## Walks -/

/-- A resolved path: the names below the root, or below the start of a relative path. -/
@[ext] structure Place where
  /-- Whether the names start at the root. -/
  absolute : Bool
  /-- The names, outermost first. -/
  names : List Segment

namespace Place

/-- The parent. -/
def up (pl : Place) : Place :=
  match pl.names.getLast? with
  | none => if pl.absolute then pl else { pl with names := [dotDot] }
  | some n =>
    if n = dotDot then { pl with names := pl.names ++ [dotDot] }
    else { pl with names := pl.names.dropLast }

def enter (pl : Place) (s : Segment) : Place :=
  if s = [] ∨ s = dot then pl
  else if s = dotDot then pl.up
  else { pl with names := pl.names ++ [s] }

end Place

def walk (start : Place) (rest : List Segment) : Place :=
  rest.foldl Place.enter start

/-- The root or the start of a relative path, by the first character of the text. -/
def origin (path : String) : Place :=
  ⟨path.toList.head? = some '/', []⟩

/-- The place a path text denotes, with its `.` and `..` segments resolved. -/
def resolve (path : String) : Place :=
  walk (origin path) (segments path)

@[simp] theorem walk_nil (start : Place) : walk start [] = start := rfl

@[simp] theorem walk_cons (start : Place) (s : Segment) (rest : List Segment) :
    walk start (s :: rest) = walk (start.enter s) rest := rfl

theorem walk_append (start : Place) (rest rest' : List Segment) :
    walk start (rest ++ rest') = walk (walk start rest) rest' :=
  foldl_append

variable {s : Segment} {p path : String} {pl : Place} {rest : List Segment}

theorem enter_stay (hs : s = [] ∨ s = dot) (pl : Place) : pl.enter s = pl := by
  simp [Place.enter, hs]

@[simp] theorem enter_dotDot (pl : Place) : pl.enter dotDot = pl.up := by
  simp [Place.enter, dotDot, dot]

theorem enter_name (hs : ¬(s = [] ∨ s = dot)) (hup : s ≠ dotDot) (pl : Place) :
    pl.enter s = { pl with names := pl.names ++ [s] } := by
  simp [Place.enter, hs, hup]

theorem segments_append_slash (p rest : String) :
    segments (p ++ "/" ++ rest) = segments p ++ segments rest := by
  have htext : (p ++ "/" ++ rest).toList = p.toList ++ '/' :: rest.toList := by
    simp
  rw [segments, htext, splitOn_append_cons_self]
  rfl

/-- Text after the first character does not decide whether a path is absolute. -/
theorem origin_append (hp : p ≠ "") (rest : String) : origin (p ++ rest) = origin p := by
  have hne : p.toList ≠ [] := by
    intro h
    apply hp
    rw [← String.toList_inj, h]
    rfl
  obtain ⟨c, cs, hcs⟩ := exists_cons_of_ne_nil hne
  simp [origin, hcs]

theorem resolve_append_slash (hp : p ≠ "") (rest : String) :
    resolve (p ++ "/" ++ rest) = walk (resolve p) (segments rest) := by
  have horigin : origin (p ++ "/" ++ rest) = origin p := by
    rw [String.append_assoc]
    exact origin_append hp _
  rw [resolve, horigin, segments_append_slash, walk_append]
  rfl

theorem resolve_slash (hp : p ≠ "") : resolve (p ++ "/") = resolve p := by
  have h := resolve_append_slash hp ""
  rw [String.append_empty] at h
  rw [h]
  rfl

/-! ## Containment -/

/-- The places that are `root` or lie below it: its names, and after them no climb. -/
def Within (root pl : Place) : Prop :=
  pl.absolute = root.absolute ∧ ∃ below, pl.names = root.names ++ below ∧ dotDot ∉ below

instance (root pl : Place) : Decidable (Within root pl) :=
  decidable_of_iff (pl.absolute = root.absolute ∧ root.names <+: pl.names ∧
      dotDot ∉ pl.names.drop root.names.length) (by
    constructor
    · rintro ⟨habs, ⟨below, hbelow⟩, hclimb⟩
      rw [← hbelow, drop_left] at hclimb
      exact ⟨habs, below, hbelow.symm, hclimb⟩
    · rintro ⟨habs, below, hbelow, hclimb⟩
      rw [hbelow, drop_left]
      exact ⟨habs, prefix_append _ _, hclimb⟩)

theorem within_refl (pl : Place) : Within pl pl :=
  ⟨rfl, [], by simp, by simp⟩

/-! ## Normal text -/

/-- `path.posix.normalize`: the names that are left, a trailing slash kept. -/
def normalize (path : String) : String :=
  let text := ['/'].intercalate (resolve path).names
  let trailing : Segment := if path.toList.getLast? = some '/' then ['/'] else []
  String.ofList <|
    if (origin path).absolute then '/' :: (if text = [] then [] else text ++ trailing)
    else if text = [] then '.' :: trailing
    else text ++ trailing

structure IsName (s : Segment) : Prop where
  ne_nil : s ≠ []
  ne_dot : s ≠ dot
  ne_dotDot : s ≠ dotDot
  slash_not_mem : '/' ∉ s

@[simp] theorem absolute_up (pl : Place) : pl.up.absolute = pl.absolute := by
  unfold Place.up
  split
  · split <;> rfl
  · split <;> rfl

@[simp] theorem absolute_enter (pl : Place) (s : Segment) :
    (pl.enter s).absolute = pl.absolute := by
  unfold Place.enter
  split_ifs with hstay hup
  · rfl
  · exact absolute_up pl
  · rfl

@[simp] theorem absolute_walk (pl : Place) (rest : List Segment) :
    (walk pl rest).absolute = pl.absolute := by
  induction rest generalizing pl with
  | nil => rfl
  | cons s rest ih => rw [walk_cons, ih, absolute_enter]

theorem absolute_resolve (path : String) : (resolve path).absolute = (origin path).absolute :=
  absolute_walk _ _

theorem isName_walk (habs : pl.absolute = true)
    (hnames : ∀ s ∈ pl.names, IsName s) (hrest : ∀ s ∈ rest, '/' ∉ s) :
    ∀ s ∈ (walk pl rest).names, IsName s := by
  induction rest generalizing pl with
  | nil => exact hnames
  | cons s rest ih =>
    refine ih (by simpa using habs) ?_ fun t ht => hrest t (mem_cons_of_mem _ ht)
    intro t ht
    by_cases hstay : s = [] ∨ s = dot
    · rw [enter_stay hstay] at ht
      exact hnames t ht
    · by_cases hup : s = dotDot
      · subst hup
        rw [enter_dotDot] at ht
        unfold Place.up at ht
        cases hlast : pl.names.getLast? with
        | none =>
          rw [hlast] at ht
          simp only [habs] at ht
          exact hnames t ht
        | some last =>
          have hne : last ≠ dotDot := (hnames last (mem_of_getLast? hlast)).ne_dotDot
          rw [hlast] at ht
          dsimp only at ht
          rw [if_neg hne] at ht
          exact hnames t (mem_of_mem_dropLast ht)
      · rw [enter_name hstay hup, mem_append, mem_singleton] at ht
        rw [not_or] at hstay
        rcases ht with ht | rfl
        · exact hnames t ht
        · exact ⟨hstay.1, hstay.2, hup, hrest t mem_cons_self⟩

theorem slash_not_mem_of_segments (hs : s ∈ segments path) : '/' ∉ s := by
  unfold segments at hs
  generalize path.toList = cs at hs
  induction cs generalizing s with
  | nil =>
    rw [splitOn_nil, mem_singleton] at hs
    subst hs
    exact not_mem_nil
  | cons c cs ih =>
    rw [splitOn_cons_eq_if_modifyHead] at hs
    split_ifs at hs with hc
    · rcases mem_cons.mp hs with rfl | hs
      · exact not_mem_nil
      · exact ih hs
    · obtain ⟨first, rest, hsplit⟩ := exists_cons_of_ne_nil (splitOn_ne_nil '/' cs)
      rw [hsplit] at hs
      rw [hsplit] at ih
      rcases mem_cons.mp hs with rfl | hs
      · intro hmem
        rcases mem_cons.mp hmem with rfl | hmem
        · exact hc BEq.rfl
        · exact ih mem_cons_self hmem
      · exact ih (mem_cons_of_mem _ hs)

theorem isName_resolve (habs : (origin path).absolute = true) :
    ∀ s ∈ (resolve path).names, IsName s := by
  apply isName_walk habs
  · simp [origin]
  · exact fun s hs => slash_not_mem_of_segments hs

/-- What follows the names in the normal text of an absolute path: an empty segment, where there
    are no names or the text had a trailing slash. -/
def trailingSegments (path : String) : List Segment :=
  if (resolve path).names = [] ∨ path.toList.getLast? = some '/' then [[]] else []

theorem intercalate_eq_nil_iff {names : List Segment} (hnames : ∀ s ∈ names, s ≠ []) :
    ['/'].intercalate names = [] ↔ names = [] := by
  constructor
  · intro h
    cases names with
    | nil => rfl
    | cons s names =>
      refine absurd ?_ (hnames s mem_cons_self)
      cases names with
      | nil => simpa using h
      | cons t names => simp at h
  · rintro rfl
    rfl

theorem intercalate_append {sep : List Char} {parts parts' : List Segment} (h : parts ≠ [])
    (h' : parts' ≠ []) : sep.intercalate (parts ++ parts') =
      sep.intercalate parts ++ sep ++ sep.intercalate parts' := by
  induction parts with
  | nil => exact absurd rfl h
  | cons s parts ih =>
    cases parts with
    | nil =>
      rw [singleton_append, intercalate_cons_of_ne_nil h', intercalate_singleton]
    | cons t parts =>
      rw [cons_append, intercalate_cons_of_ne_nil (by simp), ih (cons_ne_nil _ _)]
      simp

theorem normalize_eq (habs : (origin path).absolute = true) :
    (normalize path).toList =
      ['/'].intercalate ([] :: ((resolve path).names ++ trailingSegments path)) := by
  have hnames := intercalate_eq_nil_iff fun s hs => (isName_resolve habs s hs).ne_nil
  unfold normalize trailingSegments
  dsimp only
  rw [if_pos habs]
  by_cases hnil : (resolve path).names = []
  · rw [if_pos (hnames.mpr hnil), hnil]
    rfl
  · rw [if_neg (fun h => hnil (hnames.mp h))]
    by_cases hlast : path.toList.getLast? = some '/'
    · rw [if_pos hlast, if_pos (.inr hlast), intercalate_cons_of_ne_nil (by simp),
        intercalate_append hnil (by simp)]
      simp
    · rw [if_neg hlast, if_neg (by simp [hnil, hlast]), append_nil, append_nil,
        intercalate_cons_of_ne_nil hnil]
      simp

theorem segments_normalize (habs : (origin path).absolute = true) :
    segments (normalize path) = [] :: ((resolve path).names ++ trailingSegments path) := by
  unfold segments
  rw [normalize_eq habs]
  refine splitOn_intercalate '/' ?_ (cons_ne_nil _ _)
  intro s hs
  rw [mem_cons, mem_append] at hs
  rcases hs with rfl | hs | hs
  · exact not_mem_nil
  · exact (isName_resolve habs s hs).slash_not_mem
  · unfold trailingSegments at hs
    split at hs
    · rw [mem_singleton.mp hs]
      exact not_mem_nil
    · cases hs

theorem walk_of_dotDot_not_mem (h : dotDot ∉ rest) :
    walk pl rest = { pl with names := pl.names ++ rest.filter fun s => s ≠ [] ∧ s ≠ dot } := by
  induction rest generalizing pl with
  | nil => simp
  | cons s rest ih =>
    rw [mem_cons, not_or] at h
    rw [walk_cons, ih h.2]
    by_cases hstay : s = [] ∨ s = dot
    · have hdrop : ¬(s ≠ [] ∧ s ≠ dot) := by tauto
      rw [enter_stay hstay, filter_cons_of_neg (by simpa using hdrop)]
    · rw [enter_name hstay (Ne.symm h.1), filter_cons_of_pos (by simpa using hstay)]
      simp

section
variable (habs : (origin path).absolute = true)
include habs

theorem dotDot_not_mem_segments_normalize : dotDot ∉ segments (normalize path) := by
  rw [segments_normalize habs, mem_cons, mem_append]
  rintro (h | h | h)
  · cases h
  · exact (isName_resolve habs _ h).ne_dotDot rfl
  · unfold trailingSegments at h
    split at h
    · cases mem_singleton.mp h
    · cases h

theorem absolute_normalize : origin (normalize path) = origin path := by
  have horigin : ∀ text, (origin text).absolute = true → origin text = ⟨true, []⟩ := by
    intro text htext
    exact Place.ext htext rfl
  rw [horigin path habs]
  apply horigin
  unfold origin
  rw [normalize_eq habs]
  have hne : (resolve path).names ++ trailingSegments path ≠ [] := by
    unfold trailingSegments
    by_cases hnil : (resolve path).names = [] <;> simp [hnil]
  rw [intercalate_cons_of_ne_nil hne]
  rfl

theorem resolve_normalize : resolve (normalize path) = resolve path := by
  have hwalk : walk (origin (normalize path)) (segments (normalize path)) = _ :=
    walk_of_dotDot_not_mem (dotDot_not_mem_segments_normalize habs)
  have hnames : (segments (normalize path)).filter (fun s => decide (s ≠ [] ∧ s ≠ dot)) =
      (resolve path).names := by
    have hkept : (resolve path).names.filter (fun s => decide (s ≠ [] ∧ s ≠ dot)) =
        (resolve path).names := by
      rw [filter_eq_self]
      intro s hs
      exact decide_eq_true ⟨(isName_resolve habs s hs).ne_nil, (isName_resolve habs s hs).ne_dot⟩
    have htail : (trailingSegments path).filter (fun s => decide (s ≠ [] ∧ s ≠ dot)) = [] := by
      unfold trailingSegments
      split <;> rfl
    rw [segments_normalize habs, filter_cons_of_neg (by simp), filter_append, hkept,
      htail, append_nil]
  rw [resolve, hwalk, hnames, absolute_normalize habs]
  refine Place.ext ?_ ?_
  · rw [absolute_resolve]
  · simp [origin]

end

def EndsInSlash (path : String) : Prop := trailingSegments path ≠ []

/-- Before the last segment of the normal text there is no empty one but the first. -/
theorem ne_nil_of_mem_dropLast (habs : (origin path).absolute = true)
    (hs : s ∈ ((resolve path).names ++ trailingSegments path).dropLast) : s ≠ [] := by
  unfold trailingSegments at hs
  split at hs
  · rw [dropLast_concat] at hs
    exact (isName_resolve habs s hs).ne_nil
  · rw [append_nil] at hs
    exact (isName_resolve habs s (mem_of_mem_dropLast hs)).ne_nil

section
variable (hp : (origin p).absolute = true)
include hp

theorem within_of_normalize_eq {c : String}
    (hc : (origin c).absolute = true) (h : normalize c = normalize p) :
    Within (resolve p) (resolve c) := by
  rw [← resolve_normalize hp, ← h, resolve_normalize hc]
  exact within_refl _

theorem within_of_startsWith {c : String}
    (hc : (origin c).absolute = true)
    (h : (normalize p ++ "/").toList <+: (normalize c).toList) :
    ¬EndsInSlash p ∧ Within (resolve p) (resolve c) := by
  obtain ⟨rest, hrest⟩ := h
  have htext : normalize c = normalize p ++ "/" ++ String.ofList rest := by
    rw [← String.toList_inj, ← hrest]
    simp
  have hsegments := segments_normalize hc
  rw [htext, segments_append_slash, segments_normalize hp, cons_append, List.cons.injEq]
    at hsegments
  have hnames := hsegments.2
  refine ⟨fun hends => ?_, ?_⟩
  · -- an empty segment would stand between two others
    unfold EndsInSlash trailingSegments at hends
    split at hends
    · rename_i hslash
      have htail : trailingSegments p = [[]] := by rw [trailingSegments, if_pos hslash]
      obtain ⟨first, others, hothers⟩ :=
        exists_cons_of_ne_nil (splitOn_ne_nil '/' (String.ofList rest).toList)
      have hsplit : segments (String.ofList rest) = first :: others := hothers
      rw [htail, hsplit] at hnames
      refine ne_nil_of_mem_dropLast hc (s := []) ?_ rfl
      rw [← hnames, append_assoc, dropLast_append_of_ne_nil (by simp)]
      exact mem_append_right _ mem_cons_self
    · exact hends rfl
  · have hclimb : dotDot ∉ segments (String.ofList rest) := by
      intro hmem
      refine dotDot_not_mem_segments_normalize hc ?_
      rw [htext, segments_append_slash]
      exact mem_append_right _ hmem
    have hne : normalize p ≠ "" := by
      intro hempty
      have horigin := absolute_normalize hp
      rw [hempty] at horigin
      rw [← horigin] at hp
      cases hp
    have hresolve : resolve c = walk (resolve p) (segments (String.ofList rest)) := by
      rw [← resolve_normalize hc, htext, resolve_append_slash hne, resolve_normalize hp]
    rw [hresolve, walk_of_dotDot_not_mem hclimb]
    exact ⟨rfl, _, rfl, fun hmem => hclimb (mem_of_mem_filter hmem)⟩

theorem startsWith_of_within {c : String}
    (hc : (origin c).absolute = true) (hslash : ¬EndsInSlash p)
    (h : Within (resolve p) (resolve c)) (hne : normalize c ≠ normalize p) :
    (normalize p ++ "/").toList <+: (normalize c).toList := by
  obtain ⟨-, below, hbelow, -⟩ := h
  have htail : trailingSegments p = [] := not_not.mp hslash
  have hp' := normalize_eq hp
  have hc' := normalize_eq hc
  rw [htail, append_nil] at hp'
  rw [hbelow, append_assoc, ← cons_append] at hc'
  have hrest : below ++ trailingSegments c ≠ [] := by
    intro hnil
    rw [hnil, append_nil, ← hp'] at hc'
    exact hne (String.toList_inj.mp hc')
  rw [hc', intercalate_append (cons_ne_nil _ _) hrest, String.toList_append, hp']
  exact prefix_append _ _

end

def isAbsolute (path : String) : Bool := path.toList.head? = some '/'

theorem slashless_walk (hnames : ∀ s ∈ pl.names, s ≠ [] ∧ '/' ∉ s) (hrest : ∀ s ∈ rest, '/' ∉ s) :
    ∀ s ∈ (walk pl rest).names, s ≠ [] ∧ '/' ∉ s := by
  induction rest generalizing pl with
  | nil => exact hnames
  | cons s rest ih =>
    refine ih ?_ fun t ht => hrest t (mem_cons_of_mem _ ht)
    have hdots : dotDot ≠ [] ∧ '/' ∉ dotDot := by decide
    intro t ht
    by_cases hstay : s = [] ∨ s = dot
    · rw [enter_stay hstay] at ht
      exact hnames t ht
    · by_cases hup : s = dotDot
      · subst hup
        rw [enter_dotDot] at ht
        unfold Place.up at ht
        split at ht
        · split at ht
          · exact hnames t ht
          · rw [mem_singleton.mp ht]
            exact hdots
        · split at ht
          · rcases mem_append.mp ht with ht | ht
            · exact hnames t ht
            · rw [mem_singleton.mp ht]
              exact hdots
          · exact hnames t (mem_of_mem_dropLast ht)
      · rw [enter_name hstay hup, mem_append, mem_singleton] at ht
        rw [not_or] at hstay
        rcases ht with ht | rfl
        · exact hnames t ht
        · exact ⟨hstay.1, hrest t mem_cons_self⟩

theorem isAbsolute_eq (path : String) : isAbsolute path = (origin path).absolute := rfl

theorem isAbsolute_normalize (path : String) : isAbsolute (normalize path) = isAbsolute path := by
  by_cases habs : (origin path).absolute = true
  · rw [isAbsolute_eq, isAbsolute_eq, absolute_normalize habs]
  · have hfalse : isAbsolute path = false := by
      rw [isAbsolute_eq]
      simpa using habs
    rw [hfalse]
    unfold isAbsolute normalize
    rw [String.toList_ofList, if_neg habs]
    split
    · simp
    · rename_i htext
      -- the text starts like the first name
      have hnames : ∀ s ∈ (resolve path).names, s ≠ [] ∧ '/' ∉ s :=
        slashless_walk (by simp [origin]) fun s hs => slash_not_mem_of_segments hs
      cases hsplit : (resolve path).names with
      | nil =>
        rw [hsplit] at htext
        exact absurd rfl htext
      | cons first others =>
        obtain ⟨hne, hslash⟩ := hnames first (hsplit ▸ mem_cons_self)
        obtain ⟨c, cs, rfl⟩ := exists_cons_of_ne_nil hne
        have hc : c ≠ '/' := fun h => hslash (h ▸ mem_cons_self)
        cases others with
        | nil | cons second others => simpa using hc

/-- The two tests on normal texts: together they hold of what is below, but for the places strictly
    below a text that ends with a slash. -/
theorem startsWith_normalize_iff {c : String} (hp : (origin p).absolute = true)
    (hc : (origin c).absolute = true) :
    (normalize c = normalize p ∨ (normalize p ++ "/").toList <+: (normalize c).toList) ↔
      Within (resolve p) (resolve c) ∧ (EndsInSlash p → normalize c = normalize p) := by
  constructor
  · rintro (heq | hstarts)
    · exact ⟨within_of_normalize_eq hp hc heq, fun _ => heq⟩
    · obtain ⟨hslash, hwithin⟩ := within_of_startsWith hp hc hstarts
      exact ⟨hwithin, fun hends => absurd hends hslash⟩
  · rintro ⟨hwithin, hslash⟩
    by_cases heq : normalize c = normalize p
    · exact .inl heq
    · exact .inr (startsWith_of_within hp hc (fun hends => heq (hslash hends)) hwithin heq)

end RelayIde.Library.PosixPath
