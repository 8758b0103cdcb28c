import Mathlib.Data.List.DropRight
import RelayIde.Library.CodePoints
import RelayIde.Library.Fts5

/-!
# Search Queries

How `server/channel-message-store.ts` turns the text of a search into a full-text query and into
the range of terms that its last word extends to.

- `searches_iff` — what the query means, and what the range holds, where no term has a NUL
-/

namespace RelayIde.Search

open RelayIde.Library RelayIde.Library.JsText List

/-! ## Words -/

structure Unicode where
  /-- `\p{L}` or `\p{N}`. -/
  isLetterOrNumber : ℕ → Bool
  /-- `\p{M}`. -/
  isMark : ℕ → Bool
  nfd : JsText → JsText
  toLowerCase : JsText → JsText

/-- Surrogates have a category of their own, and are neither letters nor numbers. -/
def Unicode.ScalarsOnly (u : Unicode) : Prop := ∀ c, u.isLetterOrNumber c = true → IsScalar c

/-- The tables on ASCII text. -/
def ascii : Unicode where
  isLetterOrNumber c := (48 ≤ c && c ≤ 57) || (65 ≤ c && c ≤ 90) || (97 ≤ c && c ≤ 122)
  isMark _ := false
  nfd text := text
  toLowerCase text := text.map fun unit => if 65 ≤ unit ∧ unit ≤ 90 then unit + 32 else unit

def channelSearchQueryMaxChars : ℕ := 256

def channelSearchMaxTerms : ℕ := 12

def channelSearchMinQueryChars : ℕ := 3

/-- `\s`. -/
def isSpace (unit : ℕ) : Bool :=
  unit ∈ [9, 10, 11, 12, 13, 32, 160, 5760, 8192, 8193, 8194, 8195, 8196, 8197, 8198, 8199, 8200,
    8201, 8202, 8232, 8233, 8239, 8287, 12288, 65279]

/-- `text.trim()`. -/
def trim (text : JsText) : JsText :=
  (text.dropWhile isSpace).rdropWhile isSpace

/-- `term.replaceAll('"', ' ')`. -/
def replaceQuotes (term : JsText) : JsText :=
  term.map fun unit => if unit = Fts5.quoteUnit then 32 else unit

section Tables

variable (u : Unicode)

def isSearchable (term : JsText) : Bool :=
  (codePoints term).any u.isLetterOrNumber

/-- A run of spaces splits once; the empty parts between single spaces are not searchable. -/
def collectChannelSearchTerms (raw : JsText) : List JsText :=
  ((((raw.take channelSearchQueryMaxChars).splitOnP isSpace).map
    fun term => trim (replaceQuotes term)).filter (isSearchable u)).take channelSearchMaxTerms

/-- A term that is long enough for a prefix search. -/
def isLong (term : JsText) : Bool :=
  channelSearchMinQueryChars ≤ (codePoints term).length

/-! ## The query -/

inductive ChannelSearchUnavailableReason
  | emptyQuery | noSearchableTerm | queryTooShort

def channelSearchUnavailableReason (raw : JsText) : Option ChannelSearchUnavailableReason :=
  if trim raw = [] then some .emptyQuery
  else
    match collectChannelSearchTerms u raw with
    | [] => some .noSearchableTerm
    | [term] => if isLong term then none else some .queryTooShort
    | _ => none

def renderTerm (last : ℕ) (index : ℕ) (term : JsText) : JsText :=
  if index = last ∧ isLong term = true then Fts5.quoted term ++ utf16 " *" else Fts5.quoted term

def buildChannelSearchMatchQuery (raw : JsText) : Option JsText :=
  if (channelSearchUnavailableReason u raw).isSome then none
  else
    let terms := collectChannelSearchTerms u raw
    some ((utf16 " AND ").intercalate (terms.mapIdx (renderTerm (terms.length - 1))))

/-! ## The range of the last token -/

structure PrefixRange where
  low : JsText
  high : JsText

/-- Runs of letters and numbers, each a token. -/
def tokensOf (text : JsText) : List JsText :=
  (((codePoints text).splitOnP fun c => !u.isLetterOrNumber c).filter (· ≠ [])).map ofCodePoints

def channelSearchPrefixRange (raw : JsText) : Option PrefixRange := do
  let last ← (collectChannelSearchTerms u raw).getLast?
  if isLong last then
    let folded := u.toLowerCase (ofCodePoints ((codePoints (u.nfd last)).filter (!u.isMark ·)))
    let low ← (tokensOf u folded).getLast?
    let points := codePoints low
    let tail ← points.getLast?
    let next ← successor? tail
    pure ⟨low, ofCodePoints points.dropLast ++ ofCodePoint next⟩
  else none

end Tables

/-! ## What the query means -/

variable {u : Unicode}

theorem quote_not_mem_trim_replaceQuotes (term : JsText) :
    Fts5.quoteUnit ∉ trim (replaceQuotes term) := by
  intro hmem
  have hsub : trim (replaceQuotes term) <:+: replaceQuotes term :=
    ( rdropWhile_prefix isSpace _).isInfix.trans (dropWhile_suffix isSpace).isInfix
  obtain ⟨unit, -, hunit⟩ := mem_map.mp (hsub.subset hmem)
  split at hunit
  · cases hunit
  · rename_i hne
    exact hne hunit

theorem quote_not_mem_term {raw term : JsText} (h : term ∈ collectChannelSearchTerms u raw) :
    Fts5.quoteUnit ∉ term := by
  have hmem := mem_of_mem_filter (mem_of_mem_take h)
  obtain ⟨part, -, rfl⟩ := mem_map.mp hmem
  exact quote_not_mem_trim_replaceQuotes part

/-- The phrases of the terms: the last one is a prefix if it is long enough. -/
def phrasesOf (terms : List JsText) : List Fts5.Phrase :=
  terms.mapIdx fun index term => ⟨term, decide (index = terms.length - 1) && isLong term⟩

theorem parse_renderLast {term : JsText} (h : Fts5.quoteUnit ∉ term) (hnul : 0 ∉ term)
    (last : ℕ) : Fts5.parse (renderTerm last last term) = some [⟨term, isLong term⟩] := by
  unfold renderTerm Fts5.parse
  cases hlong : isLong term with
  | true =>
    rw [if_pos ⟨rfl, rfl⟩, Fts5.lex_quoted h hnul]
    rfl
  | false =>
    rw [if_neg (by simp), ← append_nil (Fts5.quoted term), Fts5.lex_quoted h hnul]
    rfl

theorem lex_renderTerm_eq_none {term : JsText} (h : Fts5.quoteUnit ∉ term) (hnul : 0 ∈ term)
    (last index : ℕ) : Fts5.lex .outside (renderTerm last index term) = none := by
  unfold renderTerm
  split
  · exact Fts5.lex_quoted_eq_none h hnul _
  · rw [← append_nil (Fts5.quoted term)]
    exact Fts5.lex_quoted_eq_none h hnul _

theorem mapIdx_below {α β : Type} {f : ℕ → α → β} {g : α → β} {l : List α}
    (h : ∀ i, i < l.length → ∀ a, f i a = g a) : l.mapIdx f = l.map g := by
  apply ext_getElem
  · simp
  · intro i hi hi'
    rw [getElem_mapIdx, getElem_map]
    exact h i (by simpa using hi') _

theorem intercalate_concat (sep last : JsText) (parts : List JsText) :
    sep.intercalate (parts ++ [last]) = (parts.map (· ++ sep)).flatten ++ last := by
  induction parts with
  | nil => simp
  | cons part parts ih =>
    rw [cons_append, intercalate_cons_of_ne_nil (by simp), ih]
    simp

/-- The terms but the last are joined as literal strings. -/
theorem intercalate_renderTerm (first : List JsText) (last : JsText) :
    (utf16 " AND ").intercalate
        ((first ++ [last]).mapIdx (renderTerm ((first ++ [last]).length - 1))) =
      (first.map fun term => Fts5.quoted term ++ utf16 " AND ").flatten ++
        renderTerm first.length first.length last := by
  have hindex : (first ++ [last]).length - 1 = first.length := by simp
  have hbelow : first.mapIdx (renderTerm first.length) = first.map Fts5.quoted := by
    refine mapIdx_below fun i hi term => ?_
    exact if_neg fun h => absurd h.1 (by omega)
  rw [hindex, mapIdx_concat, hbelow, intercalate_concat, map_map]
  rfl

theorem parse_query {terms : List JsText} (hne : terms ≠ [])
    (hquote : ∀ term ∈ terms, Fts5.quoteUnit ∉ term) (hnul : ∀ term ∈ terms, 0 ∉ term) :
    Fts5.parse ((utf16 " AND ").intercalate (terms.mapIdx (renderTerm (terms.length - 1)))) =
      some (phrasesOf terms) := by
  obtain ⟨first, last, rfl⟩ : ∃ first last, terms = first ++ [last] :=
    ⟨terms.dropLast, terms.getLast hne, (dropLast_append_getLast hne).symm⟩
  have hphrases : phrasesOf (first ++ [last]) =
      first.map (fun term => ⟨term, false⟩) ++ [⟨last, isLong last⟩] := by
    unfold phrasesOf
    rw [mapIdx_concat]
    congr 1
    · refine mapIdx_below fun i hi term => ?_
      have hne : i ≠ first.length := by omega
      simp [hne]
    · simp
  rw [intercalate_renderTerm, hphrases]
  refine Fts5.parse_join (fun term hterm => hquote term (mem_append_left _ hterm))
    (fun term hterm => hnul term (mem_append_left _ hterm)) ?_
  exact parse_renderLast (hquote last (mem_append_right _ mem_cons_self))
    (hnul last (mem_append_right _ mem_cons_self)) first.length

/-- One NUL in one term is an error of the whole query. -/
theorem parse_query_eq_none {terms : List JsText}
    (hquote : ∀ term ∈ terms, Fts5.quoteUnit ∉ term) {term : JsText} (hterm : term ∈ terms)
    (hnul : 0 ∈ term) :
    Fts5.parse ((utf16 " AND ").intercalate (terms.mapIdx (renderTerm (terms.length - 1)))) =
      none := by
  obtain ⟨first, last, rfl⟩ : ∃ first last, terms = first ++ [last] :=
    have hne := ne_nil_of_mem hterm
    ⟨terms.dropLast, terms.getLast hne, (dropLast_append_getLast hne).symm⟩
  rw [intercalate_renderTerm, Fts5.parse, Fts5.lex_join_eq_none]
  · rfl
  · exact fun other hother => hquote other (mem_append_left _ hother)
  · rcases mem_append.mp hterm with hfirst | hlast
    · exact .inl ⟨term, hfirst, hnul⟩
    · obtain rfl := mem_singleton.mp hlast
      exact .inr (lex_renderTerm_eq_none (hquote term hterm) hnul _ _)

theorem terms_ne_nil {raw : JsText} (h : channelSearchUnavailableReason u raw = none) :
    collectChannelSearchTerms u raw ≠ [] := by
  intro hnil
  unfold channelSearchUnavailableReason at h
  split_ifs at h
  rw [hnil] at h
  cases h

/-! ## What the range holds -/

theorem not_splits_of_part {p : ℕ → Bool} {text part : List ℕ} (h : part ∈ text.splitOnP p)
    {c : ℕ} (hc : c ∈ part) : p c = false := by
  induction text generalizing part with
  | nil =>
    rw [splitOnP_nil, mem_singleton] at h
    subst h
    cases hc
  | cons d text ih =>
    rw [splitOnP_cons_eq_if_modifyHead] at h
    split_ifs at h with hd
    · rcases mem_cons.mp h with rfl | h
      · cases hc
      · exact ih h hc
    · -- the character goes to the front of the first part
      obtain ⟨first, rest, hsplit⟩ := exists_cons_of_ne_nil (splitOnP_ne_nil p text)
      rw [hsplit] at h
      rw [hsplit] at ih
      rcases mem_cons.mp h with rfl | h
      · rcases mem_cons.mp hc with rfl | hc
        · simpa using hd
        · exact ih mem_cons_self hc
      · exact ih (mem_cons_of_mem _ h) hc

theorem isScalar_of_token (hscalars : u.ScalarsOnly) {text token : JsText}
    (h : token ∈ tokensOf u text) : ∃ cs, token = ofCodePoints cs ∧ ∀ c ∈ cs, IsScalar c := by
  obtain ⟨cs, hcs, rfl⟩ := mem_map.mp h
  refine ⟨cs, rfl, fun c hc => hscalars c ?_⟩
  simpa using not_splits_of_part (mem_of_mem_filter hcs) hc

theorem prefixRange_spec (hscalars : u.ScalarsOnly) {raw : JsText} {range : PrefixRange}
    (h : channelSearchPrefixRange u raw = some range) :
    ∃ stem c n, successor? c = some n ∧ codePoints range.low = stem ++ [c] ∧
      codePoints range.high = stem ++ [n] := by
  obtain ⟨last, -, h⟩ := Option.bind_eq_some_iff.mp h
  split_ifs at h with hlong
  obtain ⟨low, hlow, h⟩ := Option.bind_eq_some_iff.mp h
  obtain ⟨tail, htail, h⟩ := Option.bind_eq_some_iff.mp h
  obtain ⟨next, hnext, h⟩ := Option.bind_eq_some_iff.mp h
  cases h
  obtain ⟨cs, rfl, hscalar⟩ := isScalar_of_token hscalars (mem_of_getLast? hlow)
  have hpoints := codePoints_ofCodePoints hscalar
  rw [hpoints] at htail
  obtain ⟨stem, rfl⟩ := getLast?_eq_some_iff.mp htail
  refine ⟨stem, tail, next, hnext, hpoints, ?_⟩
  have hhigh : ofCodePoints (codePoints (ofCodePoints (stem ++ [tail]))).dropLast ++
      ofCodePoint next = ofCodePoints (stem ++ [next]) := by
    rw [hpoints]
    simp [ofCodePoints]
  rw [hhigh]
  refine codePoints_ofCodePoints fun c hc => ?_
  rcases mem_append.mp hc with hc | hc
  · exact hscalar c (mem_append_left _ hc)
  · rw [mem_singleton.mp hc]
    exact isScalar_successor hnext

/-- **What a search promises**: it has a query unless there is a reason against it; the query is
    the conjunction of its words as phrases, and the range of its last token holds the tokens that
    start with it. -/
structure Searches (u : Unicode) (raw : JsText) : Prop where
  reason : channelSearchUnavailableReason u raw = none ↔
    (buildChannelSearchMatchQuery u raw).isSome = true
  query : ∀ query, buildChannelSearchMatchQuery u raw = some query →
    collectChannelSearchTerms u raw ≠ [] ∧
      Fts5.parse query = some (phrasesOf (collectChannelSearchTerms u raw))
  range : ∀ range, channelSearchPrefixRange u raw = some range →
    ∀ t : List ℕ, (∀ c ∈ t, IsScalar c) →
      ((¬t < codePoints range.low ∧ t < codePoints range.high) ↔ codePoints range.low <+: t)

/-- **Searches** keep their promise exactly where no word of a query has a NUL in it. -/
theorem searches_iff (hscalars : u.ScalarsOnly) (raw : JsText) :
    Searches u raw ↔ (channelSearchUnavailableReason u raw = none →
      ∀ term ∈ collectChannelSearchTerms u raw, 0 ∉ term) := by
  have hbuild (hreason : channelSearchUnavailableReason u raw = none) :
      buildChannelSearchMatchQuery u raw = some ((utf16 " AND ").intercalate
        ((collectChannelSearchTerms u raw).mapIdx
          (renderTerm ((collectChannelSearchTerms u raw).length - 1)))) := by
    rw [buildChannelSearchMatchQuery, hreason]
    rfl
  constructor
  · intro h hreason term hterm hnul
    have hparse := (h.query _ (hbuild hreason)).2
    rw [parse_query_eq_none (fun term hterm => quote_not_mem_term hterm) hterm hnul] at hparse
    cases hparse
  · intro hnul
    refine ⟨?_, fun query hquery => ?_, fun range hrange t ht => ?_⟩
    · unfold buildChannelSearchMatchQuery
      cases channelSearchUnavailableReason u raw <;> simp
    · have hreason : channelSearchUnavailableReason u raw = none := by
        unfold buildChannelSearchMatchQuery at hquery
        split_ifs at hquery with hreason
        exact Option.not_isSome_iff_eq_none.mp hreason
      have hne := terms_ne_nil hreason
      obtain rfl := Option.some.inj (hquery.symm.trans (hbuild hreason))
      exact ⟨hne, parse_query hne (fun term hterm => quote_not_mem_term hterm) (hnul hreason)⟩
    · obtain ⟨stem, c, n, hn, hlow, hhigh⟩ := prefixRange_spec hscalars hrange
      rw [hlow, hhigh]
      exact between_iff_prefix hn ht

theorem scalarsOnly_ascii : ascii.ScalarsOnly := by
  intro c hc
  simp only [ascii, Bool.or_eq_true, Bool.and_eq_true, decide_eq_true_eq] at hc
  unfold IsScalar
  omega

/-- Operators, a parenthesis and quotes are words like others. -/
theorem searches_operators : Searches ascii (utf16 "NOT (foo \"a:b\" AND bar*") :=
  (searches_iff scalarsOnly_ascii _).mpr fun _ => by decide

/-- A word with a NUL in it is searched for with a query that is an error. -/
theorem not_searches_nul : ¬Searches ascii [97, 98, 0, 99] := by
  intro h
  have hquery : buildChannelSearchMatchQuery ascii [97, 98, 0, 99] =
      some (Fts5.quoted [97, 98, 0, 99] ++ utf16 " *") := by decide
  have hparse := (h.query _ hquery).2
  rw [Fts5.parse, Fts5.lex_quoted_eq_none (by decide) (by decide)] at hparse
  cases hparse

end RelayIde.Search
