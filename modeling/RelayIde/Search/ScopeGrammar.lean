import RelayIde.Search.Scopes

/-!
# The Grammar of Search Scopes

`shared/channel-search-query.ts` takes the `in:` clauses out of the text of a search.

- `parse_written` — parsing gives both back
-/

namespace RelayIde.Search

open RelayIde.Library RelayIde.Library.JsText List

/-! ## Tokens -/

def channelSearchScopeMaxAliases : ℕ := 8

def quote : ℕ := 34

def backslash : ℕ := 92

/-- `in:`. -/
def scopeMark : JsText := [105, 110, 58]

/-- `toLowerCase` on one unit of `in:`; no other unit has `i` or `n` as its lower case. -/
def lowerUnit (unit : ℕ) : ℕ :=
  if unit = 73 then 105 else if unit = 78 then 110 else unit

def isScope (t : JsText) : Bool :=
  (t.take 3).map lowerUnit = scopeMark

def nonSpace (unit : ℕ) : Bool :=
  !isSpace unit

/-- The inside of a quoted alias, and what is behind the closing quote if there is one. -/
def readQuoted : JsText → JsText × Option JsText
  | [] => ([], none)
  | unit :: rest =>
    if unit = backslash then
      match rest with
      | [] => ([unit], none)
      | escaped :: rest => ((readQuoted rest).1.cons escaped, (readQuoted rest).2)
    else if unit = quote then ([], some rest)
    else ((readQuoted rest).1.cons unit, (readQuoted rest).2)

inductive Token
  | word (text : JsText)
  | scope (written : JsText)
  /-- An alias that is not closed, or followed by more than white space. -/
  | broken (written : JsText)

/-- The token at the cursor, which is not at white space, and what is behind it. -/
def nextToken (t : JsText) : Token × JsText :=
  if isScope t then
    match t.drop 3 with
    | [] => (.scope [], [])
    | unit :: body =>
      if unit = quote then
        match readQuoted body with
        | (written, none) => (.broken written, [])
        | (written, some rest) =>
          if rest.head?.any nonSpace then (.broken written, rest) else (.scope written, rest)
      else (.scope ((unit :: body).takeWhile nonSpace), (unit :: body).dropWhile nonSpace)
  else (.word (t.takeWhile nonSpace), t.dropWhile nonSpace)

theorem length_readQuoted (t : JsText) : ∀ rest, (readQuoted t).2 = some rest →
    rest.length < t.length := by
  induction h : t.length using Nat.strong_induction_on generalizing t with
  | _ n ih =>
    intro rest hrest
    subst h
    unfold readQuoted at hrest
    split at hrest
    · cases hrest
    · rename_i unit body
      split_ifs at hrest
      · split at hrest
        · cases hrest
        · rename_i escaped behind
          have hlt := ih behind.length (by simp only [length_cons]; omega) behind rfl rest hrest
          simp only [length_cons]
          omega
      · cases hrest
        exact Nat.lt_succ_self _
      · have hlt := ih body.length (by simp) body rfl rest hrest
        simp only [length_cons]
        omega

variable {unit : ℕ} {raw rest written : JsText}

theorem length_dropWhile_cons (h : nonSpace unit = true) (t : JsText) :
    ((unit :: t).dropWhile nonSpace).length < (unit :: t).length := by
  rw [dropWhile_cons_of_pos h]
  exact Nat.lt_succ_of_le (dropWhile_suffix nonSpace).length_le

theorem length_nextToken (h : nonSpace unit = true) (t : JsText) :
    (nextToken (unit :: t)).2.length < (unit :: t).length := by
  unfold nextToken
  have hdrop : ((unit :: t).drop 3).length ≤ t.length := by
    rw [length_drop, length_cons]
    omega
  split
  · split
    · exact Nat.succ_pos _
    · rename_i mark body heq
      rw [heq, length_cons] at hdrop
      split
      · split
        · exact Nat.succ_pos _
        · rename_i written rest hread
          have hlt := length_readQuoted body rest (by rw [hread])
          rw [length_cons]
          split <;> (show rest.length < _; omega)
      · have hle := (dropWhile_suffix (l := mark :: body) nonSpace).length_le
        rw [length_cons] at hle ⊢
        show ((mark :: body).dropWhile nonSpace).length < _
        omega
  · exact length_dropWhile_cons h t

/-! ## The parser -/

/-- `ParsedChannelSearchQuery`. -/
structure ParsedChannelSearchQuery where
  text : JsText
  aliases : List JsText
  invalidAlias : Option JsText := none

/-- `text.join(' ').trim()`. -/
def joined (words : List JsText) : JsText :=
  trim ([32].intercalate words)

section Parse

variable (u : AliasTables)

def parseFrom (raw : JsText) (aliases words : List JsText) : ParsedChannelSearchQuery :=
  match _hraw : raw.dropWhile isSpace with
  | [] => ⟨joined words, aliases, none⟩
  | unit :: t =>
    match _hnext : nextToken (unit :: t) with
    | (.word text, rest) => parseFrom rest aliases (words ++ [text])
    | (.scope written, rest) =>
      let normalized := normalizeChannelSearchAlias u written
      if normalized = [] ∨ channelSearchScopeMaxAliases ≤ aliases.length then
        ⟨joined words, aliases, some written⟩
      else parseFrom rest (aliases ++ [normalized]) words
    | (.broken written, _) => ⟨joined words, aliases, some written⟩
termination_by raw.length
decreasing_by
  all_goals
    have hunit : nonSpace unit = true := by
      have hhead := head?_dropWhile_not isSpace raw
      rw [_hraw] at hhead
      simpa [nonSpace] using hhead
    have hlt := length_nextToken hunit t
    have hle := (dropWhile_suffix (l := raw) isSpace).length_le
    rw [_hraw] at hle
    rw [_hnext] at hlt
    exact Nat.lt_of_lt_of_le hlt hle

theorem parseFrom_blank (h : raw.dropWhile isSpace = []) (aliases words : List JsText) :
    parseFrom u raw aliases words = ⟨joined words, aliases, none⟩ := by
  rw [parseFrom]
  split
  · rfl
  · simp_all

theorem parseFrom_word {t text : JsText} (h : raw.dropWhile isSpace = unit :: t)
    (hnext : nextToken (unit :: t) = (.word text, rest)) (aliases words : List JsText) :
    parseFrom u raw aliases words = parseFrom u rest aliases (words ++ [text]) := by
  rw [parseFrom]
  split
  · simp_all
  · rename_i heq
    cases h.symm.trans heq
    split <;> simp_all

theorem parseFrom_broken {t : JsText} (h : raw.dropWhile isSpace = unit :: t)
    (hnext : nextToken (unit :: t) = (.broken written, rest)) (aliases words : List JsText) :
    parseFrom u raw aliases words = ⟨joined words, aliases, some written⟩ := by
  rw [parseFrom]
  split
  · simp_all
  · rename_i heq
    cases h.symm.trans heq
    split <;> simp_all

theorem parseFrom_scope {t : JsText} (h : raw.dropWhile isSpace = unit :: t)
    (hnext : nextToken (unit :: t) = (.scope written, rest)) (aliases words : List JsText) :
    parseFrom u raw aliases words =
      if normalizeChannelSearchAlias u written = [] ∨
          channelSearchScopeMaxAliases ≤ aliases.length then
        ⟨joined words, aliases, some written⟩
      else parseFrom u rest (aliases ++ [normalizeChannelSearchAlias u written]) words := by
  rw [parseFrom]
  split
  · simp_all
  · rename_i heq
    cases h.symm.trans heq
    split <;> simp_all

def parseChannelSearchQuery (raw : JsText) : ParsedChannelSearchQuery :=
  parseFrom u raw [] []

end Parse

/-! ## What is read -/

/-- A word: not empty, without white space, and no scope. -/
structure Plain (word : JsText) : Prop where
  nonempty : word ≠ []
  nonSpace : ∀ unit ∈ word, isSpace unit = false
  noScope : isScope word = false

/-- The way an alias is written inside quotes: quotes and backslashes behind a backslash, and
    whatever else the writer likes. -/
inductive Escapes : JsText → JsText → Prop
  | nil : Escapes [] []
  | bare {unit : ℕ} {text body : JsText} (hquote : unit ≠ quote) (hback : unit ≠ backslash)
      (h : Escapes text body) : Escapes (unit :: text) (unit :: body)
  | escaped (unit : ℕ) {text body : JsText} (h : Escapes text body) :
      Escapes (unit :: text) (backslash :: unit :: body)

inductive Item
  | word (text : JsText)
  | scope (written : JsText)

def Item.word? : Item → Option JsText
  | .word text => some text
  | .scope _ => none

def Item.scope? : Item → Option JsText
  | .word _ => none
  | .scope written => some written

/-- How an item is written. -/
inductive Renders : Item → JsText → Prop
  | word {text : JsText} (h : Plain text) : Renders (.word text) text
  | scope {written body : JsText} (h : Escapes written body) :
      Renders (.scope written) (scopeMark ++ quote :: (body ++ [quote]))

/-- A text of items with white space around them. -/
inductive Written : List Item → JsText → Prop
  | nil {space : JsText} (hspace : ∀ unit ∈ space, isSpace unit = true) : Written [] space
  | cons {item : Item} {items : List Item} {space text rest : JsText}
      (hspace : ∀ unit ∈ space, isSpace unit = true) (hitem : Renders item text)
      (hsep : rest.head?.any nonSpace = false) (h : Written items rest) :
      Written (item :: items) (space ++ (text ++ rest))

variable {items : List Item} {words : List JsText}

theorem Written.plain (h : Written items raw) :
    ∀ word ∈ items.filterMap Item.word?, Plain word := by
  induction h with
  | nil => exact fun _ hmem => absurd hmem not_mem_nil
  | cons _ hitem _ _ ih =>
    cases hitem with
    | word hplain => exact forall_mem_cons.mpr ⟨hplain, ih⟩
    | scope _ => exact ih

theorem readQuoted_escapes {body : JsText} (h : Escapes written body) (rest : JsText) :
    readQuoted (body ++ quote :: rest) = (written, some rest) := by
  induction h with
  | nil =>
    rw [readQuoted.eq_def]
    simp [quote, backslash]
  | bare hquote hback _ ih =>
    rw [readQuoted.eq_def]
    simp [hquote, hback, ih]
  | escaped unit _ ih =>
    rw [cons_append, readQuoted.eq_def]
    simp [ih]

theorem takeWhile_dropWhile_word {word : JsText} (hword : ∀ unit ∈ word, isSpace unit = false)
    (hsep : rest.head?.any nonSpace = false) :
    (word ++ rest).takeWhile nonSpace = word ∧ (word ++ rest).dropWhile nonSpace = rest := by
  have hall : ∀ unit ∈ word, nonSpace unit = true := fun unit hunit => by
    simp [nonSpace, hword unit hunit]
  rw [takeWhile_append_of_pos hall, dropWhile_append_of_pos hall]
  cases rest with
  | nil => simp
  | cons unit rest =>
    have hspace : nonSpace unit = false := by simpa using hsep
    simp [hspace]

/-- White space does not occur in `in:`. -/
theorem lowerUnit_not_mem (h : isSpace unit = true) : lowerUnit unit ∉ scopeMark := by
  have hall : ∀ unit ∈ [9, 10, 11, 12, 13, 32, 160, 5760, 8192, 8193, 8194, 8195, 8196, 8197, 8198,
      8199, 8200, 8201, 8202, 8232, 8233, 8239, 8287, 12288, 65279],
      lowerUnit unit ∉ scopeMark := by
    decide
  exact hall unit (of_decide_eq_true h)

theorem isScope_append {word rest : JsText} (hsep : rest.head?.any nonSpace = false) :
    isScope (word ++ rest) = isScope word := by
  by_cases hlen : 3 ≤ word.length
  · rw [isScope, isScope, take_append_of_le_length hlen]
  cases rest with
  | nil => rw [append_nil]
  | cons unit rest =>
    have hspace : isSpace unit = true := by simpa [nonSpace] using hsep
    -- the white space would be one of the three units
    have hshort : isScope word = false := by
      rw [isScope, decide_eq_false_iff_not]
      intro heq
      have hlength := congrArg List.length heq
      simp [scopeMark] at hlength
      omega
    rw [hshort, isScope, decide_eq_false_iff_not]
    intro heq
    apply lowerUnit_not_mem hspace
    rw [← heq]
    apply mem_map_of_mem
    rw [take_append, mem_append]
    right
    obtain ⟨n, hn⟩ : ∃ n, 3 - word.length = n + 1 := ⟨2 - word.length, by omega⟩
    rw [hn]
    exact mem_cons_self

theorem nextToken_word {word : JsText} (h : Plain word)
    (hsep : rest.head?.any nonSpace = false) : nextToken (word ++ rest) = (.word word, rest) := by
  obtain ⟨htake, hdrop⟩ := takeWhile_dropWhile_word h.nonSpace hsep
  rw [nextToken, isScope_append hsep, h.noScope, htake, hdrop]
  rfl

theorem nextToken_scope {body : JsText} (h : Escapes written body)
    (hsep : rest.head?.any nonSpace = false) :
    nextToken (scopeMark ++ quote :: (body ++ [quote]) ++ rest) = (.scope written, rest) := by
  have hread := readQuoted_escapes h rest
  have htext : scopeMark ++ quote :: (body ++ [quote]) ++ rest =
      105 :: 110 :: 58 :: quote :: (body ++ quote :: rest) := by
    simp [scopeMark]
  rw [nextToken]
  simp [isScope, scopeMark, lowerUnit, hread, hsep]

theorem Renders.dropWhile {item : Item} {text : JsText} (h : Renders item text) {space : JsText}
    (hspace : ∀ unit ∈ space, isSpace unit = true) (rest : JsText) :
    ∃ unit t, (space ++ (text ++ rest)).dropWhile isSpace = unit :: t ∧
      unit :: t = text ++ rest := by
  rw [dropWhile_append_of_pos hspace]
  cases h with
  | word hplain =>
    obtain ⟨unit, text, rfl⟩ := exists_cons_of_ne_nil hplain.nonempty
    refine ⟨unit, text ++ rest, ?_, rfl⟩
    have hunit := hplain.nonSpace unit mem_cons_self
    simp [hunit]
  | scope _ => exact ⟨105, _, rfl, rfl⟩

/-! ## Round trips -/

variable (u : AliasTables)

theorem parseFrom_written (h : Written items raw)
    (hscopes : ∀ item ∈ items, ∀ written, item.scope? = some written →
      normalizeChannelSearchAlias u written ≠ []) (aliases words : List JsText)
    (hlen : aliases.length + (items.filterMap Item.scope?).length ≤ channelSearchScopeMaxAliases) :
    parseFrom u raw aliases words =
      ⟨joined (words ++ items.filterMap Item.word?),
        aliases ++ (items.filterMap Item.scope?).map (normalizeChannelSearchAlias u), none⟩ := by
  induction h generalizing aliases words with
  | nil hspace =>
    rw [parseFrom_blank u (dropWhile_eq_nil_iff.mpr hspace)]
    simp
  | cons hspace hitem hsep _ ih =>
    obtain ⟨unit, t, hdrop, htext⟩ := hitem.dropWhile hspace _
    have hrest := fun item hmem => hscopes item (mem_cons_of_mem _ hmem)
    cases hitem with
    | word hplain =>
      have hnext := nextToken_word hplain hsep
      rw [← htext] at hnext
      rw [parseFrom_word u hdrop hnext, ih hrest _ _ hlen]
      simp [filterMap_cons, Item.word?, Item.scope?]
    | scope hescapes =>
      have hnext := nextToken_scope hescapes hsep
      rw [← htext] at hnext
      have hne := hscopes _ mem_cons_self _ rfl
      simp only [Item.scope?, filterMap_cons, length_cons] at hlen
      rw [parseFrom_scope u hdrop hnext, if_neg (by rw [not_or]; exact ⟨hne, by omega⟩),
        ih hrest _ _ (by rw [length_append, length_singleton]; omega)]
      simp [filterMap_cons, Item.word?, Item.scope?]

theorem Written.spaced (h : Written items raw) : Written items (32 :: raw) := by
  have hspaced : ∀ space : JsText, (∀ unit ∈ space, isSpace unit = true) →
      ∀ unit ∈ 32 :: space, isSpace unit = true := by
    intro space hspace unit hunit
    obtain rfl | hunit := mem_cons.mp hunit
    · decide
    · exact hspace unit hunit
  cases h with
  | nil hspace => exact .nil (hspaced _ hspace)
  | cons hspace hitem hsep hrest => exact .cons (hspaced _ hspace) hitem hsep hrest

section
variable (h : ∀ word ∈ words, Plain word)
include h

theorem written_intercalate : Written (words.map Item.word) ([32].intercalate words) := by
  induction words with
  | nil => exact .nil fun _ hunit => absurd hunit not_mem_nil
  | cons word words ih =>
    have hword : Renders (.word word) word := .word (h word mem_cons_self)
    have hrest := ih fun other hmem => h other (mem_cons_of_mem _ hmem)
    have hnone : ∀ unit ∈ ([] : JsText), isSpace unit = true :=
      fun _ hunit => absurd hunit not_mem_nil
    cases words with
    | nil => simpa using Written.cons hnone hword rfl hrest
    | cons other words =>
      have hcons := @Written.cons _ _ _ _ (32 :: _) hnone hword rfl hrest.spaced
      simpa using hcons

theorem intercalate_words (hne : words ≠ []) :
    ∃ front unit, [32].intercalate words = front ++ [unit] ∧ isSpace unit = false := by
  induction words with
  | nil => exact absurd rfl hne
  | cons word words ih =>
    have hword := h word mem_cons_self
    cases words with
    | nil =>
      obtain ⟨front, unit, rfl⟩ :=
        (eq_nil_or_concat' word).resolve_left hword.nonempty
      refine ⟨front, unit, by simp, hword.nonSpace unit ?_⟩
      exact mem_append_right _ mem_cons_self
    | cons other words =>
      obtain ⟨front, unit, heq, hunit⟩ :=
        ih (fun w hmem => h w (mem_cons_of_mem _ hmem)) (cons_ne_nil _ _)
      refine ⟨word ++ [32] ++ front, unit, ?_, hunit⟩
      rw [intercalate_cons_cons, heq]
      simp

theorem joined_eq : joined words = [32].intercalate words := by
  cases words with
  | nil => rfl
  | cons word words =>
    have hword := h word mem_cons_self
    obtain ⟨front, last, heq, hlast⟩ := intercalate_words h (cons_ne_nil _ _)
    obtain ⟨unit, word, rfl⟩ := exists_cons_of_ne_nil hword.nonempty
    have hunit := hword.nonSpace unit mem_cons_self
    have hdrop : ([32].intercalate ((unit :: word) :: words)).dropWhile isSpace =
        [32].intercalate ((unit :: word) :: words) := by
      rw [intercalate_cons_cons_left, dropWhile_cons_of_neg (by simp [hunit])]
    rw [joined, trim, hdrop, heq, rdropWhile_concat_neg _ _ _ (by simp [hlast])]

end

/-! ## Every text -/

theorem plain_of_nextToken {t word : JsText} (hunit : isSpace unit = false)
    (h : nextToken (unit :: t) = (.word word, rest)) : Plain word := by
  unfold nextToken at h
  split at h
  · split at h
    · cases h
    · split at h
      · split at h
        · cases h
        · split at h <;> cases h
      · cases h
  · rename_i hscope
    cases h
    have hnonSpace : nonSpace unit = true := by simp [nonSpace, hunit]
    refine ⟨?_, fun other hother => ?_, ?_⟩
    · rw [takeWhile_cons_of_pos hnonSpace]
      exact cons_ne_nil _ _
    · simpa [nonSpace] using mem_takeWhile_imp hother
    · have hsep : ((unit :: t).dropWhile nonSpace).head?.any nonSpace = false := by
        have hhead := head?_dropWhile_not nonSpace (unit :: t)
        cases hrest : ((unit :: t).dropWhile nonSpace).head? with
        | none => rfl
        | some other => simpa [hrest] using hhead
      have happend := @isScope_append ((unit :: t).takeWhile nonSpace) _ hsep
      rw [takeWhile_append_dropWhile] at happend
      rw [← happend]
      exact Bool.eq_false_iff.mpr hscope

/-- A normal form that is not empty. -/
def IsAlias (name : JsText) : Prop :=
  name ≠ [] ∧ ∃ written, name = normalizeChannelSearchAlias u written

/-- What is read of any text: plain words, and aliases in their normal form. -/
theorem parseFrom_spec (raw : JsText) (aliases words : List JsText)
    (hwords : ∀ word ∈ words, Plain word) (haliases : ∀ name ∈ aliases, IsAlias u name) :
    (∃ read, (∀ word ∈ read, Plain word) ∧ (parseFrom u raw aliases words).text = joined read) ∧
      ∀ name ∈ (parseFrom u raw aliases words).aliases, IsAlias u name := by
  induction hn : raw.length using Nat.strong_induction_on generalizing raw aliases words with
  | _ n ih =>
    subst hn
    cases hraw : raw.dropWhile isSpace with
    | nil =>
      rw [parseFrom_blank u hraw]
      exact ⟨⟨words, hwords, rfl⟩, haliases⟩
    | cons unit t =>
      have hunit : isSpace unit = false := by
        have hhead := head?_dropWhile_not isSpace raw
        rw [hraw] at hhead
        simpa using hhead
      have hle := (dropWhile_suffix (l := raw) isSpace).length_le
      have hnonSpace : nonSpace unit = true := by simp [nonSpace, hunit]
      have hlt := length_nextToken hnonSpace t
      rw [hraw] at hle
      cases hnext : nextToken (unit :: t) with
      | mk token rest =>
        rw [hnext] at hlt
        have hrest : rest.length < raw.length := Nat.lt_of_lt_of_le hlt hle
        cases token with
        | word text =>
          rw [parseFrom_word u hraw hnext]
          refine ih _ hrest rest aliases (words ++ [text]) (fun word hword => ?_) haliases rfl
          obtain hword | hword := mem_append.mp hword
          · exact hwords word hword
          · rw [mem_singleton.mp hword]
            exact plain_of_nextToken hunit hnext
        | broken written =>
          rw [parseFrom_broken u hraw hnext]
          exact ⟨⟨words, hwords, rfl⟩, haliases⟩
        | scope written =>
          rw [parseFrom_scope u hraw hnext]
          split
          · exact ⟨⟨words, hwords, rfl⟩, haliases⟩
          · rename_i hvalid
            rw [not_or] at hvalid
            refine ih _ hrest rest _ words hwords (fun name hname => ?_) rfl
            obtain hname | hname := mem_append.mp hname
            · exact haliases name hname
            · rw [mem_singleton.mp hname]
              exact ⟨hvalid.1, written, rfl⟩

/-- **The grammar of search scopes**: of any text, what goes into the text search is plain words,
    which read again give themselves and no scope, and every alias is in its normal form; and a
    text made of plain words and of at most eight quoted aliases gives back both. -/
theorem scope_grammar :
    (∀ raw, (parseChannelSearchQuery u raw).invalidAlias = none →
      (∃ words, (∀ word ∈ words, Plain word) ∧
        (parseChannelSearchQuery u raw).text = [32].intercalate words) ∧
      parseChannelSearchQuery u (parseChannelSearchQuery u raw).text =
        ⟨(parseChannelSearchQuery u raw).text, [], none⟩ ∧
      ∀ name ∈ (parseChannelSearchQuery u raw).aliases, IsAlias u name) ∧
    ∀ items raw, Written items raw →
      (∀ written ∈ items.filterMap Item.scope?, normalizeChannelSearchAlias u written ≠ []) →
      (items.filterMap Item.scope?).length ≤ channelSearchScopeMaxAliases →
      parseChannelSearchQuery u raw =
        ⟨[32].intercalate (items.filterMap Item.word?),
          (items.filterMap Item.scope?).map (normalizeChannelSearchAlias u), none⟩ := by
  have hround : ∀ items raw, Written items raw →
      (∀ written ∈ items.filterMap Item.scope?, normalizeChannelSearchAlias u written ≠ []) →
      (items.filterMap Item.scope?).length ≤ channelSearchScopeMaxAliases →
      parseChannelSearchQuery u raw =
        ⟨[32].intercalate (items.filterMap Item.word?),
          (items.filterMap Item.scope?).map (normalizeChannelSearchAlias u), none⟩ := by
    intro items raw h hscopes hlen
    have hplain : ∀ word ∈ items.filterMap Item.word?, Plain word := h.plain
    rw [parseChannelSearchQuery, parseFrom_written u h ?_ [] [] (by simpa using hlen),
      nil_append, nil_append, joined_eq hplain]
    exact fun item hmem written hsome => hscopes written (mem_filterMap.mpr ⟨item, hmem, hsome⟩)
  refine ⟨fun raw _ => ?_, hround⟩
  obtain ⟨⟨words, hwords, htext⟩, haliases⟩ := parseFrom_spec u raw [] []
    (fun _ h => absurd h not_mem_nil) (fun _ h => absurd h not_mem_nil)
  rw [joined_eq hwords] at htext
  change (parseChannelSearchQuery u raw).text = _ at htext
  refine ⟨⟨words, hwords, htext⟩, ?_, haliases⟩
  have hagain := hround (words.map Item.word) _ (written_intercalate hwords)
  have hscope : (words.map Item.word).filterMap Item.scope? = [] := by
    simp [Item.scope?]
  have hword : (words.map Item.word).filterMap Item.word? = words := by
    simp [Function.comp_def, Item.word?]
  rw [hscope, hword] at hagain
  rw [htext]
  exact hagain (fun _ h => absurd h not_mem_nil) (Nat.zero_le _)

/-- `N"A\`, as an alias with a quote and a backslash in it. -/
def quotedAlias : JsText := [78, 34, 65, 92]

/-- `in:"N\"A\\" find`. -/
def quotedSearch : JsText := [105, 110, 58, 34, 78, 92, 34, 65, 92, 92, 34, 32, 102, 105, 110, 100]

theorem scope_grammar_of_quotedSearch :
    parseChannelSearchQuery ⟨id, map lowerUnit⟩ quotedSearch =
      ⟨[102, 105, 110, 100], [[110, 34, 65, 92]], none⟩ := by
  have hplain : Plain [102, 105, 110, 100] := ⟨by decide, by decide, by decide⟩
  have halias : Escapes quotedAlias [78, 92, 34, 65, 92, 92] :=
    .bare (by decide) (by decide) (.escaped 34 (.bare (by decide) (by decide) (.escaped 92 .nil)))
  have hword : Written [.word [102, 105, 110, 100]] [32, 102, 105, 110, 100] :=
    @Written.cons _ _ [32] _ [] (by decide) (.word hplain) (by decide) (.nil (by decide))
  have hwritten : Written [.scope quotedAlias, .word [102, 105, 110, 100]] quotedSearch :=
    @Written.cons _ _ [] _ _ (by decide) (.scope halias) (by decide) hword
  exact (scope_grammar ⟨id, map lowerUnit⟩).2 _ _ hwritten (by decide) (by decide)

end RelayIde.Search
