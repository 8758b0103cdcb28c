import RelayIde.Library.JsText

/-!
# Full-Text Queries

The query language of the FTS5 extension, as documented, where it speaks of strings: a string stands
in double quotes, a quote inside it doubled, or is a bareword; a star behind it makes it a prefix;
`AND` joins phrases.  The query is read as a C string, so that a NUL ends it wherever it stands.

- `quoted` — a literal string
- `parse_join`, `lex_join_eq_none` — literal strings joined, without a NUL and with one
-/

namespace RelayIde.Library.Fts5

open List

/-- A quotation mark. -/
def quoteUnit : ℕ := 34

def starUnit : ℕ := 42

def isSeparator (u : ℕ) : Bool := u = 32 || u = 9 || u = 10 || u = 13

def isBareword (u : ℕ) : Bool :=
  (48 ≤ u && u ≤ 57) || (65 ≤ u && u ≤ 90) || (97 ≤ u && u ≤ 122) || u = 95 || u = 26 || 128 ≤ u

inductive Token
  | string (text : JsText)
  | star
  | and
  | or
  | not
deriving DecidableEq

/-- A bareword: a string, or one of the operators. -/
def wordToken (word : JsText) : Token :=
  if word = JsText.utf16 "AND" then .and
  else if word = JsText.utf16 "OR" then .or
  else if word = JsText.utf16 "NOT" then .not
  else .string word

/-- Where the lexer is: between tokens, in a bareword, inside quotes, or behind a quote that closes
    a string unless another follows it. -/
inductive LexState
  | outside
  | word (text : JsText)
  | inside (text : JsText)
  | closing (text : JsText)
deriving DecidableEq

/-- A character between tokens.  No other operator is read here. -/
def start (u : ℕ) : Option (List Token × LexState) :=
  if isSeparator u then some ([], .outside)
  else if u = quoteUnit then some ([], .inside [])
  else if u = starUnit then some ([.star], .outside)
  else if isBareword u then some ([], .word [u])
  else none

def next : LexState → ℕ → Option (List Token × LexState)
  | .outside, u => start u
  | .word text, u =>
    if isBareword u then some ([], .word (text ++ [u]))
    else (start u).map fun (tokens, state) => (wordToken text :: tokens, state)
  | .inside text, u =>
    if u = quoteUnit then some ([], .closing text) else some ([], .inside (text ++ [u]))
  | .closing text, u =>
    if u = quoteUnit then some ([], .inside (text ++ [quoteUnit]))
    else (start u).map fun (tokens, state) => (.string text :: tokens, state)

/-- The end of the query; a string that is still open is an error. -/
def finish : LexState → Option (List Token)
  | .outside => some []
  | .word text => some [wordToken text]
  | .inside _ => none
  | .closing text => some [.string text]

/-- The tokens of a query from a place of the lexer on; a NUL ends it. -/
def lex (state : LexState) : JsText → Option (List Token)
  | [] => finish state
  | u :: rest =>
    if u = 0 then finish state
    else
      match next state u with
      | none => none
      | some (tokens, state) => (lex state rest).map (tokens ++ ·)

structure Phrase where
  text : JsText
  isPrefix : Bool

/-- Phrases joined by `AND`. -/
def conjunction : List Token → Option (List Phrase)
  | [.string text] => some [⟨text, false⟩]
  | [.string text, .star] => some [⟨text, true⟩]
  | .string text :: .and :: rest => (conjunction rest).map (⟨text, false⟩ :: ·)
  | .string text :: .star :: .and :: rest => (conjunction rest).map (⟨text, true⟩ :: ·)
  | _ => none

def parse (query : JsText) : Option (List Phrase) :=
  (lex .outside query).bind conjunction

/-! ## Quoted strings -/

/-- A literal string without quotes in it. -/
def quoted (text : JsText) : JsText := quoteUnit :: (text ++ [quoteUnit])

/-- A text between quotes is read as it is. -/
theorem lex_inside {text : JsText} (h : quoteUnit ∉ text) (hnul : 0 ∉ text)
    (before rest : JsText) :
    lex (.inside before) (text ++ quoteUnit :: rest) = lex (.closing (before ++ text)) rest := by
  induction text generalizing before with
  | nil => simp [lex, next, quoteUnit]
  | cons u text ih =>
    rw [mem_cons, not_or] at h hnul
    rw [cons_append, lex, if_neg (Ne.symm hnul.1), next, if_neg (Ne.symm h.1)]
    simp [ih h.2 hnul.2]

/-- A NUL between quotes leaves the string open. -/
theorem lex_inside_eq_none {text : JsText} (h : quoteUnit ∉ text) (hnul : 0 ∈ text)
    (before rest : JsText) : lex (.inside before) (text ++ rest) = none := by
  induction text generalizing before with
  | nil => cases hnul
  | cons u text ih =>
    rw [mem_cons, not_or] at h
    rw [cons_append, lex]
    by_cases hu : u = 0
    · rw [if_pos hu]
      rfl
    · have hrest : 0 ∈ text := (mem_cons.mp hnul).resolve_left (Ne.symm hu)
      rw [if_neg hu, next, if_neg (Ne.symm h.1)]
      simp [ih h.2 hrest]

theorem lex_quote (rest : JsText) :
    lex .outside (quoteUnit :: rest) = lex (.inside []) rest := by
  have hstart : next .outside quoteUnit = some ([], .inside []) := by decide
  rw [lex, if_neg (by decide), hstart]
  simp

theorem lex_quoted {text : JsText} (h : quoteUnit ∉ text) (hnul : 0 ∉ text) (rest : JsText) :
    lex .outside (quoted text ++ rest) = lex (.closing text) rest := by
  rw [quoted, cons_append, lex_quote, append_assoc, singleton_append, lex_inside h hnul, nil_append]

theorem lex_quoted_eq_none {text : JsText} (h : quoteUnit ∉ text) (hnul : 0 ∈ text)
    (rest : JsText) : lex .outside (quoted text ++ rest) = none := by
  rw [quoted, cons_append, lex_quote, append_assoc, lex_inside_eq_none h hnul]

theorem lex_closing_and (text rest : JsText) :
    lex (.closing text) (JsText.utf16 " AND " ++ rest) =
      (lex .outside rest).map fun tokens => .string text :: .and :: tokens := by
  have hand : JsText.utf16 " AND " = [32, 65, 78, 68, 32] := by decide
  simp [lex, next, start, isSeparator, isBareword, quoteUnit, starUnit, wordToken, JsText.utf16,
    JsText.ofChar, Function.comp_def]

/-- **Literal strings joined** are the conjunction of their texts as phrases. -/
theorem parse_join {terms : List JsText} (h : ∀ term ∈ terms, quoteUnit ∉ term)
    (hnul : ∀ term ∈ terms, 0 ∉ term) {last : JsText} {phrase : Phrase}
    (hlast : parse last = some [phrase]) :
    parse ((terms.map fun term => quoted term ++ JsText.utf16 " AND ").flatten ++ last) =
      some (terms.map (fun term => ⟨term, false⟩) ++ [phrase]) := by
  induction terms with
  | nil => exact hlast
  | cons term terms ih =>
    have hrest := ih (fun t ht => h t (mem_cons_of_mem _ ht))
      fun t ht => hnul t (mem_cons_of_mem _ ht)
    unfold parse at hrest ⊢
    rw [map_cons, flatten_cons, append_assoc, append_assoc,
      lex_quoted (h term mem_cons_self) (hnul term mem_cons_self), lex_closing_and]
    obtain ⟨tokens, htokens, hphrases⟩ := Option.bind_eq_some_iff.mp hrest
    rw [htokens]
    simp [conjunction, hphrases]

/-- Where one of the strings has a NUL in it, or what follows is in error, the query is. -/
theorem lex_join_eq_none {terms : List JsText} (h : ∀ term ∈ terms, quoteUnit ∉ term)
    {last : JsText} (hnul : (∃ term ∈ terms, 0 ∈ term) ∨ lex .outside last = none) :
    lex .outside
      ((terms.map fun term => quoted term ++ JsText.utf16 " AND ").flatten ++ last) = none := by
  induction terms with
  | nil => exact hnul.resolve_left (by simp)
  | cons term terms ih =>
    rw [map_cons, flatten_cons, append_assoc, append_assoc]
    by_cases hterm : 0 ∈ term
    · exact lex_quoted_eq_none (h term mem_cons_self) hterm _
    · have hrest := ih (fun t ht => h t (mem_cons_of_mem _ ht)) <| hnul.imp_left <| by
        rintro ⟨other, hother, hin⟩
        obtain rfl | hother := mem_cons.mp hother
        · exact absurd hin hterm
        · exact ⟨other, hother, hin⟩
      rw [lex_quoted (h term mem_cons_self) hterm, lex_closing_and, hrest]
      rfl

end RelayIde.Library.Fts5
