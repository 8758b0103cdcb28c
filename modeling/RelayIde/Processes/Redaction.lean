import RelayIde.Library.Text

/-!
# Redacted Command Lines

How secrets are taken out of a command line before it is shown (`server/process-tree.ts`).  Three
rules over the tokens of the line collect ranges, which are replaced one after another, from the
back; what is inside each is removed in favour of a marker.

- `redaction_of_ranges` — nothing inside a range is shown, and all else is, where no two overlap
-/

namespace RelayIde.Processes

open List

open Library.Text (isSpace)

abbrev LineText := List Char

structure CommandToken where
  start : ℕ
  stop : ℕ
  text : LineText

structure RedactionRange where
  start : ℕ
  stop : ℕ

/-! ## Tokens -/

def isQuote (c : Char) : Bool := c = '"' || c = '\''

structure OpenToken where
  start : ℕ
  quote : Option Char
  text : LineText

/-- One character of a token; nothing where it ends the token. -/
def OpenToken.push (token : OpenToken) (c : Char) : Option OpenToken :=
  match token.quote with
  | some quote =>
    some { token with quote := if c = quote then none else some quote, text := token.text ++ [c] }
  | none =>
    if isQuote c then some { token with quote := some c, text := token.text ++ [c] }
    else if isSpace c then none
    else some { token with text := token.text ++ [c] }

def OpenToken.close (token : OpenToken) (index : ℕ) : CommandToken :=
  ⟨token.start, index, token.text⟩

def tokensFrom (index : ℕ) : Option OpenToken → LineText → List CommandToken
  | none, [] => []
  | some token, [] => [token.close index]
  | none, c :: rest =>
    if isSpace c then tokensFrom (index + 1) none rest
    else tokensFrom (index + 1) ((⟨index, none, []⟩ : OpenToken).push c) rest
  | some token, c :: rest =>
    match token.push c with
    | some token => tokensFrom (index + 1) (some token) rest
    | none => token.close index :: tokensFrom (index + 1) none rest

def tokenizeCommandLine (commandLine : LineText) : List CommandToken :=
  tokensFrom 0 none commandLine

/-! ## Rules -/

/-- The options whose value is a secret, without their dashes. -/
def secretOptionNames : List String :=
  ["apikey", "api-key", "api_key", "token", "accesstoken", "access-token", "access_token", "auth",
    "authorization", "password", "secret", "credential", "clientsecret", "client-secret",
    "client_secret"]

def isLineTerminator (c : Char) : Bool := c.toNat ∈ [10, 13, 8232, 8233]

/-- `/^--?(?:…)(?:=.*)?$/i`. -/
def isSecretOption (text : LineText) : Bool :=
  let body :=
    match text with
    | '-' :: '-' :: rest => some rest
    | '-' :: rest => some rest
    | _ => none
  match body with
  | none => false
  | some body =>
    let name := body.takeWhile (· ≠ '=')
    decide (String.ofList (name.map Char.toLower) ∈ secretOptionNames) &&
      !(body.drop name.length).any isLineTerminator

def secretOptionRedaction (token : CommandToken) (nextToken : Option CommandToken) :
    Option RedactionRange :=
  if !isSecretOption token.text then none
  else if !token.text.contains '=' then nextToken.map fun t => ⟨t.start, t.stop⟩
  else
    let valueStart := token.start + token.text.idxOf '=' + 1
    if valueStart < token.stop then some ⟨valueStart, token.stop⟩ else none

/-- `[A-Z0-9_]`. -/
def isVariableChar (c : Char) : Bool :=
  c.isUpper || c.isDigit || c = '_'

def secretVariableParts : List String :=
  ["TOKEN", "PASSWORD", "SECRET", "API_KEY", "ACCESS_KEY"]

/-- `/^([A-Z0-9_]*(?:…)[A-Z0-9_]*=)/`. -/
def secretVariablePrefix (text : LineText) : Option LineText :=
  let name := text.takeWhile isVariableChar
  if (text.drop name.length).head? = some '=' ∧
      secretVariableParts.any (fun part => decide (part.toList <:+: name)) = true then
    some (name ++ ['='])
  else none

def endsWithQuote (quote : Char) (text : LineText) : Bool :=
  decide (text.getLast? = some quote) && !decide (['\\', quote] <:+ text)

def consumeUntilQuote (token : CommandToken) (rest : List CommandToken) (quote : Char) : ℕ :=
  match (token :: rest).find? fun t => endsWithQuote quote t.text with
  | some last => last.stop
  | none => token.stop

/-- `/^--?\w/`. -/
def startsOption (text : LineText) : Bool :=
  let isWord := fun c : Char => c.isAlphanum || c = '_'
  match text with
  | '-' :: '-' :: c :: _ => isWord c
  | '-' :: c :: _ => isWord c
  | _ => false

/-- `/^[A-Z0-9_]+=/`. -/
def startsAssignment (text : LineText) : Bool :=
  let name := text.takeWhile isVariableChar
  !name.isEmpty && decide ((text.drop name.length).head? = some '=')

/-- `Math.max(text.indexOf('"'), text.indexOf("'"))`, where there is a quote. -/
def quoteOffset (text : LineText) : Option ℕ :=
  match text.contains '"', text.contains '\'' with
  | false, false => none
  | true, false => some (text.idxOf '"')
  | false, true => some (text.idxOf '\'')
  | true, true => some (max (text.idxOf '"') (text.idxOf '\''))

def consumeFollowingQuotedFragments : List CommandToken → Option ℕ
  | [] => none
  | token :: rest =>
    if startsOption token.text || startsAssignment token.text then none
    else
      match quoteOffset token.text with
      | some offset => some (token.start + offset + 1)
      | none => consumeFollowingQuotedFragments rest

def envAssignmentRedaction (token : CommandToken) (rest : List CommandToken) :
    Option RedactionRange :=
  match secretVariablePrefix token.text with
  | none => none
  | some envPrefix =>
    let valueStart := token.start + envPrefix.length
    let valueText := token.text.drop envPrefix.length
    let valueEnd :=
      if valueText.contains '"' then consumeUntilQuote token rest '"'
      else if valueText.contains '\'' then consumeUntilQuote token rest '\''
      else (consumeFollowingQuotedFragments rest).getD token.stop
    if valueStart < valueEnd then some ⟨valueStart, valueEnd⟩ else none

/-- `/^(?:bearer|basic)$/i`. -/
def credentialSchemeRedaction (token : CommandToken) (nextToken : Option CommandToken) :
    Option RedactionRange :=
  if String.ofList (token.text.map Char.toLower) ∈ ["bearer", "basic"] then
    nextToken.map fun t => ⟨t.start, t.stop⟩
  else none

/-- The range of a token, by the first rule that gives one. -/
def tokenRedaction (token : CommandToken) (rest : List CommandToken) : Option RedactionRange :=
  ((secretOptionRedaction token rest.head?).or (envAssignmentRedaction token rest)).or
    (credentialSchemeRedaction token rest.head?)

def collectCommandLineRedactions : List CommandToken → List RedactionRange
  | [] => []
  | token :: rest => (tokenRedaction token rest).toList ++ collectCommandLineRedactions rest

def lineRedactions (commandLine : LineText) : List RedactionRange :=
  collectCommandLineRedactions (tokenizeCommandLine commandLine)

/-! ## Replacements -/

def redactedMarker : LineText := "[REDACTED]".toList

def applyRedaction (text : LineText) (range : RedactionRange) : LineText :=
  text.take range.start ++ redactedMarker ++ text.drop range.stop

/-- From the back; the offsets are those of the line before any replacement. -/
def applyRedactions (commandLine : LineText) (redactions : List RedactionRange) : LineText :=
  ((redactions.filter fun range => decide (range.start < range.stop)).insertionSort
    fun a b => b.start ≤ a.start).foldl applyRedaction commandLine

/-- What `redactCommandLine` has before it looks at query parameters. -/
def redactRanges (commandLine : LineText) : LineText :=
  applyRedactions commandLine (lineRedactions commandLine)

/-! ## What is shown -/

/-- The position is inside a range. -/
def Covered (ranges : List RedactionRange) (index : ℕ) : Prop :=
  ∃ range ∈ ranges, range.start ≤ index ∧ index < range.stop

inductive Shows (ranges : List RedactionRange) : ℕ → LineText → LineText → Prop
  | done (index : ℕ) : Shows ranges index [] []
  | kept {index : ℕ} {c : Char} {rest shown : LineText} (hout : ¬Covered ranges index)
      (hrest : Shows ranges (index + 1) rest shown) : Shows ranges index (c :: rest) (c :: shown)
  | removed {index : ℕ} {c : Char} {rest shown : LineText} (hin : Covered ranges index)
      (hrest : Shows ranges (index + 1) rest shown) : Shows ranges index (c :: rest) shown
  | marked {index : ℕ} {text shown : LineText} (hin : Covered ranges index)
      (hrest : Shows ranges index text shown) : Shows ranges index text (redactedMarker ++ shown)

/-- Two ranges have no position in common. -/
def Apart (a b : RedactionRange) : Prop :=
  a.stop ≤ b.start ∨ b.stop ≤ a.start

instance (a b : RedactionRange) : Decidable (Apart a b) := inferInstanceAs (Decidable (_ ∨ _))

variable {ranges : List RedactionRange}

variable {index length : ℕ} {rest tokens : List CommandToken} {shown commandLine text : LineText}
  {range : RedactionRange} {token : CommandToken} {c : Char}

theorem Shows.keep {front rest : LineText}
    (hout : ∀ i, index ≤ i → i < index + front.length → ¬Covered ranges i)
    (h : Shows ranges (index + front.length) rest shown) :
    Shows ranges index (front ++ rest) (front ++ shown) := by
  induction front generalizing index with
  | nil => exact h
  | cons c front ih =>
    rw [length_cons] at hout h
    refine .kept (hout index le_rfl (by omega))
      (ih (fun i hi hlt => hout i (by omega) (by omega)) ?_)
    rwa [Nat.add_comm front.length 1, ← Nat.add_assoc] at h

theorem Shows.remove {front rest : LineText}
    (hin : ∀ i, index ≤ i → i < index + front.length → Covered ranges i)
    (h : Shows ranges (index + front.length) rest shown) :
    Shows ranges index (front ++ rest) shown := by
  induction front generalizing index with
  | nil => exact h
  | cons c front ih =>
    rw [length_cons] at hin h
    refine .removed (hin index le_rfl (by omega))
      (ih (fun i hi hlt => hin i (by omega) (by omega)) ?_)
    rwa [Nat.add_comm front.length 1, ← Nat.add_assoc] at h

/-- A replacement, where nothing is replaced yet before `index`. -/
theorem shows_applyRedaction (hlt : range.start < range.stop) (hstop : range.stop ≤ index)
    (hindex : index ≤ commandLine.length) (hmem : range ∈ ranges)
    (hbetween : ∀ i, range.stop ≤ i → i < index → ¬Covered ranges i)
    (h : Shows ranges index (commandLine.drop index) shown) :
    ∃ shown', applyRedaction (commandLine.take index ++ shown) range =
        commandLine.take range.start ++ shown' ∧
      Shows ranges range.start (commandLine.drop range.start) shown' := by
  set inside := (commandLine.drop range.start).take (range.stop - range.start) with hinside
  set between := (commandLine.drop range.stop).take (index - range.stop) with hbetweenText
  have hinsideLength : inside.length = range.stop - range.start := by
    rw [length_take, length_drop]
    omega
  have hbetweenLength : between.length = index - range.stop := by
    rw [length_take, length_drop]
    omega
  -- the line from the range on: the range, what follows up to the index, and the rest
  have hfromStop : commandLine.drop range.stop = between ++ commandLine.drop index := by
    conv_lhs => rw [← take_append_drop (index - range.stop) (commandLine.drop range.stop)]
    rw [drop_drop, Nat.add_sub_cancel' hstop]
  have hfromStart : commandLine.drop range.start = inside ++ commandLine.drop range.stop := by
    conv_lhs =>
      rw [← take_append_drop (range.stop - range.start) (commandLine.drop range.start)]
    rw [drop_drop, Nat.add_sub_cancel' hlt.le]
  refine ⟨redactedMarker ++ (between ++ shown), ?_, ?_⟩
  · have htake : (commandLine.take index ++ shown).take range.start =
        commandLine.take range.start := by
      rw [take_append_of_le_length (by rw [length_take]; omega), take_take, min_eq_left (by omega)]
    have hdrop : (commandLine.take index ++ shown).drop range.stop = between ++ shown := by
      rw [drop_append_of_le_length (by rw [length_take]; omega), drop_take]
    unfold applyRedaction
    rw [htake, hdrop, append_assoc]
  · have hcovered : ∀ i, range.start ≤ i → i < range.stop → Covered ranges i :=
      fun i hle hlt => ⟨range, hmem, hle, hlt⟩
    refine .marked (hcovered _ le_rfl hlt) ?_
    rw [hfromStart]
    refine .remove (fun i hle hi => hcovered i hle (by omega)) ?_
    rw [hinsideLength, Nat.add_sub_cancel' hlt.le, hfromStop]
    refine .keep (fun i hle hi => hbetween i hle (by omega)) ?_
    rwa [hbetweenLength, Nat.add_sub_cancel' hstop]

theorem shows_foldl {pending : List RedactionRange} (index : ℕ)
    (shown : LineText) (hsub : ∀ range ∈ pending, range ∈ ranges)
    (hlt : ∀ range ∈ pending, range.start < range.stop ∧ range.stop ≤ index)
    (hapart : pending.Pairwise fun a b => b.stop ≤ a.start) (hindex : index ≤ commandLine.length)
    (hcovered : ∀ i < index, Covered ranges i → Covered pending i)
    (h : Shows ranges index (commandLine.drop index) shown) :
    Shows ranges 0 commandLine
      (pending.foldl applyRedaction (commandLine.take index ++ shown)) := by
  induction pending generalizing index shown with
  | nil =>
    -- nothing is left to replace, and nothing before the index is in a range
    have hshow : Shows ranges 0 (commandLine.take index ++ commandLine.drop index)
        (commandLine.take index ++ shown) := by
      refine .keep (fun i _ hi hin => ?_) ?_
      · rw [length_take] at hi
        obtain ⟨range, hrange, -⟩ := hcovered i (by omega) hin
        exact absurd hrange not_mem_nil
      · rw [length_take, min_eq_left hindex, Nat.zero_add]
        exact h
    rwa [take_append_drop] at hshow
  | cons range pending ih =>
    obtain ⟨hfirst, hrest⟩ := pairwise_cons.mp hapart
    obtain ⟨hrange, hstop⟩ := hlt range mem_cons_self
    obtain ⟨shown', happly, hshows⟩ := shows_applyRedaction hrange hstop hindex
      (hsub range mem_cons_self) (fun i hle hi hin => by
        obtain ⟨other, hother, hstart, hend⟩ := hcovered i hi hin
        rcases mem_cons.mp hother with rfl | hother
        · omega
        · have hbefore := hfirst other hother
          omega) h
    rw [foldl_cons, happly]
    refine ih _ _ (fun r hr => hsub r (mem_cons_of_mem _ hr)) (fun r hr => ?_) hrest (by omega)
      (fun i hi hin => ?_) hshows
    · exact ⟨(hlt r (mem_cons_of_mem _ hr)).1, hfirst r hr⟩
    · obtain ⟨other, hother, hstart, hend⟩ := hcovered i (by omega) hin
      rcases mem_cons.mp hother with rfl | hother
      · omega
      · exact ⟨other, hother, hstart, hend⟩

/-! ## Where the ranges lie -/

/-- A token of a line of this length, at its place. -/
structure CommandToken.Within (token : CommandToken) (length : ℕ) : Prop where
  stop : token.start + token.text.length = token.stop
  le : token.stop ≤ length

theorem push_length {token token' : OpenToken} (h : token.push c = some token') :
    token'.start = token.start ∧ token'.text.length = token.text.length + 1 := by
  unfold OpenToken.push at h
  split at h
  · cases h
    exact ⟨rfl, by simp⟩
  · split_ifs at h
    · cases h
      exact ⟨rfl, by simp⟩
    · cases h
      exact ⟨rfl, by simp⟩

theorem within_tokensFrom {open? : Option OpenToken}
    (hopen : ∀ token ∈ open?, token.start + token.text.length = index) :
    ∀ token ∈ tokensFrom index open? text, token.Within (index + text.length) := by
  induction text generalizing index open? with
  | nil =>
    intro token htoken
    cases open? with
    | none => exact absurd htoken not_mem_nil
    | some current =>
      rw [tokensFrom, mem_singleton] at htoken
      exact htoken ▸ ⟨hopen current rfl, le_rfl⟩
  | cons c text ih =>
    intro token htoken
    rw [length_cons, Nat.add_comm text.length 1, ← Nat.add_assoc]
    cases open? with
    | none =>
      unfold tokensFrom at htoken
      split_ifs at htoken
      · exact ih (fun _ hnone => by cases hnone) token htoken
      · refine ih (fun current hcurrent => ?_) token htoken
        obtain ⟨hstart, hlength⟩ := push_length hcurrent
        rw [hstart, hlength]
        rfl
    | some current =>
      unfold tokensFrom at htoken
      split at htoken
      · rename_i next hpush
        refine ih (fun current' hcurrent' => ?_) token htoken
        obtain rfl := Option.some.inj hcurrent'
        obtain ⟨hstart, hlength⟩ := push_length hpush
        have hplace := hopen current rfl
        omega
      · rcases mem_cons.mp htoken with rfl | htoken
        · exact ⟨hopen current rfl, by show index ≤ _; omega⟩
        · exact ih (fun _ hnone => by cases hnone) token htoken

theorem within_tokenize (commandLine : LineText) :
    ∀ token ∈ tokenizeCommandLine commandLine, token.Within commandLine.length := by
  intro token htoken
  have hwithin := within_tokensFrom (fun _ hnone => by cases hnone) token htoken
  rwa [Nat.zero_add] at hwithin

theorem quoteOffset_lt {offset : ℕ} (h : quoteOffset text = some offset) :
    offset < text.length := by
  have hmem (c : Char) (hc : text.contains c = true) : text.idxOf c < text.length :=
    idxOf_lt_length_of_mem (by simpa using hc)
  unfold quoteOffset at h
  split at h
  · cases h
  · rename_i hdouble _
    cases h
    exact hmem '"' hdouble
  · rename_i _ hsingle
    cases h
    exact hmem '\'' hsingle
  · rename_i hdouble hsingle
    cases h
    exact max_lt (hmem '"' hdouble) (hmem '\'' hsingle)

theorem consumeFollowing_le (hwithin : ∀ token ∈ tokens, token.Within length) {stop : ℕ}
    (h : consumeFollowingQuotedFragments tokens = some stop) : stop ≤ length := by
  induction tokens with
  | nil => cases h
  | cons token rest ih =>
    unfold consumeFollowingQuotedFragments at h
    split_ifs at h
    split at h
    · rename_i offset hoffset
      cases h
      obtain ⟨hplace, hle⟩ := hwithin token mem_cons_self
      have hlt := quoteOffset_lt hoffset
      omega
    · exact ih (fun t ht => hwithin t (mem_cons_of_mem _ ht)) h

theorem consumeUntilQuote_le (hwithin : ∀ t ∈ token :: rest, t.Within length) (quote : Char) :
    consumeUntilQuote token rest quote ≤ length := by
  unfold consumeUntilQuote
  split
  · rename_i last hlast
    exact (hwithin last (mem_of_find?_eq_some hlast)).le
  · exact (hwithin token mem_cons_self).le

theorem stop_le_of_tokenRedaction
    (hwithin : ∀ t ∈ token :: rest, t.Within length) {range : RedactionRange}
    (h : tokenRedaction token rest = some range) : range.stop ≤ length := by
  have hnext {next : CommandToken} (hnext : rest.head? = some next) : next.stop ≤ length :=
    (hwithin next (mem_cons_of_mem _ (mem_of_head? hnext))).le
  have htoken := (hwithin token mem_cons_self).le
  rcases Option.or_eq_some_iff.mp h with h | ⟨-, h⟩
  · rcases Option.or_eq_some_iff.mp h with h | ⟨-, h⟩
    · unfold secretOptionRedaction at h
      dsimp only at h
      split_ifs at h
      · obtain ⟨next, hhead, rfl⟩ := Option.map_eq_some_iff.mp h
        exact hnext hhead
      · cases h
        exact htoken
    · unfold envAssignmentRedaction at h
      split at h
      · cases h
      · dsimp only at h
        split_ifs at h
        all_goals cases h
        · exact consumeUntilQuote_le hwithin '"'
        · exact consumeUntilQuote_le hwithin '\''
        · show Option.getD _ _ ≤ length
          cases hfollowing : consumeFollowingQuotedFragments rest with
          | none => exact htoken
          | some stop =>
            exact consumeFollowing_le (fun t ht => hwithin t (mem_cons_of_mem _ ht)) hfollowing
  · unfold credentialSchemeRedaction at h
    split_ifs at h
    obtain ⟨next, hhead, rfl⟩ := Option.map_eq_some_iff.mp h
    exact hnext hhead

theorem mem_collect_iff :
    range ∈ collectCommandLineRedactions tokens ↔
      ∃ pre token rest, tokens = pre ++ token :: rest ∧ tokenRedaction token rest = some range := by
  induction tokens with
  | nil => simp [collectCommandLineRedactions]
  | cons token tokens ih =>
    rw [collectCommandLineRedactions, mem_append, Option.mem_toList, ih]
    constructor
    · rintro (h | ⟨pre, other, rest, rfl, h⟩)
      · exact ⟨[], token, tokens, rfl, h⟩
      · exact ⟨token :: pre, other, rest, rfl, h⟩
    · rintro ⟨pre, other, rest, heq, h⟩
      cases pre with
      | nil =>
        cases heq
        exact .inl h
      | cons first pre =>
        cases heq
        exact .inr ⟨pre, other, rest, rfl, h⟩

theorem stop_le_lineRedactions
    (h : range ∈ lineRedactions commandLine) : range.stop ≤ commandLine.length := by
  obtain ⟨pre, token, rest, heq, hrange⟩ := mem_collect_iff.mp h
  refine stop_le_of_tokenRedaction (fun t ht => within_tokenize commandLine t ?_) hrange
  rw [heq]
  exact mem_append_right _ ht

/-! ## Secrets -/

/-- The redactions of a command line cover every secret it names: the word after a secret
    option, the value given inline, and the value of a secret variable. -/
structure SecretsCovered (commandLine : LineText) : Prop where
  options : ∀ (pre : List CommandToken) (token next : CommandToken) (post : List CommandToken),
    tokenizeCommandLine commandLine = pre ++ token :: next :: post →
      isSecretOption token.text = true → '=' ∉ token.text →
        ∀ i, next.start ≤ i → i < next.stop → Covered (lineRedactions commandLine) i
  inlines : ∀ token ∈ tokenizeCommandLine commandLine,
    isSecretOption token.text = true → '=' ∈ token.text →
      ∀ i, token.start + token.text.idxOf '=' + 1 ≤ i → i < token.stop →
        Covered (lineRedactions commandLine) i
  assignments : ∀ (pre : List CommandToken) (token : CommandToken) (post : List CommandToken)
      (envPrefix : LineText),
    tokenizeCommandLine commandLine = pre ++ token :: post →
      secretVariablePrefix token.text = some envPrefix →
        ∀ i, token.start + envPrefix.length ≤ i → i < token.stop →
          Covered (lineRedactions commandLine) i

theorem head_of_isSecretOption {rest : LineText}
    (h : isSecretOption (c :: rest) = true) : c = '-' := by
  by_contra hc
  have hnone : isSecretOption (c :: rest) = false := by
    unfold isSecretOption
    -- without a dash there is no body to compare
    split
    · rename_i heq
      exact absurd (List.cons.inj heq).1 hc
    · rename_i heq
      exact absurd (List.cons.inj heq).1 hc
    · rfl
  rw [hnone] at h
  cases h

theorem not_option_of_variable {envPrefix : LineText}
    (h : secretVariablePrefix text = some envPrefix) : isSecretOption text = false := by
  cases text with
  | nil => rfl
  | cons c rest =>
    by_contra hoption
    obtain rfl := head_of_isSecretOption (by simpa using hoption)
    have hnone : secretVariablePrefix ('-' :: rest) = none := by
      simp [secretVariablePrefix, isVariableChar]
    cases h

theorem ordered_tokensFrom (index : ℕ) (open? : Option OpenToken) (text : LineText)
    (hopen : ∀ token ∈ open?, token.start ≤ index) :
    (tokensFrom index open? text).Pairwise (fun a b => a.stop ≤ b.start) ∧
      ∀ token ∈ tokensFrom index open? text, (open?.elim index OpenToken.start) ≤ token.start := by
  induction text generalizing index open? with
  | nil =>
    cases open? with
    | none => exact ⟨.nil, fun _ h => absurd h not_mem_nil⟩
    | some current =>
      refine ⟨pairwise_singleton .., fun token htoken => ?_⟩
      obtain rfl := mem_singleton.mp htoken
      exact le_rfl
  | cons c text ih =>
    cases open? with
    | none =>
      unfold tokensFrom
      split_ifs with hspace
      · obtain ⟨hpairs, hstarts⟩ := ih (index + 1) none (fun _ hnone => nomatch hnone)
        exact ⟨hpairs, fun token htoken => (Nat.le_succ index).trans (hstarts token htoken)⟩
      · -- a character that is no space opens a token here
        cases hpush : (⟨index, none, []⟩ : OpenToken).push c with
        | none =>
          obtain ⟨hpairs, hstarts⟩ := ih (index + 1) none (fun _ hnone => nomatch hnone)
          exact ⟨hpairs, fun token htoken => (Nat.le_succ index).trans (hstarts token htoken)⟩
        | some first =>
          have hstart : first.start = index := (push_length hpush).1
          obtain ⟨hpairs, hstarts⟩ := ih (index + 1) (some first)
            (fun _ hfirst => by cases hfirst; omega)
          exact ⟨hpairs, fun token htoken => hstart.ge.trans (hstarts token htoken)⟩
    | some current =>
      have hcurrent := hopen current rfl
      unfold tokensFrom
      split
      · rename_i next hpush
        have hstart : next.start = current.start := (push_length hpush).1
        obtain ⟨hpairs, hstarts⟩ := ih (index + 1) (some next)
          (fun _ hnext => by cases hnext; omega)
        exact ⟨hpairs, fun token htoken => hstart.ge.trans (hstarts token htoken)⟩
      · -- the token ends at the index, and the others start behind it
        obtain ⟨hpairs, hstarts⟩ := ih (index + 1) none (fun _ hnone => nomatch hnone)
        refine ⟨pairwise_cons.mpr ⟨fun token htoken => ?_, hpairs⟩, fun token htoken => ?_⟩
        · exact (Nat.le_succ index).trans (hstarts token htoken)
        · rcases mem_cons.mp htoken with rfl | htoken
          · exact le_rfl
          · exact hcurrent.trans ((Nat.le_succ index).trans (hstarts token htoken))

theorem ordered_tokenize (commandLine : LineText) :
    (tokenizeCommandLine commandLine).Pairwise fun a b => a.stop ≤ b.start :=
  (ordered_tokensFrom 0 none commandLine fun _ hnone => nomatch hnone).1

theorem le_consumeUntilQuote
    (hordered : ∀ t ∈ rest, token.stop ≤ t.start) (hwithin : ∀ t ∈ rest, t.Within length)
    (quote : Char) : token.stop ≤ consumeUntilQuote token rest quote := by
  unfold consumeUntilQuote
  split
  · rename_i last hlast
    rcases mem_cons.mp (mem_of_find?_eq_some hlast) with rfl | hrest
    · exact le_rfl
    · have hstart := hordered last hrest
      have hplace := (hwithin last hrest).stop
      omega
  · exact le_rfl

theorem le_consumeFollowing {stop : ℕ} (hordered : ∀ t ∈ tokens, stop ≤ t.start) :
    stop ≤ (consumeFollowingQuotedFragments tokens).getD stop := by
  induction tokens with
  | nil => exact le_rfl
  | cons token rest ih =>
    unfold consumeFollowingQuotedFragments
    split_ifs
    · exact le_rfl
    · split
      · have hstart := hordered token mem_cons_self
        rw [Option.getD_some]
        omega
      · exact ih fun t ht => hordered t (mem_cons_of_mem _ ht)

theorem exists_envAssignmentRedaction {envPrefix : LineText}
    (hordered : ∀ t ∈ rest, token.stop ≤ t.start) (hwithin : ∀ t ∈ rest, t.Within length)
    (hname : secretVariablePrefix token.text = some envPrefix)
    (hvalue : token.start + envPrefix.length < token.stop) :
    ∃ stop, token.stop ≤ stop ∧
      envAssignmentRedaction token rest = some ⟨token.start + envPrefix.length, stop⟩ := by
  have huntil := le_consumeUntilQuote hordered hwithin
  have hfollowing := le_consumeFollowing hordered
  unfold envAssignmentRedaction
  rw [hname]
  dsimp only
  split
  · rw [if_pos (hvalue.trans_le (huntil '"'))]
    exact ⟨_, huntil '"', rfl⟩
  · split
    · rw [if_pos (hvalue.trans_le (huntil '\''))]
      exact ⟨_, huntil '\'', rfl⟩
    · rw [if_pos (hvalue.trans_le hfollowing)]
      exact ⟨_, hfollowing, rfl⟩

theorem secretsCovered (commandLine : LineText) : SecretsCovered commandLine where
  options := by
    intro pre token next post htokens hoption heq i hle hlt
    refine ⟨⟨next.start, next.stop⟩, mem_collect_iff.mpr ⟨pre, token, next :: post, htokens, ?_⟩,
      hle, hlt⟩
    have hredaction : secretOptionRedaction token (some next) = some ⟨next.start, next.stop⟩ := by
      simp [secretOptionRedaction, hoption, heq]
    unfold tokenRedaction
    rw [head?_cons, hredaction, Option.some_or, Option.some_or]
  inlines := by
    intro token htoken hoption heq i hle hlt
    obtain ⟨pre, post, htokens⟩ := mem_iff_append.mp htoken
    refine ⟨⟨token.start + token.text.idxOf '=' + 1, token.stop⟩,
      mem_collect_iff.mpr ⟨pre, token, post, htokens, ?_⟩, hle, hlt⟩
    have hredaction : secretOptionRedaction token post.head? =
        some ⟨token.start + token.text.idxOf '=' + 1, token.stop⟩ := by
      simp [secretOptionRedaction, hoption, heq, hle.trans_lt hlt]
    unfold tokenRedaction
    rw [hredaction, Option.some_or, Option.some_or]
  assignments := by
    intro pre token post envPrefix htokens hname i hle hlt
    have hordered : ∀ t ∈ post, token.stop ≤ t.start := by
      have hpairs := ordered_tokenize commandLine
      rw [htokens, pairwise_append, pairwise_cons] at hpairs
      exact hpairs.2.1.1
    have hwithin : ∀ t ∈ post, t.Within commandLine.length := fun t ht =>
      within_tokenize commandLine t (by
        rw [htokens]
        exact mem_append_right _ (mem_cons_of_mem _ ht))
    obtain ⟨stop, hstop, hredaction⟩ :=
      exists_envAssignmentRedaction hordered hwithin hname (hle.trans_lt hlt)
    refine ⟨⟨token.start + envPrefix.length, stop⟩,
      mem_collect_iff.mpr ⟨pre, token, post, htokens, ?_⟩, hle, hlt.trans_le hstop⟩
    -- an assignment is no option, so that the first rule gives nothing
    have hnone : secretOptionRedaction token post.head? = none := by
      simp [secretOptionRedaction, not_option_of_variable hname]
    unfold tokenRedaction
    rw [hnone, Option.none_or, hredaction, Option.some_or]

/-! ## The redacted line -/

variable {ranges : List RedactionRange}

/-- What is replaced holds what the ranges hold: empty ones hold nothing. -/
theorem covered_pending {i : ℕ} (h : Covered ranges i) :
    Covered ((ranges.filter fun range => decide (range.start < range.stop)).insertionSort
      fun a b => b.start ≤ a.start) i := by
  obtain ⟨range, hrange, hle, hlt⟩ := h
  refine ⟨range, mem_insertionSort _ |>.mpr (mem_filter.mpr ⟨hrange, ?_⟩), hle, hlt⟩
  exact decide_eq_true (hle.trans_lt hlt)

/-- Where the ranges are apart, each one replaced ends before the ones replaced earlier. -/
theorem pending_pairwise (hapart : ranges.Pairwise Apart) :
    ((ranges.filter fun range => decide (range.start < range.stop)).insertionSort
      fun a b => b.start ≤ a.start).Pairwise fun a b => b.stop ≤ a.start := by
  set pending := ranges.filter fun range => decide (range.start < range.stop) with hpending
  have hsorted : (pending.insertionSort fun a b => b.start ≤ a.start).Pairwise
      fun a b => b.start ≤ a.start := by
    exact pairwise_insertionSort _ pending
  have hpairs : (pending.insertionSort fun a b => b.start ≤ a.start).Pairwise Apart :=
    ((perm_insertionSort _ pending).pairwise_iff fun h => Or.symm h).mpr (hapart.filter _)
  refine (hsorted.and hpairs).imp_of_mem fun {a b} ha hb h => ?_
  have hnonempty : ∀ range ∈ pending.insertionSort (fun a b => b.start ≤ a.start),
      range.start < range.stop := fun range hrange =>
    of_decide_eq_true (mem_filter.mp ((mem_insertionSort _).mp hrange)).2
  have hfirst := hnonempty a ha
  obtain ⟨hle, hstop | hstop⟩ := h
  · omega
  · exact hstop

/-- Where no two ranges of a line overlap, what is shown is what lies outside them, and no value of
    a secret option or variable is. -/
theorem redaction_of_ranges (commandLine : LineText)
    (h : (lineRedactions commandLine).Pairwise Apart) :
    Shows (lineRedactions commandLine) 0 commandLine (redactRanges commandLine) ∧
      SecretsCovered commandLine := by
  refine ⟨?_, secretsCovered commandLine⟩
  have hmem {range : RedactionRange} (hrange : range ∈ ((lineRedactions commandLine).filter
      fun range => decide (range.start < range.stop)).insertionSort fun a b => b.start ≤ a.start) :=
    mem_filter.mp ((mem_insertionSort _).mp hrange)
  have hshows := shows_foldl commandLine.length []
    (fun range hrange => (hmem hrange).1)
    (fun range hrange => ⟨of_decide_eq_true (hmem hrange).2,
      stop_le_lineRedactions (hmem hrange).1⟩)
    (pending_pairwise h) le_rfl (fun i _ hin => covered_pending hin)
    (by rw [drop_length]; exact .done _)
  rwa [append_nil, take_length] at hshows

/-- A line with an option and a variable, whose ranges are apart. -/
theorem redaction_of_ranges_example :
    Shows (lineRedactions "agent --token abc KEY=x API_KEY=\"a b\" run".toList) 0
        "agent --token abc KEY=x API_KEY=\"a b\" run".toList
        (redactRanges "agent --token abc KEY=x API_KEY=\"a b\" run".toList) ∧
      SecretsCovered "agent --token abc KEY=x API_KEY=\"a b\" run".toList :=
  redaction_of_ranges _ (by decide)

/-! ### Nested ranges -/

instance (ranges : List RedactionRange) (index : ℕ) : Decidable (Covered ranges index) :=
  inferInstanceAs (Decidable (∃ range ∈ ranges, _))

/-- How often a character occurs outside the ranges. -/
def keptCount (ranges : List RedactionRange) (c : Char) : ℕ → LineText → ℕ
  | _, [] => 0
  | index, d :: rest =>
    (if d = c ∧ ¬Covered ranges index then 1 else 0) + keptCount ranges c (index + 1) rest

theorem count_of_shows (hc : c ∉ redactedMarker)
    (h : Shows ranges index text shown) : shown.count c = keptCount ranges c index text := by
  induction h with
  | done => rfl
  | @kept index d rest shown hout hrest ih =>
    rw [keptCount, count_cons, ih, Nat.add_comm]
    simp [hout]
  | @removed index d rest shown hin hrest ih =>
    rw [keptCount, ih]
    simp [hin]
  | marked hin hrest ih => rw [count_append, count_eq_zero.mpr hc, Nat.zero_add, ih]

/-- A variable's value that goes on behind an option with a short value: the option's marker moves
    the end of the value out of the variable's range, and it is shown. -/
theorem shown_behind_nested_range :
    ¬ ∀ commandLine, Shows (lineRedactions commandLine) 0 commandLine (redactRanges commandLine) ∧
      SecretsCovered commandLine := by
  intro h
  have hcount := count_of_shows (c := 'f') (by decide)
    (h "API_KEY=\"ab\"cd --token x \"ef\"".toList).1
  have hkept : keptCount (lineRedactions "API_KEY=\"ab\"cd --token x \"ef\"".toList) 'f' 0
      "API_KEY=\"ab\"cd --token x \"ef\"".toList = 0 := by decide
  have hshown : (redactRanges "API_KEY=\"ab\"cd --token x \"ef\"".toList).count 'f' = 1 := by
    decide
  rw [hkept, hshown] at hcount
  exact absurd hcount Nat.one_ne_zero

end RelayIde.Processes
