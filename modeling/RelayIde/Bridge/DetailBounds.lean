import RelayIde.Library.ByteSize

/-!
# Bounded Detail Cards

What the channel bridge keeps of a provider's detail card: every text cut to its cap, and the
content cut again while the JSON of the whole detail is above 256 KiB.  The bridge bounds a card
when it arrives and bounds the bounded card again when it stores it, so the second pass reads
what the first one wrote.

- `bounds_iff_uncut` — bounding twice keeps the recorded size exactly for an uncut card
-/

namespace RelayIde.Bridge

open RelayIde.Library List
open RelayIde.Library.JsText (byteLength utf16)
open RelayIde.Library.Json (NumberFormat stringify quote propertiesBytes)

/-! ## Cards -/

/-- `AgentDetailCardKindV2`. -/
inductive DetailKind where
  | message
  | thought
  | toolCall
  | output
  | diff
  deriving DecidableEq

def DetailKind.text : DetailKind → JsText
  | .message => utf16 "message"
  | .thought => utf16 "thought"
  | .toolCall => utf16 "tool_call"
  | .output => utf16 "output"
  | .diff => utf16 "diff"

/-- `AgentDetailCardStatusV2`. -/
inductive DetailStatus where
  | pending
  | running
  | completed
  | failed
  | cancelled

def DetailStatus.text : DetailStatus → JsText
  | .pending => utf16 "pending"
  | .running => utf16 "running"
  | .completed => utf16 "completed"
  | .failed => utf16 "failed"
  | .cancelled => utf16 "cancelled"

/-- `AgentDetailCardV2`. -/
structure DetailCard (Num : Type) where
  kind : DetailKind
  title : JsText
  status : DetailStatus
  content : Option JsText
  language : Option JsText
  command : Option JsText
  path : Option JsText
  additions : Option Num
  deletions : Option Num
  sizeBytes : Option Num

/-- `ChannelAgentDetail`. -/
structure Detail (Num : Type) where
  itemId : JsText
  card : DetailCard Num

variable {Num : Type}

def textProperty (key : String) (value : Option JsText) : List (JsText × Json Num) :=
  match value with
  | none => []
  | some t => [(utf16 key, .str t)]

def numberProperty (key : String) (value : Option Num) : List (JsText × Json Num) :=
  match value with
  | none => []
  | some n => [(utf16 key, .num n)]

/-- The properties a card has.  The program creates the counts of a diff behind `sizeBytes` when
    the provider sent none; the place of a property changes no size. -/
def DetailCard.properties (card : DetailCard Num) : List (JsText × Json Num) :=
  [(utf16 "kind", .str card.kind.text), (utf16 "title", .str card.title),
    (utf16 "status", .str card.status.text)] ++
  textProperty "language" card.language ++ textProperty "command" card.command ++
  textProperty "path" card.path ++ textProperty "content" card.content ++
  numberProperty "additions" card.additions ++ numberProperty "deletions" card.deletions ++
  numberProperty "sizeBytes" card.sizeBytes

def Detail.json (detail : Detail Num) : Json Num :=
  .obj [(utf16 "itemId", .str detail.itemId), (utf16 "card", .obj detail.card.properties)]

/-- `Buffer.byteLength(JSON.stringify(detail), 'utf8')`. -/
def Detail.bytes (F : NumberFormat Num) (detail : Detail Num) : ℕ :=
  byteLength (stringify F detail.json)

/-! ## The bound -/

/-- `CHANNEL_AGENT_DETAIL_MAX_BYTES`. -/
def detailMaxBytes : ℕ := 256 * 1024

/-- `CHANNEL_BRIDGE_DETAIL_MAX_CHARS`. -/
def detailMaxChars : ℕ := 64 * 1024

/-- `CHANNEL_BRIDGE_DETAIL_ITEM_ID_MAX_CHARS`. -/
def detailItemIdMaxChars : ℕ := 1024

/-- `CHANNEL_BRIDGE_DETAIL_TITLE_MAX_CHARS`. -/
def detailTitleMaxChars : ℕ := 1024

/-- `CHANNEL_BRIDGE_DETAIL_LANGUAGE_MAX_CHARS`. -/
def detailLanguageMaxChars : ℕ := 128

/-- `CHANNEL_BRIDGE_DETAIL_COMMAND_MAX_CHARS`. -/
def detailCommandMaxChars : ℕ := 4096

/-- `CHANNEL_BRIDGE_DETAIL_PATH_MAX_CHARS`. -/
def detailPathMaxChars : ℕ := 4096

/-- The first `n` code units, or the last. -/
def slice (keepTail : Bool) (n : ℕ) (value : JsText) : JsText :=
  if keepTail then value.drop (value.length - n) else value.take n

def boundScalar (value : JsText) (maxChars : ℕ) (keepTail : Bool) : JsText :=
  if value.length ≤ maxChars then value else slice keepTail maxChars value

/-- A line of a unified diff that starts with a mark and is no file header. -/
def isMarkedLine (mark header line : JsText) : Bool :=
  mark.isPrefixOf line && !header.isPrefixOf line

/-- `diffCounts`: the lines added and the lines removed. -/
def diffCounts (content : JsText) : ℕ × ℕ :=
  let lines := content.splitOn 10
  (lines.countP (isMarkedLine (utf16 "+") (utf16 "+++")),
    lines.countP (isMarkedLine (utf16 "-") (utf16 "---")))

def boundedItemId (sha256Hex : JsText → JsText) (itemId : JsText) : JsText :=
  if itemId.length ≤ detailItemIdMaxChars then itemId
  else
    let suffix := utf16 "#" ++ (sha256Hex itemId).take 24
    itemId.take (detailItemIdMaxChars - suffix.length) ++ suffix

def DetailKind.keepsTail : DetailKind → Bool
  | .output => true
  | .toolCall => true
  | _ => false

def diffCount (F : NumberFormat Num) (kind : DetailKind) (content : Option JsText)
    (known : Option Num) (counted : ℕ × ℕ → ℕ) : Option Num :=
  match content with
  | none => known
  | some text =>
    if kind = .diff ∧ text ≠ [] then some (known.getD (F.ofNat (counted (diffCounts text))))
    else known

/-- The card before the loop. -/
def clippedCard (F : NumberFormat Num) (source : DetailCard Num) : DetailCard Num :=
  let content := source.content.map fun t => boundScalar t detailMaxChars source.kind.keepsTail
  { kind := source.kind
    title := boundScalar source.title detailTitleMaxChars false
    status := source.status
    content := content
    language := source.language.map fun t => boundScalar t detailLanguageMaxChars false
    command := source.command.map fun t => boundScalar t detailCommandMaxChars true
    path := source.path.map fun t => boundScalar t detailPathMaxChars true
    additions := diffCount F source.kind content source.additions Prod.fst
    deletions := diffCount F source.kind content source.deletions Prod.snd
    sizeBytes :=
      match source.content with
      | some t => some (F.ofNat (byteLength t))
      | none => source.sizeBytes }

/-- The length the loop cuts to: four fifths, and at least one unit less. -/
def nextLength (previousLength : ℕ) : ℕ :=
  min (previousLength - 1) (previousLength * 4 / 5)

/-- The card after one round of the loop.  The counts of a diff are there already. -/
def tightenedCard (F : NumberFormat Num) (card : DetailCard Num) (content : JsText) :
    DetailCard Num :=
  let nextContent := slice card.kind.keepsTail (nextLength content.length) content
  let counted (known : Option Num) (count : ℕ) : Option Num :=
    if card.kind = .diff then some (known.getD (F.ofNat count)) else known
  { card with
    content := some nextContent
    additions := counted card.additions (diffCounts nextContent).1
    deletions := counted card.deletions (diffCounts nextContent).2 }

variable (value : JsText) (maxChars : ℕ) (keepTail : Bool)

theorem length_slice {n : ℕ} {value : JsText} (h : n ≤ value.length) :
    (slice keepTail n value).length = n := by
  unfold slice
  split
  · rw [length_drop]
    omega
  · rw [length_take]
    omega

theorem nextLength_lt {n : ℕ} (h : 0 < n) : nextLength n < n := by
  unfold nextLength
  omega

/-- The loop: while there is content and the JSON is too large. -/
def tighten (F : NumberFormat Num) (detail : Detail Num) : Detail Num :=
  match _hcontent : detail.card.content with
  | none => detail
  | some content =>
    if 0 < content.length ∧ detailMaxBytes < detail.bytes F then
      tighten F { detail with card := tightenedCard F detail.card content }
    else detail
termination_by (detail.card.content.getD []).length
decreasing_by
  rename_i hloop
  have hlt := nextLength_lt hloop.1
  simp only [tightenedCard, _hcontent, Option.getD_some]
  rwa [length_slice _ hlt.le]

/-- `boundChannelAgentDetail`; the throw is `none`. -/
def boundChannelAgentDetail (sha256Hex : JsText → JsText) (F : NumberFormat Num)
    (itemId : JsText) (sourceCard : DetailCard Num) : Option (Detail Num) :=
  let detail := tighten F
    { itemId := boundedItemId sha256Hex itemId, card := clippedCard F sourceCard }
  if detailMaxBytes < detail.bytes F then none else some detail

/-! ## What the loop keeps -/

/-- What is left of a text: its end or its beginning. -/
def Piece (keepTail : Bool) (part whole : JsText) : Prop :=
  if keepTail then part <:+ whole else part <+: whole

theorem Piece.refl (t : JsText) : Piece keepTail t t := by
  unfold Piece
  split
  · exact suffix_refl t
  · exact prefix_refl t

theorem Piece.trans {keepTail : Bool} {a b c : JsText} (hab : Piece keepTail a b)
    (hbc : Piece keepTail b c) : Piece keepTail a c := by
  cases keepTail with
  | false => exact List.IsPrefix.trans hab hbc
  | true => exact List.IsSuffix.trans hab hbc

theorem Piece.length_le {keepTail : Bool} {a b : JsText} (h : Piece keepTail a b) :
    a.length ≤ b.length := by
  cases keepTail with
  | false => exact List.IsPrefix.length_le h
  | true => exact List.IsSuffix.length_le h

theorem piece_slice (n : ℕ) (value : JsText) : Piece keepTail (slice keepTail n value) value := by
  cases keepTail with
  | false => exact take_prefix n value
  | true => exact drop_suffix (value.length - n) value

theorem piece_boundScalar : Piece keepTail (boundScalar value maxChars keepTail) value := by
  unfold boundScalar
  split
  · exact Piece.refl keepTail value
  · exact piece_slice keepTail maxChars value

theorem Piece.byteLength_lt {keepTail : Bool} {a b : JsText} (h : Piece keepTail a b)
    (hlt : a.length < b.length) : byteLength a < byteLength b := by
  cases keepTail with
  | false =>
    obtain ⟨rest, rfl⟩ : a <+: b := h
    apply JsText.byteLength_lt_append
    rintro rfl
    rw [append_nil] at hlt
    exact lt_irrefl _ hlt
  | true =>
    obtain ⟨rest, rfl⟩ : a <:+ b := h
    apply JsText.byteLength_lt_append_left
    rintro rfl
    exact lt_irrefl _ hlt

private theorem rel_some {α : Type} {r : α → α → Prop} {a b : Option α} (h : Option.Rel r a b)
    {y : α} (hb : b = some y) : ∃ x, a = some x ∧ r x y := by
  cases h with
  | none => cases hb
  | some hxy =>
    cases hb
    exact ⟨_, rfl, hxy⟩

private theorem rel_trans_piece {keepTail : Bool} {a b c : Option JsText}
    (hab : Option.Rel (Piece keepTail) a b) (hbc : Option.Rel (Piece keepTail) b c) :
    Option.Rel (Piece keepTail) a c := by
  cases hab with
  | none =>
    cases hbc
    exact .none
  | some hab =>
    cases hbc with
    | some hbc => exact .some (hab.trans hbc)

/-- The second detail is the first with its content cut. -/
structure Shortened (d d' : Detail Num) : Prop where
  itemId : d'.itemId = d.itemId
  kind : d'.card.kind = d.card.kind
  title : d'.card.title = d.card.title
  status : d'.card.status = d.card.status
  language : d'.card.language = d.card.language
  command : d'.card.command = d.card.command
  path : d'.card.path = d.card.path
  sizeBytes : d'.card.sizeBytes = d.card.sizeBytes
  content : Option.Rel (Piece d.card.kind.keepsTail) d'.card.content d.card.content

theorem Shortened.refl (d : Detail Num) : Shortened d d where
  itemId := rfl
  kind := rfl
  title := rfl
  status := rfl
  language := rfl
  command := rfl
  path := rfl
  sizeBytes := rfl
  content := by
    cases d.card.content with
    | none => exact .none
    | some t => exact .some (Piece.refl _ t)

theorem Shortened.trans {a b c : Detail Num} (hab : Shortened a b) (hbc : Shortened b c) :
    Shortened a c where
  itemId := hbc.itemId.trans hab.itemId
  kind := hbc.kind.trans hab.kind
  title := hbc.title.trans hab.title
  status := hbc.status.trans hab.status
  language := hbc.language.trans hab.language
  command := hbc.command.trans hab.command
  path := hbc.path.trans hab.path
  sizeBytes := hbc.sizeBytes.trans hab.sizeBytes
  content := by
    have hsecond := hbc.content
    rw [hab.kind] at hsecond
    exact rel_trans_piece hsecond hab.content

variable {detail d : Detail Num} {content t itemId : JsText} {card : DetailCard Num}

section
variable (F : NumberFormat Num)
include F

theorem shortened_tightenedCard (hcontent : detail.card.content = some content) :
    Shortened detail { detail with card := tightenedCard F detail.card content } where
  itemId := rfl
  kind := rfl
  title := rfl
  status := rfl
  language := rfl
  command := rfl
  path := rfl
  sizeBytes := rfl
  content := by
    rw [hcontent]
    exact .some (piece_slice _ _ content)

theorem tighten_of_none (hnone : detail.card.content = none) : tighten F detail = detail := by
  rw [tighten]
  split
  · rfl
  · rename_i content hsome
    rw [hnone] at hsome
    cases hsome

theorem tighten_of_loop (hcontent : detail.card.content = some content)
    (hloop : 0 < content.length ∧ detailMaxBytes < detail.bytes F) :
    tighten F detail = tighten F { detail with card := tightenedCard F detail.card content } := by
  rw [tighten]
  split
  · rename_i hnone
    rw [hcontent] at hnone
    cases hnone
  · rename_i content' hcontent'
    obtain rfl : content = content' := Option.some.inj (hcontent.symm.trans hcontent')
    rw [if_pos hloop]

theorem tighten_of_done (hcontent : detail.card.content = some content)
    (hdone : ¬ (0 < content.length ∧ detailMaxBytes < detail.bytes F)) :
    tighten F detail = detail := by
  rw [tighten]
  split
  · rfl
  · rename_i content' hcontent'
    obtain rfl : content = content' := Option.some.inj (hcontent.symm.trans hcontent')
    rw [if_neg hdone]

theorem shortened_tighten (detail : Detail Num) : Shortened detail (tighten F detail) := by
  induction detail using tighten.induct F with
  | case1 detail hnone =>
    rw [tighten_of_none F hnone]
    exact Shortened.refl detail
  | case2 detail content hcontent hloop ih =>
    rw [tighten_of_loop F hcontent hloop]
    exact (shortened_tightenedCard F hcontent).trans ih
  | case3 detail content hcontent hloop =>
    rw [tighten_of_done F hcontent hloop]
    exact Shortened.refl detail

theorem tighten_of_fits (hfits : detail.bytes F ≤ detailMaxBytes) : tighten F detail = detail := by
  cases hcontent : detail.card.content with
  | none => exact tighten_of_none F hcontent
  | some content => exact tighten_of_done F hcontent fun hloop => hloop.2.not_ge hfits

theorem tighten_content_lt (hcontent : detail.card.content = some content)
    (hloop : 0 < content.length ∧ detailMaxBytes < detail.bytes F) :
    ∃ rest, (tighten F detail).card.content = some rest ∧ rest.length < content.length := by
  have hlt := nextLength_lt hloop.1
  have hrest := (shortened_tighten F { detail with
    card := tightenedCard F detail.card content }).content
  rw [← tighten_of_loop F hcontent hloop] at hrest
  obtain ⟨rest, hsome, hpiece⟩ := rel_some hrest rfl
  refine ⟨rest, hsome, hpiece.length_le.trans_lt ?_⟩
  rwa [length_slice _ hlt.le]

end

/-! ## A detail without content fits -/

/-- Every text but the content is within its cap. -/
structure Capped (d : Detail Num) : Prop where
  itemId : d.itemId.length ≤ detailItemIdMaxChars
  title : d.card.title.length ≤ detailTitleMaxChars
  language : ∀ t, d.card.language = some t → t.length ≤ detailLanguageMaxChars
  command : ∀ t, d.card.command = some t → t.length ≤ detailCommandMaxChars
  path : ∀ t, d.card.path = some t → t.length ≤ detailPathMaxChars

theorem Capped.shortened {d' : Detail Num} (h : Capped d) (hcut : Shortened d d') : Capped d' where
  itemId := hcut.itemId ▸ h.itemId
  title := hcut.title ▸ h.title
  language := hcut.language ▸ h.language
  command := hcut.command ▸ h.command
  path := hcut.path ▸ h.path

theorem length_boundScalar_le : (boundScalar value maxChars keepTail).length ≤ maxChars := by
  unfold boundScalar
  split
  · assumption
  · rename_i hlong
    exact (length_slice keepTail (Nat.le_of_not_le hlong)).le

variable (sha256Hex : JsText → JsText)

theorem length_boundedItemId_le (itemId : JsText) :
    (boundedItemId sha256Hex itemId).length ≤ detailItemIdMaxChars := by
  unfold boundedItemId
  split
  · assumption
  · have hsuffix : (utf16 "#" ++ (sha256Hex itemId).take 24).length ≤ 25 := by
      rw [length_append, length_take]
      exact Nat.add_le_add (le_refl 1) (min_le_left _ _)
    rw [length_append, length_take]
    unfold detailItemIdMaxChars
    omega

theorem capped_clippedCard (F : NumberFormat Num)
    (itemId : JsText) (source : DetailCard Num) :
    Capped { itemId := boundedItemId sha256Hex itemId, card := clippedCard F source } where
  itemId := length_boundedItemId_le sha256Hex itemId
  title := length_boundScalar_le _ _ _
  language := by
    intro t ht
    obtain ⟨value, -, rfl⟩ := Option.map_eq_some_iff.mp ht
    exact length_boundScalar_le _ _ _
  command := by
    intro t ht
    obtain ⟨value, -, rfl⟩ := Option.map_eq_some_iff.mp ht
    exact length_boundScalar_le _ _ _
  path := by
    intro t ht
    obtain ⟨value, -, rfl⟩ := Option.map_eq_some_iff.mp ht
    exact length_boundScalar_le _ _ _

theorem propertiesBytes_textProperty_le (F : NumberFormat Num) (key : String)
    {value : Option JsText} {maxChars : ℕ} (h : ∀ t, value = some t → t.length ≤ maxChars) :
    propertiesBytes F (textProperty key value) ≤ 6 * (utf16 key).length + 6 * maxChars + 6 := by
  cases value with
  | none => exact Nat.zero_le _
  | some t =>
    have hkey := Json.byteLength_quote_le (utf16 key)
    have htext := Json.byteLength_quote_le t
    have hlength := h t rfl
    simp only [textProperty, Json.propertiesBytes_cons, Json.propertiesBytes_nil, stringify]
    omega

section Digits

variable {F : NumberFormat Num} (hprint : ∀ n, (F.print n).length ≤ 25)

include hprint

theorem propertiesBytes_numberProperty_le (key : String) (value : Option Num) :
    propertiesBytes F (numberProperty key value) ≤ 6 * (utf16 key).length + 79 := by
  cases value with
  | none => exact Nat.zero_le _
  | some n =>
    have hkey := Json.byteLength_quote_le (utf16 key)
    have hdigits := JsText.byteLength_le (F.print n)
    have hlength := hprint n
    simp only [numberProperty, Json.propertiesBytes_cons, Json.propertiesBytes_nil, stringify]
    omega

/-- The caps of the other texts leave room, at six bytes for each of their code units. -/
theorem bytes_le_of_capped (h : Capped d) (hcontent : ∀ t, d.card.content = some t → t.length ≤ 0) :
    d.bytes F ≤ detailMaxBytes := by
  have hstring (t : JsText) : stringify F (.str t) = quote t := by rw [stringify]
  have hlengths : (utf16 "language").length = 8 ∧ (utf16 "command").length = 7 ∧
      (utf16 "path").length = 4 ∧ (utf16 "content").length = 7 ∧
      (utf16 "additions").length = 9 ∧ (utf16 "deletions").length = 9 ∧
      (utf16 "sizeBytes").length = 9 := by decide
  have hkeys : byteLength (quote (utf16 "kind")) = 6 ∧ byteLength (quote (utf16 "title")) = 7 ∧
      byteLength (quote (utf16 "status")) = 8 ∧ byteLength (quote (utf16 "itemId")) = 8 ∧
      byteLength (quote (utf16 "card")) = 6 := by decide
  -- the card, property by property
  have hcard : byteLength (stringify F (.obj d.card.properties)) ≤ 60000 := by
    have hkind := Json.byteLength_quote_le d.card.kind.text
    have hkindText : d.card.kind.text.length ≤ 9 := by cases d.card.kind <;> decide
    have hstatus := Json.byteLength_quote_le d.card.status.text
    have hstatusText : d.card.status.text.length ≤ 9 := by cases d.card.status <;> decide
    have htitle := Json.byteLength_quote_le d.card.title
    have htitleText := h.title
    have hlanguage := propertiesBytes_textProperty_le F "language" h.language
    have hcommand := propertiesBytes_textProperty_le F "command" h.command
    have hpath := propertiesBytes_textProperty_le F "path" h.path
    have hempty := propertiesBytes_textProperty_le F "content" hcontent
    have hadditions := propertiesBytes_numberProperty_le hprint "additions" d.card.additions
    have hdeletions := propertiesBytes_numberProperty_le hprint "deletions" d.card.deletions
    have hsize := propertiesBytes_numberProperty_le hprint "sizeBytes" d.card.sizeBytes
    have hobject := Json.byteLength_stringify_obj_le F d.card.properties
    simp only [detailTitleMaxChars, detailLanguageMaxChars, detailCommandMaxChars,
      detailPathMaxChars] at htitleText hlanguage hcommand hpath
    nth_rewrite 2 [DetailCard.properties] at hobject
    simp only [Json.propertiesBytes_append, Json.propertiesBytes_cons, Json.propertiesBytes_nil,
      hstring] at hobject
    omega
  -- the card and its item id
  have hitem := Json.byteLength_quote_le d.itemId
  have hitemText := h.itemId
  have hobject := Json.byteLength_stringify_obj_le F
    [(utf16 "itemId", .str d.itemId), (utf16 "card", .obj d.card.properties)]
  simp only [Json.propertiesBytes_cons, Json.propertiesBytes_nil, hstring] at hobject
  unfold Detail.bytes Detail.json detailMaxBytes
  unfold detailItemIdMaxChars at hitemText
  omega

theorem fits_tighten (h : Capped d) : (tighten F d).bytes F ≤ detailMaxBytes := by
  induction d using tighten.induct F with
  | case1 d hnone =>
    rw [tighten_of_none F hnone]
    apply bytes_le_of_capped hprint h
    intro t ht
    rw [hnone] at ht
    cases ht
  | case2 d content hcontent hloop ih =>
    rw [tighten_of_loop F hcontent hloop]
    exact ih (h.shortened (shortened_tightenedCard F hcontent))
  | case3 d content hcontent hloop =>
    rw [tighten_of_done F hcontent hloop]
    by_contra hlarge
    -- the loop stopped for want of content, so what is left fits after all
    apply hlarge
    apply bytes_le_of_capped hprint h
    intro t ht
    rw [hcontent] at ht
    cases ht
    by_contra hlength
    exact hloop ⟨Nat.lt_of_not_le hlength, Nat.lt_of_not_le hlarge⟩

end Digits

/-! ## Bounding twice -/

/-- The content stays as it was: it is within its cap, and the detail fits with the other texts
    within theirs. -/
def Uncut (sha256Hex : JsText → JsText) (F : NumberFormat Num) (itemId : JsText)
    (card : DetailCard Num) : Prop :=
  ∀ t, card.content = some t → t.length ≤ detailMaxChars ∧
    Detail.bytes F { itemId := boundedItemId sha256Hex itemId, card := clippedCard F card } ≤
      detailMaxBytes

theorem boundScalar_of_le {value : JsText} {maxChars : ℕ}
    (h : value.length ≤ maxChars) : boundScalar value maxChars keepTail = value :=
  if_pos h

@[simp]
theorem boundScalar_boundScalar :
    boundScalar (boundScalar value maxChars keepTail) maxChars keepTail =
      boundScalar value maxChars keepTail :=
  boundScalar_of_le keepTail (length_boundScalar_le value maxChars keepTail)

@[simp]
theorem diffCount_diffCount (F : NumberFormat Num) (kind : DetailKind) (content : Option JsText)
    (known : Option Num) (counted : ℕ × ℕ → ℕ) :
    diffCount F kind content (diffCount F kind content known counted) counted =
      diffCount F kind content known counted := by
  unfold diffCount
  cases content with
  | none => rfl
  | some text =>
    dsimp only
    split <;> rfl

@[simp]
theorem boundedItemId_boundedItemId (sha256Hex : JsText → JsText) (itemId : JsText) :
    boundedItemId sha256Hex (boundedItemId sha256Hex itemId) = boundedItemId sha256Hex itemId :=
  if_pos (length_boundedItemId_le sha256Hex itemId)

section
variable (F : NumberFormat Num)
include F

theorem clippedCard_clippedCard (card : DetailCard Num) :
    clippedCard F (clippedCard F card) =
      { clippedCard F card with
        sizeBytes := (clippedCard F (clippedCard F card)).sizeBytes } := by
  simp [clippedCard, Function.comp_def]

theorem clippedCard_sizeBytes (h : card.content = some t) :
    (clippedCard F card).sizeBytes = some (F.ofNat (byteLength t)) := by
  simp only [clippedCard, h]

theorem clippedCard_content
    (h : card.content = some t) : (clippedCard F card).content =
      some (boundScalar t detailMaxChars card.kind.keepsTail) := by
  simp [clippedCard, h]

theorem clippedCard_idem (h : ∀ t, card.content = some t → t.length ≤ detailMaxChars) :
    clippedCard F (clippedCard F card) = clippedCard F card := by
  rw [clippedCard_clippedCard]
  have hsize : (clippedCard F (clippedCard F card)).sizeBytes = (clippedCard F card).sizeBytes := by
    cases hcontent : card.content with
    | none => simp [clippedCard, hcontent]
    | some t =>
      have hclipped := clippedCard_content F hcontent
      rw [boundScalar_of_le _ (h t hcontent)] at hclipped
      rw [clippedCard_sizeBytes F hclipped, clippedCard_sizeBytes F hcontent]
  rw [hsize]

theorem piece_clippedCard (card : DetailCard Num) :
    Option.Rel (Piece card.kind.keepsTail) (clippedCard F card).content card.content := by
  cases hcontent : card.content with
  | none =>
    simp only [clippedCard, hcontent]
    exact .none
  | some t =>
    rw [clippedCard_content F hcontent]
    exact .some (piece_boundScalar t _ _)

end

section Twice

variable (sha256Hex : JsText → JsText) {F : NumberFormat Num}
  (hprint : ∀ n, (F.print n).length ≤ 25)

include hprint

theorem boundChannelAgentDetail_eq (itemId : JsText) (card : DetailCard Num) :
    boundChannelAgentDetail sha256Hex F itemId card =
      some (tighten F
        { itemId := boundedItemId sha256Hex itemId, card := clippedCard F card }) := by
  unfold boundChannelAgentDetail
  exact if_neg (fits_tighten hprint (capped_clippedCard sha256Hex F itemId card)).not_gt

theorem bound_again_of_uncut
    (h : Uncut sha256Hex F itemId card) :
    tighten F { itemId := boundedItemId sha256Hex itemId, card := clippedCard F card } =
      { itemId := boundedItemId sha256Hex itemId, card := clippedCard F card } ∧
    boundChannelAgentDetail sha256Hex F (boundedItemId sha256Hex itemId) (clippedCard F card) =
      some { itemId := boundedItemId sha256Hex itemId, card := clippedCard F card } := by
  have hfirst : tighten F
      { itemId := boundedItemId sha256Hex itemId, card := clippedCard F card } =
      { itemId := boundedItemId sha256Hex itemId, card := clippedCard F card } := by
    cases hcontent : card.content with
    | none =>
      apply tighten_of_none
      simp [clippedCard, hcontent]
    | some t => exact tighten_of_fits F (h t hcontent).2
  refine ⟨hfirst, ?_⟩
  rw [boundChannelAgentDetail_eq sha256Hex hprint, boundedItemId_boundedItemId,
    clippedCard_idem F fun t ht => (h t ht).1, hfirst]

theorem content_lt_of_not_uncut
    (h : ¬ Uncut sha256Hex F itemId card) :
    ∃ t rest, card.content = some t ∧ rest.length < t.length ∧
      (tighten F
        { itemId := boundedItemId sha256Hex itemId,
          card := clippedCard F card }).card.content = some rest := by
  simp only [Uncut, not_forall] at h
  obtain ⟨t, ht, hcut⟩ := h
  have hclipped := clippedCard_content F ht
  have hshort := (shortened_tighten F
    { itemId := boundedItemId sha256Hex itemId, card := clippedCard F card }).content
  obtain ⟨rest, hrest, hpiece⟩ := rel_some hshort hclipped
  rcases Nat.lt_or_ge detailMaxChars t.length with hlong | hfits
  · -- cut to its cap
    have hle := length_boundScalar_le t detailMaxChars card.kind.keepsTail
    exact ⟨t, rest, ht, (hpiece.length_le.trans hle).trans_lt hlong, hrest⟩
  · -- within its cap, so the loop cuts it
    have hlarge : detailMaxBytes < Detail.bytes F
        { itemId := boundedItemId sha256Hex itemId, card := clippedCard F card } :=
      Nat.lt_of_not_le fun hsmall => hcut ⟨hfits, hsmall⟩
    rw [boundScalar_of_le _ hfits] at hclipped
    have hpos : 0 < t.length := by
      by_contra hempty
      apply hlarge.not_ge
      apply bytes_le_of_capped hprint (capped_clippedCard sha256Hex F itemId card)
      intro t' ht'
      obtain rfl : t = t' := Option.some.inj (hclipped.symm.trans ht')
      exact Nat.le_of_not_lt hempty
    obtain ⟨rest', hrest', hlt⟩ := tighten_content_lt F hclipped ⟨hpos, hlarge⟩
    exact ⟨t, rest', ht, hlt, hrest'⟩

variable (hofNat : ∀ a b, a < 2 ^ 53 → b < 2 ^ 53 → F.ofNat a = F.ofNat b → a = b)

include hofNat

theorem bound_again_of_not_uncut (hsize : ∀ t, card.content = some t → byteLength t < 2 ^ 53)
    (h : ¬ Uncut sha256Hex F itemId card)
    (hd : boundChannelAgentDetail sha256Hex F itemId card = some d) :
    boundChannelAgentDetail sha256Hex F d.itemId d.card ≠ some d := by
  rw [boundChannelAgentDetail_eq sha256Hex hprint, Option.some.injEq] at hd
  obtain ⟨t, rest, ht, hlt, hrest⟩ := content_lt_of_not_uncut sha256Hex hprint h
  have hcut := shortened_tighten F
    { itemId := boundedItemId sha256Hex itemId, card := clippedCard F card }
  rw [hd] at hrest hcut
  have hbytes : byteLength rest < byteLength t := by
    have hpiece : Piece card.kind.keepsTail rest t := by
      obtain ⟨clipped, hclipped, hfirst⟩ := rel_some (piece_clippedCard F card) ht
      obtain ⟨rest', hrest', hsecond⟩ := rel_some hcut.content hclipped
      obtain rfl : rest = rest' := Option.some.inj (hrest.symm.trans hrest')
      exact hsecond.trans hfirst
    exact hpiece.byteLength_lt hlt
  intro hagain
  rw [boundChannelAgentDetail_eq sha256Hex hprint, Option.some.injEq] at hagain
  have hsame := congrArg (fun e => e.card.sizeBytes) hagain
  have hsecond := (shortened_tighten F
    { itemId := boundedItemId sha256Hex d.itemId, card := clippedCard F d.card }).sizeBytes
  rw [hsecond, clippedCard_sizeBytes F hrest, hcut.sizeBytes, clippedCard_sizeBytes F ht,
    Option.some.injEq] at hsame
  have hlarge := hsize t ht
  exact hbytes.ne (hofNat _ _ (hbytes.trans hlarge) hlarge hsame)

end Twice

/-- Every card is bounded to a detail that fits and holds a piece of its content, with the size
    of the content that came in.  Bounding it again gives the same detail exactly when nothing
    was cut from the content; otherwise the size of what is left replaces the size recorded. -/
theorem bounds_iff_uncut (sha256Hex : JsText → JsText) (F : NumberFormat Num)
    (hprint : ∀ n, (F.print n).length ≤ 25)
    (hofNat : ∀ a b, a < 2 ^ 53 → b < 2 ^ 53 → F.ofNat a = F.ofNat b → a = b)
    (itemId : JsText) (card : DetailCard Num)
    (hsize : ∀ t, card.content = some t → byteLength t < 2 ^ 53) :
    ∃ d, boundChannelAgentDetail sha256Hex F itemId card = some d ∧
      d.bytes F ≤ detailMaxBytes ∧
      Option.Rel (Piece card.kind.keepsTail) d.card.content card.content ∧
      (∀ t, card.content = some t → d.card.sizeBytes = some (F.ofNat (byteLength t))) ∧
      (boundChannelAgentDetail sha256Hex F d.itemId d.card = some d ↔
        Uncut sha256Hex F itemId card) := by
  have hcut := shortened_tighten F
    { itemId := boundedItemId sha256Hex itemId, card := clippedCard F card }
  refine ⟨_, boundChannelAgentDetail_eq sha256Hex hprint itemId card,
    fits_tighten hprint (capped_clippedCard sha256Hex F itemId card), ?_, ?_, ?_, ?_⟩
  · exact rel_trans_piece hcut.content (piece_clippedCard F card)
  · intro t ht
    rw [hcut.sizeBytes]
    exact clippedCard_sizeBytes F ht
  · intro hagain
    by_contra hnot
    exact bound_again_of_not_uncut sha256Hex hprint hofNat hsize hnot
      (boundChannelAgentDetail_eq sha256Hex hprint itemId card) hagain
  · intro h
    obtain ⟨hfirst, hagain⟩ := bound_again_of_uncut sha256Hex hprint h
    rw [hfirst]
    exact hagain

def bareCard {Num : Type} (kind : DetailKind) (content : JsText) : DetailCard Num where
  kind := kind
  title := []
  status := .completed
  content := some content
  language := none
  command := none
  path := none
  additions := none
  deletions := none
  sizeBytes := none

/-- A short diff is bounded to itself. -/
theorem bounds_iff_uncut_diff :
    ∃ d, boundChannelAgentDetail id Json.exactCounting (utf16 "item") (bareCard .diff [43, 97]) =
        some d ∧
      d.bytes Json.exactCounting ≤ detailMaxBytes ∧
      Option.Rel (Piece false) d.card.content (some [43, 97]) ∧
      (∀ t, some [43, 97] = some t →
        d.card.sizeBytes = some (Json.exactCounting.ofNat (byteLength t))) ∧
      (boundChannelAgentDetail id Json.exactCounting d.itemId d.card = some d ↔
        Uncut id Json.exactCounting (utf16 "item") (bareCard .diff [43, 97])) :=
  bounds_iff_uncut id Json.exactCounting
    (fun n => (Json.length_exactCounting_print n).trans (by decide))
    (fun _ _ => Json.exactCounting_ofNat_inj) (utf16 "item") (bareCard .diff [43, 97])
    (by
      intro t ht
      cases ht
      decide)

/-- A thought one unit too long, as the bridge bounds it and then stores it: the second pass
    records another size. -/
theorem bound_again_long_thought :
    ¬ ∀ (itemId : JsText) (card : DetailCard (Option (Fin (2 ^ 53)))),
      ∃ d, boundChannelAgentDetail id Json.exactCounting itemId card = some d ∧
        boundChannelAgentDetail id Json.exactCounting d.itemId d.card = some d := by
  intro hclaim
  obtain ⟨d, hd, hagain⟩ := hclaim (utf16 "item") (bareCard .thought (List.replicate 65537 97))
  have hlength : (List.replicate 65537 97).length = 65537 := length_replicate
  refine bound_again_of_not_uncut id
    (fun n => (Json.length_exactCounting_print n).trans (by decide))
    (fun _ _ => Json.exactCounting_ofNat_inj) ?_ ?_ hd hagain
  · intro t ht
    obtain rfl : List.replicate 65537 97 = t := Option.some.inj ht
    have hle := JsText.byteLength_le (List.replicate 65537 97)
    rw [hlength] at hle
    exact hle.trans_lt (by decide)
  · intro huncut
    have hle := (huncut (List.replicate 65537 97) rfl).1
    rw [hlength] at hle
    exact absurd hle (by decide)

end RelayIde.Bridge
