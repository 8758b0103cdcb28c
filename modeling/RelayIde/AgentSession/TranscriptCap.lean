import RelayIde.AgentSession.Reducer
import RelayIde.Library.Eviction

/-!
# Transcript Cap

The bound on the transcript of an agent session (`shared/agent-chat-protocol-v2.ts`): oversized
items are truncated, then the oldest turns are dropped, then the oldest items.

- `cap_bounds` — what the cap keeps, and that a second one changes nothing

The item budget is best effort: an item keeps its structured fields.
-/

namespace RelayIde.AgentSession

open RelayIde.Library List
open RelayIde.Library.JsText (byteLength byteLength_ascii_le unitBytes utf16)
open RelayIde.Library.Json (NumberFormat stringify decimal)
open RelayIde.Bridge (DetailCard)

variable {V Num : Type}

/-! ## JSON -/

def AgentItemType.text : AgentItemType → JsText
  | .userMessage => utf16 "userMessage"
  | .assistantMessage => utf16 "assistantMessage"
  | .reasoning => utf16 "reasoning"
  | .plan => utf16 "plan"
  | .commandExecution => utf16 "commandExecution"
  | .fileChange => utf16 "fileChange"
  | .mcpToolCall => utf16 "mcpToolCall"
  | .dynamicToolCall => utf16 "dynamicToolCall"
  | .approval => utf16 "approval"
  | .question => utf16 "question"
  | .compaction => utf16 "compaction"
  | .sessionBreak => utf16 "sessionBreak"
  | .webSearch => utf16 "webSearch"
  | .imageView => utf16 "imageView"
  | .imageGeneration => utf16 "imageGeneration"
  | .hookPrompt => utf16 "hookPrompt"
  | .providerExtension => utf16 "providerExtension"
  | .errorMessage => utf16 "errorMessage"

def DeltaField.key : DeltaField → String
  | .text => "text"
  | .output => "output"
  | .summary => "summary"
  | .detail => "detail"
  | .patch => "patch"
  | .content => "content"

def AgentTurnStatusV2.text : AgentTurnStatusV2 → JsText
  | .queued => utf16 "queued"
  | .running => utf16 "running"
  | .waiting => utf16 "waiting"
  | .completed => utf16 "completed"
  | .interrupted => utf16 "interrupted"
  | .failed => utf16 "failed"

def FieldValue.json : FieldValue (Json Num) → Json Num
  | .text s => .str s
  | .other v => v

/-- A property, unless it is `undefined`. -/
def optionalProperty (key : String) (value : Option (Json Num)) : List (JsText × Json Num) :=
  match value with
  | none => []
  | some v => [(utf16 key, v)]

/-- The place of a property changes no size, here and in the items and turns below. -/
def cardJson (card : DetailCard (Json Num)) : Json Num :=
  .obj ([(utf16 "kind", .str card.kind.text), (utf16 "title", .str card.title),
      (utf16 "status", .str card.status.text)] ++
    optionalProperty "content" (card.content.map .str) ++
    optionalProperty "language" (card.language.map .str) ++
    optionalProperty "command" (card.command.map .str) ++
    optionalProperty "path" (card.path.map .str) ++
    optionalProperty "additions" card.additions ++
    optionalProperty "deletions" card.deletions ++
    optionalProperty "sizeBytes" card.sizeBytes)

def AgentItemV2.json (item : AgentItemV2 (Json Num)) : Json Num :=
  .obj ([(utf16 "type", .str item.type.text), (utf16 "id", .str item.id)] ++
    [DeltaField.text, .output, .summary, .detail, .patch, .content].flatMap (fun field =>
      optionalProperty field.key ((item.fields field).map FieldValue.json)) ++
    optionalProperty "status" (item.status.map fun status => .str status.text) ++
    optionalProperty "error" (item.error.map .str) ++
    optionalProperty "exitCode" item.exitCode ++
    optionalProperty "durationMs" item.durationMs ++
    optionalProperty "startedAt" (item.startedAt.map .str) ++
    optionalProperty "completedAt" (item.completedAt.map .str) ++
    optionalProperty "card" (item.card.map cardJson) ++
    item.rest.map fun property => (property.1, property.2.json))

def AgentTurnV2.json (turn : AgentTurnV2 (Json Num)) : Json Num :=
  .obj ([(utf16 "id", Json.str turn.id)] ++
    optionalProperty "providerTurnId" (turn.providerTurnId.map Json.str) ++
    [(utf16 "status", Json.str turn.status.text),
      (utf16 "inputMessageId", Json.str turn.inputMessageId),
      (utf16 "items", Json.arr (turn.items.map AgentItemV2.json)),
      (utf16 "startedAt", Json.str turn.startedAt)] ++
    optionalProperty "completedAt" (turn.completedAt.map Json.str) ++
    optionalProperty "durationMs" turn.durationMs ++
    optionalProperty "error" (turn.error.map Json.str) ++
    optionalProperty "usage" turn.usage)

def jsonByteLength (F : NumberFormat Num) (value : Json Num) : ℕ :=
  byteLength (stringify F value)

def transcriptByteLength (F : NumberFormat Num) (turns : List (AgentTurnV2 (Json Num))) : ℕ :=
  jsonByteLength F (.arr (turns.map AgentTurnV2.json))

/-! ## Truncating texts -/

def longestFit (input : JsText) (target lo hi : ℕ) : ℕ :=
  if lo < hi then
    let mid := (lo + hi + 1) / 2
    if byteLength (input.take mid) ≤ target then longestFit input target mid hi
    else longestFit input target lo (mid - 1)
  else lo
termination_by hi - lo

def truncateToBytes (input : JsText) (maxBytes : ℕ) : JsText :=
  let originalBytes := byteLength input
  if originalBytes ≤ maxBytes then input
  else
    let kept := input.take (longestFit input (maxBytes - 48) 0 input.length)
    kept ++ utf16 "\n… [truncated " ++ decimal (originalBytes - byteLength kept) ++ utf16 " bytes]"

def FieldValue.truncateText (budget : ℕ) : FieldValue (Json Num) → FieldValue (Json Num)
  | .text s => .text (truncateToBytes s budget)
  | .other v => .other v

def FieldValue.asString (F : NumberFormat Num) : FieldValue (Json Num) → JsText
  | .text s => s
  | .other v => stringify F v

def truncateUnknownToBytes (F : NumberFormat Num) (value : FieldValue (Json Num))
    (maxBytes : ℕ) : FieldValue (Json Num) :=
  if byteLength (value.asString F) ≤ maxBytes then value
  else .text (truncateToBytes (value.asString F) maxBytes)

def truncatedFields : AgentItemType → List DeltaField
  | .assistantMessage | .userMessage | .plan => [.text]
  | .reasoning => [.summary, .detail]
  | .commandExecution => [.output]
  | .fileChange => [.patch]
  | .dynamicToolCall => [.content]
  | .compaction => [.summary]
  | _ => []

/-- `{ truncated: true, namespace }`. -/
def truncatedPayload (rest : List (JsText × FieldValue (Json Num))) : FieldValue (Json Num) :=
  .other (.obj ((utf16 "truncated", .bool true) ::
    optionalProperty "namespace" ((rest.lookup (utf16 "namespace")).map FieldValue.json)))

def truncateProperty (F : NumberFormat Num) (item : AgentItemV2 (Json Num)) (budget : ℕ)
    (key : JsText) (value : FieldValue (Json Num)) : FieldValue (Json Num) :=
  match item.type with
  | .userMessage => if key = utf16 "expandedText" then value.truncateText budget else value
  | .errorMessage => if key = utf16 "message" then value.truncateText budget else value
  | .dynamicToolCall | .mcpToolCall =>
    if key = utf16 "result" then truncateUnknownToBytes F value budget else value
  | .providerExtension => if key = utf16 "payload" then truncatedPayload item.rest else value
  | _ => value

def truncateTexts (F : NumberFormat Num) (budget : ℕ) (item : AgentItemV2 (Json Num)) :
    AgentItemV2 (Json Num) :=
  { item with
    fields := fun field =>
      if field ∈ truncatedFields item.type then (item.fields field).map (·.truncateText budget)
      else item.fields field
    card := item.card.map fun card =>
      { card with content := card.content.map fun content => truncateToBytes content budget }
    rest := item.rest.map fun property =>
      (property.1, truncateProperty F item budget property.1 property.2) }

/-- A property that is dropped from an item that is still too big. -/
def isStructured (key : JsText) : Bool :=
  decide (key = utf16 "arguments") || decide (key = utf16 "metadata")

def dropStructured (item : AgentItemV2 (Json Num)) : AgentItemV2 (Json Num) :=
  { item with rest := item.rest.filter fun property => !isStructured property.1 }

/-- `threeFifths` is `Math.floor(maxBytes * 0.6)`, in floating-point arithmetic. -/
def fieldBudget (threeFifths : ℕ → ℕ) (maxBytes : ℕ) : ℕ :=
  max 1000 (threeFifths maxBytes)

def truncateItemToBudget (F : NumberFormat Num) (threeFifths : ℕ → ℕ)
    (item : AgentItemV2 (Json Num)) (maxBytes : ℕ) : AgentItemV2 (Json Num) :=
  if jsonByteLength F item.json ≤ maxBytes then item
  else
    let next := truncateTexts F (fieldBudget threeFifths maxBytes) item
    if jsonByteLength F next.json ≤ maxBytes then next else dropStructured next

/-! ## The cap -/

def totalItems (turns : List (AgentTurnV2 V)) : ℕ :=
  (turns.map fun turn => turn.items.length).sum

def shiftOldest (several : Bool) : List (AgentTurnV2 V) → List (AgentTurnV2 V)
  | [] => []
  | turn :: rest =>
    match turn.items with
    | [] => turn :: shiftOldest several rest
    | _ :: items =>
      if items.isEmpty && several then rest else { turn with items := items } :: rest

/-- The loop of `trimItemsFifo`; every round drops an item. -/
def evictItems (exceeds : List (AgentTurnV2 V) → Bool) :
    ℕ → List (AgentTurnV2 V) → List (AgentTurnV2 V)
  | 0, turns => turns
  | rounds + 1, turns =>
    if decide (1 < totalItems turns) && exceeds turns then
      evictItems exceeds rounds (shiftOldest (decide (1 < turns.length)) turns)
    else turns

def trimItemsFifo (exceeds : List (AgentTurnV2 V) → Bool) (turns : List (AgentTurnV2 V)) :
    List (AgentTurnV2 V) :=
  evictItems exceeds (totalItems turns) turns

def overBudget (F : NumberFormat Num) (maxBytes : ℕ) (turns : List (AgentTurnV2 (Json Num))) :
    Bool :=
  decide (maxBytes < transcriptByteLength F turns)

def isActive (session : AgentSessionV2 V) (turn : AgentTurnV2 V) : Bool :=
  decide (some turn.id = session.live.activeTurnId)

def truncateItems (F : NumberFormat Num) (threeFifths : ℕ → ℕ) (maxItemBytes : ℕ)
    (turn : AgentTurnV2 (Json Num)) : AgentTurnV2 (Json Num) :=
  { turn with
    items := turn.items.map fun item => truncateItemToBudget F threeFifths item maxItemBytes }

/-- The transcript after the first pass. -/
def truncatedTurns (F : NumberFormat Num) (threeFifths : ℕ → ℕ)
    (session : AgentSessionV2 (Json Num)) (maxItemBytes : ℕ) : List (AgentTurnV2 (Json Num)) :=
  session.turns.map (truncateItems F threeFifths maxItemBytes)

def capAgentSessionTranscriptV2 (F : NumberFormat Num) (threeFifths : ℕ → ℕ)
    (session : AgentSessionV2 (Json Num)) (maxTranscriptBytes maxItemBytes : ℕ) :
    AgentSessionV2 (Json Num) :=
  let truncatedTurns := truncatedTurns F threeFifths session maxItemBytes
  let exceeds := overBudget F maxTranscriptBytes
  if exceeds truncatedTurns then
    let working := evict exceeds (isActive session) truncatedTurns
    { session with turns := if exceeds working then trimItemsFifo exceeds working else working }
  else { session with turns := truncatedTurns }

/-! ## Truncated texts fit -/

theorem byteLength_decimal_le {n digits : ℕ} (hpos : 0 < digits) (h : n < 10 ^ digits) :
    byteLength (decimal n) ≤ digits := by
  refine (byteLength_ascii_le fun u hu => ?_).trans (Json.length_decimal_le hpos h)
  have hdigit := Json.mem_decimal hu
  omega

theorem byteLength_longestFit_le (input : JsText) (target lo hi : ℕ)
    (hlo : byteLength (input.take lo) ≤ target) :
    byteLength (input.take (longestFit input target lo hi)) ≤ target := by
  induction hn : hi - lo using Nat.strong_induction_on generalizing lo hi with
  | _ n ih =>
    unfold longestFit
    split
    · next hlt =>
      simp only
      split
      · next hfits => exact ih _ (by omega) _ _ hfits rfl
      · exact ih _ (by omega) _ _ hlo rfl
    · exact hlo

/-- ECMAScript strings are shorter. -/
def stringLengthLimit : ℕ := 2 ^ 53

variable {input : JsText} {value : FieldValue (Json Num)}
  {budget maxItemBytes maxTranscriptBytes : ℕ} {item : AgentItemV2 (Json Num)}
  {session : AgentSessionV2 (Json Num)}

variable {maxBytes : ℕ} {s : JsText} {turns : List (AgentTurnV2 V)}
  {turn active : AgentTurnV2 (Json Num)}

theorem truncateToBytes_of_le (h : byteLength input ≤ maxBytes) :
    truncateToBytes input maxBytes = input := if_pos h

theorem byteLength_truncateToBytes_le (hstring : input.length < stringLengthLimit)
    (hroom : 48 ≤ maxBytes) :
    byteLength (truncateToBytes input maxBytes) ≤ maxBytes := by
  unfold truncateToBytes
  simp only
  split
  · assumption
  · have hkept := byteLength_longestFit_le input (maxBytes - 48) 0 input.length (Nat.zero_le _)
    set kept := input.take (longestFit input (maxBytes - 48) 0 input.length)
    -- sixteen bytes before the count, at most seventeen digits, seven bytes behind it
    have hinput := JsText.byteLength_le input
    unfold stringLengthLimit at hstring
    have hcount : byteLength (decimal (byteLength input - byteLength kept)) ≤ 17 :=
      byteLength_decimal_le (by decide) (by omega)
    have hfront : byteLength (utf16 "\n… [truncated ") = 16 := by decide
    have hback : byteLength (utf16 " bytes]") = 7 := by decide
    have happend := JsText.byteLength_append_le kept (utf16 "\n… [truncated ")
    have happend' := JsText.byteLength_append_le (kept ++ utf16 "\n… [truncated ")
      (decimal (byteLength input - byteLength kept))
    have happend'' := JsText.byteLength_append_le (kept ++ utf16 "\n… [truncated " ++
      decimal (byteLength input - byteLength kept)) (utf16 " bytes]")
    omega

theorem truncateToBytes_truncateToBytes
    (hstring : input.length < stringLengthLimit) (hroom : 48 ≤ maxBytes) :
    truncateToBytes (truncateToBytes input maxBytes) maxBytes = truncateToBytes input maxBytes :=
  truncateToBytes_of_le (byteLength_truncateToBytes_le hstring hroom)

/-! ## Truncated items -/

variable {F : NumberFormat Num} {threeFifths : ℕ → ℕ}

structure AgentItemV2.Representable (F : NumberFormat Num) (item : AgentItemV2 (Json Num)) :
    Prop where
  fields : ∀ field s, item.fields field = some (.text s) → s.length < stringLengthLimit
  content : ∀ card, item.card = some card → ∀ s, card.content = some s →
    s.length < stringLengthLimit
  rest : ∀ property ∈ item.rest, (property.2.asString F).length < stringLengthLimit

theorem FieldValue.truncateText_truncateText
    (hroom : 48 ≤ budget) (hstring : ∀ s, value = .text s → s.length < stringLengthLimit) :
    (value.truncateText budget).truncateText budget = value.truncateText budget := by
  cases value with
  | text s => exact congrArg FieldValue.text (truncateToBytes_truncateToBytes (hstring s rfl) hroom)
  | other v => rfl

theorem truncateUnknownToBytes_truncateUnknownToBytes
    (hroom : 48 ≤ budget) (hstring : (value.asString F).length < stringLengthLimit) :
    truncateUnknownToBytes F (truncateUnknownToBytes F value budget) budget =
      truncateUnknownToBytes F value budget := by
  by_cases hfits : byteLength (value.asString F) ≤ budget
  · rw [truncateUnknownToBytes.eq_def F value, if_pos hfits, truncateUnknownToBytes, if_pos hfits]
  · rw [truncateUnknownToBytes.eq_def F value, if_neg hfits]
    exact if_pos (byteLength_truncateToBytes_le hstring hroom)

theorem lookup_map_value {κ α β : Type} [BEq κ] [LawfulBEq κ] (g : κ → α → β) (k : κ)
    (l : List (κ × α)) : (l.map fun p => (p.1, g p.1 p.2)).lookup k = (l.lookup k).map (g k) := by
  induction l with
  | nil => rfl
  | cons p l ih =>
    rw [map_cons, lookup_cons, lookup_cons, ih]
    cases hk : k == p.1 with
    | true => rw [beq_iff_eq.mp hk]; rfl
    | false => rfl

theorem truncatedPayload_truncateTexts (htype : item.type = .providerExtension) (budget : ℕ) :
    truncatedPayload (truncateTexts F budget item).rest = truncatedPayload item.rest := by
  have hlookup : (truncateTexts F budget item).rest.lookup (utf16 "namespace") =
      item.rest.lookup (utf16 "namespace") := by
    refine (lookup_map_value (truncateProperty F item budget) _ _).trans ?_
    have hkeep : truncateProperty F item budget (utf16 "namespace") = id := by
      funext value
      unfold truncateProperty
      rw [htype]
      exact if_neg (by decide)
    rw [hkeep, Option.map_id_fun, id_eq]
  unfold truncatedPayload
  rw [hlookup]

theorem truncateProperty_truncateProperty
    (hroom : 48 ≤ budget) {key : JsText} {value : FieldValue (Json Num)}
    (hstring : (value.asString F).length < stringLengthLimit) :
    truncateProperty F (truncateTexts F budget item) budget key
        (truncateProperty F item budget key value) =
      truncateProperty F item budget key value := by
  have htext : (value.truncateText budget).truncateText budget = value.truncateText budget := by
    refine FieldValue.truncateText_truncateText hroom fun s hs => ?_
    rw [hs] at hstring
    exact hstring
  have hunknown := truncateUnknownToBytes_truncateUnknownToBytes hroom hstring
  have hsame : (truncateTexts F budget item).type = item.type := rfl
  unfold truncateProperty
  rw [hsame]
  cases htype : item.type with
  | userMessage | errorMessage =>
    simp only
    split
    · exact htext
    · rfl
  | dynamicToolCall | mcpToolCall =>
    simp only
    split
    · exact hunknown
    · rfl
  | providerExtension =>
    simp only
    split
    · exact truncatedPayload_truncateTexts htype budget
    · rfl
  | assistantMessage | reasoning | plan | commandExecution | fileChange | approval | question
  | compaction | sessionBreak | webSearch | imageView | imageGeneration | hookPrompt => rfl

theorem truncateTexts_truncateTexts (h : item.Representable F) {budget : ℕ} (hroom : 48 ≤ budget) :
    truncateTexts F budget (truncateTexts F budget item) = truncateTexts F budget item := by
  have hfields : (truncateTexts F budget (truncateTexts F budget item)).fields =
      (truncateTexts F budget item).fields := by
    funext field
    show (if field ∈ truncatedFields item.type then _ else _) = _
    split
    · next hfield =>
      simp only [truncateTexts, if_pos hfield]
      cases hvalue : item.fields field with
      | none => rfl
      | some value =>
        refine congrArg some (FieldValue.truncateText_truncateText hroom ?_)
        rintro s rfl
        exact h.fields field s hvalue
    · rfl
  have hcard : (truncateTexts F budget (truncateTexts F budget item)).card =
      (truncateTexts F budget item).card := by
    simp only [truncateTexts]
    cases hcard : item.card with
    | none => rfl
    | some card =>
      simp only [Option.map_some]
      cases hcontent : card.content with
      | none => rfl
      | some content =>
        simp only [Option.map_some]
        rw [truncateToBytes_truncateToBytes (h.content card hcard content hcontent) hroom]
  have hrest : (truncateTexts F budget (truncateTexts F budget item)).rest =
      (truncateTexts F budget item).rest := by
    show List.map _ (List.map _ item.rest) = List.map _ item.rest
    rw [map_map]
    apply map_congr_left
    intro property hproperty
    exact congrArg (Prod.mk property.1)
      (truncateProperty_truncateProperty hroom (h.rest property hproperty))
  calc truncateTexts F budget (truncateTexts F budget item)
      = { truncateTexts F budget item with
          fields := (truncateTexts F budget (truncateTexts F budget item)).fields
          card := (truncateTexts F budget (truncateTexts F budget item)).card
          rest := (truncateTexts F budget (truncateTexts F budget item)).rest } := rfl
    _ = truncateTexts F budget item := by rw [hfields, hcard, hrest]

theorem lookup_filter_key {κ α : Type} [BEq κ] [LawfulBEq κ] (keep : κ → Bool) {k : κ}
    (hk : keep k = true) (l : List (κ × α)) :
    (l.filter fun p => keep p.1).lookup k = l.lookup k := by
  induction l with
  | nil => rfl
  | cons p l ih =>
    rw [filter_cons]
    cases hp : keep p.1 with
    | true => rw [if_pos rfl, lookup_cons, lookup_cons, ih]
    | false =>
      have hne : (k == p.1) = false := by
        rw [beq_eq_false_iff_ne]
        intro heq
        rw [heq, hp] at hk
        cases hk
      rw [if_neg Bool.false_ne_true, ih, lookup_cons, hne]

/-- Dropping structured properties keeps what the truncation of the others reads. -/
theorem truncateTexts_dropStructured (item : AgentItemV2 (Json Num)) (budget : ℕ) :
    truncateTexts F budget (dropStructured item) =
      dropStructured (truncateTexts F budget item) := by
  have hpayload : truncatedPayload (dropStructured item).rest = truncatedPayload item.rest := by
    unfold truncatedPayload dropStructured
    rw [lookup_filter_key (fun key => !isStructured key) (by decide)]
  have hproperty : ∀ key value, truncateProperty F (dropStructured item) budget key value =
      truncateProperty F item budget key value := by
    intro key value
    unfold truncateProperty
    rw [hpayload]
    rfl
  have hrest : (truncateTexts F budget (dropStructured item)).rest =
      (dropStructured (truncateTexts F budget item)).rest := by
    simp only [truncateTexts, dropStructured, filter_map] at hproperty ⊢
    apply map_congr_left
    intro property _
    rw [hproperty]
  calc truncateTexts F budget (dropStructured item)
      = { truncateTexts F budget item with
          rest := (truncateTexts F budget (dropStructured item)).rest } := rfl
    _ = dropStructured (truncateTexts F budget item) := by rw [hrest]; rfl

theorem dropStructured_dropStructured (item : AgentItemV2 (Json Num)) :
    dropStructured (dropStructured item) = dropStructured item := by
  unfold dropStructured
  simp

theorem room_fieldBudget (threeFifths : ℕ → ℕ) (maxBytes : ℕ) :
    48 ≤ fieldBudget threeFifths maxBytes :=
  le_trans (by decide) (le_max_left _ _)

/-- **A truncated item** is not truncated again. -/
theorem truncateItem_truncateItem (h : item.Representable F) (maxBytes : ℕ) :
    truncateItemToBudget F threeFifths (truncateItemToBudget F threeFifths item maxBytes) maxBytes =
      truncateItemToBudget F threeFifths item maxBytes := by
  have htexts := truncateTexts_truncateTexts h (room_fieldBudget threeFifths maxBytes)
  set budget := fieldBudget threeFifths maxBytes with hbudget
  by_cases hitem : jsonByteLength F item.json ≤ maxBytes
  · have hself : truncateItemToBudget F threeFifths item maxBytes = item := if_pos hitem
    rw [hself, hself]
  · have hnext : truncateItemToBudget F threeFifths item maxBytes =
        if jsonByteLength F (truncateTexts F budget item).json ≤ maxBytes
        then truncateTexts F budget item
        else dropStructured (truncateTexts F budget item) := if_neg hitem
    by_cases hfits : jsonByteLength F (truncateTexts F budget item).json ≤ maxBytes
    · rw [hnext, if_pos hfits]
      exact if_pos hfits
    · -- still too big without its structured properties, or not
      rw [hnext, if_neg hfits]
      unfold truncateItemToBudget
      simp only
      split
      · rfl
      · rw [truncateTexts_dropStructured, htexts, dropStructured_dropStructured, ite_self]

def truncatedProperty : AgentItemType → Option String
  | .userMessage => some "expandedText"
  | .errorMessage => some "message"
  | .dynamicToolCall | .mcpToolCall => some "result"
  | _ => none

theorem byteLength_truncateText_le
    (hroom : 48 ≤ budget) (hstring : (value.asString F).length < stringLengthLimit)
    (hs : value.truncateText budget = .text s) : byteLength s ≤ budget := by
  cases value with
  | text t =>
    cases hs
    exact byteLength_truncateToBytes_le hstring hroom
  | other v => cases hs

theorem byteLength_truncateUnknownToBytes_le
    (hroom : 48 ≤ budget) (hstring : (value.asString F).length < stringLengthLimit)
    (hs : truncateUnknownToBytes F value budget = .text s) : byteLength s ≤ budget := by
  unfold truncateUnknownToBytes at hs
  split at hs
  · next hfits =>
    rw [hs] at hfits
    exact hfits
  · cases hs
    exact byteLength_truncateToBytes_le hstring hroom

theorem byteLength_truncateProperty_le (item : AgentItemV2 (Json Num)) {budget : ℕ}
    (hroom : 48 ≤ budget) {value : FieldValue (Json Num)}
    (hstring : (value.asString F).length < stringLengthLimit) {key : String}
    (hkey : truncatedProperty item.type = some key)
    (hs : truncateProperty F item budget (utf16 key) value = .text s) : byteLength s ≤ budget := by
  unfold truncateProperty at hs
  cases htype : item.type with
  | userMessage | errorMessage =>
    rw [htype] at hkey hs
    cases hkey
    simp only [if_true] at hs
    exact byteLength_truncateText_le hroom hstring hs
  | dynamicToolCall | mcpToolCall =>
    rw [htype] at hkey hs
    cases hkey
    simp only [if_true] at hs
    exact byteLength_truncateUnknownToBytes_le hroom hstring hs
  | assistantMessage | reasoning | plan | commandExecution | fileChange | approval | question
  | compaction | sessionBreak | webSearch | imageView | imageGeneration | hookPrompt
  | providerExtension =>
    rw [htype] at hkey
    cases hkey

/-- An item from which everything was cut that the cap may cut. -/
structure AgentItemV2.Trimmed (budget : ℕ) (item : AgentItemV2 (Json Num)) : Prop where
  fields : ∀ field ∈ truncatedFields item.type, ∀ s, item.fields field = some (.text s) →
    byteLength s ≤ budget
  content : ∀ card, item.card = some card → ∀ s, card.content = some s → byteLength s ≤ budget
  property : ∀ key, truncatedProperty item.type = some key → ∀ s, (utf16 key, .text s) ∈ item.rest →
    byteLength s ≤ budget
  structured : ∀ property ∈ item.rest, isStructured property.1 = false

theorem trimmed_dropStructured (h : item.Representable F) {budget : ℕ} (hroom : 48 ≤ budget) :
    (dropStructured (truncateTexts F budget item)).Trimmed budget := by
  constructor
  · intro field hfield s hs
    simp only [dropStructured, truncateTexts] at hfield hs
    rw [if_pos hfield, Option.map_eq_some_iff] at hs
    obtain ⟨value, hvalue, hs⟩ := hs
    cases value with
    | text t =>
      cases hs
      exact byteLength_truncateToBytes_le (h.fields field t hvalue) hroom
    | other v => cases hs
  · intro card hcard s hs
    simp only [dropStructured, truncateTexts, Option.map_eq_some_iff] at hcard
    obtain ⟨old, hold, rfl⟩ := hcard
    obtain ⟨t, ht, rfl⟩ := Option.map_eq_some_iff.mp hs
    exact byteLength_truncateToBytes_le (h.content old hold t ht) hroom
  · intro key hkey s hs
    obtain ⟨property, hproperty, heq⟩ := mem_map.mp (mem_of_mem_filter hs)
    obtain ⟨hfst, hsnd⟩ := Prod.mk.inj heq
    rw [hfst] at hsnd
    exact byteLength_truncateProperty_le item hroom (h.rest property hproperty) hkey hsnd
  · intro property hproperty
    have hkept := (mem_filter.mp hproperty).2
    rwa [Bool.not_eq_true'] at hkept

theorem fits_or_trimmed (h : item.Representable F) (maxBytes : ℕ) :
    jsonByteLength F (truncateItemToBudget F threeFifths item maxBytes).json ≤ maxBytes ∨
      (truncateItemToBudget F threeFifths item maxBytes).Trimmed
        (fieldBudget threeFifths maxBytes) := by
  unfold truncateItemToBudget
  split
  · exact .inl ‹_›
  · simp only
    split
    · exact .inl ‹_›
    · exact .inr (trimmed_dropStructured h (room_fieldBudget threeFifths maxBytes))

/-- A text as it is, or a prefix of it with a note of the bytes that were cut. -/
def CutText (text short : JsText) : Prop :=
  short = text ∨ ∃ kept, kept <+: text ∧ short = kept ++ utf16 "\n… [truncated " ++
    decimal (byteLength text - byteLength kept) ++ utf16 " bytes]"

inductive CutValue : FieldValue (Json Num) → FieldValue (Json Num) → Prop
  | same (value : FieldValue (Json Num)) : CutValue value value
  | text {s short : JsText} (h : CutText s short) : CutValue (.text s) (.text short)

/-- What may become of a property of an item: a text of its type is cut, a tool result as it is
    written, and the payload of a provider extension is replaced. -/
inductive CutProperty (F : NumberFormat Num) (old : AgentItemV2 (Json Num)) :
    JsText × FieldValue (Json Num) → JsText × FieldValue (Json Num) → Prop
  | same (property : JsText × FieldValue (Json Num)) : CutProperty F old property property
  | expandedText {value short : FieldValue (Json Num)} (htype : old.type = .userMessage)
      (h : CutValue value short) :
      CutProperty F old (utf16 "expandedText", value) (utf16 "expandedText", short)
  | message {value short : FieldValue (Json Num)} (htype : old.type = .errorMessage)
      (h : CutValue value short) :
      CutProperty F old (utf16 "message", value) (utf16 "message", short)
  | result {value : FieldValue (Json Num)} {short : JsText}
      (htype : old.type = .dynamicToolCall ∨ old.type = .mcpToolCall)
      (h : CutText (value.asString F) short) :
      CutProperty F old (utf16 "result", value) (utf16 "result", .text short)
  | payload (value : FieldValue (Json Num)) (htype : old.type = .providerExtension) :
      CutProperty F old (utf16 "payload", value) (utf16 "payload", truncatedPayload old.rest)

/-- What the cap leaves of an item: one that fits as it is, and of any other everything but the
    texts it cuts, the payload of a provider extension and the structured properties. -/
structure Shortens (F : NumberFormat Num) (maxBytes : ℕ) (old item : AgentItemV2 (Json Num)) :
    Prop where
  fits : jsonByteLength F old.json ≤ maxBytes → item = old
  same : item = { old with fields := item.fields, card := item.card, rest := item.rest }
  fields : ∀ field, field ∉ truncatedFields old.type → item.fields field = old.fields field
  texts : ∀ field, Option.Rel CutValue (old.fields field) (item.fields field)
  card : Option.Rel (fun full card => card = { full with content := card.content } ∧
    Option.Rel CutText full.content card.content) old.card item.card
  rest : ∃ kept, (kept = old.rest ∨ kept = old.rest.filter fun property =>
    !isStructured property.1) ∧ List.Forall₂ (CutProperty F old) kept item.rest

theorem cutText_truncateToBytes (text : JsText) (budget : ℕ) :
    CutText text (truncateToBytes text budget) := by
  unfold truncateToBytes
  dsimp only
  split
  · exact .inl rfl
  · exact .inr ⟨_, take_prefix _ _, rfl⟩

theorem cutValue_truncateText (value : FieldValue (Json Num)) (budget : ℕ) :
    CutValue value (value.truncateText budget) := by
  cases value with
  | text s => exact .text (cutText_truncateToBytes s budget)
  | other v => exact .same _

theorem cutProperty_truncateProperty (item : AgentItemV2 (Json Num)) (budget : ℕ)
    (property : JsText × FieldValue (Json Num)) :
    CutProperty F item property
      (property.1, truncateProperty F item budget property.1 property.2) := by
  obtain ⟨key, value⟩ := property
  have hresult (htype : item.type = .dynamicToolCall ∨ item.type = .mcpToolCall) :
      CutProperty F item (utf16 "result", value)
        (utf16 "result", truncateUnknownToBytes F value budget) := by
    unfold truncateUnknownToBytes
    split
    · exact .same _
    · exact .result htype (cutText_truncateToBytes _ budget)
  unfold truncateProperty
  cases htype : item.type with
  | userMessage =>
    dsimp only
    split
    · next hkey => exact hkey ▸ .expandedText htype (cutValue_truncateText value budget)
    · exact .same _
  | errorMessage =>
    dsimp only
    split
    · next hkey => exact hkey ▸ .message htype (cutValue_truncateText value budget)
    · exact .same _
  | dynamicToolCall =>
    dsimp only
    split
    · next hkey => exact hkey ▸ hresult (.inl htype)
    · exact .same _
  | mcpToolCall =>
    dsimp only
    split
    · next hkey => exact hkey ▸ hresult (.inr htype)
    · exact .same _
  | providerExtension =>
    dsimp only
    split
    · next hkey => exact hkey ▸ .payload value htype
    · exact .same _
  | _ => exact .same _

theorem rel_map {α β : Type} {r : α → β → Prop} {f : α → β} (h : ∀ a, r a (f a))
    (value : Option α) : Option.Rel r value (value.map f) := by
  cases value with
  | none => exact .none
  | some a => exact .some (h a)

theorem rel_refl {α : Type} {r : α → α → Prop} (h : ∀ a, r a a) (value : Option α) :
    Option.Rel r value value := by
  cases value with
  | none => exact .none
  | some a => exact .some (h a)

theorem shortens_self (item : AgentItemV2 (Json Num)) (maxBytes : ℕ) :
    Shortens F maxBytes item item where
  fits := fun _ => rfl
  same := rfl
  fields := fun _ _ => rfl
  texts := fun _ => rel_refl .same _
  card := rel_refl (fun _ => ⟨rfl, rel_refl (fun _ => .inl rfl) _⟩) _
  rest := ⟨item.rest, .inl rfl, List.forall₂_same.mpr fun property _ => .same property⟩

theorem shortens_truncateTexts {maxBytes : ℕ} (hbig : ¬ jsonByteLength F item.json ≤ maxBytes)
    (budget : ℕ) : Shortens F maxBytes item (truncateTexts F budget item) where
  fits := fun hfits => absurd hfits hbig
  same := rfl
  fields := fun _ hfield => if_neg hfield
  texts := fun field => by
    simp only [truncateTexts]
    split
    · exact rel_map (fun value => cutValue_truncateText value budget) _
    · exact rel_refl .same _
  card := rel_map (fun _ => ⟨rfl, rel_map (fun text => cutText_truncateToBytes text budget) _⟩) _
  rest := by
    refine ⟨item.rest, .inl rfl, ?_⟩
    simp only [truncateTexts, List.forall₂_map_right_iff, List.forall₂_same]
    exact fun property _ => cutProperty_truncateProperty item budget property

theorem rest_dropStructured (item : AgentItemV2 (Json Num)) (budget : ℕ) :
    List.Forall₂ (CutProperty F item) (item.rest.filter fun property => !isStructured property.1)
      (dropStructured (truncateTexts F budget item)).rest := by
  have hrest : (dropStructured (truncateTexts F budget item)).rest =
      (item.rest.filter fun property => !isStructured property.1).map fun property =>
        (property.1, truncateProperty F item budget property.1 property.2) := by
    simp only [dropStructured, truncateTexts, filter_map]
    rfl
  rw [hrest, List.forall₂_map_right_iff, List.forall₂_same]
  exact fun property _ => cutProperty_truncateProperty item budget property

theorem shortens_truncateItemToBudget (item : AgentItemV2 (Json Num)) (maxBytes : ℕ) :
    Shortens F maxBytes item (truncateItemToBudget F threeFifths item maxBytes) := by
  unfold truncateItemToBudget
  split
  · exact shortens_self item maxBytes
  · next hbig =>
    have htexts := shortens_truncateTexts hbig (fieldBudget threeFifths maxBytes)
    simp only
    split
    · exact htexts
    · exact ⟨fun hfits => absurd hfits hbig, rfl, htexts.fields, htexts.texts, htexts.card,
        ⟨_, .inr rfl, rest_dropStructured item _⟩⟩

/-! ## Item eviction -/

section Eviction

variable {exceeds : List (AgentTurnV2 V) → Bool}

@[simp] theorem totalItems_cons (turn : AgentTurnV2 V) (turns : List (AgentTurnV2 V)) :
    totalItems (turn :: turns) = turn.items.length + totalItems turns := rfl

theorem totalItems_shiftOldest (several : Bool) (turns : List (AgentTurnV2 V))
    (h : 0 < totalItems turns) : totalItems (shiftOldest several turns) + 1 = totalItems turns := by
  induction turns with
  | nil => exact absurd h (lt_irrefl 0)
  | cons turn turns ih =>
    unfold shiftOldest
    cases hitems : turn.items with
    | nil =>
      rw [totalItems_cons, hitems, length_nil, Nat.zero_add] at h
      simp only [totalItems_cons, hitems, length_nil, Nat.zero_add]
      exact ih h
    | cons item items =>
      simp only [totalItems_cons, hitems, length_cons]
      split
      · next hempty =>
        rw [Bool.and_eq_true, List.isEmpty_iff] at hempty
        rw [hempty.1, length_nil]
        omega
      · show items.length + totalItems turns + 1 = _
        omega

theorem evictItems_ends {rounds : ℕ} (h : totalItems turns ≤ rounds + 1) :
    exceeds (evictItems exceeds rounds turns) = false ∨
      totalItems (evictItems exceeds rounds turns) ≤ 1 := by
  induction rounds generalizing turns with
  | zero => exact .inr h
  | succ rounds ih =>
    unfold evictItems
    split
    · next hround =>
      rw [Bool.and_eq_true, decide_eq_true_eq] at hround
      have hstep := totalItems_shiftOldest (decide (1 < turns.length)) turns (by omega)
      exact ih (by omega)
    · next hround =>
      rw [Bool.and_eq_true, decide_eq_true_eq, not_and, Bool.not_eq_true] at hround
      by_cases htotal : 1 < totalItems turns
      · exact .inl (hround htotal)
      · exact .inr (by omega)

theorem trimItemsFifo_ends (exceeds : List (AgentTurnV2 V) → Bool)
    (turns : List (AgentTurnV2 V)) :
    exceeds (trimItemsFifo exceeds turns) = false ∨ totalItems (trimItemsFifo exceeds turns) ≤ 1 :=
  evictItems_ends (Nat.le_succ _)

/-- What eviction leaves: newest items of some of the turns. -/
structure Retains (old new : List (AgentTurnV2 V)) : Prop where
  ids : (new.map fun turn => turn.id).Sublist (old.map fun turn => turn.id)
  items : ∀ turn ∈ new, ∃ full ∈ old, turn = { full with items := turn.items } ∧
    turn.items <:+ full.items

theorem Retains.refl (turns : List (AgentTurnV2 V)) : Retains turns turns :=
  ⟨List.Sublist.refl _, fun turn hturn => ⟨turn, hturn, rfl, suffix_refl _⟩⟩

theorem Retains.trans {a b c : List (AgentTurnV2 V)} (hab : Retains a b) (hbc : Retains b c) :
    Retains a c := by
  refine ⟨hbc.ids.trans hab.ids, ?_⟩
  intro turn hturn
  obtain ⟨middle, hmiddle, heq, hsuffix⟩ := hbc.items turn hturn
  obtain ⟨full, hfull, heq', hsuffix'⟩ := hab.items middle hmiddle
  refine ⟨full, hfull, ?_, hsuffix.trans hsuffix'⟩
  rw [heq, heq']

theorem Retains.of_suffix {old new : List (AgentTurnV2 V)} (h : new <:+ old) : Retains old new :=
  ⟨h.sublist.map _, fun turn hturn => ⟨turn, h.subset hturn, rfl, suffix_refl _⟩⟩

theorem retains_shiftOldest (several : Bool) (turns : List (AgentTurnV2 V)) :
    Retains turns (shiftOldest several turns) := by
  induction turns with
  | nil => exact Retains.refl []
  | cons turn turns ih =>
    unfold shiftOldest
    cases hitems : turn.items with
    | nil =>
      refine ⟨ih.ids.cons_cons turn.id, ?_⟩
      intro other hother
      rcases mem_cons.mp hother with rfl | hother
      · exact ⟨other, mem_cons_self, rfl, suffix_refl _⟩
      · obtain ⟨full, hfull, hrest⟩ := ih.items other hother
        exact ⟨full, mem_cons_of_mem _ hfull, hrest⟩
    | cons item items =>
      simp only
      split
      · exact Retains.of_suffix (suffix_cons turn turns)
      · refine ⟨List.Sublist.refl _, ?_⟩
        intro other hother
        rcases mem_cons.mp hother with rfl | hother
        · refine ⟨turn, mem_cons_self, rfl, ?_⟩
          rw [hitems]
          exact suffix_cons item items
        · exact ⟨other, mem_cons_of_mem _ hother, rfl, suffix_refl _⟩

theorem retains_evictItems (rounds : ℕ) (turns : List (AgentTurnV2 V)) :
    Retains turns (evictItems exceeds rounds turns) := by
  induction rounds generalizing turns with
  | zero => exact Retains.refl turns
  | succ rounds ih =>
    unfold evictItems
    split
    · exact (retains_shiftOldest _ turns).trans (ih _)
    · exact Retains.refl turns

section
variable (exceeds : List (AgentTurnV2 V) → Bool)

theorem ids_trimItemsFifo (h : turns.length ≤ 1) :
    (trimItemsFifo exceeds turns).map (fun turn => turn.id) = turns.map fun turn => turn.id := by
  have hshift : ∀ turns : List (AgentTurnV2 V),
      (shiftOldest false turns).map (fun turn => turn.id) = turns.map fun turn => turn.id := by
    intro turns
    induction turns with
    | nil => rfl
    | cons turn turns ih =>
      unfold shiftOldest
      split
      · exact congrArg (turn.id :: ·) ih
      · rw [Bool.and_false]
        rfl
  unfold trimItemsFifo
  generalize totalItems turns = rounds
  induction rounds generalizing turns with
  | zero => rfl
  | succ rounds ih =>
    unfold evictItems
    split
    · rw [decide_eq_false (by omega)]
      have hlength : (shiftOldest false turns).length ≤ 1 := by
        have hids := congrArg List.length (hshift turns)
        rw [length_map, length_map] at hids
        omega
      rw [ih hlength, hshift]
    · rfl

theorem length_trimItemsFifo (h : turns.length ≤ 1) :
    (trimItemsFifo exceeds turns).length = turns.length := by
  have hids := congrArg List.length (ids_trimItemsFifo exceeds h)
  rwa [length_map, length_map] at hids

/-- **Item eviction** keeps the oldest turn, unless it is over budget even with its newest items
    only, in front of turns that have items. -/
theorem evictItems_head (rounds : ℕ)
    (turn : AgentTurnV2 V) (later : List (AgentTurnV2 V)) :
    (∃ items rest, evictItems exceeds rounds (turn :: later) =
        { turn with items := items } :: rest) ∨
      (turn.items ≠ [] ∧ 0 < totalItems later ∧ ∀ items, items ≠ [] → items <:+ turn.items →
        exceeds ({ turn with items := items } :: later) = true) := by
  induction rounds generalizing turn later with
  | zero => exact .inl ⟨turn.items, later, rfl⟩
  | succ rounds ih =>
    unfold evictItems
    split
    · next hround =>
      rw [Bool.and_eq_true, decide_eq_true_eq] at hround
      obtain ⟨htotal, hover⟩ := hround
      cases hitems : turn.items with
      | nil =>
        have hshift : shiftOldest (decide (1 < (turn :: later).length)) (turn :: later) =
            turn :: shiftOldest (decide (1 < (turn :: later).length)) later := by
          rw [shiftOldest, hitems]
        rw [hshift]
        exact (ih turn _).imp_right fun hempty => absurd hitems hempty.1
      | cons item items =>
        rw [totalItems_cons, hitems, length_cons] at htotal
        cases items with
        | nil =>
          -- its last item goes, and the turn with it
          rw [length_nil] at htotal
          refine .inr ⟨cons_ne_nil _ _, by omega, ?_⟩
          intro items hne hsuffix
          rcases suffix_cons_iff.mp hsuffix with rfl | hnil
          · rw [← hitems]
            exact hover
          · exact absurd (suffix_nil.mp hnil) hne
        | cons item' items =>
          have hshift : shiftOldest (decide (1 < (turn :: later).length)) (turn :: later) =
              { turn with items := item' :: items } :: later := by
            rw [shiftOldest, hitems]
            rfl
          rw [hshift]
          refine (ih { turn with items := item' :: items } later).imp_right ?_
          rintro ⟨-, hlater, hnewest⟩
          refine ⟨cons_ne_nil _ _, hlater, ?_⟩
          intro kept hne hsuffix
          rcases suffix_cons_iff.mp hsuffix with rfl | hsuffix
          · rw [← hitems]
            exact hover
          · exact hnewest kept hne hsuffix
    · exact .inl ⟨turn.items, later, rfl⟩

end

theorem trimItemsFifo_eq_self (h : totalItems turns ≤ 1) : trimItemsFifo exceeds turns = turns := by
  unfold trimItemsFifo
  cases hrounds : totalItems turns with
  | zero => rfl
  | succ rounds =>
    unfold evictItems
    rw [decide_eq_false (by omega), Bool.false_and, if_neg Bool.false_ne_true]

end Eviction

/-! ## The cap -/

theorem mem_truncatedTurns :
    turn ∈ truncatedTurns F threeFifths session maxItemBytes ↔
      ∃ old ∈ session.turns, turn = truncateItems F threeFifths maxItemBytes old := by
  unfold truncatedTurns
  rw [mem_map]
  exact exists_congr fun old => and_congr_right fun _ => eq_comm

section
variable (F : NumberFormat Num) (threeFifths : ℕ → ℕ) (session : AgentSessionV2 (Json Num))
  (maxTranscriptBytes maxItemBytes : ℕ)

theorem turns_cap :
    let truncated := truncatedTurns F threeFifths session maxItemBytes
    let exceeds := overBudget F maxTranscriptBytes
    let working := evict exceeds (isActive session) truncated
    let capped := (capAgentSessionTranscriptV2 F threeFifths session maxTranscriptBytes
      maxItemBytes).turns
    (exceeds truncated = false ∧ capped = truncated) ∨
      (exceeds working = false ∧ capped = working) ∨
      (exceeds working = true ∧ capped = trimItemsFifo exceeds working) := by
  intro truncated exceeds working capped
  cases htruncated : exceeds truncated with
  | false =>
    refine .inl ⟨rfl, ?_⟩
    simp only [capped, capAgentSessionTranscriptV2]
    rw [if_neg (show ¬ exceeds truncated = true by rw [htruncated]; exact Bool.false_ne_true)]
  | true =>
    have hcapped : capped = if exceeds working then trimItemsFifo exceeds working else working := by
      simp only [capped, capAgentSessionTranscriptV2]
      rw [if_pos htruncated]
    right
    cases hworking : exceeds working with
    | false => exact .inl ⟨rfl, by rw [hcapped, hworking, if_neg Bool.false_ne_true]⟩
    | true => exact .inr ⟨rfl, by rw [hcapped, hworking, if_pos rfl]⟩

theorem retains_cap :
    Retains (truncatedTurns F threeFifths session maxItemBytes)
      (capAgentSessionTranscriptV2 F threeFifths session maxTranscriptBytes
        maxItemBytes).turns := by
  have hworking := Retains.of_suffix (evict_suffix (overBudget F maxTranscriptBytes)
    (isActive session) (truncatedTurns F threeFifths session maxItemBytes))
  rcases turns_cap F threeFifths session maxTranscriptBytes maxItemBytes with
    ⟨_, hturns⟩ | ⟨_, hturns⟩ | ⟨_, hturns⟩
  · rw [hturns]
    exact Retains.refl _
  · rw [hturns]
    exact hworking
  · rw [hturns]
    exact hworking.trans (retains_evictItems _ _)

end

/-- The active turn has items left within the budget, or nothing comes behind it. -/
def ActiveFits (F : NumberFormat Num) (threeFifths : ℕ → ℕ) (session : AgentSessionV2 (Json Num))
    (maxTranscriptBytes maxItemBytes : ℕ) : Prop :=
  ∀ earlier active later,
    truncatedTurns F threeFifths session maxItemBytes = earlier ++ active :: later →
    some active.id = session.live.activeTurnId →
    active.items = [] ∨ totalItems later = 0 ∨ ∃ items, items ≠ [] ∧ items <:+ active.items ∧
      transcriptByteLength F ({ active with items := items } :: later) ≤ maxTranscriptBytes

theorem head_of_activeFits
    (h : ActiveFits F threeFifths session maxTranscriptBytes maxItemBytes)
    {later : List (AgentTurnV2 (Json Num))}
    (hworking : active :: later <:+ truncatedTurns F threeFifths session maxItemBytes)
    (hactive : isActive session active = true) :
    ∃ items rest, trimItemsFifo (overBudget F maxTranscriptBytes) (active :: later) =
      { active with items := items } :: rest := by
  obtain ⟨earlier, hsplit⟩ := hworking
  rcases evictItems_head (overBudget F maxTranscriptBytes)
    (totalItems (active :: later)) active later with hhead | ⟨hne, hlater, hover⟩
  · exact hhead
  · exfalso
    rcases h earlier active later hsplit.symm (of_decide_eq_true hactive) with
      hnil | hnone | ⟨items, hitems, hsuffix, hfits⟩
    · exact hne hnil
    · omega
    · have hthis := of_decide_eq_true (hover items hitems hsuffix)
      omega

theorem active_mem_cap
    (h : ActiveFits F threeFifths session maxTranscriptBytes maxItemBytes)
    (hmem : active ∈ session.turns)
    (hactive : some active.id = session.live.activeTurnId) :
    active.id ∈ (capAgentSessionTranscriptV2 F threeFifths session maxTranscriptBytes
      maxItemBytes).turns.map fun turn => turn.id := by
  have htruncated : truncateItems F threeFifths maxItemBytes active ∈
      truncatedTurns F threeFifths session maxItemBytes :=
    mem_truncatedTurns.mpr ⟨active, hmem, rfl⟩
  set exceeds := overBudget F maxTranscriptBytes with hexceeds
  have hworking : truncateItems F threeFifths maxItemBytes active ∈
      evict exceeds (isActive session) (truncatedTurns F threeFifths session maxItemBytes) :=
    mem_evict_of_pinned htruncated (decide_eq_true hactive)
  rcases turns_cap F threeFifths session maxTranscriptBytes maxItemBytes with
    ⟨_, hturns⟩ | ⟨_, hturns⟩ | ⟨hbig, hturns⟩
  · rw [hturns]
    exact mem_map.mpr ⟨_, htruncated, rfl⟩
  · rw [hturns]
    exact mem_map.mpr ⟨_, hworking, rfl⟩
  · rw [hturns]
    rw [← hexceeds] at hbig ⊢
    rcases evict_stops exceeds (isActive session)
      (truncatedTurns F threeFifths session maxItemBytes) with hunder | hlength | hhead
    · rw [hunder] at hbig
      cases hbig
    · rw [ids_trimItemsFifo _ hlength]
      exact mem_map.mpr ⟨_, hworking, rfl⟩
    · -- the head of what is left is the active turn
      obtain ⟨head, later, heq, hpinned⟩ := hhead
      have hsuffix := evict_suffix exceeds (isActive session)
        (truncatedTurns F threeFifths session maxItemBytes)
      rw [heq] at hsuffix ⊢
      obtain ⟨items, rest, htrimmed⟩ := head_of_activeFits h hsuffix hpinned
      have hid : some head.id = some active.id := (of_decide_eq_true hpinned).trans hactive.symm
      rw [htrimmed, ← Option.some.inj hid]
      exact mem_cons_self

theorem cap_eq (session : AgentSessionV2 (Json Num)) (maxTranscriptBytes maxItemBytes : ℕ) :
    capAgentSessionTranscriptV2 F threeFifths session maxTranscriptBytes maxItemBytes =
      { session with
        turns := (capAgentSessionTranscriptV2 F threeFifths session maxTranscriptBytes
          maxItemBytes).turns } := by
  simp only [capAgentSessionTranscriptV2]
  split <;> rfl

theorem items_cap
    (h : turn ∈ (capAgentSessionTranscriptV2 F threeFifths session maxTranscriptBytes
      maxItemBytes).turns) :
    ∃ old ∈ session.turns, turn = { old with items := turn.items } ∧
      turn.items <:+ old.items.map fun item =>
        truncateItemToBudget F threeFifths item maxItemBytes := by
  obtain ⟨full, hfull, heq, hsuffix⟩ :=
    (retains_cap F threeFifths session maxTranscriptBytes maxItemBytes).items turn h
  obtain ⟨old, hold, rfl⟩ := mem_truncatedTurns.mp hfull
  exact ⟨old, hold, heq, hsuffix⟩

theorem truncatedTurns_cap
    (hstrings : ∀ turn ∈ session.turns, ∀ item ∈ turn.items, item.Representable F)
    (maxTranscriptBytes maxItemBytes : ℕ) :
    let capped := capAgentSessionTranscriptV2 F threeFifths session maxTranscriptBytes maxItemBytes
    truncatedTurns F threeFifths capped maxItemBytes = capped.turns := by
  intro capped
  have hturn : ∀ turn ∈ capped.turns, truncateItems F threeFifths maxItemBytes turn = turn := by
    intro turn hturn
    obtain ⟨old, hold, heq, hsuffix⟩ := items_cap hturn
    have hitems : turn.items.map (fun item =>
        truncateItemToBudget F threeFifths item maxItemBytes) = turn.items := by
      refine (map_congr_left fun item hitem => ?_).trans (map_id _)
      obtain ⟨full, hfull, rfl⟩ := mem_map.mp (hsuffix.subset hitem)
      rw [id_eq]
      exact truncateItem_truncateItem (hstrings old hold full hfull) maxItemBytes
    unfold truncateItems
    rw [hitems]
  unfold truncatedTurns
  rw [map_congr_left hturn, map_id']

theorem cap_cap
    (hstrings : ∀ turn ∈ session.turns, ∀ item ∈ turn.items, item.Representable F)
    {maxTranscriptBytes maxItemBytes : ℕ}
    (h : ActiveFits F threeFifths session maxTranscriptBytes maxItemBytes) :
    let capped := capAgentSessionTranscriptV2 F threeFifths session maxTranscriptBytes maxItemBytes
    capAgentSessionTranscriptV2 F threeFifths capped maxTranscriptBytes maxItemBytes = capped := by
  intro capped
  have htruncated : truncatedTurns F threeFifths capped maxItemBytes = capped.turns :=
    truncatedTurns_cap hstrings maxTranscriptBytes maxItemBytes
  have hactive : isActive capped = isActive session := by
    simp only [capped]
    rw [cap_eq]
    rfl
  have hover : overBudget F maxTranscriptBytes capped.turns = false ∨
      (totalItems capped.turns ≤ 1 ∧
        Stops (overBudget F maxTranscriptBytes) (isActive session) capped.turns) := by
    rcases turns_cap F threeFifths session maxTranscriptBytes
      maxItemBytes with ⟨hunder, hturns⟩ | ⟨hunder, hturns⟩ | ⟨hbig, hturns⟩
    · exact .inl (hturns ▸ hunder)
    · exact .inl (hturns ▸ hunder)
    · rw [show capped.turns = _ from hturns]
      -- where items were evicted, the same turn is still in front
      refine (trimItemsFifo_ends _ _).imp_right fun hfew => ⟨hfew, ?_⟩
      rcases evict_stops (overBudget F maxTranscriptBytes) (isActive session)
        (truncatedTurns F threeFifths session maxItemBytes) with hunder | hlength | hhead
      · rw [hunder] at hbig
        cases hbig
      · right
        left
        rw [length_trimItemsFifo _ hlength]
        exact hlength
      · right
        right
        obtain ⟨head, later, heq, hpinned⟩ := hhead
        have hsuffix := evict_suffix (overBudget F maxTranscriptBytes)
          (isActive session) (truncatedTurns F threeFifths session maxItemBytes)
        rw [heq] at hsuffix ⊢
        obtain ⟨items, rest, htrimmed⟩ := head_of_activeFits h hsuffix hpinned
        exact ⟨_, rest, htrimmed, hpinned⟩
  have hturns : (capAgentSessionTranscriptV2 F threeFifths capped maxTranscriptBytes
      maxItemBytes).turns = capped.turns := by
    rcases turns_cap F threeFifths capped maxTranscriptBytes
      maxItemBytes with ⟨_, hturns⟩ | ⟨_, hturns⟩ | ⟨hbig, hturns⟩
    · rw [hturns, htruncated]
    · rw [hturns, htruncated, hactive]
      rcases hover with hunder | ⟨_, hstops⟩
      · exact evict_eq_self (.inl hunder)
      · exact evict_eq_self hstops
    · rw [htruncated] at hbig
      rw [hturns, htruncated, hactive]
      rcases hover with hunder | ⟨hfew, hstops⟩
      · rw [evict_eq_self (.inl hunder), hunder] at hbig
        cases hbig
      · rw [evict_eq_self hstops, trimItemsFifo_eq_self hfew]
  rw [cap_eq, hturns]

/-- **The cap.**  The transcript fits, or at most one item is left.  An item fits, or nothing more
    can be cut from it.  Of each turn left, the newest items are left, shortened.  The active turn
    is left if it fits, and then a second cap changes nothing. -/
theorem cap_bounds (F : NumberFormat Num) (threeFifths : ℕ → ℕ)
    (session : AgentSessionV2 (Json Num)) (maxTranscriptBytes maxItemBytes : ℕ)
    (hstrings : ∀ turn ∈ session.turns, ∀ item ∈ turn.items, item.Representable F) :
    let capped := capAgentSessionTranscriptV2 F threeFifths session maxTranscriptBytes maxItemBytes
    (transcriptByteLength F capped.turns ≤ maxTranscriptBytes ∨ totalItems capped.turns ≤ 1) ∧
      (∀ turn ∈ capped.turns, ∀ item ∈ turn.items,
        jsonByteLength F item.json ≤ maxItemBytes ∨
          item.Trimmed (fieldBudget threeFifths maxItemBytes)) ∧
      (capped.turns.map fun turn => turn.id).Sublist (session.turns.map fun turn => turn.id) ∧
      (∀ turn ∈ capped.turns, ∃ old ∈ session.turns, turn = { old with items := turn.items } ∧
        ∃ newest, newest <:+ old.items ∧
          List.Forall₂ (Shortens F maxItemBytes) newest turn.items) ∧
      (ActiveFits F threeFifths session maxTranscriptBytes maxItemBytes →
        (∀ active ∈ session.turns, some active.id = session.live.activeTurnId →
          active.id ∈ capped.turns.map fun turn => turn.id) ∧
        capAgentSessionTranscriptV2 F threeFifths capped maxTranscriptBytes maxItemBytes =
          capped) := by
  intro capped
  refine ⟨?_, ?_, ?_, ?_, ?_⟩
  · rcases turns_cap F threeFifths session maxTranscriptBytes
      maxItemBytes with ⟨hunder, hturns⟩ | ⟨hunder, hturns⟩ | ⟨_, hturns⟩
    · rw [show capped.turns = _ from hturns]
      exact .inl (Nat.le_of_not_lt (of_decide_eq_false hunder))
    · rw [show capped.turns = _ from hturns]
      exact .inl (Nat.le_of_not_lt (of_decide_eq_false hunder))
    · rw [show capped.turns = _ from hturns]
      rcases trimItemsFifo_ends (overBudget F maxTranscriptBytes)
        (evict (overBudget F maxTranscriptBytes) (isActive session)
          (truncatedTurns F threeFifths session maxItemBytes)) with hunder | hfew
      · exact .inl (Nat.le_of_not_lt (of_decide_eq_false hunder))
      · exact .inr hfew
  · intro turn hturn item hitem
    obtain ⟨old, hold, _, hsuffix⟩ := items_cap hturn
    obtain ⟨full, hfull, rfl⟩ := mem_map.mp (hsuffix.subset hitem)
    exact fits_or_trimmed (hstrings old hold full hfull) maxItemBytes
  · have hids := (retains_cap F threeFifths session maxTranscriptBytes maxItemBytes).ids
    have hsame : (truncatedTurns F threeFifths session maxItemBytes).map (fun turn => turn.id) =
        session.turns.map fun turn => turn.id := by
      unfold truncatedTurns
      rw [map_map]
      rfl
    rwa [hsame] at hids
  · intro turn hturn
    obtain ⟨old, hold, heq, earlier, hsplit⟩ := items_cap hturn
    obtain ⟨dropped, newest, hitems, _, hnewest⟩ := map_eq_append_iff.mp hsplit.symm
    refine ⟨old, hold, heq, newest, ⟨dropped, hitems.symm⟩, ?_⟩
    rw [← hnewest, List.forall₂_map_right_iff, List.forall₂_same]
    exact fun item _ => shortens_truncateItemToBudget item maxItemBytes
  · intro hfits
    exact ⟨fun active hmem hactive => active_mem_cap hfits hmem hactive, cap_cap hstrings hfits⟩

/-- An item with one text field or property of its own. -/
def plainItem (type : AgentItemType) (id : JsText)
    (fields : DeltaField → Option (FieldValue V)) (rest : List (JsText × FieldValue V)) :
    AgentItemV2 V :=
  { id := id
    type := type
    fields := fields
    status := some .pending
    error := none
    exitCode := none
    durationMs := none
    startedAt := none
    completedAt := none
    card := none
    rest := rest }

def approvalItem (id requestId : JsText) : AgentItemV2 V :=
  plainItem .approval id (fun _ => none) [(utf16 "requestId", .text requestId)]

def textItem (type : AgentItemType) (field : DeltaField) (id text : JsText) : AgentItemV2 V :=
  plainItem type id (fun other => if other = field then some (.text text) else none) []

def approvalSession : AgentSessionV2 (Json (Option (Fin (2 ^ 53)))) :=
  let session :=
    sessionOf [(runningTurn (utf16 "t")).appendItem (approvalItem (utf16 "i") (utf16 "r"))] .null
  { session with live := { session.live with activeTurnId := some (utf16 "t") } }

/-- An answer of a turn before, an approval and a long output of the active turn, and a message
    that waits behind it. -/
def longTurns : List (AgentTurnV2 (Json (Option (Fin (2 ^ 53))))) :=
  [(runningTurn (utf16 "before")).appendItem
      (textItem .assistantMessage .text (utf16 "answer") (replicate 100 97)),
    ((runningTurn (utf16 "active")).appendItem (approvalItem (utf16 "i") (utf16 "r"))).appendItem
      (textItem .commandExecution .output (utf16 "output") (replicate 345 20013)),
    (runningTurn (utf16 "behind")).appendItem
      (textItem .userMessage .text (utf16 "message") (utf16 "and then?"))]

def longSession : AgentSessionV2 (Json (Option (Fin (2 ^ 53)))) :=
  let session := sessionOf longTurns .null
  { session with live := { session.live with activeTurnId := some (utf16 "active") } }

theorem representable_textItem (type : AgentItemType) (field : DeltaField) (id : JsText)
    {text : JsText} (h : text.length < stringLengthLimit) :
    (textItem type field id text : AgentItemV2 (Json Num)).Representable F := by
  refine ⟨fun other s hs => ?_, fun card hcard => ?_, fun property hproperty => ?_⟩
  · simp only [textItem, plainItem, Option.ite_none_right_eq_some, Option.some.injEq,
      FieldValue.text.injEq] at hs
    exact hs.2 ▸ h
  · cases hcard
  · cases hproperty

theorem representable_approvalItem :
    (approvalItem (utf16 "i") (utf16 "r") : AgentItemV2 (Json Num)).Representable F := by
  refine ⟨fun field s hs => ?_, fun card hcard => ?_, fun property hproperty => ?_⟩
  · cases hs
  · cases hcard
  · rw [mem_singleton.mp hproperty]
    exact (by decide : (utf16 "r").length < stringLengthLimit)

theorem representable_longSession : ∀ turn ∈ longSession.turns, ∀ item ∈ turn.items,
    item.Representable Json.exactCounting := by
  have hturns : ∀ turn ∈ longTurns, ∀ item ∈ turn.items,
      item.Representable Json.exactCounting := by
    simp only [longTurns, forall_mem_cons, AgentTurnV2.appendItem, runningTurn, nil_append,
      singleton_append, not_mem_nil, false_imp_iff, implies_true, and_true]
    refine ⟨representable_textItem _ _ _ ?_, ⟨representable_approvalItem,
      representable_textItem _ _ _ ?_⟩, representable_textItem _ _ _ ?_⟩
    · rw [length_replicate]
      decide
    · rw [length_replicate]
      decide
    · decide
  exact hturns

/-- From the active turn on the long transcript fits, and the cap leaves several items of it; the
    approval does not fit. -/
theorem sizes_of_sessions :
    transcriptByteLength Json.exactCounting ((truncatedTurns Json.exactCounting
        (fun n => 3 * n / 5) longSession 500).drop 1) ≤ 1400 ∧
      ¬totalItems (capAgentSessionTranscriptV2 Json.exactCounting (fun n => 3 * n / 5)
        longSession 1400 500).turns ≤ 1 ∧
      ((capAgentSessionTranscriptV2 Json.exactCounting (fun n => 3 * n / 5) approvalSession 1000
        10).turns.all fun turn => turn.items.all fun item =>
          decide (jsonByteLength Json.exactCounting item.json ≤ 10)) = false := by
  decide +kernel

theorem activeFits_longSession :
    ActiveFits Json.exactCounting (fun n => 3 * n / 5) longSession 1400 500 := by
  have hsize := sizes_of_sessions.1
  intro earlier active later hsplit hid
  have hactive : active.id = utf16 "active" := Option.some.inj hid
  have hids : [utf16 "before", utf16 "active", utf16 "behind"] =
      (earlier ++ active :: later).map fun turn => turn.id :=
    congrArg (List.map fun turn : AgentTurnV2 (Json (Option (Fin (2 ^ 53)))) => turn.id) hsplit
  -- the active turn is the second one
  rcases earlier with _ | ⟨first, _ | ⟨second, earlier⟩⟩
  · have hhead : utf16 "before" = active.id := (cons.inj hids).1
    rw [hactive] at hhead
    exact absurd hhead (by decide)
  · by_cases hitems : active.items = []
    · exact .inl hitems
    · rw [hsplit] at hsize
      exact .inr (.inr ⟨active.items, hitems, suffix_rfl, hsize⟩)
  · have hrest := (cons.inj (cons.inj hids).2).2
    rcases earlier with _ | ⟨third, earlier⟩
    · have hhead : utf16 "behind" = active.id := (cons.inj hrest).1
      rw [hactive] at hhead
      exact absurd hhead (by decide)
    · have hlength := congrArg List.length hrest
      simp at hlength

theorem cap_bounds_longSession :
    let capped := capAgentSessionTranscriptV2 Json.exactCounting (fun n => 3 * n / 5)
      longSession 1400 500
    transcriptByteLength Json.exactCounting capped.turns ≤ 1400 ∧
      utf16 "active" ∈ capped.turns.map (fun turn => turn.id) ∧
      capAgentSessionTranscriptV2 Json.exactCounting (fun n => 3 * n / 5) capped 1400 500 =
        capped := by
  obtain ⟨hsize, _, _, _, hfixed⟩ := cap_bounds Json.exactCounting (fun n => 3 * n / 5)
    longSession 1400 500 representable_longSession
  obtain ⟨hkept, hfixed⟩ := hfixed activeFits_longSession
  exact ⟨hsize.resolve_right sizes_of_sessions.2.1,
    hkept _ (mem_cons_of_mem _ mem_cons_self) rfl, hfixed⟩

/-- An approval stays as it is, whatever the budget of an item. -/
theorem approval_over_budget :
    ¬ ∀ (session : AgentSessionV2 (Json (Option (Fin (2 ^ 53)))))
        (maxTranscriptBytes maxItemBytes : ℕ),
      ∀ turn ∈ (capAgentSessionTranscriptV2 Json.exactCounting (fun n => 3 * n / 5) session
        maxTranscriptBytes maxItemBytes).turns, ∀ item ∈ turn.items,
        jsonByteLength Json.exactCounting item.json ≤ maxItemBytes := by
  intro hall
  refine Bool.eq_false_iff.mp sizes_of_sessions.2.2 ?_
  rw [all_eq_true]
  intro turn hturn
  rw [all_eq_true]
  intro item hitem
  exact decide_eq_true (hall approvalSession 1000 10 turn hturn item hitem)

end RelayIde.AgentSession
