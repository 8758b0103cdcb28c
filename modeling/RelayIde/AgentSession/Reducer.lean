import RelayIde.Bridge.DetailBounds
import RelayIde.Library.Machine
import RelayIde.Library.Upsert

/-!
# Agent Session Reducer

The transcript of an agent session, as every client folds it from the patches of its runtime
(`shared/agent-chat-protocol-v2.ts`).  Patches come over a connection that may deliver one twice.

- `replay_safe` — what a run of patches keeps, in which every error is new to its turn and no patch
  carries a duplicate itself

An error patch appends its item, whose id is derived from the patch, without looking for it.
-/

namespace RelayIde.AgentSession

open RelayIde.Library List
open RelayIde.Library.JsText (utf16)
open RelayIde.Bridge (DetailCard DetailStatus)

/-! ## Sessions -/

inductive AgentItemType where
  | userMessage
  | assistantMessage
  | reasoning
  | plan
  | commandExecution
  | fileChange
  | mcpToolCall
  | dynamicToolCall
  | approval
  | question
  | compaction
  | sessionBreak
  | webSearch
  | imageView
  | imageGeneration
  | hookPrompt
  | providerExtension
  | errorMessage
  deriving DecidableEq

/-- `DELTA_STRING_FIELDS`. -/
inductive DeltaField where
  | text
  | output
  | summary
  | detail
  | patch
  | content
  deriving DecidableEq

inductive FieldValue (V : Type) where
  | text (s : JsText)
  | other (v : V)

/-- `AgentItemV2`.  A delta may put any of its text fields on any item. -/
structure AgentItemV2 (V : Type) where
  id : JsText
  type : AgentItemType
  fields : DeltaField → Option (FieldValue V)
  status : Option DetailStatus
  error : Option JsText
  exitCode : Option V
  durationMs : Option V
  startedAt : Option JsText
  completedAt : Option JsText
  card : Option (DetailCard V)
  /-- The properties that no patch touches one by one. -/
  rest : List (JsText × FieldValue V)

inductive AgentTurnStatusV2 where
  | queued
  | running
  | waiting
  | completed
  | interrupted
  | failed
  deriving DecidableEq

structure AgentTurnV2 (V : Type) where
  id : JsText
  providerTurnId : Option JsText
  status : AgentTurnStatusV2
  inputMessageId : JsText
  items : List (AgentItemV2 V)
  startedAt : JsText
  completedAt : Option JsText
  durationMs : Option V
  error : Option JsText
  usage : Option V

inductive AgentLiveStatusV2 where
  | idle
  | working
  | waiting
  | error
  | disconnected

structure AgentSessionLiveStateV2 (V : Type) where
  status : AgentLiveStatusV2
  activeTurnId : Option JsText
  waitingOn : Option JsText
  activeRequestIds : List JsText
  proposedPlanItemId : Option JsText
  queueLength : V
  fastModeAvailable : Bool
  error : Option JsText

/-- An object that patches are spread into. -/
abbrev Entries (V : Type) := JsText → Option (FieldValue V)

structure AgentSessionV2 (V : Type) where
  id : JsText
  provider : JsText
  providerSession : Option (Entries V)
  capabilities : Entries V
  config : Entries V
  live : AgentSessionLiveStateV2 V
  turns : List (AgentTurnV2 V)
  slashCommands : Option V

/-! ## Patches -/

/-- `Partial<AgentSessionLiveStateV2>`: a property that is there may be `null`. -/
structure LivePatch (V : Type) where
  status : Option AgentLiveStatusV2
  activeTurnId : Option (Option JsText)
  waitingOn : Option (Option JsText)
  activeRequestIds : Option (List JsText)
  proposedPlanItemId : Option (Option JsText)
  queueLength : Option V
  fastModeAvailable : Option Bool
  error : Option (Option JsText)

inductive DeltaMode where
  | append
  | replace
  deriving DecidableEq

structure ItemDelta (V : Type) where
  fields : DeltaField → Option JsText
  status : Option DetailStatus
  error : Option JsText
  exitCode : Option V
  durationMs : Option V
  /-- The card counts of the delta, if it has a card. -/
  additions : Option V
  deletions : Option V

structure TurnCompletion (V : Type) where
  turnId : JsText
  status : AgentTurnStatusV2
  completedAt : Option JsText
  durationMs : Option V
  usage : Option V
  error : Option JsText

structure AgentError where
  message : JsText
  turnId : Option JsText

inductive PatchBody (V : Type) where
  | sessionSnapshot (session : AgentSessionV2 V)
  | sessionUpdated (capabilities providerSession config : Option (Entries V))
      (slashCommands : Option V)
  | liveStateUpdated (live : LivePatch V)
  | turnStarted (turn : AgentTurnV2 V)
  | itemStarted (turnId : JsText) (item : AgentItemV2 V)
  | itemDelta (turnId itemId : JsText) (mode : DeltaMode) (delta : ItemDelta V)
  | itemUpdated (turnId : JsText) (item : AgentItemV2 V)
  | turnCompleted (completion : TurnCompletion V)
  | error (error : AgentError)

structure AgentPatchV2 (V : Type) where
  sessionId : JsText
  timestamp : JsText
  body : PatchBody V

/-! ## Helpers -/

variable {V : Type}

/-- `{ ...entries, ...patch }`. -/
def spread (entries patch : Entries V) : Entries V := fun key => (patch key).or (entries key)

def applyLivePatch (live : AgentSessionLiveStateV2 V) (patch : LivePatch V) :
    AgentSessionLiveStateV2 V :=
  { status := patch.status.getD live.status
    activeTurnId := patch.activeTurnId.getD live.activeTurnId
    waitingOn := patch.waitingOn.getD live.waitingOn
    activeRequestIds := patch.activeRequestIds.getD live.activeRequestIds
    proposedPlanItemId := patch.proposedPlanItemId.getD live.proposedPlanItemId
    queueLength := patch.queueLength.getD live.queueLength
    fastModeAvailable := patch.fastModeAvailable.getD live.fastModeAvailable
    error := patch.error.getD live.error }

def upsertTurn (turns : List (AgentTurnV2 V)) (turn : AgentTurnV2 V) : List (AgentTurnV2 V) :=
  upsertBy (fun t => t.id) turn turns

def upsertItem (items : List (AgentItemV2 V)) (item : AgentItemV2 V) : List (AgentItemV2 V) :=
  upsertBy (fun i => i.id) item items

def updateTurn (session : AgentSessionV2 V) (turnId : JsText)
    (update : AgentTurnV2 V → AgentTurnV2 V) : AgentSessionV2 V :=
  { session with turns := updateBy (fun t => t.id) turnId update session.turns }

def completeLiveStateForActiveTurn (session : AgentSessionV2 V) (patch : TurnCompletion V) :
    AgentSessionV2 V :=
  if session.live.activeTurnId ≠ some patch.turnId then session
  else
    { session with
      live := { session.live with
        status := if patch.status = .failed then .error else .idle
        activeTurnId := none
        error := patch.error.or session.live.error } }

def completeTurn (turn : AgentTurnV2 V) (patch : TurnCompletion V) : AgentTurnV2 V :=
  { turn with
    status := patch.status
    completedAt := patch.completedAt.or turn.completedAt
    durationMs := patch.durationMs.or turn.durationMs
    usage := patch.usage.or turn.usage
    error := patch.error.or turn.error }

def appendStringField (mode : DeltaMode) (current : Option (FieldValue V))
    (fragment : Option JsText) : Option (FieldValue V) :=
  match fragment with
  | none => current
  | some fragment =>
    match mode, current with
    | .replace, _ => some (.text fragment)
    | .append, none => some (.text fragment)
    | .append, some (.text s) => some (.text (s ++ fragment))
    | .append, some (.other v) => some (.other v)

def appendItemDelta (item : AgentItemV2 V) (delta : ItemDelta V) (mode : DeltaMode) :
    AgentItemV2 V :=
  let command := decide (item.type = .commandExecution)
  { item with
    fields := fun field => appendStringField mode (item.fields field) (delta.fields field)
    status := delta.status.or item.status
    error := delta.error.or item.error
    exitCode := if command then delta.exitCode.or item.exitCode else item.exitCode
    durationMs := if command then delta.durationMs.or item.durationMs else item.durationMs }

def isTerminalDetailStatus : DetailStatus → Bool
  | .completed | .failed | .cancelled => true
  | .pending | .running => false

/-- `agentDetailCardForItem`: any projection of an item onto a card. -/
abbrev CardFor (V : Type) := AgentItemV2 V → Option (DetailCard V)

def withAgentDetailCard (cardFor : CardFor V) (item : AgentItemV2 V) : AgentItemV2 V :=
  match cardFor item with
  | none => item
  | some card => { item with card := some card }

/-- A text property, `undefined` if it is missing. -/
def AgentItemV2.text? (item : AgentItemV2 V) (field : DeltaField) : Option JsText :=
  match item.fields field with
  | some (.text s) => some s
  | _ => none

def deltaCardContent (item next : AgentItemV2 V) (card : DetailCard V) (mode : DeltaMode)
    (delta : ItemDelta V) : Option JsText :=
  match next.type with
  | .reasoning =>
    if (next.text? .detail).getD [] = [] then next.text? .summary else next.text? .detail
  | .commandExecution => next.text? .output
  | .fileChange => next.text? .patch
  | .dynamicToolCall =>
    match delta.fields .content with
    | none => card.content
    | some fragment =>
      let held := card.content.getD []
      if mode = .replace then
        some ((if held = [] then [] else held ++ utf16 "\n\n") ++ utf16 "output\n" ++ fragment)
      else
        let separator :=
          if (item.text? .content).getD [] ≠ [] then []
          else if held ≠ [] then utf16 "\n\noutput\n"
          else utf16 "output\n"
        some (held ++ separator ++ fragment)
  | _ => card.content

def applyDeltaToItem (cardFor : CardFor V) (item : AgentItemV2 V) (mode : DeltaMode)
    (delta : ItemDelta V) : AgentItemV2 V :=
  let next := appendItemDelta item delta mode
  if next.type = .assistantMessage ∨ next.type = .userMessage then next
  else
    let status := (delta.status.or (item.card.map (·.status))).getD (next.status.getD .pending)
    if isTerminalDetailStatus status then withAgentDetailCard cardFor next
    else
      match item.card with
      | none => next
      | some card =>
        { next with
          card := some { card with
            status := status
            content := (deltaCardContent item next card mode delta).or card.content
            additions := delta.additions.or card.additions
            deletions := delta.deletions.or card.deletions } }

def startedMessage (itemId text timestamp : JsText) : AgentItemV2 V :=
  { id := itemId
    type := .assistantMessage
    fields := fun field => if field = .text then some (.text text) else none
    status := some .running
    error := none
    exitCode := none
    durationMs := none
    startedAt := some timestamp
    completedAt := none
    card := none
    rest := [(utf16 "phase", .text (utf16 "answer"))] }

def applyItemDelta (cardFor : CardFor V) (items : List (AgentItemV2 V))
    (timestamp itemId : JsText) (mode : DeltaMode) (delta : ItemDelta V) : List (AgentItemV2 V) :=
  if items.any fun item => decide (item.id = itemId) then
    updateBy (fun i => i.id) itemId (fun item => applyDeltaToItem cardFor item mode delta) items
  else
    match delta.fields .text with
    | none => items
    | some text => items ++ [startedMessage itemId text timestamp]

/-! ## The error item -/

/-- `toString(36)`. -/
def toString36 (n : ℕ) : JsText :=
  if n = 0 then [48]
  else (Nat.digits 36 n).reverse.map fun d => if d < 10 then 48 + d else 87 + d

/-- `shortHash`: FNV-1a over UTF-16 units. -/
def shortHash (input : JsText) : JsText :=
  toString36 (input.foldl (fun hash unit => ((hash ^^^ unit) * 0x01000193) % 2 ^ 32) 0x811c9dc5)

def errorItemId (patch : AgentPatchV2 V) (error : AgentError) : JsText :=
  utf16 "error-" ++ patch.timestamp ++ utf16 "-" ++
    shortHash (patch.sessionId ++ utf16 "|" ++ error.turnId.getD [] ++ utf16 "|" ++ error.message)

def errorItem (patch : AgentPatchV2 V) (error : AgentError) : AgentItemV2 V :=
  { id := errorItemId patch error
    type := .errorMessage
    fields := fun _ => none
    status := some .completed
    error := none
    exitCode := none
    durationMs := none
    startedAt := some patch.timestamp
    completedAt := some patch.timestamp
    card := none
    rest := [(utf16 "message", .text error.message), (utf16 "source", .text (utf16 "agent"))] }

def syntheticTurn (patch : AgentPatchV2 V) (error : AgentError) : AgentTurnV2 V :=
  { id := utf16 "synthetic-" ++ patch.timestamp
    providerTurnId := none
    status := .failed
    inputMessageId := []
    items := [errorItem patch error]
    startedAt := patch.timestamp
    completedAt := some patch.timestamp
    durationMs := none
    error := none
    usage := none }

/-- The turn an error is meant for; the empty id is none. -/
def errorTargetId (session : AgentSessionV2 V) (error : AgentError) : Option JsText :=
  (error.turnId.or session.live.activeTurnId).filter fun turnId =>
    decide (turnId ≠ []) && session.turns.any fun turn => decide (turn.id = turnId)

def AgentTurnV2.appendItem (turn : AgentTurnV2 V) (item : AgentItemV2 V) : AgentTurnV2 V :=
  { turn with items := turn.items ++ [item] }

def errorTurns (session : AgentSessionV2 V) (patch : AgentPatchV2 V) (error : AgentError) :
    List (AgentTurnV2 V) :=
  match errorTargetId session error with
  | some turnId =>
    updateBy (fun t => t.id) turnId (fun turn => turn.appendItem (errorItem patch error))
      session.turns
  | none =>
    match session.turns.getLast? with
    | some lastTurn => upsertTurn session.turns (lastTurn.appendItem (errorItem patch error))
    | none => [syntheticTurn patch error]

/-! ## The reducer -/

def applyAgentPatchV2 (cardFor : CardFor V) (session : AgentSessionV2 V) (patch : AgentPatchV2 V) :
    AgentSessionV2 V :=
  match patch.body with
  | .sessionSnapshot snapshot => snapshot
  | .sessionUpdated capabilities providerSession config slashCommands =>
    { session with
      capabilities := (capabilities.map (spread session.capabilities)).getD session.capabilities
      providerSession := (providerSession.map
        (spread (session.providerSession.getD fun _ => none))).or session.providerSession
      config := (config.map (spread session.config)).getD session.config
      slashCommands := slashCommands.or session.slashCommands }
  | .liveStateUpdated live => { session with live := applyLivePatch session.live live }
  | .turnStarted turn =>
    { session with
      live := { session.live with
        status := .working
        activeTurnId := some turn.id
        error := none }
      turns := upsertTurn session.turns turn }
  | .itemStarted turnId item | .itemUpdated turnId item =>
    updateTurn session turnId fun turn => { turn with items := upsertItem turn.items item }
  | .itemDelta turnId itemId mode delta =>
    updateTurn session turnId fun turn =>
      { turn with items := applyItemDelta cardFor turn.items patch.timestamp itemId mode delta }
  | .turnCompleted completion =>
    updateTurn (completeLiveStateForActiveTurn session completion) completion.turnId fun turn =>
      completeTurn turn completion
  | .error error =>
    { session with
      live := { session.live with
        status := .error
        error := some error.message }
      turns := errorTurns session patch error }

/-! ## Unique ids -/

structure UniqueIds (session : AgentSessionV2 V) : Prop where
  turns : (session.turns.map fun t => t.id).Nodup
  items : ∀ turn ∈ session.turns, (turn.items.map fun i => i.id).Nodup

def ReceivesError (session : AgentSessionV2 V) (error : AgentError) (turn : AgentTurnV2 V) : Prop :=
  match errorTargetId session error with
  | some turnId => turn.id = turnId
  | none => session.turns.getLast? = some turn

/-- The patch carries no duplicate ids, and an error is new to the turn it is put into. -/
def FreshIds (session : AgentSessionV2 V) (patch : AgentPatchV2 V) : Prop :=
  match patch.body with
  | .sessionSnapshot snapshot => UniqueIds snapshot
  | .turnStarted turn => (turn.items.map fun i => i.id).Nodup
  | .error error => ∀ turn ∈ session.turns, ReceivesError session error turn →
      errorItemId patch error ∉ turn.items.map fun i => i.id
  | _ => True

variable {cardFor : CardFor V} {session : AgentSessionV2 V}

theorem id_applyDeltaToItem (item : AgentItemV2 V) (mode : DeltaMode) (delta : ItemDelta V) :
    (applyDeltaToItem cardFor item mode delta).id = item.id := by
  unfold applyDeltaToItem
  simp only
  split
  · rfl
  · split
    · unfold withAgentDetailCard
      split <;> rfl
    · split <;> rfl

variable {items : List (AgentItemV2 V)} {turn : AgentTurnV2 V} {patch : AgentPatchV2 V}

theorem nodup_applyItemDelta
    (h : (items.map fun i => i.id).Nodup) (timestamp itemId : JsText) (mode : DeltaMode)
    (delta : ItemDelta V) :
    ((applyItemDelta cardFor items timestamp itemId mode delta).map fun i => i.id).Nodup := by
  unfold applyItemDelta
  split
  · rw [keys_updateBy]
    · exact h
    · exact fun item => id_applyDeltaToItem item mode delta
  · next hnew =>
    split
    · exact h
    · rw [map_append, map_singleton]
      refine nodup_append.mpr ⟨h, nodup_singleton _, ?_⟩
      rintro _ hold _ hstarted rfl
      obtain ⟨item, hitem, hid⟩ := mem_map.mp hold
      rw [mem_singleton] at hstarted
      apply hnew
      rw [any_eq_true]
      exact ⟨item, hitem, decide_eq_true (hid.trans hstarted)⟩

theorem UniqueIds.updateTurn (h : UniqueIds session) (turnId : JsText)
    (update : AgentTurnV2 V → AgentTurnV2 V)
    (hid : ∀ turn, (update turn).id = turn.id) (hitems : ∀ turn ∈ session.turns, turn.id = turnId →
      ((update turn).items.map fun i => i.id).Nodup) :
    UniqueIds (updateTurn session turnId update) := by
  constructor
  · show ((updateBy (fun t => t.id) turnId update session.turns).map fun t => t.id).Nodup
    rw [keys_updateBy hid]
    exact h.turns
  · intro turn hturn
    obtain ⟨old, hold, rfl⟩ := mem_updateBy.mp hturn
    split
    · next hthis => exact hitems old hold hthis
    · exact h.items old hold

theorem UniqueIds.upsertTurn (h : UniqueIds session)
    (hturn : (turn.items.map fun i => i.id).Nodup) (live : AgentSessionLiveStateV2 V) :
    UniqueIds { session with live := live, turns := upsertTurn session.turns turn } := by
  constructor
  · exact nodup_upsertBy h.turns turn
  · intro other hother
    rcases mem_upsertBy hother with rfl | hother
    · exact hturn
    · exact h.items other hother

theorem nodup_appendItem (h : (turn.items.map fun i => i.id).Nodup)
    (item : AgentItemV2 V) (hnew : item.id ∉ turn.items.map fun i => i.id) :
    ((turn.appendItem item).items.map fun i => i.id).Nodup := by
  show ((turn.items ++ [item]).map fun i => i.id).Nodup
  rw [map_append]
  refine nodup_append.mpr ⟨h, nodup_singleton _, ?_⟩
  rintro _ hold _ hself rfl
  rw [mem_singleton.mp hself] at hold
  exact hnew hold

theorem UniqueIds.errorTurns (h : UniqueIds session) {error : AgentError}
    (hfresh : ∀ turn ∈ session.turns, ReceivesError session error turn →
      errorItemId patch error ∉ turn.items.map fun i => i.id)
    (live : AgentSessionLiveStateV2 V) :
    UniqueIds { session with live := live, turns := errorTurns session patch error } := by
  unfold AgentSession.errorTurns
  unfold ReceivesError at hfresh
  cases htarget : errorTargetId session error with
  | some turnId =>
    simp only [htarget] at hfresh
    have hupdated := h.updateTurn turnId (fun turn => turn.appendItem (errorItem patch error))
      (fun _ => rfl)
      fun turn hturn hid => nodup_appendItem (h.items turn hturn) _ (hfresh turn hturn hid)
    exact ⟨hupdated.turns, hupdated.items⟩
  | none =>
    simp only [htarget] at hfresh
    cases hlast : session.turns.getLast? with
    | some lastTurn =>
      have hmem := mem_of_getLast? hlast
      have hnew := nodup_appendItem (h.items lastTurn hmem) (errorItem patch error)
        (hfresh lastTurn hmem hlast)
      exact h.upsertTurn hnew live
    | none =>
      -- a turn is made up
      constructor
      · exact nodup_singleton _
      · intro turn hturn
        rw [mem_singleton.mp hturn]
        exact nodup_singleton _

/-- **One patch** keeps ids unique, unless it carries duplicates or repeats an error. -/
theorem uniqueIds_apply (h : UniqueIds session) (patch : AgentPatchV2 V)
    (hfresh : FreshIds session patch) : UniqueIds (applyAgentPatchV2 cardFor session patch) := by
  obtain ⟨sessionId, timestamp, body⟩ := patch
  cases body with
  | sessionSnapshot snapshot => exact hfresh
  | sessionUpdated capabilities providerSession config slashCommands | liveStateUpdated live =>
    exact ⟨h.turns, h.items⟩
  | turnStarted turn => exact h.upsertTurn hfresh _
  | itemStarted turnId item | itemUpdated turnId item =>
    exact h.updateTurn turnId _ (fun _ => rfl) fun turn hturn _ =>
      nodup_upsertBy (h.items turn hturn) item
  | itemDelta turnId itemId mode delta =>
    exact h.updateTurn turnId _ (fun _ => rfl) fun turn hturn _ =>
      nodup_applyItemDelta (h.items turn hturn) timestamp itemId mode delta
  | turnCompleted completion =>
    have hlive : UniqueIds (completeLiveStateForActiveTurn session completion) := by
      unfold completeLiveStateForActiveTurn
      split
      · exact h
      · exact ⟨h.turns, h.items⟩
    exact hlive.updateTurn completion.turnId _ (fun _ => rfl) fun turn hturn _ =>
      hlive.items turn hturn
  | error error => exact h.errorTurns hfresh _

/-! ## Replays -/

def PatchBody.isDelta : PatchBody V → Bool
  | .itemDelta .. => true
  | _ => false

def PatchBody.isError : PatchBody V → Bool
  | .error _ => true
  | _ => false

/-- A delta writes to the turn or the item that an earlier patch wrote. -/
def Overwrites (written delta : PatchBody V) : Prop :=
  match delta with
  | .itemDelta turnId itemId _ _ =>
    match written with
    | .sessionSnapshot snapshot => turnId ∈ snapshot.turns.map fun t => t.id
    | .turnStarted turn => turnId = turn.id
    | .itemStarted turnId' item | .itemUpdated turnId' item => turnId = turnId' ∧ itemId = item.id
    | _ => False
  | _ => False

def Wrote (written : PatchBody V) (session : AgentSessionV2 V) : Prop :=
  match written with
  | .sessionSnapshot snapshot => session.turns = snapshot.turns
  | .turnStarted turn => turn ∈ session.turns
  | .itemStarted turnId item | .itemUpdated turnId item =>
    ∀ turn ∈ session.turns, turn.id = turnId → item ∈ turn.items
  | .turnCompleted completion =>
    ∀ turn ∈ session.turns, turn.id = completion.turnId → completeTurn turn completion = turn
  | _ => True

theorem completeTurn_completeTurn (turn : AgentTurnV2 V) (completion : TurnCompletion V) :
    completeTurn (completeTurn turn completion) completion = completeTurn turn completion := by
  unfold completeTurn
  simp only [AgentTurnV2.mk.injEq, true_and]
  refine ⟨?_, ?_, ?_, ?_⟩
  · cases completion.completedAt <;> rfl
  · cases completion.durationMs <;> rfl
  · cases completion.error <;> rfl
  · cases completion.usage <;> rfl

theorem turns_completeLiveStateForActiveTurn (completion : TurnCompletion V) :
    (completeLiveStateForActiveTurn session completion).turns = session.turns := by
  unfold completeLiveStateForActiveTurn
  split <;> rfl

theorem wrote_apply (patch : AgentPatchV2 V) :
    Wrote patch.body (applyAgentPatchV2 cardFor session patch) := by
  obtain ⟨sessionId, timestamp, body⟩ := patch
  cases body with
  | sessionSnapshot snapshot => rfl
  | turnStarted turn => exact self_mem_upsertBy turn session.turns
  | itemStarted turnId item | itemUpdated turnId item =>
    intro turn hturn hid
    obtain ⟨old, _, rfl⟩ := mem_updateBy.mp hturn
    by_cases hold : old.id = turnId
    · rw [if_pos hold]
      exact self_mem_upsertBy item old.items
    · rw [if_neg hold] at hid
      exact absurd hid hold
  | turnCompleted completion =>
    intro turn hturn hid
    obtain ⟨old, _, rfl⟩ := mem_updateBy.mp hturn
    by_cases hold : old.id = completion.turnId
    · rw [if_pos hold]
      exact completeTurn_completeTurn old completion
    · rw [if_neg hold] at hid
      exact absurd hid hold
  | sessionUpdated | liveStateUpdated | itemDelta | error => trivial

theorem mem_applyItemDelta {item : AgentItemV2 V}
    (hitem : item ∈ items) {itemId : JsText} (hne : itemId ≠ item.id) (timestamp : JsText)
    (mode : DeltaMode) (delta : ItemDelta V) :
    item ∈ applyItemDelta cardFor items timestamp itemId mode delta := by
  unfold applyItemDelta
  split
  · rw [mem_updateBy]
    refine ⟨item, hitem, ?_⟩
    rw [if_neg hne.symm]
  · split
    · exact hitem
    · exact mem_append_left _ hitem

theorem wrote_delta {written : PatchBody V} (h : Wrote written session)
    (hdelta : patch.body.isDelta = true) (hother : ¬ Overwrites written patch.body) :
    Wrote written (applyAgentPatchV2 cardFor session patch) := by
  obtain ⟨sessionId, timestamp, body⟩ := patch
  cases body with
  | itemDelta turnId itemId mode delta =>
    cases written with
    | sessionSnapshot snapshot =>
      -- a delta for a turn that the snapshot does not have
      refine Eq.trans (updateBy_eq_self ?_) h
      intro turn hturn hid
      rw [show session.turns = snapshot.turns from h] at hturn
      exact absurd (mem_map.mpr ⟨turn, hturn, hid⟩) hother
    | turnStarted turn =>
      apply mem_updateBy.mpr
      refine ⟨turn, h, ?_⟩
      rw [if_neg fun hid => hother hid.symm]
    | itemStarted turnId' item | itemUpdated turnId' item =>
      intro turn hturn hid
      obtain ⟨old, hold, rfl⟩ := mem_updateBy.mp hturn
      by_cases hturnId : old.id = turnId
      · rw [if_pos hturnId] at hid ⊢
        have hitem := h old hold hid
        exact mem_applyItemDelta hitem (fun hsame => hother ⟨hturnId ▸ hid, hsame⟩) timestamp mode
          delta
      · rw [if_neg hturnId] at hid ⊢
        exact h old hold hid
    | turnCompleted completion =>
      intro turn hturn hid
      obtain ⟨old, hold, rfl⟩ := mem_updateBy.mp hturn
      by_cases hturnId : old.id = turnId
      · rw [if_pos hturnId] at hid ⊢
        have hdone := h old hold hid
        -- completing a turn does not look at its items
        exact congrArg (fun t : AgentTurnV2 V =>
          { t with items := applyItemDelta cardFor old.items timestamp itemId mode delta }) hdone
      · rw [if_neg hturnId] at hid ⊢
        exact h old hold hid
    | sessionUpdated | liveStateUpdated | itemDelta | error => trivial
  | sessionSnapshot | sessionUpdated | liveStateUpdated | turnStarted | itemStarted | itemUpdated
  | turnCompleted | error => cases hdelta

theorem turns_replay (h : UniqueIds session)
    (hwrote : Wrote patch.body session) (hdelta : patch.body.isDelta = false)
    (herror : patch.body.isError = false) :
    (applyAgentPatchV2 cardFor session patch).turns = session.turns := by
  obtain ⟨sessionId, timestamp, body⟩ := patch
  cases body with
  | sessionSnapshot snapshot => exact hwrote.symm
  | sessionUpdated | liveStateUpdated => rfl
  | turnStarted turn => exact upsertBy_eq_self h.turns hwrote
  | itemStarted turnId item | itemUpdated turnId item =>
    apply updateBy_eq_self
    intro turn hturn hid
    have hitems : upsertItem turn.items item = turn.items :=
      upsertBy_eq_self (h.items turn hturn) (hwrote turn hturn hid)
    rw [hitems]
  | turnCompleted completion =>
    refine Eq.trans ?_ (turns_completeLiveStateForActiveTurn completion)
    apply updateBy_eq_self
    rw [turns_completeLiveStateForActiveTurn]
    exact hwrote
  | itemDelta => cases hdelta
  | error => cases herror

/-- **A run of patches** keeps ids unique, if no patch carries a duplicate itself and every error
    is new to its turn.  Applying its last patch other than a delta once more leaves the turns as
    they are, if it is no error and no delta wrote over it since. -/
theorem replay_safe (cardFor : CardFor V) (session : AgentSessionV2 V) (h : UniqueIds session)
    (patches : List (AgentPatchV2 V))
    (hfresh : Guarded (applyAgentPatchV2 cardFor) FreshIds session patches) :
    UniqueIds (exec (applyAgentPatchV2 cardFor) session patches) ∧
      ∀ earlier last deltas, patches = earlier ++ last :: deltas →
        last.body.isDelta = false → last.body.isError = false →
        (∀ delta ∈ deltas, delta.body.isDelta = true ∧ ¬ Overwrites last.body delta.body) →
        (applyAgentPatchV2 cardFor (exec (applyAgentPatchV2 cardFor) session patches) last).turns =
          (exec (applyAgentPatchV2 cardFor) session patches).turns := by
  have hunique : UniqueIds (exec (applyAgentPatchV2 cardFor) session patches) :=
    exec_invariant_of_guarded (I := UniqueIds)
      (fun _ patch hids hnew => uniqueIds_apply hids patch hnew) h hfresh
  refine ⟨hunique, ?_⟩
  intro earlier last deltas hpatches hdelta herror hdeltas
  apply turns_replay hunique ?_ hdelta herror
  rw [hpatches, exec_append]
  -- induction on the deltas since
  have hkeep : ∀ s, Wrote last.body s →
      Wrote last.body (exec (applyAgentPatchV2 cardFor) s deltas) := by
    clear hpatches
    induction deltas with
    | nil => exact fun s hs => hs
    | cons delta deltas ih =>
      intro s hs
      obtain ⟨hisDelta, hother⟩ := hdeltas delta mem_cons_self
      apply ih fun d hd => hdeltas d (mem_cons_of_mem _ hd)
      exact wrote_delta hs hisDelta hother
  exact hkeep _ (wrote_apply last)

def sessionOf (turns : List (AgentTurnV2 V)) (queueLength : V) : AgentSessionV2 V :=
  { id := utf16 "s"
    provider := utf16 "p"
    providerSession := none
    capabilities := fun _ => none
    config := fun _ => none
    live :=
      { status := .idle
        activeTurnId := none
        waitingOn := none
        activeRequestIds := []
        proposedPlanItemId := none
        queueLength := queueLength
        fastModeAvailable := false
        error := none }
    turns := turns
    slashCommands := none }

def runningTurn (id : JsText) : AgentTurnV2 V :=
  { id := id
    providerTurnId := none
    status := .running
    inputMessageId := []
    items := []
    startedAt := []
    completedAt := none
    durationMs := none
    error := none
    usage := none }

/-- The patch of a session `s` with the given contents. -/
def patchOf (body : PatchBody V) : AgentPatchV2 V := ⟨utf16 "s", [], body⟩

def textDelta (text : JsText) : ItemDelta V :=
  { fields := fun field => if field = .text then some text else none
    status := none
    error := none
    exitCode := none
    durationMs := none
    additions := none
    deletions := none }

def completion (turnId : JsText) : TurnCompletion V :=
  { turnId := turnId
    status := .completed
    completedAt := none
    durationMs := none
    usage := none
    error := none }

def streamedMessage : List (AgentPatchV2 Unit) :=
  [patchOf (.turnStarted (runningTurn (utf16 "t"))),
   patchOf (.itemStarted (utf16 "t") (startedMessage (utf16 "i") [] [])),
   patchOf (.itemDelta (utf16 "t") (utf16 "i") .append (textDelta (utf16 "a")))]

theorem guarded_streamedMessage (cardFor : CardFor Unit) :
    Guarded (applyAgentPatchV2 cardFor) FreshIds (sessionOf [] ()) streamedMessage :=
  ⟨nodup_nil, trivial, trivial, trivial⟩

theorem uniqueIds_sessionOf_nil (queueLength : V) : UniqueIds (sessionOf [] queueLength) :=
  ⟨nodup_nil, fun _ hturn => absurd hturn not_mem_nil⟩

theorem replay_safe_completed :
    let final := exec (applyAgentPatchV2 fun _ => none) (sessionOf [] ())
      (streamedMessage ++ [patchOf (.turnCompleted (completion (utf16 "t")))])
    UniqueIds final ∧
      (applyAgentPatchV2 (fun _ => none) final
        (patchOf (.turnCompleted (completion (utf16 "t"))))).turns = final.turns := by
  have hfresh : Guarded (applyAgentPatchV2 fun _ => none) FreshIds (sessionOf [] ())
      (streamedMessage ++ [patchOf (.turnCompleted (completion (utf16 "t")))]) :=
    (guarded_append _ _ _ _ _).mpr ⟨guarded_streamedMessage _, trivial, trivial⟩
  obtain ⟨hunique, hreplay⟩ := replay_safe (fun _ => none) (sessionOf [] ())
    (uniqueIds_sessionOf_nil ()) _ hfresh
  exact ⟨hunique, hreplay streamedMessage _ [] rfl rfl rfl fun _ h => absurd h not_mem_nil⟩

/-- Starting a message once more takes the text back that streamed into it since. -/
theorem started_again_takes_text_back :
    ¬ ∀ (cardFor : CardFor Unit) (session : AgentSessionV2 Unit) (_ : UniqueIds session)
        (patches : List (AgentPatchV2 Unit)),
      Guarded (applyAgentPatchV2 cardFor) FreshIds session patches →
      ∀ earlier last deltas, patches = earlier ++ last :: deltas → last.body.isDelta = false →
        (∀ delta ∈ deltas, delta.body.isDelta = true) →
        (applyAgentPatchV2 cardFor (exec (applyAgentPatchV2 cardFor) session patches) last).turns =
          (exec (applyAgentPatchV2 cardFor) session patches).turns := by
  intro hall
  have hturns := hall (fun _ => none) (sessionOf [] ()) (uniqueIds_sessionOf_nil ())
    streamedMessage (guarded_streamedMessage _) [patchOf (.turnStarted (runningTurn (utf16 "t")))]
    (patchOf (.itemStarted (utf16 "t") (startedMessage (utf16 "i") [] [])))
    [patchOf (.itemDelta (utf16 "t") (utf16 "i") .append (textDelta (utf16 "a")))] rfl rfl
    (by simp [patchOf, PatchBody.isDelta])
  -- the text of the message, before and after
  have htext := congrArg (fun turns : List (AgentTurnV2 Unit) =>
    turns.flatMap fun turn => turn.items.map fun item => item.text? .text) hturns
  exact absurd htext (by decide)

end RelayIde.AgentSession
