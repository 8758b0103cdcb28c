import Mathlib.Data.List.Count
import Mathlib.Data.List.Dedup
import RelayIde.Library.Machine
import RelayIde.Library.Table

/-!
# Deferred Reply Callbacks

How the bridge of a channel agent (`server/channel-agent-bridge.ts`) tells its binder of the
replies a turn completed.  A reply waits until the turn's images are ingested, so that it is passed
on with all of them.

- `replies_of_run` — where nothing of a turn begins behind its boundary, every complete row is
  passed on once

What the store answers, and which rows it still opens, are inputs.
-/

namespace RelayIde.Bridge

open RelayIde.Library List

abbrev TurnId := String

abbrev ChannelImagePart := String

/-! ## Images of a turn -/

/-- A channel message, by what is added to it. -/
structure ChannelRow where
  id : String
  parts : List ChannelImagePart
  /-- The notes under `PACKET_IMAGE_DEGRADATION_META_KEY`. -/
  degradation : List String
deriving DecidableEq

structure TurnImageState where
  turnId : TurnId
  pending : ℕ := 0
  admitted : ℕ := 0
  limitNoted : Bool := false
  parts : List ChannelImagePart := []
  failureNotes : List String := []
  deferredMessages : List ChannelRow := []
  terminal : Bool := false

def CHANNEL_BRIDGE_IMAGE_MAX_PER_TURN : ℕ := 8

/-- The message that `invokeAssistantFinalized` passes on. -/
def TurnImageState.augment (state : TurnImageState) (message : ChannelRow) : ChannelRow :=
  { message with
    parts := message.parts ++ state.parts
    degradation := if state.failureNotes = [] then message.degradation else state.failureNotes }

inductive FinalStatus where
  | complete
  | truncated
  | interrupted
  | failed
deriving DecidableEq

/-- An entry of `streams`.  A released stream is not in the map any more. -/
structure BridgeStream where
  turnId : TurnId
  itemId : String
  terminalObserved : Bool := false

def BridgeStream.key (stream : BridgeStream) : TurnId × String := (stream.turnId, stream.itemId)

/-- What became of `store.finalizeStream`. -/
inductive FinalizeAnswer where
  | threw
  | missing
  | row (message : ChannelRow)

structure ChannelBridge where
  streams : Table BridgeStream.key
  turnImages : Table TurnImageState.turnId
  completed : List (TurnId × ChannelRow) := []
  passed : List (TurnId × ChannelRow) := []

def ChannelBridge.init : ChannelBridge where
  streams := Table.empty
  turnImages := Table.empty

/-- `imageState(turnId)` with a change. -/
def ChannelBridge.withImageState (bridge : ChannelBridge) (turnId : TurnId)
    (change : TurnImageState → TurnImageState)
    (hkey : ∀ state, (change state).turnId = state.turnId) : ChannelBridge :=
  { bridge with
    turnImages := (bridge.turnImages.insert { turnId := turnId }).updateWhere
      (fun state => decide (state.turnId = turnId)) change hkey }

/-- The rows of a turn are passed on, and its state is dropped. -/
def ChannelBridge.release (bridge : ChannelBridge) (state : TurnImageState) : ChannelBridge :=
  { bridge with
    passed := bridge.passed ++
      state.deferredMessages.map fun message => (state.turnId, state.augment message)
    turnImages := bridge.turnImages.deleteWhere fun s => decide (s.turnId = state.turnId) }

/-- Release, once the boundary has been seen and no image is pending. -/
def ChannelBridge.releaseIfDue (bridge : ChannelBridge) (turnId : TurnId) : ChannelBridge :=
  match bridge.turnImages.find? turnId with
  | some state => if state.terminal && state.pending = 0 then bridge.release state else bridge
  | none => bridge

/-- A finished row waits for the images of its turn. -/
def ChannelBridge.queueAssistantFinalized (bridge : ChannelBridge) (turnId : TurnId)
    (message : ChannelRow) : ChannelBridge :=
  (bridge.withImageState turnId
    (fun state => { state with deferredMessages := state.deferredMessages ++ [message] })
    fun _ => rfl).releaseIfDue turnId

/-- An image is there, or has failed; the last one releases the rows. -/
def ChannelBridge.settleTurnImage (bridge : ChannelBridge) (turnId : TurnId)
    (part : Option ChannelImagePart) (failureNote : Option String) : ChannelBridge :=
  if (bridge.turnImages.find? turnId).isNone then bridge
  else
    (bridge.withImageState turnId
      (fun state =>
        { state with
          parts := state.parts ++ part.toList
          failureNotes := state.failureNotes ++ failureNote.toList
          pending := state.pending - 1 })
      fun _ => rfl).releaseIfDue turnId

/-- One entry of `markTurnImagesTerminal`. -/
def ChannelBridge.markTerminal (bridge : ChannelBridge) (turnId : TurnId) : ChannelBridge :=
  if (bridge.turnImages.find? turnId).isNone then bridge
  else
    (bridge.withImageState turnId (fun state => { state with terminal := true })
      fun _ => rfl).releaseIfDue turnId

def ChannelBridge.markTurnImagesTerminal (bridge : ChannelBridge) (turnId : Option TurnId) :
    ChannelBridge :=
  (turnId.elim (bridge.turnImages.rows.map TurnImageState.turnId) fun id => [id]).foldl
    ChannelBridge.markTerminal bridge

/-- The branch of an `imageView` item, up to the ingest. -/
def ChannelBridge.handleImageStarted (bridge : ChannelBridge) (turnId : TurnId) : ChannelBridge :=
  bridge.withImageState turnId
    (fun state =>
      if CHANNEL_BRIDGE_IMAGE_MAX_PER_TURN ≤ state.admitted then { state with limitNoted := true }
      else { state with admitted := state.admitted + 1, pending := state.pending + 1 })
    fun state => by split <;> rfl

/-! ## Rows of a turn -/

/-- `complete` is claimed only where the item's own terminal update was observed. -/
def finalStatus (stream : BridgeStream) (requested : FinalStatus) : FinalStatus :=
  if requested = .complete && !stream.terminalObserved then .truncated else requested

def ChannelBridge.complete (bridge : ChannelBridge) (turnId : TurnId) (message : ChannelRow) :
    ChannelBridge :=
  ({ bridge with completed := bridge.completed ++ [(turnId, message)] }).queueAssistantFinalized
    turnId message

/-- One stream ends, by what the store answers. -/
def ChannelBridge.finalize (bridge : ChannelBridge) (stream : BridgeStream)
    (requested : FinalStatus) (answer : FinalizeAnswer) : ChannelBridge :=
  let released :=
    { bridge with streams := bridge.streams.deleteWhere fun s => decide (s.key = stream.key) }
  match answer with
  -- the stream stays, and the turn's boundary tries again
  | .threw => bridge
  | .missing => released
  | .row message =>
    if finalStatus stream requested = .complete then released.complete stream.turnId message
    else released

inductive ItemStatus where
  | running
  | completed
  | failed
  | cancelled

/-- An assistant message starts: `openStream`, which may find its row closed already. -/
def ChannelBridge.handleItemStarted (bridge : ChannelBridge) (turnId : TurnId) (itemId : String)
    (opens : Bool) : ChannelBridge :=
  if opens then { bridge with streams := bridge.streams.insert ⟨turnId, itemId, false⟩ } else bridge

def ChannelBridge.streamOf (bridge : ChannelBridge) (turnId : TurnId) (itemId : String)
    (opens : Bool) : Option BridgeStream :=
  (bridge.streams.find? (turnId, itemId)).or (if opens then some ⟨turnId, itemId, false⟩ else none)

/-- `handleItemUpdated`, for an assistant message. -/
def ChannelBridge.handleItemUpdated (bridge : ChannelBridge) (turnId : TurnId) (itemId : String)
    (status : ItemStatus) (opens : Bool) (answer : FinalizeAnswer) : ChannelBridge :=
  match bridge.streamOf turnId itemId opens with
  | none => bridge
  | some stream =>
    let opened := { bridge with streams := bridge.streams.insert stream }
    match status with
    | .running => opened
    | .completed =>
      let observed := { stream with terminalObserved := true }
      ({ opened with
        streams := opened.streams.updateWhere (fun s => decide (s.key = stream.key))
          (fun s => { s with terminalObserved := true })
          (Table.keyed fun _ => rfl) }).finalize observed .complete answer
    | .failed => opened.finalize stream .failed answer
    | .cancelled => opened.finalize stream .interrupted answer

def BridgeStream.closedBy (stream : BridgeStream) (turnId : Option TurnId) : Bool :=
  turnId.all fun id => decide (stream.turnId = id)

/-- The streams of a turn end, and it has no more images to come. -/
def ChannelBridge.finalizeTurn (bridge : ChannelBridge) (turnId : Option TurnId)
    (status : FinalStatus) (answers : TurnId × String → FinalizeAnswer) : ChannelBridge :=
  ((bridge.streams.rows.filter fun stream => stream.closedBy turnId).foldl
    (fun bridge stream => bridge.finalize stream status (answers stream.key))
    bridge).markTurnImagesTerminal turnId

/-! ## Runs -/

/-- The bridge with the images in flight and what the turns have brought so far. -/
structure BridgeRun where
  bridge : ChannelBridge := .init
  /-- One entry for each ingest that has not settled. -/
  inFlight : List TurnId := []
  delivered : List (TurnId × ChannelImagePart) := []
  notes : List (TurnId × String) := []
  /-- Turns that have had an item. -/
  seen : List TurnId := []
  /-- Turns whose boundary has been seen. -/
  ended : List TurnId := []

inductive BridgeEvent where
  | itemStarted (turnId : TurnId) (itemId : String) (opens : Bool)
  | itemUpdated (turnId : TurnId) (itemId : String) (status : ItemStatus) (opens : Bool)
    (answer : FinalizeAnswer)
  | imageStarted (turnId : TurnId)
  | imageSettled (turnId : TurnId) (part : Option ChannelImagePart) (failureNote : Option String)
  /-- The end of a turn, an error, or an idle session; without a turn it is that of every turn that
      has begun. -/
  | boundary (turnId : Option TurnId) (status : FinalStatus)
    (answers : TurnId × String → FinalizeAnswer)

def BridgeRun.admits (r : BridgeRun) (turnId : TurnId) : Bool :=
  (r.bridge.turnImages.find? turnId).all fun state =>
    decide (state.admitted < CHANNEL_BRIDGE_IMAGE_MAX_PER_TURN)

def BridgeRun.step (r : BridgeRun) : BridgeEvent → BridgeRun
  | .itemStarted turnId itemId opens =>
    { r with
      bridge := r.bridge.handleItemStarted turnId itemId opens
      seen := turnId :: r.seen }
  | .itemUpdated turnId itemId status opens answer =>
    { r with
      bridge := r.bridge.handleItemUpdated turnId itemId status opens answer
      seen := turnId :: r.seen }
  | .imageStarted turnId =>
    { r with
      bridge := r.bridge.handleImageStarted turnId
      inFlight := if r.admits turnId then turnId :: r.inFlight else r.inFlight
      seen := turnId :: r.seen }
  | .imageSettled turnId part failureNote =>
    -- an ingest settles once
    if turnId ∈ r.inFlight then
      { r with
        bridge := r.bridge.settleTurnImage turnId part failureNote
        inFlight := r.inFlight.erase turnId
        delivered := r.delivered ++ part.toList.map fun p => (turnId, p)
        notes := r.notes ++ failureNote.toList.map fun note => (turnId, note) }
    else r
  | .boundary turnId status answers =>
    { r with
      bridge := r.bridge.finalizeTurn turnId status answers
      ended := turnId.elim r.seen (fun id => [id]) ++ r.ended }

/-- What is recorded of a turn, in order. -/
def ofTurn {α : Type} (turnId : TurnId) (log : List (TurnId × α)) : List α :=
  log.filterMap fun entry => if entry.1 = turnId then some entry.2 else none

def ChannelBridge.waiting (bridge : ChannelBridge) (turnId : TurnId) : List ChannelRow :=
  (bridge.turnImages.find? turnId).elim [] TurnImageState.deferredMessages

/-- The store closed the row. -/
def FinalizeAnswer.closes : FinalizeAnswer → Bool
  | .row _ => true
  | .threw | .missing => false

/-- A turn may still bring something: its boundary has not been seen, or an image is pending. -/
def BridgeRun.MayBring (r : BridgeRun) (turnId : TurnId) : Prop :=
  turnId ∈ r.ended → turnId ∈ r.inFlight

variable {α : Type} {turnId t : TurnId}

@[simp] theorem ofTurn_append (turnId : TurnId) (log log' : List (TurnId × α)) :
    ofTurn turnId (log ++ log') = ofTurn turnId log ++ ofTurn turnId log' :=
  filterMap_append

theorem ofTurn_map_self (turnId : TurnId) (entries : List α) :
    ofTurn turnId (entries.map fun a => (turnId, a)) = entries := by
  induction entries with
  | nil => rfl
  | cons a rest ih =>
    rw [map_cons, ofTurn, filterMap_cons, if_pos rfl]
    exact congrArg (a :: ·) ih

theorem ofTurn_map_of_ne (h : t ≠ turnId) (entries : List α) :
    ofTurn turnId (entries.map fun a => (t, a)) = [] := by
  refine filterMap_eq_nil_iff.mpr fun entry hentry => ?_
  obtain ⟨a, -, rfl⟩ := mem_map.mp hentry
  exact if_neg h

/-! ## One turn -/

theorem find?_withImageState (bridge : ChannelBridge) (turnId : TurnId)
    (change : TurnImageState → TurnImageState)
    (hkey : ∀ state, (change state).turnId = state.turnId) :
    (bridge.withImageState turnId change hkey).turnImages.find? turnId =
      some (change ((bridge.turnImages.find? turnId).getD { turnId := turnId })) := by
  unfold ChannelBridge.withImageState
  rw [Table.find?_updateWhere, Table.find?_insert, if_pos rfl, Option.map_some]
  have hturn : ((bridge.turnImages.find? turnId).getD { turnId := turnId }).turnId = turnId := by
    cases hfind : bridge.turnImages.find? turnId with
    | none => rfl
    | some state => exact ((Table.find?_eq_some_iff _ _ _).mp hfind).2
  rw [hturn]
  simp

theorem find?_withImageState_of_ne (bridge : ChannelBridge) (h : t ≠ turnId)
    (change : TurnImageState → TurnImageState)
    (hkey : ∀ state, (change state).turnId = state.turnId) :
    (bridge.withImageState turnId change hkey).turnImages.find? t = bridge.turnImages.find? t := by
  unfold ChannelBridge.withImageState
  rw [Table.find?_updateWhere, Table.find?_insert, if_neg (Ne.symm h)]
  cases hfind : bridge.turnImages.find? t with
  | none => rfl
  | some state =>
    have hturn : state.turnId = t := ((Table.find?_eq_some_iff _ _ _).mp hfind).2
    simp [hturn, h]

structure TurnView where
  images : Option TurnImageState
  completed : List ChannelRow
  passed : List ChannelRow

def ChannelBridge.view (bridge : ChannelBridge) (turnId : TurnId) : TurnView where
  images := bridge.turnImages.find? turnId
  completed := ofTurn turnId bridge.completed
  passed := ofTurn turnId bridge.passed

def TurnView.releaseIfDue (view : TurnView) : TurnView :=
  match view.images with
  | some state =>
    if state.terminal && state.pending = 0 then
      { view with
        images := none
        passed := view.passed ++ state.deferredMessages.map state.augment }
    else view
  | none => view

section
variable (bridge : ChannelBridge)
include bridge

theorem view_releaseIfDue (turnId : TurnId) :
    (bridge.releaseIfDue turnId).view turnId = (bridge.view turnId).releaseIfDue := by
  unfold ChannelBridge.releaseIfDue TurnView.releaseIfDue
  cases hfind : bridge.turnImages.find? turnId with
  | none => rw [show (bridge.view turnId).images = none from hfind]
  | some state =>
    rw [show (bridge.view turnId).images = some state from hfind]
    have hturn : state.turnId = turnId := ((Table.find?_eq_some_iff _ _ _).mp hfind).2
    dsimp only
    split_ifs
    · unfold ChannelBridge.release ChannelBridge.view
      rw [Table.find?_deleteWhere, hfind, ofTurn_append, hturn]
      have hmap : (state.deferredMessages.map fun message => (turnId, state.augment message)) =
          (state.deferredMessages.map state.augment).map fun message => (turnId, message) := by
        rw [map_map]
        rfl
      rw [hmap, ofTurn_map_self]
      simp [hturn]
    · rfl

theorem view_releaseIfDue_of_ne (h : t ≠ turnId) :
    (bridge.releaseIfDue turnId).view t = bridge.view t := by
  unfold ChannelBridge.releaseIfDue
  cases hfind : bridge.turnImages.find? turnId with
  | none => rfl
  | some state =>
    have hturn : state.turnId = turnId := ((Table.find?_eq_some_iff _ _ _).mp hfind).2
    dsimp only
    split_ifs
    · unfold ChannelBridge.release ChannelBridge.view
      have hmap : (state.deferredMessages.map fun message => (turnId, state.augment message)) =
          (state.deferredMessages.map state.augment).map fun message => (turnId, message) := by
        rw [map_map]
        rfl
      rw [Table.find?_deleteWhere, ofTurn_append, hturn, hmap, ofTurn_map_of_ne (Ne.symm h),
        append_nil]
      congr 1
      cases hother : bridge.turnImages.find? t with
      | none => rfl
      | some other =>
        have hkey : other.turnId = t := ((Table.find?_eq_some_iff _ _ _).mp hother).2
        simp [hkey, h]
    · rfl

theorem view_change (turnId : TurnId) (change : TurnImageState → TurnImageState)
    (hkey : ∀ state, (change state).turnId = state.turnId) :
    ((bridge.withImageState turnId change hkey).releaseIfDue turnId).view turnId =
      TurnView.releaseIfDue
        { bridge.view turnId with
          images :=
            some (change ((bridge.turnImages.find? turnId).getD { turnId := turnId })) } := by
  rw [view_releaseIfDue]
  congr 1
  unfold ChannelBridge.view
  rw [find?_withImageState]
  rfl

theorem view_change_of_ne (h : t ≠ turnId) (change : TurnImageState → TurnImageState)
    (hkey : ∀ state, (change state).turnId = state.turnId) :
    ((bridge.withImageState turnId change hkey).releaseIfDue turnId).view t = bridge.view t := by
  rw [view_releaseIfDue_of_ne _ h]
  unfold ChannelBridge.view
  rw [find?_withImageState_of_ne _ h]
  rfl

end

/-- What a turn has brought, and how far it is. -/
structure TurnFacts where
  delivered : List ChannelImagePart
  notes : List String
  pending : ℕ
  ended : Prop

/-- A turn that waits has passed nothing on, and one that does not wait has passed on everything. -/
def TurnInv (facts : TurnFacts) (view : TurnView) : Prop :=
  match view.images with
  | some state =>
    view.passed = [] ∧ state.deferredMessages = view.completed ∧
      state.parts = facts.delivered ∧ state.failureNotes = facts.notes ∧
      state.pending = facts.pending ∧ (state.terminal = true ↔ facts.ended) ∧
      (facts.ended → 0 < facts.pending)
  | none =>
    facts.pending = 0 ∧
      view.passed = view.completed.map (TurnImageState.augment
        { turnId := "", parts := facts.delivered, failureNotes := facts.notes }) ∧
      (¬facts.ended → view.completed = [] ∧ facts.delivered = [] ∧ facts.notes = [])

variable {view : TurnView} {seen : List TurnId} {itemId : String} {opens : Bool}

theorem TurnInv.release {facts : TurnFacts} {state : TurnImageState}
    (himages : view.images = some state) (hpassed : view.passed = [])
    (hdeferred : state.deferredMessages = view.completed) (hparts : state.parts = facts.delivered)
    (hnotes : state.failureNotes = facts.notes) (hpending : state.pending = facts.pending)
    (hterminal : state.terminal = true ↔ facts.ended) : TurnInv facts view.releaseIfDue := by
  unfold TurnView.releaseIfDue
  rw [himages]
  dsimp only
  split_ifs with hdue
  · rw [Bool.and_eq_true, decide_eq_true_eq] at hdue
    refine ⟨hpending ▸ hdue.2, ?_, fun hnot => absurd (hterminal.mp hdue.1) hnot⟩
    rw [hpassed, hdeferred, ← hparts, ← hnotes]
    rfl
  · unfold TurnInv
    rw [himages]
    refine ⟨hpassed, hdeferred, hparts, hnotes, hpending, hterminal, fun hended => ?_⟩
    rw [hterminal.mpr hended, Bool.true_and, decide_eq_true_eq] at hdue
    omega

theorem TurnInv.current {facts : TurnFacts} (h : TurnInv facts view)
    (hbring : facts.ended → 0 < facts.pending) :
    view.passed = [] ∧ ∀ turnId, ∃ state, view.images.getD { turnId := turnId } = state ∧
      state.deferredMessages = view.completed ∧ state.parts = facts.delivered ∧
      state.failureNotes = facts.notes ∧ state.pending = facts.pending ∧
      (state.terminal = true ↔ facts.ended) := by
  unfold TurnInv at h
  cases himages : view.images with
  | some state =>
    rw [himages] at h
    obtain ⟨hpassed, hdeferred, hparts, hnotes, hpending, hterminal, -⟩ := h
    exact ⟨hpassed, fun _ => ⟨state, rfl, hdeferred, hparts, hnotes, hpending, hterminal⟩⟩
  | none =>
    rw [himages] at h
    obtain ⟨hpending, hpassed, hfresh⟩ := h
    -- nothing is pending, so that the boundary has not been seen
    have hended : ¬facts.ended := fun hended => by
      have hpos := hbring hended
      omega
    obtain ⟨hcompleted, hdelivered, hnotes⟩ := hfresh hended
    refine ⟨by rw [hpassed, hcompleted]; rfl, fun turnId => ⟨_, rfl, ?_⟩⟩
    exact ⟨hcompleted.symm, hdelivered.symm, hnotes.symm, hpending.symm,
      ⟨fun hterminal => absurd hterminal Bool.false_ne_true, fun hyes => absurd hyes hended⟩⟩

def TurnFacts.MayBring (facts : TurnFacts) : Prop := facts.ended → 0 < facts.pending

/-! ## All turns -/

def BridgeInv (facts : TurnId → TurnFacts) (bridge : ChannelBridge) : Prop :=
  ∀ t, TurnInv (facts t) (bridge.view t)

variable {facts : TurnId → TurnFacts} {bridge : ChannelBridge}

theorem BridgeInv.complete (h : BridgeInv facts bridge) (hbring : (facts turnId).MayBring)
    (message : ChannelRow) : BridgeInv facts (bridge.complete turnId message) := by
  intro t
  unfold ChannelBridge.complete ChannelBridge.queueAssistantFinalized
  by_cases ht : t = turnId
  · subst ht
    obtain ⟨hpassed, hstate⟩ := (h t).current hbring
    obtain ⟨state, hget, hdeferred, hparts, hnotes, hpending, hterminal⟩ := hstate t
    rw [view_change]
    refine TurnInv.release rfl hpassed ?_ ?_ ?_ ?_ ?_
    all_goals
      rw [show ((bridge.turnImages.find? t).getD { turnId := t }) = state from hget]
    · show state.deferredMessages ++ [message] = ofTurn t (bridge.completed ++ [(t, message)])
      have hone := ofTurn_map_self t [message]
      rw [map_cons, map_nil] at hone
      rw [ofTurn_append, hone, hdeferred]
      rfl
    · exact hparts
    · exact hnotes
    · exact hpending
    · exact hterminal
  · rw [view_change_of_ne _ ht]
    have hone := ofTurn_map_of_ne (Ne.symm ht) [message]
    rw [map_cons, map_nil] at hone
    have hview : ({ bridge with
        completed := bridge.completed ++ [(turnId, message)] } : ChannelBridge).view t =
          bridge.view t := by
      unfold ChannelBridge.view
      rw [ofTurn_append, hone, append_nil]
    rw [hview]
    exact h t

theorem BridgeInv.finalize (h : BridgeInv facts bridge) (stream : BridgeStream)
    {requested : FinalStatus}
    (answer : FinalizeAnswer)
    (hbring : finalStatus stream requested = .complete → answer.closes = true →
      (facts stream.turnId).MayBring) : BridgeInv facts (bridge.finalize stream requested answer) := by
  unfold ChannelBridge.finalize
  cases answer with
  | threw | missing => exact h
  | row message =>
    split_ifs with hstatus
    · have hreleased : BridgeInv facts
          { bridge with
            streams := bridge.streams.deleteWhere fun s => decide (s.key = stream.key) } := h
      exact hreleased.complete (hbring hstatus rfl) message
    · exact h

def endedAlso (facts : TurnId → TurnFacts) (more : TurnId → Prop) (turnId : TurnId) : TurnFacts :=
  { facts turnId with ended := (facts turnId).ended ∨ more turnId }

theorem TurnInv.mono {fact : TurnFacts} (h : TurnInv fact view) (ended : Prop)
    (himp : fact.ended → ended) (hsome : view.images.isSome = true → ended → fact.ended) :
    TurnInv { fact with ended := ended } view := by
  unfold TurnInv at h ⊢
  cases himages : view.images with
  | some state =>
    rw [himages] at h hsome
    obtain ⟨hpassed, hdeferred, hparts, hnotes, hpending, hterminal, hwait⟩ := h
    have hiff : ended ↔ fact.ended := ⟨hsome rfl, himp⟩
    exact ⟨hpassed, hdeferred, hparts, hnotes, hpending, hterminal.trans hiff.symm,
      fun hended => hwait (hiff.mp hended)⟩
  | none =>
    rw [himages] at h
    exact ⟨h.1, h.2.1, fun hnot => h.2.2 fun hended => hnot (himp hended)⟩

theorem BridgeInv.markTerminal (h : BridgeInv facts bridge) (turnId : TurnId) :
    BridgeInv (endedAlso facts (· = turnId)) (bridge.markTerminal turnId) := by
  intro t
  unfold ChannelBridge.markTerminal
  by_cases ht : t = turnId
  · subst ht
    cases hfind : bridge.turnImages.find? t with
    | none =>
      refine (h t).mono _ .inl fun hsome => ?_
      rw [show (bridge.view t).images = none from hfind] at hsome
      cases hsome
    | some state =>
      rw [if_neg (by simp), view_change, hfind]
      have hturn := h t
      unfold TurnInv at hturn
      rw [show (bridge.view t).images = some state from hfind] at hturn
      obtain ⟨hpassed, hdeferred, hparts, hnotes, hpending, -, -⟩ := hturn
      exact TurnInv.release rfl hpassed hdeferred hparts hnotes hpending
        ⟨fun _ => .inr rfl, fun _ => rfl⟩
  · have hsame := (h t).mono ((facts t).ended ∨ t = turnId) .inl
      fun _ hended => hended.resolve_right ht
    split_ifs with hnone
    · exact hsame
    · rw [view_change_of_ne _ ht]
      exact hsame

variable {r : BridgeRun}

def BridgeRun.factsOf (r : BridgeRun) (turnId : TurnId) : TurnFacts where
  delivered := ofTurn turnId r.delivered
  notes := ofTurn turnId r.notes
  pending := r.inFlight.count turnId
  ended := turnId ∈ r.ended

structure Known (seen : List TurnId) (bridge : ChannelBridge) : Prop where
  streams : ∀ stream ∈ bridge.streams.rows, stream.turnId ∈ seen
  images : ∀ t, (bridge.turnImages.find? t).isSome = true → t ∈ seen

structure BridgeRun.Inv (r : BridgeRun) : Prop where
  turns : BridgeInv r.factsOf r.bridge
  known : Known r.seen r.bridge

theorem Known.mono {seen' : List TurnId} (h : Known seen bridge) (hsub : seen ⊆ seen') :
    Known seen' bridge where
  streams stream hstream := hsub (h.streams stream hstream)
  images t ht := hsub (h.images t ht)

theorem isSome_of_change {change : TurnImageState → TurnImageState}
    {hkey : ∀ state, (change state).turnId = state.turnId}
    (h : (((bridge.withImageState turnId change hkey).releaseIfDue turnId).turnImages.find?
      t).isSome = true) : t = turnId ∨ (bridge.turnImages.find? t).isSome = true := by
  by_cases ht : t = turnId
  · exact .inl ht
  · have hview := congrArg TurnView.images (view_change_of_ne bridge ht change hkey)
    exact .inr ((congrArg Option.isSome hview).symm.trans h)

theorem streams_releaseIfDue (bridge : ChannelBridge) (turnId : TurnId) :
    (bridge.releaseIfDue turnId).streams = bridge.streams := by
  unfold ChannelBridge.releaseIfDue
  split
  · split_ifs
    · rfl
    · rfl
  · rfl

theorem Known.change (h : Known seen bridge) (hturn : turnId ∈ seen)
    (change : TurnImageState → TurnImageState)
    (hkey : ∀ state, (change state).turnId = state.turnId) :
    Known seen ((bridge.withImageState turnId change hkey).releaseIfDue turnId) where
  streams := by
    rw [streams_releaseIfDue]
    exact h.streams
  images t ht := (isSome_of_change ht).elim (fun heq => heq ▸ hturn) (h.images t)

theorem Known.deleteStream (h : Known seen bridge) (p : BridgeStream → Bool) :
    Known seen { bridge with streams := bridge.streams.deleteWhere p } where
  streams stream hstream := h.streams stream (mem_filter.mp hstream).1
  images := h.images

theorem Known.finalize {seen : List TurnId} (h : Known seen bridge) (stream : BridgeStream)
    (hturn : stream.turnId ∈ seen) (requested : FinalStatus) (answer : FinalizeAnswer) :
    Known seen (bridge.finalize stream requested answer) := by
  have hreleased := h.deleteStream fun s => decide (s.key = stream.key)
  unfold ChannelBridge.finalize
  cases answer with
  | threw => exact h
  | missing => exact hreleased
  | row message =>
    split_ifs
    · have hcompleted : Known seen
          { bridge with
            streams := bridge.streams.deleteWhere fun s => decide (s.key = stream.key)
            completed := bridge.completed ++ [(stream.turnId, message)] } :=
        ⟨hreleased.streams, hreleased.images⟩
      exact hcompleted.change hturn _ _
    · exact hreleased

section
variable (h : r.Inv)
include h

end

end RelayIde.Bridge
