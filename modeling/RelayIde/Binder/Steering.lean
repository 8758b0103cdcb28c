import Mathlib.Data.List.Nodup
import Mathlib.Tactic.Common
import RelayIde.Library.Machine

/-!
# The Steering Lane

Posts to an agent in the middle of a turn go to its runtime at once, one at a time
(`server/channel-agent-binder.ts`).  The runtime answers a call through a promise: the handler of
the answer and the `finally` handler behind it are two callbacks, and others may run in between.

- `steering_serialized` — one call at a time, as long as no post enters the lane between the two
  handlers of a rejected call

The handler of a rejection frees the lane, and so does the `finally` handler behind it, whoever has
taken the lane since.
-/

namespace RelayIde.Binder.Steering

open RelayIde.Library List

/-! ## A binding -/

/-- A message of the channel, by its number there. -/
abbrev Trigger := ℕ

abbrev TurnId := ℕ

structure QueuedTurn where
  trigger : Trigger
  reEnqueued : Bool
  /-- It carries a `callbackEdgeRequest`. -/
  delegates : Bool

/-- How a provider answers a steer: `AgentSteerRejectedError` is a rejection, any other error
    leaves open whether the message was taken. -/
inductive Outcome where
  | accepted
  | rejected
  | ambiguous
  deriving DecidableEq

inductive CallPhase where
  | outstanding
  /-- Its handler ran, the one behind `finally` did not. -/
  | handled (outcome : Outcome)
  | done (outcome : Outcome)
  deriving DecidableEq

/-- A call of `adapter.steerMessage`. -/
structure SteerCall where
  trigger : Trigger
  /-- The turn that was active when it was made. -/
  turnId : TurnId
  phase : CallPhase

structure LiveBinding where
  activeTurnId : Option TurnId
  /-- `adapter.capabilities.steer`, and there is a `steerMessage`. -/
  steers : Bool
  queue : List QueuedTurn
  steeringQueue : List Trigger
  steeringInFlight : Bool
  steeringAcceptedCount : ℕ
  /-- All calls, in the order they were made. -/
  calls : List SteerCall
  /-- How many posts were routed to the binding. -/
  posted : ℕ
  /-- The posts that entered the lane, in their order. -/
  laned : List Trigger
  /-- Whatever was put into the queue of turns. -/
  enqueued : List Trigger
  /-- Whatever left that queue. -/
  dispatched : List Trigger

def LiveBinding.start (steers : Bool) : LiveBinding where
  activeTurnId := none
  steers := steers
  queue := []
  steeringQueue := []
  steeringInFlight := false
  steeringAcceptedCount := 0
  calls := []
  posted := 0
  laned := []
  enqueued := []
  dispatched := []

def queueCap : ℕ := 8

def occupiedTurnSlots (b : LiveBinding) : ℕ :=
  b.queue.length + b.steeringQueue.length + b.steeringAcceptedCount +
    if b.steeringInFlight then 1 else 0

/-! ## Callbacks -/

section Step

-- the context of a post cannot be built; `coalescesIntoOneTurn`
variable (packetFails : Trigger → Bool) (coalesces : Trigger → Trigger → Bool)

/-- The first entry of the lane whose packet can be built, and those behind it. -/
def nextSteer : List Trigger → Option Trigger × List Trigger
  | [] => (none, [])
  | trigger :: rest =>
    -- the others end in a system row
    if packetFails trigger then nextSteer rest else (some trigger, rest)

def drainSteering (b : LiveBinding) : LiveBinding :=
  match b.activeTurnId with
  | none => b
  | some turnId =>
    if b.steeringInFlight || !b.steers then b
    else
      match nextSteer packetFails b.steeringQueue with
      | (none, rest) => { b with steeringQueue := rest }
      | (some trigger, rest) =>
        { b with
          steeringQueue := rest
          steeringInFlight := true
          calls := b.calls ++ [⟨trigger, turnId, .outstanding⟩] }

def enqueueSteering (b : LiveBinding) (trigger : Trigger) : LiveBinding :=
  drainSteering packetFails
    { b with
      steeringQueue := b.steeringQueue ++ [trigger]
      laned := b.laned ++ [trigger] }

/-- The post goes to the live turn. -/
def steersInto (b : LiveBinding) (interrupt reEnqueued delegates : Bool) : Bool :=
  !reEnqueued && !delegates && !interrupt && b.activeTurnId.isSome && b.steers

/-- `enqueueTurn`, without the `pump` behind it. -/
def enqueueTurn (b : LiveBinding) (trigger : Trigger) (interrupt reEnqueued delegates : Bool) :
    LiveBinding :=
  if steersInto b interrupt reEnqueued delegates then
    if queueCap ≤ occupiedTurnSlots b then b else enqueueSteering packetFails b trigger
  else
    let entry : QueuedTurn := ⟨trigger, reEnqueued, delegates⟩
    if queueCap ≤ occupiedTurnSlots b then
      match b.queue.getLast? with
      | none => b
      | some tail =>
        if !tail.reEnqueued && !reEnqueued && !tail.delegates && !delegates &&
            coalesces tail.trigger trigger then
          { b with queue := b.queue.dropLast ++ [entry], enqueued := b.enqueued ++ [trigger] }
        else b
    else { b with queue := b.queue ++ [entry], enqueued := b.enqueued ++ [trigger] }

def setPhase (b : LiveBinding) (i : ℕ) (call : SteerCall) (phase : CallPhase) : LiveBinding :=
  { b with calls := b.calls.set i { call with phase := phase } }

def settle (b : LiveBinding) (i : ℕ) (call : SteerCall) : Outcome → LiveBinding
  | .accepted =>
    { setPhase b i call (.handled .accepted) with
      steeringAcceptedCount := b.steeringAcceptedCount +
        if b.activeTurnId = some call.turnId then 1 else 0 }
  | .ambiguous => setPhase b i call (.handled .ambiguous)
  | .rejected =>
    enqueueTurn packetFails coalesces
      { setPhase b i call (.handled .rejected) with steeringInFlight := false }
      call.trigger false true false

/-- The handler behind `finally`. -/
def finish (b : LiveBinding) (i : ℕ) (call : SteerCall) (outcome : Outcome) : LiveBinding :=
  drainSteering packetFails { setPhase b i call (.done outcome) with steeringInFlight := false }

/-- `finishTurn`: what is left in the lane becomes turns of its own. -/
def finishTurn (b : LiveBinding) : LiveBinding :=
  if b.activeTurnId.isNone then b
  else
    { b with
      activeTurnId := none
      queue := b.queue ++ b.steeringQueue.map fun trigger => ⟨trigger, false, false⟩
      enqueued := b.enqueued ++ b.steeringQueue
      steeringQueue := []
      steeringAcceptedCount := 0 }

/-- The promise of a call is settled, and its handler runs. -/
def settleAt (b : LiveBinding) (i : ℕ) (outcome : Outcome) : LiveBinding :=
  match b.calls[i]? with
  | none => b
  | some call =>
    if call.phase = .outstanding then settle packetFails coalesces b i call outcome else b

def finishAt (b : LiveBinding) (i : ℕ) : LiveBinding :=
  match b.calls[i]? with
  | none => b
  | some call =>
    match call.phase with
    | .handled outcome => finish packetFails b i call outcome
    | _ => b

inductive Event where
  /-- A new post is routed to the binding. -/
  | post (interrupt delegates : Bool)
  /-- The call with this index. -/
  | settle (i : ℕ) (outcome : Outcome)
  | finish (i : ℕ)
  | finishTurn
  /-- A failed send gives the turn up. -/
  | sendFailure
  /-- `pump`: the queue hands out its front, and maybe a turn starts. -/
  | pump (take : ℕ) (started : Option TurnId)
  /-- A trigger that was handed out comes back. -/
  | reEnqueue (trigger : Trigger)

def step (b : LiveBinding) : Event → LiveBinding
  | .post interrupt delegates =>
    enqueueTurn packetFails coalesces { b with posted := b.posted + 1 } b.posted interrupt false
      delegates
  | .settle i outcome => settleAt packetFails coalesces b i outcome
  | .finish i => finishAt packetFails b i
  | .finishTurn => finishTurn b
  | .sendFailure => { b with activeTurnId := none }
  | .pump take started =>
    if b.activeTurnId.isSome then b
    else
      { b with
        queue := b.queue.drop take
        dispatched := b.dispatched ++ (b.queue.take take).map (·.trigger)
        activeTurnId := started }
  | .reEnqueue trigger =>
    if trigger ∈ b.dispatched then
      enqueueTurn packetFails coalesces b trigger false true false
    else b

end Step

/-! ## Order and identity -/

def CallPhase.isRejected : CallPhase → Bool
  | .handled .rejected | .done .rejected => true
  | _ => false

structure InOrder (b : LiveBinding) : Prop where
  lane : (b.calls.map (·.trigger) ++ b.steeringQueue).Sublist b.laned
  nodup : b.laned.Nodup
  laned_lt : ∀ trigger ∈ b.laned, trigger < b.posted
  enqueued_lt : ∀ trigger ∈ b.enqueued, trigger < b.posted
  queued : ∀ entry ∈ b.queue, entry.trigger ∈ b.enqueued
  dispatched : ∀ trigger ∈ b.dispatched, trigger ∈ b.enqueued
  waiting : ∀ trigger ∈ b.steeringQueue, trigger ∉ b.enqueued
  delivered : ∀ call ∈ b.calls, call.phase.isRejected = false → call.trigger ∉ b.enqueued

variable {packetFails : Trigger → Bool} {coalesces : Trigger → Trigger → Bool}
variable {b : LiveBinding}

theorem InOrder.nodup_lane (h : InOrder b) : (b.calls.map (·.trigger) ++ b.steeringQueue).Nodup :=
  h.nodup.sublist h.lane

theorem inOrder_start (steers : Bool) : InOrder (LiveBinding.start steers) where
  lane := List.Sublist.refl _
  nodup := nodup_nil
  laned_lt := fun _ h => absurd h not_mem_nil
  enqueued_lt := fun _ h => absurd h not_mem_nil
  queued := fun _ h => absurd h not_mem_nil
  dispatched := fun _ h => absurd h not_mem_nil
  waiting := fun _ h => absurd h not_mem_nil
  delivered := fun _ h => absurd h not_mem_nil

theorem nextSteer_sublist (packetFails : Trigger → Bool) (lane : List Trigger) :
    ((nextSteer packetFails lane).1.toList ++ (nextSteer packetFails lane).2).Sublist lane := by
  induction lane with
  | nil => exact List.Sublist.refl _
  | cons trigger lane ih =>
    unfold nextSteer
    split
    · exact ih.cons trigger
    · exact List.Sublist.refl _

/-- What a drain does: nothing, or it drops entries whose packets fail, or it makes a call too. -/
theorem drainSteering_cases (packetFails : Trigger → Bool) (b : LiveBinding) :
    drainSteering packetFails b = b ∨
      (∃ rest, rest.Sublist b.steeringQueue ∧
        drainSteering packetFails b = { b with steeringQueue := rest }) ∨
      ∃ trigger turnId rest, (trigger :: rest).Sublist b.steeringQueue ∧
        b.steeringInFlight = false ∧
        drainSteering packetFails b =
          { b with
            steeringQueue := rest
            steeringInFlight := true
            calls := b.calls ++ [⟨trigger, turnId, .outstanding⟩] } := by
  have hnext := nextSteer_sublist packetFails b.steeringQueue
  unfold drainSteering
  cases hactive : b.activeTurnId with
  | none => exact .inl rfl
  | some turnId =>
    simp only
    split
    · exact .inl rfl
    · next hfree =>
      rw [Bool.or_eq_true, not_or, Bool.not_eq_true] at hfree
      cases hsteer : nextSteer packetFails b.steeringQueue with
      | mk first rest =>
        rw [hsteer] at hnext
        cases first with
        | none => exact .inr (.inl ⟨rest, hnext, rfl⟩)
        | some trigger => exact .inr (.inr ⟨trigger, turnId, rest, hnext, hfree.1, rfl⟩)

theorem inOrder_drainSteering (h : InOrder b) : InOrder (drainSteering packetFails b) := by
  rcases drainSteering_cases packetFails b with heq | ⟨rest, hsub, heq⟩ |
    ⟨trigger, turnId, rest, hsub, -, heq⟩
  · rw [heq]
    exact h
  · rw [heq]
    exact { h with
      lane := ((List.Sublist.refl _).append hsub).trans h.lane
      waiting := fun t ht => h.waiting t (hsub.subset ht) }
  · rw [heq]
    refine { h with
      lane := ?_
      waiting := fun t ht => h.waiting t (hsub.subset (mem_cons_of_mem _ ht))
      delivered := ?_ }
    · have hlane := ((List.Sublist.refl (b.calls.map (·.trigger))).append hsub).trans h.lane
      rw [map_append, append_assoc]
      exact hlane
    · intro call hcall hkept
      rcases mem_append.mp hcall with hcall | hcall
      · exact h.delivered call hcall hkept
      · rw [mem_singleton.mp hcall]
        exact h.waiting trigger (hsub.subset mem_cons_self)

theorem inOrder_posted (h : InOrder b) : InOrder { b with posted := b.posted + 1 } :=
  { h with
    laned_lt := fun t ht => Nat.lt_succ_of_lt (h.laned_lt t ht)
    enqueued_lt := fun t ht => Nat.lt_succ_of_lt (h.enqueued_lt t ht) }

variable {trigger : Trigger} {i : ℕ} {call : SteerCall} {p : CallPhase → Bool}

theorem inOrder_enqueueSteering (h : InOrder b) (hlt : trigger < b.posted)
    (hlane : trigger ∉ b.laned) (hqueue : trigger ∉ b.enqueued) :
    InOrder (enqueueSteering packetFails b trigger) := by
  apply inOrder_drainSteering
  refine { h with lane := ?_, nodup := ?_, laned_lt := ?_, waiting := ?_ }
  · rw [← append_assoc]
    exact h.lane.append (List.Sublist.refl _)
  · apply nodup_append.mpr
    refine ⟨h.nodup, nodup_singleton _, ?_⟩
    intro a ha c hc heq
    rw [mem_singleton.mp hc] at heq
    exact hlane (heq ▸ ha)
  · intro t ht
    rcases mem_append.mp ht with ht | ht
    · exact h.laned_lt t ht
    · rw [mem_singleton.mp ht]
      exact hlt
  · intro t ht
    rcases mem_append.mp ht with ht | ht
    · exact h.waiting t ht
    · rw [mem_singleton.mp ht]
      exact hqueue

/-- A trigger may be queued that neither waits in the lane nor was taken by the provider. -/
theorem inOrder_enqueued (h : InOrder b) (hlt : trigger < b.posted)
    (hlane : trigger ∉ b.steeringQueue)
    (hcalls : ∀ call ∈ b.calls, call.phase.isRejected = false → call.trigger ≠ trigger)
    {queue : List QueuedTurn}
    (hentries : ∀ entry ∈ queue, entry ∈ b.queue ∨ entry.trigger = trigger) :
    InOrder { b with queue := queue, enqueued := b.enqueued ++ [trigger] } := by
  refine { h with enqueued_lt := ?_, queued := ?_, dispatched := ?_, waiting := ?_,
                  delivered := ?_ }
  · intro t ht
    rcases mem_append.mp ht with ht | ht
    · exact h.enqueued_lt t ht
    · rw [mem_singleton.mp ht]
      exact hlt
  · intro entry hentry
    rcases hentries entry hentry with hold | hnew
    · exact mem_append_left _ (h.queued entry hold)
    · exact mem_append_right _ (mem_singleton.mpr hnew)
  · exact fun t ht => mem_append_left _ (h.dispatched t ht)
  · intro t ht hmem
    rcases mem_append.mp hmem with hmem | hmem
    · exact h.waiting t ht hmem
    · exact hlane (mem_singleton.mp hmem ▸ ht)
  · intro call hcall hkept hmem
    rcases mem_append.mp hmem with hmem | hmem
    · exact h.delivered call hcall hkept hmem
    · exact hcalls call hcall hkept (mem_singleton.mp hmem)

theorem inOrder_enqueueTurn (h : InOrder b) (hlt : trigger < b.posted)
    {interrupt reEnqueued delegates : Bool}
    (hsteer : steersInto b interrupt reEnqueued delegates = true →
      trigger ∉ b.laned ∧ trigger ∉ b.enqueued)
    (hlane : trigger ∉ b.steeringQueue)
    (hcalls : ∀ call ∈ b.calls, call.phase.isRejected = false → call.trigger ≠ trigger) :
    InOrder (enqueueTurn packetFails coalesces b trigger interrupt reEnqueued delegates) := by
  unfold enqueueTurn
  split
  · next hinto =>
    split
    · exact h
    · exact inOrder_enqueueSteering h hlt (hsteer hinto).1 (hsteer hinto).2
  · split
    · split
      · exact h
      · split
        · apply inOrder_enqueued h hlt hlane hcalls
          intro entry hentry
          rcases mem_append.mp hentry with hentry | hentry
          · exact .inl (dropLast_subset _ hentry)
          · exact .inr (congrArg QueuedTurn.trigger (mem_singleton.mp hentry))
        · exact h
    · apply inOrder_enqueued h hlt hlane hcalls
      intro entry hentry
      rcases mem_append.mp hentry with hentry | hentry
      · exact .inl hentry
      · exact .inr (congrArg QueuedTurn.trigger (mem_singleton.mp hentry))

theorem map_trigger_setPhase (hcall : b.calls[i]? = some call) (phase : CallPhase) :
    (setPhase b i call phase).calls.map (·.trigger) = b.calls.map (·.trigger) := by
  obtain ⟨hi, hget⟩ := List.getElem?_eq_some_iff.mp hcall
  show (b.calls.set i { call with phase := phase }).map (·.trigger) = _
  rw [map_set]
  apply ext_getElem?
  intro j
  rw [getElem?_set]
  split
  · next heq =>
    subst heq
    rw [length_map, if_pos hi, getElem?_map, hcall]
    rfl
  · rfl

theorem inOrder_setPhase (h : InOrder b) (hcall : b.calls[i]? = some call) (phase : CallPhase)
    (hkeep : phase.isRejected = false → call.phase.isRejected = false) :
    InOrder (setPhase b i call phase) := by
  refine { h with lane := ?_, delivered := ?_ }
  · rw [map_trigger_setPhase hcall]
    exact h.lane
  · intro other hother hkept
    rcases mem_or_eq_of_mem_set hother with hother | rfl
    · exact h.delivered other hother hkept
    · exact h.delivered call (mem_of_getElem? hcall) (hkeep hkept)

theorem inOrder_reject (h : InOrder b) (hcall : b.calls[i]? = some call) :
    InOrder (settle packetFails coalesces b i call .rejected) := by
  have hset : InOrder { setPhase b i call (.handled .rejected) with steeringInFlight := false } := by
    have hphase := inOrder_setPhase h hcall (.handled .rejected) fun hkept => by cases hkept
    exact { hphase with }
  have hnodup := h.nodup_lane
  have hmem : call.trigger ∈ b.calls.map (·.trigger) :=
    mem_map_of_mem (mem_of_getElem? hcall)
  have hlt : call.trigger < b.posted :=
    h.laned_lt _ (h.lane.subset (mem_append_left _ hmem))
  apply inOrder_enqueueTurn hset hlt
  · intro hinto
    cases hinto
  · exact fun hwaiting => (nodup_append.mp hnodup).2.2 _ hmem _ hwaiting rfl
  · intro other hother hkept heq
    -- no other call is about it
    have hsame : (setPhase b i call (.handled .rejected)).calls.map (·.trigger) = _ :=
      map_trigger_setPhase hcall _
    have hunique : ((setPhase b i call (.handled .rejected)).calls.map (·.trigger)).Nodup := by
      rw [hsame]
      exact (nodup_append.mp hnodup).1
    obtain ⟨hi, -⟩ := List.getElem?_eq_some_iff.mp hcall
    have hself : { call with phase := .handled .rejected } ∈
        (setPhase b i call (.handled .rejected)).calls := List.mem_set hi _
    have hsame := inj_on_of_nodup_map hunique hother hself heq
    rw [hsame] at hkept
    cases hkept

theorem inOrder_finishTurn (h : InOrder b) : InOrder (finishTurn b) := by
  unfold finishTurn
  split
  · exact h
  · have hnodup := nodup_append.mp h.nodup_lane
    refine { h with lane := ?_, enqueued_lt := ?_, queued := ?_, dispatched := ?_, waiting := ?_,
                    delivered := ?_ }
    · exact ((List.Sublist.refl _).append (nil_sublist _)).trans h.lane
    · intro t ht
      rcases mem_append.mp ht with ht | ht
      · exact h.enqueued_lt t ht
      · exact h.laned_lt t (h.lane.subset (mem_append_right _ ht))
    · intro entry hentry
      rcases mem_append.mp hentry with hentry | hentry
      · exact mem_append_left _ (h.queued entry hentry)
      · obtain ⟨t, ht, rfl⟩ := mem_map.mp hentry
        exact mem_append_right _ ht
    · exact fun t ht => mem_append_left _ (h.dispatched t ht)
    · exact fun t ht => absurd ht not_mem_nil
    · intro call hcall hkept hmem
      rcases mem_append.mp hmem with hmem | hmem
      · exact h.delivered call hcall hkept hmem
      · exact hnodup.2.2 _ (mem_map_of_mem hcall) _ hmem rfl

theorem settleAt_cases (packetFails : Trigger → Bool) (coalesces : Trigger → Trigger → Bool)
    (b : LiveBinding) (i : ℕ) (outcome : Outcome) :
    settleAt packetFails coalesces b i outcome = b ∨
      ∃ call, b.calls[i]? = some call ∧ call.phase = .outstanding ∧
        settleAt packetFails coalesces b i outcome =
          settle packetFails coalesces b i call outcome := by
  unfold settleAt
  cases hcall : b.calls[i]? with
  | none => exact .inl rfl
  | some call =>
    simp only
    split
    · next hphase => exact .inr ⟨call, rfl, hphase, rfl⟩
    · exact .inl rfl

theorem finishAt_cases (packetFails : Trigger → Bool) (b : LiveBinding) (i : ℕ) :
    finishAt packetFails b i = b ∨
      ∃ call outcome, b.calls[i]? = some call ∧ call.phase = .handled outcome ∧
        finishAt packetFails b i = finish packetFails b i call outcome := by
  unfold finishAt
  cases hcall : b.calls[i]? with
  | none => exact .inl rfl
  | some call =>
    simp only
    split
    · next outcome hphase => exact .inr ⟨call, outcome, rfl, hphase, rfl⟩
    · exact .inl rfl

/-- **Every callback** keeps the order of the lane and the identity of what was handed over. -/
theorem inOrder_step (h : InOrder b) (event : Event) :
    InOrder (step packetFails coalesces b event) := by
  cases event with
  | post interrupt delegates =>
    have hposted := inOrder_posted h
    apply inOrder_enqueueTurn hposted (Nat.lt_succ_self _)
    · intro _
      exact ⟨fun hmem => Nat.lt_irrefl _ (h.laned_lt _ hmem),
        fun hmem => Nat.lt_irrefl _ (h.enqueued_lt _ hmem)⟩
    · intro hmem
      exact Nat.lt_irrefl _ (h.laned_lt _ (h.lane.subset (mem_append_right _ hmem)))
    · intro call hcall _ heq
      have hlt := h.laned_lt _ (h.lane.subset (mem_append_left _ (mem_map_of_mem hcall)))
      exact Nat.lt_irrefl _ (heq ▸ hlt)
  | settle i outcome =>
    show InOrder (settleAt packetFails coalesces b i outcome)
    rcases settleAt_cases packetFails coalesces b i outcome with heq | ⟨call, hcall, hphase, heq⟩
    · rw [heq]
      exact h
    · rw [heq]
      have hfresh : call.phase.isRejected = false := by rw [hphase]; rfl
      cases outcome with
      | accepted =>
        have hset := inOrder_setPhase h hcall (.handled .accepted) fun _ => hfresh
        exact ⟨hset.lane, hset.nodup, hset.laned_lt, hset.enqueued_lt, hset.queued,
          hset.dispatched, hset.waiting, hset.delivered⟩
      | ambiguous => exact inOrder_setPhase h hcall (.handled .ambiguous) fun _ => hfresh
      | rejected => exact inOrder_reject h hcall
  | finish i =>
    show InOrder (finishAt packetFails b i)
    rcases finishAt_cases packetFails b i with heq | ⟨call, outcome, hcall, hphase, heq⟩
    · rw [heq]
      exact h
    · rw [heq]
      apply inOrder_drainSteering
      have hset := inOrder_setPhase h hcall (.done outcome) fun hkept => by
        rw [hphase]
        cases outcome with
        | accepted | ambiguous => rfl
        | rejected => cases hkept
      exact { hset with }
  | finishTurn => exact inOrder_finishTurn h
  | sendFailure => exact { h with }
  | pump take started =>
    simp only [step]
    split
    · exact h
    · refine { h with queued := ?_, dispatched := ?_ }
      · exact fun entry hentry => h.queued entry (mem_of_mem_drop hentry)
      · intro t ht
        rcases mem_append.mp ht with ht | ht
        · exact h.dispatched t ht
        · obtain ⟨entry, hentry, rfl⟩ := mem_map.mp ht
          exact h.queued entry (mem_of_mem_take hentry)
  | reEnqueue trigger =>
    simp only [step]
    split
    · next hback =>
      have henqueued := h.dispatched trigger hback
      apply inOrder_enqueueTurn h (h.enqueued_lt _ henqueued)
      · intro hinto
        cases hinto
      · exact fun hwaiting => h.waiting trigger hwaiting henqueued
      · rintro call hcall hkept rfl
        exact h.delivered call hcall hkept henqueued
    · exact h

/-! ## One call at a time -/

def CallPhase.isOutstanding : CallPhase → Bool
  | .outstanding => true
  | _ => false

def CallPhase.isPending : CallPhase → Bool
  | .done _ => false
  | _ => true

/-- The rejection was handled, the `finally` handler is still to come. -/
def CallPhase.isUnwinding : CallPhase → Bool
  | .handled .rejected => true
  | _ => false

def LiveBinding.count (b : LiveBinding) (p : CallPhase → Bool) : ℕ :=
  b.calls.countP fun call => p call.phase

theorem count_le_add (b : LiveBinding) {q r : CallPhase → Bool} (h : ∀ phase, p phase = true →
    q phase = true ∨ r phase = true) : b.count p ≤ b.count q + b.count r := by
  unfold LiveBinding.count
  induction b.calls with
  | nil => exact Nat.zero_le _
  | cons call calls ih =>
    rw [countP_cons, countP_cons, countP_cons]
    have hcall := h call.phase
    by_cases hp : p call.phase = true
    · rw [if_pos hp]
      rcases hcall hp with hq | hr
      · rw [if_pos hq]
        omega
      · rw [if_pos hr]
        omega
    · rw [if_neg hp]
      omega

theorem count_le_of_imp {q : CallPhase → Bool} (h : ∀ phase, p phase = true → q phase = true) :
    b.count p ≤ b.count q :=
  countP_mono_left fun call _ => h call.phase

section
variable (hcall : b.calls[i]? = some call)
include hcall

theorem count_setPhase (phase : CallPhase) (p : CallPhase → Bool) :
    (setPhase b i call phase).count p =
      b.count p - (if p call.phase = true then 1 else 0) + if p phase = true then 1 else 0 := by
  obtain ⟨hi, rfl⟩ := List.getElem?_eq_some_iff.mp hcall
  exact countP_set hi

theorem count_pos (hp : p call.phase = true) : 0 < b.count p :=
  countP_pos_iff.mpr ⟨call, mem_of_getElem? hcall, hp⟩

theorem count_setPhase_of_stays {phase : CallPhase} (hold : p call.phase = true)
    (hnew : p phase = true) : (setPhase b i call phase).count p = b.count p := by
  have hpos := count_pos hcall hold
  rw [count_setPhase hcall, if_pos hold, if_pos hnew]
  omega

theorem count_setPhase_of_leaves (phase : CallPhase) (hold : p call.phase = true)
    (hnew : p phase = false) : (setPhase b i call phase).count p = b.count p - 1 := by
  rw [count_setPhase hcall, if_pos hold, hnew, if_neg Bool.false_ne_true, Nat.add_zero]

end

/-- A call that keeps the lane busy. -/
def CallPhase.isBlocking (phase : CallPhase) : Bool :=
  phase.isPending && !phase.isUnwinding

theorem blocking_le_pending (b : LiveBinding) :
    b.count CallPhase.isBlocking ≤ b.count CallPhase.isPending :=
  count_le_of_imp fun _ hphase => (Bool.and_eq_true _ _ ▸ hphase).1

/-- At most one call is under way, and a free lane means that it was rejected. -/
structure Serialized (b : LiveBinding) : Prop where
  pending : b.count CallPhase.isPending ≤ 1
  free : b.steeringInFlight = false →
    b.count CallPhase.isBlocking = 0

theorem Serialized.congr {b' : LiveBinding} (h : Serialized b) (hcalls : b'.calls = b.calls)
    (hfree : b'.steeringInFlight = b.steeringInFlight) : Serialized b' := by
  constructor
  · unfold LiveBinding.count
    rw [hcalls]
    exact h.pending
  · unfold LiveBinding.count
    rw [hcalls, hfree]
    exact h.free

theorem serialized_drainSteering (h : Serialized b)
    (hidle : b.steeringInFlight = false → b.count CallPhase.isPending = 0) :
    Serialized (drainSteering packetFails b) := by
  rcases drainSteering_cases packetFails b with heq | ⟨rest, -, heq⟩ |
    ⟨trigger, turnId, rest, -, hfree, heq⟩
  · rw [heq]
    exact h
  · rw [heq]
    exact h.congr rfl rfl
  · rw [heq]
    constructor
    · have hnone := hidle hfree
      unfold LiveBinding.count at hnone ⊢
      simp only [countP_append, hnone]
      exact Nat.le_refl 1
    · intro hbusy
      cases hbusy

theorem serialized_enqueueSteering (h : Serialized b)
    (hidle : b.steeringInFlight = false → b.count CallPhase.isPending = 0) (trigger : Trigger) :
    Serialized (enqueueSteering packetFails b trigger) := by
  apply serialized_drainSteering
  · exact h.congr rfl rfl
  · exact hidle

theorem enqueueTurn_queue (packetFails : Trigger → Bool) (coalesces : Trigger → Trigger → Bool)
    (trigger : Trigger) {interrupt reEnqueued delegates : Bool}
    (h : steersInto b interrupt reEnqueued delegates = false) :
    (enqueueTurn packetFails coalesces b trigger interrupt reEnqueued delegates).calls = b.calls ∧
      (enqueueTurn packetFails coalesces b trigger interrupt reEnqueued
        delegates).steeringInFlight = b.steeringInFlight := by
  unfold enqueueTurn
  rw [h, if_neg Bool.false_ne_true]
  split
  · split
    · exact ⟨rfl, rfl⟩
    · split <;> exact ⟨rfl, rfl⟩
  · exact ⟨rfl, rfl⟩

/-- No post enters the lane between the two handlers of a rejected call; one that the cap turns
    away does not enter it. -/
def LaneClear (b : LiveBinding) : Event → Prop
  | .post interrupt delegates =>
    steersInto b interrupt false delegates = true → occupiedTurnSlots b < queueCap →
      b.count CallPhase.isUnwinding = 0
  | _ => True

instance (b : LiveBinding) (event : Event) : Decidable (LaneClear b event) :=
  match event with
  | .post interrupt delegates =>
    inferInstanceAs (Decidable (steersInto b interrupt false delegates = true →
      occupiedTurnSlots b < queueCap → b.count CallPhase.isUnwinding = 0))
  | .settle _ _ | .finish _ | .finishTurn | .sendFailure | .pump _ _ | .reEnqueue _ =>
    isTrue trivial

/-- **One callback** keeps calls apart, if no post slips between the handlers of a rejection. -/
theorem serialized_step (h : Serialized b) {event : Event} (hclear : LaneClear b event) :
    Serialized (step packetFails coalesces b event) := by
  cases event with
  | post interrupt delegates =>
    have hposted : Serialized { b with posted := b.posted + 1 } := h.congr rfl rfl
    cases hinto : steersInto { b with posted := b.posted + 1 } interrupt false delegates with
    | false =>
      obtain ⟨hcalls, hfree⟩ := enqueueTurn_queue packetFails coalesces b.posted hinto
      exact hposted.congr hcalls hfree
    | true =>
      simp only [step, enqueueTurn, hinto, if_true]
      split
      · exact hposted
      · rename_i hroom
        refine serialized_enqueueSteering hposted (fun hfree => ?_) _
        -- what is under way in a free lane was rejected, and there is no such call
        have hnone := hclear hinto (Nat.lt_of_not_le hroom)
        have hblocked := h.free hfree
        have hsum := count_le_add b (p := CallPhase.isPending)
          (q := CallPhase.isBlocking) (r := CallPhase.isUnwinding)
          fun phase hpending => by
            cases hphase : phase.isUnwinding with
            | true => exact .inr rfl
            | false =>
              left
              unfold CallPhase.isBlocking
              rw [hpending, hphase]
              rfl
        rw [hblocked, hnone] at hsum
        exact Nat.le_zero.mp hsum
  | settle i outcome =>
    show Serialized (settleAt packetFails coalesces b i outcome)
    rcases settleAt_cases packetFails coalesces b i outcome with heq | ⟨call, hcall, hphase, heq⟩
    · rw [heq]
      exact h
    · rw [heq]
      have hblocking : CallPhase.isBlocking call.phase = true := by rw [hphase]; rfl
      have hpending : CallPhase.isPending call.phase = true := by rw [hphase]; rfl
      -- the lane was not free, and an answer other than a rejection leaves it so
      have hbusy : b.steeringInFlight = true := by
        cases hfree : b.steeringInFlight with
        | true => rfl
        | false =>
          have hpos := count_pos hcall hblocking
          rw [h.free hfree] at hpos
          exact absurd hpos (Nat.lt_irrefl 0)
      have hsettled (outcome : Outcome) :
          (setPhase b i call (.handled outcome)).count CallPhase.isPending ≤ 1 := by
        rw [count_setPhase_of_stays hcall hpending rfl]
        exact h.pending
      cases outcome with
      | accepted =>
        refine ⟨hsettled .accepted, fun hfree => ?_⟩
        cases hbusy.symm.trans hfree
      | ambiguous =>
        refine ⟨hsettled .ambiguous, fun hfree => ?_⟩
        cases hbusy.symm.trans hfree
      | rejected =>
        have hfreed : Serialized
            { setPhase b i call (.handled .rejected) with steeringInFlight := false } := by
          refine ⟨hsettled .rejected, fun _ => ?_⟩
          have hone := Nat.le_trans (blocking_le_pending b) h.pending
          have hless := count_setPhase_of_leaves hcall (.handled .rejected) hblocking rfl
          exact hless.trans (Nat.sub_eq_zero_of_le hone)
        obtain ⟨hcalls, hfree⟩ := enqueueTurn_queue packetFails coalesces call.trigger
          (show steersInto { setPhase b i call (.handled .rejected) with
            steeringInFlight := false } false true false = false from rfl)
        exact hfreed.congr hcalls hfree
  | finish i =>
    show Serialized (finishAt packetFails b i)
    rcases finishAt_cases packetFails b i with heq | ⟨call, outcome, hcall, hphase, heq⟩
    · rw [heq]
      exact h
    · rw [heq]
      have hpending : CallPhase.isPending call.phase = true := by rw [hphase]; rfl
      have hnone : (setPhase b i call (.done outcome)).count CallPhase.isPending = 0 := by
        rw [count_setPhase_of_leaves hcall _ hpending rfl]
        exact Nat.sub_eq_zero_of_le h.pending
      have hblocked := blocking_le_pending (setPhase b i call (.done outcome))
      rw [hnone] at hblocked
      apply serialized_drainSteering
      · exact ⟨Nat.le_trans (Nat.le_of_eq hnone) (Nat.zero_le 1), fun _ => Nat.le_zero.mp hblocked⟩
      · exact fun _ => hnone
  | finishTurn =>
    simp only [step, finishTurn]
    split
    · exact h
    · exact h.congr rfl rfl
  | sendFailure => exact h.congr rfl rfl
  | pump take started =>
    simp only [step]
    split
    · exact h
    · exact h.congr rfl rfl
  | reEnqueue trigger =>
    simp only [step]
    split
    · obtain ⟨hcalls, hfree⟩ := enqueueTurn_queue packetFails coalesces trigger
        (show steersInto b false true false = false from rfl)
      exact h.congr hcalls hfree
    · exact h

theorem serialized_start (steers : Bool) : Serialized (LiveBinding.start steers) :=
  ⟨Nat.zero_le 1, fun _ => rfl⟩

/-- **A run of callbacks** hands the posts over one at a time, in the order of the lane, each once,
    and queues none that was accepted or left open, if no post enters the lane between the two
    handlers of a rejected call. -/
theorem steering_serialized (packetFails : Trigger → Bool) (coalesces : Trigger → Trigger → Bool)
    (steers : Bool) (events : List Event)
    (hclear : Guarded (step packetFails coalesces) LaneClear (LiveBinding.start steers) events) :
    let b := exec (step packetFails coalesces) (LiveBinding.start steers) events
    b.count CallPhase.isOutstanding ≤ 1 ∧
      (b.calls.map (·.trigger)).Sublist b.laned ∧
      (b.calls.map (·.trigger)).Nodup ∧
      ∀ call ∈ b.calls, ∀ outcome,
        call.phase = .handled outcome ∨ call.phase = .done outcome → outcome ≠ .rejected →
        call.trigger ∉ b.enqueued := by
  intro b
  have horder : InOrder b :=
    exec_invariant (I := InOrder) (fun _ event hb => inOrder_step hb event) events
      (inOrder_start steers)
  have hserial : Serialized b :=
    exec_invariant_of_guarded (I := Serialized) (fun _ _ hb hevent => serialized_step hb hevent)
      (serialized_start steers) hclear
  refine ⟨?_, ?_, ?_, ?_⟩
  · have hle : b.count CallPhase.isOutstanding ≤ b.count CallPhase.isPending :=
      count_le_of_imp fun phase hphase => by
        cases phase with
        | outstanding => rfl
        | handled | done => cases hphase
    exact Nat.le_trans hle hserial.pending
  · exact (sublist_append_left _ _).trans horder.lane
  · exact (nodup_append.mp horder.nodup_lane).1
  · intro call hcall outcome hphase hkept
    apply horder.delivered call hcall
    rcases hphase with hphase | hphase
    · rw [hphase]
      cases outcome with
      | rejected => exact absurd rfl hkept
      | accepted | ambiguous => rfl
    · rw [hphase]
      cases outcome with
      | rejected => exact absurd rfl hkept
      | accepted | ambiguous => rfl

/-- A turn starts, and a post for it is rejected. -/
def rejectedSteer : List Event :=
  [.post false false, .pump 1 (some 0), .post false false, .settle 0 .rejected]

theorem steering_serialized_of_rejectedSteer :
    let b := exec (step (fun _ => false) fun _ _ => false) (LiveBinding.start true)
      (rejectedSteer ++ [.finish 0, .post false false])
    b.count CallPhase.isOutstanding ≤ 1 := by
  have hclear : Guarded (step (fun _ => false) fun _ _ => false) LaneClear
      (LiveBinding.start true) (rejectedSteer ++ [.finish 0, .post false false]) := by
    decide
  have hrun := steering_serialized (fun _ => false) (fun _ _ => false) true _ hclear
  exact hrun.1

/-- Two calls are outstanding when posts come before and behind the last handler of a rejection. -/
theorem two_steers_outstanding :
    ¬ ∀ (packetFails : Trigger → Bool) (coalesces : Trigger → Trigger → Bool) (steers : Bool)
        (events : List Event),
      (exec (step packetFails coalesces) (LiveBinding.start steers) events).count
        CallPhase.isOutstanding ≤ 1 := by
  intro hall
  have hone := hall (fun _ => false) (fun _ _ => false) true
    (rejectedSteer ++ [.post false false, .finish 0, .post false false])
  exact absurd hone (by decide)

end RelayIde.Binder.Steering
