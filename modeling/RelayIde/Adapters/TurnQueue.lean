import Mathlib.Data.List.Induction
import Mathlib.Data.List.Nodup
import Mathlib.Data.List.Perm.Basic
import RelayIde.Library.Machine

/-!
# The Turn Queue

Models `createTurnQueue` of `server/protocol-adapters/adapter-utils.ts`: the send queue of an
adapter, whose `startTurn` may call back into the queue while it runs and may settle later.
One operation of a run is what the code does between two points at which anything else can
happen.  The `canDrain` answer a drain reads comes with the operation.

- `recorded_step` — what an operation adds to the record of the run
- `turnQueue_truthful` — every entry settles once, truthfully and in order
-/

namespace RelayIde.Adapters

open RelayIde.Library List

/-! ## The queue -/

/-- An entry; its ticket tells it from others with the same input. -/
structure Entry (T : Type) where
  ticket : ℕ
  input : T

/-- What happens to the line of waiting entries. -/
inductive LineEvent (T : Type) where
  | append (entry : Entry T)
  | prepend (entry : Entry T)
  | start (entry : Entry T)
  | clear

structure TurnQueue (T : Type) where
  entries : List (Entry T) := []
  /-- Entries whose `startTurn` is on the stack, innermost first. -/
  running : List (Entry T) := []
  /-- Entries whose `startTurn` returned a promise that has not settled. -/
  pending : List (Entry T) := []
  /-- Every entry made by `enqueue` or `requeueFront`. -/
  issued : List (Entry T) := []
  /-- The calls of `startTurn`, and what came of them. -/
  started : List (Entry T) := []
  succeeded : List (Entry T) := []
  failed : List (Entry T) := []
  /-- Entries that were waiting at a `rejectAll`. -/
  abandoned : List (Entry T) := []
  /-- The calls of `entry.resolve` and `entry.reject`. -/
  resolved : List (Entry T) := []
  rejected : List (Entry T) := []
  line : List (LineEvent T) := []

inductive Op (T : Type) where
  | enqueue (input : T)
  | requeueFront (input : T)
  | drain (canDrain : Bool)
  | rejectAll
  /-- The innermost `startTurn` returns without a promise. -/
  | returned
  /-- It returns a promise. -/
  | promised
  /-- It throws. -/
  | threw (canDrain : Bool)
  /-- The promise of the `i`-th pending start resolves, with an empty stack. -/
  | accepted (i : ℕ)
  /-- It rejects. -/
  | refused (i : ℕ) (canDrain : Bool)

variable {T : Type}

namespace TurnQueue

/-- A turn waits behind the others. -/
def enqueue (q : TurnQueue T) (input : T) : TurnQueue T :=
  let entry := ⟨q.issued.length, input⟩
  { q with
    entries := q.entries ++ [entry]
    issued := q.issued ++ [entry]
    line := q.line ++ [.append entry] }

def requeueFront (q : TurnQueue T) (input : T) : TurnQueue T :=
  let entry := ⟨q.issued.length, input⟩
  { q with
    entries := entry :: q.entries
    issued := q.issued ++ [entry]
    line := q.line ++ [.prepend entry] }

/-- `drain`, up to the call of `startTurn`. -/
def drain (q : TurnQueue T) (canDrain : Bool) : TurnQueue T :=
  match canDrain, q.entries with
  | true, entry :: rest =>
    { q with
      entries := rest
      running := entry :: q.running
      started := q.started ++ [entry]
      line := q.line ++ [.start entry] }
  | _, _ => q

def rejectAll (q : TurnQueue T) : TurnQueue T :=
  { q with
    entries := []
    abandoned := q.abandoned ++ q.entries
    rejected := q.rejected ++ q.entries
    line := q.line ++ [.clear] }

def onStarted (q : TurnQueue T) (entry : Entry T) : TurnQueue T :=
  { q with succeeded := q.succeeded ++ [entry], resolved := q.resolved ++ [entry] }

/-- A start that failed lets the next turn start. -/
def onRejected (q : TurnQueue T) (entry : Entry T) (canDrain : Bool) : TurnQueue T :=
  drain { q with failed := q.failed ++ [entry], rejected := q.rejected ++ [entry] } canDrain

/-- An operation that the stack or the pending promises do not allow changes nothing. -/
def step (q : TurnQueue T) : Op T → TurnQueue T
  | .enqueue input => q.enqueue input
  | .requeueFront input => q.requeueFront input
  | .drain canDrain => q.drain canDrain
  | .rejectAll => q.rejectAll
  | .returned => match q.running with
    | entry :: rest => onStarted { q with running := rest } entry
    | [] => q
  | .promised => match q.running with
    | entry :: rest => { q with running := rest, pending := entry :: q.pending }
    | [] => q
  | .threw canDrain => match q.running with
    | entry :: rest => onRejected { q with running := rest } entry canDrain
    | [] => q
  | .accepted i => match q.running, q.pending[i]? with
    | [], some entry => onStarted { q with pending := q.pending.eraseIdx i } entry
    | _, _ => q
  | .refused i canDrain => match q.running, q.pending[i]? with
    | [], some entry => onRejected { q with pending := q.pending.eraseIdx i } entry canDrain
    | _, _ => q

end TurnQueue

/-! ## The invariant -/

/-- The line that the events leave: every start takes its first entry. -/
inductive Line : List (LineEvent T) → List (Entry T) → Prop where
  | empty : Line [] []
  | append {events line} (entry) (h : Line events line) :
      Line (events ++ [.append entry]) (line ++ [entry])
  | prepend {events line} (entry) (h : Line events line) :
      Line (events ++ [.prepend entry]) (entry :: line)
  | start {events line} (entry) (h : Line events (entry :: line)) :
      Line (events ++ [.start entry]) line
  | clear {events line} (h : Line events line) : Line (events ++ [.clear]) []

def startOf : LineEvent T → Option (Entry T)
  | .start entry => some entry
  | _ => none

/-- Each entry is in one place, and the record says how it got there. -/
structure Inv (q : TurnQueue T) : Prop where
  issued : q.issued ~ q.entries ++ (q.running ++ q.pending) ++ (q.resolved ++ q.rejected)
  started : q.started ~ q.running ++ q.pending ++ (q.succeeded ++ q.failed)
  resolved : q.resolved = q.succeeded
  rejected : q.rejected ~ q.failed ++ q.abandoned
  tickets : q.issued.map (·.ticket) = range q.issued.length
  line : Line q.line q.entries
  starts : q.line.filterMap startOf = q.started

theorem inv_empty : Inv ({} : TurnQueue T) :=
  ⟨.nil, .nil, rfl, .nil, rfl, .empty, rfl⟩

/-- Two arrangements of lists are permutations when every element is counted alike. -/
theorem perm_of_count {l l' : List (Entry T)}
    (h : ∀ [DecidableEq (Entry T)] (e : Entry T), l.count e = l'.count e) : l ~ l' := by
  classical
  exact perm_iff_count.mpr h

variable {q : TurnQueue T} {entry : Entry T} {rest : List (Entry T)}

theorem Inv.enqueue (h : Inv q) (input : T) : Inv (q.enqueue input) where
  issued := by
    have hperm := h.issued.append_right [⟨q.issued.length, input⟩]
    refine hperm.trans (perm_of_count fun e => ?_)
    simp only [TurnQueue.enqueue, count_append]
    omega
  started := h.started
  resolved := h.resolved
  rejected := h.rejected
  tickets := by
    simp [TurnQueue.enqueue, h.tickets, range_succ]
  line := .append _ h.line
  starts := by
    simp [TurnQueue.enqueue, h.starts, startOf]

theorem Inv.requeueFront (h : Inv q) (input : T) : Inv (q.requeueFront input) where
  issued := by
    have hperm := h.issued.append_right [⟨q.issued.length, input⟩]
    refine hperm.trans ?_
    exact perm_append_singleton _ _
  started := h.started
  resolved := h.resolved
  rejected := h.rejected
  tickets := by
    simp [TurnQueue.requeueFront, h.tickets, range_succ]
  line := .prepend _ h.line
  starts := by
    simp [TurnQueue.requeueFront, h.starts, startOf]

theorem Inv.rejectAll (h : Inv q) : Inv q.rejectAll where
  issued := by
    refine h.issued.trans (perm_of_count fun e => ?_)
    simp only [TurnQueue.rejectAll, count_append, count_nil]
    omega
  started := h.started
  resolved := h.resolved
  rejected := by
    refine (h.rejected.append_right q.entries).trans ?_
    rw [append_assoc]
    rfl
  tickets := h.tickets
  line := .clear h.line
  starts := by
    simp [TurnQueue.rejectAll, h.starts, startOf]

theorem Inv.drain (h : Inv q) (canDrain : Bool) : Inv (q.drain canDrain) := by
  unfold TurnQueue.drain
  split
  · rename_i entry rest hentries
    constructor
    · refine h.issued.trans (perm_of_count fun e => ?_)
      simp only [hentries, count_append, count_cons]
      omega
    · refine (h.started.append_right [entry]).trans ?_
      exact perm_append_singleton _ _
    · exact h.resolved
    · exact h.rejected
    · exact h.tickets
    · exact .start entry (hentries ▸ h.line)
    · simp [h.starts, startOf]
  · exact h

/-- A start that came off the stack or settled its promise. -/
structure Settling (q q' : TurnQueue T) (entry : Entry T) : Prop where
  starting : q.running ++ q.pending ~ entry :: (q'.running ++ q'.pending)
  rest : q' = { q with running := q'.running, pending := q'.pending }

theorem Inv.onStarted {q' : TurnQueue T} (h : Inv q)
    (hsettling : Settling q q' entry) : Inv (q'.onStarted entry) := by
  obtain ⟨hstarting, hrest⟩ := hsettling
  generalize q'.running = running at *
  generalize q'.pending = pending at *
  subst hrest
  constructor
  · refine h.issued.trans (((hstarting.append_left _).append_right _).trans
      (perm_of_count fun e => ?_))
    simp only [TurnQueue.onStarted, count_append, count_cons, count_nil]
    omega
  · refine h.started.trans ((hstarting.append_right _).trans (perm_of_count fun e => ?_))
    simp only [TurnQueue.onStarted, count_append, count_cons, count_nil]
    omega
  · simp [TurnQueue.onStarted, h.resolved]
  · exact h.rejected
  · exact h.tickets
  · exact h.line
  · exact h.starts

theorem Inv.onRejected {q' : TurnQueue T} (h : Inv q)
    (hsettling : Settling q q' entry) (canDrain : Bool) : Inv (q'.onRejected entry canDrain) := by
  obtain ⟨hstarting, hrest⟩ := hsettling
  generalize q'.running = running at *
  generalize q'.pending = pending at *
  subst hrest
  apply Inv.drain
  constructor
  · refine h.issued.trans (((hstarting.append_left _).append_right _).trans
      (perm_of_count fun e => ?_))
    simp only [count_append, count_cons, count_nil]
    omega
  · refine h.started.trans ((hstarting.append_right _).trans (perm_of_count fun e => ?_))
    simp only [count_append, count_cons, count_nil]
    omega
  · exact h.resolved
  · refine (h.rejected.append_right _).trans (perm_of_count fun e => ?_)
    simp only [count_append]
    omega
  · exact h.tickets
  · exact h.line
  · exact h.starts

theorem settling_running
    (h : q.running = entry :: rest) : Settling q { q with running := rest } entry where
  starting := by
    rw [h]
    rfl
  rest := rfl

theorem settling_pending {i : ℕ} (h : q.pending[i]? = some entry) :
    Settling q { q with pending := q.pending.eraseIdx i } entry where
  starting := by
    obtain ⟨hi, rfl⟩ := List.getElem?_eq_some_iff.mp h
    exact ((getElem_cons_eraseIdx_perm hi).symm.append_left q.running).trans perm_middle
  rest := rfl

theorem Inv.step (h : Inv q) (op : Op T) : Inv (q.step op) := by
  cases op with
  | enqueue input => exact h.enqueue input
  | requeueFront input => exact h.requeueFront input
  | drain canDrain => exact h.drain canDrain
  | rejectAll => exact h.rejectAll
  | returned =>
    simp only [TurnQueue.step]
    split
    · rename_i entry rest hrunning
      exact h.onStarted (settling_running hrunning)
    · exact h
  | promised =>
    simp only [TurnQueue.step]
    split
    · rename_i entry rest hrunning
      have hstarting : q.running ++ q.pending ~ rest ++ entry :: q.pending := by
        rw [hrunning]
        exact perm_middle.symm
      exact
        { h with
          issued := h.issued.trans ((hstarting.append_left _).append_right _)
          started := h.started.trans (hstarting.append_right _) }
    · exact h
  | threw canDrain =>
    simp only [TurnQueue.step]
    split
    · rename_i entry rest hrunning
      exact h.onRejected (settling_running hrunning) canDrain
    · exact h
  | accepted i =>
    simp only [TurnQueue.step]
    split
    · rename_i entry _ hpending
      exact h.onStarted (settling_pending hpending)
    · exact h
  | refused i canDrain =>
    simp only [TurnQueue.step]
    split
    · rename_i entry _ hpending
      exact h.onRejected (settling_pending hpending) canDrain
    · exact h

theorem inv_exec (ops : List (Op T)) : Inv (exec TurnQueue.step {} ops) :=
  exec_invariant (fun _ op h => h.step op) ops inv_empty

/-! ## Settling once and truthfully -/

/-- What the callers of the queue may rely on. -/
structure Truthful (q : TurnQueue T) : Prop where
  /-- Every entry waits, is starting or is settled. -/
  placed : q.issued ~ q.entries ++ (q.running ++ q.pending) ++ (q.resolved ++ q.rejected)
  /-- It is so in one way only, and once. -/
  once : (q.entries ++ (q.running ++ q.pending) ++ (q.resolved ++ q.rejected)).Nodup
  started_once : q.started.Nodup
  resolved : ∀ entry ∈ q.resolved,
    entry ∈ q.started ∧ entry ∈ q.succeeded ∧ entry ∉ q.failed
  rejected : ∀ entry ∈ q.rejected,
    entry ∈ q.started ∧ entry ∈ q.failed ∨ entry ∈ q.abandoned ∧ entry ∉ q.started
  /-- Every start took the first entry of the line. -/
  line : Line q.line q.entries
  starts : q.line.filterMap startOf = q.started

theorem Inv.nodup (h : Inv q) : q.issued.Nodup := by
  apply Nodup.of_map (·.ticket)
  rw [h.tickets]
  exact nodup_range

theorem Inv.nodup_started (h : Inv q) : (q.started ++ q.abandoned).Nodup := by
  have hperm : q.issued ~ q.entries ++ (q.started ++ q.abandoned) := by
    refine h.issued.trans (((h.rejected.append_left _).append_left _).trans ?_)
    refine Perm.trans ?_ ((h.started.symm.append_right _).append_left _)
    rw [h.resolved]
    refine perm_of_count fun e => ?_
    simp only [count_append]
    omega
  exact (nodup_append.mp (hperm.nodup_iff.mp h.nodup)).2.1

theorem Inv.not_started (h : Inv q) (hentry : entry ∈ q.abandoned) : entry ∉ q.started := by
  intro hstarted
  exact (nodup_append.mp h.nodup_started).2.2 _ hstarted _ hentry rfl

theorem Inv.truthful (h : Inv q) : Truthful q where
  placed := h.issued
  once := h.issued.nodup_iff.mp h.nodup
  started_once := (nodup_append.mp h.nodup_started).1
  resolved := by
    intro entry hentry
    rw [h.resolved] at hentry
    have hnodup := h.started.nodup_iff.mp (nodup_append.mp h.nodup_started).1
    have houtcome := (nodup_append.mp (nodup_append.mp hnodup).2.1).2.2
    refine ⟨h.started.mem_iff.mpr (by simp [hentry]), hentry, ?_⟩
    intro hfailed
    exact houtcome _ hentry _ hfailed rfl
  rejected := by
    intro entry hentry
    rcases mem_append.mp (h.rejected.mem_iff.mp hentry) with hentry | hentry
    · exact .inl ⟨h.started.mem_iff.mpr (by simp [hentry]), hentry⟩
    · exact .inr ⟨hentry, h.not_started hentry⟩
  line := h.line
  starts := h.starts

theorem abandoned_drain (q : TurnQueue T) (canDrain : Bool) :
    (q.drain canDrain).abandoned = q.abandoned := by
  unfold TurnQueue.drain
  split
  · rfl
  · rfl

theorem abandoned_step (q : TurnQueue T) (op : Op T) : q.abandoned ⊆ (q.step op).abandoned := by
  cases op with
  | rejectAll => exact subset_append_left _ _
  | enqueue | requeueFront => exact Subset.refl _
  | drain canDrain => exact (abandoned_drain q canDrain).symm ▸ Subset.refl _
  | returned | promised | accepted =>
    simp only [TurnQueue.step]
    split
    · exact Subset.refl _
    · exact Subset.refl _
  | threw | refused =>
    simp only [TurnQueue.step]
    split
    · rw [TurnQueue.onRejected, abandoned_drain]
      exact Subset.refl _
    · exact Subset.refl _

theorem abandoned_exec (q : TurnQueue T) (ops : List (Op T)) :
    q.abandoned ⊆ (exec TurnQueue.step q ops).abandoned :=
  exec_invariant (I := fun q' => q.abandoned ⊆ q'.abandoned)
    (fun q' op h => List.Subset.trans h (abandoned_step q' op)) ops (List.Subset.refl _)

/-- The gate's answer that an operation brings. -/
def Op.canDrain : Op T → Bool
  | .drain canDrain | .threw canDrain | .refused _ canDrain => canDrain
  | _ => false

/-- A start that fails is followed by the next one, if the gate is open. -/
theorem next_started {op : Op T} (hfailed : (q.step op).failed ≠ q.failed)
    (hopen : op.canDrain = true) (hentries : q.entries = entry :: rest) :
    (q.step op).started = q.started ++ [entry] ∧ (q.step op).entries = rest := by
  cases op with
  | drain canDrain =>
    cases canDrain with
    | true => simp [TurnQueue.step, TurnQueue.drain, hentries]
    | false => exact absurd rfl hfailed
  | threw canDrain =>
    cases hopen
    cases hrunning : q.running with
    | nil => simp [TurnQueue.step, hrunning] at hfailed
    | cons => simp [TurnQueue.step, hrunning, TurnQueue.onRejected, TurnQueue.drain, hentries]
  | refused i canDrain =>
    cases hopen
    simp only [TurnQueue.step] at hfailed ⊢
    split
    · simp [TurnQueue.onRejected, TurnQueue.drain, hentries]
    · simp at hfailed
  | _ => cases hopen

/-! ## The record of a run -/

/-- The input of a call of `enqueue` or `requeueFront`. -/
def Op.input? : Op T → Option T
  | .enqueue input | .requeueFront input => some input
  | _ => none

/-- An entry for each such call, in their order. -/
def issuedBy (ops : List (Op T)) : List (Entry T) :=
  (ops.filterMap Op.input?).mapIdx Entry.mk

/-- What an operation itself does to the line: the entry of a call, at its end, or the end of all
    that wait. -/
def Op.places (ticket : ℕ) : Op T → List (LineEvent T)
  | .enqueue input => [.append ⟨ticket, input⟩]
  | .requeueFront input => [.prepend ⟨ticket, input⟩]
  | .rejectAll => [.clear]
  | _ => []

/-- The start that an operation tells to have succeeded. -/
def Op.succeeds (q : TurnQueue T) : Op T → List (Entry T)
  | .returned => q.running.head?.toList
  | .accepted i => if q.running.isEmpty then q.pending[i]?.toList else []
  | _ => []

/-- The start that an operation tells to have failed. -/
def Op.fails (q : TurnQueue T) : Op T → List (Entry T)
  | .threw _ => q.running.head?.toList
  | .refused i _ => if q.running.isEmpty then q.pending[i]?.toList else []
  | _ => []

/-- The entries that an operation leaves without a start. -/
def Op.abandons (q : TurnQueue T) : Op T → List (Entry T)
  | .rejectAll => q.entries
  | _ => []

/-- **The record follows the operations**: what the queue was asked, what came of its starts, and
    the starts themselves. -/
structure Recorded (q : TurnQueue T) (op : Op T) : Prop where
  issued : (q.step op).issued = q.issued ++ op.input?.toList.map (Entry.mk q.issued.length)
  line : ∃ starts, (q.step op).started = q.started ++ starts ∧
    (q.step op).line = q.line ++ (op.places q.issued.length ++ starts.map .start)
  succeeded : (q.step op).succeeded = q.succeeded ++ op.succeeds q
  failed : (q.step op).failed = q.failed ++ op.fails q
  abandoned : (q.step op).abandoned = q.abandoned ++ op.abandons q

/-- A drain starts one entry at most, and records nothing else. -/
theorem exists_starts_drain (q : TurnQueue T) (canDrain : Bool) :
    (∃ starts, (q.drain canDrain).started = q.started ++ starts ∧
      (q.drain canDrain).line = q.line ++ starts.map .start) ∧
    (q.drain canDrain).issued = q.issued ∧ (q.drain canDrain).succeeded = q.succeeded ∧
    (q.drain canDrain).failed = q.failed ∧ (q.drain canDrain).abandoned = q.abandoned := by
  unfold TurnQueue.drain
  split
  · exact ⟨⟨[_], rfl, rfl⟩, rfl, rfl, rfl, rfl⟩
  · exact ⟨⟨[], by simp⟩, rfl, rfl, rfl, rfl⟩

theorem recorded_onRejected {q' : TurnQueue T} {op : Op T} (canDrain : Bool)
    (hsettling : Settling q q' entry) (hstep : q.step op = q'.onRejected entry canDrain)
    (hfails : op.fails q = [entry]) (hinput : op.input? = none)
    (hplaces : op.places q.issued.length = []) (hsucceeds : op.succeeds q = [])
    (habandons : op.abandons q = []) : Recorded q op := by
  obtain ⟨⟨starts, hstarted, hline⟩, hissued, hsucceeded, hfailed, habandoned⟩ :=
    exists_starts_drain
      { q' with failed := q'.failed ++ [entry], rejected := q'.rejected ++ [entry] } canDrain
  change (q'.onRejected entry canDrain).started = _ at hstarted
  change (q'.onRejected entry canDrain).line = _ at hline
  change (q'.onRejected entry canDrain).issued = _ at hissued
  change (q'.onRejected entry canDrain).succeeded = _ at hsucceeded
  change (q'.onRejected entry canDrain).failed = _ at hfailed
  change (q'.onRejected entry canDrain).abandoned = _ at habandoned
  have hrest := hsettling.rest
  rw [hrest] at hstarted hline hissued hsucceeded hfailed habandoned
  refine ⟨?_, ⟨starts, ?_, ?_⟩, ?_, ?_, ?_⟩
  · rw [hstep, hrest, hissued, hinput]
    simp
  · rw [hstep, hrest, hstarted]
  · rw [hstep, hrest, hline, hplaces, nil_append]
  · rw [hstep, hrest, hsucceeded, hsucceeds, append_nil]
  · rw [hstep, hrest, hfailed, hfails]
  · rw [hstep, hrest, habandoned, habandons, append_nil]

/-- Every operation leaves exactly its own records. -/
theorem recorded_step (q : TurnQueue T) (op : Op T) : Recorded q op := by
  have hquiet (op : Op T) (hstep : q.step op = q) (hinput : op.input? = none)
      (hplaces : op.places q.issued.length = []) (hsucceeds : op.succeeds q = [])
      (hfails : op.fails q = []) (habandons : op.abandons q = []) : Recorded q op :=
    ⟨by simp [hstep, hinput], ⟨[], by simp [hstep, hplaces]⟩, by simp [hstep, hsucceeds],
      by simp [hstep, hfails], by simp [hstep, habandons]⟩
  cases op with
  | enqueue input | requeueFront input =>
    exact ⟨rfl, ⟨[], (append_nil _).symm, rfl⟩, (append_nil _).symm, (append_nil _).symm,
      (append_nil _).symm⟩
  | rejectAll =>
    exact ⟨(append_nil _).symm, ⟨[], (append_nil _).symm, rfl⟩, (append_nil _).symm,
      (append_nil _).symm, rfl⟩
  | drain canDrain =>
    obtain ⟨hstarts, hissued, hsucceeded, hfailed, habandoned⟩ := exists_starts_drain q canDrain
    exact ⟨hissued.trans (append_nil _).symm, hstarts, hsucceeded.trans (append_nil _).symm,
      hfailed.trans (append_nil _).symm, habandoned.trans (append_nil _).symm⟩
  | returned =>
    cases hrunning : q.running with
    | nil =>
      refine hquiet .returned ?_ rfl rfl ?_ rfl rfl <;>
        simp [TurnQueue.step, Op.succeeds, hrunning]
    | cons entry rest =>
      constructor <;>
        simp [TurnQueue.step, hrunning, TurnQueue.onStarted, Op.input?, Op.places, Op.succeeds,
          Op.fails, Op.abandons]
  | promised =>
    cases hrunning : q.running with
    | nil =>
      refine hquiet .promised ?_ rfl rfl rfl rfl rfl
      simp [TurnQueue.step, hrunning]
    | cons entry rest =>
      constructor <;>
        simp [TurnQueue.step, hrunning, Op.input?, Op.places, Op.succeeds, Op.fails, Op.abandons]
  | threw canDrain =>
    cases hrunning : q.running with
    | nil =>
      refine hquiet (.threw canDrain) ?_ rfl rfl rfl ?_ rfl <;>
        simp [TurnQueue.step, Op.fails, hrunning]
    | cons entry rest =>
      refine recorded_onRejected canDrain (settling_running hrunning) ?_ ?_ rfl rfl rfl rfl <;>
        simp [TurnQueue.step, Op.fails, hrunning]
  | accepted i =>
    cases hrunning : q.running with
    | cons =>
      refine hquiet (.accepted i) ?_ rfl rfl ?_ rfl rfl <;>
        simp [TurnQueue.step, Op.succeeds, hrunning]
    | nil =>
      cases hpending : q.pending[i]? with
      | none =>
        refine hquiet (.accepted i) ?_ rfl rfl ?_ rfl rfl <;>
          simp [TurnQueue.step, Op.succeeds, hrunning, hpending]
      | some entry =>
        constructor <;>
          simp [TurnQueue.step, hrunning, hpending, TurnQueue.onStarted, Op.input?, Op.places,
            Op.succeeds, Op.fails, Op.abandons]
  | refused i canDrain =>
    cases hrunning : q.running with
    | cons =>
      refine hquiet (.refused i canDrain) ?_ rfl rfl rfl ?_ rfl <;>
        simp [TurnQueue.step, Op.fails, hrunning]
    | nil =>
      cases hpending : q.pending[i]? with
      | none =>
        refine hquiet (.refused i canDrain) ?_ rfl rfl rfl ?_ rfl <;>
          simp [TurnQueue.step, Op.fails, hrunning, hpending]
      | some entry =>
        refine recorded_onRejected canDrain (settling_pending hpending) ?_ ?_ rfl rfl rfl rfl <;>
          simp [TurnQueue.step, Op.fails, hrunning, hpending]

/-- The entries of a run are those its operations issue. -/
theorem issued_exec (ops : List (Op T)) :
    (exec TurnQueue.step {} ops).issued = issuedBy ops := by
  induction ops using List.reverseRecOn with
  | nil => rfl
  | append_singleton ops op ih =>
    have hlength : (issuedBy ops).length = (ops.filterMap Op.input?).length := length_mapIdx
    rw [exec_append, exec_cons, exec_nil, (recorded_step _ op).issued, ih, hlength]
    simp only [issuedBy, filterMap_append, filterMap_cons, filterMap_nil]
    cases op.input? with
    | none => simp
    | some input => simp [mapIdx_append]

/-- **The send queue.**  In every run the entries are those of the calls of `enqueue` and
    `requeueFront`; they settle once and truthfully, in the order of the line; an abandoned entry is
    never started later; a failed start lets the next entry start if the gate is open. -/
theorem turnQueue_truthful (ops later : List (Op T)) :
    let q := exec TurnQueue.step {} ops
    q.issued = issuedBy ops ∧ (∀ op, Recorded q op) ∧ Truthful q ∧
      (∀ entry ∈ q.abandoned, entry ∉ (exec TurnQueue.step q later).started) ∧
      ∀ op, (q.step op).failed ≠ q.failed → op.canDrain = true →
        ∀ entry rest, q.entries = entry :: rest →
          (q.step op).started = q.started ++ [entry] ∧ (q.step op).entries = rest := by
  intro q
  refine ⟨issued_exec ops, recorded_step q, (inv_exec ops).truthful, ?_, ?_⟩
  · intro entry hentry
    have hinv : Inv (exec TurnQueue.step q later) := by
      rw [← exec_append]
      exact inv_exec (ops ++ later)
    exact hinv.not_started (abandoned_exec q later hentry)
  · intro op hfailed hopen entry rest hentries
    exact next_started hfailed hopen hentries

end RelayIde.Adapters
