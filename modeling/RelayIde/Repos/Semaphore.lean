import Mathlib.Data.ENat.Basic
import Mathlib.Data.List.Nodup
import Mathlib.Data.List.Range
import Mathlib.Data.Rat.Floor
import RelayIde.Library.Machine

/-!
# The Scan Gate

Models `Semaphore` of `server/concurrency.ts`, behind which the repository scanners start their
subprocesses.  A call of `run` acquires at once or joins the line; when its task settles, either
way, it releases.

- `semaphore_fair` — permits go round in the order of the calls, and none lies idle
-/

namespace RelayIde.Repos

open RelayIde.Library List

/-! ## The semaphore -/

/-- The number handed to the constructor. -/
inductive Limit where
  | finite (limit : ℚ)
  | infinite (negative : Bool)
  | nan

/-- `Math.max(1, Math.floor(limit))`.  A maximum with NaN is NaN, and no number of permits is below
    it: it admits as many as zero would. -/
def permits : Limit → ℕ∞
  | .finite limit => ((max 1 ⌊limit⌋).toNat : ℕ)
  | .infinite negative => if negative then 1 else ⊤
  | .nan => 0

/-- The semaphore; a waiter is the call whose promise it resolves. -/
structure Semaphore where
  active : ℕ := 0
  peak : ℕ := 0
  waiters : List ℕ := []

namespace Semaphore

/-- A permit is handed out, at once or to a waiter. -/
def take (s : Semaphore) : Semaphore :=
  { s with active := s.active + 1, peak := max s.peak (s.active + 1) }

/-- `acquire`, and the call if its promise is resolved already. -/
def acquire (limit : Limit) (s : Semaphore) (call : ℕ) : Semaphore × Option ℕ :=
  if (s.active : ℕ∞) < permits limit then (s.take, some call)
  else ({ s with waiters := s.waiters ++ [call] }, none)

/-- `release`, and the call whose promise it resolves. -/
def release (s : Semaphore) : Semaphore × Option ℕ :=
  let freed := { s with active := s.active - 1 }
  match s.waiters with
  | next :: waiters => ({ freed with waiters }.take, some next)
  | [] => (freed, none)

end Semaphore

/-! ## Its callers -/

inductive SemaphoreOp where
  | run
  /-- The task of a call returns, or throws. -/
  | settle (call : ℕ)
  deriving DecidableEq

/-- The semaphore among the calls of `run`, which are numbered as they come. -/
structure Scan where
  gate : Semaphore := {}
  calls : ℕ := 0
  /-- The calls whose `acquire` was resolved, in that order. -/
  granted : List ℕ := []
  /-- The calls whose task has settled. -/
  settled : List ℕ := []

/-- The calls whose task has started and not settled. -/
def Scan.running (scan : Scan) : List ℕ := scan.granted.filter (· ∉ scan.settled)

/-- `run` around a task; only a task that runs can settle. -/
def Scan.step (limit : Limit) (scan : Scan) : SemaphoreOp → Scan
  | .run =>
    let (gate, resolved) := scan.gate.acquire limit scan.calls
    { scan with
      gate
      calls := scan.calls + 1
      granted := scan.granted ++ resolved.toList }
  | .settle call =>
    if call ∈ scan.running then
      let (gate, resolved) := scan.gate.release
      { scan with
        gate
        granted := scan.granted ++ resolved.toList
        settled := scan.settled ++ [call] }
    else scan

/-- Permits are counted, given in the order of the calls, and waited for only when all are out. -/
structure Fair (limit : Limit) (scan : Scan) : Prop where
  counted : scan.running.length = scan.gate.active
  bounded : (scan.gate.active : ℕ∞) ≤ permits limit
  peaked : (scan.gate.peak : ℕ∞) ≤ permits limit
  inOrder : scan.granted ++ scan.gate.waiters = range scan.calls
  busy : scan.gate.waiters ≠ [] → (scan.gate.active : ℕ∞) = permits limit
  settled : scan.settled ⊆ scan.granted
  /-- Behind NaN nothing is given. -/
  given : scan.granted ≠ [] → permits limit ≠ 0

section

variable {limit : Limit} {scan : Scan}

theorem Fair.waiter_not_settled (h : Fair limit scan) {call : ℕ}
    (hcall : call ∈ scan.gate.waiters) : call ∉ scan.settled := by
  have hnodup : (scan.granted ++ scan.gate.waiters).Nodup := h.inOrder ▸ nodup_range
  exact fun hsettled => disjoint_of_nodup_append hnodup (h.settled hsettled) hcall

/-- A call that comes is the next number. -/
theorem Fair.calls_not_settled (h : Fair limit scan) : scan.calls ∉ scan.settled := by
  intro hsettled
  have hmem := mem_append_left scan.gate.waiters (h.settled hsettled)
  rw [h.inOrder, mem_range] at hmem
  exact hmem.ne rfl

theorem peak_le {limit : Limit} {peak active : ℕ} (hpeak : (peak : ℕ∞) ≤ permits limit)
    (hactive : ((active : ℕ) : ℕ∞) ≤ permits limit) :
    ((max peak active : ℕ) : ℕ∞) ≤ permits limit := by
  rcases max_choice peak active with hmax | hmax <;> rw [hmax] <;> assumption

theorem step_run_of_free (hfree : (scan.gate.active : ℕ∞) < permits limit) :
    scan.step limit .run =
      { scan with
        gate := scan.gate.take
        calls := scan.calls + 1
        granted := scan.granted ++ [scan.calls] } := by
  simp [Scan.step, Semaphore.acquire, hfree]

theorem step_run_of_full (hfull : ¬ (scan.gate.active : ℕ∞) < permits limit) :
    scan.step limit .run =
      { scan with
        gate := { scan.gate with waiters := scan.gate.waiters ++ [scan.calls] }
        calls := scan.calls + 1 } := by
  simp [Scan.step, Semaphore.acquire, hfull]

/-- A free permit is given at once, and then nobody waits; else the call joins the line. -/
theorem Fair.run (h : Fair limit scan) : Fair limit (scan.step limit .run) := by
  have horder := h.inOrder
  by_cases hfree : (scan.gate.active : ℕ∞) < permits limit
  · have hnone : scan.gate.waiters = [] := by
      by_contra hne
      exact hfree.ne (h.busy hne)
    have hnext : ((scan.gate.active + 1 : ℕ) : ℕ∞) ≤ permits limit := by
      rw [Nat.cast_add_one]
      exact Order.add_one_le_of_lt hfree
    rw [hnone, append_nil] at horder
    rw [step_run_of_free hfree]
    refine ⟨?_, hnext, peak_le h.peaked hnext, ?_, fun hne => absurd hnone hne, ?_,
      fun _ => ne_zero_of_lt hfree⟩
    · have hcounted := h.counted
      rw [Scan.running] at hcounted
      simp [Scan.running, Semaphore.take, h.calls_not_settled, ← hcounted]
    · simp [Semaphore.take, hnone, horder, range_succ]
    · exact fun call hcall => mem_append_left _ (h.settled hcall)
  · rw [step_run_of_full hfree]
    refine ⟨h.counted, h.bounded, h.peaked, ?_, fun _ => h.bounded.antisymm (not_lt.mp hfree),
      h.settled, h.given⟩
    simp [range_succ, ← horder]

/-- A task that settles is the only one that stops running. -/
theorem Fair.running_erase (h : Fair limit scan) (call : ℕ) :
    scan.granted.filter (· ∉ scan.settled ++ [call]) = scan.running.erase call := by
  have hboth : (scan.granted ++ scan.gate.waiters).Nodup := h.inOrder ▸ nodup_range
  rw [Scan.running, Nodup.erase_eq_filter ((Nodup.of_append_left hboth).filter _), filter_filter]
  apply filter_congr
  intro other _
  by_cases hsame : other = call <;> simp [hsame]

/-- The permit of a task that settles goes to the head of the line, if there is one. -/
theorem Fair.settle (h : Fair limit scan) {call : ℕ} (hcall : call ∈ scan.running) :
    Fair limit (scan.step limit (.settle call)) := by
  have hgranted := mem_of_mem_filter hcall
  have hlength := length_erase_of_mem hcall
  have hpos := length_pos_of_mem hcall
  rw [← h.running_erase] at hlength
  rw [h.counted] at hlength hpos
  have hback : scan.gate.active - 1 + 1 = scan.gate.active := Nat.sub_add_cancel hpos
  have hsub : scan.settled ++ [call] ⊆ scan.granted := by
    rw [append_subset]
    exact ⟨h.settled, by simpa using hgranted⟩
  cases hwaiters : scan.gate.waiters with
  | nil =>
    have hstep : scan.step limit (.settle call) =
        { scan with
          gate := { scan.gate with active := scan.gate.active - 1 }
          settled := scan.settled ++ [call] } := by
      simp [Scan.step, hcall, Semaphore.release, hwaiters]
    have hfewer : ((scan.gate.active - 1 : ℕ) : ℕ∞) ≤ permits limit :=
      (Nat.cast_le.mpr (Nat.sub_le _ _)).trans h.bounded
    rw [hstep]
    exact ⟨hlength, hfewer, h.peaked, h.inOrder, fun hne => absurd hwaiters hne, hsub,
      h.given⟩
  | cons next waiters =>
    have hstep : scan.step limit (.settle call) =
        { scan with
          gate := Semaphore.take { scan.gate with active := scan.gate.active - 1, waiters }
          granted := scan.granted ++ [next]
          settled := scan.settled ++ [call] } := by
      simp [Scan.step, hcall, Semaphore.release, hwaiters]
    have hnext : next ∉ scan.settled ++ [call] := by
      have hwaits : next ∈ scan.gate.waiters := hwaiters ▸ mem_cons_self
      have hboth : (scan.granted ++ scan.gate.waiters).Nodup := h.inOrder ▸ nodup_range
      have hother : next ≠ call := fun hsame =>
        disjoint_of_nodup_append hboth hgranted (hsame ▸ hwaits)
      simpa [hother] using h.waiter_not_settled hwaits
    rw [hstep]
    refine ⟨?_, ?_, ?_, ?_, fun _ => ?_, fun other hother => mem_append_left _ (hsub hother),
      fun _ => h.given (ne_nil_of_mem hgranted)⟩
    · rw [Scan.running, filter_append, length_append, hlength, filter_singleton]
      simp [Semaphore.take, hnext]
    · simpa [Semaphore.take, hback] using h.bounded
    · simpa [Semaphore.take, hback] using peak_le h.peaked h.bounded
    · simpa [Semaphore.take, hwaiters] using h.inOrder
    · simpa [Semaphore.take, hback] using h.busy (by simp [hwaiters])

end

theorem calls_step (limit : Limit) (scan : Scan) (op : SemaphoreOp) :
    (scan.step limit op).calls = scan.calls + [op].count .run := by
  cases op with
  | run => rfl
  | settle call =>
    unfold Scan.step
    dsimp only
    split <;> rfl

theorem permits_ne_zero {limit : Limit} (h : limit ≠ .nan) : permits limit ≠ 0 := by
  cases limit with
  | finite limit =>
    have hpos : (max 1 ⌊limit⌋).toNat ≠ 0 := by omega
    simpa only [permits, ne_eq, Nat.cast_eq_zero] using hpos
  | infinite negative => cases negative <;> simp [permits]
  | nan => exact absurd rfl h

/-- **The gate**: no more tasks run than there are permits, permits are given in the order of the
    calls, a call waits only while all are given, and none waits once the tasks have settled;
    behind NaN every call waits for good. -/
theorem semaphore_fair (limit : Limit) (ops : List SemaphoreOp) :
    let scan := exec (Scan.step limit) {} ops
    (scan.running.length : ℕ∞) ≤ permits limit ∧ (scan.gate.peak : ℕ∞) ≤ permits limit ∧
      scan.granted ++ scan.gate.waiters = range (ops.count .run) ∧
      (scan.gate.waiters ≠ [] → (scan.running.length : ℕ∞) = permits limit) ∧
      (limit ≠ .nan → scan.running = [] → scan.granted = range (ops.count .run)) ∧
      (limit = .nan → scan.granted = []) := by
  intro scan
  have hfair : Fair limit scan ∧ scan.calls = ops.count .run := by
    induction ops using List.reverseRecOn with
    | nil =>
      exact ⟨⟨rfl, bot_le, bot_le, rfl, fun hne => absurd rfl hne, Subset.refl _,
        fun hne => absurd rfl hne⟩, rfl⟩
    | append_singleton ops op ih =>
      simp only [scan, exec_append, exec_cons, exec_nil, count_append, calls_step, ih.2, and_true]
      cases op with
      | run => exact ih.1.run
      | settle call =>
        by_cases hcall : call ∈ (exec (Scan.step limit) {} ops).running
        · exact ih.1.settle hcall
        · simpa [Scan.step, hcall] using ih.1
  obtain ⟨⟨hcounted, hbounded, hpeaked, horder, hbusy, -, hgiven⟩, hcalls⟩ := hfair
  rw [hcalls] at horder
  rw [hcounted]
  refine ⟨hbounded, hpeaked, horder, hbusy, fun hlimit hidle => ?_, fun hnan => ?_⟩
  · have hnone : scan.gate.waiters = [] := by
      by_contra hne
      have hfull := hbusy hne
      rw [← hcounted, hidle] at hfull
      exact permits_ne_zero hlimit hfull.symm
    rwa [hnone, append_nil] at horder
  · by_contra hne
    exact hgiven hne (hnan ▸ rfl)

end RelayIde.Repos
