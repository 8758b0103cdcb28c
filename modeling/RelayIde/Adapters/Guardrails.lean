import Mathlib
import RelayIde.Library.Machine

/-!
# Turn Guardrails

Models `TurnGuardrails` of `server/protocol-adapters/adapter-utils.ts`: the budget of a turn, which
counts work and not the waiting for a human, and the breaker for crash loops.

- `BudgetInv`, `CrashInv` — the start stamp and the crash window tell what happened
-/

open List

namespace RelayIde.Adapters

open RelayIde.Library

/-! ## The guardrails -/

/-- `TurnGuardrailLimits`; the turn timeout is read anew at each check. -/
structure TurnGuardrailLimits where
  crashWindowMs : ℤ
  maxRespawns : ℕ

/-- The fields of `TurnGuardrails`, without the idle clock. -/
structure TurnGuardrails where
  turnStartedAtMs : Option ℤ := none
  approvalWaitStartedMs : Option ℤ := none
  crashTimestamps : List ℤ := []

namespace TurnGuardrails

def noteTurnStart (g : TurnGuardrails) (now : ℤ) : TurnGuardrails :=
  { g with turnStartedAtMs := some now }

def noteTurnEnd (g : TurnGuardrails) : TurnGuardrails :=
  { g with turnStartedAtMs := none, approvalWaitStartedMs := none }

def enterApprovalWait (g : TurnGuardrails) (now : ℤ) : TurnGuardrails :=
  match g.approvalWaitStartedMs with
  | some _ => g
  | none => { g with approvalWaitStartedMs := some now }

def settleApprovalWait (g : TurnGuardrails) (outstandingApprovals : ℕ) (now : ℤ) :
    TurnGuardrails :=
  match g.approvalWaitStartedMs with
  | none => g
  | some waitStarted =>
    if 0 < outstandingApprovals then g
    else
      { g with
        turnStartedAtMs := g.turnStartedAtMs.map (· + (now - waitStarted))
        approvalWaitStartedMs := none }

def isTurnOverdue (g : TurnGuardrails) (turnTimeoutMs now : ℤ) : Bool :=
  match g.turnStartedAtMs with
  | none => false
  | some turnStarted => turnTimeoutMs < now - turnStarted

def pruneCrashWindow (limits : TurnGuardrailLimits) (g : TurnGuardrails) (now : ℤ) :
    TurnGuardrails :=
  { g with
    crashTimestamps := g.crashTimestamps.dropWhile fun t => t < now - limits.crashWindowMs }

def recordCrash (limits : TurnGuardrailLimits) (g : TurnGuardrails) (now : ℤ) : TurnGuardrails :=
  let pruned := g.pruneCrashWindow limits now
  { pruned with crashTimestamps := pruned.crashTimestamps ++ [now] }

/-- `isCrashLooping`, which prunes before it counts. -/
def isCrashLooping (limits : TurnGuardrailLimits) (g : TurnGuardrails) (now : ℤ) :
    Bool × TurnGuardrails :=
  let pruned := g.pruneCrashWindow limits now
  (limits.maxRespawns ≤ pruned.crashTimestamps.length, pruned)

def reset (_ : TurnGuardrails) : TurnGuardrails := {}

end TurnGuardrails

/-! ## What really happened -/

inductive Call
  | noteTurnStart (now : ℤ)
  | noteTurnEnd
  | enterApprovalWait (now : ℤ)
  | settleApprovalWait (outstandingApprovals : ℕ) (now : ℤ)
  | recordCrash (now : ℤ)
  | isCrashLooping (now : ℤ)
  | reset (now : ℤ)

def Call.now : Call → Option ℤ
  | .noteTurnEnd => none
  | .noteTurnStart now | .enterApprovalWait now | .settleApprovalWait _ now | .recordCrash now
  | .isCrashLooping now | .reset now => some now

/-- The guardrails with the record of a run.  A wait lasts from the first approval asked for until
    none is outstanding, whatever becomes of the turn. -/
structure Watched where
  guardrails : TurnGuardrails := {}
  clock : ℤ
  turnStart : Option ℤ := none
  waitSince : Option ℤ := none
  waits : List (ℤ × ℤ) := []
  crashes : List ℤ := []

def waitedSince (turnStart : ℤ) (waits : List (ℤ × ℤ)) : ℤ :=
  (waits.map fun wait => max 0 (wait.2 - max turnStart wait.1)).sum

def Watched.workTime (w : Watched) (turnStart now : ℤ) : ℤ :=
  now - turnStart - waitedSince turnStart w.waits

def step (limits : TurnGuardrailLimits) (w : Watched) (call : Call) : Watched :=
  let w := { w with clock := call.now.getD w.clock }
  match call with
  | .noteTurnStart now =>
    { w with guardrails := w.guardrails.noteTurnStart now, turnStart := some now }
  | .noteTurnEnd => { w with guardrails := w.guardrails.noteTurnEnd, turnStart := none }
  | .enterApprovalWait now =>
    { w with
      guardrails := w.guardrails.enterApprovalWait now
      waitSince := some (w.waitSince.getD now) }
  | .settleApprovalWait outstandingApprovals now =>
    { w with
      guardrails := w.guardrails.settleApprovalWait outstandingApprovals now
      waitSince := if 0 < outstandingApprovals then w.waitSince else none
      waits :=
        if 0 < outstandingApprovals then w.waits
        else w.waits ++ (w.waitSince.map fun since => (since, now)).toList }
  | .recordCrash now =>
    { w with
      guardrails := w.guardrails.recordCrash limits now
      crashes := w.crashes ++ [now] }
  | .isCrashLooping now => { w with guardrails := (w.guardrails.isCrashLooping limits now).2 }
  | .reset _ =>
    { w with
      guardrails := w.guardrails.reset
      turnStart := none
      waitSince := none
      crashes := [] }

/-- The clock does not go back. -/
def Timely (w : Watched) (call : Call) : Prop :=
  ∀ now, call.now = some now → w.clock ≤ now

def StartsSettled (w : Watched) : Call → Prop
  | .noteTurnStart _ => w.waitSince = none
  | _ => True

section Runs

variable {limits : TurnGuardrailLimits} {w : Watched} {call : Call}

/-! ## The crash window -/

structure CrashInv (limits : TurnGuardrailLimits) (w : Watched) : Prop where
  kept : ∃ dropped, w.crashes = dropped ++ w.guardrails.crashTimestamps ∧
    ∀ t ∈ dropped, t < w.clock - limits.crashWindowMs
  sorted : w.crashes.Pairwise (· ≤ ·)
  past : ∀ t ∈ w.crashes, t ≤ w.clock

theorem dropWhile_lt_eq_filter {l : List ℤ} (h : l.Pairwise (· ≤ ·)) (bound : ℤ) :
    l.dropWhile (fun t => t < bound) = l.filter fun t => bound ≤ t := by
  induction l with
  | nil => rfl
  | cons t l ih =>
    obtain ⟨hhead, htail⟩ := pairwise_cons.mp h
    by_cases ht : t < bound
    · rw [dropWhile_cons_of_pos (by simpa using ht), ih htail,
        filter_cons_of_neg (by simpa using ht)]
    · -- everything behind the first element in the window is in it too
      rw [dropWhile_cons_of_neg (by simpa using ht), eq_comm, filter_eq_self]
      intro u hu
      obtain rfl | hu := mem_cons.mp hu
      · simpa using ht
      · have hle := hhead u hu
        simp only [decide_eq_true_eq]
        omega

theorem CrashInv.prune (h : CrashInv limits w) {now : ℤ} (hnow : w.clock ≤ now) :
    ∃ dropped, w.crashes =
        dropped ++ (w.guardrails.pruneCrashWindow limits now).crashTimestamps ∧
      ∀ t ∈ dropped, t < now - limits.crashWindowMs := by
  obtain ⟨dropped, hcrashes, hdropped⟩ := h.kept
  refine ⟨dropped ++ w.guardrails.crashTimestamps.takeWhile
    (fun t => t < now - limits.crashWindowMs), ?_, ?_⟩
  · rw [TurnGuardrails.pruneCrashWindow, append_assoc, takeWhile_append_dropWhile]
    exact hcrashes
  · intro t ht
    obtain ht | ht := mem_append.mp ht
    · have hlt := hdropped t ht
      omega
    · simpa using mem_takeWhile_imp ht

/-- A call drops only crashes that have left the window. -/
theorem crashInv_step (h : CrashInv limits w) (htime : Timely w call) :
    CrashInv limits (step limits w call) := by
  -- a call that leaves the crashes alone
  have hsame (now : ℤ) (hnow : w.clock ≤ now) :
      (∃ dropped, w.crashes = dropped ++ w.guardrails.crashTimestamps ∧
        ∀ t ∈ dropped, t < now - limits.crashWindowMs) ∧ ∀ t ∈ w.crashes, t ≤ now := by
    obtain ⟨dropped, hcrashes, hdropped⟩ := h.kept
    refine ⟨⟨dropped, hcrashes, fun t ht => ?_⟩, fun t ht => (h.past t ht).trans hnow⟩
    have hlt := hdropped t ht
    omega
  cases call with
  | noteTurnEnd => exact ⟨h.kept, h.sorted, h.past⟩
  | noteTurnStart now =>
    obtain ⟨hkept, hpast⟩ := hsame now (htime now rfl)
    exact ⟨hkept, h.sorted, hpast⟩
  | enterApprovalWait now =>
    obtain ⟨hkept, hpast⟩ := hsame now (htime now rfl)
    refine ⟨?_, h.sorted, hpast⟩
    simp only [step, TurnGuardrails.enterApprovalWait]
    split <;> exact hkept
  | settleApprovalWait outstandingApprovals now =>
    obtain ⟨hkept, hpast⟩ := hsame now (htime now rfl)
    refine ⟨?_, h.sorted, hpast⟩
    simp only [step, TurnGuardrails.settleApprovalWait]
    split
    · exact hkept
    · split <;> exact hkept
  | isCrashLooping now =>
    obtain ⟨-, hpast⟩ := hsame now (htime now rfl)
    exact ⟨h.prune (htime now rfl), h.sorted, hpast⟩
  | recordCrash now =>
    obtain ⟨-, hpast⟩ := hsame now (htime now rfl)
    obtain ⟨dropped, hcrashes, hdropped⟩ := h.prune (htime now rfl)
    refine ⟨⟨dropped, ?_, hdropped⟩, ?_, ?_⟩
    · simp only [step, TurnGuardrails.recordCrash]
      rw [← append_assoc, ← hcrashes]
    · refine pairwise_append.mpr ⟨h.sorted, pairwise_singleton _ _, ?_⟩
      intro t ht u hu
      rw [mem_singleton.mp hu]
      exact hpast t ht
    · intro t ht
      obtain ht | ht := mem_append.mp ht
      · exact hpast t ht
      · exact (mem_singleton.mp ht).le
  | reset now =>
    refine ⟨⟨[], rfl, fun t ht => absurd ht not_mem_nil⟩, List.Pairwise.nil, fun t ht => ?_⟩
    exact absurd ht not_mem_nil

theorem CrashInv.isCrashLooping_iff (h : CrashInv limits w) {now : ℤ} (hnow : w.clock ≤ now) :
    (w.guardrails.isCrashLooping limits now).1 = true ↔
      limits.maxRespawns ≤
        (w.crashes.filter fun t => now - limits.crashWindowMs ≤ t).length := by
  obtain ⟨dropped, hcrashes, hdropped⟩ := h.kept
  have hsorted : w.guardrails.crashTimestamps.Pairwise (· ≤ ·) := by
    have hall := h.sorted
    rw [hcrashes] at hall
    exact (pairwise_append.mp hall).2.1
  have hnone : dropped.filter (fun t => now - limits.crashWindowMs ≤ t) = [] := by
    rw [filter_eq_nil_iff]
    intro t ht
    have hlt := hdropped t ht
    simp only [decide_eq_true_eq]
    omega
  rw [hcrashes, filter_append, hnone, ← dropWhile_lt_eq_filter hsorted]
  exact decide_eq_true_iff

/-! ## The budget of a turn -/

structure BudgetInv (w : Watched) : Prop where
  settled : w.waitSince = none → w.guardrails.approvalWaitStartedMs = none
  idle : w.turnStart = none → w.guardrails.turnStartedAtMs = none
  active : ∀ start, w.turnStart = some start → start ≤ w.clock ∧
    w.guardrails.turnStartedAtMs = some (start + waitedSince start w.waits) ∧
    w.guardrails.approvalWaitStartedMs = w.waitSince ∧
    ∀ since, w.waitSince = some since → start ≤ since
  since : ∀ since, w.waitSince = some since → since ≤ w.clock
  past : ∀ wait ∈ w.waits, wait.2 ≤ w.clock

theorem waitedSince_eq_zero {start : ℤ} {waits : List (ℤ × ℤ)}
    (h : ∀ wait ∈ waits, wait.2 ≤ start) : waitedSince start waits = 0 := by
  apply sum_eq_zero
  intro n hn
  obtain ⟨wait, hwait, rfl⟩ := mem_map.mp hn
  have hle := h wait hwait
  omega

theorem waitedSince_append_single {start since now : ℤ} {waits : List (ℤ × ℤ)}
    (hsince : start ≤ since) (hnow : since ≤ now) :
    waitedSince start (waits ++ [(since, now)]) = waitedSince start waits + (now - since) := by
  simp only [waitedSince, map_append, map_cons, map_nil, sum_append, sum_cons, sum_nil]
  omega

theorem budgetInv_enter (h : BudgetInv w) {now : ℤ} (hnow : w.clock ≤ now) :
    BudgetInv (step limits w (.enterApprovalWait now)) := by
  have hwait : ∀ since, some (w.waitSince.getD now) = some since → since ≤ now := by
    intro since hsome
    cases hw : w.waitSince with
    | none =>
      rw [hw] at hsome
      exact (Option.some.inj hsome).ge
    | some old =>
      rw [hw] at hsome
      exact Option.some.inj hsome ▸ (h.since old hw).trans hnow
  refine ⟨(fun hnone => nomatch hnone), fun hidle => ?_, fun start hstart => ?_, hwait,
    fun wait hmem => (h.past wait hmem).trans hnow⟩
  · simp only [step, TurnGuardrails.enterApprovalWait]
    split <;> exact h.idle hidle
  · obtain ⟨hle, hstamp, hsame, hafter⟩ := h.active start hstart
    refine ⟨hle.trans hnow, ?_⟩
    simp only [step, TurnGuardrails.enterApprovalWait]
    cases hw : w.waitSince with
    | none =>
      rw [hsame, hw]
      exact ⟨hstamp, rfl, fun since hsome => Option.some.inj hsome ▸ hle.trans hnow⟩
    | some old =>
      rw [hsame, hw]
      refine ⟨hstamp, hsame.trans hw, fun since hsome => ?_⟩
      exact Option.some.inj hsome ▸ hafter old hw

theorem budgetInv_settle (h : BudgetInv w) (outstandingApprovals : ℕ) {now : ℤ}
    (hnow : w.clock ≤ now) :
    BudgetInv (step limits w (.settleApprovalWait outstandingApprovals now)) := by
  have hpast : ∀ wait ∈ w.waits, wait.2 ≤ now := fun wait hmem => (h.past wait hmem).trans hnow
  by_cases hmore : 0 < outstandingApprovals
  · have hkeep : w.guardrails.settleApprovalWait outstandingApprovals now = w.guardrails := by
      simp only [TurnGuardrails.settleApprovalWait, if_pos hmore]
      split <;> rfl
    simp only [step, hkeep, if_pos hmore]
    refine ⟨h.settled, h.idle, fun start hstart => ?_, fun since hsome => ?_, hpast⟩
    · obtain ⟨hle, hrest⟩ := h.active start hstart
      exact ⟨hle.trans hnow, hrest⟩
    · exact (h.since since hsome).trans hnow
  · simp only [step, if_neg hmore]
    have hclosed : (w.guardrails.settleApprovalWait outstandingApprovals
        now).approvalWaitStartedMs = none := by
      simp only [TurnGuardrails.settleApprovalWait, if_neg hmore]
      split
      · assumption
      · rfl
    refine ⟨fun _ => hclosed, fun hidle => ?_, fun start hstart => ?_, (fun _ h => nomatch h), ?_⟩
    · simp only [TurnGuardrails.settleApprovalWait, if_neg hmore]
      split
      · exact h.idle hidle
      · rw [h.idle hidle]
        rfl
    · obtain ⟨hle, hstamp, hsame, hafter⟩ := h.active start hstart
      refine ⟨hle.trans hnow, ?_, hclosed, (fun _ h => nomatch h)⟩
      simp only [TurnGuardrails.settleApprovalWait, if_neg hmore, hsame]
      cases hw : w.waitSince with
      | none => simp [hstamp]
      | some since =>
        -- the stamp moves by exactly what the record adds
        have hadd := @waitedSince_append_single _ _ _ w.waits (hafter since hw)
          ((h.since since hw).trans hnow)
        simp [hstamp, hadd, add_assoc]
    · intro wait hmem
      obtain hmem | hmem := mem_append.mp hmem
      · exact hpast wait hmem
      · obtain ⟨since, -, rfl⟩ := Option.map_eq_some_iff.mp (Option.mem_toList.mp hmem)
        exact le_rfl

/-- A call keeps the start stamp and the time spent waiting. -/
theorem budgetInv_step (h : BudgetInv w) (htime : Timely w call) (hstarts : StartsSettled w call) :
    BudgetInv (step limits w call) := by
  -- a call that moves the clock only
  have hsame (now : ℤ) (hnow : w.clock ≤ now) (g : TurnGuardrails)
      (hturn : g.turnStartedAtMs = w.guardrails.turnStartedAtMs)
      (hwait : g.approvalWaitStartedMs = w.guardrails.approvalWaitStartedMs) (crashes : List ℤ) :
      BudgetInv ⟨g, now, w.turnStart, w.waitSince, w.waits, crashes⟩ := by
    refine ⟨fun hnone => hwait.trans (h.settled hnone), fun hidle => hturn.trans (h.idle hidle),
      fun start hstart => ?_, fun since hsome => (h.since since hsome).trans hnow,
      fun wait hmem => (h.past wait hmem).trans hnow⟩
    obtain ⟨hle, hstamp, heq, hafter⟩ := h.active start hstart
    exact ⟨hle.trans hnow, hturn.trans hstamp, hwait.trans heq, hafter⟩
  cases call with
  | noteTurnStart now =>
    have hnow := htime now rfl
    refine ⟨h.settled, (fun hnone => nomatch hnone), fun start hstart => ?_,
      fun since hsome => (h.since since hsome).trans hnow,
      fun wait hmem => (h.past wait hmem).trans hnow⟩
    obtain rfl := Option.some.inj hstart
    have hzero := waitedSince_eq_zero fun wait hmem => (h.past wait hmem).trans hnow
    refine ⟨le_rfl, ?_, ?_, fun since hsome => ?_⟩
    · simp only [step, TurnGuardrails.noteTurnStart, hzero, add_zero]
    · exact (h.settled hstarts).trans hstarts.symm
    · cases hstarts.symm.trans hsome
  | noteTurnEnd => exact ⟨fun _ => rfl, fun _ => rfl, (fun _ h => nomatch h), h.since, h.past⟩
  | enterApprovalWait now => exact budgetInv_enter h (htime now rfl)
  | settleApprovalWait outstandingApprovals now =>
    exact budgetInv_settle h outstandingApprovals (htime now rfl)
  | recordCrash now =>
    exact hsame now (htime now rfl) (w.guardrails.recordCrash limits now) rfl rfl _
  | isCrashLooping now =>
    exact hsame now (htime now rfl) (w.guardrails.isCrashLooping limits now).2 rfl rfl _
  | reset now =>
    refine ⟨fun _ => rfl, fun _ => rfl, (fun _ h => nomatch h), (fun _ h => nomatch h), ?_⟩
    exact fun wait hmem => (h.past wait hmem).trans (htime now rfl)

end Runs

/-- **Turn guardrails**: on a clock that does not go back, the breaker counts the crashes of the
    window; and where no turn starts while an approval is waited for, a turn is overdue exactly
    when its time without the waiting exceeds the timeout. -/
theorem guardrails_count_work (limits : TurnGuardrailLimits) (startedAt : ℤ) {calls : List Call}
    (htime : Guarded (step limits) Timely { clock := startedAt } calls) {w : Watched}
    (hw : w = exec (step limits) { clock := startedAt } calls) :
    (∀ now, w.clock ≤ now →
      ((w.guardrails.isCrashLooping limits now).1 = true ↔ limits.maxRespawns ≤
        (w.crashes.filter fun t => now - limits.crashWindowMs ≤ t).length)) ∧
    (Guarded (step limits) StartsSettled { clock := startedAt } calls →
      ∀ start, w.turnStart = some start → w.waitSince = none → ∀ turnTimeoutMs now,
        (w.guardrails.isTurnOverdue turnTimeoutMs now = true ↔
          turnTimeoutMs < w.workTime start now)) := by
  constructor
  · have hcrash : CrashInv limits w := by
      rw [hw]
      exact exec_invariant_of_guarded (fun _ _ h ht => crashInv_step h ht)
        ⟨⟨[], rfl, (fun _ h => nomatch h)⟩, List.Pairwise.nil, (fun _ h => nomatch h)⟩ htime
    exact fun now hnow => hcrash.isCrashLooping_iff hnow
  · intro hstarts start hstart _ turnTimeoutMs now
    have hbudget : BudgetInv w := by
      rw [hw]
      refine exec_invariant_of_guarded (fun _ _ h hg => budgetInv_step h hg.1 hg.2) ?_
        (htime.and hstarts)
      exact ⟨fun _ => rfl, fun _ => rfl, (fun _ h => nomatch h), (fun _ h => nomatch h),
        (fun _ h => nomatch h)⟩
    obtain ⟨-, hstamp, -⟩ := hbudget.active start hstart
    simp only [TurnGuardrails.isTurnOverdue, hstamp, Watched.workTime, decide_eq_true_eq]
    omega

def oneMinute : TurnGuardrailLimits := ⟨60000, 3⟩

def waitingTurn : List Call :=
  [.noteTurnStart 10, .enterApprovalWait 20, .enterApprovalWait 30, .settleApprovalWait 1 40,
    .settleApprovalWait 0 50]

theorem overdue_waitingTurn :
    (exec (step oneMinute) { clock := 0 } waitingTurn).guardrails.isTurnOverdue 15 60 = true ↔
      (15 : ℤ) < (exec (step oneMinute) { clock := 0 } waitingTurn).workTime 10 60 := by
  have htime : Guarded (step oneMinute) Timely { clock := 0 } waitingTurn := by
    simp [waitingTurn, Guarded, Timely, Call.now, step]
  exact (guardrails_count_work oneMinute 0 htime rfl).2 (by simp [waitingTurn, Guarded,
    StartsSettled]) 10 rfl rfl 15 60

/-- A wait from 0 to 20 around the start of a turn at 10: all of it is paid back, so that at 26 the
    turn, which has worked for 6, is not overdue after 5. -/
theorem overpaid_wait :
    let w := exec (step oneMinute) { clock := 0 }
      [.enterApprovalWait 0, .noteTurnStart 10, .settleApprovalWait 0 20]
    w.turnStart = some 10 ∧ w.waitSince = none ∧ w.workTime 10 26 = 6 ∧
      w.guardrails.isTurnOverdue 5 26 = false := by
  decide

end RelayIde.Adapters
