import RelayIde.Callback.Lifecycle
import RelayIde.Library.Links

/-!
# Restart Recovery

`recoverCompletionCallbacks` runs once when the server starts.  An edge it leaves pending is
alive only through a satisfied descendant, whose re-offer will wake the chain.

- `recovery_complete_iff` — recovery leaves no dead edge exactly when no edge was abandoned
-/

namespace RelayIde.Callback

open RelayIde.Library List

/-! ## The forest of unsettled edges -/

/-- Unsettled edges form a forest along the storage order. -/
structure ForestInv (t : CallbackTable) : Prop where
  parent_stored : ∀ e ∈ t.rows, e.state.unsettled = true →
    ∀ id, e.continuationParentCallbackId = some id → ∃ p ∈ t.rows, p.id = id
  not_self : ∀ e ∈ t.rows, e.state.unsettled = true → e.continuationParentCallbackId ≠ some e.id
  ordered : t.rows.Pairwise (fun a b => a.state.unsettled = true →
    a.continuationParentCallbackId ≠ some b.id)

variable {t : CallbackTable} {e : CallbackEdge} {now : Timestamp} {lookup : TerminalLookup}

variable {k : OpKind} {e' : CallbackEdge} {t' : CallbackTable}

private theorem RowStep.unsettled_of
    (h : RowStep t k e e') (hu : e'.state.unsettled = true) : e.state.unsettled = true := by
  rcases h with rfl | hupd
  · exact hu
  · cases hs : e.state.unsettled with
    | true => rfl
    | false =>
      rw [hupd.move.eq_of_settled hs, hs] at hu
      cases hu

private theorem ForestInv.micros (h : Micros k t t') (hinv : ForestInv t) : ForestInv t' := by
  induction h with
  | refl => exact hinv
  | tail _ hmicro ih =>
    cases hmicro with
    | update v p f hrows hupd =>
      refine ⟨?_, ?_, ?_⟩
      · intro e' he' hu id hparent
        obtain ⟨e, he, hstep⟩ := rowStep_of_mem_update hrows hupd he'
        rw [hstep.parent_eq] at hparent
        obtain ⟨q, hq, hqid⟩ := ih.parent_stored e he (hstep.unsettled_of hu) id hparent
        obtain ⟨q', hq', hqstep⟩ := exists_rowStep_of_mem hrows hupd hq
        exact ⟨q', hq', hqstep.id_eq.trans hqid⟩
      · intro e' he' hu
        obtain ⟨e, he, hstep⟩ := rowStep_of_mem_update hrows hupd he'
        rw [hstep.parent_eq, hstep.id_eq]
        exact ih.not_self e he (hstep.unsettled_of hu)
      · rw [hrows, pairwise_map]
        refine ih.ordered.imp_of_mem ?_
        intro a b ha hb hab hu
        have hstep : ∀ e ∈ _, RowStep _ k e (if p e = true then f e else e) := fun e he => by
          by_cases hp : p e = true
          · rw [if_pos hp]
            exact .inr (hupd e he hp)
          · rw [if_neg hp]
            exact .inl rfl
        rw [(hstep a ha).parent_eq, (hstep b hb).id_eq]
        exact hab ((hstep a ha).unsettled_of hu)
    | sweep cutoff hk =>
      refine ⟨?_, ?_, ?_⟩
      · intro e he hu id hparent
        have he := (mem_filter.mp he).1
        obtain ⟨q, hq, hqid⟩ := ih.parent_stored e he hu id hparent
        refine ⟨q, mem_filter.mpr ⟨hq, ?_⟩, hqid⟩
        -- the parent of an unsettled edge is not selected
        rw [Bool.not_eq_true']
        cases hp : prunable _ cutoff q with
        | false => rfl
        | true =>
          have hchild : ParentOf _ q e := ⟨hq, he, by simp [CallbackEdge.childOf, hparent, hqid]⟩
          rw [not_unsettled_of_prunable hp hchild] at hu
          cases hu
      · intro e he hu
        exact ih.not_self e (mem_filter.mp he).1 hu
      · exact ih.ordered.sublist filter_sublist

private theorem ForestInv.insert {input : CreateInput}
    (hcreated : Created t now input t') (hinv : ForestInv t) :
    ForestInv (t.insert (input.newEdge now)) := by
  have hnew : ∀ p ∈ t.rows, p.id ≠ input.id := (t.find?_eq_none_iff input.id).mp hcreated.fresh
  refine ⟨?_, ?_, ?_⟩
  · intro e he hu id hparent
    rcases (hcreated.mem_insert e).mp he with he | rfl
    · obtain ⟨p, hp, hpid⟩ := hinv.parent_stored e he hu id hparent
      exact ⟨p, (hcreated.mem_insert p).mpr (.inl hp), hpid⟩
    · obtain ⟨p, hp, hpid, -⟩ := hcreated.parent id hparent
      exact ⟨p, (hcreated.mem_insert p).mpr (.inl hp), hpid⟩
  · intro e he hu
    rcases (hcreated.mem_insert e).mp he with he | rfl
    · exact hinv.not_self e he hu
    · intro hparent
      obtain ⟨p, hp, hpid, -⟩ := hcreated.parent _ hparent
      exact hnew p hp hpid
  · rw [Table.rows_insert_of_new t (input.newEdge now) hcreated.fresh, pairwise_append]
    refine ⟨hinv.ordered, pairwise_singleton _ _, ?_⟩
    intro a ha b hb hu hparent
    rw [mem_singleton] at hb
    subst hb
    obtain ⟨p, hp, hpid⟩ := hinv.parent_stored a ha hu _ hparent
    exact hnew p hp hpid

theorem ForestInv.step {op : CallbackOp} (hinv : ForestInv t) : ForestInv (step t op) := by
  by_cases hkind : op.kind = .create
  · cases op with
    | create now input =>
      rcases step_create t now input with heq | hcreated
      · rw [heq]
        exact hinv
      · rw [hcreated.result]
        exact (ForestInv.insert hcreated hinv).micros (takeIntent_micro _ now _)
    | _ => cases hkind
  · exact hinv.micros (step_micro t op hkind)

theorem forestInv_empty : ForestInv Table.empty :=
  ⟨fun e he => absurd he (by simp), fun e he => absurd he (by simp), List.Pairwise.nil⟩

theorem forestInv_of_reaches (h : Reaches step Table.empty t) : ForestInv t := by
  obtain ⟨ops, rfl⟩ := h
  exact exec_invariant (fun _ _ => ForestInv.step) ops forestInv_empty

/-! ## What recovery does to a row -/

def recoveredState (t : CallbackTable) (e : CallbackEdge) : CallbackState :=
  match e.state with
  | .delivered => .satisfied
  | .pending => if e.awaitingChild && hasChild t e.id then .pending else .satisfied
  | s => s

/-- The rewrite of one row by the three statements of the recovery. -/
def recoverRow (t : CallbackTable) (now : Timestamp) (lookup : TerminalLookup)
    (e : CallbackEdge) : CallbackEdge :=
  let reoffered := if e.state == .delivered then e.reoffer now else e
  let undeferred :=
    if reoffered.state == .pending && reoffered.awaitingChild && !hasChild t reoffered.id
    then reoffered.dropDefer now else reoffered
  if undeferred.state == .pending && !undeferred.awaitingChild
  then undeferred.satisfyWith now (recoveredEvidence (lookup undeferred)) else undeferred

section
variable (t : CallbackTable) (now : Timestamp) (lookup : TerminalLookup)

theorem rows_recoverImpl :
    (recoverCompletionCallbacksImpl t now lookup).1.rows = t.rows.map
    (recoverRow t now lookup) := by
  let reoffered : CallbackTable :=
    t.updateWhere (fun e => e.state == .delivered) (fun e => e.reoffer now)
      (Table.keyed fun _ => rfl)
  -- the second statement looks for children in the table the first one left
  have hlinks : ∀ id, hasChild reoffered id = hasChild t id := by
    intro id
    simp only [hasChild, reoffered, Table.rows_updateWhere, any_map]
    congr 1
    funext e
    simp only [Function.comp_apply]
    split <;> rfl
  have hrows : (recoverCompletionCallbacksImpl t now lookup).1.rows =
      ((t.rows.map (fun e => if e.state == .delivered then e.reoffer now else e)).map
        (fun e => if e.state == .pending && e.awaitingChild && !hasChild reoffered e.id
          then e.dropDefer now else e)).map
        (fun e => if e.state == .pending && !e.awaitingChild
          then e.satisfyWith now (recoveredEvidence (lookup e)) else e) := rfl
  rw [hrows, map_map, map_map]
  refine map_congr_left (fun e _ => ?_)
  simp only [Function.comp_apply, hlinks]
  rfl

variable (e : CallbackEdge)

@[simp] theorem id_recoverRow : (recoverRow t now lookup e).id = e.id := by
  unfold recoverRow
  simp only
  split <;> split <;> split <;> rfl

@[simp] theorem parent_recoverRow :
    (recoverRow t now lookup e).continuationParentCallbackId =
      e.continuationParentCallbackId := by
  unfold recoverRow
  simp only
  split <;> split <;> split <;> rfl

theorem state_recoverRow : (recoverRow t now lookup e).state = recoveredState t e := by
  unfold recoverRow recoveredState
  cases hstate : e.state with
  | pending =>
    cases hawait : e.awaitingChild <;> cases hchild : hasChild t e.id <;>
      simp [hstate, hawait, hchild, CallbackEdge.satisfyWith, CallbackEdge.dropDefer]
  | _ => simp [hstate, CallbackEdge.reoffer]

end

theorem unsettled_recoveredState (t : CallbackTable) (e : CallbackEdge) :
    (recoveredState t e).unsettled = e.state.unsettled := by
  unfold recoveredState
  cases e.state with
  | pending =>
    simp only
    split <;> rfl
  | _ => rfl

theorem mem_recover (h : e' ∈ (step t (.recover now lookup)).rows) :
    ∃ e ∈ t.rows, recoverRow t now lookup e = e' := by
  have hmem := (mem_filter.mp h).1
  rw [rows_recoverImpl, mem_map] at hmem
  exact hmem

theorem recoverRow_mem (now : Timestamp) (lookup : TerminalLookup)
    {e : CallbackEdge} (he : e ∈ t.rows) (hu : e.state.unsettled = true) :
    recoverRow t now lookup e ∈ (step t (.recover now lookup)).rows := by
  refine mem_filter.mpr ⟨?_, ?_⟩
  · rw [rows_recoverImpl]
    exact mem_map.mpr ⟨e, he, rfl⟩
  · have hset : (recoverRow t now lookup e).state.unsettled = true := by
      rw [state_recoverRow, unsettled_recoveredState, hu]
    simp [prunable, hset]

/-! ## When recovery strands nothing -/

structure RecoveryComplete (t : CallbackTable) : Prop where
  satisfied_below : ∀ e ∈ t.rows, e.state = .pending →
    ∃ d, AncestorOf t e d ∧ d.state = .satisfied
  open_child : ∀ e ∈ t.rows, e.state = .pending →
    ¬ ∀ c, ParentOf t e c → c.state.unsettled = false

/-- A deferred edge with children, all of them consumed or undeliverable. -/
def Abandoned (t : CallbackTable) (e : CallbackEdge) : Prop :=
  e ∈ t.rows ∧ e.state = .pending ∧ e.awaitingChild = true ∧ hasChild t e.id = true ∧
    ∀ c, ParentOf t e c → c.state.unsettled = false

private theorem pending_recoverRow
    (h : (recoverRow t now lookup e).state = .pending) :
    e.state = .pending ∧ e.awaitingChild = true ∧ hasChild t e.id = true := by
  rw [state_recoverRow, recoveredState] at h
  cases hstate : e.state <;> simp_all

private theorem open_recoverRow (hu : e.state.unsettled = true) :
    (recoverRow t now lookup e).state = .satisfied ∨
      (recoverRow t now lookup e).state = .pending := by
  rw [state_recoverRow, recoveredState]
  cases hstate : e.state with
  | pending =>
    simp only
    split
    · exact .inr rfl
    · exact .inl rfl
  | satisfied | delivered => exact .inl rfl
  | consumed | undeliverable => rw [hstate] at hu; cases hu

private theorem open_child_of_pending (hno : ∀ e, ¬ Abandoned t e)
    (he' : e' ∈ (step t (.recover now lookup)).rows) (hpending : e'.state = .pending) :
    ∃ c', ParentOf (step t (.recover now lookup)) e' c' ∧
      (c'.state = .satisfied ∨ c'.state = .pending) := by
  obtain ⟨e, he, rfl⟩ := mem_recover he'
  obtain ⟨hstate, hawait, hchild⟩ := pending_recoverRow hpending
  have hopen : ∃ c, ParentOf t e c ∧ c.state.unsettled = true := by
    by_contra hall
    push Not at hall
    exact hno e ⟨he, hstate, hawait, hchild, fun c hc => by simpa using hall c hc⟩
  obtain ⟨c, hc, hu⟩ := hopen
  refine ⟨recoverRow t now lookup c, ⟨he', recoverRow_mem now lookup hc.2.1 hu, ?_⟩,
    open_recoverRow hu⟩
  have hlink := hc.2.2
  simp only [CallbackEdge.childOf, beq_iff_eq] at hlink ⊢
  simp [hlink]

private theorem recoveryComplete_of_not_abandoned (now : Timestamp)
    (lookup : TerminalLookup) (hforest : ForestInv (step t (.recover now lookup)))
    (hno : ∀ e, ¬ Abandoned t e) : RecoveryComplete (step t (.recover now lookup)) := by
  refine ⟨?_, ?_⟩
  · intro e' he' hpending
    refine exists_transGen_of_later (step t (.recover now lookup)).rows
      (fun e => e ∈ (step t (.recover now lookup)).rows ∧ e.state = .pending)
      ?_ he' ⟨he', hpending⟩
    rintro pre x post hrows ⟨hx, hxpending⟩
    obtain ⟨c, hxc, hc⟩ := open_child_of_pending hno hx hxpending
    have hu : c.state.unsettled = true := by
      rcases hc with hc | hc <;> rw [hc] <;> rfl
    have hparent : c.continuationParentCallbackId = some x.id := by
      simpa [CallbackEdge.childOf] using hxc.2.2
    refine ⟨c, ?_, hxc, hc.imp_right fun h => ⟨hxc.2.1, h⟩⟩
    -- an unsettled child is stored after its parent
    apply mem_later_of_pairwise hrows hforest.ordered hxc.2.1
    · rintro rfl
      exact hforest.not_self c hx hu hparent
    · intro hbefore
      exact hbefore hu hparent
  · intro e' he' hpending hall
    obtain ⟨c, hec, hc⟩ := open_child_of_pending hno he' hpending
    have hsettled := hall c hec
    rcases hc with hc | hc <;> rw [hc] at hsettled <;> cases hsettled

private theorem not_abandoned_of_recoveryComplete
    (h : RecoveryComplete (step t (.recover now lookup)))
    (e : CallbackEdge) : ¬ Abandoned t e := by
  rintro ⟨he, hstate, hawait, hchild, hall⟩
  have hkept := recoverRow_mem now lookup he (by rw [hstate]; rfl)
  have hpending : (recoverRow t now lookup e).state = .pending := by
    rw [state_recoverRow, recoveredState, hstate]
    simp [hawait, hchild]
  apply h.open_child _ hkept hpending
  rintro c' ⟨-, hc', hlink⟩
  obtain ⟨c, hc, rfl⟩ := mem_recover hc'
  rw [state_recoverRow, unsettled_recoveredState]
  apply hall c
  refine ⟨he, hc, ?_⟩
  simpa [CallbackEdge.childOf] using hlink

/-- **Restart recovery**: recovery leaves no dead pending edge exactly when, at the stop, no
    deferred edge had only settled children. -/
theorem recovery_complete_iff (t : CallbackTable) (hreach : Reaches step Table.empty t)
    (now : Timestamp) (lookup : TerminalLookup) :
    RecoveryComplete (step t (.recover now lookup)) ↔ ∀ e, ¬ Abandoned t e := by
  constructor
  · exact fun h => not_abandoned_of_recoveryComplete h
  · exact recoveryComplete_of_not_abandoned now lookup (forestInv_of_reaches hreach).step

/-! ## Fixed runs -/

/-- `A` asks `B` and `B` asks `C`.  `C`'s completion is accepted by `B`, and the server stops
    before the turn of `B` that it started has ended. -/
def stopBeforeContinuation : List CallbackOp :=
  [ .create 1 (.forTurn "b" "A" "B" none),
    .defer 2 "room" "B" "b" 1,
    .create 3 (.forTurn "c" "B" "C" (some "b")),
    .satisfy 4 ⟨"room", "B", "b", bareEvidence⟩,
    .satisfy 5 ⟨"room", "C", "c", bareEvidence⟩,
    .claim 6 100,
    .consume 7 ⟨"c"⟩ ]

/-- After `stopBeforeContinuation`, recovery leaves the edge of `B` pending over its consumed
    child: nothing is satisfied, and nothing will wake it. -/
theorem recovery_strands_consumed_child :
    Reaches step Table.empty (exec step Table.empty stopBeforeContinuation) ∧
      ¬ RecoveryComplete (step (exec step Table.empty stopBeforeContinuation)
        (.recover 8 (fun _ => none))) := by
  refine ⟨⟨_, rfl⟩, fun h => ?_⟩
  have hcheck : (step (exec step Table.empty stopBeforeContinuation)
      (.recover 8 (fun _ => none))).rows.all (fun e =>
        e.state == .pending || !e.state.unsettled) = true ∧
      (step (exec step Table.empty stopBeforeContinuation)
        (.recover 8 (fun _ => none))).rows.any (fun e => e.state == .pending) = true := by
    decide
  obtain ⟨e, he, hpending⟩ := any_eq_true.mp hcheck.2
  obtain ⟨d, hed, hd⟩ := h.satisfied_below e he (by simpa using hpending)
  rcases Relation.TransGen.tail'_iff.mp hed with ⟨p, -, hpd⟩
  have hall := all_eq_true.mp hcheck.1 d hpd.2.1
  rw [hd] at hall
  cases hall

/-- A server that stops while `C` still works recovers every edge. -/
theorem recovery_complete_of_open_child :
    RecoveryComplete (step (exec step Table.empty (stopBeforeContinuation.take 3))
      (.recover 8 (fun _ => none))) := by
  apply (recovery_complete_iff _ ⟨_, rfl⟩ _ _).mpr
  rintro e ⟨he, hstate, hawait, -, hall⟩
  have hcheck : (exec step Table.empty (stopBeforeContinuation.take 3)).rows.all (fun e =>
      e.awaitingChild == false ||
        (exec step Table.empty (stopBeforeContinuation.take 3)).rows.any (fun c =>
          c.childOf e.id && c.state.unsettled)) = true := by
    decide
  have hopen := all_eq_true.mp hcheck e he
  rw [hawait] at hopen
  simp only [Bool.or_eq_true, beq_iff_eq, Bool.true_eq_false, false_or, any_eq_true,
    Bool.and_eq_true] at hopen
  obtain ⟨c, hc, hlink, hu⟩ := hopen
  have hsettled := hall c ⟨he, hc, hlink⟩
  rw [hu] at hsettled
  cases hsettled

end RelayIde.Callback
