import RelayIde.Callback.Lifecycle

/-!
# Completion Fan-in

A delegated turn that delegates further owes its own callback once every announced child has
resolved.  The store decides this in three places: when the turn's evidence arrives, when a
child's continuation completes, and when an announced intent is released.

- `callback_fan_in` — fan-in along every run whose last obligation of an edge is closed by a
  writer that looks at the edge
-/

namespace RelayIde.Callback

open RelayIde.Library List

/-! ## The operations of a fan-in -/

/-- The operations of one server run; retention and recovery are not among them. -/
def CallbackOp.inFanIn (op : CallbackOp) : Bool :=
  match op.kind with
  | .terminalize | .recover | .prune => false
  | _ => true

abbrev FanInOp := { op : CallbackOp // op.inFanIn = true }

/-- The table, and the ids of the edges that were consumed by an explicit return.  The table
    itself does not tell these from edges consumed by an accepted continuation. -/
structure FanInWorld where
  table : CallbackTable
  returned : List CallbackId

def returnedBy (t : CallbackTable) : CallbackOp → List CallbackId
  | .explicitReturn _ input => (t.rows.filter input.selects).map CallbackEdge.id
  | .ancestorReturn _ id =>
    (t.rows.filter (fun e => e.id == id && e.state.unsettled)).map CallbackEdge.id
  | _ => []

def FanInWorld.step (w : FanInWorld) (op : FanInOp) : FanInWorld :=
  { table := Callback.step w.table op.1
    returned := w.returned ++ returnedBy w.table op.1 }

/-- No edge, nothing returned. -/
def FanInWorld.empty : FanInWorld := ⟨Table.empty, []⟩

/-- A child is resolved: its continuation completed, or an explicit return consumed it. -/
def Resolved (w : FanInWorld) (c : CallbackEdge) : Prop :=
  c.continuationCompletedAt ≠ none ∨ c.id ∈ w.returned

structure FanInHolds (w : FanInWorld) : Prop where
  /-- A satisfied edge has no open intent and no unresolved child. -/
  safe : ∀ p ∈ w.table.rows, p.state = .satisfied →
    p.pendingChildIntents = 0 ∧ ∀ c, ParentOf w.table p c → Resolved w c
  /-- An edge with evidence, no open intent and no unresolved child is not pending. -/
  live : ∀ p ∈ w.table.rows, p.pendingChildIntents = 0 →
    (∀ c, ParentOf w.table p c → Resolved w c) → p.terminalReason ≠ none → p.state ≠ .pending

/-! ## What the table keeps -/

structure FanInTable (t : CallbackTable) : Prop where
  intents_nonneg : ∀ e ∈ t.rows, 0 ≤ e.pendingChildIntents
  linked : ∀ e ∈ t.rows, ∀ id, e.continuationParentCallbackId = some id →
    ∃ p ∈ t.rows, p.id = id
  undeferred : ∀ e ∈ t.rows, e.state = .pending → e.awaitingChild = false →
    e.pendingChildIntents = 0 ∧ hasChild t e.id = false ∧ e.terminalReason = none
  satisfied : ∀ e ∈ t.rows, e.state = .satisfied ∨ e.state = .delivered →
    e.pendingChildIntents = 0 ∧
      ∀ c ∈ t.rows, c.childOf e.id = true → c.continuationCompletedAt ≠ none

def OpKind.inFanIn : OpKind → Bool
  | .terminalize | .recover | .prune => false
  | _ => true

theorem FanInOp.kind_inFanIn (op : FanInOp) : op.1.kind.inFanIn = true := by
  obtain ⟨op, hop⟩ := op
  cases op <;> first | rfl | cases hop

variable {t t' : CallbackTable} {k : OpKind} {e e' : CallbackEdge} {now : Timestamp}
  {returned : List CallbackId} {w : FanInWorld} {op : FanInOp}

private theorem RowStep.completed (h : RowStep t k e e') (he : e.continuationCompletedAt ≠ none) :
    e'.continuationCompletedAt ≠ none := by
  rcases h with rfl | hupd
  · exact he
  · cases hupd with
    | markCompleted => exact Option.some_ne_none _
    | _ => exact he

private theorem RowStep.childOf_eq
    (h : RowStep t k e e') (id : CallbackId) : e'.childOf id = e.childOf id := by
  rw [CallbackEdge.childOf, CallbackEdge.childOf, h.parent_eq]

private theorem RowUpdate.undeferred
    (hk : k.inFanIn = true) (h : RowUpdate t k e e') (hstate : e'.state = .pending)
    (hawait : e'.awaitingChild = false) :
    (e.state = .pending ∧ e.awaitingChild = false ∧
        e'.pendingChildIntents = e.pendingChildIntents ∧ e'.terminalReason = e.terminalReason) ∨
      (e'.pendingChildIntents = 0 ∧ hasChild t e.id = false ∧ e'.terminalReason = none) := by
  cases h with
  | takeIntent _ _ ha _ | recordEvidence _ _ _ ha | releaseIntent _ _ ha =>
    rw [show e.awaitingChild = false from hawait] at ha; cases ha
  | satisfy | fanIn | claim | unclaim | accept | explicitReturn | terminalize | recoverSatisfy =>
    cases hstate
  | announce => cases hawait
  | markCompleted => exact .inl ⟨hstate, hawait, rfl, rfl⟩
  | undefer _ _ _ hintents hchild =>
    -- staying pending means that no evidence was recorded
    refine .inr ⟨hintents, hchild, ?_⟩
    cases hreason : e.terminalReason with
    | none => rfl
    | some r => simp [hreason] at hstate
  | dropDefer => cases hk

private theorem RowUpdate.satisfied (hk : k.inFanIn = true) (h : RowUpdate t k e e')
    (hstate : e'.state = .satisfied ∨ e'.state = .delivered) :
    e'.pendingChildIntents = e.pendingChildIntents ∧
      ((e.state = .satisfied ∨ e.state = .delivered) ∨
        (e.state = .pending ∧ e.awaitingChild = false) ∨
        (e.pendingChildIntents = 0 ∧
          ∀ c ∈ t.rows, c.childOf e.id = true → c.continuationCompletedAt ≠ none)) := by
  cases h with
  | takeIntent _ hs | announce _ _ hs | recordEvidence _ _ hs | releaseIntent _ hs =>
    rcases hstate with h | h <;> (rw [show e.state = _ from h] at hs; cases hs)
  | satisfy _ _ hs ha => exact ⟨rfl, .inr (.inl ⟨hs, ha⟩)⟩
  | markCompleted => exact ⟨rfl, .inl hstate⟩
  | fanIn _ _ _ _ hintents hchildren => exact ⟨rfl, .inr (.inr ⟨hintents, hchildren⟩)⟩
  | undefer _ _ _ hintents hchild =>
    refine ⟨rfl, .inr (.inr ⟨hintents, ?_⟩)⟩
    intro c hc hlink
    rw [hasChild, any_eq_false] at hchild
    exact absurd hlink (hchild c hc)
  | claim _ hs => exact ⟨rfl, .inl (.inl hs)⟩
  | unclaim _ _ hs => exact ⟨rfl, .inl (.inr hs)⟩
  | accept | explicitReturn => rcases hstate with h | h <;> cases h
  | terminalize | dropDefer | recoverSatisfy => cases hk

private theorem FanInTable.children_of_satisfied (hinv : FanInTable t) (hk : k.inFanIn = true)
    (he : e ∈ t.rows)
    (hstep : RowStep t k e e') (hstate : e'.state = .satisfied ∨ e'.state = .delivered) :
    e'.pendingChildIntents = 0 ∧
      ∀ c ∈ t.rows, c.childOf e.id = true → c.continuationCompletedAt ≠ none := by
  rcases hstep with rfl | hupdate
  · exact hinv.satisfied _ he hstate
  · obtain ⟨hi, hs | ⟨hs, ha⟩ | ⟨h0, hchildren⟩⟩ := hupdate.satisfied hk hstate
    · rw [hi]
      exact hinv.satisfied e he hs
    · obtain ⟨h0, hchild, -⟩ := hinv.undeferred e he hs ha
      refine ⟨hi.trans h0, fun c hc hlink => ?_⟩
      rw [hasChild, any_eq_false] at hchild
      exact absurd hlink (hchild c hc)
    · exact ⟨hi.trans h0, hchildren⟩

private theorem FanInTable.micros (hk : k.inFanIn = true) {t t' : CallbackTable}
    (h : Micros k t t') (hinv : FanInTable t) : FanInTable t' := by
  induction h with
  | refl => exact hinv
  | tail _ hmicro ih =>
    cases hmicro with
    | sweep cutoff hsweep => rcases hsweep with rfl | rfl <;> cases hk
    | update v p f hrows hupd =>
      refine ⟨?_, ?_, ?_, ?_⟩
      · intro e' he'
        obtain ⟨e, he, rfl | hupdate⟩ := rowStep_of_mem_update hrows hupd he'
        · exact ih.intents_nonneg _ he
        · exact hupdate.intents_nonneg (ih.intents_nonneg e he)
      · intro e' he' id hparent
        obtain ⟨e, he, hstep⟩ := rowStep_of_mem_update hrows hupd he'
        rw [hstep.parent_eq] at hparent
        obtain ⟨q, hq, hqid⟩ := ih.linked e he id hparent
        obtain ⟨q', hq', hqstep⟩ := exists_rowStep_of_mem hrows hupd hq
        exact ⟨q', hq', hqstep.id_eq.trans hqid⟩
      · intro e' he' hstate hawait
        obtain ⟨e, he, hstep⟩ := rowStep_of_mem_update hrows hupd he'
        rw [hasChild_update hrows hupd, hstep.id_eq]
        rcases hstep with rfl | hupdate
        · exact ih.undeferred _ he hstate hawait
        · rcases hupdate.undeferred hk hstate hawait with ⟨hs, ha, hi, hr⟩ | hdone
          · obtain ⟨h0, hchild, hreason⟩ := ih.undeferred e he hs ha
            exact ⟨hi.trans h0, hchild, hr.trans hreason⟩
          · exact hdone
      · intro e' he' hstate
        obtain ⟨e, he, hstep⟩ := rowStep_of_mem_update hrows hupd he'
        -- the children were completed before, and stay so
        have hbefore := ih.children_of_satisfied hk he hstep hstate
        refine ⟨hbefore.1, fun c' hc' hlink => ?_⟩
        obtain ⟨c, hc, hcstep⟩ := rowStep_of_mem_update hrows hupd hc'
        rw [hstep.id_eq, hcstep.childOf_eq] at hlink
        exact hcstep.completed (hbefore.2 c hc hlink)

private theorem FanInTable.insert {input : CreateInput}
    (hcreated : Created t now input t') (hinv : FanInTable t) :
    FanInTable (t.insert (input.newEdge now)) := by
  have hnew : ∀ p ∈ t.rows, p.id ≠ input.id := (t.find?_eq_none_iff input.id).mp hcreated.fresh
  -- the parent of the new row is deferred, so it is neither undeferred nor satisfied
  have hlink : ∀ e ∈ t.rows, (input.newEdge now).childOf e.id = true →
      e.state = .pending ∧ e.awaitingChild = true := by
    intro e he hchild
    rw [CallbackEdge.childOf, beq_iff_eq] at hchild
    obtain ⟨p, hp, hpid, hstate, hawait, -⟩ := hcreated.parent e.id hchild
    rw [← t.eq_of_key_eq hp he hpid]
    exact ⟨hstate, hawait⟩
  refine ⟨?_, ?_, ?_, ?_⟩
  · intro e he
    rcases (hcreated.mem_insert e).mp he with he | rfl
    · exact hinv.intents_nonneg e he
    · exact le_refl 0
  · intro e he id hparent
    rcases (hcreated.mem_insert e).mp he with he | rfl
    · obtain ⟨p, hp, hpid⟩ := hinv.linked e he id hparent
      exact ⟨p, (hcreated.mem_insert p).mpr (.inl hp), hpid⟩
    · obtain ⟨p, hp, hpid, -⟩ := hcreated.parent id hparent
      exact ⟨p, (hcreated.mem_insert p).mpr (.inl hp), hpid⟩
  · intro e he hstate hawait
    have hchildless : ∀ c ∈ (t.insert (input.newEdge now)).rows, ¬ c.childOf e.id = true := by
      intro c hc hchild
      rcases (hcreated.mem_insert e).mp he with he | rfl
      · rcases (hcreated.mem_insert c).mp hc with hc | rfl
        · have hnone := (hinv.undeferred e he hstate hawait).2.1
          rw [hasChild, any_eq_false] at hnone
          exact hnone c hc hchild
        · rw [(hlink e he hchild).2] at hawait
          cases hawait
      · rcases (hcreated.mem_insert c).mp hc with hc | rfl
        · rw [CallbackEdge.childOf, beq_iff_eq] at hchild
          obtain ⟨p, hp, hpid⟩ := hinv.linked c hc _ hchild
          exact hnew p hp hpid
        · rw [CallbackEdge.childOf, beq_iff_eq] at hchild
          obtain ⟨p, hp, hpid, -⟩ := hcreated.parent _ hchild
          exact hnew p hp hpid
    rw [hasChild, any_eq_false]
    rcases (hcreated.mem_insert e).mp he with he | rfl
    · obtain ⟨h0, -, hreason⟩ := hinv.undeferred e he hstate hawait
      exact ⟨h0, hchildless, hreason⟩
    · exact ⟨rfl, hchildless, rfl⟩
  · intro e he hstate
    rcases (hcreated.mem_insert e).mp he with he | rfl
    · obtain ⟨h0, hchildren⟩ := hinv.satisfied e he hstate
      refine ⟨h0, fun c hc hchild => ?_⟩
      rcases (hcreated.mem_insert c).mp hc with hc | rfl
      · exact hchildren c hc hchild
      · have hpending := (hlink e he hchild).1
        rcases hstate with h | h <;> (rw [h] at hpending; cases hpending)
    · rcases hstate with h | h <;> cases h

theorem FanInTable.step (op : FanInOp) (hinv : FanInTable t) : FanInTable (step t op.1) := by
  have hk := op.kind_inFanIn
  by_cases hkind : op.1.kind = .create
  · obtain ⟨op, hop⟩ := op
    cases op with
    | create now input =>
      rcases step_create t now input with heq | hcreated
      · rw [show Callback.step t (.create now input) = t from heq]
        exact hinv
      · rw [hcreated.result]
        exact (FanInTable.insert hcreated hinv).micros rfl (takeIntent_micro _ now _)
    | _ => cases hkind
  · exact hinv.micros hk (step_micro t op.1 hkind)

theorem fanInTable_empty : FanInTable Table.empty :=
  ⟨fun e he => absurd he (by simp), fun e he => absurd he (by simp),
    fun e he => absurd he (by simp), fun e he => absurd he (by simp)⟩

/-! ## Open obligations -/

/-- A pending deferred edge is waiting: it has an intent, or a child that neither completed nor
    is in `returned`. -/
def Waiting (returned : List CallbackId) (t : CallbackTable) : Prop :=
  ∀ p ∈ t.rows, p.state = .pending → p.awaitingChild = true →
    0 < p.pendingChildIntents ∨
      ∃ c, ParentOf t p c ∧ c.continuationCompletedAt = none ∧ c.id ∉ returned

private theorem waiting_map {g : CallbackEdge → CallbackEdge} (hrows : t'.rows = t.rows.map g)
    (hid : ∀ e, (g e).id = e.id)
    (hparent : ∀ e, (g e).continuationParentCallbackId = e.continuationParentCallbackId)
    (hopen : ∀ e ∈ t.rows, e.continuationCompletedAt = none → e.id ∉ returned →
      (g e).continuationCompletedAt = none)
    (hkeep : ∀ e ∈ t.rows, (g e).state = .pending → (g e).awaitingChild = true →
      0 < (g e).pendingChildIntents ∨
        ∃ c, ParentOf t e c ∧ c.continuationCompletedAt = none ∧ c.id ∉ returned) :
    Waiting returned t' := by
  intro p' hp' hstate hawait
  rw [hrows, mem_map] at hp'
  obtain ⟨p, hp, rfl⟩ := hp'
  rcases hkeep p hp hstate hawait with hpos | ⟨c, hpc, hnone, hret⟩
  · exact .inl hpos
  · refine .inr ⟨g c, ⟨?_, ?_, ?_⟩, hopen c hpc.2.1 hnone hret, by rwa [hid]⟩
    · rw [hrows]
      exact mem_map.mpr ⟨p, hp, rfl⟩
    · rw [hrows]
      exact mem_map.mpr ⟨c, hpc.2.1, rfl⟩
    · rw [CallbackEdge.childOf, hparent, hid]
      exact hpc.2.2

private theorem Waiting.mono {returned' : List CallbackId}
    (hsub : ∀ id ∈ returned, id ∈ returned') (h : Waiting returned' t) : Waiting returned t := by
  intro p hp hstate hawait
  rcases h p hp hstate hawait with hpos | ⟨c, hpc, hnone, hret⟩
  · exact .inl hpos
  · exact .inr ⟨c, hpc, hnone, fun hc => hret (hsub _ hc)⟩

/-- Kinds that neither announce, release nor resolve. -/
def OpKind.quiet : OpKind → Bool
  | .satisfy | .claim | .releaseDelivered | .consume | .explicitReturn => true
  | _ => false

private theorem RowUpdate.quiet (hk : k.quiet = true) (h : RowUpdate t k e e') :
    e'.continuationCompletedAt = e.continuationCompletedAt ∧
      (e'.state = .pending → e'.awaitingChild = true →
        e.state = .pending ∧ e.awaitingChild = true ∧
          e'.pendingChildIntents = e.pendingChildIntents) := by
  cases h with
  | takeIntent | announce | markCompleted | fanIn | releaseIntent | undefer | terminalize
  | dropDefer | recoverSatisfy => cases hk
  | satisfy | claim | unclaim | accept | explicitReturn => exact ⟨rfl, fun hs => by cases hs⟩
  | recordEvidence => exact ⟨rfl, fun hs ha => ⟨hs, ha, rfl⟩⟩

private theorem Waiting.micros (hk : k.quiet = true)
    {t t' : CallbackTable} (h : Micros k t t') (hw : Waiting returned t) : Waiting returned t' := by
  induction h with
  | refl => exact hw
  | tail _ hmicro ih =>
    cases hmicro with
    | sweep cutoff hsweep => rcases hsweep with rfl | rfl <;> cases hk
    | update v p f hrows hupd =>
      intro q' hq' hstate hawait
      obtain ⟨q, hq, hqstep⟩ := rowStep_of_mem_update hrows hupd hq'
      have hq_keep : q.state = .pending ∧ q.awaitingChild = true ∧
          q'.pendingChildIntents = q.pendingChildIntents := by
        rcases hqstep with rfl | hupdate
        · exact ⟨hstate, hawait, rfl⟩
        · exact (hupdate.quiet hk).2 hstate hawait
      rcases ih q hq hq_keep.1 hq_keep.2.1 with hpos | ⟨c, hqc, hnone, hret⟩
      · exact .inl (by rw [hq_keep.2.2]; exact hpos)
      · obtain ⟨c', hc', hcstep⟩ := exists_rowStep_of_mem hrows hupd hqc.2.1
        refine .inr ⟨c', ⟨hq', hc', ?_⟩, ?_, by rwa [hcstep.id_eq]⟩
        · rw [hcstep.childOf_eq, hqstep.id_eq]
          exact hqc.2.2
        · rcases hcstep with rfl | hupdate
          · exact hnone
          · rw [(hupdate.quiet hk).1]
            exact hnone

private theorem Waiting.create {input : CreateInput} (hcreated : Created t now input t')
    (hfresh : input.id ∉ returned) (hw : Waiting returned t) : Waiting returned t' := by
  have hinsert : Waiting returned (t.insert (input.newEdge now)) := by
    intro p hp hstate hawait
    rcases (hcreated.mem_insert p).mp hp with hold | rfl
    · rcases hw p hold hstate hawait with hpos | ⟨c, hpc, hnone, hret⟩
      · exact .inl hpos
      · exact .inr ⟨c, ⟨hp, (hcreated.mem_insert c).mpr (.inl hpc.2.1), hpc.2.2⟩, hnone, hret⟩
    · cases hawait
  rw [hcreated.result]
  cases hparent : input.continuationParentCallbackId with
  | none => exact hinsert
  | some parentId =>
    refine waiting_map (t := t.insert (input.newEdge now))
      (g := fun e => if e.id == parentId && e.state == .pending && e.awaitingChild &&
          decide (0 < e.pendingChildIntents)
        then { e with pendingChildIntents := e.pendingChildIntents - 1, updatedAt := now }
        else e) rfl ?_ ?_ ?_ ?_
    · intro e
      split <;> rfl
    · intro e
      split <;> rfl
    · intro e _ hnone _
      split <;> exact hnone
    · intro e he hstate hawait
      split at hstate
      · -- the parent gives up an intent, and waits for the new row instead
        rename_i hhit
        simp only [Bool.and_eq_true, beq_iff_eq] at hhit
        right
        refine ⟨input.newEdge now, ⟨he, (hcreated.mem_insert _).mpr (.inr rfl), ?_⟩, rfl, hfresh⟩
        show (input.continuationParentCallbackId == some e.id) = true
        rw [hparent, hhit.1.1.1]
        exact beq_self_eq_true _
      · rename_i hmiss
        rw [if_neg hmiss] at hawait
        rw [if_neg hmiss]
        exact hinsert e he hstate hawait

private theorem Waiting.announce
    (hnonneg : ∀ e ∈ t.rows, 0 ≤ e.pendingChildIntents) {now : Timestamp} {n : Nat}
    (hn : 1 ≤ n) (p : CallbackEdge → Bool) {t' : CallbackTable}
    (hrows : t'.rows = t.rows.map (fun e => if p e then e.announce now n else e))
    (hw : Waiting returned t) : Waiting returned t' := by
  refine waiting_map hrows ?_ ?_ ?_ ?_
  · intro e
    split <;> rfl
  · intro e
    split <;> rfl
  · intro e _ hnone _
    split <;> exact hnone
  · intro e he hstate hawait
    by_cases hp : p e = true
    · left
      have := hnonneg e he
      simp only [hp, if_true, CallbackEdge.announce]
      omega
    · simp only [hp] at hstate hawait ⊢
      exact hw e he hstate hawait

/-! ## Release and completion, row by row -/

/-- The rewrite of one row when an announced intent of `id` is released. -/
def releaseRow (t : CallbackTable) (now : Timestamp) (id : CallbackId) (e : CallbackEdge) :
    CallbackEdge :=
  let released := if e.id == id && e.state == .pending && e.awaitingChild
    then { e with
      pendingChildIntents := max 0 (e.pendingChildIntents - 1)
      updatedAt := now }
    else e
  if released.id == id && released.state == .pending && released.awaitingChild &&
      released.pendingChildIntents == 0 && !hasChild t id
  then { released with
    awaitingChild := false
    state := if released.terminalReason = none then .pending else .satisfied
    satisfiedAt := if released.terminalReason = none then released.satisfiedAt else some now
    updatedAt := now }
  else released

theorem rows_releaseDeferred (t : CallbackTable) (now : Timestamp) (id : CallbackId) :
    (releaseDeferredCompletionCallback t now id).1.rows =
      t.rows.map (releaseRow t now id) := by
  unfold releaseDeferredCompletionCallback
  generalize hreleased : t.updateWhere _ _ _ = released
  have hlinks : hasChild released id = hasChild t id := by
    rw [← hreleased]
    simp only [hasChild, Table.rows_updateWhere, any_map]
    congr 1
    funext e
    simp only [Function.comp_apply]
    split <;> rfl
  rw [apply_ite Prod.fst, Table.rows_updateWhere_ite, Table.rows_updateWhere, ← hreleased,
    Table.rows_updateWhere, map_map]
  refine map_congr_left (fun e _ => ?_)
  rw [hreleased, hlinks]
  rfl

/-- The rewrite of one row when the continuation of the child `childId` of `parentId` ends. -/
def completeRow (now : Timestamp) (input : CompleteInput) (parentId : CallbackId) (last : Bool)
    (e : CallbackEdge) : CallbackEdge :=
  let marked := if e.id == input.callbackId && e.state == .consumed &&
      e.continuationCompletedAt.isNone
    then { e with continuationCompletedAt := some now, updatedAt := now }
    else e
  if last && fanInReady parentId marked
  then { marked.satisfyWith now input.evidence with awaitingChild := false }
  else marked

theorem completeChild_cases (t : CallbackTable) (now : Timestamp) (input : CompleteInput) :
    (completeChildContinuation t now input).1 = t ∨
      ∃ child ∈ t.rows, ∃ parentId, child.id = input.callbackId ∧
        child.continuationParentCallbackId = some parentId ∧ child.state = .consumed ∧
        child.continuationCompletedAt = none ∧
        ∃ last : Bool,
          ((∀ c ∈ t.rows, c.childOf parentId = true → c.id ≠ input.callbackId →
            c.continuationCompletedAt ≠ none) → last = true) ∧
          (completeChildContinuation t now input).1.rows =
            t.rows.map (completeRow now input parentId last) := by
  unfold completeChildContinuation
  cases hfind : t.find? input.callbackId with
  | none => exact .inl rfl
  | some child =>
    obtain ⟨hmem, hid⟩ := (t.find?_eq_some_iff _ _).mp hfind
    simp only
    cases hparent : child.continuationParentCallbackId with
    | none => exact .inl rfl
    | some parentId =>
      simp only
      split
      · exact .inl rfl
      · rename_i hopen
        push Not at hopen
        right
        refine ⟨child, hmem, parentId, hid, hparent, hopen.1, hopen.2, ?_⟩
        generalize hmarked : t.updateWhere _ _ _ = marked
        have hrows : marked.rows = t.rows.map (fun e =>
            if e.id == input.callbackId && e.state == .consumed && e.continuationCompletedAt.isNone
            then { e with continuationCompletedAt := some now, updatedAt := now } else e) := by
          rw [← hmarked]
          rfl
        refine ⟨!marked.rows.any (fun e => e.childOf parentId && e.continuationCompletedAt.isNone),
          ?_, ?_⟩
        · -- every other child is complete, so the marked table has no incomplete one
          intro hall
          rw [Bool.not_eq_true', any_eq_false]
          intro e' he'
          rw [hrows, mem_map] at he'
          obtain ⟨e, he, rfl⟩ := he'
          by_cases heq : e.id = input.callbackId
          · have hec : e = child := t.eq_of_key_eq he hmem (heq.trans hid.symm)
            simp [hec, hid, hopen.1, hopen.2]
          · simp only [heq, beq_iff_eq, Bool.and_eq_true]
            intro h
            simp only [Option.isNone_iff_eq_none] at h
            exact hall e he h.1 heq h.2
        · cases hany : marked.rows.any
              (fun e => e.childOf parentId && e.continuationCompletedAt.isNone) with
          | true =>
            simp only [if_true, hrows]
            rfl
          | false =>
            simp only [Bool.false_eq_true, if_false]
            rw [apply_ite Prod.fst, Table.rows_updateWhere_ite, Table.rows_updateWhere, hrows,
              map_map]
            rfl

/-! ## Runs -/

structure FanInGuard (w : FanInWorld) (op : FanInOp) : Prop where
  /-- A defer announces a child. -/
  announces : ∀ now channelId targetProfileId targetTurnId n,
    op.1 = .defer now channelId targetProfileId targetTurnId n → 1 ≤ n
  /-- A release that takes the last intent leaves an edge without children, or with an
      unresolved one. -/
  releases : ∀ now id, op.1 = .releaseDeferred now id →
    ∀ p ∈ w.table.rows, p.id = id → p.state = .pending → p.awaitingChild = true →
      p.pendingChildIntents ≤ 1 → hasChild w.table id = true →
      ∃ c, ParentOf w.table p c ∧ ¬ Resolved w c
  /-- A completion of the last unresolved child finds every sibling completed, none merely
      returned. -/
  completes : ∀ now input, op.1 = .completeChild now input →
    ∀ p c, ParentOf w.table p c → c.id = input.callbackId → p.state = .pending →
      p.awaitingChild = true → p.pendingChildIntents = 0 →
      (∀ s, ParentOf w.table p s → s ≠ c → Resolved w s) →
      ∀ s, ParentOf w.table p s → s ≠ c → s.continuationCompletedAt ≠ none
  /-- An explicit return of a child leaves its parent an intent or another unresolved child. -/
  returns : ∀ p ∈ w.table.rows, p.state = .pending → p.awaitingChild = true →
    p.pendingChildIntents = 0 →
    (∃ c, ParentOf w.table p c ∧ c.id ∈ returnedBy w.table op.1) →
    ∃ c, ParentOf w.table p c ∧ ¬ Resolved w c ∧ c.id ∉ returnedBy w.table op.1

/-- What a guarded run of a fan-in keeps. -/
structure FanInInv (w : FanInWorld) : Prop where
  table : FanInTable w.table
  waiting : Waiting w.returned w.table
  returned_stored : ∀ id ∈ w.returned, ∃ e ∈ w.table.rows, e.id = id

theorem not_resolved_iff (w : FanInWorld) (c : CallbackEdge) :
    ¬ Resolved w c ↔ c.continuationCompletedAt = none ∧ c.id ∉ w.returned := by
  rw [Resolved, not_or, not_not]

private theorem stored_step (op : FanInOp) {e : CallbackEdge}
    (he : e ∈ t.rows) : ∃ e' ∈ (step t op.1).rows, e'.id = e.id := by
  have hmicros : ∀ {k : OpKind} {u u' : CallbackTable}, k.inFanIn = true → Micros k u u' →
      (∃ e' ∈ u.rows, e'.id = e.id) → ∃ e' ∈ u'.rows, e'.id = e.id := by
    intro k u u' hk h hu
    induction h with
    | refl => exact hu
    | tail _ hmicro ih =>
      obtain ⟨e', he', hid⟩ := ih
      cases hmicro with
      | sweep cutoff hsweep => rcases hsweep with rfl | rfl <;> cases hk
      | update v p f hrows hupd =>
        obtain ⟨e'', he'', hstep⟩ := exists_rowStep_of_mem hrows hupd he'
        exact ⟨e'', he'', hstep.id_eq.trans hid⟩
  by_cases hkind : op.1.kind = .create
  · obtain ⟨op, hop⟩ := op
    cases op with
    | create now input =>
      rcases step_create t now input with heq | hcreated
      · rw [show Callback.step t (.create now input) = t from heq]
        exact ⟨e, he, rfl⟩
      · rw [hcreated.result]
        apply hmicros rfl (takeIntent_micro _ now _)
        exact ⟨e, (hcreated.mem_insert e).mpr (.inl he), rfl⟩
    | _ => cases hkind
  · exact hmicros op.kind_inFanIn (step_micro t op.1 hkind) ⟨e, he, rfl⟩

private theorem returnedBy_stored (t : CallbackTable) (op : CallbackOp) :
    ∀ id ∈ returnedBy t op, ∃ e ∈ t.rows, e.id = id := by
  intro id hid
  cases op with
  | explicitReturn now input | ancestorReturn now id' =>
    obtain ⟨e, he, rfl⟩ := mem_map.mp hid
    exact ⟨e, (mem_filter.mp he).1, rfl⟩
  | _ => exact absurd hid (by simp [returnedBy])

/-- Helper: an explicit return that is not the last obligation of an edge keeps it waiting. -/
private theorem FanInInv.waiting_return (hinv : FanInInv w)
    (hguard : FanInGuard w op) : Waiting (w.returned ++ returnedBy w.table op.1) w.table := by
  intro p hp hstate hawait
  rcases hinv.waiting p hp hstate hawait with hpos | ⟨c, hpc, hnone, hret⟩
  · exact .inl hpos
  · by_cases hzero : p.pendingChildIntents = 0
    · right
      by_cases hreturns : ∃ c, ParentOf w.table p c ∧ c.id ∈ returnedBy w.table op.1
      · obtain ⟨s, hps, hsopen, hsret⟩ :=
          hguard.returns p hp hstate hawait hzero hreturns
        obtain ⟨hsnone, hsold⟩ := (not_resolved_iff w s).mp hsopen
        exact ⟨s, hps, hsnone, by simp [hsold, hsret]⟩
      · refine ⟨c, hpc, hnone, ?_⟩
        rw [mem_append, not_or]
        exact ⟨hret, fun h => hreturns ⟨c, hpc, h⟩⟩
    · have := hinv.table.intents_nonneg p hp
      exact .inl (by omega)

private theorem FanInInv.waiting_release {id : CallbackId} (hinv : FanInInv w)
    (hguard : ∀ p ∈ w.table.rows, p.id = id → p.state = .pending → p.awaitingChild = true →
      p.pendingChildIntents ≤ 1 → hasChild w.table id = true →
      ∃ c, ParentOf w.table p c ∧ ¬ Resolved w c) :
    Waiting w.returned (releaseDeferredCompletionCallback w.table now id).1 := by
  refine waiting_map (rows_releaseDeferred w.table now id) ?_ ?_ ?_ ?_
  · intro e
    unfold releaseRow
    simp only
    split <;> split <;> rfl
  · intro e
    unfold releaseRow
    simp only
    split <;> split <;> rfl
  · intro e _ hnone _
    unfold releaseRow
    simp only
    split <;> split <;> exact hnone
  · intro e he hstate hawait
    by_cases hhit : e.id = id ∧ e.state = .pending ∧ e.awaitingChild = true
    · obtain ⟨hid, hs, ha⟩ := hhit
      by_cases hready : max 0 (e.pendingChildIntents - 1) = 0 ∧ hasChild w.table id = false
      · -- the edge stops being deferred
        simp [releaseRow, hid, hs, ha, hready.1, hready.2] at hawait
      · have hrow : (releaseRow w.table now id e).pendingChildIntents =
            max 0 (e.pendingChildIntents - 1) := by
          unfold releaseRow
          simp only [hid, hs, ha, beq_self_eq_true, Bool.and_self, if_true]
          split <;> rfl
        rw [hrow]
        by_cases hpos : 0 < max 0 (e.pendingChildIntents - 1)
        · exact .inl hpos
        · have hle : e.pendingChildIntents ≤ 1 := by omega
          have hchild : hasChild w.table id = true := by
            cases hc : hasChild w.table id with
            | true => rfl
            | false => exact absurd ⟨by omega, hc⟩ hready
          obtain ⟨c, hec, hopen⟩ := hguard e he hid hs ha hle hchild
          exact .inr ⟨c, hec, (not_resolved_iff w c).mp hopen⟩
    · have hrow : releaseRow w.table now id e = e := by
        have hmiss : (e.id == id && e.state == .pending && e.awaitingChild) = false := by
          rw [Bool.eq_false_iff]
          intro h
          simp only [Bool.and_eq_true, beq_iff_eq] at h
          exact hhit ⟨h.1.1, h.1.2, h.2⟩
        simp [releaseRow, hmiss]
      rw [hrow] at hstate hawait ⊢
      exact hinv.waiting e he hstate hawait

private theorem completeRow_of_pending {input : CompleteInput} {parentId : CallbackId} {last : Bool}
    (hstate : (completeRow now input parentId last e).state = .pending) :
    (last && fanInReady parentId e) = false ∧ completeRow now input parentId last e = e := by
  by_cases hmark : (e.id == input.callbackId && e.state == .consumed &&
      e.continuationCompletedAt.isNone) = true
  · simp only [Bool.and_eq_true, beq_iff_eq] at hmark
    obtain ⟨⟨hid, hconsumed⟩, hopen⟩ := hmark
    simp [completeRow, hid, hconsumed, hopen, fanInReady] at hstate
  · cases hready : (last && fanInReady parentId e) with
    | true => simp [completeRow, hmark, hready, CallbackEdge.satisfyWith] at hstate
    | false => exact ⟨rfl, by simp [completeRow, hmark, hready]⟩

private theorem FanInInv.waiting_complete {input : CompleteInput} (hinv : FanInInv w)
    (hguard : ∀ p c, ParentOf w.table p c → c.id = input.callbackId → p.state = .pending →
      p.awaitingChild = true → p.pendingChildIntents = 0 →
      (∀ s, ParentOf w.table p s → s ≠ c → Resolved w s) →
      ∀ s, ParentOf w.table p s → s ≠ c → s.continuationCompletedAt ≠ none) :
    Waiting w.returned (completeChildContinuation w.table now input).1 := by
  rcases completeChild_cases w.table now input with
    heq | ⟨child, hchild, parentId, hid, hparent, hconsumed, hnone, last, hlast, hrows⟩
  · rw [heq]
    exact hinv.waiting
  · have hopenrow : ∀ e, e.id ≠ input.callbackId →
        (completeRow now input parentId last e).continuationCompletedAt =
          e.continuationCompletedAt := by
      intro e hne
      unfold completeRow
      simp only [hne, beq_iff_eq, Bool.and_eq_true, false_and, if_false]
      split <;> rfl
    -- the completed child counts as resolved from here on
    refine Waiting.mono (fun id h => mem_cons_of_mem child.id h) ?_
    refine waiting_map hrows ?_ ?_ ?_ ?_
    · intro e
      unfold completeRow
      simp only
      split <;> split <;> rfl
    · intro e
      unfold completeRow
      simp only
      split <;> split <;> rfl
    · intro e _ he hret
      rw [hopenrow e (fun h => hret (by simp [h, hid]))]
      exact he
    · intro e he hstate hawait
      obtain ⟨hready, hrow⟩ := completeRow_of_pending hstate
      rw [hrow] at hstate hawait ⊢
      rcases hinv.waiting e he hstate hawait with hpos | ⟨s, hes, hsnone, hsret⟩
      · exact .inl hpos
      · by_cases hother : ∃ s, ParentOf w.table e s ∧ s ≠ child ∧ ¬ Resolved w s
        · obtain ⟨s, hes, hne, hopen⟩ := hother
          obtain ⟨hsnone, hsret⟩ := (not_resolved_iff w s).mp hopen
          refine .inr ⟨s, hes, hsnone, ?_⟩
          rw [mem_cons, not_or]
          exact ⟨fun h => hne (w.table.eq_of_key_eq hes.2.1 hchild h), hsret⟩
        · -- otherwise the completed child was the last obligation of its parent
          push Not at hother
          have hsc : s = child := by
            by_contra hne
            exact (not_resolved_iff w s).mpr ⟨hsnone, hsret⟩ (hother s hes hne)
          subst hsc
          have hparentId : e.id = parentId := by
            have hlink := hes.2.2
            rw [CallbackEdge.childOf, beq_iff_eq, hparent] at hlink
            exact (Option.some.inj hlink).symm
          by_cases hzero : e.pendingChildIntents = 0
          · exfalso
            have hsiblings := hguard e s hes hid hstate hawait hzero hother
            have hdone : last = true := by
              apply hlast
              intro c hc hlink hne
              apply hsiblings c ⟨he, hc, by rw [hparentId]; exact hlink⟩
              exact fun h => hne (h ▸ hid)
            simp [hdone, fanInReady, hparentId, hstate, hawait, hzero] at hready
          · have := hinv.table.intents_nonneg e he
            exact .inl (by omega)

private theorem FanInInv.step (hinv : FanInInv w)
    (hguard : FanInGuard w op) : FanInInv (w.step op) := by
  refine ⟨hinv.table.step op, ?_, ?_⟩
  · obtain ⟨op, hop⟩ := op
    have hquiet : op.kind.quiet = true →
        Waiting (w.step ⟨op, hop⟩).returned (w.step ⟨op, hop⟩).table := by
      intro hq
      have hne : op.kind ≠ .create := by
        intro h
        rw [h] at hq
        cases hq
      exact (hinv.waiting_return hguard).micros hq (step_micro w.table op hne)
    -- every other operation returns nothing
    have hsame : returnedBy w.table op = [] →
        Waiting w.returned (w.step ⟨op, hop⟩).table →
        Waiting (w.step ⟨op, hop⟩).returned (w.step ⟨op, hop⟩).table := by
      intro hnone hw
      simp only [FanInWorld.step, hnone, append_nil] at hw ⊢
      exact hw
    cases op with
    | create now input =>
      apply hsame rfl
      rcases step_create w.table now input with heq | hcreated
      · simp only [FanInWorld.step, heq]
        exact hinv.waiting
      · refine hinv.waiting.create hcreated ?_
        intro hret
        obtain ⟨e, he, hid⟩ := hinv.returned_stored _ hret
        exact (Table.find?_eq_none_iff _ _).mp hcreated.fresh e he hid
    | satisfy now input | claim now limit | releaseDelivered now id | consume now id
    | explicitReturn now input | ancestorReturn now id => exact hquiet rfl
    | defer now channelId targetProfileId targetTurnId n =>
      apply hsame rfl
      have hn := hguard.announces now channelId targetProfileId targetTurnId n rfl
      simp only [FanInWorld.step, Callback.step, deferCompletionCallbackForChild]
      split
      · exact hinv.waiting.announce hinv.table.intents_nonneg hn _ rfl
      · exact hinv.waiting
    | announce now id n =>
      apply hsame rfl
      simp only [FanInWorld.step, Callback.step, announceContinuationChildren]
      split
      · exact hinv.waiting
      · rename_i hn
        split
        · exact hinv.waiting.announce hinv.table.intents_nonneg (by omega) _ rfl
        · exact hinv.waiting
    | completeChild now input =>
      apply hsame rfl
      exact hinv.waiting_complete (hguard.completes now input rfl)
    | releaseDeferred now id =>
      apply hsame rfl
      exact hinv.waiting_release (hguard.releases now id rfl)
    | terminalize now input | recover now lookup | prune now olderThanMs => cases hop
  · intro id hid
    have hold : ∃ e ∈ w.table.rows, e.id = id := by
      rcases mem_append.mp hid with hid | hid
      · exact hinv.returned_stored id hid
      · exact returnedBy_stored _ _ id hid
    obtain ⟨e, he, rfl⟩ := hold
    exact stored_step op he

theorem fanInInv_empty : FanInInv FanInWorld.empty :=
  ⟨fanInTable_empty, fun e he => absurd he (by simp [FanInWorld.empty]),
    fun id hid => absurd hid (by simp [FanInWorld.empty])⟩

/-- A satisfied edge owes nothing, in every world whose table keeps its invariant. -/
theorem fanIn_safe (htable : FanInTable w.table) :
    ∀ p ∈ w.table.rows, p.state = .satisfied →
      p.pendingChildIntents = 0 ∧ ∀ c, ParentOf w.table p c → Resolved w c := by
  intro p hp hstate
  obtain ⟨hzero, hchildren⟩ := htable.satisfied p hp (.inl hstate)
  exact ⟨hzero, fun c hpc => .inl (hchildren c hpc.2.1 hpc.2.2)⟩

private theorem FanInInv.holds (hinv : FanInInv w) : FanInHolds w := by
  refine ⟨fanIn_safe hinv.table, ?_⟩
  intro p hp hzero hresolved hreason hpending
  cases hawait : p.awaitingChild with
  | false => exact hreason (hinv.table.undeferred p hp hpending hawait).2.2
  | true =>
    rcases hinv.waiting p hp hpending hawait with hpos | ⟨c, hpc, hnone, hret⟩
    · omega
    · exact (not_resolved_iff w c).mpr ⟨hnone, hret⟩ (hresolved c hpc)

/-- **Completion fan-in**: in every run whose last obligations are closed by a writer that looks
    at the edge, a satisfied edge owes nothing and an edge that owes nothing is not pending. -/
theorem callback_fan_in (ops : List FanInOp)
    (hguard : Guarded FanInWorld.step FanInGuard FanInWorld.empty ops) :
    FanInHolds (exec FanInWorld.step FanInWorld.empty ops) := by
  apply FanInInv.holds
  exact exec_invariant_of_guarded (fun w op hinv hg => FanInInv.step hinv hg) fanInInv_empty hguard

/-! ## Fixed runs -/

/-- `A` asks `B` and `B` asks `C`; `B`'s own turn ends, and `C` returns to `B` by itself. -/
def explicitlyReturnedChild : List FanInOp :=
  [ ⟨.create 1 (.forTurn "b" "A" "B" none), rfl⟩,
    ⟨.defer 2 "room" "B" "b" 1, rfl⟩,
    ⟨.create 3 (.forTurn "c" "B" "C" (some "b")), rfl⟩,
    ⟨.satisfy 4 ⟨"room", "B", "b", bareEvidence⟩, rfl⟩,
    ⟨.explicitReturn 5 ⟨"room", "C", "c", ["B"]⟩, rfl⟩ ]

/-- `B` announces two children, and only `C` gets an edge.  The continuation of `C` completes
    before the route of the other child is given up. -/
def lateRelease : List FanInOp :=
  [ ⟨.create 1 (.forTurn "b" "A" "B" none), rfl⟩,
    ⟨.defer 2 "room" "B" "b" 2, rfl⟩,
    ⟨.create 3 (.forTurn "c" "B" "C" (some "b")), rfl⟩,
    ⟨.satisfy 4 ⟨"room", "B", "b", bareEvidence⟩, rfl⟩,
    ⟨.satisfy 5 ⟨"room", "C", "c", bareEvidence⟩, rfl⟩,
    ⟨.claim 6 100, rfl⟩,
    ⟨.consume 7 ⟨"c"⟩, rfl⟩,
    ⟨.completeChild 8 ⟨⟨"c"⟩, bareEvidence⟩, rfl⟩,
    ⟨.releaseDeferred 9 ⟨"b"⟩, rfl⟩ ]

/-- A world with an edge that owes nothing, has its evidence, and is pending. -/
def FanInWorld.strands (w : FanInWorld) : Bool :=
  w.table.rows.any (fun p => p.pendingChildIntents == 0 && p.terminalReason.isSome &&
    p.state == .pending &&
    w.table.rows.all (fun c =>
      !c.childOf p.id || c.continuationCompletedAt.isSome || w.returned.contains c.id))

private theorem not_holds_of_strands (h : w.strands = true) : ¬ FanInHolds w := by
  intro hholds
  simp only [FanInWorld.strands, any_eq_true, Bool.and_eq_true, beq_iff_eq] at h
  obtain ⟨p, hp, ⟨⟨hzero, hreason⟩, hpending⟩, hall⟩ := h
  refine hholds.live p hp hzero ?_ ?_ hpending
  · rintro c ⟨-, hc, hlink⟩
    have hres := all_eq_true.mp hall c hc
    rw [hlink] at hres
    simp only [Bool.not_true, Bool.false_or, Bool.or_eq_true, contains_eq_mem,
      decide_eq_true_eq, Option.isSome_iff_ne_none] at hres
    exact hres
  · exact Option.isSome_iff_ne_none.mp hreason

/-- Both runs leave the edge of `B` pending for good, although it owes nothing. -/
theorem fanIn_strands_pending_edge :
    ¬ FanInHolds (exec FanInWorld.step FanInWorld.empty explicitlyReturnedChild) ∧
      ¬ FanInHolds (exec FanInWorld.step FanInWorld.empty lateRelease) :=
  ⟨not_holds_of_strands (by decide), not_holds_of_strands (by decide)⟩

/-- `A` asks `B`, `B` asks `C`, and the continuation that `C`'s completion starts ends. -/
def completedChild : List FanInOp :=
  [ ⟨.create 1 (.forTurn "b" "A" "B" none), rfl⟩,
    ⟨.defer 2 "room" "B" "b" 1, rfl⟩,
    ⟨.create 3 (.forTurn "c" "B" "C" (some "b")), rfl⟩,
    ⟨.satisfy 4 ⟨"room", "C", "c", bareEvidence⟩, rfl⟩,
    ⟨.claim 5 100, rfl⟩,
    ⟨.consume 6 ⟨"c"⟩, rfl⟩,
    ⟨.completeChild 7 ⟨⟨"c"⟩, bareEvidence⟩, rfl⟩ ]

/-- Helper: an operation that neither announces, releases, completes nor returns meets the
    condition. -/
private theorem fanInGuard_of_kind
    (h : op.1.kind = .create ∨ op.1.kind = .satisfy ∨ op.1.kind = .claim ∨
      op.1.kind = .consume) : FanInGuard w op := by
  refine ⟨?_, ?_, ?_, ?_⟩
  · intro now channelId targetProfileId targetTurnId n hop
    simp [hop, CallbackOp.kind] at h
  · intro now id hop
    simp [hop, CallbackOp.kind] at h
  · intro now input hop
    simp [hop, CallbackOp.kind] at h
  · rintro p - - - - ⟨c, -, hc⟩
    obtain ⟨op, hop⟩ := op
    cases op <;> simp [returnedBy, CallbackOp.kind] at hc h

/-- `completedChild` meets the condition, and satisfies the edge of `B`. -/
theorem callback_fan_in_of_completed_child :
    FanInHolds (exec FanInWorld.step FanInWorld.empty completedChild) := by
  apply callback_fan_in
  refine ⟨fanInGuard_of_kind (by simp [CallbackOp.kind]), ⟨?_, ?_, ?_, ?_⟩,
    fanInGuard_of_kind (by simp [CallbackOp.kind]), fanInGuard_of_kind (by simp [CallbackOp.kind]),
    fanInGuard_of_kind (by simp [CallbackOp.kind]), fanInGuard_of_kind (by simp [CallbackOp.kind]),
    ⟨?_, ?_, ?_, ?_⟩, trivial⟩
  · rintro _ _ _ _ n ⟨⟩
    exact le_refl 1
  · intro now id hop
    cases hop
  · intro now input hop
    cases hop
  · rintro p - - - - ⟨c, -, hc⟩
    exact absurd hc (by simp [returnedBy])
  · intro now channelId targetProfileId targetTurnId n hop
    cases hop
  · intro now id hop
    cases hop
  · -- the only row with a parent is the completed child itself
    rintro now input ⟨⟩ p c hpc hid - - - - s hps hne
    have hcheck : (exec FanInWorld.step FanInWorld.empty (completedChild.take 6)).table.rows.all
        (fun e => e.continuationParentCallbackId.isNone || e.id == ⟨"c"⟩) = true := by
      decide
    have hs := all_eq_true.mp hcheck s hps.2.1
    have hlink := hps.2.2
    rw [CallbackEdge.childOf, beq_iff_eq] at hlink
    rw [hlink] at hs
    exfalso
    apply hne
    apply Table.eq_of_key_eq _ hps.2.1 hpc.2.1
    rw [hid]
    simpa using hs
  · rintro p - - - - ⟨c, -, hc⟩
    exact absurd hc (by simp [returnedBy])

end RelayIde.Callback
