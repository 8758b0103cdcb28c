import Mathlib.Logic.Relation
import RelayIde.Callback.Model

/-!
# Row Steps of the Callback Table

What one store operation can do to the rows of the table, said once.

- `step_create` — creation inserts one pending row and takes its parent's intent

The invariants of the table are proved on `RowUpdate`, never on the operations.
-/

namespace RelayIde.Callback

open RelayIde.Library List

/-! ## Row updates -/

inductive OpKind where
  | create
  | satisfy
  | announce
  | completeChild
  | releaseDeferred
  | claim
  | releaseDelivered
  | consume
  | explicitReturn
  | terminalize
  | recover
  | prune
  deriving DecidableEq

def CallbackOp.kind : CallbackOp → OpKind
  | .create .. => .create
  | .satisfy .. => .satisfy
  | .defer .. => .announce
  | .announce .. => .announce
  | .completeChild .. => .completeChild
  | .releaseDeferred .. => .releaseDeferred
  | .claim .. => .claim
  | .releaseDelivered .. => .releaseDelivered
  | .consume .. => .consume
  | .explicitReturn .. => .explicitReturn
  | .ancestorReturn .. => .explicitReturn
  | .terminalize .. => .terminalize
  | .recover .. => .recover
  | .prune .. => .prune

/-- One `UPDATE` rewrites the row `e` of the table `t`. -/
inductive RowUpdate (t : CallbackTable) : OpKind → CallbackEdge → CallbackEdge → Prop where
  /-- A created child takes an announced intent. -/
  | takeIntent {e : CallbackEdge} (now : Timestamp) (hstate : e.state = .pending)
      (hawait : e.awaitingChild = true) (hpos : 0 < e.pendingChildIntents) :
      RowUpdate t .create e
        { e with pendingChildIntents := e.pendingChildIntents - 1, updatedAt := now }
  /-- The turn ended and nothing is deferred. -/
  | satisfy {e : CallbackEdge} (now : Timestamp) (ev : TerminalEvidence)
      (hstate : e.state = .pending) (hawait : e.awaitingChild = false) :
      RowUpdate t .satisfy e (e.satisfyWith now ev)
  /-- The turn ended while a child is awaited. -/
  | recordEvidence {e : CallbackEdge} (now : Timestamp) (ev : TerminalEvidence)
      (hstate : e.state = .pending) (hawait : e.awaitingChild = true) :
      RowUpdate t .satisfy e { e.withEvidence ev with updatedAt := now }
  /-- Children are announced. -/
  | announce {e : CallbackEdge} (now : Timestamp) (n : Nat) (hstate : e.state = .pending) :
      RowUpdate t .announce e (e.announce now n)
  /-- A consumed child's continuation ended. -/
  | markCompleted {e : CallbackEdge} (now : Timestamp) (hstate : e.state = .consumed)
      (hopen : e.continuationCompletedAt = none) :
      RowUpdate t .completeChild e
        { e with continuationCompletedAt := some now, updatedAt := now }
  /-- The last child completed. -/
  | fanIn {e : CallbackEdge} (now : Timestamp) (ev : TerminalEvidence)
      (hstate : e.state = .pending) (hawait : e.awaitingChild = true)
      (hintents : e.pendingChildIntents = 0)
      (hchildren : ∀ c ∈ t.rows, c.childOf e.id = true → c.continuationCompletedAt ≠ none) :
      RowUpdate t .completeChild e { e.satisfyWith now ev with awaitingChild := false }
  /-- An announced intent is given back. -/
  | releaseIntent {e : CallbackEdge} (now : Timestamp) (hstate : e.state = .pending)
      (hawait : e.awaitingChild = true) :
      RowUpdate t .releaseDeferred e
        { e with pendingChildIntents := max 0 (e.pendingChildIntents - 1), updatedAt := now }
  /-- No intent and no child is left. -/
  | undefer {e : CallbackEdge} (now : Timestamp) (hstate : e.state = .pending)
      (hawait : e.awaitingChild = true) (hintents : e.pendingChildIntents = 0)
      (hchild : hasChild t e.id = false) :
      RowUpdate t .releaseDeferred e
        { e with
          awaitingChild := false
          state := if e.terminalReason = none then .pending else .satisfied
          satisfiedAt := if e.terminalReason = none then e.satisfiedAt else some now
          updatedAt := now }
  /-- The binder takes the edge. -/
  | claim {e : CallbackEdge} (now : Timestamp) (hstate : e.state = .satisfied) :
      RowUpdate t .claim e
        { e with state := .delivered, deliveredAt := some now, updatedAt := now }
  /-- The offer is withdrawn. -/
  | unclaim {k : OpKind} (hk : k = .releaseDelivered ∨ k = .recover) {e : CallbackEdge}
      (now : Timestamp) (hstate : e.state = .delivered) :
      RowUpdate t k e (e.reoffer now)
  /-- The requester accepted the callback. -/
  | accept {e : CallbackEdge} (now : Timestamp) (hstate : e.state = .delivered) :
      RowUpdate t .consume e (e.consume now)
  /-- The delegated turn returned by itself. -/
  | explicitReturn {e : CallbackEdge} (now : Timestamp) (hstate : e.state.unsettled = true) :
      RowUpdate t .explicitReturn e (e.consume now)
  /-- Delivery, or the continuation an ancestor waits for, became impossible. -/
  | terminalize {e : CallbackEdge} (now : Timestamp) (reason : DeliveryReason)
      (hstate : e.state.unsettled = true) :
      RowUpdate t .terminalize e (e.terminalize now reason)
  /-- A defer without a child is dropped at a restart. -/
  | dropDefer {e : CallbackEdge} (now : Timestamp) (hstate : e.state = .pending)
      (hawait : e.awaitingChild = true) (hchild : hasChild t e.id = false) :
      RowUpdate t .recover e (e.dropDefer now)
  /-- An edge that awaits no child is satisfied at a restart. -/
  | recoverSatisfy {e : CallbackEdge} (now : Timestamp) (ev : TerminalEvidence)
      (hstate : e.state = .pending) (hawait : e.awaitingChild = false) :
      RowUpdate t .recover e (e.satisfyWith now ev)

variable {t t' : CallbackTable} {k : OpKind} {e e' : CallbackEdge} {p : CallbackEdge → Bool}
  {f : CallbackEdge → CallbackEdge}

theorem RowUpdate.id_eq (h : RowUpdate t k e e') : e'.id = e.id := by
  cases h <;> rfl

theorem RowUpdate.parent_eq (h : RowUpdate t k e e') :
    e'.continuationParentCallbackId = e.continuationParentCallbackId := by
  cases h <;> rfl

/-- A row is rewritten by an update of kind `k`, or left alone. -/
def RowStep (t : CallbackTable) (k : OpKind) (e e' : CallbackEdge) : Prop :=
  e' = e ∨ RowUpdate t k e e'

theorem RowStep.id_eq (h : RowStep t k e e') : e'.id = e.id := by
  rcases h with rfl | h
  · rfl
  · exact h.id_eq

theorem RowStep.parent_eq (h : RowStep t k e e') :
    e'.continuationParentCallbackId = e.continuationParentCallbackId := by
  rcases h with rfl | h
  · rfl
  · exact h.parent_eq

/-! ## Statements -/

/-- One statement of an operation of kind `k`. -/
inductive Micro (k : OpKind) : CallbackTable → CallbackTable → Prop where
  /-- An `UPDATE`: every selected row is rewritten. -/
  | update (t t' : CallbackTable) (p : CallbackEdge → Bool) (f : CallbackEdge → CallbackEdge)
      (hrows : t'.rows = t.rows.map (fun e => if p e then f e else e))
      (h : ∀ e ∈ t.rows, p e = true → RowUpdate t k e (f e)) :
      Micro k t t'
  /-- The retention sweep. -/
  | sweep (t : CallbackTable) (cutoff : Timestamp) (hk : k = .recover ∨ k = .prune) :
      Micro k t (t.deleteWhere (prunable t cutoff))

section
variable (hrows : t'.rows = t.rows.map (fun e => if p e then f e else e)) (h : ∀ e ∈ t.rows, p e = true → RowUpdate t k e (f e))
include hrows h

theorem rowStep_of_mem_update {e' : CallbackEdge}
    (he' : e' ∈ t'.rows) : ∃ e ∈ t.rows, RowStep t k e e' := by
  rw [hrows, mem_map] at he'
  obtain ⟨e, he, rfl⟩ := he'
  refine ⟨e, he, ?_⟩
  by_cases hp : p e = true
  · rw [if_pos hp]
    exact .inr (h e he hp)
  · rw [if_neg hp]
    exact .inl rfl

theorem exists_rowStep_of_mem {e : CallbackEdge} (he : e ∈ t.rows) :
    ∃ e' ∈ t'.rows, RowStep t k e e' := by
  refine ⟨if p e = true then f e else e, ?_, ?_⟩
  · rw [hrows]
    exact mem_map.mpr ⟨e, he, rfl⟩
  · by_cases hp : p e = true
    · rw [if_pos hp]
      exact .inr (h e he hp)
    · rw [if_neg hp]
      exact .inl rfl

/-- An `UPDATE` leaves the parent links alone. -/
theorem hasChild_update (id : CallbackId) :
    hasChild t' id = hasChild t id := by
  rw [Bool.eq_iff_iff]
  simp only [hasChild, any_eq_true, CallbackEdge.childOf]
  constructor
  · rintro ⟨e', he', hp⟩
    obtain ⟨e, he, hstep⟩ := rowStep_of_mem_update hrows h he'
    exact ⟨e, he, by rw [← hstep.parent_eq]; exact hp⟩
  · rintro ⟨e, he, hp⟩
    obtain ⟨e', he', hstep⟩ := exists_rowStep_of_mem hrows h he
    exact ⟨e', he', by rw [hstep.parent_eq]; exact hp⟩

/-! ## Operations as statements -/

/-- A sequence of statements of an operation of kind `k`. -/
abbrev Micros (k : OpKind) : CallbackTable → CallbackTable → Prop :=
  Relation.ReflTransGen (Micro k)

/-- Helper: one `UPDATE` is a sequence of statements. -/
private theorem micros_update : Micros k t t' :=
  Relation.ReflTransGen.single (.update t t' p f hrows h)

end

section
variable (t : CallbackTable) (now : Timestamp)

private theorem satisfy_micro (input : SatisfyInput) :
    Micros .satisfy t (satisfyCompletionCallback t now input).1 := by
  unfold satisfyCompletionCallback
  simp only
  split
  · refine micros_update rfl ?_
    intro e _ hp
    simp only [Bool.and_eq_true, beq_iff_eq] at hp
    exact .satisfy now input.evidence hp.1.2 hp.2
  · refine micros_update rfl ?_
    intro e _ hp
    simp only [Bool.and_eq_true, beq_iff_eq] at hp
    exact .recordEvidence now input.evidence hp.1.2 hp.2

private theorem defer_micro
    (channelId targetProfileId targetTurnId : String) (n : Nat) :
    Micros .announce t
      (deferCompletionCallbackForChild t now channelId targetProfileId targetTurnId n).1 := by
  unfold deferCompletionCallbackForChild
  simp only
  split
  · refine micros_update rfl ?_
    intro e _ hp
    simp only [Bool.and_eq_true, beq_iff_eq] at hp
    exact .announce now n hp.2
  · exact .refl

private theorem announce_micro (id : CallbackId) (n : Nat) :
    Micros .announce t (announceContinuationChildren t now id n).1 := by
  unfold announceContinuationChildren
  simp only
  split
  · exact .refl
  · split
    · refine micros_update rfl ?_
      intro e _ hp
      simp only [Bool.and_eq_true, beq_iff_eq] at hp
      exact .announce now n hp.2
    · exact .refl

private theorem completeChild_micro (input : CompleteInput) :
    Micros .completeChild t (completeChildContinuation t now input).1 := by
  unfold completeChildContinuation
  cases t.find? input.callbackId with
  | none => exact .refl
  | some child =>
    simp only
    cases child.continuationParentCallbackId with
    | none => exact .refl
    | some parentId =>
      simp only
      split
      · exact .refl
      · -- the mark comes first; the parent is satisfied on the marked table
        generalize hmarked : t.updateWhere _ _ _ = marked
        have hfirst : Micros .completeChild t marked := by
          rw [← hmarked]
          refine micros_update rfl ?_
          intro e _ hp
          simp only [Bool.and_eq_true, beq_iff_eq, Option.isNone_iff_eq_none] at hp
          exact .markCompleted now hp.1.2 hp.2
        refine hfirst.trans ?_
        split
        · exact .refl
        · rename_i hremaining
          split
          · refine micros_update rfl ?_
            intro e _ hp
            simp only [fanInReady, Bool.and_eq_true, beq_iff_eq] at hp
            obtain ⟨⟨⟨hid, hstate⟩, hawait⟩, hintents⟩ := hp
            refine .fanIn now input.evidence hstate hawait hintents ?_
            intro c hc hchild hnone
            apply hremaining
            rw [any_eq_true]
            exact ⟨c, hc, by simp [← hid, hchild, hnone]⟩
          · exact .refl

private theorem releaseDeferred_micro (id : CallbackId) :
    Micros .releaseDeferred t (releaseDeferredCompletionCallback t now id).1 := by
  unfold releaseDeferredCompletionCallback
  simp only
  generalize hreleased : t.updateWhere _ _ _ = released
  have hfirst : Micros .releaseDeferred t released := by
    rw [← hreleased]
    refine micros_update rfl ?_
    intro e _ hp
    simp only [Bool.and_eq_true, beq_iff_eq] at hp
    exact .releaseIntent now hp.1.2 hp.2
  refine hfirst.trans ?_
  split
  · refine micros_update rfl ?_
    intro e _ hp
    simp only [Bool.and_eq_true, beq_iff_eq, Bool.not_eq_true'] at hp
    obtain ⟨⟨⟨⟨hid, hstate⟩, hawait⟩, hintents⟩, hchild⟩ := hp
    exact .undefer now hstate hawait hintents (hid ▸ hchild)
  · exact .refl

end

private theorem terminalizeAncestors_micro (now : Timestamp) (fuel : Nat) (t : CallbackTable)
    (seen : List CallbackId) (parentId : Option CallbackId) :
    Micros .terminalize t (terminalizeAncestors now fuel t seen parentId) := by
  induction fuel generalizing t seen parentId with
  | zero => exact .refl
  | succ fuel ih =>
    cases parentId with
    | none => exact .refl
    | some parentId =>
      unfold terminalizeAncestors
      split
      · exact .refl
      · cases t.find? parentId with
        | none => exact .refl
        | some parent =>
          refine Relation.ReflTransGen.trans (micros_update rfl ?_) (ih _ _ _)
          intro e _ hp
          simp only [Bool.and_eq_true] at hp
          exact .terminalize now .continuationUndeliverable hp.2

section
variable (t : CallbackTable)

variable (now : Timestamp)

private theorem terminalize_micro (input : TerminalizeInput) :
    Micros .terminalize t (terminalizeDeliveredCompletionCallback t now input).1 := by
  unfold terminalizeDeliveredCompletionCallback
  simp only
  split
  · split
    · exact .refl
    · refine Relation.ReflTransGen.trans (micros_update rfl ?_)
        (terminalizeAncestors_micro now _ _ _ _)
      intro e _ hp
      simp only [Bool.and_eq_true, beq_iff_eq] at hp
      exact .terminalize now input.deliveryReason (by rw [hp.2]; rfl)
  · exact .refl

private theorem recoverImpl_micro (lookup : TerminalLookup) :
    Micros .recover t (recoverCompletionCallbacksImpl t now lookup).1 := by
  have hfirst : Micros .recover t (t.updateWhere (fun e => e.state == .delivered)
      (fun e => e.reoffer now) (Table.keyed fun _ => rfl)) := by
    refine micros_update rfl ?_
    intro e _ hp
    exact .unclaim (.inr rfl) now (by simpa using hp)
  refine hfirst.trans (Relation.ReflTransGen.trans (micros_update rfl ?_) (micros_update rfl ?_))
  · intro e _ hp
    simp only [Bool.and_eq_true, beq_iff_eq, Bool.not_eq_true'] at hp
    exact .dropDefer now hp.1.1 hp.1.2 hp.2
  · intro e _ hp
    simp only [Bool.and_eq_true, beq_iff_eq, Bool.not_eq_true'] at hp
    exact .recoverSatisfy now _ hp.1 hp.2

/-- **Statements of an operation**: every operation but creation is a sequence of guarded row
    updates and retention sweeps of its kind. -/
theorem step_micro (op : CallbackOp) (hkind : op.kind ≠ .create) :
    Micros op.kind t (step t op) := by
  cases op with
  | create now input => exact absurd rfl hkind
  | satisfy now input => exact satisfy_micro t now input
  | defer now channelId targetProfileId targetTurnId n =>
    exact defer_micro t now channelId targetProfileId targetTurnId n
  | announce now id n => exact announce_micro t now id n
  | completeChild now input => exact completeChild_micro t now input
  | releaseDeferred now id => exact releaseDeferred_micro t now id
  | claim now limit =>
    refine micros_update rfl ?_
    intro e _ hp
    simp only [Bool.and_eq_true, beq_iff_eq] at hp
    exact .claim now hp.2
  | releaseDelivered now id =>
    refine micros_update rfl ?_
    intro e _ hp
    simp only [Bool.and_eq_true, beq_iff_eq] at hp
    exact .unclaim (.inl rfl) now hp.2
  | consume now id =>
    refine micros_update rfl ?_
    intro e _ hp
    simp only [Bool.and_eq_true, beq_iff_eq] at hp
    exact .accept now hp.2
  | explicitReturn now input =>
    refine micros_update rfl ?_
    intro e _ hp
    simp only [ExplicitReturnInput.selects, Bool.and_eq_true] at hp
    exact .explicitReturn now hp.2
  | ancestorReturn now id =>
    refine micros_update rfl ?_
    intro e _ hp
    simp only [Bool.and_eq_true] at hp
    exact .explicitReturn now hp.2
  | terminalize now input => exact terminalize_micro t now input
  | recover now lookup =>
    exact (recoverImpl_micro t now lookup).tail (.sweep _ _ (.inl rfl))
  | prune now olderThanMs =>
    exact Relation.ReflTransGen.single (.sweep t _ (.inr rfl))

structure Created (t : CallbackTable) (now : Timestamp) (input : CreateInput)
    (t' : CallbackTable) : Prop where
  fresh : t.find? input.id = none
  parent : ∀ parentId, input.continuationParentCallbackId = some parentId →
    ∃ p ∈ t.rows, p.id = parentId ∧ p.state = .pending ∧ p.awaitingChild = true ∧
      1 ≤ p.pendingChildIntents
  result : t' = takeIntent (t.insert (input.newEdge now)) now input.continuationParentCallbackId

/-- A creation changes nothing, or inserts its edge and takes an intent of its parent. -/
theorem step_create (now : Timestamp) (input : CreateInput) :
    step t (.create now input) = t ∨ Created t now input (step t (.create now input)) := by
  unfold step createCompletionCallback
  by_cases hacc : parentAccepts t input = true
  · simp only [hacc, if_true]
    cases t.rows.find? (fun e =>
        e.targets input.channelId input.targetProfileId input.targetTurnId) with
    | some existing =>
      left
      simp only
      split <;> rfl
    | none =>
      by_cases hid : (t.find? input.id).isSome = true
      · left
        rw [if_pos hid]
      · right
        rw [if_neg hid]
        refine ⟨by simpa using hid, ?_, rfl⟩
        intro parentId hparent
        rw [parentAccepts, hparent] at hacc
        cases hfind : t.find? parentId with
        | none => simp [hfind] at hacc
        | some p =>
          simp only [hfind, acceptsChild, Bool.and_eq_true, beq_iff_eq, decide_eq_true_eq] at hacc
          obtain ⟨hmem, hidp⟩ := (t.find?_eq_some_iff parentId p).mp hfind
          exact ⟨p, hmem, hidp, hacc.1.1.2, hacc.1.2, hacc.2⟩
  · left
    simp [hacc]

end

/-! ## Creation -/

theorem takeIntent_micro (t : CallbackTable) (now : Timestamp) (parentId : Option CallbackId) :
    Micros .create t (takeIntent t now parentId) := by
  cases parentId with
  | none => exact .refl
  | some id =>
    refine micros_update rfl ?_
    intro e _ hp
    simp only [Bool.and_eq_true, beq_iff_eq, decide_eq_true_eq] at hp
    exact .takeIntent now hp.1.1.2 hp.1.2 hp.2

theorem Created.mem_insert {now : Timestamp} {input : CreateInput}
    (h : Created t now input t') (e : CallbackEdge) :
    e ∈ (t.insert (input.newEdge now)).rows ↔ e ∈ t.rows ∨ e = input.newEdge now := by
  have hnew : t.find? (input.newEdge now).id = none := h.fresh
  rw [Table.rows_insert_of_new t _ hnew, mem_append, mem_singleton]

end RelayIde.Callback
