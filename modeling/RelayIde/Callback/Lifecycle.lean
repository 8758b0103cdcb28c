import RelayIde.Callback.Steps
import RelayIde.Library.Machine

/-!
# Callback Lifecycle

What holds of the callback table in every reachable state, and what one operation may do to
the state of an edge.

- `callback_lifecycle` — the lifecycle of every run in which no sweep prunes over an open edge
  and no creation takes an id that a stored row still names as its parent
-/

namespace RelayIde.Callback

open RelayIde.Library List

/-! ## Moves of one edge -/

/-- State changes an operation of kind `k` makes. -/
inductive Move : OpKind → CallbackState → CallbackState → Prop where
  /-- The operation leaves the edge alone. -/
  | stay (k : OpKind) (s : CallbackState) : Move k s s
  /-- The completion became known. -/
  | satisfy {k : OpKind}
      (hk : k = .satisfy ∨ k = .completeChild ∨ k = .releaseDeferred ∨ k = .recover) :
      Move k .pending .satisfied
  /-- The binder claimed the edge. -/
  | deliver : Move .claim .satisfied .delivered
  /-- The offer was withdrawn, or lost in a restart. -/
  | reoffer {k : OpKind} (hk : k = .releaseDelivered ∨ k = .recover) :
      Move k .delivered .satisfied
  /-- The requester accepted the offer. -/
  | consume : Move .consume .delivered .consumed
  /-- An explicit return suppressed the callback. -/
  | explicitReturn (s : CallbackState) (hs : s.unsettled = true) :
      Move .explicitReturn s .consumed
  /-- The callback can never be delivered. -/
  | terminalize (s : CallbackState) (hs : s.unsettled = true) :
      Move .terminalize s .undeliverable

variable {k : OpKind} {t t' : CallbackTable} {e e' : CallbackEdge} {cutoff : Timestamp}
  {op : CallbackOp}

theorem Move.eq_of_settled {s s' : CallbackState} (h : Move k s s')
    (hs : s.unsettled = false) : s' = s := by
  cases h with
  | stay => rfl
  | satisfy _ | deliver | reoffer _ | consume => cases hs
  | explicitReturn _ hu | terminalize _ hu => rw [hs] at hu; cases hu

theorem Move.trans {s s' s'' : CallbackState} (h : Move k s s')
    (h' : Move k s' s'') : Move k s s'' := by
  cases h with
  | stay => exact h'
  | satisfy hk =>
    cases h' with
    | stay => exact .satisfy hk
    | deliver | explicitReturn _ _ | terminalize _ _ => simp at hk
  | deliver =>
    cases h' with
    | stay => exact .deliver
    | reoffer hk => simp at hk
  | reoffer hk =>
    cases h' with
    | stay => exact .reoffer hk
    | deliver => simp at hk
    | explicitReturn _ _ => simp at hk
    | terminalize _ _ => simp at hk
  | consume => rw [h'.eq_of_settled rfl]; exact .consume
  | explicitReturn _ hu => rw [h'.eq_of_settled rfl]; exact .explicitReturn s hu
  | terminalize _ hu => rw [h'.eq_of_settled rfl]; exact .terminalize s hu

theorem RowUpdate.move (h : RowUpdate t k e e') : Move k e.state e'.state := by
  cases h with
  | takeIntent | recordEvidence | announce | markCompleted | releaseIntent | dropDefer =>
    exact .stay _ _
  | satisfy now ev hstate | fanIn now ev hstate | recoverSatisfy now ev hstate =>
    rw [hstate]; exact .satisfy (by simp)
  | undefer now hstate =>
    -- without evidence the edge stays pending
    simp only [hstate]
    split
    · exact .stay _ _
    · exact .satisfy (by simp)
  | claim now hstate => rw [hstate]; exact .deliver
  | unclaim hk now hstate => rw [hstate]; exact .reoffer hk
  | accept now hstate => rw [hstate]; exact .consume
  | explicitReturn now hu => exact .explicitReturn _ hu
  | terminalize now reason hu => exact .terminalize _ hu

private theorem micros_move (h : Micros k t t') :
    ∀ e' ∈ t'.rows, ∃ e ∈ t.rows, e.id = e'.id ∧ Move k e.state e'.state := by
  induction h with
  | refl => exact fun e' he' => ⟨e', he', rfl, .stay _ _⟩
  | tail _ hmicro ih =>
    intro e'' he''
    cases hmicro with
    | update v p f hrows hupd =>
      obtain ⟨e', he', hstep⟩ := rowStep_of_mem_update hrows hupd he''
      obtain ⟨e, he, hid, hmove⟩ := ih e' he'
      refine ⟨e, he, hid.trans hstep.id_eq.symm, ?_⟩
      rcases hstep with rfl | hupdate
      · exact hmove
      · exact hmove.trans hupdate.move
    | sweep cutoff hk =>
      exact ih e'' (mem_filter.mp he'').1

/-- **Edge moves**: one operation changes the state of an edge only by a move of its kind. -/
theorem step_move (t : CallbackTable) (op : CallbackOp) {e e' : CallbackEdge}
    (he : e ∈ t.rows) (he' : e' ∈ (step t op).rows) (hid : e'.id = e.id) :
    Move op.kind e.state e'.state := by
  by_cases hkind : op.kind = .create
  · cases op with
    | create now input =>
      rcases step_create t now input with heq | hcreated
      · rw [heq] at he'
        rw [t.eq_of_key_eq he' he hid]
        exact .stay _ _
      · rw [hcreated.result] at he'
        obtain ⟨e₁, he₁, hid₁, hmove⟩ := micros_move (takeIntent_micro _ now _) e' he'
        rw [hcreated.mem_insert] at he₁
        rcases he₁ with he₁ | rfl
        · rw [t.eq_of_key_eq he he₁ (hid.symm.trans hid₁.symm)]
          exact hmove
        · -- the new row has an id the table did not hold
          have hnew := (t.find?_eq_none_iff input.id).mp hcreated.fresh e he
          exact absurd (hid.symm.trans hid₁.symm) hnew
    | _ => cases hkind
  · obtain ⟨e₁, he₁, hid₁, hmove⟩ := micros_move (step_micro t op hkind) e' he'
    rw [t.eq_of_key_eq he he₁ (hid.symm.trans hid₁.symm)]
    exact hmove

/-! ## Invariants of every state -/

/-- What holds of the table between operations. -/
structure LifecycleInv (t : CallbackTable) : Prop where
  intents_nonneg : ∀ e ∈ t.rows, 0 ≤ e.pendingChildIntents
  childless : ∀ e ∈ t.rows, e.state = .pending → e.awaitingChild = false →
    hasChild t e.id = false

theorem RowUpdate.intents_nonneg
    (h : RowUpdate t k e e') (he : 0 ≤ e.pendingChildIntents) : 0 ≤ e'.pendingChildIntents := by
  cases h with
  | takeIntent now _ _ hpos =>
    show 0 ≤ e.pendingChildIntents - 1
    omega
  | announce now n _ =>
    show 0 ≤ e.pendingChildIntents + n
    omega
  | releaseIntent now _ _ => exact le_max_left 0 _
  | dropDefer => exact le_refl 0
  | _ => exact he

/-- Helper: an update leaves an edge pending and not deferred only where it was so already, or
    where it checked that there is no child. -/
private theorem RowUpdate.childless
    (h : RowUpdate t k e e') (hstate : e'.state = .pending) (hawait : e'.awaitingChild = false) :
    (e.state = .pending ∧ e.awaitingChild = false) ∨ hasChild t e.id = false := by
  cases h with
  | takeIntent | recordEvidence | markCompleted | releaseIntent => exact .inl ⟨hstate, hawait⟩
  | satisfy => cases hstate
  | announce => cases hawait
  | fanIn => cases hstate
  | undefer _ _ _ _ hchild | dropDefer _ _ _ hchild => exact .inr hchild
  | claim => cases hstate
  | unclaim => cases hstate
  | accept => cases hstate
  | explicitReturn => cases hstate
  | terminalize => cases hstate
  | recoverSatisfy => cases hstate

private theorem hasChild_sweep {p : CallbackEdge → Bool} {id : CallbackId}
    (h : hasChild t id = false) : hasChild (t.deleteWhere p) id = false := by
  rw [hasChild, any_eq_false] at h ⊢
  intro e he
  exact h e (mem_filter.mp he).1

private theorem LifecycleInv.micros (h : Micros k t t')
    (hinv : LifecycleInv t) : LifecycleInv t' := by
  induction h with
  | refl => exact hinv
  | tail _ hmicro ih =>
    cases hmicro with
    | update v p f hrows hupd =>
      refine ⟨?_, ?_⟩
      · intro e' he'
        obtain ⟨e, he, rfl | hupdate⟩ := rowStep_of_mem_update hrows hupd he'
        · exact ih.intents_nonneg _ he
        · exact hupdate.intents_nonneg (ih.intents_nonneg e he)
      · intro e' he' hstate hawait
        obtain ⟨e, he, hstep⟩ := rowStep_of_mem_update hrows hupd he'
        rw [hasChild_update hrows hupd, hstep.id_eq]
        rcases hstep with rfl | hupdate
        · exact ih.childless _ he hstate hawait
        · rcases hupdate.childless hstate hawait with ⟨hs, ha⟩ | hchild
          · exact ih.childless e he hs ha
          · exact hchild
    | sweep cutoff hk =>
      refine ⟨?_, ?_⟩
      · intro e he
        exact ih.intents_nonneg e (mem_filter.mp he).1
      · intro e he hstate hawait
        exact hasChild_sweep (ih.childless e (mem_filter.mp he).1 hstate hawait)

private theorem LifecycleInv.insert {now : Timestamp} {input : CreateInput}
    (hcreated : Created t now input t') (hinv : LifecycleInv t)
    (hdangling : hasChild t input.id = false) : LifecycleInv (t.insert (input.newEdge now)) := by
  refine ⟨?_, ?_⟩
  · intro e he
    rcases (hcreated.mem_insert e).mp he with he | rfl
    · exact hinv.intents_nonneg e he
    · exact le_refl 0
  · intro e he hstate hawait
    rw [hasChild, any_eq_false]
    intro c hc hchild
    rw [CallbackEdge.childOf, beq_iff_eq] at hchild
    have hold : ∀ c ∈ t.rows, hasChild t e.id = false →
        c.continuationParentCallbackId ≠ some e.id := by
      intro c hc hnone hp
      rw [hasChild, any_eq_false] at hnone
      exact hnone c hc (by simp [CallbackEdge.childOf, hp])
    rcases (hcreated.mem_insert c).mp hc with hc | rfl
    · -- an old row: it has no child among the old ones, and nothing pointed at the new id
      rcases (hcreated.mem_insert e).mp he with he | rfl
      · exact hold c hc (hinv.childless e he hstate hawait) hchild
      · exact hold c hc hdangling hchild
    · -- the new row: its parent was deferred, and is not itself
      obtain ⟨p, hp, hpid, -, hpawait, -⟩ := hcreated.parent e.id hchild
      rcases (hcreated.mem_insert e).mp he with he | rfl
      · rw [t.eq_of_key_eq hp he hpid, hawait] at hpawait
        cases hpawait
      · exact (t.find?_eq_none_iff input.id).mp hcreated.fresh p hp hpid

/-! ## Retention -/

/-- `c` is a stored child of the stored row `p`. -/
def ParentOf (t : CallbackTable) (p c : CallbackEdge) : Prop :=
  p ∈ t.rows ∧ c ∈ t.rows ∧ c.childOf p.id = true

/-- `a` is an ancestor of `e` in the table. -/
abbrev AncestorOf (t : CallbackTable) : CallbackEdge → CallbackEdge → Prop :=
  Relation.TransGen (ParentOf t)

/-- The sweep selects a row that has an unsettled edge two or more links below it.  Its
    `WHERE` clause looks one link down only. -/
def PrunesOver (t : CallbackTable) (cutoff : Timestamp) : Prop :=
  ∃ g ∈ t.rows, prunable t cutoff g = true ∧
    ∃ c, ParentOf t g c ∧ ∃ u, AncestorOf t c u ∧ u.state.unsettled = true

theorem not_unsettled_of_prunable {g c : CallbackEdge}
    (hg : prunable t cutoff g = true) (hc : ParentOf t g c) : c.state.unsettled = false := by
  simp only [prunable, Bool.and_eq_true, Bool.not_eq_true', any_eq_false] at hg
  have hchild := hg.1.2 c hc.2.1
  cases hu : c.state.unsettled with
  | false => rfl
  | true => exact absurd ⟨hc.2.2, by simp [CallbackEdge.incompleteChild, hu]⟩ hchild

theorem sweep_keeps_ancestors_iff (t : CallbackTable) (cutoff : Timestamp) :
    (∀ u a, AncestorOf t a u → u.state.unsettled = true → prunable t cutoff a = false) ↔
      ¬ PrunesOver t cutoff := by
  constructor
  · rintro hkeep ⟨g, -, hg, c, hgc, u, hcu, hu⟩
    have := hkeep u g (Relation.TransGen.head hgc hcu) hu
    rw [hg] at this
    cases this
  · intro hno u a hau hu
    cases hp : prunable t cutoff a with
    | false => rfl
    | true =>
      exfalso
      rcases Relation.TransGen.head'_iff.mp hau with ⟨c, hac, hcu⟩
      rcases Relation.reflTransGen_iff_eq_or_transGen.mp hcu with rfl | hcu
      · rw [not_unsettled_of_prunable hp hac] at hu
        cases hu
      · exact hno ⟨a, hac.1, hp, c, hac, u, hcu, hu⟩

def CallbackOp.sweeps (t : CallbackTable) : CallbackOp → Option (CallbackTable × Timestamp)
  | .recover now lookup =>
    some ((recoverCompletionCallbacksImpl t now lookup).1,
      now - completionCallbackConsumedRetentionMs)
  | .prune now olderThanMs => some (t, now - (max 0 olderThanMs).toNat)
  | _ => none

/-! ## Runs -/

structure LifecycleGuard (t : CallbackTable) (op : CallbackOp) : Prop where
  create : ∀ now input, op = .create now input → t.find? input.id = none →
    hasChild t input.id = false
  sweep : ∀ u cutoff, op.sweeps t = some (u, cutoff) → ¬ PrunesOver u cutoff

/-- What one operation does to the edges of the table. -/
structure LifecycleStep (t : CallbackTable) (op : CallbackOp) : Prop where
  moves : ∀ e ∈ t.rows, ∀ e' ∈ (step t op).rows, e'.id = e.id → Move op.kind e.state e'.state
  absorbing : ∀ e ∈ t.rows, ∀ e' ∈ (step t op).rows, e'.id = e.id →
    e.state.unsettled = false → e'.state = e.state
  /-- A sweep deletes no ancestor of an unsettled edge. -/
  sweep_keeps : ∀ u cutoff, op.sweeps t = some (u, cutoff) →
    ∀ e a, AncestorOf u a e → e.state.unsettled = true → a ∈ (step t op).rows

/-- `op` consumes the edge `id`. -/
def Consumes (t : CallbackTable) (op : CallbackOp) (id : CallbackId) : Prop :=
  (∃ e ∈ t.rows, e.id = id ∧ e.state ≠ .consumed) ∧
    ∃ e' ∈ (step t op).rows, e'.id = id ∧ e'.state = .consumed

/-- Two consumptions of one id in a run are separated by a state without that row. -/
def ConsumedOnce (ops : List CallbackOp) : Prop :=
  ∀ pre op mid op' post id, ops = pre ++ op :: mid ++ op' :: post →
    Consumes (exec step Table.empty pre) op id →
    Consumes (exec step Table.empty (pre ++ op :: mid)) op' id →
    ∃ m, m <+: mid ∧ (exec step Table.empty (pre ++ op :: m)).find? id = none

theorem step_of_sweeps {u : CallbackTable}
    (h : op.sweeps t = some (u, cutoff)) : step t op = u.deleteWhere (prunable u cutoff) := by
  cases op with
  | recover now lookup | prune now olderThanMs =>
    obtain ⟨rfl, rfl⟩ := h
    rfl
  | _ => cases h

private theorem LifecycleInv.step (hinv : LifecycleInv t)
    (hguard : LifecycleGuard t op) : LifecycleInv (step t op) := by
  by_cases hkind : op.kind = .create
  · cases op with
    | create now input =>
      rcases step_create t now input with heq | hcreated
      · rw [heq]
        exact hinv
      · rw [hcreated.result]
        apply LifecycleInv.micros (takeIntent_micro _ now _)
        exact LifecycleInv.insert hcreated hinv (hguard.create now input rfl hcreated.fresh)
    | _ => cases hkind
  · exact LifecycleInv.micros (step_micro t op hkind) hinv

private theorem lifecycleStep_of_guard (hguard : LifecycleGuard t op) : LifecycleStep t op where
  moves e he e' he' hid := step_move t op he he' hid
  absorbing e he e' he' hid hsettled := (step_move t op he he' hid).eq_of_settled hsettled
  sweep_keeps u cutoff hsweep e a hae hu := by
    have hkeep := (sweep_keeps_ancestors_iff u cutoff).mpr (hguard.sweep u cutoff hsweep) e a hae hu
    have hmem : a ∈ u.rows := by
      rcases Relation.TransGen.head'_iff.mp hae with ⟨c, hac, -⟩
      exact hac.1
    rw [step_of_sweeps hsweep, Table.rows_deleteWhere, mem_filter, hkeep]
    exact ⟨hmem, rfl⟩

private theorem consumed_of_present (mid : List CallbackOp) (t : CallbackTable) (id : CallbackId)
    (hcons : ∃ e ∈ t.rows, e.id = id ∧ e.state = .consumed)
    (hpres : ∀ m, m <+: mid → (exec step t m).find? id ≠ none) :
    ∃ e ∈ (exec step t mid).rows, e.id = id ∧ e.state = .consumed := by
  induction mid generalizing t with
  | nil => exact hcons
  | cons op mid ih =>
    apply ih
    · obtain ⟨e, he, hid, hstate⟩ := hcons
      obtain ⟨e', hfind⟩ := Option.ne_none_iff_exists'.mp
        (hpres [op] (prefix_append [op] mid))
      obtain ⟨he', hid'⟩ := (Table.find?_eq_some_iff _ _ _).mp hfind
      refine ⟨e', he', hid', ?_⟩
      have hmove := step_move t op he he' (hid'.trans hid.symm)
      rw [hmove.eq_of_settled (by rw [hstate]; rfl), hstate]
    · intro m hm
      exact hpres (op :: m) (cons_prefix_cons.mpr ⟨rfl, hm⟩)

private theorem consumedOnce (ops : List CallbackOp) : ConsumedOnce ops := by
  intro pre op mid op' post id _ hfirst hsecond
  -- otherwise the row is present, hence consumed, when it is consumed again
  by_contra hall
  push Not at hall
  obtain ⟨e', he', hid', hstate'⟩ := hfirst.2
  have hcons : ∃ e ∈ (exec step Table.empty (pre ++ op :: mid)).rows,
      e.id = id ∧ e.state = .consumed := by
    rw [exec_append]
    apply consumed_of_present mid _ id ⟨e', he', hid', hstate'⟩
    intro m hm
    have hne := hall m hm
    rwa [exec_append] at hne
  obtain ⟨e, he, hid, hstate⟩ := hcons
  obtain ⟨f, hf, hfid, hfstate⟩ := hsecond.1
  exact hfstate (by rw [Table.eq_of_key_eq _ hf he (hfid.trans hid.symm)]; exact hstate)

structure LifecycleHolds (ops : List CallbackOp) : Prop where
  inv : LifecycleInv (exec step Table.empty ops)
  steps : ∀ pre op post, ops = pre ++ op :: post → LifecycleStep (exec step Table.empty pre) op
  once : ConsumedOnce ops

theorem lifecycleInv_empty : LifecycleInv Table.empty :=
  ⟨fun e he => absurd he (by simp), fun e he => absurd he (by simp)⟩

/-- **Callback lifecycle**: in every run whose creations take no dangling id and whose sweeps
    prune over no unsettled edge, every reached table keeps the invariant, every operation moves
    edges only along the lifecycle and deletes no ancestor of an unsettled edge, and every edge
    is consumed at most once. -/
theorem callback_lifecycle (ops : List CallbackOp)
    (hguard : Guarded step LifecycleGuard Table.empty ops) : LifecycleHolds ops where
  inv := exec_invariant_of_guarded (fun t op => LifecycleInv.step) lifecycleInv_empty hguard
  steps := by
    rintro pre op post rfl
    exact lifecycleStep_of_guard ((guarded_append _ _ _ _ _).mp hguard).2.1
  once := consumedOnce ops

/-! ## Fixed runs -/

/-- A creation for the turn `turn` of the profile `target`, requested by `requester`. -/
def CreateInput.forTurn (turn requester target : String) (parent : Option String) :
    CreateInput :=
  { id := ⟨turn⟩
    channelId := "room"
    threadId := none
    triggerMessageId := "trigger"
    requesterProfileId := requester
    targetProfileId := target
    targetRuntimeId := "runtime"
    targetTurnId := turn
    continuationParentCallbackId := parent.map CallbackId.mk }

/-- Evidence of a turn that completed without a reply row. -/
def bareEvidence : TerminalEvidence := ⟨.completed, none, .noTerminalMessage⟩

/-- `A` asks `B`, `B` asks `C`, and `C` asks both `D` and `E`; `D` answers first, and its answer
    cannot be delivered to `C`. -/
def undeliverableBranch : List CallbackOp :=
  [ .create 1 (.forTurn "b" "A" "B" none),
    .defer 2 "room" "B" "b" 1,
    .create 3 (.forTurn "c" "B" "C" (some "b")),
    .defer 4 "room" "C" "c" 2,
    .create 5 (.forTurn "d" "C" "D" (some "c")),
    .create 6 (.forTurn "e" "C" "E" (some "c")),
    .satisfy 7 ⟨"room", "D", "d", bareEvidence⟩,
    .claim 8 100,
    .terminalize 9 ⟨⟨"d"⟩, "room", none, .requesterProfileUnavailable⟩ ]

/-- The sweep after `undeliverableBranch` deletes the edge of `B`, the grandparent of the edge of
    `E`, which is still pending. -/
theorem lifecycle_fails_on_undeliverable_branch :
    ¬ LifecycleHolds (undeliverableBranch ++ [.prune 1000 0]) := by
  have hcheck : (exec step Table.empty undeliverableBranch).rows.any (fun g =>
      (exec step Table.empty undeliverableBranch).rows.any (fun p =>
        (exec step Table.empty undeliverableBranch).rows.any (fun u =>
          p.childOf g.id && u.childOf p.id && u.state == .pending &&
            !(step (exec step Table.empty undeliverableBranch) (.prune 1000 0)).rows.contains
              g))) = true := by
    decide
  simp only [any_eq_true, Bool.and_eq_true, beq_iff_eq, Bool.not_eq_true',
    contains_eq_mem, decide_eq_false_iff_not] at hcheck
  obtain ⟨g, hg, p, hp, u, hu, ⟨⟨hgp, hpu⟩, hpending⟩, hgone⟩ := hcheck
  intro hholds
  have hstep := hholds.steps undeliverableBranch (.prune 1000 0) [] rfl
  have hancestor : AncestorOf (exec step Table.empty undeliverableBranch) g u :=
    (Relation.TransGen.single ⟨hg, hp, hgp⟩).tail ⟨hp, hu, hpu⟩
  apply hgone
  exact hstep.sweep_keeps _ _ rfl u g hancestor (by rw [hpending]; rfl)

def answeredDelegation : List CallbackOp :=
  [ .create 1 (.forTurn "b" "A" "B" none),
    .satisfy 2 ⟨"room", "B", "b", bareEvidence⟩,
    .claim 3 100,
    .consume 4 ⟨"b"⟩,
    .prune 1000 0 ]

private theorem not_prunesOver_of_settled
    (h : t.rows.all (fun e => !e.state.unsettled) = true) : ¬ PrunesOver t cutoff := by
  rintro ⟨g, -, -, c, -, u, hcu, hu⟩
  rcases Relation.TransGen.tail'_iff.mp hcu with ⟨p, -, hpu⟩
  have hsettled := all_eq_true.mp h u hpu.2.1
  rw [hu] at hsettled
  cases hsettled

/-- `answeredDelegation` meets the condition and keeps the lifecycle. -/
theorem callback_lifecycle_of_answered_delegation : LifecycleHolds answeredDelegation := by
  apply callback_lifecycle
  refine ⟨⟨?_, ?_⟩, ⟨?_, ?_⟩, ⟨?_, ?_⟩, ⟨?_, ?_⟩, ⟨?_, ?_⟩, trivial⟩
  · rintro now input ⟨⟩ _
    rfl
  all_goals try (intro _ _ h; cases h)
  exact not_prunesOver_of_settled (by decide)

end RelayIde.Callback
