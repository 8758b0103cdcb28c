import RelayIde.Callback.Lifecycle

/-!
# Replayed Admissions

A delegated turn is admitted to a binding's queue by `enqueueTurn`
(`server/channel-agent-binder.ts`), which creates its callback edge first.  After a failed send the
trigger is queued again, perhaps on another runtime, and the creation is replayed.

- `replay_iff` — when it returns the edge: the parent's validity is checked first, against the
  intents the first creation left

The admission of a child whose parent announced no other intent cannot be replayed.
-/

namespace RelayIde.Callback

open RelayIde.Library List

/-! ## Admissions -/

structure CallbackEdgeRequest where
  requesterProfileId : String
  continuationParentCallbackId : Option CallbackId

def channelTurnIdPrefix : String := "chturn-"

def channelTurnId (triggerMessageId profileActorId : String) : String :=
  channelTurnIdPrefix ++ triggerMessageId ++ "-" ++ profileActorId

/-! ## What an edge was created for -/

/-- Two states of one edge. -/
structure SameRelation (e e' : CallbackEdge) : Prop where
  id : e'.id = e.id
  channelId : e'.channelId = e.channelId
  targetProfileId : e'.targetProfileId = e.targetProfileId
  targetTurnId : e'.targetTurnId = e.targetTurnId
  requesterProfileId : e'.requesterProfileId = e.requesterProfileId
  parent : e'.continuationParentCallbackId = e.continuationParentCallbackId

theorem SameRelation.refl (e : CallbackEdge) : SameRelation e e := ⟨rfl, rfl, rfl, rfl, rfl, rfl⟩

variable {e' : CallbackEdge} {k : OpKind} {now : Timestamp}

theorem SameRelation.trans {e e'' : CallbackEdge} (h : SameRelation e e')
    (h' : SameRelation e' e'') : SameRelation e e'' where
  id := h'.id.trans h.id
  channelId := h'.channelId.trans h.channelId
  targetProfileId := h'.targetProfileId.trans h.targetProfileId
  targetTurnId := h'.targetTurnId.trans h.targetTurnId
  requesterProfileId := h'.requesterProfileId.trans h.requesterProfileId
  parent := h'.parent.trans h.parent

theorem SameRelation.targets {e : CallbackEdge} (h : SameRelation e e')
    (channelId targetProfileId targetTurnId : String) :
    e'.targets channelId targetProfileId targetTurnId =
      e.targets channelId targetProfileId targetTurnId := by
  rw [CallbackEdge.targets, CallbackEdge.targets, h.channelId, h.targetProfileId, h.targetTurnId]

theorem RowUpdate.sameRelation {t : CallbackTable} {e : CallbackEdge}
    (h : RowUpdate t k e e') : SameRelation e e' := by
  cases h <;> exact ⟨rfl, rfl, rfl, rfl, rfl, rfl⟩

theorem rows_micros {t t' : CallbackTable} (h : Micros k t t') :
    ∀ e' ∈ t'.rows, ∃ e ∈ t.rows, SameRelation e e' := by
  induction h with
  | refl => exact fun e he => ⟨e, he, .refl e⟩
  | tail _ hmicro ih =>
    intro e'' he''
    cases hmicro with
    | update v p f hrows hupdate =>
      obtain ⟨e', he', hstep⟩ := rowStep_of_mem_update hrows hupdate he''
      obtain ⟨e, he, hsame⟩ := ih e' he'
      refine ⟨e, he, ?_⟩
      rcases hstep with rfl | hstep
      · exact hsame
      · exact hsame.trans hstep.sameRelation
    | sweep cutoff hk =>
      exact ih e'' (mem_filter.mp he'').1

/-! ## One creation -/

/-- The edge of the target turn, as the creation looks it up. -/
def CreateInput.existing (input : CreateInput) (t : CallbackTable) : Option CallbackEdge :=
  t.rows.find? (fun e => e.targets input.channelId input.targetProfileId input.targetTurnId)

theorem CreateInput.existing_eq_some {input : CreateInput} {t : CallbackTable} {e : CallbackEdge}
    (h : input.existing t = some e) :
    e ∈ t.rows ∧ e.targets input.channelId input.targetProfileId input.targetTurnId = true := by
  exact ⟨mem_of_find?_eq_some h, by simpa using find?_some h⟩

def CreateInput.relates (input : CreateInput) (e : CallbackEdge) : Prop :=
  e.requesterProfileId = input.requesterProfileId ∧
    e.continuationParentCallbackId = input.continuationParentCallbackId

instance (input : CreateInput) (e : CallbackEdge) : Decidable (input.relates e) :=
  inferInstanceAs (Decidable (_ ∧ _))

variable {t : CallbackTable} {input : CreateInput}

theorem create_of_existing {e : CallbackEdge}
    (h : input.existing t = some e) (now : Timestamp) :
    createCompletionCallback t now input =
      (t, if parentAccepts t input = true ∧ input.relates e then some e else none) := by
  have hfind : t.rows.find? (fun e =>
      e.targets input.channelId input.targetProfileId input.targetTurnId) = some e := h
  unfold createCompletionCallback
  rw [hfind]
  by_cases hparent : parentAccepts t input = true
  · simp only [hparent, if_true, true_and]
    by_cases hrelates : input.relates e
    · rw [if_pos hrelates, if_neg]
      rintro (hne | hne)
      · exact hne hrelates.1
      · exact hne hrelates.2
    · rw [if_neg hrelates, if_pos]
      -- one of the two differs
      by_contra hsame
      push Not at hsame
      exact hrelates hsame
  · simp [hparent]

theorem create_of_not_existing
    (h : input.existing t = none) (now : Timestamp) :
    createCompletionCallback t now input = (t, none) ∨
      parentAccepts t input = true ∧ t.find? input.id = none ∧
        createCompletionCallback t now input =
          (takeIntent (t.insert (input.newEdge now)) now input.continuationParentCallbackId,
            (takeIntent (t.insert (input.newEdge now)) now
              input.continuationParentCallbackId).find? input.id) := by
  have hfind : t.rows.find? (fun e =>
      e.targets input.channelId input.targetProfileId input.targetTurnId) = none := h
  unfold createCompletionCallback
  rw [hfind]
  by_cases hparent : parentAccepts t input = true
  · by_cases hid : (t.find? input.id).isSome = true
    · left
      rw [if_pos hparent]
      exact if_pos hid
    · right
      refine ⟨hparent, by simpa using hid, ?_⟩
      rw [if_pos hparent]
      exact if_neg hid
  · left
    exact if_neg hparent

/-! ## Runs -/

/-- A target turn has one edge. -/
def TargetUnique (t : CallbackTable) : Prop :=
  ∀ e ∈ t.rows, ∀ e' ∈ t.rows,
    e'.targets e.channelId e.targetProfileId e.targetTurnId = true → e' = e

/-- **One operation** rewrites edges in place; only a creation adds one, for a target turn that had
    none. -/
theorem rows_step (t : CallbackTable) (op : CallbackOp)
    (he' : e' ∈ (step t op).rows) :
    (∃ e ∈ t.rows, SameRelation e e') ∨
      ∃ now input, op = .create now input ∧ input.existing t = none ∧
        SameRelation (input.newEdge now) e' := by
  by_cases hkind : op.kind = .create
  · cases op with
    | create now input =>
      change e' ∈ (createCompletionCallback t now input).1.rows at he'
      cases hexisting : input.existing t with
      | some e =>
        rw [create_of_existing hexisting] at he'
        exact .inl ⟨e', he', .refl e'⟩
      | none =>
        rcases create_of_not_existing hexisting now with heq | ⟨-, hid, heq⟩
        · rw [heq] at he'
          exact .inl ⟨e', he', .refl e'⟩
        · rw [heq] at he'
          obtain ⟨e, he, hsame⟩ := rows_micros (takeIntent_micro _ now _) e' he'
          have hnew : t.find? (input.newEdge now).id = none := hid
          rw [Table.rows_insert_of_new t _ hnew, mem_append, mem_singleton] at he
          rcases he with he | rfl
          · exact .inl ⟨e, he, hsame⟩
          · exact .inr ⟨now, input, rfl, hexisting, hsame⟩
    | _ => cases hkind
  · exact .inl (rows_micros (step_micro t op hkind) e' he')

theorem targets_eq_true_iff {e : CallbackEdge} {channelId targetProfileId targetTurnId : String} :
    e.targets channelId targetProfileId targetTurnId = true ↔
      e.channelId = channelId ∧ e.targetProfileId = targetProfileId ∧
        e.targetTurnId = targetTurnId := by
  simp [CallbackEdge.targets, and_assoc]

theorem SameRelation.targets_of {e f f' : CallbackEdge} (he : SameRelation e e')
    (hf : SameRelation f f')
    (h : f'.targets e'.channelId e'.targetProfileId e'.targetTurnId = true) :
    f.targets e.channelId e.targetProfileId e.targetTurnId = true := by
  rw [hf.targets, he.channelId, he.targetProfileId, he.targetTurnId] at h
  exact h

/-- No operation gives a child a second edge. -/
theorem targetUnique_step {t : CallbackTable} (h : TargetUnique t) (op : CallbackOp) :
    TargetUnique (step t op) := by
  intro e he f hf htargets
  -- it is enough that the ids agree
  suffices hid : f.id = e.id from (step t op).eq_of_key_eq hf he hid
  rcases rows_step t op he with ⟨e₀, he₀, hsame⟩ | ⟨now, input, rfl, hnone, hsame⟩
  · rcases rows_step t op hf with ⟨f₀, hf₀, hsame'⟩ | ⟨now, input, rfl, hnone, hsame'⟩
    · have heq := h e₀ he₀ f₀ hf₀ (hsame.targets_of hsame' htargets)
      rw [hsame.id, hsame'.id, heq]
    · -- the new edge's turn had no edge
      have hkey := targets_eq_true_iff.mp (hsame.targets_of hsame' htargets)
      have hfree := find?_eq_none.mp hnone e₀ he₀
      exact absurd (targets_eq_true_iff.mpr ⟨hkey.1.symm, hkey.2.1.symm, hkey.2.2.symm⟩) hfree
  · rcases rows_step t (.create now input) hf with ⟨f₀, hf₀, hsame'⟩ | ⟨_, _, hop, -, hsame'⟩
    · have hfree := find?_eq_none.mp hnone f₀ hf₀
      exact absurd (hsame.targets_of hsame' htargets) hfree
    · cases hop
      rw [hsame.id, hsame'.id]

theorem targetUnique_exec (ops : List CallbackOp) : TargetUnique (exec step Table.empty ops) := by
  apply exec_invariant (I := TargetUnique)
  · exact fun t op h => targetUnique_step h op
  · intro e he
    exact absurd he not_mem_nil

/-! ## Replays -/

def Stored (t : CallbackTable) (e : CallbackEdge) : Prop := ∃ e' ∈ t.rows, SameRelation e e'

structure Replays (t : CallbackTable) (now : Timestamp) (input : CreateInput) (e : CallbackEdge) :
    Prop where
  returns : ∃ e' ∈ t.rows, SameRelation e e' ∧
    (createCompletionCallback t now input).2 = some e'
  unchanged : (createCompletionCallback t now input).1 = t

variable {t : CallbackTable}

theorem relates_of_create {input : CreateInput}
    {e : CallbackEdge} (h : (createCompletionCallback t now input).2 = some e) :
    e.targets input.channelId input.targetProfileId input.targetTurnId = true ∧
      input.relates e := by
  cases hexisting : input.existing t with
  | some existing =>
    rw [create_of_existing hexisting] at h
    split at h
    · next hrelates =>
      obtain rfl := Option.some.inj h
      exact ⟨(CreateInput.existing_eq_some hexisting).2, hrelates.2⟩
    · cases h
  | none =>
    rcases create_of_not_existing hexisting now with heq | ⟨-, hid, heq⟩
    · rw [heq] at h
      cases h
    · rw [heq] at h
      obtain ⟨hmem, heid⟩ := (Table.find?_eq_some_iff _ _ _).mp h
      obtain ⟨e₀, he₀, hsame⟩ := rows_micros (takeIntent_micro _ now _) e hmem
      have hnew : t.find? (input.newEdge now).id = none := hid
      rw [Table.rows_insert_of_new t _ hnew, mem_append, mem_singleton] at he₀
      rcases he₀ with he₀ | rfl
      · exact absurd (hsame.id.symm.trans heid) ((t.find?_eq_none_iff _).mp hid e₀ he₀)
      · exact ⟨targets_eq_true_iff.mpr ⟨hsame.channelId, hsame.targetProfileId,
          hsame.targetTurnId⟩, hsame.requesterProfileId, hsame.parent⟩

theorem existing_of_stored (hunique : TargetUnique t) {input : CreateInput}
    (hmem : e' ∈ t.rows)
    (htargets : e'.targets input.channelId input.targetProfileId input.targetTurnId = true) :
    input.existing t = some e' := by
  have hsome : (input.existing t).isSome = true := by
    unfold CreateInput.existing
    rw [find?_isSome]
    exact ⟨e', hmem, htargets⟩
  obtain ⟨found, hfound⟩ := Option.isSome_iff_exists.mp hsome
  obtain ⟨hmem', htargets'⟩ := CreateInput.existing_eq_some hfound
  obtain ⟨hchannel, hprofile, hturn⟩ := targets_eq_true_iff.mp htargets
  have heq : found = e' := by
    apply hunique e' hmem found hmem'
    rw [hchannel, hprofile, hturn]
    exact htargets'
  rw [← heq]
  exact hfound

section

variable {t : CallbackTable} (input : CreateInput) {e : CallbackEdge} (hunique : TargetUnique t)
  (htargets : e.targets input.channelId input.targetProfileId input.targetTurnId = true)
  (hrelates : input.relates e)

include hunique htargets hrelates

theorem replay_eq (hstored : Stored t e) (now : Timestamp) :
    ∃ e' ∈ t.rows, SameRelation e e' ∧
      createCompletionCallback t now input =
        (t, if parentAccepts t input = true then some e' else none) := by
  obtain ⟨e', hmem, hsame⟩ := hstored
  refine ⟨e', hmem, hsame, ?_⟩
  have hexisting := existing_of_stored hunique hmem (by rw [hsame.targets]; exact htargets)
  have hrelates' : input.relates e' :=
    ⟨hsame.requesterProfileId.trans hrelates.1, hsame.parent.trans hrelates.2⟩
  rw [create_of_existing hexisting]
  simp only [hrelates', and_true]

theorem replay_iff (now : Timestamp) :
    Replays t now input e ↔ Stored t e ∧ parentAccepts t input = true := by
  constructor
  · rintro ⟨⟨e', hmem, hsame, hreturns⟩, -⟩
    have hstored : Stored t e := ⟨e', hmem, hsame⟩
    obtain ⟨e'', -, -, heq⟩ := replay_eq input hunique htargets hrelates hstored now
    refine ⟨hstored, ?_⟩
    by_contra hparent
    rw [heq, if_neg hparent] at hreturns
    cases hreturns
  · rintro ⟨hstored, hparent⟩
    obtain ⟨e', hmem, hsame, heq⟩ := replay_eq input hunique htargets hrelates hstored now
    rw [if_pos hparent] at heq
    exact ⟨⟨e', hmem, hsame, by rw [heq]⟩, by rw [heq]⟩

end

theorem takes_one_intent {t : CallbackTable} {input : CreateInput}
    {e parent : CallbackEdge} {parentId : CallbackId}
    (hcreated : (createCompletionCallback t now input).2 = some e)
    (hnone : input.existing t = none) (hparent : input.continuationParentCallbackId = some parentId)
    (hfind : t.find? parentId = some parent) :
    (createCompletionCallback t now input).1.find? parentId =
      some { parent with
        pendingChildIntents := parent.pendingChildIntents - 1
        updatedAt := now } := by
  rcases create_of_not_existing hnone now with heq | ⟨haccepts, hid, heq⟩
  · rw [heq] at hcreated
    cases hcreated
  · rw [heq]
    simp only [parentAccepts, hparent, hfind, acceptsChild, Bool.and_eq_true, beq_iff_eq,
      decide_eq_true_eq] at haccepts
    have hne : (input.newEdge now).id ≠ parentId := by
      intro heq
      rw [← heq] at hfind
      have hclash : none = some parent := hid.symm.trans hfind
      cases hclash
    have hparentId := ((t.find?_eq_some_iff _ _).mp hfind).2
    have hnew : t.find? (input.newEdge now).id = none := hid
    rw [hparent, takeIntent, Table.find?_updateWhere, Table.find?_insert_of_new t _ _ hnew,
      if_neg hne, hfind]
    have hpos : 0 < parent.pendingChildIntents := by omega
    simp [hparentId, haccepts.1.1.2, haccepts.1.2, hpos]

/-! ## Idempotence -/

/-- The input of a replay, whose binding may have moved to another runtime. -/
def CreateInput.onRuntime (input : CreateInput) (runtimeId : String) : CreateInput :=
  { input with targetRuntimeId := runtimeId }

structure ReplayLaws (t : CallbackTable) (input : CreateInput) (e : CallbackEdge) : Prop where
  /-- As long as the edge is stored no replay writes anything: no second intent is taken. -/
  writesNothing : ∀ now runtimeId, Stored t e →
    (createCompletionCallback t now (input.onRuntime runtimeId)).1 = t
  /-- A replay returns the edge exactly when the parent, if one is named, accepts a child still. -/
  returnsEdge : ∀ now runtimeId, Replays t now (input.onRuntime runtimeId) e ↔
    Stored t e ∧ parentAccepts t input = true

/-- **Admissions**: along every run a creation takes at most one intent of its parent, and its
    replays, however often and on whatever runtime, take none; they return the edge exactly while
    it is stored and its parent could take a further child. -/
theorem create_replay_iff (pre post : List CallbackOp) (now : Timestamp) (input : CreateInput)
    (e : CallbackEdge)
    (hcreated : (createCompletionCallback (exec step Table.empty pre) now input).2 = some e) :
    ReplayLaws (exec step Table.empty (pre ++ .create now input :: post)) input e ∧
      (input.existing (exec step Table.empty pre) = none →
        ∀ parentId parent, input.continuationParentCallbackId = some parentId →
          (exec step Table.empty pre).find? parentId = some parent →
          (exec step Table.empty (pre ++ [.create now input])).find? parentId =
            some { parent with
              pendingChildIntents := parent.pendingChildIntents - 1
              updatedAt := now }) := by
  obtain ⟨htargets, hrelates⟩ := relates_of_create hcreated
  have hunique := targetUnique_exec (pre ++ .create now input :: post)
  refine ⟨⟨?_, ?_⟩, ?_⟩
  · intro now' runtimeId hstored
    obtain ⟨e', -, -, heq⟩ := replay_eq (input.onRuntime runtimeId) hunique htargets
      hrelates hstored now'
    rw [heq]
  · intro now' runtimeId
    exact replay_iff (input.onRuntime runtimeId) hunique htargets hrelates now'
  · intro hnone parentId parent hparent hfind
    rw [exec_append]
    exact takes_one_intent hcreated hnone hparent hfind

/-- The replay of an undelegated admission on another runtime. -/
theorem create_replay_of_root :
    ReplayLaws
      (exec step Table.empty [.create 1 (.forTurn "b" "A" "B" none), .claim 2 1])
      (.forTurn "b" "A" "B" none) ((CreateInput.forTurn "b" "A" "B" none).newEdge 1) :=
  (create_replay_iff [] [.claim 2 1] 1 (.forTurn "b" "A" "B" none)
    ((CreateInput.forTurn "b" "A" "B" none).newEdge 1) (by decide)).1

/-- `B`, asked by `A`, announces one child and asks `C`. -/
def onlyChild : List CallbackOp :=
  [.create 1 (.forTurn "b" "A" "B" none), .defer 2 "room" "B" "b" 1]

/-- The admission of an only child is refused when it is replayed: its creation took the intent
    that the parent is checked for. -/
theorem only_child_not_replayed :
    ¬ ∀ (pre post : List CallbackOp) (now now' : Timestamp) (input : CreateInput)
      (e : CallbackEdge),
      (createCompletionCallback (exec step Table.empty pre) now input).2 = some e →
      Stored (exec step Table.empty (pre ++ .create now input :: post)) e →
      Replays (exec step Table.empty (pre ++ .create now input :: post)) now' input e := by
  intro h
  have hreplays := h onlyChild [] 3 4 (.forTurn "c" "B" "C" (some "b"))
    ((CreateInput.forTurn "c" "B" "C" (some "b")).newEdge 3) (by decide)
    ⟨(CreateInput.forTurn "c" "B" "C" (some "b")).newEdge 3, by decide, .refl _⟩
  obtain ⟨e', -, -, hreturns⟩ := hreplays.returns
  have hrefused : (createCompletionCallback
      (exec step Table.empty (onlyChild ++ [.create 3 (.forTurn "c" "B" "C" (some "b"))])) 4
      (.forTurn "c" "B" "C" (some "b"))).2 = none := by decide
  cases hreturns

end RelayIde.Callback
