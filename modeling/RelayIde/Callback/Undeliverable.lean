import RelayIde.Callback.Lifecycle

/-!
# Undeliverable Callbacks

What `terminalizeDeliveredCompletionCallback` leaves of the table: the claimed edge and every
unsettled ancestor of it are undeliverable, all other rows are as they were.

- `terminalized_of_delivered` — the rows after the call
-/

namespace RelayIde.Callback

open RelayIde.Library List

/-! ## The upward walk -/

/-- The row under `id` names `parent` as its continuation parent. -/
def Points (t : CallbackTable) (id parent : CallbackId) : Prop :=
  ∃ row, t.find? id = some row ∧ row.continuationParentCallbackId = some parent

variable (t : CallbackTable) (p : CallbackEdge → Bool) (f : CallbackEdge → CallbackEdge)

theorem points_updateWhere (hid : ∀ r, (f r).id = r.id)
    (hparent : ∀ r, (f r).continuationParentCallbackId = r.continuationParentCallbackId)
    (id parent : CallbackId) : Points (t.updateWhere p f hid) id parent ↔ Points t id parent := by
  have hkept : ∀ r, (if p r then f r else r).continuationParentCallbackId =
      r.continuationParentCallbackId := by
    intro r
    split
    · exact hparent r
    · rfl
  unfold Points
  rw [Table.find?_updateWhere]
  constructor
  · rintro ⟨row', hrow', hpoints⟩
    obtain ⟨row, hrow, rfl⟩ := Option.map_eq_some_iff.mp hrow'
    exact ⟨row, hrow, (hkept row).symm.trans hpoints⟩
  · rintro ⟨row, hrow, hpoints⟩
    exact ⟨_, by rw [hrow]; rfl, (hkept row).trans hpoints⟩

/-- The rows that the walk has not seen. -/
def unseen (t : CallbackTable) (seen : List CallbackId) : ℕ :=
  (t.rows.filter fun row => decide (row.id ∉ seen)).length

theorem unseen_updateWhere (hid : ∀ r, (f r).id = r.id) (seen : List CallbackId) :
    unseen (t.updateWhere p f hid) seen = unseen t seen := by
  unfold unseen
  rw [Table.rows_updateWhere, filter_map, length_map]
  congr 2
  funext row
  by_cases hp : p row = true
  · simp [hp, hid]
  · simp [hp]

variable {t : CallbackTable} {seen : List CallbackId} {now : Timestamp}

theorem unseen_cons_lt {row : CallbackEdge}
    (hrow : t.find? row.id = some row) (hnew : row.id ∉ seen) :
    unseen t (row.id :: seen) < unseen t seen := by
  have hmem : row ∈ t.rows := ((t.find?_eq_some_iff _ _).mp hrow).1
  unfold unseen
  have hfilter : t.rows.filter (fun r => decide (r.id ∉ row.id :: seen)) =
      (t.rows.filter fun r => decide (r.id ∉ seen)).filter fun r => decide (r.id ≠ row.id) := by
    rw [filter_filter]
    refine filter_congr fun r _ => ?_
    simp
  rw [hfilter]
  refine length_filter_lt_length_iff_exists.mpr ⟨row, ?_, by simp⟩
  exact mem_filter.mpr ⟨hmem, decide_eq_true hnew⟩

theorem eq_none_or_mem_of_unseen (h : unseen t seen = 0)
    (id : CallbackId) : t.find? id = none ∨ id ∈ seen := by
  cases hfind : t.find? id with
  | none => exact .inl rfl
  | some row =>
    obtain ⟨hmem, rfl⟩ := (t.find?_eq_some_iff _ _).mp hfind
    right
    by_contra hnot
    have hnil := length_eq_zero_iff.mp h
    have hin : row ∈ t.rows.filter fun row => decide (row.id ∉ seen) :=
      mem_filter.mpr ⟨hmem, decide_eq_true hnot⟩
    rw [hnil] at hin
    cases hin

structure Walked (now : Timestamp) (t t' : CallbackTable) (seen : List CallbackId)
    (parentId : Option CallbackId) (visited : List CallbackId) : Prop where
  /-- Every parent of a visited row is visited, unless it is missing. -/
  closed : ∀ id ∈ visited, ∀ q, Points t id q → q ∈ visited ∨ t.find? q = none
  first : ∀ q, parentId = some q → q ∈ visited ∨ t.find? q = none
  grows : seen ⊆ visited
  reached : ∀ id ∈ visited, id ∈ seen ∨
    ∃ q, parentId = some q ∧ Relation.ReflTransGen (Points t) q id
  find? : ∀ id, t'.find? id = (t.find? id).map fun row =>
    if id ∈ visited ∧ id ∉ seen ∧ row.state.unsettled = true then
      row.terminalize now .continuationUndeliverable else row

theorem Walked.stop
    {parentId : Option CallbackId} (hfirst : ∀ q, parentId = some q → q ∈ seen ∨ t.find? q = none)
    (hclosed : ∀ id ∈ seen, ∀ q, Points t id q → q ∈ seen ∨ t.find? q = none ∨ parentId = some q) :
    Walked now t t seen parentId seen where
  closed id hid q hq := by
    rcases hclosed id hid q hq with hseen | hnone | hparent
    · exact .inl hseen
    · exact .inr hnone
    · exact hfirst q hparent
  first := hfirst
  grows := List.Subset.refl _
  reached id hid := .inl hid
  find? id := by
    cases t.find? id with
    | none => rfl
    | some row =>
      rw [Option.map_some, if_neg]
      exact fun h => h.2.1 h.1

theorem walk_spec (now : Timestamp) (fuel : ℕ) (t : CallbackTable) (seen : List CallbackId)
    (parentId : Option CallbackId) (hfuel : unseen t seen ≤ fuel)
    (hclosed : ∀ id ∈ seen, ∀ q, Points t id q → q ∈ seen ∨ t.find? q = none ∨ parentId = some q) :
    ∃ visited, Walked now t (terminalizeAncestors now fuel t seen parentId) seen parentId
      visited := by
  induction fuel generalizing t seen parentId with
  | zero =>
    refine ⟨seen, Walked.stop (fun q _ => ?_) hclosed⟩
    exact (eq_none_or_mem_of_unseen (Nat.le_zero.mp hfuel) q).symm
  | succ fuel ih =>
    cases parentId with
    | none => exact ⟨seen, Walked.stop (fun q hq => by cases hq) hclosed⟩
    | some parentId =>
      unfold terminalizeAncestors
      by_cases hmem : parentId ∈ seen
      · rw [if_pos hmem]
        refine ⟨seen, Walked.stop (fun q hq => ?_) hclosed⟩
        cases hq
        exact .inl hmem
      · rw [if_neg hmem]
        cases hfind : t.find? parentId with
        | none =>
          refine ⟨seen, Walked.stop (fun q hq => ?_) hclosed⟩
          cases hq
          exact .inr hfind
        | some parent =>
          have hid : parent.id = parentId := ((t.find?_eq_some_iff _ _).mp hfind).2
          subst hid
          -- the tables before and after the update have the same parents
          have hpoints := points_updateWhere t
            (fun e => e.id == parent.id && e.state.unsettled)
            (fun e => e.terminalize now .continuationUndeliverable) (fun _ => rfl) (fun _ => rfl)
          have hmissing : ∀ q, (t.updateWhere (fun e => e.id == parent.id && e.state.unsettled)
              (fun e => e.terminalize now .continuationUndeliverable)
                (Table.keyed fun _ => rfl)).find?
                q = none ↔ t.find? q = none := by
            intro q
            rw [Table.find?_updateWhere, Option.map_eq_none_iff]
          obtain ⟨visited, hwalked⟩ := ih
            (t.updateWhere (fun e => e.id == parent.id && e.state.unsettled)
              (fun e => e.terminalize now .continuationUndeliverable) (Table.keyed fun _ => rfl))
            (parent.id :: seen) parent.continuationParentCallbackId (by
              rw [unseen_updateWhere]
              have := unseen_cons_lt hfind hmem
              omega) (by
              intro id hseen q hq
              rw [hpoints] at hq
              rw [hmissing]
              rcases mem_cons.mp hseen with rfl | hseen
              · obtain ⟨row, hrow, hnames⟩ := hq
                rw [hfind] at hrow
                cases hrow
                exact .inr (.inr hnames)
              · rcases hclosed id hseen q hq with hin | hnone | hcurrent
                · exact .inl (mem_cons_of_mem _ hin)
                · exact .inr (.inl hnone)
                · cases hcurrent
                  exact .inl mem_cons_self)
          have hparent : parent.id ∈ visited := hwalked.grows mem_cons_self
          refine ⟨visited, ?_, ?_, ?_, ?_, ?_⟩
          · intro id hvisited q hq
            rw [← hmissing q]
            exact hwalked.closed id hvisited q ((hpoints id q).mpr hq)
          · intro q hq
            cases hq
            exact .inl hparent
          · exact fun id hseen => hwalked.grows (mem_cons_of_mem _ hseen)
          · intro id hvisited
            rcases hwalked.reached id hvisited with hseen | ⟨q, hq, hpath⟩
            · rcases mem_cons.mp hseen with rfl | hseen
              · exact .inr ⟨parent.id, rfl, .refl⟩
              · exact .inl hseen
            · right
              refine ⟨parent.id, rfl, Relation.ReflTransGen.head ⟨parent, hfind, hq⟩ ?_⟩
              exact Relation.ReflTransGen.mono (fun a b hab => (hpoints a b).mp hab) _ _ hpath
          · intro id
            rw [hwalked.find? id, Table.find?_updateWhere]
            cases hrow : t.find? id with
            | none => rfl
            | some row =>
              have hrowId : row.id = id := ((t.find?_eq_some_iff _ _).mp hrow).2
              subst hrowId
              by_cases hsame : row.id = parent.id
              · rw [hsame] at hrow
                rw [hfind] at hrow
                cases hrow
                cases hunsettled : parent.state.unsettled with
                | false => simp [hunsettled]
                | true => simp [hparent, hmem]
              · simp [hsame]

/-! ## The rows after the call -/

structure Terminalized (now : Timestamp) (reason : DeliveryReason) (t t' : CallbackTable)
    (e : CallbackEdge) : Prop where
  edge : t'.find? e.id = some (e.terminalize now reason)
  ancestors : ∀ row, row.id ≠ e.id → AncestorOf t row e →
    t'.find? row.id = some (if row.state.unsettled then
      row.terminalize now .continuationUndeliverable else row)
  others : ∀ row ∈ t.rows, row.id ≠ e.id → ¬AncestorOf t row e → t'.find? row.id = some row
  /-- No row appears or disappears. -/
  rows : ∀ id, t'.find? id = none ↔ t.find? id = none

theorem points_of_parentOf {p c : CallbackEdge} (h : ParentOf t p c) : Points t c.id p.id :=
  ⟨c, t.find?_key h.2.1, by simpa [CallbackEdge.childOf] using h.2.2⟩

theorem ancestorOf_of_path {e row : CallbackEdge} {q : CallbackId}
    (he : e ∈ t.rows) (hq : e.continuationParentCallbackId = some q)
    (hpath : Relation.ReflTransGen (Points t) q row.id) (hrow : row ∈ t.rows) :
    AncestorOf t row e := by
  have hlink : ∀ {a b : CallbackEdge}, a ∈ t.rows → b ∈ t.rows →
      a.continuationParentCallbackId = some b.id → ParentOf t b a := by
    intro a b ha hb hab
    exact ⟨hb, ha, by simp [CallbackEdge.childOf, hab]⟩
  -- along the chain from its upper end: what is below an ancestor is one
  have hmain : ∀ id, Relation.ReflTransGen (Points t) q id → ∀ r ∈ t.rows, r.id = id →
      AncestorOf t r e := by
    intro id hid
    induction hid with
    | refl =>
      intro r hr hrid
      exact Relation.TransGen.single (hlink he hr (by rw [hq, hrid]))
    | tail _ hstep ih =>
      intro r hr hrid
      obtain ⟨below, hbelow, hnames⟩ := hstep
      obtain ⟨hmem, hbelowId⟩ := (t.find?_eq_some_iff _ _).mp hbelow
      exact Relation.TransGen.head (hlink hmem hr (by rw [hnames, hrid])) (ih below hmem hbelowId)
  exact hmain row.id hpath row hrow rfl

theorem terminalized_of_delivered {input : TerminalizeInput}
    {e : CallbackEdge} (he : t.find? input.id = some e) (hchannel : e.channelId = input.channelId)
    (hthread : e.threadId = input.threadId) (hstate : e.state = .delivered) :
    (terminalizeDeliveredCompletionCallback t now input).2 =
        some (e.terminalize now input.deliveryReason) ∧
      Terminalized now input.deliveryReason t
        (terminalizeDeliveredCompletionCallback t now input).1 e := by
  obtain ⟨hmem, hid⟩ := (t.find?_eq_some_iff _ _).mp he
  have hhits : ∀ r ∈ t.rows, (r.id == input.id && r.channelId == input.channelId &&
      r.threadId == input.threadId && r.state == .delivered) = decide (r.id = e.id) := by
    intro r hr
    by_cases hsame : r.id = e.id
    · obtain rfl := t.eq_of_key_eq hr hmem hsame
      simp [hid, hchannel, hthread, hstate]
    · have hne : r.id ≠ input.id := fun h => hsame (h.trans hid.symm)
      simp [hsame, hne]
  have hany : t.rows.any (fun r => r.id == input.id && r.channelId == input.channelId &&
      r.threadId == input.threadId && r.state == .delivered) = true :=
    any_eq_true.mpr ⟨e, hmem, by rw [hhits e hmem]; simp⟩
  -- the table with the edge settled
  generalize hupdated : t.updateWhere
    (fun r => r.id == input.id && r.channelId == input.channelId &&
      r.threadId == input.threadId && r.state == .delivered)
    (fun r => r.terminalize now input.deliveryReason) (Table.keyed fun _ => rfl) = u
  have hfind : ∀ id, u.find? id = (t.find? id).map fun r =>
      if r.id = e.id then r.terminalize now input.deliveryReason else r := by
    intro id
    rw [← hupdated, Table.find?_updateWhere]
    cases hrow : t.find? id with
    | none => rfl
    | some r =>
      have hr := ((t.find?_eq_some_iff _ _).mp hrow).1
      rw [Option.map_some, Option.map_some, hhits r hr]
      simp only [decide_eq_true_eq]
  have hpoints : ∀ id q, Points u id q ↔ Points t id q := by
    intro id q
    rw [← hupdated]
    exact points_updateWhere t _ (fun r => r.terminalize now input.deliveryReason) (fun _ => rfl)
      (fun _ => rfl) id q
  have hedge : u.find? e.id = some (e.terminalize now input.deliveryReason) := by
    rw [hfind, t.find?_key hmem, Option.map_some, if_pos rfl]
  have hresult : terminalizeDeliveredCompletionCallback t now input =
      (terminalizeAncestors now u.rows.length u [e.id] e.continuationParentCallbackId,
        some (e.terminalize now input.deliveryReason)) := by
    unfold terminalizeDeliveredCompletionCallback
    simp only [hany]
    rw [hupdated, ← hid, hedge]
    rfl
  obtain ⟨visited, hwalked⟩ := walk_spec now u.rows.length u [e.id]
    e.continuationParentCallbackId (length_filter_le _ _) (by
      intro id hseen q hq
      rw [mem_singleton] at hseen
      subst hseen
      obtain ⟨row, hrow, hnames⟩ := (hpoints _ _).mp hq
      rw [t.find?_key hmem] at hrow
      cases hrow
      exact .inr (.inr hnames))
  rw [hresult]
  refine ⟨rfl, ?_⟩
  have hvisited : ∀ row ∈ t.rows, row.id ≠ e.id → (row.id ∈ visited ↔ AncestorOf t row e) := by
    intro row hrow hne
    constructor
    · intro hmem'
      rcases hwalked.reached row.id hmem' with hseen | ⟨q, hq, hpath⟩
      · exact absurd (mem_singleton.mp hseen) hne
      · exact ancestorOf_of_path hmem hq
          (Relation.ReflTransGen.mono (fun a b hab => (hpoints a b).mp hab) _ _ hpath) hrow
    · intro hancestor
      have hpresent : ∀ r ∈ t.rows, u.find? r.id ≠ none := by
        intro r hr
        rw [hfind, t.find?_key hr]
        simp
      -- from the edge upwards, the set of visited rows is closed
      have hup : ∀ r, AncestorOf t r e → r.id ∈ visited := by
        intro r hr
        induction hr using Relation.TransGen.head_induction_on with
        | single hparent =>
          refine (hwalked.closed e.id (hwalked.grows mem_cons_self) _
            ((hpoints _ _).mpr (points_of_parentOf hparent))).resolve_right ?_
          exact hpresent _ hparent.1
        | head hparent _ ih =>
          refine (hwalked.closed _ ih _
            ((hpoints _ _).mpr (points_of_parentOf hparent))).resolve_right ?_
          exact hpresent _ hparent.1
      exact hup row hancestor
  have hother : ∀ row ∈ t.rows, row.id ≠ e.id →
      (terminalizeAncestors now u.rows.length u [e.id] e.continuationParentCallbackId).find?
        row.id = some (if row.id ∈ visited ∧ row.state.unsettled = true then
          row.terminalize now .continuationUndeliverable else row) := by
    intro row hrow hne
    rw [hwalked.find?, hfind, t.find?_key hrow, Option.map_some]
    simp [hne]
  refine ⟨?_, ?_, ?_, ?_⟩
  · rw [hwalked.find?, hedge]
    simp
  · intro row hne hancestor
    have hrow : row ∈ t.rows := by
      obtain ⟨_, hparent, -⟩ := Relation.TransGen.head'_iff.mp hancestor
      exact hparent.1
    rw [hother row hrow hne]
    simp [(hvisited row hrow hne).mpr hancestor]
  · intro row hrow hne hnot
    rw [hother row hrow hne, if_neg]
    exact fun h => hnot ((hvisited row hrow hne).mp h.1)
  · intro id
    rw [hwalked.find?, hfind, Option.map_eq_none_iff, Option.map_eq_none_iff]

/-- The call leaves everything alone unless it is about a delivered edge.  Then it returns that edge,
    and the edge and its unsettled ancestors are undeliverable, in any table of rows. -/
theorem undeliverable_ancestry (t : CallbackTable) (now : Timestamp) (input : TerminalizeInput) :
    (∀ e, t.find? input.id = some e → e.channelId = input.channelId →
      e.threadId = input.threadId → e.state = .delivered →
      (terminalizeDeliveredCompletionCallback t now input).2 =
          some (e.terminalize now input.deliveryReason) ∧
        Terminalized now input.deliveryReason t
          (terminalizeDeliveredCompletionCallback t now input).1 e) ∧
    ((¬∃ e, t.find? input.id = some e ∧ e.channelId = input.channelId ∧
        e.threadId = input.threadId ∧ e.state = .delivered) →
      terminalizeDeliveredCompletionCallback t now input = (t, none)) := by
  refine ⟨fun e he hchannel hthread hstate =>
    terminalized_of_delivered he hchannel hthread hstate, fun hnot => ?_⟩
  unfold terminalizeDeliveredCompletionCallback
  rw [if_neg]
  intro hany
  obtain ⟨e, hmem, hhits⟩ := any_eq_true.mp hany
  simp only [Bool.and_eq_true, beq_iff_eq] at hhits
  obtain ⟨⟨⟨hid, hchannel⟩, hthread⟩, hstate⟩ := hhits
  exact hnot ⟨e, (t.find?_eq_some_iff _ _).mpr ⟨hmem, hid⟩, hchannel, hthread, hstate⟩

/-! ## A nested delegation -/

/-- `A` asks `B`, `B` asks `C`, and the answer of `C` is offered to `B`. -/
def offeredAnswer : CallbackTable :=
  exec step Table.empty
    [ .create 1 (.forTurn "b" "A" "B" none),
      .defer 2 "room" "B" "b" 1,
      .create 3 (.forTurn "c" "B" "C" (some "b")),
      .satisfy 4 ⟨"room", "C", "c", bareEvidence⟩,
      .claim 5 100 ]

/-- The answer that cannot be delivered settles the edge of `B` as well, which is not returned. -/
theorem changes_more_than_returned :
    ∃ edge, (terminalizeDeliveredCompletionCallback offeredAnswer 6
        ⟨⟨"c"⟩, "room", none, .requesterProfileUnavailable⟩).2 = some edge ∧
      edge.id ≠ ⟨"b"⟩ ∧
      (terminalizeDeliveredCompletionCallback offeredAnswer 6
        ⟨⟨"c"⟩, "room", none, .requesterProfileUnavailable⟩).1.find? ⟨"b"⟩ ≠
          offeredAnswer.find? ⟨"b"⟩ := by
  refine ⟨_, rfl, ?_, ?_⟩
  · decide
  · decide

end RelayIde.Callback
