import RelayIde.Nodes.Registry

/-!
# Expiry and Pruning of Pairing Requests

What `expirePendingPairingNow`, which runs at the start of every call on requests, does to them:
overdue requests expire, and resolved ones are forgotten after a while or when there are too many.

- `expirePendingPairingNow_twice` — a second round at the same time changes nothing
-/

namespace RelayIde.Nodes

open RelayIde.Library List

/-! ## One request -/

section Request

variable {record : StoredPendingPairingRequest} {now : ℤ}

theorem expireRecord_of_not_overdue (h : isOverdue now record = false) :
    expireRecord now record = record := by
  rw [expireRecord, h, if_neg (by simp)]

section
variable (now : ℤ) (record : StoredPendingPairingRequest)

theorem expireRecord_eq_self_or :
    (isOverdue now record = false ∧ expireRecord now record = record) ∨
      (isOverdue now record = true ∧ expireRecord now record =
        { record with state := .expired, reasonCode := reasonExpired, decidedAt := some now }) := by
  cases h : isOverdue now record with
  | false => exact .inl ⟨rfl, expireRecord_of_not_overdue h⟩
  | true => exact .inr ⟨rfl, by rw [expireRecord, h, if_pos rfl]⟩

@[simp] theorem requestId_expireRecord :
    (expireRecord now record).requestId = record.requestId := by
  obtain ⟨-, h⟩ | ⟨-, h⟩ := expireRecord_eq_self_or now record <;> rw [h]

theorem isOverdue_expireRecord : isOverdue now (expireRecord now record) = false := by
  obtain ⟨hover, h⟩ | ⟨-, h⟩ := expireRecord_eq_self_or now record
  · rw [h, hover]
  · simp [h, isOverdue]

end

/-- A request that is claimable afterwards was so before, and is the same. -/
theorem expireRecord_of_active (h : isActiveClaimablePairing (expireRecord now record) = true) :
    expireRecord now record = record := by
  obtain ⟨-, hsame⟩ | ⟨-, hexpired⟩ := expireRecord_eq_self_or now record
  · exact hsame
  · simp [hexpired, isActiveClaimablePairing] at h

theorem isResolved_eq_false_of_active (h : isActiveClaimablePairing record = true) :
    isResolved record = false := by
  cases hstate : record.state <;> simp_all [isActiveClaimablePairing, isResolved]

end Request

/-! ## Pruning -/

section Prune

variable {records : List StoredPendingPairingRequest} {record : StoredPendingPairingRequest}
  {now : ℤ}

theorem prunePendingPairings_sublist (records : List StoredPendingPairingRequest) (now : ℤ) :
    (prunePendingPairings records now).Sublist records := by
  exact filter_sublist.trans filter_sublist

def byDecision (kept : List StoredPendingPairingRequest) : List StoredPendingPairingRequest :=
  (kept.filter isResolved).insertionSort fun a b => decisionMs a ≤ decisionMs b

variable (kept : List StoredPendingPairingRequest)

theorem perm_byDecision :
    (byDecision kept).Perm (kept.filter isResolved) :=
  perm_insertionSort _ _

theorem pairwise_byDecision :
    (byDecision kept).Pairwise fun a b => decisionMs a ≤ decisionMs b := by
  exact pairwise_insertionSort _ _

theorem mem_byDecision {kept : List StoredPendingPairingRequest} :
    record ∈ byDecision kept ↔ record ∈ kept ∧ isResolved record = true := by
  rw [(perm_byDecision kept).mem_iff, mem_filter]

/-- The requests that are not past the retention window. -/
def retained (records : List StoredPendingPairingRequest) (now : ℤ) :
    List StoredPendingPairingRequest :=
  records.filter fun record => !isForgotten now record

theorem prunePendingPairings_eq (records : List StoredPendingPairingRequest) (now : ℤ) :
    prunePendingPairings records now = (retained records now).filter fun record =>
      !(surplusIds (retained records now)).contains record.requestId := rfl

theorem surplusIds_eq (kept : List StoredPendingPairingRequest) :
    surplusIds kept =
      ((byDecision kept).take ((byDecision kept).length - maxRetainedResolvedPairings)).map
        (·.requestId) := rfl

theorem mem_prunePendingPairings :
    record ∈ prunePendingPairings records now ↔
      record ∈ retained records now ∧
        record.requestId ∉ surplusIds (retained records now) := by
  unfold prunePendingPairings
  rw [mem_filter]
  simp [retained]

theorem exists_of_mem_surplusIds {kept : List StoredPendingPairingRequest} {id : String}
    (h : id ∈ surplusIds kept) : ∃ other ∈ kept, isResolved other = true ∧
    other.requestId = id := by
  obtain ⟨other, hother, rfl⟩ := mem_map.mp h
  obtain ⟨hmem, hresolved⟩ := mem_byDecision.mp (mem_of_mem_take hother)
  exact ⟨other, hmem, hresolved, rfl⟩

theorem length_resolved_prunePendingPairings (records : List StoredPendingPairingRequest)
    (now : ℤ) :
    ((prunePendingPairings records now).filter isResolved).length ≤
      maxRetainedResolvedPairings := by
  set kept := retained records now with hkept
  set surplus := (byDecision kept).length - maxRetainedResolvedPairings with hsurplus
  have hprune : (prunePendingPairings records now).filter isResolved =
      (kept.filter isResolved).filter fun record =>
        !(surplusIds kept).contains record.requestId := by
    rw [prunePendingPairings_eq, filter_filter, filter_filter]
    exact filter_congr fun record _ => Bool.and_comm _ _
  have hperm : ((kept.filter isResolved).filter
        fun record => !(surplusIds kept).contains record.requestId).length =
      ((byDecision kept).filter
        fun record => !(surplusIds kept).contains record.requestId).length :=
    ((perm_byDecision kept).filter _).length_eq.symm
  -- the surplus goes away, and the rest is short enough
  have htake : ((byDecision kept).take surplus).filter
      (fun record => !(surplusIds kept).contains record.requestId) = [] := by
    rw [filter_eq_nil_iff]
    intro record hrecord
    have hmem : record.requestId ∈ surplusIds kept := by
      exact mem_map_of_mem hrecord
    simpa using hmem
  rw [hprune, hperm, ← take_append_drop surplus (byDecision kept), filter_append, htake, nil_append]
  refine (length_filter_le _ _).trans ?_
  rw [length_drop]
  omega

/-- The requests of `records` decided no earlier than `record`. -/
def decidedSince (record : StoredPendingPairingRequest)
    (records : List StoredPendingPairingRequest) : List StoredPendingPairingRequest :=
  records.filter fun other => isResolved other && decide (decisionMs record ≤ decisionMs other)

section
variable (hids : (records.map (·.requestId)).Nodup)
include hids

theorem eq_of_requestId_eq {a b : StoredPendingPairingRequest} (ha : a ∈ records) (hb : b ∈ records)
    (h : a.requestId = b.requestId) : a = b :=
  inj_on_of_nodup_map hids ha hb h

theorem length_decidedSince_of_surplus (h : record ∈ retained records now)
    (hsurplus : record.requestId ∈ surplusIds (retained records now)) :
    maxRetainedResolvedPairings ≤
      (decidedSince record (prunePendingPairings records now)).length := by
  set kept := retained records now with hkept
  set surplus := (byDecision kept).length - maxRetainedResolvedPairings with hdef
  have hkeptIds : (kept.map (·.requestId)).Nodup :=
    hids.sublist (filter_sublist.map _)
  have hnodup : (byDecision kept).Nodup :=
    (perm_byDecision kept).nodup_iff.mpr (hkeptIds.of_map _ |>.filter _)
  rw [surplusIds_eq] at hsurplus
  obtain ⟨same, htake, hid⟩ := mem_map.mp hsurplus
  obtain rfl : same = record :=
    eq_of_requestId_eq hkeptIds (mem_byDecision.mp (mem_of_mem_take htake)).1 h hid
  have hlong : 0 < surplus := by
    by_contra hzero
    have hzero : surplus = 0 := by omega
    rw [← hdef, hzero] at htake
    cases htake
  -- the newest requests, all of them kept
  set newest := (byDecision kept).drop surplus with hnewest
  have hlength : newest.length = maxRetainedResolvedPairings := by
    rw [length_drop]
    omega
  have hsubset : newest ⊆ decidedSince same (prunePendingPairings records now) := by
    intro other hother
    obtain ⟨hmem, hresolved⟩ := mem_byDecision.mp (mem_of_mem_drop hother)
    have hle : decisionMs same ≤ decisionMs other := by
      have hsorted := pairwise_byDecision kept
      rw [← take_append_drop surplus (byDecision kept), pairwise_append] at hsorted
      exact hsorted.2.2 same htake other hother
    have hkeep : other.requestId ∉ surplusIds kept := by
      intro hids'
      obtain ⟨twin, htwin, htwinId⟩ := mem_map.mp hids'
      obtain rfl : twin = other :=
        eq_of_requestId_eq hkeptIds (mem_byDecision.mp (mem_of_mem_take htwin)).1 hmem htwinId
      exact disjoint_take_drop hnodup (le_refl surplus) htwin hother
    rw [decidedSince, mem_filter]
    exact ⟨mem_prunePendingPairings.mpr ⟨hmem, hkeep⟩, by simp [hresolved, hle]⟩
  rw [← hlength]
  exact (subperm_of_subset (hnodup.sublist (drop_sublist _ _)) hsubset).length_le

/-- **Pruning.** A request that is missing afterwards was resolved, and either past the retention
    window or decided no later than as many resolved requests as are kept. -/
theorem mem_prunePendingPairings_or (h : record ∈ records) :
    record ∈ prunePendingPairings records now ∨
      (isResolved record = true ∧
        (isForgotten now record = true ∨
          maxRetainedResolvedPairings ≤
            (decidedSince record (prunePendingPairings records now)).length)) := by
  by_cases hforgotten : isForgotten now record = true
  · refine .inr ⟨?_, .inl hforgotten⟩
    exact (decide_eq_true_iff.mp hforgotten).1
  · have hretained : record ∈ retained records now := by
      rw [retained, mem_filter]
      exact ⟨h, by simpa using hforgotten⟩
    by_cases hsurplus : record.requestId ∈ surplusIds (retained records now)
    · refine .inr ⟨?_, .inr (length_decidedSince_of_surplus hids hretained hsurplus)⟩
      obtain ⟨other, hother, hresolved, hid⟩ := exists_of_mem_surplusIds hsurplus
      have hmem : other ∈ records := mem_of_mem_filter hother
      rwa [← eq_of_requestId_eq hids hmem h hid]
    · exact .inl (mem_prunePendingPairings.mpr ⟨hretained, hsurplus⟩)

end

end Prune

/-! ## The registry after expiry -/

section Expire

variable {s : RegistryFile} {record : StoredPendingPairingRequest} {now : ℤ}

abbrev expired (s : RegistryFile) (now : ℤ) : List StoredPendingPairingRequest :=
  (expirePendingPairingNow s now).1.pendingPairings

theorem map_requestId_expireRecord (records : List StoredPendingPairingRequest) (now : ℤ) :
    (records.map (expireRecord now)).map (·.requestId) = records.map (·.requestId) := by
  rw [map_map]
  exact map_congr_left fun record _ => requestId_expireRecord now record

theorem ids_expired_sublist (s : RegistryFile) (now : ℤ) :
    ((expired s now).map (·.requestId)).Sublist (s.pendingPairings.map (·.requestId)) := by
  rw [← map_requestId_expireRecord s.pendingPairings now]
  exact (prunePendingPairings_sublist _ now).map _

section
variable (h : record ∈ expired s now)
include h

theorem mem_of_mem_expired : ∃ old ∈ s.pendingPairings, record = expireRecord now old := by
  obtain ⟨old, hold, rfl⟩ := mem_map.mp ((prunePendingPairings_sublist _ now).mem h)
  exact ⟨old, hold, rfl⟩

theorem not_overdue_of_mem_expired : isOverdue now record = false := by
  obtain ⟨old, -, rfl⟩ := mem_of_mem_expired h
  exact isOverdue_expireRecord now old

theorem mem_of_active_of_mem_expired
    (hactive : isActiveClaimablePairing record = true) : record ∈ s.pendingPairings := by
  obtain ⟨old, hold, rfl⟩ := mem_of_mem_expired h
  rwa [expireRecord_of_active hactive]

end

/-- Why a request is missing after a round of expiry. -/
def Dropped (s : RegistryFile) (now : ℤ) (record : StoredPendingPairingRequest) : Prop :=
  isResolved record = true ∧
    (isForgotten now record = true ∨
      maxRetainedResolvedPairings ≤ (decidedSince record (expired s now)).length)

/-- **Expiry.** A request in time stays as it is, unless it is resolved and dropped. -/
theorem mem_expired_or_dropped (hids : (s.pendingPairings.map (·.requestId)).Nodup)
    (h : record ∈ s.pendingPairings) (hintime : isOverdue now record = false) :
    record ∈ expired s now ∨ Dropped s now record := by
  have hmem : record ∈ s.pendingPairings.map (expireRecord now) :=
    mem_map.mpr ⟨record, h, expireRecord_of_not_overdue hintime⟩
  apply mem_prunePendingPairings_or _ hmem
  rwa [map_requestId_expireRecord]

theorem mem_expired_of_active (hids : (s.pendingPairings.map (·.requestId)).Nodup)
    (h : record ∈ s.pendingPairings) (hactive : isActiveClaimablePairing record = true)
    (hintime : isOverdue now record = false) : record ∈ expired s now := by
  obtain hmem | ⟨hresolved, -⟩ := mem_expired_or_dropped hids h hintime
  · exact hmem
  · rw [isResolved_eq_false_of_active hactive] at hresolved
    cases hresolved

/-- **Expiry twice.** A second round at the same time changes nothing. -/
theorem expirePendingPairingNow_twice (s : RegistryFile) (now : ℤ) :
    expirePendingPairingNow (expirePendingPairingNow s now).1 now =
      ((expirePendingPairingNow s now).1, false) := by
  have hmap : (expired s now).map (expireRecord now) = expired s now := by
    rw [map_congr_left (g := id), map_id]
    exact fun record h => expireRecord_of_not_overdue (not_overdue_of_mem_expired h)
  have hretained : retained (expired s now) now = expired s now := by
    rw [retained, filter_eq_self]
    intro record h
    exact (mem_filter.mp (mem_prunePendingPairings.mp h).1).2
  have hsurplus : surplusIds (expired s now) = [] := by
    have hshort : (byDecision (expired s now)).length ≤ maxRetainedResolvedPairings := by
      rw [(perm_byDecision _).length_eq]
      exact length_resolved_prunePendingPairings _ _
    rw [surplusIds_eq, Nat.sub_eq_zero_of_le hshort, take_zero, map_nil]
  have hprune : prunePendingPairings (expired s now) now = expired s now := by
    rw [prunePendingPairings_eq, hretained, hsurplus, filter_eq_self]
    simp
  have hover : (expired s now).any (isOverdue now) = false := by
    rw [any_eq_false]
    intro record h
    rw [not_overdue_of_mem_expired h]
    simp
  have hlist : prunePendingPairings ((expired s now).map (expireRecord now)) now =
      expired s now := by
    rw [hmap, hprune]
  apply Prod.ext
  · change { (expirePendingPairingNow s now).1 with
      pendingPairings := prunePendingPairings ((expired s now).map (expireRecord now)) now } = _
    rw [hlist]
  · change ((expired s now).any (isOverdue now) ||
      (prunePendingPairings ((expired s now).map (expireRecord now)) now).length !=
        ((expired s now).map (expireRecord now)).length) = false
    rw [hover, hlist]
    simp

end Expire

end RelayIde.Nodes
