import RelayIde.Ports.Allocator

/-!
# Interleaved Allocations

What an allocator keeps true while its calls interleave (`server/port-allocator.ts`).  A write
relies on what its call read before an await; as long as that is still so when the write comes,
the list stays sound.

- `allocator_of_run` — distinct ports and keys, nothing obtained is lost and nothing released
  comes back, as long as no write is stale
-/

open List Function

namespace RelayIde.Ports

open RelayIde.Library

/-! ## Runs and what their calls have read -/

/-- A run of the allocator, with what it has shown its calls so far. -/
structure Watched where
  now : Allocator
  /-- The allocator as a call read it when it last looked for a port. -/
  read : ℕ → Allocator
  /-- The array of an initialization, as its first loop saw it last. -/
  walked : ℕ → List ℕ
  /-- The entries that were in the list when a release or a reconcile of them came. -/
  gone : List ℕ

namespace Allocator

/-- The call that reads the list in an operation, because it starts a search or goes on to the
    next one. -/
def reads (s : Allocator) : Op → Option ℕ
  | .initializeAllocator | .allocatePortsForWorktree .. | .reconcilePortsForWorktree .. =>
    some s.nextCall
  | .releasePortsForWorktree .. | .releasePortForWorktreeVariable .. => none
  | .probed id available => (s.call? id).bind fun call =>
    match call.state with
    | .verifying .. => some id
    | .reassigning _ _ _ _ (.probing _) => if available then some id else none
    | _ => none
  | .picked id _ => (s.call? id).bind fun call =>
    match call.state with
    | .reassigning _ _ _ _ .asking => some id
    | _ => none
  | .resumed id => (s.call? id).bind fun call =>
    match call.state with
    | .worktree _ _ _ _ _ _ (.resolved _) => some id
    | _ => none

/-- The initialization whose first loop starts or goes on in an operation, and its array. -/
def walks (s : Allocator) : Op → Option (ℕ × ℕ)
  | .initializeAllocator => some (s.nextCall, s.current)
  | .probed id _ => (s.call? id).bind fun call =>
    match call.state with
    | .verifying array _ _ _ _ => some (id, array)
    | _ => none
  | _ => none

end Allocator

namespace Watched

def start (assignments : List PortAssignment) : Watched :=
  ⟨.start assignments, fun _ => .start assignments, fun _ => [], []⟩

def step (skip : List String) (w : Watched) (op : Op) : Watched where
  now := w.now.step skip op
  read := (w.now.reads op).elim w.read fun id => update w.read id (w.now.step skip op)
  walked := (w.now.walks op).elim w.walked fun (id, array) =>
    update w.walked id (w.now.arrays array)
  gone := w.gone ++ w.now.list.filter fun o => op.removes (w.now.objects o)

end Watched

/-! ## Stale writes -/

namespace Allocator

/-- Nothing that came to the list or changed since the call read it stands against the port that
    the call has found. -/
def Fresh (s read : Allocator) (walked : List ℕ) (port : ℕ) : CallState → Prop
  | .worktree repoId worktreeId _ variableName _ _ _ =>
    ∀ o ∈ s.list, o ∉ read.list ∨ s.objects o ≠ read.objects o →
      (s.objects o).key ≠ (repoId, worktreeId, variableName) ∧ (s.objects o).port ≠ port
  | .reassigning o remaining verified _ _ =>
    (∀ o' ∈ s.list, o' ≠ o → o' ∉ verified ∨ s.objects o' ≠ read.objects o' →
      (s.objects o').port ≠ port) ∧
    (o ∈ s.list → ∀ x ∈ s.obtained, x.removed = false → x.key ≠ (s.objects o).key) ∧
    (remaining = [] → walked.Perm s.list)
  | _ => True

/-- The answer of `getPort()` is not the port of an entry; nobody compares the two. -/
def Unused (s : Allocator) (port : ℕ) : CallState → Prop
  | .reassigning o _ _ _ _ => ∀ o' ∈ s.list, o' ≠ o → (s.objects o').port ≠ port
  | _ => ∀ o ∈ s.list, (s.objects o).port ≠ port

end Allocator

/-- The write of an operation, if it is one, is not stale. -/
def FreshWrite (skip : List String) (w : Watched) : Op → Prop
  | .probed id available => ∀ call, w.now.call? id = some call →
    match call.state with
    | .worktree _ _ _ _ _ _ (.searching _ (.probing port))
    | .reassigning _ _ _ _ (.probing port) =>
      available = true → w.now.Fresh (w.read id) (w.walked id) port call.state
    | .verifying array index o verified toReassign =>
      (∃ put, w.now.verified skip array index o verified toReassign available = .assigns put) →
        (w.now.arrays array).Perm w.now.list
    | _ => True
  | .picked id port => ∀ call, w.now.call? id = some call →
    match call.state with
    | .worktree _ _ _ _ _ _ (.searching _ .asking) | .reassigning _ _ _ _ .asking =>
      w.now.Fresh (w.read id) (w.walked id) port call.state ∧ w.now.Unused port call.state
    | _ => True
  | _ => True

/-! ## What a call relies on -/

/-- A probe is of a port that is not among the used ones. -/
def Search.Avoids (usedPorts : List ℕ) : Search → Prop
  | .probing port => port ∉ usedPorts
  | .asking => True

theorem avoids_nextSearch (usedPorts : List ℕ) (n port : ℕ) :
    (nextSearch usedPorts n port).Avoids usedPorts := by
  induction n generalizing port with
  | zero => trivial
  | succ n ih =>
    unfold nextSearch
    split
    · exact ih (port + 1)
    · assumption

theorem avoids_findAvailablePort (usedPorts : List ℕ) (port : ℕ) :
    (findAvailablePort usedPorts port).Avoids usedPorts :=
  avoids_nextSearch usedPorts _ port

/-- **The checks of a call**: what it goes by was so when it read the list, and the entries that
    an initialization has in hand are those of its array. -/
def Tracks (s read : Allocator) (walked : List ℕ) : CallState → Prop
  | .worktree repoId worktreeId _ variableName _ _ (.searching usedPorts search) =>
    (∀ a ∈ read.assignments, a.key ≠ (repoId, worktreeId, variableName)) ∧
      usedPorts = read.assignments.map (·.port) ∧ search.Avoids usedPorts
  | .verifying array index o verified toReassign =>
    array < s.nextArray ∧ (s.arrays array)[index]? = some o ∧
      (verified ++ toReassign).Perm ((s.arrays array).take index)
  | .reassigning o remaining verified usedPorts search =>
    (verified ++ o :: remaining).Perm walked ∧
      usedPorts = verified.map (fun o => (read.objects o).port) ∧ search.Avoids usedPorts
  | _ => True

/-! ## The invariant -/

/-- What holds between two sections, where the entries `gone` were removed. -/
structure Sound (gone : List ℕ) (s : Allocator) : Prop where
  below : ∀ o ∈ s.list, o < s.nextObject
  goneBelow : ∀ o ∈ gone, o < s.nextObject
  ports : (s.list.map fun o => (s.objects o).port).Nodup
  keys : (s.list.map fun o => (s.objects o).key).Nodup
  kept : ∀ x ∈ s.obtained, x.removed = false → x.toPortAssignment ∈ s.assignments
  gone : ∀ o ∈ gone, o ∉ s.list

variable {s s' : Allocator} {gone : List ℕ}

variable {a : PortAssignment} {x : Obtained} {call : Call} {state : CallState} {id : ℕ}
  {result : List Obtained} {skip : List String}

theorem mem_assignments : a ∈ s.assignments ↔ ∃ o ∈ s.list, s.objects o = a := mem_map

theorem Sound.list_nodup (h : Sound gone s) : s.list.Nodup := .of_map _ h.ports

theorem Sound.of_obtained (h : Sound gone s) (hobjects : s'.objects = s.objects)
    (hnext : s'.nextObject = s.nextObject) (hlist : s'.list = s.list)
    (hobtained : ∀ x ∈ s'.obtained, x ∈ s.obtained ∨ x.toPortAssignment ∈ s.assignments) :
    Sound gone s' where
  below := hlist ▸ hnext ▸ h.below
  goneBelow := hnext ▸ h.goneBelow
  ports := hlist ▸ hobjects ▸ h.ports
  keys := hlist ▸ hobjects ▸ h.keys
  kept := fun x hx hremoved => by
    unfold Allocator.assignments
    rw [hlist, hobjects]
    rcases hobtained x hx with hx | hx
    · exact h.kept x hx hremoved
    · exact hx
  gone := hlist ▸ h.gone

@[simp] theorem list_assign (array : List ℕ) : (s.assign array).list = array := by
  simp [Allocator.list, Allocator.assign]

theorem Sound.assign (h : Sound gone s) {array : List ℕ} (hperm : array.Perm s.list) :
    Sound gone (s.assign array) where
  below := fun o ho => h.below o (hperm.subset (by simpa using ho))
  goneBelow := h.goneBelow
  ports := by
    rw [list_assign]
    exact (hperm.map _).nodup_iff.mpr h.ports
  keys := by
    rw [list_assign]
    exact (hperm.map _).nodup_iff.mpr h.keys
  kept := fun x hx hremoved => by
    obtain ⟨o, ho, hobject⟩ := mem_assignments.mp (h.kept x hx hremoved)
    exact mem_assignments.mpr ⟨o, by simpa using hperm.symm.subset ho, hobject⟩
  gone := fun o ho hmem => h.gone o ho (hperm.subset (by simpa using hmem))

theorem Sound.push (h : Sound gone s)
    (hnew : ∀ b ∈ s.assignments, b.key ≠ a.key ∧ b.port ≠ a.port) : Sound gone (s.push a) := by
  have hlist : (s.push a).list = s.list ++ [s.nextObject] := by
    simp [Allocator.list, Allocator.push]
  -- the objects of the list are older than the one pushed
  have hobject : ∀ o ∈ s.list, (s.push a).objects o = s.objects o := fun o ho =>
    update_of_ne (h.below o ho).ne _ _
  have hlast : (s.push a).objects s.nextObject = a := update_self _ _ _
  have hnodup : ∀ {β : Type} (f : PortAssignment → β), (∀ b ∈ s.assignments, f b ≠ f a) →
      (s.list.map fun o => f (s.objects o)).Nodup →
      ((s.push a).list.map fun o => f ((s.push a).objects o)).Nodup := by
    intro β f hne hf
    rw [hlist, map_append, map_singleton, hlast, nodup_append]
    refine ⟨?_, nodup_singleton _, fun x hx y hy heq => ?_⟩
    · rw [map_congr_left fun o ho => congrArg f (hobject o ho)]
      exact hf
    · obtain ⟨o, ho, rfl⟩ := mem_map.mp hx
      rw [mem_singleton] at hy
      rw [hobject o ho, hy] at heq
      exact hne _ (mem_map_of_mem ho) heq
  refine ⟨fun o ho => ?_, fun o ho => (h.goneBelow o ho).trans (Nat.lt_succ_self _),
    hnodup (·.port) (fun b hb => (hnew b hb).2) h.ports,
    hnodup (·.key) (fun b hb => (hnew b hb).1) h.keys, fun x hx hremoved => ?_, fun o ho hmem => ?_⟩
  · rw [hlist] at ho
    rcases mem_append.mp ho with ho | ho
    · exact (h.below o ho).trans (Nat.lt_succ_self _)
    · rw [mem_singleton.mp ho]
      exact Nat.lt_succ_self _
  · obtain ⟨o, ho, hx⟩ := mem_assignments.mp (h.kept x hx hremoved)
    exact mem_assignments.mpr ⟨o, hlist ▸ mem_append_left _ ho, (hobject o ho).trans hx⟩
  · rw [hlist] at hmem
    rcases mem_append.mp hmem with hmem | hmem
    · exact h.gone o ho hmem
    · exact (h.goneBelow o ho).ne (mem_singleton.mp hmem)

theorem mem_assignments_push (s : Allocator) (a : PortAssignment) : a ∈ (s.push a).assignments :=
  mem_assignments.mpr ⟨s.nextObject, by simp [Allocator.list, Allocator.push], update_self _ _ _⟩

theorem Sound.setPort (h : Sound gone s) {o port : ℕ}
    (hport : ∀ o' ∈ s.list, o' ≠ o → (s.objects o').port ≠ port)
    (hobtained : o ∈ s.list → ∀ x ∈ s.obtained, x.removed = false → x.key ≠ (s.objects o).key) :
    Sound gone (s.setPort o port) := by
  have hself : (s.setPort o port).objects o = { s.objects o with port := port } :=
    update_self _ _ _
  have hother : ∀ o', o' ≠ o → (s.setPort o port).objects o' = s.objects o' := fun o' hne =>
    update_of_ne hne _ _
  refine ⟨h.below, h.goneBelow, ?_, ?_, fun x hx hremoved => ?_, h.gone⟩
  · refine (nodup_map_iff_inj_on h.list_nodup).mpr fun o₁ ho₁ o₂ ho₂ heq => ?_
    by_cases h₁ : o₁ = o
    · by_cases h₂ : o₂ = o
      · rw [h₁, h₂]
      · rw [h₁, hself, hother o₂ h₂] at heq
        exact absurd heq.symm (hport o₂ ho₂ h₂)
    · by_cases h₂ : o₂ = o
      · rw [h₂, hself, hother o₁ h₁] at heq
        exact absurd heq (hport o₁ ho₁ h₁)
      · rw [hother o₁ h₁, hother o₂ h₂] at heq
        exact (nodup_map_iff_inj_on h.list_nodup).mp h.ports o₁ ho₁ o₂ ho₂ heq
  · have hkey : ∀ o', ((s.setPort o port).objects o').key = (s.objects o').key := by
      intro o'
      by_cases ho' : o' = o
      · rw [ho', hself]
        rfl
      · rw [hother o' ho']
    simp only [hkey]
    exact h.keys
  · obtain ⟨o', ho', hobject⟩ := mem_assignments.mp (h.kept x hx hremoved)
    refine mem_assignments.mpr ⟨o', ho', ?_⟩
    by_cases hsame : o' = o
    · -- nobody has obtained the assignment that changes
      subst hsame
      exact absurd (congrArg PortAssignment.key hobject).symm (hobtained ho' x hx hremoved)
    · rw [hother o' hsame]
      exact hobject

/-! ## Removals -/

section
variable (removes : PortAssignment → Bool)
include removes

theorem obtained_mark (state : CallState) :
    (state.mark removes).obtained = state.obtained.map (Obtained.mark removes) := by
  cases state with
  | worktree _ _ _ _ _ _ lookup =>
    cases lookup with
    | searching => rfl
    | resolved => simp [CallState.mark, CallState.obtained]
  | verifying | reassigning | verified => rfl

theorem obtained_filterOut :
    (s.filterOut removes).obtained = s.obtained.map (Obtained.mark removes) := by
  simp [Allocator.obtained, Allocator.filterOut, flatMap_map, map_flatMap, obtained_mark]

theorem list_filterOut :
    (s.filterOut removes).list = s.list.filter fun o => !removes (s.objects o) := by
  simp [Allocator.list, Allocator.filterOut, Allocator.assign]

end

theorem mem_assignments_filterOut {removes : PortAssignment → Bool} :
    a ∈ (s.filterOut removes).assignments ↔ a ∈ s.assignments ∧ removes a = false := by
  unfold Allocator.assignments
  rw [list_filterOut]
  simp only [mem_map, mem_filter, Bool.not_eq_true']
  constructor
  · rintro ⟨o, ⟨ho, hremoves⟩, rfl⟩
    exact ⟨⟨o, ho, rfl⟩, hremoves⟩
  · rintro ⟨⟨o, ho, rfl⟩, hremoves⟩
    exact ⟨o, ⟨ho, hremoves⟩, rfl⟩

theorem Sound.filterOut (h : Sound gone s) (removes : PortAssignment → Bool) :
    Sound (gone ++ s.list.filter fun o => removes (s.objects o)) (s.filterOut removes) := by
  have hsub : ((s.filterOut removes).list).Sublist s.list := by
    rw [list_filterOut]
    exact filter_sublist
  refine ⟨fun o ho => h.below o (hsub.subset ho), fun o ho => ?_, h.ports.sublist (hsub.map _),
    h.keys.sublist (hsub.map _), fun x hx hremoved => ?_, fun o ho hmem => ?_⟩
  · rcases mem_append.mp ho with ho | ho
    · exact h.goneBelow o ho
    · exact h.below o (mem_filter.mp ho).1
  · rw [obtained_filterOut, mem_map] at hx
    obtain ⟨y, hy, rfl⟩ := hx
    obtain ⟨hkept, hremoves⟩ := Bool.or_eq_false_iff.mp hremoved
    exact mem_assignments_filterOut.mpr ⟨h.kept y hy hkept, hremoves⟩
  · rcases mem_append.mp ho with ho | ho
    · exact h.gone o ho (hsub.subset hmem)
    · rw [list_filterOut] at hmem
      have hremoved := (mem_filter.mp ho).2
      have hstays := (mem_filter.mp hmem).2
      simp [hremoved] at hstays

/-! ## Calls -/

theorem mem_obtained : x ∈ s.obtained ↔
    (∃ call ∈ s.calls, x ∈ call.state.obtained) ∨ ∃ call ∈ s.returned, x ∈ call.result := by
  simp [Allocator.obtained]

theorem obtained_of_call (hcall : call ∈ s.calls) (hx : x ∈ call.state.obtained) : x ∈ s.obtained :=
  mem_obtained.mpr (.inl ⟨call, hcall, hx⟩)

theorem mem_obtained_enter (hx : x ∈ (s.enter state).obtained) :
    x ∈ s.obtained ∨ x ∈ state.obtained := by
  rcases mem_obtained.mp hx with ⟨call, hcall, hx⟩ | hreturned
  · rcases mem_append.mp hcall with hcall | hnew
    · exact .inl (obtained_of_call hcall hx)
    · rw [mem_singleton.mp hnew] at hx
      exact .inr hx
  · exact .inl (mem_obtained.mpr (.inr hreturned))

theorem mem_obtained_suspend
    (hx : x ∈ (s.suspend id state).obtained) : x ∈ s.obtained ∨ x ∈ state.obtained := by
  rcases mem_obtained.mp hx with ⟨call, hcall, hx⟩ | hreturned
  · obtain ⟨before, hbefore, rfl⟩ := mem_map.mp hcall
    split at hx
    · exact .inr hx
    · exact .inl (obtained_of_call hbefore hx)
  · exact .inl (mem_obtained.mpr (.inr hreturned))

theorem mem_obtained_leave (hx : x ∈ (s.leave id).obtained) : x ∈ s.obtained := by
  rcases mem_obtained.mp hx with ⟨call, hcall, hx⟩ | hreturned
  · exact obtained_of_call (mem_filter.mp hcall).1 hx
  · exact mem_obtained.mpr (.inr hreturned)

theorem mem_obtained_reply
    (hx : x ∈ (s.reply id result).obtained) : x ∈ s.obtained ∨ x ∈ result := by
  rcases mem_obtained.mp hx with hcall | ⟨call, hcall, hx⟩
  · exact .inl (mem_obtained.mpr (.inl hcall))
  · rcases mem_append.mp hcall with hcall | hnew
    · exact .inl (mem_obtained.mpr (.inr ⟨call, hcall, hx⟩))
    · rw [mem_singleton.mp hnew] at hx
      exact .inr hx

/-- What a call holds on to has been obtained, or is in the list. -/
def Allocator.Covers (s : Allocator) (obtained : List Obtained) : Prop :=
  ∀ x ∈ obtained, x ∈ s.obtained ∨ x.toPortAssignment ∈ s.assignments

theorem Sound.enter (h : Sound gone s) (hstate : s.Covers state.obtained) :
    Sound gone (s.enter state) :=
  h.of_obtained rfl rfl rfl fun x hx => (mem_obtained_enter hx).elim .inl (hstate x)

theorem Sound.suspend (h : Sound gone s) (hstate : s.Covers state.obtained)
    (id : ℕ) : Sound gone (s.suspend id state) :=
  h.of_obtained rfl rfl rfl fun x hx => (mem_obtained_suspend hx).elim .inl (hstate x)

theorem Sound.reply (h : Sound gone s) (hresult : s.Covers result) (id : ℕ) :
    Sound gone (s.reply id result) :=
  h.of_obtained rfl rfl rfl fun x hx => (mem_obtained_reply hx).elim .inl (hresult x)

theorem mem_setResult {obtained : Obtained}
    (hx : x ∈ setResult result obtained) : x ∈ result ∨ x = obtained := by
  rcases mem_append.mp hx with hx | hx
  · exact .inl (mem_filter.mp hx).1
  · exact .inr (mem_singleton.mp hx)

theorem covers_allocateSinglePort (hresult : s.Covers result)
    (repoId worktreeId : String) (reconciles : Bool) (variableName : String)
    (remaining : List String) :
    s.Covers (CallState.worktree repoId worktreeId reconciles variableName remaining result
      (s.allocateSinglePort repoId worktreeId variableName)).obtained := by
  intro x hx
  unfold Allocator.allocateSinglePort at hx
  dsimp only at hx
  split at hx
  · rename_i existing hfind
    rcases mem_append.mp hx with hx | hx
    · exact hresult x hx
    · rw [mem_singleton.mp hx]
      exact .inr (mem_of_find?_eq_some hfind)
  · exact hresult x hx

theorem covers_nextVariable (hresult : s.Covers result)
    {repoId worktreeId : String} {reconciles : Bool} {variableNames : List String}
    (hstate : s.nextVariable repoId worktreeId reconciles result variableNames = some state) :
    s.Covers state.obtained := by
  induction variableNames with
  | nil => cases hstate
  | cons variableName remaining ih =>
    unfold Allocator.nextVariable at hstate
    split at hstate
    · exact ih hstate
    · rw [← Option.some.inj hstate]
      exact covers_allocateSinglePort hresult repoId worktreeId reconciles variableName remaining

theorem Sound.enterWorktree (h : Sound gone s) (hresult : s.Covers result)
    (repoId worktreeId : String) (reconciles : Bool) (variableNames : List String) :
    Sound gone (s.enterWorktree repoId worktreeId reconciles result variableNames) := by
  unfold Allocator.enterWorktree
  split
  · rename_i state hstate
    exact h.enter (covers_nextVariable hresult hstate)
  · exact (h.reply hresult s.nextCall).of_obtained rfl rfl rfl fun x hx => .inl hx

theorem sound_reconcile (h : Sound gone s) (repoId worktreeId : String)
    (variableNames preserveVariableNames : List String) :
    Sound (gone ++ s.list.filter fun o => (Op.reconcilePortsForWorktree repoId worktreeId
        variableNames preserveVariableNames).removes (s.objects o))
      (s.reconcilePortsForWorktree repoId worktreeId variableNames preserveVariableNames) := by
  unfold Allocator.reconcilePortsForWorktree
  apply (h.filterOut _).enterWorktree
  have hpreserved : ∀ (preserved : List PortAssignment) (result : List Obtained),
      ∀ x ∈ preserved.foldl (fun result a => setResult result ⟨a, false⟩) result,
        x ∈ result ∨ x.toPortAssignment ∈ preserved := by
    intro preserved
    induction preserved with
    | nil => exact fun result x hx => .inl hx
    | cons a preserved ih =>
      intro result x hx
      rcases ih _ x hx with hx | hx
      · rcases mem_setResult hx with hx | rfl
        · exact .inl hx
        · exact .inr mem_cons_self
      · exact .inr (mem_cons_of_mem _ hx)
  intro x hx
  rcases hpreserved _ [] x hx with hx | hx
  · exact (not_mem_nil hx).elim
  · refine .inr (mem_assignments_filterOut.mpr ⟨(mem_filter.mp hx).1, ?_⟩)
    have hkept := of_decide_eq_true (mem_filter.mp hx).2
    exact decide_eq_false fun hremoved => hremoved.2.2 hkept.2.2

/-! ## Initialization -/

/-- The loops of initialization obtain nothing. -/
def Progress.Silent : Progress → Prop
  | .awaits state => state.obtained = []
  | .assigns _ => True

theorem silent_reassignFrom (toReassign verified : List ℕ) :
    (s.reassignFrom toReassign verified).Silent := by
  cases toReassign <;> simp [Allocator.reassignFrom, Progress.Silent, CallState.obtained]

theorem silent_verifyFrom (skip : List String) (array index : ℕ)
    (remaining verified toReassign : List ℕ) :
    (s.verifyFrom skip array index remaining verified toReassign).Silent := by
  induction remaining generalizing index verified with
  | nil => exact silent_reassignFrom toReassign verified
  | cons o remaining ih =>
    unfold Allocator.verifyFrom
    split
    · exact ih (index + 1) (verified ++ [o])
    · rfl

theorem silent_verified (skip : List String) (array index o : ℕ) (verified toReassign : List ℕ)
    (available : Bool) : (s.verified skip array index o verified toReassign available).Silent := by
  unfold Allocator.verified
  split <;> exact silent_verifyFrom ..

/-- The array that initialization puts in place, if it does, holds what the list holds. -/
def Allocator.Restores (s : Allocator) (progress : Progress) : Prop :=
  ∀ verified, progress = .assigns verified → verified.Perm s.list

theorem Sound.write (h : Sound gone s) {progress : Progress} (hrestores : s.Restores progress)
    (hsilent : progress.Silent) :
    Sound gone (s.write progress).1 ∧ (s.write progress).2.obtained = [] := by
  cases progress with
  | awaits state => exact ⟨h, hsilent⟩
  | assigns verified => exact ⟨h.assign (hrestores verified rfl), rfl⟩

theorem covers_nil (s : Allocator) {obtained : List Obtained} (h : obtained = []) :
    s.Covers obtained := by
  intro x hx
  rw [h] at hx
  exact (not_mem_nil hx).elim

/-! ## The reads of calls -/

/-- Arrays are only ever extended. -/
structure Extends (s s' : Allocator) : Prop where
  next : s.nextArray ≤ s'.nextArray
  arrays : ∀ array < s.nextArray, s.arrays array <+: s'.arrays array

section Tracking

variable {r r' : Allocator} {l : List ℕ} {read : ℕ → Allocator} {walked : ℕ → List ℕ}

theorem Extends.of_arrays (harrays : s'.arrays = s.arrays) (hnext : s'.nextArray = s.nextArray) :
    Extends s s' :=
  ⟨hnext.ge, fun _ _ => harrays ▸ prefix_refl _⟩

theorem extends_assign (s : Allocator) (array : List ℕ) : Extends s (s.assign array) :=
  ⟨Nat.le_succ _, fun other hother => by
    change s.arrays other <+: update s.arrays s.nextArray array other
    rw [update_of_ne hother.ne]⟩

theorem extends_push (s : Allocator) (a : PortAssignment) : Extends s (s.push a) :=
  ⟨le_rfl, fun array _ => by
    change s.arrays array <+: update s.arrays s.current (s.list ++ [s.nextObject]) array
    by_cases hcurrent : array = s.current
    · rw [hcurrent, update_self]
      exact prefix_append _ _
    · rw [update_of_ne hcurrent]⟩

theorem Tracks.extend (h : Tracks s r l state) (hextends : Extends s s') : Tracks s' r l state := by
  cases state with
  | worktree _ _ _ _ _ _ lookup => cases lookup <;> exact h
  | verifying array index o verified toReassign =>
    obtain ⟨harray, hget, hperm⟩ := h
    obtain ⟨tail, htail⟩ := hextends.arrays array harray
    obtain ⟨hindex, -⟩ := List.getElem?_eq_some_iff.mp hget
    refine ⟨harray.trans_le hextends.next, ?_, ?_⟩
    · rw [← htail, getElem?_append_left hindex, hget]
    · rwa [← htail, take_append_of_le_length hindex.le]
  | reassigning | verified => exact h

theorem Tracks.of_read (h : Tracks s r l state) (hlist : r'.list = r.list)
    (hobjects : r'.objects = r.objects) : Tracks s r' l state := by
  have hassignments : r'.assignments = r.assignments := by
    rw [Allocator.assignments, hlist, hobjects]
    rfl
  cases state with
  | worktree _ _ _ _ _ _ lookup =>
    cases lookup with
    | searching => simpa only [Tracks, hassignments] using h
    | resolved => trivial
  | verifying => exact h
  | reassigning => simpa only [Tracks, hobjects] using h
  | verified => trivial

/-- What the calls under way go by. -/
structure Tracked (s : Allocator) (read : ℕ → Allocator) (walked : ℕ → List ℕ) : Prop where
  ids : ∀ call ∈ s.calls, call.id < s.nextCall
  current : s.current < s.nextArray
  calls : ∀ call ∈ s.calls, Tracks s (read call.id) (walked call.id) call.state

theorem Tracked.of_calls (h : Tracked s read walked) (hcurrent : s'.current < s'.nextArray)
    (hextends : Extends s s') (hnext : s.nextCall ≤ s'.nextCall)
    (hcalls : ∀ call ∈ s'.calls, ∃ before ∈ s.calls, call.id = before.id ∧
      ∀ r l, Tracks s r l before.state → Tracks s r l call.state) :
    Tracked s' read walked where
  ids := fun call hcall => by
    obtain ⟨before, hbefore, hid, -⟩ := hcalls call hcall
    exact hid ▸ (h.ids before hbefore).trans_le hnext
  current := hcurrent
  calls := fun call hcall => by
    obtain ⟨before, hbefore, hid, hstate⟩ := hcalls call hcall
    rw [hid]
    exact (hstate _ _ (h.calls before hbefore)).extend hextends

theorem Tracked.of_calls_eq (h : Tracked s read walked) (hcurrent : s'.current < s'.nextArray)
    (hextends : Extends s s') (hnext : s.nextCall ≤ s'.nextCall) (hcalls : s'.calls = s.calls) :
    Tracked s' read walked :=
  h.of_calls hcurrent hextends hnext fun call hcall =>
    ⟨call, hcalls ▸ hcall, rfl, fun _ _ hstate => hstate⟩

theorem Tracked.filterOut (h : Tracked s read walked) (removes : PortAssignment → Bool) :
    Tracked (s.filterOut removes) read walked := by
  have hextends := extends_assign s (s.list.filter fun o => !removes (s.objects o))
  refine h.of_calls (Nat.lt_succ_self s.nextArray) ⟨hextends.next, hextends.arrays⟩ le_rfl
    fun call hcall => ?_
  obtain ⟨before, hbefore, rfl⟩ := mem_map.mp hcall
  refine ⟨before, hbefore, rfl, fun r l hstate => ?_⟩
  -- a mark changes the result of the call only
  cases hbeforeState : before.state with
  | worktree _ _ _ _ _ _ lookup =>
    rw [hbeforeState] at hstate
    cases lookup <;> exact hstate
  | verifying | reassigning | verified =>
    rw [hbeforeState] at hstate
    exact hstate

/-- The call that enters next has read nothing yet. -/
theorem Tracked.update_next (h : Tracked s read walked) (r : Allocator) (l : List ℕ) :
    Tracked s (update read s.nextCall r) (update walked s.nextCall l) :=
  ⟨h.ids, h.current, fun call hcall => by
    have hne := (h.ids call hcall).ne
    rw [update_of_ne hne, update_of_ne hne]
    exact h.calls call hcall⟩

theorem Tracked.enter (h : Tracked s read walked) (hstate : Tracks s r l state) :
    Tracked (s.enter state) (update read s.nextCall r) (update walked s.nextCall l) := by
  have hextends : Extends s (s.enter state) := .of_arrays rfl rfl
  refine ⟨fun call hcall => ?_, h.current, fun call hcall => ?_⟩
  · rcases mem_append.mp hcall with hcall | hnew
    · exact (h.ids call hcall).trans (Nat.lt_succ_self _)
    · rw [mem_singleton.mp hnew]
      exact Nat.lt_succ_self _
  · rcases mem_append.mp hcall with hcall | hnew
    · exact ((h.update_next r l).calls call hcall).extend hextends
    · rw [mem_singleton.mp hnew, update_self, update_self]
      exact hstate.extend hextends

theorem Tracked.suspend (h : Tracked s read walked) (hstate : Tracks s r l state) (id : ℕ) :
    Tracked (s.suspend id state) (update read id r) (update walked id l) := by
  have hextends : Extends s (s.suspend id state) := .of_arrays rfl rfl
  refine ⟨fun call hcall => ?_, h.current, fun call hcall => ?_⟩
  · obtain ⟨before, hbefore, rfl⟩ := mem_map.mp hcall
    have hid := h.ids before hbefore
    split <;> exact hid
  · obtain ⟨before, hbefore, rfl⟩ := mem_map.mp hcall
    split
    · rename_i hid
      subst hid
      rw [update_self, update_self]
      exact hstate.extend hextends
    · rename_i hid
      rw [update_of_ne hid, update_of_ne hid]
      exact (h.calls before hbefore).extend hextends

theorem Tracked.leave (h : Tracked s read walked) (id : ℕ) (r : Allocator) (l : List ℕ) :
    Tracked (s.leave id) (update read id r) (update walked id l) := by
  refine ⟨fun call hcall => h.ids call (mem_filter.mp hcall).1, h.current, fun call hcall => ?_⟩
  obtain ⟨hbefore, hid⟩ := mem_filter.mp hcall
  have hne : call.id ≠ id := by simpa using hid
  rw [update_of_ne hne, update_of_ne hne]
  exact (h.calls call hbefore).extend (.of_arrays rfl rfl)

/-! ## Searches and loops -/

theorem tracks_allocateSinglePort (repoId worktreeId : String) (reconciles : Bool)
    (variableName : String) (remaining : List String) :
    Tracks s s l (.worktree repoId worktreeId reconciles variableName remaining result
      (s.allocateSinglePort repoId worktreeId variableName)) := by
  unfold Allocator.allocateSinglePort
  dsimp only
  split
  · trivial
  · rename_i hnone
    refine ⟨fun a ha hkey => find?_eq_none.mp hnone a ha ?_, rfl, avoids_findAvailablePort _ _⟩
    injection hkey with hrepo hrest
    injection hrest with htree hvariable
    exact decide_eq_true ⟨hrepo, htree, hvariable⟩

theorem tracks_nextVariable {repoId worktreeId : String} {reconciles : Bool}
    {variableNames : List String}
    (hstate : s.nextVariable repoId worktreeId reconciles result variableNames = some state) :
    Tracks s s l state := by
  induction variableNames with
  | nil => cases hstate
  | cons variableName remaining ih =>
    unfold Allocator.nextVariable at hstate
    split at hstate
    · exact ih hstate
    · rw [← Option.some.inj hstate]
      exact tracks_allocateSinglePort repoId worktreeId reconciles variableName remaining

/-- Initialization has in hand what its array `l` holds. -/
def Progress.Tracks (s : Allocator) (l : List ℕ) : Progress → Prop
  | .awaits state => Ports.Tracks s s l state
  | .assigns verified => verified.Perm l

theorem tracks_reassignFrom {toReassign verified : List ℕ}
    (hperm : (verified ++ toReassign).Perm l) :
    (s.reassignFrom toReassign verified).Tracks s l := by
  cases toReassign with
  | nil => simpa [Allocator.reassignFrom, Progress.Tracks] using hperm
  | cons o remaining => exact ⟨hperm, rfl, avoids_findAvailablePort _ _⟩

/-- **The first loop** sorts its array into what it verified and what it will reassign. -/
theorem tracks_verifyFrom {array index : ℕ} {remaining verified toReassign : List ℕ}
    (harray : array < s.nextArray) (hremaining : remaining = (s.arrays array).drop index)
    (hperm : (verified ++ toReassign).Perm ((s.arrays array).take index)) :
    (s.verifyFrom skip array index remaining verified toReassign).Tracks s (s.arrays array) := by
  induction remaining generalizing index verified with
  | nil =>
    rw [take_of_length_le (drop_eq_nil_iff.mp hremaining.symm)] at hperm
    exact tracks_reassignFrom hperm
  | cons o remaining ih =>
    have hget : (s.arrays array)[index]? = some o := by
      rw [← head?_drop, ← hremaining]
      rfl
    have hrest : remaining = (s.arrays array).drop (index + 1) := by
      rw [← tail_drop, ← hremaining]
      rfl
    unfold Allocator.verifyFrom
    split
    · refine ih hrest ?_
      rw [take_add_one, hget, append_assoc]
      exact (perm_middle.trans (perm_append_singleton o _).symm).trans (hperm.append_right [o])
    · exact ⟨harray, hget, hperm⟩

theorem tracks_verified {array index o : ℕ} {verified toReassign : List ℕ}
    (h : Tracks s r l (.verifying array index o verified toReassign)) (available : Bool) :
    (s.verified skip array index o verified toReassign available).Tracks s (s.arrays array) := by
  obtain ⟨harray, hget, hperm⟩ := h
  unfold Allocator.verified
  dsimp only
  split <;> refine tracks_verifyFrom harray rfl ?_ <;> rw [take_add_one, hget]
  · rw [append_assoc]
    exact (perm_middle.trans (perm_append_singleton o _).symm).trans (hperm.append_right [o])
  · rw [← append_assoc]
    exact hperm.append_right [o]

/-- What a call goes by behind a write of initialization, for a reader `r` of what was written. -/
theorem tracks_write {progress : Progress} (h : progress.Tracks s l)
    (hlist : r.list = (s.write progress).1.list)
    (hobjects : r.objects = (s.write progress).1.objects) :
    Tracks (s.write progress).1 r l (s.write progress).2 := by
  cases progress with
  | awaits state => exact Tracks.of_read h hlist hobjects
  | assigns => trivial

theorem Tracked.write (h : Tracked s read walked) (progress : Progress) :
    Tracked (s.write progress).1 read walked := by
  cases progress with
  | awaits state => exact h
  | assigns verified =>
    exact h.of_calls_eq (Nat.lt_succ_self _) (extends_assign s verified) le_rfl rfl

/-! ## Writes that are not stale -/

/-- What a write of a port found by a call takes to keep the allocator sound. -/
def Allocator.Clear (s : Allocator) (port : ℕ) : CallState → Prop
  | .worktree repoId worktreeId _ variableName _ _ _ =>
    ∀ a ∈ s.assignments, a.key ≠ (repoId, worktreeId, variableName) ∧ a.port ≠ port
  | .reassigning o remaining verified _ _ =>
    (∀ o' ∈ s.list, o' ≠ o → (s.objects o').port ≠ port) ∧
      (o ∈ s.list → ∀ x ∈ s.obtained, x.removed = false → x.key ≠ (s.objects o).key) ∧
      (remaining = [] → (verified ++ [o]).Perm s.list)
  | _ => True

/-- **Allocations check** what they read, so only what changed since can stand against them. -/
theorem clear_of_fresh_worktree {repoId worktreeId : String} {reconciles : Bool}
    {variableName : String} {remaining : List String} {usedPorts : List ℕ} {search : Search}
    {port : ℕ}
    (h : Tracks s r l (.worktree repoId worktreeId reconciles variableName remaining result
      (.searching usedPorts search)))
    (hfresh : s.Fresh r l port (.worktree repoId worktreeId reconciles variableName remaining
      result (.searching usedPorts search)))
    (hport : ∀ o ∈ s.list, (s.objects o).port ∈ usedPorts → (s.objects o).port ≠ port) :
    s.Clear port (.worktree repoId worktreeId reconciles variableName remaining result
      (.searching usedPorts search)) := by
  obtain ⟨hkeys, hused, -⟩ := h
  intro a ha
  obtain ⟨o, ho, rfl⟩ := mem_assignments.mp ha
  by_cases hchanged : o ∉ r.list ∨ s.objects o ≠ r.objects o
  · exact hfresh o ho hchanged
  · rw [not_or, not_not, not_not] at hchanged
    have hread : s.objects o ∈ r.assignments :=
      mem_assignments.mpr ⟨o, hchanged.1, hchanged.2.symm⟩
    refine ⟨hkeys _ hread, hport o ho ?_⟩
    rw [hused]
    exact mem_map_of_mem hread

/-- **Reassignments check** what was verified, so only what else is in the list, or changed since,
    can stand against them. -/
theorem clear_of_fresh_reassigning {o port : ℕ} {remaining verified usedPorts : List ℕ}
    {search : Search} (h : Tracks s r l (.reassigning o remaining verified usedPorts search))
    (hfresh : s.Fresh r l port (.reassigning o remaining verified usedPorts search))
    (hport : ∀ o' ∈ s.list, o' ≠ o → (s.objects o').port ∈ usedPorts →
      (s.objects o').port ≠ port) :
    s.Clear port (.reassigning o remaining verified usedPorts search) := by
  obtain ⟨hperm, hused, -⟩ := h
  obtain ⟨hothers, hobtained, hlast⟩ := hfresh
  refine ⟨fun o' ho' hne => ?_, hobtained, ?_⟩
  · by_cases hchanged : o' ∉ verified ∨ s.objects o' ≠ r.objects o'
    · exact hothers o' ho' hne hchanged
    · rw [not_or, not_not, not_not] at hchanged
      refine hport o' ho' hne ?_
      rw [hused, hchanged.2]
      exact mem_map.mpr ⟨o', hchanged.1, rfl⟩
  · rintro rfl
    exact hperm.trans (hlast rfl)

theorem ne_of_avoids {usedPorts : List ℕ} {port p : ℕ}
    (h : (Search.probing port).Avoids usedPorts) (hp : p ∈ usedPorts) : p ≠ port :=
  fun heq => h (heq ▸ hp)

end Tracking

theorem call?_eq_some (h : s.call? id = some call) : call ∈ s.calls ∧ call.id = id :=
  ⟨mem_of_find?_eq_some h, by simpa using find?_some h⟩

/-- What a run keeps. -/
structure Watched.Inv (w : Watched) : Prop where
  sound : Sound w.gone w.now
  tracked : Tracked w.now w.read w.walked

/-! ## Initialization -/

theorem sound_initializeAllocator (h : Sound gone s) (hcurrent : s.current < s.nextArray) :
    Sound gone (s.initializeAllocator skip) := by
  unfold Allocator.initializeAllocator
  split
  · exact h
  · have hrestores : s.Restores (s.verifyFrom skip s.current 0 s.list [] []) := by
      -- a first loop that skips every entry puts the list itself in place
      intro verified hverified
      have htracks : (s.verifyFrom skip s.current 0 s.list [] []).Tracks s s.list :=
        tracks_verifyFrom hcurrent rfl (.refl [])
      rwa [hverified] at htracks
    obtain ⟨hwritten, hsilent⟩ := h.write hrestores (silent_verifyFrom ..)
    exact hwritten.enter (covers_nil _ hsilent)

theorem tracked_initialize {w : Watched} (h : Tracked w.now w.read w.walked) :
    Tracked (w.step skip .initializeAllocator).now (w.step skip .initializeAllocator).read
      (w.step skip .initializeAllocator).walked := by
  simp only [Watched.step, Allocator.reads, Allocator.walks, Option.elim_some]
  generalize hnow : w.now.step skip .initializeAllocator = now
  change w.now.initializeAllocator skip = now at hnow
  unfold Allocator.initializeAllocator at hnow
  split at hnow
  · subst hnow
    exact h.update_next _ _
  · have htracks : (w.now.verifyFrom skip w.now.current 0 w.now.list [] []).Tracks w.now
        w.now.list := tracks_verifyFrom h.current rfl (.refl [])
    have hnext : (w.now.write (w.now.verifyFrom skip w.now.current 0 w.now.list [] [])).1.nextCall =
        w.now.nextCall := by
      generalize w.now.verifyFrom skip w.now.current 0 w.now.list [] [] = progress
      cases progress <;> rfl
    rw [← hnext, ← hnow]
    exact (h.write _).enter (tracks_write htracks rfl rfl)

/-! ## Answers -/

theorem sound_portFound (h : Sound gone s) (hcall : call ∈ s.calls) {port : ℕ}
    (hclear : s.Clear port call.state) : Sound gone (s.portFound call port) := by
  unfold Allocator.portFound
  split
  · rename_i repoId worktreeId reconciles variableName remaining result lookup hstate
    rw [hstate] at hclear
    refine (h.push (a := ⟨repoId, worktreeId, variableName, port⟩) hclear).suspend
      (fun x hx => ?_) call.id
    rcases mem_append.mp hx with hx | hx
    · refine .inl (obtained_of_call (show call ∈ (s.push _).calls from hcall) ?_)
      rw [hstate]
      cases lookup with
      | searching => exact hx
      | resolved => exact mem_append_left _ hx
    · rw [mem_singleton.mp hx]
      exact .inr (mem_assignments_push s _)
  · rename_i o remaining verified usedPorts search hstate
    rw [hstate] at hclear
    obtain ⟨hport, hobtained, hlast⟩ := hclear
    have hrestores : (s.setPort o port).Restores
        ((s.setPort o port).reassignFrom remaining (verified ++ [o])) := by
      -- the array is put in place with the last reassignment
      intro array harray
      cases remaining with
      | nil =>
        obtain rfl := Progress.assigns.inj harray
        exact hlast rfl
      | cons => cases harray
    obtain ⟨hwritten, hsilent⟩ :=
      (h.setPort hport hobtained).write hrestores (silent_reassignFrom _ _)
    exact hwritten.suspend (covers_nil _ hsilent) call.id
  · exact h

theorem sound_probed {w : Watched} (h : w.Inv) (hcall : w.now.call? id = some call)
    {available : Bool} (hfresh : FreshWrite skip w (.probed id available)) :
    Sound w.gone (w.now.probed skip call available) := by
  obtain ⟨hmem, hid⟩ := call?_eq_some hcall
  have hguard := hfresh call hcall
  have htracks := h.tracked.calls call hmem
  rw [hid] at htracks
  unfold Allocator.probed
  split
  · rename_i hstate
    rw [hstate] at hguard htracks
    split
    · rename_i havailable
      refine sound_portFound h.sound hmem (hstate ▸ ?_)
      exact clear_of_fresh_worktree htracks (hguard havailable)
        fun o _ hused => ne_of_avoids htracks.2.2 hused
    · refine h.sound.suspend (fun x hx => .inl (obtained_of_call hmem ?_)) call.id
      rw [hstate]
      exact hx
  · rename_i hstate
    rw [hstate] at hguard htracks
    split
    · rename_i havailable
      refine sound_portFound h.sound hmem (hstate ▸ ?_)
      exact clear_of_fresh_reassigning htracks (hguard havailable)
        fun o _ _ hused => ne_of_avoids htracks.2.2 hused
    · exact h.sound.suspend (covers_nil _ rfl) call.id
  · rename_i array index o verified toReassign hstate
    rw [hstate] at hguard htracks
    have hrestores : w.now.Restores
        (w.now.verified skip array index o verified toReassign available) := fun put hput => by
      have hverified : (Progress.assigns put).Tracks w.now (w.now.arrays array) :=
        hput ▸ tracks_verified htracks available
      exact hverified.trans (hguard ⟨put, hput⟩)
    obtain ⟨hwritten, hsilent⟩ := h.sound.write hrestores (silent_verified ..)
    exact hwritten.suspend (covers_nil _ hsilent) call.id
  · exact h.sound

theorem sound_picked {w : Watched} (h : w.Inv) {port : ℕ} (hcall : w.now.call? id = some call)
    (hfresh : FreshWrite skip w (.picked id port)) : Sound w.gone (w.now.picked call port) := by
  obtain ⟨hmem, hid⟩ := call?_eq_some hcall
  have hguard := hfresh call hcall
  have htracks := h.tracked.calls call hmem
  rw [hid] at htracks
  unfold Allocator.picked
  split
  · rename_i hstate
    rw [hstate] at hguard htracks
    refine sound_portFound h.sound hmem (hstate ▸ ?_)
    exact clear_of_fresh_worktree htracks hguard.1 fun o ho _ => hguard.2 o ho
  · rename_i hstate
    rw [hstate] at hguard htracks
    refine sound_portFound h.sound hmem (hstate ▸ ?_)
    exact clear_of_fresh_reassigning htracks hguard.1 fun o ho hne _ => hguard.2 o ho hne
  · exact h.sound

theorem sound_resumed (h : Sound gone s) (hcall : call ∈ s.calls) :
    Sound gone (s.resumed call) := by
  unfold Allocator.resumed
  split
  · rename_i repoId worktreeId reconciles variableName remaining result obtained hstate
    have hresult : s.Covers (setResult result obtained) := by
      intro x hx
      refine .inl (obtained_of_call hcall ?_)
      rw [hstate]
      rcases mem_setResult hx with hx | rfl
      · exact mem_append_left _ hx
      · exact mem_append_right _ (mem_singleton_self _)
    dsimp only
    split
    · rename_i state hnext
      exact h.suspend (covers_nextVariable hresult hnext) call.id
    · -- the call leaves with what it has obtained
      refine h.of_obtained rfl rfl rfl fun x hx => ?_
      rcases mem_obtained_reply hx with hx | hx
      · exact .inl (mem_obtained_leave hx)
      · exact hresult x hx
  · exact h.of_obtained rfl rfl rfl fun x hx => .inl (mem_obtained_leave hx)
  · exact h

/-! ## Reads along a step -/

section Reads

variable {read : ℕ → Allocator} {walked : ℕ → List ℕ} {r : Allocator}

/-- A call that waits for another answer, or has none to wait for, goes by what it read. -/
theorem Tracked.suspend_same (h : Tracked s read walked)
    (hstate : Tracks s (read id) (walked id) state) : Tracked (s.suspend id state) read walked := by
  simpa only [update_eq_self] using h.suspend hstate id

/-- Behind a write of initialization its call goes by what was written. -/
theorem Tracked.suspend_write (h : Tracked s read walked) {progress : Progress} {l : List ℕ}
    (htracks : progress.Tracks s l) (id : ℕ) :
    Tracked ((s.write progress).1.suspend id (s.write progress).2)
      (update read id ((s.write progress).1.suspend id (s.write progress).2))
      (update walked id l) := by
  refine (h.write progress).suspend (tracks_write htracks ?_ ?_) id <;> rfl

theorem Tracked.enterWorktree (h : Tracked s read walked) (repoId worktreeId : String)
    (reconciles : Bool) (result : List Obtained) (variableNames : List String) :
    Tracked (s.enterWorktree repoId worktreeId reconciles result variableNames)
      (update read s.nextCall
        (s.enterWorktree repoId worktreeId reconciles result variableNames)) walked := by
  generalize hs' : s.enterWorktree repoId worktreeId reconciles result variableNames = s'
  unfold Allocator.enterWorktree at hs'
  split at hs'
  · rename_i state hstate
    subst hs'
    have hread : Tracks s (s.enter state) (walked s.nextCall) state :=
      (tracks_nextVariable hstate).of_read rfl rfl
    simpa only [update_eq_self] using h.enter hread
  · subst hs'
    -- a call that runs through is not under way
    have hnext := h.update_next { s.reply s.nextCall result with nextCall := s.nextCall + 1 }
      (walked s.nextCall)
    rw [update_eq_self] at hnext
    exact hnext.of_calls_eq h.current (.of_arrays rfl rfl) (Nat.le_succ _) rfl

theorem tracked_portFound_worktree (h : Tracked s read walked) {repoId worktreeId : String}
    {reconciles : Bool} {variableName : String} {remaining : List String} {lookup : Lookup}
    (hstate : call.state =
      .worktree repoId worktreeId reconciles variableName remaining result lookup) (port : ℕ) :
    Tracked (s.portFound call port) read walked := by
  unfold Allocator.portFound
  rw [hstate]
  have hpush : Tracked (s.push ⟨repoId, worktreeId, variableName, port⟩) read walked :=
    h.of_calls_eq h.current (extends_push s _) le_rfl rfl
  exact hpush.suspend_same trivial

/-- The next assignment in hand is searched a port for, or the array is put in place. -/
theorem tracked_portFound_reassigning (h : Tracked s read walked) {o : ℕ}
    {remaining verified usedPorts : List ℕ} {search : Search}
    (hstate : call.state = .reassigning o remaining verified usedPorts search)
    (hperm : (verified ++ o :: remaining).Perm (walked call.id)) (port : ℕ) :
    Tracked (s.portFound call port) (update read call.id (s.portFound call port)) walked := by
  have hset : Tracked (s.setPort o port) read walked :=
    h.of_calls_eq h.current (.of_arrays rfl rfl) le_rfl rfl
  have htracks : ((s.setPort o port).reassignFrom remaining (verified ++ [o])).Tracks
      (s.setPort o port) (walked call.id) :=
    tracks_reassignFrom (by rwa [append_assoc])
  unfold Allocator.portFound
  rw [hstate]
  simpa only [update_eq_self] using hset.suspend_write htracks call.id

theorem tracked_probed (h : Tracked s read walked) (hcall : s.call? id = some call)
    (available : Bool) :
    Tracked (s.probed skip call available)
      ((s.reads (.probed id available)).elim read fun id =>
        update read id (s.probed skip call available))
      ((s.walks (.probed id available)).elim walked fun (id, array) =>
        update walked id (s.arrays array)) := by
  obtain ⟨hmem, rfl⟩ := call?_eq_some hcall
  have htracks := h.calls call hmem
  simp only [Allocator.reads, Allocator.walks, hcall, Option.bind_some]
  cases hstate : call.state with
  | worktree repoId worktreeId reconciles variableName remaining result lookup =>
    rw [hstate] at htracks
    simp only [Allocator.probed, hstate]
    cases lookup with
    | resolved => exact h
    | searching usedPorts search =>
      cases search with
      | asking => exact h
      | probing port =>
        cases available with
        | true => exact tracked_portFound_worktree h hstate port
        | false => exact h.suspend_same ⟨htracks.1, htracks.2.1, avoids_findAvailablePort _ _⟩
  | reassigning o remaining verified usedPorts search =>
    rw [hstate] at htracks
    simp only [Allocator.probed, hstate]
    cases search with
    | asking => exact h
    | probing port =>
      cases available with
      | true => exact tracked_portFound_reassigning h hstate htracks.1 port
      | false => exact h.suspend_same ⟨htracks.1, htracks.2.1, avoids_findAvailablePort _ _⟩
  | verifying array index o verified toReassign =>
    rw [hstate] at htracks
    simp only [Allocator.probed, hstate]
    exact h.suspend_write (tracks_verified htracks available) call.id
  | verified =>
    simp only [Allocator.probed, hstate]
    exact h

theorem tracked_picked (h : Tracked s read walked) (hcall : s.call? id = some call) (port : ℕ) :
    Tracked (s.picked call port)
      ((s.reads (.picked id port)).elim read fun id => update read id (s.picked call port))
      walked := by
  obtain ⟨hmem, rfl⟩ := call?_eq_some hcall
  have htracks := h.calls call hmem
  simp only [Allocator.reads, hcall, Option.bind_some]
  cases hstate : call.state with
  | worktree repoId worktreeId reconciles variableName remaining result lookup =>
    simp only [Allocator.picked, hstate]
    cases lookup with
    | resolved => exact h
    | searching usedPorts search =>
      cases search with
      | probing => exact h
      | asking => exact tracked_portFound_worktree h hstate port
  | reassigning o remaining verified usedPorts search =>
    rw [hstate] at htracks
    simp only [Allocator.picked, hstate]
    cases search with
    | probing => exact h
    | asking => exact tracked_portFound_reassigning h hstate htracks.1 port
  | verifying | verified =>
    simp only [Allocator.picked, hstate]
    exact h

theorem tracked_resumed (h : Tracked s read walked) (hcall : s.call? id = some call) :
    Tracked (s.resumed call)
      ((s.reads (.resumed id)).elim read fun id => update read id (s.resumed call)) walked := by
  obtain ⟨hmem, rfl⟩ := call?_eq_some hcall
  simp only [Allocator.reads, hcall, Option.bind_some]
  cases hstate : call.state with
  | worktree repoId worktreeId reconciles variableName remaining result lookup =>
    simp only [Allocator.resumed, hstate]
    cases lookup with
    | searching => exact h
    | resolved obtained =>
      simp only [Option.elim_some]
      cases hnext : s.nextVariable repoId worktreeId reconciles (setResult result obtained)
          remaining with
      | some state =>
        have hread : Tracks s (s.suspend call.id state) (walked call.id) state :=
          (tracks_nextVariable hnext).of_read rfl rfl
        simpa only [update_eq_self] using h.suspend hread call.id
      | none =>
        have hleave := h.leave call.id ((s.leave call.id).reply call.id (setResult result obtained))
          (walked call.id)
        rw [update_eq_self] at hleave
        exact hleave.of_calls_eq h.current (.of_arrays rfl rfl) le_rfl rfl
  | verified =>
    simp only [Allocator.resumed, hstate]
    have hleave := h.leave call.id (read call.id) (walked call.id)
    rw [update_eq_self, update_eq_self] at hleave
    exact hleave.of_calls_eq h.current (.of_arrays rfl rfl) le_rfl rfl
  | verifying | reassigning =>
    simp only [Allocator.resumed, hstate]
    exact h

end Reads

section Steps

variable {w : Watched}

/-- **One section**: an operation whose write is not stale keeps the allocator sound. -/
theorem sound_step (h : w.Inv) {op : Op} (hfresh : FreshWrite skip w op) :
    Sound (w.step skip op).gone (w.step skip op).now := by
  have hkept (hremoves : op.removes = fun _ => false)
      (hsound : Sound w.gone (w.now.step skip op)) :
      Sound (w.step skip op).gone (w.step skip op).now := by
    have hgone : (w.step skip op).gone = w.gone := by
      simp [Watched.step, hremoves]
    rw [hgone]
    exact hsound
  cases op with
  | initializeAllocator => exact hkept rfl (sound_initializeAllocator h.sound h.tracked.current)
  | allocatePortsForWorktree repoId worktreeId variableNames =>
    exact hkept rfl (h.sound.enterWorktree (covers_nil _ rfl) _ _ _ _)
  | reconcilePortsForWorktree repoId worktreeId variableNames preserveVariableNames =>
    exact sound_reconcile h.sound _ _ _ _
  | releasePortsForWorktree repoId worktreeId
  | releasePortForWorktreeVariable repoId worktreeId variableName =>
    exact h.sound.filterOut _
  | probed id available =>
    apply hkept rfl
    simp only [Allocator.step]
    cases hcall : w.now.call? id with
    | none => exact h.sound
    | some call => exact sound_probed h hcall hfresh
  | picked id port =>
    apply hkept rfl
    simp only [Allocator.step]
    cases hcall : w.now.call? id with
    | none => exact h.sound
    | some call => exact sound_picked h hcall hfresh
  | resumed id =>
    apply hkept rfl
    simp only [Allocator.step]
    cases hcall : w.now.call? id with
    | none => exact h.sound
    | some call => exact sound_resumed h.sound (call?_eq_some hcall).1

/-- **One section**: every call goes by what it read, in whatever order the sections come. -/
theorem tracked_step (h : Tracked w.now w.read w.walked) (op : Op) :
    Tracked (w.step skip op).now (w.step skip op).read (w.step skip op).walked := by
  cases op with
  | initializeAllocator => exact tracked_initialize h
  | allocatePortsForWorktree repoId worktreeId variableNames =>
    exact h.enterWorktree repoId worktreeId false [] (normalizePortVariables variableNames)
  | reconcilePortsForWorktree repoId worktreeId variableNames preserveVariableNames =>
    exact (h.filterOut _).enterWorktree repoId worktreeId true _
      (normalizePortVariables variableNames)
  | releasePortsForWorktree repoId worktreeId =>
    exact h.filterOut fun a => decide (a.repoId = repoId ∧ a.worktreeId = worktreeId)
  | releasePortForWorktreeVariable repoId worktreeId variableName =>
    exact h.filterOut fun a =>
      decide (a.repoId = repoId ∧ a.worktreeId = worktreeId ∧ a.variableName = variableName)
  | probed id available =>
    cases hcall : w.now.call? id with
    | none => simpa [Watched.step, Allocator.step, Allocator.reads, Allocator.walks, hcall] using h
    | some call =>
      simpa [Watched.step, Allocator.step, hcall] using tracked_probed h hcall available
  | picked id port =>
    cases hcall : w.now.call? id with
    | none => simpa [Watched.step, Allocator.step, Allocator.reads, Allocator.walks, hcall] using h
    | some call =>
      simpa [Watched.step, Allocator.step, Allocator.walks, hcall] using tracked_picked h hcall port
  | resumed id =>
    cases hcall : w.now.call? id with
    | none => simpa [Watched.step, Allocator.step, Allocator.reads, Allocator.walks, hcall] using h
    | some call =>
      simpa [Watched.step, Allocator.step, Allocator.walks, hcall] using tracked_resumed h hcall

end Steps

/-! ## Runs -/

/-- What an allocator promises its callers, where the entries `gone` were removed. -/
structure AllocatorOk (gone : List ℕ) (s : Allocator) : Prop where
  ports : (s.assignments.map (·.port)).Nodup
  keys : (s.assignments.map (·.key)).Nodup
  /-- What a call returned is in the list, unless it was removed since. -/
  kept : ∀ call ∈ s.returned, ∀ x ∈ call.result, x.removed = false →
    x.toPortAssignment ∈ s.assignments
  /-- What was removed is not in the list. -/
  gone : ∀ o ∈ gone, o ∉ s.list

theorem Sound.allocatorOk (h : Sound gone s) : AllocatorOk gone s where
  ports := by
    rw [Allocator.assignments, map_map]
    exact h.ports
  keys := by
    rw [Allocator.assignments, map_map]
    exact h.keys
  kept := fun call hcall x hx => h.kept x (mem_obtained.mpr (.inr ⟨call, hcall, hx⟩))
  gone := h.gone

abbrev Watched.Ok (w : Watched) : Prop := AllocatorOk w.gone w.now

theorem assignments_start (assignments : List PortAssignment) :
    (Allocator.start assignments).assignments = assignments := by
  apply ext_getElem
  · simp [Allocator.assignments, Allocator.list, Allocator.start]
  · intro i hi hi'
    simp [Allocator.assignments, Allocator.list, Allocator.start, hi']

theorem sound_start {assignments : List PortAssignment}
    (hports : (assignments.map (·.port)).Nodup) (hkeys : (assignments.map (·.key)).Nodup) :
    Sound [] (Allocator.start assignments) where
  below := fun o ho => mem_range.mp ho
  goneBelow := fun o ho => (not_mem_nil ho).elim
  ports := by
    rw [← assignments_start assignments, Allocator.assignments, map_map] at hports
    exact hports
  keys := by
    rw [← assignments_start assignments, Allocator.assignments, map_map] at hkeys
    exact hkeys
  kept := fun x hx => (not_mem_nil hx).elim
  gone := fun o ho => (not_mem_nil ho).elim

/-- A file without duplicate ports and keys starts well. -/
theorem inv_start {assignments : List PortAssignment}
    (hports : (assignments.map (·.port)).Nodup) (hkeys : (assignments.map (·.key)).Nodup) :
    (Watched.start assignments).Inv :=
  ⟨sound_start hports hkeys,
    ⟨fun _ hcall => (not_mem_nil hcall).elim, Nat.zero_lt_one,
      fun _ hcall => (not_mem_nil hcall).elim⟩⟩

/-- **Allocations**: whatever the interleaving of the calls, ports and keys stay distinct,
    nothing a call returned is lost and nothing released comes back, as long as what changed
    since a call read the list does not stand against its write. -/
theorem allocator_of_run {skip : List String} {assignments : List PortAssignment}
    (hports : (assignments.map (·.port)).Nodup) (hkeys : (assignments.map (·.key)).Nodup)
    {ops : List Op}
    (hops : Guarded (Watched.step skip) (FreshWrite skip) (.start assignments) ops) :
    (exec (Watched.step skip) (.start assignments) ops).Ok := by
  have hstep (w : Watched) (op : Op) (h : w.Inv) (hfresh : FreshWrite skip w op) :
      (w.step skip op).Inv := ⟨sound_step h hfresh, tracked_step h.tracked op⟩
  exact (exec_invariant_of_guarded hstep (inv_start hports hkeys) hops).sound.allocatorOk

/-- Two allocations in turns, and a release of the first behind them. -/
theorem allocator_of_run_turns : (exec (Watched.step []) (.start [])
    [.allocatePortsForWorktree "repo" "tree" ["PORT"],
      .allocatePortsForWorktree "repo" "other" ["PORT"], .probed 1 false, .probed 0 true,
      .probed 1 true, .resumed 0, .resumed 1, .releasePortsForWorktree "repo" "tree"]).Ok := by
  refine @allocator_of_run [] [] nodup_nil nodup_nil _ ?_
  refine ⟨trivial, trivial, ?_, ?_, ?_, trivial, trivial, trivial, trivial⟩ <;> intro call hcall <;>
    obtain rfl := Option.some.inj hcall
  · exact nofun
  · exact fun _ o ho => (not_mem_nil ho).elim
  · -- what the first call has pushed meanwhile has another key and another port
    intro _ o ho _
    obtain rfl := mem_singleton.mp ho
    exact ⟨by decide, by decide⟩

def Allocator.probes (s : Allocator) : CallState → Option ℕ
  | .worktree _ _ _ _ _ _ (.searching _ (.probing port)) => some port
  | .reassigning _ _ _ _ (.probing port) => some port
  | .verifying _ _ o _ _ => some (s.objects o).port
  | _ => none

/-- The operating system does not grant a port to a probe while another probe of it is under
    way. -/
def ProbesExclusive (w : Watched) : Op → Prop
  | .probed id true => ∀ call ∈ w.now.calls, call.id = id → ∀ other ∈ w.now.calls, other.id ≠ id →
    w.now.probes call.state ≠ none → w.now.probes other.state ≠ w.now.probes call.state
  | _ => True

instance (w : Watched) (op : Op) : Decidable (ProbesExclusive w op) :=
  match op with
  | .probed id true =>
    inferInstanceAs (Decidable (∀ call ∈ w.now.calls, call.id = id → ∀ other ∈ w.now.calls,
      other.id ≠ id → w.now.probes call.state ≠ none →
        w.now.probes other.state ≠ w.now.probes call.state))
  | .probed _ false | .picked .. | .resumed _ | .initializeAllocator
  | .allocatePortsForWorktree .. | .reconcilePortsForWorktree .. | .releasePortsForWorktree ..
  | .releasePortForWorktreeVariable .. => .isTrue trivial

/-- Two allocations of one variable both find it missing. -/
theorem key_twice_of_overlapping_allocations :
    ¬ ∀ (skip : List String) (assignments : List PortAssignment) (ops : List Op),
      (assignments.map (·.port)).Nodup → (assignments.map (·.key)).Nodup →
      Guarded (Watched.step skip) ProbesExclusive (.start assignments) ops →
      (exec (Watched.step skip) (.start assignments) ops).Ok := by
  intro h
  have hkeys := (h [] []
    [.allocatePortsForWorktree "repo" "tree" ["PORT"],
      .allocatePortsForWorktree "repo" "tree" ["PORT"], .probed 1 false, .probed 0 true,
      .probed 1 true]
    nodup_nil nodup_nil ⟨trivial, trivial, trivial, by decide, by decide, trivial⟩).keys
  exact absurd hkeys (by decide)

end RelayIde.Ports
