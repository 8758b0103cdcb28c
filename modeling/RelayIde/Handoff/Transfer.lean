import RelayIde.Library.FileTree

/-!
# Applying a Handoff

A handoff is applied to the destination in three steps: the tracked patch, then the approved
untracked files one after another, each with the directories it needs (`server/handoff-transfer.ts`).
When a step fails, the steps before it are rolled back.

- `restored_iff_leavesNothing` — when a failed apply leaves the destination as it was

The grants, the plan, the source snapshot and the clean checkout are looked at before anything is
written; they are left out, with the audit events of the run.
-/

namespace RelayIde.Handoff

open RelayIde.Library List

/-- The bytes of a file. -/
abbrev Buffer := List UInt8

abbrev Destination := FileTree Buffer

/-! ## Steps -/

structure PreparedUntrackedFile where
  path : FilePath
  data : Buffer

inductive StepFault where
  | none
  /-- `mkdir` fails after it made so many of the missing directories. -/
  | mkdir (made : ℕ)
  /-- `writeFile` fails, and leaves part of the file if it had opened it. -/
  | write (left : Option Buffer)

structure FileStep where
  file : PreparedUntrackedFile
  fault : StepFault

/-- `git apply` of one tracked patch, and `git apply --reverse`. -/
structure GitApply where
  /-- `git apply --check`. -/
  check : Destination → Bool
  apply : Destination → Option Destination
  reverse : Destination → Option Destination

/-- Which steps of a rollback fail. -/
structure RollbackFaults where
  rm : FilePath → Bool
  rmdir : FilePath → Bool

/-- What was done to the destination so far. -/
structure Applied where
  tree : Destination
  trackedPatchApplied : Bool := false
  writtenUntrackedFiles : List PreparedUntrackedFile := []
  createdDirs : List FilePath := []

/-- `missingParentDirs`: from the file's directory up. -/
def missingParentDirs (tree : Destination) (path : FilePath) : List FilePath :=
  (tree.missing path).reverse

/-- `mkdir(…, { recursive: true })` made the directories of a file. -/
def Applied.madeDirs (s : Applied) (file : PreparedUntrackedFile) : Applied :=
  { s with
    tree := s.tree.mkdirAll (s.tree.missing file.path)
    createdDirs := s.createdDirs ++ missingParentDirs s.tree file.path }

/-- The body of the loop over the untracked files, and whether it got through. -/
def applyFile (s : Applied) (step : FileStep) : Applied × Bool :=
  let file := step.file
  if s.tree.blocked file.path then (s, false)
  else
    match step.fault with
    | .mkdir made =>
      ({ s with tree := s.tree.mkdirAll ((s.tree.missing file.path).take made) }, false)
    | .write left =>
      let s := s.madeDirs file
      -- `wx`: a file that is there is not opened
      if (s.tree.node file.path).isSome then (s, false)
      else
        match left with
        | none => (s, false)
        | some data => ({ s with tree := s.tree.place file.path (.file data) }, false)
    | .none =>
      let s := s.madeDirs file
      if (s.tree.node file.path).isSome then (s, false)
      else
        ({ s with
            tree := s.tree.place file.path (.file file.data)
            writtenUntrackedFiles := s.writtenUntrackedFiles ++ [file] }, true)

/-- The files one after another, up to the first that fails. -/
def applyFiles (s : Applied) : List FileStep → Applied × Bool
  | [] => (s, true)
  | step :: steps =>
    let applied := applyFile s step
    if applied.2 then applyFiles applied.1 steps else applied

/-! ## Rollback -/

inductive RollbackError where
  | remove (path : FilePath)
  | reverseTrackedPatch

/-- `rm(file.destinationPath, { force: true })`. -/
def removeFile (faults : RollbackFaults) (acc : Destination × List RollbackError)
    (file : PreparedUntrackedFile) : Destination × List RollbackError :=
  if faults.rm file.path || acc.1.isDir file.path then (acc.1, acc.2 ++ [.remove file.path])
  else (acc.1.rm file.path, acc.2)

def removeWritten (faults : RollbackFaults) (tree : Destination)
    (files : List PreparedUntrackedFile) : Destination × List RollbackError :=
  files.reverse.foldl (removeFile faults) (tree, [])

/-- `git apply --reverse`, if the patch was applied. -/
def reverseTrackedPatch (patch : Option GitApply) (applied : Bool) (tree : Destination) :
    Destination × List RollbackError :=
  match patch, applied with
  | some git, true =>
    match git.reverse tree with
    | some restored => (restored, [])
    | none => (tree, [.reverseTrackedPatch])
  | _, _ => (tree, [])

/-- `rmdir` of each created directory, the newest first; its errors are swallowed. -/
def removeCreatedDirs (faults : RollbackFaults) (tree : Destination) (dirs : List FilePath) :
    Destination :=
  dirs.reverse.foldl (fun tree dir => if faults.rmdir dir then tree else tree.rmdir dir) tree

/-- Files, patch and directories are undone in this order. -/
def rollbackDestinationApply (patch : Option GitApply) (faults : RollbackFaults) (s : Applied) :
    Destination × List RollbackError :=
  let removed := removeWritten faults s.tree s.writtenUntrackedFiles
  let reversed := reverseTrackedPatch patch s.trackedPatchApplied removed.1
  (removeCreatedDirs faults reversed.1 s.createdDirs, removed.2 ++ reversed.2)

/-! ## The transfer -/

structure HandoffTransferApplyInput where
  destination : Destination
  /-- The tracked patch, unless it is empty. -/
  patch : Option GitApply
  /-- The approved untracked files, in the order of their paths. -/
  untracked : List FileStep
  rollback : RollbackFaults

inductive HandoffConflictCode where
  | untrackedCollision
  | destinationConflict

inductive HandoffRunState where
  | snapshotting
  | transferring
  | applying
  | complete

inductive HandoffTransferApplyResult where
  | success (destination : Destination)
  | failure (phase : HandoffRunState) (code : HandoffConflictCode)
      (rollbackErrors : List RollbackError) (destination : Destination)

/-- The steps of the applying phase. -/
def applyDestination (input : HandoffTransferApplyInput) : Applied × Bool :=
  match input.patch with
  | none => applyFiles { tree := input.destination } input.untracked
  | some git =>
    match git.apply input.destination with
    | none => ({ tree := input.destination }, false)
    | some patched => applyFiles { tree := patched, trackedPatchApplied := true } input.untracked

def applyHandoffTransfer (input : HandoffTransferApplyInput) : HandoffTransferApplyResult :=
  -- `prepareApprovedUntrackedFiles`: nothing may stand where a file goes
  if input.untracked.any fun step => (input.destination.node step.file.path).isSome then
    .failure .snapshotting .untrackedCollision [] input.destination
  else if input.patch.any fun git => !git.check input.destination then
    .failure .transferring .destinationConflict [] input.destination
  else
    let applied := applyDestination input
    if applied.2 then .success applied.1.tree
    else
      let rolledBack := rollbackDestinationApply input.patch input.rollback applied.1
      .failure .applying .destinationConflict rolledBack.2 rolledBack.1

/-! ## What an apply laid down -/

structure Laid (patched : Destination) (s : Applied) (left : FilePath → Prop) : Prop where
  base : ∀ p, patched.node p ≠ none → s.tree.node p = patched.node p
  extra : ∀ p, patched.node p = none → (s.tree.node p ≠ none ↔
    p ∈ s.createdDirs ∨ (∃ f ∈ s.writtenUntrackedFiles, f.path = p) ∨ left p)
  dirs : ∀ d ∈ s.createdDirs, patched.node d = none ∧ s.tree.node d = some .dir
  files : ∀ f ∈ s.writtenUntrackedFiles,
    patched.node f.path = none ∧ s.tree.node f.path = some (.file f.data)
  left_new : ∀ p, left p →
    patched.node p = none ∧ p ∉ s.createdDirs ∧ ∀ f ∈ s.writtenUntrackedFiles, f.path ≠ p
  dirs_nodup : s.createdDirs.Nodup
  files_nodup : (s.writtenUntrackedFiles.map (·.path)).Nodup

/-- Nothing was left by a failing step. -/
abbrev Tidy (patched : Destination) (s : Applied) : Prop :=
  Laid patched s fun _ => False

theorem tidy_init (patched : Destination) (applied : Bool) :
    Tidy patched { tree := patched, trackedPatchApplied := applied } where
  base := fun _ _ => rfl
  extra := by
    intro p hnone
    simp [hnone]
  dirs := fun d hd => absurd hd not_mem_nil
  files := fun f hf => absurd hf not_mem_nil
  left_new := fun p hp => hp.elim
  dirs_nodup := nodup_nil
  files_nodup := nodup_nil

variable {s : Applied} {p : FilePath} {file : PreparedUntrackedFile} {faults : RollbackFaults}

variable {patched : Destination}

theorem Laid.fresh {left : FilePath → Prop}
    (h : Laid patched s left) (hp : s.tree.node p = none) :
    patched.node p = none ∧ p ∉ s.createdDirs ∧ (∀ f ∈ s.writtenUntrackedFiles, f.path ≠ p) ∧
      ¬left p := by
  have hpatched : patched.node p = none := by
    by_contra hsome
    exact hsome (h.base p hsome ▸ hp)
  have hextra := (h.extra p hpatched).not.mp (not_not.mpr hp)
  simp only [not_or, not_exists, not_and] at hextra
  exact ⟨hpatched, hextra.1, hextra.2.1, hextra.2.2⟩

theorem Tidy.mkdirAll (h : Tidy patched s)
    {ds : List FilePath} (hds : s.tree.Opens ds) :
    Laid patched { s with tree := s.tree.mkdirAll ds } fun p => p ∈ ds := by
  have hnode := FileTree.node_mkdirAll hds
  have hnew : ∀ d ∈ ds, s.tree.node d = none := by
    intro d hd
    obtain ⟨pre, post, heq⟩ := append_of_mem hd
    exact (hds pre d post heq).1
  have hkeep (p : FilePath) (hp : s.tree.node p ≠ none) :
      (s.tree.mkdirAll ds).node p = s.tree.node p := by
    rw [hnode, if_neg]
    exact fun hmem => hp (hnew p hmem)
  refine ⟨?_, ?_, ?_, ?_, ?_, h.dirs_nodup, h.files_nodup⟩
  · intro p hp
    show (s.tree.mkdirAll ds).node p = _
    rw [hkeep p (h.base p hp ▸ hp), h.base p hp]
  · intro p hp
    show (s.tree.mkdirAll ds).node p ≠ none ↔ _
    rw [hnode]
    by_cases hmem : p ∈ ds
    · simp [hmem]
    · simp only [if_neg hmem, h.extra p hp]
      simp [hmem]
  · intro d hd
    obtain ⟨hpatched, hdir⟩ := h.dirs d hd
    refine ⟨hpatched, ?_⟩
    show (s.tree.mkdirAll ds).node d = _
    rw [hkeep d (by rw [hdir]; exact Option.some_ne_none _), hdir]
  · intro f hf
    obtain ⟨hpatched, hfile⟩ := h.files f hf
    refine ⟨hpatched, ?_⟩
    show (s.tree.mkdirAll ds).node f.path = _
    rw [hkeep f.path (by rw [hfile]; exact Option.some_ne_none _), hfile]
  · intro p hp
    obtain ⟨hpatched, hdirs, hfiles, -⟩ := h.fresh (hnew p hp)
    exact ⟨hpatched, hdirs, hfiles⟩

theorem Tidy.madeDirs (h : Tidy patched s)
    (hopen : s.tree.blocked file.path = false) :
    Tidy patched (s.madeDirs file) := by
  have hlaid := h.mkdirAll (FileTree.opens_missing hopen)
  have hmem (p : FilePath) : p ∈ (s.madeDirs file).createdDirs ↔
      p ∈ s.createdDirs ∨ p ∈ s.tree.missing file.path := by
    simp [Applied.madeDirs, missingParentDirs]
  refine ⟨hlaid.base, ?_, ?_, hlaid.files, fun p hp => hp.elim, ?_, h.files_nodup⟩
  · intro p hp
    rw [hmem]
    have hextra := hlaid.extra p hp
    refine hextra.trans ?_
    simp only [or_false]
    constructor
    · rintro (hdir | hfile | hmissing)
      · exact .inl (.inl hdir)
      · exact .inr hfile
      · exact .inl (.inr hmissing)
    · rintro ((hdir | hmissing) | hfile)
      · exact .inl hdir
      · exact .inr (.inr hmissing)
      · exact .inr (.inl hfile)
  · intro d hd
    rcases (hmem d).mp hd with hd | hd
    · exact hlaid.dirs d hd
    · refine ⟨(hlaid.left_new d hd).1, ?_⟩
      show (s.tree.mkdirAll _).node d = _
      rw [FileTree.node_mkdirAll (FileTree.opens_missing hopen), if_pos hd]
  · show (s.createdDirs ++ missingParentDirs s.tree file.path).Nodup
    rw [nodup_append]
    refine ⟨h.dirs_nodup, ?_, ?_⟩
    · have hsorted : (s.tree.missing file.path).Pairwise fun q q' => q.length < q'.length :=
        (FileTree.pairwise_ancestors file.path).filter _
      have hnodup : (s.tree.missing file.path).Nodup := hsorted.imp fun hlt heq => by
        rw [heq] at hlt
        exact lt_irrefl _ hlt
      exact nodup_reverse.mpr hnodup
    · rintro d hd e he rfl
      exact (hlaid.left_new d (mem_reverse.mp he)).2.1 hd

theorem Tidy.place (h : Tidy patched s) {path : FilePath}
    (hnew : s.tree.node path = none) (hdir : s.tree.node path.dropLast = some .dir)
    (data : Buffer) :
    Laid patched { s with tree := s.tree.place path (.file data) } fun p => p = path := by
  have hnode := FileTree.node_place hnew hdir (.file data)
  have hkeep (p : FilePath) (hp : s.tree.node p ≠ none) :
      (s.tree.place path (.file data)).node p = s.tree.node p := by
    rw [hnode, if_neg]
    rintro rfl
    exact hp hnew
  refine ⟨?_, ?_, ?_, ?_, ?_, h.dirs_nodup, h.files_nodup⟩
  · intro p hp
    show (s.tree.place path _).node p = _
    rw [hkeep p (h.base p hp ▸ hp), h.base p hp]
  · intro p hp
    show (s.tree.place path _).node p ≠ none ↔ _
    rw [hnode]
    by_cases hmem : p = path
    · simp [hmem]
    · simp only [if_neg hmem, h.extra p hp]
      simp [hmem]
  · intro d hd
    obtain ⟨hpatched, hdir⟩ := h.dirs d hd
    refine ⟨hpatched, ?_⟩
    show (s.tree.place path _).node d = _
    rw [hkeep d (by rw [hdir]; exact Option.some_ne_none _), hdir]
  · intro f hf
    obtain ⟨hpatched, hfile⟩ := h.files f hf
    refine ⟨hpatched, ?_⟩
    show (s.tree.place path _).node f.path = _
    rw [hkeep f.path (by rw [hfile]; exact Option.some_ne_none _), hfile]
  · rintro p rfl
    obtain ⟨hpatched, hdirs, hfiles, -⟩ := h.fresh hnew
    exact ⟨hpatched, hdirs, hfiles⟩

theorem Tidy.written (h : Tidy patched s)
    (hnew : s.tree.node file.path = none)
    (hdir : s.tree.node file.path.dropLast = some .dir) :
    Tidy patched { s with
      tree := s.tree.place file.path (.file file.data)
      writtenUntrackedFiles := s.writtenUntrackedFiles ++ [file] } := by
  have hlaid := h.place hnew hdir file.data
  refine ⟨hlaid.base, ?_, hlaid.dirs, ?_, fun p hp => hp.elim, h.dirs_nodup, ?_⟩
  · intro p hp
    refine (hlaid.extra p hp).trans ?_
    simp only [mem_append, mem_singleton, or_false, or_and_right, exists_or, exists_eq_left]
    constructor
    · rintro (hd | hf | rfl)
      · exact .inl hd
      · exact .inr (.inl hf)
      · exact .inr (.inr rfl)
    · rintro (hd | hf | rfl)
      · exact .inl hd
      · exact .inr (.inl hf)
      · exact .inr (.inr rfl)
  · intro f hf
    rcases mem_append.mp hf with hf | hf
    · exact hlaid.files f hf
    · rw [mem_singleton.mp hf]
      refine ⟨(h.fresh hnew).1, ?_⟩
      show (s.tree.place file.path _).node file.path = _
      rw [FileTree.node_place hnew hdir, if_pos rfl]
  · rw [map_append, nodup_append]
    refine ⟨h.files_nodup, nodup_singleton _, ?_⟩
    rintro p hp q hq rfl
    obtain ⟨f, hf, rfl⟩ := mem_map.mp hp
    exact (h.fresh hnew).2.2.1 f hf (mem_singleton.mp hq)

/-! ## What a step leaves behind -/

/-- The directories made for a file and new to the destination lie in a directory that the
    destination had, or in one made for an earlier file. -/
def OneDeep (original : Destination) (s : Applied) (file : PreparedUntrackedFile) : Prop :=
  ∀ d ∈ missingParentDirs s.tree file.path, original.node d = none →
    original.node d.dropLast ≠ none ∨ d.dropLast ∈ s.createdDirs

/-- A step leaves nothing behind that the rollback does not take away. -/
def CleanStep (original : Destination) (s : Applied) (step : FileStep) : Prop :=
  s.tree.blocked step.file.path = true ∨
    match step.fault with
    | .mkdir made =>
      ∀ d ∈ (s.tree.missing step.file.path).take made, original.node d ≠ none
    | .write left =>
      OneDeep original s step.file ∧ (s.tree.node step.file.path ≠ none ∨ left = none)
    | .none => OneDeep original s step.file

instance (original : Destination) (s : Applied) (file : PreparedUntrackedFile) :
    Decidable (OneDeep original s file) :=
  inferInstanceAs (Decidable (∀ d ∈ _, _ → _))

instance (original : Destination) (s : Applied) :
    (step : FileStep) → Decidable (CleanStep original s step)
  | ⟨_, .mkdir _⟩ => inferInstanceAs (Decidable (_ ∨ ∀ d ∈ _, _ ≠ _))
  | ⟨_, .write _⟩ => inferInstanceAs (Decidable (_ ∨ _ ∧ (_ ≠ _ ∨ _ = _)))
  | ⟨_, .none⟩ => inferInstanceAs (Decidable (_ ∨ OneDeep original s _))

def CleanSteps (original : Destination) (s : Applied) : List FileStep → Prop
  | [] => True
  | step :: steps =>
    CleanStep original s step ∧
      ((applyFile s step).2 = true → CleanSteps original (applyFile s step).1 steps)

instance instDecidableCleanSteps (original : Destination) (s : Applied) :
    (steps : List FileStep) → Decidable (CleanSteps original s steps)
  | [] => inferInstanceAs (Decidable True)
  | step :: steps =>
    have := instDecidableCleanSteps original (applyFile s step).1 steps
    inferInstanceAs (Decidable (_ ∧ (_ → _)))

/-- **Nothing is left behind**: each file needs at most one directory that is new, beside those of
    earlier files, and not in a directory that only the patch brought; and the failing step leaves
    nothing that is new. -/
def LeavesNothing (input : HandoffTransferApplyInput) : Prop :=
  match input.patch with
  | none => CleanSteps input.destination { tree := input.destination } input.untracked
  | some git =>
    ∀ patched ∈ git.apply input.destination,
      CleanSteps input.destination { tree := patched, trackedPatchApplied := true } input.untracked

/-- The order of a list of directories: each new one after the one it lies in. -/
def Settled (original : Destination) (dirs : List FilePath) : Prop :=
  ∀ pre d post, dirs = pre ++ d :: post → original.node d = none →
    original.node d.dropLast ≠ none ∨ d.dropLast ∈ pre

theorem settled_nil (original : Destination) : Settled original [] := by
  intro pre d post h
  cases pre <;> cases h

/-- The directories of one more file: from the deepest up, so that none comes after its parent. -/
theorem settled_madeDirs {original : Destination} :
    Settled original (s.madeDirs file).createdDirs ↔
      Settled original s.createdDirs ∧ OneDeep original s file := by
  have hdeep : (missingParentDirs s.tree file.path).Pairwise fun q q' => q'.length < q.length := by
    unfold missingParentDirs
    rw [pairwise_reverse]
    exact (FileTree.pairwise_ancestors file.path).filter _
  constructor
  · intro h
    refine ⟨?_, ?_⟩
    · intro pre d post heq hnew
      apply h pre d (post ++ missingParentDirs s.tree file.path) _ hnew
      simp [Applied.madeDirs, heq]
    · intro d hd hnew
      obtain ⟨deeper, rest, heq⟩ := append_of_mem hd
      have hsettled := h (s.createdDirs ++ deeper) d rest (by simp [Applied.madeDirs, heq]) hnew
      refine hsettled.imp_right fun hmem => ?_
      -- what comes before it for the same file is deeper
      rcases mem_append.mp hmem with hmem | hmem
      · exact hmem
      · rw [heq, pairwise_append] at hdeep
        have hlt := hdeep.2.2 _ hmem d mem_cons_self
        rw [length_dropLast] at hlt
        omega
  · rintro ⟨h, hone⟩ pre d post heq hnew
    rcases append_eq_append_iff.mp heq with ⟨mid, rfl, hmid⟩ | ⟨mid, hmid, hpost⟩
    · have hd : d ∈ missingParentDirs s.tree file.path := by simp [hmid]
      exact (hone d hd hnew).imp_right fun hmem => mem_append_left _ hmem
    · cases mid with
      | nil =>
        have hd : d ∈ missingParentDirs s.tree file.path := by
          rw [nil_append] at hpost
          simp [← hpost]
        rw [append_nil] at hmid
        exact (hone d hd hnew).imp_right fun hmem => hmid ▸ hmem
      | cons e mid =>
        obtain ⟨rfl, -⟩ := hpost
        exact h pre d mid hmid hnew

theorem node_parent_madeDirs
    (hopen : s.tree.blocked file.path = false) :
    (s.madeDirs file).tree.node file.path.dropLast = some .dir := by
  have hnode := FileTree.node_mkdirAll (FileTree.opens_missing hopen)
  show (s.tree.mkdirAll (s.tree.missing file.path)).node file.path.dropLast = _
  by_cases hroot : file.path.dropLast = []
  · rw [hroot]
    exact FileTree.node_nil _
  · have hne : file.path ≠ [] := by
      intro hnil
      rw [hnil] at hroot
      exact hroot rfl
    have hproper : file.path.dropLast ≠ file.path := by
      intro heq
      have hlength := congrArg List.length heq
      rw [length_dropLast] at hlength
      have hpos := length_pos_iff.mpr hne
      omega
    have hanc := FileTree.mem_ancestors_iff.mpr ⟨hroot, dropLast_prefix _, hproper⟩
    rw [hnode]
    split
    · rfl
    · rename_i hthere
      have hsome : s.tree.node file.path.dropLast ≠ none := fun hnone =>
        hthere (FileTree.mem_missing_iff.mpr ⟨hanc, hnone⟩)
      rw [← FileTree.isDir_iff]
      have hany := any_eq_false.mp hopen _ hanc
      by_contra hdir
      apply hany
      rw [Bool.eq_false_iff.mpr hdir, Option.isSome_iff_ne_none.mpr hsome]
      rfl

/-- What an apply left at its end, and when that is nothing new. -/
def Outcome (original patched : Destination) (s : Applied) (Clean : Prop) : Prop :=
  ∃ left, Laid patched s left ∧
    ((∀ p, left p → original.node p ≠ none) ∧ Settled original s.createdDirs ↔ Clean)

variable {original patched : Destination}

theorem applyFile_spec (h : Tidy patched s)
    {step : FileStep} (hfree : original.node step.file.path = none) :
    ((applyFile s step).2 = true → Tidy patched (applyFile s step).1 ∧
      (Settled original (applyFile s step).1.createdDirs ↔
        Settled original s.createdDirs ∧ CleanStep original s step)) ∧
    ((applyFile s step).2 = false → Outcome original patched (applyFile s step).1
      (Settled original s.createdDirs ∧ CleanStep original s step)) := by
  unfold applyFile CleanStep Outcome
  by_cases hblocked : s.tree.blocked step.file.path = true
  · rw [if_pos hblocked]
    refine ⟨(fun hok => by cases hok), fun _ => ⟨_, h, ?_⟩⟩
    simp [hblocked]
  · have hopen : s.tree.blocked step.file.path = false := by simpa using hblocked
    have hmade := h.madeDirs hopen
    have hnode (hthere : ((s.madeDirs step.file).tree.node step.file.path).isSome = true) :
        s.tree.node step.file.path ≠ none := by
      have hnodeall := FileTree.node_mkdirAll (FileTree.opens_missing hopen) step.file.path
      rw [if_neg] at hnodeall
      · rw [← hnodeall]
        exact Option.isSome_iff_ne_none.mp hthere
      · intro hmem
        exact (FileTree.mem_ancestors_iff.mp (FileTree.mem_missing_iff.mp hmem).1).2.2 rfl
    simp only [hopen, Bool.false_eq_true, false_or]
    cases step.fault with
    | mkdir made =>
      refine ⟨(fun hok => by cases hok), fun _ => ?_⟩
      have htake : s.tree.Opens ((s.tree.missing step.file.path).take made) := by
        have hall := FileTree.opens_missing hopen
        rw [← take_append_drop made (s.tree.missing step.file.path)] at hall
        exact hall.of_append
      refine ⟨_, h.mkdirAll htake, ?_⟩
      exact and_comm
    | write left =>
      dsimp only
      by_cases hthere : ((s.madeDirs step.file).tree.node step.file.path).isSome = true
      · rw [if_pos hthere]
        refine ⟨(fun hok => by cases hok), fun _ => ⟨_, hmade, ?_⟩⟩
        simp [settled_madeDirs, hnode hthere]
      · rw [if_neg hthere]
        have hnew : (s.madeDirs step.file).tree.node step.file.path = none := by
          simpa using hthere
        have habsent : s.tree.node step.file.path = none := by
          by_contra hsome
          have hnodeall := FileTree.node_mkdirAll (FileTree.opens_missing hopen) step.file.path
          have hnew' : (s.tree.mkdirAll (s.tree.missing step.file.path)).node step.file.path =
            none := hnew
          rw [hnew'] at hnodeall
          split at hnodeall
          · cases hnodeall
          · exact hsome hnodeall.symm
        cases left with
        | none =>
          refine ⟨(fun hok => by cases hok), fun _ => ⟨_, hmade, ?_⟩⟩
          simp [settled_madeDirs]
        | some data =>
          refine ⟨(fun hok => by cases hok), fun _ => ⟨_, hmade.place hnew ?_ data, ?_⟩⟩
          · exact node_parent_madeDirs hopen
          · simp [hfree, habsent]
    | none =>
      by_cases hthere : ((s.madeDirs step.file).tree.node step.file.path).isSome = true
      · rw [if_pos hthere]
        refine ⟨(fun hok => by cases hok), fun _ => ⟨_, hmade, ?_⟩⟩
        simp [settled_madeDirs]
      · rw [if_neg hthere]
        have hnew : (s.madeDirs step.file).tree.node step.file.path = none := by
          simpa using hthere
        refine ⟨fun _ => ⟨hmade.written hnew (node_parent_madeDirs hopen), ?_⟩,
          (fun hok => by cases hok)⟩
        exact settled_madeDirs

theorem applyFiles_spec {steps : List FileStep}
    (hfree : ∀ step ∈ steps, original.node step.file.path = none)
    (h : Tidy patched s) (hfail : (applyFiles s steps).2 = false) :
    Outcome original patched (applyFiles s steps).1
      (Settled original s.createdDirs ∧ CleanSteps original s steps) := by
  induction steps generalizing s with
  | nil => cases hfail
  | cons step steps ih =>
    obtain ⟨hthrough, hleft⟩ := applyFile_spec h (hfree step mem_cons_self)
    unfold applyFiles at hfail ⊢
    unfold CleanSteps
    by_cases hok : (applyFile s step).2 = true
    · rw [if_pos hok] at hfail ⊢
      obtain ⟨htidy, hsettled⟩ := hthrough hok
      obtain ⟨left, hlaid, hiff⟩ :=
        ih (fun step hstep => hfree step (mem_cons_of_mem _ hstep)) htidy hfail
      refine ⟨left, hlaid, hiff.trans ?_⟩
      rw [hsettled]
      simp [hok, and_assoc]
    · rw [if_neg hok] at hfail ⊢
      obtain ⟨left, hlaid, hiff⟩ := hleft hfail
      refine ⟨left, hlaid, hiff.trans ?_⟩
      simp [hok]

/-! ## What a rollback takes away -/

/-- Reversing a patch in a tree that holds more than the patched one: what was there before comes
    back, what the patch brought goes unless something else lies in it, the rest stays. -/
structure Undone (original patched u restored : Destination) : Prop where
  old : ∀ p, original.node p ≠ none → restored.node p = original.node p
  other : ∀ p, original.node p = none → patched.node p = none → restored.node p = u.node p
  brought : ∀ p, original.node p = none → patched.node p ≠ none →
    (restored.node p ≠ none ↔ ∃ q, p <+: q ∧ patched.node q = none ∧ u.node q ≠ none)

/-- `git apply` takes away a directory only when it emptied it, and `--reverse` undoes it. -/
structure GitApply.Undoes (git : GitApply) (original : Destination) : Prop where
  empties : ∀ patched ∈ git.apply original, ∀ p, original.node p = some .dir →
    patched.node p = none → ∃ c, c ≠ [] ∧ c.dropLast = p ∧ original.node c ≠ none
  undo : ∀ patched ∈ git.apply original, ∀ u,
    (∀ p, patched.node p ≠ none → u.node p = patched.node p) →
      ∀ restored ∈ git.reverse u, Undone original patched u restored

theorem node_removeWritten {tree : Destination}
    {files : List PreparedUntrackedFile} (h : (removeWritten faults tree files).2 = [])
    (p : FilePath) : (removeWritten faults tree files).1.node p =
      if p ∈ files.map (·.path) then none else tree.node p := by
  have hrun (l : List PreparedUntrackedFile) (acc : Destination × List RollbackError)
      (hempty : (l.foldl (removeFile faults) acc).2 = []) : acc.2 = [] ∧
        (l.foldl (removeFile faults) acc).1.node p =
          if p ∈ l.map (·.path) then none else acc.1.node p := by
    induction l generalizing acc with
    | nil => exact ⟨hempty, by simp⟩
    | cons file l ih =>
      obtain ⟨hacc, hnode⟩ := ih _ hempty
      rw [foldl_cons, hnode]
      unfold removeFile at hacc ⊢
      split at hacc
      · simp at hacc
      · rename_i hno
        refine ⟨hacc, ?_⟩
        have hdir : acc.1.isDir file.path = false := by
          simp only [Bool.or_eq_true, not_or, Bool.not_eq_true] at hno
          exact hno.2
        rw [if_neg hno, FileTree.node_rm hdir]
        by_cases hp : p = file.path
        · simp [hp]
        · simp [hp]
  obtain ⟨-, hnode⟩ := hrun files.reverse (tree, []) h
  simpa [removeWritten] using hnode

theorem removeCreatedDirs_eq (h : ∀ p, faults.rmdir p = false)
    (tree : Destination) (dirs : List FilePath) :
    removeCreatedDirs faults tree dirs = tree.rmdirAll dirs.reverse := by
  unfold removeCreatedDirs FileTree.rmdirAll
  congr 1
  funext tree dir
  rw [h dir]
  rfl

structure TakenBack (original patched : Destination) (dirs : List FilePath)
    (left : FilePath → Prop) (restored : Destination) : Prop where
  old : ∀ p, original.node p ≠ none → restored.node p = original.node p
  laid : ∀ p, original.node p = none → patched.node p = none →
    (restored.node p ≠ none ↔ p ∈ dirs ∨ left p)
  laid_dir : ∀ d ∈ dirs, original.node d = none → restored.node d = some .dir
  brought : ∀ p, original.node p = none → patched.node p ≠ none → restored.node p ≠ none →
    ∃ q, p <+: q ∧ patched.node q = none ∧ (q ∈ dirs ∨ left q)
  dirs_new : ∀ d ∈ dirs, patched.node d = none
  dirs_nodup : dirs.Nodup
  left_new : ∀ p, left p → patched.node p = none ∧ p ∉ dirs

theorem takenBack_of_laid {original patched : Destination} {left : FilePath → Prop}
    (h : Laid patched s left) {u restored : Destination} (hu : ∀ p, u.node p =
      if p ∈ s.writtenUntrackedFiles.map (·.path) then none else s.tree.node p)
    (hundone : (∀ p, patched.node p ≠ none → u.node p = patched.node p) →
      Undone original patched u restored) :
    TakenBack original patched s.createdDirs left restored := by
  have hwritten (p : FilePath) : p ∈ s.writtenUntrackedFiles.map (·.path) ↔
      ∃ f ∈ s.writtenUntrackedFiles, f.path = p := mem_map
  have hbase : ∀ p, patched.node p ≠ none → u.node p = patched.node p := by
    intro p hp
    rw [hu, if_neg, h.base p hp]
    rw [hwritten]
    rintro ⟨f, hf, rfl⟩
    exact hp (h.files f hf).1
  have hundone := hundone hbase
  have hextra (p : FilePath) (hp : patched.node p = none) :
      u.node p ≠ none ↔ p ∈ s.createdDirs ∨ left p := by
    rw [hu]
    by_cases hmem : p ∈ s.writtenUntrackedFiles.map (·.path)
    · obtain ⟨f, hf, rfl⟩ := (hwritten p).mp hmem
      rw [if_pos hmem]
      simp only [ne_eq, not_true_eq_false, false_iff, not_or]
      constructor
      · intro hd
        have hdir := (h.dirs _ hd).2
        rw [(h.files f hf).2] at hdir
        cases hdir
      · exact fun hleft => (h.left_new _ hleft).2.2 f hf rfl
    · rw [if_neg hmem, h.extra p hp]
      rw [hwritten] at hmem
      simp [hmem]
  refine ⟨hundone.old, ?_, ?_, ?_, fun d hd => (h.dirs d hd).1, h.dirs_nodup, ?_⟩
  · intro p hp hpatched
    rw [hundone.other p hp hpatched, hextra p hpatched]
  · intro d hd hnew
    obtain ⟨hpatched, hdir⟩ := h.dirs d hd
    rw [hundone.other d hnew hpatched, hu, if_neg, hdir]
    rw [hwritten]
    rintro ⟨f, hf, rfl⟩
    rw [(h.files f hf).2] at hdir
    cases hdir
  · intro p hp hpatched hthere
    obtain ⟨q, hprefix, hq, hqu⟩ := (hundone.brought p hp hpatched).mp hthere
    exact ⟨q, hprefix, hq, (hextra q hq).mp hqu⟩
  · intro p hp
    obtain ⟨hpatched, hdirs, -⟩ := h.left_new p hp
    exact ⟨hpatched, hdirs⟩

variable {original patched restored : Destination} {dirs : List FilePath} {left : FilePath → Prop}

/-- A new directory that was made lies in the original tree or in directories that were made. -/
theorem TakenBack.not_brought (h : TakenBack original patched dirs left restored)
    (hleft : ∀ p, left p → original.node p ≠ none) (hsettled : Settled original dirs)
    (hp : original.node p = none) (hbrought : patched.node p ≠ none) :
    restored.node p = none := by
  by_contra hthere
  obtain ⟨q, hprefix, hq, hlaid⟩ := h.brought p hp hbrought hthere
  -- from the directory up to the first one that was not made
  induction q using List.reverseRecOn with
  | nil =>
    cases hq
  | append_singleton q s ih =>
    have hne : p ≠ q ++ [s] := by
      rintro rfl
      exact hbrought hq
    have hup : p <+: q := (prefix_concat_iff.mp hprefix).resolve_left hne
    have hnew : original.node (q ++ [s]) = none := by
      by_contra hsome
      exact original.node_of_prefix hprefix hsome hp
    have hd : q ++ [s] ∈ dirs := hlaid.resolve_right fun hl => hleft _ hl hnew
    obtain ⟨pre, post, heq⟩ := append_of_mem hd
    have hparent := hsettled pre _ post heq hnew
    rw [dropLast_concat] at hparent
    rcases hparent with hold | hmade
    · exact original.node_of_prefix hup hold hp
    · have hmem : q ∈ dirs := by
        rw [heq]
        exact mem_append_left _ hmade
      exact ih hup (h.dirs_new q hmem) (.inl hmem)

/-- **What is left**: removing the directories restores the original tree exactly when a failing
    step left nothing new and each new directory comes after the one it lies in. -/
theorem TakenBack.same_iff (h : TakenBack original patched dirs left restored)
    (hempties : ∀ p, original.node p = some .dir → patched.node p = none →
      ∃ c, c ≠ [] ∧ c.dropLast = p ∧ original.node c ≠ none) :
    (restored.rmdirAll dirs.reverse).Same original ↔
      (∀ p, left p → original.node p ≠ none) ∧ Settled original dirs := by
  constructor
  · intro hsame
    refine ⟨?_, ?_⟩
    · intro p hp hnew
      obtain ⟨hpatched, hdirs⟩ := h.left_new p hp
      have hthere := (h.laid p hnew hpatched).mpr (.inr hp)
      have hstays := FileTree.node_rmdirAll_of_not_mem restored (q := p) (by rwa [mem_reverse])
      rw [hsame p, hnew] at hstays
      exact hthere hstays.symm
    · intro pre d post heq hnew
      by_contra hno
      rw [not_or, not_not] at hno
      obtain ⟨hparent, hpre⟩ := hno
      have hd : d ∈ dirs := by simp [heq]
      have hne : d ≠ [] := by
        rintro rfl
        cases hnew
      have hdthere : restored.node d ≠ none := by
        rw [h.laid_dir d hd hnew]
        exact Option.some_ne_none _
      have hstays : (restored.rmdirAll dirs.reverse).node d.dropLast ≠ none := by
        by_cases hmem : d.dropLast ∈ dirs
        · -- its turn comes before that of the directory in it
          have hnodup := h.dirs_nodup
          rw [heq] at hmem hnodup
          have hproper : d.dropLast ≠ d := by
            intro hself
            have hlength := congrArg List.length hself
            rw [length_dropLast] at hlength
            have hpos := length_pos_iff.mpr hne
            omega
          have hpost : d.dropLast ∈ post := by
            rcases mem_append.mp hmem with hmem | hmem
            · exact absurd hmem hpre
            · exact (mem_cons.mp hmem).resolve_left hproper
          obtain ⟨mid, rest, rfl⟩ := append_of_mem hpost
          have hrev : dirs.reverse =
              rest.reverse ++ d.dropLast :: (mid.reverse ++ d :: pre.reverse) := by
            rw [heq]
            simp
          rw [hrev]
          apply FileTree.node_rmdirAll_dropLast hne hdthere
          · rw [mem_reverse]
            intro hrest
            rw [nodup_append] at hnodup
            exact (nodup_cons.mp hnodup.2.1).1 (by simp [hrest])
          · simp only [mem_append, mem_reverse, mem_cons, not_or]
            rw [nodup_append, nodup_cons, nodup_append] at hnodup
            refine ⟨fun hmid => ?_, hproper, hpre⟩
            exact hnodup.2.1.2.2.2 _ hmid _ mem_cons_self rfl
        · rw [FileTree.node_rmdirAll_of_not_mem restored (by rwa [mem_reverse]),
            restored.node_dropLast hdthere]
          exact Option.some_ne_none _
      exact hstays (hsame _ ▸ hparent)
  · rintro ⟨hleft, hsettled⟩ p
    by_cases hold : original.node p = none
    · rw [hold]
      by_cases hpatched : patched.node p = none
      · by_cases hthere : restored.node p = none
        · exact FileTree.node_rmdirAll_eq_none hthere _
        · have hd : p ∈ dirs := ((h.laid p hold hpatched).mp hthere).resolve_right
            fun hl => hleft p hl hold
          apply FileTree.node_rmdirAll_of_new (N := fun d => original.node d = none) _ p
            (mem_reverse.mpr hd) hold
          intro pre d post heq hnew
          have hd : d ∈ dirs := by
            rw [← mem_reverse, heq]
            simp
          refine ⟨?_, h.laid_dir d hd hnew, ?_⟩
          · rintro rfl
            cases hnew
          · intro q hq hdrop hqthere
            have hqnew : original.node q = none := by
              by_contra hsome
              have hdir := original.node_dropLast hsome
              rw [hdrop, hnew] at hdir
              cases hdir
            have hqpatched : patched.node q = none := by
              by_contra hsome
              have hdir := patched.node_dropLast hsome
              rw [hdrop, h.dirs_new d hd] at hdir
              cases hdir
            have hqd : q ∈ dirs := ((h.laid q hqnew hqpatched).mp hqthere).resolve_right
              fun hl => hleft q hl hqnew
            refine ⟨?_, hqnew⟩
            -- its parent was made before it, so its turn is earlier
            obtain ⟨before, after, hsplit⟩ := append_of_mem hqd
            have hbefore := (hsettled before q after hsplit hqnew).resolve_left
              (by rw [hdrop]; exact not_not.mpr hnew)
            rw [hdrop] at hbefore
            obtain ⟨front, mid, rfl⟩ := append_of_mem hbefore
            have hrev : pre ++ d :: post =
                (after.reverse ++ q :: mid.reverse) ++ d :: front.reverse := by
              rw [← heq, hsplit]
              simp
            have hnodup := nodup_reverse.mpr h.dirs_nodup
            rw [heq, nodup_append, nodup_cons] at hnodup
            have hpre : d ∉ pre := fun hmem => hnodup.2.2 d hmem d mem_cons_self rfl
            rw [((append_cons_inj_of_notMem hpre hnodup.2.1.1).mp hrev).1]
            simp
      · rw [FileTree.node_rmdirAll_eq_none (h.not_brought hleft hsettled hold hpatched)]
    · rw [FileTree.node_rmdirAll_of_old (O := fun p => original.node p ≠ none) _ _ hold,
        h.old p hold]
      · intro q hq
        rw [h.old q hq]
        exact hq
      · intro d hd hdold hdir
        rw [h.old d hdold] at hdir
        exact hempties d hdir (h.dirs_new d (mem_reverse.mp hd))

/-! ## Failed applies -/

theorem trackedPatchApplied_applyFiles (s : Applied) (steps : List FileStep) :
    (applyFiles s steps).1.trackedPatchApplied = s.trackedPatchApplied := by
  have hstep (s : Applied) (step : FileStep) :
      (applyFile s step).1.trackedPatchApplied = s.trackedPatchApplied := by
    unfold applyFile
    dsimp only
    split
    · rfl
    · split
      · rfl
      · split
        · rfl
        · split <;> rfl
      · split <;> rfl
  induction steps generalizing s with
  | nil => rfl
  | cons step steps ih =>
    unfold applyFiles
    dsimp only
    split
    · rw [ih, hstep]
    · exact hstep s step

theorem same_iff_of_outcome {Clean : Prop} (h : Outcome original patched s Clean)
    {patch : Option GitApply}
    (herrors : (rollbackDestinationApply patch faults s).2 = [])
    (hrmdir : ∀ p, faults.rmdir p = false)
    (hundone : ∀ u, (∀ p, patched.node p ≠ none → u.node p = patched.node p) →
      (reverseTrackedPatch patch s.trackedPatchApplied u).2 = [] →
        Undone original patched u (reverseTrackedPatch patch s.trackedPatchApplied u).1)
    (hempties : ∀ p, original.node p = some .dir → patched.node p = none →
      ∃ c, c ≠ [] ∧ c.dropLast = p ∧ original.node c ≠ none) :
    (rollbackDestinationApply patch faults s).1.Same original ↔ Clean := by
  obtain ⟨left, hlaid, hiff⟩ := h
  obtain ⟨hremoved, hreversed⟩ := append_eq_nil_iff.mp herrors
  have hback := takenBack_of_laid hlaid (node_removeWritten hremoved)
    fun hbase => hundone _ hbase hreversed
  rw [← hiff, ← hback.same_iff hempties, ← removeCreatedDirs_eq hrmdir]
  rfl

/-- **A failed apply** leaves the destination as it was exactly when no step left anything behind
    that the rollback does not take away, provided that the rollback itself does not fail. -/
theorem restored_iff_leavesNothing (input : HandoffTransferApplyInput)
    {code : HandoffConflictCode} {restored : Destination}
    (hfail : applyHandoffTransfer input = .failure .applying code [] restored)
    (hrmdir : ∀ p, input.rollback.rmdir p = false)
    (hgit : ∀ git ∈ input.patch, git.Undoes input.destination) :
    restored.Same input.destination ↔ LeavesNothing input := by
  unfold applyHandoffTransfer at hfail
  split_ifs at hfail with hcollision hcheck
  · cases hfail
  · cases hfail
  · dsimp only at hfail
    split_ifs at hfail with hok
    rw [HandoffTransferApplyResult.failure.injEq] at hfail
    obtain ⟨-, -, herrors, rfl⟩ := hfail
    have hfailed : (applyDestination input).2 = false := by simpa using hok
    have hfree : ∀ step ∈ input.untracked, input.destination.node step.file.path = none := by
      intro step hstep
      by_contra hsome
      exact hcollision (any_eq_true.mpr ⟨step, hstep, Option.isSome_iff_ne_none.mpr hsome⟩)
    unfold LeavesNothing
    cases hpatch : input.patch with
    | none =>
      have happly : applyDestination input =
          applyFiles { tree := input.destination } input.untracked := by
        unfold applyDestination
        rw [hpatch]
      rw [happly] at hfailed herrors ⊢
      have houtcome := applyFiles_spec hfree (tidy_init input.destination false) hfailed
      rw [hpatch] at herrors
      have hiff := same_iff_of_outcome houtcome herrors hrmdir (fun u hbase _ => ?_)
        (fun p hdir hnone => by rw [hdir] at hnone; cases hnone)
      · rw [hiff]
        exact and_iff_right (settled_nil _)
      · refine ⟨hbase, fun _ _ _ => rfl, fun p hnone hsome => absurd hnone hsome⟩
    | some git =>
      have hgit := hgit git hpatch
      rw [hpatch] at herrors
      cases happlied : git.apply input.destination with
      | none =>
        have happly : applyDestination input = ({ tree := input.destination }, false) := by
          unfold applyDestination
          rw [hpatch]
          dsimp only
          rw [happlied]
        rw [happly]
        constructor
        · intro _ patched hpatched
          rw [happlied] at hpatched
          cases hpatched
        · exact fun _ => FileTree.Same.refl _
      | some patched =>
        have happly : applyDestination input =
            applyFiles { tree := patched, trackedPatchApplied := true } input.untracked := by
          unfold applyDestination
          rw [hpatch]
          dsimp only
          rw [happlied]
        rw [happly] at hfailed herrors ⊢
        have houtcome := applyFiles_spec hfree (tidy_init patched true) hfailed
        have hiff := same_iff_of_outcome houtcome herrors hrmdir (fun u hbase hreversed => ?_)
          (hgit.empties patched happlied)
        · rw [hiff, and_iff_right (settled_nil _)]
          constructor
          · intro hclean patched' hpatched'
            rw [happlied] at hpatched'
            rwa [← Option.some.inj hpatched']
          · exact fun hclean => hclean patched happlied
        · rw [trackedPatchApplied_applyFiles] at hreversed ⊢
          unfold reverseTrackedPatch at hreversed ⊢
          dsimp only at hreversed ⊢
          cases hrestored : git.reverse u with
          | none =>
            rw [hrestored] at hreversed
            cases hreversed
          | some restored => exact hgit.undo patched happlied u hbase restored hrestored

/-! ## Three destinations -/

/-- No rollback step fails. -/
def noFaults : RollbackFaults where
  rm := fun _ => false
  rmdir := fun _ => false

/-- A patch that adds the file `f`. -/
def addsFile : GitApply where
  check := fun t => (t.node ["f"]).isNone
  apply := fun t => if (t.node ["f"]).isNone then some (t.place ["f"] (.file [1])) else none
  reverse := fun t => if t.isDir ["f"] then none else some (t.rm ["f"])

theorem node_empty (h : (FileTree.empty : Destination).node p ≠ none) : p = [] := by
  by_contra hne
  exact h (if_neg hne)

theorem addsFile_undoes : addsFile.Undoes .empty where
  empties := by
    intro patched hpatched p hdir hnone
    have hroot : p = [] := node_empty (by rw [hdir]; exact Option.some_ne_none _)
    rw [hroot] at hnone
    cases hnone
  undo := by
    intro patched hpatched u hbase restored hrestored
    have hpatched : patched = FileTree.empty.place ["f"] (.file [1]) :=
      (Option.some.inj hpatched).symm
    have hnode (p : FilePath) : patched.node p =
        if p = ["f"] then some (.file [1]) else (FileTree.empty : Destination).node p := by
      rw [hpatched]
      exact FileTree.node_place rfl rfl _ p
    have hfile : u.node ["f"] = some (.file [1]) := by
      have hf := hnode ["f"]
      rw [if_pos rfl] at hf
      rw [hbase ["f"] (by rw [hf]; exact Option.some_ne_none _), hf]
    have hdir : u.isDir ["f"] = false := by
      rw [Bool.eq_false_iff, ne_eq, FileTree.isDir_iff, hfile]
      exact fun h => by cases h
    have hrestored : restored = u.rm ["f"] := by
      unfold addsFile at hrestored
      dsimp only at hrestored
      rw [hdir] at hrestored
      exact (Option.some.inj hrestored).symm
    have hrm (p : FilePath) : restored.node p = if p = ["f"] then none else u.node p := by
      rw [hrestored]
      exact FileTree.node_rm hdir p
    refine ⟨?_, ?_, ?_⟩
    · intro p hp
      rw [node_empty hp, FileTree.node_nil, FileTree.node_nil]
    · intro p _ hnone
      rw [hrm, if_neg]
      rintro rfl
      rw [hnode] at hnone
      cases hnone
    · intro p hempty hsome
      have hp : p = ["f"] := by
        by_contra hne
        rw [hnode, if_neg hne] at hsome
        exact hsome hempty
      subst hp
      rw [hrm, if_pos rfl]
      simp only [ne_eq, not_true_eq_false, false_iff, not_exists, not_and]
      -- nothing lies below a file
      intro q hprefix hq
      by_contra hthere
      obtain ⟨rest, rfl⟩ := hprefix
      cases rest with
      | nil =>
        rw [hnode] at hq
        cases hq
      | cons s rest =>
        have hbelow : u.node ["f", s] ≠ none := u.node_of_prefix ⟨rest, rfl⟩ hthere
        have hparent := u.node_dropLast hbelow
        rw [show ["f", s].dropLast = ["f"] from rfl, hfile] at hparent
        cases hparent

/-- The patch and one file in a new directory are applied, then a file is refused. -/
def refusedInput : HandoffTransferApplyInput where
  destination := .empty
  patch := some addsFile
  untracked := [⟨⟨["d", "g"], [2]⟩, .none⟩, ⟨⟨["h"], [3]⟩, .write none⟩]
  rollback := noFaults

theorem restored_of_refused : ∃ restored,
    applyHandoffTransfer refusedInput = .failure .applying .destinationConflict [] restored ∧
      restored.Same refusedInput.destination := by
  refine ⟨_, rfl, ?_⟩
  refine (restored_iff_leavesNothing refusedInput rfl (fun _ => rfl) ?_).mpr ?_
  · intro git hgit
    rw [← Option.some.inj hgit]
    exact addsFile_undoes
  · intro patched hpatched
    rw [← Option.some.inj hpatched]
    decide

/-- A file two new directories deep is refused. -/
def nestedInput : HandoffTransferApplyInput where
  destination := .empty
  patch := none
  untracked := [⟨⟨["d", "e", "f"], [1]⟩, .write none⟩]
  rollback := noFaults

/-- Writing a file fails half-way. -/
def halfWrittenInput : HandoffTransferApplyInput where
  destination := .empty
  patch := none
  untracked := [⟨⟨["f"], [1, 2]⟩, .write (some [1])⟩]
  rollback := noFaults

/-- The outer directory stays, and so does the first half of the file. -/
theorem nested_and_half_written_stay :
    (∃ restored, applyHandoffTransfer nestedInput =
        .failure .applying .destinationConflict [] restored ∧
      ¬restored.Same nestedInput.destination) ∧
    ∃ restored, applyHandoffTransfer halfWrittenInput =
        .failure .applying .destinationConflict [] restored ∧
      ¬restored.Same halfWrittenInput.destination := by
  constructor
  · refine ⟨_, rfl, fun hsame => ?_⟩
    have hnone : _ = none := hsame ["d"]
    exact absurd hnone (by decide)
  · refine ⟨_, rfl, fun hsame => ?_⟩
    have hnone : _ = none := hsame ["f"]
    exact absurd hnone (by decide)

end RelayIde.Handoff
