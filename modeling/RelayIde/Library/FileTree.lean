import Mathlib.Data.List.Induction
import Mathlib.Data.List.Infix
import RelayIde.Library.Table

/-!
# File Trees

Directories and files below a root, named by their path from it.  Every entry lies in a directory,
which the type carries along.

- `node_rmdirAll_of_new`, `node_rmdirAll_dropLast` — the order decides which directories go
-/

open List

namespace RelayIde.Library

abbrev FilePath := List String

inductive FileNode (δ : Type) where
  | dir
  | file (data : δ)

structure FileEntry (δ : Type) where
  path : FilePath
  node : FileNode δ

variable {δ : Type}

/-- The entries below a root. -/
structure FileTree (δ : Type) where
  entries : Table (FileEntry.path (δ := δ))
  /-- The root is no entry, and every entry lies in it or in a directory. -/
  rooted : ∀ e ∈ entries.rows, e.path ≠ [] ∧
    (e.path.dropLast = [] ∨ ∃ d ∈ entries.rows, d.path = e.path.dropLast ∧ d.node = .dir)

variable {q d : FilePath} {ds : List FilePath}

namespace FileTree

def empty : FileTree δ := ⟨.empty, by simp⟩

/-- What stands at a path; the root is a directory. -/
def node (t : FileTree δ) (p : FilePath) : Option (FileNode δ) :=
  if p = [] then some .dir else (t.entries.find? p).map (·.node)

/-- Two trees with the same directories and files. -/
def Same (t t' : FileTree δ) : Prop :=
  ∀ p, t.node p = t'.node p

variable (t : FileTree δ) (p : FilePath)

theorem Same.refl : t.Same t := fun _ => rfl

theorem node_nil : t.node [] = some .dir := if_pos rfl

theorem node_eq_some_iff {p : FilePath} (hp : p ≠ []) (n : FileNode δ) :
    t.node p = some n ↔ ⟨p, n⟩ ∈ t.entries.rows := by
  unfold node
  rw [if_neg hp, Option.map_eq_some_iff]
  constructor
  · rintro ⟨e, he, rfl⟩
    obtain ⟨hmem, rfl⟩ := (t.entries.find?_eq_some_iff _ _).mp he
    exact hmem
  · intro h
    exact ⟨⟨p, n⟩, (t.entries.find?_eq_some_iff _ _).mpr ⟨h, rfl⟩, rfl⟩

theorem node_dropLast {p : FilePath} (h : t.node p ≠ none) : t.node p.dropLast = some .dir := by
  by_cases hp : p.dropLast = []
  · rw [hp]
    exact t.node_nil
  · have hne : p ≠ [] := by
      rintro rfl
      exact hp rfl
    obtain ⟨n, hn⟩ := Option.ne_none_iff_exists'.mp h
    obtain ⟨-, hroot | ⟨d, hd, hpath, hdir⟩⟩ := t.rooted _ ((t.node_eq_some_iff hne n).mp hn)
    · exact absurd hroot hp
    · apply (t.node_eq_some_iff hp .dir).mpr
      rw [← hpath, ← hdir]
      exact hd

def isDir (t : FileTree δ) (p : FilePath) : Bool :=
  match t.node p with
  | some .dir => true
  | _ => false

theorem isDir_iff : t.isDir p = true ↔ t.node p = some .dir := by
  unfold isDir
  split
  · rename_i h
    simp [h]
  · rename_i h
    simp only [Bool.false_eq_true, false_iff]
    exact h

theorem node_of_prefix {p : FilePath} (h : p <+: q) (hq : t.node q ≠ none) : t.node p ≠ none := by
  induction q using List.reverseRecOn with
  | nil =>
    rw [prefix_nil.mp h]
    exact hq
  | append_singleton q s ih =>
    rcases prefix_concat_iff.mp h with rfl | h
    · exact hq
    · apply ih h
      have hdir := t.node_dropLast hq
      rw [dropLast_concat] at hdir
      rw [hdir]
      exact Option.some_ne_none _

/-- Nothing lies below a path. -/
def childless (t : FileTree δ) (p : FilePath) : Bool :=
  t.entries.rows.all fun e => decide (e.path.dropLast ≠ p)

theorem childless_iff : t.childless p = true ↔ ∀ q, q ≠ [] → q.dropLast = p → t.node q = none := by
  simp only [childless, all_eq_true, decide_eq_true_eq]
  constructor
  · intro h q hq hdrop
    by_contra hsome
    obtain ⟨n, hn⟩ := Option.ne_none_iff_exists'.mp hsome
    exact h _ ((t.node_eq_some_iff hq n).mp hn) hdrop
  · intro h e he hdrop
    have hne := (t.rooted e he).1
    have hsome := (t.node_eq_some_iff hne e.node).mpr he
    rw [h e.path hne hdrop] at hsome
    cases hsome

/-! ## One entry -/

/-- A new entry; nothing happens when the path is taken, or lies in no directory. -/
def place (t : FileTree δ) (p : FilePath) (n : FileNode δ) : FileTree δ :=
  if h : (t.node p).isNone = true ∧ t.isDir p.dropLast = true then
    { entries := t.entries.insert ⟨p, n⟩
      rooted := by
        have hp : p ≠ [] := by
          rintro rfl
          rw [t.node_nil] at h
          cases h.1
        have hnew : t.entries.find? p = none := by
          have hnone := Option.isNone_iff_eq_none.mp h.1
          unfold node at hnone
          rwa [if_neg hp, Option.map_eq_none_iff] at hnone
        intro e he
        rw [Table.rows_insert_of_new _ _ hnew] at he ⊢
        rcases mem_append.mp he with he | he
        · obtain ⟨hne, hroot | ⟨d, hd, hd'⟩⟩ := t.rooted e he
          · exact ⟨hne, .inl hroot⟩
          · exact ⟨hne, .inr ⟨d, mem_append_left _ hd, hd'⟩⟩
        · rw [mem_singleton.mp he]
          refine ⟨hp, ?_⟩
          by_cases hroot : p.dropLast = []
          · exact .inl hroot
          · have hdir := (t.node_eq_some_iff hroot .dir).mp ((t.isDir_iff _).mp h.2)
            exact .inr ⟨_, mem_append_left _ hdir, rfl, rfl⟩ }
  else t

section
variable {t : FileTree δ} {p : FilePath}

theorem node_place (hnew : t.node p = none)
    (hdir : t.node p.dropLast = some .dir) (n : FileNode δ) (q : FilePath) :
    (t.place p n).node q = if q = p then some n else t.node q := by
  have hp : p ≠ [] := by
    rintro rfl
    cases hnew
  have hfind : t.entries.find? p = none := by
    unfold node at hnew
    rwa [if_neg hp, Option.map_eq_none_iff] at hnew
  by_cases hq : q = []
  · subst hq
    rw [if_neg (Ne.symm hp), node_nil, node_nil]
  · unfold place
    rw [dif_pos ⟨Option.isNone_iff_eq_none.mpr hnew, (t.isDir_iff _).mpr hdir⟩]
    unfold node
    rw [if_neg hq, Table.find?_insert_of_new _ _ _ hfind]
    by_cases hqp : p = q
    · subst hqp
      simp
    · rw [if_neg hqp, if_neg (Ne.symm hqp), if_neg hq]

/-- One childless entry less. -/
def erase (t : FileTree δ) (p : FilePath) : FileTree δ :=
  if h : t.childless p = true then
    { entries := t.entries.deleteWhere fun e => decide (e.path = p)
      rooted := by
        intro e he
        obtain ⟨he, hep⟩ := mem_filter.mp he
        obtain ⟨hne, hroot | ⟨d, hd, hpath, hdir⟩⟩ := t.rooted e he
        · exact ⟨hne, .inl hroot⟩
        · refine ⟨hne, .inr ⟨d, mem_filter.mpr ⟨hd, ?_⟩, hpath, hdir⟩⟩
          -- the entry would lie below what is erased
          have hchild := all_eq_true.mp h e he
          have hchild : e.path.dropLast ≠ p := by simpa using hchild
          rw [← hpath] at hchild
          simpa using hchild }
  else t

theorem node_erase (hp : p ≠ []) (h : t.childless p = true)
    (q : FilePath) : (t.erase p).node q = if q = p then none else t.node q := by
  unfold erase
  rw [dif_pos h]
  unfold node
  by_cases hq : q = []
  · subst hq
    rw [if_pos rfl, if_pos rfl, if_neg (Ne.symm hp)]
  · rw [if_neg hq, if_neg hq, Table.find?_deleteWhere]
    cases hfind : t.entries.find? q with
    | none => simp
    | some e =>
      obtain ⟨-, rfl⟩ := (t.entries.find?_eq_some_iff _ _).mp hfind
      by_cases hep : e.path = p
      · simp [hep]
      · simp [hep]

/-- `rm` of a file; with `force`, nothing there is no error. -/
def rm (t : FileTree δ) (p : FilePath) : FileTree δ :=
  if t.isDir p = true then t else t.erase p

theorem node_rm (hfile : t.isDir p = false) (q : FilePath) :
    (t.rm p).node q = if q = p then none else t.node q := by
  have hp : p ≠ [] := by
    rintro rfl
    rw [Bool.eq_false_iff, ne_eq, isDir_iff] at hfile
    exact hfile t.node_nil
  have hchildless : t.childless p = true := by
    rw [childless_iff]
    intro c _ hdrop
    by_contra hsome
    have hdir := t.node_dropLast hsome
    rw [hdrop, ← isDir_iff, hfile] at hdir
    cases hdir
  unfold rm
  rw [if_neg (by simp [hfile]), node_erase hp hchildless]

end

/-- `rmdir`: an empty directory goes, anything else stays. -/
def rmdir (t : FileTree δ) (p : FilePath) : FileTree δ :=
  if p ≠ [] ∧ t.isDir p = true then t.erase p else t

theorem node_rmdir (q : FilePath) :
    (t.rmdir p).node q =
      if q = p ∧ p ≠ [] ∧ t.isDir p = true ∧ t.childless p = true then none else t.node q := by
  unfold rmdir
  split
  · rename_i hdir
    by_cases hchildless : t.childless p = true
    · rw [node_erase hdir.1 hchildless]
      simp [hdir, hchildless]
    · have hsame : t.erase p = t := dif_neg hchildless
      rw [hsame]
      simp [hchildless]
  · rename_i hno
    rw [if_neg]
    rintro ⟨-, hne, hdir, -⟩
    exact hno ⟨hne, hdir⟩

/-! ## Lists of directories -/

/-- The directories that a path lies in, from the root down. -/
def ancestors : FilePath → List FilePath
  | [] => []
  | [_] => []
  | s :: s' :: rest => [s] :: (ancestors (s' :: rest)).map (s :: ·)

theorem mem_ancestors_iff {p : FilePath} : q ∈ ancestors p ↔ q ≠ [] ∧ q <+: p ∧ q ≠ p := by
  induction p generalizing q with
  | nil =>
    simp only [ancestors, not_mem_nil, prefix_nil, false_iff, not_and]
    exact fun hne hnil => absurd hnil hne
  | cons s rest ih =>
    cases rest with
    | nil =>
      simp only [ancestors, not_mem_nil, false_iff, not_and, not_not]
      intro hne hprefix
      exact (prefix_cons_iff.mp hprefix).elim (absurd · hne) fun ⟨t, ht, hnil⟩ => by
        rw [ht, prefix_nil.mp hnil]
    | cons s' rest =>
      simp only [ancestors, mem_cons, mem_map, ih]
      constructor
      · rintro (rfl | ⟨q, ⟨hne, hprefix, hproper⟩, rfl⟩)
        · exact ⟨by simp, by simp, by simp⟩
        · exact ⟨by simp, cons_prefix_cons.mpr ⟨rfl, hprefix⟩, by simpa using hproper⟩
      · rintro ⟨hne, hprefix, hproper⟩
        obtain hnil | ⟨t, rfl, ht⟩ := prefix_cons_iff.mp hprefix
        · exact absurd hnil hne
        · by_cases htnil : t = []
          · exact .inl (by rw [htnil])
          · exact .inr ⟨t, ⟨htnil, ht, by simpa using hproper⟩, rfl⟩

theorem pairwise_ancestors : (ancestors p).Pairwise fun q q' => q.length < q'.length := by
  fun_induction ancestors p with
  | case1 | case2 s => exact List.Pairwise.nil
  | case3 s s' rest ih =>
    constructor
    · intro q hq
      obtain ⟨q', hq', rfl⟩ := mem_map.mp hq
      have hne := (mem_ancestors_iff.mp hq').1
      simpa using length_pos_iff.mpr hne
    · rw [pairwise_map]
      exact ih.imp fun hlt => by simpa using hlt

theorem dropLast_mem_ancestors {p : FilePath} (h : q ∈ ancestors p) :
    q.dropLast = [] ∨ q.dropLast ∈ ancestors p := by
  by_cases hroot : q.dropLast = []
  · exact .inl hroot
  · right
    obtain ⟨hne, hprefix, hproper⟩ := mem_ancestors_iff.mp h
    refine mem_ancestors_iff.mpr ⟨hroot, ( dropLast_prefix q).trans hprefix, ?_⟩
    intro heq
    have hlt : q.dropLast.length < q.length := by
      rw [length_dropLast]
      have hpos := length_pos_iff.mpr hne
      omega
    rw [heq] at hlt
    exact absurd hprefix.length_le (not_le.mpr hlt)

/-- The directories that a path lies in and that are missing, from the root down. -/
def missing (t : FileTree δ) (p : FilePath) : List FilePath :=
  (ancestors p).filter fun q => (t.node q).isNone

section
variable {t : FileTree δ}

theorem mem_missing_iff {p : FilePath} : q ∈ t.missing p ↔ q ∈ ancestors p ∧ t.node q = none := by
  simp [missing]

/-- The directories of a list, made one after another. -/
def mkdirAll (t : FileTree δ) (ds : List FilePath) : FileTree δ :=
  ds.foldl (fun t d => t.place d .dir) t

/-- Each directory of the list is new, and lies in a directory that is there by its turn. -/
def Opens (t : FileTree δ) (ds : List FilePath) : Prop :=
  ∀ pre d post, ds = pre ++ d :: post →
    t.node d = none ∧ d ∉ pre ∧ (t.node d.dropLast = some .dir ∨ d.dropLast ∈ pre)

theorem Opens.of_append {ds' : List FilePath} (h : t.Opens (ds ++ ds')) : t.Opens ds := by
  intro pre d post heq
  apply h pre d (post ++ ds')
  rw [heq, append_assoc, cons_append]

theorem node_mkdirAll (h : t.Opens ds) (q : FilePath) :
    (t.mkdirAll ds).node q = if q ∈ ds then some .dir else t.node q := by
  induction ds using List.reverseRecOn generalizing q with
  | nil => rfl
  | append_singleton ds d ih =>
    have ih := ih h.of_append
    obtain ⟨hnew, hfresh, hdir⟩ := h ds d [] rfl
    have hnew' : (t.mkdirAll ds).node d = none := by rw [ih, if_neg hfresh, hnew]
    have hdir' : (t.mkdirAll ds).node d.dropLast = some .dir := by
      rw [ih]
      split
      · rfl
      · rename_i hno
        exact hdir.resolve_right hno
    have hlast : t.mkdirAll (ds ++ [d]) = (t.mkdirAll ds).place d .dir := by
      simp [mkdirAll]
    rw [hlast, node_place hnew' hdir', ih]
    by_cases hqd : q = d
    · simp [hqd]
    · simp [hqd]

/-- A file in the way: nothing can be made below it. -/
def blocked (t : FileTree δ) (p : FilePath) : Bool :=
  (ancestors p).any fun q => (t.node q).isSome && !t.isDir q

/-- What is missing can be made from the root down, unless a file is in the way. -/
theorem opens_missing {p : FilePath} (h : t.blocked p = false) : t.Opens (t.missing p) := by
  have hsorted : (t.missing p).Pairwise fun q q' => q.length < q'.length :=
    (pairwise_ancestors p).filter _
  intro pre d post heq
  have hd : d ∈ t.missing p := by simp [heq]
  obtain ⟨hanc, hnone⟩ := mem_missing_iff.mp hd
  rw [heq, pairwise_append] at hsorted
  obtain ⟨-, hpost, hpre⟩ := hsorted
  refine ⟨hnone, fun hmem => absurd (hpre d hmem d mem_cons_self) (lt_irrefl _), ?_⟩
  rcases dropLast_mem_ancestors hanc with hroot | hparent
  · left
    rw [hroot]
    exact t.node_nil
  · by_cases hmissing : t.node d.dropLast = none
    · -- the parent is shorter, so it comes before
      right
      have hmem := mem_missing_iff.mpr ⟨hparent, hmissing⟩
      rw [heq, mem_append] at hmem
      rcases hmem with hmem | hmem
      · exact hmem
      · have hle : d.length ≤ d.dropLast.length := by
          rcases mem_cons.mp hmem with heq' | hmem
          · rw [heq']
          · exact (pairwise_cons.mp hpost).1 _ hmem |>.le
        have hpos := length_pos_iff.mpr (mem_ancestors_iff.mp hanc).1
        rw [length_dropLast] at hle
        omega
    · left
      rw [← isDir_iff]
      have hany := any_eq_false.mp h _ hparent
      by_contra hdir
      apply hany
      rw [Bool.eq_false_iff.mpr hdir, Option.isSome_iff_ne_none.mpr hmissing]
      rfl

end

/-- The directories of a list, removed one after another where they are empty. -/
def rmdirAll (t : FileTree δ) (ds : List FilePath) : FileTree δ :=
  ds.foldl rmdir t

@[simp] theorem rmdirAll_append (ds ds' : List FilePath) :
    t.rmdirAll (ds ++ ds') = (t.rmdirAll ds).rmdirAll ds' :=
  foldl_append

@[simp] theorem rmdirAll_cons (d : FilePath) (ds : List FilePath) :
    t.rmdirAll (d :: ds) = (t.rmdir d).rmdirAll ds := rfl

theorem node_rmdirAll_of_not_mem (h : q ∉ ds) : (t.rmdirAll ds).node q = t.node q := by
  induction ds generalizing t with
  | nil => rfl
  | cons d ds ih =>
    rw [mem_cons, not_or] at h
    rw [rmdirAll_cons, ih _ h.2, node_rmdir, if_neg]
    exact fun hq => h.1 hq.1

section
variable {t : FileTree δ}

theorem node_rmdirAll_eq_none (h : t.node q = none)
    (ds : List FilePath) : (t.rmdirAll ds).node q = none := by
  induction ds generalizing t with
  | nil => exact h
  | cons d ds ih =>
    apply ih
    rw [node_rmdir]
    split
    · rfl
    · exact h

theorem node_rmdir_of_child (hd : d ≠ []) (h : t.node d ≠ none)
    (q : FilePath) : (t.rmdir d.dropLast).node q = t.node q := by
  rw [node_rmdir, if_neg]
  rintro ⟨-, -, -, hchildless⟩
  exact h ((t.childless_iff _).mp hchildless d hd rfl)

theorem node_rmdirAll_dropLast (hd : d ≠ []) (h : t.node d ≠ none)
    {pre post : List FilePath} (hpre : d ∉ pre) (hpost : d.dropLast ∉ post) :
    (t.rmdirAll (pre ++ d.dropLast :: post)).node d.dropLast ≠ none := by
  have hthere : (t.rmdirAll pre).node d ≠ none := by
    rwa [node_rmdirAll_of_not_mem t hpre]
  rw [rmdirAll_append, rmdirAll_cons, node_rmdirAll_of_not_mem _ hpost,
    node_rmdir_of_child hd hthere]
  rw [node_dropLast _ hthere]
  exact Option.some_ne_none _

/-- What holds of files, and of a directory only together with something in it, stays. -/
theorem node_rmdirAll_of_old {O : FilePath → Prop}
    (hthere : ∀ p, O p → t.node p ≠ none)
    (hold : ∀ d ∈ ds, O d → t.node d = some .dir → ∃ c, c ≠ [] ∧ c.dropLast = d ∧ O c)
    {p : FilePath} (hp : O p) : (t.rmdirAll ds).node p = t.node p := by
  induction ds generalizing t with
  | nil => rfl
  | cons d ds ih =>
    have hstep (q : FilePath) (hq : O q) : (t.rmdir d).node q = t.node q := by
      rw [node_rmdir]
      split
      · rename_i hgone
        obtain ⟨rfl, -, hdir, hchildless⟩ := hgone
        obtain ⟨c, hne, hdrop, hc⟩ := hold q mem_cons_self hq ((t.isDir_iff q).mp hdir)
        exact absurd ((t.childless_iff q).mp hchildless c hne hdrop) (hthere c hc)
      · rfl
    rw [rmdirAll_cons, ih, hstep p hp]
    · intro q hq
      rw [hstep q hq]
      exact hthere q hq
    · intro e he hq hdir
      rw [hstep e hq] at hdir
      exact hold e (mem_cons_of_mem _ he) hq hdir

/-- New directories whose contents are new directories that come before them all go. -/
theorem node_rmdirAll_of_new {N : FilePath → Prop}
    (h : ∀ pre d post, ds = pre ++ d :: post → N d → d ≠ [] ∧ t.node d = some .dir ∧
      ∀ q, q ≠ [] → q.dropLast = d → t.node q ≠ none → q ∈ pre ∧ N q) :
    ∀ d ∈ ds, N d → (t.rmdirAll ds).node d = none := by
  induction ds using List.reverseRecOn with
  | nil => exact fun d hd => absurd hd not_mem_nil
  | append_singleton ds e ih =>
    have ih := ih fun pre d post heq hnew =>
      h pre d (post ++ [e]) (by rw [heq, append_assoc, cons_append]) hnew
    intro d hd hnew
    have hlast : t.rmdirAll (ds ++ [e]) = (t.rmdirAll ds).rmdir e := by
      rw [rmdirAll_append]
      rfl
    rw [hlast]
    by_cases hmem : d ∈ ds
    · -- its turn is over
      exact node_rmdirAll_eq_none (ih d hmem hnew) [e]
    · have hde : d = e := by
        rcases mem_append.mp hd with hd | hd
        · exact absurd hd hmem
        · exact mem_singleton.mp hd
      subst hde
      obtain ⟨hne, hdir, hchildren⟩ := h ds d [] rfl hnew
      rw [node_rmdir, if_pos]
      refine ⟨rfl, hne, ?_, ?_⟩
      · rw [isDir_iff, node_rmdirAll_of_not_mem t hmem]
        exact hdir
      · rw [childless_iff]
        intro q hq hdrop
        by_cases hthere : t.node q = none
        · exact node_rmdirAll_eq_none hthere ds
        · obtain ⟨hmem', hnew'⟩ := hchildren q hq hdrop hthere
          exact ih q hmem' hnew'

end

end FileTree

end RelayIde.Library
