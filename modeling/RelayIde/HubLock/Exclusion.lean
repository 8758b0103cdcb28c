import RelayIde.HubLock.Lock

/-!
# Mutual Exclusion of Hubs

What the lock file gives its holder.  A process decides on a read and acts a step later; as long as
nothing comes between the two that stands against the act, the lock names its one holder.

- `exclusion_of_run` — whole runs
-/

namespace RelayIde.HubLock

open RelayIde.Library

variable (hostname : String) (w : World)

/-! ## What may be taken away -/

/-- The file at the path does not name another live process, and none is about to write it. -/
def Removable (p : Pid) : Prop :=
  ∀ file, w.lock = some file →
    (∀ r, file.content = .record r → ¬Contended hostname w p r) ∧
    ∀ q, q ≠ p → Live w q → ∀ request, w.pc q ≠ .writing request file.inode

/-- No other holder, inside a second acquire, is between its unlink and its create. -/
def NoGap (p : Pid) : Prop :=
  w.lock = none → ∀ q, q ≠ p → Holder w q → ∀ request, w.pc q ≠ .recreating request

def Pc.takes : Pc → Bool
  | .clearing _ | .reclearing _ | .replacing _ | .unlinking => true
  | _ => false

def Pc.puts : Pc → Bool
  | .creating _ | .recreating _ | .replacing _ => true
  | _ => false

/-- A step that takes or puts a file takes none away from another process. -/
def Harmless : Action → Prop
  | .advance p => Live w p →
    ((w.pc p).takes = true → Removable hostname w p) ∧ ((w.pc p).puts = true → NoGap w p)
  | _ => True

/-! ## What a holder has -/

/-- The file at the path names `q`. -/
def Names (lock : Option LockFile) (q : Pid) : Prop :=
  ∃ inode r, lock = some ⟨inode, .record r⟩ ∧ r.pid = q ∧ r.hostname = hostname

def Keeps (lock : Option LockFile) (q : Pid) : Pc → Prop
  | .writing _ inode => lock = some ⟨inode, .garbled⟩
  | .recreating _ => lock = none
  | .clearing _ | .refusing => False
  | .replacing r => Names hostname lock q ∧ r.pid = q ∧ r.hostname = hostname
  | _ => Names hostname lock q

def Pc.isWriting : Pc → Bool
  | .writing _ _ => true
  | _ => false

structure Inv : Prop where
  writes : ∀ q, Live w q → ∀ request inode, w.pc q = .writing request inode →
    w.lock = some ⟨inode, .garbled⟩
  apart : ∀ p q, Live w p → Live w q → (w.pc p).isWriting = true → (w.pc q).isWriting = true → p = q
  keeps : ∀ q, Holder w q → Keeps hostname w.lock q (w.pc q)
  exclusive : ∀ p q, Holder w p → Holder w q → p = q

/-- A live process that holds the lock or is about to. -/
def Engaged (q : Pid) : Prop := Holder w q ∨ Live w q ∧ (w.pc q).isWriting = true

variable {hostname w} {p q : Pid}

theorem Engaged.live (h : Engaged w q) : Live w q := h.elim (·.1) (·.1)

theorem contended_of_live {r : HubLockRecord} (hq : Live w q) (hne : q ≠ p) (hpid : r.pid = q)
    (hhost : r.hostname = hostname) : Contended hostname w p r := by
  obtain ⟨hpos, hsafe, halive⟩ := hq
  refine ⟨hhost, ?_, hpid ▸ hne⟩
  have hrange : -maxSafeInteger ≤ q ∧ q ≤ maxSafeInteger ∧ 0 < q := by
    have hlow : -maxSafeInteger ≤ (0 : ℤ) := by decide
    exact ⟨Int.le_trans hlow (Int.le_of_lt hpos), hsafe, hpos⟩
  simp [isPidAlive, hpid, hrange, halive]

theorem isPidAlive_self (hp : Live w p) : isPidAlive w p p = true := by
  obtain ⟨hpos, hsafe, -⟩ := hp
  have hlow : -maxSafeInteger ≤ (0 : ℤ) := by decide
  simp [isPidAlive, hpos, hsafe, Int.le_trans hlow (Int.le_of_lt hpos)]

theorem readHubLock_of_names (h : Names hostname w.lock q) :
    ∃ r, readHubLock w.lock = some r ∧ r.pid = q ∧ r.hostname = hostname := by
  obtain ⟨inode, r, hlock, hpid, hhost⟩ := h
  exact ⟨r, by rw [hlock]; rfl, hpid, hhost⟩

theorem not_names_of_removable (h : Removable hostname w p) (hq : Live w q) (hne : q ≠ p) :
    ¬Names hostname w.lock q := by
  rintro ⟨inode, r, hlock, hpid, hhost⟩
  exact (h _ hlock).1 r rfl (contended_of_live hq hne hpid hhost)

theorem exists_of_isWriting {pc : Pc} (h : pc.isWriting = true) :
    ∃ request inode, pc = .writing request inode := by
  cases pc <;> first | exact ⟨_, _, rfl⟩ | cases h

theorem Keeps.cases {lock : Option LockFile} {pc : Pc} (h : Keeps hostname lock q pc) :
    pc.isWriting = true ∨ (lock = none ∧ ∃ request, pc = .recreating request) ∨
      Names hostname lock q := by
  cases pc with
  | writing => exact .inl rfl
  | recreating request => exact .inr (.inl ⟨h, request, rfl⟩)
  | clearing | refusing => exact h.elim
  | replacing => exact .inr (.inr h.1)
  | _ => exact .inr (.inr h)

section
variable (h : Inv hostname w)
include h

theorem Inv.engaged (hq : Engaged w q) :
    (∃ request inode, w.pc q = .writing request inode ∧ w.lock = some ⟨inode, .garbled⟩) ∨
      (w.lock = none ∧ Holder w q ∧ ∃ request, w.pc q = .recreating request) ∨
      Names hostname w.lock q := by
  have hwrites : (w.pc q).isWriting = true →
      ∃ request inode, w.pc q = .writing request inode ∧ w.lock = some ⟨inode, .garbled⟩ := by
    intro hwriting
    obtain ⟨request, inode, hpc⟩ := exists_of_isWriting hwriting
    exact ⟨request, inode, hpc, h.writes q hq.live request inode hpc⟩
  obtain hholder | ⟨-, hwriting⟩ := hq
  · obtain hwriting | ⟨hnone, hgap⟩ | hnames := (h.keeps q hholder).cases
    · exact .inl (hwrites hwriting)
    · exact .inr (.inl ⟨hnone, hholder, hgap⟩)
    · exact .inr (.inr hnames)
  · exact .inl (hwrites hwriting)

/-- What another engaged process has at the path, if that may be taken away, is nothing. -/
theorem Inv.none_of_removable (hp : Removable hostname w p)
    (hq : Engaged w q) (hne : q ≠ p) : w.lock = none := by
  obtain ⟨request, inode, hpc, hlock⟩ | ⟨hnone, -⟩ | hnames := h.engaged hq
  · exact absurd hpc ((hp _ hlock).2 q hne hq.live request)
  · exact hnone
  · exact absurd hnames (not_names_of_removable hp hq.live hne)

/-- Where no other holder is between its unlink and its create, an engaged process has a file. -/
theorem Inv.ne_none_of_noGap (hp : NoGap w p) (hq : Engaged w q) (hne : q ≠ p) : w.lock ≠ none := by
  intro hnone
  obtain ⟨request, inode, -, hlock⟩ | ⟨-, hholder, request, hpc⟩ | ⟨inode, r, hlock, -⟩ :=
    h.engaged hq
  · rw [hnone] at hlock
    cases hlock
  · exact hp hnone q hne hholder request hpc
  · rw [hnone] at hlock
    cases hlock

/-- While a process writes the lock it has created, no other is engaged. -/
theorem Inv.not_engaged_of_writing (hp : Live w p) {request : Request}
    {inode : ℕ} (hpc : w.pc p = .writing request inode) (hne : q ≠ p) : ¬Engaged w q := by
  intro hq
  have hlock := h.writes p hp request inode hpc
  obtain ⟨request', inode', hpc', -⟩ | ⟨hnone, -⟩ | ⟨inode', r, hlock', -⟩ := h.engaged hq
  · exact hne (h.apart q p hq.live hp (by rw [hpc']; rfl) (by rw [hpc]; rfl))
  · rw [hnone] at hlock
    cases hlock
  · rw [hlock] at hlock'
    cases hlock'

end

/-! ## What a step does -/

variable (hostname w p) in
/-- What a process does at a place, by what it finds at the path. -/
inductive StepOf : Pc → World → Prop
  | idle : StepOf .idle w
  | gaveWay (request : Request) (r : HubLockRecord) (hread : readHubLock w.lock = some r)
      (hother : r.pid ≠ p) : StepOf (.acquiring request) (w.goto p .idle)
  | proceeds (request : Request) : StepOf (.acquiring request) (w.goto p (.creating request))
  | stale (request : Request) (r : HubLockRecord) (hread : readHubLock w.lock = some r)
      (hstale : ¬(r.hostname = hostname ∧ isPidAlive w p r.pid = true)) :
      StepOf (.acquiring request) (w.goto p (.clearing request))
  | clears (request : Request) : StepOf (.clearing request) (w.unlink.goto p (.creating request))
  | exists (request : Request) (hlock : w.lock ≠ none) :
      StepOf (.creating request) (w.goto p (.rereading request))
  | creates (request : Request) (hlock : w.lock = none) :
      StepOf (.creating request) ((w.create .garbled).goto p (.writing request w.inodes))
  | writes (request : Request) (inode : ℕ) :
      StepOf (.writing request inode) (((w.write inode (.record
        { request with pid := p, hostname := hostname })).setHolds p true).goto p .idle)
  | lost (request : Request) (r : HubLockRecord) (hread : readHubLock w.lock = some r)
      (hother : r.pid ≠ p) : StepOf (.rereading request) (w.goto p .idle)
  | retries (request : Request)
      (hread : ∀ r, readHubLock w.lock = some r → ¬Contended hostname w p r) :
      StepOf (.rereading request) (w.goto p (.reclearing request))
  | vanished (request : Request) (hlock : w.lock = none) :
      StepOf (.reclearing request) (w.goto p .refusing)
  | reclears (request : Request) :
      StepOf (.reclearing request) (w.unlink.goto p (.recreating request))
  | existsAgain (request : Request) (hlock : w.lock ≠ none) :
      StepOf (.recreating request) (w.goto p .refusing)
  | recreates (request : Request) (hlock : w.lock = none) :
      StepOf (.recreating request) ((w.create .garbled).goto p (.writing request w.inodes))
  | refuses : StepOf .refusing (w.goto p .idle)
  | ignores (patch : Patch) (hread : ∀ r, readHubLock w.lock = some r → r.pid ≠ p) :
      StepOf (.updating patch) (w.goto p .idle)
  | patches (patch : Patch) (r : HubLockRecord) (hread : readHubLock w.lock = some r)
      (hown : r.pid = p) : StepOf (.updating patch) (w.goto p (.replacing (patch.apply r)))
  | replaces (r : HubLockRecord) : StepOf (.replacing r) ((w.create (.record r)).goto p .idle)
  | foreign (hread : ∀ r, readHubLock w.lock = some r → r.pid ≠ p) :
      StepOf .releasing (w.goto p .idle)
  | owns (r : HubLockRecord) (hread : readHubLock w.lock = some r) (hown : r.pid = p) :
      StepOf .releasing (w.goto p .unlinking)
  | releases : StepOf .unlinking ((w.unlink.setHolds p false).goto p .idle)

theorem stepOf_advance (hostname : String) (w : World) (p : Pid) :
    StepOf hostname w p (w.pc p) (advance hostname w p) := by
  unfold advance
  cases w.pc p with
  | idle => exact .idle
  | acquiring request =>
    simp only [acquire]
    split
    · exact .proceeds request
    · rename_i r hread
      split_ifs with hlive hother
      · exact .gaveWay request r hread hother
      · exact .proceeds request
      · exact .stale request r hread hlive
  | clearing request => exact .clears request
  | creating request =>
    simp only [createLock]
    split
    · rename_i hlock
      exact .exists request (by simp [hlock])
    · exact .creates request ‹_›
  | writing request inode => exact .writes request inode
  | rereading request =>
    simp only [reread]
    split
    · rename_i hnone
      exact .retries request fun r hread => by rw [hnone] at hread; cases hread
    · rename_i r hread
      split_ifs with hcontended
      · exact .lost request r hread hcontended.2.2
      · exact .retries request fun r' hread' => by
          obtain rfl : r = r' := Option.some.inj (hread.symm.trans hread')
          exact hcontended
  | reclearing request =>
    simp only
    split
    · exact .vanished request ‹_›
    · exact .reclears request
  | recreating request =>
    simp only [createLock]
    split
    · rename_i hlock
      exact .existsAgain request (by simp [hlock])
    · exact .recreates request ‹_›
  | refusing => exact .refuses
  | updating patch =>
    simp only [update]
    split
    · rename_i hnone
      exact .ignores patch fun r hread => by rw [hnone] at hread; cases hread
    · rename_i r hread
      split_ifs with hother
      · exact .ignores patch fun r' hread' => by
          obtain rfl : r = r' := Option.some.inj (hread.symm.trans hread')
          exact hother
      · exact .patches patch r hread (not_not.mp hother)
  | replacing r => exact .replaces r
  | releasing =>
    simp only [release]
    split
    · rename_i hnone
      exact .foreign fun r hread => by rw [hnone] at hread; cases hread
    · rename_i r hread
      split_ifs with hother
      · exact .foreign fun r' hread' => by
          obtain rfl : r = r' := Option.some.inj (hread.symm.trans hread')
          exact hother
      · exact .owns r hread (not_not.mp hother)
  | unlinking => exact .releases

section
variable (w : World) (p : Pid)

variable (pc : Pc)

@[simp] theorem lock_goto : (w.goto p pc).lock = w.lock := rfl

@[simp] theorem pc_goto : (w.goto p pc).pc p = pc :=
  Function.update_self _ _ _

@[simp] theorem holds_goto : (w.goto p pc).holds = w.holds := rfl

@[simp] theorem holds_setHolds (holds : Bool) : (w.setHolds p holds).holds p = holds :=
  Function.update_self _ _ _

end

/-- **The lock of an engaged process is out of reach.** -/
theorem lock_advance (h : Inv hostname w) (hp : Live w p) (hG : Harmless hostname w (.advance p))
    (hq : Engaged w q) (hne : q ≠ p) : (advance hostname w p).lock = w.lock := by
  obtain ⟨htakes, hputs⟩ := hG hp
  have hremovable (ht : (w.pc p).takes = true) : w.lock = none :=
    h.none_of_removable (htakes ht) hq hne
  have hfile (hputs' : (w.pc p).puts = true) : w.lock ≠ none :=
    h.ne_none_of_noGap (hputs hputs') hq hne
  have hwriting : ∀ request inode, w.pc p ≠ .writing request inode :=
    fun request inode hpc => h.not_engaged_of_writing hp hpc hne hq
  have hstep := stepOf_advance hostname w p
  generalize w.pc p = pc, advance hostname w p = w' at hstep hremovable hfile hwriting
  cases hstep with
  | clears | reclears | releases => exact (hremovable rfl).symm
  | creates request hlock | recreates request hlock => exact absurd hlock (hfile rfl)
  | replaces r => exact absurd (hremovable rfl) (hfile rfl)
  | writes request inode => exact absurd rfl (hwriting request inode)
  | _ => rfl

/-! ## The invariant of runs -/

/-- A step of `p` that leaves the processes of others alone. -/
structure OwnStep (w w' : World) (p : Pid) : Prop where
  alive : w'.alive = w.alive
  pc : ∀ q, q ≠ p → w'.pc q = w.pc q
  holds : ∀ q, q ≠ p → w'.holds q = w.holds q

theorem ownStep_goto {w w' : World} (h : OwnStep w w' p) (pc : Pc) : OwnStep w (w'.goto p pc) p :=
  ⟨h.alive, fun q hne => (Function.update_of_ne hne _ _).trans (h.pc q hne), h.holds⟩

theorem OwnStep.refl (w : World) (p : Pid) : OwnStep w w p := ⟨rfl, fun _ _ => rfl, fun _ _ => rfl⟩

theorem ownStep_setHolds {w w' : World} (h : OwnStep w w' p) (holds : Bool) :
    OwnStep w (w'.setHolds p holds) p :=
  ⟨h.alive, h.pc, fun q hne => (Function.update_of_ne hne _ _).trans (h.holds q hne)⟩

theorem ownStep_advance (hostname : String) (w : World) (p : Pid) :
    OwnStep w (advance hostname w p) p := by
  have hself := OwnStep.refl w p
  have hlock (lock : Option LockFile) (inodes : ℕ) : OwnStep w { w with lock, inodes } p :=
    ⟨rfl, fun _ _ => rfl, fun _ _ => rfl⟩
  have hstep := stepOf_advance hostname w p
  generalize w.pc p = pc, advance hostname w p = w' at hstep
  cases hstep with
  | idle => exact hself
  | clears | reclears | creates | recreates | replaces => exact ownStep_goto (hlock _ _) _
  | writes | releases => exact ownStep_goto (ownStep_setHolds (hlock _ _) _) _
  | _ => exact ownStep_goto hself _

theorem OwnStep.live {w w' : World} (h : OwnStep w w' p) : Live w' q ↔ Live w q := by
  rw [Live, Live, h.alive]

section
variable (h : Inv hostname w)
include h

/-- The invariant after a step that is not seen by the others, from what the process itself has. -/
theorem inv_of_ownStep {w' : World} (hp : Live w p) (hown : OwnStep w w' p)
    (hlock : ∀ q, q ≠ p → Engaged w q → w'.lock = w.lock)
    (hwrites : ∀ request inode, w'.pc p = .writing request inode →
      w'.lock = some ⟨inode, .garbled⟩ ∧ ∀ q, q ≠ p → ¬Engaged w q)
    (hkeeps : w'.holds p = true → Keeps hostname w'.lock p (w'.pc p) ∧
      ∀ q, q ≠ p → ¬Holder w q) : Inv hostname w' := by
  have hholder : ∀ q, q ≠ p → (Holder w' q ↔ Holder w q) := fun q hne => by
    rw [Holder, Holder, hown.live, hown.holds q hne]
  have hwriting : ∀ q, Live w' q → (w'.pc q).isWriting = true → (w'.pc p).isWriting = true →
      q = p := by
    intro q hq hqw hpw
    by_contra hne
    obtain ⟨request, inode, hpc⟩ := exists_of_isWriting hpw
    refine (hwrites request inode hpc).2 q hne (.inr ⟨hown.live.mp hq, ?_⟩)
    rw [← hown.pc q hne]
    exact hqw
  refine ⟨?_, ?_, ?_, ?_⟩
  · intro q hq request inode hpc
    by_cases hne : q = p
    · subst hne
      exact (hwrites request inode hpc).1
    · have hq' := hown.live.mp hq
      rw [hown.pc q hne] at hpc
      rw [hlock q hne (.inr ⟨hq', by rw [hpc]; rfl⟩)]
      exact h.writes q hq' request inode hpc
  · intro q q' hq hq' hqw hqw'
    by_cases hne : q = p
    · subst hne
      exact (hwriting q' hq' hqw' hqw).symm
    · by_cases hne' : q' = p
      · subst hne'
        exact hwriting q hq hqw hqw'
      · rw [hown.pc q hne] at hqw
        rw [hown.pc q' hne'] at hqw'
        exact h.apart q q' (hown.live.mp hq) (hown.live.mp hq') hqw hqw'
  · intro q hq
    by_cases hne : q = p
    · subst hne
      exact (hkeeps hq.2).1
    · have hq' := (hholder q hne).mp hq
      rw [hlock q hne (.inl hq'), hown.pc q hne]
      exact h.keeps q hq'
  · intro q q' hq hq'
    by_cases hne : q = p
    · subst hne
      by_contra hne'
      exact (hkeeps hq.2).2 q' (Ne.symm hne') ((hholder q' (Ne.symm hne')).mp hq')
    · by_cases hne' : q' = p
      · subst hne'
        exact absurd ((hholder q hne).mp hq) ((hkeeps hq'.2).2 q hne)
      · exact h.exclusive q q' ((hholder q hne).mp hq) ((hholder q' hne').mp hq')

theorem writes_advance (hp : Live w p)
    (hG : Harmless hostname w (.advance p)) (request : Request) (inode : ℕ)
    (hpc : (advance hostname w p).pc p = .writing request inode) :
    (advance hostname w p).lock = some ⟨inode, .garbled⟩ ∧ ∀ q, q ≠ p → ¬Engaged w q := by
  have hother (hputs : (w.pc p).puts = true) (hlock : w.lock = none) : ∀ q, q ≠ p → ¬Engaged w q :=
    fun q hne hq => h.ne_none_of_noGap ((hG hp).2 hputs) hq hne hlock
  have hidle : w.pc p = .idle → w.pc p ≠ .writing request inode := fun h => by rw [h]; simp
  have hstep := stepOf_advance hostname w p
  generalize hat : w.pc p = pc, advance hostname w p = w' at hstep hother hidle hpc
  cases hstep with
  | creates request' hlock | recreates request' hlock =>
    simp only [pc_goto] at hpc
    obtain ⟨-, rfl⟩ := hpc
    exact ⟨rfl, hother rfl hlock⟩
  | idle => exact absurd (hat.symm.trans hpc) (by simp)
  | _ => simp at hpc

theorem keeps_advance (hp : Live w p)
    (hholds : (advance hostname w p).holds p = true) :
    Keeps hostname (advance hostname w p).lock p ((advance hostname w p).pc p) ∧
      ∀ q, q ≠ p → ¬Holder w q := by
  have hstep := stepOf_advance hostname w p
  have hexclusive (hold : w.holds p = true) (q : Pid) (hne : q ≠ p) : ¬Holder w q :=
    fun hq => hne (h.exclusive q p hq ⟨hp, hold⟩)
  have hkeeps (hold : w.holds p = true) := h.keeps p ⟨hp, hold⟩
  have hown {r : HubLockRecord} (hnames : Names hostname w.lock p)
      (hread : readHubLock w.lock = some r) : r.pid = p ∧ r.hostname = hostname := by
    obtain ⟨r', hread', hpid, hhost⟩ := readHubLock_of_names hnames
    obtain rfl : r = r' := Option.some.inj (hread.symm.trans hread')
    exact ⟨hpid, hhost⟩
  by_cases hwriting : ∃ request inode, w.pc p = .writing request inode
  · obtain ⟨request, inode, hpc⟩ := hwriting
    refine ⟨?_, fun q hne hq => h.not_engaged_of_writing hp hpc hne (.inl hq)⟩
    simp only [advance, hpc, pc_goto]
    refine ⟨inode, { request with pid := p, hostname }, ?_, rfl, rfl⟩
    simp [World.setHolds, World.write, h.writes p hp request inode hpc]
  generalize hat : w.pc p = pc, advance hostname w p = w' at hstep hkeeps hholds hwriting
  cases hstep with
  | writes request inode => exact absurd ⟨request, inode, rfl⟩ hwriting
  | releases => simp at hholds
  | idle => exact ⟨hat ▸ hkeeps hholds, hexclusive hholds⟩
  | gaveWay request r hread hother | lost request r hread hother =>
    exact absurd (hown (hkeeps hholds) hread).1 hother
  | ignores patch hread | foreign hread =>
    obtain ⟨r, hread', hpid, -⟩ := readHubLock_of_names (hkeeps hholds)
    exact absurd hpid (hread r hread')
  | proceeds request | «exists» request hlock | retries request | owns r hread =>
    exact ⟨by simpa [Keeps] using hkeeps hholds, hexclusive hholds⟩
  | stale request r hread hstale =>
    obtain ⟨hpid, hhost⟩ := hown (hkeeps hholds) hread
    refine absurd ⟨hhost, ?_⟩ hstale
    rw [hpid]
    exact isPidAlive_self hp
  | clears | refuses => exact (hkeeps hholds).elim
  | creates request hlock | vanished request hlock =>
    obtain ⟨inode, r, hfile, -⟩ := hkeeps hholds
    rw [hlock] at hfile
    cases hfile
  | existsAgain request hlock => exact absurd (hkeeps hholds) hlock
  | reclears request => exact ⟨by simp [Keeps, World.unlink], hexclusive hholds⟩
  | recreates request hlock => exact ⟨by simp [Keeps, World.create], hexclusive hholds⟩
  | patches patch r hread hpid =>
    have hr : r.pid = p ∧ r.hostname = hostname := hown (hkeeps hholds) hread
    refine ⟨?_, hexclusive hholds⟩
    rw [pc_goto]
    exact ⟨hkeeps hholds, hr⟩
  | replaces r =>
    refine ⟨?_, hexclusive hholds⟩
    rw [pc_goto, lock_goto]
    exact ⟨w.inodes, r, rfl, (hkeeps hholds).2⟩

/-- A live process takes one step of its program. -/
theorem inv_advance (hp : Live w p)
    (hG : Harmless hostname w (.advance p)) : Inv hostname (advance hostname w p) :=
  inv_of_ownStep h hp (ownStep_advance hostname w p)
    (fun _ hne hq => lock_advance h hp hG hq hne) (writes_advance h hp hG) (keeps_advance h hp)

/-- A call starts without touching the file. -/
theorem inv_call (hp : Live w p) (hidle : w.pc p = .idle) (call : Call) :
    Inv hostname (w.goto p call.start) := by
  refine inv_of_ownStep h hp (ownStep_goto (.refl w p) _) (fun _ _ _ => rfl) ?_ ?_
  · intro request inode hpc
    rw [pc_goto] at hpc
    cases call <;> cases hpc
  · intro hholds
    refine ⟨?_, fun q hne hq => hne (h.exclusive q p hq ⟨hp, hholds⟩)⟩
    have hkeeps := h.keeps p ⟨hp, hholds⟩
    rw [hidle] at hkeeps
    rw [pc_goto]
    cases call <;> exact hkeeps

/-- A process that dies leaves its file behind. -/
theorem inv_die (p : Pid) : Inv hostname (step hostname w (.die p)) := by
  have hlive {q : Pid} (hq : Live (step hostname w (.die p)) q) : Live w q := by
    refine ⟨hq.1, hq.2.1, ?_⟩
    have halive : Function.update w.alive p false q = true := hq.2.2
    by_cases hne : q = p
    · rw [hne, Function.update_self] at halive
      cases halive
    · rwa [Function.update_of_ne hne] at halive
  exact ⟨fun q hq => h.writes q (hlive hq), fun q q' hq hq' => h.apart q q' (hlive hq) (hlive hq'),
    fun q hq => h.keeps q ⟨hlive hq.1, hq.2⟩,
    fun q q' hq hq' => h.exclusive q q' ⟨hlive hq.1, hq.2⟩ ⟨hlive hq'.1, hq'.2⟩⟩

variable (action : Action)

/-- **One step.** -/
theorem inv_step (hG : Harmless hostname w action) :
    Inv hostname (step hostname w action) := by
  cases action with
  | call p call =>
    simp only [step]
    split
    · rename_i hcall
      exact inv_call h hcall.1 hcall.2 call
    · exact h
  | advance p =>
    simp only [step]
    split
    · rename_i hp
      exact inv_advance h hp hG
    · exact h
  | die p => exact inv_die h p

/-- A step of another process leaves the path as it is while a live process holds the lock. -/
theorem lock_step (hG : Harmless hostname w action)
    (hq : Holder w q) (hne : q ≠ action.actor) : (step hostname w action).lock = w.lock := by
  cases action with
  | call p call =>
    simp only [step]
    split <;> rfl
  | advance p =>
    simp only [step]
    split
    · rename_i hp
      exact lock_advance h hp hG (.inl hq) hne
    · rfl
  | die p => rfl

end

/-! ## Reads and acts -/

/-- The lock file and its processes, with what each process saw when it last read the lock. -/
structure Watched where
  now : World
  seen : Pid → Option LockFile

/-- The places of a process whose next step reads the lock. -/
def Pc.looks : Pc → Bool
  | .acquiring _ | .rereading _ | .updating _ | .releasing => true
  | _ => false

def Watched.see (w : Watched) : Action → Pid → Option LockFile
  | .advance p => if (w.now.pc p).looks then Function.update w.seen p w.now.lock else w.seen
  | _ => w.seen

def Watched.step (hostname : String) (w : Watched) (action : Action) : Watched :=
  ⟨HubLock.step hostname w.now action, w.see action⟩

/-- What came to the path since `p` read it does not name another live process, and no other live
    process is between its create of the file at the path and its write. -/
def Watched.Unchanged (hostname : String) (w : Watched) (p : Pid) : Prop :=
  ∀ file, w.now.lock = some file →
    (w.seen p ≠ some file → ∀ r, file.content = .record r → ¬Contended hostname w.now p r) ∧
    ∀ q, q ≠ p → Live w.now q → ∀ request, w.now.pc q ≠ .writing request file.inode

/-- Nothing stands against the unlink, create or rename of a process that came between its read
    and this step. -/
def Undisturbed (hostname : String) (w : Watched) : Action → Prop
  | .advance p => Live w.now p →
    ((w.now.pc p).takes = true → w.Unchanged hostname p) ∧
      ((w.now.pc p).puts = true → NoGap w.now p)
  | _ => True

/-- **The owner checks**: a process that is about to take the lock away has seen no other live
    process named there. -/
def Watched.Decided (hostname : String) (w : Watched) : Prop :=
  ∀ p, (w.now.pc p).takes = true → ∀ r, readHubLock (w.seen p) = some r →
    ¬Contended hostname w.now p r

section Checks

variable {w : Watched}

theorem contended_of_alive {w w' : World} (halive : ∀ q, w'.alive q = true → w.alive q = true)
    {r : HubLockRecord} (h : Contended hostname w' p r) : Contended hostname w p r := by
  obtain ⟨hhost, hlive, hother⟩ := h
  refine ⟨hhost, ?_, hother⟩
  simp only [isPidAlive, Bool.and_eq_true, Bool.or_eq_true, decide_eq_true_eq] at hlive ⊢
  exact ⟨hlive.1, hlive.2.imp_right (halive r.pid)⟩

/-- What a process decides on is what it reads. -/
theorem decided_advance (w : World) (p : Pid)
    (htakes : ((advance hostname w p).pc p).takes = true) (hidle : w.pc p ≠ .idle) :
    (w.pc p).looks = true ∧
      ∀ r, readHubLock w.lock = some r → ¬Contended hostname w p r := by
  have hstep := stepOf_advance hostname w p
  have hread {r r' : HubLockRecord} (h : readHubLock w.lock = some r)
      (h' : readHubLock w.lock = some r') : r = r' := Option.some.inj (h.symm.trans h')
  generalize w.pc p = pc, advance hostname w p = w' at hstep htakes hidle
  cases hstep with
  | idle => exact absurd rfl hidle
  | stale request r hr hstale =>
    refine ⟨rfl, fun r' hr' hcontended => hstale ?_⟩
    obtain rfl := hread hr hr'
    exact ⟨hcontended.1, hcontended.2.1⟩
  | retries request hr => exact ⟨rfl, hr⟩
  | patches patch r hr hown | owns r hr hown =>
    refine ⟨rfl, fun r' hr' hcontended => hcontended.2.2 ?_⟩
    obtain rfl := hread hr hr'
    exact hown
  | _ =>
    rw [pc_goto] at htakes
    cases htakes

/-- What a process has read before it takes a lock away still names no live holder. -/
theorem decided_step (h : w.Decided hostname) (action : Action) :
    (w.step hostname action).Decided hostname := by
  intro p htakes r hr
  have hkept (w' : Watched) (hpc : w'.now.pc p = w.now.pc p) (hseen : w'.seen p = w.seen p)
      (halive : ∀ q, w'.now.alive q = true → w.now.alive q = true)
      (htakes : (w'.now.pc p).takes = true)
      (hr : readHubLock (w'.seen p) = some r) : ¬Contended hostname w'.now p r :=
    fun hcontended => h p (hpc ▸ htakes) r (hseen ▸ hr) (contended_of_alive halive hcontended)
  cases action with
  | call p' call =>
    simp only [Watched.step, step] at htakes hr ⊢
    split at htakes
    · rename_i hcall
      rw [if_pos hcall]
      by_cases hp : p = p'
      · subst hp
        rw [pc_goto] at htakes
        cases call <;> cases htakes
      · exact hkept ⟨w.now.goto p' call.start, w.seen⟩ (Function.update_of_ne hp _ _) rfl
          (fun _ hq => hq) htakes hr
    · rename_i hcall
      rw [if_neg hcall]
      exact h p htakes r hr
  | advance p' =>
    have hseen (hother : p ≠ p' ∨ (w.now.pc p').looks = false) :
        w.see (.advance p') p = w.seen p := by
      unfold Watched.see
      dsimp only
      split
      · rename_i hlooks
        refine Function.update_of_ne (hother.resolve_right ?_) _ _
        rw [hlooks]
        decide
      · rfl
    by_cases hlive : Live w.now p'
    · have hown := ownStep_advance hostname w.now p'
      simp only [Watched.step, step, if_pos hlive] at htakes hr ⊢
      by_cases hp : p = p'
      · subst hp
        have hidle : w.now.pc p ≠ .idle := by
          intro hidle
          rw [advance, hidle] at htakes
          simp only [hidle] at htakes
          cases htakes
        obtain ⟨hlooks, hread⟩ := decided_advance w.now p htakes hidle
        simp only [Watched.see, if_pos hlooks, Function.update_self] at hr
        exact fun hcontended => hread r hr
          (contended_of_alive (fun q hq => hown.alive ▸ hq) hcontended)
      · exact hkept ⟨advance hostname w.now p', w.see (.advance p')⟩ (hown.pc p hp)
          (hseen (.inl hp)) (fun q hq => hown.alive ▸ hq) htakes hr
    · simp only [Watched.step, step, if_neg hlive] at htakes hr ⊢
      refine hkept ⟨w.now, w.see (.advance p')⟩ rfl (hseen ?_) (fun _ hq => hq) htakes hr
      -- a process does not read and take in one step
      by_cases hp : p = p'
      · subst hp
        refine .inr ?_
        generalize w.now.pc p = pc at htakes
        cases pc <;> first | rfl | cases htakes
      · exact .inl hp
  | die p' =>
    refine hkept (w.step hostname (.die p')) rfl rfl (fun q hq => ?_) htakes hr
    by_cases hq' : q = p'
    · subst hq'
      simp [Watched.step, step] at hq
    · simpa [Watched.step, step, Function.update_of_ne hq'] using hq

theorem harmless_of_undisturbed (h : w.Decided hostname) {action : Action}
    (hG : Undisturbed hostname w action) : Harmless hostname w.now action := by
  cases action with
  | advance p =>
    intro hp
    obtain ⟨htakes, hputs⟩ := hG hp
    refine ⟨fun ht file hlock => ⟨fun r hr => ?_, (htakes ht file hlock).2⟩, hputs⟩
    by_cases hseen : w.seen p = some file
    · refine h p ht r ?_
      rw [hseen]
      obtain ⟨inode, content⟩ := file
      subst hr
      rfl
    · exact (htakes ht file hlock).1 hseen r hr
  | call | die => trivial

end Checks

/-! ## Whole runs -/

variable (hostname w) in
/-- No process is inside a call, and one that holds the lock is named there; the lock may also be
    absent, stale, garbled, or that of a live process that makes no call. -/
structure Start : Prop where
  idle : ∀ p, w.pc p = .idle
  named : ∀ p, Holder w p → Names hostname w.lock p

theorem Start.inv (h : Start hostname w) : Inv hostname w where
  writes := fun q _ request inode hpc => by rw [h.idle q] at hpc; cases hpc
  apart := fun p _ _ _ hp => by rw [h.idle p] at hp; cases hp
  keeps := fun q hq => by
    rw [h.idle q]
    exact h.named q hq
  exclusive := fun p q hp hq => by
    obtain ⟨r, hread, hpid, -⟩ := readHubLock_of_names (h.named p hp)
    obtain ⟨r', hread', hpid', -⟩ := readHubLock_of_names (h.named q hq)
    obtain rfl : r = r' := Option.some.inj (hread.symm.trans hread')
    exact hpid.symm.trans hpid'

/-- Nobody has read the lock yet. -/
def Watched.start (w : World) : Watched := ⟨w, fun _ => none⟩

/-- **Mutual exclusion.** Where nothing comes between the read and the act of a process that stands
    against the act, at most one live process holds the lock, and no step of another process
    touches it. -/
theorem exclusion_of_run (hs : Start hostname w) (actions : List Action)
    (hG : Guarded (Watched.step hostname) (Undisturbed hostname) (.start w) actions) :
    (∀ p q, Holder (exec (Watched.step hostname) (.start w) actions).now p →
      Holder (exec (Watched.step hostname) (.start w) actions).now q → p = q) ∧
    ∀ pre action post, actions = pre ++ action :: post → ∀ q,
      Holder (exec (Watched.step hostname) (.start w) pre).now q → q ≠ action.actor →
      (exec (Watched.step hostname) (.start w) (pre ++ [action])).now.lock =
        (exec (Watched.step hostname) (.start w) pre).now.lock := by
  have hstart : Inv hostname w ∧ (Watched.start w).Decided hostname :=
    ⟨hs.inv, fun p _ r hr => by cases hr⟩
  have hinv {actions : List Action}
      (hG : Guarded (Watched.step hostname) (Undisturbed hostname) (.start w) actions) :
      Inv hostname (exec (Watched.step hostname) (.start w) actions).now ∧
        (exec (Watched.step hostname) (.start w) actions).Decided hostname :=
    exec_invariant_of_guarded (I := fun w => Inv hostname w.now ∧ w.Decided hostname)
      (fun w action h hG => ⟨inv_step h.1 action (harmless_of_undisturbed h.2 hG),
        decided_step h.2 action⟩) hstart hG
  refine ⟨(hinv hG).1.exclusive, ?_⟩
  rintro pre action post rfl q hq hne
  obtain ⟨hpre, hrest⟩ := (guarded_append _ _ _ _ _).mp hG
  rw [exec_append]
  exact lock_step (hinv hpre).1 action (harmless_of_undisturbed (hinv hpre).2 hrest.1) hq hne

/-- A dead hub has left its lock; two processes run. -/
def staleWorld : World where
  lock := some ⟨0, .record ⟨99, some 3456, none, "before", "host"⟩⟩
  inodes := 1
  alive := fun p => p = 1 || p = 2
  pc := fun _ => .idle
  holds := fun _ => false

theorem start_staleWorld : Start "host" staleWorld :=
  ⟨fun _ => rfl, fun p hp => by simp [Holder, staleWorld] at hp⟩

/-- One clears the stale lock and takes it; the other reads it afterwards. -/
def oneByOne : List Action :=
  [.call 1 (.acquire { startedAt := "now" }), .advance 1, .advance 1, .advance 1, .advance 1,
    .call 2 (.acquire { startedAt := "now" }), .advance 2]

theorem undisturbed_of_alone {w : Watched} (hidle : ∀ q, q ≠ p → w.now.pc q = .idle)
    (hholds : ∀ q, q ≠ p → w.now.holds q = false)
    (hread : ∀ r, readHubLock w.now.lock = some r → ¬Contended hostname w.now p r) :
    Undisturbed hostname w (.advance p) := by
  intro _
  refine ⟨fun _ file hlock => ⟨fun _ r hr => hread r ?_, fun q hne _ request hpc => ?_⟩,
    fun _ _ q hne hq => ?_⟩
  · obtain ⟨inode, content⟩ := file
    subst hr
    rw [hlock]
    rfl
  · rw [hidle q hne] at hpc
    cases hpc
  · have hnot := hholds q hne
    rw [hq.2] at hnot
    cases hnot

theorem undisturbed_oneByOne :
    Guarded (Watched.step "host") (Undisturbed "host") (.start staleWorld) oneByOne := by
  have hothers {q : Pid} (hne : q ≠ 1) (pc : Pc) (others : Pid → Pc)
      (hidle : others q = .idle) : Function.update others 1 pc q = .idle := by
    rw [Function.update_of_ne hne, hidle]
  refine ⟨trivial, ?_, ?_, ?_, ?_, trivial, ?_, trivial⟩
  · refine undisturbed_of_alone (fun q hne => ?_) (fun _ _ => rfl) ?_
    · exact hothers hne _ _ rfl
    · rintro r ⟨⟩
      decide
  · refine undisturbed_of_alone (fun q hne => ?_) (fun _ _ => rfl) ?_
    · exact hothers hne _ _ (hothers hne _ _ rfl)
    · rintro r ⟨⟩
      decide
  · refine undisturbed_of_alone (fun q hne => ?_) (fun _ _ => rfl) ?_
    · exact hothers hne _ _ (hothers hne _ _ (hothers hne _ _ rfl))
    · rintro r ⟨⟩
  · refine undisturbed_of_alone (fun q hne => ?_) (fun _ _ => rfl) ?_
    · exact hothers hne _ _ (hothers hne _ _ (hothers hne _ _ (hothers hne _ _ rfl)))
    · rintro r ⟨⟩
  · intro _
    exact ⟨(fun h => by cases h), (fun h => by cases h)⟩

theorem exclusion_oneByOne :
    Holder (exec (Watched.step "host") (.start staleWorld) oneByOne).now 1 ∧
      ∀ p, Holder (exec (Watched.step "host") (.start staleWorld) oneByOne).now p → p = 1 := by
  have hholder : Holder (exec (Watched.step "host") (.start staleWorld) oneByOne).now 1 := by decide
  exact ⟨hholder, fun p hp =>
    (exclusion_of_run start_staleWorld oneByOne undisturbed_oneByOne).1 p 1 hp hholder⟩

/-- Both read the stale lock, and the slower one removes the lock of the faster. -/
theorem two_hubs_of_one_stale_lock :
    Start "host" staleWorld ∧
    let w := exec (step "host") staleWorld
      [.call 1 (.acquire { startedAt := "now" }), .call 2 (.acquire { startedAt := "now" }),
        .advance 1, .advance 2, .advance 2, .advance 2, .advance 2,
        .advance 1, .advance 1, .advance 1]
    Holder w 1 ∧ Holder w 2 :=
  ⟨start_staleWorld, by decide⟩

end RelayIde.HubLock
