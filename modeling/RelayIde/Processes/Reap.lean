import Mathlib.Data.List.Sort
import RelayIde.Library.ParentLinks

/-!
# Reaping Process Trees

Which processes Relay signals when a session ends (`server/process-tree.ts`).  The tree below some
roots is captured once; it is signalled with `SIGTERM` and, after a delay, with `SIGKILL`, each time
checked against the process table of that moment.

- `reap_of_tree` — whom a reap signals, and when it spares Relay itself
-/

namespace RelayIde.Processes

open RelayIde.Library List

/-! ## Process tables -/

inductive LanguageServerKind
  | tsserver | typescriptLanguageServer | pyright

/-- `ProcessInfo`, less its command and what is accounted elsewhere. -/
structure ProcessInfo where
  pid : ℕ
  ppid : ℕ
  pgid : ℕ
  commandLine : String := ""
  rssBytes : ℕ := 0
  /-- The start time, which tells a process from a later one with its pid. -/
  startTicks : Option ℕ := none
  languageServerKind : Option LanguageServerKind := none

abbrev ProcessTable := List ProcessInfo

/-- `new Map(table.map((proc) => [proc.pid, proc])).get(pid)`: the last entry of a pid. -/
def byPid (table : ProcessTable) (pid : ℕ) : Option ProcessInfo :=
  table.reverse.find? fun proc => decide (proc.pid = pid)

/-- A captured process and one with its pid may be the same. -/
def sameStart (before now : ProcessInfo) : Bool :=
  match before.startTicks, now.startTicks with
  | some captured, some current => decide (captured = current)
  | _, _ => true

/-- The processes below a root: the search ends within as many rounds as the table has entries. -/
def descendantsOf (rootPid : ℕ) (table : ProcessTable) : List ProcessInfo :=
  (ParentLinks.walk (·.pid) (·.ppid) table table.length [rootPid]
    (ParentLinks.children (·.ppid) table rootPid) []).getD []

/-- Parent links lead from the first pid down to the second. -/
abbrev Below (table : ProcessTable) : ℕ → ℕ → Prop :=
  ParentLinks.Descends (·.pid) (·.ppid) table

/-! ## The reap -/

/-- Relay's own process, and the group it belongs to. -/
structure Relay where
  pid : ℕ
  pgid : ℕ

def maxSafeInteger : ℕ := 2 ^ 53 - 1

def uniqueSafePids (relay : Relay) (pids : List ℕ) : List ℕ :=
  (pids.eraseDups.filter fun pid =>
    decide (pid ≤ maxSafeInteger) && decide (pid > 1) && decide (pid ≠ relay.pid)).insertionSort
      (· ≤ ·)

structure LanguageServer where
  pid : ℕ
  kind : LanguageServerKind
  rssBytes : ℕ
  commandLine : String

structure ProcessReapSummary where
  rootPids : List ℕ
  descendantPids : List ℕ
  processGroupIds : List ℕ
  languageServers : List LanguageServer

def leadsGroup (relay : Relay) (proc : ProcessInfo) : Bool :=
  decide (proc.pgid = proc.pid) && decide (proc.pgid ≠ relay.pid)

def groupsBelow (relay : Relay) (table : ProcessTable) (rootPid : ℕ) : List ℕ :=
  (((byPid table rootPid).toList ++ descendantsOf rootPid table).filter (leadsGroup relay)).map
    (·.pgid)

def summarizeProcessReap (relay : Relay) (rootPids : List ℕ) (table : ProcessTable) :
    ProcessReapSummary :=
  let cleanRoots := uniqueSafePids relay rootPids
  let below := cleanRoots.flatMap fun rootPid => descendantsOf rootPid table
  let descendantPids := (below.map (·.pid)).eraseDups.insertionSort (· ≤ ·)
  { rootPids := cleanRoots
    descendantPids := descendantPids
    processGroupIds :=
      (cleanRoots.flatMap (groupsBelow relay table)).eraseDups.insertionSort (· ≤ ·)
    languageServers := descendantPids.filterMap fun pid => do
      let proc ← byPid below pid
      let kind ← proc.languageServerKind
      pure ⟨proc.pid, kind, proc.rssBytes, proc.commandLine⟩ }

structure ReapInput where
  rootPids : List ℕ
  processGroupIds : List ℕ
  table : ProcessTable

inductive Signal
  | sigterm
  | sigkill
deriving DecidableEq

/-- Whom `kill` addresses: a process, or by its negative id a group. -/
inductive Target
  | pid (pid : ℕ)
  | group (pgid : ℕ)
deriving DecidableEq

def knownPids (relay : Relay) (input : ReapInput) : List ℕ :=
  let summary := summarizeProcessReap relay input.rootPids input.table
  (summary.rootPids ++ summary.descendantPids).eraseDups

def processGroupIds (relay : Relay) (input : ReapInput) : List ℕ :=
  let summary := summarizeProcessReap relay input.rootPids input.table
  (summary.processGroupIds ++ uniqueSafePids relay input.processGroupIds).eraseDups

def groupRemains (captured table : ProcessTable) (pgid : ℕ) : Bool :=
  captured.any fun before =>
    decide (before.pgid = pgid) &&
      match byPid table before.pid with
      | none => false
      | some now => decide (now.pgid = pgid) && sameStart before now

def liveProcessGroups (groupIds : List ℕ) (captured table : ProcessTable) : List ℕ :=
  groupIds.filter (groupRemains captured table)

def pidRemains (captured current : ProcessTable) (pid : ℕ) : Bool :=
  match byPid captured pid, byPid current pid with
  | some before, some now => sameStart before now
  | _, _ => false

def liveCapturedPids (capturedPids : List ℕ) (captured current : ProcessTable) : List ℕ :=
  capturedPids.filter (pidRemains captured current)

def signalProcessGroups (groupIds : List ℕ) (signal : Signal) : List (Target × Signal) :=
  groupIds.map fun pgid => (.group pgid, signal)

def signalPids (relay : Relay) (pids : List ℕ) (signal : Signal) : List (Target × Signal) :=
  ((pids.filter fun pid => decide (pid > 1) && decide (pid ≠ relay.pid)).insertionSort
    (· ≥ ·)).map fun pid => (.pid pid, signal)

/-- The signals of one kind, checked against the table of the moment. -/
def signalTree (relay : Relay) (input : ReapInput) (signal : Signal) (table : ProcessTable) :
    List (Target × Signal) :=
  signalProcessGroups (liveProcessGroups (processGroupIds relay input) input.table table) signal ++
    signalPids relay (liveCapturedPids (knownPids relay input) input.table table) signal

/-- `current` is the table at `SIGTERM` time, `refreshed` the one at `SIGKILL` time. -/
def scheduleRelayProcessTreeReap (relay : Relay) (input : ReapInput)
    (current refreshed : ProcessTable) : ProcessReapSummary × List (Target × Signal) :=
  let summary := summarizeProcessReap relay input.rootPids input.table
  if (knownPids relay input).isEmpty && (processGroupIds relay input).isEmpty then (summary, [])
  else
    (summary,
      signalTree relay input .sigterm current ++ signalTree relay input .sigkill refreshed)

/-! ## Whom a reap signals -/

/-- What `descendantsOf` finds of a table, whatever its links. -/
structure FindsDescendants (rootPid : ℕ) (table : ProcessTable) : Prop where
  ends : (ParentLinks.walk (·.pid) (·.ppid) table table.length [rootPid]
    (ParentLinks.children (·.ppid) table rootPid) []).isSome = true
  once : ((descendantsOf rootPid table).map (·.pid)).Nodup
  captured : ∀ proc ∈ descendantsOf rootPid table, proc ∈ table
  reachable : ∀ pid, pid ∈ (descendantsOf rootPid table).map (·.pid) ↔
    pid ≠ rootPid ∧ Below table rootPid pid

theorem findsDescendants (rootPid : ℕ) (table : ProcessTable) : FindsDescendants rootPid table := by
  obtain ⟨found, hwalk, hnodup, hentries, hiff⟩ := ParentLinks.walk_spec ProcessInfo.pid
    ProcessInfo.ppid table rootPid le_rfl
  have hfound : descendantsOf rootPid table = found := by
    unfold descendantsOf
    rw [hwalk]
    rfl
  refine ⟨by rw [hwalk]; rfl, ?_, ?_, ?_⟩
  all_goals rw [hfound]
  · exact hnodup
  · exact hentries
  · exact hiff

/-- A root, or a process below one. -/
def Owned (relay : Relay) (input : ReapInput) (pid : ℕ) : Prop :=
  ∃ root ∈ uniqueSafePids relay input.rootPids, pid = root ∨ Below input.table root pid

variable {relay : Relay} {input : ReapInput} {pid pgid : ℕ} {table : ProcessTable} {signal : Signal}
  {target : Target}

theorem owned_of_known (h : pid ∈ knownPids relay input) : Owned relay input pid := by
  unfold knownPids summarizeProcessReap at h
  rw [mem_eraseDups, mem_append] at h
  rcases h with h | h
  · exact ⟨pid, h, .inl rfl⟩
  · rw [mem_insertionSort, mem_eraseDups] at h
    obtain ⟨proc, hproc, rfl⟩ := mem_map.mp h
    obtain ⟨root, hroot, hproc⟩ := mem_flatMap.mp hproc
    have hbelow := ((findsDescendants root input.table).reachable proc.pid).mp
      (mem_map_of_mem hproc)
    exact ⟨root, hroot, .inr hbelow.2⟩

/-- A group that the reap is about: a root or a process below one leads it, or it was given. -/
def Led (relay : Relay) (input : ReapInput) (pgid : ℕ) : Prop :=
  (∃ root ∈ uniqueSafePids relay input.rootPids, ∃ proc,
    (byPid input.table root = some proc ∨ proc ∈ descendantsOf root input.table) ∧
      proc.pid = pgid ∧ proc.pgid = pgid ∧ pgid ≠ relay.pid) ∨
  pgid ∈ uniqueSafePids relay input.processGroupIds

theorem mem_processGroupIds : pgid ∈ processGroupIds relay input ↔ Led relay input pgid := by
  unfold processGroupIds summarizeProcessReap Led
  rw [mem_eraseDups, mem_append, mem_insertionSort, mem_eraseDups, mem_flatMap]
  refine or_congr_left (exists_congr fun root => and_congr_right fun _ => ?_)
  unfold groupsBelow leadsGroup
  simp only [mem_map, mem_filter, mem_append, Option.mem_toList, Bool.and_eq_true,
    decide_eq_true_eq]
  constructor
  · rintro ⟨proc, ⟨hproc, hleads, hrelay⟩, rfl⟩
    exact ⟨proc, hproc, hleads.symm, rfl, hrelay⟩
  · rintro ⟨proc, hproc, hpid, hpgid, hrelay⟩
    exact ⟨proc, ⟨hproc, hpgid.trans hpid.symm, hpgid ▸ hrelay⟩, hpgid⟩

/-- A captured process of the group holds its pid and its group still. -/
def Remains (captured table : ProcessTable) (pgid : ℕ) : Prop :=
  ∃ before ∈ captured, before.pgid = pgid ∧
    ∃ now, byPid table before.pid = some now ∧ now.pgid = pgid ∧ sameStart before now = true

theorem groupRemains_iff {captured : ProcessTable} :
    groupRemains captured table pgid = true ↔ Remains captured table pgid := by
  unfold groupRemains Remains
  rw [any_eq_true]
  refine exists_congr fun before => and_congr_right fun _ => ?_
  rw [Bool.and_eq_true, decide_eq_true_eq]
  refine and_congr_right fun _ => ?_
  cases byPid table before.pid with
  | none | some now => simp

/-- The target was captured, and the process that holds it now may be the captured one. -/
def Target.Justified (relay : Relay) (input : ReapInput) (table : ProcessTable) : Target → Prop
  | .pid id => Owned relay input id ∧ ∃ before now, byPid input.table id = some before ∧
      byPid table id = some now ∧ sameStart before now = true
  | .group pgid => Remains input.table table pgid

def Target.Spares (relay : Relay) : Target → Prop
  | .pid id => id ≠ 0 ∧ id ≠ 1 ∧ id ≠ relay.pid
  | .group pgid => pgid ≠ 0 ∧ pgid ≠ 1 ∧ pgid ≠ relay.pgid

theorem group_mem_signalTree :
    (.group pgid, signal) ∈ signalTree relay input signal table ↔
      Led relay input pgid ∧ Remains input.table table pgid := by
  unfold signalTree signalProcessGroups signalPids liveProcessGroups
  rw [mem_append, mem_map, mem_map, ← mem_processGroupIds, ← groupRemains_iff]
  constructor
  · rintro (⟨id, hid, heq⟩ | ⟨id, -, heq⟩)
    · cases heq
      exact mem_filter.mp hid
    · cases heq
  · intro h
    exact .inl ⟨pgid, mem_filter.mpr h, rfl⟩

variable {signal' : Signal}

theorem pid_of_mem_signalTree
    (h : (.pid pid, signal') ∈ signalTree relay input signal table) :
    (pid ∈ knownPids relay input ∧ pidRemains input.table table pid = true) ∧
      1 < pid ∧ pid ≠ relay.pid := by
  unfold signalTree signalProcessGroups signalPids liveCapturedPids at h
  rcases mem_append.mp h with h | h
  · obtain ⟨id, -, heq⟩ := mem_map.mp h
    cases heq
  · obtain ⟨id, hid, heq⟩ := mem_map.mp h
    cases heq
    rw [mem_insertionSort, mem_filter, mem_filter] at hid
    exact ⟨hid.1, by simpa using hid.2⟩

theorem signal_of_mem
    (h : (target, signal') ∈ signalTree relay input signal table) : signal' = signal := by
  rcases mem_append.mp h with h | h
  · obtain ⟨id, -, heq⟩ := mem_map.mp h
    cases heq
    rfl
  · obtain ⟨id, -, heq⟩ := mem_map.mp h
    cases heq
    rfl

theorem justified_of_mem
    (h : (target, signal') ∈ signalTree relay input signal table) :
    target.Justified relay input table := by
  cases target with
  | pid pid =>
    obtain ⟨⟨hknown, hremains⟩, -⟩ := pid_of_mem_signalTree h
    refine ⟨owned_of_known hknown, ?_⟩
    unfold pidRemains at hremains
    split at hremains
    · rename_i before now hbefore hnow
      exact ⟨before, now, hbefore, hnow, hremains⟩
    · cases hremains
  | group pgid =>
    obtain rfl := signal_of_mem h
    exact (group_mem_signalTree.mp h).2

theorem mem_schedule {current refreshed : ProcessTable} {sent : Target × Signal} :
    sent ∈ (scheduleRelayProcessTreeReap relay input current refreshed).2 ↔
      sent ∈ signalTree relay input .sigterm current ∨
        sent ∈ signalTree relay input .sigkill refreshed := by
  unfold scheduleRelayProcessTreeReap
  split_ifs with hnone
  · -- nothing is known, so nothing would be signalled
    rw [Bool.and_eq_true, List.isEmpty_iff, List.isEmpty_iff] at hnone
    simp [signalTree, signalProcessGroups, signalPids, liveProcessGroups, liveCapturedPids, hnone]
  · exact mem_append

/-- **Reaping**: the search finds what descends from a root; a reap signals captured processes and
    groups only, and spares Relay and all processes at large exactly if it is about no group that is
    0, 1 or Relay's own. -/
theorem reap_of_tree (relay : Relay) (input : ReapInput) (current refreshed : ProcessTable) :
    (∀ rootPid, FindsDescendants rootPid input.table) ∧ (∀ target signal, (target, signal) ∈
        (scheduleRelayProcessTreeReap relay input current refreshed).2 →
      (signal = .sigterm ∧ target.Justified relay input current ∨
        signal = .sigkill ∧ target.Justified relay input refreshed)) ∧
    ((∀ target signal, (target, signal) ∈
        (scheduleRelayProcessTreeReap relay input current refreshed).2 → target.Spares relay) ↔
      ∀ pgid, pgid = 0 ∨ pgid = 1 ∨ pgid = relay.pgid → Led relay input pgid →
        ¬Remains input.table current pgid ∧ ¬Remains input.table refreshed pgid) := by
  refine ⟨fun rootPid => findsDescendants rootPid input.table, fun target signal h => ?_,
    fun hspares pgid hgroup hled => ?_, fun hsafe target signal h => ?_⟩
  · rcases mem_schedule.mp h with h | h
    · exact .inl ⟨signal_of_mem h, justified_of_mem h⟩
    · exact .inr ⟨signal_of_mem h, justified_of_mem h⟩
  · have hnot (signal : Signal) (h : (Target.group pgid, signal) ∈
        (scheduleRelayProcessTreeReap relay input current refreshed).2) : False := by
      obtain ⟨hzero, hone, hown⟩ := hspares _ _ h
      rcases hgroup with hgroup | hgroup | hgroup
      · exact hzero hgroup
      · exact hone hgroup
      · exact hown hgroup
    constructor
    · intro hremains
      exact hnot .sigterm (mem_schedule.mpr (.inl (group_mem_signalTree.mpr ⟨hled, hremains⟩)))
    · intro hremains
      exact hnot .sigkill (mem_schedule.mpr (.inr (group_mem_signalTree.mpr ⟨hled, hremains⟩)))
  · have hboth (signal' : Signal) (table : ProcessTable)
        (htable : ∀ pgid, pgid = 0 ∨ pgid = 1 ∨ pgid = relay.pgid → Led relay input pgid →
          ¬Remains input.table table pgid)
        (h : (target, signal) ∈ signalTree relay input signal' table) : target.Spares relay := by
      cases target with
      | pid id =>
        obtain ⟨-, hpos, hown⟩ := pid_of_mem_signalTree h
        exact ⟨by omega, by omega, hown⟩
      | group pgid =>
        obtain rfl := signal_of_mem h
        obtain ⟨hled, hremains⟩ := group_mem_signalTree.mp h
        exact ⟨fun hzero => htable pgid (.inl hzero) hled hremains,
          fun hone => htable pgid (.inr (.inl hone)) hled hremains,
          fun hown => htable pgid (.inr (.inr hown)) hled hremains⟩
    rcases mem_schedule.mp h with h | h
    · exact hboth .sigterm current (fun pgid hgroup hled => (hsafe pgid hgroup hled).1) h
    · exact hboth .sigkill refreshed (fun pgid hgroup hled => (hsafe pgid hgroup hled).2) h

def leaderOfRelay : ReapInput :=
  { rootPids := [90]
    processGroupIds := []
    table :=
      [⟨90, 1, 90, "npm start", 0, some 5, none⟩, ⟨100, 90, 90, "relay-ide", 0, some 6, none⟩] }

/-- The group that Relay belongs to is signalled, Relay with it. -/
theorem reap_signals_relay :
    ∃ signal, (Target.group 90, signal) ∈
      (scheduleRelayProcessTreeReap ⟨100, 90⟩ leaderOfRelay leaderOfRelay.table
        leaderOfRelay.table).2 ∧ ¬(Target.group 90).Spares ⟨100, 90⟩ :=
  ⟨.sigterm, by decide, fun h => h.2.2 rfl⟩

end RelayIde.Processes
