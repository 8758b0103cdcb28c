import Mathlib.Data.Int.Notation
import Mathlib.Logic.Function.Basic
import RelayIde.Library.Machine

/-!
# The Hub Lock

The file `hub.lock` of a config dir and the processes of one host that contend for it
(`server/hub-lock.ts`).  A call is a sequence of single file-system steps; those of different
processes interleave, and a process may die between any two of its own.

- `step` — calls, steps and deaths
-/

namespace RelayIde.HubLock

/-! ## The lock file -/

/-- A process id, as a lock file may give it. -/
abbrev Pid := ℤ

structure HubLockRecord where
  pid : Pid
  port : Option ℕ
  host : Option String
  startedAt : String
  hostname : String
deriving DecidableEq

/-- A file without the fields of a record reads as none; so does one that is not written yet. -/
inductive Content
  | garbled
  | record (r : HubLockRecord)

/-- A writer keeps to the file it created, whatever the path names meanwhile. -/
structure LockFile where
  inode : ℕ
  content : Content

def readHubLock : Option LockFile → Option HubLockRecord
  | some ⟨_, .record r⟩ => some r
  | _ => none

/-- What `acquireHubLockOrThrow` is called with. -/
structure Request where
  port : Option ℕ := none
  host : Option String := none
  startedAt : String
deriving DecidableEq

/-- What `updateHubLockBestEffort` is called with; a field may be left out. -/
structure Patch where
  port : Option (Option ℕ) := none
  host : Option (Option String) := none
deriving DecidableEq

def Patch.apply (patch : Patch) (r : HubLockRecord) : HubLockRecord :=
  { r with port := patch.port.getD r.port, host := patch.host.getD r.host }

/-! ## Processes -/

/-- The file-system step a process takes next. -/
inductive Pc
  | idle
  /-- `acquireHubLockOrThrow` reads the lock. -/
  | acquiring (request : Request)
  /-- It removes a stale lock. -/
  | clearing (request : Request)
  /-- It creates the lock exclusively. -/
  | creating (request : Request)
  /-- It writes the file it has created. -/
  | writing (request : Request) (inode : ℕ)
  /-- The create failed: it reads the lock again. -/
  | rereading (request : Request)
  | reclearing (request : Request)
  | recreating (request : Request)
  /-- It reads the lock to name the owner, and throws. -/
  | refusing
  | updating (patch : Patch)
  /-- `updateHubLockBestEffort` renames the file it has written over the lock. -/
  | replacing (record : HubLockRecord)
  | releasing
  | unlinking
deriving DecidableEq

/-- The lock, the processes, and which of them have returned from an acquire and not released. -/
structure World where
  lock : Option LockFile
  inodes : ℕ
  alive : Pid → Bool
  pc : Pid → Pc
  holds : Pid → Bool

def maxSafeInteger : ℤ := 9007199254740991

variable (hostname : String) (w : World)

/-- As process `p` sees it. -/
def isPidAlive (p pid : Pid) : Bool :=
  (-maxSafeInteger ≤ pid ∧ pid ≤ maxSafeInteger ∧ 0 < pid) && (pid = p || w.alive pid)

/-- The record names a live process of this host, other than `p`. -/
def Contended (p : Pid) (r : HubLockRecord) : Prop :=
  r.hostname = hostname ∧ isPidAlive w p r.pid = true ∧ r.pid ≠ p

instance (p : Pid) (r : HubLockRecord) : Decidable (Contended hostname w p r) :=
  inferInstanceAs (Decidable (_ ∧ _))

/-- A running process: it has a process id, and has not died. -/
def Live (p : Pid) : Prop := 0 < p ∧ p ≤ maxSafeInteger ∧ w.alive p = true

instance (p : Pid) : Decidable (Live w p) := inferInstanceAs (Decidable (_ ∧ _))

namespace World

def goto (p : Pid) (pc : Pc) : World := { w with pc := Function.update w.pc p pc }

def unlink : World := { w with lock := none }

def create (content : Content) : World :=
  { w with lock := some ⟨w.inodes, content⟩, inodes := w.inodes + 1 }

/-- A write to a file that may have lost its name. -/
def write (inode : ℕ) (content : Content) : World :=
  { w with lock := w.lock.map fun file => if file.inode = inode then ⟨inode, content⟩ else file }

def setHolds (p : Pid) (holds : Bool) : World :=
  { w with holds := Function.update w.holds p holds }

end World

/-- The first step of an acquire: give way, clear a stale lock, or go on to create. -/
def acquire (p : Pid) (request : Request) : World :=
  match readHubLock w.lock with
  | none => w.goto p (.creating request)
  | some existing =>
    if existing.hostname = hostname ∧ isPidAlive w p existing.pid = true then
      if existing.pid ≠ p then w.goto p .idle else w.goto p (.creating request)
    else w.goto p (.clearing request)

/-- The exclusive create, and where it leads if the lock exists. -/
def createLock (p : Pid) (request : Request) (failed : Pc) : World :=
  match w.lock with
  | some _ => w.goto p failed
  | none => (w.create .garbled).goto p (.writing request w.inodes)

/-- The second look, after the create has failed. -/
def reread (p : Pid) (request : Request) : World :=
  match readHubLock w.lock with
  | none => w.goto p (.reclearing request)
  | some raced =>
    if Contended hostname w p raced then w.goto p .idle else w.goto p (.reclearing request)

def update (p : Pid) (patch : Patch) : World :=
  match readHubLock w.lock with
  | none => w.goto p .idle
  | some current =>
    if current.pid ≠ p then w.goto p .idle else w.goto p (.replacing (patch.apply current))

def release (p : Pid) : World :=
  match readHubLock w.lock with
  | none => w.goto p .idle
  | some current => if current.pid ≠ p then w.goto p .idle else w.goto p .unlinking

/-- The next file-system step of a process. -/
def advance (p : Pid) : World :=
  match w.pc p with
  | .idle => w
  | .acquiring request => acquire hostname w p request
  | .clearing request => w.unlink.goto p (.creating request)
  | .creating request => createLock w p request (.rereading request)
  | .writing request inode =>
    ((w.write inode (.record
      { request with pid := p, hostname := hostname })).setHolds p true).goto p .idle
  | .rereading request => reread hostname w p request
  | .reclearing request =>
    -- An unlink that finds nothing throws here.
    match w.lock with
    | none => w.goto p .refusing
    | some _ => w.unlink.goto p (.recreating request)
  | .recreating request => createLock w p request .refusing
  | .refusing => w.goto p .idle
  | .updating patch => update w p patch
  | .replacing record => (w.create (.record record)).goto p .idle
  | .releasing => release w p
  | .unlinking => (w.unlink.setHolds p false).goto p .idle

/-! ## Runs -/

inductive Call
  | acquire (request : Request)
  | update (patch : Patch)
  | release

def Call.start : Call → Pc
  | .acquire request => .acquiring request
  | .update patch => .updating patch
  | .release => .releasing

inductive Action
  | call (p : Pid) (call : Call)
  | advance (p : Pid)
  | die (p : Pid)

def Action.actor : Action → Pid
  | .call p _ | .advance p | .die p => p

def step : Action → World
  | .call p call => if Live w p ∧ w.pc p = .idle then w.goto p call.start else w
  | .advance p => if Live w p then advance hostname w p else w
  | .die p => { w with alive := Function.update w.alive p false }

/-- A live process that has returned from an acquire and not released. -/
def Holder (p : Pid) : Prop := Live w p ∧ w.holds p = true

instance (p : Pid) : Decidable (Holder w p) := inferInstanceAs (Decidable (_ ∧ _))

end RelayIde.HubLock
