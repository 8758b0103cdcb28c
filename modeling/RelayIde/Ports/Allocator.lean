import RelayIde.Library.Machine
import RelayIde.Library.Text

/-!
# Port Allocator

The ports of worktree variables (`server/port-allocator.ts`).  The allocator keeps a list of
assignments in memory; its asynchronous calls read that list, await a probe of the operating
system and write afterwards, and several of them may be under way at once.

Assignments are objects that the calls share and `initialize` changes in place, and the list is
an array that `push` extends and a filter replaces; both have an identity here.

- `Op`, `Allocator.step` — the sections between awaits as a state machine
-/

namespace RelayIde.Ports

open RelayIde.Library

/-! ## Variables and ports -/

/-- `PortAssignment`, less the time of its last verification. -/
structure PortAssignment where
  repoId : String
  worktreeId : String
  variableName : String
  port : ℕ
  deriving Inhabited

/-- What an assignment is looked up by. -/
def PortAssignment.key (a : PortAssignment) : String × String × String :=
  (a.repoId, a.worktreeId, a.variableName)

def portRangeStart : ℕ := 10000
def overflowRangeEnd : ℕ := 12000

/-- `/^[A-Z][A-Z0-9_]*$/`. -/
def isVariableName (name : String) : Bool :=
  match name.toList with
  | [] => false
  | first :: rest =>
    (decide ('A' ≤ first) && decide (first ≤ 'Z')) && rest.all fun c =>
      (decide ('A' ≤ c) && decide (c ≤ 'Z')) || (decide ('0' ≤ c) && decide (c ≤ '9')) ||
        decide (c = '_')

def sanitizeOptionalPortVariables (variableNames : List String) : List String :=
  ((variableNames.map Text.trim).filter isVariableName).foldl
    (fun seen name => if name ∈ seen then seen else seen ++ [name]) []

def normalizePortVariables (variableNames : List String) : List String :=
  let normalized := sanitizeOptionalPortVariables variableNames
  if normalized.isEmpty then ["PORT"] else normalized

/-- What `findAvailablePort` awaits. -/
inductive Search where
  /-- `getPort({ port })`. -/
  | probing (port : ℕ)
  /-- `getPort()`, once both ranges are exhausted. -/
  | asking

/-- The first unused port among the next `n`. -/
def nextSearch (usedPorts : List ℕ) : ℕ → ℕ → Search
  | 0, _ => .asking
  | n + 1, port =>
    if port ∈ usedPorts then nextSearch usedPorts n (port + 1) else .probing port

/-- The loops of `findAvailablePort` from `port` on. -/
def findAvailablePort (usedPorts : List ℕ) (port : ℕ) : Search :=
  nextSearch usedPorts (overflowRangeEnd - port) port

/-! ## Calls under way -/

structure Obtained extends PortAssignment where
  /-- Whether a release or a reconcile has removed it since. -/
  removed : Bool

def Obtained.mark (removes : PortAssignment → Bool) (x : Obtained) : Obtained :=
  { x with removed := x.removed || removes x.toPortAssignment }

/-- `result[variableName] = port`. -/
def setResult (result : List Obtained) (obtained : Obtained) : List Obtained :=
  result.filter (fun x => !decide (x.variableName = obtained.variableName)) ++ [obtained]

/-- Where `allocateSinglePort` is. -/
inductive Lookup where
  | searching (usedPorts : List ℕ) (search : Search)
  /-- It has returned, its caller has not resumed yet. -/
  | resolved (obtained : Obtained)

inductive CallState where
  /-- `allocatePortsForWorktree` or `reconcilePortsForWorktree`. -/
  | worktree (repoId worktreeId : String) (reconciles : Bool) (variableName : String)
      (remaining : List String) (result : List Obtained) (lookup : Lookup)
  /-- The first loop of `verifyAndReassignPorts`, at an element of the array it iterates over. -/
  | verifying (array index assignment : ℕ) (verified toReassign : List ℕ)
  /-- Its second loop. -/
  | reassigning (assignment : ℕ) (remaining verified usedPorts : List ℕ) (search : Search)
  /-- `initialize`, behind `verifyAndReassignPorts`. -/
  | verified

def CallState.obtained : CallState → List Obtained
  | .worktree _ _ _ _ _ result (.resolved obtained) => result ++ [obtained]
  | .worktree _ _ _ _ _ result _ => result
  | _ => []

def CallState.mark (removes : PortAssignment → Bool) : CallState → CallState
  | .worktree repoId worktreeId reconciles variableName remaining result (.resolved obtained) =>
    .worktree repoId worktreeId reconciles variableName remaining
      (result.map (Obtained.mark removes)) (.resolved (obtained.mark removes))
  | .worktree repoId worktreeId reconciles variableName remaining result lookup =>
    .worktree repoId worktreeId reconciles variableName remaining
      (result.map (Obtained.mark removes)) lookup
  | state => state

/-- How far `verifyAndReassignPorts` gets before its next await. -/
inductive Progress where
  | awaits (state : CallState)
  /-- Both loops are through. -/
  | assigns (verified : List ℕ)

structure Call where
  id : ℕ
  state : CallState

structure Returned where
  id : ℕ
  result : List Obtained

structure Allocator where
  /-- The assignment objects, by identity. -/
  objects : ℕ → PortAssignment
  nextObject : ℕ
  /-- The arrays, by identity. -/
  arrays : ℕ → List ℕ
  nextArray : ℕ
  /-- The array that is `this.assignments.assignments`. -/
  current : ℕ
  initialized : Bool
  calls : List Call
  nextCall : ℕ
  returned : List Returned

namespace Allocator

/-- An allocator that has loaded its file. -/
def start (assignments : List PortAssignment) : Allocator where
  objects i := assignments.getD i default
  nextObject := assignments.length
  arrays _ := List.range assignments.length
  nextArray := 1
  current := 0
  initialized := false
  calls := []
  nextCall := 0
  returned := []

def list (s : Allocator) : List ℕ := s.arrays s.current

/-- `getAllAssignments`. -/
def assignments (s : Allocator) : List PortAssignment := s.list.map s.objects

/-- What the calls have obtained, returned or not. -/
def obtained (s : Allocator) : List Obtained :=
  s.calls.flatMap (·.state.obtained) ++ s.returned.flatMap (·.result)

/-! ## Writes -/

/-- `this.assignments.assignments = array`. -/
def assign (s : Allocator) (array : List ℕ) : Allocator :=
  { s with
    arrays := Function.update s.arrays s.nextArray array
    nextArray := s.nextArray + 1
    current := s.nextArray }

/-- The filter of a release or a reconcile. -/
def filterOut (s : Allocator) (removes : PortAssignment → Bool) : Allocator :=
  { s.assign (s.list.filter fun o => !removes (s.objects o)) with
    calls := s.calls.map fun call => { call with state := call.state.mark removes }
    returned := s.returned.map fun call =>
      { call with result := call.result.map (Obtained.mark removes) } }

/-- `this.assignments.assignments.push(assignment)`. -/
def push (s : Allocator) (assignment : PortAssignment) : Allocator :=
  { s with
    objects := Function.update s.objects s.nextObject assignment
    nextObject := s.nextObject + 1
    arrays := Function.update s.arrays s.current (s.list ++ [s.nextObject]) }

/-- `assignment.port = newPort`. -/
def setPort (s : Allocator) (o newPort : ℕ) : Allocator :=
  { s with objects := Function.update s.objects o { s.objects o with port := newPort } }

/-- A call that has come to its first await. -/
def enter (s : Allocator) (state : CallState) : Allocator :=
  { s with
    calls := s.calls ++ [⟨s.nextCall, state⟩]
    nextCall := s.nextCall + 1 }

/-- A call that has come to another await. -/
def suspend (s : Allocator) (id : ℕ) (state : CallState) : Allocator :=
  { s with
    calls := s.calls.map fun call => if call.id = id then { call with state := state } else call }

/-- A call that has come to its end. -/
def leave (s : Allocator) (id : ℕ) : Allocator :=
  { s with calls := s.calls.filter fun call => !decide (call.id = id) }

def reply (s : Allocator) (id : ℕ) (result : List Obtained) : Allocator :=
  { s with returned := s.returned ++ [⟨id, result⟩] }

/-! ## Worktree calls -/

/-- `allocateSinglePort`, up to its await. -/
def allocateSinglePort (s : Allocator) (repoId worktreeId variableName : String) : Lookup :=
  let existing := s.assignments.find? fun a =>
    decide (a.repoId = repoId ∧ a.worktreeId = worktreeId ∧ a.variableName = variableName)
  match existing with
  | some existing => .resolved ⟨existing, false⟩
  | none =>
    let usedPorts := s.assignments.map (·.port)
    .searching usedPorts (findAvailablePort usedPorts portRangeStart)

/-- The loop over the requested variables up to its next await, if there is one; a reconcile
    skips what it has. -/
def nextVariable (s : Allocator) (repoId worktreeId : String) (reconciles : Bool)
    (result : List Obtained) : List String → Option CallState
  | [] => none
  | variableName :: remaining =>
    if reconciles && result.any fun x => decide (x.variableName = variableName) then
      s.nextVariable repoId worktreeId reconciles result remaining
    else
      some (.worktree repoId worktreeId reconciles variableName remaining result
        (s.allocateSinglePort repoId worktreeId variableName))

/-- A call that runs to its first await, or through. -/
def enterWorktree (s : Allocator) (repoId worktreeId : String) (reconciles : Bool)
    (result : List Obtained) (variableNames : List String) : Allocator :=
  match s.nextVariable repoId worktreeId reconciles result variableNames with
  | some state => s.enter state
  | none => { s.reply s.nextCall result with nextCall := s.nextCall + 1 }

def allocatePortsForWorktree (s : Allocator) (repoId worktreeId : String)
    (variableNames : List String) : Allocator :=
  s.enterWorktree repoId worktreeId false [] (normalizePortVariables variableNames)

def releasePortsForWorktree (s : Allocator) (repoId worktreeId : String) : Allocator :=
  s.filterOut fun a => decide (a.repoId = repoId ∧ a.worktreeId = worktreeId)

def releasePortForWorktreeVariable (s : Allocator) (repoId worktreeId variableName : String) :
    Allocator :=
  s.filterOut fun a =>
    decide (a.repoId = repoId ∧ a.worktreeId = worktreeId ∧ a.variableName = variableName)

def reconcilePortsForWorktree (s : Allocator) (repoId worktreeId : String)
    (variableNames preserveVariableNames : List String) : Allocator :=
  let requestedVariables := normalizePortVariables variableNames
  let variablesToKeep :=
    requestedVariables ++ sanitizeOptionalPortVariables preserveVariableNames
  let preserved := s.assignments.filter fun a =>
    decide (a.repoId = repoId ∧ a.worktreeId = worktreeId ∧ a.variableName ∈ variablesToKeep)
  let s := s.filterOut fun a =>
    decide (a.repoId = repoId ∧ a.worktreeId = worktreeId ∧ a.variableName ∉ variablesToKeep)
  let result := preserved.foldl (fun result a => setResult result ⟨a, false⟩) []
  s.enterWorktree repoId worktreeId true result requestedVariables

/-! ## Initialization -/

/-- The second loop. -/
def reassignFrom (s : Allocator) (toReassign verified : List ℕ) : Progress :=
  match toReassign with
  | [] => .assigns verified
  | o :: remaining =>
    let usedPorts := verified.map fun o => (s.objects o).port
    .awaits (.reassigning o remaining verified usedPorts
      (findAvailablePort usedPorts portRangeStart))

/-- The first loop, with the rest of the array; `skip` are the variables not to verify. -/
def verifyFrom (skip : List String) (s : Allocator) (array : ℕ) :
    ℕ → List ℕ → List ℕ → List ℕ → Progress
  | _, [], verified, toReassign => s.reassignFrom toReassign verified
  | index, o :: remaining, verified, toReassign =>
    if (s.objects o).variableName ∈ skip then
      s.verifyFrom skip array (index + 1) remaining (verified ++ [o]) toReassign
    else .awaits (.verifying array index o verified toReassign)

/-- `this.assignments.assignments = verified`, with the await behind it. -/
def write (s : Allocator) (progress : Progress) : Allocator × CallState :=
  match progress with
  | .awaits state => (s, state)
  | .assigns verified => (s.assign verified, .verified)

/-- `initialize`, up to its first await. -/
def initializeAllocator (skip : List String) (s : Allocator) : Allocator :=
  if s.initialized then s
  else
    let (s, state) := s.write (s.verifyFrom skip s.current 0 s.list [] [])
    s.enter state

/-- The first loop with the answer to its probe. -/
def verified (skip : List String) (s : Allocator) (array index o : ℕ)
    (verified toReassign : List ℕ) (available : Bool) : Progress :=
  let remaining := (s.arrays array).drop (index + 1)
  if available then s.verifyFrom skip array (index + 1) remaining (verified ++ [o]) toReassign
  else s.verifyFrom skip array (index + 1) remaining verified (toReassign ++ [o])

/-! ## Operations -/

/-- The write behind `findAvailablePort`. -/
def portFound (s : Allocator) (call : Call) (port : ℕ) : Allocator :=
  match call.state with
  | .worktree repoId worktreeId reconciles variableName remaining result _ =>
    let assignment := ⟨repoId, worktreeId, variableName, port⟩
    (s.push assignment).suspend call.id
      (.worktree repoId worktreeId reconciles variableName remaining result
        (.resolved ⟨assignment, false⟩))
  | .reassigning o remaining verified _ _ =>
    let s := s.setPort o port
    let (s, state) := s.write (s.reassignFrom remaining (verified ++ [o]))
    s.suspend call.id state
  | _ => s

def call? (s : Allocator) (id : ℕ) : Option Call :=
  s.calls.find? fun call => decide (call.id = id)

/-- `getPort({ port })` answers a probe. -/
def probed (skip : List String) (s : Allocator) (call : Call) (available : Bool) : Allocator :=
  match call.state with
  | .worktree repoId worktreeId reconciles variableName remaining result
      (.searching usedPorts (.probing port)) =>
    if available then s.portFound call port
    else
      s.suspend call.id (.worktree repoId worktreeId reconciles variableName remaining result
        (.searching usedPorts (findAvailablePort usedPorts (port + 1))))
  | .reassigning o remaining verified usedPorts (.probing port) =>
    if available then s.portFound call port
    else
      s.suspend call.id (.reassigning o remaining verified usedPorts
        (findAvailablePort usedPorts (port + 1)))
  | .verifying array index o verified toReassign =>
    let (s, state) := s.write (s.verified skip array index o verified toReassign available)
    s.suspend call.id state
  | _ => s

/-- `getPort()` answers. -/
def picked (s : Allocator) (call : Call) (port : ℕ) : Allocator :=
  match call.state with
  | .worktree _ _ _ _ _ _ (.searching _ .asking) => s.portFound call port
  | .reassigning _ _ _ _ .asking => s.portFound call port
  | _ => s

/-- A call behind an await of its own. -/
def resumed (s : Allocator) (call : Call) : Allocator :=
  match call.state with
  | .worktree repoId worktreeId reconciles _ remaining result (.resolved obtained) =>
    let result := setResult result obtained
    match s.nextVariable repoId worktreeId reconciles result remaining with
    | some state => s.suspend call.id state
    | none => (s.leave call.id).reply call.id result
  | .verified => { s.leave call.id with initialized := true }
  | _ => s

end Allocator

inductive Op where
  | initializeAllocator
  | allocatePortsForWorktree (repoId worktreeId : String) (variableNames : List String)
  | reconcilePortsForWorktree (repoId worktreeId : String)
      (variableNames preserveVariableNames : List String)
  | releasePortsForWorktree (repoId worktreeId : String)
  | releasePortForWorktreeVariable (repoId worktreeId variableName : String)
  /-- The answer to a probe that a call awaits. -/
  | probed (id : ℕ) (available : Bool)
  | picked (id : ℕ) (port : ℕ)
  | resumed (id : ℕ)

/-- What a release or a reconcile takes out of the list. -/
def Op.removes : Op → PortAssignment → Bool
  | .reconcilePortsForWorktree repoId worktreeId variableNames preserveVariableNames, a =>
    decide (a.repoId = repoId ∧ a.worktreeId = worktreeId ∧
      a.variableName ∉ normalizePortVariables variableNames ++
        sanitizeOptionalPortVariables preserveVariableNames)
  | .releasePortsForWorktree repoId worktreeId, a =>
    decide (a.repoId = repoId ∧ a.worktreeId = worktreeId)
  | .releasePortForWorktreeVariable repoId worktreeId variableName, a =>
    decide (a.repoId = repoId ∧ a.worktreeId = worktreeId ∧ a.variableName = variableName)
  | _, _ => false

/-- **One section** of the code between awaits. -/
def Allocator.step (skip : List String) (s : Allocator) : Op → Allocator
  | .initializeAllocator => s.initializeAllocator skip
  | .allocatePortsForWorktree repoId worktreeId variableNames =>
    s.allocatePortsForWorktree repoId worktreeId variableNames
  | .reconcilePortsForWorktree repoId worktreeId variableNames preserveVariableNames =>
    s.reconcilePortsForWorktree repoId worktreeId variableNames preserveVariableNames
  | .releasePortsForWorktree repoId worktreeId => s.releasePortsForWorktree repoId worktreeId
  | .releasePortForWorktreeVariable repoId worktreeId variableName =>
    s.releasePortForWorktreeVariable repoId worktreeId variableName
  | .probed id available => ((s.call? id).map fun call => s.probed skip call available).getD s
  | .picked id port => ((s.call? id).map fun call => s.picked call port).getD s
  | .resumed id => ((s.call? id).map s.resumed).getD s

end RelayIde.Ports
