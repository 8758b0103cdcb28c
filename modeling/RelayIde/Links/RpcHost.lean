import RelayIde.Library.Handles
import RelayIde.Library.Machine
import RelayIde.Nodes.Record

/-!
# Followers of a Node

The tails a node's rpc host follows for the hub (`server/node-link-rpc-host.ts`, with the followers
of `server/file-rpc.ts` and `server/local-logs.ts`).  A file is read before its follower starts;
that read, each poll of a follower and each write of a chunk is awaited, so other envelopes arrive
in between.

- `HostRun.Unfollowed`, `HostRun.Released` — no follower lives on whose request was cancelled
-/

namespace RelayIde.Links

open RelayIde.Library
open RelayIde.Nodes (RelayNodeError)

/-! ## Envelopes and followers -/

/-- What a reply repeats of its request. -/
structure RpcEnvelope where
  requestId : Option String
  streamId : Option String

/-- `FileRpcTailResponse`, as far as a follower is started from it. -/
structure FileRpcTailResponse where
  path : String
  endOffset : ℕ
  follow : Bool
  maxFollowChunkBytes : ℕ

inductive FilePoll
  | idle
  | reading
  /-- At the write of a chunk, with the size the file had. -/
  | writing (size : ℕ)
deriving DecidableEq

/-- `createFileRpcFollower`. -/
structure FileRpcFollower where
  envelope : RpcEnvelope
  path : String
  maxFollowChunkBytes : ℕ
  offset : ℕ
  active : FilePoll

/-- `createNodeLogFollower`, with the files that are being read. -/
structure NodeLogFollower where
  envelope : RpcEnvelope
  activeReads : List String

inductive PollId
  | file (follower : ℕ)
  | log (follower : ℕ) (file : String)

/-- `FileRpcTailChunk`, less its text. -/
structure TailChunk where
  path : String
  bytesRead : ℕ
  startOffset : ℕ
  endOffset : ℕ
  fileSize : ℕ
  truncatedBytes : Bool
  skippedBytes : ℕ
  maxFollowChunkBytes : ℕ

/-- The envelopes that go to the hub. -/
inductive Sent
  | result (type : String) (envelope : RpcEnvelope)
  | error (type : String) (envelope : RpcEnvelope) (error : RelayNodeError)
  /-- A chunk, with the poll that sends it. -/
  | fileChunk (envelope : RpcEnvelope) (poll : PollId) (chunk : TailChunk)
  | logChunk (envelope : RpcEnvelope) (poll : PollId) (chunk : String)

/-- An `fs.tail` whose read is awaited. -/
structure PendingTail where
  id : ℕ
  envelope : RpcEnvelope

structure RpcHost where
  /-- How many `fs.tail` requests have arrived. -/
  requests : ℕ
  pending : List PendingTail
  fileFollowers : Handles FileRpcFollower
  logFollowers : Handles NodeLogFollower
  sent : List Sent

def RpcHost.start : RpcHost := ⟨0, [], .empty, .empty, []⟩

/-! ## Steps -/

def invalidRequest (message : String) : RelayNodeError := ⟨.invalidRequest, message, false, none⟩

def internalError (message : String) : RelayNodeError := ⟨.internal, message, true, none⟩

/-- What `executeLocalFileRpc('tail', …)` resolves to, or throws. -/
inductive TailOutcome
  | error (error : RelayNodeError)
  | response (response : FileRpcTailResponse)
  | thrown (message : String)

inductive FileReadOutcome
  | error (error : RelayNodeError)
  | read (size bytesRead : ℕ)

/-- What a `logs.tail` comes to: no valid request, no snapshot, or a snapshot. -/
inductive LogsOutcome
  | invalid (error : RelayNodeError)
  | failed (follow : Bool) (error : RelayNodeError)
  | snapshot (follow : Bool)

/-- The chunk of what was appended: no more than the newest `maxFollowChunkBytes`. -/
def FileRpcFollower.chunk (follower : FileRpcFollower) (offset size bytesRead : ℕ) : TailChunk :=
  let skippedBytes := (size - offset) - follower.maxFollowChunkBytes
  let startOffset := offset + skippedBytes
  { path := follower.path
    bytesRead := bytesRead
    startOffset := startOffset
    endOffset := startOffset + bytesRead
    fileSize := size
    truncatedBytes := decide (skippedBytes > 0)
    skippedBytes := skippedBytes
    maxFollowChunkBytes := follower.maxFollowChunkBytes }

/-- A file that has shrunk is read from its start. -/
def FileRpcFollower.resumeOffset (follower : FileRpcFollower) (size : ℕ) : ℕ :=
  if size < follower.offset then 0 else follower.offset

namespace RpcHost

def send (s : RpcHost) (sent : Sent) : RpcHost := { s with sent := s.sent ++ [sent] }

def closeFileFollower (s : RpcHost) (streamId : String) : RpcHost :=
  { s with fileFollowers := s.fileFollowers.close streamId }

def closeLogFollower (s : RpcHost) (streamId : String) : RpcHost :=
  { s with logFollowers := s.logFollowers.close streamId }

def closeAllLogFollowers (s : RpcHost) : RpcHost :=
  { s with
    logFollowers := s.logFollowers.closeAll
    fileFollowers := s.fileFollowers.closeAll }

/-- An `fs.tail` arrives: its read starts. -/
def handleFsTail (s : RpcHost) (envelope : RpcEnvelope) : RpcHost :=
  { s with
    requests := s.requests + 1
    pending := s.pending ++ [⟨s.requests, envelope⟩] }

/-- `handleFileRpc` behind its read. -/
def resumeFsTail (s : RpcHost) (request : PendingTail) (outcome : TailOutcome) : RpcHost :=
  let s := { s with pending := s.pending.filter fun p => !decide (p.id = request.id) }
  match outcome with
  | .error error => s.send (.error "fs.tail.error" request.envelope error)
  | .thrown message => s.send (.error "fs.tail.error" request.envelope (internalError message))
  | .response response =>
    if response.follow then
      match request.envelope.streamId with
      | none =>
        s.send (.error "fs.tail.error" request.envelope
          (invalidRequest "fs.tail follow requires envelope.streamId"))
      | some streamId =>
        { s.send (.result "fs.tail.result" request.envelope) with
          fileFollowers := s.fileFollowers.replace streamId request.id
            { envelope := request.envelope
              path := response.path
              maxFollowChunkBytes := response.maxFollowChunkBytes
              offset := response.endOffset
              active := .idle } }
    else s.send (.result "fs.tail.result" request.envelope)

def tailRead (s : RpcHost) (request : ℕ) (outcome : TailOutcome) : RpcHost :=
  match s.pending.find? fun p => decide (p.id = request) with
  | none => s
  | some p => s.resumeFsTail p outcome

/-- `handleLogsTail`, which awaits nothing. -/
def handleLogsTail (s : RpcHost) (envelope : RpcEnvelope) (outcome : LogsOutcome) : RpcHost :=
  let noStream := Sent.error "logs.tail.error" envelope
    (invalidRequest "logs.tail follow requires envelope.streamId")
  match outcome with
  | .invalid error => s.send (.error "logs.tail.error" envelope error)
  | .failed follow error =>
    if follow && envelope.streamId.isNone then s.send noStream
    else s.send (.error "logs.tail.error" envelope error)
  | .snapshot follow =>
    match follow, envelope.streamId with
    | false, _ => s.send (.result "logs.tail.result" envelope)
    | true, none => s.send noStream
    | true, some streamId =>
      { s.send (.result "logs.tail.result" envelope) with
        logFollowers := s.logFollowers.replace streamId 0 ⟨envelope, []⟩ }

/-- The timer of a file follower. -/
def pollFile (s : RpcHost) (id : ℕ) : RpcHost :=
  match s.fileFollowers.find? id with
  | none => s
  | some h =>
    if h.closed || h.body.active ≠ .idle then s
    else { s with fileFollowers := s.fileFollowers.setBody id { h.body with active := .reading } }

/-- `closeWithError`: the follower takes itself out of the map. -/
def closeWithError (s : RpcHost) (h : Handle FileRpcFollower) (error : RelayNodeError) : RpcHost :=
  if h.closed then s
  else
    { s.send (.error "fs.tail.error" h.body.envelope error) with
      fileFollowers := (s.fileFollowers.closeHandle h.id).close h.key }

/-- A poll behind its read: a chunk is sent unless the follower was closed meanwhile. -/
def fileRead (s : RpcHost) (id : ℕ) (outcome : FileReadOutcome) : RpcHost :=
  match s.fileFollowers.find? id with
  | none => s
  | some h =>
    if h.body.active = .reading then
      match outcome with
      | .error error =>
        { s with fileFollowers := s.fileFollowers.setBody id { h.body with active := .idle } }
          |>.closeWithError h error
      | .read size bytesRead =>
        let offset := h.body.resumeOffset size
        if size ≤ offset then
          { s with
            fileFollowers :=
              s.fileFollowers.setBody id { h.body with offset := offset, active := .idle } }
        else if bytesRead > 0 && !h.closed then
          { s.send (.fileChunk h.body.envelope (.file id)
              (h.body.chunk offset size bytesRead)) with
            fileFollowers :=
              s.fileFollowers.setBody id { h.body with offset := offset, active := .writing size } }
        else
          { s with
            fileFollowers :=
              s.fileFollowers.setBody id { h.body with offset := size, active := .idle } }
    else s

/-- A poll behind its write, which may have failed or timed out. -/
def fileWritten (s : RpcHost) (id : ℕ) (failure : Option RelayNodeError) : RpcHost :=
  match s.fileFollowers.find? id with
  | none => s
  | some h =>
    match h.body.active, failure with
    | .writing size, none =>
      { s with
        fileFollowers := s.fileFollowers.setBody id { h.body with offset := size, active := .idle } }
    | .writing _, some error =>
      { s with fileFollowers := s.fileFollowers.setBody id { h.body with active := .idle } }
        |>.closeWithError h error
    | _, _ => s

/-- The timer of a log follower, for a file that has grown. -/
def pollLog (s : RpcHost) (id : ℕ) (file : String) : RpcHost :=
  match s.logFollowers.find? id with
  | none => s
  | some h =>
    if h.closed || h.body.activeReads.contains file then s
    else
      { s with
        logFollowers :=
          s.logFollowers.setBody id { h.body with activeReads := h.body.activeReads ++ [file] } }

/-- The end of a read, or its error.  Nobody asks whether the follower was closed meanwhile. -/
def logRead (s : RpcHost) (id : ℕ) (file : String) (outcome : Except String String) : RpcHost :=
  match s.logFollowers.find? id with
  | none => s
  | some h =>
    if h.body.activeReads.contains file then
      let s :=
        { s with
          logFollowers := s.logFollowers.setBody id
            { h.body with activeReads := h.body.activeReads.filter (· ≠ file) } }
      match outcome with
      | .error message => s.send (.error "logs.tail.error" h.body.envelope (internalError message))
      | .ok output =>
        if output = "" then s else s.send (.logChunk h.body.envelope (.log id file) output)
    else s

end RpcHost

/-- What arrives at the host, or returns to it. -/
inductive HostOp
  | fsTail (envelope : RpcEnvelope)
  | tailRead (request : ℕ) (outcome : TailOutcome)
  | fsTailCancel (streamId : Option String)
  | logsTail (envelope : RpcEnvelope) (outcome : LogsOutcome)
  | logsTailCancel (streamId : Option String)
  | closeAllLogFollowers
  | pollFile (id : ℕ)
  | fileRead (id : ℕ) (outcome : FileReadOutcome)
  | fileWritten (id : ℕ) (failure : Option RelayNodeError)
  | pollLog (id : ℕ) (file : String)
  | logRead (id : ℕ) (file : String) (outcome : Except String String)

def RpcHost.step (s : RpcHost) : HostOp → RpcHost
  | .fsTail envelope => s.handleFsTail envelope
  | .tailRead request outcome => s.tailRead request outcome
  | .fsTailCancel none => s
  | .fsTailCancel (some streamId) => s.closeFileFollower streamId
  | .logsTail envelope outcome => s.handleLogsTail envelope outcome
  | .logsTailCancel none => s
  | .logsTailCancel (some streamId) => s.closeLogFollower streamId
  | .closeAllLogFollowers => s.closeAllLogFollowers
  | .pollFile id => s.pollFile id
  | .fileRead id outcome => s.fileRead id outcome
  | .fileWritten id failure => s.fileWritten id failure
  | .pollLog id file => s.pollLog id file
  | .logRead id file outcome => s.logRead id file outcome

/-! ## Runs -/

/-- A cancel of one stream, or the close of the link, with the number of requests it came after. -/
structure Closing where
  /-- `none` for the link. -/
  streamId : Option String
  after : ℕ
deriving DecidableEq

def Closing.covers (closing : Closing) (streamId : String) : Prop :=
  closing.streamId = none ∨ closing.streamId = some streamId

/-- A host, with the history of its cancels. -/
structure HostRun where
  host : RpcHost
  closings : List Closing

namespace HostRun

def start : HostRun := ⟨.start, []⟩

def step (s : HostRun) (op : HostOp) : HostRun :=
  { host := s.host.step op
    closings :=
      match op with
      | .fsTailCancel (some streamId) => s.closings ++ [⟨some streamId, s.host.requests⟩]
      | .closeAllLogFollowers => s.closings ++ [⟨none, s.host.requests⟩]
      | _ => s.closings }

/-- No follower lives on once its request was cancelled. -/
def Unfollowed (s : HostRun) : Prop :=
  ∀ closing ∈ s.closings, ∀ h ∈ s.host.fileFollowers.live, closing.covers h.key →
    closing.after ≤ h.origin

/-- The same for a cancel whose requests have all returned from their reads. -/
def Released (s : HostRun) : Prop :=
  ∀ closing ∈ s.closings,
    (∀ p ∈ s.host.pending, ∀ streamId, p.envelope.streamId = some streamId →
      closing.covers streamId → closing.after ≤ p.id) →
    ∀ h ∈ s.host.fileFollowers.live, closing.covers h.key → closing.after ≤ h.origin

def NotCancelled (s : HostRun) : HostOp → Prop
  | .tailRead request (.response response) =>
    response.follow = true →
      ∀ p, (s.host.pending.find? fun p => decide (p.id = request)) = some p →
        ∀ streamId, p.envelope.streamId = some streamId →
          ∀ closing ∈ s.closings, closing.covers streamId → closing.after ≤ p.id
  | _ => True

end HostRun

end RelayIde.Links
