import RelayIde.Links.RpcHost

/-!
# No Follower Outlives Its Stream

Whether the followers of a node can still be cancelled, and which of them go on after a cancel.

- `followers_of_run` — live followers can be cancelled, and which runs leak none
-/

namespace RelayIde.Links

open RelayIde.Library List
open RelayIde.Nodes (RelayNodeError)

/-! ## What a step does to the followers -/

structure RpcHost.Registered (s : RpcHost) : Prop where
  files : s.fileFollowers.Registered
  logs : s.logFollowers.Registered

/-- A follower that lives behind the step lived before, or the step is the end of its read. -/
structure FileStep (s s' : RpcHost) (started : ℕ → String → Prop) : Prop where
  registered : s.fileFollowers.Registered → s'.fileFollowers.Registered
  live : s.fileFollowers.Registered → ∀ h ∈ s'.fileFollowers.live,
    (∃ h' ∈ s.fileFollowers.live, h'.key = h.key ∧ h'.origin = h.origin) ∨ started h.origin h.key

variable {started : ℕ → String → Prop}

theorem fileStep_of_eq {s s' : RpcHost}
    (h : s'.fileFollowers = s.fileFollowers) : FileStep s s' started :=
  ⟨fun hr => h ▸ hr, fun _ f hf => .inl ⟨f, h ▸ hf, rfl, rfl⟩⟩

theorem fileStep_setBody {s s' : RpcHost} {id : ℕ}
    {body : FileRpcFollower} (h : s'.fileFollowers = s.fileFollowers.setBody id body) :
    FileStep s s' started := by
  refine ⟨fun hr => h ▸ Handles.registered_setBody hr id body, fun _ f hf => .inl ?_⟩
  rw [h] at hf
  obtain ⟨f', hf', -, hkey, horigin⟩ := Handles.mem_live_setBody hf
  exact ⟨f', hf', hkey, horigin⟩

theorem fileStep_close {s s' : RpcHost} {key : String}
    (h : s'.fileFollowers = s.fileFollowers.close key) : FileStep s s' started := by
  refine ⟨fun hr => h ▸ Handles.registered_close hr key, fun hr f hf => .inl ?_⟩
  rw [h, Handles.mem_live_close hr] at hf
  exact ⟨f, hf.1, rfl, rfl⟩

theorem FileStep.trans {s s' s'' : RpcHost}
    (h : FileStep s s' started) (h' : FileStep s' s'' started) : FileStep s s'' started := by
  refine ⟨fun hr => h'.registered (h.registered hr), fun hr f hf => ?_⟩
  rcases h'.live (h.registered hr) f hf with ⟨f', hf', hkey, horigin⟩ | hstarted
  · rcases h.live hr f' hf' with ⟨f'', hf'', hkey', horigin'⟩ | hstarted
    · exact .inl ⟨f'', hf'', hkey'.trans hkey, horigin'.trans horigin⟩
    · exact .inr (hkey ▸ horigin ▸ hstarted)
  · exact .inr hstarted

variable (ops : List HostOp) (s : RpcHost) (request : ℕ) (outcome : TailOutcome) (op : HostOp)
  (id : ℕ) (file : String) (failure : Option RelayNodeError)

theorem fileStep_closeWithError (h : Handle FileRpcFollower) (error : RelayNodeError) : FileStep s
    (s.closeWithError h error) started := by
  unfold RpcHost.closeWithError
  split
  · exact fileStep_of_eq rfl
  · have hclosed : FileStep s { s with fileFollowers := s.fileFollowers.closeHandle h.id }
        started := by
      refine ⟨fun hr => Handles.registered_closeHandle hr h.id, fun _ f hf => .inl ?_⟩
      exact ⟨f, (Handles.mem_live_closeHandle.mp hf).1, rfl, rfl⟩
    exact hclosed.trans (fileStep_close rfl)

/-- The read of a request on this stream ends with a response that is followed. -/
def HostOp.Starts (s : RpcHost) (op : HostOp) (request : ℕ) (streamId : String) : Prop :=
  ∃ response, op = .tailRead request (.response response) ∧ response.follow = true ∧
    ∃ p, (s.pending.find? fun p => decide (p.id = request)) = some p ∧
      p.envelope.streamId = some streamId

theorem fileStep_tailRead :
    FileStep s (s.tailRead request outcome)
      (HostOp.Starts s (.tailRead request outcome)) := by
  unfold RpcHost.tailRead
  split
  · exact fileStep_of_eq rfl
  · rename_i p hfind
    have hid : p.id = request := by simpa using find?_some hfind
    unfold RpcHost.resumeFsTail
    cases outcome with
    | error error | thrown message => exact fileStep_of_eq rfl
    | response response =>
      dsimp only
      split
      · rename_i hfollow
        split
        · exact fileStep_of_eq rfl
        · -- the new follower replaces the one of the stream
          rename_i streamId hstream
          refine ⟨fun hr => Handles.registered_replace hr _ _ _, fun hr f hf => ?_⟩
          rcases (Handles.mem_live_replace hr).mp hf with ⟨hf, -⟩ | rfl
          · exact .inl ⟨f, hf, rfl, rfl⟩
          · exact .inr ⟨response, by rw [← hid], hfollow, p, hid ▸ hfind, hstream⟩
      · exact fileStep_of_eq rfl

theorem fileStep_pollFile : FileStep s (s.pollFile id) started := by
  unfold RpcHost.pollFile
  split
  · exact fileStep_of_eq rfl
  · split
    · exact fileStep_of_eq rfl
    · exact fileStep_setBody rfl

theorem fileStep_fileRead (outcome : FileReadOutcome) : FileStep s
    (s.fileRead id outcome) started := by
  unfold RpcHost.fileRead
  split
  · exact fileStep_of_eq rfl
  · rename_i h _
    split
    · cases outcome with
      | error error =>
        have hidle : FileStep s
            { s with fileFollowers := s.fileFollowers.setBody id { h.body with active := .idle } }
            started := fileStep_setBody rfl
        exact hidle.trans (fileStep_closeWithError _ h error)
      | read size bytesRead =>
        dsimp only
        split
        · exact fileStep_setBody rfl
        · split <;> exact fileStep_setBody rfl
    · exact fileStep_of_eq rfl

theorem fileStep_fileWritten : FileStep s (s.fileWritten id failure) started := by
  unfold RpcHost.fileWritten
  split
  · exact fileStep_of_eq rfl
  · rename_i h _
    split
    · exact fileStep_setBody rfl
    · have hidle : FileStep s
          { s with fileFollowers := s.fileFollowers.setBody id { h.body with active := .idle } }
          started := fileStep_setBody rfl
      exact hidle.trans (fileStep_closeWithError _ h _)
    · exact fileStep_of_eq rfl

theorem fileFollowers_handleLogsTail (envelope : RpcEnvelope)
    (outcome : LogsOutcome) : (s.handleLogsTail envelope outcome).fileFollowers =
      s.fileFollowers := by
  unfold RpcHost.handleLogsTail
  split
  · rfl
  · split <;> rfl
  · split <;> rfl

theorem fileFollowers_pollLog : (s.pollLog id file).fileFollowers = s.fileFollowers := by
  unfold RpcHost.pollLog
  split
  · rfl
  · split <;> rfl

theorem fileFollowers_logRead (outcome : Except String String) :
    (s.logRead id file outcome).fileFollowers = s.fileFollowers := by
  unfold RpcHost.logRead
  split
  · rfl
  · split
    · split
      · rfl
      · split <;> rfl
    · rfl

/-- Every operation moves the file followers by one of these steps. -/
theorem fileStep_step : FileStep s (s.step op) (op.Starts s) := by
  cases op with
  | fsTail envelope => exact fileStep_of_eq rfl
  | tailRead request outcome => exact fileStep_tailRead s request outcome
  | fsTailCancel streamId =>
    cases streamId with
    | none => exact fileStep_of_eq rfl
    | some streamId => exact fileStep_close rfl
  | logsTail envelope outcome =>
    exact fileStep_of_eq (fileFollowers_handleLogsTail s envelope outcome)
  | logsTailCancel streamId => cases streamId <;> exact fileStep_of_eq rfl
  | closeAllLogFollowers =>
    refine ⟨fun hr => (Handles.closeAll_spec hr).1, fun hr h hmem => ?_⟩
    change h ∈ s.fileFollowers.closeAll.live at hmem
    rw [(Handles.closeAll_spec hr).2] at hmem
    exact absurd hmem not_mem_nil
  | pollFile id => exact fileStep_pollFile s id
  | fileRead id outcome => exact fileStep_fileRead s id outcome
  | fileWritten id failure => exact fileStep_fileWritten s id failure
  | pollLog id file => exact fileStep_of_eq (fileFollowers_pollLog s id file)
  | logRead id file outcome => exact fileStep_of_eq (fileFollowers_logRead s id file outcome)

theorem logFollowers_closeWithError (h : Handle FileRpcFollower)
    (error : RelayNodeError) : (s.closeWithError h error).logFollowers = s.logFollowers := by
  unfold RpcHost.closeWithError
  split <;> rfl

theorem logFollowers_tailRead : (s.tailRead request outcome).logFollowers = s.logFollowers := by
  unfold RpcHost.tailRead
  split
  · rfl
  · unfold RpcHost.resumeFsTail
    split
    · rfl
    · rfl
    · split
      · split <;> rfl
      · rfl

theorem logFollowers_pollFile : (s.pollFile id).logFollowers = s.logFollowers := by
  unfold RpcHost.pollFile
  split
  · rfl
  · split <;> rfl

theorem logFollowers_fileRead (outcome : FileReadOutcome) :
    (s.fileRead id outcome).logFollowers = s.logFollowers := by
  unfold RpcHost.fileRead
  split
  · rfl
  · split
    · cases outcome with
      | error error => exact logFollowers_closeWithError _ _ error
      | read size bytesRead =>
        dsimp only
        split
        · rfl
        · split <;> rfl
    · rfl

theorem logFollowers_fileWritten : (s.fileWritten id failure).logFollowers = s.logFollowers := by
  unfold RpcHost.fileWritten
  split
  · rfl
  · split
    · rfl
    · exact logFollowers_closeWithError _ _ _
    · rfl

theorem registered_logs_step {s : RpcHost} (hr : s.logFollowers.Registered) (op : HostOp) :
    (s.step op).logFollowers.Registered := by
  cases op with
  | fsTail envelope => exact hr
  | tailRead request outcome => exact (logFollowers_tailRead s request outcome).symm ▸ hr
  | fsTailCancel streamId => cases streamId <;> exact hr
  | logsTail envelope outcome =>
    show (s.handleLogsTail envelope outcome).logFollowers.Registered
    unfold RpcHost.handleLogsTail
    split
    · exact hr
    · split <;> exact hr
    · split
      · exact hr
      · exact hr
      · exact Handles.registered_replace hr _ _ _
  | logsTailCancel streamId =>
    cases streamId with
    | none => exact hr
    | some streamId => exact Handles.registered_close hr streamId
  | closeAllLogFollowers => exact (Handles.closeAll_spec hr).1
  | pollFile id => exact (logFollowers_pollFile s id).symm ▸ hr
  | fileRead id outcome => exact (logFollowers_fileRead s id outcome).symm ▸ hr
  | fileWritten id failure => exact (logFollowers_fileWritten s id failure).symm ▸ hr
  | pollLog id file =>
    show (s.pollLog id file).logFollowers.Registered
    unfold RpcHost.pollLog
    split
    · exact hr
    · split
      · exact hr
      · exact Handles.registered_setBody hr _ _
  | logRead id file outcome =>
    show (s.logRead id file outcome).logFollowers.Registered
    unfold RpcHost.logRead
    split
    · exact hr
    · split
      · have hset := Handles.registered_setBody hr id
        split
        · exact hset _
        · split <;> exact hset _
      · exact hr

/-- Live followers stay registered under their keys. -/
theorem registered_step {s : RpcHost} (h : s.Registered) (op : HostOp) : (s.step op).Registered :=
  ⟨(fileStep_step s op).registered h.files, registered_logs_step h.logs op⟩

/-! ## Cancels -/

/-- Live followers can be cancelled, and none outlives a cancel of its request. -/
structure HostRun.Inv (s : HostRun) : Prop where
  registered : s.host.Registered
  unfollowed : s.Unfollowed

theorem HostRun.Unfollowed.released {s : HostRun} (h : s.Unfollowed) : s.Released :=
  fun closing hclosing _ f hf hcovers => h closing hclosing f hf hcovers

theorem mem_closings_step {s : HostRun} {op : HostOp} {closing : Closing}
    (h : closing ∈ (s.step op).closings) : closing ∈ s.closings ∨
      ∀ f ∈ (s.step op).host.fileFollowers.live, s.host.fileFollowers.Registered →
        ¬closing.covers f.key := by
  cases op with
  | fsTailCancel streamId =>
    cases streamId with
    | none => exact .inl h
    | some streamId =>
      rcases mem_append.mp h with h | h
      · exact .inl h
      · refine .inr fun f hf hr hcovers => ?_
        rw [mem_singleton.mp h] at hcovers
        have hkey := ((Handles.mem_live_close hr).mp hf).2
        rcases hcovers with hcovers | hcovers
        · cases hcovers
        · exact hkey (Option.some.inj hcovers).symm
  | closeAllLogFollowers =>
    rcases mem_append.mp h with h | h
    · exact .inl h
    · refine .inr fun f hf hr _ => ?_
      change f ∈ s.host.fileFollowers.closeAll.live at hf
      rw [(Handles.closeAll_spec hr).2] at hf
      exact absurd hf not_mem_nil
  | _ => exact .inl h

/-- A follower only starts where its request was not cancelled before. -/
theorem hostInv_step {s : HostRun} (h : s.Inv) (op : HostOp) (hop : s.NotCancelled op) :
    (s.step op).Inv := by
  refine ⟨registered_step h.registered op, fun closing hclosing f hf hcovers => ?_⟩
  rcases mem_closings_step hclosing with hclosing | hnone
  · rcases (fileStep_step s.host op).live h.registered.files f hf with
      ⟨f', hf', hkey, horigin⟩ | ⟨response, rfl, hfollow, p, hfind, hstream⟩
    · exact horigin ▸ h.unfollowed closing hclosing f' hf' (hkey ▸ hcovers)
    · -- the follower that starts here was not cancelled before
      have hid : p.id = f.origin := by simpa using find?_some hfind
      exact hid ▸ hop hfollow p hfind f.key hstream closing hclosing hcovers
  · exact absurd hcovers (hnone f hf h.registered.files)

/-- A follower whose request was cancelled lives behind the step that starts it. -/
theorem notCancelled_of_unfollowed {s : HostRun} (h : (s.step op).Unfollowed) :
    s.NotCancelled op := by
  cases op with
  | tailRead request outcome =>
    cases outcome with
    | response response =>
      intro hfollow p hfind streamId hstream closing hclosing hcovers
      set f : Handle FileRpcFollower :=
        { id := (s.host.fileFollowers.close streamId).opened.length
          key := streamId
          origin := p.id
          closed := false
          body := ⟨p.envelope, response.path, response.maxFollowChunkBytes, response.endOffset,
            .idle⟩ } with hf
      have hstep : (s.step (.tailRead request (.response response))).host.fileFollowers =
          s.host.fileFollowers.replace streamId p.id f.body := by
        show (s.host.tailRead request (.response response)).fileFollowers = _
        unfold RpcHost.tailRead
        rw [hfind]
        unfold RpcHost.resumeFsTail
        dsimp only
        rw [if_pos hfollow, hstream]
      refine h closing hclosing f ?_ hcovers
      rw [hstep]
      exact Handles.mem_live_add.mpr (.inr rfl)
    | _ => trivial
  | _ => trivial

/-! ## Polls -/

def RpcHost.Polling (s : RpcHost) : PollId → Prop
  | .file id => ∃ body, s.fileFollowers.body? id = some body ∧ body.active ≠ .idle
  | .log id file => ∃ body, s.logFollowers.body? id = some body ∧ file ∈ body.activeReads

def RpcHost.LiveAt (s : RpcHost) : PollId → Prop
  | .file id => ∃ h ∈ s.fileFollowers.live, h.id = id
  | .log id _ => ∃ h ∈ s.logFollowers.live, h.id = id

/-- A tick of the timer, for this poll. -/
def HostOp.Polls (op : HostOp) : PollId → Prop
  | .file id => op = .pollFile id
  | .log id file => op = .pollLog id file

def Sent.poll : Sent → Option PollId
  | .fileChunk _ poll _ | .logChunk _ poll _ => some poll
  | _ => none

/-- What a step adds to the envelopes; a chunk comes from a poll under way. -/
def SentStep (s s' : RpcHost) : Prop :=
  s'.sent = s.sent ∨ ∃ sent, s'.sent = s.sent ++ [sent] ∧ ∀ poll ∈ sent.poll, s.Polling poll

theorem sentStep_send {s s' : RpcHost} {sent : Sent} (h : s'.sent = s.sent ++ [sent])
    (hpoll : sent.poll = none) : SentStep s s' :=
  .inr ⟨sent, h, fun poll hmem => by rw [hpoll] at hmem; cases hmem⟩

theorem sentStep_tailRead : SentStep s (s.tailRead request outcome) := by
  unfold RpcHost.tailRead
  split
  · exact .inl rfl
  · unfold RpcHost.resumeFsTail
    split
    · exact sentStep_send rfl rfl
    · exact sentStep_send rfl rfl
    · split
      · split <;> exact sentStep_send rfl rfl
      · exact sentStep_send rfl rfl

theorem sentStep_handleLogsTail (envelope : RpcEnvelope) (outcome : LogsOutcome) :
    SentStep s (s.handleLogsTail envelope outcome) := by
  unfold RpcHost.handleLogsTail
  split
  · exact sentStep_send rfl rfl
  · split <;> exact sentStep_send rfl rfl
  · split <;> exact sentStep_send rfl rfl

theorem sentStep_closeWithError {s s' : RpcHost} (h : Handle FileRpcFollower)
    (error : RelayNodeError) (hsent : s'.sent = s.sent) :
    SentStep s (s'.closeWithError h error) := by
  unfold RpcHost.closeWithError
  split
  · exact .inl hsent
  · exact sentStep_send (congrArg (· ++ _) hsent) rfl

theorem sentStep_fileRead (outcome : FileReadOutcome) : SentStep s (s.fileRead id outcome) := by
  unfold RpcHost.fileRead
  split
  · exact .inl rfl
  · rename_i h hfind
    split
    · rename_i hreading
      cases outcome with
      | error error => exact sentStep_closeWithError h error rfl
      | read size bytesRead =>
        dsimp only
        split
        · exact .inl rfl
        · split
          · refine .inr ⟨_, rfl, fun poll hpoll => ?_⟩
            obtain rfl := Option.some.inj hpoll
            exact ⟨h.body, Handles.body?_of_find? hfind, by rw [hreading]; decide⟩
          · exact .inl rfl
    · exact .inl rfl

theorem sentStep_fileWritten : SentStep s (s.fileWritten id failure) := by
  unfold RpcHost.fileWritten
  split
  · exact .inl rfl
  · rename_i h _
    split
    · exact .inl rfl
    · exact sentStep_closeWithError h _ rfl
    · exact .inl rfl

theorem sentStep_logRead
    (outcome : Except String String) : SentStep s (s.logRead id file outcome) := by
  unfold RpcHost.logRead
  split
  · exact .inl rfl
  · rename_i h hfind
    split
    · rename_i hactive
      split
      · exact sentStep_send rfl rfl
      · split
        · exact .inl rfl
        · refine .inr ⟨_, rfl, fun poll hpoll => ?_⟩
          obtain rfl := Option.some.inj hpoll
          exact ⟨h.body, Handles.body?_of_find? hfind, by simpa using hactive⟩
    · exact .inl rfl

theorem sentStep_step : SentStep s (s.step op) := by
  cases op with
  | fsTail envelope | closeAllLogFollowers => exact .inl rfl
  | tailRead request outcome => exact sentStep_tailRead s request outcome
  | fsTailCancel streamId | logsTailCancel streamId => cases streamId <;> exact .inl rfl
  | logsTail envelope outcome => exact sentStep_handleLogsTail s envelope outcome
  | pollFile id =>
    show SentStep s (s.pollFile id)
    unfold RpcHost.pollFile
    split
    · exact .inl rfl
    · split <;> exact .inl rfl
  | fileRead id outcome => exact sentStep_fileRead s id outcome
  | fileWritten id failure => exact sentStep_fileWritten s id failure
  | pollLog id file =>
    show SentStep s (s.pollLog id file)
    unfold RpcHost.pollLog
    split
    · exact .inl rfl
    · split <;> exact .inl rfl
  | logRead id file outcome => exact sentStep_logRead s id file outcome

/-- Bodies of one kind, changed at most where they satisfy `P` already. -/
theorem body?_setBody_of {σ : Type} {hs : Handles σ} {P : σ → Prop} {changed id : ℕ}
    {h : Handle σ} {body : σ} (hfind : hs.find? changed = some h) (hP : P body → P h.body)
    (hafter : ∃ b, (hs.setBody changed body).body? id = some b ∧ P b) :
    ∃ b, hs.body? id = some b ∧ P b := by
  obtain ⟨b, hbody, hb⟩ := hafter
  rw [Handles.body?_setBody] at hbody
  split_ifs at hbody with hid
  · obtain ⟨-, -, rfl⟩ := Option.map_eq_some_iff.mp hbody
    exact ⟨h.body, hid ▸ Handles.body?_of_find? hfind, hP hb⟩
  · exact ⟨b, hbody, hb⟩

section
variable {s : RpcHost} {op : HostOp}

theorem polling_file_step {id : ℕ}
    (h : (s.step op).Polling (.file id)) :
    s.Polling (.file id) ∨ (op = .pollFile id ∧ s.LiveAt (.file id)) := by
  -- a body that is idle afterwards is not what polls
  have hset {changed : ℕ} {handle : Handle FileRpcFollower} {body : FileRpcFollower}
      (hfind : s.fileFollowers.find? changed = some handle)
      (hbusy : body.active ≠ .idle → handle.body.active ≠ .idle)
      (h : ∃ b, (s.fileFollowers.setBody changed body).body? id = some b ∧ b.active ≠ .idle) :
      s.Polling (.file id) := by
    show ∃ b, s.fileFollowers.body? id = some b ∧ b.active ≠ .idle
    exact body?_setBody_of (P := fun b => b.active ≠ .idle) hfind hbusy h
  have hclosed (s' : RpcHost) (handle : Handle FileRpcFollower) (error : RelayNodeError) :
      (s'.closeWithError handle error).fileFollowers.body? id = s'.fileFollowers.body? id := by
    unfold RpcHost.closeWithError
    split
    · rfl
    · show ((s'.fileFollowers.closeHandle handle.id).close handle.key).body? id = _
      rw [Handles.body?_close, Handles.body?_closeHandle]
  cases op with
  | fsTail envelope => exact .inl h
  | tailRead request outcome =>
    refine .inl ?_
    change (s.tailRead request outcome).Polling (.file id) at h
    unfold RpcHost.tailRead at h
    split at h
    · exact h
    · unfold RpcHost.resumeFsTail at h
      split at h
      · exact h
      · exact h
      · split at h
        · split at h
          · exact h
          · obtain ⟨body, hbody, hbusy⟩ := h
            rcases Handles.body?_replace hbody with hbefore | rfl
            · exact ⟨body, hbefore, hbusy⟩
            · exact absurd rfl hbusy
        · exact h
  | fsTailCancel streamId =>
    cases streamId with
    | none => exact .inl h
    | some streamId =>
      obtain ⟨body, hbody, hbusy⟩ := h
      exact .inl ⟨body, (Handles.body?_close _ _ _).symm.trans hbody, hbusy⟩
  | logsTail envelope outcome =>
    obtain ⟨body, hbody, hbusy⟩ := h
    change (s.handleLogsTail envelope outcome).fileFollowers.body? id = some body at hbody
    rw [fileFollowers_handleLogsTail] at hbody
    exact .inl ⟨body, hbody, hbusy⟩
  | logsTailCancel streamId => cases streamId <;> exact .inl h
  | closeAllLogFollowers =>
    obtain ⟨body, hbody, hbusy⟩ := h
    exact .inl ⟨body, (Handles.body?_closeAll _ _).symm.trans hbody, hbusy⟩
  | pollFile polled =>
    change (s.pollFile polled).Polling (.file id) at h
    unfold RpcHost.pollFile at h
    split at h
    · exact .inl h
    · rename_i handle hfind
      split at h
      · exact .inl h
      · rename_i hstarts
        simp only [Bool.or_eq_true, not_or, Bool.not_eq_true] at hstarts
        by_cases hid : id = polled
        · subst hid
          obtain ⟨hmem, hhandle⟩ := Handles.find?_mem hfind
          exact .inr ⟨rfl, handle, Handles.mem_live.mpr ⟨hmem, hstarts.1⟩, hhandle⟩
        · obtain ⟨body, hbody, hbusy⟩ := h
          rw [show Handles.body? _ id = s.fileFollowers.body? id from
            (Handles.body?_setBody _ _ _ _).trans (if_neg hid)] at hbody
          exact .inl ⟨body, hbody, hbusy⟩
  | fileRead read outcome =>
    refine .inl ?_
    change (s.fileRead read outcome).Polling (.file id) at h
    unfold RpcHost.fileRead at h
    split at h
    · exact h
    · rename_i handle hfind
      split at h
      · rename_i hreading
        have hbusy : handle.body.active ≠ .idle := by
          rw [hreading]
          decide
        cases outcome with
        | error error =>
          obtain ⟨body, hbody, hb⟩ := h
          rw [hclosed] at hbody
          exact hset hfind (fun _ => hbusy) ⟨body, hbody, hb⟩
        | read size bytesRead =>
          dsimp only at h
          split at h
          · exact hset hfind (fun _ => hbusy) h
          · split at h <;> exact hset hfind (fun _ => hbusy) h
      · exact h
  | fileWritten written failure =>
    refine .inl ?_
    change (s.fileWritten written failure).Polling (.file id) at h
    unfold RpcHost.fileWritten at h
    split at h
    · exact h
    · rename_i handle hfind
      have hidle {body : FileRpcFollower} (hbody : body.active = .idle) :
          body.active ≠ .idle → handle.body.active ≠ .idle := fun hne => absurd hbody hne
      split at h
      · exact hset hfind (hidle rfl) h
      · obtain ⟨body, hbody, hb⟩ := h
        rw [hclosed] at hbody
        exact hset hfind (hidle rfl) ⟨body, hbody, hb⟩
      · exact h
  | pollLog polled file =>
    obtain ⟨body, hbody, hbusy⟩ := h
    change (s.pollLog polled file).fileFollowers.body? id = some body at hbody
    rw [fileFollowers_pollLog] at hbody
    exact .inl ⟨body, hbody, hbusy⟩
  | logRead read file outcome =>
    obtain ⟨body, hbody, hbusy⟩ := h
    change (s.logRead read file outcome).fileFollowers.body? id = some body at hbody
    rw [fileFollowers_logRead] at hbody
    exact .inl ⟨body, hbody, hbusy⟩

theorem polling_log_step {id : ℕ} {file : String}
    (h : (s.step op).Polling (.log id file)) :
    s.Polling (.log id file) ∨ (op = .pollLog id file ∧ s.LiveAt (.log id file)) := by
  have hsame (s' : RpcHost) (hlogs : s'.logFollowers = s.logFollowers)
      (h : s'.Polling (.log id file)) : s.Polling (.log id file) := by
    obtain ⟨body, hbody, hfile⟩ := h
    exact ⟨body, hlogs ▸ hbody, hfile⟩
  cases op with
  | fsTail envelope => exact .inl h
  | tailRead request outcome => exact .inl (hsame _ (logFollowers_tailRead s request outcome) h)
  | fsTailCancel streamId => cases streamId <;> exact .inl h
  | logsTail envelope outcome =>
    refine .inl ?_
    change (s.handleLogsTail envelope outcome).Polling (.log id file) at h
    unfold RpcHost.handleLogsTail at h
    split at h
    · exact h
    · split at h <;> exact h
    · split at h
      · exact h
      · exact h
      · obtain ⟨body, hbody, hfile⟩ := h
        rcases Handles.body?_replace hbody with hbefore | rfl
        · exact ⟨body, hbefore, hfile⟩
        · exact absurd hfile not_mem_nil
  | logsTailCancel streamId =>
    cases streamId with
    | none => exact .inl h
    | some streamId =>
      obtain ⟨body, hbody, hfile⟩ := h
      exact .inl ⟨body, (Handles.body?_close _ _ _).symm.trans hbody, hfile⟩
  | closeAllLogFollowers =>
    obtain ⟨body, hbody, hfile⟩ := h
    exact .inl ⟨body, (Handles.body?_closeAll _ _).symm.trans hbody, hfile⟩
  | pollFile polled => exact .inl (hsame _ (logFollowers_pollFile s polled) h)
  | fileRead read outcome => exact .inl (hsame _ (logFollowers_fileRead s read outcome) h)
  | fileWritten written failure =>
    exact .inl (hsame _ (logFollowers_fileWritten s written failure) h)
  | pollLog polled polledFile =>
    change (s.pollLog polled polledFile).Polling (.log id file) at h
    unfold RpcHost.pollLog at h
    split at h
    · exact .inl h
    · rename_i handle hfind
      split at h
      · exact .inl h
      · rename_i hstarts
        simp only [Bool.or_eq_true, not_or, Bool.not_eq_true] at hstarts
        obtain ⟨body, hbody, hfile⟩ := h
        rw [show Handles.body? _ id = _ from Handles.body?_setBody _ _ _ _] at hbody
        split_ifs at hbody with hid
        · obtain ⟨-, -, rfl⟩ := Option.map_eq_some_iff.mp hbody
          rcases mem_append.mp hfile with hfile | hfile
          · exact .inl ⟨handle.body, hid ▸ Handles.body?_of_find? hfind, hfile⟩
          · -- the file this tick reads
            obtain ⟨hmem, hhandle⟩ := Handles.find?_mem hfind
            rw [mem_singleton.mp hfile, hid]
            exact .inr ⟨rfl, handle, Handles.mem_live.mpr ⟨hmem, hstarts.1⟩, hhandle⟩
        · exact .inl ⟨body, hbody, hfile⟩
  | logRead read readFile outcome =>
    refine .inl ?_
    change (s.logRead read readFile outcome).Polling (.log id file) at h
    unfold RpcHost.logRead at h
    split at h
    · exact h
    · rename_i handle hfind
      split at h
      · -- a read that ends leaves the other files of the follower
        have hset (h : ∃ b, (s.logFollowers.setBody read
            { handle.body with
              activeReads := handle.body.activeReads.filter (· ≠ readFile) }).body? id = some b ∧
              file ∈ b.activeReads) : s.Polling (.log id file) := by
          show ∃ b, s.logFollowers.body? id = some b ∧ file ∈ b.activeReads
          exact body?_setBody_of (P := fun b => file ∈ b.activeReads) hfind
            (fun hfile => (mem_filter.mp hfile).1) h
        split at h
        · exact hset h
        · split at h <;> exact hset h
      · exact h

/-- A poll under way was started by a tick of a follower that was live, or goes on. -/
theorem polling_step {poll : PollId} (h : (s.step op).Polling poll) :
    s.Polling poll ∨ (op.Polls poll ∧ s.LiveAt poll) := by
  cases poll with
  | file id => exact polling_file_step h
  | log id file => exact polling_log_step h

end

/-! ## Runs -/

/-- The poll was started by a live follower, and has been under way since. -/
def HostRun.Started (ops : List HostOp) (poll : PollId) : Prop :=
  ∃ pre op post, ops = pre ++ op :: post ∧ op.Polls poll ∧
    (exec HostRun.step .start pre).host.LiveAt poll ∧
    ∀ mid, mid <+: post → (exec HostRun.step .start (pre ++ op :: mid)).host.Polling poll

theorem exec_concat :
    exec HostRun.step .start (ops ++ [op]) = (exec HostRun.step .start ops).step op := by
  rw [exec_append]
  rfl

theorem started_of_polling {poll : PollId}
    (h : (exec HostRun.step .start ops).host.Polling poll) : HostRun.Started ops poll := by
  induction ops using List.reverseRecOn with
  | nil => cases poll <;> exact absurd h (by rintro ⟨body, hbody, -⟩; cases hbody)
  | append_singleton ops op ih =>
    have hpolling := h
    rw [exec_concat] at h
    rcases polling_step h with hbefore | ⟨hpolls, hlive⟩
    · obtain ⟨pre, start, post, rfl, hstart, hlive, hsince⟩ := ih hbefore
      refine ⟨pre, start, post ++ [op], by simp, hstart, hlive, fun mid hmid => ?_⟩
      rcases prefix_concat_iff.mp hmid with rfl | hmid
      · simpa using hpolling
      · exact hsince mid hmid
    · refine ⟨ops, op, [], rfl, hpolls, hlive, fun mid hmid => ?_⟩
      rw [prefix_nil.mp hmid]
      exact hpolling

theorem registered_exec : (exec HostRun.step .start ops).host.Registered :=
  exec_invariant (I := fun s : HostRun => s.host.Registered)
    (fun _ op h => registered_step h op) ops
    ⟨Handles.registered_empty, Handles.registered_empty⟩

/-- **Followers**: in every run, at most one follower of each kind lives per stream, the map holds
    it, and chunks come from polls that a live follower started.  No follower outlives a cancel of
    its request exactly if no read that starts one was cancelled while it was awaited. -/
theorem followers_of_run (ops : List HostOp) :
    ((exec HostRun.step .start ops).host.Registered ∧
      (∀ f ∈ (exec HostRun.step .start ops).host.fileFollowers.live,
        ∀ f' ∈ (exec HostRun.step .start ops).host.fileFollowers.live, f.key = f'.key → f = f') ∧
      (∀ f ∈ (exec HostRun.step .start ops).host.logFollowers.live,
        ∀ f' ∈ (exec HostRun.step .start ops).host.logFollowers.live, f.key = f'.key → f = f') ∧
      ∀ op, ∀ sent ∈ ((exec HostRun.step .start ops).host.step op).sent.drop
          (exec HostRun.step .start ops).host.sent.length,
        ∀ poll ∈ sent.poll, HostRun.Started ops poll) ∧
    ((∀ pre, pre <+: ops → (exec HostRun.step .start pre).Unfollowed) ↔
      Guarded HostRun.step HostRun.NotCancelled .start ops) ∧
    (Guarded HostRun.step HostRun.NotCancelled .start ops →
      ∀ pre, pre <+: ops → (exec HostRun.step .start pre).Released) := by
  have hreg := registered_exec ops
  have hiff : (∀ pre, pre <+: ops → (exec HostRun.step .start pre).Unfollowed) ↔
      Guarded HostRun.step HostRun.NotCancelled .start ops := by
    refine forall_prefix_iff_guarded (I := HostRun.Inv) (fun _ h => h.unfollowed)
      (fun _ op h hop => hostInv_step h op hop) (fun _ op _ h => notCancelled_of_unfollowed op h) ?_
    exact ⟨⟨Handles.registered_empty, Handles.registered_empty⟩,
      fun closing h => absurd h not_mem_nil⟩
  refine ⟨⟨hreg, fun f hf f' hf' => hreg.files.eq_of_key hf hf',
    fun f hf f' hf' => hreg.logs.eq_of_key hf hf', fun op sent hsent poll hpoll => ?_⟩, hiff,
    fun hguarded pre hpre => (hiff.mpr hguarded pre hpre).released⟩
  rcases sentStep_step (exec HostRun.step .start ops).host op with hsame | ⟨last, hlast, hpolls⟩
  · rw [hsame, drop_length] at hsent
    exact absurd hsent not_mem_nil
  · rw [hlast, drop_left, mem_singleton] at hsent
    exact started_of_polling ops (hpolls poll (hsent ▸ hpoll))

/-- A followed tail is cancelled while its file is being read. -/
def cancelledRead : List HostOp :=
  [ .fsTail ⟨some "request", some "stream"⟩,
    .fsTailCancel (some "stream"),
    .tailRead 0 (.response ⟨"/var/log/app.log", 120, true, 65536⟩) ]

/-- Its follower starts all the same, and lives on. -/
theorem not_released_cancelledRead : ¬(exec HostRun.step .start cancelledRead).Released := by
  intro h
  have hlive : (exec HostRun.step .start cancelledRead).host.fileFollowers.live.map
      (fun f => (f.key, f.origin)) = [("stream", 0)] := by decide
  have hclosings : (exec HostRun.step .start cancelledRead).closings = [⟨some "stream", 1⟩] := by
    decide
  have hpending : (exec HostRun.step .start cancelledRead).host.pending = [] := by decide
  obtain ⟨f, hf, hpair⟩ := mem_map.mp (hlive ▸ mem_singleton_self ("stream", 0))
  rw [Prod.mk.injEq] at hpair
  have hafter := h ⟨some "stream", 1⟩ (hclosings ▸ mem_singleton_self _)
    (fun p hp => absurd (hpending ▸ hp) not_mem_nil) f hf (.inr (congrArg some hpair.1.symm))
  rw [hpair.2] at hafter
  exact absurd hafter (by decide)

end RelayIde.Links
