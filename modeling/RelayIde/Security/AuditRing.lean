import RelayIde.Audit.Entry
import RelayIde.Library.Machine
import RelayIde.Library.RingBuffer
import RelayIde.Security.ActorCredential
import RelayIde.Security.HandshakeGrant

/-!
# Audit Rings

The bounded audit log of the two registries, `ScopedActorCredentialRegistry` and
`HandshakeGrantRegistry`: the same code twice, over two kinds of events.

- `Refines` — the log lists the end of the history
-/

namespace RelayIde.Security.AuditRing

open RelayIde.Library List

/-! ## Events -/

structure AuditActor where
  type : ActorType
  id : String
  displayName : Option String
deriving DecidableEq

/-- The issuer of a credential, or of a grant by the hash of its id. -/
structure AuditIssuer where
  id : String
  displayName : Option String
deriving DecidableEq

/-- What both registries audit, besides `correlationId` and `repeatedCount`. -/
structure AuditFields (Action Audience : Type) where
  action : Action
  decision : Audit.SecurityAuditDecision
  reasonCode : String
  actor : Option AuditActor := none
  issuer : Option AuditIssuer := none
  audience : Option Audience := none
  scopeHash : String
  paramsHash : String
  requiredBits : List RelayCapabilityBit := []
  grantedBits : List RelayCapabilityBit := []
  deniedBits : List String := []
deriving DecidableEq

inductive CredentialAction
  | issue | validate | revoke | expiry
deriving DecidableEq

/-- `ScopedActorCredentialAuditEvent`. -/
structure CredentialDraft extends AuditFields CredentialAction ActorCredential.Audience where
  credentialId : Option String := none
deriving DecidableEq

inductive GrantAction
  | request | approve | deny | issue | validate | expiry | revoke | replay
deriving DecidableEq

/-- `HandshakeGrantAuditEvent`. -/
structure GrantDraft extends AuditFields GrantAction HandshakeGrant.Audience where
  grantId : Option String := none
  jti : Option String := none
deriving DecidableEq

section Comparison

variable {α Action Audience : Type} [DecidableEq α] [DecidableEq Action] [DecidableEq Audience]

def sameAuditBits (a b : List α) : Bool :=
  a.length = b.length && (a.zip b).all fun bits => bits.1 = bits.2

def sameFields (previous candidate : AuditFields Action Audience) : Bool :=
  previous.action = candidate.action && previous.decision = candidate.decision &&
    previous.reasonCode = candidate.reasonCode && previous.audience = candidate.audience &&
    previous.actor.map (·.type) = candidate.actor.map (·.type) &&
    previous.actor.map (·.id) = candidate.actor.map (·.id) &&
    previous.actor.bind (·.displayName) = candidate.actor.bind (·.displayName) &&
    previous.issuer.map (·.id) = candidate.issuer.map (·.id) &&
    previous.issuer.bind (·.displayName) = candidate.issuer.bind (·.displayName) &&
    previous.scopeHash = candidate.scopeHash && previous.paramsHash = candidate.paramsHash &&
    sameAuditBits previous.requiredBits candidate.requiredBits &&
    sameAuditBits previous.grantedBits candidate.grantedBits &&
    sameAuditBits previous.deniedBits candidate.deniedBits

/-- `isRepeatedAuditEvent` of the credentials. -/
def CredentialDraft.isRepeatedAuditEvent (previous candidate : CredentialDraft) : Bool :=
  sameFields previous.toAuditFields candidate.toAuditFields &&
    previous.credentialId = candidate.credentialId

/-- `isRepeatedAuditEvent` of the grants. -/
def GrantDraft.isRepeatedAuditEvent (previous candidate : GrantDraft) : Bool :=
  sameFields previous.toAuditFields candidate.toAuditFields &&
    previous.grantId = candidate.grantId && previous.jti = candidate.jti

theorem sameAuditBits_iff (a b : List α) : sameAuditBits a b = true ↔ a = b := by
  induction a generalizing b with
  | nil => cases b <;> simp [sameAuditBits]
  | cons x a ih =>
    cases b with
    | nil => simp [sameAuditBits]
    | cons y b =>
      have htail := ih b
      simp only [sameAuditBits, length_cons, Nat.add_right_cancel_iff, zip_cons_cons,
        all_cons, Bool.and_eq_true, decide_eq_true_eq, List.cons.injEq, ← htail]
      tauto

theorem actor_eq_iff (a b : Option AuditActor) :
    a.map (·.type) = b.map (·.type) ∧ a.map (·.id) = b.map (·.id) ∧
      a.bind (·.displayName) = b.bind (·.displayName) ↔ a = b := by
  cases a with
  | none => cases b <;> simp
  | some a =>
    cases b with
    | none => simp
    | some b =>
      cases a
      cases b
      simp

theorem issuer_eq_iff (a b : Option AuditIssuer) :
    a.map (·.id) = b.map (·.id) ∧ a.bind (·.displayName) = b.bind (·.displayName) ↔ a = b := by
  cases a with
  | none => cases b <;> simp
  | some a =>
    cases b with
    | none => simp
    | some b =>
      cases a
      cases b
      simp

theorem sameFields_iff (previous candidate : AuditFields Action Audience) :
    sameFields previous candidate = true ↔ previous = candidate := by
  have hactor := actor_eq_iff previous.actor candidate.actor
  have hissuer := issuer_eq_iff previous.issuer candidate.issuer
  simp only [sameFields, Bool.and_eq_true, sameAuditBits_iff]
  constructor
  · rintro ⟨⟨⟨⟨⟨⟨⟨⟨⟨⟨⟨⟨⟨haction, hdecision⟩, hreason⟩, haudience⟩, htype⟩, hid⟩, hname⟩, hissuerId⟩,
      hissuerName⟩, hscope⟩, hparams⟩, hrequired⟩, hgranted⟩, hdenied⟩
    cases previous
    cases candidate
    simp_all
  · rintro rfl
    simp

theorem CredentialDraft.isRepeatedAuditEvent_iff (previous candidate : CredentialDraft) :
    previous.isRepeatedAuditEvent candidate = true ↔ previous = candidate := by
  cases previous
  cases candidate
  simp [CredentialDraft.isRepeatedAuditEvent, sameFields_iff]

theorem GrantDraft.isRepeatedAuditEvent_iff (previous candidate : GrantDraft) :
    previous.isRepeatedAuditEvent candidate = true ↔ previous = candidate := by
  cases previous
  cases candidate
  simp [GrantDraft.isRepeatedAuditEvent, sameFields_iff, and_assoc]

end Comparison

/-! ## The log -/

variable {D : Type}

structure AuditEvent (D : Type) where
  draft : D
  correlationId : String
  repeatedCount : Option ℕ := none

structure AuditLog (D : Type) where
  auditEvents : RingBuffer (AuditEvent D) := {}
  lastAuditCorrelated : Bool := false

/-- An event to record, with the id drawn for it if the caller gives none. -/
structure Call (D : Type) where
  draft : D
  correlationId : Option String := none
  randomUUID : String

def Call.event (call : Call D) : AuditEvent D :=
  ⟨call.draft, call.correlationId.getD call.randomUUID, none⟩

/-- `appendAuditEvent`, as `recordAudit` calls it. -/
def recordAudit (isRepeatedAuditEvent : D → D → Bool) (maxAuditEvents : ℕ) (log : AuditLog D)
    (call : Call D) : AuditLog D :=
  let pushed : AuditLog D :=
    ⟨log.auditEvents.push maxAuditEvents call.event, call.correlationId.isSome⟩
  match log.auditEvents.newest? maxAuditEvents with
  | none => pushed
  | some newest =>
    if !call.correlationId.isSome && !log.lastAuditCorrelated &&
        isRepeatedAuditEvent newest.draft call.draft then
      { log with
        auditEvents := log.auditEvents.setNewest maxAuditEvents
          { newest with repeatedCount := some (newest.repeatedCount.getD 1 + 1) } }
    else pushed

def listAuditEvents (maxAuditEvents : ℕ) (log : AuditLog D) : List (AuditEvent D) :=
  log.auditEvents.toList maxAuditEvents

def droppedAuditEventCount (log : AuditLog D) : ℕ :=
  log.auditEvents.dropped

/-! ## The history -/

/-- An entry of the history, with the events that were folded into its first. -/
structure Entry (D : Type) where
  first : Call D
  repeats : List (Call D) := []

/-- An uncorrelated event equal to an uncorrelated entry. -/
def Entry.Takes (entry : Entry D) (call : Call D) : Prop :=
  call.correlationId = none ∧ entry.first.correlationId = none ∧ entry.first.draft = call.draft

instance [DecidableEq D] (entry : Entry D) (call : Call D) : Decidable (entry.Takes call) :=
  inferInstanceAs (Decidable (_ ∧ _ ∧ _))

/-- One more event: folded into the newest entry, or an entry of its own. -/
def record [DecidableEq D] (history : List (Entry D)) (call : Call D) : List (Entry D) :=
  match history.getLast? with
  | none => [⟨call, []⟩]
  | some newest =>
    if newest.Takes call then
      history.dropLast ++ [{ newest with repeats := newest.repeats ++ [call] }]
    else history ++ [⟨call, []⟩]

/-- How the log shows an entry: counted, when it stands for more than one event. -/
def Entry.shown (entry : Entry D) : AuditEvent D :=
  { entry.first.event with
    repeatedCount := if entry.repeats = [] then none else some (entry.repeats.length + 1) }

structure Refines [DecidableEq D] (isRepeatedAuditEvent : D → D → Bool) (maxAuditEvents : ℕ)
    (calls : List (Call D)) (log : AuditLog D) (history : List (Entry D)) : Prop where
  listed : listAuditEvents maxAuditEvents log =
    (history.map Entry.shown).drop (history.length - maxAuditEvents)
  dropped : droppedAuditEventCount log + (listAuditEvents maxAuditEvents log).length =
    history.length
  complete : history.flatMap (fun entry => entry.first :: entry.repeats) = calls
  folded : ∀ entry ∈ history, ∀ call ∈ entry.repeats, entry.Takes call

section Refinement

variable {isRepeatedAuditEvent : D → D → Bool} {cap : ℕ} {log : AuditLog D}
  {history : List (Entry D)}

/-- The invariant of a run. -/
structure LogInv (cap : ℕ) (calls : List (Call D)) (log : AuditLog D)
    (history : List (Entry D)) : Prop where
  holds : log.auditEvents.Holds cap (history.map Entry.shown)
  correlated : ∀ newest, history.getLast? = some newest →
    log.lastAuditCorrelated = newest.first.correlationId.isSome
  complete : history.flatMap (fun entry => entry.first :: entry.repeats) = calls
  folded : ∀ entry ∈ history, ∀ call ∈ entry.repeats, entry.Takes call

theorem shown_repeats (entry : Entry D) (call : Call D) :
    { entry.shown with repeatedCount := some (entry.shown.repeatedCount.getD 1 + 1) } =
      Entry.shown { entry with repeats := entry.repeats ++ [call] } := by
  unfold Entry.shown
  by_cases hnone : entry.repeats = []
  · simp [hnone]
  · simp [hnone]

theorem LogInv.pushed {calls : List (Call D)} (h : LogInv cap calls log history) (call : Call D) :
    LogInv cap (calls ++ [call])
      ⟨log.auditEvents.push cap call.event, call.correlationId.isSome⟩
      (history ++ [⟨call, []⟩]) := by
  refine ⟨?_, fun newest hnewest => ?_, ?_, fun entry hentry => ?_⟩
  · rw [map_append]
    exact h.holds.push call.event
  · rw [getLast?_concat] at hnewest
    cases hnewest
    rfl
  · rw [flatMap_append, h.complete]
    rfl
  · obtain hentry | hentry := mem_append.mp hentry
    · exact h.folded entry hentry
    · rw [mem_singleton.mp hentry]
      exact fun _ hcall => absurd hcall not_mem_nil

variable [DecidableEq D]

section
variable (hsame : ∀ a b, isRepeatedAuditEvent a b = true ↔ a = b)
include hsame

/-- A call is folded into the newest record, or starts one, in log and history alike. -/
theorem logInv_step {calls : List (Call D)} (h : LogInv cap calls log history) (call : Call D) :
    LogInv cap (calls ++ [call]) (recordAudit isRepeatedAuditEvent cap log call)
      (record history call) := by
  obtain rfl | ⟨earlier, newest, rfl⟩ := history.eq_nil_or_concat'
  · have hnone := h.holds.newest?_nil
    simp only [recordAudit, hnone]
    exact h.pushed call
  · have hholds := h.holds
    rw [map_append] at hholds
    obtain ⟨hnewest, hset⟩ := hholds.newest
    have hcorrelated := h.correlated newest getLast?_concat
    have htakes : (!call.correlationId.isSome && !log.lastAuditCorrelated &&
        isRepeatedAuditEvent newest.shown.draft call.draft) = true ↔ newest.Takes call := by
      rw [hcorrelated]
      simp only [Bool.and_eq_true, Bool.not_eq_true', Option.isSome_eq_false_iff,
        Option.isNone_iff_eq_none, hsame, and_assoc]
      rfl
    simp only [recordAudit, record, hnewest, getLast?_concat]
    by_cases hfold : newest.Takes call
    · rw [if_pos (htakes.mpr hfold), if_pos hfold, dropLast_concat]
      refine ⟨?_, fun entry hentry => ?_, ?_, fun entry hentry => ?_⟩
      · rw [map_append, map_singleton, ← shown_repeats]
        exact hset _
      · rw [getLast?_concat] at hentry
        cases hentry
        exact hcorrelated
      · rw [← h.complete]
        simp
      · obtain hentry | hentry := mem_append.mp hentry
        · exact h.folded entry (mem_append_left _ hentry)
        · rw [mem_singleton.mp hentry]
          intro other hother
          obtain hother | hother := mem_append.mp hother
          · exact h.folded newest (mem_append_right _ mem_cons_self) other hother
          · rw [mem_singleton.mp hother]
            exact hfold
    · rw [if_neg (fun hcond => hfold (htakes.mp hcond)), if_neg hfold]
      exact h.pushed call

theorem logInv_exec (rest : List (Call D))
    {calls : List (Call D)} (h : LogInv cap calls log history) :
    LogInv cap (calls ++ rest) (exec (recordAudit isRepeatedAuditEvent cap) log rest)
      (exec record history rest) := by
  induction rest generalizing calls log history with
  | nil => rwa [append_nil]
  | cons call rest ih =>
    have hstep := ih (logInv_step hsame h call)
    rwa [append_assoc] at hstep

/-- The log shows the end of its history. -/
theorem refines_of_run (hcap : 0 < cap)
    (calls : List (Call D)) :
    Refines isRepeatedAuditEvent cap calls (exec (recordAudit isRepeatedAuditEvent cap) {} calls)
      (exec record [] calls) := by
  have hempty : LogInv cap ([] : List (Call D)) {} [] :=
    ⟨RingBuffer.holds_empty hcap, (fun _ hnone => nomatch hnone), rfl, fun _ hnone => nomatch hnone⟩
  have h := logInv_exec hsame calls hempty
  refine ⟨?_, ?_, h.complete, h.folded⟩
  · rw [listAuditEvents, h.holds.toList, length_map]
  · rw [droppedAuditEventCount, listAuditEvents, h.holds.dropped, length_map]

end

end Refinement

/-- **Audit rings**: the audit log of either registry lists the newest entries of the unbounded
    history and counts the others, and the history folds only uncorrelated repeats. -/
theorem audit_rings_refine (maxAuditEvents : ℕ) (hcap : 1 ≤ maxAuditEvents) :
    (∀ calls : List (Call CredentialDraft),
      Refines CredentialDraft.isRepeatedAuditEvent maxAuditEvents calls
        (exec (recordAudit CredentialDraft.isRepeatedAuditEvent maxAuditEvents) {} calls)
        (exec record [] calls)) ∧
    ∀ calls : List (Call GrantDraft),
      Refines GrantDraft.isRepeatedAuditEvent maxAuditEvents calls
        (exec (recordAudit GrantDraft.isRepeatedAuditEvent maxAuditEvents) {} calls)
        (exec record [] calls) :=
  ⟨refines_of_run CredentialDraft.isRepeatedAuditEvent_iff hcap,
    refines_of_run GrantDraft.isRepeatedAuditEvent_iff hcap⟩

def recheck (credentialId : String) : CredentialDraft where
  action := .validate
  decision := .allow
  reasonCode := "SCOPED_ACTOR_CREDENTIAL_VALID"
  credentialId := some credentialId
  scopeHash := "s"
  paramsHash := "p"

/-- Five events, of which two are folded, in a log for two entries. -/
theorem refines_rechecks :
    Refines CredentialDraft.isRepeatedAuditEvent 2
        [⟨recheck "a", none, "u1"⟩, ⟨recheck "a", none, "u2"⟩, ⟨recheck "a", some "r", "u3"⟩,
          ⟨recheck "a", none, "u4"⟩, ⟨recheck "a", none, "u5"⟩]
        (exec (recordAudit CredentialDraft.isRepeatedAuditEvent 2) {}
          [⟨recheck "a", none, "u1"⟩, ⟨recheck "a", none, "u2"⟩, ⟨recheck "a", some "r", "u3"⟩,
            ⟨recheck "a", none, "u4"⟩, ⟨recheck "a", none, "u5"⟩])
        [⟨⟨recheck "a", none, "u1"⟩, [⟨recheck "a", none, "u2"⟩]⟩,
          ⟨⟨recheck "a", some "r", "u3"⟩, []⟩,
          ⟨⟨recheck "a", none, "u4"⟩, [⟨recheck "a", none, "u5"⟩]⟩] :=
  (audit_rings_refine 2 (by decide)).1 _

end RelayIde.Security.AuditRing
