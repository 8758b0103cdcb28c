import RelayIde.Security.Confirmation

/-!
# Failed Redemptions

Beside a run of the challenge store of `server/confirmation-challenges.ts` this module keeps the
redemption attempts that failed.  Only `invalidateRedemptionChallenge` counts an attempt;
`failChallenge`, which answers a wrong session, does not, and nothing reads
`maxFailedRedemptions`.

- `Proper` — the attempts that the store counts when they fail
-/

namespace RelayIde.Security.Confirmation

open RelayIde.Library List
open RelayIde.Library.Json

/-- A run with the challenges of its failed redemption attempts, one entry for each attempt. -/
structure Tally (Num : Type) where
  world : World Num
  failed : List String

section Definitions

variable {Num : Type} (sha256Hex : JsText → JsText) (F : NumberFormat Num) (o : Options)

def holderOf (s : Store) (token : String) : Option Challenge :=
  s.rows.find? fun c => c.tokenHash = some (hashToken sha256Hex token)

/-- The challenge whose token an attempt presents, when the attempt fails. -/
def failedOn (s : Store) (input : RedeemInput Num) (now : ℤ) : Option String :=
  match (redeemToken sha256Hex F s input now).1 with
  | .ok _ => none
  | .error _ => (holderOf sha256Hex s input.token).map (·.challengeId)

/-- One call, and the attempt it may be. -/
def tallyStep (t : Tally Num) (op : Op Num) : Tally Num where
  world := step sha256Hex F o t.world op
  failed := t.failed ++
    match op with
    | .redeemToken input now => (failedOn sha256Hex F t.world.store input now).toList
    | _ => []

structure ProperAttempt (c : Challenge) (input : RedeemInput Num) (now : ℤ) : Prop where
  unexpired : expires c now true = false
  approved : c.status = .approved
  requester : c.requesterAuthSessionHash = input.requesterAuthSessionHash
  approver : c.approverAuthSessionHash ≠ some input.requesterAuthSessionHash

def Proper (t : Tally Num) : Op Num → Prop
  | .redeemToken input now =>
    ∀ c, holderOf sha256Hex t.world.store input.token = some c → ProperAttempt c input now
  | _ => True

structure Bounded (t : Tally Num) : Prop where
  counted : ∀ c ∈ t.world.store.rows, c.failedRedemptions = t.failed.count c.challengeId
  closed : ∀ input now c, (redeemToken sha256Hex F t.world.store input now).1 = .ok c →
    t.failed.count c.challengeId < c.maxFailedRedemptions

/-- What a stored challenge knows of the failed attempts: a challenge that may still be redeemed
    has none. -/
structure Tallied (failed : List String) (c : Challenge) : Prop where
  counted : c.failedRedemptions = failed.count c.challengeId
  untried : isTerminal c.status = false → c.failedRedemptions = 0
  maximum : c.maxFailedRedemptions = o.maxFailedRedemptions

/-- The invariant of a run of proper attempts. -/
structure TallyInv (t : Tally Num) : Prop where
  world : Inv sha256Hex F o t.world
  rows : ∀ c ∈ t.world.store.rows, Tallied o t.failed c
  known : ∀ id ∈ t.failed, ∃ e ∈ t.world.events, e.challengeId = id

end Definitions

section Rows

variable {Num : Type} {sha256Hex : JsText → JsText} {F : NumberFormat Num} {o : Options}
  {failed : List String} {c d : Challenge} {s : Store}

theorem Tallied.of_kept (h : Tallied o failed c) (hterms : d.toTerms = c.toTerms)
    (hcount : d.failedRedemptions = c.failedRedemptions)
    (hstatus : isTerminal d.status = false → isTerminal c.status = false) : Tallied o failed d := by
  refine ⟨?_, fun hlive => ?_, ?_⟩
  · rw [hcount, hterms]
    exact h.counted
  · rw [hcount]
    exact h.untried (hstatus hlive)
  · rw [hterms]
    exact h.maximum

theorem Tallied.expire (h : Tallied o failed c) (now : ℤ) (includeToken : Bool) :
    Tallied o failed (c.expire now includeToken) :=
  h.of_kept rfl rfl fun hlive => nomatch hlive

theorem tallied_modify {id : String} {f : Challenge → Challenge}
    (hf : ∀ c, (f c).challengeId = c.challengeId) (h : ∀ c ∈ s.rows, Tallied o failed c)
    (hone : ∀ c ∈ s.rows, c.challengeId = id → Tallied o failed (f c)) :
    ∀ d ∈ (modify s id f hf).rows, Tallied o failed d := by
  intro d hd
  obtain ⟨c, hc, rfl⟩ := mem_map.mp hd
  split
  · rename_i hid
    exact hone c hc (of_decide_eq_true hid)
  · exact h c hc

section
variable (h : ∀ c ∈ s.rows, Tallied o failed c)
include h

theorem tallied_prune (now : ℤ) :
    ∀ d ∈ (pruneStoredChallenges o s now).rows, Tallied o failed d := by
  intro d hd
  have hkept := rows_evictWhile_subset _ _ _ hd
  have hexpired := (mem_filter.mp hkept).1
  obtain ⟨c, hc, rfl⟩ := mem_map.mp hexpired
  rw [if_pos rfl, expireIfNeeded]
  split
  · exact (h c hc).expire now true
  · exact h c hc

theorem tallied_approveChallenge (input : ApproveInput) (now : ℤ) (randomToken : String) :
    ∀ d ∈ (approveChallenge sha256Hex o s input now randomToken).2.rows, Tallied o failed d := by
  rw [approveChallenge]
  cases hfind : s.find? input.challengeId with
  | none => exact h
  | some c =>
    have hc : c ∈ s.rows := ((Table.find?_eq_some_iff _ _ _).mp hfind).1
    dsimp only
    by_cases hexpires : expires c now false = true
    · rw [if_pos hexpires]
      exact tallied_modify (Challenge.expire_challengeId now false) h
        fun d hd _ => (h d hd).expire now false
    rw [if_neg hexpires]
    by_cases hstatus : c.status = .pending
    · rw [if_neg (not_not.mpr hstatus)]
      cases hrefusal : approverRefusal sha256Hex c input with
      | some refusal =>
        exact tallied_modify (Challenge.fail_challengeId _ _ _) h
          fun d hd _ => (h d hd).of_kept rfl rfl id
      | none =>
        dsimp only
        split
        · apply tallied_modify (Challenge.deny_challengeId input now) h
          intro d hd _
          refine (h d hd).of_kept rfl rfl fun hlive => ?_
          simp only [Challenge.deny] at hlive
          split at hlive <;> cases hlive
        · apply tallied_modify (Challenge.approve_challengeId sha256Hex o input now randomToken) h
          intro d hd hsame
          -- only a pending challenge is approved
          have hdc : d = c := s.eq_of_key_eq hd hc hsame
          refine (h d hd).of_kept rfl rfl fun _ => ?_
          rw [hdc, hstatus]
          rfl
    · rw [if_pos hstatus]
      exact h

theorem tallied_getRequesterToken (challengeId requesterAuthSessionHash : String) (now : ℤ) :
    ∀ d ∈ (getRequesterToken s challengeId requesterAuthSessionHash now).2.rows,
      Tallied o failed d := by
  rw [getRequesterToken]
  split
  · exact h
  · split_ifs
    · exact tallied_modify (Challenge.expire_challengeId now true) h
        fun d hd _ => (h d hd).expire now true
    · exact h
    · exact h
    · exact h
    · split <;> exact h

end

variable {input : RedeemInput Num} {now : ℤ}

theorem redeemToken_of_proper
    (hholder : holderOf sha256Hex s input.token = some c) (h : ProperAttempt c input now) :
    redeemToken sha256Hex F s input now =
        (.ok (c.redeem now),
          modify s c.challengeId (.redeem now) (Challenge.redeem_challengeId now)) ∨
      ∃ reasonCode message, redeemToken sha256Hex F s input now =
        (.error ⟨reasonCode, message⟩,
          modify s c.challengeId (.invalidateRedemption reasonCode message)
            (Challenge.invalidateRedemption_challengeId reasonCode message)) := by
  rw [holderOf] at hholder
  simp only [redeemToken, hholder, h.unexpired, h.approved, h.requester, h.approver, ne_eq,
    not_true_eq_false, if_false, reduceCtorEq]
  split
  · exact .inr ⟨_, _, rfl⟩
  split
  · exact .inr ⟨_, _, rfl⟩
  · exact .inl rfl

theorem uncounted_of_not_proper
    (hholder : holderOf sha256Hex s input.token = some c) (h : ¬ ProperAttempt c input now) :
    failedOn sha256Hex F s input now = some c.challengeId ∧
      ∃ d ∈ (redeemToken sha256Hex F s input now).2.rows,
        d.challengeId = c.challengeId ∧ d.failedRedemptions = c.failedRedemptions := by
  have hc : c ∈ s.rows := mem_of_find?_eq_some hholder
  have hmodify : ∀ (f : Challenge → Challenge) (hf : ∀ c, (f c).challengeId = c.challengeId),
      (f c).failedRedemptions = c.failedRedemptions →
      ∃ d ∈ (modify s c.challengeId f hf).rows,
        d.challengeId = c.challengeId ∧ d.failedRedemptions = c.failedRedemptions := by
    intro f hf hcount
    refine ⟨f c, ?_, hf c, hcount⟩
    exact mem_map.mpr ⟨c, hc, by simp⟩
  have hfind := hholder
  rw [holderOf] at hfind
  rw [failedOn, hholder]
  simp only [redeemToken, hfind]
  split_ifs with hexpires hredeemed hstatus hrequester happrover
  · exact ⟨rfl, hmodify _ (Challenge.expire_challengeId now true) rfl⟩
  · exact ⟨rfl, hmodify _ Challenge.reuse_challengeId rfl⟩
  · exact ⟨rfl, c, hc, rfl, rfl⟩
  · exact ⟨rfl, hmodify _ (Challenge.fail_challengeId _ _ _) rfl⟩
  · exact ⟨rfl, hmodify _ (Challenge.fail_challengeId _ _ _) rfl⟩
  all_goals
    exact absurd ⟨by simpa using hexpires, not_not.mp hstatus, not_not.mp hrequester, happrover⟩ h

end Rows

/-! ## The runs -/

section Runs

variable {Num : Type} {sha256Hex : JsText → JsText} {F : NumberFormat Num} {o : Options}
  {failed : List String} {c : Challenge} {t : Tally Num}

theorem Tallied.of_other (h : Tallied o failed c) {ids : List String} (hids : c.challengeId ∉ ids) :
    Tallied o (failed ++ ids) c := by
  refine ⟨?_, h.untried, h.maximum⟩
  rw [count_append, count_eq_zero_of_not_mem hids]
  exact h.counted

theorem Tallied.invalidateRedemption (h : Tallied o failed c) (reasonCode : ReasonCode)
    (message : String) :
    Tallied o (failed ++ [c.challengeId]) (c.invalidateRedemption reasonCode message) := by
  refine ⟨?_, (fun hlive => nomatch hlive), h.maximum⟩
  rw [Challenge.invalidateRedemption_challengeId, count_append, count_singleton_self, ← h.counted]
  rfl

theorem events_step (w : World Num) (op : Op Num) :
    ∀ e ∈ w.events, e ∈ (step sha256Hex F o w op).events := by
  intro e he
  cases op <;> simp only [step]
  case createChallenge | approveChallenge | redeemToken =>
    split <;> simp [he]
  all_goals exact he

theorem store_redeem (w : World Num) (input : RedeemInput Num) (now : ℤ) :
    (step sha256Hex F o w (.redeemToken input now)).store =
      (redeemToken sha256Hex F w.store input now).2 := by
  simp only [step]
  split <;> simp_all only

section
variable (h : TallyInv sha256Hex F o t)
include h

theorem TallyInv.created (hc : c ∈ t.world.store.rows) :
    ∃ e ∈ t.world.events, e.challengeId = c.challengeId := by
  obtain ⟨input, now, hcreated, -⟩ := (h.world.history c hc).created
  exact ⟨_, hcreated, rfl⟩

theorem tallyInv_of_rows {op : Op Num}
    (hfresh : FreshId t.world op) (hnone : (tallyStep sha256Hex F o t op).failed = t.failed)
    (hrows : ∀ c ∈ (step sha256Hex F o t.world op).store.rows, Tallied o t.failed c) :
    TallyInv sha256Hex F o (tallyStep sha256Hex F o t op) := by
  refine ⟨inv_step op h.world hfresh, fun c hc => ?_, fun id hid => ?_⟩
  · rw [hnone]
    exact hrows c hc
  · rw [hnone] at hid
    obtain ⟨e, he, heq⟩ := h.known id hid
    exact ⟨e, events_step _ _ e he, heq⟩

theorem tallyInv_createChallenge (input : CreateInput Num) (now : ℤ)
    (randomId : String) (hfresh : FreshId t.world (.createChallenge input now randomId)) :
    TallyInv sha256Hex F o (tallyStep sha256Hex F o t (.createChallenge input now randomId)) := by
  have hroom : ∀ c ∈ (ensureCapacity o (pruneStoredChallenges o t.world.store now)).rows,
      Tallied o t.failed c :=
    fun c hc => tallied_prune h.rows now c (rows_evictWhile_subset _ _ _ hc)
  have hnew : Tallied o t.failed (newChallenge sha256Hex F o input now randomId) := by
    refine ⟨?_, fun _ => rfl, rfl⟩
    symm
    apply count_eq_zero_of_not_mem
    intro hid
    obtain ⟨e, he, heq⟩ := h.known _ hid
    exact hfresh e he heq
  apply tallyInv_of_rows h hfresh (append_nil _)
  simp only [step, createChallenge]
  split
  · rename_i s hnone
    split at hnone <;> cases hnone
    exact hroom
  · rename_i challenge s hsome
    split at hsome <;> cases hsome
    intro c hc
    obtain hold | rfl := Table.mem_insert hc
    · exact hroom c hold
    · exact hnew

theorem tallyInv_redeemToken (input : RedeemInput Num) (now : ℤ)
    (hproper : Proper sha256Hex t (.redeemToken input now)) :
    TallyInv sha256Hex F o (tallyStep sha256Hex F o t (.redeemToken input now)) := by
  cases hholder : holderOf sha256Hex t.world.store input.token with
  | none =>
    have hsame : redeemToken sha256Hex F t.world.store input now =
        (.error ⟨.tokenInvalid, "confirmation token is invalid"⟩, t.world.store) := by
      rw [holderOf] at hholder
      simp only [redeemToken, hholder]
    have hfresh : FreshId t.world (.redeemToken input now) := trivial
    apply tallyInv_of_rows h hfresh
    · simp [tallyStep, failedOn, hholder, hsame]
    · rw [store_redeem, hsame]
      exact h.rows
  | some c =>
    have hc : c ∈ t.world.store.rows := mem_of_find?_eq_some hholder
    obtain hok | ⟨reasonCode, message, herror⟩ := redeemToken_of_proper (F := F) hholder
      (hproper c hholder)
    · have hfresh : FreshId t.world (.redeemToken input now) := trivial
      apply tallyInv_of_rows h hfresh
      · simp [tallyStep, failedOn, hok]
      · rw [store_redeem, hok]
        exact tallied_modify (Challenge.redeem_challengeId now) h.rows
          fun d hd _ => (h.rows d hd).of_kept rfl rfl fun hlive => by cases hlive
    · have hfailed : (tallyStep sha256Hex F o t (.redeemToken input now)).failed =
          t.failed ++ [c.challengeId] := by
        simp [tallyStep, failedOn, herror, hholder]
      refine ⟨inv_step (.redeemToken input now) h.world trivial, fun d hd => ?_, fun id hid => ?_⟩
      · rw [hfailed]
        have hstore : (tallyStep sha256Hex F o t (.redeemToken input now)).world.store =
            modify t.world.store c.challengeId (.invalidateRedemption reasonCode message)
              (Challenge.invalidateRedemption_challengeId reasonCode message) := by
          simp only [tallyStep]
          rw [store_redeem, herror]
        rw [hstore] at hd
        obtain ⟨r, hr, rfl⟩ := mem_map.mp hd
        split
        · rename_i hid
          rw [← of_decide_eq_true hid]
          exact (h.rows r hr).invalidateRedemption reasonCode message
        · rename_i hid
          exact (h.rows r hr).of_other (by simpa using hid)
      · rw [hfailed, mem_append, mem_singleton] at hid
        obtain hold | rfl := hid
        · obtain ⟨e, he, heq⟩ := h.known id hold
          exact ⟨e, events_step _ _ e he, heq⟩
        · obtain ⟨e, he, heq⟩ := h.created hc
          exact ⟨e, events_step _ _ e he, heq⟩

/-- A proper attempt keeps the counts of the rows those of the tally. -/
theorem tallyInv_step (op : Op Num) (hfresh : FreshId t.world op)
    (hproper : Proper sha256Hex t op) : TallyInv sha256Hex F o (tallyStep sha256Hex F o t op) := by
  cases op with
  | createChallenge input now randomId => exact tallyInv_createChallenge h input now randomId hfresh
  | redeemToken input now => exact tallyInv_redeemToken h input now hproper
  | approveChallenge input now randomToken =>
    apply tallyInv_of_rows h hfresh (append_nil _)
    have hrows : ∀ d ∈ (approveChallenge sha256Hex o t.world.store input now randomToken).2.rows,
        Tallied o t.failed d := tallied_approveChallenge h.rows input now randomToken
    simp only [step]
    split
    all_goals
      rename_i heq
      rw [heq] at hrows
      exact hrows
  | getRequesterToken challengeId requesterAuthSessionHash now =>
    apply tallyInv_of_rows h hfresh (append_nil _)
    exact tallied_getRequesterToken h.rows challengeId requesterAuthSessionHash now
  | invalidateChallenge challengeId reasonCode message now =>
    apply tallyInv_of_rows h hfresh (append_nil _)
    exact tallied_modify (Challenge.invalidate_challengeId reasonCode message now) h.rows
      fun c hc _ => (h.rows c hc).of_kept rfl rfl fun hlive => by cases hlive
  | prune now =>
    apply tallyInv_of_rows h hfresh (append_nil _)
    exact tallied_prune h.rows now

theorem TallyInv.bounded (ho : 0 < o.maxFailedRedemptions) : Bounded sha256Hex F t := by
  refine ⟨fun c hc => (h.rows c hc).counted, fun input now d hok => ?_⟩
  obtain ⟨c, hc, rfl, -, happroved, -⟩ := redeemToken_eq_ok hok
  have huntried := (h.rows c hc).untried (by rw [happroved]; rfl)
  have hcount : t.failed.count c.challengeId = 0 := by rw [← (h.rows c hc).counted, huntried]
  rw [Challenge.redeem_challengeId, hcount]
  show 0 < c.maxFailedRedemptions
  rw [(h.rows c hc).maximum]
  exact ho

theorem proper_of_bounded (op : Op Num)
    (hbounded : Bounded sha256Hex F (tallyStep sha256Hex F o t op)) : Proper sha256Hex t op := by
  cases op with
  | redeemToken input now =>
    intro c hholder
    by_contra hnot
    obtain ⟨hfailed, d, hd, hid, hcount⟩ := uncounted_of_not_proper (F := F) hholder hnot
    have hafter := hbounded.counted d (by rw [tallyStep, store_redeem]; exact hd)
    have hbefore := (h.rows c (mem_of_find?_eq_some hholder)).counted
    rw [hcount, hid, hbefore] at hafter
    simp [tallyStep, hfailed] at hafter
  | _ => trivial

end

end Runs

/-- Before the first call. -/
def Tally.empty (Num : Type) : Tally Num := ⟨World.empty Num, []⟩

theorem tallyInv_empty {Num : Type} {sha256Hex : JsText → JsText} {F : NumberFormat Num}
    {o : Options} : TallyInv sha256Hex F o (Tally.empty Num) :=
  ⟨inv_empty, (fun _ hc => nomatch hc), fun _ hid => nomatch hid⟩

/-- **Failed redemptions**: in a run with distinct ids and a positive maximum, every failed attempt
    is counted and bounds what is redeemed later, all along the run, exactly when every attempt
    whose token is found is for an approved challenge inside its deadlines and comes from the
    session that asked for it, not from the approver's. -/
theorem failed_redemptions_bounded {Num : Type} (sha256Hex : JsText → JsText)
    (F : NumberFormat Num) (o : Options) (ho : 0 < o.maxFailedRedemptions) {ops : List (Op Num)}
    (hops : Guarded (tallyStep sha256Hex F o) (fun t op => FreshId t.world op) (Tally.empty Num)
      ops) :
    (∀ pre, pre <+: ops →
        Bounded sha256Hex F (exec (tallyStep sha256Hex F o) (Tally.empty Num) pre)) ↔
      Guarded (tallyStep sha256Hex F o) (Proper sha256Hex) (Tally.empty Num) ops :=
  forall_prefix_iff_guarded_of (I := TallyInv sha256Hex F o) (fun _ h => h.bounded ho)
    (fun _ op h hfresh hproper => tallyInv_step h op hfresh hproper)
    (fun _ op h _ hbounded => proper_of_bounded h op hbounded) tallyInv_empty hops

/-- The requester presents the token with other parameters. -/
def driftRun : List (Op (Option ℕ)) :=
  approvedRun ++ [.redeemToken ⟨"token", "a", execDecision, .bool true⟩ 20]

/-- An attempt that drifts is counted. -/
theorem bounded_after_drift :
    Bounded id counting
        (exec (tallyStep id counting {}) (Tally.empty (Option ℕ)) driftRun) ∧
      (exec (tallyStep id counting {}) (Tally.empty (Option ℕ)) driftRun).failed = ["c1"] := by
  have hfresh : Guarded (tallyStep id counting {}) (fun t op => FreshId t.world op)
      (Tally.empty (Option ℕ)) driftRun :=
    ⟨(fun _ he => nomatch he), trivial, trivial, trivial⟩
  have hproper : Guarded (tallyStep id counting {}) (Proper id) (Tally.empty (Option ℕ))
      driftRun := by
    refine ⟨trivial, trivial, fun c hc => ?_, trivial⟩
    cases hc
    exact ⟨rfl, rfl, rfl, by decide⟩
  exact ⟨(failed_redemptions_bounded id counting {} (by decide) hfresh).mpr hproper driftRun
    (prefix_refl _), rfl⟩

/-- The session `x` presents the token three times. -/
def strangerRun : List (Op (Option ℕ)) :=
  approvedRun ++ List.replicate 3 (.redeemToken ⟨"token", "x", execDecision, .null⟩ 20)

/-- Three failed attempts of a challenge that allows three: none is counted, and the challenge is
    redeemed. -/
theorem redeemed_after_failures :
    ((exec (tallyStep id counting {}) (Tally.empty (Option ℕ)) strangerRun).failed =
        ["c1", "c1", "c1"] ∧
      ∃ c, (redeemToken id counting
          (exec (tallyStep id counting {}) (Tally.empty (Option ℕ)) strangerRun).world.store
          ⟨"token", "a", execDecision, .null⟩ 20).1 = .ok c ∧
        c.challengeId = "c1" ∧ c.maxFailedRedemptions = 3 ∧ c.failedRedemptions = 0) ∧
      ¬ Bounded id counting
        (exec (tallyStep id counting {}) (Tally.empty (Option ℕ)) strangerRun) := by
  have hrun : (exec (tallyStep id counting {}) (Tally.empty (Option ℕ)) strangerRun).failed =
        ["c1", "c1", "c1"] ∧
      ∃ c, (redeemToken id counting
          (exec (tallyStep id counting {}) (Tally.empty (Option ℕ)) strangerRun).world.store
          ⟨"token", "a", execDecision, .null⟩ 20).1 = .ok c ∧
        c.challengeId = "c1" ∧ c.maxFailedRedemptions = 3 ∧ c.failedRedemptions = 0 :=
    ⟨rfl, _, rfl, rfl, rfl, rfl⟩
  refine ⟨hrun, fun hbounded => ?_⟩
  obtain ⟨hfailed, c, hok, hid, hmax, -⟩ := hrun
  have hlt := hbounded.closed _ _ c hok
  rw [hid, hmax] at hlt
  exact absurd hlt (by decide)

end RelayIde.Security.Confirmation
