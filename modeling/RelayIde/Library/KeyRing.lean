import Mathlib.Data.List.Basic

/-!
# Key Rings

The keys of one holder: the one in force, at most one successor that waits to be proved, and all
that were ever issued.  Proving the successor puts it in force, clearing withdraws it, revocation
ends them all.

- `Inherited` — what the key in force hands on to every later key
-/

open List

namespace RelayIde.Library

structure KeyRing (κ : Type) where
  current : κ
  pending : Option κ := none
  issued : List κ
  revoked : Bool := false

inductive KeyRing.Move (κ : Type)
  | begin (key : κ)
  | prove
  | clear
  | revoke

namespace KeyRing

variable {κ : Type} {r : KeyRing κ} {key : κ} {m : Move κ}

def of (key : κ) : KeyRing κ := { current := key, issued := [key] }

/-- The waiting key comes into force. -/
def promote (r : KeyRing κ) : KeyRing κ :=
  match r.pending with
  | none => r
  | some key => { r with current := key, pending := none }

def move (r : KeyRing κ) : Move κ → KeyRing κ
  | .begin key => { r with pending := some key, issued := r.issued ++ [key] }
  | .prove => r.promote
  | .clear => { r with pending := none }
  | .revoke => { r with revoked := true }

/-- A key that may be accepted. -/
def Live (r : KeyRing κ) (key : κ) : Prop :=
  r.revoked = false ∧ (key = r.current ∨ r.pending = some key)

theorem promote_of_none (h : r.pending = none) : r.promote = r := by
  rw [promote, h]

theorem promote_of_some (h : r.pending = some key) :
    r.promote = { r with current := key, pending := none } := by
  rw [promote, h]

structure Sound (r : KeyRing κ) : Prop where
  current : r.current ∈ r.issued
  pending : ∀ key, r.pending = some key → key ∈ r.issued
  apart : r.pending ≠ some r.current

theorem sound_of (key : κ) : (of key).Sound where
  current := mem_singleton_self key
  pending := fun _ h => by cases h
  apart := fun h => by cases h

def Move.issues : Move κ → Option κ
  | .begin key => some key
  | _ => none

theorem issued_move (r : KeyRing κ) (m : Move κ) :
    (r.move m).issued = r.issued ++ m.issues.toList := by
  cases m with
  | begin key => rfl
  | prove =>
    change r.promote.issued = r.issued ++ []
    rw [append_nil, promote]
    split <;> rfl
  | clear | revoke => exact (append_nil _).symm

theorem Sound.move (h : r.Sound) (m : Move κ)
    (hfresh : ∀ key, m.issues = some key → key ∉ r.issued) : (r.move m).Sound := by
  cases m with
  | begin key =>
    refine ⟨mem_append_left _ h.current, fun other hother => ?_, fun hother => ?_⟩
    · cases hother
      exact mem_append_right _ (mem_singleton_self key)
    · have heq : key = r.current := Option.some.inj hother
      exact hfresh key rfl (heq ▸ h.current)
  | prove =>
    change r.promote.Sound
    cases hpending : r.pending with
    | none => rwa [promote_of_none hpending]
    | some key =>
      rw [promote_of_some hpending]
      exact
        ⟨h.pending key hpending, (fun _ hother => by cases hother), fun hother => by cases hother⟩
  | clear =>
    exact ⟨h.current, (fun _ hother => by cases hother), fun hother => by cases hother⟩
  | revoke => exact ⟨h.current, h.pending, h.apart⟩

theorem Live.mem_issued (h : r.Live key) (hsound : r.Sound) : key ∈ r.issued := by
  obtain ⟨-, rfl | hpending⟩ := h
  · exact hsound.current
  · exact hsound.pending key hpending

theorem revoked_move (h : r.revoked = true) (m : Move κ) : (r.move m).revoked = true := by
  cases m with
  | prove =>
    change r.promote.revoked = true
    unfold promote
    split <;> exact h
  | begin | clear => exact h
  | revoke => rfl

theorem pending_move (h : (r.move m).pending = some key) :
    r.pending = some key ∨ m.issues = some key := by
  cases m with
  | begin other => exact .inr h
  | prove =>
    change r.promote.pending = some key at h
    cases hpending : r.pending with
    | none =>
      rw [promote_of_none hpending, hpending] at h
      cases h
    | some next =>
      rw [promote_of_some hpending] at h
      cases h
  | clear => cases h
  | revoke => exact .inl h

theorem live_of_live_move (h : (r.move m).Live key) : r.Live key ∨ m.issues = some key := by
  obtain ⟨hrevoked, huse⟩ := h
  cases m with
  | begin other =>
    obtain huse | huse := huse
    · exact .inl ⟨hrevoked, .inl huse⟩
    · exact .inr huse
  | prove =>
    cases hpending : r.pending with
    | none =>
      simp only [move, promote_of_none hpending] at hrevoked huse
      exact .inl ⟨hrevoked, huse⟩
    | some next =>
      simp only [move, promote_of_some hpending] at hrevoked huse
      obtain rfl | huse := huse
      · exact .inl ⟨hrevoked, .inr hpending⟩
      · cases huse
  | clear =>
    obtain huse | huse := huse
    · exact .inl ⟨hrevoked, .inl huse⟩
    · cases huse
  | revoke => cases hrevoked

/-- **No key comes back.** A key that is not live stays so, as long as it is not issued again. -/
theorem not_live_move (h : ¬r.Live key) (hfresh : m.issues ≠ some key) : ¬(r.move m).Live key :=
  fun hlive => (live_of_live_move hlive).elim h hfresh

theorem eq_of_live_prove {next : κ} (hpending : r.pending = some next)
    (h : (r.move .prove).Live key) : key = next := by
  simp only [move, promote_of_some hpending] at h
  obtain ⟨-, rfl | hnone⟩ := h
  · rfl
  · cases hnone

/-! ## What successors inherit -/

def Inherited (P : κ → Prop) (r : KeyRing κ) : Prop :=
  P r.current → ∀ key, r.pending = some key → P key

theorem inherited_of (P : κ → Prop) (key : κ) : Inherited P (of key) :=
  fun _ _ h => by cases h

variable {P : κ → Prop}

/-- Where every key is begun with what the key in force has, what waits keeps to it. -/
theorem Inherited.move (h : Inherited P r)
    (hbegin : ∀ key, m.issues = some key → P r.current → P key) : Inherited P (r.move m) := by
  cases m with
  | begin key =>
    intro hcurrent other hother
    cases hother
    exact hbegin key rfl hcurrent
  | prove =>
    change Inherited P r.promote
    cases hpending : r.pending with
    | none => rwa [promote_of_none hpending]
    | some key =>
      rw [promote_of_some hpending]
      exact fun _ _ hnone => by cases hnone
  | clear => exact fun _ _ hnone => by cases hnone
  | revoke => exact h

/-- **Inheritance.** What the key in force has, the next key in force has. -/
theorem Inherited.current_move (h : Inherited P r) (hcurrent : P r.current) (m : Move κ) :
    P (r.move m).current := by
  cases m with
  | prove =>
    change P r.promote.current
    cases hpending : r.pending with
    | none => rwa [promote_of_none hpending]
    | some key =>
      rw [promote_of_some hpending]
      exact h hcurrent key hpending
  | begin | clear | revoke => exact hcurrent

end KeyRing

end RelayIde.Library
