import Mathlib.Data.List.Basic

/-!
# Runs of a State Machine

A component driven by a sequence of operations is a function `step : σ → α → σ`; a run is
the fold of a list of operations.  Guards restrict which operations a run may contain,
each judged in the state before it.

- `forall_prefix_iff_guarded_of` — a property that a step breaks exactly when it misses its guard
-/

namespace RelayIde.Library

open List

variable {σ α : Type}

/-- The state after running `ops` from `s`. -/
def exec (step : σ → α → σ) (s : σ) (ops : List α) : σ :=
  ops.foldl step s

/-- Every operation of a run from `s` meets the guard `G` in the state before it. -/
def Guarded (step : σ → α → σ) (G : σ → α → Prop) : σ → List α → Prop
  | _, [] => True
  | s, a :: ops => G s a ∧ Guarded step G (step s a) ops

/-- A state reached by some run from `s`. -/
def Reaches (step : σ → α → σ) (s s' : σ) : Prop :=
  ∃ ops, s' = exec step s ops

section
variable (step : σ → α → σ)
include step

variable (s : σ)

@[simp] theorem exec_nil : exec step s [] = s := rfl

@[simp] theorem exec_cons (a : α) (ops : List α) :
    exec step s (a :: ops) = exec step (step s a) ops := rfl

theorem exec_append (ops ops' : List α) :
    exec step s (ops ++ ops') = exec step (exec step s ops) ops' :=
  foldl_append

theorem guarded_append (G : σ → α → Prop) (s : σ) (ops ops' : List α) :
    Guarded step G s (ops ++ ops') ↔
      Guarded step G s ops ∧ Guarded step G (exec step s ops) ops' := by
  induction ops generalizing s with
  | nil => simp [Guarded]
  | cons a ops ih => simp [Guarded, ih, and_assoc]

end

/-- Decidable guards are decidable along runs. -/
instance decidableGuarded (step : σ → α → σ) (G : σ → α → Prop) [∀ s a, Decidable (G s a)] :
    ∀ (s : σ) (ops : List α), Decidable (Guarded step G s ops)
  | _, [] => inferInstanceAs (Decidable True)
  | s, a :: ops =>
    have : Decidable (Guarded step G (step s a) ops) := decidableGuarded step G (step s a) ops
    inferInstanceAs (Decidable (G s a ∧ Guarded step G (step s a) ops))

variable {step : σ → α → σ} {G : σ → α → Prop} {s : σ} {ops : List α}

variable {G' : σ → α → Prop}

/-- A guard may be weakened, and strengthened by what the operations of the run have in common. -/
theorem Guarded.imp
    (h : Guarded step G s ops) (himp : ∀ a ∈ ops, ∀ s, G s a → G' s a) : Guarded step G' s ops := by
  induction ops generalizing s with
  | nil => trivial
  | cons a ops ih =>
    exact ⟨himp a mem_cons_self s h.1, ih h.2 fun b hb => himp b (mem_cons_of_mem _ hb)⟩

theorem Guarded.and (h : Guarded step G s ops) (h' : Guarded step G' s ops) :
    Guarded step (fun s a => G s a ∧ G' s a) s ops := by
  induction ops generalizing s with
  | nil => trivial
  | cons a ops ih => exact ⟨⟨h.1, h'.1⟩, ih h.2 h'.2⟩

theorem guarded_of_forall (h : ∀ a ∈ ops, ∀ s, G s a) (s : σ) : Guarded step G s ops := by
  induction ops generalizing s with
  | nil => trivial
  | cons a ops ih =>
    exact ⟨h a mem_cons_self s, ih (fun b hb => h b (mem_cons_of_mem _ hb)) (step s a)⟩

theorem Guarded.of_prefix {pre : List α}
    (h : Guarded step G s ops) (hpre : pre <+: ops) : Guarded step G s pre := by
  obtain ⟨rest, rfl⟩ := hpre
  exact ((guarded_append step G s pre rest).mp h).1

variable {step : σ → α → σ}

theorem exec_invariant_of_guarded {G : σ → α → Prop} {I : σ → Prop}
    (hstep : ∀ s a, I s → G s a → I (step s a)) {s : σ} {ops : List α}
    (hs : I s) (hops : Guarded step G s ops) : I (exec step s ops) := by
  induction ops generalizing s with
  | nil => exact hs
  | cons a ops ih =>
    apply ih
    · exact hstep s a hs hops.1
    · exact hops.2

/-- What holds initially and is preserved by every step holds in every reached state. -/
theorem exec_invariant {I : σ → Prop}
    (hstep : ∀ s a, I s → I (step s a)) {s : σ} (ops : List α) (hs : I s) :
    I (exec step s ops) := by
  induction ops generalizing s with
  | nil => exact hs
  | cons a ops ih =>
    apply ih
    exact hstep s a hs

/-- Where the operations of a run meet an assumption `A` throughout: a property that follows
    from an invariant, and survives a step only under the guard that also preserves the
    invariant, holds all along the run exactly when the run is guarded. -/
theorem forall_prefix_iff_guarded_of {A : σ → α → Prop} {I P : σ → Prop}
    (hP : ∀ s, I s → P s) (hstep : ∀ s a, I s → A s a → G s a → I (step s a))
    (hexact : ∀ s a, I s → A s a → P (step s a) → G s a) (hs : I s) (hA : Guarded step A s ops) :
    (∀ pre, pre <+: ops → P (exec step s pre)) ↔ Guarded step G s ops := by
  induction ops generalizing s with
  | nil =>
    refine ⟨fun _ => trivial, fun _ pre hpre => ?_⟩
    rw [prefix_nil.mp hpre]
    exact hP s hs
  | cons a ops ih =>
    constructor
    · intro h
      have hguard : G s a := hexact s a hs hA.1 (h [a] (by simp))
      refine ⟨hguard, (ih (hstep s a hs hA.1 hguard) hA.2).mp fun pre hpre => ?_⟩
      exact h (a :: pre) (cons_prefix_cons.mpr ⟨rfl, hpre⟩)
    · rintro ⟨hguard, hops⟩ pre hpre
      cases pre with
      | nil => exact hP s hs
      | cons b pre =>
        obtain ⟨rfl, hrest⟩ := cons_prefix_cons.mp hpre
        exact (ih (hstep s b hs hA.1 hguard) hA.2).mpr hops pre hrest

/-- A property that follows from an invariant, and survives a step only under the guard that
    also preserves the invariant, holds all along a run exactly when the run is guarded. -/
theorem forall_prefix_iff_guarded {step : σ → α → σ} {G : σ → α → Prop} {I P : σ → Prop}
    (hP : ∀ s, I s → P s) (hstep : ∀ s a, I s → G s a → I (step s a))
    (hexact : ∀ s a, I s → P (step s a) → G s a) {s : σ} {ops : List α} (hs : I s) :
    (∀ pre, pre <+: ops → P (exec step s pre)) ↔ Guarded step G s ops :=
  forall_prefix_iff_guarded_of (A := fun _ _ => True) hP (fun s a hI _ => hstep s a hI)
    (fun s a hI _ => hexact s a hI) hs (guarded_of_forall (fun _ _ _ => trivial) s)

end RelayIde.Library
