import Mathlib.Data.List.Nodup
import RelayIde.Library.Table

/-!
# Handles

Open handles kept in a map under a key, for instance timers or listeners that someone may still
close by name.

- `Handles.Registered` — every live handle is the one in the map under its key
-/

open List

namespace RelayIde.Library

structure Handle (σ : Type) where
  id : ℕ
  key : String
  origin : ℕ
  closed : Bool
  body : σ

structure Registration where
  key : String
  handle : ℕ

/-- All handles ever opened, and the map of those that can be closed. -/
structure Handles (σ : Type) where
  opened : List (Handle σ)
  map : Table Registration.key

variable {id origin : ℕ} {key : String}

namespace Handles

variable {σ : Type}

def empty : Handles σ := ⟨[], .empty⟩

/-- `handle.close()`. -/
def closeHandle (hs : Handles σ) (id : ℕ) : Handles σ :=
  { hs with opened := hs.opened.map fun h => if h.id = id then { h with closed := true } else h }

/-- The handle under a key is taken out of the map and closed. -/
def close (hs : Handles σ) (key : String) : Handles σ :=
  match hs.map.find? key with
  | none => hs
  | some registration =>
    closeHandle { hs with map := hs.map.deleteWhere fun r => decide (r.key = key) }
      registration.handle

def closeAll (hs : Handles σ) : Handles σ :=
  (hs.map.rows.map (·.key)).foldl close hs

/-- A new handle, set in the map. -/
def add (hs : Handles σ) (key : String) (origin : ℕ) (body : σ) : Handles σ :=
  { opened := hs.opened ++ [⟨hs.opened.length, key, origin, false, body⟩]
    map := hs.map.set ⟨key, hs.opened.length⟩ }

/-- What is under the key is closed first. -/
def replace (hs : Handles σ) (key : String) (origin : ℕ) (body : σ) : Handles σ :=
  (hs.close key).add key origin body

def setBody (hs : Handles σ) (id : ℕ) (body : σ) : Handles σ :=
  { hs with opened := hs.opened.map fun h => if h.id = id then { h with body := body } else h }

def find? (hs : Handles σ) (id : ℕ) : Option (Handle σ) :=
  hs.opened.find? fun h => decide (h.id = id)

def body? (hs : Handles σ) (id : ℕ) : Option σ :=
  (hs.find? id).map (·.body)

/-- The handles that nobody closed. -/
def live (hs : Handles σ) : List (Handle σ) :=
  hs.opened.filter fun h => !h.closed

structure Registered (hs : Handles σ) : Prop where
  ids : (hs.opened.map (·.id)).Nodup
  fresh : ∀ h ∈ hs.opened, h.id < hs.opened.length
  mapped : ∀ h ∈ hs.live, hs.map.find? h.key = some ⟨h.key, h.id⟩
  owned : ∀ r ∈ hs.map.rows, ∃ h ∈ hs.opened, h.id = r.handle ∧ h.key = r.key

theorem mem_live {hs : Handles σ} {h : Handle σ} :
    h ∈ hs.live ↔ h ∈ hs.opened ∧ h.closed = false := by
  simp [live]

theorem find?_mem {hs : Handles σ} {h : Handle σ} (hfind : hs.find? id = some h) :
    h ∈ hs.opened ∧ h.id = id :=
  ⟨mem_of_find?_eq_some hfind, by simpa using find?_some hfind⟩

theorem Registered.eq_of_id {hs : Handles σ} (hr : hs.Registered) {h h' : Handle σ}
    (hmem : h ∈ hs.opened) (hmem' : h' ∈ hs.opened) (hid : h.id = h'.id) : h = h' :=
  inj_on_of_nodup_map hr.ids hmem hmem' hid

theorem Registered.eq_of_key {hs : Handles σ} (hr : hs.Registered) {h h' : Handle σ}
    (hmem : h ∈ hs.live) (hmem' : h' ∈ hs.live) (hkey : h.key = h'.key) : h = h' := by
  have hmap := hr.mapped h hmem
  rw [hkey, hr.mapped h' hmem', Option.some.injEq, Registration.mk.injEq] at hmap
  exact hr.eq_of_id (mem_live.mp hmem).1 (mem_live.mp hmem').1 hmap.2.symm

theorem registered_empty : (empty : Handles σ).Registered :=
  ⟨nodup_nil, fun _ h => absurd h not_mem_nil, fun _ h => absurd h not_mem_nil,
    fun _ h => absurd h not_mem_nil⟩

/-! ## Updates in place -/

section
variable {hs : Handles σ}
include hs

/-- An update that leaves identity alone and revives nothing, with some registrations dropped. -/
theorem registered_of_map (hr : hs.Registered) {f : Handle σ → Handle σ}
    {map : Table Registration.key} (hid : ∀ h, (f h).id = h.id) (hkey : ∀ h, (f h).key = h.key)
    (hmapped : ∀ h ∈ hs.opened, (f h).closed = false →
      h.closed = false ∧ map.find? h.key = hs.map.find? h.key)
    (hsub : ∀ r ∈ map.rows, r ∈ hs.map.rows) : (⟨hs.opened.map f, map⟩ : Handles σ).Registered := by
  refine ⟨?_, fun h' hmem => ?_, fun h' hmem => ?_, fun r hrow => ?_⟩
  · have hids : (fun h => h.id) ∘ f = fun h : Handle σ => h.id := funext hid
    show ((hs.opened.map f).map _).Nodup
    rw [map_map, hids]
    exact hr.ids
  · obtain ⟨h, hopened, rfl⟩ := mem_map.mp hmem
    rw [hid, length_map]
    exact hr.fresh h hopened
  · obtain ⟨hmem, hopen⟩ := mem_live.mp hmem
    obtain ⟨h, hopened, rfl⟩ := mem_map.mp hmem
    obtain ⟨hlive, hsame⟩ := hmapped h hopened hopen
    rw [hid, hkey]
    exact hsame.trans (hr.mapped h (mem_live.mpr ⟨hopened, hlive⟩))
  · obtain ⟨h, hopened, hhandle, howner⟩ := hr.owned r (hsub r hrow)
    exact ⟨f h, mem_map_of_mem hopened, (hid h).trans hhandle, (hkey h).trans howner⟩

theorem registered_setBody (hr : hs.Registered) (id : ℕ) (body : σ) :
    (hs.setBody id body).Registered := by
  refine registered_of_map hr ?_ ?_ ?_ fun r hrow => hrow
  · intro h
    split <;> rfl
  · intro h
    split <;> rfl
  · intro h _ hopen
    split at hopen
    · exact ⟨hopen, rfl⟩
    · exact ⟨hopen, rfl⟩

theorem registered_closeHandle (hr : hs.Registered) (id : ℕ) :
    (hs.closeHandle id).Registered := by
  refine registered_of_map hr ?_ ?_ ?_ fun r hrow => hrow
  · intro h
    split <;> rfl
  · intro h
    split <;> rfl
  · intro h _ hopen
    split at hopen
    · cases hopen
    · exact ⟨hopen, rfl⟩

theorem mem_live_closeHandle {h : Handle σ} :
    h ∈ (hs.closeHandle id).live ↔ h ∈ hs.live ∧ h.id ≠ id := by
  rw [mem_live, mem_live]
  constructor
  · rintro ⟨hmem, hopen⟩
    obtain ⟨h', hmem', rfl⟩ := mem_map.mp hmem
    split at hopen
    · cases hopen
    · rename_i hne
      rw [if_neg hne]
      exact ⟨⟨hmem', hopen⟩, hne⟩
  · rintro ⟨⟨hmem, hopen⟩, hne⟩
    exact ⟨mem_map.mpr ⟨h, hmem, if_neg hne⟩, hopen⟩

/-- What lives after an update of bodies lived before, perhaps with another one. -/
theorem mem_live_setBody {body : σ} {h : Handle σ}
    (hmem : h ∈ (hs.setBody id body).live) :
    ∃ h' ∈ hs.live, h'.id = h.id ∧ h'.key = h.key ∧ h'.origin = h.origin := by
  obtain ⟨hmem, hopen⟩ := mem_live.mp hmem
  obtain ⟨h', hmem', rfl⟩ := mem_map.mp hmem
  refine ⟨h', mem_live.mpr ⟨hmem', ?_⟩, ?_⟩
  · split at hopen <;> exact hopen
  · split <;> exact ⟨rfl, rfl, rfl⟩

/-! ## Closing by key -/

theorem mem_live_close (hr : hs.Registered) {h : Handle σ} :
    h ∈ (hs.close key).live ↔ h ∈ hs.live ∧ h.key ≠ key := by
  unfold close
  split
  · rename_i hnone
    -- nothing lives under a key that is not in the map
    refine ⟨fun hmem => ⟨hmem, ?_⟩, fun hmem => hmem.1⟩
    rintro rfl
    rw [hr.mapped h hmem] at hnone
    cases hnone
  · rename_i registration hfind
    rw [mem_live_closeHandle]
    refine and_congr_right fun hmem => not_congr ?_
    obtain ⟨hrow, hkey⟩ := (hs.map.find?_eq_some_iff _ _).mp hfind
    constructor
    · intro hid
      obtain ⟨owner, howner, hhandle, hregistered⟩ := hr.owned registration hrow
      have hsame := hr.eq_of_id (mem_live.mp hmem).1 howner (hid.trans hhandle.symm)
      rw [hsame, hregistered, hkey]
    · rintro rfl
      have hmap := hr.mapped h hmem
      rw [hfind, Option.some.injEq] at hmap
      rw [hmap]

theorem registered_close (hr : hs.Registered) (key : String) :
    (hs.close key).Registered := by
  cases hfind : hs.map.find? key with
  | none =>
    have hsame : hs.close key = hs := by simp [close, hfind]
    rw [hsame]
    exact hr
  | some registration =>
    have hclosed : hs.close key =
        closeHandle { hs with map := hs.map.deleteWhere fun r => decide (r.key = key) }
          registration.handle := by simp [close, hfind]
    have hlive {h : Handle σ} : h ∈ (hs.close key).live ↔ h ∈ hs.live ∧ h.key ≠ key :=
      mem_live_close hr
    rw [hclosed] at hlive ⊢
    refine registered_of_map hr ?_ ?_ ?_ fun r hrow => (mem_filter.mp hrow).1
    · intro h
      split <;> rfl
    · intro h
      split <;> rfl
    · intro h hmem hopen
      split at hopen
      · cases hopen
      · rename_i hne
        have hkept := hlive.mp (mem_live_closeHandle.mpr ⟨mem_live.mpr ⟨hmem, hopen⟩, hne⟩)
        refine ⟨hopen, ?_⟩
        rw [Table.find?_deleteWhere]
        cases hrow : hs.map.find? h.key with
        | none => rfl
        | some r =>
          have hkey := ((hs.map.find?_eq_some_iff _ _).mp hrow).2
          simp [hkey, hkept.2]

theorem closeAll_spec (hr : hs.Registered) :
    hs.closeAll.Registered ∧ hs.closeAll.live = [] := by
  have hfold (keys : List String) (hs : Handles σ) (hr : hs.Registered) :
      (keys.foldl close hs).Registered ∧
        ∀ h, h ∈ (keys.foldl close hs).live ↔ h ∈ hs.live ∧ h.key ∉ keys := by
    induction keys generalizing hs with
    | nil => exact ⟨hr, fun h => by simp⟩
    | cons key keys ih =>
      obtain ⟨hreg, hlive⟩ := ih (hs.close key) (registered_close hr key)
      refine ⟨hreg, fun h => ?_⟩
      rw [foldl_cons, hlive h, mem_live_close hr, mem_cons, not_or, and_assoc]
  obtain ⟨hreg, hlive⟩ := hfold (hs.map.rows.map (·.key)) hs hr
  refine ⟨hreg, eq_nil_iff_forall_not_mem.mpr fun h hmem => ?_⟩
  obtain ⟨hbefore, hkey⟩ := (hlive h).mp hmem
  have hrow := ((hs.map.find?_eq_some_iff _ _).mp (hr.mapped h hbefore)).1
  exact hkey (mem_map.mpr ⟨_, hrow, rfl⟩)

/-! ## Replacing -/

theorem mem_live_add {body : σ} {h : Handle σ} :
    h ∈ (hs.add key origin body).live ↔
      h ∈ hs.live ∨ h = ⟨hs.opened.length, key, origin, false, body⟩ := by
  rw [mem_live, mem_live]
  show (h ∈ hs.opened ++ [_] ∧ _) ↔ _
  rw [mem_append, mem_singleton]
  constructor
  · rintro ⟨hmem | rfl, hopen⟩
    · exact .inl ⟨hmem, hopen⟩
    · exact .inr rfl
  · rintro (⟨hmem, hopen⟩ | rfl)
    · exact ⟨.inl hmem, hopen⟩
    · exact ⟨.inr rfl, rfl⟩

theorem registered_add (hr : hs.Registered) {body : σ}
    (hnone : ∀ h ∈ hs.live, h.key ≠ key) : (hs.add key origin body).Registered := by
  refine ⟨?_, fun h hmem => ?_, fun h hmem => ?_, fun r hrow => ?_⟩
  · show ((hs.opened ++ [_]).map _).Nodup
    rw [map_append, nodup_append]
    refine ⟨hr.ids, nodup_singleton _, fun a ha b hb => ?_⟩
    obtain ⟨h, hmem, rfl⟩ := mem_map.mp ha
    rw [mem_singleton.mp hb]
    exact Nat.ne_of_lt (hr.fresh h hmem)
  · show h.id < (hs.opened ++ [_]).length
    rw [length_append]
    rcases mem_append.mp hmem with hmem | hmem
    · exact Nat.lt_succ_of_lt (hr.fresh h hmem)
    · rw [mem_singleton.mp hmem]
      exact Nat.lt_succ_self _
  · show (hs.map.set _).find? _ = _
    rw [Table.find?_set]
    rcases mem_live_add.mp hmem with hmem | rfl
    · rw [if_neg fun heq => hnone h hmem heq.symm]
      exact hr.mapped h hmem
    · exact if_pos rfl
  · rcases Table.mem_set.mp hrow with hrow | hrow
    · exact ⟨⟨hs.opened.length, key, origin, false, body⟩, mem_append_right _ (by simp),
        by rw [hrow], by rw [hrow]⟩
    · obtain ⟨h, hmem, hsame⟩ := hr.owned r hrow.1
      exact ⟨h, mem_append_left _ hmem, hsame⟩

theorem registered_replace (hr : hs.Registered) (key : String) (origin : ℕ)
    (body : σ) : (hs.replace key origin body).Registered :=
  registered_add (registered_close hr key) fun _ hmem => ((mem_live_close hr).mp hmem).2

theorem mem_live_replace (hr : hs.Registered) {body : σ} {h : Handle σ} :
    h ∈ (hs.replace key origin body).live ↔ (h ∈ hs.live ∧ h.key ≠ key) ∨
      h = ⟨(hs.close key).opened.length, key, origin, false, body⟩ := by
  unfold replace
  rw [mem_live_add, mem_live_close hr]

/-! ## Bodies -/

theorem body?_of_find? {h : Handle σ} (hfind : hs.find? id = some h) :
    hs.body? id = some h.body :=
  congrArg (Option.map _) hfind

end

section
variable (hs : Handles σ)
include hs

theorem find?_map (map : Table Registration.key) {f : Handle σ → Handle σ}
    (hid : ∀ h, (f h).id = h.id) (id : ℕ) :
    (⟨hs.opened.map f, map⟩ : Handles σ).find? id = (hs.find? id).map f := by
  unfold find?
  rw [List.find?_map]
  congr 2
  funext h
  exact congrArg (fun n => decide (n = id)) (hid h)

theorem body?_closeHandle (closed id : ℕ) : (hs.closeHandle closed).body? id = hs.body? id := by
  have hfind := find?_map hs hs.map
    (f := fun h => if h.id = closed then { h with closed := true } else h)
    (fun h => by split <;> rfl) id
  show Option.map _ (Handles.find? ⟨_, _⟩ id) = _
  rw [hfind, Option.map_map]
  congr 1
  funext h
  show (if _ then _ else _ : Handle σ).body = _
  split <;> rfl

theorem body?_close (key : String) (id : ℕ) : (hs.close key).body? id = hs.body? id := by
  unfold close
  split
  · rfl
  · exact body?_closeHandle _ _ id

theorem body?_closeAll (id : ℕ) : hs.closeAll.body? id = hs.body? id := by
  unfold closeAll
  generalize hs.map.rows.map (·.key) = keys
  induction keys generalizing hs with
  | nil => rfl
  | cons key keys ih => rw [foldl_cons, ih, body?_close]

theorem body?_setBody (changed id : ℕ) (body : σ) :
    (hs.setBody changed body).body? id =
      if id = changed then (hs.body? id).map fun _ => body else hs.body? id := by
  have hfind := find?_map hs hs.map
    (f := fun h => if h.id = changed then { h with body := body } else h)
    (fun h => by split <;> rfl) id
  unfold body?
  show Option.map _ (Handles.find? ⟨_, _⟩ id) = _
  rw [hfind]
  cases hopen : hs.find? id with
  | none => simp
  | some h =>
    have hid := (find?_mem hopen).2
    by_cases hchanged : id = changed
    · simp [hid, hchanged]
    · simp [hid, hchanged]

end

theorem body?_replace {hs : Handles σ} {body body' : σ}
    (h : (hs.replace key origin body).body? id = some body') :
    hs.body? id = some body' ∨ body' = body := by
  obtain ⟨handle, hfind, rfl⟩ := Option.map_eq_some_iff.mp h
  have hopened : (hs.close key).opened.find? (fun h => decide (h.id = id)) = some handle ∨
      handle = ⟨(hs.close key).opened.length, key, origin, false, body⟩ := by
    change ((hs.close key).opened ++ [_]).find? _ = _ at hfind
    rw [find?_append] at hfind
    cases hbefore : (hs.close key).opened.find? (fun h => decide (h.id = id)) with
    | some found =>
      rw [hbefore] at hfind
      exact .inl (by simpa using hfind)
    | none =>
      rw [hbefore, Option.none_or] at hfind
      exact .inr (mem_singleton.mp (mem_of_find?_eq_some hfind))
  rcases hopened with hfound | rfl
  · refine .inl ?_
    rw [← body?_close hs key]
    exact Option.map_eq_some_iff.mpr ⟨handle, hfound, rfl⟩
  · exact .inr rfl

end Handles

end RelayIde.Library
