import Mathlib.Data.List.Perm.Basic
import RelayIde.Library.Json

/-!
# Traversing JSON Values

The keys and the strings of a value at every depth, and values that differ in the order of
their keys.

- `Json.Reorders` — objects may list their properties in another order
-/

open List

namespace RelayIde.Library

namespace Json

variable {Num : Type}

theorem inductionOn {P : Json Num → Prop} (null : P .null) (bool : ∀ b, P (.bool b))
    (num : ∀ n, P (.num n)) (str : ∀ t, P (.str t))
    (arr : ∀ elements, (∀ v ∈ elements, P v) → P (.arr elements))
    (obj : ∀ properties, (∀ p ∈ properties, P p.2) → P (.obj properties)) : ∀ v, P v := by
  intro v
  refine @Json.rec Num P (fun elements => ∀ v ∈ elements, P v)
    (fun properties => ∀ p ∈ properties, P p.2) (fun p => P p.2)
    null bool num str arr obj ?_ ?_ ?_ ?_ (fun _ _ h => h) v
  · exact fun _ h => (not_mem_nil h).elim
  · exact fun v rest hv hrest u hu => (mem_cons.mp hu).elim (fun h => h ▸ hv) (hrest u)
  · exact fun _ h => (not_mem_nil h).elim
  · exact fun p rest hp hrest q hq => (mem_cons.mp hq).elim (fun h => h ▸ hp) (hrest q)

/-! ## Keys and strings -/

mutual
def keys : Json Num → List JsText
  | .arr elements => keysOfElements elements
  | .obj properties => keysOfProperties properties
  | _ => []
def keysOfElements : List (Json Num) → List JsText
  | [] => []
  | v :: rest => keys v ++ keysOfElements rest
def keysOfProperties : List (JsText × Json Num) → List JsText
  | [] => []
  | (k, v) :: rest => k :: keys v ++ keysOfProperties rest
end

mutual
def strings : Json Num → List JsText
  | .str t => [t]
  | .arr elements => stringsOfElements elements
  | .obj properties => stringsOfProperties properties
  | _ => []
def stringsOfElements : List (Json Num) → List JsText
  | [] => []
  | v :: rest => strings v ++ stringsOfElements rest
def stringsOfProperties : List (JsText × Json Num) → List JsText
  | [] => []
  | (_, v) :: rest => strings v ++ stringsOfProperties rest
end

theorem keys_arr (elements : List (Json Num)) : keys (.arr elements) = elements.flatMap keys := by
  rw [keys]
  induction elements with
  | nil => rfl
  | cons v rest ih => rw [keysOfElements, ih, flatMap_cons]

theorem keys_obj (properties : List (JsText × Json Num)) :
    keys (.obj properties) = properties.flatMap fun p => p.1 :: keys p.2 := by
  rw [keys]
  induction properties with
  | nil => rfl
  | cons p rest ih => rw [keysOfProperties, ih, flatMap_cons]

theorem strings_arr (elements : List (Json Num)) :
    strings (.arr elements) = elements.flatMap strings := by
  rw [strings]
  induction elements with
  | nil => rfl
  | cons v rest ih => rw [stringsOfElements, ih, flatMap_cons]

theorem strings_obj (properties : List (JsText × Json Num)) :
    strings (.obj properties) = properties.flatMap fun p => strings p.2 := by
  rw [strings]
  induction properties with
  | nil => rfl
  | cons p rest ih => rw [stringsOfProperties, ih, flatMap_cons]

/-! ## Key order -/

/-- The values are alike up to the order in which their objects list their properties. -/
inductive Reorders : Json Num → Json Num → Prop where
  | refl (v : Json Num) : Reorders v v
  | trans {u v w : Json Num} : Reorders u v → Reorders v w → Reorders u w
  | perm {properties properties' : List (JsText × Json Num)} :
    properties.Perm properties' → Reorders (.obj properties) (.obj properties')
  | element {v v' : Json Num} (front back : List (Json Num)) :
    Reorders v v' → Reorders (.arr (front ++ v :: back)) (.arr (front ++ v' :: back))
  | property {v v' : Json Num} (key : JsText) (front back : List (JsText × Json Num)) :
    Reorders v v' →
      Reorders (.obj (front ++ (key, v) :: back)) (.obj (front ++ (key, v') :: back))

theorem Reorders.mem_strings {v v' : Json Num} (h : Reorders v v') (t : JsText) :
    t ∈ strings v ↔ t ∈ strings v' := by
  induction h with
  | refl v => exact Iff.rfl
  | trans _ _ ih ih' => exact ih.trans ih'
  | perm hperm =>
    rw [strings_obj, strings_obj]
    exact (hperm.flatMap_right _).mem_iff
  | element front back _ ih =>
    simp [strings_arr, ih]
  | property key front back _ ih =>
    simp only [strings_obj, flatMap_append, flatMap_cons, mem_append, ih]

end Json

end RelayIde.Library
