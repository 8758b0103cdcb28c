import Mathlib
import RelayIde.Library.JsText

/-!
# JSON Values

ECMAScript values that `JSON.parse` builds and `JSON.stringify` prints.  An object is the list of
its properties in enumeration order: array indices ascending, then the other keys in the order
they were created.

- `mentions_sortWith` — sorting hides no key

Floating-point formatting is a parameter (`NumberFormat`).
-/

open List Bool

namespace RelayIde.Library

open JsText (utf16 quoteBody readString WellFormed)

/-! ## Values -/

/-- A value without `undefined`, functions and dates. -/
inductive Json (Num : Type) where
  | null
  | bool (b : Bool)
  | num (n : Num)
  | str (t : JsText)
  | arr (elements : List (Json Num))
  | obj (properties : List (JsText × Json Num))

namespace Json

variable {Num : Type}

/-- The code units number tokens are made of. -/
def isNumberUnit (u : ℕ) : Bool :=
  (decide (48 ≤ u) && decide (u ≤ 57)) || u == 43 || u == 45 || u == 46 || u == 69 || u == 101

def nullWord : JsText := utf16 "null"

def trueWord : JsText := utf16 "true"

def falseWord : JsText := utf16 "false"

/-- How a number type reads and prints number tokens.  The laws are those of ECMAScript numbers:
    a number without a JSON form prints as `null`, any other prints as a token that reads back as
    the number, except that negative zero prints like zero. -/
structure NumberFormat (Num : Type) where
  read : JsText → Option Num
  print : Num → JsText
  ofNat : ℕ → Num
  negativeZero : Num
  token : ∀ n, print n = nullWord ∨
    (print n ≠ [] ∧ (∀ u ∈ print n, isNumberUnit u = true) ∧ (read (print n)).isSome = true)
  read_print : ∀ n, print n ≠ nullWord → n ≠ negativeZero → read (print n) = some n
  print_negativeZero : print negativeZero = print (ofNat 0)
  print_ofNat : ∀ k, print (ofNat k) ≠ nullWord
  ofNat_ne_negativeZero : ∀ k, ofNat k ≠ negativeZero
  one_ne_zero : ofNat 1 ≠ ofNat 0

/-! ## Properties -/

def decimalValue (t : JsText) : ℕ :=
  t.foldl (fun acc u => acc * 10 + (u - 48)) 0

/-- The number of an array-index key: a canonical numeral below `2 ^ 32 - 1`. -/
def arrayIndex? (key : JsText) : Option ℕ :=
  if key ≠ [] ∧ (∀ u ∈ key, 48 ≤ u ∧ u ≤ 57) ∧ (key = [48] ∨ key.head? ≠ some 48) ∧
      decimalValue key < 2 ^ 32 - 1
  then some (decimalValue key) else none

/-- Enumeration rank: array indices come first, by their number. -/
def propertyRank (key : JsText) : ℕ :=
  (arrayIndex? key).getD (2 ^ 32)

/-- Write a property: in place if the key exists, else behind the keys of its rank. -/
def assign (properties : List (JsText × Json Num)) (key : JsText) (value : Json Num) :
    List (JsText × Json Num) :=
  if properties.any (fun p => p.1 == key) then
    properties.map (fun p => if p.1 = key then (key, value) else p)
  else
    properties.takeWhile (fun p => decide (propertyRank p.1 ≤ propertyRank key)) ++
      (key, value) :: properties.dropWhile (fun p => decide (propertyRank p.1 ≤ propertyRank key))

/-- Write a list of properties, one after the other. -/
def assignAll (properties entries : List (JsText × Json Num)) : List (JsText × Json Num) :=
  entries.foldl (fun acc p => assign acc p.1 p.2) properties

def property (key : JsText) (properties : List (JsText × Json Num)) : Option (Json Num) :=
  (properties.find? (fun p => p.1 == key)).map (·.2)

/-- `value[key]`. -/
def get? (key : JsText) : Json Num → Option (Json Num)
  | .obj properties => property key properties
  | _ => none

/-- Two keys in enumeration order. -/
def Precedes (k k' : JsText) : Prop :=
  k ≠ k' ∧ propertyRank k ≤ propertyRank k'

instance (k k' : JsText) : Decidable (Precedes k k') := by
  unfold Precedes
  infer_instance

mutual
/-- Every object of the value lists its properties in enumeration order, each key once. -/
def Enumerated : Json Num → Prop
  | .null => True
  | .bool _ => True
  | .num _ => True
  | .str _ => True
  | .arr elements => EnumeratedElements elements
  | .obj properties =>
    properties.Pairwise (fun p q => Precedes p.1 q.1) ∧ EnumeratedProperties properties
def EnumeratedElements : List (Json Num) → Prop
  | [] => True
  | v :: rest => Enumerated v ∧ EnumeratedElements rest
def EnumeratedProperties : List (JsText × Json Num) → Prop
  | [] => True
  | (_, v) :: rest => Enumerated v ∧ EnumeratedProperties rest
end

/-! ## Printing -/

def quote (t : JsText) : JsText :=
  34 :: (quoteBody t ++ [34])

mutual
/-- `JSON.stringify(value)`. -/
def stringify (F : NumberFormat Num) : Json Num → JsText
  | .null => nullWord
  | .bool true => trueWord
  | .bool false => falseWord
  | .num n => F.print n
  | .str t => quote t
  | .arr [] => [91, 93]
  | .arr (v :: rest) => 91 :: (stringify F v ++ stringifyElements F rest)
  | .obj [] => [123, 125]
  | .obj ((k, v) :: rest) => 123 :: (quote k ++ 58 :: (stringify F v ++ stringifyProperties F rest))
def stringifyElements (F : NumberFormat Num) : List (Json Num) → JsText
  | [] => [93]
  | v :: rest => 44 :: (stringify F v ++ stringifyElements F rest)
def stringifyProperties (F : NumberFormat Num) : List (JsText × Json Num) → JsText
  | [] => [125]
  | (k, v) :: rest => 44 :: (quote k ++ 58 :: (stringify F v ++ stringifyProperties F rest))
end

/-! ## Parsing -/

def isJsonSpace (u : ℕ) : Bool :=
  u == 9 || u == 10 || u == 13 || u == 32

def skip (t : JsText) : JsText :=
  t.dropWhile isJsonSpace

def readWord (t : JsText) : Option (Json Num × JsText) :=
  if nullWord.isPrefixOf t then some (.null, t.drop 4)
  else if trueWord.isPrefixOf t then some (.bool true, t.drop 4)
  else if falseWord.isPrefixOf t then some (.bool false, t.drop 5)
  else none

/-- A number token: the longest run of number units. -/
def readNumber (F : NumberFormat Num) (t : JsText) : Option (Json Num × JsText) :=
  let token := t.takeWhile isNumberUnit
  if token = [] then none
  else (F.read token).map fun n => (.num n, t.dropWhile isNumberUnit)

/-- A key, a colon and a value. -/
def readProperty (value : JsText → Option (Json Num × JsText)) (t : JsText) :
    Option ((JsText × Json Num) × JsText) :=
  match skip t with
  | [] => none
  | u :: rest =>
    if u = 34 then
      match readString rest with
      | none => none
      | some (key, rest') =>
        match skip rest' with
        | [] => none
        | colon :: rest'' =>
          if colon = 58 then (value rest'').map fun p => ((key, p.1), p.2) else none
    else none

mutual
/-- A value at the front of a text, within a budget of nested calls. -/
def parseValue (F : NumberFormat Num) : ℕ → JsText → Option (Json Num × JsText)
  | 0, _ => none
  | n + 1, t =>
    match skip t with
    | [] => none
    | u :: rest =>
      if u = 34 then (readString rest).map fun p => (.str p.1, p.2)
      else if u = 91 then
        if (skip rest).head? = some 93 then some (.arr [], (skip rest).tail)
        else
          match parseValue F n rest with
          | none => none
          | some (v, rest') => (parseElements F n rest').map fun p => (.arr (v :: p.1), p.2)
      else if u = 123 then
        if (skip rest).head? = some 125 then some (.obj [], (skip rest).tail)
        else
          match readProperty (parseValue F n) rest with
          | none => none
          | some (p, rest') =>
            (parseProperties F n rest').map fun q => (.obj (assignAll [] (p :: q.1)), q.2)
      else if u = 110 ∨ u = 116 ∨ u = 102 then readWord (u :: rest)
      else readNumber F (u :: rest)
def parseElements (F : NumberFormat Num) : ℕ → JsText → Option (List (Json Num) × JsText)
  | 0, _ => none
  | n + 1, t =>
    match skip t with
    | [] => none
    | u :: rest =>
      if u = 93 then some ([], rest)
      else if u = 44 then
        match parseValue F n rest with
        | none => none
        | some (v, rest') => (parseElements F n rest').map fun p => (v :: p.1, p.2)
      else none
/-- The properties behind the first, in text order. -/
def parseProperties (F : NumberFormat Num) :
    ℕ → JsText → Option (List (JsText × Json Num) × JsText)
  | 0, _ => none
  | n + 1, t =>
    match skip t with
    | [] => none
    | u :: rest =>
      if u = 125 then some ([], rest)
      else if u = 44 then
        match readProperty (parseValue F n) rest with
        | none => none
        | some (p, rest') => (parseProperties F n rest').map fun q => (p :: q.1, q.2)
      else none
end

/-- `JSON.parse(text)`; `none` when it throws.  Every nested call consumes text, so the length
    of the text is budget enough. -/
def parse (F : NumberFormat Num) (t : JsText) : Option (Json Num) :=
  match parseValue F (t.length + 1) t with
  | none => none
  | some (v, rest) => if skip rest = [] then some v else none

/-! ## Writing properties -/

theorem assign_of_precedes {properties : List (JsText × Json Num)} {key : JsText}
    (h : ∀ p ∈ properties, Precedes p.1 key) (value : Json Num) :
    assign properties key value = properties ++ [(key, value)] := by
  have hnew : properties.any (fun p => p.1 == key) = false := by
    rw [any_eq_false]
    intro p hp
    simpa using (h p hp).1
  have hrank : ∀ p ∈ properties, decide (propertyRank p.1 ≤ propertyRank key) = true := by
    intro p hp
    exact decide_eq_true (h p hp).2
  unfold assign
  rw [if_neg (by rw [hnew]; exact false_ne_true), takeWhile_eq_self_iff.mpr hrank,
    dropWhile_eq_nil_iff.mpr hrank]

theorem assignAll_of_pairwise {properties entries : List (JsText × Json Num)}
    (h : (properties ++ entries).Pairwise (fun p q => Precedes p.1 q.1)) :
    assignAll properties entries = properties ++ entries := by
  induction entries generalizing properties with
  | nil => simp [assignAll]
  | cons p entries ih =>
    have hall : ∀ q ∈ properties, Precedes q.1 p.1 := by
      intro q hq
      exact (pairwise_append.mp h).2.2 q hq p mem_cons_self
    show assignAll (assign properties p.1 p.2) entries = properties ++ p :: entries
    rw [assign_of_precedes hall, ih]
    · simp
    · simpa using h

theorem perm_assign {properties : List (JsText × Json Num)} {key : JsText}
    (h : key ∉ properties.map Prod.fst) (value : Json Num) :
    (assign properties key value).Perm ((key, value) :: properties) := by
  have hnew : properties.any (fun p => p.1 == key) = false := by
    rw [any_eq_false]
    intro p hp heq
    exact h (mem_map.mpr ⟨p, hp, by simpa using heq⟩)
  unfold assign
  rw [if_neg (by rw [hnew]; exact false_ne_true)]
  refine perm_middle.trans (List.Perm.cons _ ?_)
  rw [takeWhile_append_dropWhile]

theorem perm_assignAll {properties entries : List (JsText × Json Num)}
    (h : ((properties ++ entries).map Prod.fst).Nodup) :
    (assignAll properties entries).Perm (properties ++ entries) := by
  induction entries generalizing properties with
  | nil => simp [assignAll]
  | cons p entries ih =>
    have hmiddle : (properties ++ p :: entries).Perm (p :: (properties ++ entries)) :=
      perm_middle
    have hkeys := (hmiddle.map Prod.fst).nodup_iff.mp h
    rw [map_cons, nodup_cons] at hkeys
    have hnew : p.1 ∉ properties.map Prod.fst := by
      intro hmem
      apply hkeys.1
      rw [map_append]
      exact mem_append_left _ hmem
    have hstep := perm_assign hnew p.2
    have happend : (assign properties p.1 p.2 ++ entries).Perm (properties ++ p :: entries) :=
      (hstep.append_right entries).trans hmiddle.symm
    refine (ih ?_).trans happend
    exact (happend.map Prod.fst).nodup_iff.mpr h

theorem pairwise_assign {properties : List (JsText × Json Num)}
    (h : properties.Pairwise (fun p q => Precedes p.1 q.1)) (key : JsText) (value : Json Num) :
    (assign properties key value).Pairwise (fun p q => Precedes p.1 q.1) := by
  unfold assign
  split
  · -- only the value of the stored key changes
    have hkeys : ∀ p : JsText × Json Num, (if p.1 = key then (key, value) else p).1 = p.1 := by
      intro p
      split
      · rename_i hp
        exact hp.symm
      · rfl
    rw [pairwise_map]
    exact h.imp fun {p q} hpq => by rw [hkeys, hkeys]; exact hpq
  · rename_i hnew
    rw [not_eq_true, any_eq_false] at hnew
    have hne : ∀ p ∈ properties, p.1 ≠ key := by
      intro p hp
      simpa using hnew p hp
    have hsplit : properties.takeWhile (fun p => decide (propertyRank p.1 ≤ propertyRank key)) ++
        properties.dropWhile (fun p => decide (propertyRank p.1 ≤ propertyRank key)) =
        properties := takeWhile_append_dropWhile
    have hfront : ∀ p ∈ properties.takeWhile
        (fun p => decide (propertyRank p.1 ≤ propertyRank key)),
        propertyRank p.1 ≤ propertyRank key := by
      intro p hp
      simpa using mem_takeWhile_imp hp
    have hback : ∀ p ∈ properties.dropWhile
        (fun p => decide (propertyRank p.1 ≤ propertyRank key)),
        propertyRank key ≤ propertyRank p.1 := by
      -- the first property behind the key ranks above it, and the others follow the first
      have hpw : (properties.dropWhile
          (fun p => decide (propertyRank p.1 ≤ propertyRank key))).Pairwise
          (fun p q => Precedes p.1 q.1) := h.sublist (dropWhile_sublist _)
      cases hd : properties.dropWhile (fun p => decide (propertyRank p.1 ≤ propertyRank key)) with
      | nil => simp
      | cons first rest =>
        have hfirst : propertyRank key < propertyRank first.1 := by
          have hno := head?_dropWhile_not
            (fun p : JsText × Json Num => decide (propertyRank p.1 ≤ propertyRank key)) properties
          rw [hd] at hno
          simpa using hno
        rw [hd, pairwise_cons] at hpw
        intro p hp
        rcases mem_cons.mp hp with rfl | hp
        · exact hfirst.le
        · exact hfirst.le.trans (hpw.1 p hp).2
    rw [← hsplit, pairwise_append] at h
    rw [pairwise_append, pairwise_cons]
    refine ⟨h.1, ⟨?_, h.2.1⟩, ?_⟩
    · intro p hp
      have hmem : p ∈ properties := (dropWhile_sublist _).subset hp
      exact ⟨(hne p hmem).symm, hback p hp⟩
    · intro p hp q hq
      have hmem : p ∈ properties := (takeWhile_sublist _).subset hp
      rcases mem_cons.mp hq with rfl | hq
      · exact ⟨hne p hmem, hfront p hp⟩
      · exact h.2.2 p hp q hq

theorem pairwise_assignAll {properties : List (JsText × Json Num)}
    (h : properties.Pairwise (fun p q => Precedes p.1 q.1))
    (entries : List (JsText × Json Num)) :
    (assignAll properties entries).Pairwise (fun p q => Precedes p.1 q.1) := by
  induction entries generalizing properties with
  | nil => exact h
  | cons p entries ih => exact ih (pairwise_assign h p.1 p.2)

theorem nodup_of_pairwise {properties : List (JsText × Json Num)}
    (h : properties.Pairwise (fun p q => Precedes p.1 q.1)) : (properties.map Prod.fst).Nodup := by
  rw [List.Nodup, pairwise_map]
  exact h.imp fun {p q} hpq => hpq.1

theorem property_eq_some_iff {properties : List (JsText × Json Num)}
    (h : (properties.map Prod.fst).Nodup) (key : JsText) (value : Json Num) :
    property key properties = some value ↔ (key, value) ∈ properties := by
  induction properties with
  | nil => simp [property]
  | cons p rest ih =>
    rw [map_cons, nodup_cons] at h
    rw [mem_cons]
    by_cases hp : p.1 = key
    · have hfirst : property key (p :: rest) = some p.2 := by simp [property, hp]
      rw [hfirst, Option.some.injEq]
      constructor
      · intro hv
        exact .inl (Prod.ext hp.symm hv.symm)
      · rintro (heq | hmem)
        · rw [← heq]
        · exact absurd (mem_map.mpr ⟨_, hmem, hp.symm⟩) h.1
    · have hlater : property key (p :: rest) = property key rest := by simp [property, hp]
      rw [hlater, ih h.2]
      constructor
      · exact .inr
      · rintro (heq | hmem)
        · exact absurd (congrArg Prod.fst heq).symm hp
        · exact hmem

theorem property_perm {properties properties' : List (JsText × Json Num)}
    (hperm : properties.Perm properties') (h : (properties.map Prod.fst).Nodup) (key : JsText) :
    property key properties = property key properties' := by
  have h' := (hperm.map Prod.fst).nodup_iff.mp h
  apply Option.ext
  intro value
  rw [property_eq_some_iff h, property_eq_some_iff h', hperm.mem_iff]

theorem property_map (key : JsText) (f : Json Num → Json Num)
    (properties : List (JsText × Json Num)) :
    property key (properties.map fun p => (p.1, f p.2)) = (property key properties).map f := by
  induction properties with
  | nil => rfl
  | cons p rest ih =>
    by_cases hp : p.1 = key
    · simp [property, hp]
    · simpa [property, hp] using ih

/-! ## Reading inverts printing -/

mutual
/-- What is left of a value after printing and parsing: numbers without a JSON form are `null`. -/
def reread (F : NumberFormat Num) : Json Num → Json Num
  | .null => .null
  | .bool b => .bool b
  | .num n => if F.print n = nullWord then .null else ((F.read (F.print n)).map .num).getD .null
  | .str t => .str t
  | .arr elements => .arr (rereadElements F elements)
  | .obj properties => .obj (rereadProperties F properties)
def rereadElements (F : NumberFormat Num) : List (Json Num) → List (Json Num)
  | [] => []
  | v :: rest => reread F v :: rereadElements F rest
def rereadProperties (F : NumberFormat Num) : List (JsText × Json Num) → List (JsText × Json Num)
  | [] => []
  | (k, v) :: rest => (k, reread F v) :: rereadProperties F rest
end

theorem rereadProperties_eq_map (F : NumberFormat Num) (properties : List (JsText × Json Num)) :
    rereadProperties F properties = properties.map fun p => (p.1, reread F p.2) := by
  induction properties with
  | nil => rfl
  | cons p rest ih => rw [rereadProperties, ih, map_cons]

theorem exists_succ_of_length {t : JsText} {n : ℕ} (ht : t ≠ []) (hn : t.length ≤ n) :
    ∃ m, n = m + 1 := by
  have hpos := length_pos_of_ne_nil ht
  exact ⟨n - 1, by omega⟩

/-- The text behind a value does not continue a number. -/
def Delimited (rest : JsText) : Prop :=
  ∀ u t, rest = u :: t → isNumberUnit u = false

theorem delimited_cons {u : ℕ} (h : isNumberUnit u = false) (t : JsText) : Delimited (u :: t) := by
  intro u' t' heq
  rw [← (List.cons.inj heq).1]
  exact h

theorem skip_cons {u : ℕ} (h : isJsonSpace u = false) (t : JsText) : skip (u :: t) = u :: t := by
  simp [skip, h]

theorem ne_of_isNumberUnit {u : ℕ} (h : isNumberUnit u = true) :
    isJsonSpace u = false ∧ u ≠ 34 ∧ u ≠ 91 ∧ u ≠ 123 ∧ ¬ (u = 110 ∨ u = 116 ∨ u = 102) := by
  simp only [isNumberUnit, or_eq_true, and_eq_true, decide_eq_true_eq, beq_iff_eq] at h
  refine ⟨?_, by omega, by omega, by omega, by omega⟩
  rw [← not_eq_true]
  intro hspace
  simp only [isJsonSpace, or_eq_true, beq_iff_eq] at hspace
  omega

theorem readNumber_token {F : NumberFormat Num} {token : JsText} (hne : token ≠ [])
    (hunits : ∀ u ∈ token, isNumberUnit u = true) {rest : JsText} (hrest : Delimited rest) :
    readNumber F (token ++ rest) = (F.read token).map fun n => (.num n, rest) := by
  have hstop : rest.takeWhile isNumberUnit = [] ∧ rest.dropWhile isNumberUnit = rest := by
    cases rest with
    | nil => exact ⟨rfl, rfl⟩
    | cons u t => simp [hrest u t rfl]
  have htake : (token ++ rest).takeWhile isNumberUnit = token := by
    rw [takeWhile_append_of_pos hunits, hstop.1, append_nil]
  have hdrop : (token ++ rest).dropWhile isNumberUnit = rest := by
    rw [dropWhile_append_of_pos hunits, hstop.2]
  unfold readNumber
  simp only [htake, hdrop, hne, if_false]

theorem readProperty_quote {value : JsText → Option (Json Num × JsText)} {key text rest : JsText}
    {v : Json Num} (h : value (text ++ rest) = some (v, rest)) :
    readProperty value (quote key ++ 58 :: (text ++ rest)) = some ((key, v), rest) := by
  unfold readProperty
  rw [quote, cons_append, skip_cons (by decide), append_assoc, singleton_append]
  simp only [JsText.readString_quoteBody]
  rw [skip_cons (by decide)]
  simp [h]

theorem head_stringify (F : NumberFormat Num) (v : Json Num) (rest : JsText) :
    ∃ u t, stringify F v ++ rest = u :: t ∧ isJsonSpace u = false ∧ u ≠ 93 := by
  have hnull : ∃ u t, nullWord ++ rest = u :: t ∧ isJsonSpace u = false ∧ u ≠ 93 :=
    ⟨110, _, rfl, by decide, by decide⟩
  cases v with
  | null => exact hnull
  | bool b =>
    cases b with
    | true => exact ⟨116, _, rfl, by decide, by decide⟩
    | false => exact ⟨102, _, rfl, by decide, by decide⟩
  | num n =>
    rcases F.token n with hword | ⟨hne, hunits, -⟩
    · rw [stringify, hword]
      exact hnull
    · rw [stringify]
      cases hprint : F.print n with
      | nil => exact absurd hprint hne
      | cons u t =>
        have hu := hunits u (by rw [hprint]; exact mem_cons_self)
        refine ⟨u, t ++ rest, rfl, (ne_of_isNumberUnit hu).1, ?_⟩
        rintro rfl
        exact absurd hu (by decide)
  | str t => exact ⟨34, _, rfl, by decide, by decide⟩
  | arr elements => cases elements <;> exact ⟨91, _, rfl, by decide, by decide⟩
  | obj properties => cases properties <;> exact ⟨123, _, rfl, by decide, by decide⟩

theorem delimited_stringifyElements (F : NumberFormat Num) (elements : List (Json Num))
    (rest : JsText) : Delimited (stringifyElements F elements ++ rest) := by
  cases elements <;> exact delimited_cons (by decide) _

theorem delimited_stringifyProperties (F : NumberFormat Num)
    (properties : List (JsText × Json Num)) (rest : JsText) :
    Delimited (stringifyProperties F properties ++ rest) := by
  rcases properties with _ | ⟨⟨k, v⟩, properties⟩ <;> exact delimited_cons (by decide) _

mutual
theorem parseValue_stringify (F : NumberFormat Num) : ∀ (v : Json Num) (n : ℕ) (rest : JsText),
    Enumerated v → (stringify F v).length ≤ n → Delimited rest →
    parseValue F n (stringify F v ++ rest) = some (reread F v, rest)
  | .null, n, rest, _, hn, _ => by
    obtain ⟨n, rfl⟩ := exists_succ_of_length (by decide : nullWord ≠ []) hn
    rfl
  | .bool true, n, rest, _, hn, _ => by
    obtain ⟨n, rfl⟩ := exists_succ_of_length (by decide : trueWord ≠ []) hn
    rfl
  | .bool false, n, rest, _, hn, _ => by
    obtain ⟨n, rfl⟩ := exists_succ_of_length (by decide : falseWord ≠ []) hn
    rfl
  | .num k, n, rest, _, hn, hrest => by
    rw [stringify] at hn ⊢
    rw [reread]
    rcases F.token k with hword | ⟨hne, hunits, hread⟩
    · rw [hword] at hn ⊢
      obtain ⟨n, rfl⟩ := exists_succ_of_length (by decide : nullWord ≠ []) hn
      rw [if_pos rfl]
      rfl
    · -- the token is no word, so its first unit leads to the number branch
      obtain ⟨m, hm⟩ := Option.isSome_iff_exists.mp hread
      cases hprint : F.print k with
      | nil => exact absurd hprint hne
      | cons u t =>
        have hu := hunits u (by rw [hprint]; exact mem_cons_self)
        obtain ⟨hspace, h34, h91, h123, hword⟩ := ne_of_isNumberUnit hu
        rw [hprint] at hn hunits hm
        obtain ⟨n, rfl⟩ := exists_succ_of_length (cons_ne_nil _ _) hn
        have hnot : u :: t ≠ nullWord := by
          intro heq
          exact hword (.inl (List.cons.inj heq).1)
        rw [cons_append, parseValue, skip_cons hspace]
        simp only [h34, h91, h123, hword, if_false, hnot]
        rw [← cons_append, readNumber_token (cons_ne_nil u t) hunits hrest, hm]
        rfl
  | .str t, n, rest, _, hn, _ => by
    obtain ⟨n, rfl⟩ := exists_succ_of_length (cons_ne_nil _ _) hn
    rw [stringify, quote, cons_append, append_assoc, singleton_append, parseValue,
      skip_cons (by decide), reread]
    simp [JsText.readString_quoteBody]
  | .arr [], n, rest, _, hn, _ => by
    obtain ⟨n, rfl⟩ := exists_succ_of_length (cons_ne_nil _ _) hn
    rfl
  | .arr (v :: elements), n, rest, hv, hn, _ => by
    rw [stringify, length_cons, length_append] at hn
    obtain ⟨n, rfl⟩ : ∃ m, n = m + 1 := ⟨n - 1, by omega⟩
    have hfirst := parseValue_stringify F v n (stringifyElements F elements ++ rest) hv.1
      (by omega) (delimited_stringifyElements F elements rest)
    have hothers := parseElements_stringify F elements n rest hv.2 (by omega)
    obtain ⟨u, t, htext, hspace, hclose⟩ :=
      head_stringify F v (stringifyElements F elements ++ rest)
    have hskip : (skip (stringify F v ++ (stringifyElements F elements ++ rest))).head? ≠
        some 93 := by
      rw [htext, skip_cons hspace]
      simpa using hclose
    rw [stringify, cons_append, append_assoc, parseValue, skip_cons (by decide)]
    simp only [Nat.reduceEqDiff, if_true, if_false, hskip, hfirst, hothers]
    rfl
  | .obj [], n, rest, _, hn, _ => by
    obtain ⟨n, rfl⟩ := exists_succ_of_length (cons_ne_nil _ _) hn
    rfl
  | .obj ((k, v) :: properties), n, rest, hv, hn, _ => by
    rw [stringify, length_cons, length_append, length_cons, length_append] at hn
    obtain ⟨n, rfl⟩ : ∃ m, n = m + 1 := ⟨n - 1, by omega⟩
    have hfirst := parseValue_stringify F v n (stringifyProperties F properties ++ rest) hv.2.1
      (by omega) (delimited_stringifyProperties F properties rest)
    have hothers := parseProperties_stringify F properties n rest hv.2.2 (by omega)
    have hkeys : ((k, reread F v) :: rereadProperties F properties).Pairwise
        (fun p q => Precedes p.1 q.1) := by
      have hpw := hv.1
      rw [pairwise_cons] at hpw ⊢
      rw [rereadProperties_eq_map, pairwise_map]
      refine ⟨fun q hq => ?_, hpw.2⟩
      obtain ⟨p, hp, rfl⟩ := mem_map.mp hq
      exact hpw.1 p hp
    have hwritten : assignAll [] ((k, reread F v) :: rereadProperties F properties) =
        (k, reread F v) :: rereadProperties F properties := assignAll_of_pairwise hkeys
    rw [stringify, cons_append, append_assoc, cons_append, append_assoc,
      parseValue, skip_cons (by decide)]
    have hskip : (skip (quote k ++ 58 :: (stringify F v ++
        (stringifyProperties F properties ++ rest)))).head? ≠ some 125 := by
      rw [quote, cons_append, skip_cons (by decide)]
      simp
    simp only [Nat.reduceEqDiff, if_true, if_false, hskip, readProperty_quote hfirst, hothers,
      Option.map_some, hwritten]
    rfl
theorem parseElements_stringify (F : NumberFormat Num) :
    ∀ (elements : List (Json Num)) (n : ℕ) (rest : JsText), EnumeratedElements elements →
    (stringifyElements F elements).length ≤ n →
    parseElements F n (stringifyElements F elements ++ rest) =
      some (rereadElements F elements, rest)
  | [], n, rest, _, hn => by
    obtain ⟨n, rfl⟩ := exists_succ_of_length (cons_ne_nil _ _) hn
    rfl
  | v :: elements, n, rest, hv, hn => by
    rw [stringifyElements, length_cons, length_append] at hn
    obtain ⟨n, rfl⟩ : ∃ m, n = m + 1 := ⟨n - 1, by omega⟩
    have hfirst := parseValue_stringify F v n (stringifyElements F elements ++ rest) hv.1
      (by omega) (delimited_stringifyElements F elements rest)
    have hothers := parseElements_stringify F elements n rest hv.2 (by omega)
    rw [stringifyElements, cons_append, append_assoc, parseElements, skip_cons (by decide)]
    simp only [Nat.reduceEqDiff, if_true, if_false, hfirst, hothers]
    rfl
theorem parseProperties_stringify (F : NumberFormat Num) :
    ∀ (properties : List (JsText × Json Num)) (n : ℕ) (rest : JsText),
    EnumeratedProperties properties → (stringifyProperties F properties).length ≤ n →
    parseProperties F n (stringifyProperties F properties ++ rest) =
      some (rereadProperties F properties, rest)
  | [], n, rest, _, hn => by
    obtain ⟨n, rfl⟩ := exists_succ_of_length (cons_ne_nil _ _) hn
    rfl
  | (k, v) :: properties, n, rest, hv, hn => by
    rw [stringifyProperties, length_cons, length_append, length_cons, length_append] at hn
    obtain ⟨n, rfl⟩ : ∃ m, n = m + 1 := ⟨n - 1, by omega⟩
    have hfirst := parseValue_stringify F v n (stringifyProperties F properties ++ rest) hv.1
      (by omega) (delimited_stringifyProperties F properties rest)
    have hothers := parseProperties_stringify F properties n rest hv.2 (by omega)
    rw [stringifyProperties, cons_append, append_assoc, cons_append,
      append_assoc, parseProperties, skip_cons (by decide)]
    simp only [Nat.reduceEqDiff, if_true, if_false, readProperty_quote hfirst, hothers]
    rfl
end

/-- **Round trip**: a printed value parses, to the value up to numbers without a JSON form. -/
theorem parse_stringify (F : NumberFormat Num) {v : Json Num} (hv : Enumerated v) :
    parse F (stringify F v) = some (reread F v) := by
  have hdelimited : Delimited [] := fun u t h => by cases h
  have h := parseValue_stringify F v ((stringify F v).length + 1) [] hv (Nat.le_succ _) hdelimited
  rw [append_nil] at h
  unfold parse
  rw [h]
  rfl

/-! ## Values without numbers -/

mutual
/-- Neither a number nor `null` occurs. -/
def Plain : Json Num → Prop
  | .null => False
  | .bool _ => True
  | .num _ => False
  | .str _ => True
  | .arr elements => PlainElements elements
  | .obj properties => PlainProperties properties
def PlainElements : List (Json Num) → Prop
  | [] => True
  | v :: rest => Plain v ∧ PlainElements rest
def PlainProperties : List (JsText × Json Num) → Prop
  | [] => True
  | (_, v) :: rest => Plain v ∧ PlainProperties rest
end

mutual
theorem eq_of_reread_eq (F : NumberFormat Num) :
    ∀ (v w : Json Num), Plain w → reread F v = w → v = w
  | .null, w, _, h => h
  | .bool b, w, _, h => h
  | .num n, w, hw, h => by
    subst h
    rw [reread] at hw
    split at hw
    · exact hw.elim
    · cases hr : F.read (F.print n) with
      | none | some m =>
        rw [hr] at hw
        exact hw.elim
  | .str t, w, _, h => h
  | .arr elements, w, hw, h => by
    subst h
    rw [reread]
    exact congrArg Json.arr (eq_of_rereadElements_eq F elements _ hw rfl)
  | .obj properties, w, hw, h => by
    subst h
    rw [reread]
    exact congrArg Json.obj (eq_of_rereadProperties_eq F properties _ hw rfl)
theorem eq_of_rereadElements_eq (F : NumberFormat Num) :
    ∀ (l l' : List (Json Num)), PlainElements l' → rereadElements F l = l' → l = l'
  | [], l', _, h => h
  | v :: rest, l', hl', h => by
    subst h
    rw [rereadElements, List.cons.injEq]
    exact ⟨eq_of_reread_eq F v _ hl'.1 rfl, eq_of_rereadElements_eq F rest _ hl'.2 rfl⟩
theorem eq_of_rereadProperties_eq (F : NumberFormat Num) :
    ∀ (l l' : List (JsText × Json Num)), PlainProperties l' → rereadProperties F l = l' → l = l'
  | [], l', _, h => h
  | (k, v) :: rest, l', hl', h => by
    subst h
    rw [rereadProperties, List.cons.injEq, Prod.mk.injEq]
    exact ⟨⟨rfl, eq_of_reread_eq F v _ hl'.1 rfl⟩, eq_of_rereadProperties_eq F rest _ hl'.2 rfl⟩
end

mutual
theorem reread_of_plain (F : NumberFormat Num) : ∀ v : Json Num, Plain v → reread F v = v
  | .null, h => h.elim
  | .bool _, _ => rfl
  | .num _, h => h.elim
  | .str _, _ => rfl
  | .arr elements, h => congrArg Json.arr (rereadElements_of_plain F elements h)
  | .obj properties, h => congrArg Json.obj (rereadProperties_of_plain F properties h)
theorem rereadElements_of_plain (F : NumberFormat Num) :
    ∀ l : List (Json Num), PlainElements l → rereadElements F l = l
  | [], _ => rfl
  | v :: rest, h => by
    rw [rereadElements, reread_of_plain F v h.1, rereadElements_of_plain F rest h.2]
theorem rereadProperties_of_plain (F : NumberFormat Num) :
    ∀ l : List (JsText × Json Num), PlainProperties l → rereadProperties F l = l
  | [], _ => rfl
  | (k, v) :: rest, h => by
    rw [rereadProperties, reread_of_plain F v h.1, rereadProperties_of_plain F rest h.2]
end

theorem plainProperties_iff (properties : List (JsText × Json Num)) :
    PlainProperties properties ↔ ∀ p ∈ properties, Plain p.2 := by
  induction properties with
  | nil => simp [PlainProperties]
  | cons p rest ih => simp [PlainProperties, ih]

theorem plainElements_iff (elements : List (Json Num)) :
    PlainElements elements ↔ ∀ v ∈ elements, Plain v := by
  induction elements with
  | nil => simp [PlainElements]
  | cons v rest ih => simp [PlainElements, ih]

theorem enumeratedProperties_iff (properties : List (JsText × Json Num)) :
    EnumeratedProperties properties ↔ ∀ p ∈ properties, Enumerated p.2 := by
  induction properties with
  | nil => simp [EnumeratedProperties]
  | cons p rest ih => simp [EnumeratedProperties, ih]

theorem enumeratedElements_iff (elements : List (Json Num)) :
    EnumeratedElements elements ↔ ∀ v ∈ elements, Enumerated v := by
  induction elements with
  | nil => simp [EnumeratedElements]
  | cons v rest ih => simp [EnumeratedElements, ih]

/-! ## Sorting keys -/

/-- Keys compare by their code units. -/
def keyLe (p q : JsText × Json Num) : Prop :=
  p.1 ≤ q.1

instance : DecidableRel (keyLe : JsText × Json Num → JsText × Json Num → Prop) := fun p q => by
  unfold keyLe
  infer_instance

mutual
/-- Rebuild every object by writing its properties in key order, those of kept keys only. -/
def sortWith (keep : JsText → Bool) : Json Num → Json Num
  | .null => .null
  | .bool b => .bool b
  | .num n => .num n
  | .str t => .str t
  | .arr elements => .arr (sortElements keep elements)
  | .obj properties =>
    .obj (assignAll [] (((sortProperties keep properties).insertionSort keyLe).filter
      (fun p => keep p.1)))
def sortElements (keep : JsText → Bool) : List (Json Num) → List (Json Num)
  | [] => []
  | v :: rest => sortWith keep v :: sortElements keep rest
def sortProperties (keep : JsText → Bool) :
    List (JsText × Json Num) → List (JsText × Json Num)
  | [] => []
  | (k, v) :: rest => (k, sortWith keep v) :: sortProperties keep rest
end

/-- A value with its properties in key order: what remains when the order of properties is
    forgotten. -/
def canonical (v : Json Num) : Json Num :=
  sortWith (fun _ => true) v

/-- Two values with the same properties, in whatever order. -/
def Same (v w : Json Num) : Prop :=
  canonical v = canonical w

theorem sortProperties_eq_map (keep : JsText → Bool) (properties : List (JsText × Json Num)) :
    sortProperties keep properties = properties.map fun p => (p.1, sortWith keep p.2) := by
  induction properties with
  | nil => rfl
  | cons p rest ih => rw [sortProperties, ih, map_cons]

theorem mem_of_mem_assign {properties : List (JsText × Json Num)} {key : JsText}
    {value : Json Num} {p : JsText × Json Num} (h : p ∈ assign properties key value) :
    p ∈ properties ∨ p = (key, value) := by
  unfold assign at h
  split at h
  · obtain ⟨q, hq, rfl⟩ := mem_map.mp h
    split
    · exact .inr rfl
    · exact .inl hq
  · rcases mem_append.mp h with hfront | hback
    · exact .inl ((takeWhile_sublist _).subset hfront)
    · rcases mem_cons.mp hback with hnew | hback
      · exact .inr hnew
      · exact .inl ((dropWhile_sublist _).subset hback)

theorem mem_of_mem_assignAll {properties entries : List (JsText × Json Num)}
    {p : JsText × Json Num} (h : p ∈ assignAll properties entries) :
    p ∈ properties ∨ p ∈ entries := by
  induction entries generalizing properties with
  | nil => exact .inl h
  | cons q entries ih =>
    rcases ih h with hmem | hmem
    · rcases mem_of_mem_assign hmem with hold | hnew
      · exact .inl hold
      · exact .inr (hnew ▸ mem_cons_self)
    · exact .inr (mem_cons_of_mem q hmem)

theorem mem_of_mem_sorted {keep : JsText → Bool} {entries : List (JsText × Json Num)}
    {p : JsText × Json Num}
    (h : p ∈ assignAll [] ((entries.insertionSort keyLe).filter (fun p => keep p.1))) :
    p ∈ entries := by
  rcases mem_of_mem_assignAll h with hnil | hmem
  · exact absurd hnil not_mem_nil
  · exact (mem_insertionSort keyLe).mp (mem_of_mem_filter hmem)

mutual
theorem enumerated_sortWith (keep : JsText → Bool) : ∀ v : Json Num, Enumerated (sortWith keep v)
  | .null => trivial
  | .bool _ => trivial
  | .num _ => trivial
  | .str _ => trivial
  | .arr elements => enumerated_sortElements keep elements
  | .obj properties => by
    have hsorted := enumerated_sortProperties keep properties
    rw [enumeratedProperties_iff] at hsorted
    rw [sortWith, Enumerated, enumeratedProperties_iff]
    refine ⟨pairwise_assignAll List.Pairwise.nil _, fun p hp => ?_⟩
    exact hsorted p (mem_of_mem_sorted hp)
theorem enumerated_sortElements (keep : JsText → Bool) :
    ∀ l : List (Json Num), EnumeratedElements (sortElements keep l)
  | [] => trivial
  | v :: rest => ⟨enumerated_sortWith keep v, enumerated_sortElements keep rest⟩
theorem enumerated_sortProperties (keep : JsText → Bool) :
    ∀ l : List (JsText × Json Num), EnumeratedProperties (sortProperties keep l)
  | [] => trivial
  | (_, v) :: rest => ⟨enumerated_sortWith keep v, enumerated_sortProperties keep rest⟩
end

mutual
theorem plain_sortWith (keep : JsText → Bool) : ∀ v : Json Num, Plain v → Plain (sortWith keep v)
  | .null, h => h
  | .bool _, _ => trivial
  | .num _, h => h
  | .str _, _ => trivial
  | .arr elements, h => plain_sortElements keep elements h
  | .obj properties, h => by
    have hsorted := plain_sortProperties keep properties h
    rw [plainProperties_iff] at hsorted
    rw [sortWith, Plain, plainProperties_iff]
    intro p hp
    exact hsorted p (mem_of_mem_sorted hp)
theorem plain_sortElements (keep : JsText → Bool) :
    ∀ l : List (Json Num), PlainElements l → PlainElements (sortElements keep l)
  | [], _ => trivial
  | v :: rest, h => ⟨plain_sortWith keep v h.1, plain_sortElements keep rest h.2⟩
theorem plain_sortProperties (keep : JsText → Bool) :
    ∀ l : List (JsText × Json Num), PlainProperties l → PlainProperties (sortProperties keep l)
  | [], _ => trivial
  | (_, v) :: rest, h => ⟨plain_sortWith keep v h.1, plain_sortProperties keep rest h.2⟩
end

theorem property_filter (keep : JsText → Bool) (key : JsText)
    (properties : List (JsText × Json Num)) :
    property key (properties.filter fun p => keep p.1) =
      if keep key then property key properties else none := by
  induction properties with
  | nil => simp [property]
  | cons p rest ih =>
    by_cases hp : p.1 = key
    · subst hp
      cases hk : keep p.1 with
      | true => simp [property, hk]
      | false =>
        rw [hk] at ih
        rw [filter_cons_of_neg (by simp [hk]), ih]
        simp
    · have hlater : property key (p :: rest) = property key rest := by simp [property, hp]
      rw [hlater, ← ih]
      cases hk : keep p.1 with
      | true =>
        simp [property, hp]
      | false => rw [filter_cons_of_neg (by simp [hk])]

private theorem perm_sorted (keep : JsText → Bool) {properties : List (JsText × Json Num)}
    (h : (properties.map Prod.fst).Nodup) :
    (assignAll [] (((sortProperties keep properties).insertionSort keyLe).filter
      (fun p => keep p.1))).Perm
      ((sortProperties keep properties).filter (fun p => keep p.1)) ∧
    ((sortProperties keep properties).map Prod.fst).Nodup := by
  have hkeys : ((sortProperties keep properties).map Prod.fst).Nodup := by
    rw [sortProperties_eq_map, map_map]
    exact h
  have hperm : (((sortProperties keep properties).insertionSort keyLe).filter
      (fun p => keep p.1)).Perm ((sortProperties keep properties).filter (fun p => keep p.1)) :=
    (perm_insertionSort keyLe _).filter _
  have hsub : (((sortProperties keep properties).filter (fun p => keep p.1)).map Prod.fst).Nodup :=
    hkeys.sublist (filter_sublist.map Prod.fst)
  refine ⟨(perm_assignAll ?_).trans hperm, hkeys⟩
  exact (hperm.map Prod.fst).nodup_iff.mpr hsub

/-- **Sorting keeps properties**: a kept key has the sorted value it had before. -/
theorem property_sortWith (keep : JsText → Bool) {properties : List (JsText × Json Num)}
    (h : (properties.map Prod.fst).Nodup) (key : JsText) :
    get? key (sortWith keep (.obj properties)) =
      if keep key then (property key properties).map (sortWith keep) else none := by
  obtain ⟨hperm, hkeys⟩ := perm_sorted keep h
  have hnodup : ((assignAll [] (((sortProperties keep properties).insertionSort keyLe).filter
      (fun p => keep p.1))).map Prod.fst).Nodup :=
    nodup_of_pairwise (pairwise_assignAll List.Pairwise.nil _)
  rw [sortWith, get?, property_perm hperm hnodup, property_filter, sortProperties_eq_map,
    property_map]

mutual
/-- A key occurs in some object of the value. -/
def mentions (key : JsText) : Json Num → Bool
  | .null => false
  | .bool _ => false
  | .num _ => false
  | .str _ => false
  | .arr elements => mentionsElements key elements
  | .obj properties => properties.any (fun p => p.1 == key) || mentionsProperties key properties
def mentionsElements (key : JsText) : List (Json Num) → Bool
  | [] => false
  | v :: rest => mentions key v || mentionsElements key rest
def mentionsProperties (key : JsText) : List (JsText × Json Num) → Bool
  | [] => false
  | (_, v) :: rest => mentions key v || mentionsProperties key rest
end

theorem mentionsElements_eq_any (key : JsText) (elements : List (Json Num)) :
    mentionsElements key elements = elements.any (mentions key) := by
  induction elements with
  | nil => rfl
  | cons v rest ih => rw [mentionsElements, ih, any_cons]

theorem mentionsProperties_eq_any (key : JsText) (properties : List (JsText × Json Num)) :
    mentionsProperties key properties = properties.any (fun p => mentions key p.2) := by
  induction properties with
  | nil => rfl
  | cons p rest ih => rw [mentionsProperties, ih, any_cons]

mutual
theorem sortWith_of_not_mentions (key : JsText) : ∀ v : Json Num, mentions key v = false →
    sortWith (fun k => k != key) v = canonical v
  | .null, _ => rfl
  | .bool _, _ => rfl
  | .num _, _ => rfl
  | .str _, _ => rfl
  | .arr elements, h => by
    rw [canonical, sortWith, sortWith, sortElements_of_not_mentions key elements h]
  | .obj properties, h => by
    rw [mentions, or_eq_false_iff, any_eq_false] at h
    rw [canonical, sortWith, sortWith, sortProperties_of_not_mentions key properties h.2]
    have hkept : ∀ p ∈ (sortProperties (fun _ => true) properties).insertionSort keyLe,
        (p.1 != key) = true := by
      intro p hp
      rw [mem_insertionSort, sortProperties_eq_map] at hp
      obtain ⟨q, hq, rfl⟩ := mem_map.mp hp
      simpa using h.1 q hq
    rw [filter_eq_self.mpr hkept, filter_eq_self.mpr (fun _ _ => rfl)]
theorem sortElements_of_not_mentions (key : JsText) :
    ∀ l : List (Json Num), mentionsElements key l = false →
    sortElements (fun k => k != key) l = sortElements (fun _ => true) l
  | [], _ => rfl
  | v :: rest, h => by
    rw [mentionsElements, or_eq_false_iff] at h
    rw [sortElements, sortElements, sortWith_of_not_mentions key v h.1,
      sortElements_of_not_mentions key rest h.2, canonical]
theorem sortProperties_of_not_mentions (key : JsText) :
    ∀ l : List (JsText × Json Num), mentionsProperties key l = false →
    sortProperties (fun k => k != key) l = sortProperties (fun _ => true) l
  | [], _ => rfl
  | (k, v) :: rest, h => by
    rw [mentionsProperties, or_eq_false_iff] at h
    rw [sortProperties, sortProperties, sortWith_of_not_mentions key v h.1,
      sortProperties_of_not_mentions key rest h.2, canonical]
end

theorem any_perm {α : Type} {l l' : List α} (h : l.Perm l') (p : α → Bool) :
    l.any p = l'.any p := by
  rw [Bool.eq_iff_iff, any_eq_true, any_eq_true]
  simp only [h.mem_iff]

mutual
/-- **Sorting hides no key.** -/
theorem mentions_canonical (key : JsText) : ∀ v : Json Num, Enumerated v →
    mentions key (canonical v) = mentions key v
  | .null, _ => rfl
  | .bool _, _ => rfl
  | .num _, _ => rfl
  | .str _, _ => rfl
  | .arr elements, h => mentions_canonicalElements key elements h
  | .obj properties, h => by
    obtain ⟨hperm, -⟩ := perm_sorted (fun _ => true) (nodup_of_pairwise h.1)
    rw [filter_eq_self.mpr (fun _ _ => rfl : ∀ p ∈ sortProperties (fun _ => true) properties,
      (fun _ => true) p.1 = true)] at hperm
    rw [canonical, sortWith, mentions, mentions, mentionsProperties_eq_any, any_perm hperm,
      any_perm hperm, ← mentionsProperties_eq_any, mentions_canonicalProperties key properties h.2,
      sortProperties_eq_map, any_map]
    rfl
theorem mentions_canonicalElements (key : JsText) : ∀ l : List (Json Num), EnumeratedElements l →
    mentionsElements key (sortElements (fun _ => true) l) = mentionsElements key l
  | [], _ => rfl
  | v :: rest, h => by
    rw [sortElements, mentionsElements, mentionsElements, mentions_canonicalElements key rest h.2]
    exact congrArg (· || _) (mentions_canonical key v h.1)
theorem mentions_canonicalProperties (key : JsText) :
    ∀ l : List (JsText × Json Num), EnumeratedProperties l →
    mentionsProperties key (sortProperties (fun _ => true) l) = mentionsProperties key l
  | [], _ => rfl
  | (k, v) :: rest, h => by
    rw [sortProperties, mentionsProperties, mentionsProperties,
      mentions_canonicalProperties key rest h.2]
    exact congrArg (· || _) (mentions_canonical key v h.1)
end

/-! ## What parsing yields -/

private theorem readProperty_value {value : JsText → Option (Json Num × JsText)}
    {P : Json Num → Prop} (hvalue : ∀ t v rest, value t = some (v, rest) → P v) {t rest : JsText}
    {p : JsText × Json Num} (h : readProperty value t = some (p, rest)) : P p.2 := by
  unfold readProperty at h
  split at h
  · cases h
  · split at h
    · split at h
      · cases h
      · split at h
        · cases h
        · split at h
          · obtain ⟨⟨v, rest'⟩, hv, heq⟩ := Option.map_eq_some_iff.mp h
            cases heq
            exact hvalue _ _ _ hv
          · cases h
    · cases h

private theorem enumerated_readWord {t rest : JsText} {v : Json Num}
    (h : readWord t = some (v, rest)) : Enumerated v := by
  unfold readWord at h
  split_ifs at h <;> cases h <;> trivial

private theorem enumerated_readNumber {F : NumberFormat Num} {t rest : JsText} {v : Json Num}
    (h : readNumber F t = some (v, rest)) : Enumerated v := by
  unfold readNumber at h
  dsimp only at h
  split_ifs at h
  obtain ⟨n, -, heq⟩ := Option.map_eq_some_iff.mp h
  cases heq
  trivial

private theorem enumerated_of_budget (F : NumberFormat Num) (n : ℕ) :
    (∀ t v rest, parseValue F n t = some (v, rest) → Enumerated v) ∧
    (∀ t l rest, parseElements F n t = some (l, rest) → EnumeratedElements l) ∧
    (∀ t l rest, parseProperties F n t = some (l, rest) → EnumeratedProperties l) := by
  induction n with
  | zero =>
    refine ⟨?_, ?_, ?_⟩ <;> intro t v rest h <;> cases h
  | succ n ih =>
    obtain ⟨hvalue, helements, hproperties⟩ := ih
    refine ⟨?_, ?_, ?_⟩
    · intro t v rest h
      rw [parseValue] at h
      split at h
      · cases h
      · split at h
        · obtain ⟨p, -, heq⟩ := Option.map_eq_some_iff.mp h
          cases heq
          trivial
        · split at h
          · -- an array
            split at h
            · cases h
              trivial
            · split at h
              · cases h
              · rename_i v' rest' hv'
                obtain ⟨⟨l, rest''⟩, hl, heq⟩ := Option.map_eq_some_iff.mp h
                cases heq
                exact ⟨hvalue _ _ _ hv', helements _ _ _ hl⟩
          · split at h
            · -- an object: its properties are written one by one
              split at h
              · cases h
                exact ⟨List.Pairwise.nil, trivial⟩
              · split at h
                · cases h
                · rename_i p rest' hp
                  obtain ⟨⟨l, rest''⟩, hl, heq⟩ := Option.map_eq_some_iff.mp h
                  cases heq
                  have hl' := (enumeratedProperties_iff l).mp (hproperties _ _ _ hl)
                  refine ⟨pairwise_assignAll List.Pairwise.nil _, ?_⟩
                  rw [enumeratedProperties_iff]
                  intro q hq
                  rcases mem_of_mem_assignAll hq with hnil | hq
                  · exact absurd hnil not_mem_nil
                  · rcases mem_cons.mp hq with hq | hq
                    · rw [hq]
                      exact readProperty_value hvalue hp
                    · exact hl' q hq
            · split at h
              · exact enumerated_readWord h
              · exact enumerated_readNumber h
    · intro t l rest h
      rw [parseElements] at h
      split at h
      · cases h
      · split at h
        · cases h
          trivial
        · split at h
          · split at h
            · cases h
            · rename_i v' rest' hv'
              obtain ⟨⟨l', rest''⟩, hl, heq⟩ := Option.map_eq_some_iff.mp h
              cases heq
              exact ⟨hvalue _ _ _ hv', helements _ _ _ hl⟩
          · cases h
    · intro t l rest h
      rw [parseProperties] at h
      split at h
      · cases h
      · split at h
        · cases h
          trivial
        · split at h
          · split at h
            · cases h
            · rename_i p rest' hp
              obtain ⟨⟨l', rest''⟩, hl, heq⟩ := Option.map_eq_some_iff.mp h
              cases heq
              exact ⟨readProperty_value hvalue hp, hproperties _ _ _ hl⟩
          · cases h

/-- A parsed value lists its properties in enumeration order, each key once. -/
theorem enumerated_parse {F : NumberFormat Num} {t : JsText} {v : Json Num}
    (h : parse F t = some v) : Enumerated v := by
  unfold parse at h
  split at h
  · cases h
  · rename_i v' rest hv
    split at h
    · cases h
      exact (enumerated_of_budget F _).1 _ _ _ hv
    · cases h

theorem eq_one_of_reread_eq {F : NumberFormat Num} {n : Num}
    (h : reread F (.num n) = reread F (.num (F.ofNat 1))) : n = F.ofNat 1 := by
  have hone : reread F (.num (F.ofNat 1)) = .num (F.ofNat 1) := by
    rw [reread, if_neg (F.print_ofNat 1), F.read_print _ (F.print_ofNat 1)
      (F.ofNat_ne_negativeZero 1)]
    rfl
  rw [hone, reread] at h
  split at h
  · cases h
  · rename_i hword
    by_cases hzero : n = F.negativeZero
    · -- negative zero prints as zero, which is not one
      rw [hzero, F.print_negativeZero, F.read_print _ (F.print_ofNat 0)
        (F.ofNat_ne_negativeZero 0)] at h
      exact absurd (Json.num.inj h).symm F.one_ne_zero
    · rw [F.read_print n hword hzero] at h
      exact Json.num.inj h

/-! ## Printed text -/

theorem wellFormed_print (F : NumberFormat Num) (n : Num) : WellFormed (F.print n) := by
  apply JsText.wellFormed_of_lt
  intro u hu
  rcases F.token n with hword | ⟨-, hunits, -⟩
  · rw [hword] at hu
    have hall : ∀ u ∈ nullWord, u < 0xD800 := by decide
    exact hall u hu
  · have hunit := hunits u hu
    simp only [isNumberUnit, or_eq_true, and_eq_true, decide_eq_true_eq,
      beq_iff_eq] at hunit
    omega

theorem wellFormed_quote (t : JsText) : WellFormed (quote t) :=
  ((JsText.wellFormed_quoteBody t).append (by decide)).cons (by decide)

mutual
/-- **Printed text is Unicode text**, so an encoder to UTF-8 keeps it. -/
theorem wellFormed_stringify (F : NumberFormat Num) : ∀ v : Json Num, WellFormed (stringify F v)
  | .null => rfl
  | .bool true => rfl
  | .bool false => rfl
  | .num n => wellFormed_print F n
  | .str t => wellFormed_quote t
  | .arr [] => rfl
  | .arr (v :: rest) =>
    ((wellFormed_stringify F v).append (wellFormed_stringifyElements F rest)).cons (by decide)
  | .obj [] => rfl
  | .obj ((k, v) :: rest) =>
    ((wellFormed_quote k).append (((wellFormed_stringify F v).append
      (wellFormed_stringifyProperties F rest)).cons (by decide))).cons (by decide)
theorem wellFormed_stringifyElements (F : NumberFormat Num) :
    ∀ l : List (Json Num), WellFormed (stringifyElements F l)
  | [] => rfl
  | v :: rest =>
    ((wellFormed_stringify F v).append (wellFormed_stringifyElements F rest)).cons (by decide)
theorem wellFormed_stringifyProperties (F : NumberFormat Num) :
    ∀ l : List (JsText × Json Num), WellFormed (stringifyProperties F l)
  | [] => rfl
  | (k, v) :: rest =>
    ((wellFormed_quote k).append (((wellFormed_stringify F v).append
      (wellFormed_stringifyProperties F rest)).cons (by decide))).cons (by decide)
end

/-! ## Natural numbers as numbers -/

/-- The decimal digits of a number, as code units. -/
def decimal (n : ℕ) : JsText :=
  (Nat.toDigits 10 n).map Char.toNat

theorem decimalValue_decimal (n : ℕ) : decimalValue (decimal n) = n := by
  have hvalue : decimalValue (decimal n) = Nat.ofDigitChars 10 (Nat.toDigits 10 n) 0 := by
    rw [decimalValue, decimal, foldl_map]
    congr 1
    funext acc c
    rw [Nat.mul_comm]
    rfl
  rw [hvalue, Nat.ofDigitChars_ten_toDigits]

theorem mem_decimal {n u : ℕ} (h : u ∈ decimal n) : 48 ≤ u ∧ u ≤ 57 := by
  obtain ⟨c, hc, rfl⟩ := mem_map.mp h
  have hdigit := Nat.isDigit_of_mem_toDigits (by decide) (by decide) hc
  rw [Char.isDigit, and_eq_true, decide_eq_true_eq, decide_eq_true_eq] at hdigit
  exact hdigit

theorem decimal_ne_nil (n : ℕ) : decimal n ≠ [] := by
  intro h
  exact Nat.toDigits_ne_nil (map_eq_nil_iff.mp h)

theorem decimal_ne_of_not_digit {u : ℕ} (hu : ¬ (48 ≤ u ∧ u ≤ 57)) (n : ℕ) (t : JsText) :
    decimal n ≠ u :: t := by
  intro h
  exact hu (mem_decimal (h ▸ mem_cons_self))

/-- The numbers of a program that counts: naturals, and negative zero (`none`). -/
def counting : NumberFormat (Option ℕ) where
  read t := if t = [45, 48] then some none else some (some (decimalValue t))
  print n := decimal (n.getD 0)
  ofNat n := some n
  negativeZero := none
  token n := by
    refine .inr ⟨decimal_ne_nil _, fun u hu => ?_, ?_⟩
    · have hdigit := mem_decimal hu
      simp [isNumberUnit, hdigit.1, hdigit.2]
    · split <;> rfl
  read_print n _ hn := by
    cases n with
    | none => exact absurd rfl hn
    | some k =>
      rw [if_neg (decimal_ne_of_not_digit (by decide) _ _), decimalValue_decimal]
      rfl
  print_negativeZero := rfl
  print_ofNat k := decimal_ne_of_not_digit (by decide) _ _
  ofNat_ne_negativeZero k := by simp
  one_ne_zero := by simp

end Json

end RelayIde.Library
