import RelayIde.Library.JsonTree
import RelayIde.Library.Replacement

/-!
# Public Projection

What a client shows of an envelope (`shared/channel-client.ts`).  Properties that name provider
correlations or secrets are removed, and their strings are replaced wherever else the envelope
repeats them, as is the configured token.

- `publicProjection_of_safe` — nothing private is left, in whatever order the keys come, as long
  as the needles do not interfere
-/

namespace RelayIde.Channel

open RelayIde.Library List
open RelayIde.Library.JsText (utf16)

variable {Num : Type}

/-! ## Keys -/

/-- `toLowerCase`, as far as the words below tell: no other letter has one of theirs as its
    lower case, but for the Kelvin sign, and none of the words compared has a `k`. -/
def lowerUnit (u : ℕ) : ℕ :=
  if 65 ≤ u ∧ u ≤ 90 then u + 32 else u

/-- `key.replace(/[-_]/g, '').toLowerCase()`. -/
def normalizeKey (key : JsText) : JsText :=
  (key.filter fun u => !(u == 45 || u == 95)).map lowerUnit

def PRIVATE_PROVIDER_KEYS : List JsText :=
  ["runtimeId", "turnId", "itemId", "providerItemId", "providerTurnId", "providerRuntimeId",
    "sessionId", "source", "sourceId", "sourceRuntimeId", "sourceTurnId", "sourceItemId"].map utf16

def PRIVATE_PROVIDER_NORMALIZED_KEYS : List JsText := PRIVATE_PROVIDER_KEYS.map normalizeKey

/-- `/^(?:provider|source)?(?:runtime|turn|item|session)(?:id)?$/`. -/
def matchesProviderKey (normalized : JsText) : Bool :=
  (["", "provider", "source"].map utf16).any fun origin =>
    (["runtime", "turn", "item", "session"].map utf16).any fun subject =>
      (["", "id"].map utf16).any fun ending => decide (normalized = origin ++ subject ++ ending)

def isPrivateProviderKey (key : JsText) : Bool :=
  let normalized := normalizeKey key
  decide (normalized ∈ PRIVATE_PROVIDER_NORMALIZED_KEYS) || matchesProviderKey normalized

/-- Public Relay correlations. -/
def isRetainedRelayKey (key : JsText) : Bool :=
  decide (normalizeKey key ∈ ["runid", "targetid", "sender", "senderid", "providerid"].map utf16)

/-- `SENSITIVE_ERROR_KEY.test(key)`. -/
def isSensitiveKey (key : JsText) : Bool :=
  (["token", "authorization", "credential", "secret", "apikey", "api-key", "api_key",
    "password"].map utf16).any fun word => decide (word <:+: key.map lowerUnit)

def isPrivateValueKey (key : JsText) : Bool :=
  isPrivateProviderKey key || isSensitiveKey key

/-! ## Needles -/

def PRIVATE_REDACTION_MIN_CHARS : ℕ := 8

/-- `[A-Za-z0-9]`. -/
def isAlphanumeric (u : ℕ) : Bool :=
  decide (65 ≤ u ∧ u ≤ 90) || decide (97 ≤ u ∧ u ≤ 122) || decide (48 ≤ u ∧ u ≤ 57)

/-- `[A-Za-z0-9._:-]`. -/
def isLocatorUnit (u : ℕ) : Bool :=
  isAlphanumeric u || u == 46 || u == 95 || u == 58 || u == 45

def isRedactablePrivateValue (value : JsText) : Bool :=
  decide (PRIVATE_REDACTION_MIN_CHARS ≤ value.length) &&
    (value.head?.map isAlphanumeric).getD false && value.all isLocatorUnit

/-- `values.add(value)`, on a set that iterates in the order of insertion. -/
def addValue (values : List JsText) (value : JsText) : List JsText :=
  if value ∈ values then values else values ++ [value]

/-- Whether what stands under a key is private. -/
def childPrivate (key : JsText) (inheritedPrivate : Bool) : Bool :=
  if isRetainedRelayKey key then false else inheritedPrivate || isPrivateValueKey key

mutual
def collectPrivateStringValues : Json Num → List JsText → Bool → List JsText
  | .str value, values, inheritedPrivate =>
    if inheritedPrivate && isRedactablePrivateValue value then addValue values value else values
  | .arr elements, values, inheritedPrivate => collectFromElements elements values inheritedPrivate
  | .obj properties, values, inheritedPrivate =>
    collectFromProperties properties values inheritedPrivate
  | _, values, _ => values
def collectFromElements : List (Json Num) → List JsText → Bool → List JsText
  | [], values, _ => values
  | entry :: rest, values, inheritedPrivate =>
    collectFromElements rest (collectPrivateStringValues entry values inheritedPrivate)
      inheritedPrivate
def collectFromProperties : List (JsText × Json Num) → List JsText → Bool → List JsText
  | [], values, _ => values
  | (key, entry) :: rest, values, inheritedPrivate =>
    collectFromProperties rest
      (collectPrivateStringValues entry values (childPrivate key inheritedPrivate))
      inheritedPrivate
end

/-! ## Projection -/

def redactionMarker : JsText := utf16 "[REDACTED]"

def redactPrivateStrings (value : JsText) (needles : List JsText) : JsText :=
  replaceEach needles redactionMarker value

mutual
def projectPublicValueWithNeedles (privateValues : List JsText) : Json Num → Json Num
  | .str value => .str (redactPrivateStrings value privateValues)
  | .arr elements => .arr (projectElements privateValues elements)
  | .obj properties => .obj (projectProperties privateValues properties)
  | value => value
def projectElements (privateValues : List JsText) : List (Json Num) → List (Json Num)
  | [] => []
  | entry :: rest =>
    projectPublicValueWithNeedles privateValues entry :: projectElements privateValues rest
def projectProperties (privateValues : List JsText) :
    List (JsText × Json Num) → List (JsText × Json Num)
  | [] => []
  | (key, entry) :: rest =>
    if isPrivateValueKey key then projectProperties privateValues rest
    else
      (key, projectPublicValueWithNeedles privateValues entry) ::
        projectProperties privateValues rest
end

/-- The set that `projectPublicValue` replaces; a token that is empty is none. -/
def privateValues (value : Json Num) (configuredToken : Option JsText) : List JsText :=
  let initial := (configuredToken.filter fun token => !token.isEmpty).toList
  collectPrivateStringValues value initial false

/-- `projectPublicValue`, which `projectRelayChannelPublicValue` exports. -/
def projectRelayChannelPublicValue (value : Json Num) (configuredToken : Option JsText) :
    Json Num :=
  projectPublicValueWithNeedles (privateValues value configuredToken) value

/-! ## What is collected -/

mutual
/-- The private strings in the order of their places, repetitions included. -/
def privateStrings : Json Num → Bool → List JsText
  | .str value, inheritedPrivate =>
    if inheritedPrivate && isRedactablePrivateValue value then [value] else []
  | .arr elements, inheritedPrivate => privateStringsOfElements elements inheritedPrivate
  | .obj properties, inheritedPrivate => privateStringsOfProperties properties inheritedPrivate
  | _, _ => []
def privateStringsOfElements : List (Json Num) → Bool → List JsText
  | [], _ => []
  | entry :: rest, inheritedPrivate =>
    privateStrings entry inheritedPrivate ++ privateStringsOfElements rest inheritedPrivate
def privateStringsOfProperties : List (JsText × Json Num) → Bool → List JsText
  | [], _ => []
  | (key, entry) :: rest, inheritedPrivate =>
    privateStrings entry (childPrivate key inheritedPrivate) ++
      privateStringsOfProperties rest inheritedPrivate
end

theorem privateStrings_arr (elements : List (Json Num)) (inheritedPrivate : Bool) :
    privateStrings (.arr elements) inheritedPrivate =
      elements.flatMap fun entry => privateStrings entry inheritedPrivate := by
  rw [privateStrings]
  induction elements with
  | nil => rfl
  | cons entry rest ih => rw [privateStringsOfElements, ih, flatMap_cons]

theorem privateStrings_obj (properties : List (JsText × Json Num)) (inheritedPrivate : Bool) :
    privateStrings (.obj properties) inheritedPrivate =
      properties.flatMap fun p => privateStrings p.2 (childPrivate p.1 inheritedPrivate) := by
  rw [privateStrings]
  induction properties with
  | nil => rfl
  | cons p rest ih => rw [privateStringsOfProperties, ih, flatMap_cons]

theorem collectPrivateStringValues_eq (value : Json Num) (values : List JsText)
    (inheritedPrivate : Bool) :
    collectPrivateStringValues value values inheritedPrivate =
      (privateStrings value inheritedPrivate).foldl addValue values := by
  induction value using Json.inductionOn generalizing values inheritedPrivate with
  | null | bool b | num n => rfl
  | str value =>
    rw [collectPrivateStringValues, privateStrings]
    split <;> rfl
  | arr elements ih =>
    rw [collectPrivateStringValues, privateStrings]
    induction elements generalizing values with
    | nil => rfl
    | cons entry rest ihRest =>
      rw [collectFromElements, privateStringsOfElements, foldl_append,
        ih entry mem_cons_self, ihRest fun v hv => ih v (mem_cons_of_mem entry hv)]
  | obj properties ih =>
    rw [collectPrivateStringValues, privateStrings]
    induction properties generalizing values with
    | nil => rfl
    | cons p rest ihRest =>
      rw [collectFromProperties, privateStringsOfProperties, foldl_append,
        ih p mem_cons_self, ihRest fun q hq => ih q (mem_cons_of_mem p hq)]

variable {values needles : List JsText} {x needle text : JsText} {value' : Json Num}

theorem mem_addValue {value : JsText} : x ∈ addValue values value ↔ x ∈ values ∨ x = value := by
  unfold addValue
  split
  · rename_i hmem
    constructor
    · exact .inl
    · rintro (h | rfl)
      · exact h
      · exact hmem
  · simp

variable {found : List JsText}

theorem mem_foldl_addValue :
    x ∈ found.foldl addValue values ↔ x ∈ values ∨ x ∈ found := by
  induction found generalizing values with
  | nil => simp
  | cons value found ih =>
    rw [foldl_cons, ih, mem_addValue, mem_cons, or_assoc]

theorem nodup_foldl_addValue (h : values.Nodup) :
    (found.foldl addValue values).Nodup := by
  induction found generalizing values with
  | nil => exact h
  | cons value found ih =>
    refine ih ?_
    unfold addValue
    split
    · exact h
    · rename_i hnew
      rw [nodup_append]
      refine ⟨h, nodup_singleton _, fun x hx y hy heq => hnew ?_⟩
      rw [← mem_singleton.mp hy, ← heq]
      exact hx

theorem prefix_foldl_addValue (found values : List JsText) :
    values <+: found.foldl addValue values := by
  induction found generalizing values with
  | nil => exact prefix_rfl
  | cons value found ih =>
    refine List.IsPrefix.trans ?_ (ih (addValue values value))
    unfold addValue
    split
    · exact prefix_rfl
    · exact prefix_append _ _

variable {value : Json Num}

theorem redactable_of_mem_privateStrings {inheritedPrivate : Bool}
    (h : x ∈ privateStrings value inheritedPrivate) : isRedactablePrivateValue x = true := by
  induction value using Json.inductionOn generalizing inheritedPrivate with
  | null | bool b | num n => cases h
  | str value =>
    rw [privateStrings] at h
    split at h
    · rename_i hboth
      rw [mem_singleton.mp h]
      exact (Bool.and_eq_true_iff.mp hboth).2
    · cases h
  | arr elements ih =>
    rw [privateStrings_arr, mem_flatMap] at h
    obtain ⟨entry, hentry, hx⟩ := h
    exact ih entry hentry hx
  | obj properties ih =>
    rw [privateStrings_obj, mem_flatMap] at h
    obtain ⟨p, hp, hx⟩ := h
    exact ih p hp hx

theorem privateStrings_eq_nil
    (h : ∀ key ∈ value.keys, isPrivateValueKey key = false) : privateStrings value false = [] := by
  induction value using Json.inductionOn with
  | null | bool b | num n | str value => rfl
  | arr elements ih =>
    rw [privateStrings_arr, flatMap_eq_nil_iff]
    intro entry hentry
    refine ih entry hentry fun key hkey => h key ?_
    rw [Json.keys_arr]
    exact mem_flatMap.mpr ⟨entry, hentry, hkey⟩
  | obj properties ih =>
    rw [privateStrings_obj, flatMap_eq_nil_iff]
    intro p hp
    have hkeys : ∀ key ∈ p.1 :: p.2.keys, isPrivateValueKey key = false := fun key hkey =>
      h key (by rw [Json.keys_obj]; exact mem_flatMap.mpr ⟨p, hp, hkey⟩)
    have hchild : childPrivate p.1 false = false := by
      simp [childPrivate, hkeys p.1 mem_cons_self]
    rw [hchild]
    exact ih p hp fun key hkey => hkeys key (mem_cons_of_mem _ hkey)

theorem mem_privateStrings_of_reorders (h : value.Reorders value')
    (x : JsText) (inheritedPrivate : Bool) :
    x ∈ privateStrings value inheritedPrivate ↔ x ∈ privateStrings value' inheritedPrivate := by
  induction h generalizing inheritedPrivate with
  | refl value => exact Iff.rfl
  | trans _ _ ih ih' => exact (ih inheritedPrivate).trans (ih' inheritedPrivate)
  | perm hperm =>
    rw [privateStrings_obj, privateStrings_obj]
    exact (hperm.flatMap_right _).mem_iff
  | element front back _ ih =>
    simp [privateStrings_arr, ih]
  | property key front back _ ih =>
    simp only [privateStrings_obj, flatMap_append, flatMap_cons, mem_append, ih]

/-! ## What is projected -/

section
variable (needles : List JsText)

theorem projectElements_eq_map (elements : List (Json Num)) :
    projectElements needles elements =
      elements.map (projectPublicValueWithNeedles needles) := by
  induction elements with
  | nil => rfl
  | cons entry rest ih => rw [projectElements, ih, map_cons]

theorem projectProperties_eq_map (properties : List (JsText × Json Num)) :
    projectProperties needles properties =
      (properties.filter fun p => !isPrivateValueKey p.1).map fun p =>
        (p.1, projectPublicValueWithNeedles needles p.2) := by
  induction properties with
  | nil => rfl
  | cons p rest ih =>
    rw [projectProperties, filter_cons]
    split
    · rename_i hprivate
      rw [if_neg (by simp [hprivate]), ih]
    · rename_i hpublic
      rw [if_pos (by simpa using hpublic), map_cons, ih]

theorem project_arr (elements : List (Json Num)) :
    projectPublicValueWithNeedles needles (.arr elements) =
      .arr (elements.map (projectPublicValueWithNeedles needles)) := by
  rw [projectPublicValueWithNeedles, projectElements_eq_map]

theorem project_obj (properties : List (JsText × Json Num)) :
    projectPublicValueWithNeedles needles (.obj properties) =
      .obj ((properties.filter fun p => !isPrivateValueKey p.1).map fun p =>
        (p.1, projectPublicValueWithNeedles needles p.2)) := by
  rw [projectPublicValueWithNeedles, projectProperties_eq_map]

end

theorem isPrivateValueKey_of_mem_keys {value : Json Num} {key : JsText}
    (h : key ∈ (projectPublicValueWithNeedles needles value).keys) :
    isPrivateValueKey key = false := by
  induction value using Json.inductionOn with
  | null | bool b | num n | str value => cases h
  | arr elements ih =>
    rw [project_arr, Json.keys_arr, flatMap_map, mem_flatMap] at h
    obtain ⟨entry, hentry, hkey⟩ := h
    exact ih entry hentry hkey
  | obj properties ih =>
    rw [project_obj, Json.keys_obj, flatMap_map, mem_flatMap] at h
    obtain ⟨p, hp, hkey⟩ := h
    obtain ⟨hmem, hpublic⟩ := mem_filter.mp hp
    rcases mem_cons.mp hkey with rfl | hkey
    · simpa using hpublic
    · exact ih p hmem hkey

/-- The strings of the envelope that are not under a private key. -/
def publicStrings (value : Json Num) : List JsText :=
  (projectPublicValueWithNeedles [] value).strings

theorem strings_project (needles : List JsText) (value : Json Num) :
    (projectPublicValueWithNeedles needles value).strings =
      (publicStrings value).map fun text => redactPrivateStrings text needles := by
  unfold publicStrings
  induction value using Json.inductionOn with
  | null => rfl
  | bool b => rfl
  | num n => rfl
  | str value => rfl
  | arr elements ih =>
    simp only [project_arr, Json.strings_arr, flatMap_map, map_flatMap]
    exact flatMap_congr fun entry hentry => ih entry hentry
  | obj properties ih =>
    simp only [project_obj, Json.strings_obj, flatMap_map, map_flatMap]
    exact flatMap_congr fun p hp => ih p (mem_filter.mp hp).1

theorem project_congr {needles' : List JsText} {value : Json Num} (h : ∀ text ∈ publicStrings value,
      redactPrivateStrings text needles = redactPrivateStrings text needles') :
    projectPublicValueWithNeedles needles value = projectPublicValueWithNeedles needles' value := by
  induction value using Json.inductionOn with
  | null => rfl
  | bool b => rfl
  | num n => rfl
  | str value => exact congrArg Json.str (h value mem_cons_self)
  | arr elements ih =>
    rw [project_arr, project_arr]
    refine congrArg Json.arr (map_congr_left fun entry hentry => ih entry hentry ?_)
    intro text htext
    apply h
    rw [publicStrings, project_arr, Json.strings_arr, flatMap_map]
    exact mem_flatMap.mpr ⟨entry, hentry, htext⟩
  | obj properties ih =>
    rw [project_obj, project_obj]
    refine congrArg Json.obj (map_congr_left fun p hp => ?_)
    rw [ih p (mem_filter.mp hp).1]
    intro text htext
    apply h
    rw [publicStrings, project_obj, Json.strings_obj, flatMap_map]
    exact mem_flatMap.mpr ⟨p, hp, htext⟩

theorem project_eq_self {value : Json Num}
    (hkeys : ∀ key ∈ value.keys, isPrivateValueKey key = false)
    (hstrings : ∀ text ∈ value.strings, redactPrivateStrings text needles = text) :
    projectPublicValueWithNeedles needles value = value := by
  induction value using Json.inductionOn with
  | null => rfl
  | bool b => rfl
  | num n => rfl
  | str value => exact congrArg Json.str (hstrings value mem_cons_self)
  | arr elements ih =>
    rw [Json.keys_arr] at hkeys
    rw [Json.strings_arr] at hstrings
    rw [project_arr, map_congr_left (g := id), map_id]
    intro entry hentry
    exact ih entry hentry (fun key hkey => hkeys key (mem_flatMap.mpr ⟨entry, hentry, hkey⟩))
      (fun text htext => hstrings text (mem_flatMap.mpr ⟨entry, hentry, htext⟩))
  | obj properties ih =>
    rw [Json.keys_obj] at hkeys
    rw [Json.strings_obj] at hstrings
    have hpublic : ∀ p ∈ properties, isPrivateValueKey p.1 = false := fun p hp =>
      hkeys p.1 (mem_flatMap.mpr ⟨p, hp, mem_cons_self⟩)
    rw [project_obj, filter_eq_self.mpr fun p hp => by simp [hpublic p hp],
      map_congr_left (g := id), map_id]
    intro p hp
    refine Prod.ext rfl (ih p hp (fun key hkey => hkeys key ?_)
      (fun text htext => hstrings text ?_))
    · exact mem_flatMap.mpr ⟨p, hp, mem_cons_of_mem _ hkey⟩
    · exact mem_flatMap.mpr ⟨p, hp, htext⟩

theorem reorders_project (needles : List JsText) {value : Json Num} (h : value.Reorders value') :
    (projectPublicValueWithNeedles needles value).Reorders
      (projectPublicValueWithNeedles needles value') := by
  induction h with
  | refl value => exact .refl _
  | trans _ _ ih ih' => exact ih.trans ih'
  | perm hperm =>
    rw [project_obj, project_obj]
    exact .perm ((hperm.filter _).map _)
  | element front back _ ih =>
    simp only [project_arr, map_append]
    exact .element _ _ ih
  | property key front back _ ih =>
    simp only [project_obj, filter_append, filter_cons]
    split
    · simp only [map_append]
      exact .property key _ _ ih
    · exact .refl _

/-! ## Needles that do not interfere -/

/-- `'['` and `']'`. -/
abbrev openingBracket : ℕ := 91
abbrev closingBracket : ℕ := 93

theorem delimitedBy_redactionMarker : DelimitedBy openingBracket closingBracket redactionMarker :=
  ⟨utf16 "REDACTED", by decide⟩

structure Needle (value : JsText) : Prop where
  long : PRIVATE_REDACTION_MIN_CHARS ≤ value.length
  plain : Plain openingBracket closingBracket value

variable {value : JsText}

theorem needle_of_redactable (h : isRedactablePrivateValue value = true) :
    Needle value := by
  simp only [isRedactablePrivateValue, Bool.and_eq_true, decide_eq_true_eq, all_eq_true] at h
  refine ⟨h.1.1, fun hmem => ?_, fun hmem => ?_⟩
  · exact absurd (h.2 _ hmem) (by decide)
  · exact absurd (h.2 _ hmem) (by decide)

theorem Needle.ne_nil (h : Needle value) : value ≠ [] := by
  rintro rfl
  exact absurd h.long (by decide)

theorem Needle.eq_of_infix_marker (h : Needle value)
    (hinside : value <:+: redactionMarker) : value = utf16 "REDACTED" := by
  have hmarker : redactionMarker = [openingBracket] ++ (utf16 "REDACTED" ++ [closingBracket]) := by
    decide
  rw [hmarker, singleton_append, infix_cons_iff] at hinside
  have hbody : value <:+: utf16 "REDACTED" ++ [closingBracket] := by
    rcases hinside with hfront | hinside
    · rcases prefix_cons_iff.mp hfront with rfl | ⟨tail, rfl, -⟩
      · exact absurd rfl h.ne_nil
      · exact absurd mem_cons_self h.plain.1
    · exact hinside
  have hword : value <:+: utf16 "REDACTED" := by
    rcases infix_concat_iff.mp hbody with hsuffix | hinside
    · rcases suffix_concat_iff.mp hsuffix with rfl | ⟨front, rfl, -⟩
      · exact absurd rfl h.ne_nil
      · exact absurd (by simp) h.plain.2
    · exact hinside
  exact hword.eq_of_length_le h.long

def tokenNeedle (configuredToken : Option JsText) : List JsText :=
  (configuredToken.filter fun token => !token.isEmpty).toList

theorem exists_privateValues (value : Json Num) (configuredToken : Option JsText) :
    ∃ collected, privateValues value configuredToken = tokenNeedle configuredToken ++ collected ∧
      (tokenNeedle configuredToken ++ collected).Nodup ∧ (∀ needle ∈ collected, Needle needle) ∧
      ∀ needle, needle ∈ collected ↔
        needle ∈ privateStrings value false ∧ needle ∉ tokenNeedle configuredToken := by
  have heq : privateValues value configuredToken =
      (privateStrings value false).foldl addValue (tokenNeedle configuredToken) :=
    collectPrivateStringValues_eq value (tokenNeedle configuredToken) false
  have htoken : (tokenNeedle configuredToken).Nodup := by
    unfold tokenNeedle
    cases configuredToken.filter fun token => !token.isEmpty <;> simp
  obtain ⟨collected, hcollected⟩ :=
    prefix_foldl_addValue (privateStrings value false) (tokenNeedle configuredToken)
  have hnodup : (tokenNeedle configuredToken ++ collected).Nodup :=
    hcollected ▸ nodup_foldl_addValue htoken
  have hmem : ∀ needle, needle ∈ collected ↔
      needle ∈ privateStrings value false ∧ needle ∉ tokenNeedle configuredToken := by
    intro needle
    have hboth : needle ∈ tokenNeedle configuredToken ++ collected ↔
        needle ∈ tokenNeedle configuredToken ∨ needle ∈ privateStrings value false := by
      rw [hcollected]
      exact mem_foldl_addValue
    rw [mem_append] at hboth
    have hdisjoint := (nodup_append.mp hnodup).2.2
    constructor
    · intro h
      have hnew : needle ∉ tokenNeedle configuredToken := fun ht => hdisjoint _ ht _ h rfl
      exact ⟨(hboth.mp (.inr h)).resolve_left hnew, hnew⟩
    · rintro ⟨hfound, hnew⟩
      exact (hboth.mpr (.inr hfound)).resolve_left hnew
  exact ⟨collected, heq.trans hcollected.symm, hnodup,
    fun needle h => needle_of_redactable (redactable_of_mem_privateStrings ((hmem needle).mp h).1),
    hmem⟩

theorem ne_nil_of_mem_tokenNeedle {configuredToken : Option JsText}
    (h : needle ∈ tokenNeedle configuredToken) : configuredToken = some needle ∧ needle ≠ [] := by
  cases configuredToken with
  | none => cases h
  | some token =>
    unfold tokenNeedle at h
    simp only [Option.mem_toList, Option.filter_eq_some_iff] at h
    refine ⟨h.1, ?_⟩
    simpa using h.2

/-- The token is the marker, or it is no part of it and has no bracket, or nothing at all is
    replaced. -/
def TokenSafe (value : Json Num) (configuredToken : Option JsText) : Prop :=
  ∀ token ∈ tokenNeedle configuredToken, token = redactionMarker ∨
    (Plain openingBracket closingBracket token ∧ ¬ token <:+: redactionMarker) ∨
    ∀ text ∈ publicStrings value, ∀ needle ∈ privateValues value configuredToken, ¬ needle <:+: text

/-- Two private values that are found in one order or the other, depending on the order of keys,
    do not interfere in a public string. -/
def OrderSafe (value : Json Num) (configuredToken : Option JsText) : Prop :=
  ∀ value', value.Reorders value' → ∀ needle needle',
    [needle, needle'].Sublist (privateValues value configuredToken) →
    [needle', needle].Sublist (privateValues value' configuredToken) →
    ∀ text ∈ publicStrings value, ¬ Interfere redactionMarker needle needle' text

structure PublicProjection (value : Json Num) (configuredToken : Option JsText) : Prop where
  keys : ∀ key ∈ (projectRelayChannelPublicValue value configuredToken).keys,
    isPrivateValueKey key = false
  hidden : ∀ text ∈ (projectRelayChannelPublicValue value configuredToken).strings,
    ∀ needle ∈ privateValues value configuredToken, ¬ needle <:+: redactionMarker →
      ¬ needle <:+: text
  order : ∀ value', value.Reorders value' →
    (projectRelayChannelPublicValue value configuredToken).Reorders
      (projectRelayChannelPublicValue value' configuredToken)
  again : projectRelayChannelPublicValue (projectRelayChannelPublicValue value configuredToken)
    configuredToken = projectRelayChannelPublicValue value configuredToken

section Safe

variable {value : Json Num} {configuredToken : Option JsText}

theorem ne_nil_of_mem_privateValues
    (h : needle ∈ privateValues value configuredToken) : needle ≠ [] := by
  obtain ⟨collected, heq, -, hneedle, -⟩ := exists_privateValues value configuredToken
  rw [heq, mem_append] at h
  rcases h with h | h
  · exact (ne_nil_of_mem_tokenNeedle h).2
  · exact (hneedle needle h).ne_nil

theorem redact_eq_self
    (h : ∀ needle ∈ needles, ¬ needle <:+: text) : redactPrivateStrings text needles = text :=
  replaceEach_eq_self fun needle hneedle => replaceAll_eq_self (h needle hneedle)

theorem hidden_of_tokenSafe (hsafe : TokenSafe value configuredToken) :
    ∀ text ∈ (projectRelayChannelPublicValue value configuredToken).strings,
      ∀ needle ∈ privateValues value configuredToken, ¬ needle <:+: redactionMarker →
        ¬ needle <:+: text := by
  intro text htext needle hmem hother
  rw [projectRelayChannelPublicValue, strings_project, mem_map] at htext
  obtain ⟨original, horiginal, rfl⟩ := htext
  have hplain : Plain openingBracket closingBracket needle →
      ¬ needle <:+: redactPrivateStrings original (privateValues value configuredToken) :=
    fun h => not_infix_replaceEach delimitedBy_redactionMarker
      (fun other hother => ne_nil_of_mem_privateValues hother) hmem h hother original
  obtain ⟨collected, heq, -, hneedle, -⟩ := exists_privateValues value configuredToken
  have hsplit := hmem
  rw [heq, mem_append] at hsplit
  rcases hsplit with htoken | hcollected
  · rcases hsafe needle htoken with rfl | ⟨h, -⟩ | hnone
    · exact absurd infix_rfl hother
    · exact hplain h
    · rw [redact_eq_self (hnone original horiginal)]
      exact hnone original horiginal needle hmem
  · exact hplain (hneedle needle hcollected).plain

/-- The needles that two orders of the keys give replace a public string alike. -/
theorem redact_eq_of_orderSafe (hsafe : OrderSafe value configuredToken)
    (hreorders : value.Reorders value') (htext : text ∈ publicStrings value) :
    redactPrivateStrings text (privateValues value configuredToken) =
      redactPrivateStrings text (privateValues value' configuredToken) := by
  obtain ⟨collected, heq, hnodup, hneedle, hmem⟩ := exists_privateValues value configuredToken
  obtain ⟨collected', heq', hnodup', -, hmem'⟩ := exists_privateValues value' configuredToken
  have hperm : collected.Perm collected' := by
    refine (perm_ext_iff_of_nodup (nodup_append.mp hnodup).2.1
      (nodup_append.mp hnodup').2.1).mpr fun needle => ?_
    rw [hmem, hmem', mem_privateStrings_of_reorders hreorders]
  have hmarked : ∀ a ∈ collected, ∀ b ∈ collected, a <:+: redactionMarker →
      b <:+: redactionMarker → a = b := fun a ha b hb hina hinb =>
    ((hneedle a ha).eq_of_infix_marker hina).trans ((hneedle b hb).eq_of_infix_marker hinb).symm
  -- the token comes first in both orders
  have hstart : Stems openingBracket closingBracket redactionMarker text
      (replaceEach (tokenNeedle configuredToken) redactionMarker text) :=
    (Stems.refl text).replaceEach delimitedBy_redactionMarker
      fun token h => (ne_nil_of_mem_tokenNeedle h).2
  have heach := replaceEach_eq_of_perm delimitedBy_redactionMarker hperm
    (nodup_append.mp hnodup).2.1 (fun needle h => (hneedle needle h).ne_nil)
    (fun needle h => (hneedle needle h).plain) hmarked (fun a b hab hba => ?_) hstart
  · rw [redactPrivateStrings, redactPrivateStrings, heq, heq', replaceEach, replaceEach,
      foldl_append, foldl_append]
    exact heach
  · refine hsafe value' hreorders a b ?_ ?_ text htext
    · rw [heq]
      exact hab.trans (sublist_append_right _ _)
    · rw [heq']
      exact hba.trans (sublist_append_right _ _)

theorem order_of_orderSafe (hsafe : OrderSafe value configuredToken)
    (hreorders : value.Reorders value') :
    (projectRelayChannelPublicValue value configuredToken).Reorders
      (projectRelayChannelPublicValue value' configuredToken) := by
  have hprojected := reorders_project (privateValues value configuredToken) hreorders
  have hsame : projectPublicValueWithNeedles (privateValues value configuredToken) value' =
      projectRelayChannelPublicValue value' configuredToken := by
    refine project_congr fun text htext => redact_eq_of_orderSafe hsafe hreorders ?_
    exact ((reorders_project [] hreorders).mem_strings text).mpr htext
  exact hsame ▸ hprojected

theorem privateValues_project (value : Json Num) (configuredToken : Option JsText) :
    privateValues (projectRelayChannelPublicValue value configuredToken) configuredToken =
      tokenNeedle configuredToken := by
  have hnone : privateStrings (projectRelayChannelPublicValue value configuredToken) false = [] :=
    privateStrings_eq_nil fun key hkey => isPrivateValueKey_of_mem_keys hkey
  rw [privateValues, collectPrivateStringValues_eq, hnone]
  rfl

theorem again_of_tokenSafe (hsafe : TokenSafe value configuredToken) :
    projectRelayChannelPublicValue (projectRelayChannelPublicValue value configuredToken)
      configuredToken = projectRelayChannelPublicValue value configuredToken := by
  rw [projectRelayChannelPublicValue, privateValues_project]
  refine project_eq_self (fun key hkey => isPrivateValueKey_of_mem_keys hkey) fun text htext => ?_
  refine replaceEach_eq_self fun token htoken => ?_
  have hmem : token ∈ privateValues value configuredToken := by
    obtain ⟨collected, heq, -⟩ := exists_privateValues value configuredToken
    exact heq ▸ mem_append_left _ htoken
  rcases hsafe token htoken with rfl | ⟨-, hother⟩ | hnone
  · exact replaceAll_self (ne_nil_of_mem_tokenNeedle htoken).2 text
  · exact replaceAll_eq_self (hidden_of_tokenSafe hsafe text htext token hmem hother)
  · rw [projectRelayChannelPublicValue, strings_project, mem_map] at htext
    obtain ⟨original, horiginal, rfl⟩ := htext
    rw [redact_eq_self (hnone original horiginal)]
    exact replaceAll_eq_self (hnone original horiginal token hmem)

/-- **Public projection**: no private key and no private value is left, in whatever order the
    keys come, and a second projection changes nothing, as long as the needles are safe. -/
theorem publicProjection_of_safe (htoken : TokenSafe value configuredToken)
    (horder : OrderSafe value configuredToken) : PublicProjection value configuredToken where
  keys := fun _ hkey => isPrivateValueKey_of_mem_keys hkey
  hidden := hidden_of_tokenSafe htoken
  order := fun _ hreorders => order_of_orderSafe horder hreorders
  again := again_of_tokenSafe htoken

end Safe

/-- An envelope with two private values, which its text repeats. -/
def echoedEnvelope : Json ℕ :=
  .obj [(utf16 "runtimeId", .str (utf16 "abcdefgh")), (utf16 "turnId", .str (utf16 "klmnopqr")),
    (utf16 "text", .str (utf16 "klmnopqr at abcdefgh: zyxwvuts"))]

theorem not_interfere_echoed {needle needle' : JsText}
    (h : [needle, needle'].Sublist (privateValues echoedEnvelope (some (utf16 "zyxwvuts")))) :
    ¬ Interfere redactionMarker needle needle' (utf16 "klmnopqr at abcdefgh: zyxwvuts") := by
  have hneedles : privateValues echoedEnvelope (some (utf16 "zyxwvuts")) =
      [utf16 "zyxwvuts", utf16 "abcdefgh", utf16 "klmnopqr"] := by decide
  have hpairwise : (privateValues echoedEnvelope (some (utf16 "zyxwvuts"))).Pairwise
      fun needle needle' => ¬ Interfere redactionMarker needle needle'
        (utf16 "klmnopqr at abcdefgh: zyxwvuts") := by
    rw [hneedles]
    simp only [pairwise_cons, mem_cons, not_mem_nil, or_false, forall_eq_or_imp, forall_eq]
    refine ⟨⟨?_, ?_⟩, ?_, nofun, .nil⟩ <;>
      exact not_or_intro (not_overlap_of_forall (by decide) (by decide) (by decide))
        (by decide)
  exact (pairwise_cons.mp (hpairwise.sublist h)).1 needle' mem_cons_self

theorem publicProjection_of_safe_echoed :
    PublicProjection echoedEnvelope (some (utf16 "zyxwvuts")) := by
  refine publicProjection_of_safe (fun token htoken => ?_)
    fun value' _ needle needle' hpair _ text htext => ?_
  · obtain rfl := mem_singleton.mp (show token ∈ [utf16 "zyxwvuts"] from htoken)
    exact .inr (.inl ⟨⟨by decide, by decide⟩, by decide⟩)
  · have htexts : publicStrings echoedEnvelope = [utf16 "klmnopqr at abcdefgh: zyxwvuts"] := by
      decide
    rw [htexts] at htext
    obtain rfl := mem_singleton.mp htext
    exact not_interfere_echoed hpair

/-- Two private values, one a prefix of the other. -/
def nestedEnvelope (first second : JsText × Json ℕ) : Json ℕ :=
  .obj [first, second, (utf16 "text", .str (utf16 "abcdefghij"))]

/-- The needle that is found first decides what is left of the other. -/
theorem not_publicProjection_of_nested_needles :
    ¬ ∀ (value : Json ℕ) (configuredToken : Option JsText),
      PublicProjection value configuredToken := by
  intro h
  have hreorders := (h (nestedEnvelope (utf16 "runtimeId", .str (utf16 "abcdefgh"))
    (utf16 "turnId", .str (utf16 "abcdefghij"))) none).order
    (nestedEnvelope (utf16 "turnId", .str (utf16 "abcdefghij"))
      (utf16 "runtimeId", .str (utf16 "abcdefgh"))) (.perm (.swap _ _ _))
  have hstrings := hreorders.mem_strings (utf16 "[REDACTED]ij")
  exact absurd hstrings (by decide)

end RelayIde.Channel
