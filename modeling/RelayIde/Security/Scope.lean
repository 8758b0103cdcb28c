import RelayIde.Library.PosixPath
import RelayIde.Library.Text

/-!
# Capabilities and Scopes

What a scoped actor credential and an operator handshake grant have in common: the capability
bits they hold, the eight scope dimensions they restrict, and the three-field text that carries
their secret.

- `laneToken`, `parseLaneToken` — `lane.id.secret`
-/

open List

namespace RelayIde.Security

open RelayIde.Library

/-! ## Capability bits -/

def relayCapabilityBits : List String :=
  ["session:read", "session:create:terminal", "session:attach", "session:control:kill",
    "session:control:rename", "tab:intervention:read", "tab:intervention:send-text",
    "tab:intervention:send-key", "tab:intervention:submit", "rpc:fs:list", "rpc:fs:read",
    "rpc:fs:tail", "rpc:fs:write", "rpc:fs:delete", "rpc:git:read", "rpc:git:write",
    "pty:exec:arbitrary", "preview:port-forward", "node:acl:widen", "credential:export",
    "node:lifecycle:destructive", "node:pair-token:create", "logs:read", "context:read",
    "context:write", "inbox:read", "inbox:write", "artifact:write", "settings:read",
    "settings:write", "integration:webhook:read", "integration:webhook:test"]

def highRiskCapabilities : List String :=
  ["session:control:kill", "tab:intervention:send-text", "tab:intervention:send-key",
    "tab:intervention:submit", "rpc:fs:write", "rpc:fs:delete", "rpc:git:write",
    "pty:exec:arbitrary", "preview:port-forward", "node:acl:widen", "credential:export",
    "node:lifecycle:destructive", "settings:write"]

abbrev RelayCapabilityBit := {bit : String // bit ∈ relayCapabilityBits}

instance : LawfulBEq RelayCapabilityBit := inferInstance

theorem sessionRead_mem : "session:read" ∈ relayCapabilityBits := by decide

def isRelayCapabilityBit (value : String) : Bool :=
  value ∈ relayCapabilityBits

/-- The known capabilities of a list without repetitions, or the first unknown one. -/
def normalizeCapabilities : List RelayCapabilityBit → List String →
    Except String (List RelayCapabilityBit)
  | normalized, [] => .ok normalized
  | normalized, value :: values =>
    if h : value ∈ relayCapabilityBits then
      if ⟨value, h⟩ ∈ normalized then normalizeCapabilities normalized values
      else normalizeCapabilities (normalized ++ [⟨value, h⟩]) values
    else .error value

def missingCapabilities (held : List RelayCapabilityBit) (required : List String) : List String :=
  required.filter fun capability => !(held.map (·.val)).contains capability

theorem missingCapabilities_eq_nil_iff (held : List RelayCapabilityBit) (required : List String) :
    missingCapabilities held required = [] ↔
      ∀ capability ∈ required, ∃ bit ∈ held, bit.val = capability := by
  simp [missingCapabilities]

/-- `ACTOR_CREDENTIAL_TYPES` and `HANDSHAKE_GRANT_ACTOR_TYPES`: the holders of delegated rights. -/
inductive ActorType
  | agent | cli | automationSystem
deriving DecidableEq

def ActorType.ofString? : String → Option ActorType
  | "agent" => some .agent
  | "cli" => some .cli
  | "automation-system" => some .automationSystem
  | _ => none

def ActorType.text : ActorType → String
  | .agent => "agent"
  | .cli => "cli"
  | .automationSystem => "automation-system"

theorem ActorType.ofString?_eq_some_iff (value : String) (actorType : ActorType) :
    ofString? value = some actorType ↔ value = actorType.text := by
  constructor
  · intro h
    unfold ofString? at h
    split at h <;> cases h <;> rfl
  · rintro rfl
    cases actorType <;> rfl

theorem mem_normalizeCapabilities {values : List String} {normalized bits : List RelayCapabilityBit}
    (h : normalizeCapabilities normalized values = .ok bits) (capability : String) :
    (∃ bit ∈ bits, bit.val = capability) ↔
      (∃ bit ∈ normalized, bit.val = capability) ∨ capability ∈ values := by
  induction values generalizing normalized with
  | nil =>
    cases h
    simp
  | cons value values ih =>
    rw [normalizeCapabilities] at h
    split at h
    · rename_i hknown
      split at h
      · rename_i hseen
        rw [ih h, mem_cons]
        constructor
        · rintro (hold | hmem)
          · exact .inl hold
          · exact .inr (.inr hmem)
        · rintro (hold | rfl | hmem)
          · exact .inl hold
          · exact .inl ⟨_, hseen, rfl⟩
          · exact .inr hmem
      · rw [ih h]
        simp [or_assoc, eq_comm]
    · cases h

/-! ## Scope dimensions -/

structure ScopeFields (α : Type) where
  nodeIds : α
  sessionIds : α
  globalSessionIds : α
  workContextIds : α
  channelIds : α
  repoIds : α
  pathPrefixes : α
  taskRefs : α

inductive ScopeDimension
  | node | session | globalSession | workContext | channel | repo | path | task
deriving DecidableEq

namespace ScopeFields

variable {α β : Type}

def get (fields : ScopeFields α) : ScopeDimension → α
  | .node => fields.nodeIds
  | .session => fields.sessionIds
  | .globalSession => fields.globalSessionIds
  | .workContext => fields.workContextIds
  | .channel => fields.channelIds
  | .repo => fields.repoIds
  | .path => fields.pathPrefixes
  | .task => fields.taskRefs

def map (f : α → β) (fields : ScopeFields α) : ScopeFields β where
  nodeIds := f fields.nodeIds
  sessionIds := f fields.sessionIds
  globalSessionIds := f fields.globalSessionIds
  workContextIds := f fields.workContextIds
  channelIds := f fields.channelIds
  repoIds := f fields.repoIds
  pathPrefixes := f fields.pathPrefixes
  taskRefs := f fields.taskRefs

@[simp] theorem get_map (f : α → β) (fields : ScopeFields α) (d : ScopeDimension) :
    (fields.map f).get d = f (fields.get d) := by
  cases d <;> rfl

end ScopeFields

/-- Every dimension, in the order of the rule tables. -/
def ScopeDimension.all : List ScopeDimension :=
  [.node, .session, .globalSession, .workContext, .channel, .repo, .path, .task]

@[simp] theorem ScopeDimension.mem_all (d : ScopeDimension) : d ∈ ScopeDimension.all := by
  cases d <;> decide

/-! ## Normalized scopes -/

/-- Helper: one value of `normalizeStringList`; `seen` holds the values already kept. -/
def addTrimmed (normalized : List String) (value : String) : List String :=
  if Text.trim value = "" ∨ Text.trim value ∈ normalized then normalized
  else normalized ++ [Text.trim value]

/-- `normalizeStringList`: the trimmed values that are not empty, without repetitions. -/
def normalizeStringList (values : Option (List String)) : List String :=
  (values.getD []).foldl addTrimmed []

theorem addTrimmed_not_blank {normalized : List String}
    (h : ∀ v ∈ normalized, Text.isBlank v = false) (value : String) :
    ∀ v ∈ addTrimmed normalized value, Text.isBlank v = false := by
  intro v hv
  rw [addTrimmed] at hv
  split at hv
  · exact h v hv
  · rename_i hkeep
    rw [not_or] at hkeep
    rw [mem_append, mem_singleton] at hv
    obtain hv | rfl := hv
    · exact h v hv
    · exact Text.isBlank_trim hkeep.1

theorem foldl_addTrimmed_not_blank (values : List String) {normalized : List String}
    (h : ∀ v ∈ normalized, Text.isBlank v = false) :
    ∀ v ∈ values.foldl addTrimmed normalized, Text.isBlank v = false := by
  induction values generalizing normalized with
  | nil => exact h
  | cons value values ih =>
    rw [foldl_cons]
    exact ih (addTrimmed_not_blank h value)

theorem normalizeStringList_not_blank (values : Option (List String)) :
    ∀ v ∈ normalizeStringList values, Text.isBlank v = false :=
  foldl_addTrimmed_not_blank _ (by simp)

structure ScopeValues where
  values : List String
  /-- A dimension without values is not restricted. -/
  nonempty : values ≠ []
  /-- Values are trimmed, and what is then empty is dropped. -/
  not_blank : ∀ v ∈ values, Text.isBlank v = false

/-- A dimension is restricted when values remain. -/
def scopeValues (values : Option (List String)) : Option ScopeValues :=
  if h : normalizeStringList values = [] then none
  else some ⟨normalizeStringList values, h, normalizeStringList_not_blank values⟩

structure Scope where
  fields : ScopeFields (Option ScopeValues)
  /-- `SCOPE_REQUIRED`: there is at least one explicit dimension. -/
  restricts : ScopeDimension.all.any (fun d => (fields.get d).isSome) = true

/-- The values of one dimension, `none` when it is not restricted. -/
def Scope.values (scope : Scope) (d : ScopeDimension) : Option ScopeValues :=
  scope.fields.get d

/-- The scope an issuer asked for; `none` when no dimension is left. -/
def normalizeScope (scope : ScopeFields (Option (List String))) : Option Scope :=
  let normalized := scope.map scopeValues
  if h : ScopeDimension.all.any (fun d => (normalized.get d).isSome) = true then
    some ⟨normalized, h⟩
  else none

theorem values_of_normalizeScope {input : ScopeFields (Option (List String))} {scope : Scope}
    (h : normalizeScope input = some scope) (d : ScopeDimension) :
    scope.values d = scopeValues (input.get d) := by
  rw [normalizeScope] at h
  split at h
  · simp only [Option.some.injEq] at h
    subst h
    exact ScopeFields.get_map scopeValues input d
  · cases h

/-! ## Path prefixes -/

def directoryText (stem : String) : String :=
  if stem.toList.getLast? = some '/' then stem else stem ++ "/"

/-- Whether a path is a prefix or continues it after a slash, by its text. -/
def pathMatchesPrefix (path stem : String) : Bool :=
  path = stem || Text.hasPrefix (directoryText stem) path

theorem pathMatchesPrefix_iff (path stem : String) :
    pathMatchesPrefix path stem = true ↔
      path = stem ∨ ∃ rest, path = directoryText stem ++ rest := by
  simp [pathMatchesPrefix, Text.hasPrefix_iff]

theorem eq_append_slash_of_getLast {stem : String} (h : stem.toList.getLast? = some '/') :
    ∃ p, stem = p ++ "/" := by
  refine ⟨String.ofList stem.toList.dropLast, ?_⟩
  rw [← String.toList_inj, String.toList_append, String.toList_ofList]
  exact (dropLast_append_getLast? '/' (by simp [h])).symm

theorem resolve_directoryText_append {stem : String} (hstem : stem ≠ "") (rest : String) :
    PosixPath.resolve (directoryText stem ++ rest) =
      PosixPath.walk (PosixPath.resolve stem) (PosixPath.segments rest) := by
  rw [directoryText]
  split
  · rename_i hslash
    obtain ⟨p, rfl⟩ := eq_append_slash_of_getLast hslash
    by_cases hp : p = ""
    · subst hp
      -- the prefix is the root: its own two empty segments stay in place
      have hroot : "" ++ "/" ++ rest = "/" ++ rest := by simp
      rw [PosixPath.resolve, PosixPath.segments_append_slash]
      rw [PosixPath.origin_append (by decide)]
      rfl
    · rw [PosixPath.resolve_append_slash hp, PosixPath.resolve_slash hp]
  · exact PosixPath.resolve_append_slash hstem rest

/-- A value respects the restriction: a path, once resolved, is a prefix or lies below one, any
    other value is one of those held. -/
def Inside : ScopeDimension → List String → String → Prop
  | .path, stems, path =>
    ∃ stem ∈ stems, PosixPath.Within (PosixPath.resolve stem) (PosixPath.resolve path)
  | _, values, value => value ∈ values

/-! ## Optional arguments -/

def truthy (text : Option String) : Option String :=
  text.filter (· ≠ "")

theorem truthy_eq_some_iff (text : Option String) (value : String) :
    truthy text = some value ↔ text = some value ∧ value ≠ "" := by
  simp [truthy]

/-- A `Date | string` argument: left out (or the empty string), not a date, or a time in
    milliseconds. -/
inductive DateInput
  | absent
  | invalid
  | time (ms : ℤ)

/-! ## Tokens of a credential lane -/

/-- The text handed to the holder of the secret. -/
def laneToken (lane id secret : String) : String :=
  lane ++ "." ++ id ++ "." ++ secret

/-- The id and the secret of a token; `none` unless it has the three fields of the lane. -/
def parseLaneToken (lane token : String) : Option (String × String) :=
  match Text.fields '.' token with
  | [first, id, secret] =>
    if first = lane ∧ id ≠ "" ∧ secret ≠ "" then some (id, secret) else none
  | _ => none

theorem fields_laneToken {lane : String} (hlane : '.' ∉ lane.toList) (id secret : String) :
    Text.fields '.' (laneToken lane id secret) =
      lane :: (Text.fields '.' id ++ Text.fields '.' secret) := by
  have htext : laneToken lane id secret =
      lane ++ String.singleton '.' ++ (id ++ String.singleton '.' ++ secret) := by
    rw [← String.toList_inj]
    simp [laneToken]
  rw [htext, Text.fields_append, Text.fields_append, Text.fields_of_not_mem hlane]
  rfl

theorem parseLaneToken_laneToken {lane id secret : String} (hlane : '.' ∉ lane.toList)
    (hid : '.' ∉ id.toList) (hne : id ≠ "") (hsecret : '.' ∉ secret.toList)
    (hsne : secret ≠ "") : parseLaneToken lane (laneToken lane id secret) = some (id, secret) := by
  rw [parseLaneToken, fields_laneToken hlane, Text.fields_of_not_mem hid,
    Text.fields_of_not_mem hsecret]
  simp [hne, hsne]

theorem eq_laneToken_of_parse {lane token id secret : String}
    (h : parseLaneToken lane token = some (id, secret)) : token = laneToken lane id secret := by
  rw [parseLaneToken] at h
  split at h
  · rename_i first id' secret' hfields
    split at h
    · rename_i hcond
      cases h
      obtain ⟨rfl, _, _⟩ := hcond
      have hlists : token.toList.splitOn '.' = [first.toList, id.toList, secret.toList] := by
        have hmap := congrArg (List.map String.toList) hfields
        simpa [Text.fields] using hmap
      have hjoin : ['.'].intercalate (token.toList.splitOn '.') = token.toList :=
        intercalate_splitOn '.'
      rw [hlists] at hjoin
      rw [← String.toList_inj, ← hjoin]
      simp [laneToken]
    · cases h
  · cases h

/-! ## Fallible calls -/

theorem bind_eq_ok {ε α β : Type} {x : Except ε α} {f : α → Except ε β} {b : β}
    (h : (x >>= f) = .ok b) : ∃ a, x = .ok a ∧ f a = .ok b := by
  cases x with
  | error e => cases h
  | ok a => exact ⟨a, rfl, h⟩

/-- A call that answers has passed each of its checks. -/
theorem ite_error_eq_ok {ε α : Type} {p : Prop} [Decidable p] {e : ε} {x : Except ε α} {a : α}
    (h : (if p then .error e else x) = .ok a) : ¬p ∧ x = .ok a := by
  obtain ⟨-, h⟩ | h := ite_eq_iff.mp h
  · cases h
  · exact h

end RelayIde.Security
