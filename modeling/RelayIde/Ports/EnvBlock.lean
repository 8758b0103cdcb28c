import RelayIde.Library.Occurrence
import RelayIde.Ports.Allocator

/-!
# The Managed `.env` Block

The ports of a worktree stand in its `.env` file between two marker lines
(`server/port-allocator.ts`).  The block is found by the first occurrence of each marker.

- `envBlockLaws_iff` — they hold of text without markers, or with a block that nothing follows
-/

open List

namespace RelayIde.Ports

open RelayIde.Library
open RelayIde.Library.Text (isSpace)

/-! ## Operations -/

def ENV_BLOCK_START : List Char := "# --- relay-ide managed ports (do not edit) ---".toList

def ENV_BLOCK_END : List Char := "# --- end relay-ide managed ports ---".toList

def trimStart (t : List Char) : List Char :=
  t.dropWhile isSpace

def trimEnd (t : List Char) : List Char :=
  t.rdropWhile isSpace

structure EnvExtract where
  block : Option (List Char)
  before : List Char
  after : List Char

def extractEnvBlock (content : List Char) : EnvExtract :=
  match indexOf ENV_BLOCK_START content, indexOf ENV_BLOCK_END content with
  | some startIdx, some endIdx =>
    if endIdx ≤ startIdx then ⟨none, content, []⟩
    else
      let blockEnd := endIdx + ENV_BLOCK_END.length
      ⟨some ((content.take blockEnd).drop startIdx), content.take startIdx, content.drop blockEnd⟩
  | _, _ => ⟨none, content, []⟩

/-- `${varName}=${port}`. -/
def envLine (entry : String × ℕ) : List Char :=
  entry.1.toList ++ '=' :: Nat.toDigits 10 entry.2

/-- What `sort()` compares an entry by: its elements joined with a comma. -/
def entrySortKey (entry : String × ℕ) : String :=
  String.ofList (entry.1.toList ++ ',' :: Nat.toDigits 10 entry.2)

/-- `Object.entries(portMapping).sort()`. -/
def sortEntries (portMapping : List (String × ℕ)) : List (String × ℕ) :=
  portMapping.mergeSort fun a b => decide (entrySortKey a ≤ entrySortKey b)

/-- `parts.join('\n')`. -/
def joinLines (parts : List (List Char)) : List Char :=
  ['\n'].intercalate parts

def upsertEnvBlock (content : List Char) (portMapping : List (String × ℕ)) : List Char :=
  let extracted := extractEnvBlock content
  let lines :=
    ENV_BLOCK_START :: (sortEntries portMapping).map envLine ++ [ENV_BLOCK_END]
  let newBlock := joinLines lines
  let normalizedBefore := trimEnd extracted.before
  let normalizedAfter := trimStart extracted.after
  let parts :=
    (if normalizedBefore = [] then [] else [normalizedBefore, []]) ++ [newBlock] ++
      (if normalizedAfter = [] then [] else [[], normalizedAfter])
  joinLines parts ++ ['\n']

/-- `parseInt(value, 10)`, `none` for `NaN`. -/
def parseInt10 (value : List Char) : Option ℤ :=
  let digits (sign : ℤ) (t : List Char) : Option ℤ :=
    if t.takeWhile Char.isDigit = [] then none
    else some (sign * (Nat.ofDigitChars 10 (t.takeWhile Char.isDigit) 0 : ℕ))
  match trimStart value with
  | '-' :: t => digits (-1) t
  | '+' :: t => digits 1 t
  | t => digits 1 t

/-- One line of the block: a key and a port, or nothing that counts. -/
def parseEnvLine (line : List Char) : Option (String × ℕ) :=
  let trimmed := trimEnd (trimStart line)
  if trimmed = [] ∨ trimmed.head? = some '#' then none
  else
    match indexOf ['='] trimmed with
    | none => none
    | some eqIdx =>
      let key := trimEnd (trimStart (trimmed.take eqIdx))
      let value := trimEnd (trimStart (trimmed.drop (eqIdx + 1)))
      match parseInt10 value with
      | none => none
      | some port =>
        if key ≠ [] ∧ 0 < port then some (String.ofList key, port.toNat) else none

/-- `result[key] = port`. -/
def assignPort (result : List (String × ℕ)) (entry : String × ℕ) : List (String × ℕ) :=
  if entry.1 ∈ result.map Prod.fst then
    result.map fun other => if other.1 = entry.1 then entry else other
  else result ++ [entry]

def parseEnvBlock (content : List Char) : Option (List (String × ℕ)) :=
  match (extractEnvBlock content).block with
  | none => none
  | some block =>
    let lines := (block.splitOn '\n').tail.dropLast
    let result := (lines.filterMap parseEnvLine).foldl assignPort []
    if result = [] then none else some result

structure PortMapping where
  entries : List (String × ℕ)
  nonempty : entries ≠ []
  nodup : (entries.map Prod.fst).Nodup
  names : ∀ entry ∈ entries, isVariableName entry.1 = true
  ports : ∀ entry ∈ entries, 0 < entry.2

/-- The non-blank lines outside the managed block, up to the white space next to it. -/
def outsideLines (content : List Char) : List (List Char) :=
  let extracted := extractEnvBlock content
  ((trimEnd extracted.before).splitOn '\n' ++ (trimStart extracted.after).splitOn '\n').filter
    fun line => !line.all isSpace

/-! ## The layout of the result -/

variable {entry : String × ℕ} {marker before : List Char}

section Layout

theorem marker_facts :
    ENV_BLOCK_START ≠ [] ∧ ENV_BLOCK_END ≠ [] ∧ '\n' ∉ ENV_BLOCK_START ∧ '\n' ∉ ENV_BLOCK_END ∧
      '#' ∈ ENV_BLOCK_START ∧ '#' ∈ ENV_BLOCK_END ∧ ENV_BLOCK_START.getLast? = some '-' ∧
      ENV_BLOCK_END.getLast? = some '-' := by
  decide

theorem indexOf_markers :
    indexOf ENV_BLOCK_START ENV_BLOCK_START = some 0 ∧
      indexOf ENV_BLOCK_END ENV_BLOCK_START = none ∧
      indexOf ENV_BLOCK_START ENV_BLOCK_END = none ∧
      indexOf ENV_BLOCK_END ENV_BLOCK_END = some 0 := by
  decide

theorem occurrences_markers :
    occurrences ENV_BLOCK_START ENV_BLOCK_START = 1 ∧
      occurrences ENV_BLOCK_END ENV_BLOCK_START = 0 ∧
      occurrences ENV_BLOCK_START ENV_BLOCK_END = 0 ∧
      occurrences ENV_BLOCK_END ENV_BLOCK_END = 1 := by
  decide

/-- The lines in front of the block. -/
def headLines (before : List Char) : List (List Char) :=
  if before = [] then [] else [before, []]

/-- The lines of the block in front of its end marker. -/
def blockLines (portMapping : List (String × ℕ)) : List (List Char) :=
  ENV_BLOCK_START :: (sortEntries portMapping).map envLine

/-- What stands behind the block. -/
def tailText (after : List Char) : List Char :=
  if after = [] then ['\n'] else '\n' :: '\n' :: after ++ ['\n']

def newBlock (portMapping : List (String × ℕ)) : List Char :=
  terminated '\n' (blockLines portMapping) ++ ENV_BLOCK_END

theorem upsertEnvBlock_eq (content : List Char) (portMapping : List (String × ℕ)) :
    upsertEnvBlock content portMapping =
      terminated '\n' (headLines (trimEnd (extractEnvBlock content).before)) ++
        newBlock portMapping ++ tailText (trimStart (extractEnvBlock content).after) := by
  have hblock : joinLines (blockLines portMapping ++ [ENV_BLOCK_END]) = newBlock portMapping := by
    rw [joinLines, intercalate_append _ (cons_ne_nil _ _), intercalate_singleton]
    rfl
  set before := trimEnd (extractEnvBlock content).before
  set after := trimStart (extractEnvBlock content).after
  calc upsertEnvBlock content portMapping
      = joinLines (headLines before ++ [joinLines (blockLines portMapping ++ [ENV_BLOCK_END])] ++
          (if after = [] then [] else [[], after])) ++ ['\n'] := rfl
    _ = terminated '\n' (headLines before) ++ joinLines (newBlock portMapping ::
          (if after = [] then [] else [[], after])) ++ ['\n'] := by
        rw [hblock, append_assoc, joinLines, intercalate_append _ (by simp)]
        rfl
    _ = _ := by
        unfold tailText joinLines
        split
        · rw [intercalate_singleton]
        · simp

variable {portMapping : List (String × ℕ)}

theorem not_mem_envLine (h : isVariableName entry.1 = true) : '#' ∉ envLine entry := by
  unfold envLine
  rw [mem_append, mem_cons, not_or, not_or]
  refine ⟨?_, by decide, fun hmem => ?_⟩
  · unfold isVariableName at h
    rcases htext : entry.1.toList with _ | ⟨first, rest⟩
    · exact not_mem_nil
    · rw [htext] at h
      simp only [Bool.and_eq_true, all_eq_true] at h
      rw [mem_cons, not_or]
      constructor
      · rintro rfl
        exact absurd h.1 (by decide)
      · intro hmem
        exact absurd (h.2 _ hmem) (by decide)
  · exact absurd (Nat.isDigit_of_mem_toDigits (by decide) (by decide) hmem) (by decide)

theorem indexOf_headLines (hmarker : marker ≠ []) (h : indexOf marker before = none) :
    ∀ line ∈ headLines before, indexOf marker line = none := by
  unfold headLines
  split
  · exact fun _ hmem => absurd hmem not_mem_nil
  · rintro line hmem
    rcases mem_cons.mp hmem with rfl | hmem
    · exact h
    · rw [mem_singleton.mp hmem]
      exact indexOf_nil hmarker

end Layout

/-! ## Reading the result back -/

namespace PortMapping

variable (m : PortMapping)

theorem perm_sortEntries : (sortEntries m.entries).Perm m.entries :=
  mergeSort_perm m.entries _

theorem valid_of_mem_sortEntries (h : entry ∈ sortEntries m.entries) :
    isVariableName entry.1 = true ∧ 0 < entry.2 :=
  ⟨m.names entry (m.perm_sortEntries.mem_iff.mp h), m.ports entry (m.perm_sortEntries.mem_iff.mp h)⟩

theorem indexOf_blockLines : ∀ line ∈ blockLines m.entries, indexOf ENV_BLOCK_END line = none := by
  intro line hmem
  rcases mem_cons.mp hmem with rfl | hmem
  · exact indexOf_markers.2.1
  · obtain ⟨entry, hentry, rfl⟩ := mem_map.mp hmem
    exact indexOf_of_not_mem marker_facts.2.2.2.2.2.1
      (not_mem_envLine (m.valid_of_mem_sortEntries hentry).1)

theorem length_terminated_blockLines : 0 < (terminated '\n' (blockLines m.entries)).length := by
  have hmarker := length_pos_iff.mpr marker_facts.1
  simp only [blockLines, terminated, flatMap_cons, length_append]
  omega

theorem indexOf_start_upsert (h : indexOf ENV_BLOCK_START before = none) (after : List Char) :
    indexOf ENV_BLOCK_START
        (terminated '\n' (headLines before) ++ newBlock m.entries ++ tailText after) =
      some (terminated '\n' (headLines before)).length := by
  obtain ⟨hne, -, hsep, -⟩ := marker_facts
  have hblock : indexOf ENV_BLOCK_START (newBlock m.entries ++ tailText after) = some 0 := by
    rw [newBlock, show terminated '\n' (blockLines m.entries) ++ ENV_BLOCK_END ++ tailText after =
      ENV_BLOCK_START ++ ('\n' :: terminated '\n' ((sortEntries m.entries).map envLine) ++
        ENV_BLOCK_END ++ tailText after) by simp [terminated, blockLines]]
    exact indexOf_append_of_some indexOf_markers.1 hne _
  rw [append_assoc, indexOf_terminated hsep hne (indexOf_headLines hne h), hblock]
  exact congrArg some (Nat.zero_add _)

theorem indexOf_end_upsert (h : indexOf ENV_BLOCK_END before = none) (after : List Char) :
    indexOf ENV_BLOCK_END
        (terminated '\n' (headLines before) ++ newBlock m.entries ++ tailText after) =
      some ((terminated '\n' (headLines before)).length +
        (terminated '\n' (blockLines m.entries)).length) := by
  obtain ⟨-, hne, -, hsep, -⟩ := marker_facts
  rw [newBlock, append_assoc, append_assoc,
    indexOf_terminated hsep hne (indexOf_headLines hne h),
    indexOf_terminated hsep hne m.indexOf_blockLines,
    indexOf_append_of_some indexOf_markers.2.2.2 hne]
  simp only [Option.map_some]
  congr 1
  omega

/-- **The new block is found again**, when the text in front of it holds no marker. -/
theorem extract_upsert {content : List Char}
    (hstart : indexOf ENV_BLOCK_START (trimEnd (extractEnvBlock content).before) = none)
    (hend : indexOf ENV_BLOCK_END (trimEnd (extractEnvBlock content).before) = none) :
    extractEnvBlock (upsertEnvBlock content m.entries) =
      ⟨some (newBlock m.entries),
        terminated '\n' (headLines (trimEnd (extractEnvBlock content).before)),
        tailText (trimStart (extractEnvBlock content).after)⟩ := by
  rw [upsertEnvBlock_eq, extractEnvBlock, m.indexOf_start_upsert hstart, m.indexOf_end_upsert hend]
  set head := terminated '\n' (headLines (trimEnd (extractEnvBlock content).before))
  set tail := tailText (trimStart (extractEnvBlock content).after)
  have hpos := m.length_terminated_blockLines
  have hlength : head.length + (terminated '\n' (blockLines m.entries)).length +
      ENV_BLOCK_END.length = (head ++ newBlock m.entries).length := by
    rw [newBlock, length_append, length_append]
    omega
  simp only
  rw [if_neg (by omega), hlength]
  simp only [take_left, drop_left]
  rw [append_assoc, take_left]

/-! ### Parsing -/

theorem toNat_of_variable {name : String} (h : isVariableName name = true) :
    name.toList ≠ [] ∧ ∀ c ∈ name.toList, (48 ≤ c.toNat ∧ c.toNat ≤ 57) ∨
      (65 ≤ c.toNat ∧ c.toNat ≤ 90) ∨ c.toNat = 95 := by
  unfold isVariableName at h
  rcases htext : name.toList with _ | ⟨first, rest⟩
  · rw [htext] at h
    cases h
  · rw [htext] at h
    simp only [Bool.and_eq_true, decide_eq_true_eq, all_eq_true, Bool.or_eq_true] at h
    refine ⟨cons_ne_nil _ _, fun c hc => ?_⟩
    rcases mem_cons.mp hc with rfl | hc
    · exact .inr (.inl h.1)
    · rcases h.2 c hc with (hupper | hdigit) | rfl
      · exact .inr (.inl hupper)
      · exact .inl hdigit
      · exact .inr (.inr rfl)

theorem toNat_of_digit {n : ℕ} {c : Char} (h : c ∈ Nat.toDigits 10 n) :
    48 ≤ c.toNat ∧ c.toNat ≤ 57 := by
  have hdigit := Nat.isDigit_of_mem_toDigits (by decide) (by decide) h
  rw [Char.isDigit, Bool.and_eq_true, decide_eq_true_eq, decide_eq_true_eq] at hdigit
  exact hdigit

theorem trim_eq_self {t : List Char} (h : ∀ c ∈ t, isSpace c = false) :
    trimEnd (trimStart t) = t := by
  have hstart : trimStart t = t := by
    cases t with
    | nil => rfl
    | cons c t =>
      rw [trimStart, dropWhile_cons, if_neg]
      rw [h c mem_cons_self]
      exact Bool.false_ne_true
  rw [hstart, trimEnd, rdropWhile_eq_self_iff]
  intro hne
  rw [h _ (getLast_mem hne)]
  exact Bool.false_ne_true

theorem isSpace_eq_false {c : Char} (h : 48 ≤ c.toNat ∧ c.toNat ≤ 95) : isSpace c = false := by
  unfold isSpace
  rw [decide_eq_false_iff_not]
  simp only [mem_cons, not_mem_nil, or_false]
  omega

theorem parseInt10_toDigits (n : ℕ) : parseInt10 (Nat.toDigits 10 n) = some (n : ℤ) := by
  have hall : ∀ c ∈ Nat.toDigits 10 n, c.isDigit = true := fun c hc =>
    Nat.isDigit_of_mem_toDigits (by decide) (by decide) hc
  have hspace : trimStart (Nat.toDigits 10 n) = Nat.toDigits 10 n := by
    rcases hdigits : Nat.toDigits 10 n with _ | ⟨d, rest⟩
    · rfl
    · have hd := toNat_of_digit (n := n) (c := d) (by rw [hdigits]; exact mem_cons_self)
      rw [trimStart, dropWhile_cons, if_neg]
      rw [isSpace_eq_false ⟨hd.1, by omega⟩]
      exact Bool.false_ne_true
  have htake : (Nat.toDigits 10 n).takeWhile Char.isDigit = Nat.toDigits 10 n :=
    takeWhile_eq_self_iff.mpr hall
  unfold parseInt10
  rw [hspace]
  split
  · next t heq => exact absurd (hall '-' (heq ▸ mem_cons_self)) (by decide)
  · next t heq => exact absurd (hall '+' (heq ▸ mem_cons_self)) (by decide)
  · simp only [htake]
    rw [if_neg Nat.toDigits_ne_nil, Nat.ofDigitChars_ten_toDigits, Int.one_mul]

/-- **One line**: a variable and its port are read back. -/
theorem parseEnvLine_envLine (hname : isVariableName entry.1 = true)
    (hport : 0 < entry.2) : parseEnvLine (envLine entry) = some entry := by
  obtain ⟨name, port⟩ := entry
  obtain ⟨hne, hchars⟩ := toNat_of_variable hname
  have hnameSpace : ∀ c ∈ name.toList, isSpace c = false := fun c hc =>
    isSpace_eq_false (by have := hchars c hc; omega)
  have hportSpace : ∀ c ∈ Nat.toDigits 10 port, isSpace c = false := fun c hc =>
    isSpace_eq_false (by have := toNat_of_digit hc; omega)
  have hline : ∀ c ∈ envLine (name, port), isSpace c = false := by
    intro c hc
    rcases mem_append.mp hc with hc | hc
    · exact hnameSpace c hc
    · rcases mem_cons.mp hc with rfl | hc
      · decide
      · exact hportSpace c hc
  have hequals : '=' ∉ name.toList := fun hmem => absurd (hchars _ hmem) (by decide)
  have hhash : (envLine (name, port)).head? ≠ some '#' := by
    rcases htext : name.toList with _ | ⟨first, rest⟩
    · exact absurd htext hne
    · rw [envLine, htext]
      intro heq
      obtain rfl := Option.some.inj heq
      exact absurd (hchars '#' (by rw [htext]; exact mem_cons_self)) (by decide)
  unfold parseEnvLine
  simp only [trim_eq_self hline]
  rw [if_neg (by
    rintro (hnil | hstart)
    · simp [envLine] at hnil
    · exact hhash hstart)]
  have hdrop : (name.toList ++ '=' :: Nat.toDigits 10 port).drop (name.toList.length + 1) =
      Nat.toDigits 10 port := by simp
  simp only [envLine, indexOf_singleton hequals, take_left, trim_eq_self hnameSpace, hdrop,
    trim_eq_self hportSpace, parseInt10_toDigits]
  rw [if_pos ⟨hne, by exact_mod_cast hport⟩, String.ofList_toList, Int.toNat_natCast]

theorem foldl_assignPort {entries result : List (String × ℕ)}
    (h : ((result ++ entries).map Prod.fst).Nodup) :
    entries.foldl assignPort result = result ++ entries := by
  induction entries generalizing result with
  | nil => rw [foldl_nil, append_nil]
  | cons entry entries ih =>
    have hfresh : entry.1 ∉ result.map Prod.fst := by
      rw [map_append, nodup_append'] at h
      exact fun hmem => h.2.2 hmem (by rw [map_cons]; exact mem_cons_self)
    rw [foldl_cons, assignPort, if_neg hfresh, ih]
    · rw [append_assoc, singleton_append]
    · rw [append_assoc]
      exact h

/-- **The block** is read back as the map it was written from. -/
theorem parse_newBlock :
    (((newBlock m.entries).splitOn '\n').tail.dropLast.filterMap parseEnvLine).foldl assignPort [] =
      sortEntries m.entries := by
  have hlines : newBlock m.entries =
      ['\n'].intercalate (blockLines m.entries ++ [ENV_BLOCK_END]) := by
    rw [intercalate_append _ (cons_ne_nil _ _), intercalate_singleton]
    rfl
  have hbreak : ∀ line ∈ blockLines m.entries ++ [ENV_BLOCK_END], '\n' ∉ line := by
    intro line hmem
    rcases mem_append.mp hmem with hmem | hmem
    · rcases mem_cons.mp hmem with rfl | hmem
      · exact marker_facts.2.2.1
      · obtain ⟨entry, hentry, rfl⟩ := mem_map.mp hmem
        have hname := (toNat_of_variable (m.valid_of_mem_sortEntries hentry).1).2
        unfold envLine
        rw [mem_append, mem_cons, not_or, not_or]
        exact ⟨fun h => absurd (hname _ h) (by decide), by decide,
          fun h => absurd (toNat_of_digit h) (by decide)⟩
    · rw [mem_singleton.mp hmem]
      exact marker_facts.2.2.2.1
  have hread : ((sortEntries m.entries).map envLine).filterMap parseEnvLine =
      sortEntries m.entries := by
    rw [filterMap_map, filterMap_eq_map_iff_forall_eq_some.mpr, map_id]
    intro entry hentry
    obtain ⟨hname, hport⟩ := m.valid_of_mem_sortEntries hentry
    exact parseEnvLine_envLine hname hport
  rw [hlines, splitOn_intercalate '\n' hbreak (by simp)]
  rw [show (blockLines m.entries ++ [ENV_BLOCK_END]).tail.dropLast =
    (sortEntries m.entries).map envLine by simp [blockLines], hread, foldl_assignPort]
  · rfl
  · exact (m.perm_sortEntries.map Prod.fst).nodup_iff.mpr m.nodup

end PortMapping

/-! ## The laws -/

structure EnvBlockLaws (content : List Char) (m : PortMapping) : Prop where
  /-- The map is read back. -/
  parse : ∃ result, parseEnvBlock (upsertEnvBlock content m.entries) = some result ∧
    result.Perm m.entries
  idempotent : upsertEnvBlock (upsertEnvBlock content m.entries) m.entries =
    upsertEnvBlock content m.entries
  /-- Each marker stands in the result once. -/
  single : occurrences ENV_BLOCK_START (upsertEnvBlock content m.entries) = 1 ∧
    occurrences ENV_BLOCK_END (upsertEnvBlock content m.entries) = 1
  /-- The other lines are kept, in order. -/
  kept : (outsideLines content).Sublist ((upsertEnvBlock content m.entries).splitOn '\n')

/-- Text without markers, or with a block that only white space follows. -/
def WellPlaced (content : List Char) : Prop :=
  (indexOf ENV_BLOCK_START content = none ∧ indexOf ENV_BLOCK_END content = none) ∨
    ((extractEnvBlock content).block.isSome ∧
      ∀ c ∈ (extractEnvBlock content).after, isSpace c = true)

/-! ### Trimming around the block -/

section Trimming

theorem trimEnd_append_space {t space : List Char} (h : ∀ c ∈ space, isSpace c = true) :
    trimEnd (t ++ space) = trimEnd t := by
  unfold trimEnd List.rdropWhile
  rw [reverse_append, dropWhile_append_of_pos]
  exact fun c hc => h c (mem_reverse.mp hc)

theorem exists_trimEnd_append (t : List Char) :
    ∃ space, t = trimEnd t ++ space ∧ ∀ c ∈ space, isSpace c = true :=
  ⟨t.rtakeWhile isSpace, rdropWhile_append_rtakeWhile.symm, fun _ hc => mem_rtakeWhile_imp hc⟩

theorem indexOf_trimEnd (h : marker.getLast? = some '-') (t : List Char) :
    indexOf marker (trimEnd t) = indexOf marker t := by
  obtain ⟨space, ht, hspace⟩ := exists_trimEnd_append t
  conv_rhs => rw [ht]
  exact (indexOf_trail h (fun hmem => absurd (hspace _ hmem) (by decide)) _).symm

theorem trimEnd_head : trimEnd (terminated '\n' (headLines (trimEnd before))) = trimEnd before := by
  unfold headLines
  split
  · next hnil =>
    rw [hnil]
    rfl
  · have hshape : terminated '\n' [trimEnd before, []] = trimEnd before ++ ['\n', '\n'] := by
      simp [terminated]
    have hspace : ∀ c ∈ ['\n', '\n'], isSpace c = true := by
      rintro c hc
      rw [mem_cons, mem_singleton, or_self_iff] at hc
      rw [hc]
      rfl
    rw [hshape, trimEnd_append_space hspace]
    exact rdropWhile_idempotent isSpace before

theorem trimStart_tailText {after : List Char} :
    trimStart (tailText (trimStart after)) =
      if trimStart after = [] then [] else trimStart after ++ ['\n'] := by
  unfold tailText
  split
  · rfl
  · next hne =>
    rcases htext : trimStart after with _ | ⟨c, rest⟩
    · exact absurd htext hne
    · have hc : isSpace c = false := by
        have hidem : trimStart (c :: rest) = c :: rest := by
          rw [← htext]
          exact dropWhile_idempotent isSpace after
        rw [trimStart, dropWhile_cons] at hidem
        by_contra hspace
        rw [Bool.not_eq_false] at hspace
        rw [if_pos hspace] at hidem
        have hlength := congrArg List.length hidem
        have hle := (dropWhile_suffix isSpace (l := rest)).length_le
        rw [length_cons] at hlength
        omega
      simp [trimStart, hc, show isSpace '\n' = true by decide]

end Trimming

theorem extract_cases (content : List Char) :
    (∃ startIdx endIdx, indexOf ENV_BLOCK_START content = some startIdx ∧
      indexOf ENV_BLOCK_END content = some endIdx ∧ startIdx < endIdx ∧
      (extractEnvBlock content).block.isSome ∧
      (extractEnvBlock content).before = content.take startIdx ∧
      (extractEnvBlock content).after = content.drop (endIdx + ENV_BLOCK_END.length)) ∨
    ((∀ startIdx endIdx, indexOf ENV_BLOCK_START content = some startIdx →
        indexOf ENV_BLOCK_END content = some endIdx → endIdx ≤ startIdx) ∧
      extractEnvBlock content = ⟨none, content, []⟩) := by
  cases hstart : indexOf ENV_BLOCK_START content with
  | none => exact .inr ⟨by simp, by simp [extractEnvBlock, hstart]⟩
  | some startIdx =>
    cases hend : indexOf ENV_BLOCK_END content with
    | none => exact .inr ⟨by simp, by simp [extractEnvBlock, hend]⟩
    | some endIdx =>
      by_cases hle : endIdx ≤ startIdx
      · refine .inr ⟨?_, by simp [extractEnvBlock, hstart, hend, hle]⟩
        rintro _ _ h h'
        obtain rfl := Option.some.inj h
        obtain rfl := Option.some.inj h'
        exact hle
      · refine .inl ⟨startIdx, endIdx, rfl, rfl, by omega, ?_⟩
        simp [extractEnvBlock, hstart, hend, hle]

variable {content : List Char}

theorem before_clean {startIdx endIdx : ℕ}
    (hstart : indexOf ENV_BLOCK_START content = some startIdx)
    (hend : indexOf ENV_BLOCK_END content = some endIdx) (hlt : startIdx < endIdx) :
    indexOf ENV_BLOCK_START (trimEnd (content.take startIdx)) = none ∧
      indexOf ENV_BLOCK_END (trimEnd (content.take startIdx)) = none := by
  obtain ⟨hne, hne', -, -, -, -, hlast, hlast'⟩ := marker_facts
  rw [indexOf_trimEnd hlast, indexOf_trimEnd hlast']
  exact ⟨indexOf_take hstart hne (le_refl _), indexOf_take hend hne' hlt.le⟩

theorem WellPlaced.clean (h : WellPlaced content) :
    indexOf ENV_BLOCK_START (trimEnd (extractEnvBlock content).before) = none ∧
      indexOf ENV_BLOCK_END (trimEnd (extractEnvBlock content).before) = none ∧
      trimStart (extractEnvBlock content).after = [] := by
  obtain ⟨-, -, -, -, -, -, hlast, hlast'⟩ := marker_facts
  rcases h with ⟨hstart, hend⟩ | ⟨hblock, hafter⟩
  · have hextract : extractEnvBlock content = ⟨none, content, []⟩ := by
      simp [extractEnvBlock, hstart]
    rw [hextract, indexOf_trimEnd hlast, indexOf_trimEnd hlast']
    exact ⟨hstart, hend, rfl⟩
  · rcases extract_cases content with ⟨startIdx, endIdx, hstart, hend, hlt, -, hbefore, -⟩ |
      ⟨-, hextract⟩
    · rw [hbefore]
      obtain ⟨hcleanStart, hcleanEnd⟩ := before_clean hstart hend hlt
      exact ⟨hcleanStart, hcleanEnd, dropWhile_eq_nil_iff.mpr hafter⟩
    · rw [hextract] at hblock
      cases hblock

section Holds

variable {content : List Char} {m : PortMapping}

section
variable (hstart : indexOf ENV_BLOCK_START (trimEnd (extractEnvBlock content).before) = none)
include hstart

theorem parse_upsert
    (hend : indexOf ENV_BLOCK_END (trimEnd (extractEnvBlock content).before) = none) :
    parseEnvBlock (upsertEnvBlock content m.entries) = some (sortEntries m.entries) := by
  unfold parseEnvBlock
  rw [m.extract_upsert hstart hend]
  simp only
  rw [m.parse_newBlock, if_neg]
  intro hnil
  have hperm := m.perm_sortEntries
  rw [hnil] at hperm
  exact m.nonempty hperm.symm.eq_nil

theorem upsert_upsert
    (hend : indexOf ENV_BLOCK_END (trimEnd (extractEnvBlock content).before) = none) :
    upsertEnvBlock (upsertEnvBlock content m.entries) m.entries = upsertEnvBlock content m.entries ↔
      trimStart (extractEnvBlock content).after = [] := by
  rw [upsertEnvBlock_eq (upsertEnvBlock content m.entries), m.extract_upsert hstart hend,
    upsertEnvBlock_eq content, trimEnd_head, trimStart_tailText]
  constructor
  · intro h
    by_contra hne
    have hlength := congrArg List.length h
    simp [tailText, hne] at hlength
  · intro h
    rw [if_pos h, h]

end

theorem occurrences_upsert (hne : marker ≠ []) (hbreak : '\n' ∉ marker) (hhash : '#' ∈ marker)
    (hbefore : indexOf marker (trimEnd (extractEnvBlock content).before) = none)
    (hafter : trimStart (extractEnvBlock content).after = []) :
    occurrences marker (upsertEnvBlock content m.entries) =
      occurrences marker ENV_BLOCK_START + occurrences marker ENV_BLOCK_END := by
  have hend : occurrences marker (ENV_BLOCK_END ++ ['\n']) = occurrences marker ENV_BLOCK_END := by
    rw [occurrences_sep hbreak hne, occurrences_nil, Nat.add_zero]
  have hlines : ∀ line ∈ (sortEntries m.entries).map envLine, indexOf marker line = none := by
    intro line hline
    obtain ⟨entry, hentry, rfl⟩ := mem_map.mp hline
    exact indexOf_of_not_mem hhash (not_mem_envLine (m.valid_of_mem_sortEntries hentry).1)
  rw [upsertEnvBlock_eq, hafter, append_assoc, occurrences_terminated hbreak hne,
    sum_occurrences_eq_zero hne (indexOf_headLines hne hbefore), Nat.zero_add, newBlock,
    append_assoc, occurrences_terminated hbreak hne, tailText, if_pos rfl, hend, blockLines,
    map_cons, sum_cons, sum_occurrences_eq_zero hne hlines, Nat.add_zero]

theorem kept_upsert (hafter : trimStart (extractEnvBlock content).after = []) :
    (outsideLines content).Sublist ((upsertEnvBlock content m.entries).splitOn '\n') := by
  have hblank : (([] : List Char).splitOn '\n').filter (fun line => !line.all isSpace) = [] := by
    decide
  unfold outsideLines
  simp only
  rw [hafter, filter_append, hblank, append_nil, upsertEnvBlock_eq]
  by_cases hbefore : trimEnd (extractEnvBlock content).before = []
  · rw [hbefore]
    exact nil_sublist _
  · rw [headLines, if_neg hbefore,
      show terminated '\n' [trimEnd (extractEnvBlock content).before, []] =
        trimEnd (extractEnvBlock content).before ++ '\n' :: ['\n'] by simp [terminated],
      append_assoc, append_assoc, cons_append, splitOn_append_cons_self]
    exact filter_sublist.trans (sublist_append_left _ _)

theorem envBlockLaws_of_clean
    (hstart : indexOf ENV_BLOCK_START (trimEnd (extractEnvBlock content).before) = none)
    (hend : indexOf ENV_BLOCK_END (trimEnd (extractEnvBlock content).before) = none)
    (hafter : trimStart (extractEnvBlock content).after = []) : EnvBlockLaws content m := by
  obtain ⟨hne, hne', hbreak, hbreak', hhash, hhash', -, -⟩ := marker_facts
  obtain ⟨hss, hes, hse, hee⟩ := occurrences_markers
  exact {
    parse := ⟨_, parse_upsert hstart hend, m.perm_sortEntries⟩
    idempotent := (upsert_upsert hstart hend).mpr hafter
    single := by
      rw [occurrences_upsert hne hbreak hhash hstart hafter,
        occurrences_upsert hne' hbreak' hhash' hend hafter, hss, hse, hes, hee]
      exact ⟨rfl, rfl⟩
    kept := kept_upsert hafter }

end Holds

/-! ### Stray markers -/

/-- What stands in front of the block is two characters longer than the text it keeps. -/
theorem length_head (before : List Char) :
    (terminated '\n' (headLines before)).length =
      if before = [] then 0 else before.length + 2 := by
  unfold headLines
  split <;> simp [terminated]

section Stray

variable {content : List Char} (m : PortMapping)
  (hextract : extractEnvBlock content = ⟨none, content, []⟩)

include hextract

theorem upsert_stray :
    upsertEnvBlock content m.entries =
      terminated '\n' (headLines (trimEnd content)) ++ newBlock m.entries ++ ['\n'] := by
  rw [upsertEnvBlock_eq, hextract]
  rfl

theorem indexOf_stray {i : ℕ} (hne : marker ≠ [])
    (hlast : marker.getLast? = some '-') (h : indexOf marker content = some i) :
    indexOf marker (upsertEnvBlock content m.entries) = some i ∧ i < (trimEnd content).length := by
  rw [← indexOf_trimEnd hlast] at h
  have hbound := indexOf_bound h
  have hpos := length_pos_iff.mpr hne
  refine ⟨?_, by omega⟩
  rw [upsert_stray m hextract, headLines, if_neg (fun hnil => by
    rw [hnil, length_nil] at hbound
    omega)]
  rw [show terminated '\n' [trimEnd content, []] = trimEnd content ++ ['\n', '\n'] by
    simp [terminated], append_assoc, append_assoc]
  exact indexOf_append_of_some h hne _

/-- A stray start marker: the second run takes everything behind it for the block. -/
theorem not_idempotent_of_start {startIdx : ℕ}
    (hstart : indexOf ENV_BLOCK_START content = some startIdx)
    (hend : indexOf ENV_BLOCK_END content = none) :
    upsertEnvBlock (upsertEnvBlock content m.entries) m.entries ≠
      upsertEnvBlock content m.entries := by
  obtain ⟨hne, -, -, -, -, -, hlast, hlast'⟩ := marker_facts
  obtain ⟨hstartResult, hlt⟩ := indexOf_stray m hextract hne hlast hstart
  rw [← indexOf_trimEnd hlast'] at hend
  have hendResult := m.indexOf_end_upsert hend []
  rw [show tailText [] = ['\n'] from rfl, ← upsert_stray m hextract] at hendResult
  have hhead : (terminated '\n' (headLines (trimEnd content))).length =
      (trimEnd content).length + 2 := by
    rw [length_head, if_neg fun hnil => by rw [hnil] at hlt; exact Nat.not_lt_zero _ hlt]
  intro hsame
  rcases extract_cases (upsertEnvBlock content m.entries) with
    ⟨startIdx', endIdx, hs, he, -, -, hbefore, hafter⟩ | ⟨hunclosed, -⟩
  · obtain rfl := Option.some.inj (hstartResult.symm.trans hs)
    obtain rfl := Option.some.inj (hendResult.symm.trans he)
    -- nothing but a line break follows the block, and less stands in front of it
    have htail : trimStart (extractEnvBlock (upsertEnvBlock content m.entries)).after = [] := by
      rw [hafter, upsert_stray m hextract, drop_left' (by
        rw [newBlock, length_append, length_append]
        omega)]
      rfl
    have hfront : (trimEnd (extractEnvBlock (upsertEnvBlock content m.entries)).before).length ≤
        startIdx := by
      rw [hbefore]
      exact ( rdropWhile_prefix isSpace _).length_le.trans (length_take_le _ _)
    rw [upsertEnvBlock_eq (upsertEnvBlock content m.entries), htail] at hsame
    conv_rhs at hsame => rw [upsert_stray m hextract]
    have hlength := congrArg List.length hsame
    simp only [length_append, length_head, hhead, tailText, if_pos] at hlength
    split at hlength <;> omega
  · have hle := hunclosed _ _ hstartResult hendResult
    omega

theorem parse_none_of_end {endIdx : ℕ} (hend : indexOf ENV_BLOCK_END content = some endIdx)
    (hunclosed : ∀ startIdx endIdx, indexOf ENV_BLOCK_START content = some startIdx →
      indexOf ENV_BLOCK_END content = some endIdx → endIdx ≤ startIdx) :
    parseEnvBlock (upsertEnvBlock content m.entries) = none := by
  obtain ⟨hne, hne', -, -, -, -, hlast, hlast'⟩ := marker_facts
  obtain ⟨hendResult, hlt⟩ := indexOf_stray m hextract hne' hlast' hend
  have hlate : ∀ startIdx, indexOf ENV_BLOCK_START (upsertEnvBlock content m.entries) =
      some startIdx → endIdx ≤ startIdx := by
    intro startIdx hs
    cases hstart : indexOf ENV_BLOCK_START content with
    | some i =>
      obtain ⟨hsame, -⟩ := indexOf_stray m hextract hne hlast hstart
      obtain rfl := Option.some.inj (hsame.symm.trans hs)
      exact hunclosed i endIdx hstart hend
    | none =>
      rw [← indexOf_trimEnd hlast] at hstart
      have hnew := m.indexOf_start_upsert hstart []
      rw [show tailText [] = ['\n'] from rfl, ← upsert_stray m hextract, hs, length_head] at hnew
      rw [Option.some.inj hnew]
      split
      · next hnil => rw [hnil] at hlt; exact absurd hlt (Nat.not_lt_zero _)
      · omega
  unfold parseEnvBlock
  rcases extract_cases (upsertEnvBlock content m.entries) with
    ⟨startIdx, endIdx', hs, he, hlt', -⟩ | ⟨-, hnone⟩
  · obtain rfl := Option.some.inj (hendResult.symm.trans he)
    exact absurd (hlate startIdx hs) (by omega)
  · rw [hnone]

end Stray

/-- **The managed block**: for every text and map, the map is read back, a second run changes
    nothing, each marker stands in the result once and the other lines are kept, exactly when the
    text has no marker, or a block that nothing but white space follows. -/
theorem envBlockLaws_iff (content : List Char) (m : PortMapping) :
    EnvBlockLaws content m ↔ WellPlaced content := by
  constructor
  · intro h
    rcases extract_cases content with ⟨startIdx, endIdx, hstart, hend, hlt, hblock, hbefore, -⟩ |
      ⟨hunclosed, hextract⟩
    · -- a block was found: what follows it grows with each run
      obtain ⟨hcleanStart, hcleanEnd⟩ := before_clean hstart hend hlt
      rw [← hbefore] at hcleanStart hcleanEnd
      have hafter := (upsert_upsert hcleanStart hcleanEnd).mp h.idempotent
      exact .inr ⟨hblock, dropWhile_eq_nil_iff.mp hafter⟩
    · cases hend : indexOf ENV_BLOCK_END content with
      | some endIdx =>
        obtain ⟨result, hresult, -⟩ := h.parse
        rw [parse_none_of_end m hextract hend hunclosed] at hresult
        cases hresult
      | none =>
        cases hstart : indexOf ENV_BLOCK_START content with
        | some startIdx =>
          exact absurd h.idempotent (not_idempotent_of_start m hextract hstart hend)
        | none => exact .inl ⟨hstart, hend⟩
  · intro h
    obtain ⟨hstart, hend, hafter⟩ := h.clean
    exact envBlockLaws_of_clean hstart hend hafter

def onePort : PortMapping where
  entries := [("PORT", 10000)]
  nonempty := cons_ne_nil _ _
  nodup := nodup_singleton _
  names := by decide
  ports := by decide

/-- A line behind the block: each run puts one more line break at the end of the file. -/
theorem envBlock_grows : ¬ ∀ (content : List Char) (m : PortMapping), EnvBlockLaws content m := by
  intro h
  have hidem := (h (newBlock onePort.entries ++ "\nDEBUG=true\n".toList) onePort).idempotent
  revert hidem
  decide +kernel

end RelayIde.Ports
