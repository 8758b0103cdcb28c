import RelayIde.Library.Json
import RelayIde.Library.Lines
import RelayIde.Library.Machine
import RelayIde.Library.Utf8

/-!
# The JSONL File Tailer

`JsonlFileTailer` polls a growing file and hands out its complete lines.  The line being written
is held back in memory; the durable cursor already stands behind it.

- `events_of_run` — runs that cut no character and restart on a finished line
-/

namespace RelayIde.Tail

open Library List
open Library.Lines (splitLines trim prepend)
open Library.Utf8 (Bytes encode decode)

variable {T : Type}

/-! ## The tailer -/

/-- What the consumer persisted: a finite number or not. -/
inductive SavedCursor where
  | finite (n : ℤ)
  | notFinite

structure FileStat where
  size : ℕ
  dev : ℕ
  ino : ℕ

structure TailState where
  offset : ℕ := 0
  trailingFragment : List Char := []
  fileId : Option (ℕ × ℕ) := none

structure JsonlFileTailer where
  state : TailState := {}
  initialized : Bool := false

structure JsonlTailPoll (T : Type) where
  events : List T
  gaps : ℕ
  offset : ℕ

structure PollResult (T : Type) where
  tailer : JsonlFileTailer
  poll : JsonlTailPoll T
  saveCursor : Option ℕ := none

/-- `initialize()`. -/
def initializeState (saved : Option SavedCursor) : TailState :=
  match saved with
  | some (.finite n) => if n < 0 then {} else { offset := n.toNat }
  | _ => {}

/-- The loop over the complete lines: blank lines are skipped, unparseable ones are gaps. -/
def consumeLines (parseLine : List Char → Option T) : List (List Char) → List T × ℕ
  | [] => ([], 0)
  | rawLine :: lines =>
    let rest := consumeLines parseLine lines
    if trim rawLine = [] then rest
    else
      match parseLine (trim rawLine) with
      | none => (rest.1, rest.2 + 1)
      | some event => (event :: rest.1, rest.2)

/-- Rotation and truncation start over on the new file. -/
def track (state : TailState) (stats : FileStat) : TailState :=
  let currentId := (stats.dev, stats.ino)
  if stats.size < state.offset ∨ (state.fileId ≠ none ∧ state.fileId ≠ some currentId) then
    { fileId := some currentId }
  else { state with fileId := some currentId }

/-- `poll()`.  `stat` is the outcome of `statSync`, `readSync offset length` what is read from
    there; `none` when the call fails. -/
def poll (parseLine : List Char → Option T) (loadCursor : Option SavedCursor)
    (stat : Option FileStat) (readSync : ℕ → ℕ → Option Bytes) (tailer : JsonlFileTailer) :
    PollResult T :=
  let state := if tailer.initialized then tailer.state else initializeState loadCursor
  match stat with
  | none =>
    { tailer := { state := state, initialized := true }
      poll := { events := [], gaps := 0, offset := state.offset } }
  | some stats =>
    let state := track state stats
    if state.offset = stats.size then
      { tailer := { state := state, initialized := true }
        poll := { events := [], gaps := 0, offset := state.offset } }
    else
      match readSync state.offset (stats.size - state.offset) with
      | none =>
        { tailer := { state := state, initialized := true }
          poll := { events := [], gaps := 0, offset := state.offset } }
      | some bytes =>
        let content := splitLines (state.trailingFragment ++ decode bytes)
        let consumed := consumeLines parseLine content.1
        let newOffset := state.offset + bytes.length
        { tailer :=
            { state := { state with offset := newOffset, trailingFragment := content.2 }
              initialized := true }
          poll := { events := consumed.1, gaps := consumed.2, offset := newOffset }
          saveCursor := some newOffset }

/-- `defaultParseLine`: a line is an event when it is a JSON object. -/
def defaultParseLine {Num : Type} (F : Json.NumberFormat Num) (line : List Char) :
    Option (List (JsText × Json Num)) :=
  match Json.parse F (line.flatMap JsText.ofChar) with
  | some (.obj properties) => some properties
  | _ => none

/-! ## Runs -/

/-- A file that is being written, its reader, and what the reader has handed out. -/
structure JsonlRun (T : Type) where
  /-- Bytes written so far. -/
  size : ℕ := 0
  /-- The last cursor passed to `saveCursor`. -/
  saved : Option ℕ := none
  tailer : JsonlFileTailer := {}
  events : List T := []
  gaps : ℕ := 0

inductive TailOp where
  /-- The writer appends bytes. -/
  | grow (bytes : ℕ)
  /-- A poll; the read returns at most `limit` bytes. -/
  | poll (limit : ℕ)
  /-- A poll that cannot stat the file, or cannot read it. -/
  | missing
  | readError
  /-- A new process resumes from the saved cursor. -/
  | restart

/-- The file a writer of `text` has written so far. -/
def fileBytes (text : List Char) (s : JsonlRun T) : Bytes :=
  (encode text).take s.size

def runPoll (parseLine : List Char → Option T) (stat : Option FileStat)
    (readSync : ℕ → ℕ → Option Bytes) (s : JsonlRun T) : JsonlRun T :=
  let result := poll parseLine (s.saved.map fun n => .finite n) stat readSync s.tailer
  { s with
    saved := result.saveCursor.or s.saved
    tailer := result.tailer
    events := s.events ++ result.poll.events
    gaps := s.gaps + result.poll.gaps }

def tailStep (parseLine : List Char → Option T) (text : List Char) (s : JsonlRun T) :
    TailOp → JsonlRun T
  | .grow bytes => { s with size := min (s.size + bytes) (encode text).length }
  | .poll limit =>
    runPoll parseLine (some { size := s.size, dev := 0, ino := 0 })
      (fun offset length => some ((((fileBytes text s).drop offset).take length).take limit)) s
  | .missing => runPoll parseLine none (fun _ _ => none) s
  | .readError =>
    runPoll parseLine (some { size := s.size, dev := 0, ino := 0 }) (fun _ _ => none) s
  | .restart => { s with tailer := {} }

/-- How far the polls have read. -/
def JsonlRun.consumed (s : JsonlRun T) : ℕ :=
  s.saved.getD 0

/-- A byte position between two characters of the text. -/
def Boundary (text : List Char) (position : ℕ) : Prop :=
  ∃ n, (encode (text.take n)).length = position

/-- No poll ends inside a character, and a process ends when all it holds back is white space. -/
def CleanCut (text : List Char) (s : JsonlRun T) : TailOp → Prop
  | .poll limit => Boundary text (s.consumed + min (s.size - s.consumed) limit)
  | .restart => s.tailer.state.trailingFragment.all Text.isSpace = true
  | _ => True

/-! ## The invariant -/

variable (parseLine : List Char → Option T)

theorem consumeLines_append (lines lines' : List (List Char)) :
    consumeLines parseLine (lines ++ lines') =
      ((consumeLines parseLine lines).1 ++ (consumeLines parseLine lines').1,
        (consumeLines parseLine lines).2 + (consumeLines parseLine lines').2) := by
  induction lines with
  | nil => simp [consumeLines]
  | cons line lines ih =>
    rw [cons_append, consumeLines, consumeLines, ih]
    split
    · rfl
    · cases parseLine (trim line) with
      | none => simp [Nat.add_right_comm]
      | some event => rfl

theorem consumeLines_prepend {space : List Char}
    (h : space.all Text.isSpace = true) (s : List (List Char) × List Char) :
    consumeLines parseLine (prepend space s).1 = consumeLines parseLine s.1 := by
  rcases s with ⟨lines, rest⟩
  cases lines with
  | nil => rfl
  | cons line lines => simp only [prepend, consumeLines, Lines.trim_space_append h]

/-- What has been handed out is what the complete lines read so far yield.  The line being
    written is held back, up to white space lost in restarts. -/
structure Consistent (parseLine : List Char → Option T) (text : List Char) (s : JsonlRun T) :
    Prop where
  size : s.size ≤ (encode text).length
  consumed : s.consumed ≤ s.size
  offset : s.tailer.initialized = true → s.tailer.state.offset = s.consumed
  fileId : s.tailer.state.fileId = none ∨ s.tailer.state.fileId = some (0, 0)
  fresh : s.tailer.initialized = false → s.tailer.state.trailingFragment = []
  read : ∃ seen rest lost, text = seen ++ rest ∧ (encode seen).length = s.consumed ∧
    lost.all Text.isSpace = true ∧ (splitLines seen).2 = lost ++ s.tailer.state.trailingFragment ∧
    consumeLines parseLine (splitLines seen).1 = (s.events, s.gaps)

theorem consistent_initial (text : List Char) : Consistent parseLine text {} where
  size := Nat.zero_le _
  consumed := le_refl 0
  offset h := by cases h
  fileId := .inl rfl
  fresh _ := rfl
  read := ⟨[], text, [], rfl, rfl, rfl, rfl, rfl⟩

theorem initializeState_saved (s : JsonlRun T) :
    initializeState (s.saved.map fun n => .finite n) = { offset := s.consumed } := by
  unfold JsonlRun.consumed
  cases s.saved with
  | none => rfl
  | some n => simp [initializeState]

variable {parseLine : List Char → Option T} {text : List Char} {s : JsonlRun T}

section
variable (h : Consistent parseLine text s)
include h

theorem Consistent.start :
    ∃ id, (if s.tailer.initialized then s.tailer.state
        else initializeState (s.saved.map fun n => .finite n)) =
      { offset := s.consumed, trailingFragment := s.tailer.state.trailingFragment
        fileId := id } ∧ (id = none ∨ id = some (0, 0)) := by
  cases hinit : s.tailer.initialized with
  | true =>
    refine ⟨s.tailer.state.fileId, ?_, h.fileId⟩
    rw [if_pos rfl, ← h.offset hinit]
  | false =>
    refine ⟨none, ?_, .inl rfl⟩
    rw [if_neg Bool.false_ne_true, initializeState_saved, h.fresh hinit]

/-- The file is the one the tailer knows, and no shorter than its cursor. -/
theorem Consistent.track_start :
    track (if s.tailer.initialized then s.tailer.state
        else initializeState (s.saved.map fun n => .finite n))
      { size := s.size, dev := 0, ino := 0 } =
      { offset := s.consumed, trailingFragment := s.tailer.state.trailingFragment
        fileId := some (0, 0) } := by
  obtain ⟨id, hstart, hid⟩ := h.start
  have hconsumed := h.consumed
  rw [hstart, track, if_neg]
  rw [not_or]
  refine ⟨by dsimp only; omega, ?_⟩
  rcases hid with rfl | rfl <;> simp

theorem Consistent.idle {t : TailState} (hoffset : t.offset = s.consumed)
    (hfragment : t.trailingFragment = s.tailer.state.trailingFragment)
    (hid : t.fileId = none ∨ t.fileId = some (0, 0)) :
    Consistent parseLine text { s with tailer := { state := t, initialized := true } } where
  size := h.size
  consumed := h.consumed
  offset _ := hoffset
  fileId := hid
  fresh hinit := by cases hinit
  read := by
    obtain ⟨seen, rest, lost, htext, hlen, hlost, hrest, hconsume⟩ := h.read
    exact ⟨seen, rest, lost, htext, hlen, hlost, by rw [hrest, ← hfragment], hconsume⟩

end

theorem exists_mid {seen rest : List Char} (htext : text = seen ++ rest) {n : ℕ}
    (hn : (encode seen).length ≤ n) (hboundary : Boundary text n) :
    ∃ mid rest', rest = mid ++ rest' ∧ (encode (seen ++ mid)).length = n := by
  obtain ⟨k, hk⟩ := hboundary
  rw [htext, take_append] at hk
  rcases Nat.le_total seen.length k with hle | hle
  · refine ⟨rest.take (k - seen.length), rest.drop (k - seen.length), ?_, ?_⟩
    · exact (take_append_drop _ _).symm
    · rwa [take_of_length_le hle] at hk
  · -- the position is no later than what was seen, and no earlier
    rw [Nat.sub_eq_zero_of_le hle, take_zero, append_nil] at hk
    have hsplit : (encode seen).length =
        (encode (seen.take k)).length + (encode (seen.drop k)).length := by
      rw [← length_append, ← Utf8.encode_append, take_append_drop]
    refine ⟨[], rest, rfl, ?_⟩
    rw [append_nil]
    omega

theorem bytes_between {seen mid rest : List Char} (htext : text = seen ++ (mid ++ rest))
    {n l : ℕ} (hlen : (encode (seen ++ mid)).length =
      (encode seen).length + min (n - (encode seen).length) l) :
    ((((encode text).take n).drop (encode seen).length).take (n - (encode seen).length)).take
      l = encode mid := by
  rw [htext, Utf8.encode_append, Utf8.encode_append, drop_take, take_take, take_take, drop_left]
  rw [Utf8.encode_append, length_append] at hlen
  have hmid : (encode mid).length = min (min l (n - (encode seen).length))
      (n - (encode seen).length) := by omega
  rw [← hmid, take_left]

/-- **One poll** on a clean cut hands out the lines it completes. -/
theorem Consistent.poll
    (h : Consistent parseLine text s) {limit : ℕ} (hcut : CleanCut text s (.poll limit)) :
    Consistent parseLine text (tailStep parseLine text s (.poll limit)) := by
  obtain ⟨seen, rest, lost, htext, hlen, hlost, hrest, hconsume⟩ := h.read
  have hconsumed := h.consumed
  rw [tailStep, runPoll, Tail.poll]
  rw [h.track_start]
  split
  · -- nothing new
    rename_i hsize
    have hidle := h.idle (t :=
      { offset := s.consumed, trailingFragment := s.tailer.state.trailingFragment
        fileId := some (0, 0) }) rfl rfl (.inr rfl)
    simpa using hidle
  · rename_i hsize
    dsimp only at hsize ⊢
    obtain ⟨mid, rest', rfl, hmid⟩ := exists_mid htext (by omega) hcut
    have hbytes := bytes_between htext (n := s.size) (l := limit) (by rw [hmid, hlen])
    have hlength : s.consumed + (encode mid).length = (encode (seen ++ mid)).length := by
      rw [Utf8.encode_append, length_append, hlen]
    have hlostLine : '\n' ∉ lost := by
      intro hmem
      apply Lines.not_mem_rest seen
      rw [hrest]
      exact mem_append_left _ hmem
    have hsplit := Lines.splitLines_append seen mid
    rw [hrest, append_assoc, Lines.splitLines_prepend hlostLine] at hsplit
    rw [← hlen, fileBytes, hbytes, Utf8.decode_encode, hlen]
    refine ⟨h.size, ?_, fun _ => rfl, .inr rfl, fun hinit => (by cases hinit), ?_⟩
    · show s.consumed + (encode mid).length ≤ s.size
      rw [hlength]
      omega
    · refine ⟨seen ++ mid, rest',
        if (splitLines (s.tailer.state.trailingFragment ++ mid)).1 = [] then lost else [],
        by rw [htext, append_assoc], hlength.symm, ?_, ?_, ?_⟩
      · split
        · exact hlost
        · rfl
      · rw [hsplit, Lines.prepend_rest]
      · rw [hsplit, consumeLines_append, consumeLines_prepend parseLine hlost, hconsume]

/-- **One step** on a clean cut. -/
theorem consistent_tailStep (h : Consistent parseLine text s) (op : TailOp)
    (hcut : CleanCut text s op) :
    Consistent parseLine text (tailStep parseLine text s op) := by
  cases op with
  | grow bytes =>
    refine ⟨Nat.min_le_right _ _, ?_, h.offset, h.fileId, h.fresh, h.read⟩
    exact h.consumed.trans (Nat.le_min.mpr ⟨Nat.le_add_right _ _, h.size⟩)
  | poll limit => exact h.poll hcut
  | missing =>
    obtain ⟨id, hstart, hid⟩ := h.start
    rw [tailStep, runPoll, Tail.poll]
    rw [hstart]
    simpa using h.idle (t :=
      { offset := s.consumed, trailingFragment := s.tailer.state.trailingFragment
        fileId := id }) rfl rfl hid
  | readError =>
    have hidle := h.idle (t :=
      { offset := s.consumed, trailingFragment := s.tailer.state.trailingFragment
        fileId := some (0, 0) }) rfl rfl (.inr rfl)
    rw [tailStep, runPoll, Tail.poll]
    rw [h.track_start]
    split <;> simpa using hidle
  | restart =>
    obtain ⟨seen, rest, lost, htext, hlen, hlost, hrest, hconsume⟩ := h.read
    refine ⟨h.size, h.consumed, fun hinit => (by cases hinit), .inl rfl, fun _ => rfl, ?_⟩
    refine ⟨seen, rest, lost ++ s.tailer.state.trailingFragment, htext, hlen, ?_, ?_, hconsume⟩
    · rw [all_append, hlost]
      exact hcut
    · rw [hrest]
      exact (append_nil _).symm

/-! ## Exactly once -/

/-- A growing file as its polls are shown it, whatever the reader makes of them. -/
structure Showing where
  /-- Bytes written so far. -/
  size : ℕ := 0
  /-- Bytes that some poll was shown. -/
  shown : ℕ := 0

/-- A poll is shown what was written behind the last one, up to its limit; a missing file, a read
    error and a restart show nothing. -/
def Showing.step (text : List Char) (v : Showing) : TailOp → Showing
  | .grow bytes => { v with size := min (v.size + bytes) (encode text).length }
  | .poll limit => { v with shown := v.shown + min (v.size - v.shown) limit }
  | .missing | .readError | .restart => v

/-- The run has been shown what its cursor covers. -/
def Follows (s : JsonlRun T) (v : Showing) : Prop :=
  s.size = v.size ∧ s.consumed = v.shown

/-- **Keeping up**: the cursor covers what a poll was shown, no less and no more. -/
theorem follows_tailStep (h : Consistent parseLine text s) {v : Showing} (hv : Follows s v)
    (op : TailOp) : Follows (tailStep parseLine text s op) (v.step text op) := by
  obtain ⟨hsize, hshown⟩ := hv
  cases op with
  | grow bytes => exact ⟨by simp [tailStep, Showing.step, hsize], hshown⟩
  | poll limit =>
    rw [tailStep, runPoll, Tail.poll, h.track_start, Showing.step, ← hsize, ← hshown]
    split
    · rename_i hall
      refine ⟨hsize.symm ▸ rfl, ?_⟩
      show s.consumed = _
      have hnone : s.size - s.consumed = 0 := by
        rw [show s.consumed = s.size from hall, Nat.sub_self]
      rw [hnone, Nat.zero_min, Nat.add_zero]
    · refine ⟨rfl, ?_⟩
      have hlength : (fileBytes text s).length = s.size := by
        rw [fileBytes, length_take, Nat.min_eq_left h.size]
      show s.consumed + _ = _
      rw [length_take, length_take, length_drop, hlength]
      dsimp only
      omega
  | missing => exact ⟨hsize, hshown⟩
  | readError =>
    rw [tailStep, runPoll, Tail.poll, h.track_start]
    split <;> exact ⟨hsize, hshown⟩
  | restart => exact ⟨hsize, hshown⟩

/-- What the complete lines among the first `n` bytes of a text yield: the events in order, and the
    number of lines that do not parse. -/
def expectedUpTo (parseLine : List Char → Option T) (text : List Char) (n : ℕ) : List T × ℕ :=
  consumeLines parseLine (splitLines (decode ((encode text).take n))).1

/-- Along a run the tailer stays where its polls have left it. -/
theorem follows_exec (h : Consistent parseLine text s) {v : Showing} (hv : Follows s v)
    {ops : List TailOp} (hops : Guarded (tailStep parseLine text) (CleanCut text) s ops) :
    Consistent parseLine text (exec (tailStep parseLine text) s ops) ∧
      Follows (exec (tailStep parseLine text) s ops) (exec (Showing.step text) v ops) := by
  induction ops generalizing s v with
  | nil => exact ⟨h, hv⟩
  | cons op ops ih =>
    exact ih (consistent_tailStep h op hops.1) (follows_tailStep h hv op) hops.2

/-- **Exactly once**: in a run of growth, polls and restarts that cuts no character and leaves no
    line begun behind, the polls have handed out what the complete lines they were shown yield, each
    once and in order, and counted the lines that do not parse. -/
theorem events_of_run (parseLine : List Char → Option T) (text : List Char) (ops : List TailOp)
    (h : Guarded (tailStep parseLine text) (CleanCut text) {} ops) :
    ((exec (tailStep parseLine text) {} ops).events, (exec (tailStep parseLine text) {} ops).gaps) =
      expectedUpTo parseLine text (exec (Showing.step text) {} ops).shown := by
  obtain ⟨hrun, -, hshown⟩ := follows_exec (consistent_initial parseLine text) (v := {})
    ⟨rfl, rfl⟩ h
  obtain ⟨seen, rest, lost, htext, hlen, -, -, hconsume⟩ := hrun.read
  rw [← hconsume, expectedUpTo, ← hshown, ← hlen]
  have htake : (encode text).take (encode seen).length = encode seen := by
    rw [htext, Utf8.encode_append, take_left]
  rw [htake, Utf8.decode_encode]

/-- Two lines, with a restart between them. -/
theorem events_of_two_lines :
    ((exec (tailStep some ['1', '\n', 'é', '\n']) {}
        [.grow 2, .poll 2, .restart, .grow 3, .poll 3]).events,
      (exec (tailStep some ['1', '\n', 'é', '\n']) {}
        [.grow 2, .poll 2, .restart, .grow 3, .poll 3]).gaps) =
      expectedUpTo some ['1', '\n', 'é', '\n'] (exec (Showing.step ['1', '\n', 'é', '\n']) {}
        [.grow 2, .poll 2, .restart, .grow 3, .poll 3]).shown := by
  refine events_of_run some ['1', '\n', 'é', '\n'] _
    ⟨trivial, ⟨2, ?_⟩, ?_, trivial, ⟨4, ?_⟩, trivial⟩
  · decide
  · show List.all _ _ = true
    decide
  · decide

/-- The object `{"a":1}` is lost when the process restarts inside its line, and the letter é is
    when a poll ends inside it. -/
theorem cut_line_and_cut_character :
    (exec (tailStep (defaultParseLine Json.counting) ['{', '"', 'a', '"', ':', '1', '}', '\n']) {}
      [.grow 4, .poll 4, .restart, .grow 4, .poll 4]).events.length = 0 ∧
    (expectedUpTo (defaultParseLine Json.counting) ['{', '"', 'a', '"', ':', '1', '}', '\n']
      8).1.length = 1 ∧
    (exec (tailStep some ['é', '\n']) {} [.grow 1, .poll 1, .grow 2, .poll 2]).events =
      [['\uFFFD', '\uFFFD']] ∧
    (expectedUpTo some ['é', '\n'] 3).1 = [['é']] := by
  refine ⟨?_, ?_, ?_, ?_⟩ <;> decide

end RelayIde.Tail
