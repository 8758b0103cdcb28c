import RelayIde.Tail.Jsonl

/-!
# The Zstd Frame Tailer

`ZstdFrameLogTailer` polls a growing log of zstd frames and hands out the plaintext of each complete
frame.  Every poll scans from a fixed lookback before the cursor, wherever in a frame that is.

- `frames_of_run` — runs whose lookback never starts inside a frame

Decompression is a parameter.
-/

namespace RelayIde.Tail

open Library List
open Library.Utf8 (Bytes)

variable {T : Type}

/-! ## The structural scan -/

/-- What the scan finds at a position. -/
inductive Scan where
  /-- The buffer ends inside the frame. -/
  | torn
  /-- The scan throws. -/
  | invalid
  | frame (rest : Bytes)
  deriving DecidableEq

/-- The bytes of a block behind its header: one repeated byte, or as many as the block size. -/
def payloadBytes (blockHeader : ℕ) : ℕ :=
  if blockHeader / 2 % 4 = 1 then 1 else blockHeader / 8

def scanBlocks : Bytes → Scan
  | b₀ :: b₁ :: b₂ :: rest =>
    if (b₀ + 256 * b₁ + 65536 * b₂) / 2 % 4 = 3 then .invalid
    else if rest.length < payloadBytes (b₀ + 256 * b₁ + 65536 * b₂) then .torn
    else if (b₀ + 256 * b₁ + 65536 * b₂) % 2 = 1 then
      .frame (rest.drop (payloadBytes (b₀ + 256 * b₁ + 65536 * b₂)))
    else scanBlocks (rest.drop (payloadBytes (b₀ + 256 * b₁ + 65536 * b₂)))
  | _ => .torn
  termination_by bytes => bytes.length
  decreasing_by
    rw [length_drop]
    simp only [length_cons]
    omega

def remainingHeaderBytes (descriptor : ℕ) : ℕ :=
  let contentSizeFlag := descriptor / 64
  let singleSegment := descriptor / 32 % 2 = 1
  let dictionaryFlag := descriptor % 4
  let dictionaryBytes := if dictionaryFlag = 3 then 4 else dictionaryFlag
  let contentSizeBytes :=
    if contentSizeFlag = 0 then (if singleSegment then 1 else 0) else 2 ^ contentSizeFlag
  (if singleSegment then 0 else 1) + dictionaryBytes + contentSizeBytes

/-- The checksum behind the last block. -/
def scanChecksum (descriptor : ℕ) (rest : Bytes) : Scan :=
  if descriptor / 4 % 2 = 1 then
    if rest.length < 4 then .torn else .frame (rest.drop 4)
  else .frame rest

def scanBody : Bytes → Scan
  | [] => .torn
  | descriptor :: rest =>
    if descriptor / 8 % 4 ≠ 0 then .invalid
    else if rest.length < remainingHeaderBytes descriptor then .torn
    else
      match scanBlocks (rest.drop (remainingHeaderBytes descriptor)) with
      | .torn => .torn
      | .invalid => .invalid
      | .frame rest => scanChecksum descriptor rest

/-- One turn of the loop of `scanFramesFrom`, at a position before the end of the buffer. -/
def scanFrame : Bytes → Scan
  | m₀ :: m₁ :: m₂ :: m₃ :: rest =>
    if [m₀, m₁, m₂, m₃] ≠ [0x28, 0xB5, 0x2F, 0xFD] then .invalid else scanBody rest
  | _ => .torn

def Scan.extend (more : Bytes) : Scan → Scan
  | .torn => .torn
  | .invalid => .invalid
  | .frame rest => .frame (rest ++ more)

theorem scanBlocks_append (bytes more : Bytes) (h : scanBlocks bytes ≠ .torn) :
    scanBlocks (bytes ++ more) = (scanBlocks bytes).extend more := by
  fun_induction scanBlocks bytes with
  | case1 b₀ b₁ b₂ rest htype =>
    rw [cons_append, cons_append, cons_append, scanBlocks, if_pos htype]
    rfl
  | case2 b₀ b₁ b₂ rest htype hshort | case5 bytes hshape => exact absurd rfl h
  | case3 b₀ b₁ b₂ rest htype hlong hlast =>
    rw [cons_append, cons_append, cons_append, scanBlocks, if_neg htype,
      if_neg (by rw [length_append]; omega), if_pos hlast,
      drop_append_of_le_length (by omega)]
    rfl
  | case4 b₀ b₁ b₂ rest htype hlong hlast ih =>
    rw [cons_append, cons_append, cons_append, scanBlocks, if_neg htype,
      if_neg (by rw [length_append]; omega), if_neg hlast,
      drop_append_of_le_length (by omega)]
    exact ih h

theorem scanChecksum_append (descriptor : ℕ) (rest more : Bytes)
    (h : scanChecksum descriptor rest ≠ .torn) :
    scanChecksum descriptor (rest ++ more) = (scanChecksum descriptor rest).extend more := by
  unfold scanChecksum at h ⊢
  split
  · rename_i hchecksum
    rw [if_pos hchecksum] at h
    split at h
    · exact absurd rfl h
    · rename_i hlong
      rw [if_neg hlong, if_neg (by rw [length_append]; omega),
        drop_append_of_le_length (by omega)]
      rfl
  · rfl

theorem scanBody_append (bytes more : Bytes) (h : scanBody bytes ≠ .torn) :
    scanBody (bytes ++ more) = (scanBody bytes).extend more := by
  cases bytes with
  | nil => exact absurd rfl h
  | cons descriptor rest =>
    rw [scanBody] at h
    rw [cons_append, scanBody, scanBody]
    by_cases hreserved : descriptor / 8 % 4 ≠ 0
    · rw [if_pos hreserved, if_pos hreserved]
      rfl
    · rw [if_neg hreserved] at h ⊢
      rw [if_neg hreserved]
      by_cases hshort : rest.length < remainingHeaderBytes descriptor
      · rw [if_pos hshort] at h
        exact absurd rfl h
      · rw [if_neg hshort] at h ⊢
        rw [if_neg (by rw [length_append]; omega),
          drop_append_of_le_length (by omega)]
        cases hblocks : scanBlocks (rest.drop (remainingHeaderBytes descriptor)) with
        | torn =>
          rw [hblocks] at h
          exact absurd rfl h
        | invalid =>
          rw [scanBlocks_append _ more (by rw [hblocks]; simp), hblocks]
          rfl
        | frame rest' =>
          rw [hblocks] at h
          rw [scanBlocks_append _ more (by rw [hblocks]; simp), hblocks]
          exact scanChecksum_append descriptor rest' more h

theorem scanFrame_append (bytes more : Bytes) (h : scanFrame bytes ≠ .torn) :
    scanFrame (bytes ++ more) = (scanFrame bytes).extend more := by
  rcases bytes with _ | ⟨m₀, _ | ⟨m₁, _ | ⟨m₂, _ | ⟨m₃, rest⟩⟩⟩⟩
  · exact absurd rfl h
  · exact absurd rfl h
  · exact absurd rfl h
  · exact absurd rfl h
  · show (if [m₀, m₁, m₂, m₃] ≠ [0x28, 0xB5, 0x2F, 0xFD] then .invalid else scanBody (rest ++ more)) =
      Scan.extend more (if [m₀, m₁, m₂, m₃] ≠ [0x28, 0xB5, 0x2F, 0xFD] then .invalid else scanBody rest)
    replace h : (if [m₀, m₁, m₂, m₃] ≠ [0x28, 0xB5, 0x2F, 0xFD] then .invalid else scanBody rest) ≠
      Scan.torn := h
    split
    · rfl
    · rename_i hmagic
      rw [if_neg hmagic] at h
      exact scanBody_append rest more h

/-- A complete frame: the scan finds its end where it ends. -/
def CompleteFrame (frame : Bytes) : Prop :=
  scanFrame frame = .frame []

variable {frame buffer : Bytes} {n : ℕ} {frames : List Bytes}

theorem CompleteFrame.append (h : CompleteFrame frame) (more : Bytes) :
    scanFrame (frame ++ more) = .frame more := by
  rw [scanFrame_append frame more (by rw [h]; simp), h]
  rfl

theorem CompleteFrame.ne_nil (h : CompleteFrame frame) : frame ≠ [] := by
  rintro rfl
  cases h

theorem CompleteFrame.torn (h : CompleteFrame frame)
    (hn : n < frame.length) : scanFrame (frame.take n) = .torn := by
  by_contra hfound
  have hextend := scanFrame_append (frame.take n) (frame.drop n) hfound
  rw [take_append_drop, h] at hextend
  cases hscan : scanFrame (frame.take n) with
  | torn => exact hfound hscan
  | invalid =>
    rw [hscan] at hextend
    cases hextend
  | frame rest =>
    rw [hscan, Scan.extend, Scan.frame.injEq] at hextend
    have hlength := congrArg List.length hextend
    rw [length_append, length_drop, length_nil] at hlength
    omega

/-- `scanFramesFrom`, with a budget of turns: the ranges of the complete frames, or `none` when
    the scan throws.  A frame takes up bytes, so the length of the buffer is budget enough. -/
def scanRanges : ℕ → ℕ → Bytes → Option (List (ℕ × ℕ))
  | 0, _, _ => some []
  | n + 1, start, bytes =>
    if bytes = [] then some []
    else
      match scanFrame bytes with
      | .torn => some []
      | .invalid => none
      | .frame rest =>
        let stop := start + (bytes.length - rest.length)
        (scanRanges n stop rest).map ((start, stop) :: ·)

def scanFramesFrom (buffer : Bytes) : Option (List (ℕ × ℕ)) :=
  scanRanges buffer.length 0 buffer

/-! ## The tailer -/

/-- Lookback before the cursor, in bytes. -/
def FRAME_SCAN_LOOKBACK : ℕ := 64 * 1024

/-- Where a scan starts: the lookback before the cursor, or the start of the log. -/
def scanStart (offset : ℕ) : ℕ :=
  offset - FRAME_SCAN_LOOKBACK

theorem scanStart_le (offset : ℕ) : scanStart offset ≤ offset :=
  Nat.sub_le _ _

structure ZstdFrameLogTailer where
  offset : ℕ := 0
  fileId : Option (ℕ × ℕ) := none
  initialized : Bool := false

/-- A poll, and the cursor it saved. -/
structure ZstdPollResult (T : Type) where
  tailer : ZstdFrameLogTailer
  events : List T := []
  gaps : ℕ := 0
  saveCursor : Option ℕ := none

/-- The cursor a process starts with. -/
def initialOffset (saved : Option SavedCursor) : ℕ :=
  (initializeState saved).offset

/-- The loop over the scanned ranges: those that end at the cursor or before it were handed out
    already. -/
def consumeRanges (zstdDecodeOne : Bytes → Option String) (decodeChunk : String → Option T)
    (buffer : Bytes) (scanStart offset : ℕ) : ℕ → List (ℕ × ℕ) → List T × ℕ × ℕ
  | consumedEnd, [] => ([], 0, consumedEnd)
  | consumedEnd, (start, stop) :: ranges =>
    if scanStart + stop ≤ offset then
      consumeRanges zstdDecodeOne decodeChunk buffer scanStart offset consumedEnd ranges
    else
      let rest := consumeRanges zstdDecodeOne decodeChunk buffer scanStart offset
        (scanStart + stop) ranges
      match (zstdDecodeOne ((buffer.drop start).take (stop - start))).bind decodeChunk with
      | none => (rest.1, rest.2.1 + 1, rest.2.2)
      | some event => (event :: rest.1, rest.2.1, rest.2.2)

def ZstdFrameLogTailer.resume (tailer : ZstdFrameLogTailer) (loadCursor : Option SavedCursor) : ℕ :=
  if tailer.initialized then tailer.offset else initialOffset loadCursor

/-- Rotation and truncation start over on the new file. -/
def ZstdFrameLogTailer.track (tailer : ZstdFrameLogTailer) (stats : FileStat) (offset : ℕ) : ℕ :=
  if stats.size < offset ∨
      (tailer.fileId ≠ none ∧ tailer.fileId ≠ some (stats.dev, stats.ino)) then 0
  else offset

def tailerAt (stats : FileStat) (offset : ℕ) : ZstdFrameLogTailer where
  offset := offset
  fileId := some (stats.dev, stats.ino)
  initialized := true

/-- A poll that read `buffer`. -/
def consumeBuffer (zstdDecodeOne : Bytes → Option String) (decodeChunk : String → Option T)
    (stats : FileStat) (offset : ℕ) (buffer : Bytes) : ZstdPollResult T :=
  match scanFramesFrom buffer with
  | none => { tailer := tailerAt stats offset }
  | some ranges =>
    let consumed := consumeRanges zstdDecodeOne decodeChunk buffer (scanStart offset) offset
      offset ranges
    { tailer := tailerAt stats consumed.2.2
      events := consumed.1
      gaps := consumed.2.1
      saveCursor := some consumed.2.2 }

def pollFrom (zstdDecodeOne : Bytes → Option String) (decodeChunk : String → Option T)
    (stats : FileStat) (readSync : ℕ → ℕ → Option Bytes) (offset : ℕ) : ZstdPollResult T :=
  if offset = stats.size then { tailer := tailerAt stats offset }
  else
    match readSync (scanStart offset) (stats.size - scanStart offset) with
    | none => { tailer := tailerAt stats offset }
    | some buffer => consumeBuffer zstdDecodeOne decodeChunk stats offset buffer

/-- `poll()`. -/
def ZstdFrameLogTailer.poll (zstdDecodeOne : Bytes → Option String)
    (decodeChunk : String → Option T) (loadCursor : Option SavedCursor) (stat : Option FileStat)
    (readSync : ℕ → ℕ → Option Bytes) (tailer : ZstdFrameLogTailer) : ZstdPollResult T :=
  match stat with
  | none => { tailer := { tailer with offset := tailer.resume loadCursor, initialized := true } }
  | some stats =>
    pollFrom zstdDecodeOne decodeChunk stats readSync
      (tailer.track stats (tailer.resume loadCursor))

/-! ## Scanning a log of frames -/

/-- The frames that lie within the first `n` bytes. -/
def completeIn : ℕ → List Bytes → List Bytes
  | _, [] => []
  | n, frame :: frames =>
    if frame.length ≤ n then frame :: completeIn (n - frame.length) frames else []

/-- The ranges of frames that stand one after the other. -/
def rangesFrom : ℕ → List Bytes → List (ℕ × ℕ)
  | _, [] => []
  | start, frame :: frames =>
    (start, start + frame.length) :: rangesFrom (start + frame.length) frames

theorem completeIn_append (frames frames' : List Bytes) (h : frames.flatten.length ≤ n) :
    completeIn n (frames ++ frames') =
      frames ++ completeIn (n - frames.flatten.length) frames' := by
  induction frames generalizing n with
  | nil => rfl
  | cons frame frames ih =>
    rw [flatten_cons, length_append] at h
    rw [cons_append, completeIn, if_pos (by omega), ih (by omega), flatten_cons,
      length_append, Nat.sub_add_eq, cons_append]

theorem rangesFrom_append (start : ℕ) (frames frames' : List Bytes) :
    rangesFrom start (frames ++ frames') =
      rangesFrom start frames ++ rangesFrom (start + frames.flatten.length) frames' := by
  induction frames generalizing start with
  | nil => rfl
  | cons frame frames ih =>
    rw [cons_append, rangesFrom, ih, rangesFrom, flatten_cons, length_append,
      Nat.add_assoc, cons_append]

/-- The complete frames are the first ones, and they lie where the log has them. -/
theorem exists_todo (n : ℕ) (frames : List Bytes) :
    ∃ todo, frames = completeIn n frames ++ todo ∧ (completeIn n frames).flatten.length ≤ n := by
  induction frames generalizing n with
  | nil => exact ⟨[], rfl, Nat.zero_le n⟩
  | cons frame frames ih =>
    rw [completeIn]
    split
    · rename_i hle
      obtain ⟨todo, htodo, hlen⟩ := ih (n - frame.length)
      refine ⟨todo, by rw [cons_append, ← htodo], ?_⟩
      rw [flatten_cons, length_append]
      omega
    · exact ⟨frame :: frames, rfl, Nat.zero_le n⟩

theorem flatten_completeIn_prefix (n : ℕ) (frames : List Bytes) :
    (completeIn n frames).flatten <+: frames.flatten.take n := by
  obtain ⟨todo, htodo, hlen⟩ := exists_todo n frames
  have hsplit : frames.flatten = (completeIn n frames).flatten ++ todo.flatten := by
    rw [← flatten_append, ← htodo]
  rw [hsplit, take_append, take_of_length_le hlen]
  exact prefix_append _ _

/-- **The scan of a part of a log** finds the frames that lie in it. -/
theorem scanRanges_take (h : ∀ frame ∈ frames, CompleteFrame frame)
    {budget : ℕ} (hbudget : (frames.flatten.take n).length ≤ budget) (start : ℕ) :
    scanRanges budget start (frames.flatten.take n) =
      some (rangesFrom start (completeIn n frames)) := by
  induction frames generalizing n budget start with
  | nil =>
    rw [flatten_nil, take_nil]
    cases budget <;> rfl
  | cons frame frames ih =>
    have hframe := h frame mem_cons_self
    have hpos := length_pos_of_ne_nil hframe.ne_nil
    rw [flatten_cons, take_append] at hbudget ⊢
    rw [completeIn]
    by_cases hle : frame.length ≤ n
    · -- the frame is there, and the scan goes on behind it
      rw [take_of_length_le hle] at hbudget ⊢
      rw [length_append] at hbudget
      obtain ⟨budget, rfl⟩ : ∃ b, budget = b + 1 := ⟨budget - 1, by omega⟩
      rw [scanRanges, if_neg (by simp [hframe.ne_nil]), hframe.append, if_pos hle]
      dsimp only
      rw [length_append, Nat.add_sub_cancel,
        ih (fun f hf => h f (mem_cons_of_mem frame hf)) (by omega)]
      rfl
    · -- the log ends inside the frame
      rw [Nat.sub_eq_zero_of_le (by omega), take_zero, append_nil, if_neg hle]
      cases budget with
      | zero => rfl
      | succ budget =>
        rw [scanRanges]
        split
        · rfl
        · rw [hframe.torn (by omega)]
          rfl

def frameEvents (zstdDecodeOne : Bytes → Option String) (decodeChunk : String → Option T)
    (frames : List Bytes) : List T :=
  frames.filterMap fun frame => (zstdDecodeOne frame).bind decodeChunk

/-- The frames that yield no event. -/
def frameGaps (zstdDecodeOne : Bytes → Option String) (decodeChunk : String → Option T)
    (frames : List Bytes) : ℕ :=
  frames.countP fun frame => ((zstdDecodeOne frame).bind decodeChunk).isNone

section Consume

variable (zstdDecodeOne : Bytes → Option String) (decodeChunk : String → Option T)

theorem consumeRanges_old {scanStart offset start : ℕ}
    (h : scanStart + (start + frames.flatten.length) ≤ offset) (consumedEnd : ℕ)
    (ranges : List (ℕ × ℕ)) :
    consumeRanges zstdDecodeOne decodeChunk buffer scanStart offset consumedEnd
        (rangesFrom start frames ++ ranges) =
      consumeRanges zstdDecodeOne decodeChunk buffer scanStart offset consumedEnd ranges := by
  induction frames generalizing start with
  | nil => rfl
  | cons frame frames ih =>
    rw [flatten_cons, length_append] at h
    rw [rangesFrom, cons_append, consumeRanges, if_pos (by omega), ih (by omega)]

theorem consumeRanges_new {scanStart offset start : ℕ}
    (hne : ∀ frame ∈ frames, frame ≠ []) (h : offset ≤ scanStart + start)
    (hbuffer : frames.flatten <+: buffer.drop start) :
    consumeRanges zstdDecodeOne decodeChunk buffer scanStart offset (scanStart + start)
        (rangesFrom start frames) =
      (frameEvents zstdDecodeOne decodeChunk frames, frameGaps zstdDecodeOne decodeChunk frames,
        scanStart + start + frames.flatten.length) := by
  induction frames generalizing start with
  | nil => rfl
  | cons frame frames ih =>
    have hpos := length_pos_of_ne_nil (hne frame mem_cons_self)
    rw [flatten_cons] at hbuffer
    obtain ⟨more, hmore⟩ := hbuffer
    have hslice : (buffer.drop start).take (start + frame.length - start) = frame := by
      rw [← hmore, Nat.add_sub_cancel_left, append_assoc, take_left]
    have hrest : frames.flatten <+: buffer.drop (start + frame.length) := by
      rw [← drop_drop, ← hmore, append_assoc, drop_left]
      exact prefix_append _ _
    have hih : consumeRanges zstdDecodeOne decodeChunk buffer scanStart offset
        (scanStart + (start + frame.length)) (rangesFrom (start + frame.length) frames) = _ :=
      ih (fun f hf => hne f (mem_cons_of_mem frame hf)) (by omega) hrest
    rw [rangesFrom, consumeRanges, if_neg (by omega), hslice, hih]
    rw [frameEvents, frameEvents, frameGaps, frameGaps]
    cases hdecode : (zstdDecodeOne frame).bind decodeChunk with
    | none | some event => simp [hdecode, Nat.add_assoc]

end Consume

/-! ## Runs -/

/-- A log that is being written, its reader, and what the reader has handed out. -/
structure ZstdRun (T : Type) where
  size : ℕ := 0
  saved : Option ℕ := none
  tailer : ZstdFrameLogTailer := {}
  events : List T := []
  gaps : ℕ := 0

inductive ZstdOp where
  | grow (bytes : ℕ)
  | poll
  | missing
  | readError
  | restart

def ZstdRun.consumed (s : ZstdRun T) : ℕ :=
  s.saved.getD 0

variable (zstdDecodeOne : Bytes → Option String) (decodeChunk : String → Option T)

def zstdRunPoll (stat : Option FileStat) (readSync : ℕ → ℕ → Option Bytes) (s : ZstdRun T) :
    ZstdRun T :=
  let result := s.tailer.poll zstdDecodeOne decodeChunk
    (s.saved.map fun n => .finite n) stat readSync
  { s with
    saved := result.saveCursor.or s.saved
    tailer := result.tailer
    events := s.events ++ result.events
    gaps := s.gaps + result.gaps }

theorem poll_initialized (loadCursor : Option SavedCursor) (stat : Option FileStat)
    (readSync : ℕ → ℕ → Option Bytes) (tailer : ZstdFrameLogTailer) :
    (tailer.poll zstdDecodeOne decodeChunk loadCursor stat readSync).tailer.initialized = true := by
  unfold ZstdFrameLogTailer.poll pollFrom consumeBuffer
  split
  · rfl
  · split
    · rfl
    · split
      · rfl
      · split
        · rfl
        · rfl

/-- One step, over the log that its writer is writing. -/
def zstdStep (log : Bytes) (s : ZstdRun T) : ZstdOp → ZstdRun T
  | .grow bytes => { s with size := min (s.size + bytes) log.length }
  | .poll =>
    zstdRunPoll zstdDecodeOne decodeChunk (some { size := s.size, dev := 0, ino := 0 })
      (fun offset length => some (((log.take s.size).drop offset).take length)) s
  | .missing => zstdRunPoll zstdDecodeOne decodeChunk none (fun _ _ => none) s
  | .readError =>
    zstdRunPoll zstdDecodeOne decodeChunk (some { size := s.size, dev := 0, ino := 0 })
      (fun _ _ => none) s
  | .restart => { s with tailer := {} }

def Anchored (log : Bytes) (s : ZstdRun T) : ZstdOp → Prop
  | .poll => s.consumed ≠ s.size → ∃ pieces : List Bytes, (∀ p ∈ pieces, CompleteFrame p) ∧
      pieces.flatten = (log.take s.consumed).drop (scanStart s.consumed)
  | _ => True

/-- What has been handed out is what the complete frames of some part of the log yield, and the
    cursor stands behind them. -/
structure FramesRead (frames : List Bytes) (n : ℕ) (s : ZstdRun T) : Prop where
  size : s.size ≤ frames.flatten.length
  visible : n ≤ s.size
  offset : s.tailer.initialized = true → s.tailer.offset = s.consumed
  fileId : s.tailer.fileId = none ∨ s.tailer.fileId = some (0, 0)
  consumed : s.consumed = (completeIn n frames).flatten.length
  events : s.events = frameEvents zstdDecodeOne decodeChunk (completeIn n frames)
  gaps : s.gaps = frameGaps zstdDecodeOne decodeChunk (completeIn n frames)

theorem completeIn_zero (h : ∀ frame ∈ frames, CompleteFrame frame) : completeIn 0 frames = [] := by
  cases frames with
  | nil => rfl
  | cons frame frames =>
    have hpos := length_pos_of_ne_nil (h frame mem_cons_self).ne_nil
    rw [completeIn, if_neg (by omega)]

theorem framesRead_initial (h : ∀ frame ∈ frames, CompleteFrame frame) :
    FramesRead zstdDecodeOne decodeChunk frames 0 {} where
  size := Nat.zero_le _
  visible := le_refl 0
  offset h := by cases h
  fileId := .inl rfl
  consumed := by rw [completeIn_zero h]; rfl
  events := by rw [completeIn_zero h]; rfl
  gaps := by rw [completeIn_zero h]; rfl

variable {zstdDecodeOne decodeChunk}

variable {s : ZstdRun T} {plain : Bytes → String} {block : Bytes}

section
variable (h : FramesRead zstdDecodeOne decodeChunk frames n s)
include h

theorem FramesRead.start : s.tailer.resume (s.saved.map fun n => .finite n) = s.consumed := by
  unfold ZstdFrameLogTailer.resume
  cases hinit : s.tailer.initialized with
  | true => exact h.offset hinit
  | false =>
    unfold ZstdRun.consumed
    cases s.saved with
    | none => rfl
    | some n =>
      show (if (n : ℤ) < 0 then ({} : TailState) else { offset := (n : ℤ).toNat }).offset = n
      rw [if_neg (by omega), Int.toNat_natCast]

theorem FramesRead.consumed_le : s.consumed ≤ n := by
  obtain ⟨todo, -, hlen⟩ := exists_todo n frames
  rw [h.consumed]
  exact hlen

/-- The log is the one the tailer knows, and no shorter than its cursor. -/
theorem FramesRead.tracked :
    s.tailer.track { size := s.size, dev := 0, ino := 0 } s.consumed = s.consumed := by
  have hle := h.consumed_le.trans h.visible
  rw [ZstdFrameLogTailer.track, if_neg]
  rw [not_or]
  refine ⟨by dsimp only; omega, ?_⟩
  rcases h.fileId with hid | hid <;> simp [hid]

theorem FramesRead.idle {t : ZstdFrameLogTailer}
    (hoffset : t.offset = s.consumed) (hid : t.fileId = none ∨ t.fileId = some (0, 0)) :
    FramesRead zstdDecodeOne decodeChunk frames n { s with tailer := t } where
  size := h.size
  visible := h.visible
  offset _ := hoffset
  fileId := hid
  consumed := h.consumed
  events := h.events
  gaps := h.gaps

/-- With the whole visible log handed out, nothing more is complete in it. -/
theorem FramesRead.of_consumed_eq (hsize : s.consumed = s.size) :
    FramesRead zstdDecodeOne decodeChunk frames s.size s := by
  have hn : n = s.size := by
    have hle := h.consumed_le
    have hvisible := h.visible
    omega
  rwa [← hn]

/-- **One poll** that looks back at complete frames hands out the frames completed since. -/
theorem FramesRead.poll (hframes : ∀ frame ∈ frames, CompleteFrame frame)
    (hanchored : Anchored frames.flatten s .poll) :
    FramesRead zstdDecodeOne decodeChunk frames s.size
      (zstdStep zstdDecodeOne decodeChunk frames.flatten s .poll) := by
  rw [zstdStep, zstdRunPoll, ZstdFrameLogTailer.poll, h.start, h.tracked, pollFrom]
  by_cases hsize : s.consumed = s.size
  · rw [if_pos hsize]
    have hidle := (h.of_consumed_eq hsize).idle
      (t := tailerAt { size := s.size, dev := 0, ino := 0 } s.consumed) rfl (.inr rfl)
    simpa using hidle
  · rw [if_neg hsize]
    obtain ⟨pieces, hpieces, hwindow⟩ := hanchored hsize
    obtain ⟨todo, htodo, hdone⟩ := exists_todo n frames
    have hvisible := h.visible
    have hconsumed := h.consumed
    have hstart := scanStart_le s.consumed
    -- the buffer: the pieces, and the part of the log behind the cursor
    have hsplit : frames.flatten = (completeIn n frames).flatten ++ todo.flatten := by
      rw [← flatten_append, ← htodo]
    have hlog : frames.flatten.drop (scanStart s.consumed) = (pieces ++ todo).flatten := by
      have htake : frames.flatten.take s.consumed = (completeIn n frames).flatten := by
        rw [hconsumed, hsplit, take_left]
      rw [htake] at hwindow
      rw [flatten_append, hwindow, hsplit, drop_append_of_le_length (by omega)]
    have hpiecesLen : pieces.flatten.length = s.consumed - scanStart s.consumed := by
      rw [hwindow, length_drop, length_take]
      have := h.size
      omega
    have hbuffer : ((frames.flatten.take s.size).drop (scanStart s.consumed)).take
        (s.size - scanStart s.consumed) =
        (pieces ++ todo).flatten.take (s.size - scanStart s.consumed) := by
      rw [drop_take, take_take, Nat.min_self, hlog]
    have hscan : scanFramesFrom ((pieces ++ todo).flatten.take (s.size - scanStart s.consumed)) =
        some (rangesFrom 0 (completeIn (s.size - scanStart s.consumed) (pieces ++ todo))) := by
      refine scanRanges_take (fun frame hframe => ?_) (le_refl _) 0
      rcases mem_append.mp hframe with hframe | hframe
      · exact hpieces frame hframe
      · rw [htodo] at hframes
        exact hframes frame (mem_append_right _ hframe)
    rw [completeIn_append pieces todo (by omega), hpiecesLen,
      show s.size - scanStart s.consumed - (s.consumed - scanStart s.consumed) =
        s.size - s.consumed by omega] at hscan
    have hnew : (completeIn (s.size - s.consumed) todo).flatten <+:
        ((pieces ++ todo).flatten.take (s.size - scanStart s.consumed)).drop
          (0 + pieces.flatten.length) := by
      rw [Nat.zero_add, flatten_append, drop_take, drop_left, hpiecesLen,
        show s.size - scanStart s.consumed - (s.consumed - scanStart s.consumed) =
          s.size - s.consumed by omega]
      exact flatten_completeIn_prefix _ _
    have htodoFrames : ∀ frame ∈ completeIn (s.size - s.consumed) todo, frame ≠ [] := by
      intro frame hframe
      obtain ⟨later, hlater, -⟩ := exists_todo (s.size - s.consumed) todo
      apply (hframes frame ?_).ne_nil
      rw [htodo, hlater]
      exact mem_append_right _ (mem_append_left _ hframe)
    have hcursor : scanStart s.consumed + (0 + pieces.flatten.length) = s.consumed := by
      omega
    have hconsume := consumeRanges_new zstdDecodeOne decodeChunk htodoFrames hcursor.ge hnew
    rw [hcursor] at hconsume
    have hall : completeIn s.size frames =
        completeIn n frames ++ completeIn (s.size - s.consumed) todo := by
      have happend := completeIn_append (n := s.size) (completeIn n frames) todo (by omega)
      rwa [← htodo, ← hconsumed] at happend
    dsimp only
    rw [hbuffer, consumeBuffer, hscan]
    dsimp only
    rw [rangesFrom_append, consumeRanges_old zstdDecodeOne decodeChunk hcursor.le, hconsume]
    refine ⟨h.size, le_refl _, fun _ => rfl, .inr rfl, ?_, ?_, ?_⟩
    · show s.consumed + _ = _
      rw [hall, flatten_append, length_append, ← hconsumed]
    · rw [hall, h.events]
      exact (filterMap_append).symm
    · rw [hall, h.gaps]
      exact (countP_append).symm

theorem FramesRead.grow (bytes : ℕ) :
    FramesRead zstdDecodeOne decodeChunk frames n
      (zstdStep zstdDecodeOne decodeChunk frames.flatten s (.grow bytes)) where
  size := Nat.min_le_right _ _
  visible := h.visible.trans (Nat.le_min.mpr ⟨Nat.le_add_right _ _, h.size⟩)
  offset := h.offset
  fileId := h.fileId
  consumed := h.consumed
  events := h.events
  gaps := h.gaps

/-- **One step** that looks back at complete frames. -/
theorem FramesRead.step (hframes : ∀ frame ∈ frames, CompleteFrame frame) (op : ZstdOp)
    (hanchored : Anchored frames.flatten s op) :
    ∃ n, FramesRead zstdDecodeOne decodeChunk frames n
      (zstdStep zstdDecodeOne decodeChunk frames.flatten s op) := by
  cases op with
  | grow bytes => exact ⟨n, h.grow bytes⟩
  | poll => exact ⟨s.size, h.poll hframes hanchored⟩
  | missing =>
    refine ⟨n, ?_⟩
    rw [zstdStep, zstdRunPoll, ZstdFrameLogTailer.poll]
    rw [h.start]
    simpa using h.idle
      (t := { s.tailer with offset := s.consumed, initialized := true }) rfl h.fileId
  | readError =>
    refine ⟨n, ?_⟩
    have hidle := h.idle
      (t := tailerAt { size := s.size, dev := 0, ino := 0 } s.consumed) rfl (.inr rfl)
    rw [zstdStep, zstdRunPoll, ZstdFrameLogTailer.poll, h.start, h.tracked, pollFrom]
    split
    · simpa using hidle
    · simpa using hidle
  | restart =>
    exact ⟨n, h.size, h.visible, fun hinit => (by cases hinit), .inl rfl, h.consumed, h.events,
      h.gaps⟩

end

/-- **A run** in which every poll looks back at complete frames. -/
theorem FramesRead.run (hframes : ∀ frame ∈ frames, CompleteFrame frame) {ops : List ZstdOp}
    (h : Guarded (zstdStep zstdDecodeOne decodeChunk frames.flatten) (Anchored frames.flatten)
      {} ops) :
    ∃ n, FramesRead zstdDecodeOne decodeChunk frames n
      (exec (zstdStep zstdDecodeOne decodeChunk frames.flatten) {} ops) := by
  have hstep : ∀ s op, (∃ n, FramesRead zstdDecodeOne decodeChunk frames n s) →
      Anchored frames.flatten s op → ∃ n, FramesRead zstdDecodeOne decodeChunk frames n
        (zstdStep zstdDecodeOne decodeChunk frames.flatten s op) := by
    rintro s op ⟨n, hread⟩ hanchored
    exact hread.step hframes op hanchored
  apply exec_invariant_of_guarded hstep ⟨0, ?_⟩ h
  exact framesRead_initial zstdDecodeOne decodeChunk hframes

theorem FramesRead.anchored (h : FramesRead zstdDecodeOne decodeChunk frames n s)
    (hframes : ∀ frame ∈ frames, CompleteFrame frame)
    (hshort : s.consumed ≤ FRAME_SCAN_LOOKBACK) (op : ZstdOp) : Anchored frames.flatten s op := by
  cases op with
  | poll =>
    intro _
    obtain ⟨todo, htodo, -⟩ := exists_todo n frames
    refine ⟨completeIn n frames, fun frame hframe => ?_, ?_⟩
    · apply hframes
      rw [htodo]
      exact mem_append_left _ hframe
    · rw [scanStart, Nat.sub_eq_zero_of_le hshort, drop_zero, h.consumed]
      conv_rhs => rw [htodo, flatten_append]
      rw [← htodo, take_left]
  | grow bytes | missing | readError | restart => trivial

theorem guarded_of_short_log (hframes : ∀ frame ∈ frames, CompleteFrame frame)
    (hshort : frames.flatten.length ≤ FRAME_SCAN_LOOKBACK) (ops : List ZstdOp)
    (h : FramesRead zstdDecodeOne decodeChunk frames n s) :
    Guarded (zstdStep zstdDecodeOne decodeChunk frames.flatten)
    (Anchored frames.flatten) s ops := by
  induction ops generalizing n s with
  | nil => trivial
  | cons op ops ih =>
    have hconsumed := h.consumed_le.trans (h.visible.trans h.size)
    have hanchored := h.anchored hframes (hconsumed.trans hshort) op
    obtain ⟨m, hstep⟩ := h.step hframes op hanchored
    exact ⟨hanchored, ih hstep⟩

theorem FramesRead.poll_invalid
    (h : FramesRead zstdDecodeOne decodeChunk frames n s) (hsize : s.consumed ≠ s.size)
    (hscan : scanFramesFrom (((frames.flatten.take s.size).drop (scanStart s.consumed)).take
      (s.size - scanStart s.consumed)) = none) :
    (zstdStep zstdDecodeOne decodeChunk frames.flatten s .poll).events = s.events := by
  rw [zstdStep, zstdRunPoll, ZstdFrameLogTailer.poll, h.start, h.tracked, pollFrom, if_neg hsize]
  dsimp only
  rw [consumeBuffer, hscan]
  exact append_nil _

/-! ## Exactly once -/

section
variable (h : ∀ frame ∈ frames, zstdDecodeOne frame = some (plain frame))
include h

theorem frameEvents_of_decodes :
    frameEvents zstdDecodeOne decodeChunk frames = (frames.map plain).filterMap decodeChunk := by
  rw [filterMap_map]
  apply filterMap_congr
  intro frame hframe
  rw [h frame hframe]
  rfl

theorem frameGaps_of_decodes :
    frameGaps zstdDecodeOne decodeChunk frames =
      (frames.map plain).countP fun plaintext => (decodeChunk plaintext).isNone := by
  rw [countP_map]
  apply countP_congr
  intro frame hframe
  rw [h frame hframe]
  rfl

end

theorem mem_of_mem_completeIn (h : frame ∈ completeIn n frames) : frame ∈ frames := by
  obtain ⟨todo, htodo, -⟩ := exists_todo n frames
  rw [htodo]
  exact mem_append_left _ h

variable (zstdDecodeOne decodeChunk)

/-- **Exactly once**: whenever every poll of a run looks back at complete frames, each poll leaves
    behind what the complete frames of the visible log yield, each once and in order, and the
    cursor at the end of the last of them. -/
theorem frames_of_run {frames : List Bytes} (hframes : ∀ frame ∈ frames, CompleteFrame frame)
    {plain : Bytes → String} (hplain : ∀ frame ∈ frames, zstdDecodeOne frame = some (plain frame))
    (ops : List ZstdOp)
    (h : Guarded (zstdStep zstdDecodeOne decodeChunk frames.flatten) (Anchored frames.flatten)
      {} (ops ++ [.poll])) :
    let s := exec (zstdStep zstdDecodeOne decodeChunk frames.flatten) {} (ops ++ [.poll])
    s.events = ((completeIn s.size frames).map plain).filterMap decodeChunk ∧
      s.gaps = ((completeIn s.size frames).map plain).countP
        (fun plaintext => (decodeChunk plaintext).isNone) ∧
      s.tailer.offset = (completeIn s.size frames).flatten.length := by
  rw [guarded_append] at h
  obtain ⟨n, hread⟩ := FramesRead.run hframes h.1
  have hpoll := hread.poll hframes h.2.1
  have hdecodes : ∀ frame ∈ completeIn
      (exec (zstdStep zstdDecodeOne decodeChunk frames.flatten) {} ops).size frames,
      zstdDecodeOne frame = some (plain frame) :=
    fun frame hframe => hplain frame (mem_of_mem_completeIn hframe)
  rw [exec_append, exec_cons, exec_nil]
  -- a poll leaves the log as it is
  refine ⟨?_, ?_, ?_⟩
  · rw [hpoll.events]
    exact frameEvents_of_decodes hdecodes
  · rw [hpoll.gaps]
    exact frameGaps_of_decodes hdecodes
  · rw [hpoll.offset (poll_initialized _ _ _ _ _ _), hpoll.consumed]
    rfl

/-- A frame of one raw block of one byte. -/
def smallFrame : Bytes := [0x28, 0xB5, 0x2F, 0xFD, 0x20, 1, 9, 0, 0, 97]

theorem completeFrame_small : CompleteFrame smallFrame := by
  simp [CompleteFrame, smallFrame, scanFrame, scanBody, remainingHeaderBytes, scanBlocks,
    payloadBytes, scanChecksum]

/-- A frame seen in two parts, and the log read again after a restart. -/
theorem frames_of_one_frame :
    let s := exec (zstdStep (fun _ => some "a") some [smallFrame].flatten) {}
      ([.grow 7, .poll, .grow 3, .poll, .restart] ++ [.poll])
    s.events = ((completeIn s.size [smallFrame]).map fun _ => "a").filterMap some ∧
      s.gaps = ((completeIn s.size [smallFrame]).map fun _ => "a").countP
        (fun plaintext => (some plaintext).isNone) ∧
      s.tailer.offset = (completeIn s.size [smallFrame]).flatten.length := by
  have hframes : ∀ frame ∈ [smallFrame], CompleteFrame frame := by
    intro frame hframe
    rw [mem_singleton.mp hframe]
    exact completeFrame_small
  refine frames_of_run (fun _ => some "a") some hframes (fun frame hframe => rfl)
    [.grow 7, .poll, .grow 3, .poll, .restart] ?_
  exact guarded_of_short_log hframes (by decide) _
    (framesRead_initial (fun _ => some "a") some hframes)

def wideFrame (block : Bytes) : Bytes :=
  [0x28, 0xB5, 0x2F, 0xFD, 0, 0x58, 129, 14, 8] ++ block

theorem completeFrame_wide (h : block.length = 66000) : CompleteFrame (wideFrame block) := by
  simp [CompleteFrame, wideFrame, scanFrame, scanBody, remainingHeaderBytes, scanBlocks,
    payloadBytes, scanChecksum, h]

theorem scanFramesFrom_zeros (bytes : Bytes) : scanFramesFrom
    (0 :: 0 :: 0 :: 0 :: bytes) = none := by
  rw [scanFramesFrom, length_cons, scanRanges, if_neg (by simp), scanFrame, if_pos (by decide)]

/-- The first poll hands out the wide frame, and the second looks back into it. -/
theorem wide_frame_hides (hlen : block.length = 66000)
    (hzeros : ∃ bytes, block.drop 464 = 0 :: 0 :: 0 :: 0 :: bytes) :
    let s := exec (zstdStep (fun _ => some "a") some [wideFrame block, smallFrame].flatten) {}
      [.grow 66009, .poll, .grow 10, .poll]
    s.events = ["a"] ∧
      completeIn s.size [wideFrame block, smallFrame] = [wideFrame block, smallFrame] := by
  have hwide : (wideFrame block).length = 66009 := by
    rw [wideFrame, length_append, hlen]
    rfl
  have hlog : [wideFrame block, smallFrame].flatten.length = 66019 := by
    rw [flatten_cons, length_append, hwide]
    rfl
  have hframes : ∀ frame ∈ [wideFrame block, smallFrame], CompleteFrame frame := by
    intro frame hframe
    rcases mem_cons.mp hframe with rfl | hframe
    · exact completeFrame_wide hlen
    · rw [mem_singleton.mp hframe]
      exact completeFrame_small
  have hone : completeIn 66009 [wideFrame block, smallFrame] = [wideFrame block] := by
    rw [completeIn, hwide]
    rfl
  have htwo : completeIn 66019 [wideFrame block, smallFrame] = [wideFrame block, smallFrame] := by
    rw [completeIn, hwide]
    rfl
  rw [exec_cons, exec_cons, exec_cons]
  have hfirst := (framesRead_initial (fun _ => some "a") some hframes).grow 66009
  have hsize₁ : (zstdStep (fun _ => some "a") some [wideFrame block, smallFrame].flatten {}
      (.grow 66009)).size = 66009 := by
    rw [zstdStep, hlog]
    rfl
  generalize zstdStep (fun _ => some "a") some [wideFrame block, smallFrame].flatten {}
    (.grow 66009) = s₁ at hfirst hsize₁ ⊢
  have hpoll := hfirst.poll hframes (hfirst.anchored hframes ?_ .poll)
  have hsize₂ : (zstdStep (fun _ => some "a") some [wideFrame block, smallFrame].flatten s₁
      .poll).size = 66009 := hsize₁
  generalize zstdStep (fun _ => some "a") some [wideFrame block, smallFrame].flatten s₁ .poll = s₂
    at hpoll hsize₂ ⊢
  have hsecond := hpoll.grow 10
  have hsize₃ : (zstdStep (fun _ => some "a") some [wideFrame block, smallFrame].flatten s₂
      (.grow 10)).size = 66019 := by
    rw [zstdStep, hlog, hsize₂]
    rfl
  generalize zstdStep (fun _ => some "a") some [wideFrame block, smallFrame].flatten s₂ (.grow 10) =
    s₃ at hsecond hsize₃ ⊢
  rw [hsize₁] at hsecond
  have hcursor : s₃.consumed = 66009 := by
    rw [hsecond.consumed, hone, flatten_singleton, hwide]
  have hevents : s₃.events = ["a"] := by
    rw [hsecond.events, hone]
    rfl
  obtain ⟨bytes, hbytes⟩ := hzeros
  have hnothing := hsecond.poll_invalid (by omega) ?_
  · refine ⟨hnothing.trans hevents, ?_⟩
    show completeIn s₃.size _ = _
    rw [hsize₃, htwo]
  · -- the lookback starts 464 bytes into the block
    have hstart : scanStart 66009 = 473 := rfl
    have hinside : [wideFrame block, smallFrame].flatten.drop 473 =
        0 :: 0 :: 0 :: 0 :: (bytes ++ smallFrame) := by
      show (block ++ (smallFrame ++ [])).drop 464 = _
      rw [drop_append_of_le_length (by omega), hbytes]
      rfl
    rw [hcursor, hsize₃, hstart, drop_take, take_take, Nat.min_self, hinside,
      take_succ_cons, take_succ_cons, take_succ_cons]
    exact scanFramesFrom_zeros _
  · rw [hfirst.consumed]
    exact Nat.zero_le _

/-- Behind a frame longer than the lookback, the scan starts inside the frame and throws: the frame
    behind it is complete and is not handed out. -/
theorem second_frame_not_read :
    let frames := [wideFrame (List.replicate 66000 0), smallFrame]
    let s := exec (zstdStep (fun _ => some "a") some frames.flatten) {}
      [.grow 66009, .poll, .grow 10, .poll]
    s.events = ["a"] ∧ completeIn s.size frames = frames := by
  apply wide_frame_hides length_replicate
  exact ⟨List.replicate 65532 0, by rw [drop_replicate]; rfl⟩

end RelayIde.Tail
