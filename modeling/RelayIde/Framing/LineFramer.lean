import RelayIde.Library.Machine
import RelayIde.Library.Segments
import RelayIde.Library.Utf8

/-!
# The Line Framer

`LineFramer` cuts the byte stream of a child process into lines.  Between two chunks it keeps the
unterminated tail, or, after an oversized one, only the fact that it is skipping.

- `framed_eq_iff` — the lines are those of the stream unless a chunk ends between the CR and the
  LF of a line that fits the cap only without its CR
-/

open List

namespace RelayIde.Framing

open Library
open Library.Utf8 (Bytes)

/-! ## The framer -/

def LF : ℕ := 0x0a

def CR : ℕ := 0x0d

/-- Policy for a line that exceeds `maxLineBytes`. -/
inductive OversizedLinePolicy where
  | skipResync
  | reportAndContinue
  deriving DecidableEq

structure LineFramerOptions where
  maxLineBytes : Option ℕ := none
  oversizedPolicy : OversizedLinePolicy := .reportAndContinue
  maxBufferBytes : Option ℕ := none
  trimTrailingCr : Bool := false

structure LineFramer where
  buffer : Bytes := []
  /-- `skipResync` only: discarding bytes until the LF that ends a huge line. -/
  skipping : Bool := false

/-- The callbacks in the order in which they run. -/
inductive FramerReport where
  | line (lineBytes : Bytes)
  | oversized (droppedBytes : ℕ)
  | bufferOverflow

namespace LineFramerOptions

variable (options : LineFramerOptions)

/-- `length > maxLineBytes`, never without a cap. -/
def exceeds (length : ℕ) : Bool :=
  options.maxLineBytes.any fun maxLineBytes => decide (maxLineBytes < length)

def trimCr (lineBytes : Bytes) : Bytes :=
  if options.trimTrailingCr = true ∧ lineBytes.getLast? = some CR then lineBytes.dropLast
  else lineBytes

/-- A line whose LF was found, outside skip mode. -/
def reportLine (lineBytes : Bytes) : FramerReport :=
  let lineBytes := options.trimCr lineBytes
  if options.exceeds lineBytes.length = true then .oversized lineBytes.length
  else .line lineBytes

end LineFramerOptions

/-- The loop of `push` while the buffer holds an LF; the first one ends skip mode. -/
def consumeLines (options : LineFramerOptions) (skipping : Bool) :
    List Bytes → List FramerReport × Bool
  | [] => ([], skipping)
  | lineBytes :: rest =>
    let consumed := consumeLines options false rest
    if skipping = true then consumed
    else (options.reportLine lineBytes :: consumed.1, consumed.2)

/-- The iteration of the loop that finds no LF: `buffer` is the unterminated tail. -/
def holdTail (options : LineFramerOptions) (skipping : Bool) (buffer : Bytes) :
    List FramerReport × LineFramer :=
  if skipping = true then ([], { buffer := [], skipping := true })
  else if options.oversizedPolicy = .skipResync ∧ options.exceeds buffer.length = true then
    ([.oversized buffer.length], { buffer := [], skipping := true })
  else ([], { buffer := buffer, skipping := false })

/-- `push()`. -/
def LineFramer.push (options : LineFramerOptions) (framer : LineFramer) (chunk : Bytes) :
    List FramerReport × LineFramer :=
  let buffer := segments LF (framer.buffer ++ chunk)
  let consumed := consumeLines options framer.skipping buffer.1
  let held := holdTail options consumed.2 buffer.2
  if options.maxBufferBytes.any (fun maxBufferBytes =>
      decide (maxBufferBytes < held.2.buffer.length)) = true then
    (consumed.1 ++ held.1 ++ [.bufferOverflow], { held.2 with buffer := [] })
  else (consumed.1 ++ held.1, held.2)

def LineFramer.pushAll (options : LineFramerOptions) (framer : LineFramer) :
    List Bytes → List FramerReport × LineFramer
  | [] => ([], framer)
  | chunk :: chunks =>
    let pushed := framer.push options chunk
    let rest := LineFramer.pushAll options pushed.2 chunks
    (pushed.1 ++ rest.1, rest.2)

def FramerReport.line? : FramerReport → Option Bytes
  | .line lineBytes => some lineBytes
  | _ => none

/-- The lines passed to `onLine`, decoded by `toString('utf8')`. -/
def onLine (reports : List FramerReport) : List (List Char) :=
  (reports.filterMap FramerReport.line?).map Utf8.decode

def withinCap (options : LineFramerOptions) (lines : List Bytes) : List Bytes :=
  (lines.map options.trimCr).filter fun lineBytes => !options.exceeds lineBytes.length

/-- The LF-separated complete lines of a stream that are within the cap. -/
def framed (options : LineFramerOptions) (stream : Bytes) : List Bytes :=
  withinCap options (segments LF stream).1

/-! ## What the framer keeps -/

section State

variable {options : LineFramerOptions}

def tailOf (stream : Bytes) : Bytes :=
  (segments LF stream).2

/-- The tail of a stream made the framer skip to the next LF. -/
def LineFramerOptions.skips (options : LineFramerOptions) (buffer : Bytes) : Prop :=
  options.oversizedPolicy = .skipResync ∧ options.exceeds buffer.length = true

instance (buffer : Bytes) : Decidable (options.skips buffer) :=
  inferInstanceAs (Decidable (_ ∧ _))

def framerAt (options : LineFramerOptions) (stream : Bytes) : LineFramer :=
  if options.skips (tailOf stream) then { buffer := [], skipping := true }
  else { buffer := tailOf stream, skipping := false }

variable (stream chunk : Bytes)

theorem tailOf_append :
    tailOf (stream ++ chunk) = (segments LF (tailOf stream ++ chunk)).2 := by
  rw [tailOf, segments_append]
  rfl

theorem segments_tail :
    segments LF (tailOf stream ++ chunk) = joinFront (tailOf stream) (segments LF chunk) :=
  segments_joinFront (not_mem_rest stream) chunk

theorem exceeds_mono {n n' : ℕ} (h : options.exceeds n = true) (hle : n ≤ n') :
    options.exceeds n' = true := by
  unfold LineFramerOptions.exceeds at *
  cases hmax : options.maxLineBytes with
  | none => simp [hmax] at h
  | some maxLineBytes =>
    rw [hmax] at h
    simp only [Option.any_some, decide_eq_true_eq] at *
    exact Nat.lt_of_lt_of_le h hle

theorem skips_append {buffer : Bytes} (h : options.skips buffer) (more : Bytes) :
    options.skips (buffer ++ more) :=
  ⟨h.1, exceeds_mono h.2 (by rw [length_append]; exact Nat.le_add_right _ _)⟩

theorem consumeLines_skipping (skipping : Bool) (lines : List Bytes) :
    (consumeLines options skipping lines).2 = (skipping && lines.isEmpty) := by
  induction lines generalizing skipping with
  | nil => cases skipping <;> rfl
  | cons lineBytes lines ih =>
    rw [consumeLines]
    split <;> rw [ih] <;> simp

theorem holdTail_of_framing (buffer : Bytes) :
    (holdTail options false buffer).2 =
      if options.skips buffer then { buffer := [], skipping := true }
      else { buffer := buffer, skipping := false } := by
  by_cases hskips : options.skips buffer
  · rw [if_pos hskips]
    exact congrArg Prod.snd (if_pos hskips)
  · rw [if_neg hskips]
    exact congrArg Prod.snd (if_neg hskips)

variable (hbuffer : options.maxBufferBytes = none)

include hbuffer

theorem push_eq (framer : LineFramer) (chunk : Bytes) :
    framer.push options chunk =
      let buffer := segments LF (framer.buffer ++ chunk)
      let consumed := consumeLines options framer.skipping buffer.1
      let held := holdTail options consumed.2 buffer.2
      (consumed.1 ++ held.1, held.2) := by
  simp [LineFramer.push, hbuffer]

/-- **One chunk**: the framer goes from what the stream so far says to what the longer one
    says. -/
theorem push_framerAt (stream chunk : Bytes) :
    ((framerAt options stream).push options chunk).2 = framerAt options (stream ++ chunk) := by
  rw [push_eq hbuffer, framerAt, framerAt, tailOf_append, segments_tail]
  by_cases hskips : options.skips (tailOf stream)
  · rw [if_pos hskips]
    simp only [nil_append, consumeLines_skipping]
    rcases segments LF chunk with ⟨_ | ⟨lineBytes, lines⟩, rest⟩
    · -- still inside the oversized line
      rw [joinFront, if_pos (skips_append hskips rest)]
      rfl
    · exact holdTail_of_framing rest
  · rw [if_neg hskips]
    simp only [segments_tail, consumeLines_skipping]
    exact holdTail_of_framing _

end State

/-! ## What the framer passes on -/

section Lines

variable {options : LineFramerOptions}

theorem withinCap_append (lines lines' : List Bytes) :
    withinCap options (lines ++ lines') = withinCap options lines ++ withinCap options lines' := by
  rw [withinCap, map_append, filter_append]
  rfl

/-- The lines a chunk completes, joined with the tail before it. -/
def completed (options : LineFramerOptions) (stream chunk : Bytes) : List Bytes :=
  withinCap options (segments LF (tailOf stream ++ chunk)).1

theorem completed_append (stream chunk chunk' : Bytes) :
    completed options stream (chunk ++ chunk') =
      completed options stream chunk ++ completed options (stream ++ chunk) chunk' := by
  rw [completed, ← append_assoc, segments_append, withinCap_append, ← tailOf_append]
  rfl

theorem completed_nil (chunk : Bytes) : completed options [] chunk = framed options chunk :=
  rfl

theorem line?_reportLine (lineBytes : Bytes) :
    ([options.reportLine lineBytes]).filterMap FramerReport.line? =
      withinCap options [lineBytes] := by
  unfold LineFramerOptions.reportLine withinCap
  cases h : options.exceeds (options.trimCr lineBytes).length <;> simp [h, FramerReport.line?]

variable (lines : List Bytes)

theorem consumeLines_lines :
    (consumeLines options false lines).1.filterMap FramerReport.line? =
      withinCap options lines := by
  induction lines with
  | nil => rfl
  | cons lineBytes lines ih =>
    rw [consumeLines, if_neg Bool.false_ne_true, ← singleton_append, filterMap_append,
      line?_reportLine, ih, ← withinCap_append]
    rfl

theorem consumeLines_skipping_lines :
    (consumeLines options true lines).1.filterMap FramerReport.line? =
      withinCap options lines.tail := by
  cases lines with
  | nil => rfl
  | cons lineBytes lines => exact consumeLines_lines lines

theorem holdTail_lines (skipping : Bool) (buffer : Bytes) :
    (holdTail options skipping buffer).1.filterMap FramerReport.line? = [] := by
  unfold holdTail
  split
  · rfl
  · split <;> rfl

/-- The chunk starts with the LF of a line that fits the cap only without its CR, and the tail
    before it is just that line. -/
def SplitsCrLf (options : LineFramerOptions) (stream chunk : Bytes) : Prop :=
  options.oversizedPolicy = .skipResync ∧ options.trimTrailingCr = true ∧
    options.maxLineBytes.any (fun maxLineBytes =>
      decide ((tailOf stream).length = maxLineBytes + 1)) = true ∧
    (tailOf stream).getLast? = some CR ∧ chunk.head? = some LF

instance (stream chunk : Bytes) : Decidable (SplitsCrLf options stream chunk) :=
  inferInstanceAs (Decidable (_ ∧ _ ∧ _ ∧ _ ∧ _))

/-- A chunk completes the segment it was given up in: it is within the cap only if nothing but
    the trimmed CR made it too long. -/
theorem withinCap_skipped {buffer more : Bytes} (h : options.skips buffer) :
    withinCap options [buffer ++ more] =
      if more = [] ∧ options.trimTrailingCr = true ∧
          options.maxLineBytes.any (fun maxLineBytes =>
            decide (buffer.length = maxLineBytes + 1)) = true ∧ buffer.getLast? = some CR then
        [buffer.dropLast]
      else [] := by
  obtain ⟨-, hexceeds⟩ := h
  unfold LineFramerOptions.exceeds at hexceeds
  cases hmax : options.maxLineBytes with
  | none => simp [hmax] at hexceeds
  | some maxLineBytes =>
    simp only [hmax, Option.any_some, decide_eq_true_eq] at hexceeds ⊢
    by_cases htrim : options.trimTrailingCr = true ∧ (buffer ++ more).getLast? = some CR
    · have hline : options.trimCr (buffer ++ more) = (buffer ++ more).dropLast := if_pos htrim
      cases more with
      | nil =>
        rw [append_nil] at *
        simp only [withinCap, map_cons, hline, LineFramerOptions.exceeds, hmax, htrim,
          true_and, and_true]
        by_cases hlength : buffer.length = maxLineBytes + 1
        · rw [if_pos hlength, filter_cons_of_pos (by simp [hlength])]
          rfl
        · rw [if_neg hlength, filter_cons_of_neg (by simp; omega)]
          rfl
      | cons b more =>
        rw [withinCap, map_cons, hline, filter_cons_of_neg]
        · rfl
        · simp [LineFramerOptions.exceeds, hmax]
          omega
    · have hline : options.trimCr (buffer ++ more) = buffer ++ more := if_neg htrim
      rw [withinCap, map_cons, hline, filter_cons_of_neg, if_neg]
      · rfl
      · rintro ⟨rfl, htrimCr, -, hlast⟩
        exact htrim ⟨htrimCr, by rw [append_nil]; exact hlast⟩
      · simp [LineFramerOptions.exceeds, hmax]
        omega

/-- The line within the cap that a chunk completes and the framer does not pass on. -/
def missed (options : LineFramerOptions) (stream chunk : Bytes) : List Bytes :=
  if SplitsCrLf options stream chunk then [(tailOf stream).dropLast] else []

theorem segments_head_nil (chunk : Bytes) :
    (∃ lines, (segments LF chunk).1 = [] :: lines) ↔ chunk.head? = some LF := by
  cases chunk with
  | nil => simp [segments]
  | cons b chunk =>
    by_cases hb : b = LF
    · simp [hb, segments_sep]
    · rw [segments_cons hb]
      rcases segments LF chunk with ⟨_ | ⟨segment, more⟩, rest⟩ <;> simp [joinFront, hb]

/-- **What one chunk passes on**: every line it completes within the cap, but the one it
    missed. -/
theorem completed_eq (hbuffer : options.maxBufferBytes = none) (stream chunk : Bytes) :
    completed options stream chunk =
      missed options stream chunk ++
        ((framerAt options stream).push options chunk).1.filterMap FramerReport.line? := by
  rw [push_eq hbuffer]
  simp only [filterMap_append, holdTail_lines, append_nil]
  by_cases hskips : options.skips (tailOf stream)
  · rw [framerAt, if_pos hskips]
    simp only [nil_append, consumeLines_skipping_lines]
    rw [completed, segments_tail, missed]
    have hhead := segments_head_nil chunk
    rcases hs : segments LF chunk with ⟨_ | ⟨segment, more⟩, rest⟩ <;> rw [hs] at hhead
    · -- no LF in the chunk: nothing is completed
      rw [if_neg]
      · rfl
      · rintro ⟨-, -, -, -, hstart⟩
        obtain ⟨lines, hlines⟩ := hhead.mpr hstart
        cases hlines
    · have hsegment : segment = [] ↔ chunk.head? = some LF := by
        rw [← hhead]
        constructor
        · rintro rfl
          exact ⟨more, rfl⟩
        · rintro ⟨lines, hlines⟩
          exact (List.cons.inj hlines).1
      rw [joinFront, ← singleton_append, withinCap_append, withinCap_skipped hskips]
      congr 1
      apply if_congr _ rfl rfl
      rw [hsegment]
      constructor
      · rintro ⟨hstart, htrim, hlength, hlast⟩
        exact ⟨hskips.1, htrim, hlength, hlast, hstart⟩
      · rintro ⟨-, htrim, hlength, hlast, hstart⟩
        exact ⟨hstart, htrim, hlength, hlast⟩
  · rw [framerAt, if_neg hskips, missed, if_neg]
    · exact (consumeLines_lines _).symm
    · rintro ⟨hpolicy, -, hlength, -, -⟩
      refine hskips ⟨hpolicy, ?_⟩
      unfold LineFramerOptions.exceeds
      obtain ⟨maxLineBytes, hmax, heq⟩ := (Option.any_eq_true _ _).mp hlength
      rw [hmax, Option.any_some, decide_eq_true_eq, of_decide_eq_true heq]
      exact Nat.lt_succ_self _

/-! ### A whole stream -/

def missedAll (options : LineFramerOptions) (stream : Bytes) : List Bytes → List Bytes
  | [] => []
  | chunk :: chunks =>
    missed options stream chunk ++ missedAll options (stream ++ chunk) chunks

def ChunksSplitCrLf (options : LineFramerOptions) (chunks : List Bytes) : Prop :=
  ∃ front chunk back, chunks = front ++ chunk :: back ∧ SplitsCrLf options front.flatten chunk

theorem missedAll_eq_nil_iff (stream : Bytes) (chunks : List Bytes) :
    missedAll options stream chunks = [] ↔
      ∀ front chunk back, chunks = front ++ chunk :: back →
        ¬ SplitsCrLf options (stream ++ front.flatten) chunk := by
  induction chunks generalizing stream with
  | nil =>
    refine iff_of_true rfl fun front chunk back h => ?_
    cases front <;> cases h
  | cons first chunks ih =>
    have hfirst : missed options stream first = [] ↔ ¬ SplitsCrLf options stream first := by
      unfold missed
      split <;> simp [*]
    rw [missedAll, append_eq_nil_iff, hfirst, ih]
    constructor
    · rintro ⟨hnot, hrest⟩ front chunk back h
      cases front with
      | nil =>
        obtain ⟨rfl, -⟩ := List.cons.inj h
        rwa [flatten_nil, append_nil]
      | cons _ front =>
        obtain ⟨rfl, hchunks⟩ := List.cons.inj h
        rw [flatten_cons, ← append_assoc]
        exact hrest front chunk back hchunks
    · intro h
      constructor
      · have hnone := h [] first chunks rfl
        rwa [flatten_nil, append_nil] at hnone
      · intro front chunk back hchunks
        have hnone := h (first :: front) chunk back (by rw [hchunks, cons_append])
        rwa [flatten_cons, ← append_assoc] at hnone

theorem missedAll_nil_iff (chunks : List Bytes) :
    missedAll options [] chunks = [] ↔ ¬ ChunksSplitCrLf options chunks := by
  rw [missedAll_eq_nil_iff]
  unfold ChunksSplitCrLf
  push Not
  rfl

/-- **A run**: what was passed on and what was missed are the lines of the stream. -/
theorem completed_pushAll (hbuffer : options.maxBufferBytes = none) (stream : Bytes)
    (chunks : List Bytes) :
    (completed options stream chunks.flatten).length =
        (missedAll options stream chunks).length +
          (((framerAt options stream).pushAll options chunks).1.filterMap
            FramerReport.line?).length ∧
      (missedAll options stream chunks = [] →
        ((framerAt options stream).pushAll options chunks).1.filterMap FramerReport.line? =
          completed options stream chunks.flatten) := by
  induction chunks generalizing stream with
  | nil =>
    have hnone : completed options stream [] = [] := by
      rw [completed, append_nil, show tailOf stream = tailOf stream ++ [] from
        (append_nil _).symm, segments_tail]
      rfl
    exact ⟨by simp [hnone, missedAll, LineFramer.pushAll], fun _ => hnone.symm⟩
  | cons chunk chunks ih =>
    obtain ⟨hlength, hlines⟩ := ih (stream ++ chunk)
    have hchunk := completed_eq hbuffer stream chunk
    rw [LineFramer.pushAll, push_framerAt hbuffer, flatten_cons, completed_append, missedAll]
    simp only [filterMap_append, length_append]
    constructor
    · rw [hchunk, length_append]
      omega
    · intro hnone
      obtain ⟨hhere, hrest⟩ := append_eq_nil_iff.mp hnone
      rw [hlines hrest, hchunk, hhere, nil_append]

theorem framerAt_nil : framerAt options [] = {} := by
  refine if_neg fun h => ?_
  have hexceeds := h.2
  unfold LineFramerOptions.exceeds at hexceeds
  cases hmax : options.maxLineBytes <;> simp [tailOf, segments] at hexceeds

/-- The lines passed to `onLine` while a stream arrives in the given chunks. -/
def linesOf (options : LineFramerOptions) (chunks : List Bytes) : List (List Char) :=
  onLine (LineFramer.pushAll options {} chunks).1

theorem linesOf_eq_iff (hbuffer : options.maxBufferBytes = none) (chunks : List Bytes) :
    linesOf options chunks = (framed options chunks.flatten).map Utf8.decode ↔
      ¬ ChunksSplitCrLf options chunks := by
  obtain ⟨hlength, hlines⟩ := completed_pushAll hbuffer [] chunks
  rw [framerAt_nil, completed_nil] at hlength hlines
  rw [← missedAll_nil_iff, linesOf, onLine]
  constructor
  · intro h
    -- every missed line makes the framer's lines fewer than the stream's
    have hcount := congrArg List.length h
    rw [length_map, length_map] at hcount
    exact length_eq_zero_iff.mp (by omega)
  · intro h
    rw [hlines h]

/-- **Chunking.**  Two ways of splitting a stream pass on the same lines, those of the stream
    within the cap, exactly when neither splits the CR LF of a line that needs its CR trimmed to
    fit. -/
theorem framing_independent_iff (options : LineFramerOptions)
    (hbuffer : options.maxBufferBytes = none) (stream : Bytes) (chunks chunks' : List Bytes)
    (hchunks : chunks.flatten = stream) (hchunks' : chunks'.flatten = stream) :
    (linesOf options chunks = linesOf options chunks' ∧
        linesOf options chunks = (framed options stream).map Utf8.decode) ↔
      ¬ ChunksSplitCrLf options chunks ∧ ¬ ChunksSplitCrLf options chunks' := by
  rw [← linesOf_eq_iff hbuffer chunks, ← linesOf_eq_iff hbuffer chunks', hchunks, hchunks']
  constructor
  · rintro ⟨hsame, hlines⟩
    exact ⟨hlines, hsame ▸ hlines⟩
  · rintro ⟨hlines, hlines'⟩
    exact ⟨hlines.trans hlines'.symm, hlines⟩

/-- The options of the client that skips oversized lines of a CRLF peer, with a cap of two. -/
def crlfClient : LineFramerOptions where
  maxLineBytes := some 2
  oversizedPolicy := .skipResync
  trimTrailingCr := true

/-- A line of exactly the cap arrives in one chunk, or with its LF in a second one: the second
    time it is lost. -/
theorem framing_depends_on_chunks :
    ¬ ∀ (options : LineFramerOptions) (stream : Bytes) (chunks chunks' : List Bytes),
      options.maxBufferBytes = none → chunks.flatten = stream → chunks'.flatten = stream →
        linesOf options chunks = linesOf options chunks' ∧
          linesOf options chunks = (framed options stream).map Utf8.decode := by
  intro h
  have hsame := (h crlfClient [97, 98, CR, LF] [[97, 98, CR, LF]] [[97, 98, CR], [LF]] rfl rfl
    rfl).1
  revert hsame
  decide

/-- The same line cut elsewhere is passed on. -/
theorem framing_independent_of_cut :
    linesOf crlfClient [[97], [98, CR, LF]] = linesOf crlfClient [[97, 98, CR, LF]] ∧
      linesOf crlfClient [[97], [98, CR, LF]] =
        (framed crlfClient [97, 98, CR, LF]).map Utf8.decode := by
  refine (framing_independent_iff crlfClient rfl [97, 98, CR, LF] [[97], [98, CR, LF]]
    [[97, 98, CR, LF]] rfl rfl).mpr ⟨?_, ?_⟩
  · exact (missedAll_nil_iff _).mp (by decide)
  · exact (missedAll_nil_iff _).mp (by decide)

end Lines

end RelayIde.Framing
