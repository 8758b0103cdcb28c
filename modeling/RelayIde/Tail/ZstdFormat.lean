import RelayIde.Tail.Zstd

/-!
# The Zstd Frame Format

Frames as the format lays them out, and the structural scan on any part of a log of them.
-/

namespace RelayIde.Tail.Zstd

open List RelayIde.Tail
open Library.Utf8 (Bytes)

inductive BlockType
  | raw | rle | compressed

def BlockType.code : BlockType → ℕ
  | .raw => 0
  | .rle => 1
  | .compressed => 2

/-- A block; the size of an RLE block counts the repetitions of its one byte. -/
structure Block where
  type : BlockType
  size : ℕ
  content : Bytes
  length_content : content.length = match type with
    | .rle => 1
    | .raw | .compressed => size

def Block.header (b : Block) (last : Bool) : ℕ := last.toNat + 2 * b.type.code + 8 * b.size

/-- The header takes three bytes, low byte first; a valid size takes twenty-one bits of it. -/
def Block.bytes (b : Block) (last : Bool) : Bytes :=
  [b.header last % 256, b.header last / 256 % 256, b.header last / 65536] ++ b.content

/-- A frame.  Its reserved bit is zero, and so is its unused one. -/
structure Frame where
  contentSizeFlag : Fin 4
  singleSegment : Bool
  checksumFlag : Bool
  dictionaryFlag : Fin 4
  window : Bytes
  dictionaryId : Bytes
  contentSize : Bytes
  blocks : List Block
  last : Block
  checksum : Bytes
  length_window : window.length = if singleSegment then 0 else 1
  length_dictionaryId : dictionaryId.length = [0, 1, 2, 4][dictionaryFlag]
  length_contentSize : contentSize.length = [singleSegment.toNat, 2, 4, 8][contentSizeFlag]
  length_checksum : checksum.length = if checksumFlag then 4 else 0

variable (f : Frame)

def Frame.descriptor : ℕ :=
  64 * f.contentSizeFlag + 32 * f.singleSegment.toNat + 4 * f.checksumFlag.toNat + f.dictionaryFlag

/-- The blocks, the last of which is marked. -/
def Frame.body : Bytes := f.blocks.flatMap (·.bytes false) ++ f.last.bytes true

def Frame.bytes : Bytes :=
  [0x28, 0xB5, 0x2F, 0xFD] ++ f.descriptor ::
    (f.window ++ f.dictionaryId ++ f.contentSize ++ (f.body ++ f.checksum))

theorem scanBlocks_bytes (b : Block) (last : Bool) (rest : Bytes) :
    scanBlocks (b.bytes last ++ rest) = if last then .frame rest else scanBlocks rest := by
  have hheader : b.header last % 256 + 256 * (b.header last / 256 % 256) +
      65536 * (b.header last / 65536) = b.header last := by omega
  have htype : b.header last / 2 % 4 = b.type.code := by
    unfold Block.header
    cases b.type <;> cases last <;>
      simp only [BlockType.code, Bool.toNat, cond_true, cond_false] <;> omega
  have hlast : b.header last % 2 = 1 ↔ last = true := by
    unfold Block.header
    cases last <;>
      simp only [Bool.toNat, cond_true, cond_false, reduceCtorEq, iff_true, iff_false] <;> omega
  have hpayload : payloadBytes (b.header last) = b.content.length := by
    have hsize : b.header last / 8 = b.size := by
      unfold Block.header
      cases b.type <;> cases last <;>
        simp only [BlockType.code, Bool.toNat, cond_true, cond_false] <;> omega
    rw [payloadBytes, htype, hsize, b.length_content]
    cases b.type <;> rfl
  rw [Block.bytes, append_assoc, cons_append, cons_append, cons_append, scanBlocks, hheader, htype,
    if_neg (by cases b.type <;> decide), hpayload, nil_append,
    if_neg (by rw [length_append]; omega), drop_left]
  simp only [hlast]

theorem scanBlocks_body (rest : Bytes) : scanBlocks (f.body ++ rest) = .frame rest := by
  unfold Frame.body
  induction f.blocks with
  | nil => rw [flatMap_nil, nil_append, scanBlocks_bytes, if_pos rfl]
  | cons b blocks ih =>
    rw [flatMap_cons, append_assoc, append_assoc, scanBlocks_bytes, if_neg Bool.false_ne_true,
      ← append_assoc, ih]

theorem completeFrame_bytes : CompleteFrame f.bytes := by
  have hreserved : f.descriptor / 8 % 4 = 0 := by
    unfold Frame.descriptor
    have := f.dictionaryFlag.isLt
    cases f.singleSegment <;> cases f.checksumFlag <;>
      simp only [Bool.toNat, cond_true, cond_false] <;> omega
  have hheader : remainingHeaderBytes f.descriptor =
      (f.window ++ f.dictionaryId ++ f.contentSize).length := by
    rw [length_append, length_append, f.length_window, f.length_dictionaryId, f.length_contentSize]
    unfold Frame.descriptor
    generalize f.contentSizeFlag = size, f.dictionaryFlag = dictionary, f.singleSegment = single,
      f.checksumFlag = checksum
    revert size dictionary single checksum
    decide
  have hchecksum : scanChecksum f.descriptor f.checksum = .frame [] := by
    have hflag : f.descriptor / 4 % 2 = 1 ↔ f.checksumFlag = true := by
      unfold Frame.descriptor
      have := f.dictionaryFlag.isLt
      cases f.singleSegment <;> cases f.checksumFlag <;>
        simp only [Bool.toNat, cond_true, cond_false, reduceCtorEq, iff_true, iff_false] <;> omega
    unfold scanChecksum
    have hlength := f.length_checksum
    simp only [hflag]
    split
    · rename_i hon
      rw [if_pos hon] at hlength
      rw [if_neg (by omega), drop_of_length_le (by omega)]
    · rename_i hoff
      rw [if_neg hoff] at hlength
      rw [length_eq_zero_iff.mp hlength]
  have hbody : scanBody (f.descriptor ::
      (f.window ++ f.dictionaryId ++ f.contentSize ++ (f.body ++ f.checksum))) = .frame [] := by
    rw [scanBody, if_neg (by omega), hheader, if_neg (by rw [length_append]; omega), drop_left,
      scanBlocks_body]
    exact hchecksum
  rw [CompleteFrame, Frame.bytes, cons_append, cons_append, cons_append, cons_append, nil_append,
    scanFrame, if_neg (by decide)]
  exact hbody

/-- **Torn tails.** On any part of a log of frames the scan throws nothing, and finds the frames
    that lie in the part, one after the other. -/
theorem scanFramesFrom_take (frames : List Frame) (n : ℕ) :
    scanFramesFrom ((frames.map Frame.bytes).flatten.take n) =
      some (rangesFrom 0 (completeIn n (frames.map Frame.bytes))) := by
  refine scanRanges_take (fun frame hframe => ?_) (le_refl _) 0
  obtain ⟨f, -, rfl⟩ := mem_map.mp hframe
  exact completeFrame_bytes f

/-- A frame of a raw block, one byte three times, and a compressed block. -/
def threeBlocks : Frame where
  contentSizeFlag := 0
  singleSegment := true
  checksumFlag := true
  dictionaryFlag := 0
  window := []
  dictionaryId := []
  contentSize := [9]
  blocks := [⟨.raw, 2, [1, 2], rfl⟩, ⟨.rle, 3, [7], rfl⟩]
  last := ⟨.compressed, 2, [5, 6], rfl⟩
  checksum := [0, 0, 0, 0]
  length_window := rfl
  length_dictionaryId := rfl
  length_contentSize := rfl
  length_checksum := rfl

/-- Two frames, the second one torn. -/
theorem scanFramesFrom_take_threeBlocks :
    scanFramesFrom (([threeBlocks, threeBlocks].map Frame.bytes).flatten.take 40) =
      some [(0, 24)] :=
  (scanFramesFrom_take [threeBlocks, threeBlocks] 40).trans (by decide)

end RelayIde.Tail.Zstd
