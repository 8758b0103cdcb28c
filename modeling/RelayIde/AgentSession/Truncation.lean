import RelayIde.AgentSession.TranscriptCap

/-!
# Cutting a Text to Bytes

What `truncateToBytes` keeps of a text: its search runs over UTF-16 code units, and its bound is one
of UTF-8 bytes.
-/

namespace RelayIde.AgentSession

open RelayIde.Library RelayIde.Library.JsText List

def elisionMarker (elided : ℕ) : JsText :=
  utf16 "\n… [truncated " ++ (Json.decimal elided ++ utf16 " bytes]")

theorem lt_of_mem_elisionMarker {elided w : ℕ} (h : w ∈ elisionMarker elided) : w < 0xD800 := by
  have hfront : ∀ w ∈ utf16 "\n… [truncated ", w < 0xD800 := by decide
  have hback : ∀ w ∈ utf16 " bytes]", w < 0xD800 := by decide
  obtain hw | hw | hw : _ ∨ _ ∨ _ := by simpa only [elisionMarker, mem_append] using h
  · exact hfront w hw
  · have hdigit := Json.mem_decimal hw
    omega
  · exact hback w hw

theorem wellFormed_elisionMarker (elided : ℕ) : WellFormed (elisionMarker elided) := by
  apply wellFormed_of_forall
  intro w hw
  have hlow := lt_of_mem_elisionMarker hw
  rw [← Bool.not_eq_true, isSurrogate_iff]
  omega

/-- A text that fits stays, and of one that does not, whole characters stay, and the marker counts
    the bytes of the others. -/
def CutsWhole (input : JsText) (maxBytes : ℕ) : Prop :=
  if byteLength input ≤ maxBytes then truncateToBytes input maxBytes = input
  else byteLength (truncateToBytes input maxBytes) ≤ maxBytes ∧
    ∃ kept, kept <+: input ∧ WellFormed kept ∧
      truncateToBytes input maxBytes =
        kept ++ elisionMarker (byteLength input - byteLength kept)

section

variable {input before : JsText} {target lo hi maxBytes u v : ℕ}

theorem longestFit_spec (hle : lo ≤ hi) : longestFit input target lo hi ≤ hi ∧
    (longestFit input target lo hi < hi →
      target < byteLength (input.take (longestFit input target lo hi + 1))) := by
  induction hn : hi - lo using Nat.strong_induction_on generalizing lo hi with
  | _ n ih =>
    unfold longestFit
    split
    · simp only
      split
      · exact ih _ (by omega) (by omega) rfl
      · next hlong =>
        obtain ⟨hbound, hnext⟩ := ih ((lo + hi + 1) / 2 - 1 - lo) (by omega)
          (show lo ≤ (lo + hi + 1) / 2 - 1 by omega) rfl
        refine ⟨by omega, fun _ => ?_⟩
        obtain heq | hlt := Nat.eq_or_lt_of_le hbound
        · rw [heq, Nat.sub_add_cancel (by omega)]
          exact Nat.lt_of_not_le hlong
        · exact hnext hlt
    · exact ⟨by omega, fun _ => by omega⟩

theorem half_not_text (hu : isHighSurrogate u = true) (elided : ℕ) :
    toWellFormed ([u] ++ elisionMarker elided) ≠ [u] ++ elisionMarker elided := by
  have hsurrogate : isSurrogate u = true := by rw [isSurrogate, hu, Bool.true_or]
  have hreplaced : replaceSurrogate u ≠ u := fun heq => by
    rw [replaceSurrogate_eq_iff, hsurrogate] at heq
    cases heq
  cases hmarker : elisionMarker elided with
  | nil =>
    intro heq
    exact hreplaced (List.cons.inj heq).1
  | cons w rest =>
    have hw : isLowSurrogate w = false := by
      have hlow := lt_of_mem_elisionMarker (hmarker ▸ mem_cons_self : w ∈ elisionMarker elided)
      rw [← Bool.not_eq_true, isLowSurrogate_iff]
      omega
    rw [singleton_append, toWellFormed, hw, Bool.and_false, if_neg Bool.false_ne_true]
    intro heq
    exact hreplaced (List.cons.inj heq).1

/-- The number of code units that are kept. -/
def keptLength (input : JsText) (maxBytes : ℕ) : ℕ :=
  longestFit input (maxBytes - 48) 0 input.length

theorem truncateToBytes_of_lt (h : maxBytes < byteLength input) :
    truncateToBytes input maxBytes = input.take (keptLength input maxBytes) ++
      elisionMarker (byteLength input - byteLength (input.take (keptLength input maxBytes))) := by
  unfold truncateToBytes elisionMarker
  rw [if_neg (Nat.not_le_of_lt h), append_assoc, append_assoc]
  rfl

theorem keptLength_spec (h : maxBytes < byteLength input) :
    byteLength (input.take (keptLength input maxBytes)) ≤ maxBytes - 48 ∧
      maxBytes - 48 < byteLength (input.take (keptLength input maxBytes + 1)) := by
  have hfits := byteLength_longestFit_le input (maxBytes - 48) 0 input.length (Nat.zero_le _)
  refine ⟨hfits, ?_⟩
  obtain ⟨hbound, hnext⟩ : longestFit input (maxBytes - 48) 0 input.length ≤ input.length ∧ _ :=
    longestFit_spec (Nat.zero_le input.length)
  obtain heq | hlt := Nat.eq_or_lt_of_le hbound
  · rw [heq, take_length] at hfits
    omega
  · exact hnext hlt

theorem not_cutsWhole_of_pair (hlong : maxBytes < byteLength input) (hp : Pair input before u v)
    (hat : byteLength before + 51 = maxBytes) : ¬CutsWhole input maxBytes := by
  obtain ⟨hhalf, hboth⟩ := hp.byteLength_half
  obtain ⟨hfits, hnext⟩ := keptLength_spec hlong
  set k := keptLength input maxBytes with hk
  obtain ⟨htake1, htake2⟩ := hp.take
  have hlength : k = before.length + 1 := by
    apply Nat.le_antisymm
    · by_contra hmore
      have hmono := byteLength_le_of_isPrefix
        (take_prefix_take_left (l := input) (show before.length + 2 ≤ k by omega))
      rw [htake2, hboth] at hmono
      omega
    · by_contra hless
      have hmono := byteLength_le_of_isPrefix
        (take_prefix_take_left (l := input) (show k + 1 ≤ before.length + 1 by omega))
      rw [htake1, hhalf] at hmono
      omega
  rw [CutsWhole, if_neg (Nat.not_le_of_lt hlong)]
  rintro ⟨-, kept, -, hkept, heq⟩
  -- the text that comes out has a half character in it, and is no text
  have hout := hkept.append (wellFormed_elisionMarker (byteLength input - byteLength kept))
  rw [← heq, truncateToBytes_of_lt hlong, ← hk, hlength, htake1, append_assoc, WellFormed,
    toWellFormed_append hp.whole, append_cancel_left_eq] at hout
  exact half_not_text hp.high _ hout

/-- Three bytes are left for the first character, which takes four: its half is kept. -/
theorem not_cutsWhole_face : WellFormed (0xD83D :: 0xDE00 :: replicate 48 97) ∧
    ¬CutsWhole (0xD83D :: 0xDE00 :: replicate 48 97) 51 := by
  refine ⟨by decide, ?_⟩
  have hp : Pair (0xD83D :: 0xDE00 :: replicate 48 97) [] 0xD83D 0xDE00 :=
    ⟨⟨replicate 48 97, rfl⟩, rfl, rfl, rfl⟩
  exact not_cutsWhole_of_pair (by decide) hp rfl

/-- **Byte truncation.** It cuts between characters exactly if the text fits, or no character of two
    code units starts where three bytes are left. -/
theorem cutsWhole_iff (hinput : WellFormed input) (hstring : input.length < stringLengthLimit)
    (hroom : 48 ≤ maxBytes) : CutsWhole input maxBytes ↔ byteLength input ≤ maxBytes ∨
      ∀ before u v, Pair input before u v → byteLength before + 51 ≠ maxBytes := by
  obtain hfit | hlong := Nat.lt_or_ge maxBytes (byteLength input) |>.symm
  · rw [CutsWhole, if_pos hfit]
    exact iff_of_true (truncateToBytes_of_le hfit) (.inl hfit)
  · rw [or_iff_right (Nat.not_le_of_lt hlong)]
    refine ⟨fun hcuts before u v hp hat => not_cutsWhole_of_pair hlong hp hat hcuts, ?_⟩
    intro hnone
    rw [CutsWhole, if_neg (Nat.not_le_of_lt hlong)]
    refine ⟨byteLength_truncateToBytes_le hstring hroom, _, ( take_prefix _ _), ?_,
      truncateToBytes_of_lt hlong⟩
    obtain hwhole | ⟨before, u, v, hp, hk⟩ := hinput.take (keptLength input maxBytes)
    · exact hwhole
    · obtain ⟨hhalf, hboth⟩ := hp.byteLength_half
      obtain ⟨hfits, hnext⟩ := keptLength_spec hlong
      obtain ⟨htake1, htake2⟩ := hp.take
      rw [hk, htake1, hhalf] at hfits
      rw [hk, htake2, hboth] at hnext
      exact absurd (by omega) (hnone before u v hp)

end

theorem cutsWhole_ascii : CutsWhole (replicate 60 97) 50 := by
  refine (cutsWhole_iff (by decide) (by decide) (by decide)).mpr (.inr ?_)
  intro before u v hp
  have hu : u ∈ replicate 60 97 := hp.part.mem (mem_append_right _ mem_cons_self)
  have hhigh := hp.high
  rw [eq_of_mem_replicate hu] at hhigh
  cases hhigh

end RelayIde.AgentSession
