/-
`str.lower` for every Unicode text.

The simple lower cases stand in a table of ranges, each of them moved as a whole, as the
Unicode data of Python 3.12 has them.  Two capital letters have rules of their own: the dotted
capital I becomes two characters, and the capital sigma becomes a final one where a word ends.
Where that is depends on the letters around it, and is a parameter here.
-/
import Rcp.Common.Values

namespace Rcp
namespace Unicode

/-! ## The table -/

/-- Every `step`-th code point from `first` to `last` has a lower case, `first` that at
`lower` and the others as far behind it as they stand behind `first`. -/
structure CaseRange where
  first : Nat
  last : Nat
  step : Nat
  lower : Nat
  deriving DecidableEq

namespace CaseRange

def holds (r : CaseRange) (n : Nat) : Bool :=
  decide (r.first ≤ n ∧ n ≤ r.last ∧ (n - r.first) % r.step = 0)

def image (r : CaseRange) (n : Nat) : Nat := r.lower + (n - r.first)

end CaseRange

def caseRanges : List CaseRange :=
  [⟨65, 90, 1, 97⟩, ⟨192, 214, 1, 224⟩, ⟨216, 222, 1, 248⟩, ⟨256, 302, 2, 257⟩,
    ⟨306, 310, 2, 307⟩, ⟨313, 327, 2, 314⟩, ⟨330, 374, 2, 331⟩, ⟨376, 376, 2, 255⟩,
    ⟨377, 381, 2, 378⟩, ⟨385, 385, 2, 595⟩, ⟨386, 388, 2, 387⟩, ⟨390, 390, 2, 596⟩,
    ⟨391, 391, 2, 392⟩, ⟨393, 394, 1, 598⟩, ⟨395, 395, 2, 396⟩, ⟨398, 398, 2, 477⟩,
    ⟨399, 399, 2, 601⟩, ⟨400, 400, 2, 603⟩, ⟨401, 401, 2, 402⟩, ⟨403, 403, 2, 608⟩,
    ⟨404, 404, 2, 611⟩, ⟨406, 406, 2, 617⟩, ⟨407, 407, 2, 616⟩, ⟨408, 408, 2, 409⟩,
    ⟨412, 412, 2, 623⟩, ⟨413, 413, 2, 626⟩, ⟨415, 415, 2, 629⟩, ⟨416, 420, 2, 417⟩,
    ⟨422, 422, 2, 640⟩, ⟨423, 423, 2, 424⟩, ⟨425, 425, 2, 643⟩, ⟨428, 428, 2, 429⟩,
    ⟨430, 430, 2, 648⟩, ⟨431, 431, 2, 432⟩, ⟨433, 434, 1, 650⟩, ⟨435, 437, 2, 436⟩,
    ⟨439, 439, 2, 658⟩, ⟨440, 440, 2, 441⟩, ⟨444, 444, 2, 445⟩, ⟨452, 452, 2, 454⟩,
    ⟨453, 453, 2, 454⟩, ⟨455, 455, 2, 457⟩, ⟨456, 456, 2, 457⟩, ⟨458, 458, 2, 460⟩,
    ⟨459, 475, 2, 460⟩, ⟨478, 494, 2, 479⟩, ⟨497, 497, 2, 499⟩, ⟨498, 500, 2, 499⟩,
    ⟨502, 502, 2, 405⟩, ⟨503, 503, 2, 447⟩, ⟨504, 542, 2, 505⟩, ⟨544, 544, 2, 414⟩,
    ⟨546, 562, 2, 547⟩, ⟨570, 570, 2, 11365⟩, ⟨571, 571, 2, 572⟩, ⟨573, 573, 2, 410⟩,
    ⟨574, 574, 2, 11366⟩, ⟨577, 577, 2, 578⟩, ⟨579, 579, 2, 384⟩, ⟨580, 580, 2, 649⟩,
    ⟨581, 581, 2, 652⟩, ⟨582, 590, 2, 583⟩, ⟨880, 882, 2, 881⟩, ⟨886, 886, 2, 887⟩,
    ⟨895, 895, 2, 1011⟩, ⟨902, 902, 2, 940⟩, ⟨904, 906, 1, 941⟩, ⟨908, 908, 2, 972⟩,
    ⟨910, 911, 1, 973⟩, ⟨913, 929, 1, 945⟩, ⟨931, 939, 1, 963⟩, ⟨975, 975, 2, 983⟩,
    ⟨984, 1006, 2, 985⟩, ⟨1012, 1012, 2, 952⟩, ⟨1015, 1015, 2, 1016⟩, ⟨1017, 1017, 2, 1010⟩,
    ⟨1018, 1018, 2, 1019⟩, ⟨1021, 1023, 1, 891⟩, ⟨1024, 1039, 1, 1104⟩, ⟨1040, 1071, 1, 1072⟩,
    ⟨1120, 1152, 2, 1121⟩, ⟨1162, 1214, 2, 1163⟩, ⟨1216, 1216, 2, 1231⟩, ⟨1217, 1229, 2, 1218⟩,
    ⟨1232, 1326, 2, 1233⟩, ⟨1329, 1366, 1, 1377⟩, ⟨4256, 4293, 1, 11520⟩, ⟨4295, 4295, 2, 11559⟩,
    ⟨4301, 4301, 2, 11565⟩, ⟨5024, 5103, 1, 43888⟩, ⟨5104, 5109, 1, 5112⟩, ⟨7312, 7354, 1, 4304⟩,
    ⟨7357, 7359, 1, 4349⟩, ⟨7680, 7828, 2, 7681⟩, ⟨7838, 7838, 2, 223⟩, ⟨7840, 7934, 2, 7841⟩,
    ⟨7944, 7951, 1, 7936⟩, ⟨7960, 7965, 1, 7952⟩, ⟨7976, 7983, 1, 7968⟩, ⟨7992, 7999, 1, 7984⟩,
    ⟨8008, 8013, 1, 8000⟩, ⟨8025, 8031, 2, 8017⟩, ⟨8040, 8047, 1, 8032⟩, ⟨8072, 8079, 1, 8064⟩,
    ⟨8088, 8095, 1, 8080⟩, ⟨8104, 8111, 1, 8096⟩, ⟨8120, 8121, 1, 8112⟩, ⟨8122, 8123, 1, 8048⟩,
    ⟨8124, 8124, 2, 8115⟩, ⟨8136, 8139, 1, 8050⟩, ⟨8140, 8140, 2, 8131⟩, ⟨8152, 8153, 1, 8144⟩,
    ⟨8154, 8155, 1, 8054⟩, ⟨8168, 8169, 1, 8160⟩, ⟨8170, 8171, 1, 8058⟩, ⟨8172, 8172, 2, 8165⟩,
    ⟨8184, 8185, 1, 8056⟩, ⟨8186, 8187, 1, 8060⟩, ⟨8188, 8188, 2, 8179⟩, ⟨8486, 8486, 2, 969⟩,
    ⟨8490, 8490, 2, 107⟩, ⟨8491, 8491, 2, 229⟩, ⟨8498, 8498, 2, 8526⟩, ⟨8544, 8559, 1, 8560⟩,
    ⟨8579, 8579, 2, 8580⟩, ⟨9398, 9423, 1, 9424⟩, ⟨11264, 11311, 1, 11312⟩,
    ⟨11360, 11360, 2, 11361⟩, ⟨11362, 11362, 2, 619⟩, ⟨11363, 11363, 2, 7549⟩,
    ⟨11364, 11364, 2, 637⟩, ⟨11367, 11371, 2, 11368⟩, ⟨11373, 11373, 2, 593⟩,
    ⟨11374, 11374, 2, 625⟩, ⟨11375, 11375, 2, 592⟩, ⟨11376, 11376, 2, 594⟩,
    ⟨11378, 11378, 2, 11379⟩, ⟨11381, 11381, 2, 11382⟩, ⟨11390, 11391, 1, 575⟩,
    ⟨11392, 11490, 2, 11393⟩, ⟨11499, 11501, 2, 11500⟩, ⟨11506, 11506, 2, 11507⟩,
    ⟨42560, 42604, 2, 42561⟩, ⟨42624, 42650, 2, 42625⟩, ⟨42786, 42798, 2, 42787⟩,
    ⟨42802, 42862, 2, 42803⟩, ⟨42873, 42875, 2, 42874⟩, ⟨42877, 42877, 2, 7545⟩,
    ⟨42878, 42886, 2, 42879⟩, ⟨42891, 42891, 2, 42892⟩, ⟨42893, 42893, 2, 613⟩,
    ⟨42896, 42898, 2, 42897⟩, ⟨42902, 42920, 2, 42903⟩, ⟨42922, 42922, 2, 614⟩,
    ⟨42923, 42923, 2, 604⟩, ⟨42924, 42924, 2, 609⟩, ⟨42925, 42925, 2, 620⟩,
    ⟨42926, 42926, 2, 618⟩, ⟨42928, 42928, 2, 670⟩, ⟨42929, 42929, 2, 647⟩,
    ⟨42930, 42930, 2, 669⟩, ⟨42931, 42931, 2, 43859⟩, ⟨42932, 42946, 2, 42933⟩,
    ⟨42948, 42948, 2, 42900⟩, ⟨42949, 42949, 2, 642⟩, ⟨42950, 42950, 2, 7566⟩,
    ⟨42951, 42953, 2, 42952⟩, ⟨42960, 42960, 2, 42961⟩, ⟨42966, 42968, 2, 42967⟩,
    ⟨42997, 42997, 2, 42998⟩, ⟨65313, 65338, 1, 65345⟩, ⟨66560, 66599, 1, 66600⟩,
    ⟨66736, 66771, 1, 66776⟩, ⟨66928, 66938, 1, 66967⟩, ⟨66940, 66954, 1, 66979⟩,
    ⟨66956, 66962, 1, 66995⟩, ⟨66964, 66965, 1, 67003⟩, ⟨68736, 68786, 1, 68800⟩,
    ⟨71840, 71871, 1, 71872⟩, ⟨93760, 93791, 1, 93792⟩, ⟨125184, 125217, 1, 125218⟩]

/-- The code point of the simple lower case. -/
def lowerCode (n : Nat) : Nat :=
  match caseRanges.find? fun r => r.holds n with
  | some r => r.image n
  | none => n

/-! ## Texts -/

/-- The lower case of one character, `final` saying whether a sigma stands at the end of a
word there. -/
def lowerChar (final : Bool) (c : Char) : List Char :=
  if c = 'Σ' then if final then ['ς'] else ['σ']
  else if c = 'İ' then ['i', Char.ofNat 0x307]
  else [Char.ofNat (lowerCode c.toNat)]

/-- The characters before the rest stand in reverse. -/
def lowerChars (finalSigma : List Char → List Char → Bool) : List Char → List Char → List Char
  | _, [] => []
  | before, c :: after =>
      lowerChar (finalSigma before after) c ++ lowerChars finalSigma (c :: before) after

/-- `s.lower()`. -/
def lower (finalSigma : List Char → List Char → Bool) (s : String) : String :=
  String.ofList (lowerChars finalSigma [] s.toList)

/-! ## Lower cases stay as they are

A pair of ranges is compared by its ends, and where two ranges of every other code point
overlap, by which of the code points they have. -/

/-- No image of the first range lies in the second. -/
def CaseRange.avoids (r r' : CaseRange) : Bool :=
  Nat.blt (r.lower + (r.last - r.first)) r'.first || Nat.blt r'.last r.lower ||
    (Nat.beq r.step 2 && Nat.beq r'.step 2 && Nat.beq ((r.lower + r'.first) % 2) 1)

theorem caseRanges_avoid :
    (caseRanges.all fun r => caseRanges.all fun r' => r.avoids r') = true := by
  decide +kernel

theorem CaseRange.avoids_holds {r r' : CaseRange} (h : r.avoids r' = true) {n : Nat}
    (hn : r.holds n = true) : r'.holds (r.image n) = false := by
  unfold holds at hn ⊢
  unfold avoids at h
  unfold image
  simp only [decide_eq_true_eq, decide_eq_false_iff_not, Bool.or_eq_true, Bool.and_eq_true,
    Nat.blt_eq, Nat.beq_eq] at h hn ⊢
  obtain ⟨hfirst, hlast, hstep⟩ := hn
  rcases h with (h | h) | ⟨⟨hr, hr'⟩, hparity⟩
  · omega
  · omega
  · rw [hr] at hstep
    rw [hr']
    omega

/-- Intervals that no lower case lies in: white space, the dotted capital I, and what is no
character. -/
def forbidden : List (Nat × Nat) :=
  [(9, 13), (28, 32), (0x85, 0x85), (0xa0, 0xa0), (0x1680, 0x1680), (0x2000, 0x200a),
    (0x2028, 0x2029), (0x202f, 0x202f), (0x205f, 0x205f), (0x3000, 0x3000), (304, 304),
    (0xd800, 0xdfff)]

/-- No image of the range lies in the interval. -/
def CaseRange.outside (r : CaseRange) (interval : Nat × Nat) : Bool :=
  Nat.blt (r.lower + (r.last - r.first)) interval.1 || Nat.blt interval.2 r.lower

theorem caseRanges_outside : (caseRanges.all fun r =>
    forbidden.all (r.outside ·) && Nat.blt (r.lower + (r.last - r.first)) 0x110000) = true := by
  decide +kernel

/-- A code point that is the lower case of another one. -/
structure Lowered (n : Nat) : Prop where
  unheld : ∀ r ∈ caseRanges, r.holds n = false
  outside : ∀ interval ∈ forbidden, n < interval.1 ∨ interval.2 < n
  bounded : n < 0x110000

theorem image_lowered {r : CaseRange} (hr : r ∈ caseRanges) {n : Nat} (hn : r.holds n = true) :
    Lowered (r.image n) := by
  have havoid := List.all_eq_true.mp caseRanges_avoid r hr
  have houtside := List.all_eq_true.mp caseRanges_outside r hr
  simp only [Bool.and_eq_true, Nat.blt_eq] at houtside
  have hlast : n ≤ r.last := by
    simp only [CaseRange.holds, decide_eq_true_eq] at hn
    exact hn.2.1
  have himage : r.lower ≤ r.image n ∧ r.image n ≤ r.lower + (r.last - r.first) := by
    unfold CaseRange.image
    omega
  refine ⟨fun r' hr' => ?_, fun interval hinterval => ?_, by omega⟩
  · exact CaseRange.avoids_holds (List.all_eq_true.mp havoid r' hr') hn
  · have hout := List.all_eq_true.mp houtside.1 interval hinterval
    simp only [CaseRange.outside, Bool.or_eq_true, Nat.blt_eq] at hout
    omega

theorem lowerCode_cases (n : Nat) :
    (lowerCode n = n ∧ ∀ r ∈ caseRanges, r.holds n = false) ∨ Lowered (lowerCode n) := by
  unfold lowerCode
  cases hfind : caseRanges.find? fun r => r.holds n with
  | none =>
      refine .inl ⟨rfl, fun r hr => ?_⟩
      simpa using List.find?_eq_none.mp hfind r hr
  | some r =>
      have hholds : r.holds n = true := by simpa using List.find?_some hfind
      exact .inr (image_lowered (List.mem_of_find?_eq_some hfind) hholds)

theorem lowerCode_of_unheld {n : Nat} (h : ∀ r ∈ caseRanges, r.holds n = false) :
    lowerCode n = n := by
  have hnone : (caseRanges.find? fun r => r.holds n) = none := by
    rw [List.find?_eq_none]
    intro r hr
    simp [h r hr]
  unfold lowerCode
  rw [hnone]

theorem Lowered.toNat {n : Nat} (h : Lowered n) : (Char.ofNat n).toNat = n := by
  have hsurrogate := h.outside (0xd800, 0xdfff) (by simp [forbidden])
  have hvalid : n.isValidChar := by
    rcases hsurrogate with hlt | hlt
    · exact .inl hlt
    · exact .inr ⟨hlt, h.bounded⟩
  rw [Char.ofNat, dif_pos hvalid]
  rfl

/-! ## Characters -/

/-- The character is its own lower case. -/
def Small (c : Char) : Prop := ∀ final, lowerChar final c = [c]

theorem small_of_unheld {c : Char} (h : ∀ r ∈ caseRanges, r.holds c.toNat = false)
    (hdotted : c ≠ 'İ') : Small c := by
  intro final
  have hsigma : c ≠ 'Σ' := by
    rintro rfl
    exact absurd (h ⟨931, 939, 1, 963⟩ (by decide +kernel)) (by decide)
  rw [lowerChar, if_neg hsigma, if_neg hdotted, lowerCode_of_unheld h, Char.ofNat_toNat]

theorem Lowered.small {n : Nat} (h : Lowered n) : Small (Char.ofNat n) := by
  refine small_of_unheld ?_ fun hdotted => ?_
  · rw [h.toNat]
    exact h.unheld
  · have hcode : n = 304 := by
      rw [← h.toNat, hdotted]
      rfl
    have hout := h.outside (304, 304) (by simp [forbidden])
    omega

theorem Lowered.not_space {n : Nat} (h : Lowered n) : isSpace (Char.ofNat n) = false := by
  have hout := h.outside
  simp only [forbidden, List.mem_cons, List.not_mem_nil, or_false, forall_eq_or_imp, forall_eq]
    at hout
  simp only [isSpace, h.toNat, Bool.or_eq_false_iff, Bool.and_eq_false_iff,
    decide_eq_false_iff_not, beq_eq_false_iff_ne, ne_eq]
  omega

theorem small_sigma : Small 'σ' ∧ Small 'ς' ∧ Small 'i' ∧ Small (Char.ofNat 0x307) ∧
    Small '_' := by
  refine ⟨?_, ?_, ?_, ?_, ?_⟩
  all_goals exact small_of_unheld (by decide +kernel) (by decide)

/-- What a character is lowered to is small, and is white space only if the character is. -/
theorem lowerChar_small {final : Bool} {c d : Char} (h : d ∈ lowerChar final c) :
    Small d ∧ (isSpace c = false → isSpace d = false) := by
  obtain ⟨hsigma, hfinal, hi, hdot, -⟩ := small_sigma
  unfold lowerChar at h
  split at h
  · split at h
    · rw [List.mem_singleton.mp h]
      exact ⟨hfinal, fun _ => by decide⟩
    · rw [List.mem_singleton.mp h]
      exact ⟨hsigma, fun _ => by decide⟩
  · split at h
    · rcases List.mem_cons.mp h with rfl | h
      · exact ⟨hi, fun _ => by decide⟩
      · rw [List.mem_singleton.mp h]
        exact ⟨hdot, fun _ => by decide⟩
    · rename_i hdotted
      rw [List.mem_singleton.mp h]
      rcases lowerCode_cases c.toNat with ⟨hsame, hunheld⟩ | hlowered
      · rw [hsame, Char.ofNat_toNat]
        exact ⟨small_of_unheld hunheld hdotted, id⟩
      · exact ⟨hlowered.small, fun _ => hlowered.not_space⟩

theorem lowerChar_ne_nil (final : Bool) (c : Char) : lowerChar final c ≠ [] := by
  unfold lowerChar
  split
  · split <;> simp
  · split <;> simp

/-! ## Texts that are lowered -/

section Texts

variable (finalSigma : List Char → List Char → Bool)

theorem lowerChars_small {before l : List Char} {d : Char}
    (h : d ∈ lowerChars finalSigma before l) : Small d := by
  induction l generalizing before with
  | nil => cases h
  | cons c rest ih =>
      rcases List.mem_append.mp h with h | h
      · exact (lowerChar_small h).1
      · exact ih h

theorem lowerChars_eq_self {before l : List Char} (h : ∀ c ∈ l, Small c) :
    lowerChars finalSigma before l = l := by
  induction l generalizing before with
  | nil => rfl
  | cons c rest ih =>
      rw [lowerChars, h c List.mem_cons_self, ih fun d hd => h d (List.mem_cons_of_mem c hd)]
      rfl

/-- Neither end of a text is white space. -/
structure Trimmed (l : List Char) : Prop where
  head : ∀ c ∈ l.head?, isSpace c = false
  last : ∀ c ∈ l.getLast?, isSpace c = false

theorem lowerChars_ne_nil {before l : List Char} (h : l ≠ []) :
    lowerChars finalSigma before l ≠ [] := by
  cases l with
  | nil => exact absurd rfl h
  | cons c rest =>
      intro hnil
      exact lowerChar_ne_nil _ c (List.append_eq_nil_iff.mp hnil).1

theorem lowerChars_head {before l : List Char} (h : ∀ c ∈ l.head?, isSpace c = false) :
    ∀ d ∈ (lowerChars finalSigma before l).head?, isSpace d = false := by
  cases l with
  | nil =>
      intro d hd
      cases hd
  | cons c rest =>
      intro d hd
      rw [lowerChars, List.head?_append_of_ne_nil _ (lowerChar_ne_nil _ c)] at hd
      exact (lowerChar_small (List.mem_of_head? hd)).2 (h c rfl)

theorem lowerChars_last {before l : List Char} (h : ∀ c ∈ l.getLast?, isSpace c = false) :
    ∀ d ∈ (lowerChars finalSigma before l).getLast?, isSpace d = false := by
  induction l generalizing before with
  | nil =>
      intro d hd
      cases hd
  | cons c rest ih =>
      intro d hd
      rw [lowerChars] at hd
      by_cases hrest : rest = []
      · subst hrest
        rw [lowerChars, List.append_nil] at hd
        exact (lowerChar_small (List.mem_of_getLast? hd)).2 (h c rfl)
      · rw [List.getLast?_append_of_ne_nil _ (lowerChars_ne_nil finalSigma hrest)] at hd
        refine ih (fun e he => h e ?_) d hd
        rw [List.getLast?_cons_of_ne_nil hrest]
        exact he

end Texts

end Unicode
end Rcp
