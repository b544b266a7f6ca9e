/-
What the slug rule makes of a text.

A slug is trimmed, has small characters only and no blank, so the rule leaves it as it is.
Only a blank text has an empty slug, and the normaliser of a profile drops these before it
applies the rule.
-/
import Rcp.Volunteer.ProfileModel

namespace Rcp
namespace Volunteer

open Unicode

/-! ## Trimmed texts -/

theorem dropWhile_eq_self {α : Type} {p : α → Bool} {l : List α}
    (h : ∀ a ∈ l.head?, p a = false) : l.dropWhile p = l := by
  cases l with
  | nil => rfl
  | cons a rest => rw [List.dropWhile_cons, h a rfl, if_neg Bool.false_ne_true]

theorem strip_trimmed (s : String) : Trimmed (strip s).toList := by
  unfold strip
  rw [String.toList_ofList]
  constructor
  · intro c hc
    have hprefix := List.rdropWhile_prefix isSpace (s.toList.dropWhile isSpace)
    obtain ⟨others, hothers⟩ := hprefix
    have hhead : (s.toList.dropWhile isSpace).head? = some c := by
      rw [← hothers, List.head?_append, hc]
      rfl
    have hnot := List.head?_dropWhile_not isSpace s.toList
    rw [hhead] at hnot
    simpa using hnot
  · intro c hc
    have hne : (s.toList.dropWhile isSpace).rdropWhile isSpace ≠ [] := by
      intro hnil
      rw [hnil] at hc
      cases hc
    have hnot := List.rdropWhile_last_not isSpace _ hne
    rw [List.getLast?_eq_some_getLast hne] at hc
    cases hc
    simpa using hnot

theorem strip_of_trimmed {s : String} (h : Trimmed s.toList) : strip s = s := by
  unfold strip
  have hlast : s.toList.rdropWhile isSpace = s.toList := by
    unfold List.rdropWhile
    rw [dropWhile_eq_self, List.reverse_reverse]
    intro c hc
    rw [List.head?_reverse] at hc
    exact h.last c hc
  rw [dropWhile_eq_self h.head, hlast, String.ofList_toList]

/-! ## Slugs -/

section Slugs

variable (finalSigma : List Char → List Char → Bool)

/-- What a slug has instead of a character. -/
def underscored (c : Char) : Char := if c = ' ' then '_' else c

theorem underscored_not_space {c : Char} (h : isSpace c = false) :
    isSpace (underscored c) = false := by
  unfold underscored
  split
  · rfl
  · exact h

theorem slug_toList (s : String) :
    (slug finalSigma s).toList = (lowerChars finalSigma [] (strip s).toList).map underscored := by
  unfold slug replaceChar Unicode.lower
  rw [String.toList_ofList, String.toList_ofList]
  rfl

theorem slug_trimmed (s : String) : Trimmed (slug finalSigma s).toList := by
  have htrimmed := strip_trimmed s
  rw [slug_toList]
  constructor
  · intro c hc
    rw [List.head?_map] at hc
    obtain ⟨d, hd, rfl⟩ := Option.map_eq_some_iff.mp hc
    exact underscored_not_space (lowerChars_head finalSigma htrimmed.head d hd)
  · intro c hc
    rw [List.getLast?_map] at hc
    obtain ⟨d, hd, rfl⟩ := Option.map_eq_some_iff.mp hc
    exact underscored_not_space (lowerChars_last finalSigma htrimmed.last d hd)

/-- The characters of a slug stay as they are. -/
theorem slug_chars {s : String} {c : Char} (h : c ∈ (slug finalSigma s).toList) :
    Small c ∧ underscored c = c := by
  rw [slug_toList] at h
  obtain ⟨d, hd, rfl⟩ := List.mem_map.mp h
  have hsmall := lowerChars_small finalSigma hd
  by_cases hblank : d = ' '
  · have hunderscore : underscored d = '_' := if_pos hblank
    rw [hunderscore]
    exact ⟨small_sigma.2.2.2.2, rfl⟩
  · have hsame : underscored d = d := if_neg hblank
    rw [hsame]
    exact ⟨hsmall, hsame⟩

theorem strip_slug (s : String) : strip (slug finalSigma s) = slug finalSigma s :=
  strip_of_trimmed (slug_trimmed finalSigma s)

theorem slug_slug (s : String) : slug finalSigma (slug finalSigma s) = slug finalSigma s := by
  have hlowered : lowerChars finalSigma [] (slug finalSigma s).toList =
      (slug finalSigma s).toList :=
    lowerChars_eq_self finalSigma fun c hc => (slug_chars finalSigma hc).1
  have hmapped : (slug finalSigma s).toList.map underscored = (slug finalSigma s).toList :=
    (List.map_congr_left fun c hc => (slug_chars finalSigma hc).2).trans
      (List.map_id' _)
  rw [← String.toList_inj, slug_toList, strip_slug, hlowered, hmapped]

theorem slug_eq_empty_iff (s : String) : slug finalSigma s = "" ↔ strip s = "" := by
  have hlist : slug finalSigma s = "" ↔ (slug finalSigma s).toList = [] := by
    rw [← String.toList_inj]
    rfl
  have hstrip : strip s = "" ↔ (strip s).toList = [] := by
    rw [← String.toList_inj]
    rfl
  rw [hlist, hstrip, slug_toList, List.map_eq_nil_iff]
  constructor
  · intro hnil
    by_contra hne
    exact lowerChars_ne_nil finalSigma hne hnil
  · intro hnil
    rw [hnil]
    rfl

/-! ## The skills of a profile -/

theorem sortedSet_nodup (names : List String) : (sortedSet names).Nodup :=
  (List.perm_insertionSort _ _).nodup_iff.mpr (List.nodup_dedup names)

theorem sortedSet_sorted (names : List String) : (sortedSet names).Pairwise (· ≤ ·) :=
  List.pairwise_insertionSort _ _

theorem mem_sortedSet {names : List String} {name : String} :
    name ∈ sortedSet names ↔ name ∈ names :=
  (List.perm_insertionSort _ _).mem_iff.trans List.mem_dedup

theorem sortedSet_eq_self {names : List String} (hnodup : names.Nodup)
    (hsorted : names.Pairwise (· ≤ ·)) : sortedSet names = names := by
  unfold sortedSet
  rw [hnodup.dedup]
  exact List.Pairwise.insertionSort_eq hsorted

theorem mem_normaliseSkills {texts : List String} {skill : String} :
    skill ∈ normaliseSkills finalSigma texts ↔
      ∃ s ∈ texts, strip s ≠ "" ∧ slug finalSigma s = skill := by
  unfold normaliseSkills
  rw [mem_sortedSet, List.mem_map]
  constructor
  · rintro ⟨s, hs, hslug⟩
    have hmem := List.mem_filter.mp hs
    exact ⟨s, hmem.1, by simpa using hmem.2, hslug⟩
  · rintro ⟨s, hs, hblank, hslug⟩
    exact ⟨s, List.mem_filter.mpr ⟨hs, by simpa using hblank⟩, hslug⟩

/-- A sorted list of different slugs that are not empty. -/
structure Slugs (skills : List String) : Prop where
  sorted : skills.Pairwise (· ≤ ·)
  nodup : skills.Nodup
  nonempty : ∀ skill ∈ skills, skill ≠ ""
  fixed : ∀ skill ∈ skills, slug finalSigma skill = skill

theorem normaliseSkills_slugs (texts : List String) :
    Slugs finalSigma (normaliseSkills finalSigma texts) where
  sorted := sortedSet_sorted _
  nodup := sortedSet_nodup _
  nonempty := by
    intro skill hskill hempty
    obtain ⟨s, -, hblank, rfl⟩ := (mem_normaliseSkills finalSigma).mp hskill
    exact hblank ((slug_eq_empty_iff finalSigma s).mp hempty)
  fixed := by
    intro skill hskill
    obtain ⟨s, -, -, rfl⟩ := (mem_normaliseSkills finalSigma).mp hskill
    exact slug_slug finalSigma s

theorem Slugs.nil : Slugs finalSigma [] where
  sorted := .nil
  nodup := .nil
  nonempty := by simp
  fixed := by simp

variable {finalSigma}

/-- The normaliser leaves such a list as it is. -/
theorem Slugs.normalised {skills : List String} (h : Slugs finalSigma skills) :
    normaliseSkills finalSigma skills = skills := by
  have hkept : (skills.filter fun s => strip s ≠ "") = skills := by
    rw [List.filter_eq_self]
    intro skill hskill
    have hblank : strip skill ≠ "" := by
      intro hempty
      have hslug := (slug_eq_empty_iff finalSigma skill).mpr hempty
      rw [h.fixed skill hskill] at hslug
      exact h.nonempty skill hskill hslug
    simpa using hblank
  have hmapped : skills.map (slug finalSigma) = skills :=
    (List.map_congr_left h.fixed).trans (List.map_id' _)
  unfold normaliseSkills
  rw [hkept, hmapped]
  exact sortedSet_eq_self h.nodup h.sorted

end Slugs

end Volunteer
end Rcp
