/-
Reading a sorted list page by page.

A reader asks for the elements after a key, gets the first few of them, and asks again with
the key of the last one, until a page is empty.
-/
import Mathlib.Order.Lattice
import Mathlib.Data.List.Basic

namespace Sql
namespace Paging

/-- One request: the cursor it sends, the page it gets, and the cursor for the next one. -/
structure Page (α K : Type) where
  cursor : K
  rows : List α
  next : K

section Reader

variable {α K : Type} (fetch : K → List α) (next : K → List α → K)

/-- The requests up to the first empty page, or `none` where the fuel does not suffice. -/
def pages : Nat → K → Option (List (Page α K))
  | 0, _ => none
  | fuel + 1, cursor =>
      let page : Page α K :=
        { cursor := cursor, rows := fetch cursor, next := next cursor (fetch cursor) }
      if page.rows.isEmpty then some [page]
      else (pages fuel page.next).map (page :: ·)

variable {fetch next}

theorem pages_empty {cursor : K} (h : fetch cursor = []) (fuel : Nat) :
    pages fetch next (fuel + 1) cursor = some [⟨cursor, [], next cursor []⟩] := by
  simp [pages, h]

theorem pages_more {cursor : K} (h : fetch cursor ≠ []) (fuel : Nat) :
    pages fetch next (fuel + 1) cursor = (pages fetch next fuel (next cursor (fetch cursor))).map
      (⟨cursor, fetch cursor, next cursor (fetch cursor)⟩ :: ·) := by
  simp [pages, h]

end Reader

/-! ## Pages of a sorted list -/

section Sorted

variable {α K : Type} [LinearOrder K] (key : α → K)

/-- The elements after a cursor. -/
def after (l : List α) (cursor : K) : List α := l.filter (cursor < key ·)

variable {key} {l : List α}

theorem mem_after {cursor : K} {x : α} : x ∈ after key l cursor ↔ x ∈ l ∧ cursor < key x := by
  simp [after]

/-- After the last element of a page stand those the page has left out. -/
theorem after_last (h : l.Pairwise fun x y => key x < key y) {cursor : K} {limit : Nat}
    {last : α} (hlast : ((after key l cursor).take limit).getLast? = some last) :
    after key l (key last) = (after key l cursor).drop limit := by
  have hsorted : (after key l cursor).Pairwise fun x y => key x < key y := h.filter _
  have hmem : last ∈ (after key l cursor).take limit := List.mem_of_getLast? hlast
  have hcursor : cursor < key last := (mem_after.mp (List.mem_of_mem_take hmem)).2
  have hnarrow : after key l (key last) = (after key l cursor).filter (key last < key ·) := by
    unfold after
    rw [List.filter_filter]
    refine List.filter_congr fun x _ => ?_
    by_cases hx : key last < key x
    · simp [hx, hcursor.trans hx]
    · simp [hx]
  rw [← List.take_append_drop limit (after key l cursor), List.pairwise_append] at hsorted
  have hbefore : ((after key l cursor).take limit).filter (key last < key ·) = [] := by
    obtain ⟨init, hinit⟩ := List.getLast?_eq_some_iff.mp hlast
    have hfirst := hsorted.1
    rw [hinit, List.pairwise_append] at hfirst
    rw [hinit, List.filter_eq_nil_iff]
    intro x hx
    rcases List.mem_append.mp hx with hx | hx
    · have hlt := hfirst.2.2 x hx last (List.mem_singleton_self last)
      simpa using hlt.le
    · rw [List.mem_singleton.mp hx]
      simp
  have hrest : ((after key l cursor).drop limit).filter (key last < key ·) =
      (after key l cursor).drop limit := by
    rw [List.filter_eq_self]
    intro x hx
    simpa using hsorted.2.2 last hmem x hx
  rw [hnarrow]
  conv_lhs => rw [← List.take_append_drop limit (after key l cursor)]
  rw [List.filter_append, hbefore, hrest, List.nil_append]

theorem after_of_fetch {fetch : K → List α} {limit : Nat} (hlimit : 1 ≤ limit) {cursor : K}
    (hfetch : fetch cursor = (after key l cursor).take limit) (hempty : fetch cursor = []) :
    after key l cursor = [] := by
  rw [hfetch, List.take_eq_nil_iff] at hempty
  exact hempty.resolve_left (by omega)

/-- The pages are the list after the cursor, cut into pieces, and an empty page. -/
theorem pages_complete (h : l.Pairwise fun x y => key x < key y) {limit : Nat}
    (hlimit : 1 ≤ limit) {fetch : K → List α} {next : K → List α → K}
    (hfetch : ∀ cursor, fetch cursor = (after key l cursor).take limit)
    (hnone : ∀ cursor, next cursor [] = cursor)
    (hsome : ∀ cursor rows last, rows.getLast? = some last → next cursor rows = key last)
    {n : Nat} {cursor : K} (hn : (after key l cursor).length < n) :
    ∃ full last,
      (∀ fuel, n ≤ fuel → pages fetch next fuel cursor = some (full ++ [⟨last, [], last⟩])) ∧
      (full.map Page.rows).flatten = after key l cursor := by
  induction n generalizing cursor with
  | zero => omega
  | succ n ih =>
      by_cases hempty : fetch cursor = []
      · refine ⟨[], cursor, fun fuel hfuel => ?_, ?_⟩
        · obtain ⟨fuel, rfl⟩ := Nat.exists_eq_add_of_le' (Nat.one_le_of_lt hfuel)
          rw [pages_empty hempty, hnone]
          rfl
        · rw [after_of_fetch hlimit (hfetch cursor) hempty]
          rfl
      · obtain ⟨last, hlast⟩ := Option.isSome_iff_exists.mp (List.getLast?_isSome.mpr hempty)
        have hnext : next cursor (fetch cursor) = key last := hsome _ _ _ hlast
        rw [hfetch] at hlast
        have hdrop := after_last h hlast
        have hshort : (after key l (key last)).length < n := by
          have hpos : 0 < (after key l cursor).length := by
            rw [List.length_pos_iff]
            intro hnil
            simp [hfetch, hnil] at hempty
          rw [hdrop, List.length_drop]
          omega
        obtain ⟨full, final, hpages, hflat⟩ := ih hshort
        refine ⟨⟨cursor, fetch cursor, key last⟩ :: full, final, fun fuel hfuel => ?_, ?_⟩
        · obtain ⟨fuel, rfl⟩ := Nat.exists_eq_add_of_le' (Nat.one_le_of_lt hfuel)
          rw [pages_more hempty, hnext, hpages fuel (Nat.le_of_succ_le_succ hfuel)]
          rfl
        · rw [List.map_cons, List.flatten_cons, hflat, hdrop]
          show fetch cursor ++ _ = _
          rw [hfetch, List.take_append_drop]

end Sorted

end Paging
end Sql
