/-
Aggregate queries: scans, outer joins and groups.

A query sees the rows of a table in some order, as a list of keys and rows.  Two tables
whose rows correspond key by key have scans that correspond row by row, up to order, and
so do the counts and sums taken over them.
-/
import Mathlib

namespace Sql

variable {A B V V' : Type}

/-- Every row of the table once, under its key. -/
structure Scan (table : Nat → Option V) (rows : List (Nat × V)) : Prop where
  nodup : (rows.map Prod.fst).Nodup
  mem : ∀ k v, (k, v) ∈ rows ↔ table k = some v

/-- `LEFT JOIN`: the pairs that match, and every left row without a match once. -/
def leftJoin (on : A → B → Bool) (as : List A) (bs : List B) : List (A × Option B) :=
  as.flatMap fun a =>
    if bs.filter (on a) = [] then [(a, none)] else (bs.filter (on a)).map fun b => (a, some b)

/-- `GROUP BY`: the keys that occur, each with its rows. -/
def groupBy {K : Type} [DecidableEq K] (key : A → K) (rows : List A) : List (K × List A) :=
  (rows.map key).dedup.map fun k => (k, rows.filter fun row => key row = k)

/-- `SUM`, which is NULL over no rows. -/
def sum? (values : List Int) : Option Int := if values = [] then none else some values.sum

/-- `COALESCE(SUM(..), 0)`. -/
theorem sum?_getD (values : List Int) : (sum? values).getD 0 = values.sum := by
  unfold sum?
  split
  · rename_i h
    rw [h]
    rfl
  · rfl

/-! ## Groups -/

section Groups

variable {K : Type} [DecidableEq K] {key : A → K} {rows : List A}

theorem mem_groupBy {k : K} {group : List A} :
    (k, group) ∈ groupBy key rows ↔
      (∃ row ∈ rows, key row = k) ∧ group = rows.filter fun row => key row = k := by
  simp only [groupBy, List.mem_map, List.mem_dedup, Prod.mk.injEq]
  constructor
  · rintro ⟨k', hk', rfl, rfl⟩
    exact ⟨hk', rfl⟩
  · rintro ⟨hk, rfl⟩
    exact ⟨k, hk, rfl, rfl⟩

theorem groupBy_nodup (key : A → K) (rows : List A) :
    ((groupBy key rows).map Prod.fst).Nodup := by
  have hkeys : (groupBy key rows).map Prod.fst = (rows.map key).dedup := by
    unfold groupBy
    rw [List.map_map]
    exact List.map_id _
  rw [hkeys]
  exact List.nodup_dedup _

theorem lookup_map {C : Type} (f : K → C) (keys : List K) (k : K) :
    (keys.map fun k => (k, f k)).lookup k = if k ∈ keys then some (f k) else none := by
  induction keys with
  | nil => rfl
  | cons j rest ih =>
      rw [List.map_cons, List.lookup_cons, ih]
      by_cases hkj : k = j
      · subst hkj
        simp
      · rw [show (k == j) = false from beq_false_of_ne hkj]
        simp [hkj]

/-- The entry of one key, where each group is folded to a value. -/
theorem groupBy_lookup {C : Type} (f : List A → C) (key : A → K) (rows : List A) (k : K) :
    ((groupBy key rows).map fun group => (group.1, f group.2)).lookup k =
      if ∃ row ∈ rows, key row = k then some (f (rows.filter fun row => key row = k))
      else none := by
  have hmap : (groupBy key rows).map (fun group => (group.1, f group.2)) =
      (rows.map key).dedup.map fun k => (k, f (rows.filter fun row => key row = k)) := by
    unfold groupBy
    rw [List.map_map]
    rfl
  rw [hmap, lookup_map fun k => f (rows.filter fun row => key row = k)]
  simp only [List.mem_dedup, List.mem_map]

/-- The left row of a joined pair. -/
theorem mem_leftJoin {on : A → B → Bool} {as : List A} {bs : List B} {a : A} {b : Option B} :
    (a, b) ∈ leftJoin on as bs ↔ a ∈ as ∧
      match b with
      | none => bs.filter (on a) = []
      | some b => b ∈ bs ∧ on a b = true := by
  unfold leftJoin
  rw [List.mem_flatMap]
  constructor
  · rintro ⟨a', ha', hmem⟩
    split at hmem
    · rename_i hnone
      rw [List.mem_singleton] at hmem
      cases hmem
      exact ⟨ha', hnone⟩
    · obtain ⟨b', hb', heq⟩ := List.mem_map.mp hmem
      cases heq
      exact ⟨ha', List.mem_filter.mp hb'⟩
  · rintro ⟨ha, hb⟩
    refine ⟨a, ha, ?_⟩
    cases b with
    | none =>
        rw [if_pos hb]
        exact List.mem_cons_self
    | some b =>
        have hmem : b ∈ bs.filter (on a) := List.mem_filter.mpr hb
        rw [if_neg fun h => by rw [h] at hmem; cases hmem]
        exact List.mem_map.mpr ⟨b, hmem, rfl⟩

/-- The matches of one left row, if no other left row has its key. -/
theorem leftJoin_matches (key : A → K) (on : A → B → Bool) {as : List A} (bs : List B)
    (hkeys : (as.map key).Nodup) {a : A} (ha : a ∈ as) :
    ((leftJoin on as bs).filter fun row => key row.1 = key a).filterMap Prod.snd =
      bs.filter (on a) := by
  have hothers : ∀ l : List A, key a ∉ l.map key →
      (leftJoin on l bs).filter (fun row => key row.1 = key a) = [] := by
    intro l hl
    refine List.filter_eq_nil_iff.mpr fun row hrow heq => hl ?_
    have hmem := (mem_leftJoin.mp (show (row.1, row.2) ∈ _ from hrow)).1
    exact List.mem_map.mpr ⟨row.1, hmem, of_decide_eq_true heq⟩
  obtain ⟨before, after, rfl⟩ := List.append_of_mem ha
  rw [List.map_append, List.map_cons, List.nodup_append, List.nodup_cons] at hkeys
  obtain ⟨-, ⟨hafter, -⟩, hdisjoint⟩ := hkeys
  have hbefore : key a ∉ before.map key :=
    fun hmem => hdisjoint (key a) hmem (key a) List.mem_cons_self rfl
  have hsplit : leftJoin on (before ++ a :: after) bs =
      leftJoin on before bs ++ (leftJoin on [a] bs ++ leftJoin on after bs) := by
    simp [leftJoin]
  rw [hsplit, List.filter_append, List.filter_append, hothers before hbefore,
    hothers after hafter, List.nil_append, List.append_nil]
  simp only [leftJoin, List.flatMap_cons, List.flatMap_nil, List.append_nil]
  split
  · rename_i hnone
    rw [hnone]
    simp
  · rw [List.filter_map, List.filterMap_map]
    simp [Function.comp_def]

theorem leftJoin_filter (p : A → Bool) (on : A → B → Bool) (as : List A) (bs : List B) :
    (leftJoin on as bs).filter (fun row => p row.1) = leftJoin on (as.filter p) bs := by
  induction as with
  | nil => rfl
  | cons a rest ih =>
      have hcons : ∀ l : List A,
          leftJoin on (a :: l) bs = leftJoin on [a] bs ++ leftJoin on l bs := by
        simp [leftJoin]
      have hone : ∀ row ∈ leftJoin on [a] bs, row.1 = a := by
        rintro ⟨a', b⟩ hrow
        exact List.mem_singleton.mp (mem_leftJoin.mp hrow).1
      rw [hcons rest, List.filter_append, ih, List.filter_cons]
      cases hp : p a with
      | true =>
          have hall : (leftJoin on [a] bs).filter (fun row => p row.1) = leftJoin on [a] bs :=
            List.filter_eq_self.mpr fun row hrow => by rw [hone row hrow, hp]
          rw [hall, if_pos rfl, ← hcons]
      | false =>
          have hnone : (leftJoin on [a] bs).filter (fun row => p row.1) = [] :=
            List.filter_eq_nil_iff.mpr fun row hrow => by rw [hone row hrow, hp]; simp
          rw [hnone, if_neg Bool.false_ne_true, List.nil_append]

/-- Grouping a join by the key of the left rows gives each left row its matches. -/
theorem groupBy_leftJoin (key : A → K) (on : A → B → Bool) {as : List A} (bs : List B)
    (hkeys : (as.map key).Nodup) :
    ((groupBy (fun row => key row.1) (leftJoin on as bs)).map fun group =>
      (group.1, group.2.filterMap Prod.snd)).Perm (as.map fun a => (key a, bs.filter (on a))) := by
  let matched := fun k => ((leftJoin on as bs).filter fun row => key row.1 = k).filterMap Prod.snd
  have hleft : (groupBy (fun row => key row.1) (leftJoin on as bs)).map
        (fun group => (group.1, group.2.filterMap Prod.snd)) =
      ((leftJoin on as bs).map fun row => key row.1).dedup.map fun k => (k, matched k) := by
    unfold groupBy
    rw [List.map_map]
    rfl
  have hright : as.map (fun a => (key a, bs.filter (on a))) =
      (as.map key).map fun k => (k, matched k) := by
    rw [List.map_map]
    refine List.map_congr_left fun a ha => ?_
    exact congrArg _ (leftJoin_matches key on bs hkeys ha).symm
  rw [hleft, hright]
  refine List.Perm.map _ ((List.perm_ext_iff_of_nodup (List.nodup_dedup _) hkeys).mpr ?_)
  intro k
  rw [List.mem_dedup, List.mem_map, List.mem_map]
  constructor
  · rintro ⟨row, hrow, rfl⟩
    exact ⟨row.1, (mem_leftJoin.mp (show (row.1, row.2) ∈ _ from hrow)).1, rfl⟩
  · rintro ⟨a, ha, rfl⟩
    cases hfound : bs.filter (on a) with
    | nil => exact ⟨(a, none), mem_leftJoin.mpr ⟨ha, hfound⟩, rfl⟩
    | cons b rest =>
        have hb : b ∈ bs.filter (on a) := by
          rw [hfound]
          exact List.mem_cons_self
        exact ⟨(a, some b), mem_leftJoin.mpr ⟨ha, List.mem_filter.mp hb⟩, rfl⟩

end Groups

/-- The groups of some keys counted together. -/
theorem sum_countP {K : Type} [DecidableEq K] (key : A → K) (p : A → Bool) (rows : List A)
    {keys : List K} (hkeys : keys.Nodup) :
    (keys.map fun k => rows.countP fun row => key row == k && p row).sum =
      rows.countP fun row => decide (key row ∈ keys) && p row := by
  induction keys with
  | nil => simp
  | cons k rest ih =>
      rw [List.nodup_cons] at hkeys
      rw [List.map_cons, List.sum_cons, ih hkeys.2]
      have hsplit : ∀ row, (decide (key row ∈ k :: rest) && p row) =
          ((key row == k && p row) || (decide (key row ∈ rest) && p row)) := by
        intro row
        by_cases hk : key row = k <;> by_cases hrest : key row ∈ rest <;> simp [hk, hrest]
      have hdisjoint : ∀ row, ¬ ((key row == k && p row) = true ∧
          (decide (key row ∈ rest) && p row) = true) := by
        rintro row ⟨hk, hrest⟩
        simp only [Bool.and_eq_true, beq_iff_eq, decide_eq_true_eq] at hk hrest
        exact hkeys.1 (hk.1 ▸ hrest.1)
      simp only [hsplit]
      clear ih hkeys hsplit
      induction rows with
      | nil => rfl
      | cons row rows ih =>
          have hrow := hdisjoint row
          simp only [List.countP_cons]
          by_cases hleft : (key row == k && p row) = true <;>
            by_cases hright : (decide (key row ∈ rest) && p row) = true <;>
            simp [hleft, hright] at hrow ⊢ <;> omega

/-- Every row is in one group. -/
theorem groupBy_length {K : Type} [DecidableEq K] (key : A → K) (rows : List A) :
    ((groupBy key rows).map fun group => group.2.length).sum = rows.length := by
  have hsum := sum_countP key (fun _ => true) rows (List.nodup_dedup (rows.map key))
  have hall : (rows.countP fun row => decide (key row ∈ (rows.map key).dedup) && true) =
      rows.length := by
    refine List.countP_eq_length.mpr fun row hrow => ?_
    simpa using ⟨row, hrow, rfl⟩
  rw [hall] at hsum
  rw [← hsum]
  unfold groupBy
  rw [List.map_map]
  refine congrArg List.sum (List.map_congr_left fun k _ => ?_)
  show (rows.filter _).length = _
  rw [← List.countP_eq_length_filter]
  simp only [Bool.and_true, beq_eq_decide]

/-! ## Scans -/

section Scans

variable {table : Nat → Option V} {table' : Nat → Option V'} {rows rows₂ : List (Nat × V)}
  {rows' : List (Nat × V')} {R : V → V' → Prop}

/-- The rows under the keys below `n`, in the order of the keys. -/
def scanBelow (table : Nat → Option V) (n : Nat) : List (Nat × V) :=
  (List.range n).filterMap fun k => (table k).map fun v => (k, v)

theorem scan_scanBelow {n : Nat} (h : ∀ k, n ≤ k → table k = none) :
    Scan table (scanBelow table n) where
  nodup := by
    unfold scanBelow
    rw [List.map_filterMap]
    refine List.Nodup.filterMap ?_ List.nodup_range
    intro j k id hj hk
    obtain ⟨row, hrow, rfl⟩ := Option.map_eq_some_iff.mp hj
    obtain ⟨row', hrow', hid⟩ := Option.map_eq_some_iff.mp hk
    obtain ⟨v, -, rfl⟩ := Option.map_eq_some_iff.mp hrow
    obtain ⟨v', -, rfl⟩ := Option.map_eq_some_iff.mp hrow'
    exact hid.symm
  mem := by
    intro k v
    simp only [scanBelow, List.mem_filterMap, List.mem_range, Option.map_eq_some_iff,
      Prod.mk.injEq]
    constructor
    · rintro ⟨j, -, u, hu, rfl, rfl⟩
      exact hu
    · intro hk
      refine ⟨k, ?_, v, hk, rfl, rfl⟩
      by_contra hge
      rw [h k (Nat.le_of_not_lt hge)] at hk
      cases hk

theorem Scan.perm (h : Scan table rows) (h₂ : Scan table rows₂) : rows.Perm rows₂ := by
  refine (List.perm_ext_iff_of_nodup h.nodup.of_map h₂.nodup.of_map).mpr fun row => ?_
  rw [h.mem row.1 row.2, h₂.mem row.1 row.2]

/-- Tables whose rows correspond have scans that correspond, up to order. -/
theorem Scan.align (h : Scan table rows) (h' : Scan table' rows')
    (hR : ∀ k, Option.Rel R (table k) (table' k)) :
    ∃ pairs : List (Nat × V × V'),
      (pairs.map fun p => (p.1, p.2.1)).Perm rows ∧
        (pairs.map fun p => (p.1, p.2.2)).Perm rows' ∧ ∀ p ∈ pairs, R p.2.1 p.2.2 := by
  have hother : ∀ k v, table k = some v → ∃ v', table' k = some v' ∧ R v v' := by
    intro k v hk
    have hrel := hR k
    rw [hk] at hrel
    cases hk' : table' k with
    | none =>
        rw [hk'] at hrel
        cases hrel
    | some v' =>
        rw [hk'] at hrel
        cases hrel with
        | some hrel => exact ⟨v', rfl, hrel⟩
  let pairs := rows.filterMap fun row => (table' row.1).map fun v' => (row.1, row.2, v')
  have hleft : pairs.map (fun p => (p.1, p.2.1)) = rows := by
    rw [List.map_filterMap]
    refine (List.filterMap_congr fun row hrow => ?_).trans List.filterMap_some
    obtain ⟨v', hv', -⟩ := hother row.1 row.2 ((h.mem _ _).mp hrow)
    rw [hv']
    rfl
  have hmem : ∀ k v v', (k, v, v') ∈ pairs ↔ table k = some v ∧ table' k = some v' := by
    intro k v v'
    simp only [pairs, List.mem_filterMap, Option.map_eq_some_iff, Prod.mk.injEq]
    constructor
    · rintro ⟨row, hrow, v₁, hv₁, rfl, rfl, rfl⟩
      exact ⟨(h.mem _ _).mp hrow, hv₁⟩
    · rintro ⟨hv, hv'⟩
      exact ⟨(k, v), (h.mem k v).mpr hv, v', hv', rfl, rfl, rfl⟩
  refine ⟨pairs, hleft ▸ .refl _, ?_, fun p hp => ?_⟩
  · have hkeys : ((pairs.map fun p => (p.1, p.2.2)).map Prod.fst).Nodup := by
      have hsame : (pairs.map fun p => (p.1, p.2.2)).map Prod.fst = rows.map Prod.fst := by
        rw [← hleft, List.map_map, List.map_map]
        rfl
      rw [hsame]
      exact h.nodup
    refine (List.perm_ext_iff_of_nodup hkeys.of_map h'.nodup.of_map).mpr fun row => ?_
    rw [h'.mem row.1 row.2, List.mem_map]
    constructor
    · rintro ⟨⟨k, v, v'⟩, hp, rfl⟩
      exact ((hmem k v v').mp hp).2
    · intro hrow
      have hrel := hR row.1
      rw [hrow] at hrel
      cases hk : table row.1 with
      | none =>
          rw [hk] at hrel
          cases hrel
      | some v => exact ⟨(row.1, v, row.2), (hmem _ _ _).mpr ⟨hk, hrow⟩, rfl⟩
  · obtain ⟨k, v, v'⟩ := p
    obtain ⟨hv, hv'⟩ := (hmem k v v').mp hp
    obtain ⟨v₂, hv₂, hrel⟩ := hother k v hv
    rw [hv'] at hv₂
    cases hv₂
    exact hrel

/-- The rows counted on either side. -/
theorem Scan.countP_eq (h : Scan table rows) (h' : Scan table' rows')
    (hR : ∀ k, Option.Rel R (table k) (table' k)) {p : V → Bool} {q : V' → Bool}
    (hpq : ∀ v v', R v v' → p v = q v') :
    (rows.countP fun row => p row.2) = rows'.countP fun row => q row.2 := by
  obtain ⟨pairs, hleft, hright, hrel⟩ := h.align h' hR
  rw [← hleft.countP_eq, ← hright.countP_eq, List.countP_map, List.countP_map]
  refine List.countP_congr fun pair hpair => ?_
  show p pair.2.1 = true ↔ q pair.2.2 = true
  rw [hpq _ _ (hrel pair hpair)]

/-- The sums on either side. -/
theorem Scan.sum_eq (h : Scan table rows) (h' : Scan table' rows')
    (hR : ∀ k, Option.Rel R (table k) (table' k)) {p : V → Bool} {q : V' → Bool} {f : V → Int}
    {g : V' → Int} (hpq : ∀ v v', R v v' → p v = q v') (hfg : ∀ v v', R v v' → f v = g v') :
    ((rows.filter fun row => p row.2).map fun row => f row.2).sum =
      ((rows'.filter fun row => q row.2).map fun row => g row.2).sum := by
  obtain ⟨pairs, hleft, hright, hrel⟩ := h.align h' hR
  rw [← ((hleft.filter _).map _).sum_eq, ← ((hright.filter _).map _).sum_eq, List.filter_map,
    List.filter_map, List.map_map, List.map_map]
  have hfilter : pairs.filter ((fun row : Nat × V => p row.2) ∘ fun p => (p.1, p.2.1)) =
      pairs.filter ((fun row : Nat × V' => q row.2) ∘ fun p => (p.1, p.2.2)) := by
    refine List.filter_congr fun pair hpair => ?_
    exact hpq _ _ (hrel pair hpair)
  rw [hfilter]
  refine congrArg List.sum (List.map_congr_left fun pair hpair => ?_)
  exact hfg _ _ (hrel pair (List.mem_filter.mp hpair).1)

end Scans
end Sql
