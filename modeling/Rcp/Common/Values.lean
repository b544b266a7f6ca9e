/-
Python numbers, text and dates.

A number is an `int` or a `float`, and the two compare by value, as IEEE numbers: NaN is
neither less than, equal to nor greater than anything.  Strings hold Unicode scalar values; a
lone surrogate, which `json` also reads, would be one more character that is no white space.
Dates are read as the documentation of `datetime` describes for Python 3.12.
-/
import Mathlib.Algebra.Order.Floor.Ring
import Mathlib.Data.List.DropRight
import Mathlib.Data.Rat.Floor
import Rcp.Common.Python

namespace Rcp

/-! ## Dicts -/

namespace Dict

variable {K V : Type} [DecidableEq K] {d : Dict K V} {k : K}

theorem set_of_notMem (v : V) (h : k ∉ d.keys) : d.set k v = d ++ [(k, v)] := by
  induction d with
  | nil => rfl
  | cons entry rest ih =>
      have hne : entry.1 ≠ k := fun heq => h (by simp [keys, heq])
      have hrest : k ∉ keys rest := fun hmem => h (List.mem_cons_of_mem _ hmem)
      show (if entry.1 = k then _ else (entry.1, entry.2) :: set rest k v) = _
      rw [if_neg hne, ih hrest]
      rfl

/-- An entry is found under its key. -/
theorem get?_of_mem {v : V} (hkeys : d.keys.Nodup) (h : (k, v) ∈ d) : d.get? k = some v := by
  induction d with
  | nil => cases h
  | cons entry rest ih =>
      have hnodup : entry.1 ∉ keys rest ∧ (keys rest).Nodup := List.nodup_cons.mp hkeys
      show (if entry.1 = k then some entry.2 else get? rest k) = some v
      rcases List.mem_cons.mp h with heq | hrest
      · rw [← heq, if_pos rfl]
      · have hne : entry.1 ≠ k :=
          fun heq => hnodup.1 (heq ▸ List.mem_map.mpr ⟨(k, v), hrest, rfl⟩)
        rw [if_neg hne]
        exact ih hnodup.2 hrest

theorem get?_set (v : V) (j : K) : (d.set k v).get? j = if k = j then some v else d.get? j := by
  induction d with
  | nil => rfl
  | cons entry rest ih =>
      have hset : set (entry :: rest) k v =
          if entry.1 = k then (entry.1, v) :: rest else entry :: set rest k v := rfl
      have hget : get? (entry :: rest) j = if entry.1 = j then some entry.2 else get? rest j :=
        rfl
      rw [hset, hget]
      by_cases hk : entry.1 = k
      · rw [if_pos hk, hk]
        show (if k = j then some v else get? rest j) = _
        by_cases hj : k = j
        · simp [hj]
        · simp [hj]
      · rw [if_neg hk]
        show (if entry.1 = j then some entry.2 else get? (set rest k v) j) = _
        rw [ih]
        by_cases hj : entry.1 = j
        · have hkj : k ≠ j := fun h => hk (hj.trans h.symm)
          simp [hj, hkj]
        · simp [hj]

end Dict

/-! ## Numbers -/

namespace PyFloat

/-- `x < y`. -/
def lt : PyFloat → PyFloat → Bool
  | finite p, finite q => decide (p < q)
  | negInf, finite _ | negInf, posInf | finite _, posInf => true
  | _, _ => false

/-- `x <= y`. -/
def le : PyFloat → PyFloat → Bool
  | finite p, finite q => decide (p ≤ q)
  | nan, _ | _, nan => false
  | negInf, _ | _, posInf => true
  | _, _ => false

/-- What fails to be less is at least as large, unless NaN takes part. -/
theorem le_iff_not_lt {x y : PyFloat} : x.le y = true ↔ x ≠ nan ∧ y ≠ nan ∧ y.lt x = false := by
  cases x with
  | finite p =>
      cases y with
      | finite q => simp [le, lt]
      | posInf => simp [le, lt]
      | negInf => simp [le, lt]
      | nan => simp [le]
  | posInf => cases y <;> simp [le, lt]
  | negInf => cases y <;> simp [le, lt]
  | nan => cases y <;> simp [le]

theorem lt_irrefl (x : PyFloat) : x.lt x = false := by
  cases x with
  | finite q => simp [lt]
  | posInf => rfl
  | negInf => rfl
  | nan => rfl

end PyFloat

inductive Number
  | int (n : Int)
  | float (x : PyFloat)

namespace Number

def value : Number → PyFloat
  | int n => .finite n
  | float x => x

def json : Number → Json
  | int n => .int n
  | float x => .float x

/-- `isinstance(value, (int, float))` for a value that is no `bool`. -/
def ofJson? : Json → Option Number
  | .int n => some (int n)
  | .float x => some (float x)
  | _ => none

theorem ofJson?_eq_some {j : Json} {x : Number} : ofJson? j = some x ↔ j = x.json := by
  constructor
  · intro h
    cases j with
    | int n => cases h; rfl
    | float y => cases h; rfl
    | null => cases h
    | bool b => cases h
    | str s => cases h
    | arr xs => cases h
    | obj entries => cases h
  · intro h
    subst h
    cases x with
    | int n => rfl
    | float y => rfl

/-- The integer that `int(x)` cuts a rational to. -/
def trunc (q : Rat) : Int := if 0 ≤ q then ⌊q⌋ else ⌈q⌉

theorem trunc_intCast (n : Int) : trunc (n : Rat) = n := by
  unfold trunc
  split
  · exact Int.floor_intCast n
  · exact Int.ceil_intCast n

end Number

/-! ## Text -/

/-- `c.isspace()`. -/
def isSpace (c : Char) : Bool :=
  let n := c.toNat
  (9 ≤ n && n ≤ 13) || (28 ≤ n && n ≤ 32) || n == 0x85 || n == 0xa0 || n == 0x1680 ||
    (0x2000 ≤ n && n ≤ 0x200a) || n == 0x2028 || n == 0x2029 || n == 0x202f || n == 0x205f ||
    n == 0x3000

/-- `s.strip()`. -/
def strip (s : String) : String :=
  String.ofList ((s.toList.dropWhile isSpace).rdropWhile isSpace)

theorem dropWhile_rdropWhile {α : Type} {p : α → Bool} {l : List α}
    (h : ∀ a ∈ l.head?, p a = false) :
    (l.rdropWhile p).dropWhile p = l.rdropWhile p := by
  cases hd : l.rdropWhile p with
  | nil => rfl
  | cons a rest =>
      have hprefix := List.rdropWhile_prefix p l
      rw [hd] at hprefix
      obtain ⟨others, hl⟩ := hprefix
      have ha : p a = false := h a (by rw [← hl]; rfl)
      rw [List.dropWhile_cons, ha]
      rfl

theorem strip_strip (s : String) : strip (strip s) = strip s := by
  have hhead : ∀ a ∈ (s.toList.dropWhile isSpace).head?, isSpace a = false := by
    intro a ha
    have hnot := List.head?_dropWhile_not isSpace s.toList
    rw [Option.mem_def] at ha
    rw [ha] at hnot
    simpa using hnot
  unfold strip
  rw [String.toList_ofList, dropWhile_rdropWhile hhead, List.rdropWhile_idempotent]

/-- A text is blank if it has no other characters than white space. -/
theorem strip_eq_empty_iff {s : String} : strip s = "" ↔ ∀ c ∈ s.toList, isSpace c = true := by
  have hnil : strip s = "" ↔ (s.toList.dropWhile isSpace).rdropWhile isSpace = [] := by
    unfold strip
    rw [← String.toList_inj, String.toList_ofList]
    rfl
  rw [hnil, List.rdropWhile_eq_nil_iff]
  constructor
  · intro h c hc
    rw [← List.takeWhile_append_dropWhile (p := isSpace) (l := s.toList)] at hc
    rcases List.mem_append.mp hc with hc | hc
    · exact List.mem_takeWhile_imp hc
    · exact h c hc
  · intro h c hc
    exact h c ((List.dropWhile_sublist _).subset hc)

/-! ## Dates -/

def isLeap (year : Nat) : Bool :=
  year % 4 == 0 && (year % 100 != 0 || year % 400 == 0)

def daysInMonth (year month : Nat) : Nat :=
  match month with
  | 2 => if isLeap year then 29 else 28
  | 4 | 6 | 9 | 11 => 30
  | _ => 31

/-- A `datetime.date`. -/
structure Date where
  year : Nat
  month : Nat
  day : Nat
  year_range : 1 ≤ year ∧ year ≤ 9999
  month_range : 1 ≤ month ∧ month ≤ 12
  day_range : 1 ≤ day ∧ day ≤ daysInMonth year month

namespace Date

/-- `date(year, month, day)`. -/
def make? (year month day : Nat) : Option Date :=
  if h : (1 ≤ year ∧ year ≤ 9999) ∧ (1 ≤ month ∧ month ≤ 12) ∧
      (1 ≤ day ∧ day ≤ daysInMonth year month) then
    some ⟨year, month, day, h.1, h.2.1, h.2.2⟩
  else none

def digit (n : Nat) : Char := Char.ofNat (48 + n % 10)

def twoDigits (n : Nat) : List Char := [digit (n / 10), digit n]

/-- `d.isoformat()`. -/
def isoformat (d : Date) : String :=
  String.ofList (twoDigits (d.year / 100) ++ twoDigits d.year ++ '-' :: twoDigits d.month ++
    '-' :: twoDigits d.day)

/-- The date that lies `n` days after the first of a month. -/
def fromMonth (year : Nat) : List Nat → Nat → Option Date
  | [], n => make? (year + 1) 1 (n + 1)
  | month :: later, n =>
      if n < daysInMonth year month then make? year month (n + 1)
      else fromMonth year later (n - daysInMonth year month)

/-- The days from Monday to the first of January. -/
def firstWeekday (year : Nat) : Nat :=
  let y := year - 1
  (365 * y + y / 4 - y / 100 + y / 400) % 7

/-- The weeks of an ISO year.  The first one holds the first Thursday of January. -/
def isoWeeks (year : Nat) : Nat :=
  if firstWeekday year = 3 ∨ (firstWeekday year = 2 ∧ isLeap year) then 53 else 52

/-- `date.fromisocalendar(year, week, day)`. -/
def fromIsocalendar (year week day : Nat) : Option Date :=
  if 1 ≤ year ∧ 1 ≤ week ∧ week ≤ isoWeeks year ∧ 1 ≤ day ∧ day ≤ 7 then
    let ahead := firstWeekday year
    let offset := 7 * (week - 1) + (day - 1)
    let months := List.range' 1 12
    if ahead ≤ 3 then
      if offset < ahead then make? (year - 1) 12 (32 + offset - ahead)
      else fromMonth year months (offset - ahead)
    else fromMonth year months (offset + 7 - ahead)
  else none

/-! ### Reading -/

def digitValue (c : Char) : Option Nat :=
  if '0' ≤ c ∧ c ≤ '9' then some (c.toNat - 48) else none

/-- A number of exactly `n` digits, and the text after it. -/
def digits : Nat → Nat → List Char → Option (Nat × List Char)
  | 0, value, rest => some (value, rest)
  | _ + 1, _, [] => none
  | n + 1, value, c :: rest => do
      let d ← digitValue c
      digits n (10 * value + d) rest

/-- The text after a separator that stands there only in the extended format. -/
def separator (c : Char) (extended : Bool) (s : List Char) : Option (List Char) :=
  if extended then
    match s with
    | first :: rest => if first = c then some rest else none
    | [] => none
  else some s

/-- `YYYY-MM-DD`, `YYYY-Www` and `YYYY-Www-D`, with the dashes or without. -/
def read (s : List Char) : Option Date := do
  let (year, s) ← digits 4 0 s
  let extended := s.head? == some '-'
  let s ← separator '-' extended s
  match s with
  | 'W' :: s => do
      let (week, s) ← digits 2 0 s
      if s = [] then fromIsocalendar year week 1
      else do
        let s ← separator '-' extended s
        let (day, s) ← digits 1 0 s
        if s = [] then fromIsocalendar year week day else none
  | s => do
      let (month, s) ← digits 2 0 s
      let s ← separator '-' extended s
      let (day, s) ← digits 2 0 s
      if s = [] then make? year month day else none

/-- `date.fromisoformat(s)`. -/
def fromIsoformat (s : String) : Option Date := read s.toList

/-- The fraction of a second, of any number of digits. -/
def isFraction : List Char → Bool
  | [] => true
  | c :: rest => (c == '.' || c == ',') && !rest.isEmpty && rest.all fun d => (digitValue d).isSome

/-- `HH`, `HH:MM` and `HH:MM:SS`, with the colons or without, and a fraction after the
seconds. -/
def isClock (s : List Char) : Option Bool := do
  let (hour, s) ← digits 2 0 s
  if s = [] then return decide (hour < 24)
  let extended := s.head? == some ':'
  let s ← separator ':' extended s
  let (minute, s) ← digits 2 0 s
  if s = [] then return decide (hour < 24 ∧ minute < 60)
  let s ← separator ':' extended s
  let (second, s) ← digits 2 0 s
  return decide (hour < 24 ∧ minute < 60 ∧ second < 60) && isFraction s

def isSign (c : Char) : Bool := c == '+' || c == '-' || c == 'Z'

/-- A time of day, with or without an offset. -/
def isTime (s : List Char) : Bool :=
  isClock (s.takeWhile fun c => !isSign c) == some true &&
    match s.dropWhile fun c => !isSign c with
    | [] => true
    | 'Z' :: rest => rest.isEmpty
    | _ :: offset => isClock offset == some true

/-- Where the date of a date and time ends.  Any character may stand between the two. -/
def dateLength (s : List Char) : Nat :=
  if s.length = 7 then 7
  else if s[4]? = some '-' then
    if s[5]? = some 'W' then
      if s[8]? = some '-' ∧ (s[10]?.bind digitValue).isNone then 10 else 8
    else 10
  else if s[4]? = some 'W' then
    let n := 7 + ((s.drop 7).takeWhile fun c => (digitValue c).isSome).length
    if n < 9 then n else if n % 2 = 0 then 7 else 8
  else 8

/-- `datetime.fromisoformat(s).date()`. -/
def fromDatetime (s : String) : Option Date := do
  let n := dateLength s.toList
  let d ← read (s.toList.take n)
  match s.toList.drop n with
  | [] => some d
  | _ :: time => if isTime time then some d else none

/-! ### Reading what was written -/

theorem digitValue_digit (n : Nat) : digitValue (digit n) = some (n % 10) := by
  have hdigits : ∀ m < 10, digitValue (Char.ofNat (48 + m)) = some m := by decide
  exact hdigits (n % 10) (Nat.mod_lt n (by decide))

theorem digit_ne_W (n : Nat) : digit n ≠ 'W' := by
  intro h
  have hvalue := digitValue_digit n
  rw [h] at hvalue
  cases hvalue

/-- Two digits are read back behind those that stand before them. -/
theorem digits_twoDigits {n value : Nat} (k : Nat) (rest : List Char) (h : n < 100) :
    digits (k + 2) value (twoDigits n ++ rest) = digits k (100 * value + n) rest := by
  have hsum : 10 * (10 * value + n / 10 % 10) + n % 10 = 100 * value + n := by omega
  show digits (k + 2) value (digit (n / 10) :: digit n :: rest) = _
  simp [digits, digitValue_digit, hsum]

theorem twoDigits_mod (n : Nat) : twoDigits (n % 100) = twoDigits n := by
  have htens : n % 100 / 10 % 10 = n / 10 % 10 := by omega
  have hones : n % 100 % 10 = n % 10 := by omega
  unfold twoDigits digit
  rw [htens, hones]

theorem daysInMonth_le (year month : Nat) : daysInMonth year month ≤ 31 := by
  unfold daysInMonth
  split
  · split <;> omega
  all_goals omega

/-- `date.fromisoformat` inverts `date.isoformat`. -/
theorem fromIsoformat_isoformat (d : Date) : fromIsoformat d.isoformat = some d := by
  obtain ⟨year, month, day, hyear, hmonth, hday⟩ := d
  have hdays := daysInMonth_le year month
  have hcentury : year / 100 < 100 := by omega
  have hrest : year % 100 < 100 := Nat.mod_lt year (by decide)
  have hm : month < 100 := by omega
  have hd : day < 100 := by omega
  have hsum : 100 * (100 * 0 + year / 100) + year % 100 = year := by omega
  have hday' : digits 2 0 (twoDigits day) = some (day, []) := by
    rw [← List.append_nil (twoDigits day), digits_twoDigits 0 [] hd]
    simp [digits]
  have hmonth' : ∀ rest, digits 2 0 (twoDigits month ++ rest) = some (month, rest) := by
    intro rest
    rw [digits_twoDigits 0 rest hm]
    simp [digits]
  have hyear' : ∀ rest, digits 4 0 (twoDigits (year / 100) ++ (twoDigits year ++ rest)) =
      some (year, rest) := by
    intro rest
    rw [digits_twoDigits 2 _ hcentury, ← twoDigits_mod year, digits_twoDigits 0 _ hrest, hsum]
    rfl
  unfold fromIsoformat isoformat
  rw [String.toList_ofList, List.append_assoc, List.append_assoc]
  unfold read
  rw [hyear']
  show (match twoDigits month ++ '-' :: twoDigits day with
    | 'W' :: s => _
    | s => _) = _
  split
  · rename_i s heq
    exact absurd (List.cons.inj heq).1 (digit_ne_W _)
  · show ((digits 2 0 (twoDigits month ++ '-' :: twoDigits day)).bind fun _ => _) = _
    rw [hmonth']
    show ((digits 2 0 (twoDigits day)).bind fun _ => _) = _
    rw [hday']
    show make? year month day = _
    unfold make?
    rw [dif_pos ⟨hyear, hmonth, hday⟩]

end Date

end Rcp
