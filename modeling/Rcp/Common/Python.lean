/-
Python values.

JSON values are what Python's `json` reads.  A number with a fraction or an
exponent is a float: a finite one is an exact rational, and Python also reads the
infinities and NaN.  An object is a dict, whose entries stand in insertion order.
-/
import Mathlib.Data.Rat.Defs

namespace Rcp

inductive PyFloat
  | finite (q : Rat)
  | posInf
  | negInf
  | nan
  deriving DecidableEq

inductive Json
  | null
  | bool (b : Bool)
  | int (n : Int)
  | float (x : PyFloat)
  | str (s : String)
  | arr (xs : List Json)
  | obj (entries : List (String × Json))

/-- A Python dict. -/
abbrev Dict (K V : Type) := List (K × V)

abbrev Object := Dict String Json

namespace Dict

variable {K V : Type} [DecidableEq K]

/-- `d.get(k)`. -/
def get? : Dict K V → K → Option V
  | [], _ => none
  | (j, v) :: rest, k => if j = k then some v else get? rest k

/-- `d[k] = v`. -/
def set : Dict K V → K → V → Dict K V
  | [], k, v => [(k, v)]
  | (j, u) :: rest, k, v => if j = k then (j, v) :: rest else (j, u) :: set rest k v

omit [DecidableEq K] in
def keys (d : Dict K V) : List K := d.map Prod.fst

theorem mem_keys_set {d : Dict K V} {k j : K} {v : V} (h : j ∈ (d.set k v).keys) :
    j = k ∨ j ∈ d.keys := by
  induction d with
  | nil => simpa [set, keys] using h
  | cons entry rest ih =>
      obtain ⟨i, u⟩ := entry
      unfold set at h
      split at h
      · right
        exact h
      · rcases List.mem_cons.mp h with hj | hrest
        · right
          simp [keys, hj]
        · rcases ih hrest with hj | hj
          · left
            exact hj
          · right
            exact List.mem_cons_of_mem _ hj

theorem get?_eq_none {d : Dict K V} {k : K} (h : k ∉ d.keys) : d.get? k = none := by
  induction d with
  | nil => rfl
  | cons entry rest ih =>
      have hne : entry.1 ≠ k := fun heq => h (by simp [keys, heq])
      have hrest : k ∉ keys rest := fun hmem => h (List.mem_cons_of_mem _ hmem)
      show (if entry.1 = k then some entry.2 else get? rest k) = none
      rw [if_neg hne]
      exact ih hrest

/-- Looking up a key that was renamed injectively. -/
theorem get?_map {J W : Type} [DecidableEq J] {g : K → J} (hg : Function.Injective g)
    (f : V → W) (d : Dict K V) (k : K) :
    get? (d.map fun entry => (g entry.1, f entry.2)) (g k) = (d.get? k).map f := by
  induction d with
  | nil => rfl
  | cons entry rest ih =>
      show (if g entry.1 = g k then some (f entry.2) else _) =
        Option.map f (if entry.1 = k then some entry.2 else get? rest k)
      by_cases h : entry.1 = k
      · rw [if_pos h, if_pos (congrArg g h)]
        rfl
      · rw [if_neg h, if_neg fun heq => h (hg heq)]
        exact ih

end Dict

/-! ## Equality -/

/-- The number a value stands for when it is compared: `True == 1 == 1.0`. -/
def Json.number? : Json → Option PyFloat
  | bool b => some (.finite (if b then 1 else 0))
  | int n => some (.finite n)
  | float x => some x
  | null | str _ | arr _ | obj _ => none

mutual

/-- `x == y`.  The order of the entries of a dict does not matter, and NaN is equal to
nothing. -/
def Json.pyEq : Json → Json → Bool
  | .null, .null => true
  | .str s, .str s' => s == s'
  | .arr xs, .arr ys => Json.pyEqList xs ys
  | .obj entries, .obj others => entries.length == others.length &&
      Json.pyEqEntries entries others
  | x, y =>
      match x.number?, y.number? with
      | some p, some q => p != .nan && p == q
      | _, _ => false

def Json.pyEqList : List Json → List Json → Bool
  | [], [] => true
  | x :: xs, y :: ys => Json.pyEq x y && Json.pyEqList xs ys
  | _, _ => false

def Json.pyEqEntries : List (String × Json) → List (String × Json) → Bool
  | [], _ => true
  | entry :: rest, others => Json.pyEqEntry entry others && Json.pyEqEntries rest others

def Json.pyEqEntry : String × Json → List (String × Json) → Bool
  | (key, value), others =>
      match Dict.get? others key with
      | none => false
      | some other => Json.pyEq value other

end

/-! ## Dicts -/

mutual

/-- The keys of every dict in the value are distinct, as those of a Python dict are. -/
def Json.Distinct : Json → Prop
  | .arr xs => Json.DistinctItems xs
  | .obj entries => (Dict.keys entries).Nodup ∧ Json.DistinctValues entries
  | .null | .bool _ | .int _ | .float _ | .str _ => True

def Json.DistinctItems : List Json → Prop
  | [] => True
  | x :: xs => Json.Distinct x ∧ Json.DistinctItems xs

def Json.DistinctValues : List (String × Json) → Prop
  | [] => True
  | (_, value) :: rest => Json.Distinct value ∧ Json.DistinctValues rest

end

theorem Json.DistinctValues.get? {entries : Object} (h : Json.DistinctValues entries)
    {key : String} {value : Json} (hget : entries.get? key = some value) : value.Distinct := by
  induction entries with
  | nil => cases hget
  | cons entry rest ih =>
      rw [Dict.get?] at hget
      split at hget
      · cases hget
        exact h.1
      · exact ih h.2 hget

/-! ## Text -/

/-- `str.lower` on the ASCII names of the enumerations. -/
def lower (s : String) : String :=
  String.ofList (s.toList.map Char.toLower)

def replaceChar (old new : Char) (s : String) : String :=
  String.ofList (s.toList.map fun c => if c = old then new else c)

/-- `repr` of a plain Python string, and of a list of them. -/
def pyRepr (s : String) : String := "'" ++ s ++ "'"

def pyReprList (l : List String) : String := "[" ++ ", ".intercalate (l.map pyRepr) ++ "]"

/-! ## Raising -/

/-- `if c: raise e`. -/
def refuse {ε : Type} (c : Prop) [Decidable c] (e : ε) : Except ε Unit :=
  if c then .error e else .ok ()

theorem refuse_ok {ε : Type} {c : Prop} [Decidable c] {e : ε} {u : Unit} :
    refuse c e = .ok u ↔ ¬ c := by
  by_cases h : c
  · simp [refuse, h]
  · simp [refuse, h]

theorem bind_ok {ε α β : Type} {x : Except ε α} {f : α → Except ε β} {b : β} :
    (x >>= f) = .ok b ↔ ∃ a, x = .ok a ∧ f a = .ok b := by
  cases x with
  | error e => simp [bind, Except.bind]
  | ok a => simp [bind, Except.bind]

end Rcp
