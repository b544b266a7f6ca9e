/-
The static district geography (`services/volunteer/app/domain/districts.py`).
-/
import Mathlib.Data.List.Sort
import Rcp.Common.Outbox

namespace Rcp
namespace Volunteer

def adjacency : List (String × List String) :=
  [ ("Colombo", ["Gampaha", "Kalutara", "Kegalle", "Ratnapura"]),
    ("Gampaha", ["Colombo", "Kegalle", "Kurunegala", "Puttalam"]),
    ("Kalutara", ["Colombo", "Galle", "Ratnapura"]),
    ("Kandy", ["Badulla", "Kegalle", "Kurunegala", "Matale", "Nuwara Eliya"]),
    ("Matale", ["Anuradhapura", "Kandy", "Kurunegala", "Polonnaruwa"]),
    ("Nuwara Eliya", ["Badulla", "Kandy", "Kegalle", "Ratnapura"]),
    ("Galle", ["Kalutara", "Matara", "Ratnapura"]),
    ("Matara", ["Galle", "Hambantota", "Ratnapura"]),
    ("Hambantota", ["Ampara", "Matara", "Moneragala", "Ratnapura"]),
    ("Jaffna", ["Kilinochchi"]),
    ("Kilinochchi", ["Jaffna", "Mannar", "Mullaitivu"]),
    ("Mannar", ["Anuradhapura", "Kilinochchi", "Puttalam", "Vavuniya"]),
    ("Vavuniya", ["Anuradhapura", "Mannar", "Mullaitivu", "Trincomalee"]),
    ("Mullaitivu", ["Kilinochchi", "Trincomalee", "Vavuniya"]),
    ("Trincomalee", ["Anuradhapura", "Batticaloa", "Mullaitivu", "Polonnaruwa", "Vavuniya"]),
    ("Batticaloa", ["Ampara", "Polonnaruwa", "Trincomalee"]),
    ("Ampara", ["Badulla", "Batticaloa", "Hambantota", "Moneragala", "Polonnaruwa"]),
    ("Kurunegala",
      ["Anuradhapura", "Gampaha", "Kandy", "Kegalle", "Matale", "Puttalam"]),
    ("Puttalam", ["Anuradhapura", "Gampaha", "Kurunegala", "Mannar"]),
    ("Anuradhapura",
      ["Kurunegala", "Mannar", "Matale", "Polonnaruwa", "Puttalam", "Trincomalee",
        "Vavuniya"]),
    ("Polonnaruwa",
      ["Ampara", "Anuradhapura", "Badulla", "Batticaloa", "Matale", "Trincomalee"]),
    ("Badulla",
      ["Ampara", "Kandy", "Moneragala", "Nuwara Eliya", "Polonnaruwa", "Ratnapura"]),
    ("Moneragala", ["Ampara", "Badulla", "Hambantota", "Ratnapura"]),
    ("Ratnapura",
      ["Badulla", "Colombo", "Galle", "Hambantota", "Kalutara", "Kegalle", "Matara",
        "Moneragala", "Nuwara Eliya"]),
    ("Kegalle",
      ["Colombo", "Gampaha", "Kandy", "Kurunegala", "Nuwara Eliya", "Ratnapura"]) ]

def districts : List String := adjacency.map Prod.fst

def isValidDistrict (name : String) : Bool := districts.contains name

inductive BroadcastType
  | radiusL1
  | radiusL2
  | targeted
  deriving DecidableEq, Repr

/-- `sorted(set(...))`. -/
def sortedSet (names : List String) : List String :=
  names.dedup.insertionSort (· ≤ ·)

/-- The concrete district list a broadcast draws volunteers from, or the text of
the `ValueError`. -/
def resolveBroadcastDistricts (broadcastType : BroadcastType) (sourceDistrict : String)
    (targetDistricts : List String) : Except String (List String) :=
  if !districts.contains sourceDistrict then
    .error ("Unknown district: " ++ pyRepr sourceDistrict)
  else
    match broadcastType with
    | .radiusL1 => .ok [sourceDistrict]
    | .radiusL2 =>
        .ok (sortedSet (sourceDistrict :: (adjacency.lookup sourceDistrict).getD []))
    | .targeted =>
        if targetDistricts.isEmpty then .error "TARGETED broadcast requires target_districts"
        else
          let unknown := targetDistricts.filter fun d => !districts.contains d
          if unknown.isEmpty then .ok (sortedSet targetDistricts)
          else .error ("Unknown district(s): " ++ pyReprList unknown)

end Volunteer
end Rcp
