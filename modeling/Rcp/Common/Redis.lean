/-
Hashes in Redis.

A key with a time to live is gone when that is over, and commands then find nothing under it.
-/
import Rcp.Common.Values

namespace Rcp
namespace Redis

structure Hash where
  fields : Dict String Rat := []
  /-- `none` without a time to live. -/
  expiresAt : Option Rat := none

abbrev Store := Dict String Hash

namespace Store

/-- The hash that a command finds. -/
def find (db : Store) (now : Rat) (key : String) : Option Hash :=
  (db.get? key).filter fun hash => hash.expiresAt.all fun limit => now < limit

/-- One field of `HMGET`. -/
def hmget (db : Store) (now : Rat) (key field : String) : Option Rat :=
  (db.find now key).bind fun hash => hash.fields.get? field

/-- `HMSET`, which keeps the other fields and the time to live. -/
def hmset (db : Store) (now : Rat) (key : String) (entries : Dict String Rat) : Store :=
  let hash := (db.find now key).getD {}
  db.set key
    { hash with fields := entries.foldl (fun fields e => fields.set e.1 e.2) hash.fields }

/-- `EXPIRE`. -/
def expire (db : Store) (now : Rat) (key : String) (seconds : Rat) : Store :=
  match db.find now key with
  | none => db
  | some hash => db.set key { hash with expiresAt := some (now + seconds) }

variable {db : Store} {now : Rat} {key : String}

theorem live_of_find {hash : Hash} (h : db.find now key = some hash) :
    (hash.expiresAt.all fun limit => decide (now < limit)) = true :=
  (Option.filter_eq_some_iff.mp h).2

theorem find_hmset (entries : Dict String Rat) :
    (db.hmset now key entries).find now key =
      some { (db.find now key).getD {} with
        fields := entries.foldl (fun fields e => fields.set e.1 e.2)
          ((db.find now key).getD {}).fields } := by
  unfold hmset
  rw [find, Dict.get?_set, if_pos rfl, Option.filter_some]
  refine if_pos ?_
  cases hfound : db.find now key with
  | none => rfl
  | some hash =>
      show (hash.expiresAt.all fun limit => decide (now < limit)) = true
      exact live_of_find hfound

/-- A write that renews the time to live touches no other key. -/
theorem get?_renewed (entries : Dict String Rat) (seconds : Rat) (other : String) :
    ((db.hmset now key entries).expire now key seconds).get? other =
      if key = other then
        some { fields := entries.foldl (fun fields e => fields.set e.1 e.2)
                 ((db.find now key).getD {}).fields
               expiresAt := some (now + seconds) }
      else db.get? other := by
  unfold expire
  rw [find_hmset]
  show Dict.get? (Dict.set (db.hmset now key entries) key _) other = _
  rw [Dict.get?_set]
  by_cases hother : key = other
  · rw [if_pos hother, if_pos hother]
  · rw [if_neg hother, if_neg hother]
    unfold hmset
    rw [Dict.get?_set, if_neg hother]

end Store

end Redis
end Rcp
