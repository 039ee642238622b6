import VersionAlignment.Property.Walk
import VersionAlignment.Sorted

set_option autoImplicit false

namespace VersionAlignment

inductive LockOrigin
  | channel
  | override
  deriving DecidableEq, Repr

structure Lock where
  value : String
  origin : LockOrigin
  deriving DecidableEq, Repr

structure Locks where
  entries : List (Property.Site × Lock) := []
  deriving DecidableEq, Repr

namespace Locks

def get? (locks : Locks) (site : Property.Site) : Option Lock := locks.entries.lookup site

def lock (locks : Locks) (site : Property.Site) (lock : Lock) : Locks :=
  match locks.get? site with
  | some _ => locks
  | none => ⟨(site, lock) :: locks.entries⟩

def size (locks : Locks) : Nat := locks.entries.length

theorem get?_lock (locks : Locks) (site other : Property.Site) (new : Lock) :
    (locks.lock site new).get? other =
      if other = site then some ((locks.get? site).getD new) else locks.get? other := by
  unfold lock
  cases h : locks.get? site with
  | some old =>
    by_cases same : other = site
    · simp [same, h]
    · simp [same]
  | none => exact Sorted.lookup_cons site other new locks.entries

end Locks

end VersionAlignment
