import VersionAlignment.Version.Parse

set_option autoImplicit false

namespace VersionAlignment.Version

/-- An item against a missing one; a list is judged by its first item. -/
def Item.compareMissing : Item → Ordering
  | .number value => compare value 0
  | .qualifier q => q.compare .release
  | .list [] => .eq
  | .list (item :: _) => item.compareMissing

def compareNone : List Item → Ordering
  | [] => .eq
  | item :: items => item.compareMissing.then (compareNone items)

mutual

/-- Qualifiers rank below lists and lists below numbers. -/
def Item.compare : Item → Item → Ordering
  | .number a, .number b => Ord.compare a b
  | .number _, _ => .gt
  | .qualifier a, .qualifier b => a.compare b
  | .qualifier _, _ => .lt
  | .list _, .number _ => .lt
  | .list _, .qualifier _ => .gt
  | .list as, .list bs => compareItems as bs

def compareItems : List Item → List Item → Ordering
  -- Missing items are judged one by one, so that zeros and releases at the end do not count.
  | as, [] => compareNone as
  | [], bs => (compareNone bs).swap
  | a :: as, b :: bs => (a.compare b).then (compareItems as bs)

end

def compare (a b : String) : Ordering := compareItems (parse a) (parse b)

/-- Whether a version is to be moved from `old` to `new`: upwards always, downwards only where that
is allowed. -/
def isMove (order : String → String → Ordering) (keepHigher : Bool) (old new : String) : Bool :=
  match order new old with
  | .gt => true
  | .lt => !keepHigher
  | .eq => false

end VersionAlignment.Version
