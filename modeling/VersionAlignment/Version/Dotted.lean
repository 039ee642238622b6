import VersionAlignment.Version.Order

set_option autoImplicit false

namespace VersionAlignment.Version

def dotted (runs : List (List Char)) : String := String.ofList (['.'].intercalate runs)

def filledUp (length : Nat) (numbers : List Nat) : List Nat :=
  numbers ++ List.replicate (length - numbers.length) 0

/-- The lexicographic order of two sequences, the shorter one filled up with zeros. -/
def compareNumbers (as bs : List Nat) : Ordering :=
  Ord.compare (filledUp bs.length as) (filledUp as.length bs)

@[simp] theorem compareNumbers_nil : compareNumbers [] [] = .eq := rfl

@[simp] theorem compareNumbers_nil_cons (b : Nat) (bs : List Nat) :
    compareNumbers [] (b :: bs) = (Ord.compare 0 b).then (compareNumbers [] bs) := by
  simp [compareNumbers, filledUp, List.replicate_succ, List.compare_cons_cons]

@[simp] theorem compareNumbers_cons_nil (a : Nat) (as : List Nat) :
    compareNumbers (a :: as) [] = (Ord.compare a 0).then (compareNumbers as []) := by
  simp [compareNumbers, filledUp, List.replicate_succ, List.compare_cons_cons]

@[simp] theorem compareNumbers_cons_cons (a b : Nat) (as bs : List Nat) :
    compareNumbers (a :: as) (b :: bs) = (Ord.compare a b).then (compareNumbers as bs) := by
  simp [compareNumbers, filledUp, List.compare_cons_cons]

end VersionAlignment.Version
