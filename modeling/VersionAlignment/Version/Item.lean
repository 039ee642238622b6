set_option autoImplicit false

namespace VersionAlignment.Version

inductive Qualifier
  | alpha
  | beta
  | milestone
  | candidate
  | snapshot
  | release
  | servicePack
  | vendor (name : String)
  deriving DecidableEq, Repr

/-- Qualifiers in the order of the releases they mark; a vendor's build comes after all of them. -/
def Qualifier.rank : Qualifier → Nat
  | .alpha => 0
  | .beta => 1
  | .milestone => 2
  | .candidate => 3
  | .snapshot => 4
  | .release => 5
  | .servicePack => 6
  | .vendor _ => 7

def Qualifier.compare : Qualifier → Qualifier → Ordering
  | .vendor a, .vendor b => Ord.compare a b
  | a, b => Ord.compare a.rank b.rank

def Qualifier.ofWord (word : String) : Qualifier :=
  match word with
  | "alpha" => .alpha
  | "beta" => .beta
  | "milestone" => .milestone
  | "rc" | "cr" => .candidate
  | "snapshot" => .snapshot
  | "" | "ga" | "final" | "release" => .release
  | "sp" => .servicePack
  | _ => .vendor word

/-- A lone `a`, `b` or `m` right before a digit is short for a whole word. -/
def Qualifier.beforeDigit (word : String) : Qualifier :=
  match word with
  | "a" => .alpha
  | "b" => .beta
  | "m" => .milestone
  | _ => .ofWord word

inductive Item
  | number (value : Nat)
  | qualifier (q : Qualifier)
  | list (items : List Item)
  deriving Repr

/-- Items that count as absent: zero, the plain release and the empty list. -/
def Item.isNull : Item → Bool
  | .number value => value == 0
  | .qualifier q => q == .release
  | .list items => items.isEmpty

def Item.isList : Item → Bool
  | .list _ => true
  | _ => false

/-- Drops null items from the front, up to the first that is neither null nor a list. -/
def dropNull : List Item → List Item
  | [] => []
  | item :: items =>
    if item.isNull then dropNull items
    else if item.isList then item :: dropNull items
    else item :: items

/-- Drops the null items at the end of a list, also before nested lists. -/
def normalize (items : List Item) : List Item := (dropNull items.reverse).reverse

end VersionAlignment.Version
