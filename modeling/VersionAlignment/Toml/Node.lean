import VersionAlignment.Toml.Value

set_option autoImplicit false

namespace VersionAlignment.Toml

/-- How a table came about, which decides whether a later header or dotted key may extend it. -/
inductive Origin
  | header
  | passed
  | dotted
  deriving DecidableEq, Repr

inductive Node
  | leaf (value : Value)
  | table (origin : Origin) (entries : List (String × Node))
  | tables (elements : List (List (String × Node)))

abbrev Nodes := List (String × Node)

namespace Nodes

def replace (key : String) (node : Node) (nodes : Nodes) : Nodes :=
  nodes.map fun entry => if entry.1 == key then (key, node) else entry

def erase (key : String) (nodes : Nodes) : Nodes := nodes.filter (·.1 != key)

def assign (value : Value) : List String → Origin → Nodes → Option Nodes
  | [], _, _ => none
  | [key], origin, nodes =>
    if origin = .dotted ∧ (nodes.lookup key).isNone then some (nodes ++ [(key, .leaf value)])
    else none
  | key :: path, _, nodes =>
    match nodes.lookup key with
    | none => (assign value path .dotted []).map fun made => nodes ++ [(key, .table .dotted made)]
    | some (.leaf _) => none
    -- A table with a header of its own is closed for dotted keys.
    | some (.table .header _) => none
    | some (.table origin inner) =>
      (assign value path origin inner).map fun next => replace key (.table origin next) nodes
    | some (.tables elements) =>
      match elements.getLast? with
      | none => none
      | some last => (assign value path .header last).map fun next =>
        replace key (.tables (elements.dropLast ++ [next])) nodes

def fill (nodes : Nodes) (pairs : List (List String × Value)) : Option Nodes :=
  pairs.foldlM (fun nodes (path, value) => assign value path .dotted nodes) nodes

def within (change : Nodes → Option Nodes) : List String → Nodes → Option Nodes
  | [], nodes => change nodes
  | key :: path, nodes =>
    match nodes.lookup key with
    | none => (within change path []).map fun made => nodes ++ [(key, .table .passed made)]
    | some (.leaf _) => none
    | some (.table origin inner) =>
      (within change path inner).map fun next => replace key (.table origin next) nodes
    -- Below an array of tables a header means the last of them.
    | some (.tables elements) =>
      match elements.getLast? with
      | none => none
      | some last => (within change path last).map fun next =>
        replace key (.tables (elements.dropLast ++ [next])) nodes

/-- Adds the table of a header. It may only exist as one that was passed on the way. -/
def openTable (key : String) (pairs : List (List String × Value)) (nodes : Nodes) :
    Option Nodes :=
  match nodes.lookup key with
  | none => (fill [] pairs).map fun made => nodes ++ [(key, .table .header made)]
  | some (.table .passed inner) =>
    -- Its place in the document is that of its own header.
    (fill inner pairs).map fun made => erase key nodes ++ [(key, .table .header made)]
  | some _ => none

def openElement (key : String) (pairs : List (List String × Value)) (nodes : Nodes) :
    Option Nodes :=
  match nodes.lookup key with
  | none => (fill [] pairs).map fun made => nodes ++ [(key, .tables [made])]
  | some (.tables elements) =>
    (fill [] pairs).map fun made => replace key (.tables (elements ++ [made])) nodes
  | some _ => none

end Nodes

mutual

def Node.value : Node → Value
  | .leaf value => value
  | .table _ nodes => .table (tableOfNodes nodes)
  | .tables elements => .array (tablesOfNodes elements)

def tableOfNodes : List (String × Node) → Table
  | [] => []
  | (key, node) :: rest => (key, node.value) :: tableOfNodes rest

def tablesOfNodes : List (List (String × Node)) → List Value
  | [] => []
  | nodes :: rest => .table (tableOfNodes nodes) :: tablesOfNodes rest

end

end VersionAlignment.Toml
