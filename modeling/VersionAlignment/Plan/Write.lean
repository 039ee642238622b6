import VersionAlignment.Plan.Basic
import VersionAlignment.Toml.Style

set_option autoImplicit false

namespace VersionAlignment.Plan

def formatVersion : Nat := 1

def listText : List String → String
  | [] => "[]"
  | [s] => "[" ++ Toml.quotedValue s ++ "]"
  | texts => "[\n" ++ String.join (texts.map fun s => "    " ++ Toml.quotedValue s ++ ",\n") ++ "]"

def assignment (key value : String) : String := key ++ " = " ++ value ++ "\n"

def textAssignments (pairs : List (String × String)) : String :=
  String.join (pairs.map fun (key, s) => assignment key (Toml.quotedValue s))

def changeText : PlannedChange → String
  | .setProperty owner name value =>
    textAssignments [("op", "set_property"), ("module", owner), ("name", name), ("value", value)]
  | .injectProperty owner name value =>
    textAssignments
      [("op", "inject_property"), ("module", owner), ("name", name), ("value", value)]
  | .overrideVersion owner dependency old new =>
    textAssignments [("op", "override_inline_version"), ("module", owner),
      ("dependency", dependency), ("old_version", old), ("new_version", new)]
  | .manage owner dependency version former exclusions =>
    textAssignments [("op", "inject_managed_dependency"), ("module", owner),
      ("dependency", dependency), ("version", version), ("original_version", former)] ++
      (if exclusions.isEmpty then "" else assignment "exclusions" (listText exclusions))

def unalignedText (u : PlannedUnaligned) : String :=
  textAssignments [("module", u.owner), ("dependency", u.dependency),
    ("current_version", u.current), ("channel_version", u.target), ("reason", u.reason.keyword)]

def block (name body : String) : String := "\n[[" ++ name ++ "]]\n" ++ body

def render (plan : Plan) : String :=
  assignment "version" (toString formatVersion) ++
    assignment "not_covered" (listText plan.notCovered) ++
    -- Keys without a table of their own go before the first block.
    (if plan.changes.isEmpty then assignment "changes" (listText []) else "") ++
    (if plan.unaligned.isEmpty then assignment "unaligned" (listText []) else "") ++
    String.join (plan.changes.map fun c => block "changes" (changeText c)) ++
    String.join (plan.unaligned.map fun u => block "unaligned" (unalignedText u))

end VersionAlignment.Plan
