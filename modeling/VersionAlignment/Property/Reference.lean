import VersionAlignment.Text.Blank

set_option autoImplicit false

namespace VersionAlignment.Property

def referenceChars? (cs : List Char) : Option (List Char) :=
  match Text.trimChars cs with
  | '$' :: '{' :: rest =>
    if rest.getLast? = some '}' then
      let name := rest.dropLast
      if name.isEmpty || name.any (fun c => c == '$' || c == '{' || c == '}') then none
      else some name
    else none
  | _ => none

/-- The property that a value stands for. A value that only contains references is a literal. -/
def reference? (value : String) : Option String :=
  (referenceChars? value.toList).map String.ofList

end VersionAlignment.Property
