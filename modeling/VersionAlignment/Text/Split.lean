set_option autoImplicit false

namespace VersionAlignment.Text

def splitChars (sep : Char) : List Char → List (List Char)
  | [] => [[]]
  | c :: cs =>
    if c = sep then [] :: splitChars sep cs
    else match splitChars sep cs with
      | [] => [[c]]
      | piece :: pieces => (c :: piece) :: pieces

theorem splitChars_ne_nil (sep : Char) (cs : List Char) : splitChars sep cs ≠ [] := by
  cases cs with
  | nil => simp [splitChars]
  | cons c cs =>
    simp only [splitChars]
    split
    · simp
    · split <;> simp

theorem intercalate_splitChars (sep : Char) (cs : List Char) :
    [sep].intercalate (splitChars sep cs) = cs := by
  induction cs with
  | nil => simp [splitChars]
  | cons c cs ih =>
    have hne := splitChars_ne_nil sep cs
    simp only [splitChars]
    split
    · next h =>
      cases hs : splitChars sep cs with
      | nil => exact absurd hs hne
      | cons piece pieces => rw [hs] at ih; simp [List.intercalate_cons_cons, ih, h]
    · cases hs : splitChars sep cs with
      | nil => exact absurd hs hne
      | cons piece pieces =>
        rw [hs] at ih
        cases pieces with
        | nil => simpa using ih
        | cons p ps => simpa [List.intercalate_cons_cons] using ih

def split (sep : Char) (s : String) : List String :=
  (splitChars sep s.toList).map String.ofList

def splitOnce? (sep : Char) (s : String) : Option (String × String) :=
  match s.toList.span (· != sep) with
  | (before, _ :: after) => some (String.ofList before, String.ofList after)
  | (_, []) => none

def joinWith (sep : String) (parts : List String) : String := sep.intercalate parts

end VersionAlignment.Text
