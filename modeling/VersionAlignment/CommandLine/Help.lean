import VersionAlignment.CommandLine.Arguments

set_option autoImplicit false

namespace VersionAlignment.CommandLine

def programName : String := "channel-align"

def programVersion : String := "0.1.0"

def optionLine (name value : String) : String := "  --" ++ name ++ value

def PlaceOption.line (option : PlaceOption) : String :=
  optionLine option.name (if option.isPath then " <PATH>" else " <TEXT>")

def commandLines : List String :=
  (Flag.all.map fun f => optionLine (switchName f) "") ++
    EntryList.all.map fun l => optionLine (entriesName l) " <ENTRY,...>"

def helpText : String :=
  "\n".intercalate <|
    [s!"Usage: {programName} [OPTIONS] <align|verify> [ALIGNMENT OPTIONS]", "", "Options:"] ++
    PlaceOption.all.map PlaceOption.line ++ ["", "Alignment options:"] ++ commandLines

def versionText : String := s!"{programName} {programVersion}"

end VersionAlignment.CommandLine
