set_option autoImplicit false

namespace VersionAlignment.CommandLine

inductive Refusal
  | usage
  | help
  | version
  deriving DecidableEq, Repr

inductive Meaning (ι : Type)
  | value (option : ι)
  | switch (option : ι)
  | help
  | version

structure Grammar (ι σ : Type) where
  long? : String → Option (Meaning ι)
  short? : Char → Option (Meaning ι)
  giveValue? : σ → ι → String → Option σ
  giveSwitch? : σ → ι → Option σ
  isCommand : String → Bool

/-- The settings so far, and an option at the end whose value is not taken in. -/
structure Progress (ι σ : Type) where
  settings : σ
  pending : Option (ι × Option String) := none

structure Invocation where
  command : String
  arguments : List String
  deriving DecidableEq, Repr

section

variable {ι σ : Type}

def given : Option σ → Except Refusal σ
  | some settings => .ok settings
  | none => .error .usage

def settle (g : Grammar ι σ) (p : Progress ι σ) : Except Refusal σ :=
  match p.pending with
  | none => .ok p.settings
  | some (option, some value) => given (g.giveValue? p.settings option value)
  | some (_, none) => .error .usage

def takeOption (g : Grammar ι σ) (p : Progress ι σ) (meaning : Meaning ι)
    (attached : Option String) : Except Refusal (Progress ι σ) :=
  match meaning, attached with
  | .value option, some value => do
    let settings ← settle g p
    return { settings := ← given (g.giveValue? settings option value) }
  | .value option, none => do return { settings := ← settle g p, pending := some (option, none) }
  | .switch _, some _ | .help, some _ | .version, some _ => .error .usage
  | .switch option, none => do
    let settings ← settle g p
    return { settings := ← given (g.giveSwitch? settings option) }
  | .help, none => do
    let _ ← settle g p
    .error .help
  | .version, none => do
    let _ ← settle g p
    .error .version

def takeLong (g : Grammar ι σ) (p : Progress ι σ) (cs : List Char) :
    Except Refusal (Progress ι σ) :=
  let (name, rest) := cs.span (· != '=')
  match g.long? (String.ofList name) with
  | none => .error .usage
  | some meaning => takeOption g p meaning (rest.head?.map fun _ => String.ofList rest.tail)

def attachedToShort : List Char → Option String
  | [] => none
  | '=' :: cs => some (String.ofList cs)
  | cs => some (String.ofList cs)

def takeShorts (g : Grammar ι σ) (p : Progress ι σ) : List Char → Except Refusal (Progress ι σ)
  | [] => .ok p
  | c :: cs =>
    match g.short? c with
    | none => .error .usage
    | some (.value option) => takeOption g p (.value option) (attachedToShort cs)
    | some meaning => do takeShorts g (← takeOption g p meaning none) cs

def takeWord (p : Progress ι σ) (word : String) : Except Refusal (Progress ι σ) :=
  match p.pending with
  | some (option, none) => .ok { p with pending := some (option, some word) }
  | _ => .error .usage

def Progress.wantsValue (p : Progress ι σ) : Bool :=
  match p.pending with
  | some (_, none) => true
  | _ => false

def scan (g : Grammar ι σ) (p : Progress ι σ) :
    List String → Except Refusal (Progress ι σ × Option Invocation)
  | [] => .ok (p, none)
  | word :: rest =>
    -- A value may look like a command.
    if !p.wantsValue && g.isCommand word then .ok (p, some ⟨word, rest⟩)
    else match word.toList with
      -- Nothing may follow two hyphens on their own.
      | ['-', '-'] => if rest.isEmpty then .ok (p, none) else .error .usage
      | '-' :: '-' :: cs => do scan g (← takeLong g p cs) rest
      | '-' :: c :: cs => do scan g (← takeShorts g p (c :: cs)) rest
      | _ => do scan g (← takeWord p word) rest

end

end VersionAlignment.CommandLine
