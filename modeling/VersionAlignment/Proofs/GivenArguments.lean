import Mathlib.Data.List.TakeDrop
import Mathlib.Data.List.TakeWhile
import VersionAlignment.CommandLine.Arguments
import VersionAlignment.Proofs.Outcomes

set_option autoImplicit false

namespace VersionAlignment.CommandLine

inductive Given
  | switch (f : Flag)
  | entries (l : EntryList) (value : String)
  deriving DecidableEq

def Given.entriesOf (l : EntryList) : Given → List String
  | .switch _ => []
  | .entries k value => if k = l then Text.split ',' value else []

structure Gives (given : List Given) (a : PolicyArguments) : Prop where
  once : ∀ f, given.count (.switch f) ≤ 1
  switch : ∀ f, a.switch f = true ↔ .switch f ∈ given
  entries : ∀ l, a.entries l = given.flatMap (Given.entriesOf l)

namespace PolicyArguments

variable {a b : PolicyArguments}

theorem ext (switch : ∀ f, a.switch f = b.switch f) (entries : ∀ l, a.entries l = b.entries l) :
    a = b := by
  cases a
  cases b
  rw [mk.injEq]
  exact ⟨funext switch, funext entries⟩

end PolicyArguments

section

variable {p q : Progress CommandOption PolicyArguments} {a b : PolicyArguments} {word : String}
  {words rest : List String}

def finish (p : Progress CommandOption PolicyArguments) (words : List String) :
    Except Refusal PolicyArguments := do
  let (q, _) ← scan commandGrammar p words
  settle commandGrammar q

end

end VersionAlignment.CommandLine
