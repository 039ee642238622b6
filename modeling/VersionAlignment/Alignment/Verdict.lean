import VersionAlignment.Alignment.Run

set_option autoImplicit false

namespace VersionAlignment

open Property

inductive Verdict
  | pass
  | uncovered
  | unresolved (property : String) (error : Option PropertyError)
  | leave (current target : String) (reason : Reason)
  | inline (current target : String)
  /-- The written version is replaced, since the property is locked at another version. -/
  | inlineBeside (site : Site) (locked target : String)
  | write (site : Site) (target : String)
  /-- The property stays at its value from now on, which may not be lowered. -/
  | hold (site : Site) (current target : String)
  /-- The property stays at its value from now on, as it may not be defined in the project. -/
  | withhold (site : Site) (current target : String)
  deriving DecidableEq, Repr

inductive Written
  | literal (version : String)
  | reference (name : String) (resolution : Except PropertyError (Option Resolution))

namespace Written

def read (s : Setting) (index : Nat) (raw : String) : Written :=
  match reference? raw with
  | none => .literal raw
  | some name => .reference name (s.resolve index name)

def current? : Written → Option String
  | .literal version => some version
  | .reference _ (.ok (some resolution)) => some resolution.value
  | .reference _ _ => none

end Written

namespace Verdict

def ofInline (s : Setting) (current target : String) : Verdict :=
  if s.isMove current target then .inline current target
  else .leave current target .downgradeRefused

def ofUnlocked (s : Setting) (site : Site) (current target : String) : Verdict :=
  if !s.isMove current target then .hold site current target
  else if site.outside && !s.options.injectExternalProperties then .withhold site current target
  else .write site target

def ofLocked (s : Setting) (site : Site) (lock : Lock) (target : String) : Verdict :=
  match lock.origin with
  | .override => .leave lock.value target .overridden
  | .channel =>
    if s.isSame lock.value target then .pass
    else if s.isMove lock.value target then .inlineBeside site lock.value target
    else .leave lock.value target .downgradeRefused

def ofResolution (s : Setting) (locks : Locks) (r : Resolution) (target : String) : Verdict :=
  if s.policy.ignoresProperty r.site.name then .leave r.value target .ignoredProperty
  else match locks.get? r.site with
    | some lock => ofLocked s r.site lock target
    | none => ofUnlocked s r.site r.value target

def ofReference (s : Setting) (locks : Locks) (name target : String) :
    Except PropertyError (Option Resolution) → Verdict
  | .ok (some r) =>
    if s.policy.ignoresProperty name then .leave r.value target .ignoredProperty
    else ofResolution s locks r target
  | .ok none => if s.policy.ignoresProperty name then .pass else .unresolved name none
  | .error error => if s.policy.ignoresProperty name then .pass else .unresolved name (some error)

def ofTarget (s : Setting) (locks : Locks) (target : String) : Written → Verdict
  | .literal version => ofInline s version target
  | .reference name resolution =>
    if s.options.inlineVersions then
      match resolution with
      | .ok (some r) => ofInline s r.value target
      | .ok none => .unresolved name none
      | .error error => .unresolved name (some error)
    else ofReference s locks name target resolution

def ofIgnored (s : Setting) (c : Coordinate) (reason : Reason) (written : Written) : Verdict :=
  match written.current? with
  | none => .pass
  | some current =>
    match s.given.channel c current with
    | some target => .leave current target reason
    | none => .pass

end Verdict

def judge (s : Setting) (run : Run) (index : Nat) (d : Declaration) (raw : String) : Verdict :=
  if s.project.owns d.coordinate || run.overridden.contains (index, d.coordinate) then .pass
  else
    let written := Written.read s index raw
    match s.policy.ignores? d.coordinate d.effectiveScope with
    | some reason => Verdict.ofIgnored s d.coordinate reason written
    | none =>
      -- Text that does not resolve is put to the channel as it is written.
      match s.given.channel d.coordinate (written.current?.getD raw) with
      | none => .uncovered
      | some target => Verdict.ofTarget s run.locks target written

def propertyWrite (site : Site) (value : String) : Change :=
  if site.outside then .injectProperty site.owner site.name value
  else .setProperty site.owner site.name value

def undefinedMessage : String := "property is not defined in the project or its parents"

def withheldMessage : String :=
  "property is only defined in an external parent and injection is disabled"

def Run.carryOut (run : Run) (s : Setting) (index : Nat) (c : Coordinate) (raw : String) :
    Verdict → Run
  | .pass => run
  | .uncovered => run.leaveUncovered c
  | .unresolved property error =>
    run.warn ⟨index, c, some property, (error.map PropertyError.message).getD undefinedMessage⟩
  | .leave current target reason => run.report s ⟨index, c, current, target, reason⟩
  | .inline current target =>
    (run.note s!"Aligning {c} inline: {current} -> {target}").push
      (.overrideVersion index c raw target)
  | .inlineBeside site locked target =>
    (run.note s!"Property {site} is locked to {locked}, aligning {c} inline to {target}").push
      (.overrideVersion index c raw target)
  | .write site target =>
    let change := propertyWrite site target
    ((run.note s!"Aligning {c}: {change}").lock site target .channel).push change
  | .hold site current target =>
    (run.report s ⟨index, c, current, target, .downgradeRefused⟩).lock site current .channel
  | .withhold site current target =>
    ((run.warn ⟨index, c, some site.name, withheldMessage⟩).report s
      ⟨index, c, current, target, .notInjected⟩).lock site current .channel

end VersionAlignment
