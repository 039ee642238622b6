import VersionAlignment.Proofs.ChangedProject
import VersionAlignment.Proofs.ManifestLookups

set_option autoImplicit false

namespace VersionAlignment

open Property

namespace ChannelIndex

theorem exists_stream_of_version? {man : Manifest} {c : Coordinate} {version : String}
    (covered : (ofManifest man).version? c = some version) :
    ∃ stream ∈ man.streams, stream.version = version := by
  rw [version?_ofManifest] at covered
  obtain ⟨stream, found, rfl⟩ := Option.map_eq_some_iff.1 covered
  refine ⟨stream, ?_, rfl⟩
  rcases Option.or_eq_some_iff.1 found with named | ⟨-, spans⟩
  · exact List.mem_of_find?_eq_some named
  · exact List.mem_of_find?_eq_some spans

end ChannelIndex

namespace Manifest

def IsLiteral (man : Manifest) : Prop := ∀ stream ∈ man.streams, reference? stream.version = none

def serve (man : Manifest) (given : Surroundings) : Surroundings :=
  { given with
    channel := fun c _ => (ChannelIndex.ofManifest man).version? c
    order := Version.compare }

def setting (man : Manifest) (p : Project) (given : Surroundings) (o : Options) : Setting :=
  .ofOptions p (man.serve given) o

theorem regular_setting {man : Manifest} (literal : man.IsLiteral) {o : Options}
    (unforced : (Policy.ofOptions o).Unforced) (p : Project) (given : Surroundings) :
    (man.setting p given o).Regular where
  maven := rfl
  unforced := unforced
  steady := fun _ _ _ => rfl
  literal := by
    intro c current target covered
    obtain ⟨stream, member, rfl⟩ := ChannelIndex.exists_stream_of_version? covered
    exact literal stream member

end Manifest

def twoReaders : Project where
  modules := [
    { group := "org.acme", artifact := "parent", version := "1", isRoot := true
      properties := [("netty", "1.0")]
      declarations := [
        { coordinate := ⟨"io.netty", "netty-buffer", "jar", none⟩
          version := some "$\x7bnetty\x7d" }] },
    { group := "org.acme", artifact := "core", version := "1", parent := some (.inside 0)
      declarations := [
        { coordinate := ⟨"io.netty", "netty-codec", "jar", none⟩
          version := some "$\x7bnetty\x7d" }] }]
  root := 0

def twoVersions : Manifest where
  streams := [⟨"io.netty", "netty-codec", "2.1"⟩, ⟨"io.netty", "*", "2.0"⟩]

def Surroundings.alone : Surroundings :=
  ⟨fun _ _ => none, fun _ _ => .ok none, fun _ => .ok [], Version.compare⟩

end VersionAlignment
