import Stubwright.Proofs.Disk.Action
import Stubwright.Proofs.Disk.Confinement
import Stubwright.Proofs.Stub.Layout

namespace Stubwright

open Disk Path

namespace Target

variable {target : Target} {root : String} {world : World} {base : Place}

structure GoesOn (root path : String) : Prop where
  absolute : isAbsolute path = isAbsolute root
  names : ∃ more, named path = named root ++ more ∧ ".." ∉ more

structure LiesBelow (target : Target) (root : String) : Prop where
  package : GoesOn root target.packageDirectory
  absolute : isAbsolute target.unitPath = isAbsolute root
  names : ∃ more, named target.unitPath = named root ++ more ∧ more ≠ [] ∧ ".." ∉ more

theorem LiesBelow.makePackage (lies : target.LiesBelow root) (houses : world.Houses root base) :
    ((target.makePackage.runIn world).2).Houses root base ∧
      ChangesBelow base world (target.makePackage.runIn world).2 := by
  obtain ⟨absolute, more, whole, downwards⟩ := lies.package
  have made : ((makeDirectories target.packageDirectory).runIn world).2.Houses root base ∧
      ChangesBelow base world ((makeDirectories target.packageDirectory).runIn world).2 := by
    refine makeDirectoriesAlong_preserves
      (fun after => after.Houses root base ∧ ChangesBelow base world after) ?_ ⟨houses, .refl _ _⟩
    rintro path member filled before after ⟨houses, confined⟩ made
    have along : isAbsolute path = isAbsolute root ∧ named path <+: named root ++ more := by
      rcases mem_ancestorsWithin member with nothing | rfl | upper
      · exact absurd nothing filled
      · exact ⟨absolute, whole ▸ List.prefix_rfl⟩
      · obtain ⟨rest, names, -⟩ := upper.names
        exact ⟨upper.absolute.trans absolute, rest, by rw [← names, whole]⟩
    obtain ⟨stillHouses, changes⟩ := houses.makeDirectory along.1 along.2 downwards made
    exact ⟨stillHouses, confined.trans changes⟩
  rw [Target.makePackage, Action.runIn_get_bind]
  split
  · exact ⟨houses, .refl _ _⟩
  · rw [Action.runIn_adapt]
    exact made

/-- Whatever becomes of the source file, nothing outside the root changes, and the root stays. -/
theorem LiesBelow.write (lies : target.LiesBelow root) (houses : world.Houses root base)
    (source : String) :
    ChangesBelow base world ((target.write source).runIn world).2 ∧
      Leads ((target.write source).runIn world).2.tree .target mostLinks (named root)
        (((target.write source).runIn world).2.start root) ⟨base, some .directory⟩ := by
  obtain ⟨stillHouses, confined⟩ := lies.makePackage houses
  rw [Target.write, Action.runIn_bind]
  rcases made : target.makePackage.runIn world with ⟨result, between⟩
  rw [made] at stillHouses confined
  cases result with
  | error failure => exact ⟨confined, stillHouses.leads⟩
  | ok done =>
      dsimp only
      rw [Action.runIn_perform]
      cases written : Change.writeFile target.unitPath (Text.Utf8.encodeString source) between with
      | error fault => exact ⟨confined, stillHouses.leads⟩
      | ok after =>
          obtain ⟨more, names, some_more, downwards⟩ := lies.names
          obtain ⟨changes, leads⟩ :=
            stillHouses.writeFile lies.absolute names some_more downwards written
          exact ⟨confined.trans changes, leads⟩

variable {settings : StubSettings} {name : TypeName}

def sourcePath (settings : StubSettings) (name : TypeName) : String :=
  inPackage name (settings.className name.simpleName ++ "." ++ settings.extension)

/-- What is below every root: a path that does not start anew and never goes upwards. -/
theorem liesBelow_resolve (relative : isAbsolute (sourcePath settings name) = false)
    (downwards : ".." ∉ pieces (sourcePath settings name)) (root : String) :
    (resolve settings root name).LiesBelow root := by
  have unitPath : (resolve settings root name).unitPath = join root (sourcePath settings name) := by
    unfold sourcePath at relative ⊢
    exact @unitPath_resolve settings root name relative
  have packageDirectory : (resolve settings root name).packageDirectory =
      join root (packagePath name) := by
    rw [resolve]
  have both := relative
  unfold sourcePath at both
  rw [inPackage, isAbsolute_join, Bool.or_eq_false_iff] at both
  have some_name : named (sourcePath settings name) ≠ [] := by
    refine named_ne_nil (c := '.') ?_ (by decide)
    unfold sourcePath
    rw [inPackage, join_eq_stem both.2]
    simp only [String.toList_append, List.mem_append]
    exact .inr (.inl (.inr (by decide)))
  have downwards_named : ".." ∉ named (sourcePath settings name) :=
    fun up => downwards (List.mem_filter.mp up).1
  refine ⟨⟨?_, named (packagePath name), ?_, fun up => downwards_named ?_⟩, ?_,
    named (sourcePath settings name), ?_, some_name, downwards_named⟩
  · rw [packageDirectory, isAbsolute_join, both.1, Bool.or_false]
  · rw [packageDirectory, named_join both.1]
  · unfold sourcePath
    rw [inPackage, named_join both.2]
    exact List.mem_append_left _ up
  · rw [unitPath, isAbsolute_join, relative, Bool.or_false]
  · rw [unitPath, named_join relative]

end Target

end Stubwright
