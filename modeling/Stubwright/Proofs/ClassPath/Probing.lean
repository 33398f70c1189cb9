import Stubwright.ClassPath
import Stubwright.Proofs.Disk.Fresh

namespace Stubwright

open Disk Disk.Path
open Text hiding join

namespace ClassPath

variable {world other : World} {directory name : String} {base : Place}

def namePieces (name : String) : List String :=
  (name.toList.splitOnP fun c => c == '.' || c == '/').map String.ofList

def lastPiece (name : String) : String :=
  (namePieces name).getLastD ""

/-- What stands before the last piece of a name, without empty pieces. -/
def packages (name : String) : List String :=
  (namePieces name).dropLast.filter (· != "")

def below (name : String) : List String :=
  packages name ++ [lastPiece name ++ ".class"]

theorem namePieces_eq (name : String) : namePieces name = pieces (swapped '.' '/' name) := by
  rw [namePieces, pieces, swapped, String.toList_ofList, cut_swap]

theorem lastPiece_eq (name : String) :
    lastPiece name = String.ofList (afterLast '/' (swapped '.' '/' name).toList) := by
  rw [lastPiece, namePieces_eq, pieces, cut_eq_dropLast_append, List.map_append, List.map_singleton,
    List.getLastD_concat]

theorem pieces_classFileName (name : String) :
    pieces (classFileName name) = (namePieces name).dropLast ++ [lastPiece name ++ ".class"] := by
  rw [classFileName, pieces_append_of_not_mem (by decide), ← namePieces_eq, ← lastPiece_eq]

theorem clean_of_mem_namePieces {piece : String} (member : piece ∈ namePieces name) :
    '.' ∉ piece.toList ∧ '/' ∉ piece.toList := by
  rw [namePieces_eq] at member
  refine ⟨fun period => ?_, not_mem_of_mem_pieces member⟩
  have inside := mem_of_mem_pieces member period
  rw [swapped, String.toList_ofList] at inside
  exact not_mem_swap (by decide) name.toList inside

theorem flat_lastPiece (name : String) : '/' ∉ (lastPiece name ++ ".class").toList := by
  have member : lastPiece name ++ ".class" ∈ pieces (classFileName name) := by
    simp [pieces_classFileName]
  exact not_mem_of_mem_pieces member

theorem isName_lastPiece (name : String) : IsName (lastPiece name ++ ".class") :=
  ⟨flat_lastPiece name, 'c', by simp, by decide⟩

theorem isName_of_mem_below {piece : String} (member : piece ∈ below name) : IsName piece := by
  rcases List.mem_append.mp member with package | last
  · obtain ⟨listed, filled⟩ := List.mem_filter.mp package
    obtain ⟨period, flat⟩ := clean_of_mem_namePieces (List.dropLast_subset _ listed)
    obtain ⟨c, inside⟩ := List.exists_mem_of_ne_nil piece.toList (by simpa using filled)
    refine ⟨flat, c, inside, ?_⟩
    rintro rfl
    exact period inside
  · rw [List.mem_singleton.mp last]
    exact isName_lastPiece name

theorem flat_below (name : String) : Flat (below name) :=
  fun _ member => ⟨(isName_of_mem_below member).ne_empty, (isName_of_mem_below member).flat⟩

theorem below_ne_nil (name : String) : below name ≠ [] := by
  simp [below]

theorem below_inj {name other : String} :
    below other = below name ↔ lastPiece other = lastPiece name ∧ packages other = packages name := by
  constructor
  · intro same
    obtain ⟨fronts, lasts⟩ := List.append_inj' same rfl
    exact ⟨(String.append_left_inj _).mp (List.singleton_inj.mp lasts), fronts⟩
  · rintro ⟨lasts, fronts⟩
    rw [below, below, lasts, fronts]

theorem pieces_below (name : String) : pieces ("/".intercalate (below name)) = below name :=
  pieces_intercalate (fun _ member => (flat_below name _ member).2) (below_ne_nil name)

theorem isAbsolute_below (name : String) : isAbsolute ("/".intercalate (below name)) = false := by
  rw [← ofSegments_eq_intercalate (flat_below name), isAbsolute_ofSegments, List.any_eq_false]
  intro piece member
  simp [isAbsolute_eq_false_of_not_mem (flat_below name piece member).2]

/-- Empty pieces are joined like all the others, but leave no trace in the path. -/
theorem probe_eq (directory name : String) :
    probe directory name = join directory ("/".intercalate (below name)) := by
  have walked : probe directory name = (pieces (classFileName name)).foldl join directory := rfl
  have clean : ∀ piece ∈ (namePieces name).dropLast, '/' ∉ piece.toList :=
    fun piece member => (clean_of_mem_namePieces (List.dropLast_subset _ member)).2
  rw [walked, pieces_classFileName, foldl_join_concat clean (flat_lastPiece name),
    join_eq_stem (isAbsolute_below name), below, packages]

theorem isAbsolute_probe (directory name : String) :
    isAbsolute (probe directory name) = isAbsolute directory := by
  rw [probe_eq, isAbsolute_join, isAbsolute_below, Bool.or_false]

theorem components_probe (directory name : String) :
    components (probe directory name) = components directory ++ below name := by
  have head : (pieces ("/".intercalate (below name))).head? ≠ some "." := by
    rw [pieces_below]
    intro first
    exact (isName_of_mem_below (List.mem_of_head? first)).isStill_eq_false (.inl rfl)
  have counted : (below name).filter isComponent = below name := by
    refine List.filter_eq_self.mpr fun piece member => ?_
    have isName := isName_of_mem_below member
    have apart : piece ≠ "." := fun still => isName.isStill_eq_false (.inl still)
    simp [isComponent, isName.ne_empty, apart]
  rw [probe_eq, components_join_of_head (isAbsolute_below name) head, pieces_below, counted]

theorem named_probe (directory name : String) :
    named (probe directory name) = named directory ++ below name := by
  have filled : named ("/".intercalate (below name)) = below name := by
    rw [named, pieces_below, List.filter_eq_self]
    intro piece member
    simpa using (flat_below name piece member).1
  rw [probe_eq, named_join (isAbsolute_below name), filled]

theorem steps_probe (directory name : String) :
    steps (probe directory name) = named directory ++ below name := by
  have ended : probe directory name =
      join ((namePieces name).dropLast.foldl join directory) (lastPiece name ++ ".class") := by
    have walked : probe directory name = (pieces (classFileName name)).foldl join directory := rfl
    rw [walked, pieces_classFileName, List.foldl_append]
    rfl
  rw [← named_probe, ended, (isName_lastPiece name).steps_join]

/-- What a path finds below a directory is at the end of the way, and is found in every world that
has the directory there and the same on the way. -/
theorem locate_probe {spot : Spot}
    (located : world.locate directory = .ok ⟨base, some .directory⟩)
    (isOpen : world.tree.IsOpen base (below name))
    (found : world.locate (probe directory name) = .ok spot) :
    spot.place = base ++ below name ∧
      ∀ other : World, other.locate directory = .ok ⟨base, some .directory⟩ →
        (∀ front, front <+: below name →
          other.tree.node? (base ++ front) = world.tree.node? (base ++ front)) →
        other.locate (probe directory name) = .ok spot := by
  obtain ⟨usable, leads⟩ := World.locate_eq_ok.mp found
  have starts (any : World) : any.start (probe directory name) = any.start directory :=
    any.start_of_absolute (isAbsolute_probe directory name)
  rw [steps_probe, starts] at leads
  obtain ⟨_, descent⟩ := exists_descent_of_locate located
  obtain ⟨_, place, descentToo, goes_on⟩ := leads.descends (below_ne_nil name)
  obtain rfl : place = base := descent.unique descentToo
  have names : ∀ piece ∈ below name, ¬ (piece = "." ∨ piece = "/") ∧ piece ≠ ".." :=
    fun piece member =>
      ⟨(isName_of_mem_below member).isStill_eq_false, (isName_of_mem_below member).ne_upwards⟩
  obtain ⟨there, again⟩ := goes_on.along_names names isOpen
  refine ⟨there, fun other locatedToo agree => World.locate_eq_ok.mpr ⟨usable, ?_⟩⟩
  obtain ⟨left, otherDescent⟩ := exists_descent_of_locate locatedToo
  rw [steps_probe, starts]
  exact otherDescent.leads (below_ne_nil name) (by simp) (again other.tree left agree)

theorem inDirectory_eq (world : World) (directory name : String) :
    inDirectory world directory name =
      match world.nodeAt? (probe directory name) with
      | some (.file content _) => .ok (some ⟨content, probe directory name⟩)
      | _ => .ok none := by
  rw [inDirectory, World.isFile, World.nodeAt?, World.readFile]
  rcases world.locate (probe directory name) with _ | ⟨place, _ | (_ | _ | _ | _)⟩
  all_goals rfl

theorem nodeAt?_probe (located : world.locate directory = .ok ⟨base, some .directory⟩)
    (locatedToo : other.locate directory = .ok ⟨base, some .directory⟩)
    (isOpen : world.tree.IsOpen base (below name))
    (agree : ∀ front, front <+: below name →
      other.tree.node? (base ++ front) = world.tree.node? (base ++ front)) :
    other.nodeAt? (probe directory name) = world.nodeAt? (probe directory name) := by
  rw [World.nodeAt?, World.nodeAt?]
  cases found : world.locate (probe directory name) with
  | ok spot => rw [(locate_probe located isOpen found).2 other locatedToo agree]
  | error fault =>
      cases foundToo : other.locate (probe directory name) with
      | error faultToo => rfl
      | ok spot =>
          -- What the other world finds is found in this one as well.
          have isOpenToo : other.tree.IsOpen base (below name) := by
            intro front target onWay
            rw [agree front onWay]
            exact isOpen front target onWay
          have back := (locate_probe locatedToo isOpenToo foundToo).2 world located
            fun front onWay => (agree front onWay).symm
          rw [found] at back
          cases back

theorem inDirectory_cases (located : world.locate directory = .ok ⟨base, some .directory⟩)
    (isOpen : world.tree.IsOpen base (below name)) :
    world.isFile (probe directory name) = false ∧ inDirectory world directory name = .ok none ∨
      ∃ content isExecutable,
        world.tree.node? (base ++ below name) = some (.file content isExecutable) ∧
        inDirectory world directory name = .ok (some ⟨content, probe directory name⟩) := by
  rw [inDirectory_eq, World.isFile, World.nodeAt?]
  cases found : world.locate (probe directory name) with
  | error fault => exact .inl ⟨rfl, rfl⟩
  | ok spot =>
      obtain ⟨place, node⟩ := spot
      obtain ⟨-, leads⟩ := World.locate_eq_ok.mp found
      obtain rfl : place = base ++ below name := (locate_probe located isOpen found).1
      rcases node with _ | (_ | ⟨content, isExecutable⟩ | _ | _)
      case some.file =>
        obtain ⟨-, there, -⟩ := leads.ends_in_name (by simp)
        exact .inr ⟨content, isExecutable, there.symm, rfl⟩
      all_goals exact .inl ⟨rfl, rfl⟩

/-- An entry of the class path that is the same in two worlds: a directory without links, by what is
in it, or anything else, by what opening it as an archive gives. -/
inductive Alike (world other : World) (entry : String) : Prop
  | directory {base : Place} (located : world.locate entry = .ok ⟨base, some .directory⟩)
      (locatedToo : other.locate entry = .ok ⟨base, some .directory⟩)
      (no_link : ∀ place target, base <+: place → world.tree.node? place ≠ some (.link target))
      (same : ∀ place, base <+: place → other.tree.node? place = world.tree.node? place)
  | single (exist : other.pathExists entry = world.pathExists entry)
      (leaf : world.isDirectory entry = false) (leafToo : other.isDirectory entry = false)
      (opens : openArchive other entry = openArchive world entry)

theorem pathExists_of_locate (located : world.locate directory = .ok ⟨base, some .directory⟩) :
    world.pathExists directory = true ∧ world.isDirectory directory = true := by
  rw [World.pathExists, World.isDirectory, World.nodeAt?, located]
  exact ⟨rfl, rfl⟩

theorem Alike.hitAt_eq {entry : String} (alike : Alike world other entry) (name : String) :
    hitAt other name entry = hitAt world name entry := by
  rw [hitAt, hitAt]
  cases alike with
  | directory located locatedToo no_link same =>
      obtain ⟨there, files⟩ := pathExists_of_locate located
      obtain ⟨thereToo, filesToo⟩ := pathExists_of_locate locatedToo
      have found : other.nodeAt? (probe entry name) = world.nodeAt? (probe entry name) :=
        nodeAt?_probe located locatedToo
          (fun front target _ => no_link _ target (List.prefix_append _ front))
          fun front _ => same _ (List.prefix_append _ front)
      rw [there, thereToo, files, filesToo, if_pos rfl, if_pos rfl, inDirectory_eq, inDirectory_eq,
        found]
  | single exist leaf leafToo opens =>
      rw [exist, leaf, leafToo, opened, opened, opens, if_neg Bool.false_ne_true,
        if_neg Bool.false_ne_true]

theorem loadAlong_congr {entries : List String}
    (alike : ∀ entry ∈ entries, Alike world other entry) (name : String) :
    loadAlong other name entries = loadAlong world name entries := by
  induction entries with
  | nil => rfl
  | cons entry others ih =>
      rw [List.forall_mem_cons] at alike
      rw [loadAlong, loadAlong, alike.1.hitAt_eq, ih alike.2]

/-- A directory has a name at the end of a way that goes on from it with names alone. Without links
on that way nothing else is read. -/
structure StaysBelow (directory name : String) : Prop where
  extends_directory : probe directory name =
    ((namePieces name).dropLast ++ [lastPiece name ++ ".class"]).foldl Path.join directory
  segments : ∀ segment ∈ (namePieces name).dropLast ++ [lastPiece name ++ ".class"],
    segment ≠ "." ∧ segment ≠ ".." ∧ '/' ∉ segment.toList
  text : probe directory name = Path.join directory ("/".intercalate (below name))
  components : components (probe directory name) = components directory ++ below name
  told : ∀ other : String,
    (Path.components (probe directory other) = Path.components (probe directory name) ↔
      lastPiece other = lastPiece name ∧ packages other = packages name) ∧
    (probe directory other = probe directory name ↔
      lastPiece other = lastPiece name ∧ packages other = packages name)
  reads : ∀ (world : World) (base : Place),
    world.locate directory = .ok ⟨base, some .directory⟩ →
    world.tree.IsOpen base (below name) →
    world.isFile (probe directory name) = false ∧ inDirectory world directory name = .ok none ∨
      ∃ content isExecutable,
        world.tree.node? (base ++ below name) = some (.file content isExecutable) ∧
        inDirectory world directory name = .ok (some ⟨content, probe directory name⟩)

theorem staysBelow (directory name : String) : StaysBelow directory name where
  extends_directory := by
    rw [← pieces_classFileName]
    rfl
  segments := by
    intro segment member
    have flat : '/' ∉ segment.toList := by
      rw [← pieces_classFileName] at member
      exact not_mem_of_mem_pieces member
    rcases List.mem_append.mp member with front | last
    · have period := (clean_of_mem_namePieces (List.dropLast_subset _ front)).1
      refine ⟨?_, ?_, flat⟩ <;> rintro rfl <;> exact period (by decide)
    · rw [List.mem_singleton.mp last]
      have isName := isName_lastPiece name
      exact ⟨fun still => isName.isStill_eq_false (.inl still), isName.ne_upwards, isName.flat⟩
  text := probe_eq directory name
  components := components_probe directory name
  told := by
    intro other
    rw [components_probe, components_probe, List.append_cancel_left_eq, below_inj]
    refine ⟨Iff.rfl, fun same => ?_, fun same => ?_⟩
    · have ways := congrArg Path.components same
      rwa [components_probe, components_probe, List.append_cancel_left_eq, below_inj] at ways
    · rw [probe_eq, probe_eq, below_inj.mpr same]
  reads := fun _ _ located isOpen => inDirectory_cases located isOpen

/-- No name leads out of a directory of the class path: what is found for it depends on nothing
outside of the entries. -/
theorem lookups_stay_below :
    (∀ directory name, StaysBelow directory name) ∧
      ∀ (classPath : ClassPath) (world other : World),
        (∀ entry ∈ classPath.entries, Alike world other entry) →
          ∀ name, (classPath.source other).lookup name = (classPath.source world).lookup name := by
  refine ⟨staysBelow, fun classPath world other alike name => ?_⟩
  have same : classPath.load other name = classPath.load world name := loadAlong_congr alike name
  rw [source, source]
  dsimp only
  rw [same]

/-- A directory with the class file of a name that is hardly one, and a class file outside of it. -/
def dottedWorld (outside : List UInt8) : World where
  tree := ⟨[(["cp"], .directory), (["cp", "a"], .directory), (["cp", "a", "b"], .directory),
    (["cp", "a", "b", ".class"], .file [202, 254] false), ([".class"], .file outside false)]⟩
  workingDirectory := []
  environment := []

theorem dottedWorld_no_link (outside : List UInt8) (place : Place) (target : String) :
    (dottedWorld outside).tree.node? place ≠ some (.link target) := by
  cases place with
  | nil => simp
  | cons name rest =>
      simp only [dottedWorld, Tree.node?, List.lookup_cons]
      repeat' split
      all_goals simp

theorem lookups_stay_below_dotted :
    below "..//a..b." = ["a", "b", ".class"] ∧
      probe "cp/" "..//a..b." = "cp/a/b/.class" ∧
      probe "cp/" "a/b." = probe "cp/" "..//a..b." ∧
      inDirectory (dottedWorld []) "cp/" "..//a..b." =
        .ok (some ⟨[202, 254], "cp/a/b/.class"⟩) ∧
      (source ⟨["cp/"]⟩ (dottedWorld [1])).lookup "..//a..b." =
        (source ⟨["cp/"]⟩ (dottedWorld [])).lookup "..//a..b." := by
  obtain ⟨stays, unseen⟩ := lookups_stay_below
  have way : below "..//a..b." = ["a", "b", ".class"] := by decide +kernel
  have stay := stays "cp/" "..//a..b."
  have path : probe "cp/" "..//a..b." = "cp/a/b/.class" := by
    rw [stay.text, way]
    decide +kernel
  have located (outside : List UInt8) :
      (dottedWorld outside).locate "cp/" = .ok ⟨["cp"], some .directory⟩ := rfl
  refine ⟨way, path, (stay.told "a/b.").2.mpr (by decide +kernel), ?_, ?_⟩
  · rcases stay.reads _ ["cp"] (located []) fun _ target _ => dottedWorld_no_link _ _ target with
      ⟨missing, -⟩ | ⟨content, isExecutable, there, found⟩
    · have stands : (dottedWorld []).isFile (probe "cp/" "..//a..b.") = true := by decide +kernel
      rw [stands] at missing
      cases missing
    · rw [way] at there
      have held : some (Node.file [202, 254] false) = some (.file content isExecutable) := there
      cases held
      rw [found, path]
  · refine unseen ⟨["cp/"]⟩ _ _ (fun entry member => ?_) _
    obtain rfl : entry = "cp/" := List.mem_singleton.mp member
    refine .directory (located []) (located [1]) (fun _ _ _ => dottedWorld_no_link _ _ _) ?_
    rintro place ⟨rest, rfl⟩
    simp [dottedWorld, Tree.node?, List.lookup_cons]

end ClassPath

end Stubwright
