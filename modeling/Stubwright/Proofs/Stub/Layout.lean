import Stubwright.Proofs.Disk.Action
import Stubwright.Proofs.Disk.Path
import Stubwright.Proofs.Hierarchy.Assembly
import Stubwright.Proofs.Stub.SourceText
import Stubwright.Stub.Emission

namespace Stubwright

open Text Disk

namespace TypeName

variable {name : TypeName} {segment : String}

theorem mem_binaryName_of_packageName {c : Char} (member : c ∈ name.packageName.toList) :
    c ∈ name.binaryName.toList := by
  unfold packageName at member
  split at member
  · rename_i package tail found
    rw [String.toList_ofList] at member
    rw [eq_of_cutLast found]
    exact List.mem_append_left _ member
  · simp at member

theorem mem_binaryName_of_simpleName {c : Char} (member : c ∈ name.simpleName.toList) :
    c ∈ name.binaryName.toList := by
  rw [simpleName, String.toList_ofList] at member
  exact mem_of_mem_afterLast (mem_of_mem_afterLast member)

theorem period_not_mem_simpleName (name : TypeName) : '.' ∉ name.simpleName.toList := by
  intro member
  rw [simpleName, String.toList_ofList] at member
  exact not_mem_afterLast '.' _ (mem_of_mem_afterLast member)

theorem period_not_mem_of_mem_packageSegments (member : segment ∈ name.packageSegments) :
    '.' ∉ segment.toList := by
  obtain ⟨piece, listed, rfl⟩ := List.mem_map.mp member
  rw [String.toList_ofList]
  exact not_mem_of_mem_cut (List.mem_of_mem_filter listed)

theorem ne_empty_of_mem_packageSegments (member : segment ∈ name.packageSegments) :
    segment ≠ "" := by
  obtain ⟨piece, listed, rfl⟩ := List.mem_map.mp member
  have filled := (List.mem_filter.mp listed).2
  intro empty
  have nothing : piece = [] := by simpa using congrArg String.toList empty
  simp [nothing] at filled

theorem mem_packageName_of_mem_packageSegments {c : Char}
    (member : segment ∈ name.packageSegments) (inside : c ∈ segment.toList) :
    c ∈ name.packageName.toList := by
  obtain ⟨piece, listed, rfl⟩ := List.mem_map.mp member
  rw [String.toList_ofList] at inside
  exact mem_of_mem_piece (List.mem_of_mem_filter listed) inside

/-- A name with no slash, in a package with nothing missing between its periods. -/
structure IsPlain (name : TypeName) : Prop where
  flat : '/' ∉ name.binaryName.toList
  gapless : name.packageName ≠ "" → [] ∉ cut '.' name.packageName.toList

theorem packageSegments_of_unnamed (unnamed : name.packageName = "") :
    name.packageSegments = [] := by
  rw [packageSegments, unnamed]
  rfl

theorem IsPlain.packageSegments_of_named (plain : name.IsPlain) (inPackage : name.packageName ≠ "") :
    name.packageSegments = (cut '.' name.packageName.toList).map String.ofList := by
  have filled : ∀ piece ∈ cut '.' name.packageName.toList, (!piece.isEmpty) = true := by
    intro piece member
    cases piece with
    | nil => exact absurd member (plain.gapless inPackage)
    | cons c rest => rfl
  rw [packageSegments, List.filter_eq_self.mpr filled]

theorem IsPlain.join_packageSegments (plain : name.IsPlain) (between : Char) :
    Text.join [between] (name.packageSegments.map String.toList) =
      swap '.' between name.packageName.toList := by
  by_cases unnamed : name.packageName = ""
  · rw [packageSegments_of_unnamed unnamed, unnamed]
    rfl
  · have turned : String.toList ∘ String.ofList = id := funext fun _ => String.toList_ofList
    rw [plain.packageSegments_of_named unnamed, List.map_map, turned, List.map_id,
      join_cut_eq_swap]

theorem IsPlain.packageName_eq_of_packageSegments {other : TypeName} (plain : name.IsPlain)
    (plainToo : other.IsPlain) (same : other.packageSegments = name.packageSegments) :
    other.packageName = name.packageName := by
  have kept (text : List Char) : swap '.' '.' text = text := by
    rw [← join_cut_eq_swap, join_cut]
  have texts := plainToo.join_packageSegments '.'
  rw [same, plain.join_packageSegments '.', kept, kept] at texts
  exact String.toList_inj.mp texts.symm

theorem IsPlain.relative_of_mem (plain : name.IsPlain) (member : segment ∈ name.packageSegments) :
    '/' ∉ segment.toList := fun slash =>
  plain.flat (mem_binaryName_of_packageName (mem_packageName_of_mem_packageSegments member slash))

end TypeName

structure StubSettings.IsPlain (settings : StubSettings) : Prop where
  suffix : ∀ c ∈ settings.suffix.toList, c ≠ '/' ∧ c ≠ '.'
  extension : ∀ c ∈ settings.extension.toList, c ≠ '/' ∧ c ≠ '.'

namespace StubSettings.IsPlain

variable {settings : StubSettings} {name : TypeName}

theorem mem_className {c : Char} (member : c ∈ (settings.className name.simpleName).toList) :
    c ∈ name.simpleName.toList ∨ c ∈ settings.suffix.toList := by
  rwa [StubSettings.className, String.toList_append, List.mem_append] at member

theorem slash_not_mem_className (plain : settings.IsPlain) (plainName : name.IsPlain) :
    '/' ∉ (settings.className name.simpleName).toList := by
  intro member
  rcases mem_className member with inName | inSuffix
  · exact plainName.flat (TypeName.mem_binaryName_of_simpleName inName)
  · exact (plain.suffix '/' inSuffix).1 rfl

theorem period_not_mem_className (plain : settings.IsPlain) (name : TypeName) :
    '.' ∉ (settings.className name.simpleName).toList := by
  intro member
  rcases mem_className member with inName | inSuffix
  · exact name.period_not_mem_simpleName inName
  · exact (plain.suffix '.' inSuffix).2 rfl

theorem slash_not_mem_sourceFile (plain : settings.IsPlain) (plainName : name.IsPlain) :
    '/' ∉ (settings.className name.simpleName ++ "." ++ settings.extension).toList := by
  have suffixed := plain.slash_not_mem_className plainName
  have extended : '/' ∉ settings.extension.toList := fun member => (plain.extension '/' member).1 rfl
  simp [suffixed, extended]

theorem slash_not_mem_classFile (plain : settings.IsPlain) (plainName : name.IsPlain) :
    '/' ∉ (settings.className name.simpleName ++ ".class").toList := by
  have suffixed := plain.slash_not_mem_className plainName
  simp [suffixed]

end StubSettings.IsPlain

namespace Target

open Path

variable {settings : StubSettings} {root file : String} {name other : TypeName}

def inPackage (name : TypeName) (file : String) : String :=
  join (packagePath name) file

theorem artifactPath_resolve (settings : StubSettings) (root : String) (name : TypeName) :
    (resolve settings root name).artifactPath =
      inPackage name (settings.className name.simpleName ++ ".class") := by
  rw [resolve, inPackage]

theorem isAbsolute_inPackage (name : TypeName) (file : String) :
    isAbsolute (inPackage name file) = (name.packageSegments.any isAbsolute || isAbsolute file) := by
  rw [inPackage, isAbsolute_join, packagePath, isAbsolute_ofSegments]

theorem unitPath_resolve
    (relative : isAbsolute
      (inPackage name (settings.className name.simpleName ++ "." ++ settings.extension)) = false) :
    (resolve settings root name).unitPath =
      join root (inPackage name (settings.className name.simpleName ++ "." ++ settings.extension)) := by
  rw [inPackage, isAbsolute_join, Bool.or_eq_false_iff] at relative
  rw [inPackage, ← join_assoc relative.1 relative.2, resolve]

theorem inPackage_eq_ofSegments (name : TypeName) (file : String) :
    inPackage name file = ofSegments (name.packageSegments ++ [file]) := by
  rw [inPackage, packagePath, ofSegments, ofSegments, List.foldl_append, List.foldl_cons,
    List.foldl_nil]

theorem flat_packageSegments (plain : name.IsPlain) : Flat name.packageSegments :=
  fun _ member =>
    ⟨TypeName.ne_empty_of_mem_packageSegments member, plain.relative_of_mem member⟩

theorem flat_below (plain : name.IsPlain) (some_char : file ≠ "") (flat : '/' ∉ file.toList) :
    Flat (name.packageSegments ++ [file]) := by
  intro segment member
  rcases List.mem_append.mp member with inside | last
  · exact flat_packageSegments plain segment inside
  · rw [List.mem_singleton.mp last]
    exact ⟨some_char, flat⟩

theorem pieces_inPackage (plain : name.IsPlain) (some_char : file ≠ "")
    (flat : '/' ∉ file.toList) : pieces (inPackage name file) = name.packageSegments ++ [file] := by
  rw [inPackage_eq_ofSegments, pieces_ofSegments (flat_below plain some_char flat) (by simp)]

theorem relative_inPackage (plain : name.IsPlain) (flat : '/' ∉ file.toList) :
    isAbsolute (inPackage name file) = false := by
  rw [isAbsolute_inPackage, isAbsolute_eq_false_of_not_mem flat, Bool.or_false, List.any_eq_false]
  intro segment member
  simp [isAbsolute_eq_false_of_not_mem (plain.relative_of_mem member)]

theorem packagePath_eq_swapped (plain : name.IsPlain) :
    packagePath name = swapped '.' '/' name.packageName := by
  refine String.toList_inj.mp ?_
  rw [packagePath, toList_ofSegments (flat_packageSegments plain), plain.join_packageSegments,
    swapped, String.toList_ofList]

theorem inPackage_eq_swapped (plain : name.IsPlain) (some_char : file ≠ "")
    (flat : '/' ∉ file.toList) :
    inPackage name file =
      if name.packageName = "" then file else swapped '.' '/' name.packageName ++ "/" ++ file := by
  refine String.toList_inj.mp ?_
  rw [inPackage_eq_ofSegments, toList_ofSegments (flat_below plain some_char flat), List.map_append,
    List.map_singleton, join_concat, plain.join_packageSegments]
  by_cases unnamed : name.packageName = ""
  · rw [TypeName.packageSegments_of_unnamed unnamed, if_pos unnamed]
    rfl
  · rw [plain.packageSegments_of_named unnamed, if_neg (by simp [cut_ne_nil]), if_neg unnamed]
    simp [swapped]

theorem isComponent_append {stem : String} (some_char : stem ≠ "") (clean : '.' ∉ stem.toList)
    (tail : String) : isComponent (stem ++ tail) = true := by
  obtain ⟨c, rest, text⟩ :=
    List.exists_cons_of_ne_nil fun empty => some_char (String.toList_eq_nil_iff.mp empty)
  have other : c ≠ '.' := by
    rintro rfl
    simp [text] at clean
  have filled : stem ++ tail ≠ "" := by simp [some_char]
  have named : stem ++ tail ≠ "." := by
    intro period
    have texts := congrArg String.toList period
    simp [text, other] at texts
  simp [isComponent, filled, named]

theorem isComponent_of_mem_packageSegments {segment : String}
    (member : segment ∈ name.packageSegments) : isComponent segment = true := by
  have whole := isComponent_append (TypeName.ne_empty_of_mem_packageSegments member)
    (TypeName.period_not_mem_of_mem_packageSegments member) ""
  rwa [String.append_empty] at whole

theorem components_join_inPackage (plain : name.IsPlain) (counts : isComponent file = true)
    (flat : '/' ∉ file.toList) (base : String) :
    components (join base (inPackage name file)) =
      components base ++ (name.packageSegments ++ [file]) := by
  have some_char : file ≠ "" := by
    rintro rfl
    contradiction
  have cutOut := pieces_inPackage plain some_char flat
  have all_count : ∀ segment ∈ name.packageSegments ++ [file], isComponent segment = true := by
    intro segment member
    rcases List.mem_append.mp member with inside | last
    · exact isComponent_of_mem_packageSegments inside
    · rw [List.mem_singleton.mp last, counts]
  have front : (pieces (inPackage name file)).head? ≠ some "." := by
    rw [cutOut]
    intro period
    exact absurd (all_count "." (List.mem_of_head? period)) (by decide)
  rw [components_join_of_head (relative_inPackage plain flat) front, cutOut,
    List.filter_eq_self.mpr all_count]

theorem components_inPackage (plain : name.IsPlain) (counts : isComponent file = true)
    (flat : '/' ∉ file.toList) :
    components (inPackage name file) = name.packageSegments ++ [file] := by
  have fromNowhere := components_join_inPackage plain counts flat ""
  rw [join_eq_stem (relative_inPackage plain flat)] at fromNowhere
  have bare : stem "" ++ inPackage name file = inPackage name file := String.empty_append
  rw [bare] at fromNowhere
  exact fromNowhere

end Target

namespace CompilationUnit

def packageLines (unit : CompilationUnit) : String :=
  if unit.packageName.isEmpty then "" else "package " ++ unit.packageName ++ ";\n\n"

/-- Where a compiler puts the class of a unit below the directory for classes: in one directory for
each name of the package that the unit declares. -/
def classPlace (unit : CompilationUnit) : List String :=
  (if unit.packageName.isEmpty then [] else (cut '.' unit.packageName.toList).map String.ofList) ++
    [unit.className ++ ".class"]

theorem unlines_packageHead (unit : CompilationUnit) :
    unlines unit.packageHead = unit.packageLines.toList := by
  by_cases unnamed : unit.packageName = "" <;> simp [packageHead, packageLines, unnamed]

theorem sourceText_begins (settings : StubSettings) (unit : CompilationUnit) :
    ∃ body, unit.sourceText settings =
      unit.packageLines ++ "public class " ++ unit.className ++ " " ++ body := by
  refine ⟨unit.relation.keyword ++ " " ++ unit.target ++ " \x7b" ++ "\n" ++
    String.ofList (unlines (unit.memberLines settings ++ [['\x7d']])), ?_⟩
  refine String.toList_inj.mp ?_
  rw [toList_sourceText, allLines, unlines_append, unlines_packageHead, unlines_cons]
  unfold headLine
  have feed : "\n".toList = ['\n'] := rfl
  simp only [String.toList_append, String.toList_ofList, List.append_assoc, feed,
    List.singleton_append]

end CompilationUnit

namespace Target

open Path

variable {settings : StubSettings} {lineage : Lineage} {unit : CompilationUnit} {root : String}

theorem emit_ok {world after : World} {emitted : EmittedUnit} {name : TypeName}
    (written : (unit.emit settings name root).runIn world = (.ok emitted, after)) :
    emitted = ⟨resolve settings root name, unit.className, unit.qualifiedName⟩ := by
  obtain ⟨_, between, -, reported⟩ := Action.ok_of_runIn_bind written
  rw [Action.runIn_pure] at reported
  cases reported
  rfl

theorem names_of_implementation (generated : lineage.implementation settings = .ok unit) :
    unit.packageName = lineage.self.name.packageName ∧
      unit.className = settings.className lineage.self.name.simpleName := by
  obtain ⟨_, _, generated⟩ := ok_of_bind generated
  obtain ⟨constructor, _, generated⟩ := ok_of_bind generated
  cases generated
  exact ⟨rfl, rfl⟩

section Plain

variable {name other : TypeName}

theorem classFile_counts (plainSettings : settings.IsPlain)
    (some_name : settings.className name.simpleName ≠ "") (tail : String) :
    isComponent (settings.className name.simpleName ++ tail) = true :=
  isComponent_append some_name (plainSettings.period_not_mem_className name) tail

theorem entryName_resolve (plainSettings : settings.IsPlain) (plain : name.IsPlain)
    (some_name : settings.className name.simpleName ≠ "") (root : String) :
    (resolve settings root name).entryName =
      inPackage name (settings.className name.simpleName ++ ".class") := by
  have flat := plainSettings.slash_not_mem_classFile plain
  have cutOut := components_inPackage plain (classFile_counts plainSettings some_name ".class") flat
  rw [entryName, artifactPath_resolve, cutOut, inPackage_eq_ofSegments,
    ofSegments_eq_intercalate (flat_below plain (by simp) flat)]

theorem pieces_entryName (plainSettings : settings.IsPlain) (plain : name.IsPlain)
    (some_name : settings.className name.simpleName ≠ "") (root : String) :
    pieces (resolve settings root name).entryName =
      name.packageSegments ++ [settings.className name.simpleName ++ ".class"] := by
  rw [entryName_resolve plainSettings plain some_name,
    pieces_inPackage plain (by simp) (plainSettings.slash_not_mem_classFile plain)]

/-- An entry name tells the package and the simple name of its target. -/
theorem names_eq_of_entryName {otherRoot : String} (plainSettings : settings.IsPlain)
    (plain : name.IsPlain) (some_name : settings.className name.simpleName ≠ "")
    (plainToo : other.IsPlain) (some_nameToo : settings.className other.simpleName ≠ "")
    (same : (resolve settings otherRoot other).entryName = (resolve settings root name).entryName) :
    other.packageName = name.packageName ∧ other.simpleName = name.simpleName := by
  have places := congrArg pieces same
  rw [pieces_entryName plainSettings plain some_name,
    pieces_entryName plainSettings plainToo some_nameToo, List.append_singleton_inj] at places
  obtain ⟨segments, file⟩ := places
  rw [String.append_left_inj, StubSettings.className, StubSettings.className,
    String.append_left_inj] at file
  exact ⟨plain.packageName_eq_of_packageSegments plainToo segments, file⟩

end Plain

/-- Everything that names the place of a generated class names the same one: the source file, the
package that its text declares, the class file, the entry in an archive, and the qualified name. -/
structure OneLayout (settings : StubSettings) (root : String) (lineage : Lineage)
    (unit : CompilationUnit) : Prop where
  sourceFile : components (resolve settings root lineage.self.name).unitPath =
    components root ++ lineage.self.name.packageSegments ++
      [unit.className ++ "." ++ settings.extension]
  text : ∃ body, unit.sourceText settings =
    unit.packageLines ++ "public class " ++ unit.className ++ " " ++ body
  sourceDirectory : (resolve settings root lineage.self.name).unitPath =
    join (join root (swapped '.' '/' unit.packageName)) (unit.className ++ "." ++ settings.extension)
  classFile : (resolve settings root lineage.self.name).artifactPath =
    join (swapped '.' '/' unit.packageName) (unit.className ++ ".class")
  entry : (resolve settings root lineage.self.name).entryName =
    swapped '.' '/' unit.qualifiedName ++ ".class"
  relative : isAbsolute (resolve settings root lineage.self.name).entryName = false
  entryPlace : pieces (resolve settings root lineage.self.name).entryName = unit.classPlace
  compiled : ∀ output,
    components (join output (resolve settings root lineage.self.name).artifactPath) =
      components output ++ unit.classPlace
  reported : ∀ world emitted after,
    (unit.emit settings lineage.self.name root).runIn world = (.ok emitted, after) →
      emitted = ⟨resolve settings root lineage.self.name, unit.className, unit.qualifiedName⟩
  distinct : ∀ (other : TypeName) otherRoot, other.IsPlain →
    settings.className other.simpleName ≠ "" →
    (resolve settings otherRoot other).entryName =
        (resolve settings root lineage.self.name).entryName →
      other.packageName = lineage.self.name.packageName ∧
        other.simpleName = lineage.self.name.simpleName

theorem swapped_qualifiedName (clean : '.' ∉ unit.className.toList) :
    swapped '.' '/' unit.qualifiedName =
      if unit.packageName = "" then unit.className
      else swapped '.' '/' unit.packageName ++ "/" ++ unit.className := by
  refine String.toList_inj.mp ?_
  have alone : swap '.' '/' unit.className.toList = unit.className.toList := swap_of_not_mem clean
  have period : swap '.' '/' ".".toList = "/".toList := rfl
  rw [swapped, String.toList_ofList, CompilationUnit.qualifiedName]
  by_cases unnamed : unit.packageName = ""
  · rw [if_pos unnamed, if_pos (by simpa using unnamed), alone]
  · rw [if_neg unnamed, if_neg (by simpa using unnamed), String.toList_append, String.toList_append,
      swap_append, swap_append, alone, period, String.toList_append, String.toList_append]
    simp only [swapped, String.toList_ofList]

theorem classPlace_eq (plain : lineage.self.name.IsPlain)
    (generated : lineage.implementation settings = .ok unit) :
    unit.classPlace = lineage.self.name.packageSegments ++ [unit.className ++ ".class"] := by
  rw [CompilationUnit.classPlace, (names_of_implementation generated).1]
  by_cases unnamed : lineage.self.name.packageName = ""
  · rw [TypeName.packageSegments_of_unnamed unnamed, unnamed]
    rfl
  · rw [plain.packageSegments_of_named unnamed, if_neg (by simpa using unnamed)]

/-- Whatever is generated for a plain name under plain settings has one layout. -/
theorem oneLayout_of_plain (plainSettings : settings.IsPlain) (plain : lineage.self.name.IsPlain)
    (some_name : settings.className lineage.self.name.simpleName ≠ "")
    (generated : lineage.implementation settings = .ok unit) (root : String) :
    OneLayout settings root lineage unit := by
  obtain ⟨package, named⟩ := names_of_implementation generated
  have clean : '.' ∉ unit.className.toList := by
    rw [named]
    exact plainSettings.period_not_mem_className _
  have sourceFlat := plainSettings.slash_not_mem_sourceFile plain
  have classFlat := plainSettings.slash_not_mem_classFile plain
  have sourceCounts := classFile_counts plainSettings some_name ("." ++ settings.extension)
  have classCounts := classFile_counts plainSettings some_name ".class"
  have path := packagePath_eq_swapped plain
  have entered := entryName_resolve plainSettings plain some_name root
  rw [← String.append_assoc] at sourceCounts
  rw [← named] at sourceFlat classFlat sourceCounts classCounts entered
  constructor
  case sourceFile =>
    have below := relative_inPackage plain sourceFlat
    rw [named] at below
    rw [unitPath_resolve below, ← named, components_join_inPackage plain sourceCounts sourceFlat,
      List.append_assoc]
  case text => exact unit.sourceText_begins settings
  case sourceDirectory => rw [package, ← path, named, resolve]
  case classFile => rw [package, ← path, named, resolve]
  case entry =>
    rw [entered, inPackage_eq_swapped plain (by simp) classFlat, swapped_qualifiedName clean, package]
    split
    · rfl
    · simp only [String.append_assoc]
  case relative => rw [entered, relative_inPackage plain classFlat]
  case entryPlace =>
    rw [pieces_entryName plainSettings plain some_name, classPlace_eq plain generated, named]
  case compiled =>
    intro output
    rw [artifactPath_resolve, ← named, components_join_inPackage plain classCounts classFlat,
      classPlace_eq plain generated]
  case reported => exact fun world emitted after => emit_ok
  case distinct =>
    exact fun other otherRoot => names_eq_of_entryName plainSettings plain some_name

/-- An interface inside another type, two packages deep. -/
def nestedRow : Lineage where
  self :=
    { name := ⟨"kit.data.Table$Row"⟩
      kind := .interfaceType
      modifiers := .ofList [.publicAccess, .abstractMember]
      constructors := []
      methods := []
      interfaces := []
      publicMethods := [] }
  ancestors := []

theorem oneLayout_of_nestedRow :
    ∃ unit, nestedRow.implementation {} = .ok unit ∧ OneLayout {} "out" nestedRow unit ∧
      (resolve {} "out" nestedRow.self.name).entryName = "kit/data/RowImpl.class" ∧
      unit.qualifiedName = "kit.data.RowImpl" := by
  have plain : nestedRow.self.name.IsPlain := ⟨by decide, by decide⟩
  have plainSettings : StubSettings.IsPlain {} := ⟨by simp, by simp⟩
  refine ⟨_, rfl, ?_, by decide, by decide⟩
  exact oneLayout_of_plain plainSettings plain (by decide) rfl "out"

end Target

end Stubwright
