import Stubwright.Proofs.Stub.Layout

/-!
Which names keep their files below the root. Names are taken as they come; a part of a name that
begins with a slash is an absolute path, and joining replaces the root by it.
-/
namespace Stubwright

open Text Disk

namespace Disk.Path

variable {path base more piece : String}

/-- A name that leads neither upwards nor nowhere. -/
def IsOrdinary (piece : String) : Prop :=
  piece ≠ "." ∧ piece ≠ ".."

def LeadsOn (base path : String) : Prop :=
  ∃ below, below ≠ [] ∧ (∀ piece ∈ below, IsOrdinary piece) ∧
    named path = named base ++ below ∧ components path = components base ++ below

theorem isOrdinary_of_not_mem (clean : '.' ∉ piece.toList) : IsOrdinary piece := by
  constructor
  · rintro rfl
    exact clean (by decide)
  · rintro rfl
    exact clean (by decide)

theorem isOrdinary_of_mem {c : Char} (member : c ∈ piece.toList) (other : c ≠ '.') :
    IsOrdinary piece := by
  constructor
  · rintro rfl
    simp [other] at member
  · rintro rfl
    simp [other] at member

theorem isComponent_of_isOrdinary (ordinary : IsOrdinary piece) (some_char : piece ≠ "") :
    isComponent piece = true := by
  simp [isComponent, some_char, ordinary.1]

theorem mem_named : piece ∈ named path ↔ piece ∈ pieces path ∧ piece ≠ "" := by
  simp [named]

theorem ordinary_named_iff :
    (∀ piece ∈ named path, IsOrdinary piece) ↔ ∀ piece ∈ pieces path, IsOrdinary piece := by
  constructor
  · intro ordinary piece member
    by_cases nothing : piece = ""
    · rw [nothing]
      exact isOrdinary_of_not_mem (by decide)
    · exact ordinary piece (mem_named.mpr ⟨member, nothing⟩)
  · exact fun ordinary piece member => ordinary piece (mem_named.mp member).1

/-- What is joined to a path leads on from it exactly if it is made of ordinary names. -/
theorem leadsOn_join_iff (some_base : base ≠ "") (relative : isAbsolute more = false)
    (some_name : named more ≠ []) :
    LeadsOn base (join base more) ↔ ∀ piece ∈ pieces more, IsOrdinary piece := by
  rw [← ordinary_named_iff]
  constructor
  · rintro ⟨below, -, ordinary, names, -⟩
    rw [named_join relative, List.append_cancel_left_eq] at names
    rwa [names]
  · intro ordinary
    refine ⟨named more, some_name, ordinary, named_join relative, ?_⟩
    have kept : (pieces more).filter isComponent = named more := by
      refine List.filter_congr fun piece member => ?_
      by_cases nothing : piece = ""
      · rw [nothing]
        rfl
      · simp [isComponent_of_isOrdinary (ordinary piece (mem_named.mpr ⟨member, nothing⟩)) nothing,
          nothing]
    rw [components_join some_base relative, kept]

end Disk.Path

namespace Target

open Path

variable {settings : StubSettings} {root tail : String} {name : TypeName}

/-- The files of a type stay below their directories: the source file below the root, and the class
file below any directory for compiled classes. -/
structure Contained (settings : StubSettings) (root : String) (name : TypeName) : Prop where
  sourceFile : LeadsOn root (resolve settings root name).unitPath
  relative : isAbsolute (resolve settings root name).artifactPath = false
  classFile : ∀ output, output ≠ "" →
    LeadsOn output (join output (resolve settings root name).artifactPath)

def lastName (name : TypeName) (tail : String) : String :=
  String.ofList (afterLast '/' name.simpleName.toList) ++ tail

/-- No part of the name begins with a slash, and the source file has a name of its own. -/
structure Harmless (settings : StubSettings) (name : TypeName) : Prop where
  package : name.packageSegments.any isAbsolute = false
  simpleName : isAbsolute name.simpleName = false
  sourceFile : IsOrdinary (lastName name (settings.suffix ++ "." ++ settings.extension))

theorem relative_inPackage_iff (flat : '/' ∉ tail.toList) :
    isAbsolute (inPackage name (name.simpleName ++ tail)) = false ↔
      name.packageSegments.any isAbsolute = false ∧ isAbsolute name.simpleName = false := by
  rw [isAbsolute_inPackage, isAbsolute_append_of_not_mem flat, Bool.or_eq_false_iff]

theorem mem_named_inPackage {piece : String} (flat : '/' ∉ tail.toList)
    (relative : isAbsolute (inPackage name (name.simpleName ++ tail)) = false) :
    piece ∈ named (inPackage name (name.simpleName ++ tail)) ↔
      ((∃ segment ∈ name.packageSegments, piece ∈ pieces segment) ∨
        piece ∈ (pieces name.simpleName).dropLast ∨ piece = lastName name tail) ∧ piece ≠ "" := by
  obtain ⟨package, simple⟩ := (relative_inPackage_iff flat).mp relative
  have file : isAbsolute (name.simpleName ++ tail) = false := by
    rwa [isAbsolute_append_of_not_mem flat]
  have segments : named (packagePath name) = name.packageSegments.flatMap named :=
    filter_pieces_ofSegments rfl package
  rw [inPackage, named_join file, List.mem_append, segments, List.mem_flatMap, mem_named,
    pieces_append_of_not_mem flat, List.mem_append, List.mem_singleton, ← lastName]
  constructor
  · rintro (⟨segment, above, inside⟩ | ⟨inside, filled⟩)
    · exact ⟨.inl ⟨segment, above, (mem_named.mp inside).1⟩, (mem_named.mp inside).2⟩
    · exact ⟨.inr inside, filled⟩
  · rintro ⟨⟨segment, above, inside⟩ | inside, filled⟩
    · exact .inl ⟨segment, above, mem_named.mpr ⟨inside, filled⟩⟩
    · exact .inr ⟨inside, filled⟩

/-- Packages and simple names hold no periods, so it is up to what is written behind them. -/
theorem ordinary_inPackage_iff (flat : '/' ∉ tail.toList)
    (relative : isAbsolute (inPackage name (name.simpleName ++ tail)) = false) :
    (∀ piece ∈ pieces (inPackage name (name.simpleName ++ tail)), IsOrdinary piece) ↔
      IsOrdinary (lastName name tail) := by
  rw [← ordinary_named_iff]
  constructor
  · intro ordinary
    by_cases nothing : lastName name tail = ""
    · rw [nothing]
      exact isOrdinary_of_not_mem (by decide)
    · exact ordinary _ ((mem_named_inPackage flat relative).mpr ⟨.inr (.inr rfl), nothing⟩)
  · intro last piece member
    rcases ((mem_named_inPackage flat relative).mp member).1 with
      ⟨segment, above, inside⟩ | inside | rfl
    · exact isOrdinary_of_not_mem fun period =>
        TypeName.period_not_mem_of_mem_packageSegments above (mem_of_mem_pieces inside period)
    · exact isOrdinary_of_not_mem fun period =>
        name.period_not_mem_simpleName (mem_of_mem_pieces (List.dropLast_subset _ inside) period)
    · exact last

theorem named_inPackage_ne_nil (filled : tail ≠ "") (flat : '/' ∉ tail.toList)
    (relative : isAbsolute (inPackage name (name.simpleName ++ tail)) = false) :
    named (inPackage name (name.simpleName ++ tail)) ≠ [] := by
  have some_last : lastName name tail ≠ "" := by simp [lastName, filled]
  exact List.ne_nil_of_mem ((mem_named_inPackage flat relative).mpr ⟨.inr (.inr rfl), some_last⟩)

theorem sourceFile_eq (settings : StubSettings) (name : TypeName) :
    settings.className name.simpleName ++ "." ++ settings.extension =
      name.simpleName ++ (settings.suffix ++ "." ++ settings.extension) := by
  simp only [StubSettings.className, String.append_assoc]

theorem classFile_eq (settings : StubSettings) (name : TypeName) :
    settings.className name.simpleName ++ ".class" =
      name.simpleName ++ (settings.suffix ++ ".class") := by
  rw [StubSettings.className, String.append_assoc]

section Settings

variable (suffix : '/' ∉ settings.suffix.toList) (extension : '/' ∉ settings.extension.toList)
include suffix extension

theorem slash_not_mem_sourceTail :
    '/' ∉ (settings.suffix ++ "." ++ settings.extension).toList := by
  simp [suffix, extension]

omit extension in
theorem slash_not_mem_classTail : '/' ∉ (settings.suffix ++ ".class").toList := by
  simp [suffix]

theorem leadsOn_unitPath_iff (some_root : root ≠ "")
    (package : name.packageSegments.any isAbsolute = false)
    (simple : isAbsolute name.simpleName = false) :
    LeadsOn root (resolve settings root name).unitPath ↔
      IsOrdinary (lastName name (settings.suffix ++ "." ++ settings.extension)) := by
  have flat := slash_not_mem_sourceTail suffix extension
  have relative := (relative_inPackage_iff flat).mpr ⟨package, simple⟩
  have some_name := named_inPackage_ne_nil (by simp) flat relative
  have whole : (resolve settings root name).unitPath =
      join root (inPackage name (name.simpleName ++
        (settings.suffix ++ "." ++ settings.extension))) := by
    rw [← sourceFile_eq] at relative ⊢
    exact unitPath_resolve relative
  rw [whole, leadsOn_join_iff some_root relative some_name, ordinary_inPackage_iff flat relative]

omit extension in
theorem leadsOn_artifactPath {output : String} (some_output : output ≠ "")
    (package : name.packageSegments.any isAbsolute = false)
    (simple : isAbsolute name.simpleName = false) :
    LeadsOn output (join output (resolve settings root name).artifactPath) := by
  have flat := slash_not_mem_classTail suffix
  have relative := (relative_inPackage_iff flat).mpr ⟨package, simple⟩
  have some_name := named_inPackage_ne_nil (by simp) flat relative
  have last : IsOrdinary (lastName name (settings.suffix ++ ".class")) :=
    isOrdinary_of_mem (by simp [lastName] : 'c' ∈ _) (by decide)
  rw [artifactPath_resolve, classFile_eq, leadsOn_join_iff some_output relative some_name,
    ordinary_inPackage_iff flat relative]
  exact last

end Settings

/-- The files of a type stay below the root exactly if its name is harmless. -/
theorem contained_iff_harmless (some_root : root ≠ "") (suffix : '/' ∉ settings.suffix.toList)
    (extension : '/' ∉ settings.extension.toList) (name : TypeName) :
    Contained settings root name ↔ Harmless settings name := by
  constructor
  · rintro ⟨sourceFile, relative, -⟩
    rw [artifactPath_resolve, classFile_eq,
      relative_inPackage_iff (slash_not_mem_classTail suffix)] at relative
    obtain ⟨package, simple⟩ := relative
    exact ⟨package, simple,
      (leadsOn_unitPath_iff suffix extension some_root package simple).mp sourceFile⟩
  · rintro ⟨package, simple, sourceFile⟩
    refine ⟨(leadsOn_unitPath_iff suffix extension some_root package simple).mpr sourceFile, ?_,
      fun output some_output => leadsOn_artifactPath suffix some_output package simple⟩
    rw [artifactPath_resolve, classFile_eq, relative_inPackage_iff (slash_not_mem_classTail suffix)]
    exact ⟨package, simple⟩

/-- A name that begins with a slash takes its files away from the root. -/
theorem not_contained : ¬ ∀ (settings : StubSettings) (root : String) (name : TypeName), root ≠ "" →
    '/' ∉ settings.suffix.toList → '/' ∉ settings.extension.toList →
      Contained settings root name := by
  intro always
  have contained := always {} "out" ⟨"/etc/x"⟩ (by decide) (by decide) (by decide)
  exact absurd contained.relative (by decide)

theorem contained_iff_harmless_nestedRow :
    Contained {} "out" nestedRow.self.name ∧ ¬ Contained {} "out" ⟨"/etc/x"⟩ := by
  have decided (name : TypeName) : Contained {} "out" name ↔ Harmless {} name :=
    contained_iff_harmless (by decide) (by decide) (by decide) name
  constructor
  · rw [decided]
    exact ⟨by decide, by decide, isOrdinary_of_mem (c := 'j') (by decide) (by decide)⟩
  · rw [decided]
    intro harmless
    exact absurd harmless.simpleName (by decide)

end Target

end Stubwright
