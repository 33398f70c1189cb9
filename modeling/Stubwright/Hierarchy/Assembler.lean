import Stubwright.Hierarchy.Assembly

/-!
Putting lineages together with a memory. Declarations that were found and lineages that were
finished are kept, so that supertypes which several branches share are read and assembled once. The
memory lasts from one request to the next; the types in progress are forgotten where a request ends,
also if it fails.
-/
namespace Stubwright

structure Memory where
  declarations : List (String × Declaration)
  lineages : List (String × Lineage)
  /-- The types being assembled, each one a supertype of the one before it. -/
  inProgress : List String
deriving Repr

def Memory.empty : Memory := ⟨[], [], []⟩

/-- A request that may look into the memory and add to it, also if it fails. -/
abbrev Remembering (α : Type) := ExceptT Failure (StateM Memory) α

namespace Assembler

def run (request : Remembering α) (memory : Memory) : Except Failure α × Memory :=
  request.run.run memory

/-- What a request answers with nothing in the memory. -/
def fresh (request : Remembering α) : Except Failure α :=
  (run request .empty).1

def recallDeclaration (source : Source) (name : String) : Remembering (Option Declaration) := do
  let memory ← get
  match memory.declarations.lookup name with
  | some declaration => pure (some declaration)
  | none =>
      match source.lookup name with
      | .error failure => throw failure
      | .ok none => pure none
      | .ok (some declaration) =>
          modify fun memory =>
            { memory with declarations := (name, declaration) :: memory.declarations }
          pure (some declaration)

def supertype (source : Source) (assemble : String → Remembering Lineage) (owner name : String) :
    Remembering (Option Lineage) := do
  match ← recallDeclaration source name with
  | some _ => some <$> assemble name
  | none =>
      if name = rootClass then pure none
      else throw (.notIntrospectable owner (.unknownSupertype name))

def superclassOf (source : Source) (assemble : String → Remembering Lineage)
    (declaration : Declaration) : Remembering (Option Lineage) :=
  match declaration.superclass with
  | none => pure none
  | some name => supertype source assemble declaration.name name

def lineageOf (source : Source) (assemble : String → Remembering Lineage)
    (declaration : Declaration) : Remembering Lineage := do
  let superclass ← superclassOf source assemble declaration
  let interfaces ← declaration.interfaces.mapM (supertype source assemble declaration.name)
  pure (declaration.lineage superclass (interfaces.filterMap id))

def during (name : String) (request : Remembering α) : Remembering α := ExceptT.mk do
  modify fun memory => { memory with inProgress := memory.inProgress ++ [name] }
  let answer ← request.run
  modify fun memory => { memory with inProgress := memory.inProgress.dropLast }
  pure answer

/-- The lineage of a type below those in progress. `depth` bounds how many more there can be. -/
def assembleBelow (source : Source) : (depth : Nat) → String → Remembering Lineage
  | 0, name => do
      let memory ← get
      throw (.notIntrospectable name (.cyclic memory.inProgress))
  | depth + 1, name => do
      let memory ← get
      match memory.lineages.lookup name with
      | some lineage => pure lineage
      | none =>
          if name ∈ memory.inProgress then
            throw (.notIntrospectable name (.cyclic memory.inProgress))
          else
            match ← recallDeclaration source name with
            | none => throw (.notIntrospectable name .unknownType)
            | some declaration =>
                let lineage ←
                  during name (lineageOf source (assembleBelow source depth) declaration)
                modify fun memory =>
                  { memory with lineages := (name, lineage) :: memory.lineages }
                pure lineage

def assemble (source : Source) (name : String) : Remembering Lineage :=
  assembleBelow source (source.extent + 1) name

def firstKnown (source : Source) : List String → Remembering (Option String)
  | [] => pure none
  | name :: others => do
      match ← recallDeclaration source name with
      | some _ => pure (some name)
      | none => firstKnown source others

def resolve (source : Source) (name : String) : Remembering String := do
  match ← firstKnown source (spellings name) with
  | some binaryName => pure binaryName
  | none => throw (.notIntrospectable name .unknownType)

inductive Request where
  | resolve (name : String)
  | assemble (name : String)
deriving DecidableEq, Repr

inductive Answer where
  | resolved (name : String)
  | assembled (lineage : Lineage)
deriving DecidableEq, Repr

def answer (source : Source) : Request → Remembering Answer
  | .resolve name => .resolved <$> resolve source name
  | .assemble name => .assembled <$> assemble source name

/-- The answers to several requests, each with the memory that the ones before it left. -/
def answers (source : Source) : List Request → Memory → List (Except Failure Answer)
  | [], _ => []
  | request :: others, memory =>
      let (result, after) := run (answer source request) memory
      result :: answers source others after

end Assembler

namespace Source

open Text

/-- The lineage of a type by the name that a user gives. Primitive types and arrays need no source.
-/
def describe (source : Source) (written : String) : Except Failure Lineage :=
  let name := trimmed written
  if name.isEmpty then .error (.notIntrospectable written .emptyName)
  else if name = "void" || (Primitive.ofName? name).isSome then
    .ok (.memberless name .primitiveType)
  else if ['[', ']'].isSuffixOf name.toList then .ok (.memberless name .arrayType)
  else
    let request : Remembering Lineage := do
      let binaryName ← Assembler.resolve source name
      Assembler.assemble source binaryName
    Assembler.fresh request

end Source

end Stubwright
