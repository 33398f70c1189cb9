import Stubwright.Proofs.Hierarchy.Assembly
import Stubwright.Proofs.Stub.Collision
import Stubwright.Proofs.Stub.Heading

namespace Stubwright

def LastWidest (constructors : List Constructor) (chosen : Constructor) : Prop :=
  ∃ before after, constructors = before ++ chosen :: after ∧
    (∀ other ∈ before, other.arity ≤ chosen.arity) ∧ ∀ other ∈ after, other.arity < chosen.arity

namespace LastWidest

variable {first chosen : Constructor} {rest : List Constructor}

theorem skip (last : LastWidest rest chosen) (notWider : first.arity ≤ chosen.arity) :
    LastWidest (first :: rest) chosen := by
  obtain ⟨before, after, rfl, earlier, later⟩ := last
  refine ⟨first :: before, after, rfl, ?_, later⟩
  intro other member
  rcases List.mem_cons.mp member with rfl | inside
  · exact notWider
  · exact earlier other inside

theorem arity_le (last : LastWidest rest chosen) : ∀ other ∈ rest, other.arity ≤ chosen.arity := by
  obtain ⟨before, after, rfl, earlier, later⟩ := last
  intro other member
  rcases List.mem_append.mp member with front | back
  · exact earlier other front
  · rcases List.mem_cons.mp back with rfl | behind
    · exact Nat.le_refl _
    · exact Nat.le_of_lt (later other behind)

theorem front (wider : ∀ other ∈ rest, other.arity < first.arity) :
    LastWidest (first :: rest) first :=
  ⟨[], rest, rfl, by simp, wider⟩

end LastWidest

theorem widest_eq_none {constructors : List Constructor} :
    widest constructors = none ↔ constructors = [] := by
  cases constructors with
  | nil => simp [widest]
  | cons first rest =>
      simp only [widest, reduceCtorEq, iff_false]
      split
      · simp
      · split <;> simp

theorem lastWidest_of_widest {constructors : List Constructor} {chosen : Constructor}
    (found : widest constructors = some chosen) : LastWidest constructors chosen := by
  induction constructors generalizing chosen with
  | nil => contradiction
  | cons first rest ih =>
      cases tail : widest rest with
      | none =>
          simp only [widest, tail, Option.some.injEq] at found
          subst chosen
          rw [widest_eq_none.mp tail]
          exact .front (by simp)
      | some later =>
          -- What is chosen from the rest is later, so it stays unless the first one is wider.
          have last := ih tail
          simp only [widest, tail] at found
          by_cases wide : later.arity ≥ first.arity
          · rw [if_pos wide, Option.some.injEq] at found
            subst chosen
            exact last.skip wide
          · rw [if_neg wide, Option.some.injEq] at found
            subst chosen
            refine .front fun other member => ?_
            exact Nat.lt_of_le_of_lt (last.arity_le other member) (Nat.lt_of_not_le wide)

namespace Lineage

variable {lineage : Lineage} {settings : StubSettings} {chosen : Constructor}

/-- Types that no class can extend or implement. -/
def Refused (lineage : Lineage) : Prop :=
  lineage.self.kind ∈ [.primitiveType, .arrayType, .enumType] ∨
    lineage.self.modifiers.has .finalMember = true ∨ lineage.self.modifiers.has .sealedType = true

/-- Classes whose constructors are all private, if there is any. -/
def Closed (lineage : Lineage) : Prop :=
  lineage.isInterface = false ∧ ∀ one ∈ lineage.self.constructors, one.isPrivate = true

/-- Classes that cannot be constructed without arguments from outside. -/
def NeedsArguments (lineage : Lineage) : Prop :=
  lineage.isInterface = false ∧
    ∀ one ∈ lineage.self.constructors, one.isPrivate = false → 0 < one.arity

/-- The constructor that a generated class hands its parameters on to: of those that are not private
none has more parameters, and none declared later has as many. -/
def Calls (lineage : Lineage) (chosen : Constructor) : Prop :=
  ∃ before after, lineage.self.constructors = before ++ chosen :: after ∧
    chosen.isPrivate = false ∧
    (∀ other ∈ before, other.isPrivate = false → other.arity ≤ chosen.arity) ∧
    ∀ other ∈ after, other.isPrivate = false → other.arity < chosen.arity

theorem ineligibility?_eq_none : lineage.ineligibility? = none ↔ ¬ lineage.Refused := by
  unfold ineligibility? Refused
  cases lineage.self.kind <;> simp <;> grind

def candidates (lineage : Lineage) : List Constructor :=
  lineage.self.constructors.filter (!·.isPrivate)

theorem calls_of_lastWidest (last : LastWidest lineage.candidates chosen) :
    lineage.Calls chosen := by
  obtain ⟨before, after, split, earlier, later⟩ := last
  obtain ⟨front, back, all, kept, keptToo⟩ := List.filter_eq_append_iff.mp split
  obtain ⟨passed, behind, rest, hidden, accessible, same⟩ := List.filter_eq_cons_iff.mp keptToo
  refine ⟨front ++ passed, behind, by rw [all, rest, List.append_assoc], by simpa using accessible,
    ?_, ?_⟩
  · intro other member visible
    rcases List.mem_append.mp member with inFront | inPassed
    · exact earlier other (kept ▸ List.mem_filter.mpr ⟨inFront, by simp [visible]⟩)
    · exact absurd (by simp [visible]) (hidden other inPassed)
  · intro other member visible
    exact later other (same ▸ List.mem_filter.mpr ⟨member, by simp [visible]⟩)

theorem constructorPlan_cases (lineage : Lineage) :
    (lineage.constructorPlan = .ok .implicit ∧ ∃ one ∈ lineage.candidates, one.arity = 0) ∨
    (∃ chosen, lineage.constructorPlan = .ok (.delegating chosen) ∧ lineage.Calls chosen ∧
      ∀ one ∈ lineage.candidates, 0 < one.arity) ∨
    (lineage.constructorPlan = .error (.noAccessibleConstructor lineage.self.name.binaryName) ∧
      lineage.candidates = []) := by
  by_cases bare : lineage.candidates.any (·.arity = 0) = true
  · left
    have plan : lineage.constructorPlan = .ok .implicit := if_pos bare
    exact ⟨plan, by simpa using bare⟩
  · right
    have wide : ∀ one ∈ lineage.candidates, 0 < one.arity := by
      simpa [Nat.pos_iff_ne_zero] using bare
    unfold constructorPlan
    rw [← candidates]
    simp only [if_neg bare]
    cases found : widest lineage.candidates with
    | some chosen =>
        exact .inl ⟨chosen, rfl, calls_of_lastWidest (lastWidest_of_widest found), wide⟩
    | none => exact .inr ⟨rfl, widest_eq_none.mp found⟩

theorem closed_iff :
    lineage.Closed ↔ lineage.isInterface = false ∧ lineage.candidates = [] := by
  simp [Closed, candidates]

theorem needsArguments_iff :
    lineage.NeedsArguments ↔
      lineage.isInterface = false ∧ ∀ one ∈ lineage.candidates, 0 < one.arity := by
  simp [NeedsArguments, candidates]

theorem constructorStub_of_interface (settings : StubSettings)
    (interface : lineage.isInterface = true) :
    lineage.constructorStub settings = .ok none := by
  rw [constructorStub, if_pos interface]

/-- A class gets a constructor if and only if it needs arguments, and fails if it is closed. -/
theorem constructorStub_of_class (settings : StubSettings) (isClass : lineage.isInterface = false) :
    (lineage.constructorStub settings = .ok none ∧ ¬ lineage.NeedsArguments) ∨
    (∃ chosen, lineage.constructorStub settings = .ok (some
        (chosen.stub settings.indent (settings.className lineage.self.name.simpleName))) ∧
      lineage.Calls chosen ∧ lineage.NeedsArguments) ∨
    (lineage.constructorStub settings =
        .error (.noAccessibleConstructor lineage.self.name.binaryName) ∧ lineage.Closed) := by
  rw [needsArguments_iff, closed_iff, constructorStub, if_neg (by simp [isClass])]
  rcases lineage.constructorPlan_cases with ⟨plan, one, listed, bare⟩ | ⟨chosen, plan, calls, wide⟩ |
    ⟨plan, none⟩
  · left
    rw [plan]
    exact ⟨rfl, fun needs => Nat.ne_of_gt (needs.2 one listed) bare⟩
  · right; left
    rw [plan]
    exact ⟨chosen, rfl, calls, isClass, wide⟩
  · right; right
    rw [plan]
    exact ⟨rfl, isClass, none⟩

end Lineage

/-- A text that is the stub of a constructor. It declares as many parameters as the constructor has,
named by their positions, and its one statement hands them on in their order. -/
structure Constructor.HandsOn (indent className : String) (constructor : Constructor)
    (text : String) : Prop where
  rendered : text = constructor.stub indent className
  declared : (constructor.heading className).declarations.length = constructor.arity
  lines : text.toList = Text.unlines [(constructor.heading className).text.toList,
    (indent ++ "super(" ++
      ", ".intercalate ((List.range constructor.arity).map Stub.parameterName) ++ ");").toList,
    ['\x7d']]

theorem Constructor.handsOn_stub (indent className : String) (constructor : Constructor) :
    constructor.HandsOn indent className (constructor.stub indent className) where
  rendered := rfl
  declared := by
    rw [Heading.declarations, List.length_mapIdx, heading, Stub.length_writtenTypes, arity]
  lines := by
    rw [toList_stub, superCall]
    simp only [String.append_assoc]

namespace Lineage

variable {lineage : Lineage} {settings : StubSettings}

structure Generates (settings : StubSettings) (lineage : Lineage) (unit : CompilationUnit) :
    Prop where
  implementing : unit.relation = .implementing ↔ lineage.self.kind ∈ [.interfaceType, .annotationType]
  extending : unit.relation = .extending ↔ lineage.self.kind = .classType
  stubs : unit.methods = lineage.abstractMembers.map (Method.stub settings.indent)
  constructed : unit.constructor.isSome = true ↔ lineage.NeedsArguments
  handsOn : ∀ text ∈ unit.constructor, ∃ chosen, lineage.Calls chosen ∧
    chosen.HandsOn settings.indent unit.className text

def unitWith (settings : StubSettings) (lineage : Lineage) (constructor : Option String) :
    CompilationUnit where
  packageName := lineage.self.name.packageName
  className := settings.className lineage.self.name.simpleName
  relation := if lineage.isInterface then .implementing else .extending
  target := lineage.self.name.sourceName
  constructor
  methods := lineage.abstractMembers.map (Method.stub settings.indent)

theorem unitWith_of_implementation {unit : CompilationUnit}
    (accepted : lineage.implementation settings = .ok unit) :
    ∃ constructor, lineage.constructorStub settings = .ok constructor ∧
      unit = unitWith settings lineage constructor := by
  obtain ⟨_, _, accepted⟩ := ok_of_bind accepted
  obtain ⟨constructor, stub, accepted⟩ := ok_of_bind accepted
  cases accepted
  exact ⟨constructor, stub, rfl⟩

theorem implementation_of_refused (settings : StubSettings) (refused : lineage.Refused) :
    ∃ reason, lineage.implementation settings =
      .error (.notImplementable lineage.self.name.binaryName reason) := by
  cases found : lineage.ineligibility? with
  | none => exact absurd refused (ineligibility?_eq_none.mp found)
  | some reason =>
      have unfit : lineage.checkEligible =
          .error (.notImplementable lineage.self.name.binaryName reason) := by
        rw [checkEligible, found]
      refine ⟨reason, ?_⟩
      rw [implementation, unfit]
      rfl

theorem implementation_of_eligible (settings : StubSettings) (eligible : ¬ lineage.Refused) :
    lineage.implementation settings =
      (lineage.constructorStub settings).map (unitWith settings lineage) := by
  have accepted : lineage.checkEligible = .ok () := by
    rw [checkEligible, ineligibility?_eq_none.mpr eligible]
  rw [implementation, accepted]
  cases lineage.constructorStub settings <;> rfl

theorem generates_unitWith {constructor : Option String} (eligible : ¬ lineage.Refused)
    (constructed : constructor.isSome = true ↔ lineage.NeedsArguments)
    (handsOn : ∀ text ∈ constructor, ∃ chosen, lineage.Calls chosen ∧ chosen.HandsOn
      settings.indent (settings.className lineage.self.name.simpleName) text) :
    lineage.Generates settings (unitWith settings lineage constructor) where
  implementing := by
    unfold unitWith isInterface TypeKind.isInterface
    cases lineage.self.kind <;> simp
  extending := by
    unfold Refused at eligible
    unfold unitWith isInterface TypeKind.isInterface
    cases kind : lineage.self.kind <;> simp_all
  stubs := rfl
  constructed := constructed
  handsOn := handsOn

theorem generates_of_eligible (settings : StubSettings) (eligible : ¬ lineage.Refused)
    (opened : ¬ lineage.Closed) :
    ∃ unit, lineage.implementation settings = .ok unit ∧ lineage.Generates settings unit := by
  rw [implementation_of_eligible settings eligible]
  cases kind : lineage.isInterface with
  | true =>
      rw [constructorStub_of_interface settings kind]
      refine ⟨_, rfl, generates_unitWith eligible ?_ (by simp)⟩
      simp [NeedsArguments, kind]
  | false =>
      rcases constructorStub_of_class settings kind with ⟨stub, bare⟩ |
        ⟨chosen, stub, calls, needs⟩ | ⟨-, closed⟩
      · rw [stub]
        exact ⟨_, rfl, generates_unitWith eligible (by simpa using bare) (by simp)⟩
      · rw [stub]
        refine ⟨_, rfl, generates_unitWith eligible (by simpa using needs) ?_⟩
        intro text same
        rw [Option.mem_some_iff] at same
        subst same
        exact ⟨chosen, calls, chosen.handsOn_stub _ _⟩
      · exact absurd closed opened

theorem inaccessible_of_closed (settings : StubSettings) (eligible : ¬ lineage.Refused)
    (closed : lineage.Closed) :
    lineage.implementation settings =
      .error (.noAccessibleConstructor lineage.self.name.binaryName) := by
  have none := (closed_iff.mp closed).2
  rw [implementation_of_eligible settings eligible]
  rcases constructorStub_of_class settings closed.1 with ⟨-, bare⟩ |
    ⟨chosen, -, calls, -⟩ | ⟨stub, -⟩
  · exact absurd (needsArguments_iff.mpr ⟨closed.1, by simp [none]⟩) bare
  · obtain ⟨before, after, split, accessible, -⟩ := calls
    have hidden := closed.2 chosen (by simp [split])
    simp [accessible] at hidden
  · rw [stub]
    rfl

/-- What is said of a type is decided in this order: whether it is refused, whether it is closed, and
then how its class is generated. -/
theorem implementation_exact (settings : StubSettings) (lineage : Lineage) :
    ((∃ name reason, lineage.implementation settings = .error (.notImplementable name reason)) ↔
      lineage.Refused) ∧
    (¬ lineage.Refused →
      ((∃ name, lineage.implementation settings = .error (.noAccessibleConstructor name)) ↔
        lineage.Closed)) ∧
    (¬ lineage.Refused → ¬ lineage.Closed →
      ∃ unit, lineage.implementation settings = .ok unit ∧ lineage.Generates settings unit) := by
  refine ⟨⟨?_, ?_⟩, fun eligible => ⟨?_, ?_⟩, generates_of_eligible settings⟩
  · rintro ⟨name, reason, failed⟩
    by_contra eligible
    by_cases closed : lineage.Closed
    · rw [inaccessible_of_closed settings eligible closed] at failed
      cases Except.error.inj failed
    · obtain ⟨unit, generated, -⟩ := generates_of_eligible settings eligible closed
      rw [generated] at failed
      cases failed
  · intro refused
    exact ⟨_, implementation_of_refused settings refused⟩
  · rintro ⟨name, failed⟩
    by_contra opened
    obtain ⟨unit, generated, -⟩ := generates_of_eligible settings eligible opened
    rw [generated] at failed
    cases failed
  · exact fun closed => ⟨_, inaccessible_of_closed settings eligible closed⟩

/-- A class with constructors of every access, two of them with two parameters. -/
def manyWays : Lineage where
  self :=
    { name := ⟨"kit.Base"⟩
      kind := .classType
      modifiers := .ofList [.publicAccess, .abstractMember]
      constructors :=
        [⟨[], [], .ofList [.privateAccess]⟩,
          ⟨[.reference "java.lang.String", .primitive .int], [], .ofList [.publicAccess]⟩,
          ⟨[.primitive .long, .array (.primitive .int) 1], [.reference "kit.Broken"],
            .ofList [.protectedAccess, .variableArity]⟩,
          ⟨[.primitive .int, .primitive .int, .primitive .int], [], .ofList [.privateAccess]⟩,
          ⟨[.primitive .int], [], .ofList [.publicAccess]⟩]
      methods := []
      interfaces := []
      publicMethods := [] }
  ancestors := []

theorem generates_manyWays :
    ∃ unit, manyWays.implementation {} = .ok unit ∧ manyWays.Generates {} unit ∧
      unit.constructor = some ("protected BaseImpl(long p0, int... p1) throws kit.Broken \x7b\n" ++
        "    super(p0, p1);\n\x7d\n") := by
  have eligible : ¬ manyWays.Refused := by
    rw [← ineligibility?_eq_none]
    rfl
  have opened : ¬ manyWays.Closed := by
    rintro ⟨-, hidden⟩
    have shown := hidden ⟨[.primitive .int], [], .ofList [.publicAccess]⟩ (by simp [manyWays])
    contradiction
  obtain ⟨unit, generated, generates⟩ := (implementation_exact {} manyWays).2.2 eligible opened
  refine ⟨unit, generated, generates, ?_⟩
  cases generated
  rfl

end Lineage

end Stubwright
