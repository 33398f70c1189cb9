/-!
Steps that may fail, one after the other. A result of two steps comes from a result of the first one.
With a state, a step may give the same result from every state of a kind and leave one of that kind,
as requests to an assembler and searches do, and so do two such steps.
-/
namespace Stubwright

variable {α β ε σ : Type}

section Plain

variable {step : Except ε α} {next : α → Except ε β} {result : β}

theorem ok_bind (value : α) (next : α → Except ε β) : Except.ok value >>= next = next value := rfl

theorem bind_ok (step : Except ε α) : step >>= .ok = step :=
  bind_pure step

theorem ok_of_bind (done : step >>= next = .ok result) :
    ∃ value, step = .ok value ∧ next value = .ok result := by
  cases step with
  | error failure => cases done
  | ok value => exact ⟨value, rfl, done⟩

theorem failed_of_bind {failure : ε} (failed : step >>= next = .error failure) :
    step = .error failure ∨ ∃ value, step = .ok value ∧ next value = .error failure := by
  cases step with
  | error earlier =>
      cases failed
      exact .inl rfl
  | ok value => exact .inr ⟨value, rfl, failed⟩

theorem ok_of_map {change : α → β} (done : step.map change = .ok result) :
    ∃ value, step = .ok value ∧ change value = result := by
  cases step with
  | error failure => cases done
  | ok value =>
      cases done
      exact ⟨value, rfl, rfl⟩

theorem eq_ok_of_toOption {value : α} (done : step.toOption = some value) : step = .ok value := by
  cases step with
  | error failure => cases done
  | ok other =>
      cases done
      rfl

end Plain

section Stateful

variable {step : ExceptT ε (StateM σ) α} {next : α → ExceptT ε (StateM σ) β} {kept : σ → Prop}
  {result : Except ε α} {plain : α → Except ε β}

/-- From every state of a kind the step gives the same result, and it leaves a state of that kind. -/
def Gives (kept : σ → Prop) (step : ExceptT ε (StateM σ) α) (result : Except ε α) : Prop :=
  ∀ state, kept state → (step.run.run state).1 = result ∧ kept (step.run.run state).2

theorem Gives.bind (first : Gives kept step result)
    (second : ∀ value, result = .ok value → Gives kept (next value) (plain value)) :
    Gives kept (step >>= next) (result >>= plain) := by
  intro state start
  obtain ⟨answered, keptAfter⟩ := first state start
  rw [ExceptT.run_bind, StateT.run_bind]
  rcases ran : step.run.run state with ⟨answer, after⟩
  rw [ran] at answered keptAfter
  subst answered
  cases answer with
  | error failure => exact ⟨rfl, keptAfter⟩
  | ok value => exact second value rfl after keptAfter

theorem Gives.map (gives : Gives kept step result) (change : α → β) :
    Gives kept (change <$> step) (result.map change) := by
  intro state start
  obtain ⟨answered, keptAfter⟩ := gives state start
  rw [ExceptT.run_map, StateT.run_map]
  exact ⟨congrArg (Except.map change) answered, keptAfter⟩

end Stateful

end Stubwright
