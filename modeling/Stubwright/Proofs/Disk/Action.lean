import Stubwright.Disk.Action

namespace Stubwright.Disk.Action

variable {ε ε' α β : Type} {world after : World} {value : α}

@[simp]
theorem runIn_pure (value : α) (world : World) :
    runIn (pure value : Action ε α) world = (.ok value, world) := rfl

@[simp]
theorem runIn_get (world : World) : runIn (get : Action ε World) world = (.ok world, world) := rfl

@[simp]
theorem runIn_liftM (result : Except ε α) (world : World) :
    runIn (liftM result : Action ε α) world = (result, world) := by
  cases result <;> rfl

theorem runIn_bind (action : Action ε α) (next : α → Action ε β) (world : World) :
    runIn (action >>= next) world =
      match action.runIn world with
      | (.ok value, between) => (next value).runIn between
      | (.error failure, between) => (.error failure, between) := by
  change runIn (ExceptT.bind action next) world = _
  simp only [runIn, ExceptT.bind, ExceptT.run, ExceptT.mk, StateT.run, bind, StateT.bind]
  rcases ran : (action : StateM World (Except ε α)) world with ⟨result, between⟩
  cases result <;> rfl

@[simp]
theorem runIn_get_bind (next : World → Action ε α) (world : World) :
    runIn (get >>= next) world = (next world).runIn world := by
  rw [runIn_bind, runIn_get]

/-- A result of two actions is a result of the second, in the world that the first one leaves. -/
theorem ok_of_runIn_bind {action : Action ε α} {next : α → Action ε β} {result : β}
    (ran : runIn (action >>= next) world = (.ok result, after)) :
    ∃ value between, action.runIn world = (.ok value, between) ∧
      (next value).runIn between = (.ok result, after) := by
  rw [runIn_bind] at ran
  rcases first : action.runIn world with ⟨outcome, between⟩
  rw [first] at ran
  cases outcome with
  | error failure => cases ran
  | ok value => exact ⟨value, between, rfl, ran⟩

theorem runIn_adapt (describe : ε → ε') (action : Action ε α) (world : World) :
    runIn (ExceptT.adapt describe action) world =
      ((action.runIn world).1.mapError describe, (action.runIn world).2) := by
  rfl

theorem runIn_perform (change : Change) (describe : Fault → ε) (world : World) :
    runIn (ExceptT.adapt describe (perform change)) world =
      match change world with
      | .ok after => (.ok (), after)
      | .error fault => (.error (describe fault), world) := by
  rw [runIn_adapt, perform, runIn_get_bind]
  cases change world <;> rfl

end Stubwright.Disk.Action
