import RolloutWatch.Engine.World

/-!
How actions run. Each step that an action can begin with is given by what it hands over to
the rest, so that a service can be read as one case distinction over its steps.
-/

namespace RolloutWatch.Action

variable {σ α β : Type}

theorem pure_apply (a : α) (world : World σ) :
    (pure a : Action σ α) world = (.ok a, world) :=
  rfl

theorem bind_apply (first : Action σ α) (next : α → Action σ β) (world : World σ) :
    (first >>= next) world =
      match first world with
      | (.ok a, after) => next a after
      | (.error e, after) => (.error e, after) := by
  change (ExceptT.bindCont next (first world).1) (first world).2 = _
  cases first world with
  | mk answer after =>
      cases answer <;> rfl

/-- An action that succeeds has succeeded in its first step and then in the rest. -/
theorem bind_ok {first : Action σ α} {next : α → Action σ β} {world after : World σ} {b : β}
    (done : (first >>= next) world = (.ok b, after)) :
    ∃ a between, first world = (.ok a, between) ∧ next a between = (.ok b, after) := by
  rw [bind_apply] at done
  rcases outcome : first world with ⟨answer, between⟩
  rw [outcome] at done
  cases answer with
  | error e => cases done
  | ok a => exact ⟨a, between, rfl, done⟩

theorem bind_ofExcept_ok (a : α) (next : α → Action σ β) (world : World σ) :
    (Action.ofExcept (.ok a) >>= next) world = next a world :=
  rfl

theorem bind_draw (take : Supply → α × Supply) (next : α → Action σ β) (world : World σ) :
    (Action.draw take >>= next) world =
      next (take world.supply).1 { world with supply := (take world.supply).2 } :=
  rfl

theorem bind_read (query : σ → Except Error α) (next : α → Action σ β) (world : World σ) :
    (Action.read query >>= next) world =
      match query world.store with
      | .error e => (.error e, world)
      | .ok a => next a world := by
  rw [bind_apply]
  unfold Action.read
  cases query world.store <;> rfl

theorem bind_write (change : σ → Except Error σ) (next : Unit → Action σ β)
    (world : World σ) :
    (Action.write change >>= next) world =
      match change world.store with
      | .error e => (.error e, world)
      | .ok store => next () { world with store } := by
  rw [bind_apply]
  unfold Action.write
  cases change world.store <;> rfl

theorem bind_writeWhere (change : σ → Except Error (Bool × σ)) (next : Bool → Action σ β)
    (world : World σ) :
    (Action.writeWhere change >>= next) world =
      match change world.store with
      | .error e => (.error e, world)
      | .ok (found, store) => next found { world with store } := by
  rw [bind_apply]
  unfold Action.writeWhere
  cases change world.store with
  | error e => rfl
  | ok result => rfl

theorem writeWhere_expectFound (change : σ → Except Error (Bool × σ)) (kind : EntityKind)
    (id : EntityId) (world : World σ) :
    (Action.writeWhere change >>= Action.expectFound kind id) world =
      match change world.store with
      | .error e => (.error e, world)
      | .ok (found, store) =>
          (if found then .ok () else .error (.notFound kind id), { world with store }) := by
  rw [bind_writeWhere]
  cases change world.store with
  | error e => rfl
  | ok result =>
      obtain ⟨found, store⟩ := result
      cases found <;> rfl

def required (kind : EntityKind) (id : EntityId) :
    Except Error (Option α) → Except Error α
  | .error e => .error e
  | .ok none => .error (.notFound kind id)
  | .ok (some a) => .ok a

theorem required_ok {kind : EntityKind} {id : EntityId} {answer : Except Error (Option α)} {a : α}
    (given : required kind id answer = .ok a) : answer = .ok (some a) := by
  unfold required at given
  split at given
  · cases given
  · cases given
  · cases given
    rfl

theorem read_orNotFound (query : σ → Except Error (Option α)) (kind : EntityKind)
    (id : EntityId) (world : World σ) :
    (Action.read query >>= Action.orNotFound kind id) world =
      (required kind id (query world.store), world) := by
  rw [bind_read]
  cases query world.store with
  | error e => rfl
  | ok found => cases found <;> rfl

theorem exists_fault {outcome : Except Error α × World σ} (fails : outcome.1.isOk = false) :
    ∃ fault after, outcome = (.error fault, after) := by
  obtain ⟨answer, after⟩ := outcome
  cases answer with
  | error fault => exact ⟨fault, after, rfl⟩
  | ok a => cases fails

theorem exists_ok {outcome : Except Error α × World σ} (succeeds : outcome.1.isOk = true) :
    ∃ a after, outcome = (.ok a, after) := by
  obtain ⟨answer, after⟩ := outcome
  cases answer with
  | error fault => cases succeeds
  | ok a => exact ⟨a, after, rfl⟩

end RolloutWatch.Action
