import RolloutWatch.Proofs.Driver.Registry
import Mathlib.Data.List.Induction

/-!
A registry as its history has left it. A kind is loaded from the call that resolves it to a
driver up to its next eviction, and a factory runs exactly when its kind is resolved and not
loaded. What comes of running a factory may depend on what lies outside of the registry, so a
history also says when the next run of a factory will come out otherwise.
-/

namespace RolloutWatch

inductive RegistryEvent where
  | register (kind : String) (factory : DriverFactory)
  | registerDriver (driver : Driver)
  | resolve (kind : String)
  | reload (kind : String)
  | reloadAll
  | vary (kind : String) (outcome : Except DriverError Driver)

namespace RegistryEvent

def registers (kind : String) : RegistryEvent → Bool
  | .register k _ => k = kind
  | .registerDriver driver => driver.kind = kind
  | _ => false

def evicts (kind : String) : RegistryEvent → Bool
  | .reload k => k = kind
  | .reloadAll => true
  | _ => false

def factoryAfter (kind : String) (before : Option DriverFactory) :
    RegistryEvent → Option DriverFactory
  | .register k factory => if k = kind then some factory else before
  | .registerDriver driver =>
      if driver.kind = kind then some { outcome := .ok driver, counted := false } else before
  | .vary k outcome => if k = kind then before.map ({ · with outcome }) else before
  | _ => before

theorem factoryAfter_isSome (event : RegistryEvent) (kind : String)
    (before : Option DriverFactory) :
    (event.factoryAfter kind before).isSome = (event.registers kind || before.isSome) := by
  cases event with
  | register k factory =>
      by_cases same : k = kind <;> simp [factoryAfter, registers, same]
  | registerDriver driver =>
      by_cases same : driver.kind = kind <;> simp [factoryAfter, registers, same]
  | vary k outcome =>
      by_cases same : k = kind <;> simp [factoryAfter, registers, same]
  | resolve k => rfl
  | reload k => rfl
  | reloadAll => rfl

end RegistryEvent

/-! ### One event -/

namespace DriverRegistry

def next (r : DriverRegistry) : RegistryEvent → DriverRegistry
  | .register kind factory => r.register kind factory
  | .registerDriver driver => r.registerDriver driver
  | .resolve kind => (r.resolve kind).2
  | .reload kind => (r.reload kind).2
  | .reloadAll => r.reloadAll
  | .vary kind outcome =>
      { r with
        factories := r.factories.map fun (k, f) =>
          if k = kind then (k, { f with outcome }) else (k, f) }

theorem resolve_of_loaded {r : DriverRegistry} {kind : String} {driver : Driver}
    (loaded : Keyed.get? kind r.loaded = some driver) : r.resolve kind = (.ok driver, r) := by
  unfold resolve
  rw [loaded]

theorem resolve_of_unknown {r : DriverRegistry} {kind : String}
    (absent : Keyed.get? kind r.loaded = none) (unknown : Keyed.get? kind r.factories = none) :
    r.resolve kind = (.error (.driverNotFound kind), r) := by
  unfold resolve
  rw [absent, unknown]

theorem resolve_of_registered {r : DriverRegistry} {kind : String} {factory : DriverFactory}
    (absent : Keyed.get? kind r.loaded = none)
    (registered : Keyed.get? kind r.factories = some factory) :
    r.resolve kind = r.load kind factory := by
  unfold resolve
  rw [absent, registered]

theorem resolve_factories (r : DriverRegistry) (kind : String) :
    (r.resolve kind).2.factories = r.factories := by
  unfold resolve
  cases Keyed.get? kind r.loaded with
  | some driver => rfl
  | none =>
      cases Keyed.get? kind r.factories with
      | none => rfl
      | some factory => exact load_factories r kind factory

/-- A kind is loaded with what it has been resolved to, and no other kind is touched. -/
theorem get?_loaded_resolve (r : DriverRegistry) (kind other : String) :
    Keyed.get? other (r.resolve kind).2.loaded =
      if kind = other then (r.resolve kind).1.toOption else Keyed.get? other r.loaded := by
  cases loaded : Keyed.get? kind r.loaded with
  | some driver =>
      rw [resolve_of_loaded loaded]
      split
      · rename_i same
        exact same ▸ loaded
      · rfl
  | none =>
      cases registered : Keyed.get? kind r.factories with
      | none =>
          rw [resolve_of_unknown loaded registered]
          split
          · rename_i same
            exact same ▸ loaded
          · rfl
      | some factory =>
          rw [resolve_of_registered loaded registered, load_loaded, load_answer]
          unfold DriverFactory.answer
          cases built : factory.outcome with
          | error e =>
              simp only
              split
              · rename_i same
                exact same ▸ loaded
              · rfl
          | ok driver =>
              refine (Keyed.get?_put kind other driver r.loaded).trans ?_
              split <;> rfl

theorem get?_loaded_reload (r : DriverRegistry) (kind other : String) :
    Keyed.get? other (r.reload kind).2.loaded =
      if kind = other then none else Keyed.get? other r.loaded :=
  Keyed.get?_filter_ne kind other r.loaded

theorem get?_register (r : DriverRegistry) (kind other : String) (factory : DriverFactory) :
    Keyed.get? other (r.register kind factory).factories =
      if kind = other then some factory else Keyed.get? other r.factories := by
  refine (Keyed.get?_put kind other factory r.factories).trans ?_
  split <;> rfl

theorem get?_factories_next (r : DriverRegistry) (event : RegistryEvent) (kind : String) :
    Keyed.get? kind (r.next event).factories =
      event.factoryAfter kind (Keyed.get? kind r.factories) := by
  cases event with
  | register k factory => exact r.get?_register k kind factory
  | registerDriver driver => exact r.get?_register _ kind _
  | resolve k => exact congrArg (Keyed.get? kind) (r.resolve_factories k)
  | reload k => rfl
  | reloadAll => rfl
  | vary k outcome => exact Keyed.get?_map_entry k kind ({ · with outcome }) r.factories

theorem toOption_eq_some_iff {answer : Except Error Driver} {driver : Driver} :
    answer.toOption = some driver ↔ answer = .ok driver := by
  cases answer with
  | error e => exact ⟨nofun, nofun⟩
  | ok built =>
      exact ⟨fun same => congrArg Except.ok (Option.some.inj same),
        fun same => congrArg some (Except.ok.inj same)⟩

/-- A kind is loaded after an event because the event has resolved it, or because it was loaded
before and the event has not evicted it. -/
theorem get?_loaded_next_iff {r : DriverRegistry} {event : RegistryEvent} {kind : String}
    {driver : Driver} :
    Keyed.get? kind (r.next event).loaded = some driver ↔
      (event = .resolve kind ∧ (r.resolve kind).1 = .ok driver) ∨
        event.evicts kind = false ∧ Keyed.get? kind r.loaded = some driver := by
  cases event with
  | register k factory => simp [next, register, RegistryEvent.evicts]
  | registerDriver driver => simp [next, registerDriver, register, RegistryEvent.evicts]
  | resolve k =>
      simp only [next, get?_loaded_resolve, RegistryEvent.resolve.injEq, RegistryEvent.evicts,
        true_and]
      by_cases same : k = kind
      · subst same
        rw [if_pos rfl, toOption_eq_some_iff]
        constructor
        · exact fun answered => .inl ⟨rfl, answered⟩
        · rintro (⟨-, answered⟩ | loaded)
          · exact answered
          · rw [resolve_of_loaded loaded]
      · simp only [same, if_false, false_and, false_or]
  | reload k =>
      simp only [next, get?_loaded_reload, RegistryEvent.evicts, reduceCtorEq, false_and, false_or,
        decide_eq_false_iff_not]
      by_cases same : k = kind <;> simp [same]
  | reloadAll => simp [next, reloadAll, RegistryEvent.evicts, Keyed.get?]
  | vary k outcome => simp [next, RegistryEvent.evicts]

theorem load_runs (r : DriverRegistry) (kind : String) (factory : DriverFactory) :
    (r.load kind factory).2.runs = if factory.counted then r.runs + 1 else r.runs := by
  unfold load
  cases factory.outcome <;> cases factory.counted <;> rfl

/-- Every loaded kind is registered. -/
def Backed (r : DriverRegistry) : Prop :=
  ∀ kind driver, Keyed.get? kind r.loaded = some driver → r.isRegistered kind = true

theorem Backed.next {r : DriverRegistry} (backed : r.Backed) (event : RegistryEvent) :
    (r.next event).Backed := by
  intro kind driver loaded
  unfold isRegistered
  rw [get?_factories_next, RegistryEvent.factoryAfter_isSome, Bool.or_eq_true]
  refine .inr ?_
  rcases get?_loaded_next_iff.mp loaded with ⟨-, answered⟩ | ⟨-, earlier⟩
  · cases absent : Keyed.get? kind r.loaded with
    | some cached => exact backed kind cached absent
    | none =>
        cases registered : Keyed.get? kind r.factories with
        | some factory => rfl
        | none =>
            rw [resolve_of_unknown absent registered] at answered
            cases answered
  · exact backed kind driver earlier

end DriverRegistry

/-! ### Histories -/

namespace RegistryHistory

def registry (history : List RegistryEvent) : DriverRegistry :=
  history.foldl DriverRegistry.next .empty

/-- The factory that has been registered last for a kind, as it would come out now. -/
def factory? (kind : String) (history : List RegistryEvent) : Option DriverFactory :=
  history.foldl (RegistryEvent.factoryAfter kind) none

def Loaded (kind : String) (driver : Driver) (history : List RegistryEvent) : Prop :=
  ∃ before later, history = before ++ .resolve kind :: later ∧
    ((registry before).resolve kind).1 = .ok driver ∧
    ∀ event ∈ later, event.evicts kind = false

/-- The next call to resolve the kind runs the factory: the kind is not loaded, and the factory
is the one registered last. -/
def Runs (kind : String) (factory : DriverFactory) (history : List RegistryEvent) : Prop :=
  factory? kind history = some factory ∧ ∀ driver, ¬Loaded kind driver history

theorem registry_concat (history : List RegistryEvent) (event : RegistryEvent) :
    registry (history ++ [event]) = (registry history).next event :=
  List.foldl_concat _ _ _ _

theorem factories (history : List RegistryEvent) (kind : String) :
    Keyed.get? kind (registry history).factories = factory? kind history := by
  induction history using List.reverseRecOn with
  | nil => rfl
  | append_singleton history event ih =>
      rw [registry_concat, DriverRegistry.get?_factories_next, ih]
      exact (List.foldl_concat _ _ _ _).symm

theorem isRegistered_eq (history : List RegistryEvent) (kind : String) :
    (registry history).isRegistered kind = history.any (RegistryEvent.registers kind) := by
  induction history using List.reverseRecOn with
  | nil => rfl
  | append_singleton history event ih =>
      unfold DriverRegistry.isRegistered at ih ⊢
      rw [registry_concat, DriverRegistry.get?_factories_next, RegistryEvent.factoryAfter_isSome,
        ih, List.any_append, Bool.or_comm, List.any_cons, List.any_nil, Bool.or_false]

theorem backed (history : List RegistryEvent) : (registry history).Backed := by
  induction history using List.reverseRecOn with
  | nil => exact nofun
  | append_singleton history event ih =>
      rw [registry_concat]
      exact ih.next event

theorem loaded_concat_iff {kind : String} {driver : Driver} {history : List RegistryEvent}
    {event : RegistryEvent} :
    Loaded kind driver (history ++ [event]) ↔
      (event = .resolve kind ∧ ((registry history).resolve kind).1 = .ok driver) ∨
        event.evicts kind = false ∧ Loaded kind driver history := by
  constructor
  · rintro ⟨before, later, same, answered, kept⟩
    -- The new event is the call itself, or it comes last of those after the call.
    induction later using List.reverseRecOn with
    | nil =>
        obtain ⟨rfl, resolved⟩ := List.append_inj' same rfl
        exact .inl ⟨List.singleton_inj.mp resolved, answered⟩
    | append_singleton later last _ =>
        rw [← List.cons_append, ← List.append_assoc] at same
        obtain ⟨earlier, here⟩ := List.append_inj' same rfl
        obtain rfl := List.singleton_inj.mp here
        obtain ⟨keptEarlier, keptLast⟩ := List.forall_mem_append.mp kept
        exact .inr ⟨keptLast _ (List.mem_singleton_self _),
          before, later, earlier, answered, keptEarlier⟩
  · rintro (⟨rfl, answered⟩ | ⟨keptLast, before, later, rfl, answered, kept⟩)
    · exact ⟨history, [], rfl, answered, nofun⟩
    · refine ⟨before, later ++ [event], ?_, answered, ?_⟩
      · rw [List.append_assoc, List.cons_append]
      · exact List.forall_mem_append.mpr ⟨kept, List.forall_mem_singleton.mpr keptLast⟩

/-- The table of loaded drivers, as the answers in the history give it. -/
theorem cached_iff {kind : String} {driver : Driver} (history : List RegistryEvent) :
    Keyed.get? kind (registry history).loaded = some driver ↔ Loaded kind driver history := by
  induction history using List.reverseRecOn with
  | nil =>
      constructor
      · exact nofun
      · rintro ⟨before, later, same, -⟩
        exact absurd same (List.append_ne_nil_of_right_ne_nil _ (List.cons_ne_nil _ _)).symm
  | append_singleton history event ih =>
      rw [registry_concat, DriverRegistry.get?_loaded_next_iff, loaded_concat_iff, ih]

theorem resolve_loaded {kind : String} {driver : Driver} {history : List RegistryEvent}
    (loaded : Loaded kind driver history) :
    (registry history).resolve kind = (.ok driver, registry history) :=
  DriverRegistry.resolve_of_loaded ((cached_iff history).mpr loaded)

theorem uncached {kind : String} {history : List RegistryEvent}
    (absent : ∀ driver, ¬Loaded kind driver history) :
    Keyed.get? kind (registry history).loaded = none := by
  cases cached : Keyed.get? kind (registry history).loaded with
  | none => rfl
  | some driver => exact absurd ((cached_iff history).mp cached) (absent driver)

theorem resolve_runs {kind : String} {factory : DriverFactory} {history : List RegistryEvent}
    (runs : Runs kind factory history) :
    (registry history).resolve kind = (registry history).load kind factory :=
  DriverRegistry.resolve_of_registered (uncached runs.2) ((factories history kind).trans runs.1)

theorem resolve_built {kind : String} {factory : DriverFactory} {history : List RegistryEvent}
    (runs : Runs kind factory history) {driver : Driver} (built : factory.outcome = .ok driver) :
    ((registry history).resolve kind).1 = .ok driver := by
  rw [resolve_runs runs, DriverRegistry.load_answer]
  unfold DriverFactory.answer
  rw [built]

theorem resolve_refused {kind : String} {factory : DriverFactory} {history : List RegistryEvent}
    (runs : Runs kind factory history) {e : DriverError} (failed : factory.outcome = .error e) :
    ((registry history).resolve kind).1 = .error (.config (.driverNotLoaded kind e)) ∧
      ((registry history).resolve kind).2.loaded = (registry history).loaded := by
  rw [resolve_runs runs, DriverRegistry.load_answer, DriverRegistry.load_loaded]
  unfold DriverFactory.answer
  rw [failed]
  exact ⟨rfl, rfl⟩

theorem exists_runs_iff {kind : String} {history : List RegistryEvent} :
    (∃ factory, Runs kind factory history) ↔
      (∃ event ∈ history, event.registers kind = true) ∧
        ∀ driver, ¬Loaded kind driver history := by
  rw [← List.any_eq_true, ← isRegistered_eq]
  unfold DriverRegistry.isRegistered
  rw [factories, Option.isSome_iff_exists]
  exact exists_and_right

/-- A kind that is resolved is loaded, or a factory for it runs, or nobody knows it. -/
theorem resolve_cases (history : List RegistryEvent) (kind : String) :
    (∃ driver, Loaded kind driver history) ∨ (∃ factory, Runs kind factory history) ∨
      (∀ event ∈ history, event.registers kind = false) ∧
        (registry history).resolve kind = (.error (.driverNotFound kind), registry history) := by
  by_cases loaded : ∃ driver, Loaded kind driver history
  · exact .inl loaded
  · have absent : ∀ driver, ¬Loaded kind driver history := not_exists.mp loaded
    cases registered : factory? kind history with
    | some factory => exact .inr (.inl ⟨factory, registered, absent⟩)
    | none =>
        have unknown := (factories history kind).trans registered
        refine .inr (.inr ⟨?_, DriverRegistry.resolve_of_unknown (uncached absent) unknown⟩)
        have none := isRegistered_eq history kind
        unfold DriverRegistry.isRegistered at none
        rw [unknown] at none
        exact fun event member =>
          (Bool.not_eq_true _).mp (List.any_eq_false.mp none.symm event member)

theorem not_unknown {kind : String} {history : List RegistryEvent}
    (known : ∃ event ∈ history, event.registers kind = true) :
    ¬∀ event ∈ history, event.registers kind = false := by
  intro unknown
  obtain ⟨event, member, registers⟩ := known
  rw [unknown event member] at registers
  cases registers

theorem registers_of_loaded {kind : String} {driver : Driver} {history : List RegistryEvent}
    (loaded : Loaded kind driver history) : ∃ event ∈ history, event.registers kind = true := by
  have known := backed history kind driver ((cached_iff history).mpr loaded)
  rwa [isRegistered_eq, List.any_eq_true] at known

theorem notFound_iff {history : List RegistryEvent} {kind other : String} :
    ((registry history).resolve kind).1 = .error (.driverNotFound other) ↔
      other = kind ∧ ∀ event ∈ history, event.registers kind = false := by
  rcases resolve_cases history kind with ⟨driver, loaded⟩ | ⟨factory, runs⟩ | ⟨unknown, answered⟩
  · rw [resolve_loaded loaded]
    exact ⟨nofun, fun ⟨_, unknown⟩ => absurd unknown (not_unknown (registers_of_loaded loaded))⟩
  · obtain ⟨known, -⟩ := exists_runs_iff.mp ⟨factory, runs⟩
    rw [resolve_runs runs, DriverRegistry.load_answer]
    unfold DriverFactory.answer
    constructor
    · cases factory.outcome <;> exact nofun
    · exact fun ⟨_, unknown⟩ => absurd unknown (not_unknown known)
  · rw [answered]
    constructor
    · intro same
      cases same
      exact ⟨rfl, unknown⟩
    · rintro ⟨rfl, -⟩
      rfl

def RunsCounted (event : RegistryEvent) (history : List RegistryEvent) : Prop :=
  ∃ kind factory, event = .resolve kind ∧ Runs kind factory history ∧ factory.counted = true

theorem runs_next {event : RegistryEvent} {history : List RegistryEvent} :
    (RunsCounted event history ∧
        ((registry history).next event).runs = (registry history).runs + 1) ∨
      ¬RunsCounted event history ∧
        ((registry history).next event).runs = (registry history).runs := by
  have idle (noCall : ∀ kind, event ≠ .resolve kind) : ¬RunsCounted event history := by
    rintro ⟨kind, -, here, -⟩
    exact noCall kind here
  cases event with
  | resolve kind =>
      change _ ∧ ((registry history).resolve kind).2.runs = _ ∨
        _ ∧ ((registry history).resolve kind).2.runs = _
      rcases resolve_cases history kind with
        ⟨driver, loaded⟩ | ⟨factory, runs⟩ | ⟨unknown, answered⟩
      · refine .inr ⟨?_, by rw [resolve_loaded loaded]⟩
        rintro ⟨_, factory, here, ⟨-, absent⟩, -⟩
        cases here
        exact absent driver loaded
      · rw [resolve_runs runs, DriverRegistry.load_runs]
        cases counted : factory.counted with
        | true => exact .inl ⟨⟨kind, factory, rfl, runs, counted⟩, rfl⟩
        | false =>
            refine .inr ⟨?_, rfl⟩
            rintro ⟨_, other, here, ⟨registered, -⟩, otherCounted⟩
            cases here
            obtain rfl := Option.some.inj (runs.1.symm.trans registered)
            rw [counted] at otherCounted
            cases otherCounted
      · refine .inr ⟨?_, by rw [answered]⟩
        rintro ⟨_, factory, here, runs, -⟩
        cases here
        obtain ⟨known, -⟩ := exists_runs_iff.mp ⟨factory, runs⟩
        exact not_unknown known unknown
  | register kind factory => exact .inr ⟨idle nofun, rfl⟩
  | registerDriver driver => exact .inr ⟨idle nofun, rfl⟩
  | reload kind => exact .inr ⟨idle nofun, rfl⟩
  | reloadAll => exact .inr ⟨idle nofun, rfl⟩
  | vary kind outcome => exact .inr ⟨idle nofun, rfl⟩

/-- After a factory has built a driver, no factory runs for its kind before an eviction. -/
theorem separated {kind : String} {before later : List RegistryEvent} {first second : DriverFactory}
    {driver : Driver} (ran : Runs kind first before) (built : first.outcome = .ok driver)
    (again : Runs kind second (before ++ .resolve kind :: later)) :
    ∃ event ∈ later, event.evicts kind = true := by
  by_contra none
  have kept : ∀ event ∈ later, event.evicts kind = false := fun event member =>
    (Bool.not_eq_true _).mp fun evicts => none ⟨event, member, evicts⟩
  exact again.2 driver ⟨before, later, rfl, resolve_built ran built, kept⟩

theorem loaded_reload_iff {kind other : String} {driver : Driver} {history : List RegistryEvent} :
    Loaded other driver (history ++ [.reload kind]) ↔
      other ≠ kind ∧ Loaded other driver history := by
  rw [loaded_concat_iff]
  simp only [reduceCtorEq, false_and, false_or, RegistryEvent.evicts, decide_eq_false_iff_not,
    ne_comm (a := kind), ne_eq]

theorem reload_iff {kind : String} {history : List RegistryEvent} :
    ((registry history).reload kind).1 = true ↔ ∃ driver, Loaded kind driver history := by
  change (Keyed.get? kind (registry history).loaded).isSome = true ↔ _
  rw [Option.isSome_iff_exists]
  exact exists_congr fun driver => cached_iff history

/-- What the events up to now say of the next call: what it answers, whether a factory runs in it,
and what is loaded after it. -/
structure Follows (history : List RegistryEvent) : Prop where
  notFound : ∀ kind other, ((registry history).resolve kind).1 = .error (.driverNotFound other) ↔
    other = kind ∧ ∀ event ∈ history, event.registers kind = false
  runs_iff : ∀ kind, (∃ factory, Runs kind factory history) ↔
    (∃ event ∈ history, event.registers kind = true) ∧ ∀ driver, ¬Loaded kind driver history
  runs : ∀ kind factory, Runs kind factory history →
    (registry history).resolve kind = (registry history).load kind factory
  idle : ∀ kind, (∀ factory, ¬Runs kind factory history) →
    ((registry history).resolve kind).2 = registry history
  counted : ∀ event,
    (RunsCounted event history ∧
        ((registry history).next event).runs = (registry history).runs + 1) ∨
      ¬RunsCounted event history ∧
        ((registry history).next event).runs = (registry history).runs
  refused : ∀ kind factory e, Runs kind factory history → factory.outcome = .error e →
    ((registry history).resolve kind).1 = .error (.config (.driverNotLoaded kind e)) ∧
      ((registry history).resolve kind).2.loaded = (registry history).loaded
  built : ∀ kind factory driver, Runs kind factory history → factory.outcome = .ok driver →
    ((registry history).resolve kind).1 = .ok driver ∧
      ∀ later, (∀ event ∈ later, event.evicts kind = false) →
        (registry (history ++ .resolve kind :: later)).resolve kind =
          (.ok driver, registry (history ++ .resolve kind :: later))
  cached : ∀ kind driver, Keyed.get? kind (registry history).loaded = some driver ↔
    Loaded kind driver history
  reload : ∀ kind, ((registry history).reload kind).1 = true ↔ ∃ driver, Loaded kind driver history
  evicted : ∀ kind other driver, Loaded other driver (history ++ [.reload kind]) ↔
    other ≠ kind ∧ Loaded other driver history
  cleared : ∀ kind driver, ¬Loaded kind driver (history ++ [.reloadAll])
  separated : ∀ kind before later first second driver, history = before ++ .resolve kind :: later →
    Runs kind first before → first.outcome = .ok driver → Runs kind second history →
      ∃ event ∈ later, event.evicts kind = true
  registered : ∀ kind driver, Loaded kind driver history →
    ∃ event ∈ history, event.registers kind = true

theorem resolve_idle {kind : String} {history : List RegistryEvent}
    (still : ∀ factory, ¬Runs kind factory history) :
    ((registry history).resolve kind).2 = registry history := by
  rcases resolve_cases history kind with ⟨driver, loaded⟩ | ⟨factory, runs⟩ | ⟨-, answered⟩
  · rw [resolve_loaded loaded]
  · exact absurd runs (still factory)
  · rw [answered]

/-- A registry is what the registrations, the answers and the evictions so far have made of it. -/
theorem registry_follows_history (history : List RegistryEvent) : Follows history where
  notFound _ _ := notFound_iff
  runs_iff _ := exists_runs_iff
  runs _ _ := resolve_runs
  idle _ := resolve_idle
  counted _ := runs_next
  refused _ _ _ ran failed := resolve_refused ran failed
  built kind factory driver ran built := by
    have answered := resolve_built ran built
    exact ⟨answered, fun later kept => resolve_loaded ⟨history, later, rfl, answered, kept⟩⟩
  cached _ _ := cached_iff history
  reload _ := reload_iff
  evicted _ _ _ := loaded_reload_iff
  cleared kind driver loaded := by
    rcases loaded_concat_iff.mp loaded with ⟨here, -⟩ | ⟨kept, -⟩
    · cases here
    · cases kept
  separated kind before later first second driver same ran built again :=
    separated ran built (same ▸ again)
  registered _ _ := registers_of_loaded

def brokenMock : DriverFactory :=
  { outcome := .error (.of .unavailable "missing library"), counted := true }

def workingMock : DriverFactory :=
  { outcome := .ok (.prometheus (.ofSeconds 30)), counted := true }

/-- A factory fails and is replaced. -/
def replacedMock : List RegistryEvent :=
  [.register "mock" brokenMock, .resolve "mock", .register "mock" workingMock]

/-- The other factory builds a driver of another kind, which stays although the broken factory is
registered again, and is evicted once. -/
theorem replacedMock_follows_history :
    Runs "mock" workingMock replacedMock ∧
      (registry (replacedMock ++ .resolve "mock" :: [.register "mock" brokenMock])).resolve "mock" =
        (.ok (.prometheus (.ofSeconds 30)),
          registry (replacedMock ++ .resolve "mock" :: [.register "mock" brokenMock])) ∧
      (registry (replacedMock ++ .resolve "mock" :: [.register "mock" brokenMock])).runs = 2 ∧
      ((registry (replacedMock ++ [.resolve "mock"])).reload "mock").1 = true ∧
      ¬∃ driver, Loaded "mock" driver (replacedMock ++ [.resolve "mock", .reload "mock"]) := by
  have before := registry_follows_history replacedMock
  have runs : Runs "mock" workingMock replacedMock :=
    ⟨rfl, fun driver loaded => nomatch (before.cached "mock" driver).mpr loaded⟩
  obtain ⟨answered, kept⟩ := before.built "mock" workingMock _ runs rfl
  have after := registry_follows_history (replacedMock ++ [.resolve "mock"])
  have loaded : Loaded "mock" (.prometheus (.ofSeconds 30)) (replacedMock ++ [.resolve "mock"]) :=
    ⟨replacedMock, [], rfl, answered, nofun⟩
  refine ⟨runs, kept _ (List.forall_mem_singleton.mpr rfl), rfl,
    (after.reload "mock").mpr ⟨_, loaded⟩, ?_⟩
  rintro ⟨driver, still⟩
  exact absurd rfl ((after.evicted "mock" "mock" driver).mp still).1

end RegistryHistory

end RolloutWatch
