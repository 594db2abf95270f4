/-
This file takes the steps of a run apart. A step that returned is made of steps that returned, a
look at the disk changes nothing, and a change that was refused has changed nothing. Proofs about
whole runs go through these statements and never open the state behind a step.
-/

import LuauReference.Proofs.Failure
import LuauReference.Run
import Mathlib.Order.Defs.Unbundled

namespace LuauReference

namespace Run

variable {α β : Type}

/-- What a step gives in a world and the world it leaves behind. -/
def outcome (step : Run α) (world : World) : Except Failure α × World :=
  step.run.run world

/-- Whether a step gives a value in a world and leaves another one behind. -/
def Returns (step : Run α) (world : World) (value : α) (after : World) : Prop :=
  outcome step world = (.ok value, after)

theorem returns_pure_iff {value result : α} {world after : World} :
    Returns (pure value) world result after ↔ result = value ∧ after = world := by
  unfold Returns
  rw [show outcome (pure value) world = (.ok value, world) from rfl, Prod.mk.injEq,
    Except.ok.injEq]
  exact and_congr eq_comm eq_comm

theorem not_returns_throw {failure : Failure} {value : α} {world after : World} :
    ¬ Returns (throw failure) world value after :=
  fun returned => nomatch (Prod.mk.inj returned).1

theorem outcome_bind (step : Run α) (next : α → Run β) (world : World) :
    outcome (step >>= next) world =
      match outcome step world with
      | (.ok middle, between) => outcome (next middle) between
      | (.error failure, between) => (.error failure, between) := by
  unfold outcome ExceptT.run StateT.run
  simp only [bind, ExceptT.bind, ExceptT.mk, StateT.bind, ExceptT.bindCont]
  rcases step world with ⟨failure | middle, between⟩ <;> rfl

theorem returns_bind_iff {step : Run α} {next : α → Run β} {world after : World} {value : β} :
    Returns (step >>= next) world value after ↔
      ∃ middle between, Returns step world middle between ∧
        Returns (next middle) between value after := by
  unfold Returns
  rw [outcome_bind]
  rcases outcome step world with ⟨failure | middle, between⟩
  · simp
  · constructor
    · exact fun same => ⟨middle, between, rfl, same⟩
    · rintro ⟨_, _, same, rest⟩
      obtain ⟨here, there⟩ := Prod.mk.inj same
      rw [Except.ok.inj here, there]
      exact rest

theorem outcome_ofExcept (result : Except Failure α) (world : World) :
    outcome (ofExcept result) world = (result, world) := by
  cases result <;> rfl

/-! ### The disk -/

theorem outcome_look (question : Disk → Except Failure α) (world : World) :
    outcome (look question) world = (question world.disk, world) :=
  outcome_ofExcept (question world.disk) world

theorem returns_look_iff {question : Disk → Except Failure α} {value : α} {world after : World} :
    Returns (look question) world value after ↔ question world.disk = .ok value ∧
    after = world := by
  unfold Returns
  rw [outcome_look, Prod.mk.injEq]
  exact and_congr_right fun _ => eq_comm

theorem outcome_change (operation : Disk → Except Failure Disk) (world : World) :
    outcome (change operation) world =
      match operation world.disk with
      | .ok disk => (.ok (), { world with disk := disk })
      | .error failure => (.error failure, world) := by
  unfold change
  rw [outcome_bind, outcome_look]
  cases operation world.disk <;> rfl

theorem returns_change_iff {operation : Disk → Except Failure Disk} {result : Unit}
    {world after : World} :
    Returns (change operation) world result after ↔
      ∃ disk, operation world.disk = .ok disk ∧ after = { world with disk := disk } := by
  unfold Returns
  rw [outcome_change]
  cases operation world.disk with
  | error failure => simp
  | ok disk =>
    simp only [Prod.mk.injEq, true_and, Except.ok.injEq, exists_eq_left']
    exact eq_comm

/-- A change that is refused changes nothing. -/
theorem outcome_change_eq_error {operation : Disk → Except Failure Disk} {world after : World}
    {failure : Failure} (refused : outcome (change operation) world = (.error failure, after)) :
    operation world.disk = .error failure ∧ after = world := by
  rw [outcome_change] at refused
  cases result : operation world.disk with
  | ok disk =>
    rw [result] at refused
    exact nomatch refused
  | error cause =>
    rw [result] at refused
    obtain ⟨same, unchanged⟩ := Prod.mk.inj refused
    exact ⟨congrArg _ (Except.error.inj same), unchanged.symm⟩

theorem outcome_log (level : Log.Level) (part : String) (text : Text) (world : World) :
    outcome (log level part text) world =
      (.ok (), { world with
        messages := world.messages ++ [⟨level, Log.originOf part, text⟩] }) := rfl

theorem returns_time_iff {world after : World} {text : Text} :
    Returns time world text after ↔
      text = world.clock (world.readings + 1) ∧
        after = { world with readings := world.readings + 1 } := by
  unfold Returns
  rw [show outcome time world = (.ok (world.clock (world.readings + 1)),
    { world with readings := world.readings + 1 }) from rfl, Prod.mk.injEq, Except.ok.injEq]
  exact and_congr eq_comm eq_comm

theorem outcome_ensureFolders (path : Path) (world : World) :
    outcome (ensureFolders path) world =
      ((world.disk.ensureFolders path.names.length path).1,
        { world with disk := (world.disk.ensureFolders path.names.length path).2 }) :=
  outcome_ofExcept _ { world with disk := (world.disk.ensureFolders path.names.length path).2 }

theorem returns_ensureFolders_iff {path : Path} {result : Unit} {world after : World} :
    Returns (ensureFolders path) world result after ↔
      ∃ disk, world.disk.ensureFolders path.names.length path = (.ok (), disk) ∧
        after = { world with disk := disk } := by
  unfold Returns
  rw [outcome_ensureFolders]
  rcases world.disk.ensureFolders path.names.length path with ⟨failure | result, disk⟩
  · simp
  · simp only [Prod.mk.injEq, true_and, exists_eq_left']
    exact eq_comm

/-! ### Refusals -/

theorem outcome_tryCatch (step : Run α) (handle : Failure → Run α) (world : World) :
    outcome (tryCatch step handle) world =
      match outcome step world with
      | (.ok value, after) => (.ok value, after)
      | (.error failure, after) => outcome (handle failure) after := by
  rw [show tryCatch step handle = ExceptT.tryCatch step handle from rfl]
  unfold outcome ExceptT.tryCatch ExceptT.run StateT.run
  simp only [ExceptT.mk, bind, StateT.bind]
  rcases step world with ⟨failure | value, after⟩ <;> rfl

theorem outcome_orRefused (step : Run α) (world : World) :
    outcome (orRefused step) world =
      match outcome step world with
      | (.ok value, after) => (.ok (.ok value), after)
      | (.error (.disk fault), after) => (.ok (.error fault), after)
      | (.error failure, after) => (.error failure, after) := by
  unfold orRefused
  rw [outcome_tryCatch, outcome_bind]
  rcases outcome step world with ⟨failure | value, after⟩
  · cases failure <;> rfl
  · rfl

theorem returns_orRefused_ok_iff {step : Run α} {world after : World} {value : α} :
    Returns (orRefused step) world (.ok value) after ↔ Returns step world value after := by
  unfold Returns
  rw [outcome_orRefused]
  rcases outcome step world with ⟨failure | result, between⟩
  · cases failure <;> simp
  · simp

theorem returns_orRefused_error_iff {step : Run α} {world after : World} {fault : DiskFault} :
    Returns (orRefused step) world (.error fault) after ↔
      outcome step world = (.error (.disk fault), after) := by
  unfold Returns
  rw [outcome_orRefused]
  rcases outcome step world with ⟨failure | result, between⟩
  · cases failure <;> simp
  · simp

/-! ### What is left behind -/

/-- The world that a step leaves behind, whether or not it gives a value. -/
def worldAfter (step : Run α) (world : World) : World :=
  (outcome step world).2

theorem Returns.worldAfter_eq {step : Run α} {world later : World} {value : α}
    (returned : Returns step world value later) : worldAfter step world = later :=
  congrArg Prod.snd returned

/-- What is left behind by two steps is left by the second one, unless the first one fails. -/
theorem worldAfter_bind (step : Run α) (next : α → Run β) (world : World) :
    (∃ value later, Returns step world value later ∧
        worldAfter (step >>= next) world = worldAfter (next value) later) ∨
      worldAfter (step >>= next) world = worldAfter step world := by
  unfold worldAfter Returns
  rw [outcome_bind]
  rcases outcome step world with ⟨failure | value, later⟩
  · exact Or.inr rfl
  · exact Or.inl ⟨value, later, rfl, rfl⟩

theorem worldAfter_look (question : Disk → Except Failure α) (world : World) :
    worldAfter (look question) world = world := by
  rw [worldAfter, outcome_look]

theorem worldAfter_change (operation : Disk → Except Failure Disk) (world : World) :
    (∃ disk, operation world.disk = .ok disk ∧
        worldAfter (change operation) world = { world with disk := disk }) ∨
      worldAfter (change operation) world = world := by
  rw [worldAfter, outcome_change]
  cases operation world.disk with
  | ok disk => exact Or.inl ⟨disk, rfl, rfl⟩
  | error failure => exact Or.inr rfl

theorem disk_worldAfter_ensureFolders (path : Path) (world : World) :
    (worldAfter (ensureFolders path) world).disk =
      (world.disk.ensureFolders path.names.length path).2 := by
  rw [worldAfter, outcome_ensureFolders]

theorem worldAfter_orRefused (step : Run α) (world : World) :
    worldAfter (orRefused step) world = worldAfter step world := by
  rw [worldAfter, outcome_orRefused, worldAfter]
  rcases outcome step world with ⟨failure | value, later⟩
  · cases failure <;> rfl
  · rfl

/-! ### Changes along a run -/

/-- Whether a step changes the disk along a relation, whether or not it gives a value. -/
def Moves (along : Disk → Disk → Prop) (step : Run α) (world : World) : Prop :=
  along world.disk (worldAfter step world).disk

section

variable {along : Disk → Disk → Prop} [IsPreorder Disk along] {step : Run α} {next : α → Run β}
  {world : World}

theorem moves_of_same (same : (worldAfter step world).disk = world.disk) :
    Moves along step world := by
  rw [Moves, same]
  exact refl_of along world.disk

theorem moves_pure (value : α) : Moves along (pure value) world :=
  moves_of_same rfl

theorem moves_throw (failure : Failure) : Moves along (throw failure : Run α) world :=
  moves_of_same rfl

theorem moves_log (level : Log.Level) (part : String) (text : Text) :
    Moves along (log level part text) world :=
  moves_of_same rfl

theorem moves_look (question : Disk → Except Failure α) : Moves along (look question) world :=
  moves_of_same (by rw [worldAfter_look])

theorem moves_change {operation : Disk → Except Failure Disk}
    (changes : ∀ disk, operation world.disk = .ok disk → along world.disk disk) :
    Moves along (change operation) world := by
  rcases worldAfter_change operation world with ⟨disk, changed, same⟩ | same
  · rw [Moves, same]
    exact changes disk changed
  · exact moves_of_same (by rw [same])

theorem Moves.bind (first : Moves along step world)
    (rest : ∀ value later, Returns step world value later → Moves along (next value) later) :
    Moves along (step >>= next) world := by
  rcases worldAfter_bind step next world with ⟨value, later, returned, same⟩ | same
  · rw [Moves, returned.worldAfter_eq] at first
    rw [Moves, same]
    exact trans_of along first (rest value later returned)
  · rw [Moves, same]
    exact first

omit [IsPreorder Disk along] in
theorem Moves.orRefused (moves : Moves along step world) : Moves along (orRefused step) world := by
  rw [Moves, worldAfter_orRefused]
  exact moves

/-- Writing a text makes folders and puts a file. -/
theorem moves_writeText {path : Path} {text : Text}
    (ensures : ∀ above, along world.disk (world.disk.ensureFolders above path.parent).2)
    (writes : ∀ disk after, disk.writeText path text = .ok after → along disk after) :
    Moves along (writeText path text) world := by
  refine Moves.bind ?_ fun _ later _ => moves_change (writes later.disk)
  rw [Moves, disk_worldAfter_ensureFolders]
  exact ensures _

end

/-! ### Two runs side by side -/

/-- Whether what becomes of one step is like what becomes of another: both give values that are
alike, or both are refused by the disk, and the disks are alike afterwards. Nothing is said where
the first one fails in another way. -/
inductive Mirrored (like : Disk → Disk → Prop) (alike : α → β → Prop) :
    Except Failure α × World → Except Failure β × World → Prop
  | both {first : α} {second : β} {one two : World} (same : alike first second)
      (disks : like one.disk two.disk) : Mirrored like alike (.ok first, one) (.ok second, two)
  | refused {fault other : DiskFault} {one two : World} (disks : like one.disk two.disk) :
      Mirrored like alike (.error (.disk fault), one) (.error (.disk other), two)
  | stuck {failure : Failure} {one : World} (other : ∀ fault, failure ≠ .disk fault)
      (second : Except Failure β × World) : Mirrored like alike (.error failure, one) second

/-- Whether a step does on one of two disks that are alike what another one does on the other. -/
def Mirrors (like : Disk → Disk → Prop) (alike : α → β → Prop) (step : Run α) (other : Run β) :
    Prop :=
  ∀ one two : World, like one.disk two.disk →
    Mirrored like alike (outcome step one) (outcome other two)

/-- The relation of any two values. -/
def unlike : α → β → Prop := fun _ _ => True

section

variable {like : Disk → Disk → Prop} {alike : α → β → Prop} {step : Run α} {other : Run β}

theorem mirrors_pure {first : α} {second : β} (same : alike first second) :
    Mirrors like alike (pure first) (pure second) :=
  fun _ _ disks => .both same disks

theorem mirrors_look {question : Disk → Except Failure α} {partner : Disk → Except Failure β}
    (follows : ∀ one two, like one two → Failure.Follows alike (question one) (partner two)) :
    Mirrors like alike (look question) (look partner) := by
  intro one two disks
  have follow := follows one.disk two.disk disks
  rw [outcome_look, outcome_look]
  generalize question one.disk = first, partner two.disk = second at follow ⊢
  cases follow with
  | both same => exact .both same disks
  | refused fault other => exact .refused disks
  | stuck other second => exact .stuck other _

theorem mirrored_change {operation partner : Disk → Except Failure Disk} {one two : World}
    (disks : like one.disk two.disk)
    (follow : Failure.Follows like (operation one.disk) (partner two.disk)) :
    Mirrored like unlike (outcome (change operation) one) (outcome (change partner) two) := by
  rw [outcome_change, outcome_change]
  generalize operation one.disk = first, partner two.disk = second at follow ⊢
  cases follow with
  | both same => exact .both trivial same
  | refused fault other => exact .refused disks
  | stuck other second => exact .stuck other _

theorem mirrors_change {operation partner : Disk → Except Failure Disk}
    (follows : ∀ one two, like one two → Failure.Follows like (operation one) (partner two)) :
    Mirrors like unlike (change operation) (change partner) :=
  fun one two disks => mirrored_change disks (follows one.disk two.disk disks)

theorem Mirrored.of_error {one two : World} (disks : like one.disk two.disk) (failure : Failure) :
    Mirrored like alike (.error failure, one) (.error failure, two) := by
  cases failure with
  | disk fault => exact .refused disks
  | _ => exact .stuck (fun _ => Failure.noConfusion) _

theorem Mirrors.bind {γ δ : Type} {later : γ → δ → Prop} {next : α → Run γ} {rest : β → Run δ}
    (mirrors : Mirrors like alike step other)
    (each : ∀ first second, alike first second → Mirrors like later (next first) (rest second)) :
    Mirrors like later (step >>= next) (other >>= rest) := by
  intro one two disks
  have mirrored := mirrors one two disks
  rw [outcome_bind, outcome_bind]
  generalize outcome step one = first, outcome other two = second at mirrored ⊢
  cases mirrored with
  | both same disks => exact each _ _ same _ _ disks
  | refused disks => exact .refused disks
  | stuck other second => exact .stuck other _

theorem Mirrors.orRefused (mirrors : Mirrors like alike step other) :
    Mirrors like unlike (orRefused step) (orRefused other) := by
  intro one two disks
  have mirrored := mirrors one two disks
  rw [outcome_orRefused, outcome_orRefused]
  generalize outcome step one = first, outcome other two = second at mirrored ⊢
  cases mirrored with
  | both same disks => exact .both trivial disks
  | refused disks => exact .both trivial disks
  | @stuck failure _ other second =>
    cases failure with
    | disk fault => exact absurd rfl (other fault)
    | _ => exact .stuck (fun _ => Failure.noConfusion) _

/-- Whether a step returns in every world and leaves the disk as it is. -/
def IsQuiet (step : Run α) : Prop :=
  ∀ world, ∃ value later, Returns step world value later ∧ later.disk = world.disk

theorem isQuiet_pure (value : α) : IsQuiet (pure value) :=
  fun world => ⟨value, world, rfl, rfl⟩

theorem isQuiet_log (level : Log.Level) (part : String) (text : Text) :
    IsQuiet (log level part text) :=
  fun _ => ⟨(), _, rfl, rfl⟩

theorem IsQuiet.bind {next : α → Run β} (first : IsQuiet step)
    (rest : ∀ value, IsQuiet (next value)) :
    IsQuiet (step >>= next) := by
  intro world
  obtain ⟨value, middle, stepped, same⟩ := first world
  obtain ⟨result, later, returned, unchanged⟩ := rest value middle
  exact ⟨result, later, returns_bind_iff.mpr ⟨value, middle, stepped, returned⟩,
    unchanged.trans same⟩

theorem IsQuiet.mirrors (one : IsQuiet step) (two : IsQuiet other) :
    Mirrors like unlike step other := by
  intro first second disks
  obtain ⟨value, later, returned, same⟩ := one first
  obtain ⟨result, after, returns, unchanged⟩ := two second
  rw [show outcome step first = (.ok value, later) from returned,
    show outcome other second = (.ok result, after) from returns]
  exact .both trivial (by rwa [same, unchanged])

/-- Where the first of two steps returns, so does the second one. -/
theorem Mirrors.exists_returns (mirrors : Mirrors like alike step other) {one two later : World}
    {value : α}
    (disks : like one.disk two.disk) (returned : Returns step one value later) :
    ∃ result after, Returns other two result after ∧ alike value result ∧
      like later.disk after.disk := by
  have mirrored := mirrors one two disks
  rw [show outcome step one = (.ok value, later) from returned] at mirrored
  generalize become : outcome other two = result at mirrored
  cases mirrored with
  | both same disks => exact ⟨_, _, become, same, disks⟩

end

/-! ### The clock -/

/-- Whether a step never reads the clock and leaves it as it is. -/
def IsTimeless (step : Run α) : Prop :=
  ∀ world, (worldAfter step world).clock = world.clock ∧
    (worldAfter step world).readings = world.readings

theorem isTimeless_pure (value : α) : IsTimeless (pure value) :=
  fun _ => ⟨rfl, rfl⟩

theorem isTimeless_throw (failure : Failure) : IsTimeless (throw failure : Run α) :=
  fun _ => ⟨rfl, rfl⟩

theorem isTimeless_get : IsTimeless (get : Run World) :=
  fun _ => ⟨rfl, rfl⟩

theorem isTimeless_log (level : Log.Level) (part : String) (text : Text) :
    IsTimeless (log level part text) :=
  fun _ => ⟨rfl, rfl⟩

theorem isTimeless_look (question : Disk → Except Failure α) : IsTimeless (look question) := by
  intro world
  rw [worldAfter_look]
  exact ⟨rfl, rfl⟩

theorem isTimeless_change (operation : Disk → Except Failure Disk) :
    IsTimeless (change operation) := by
  intro world
  rcases worldAfter_change operation world with ⟨disk, -, same⟩ | same
  · rw [same]
    exact ⟨rfl, rfl⟩
  · rw [same]
    exact ⟨rfl, rfl⟩

theorem isTimeless_ensureFolders (path : Path) : IsTimeless (ensureFolders path) := by
  intro world
  rw [worldAfter, outcome_ensureFolders]
  exact ⟨rfl, rfl⟩

theorem IsTimeless.orRefused {step : Run α} (timeless : IsTimeless step) :
    IsTimeless (orRefused step) := by
  intro world
  rw [worldAfter_orRefused]
  exact timeless world

theorem IsTimeless.bind {step : Run α} {next : α → Run β} (first : IsTimeless step)
    (rest : ∀ value, IsTimeless (next value)) : IsTimeless (step >>= next) := by
  intro world
  have early := first world
  rcases worldAfter_bind step next world with ⟨value, later, returned, same⟩ | same
  · rw [returned.worldAfter_eq] at early
    have late := rest value later
    rw [same]
    exact ⟨late.1.trans early.1, late.2.trans early.2⟩
  · rw [same]
    exact early

theorem isTimeless_writeText (path : Path) (text : Text) : IsTimeless (writeText path text) :=
  (isTimeless_ensureFolders _).bind fun _ => isTimeless_change _

/-! ### Coming to an end -/

/-- Whether a step gives a value in a world. -/
def Finishes (step : Run α) (world : World) : Prop :=
  ∃ value later, Returns step world value later

theorem finishes_iff {step : Run α} {world : World} :
    Finishes step world ↔ ∃ value, (outcome step world).1 = .ok value := by
  constructor
  · rintro ⟨value, later, returned⟩
    exact ⟨value, congrArg Prod.fst returned⟩
  · rintro ⟨value, same⟩
    exact ⟨value, (outcome step world).2, Prod.ext same rfl⟩

theorem finishes_pure (value : α) (world : World) : Finishes (pure value) world :=
  ⟨value, world, rfl⟩

theorem not_finishes_throw {failure : Failure} {world : World} :
    ¬ Finishes (throw failure : Run α) world :=
  fun ⟨_, _, returned⟩ => not_returns_throw returned

theorem finishes_look_iff {question : Disk → Except Failure α} {world : World} :
    Finishes (look question) world ↔ ∃ value, question world.disk = .ok value := by
  rw [finishes_iff, outcome_look]

theorem finishes_bind_iff {step : Run α} {next : α → Run β} {world : World} :
    Finishes (step >>= next) world ↔
      ∃ value later, Returns step world value later ∧ Finishes (next value) later := by
  unfold Finishes
  constructor
  · rintro ⟨value, last, returned⟩
    obtain ⟨middle, between, first, rest⟩ := returns_bind_iff.mp returned
    exact ⟨middle, between, first, value, last, rest⟩
  · rintro ⟨middle, between, first, value, last, rest⟩
    exact ⟨value, last, returns_bind_iff.mpr ⟨middle, between, first, rest⟩⟩

theorem finishes_get_bind_iff {next : World → Run β} {world : World} :
    Finishes (get >>= next) world ↔ Finishes (next world) world :=
  Iff.rfl

/-- Two steps finish exactly when both do, where the second one does not depend on what the first
one gives. -/
theorem finishes_bind_iff_and {step : Run α} {next : α → Run β} {ends : World → Prop}
    {world : World}
    (second : ∀ value later, Finishes (next value) later ↔ ends later) :
    Finishes (step >>= next) world ↔ Finishes step world ∧ ends (worldAfter step world) := by
  rw [finishes_bind_iff]
  constructor
  · rintro ⟨value, later, returned, rest⟩
    rw [returned.worldAfter_eq]
    exact ⟨⟨value, later, returned⟩, (second value later).mp rest⟩
  · rintro ⟨⟨value, later, returned⟩, rest⟩
    rw [returned.worldAfter_eq] at rest
    exact ⟨value, later, returned, (second value later).mpr rest⟩

theorem finishes_bind_iff_left {step : Run α} {next : α → Run β} {world : World}
    (second : ∀ value later, Finishes (next value) later) :
    Finishes (step >>= next) world ↔ Finishes step world := by
  rw [finishes_bind_iff]
  exact exists₂_congr fun value later => and_iff_left (second value later)

/-- Of two steps that do not finish, the first one does not or the second one does not after it. -/
theorem not_finishes_bind {step : Run α} {next : α → Run β} {world : World}
    (stuck : ¬ Finishes (step >>= next) world) :
    (¬ Finishes step world ∧ worldAfter (step >>= next) world = worldAfter step world) ∨
      ∃ value later, Returns step world value later ∧ ¬ Finishes (next value) later ∧
        worldAfter (step >>= next) world = worldAfter (next value) later := by
  by_cases ends : Finishes step world
  · obtain ⟨value, later, returned⟩ := ends
    refine Or.inr ⟨value, later, returned, fun rest => ?_, ?_⟩
    · exact stuck (finishes_bind_iff.mpr ⟨value, later, returned, rest⟩)
    · rw [worldAfter, outcome_bind, show outcome step world = (.ok value, later) from returned]
      rfl
  · refine Or.inl ⟨ends, ?_⟩
    rcases worldAfter_bind step next world with ⟨value, later, returned, -⟩ | same
    · exact absurd ⟨value, later, returned⟩ ends
    · exact same

/-- Two steps that do not finish change what the first one does when it does not finish, or else
what both do when the second one does not. -/
theorem Moves.bind_of_not_finishes {along : Disk → Disk → Prop} {step : Run α} {next : α → Run β}
    {world : World} (stuck : ¬ Finishes (step >>= next) world)
    (first : ¬ Finishes step world → Moves along step world)
    (rest : ∀ value later, Returns step world value later → ¬ Finishes (next value) later →
      along world.disk (worldAfter (next value) later).disk) :
    Moves along (step >>= next) world := by
  rcases not_finishes_bind stuck with ⟨stuck, same⟩ | ⟨value, later, returned, stuck, same⟩
  · rw [Moves, same]
    exact first stuck
  · rw [Moves, same]
    exact rest value later returned stuck

/-- A text that could not be written has made folders at most. -/
theorem moves_writeText_of_not_finishes {along : Disk → Disk → Prop} {path : Path} {text : Text}
    {world : World}
    (ensures : ∀ above, along world.disk (world.disk.ensureFolders above path.parent).2)
    (stuck : ¬ Finishes (writeText path text) world) : Moves along (writeText path text) world := by
  have folders : Moves along (ensureFolders path.parent) world := by
    rw [Moves, disk_worldAfter_ensureFolders]
    exact ensures _
  refine .bind_of_not_finishes stuck (fun _ => folders) fun _ later ensured stuck => ?_
  rcases worldAfter_change (·.writeText path text) later with ⟨disk, written, -⟩ | unchanged
  · exact absurd ⟨(), _, returns_change_iff.mpr ⟨disk, written, rfl⟩⟩ stuck
  · rw [unchanged, ← ensured.worldAfter_eq]
    exact folders

/-- A step that may be refused finishes unless something other than the disk makes it fail. -/
theorem finishes_orRefused_iff {step : Run α} {world : World} :
    Finishes (orRefused step) world ↔ Failure.FailsOnDisk (outcome step world).1 := by
  rw [finishes_iff, outcome_orRefused]
  rcases outcome step world with ⟨failure | value, later⟩
  · unfold Failure.FailsOnDisk
    cases failure <;> simp
  · exact iff_of_true ⟨.ok value, rfl⟩ (Failure.failsOnDisk_ok value)

theorem failsOnDisk_bind {step : Run α} {next : α → Run β} {world : World}
    (first : Failure.FailsOnDisk (outcome step world).1)
    (rest : ∀ value later, Returns step world value later →
      Failure.FailsOnDisk (outcome (next value) later).1) :
    Failure.FailsOnDisk (outcome (step >>= next) world).1 := by
  rw [outcome_bind]
  rcases given : outcome step world with ⟨failure | value, later⟩
  · obtain ⟨fault, rfl⟩ := first failure (congrArg Prod.fst given)
    exact Failure.failsOnDisk_disk fault
  · exact rest value later given

theorem failsOnDisk_look {question : Disk → Except Failure α} {world : World}
    (refused : Failure.FailsOnDisk (question world.disk)) :
    Failure.FailsOnDisk (outcome (look question) world).1 := by
  rw [outcome_look]
  exact refused

theorem failsOnDisk_change_iff {operation : Disk → Except Failure Disk} {world : World} :
    Failure.FailsOnDisk (outcome (change operation) world).1 ↔
      Failure.FailsOnDisk (operation world.disk) := by
  rw [outcome_change]
  cases operation world.disk with
  | ok disk => exact iff_of_true (Failure.failsOnDisk_ok ()) (Failure.failsOnDisk_ok disk)
  | error failure => simp only [Failure.FailsOnDisk, Except.error.injEq]

theorem failsOnDisk_ensureFolders {path : Path} {world : World}
    (refused : Failure.FailsOnDisk (world.disk.ensureFolders path.names.length path).1) :
    Failure.FailsOnDisk (outcome (ensureFolders path) world).1 := by
  rw [outcome_ensureFolders]
  exact refused

end Run

end LuauReference
