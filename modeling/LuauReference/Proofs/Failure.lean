/-
This file holds the laws of steps that may fail. A sequence of steps returns when each of them does,
and a step that is made for every item of a list returns the list of what it gives for the items.
-/

import LuauReference.Failure
import Mathlib.Logic.Basic

namespace LuauReference

namespace Failure

variable {α β : Type}

theorem bind_eq_ok_iff {first : Except Failure α} {next : α → Except Failure β} {value : β} :
    first >>= next = .ok value ↔ ∃ middle, first = .ok middle ∧ next middle = .ok value := by
  cases first with
  | error failure =>
    constructor
    · exact fun same => nomatch same
    · rintro ⟨middle, same, _⟩
      exact nomatch same
  | ok middle =>
    constructor
    · exact fun same => ⟨middle, rfl, same⟩
    · rintro ⟨other, same, rest⟩
      exact Except.ok.inj same ▸ rest

/-- A step that returns for every item of a list returns for the list. -/
theorem mapM_eq_ok {step : α → Except Failure β} {result : α → β} {items : List α}
    (each : ∀ item ∈ items, step item = .ok (result item)) :
    items.mapM step = .ok (items.map result) := by
  induction items with
  | nil => rfl
  | cons item rest inductionHypothesis =>
    rw [List.mapM_cons, each item List.mem_cons_self,
      inductionHypothesis fun other member => each other (List.mem_cons_of_mem _ member)]
    rfl

/-- What can be told of each returned value from its item can be told of all of them, in order. -/
theorem map_of_mapM {γ : Type} {step : α → Except Failure β} {view : β → γ} {expected : α → γ}
    {items : List α} {values : List β} (built : items.mapM step = .ok values)
    (each : ∀ item value, step item = .ok value → view value = expected item) :
    values.map view = items.map expected := by
  induction items generalizing values with
  | nil =>
    obtain rfl : [] = values := Except.ok.inj built
    rfl
  | cons item rest inductionHypothesis =>
    rw [List.mapM_cons, bind_eq_ok_iff] at built
    obtain ⟨value, first, built⟩ := built
    obtain ⟨others, more, same⟩ := bind_eq_ok_iff.mp built
    obtain rfl : value :: others = values := Except.ok.inj same
    rw [List.map_cons, List.map_cons, each item value first, inductionHypothesis more]

/-- What is returned for a list has what is returned for each of its items. -/
theorem exists_of_mapM {step : α → Except Failure β} {items : List α} {values : List β}
    (built : items.mapM step = .ok values) :
    ∀ item ∈ items, ∃ value ∈ values, step item = .ok value := by
  induction items generalizing values with
  | nil => exact List.forall_mem_nil _
  | cons item rest inductionHypothesis =>
    rw [List.mapM_cons, bind_eq_ok_iff] at built
    obtain ⟨value, first, built⟩ := built
    obtain ⟨others, more, same⟩ := bind_eq_ok_iff.mp built
    obtain rfl : value :: others = values := Except.ok.inj same
    refine List.forall_mem_cons.mpr ⟨⟨value, List.mem_cons_self, first⟩, fun other member => ?_⟩
    obtain ⟨found, listed, returned⟩ := inductionHypothesis more other member
    exact ⟨found, List.mem_cons_of_mem _ listed, returned⟩

/-- What holds of all that a step can return for an item of a list holds of all that is returned for
the list. -/
theorem forall_mem_of_mapM {step : α → Except Failure β} {holds : β → Prop} {items : List α}
    {values : List β} (built : items.mapM step = .ok values)
    (each : ∀ item ∈ items, ∀ value, step item = .ok value → holds value) :
    ∀ value ∈ values, holds value := by
  induction items generalizing values with
  | nil =>
    obtain rfl : [] = values := Except.ok.inj built
    exact List.forall_mem_nil _
  | cons item rest inductionHypothesis =>
    rw [List.mapM_cons, bind_eq_ok_iff] at built
    obtain ⟨value, first, built⟩ := built
    obtain ⟨others, more, same⟩ := bind_eq_ok_iff.mp built
    obtain rfl : value :: others = values := Except.ok.inj same
    obtain ⟨own, later⟩ := List.forall_mem_cons.mp each
    exact List.forall_mem_cons.mpr ⟨own value first, inductionHypothesis more later⟩

/-- A step that is made in two parts for every item of a list may be made part by part for the
list. -/
theorem mapM_bind_of_mapM {γ : Type} {step : α → Except Failure γ} {first : α → Except Failure β}
    {next : β → Except Failure γ} {items : List α} {values : List γ}
    (parts : ∀ item, first item >>= next = step item) (built : items.mapM step = .ok values) :
    items.mapM first >>= List.mapM next = .ok values := by
  induction items generalizing values with
  | nil => exact built
  | cons item rest inductionHypothesis =>
    rw [List.mapM_cons, bind_eq_ok_iff] at built
    obtain ⟨value, own, built⟩ := built
    obtain ⟨others, more, same⟩ := bind_eq_ok_iff.mp built
    obtain ⟨middle, begun, ended⟩ := bind_eq_ok_iff.mp ((parts item).trans own)
    obtain ⟨middles, started, finished⟩ := bind_eq_ok_iff.mp (inductionHypothesis more)
    rw [List.mapM_cons, begun, started]
    show (middle :: middles).mapM next = .ok values
    rw [List.mapM_cons, ended, finished]
    exact same

/-- Whether a step returns, with a value that has a property. -/
def Gives (step : Except Failure α) (holds : α → Prop) : Prop :=
  ∃ value, step = .ok value ∧ holds value

theorem gives_ok {holds : α → Prop} {value : α} (held : holds value) : Gives (.ok value) holds :=
  ⟨value, rfl, held⟩

theorem Gives.bind {step : Except Failure α} {next : α → Except Failure β} {middle : α → Prop}
    {holds : β → Prop} (first : Gives step middle)
    (rest : ∀ value, middle value → Gives (next value) holds) : Gives (step >>= next) holds := by
  obtain ⟨value, same, held⟩ := first
  rw [same]
  exact rest value held

theorem gives_mapM {step : α → Except Failure β} {holds : β → Prop} {items : List α}
    (each : ∀ item ∈ items, Gives (step item) holds) :
    Gives (items.mapM step) fun values => ∀ value ∈ values, holds value := by
  induction items with
  | nil => exact gives_ok (List.forall_mem_nil _)
  | cons item rest inductionHypothesis =>
    obtain ⟨first, others⟩ := List.forall_mem_cons.mp each
    rw [List.mapM_cons]
    refine first.bind fun value held => ?_
    refine (inductionHypothesis others).bind fun values all => ?_
    exact gives_ok (List.forall_mem_cons.mpr ⟨held, all⟩)

/-! ### Refusals -/

/-- Whether a step, if it fails, was refused by the disk. -/
def FailsOnDisk (step : Except Failure α) : Prop :=
  ∀ failure, step = .error failure → ∃ fault, failure = .disk fault

theorem failsOnDisk_ok (value : α) : FailsOnDisk (.ok value) :=
  fun _ failed => nomatch failed

theorem failsOnDisk_disk (fault : DiskFault) :
    FailsOnDisk (.error (.disk fault) : Except Failure α) :=
  fun _ failed => ⟨fault, (Except.error.inj failed).symm⟩

theorem FailsOnDisk.bind {step : Except Failure α} {next : α → Except Failure β}
    (first : FailsOnDisk step) (rest : ∀ value, step = .ok value → FailsOnDisk (next value)) :
    FailsOnDisk (step >>= next) := by
  cases result : step with
  | ok value => exact rest value result
  | error failure =>
    obtain ⟨fault, rfl⟩ := first failure result
    exact failsOnDisk_disk fault

/-! ### Two steps side by side -/

/-- Whether of two steps one goes the way of the other: it gives a value that is alike, or both are
refused by the disk. Nothing is said where the first one fails in another way. -/
inductive Follows (alike : α → β → Prop) : Except Failure α → Except Failure β → Prop
  | both {first : α} {second : β} (same : alike first second) :
  Follows alike (.ok first) (.ok second)
  | refused (fault other : DiskFault) : Follows alike (.error (.disk fault)) (.error (.disk other))
  | stuck {failure : Failure} (other : ∀ fault, failure ≠ .disk fault) (second : Except Failure β) :
      Follows alike (.error failure) second

theorem Follows.of_error {alike : α → β → Prop} (failure : Failure) :
    Follows alike (.error failure) (.error failure) := by
  cases failure with
  | disk fault => exact .refused fault fault
  | _ => exact .stuck (fun _ => Failure.noConfusion) _

theorem Follows.refl (step : Except Failure α) : Follows Eq step step := by
  cases step with
  | ok value => exact .both rfl
  | error failure => exact .of_error failure

theorem Follows.bind {γ δ : Type} {alike : α → β → Prop} {later : γ → δ → Prop}
    {first : Except Failure α} {second : Except Failure β} {next : α → Except Failure γ}
    {rest : β → Except Failure δ} (follows : Follows alike first second)
    (each : ∀ one two, alike one two → Follows later (next one) (rest two)) :
    Follows later (first >>= next) (second >>= rest) := by
  cases follows with
  | both same => exact each _ _ same
  | refused fault other => exact .refused fault other
  | stuck other second => exact .stuck other _

end Failure

end LuauReference
