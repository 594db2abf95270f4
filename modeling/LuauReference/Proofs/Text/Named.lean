/-
This file proves the laws of values under names. What is looked up after setting a name is the new
value under that name and the old values elsewhere, names stay distinct, and setting distinct pairs
one after the other only lists them.
-/

import LuauReference.Text.Named
import Mathlib.Data.List.Nodup

namespace LuauReference

theorem Text.sortOn_perm {α : Type} (key : α → Text) (items : List α) :
    (Text.sortOn key items).Perm items :=
  List.mergeSort_perm items _

namespace Named

variable {α : Type}

/-- The names that have a value, in order. -/
def names (entries : Named α) : List Text :=
  entries.map Prod.fst

@[simp] theorem names_nil : names ([] : Named α) = [] := rfl

@[simp] theorem names_cons (name : Text) (value : α) (rest : Named α) :
    names ((name, value) :: rest) = name :: names rest := rfl

theorem exists_eq_cons_of_names {entries : Named α} {name : Text} {others : List Text}
    (named : names entries = name :: others) :
    ∃ value rest, entries = (name, value) :: rest ∧ names rest = others := by
  obtain ⟨⟨-, value⟩, rest, rfl, rfl, rfl⟩ := List.map_eq_cons_iff.mp named
  exact ⟨value, rest, rfl, rfl⟩

theorem length_names (entries : Named α) : (names entries).length = entries.length :=
  List.length_map _

@[simp] theorem names_append (first second : Named α) :
    names (first ++ second) = names first ++ names second :=
  List.map_append

/-! ### Looking up -/

@[simp] theorem get?_nil (name : Text) : get? ([] : Named α) name = none := rfl

theorem get?_cons (other name : Text) (value : α) (rest : Named α) :
    get? ((other, value) :: rest) name = if other = name then some value else get? rest name := by
  by_cases same : other = name
  · subst same
    rw [if_pos rfl]
    exact List.lookup_cons_self
  · have differs : (name == other) = false := by simpa using Ne.symm same
    rw [if_neg same, get?, List.lookup_cons, differs]
    rfl

theorem get?_eq_none_iff {entries : Named α} {name : Text} :
    get? entries name = none ↔ name ∉ names entries := by
  induction entries with
  | nil => simp
  | cons entry rest inductionHypothesis =>
    obtain ⟨other, value⟩ := entry
    rw [get?_cons]
    by_cases same : other = name
    · simp [same]
    · simp only [if_neg same, inductionHypothesis, names_cons, List.mem_cons, not_or]
      exact ⟨fun absent => ⟨Ne.symm same, absent⟩, fun both => both.2⟩

theorem get?_map {β : Type} (change : α → β) (entries : Named α) (name : Text) :
    get? (entries.map fun entry => (entry.1, change entry.2)) name =
      (get? entries name).map change := by
  induction entries with
  | nil => rfl
  | cons entry rest inductionHypothesis =>
    rw [List.map_cons, get?_cons, get?_cons, inductionHypothesis]
    split <;> rfl

theorem mem_of_get?_eq_some {entries : Named α} {name : Text} {value : α}
    (found : get? entries name = some value) : (name, value) ∈ entries := by
  induction entries with
  | nil => simp at found
  | cons entry rest inductionHypothesis =>
    obtain ⟨other, old⟩ := entry
    rw [get?_cons] at found
    split at found
    · next same =>
      rw [same, Option.some_inj.mp found]
      exact List.mem_cons_self
    · exact List.mem_cons_of_mem _ (inductionHypothesis found)

theorem get?_of_mem {entries : Named α} (distinct : (names entries).Nodup) {name : Text} {value : α}
    (member : (name, value) ∈ entries) : get? entries name = some value := by
  induction entries with
  | nil => simp at member
  | cons entry rest inductionHypothesis =>
    obtain ⟨other, old⟩ := entry
    rw [names_cons, List.nodup_cons] at distinct
    rw [get?_cons]
    rcases List.mem_cons.mp member with here | below
    · rw [Prod.mk.injEq] at here
      rw [if_pos here.1.symm, here.2]
    · have differs : other ≠ name := by
        rintro rfl
        exact distinct.1 (List.mem_map.mpr ⟨_, below, rfl⟩)
      rw [if_neg differs]
      exact inductionHypothesis distinct.2 below

/-- The order of distinct names does not matter for what is under them. -/
theorem get?_of_perm {first second : Named α} (same : first.Perm second)
    (distinct : (names first).Nodup) (name : Text) : get? first name = get? second name := by
  cases found : get? second name with
  | some value => exact get?_of_mem distinct (same.mem_iff.mpr (mem_of_get?_eq_some found))
  | none =>
    rw [get?_eq_none_iff] at found ⊢
    exact fun member => found ((same.map Prod.fst).mem_iff.mp member)

theorem get?_filter_ne (entries : Named α) (name other : Text) :
    get? (entries.filter fun (first, _) => first != name) other =
      if name = other then none else get? entries other := by
  induction entries with
  | nil => simp
  | cons entry rest inductionHypothesis =>
    obtain ⟨first, value⟩ := entry
    rw [List.filter_cons]
    by_cases same : first = name
    · rw [if_neg (by simp [same]), inductionHypothesis, get?_cons, same]
      split <;> rfl
    · rw [if_pos (by simp [same]), get?_cons, get?_cons, inductionHypothesis]
      by_cases here : first = other
      · rw [if_pos here, if_pos here, if_neg fun there => same (here.trans there.symm)]
      · rw [if_neg here, if_neg here]

/-! ### Setting -/

theorem get?_set (entries : Named α) (name other : Text) (value : α) :
    get? (set entries name value) other = if name =
      other then some value else get? entries other := by
  induction entries with
  | nil => rw [set, get?_cons]
  | cons entry rest inductionHypothesis =>
    obtain ⟨first, old⟩ := entry
    rw [set]
    split
    · next same =>
      rw [get?_cons, get?_cons, same]
      split <;> rfl
    · next differs =>
      rw [get?_cons, get?_cons, inductionHypothesis]
      by_cases here : first = other
      · have away : name ≠ other := fun there => differs (here.trans there.symm)
        rw [if_pos here, if_pos here, if_neg away]
      · rw [if_neg here, if_neg here]

theorem set_map {β : Type} (change : α → β) (entries : Named α) (name : Text) (value : α) :
    set (entries.map fun entry => (entry.1, change entry.2)) name (change value) =
      (set entries name value).map fun entry => (entry.1, change entry.2) := by
  induction entries with
  | nil => rfl
  | cons entry rest inductionHypothesis =>
    obtain ⟨other, old⟩ := entry
    rw [List.map_cons, set, set]
    split
    · rfl
    · rw [inductionHypothesis, List.map_cons]

theorem get?_setDefault (entries : Named α) (name other : Text) (value : α) :
    get? (setDefault entries name value) other =
      if name = other then some ((get? entries other).getD value) else get? entries other := by
  rw [setDefault, has]
  by_cases same : name = other
  · subst same
    rw [if_pos rfl]
    cases found : get? entries name with
    | none => rw [if_neg (by simp), get?_set, if_pos rfl, Option.getD_none]
    | some old => rw [if_pos (by simp), found, Option.getD_some]
  · rw [if_neg same]
    split
    · rfl
    · rw [get?_set, if_neg same]

/-- Setting a name to the value that it has changes nothing. -/
theorem set_of_get?_eq_some {entries : Named α} {name : Text} {value : α}
    (found : get? entries name = some value) : set entries name value = entries := by
  induction entries with
  | nil => cases found
  | cons entry rest inductionHypothesis =>
    obtain ⟨other, old⟩ := entry
    rw [get?_cons] at found
    rw [set]
    split at found
    · next same => rw [if_pos same, same, Option.some.inj found]
    · next differs => rw [if_neg differs, inductionHypothesis found]

theorem set_of_notMem {entries : Named α} {name : Text} (value : α)
    (absent : name ∉ names entries) : set entries name value = entries ++ [(name, value)] := by
  induction entries with
  | nil => rfl
  | cons entry rest inductionHypothesis =>
    obtain ⟨other, old⟩ := entry
    simp only [names_cons, List.mem_cons, not_or] at absent
    rw [set, if_neg (Ne.symm absent.1), inductionHypothesis absent.2, List.cons_append]

/-- The names after setting one: the same when it is there, and it at the end when it is not. -/
theorem names_set (entries : Named α) (name : Text) (value : α) :
    names (set entries name value) =
      if name ∈ names entries then names entries else names entries ++ [name] := by
  induction entries with
  | nil => rfl
  | cons entry rest inductionHypothesis =>
    obtain ⟨other, old⟩ := entry
    rw [set]
    by_cases same : other = name
    · simp [same]
    · rw [if_neg same, names_cons, names_cons, inductionHypothesis]
      by_cases present : name ∈ names rest
      · rw [if_pos present, if_pos (List.mem_cons_of_mem _ present)]
      · have absent : name ∉ other :: names rest :=
          List.not_mem_cons_of_ne_of_not_mem (Ne.symm same) present
        rw [if_neg present, if_neg absent, List.cons_append]

theorem nodup_names_set {entries : Named α} (distinct : (names entries).Nodup) (name : Text)
    (value : α) : (names (set entries name value)).Nodup := by
  rw [names_set]
  split
  · exact distinct
  · next absent =>
    exact List.nodup_append.mpr ⟨distinct, List.nodup_singleton _, by
      intro first member last single
      rw [List.mem_singleton.mp single]
      rintro rfl
      exact absent member⟩

/-- What is in the entries after setting a name is the new value or was there before. -/
theorem mem_of_mem_set {entries : Named α} {name other : Text} {value found : α}
    (member : (other, found) ∈ set entries name value) :
    (other = name ∧ found = value) ∨ (other, found) ∈ entries := by
  induction entries with
  | nil =>
    rw [set, List.mem_singleton, Prod.mk.injEq] at member
    exact Or.inl member
  | cons entry rest inductionHypothesis =>
    obtain ⟨first, old⟩ := entry
    rw [set] at member
    split at member
    · rcases List.mem_cons.mp member with here | below
      · exact Or.inl (Prod.mk.injEq .. ▸ here)
      · exact Or.inr (List.mem_cons_of_mem _ below)
    · rcases List.mem_cons.mp member with here | below
      · exact Or.inr (here ▸ List.mem_cons_self)
      · rcases inductionHypothesis below with new | kept
        · exact Or.inl new
        · exact Or.inr (List.mem_cons_of_mem _ kept)

/-- What holds of all entries and of the new one holds of all entries after setting a name. -/
theorem forall_mem_set {entries : Named α} {name : Text} {value : α} {motive : Text × α → Prop}
    (own : motive (name, value)) (others : ∀ entry ∈ entries, motive entry) :
    ∀ entry ∈ set entries name value, motive entry := by
  rintro ⟨other, found⟩ member
  rcases mem_of_mem_set member with ⟨rfl, rfl⟩ | old
  · exact own
  · exact others _ old

/-! ### Setting one after the other -/

theorem update_cons (entries : Named α) (name : Text) (value : α) (rest : List (Text × α)) :
    update entries ((name, value) :: rest) = update (set entries name value) rest := rfl

theorem update_of_nodup {entries : Named α} (pairs : List (Text × α))
    (distinct : (names (entries ++ pairs)).Nodup) : update entries pairs = entries ++ pairs := by
  induction pairs generalizing entries with
  | nil => rw [update, List.foldl_nil, List.append_nil]
  | cons pair rest inductionHypothesis =>
    obtain ⟨name, value⟩ := pair
    have absent : name ∉ names entries := by
      rw [names_append, names_cons, List.nodup_middle, List.nodup_cons] at distinct
      exact fun member => distinct.1 (List.mem_append_left _ member)
    have shifted : entries ++ (name, value) :: rest = (entries ++ [(name, value)]) ++ rest := by
      rw [List.append_assoc, List.singleton_append]
    rw [shifted] at distinct ⊢
    rw [update_cons, set_of_notMem value absent]
    exact inductionHypothesis distinct

/-- The names after setting each pair are those that were there and then each other one once, where
it comes first. -/
theorem names_update (entries : Named α) (pairs : List (Text × α)) :
    names (update entries pairs) =
      (names pairs).foldl (fun kept name => if name ∈ kept then kept else kept ++ [name])
        (names entries) := by
  induction pairs generalizing entries with
  | nil => rfl
  | cons pair rest inductionHypothesis =>
    obtain ⟨name, value⟩ := pair
    rw [update_cons, inductionHypothesis, names_set, names_cons, List.foldl_cons]

theorem mem_names_update {entries : Named α} {pairs : List (Text × α)} {name : Text} :
    name ∈ names (update entries pairs) ↔ name ∈ names entries ∨ name ∈ names pairs := by
  induction pairs generalizing entries with
  | nil => exact (or_iff_left List.not_mem_nil).symm
  | cons pair rest inductionHypothesis =>
    obtain ⟨first, value⟩ := pair
    have set_ : name ∈ names (set entries first value) ↔ name ∈ names entries ∨ name = first := by
      rw [names_set]
      split
      · next present => exact (or_iff_left_of_imp fun same => same ▸ present).symm
      · rw [List.mem_append, List.mem_singleton]
    rw [update_cons, inductionHypothesis, set_, names_cons, List.mem_cons, or_assoc]

theorem mem_names_ofPairs {pairs : List (Text × α)} {name : Text} :
    name ∈ names (ofPairs pairs) ↔ name ∈ names pairs :=
  mem_names_update.trans (or_iff_right List.not_mem_nil)

theorem nodup_names_ofPairs (pairs : List (Text × α)) : (names (ofPairs pairs)).Nodup :=
  List.foldlRecOn (motive := fun entries => (names entries).Nodup) pairs _ List.nodup_nil
    fun _ distinct pair _ => nodup_names_set distinct pair.1 pair.2

theorem mem_of_mem_ofPairs {pairs : List (Text × α)} {entry : Text × α}
    (member : entry ∈ ofPairs pairs) : entry ∈ pairs := by
  suffices general : ∀ (pairs : List (Text × α)) (entries : Named α), entry ∈ update entries pairs →
      entry ∈ entries ∨ entry ∈ pairs from (general pairs [] member).resolve_left List.not_mem_nil
  intro pairs
  induction pairs with
  | nil => exact fun _ => Or.inl
  | cons pair rest inductionHypothesis =>
    intro entries member
    rcases inductionHypothesis (set entries pair.1 pair.2) member with early | late
    · rcases mem_of_mem_set early with ⟨name, value⟩ | old
      · exact Or.inr (List.mem_cons.mpr (Or.inl (Prod.ext name value)))
      · exact Or.inl old
    · exact Or.inr (List.mem_cons_of_mem _ late)

/-- Distinct pairs are their own values under names. -/
theorem ofPairs_of_nodup {pairs : List (Text × α)} (distinct : (names pairs).Nodup) :
    ofPairs pairs = pairs := by
  rw [ofPairs, update_of_nodup pairs (by simpa using distinct), List.nil_append]

end Named

end LuauReference
