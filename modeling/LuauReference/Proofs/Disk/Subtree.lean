/-
This file says what a change of a tree at one place does to the entry at another one. Places that
are neither above nor below the change have the entry they had. A change at or below a place is a
change inside of the entry there, so two trees that have the same entry at a place still have the
same one after the same change.
-/

import LuauReference.Proofs.Disk.Entry

namespace LuauReference

namespace Entry

/-! ### Changes elsewhere -/

/-- What is strictly inside of an entry that is there or is about to be made. -/
theorem at?_getD (entries : List (Text × Entry)) (name : Text) {place : Place}
    (proper : place ≠ []) :
    ((Named.get? entries name).getD (folder [])).at? place =
      (Named.get? entries name).bind fun inner => inner.at? place := by
  cases Named.get? entries name with
  | some inner => rfl
  | none =>
    obtain ⟨first, rest, rfl⟩ := List.exists_cons_of_ne_nil proper
    rfl

theorem at?_put_of_unrelated {root : Entry} {place other : Place} (new : Entry)
    (outside : ¬ place <+: other) (apart : ¬ other <+: place) :
    (root.put place new).at? other = root.at? other := by
  induction place generalizing root other with
  | nil => exact absurd List.nil_prefix outside
  | cons name rest inductionHypothesis =>
    cases root with
    | file bytes | link target => rfl
    | folder entries =>
      cases other with
      | nil => exact absurd List.nil_prefix apart
      | cons first more =>
        rw [put_folder_cons, at?_cons, at?_cons, Entry.entries, Entry.entries, Named.get?_set]
        by_cases same : name = first
        · subst same
          simp only [List.cons_prefix_cons, true_and] at outside apart
          have proper : more ≠ [] := fun empty => apart (empty ▸ List.nil_prefix)
          rw [if_pos rfl, Option.bind_some, inductionHypothesis outside apart,
            at?_getD entries name proper]
        · rw [if_neg same]

/-- An empty folder that is put where nothing was shows only there and above. -/
theorem at?_put_empty {root : Entry} {place other : Place} (absent : root.at? place = none)
    (apart : ¬ other <+: place) : (root.put place (folder [])).at? other = root.at? other := by
  induction place generalizing root other with
  | nil => exact nomatch absent.symm.trans root.at?_nil
  | cons name rest inductionHypothesis =>
    cases root with
    | file bytes | link target => rfl
    | folder entries =>
      cases other with
      | nil => exact absurd List.nil_prefix apart
      | cons first more =>
        rw [put_folder_cons, at?_cons, at?_cons, Entry.entries, Entry.entries, Named.get?_set]
        by_cases same : name = first
        · subst same
          simp only [List.cons_prefix_cons, true_and] at apart
          have proper : more ≠ [] := fun empty => apart (empty ▸ List.nil_prefix)
          rw [if_pos rfl, Option.bind_some, ← at?_getD entries name proper]
          by_cases last : rest = []
          · rw [at?_cons, Entry.entries, last] at absent
            cases found : Named.get? entries name with
            | some inner => simp [found] at absent
            | none => rw [last, put, Option.getD_none]
          · rw [at?_cons, Entry.entries, ← at?_getD entries name last] at absent
            exact inductionHypothesis absent apart
        · rw [if_neg same]

theorem at?_remove_of_unrelated {root : Entry} {place other : Place} (outside : ¬ place <+: other)
    (apart : ¬ other <+: place) : (root.remove place).at? other = root.at? other := by
  induction place generalizing root other with
  | nil => exact absurd List.nil_prefix outside
  | cons name rest inductionHypothesis =>
    cases root with
    | file bytes | link target => rw [remove_of_ne_folder (by simp)]
    | folder entries =>
      cases other with
      | nil => exact absurd List.nil_prefix apart
      | cons first more =>
        rw [at?_cons, get?_remove_cons, at?_cons, Entry.entries]
        by_cases same : name = first
        · subst same
          simp only [List.cons_prefix_cons, true_and] at outside apart
          have more : rest ≠ [] := fun empty => outside (empty ▸ List.nil_prefix)
          rw [if_pos rfl, if_neg more, Option.bind_map]
          exact congrArg _ (funext fun inner => inductionHypothesis outside apart)
        · rw [if_neg same]

/-! ### Changes inside -/

/-- Putting something at or below a place puts it inside of what is there or is about to be made. -/
theorem at?_put_below {root : Entry} {place : Place} (clear : root.IsClear place.dropLast)
    (inner : Place) (new : Entry) :
    (root.put (place ++ inner) new).at? place =
      some (((root.at? place).getD (folder [])).put inner new) := by
  induction place generalizing root with
  | nil => rw [List.nil_append, at?_nil, at?_nil, Option.getD_some]
  | cons name rest inductionHypothesis =>
    obtain ⟨entries, rfl⟩ := clear [] List.nil_prefix root (at?_nil root)
    rw [List.cons_append, put_folder_cons, at?_cons, at?_cons, Entry.entries, Entry.entries,
      Named.get?_set, if_pos rfl, Option.bind_some]
    cases rest with
    | nil =>
      rw [List.nil_append, at?_nil]
      cases Named.get? entries name <;> rfl
    | cons next more =>
      rw [inductionHypothesis (at?_getD_of_isClear clear),
        at?_getD entries name (List.cons_ne_nil next more)]

theorem at?_put_congr {one two : Entry} {place : Place} (same : one.at? place = two.at? place)
    (clearOne : one.IsClear place.dropLast) (clearTwo : two.IsClear place.dropLast) (inner : Place)
    (new : Entry) :
    (one.put (place ++ inner) new).at? place = (two.put (place ++ inner) new).at? place := by
  rw [at?_put_below clearOne, at?_put_below clearTwo, same]

theorem at?_remove_self {root : Entry} {place : Place} (proper : place ≠ []) :
    (root.remove place).at? place = none := by
  induction place generalizing root with
  | nil => exact absurd rfl proper
  | cons name rest inductionHypothesis =>
    cases root with
    | file bytes | link target =>
      rw [remove_of_ne_folder (by simp)]
      rfl
    | folder entries =>
      rw [at?_cons, get?_remove_cons, if_pos rfl]
      by_cases last : rest = []
      · rw [if_pos last, Option.bind_none]
      · rw [if_neg last, Option.bind_map]
        exact Option.bind_eq_none_iff.mpr fun inner _ => inductionHypothesis last

theorem at?_remove_below {root : Entry} {place inner : Place} (proper : inner ≠ []) :
    (root.remove (place ++ inner)).at? place = (root.at? place).map fun entry =>
      entry.remove inner := by
  induction place generalizing root with
  | nil => rw [List.nil_append, at?_nil, at?_nil, Option.map_some]
  | cons name rest inductionHypothesis =>
    rw [List.cons_append]
    cases root with
    | file bytes | link target =>
      rw [remove_of_ne_folder (by simp)]
      rfl
    | folder entries =>
      rw [at?_cons, get?_remove_cons, if_pos rfl,
        if_neg (List.append_ne_nil_of_right_ne_nil rest proper), Option.bind_map, at?_cons,
        Option.map_bind]
      exact congrArg _ (funext fun entry => inductionHypothesis)

theorem at?_remove_congr {one two : Entry} {place : Place} (same : one.at? place = two.at? place)
    (inner : Place) :
    (one.remove (place ++ inner)).at? place = (two.remove (place ++ inner)).at? place := by
  by_cases here : inner = []
  · rw [here, List.append_nil]
    by_cases top : place = []
    · rw [top] at same ⊢
      exact same
    · rw [at?_remove_self top, at?_remove_self top]
  · rw [at?_remove_below here, at?_remove_below here, same]

end Entry

end LuauReference
