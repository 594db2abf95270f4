/-
This file proves what changing a tree does to the files and the folders in it. The view is a
function from places to the bytes of a file. Putting a file at a place whose way there is clear
updates that function at the place, removing a file clears it there, and neither making nor removing
an empty folder changes it at all. Folders stay where they are unless they are at or below the place
of the change.

A tree is plain when it holds no links and no folder has two entries of one name. The second half is
what a disk always guarantees; without it, removing an entry could bring to light one that was
hidden by it.
-/

import LuauReference.Disk.Entry
import LuauReference.Proofs.Text.Named
import Mathlib.Data.List.Infix
import Mathlib.Logic.Function.Basic

namespace LuauReference

namespace Entry

/-- The bytes of the file at a place. -/
def fileAt? (root : Entry) (place : Place) : Option (List UInt8) :=
  match root.at? place with
  | some (file bytes) => some bytes
  | _ => none

/-- Whether there is a folder at a place. -/
def HasFolderAt (root : Entry) (place : Place) : Prop :=
  ∃ entries, root.at? place = some (folder entries)

/-- Whether nothing but folders stands on the way to a place and at the place itself. Entries may be
missing from some point on. -/
def IsClear (root : Entry) (place : Place) : Prop :=
  ∀ above, above <+: place → ∀ entry, root.at? above = some entry →
    ∃ entries, entry = folder entries

/-- A tree without links in which the entries of every folder have distinct names. -/
inductive IsPlain : Entry → Prop
  | file (bytes : List UInt8) : IsPlain (file bytes)
  | folder {entries : List (Text × Entry)} (distinct : (Named.names entries).Nodup)
      (inner : ∀ item ∈ entries, IsPlain item.2) : IsPlain (folder entries)

/-! ### Looking up -/

@[simp] theorem at?_nil (root : Entry) : root.at? [] = some root := by
  rw [at?]

theorem at?_cons (root : Entry) (name : Text) (rest : Place) :
    root.at? (name :: rest) = (root.entries.get? name).bind fun inner => inner.at? rest := by
  rw [at?]
  cases root.entries.get? name <;> rfl

theorem at?_append (root : Entry) (first second : Place) :
    root.at? (first ++ second) = (root.at? first).bind fun inner => inner.at? second := by
  induction first generalizing root with
  | nil => rw [List.nil_append, at?_nil, Option.bind_some]
  | cons name rest inductionHypothesis =>
    rw [List.cons_append, at?_cons, at?_cons, Option.bind_assoc]
    exact congrArg _ (funext fun inner => inductionHypothesis inner)

theorem at?_file_cons (bytes : List UInt8) (name : Text) (rest : Place) :
    (file bytes).at? (name :: rest) = none := by
  rw [at?_cons]
  rfl

/-- Only a folder has something below it. -/
theorem isFolder_of_at?_cons {root entry : Entry} {name : Text} {rest : Place}
    (found : root.at? (name :: rest) = some entry) : root.isFolder = true := by
  rw [at?_cons] at found
  cases root with
  | folder entries => rfl
  | file bytes | link target => simp [entries] at found

theorem fileAt?_eq_some_iff {root : Entry} {place : Place} {bytes : List UInt8} :
    root.fileAt? place = some bytes ↔ root.at? place = some (file bytes) := by
  unfold fileAt?
  split <;> simp_all

theorem fileAt?_of_at? {root other : Entry} {place inner : Place}
    (same : root.at? place = other.at? inner) : root.fileAt? place = other.fileAt? inner := by
  unfold fileAt?
  rw [same]

theorem fileAt?_of_at?_eq_none {root : Entry} {place : Place} (absent : root.at? place = none) :
    root.fileAt? place = none := by
  unfold fileAt?
  rw [absent]

theorem fileAt?_of_hasFolderAt {root : Entry} {place : Place} (present : root.HasFolderAt place) :
    root.fileAt? place = none := by
  obtain ⟨entries, found⟩ := present
  unfold fileAt?
  rw [found]

theorem fileAt?_cons (root : Entry) (name : Text) (rest : Place) :
    root.fileAt? (name :: rest) =
      (root.entries.get? name).bind fun inner => inner.fileAt? rest := by
  unfold fileAt?
  rw [at?_cons]
  cases root.entries.get? name <;> rfl

theorem hasFolderAt_cons {root : Entry} {name : Text} {rest : Place} :
    root.HasFolderAt (name :: rest) ↔
      ∃ inner, root.entries.get? name = some inner ∧ inner.HasFolderAt rest := by
  unfold HasFolderAt
  rw [at?_cons]
  cases root.entries.get? name <;> simp

/-- An entry below a place stands in a folder at the place. -/
theorem hasFolderAt_of_at?_append {root entry : Entry} {place : Place} {name : Text} {rest : Place}
    (found : root.at? (place ++ name :: rest) = some entry) : root.HasFolderAt place := by
  rw [at?_append] at found
  obtain ⟨inner, here, below⟩ := Option.bind_eq_some_iff.mp found
  cases inner with
  | folder entries => exact ⟨entries, here⟩
  | file bytes | link target => simp [at?_cons, Entry.entries] at below

theorem hasFolderAt_of_strictPrefix {root entry : Entry} {above place : Place}
    (found : root.at? place = some entry) (below : above <+: place) (strict : above ≠ place) :
    root.HasFolderAt above := by
  obtain ⟨rest, rfl⟩ := below
  cases rest with
  | nil => exact absurd (List.append_nil above).symm strict
  | cons name rest => exact hasFolderAt_of_at?_append found

theorem hasFolderAt_of_isPrefix {root : Entry} {above place : Place}
    (present : root.HasFolderAt place) (below : above <+: place) : root.HasFolderAt above := by
  by_cases same : above = place
  · rw [same]
    exact present
  · obtain ⟨entries, found⟩ := present
    exact hasFolderAt_of_strictPrefix found below same

/-- Nothing stands strictly below a place that is no folder. -/
theorem at?_eq_none_of_strictPrefix {root : Entry} {above place : Place}
    (absent : ¬ root.HasFolderAt above) (below : above <+: place) (strict : above ≠ place) :
    root.at? place = none := by
  cases found : root.at? place with
  | none => rfl
  | some entry => exact absurd (hasFolderAt_of_strictPrefix found below strict) absent

/-! ### Clear ways -/

theorem IsClear.of_isPrefix {root : Entry} {above place : Place} (clear : root.IsClear place)
    (below : above <+: place) : root.IsClear above :=
  fun higher prefixed => clear higher (prefixed.trans below)

theorem IsClear.of_hasFolderAt {root : Entry} {place : Place} (present : root.HasFolderAt place) :
    root.IsClear place := by
  intro above below entry found
  obtain ⟨entries, here⟩ := hasFolderAt_of_isPrefix present below
  exact ⟨entries, Option.some.inj (found.symm.trans here)⟩

/-! ### Putting -/

theorem put_folder_cons (entries : List (Text × Entry)) (name : Text) (rest : Place) (new : Entry) :
    (folder entries).put (name :: rest) new =
      folder (Named.set entries name
        (((Named.get? entries name).getD (folder [])).put rest new)) := by
  rw [put]

/-- Putting what is there already changes nothing. -/
theorem put_of_at? {root new : Entry} {place : Place} (found : root.at? place = some new) :
    root.put place new = root := by
  induction place generalizing root with
  | nil => rw [put, Option.some.inj (root.at?_nil.symm.trans found)]
  | cons name rest inductionHypothesis =>
    rw [at?_cons] at found
    obtain ⟨inner, here, below⟩ := Option.bind_eq_some_iff.mp found
    cases root with
    | file bytes | link target => rfl
    | folder entries =>
      rw [Entry.entries] at here
      rw [put_folder_cons, here, Option.getD_some, inductionHypothesis below,
        Named.set_of_get?_eq_some here]

/-- What a tree holds at a name that is there or is about to be made. -/
theorem at?_getD_of_isClear {entries : List (Text × Entry)} {name : Text} {rest : Place}
    (clear : (folder entries).IsClear (name :: rest)) :
    ((Named.get? entries name).getD (folder [])).IsClear rest := by
  intro above below entry found
  cases present : Named.get? entries name with
  | some inner =>
    rw [present, Option.getD_some] at found
    refine clear (name :: above) (List.cons_prefix_cons.mpr ⟨rfl, below⟩) entry ?_
    rw [at?_cons, Entry.entries, present, Option.bind_some, found]
  | none =>
    rw [present, Option.getD_none] at found
    cases above with
    | nil => exact ⟨[], (Option.some.inj found).symm⟩
    | cons other more => simp [at?_cons, Entry.entries] at found

/-- What is at a place after putting an entry there is found in that entry; places that are neither
above nor below are not touched. -/
theorem at?_put_append {root : Entry} {place : Place} (new : Entry) (inner : Place)
    (clear : root.IsClear place.dropLast) :
    (root.put place new).at? (place ++ inner) = new.at? inner := by
  induction place generalizing root with
  | nil => rw [put, List.nil_append]
  | cons name rest inductionHypothesis =>
    obtain ⟨entries, rfl⟩ := clear [] List.nil_prefix root (at?_nil root)
    rw [put_folder_cons, List.cons_append, at?_cons, Entry.entries, Named.get?_set, if_pos rfl,
      Option.bind_some]
    cases rest with
    | nil => rw [put, List.nil_append]
    | cons next more => exact inductionHypothesis (at?_getD_of_isClear clear)

/-- The files of an entry that is there or is about to be made. -/
theorem fileAt?_getD (entries : List (Text × Entry)) (name : Text) (place : Place) :
    ((Named.get? entries name).getD (folder [])).fileAt? place =
      (Named.get? entries name).bind fun inner => inner.fileAt? place := by
  cases Named.get? entries name with
  | some inner => rfl
  | none => cases place <;> rfl

theorem fileAt?_put_of_not_isPrefix {root : Entry} {place other : Place} (new : Entry)
    (outside : ¬ place <+: other) : (root.put place new).fileAt? other = root.fileAt? other := by
  induction place generalizing root other with
  | nil => exact absurd List.nil_prefix outside
  | cons name rest inductionHypothesis =>
    cases root with
    | file bytes | link target => rfl
    | folder entries =>
      rw [put_folder_cons]
      cases other with
      | nil => rfl
      | cons first more =>
        rw [fileAt?_cons, fileAt?_cons, Entry.entries, Entry.entries, Named.get?_set]
        by_cases same : name = first
        · subst same
          have inside : ¬ rest <+: more := fun below =>
            outside (List.cons_prefix_cons.mpr ⟨rfl, below⟩)
          rw [if_pos rfl, Option.bind_some, inductionHypothesis inside, fileAt?_getD]
        · rw [if_neg same]

theorem hasFolderAt_put_of_not_isPrefix {root : Entry} {place other : Place} (new : Entry)
    (outside : ¬ place <+: other) (present : root.HasFolderAt other) :
    (root.put place new).HasFolderAt other := by
  induction place generalizing root other with
  | nil => exact absurd List.nil_prefix outside
  | cons name rest inductionHypothesis =>
    cases root with
    | file bytes | link target => exact present
    | folder entries =>
      rw [put_folder_cons]
      cases other with
      | nil => exact ⟨_, at?_nil _⟩
      | cons first more =>
        rw [hasFolderAt_cons, Entry.entries] at present ⊢
        obtain ⟨inner, found, below⟩ := present
        rw [Named.get?_set]
        by_cases same : name = first
        · subst same
          have inside : ¬ rest <+: more := fun nested =>
            outside (List.cons_prefix_cons.mpr ⟨rfl, nested⟩)
          rw [found, Option.getD_some, if_pos rfl]
          exact ⟨_, rfl, inductionHypothesis inside below⟩
        · rw [if_neg same]
          exact ⟨inner, found, below⟩

/-- Putting a file where no folder is changes the files at that place only. -/
theorem fileAt?_put_file {root : Entry} {place : Place} (bytes : List UInt8)
    (clear : root.IsClear place.dropLast) (vacant : ¬ root.HasFolderAt place) :
    (root.put place (file bytes)).fileAt? = Function.update root.fileAt? place (some bytes) := by
  funext other
  by_cases same : other = place
  · rw [same, Function.update_self]
    refine fileAt?_eq_some_iff.mpr ?_
    rw [← at?_nil (file bytes), ← at?_put_append (file bytes) [] clear, List.append_nil]
  · rw [Function.update_of_ne same]
    by_cases below : place <+: other
    · rw [fileAt?_of_at?_eq_none (at?_eq_none_of_strictPrefix vacant below (Ne.symm same))]
      obtain ⟨rest, rfl⟩ := below
      cases rest with
      | nil => exact absurd (List.append_nil place) same
      | cons name rest =>
        refine fileAt?_of_at?_eq_none ?_
        rw [at?_put_append _ _ clear, at?_file_cons]
    · exact fileAt?_put_of_not_isPrefix _ below

/-- Putting a file where nothing is below changes the files at that place at most. -/
theorem fileAt?_put_file_or {root : Entry} {place : Place} (bytes : List UInt8)
    (bare : ∀ name rest, root.fileAt? (place ++ name :: rest) = none) (other : Place) :
    (root.put place (file bytes)).fileAt? other = root.fileAt? other ∨
      other = place ∧ (root.put place (file bytes)).fileAt? other = some bytes := by
  induction place generalizing root other with
  | nil =>
    rw [put]
    cases other with
    | nil => exact Or.inr ⟨rfl, rfl⟩
    | cons name rest => exact Or.inl (bare name rest).symm
  | cons name rest inductionHypothesis =>
    cases root with
    | file content | link target => exact Or.inl rfl
    | folder entries =>
      rw [put_folder_cons]
      cases other with
      | nil => exact Or.inl rfl
      | cons first more =>
        rw [fileAt?_cons, fileAt?_cons, Entry.entries, Entry.entries, Named.get?_set]
        by_cases same : name = first
        · subst same
          rw [if_pos rfl, Option.bind_some, ← fileAt?_getD entries name more]
          have inner : ∀ next others, ((Named.get? entries name).getD (folder [])).fileAt?
              (rest ++ next :: others) = none := fun next others => by
            rw [fileAt?_getD]
            have below := bare next others
            rwa [List.cons_append, fileAt?_cons] at below
          exact (inductionHypothesis inner more).imp_right (And.imp_left (congrArg _))
        · exact Or.inl (by rw [if_neg same])

/-- Putting an entry with the same files below it changes no file. -/
theorem fileAt?_put_of_same {root new : Entry} {place : Place}
    (same : ∀ inner, new.fileAt? inner = root.fileAt? (place ++ inner)) :
    (root.put place new).fileAt? = root.fileAt? := by
  funext other
  induction place generalizing root other with
  | nil =>
    rw [put]
    exact same other
  | cons name rest inductionHypothesis =>
    cases root with
    | file bytes | link target => rfl
    | folder entries =>
      rw [put_folder_cons]
      cases other with
      | nil => rfl
      | cons first more =>
        rw [fileAt?_cons, fileAt?_cons, Entry.entries, Entry.entries, Named.get?_set]
        by_cases here : name = first
        · subst here
          rw [if_pos rfl, Option.bind_some, ← fileAt?_getD entries name more]
          refine inductionHypothesis (fun inner => ?_) more
          rw [same, List.cons_append, fileAt?_cons, fileAt?_getD]
          rfl
        · rw [if_neg here]

/-- Putting something where no folder is takes no folder away. -/
theorem hasFolderAt_put {root : Entry} {place other : Place} (new : Entry)
    (vacant : ¬ root.HasFolderAt place) (present : root.HasFolderAt other) :
    (root.put place new).HasFolderAt other := by
  refine hasFolderAt_put_of_not_isPrefix new ?_ present
  intro below
  exact vacant (hasFolderAt_of_isPrefix present below)

/-! ### Removing -/

theorem remove_of_ne_folder {root : Entry} (leaf : ∀ entries, root ≠ folder entries)
    (place : Place) : root.remove place = root := by
  cases root with
  | folder entries => exact absurd rfl (leaf entries)
  | file bytes | link target => rcases place with _ | ⟨name, _ | ⟨next, rest⟩⟩ <;> rfl

theorem get?_remove_cons (entries : List (Text × Entry)) (name other : Text) (rest : Place) :
    ((folder entries).remove (name :: rest)).entries.get? other =
      if name = other then
        if rest = [] then none else (Named.get? entries name).map fun inner => inner.remove rest
      else
        Named.get? entries other := by
  cases rest with
  | nil => rw [remove, Entry.entries, Named.get?_filter_ne, if_pos rfl]
  | cons next rest =>
    rw [remove, if_neg (List.cons_ne_nil next rest)]
    cases found : Named.get? entries name with
    | none =>
      rw [Option.map_none]
      by_cases same : name = other
      · rw [if_pos same, ← same]
        exact found
      · rw [if_neg same]
        rfl
    | some inner => exact Named.get?_set entries name other _

theorem exists_remove_folder (entries : List (Text × Entry)) (place : Place) :
    ∃ left, (folder entries).remove place = folder left := by
  match place with
  | [] => exact ⟨entries, by rw [remove]⟩
  | [name] => exact ⟨_, by rw [remove]⟩
  | name :: next :: rest =>
    rw [remove]
    split
    · exact ⟨_, rfl⟩
    · exact ⟨_, rfl⟩

theorem fileAt?_remove {root : Entry} {place : Place} (other : Place) (proper : place ≠ []) :
    (root.remove place).fileAt? other = if place <+: other then none else root.fileAt? other := by
  induction place generalizing root other with
  | nil => exact absurd rfl proper
  | cons name rest inductionHypothesis =>
    cases other with
    | nil =>
      rw [if_neg (by simp)]
      cases root with
      | file bytes | link target => rw [remove_of_ne_folder (by simp)]
      | folder entries =>
        obtain ⟨left, same⟩ := exists_remove_folder entries (name :: rest)
        rw [same]
        rfl
    | cons first more =>
      cases root with
      | file bytes | link target =>
        rw [remove_of_ne_folder (by simp), fileAt?_cons, Entry.entries, Named.get?_nil,
          Option.bind_none, ite_self]
        all_goals simp
      | folder entries =>
        rw [fileAt?_cons, get?_remove_cons, fileAt?_cons, Entry.entries]
        by_cases same : name = first
        · subst same
          rw [if_pos rfl]
          by_cases last : rest = []
          · rw [if_pos last, if_pos (by simp [last]), Option.bind_none]
          · rw [if_neg last]
            simp only [List.cons_prefix_cons, true_and]
            cases Named.get? entries name with
            | none => simp
            | some inner => exact inductionHypothesis more last
        · rw [if_neg same, if_neg (by simp [same])]

theorem hasFolderAt_remove_of_not_isPrefix {root : Entry} {place other : Place}
    (outside : ¬ place <+: other) (present : root.HasFolderAt other) :
    (root.remove place).HasFolderAt other := by
  induction place generalizing root other with
  | nil => exact absurd List.nil_prefix outside
  | cons name rest inductionHypothesis =>
    cases root with
    | file bytes | link target =>
      rw [remove_of_ne_folder (by simp)]
      exact present
    | folder entries =>
      cases other with
      | nil =>
        obtain ⟨left, same⟩ := exists_remove_folder entries (name :: rest)
        exact ⟨left, congrArg some same⟩
      | cons first more =>
        rw [hasFolderAt_cons] at present ⊢
        obtain ⟨inner, found, below⟩ := present
        rw [get?_remove_cons]
        by_cases same : name = first
        · subst same
          have inside : ¬ rest <+: more := fun nested =>
            outside (List.cons_prefix_cons.mpr ⟨rfl, nested⟩)
          have more : rest ≠ [] := by
            rintro rfl
            exact inside List.nil_prefix
          rw [if_pos rfl, if_neg more, show Named.get? entries name = some inner from found]
          exact ⟨_, rfl, inductionHypothesis inside below⟩
        · rw [if_neg same]
          exact ⟨inner, found, below⟩

/-- Removing something makes no folder. -/
theorem hasFolderAt_of_remove {root : Entry} {place other : Place}
    (present : (root.remove place).HasFolderAt other) : root.HasFolderAt other := by
  induction place generalizing root other with
  | nil => rwa [remove] at present
  | cons name rest inductionHypothesis =>
    cases root with
    | file bytes | link target => rwa [remove_of_ne_folder (by simp)] at present
    | folder entries =>
      cases other with
      | nil => exact ⟨entries, at?_nil _⟩
      | cons first more =>
        rw [hasFolderAt_cons, get?_remove_cons] at present
        rw [hasFolderAt_cons, Entry.entries]
        obtain ⟨inner, found, below⟩ := present
        by_cases same : name = first
        · subst same
          rw [if_pos rfl, Option.ite_none_left_eq_some] at found
          obtain ⟨old, here, rfl⟩ := Option.map_eq_some_iff.mp found.2
          exact ⟨old, here, inductionHypothesis below⟩
        · rw [if_neg same] at found
          exact ⟨inner, found, below⟩

/-- Removing a file changes the files at its place only. -/
theorem fileAt?_remove_file {root : Entry} {place : Place} (proper : place ≠ [])
    (vacant : ¬ root.HasFolderAt place) :
    (root.remove place).fileAt? = Function.update root.fileAt? place none := by
  funext other
  rw [fileAt?_remove other proper]
  by_cases same : other = place
  · rw [same, Function.update_self, if_pos List.prefix_rfl]
  · rw [Function.update_of_ne same]
    split
    · next below =>
      exact (fileAt?_of_at?_eq_none (at?_eq_none_of_strictPrefix vacant below (Ne.symm same))).symm
    · rfl

/-- Removing something that is no folder takes no folder away. -/
theorem hasFolderAt_remove {root : Entry} {place other : Place}
    (vacant : ¬ root.HasFolderAt place) (present : root.HasFolderAt other) :
    (root.remove place).HasFolderAt other := by
  refine hasFolderAt_remove_of_not_isPrefix ?_ present
  intro below
  exact vacant (hasFolderAt_of_isPrefix present below)

/-- Removing an empty folder changes no file. -/
theorem fileAt?_remove_empty {root : Entry} {place : Place}
    (empty : root.at? place = some (folder [])) : (root.remove place).fileAt? = root.fileAt? := by
  by_cases proper : place = []
  · rw [proper, remove]
  · funext other
    rw [fileAt?_remove other proper]
    split
    · next below =>
      obtain ⟨rest, rfl⟩ := below
      have same : root.at? (place ++ rest) = (folder []).at? rest := by
        rw [at?_append, empty, Option.bind_some]
      rw [fileAt?_of_at? same]
      cases rest <;> rfl
    · rfl

/-! ### Plain trees stay plain -/

theorem IsPlain.of_at? {root entry : Entry} {place : Place} (plain : root.IsPlain)
    (found : root.at? place = some entry) : entry.IsPlain := by
  induction place generalizing root with
  | nil => exact Option.some.inj (root.at?_nil.symm.trans found) ▸ plain
  | cons name rest inductionHypothesis =>
    rw [at?_cons] at found
    obtain ⟨inner, here, below⟩ := Option.bind_eq_some_iff.mp found
    cases plain with
    | file bytes => exact nomatch here
    | folder distinct all =>
      exact inductionHypothesis (all _ (Named.mem_of_get?_eq_some here)) below

theorem IsPlain.at?_ne_link {root : Entry} (plain : root.IsPlain) (place : Place) (target : Text) :
    root.at? place ≠ some (link target) :=
  fun found => nomatch plain.of_at? found

theorem isPlain_set {entries : List (Text × Entry)} {new : Entry}
    (plain : (folder entries).IsPlain) (fresh : new.IsPlain) (name : Text) :
    (folder (Named.set entries name new)).IsPlain := by
  cases plain with
  | folder distinct inner =>
    exact .folder (Named.nodup_names_set distinct name new) (Named.forall_mem_set fresh inner)

theorem isPlain_folder_nil : (folder []).IsPlain :=
  .folder List.nodup_nil fun _ member => nomatch member

theorem isPlain_get?_getD {entries : List (Text × Entry)} (plain : (folder entries).IsPlain)
    (name : Text) : ((Named.get? entries name).getD (folder [])).IsPlain := by
  cases found : Named.get? entries name with
  | none => exact isPlain_folder_nil
  | some inner =>
    cases plain with
    | folder distinct all => exact all _ (Named.mem_of_get?_eq_some found)

theorem IsPlain.put {root new : Entry} (plain : root.IsPlain) (fresh : new.IsPlain)
    (place : Place) : (root.put place new).IsPlain := by
  induction place generalizing root with
  | nil => rwa [Entry.put]
  | cons name rest inductionHypothesis =>
    cases root with
    | file bytes | link target => exact plain
    | folder entries =>
      rw [put_folder_cons]
      exact isPlain_set plain (inductionHypothesis (isPlain_get?_getD plain name)) name

theorem IsPlain.remove {root : Entry} (plain : root.IsPlain) (place : Place) :
    (root.remove place).IsPlain := by
  induction place generalizing root with
  | nil => rwa [Entry.remove]
  | cons name rest inductionHypothesis =>
    cases plain with
    | file bytes =>
      rw [remove_of_ne_folder (by simp)]
      exact .file bytes
    | @folder entries distinct inner =>
      cases rest with
      | nil =>
        rw [Entry.remove]
        refine .folder (List.Sublist.nodup (List.filter_sublist.map _) distinct) ?_
        exact fun item member => inner item (List.mem_of_mem_filter member)
      | cons next more =>
        rw [Entry.remove]
        split
        · next entry found =>
          have kept := inductionHypothesis (inner _ (Named.mem_of_get?_eq_some found))
          exact isPlain_set (.folder distinct inner) kept name
        · exact .folder distinct inner

end Entry

end LuauReference
