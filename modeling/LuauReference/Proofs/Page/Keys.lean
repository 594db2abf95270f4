/-
This file says under which paths the pages of a reference are rendered: those of the planned class
pages and that of the overview, and nothing else. Pages are kept under their paths, so of two class
pages with one path only the later one is kept and a class is lost. When this happens is known from
the parts of which the paths are made, and it does not happen to classes whose names are names of a
path as they stand.
-/

import LuauReference.Page.Template
import LuauReference.Proofs.Page.Path
import LuauReference.Proofs.Page.Plan
import LuauReference.Proofs.Page.Render

namespace LuauReference

open Failure

namespace Page

/-! ### What rendering returns -/

/-- The links that the pages of a reference are rendered with. -/
abbrev renderedLinks (settings : PageSettings) (reference : Reference) : Links :=
  Links.ofPages (planned settings reference) settings.route

/-- The paths of the planned classes. -/
abbrev classPaths (settings : PageSettings) (reference : Reference) : List Text :=
  (planned settings reference).map ClassPage.path

theorem path_of_classDocument {settings : PageSettings} {links : Links} {page : ClassPage}
    {document : PageDocument} (built : classDocument settings links page = .ok document) :
    document.path = page.path := by
  obtain ⟨sections, _, same⟩ := bind_eq_ok_iff.mp built
  rw [← Except.ok.inj same]

/-- What is rendered are the written pages of the planned classes and of the overview, set one after
the other. -/
theorem exists_pairs_of_render {settings : PageSettings} {writer : PageWriter}
    {reference : Reference}
    {texts : Named Text} (rendered : render settings writer reference = .ok texts) :
    ∃ pairs, texts = Named.ofPairs pairs ∧
      Named.names pairs = classPaths settings reference ++ [indexPath] ∧
      ∀ page ∈ planned settings reference, ∃ document text,
        classDocument settings (renderedLinks settings reference) page = .ok document ∧
          document.write writer = .ok text ∧ (page.path, text) ∈ pairs := by
  obtain ⟨documents, laidOut, written⟩ := bind_eq_ok_iff.mp rendered
  obtain ⟨classes, built, same⟩ := bind_eq_ok_iff.mp laidOut
  obtain rfl := Except.ok.inj same
  obtain ⟨pairs, wrote, kept⟩ := bind_eq_ok_iff.mp written
  have pair {document : PageDocument} {result : Text × Text} (made : (do
      let text ← document.write writer
      pure (document.path, text)) = .ok result) :
      ∃ text, document.write writer = .ok text ∧ (document.path, text) = result := by
    obtain ⟨text, wrote, same⟩ := bind_eq_ok_iff.mp made
    exact ⟨text, wrote, Except.ok.inj same⟩
  refine ⟨pairs, (Except.ok.inj kept).symm, ?_, fun page inside => ?_⟩
  · have paths : classes.map PageDocument.path = classPaths settings reference :=
      map_of_mapM built fun _ _ => path_of_classDocument
    have names : Named.names pairs = (classes ++ [overviewDocument settings
        (renderedLinks settings reference) (planned settings reference)]).map
          PageDocument.path := by
      refine map_of_mapM wrote fun document result made => ?_
      obtain ⟨text, _, rfl⟩ := pair made
      rfl
    rw [names, List.map_append, paths]
    rfl
  · obtain ⟨document, listed, laid⟩ := exists_of_mapM built page inside
    obtain ⟨result, member, made⟩ := exists_of_mapM wrote document (List.mem_append_left _ listed)
    obtain ⟨text, written, rfl⟩ := pair made
    rw [path_of_classDocument laid] at member
    exact ⟨document, text, laid, written, member⟩

/-- The paths of the rendered pages are those of the planned classes and of the overview. -/
theorem mem_names_of_render {settings : PageSettings} {writer : PageWriter} {reference : Reference}
    {texts : Named Text} (rendered : render settings writer reference = .ok texts) {path : Text} :
    path ∈ Named.names texts ↔
      path = indexPath ∨ ∃ page ∈ planned settings reference, page.path = path := by
  obtain ⟨pairs, rfl, names, _⟩ := exists_pairs_of_render rendered
  rw [Named.mem_names_ofPairs, names, List.mem_append, List.mem_singleton, List.mem_map, or_comm]

/-! ### Paths of planned pages -/

section

variable {settings : PageSettings} {reference : Reference}

theorem path_of_mem_planned {page : ClassPage} (inside : page ∈ planned settings reference) :
    page.path = classPath page.symbol ∧ page.name = page.symbol.name := by
  obtain ⟨symbol, _, rfl⟩ := mem_plan.mp inside
  exact ⟨rfl, rfl⟩

theorem nodup_names_planned : ((planned settings reference).map ClassPage.name).Nodup :=
  nodup_names_plan

/-- Planned classes have distinct paths exactly when the names made of their parts are distinct. -/
theorem nodup_classPaths_iff : (classPaths settings reference).Nodup ↔
    ((planned settings reference).map fun page => segmentsOf page.symbol).Nodup := by
  have distinct : (planned settings reference).Nodup := nodup_names_planned.of_map
  have same : ∀ first ∈ planned settings reference, ∀ second ∈ planned settings reference,
      first.path = second.path ↔ segmentsOf first.symbol = segmentsOf second.symbol := by
    intro first one second other
    rw [(path_of_mem_planned one).1, (path_of_mem_planned other).1]
    exact classPath_eq_iff
  rw [List.nodup_map_iff_inj_on distinct, List.nodup_map_iff_inj_on distinct]
  exact forall₂_congr fun first one => forall₂_congr fun second other =>
    imp_congr_left (same first one second other)

/-- Planned classes whose names are names of a path as they stand have distinct paths. -/
theorem nodup_classPaths_of_isFileName
    (plain : ∀ page ∈ planned settings reference, isFileName page.name = true) :
    (classPaths settings reference).Nodup := by
  have names : ((planned settings reference).map ClassPage.name).Nodup := nodup_names_planned
  refine List.Nodup.map_on (fun first one second other same => ?_) names.of_map
  obtain ⟨firstPath, firstName⟩ := path_of_mem_planned one
  obtain ⟨secondPath, secondName⟩ := path_of_mem_planned other
  refine List.inj_on_of_nodup_map names one other ?_
  rw [firstName, secondName]
  refine name_eq_of_classPath_eq ?_ ?_ (firstPath ▸ secondPath ▸ same)
  · exact firstName ▸ plain first one
  · exact secondName ▸ plain second other

/-- No class page has the path of the overview. -/
theorem indexPath_notMem_classPaths : indexPath ∉ classPaths settings reference := by
  intro taken
  obtain ⟨page, inside, same⟩ := List.mem_map.mp taken
  rw [(path_of_mem_planned inside).1] at same
  have pieces := congrArg (Text.pieces '/') same
  rw [pieces_classPath] at pieces
  have head : some folder = some indexPath := congrArg List.head? pieces
  exact absurd head (by decide)

end

/-! ### No page is lost -/

/-- Planned classes have distinct paths exactly when the names made of their parts are distinct, as
they are when all class names are names of a path as they stand. Then, and only then, there is one
page for each planned class and the overview; each class is found under its path with the text of
its own page. -/
theorem one_page_per_class (settings : PageSettings) (reference : Reference) :
    ((classPaths settings reference).Nodup ↔
      ((planned settings reference).map fun page => segmentsOf page.symbol).Nodup) ∧
    ((∀ page ∈ planned settings reference, isFileName page.name = true) →
      (classPaths settings reference).Nodup) ∧
    ∀ writer texts, render settings writer reference = .ok texts →
      (texts.length = (planned settings reference).length + 1 ↔
        (classPaths settings reference).Nodup) ∧
      ((classPaths settings reference).Nodup →
        Named.names texts = classPaths settings reference ++ [indexPath] ∧
          ∀ page ∈ planned settings reference, ∃ document text,
            classDocument settings (renderedLinks settings reference) page = .ok document ∧
              document.write writer = .ok text ∧ texts.get? page.path = some text) := by
  refine ⟨nodup_classPaths_iff, nodup_classPaths_of_isFileName, fun writer texts rendered => ?_⟩
  obtain ⟨pairs, rfl, names, each⟩ := exists_pairs_of_render rendered
  have count : pairs.length = (planned settings reference).length + 1 := by
    have lengths := congrArg List.length names
    rwa [Named.length_names, List.length_append, List.length_map] at lengths
  have apart (distinct : (classPaths settings reference).Nodup) : (Named.names pairs).Nodup := by
    rw [names]
    exact distinct.append (List.nodup_singleton _)
      (List.disjoint_singleton.mpr indexPath_notMem_classPaths)
  refine ⟨⟨fun long => ?_, fun distinct => ?_⟩, fun distinct => ?_⟩
  · -- Without repetition there are as many paths as pages, so no path of a class is repeated.
    have covered := (Named.nodup_names_ofPairs pairs).subperm fun path member =>
      Named.mem_names_ofPairs.mp member
    have short : (Named.names pairs).length ≤ (Named.names (Named.ofPairs pairs)).length := by
      rw [Named.length_names, Named.length_names, long, count]
    have distinct :=
      (covered.perm_of_length_le short).nodup_iff.mp (Named.nodup_names_ofPairs pairs)
    rw [names] at distinct
    exact distinct.of_append_left
  · rw [Named.ofPairs_of_nodup (apart distinct), count]
  · rw [Named.ofPairs_of_nodup (apart distinct)]
    refine ⟨names, fun page inside => ?_⟩
    obtain ⟨document, text, laidOut, written, member⟩ := each page inside
    exact ⟨document, text, laidOut, written, Named.get?_of_mem (apart distinct) member⟩

/-- A reference of classes with their first categories, none of which has a type or a member. -/
def classesReference (classes : List (Text × Option Text)) : Reference :=
  bareReference (classes.map fun (name, category) => [{ bareSymbol "class" name name with
    docs := { tags := category.toList.map fun text => ⟨"category", .str text, .null⟩ } }])

theorem render_classesReference (settings : PageSettings) (writer : PageWriter)
    (classes : List (Text × Option Text)) :
    ∃ texts, render settings writer (classesReference classes) = .ok texts := by
  refine render_of_untyped settings writer fun symbol listed => ?_
  obtain ⟨module, inside, held⟩ := List.mem_flatMap.mp listed
  obtain ⟨symbols, made, rfl⟩ := List.mem_map.mp inside
  obtain ⟨entry, _, rfl⟩ := List.mem_map.mp made
  rw [List.mem_singleton.mp held]
  rfl

theorem one_page_per_class_filed :
    ∃ texts, render {} Template.standard (classesReference [("Door", some "House"), ("House", none),
        ("Lock", some "House/Door")]) = .ok texts ∧
      Named.names texts = ["classes/House/Door.md".toList, "classes/House.md".toList,
        "classes/House/Door/Lock.md".toList, "index.md".toList] := by
  obtain ⟨texts, rendered⟩ := render_classesReference {} Template.standard
    [("Door", some "House"), ("House", none), ("Lock", some "House/Door")]
  obtain ⟨_, distinct, kept⟩ := one_page_per_class {}
    (classesReference [("Door", some "House"), ("House", none), ("Lock", some "House/Door")])
  refine ⟨texts, rendered, ?_⟩
  rw [((kept Template.standard texts rendered).2 (distinct ?_)).1]
  · rw [classPaths, planned, plan_eq_insertedPlan]
    decide
  · rw [planned, plan_eq_insertedPlan]
    decide

/-- A class page is lost when characters that no name of a path may have are all that keeps two
classes apart, or when one has a slash where the other has a category. -/
theorem not_one_page_per_class :
    (∃ texts, classPaths {} (classesReference [("A:B", none), ("A?B", none)]) =
        ["classes/A_B.md".toList, "classes/A_B.md".toList] ∧
      render {} Template.standard (classesReference [("A:B", none), ("A?B", none)]) = .ok texts ∧
      Named.names texts = ["classes/A_B.md".toList, "index.md".toList]) ∧
    ∃ texts, classPaths {} (classesReference [("a/b", none), ("b", some "a")]) =
        ["classes/a/b.md".toList, "classes/a/b.md".toList] ∧
      render {} Template.standard (classesReference [("a/b", none), ("b", some "a")]) = .ok texts ∧
      Named.names texts = ["classes/a/b.md".toList, "index.md".toList] := by
  -- The second page takes the place of the first, whatever stands on them.
  have lost {classes : List (Text × Option Text)} {path : Text} (other : path ≠ indexPath)
      (same : classPaths {} (classesReference classes) = [path, path]) :
      ∃ texts, classPaths {} (classesReference classes) = [path, path] ∧
        render {} Template.standard (classesReference classes) = .ok texts ∧
        Named.names texts = [path, indexPath] := by
    obtain ⟨texts, rendered⟩ := render_classesReference {} Template.standard classes
    refine ⟨texts, same, rendered, ?_⟩
    obtain ⟨pairs, rfl, names, _⟩ := exists_pairs_of_render rendered
    rw [Named.ofPairs, Named.names_update, names, same]
    simp [other.symm]
  constructor
  · refine lost (by decide) ?_
    rw [classPaths, planned, plan_eq_insertedPlan]
    decide
  · refine lost (by decide) ?_
    rw [classPaths, planned, plan_eq_insertedPlan]
    decide

end Page

end LuauReference
