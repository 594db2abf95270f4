/-
This file proves that the pages of a reference are rendered, for all settings and every writer, when
the types of its symbols are of the shape that source files give them. What stands on a class page
are symbols of the reference, and the overview holds nothing that could fail.
-/

import LuauReference.Page.Render
import LuauReference.Proofs.Page.Anchor
import LuauReference.Proofs.Page.ClassPage
import LuauReference.Proofs.Text.Named

namespace LuauReference

open Failure

namespace Page

/-! ### Members of pages -/

theorem mem_of_mem_sectionSymbols {test : Symbol → Bool} {symbols : List Symbol} {bucket : Bucket}
    {symbol : Symbol} (member : symbol ∈ sectionSymbols test symbols bucket) : symbol ∈ symbols :=
  (List.mem_filter.mp ((Text.sortOn_perm _ _).mem_iff.mp member)).1

/-- The members of sections are among the given symbols, with the anchors that were handed to
them. -/
theorem member_of_mem_sectionsFrom {test : Symbol → Bool} {symbols : List Symbol}
    {used : Anchor.Used}
    {buckets : List Bucket} {section_ : Bucket × List Member} {member : Member}
    (inside : section_ ∈ sectionsFrom test symbols used buckets) (held : member ∈ section_.2) :
    member.symbol ∈ symbols ∧
      ∃ before : Anchor.Used, (before.allocateSymbol member.symbol).1 = member.anchor := by
  induction buckets generalizing used with
  | nil => cases inside
  | cons bucket rest inductionHypothesis =>
    rw [sectionsFrom] at inside
    dsimp only at inside
    split at inside
    · exact inductionHypothesis inside
    · rcases List.mem_cons.mp inside with rfl | later
      · obtain ⟨⟨symbol, anchor⟩, paired, rfl⟩ := List.mem_map.mp held
        exact ⟨mem_of_mem_sectionSymbols (List.of_mem_zip paired).1,
          Anchor.Used.exists_allocateSymbol paired⟩
      · exact inductionHypothesis later

/-- The members of the planned pages are symbols of the reference, with the anchors that were handed
to them. -/
theorem member_of_mem_planned {settings : PageSettings} {reference : Reference} {page : ClassPage}
    {member : Member} (inside : page ∈ planned settings reference) (held : member ∈ page.members) :
    member.symbol ∈ reference.symbols ∧
      ∃ before : Anchor.Used, (before.allocateSymbol member.symbol).1 = member.anchor := by
  obtain ⟨symbol, chosen, rfl⟩ := List.mem_map.mp ((Text.sortOn_perm _ _).mem_iff.mp inside)
  obtain ⟨section_, listed, shown⟩ := List.mem_flatMap.mp held
  obtain ⟨attached, handed⟩ := member_of_mem_sectionsFrom listed shown
  exact ⟨(List.mem_filter.mp (List.mem_filter.mp attached).1).1, handed⟩

/-! ### The overview -/

theorem areWritable_subgroupBlocks (links : Links) (subgroup : Text) (pages : List ClassPage) :
    Block.AreWritable (subgroupBlocks links subgroup pages) := by
  refine Block.areWritable_append ?_ (Block.areWritable_cons ?_ Block.areWritable_nil)
  · split
    · exact Block.areWritable_nil
    · exact Block.areWritable_cons trivial Block.areWritable_nil
  · intro item member
    obtain ⟨page, inside, rfl⟩ := List.mem_map.mp member
    exact Inline.areWritable_cons trivial Inline.areWritable_nil

theorem areWritable_groupBlocks (settings : PageSettings) (links : Links) (places : List Placed)
    (group : Text) : Block.AreWritable (groupBlocks settings links places group) := by
  refine Block.areWritable_cons trivial (Block.areWritable_cons ?_ ?_)
  · exact Inline.areWritable_cons trivial Inline.areWritable_nil
  · exact Block.areWritable_flatMap fun subgroup _ =>
      areWritable_subgroupBlocks links subgroup.1 subgroup.2

theorem areWritable_overview (settings : PageSettings) (links : Links) (pages : List ClassPage) :
    Block.AreWritable (overviewDocument settings links pages).blocks := by
  refine Block.areWritable_cons trivial ?_
  split
  · refine Block.areWritable_cons ?_ Block.areWritable_nil
    exact Inline.areWritable_cons trivial Inline.areWritable_nil
  · exact Block.areWritable_flatMap fun group _ => areWritable_groupBlocks settings links _ group

/-! ### All pages -/

/-- All pages of a reference are laid out, and each can be written. -/
theorem documents_give (settings : PageSettings) {reference : Reference}
    (shaped : ∀ symbol ∈ reference.symbols, symbol.types.IsShaped) :
    Gives (documents settings reference) fun pages =>
      ∀ page ∈ pages, Block.AreWritable page.blocks := by
  have each : ∀ page ∈ planned settings reference,
      Gives (classDocument settings
        (Links.ofPages (planned settings reference) settings.route) page)
        fun document => Block.AreWritable document.blocks := fun page inside =>
    classDocument_gives settings _ fun member held => shaped _ (member_of_mem_planned inside held).1
  refine (gives_mapM each).bind fun classes writable => gives_ok ?_
  exact List.forall_mem_append.mpr
    ⟨writable, List.forall_mem_singleton.mpr (areWritable_overview settings _ _)⟩

theorem writeAll_gives (writer : PageWriter) {pages : List PageDocument}
    (writable : ∀ page ∈ pages, Block.AreWritable page.blocks) :
    Gives (writeAll writer pages) fun _ => True := by
  have each : ∀ page ∈ pages, Gives (do
      let text ← page.write writer
      pure (page.path, text)) fun _ => True := fun page member =>
    (PageDocument.write_gives (writable page member) writer).bind fun _ _ => gives_ok trivial
  exact (gives_mapM each).bind fun _ _ => gives_ok trivial

/-- The pages of a reference are rendered. -/
theorem render_gives (settings : PageSettings) (writer : PageWriter) {reference : Reference}
    (shaped : ∀ symbol ∈ reference.symbols, symbol.types.IsShaped) :
    Gives (render settings writer reference) fun _ => True :=
  (documents_give settings shaped).bind fun _ writable => writeAll_gives writer writable

/-- The pages of a reference without structured types are rendered. -/
theorem render_of_untyped (settings : PageSettings) (writer : PageWriter) {reference : Reference}
    (untyped : ∀ symbol ∈ reference.symbols, symbol.types.fields.isEmpty = true) :
    ∃ texts, render settings writer reference = .ok texts := by
  have shaped : ∀ symbol ∈ reference.symbols, symbol.types.IsShaped := fun symbol listed => by
    have empty := List.isEmpty_iff.mp (untyped symbol listed)
    exact ⟨empty ▸ List.nodup_nil, empty ▸ List.forall_mem_nil _⟩
  obtain ⟨texts, rendered, _⟩ := render_gives settings writer shaped
  exact ⟨texts, rendered⟩

end Page

end LuauReference
