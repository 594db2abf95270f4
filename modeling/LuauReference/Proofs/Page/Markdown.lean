/-
This file proves that a page is written unless it holds a node that was made from a value of the
wrong kind. Such nodes are the only cause of failure: headings, code and texts are written whatever
they hold.
-/

import LuauReference.Page.Markdown
import LuauReference.Proofs.Failure

namespace LuauReference

open Failure

/-- Whether a piece of running text can be written. -/
def Inline.IsWritable : Inline → Prop
  | .unwritable _ => False
  | _ => True

/-- Whether all pieces of running text can be written. -/
def Inline.AreWritable (items : List Inline) : Prop :=
  ∀ item ∈ items, item.IsWritable

/-- Whether a block of a page can be written. -/
def Block.IsWritable : Block → Prop
  | .paragraph inlines => Inline.AreWritable inlines
  | .bullets items => ∀ item ∈ items, Inline.AreWritable item
  | .table _ rows => ∀ row ∈ rows, ∀ cell ∈ row, Inline.AreWritable cell
  | .unwritable _ => False
  | _ => True

/-- Whether all blocks of a page can be written. -/
def Block.AreWritable (blocks : List Block) : Prop :=
  ∀ block ∈ blocks, block.IsWritable

/-! ### Lists of nodes -/

namespace Inline

theorem areWritable_nil : AreWritable [] :=
  List.forall_mem_nil _

theorem areWritable_cons {item : Inline} {rest : List Inline} (first : item.IsWritable)
    (others : AreWritable rest) : AreWritable (item :: rest) :=
  List.forall_mem_cons.mpr ⟨first, others⟩

theorem areWritable_append {items rest : List Inline} (first : AreWritable items)
    (others : AreWritable rest) : AreWritable (items ++ rest) :=
  List.forall_mem_append.mpr ⟨first, others⟩

theorem areWritable_map {α : Type} {items : List α} {make : α → Inline}
    (each : ∀ item, (make item).IsWritable) : AreWritable (items.map make) := by
  intro item member
  obtain ⟨source, inside, rfl⟩ := List.mem_map.mp member
  exact each source

theorem areWritable_join (separator : Text) {items : List Inline} (each : AreWritable items) :
    AreWritable (join separator items) := by
  fun_induction join separator items with
  | case1 => exact each
  | case2 only => exact each
  | case3 first second more inductionHypothesis =>
    obtain ⟨own, others⟩ := List.forall_mem_cons.mp each
    exact areWritable_cons own (areWritable_cons trivial (inductionHypothesis others))

end Inline

namespace Block

theorem areWritable_nil : AreWritable [] :=
  List.forall_mem_nil _

theorem areWritable_cons {block : Block} {rest : List Block} (first : block.IsWritable)
    (others : AreWritable rest) : AreWritable (block :: rest) :=
  List.forall_mem_cons.mpr ⟨first, others⟩

theorem areWritable_append {blocks rest : List Block} (first : AreWritable blocks)
    (others : AreWritable rest) : AreWritable (blocks ++ rest) :=
  List.forall_mem_append.mpr ⟨first, others⟩

theorem areWritable_map {α : Type} {items : List α} {make : α → Block}
    (each : ∀ item, (make item).IsWritable) : AreWritable (items.map make) := by
  intro block member
  obtain ⟨source, inside, rfl⟩ := List.mem_map.mp member
  exact each source

theorem areWritable_flatMap {α : Type} {items : List α} {make : α → List Block}
    (each : ∀ item ∈ items, AreWritable (make item)) : AreWritable (items.flatMap make) := by
  intro block member
  obtain ⟨source, inside, held⟩ := List.mem_flatMap.mp member
  exact each source inside block held

theorem areWritable_flatten {parts : List (List Block)} (each : ∀ part ∈ parts, AreWritable part) :
    AreWritable parts.flatten := by
  intro block member
  obtain ⟨part, inside, held⟩ := List.mem_flatten.mp member
  exact each part inside block held

end Block

/-! ### Writing -/

namespace Markdown

theorem inline_gives {item : Inline} (writable : item.IsWritable) :
    Gives (inline item) fun _ => True := by
  cases item with
  | unwritable cause => exact writable.elim
  | _ => exact gives_ok trivial

theorem inlines_gives {items : List Inline} (writable : Inline.AreWritable items) :
    Gives (inlines items) fun _ => True := by
  refine (gives_mapM fun item member => inline_gives (writable item member)).bind ?_
  exact fun _ _ => gives_ok trivial

theorem tableRow_gives (columns : Nat) {cells : List (List Inline)}
    (writable : ∀ cell ∈ cells, Inline.AreWritable cell) :
    Gives (tableRow columns cells) fun _ => True := by
  have each : ∀ items ∈ cells, Gives (cell items) fun _ => True := fun items member =>
    (inlines_gives (writable items member)).bind fun _ _ => gives_ok trivial
  exact (gives_mapM each).bind fun _ _ => gives_ok trivial

theorem block_gives {block : Block} (writable : block.IsWritable) :
    Gives (Markdown.block block) fun _ => True := by
  cases block with
  | heading level content anchor => exact gives_ok trivial
  | paragraph items => exact inlines_gives writable
  | markdown content => exact gives_ok trivial
  | codeBlock code language => exact gives_ok trivial
  | bullets items =>
    exact (gives_mapM fun item member => inlines_gives (writable item member)).bind
      fun _ _ => gives_ok trivial
  | table headers rows =>
    exact (gives_mapM fun row member => tableRow_gives headers.length (writable row member)).bind
      fun _ _ => gives_ok trivial
  | unwritable cause => exact writable.elim

/-- The body of a page of writable blocks is written. -/
theorem body_gives {blocks : List Block} (writable : Block.AreWritable blocks) :
    Gives (body blocks) fun _ => True :=
  (gives_mapM fun block member => block_gives (writable block member)).bind
    fun _ _ => gives_ok trivial

end Markdown

theorem PageDocument.write_gives {page : PageDocument} (writable : Block.AreWritable page.blocks)
    (writer : PageWriter) : Gives (page.write writer) fun _ => True :=
  (Markdown.body_gives writable).bind fun _ _ => gives_ok trivial

end LuauReference
