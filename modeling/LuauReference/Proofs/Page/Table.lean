/-
This file proves that a table keeps its shape whatever its cells hold. A bar ends a cell unless a
backslash stands right before it. In a cell each bar is given a backslash of its own, and between a
cell and the bar behind it there is a space, so a backslash at the end of a cell never takes hold of
that bar: the bars that end cells are exactly those that the line is put together with. What a
backslash was put before is known again, since no cell begins with a bar once its bars are escaped.
-/

import LuauReference.Proofs.Page.Markdown
import LuauReference.Proofs.Text.Identifier
import Mathlib.Data.List.Forall2

namespace LuauReference

open Failure

namespace Markdown

/-! ### Reading a line of a table -/

/-- How many bars of a text have no backslash right before them, given whether a backslash stands
right before the text. -/
def bareBars (escaped : Bool) : Text → Nat
  | [] => 0
  | c :: rest => (if c = '|' ∧ escaped = false then 1 else 0) + bareBars (c == '\\') rest

/-- The pieces of a text between its bars with no backslash right before them, given whether a
backslash stands right before the text. -/
def betweenBars (escaped : Bool) : Text → List Text
  | [] => [[]]
  | c :: rest =>
    if c = '|' ∧ escaped = false then
      [] :: betweenBars false rest
    else
      match betweenBars (c == '\\') rest with
      | [] => [[c]]
      | piece :: more => (c :: piece) :: more

/-- A text without the space at its head and the space at its end. -/
def unpad? (s : Text) : Option Text :=
  (Text.after? " " s).bind (Text.before? " ")

/-- A text with a bar for each backslash that has a bar behind it. -/
def unescapeBars : Text → Text
  | '\\' :: '|' :: rest => '|' :: unescapeBars rest
  | c :: rest => c :: unescapeBars rest
  | [] => []

/-- The text of a cell of a line, counted from zero: what stands between two bars, without its
padding and with its bars as they were. -/
def cellAt? (line : Text) (index : Nat) : Option Text :=
  ((betweenBars false line)[index + 1]?.bind unpad?).map unescapeBars

/-- There is one more piece than there are bars. -/
theorem length_betweenBars (escaped : Bool) (s : Text) :
    (betweenBars escaped s).length = bareBars escaped s + 1 := by
  fun_induction betweenBars escaped s with
  | case1 => rfl
  | case2 escaped c rest bare inductionHypothesis =>
    obtain ⟨rfl, rfl⟩ := bare
    rw [bareBars, if_pos ⟨rfl, rfl⟩, List.length_cons, inductionHypothesis, Nat.add_comm 1]
    rfl
  | case3 escaped c rest other nothing inductionHypothesis =>
    rw [nothing] at inductionHypothesis
    cases inductionHypothesis
  | case4 escaped c rest other piece more found inductionHypothesis =>
    rw [bareBars, if_neg other, Nat.zero_add, ← inductionHypothesis, found]
    rfl

/-- A text without bare bars goes on up to the bar that stands behind a space after it. -/
theorem betweenBars_append {escaped : Bool} {s : Text} (sealed : bareBars escaped s = 0)
    (rest : Text) :
    betweenBars escaped (s ++ ' ' :: '|' :: rest) = (s ++ [' ']) :: betweenBars false rest := by
  induction s generalizing escaped with
  | nil => simp [betweenBars]
  | cons c s inductionHypothesis =>
    rw [bareBars, Nat.add_eq_zero_iff] at sealed
    have other : ¬ (c = '|' ∧ escaped = false) := fun bare => by
      rw [if_pos bare] at sealed
      exact absurd sealed.1 Nat.one_ne_zero
    rw [List.cons_append, betweenBars, if_neg other, inductionHypothesis sealed.2]
    rfl

/-- Whether a text fits into a cell of a line: it has neither a bare bar nor a line feed. -/
structure FitsCell (s : Text) : Prop where
  bars : bareBars false s = 0
  oneLine : '\n' ∉ s

theorem fitsCell_nil : FitsCell [] where
  bars := rfl
  oneLine := List.not_mem_nil

theorem bareBars_of_notMem {s : Text} (missing : '|' ∉ s) (escaped : Bool) :
    bareBars escaped s = 0 := by
  induction s generalizing escaped with
  | nil => rfl
  | cons c s inductionHypothesis =>
    obtain ⟨other, later⟩ := List.ne_and_not_mem_of_not_mem_cons missing
    rw [bareBars, if_neg fun bare => other bare.1.symm, inductionHypothesis later]

theorem fitsCell_of_notMem {s : Text} (plain : '|' ∉ s ∧ '\n' ∉ s) : FitsCell s where
  bars := bareBars_of_notMem plain.1 false
  oneLine := plain.2

/-! ### Putting a line together -/

/-- Each cell of a line has a space on either side and a bar behind it. -/
theorem tableLine_eq {cells : List Text} (present : cells ≠ []) :
    tableLine cells = '|' :: cells.flatMap fun cell => ' ' :: cell ++ [' ', '|'] := by
  obtain ⟨first, rest, rfl⟩ := List.exists_cons_of_ne_nil present
  suffices tail : ∀ first, Text.join " | " (first :: rest) ++ " |".toList =
      first ++ [' ', '|'] ++ rest.flatMap fun cell => ' ' :: cell ++ [' ', '|'] by
    rw [tableLine, List.append_assoc, tail]
    simp
  induction rest with
  | nil => exact fun first => (List.append_nil _).symm
  | cons second rest inductionHypothesis =>
    intro first
    rw [Text.join, List.append_assoc, inductionHypothesis (List.cons_ne_nil _ _) second]
    simp

theorem unpad?_padded (s : Text) : unpad? (' ' :: s ++ [' ']) = some s := by
  simp [unpad?, Text.after?, Text.before?]

section

variable {cells : List Text} (fits : ∀ cell ∈ cells, FitsCell cell)

include fits

theorem newline_notMem_tableLine : '\n' ∉ tableLine cells := by
  have inner : '\n' ∉ Text.join " | " cells := fun member => by
    obtain ⟨cell, inside, held⟩ := (Text.mem_join_iff (by decide)).mp member
    exact (fits cell inside).oneLine held
  rw [tableLine, List.mem_append, List.mem_append, not_or, not_or]
  exact ⟨⟨by decide, inner⟩, by decide⟩

/-- The pieces of a line between its bars are the padded cells, with nothing before and behind
them. -/
theorem betweenBars_tableLine (present : cells ≠ []) :
    betweenBars false (tableLine cells) = [] :: (cells.map fun cell => ' ' :: cell ++ [' ']) ++
      [[]] := by
  suffices tail : betweenBars false (cells.flatMap fun cell => ' ' :: cell ++ [' ', '|']) =
      (cells.map fun cell => ' ' :: cell ++ [' ']) ++ [[]] by
    rw [tableLine_eq present, betweenBars, if_pos ⟨rfl, rfl⟩, tail]
    rfl
  clear present
  induction cells with
  | nil => rfl
  | cons cell rest inductionHypothesis =>
    obtain ⟨own, others⟩ := List.forall_mem_cons.mp fits
    have padded : bareBars false (' ' :: cell) = 0 := by simpa [bareBars] using own.bars
    have cut := betweenBars_append padded (rest.flatMap fun cell => ' ' :: cell ++ [' ', '|'])
    rw [inductionHypothesis others] at cut
    simpa using cut

theorem bareBars_tableLine (present : cells ≠ []) :
    bareBars false (tableLine cells) = cells.length + 1 := by
  have count := length_betweenBars false (tableLine cells)
  rw [betweenBars_tableLine fits present] at count
  simpa using count.symm

/-- Each cell of a line is read with its bars as they were. -/
theorem cellAt?_tableLine {index : Nat} {cell : Text} (found : cells[index]? = some cell) :
    cellAt? (tableLine cells) index = some (unescapeBars cell) := by
  have inside := (List.getElem?_eq_some_iff.mp found).1
  rw [cellAt?, betweenBars_tableLine fits (List.ne_nil_of_mem (List.mem_of_getElem? found)),
    List.cons_append, List.getElem?_cons_succ, List.getElem?_append_left (by simpa using inside),
    List.getElem?_map, found, Option.map_some, Option.bind_some, unpad?_padded, Option.map_some]

end

/-! ### The text of a cell -/

/-- A text as a cell shows it. -/
def cellText (s : Text) : Text :=
  Text.substitute '\n' "<br />" (Text.substitute '|' "\\|" s)

theorem cell_eq (items : List Inline) : cell items = (inlines items).map cellText := by
  rw [cell]
  cases inlines items <;> rfl

theorem cellText_cons (c : Char) (s : Text) :
    cellText (c :: s) =
      (if c = '|' then ['\\', '|'] else if c = '\n' then "<br />".toList else [c]) ++
        cellText s := by
  rw [cellText, Text.substitute, Text.substitute, List.flatMap_cons, List.flatMap_append]
  split
  · rfl
  · rw [List.flatMap_singleton]
    rfl

theorem bareBars_cellText (escaped : Bool) (s : Text) : bareBars escaped (cellText s) = 0 := by
  induction s generalizing escaped with
  | nil => rfl
  | cons c s inductionHypothesis =>
    rw [cellText_cons]
    split
    · simp [bareBars, inductionHypothesis]
    · split
      · simp [bareBars, inductionHypothesis]
      · next other _ => simp [bareBars, other, inductionHypothesis]

theorem newline_notMem_cellText (s : Text) : '\n' ∉ cellText s := by
  induction s with
  | nil => exact List.not_mem_nil
  | cons c s inductionHypothesis =>
    rw [cellText_cons, List.mem_append, not_or]
    refine ⟨?_, inductionHypothesis⟩
    split
    · decide
    · split
      · decide
      · next other => exact fun same => other (List.mem_singleton.mp same).symm

theorem fitsCell_cellText (s : Text) : FitsCell (cellText s) where
  bars := bareBars_cellText false s
  oneLine := newline_notMem_cellText s

/-- A cell does not begin with a bar, so a backslash before it stays alone. -/
theorem head?_cellText (s : Text) : (cellText s).head? ≠ some '|' := by
  cases s with
  | nil => exact (Option.some_ne_none _).symm
  | cons c s =>
    rw [cellText_cons]
    split
    · exact fun same => absurd (Option.some.inj same) (by decide)
    · split
      · exact fun same => absurd (Option.some.inj same) (by decide)
      · next other _ => exact fun same => other (Option.some.inj same)

theorem unescapeBars_cons {c : Char} {s : Text} (apart : c = '\\' → s.head? ≠ some '|') :
    unescapeBars (c :: s) = c :: unescapeBars s := by
  rw [unescapeBars]
  rintro rest rfl rfl
  exact apart rfl rfl

/-- The bars of a cell are read as they were. -/
theorem unescapeBars_cellText (s : Text) :
    unescapeBars (cellText s) = Text.substitute '\n' "<br />" s := by
  induction s with
  | nil => rfl
  | cons c s inductionHypothesis =>
    rw [cellText_cons, Text.substitute, List.flatMap_cons, ← Text.substitute]
    split
    · next same =>
      rw [same, ← inductionHypothesis]
      rfl
    · split
      · rw [← inductionHypothesis]
        rfl
      · rw [List.singleton_append, unescapeBars_cons fun _ => head?_cellText s, inductionHypothesis]
        rfl

/-! ### Rows -/

/-- Whether a line shows the cells of a row in a table with the given number of columns: it has one
bar more than cells, each cell reads as the text of its nodes with breaks for line feeds, and the
cells that the row lacks are empty. -/
structure IsRowLine (columns : Nat) (row : List (List Inline)) (line : Text) : Prop where
  bars : bareBars false line = max row.length columns + 1
  cells : ∀ index items, row[index]? = some items → ∃ shown, inlines items = .ok shown ∧
    cellAt? line index = some (Text.substitute '\n' "<br />" shown)
  filled : ∀ index, row.length ≤ index → index < columns → cellAt? line index = some []

/-- The cells of a row with the given texts, filled up to the number of columns. -/
def filledCells (columns : Nat) (texts : List Text) : List Text :=
  texts.map cellText ++ List.replicate (columns - texts.length) []

theorem length_filledCells (columns : Nat) (texts : List Text) :
    (filledCells columns texts).length = max texts.length columns := by
  rw [filledCells, List.length_append, List.length_map, List.length_replicate]
  omega

theorem fitsCell_of_mem_filledCells {columns : Nat} {texts : List Text} :
    ∀ cell ∈ filledCells columns texts, FitsCell cell := by
  refine List.forall_mem_append.mpr ⟨fun cell member => ?_, fun cell member => ?_⟩
  · obtain ⟨text, _, rfl⟩ := List.mem_map.mp member
    exact fitsCell_cellText text
  · rw [List.eq_of_mem_replicate member]
    exact fitsCell_nil

/-- A row of writable cells is written as a line. -/
theorem tableRow_eq {row : List (List Inline)} {textOf : List Inline → Text}
    (written : ∀ items ∈ row, inlines items = .ok (textOf items)) (columns : Nat) :
    tableRow columns row = .ok (tableLine (filledCells columns (row.map textOf))) := by
  have texts : row.mapM cell = .ok (row.map (cellText ∘ textOf)) :=
    mapM_eq_ok fun items inside => by rw [cell_eq, written items inside]; rfl
  rw [tableRow, texts, filledCells, List.map_map, List.length_map]
  simp only [bind, pure, Except.bind, Except.pure, List.length_map]

theorem isRowLine_tableLine {columns : Nat} (wide : 0 < columns) {row : List (List Inline)}
    {textOf : List Inline → Text} (written : ∀ items ∈ row, inlines items = .ok (textOf items)) :
    IsRowLine columns row (tableLine (filledCells columns (row.map textOf))) := by
  have count : (filledCells columns (row.map textOf)).length = max row.length columns := by
    rw [length_filledCells, List.length_map]
  have present : filledCells columns (row.map textOf) ≠ [] :=
    List.ne_nil_of_length_pos (by omega)
  refine ⟨?_, fun index items found => ⟨textOf items, ?_, ?_⟩, fun index behind before => ?_⟩
  · rw [bareBars_tableLine fitsCell_of_mem_filledCells present, count]
  · exact written items (List.mem_of_getElem? found)
  · have inside := (List.getElem?_eq_some_iff.mp found).1
    have place : (filledCells columns (row.map textOf))[index]? =
        some (cellText (textOf items)) := by
      rw [filledCells, List.getElem?_append_left (by simpa using inside), List.getElem?_map,
        List.getElem?_map, found]
      rfl
    rw [cellAt?_tableLine fitsCell_of_mem_filledCells place, unescapeBars_cellText]
  · have place : (filledCells columns (row.map textOf))[index]? = some [] := by
      rw [filledCells, List.getElem?_append_right (by simpa using behind), List.getElem?_replicate,
        if_pos]
      simp only [List.length_map]
      omega
    rw [cellAt?_tableLine fitsCell_of_mem_filledCells place]
    rfl

/-! ### Tables -/

/-- A table with headers that fit is written, whatever its cells hold. It has two lines above those
of its rows, with one bar more than there are headers, and the line of each row shows the cells of
the row. -/
theorem tables_keep_shape {headers : List Text} {rows : List (List (List Inline))}
    (present : headers ≠ []) (plain : ∀ header ∈ headers, '|' ∉ header ∧ '\n' ∉ header)
    (writable : (Block.table headers rows).IsWritable) :
    ∃ text, block (.table headers rows) = .ok text ∧
      (Text.pieces '\n' text).length = 2 + rows.length ∧
      (∀ line ∈ (Text.pieces '\n' text).take 2, bareBars false line = headers.length + 1) ∧
      List.Forall₂ (IsRowLine headers.length) rows ((Text.pieces '\n' text).drop 2) := by
  have texts : ∀ items, Inline.AreWritable items → ∃ text, inlines items = .ok text :=
    fun items each => by
      obtain ⟨text, same, _⟩ := inlines_gives each
      exact ⟨text, same⟩
  choose! textOf written using texts
  let lineOf (row : List (List Inline)) := tableLine (filledCells headers.length (row.map textOf))
  have rowLines : rows.mapM (tableRow headers.length) = .ok (rows.map lineOf) :=
    mapM_eq_ok fun row listed =>
      tableRow_eq (fun items inside => written items (writable row listed items inside))
        headers.length
  let rule : List Text := headers.map fun _ => "---".toList
  have fitsHeaders : ∀ header ∈ headers, FitsCell header := fun header member =>
    fitsCell_of_notMem (plain header member)
  have fitsRule : ∀ mark ∈ rule, FitsCell mark := fun mark member => by
    obtain ⟨_, _, rfl⟩ := List.mem_map.mp member
    exact fitsCell_of_notMem (by decide)
  let lines := tableLine headers :: tableLine rule :: rows.map lineOf
  have unbroken : ∀ line ∈ lines, '\n' ∉ line := by
    refine List.forall_mem_cons.mpr ⟨newline_notMem_tableLine fitsHeaders,
      List.forall_mem_cons.mpr ⟨newline_notMem_tableLine fitsRule, fun line member => ?_⟩⟩
    obtain ⟨row, _, rfl⟩ := List.mem_map.mp member
    exact newline_notMem_tableLine fitsCell_of_mem_filledCells
  have cut : Text.pieces '\n' (Text.join "\n" lines) = lines :=
    Text.pieces_join (List.cons_ne_nil _ _) unbroken
  refine ⟨Text.join "\n" lines, ?_, ?_, ?_, ?_⟩
  · rw [block, rowLines]
    rfl
  · rw [cut, List.length_cons, List.length_cons, List.length_map, Nat.add_comm 2]
  · have ruleBars : bareBars false (tableLine rule) = headers.length + 1 := by
      rw [bareBars_tableLine fitsRule (mt List.map_eq_nil_iff.mp present), List.length_map]
    rw [cut]
    exact List.forall_mem_cons.mpr ⟨bareBars_tableLine fitsHeaders present,
      List.forall_mem_singleton.mpr ruleBars⟩
  · rw [cut]
    refine List.forall₂_map_right_iff.mpr (List.forall₂_same.mpr fun row listed => ?_)
    exact isRowLine_tableLine (List.length_pos_of_ne_nil present) fun items inside =>
      written items (writable row listed items inside)

/-- A table whose rows try to break its shape: a bar behind a backslash, a backslash at the end of a
cell, line feeds and bars in the address of a link, a row with a cell too many and rows with too
few. -/
def crowdedTable : Block :=
  .table ["Name", "Type"] [
    [[.code "a|b"], [.text "no\\|\nyes\\"], [.link "c" "/x|\ny"]],
    [[.strong "\\"]], []]

theorem tables_keep_shape_crowded :
    crowdedTable.IsWritable ∧ ∃ text, block crowdedTable = .ok text ∧
      (Text.pieces '\n' text).length = 5 ∧ ∃ line, (Text.pieces '\n' text)[2]? = some line ∧
        bareBars false line = 4 ∧ cellAt? line 1 = some "no\\|<br />yes\\".toList := by
  have plain : ∀ header ∈ ["Name".toList, "Type".toList], '|' ∉ header ∧ '\n' ∉ header := by decide
  have writable : crowdedTable.IsWritable := by
    simp [crowdedTable, Block.IsWritable, Inline.AreWritable, Inline.IsWritable]
  obtain ⟨text, written, count, _, rows⟩ := tables_keep_shape (by decide) plain writable
  cases shape : (Text.pieces '\n' text).drop 2 with
  | nil => rw [shape] at rows; cases rows
  | cons line rest =>
    rw [shape] at rows
    obtain ⟨first, _⟩ := List.forall₂_cons.mp rows
    obtain ⟨shown, same, read⟩ := first.cells 1 _ rfl
    refine ⟨writable, text, written, count, line, ?_, first.bars, ?_⟩
    · have place := congrArg List.head? shape
      rwa [List.head?_drop] at place
    · obtain rfl := Except.ok.inj same
      exact read

end Markdown

end LuauReference
