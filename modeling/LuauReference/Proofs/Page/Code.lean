/-
This file proves how far code can be trusted to stay between its marks. The fences of a block are
longer than every run of backticks in its code, so nothing in the code can close the block and the
code is read back line by line. The marks of a span do not grow with its content: they are one
backtick, or two where the content has any, and each run of just as many closes the span. A span is
therefore read back exactly when its content has no run of two backticks.

Both are read as Markdown is: a span ends at the first run of as many backticks as it began with,
and a block at the first line that is, but for blanks, a run of at least as many.
-/

import LuauReference.Page.Markdown
import LuauReference.Proofs.Text.Blank
import LuauReference.Proofs.Text.Run

namespace LuauReference

namespace Markdown

/-- A run of backticks. -/
def ticks (length : Nat) : Text :=
  List.replicate length '\x60'

@[simp] theorem length_ticks (length : Nat) : (ticks length).length = length :=
  List.length_replicate

theorem eq_of_mem_ticks {c : Char} {length : Nat} (member : c ∈ ticks length) : c = '\x60' :=
  List.eq_of_mem_replicate member

theorem getLast?_cons_iff {c : Char} (other : c ≠ '\x60') {rest : Text} :
    (c :: rest).getLast? = some '\x60' ↔ rest.getLast? = some '\x60' := by
  rw [← List.nil_append (c :: rest), Text.getLast?_append_cons_iff other]

/-- A run of backticks is told from what stands behind it. -/
theorem opening_ticks_append (length : Nat) {s : Text} (head : s.head? ≠ some '\x60') :
    (ticks length ++ s).takeWhile (· == '\x60') = ticks length ∧
      (ticks length ++ s).dropWhile (· == '\x60') = s := by
  have each : ∀ d ∈ ticks length, (d == '\x60') = true := fun d member =>
    beq_iff_eq.mpr (eq_of_mem_ticks member)
  rw [List.takeWhile_append_of_pos each, List.dropWhile_append_of_pos each]
  cases s with
  | nil => exact ⟨List.append_nil _, rfl⟩
  | cons c rest =>
    have stop : ¬ (c == '\x60') = true := fun same => head (congrArg some (beq_iff_eq.mp same))
    rw [List.takeWhile_cons_of_neg (p := (· == '\x60')) stop,
      List.dropWhile_cons_of_neg (p := (· == '\x60')) stop, List.append_nil]
    exact ⟨rfl, rfl⟩

/-! ### Reading spans -/

/-- The two sides of the first run of exactly so many backticks, given how many stand right before
the text. -/
def cutAtRun? (length pending : Nat) : Text → Option (Text × Text)
  | [] => if pending = length then some ([], []) else none
  | c :: rest =>
    if c = '\x60' then cutAtRun? length (pending + 1) rest
    else if pending = length then some ([], c :: rest)
    else (cutAtRun? length 0 rest).map fun (left, right) => (ticks pending ++ c :: left, right)

/-- The content of the span at the head of a text, and what follows the span. -/
def span? (s : Text) : Option (Text × Text) :=
  let length := (s.takeWhile (· == '\x60')).length
  if length = 0 then none else cutAtRun? length 0 (s.dropWhile (· == '\x60'))

section

variable {length pending : Nat} {content rest : Text}

theorem cutAtRun?_ticks {more : Nat} (counted : pending + more = length)
    (ends : rest.head? ≠ some '\x60') :
    cutAtRun? length pending (ticks more ++ rest) = some ([], rest) := by
  induction more generalizing pending with
  | zero =>
    rw [ticks, List.replicate_zero, List.nil_append]
    cases rest with
    | nil => exact if_pos counted
    | cons c rest =>
      have other : c ≠ '\x60' := fun same => ends (congrArg some same)
      rw [cutAtRun?, if_neg other, if_pos (by omega)]
  | succ more inductionHypothesis =>
    rw [ticks, List.replicate_succ, List.cons_append, cutAtRun?, if_pos rfl]
    exact inductionHypothesis (by omega)

/-- A content without a run of the length of its marks is read up to the mark that closes it. -/
theorem cutAtRun?_of_notMem (positive : 0 < length) (ends : rest.head? ≠ some '\x60')
    (closed : content.getLast? ≠ some '\x60') (fresh : content = [] → pending = 0)
    (other : length ∉ Text.runsFrom '\x60' pending content) :
    cutAtRun? length pending (content ++ ticks length ++ rest) =
      some (ticks pending ++ content, rest) := by
  induction content generalizing pending with
  | nil =>
    rw [fresh rfl, List.nil_append, cutAtRun?_ticks (Nat.zero_add _) ends]
    rfl
  | cons c content inductionHypothesis =>
    rw [List.cons_append, List.cons_append, cutAtRun?]
    by_cases tick : c = '\x60'
    · rw [tick, Text.runsFrom_cons_self] at other
      have later : content ≠ [] := by
        rintro rfl
        exact closed (congrArg some tick)
      have stillClosed : content.getLast? ≠ some '\x60' := by
        rwa [List.getLast?_cons_of_ne_nil later] at closed
      rw [if_pos tick, inductionHypothesis stillClosed (fun empty => absurd empty later) other,
        tick, ticks,
        ticks, List.replicate_succ', List.append_assoc, List.singleton_append]
    · rw [Text.mem_runsFrom_cons_of_ne tick, not_or] at other
      have unequal : pending ≠ length := fun same => other.1 ⟨positive, same.symm⟩
      have stillClosed : content.getLast? ≠ some '\x60' := fun same =>
        closed ((getLast?_cons_iff tick).mpr same)
      rw [if_neg tick, if_neg unequal, inductionHypothesis stillClosed (fun _ => rfl) other.2]
      rfl

/-- A content with a run of the length of its marks is read up to that run at the most. -/
theorem cutAtRun?_of_mem (closed : content.getLast? ≠ some '\x60')
    (fresh : content = [] → pending = 0)
    (found : length ∈ Text.runsFrom '\x60' pending content) (tail : Text) :
    ∃ left right, cutAtRun? length pending (content ++ tail) = some (left, right) ∧
      left.length < pending + content.length := by
  induction content generalizing pending with
  | nil =>
    rw [fresh rfl] at found
    cases found
  | cons c content inductionHypothesis =>
    rw [List.cons_append, cutAtRun?, List.length_cons]
    by_cases tick : c = '\x60'
    · rw [tick, Text.runsFrom_cons_self] at found
      have later : content ≠ [] := by
        rintro rfl
        exact closed (congrArg some tick)
      rw [List.getLast?_cons_of_ne_nil later] at closed
      obtain ⟨left, right, same, shorter⟩ :=
        inductionHypothesis closed (fun empty => absurd empty later) found
      exact ⟨left, right, by rw [if_pos tick, same], by omega⟩
    · rw [if_neg tick]
      by_cases ended : pending = length
      · exact ⟨[], c :: (content ++ tail), if_pos ended, Nat.succ_pos _⟩
      · have inside := ((Text.mem_runsFrom_cons_of_ne tick).mp found).resolve_left fun both =>
          ended both.2.symm
        have stillClosed : content.getLast? ≠ some '\x60' := fun same =>
          closed ((getLast?_cons_iff tick).mpr same)
        obtain ⟨left, right, same, shorter⟩ := inductionHypothesis stillClosed (fun _ => rfl) inside
        refine ⟨ticks pending ++ c :: left, right, by rw [if_neg ended, same]; rfl, ?_⟩
        rw [List.length_append, length_ticks, List.length_cons]
        omega

theorem span?_ticks_append (positive : 0 < length) (head : content.head? ≠ some '\x60')
    (present : content ≠ []) (tail : Text) :
    span? (ticks length ++ content ++ tail) = cutAtRun? length 0 (content ++ tail) := by
  have begins : (content ++ tail).head? ≠ some '\x60' := by
    rwa [List.head?_append_of_ne_nil _ present]
  obtain ⟨opening, inside⟩ := opening_ticks_append length begins
  rw [List.append_assoc, span?, opening, inside, length_ticks, if_neg (Nat.ne_of_gt positive)]

/-- A content that neither begins nor ends with a backtick is read back from between its marks
exactly when it has no run of their length. -/
theorem span?_eq_iff (positive : 0 < length) (present : content ≠ [])
    (head : content.head? ≠ some '\x60')
    (last : content.getLast? ≠ some '\x60') (ends : rest.head? ≠ some '\x60') :
    span? (ticks length ++ content ++ ticks length ++ rest) = some (content, rest) ↔
      length ∉ Text.runs '\x60' content := by
  have fresh : content = [] → 0 = 0 := fun _ => rfl
  rw [List.append_assoc _ (ticks length) rest, span?_ticks_append positive head present]
  constructor
  · intro read found
    obtain ⟨left, right, same, shorter⟩ := cutAtRun?_of_mem last fresh found (ticks length ++ rest)
    rw [read, Option.some.injEq, Prod.mk.injEq] at same
    rw [← same.1, Nat.zero_add] at shorter
    exact Nat.lt_irrefl _ shorter
  · intro other
    rw [← List.append_assoc]
    exact cutAtRun?_of_notMem positive ends last fresh other

end

/-! ### Writing spans -/

/-- Whether a span is written with its content, padded, between two runs of so many backticks, and
the padded content has no backtick at its ends. -/
structure IsSpan (content : Text) (length : Nat) (padding written : Text) : Prop where
  whole : written = ticks length ++ (padding ++ content ++ padding) ++ ticks length
  padded : padding = [] ∨ padding = [' ']
  head : (padding ++ content ++ padding).head? ≠ some '\x60'
  last : (padding ++ content ++ padding).getLast? ≠ some '\x60'

/-- The number of backticks on each side of a span. -/
def markLength (content : Text) : Nat :=
  if '\x60' ∈ content then 2 else 1

/-- What stands between a content and its marks. -/
def paddingOf (content : Text) : Text :=
  if content.head? = some '\x60' || content.getLast? = some '\x60' then [' '] else []

theorem codeSpan_eq (content : Text) :
    codeSpan content = ticks (markLength content) ++
      (paddingOf content ++ content ++ paddingOf content) ++
      ticks (markLength content) := by
  have marks : (if List.elem '\x60' content then ['\x60', '\x60'] else ['\x60']) =
      ticks (markLength content) := by
    rw [markLength]
    by_cases held : '\x60' ∈ content
    · rw [if_pos held, if_pos (List.elem_eq_true_of_mem held)]
      rfl
    · rw [if_neg held, if_neg (mt List.mem_of_elem_eq_true held)]
      rfl
  rw [codeSpan, marks, ← paddingOf]
  simp only [List.append_assoc]

theorem isSpan_codeSpan (content : Text) :
    IsSpan content (markLength content) (paddingOf content) (codeSpan content) := by
  by_cases ends : content.head? = some '\x60' ∨ content.getLast? = some '\x60'
  · have space : paddingOf content = [' '] := if_pos (by simpa using ends)
    rw [space]
    refine ⟨space ▸ codeSpan_eq content, Or.inr rfl, by simp, ?_⟩
    rw [List.getLast?_concat]
    decide
  · have none : paddingOf content = [] := if_neg (by simpa using ends)
    rw [not_or] at ends
    rw [none]
    exact ⟨none ▸ codeSpan_eq content, Or.inl rfl, by simpa using ends.1, by simpa using ends.2⟩

theorem runs_padded {padding : Text} (padded : padding = [] ∨ padding = [' ']) (content : Text) :
    Text.runs '\x60' (padding ++ content ++ padding) = Text.runs '\x60' content := by
  rcases padded with rfl | rfl
  · rw [List.nil_append, List.append_nil]
  · rw [List.append_assoc, List.singleton_append, Text.runs_cons_of_ne (by decide), Text.runs,
      Text.runsFrom_append_cons (by decide)]
    exact List.append_nil _

/-- Of the two lengths that marks can have, only two can be that of a run in the content. -/
theorem markLength_mem_runs_iff (content : Text) :
    markLength content ∈ Text.runs '\x60' content ↔ 2 ∈ Text.runs '\x60' content := by
  rw [markLength]
  split
  · rfl
  · next missing => simp [Text.runs_eq_nil_of_notMem missing]

/-- A span of code stands between two runs of backticks of the same length, one or two, and neither
begins nor ends with a backtick. No run inside has the length of the marks exactly when the code has
no run of two backticks, and exactly then the span is read back, whatever follows it. -/
theorem spans_are_delimited {content : Text} (present : content ≠ []) :
    ∃ length padding written, inline (.code content) = .ok written ∧
      IsSpan content length padding written ∧ length = (if '\x60' ∈ content then 2 else 1) ∧
      (¬ Text.HasRun '\x60' length (padding ++ content ++ padding) ↔
        ¬ Text.HasRun '\x60' 2 content) ∧
      ∀ rest : Text, rest.head? ≠ some '\x60' →
        (span? (written ++ rest) = some (padding ++ content ++ padding, rest) ↔
          ¬ Text.HasRun '\x60' 2 content) := by
  simp only [← Text.mem_runs_iff]
  have span := isSpan_codeSpan content
  have runs := runs_padded span.padded content
  have alone : markLength content ∉ Text.runs '\x60'
      (paddingOf content ++ content ++ paddingOf content) ↔
      2 ∉ Text.runs '\x60' content := by
    rw [runs, markLength_mem_runs_iff]
  refine ⟨markLength content, paddingOf content, codeSpan content, rfl, span, rfl, alone,
    fun rest ends => ?_⟩
  have positive : 0 < markLength content := by
    rw [markLength]
    split <;> decide
  have filled : paddingOf content ++ content ++ paddingOf content ≠ [] := by simp [present]
  rw [span.whole, ← alone]
  exact span?_eq_iff positive filled span.head span.last ends

/-- Code that begins with a backtick and holds a run of three is read back. -/
theorem spans_are_delimited_uneven :
    "`a```b".toList ≠ [] ∧ ∃ padding written, inline (.code "`a```b") = .ok written ∧
      IsSpan "`a```b" 2 padding written ∧
      span? (written ++ "; `c`".toList) =
        some (padding ++ "`a```b".toList ++ padding, "; `c`".toList) := by
  have present : "`a```b".toList ≠ [] := by decide
  obtain ⟨length, padding, written, wrote, span, same, -, read⟩ := spans_are_delimited present
  obtain rfl : length = 2 := same.trans (by decide)
  exact ⟨present, padding, written, wrote, span, (read "; `c`" (by decide)).mpr (by decide)⟩

/-- A run of two backticks in the code is as long as the marks, and closes the span. -/
theorem not_spans_are_delimited : ¬ ∀ content : Text, content ≠ [] → ∃ length padding written,
    inline (.code content) = .ok written ∧ IsSpan content length padding written ∧
      ¬ Text.HasRun '\x60' length (padding ++ content ++ padding) := by
  intro claim
  obtain ⟨length, padding, written, wrote, span, alone⟩ := claim "a``b" (by decide)
  have whole : "``a``b``".toList = ticks length ++ (padding ++ "a``b".toList ++ padding) ++
      ticks length :=
    (Except.ok.inj wrote).trans span.whole
  rcases span.padded with rfl | rfl
  · have two : length = 2 := by
      have counted := congrArg List.length whole
      simp [ticks] at counted
      omega
    rw [two] at alone
    exact alone (by decide)
  · have one : length = 1 := by
      have counted := congrArg List.length whole
      simp [ticks] at counted
      omega
    rw [one] at whole
    exact absurd whole (by decide)

/-! ### Fences -/

theorem ticks_isInfix_ticks_iff {n length : Nat} : ticks n <:+: ticks length ↔ n ≤ length := by
  constructor
  · intro inside
    simpa [ticks] using inside.length_le
  · intro small
    refine ⟨[], ticks (length - n), ?_⟩
    rw [List.nil_append, ticks, ticks, List.replicate_append_replicate,
      Nat.add_sub_cancel' small, ticks]

/-- The counter ends at the length of the longest run, also when it begins inside of one. -/
theorem ticks_isInfix_iff {n run : Nat} {code : Text} :
    ticks n <:+: ticks run ++ code ↔ n ≤ longestRun run code := by
  induction code generalizing run with
  | nil => rw [List.append_nil, longestRun, ticks_isInfix_ticks_iff]
  | cons c rest inductionHypothesis =>
    rw [longestRun]
    split
    · next same =>
      rw [← inductionHypothesis, same, ticks, ticks, ticks, List.replicate_succ', List.append_assoc,
        List.singleton_append]
    · next other =>
      have apart : c ∉ ticks n := fun member => other (eq_of_mem_ticks member)
      have later : ticks n <:+: rest ↔ n ≤ longestRun 0 rest := @inductionHypothesis 0
      rw [Text.isInfix_append_cons_iff apart, ticks_isInfix_ticks_iff, later]
      omega

/-- The number of backticks of the fence around a code. -/
def fenceLength (code : Text) : Nat :=
  max 3 (longestRun 0 code + 1)

theorem lt_fenceLength {n : Nat} {code : Text} (inside : ticks n <:+: code) :
    n < fenceLength code := by
  have small : n ≤ longestRun 0 code := ticks_isInfix_iff.mp inside
  rw [fenceLength]
  omega

/-! ### Reading blocks -/

/-- Whether a line ends a block with a fence of so many backticks: but for blanks, it is a run of at
least as many. -/
def closesBlock (length : Nat) (line : Text) : Bool :=
  decide (length ≤ (Text.trim line).length) && (Text.trim line).all (· == '\x60')

/-- The language and the code of the block at the head of a list of lines, and the lines behind the
block. -/
def codeBlock? : List Text → Option (Text × Text × List Text)
  | [] => none
  | first :: rest =>
    let length := (first.takeWhile (· == '\x60')).length
    if length < 3 then none
    else
      match rest.dropWhile (!closesBlock length ·) with
      | [] => none
      | _ :: more =>
        some (first.drop length, Text.join "\n" (rest.takeWhile (!closesBlock length ·)), more)

theorem trim_isInfix (s : Text) : Text.trim s <:+: s := by
  obtain ⟨blanks, _, whole⟩ := Text.exists_trimEnd_append (Text.trimStart s)
  have front : Text.trim s <+: Text.trimStart s := ⟨blanks, whole.symm⟩
  exact front.isInfix.trans (List.dropWhile_suffix _).isInfix

/-- A line that ends a block holds its fence. -/
theorem ticks_isInfix_of_closesBlock {length : Nat} {line : Text}
    (closes : closesBlock length line = true) :
    ticks length <:+: line := by
  rw [closesBlock, Bool.and_eq_true, decide_eq_true_iff] at closes
  have run : Text.trim line = ticks (Text.trim line).length :=
    List.eq_replicate_of_mem fun c member => beq_iff_eq.mp (List.all_eq_true.mp closes.2 c member)
  have inside : ticks length <:+: Text.trim line := by
    rw [run]
    exact ticks_isInfix_ticks_iff.mpr closes.1
  exact inside.trans (trim_isInfix line)

theorem closesBlock_fenceLength {code line : Text} (inside : line <:+: code) :
    closesBlock (fenceLength code) line = false := by
  by_contra closes
  have held := ticks_isInfix_of_closesBlock (Bool.not_eq_false _ ▸ closes)
  exact Nat.lt_irrefl _ (lt_fenceLength (held.trans inside))

theorem closesBlock_ticks (length : Nat) : closesBlock length (ticks length) = true := by
  have solid : ∀ c ∈ ticks length, Text.isBlank c = false := fun c member => by
    rw [eq_of_mem_ticks member]
    rfl
  rw [closesBlock, Text.trim_of_forall solid, length_ticks, decide_eq_true (Nat.le_refl length),
    Bool.true_and]
  exact List.all_eq_true.mpr fun c member => beq_iff_eq.mpr (eq_of_mem_ticks member)

/-- The lines of a block: its fence with the language, the lines of the code and the fence. -/
theorem pieces_fenced {length : Nat} {language : Text} (oneLine : '\n' ∉ language) (code : Text) :
    Text.pieces '\n' (ticks length ++ language ++ '\n' :: code ++ '\n' :: ticks length) =
      (ticks length ++ language) :: (Text.pieces '\n' code ++ [ticks length]) := by
  have noBreak : '\n' ∉ ticks length := fun member => absurd (eq_of_mem_ticks member) (by decide)
  have first : '\n' ∉ ticks length ++ language := by simp [noBreak, oneLine]
  rw [Text.pieces_append, Text.pieces_append_cons first, Text.pieces_of_notMem noBreak,
    List.cons_append]

/-- The lines of a block are read as its language and its code, whatever lines follow. -/
theorem codeBlock?_fenced {language code : Text} (plain : '\x60' ∉ language) (more : List Text) :
    codeBlock? ((ticks (fenceLength code) ++ language) ::
      (Text.pieces '\n' code ++ [ticks (fenceLength code)] ++ more)) =
        some (language, code, more) := by
  have head : language.head? ≠ some '\x60' := fun same => plain (List.mem_of_head? same)
  have wide : ¬ fenceLength code < 3 := by
    rw [fenceLength]
    omega
  have inner : ∀ line ∈ Text.pieces '\n' code, (!closesBlock (fenceLength code) line) = true :=
    fun line member => by rw [closesBlock_fenceLength (Text.isInfix_of_mem_pieces member)]; rfl
  have last : ¬ (!closesBlock (fenceLength code) (ticks (fenceLength code))) = true := by
    rw [closesBlock_ticks]
    decide
  rw [codeBlock?, (opening_ticks_append _ head).1, length_ticks, if_neg wide, List.append_assoc,
    List.dropWhile_append_of_pos inner, List.takeWhile_append_of_pos inner, List.singleton_append,
    List.dropWhile_cons_of_neg (p := fun line => !closesBlock (fenceLength code) line) last,
    List.takeWhile_cons_of_neg (p := fun line => !closesBlock (fenceLength code) line) last,
    List.append_nil, List.drop_append_of_le_length (by simp), List.drop_of_length_le (by simp)]
  exact congrArg (fun text => some (language, text, more)) (Text.join_pieces '\n' code)

/-- A block of code stands between two fences of at least three backticks, more than stand together
anywhere in the code. Hence no part of the code can end the block: the code is what is left without
the first and the last line, and the block is read as its language and its code, whatever lines
follow. -/
theorem code_stays_in_block (code : Text) {language : Text}
    (plain : '\x60' ∉ language ∧ '\n' ∉ language) :
    ∃ length written, block (.codeBlock code language) = .ok written ∧ 3 ≤ length ∧
      written = ticks length ++ language ++ '\n' :: code ++ '\n' :: ticks length ∧
      (∀ n, ticks n <:+: code → n < length) ∧
      (∀ line, line <:+: code → closesBlock length line = false) ∧
      Text.join "\n" ((Text.pieces '\n' written).drop 1).dropLast = code ∧
      ∀ more, codeBlock? (Text.pieces '\n' written ++ more) = some (language, code, more) := by
  have lines : Text.pieces '\n' (ticks (fenceLength code) ++ language ++ '\n' :: code ++
      '\n' :: ticks (fenceLength code)) = _ := pieces_fenced plain.2 code
  refine ⟨fenceLength code, _, rfl, Nat.le_max_left _ _, rfl, fun n => lt_fenceLength,
    fun line => closesBlock_fenceLength, ?_, fun more => ?_⟩
  · rw [fenceFor, ← fenceLength, ← ticks, lines, List.drop_one, List.tail_cons,
      List.dropLast_concat]
    exact Text.join_pieces '\n' code
  · rw [fenceFor, ← fenceLength, ← ticks, lines]
    exact codeBlock?_fenced plain.1 more

/-- Code with lines that are fences themselves. -/
theorem code_stays_in_block_nested :
    ('\x60' ∉ "md".toList ∧ '\n' ∉ "md".toList) ∧ ∃ written,
      block (.codeBlock "````\n  ``` \n````\n" "md") = .ok written ∧
        codeBlock? (Text.pieces '\n' written ++ ["after".toList]) =
          some ("md".toList, "````\n  ``` \n````\n".toList, ["after".toList]) := by
  have plain : '\x60' ∉ "md".toList ∧ '\n' ∉ "md".toList := by decide
  obtain ⟨length, written, wrote, -, -, -, -, -, read⟩ :=
    code_stays_in_block "````\n  ``` \n````\n" plain
  exact ⟨plain, written, wrote, read _⟩

end Markdown

end LuauReference
