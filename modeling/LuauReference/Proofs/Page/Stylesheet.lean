/-
This file proves that the rule in a stylesheet is replaced and not piled up. A mark has no line
feed, and a line feed stands between the text of the user and the rule, so no mark comes about where
the two meet. Inside of the rule only its marks have a slash. The first start mark of a stylesheet
that was written is therefore that of the rule, taking the rule out gives back what was put before
it, and writing another rule is the same as if the first had never been written.
-/

import LuauReference.Page.Stylesheet
import LuauReference.Proofs.Text.Blank
import LuauReference.Proofs.Text.Cut
import LuauReference.Proofs.Text.Numeral

namespace LuauReference

namespace Stylesheet

open Text

/-! ### What is taken out -/

/-- Whether a stylesheet has a start mark with an end mark somewhere behind it. -/
def HasRule (css : Text) : Prop :=
  ∃ front inside rest, css = front ++ startMark ++ inside ++ endMark ++ rest

/-- Whether a text is what is left of a stylesheet when its rules are taken out from left to right,
each from the first start mark to the first end mark behind it. -/
inductive IsWithoutRules : Text → Text → Prop
  | clean {css : Text} (none : ¬ HasRule css) : IsWithoutRules css css
  | dropped {css front tail inside rest left : Text} (starts : IsCut startMark css front tail)
      (ends : IsCut endMark tail inside rest) (more : IsWithoutRules rest left) :
      IsWithoutRules css (front ++ left)

theorem dropRules_of_after? {c : Char} {rest inside taken left : Text}
    (starts : after? startMark (c :: rest) = some inside)
    (ends : cut? endMark inside = some (taken, left)) :
    dropRules (c :: rest) = dropRules left := by
  rw [dropRules]
  split
  · next other found =>
    obtain rfl := Option.some.inj (starts.symm.trans found)
    split
    · next other tail found => rw [(Prod.mk.inj (Option.some.inj (ends.symm.trans found))).2]
    · next found => cases ends.symm.trans found
  · next found => cases starts.symm.trans found

theorem dropRules_cons {c : Char} {rest : Text}
    (open_ : ∀ inside, after? startMark (c :: rest) = some inside → cut? endMark inside = none) :
    dropRules (c :: rest) = c :: dropRules rest := by
  rw [dropRules]
  split
  · next inside starts =>
    split
    · next taken left ends => cases (open_ inside starts).symm.trans ends
    · rfl
  · rfl

/-- A stylesheet without a rule is kept as it is. -/
theorem dropRules_of_not_hasRule {css : Text} (none : ¬ HasRule css) : dropRules css = css := by
  induction css with
  | nil => rw [dropRules]
  | cons c rest inductionHypothesis =>
    have later : ¬ HasRule rest := by
      rintro ⟨front, inside, tail, rfl⟩
      exact none ⟨c :: front, inside, tail, rfl⟩
    rw [dropRules_cons fun inside starts => ?_, inductionHypothesis later]
    refine cut?_of_not_isInfix ?_
    rintro ⟨taken, tail, rfl⟩
    rw [after?_eq_some_iff] at starts
    exact none ⟨[], taken, tail, by simp [starts]⟩

/-- A rule is dropped up to the first end mark, and what stands in front of it is kept. -/
theorem dropRules_of_isCut {css front tail inside rest : Text}
    (starts : IsCut startMark css front tail)
    (ends : IsCut endMark tail inside rest) : dropRules css = front ++ dropRules rest := by
  induction front generalizing css with
  | nil =>
    obtain ⟨c, mark, opens⟩ := List.exists_cons_of_ne_nil (show startMark ≠ [] by decide)
    have here : css = c :: (mark ++ tail) := starts.whole.trans (by rw [opens]; rfl)
    have found : after? startMark (c :: (mark ++ tail)) = some tail :=
      after?_eq_some_iff.mpr (here ▸ starts.whole)
    rw [here, dropRules_of_after? found (cut?_of_isCut ends), List.nil_append]
  | cons c front inductionHypothesis =>
    obtain ⟨more, rfl⟩ : ∃ more, css = c :: more := ⟨_, starts.whole⟩
    have later : ∀ inner, after? startMark (c :: more) = some inner → cut? endMark inner = none :=
      fun inner begins => by
        have earlier := starts.first [] ⟨inner, (after?_eq_some_iff.mp begins).symm⟩
        exact absurd earlier (Nat.not_succ_le_zero _)
    rw [dropRules_cons later, inductionHypothesis starts.tail, List.cons_append]

/-- The first start mark of a stylesheet with a rule has an end mark behind it. -/
theorem HasRule.exists_cuts {css : Text} (present : HasRule css) :
    ∃ front tail inside rest, IsCut startMark css front tail ∧ IsCut endMark tail inside rest := by
  obtain ⟨before, within, after, whole⟩ := present
  have marked : startMark <:+: css := ⟨before, within ++ endMark ++ after, by simp [whole]⟩
  obtain ⟨front, tail, cut⟩ := exists_isCut marked
  -- What is behind this start mark is also behind the first one.
  have behind : within ++ endMark ++ after <:+ tail := by
    have last : within ++ endMark ++ after <:+ css := ⟨before ++ startMark, by simp [whole]⟩
    refine List.suffix_of_suffix_length_le last ⟨front ++ startMark, cut.whole.symm⟩ ?_
    have early := cut.first before ⟨within ++ endMark ++ after, by simp [whole]⟩
    have counted := congrArg List.length (whole.symm.trans cut.whole)
    simp only [List.length_append] at counted ⊢
    omega
  have closed : endMark <:+: tail := List.IsInfix.trans ⟨within, after, rfl⟩ behind.isInfix
  obtain ⟨inside, rest, ends⟩ := exists_isCut closed
  exact ⟨front, tail, inside, rest, cut, ends⟩

/-- Rules are taken out from left to right. -/
theorem isWithoutRules_dropRules (css : Text) : IsWithoutRules css (dropRules css) := by
  induction length : css.length using Nat.strong_induction_on generalizing css with
  | _ _ inductionHypothesis =>
    by_cases present : HasRule css
    · obtain ⟨front, tail, inside, rest, starts, ends⟩ := present.exists_cuts
      rw [dropRules_of_isCut starts ends]
      have shorter : rest.length < css.length := by
        rw [starts.whole, ends.whole]
        have mark : 0 < startMark.length := by decide
        simp only [List.length_append]
        omega
      exact .dropped starts ends (inductionHypothesis _ (length ▸ shorter) rest rfl)
    · rw [dropRules_of_not_hasRule present]
      exact .clean present

/-! ### The rule -/

/-- What stands in a rule between its marks, but for a line feed on each side. -/
def declarations (size : Int) : Text :=
  Text.join "\n"
    [".theme-code-block, pre code \x7b", "  tab-size: ".toList ++ Text.ofInt size ++ [';'],
      "  -moz-tab-size: ".toList ++ Text.ofInt size ++ [';'],
      "  -o-tab-size: ".toList ++ Text.ofInt size ++ [';'], "\x7d"]

/-- What stands in a rule behind its start mark. -/
def ruleTail (size : Int) : Text :=
  '\n' :: (declarations size ++ '\n' :: (endMark ++ ['\n']))

theorem rule_eq (size : Int) : rule size = startMark ++ ruleTail size := by
  simp [rule, ruleTail, declarations, Text.join]

theorem slash_notMem_ofInt (size : Int) : '/' ∉ Text.ofInt size := by
  have digits (n : Nat) : '/' ∉ Text.ofNat n := fun member =>
    absurd (isDigit_of_mem_ofNat member) (by decide)
  cases size with
  | ofNat n => exact digits n
  | negSucc n => exact List.not_mem_cons_of_ne_of_not_mem (by decide) (digits (n + 1))

/-- Only the marks of a rule have a slash. -/
theorem slash_notMem_declarations (size : Int) : '/' ∉ declarations size := by
  have width (front : Text) (plain : '/' ∉ front) : '/' ∉ front ++ Text.ofInt size ++ [';'] := by
    simp [plain, slash_notMem_ofInt]
  rw [declarations, Text.mem_join_iff (by decide)]
  rintro ⟨line, member, held⟩
  simp only [List.mem_cons, List.not_mem_nil, or_false] at member
  rcases member with rfl | rfl | rfl | rfl | rfl
  · exact absurd held (by decide)
  · exact width _ (by decide) held
  · exact width _ (by decide) held
  · exact width _ (by decide) held
  · exact absurd held (by decide)

/-- A mark that begins with a slash and has no line feed stands behind the declarations of a
rule. -/
theorem eq_declarations_of_isPrefix {mark front rest : Text} {size : Int}
    (slash : mark.head? = some '/')
    (oneLine : '\n' ∉ mark) (found : front ++ mark <+: declarations size ++ '\n' :: rest) :
    ∃ more, front = declarations size ++ '\n' :: more ∧ more ++ mark <+: rest := by
  refine (isPrefix_append_cons oneLine found).resolve_left fun inside => ?_
  exact slash_notMem_declarations size
    (inside.subset (List.mem_append_right front (List.mem_of_head? slash)))

/-- The start mark of a rule stands only at its head. -/
theorem eq_nil_of_isPrefix_rule {front : Text} {size : Int}
    (found : front ++ startMark <+: rule size) :
    front = [] := by
  have oneLine : '\n' ∉ startMark := by decide
  rw [rule_eq, ruleTail] at found
  rcases isPrefix_append_cons oneLine found with here | ⟨more, -, later⟩
  · have short := here.length_le
    rw [List.length_append] at short
    exact List.length_eq_zero_iff.mp (by omega)
  · obtain ⟨others, -, last⟩ := eq_declarations_of_isPrefix rfl oneLine later
    rcases isPrefix_append_cons oneLine last with ends | ⟨_, -, none⟩
    · have short := ends.length_le
      rw [List.length_append] at short
      exact absurd (Nat.le_trans (Nat.le_add_left _ _) short) (by decide)
    · exact absurd (List.append_eq_nil_iff.mp (List.prefix_nil.mp none)).2 (by decide)

/-- A rule ends with its end mark. -/
theorem isCut_ruleTail (size : Int) :
    IsCut endMark (ruleTail size) ('\n' :: (declarations size ++ ['\n'])) ['\n'] where
  whole := by simp [ruleTail]
  first front found := by
    have oneLine : '\n' ∉ endMark := by decide
    rw [ruleTail, ← List.nil_append ('\n' :: _)] at found
    rcases isPrefix_append_cons oneLine found with none | ⟨more, rfl, later⟩
    · exact absurd (List.append_eq_nil_iff.mp (List.prefix_nil.mp none)).2 (by decide)
    · obtain ⟨others, rfl, -⟩ := eq_declarations_of_isPrefix rfl oneLine later
      simp

/-! ### Writing the rule -/

/-- What a stylesheet keeps in front of its rule: what the user wrote, without blanks at the end and
with a line feed unless nothing is left. -/
def kept (user : Text) : Text :=
  if Text.trimEnd user = [] then [] else Text.trimEnd user ++ ['\n']

theorem withRule_eq (css : Text) (size : Int) :
    withRule css size = kept (dropRules css) ++ rule size := by
  rw [withRule, kept]
  simp only [List.isEmpty_iff]

theorem isInfix_of_hasRule {css : Text} : HasRule css → startMark <:+: css := by
  rintro ⟨front, inside, rest, whole⟩
  exact ⟨front, inside ++ endMark ++ rest, by simp [whole]⟩

theorem dropRules_lineFeed : dropRules ['\n'] = ['\n'] := by
  refine dropRules_of_not_hasRule fun present => ?_
  have first : '/' ∈ startMark := List.mem_of_head? rfl
  exact absurd ((isInfix_of_hasRule present).subset first) (by decide)

section

variable {user : Text} (clean : ¬ startMark <:+: user)

include clean

theorem not_isInfix_trimEnd : ¬ startMark <:+: trimEnd user := fun inside => by
  obtain ⟨blanks, -, whole⟩ := exists_trimEnd_append user
  have front : trimEnd user <+: user := ⟨blanks, whole.symm⟩
  exact clean (inside.trans front.isInfix)

/-- No start mark comes about in what is kept. -/
theorem not_isInfix_kept : ¬ startMark <:+: kept user := by
  have empty : ¬ startMark <:+: [] := fun inside => absurd (List.infix_nil.mp inside) (by decide)
  rw [kept]
  split
  · exact empty
  · rw [isInfix_append_cons_iff (by decide)]
    exact not_or.mpr ⟨not_isInfix_trimEnd clean, empty⟩

/-- The start mark of the rule is the only one. -/
theorem isPrefix_kept_append_iff {front : Text} {size : Int} :
    front ++ startMark <+: kept user ++ rule size ↔ front = kept user := by
  constructor
  · intro found
    rw [kept] at found ⊢
    split at found
    · next none =>
      rw [if_pos none]
      exact eq_nil_of_isPrefix_rule found
    · next some =>
      rw [if_neg some]
      rw [List.append_assoc, List.singleton_append] at found
      rcases isPrefix_append_cons (by decide) found with before | ⟨more, rfl, later⟩
      · have inside : startMark <:+: trimEnd user :=
          List.IsInfix.trans ⟨front, [], by simp⟩ before.isInfix
        exact absurd inside (not_isInfix_trimEnd clean)
      · rw [eq_nil_of_isPrefix_rule later]
  · rintro rfl
    exact ⟨ruleTail size, by rw [rule_eq, List.append_assoc]⟩

theorem isCut_kept (size : Int) : IsCut startMark (kept user ++ rule size) (kept user)
    (ruleTail size) where
  whole := by rw [rule_eq, List.append_assoc]
  first front found :=
    Nat.le_of_eq (congrArg List.length ((isPrefix_kept_append_iff clean).mp found)).symm

/-- Taking the rule out gives back what was put before it, with a line feed. -/
theorem dropRules_kept (size : Int) : dropRules (kept user ++ rule size) = kept user ++ ['\n'] := by
  rw [dropRules_of_isCut (isCut_kept clean size) (isCut_ruleTail size), dropRules_lineFeed]

end

/-- What is kept is kept again. -/
theorem kept_kept (user : Text) : kept (kept user ++ ['\n']) = kept user := by
  have blank : isBlankText ['\n'] = true := by decide
  have same : trimEnd (kept user ++ ['\n']) = trimEnd user := by
    rw [trimEnd_append blank, kept]
    split
    · next none => rw [none]; rfl
    · rw [trimEnd_append blank, trimEnd_trimEnd]
  rw [kept, same, ← kept]

/-! ### Writing one rule after another -/

section

variable {css : Text} (clean : ¬ startMark <:+: dropRules css)

include clean

/-- Taking the rules out of a stylesheet that was written leaves no start mark either. -/
theorem not_isInfix_dropRules_withRule (size : Int) :
    ¬ startMark <:+: dropRules (withRule css size) := by
  rw [withRule_eq, dropRules_kept clean, isInfix_append_cons_iff (by decide)]
  exact not_or.mpr
    ⟨not_isInfix_kept clean, fun inside => absurd (List.infix_nil.mp inside) (by decide)⟩

/-- A rule that is written replaces the one before it. -/
theorem withRule_withRule (first last : Int) :
    withRule (withRule css first) last = withRule css last := by
  rw [withRule_eq, withRule_eq css first, dropRules_kept clean, kept_kept, ← withRule_eq]

/-- After any number of rules, one more is the same as this one alone. -/
theorem withRule_foldl (sizes : List Int) (last : Int) :
    withRule (sizes.foldl withRule css) last = withRule css last := by
  induction sizes generalizing css with
  | nil => rfl
  | cons size sizes inductionHypothesis =>
    rw [List.foldl_cons, inductionHypothesis (not_isInfix_dropRules_withRule clean size),
      withRule_withRule clean]

end

/-- The rules for some widths, written one after another, leave the rule for the last width behind
what the user wrote: the stylesheet without its marked rules and without blanks at its end, in a
line of its own unless it is empty. The mark of the rule stands once. -/
theorem last_rule_stays {css : Text} (clean : ¬ startMark <:+: dropRules css) {sizes : List Int}
    (present : sizes ≠ []) :
    let user := trimEnd (dropRules css)
    let front := if user = [] then [] else user ++ ['\n']
    IsWithoutRules css (dropRules css) ∧
      sizes.foldl withRule css = withRule css (sizes.getLast present) ∧
      sizes.foldl withRule css = front ++ rule (sizes.getLast present) ∧
      ∀ before, before ++ startMark <+: sizes.foldl withRule css ↔ before = front := by
  have written : sizes.foldl withRule css = withRule css (sizes.getLast present) := by
    conv_lhs => rw [← List.dropLast_append_getLast present, List.foldl_append]
    exact withRule_foldl clean _ _
  refine ⟨isWithoutRules_dropRules css, written, written.trans (withRule_eq _ _), fun before => ?_⟩
  rw [written, withRule_eq]
  exact isPrefix_kept_append_iff clean

/-- A stylesheet of a user with an end mark and no rule. -/
def stray : Text := "a \x7b\x7d\n/* luaudoc-tab-size-end */"

/-- An old rule is replaced, and an end mark of the user in front of it stays. -/
theorem last_rule_stays_stray :
    ¬ startMark <:+: dropRules (stray ++ '\n' :: rule 4) ∧ [2, 8] ≠ [] ∧
      IsWithoutRules (stray ++ '\n' :: rule 4) (stray ++ ['\n', '\n']) ∧
      [2, 8].foldl withRule (stray ++ '\n' :: rule 4) = stray ++ '\n' :: rule 8 := by
  have trimmed : trimEnd stray = stray := by decide
  have front : kept stray = stray ++ ['\n'] := by rw [kept, trimmed, if_neg (by decide)]
  have whole (size : Int) : stray ++ '\n' :: rule size = kept stray ++ rule size := by
    rw [front, List.append_assoc, List.singleton_append]
  have dropped : dropRules (stray ++ '\n' :: rule 4) = stray ++ ['\n', '\n'] := by
    rw [whole, dropRules_kept (not_isInfix_of_cut? (by decide)), front, List.append_assoc,
      List.singleton_append]
  have clean : ¬ startMark <:+: dropRules (stray ++ '\n' :: rule 4) := by
    rw [dropped]
    exact not_isInfix_of_cut? (by decide)
  obtain ⟨without, -, written, -⟩ := last_rule_stays clean (List.cons_ne_nil 2 [8])
  have ends : trimEnd (stray ++ ['\n', '\n']) = stray := by decide
  rw [dropped] at without written
  rw [ends, if_neg (by decide), List.append_assoc, List.singleton_append] at written
  exact ⟨clean, List.cons_ne_nil 2 [8], without, written⟩

end Stylesheet

end LuauReference
