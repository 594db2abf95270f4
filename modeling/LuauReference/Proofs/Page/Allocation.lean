/-
This file proves what a whole run of calls for anchors gives, where anchors are reserved between the
calls as well. A number behind an anchor can make the very anchor that another place asks for later,
so what is taken is told by the history of the run and not by the texts of one call: an anchor is
taken that was reserved before the run or in it, or that an earlier call was answered with. Counting
for a free number ends because only finitely many anchors are taken while each number makes another
one.
-/

import LuauReference.Proofs.Page.Anchor

namespace LuauReference

namespace Anchor

/-! ### The form of an anchor -/

/-- Whether a text can be an anchor: it is not empty and has letters and digits of the ASCII range,
underscores and hyphens only. -/
structure IsAnchor (anchor : Text) : Prop where
  present : anchor ≠ []
  characters : ∀ c ∈ anchor, c.isAlphanum = true ∨ c = '_' ∨ c = '-'

theorem isAllowed_iff {c : Char} :
    isAllowed c = true ↔ c.isAlphanum = true ∨ c = '_' ∨ c = '-' := by
  simp only [isAllowed, Text.isWordChar, Bool.or_eq_true, beq_iff_eq, or_assoc]

theorem isAllowed_of_mem_keep {afterBlank : Bool} {s : Text} {c : Char}
    (member : c ∈ keep afterBlank s) : isAllowed c = true := by
  fun_induction keep afterBlank s with
  | case1 => cases member
  | case2 _ _ _ inductionHypothesis => exact inductionHypothesis member
  | case3 _ _ _ _ _ inductionHypothesis =>
    rcases List.mem_cons.mp member with rfl | later
    · rfl
    · exact inductionHypothesis later
  | case4 _ _ _ _ allowed inductionHypothesis =>
    rcases List.mem_cons.mp member with rfl | later
    · exact allowed
    · exact inductionHypothesis later
  | case5 _ _ _ _ _ inductionHypothesis => exact inductionHypothesis member

theorem isAnchor_of_ofText? {s anchor : Text} (kept : ofText? s = some anchor) :
    IsAnchor anchor := by
  obtain ⟨present, same⟩ := Option.ite_none_left_eq_some.mp kept
  cases same
  exact ⟨fun empty => present (List.isEmpty_iff.mpr empty),
    fun _ member => isAllowed_iff.mp (isAllowed_of_mem_keep member)⟩

theorem IsAnchor.numbered {base : Text} (anchor : IsAnchor base) (number : Nat) :
    IsAnchor (numbered base number) where
  present := List.append_ne_nil_of_left_ne_nil anchor.present _
  characters := by
    refine List.forall_mem_append.mpr ⟨anchor.characters, List.forall_mem_cons.mpr ⟨?_, ?_⟩⟩
    · exact Or.inr (Or.inr rfl)
    · intro c member
      exact Or.inl (by rw [Char.isAlphanum, Text.isDigit_of_mem_ofNat member, Bool.or_true])

/-! ### Counting -/

/-- Whether counting on from a number for as long as numbers are taken ends, and at which number. -/
inductive CountsTo (taken : Nat → Prop) : Nat → Nat → Prop
  | here {number : Nat} (free : ¬ taken number) : CountsTo taken number number
  | further {number last : Nat} (busy : taken number) (rest : CountsTo taken (number + 1) last) :
      CountsTo taken number last

theorem countsTo_add {taken : Nat → Prop} {start distance : Nat}
    (busy : ∀ number, start ≤ number → number < start + distance → taken number)
    (free : ¬ taken (start + distance)) : CountsTo taken start (start + distance) := by
  induction distance generalizing start with
  | zero => exact .here free
  | succ distance inductionHypothesis =>
    have moved : start + (distance + 1) = start + 1 + distance := by omega
    rw [moved] at free busy ⊢
    exact .further (busy start (Nat.le_refl start) (by omega))
      (inductionHypothesis (fun number later => busy number (Nat.le_of_succ_le later)) free)

/-- Counting ends exactly at the least number that is not taken. -/
theorem countsTo_iff_isLeast {taken : Nat → Prop} {start last : Nat} :
    CountsTo taken start last ↔ IsLeast {number | start ≤ number ∧ ¬ taken number} last := by
  constructor
  · intro counted
    induction counted with
    | here free => exact ⟨⟨Nat.le_refl _, free⟩, fun _ later => later.1⟩
    | @further number last busy _ inductionHypothesis =>
      obtain ⟨⟨above, free⟩, least⟩ := inductionHypothesis
      refine ⟨⟨Nat.le_of_succ_le above, free⟩, ?_⟩
      rintro other ⟨later, unused⟩
      have differs : number ≠ other := fun same => unused (same ▸ busy)
      exact least ⟨Nat.lt_of_le_of_ne later differs, unused⟩
  · rintro ⟨⟨above, free⟩, least⟩
    obtain ⟨distance, rfl⟩ := Nat.exists_eq_add_of_le above
    refine countsTo_add (fun number later earlier => ?_) free
    by_contra unused
    exact Nat.not_lt.mpr (least ⟨later, unused⟩) earlier

/-! ### The answer to one call -/

/-- Whether an anchor is the one to hand out for what is wanted, in order of preference, when some
anchors are taken: the first that is free or, where all are taken, the first one with the least
number from two on that makes a free anchor. Counting up to that number ends. -/
inductive IsChosen (taken : Text → Prop) : List Text → Text → Prop
  | asIs {before after : List Text} {anchor : Text} (busy : ∀ other ∈ before, taken other)
      (free : ¬ taken anchor) : IsChosen taken (before ++ anchor :: after) anchor
  | counted {first : Text} {more : List Text} {number : Nat}
      (busy : ∀ other ∈ first :: more, taken other)
      (least : IsLeast {number | 2 ≤ number ∧ ¬ taken (numbered first number)} number)
      (ends : CountsTo (fun number => taken (numbered first number)) 2 number) :
      IsChosen taken (first :: more) (numbered first number)

theorem IsChosen.free {taken : Text → Prop} {wanted : List Text} {anchor : Text}
    (chosen : IsChosen taken wanted anchor) : ¬ taken anchor := by
  cases chosen with
  | asIs _ free => exact free
  | counted _ least _ => exact least.1.2

theorem IsChosen.isAnchor {taken : Text → Prop} {wanted : List Text} {anchor : Text}
    (chosen : IsChosen taken wanted anchor) (each : ∀ other ∈ wanted, IsAnchor other) :
    IsAnchor anchor := by
  cases chosen with
  | asIs => exact each anchor (by simp)
  | counted => exact (each _ List.mem_cons_self).numbered _

theorem IsChosen.congr {taken other : Text → Prop} (same : ∀ anchor, taken anchor ↔ other anchor)
    {wanted : List Text} {anchor : Text} (chosen : IsChosen taken wanted anchor) :
    IsChosen other wanted anchor :=
  funext (fun anchor => propext (same anchor)) ▸ chosen

/-- Leaving out what was there before does not change what is found first. -/
theorem find?_eraseDups {α : Type} [BEq α] [LawfulBEq α] (test : α → Bool) (items : List α) :
    items.eraseDups.find? test = items.find? test := by
  cases items with
  | nil => rw [List.eraseDups_nil]
  | cons first rest =>
    rw [List.eraseDups_cons, List.find?_cons, List.find?_cons]
    split
    · rfl
    · next failed =>
      rw [find?_eraseDups test (rest.filter _), List.find?_filter]
      refine congrArg (List.find? · rest) (funext fun other => ?_)
      cases passed : test other with
      | false => simp
      | true =>
        have differs : other ≠ first := by
          rintro rfl
          rw [failed] at passed
          cases passed
        simpa using differs
termination_by items.length
decreasing_by
  exact Nat.lt_succ_of_le (List.length_filter_le _ _)

/-- The anchors that texts leave, in the order of the texts. -/
def wantedFor (texts : List (Option Text)) : List Text :=
  texts.filterMap fun text => text.bind ofText?

theorem isAnchor_of_mem_wantedFor {texts : List (Option Text)} :
    ∀ anchor ∈ wantedFor texts, IsAnchor anchor := by
  intro anchor member
  obtain ⟨text, _, kept⟩ := List.mem_filterMap.mp member
  obtain ⟨s, _, kept⟩ := Option.bind_eq_some_iff.mp kept
  exact isAnchor_of_ofText? kept

/-- The preferred candidate is what is wanted most. -/
theorem exists_wantedFor_eq_cons {texts : List (Option Text)} {first : Text} {more : List Text}
    (listed : candidates texts = first :: more) : ∃ others, wantedFor texts = first :: others := by
  have candidate : (wantedFor texts).eraseDups = first :: more := listed
  cases whole : wantedFor texts with
  | nil =>
    rw [whole, List.eraseDups_nil] at candidate
    cases candidate
  | cons other others =>
    rw [whole, List.eraseDups_cons] at candidate
    rw [(List.cons.inj candidate).1]
    exact ⟨others, rfl⟩

/-- What is handed out is chosen among what the texts leave. -/
theorem Used.isChosen_allocate {used : Used} {texts : List (Option Text)} {anchor : Text}
    (given : (used.allocate texts).1 = some anchor) :
    IsChosen (· ∈ used.anchors) (wantedFor texts) anchor := by
  have erased (test : Text → Bool) : (candidates texts).find? test = (wantedFor texts).find? test :=
    find?_eraseDups test (wantedFor texts)
  unfold allocate at given
  split at given
  · cases given
  · next first more listed =>
    rw [← listed, erased] at given
    split at given
    · next found =>
      cases given
      obtain ⟨free, before, after, whole, busy⟩ := List.find?_eq_some_iff_append.mp found
      simp only [Bool.not_eq_true', ← Bool.not_eq_true, has_iff] at free busy
      rw [whole]
      exact .asIs (fun other member => not_not.mp (busy other member)) free
    · next missing =>
      cases given
      obtain ⟨number, least, same⟩ := used.isLeast_firstNumbered first
      obtain ⟨others, whole⟩ := exists_wantedFor_eq_cons listed
      simp only [List.find?_eq_none, Bool.not_eq_true', Bool.not_eq_false, has_iff] at missing
      rw [same, whole]
      exact .counted (whole ▸ missing) least (countsTo_iff_isLeast.mpr least)

/-! ### Runs of calls -/

/-- A call to what hands out the anchors of a page: an anchor is reserved, or one is asked for, for
a symbol or a heading or both. -/
inductive Call
  | reserve (anchor : Text)
  | allocate (symbol : Option Symbol) (heading : Option Text)

/-- The texts that an anchor is asked for with, in order of preference. -/
def askedWith (symbol : Option Symbol) (heading : Option Text) : List (Option Text) :=
  [symbol.map Symbol.name, symbol.map Symbol.qualified, heading]

/-- The answer to a call, and the used anchors after it. -/
def Used.answer (used : Used) : Call → Option Text × Used
  | .reserve anchor => (none, used.reserve anchor)
  | .allocate symbol heading => used.allocate (askedWith symbol heading)

/-- The answers to calls, one after the other. -/
def Used.answers (used : Used) : List Call → List (Option Text)
  | [] => []
  | call :: rest => (used.answer call).1 :: (used.answer call).2.answers rest

/-- The used anchors after calls. -/
def Used.after (used : Used) (calls : List Call) : Used :=
  calls.foldl (fun used call => (used.answer call).2) used

theorem Used.length_answers (used : Used) (calls : List Call) :
    (used.answers calls).length = calls.length := by
  induction calls generalizing used with
  | nil => rfl
  | cons call rest inductionHypothesis => exact congrArg (· + 1) (inductionHypothesis _)

theorem Used.answers_append (used : Used) (earlier later : List Call) :
    used.answers (earlier ++ later) =
      used.answers earlier ++ (used.after earlier).answers later := by
  induction earlier generalizing used with
  | nil => rfl
  | cons call rest inductionHypothesis =>
    exact congrArg ((used.answer call).1 :: ·) (inductionHypothesis _)

/-- What a call makes used: the anchor that it reserves or that it is answered with. -/
theorem Used.mem_answer {used : Used} {call : Call} {anchor : Text} :
    anchor ∈ (used.answer call).2.anchors ↔
      anchor ∈ used.anchors ∨ .reserve anchor = call ∨ some anchor = (used.answer call).1 := by
  cases call with
  | reserve other =>
    rw [answer, mem_reserve, Call.reserve.injEq]
    simp only [reduceCtorEq, or_false]
    exact or_comm
  | allocate symbol heading =>
    rw [answer, (used.allocate_hands _).after, Option.mem_toList]
    simp only [reduceCtorEq, false_or]
    rw [or_comm, eq_comm]

/-- What a run makes used: the anchors that are reserved in it, and those that it is answered
with. -/
theorem Used.mem_after {used : Used} {calls : List Call} {anchor : Text} :
    anchor ∈ (used.after calls).anchors ↔
      anchor ∈ used.anchors ∨ .reserve anchor ∈ calls ∨ some anchor ∈ used.answers calls := by
  induction calls generalizing used with
  | nil => simp [after, answers]
  | cons call rest inductionHypothesis =>
    have step : used.after (call :: rest) = (used.answer call).2.after rest := rfl
    rw [step, inductionHypothesis, mem_answer, answers, List.mem_cons, List.mem_cons]
    tauto

/-- Whether an anchor is taken after calls: it was reserved before them or by one of them, or one of
them was answered with it. -/
def IsTaken (reserved : List Text) (earlier : List Call) (anchor : Text) : Prop :=
  anchor ∈ reserved ∨ .reserve anchor ∈ earlier ∨ some anchor ∈ Used.answers ⟨reserved⟩ earlier

theorem mem_after_iff_isTaken {reserved : List Text} {earlier : List Call} {anchor : Text} :
    anchor ∈ (Used.after ⟨reserved⟩ earlier).anchors ↔ IsTaken reserved earlier anchor :=
  Used.mem_after

/-- Every call for an anchor in a run is answered. The answer is that there is none exactly where
nothing can be kept of the name, of the qualified name and of the heading; else it is an anchor that
was not taken, and the one to be chosen among what these texts leave. -/
theorem calls_give_fresh_anchors (reserved : List Text) (earlier later : List Call)
    (symbol : Option Symbol)
    (heading : Option Text) :
    ∃ answer,
      (Used.answers ⟨reserved⟩ (earlier ++ .allocate symbol heading :: later))[earlier.length]? =
        some answer ∧
      (answer = none ↔ ∀ text ∈ askedWith symbol heading, text.bind ofText? = none) ∧
      ∀ anchor ∈ answer, IsAnchor anchor ∧ ¬ IsTaken reserved earlier anchor ∧
        IsChosen (IsTaken reserved earlier) (wantedFor (askedWith symbol heading)) anchor := by
  let used : Used := Used.after ⟨reserved⟩ earlier
  refine ⟨(used.allocate (askedWith symbol heading)).1, ?_, Used.allocate_eq_none_iff, ?_⟩
  · rw [Used.answers_append, List.getElem?_append_right (by rw [Used.length_answers]),
      Used.length_answers, Nat.sub_self]
    rfl
  · intro anchor given
    have chosen : IsChosen (IsTaken reserved earlier)
        (wantedFor (askedWith symbol heading)) anchor :=
      (Used.isChosen_allocate given).congr fun _ => mem_after_iff_isTaken
    exact ⟨chosen.isAnchor isAnchor_of_mem_wantedFor, chosen.free, chosen⟩

/-- Calls that get in each other's way: of two headings that leave the same, the second one is given
the very anchor that a later one asks for, and the first number for that one is reserved. -/
def clashingCalls : List Call :=
  [.allocate none (some "open"), .allocate none (some "open!"), .reserve "open-2-2"]

theorem calls_give_fresh_anchors_clashing :
    (Used.answers ⟨["summary"]⟩ (clashingCalls ++ [.allocate none (some "open-2")]))[3]? =
        some (some "open-2-3".toList) ∧
      IsAnchor "open-2-3" ∧ ¬ IsTaken ["summary"] clashingCalls "open-2-3" ∧
      IsChosen (IsTaken ["summary"] clashingCalls) ["open-2"] "open-2-3" := by
  obtain ⟨answer, found, _, given⟩ :=
    calls_give_fresh_anchors ["summary"] clashingCalls [] none (some "open-2")
  have computed :
      (Used.answers ⟨["summary"]⟩ (clashingCalls ++ [.allocate none (some "open-2")]))[3]? =
      some (some "open-2-3".toList) := by decide
  cases found.symm.trans computed
  exact ⟨computed, given _ rfl⟩

end Anchor

end LuauReference
