/-
This file proves where the names of classes and members lead. The name of a class leads to its page
and the qualified name of a member to its place on the page, as long as a reference is read the way
it was written: no word in front of it is dropped, the class before the first mark is the one that
was meant, and the member is the first one with its name on the page. Each of the three can go wrong
with names that are well formed, which is shown on one small reference.
-/

import LuauReference.Page.Link
import LuauReference.Proofs.Page.Plan
import LuauReference.Proofs.Text.Identifier

namespace LuauReference

namespace Links

/-! ### Reading a reference -/

/-- Whether a reference has no word in front of it that would be dropped. -/
def HasNoHead (reference : Text) : Prop :=
  ∀ head ∈ legacyHeads, ¬ head <+: reference

instance (reference : Text) : Decidable (HasNoHead reference) :=
  inferInstanceAs (Decidable (∀ head ∈ legacyHeads, ¬ head <+: reference))

theorem dropLegacyHead_of_hasNoHead {reference : Text} (whole : HasNoHead reference) :
    dropLegacyHead reference = reference := by
  have none : (legacyHeads.findSome? fun head => Text.after? head reference) = none :=
    List.findSome?_eq_none_iff.mpr fun head member =>
      Text.after?_of_not_isPrefix (whole head member)
  rw [dropLegacyHead, none, Option.getD_none]

/-- Whether a character stands between the name of a class and that of a member. -/
def IsMark (c : Char) : Prop :=
  c = '.' ∨ c = ':'

theorem isWordChar_of_isMark {mark : Char} (divides : IsMark mark) :
    Text.isWordChar mark = false := by
  rcases divides with rfl | rfl <;> decide

/-- An identifier, a mark and an identifier are read as a class and a member. -/
theorem memberReference?_append {name member : Text} (isName : Text.isIdentifier name = true)
    (isMember : Text.isIdentifier member = true) {mark : Char} (divides : IsMark mark) :
    memberReference? (name ++ mark :: member) = some (name, member) := by
  cases member with
  | nil => cases isMember
  | cons c rest =>
    have oneLine : List.elem '\n' (c :: rest) = false := by
      rw [List.elem_eq_mem, decide_eq_false_iff_not]
      exact Text.notMem_of_isIdentifier isMember (by decide)
    have isMark : (mark = ':' || mark = '.') = true := by
      rcases divides with rfl | rfl <;> decide
    rw [memberReference?, Text.identifier?_append isName (isWordChar_of_isMark divides)]
    dsimp only
    rw [isMark, oneLine]
    rfl

/-- A class and a member are read from an identifier with a mark after it. -/
theorem parts_of_memberReference? {reference name member : Text}
    (found : memberReference? reference = some (name, member)) :
    Text.isIdentifier name = true ∧ ∃ mark, IsMark mark ∧ reference = name ++ mark :: member := by
  rw [memberReference?] at found
  split at found
  · next other mark c rest read =>
    obtain ⟨isName, same⟩ := Text.isIdentifier_of_identifier? read
    split at found
    · next divides =>
      obtain ⟨rfl, rfl⟩ := Prod.mk.inj (Option.some.inj found)
      simp only [Bool.and_eq_true, Bool.or_eq_true, decide_eq_true_eq] at divides
      exact ⟨isName, mark, divides.1.symm, same⟩
    · cases found
  · cases found

/-! ### Finding a page -/

theorem mem_of_page? {links : Links} {name : Text} {page : Page.ClassPage}
    (found : links.page? name = some page) : page ∈ links.pages ∧ page.name = name := by
  rw [page?] at found
  exact ⟨List.mem_of_find?_eq_some found, by simpa using List.find?_some found⟩

theorem exists_of_knows {links : Links} {name : Text} (known : links.knows name = true) :
    ∃ page ∈ links.pages, page.name = name := by
  obtain ⟨page, found⟩ := Option.isSome_iff_exists.mp known
  exact ⟨page, mem_of_page? found⟩

section

variable {pages : List Page.ClassPage} {route : Text}

theorem page?_of_mem (distinct : (pages.map Page.ClassPage.name).Nodup) {page : Page.ClassPage}
    (inside : page ∈ pages) : (ofPages pages route).page? page.name = some page := by
  have isSome : ((ofPages pages route).page? page.name).isSome :=
    List.find?_isSome.mpr ⟨page, inside, decide_eq_true rfl⟩
  obtain ⟨other, found⟩ := Option.isSome_iff_exists.mp isSome
  obtain ⟨held, named⟩ := mem_of_page? found
  rw [found, List.inj_on_of_nodup_map distinct held inside named]

theorem classHref?_of_mem (distinct : (pages.map Page.ClassPage.name).Nodup) {page : Page.ClassPage}
    (inside : page ∈ pages) :
    (ofPages pages route).classHref? page.name = some ((ofPages pages route).address page) := by
  rw [classHref?, page?_of_mem distinct inside, Option.map_some]

/-- A name is looked up as that of a class unless a class stands before its first dot. -/
theorem resolve?_of_isDotted {name : Text} (dotted : Text.isDotted name = true)
    (whole : HasNoHead name)
    (alone : ∀ page ∈ pages, Text.isIdentifier page.name = true → ¬ page.name ++ ['.'] <+: name) :
    (ofPages pages route).resolve? name = (ofPages pages route).classHref? name := by
  rw [resolve?, Text.trim_of_isDotted dotted, dropLegacyHead_of_hasNoHead whole]
  split
  · next first member read =>
    obtain ⟨isName, mark, divides, same⟩ := parts_of_memberReference? read
    have held : mark ∈ name := same ▸ List.mem_append_right first List.mem_cons_self
    obtain rfl : mark = '.' := by
      refine divides.resolve_right ?_
      rintro rfl
      exact Text.notMem_of_isDotted dotted (by decide) (by decide) held
    refine if_neg fun known => ?_
    obtain ⟨page, inside, rfl⟩ := exists_of_knows known
    exact alone page inside isName ⟨member, by rw [same, List.append_assoc]; rfl⟩
  · rfl

end

/-! ### Finding a member -/

theorem anchorFor?_of_first {page : Page.ClassPage} {before after : List Page.Member}
    {member : Page.Member} (listed : page.members = before ++ member :: after)
    (first : ∀ earlier ∈ before, earlier.symbol.name ≠ member.symbol.name) :
    page.anchorFor? member.symbol.name = member.anchor := by
  have passed : before.find? (fun other => other.symbol.name = member.symbol.name) = none :=
    List.find?_eq_none.mpr fun earlier inside same => first earlier inside (of_decide_eq_true same)
  have found : (member :: after).find? (fun other => other.symbol.name = member.symbol.name) =
      some member :=
    List.find?_cons_of_pos (decide_eq_true rfl)
  rw [Page.ClassPage.anchorFor?, listed, List.find?_append, passed, Option.none_or, found,
    Option.bind_some]

theorem memberHref?_of_anchorFor? {links : Links} {page : Page.ClassPage}
    {name member anchor : Text}
    (found : links.page? name = some page) (isMember : Text.isIdentifier member = true)
    (anchored : page.anchorFor? member = some anchor) :
    links.memberHref? name member = some (links.address page ++ '#' :: anchor) := by
  have uncut : Text.cut? "(" member = none :=
    Text.cut?_of_notMem (Text.notMem_of_isIdentifier isMember (by decide))
  have cleaned : Anchor.dropCall (Text.trim member) = member := by
    rw [Text.trim_of_isIdentifier isMember, Anchor.dropCall, uncut]
  rw [memberHref?, found, Option.map_some, cleaned]
  dsimp only
  rw [anchored]
  rfl

/-- The name of a known class, a mark and the name of a member are looked up as a member of the
class. -/
theorem resolve?_append {links : Links} {name member : Text} {mark : Char}
    (isName : Text.isIdentifier name = true) (isMember : Text.isIdentifier member = true)
    (divides : IsMark mark) (whole : HasNoHead (name ++ mark :: member))
    (known : links.knows name = true) :
    links.resolve? (name ++ mark :: member) = links.memberHref? name member := by
  have trimmed : Text.trim (name ++ mark :: member) = name ++ mark :: member := by
    refine Text.trim_of_forall (List.forall_mem_append.mpr ⟨?_, List.forall_mem_cons.mpr ⟨?_, ?_⟩⟩)
    · exact fun c inside => Text.isBlank_of_isWordChar (Text.isWordChar_of_mem isName c inside)
    · rcases divides with rfl | rfl <;> decide
    · exact fun c inside => Text.isBlank_of_isWordChar (Text.isWordChar_of_mem isMember c inside)
  rw [resolve?, trimmed, dropLegacyHead_of_hasNoHead whole,
    memberReference?_append isName isMember divides]
  exact if_pos known

end Links

namespace Page

/-! ### Well-named references -/

/-- Whether the names of a reference are well formed: the classes have distinct names made of
identifiers with dots between them, and the members have identifiers for names and distinct
qualified names that begin with the name of their class. -/
structure IsWellNamed (test : Symbol → Bool) (includePrivate : Bool) (reference : Reference) :
    Prop where
  classes : (((shownSymbols includePrivate reference).filter fun symbol =>
    symbol.kind = ("class" : Text)).map Symbol.name).Nodup
  dotted : ∀ symbol ∈ shownSymbols includePrivate reference,
    symbol.kind = "class" → Text.isDotted symbol.name = true
  members : ∀ page ∈ plan test includePrivate reference, ∀ member ∈ page.members,
    Text.isIdentifier member.symbol.name = true ∧
      (member.symbol.qualified = page.name ++ '.' :: member.symbol.name ∨
        member.symbol.qualified = page.name ++ ':' :: member.symbol.name)
  distinct : (((plan test includePrivate reference).flatMap ClassPage.members).map fun member =>
    member.symbol.qualified).Nodup

section

variable {test : Symbol → Bool} {includePrivate : Bool} {reference : Reference} {page : ClassPage}

theorem IsWellNamed.isDotted (wellNamed : IsWellNamed test includePrivate reference)
    (inside : page ∈ plan test includePrivate reference) : Text.isDotted page.name = true := by
  obtain ⟨symbol, chosen, rfl⟩ := mem_plan.mp inside
  obtain ⟨shown, asks⟩ := List.mem_filter.mp (mem_filter_of_mem_classSymbols symbol chosen)
  exact wellNamed.dotted symbol shown (kind_of_asksForPage asks)

/-- The links to the planned pages of a reference. -/
abbrev plannedLinks (test : Symbol → Bool) (includePrivate : Bool) (reference : Reference)
    (route : Text) : Links :=
  Links.ofPages (plan test includePrivate reference) route

/-- A qualified name leads to the first member with its name on the page of its class. -/
theorem resolve?_member (wellNamed : IsWellNamed test includePrivate reference) (route : Text)
    (inside : page ∈ plan test includePrivate reference) (single : '.' ∉ page.name)
    {before after : List Member} {member : Member}
    (listed : page.members = before ++ member :: after)
    (first : ∀ earlier ∈ before, earlier.symbol.name ≠ member.symbol.name)
    (whole : Links.HasNoHead member.symbol.qualified) {anchor : Text}
    (anchored : member.anchor = some anchor) :
    (plannedLinks test includePrivate reference route).resolve? member.symbol.qualified =
      some ((plannedLinks test includePrivate reference route).address page ++ '#' :: anchor) := by
  have held : member ∈ page.members := listed ▸ List.mem_append_right before List.mem_cons_self
  have isName := Text.isIdentifier_of_isDotted (wellNamed.isDotted inside) single
  obtain ⟨isMember, formed⟩ := wellNamed.members page inside member held
  obtain ⟨mark, divides, formed⟩ : ∃ mark, Links.IsMark mark ∧
      member.symbol.qualified = page.name ++ mark :: member.symbol.name := by
    rcases formed with dot | colon
    · exact ⟨'.', Or.inl rfl, dot⟩
    · exact ⟨':', Or.inr rfl, colon⟩
  have found : (plannedLinks test includePrivate reference route).page? page.name = some page :=
    Links.page?_of_mem nodup_names_plan inside
  rw [formed] at whole ⊢
  rw [Links.resolve?_append isName isMember divides whole (Option.isSome_of_eq_some found)]
  exact Links.memberHref?_of_anchorFor? found isMember
    ((Links.anchorFor?_of_first listed first).trans anchored)

end

/-- The names of a well-named reference lead to what they name. The name of a class leads to its
page, unless a word in front of it is dropped or another class stands before its first dot. The
qualified name of a member leads to the anchor of that member, if its class has a single identifier
for a name, no word in front of it is dropped, and no member shown earlier on the page has the same
name. -/
theorem names_resolve {test : Symbol → Bool} {includePrivate : Bool} {reference : Reference}
    (wellNamed : IsWellNamed test includePrivate reference) (route : Text) {page : ClassPage}
    (inside : page ∈ plan test includePrivate reference) :
    (plannedLinks test includePrivate reference route).classHref? page.name =
        some ((plannedLinks test includePrivate reference route).address page) ∧
      (Links.HasNoHead page.name →
        (∀ other ∈ plan test includePrivate reference, Text.isIdentifier other.name = true →
          ¬ other.name ++ ['.'] <+: page.name) →
        (plannedLinks test includePrivate reference route).resolve? page.name =
          (plannedLinks test includePrivate reference route).classHref? page.name) ∧
      ∀ (before after : List Member) (member : Member) (anchor : Text),
        page.members = before ++ member :: after → member.anchor = some anchor →
        '.' ∉ page.name → Links.HasNoHead member.symbol.qualified →
        (∀ earlier ∈ before, earlier.symbol.name ≠ member.symbol.name) →
        (plannedLinks test includePrivate reference route).resolve? member.symbol.qualified =
          some
            ((plannedLinks test includePrivate reference route).address page ++ '#' :: anchor) := by
  refine ⟨Links.classHref?_of_mem nodup_names_plan inside, fun whole alone => ?_, ?_⟩
  · exact Links.resolve?_of_isDotted (wellNamed.isDotted inside) whole alone
  · intro before after member anchor listed anchored single whole first
    exact resolve?_member wellNamed route inside single listed first whole anchored

/-- A reference in which well-formed names get in each other's way: a function and a method with one
name, a class with a dot that has a member, classes named like words that are dropped, and a class
with a dot whose first identifier is itself a class. -/
def confusingReference : Reference :=
  bareReference [[bareSymbol "class" "Door" "Door", bareSymbol "function" "open" "Door.open",
      bareSymbol "method" "open" "Door:open", bareSymbol "function" "close" "Door.close"],
    [bareSymbol "class" "Net.Socket" "Net.Socket", bareSymbol "function" "read" "Net.Socket.read"],
    [bareSymbol "class" "Class" "Class", bareSymbol "function" "open" "Class.open",
      bareSymbol "class" "Enum.Key" "Enum.Key"],
    [bareSymbol "class" "UI" "UI", bareSymbol "class" "UI.Button" "UI.Button"]]

theorem isWellNamed_confusingReference : IsWellNamed isSignal false confusingReference where
  classes := by decide
  dotted := by decide
  members := by
    rw [plan_eq_insertedPlan]
    decide
  distinct := by
    rw [plan_eq_insertedPlan]
    decide

theorem names_resolve_confusing :
    IsWellNamed isSignal false confusingReference ∧
      (plannedLinks isSignal false confusingReference "docs").resolve? "Net.Socket" =
        some "/docs/classes/Net.Socket".toList ∧
      (plannedLinks isSignal false confusingReference "docs").resolve? "Door.close" =
        some "/docs/classes/Door#close".toList := by
  let shown := shownSymbols false confusingReference
  let socket := classPage isSignal shown (bareSymbol "class" "Net.Socket" "Net.Socket")
  let door := classPage isSignal shown (bareSymbol "class" "Door" "Door")
  have wellNamed := isWellNamed_confusingReference
  have socketInside : socket ∈ plan isSignal false confusingReference :=
    mem_plan.mpr ⟨_, List.mem_cons_of_mem _ List.mem_cons_self, rfl⟩
  have doorInside : door ∈ plan isSignal false confusingReference :=
    mem_plan.mpr ⟨_, List.mem_cons_self, rfl⟩
  have alone : ∀ other ∈ plan isSignal false confusingReference,
      Text.isIdentifier other.name = true → ¬ other.name ++ ['.'] <+: socket.name := by
    rw [plan_eq_insertedPlan]
    decide
  have listed : door.members = [⟨bareSymbol "method" "open" "Door:open", .method, some "open"⟩] ++
      ⟨bareSymbol "function" "close" "Door.close", .function, some "close"⟩ ::
        [⟨bareSymbol "function" "open" "Door.open", .function, some "Dooropen"⟩] := by
    rw [show door = insertedPage isSignal shown _ from classPage_eq_insertedPage _ _ _]
    rfl
  obtain ⟨socketHref, class_, _⟩ := names_resolve wellNamed "docs" socketInside
  obtain ⟨_, _, member⟩ := names_resolve wellNamed "docs" doorInside
  exact ⟨wellNamed, (class_ (by decide) alone).trans socketHref,
    member _ _ _ _ listed rfl (by decide) (by decide) (by decide)⟩

/-- Well-formed names do not always lead to what they name. The function `Door.open` leads to the
method with its name and `UI.Button` to a place on the page of `UI`; `Enum.Key` and `Class.open`
lose their first word, and `Net.Socket.read` is not split after the dotted name of its class. -/
theorem not_names_resolve :
    IsWellNamed isSignal false confusingReference ∧
      (∃ page ∈ plan isSignal false confusingReference, page.name = "UI.Button" ∧
        (plannedLinks isSignal false confusingReference []).classHref? page.name =
          some "/classes/UI.Button".toList ∧
        (plannedLinks isSignal false confusingReference []).resolve? page.name =
          some "/classes/UI#Button".toList) ∧
      (∃ page ∈ plan isSignal false confusingReference, page.name = "Enum.Key" ∧
        (plannedLinks isSignal false confusingReference []).classHref? page.name =
          some "/classes/Enum.Key".toList ∧
        (plannedLinks isSignal false confusingReference []).resolve? page.name = none) ∧
      (∃ page ∈ plan isSignal false confusingReference, page.name = "Door" ∧
        ∃ member ∈ page.members, member.symbol.qualified = "Door.open" ∧
          member.anchor = some "Dooropen".toList ∧
          (plannedLinks isSignal false confusingReference []).resolve? member.symbol.qualified =
            some "/classes/Door#open".toList) ∧
      (∃ page ∈ plan isSignal false confusingReference, page.name = "Class" ∧
        ∃ member ∈ page.members, member.symbol.qualified = "Class.open" ∧
          member.anchor = some "open".toList ∧
          (plannedLinks isSignal false confusingReference []).resolve? member.symbol.qualified =
            none) ∧
      ∃ page ∈ plan isSignal false confusingReference, page.name = "Net.Socket" ∧
        ∃ member ∈ page.members, member.symbol.qualified = "Net.Socket.read" ∧
          member.anchor = some "read".toList ∧
          (plannedLinks isSignal false confusingReference []).resolve? member.symbol.qualified =
            none := by
  refine ⟨isWellNamed_confusingReference, ?_⟩
  rw [plannedLinks, plan_eq_insertedPlan]
  decide

end Page

end LuauReference
