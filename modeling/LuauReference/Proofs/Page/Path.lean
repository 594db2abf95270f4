/-
This file says what the paths of class pages are made of. The first category and the name of a class
are cut at slashes of either kind, and each part becomes one name of the path, so the names of the
path are known from the parts: none is empty, none holds a slash, and one is made of dots exactly
when the part it comes from is, blanks aside. The last name has an ending and is never made of dots.
Making a name of a part is not injective, so different classes can have one path; names that need no
change keep classes apart.
-/

import LuauReference.Page.Path
import LuauReference.Proofs.Disk.Path
import LuauReference.Proofs.Text.Identifier

namespace LuauReference

namespace Text

theorem mem_of_mem_trim {c : Char} {s : Text} (member : c ∈ trim s) : c ∈ s := by
  have front : c ∈ trimStart s := by
    have backwards := (List.dropWhile_suffix isBlank).subset (List.mem_reverse.mp member)
    exact List.mem_reverse.mp backwards
  exact (List.dropWhile_suffix isBlank).subset front

end Text

namespace Page

/-! ### Names of a path -/

/-- What stands for a character in a name. -/
def allowedFor (c : Char) : Char :=
  if isForbidden c then '_' else c

theorem segment_eq (s : Text) :
    segment s = if Text.trim s = [] then "unnamed".toList else (Text.trim s).map allowedFor := by
  rw [segment]
  split
  · next blank => rw [if_pos blank]
  · next solid => exact (if_neg solid).symm

theorem segment_ne_nil (s : Text) : segment s ≠ [] := by
  rw [segment_eq]
  split
  · exact List.cons_ne_nil _ _
  · next solid => exact fun empty => solid (List.map_eq_nil_iff.mp empty)

/-- A character is in a name only if it is in its part or is put there. -/
theorem mem_of_mem_segment {c : Char} {s : Text} (member : c ∈ segment s) :
    c ∈ s ∨ c = '_' ∨ c ∈ "unnamed".toList := by
  rw [segment_eq] at member
  split at member
  · exact Or.inr (Or.inr member)
  · obtain ⟨original, held, rfl⟩ := List.mem_map.mp member
    rw [allowedFor]
    split
    · exact Or.inr (Or.inl rfl)
    · exact Or.inl (Text.mem_of_mem_trim held)

theorem allowedFor_eq_dot_iff {c : Char} : allowedFor c = '.' ↔ c = '.' := by
  unfold allowedFor
  constructor
  · intro same
    split at same
    · exact absurd same (by decide)
    · exact same
  · rintro rfl
    decide

theorem map_allowedFor_eq_dots_iff {s : Text} {count : Nat} :
    s.map allowedFor = List.replicate count '.' ↔ s = List.replicate count '.' := by
  rw [List.eq_replicate_iff, List.eq_replicate_iff, List.length_map, List.forall_mem_map]
  simp only [allowedFor_eq_dot_iff]

/-- A name is made of dots exactly when its part is, blanks aside. -/
theorem segment_eq_dots_iff {s : Text} {count : Nat} (positive : 0 < count) :
    segment s = List.replicate count '.' ↔ Text.trim s = List.replicate count '.' := by
  rw [segment_eq]
  split
  · next blank =>
    have other : "unnamed".toList ≠ List.replicate count '.' := fun same =>
      absurd ((List.eq_replicate_iff.mp same).2 'u' (by decide)) (by decide)
    have dotted : List.replicate count '.' ≠ [] := fun empty =>
      positive.ne' ((List.replicate_eq_nil_iff '.').mp empty)
    rw [blank]
    exact iff_of_false other dotted.symm
  · exact map_allowedFor_eq_dots_iff

/-! ### Parts of a class -/

/-- The parts of a text between slashes of either kind. -/
def partsOf (s : Text) : List Text :=
  Text.pieces '/' (s.map fun c => if c = '\\' then '/' else c)

theorem pathOf_eq (s : Text) : pathOf s = Text.join ['/'] ((partsOf s).map segment) := rfl

theorem partsOf_ne_nil (s : Text) : partsOf s ≠ [] :=
  Text.pieces_ne_nil _ _

/-- No part has a slash of either kind. -/
theorem ne_of_mem_partsOf {c : Char} {s part : Text} (inside : part ∈ partsOf s) (held : c ∈ part) :
    c ≠ '/' ∧ c ≠ '\\' := by
  obtain ⟨member, other⟩ := Text.mem_of_mem_pieces inside held
  refine ⟨other, ?_⟩
  obtain ⟨original, _, rfl⟩ := List.mem_map.mp member
  split
  · decide
  · assumption

/-- The parts of the first category of a class. -/
def categoryParts (symbol : Symbol) : List Text :=
  ((categoriesOf symbol).head?.map partsOf).getD []

/-- The parts that name the folders of a class page. -/
def folderParts (symbol : Symbol) : List Text :=
  categoryParts symbol ++ (partsOf symbol.name).dropLast

/-- The part that names the file of a class page. -/
def filePart (symbol : Symbol) : Text :=
  (partsOf symbol.name).getLast (partsOf_ne_nil symbol.name)

theorem parts_eq (symbol : Symbol) :
    categoryParts symbol ++ partsOf symbol.name = folderParts symbol ++ [filePart symbol] := by
  rw [folderParts, filePart, List.append_assoc, List.dropLast_concat_getLast]

theorem ne_of_mem_parts {symbol : Symbol} {part : Text} {c : Char}
    (inside : part ∈ folderParts symbol ++ [filePart symbol]) (held : c ∈ part) :
    c ≠ '/' ∧ c ≠ '\\' := by
  rw [← parts_eq, List.mem_append, categoryParts] at inside
  rcases inside with category | name
  · cases first : (categoriesOf symbol).head? with
    | none =>
      rw [first] at category
      cases category
    | some text =>
      rw [first] at category
      exact ne_of_mem_partsOf category held
  · exact ne_of_mem_partsOf name held

/-- The names of the path of a class page below the folder of all of them, without the ending. -/
def segmentsOf (symbol : Symbol) : List Text :=
  (categoryParts symbol ++ partsOf symbol.name).map segment

theorem segmentsOf_eq (symbol : Symbol) :
    segmentsOf symbol = (folderParts symbol).map segment ++ [segment (filePart symbol)] := by
  rw [segmentsOf, parts_eq, List.map_append, List.map_singleton]

theorem slash_notMem_segmentsOf (symbol : Symbol) :
    ∀ name ∈ folder :: segmentsOf symbol, '/' ∉ name := by
  refine List.forall_mem_cons.mpr ⟨by decide, fun name member held => ?_⟩
  rw [segmentsOf, parts_eq] at member
  obtain ⟨part, inside, rfl⟩ := List.mem_map.mp member
  rcases mem_of_mem_segment held with original | made
  · exact absurd rfl (ne_of_mem_parts inside original).1
  · exact absurd made (by decide)

/-- The path of a class page is made of its names. -/
theorem classPath_eq (symbol : Symbol) :
    classPath symbol = Text.join ['/'] (folder :: segmentsOf symbol) ++ ending := by
  have named : (partsOf symbol.name).map segment ≠ [] := fun empty =>
    partsOf_ne_nil symbol.name (List.map_eq_nil_iff.mp empty)
  have present : segmentsOf symbol ≠ [] := by
    rw [segmentsOf, List.map_append]
    exact List.append_ne_nil_of_right_ne_nil _ named
  rw [Text.join_cons_of_ne_nil _ _ present, segmentsOf, List.map_append, categoryParts, classPath]
  cases categoriesOf symbol with
  | nil => rfl
  | cons category rest =>
    have categorized : (partsOf category).map segment ≠ [] := fun empty =>
      partsOf_ne_nil category (List.map_eq_nil_iff.mp empty)
    rw [List.head?_cons, Option.map_some, Option.getD_some, Text.join_append categorized named]
    simp only [pathOf_eq, List.append_assoc, List.cons_append, List.nil_append]

/-- The names of the path of a class page. -/
theorem pieces_classPath (symbol : Symbol) :
    Text.pieces '/' (classPath symbol) =
      folder :: (folderParts symbol).map segment ++ [segment (filePart symbol) ++ ending] := by
  have whole : folder :: segmentsOf symbol =
      folder :: (folderParts symbol).map segment ++ [segment (filePart symbol)] := by
    rw [segmentsOf_eq, List.cons_append]
  have slashless := slash_notMem_segmentsOf symbol
  rw [classPath_eq, whole, Text.join_concat_append]
  rw [whole, List.forall_mem_append, List.forall_mem_singleton] at slashless
  refine Text.pieces_join (List.append_ne_nil_of_right_ne_nil _ (List.cons_ne_nil _ _)) ?_
  refine List.forall_mem_append.mpr ⟨slashless.1, List.forall_mem_singleton.mpr fun held => ?_⟩
  rcases List.mem_append.mp held with named | ended
  · exact slashless.2 named
  · exact absurd ended (by decide)

/-! ### Paths inside of a folder -/

/-- Whether a class asks for no folder that is made of dots. -/
def HasNoDots (symbol : Symbol) : Prop :=
  ∀ part ∈ folderParts symbol, Text.trim part ≠ ['.'] ∧ Text.trim part ≠ "..".toList

instance (symbol : Symbol) : Decidable (HasNoDots symbol) :=
  inferInstanceAs (Decidable (∀ part ∈ folderParts symbol, _ ∧ _))

theorem filePart_append_ending_ne (symbol : Symbol) (count : Nat) :
    segment (filePart symbol) ++ ending ≠ List.replicate count '.' := by
  intro same
  have dotted := (List.eq_replicate_iff.mp same).2
  exact absurd (dotted 'd' (List.mem_append_right _ (by decide))) (by decide)

/-- No name of the path of a class page is empty. -/
theorem ne_nil_of_mem_classPath {symbol : Symbol} {name : Text}
    (member : name ∈ Text.pieces '/' (classPath symbol)) : name ≠ [] := by
  rw [pieces_classPath, List.cons_append, List.mem_cons, List.mem_append,
    List.mem_singleton] at member
  rcases member with rfl | inside | rfl
  · exact List.cons_ne_nil _ _
  · obtain ⟨part, _, rfl⟩ := List.mem_map.mp inside
    exact segment_ne_nil part
  · exact List.append_ne_nil_of_left_ne_nil (segment_ne_nil _) _

theorem backslash_notMem_classPath (symbol : Symbol) : '\\' ∉ classPath symbol := by
  intro member
  have other : '\\' ≠ '/' := by decide
  obtain ⟨name, inside, held⟩ := (Text.exists_mem_pieces_iff other).mpr member
  have absent {part : Text} (listed : part ∈ folderParts symbol ++ [filePart symbol]) :
      '\\' ∉ segment part := by
    intro present
    rcases mem_of_mem_segment present with original | made
    · exact absurd rfl (ne_of_mem_parts listed original).2
    · exact absurd made (by decide)
  rw [pieces_classPath, List.cons_append, List.mem_cons, List.mem_append, List.mem_singleton]
    at inside
  rcases inside with rfl | folders | rfl
  · exact absurd held (by decide)
  · obtain ⟨part, listed, rfl⟩ := List.mem_map.mp folders
    exact absent (List.mem_append_left _ listed) held
  · rcases List.mem_append.mp held with named | ended
    · exact absent (List.mem_append_right _ (List.mem_singleton_self _)) named
    · exact absurd ended (by decide)

/-- The path of a class page stays inside of the folder it is put in exactly when its class asks for
no folder that is made of dots. -/
theorem isCanonical_classPath_iff {symbol : Symbol} :
    Path.IsCanonical (classPath symbol) ↔ HasNoDots symbol := by
  constructor
  · intro canonical part listed
    have inside : segment part ∈ Text.pieces '/' (classPath symbol) := by
      rw [pieces_classPath]
      exact List.mem_append_left _ (List.mem_cons_of_mem _ (List.mem_map_of_mem listed))
    obtain ⟨-, single, double⟩ := canonical.names _ inside
    exact ⟨fun dot => single ((segment_eq_dots_iff Nat.one_pos).mpr dot),
      fun dots => double ((segment_eq_dots_iff Nat.two_pos).mpr dots)⟩
  · intro plain
    refine ⟨backslash_notMem_classPath symbol, fun name member => ?_⟩
    refine ⟨ne_nil_of_mem_classPath member, ?_⟩
    rw [pieces_classPath, List.cons_append, List.mem_cons, List.mem_append,
      List.mem_singleton] at member
    rcases member with rfl | inside | rfl
    · decide
    · obtain ⟨part, listed, rfl⟩ := List.mem_map.mp inside
      obtain ⟨single, double⟩ := plain part listed
      exact ⟨fun dot => single ((segment_eq_dots_iff Nat.one_pos).mp dot),
        fun dots => double ((segment_eq_dots_iff Nat.two_pos).mp dots)⟩
    · exact ⟨filePart_append_ending_ne symbol 1, filePart_append_ending_ne symbol 2⟩

/-- The path of a class page in links is the path without its ending. -/
theorem linkOf_classPath (symbol : Symbol) :
    linkOf (classPath symbol) ++ ending = classPath symbol := by
  rw [classPath_eq, linkOf, Text.before?_append, Option.getD_some]

/-! ### Paths that are different -/

/-- Two classes have one path exactly when the names made of their parts are the same. -/
theorem classPath_eq_iff {first second : Symbol} :
    classPath first = classPath second ↔ segmentsOf first = segmentsOf second := by
  constructor
  · intro same
    rw [classPath_eq, classPath_eq] at same
    have names := congrArg (Text.pieces '/') (List.append_cancel_right same)
    rw [Text.pieces_join (List.cons_ne_nil _ _) (slash_notMem_segmentsOf first),
      Text.pieces_join (List.cons_ne_nil _ _) (slash_notMem_segmentsOf second)] at names
    exact (List.cons.inj names).2
  · intro same
    rw [classPath_eq, classPath_eq, same]

/-- Whether a text is a name of a path as it stands: it is not empty and has no slash, no forbidden
character and no blank at either end. -/
def isFileName (s : Text) : Bool :=
  !s.isEmpty && Text.trim s == s && s.all fun c => c != '/' && c != '\\' && !isForbidden c

theorem segment_of_isFileName {s : Text} (plain : isFileName s = true) : segment s = s := by
  simp only [isFileName, Bool.and_eq_true, Bool.not_eq_true', List.all_eq_true, bne_iff_ne,
    beq_iff_eq, List.isEmpty_eq_false_iff] at plain
  obtain ⟨⟨present, trimmed⟩, characters⟩ := plain
  rw [segment_eq, trimmed, if_neg present]
  refine (List.map_congr_left fun c member => ?_).trans (List.map_id s)
  rw [allowedFor, (characters c member).2]
  rfl

theorem partsOf_of_isFileName {s : Text} (plain : isFileName s = true) : partsOf s = [s] := by
  simp only [isFileName, Bool.and_eq_true, List.all_eq_true, bne_iff_ne] at plain
  have kept : s.map (fun c => if c = '\\' then '/' else c) = s :=
    (List.map_congr_left fun c member => if_neg (plain.2 c member).1.2).trans (List.map_id s)
  rw [partsOf, kept, Text.pieces_of_notMem fun held => absurd rfl (plain.2 '/' held).1.1]

/-- Classes whose names are names of a path as they stand have different paths when they have
different names, whatever their categories are. -/
theorem name_eq_of_classPath_eq {first second : Symbol} (one : isFileName first.name = true)
    (other : isFileName second.name = true) (same : classPath first = classPath second) :
    first.name = second.name := by
  have names := classPath_eq_iff.mp same
  rw [segmentsOf, segmentsOf, partsOf_of_isFileName one, partsOf_of_isFileName other,
    List.map_append,
    List.map_append, List.map_singleton, List.map_singleton, segment_of_isFileName one,
    segment_of_isFileName other] at names
  exact (List.append_inj' names rfl).2 |> List.singleton_injective

end Page

end LuauReference
