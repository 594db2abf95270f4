/-
This file proves that the search for source files is exact. Which files count is told of the way
from the folder where the search begins: the name ends as that of a source file, nothing on the way
is hidden, no folder on it holds the code of others, and neither the file nor a folder on the way is
excluded. The search finds each of these files once and nothing else, and it finds them in the same
order however the disk lists its entries.

The walk goes down the tree name by name, and what counts about a way can be told name by name as
well, given the part of it that is already behind. On this the induction on the tree rests.
-/

import LuauReference.Proofs.Disk.Listing
import LuauReference.Proofs.Text.Identifier
import LuauReference.Proofs.Text.Order
import LuauReference.Source.Discovery

namespace LuauReference

namespace Source

/-! ### Ways that count -/

/-- Whether the way to a file counts, given the part of it that is already behind. -/
structure Counts (patterns : List Text) (behind way : Place) : Prop where
  ending : ∃ name, way.getLast? = some name ∧ (".lua".toList <:+ name ∨ ".luau".toList <:+ name)
  visible : ∀ name ∈ way, name.head? ≠ some '.'
  own : "node_modules".toList ∉ way.dropLast
  included : ∀ above, above ≠ [] → above <+: way →
    isExcluded patterns (pathOf (behind ++ above)) = false

section

variable {patterns : List Text} {behind way : Place} {name : Text}

theorem isSourceName_iff : isSourceName name = true ↔ ".lua".toList <:+ name ∨
    ".luau".toList <:+ name := by
  simp [isSourceName, suffixes, Text.endsWith_iff]

theorem isHidden_eq_false_iff : isHidden name = false ↔ name.head? ≠ some '.' := by
  rw [isHidden, beq_eq_false_iff_ne]

theorem isTaken_iff : isTaken patterns behind name = true ↔
    (".lua".toList <:+ name ∨ ".luau".toList <:+ name) ∧
    name.head? ≠ some '.' ∧ isExcluded patterns (pathOf (behind ++ [name])) = false := by
  rw [isTaken, Bool.and_eq_true, Bool.and_eq_true, Bool.not_eq_true', Bool.not_eq_true',
    isSourceName_iff,
    isHidden_eq_false_iff, and_comm (a := name.head? ≠ some '.'), and_assoc]

theorem isEntered_iff : isEntered patterns behind name = true ↔ name.head? ≠ some '.' ∧
    name ≠ "node_modules".toList ∧ isExcluded patterns (pathOf (behind ++ [name])) = false := by
  rw [isEntered, Bool.and_eq_true, Bool.and_eq_true, Bool.not_eq_true', Bool.not_eq_true',
    Bool.not_eq_true',
    isHidden_eq_false_iff, and_assoc, dependencyFolders]
  simp

/-- Of a way with a single name the file itself has to count. -/
theorem counts_singleton_iff : Counts patterns behind [name] ↔
    isTaken patterns behind name = true := by
  rw [isTaken_iff]
  constructor
  · intro counts
    obtain ⟨last, same, ends⟩ := counts.ending
    obtain rfl : name = last := Option.some.inj same
    exact ⟨ends, counts.visible _ List.mem_cons_self,
      counts.included [name] (List.cons_ne_nil _ _) List.prefix_rfl⟩
  · rintro ⟨ends, visible, included⟩
    refine ⟨⟨name, rfl, ends⟩, List.forall_mem_singleton.mpr visible, List.not_mem_nil,
      fun above proper below => ?_⟩
    rw [below.eq_of_length_le (List.length_pos_of_ne_nil proper)]
    exact included

/-- Of a longer way the first folder has to be entered and the rest has to count from there. -/
theorem counts_cons_iff (more : way ≠ []) :
    Counts patterns behind (name :: way) ↔
      isEntered patterns behind name = true ∧ Counts patterns (behind ++ [name]) way := by
  obtain ⟨last, ends⟩ : ∃ last, way.getLast? = some last := ⟨_, List.getLast?_eq_some_getLast more⟩
  have whole : (name :: way).getLast? = way.getLast? := by
    rw [List.getLast?_cons, ends, Option.getD_some]
  have front : (name :: way).dropLast = name :: way.dropLast := List.dropLast_cons_of_ne_nil more
  rw [isEntered_iff]
  constructor
  · intro counts
    have own := counts.own
    rw [front, List.mem_cons, not_or] at own
    obtain ⟨visible, others⟩ := List.forall_mem_cons.mp counts.visible
    refine ⟨⟨visible, Ne.symm own.1, ?_⟩, whole ▸ counts.ending, others, own.2,
      fun above _ below => ?_⟩
    · exact counts.included [name] (List.cons_ne_nil _ _)
        (List.cons_prefix_cons.mpr ⟨rfl, List.nil_prefix⟩)
    · rw [← List.append_cons]
      exact counts.included (name :: above) (List.cons_ne_nil _ _)
        (List.cons_prefix_cons.mpr ⟨rfl, below⟩)
  · rintro ⟨⟨visible, own, included⟩, counts⟩
    refine ⟨whole ▸ counts.ending, List.forall_mem_cons.mpr ⟨visible, counts.visible⟩, ?_,
      fun above proper below => ?_⟩
    · rw [front, List.mem_cons, not_or]
      exact ⟨Ne.symm own, counts.own⟩
    · obtain ⟨first, rest, rfl⟩ := List.exists_cons_of_ne_nil proper
      obtain ⟨rfl, inside⟩ := List.cons_prefix_cons.mp below
      cases rest with
      | nil => exact included
      | cons next rest =>
        rw [List.append_cons]
        exact counts.included (next :: rest) (List.cons_ne_nil _ _) inside

theorem Counts.ne_nil (counts : Counts patterns behind way) : way ≠ [] := by
  rintro rfl
  obtain ⟨name, last, -⟩ := counts.ending
  exact nomatch last

end

/-! ### The walk -/

section

variable {leadsToFolder : Place → Bool} {patterns : List Text} {behind found : Place}
  {entries : List (Text × Entry)}

/-- Whether a folder among the entries of a folder is entered. -/
def isWalked (patterns : List Text) (behind : Place) (item : Text × Entry) : Bool :=
  item.2.isFolder && isEntered patterns behind item.1

theorem belowFolders_eq (entries : List (Text × Entry)) :
    belowFolders leadsToFolder patterns behind entries =
      (entries.filter (isWalked patterns behind)).map
      fun item => (item.1, below leadsToFolder patterns (behind ++ [item.1]) item.2) := by
  induction entries with
  | nil => rw [belowFolders, List.filter_nil, List.map_nil]
  | cons item rest inductionHypothesis =>
    rw [belowFolders, List.filter_cons, inductionHypothesis, isWalked]
    split <;> rfl

/-- Without links the names of files are those of the entries that are files. -/
theorem fileNames_eq (plain : (Entry.folder entries).IsPlain) :
    fileNames leadsToFolder behind entries =
      Named.names ((Entry.outlines entries).filter fun item => item.2.isFile) := by
  cases plain with
  | folder distinct inner =>
    rw [Entry.outlines, List.filter_map, Named.names, List.map_map]
    refine congrArg (List.map Prod.fst) (List.filter_congr ?_)
    rintro ⟨name, entry⟩ member
    cases inner _ member <;> rfl

theorem mem_fileNames_iff (plain : (Entry.folder entries).IsPlain) {name : Text} :
    name ∈ fileNames leadsToFolder behind entries ↔
    ∃ bytes, (name, Entry.file bytes) ∈ entries := by
  rw [fileNames_eq plain, Named.names, List.mem_map]
  constructor
  · rintro ⟨item, member, rfl⟩
    obtain ⟨listed, isFile⟩ := List.mem_filter.mp member
    obtain ⟨⟨name, entry⟩, present, rfl⟩ := List.mem_map.mp listed
    cases entry with
    | file bytes => exact ⟨bytes, present⟩
    | link target | folder entries => exact nomatch isFile
  · rintro ⟨bytes, listed⟩
    exact ⟨_, List.mem_filter.mpr ⟨List.mem_map_of_mem listed, rfl⟩, rfl⟩

theorem nodup_fileNames (plain : (Entry.folder entries).IsPlain) :
    (fileNames leadsToFolder behind entries).Nodup := by
  cases plain with
  | folder distinct inner => exact distinct.sublist (List.filter_sublist.map Prod.fst)

theorem nodup_names_belowFolders (distinct : (Named.names entries).Nodup) :
    ((belowFolders leadsToFolder patterns behind entries).map Prod.fst).Nodup := by
  rw [belowFolders_eq, List.map_map]
  exact distinct.sublist (List.filter_sublist.map Prod.fst)

theorem mem_below_folder_iff (plain : (Entry.folder entries).IsPlain) :
    found ∈ below leadsToFolder patterns behind (.folder entries) ↔
      (∃ name bytes, (name, Entry.file bytes) ∈ entries ∧ isTaken patterns behind name = true ∧
        found = behind ++ [name]) ∨
      ∃ item ∈ entries, isWalked patterns behind item = true ∧
        found ∈ below leadsToFolder patterns (behind ++ [item.1]) item.2 := by
  rw [below, List.mem_append]
  refine or_congr ?_ ?_
  · simp only
      [List.mem_map, List.mem_filter, Text.sort, (Text.sortOn_perm _ _).mem_iff,
        mem_fileNames_iff plain]
    constructor
    · rintro ⟨name, ⟨⟨bytes, listed⟩, taken⟩, rfl⟩
      exact ⟨name, bytes, listed, taken, rfl⟩
    · rintro ⟨name, bytes, listed, taken, rfl⟩
      exact ⟨name, ⟨⟨bytes, listed⟩, taken⟩, rfl⟩
  · simp only
      [List.mem_flatMap, (Text.sortOn_perm _ _).mem_iff, belowFolders_eq, List.mem_map,
        List.mem_filter]
    constructor
    · rintro ⟨_, ⟨item, ⟨listed, walked⟩, rfl⟩, inside⟩
      exact ⟨item, listed, walked, inside⟩
    · rintro ⟨item, listed, walked, inside⟩
      exact ⟨_, ⟨item, ⟨listed, walked⟩, rfl⟩, inside⟩

/-- The walk finds the files whose ways count, and nothing else. -/
theorem mem_below_iff {entry : Entry} (plain : entry.IsPlain) :
    found ∈ below leadsToFolder patterns behind entry ↔
      ∃ way bytes, found = behind ++ way ∧ entry.fileAt? way = some bytes ∧
        Counts patterns behind way := by
  induction plain generalizing behind found with
  | file bytes =>
    refine iff_of_false List.not_mem_nil ?_
    rintro ⟨way, _, -, there, counts⟩
    obtain ⟨name, rest, rfl⟩ := List.exists_cons_of_ne_nil counts.ne_nil
    rw [Entry.fileAt?_eq_some_iff, Entry.at?_file_cons] at there
    cases there
  | @folder entries distinct inner inductionHypothesis =>
    rw [mem_below_folder_iff (.folder distinct inner)]
    constructor
    · rintro (⟨name, bytes, listed, taken, rfl⟩ | ⟨⟨name, entry⟩, listed, walked, inside⟩)
      · refine ⟨[name], bytes, rfl, ?_, counts_singleton_iff.mpr taken⟩
        rw [Entry.fileAt?_cons, Entry.entries, Named.get?_of_mem distinct listed]
        rfl
      · obtain ⟨way, bytes, rfl, there, counts⟩ := (inductionHypothesis _ listed).mp inside
        have entered := ((Bool.and_eq_true _ _).mp walked).2
        refine ⟨name :: way, bytes, (List.append_cons _ _ _).symm, ?_,
          (counts_cons_iff counts.ne_nil).mpr ⟨entered, counts⟩⟩
        rw [Entry.fileAt?_cons, Entry.entries, Named.get?_of_mem distinct listed]
        exact there
    · rintro ⟨way, bytes, rfl, there, counts⟩
      obtain ⟨name, rest, rfl⟩ := List.exists_cons_of_ne_nil counts.ne_nil
      rw [Entry.fileAt?_cons, Option.bind_eq_some_iff] at there
      obtain ⟨entry, listed, there⟩ := there
      have member := Named.mem_of_get?_eq_some listed
      by_cases last : rest = []
      · subst last
        refine Or.inl ⟨name, bytes, ?_, counts_singleton_iff.mp counts, rfl⟩
        have same : entry = .file bytes := by
          rw [Entry.fileAt?_eq_some_iff, Entry.at?_nil] at there
          exact Option.some.inj there
        exact same ▸ member
      · obtain ⟨entered, later⟩ := (counts_cons_iff last).mp counts
        have folder : entry.isFolder = true := by
          obtain ⟨next, more, rfl⟩ := List.exists_cons_of_ne_nil last
          exact Entry.isFolder_of_at?_cons (Entry.fileAt?_eq_some_iff.mp there)
        refine Or.inr ⟨(name, entry), member, (Bool.and_eq_true _ _).mpr ⟨folder, entered⟩, ?_⟩
        rw [List.append_cons behind name rest]
        exact (inductionHypothesis _ member).mpr ⟨rest, bytes, rfl, there, later⟩

/-- The walk finds no file twice. -/
theorem nodup_below {entry : Entry} (plain : entry.IsPlain) :
    (below leadsToFolder patterns behind entry).Nodup := by
  induction plain generalizing behind with
  | file bytes => exact List.nodup_nil
  | @folder entries distinct inner inductionHypothesis =>
    have isPlain := Entry.IsPlain.folder distinct inner
    rw [below]
    -- What is found in a folder lies deeper than a file beside it, and the folder can be told by
    -- its name.
    have deeper {folder : Text × List Place}
        (listed : folder ∈ Text.sortOn Prod.fst
          (belowFolders leadsToFolder patterns behind entries)) :
        folder.2.Nodup ∧
        ∀ found ∈ folder.2, ∃ next rest, found = behind ++ folder.1 :: next :: rest := by
      rw [(Text.sortOn_perm _ _).mem_iff, belowFolders_eq] at listed
      obtain ⟨item, member, rfl⟩ := List.mem_map.mp listed
      have present := (List.mem_filter.mp member).1
      refine ⟨inductionHypothesis item present, fun found inside => ?_⟩
      obtain ⟨way, _, rfl, -, counts⟩ := (mem_below_iff (inner item present)).mp inside
      obtain ⟨next, rest, rfl⟩ := List.exists_cons_of_ne_nil counts.ne_nil
      exact ⟨next, rest, (List.append_cons _ _ _).symm⟩
    refine List.nodup_append.mpr
      ⟨?_, List.nodup_flatMap.mpr ⟨fun folder listed => (deeper listed).1, ?_⟩, ?_⟩
    · refine List.Nodup.map (fun one two same => ?_) (List.Nodup.filter _ ?_)
      · exact List.singleton_inj.mp (List.append_cancel_left same)
      · exact (Text.sortOn_perm _ _).nodup_iff.mpr (nodup_fileNames isPlain)
    · have names : ((belowFolders leadsToFolder patterns behind entries).map Prod.fst).Nodup :=
        nodup_names_belowFolders distinct
      have apart := List.pairwise_map.mp (Text.nodup_keys_sortOn names)
      refine apart.imp_of_mem fun one other differ found left right => differ ?_
      obtain ⟨_, _, rfl⟩ := (deeper one).2 found left
      obtain ⟨_, _, same⟩ := (deeper other).2 _ right
      exact (List.cons.inj (List.append_cancel_left same)).1
    · intro file listed found inside same
      obtain ⟨name, -, rfl⟩ := List.mem_map.mp listed
      obtain ⟨folder, present, below⟩ := List.mem_flatMap.mp inside
      obtain ⟨next, rest, rfl⟩ := (deeper present).2 found below
      exact absurd (List.append_cancel_left same) (by simp)

/-- The walk finds the same in the same order wherever the entries are listed in another one. -/
theorem below_eq_of_holdsSame {entry other : Entry} (plain : entry.IsPlain)
    (alsoPlain : other.IsPlain)
    (same : entry.HoldsSame other) (leadsElsewhere : Place → Bool) :
    below leadsElsewhere patterns behind other = below leadsToFolder patterns behind entry := by
  induction plain generalizing behind other with
  | file bytes =>
    obtain rfl := same.file
    rfl
  | @folder entries distinct inner inductionHypothesis =>
    obtain ⟨others, rfl⟩ := same.folder
    cases alsoPlain with
    | folder alsoDistinct alsoInner =>
      have isPlain := Entry.IsPlain.folder distinct inner
      have alsoIsPlain := Entry.IsPlain.folder alsoDistinct alsoInner
      have files : (fileNames leadsElsewhere behind others).Perm
          (fileNames leadsToFolder behind entries) := by
        rw [fileNames_eq isPlain, fileNames_eq alsoIsPlain]
        exact ((same.perm distinct alsoDistinct).filter _).map Prod.fst
      have folders : (belowFolders leadsElsewhere patterns behind others).Perm
          (belowFolders leadsToFolder patterns behind entries) := by
        refine (List.perm_ext_iff_of_nodup
          (.of_map Prod.fst (nodup_names_belowFolders alsoDistinct))
          (.of_map Prod.fst (nodup_names_belowFolders distinct))).mpr fun folder => ?_
        simp only [belowFolders_eq, List.mem_map, List.mem_filter]
        constructor
        · rintro ⟨⟨name, also⟩, ⟨listed, walked⟩, rfl⟩
          obtain ⟨entry, present, alike⟩ := same.symm.exists_mem alsoDistinct listed
          refine ⟨(name, entry), ⟨present, ?_⟩, Prod.ext rfl ?_⟩
          · rwa [isWalked, alike.isFolder_eq]
          · exact (inductionHypothesis _ present (alsoInner _ listed) alike.symm).symm
        · rintro ⟨⟨name, entry⟩, ⟨present, walked⟩, rfl⟩
          obtain ⟨also, listed, alike⟩ := same.exists_mem distinct present
          refine ⟨(name, also), ⟨listed, ?_⟩, Prod.ext rfl ?_⟩
          · rwa [isWalked, alike.isFolder_eq]
          · exact inductionHypothesis _ present (alsoInner _ listed) alike
      rw [below, below, Text.sort, Text.sort, Text.sortOn_eq_of_perm files,
        Text.sortOn_eq_of_perm folders]
      · exact nodup_names_belowFolders alsoDistinct
      · rw [List.map_id]
        exact nodup_fileNames alsoIsPlain

end

/-! ### The search -/

/-- Whether a place below a folder is that of a source file that counts. -/
structure IsSource (root : Entry) (base : Place) (patterns : List Text) (place : Place) : Prop where
  file : ∃ bytes, root.fileAt? (base ++ place) = some bytes
  counts : Counts patterns [] place

/-- Whether paths are those of the source files below a folder that count, each of them once. -/
structure ListsSources (root : Entry) (base : Place) (patterns : List Text) (paths : List Path) :
    Prop where
  once : paths.Nodup
  exact : ∀ path, path ∈ paths ↔ ∃ place, path = ⟨0, place⟩ ∧ IsSource root base patterns place

variable {disk other : Disk}

/-- Below a folder the search is the walk through what is in it. There is no link whose end would
matter. -/
theorem find_of_isFolder (plain : disk.root.IsPlain) {path : Path}
    (asked : disk.isFolder path = .ok true)
    (patterns : List Text) : ∃ entry, disk.root.at? (disk.placeOf path) = some entry ∧
      find disk path patterns =
        .ok ((below (fun _ => false) patterns [] entry).map fun place => ⟨0, place⟩) := by
  obtain ⟨place, entries, located⟩ := Disk.isFolder_eq_true_iff.mp asked
  obtain ⟨rfl, found⟩ := Disk.Location.mk.inj (Disk.locate_eq_ok plain located).1
  have inside := plain.of_at? found.symm
  refine ⟨_, found.symm, ?_⟩
  unfold find
  rw [asked, located]
  simp only [bind, Except.bind, pure, Except.pure, Bool.not_true, Bool.false_eq_true, if_false,
    Option.getD_some]
  rw [below_eq_of_holdsSame inside inside (.refl _)]

theorem exists_find (plain : disk.root.IsPlain) {path : Path}
    (asked : disk.isFolder path = .ok true)
    (patterns : List Text) : ∃ paths, find disk path patterns = .ok paths ∧
      ListsSources disk.root (disk.placeOf path) patterns paths := by
  obtain ⟨entry, found, searched⟩ := find_of_isFolder plain asked patterns
  have inside := plain.of_at? found
  have files (place : Place) :
      disk.root.fileAt? (disk.placeOf path ++ place) = entry.fileAt? place := by
    refine Entry.fileAt?_of_at? ?_
    rw [Entry.at?_append, found, Option.bind_some]
  refine ⟨_, searched,
    ⟨(nodup_below inside).map fun one two same => (Path.mk.inj same).2, fun path => ?_⟩⟩
  rw [List.mem_map]
  constructor
  · rintro ⟨place, listed, rfl⟩
    obtain ⟨way, bytes, rfl, there, counts⟩ := (mem_below_iff inside).mp listed
    exact ⟨_, rfl, ⟨bytes, (files _).trans there⟩, counts⟩
  · rintro ⟨place, rfl, ⟨bytes, there⟩, counts⟩
    exact ⟨place, (mem_below_iff inside).mpr
      ⟨place, bytes, rfl, (files place).symm.trans there, counts⟩, rfl⟩

/-- The search finds the same in the same order on every disk that holds the same. -/
theorem find_eq_of_holdsSame (plain : disk.root.IsPlain) (alsoPlain : other.root.IsPlain)
    (same : disk.HoldsSame other) (path : Path) (patterns : List Text) :
    find other path patterns = find disk path patterns := by
  have asked := same.isFolder path
  cases told : disk.isFolder path with
  | error failure =>
    rw [find, find, asked, told]
    show Except.error failure = .error failure
    rfl
  | ok present =>
    rw [told] at asked
    cases present with
    | false =>
      rw [find, find, asked, told]
      show Except.ok [] = .ok []
      rfl
    | true =>
      obtain ⟨entry, found, searched⟩ := find_of_isFolder plain told patterns
      obtain ⟨also, there, alsoSearched⟩ := find_of_isFolder alsoPlain asked patterns
      have alike : entry.HoldsSame also := by
        obtain ⟨_, here, alike⟩ := same.root.exists_at? found
        rw [same.placeOf, here] at there
        exact Option.some.inj there ▸ alike
      rw [searched, alsoSearched,
        below_eq_of_holdsSame (plain.of_at? found) (alsoPlain.of_at? there) alike]

end Source

end LuauReference
