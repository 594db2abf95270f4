/-
This file proves that links lead somewhere. The address of a known class is that of a page that is
rendered, and the address of a member is that of its class with an anchor behind it which a heading
with the name of the member has. A link takes the anchor that the page has for the name. Only when
there is none does it make one of the name itself, and a member goes without an anchor only where
its name leaves nothing to make one of, so then the link leads to the page alone.
-/

import LuauReference.Proofs.Page.Keys
import LuauReference.Proofs.Page.Layout
import LuauReference.Proofs.Page.Link

namespace LuauReference

/-! ### Headings of members -/

theorem Block.eq_of_memberHeading? {block : Block} {content : Text} {anchor : Option Text}
    (heading : block.memberHeading? = some (content, anchor)) :
    block = .heading 3 content anchor := by
  cases block with
  | heading depth shown own =>
    rw [memberHeading?] at heading
    split at heading
    · next third =>
      obtain ⟨rfl, rfl⟩ := Prod.mk.inj (Option.some.inj heading)
      rw [third]
    · cases heading
  | _ => cases heading

theorem PageDocument.mem_headings_of_mem_memberHeadings {page : PageDocument} {content : Text}
    {anchor : Option Text} (listed : (content, anchor) ∈ page.memberHeadings) :
    (3, content, anchor) ∈ page.headings (some 3) := by
  obtain ⟨block, inside, heading⟩ := List.mem_filterMap.mp listed
  have held : block ∈ page.blocks :=
    (List.dropWhile_suffix _).subset
      (List.mem_of_mem_tail ((List.dropWhile_suffix _).subset inside))
  rw [Block.eq_of_memberHeading? heading] at held
  exact List.mem_filterMap.mpr ⟨_, held, rfl⟩

namespace Page

/-- Each member of a page has a heading of the third level with the name it is shown under. -/
theorem mem_headings_of_mem_members {settings : PageSettings} {links : Links} {page : ClassPage}
    {document : PageDocument} (built : classDocument settings links page = .ok document)
    {member : Member} (held : member ∈ page.members) :
    (3, member.symbol.shownName, member.anchor) ∈ document.headings (some 3) := by
  refine PageDocument.mem_headings_of_mem_memberHeadings ?_
  rw [(summary_classDocument built).2]
  exact List.mem_map_of_mem held

/-! ### Addresses of members -/

/-- The anchor of a name on a page is that of a member with this name. -/
theorem exists_anchorFor? {page : ClassPage} {member : Member} (held : member ∈ page.members) :
    ∃ first ∈ page.members, first.symbol.name = member.symbol.name ∧
      page.anchorFor? member.symbol.name = first.anchor := by
  have found : (page.members.find? fun other => other.symbol.name = member.symbol.name).isSome :=
    List.find?_isSome.mpr ⟨member, held, decide_eq_true rfl⟩
  obtain ⟨first, found⟩ := Option.isSome_iff_exists.mp found
  refine ⟨first, List.mem_of_find?_eq_some found, by simpa using List.find?_some found, ?_⟩
  rw [ClassPage.anchorFor?, found, Option.bind_some]

/-- A member of a planned page without an anchor has a name that leaves none. -/
theorem ofText?_of_anchor_eq_none {settings : PageSettings} {reference : Reference}
    {page : ClassPage}
    {member : Member} (inside : page ∈ planned settings reference) (held : member ∈ page.members)
    (missing : member.anchor = none) : Anchor.ofText? member.symbol.name = none := by
  obtain ⟨before, handed⟩ := (member_of_mem_planned inside held).2
  exact Anchor.Used.allocate_eq_none_iff.mp (handed.trans missing) _ List.mem_cons_self

/-- The address of a member is that of its page, or it ends with the anchor of a heading of that
page with the name of the member. -/
theorem memberHref?_of_mem_members {settings : PageSettings} {reference : Reference}
    {page : ClassPage}
    (inside : page ∈ planned settings reference) {links : Links}
    (found : links.page? page.name = some page) {document : PageDocument}
    (built : classDocument settings links page = .ok document) {member : Member}
    (held : member ∈ page.members) (present : member.symbol.name ≠ [])
    (cleaned : Anchor.dropCall (Text.trim member.symbol.name) = member.symbol.name) :
    links.memberHref? page.name member.symbol.name = some (links.address page) ∨
      ∃ anchor, (3, member.symbol.name, some anchor) ∈ document.headings (some 3) ∧
        links.memberHref? page.name member.symbol.name =
          some (links.address page ++ '#' :: anchor) := by
  obtain ⟨first, listed, named, anchored⟩ := exists_anchorFor? held
  rw [Links.memberHref?, found, Option.map_some, cleaned]
  dsimp only
  rw [anchored]
  cases own : first.anchor with
  | none =>
    have nothing := ofText?_of_anchor_eq_none inside listed own
    rw [named] at nothing
    rw [nothing]
    exact Or.inl rfl
  | some anchor =>
    have heading := mem_headings_of_mem_members built listed
    have shown : first.symbol.shownName = member.symbol.name := by
      rw [Symbol.shownName, named, if_neg (mt List.isEmpty_iff.mp present)]
    rw [shown, own] at heading
    exact Or.inr ⟨anchor, heading, rfl⟩

/-! ### Every link leads somewhere -/

/-- What stands before the path of a page in its address: the route without the slashes around
it. -/
def routeHead (settings : PageSettings) : Text :=
  let route := Text.trimWhere (· == '/') settings.route
  if route.isEmpty then [] else '/' :: route

theorem address_of_mem_planned {settings : PageSettings} {reference : Reference} {page : ClassPage}
    (inside : page ∈ planned settings reference) :
    ∃ stem, page.path = stem ++ ending ∧
      (renderedLinks settings reference).address page = routeHead settings ++ '/' :: stem := by
  refine ⟨page.link, ?_, rfl⟩
  rw [ClassPage.link, (path_of_mem_planned inside).1, linkOf_classPath]

/-- The address of a known class is the route and the path of a page that is rendered, without its
ending. The address of a member is the same, or has behind it the anchor of a heading of the third
level on the page of the class, with the name of the member for its text. -/
theorem links_lead_somewhere (settings : PageSettings) (reference : Reference) {name : Text}
    (known : (renderedLinks settings reference).knows name = true) :
    ∃ page ∈ planned settings reference, page.name = name ∧ ∃ stem, page.path = stem ++ ending ∧
      (renderedLinks settings reference).classHref? name =
        some (routeHead settings ++ '/' :: stem) ∧
      (∀ writer texts, render settings writer reference = .ok texts →
        stem ++ ending ∈ Named.names texts) ∧
      ∀ document, classDocument settings (renderedLinks settings reference) page = .ok document →
        ∀ member ∈ page.members, member.symbol.name ≠ [] →
          Text.trim member.symbol.name = member.symbol.name →
          Anchor.dropCall member.symbol.name = member.symbol.name →
          (renderedLinks settings reference).memberHref? name member.symbol.name =
              (renderedLinks settings reference).classHref? name ∨
            ∃ anchor, (3, member.symbol.name, some anchor) ∈ document.headings (some 3) ∧
              (renderedLinks settings reference).memberHref? name member.symbol.name =
                some (routeHead settings ++ '/' :: stem ++ '#' :: anchor) := by
  obtain ⟨page, inside, rfl⟩ := Links.exists_of_knows known
  obtain ⟨stem, path, address⟩ := address_of_mem_planned inside
  have found : (renderedLinks settings reference).page? page.name = some page :=
    Links.page?_of_mem nodup_names_planned inside
  have href : (renderedLinks settings reference).classHref? page.name =
      some (routeHead settings ++ '/' :: stem) := by
    rw [Links.classHref?, found, Option.map_some, address]
  refine ⟨page, inside, rfl, stem, path, href, fun writer texts rendered => ?_, ?_⟩
  · rw [← path]
    exact (mem_names_of_render rendered).mpr (Or.inr ⟨page, inside, rfl⟩)
  · intro document built member held present trimmed whole
    rw [href, ← address]
    refine memberHref?_of_mem_members inside found built held present ?_
    rw [trimmed, whole]

/-- The settings with a route that has slashes around it. -/
def routedSettings : PageSettings :=
  { route := "/docs/" }

theorem links_lead_somewhere_clashing :
    (renderedLinks routedSettings clashingReference).knows "門" = true ∧
      (renderedLinks routedSettings clashingReference).classHref? "門" =
        some "/docs/classes/門".toList ∧
      (renderedLinks routedSettings clashingReference).memberHref? "門" "?" =
        some "/docs/classes/門".toList ∧
      (renderedLinks routedSettings clashingReference).memberHref? "門" "open!" =
        some "/docs/classes/門#open-2".toList ∧
      ∃ texts, render routedSettings Template.standard clashingReference = .ok texts ∧
        "classes/門.md".toList ∈ Named.names texts ∧
        ∃ page ∈ planned routedSettings clashingReference, ∃ document,
          classDocument routedSettings (renderedLinks routedSettings clashingReference) page =
              .ok document ∧
            (3, "open!".toList, some "open-2".toList) ∈ document.headings (some 3) := by
  have computed : (renderedLinks routedSettings clashingReference).knows "門" = true ∧
      (renderedLinks routedSettings clashingReference).classHref? "門" =
        some "/docs/classes/門".toList ∧
      (renderedLinks routedSettings clashingReference).memberHref? "門" "?" =
        some "/docs/classes/門".toList ∧
      (renderedLinks routedSettings clashingReference).memberHref? "門" "open!" =
        some "/docs/classes/門#open-2".toList := by
    rw [renderedLinks, planned, plan_eq_insertedPlan]
    decide +kernel
  have listed : ∀ page ∈ planned routedSettings clashingReference,
      ∃ member ∈ page.members, member.symbol.name = "open!".toList := by
    rw [planned, plan_eq_insertedPlan]
    decide +kernel
  have untyped : ∀ symbol ∈ clashingReference.symbols, symbol.types.fields.isEmpty = true := by
    decide +kernel
  obtain ⟨known, classHref, absent, numbered⟩ := computed
  obtain ⟨texts, rendered⟩ := render_of_untyped routedSettings Template.standard untyped
  obtain ⟨page, inside, _, stem, _, href, kept, members⟩ :=
    links_lead_somewhere routedSettings clashingReference known
  obtain ⟨_, _, _, each⟩ := exists_pairs_of_render rendered
  obtain ⟨document, _, built, _⟩ := each page inside
  obtain ⟨member, held, named⟩ := listed page inside
  have split : "/docs/classes/門".toList = "/docs/".toList ++ "classes/門".toList ∧
      "/docs/classes/門#open-2".toList =
        "/docs/".toList ++ "classes/門".toList ++ '#' :: "open-2".toList := by
    decide
  have head : ∀ tail, routeHead routedSettings ++ '/' :: tail = "/docs/".toList ++ tail :=
    fun _ => rfl
  rw [head, classHref, split.1] at href
  obtain rfl := List.append_cancel_left (Option.some.inj href)
  have reached := members document built member held
  rw [named, numbered, classHref] at reached
  refine ⟨known, classHref, absent, numbered, texts, rendered,
    kept Template.standard texts rendered, page, inside,
    document, built, ?_⟩
  rcases reached (by decide) (by decide) (by decide) with alone | ⟨anchor, heading, address⟩
  · exact absurd alone (by decide)
  · rw [head, split.2] at address
    obtain rfl := (List.cons.inj (List.append_cancel_left (Option.some.inj address))).2
    exact heading

end Page

end LuauReference
