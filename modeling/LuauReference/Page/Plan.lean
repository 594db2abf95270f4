/-
This file plans the class pages of a reference: which classes get a page, which members stand on it,
and under which section and anchor each member is shown. Only visible symbols count, the first class
with a name wins, and a member whose owner has no page is left out.
-/

import LuauReference.Page.Anchor
import LuauReference.Page.Path

namespace LuauReference

namespace Page

/-! ### Sections -/

/-- The sections of a class page. -/
inductive Bucket
  | type
  | interface
  | constructor
  | property
  | method
  | function
  | callback
  | event
  deriving DecidableEq, Repr

namespace Bucket

/-- All sections, in the order in which a page shows them. -/
def all : List Bucket :=
  [.type, .interface, .constructor, .property, .method, .function, .callback, .event]

/-- The word for a section. -/
def word : Bucket → Text
  | .type => "type"
  | .interface => "interface"
  | .constructor => "constructor"
  | .property => "property"
  | .method => "method"
  | .function => "function"
  | .callback => "callback"
  | .event => "event"

/-- The anchor of a section. -/
def anchor : Bucket → Text
  | .type => "types"
  | .interface => "interfaces"
  | .constructor => "constructors"
  | .property => "properties"
  | .method => "methods"
  | .function => "functions"
  | .callback => "callbacks"
  | .event => "events"

/-- The section with a word. -/
def ofWord? (s : Text) : Option Bucket :=
  all.find? fun bucket => bucket.word = s

end Bucket

/-- The anchor of the summary. -/
def summaryAnchor : Text := "summary"

/-- The anchors that no member may take: those of the summary and of the sections. -/
def reservedAnchors : List Text :=
  summaryAnchor :: Bucket.all.map Bucket.anchor

/-! ### Which section a symbol belongs to -/

/-- Whether a property looks like an event: its type mentions a signal. -/
def isSignal (symbol : Symbol) : Bool :=
  if symbol.kind = "property" then
    let type := symbol.types.fields.getD "type"
    let text := if type.isTruthy then type.text else symbol.types.display
    Text.hasPart (Text.lower text) "signal"
  else
    false

/-- Whether a symbol is marked by a tag of its own or by a label, in any letter case. -/
def isMarked (mark : Text) (symbol : Symbol) : Bool :=
  symbol.docs.tags.any fun tag =>
    (tag.name == mark && tag.value.isTruthy)
      || (tag.name == "tag".toList && Text.lower tag.value.text == mark)

/-- Whether a symbol is marked as an event. -/
def isEvent (symbol : Symbol) : Bool :=
  isMarked "event" symbol

/-- Whether a symbol is marked as a callback. -/
def isCallback (symbol : Symbol) : Bool :=
  isMarked "callback" symbol

/-- The owner of a symbol. -/
def ownerOf (symbol : Symbol) : Option Text :=
  (splitQualifiedName symbol.fullName).1

/-- The character between the owner and the name of a symbol. -/
def separatorOf (symbol : Symbol) : Option Char :=
  match splitQualifiedName symbol.fullName with
  | (none, _, _) => none
  | (some _, _, isMethod) => some (if isMethod then ':' else '.')

/-- The section of a symbol. Marks count before the kind, and an event mark before all else; a
symbol may also be taken for an event by the given test. -/
def bucketOf (looksLikeEvent : Symbol → Bool) (symbol : Symbol) : Option Bucket :=
  let kind := symbol.kind
  if kind = "class" || kind = "module" then none
  else if isEvent symbol || looksLikeEvent symbol then some .event
  else if kind = "constructor" then some .constructor
  else if isCallback symbol then some .callback
  else if kind = "function" || kind = "method" then
    let separator := separatorOf symbol
    if separator = some ':' || kind = "method" then some .method
    else if symbol.name = "new" && separator = some '.' then some .constructor
    else some .function
  else if kind = "field" then some .interface
  else Bucket.ofWord? kind

/-- Whether a symbol is shown: ignored ones never are and private ones only on request. -/
def isVisible (includePrivate : Bool) (symbol : Symbol) : Bool :=
  symbol.visibility != "ignored".toList
    && (symbol.visibility != "private".toList || includePrivate)

/-! ### Pages -/

/-- A member of a class page with its section and its anchor. -/
structure Member where
  symbol : Symbol
  bucket : Bucket
  anchor : Option Text

/-- The page of a class. -/
structure ClassPage where
  name : Text
  symbol : Symbol
  path : Text
  categories : List Text := []
  attached : List Symbol := []
  sections : List (Bucket × List Member) := []

namespace ClassPage

/-- The path of a page in links. -/
def link (page : ClassPage) : Text :=
  linkOf page.path

/-- The first category of a class, empty when it has none. -/
def primaryCategory (page : ClassPage) : Text :=
  page.categories.headD []

/-- The members of a page in the order in which it shows them. -/
def members (page : ClassPage) : List Member :=
  page.sections.flatMap Prod.snd

/-- The anchor of the first member with a name. -/
def anchorFor? (page : ClassPage) (name : Text) : Option Text :=
  (page.members.find? fun member => member.symbol.name = name).bind Member.anchor

end ClassPage

/-- The symbols of a section in order. -/
def sectionSymbols (looksLikeEvent : Symbol → Bool) (symbols : List Symbol) (bucket : Bucket) :
    List Symbol :=
  Text.sortOn Symbol.fullName (symbols.filter fun symbol =>
    bucketOf looksLikeEvent symbol = some bucket)

/-- The given sections with their members; anchors are handed out section by section. Sections
without members are left out. -/
def sectionsFrom (looksLikeEvent : Symbol → Bool) (symbols : List Symbol) :
    Anchor.Used → List Bucket → List (Bucket × List Member)
  | _, [] => []
  | used, bucket :: rest =>
    let items := sectionSymbols looksLikeEvent symbols bucket
    let (anchors, used) := used.allocateAll items
    let members := (items.zip anchors).map fun (symbol, anchor) => ⟨symbol, bucket, anchor⟩
    let more := sectionsFrom looksLikeEvent symbols used rest
    if members.isEmpty then more else (bucket, members) :: more

/-- The sections of a class page with the given symbols. -/
def sectionsOf (looksLikeEvent : Symbol → Bool) (symbols : List Symbol) :
    List (Bucket × List Member) :=
  sectionsFrom looksLikeEvent symbols ⟨reservedAnchors⟩ Bucket.all

/-- Adds a symbol to the classes that get a page, unless it is no class or its name is taken. -/
def addClass (classes : List Symbol) (symbol : Symbol) : List Symbol :=
  if symbol.kind = "class" && !symbol.name.isEmpty
      && !classes.any (fun other => other.name = symbol.name) then
    classes ++ [symbol]
  else
    classes

/-- The classes that get a page: of visible classes with one name the first. -/
def classSymbols (visible : List Symbol) : List Symbol :=
  visible.foldl addClass []

/-- The symbols that belong on the page of a class. -/
def attachedTo (visible : List Symbol) (name : Text) : List Symbol :=
  visible.filter fun symbol => symbol.kind != "class".toList && ownerOf symbol = some name

/-- The page of a class. -/
def classPage (looksLikeEvent : Symbol → Bool) (visible : List Symbol) (symbol : Symbol) :
    ClassPage :=
  let attached := attachedTo visible symbol.name
  { name := symbol.name
    symbol := symbol
    path := classPath symbol
    categories := categoriesOf symbol
    attached := attached
    sections := sectionsOf looksLikeEvent attached }

/-- The class pages of a reference, in the order of the class names. -/
def plan (looksLikeEvent : Symbol → Bool) (includePrivate : Bool) (reference : Reference) :
    List ClassPage :=
  let visible := reference.symbols.filter (isVisible includePrivate)
  Text.sortOn ClassPage.name ((classSymbols visible).map (classPage looksLikeEvent visible))

end Page

end LuauReference
