/-
This file holds what can be chosen about pages: their language and route, which symbols they show,
the titles, labels and categories, where source links lead and how signatures are laid out.
-/

import LuauReference.Text.Named

namespace LuauReference

/-- Where source links lead: a repository, a branch, the folder of the project in it, and what the
paths of the project are to lose in front. -/
structure SourceLinks where
  repository : Text
  branch : Text := "main"
  folder : Text := []
  dropped : Text := []
  deriving DecidableEq, Repr

/-- How the parameters of a function are laid out: several of them on lines of their own, or all on
one line. -/
inductive SignatureStyle
  | block
  | inline
  deriving DecidableEq, Repr

/-- The word for a style. -/
def SignatureStyle.word : SignatureStyle → Text
  | .block => "block"
  | .inline => "inline"

/-- The style with a word. All but one word mean a single line. -/
def SignatureStyle.ofWord (word : Text) : SignatureStyle :=
  if word = "block" then .block else .inline

/-- What can be chosen about pages. -/
structure PageSettings where
  lang : Text := "luau"
  route : Text := "reference/luau"
  includePrivate : Bool := false
  overviewTitle : Text := "Overview"
  defaultCategory : Text := "Classes"
  categoryOrder : List Text := []
  labels : Named Text := []
  source : Option SourceLinks := none
  signalsAreEvents : Bool := true
  signatureStyle : SignatureStyle := .block
  deriving DecidableEq, Repr

/-! ### Labels -/

/-- The words that pages use unless others are chosen. -/
def defaultLabels : Named Text :=
  List.map (fun (name, label) => (String.toList name, String.toList label)) [
    ("summary", "Summary"), ("types", "Types"), ("interfaces", "Interfaces"),
    ("constructors", "Constructors"), ("properties", "Properties"), ("methods", "Methods"),
    ("functions", "Functions"), ("callbacks", "Callbacks"), ("events", "Events"),
    ("extends", "Extends"), ("parameters", "Parameters"), ("returns", "Returns"),
    ("errors", "Errors"), ("fields", "Fields"), ("name", "Name"), ("type", "Type"),
    ("description", "Description"), ("source", "View Source"), ("tags", "Tags"),
    ("classes", "classes"), ("noClasses", "No classes found."), ("classBadge", "Class"),
    ("typeBadge", "Type"), ("interfaceBadge", "Interface"), ("constructorBadge", "Constructor"),
    ("propertyBadge", "Property"), ("methodBadge", "Method"), ("functionBadge", "Function"),
    ("callbackBadge", "Callback"), ("eventBadge", "Event"), ("readonlyBadge", "Read Only"),
    ("yieldsBadge", "Yields"), ("privateBadge", "Private"), ("unreleasedBadge", "Unreleased"),
    ("deprecatedBadge", "Deprecated"), ("since", "Since")]

/-- The words that pages use when some are chosen. An empty choice is none. -/
def mergeLabels (chosen : Named Text) : Named Text :=
  defaultLabels.update (chosen.filter fun (_, label) => !label.isEmpty)

/-- The label with a name. -/
def PageSettings.label (settings : PageSettings) (name : Text) : Text :=
  ((mergeLabels settings.labels).get? name).getD name

/-- The language of code blocks. -/
def fenceLanguage (lang : Text) : Text :=
  if lang.isEmpty || lang = "luau" then "lua" else lang

end LuauReference
