/-
This file holds what a documentation block says: its description, the kind of thing it documents,
the entries for parameters, results and errors, and a set of marks. A record is built tag by tag
while the lines of a block are read.
-/

import LuauReference.Comment.Block

namespace LuauReference

namespace Doc

/-- An entry for a parameter, a result or an error. Its description grows line by line. -/
structure Entry where
  name : Option Text := none
  type : Option Text := none
  lines : List Text := []
  deriving DecidableEq, Repr

/-- The description of an entry, if it has one. -/
def Entry.description (entry : Entry) : Option Text :=
  let text := Text.trim (Text.join "\n" entry.lines)
  if text.isEmpty then none else some text

/-- A documented field of a table. -/
structure Field where
  name : Text
  type : Option Text := none
  description : Option Text := none
  deriving DecidableEq, Repr

/-- The kinds of things that a tag can declare. -/
inductive Kind
  | «class»
  | interface
  | type
  | property
  | function
  | constructor
  deriving DecidableEq, Repr

/-- The word for a kind. -/
def Kind.word : Kind → Text
  | .class => "class"
  | .interface => "interface"
  | .type => "type"
  | .property => "property"
  | .function => "function"
  | .constructor => "constructor"

/-- What a tag declares to be documented. -/
structure Declared where
  kind : Kind
  name : Text
  type : Option Text := none
  isMethod : Bool := false
  deriving DecidableEq, Repr

/-- A note that something should no longer be used. -/
structure Deprecation where
  version : Option Text := none
  description : Option Text := none
  deriving DecidableEq, Repr

/-- A link to documentation elsewhere. -/
structure External where
  name : Text
  url : Text
  deriving DecidableEq, Repr

/-- Visibilities other than public. -/
inductive Visibility
  | hidden
  | ignored
  deriving DecidableEq, Repr

/-- The word for a visibility. -/
def Visibility.word : Visibility → Text
  | .hidden => "private"
  | .ignored => "ignored"

/-- Where a function may run. -/
inductive Realm
  | server
  | client
  | plugin
  deriving DecidableEq, Repr

/-- The word for a realm. -/
def Realm.word : Realm → Text
  | .server => "server"
  | .client => "client"
  | .plugin => "plugin"

/-- The word for a realm in a title. -/
def Realm.title : Realm → Text
  | .server => "Server"
  | .client => "Client"
  | .plugin => "Plugin"

/-- All realms, in the order in which they are shown. -/
def Realm.all : List Realm :=
  [.server, .client, .plugin]

/-- The marks of a record: what its tags say beside its entries. -/
structure Marks where
  within : Option Text := none
  yields : Bool := false
  readonly : Bool := false
  visibility : Option Visibility := none
  since : Option Text := none
  unreleased : Bool := false
  deprecated : Option Deprecation := none
  indexName : Option Text := none
  inheritDoc : Option Text := none
  includes : List Text := []
  snippets : List Text := []
  aliases : List Text := []
  event : Bool := false
  callback : Bool := false
  extends_ : List Text := []
  categories : List Text := []
  deriving DecidableEq, Repr

/-- What one documentation block says. -/
structure Record where
  description : List Text := []
  declared : List Declared := []
  fields : List Field := []
  params : List Entry := []
  returns : List Entry := []
  errors : List Entry := []
  labels : List Text := []
  realms : List Realm := []
  externals : List External := []
  marks : Marks := {}
  deriving DecidableEq, Repr

/-- The declaration that counts: the first one. -/
def Record.primary (record : Record) : Option Declared :=
  record.declared.head?

/-- The summary and the whole of a description: blank lines in front and blanks at the end are
dropped, and the summary is the first line that is not blank. -/
def summarize (lines : List Text) : Text × Text :=
  let text := Text.trimEnd (Text.join "\n" (Text.dropBlankLines lines))
  (Text.firstLine text, text)

end Doc

end LuauReference
