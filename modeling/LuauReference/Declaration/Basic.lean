/-
This file holds the declarations that a documentation block can be attached to: a function with its
signature, a field that is assigned, a table type with its fields, and a local table that serves as
a class. Each carries the line it stands on.
-/

import LuauReference.Text.Blank

namespace LuauReference

namespace Declaration

/-- A parameter of a function. -/
structure Param where
  name : Text
  type : Option Text := none
  deriving DecidableEq, Repr

/-- A field of a table type. -/
structure TableField where
  name : Text
  type : Option Text := none
  description : Option Text := none
  line : Option Nat := none
  deriving DecidableEq, Repr

/-- The signature of a function: its name, its owner, and whether it is called with a colon. -/
structure Signature where
  name : Text
  within : Option Text
  isMethod : Bool
  params : List Param
  returnType : Option Text
  deriving DecidableEq, Repr

end Declaration

/-- A declaration, without its place. -/
inductive Declaration.Shape
  | function (signature : Declaration.Signature)
  | property (name within : Text)
  | type (name : Text) (fields : List Declaration.TableField) (lastLine : Nat)
  | class_ (name : Text)
  deriving DecidableEq, Repr

/-- A declaration with the number and the text of its line. -/
structure Declaration where
  shape : Declaration.Shape
  lineNumber : Nat
  line : Text
  deriving DecidableEq, Repr

namespace Declaration

/-- The name that is declared. -/
def name (declaration : Declaration) : Text :=
  match declaration.shape with
  | .function signature => signature.name
  | .property name _ => name
  | .type name _ _ => name
  | .class_ name => name

/-- The owner that is named in front of a function or property. -/
def within? (declaration : Declaration) : Option Text :=
  match declaration.shape with
  | .function signature => signature.within
  | .property _ owner => some owner
  | .type .. => none
  | .class_ _ => none

/-- The signature of a function declaration. -/
def signature? (declaration : Declaration) : Option Signature :=
  match declaration.shape with
  | .function signature => some signature
  | _ => none

/-- The fields of a table type. -/
def tableFields? (declaration : Declaration) : Option (List TableField) :=
  match declaration.shape with
  | .type _ fields _ => some fields
  | _ => none

end Declaration

end LuauReference
