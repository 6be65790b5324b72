/-
# Issues

What can be wrong with a file that is outlined all the same. An issue never stops anything: the part
that causes it is left out, and the issue is recorded with the file.
-/
import GoOutline.Tree.Vocabulary

namespace GoOutline

/-- A part that cannot stand where it stands. -/
inductive Misplaced where
  /-- A declaration that could not be understood. -/
  | badDecl
  /-- A spec of another kind than its declaration. -/
  | spec (group : DeclGroup)
  /-- A definition of a type that could not be understood. -/
  | badType
  /-- A struct field that is marked as embedded but has names, or the other way round. -/
  | structField (embedded : Bool)
  /-- A parameter that is marked as embedded. -/
  | param
  /-- A receiver whose type is not a plain name. -/
  | receiver
deriving DecidableEq, Repr

namespace Misplaced

/-- Where the part stands. -/
def context : Misplaced → String
  | .badDecl => "top-level declaration"
  | .spec .imports => "import declaration"
  | .spec .types => "type declaration"
  | .spec .consts => "value declaration"
  | .spec .vars => "value declaration"
  | .badType => "type declaration"
  | .structField _ => "struct field list"
  | .param => "parameter list"
  | .receiver => "method receiver"

/-- What the part is. -/
def found : Misplaced → String
  | .badDecl => "bad declaration"
  | .spec _ => "mismatched spec"
  | .badType => "bad type"
  | .structField true => "embedded field"
  | .structField false => "unnamed field"
  | .param => "embedded field"
  | .receiver => "non-identifier receiver type"

end Misplaced

/-- Something wrong with a file. -/
inductive Issue where
  | unexpected (part : Misplaced)
  | redeclared (name : String)
  | valueCount (name : String) (names values : Nat)
  | packageMismatch (expected found : String)
deriving DecidableEq, Repr

/-- The text of an issue. -/
def Issue.message : Issue → String
  | .unexpected part => "unexpected " ++ part.found ++ " in " ++ part.context
  | .redeclared name => name ++ " redeclared in this file"
  | .valueCount name names values =>
    name ++ ": " ++ toString names ++ " name(s) but " ++ toString values ++ " value(s)"
  | .packageMismatch expected found =>
    "file declares package " ++ found ++ ", expected " ++ expected

end GoOutline
