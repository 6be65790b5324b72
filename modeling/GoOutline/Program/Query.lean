/-
# Queries

Selections from the declarations of a program. All of them go through the declarations in the same
order: packages in load order, files in their order, declarations in source order.
-/
import GoOutline.Program.Basic

namespace GoOutline.Program

/-! ## By kind -/

/-- The declarations with a property. -/
def declsWhere (p : Program) (pred : Decl → Bool) : List Decl := p.decls.filter pred

/-- The declarations of a kind. -/
def ofKind (p : Program) (k : DeclKind) : List Decl := p.declsWhere fun d => d.kind = k

/-- The declarations of a kind in one package. -/
def ofKindIn (p : Program) (path : String) (k : DeclKind) : List Decl :=
  (p.packageDecls path).filter fun d => d.kind = k

/-- The first declaration of a kind with a name. -/
def find? (p : Program) (k : DeclKind) (name : String) : Option Decl :=
  p.decls.find? fun d => d.kind = k && d.name == name

/-- What the declarations of a kind consist of. -/
def payloads (p : Program) (k : DeclKind) : List k.Payload := p.decls.filterMap (Decl.as? k)

/-- What the declarations of a kind in one package consist of. -/
def payloadsIn (p : Program) (path : String) (k : DeclKind) : List k.Payload :=
  (p.packageDecls path).filterMap (Decl.as? k)

/-- What the first declaration of a kind with a name consists of. -/
def payload? (p : Program) (k : DeclKind) (name : String) : Option k.Payload :=
  (p.payloads k).find? fun d => (k.header d).name == name

/-! ## By type -/

/-- The text without a pointer sign in front. -/
def withoutStar (text : String) : String :=
  match text.toList with
  | '*' :: rest => String.ofList rest
  | _ => text

/-- Whether the receiver of a method is of the named type or a pointer to it. -/
def isMethodOf (type : String) (m : MethodDecl) : Bool :=
  m.receiver.any fun r => withoutStar r.type == withoutStar type

/-- The methods of a type, given by its name or as a pointer. -/
def methodSet (p : Program) (path type : String) : List MethodDecl :=
  (p.payloadsIn path .method).filter (isMethodOf type)

/-- The variables of a package whose type is written so. -/
def varsOfType (p : Program) (path type : String) : List ValueDecl :=
  (p.payloadsIn path .var).filter fun d => d.type == type

/-- The constants of a package whose type is written so. -/
def constsOfType (p : Program) (path type : String) : List ValueDecl :=
  (p.payloadsIn path .const).filter fun d => d.type == type

/-- The types of a package that are defined as the type written so. -/
def typesOfType (p : Program) (path type : String) : List TypeDecl :=
  (p.payloadsIn path .type).filter fun d => d.underlying == type

/-- The field names of the first struct with a name, none if there is no such struct. -/
def fieldNames (p : Program) (path name : String) : List String :=
  (((p.payloadsIn path .struct).find? fun (d : StructDecl) => d.name == name).map
    StructDecl.fieldNames).getD []

end GoOutline.Program
