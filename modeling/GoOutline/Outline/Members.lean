/-
# Members of a declaration

Struct fields, parameters, results, type parameters and interface elements are written in lists and
outlined as maps. An entry of a list may bind several names, which become one field each; an entry
that binds none gets a key from its type. Entries that cannot stand in their list, and entries whose
key is in use, are left out and reported.
-/
import GoOutline.Outline.Decl
import GoOutline.Outline.Issue
import GoOutline.Source.Printer

namespace GoOutline

/-! ## Collecting into a map -/

/-- An item on its way into a map: an entry, with the name under which a repetition of it is
reported, or an issue in place of one. -/
inductive Item (V : Type) where
  | entry (key label : String) (value : V)
  | issue (issue : Issue)

/-- Collects items in order. The first entry of each key stays, and every later one is an issue. -/
def collect {V : Type} (m : OrderedMap V) : List (Item V) → OrderedMap V × List Issue
  | [] => (m, [])
  | .issue i :: items =>
    let (m, issues) := collect m items
    (m, i :: issues)
  | .entry key label value :: items =>
    match m.insertNew key value with
    | .ok (_, m) => collect m items
    | .error _ =>
      let (m, issues) := collect m items
      (m, .redeclared label :: issues)

/-! ## Field lists -/

/-- The two kinds of lists. Entries without a name are embedded fields in a struct and unnamed
parameters in a parameter list. -/
inductive FieldListKind where
  | struct | params
deriving DecidableEq, Repr

/-- The text before a number sign and an index: keys of this form tell equal texts apart. -/
def indexedKey (text : String) (i : Nat) : String := text ++ "#" ++ toString i

/-- The name under which a repeated field is reported. -/
def Field.label (f : Field) : String := if f.name = "" then f.type else f.name

/-- The key of the `i`-th field of a list. Unnamed parameters and the blank name may repeat. -/
def Field.key (kind : FieldListKind) (i : Nat) (f : Field) : String :=
  if f.unnamed then
    match kind with
    | .struct => f.type
    | .params => indexedKey f.type i
  else if f.name = "_" then indexedKey f.name i
  else f.name

namespace Source.Field

/-- What is wrong with an entry of a list of the given kind, if anything is. -/
def misplaced? (kind : FieldListKind) : Field → Option Misplaced
  | .mk names _ _ _ embedded _ _ =>
    match kind with
    | .struct => if embedded = names.isEmpty then none else some (.structField embedded)
    | .params => if embedded then some .param else none

/-- The fields of an entry: one for each name, or a single unnamed one. -/
def expand : Field → List GoOutline.Field
  | .mk names variadic type tag _ doc comment =>
    let unnamed : GoOutline.Field :=
      { type := markText "..." variadic ++ type.text, tag, unnamed := true, variadic, doc, comment }
    if names.isEmpty then [unnamed]
    else names.map fun name => { unnamed with name, unnamed := false }

end Source.Field

/-- The items of a field list whose first field has number `i`. Entries that cannot stand in the
list are not counted. -/
def fieldItems (kind : FieldListKind) : Nat → List Source.Field → List (Item Field)
  | _, [] => []
  | i, entry :: entries =>
    match entry.misplaced? kind with
    | some part => .issue (.unexpected part) :: fieldItems kind i entries
    | none =>
      (entry.expand.zipIdx i).map (fun (f, j) => .entry (f.key kind j) f.label f) ++
        fieldItems kind (i + entry.expand.length) entries

/-- The fields of a list. -/
def outlineFields (kind : FieldListKind) (entries : List Source.Field) : Fields × List Issue :=
  collect ∅ (fieldItems kind 0 entries)

/-- Fields that are stored under their own names. -/
def collectNamed (fields : List Field) : Fields × List Issue :=
  collect ∅ (fields.map fun f => .entry f.name f.label f)

/-- The type parameters of a declaration; the type of such a field is the constraint. -/
def outlineTypeParams (decls : List Source.TypeParamDecl) : Fields × List Issue :=
  collectNamed (decls.flatMap fun d =>
    d.names.map fun name => { name, type := d.constraint.text })

/-! ## Signatures and receivers -/

/-- Parameters and results. -/
structure SignatureFields where
  params : Fields
  results : Fields

/-- The results of a signature. A type that is held for itself is a field without a name. -/
def outlineResults : Source.Results → Fields × List Issue
  | .none => (∅, [])
  | .bare type =>
    let field : Field := { type := type.text, unnamed := true }
    collect ∅ [.entry (indexedKey field.type 0) field.label field]
  | .single field => outlineFields .params [field]
  | .list fields => outlineFields .params fields

/-- The parameters and results of a signature. -/
def outlineSignature (sig : Source.Signature) : SignatureFields × List Issue :=
  let (params, paramIssues) := outlineFields .params sig.params
  let (results, resultIssues) := outlineResults sig.results
  (⟨params, results⟩, paramIssues ++ resultIssues)

/-- The type of a receiver without parentheses and at most one pointer, and whether there was a
pointer. -/
def receiverBase (type : Source.TypeExpr) : Source.TypeExpr × Bool :=
  match type.stripParens with
  | .pointer elem => (elem.stripParens, true)
  | base => (base, false)

/-- The type text of a receiver, the names that its type arguments bind, and what is wrong. -/
def receiverType : Source.TypeExpr → String × List String × List Issue
  | .named none name args => (name, Source.typeTexts args, [])
  | other => (other.text, [], [.unexpected .receiver])

/-- The receiver and the type parameters that it binds. -/
def outlineReceiver (recv : Source.Receiver) : Field × Fields × List Issue :=
  let (base, pointer) := receiverBase recv.type
  let (type, bound, typeIssues) := receiverType base
  let (typeParams, paramIssues) :=
    collectNamed ((bound ++ recv.typeParams).map fun name => { name })
  ({ name := recv.name, type, pointer }, typeParams, typeIssues ++ paramIssues)

/-! ## Interfaces -/

/-- The two maps of an interface with the issues so far. -/
structure InterfaceMembers where
  methods : OrderedMap MethodDecl := ∅
  embeds : Fields := ∅
  issues : List Issue := []

/-- The method of an interface. -/
def interfaceMethod (file : FileId) (doc : List String) (name : String)
    (sig : Source.Signature) : MethodDecl × List Issue :=
  let (fields, issues) := outlineSignature sig
  ({ name, file, doc, typeParams := ∅, params := fields.params, results := fields.results
     receiver := none, receiverTypeParams := ∅ }, issues)

/-- Adds an element. Methods are stored under their names, embedded types under their texts. -/
def InterfaceMembers.add (file : FileId) (m : InterfaceMembers) :
    Source.InterfaceElem → InterfaceMembers
  | .method doc name sig =>
    let (method, issues) := interfaceMethod file doc name sig
    let (methods, repeated) := collect m.methods [.entry name name method]
    { m with methods, issues := m.issues ++ issues ++ repeated }
  | .union terms =>
    let type := Source.unionText terms
    let (embeds, repeated) := collect m.embeds [.entry type type { type, unnamed := true }]
    { m with embeds, issues := m.issues ++ repeated }

/-- The members of an interface. -/
def outlineInterface (file : FileId) (elems : List Source.InterfaceElem) : InterfaceMembers :=
  elems.foldl (InterfaceMembers.add file) {}

end GoOutline
