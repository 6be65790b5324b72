/-
# Forms that look alike

Two source forms may differ and still look alike: they are shown by the same text, and they are
outlined in the same way. A result without a name is the case in point. Held as a type or as a list
of one entry, it has the same text and becomes the same field under the same key. Whatever contains
such results, near or deep inside, then looks alike as well.

An outline takes more from a type than its text. The type of a receiver is looked at behind its
parentheses and its pointer, and a type that is defined may have fields or elements of its own.
-/
import GoOutline.Outline.File
import GoOutline.Proofs.Source.Rendering

namespace GoOutline

open Source

/-! ## One result without a name -/

namespace Source

/-- The results with a type that is held for itself put into a list. -/
def Results.listed : Results → Results
  | .bare type => .single (.mk [] false type Option.none false [] [])
  | results => results

/-- The entries of the results in a list. -/
def Results.entries (results : Results) : List Field :=
  match results.listed with
  | .single field => [field]
  | .list fields => fields
  | _ => []

lemma Results.text_listed (results : Results) : results.listed.text = results.text := by
  cases results with
  | bare type => simp [listed, text, Field.paramText, namesText, markText]
  | _ => rfl

end Source

/-- An entry that says nothing but its type is the field that the type alone would be. -/
lemma fieldItems_unnamed (type : TypeExpr) :
    fieldItems .params 0 [.mk [] false type none false [] []] =
      [.entry (indexedKey type.text 0) type.text { type := type.text, unnamed := true }] := by
  simp [fieldItems, Source.Field.misplaced?, Source.Field.expand, markText, Field.key, Field.label]

lemma outlineResults_listed (results : Results) :
    outlineResults results.listed = outlineResults results := by
  cases results with
  | bare type =>
    show outlineFields .params [.mk [] false type none false [] []] = _
    rw [outlineFields, fieldItems_unnamed]
    rfl
  | _ => rfl

lemma outlineResults_eq (results : Results) :
    outlineResults results = outlineFields .params results.entries := by
  rw [← outlineResults_listed, Results.entries]
  cases results with
  | none => rfl
  | bare type => rfl
  | single field => rfl
  | list fields => rfl

/-! ## Entries of lists -/

/-- The entries differ at most in types with the same text. -/
inductive Source.Field.Alike : Source.Field → Source.Field → Prop
  | mk {names : List String} {variadic : Bool} {type type' : TypeExpr} {tag : Option String}
    {embedded : Bool} {doc comment : Lines} (htext : type'.text = type.text) :
    Alike (.mk names variadic type tag embedded doc comment)
      (.mk names variadic type' tag embedded doc comment)

namespace Source.Field.Alike

variable {f f' : Source.Field} {fs fs' : List Source.Field}

lemma paramText (h : f.Alike f') : f'.paramText = f.paramText := by
  cases h with
  | mk htext => rw [Field.paramText, Field.paramText, htext]

lemma structText (h : f.Alike f') : f'.structText = f.structText := by
  cases h with
  | mk htext => rw [Field.structText, Field.structText, htext]

lemma expand (h : f.Alike f') : f'.expand = f.expand := by
  cases h with
  | mk htext => rw [Field.expand, Field.expand, htext]

lemma misplaced? (h : f.Alike f') (kind : FieldListKind) :
    f'.misplaced? kind = f.misplaced? kind := by
  cases h
  rfl

lemma paramTexts (h : List.Forall₂ Alike fs fs') : Source.paramTexts fs' = Source.paramTexts fs := by
  rw [paramTexts_eq, paramTexts_eq, h.map_eq fun _ _ hf => hf.paramText]

lemma structFieldTexts (h : List.Forall₂ Alike fs fs') :
    Source.structFieldTexts fs' = Source.structFieldTexts fs := by
  rw [structFieldTexts_eq, structFieldTexts_eq, h.map_eq fun _ _ hf => hf.structText]

lemma outlineFields (h : List.Forall₂ Alike fs fs') (kind : FieldListKind) :
    GoOutline.outlineFields kind fs' = GoOutline.outlineFields kind fs := by
  have hitems (i : Nat) : fieldItems kind i fs' = fieldItems kind i fs := by
    induction h generalizing i with
    | nil => rfl
    | cons hf _ ih => simp only [fieldItems, hf.misplaced?, hf.expand, ih]
  rw [GoOutline.outlineFields, GoOutline.outlineFields, hitems]

end Source.Field.Alike

/-! ## Signatures and elements of interfaces -/

/-- The results have the same text and the same outline. -/
structure Source.Results.Alike (r r' : Results) : Prop where
  text : r'.text = r.text
  outline : outlineResults r' = outlineResults r

namespace Source.Results.Alike

variable {r r' r'' : Results}

lemma refl (r : Results) : r.Alike r := ⟨rfl, rfl⟩

lemma symm (h : r.Alike r') : r'.Alike r := ⟨h.text.symm, h.outline.symm⟩

lemma trans (h : r.Alike r') (h' : r'.Alike r'') : r.Alike r'' :=
  ⟨h'.text.trans h.text, h'.outline.trans h.outline⟩

lemma listed (r : Results) : r.Alike r.listed := ⟨r.text_listed, outlineResults_listed r⟩

lemma bare {type type' : TypeExpr} (htext : type'.text = type.text) :
    (bare type).Alike (bare type') := by
  refine ⟨?_, ?_⟩
  · simp only [Results.text, htext]
  · simp only [outlineResults, htext]

lemma single {f f' : Source.Field} (h : f.Alike f') : (single f).Alike (single f') := by
  refine ⟨?_, ?_⟩
  · rw [Results.text, Results.text, h.paramText]
  · exact Field.Alike.outlineFields (.cons h .nil) .params

lemma list {fs fs' : List Source.Field} (h : List.Forall₂ Field.Alike fs fs') :
    (list fs).Alike (list fs') := by
  refine ⟨?_, Field.Alike.outlineFields h .params⟩
  cases h with
  | nil => rfl
  | cons hf hfs => simp only [Results.text, hf.paramText, Field.Alike.paramTexts hfs]

end Source.Results.Alike

/-- The signatures have the same text and the same outline. -/
structure Source.Signature.Alike (sig sig' : Signature) : Prop where
  text : sig'.text = sig.text
  outline : outlineSignature sig' = outlineSignature sig

lemma Source.Signature.Alike.mk' {params params' : List Source.Field} {results results' : Results}
    (hparams : List.Forall₂ Field.Alike params params') (hresults : results.Alike results') :
    (Signature.mk params results).Alike (.mk params' results') := by
  refine ⟨?_, ?_⟩
  · rw [Signature.text, Signature.text, Field.Alike.paramTexts hparams, hresults.text]
  · simp only [outlineSignature, Signature.params, Signature.results,
      Field.Alike.outlineFields hparams, hresults.outline]

/-- The elements have the same text and go into an interface in the same way. -/
structure Source.InterfaceElem.Alike (e e' : InterfaceElem) : Prop where
  text : e'.text = e.text
  add : ∀ (file : FileId) (m : InterfaceMembers), m.add file e' = m.add file e

namespace Source.InterfaceElem.Alike

lemma method (doc : Lines) (name : String) {sig sig' : Signature} (h : sig.Alike sig') :
    (method doc name sig).Alike (method doc name sig') := by
  refine ⟨?_, fun file m => ?_⟩
  · rw [InterfaceElem.text, InterfaceElem.text, h.text]
  · simp only [InterfaceMembers.add, interfaceMethod, h.outline]

lemma union {ts us : List TypeTerm} (h : unionText us = unionText ts) :
    (union ts).Alike (union us) := by
  refine ⟨h, fun file m => ?_⟩
  simp only [InterfaceMembers.add, h]

variable {es es' : List InterfaceElem}

lemma elemTexts (h : List.Forall₂ Alike es es') : Source.elemTexts es' = Source.elemTexts es := by
  rw [elemTexts_eq, elemTexts_eq, h.map_eq fun _ _ he => he.text]

lemma outlineInterface (h : List.Forall₂ Alike es es') (file : FileId) :
    GoOutline.outlineInterface file es' = GoOutline.outlineInterface file es := by
  have hfold (m : InterfaceMembers) : es'.foldl (InterfaceMembers.add file) m =
      es.foldl (InterfaceMembers.add file) m := by
    induction h generalizing m with
    | nil => rfl
    | cons he _ ih => rw [List.foldl_cons, List.foldl_cons, he.add, ih]
  exact hfold {}

end Source.InterfaceElem.Alike

/-! ## Types -/

namespace Source

/-- Whether a type that is defined as this one has fields or elements of its own. -/
def TypeExpr.hasMembers : TypeExpr → Bool
  | .struct _ | .interface _ => true
  | _ => false

/-- A type without members is outlined by its text. -/
lemma TypeSpec.outline_of_text {x y : TypeExpr} (hx : x.hasMembers = false)
    (hy : y.hasMembers = false) (htext : y.text = x.text) (file : FileId) (g : GeneralDecl)
    (s : TypeSpec) : { s with type := y }.outline file g = { s with type := x }.outline file g := by
  have houtline {x : TypeExpr} (hx : x.hasMembers = false) :
      { s with type := x }.outline file g =
        (.type { name := s.name, file, doc := g.specDoc s.doc, underlying := x.text,
                 isAlias := s.isAlias, typeParams := (outlineTypeParams s.typeParams).1 },
          (outlineTypeParams s.typeParams).2) := by
    cases x <;> first | rfl | simp [TypeExpr.hasMembers] at hx
  rw [houtline hx, houtline hy, htext]

end Source

namespace Source.TypeExpr

/-- The types have the same text, and they say the same about a receiver, also in parentheses, and
about a type that is defined. -/
structure Alike (x y : TypeExpr) : Prop where
  text : y.text = x.text
  receiver : receiverType (receiverBase y).1 = receiverType (receiverBase x).1 ∧
    (receiverBase y).2 = (receiverBase x).2
  inner : receiverType y.stripParens = receiverType x.stripParens
  outline : ∀ (file : FileId) (g : GeneralDecl) (s : TypeSpec),
    { s with type := y }.outline file g = { s with type := x }.outline file g

/-- Whether more is asked of a type than its text. -/
def isOpen : TypeExpr → Bool
  | .named .. | .pointer _ | .paren _ | .struct _ | .interface _ => true
  | _ => false

variable {x y : TypeExpr}

lemma alike_of_text (hx : x.isOpen = false) (hy : y.isOpen = false) (htext : y.text = x.text) :
    x.Alike y := by
  have hstrip {x : TypeExpr} (hx : x.isOpen = false) : x.stripParens = x := by
    cases x <;> first | rfl | simp [isOpen] at hx
  have hbase {x : TypeExpr} (hx : x.isOpen = false) : receiverBase x = (x, false) := by
    rw [receiverBase, hstrip hx]
    cases x <;> first | rfl | simp [isOpen] at hx
  have htype {x : TypeExpr} (hx : x.isOpen = false) :
      receiverType x = (x.text, [], [.unexpected .receiver]) := by
    cases x <;> first | rfl | simp [isOpen] at hx
  refine ⟨htext, ?_, ?_, fun file g s => ?_⟩
  · rw [hbase hx, hbase hy, htype hx, htype hy, htext]
    exact ⟨rfl, rfl⟩
  · rw [hstrip hx, hstrip hy, htype hx, htype hy, htext]
  · have hmembers {x : TypeExpr} (hx : x.isOpen = false) : x.hasMembers = false := by
      cases x <;> first | rfl | simp [isOpen] at hx
    exact TypeSpec.outline_of_text (hmembers hx) (hmembers hy) htext file g s

lemma alike_named {pkg : Option String} {name : String} {args args' : List TypeExpr}
    (hargs : typeTexts args' = typeTexts args) :
    (named pkg name args).Alike (named pkg name args') := by
  have htext : (named pkg name args').text = (named pkg name args).text := by
    cases pkg <;> simp only [TypeExpr.text, hargs]
  have htype : receiverType (named pkg name args') = receiverType (named pkg name args) := by
    cases pkg with
    | none => simp only [receiverType, hargs]
    | some pkg => simp only [receiverType, htext]
  exact ⟨htext, ⟨htype, rfl⟩, htype, TypeSpec.outline_of_text rfl rfl htext⟩

/-- Behind a pointer a receiver has a type in parentheses. -/
lemma Alike.pointer (h : x.Alike y) : (pointer x).Alike (pointer y) := by
  have htext : (TypeExpr.pointer y).text = (TypeExpr.pointer x).text := by
    simp only [TypeExpr.text, h.text]
  have htype : receiverType (TypeExpr.pointer y) = receiverType (TypeExpr.pointer x) := by
    simp only [receiverType, htext]
  exact ⟨htext, ⟨h.inner, rfl⟩, htype, TypeSpec.outline_of_text rfl rfl htext⟩

lemma Alike.paren (h : x.Alike y) : (paren x).Alike (paren y) := by
  have htext : (TypeExpr.paren y).text = (TypeExpr.paren x).text := by
    simp only [TypeExpr.text, h.text]
  exact ⟨htext, h.receiver, h.inner, TypeSpec.outline_of_text rfl rfl htext⟩

lemma alike_struct {fs fs' : List Field} (h : List.Forall₂ Field.Alike fs fs') :
    (struct fs).Alike (struct fs') := by
  have htext : (struct fs').text = (struct fs).text := by
    simp only [TypeExpr.text, Field.Alike.structFieldTexts h]
  have htype : receiverType (struct fs') = receiverType (struct fs) := by
    simp only [receiverType, htext]
  refine ⟨htext, ⟨htype, rfl⟩, htype, fun file g s => ?_⟩
  simp only [TypeSpec.outline, Field.Alike.outlineFields h]

lemma alike_interface {es es' : List InterfaceElem} (h : List.Forall₂ InterfaceElem.Alike es es') :
    (interface es).Alike (interface es') := by
  have htext : (interface es').text = (interface es).text := by
    simp only [TypeExpr.text, InterfaceElem.Alike.elemTexts h]
  have htype : receiverType (interface es') = receiverType (interface es) := by
    simp only [receiverType, htext]
  refine ⟨htext, ⟨htype, rfl⟩, htype, fun file g s => ?_⟩
  simp only [TypeSpec.outline, InterfaceElem.Alike.outlineInterface h]

lemma Alike.typeTexts {xs ys : List TypeExpr} (h : List.Forall₂ Alike xs ys) :
    Source.typeTexts ys = Source.typeTexts xs := by
  rw [typeTexts_eq, typeTexts_eq, h.map_eq fun _ _ hx => hx.text]

lemma Alike.optTypeText {x y : Option TypeExpr} (h : Option.Rel Alike x y) :
    Source.optTypeText y = Source.optTypeText x := by
  cases h with
  | none => rfl
  | some hx => exact hx.text

end Source.TypeExpr

/-! ## Expressions

Nothing but its text is ever taken from an expression. -/

namespace Source

/-- The expressions have the same text. -/
structure Expr.Alike (e e' : Expr) : Prop where
  text : e'.text = e.text

/-- The operands have the same text. -/
structure Operand.Alike (x x' : Operand) : Prop where
  text : x'.text = x.text

/-- The keys or values have the same text. -/
structure Element.Alike (e e' : Element) : Prop where
  text : e'.text = e.text

/-- The elements have the same text. -/
structure KeyedElem.Alike (e e' : KeyedElem) : Prop where
  text : e'.text = e.text

/-- In front of the same value the keys have the same text. -/
def Key.Alike (k k' : Key) : Prop := ∀ value : Element, (KeyedElem.mk k value).Alike (.mk k' value)

lemma Expr.Alike.exprTexts {es es' : List Expr} (h : List.Forall₂ Expr.Alike es es') :
    Source.exprTexts es' = Source.exprTexts es := by
  rw [exprTexts_eq, exprTexts_eq, h.map_eq fun _ _ he => he.text]

lemma Expr.Alike.optExprText {e e' : Option Expr} (h : Option.Rel Expr.Alike e e') :
    Source.optExprText e' = Source.optExprText e := by
  cases h with
  | none => rfl
  | some he => exact he.text

lemma Operand.Alike.operandTexts {xs xs' : List Operand} (h : List.Forall₂ Operand.Alike xs xs') :
    Source.operandTexts xs' = Source.operandTexts xs := by
  rw [operandTexts_eq, operandTexts_eq, h.map_eq fun _ _ hx => hx.text]

lemma KeyedElem.Alike.keyedTexts {es es' : List KeyedElem} (h : List.Forall₂ KeyedElem.Alike es es') :
    Source.keyedTexts es' = Source.keyedTexts es := by
  rw [keyedTexts_eq, keyedTexts_eq, h.map_eq fun _ _ he => he.text]

lemma KeyedElem.Alike.braces {es es' : List KeyedElem} (h : List.Forall₂ KeyedElem.Alike es es') :
    (Element.braces es).Alike (.braces es') := by
  constructor
  rw [Element.text, Element.text, Alike.keyedTexts h]

lemma Element.Alike.key {e e' : Element} (h : e.Alike e') : (Key.element e).Alike (.element e') := by
  intro value
  constructor
  rw [KeyedElem.text, KeyedElem.text, h.text]

lemma Element.Alike.value {e e' : Element} (h : e.Alike e') (k : Key) :
    (KeyedElem.mk k e).Alike (.mk k e') := by
  constructor
  cases k <;> rw [KeyedElem.text, KeyedElem.text, h.text]

end Source

/-! ## Declarations -/

namespace Source

/-- All that a declaration tells its specs: what group they belong to and what documentation they
have. -/
structure GeneralDecl.Alike (g g' : GeneralDecl) : Prop where
  group : g'.group = g.group
  specDoc : ∀ doc, g'.specDoc doc = g.specDoc doc

variable {file : FileId} {g g' : GeneralDecl}

namespace GeneralDecl

/-- What a spec contributes to an import declaration. -/
def importEntry (g : GeneralDecl) : Spec → Entry
  | .imported s => s.entry g
  | _ => g.misplacedSpec

lemma entries_eq_imports (hgroup : g.group = .imports) :
    g.entries file = g.specs.map g.importEntry := by
  simp only [entries, hgroup]
  refine List.map_congr_left fun s _ => ?_
  cases s <;> rfl

lemma entries_eq_types (hgroup : g.group = .types) :
    g.entries file = g.specs.flatMap (g.typeEntries file) := by
  simp only [entries, hgroup]

lemma alike_of_doc (hgroup : g'.group = g.group) (hdoc : g.doc = none) (hdoc' : g'.doc = none) :
    g.Alike g' :=
  ⟨hgroup, fun doc => by simp [specDoc, hdoc, hdoc']⟩

namespace Alike

lemma misplacedSpec_eq (h : g.Alike g') : g'.misplacedSpec = g.misplacedSpec := by
  rw [misplacedSpec, misplacedSpec, h.group]

lemma importEntry_eq (h : g.Alike g') : g'.importEntry = g.importEntry := by
  funext s
  cases s with
  | imported s => rw [importEntry, importEntry, ImportSpec.entry, ImportSpec.entry, h.specDoc]
  | _ => exact h.misplacedSpec_eq

lemma typeEntries_eq (h : g.Alike g') : g'.typeEntries file = g.typeEntries file := by
  funext s
  cases s with
  | type s => simp only [typeEntries, TypeSpec.entries, TypeSpec.outline, h.specDoc]
  | badType => rfl
  | instanceAlias => rfl
  | _ => exact congrArg (fun e => [e]) h.misplacedSpec_eq

lemma valueEntries_eq (h : g.Alike g') (carried : String) (specs : List Spec) :
    valueEntries file g' carried specs = valueEntries file g carried specs := by
  induction specs generalizing carried with
  | nil => rfl
  | cons s specs ih =>
    cases s with
    | value s =>
      have hdecl (d : ValueDecl) : g'.valueDecl d = g.valueDecl d := by
        rw [valueDecl, valueDecl, h.group]
      simp only [valueEntries, ValueSpec.entries, hdecl, h.specDoc, ih]
    | _ => simp only [valueEntries, h.misplacedSpec_eq, ih]

end Alike

end GeneralDecl

/-- The type parameters have the same names and constraints with the same text. -/
structure TypeParamDecl.Alike (d d' : TypeParamDecl) : Prop where
  names : d'.names = d.names
  constraint : d'.constraint.text = d.constraint.text

lemma TypeParamDecl.Alike.outlineTypeParams {ds ds' : List TypeParamDecl}
    (h : List.Forall₂ TypeParamDecl.Alike ds ds') :
    GoOutline.outlineTypeParams ds' = GoOutline.outlineTypeParams ds := by
  rw [GoOutline.outlineTypeParams, GoOutline.outlineTypeParams]
  refine congrArg collectNamed (h.flatMap_eq fun d d' hd => ?_)
  rw [hd.names, hd.constraint]

/-- The specs have the same names and documentation, and types and values with the same texts. -/
structure ValueSpec.Alike (s s' : ValueSpec) : Prop where
  doc : s'.doc = s.doc
  names : s'.names = s.names
  type : s'.type.map TypeExpr.text = s.type.map TypeExpr.text
  values : s'.values.map Expr.text = s.values.map Expr.text

/-- The specs have the same documentation and define the same. -/
structure TypeSpec.Alike (s s' : TypeSpec) : Prop where
  doc : s'.doc = s.doc
  outline : ∀ (file : FileId) (g : GeneralDecl), s'.outline file g = s.outline file g

lemma TypeSpec.Alike.mk' {doc : Option Lines} {name : String} {params params' : List TypeParamDecl}
    {type type' : TypeExpr} {isAlias : Bool}
    (hparams : List.Forall₂ TypeParamDecl.Alike params params') (htype : type.Alike type') :
    (TypeSpec.mk doc name params type isAlias).Alike ⟨doc, name, params', type', isAlias⟩ := by
  refine ⟨rfl, fun file g => ?_⟩
  rw [htype.outline file g ⟨doc, name, params', type, isAlias⟩]
  simp only [TypeSpec.outline, TypeParamDecl.Alike.outlineTypeParams hparams]

/-- The specs are the same or look alike. -/
inductive Spec.Alike : Spec → Spec → Prop
  | refl (s : Spec) : Alike s s
  | value {s s' : ValueSpec} (h : s.Alike s') : Alike (.value s) (.value s')
  | type {s s' : TypeSpec} (h : s.Alike s') : Alike (.type s) (.type s')

namespace Spec.Alike

variable {s s' : Spec} {specs specs' : List Spec} {g : GeneralDecl} {file : FileId}

lemma lacksDoc (h : s.Alike s') : s'.lacksDoc = s.lacksDoc := by
  cases h with
  | refl => rfl
  | value h => rw [Spec.lacksDoc, Spec.lacksDoc, h.doc]
  | type h => rw [Spec.lacksDoc, Spec.lacksDoc, h.doc]

lemma any_lacksDoc (h : List.Forall₂ Alike specs specs') :
    specs'.any Spec.lacksDoc = specs.any Spec.lacksDoc := by
  induction h with
  | nil => rfl
  | cons hs _ ih => rw [List.any_cons, List.any_cons, hs.lacksDoc, ih]

lemma typeEntries (h : s.Alike s') : g.typeEntries file s' = g.typeEntries file s := by
  cases h with
  | refl => rfl
  | value h => rfl
  | type h => simp only [GeneralDecl.typeEntries, TypeSpec.entries, h.outline]

end Spec.Alike

lemma ValueSpec.Alike.entries {s s' : ValueSpec} (h : s.Alike s') (file : FileId) (g : GeneralDecl)
    (type : String) : s'.entries file g type = s.entries file g type := by
  have hlength : s'.values.length = s.values.length := by
    simpa using congrArg List.length h.values
  simp only [ValueSpec.entries, ValueSpec.countIssue?, h.values, h.names, h.doc, hlength]

lemma ValueSpec.Alike.carried {s s' : ValueSpec} (h : s.Alike s') (carried : String) :
    s'.type.elim carried TypeExpr.text = s.type.elim carried TypeExpr.text := by
  have helim (type : Option TypeExpr) :
      type.elim carried TypeExpr.text = (type.map TypeExpr.text).getD carried := by
    cases type <;> rfl
  rw [helim, helim, h.type]

lemma Spec.Alike.valueEntries {specs specs' : List Spec} (h : List.Forall₂ Alike specs specs')
    (file : FileId) (g : GeneralDecl) (carried : String) :
    Source.valueEntries file g carried specs' = Source.valueEntries file g carried specs := by
  induction h generalizing carried with
  | nil => rfl
  | @cons s _ _ _ hs _ ih =>
    cases hs with
    | refl =>
      cases s with
      | value s => simp only [Source.valueEntries, ih]
      | _ => exact congrArg (g.misplacedSpec :: ·) (ih carried)
    | value hs => simp only [Source.valueEntries, hs.carried, hs.entries, ih]
    | type => exact congrArg (g.misplacedSpec :: ·) (ih carried)

/-- A general declaration whose specs look alike contributes the same to an outline. -/
lemma Spec.Alike.entries {specs specs' : List Spec} (h : List.Forall₂ Alike specs specs')
    (doc : Option Lines) (group : DeclGroup) (grouped : Bool) (file : FileId) :
    (GeneralDecl.mk doc group grouped specs').entries file =
      (GeneralDecl.mk doc group grouped specs).entries file := by
  let g : GeneralDecl := ⟨doc, group, grouped, specs⟩
  have halike : g.Alike ⟨doc, group, grouped, specs'⟩ := ⟨rfl, fun _ => rfl⟩
  cases group with
  | imports =>
    refine h.map_eq fun s s' hs => ?_
    cases hs with
    | refl => cases s <;> rfl
    | value => rfl
    | type => rfl
  | types =>
    rw [GeneralDecl.entries_eq_types rfl, GeneralDecl.entries_eq_types rfl, halike.typeEntries_eq]
    exact h.flatMap_eq fun s s' hs => hs.typeEntries
  | consts => exact (halike.valueEntries_eq "" specs').trans (Spec.Alike.valueEntries h file g "")
  | vars => exact (halike.valueEntries_eq "" specs').trans (Spec.Alike.valueEntries h file g "")

/-- The receivers have the same name, bind the same names in brackets and have types that look
alike. -/
structure Receiver.Alike (r r' : Receiver) : Prop where
  name : r'.name = r.name
  type : r.type.Alike r'.type
  typeParams : r'.typeParams = r.typeParams

lemma Receiver.Alike.outline {r r' : Receiver} (h : r.Alike r') :
    outlineReceiver r' = outlineReceiver r := by
  simp only [outlineReceiver, h.name, h.typeParams, h.type.receiver.1, h.type.receiver.2]

/-- The declarations contribute the same to an outline. -/
def TopDecl.Alike (d d' : TopDecl) : Prop := ∀ file : FileId, d'.entries file = d.entries file

/-- Functions whose parts look alike are outlined in the same way. -/
structure FuncDecl.Alike (f f' : FuncDecl) : Prop where
  doc : f'.doc = f.doc
  receiver : Option.Rel Receiver.Alike f.receiver f'.receiver
  name : f'.name = f.name
  typeParams : List.Forall₂ TypeParamDecl.Alike f.typeParams f'.typeParams
  signature : f.signature.Alike f'.signature

lemma FuncDecl.Alike.outline {f f' : FuncDecl} (h : f.Alike f') (file : FileId) :
    f'.outline file = f.outline file := by
  have hreceiver := h.receiver
  have hparams := TypeParamDecl.Alike.outlineTypeParams h.typeParams
  simp only [FuncDecl.outline, h.doc, h.name, h.signature.outline, hparams]
  generalize f.receiver = r, f'.receiver = r' at hreceiver
  cases hreceiver with
  | none => rfl
  | some hr => simp only [hr.outline]

end Source

end GoOutline
