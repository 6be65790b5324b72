/-
# What a construction leaves alone

A store that grows may get a documentation at any of its nodes. Which nodes do get one is settled
here: a construction changes no node that is there, apart from the five that are meant to. At the
same time the constructions are told apart by what they declare: at most one declaration each, which
goes to the end of the list of declarations.
-/
import GoOutline.Proofs.Tree.Builder.Step

namespace GoOutline

/-- The construction changes no node that is there. The declarations that `ds` gives for its result
are appended to those of the file; their buffer is left to the end. -/
structure Appends {α : Type} (ds : α → List TopDeclNode) (m : Build α) : Prop where
  nodes : ∀ (b : Builder) {s : NodeSort} (id : Id s) (n : s.Node), b.node? id = some n →
    (m b).2.node? id = some n
  decls : ∀ b : Builder, (m b).2.decls.toList = b.decls.toList ++ ds (m b).1
  buffer : ∀ b : Builder, (m b).2.lists.topDecls = b.lists.topDecls

/-- The construction changes no node that is there and declares nothing. -/
abbrev Plain {α : Type} (m : Build α) : Prop := Appends (fun _ => []) m

/-! ## Composed constructions -/

namespace Appends

variable {α β : Type} {ds : α → List TopDeclNode} {es : β → List TopDeclNode} {m : Build α}
  {f : α → Build β}

lemma pure {a : α} (h : ds a = []) : Appends ds (pure a : Build α) := by
  refine ⟨fun _ _ _ _ hn => hn, fun b => ?_, fun _ => rfl⟩
  show b.decls.toList = b.decls.toList ++ ds a
  rw [h, List.append_nil]

lemma bind (h : Plain m) (h' : ∀ a, Appends es (f a)) : Appends es (m >>= f) := by
  refine ⟨fun b s id n hn => ?_, fun b => ?_, fun b => ?_⟩
  · exact (h' _).nodes _ id n (h.nodes b id n hn)
  · have hfirst := h.decls b
    have hrest := (h' (m b).1).decls (m b).2
    rw [hfirst, List.append_nil] at hrest
    exact hrest
  · exact ((h' (m b).1).buffer (m b).2).trans (h.buffer b)

lemma map {g : α → β} (h : Appends ds m) (hg : ∀ a, es (g a) = ds a) : Appends es (g <$> m) := by
  refine ⟨fun b s id n hn => h.nodes b id n hn, fun b => ?_, h.buffer⟩
  show (m b).2.decls.toList = b.decls.toList ++ es (g (m b).1)
  rw [hg, h.decls]

lemma ite {c : Prop} [Decidable c] {m' : Build α} (h : Appends ds m) (h' : Appends ds m') :
    Appends ds (if c then m else m') := by
  split
  · exact h
  · exact h'

lemma mapM (h : ∀ a, Plain (f a)) (as : List α) : Plain (as.mapM f) := by
  induction as with
  | nil => exact pure rfl
  | cons a as ih =>
    rw [List.mapM_cons]
    exact (h a).bind fun _ => ih.bind fun _ => pure rfl

lemma optM (h : ∀ a, Plain (f a)) (x : Option α) : Plain (x.mapM f) := by
  cases x with
  | none => exact pure rfl
  | some a => exact (h a).map fun _ => rfl

/-- The construction leaves arenas and declarations alone. -/
lemma of_eq (hnodes : ∀ b, (m b).2.nodes = b.nodes) (hdecls : ∀ b, (m b).2.decls = b.decls)
    (hbuffer : ∀ b, (m b).2.lists.topDecls = b.lists.topDecls) : Plain m := by
  refine ⟨fun b s id n hn => ?_, fun b => ?_, hbuffer⟩
  · rw [Store.node?, hnodes b]
    exact hn
  · rw [hdecls, List.append_nil]

end Appends

namespace Builder

open Appends

/-! ## Elementary constructions -/

lemma pushText_plain (text : String) : Plain (pushText text) :=
  of_eq (fun _ => rfl) (fun _ => rfl) fun _ => rfl

lemma pushList_plain (l : ListSort) (items : List l.Item) (hl : .topDecls ≠ l) :
    Plain (pushList l items) :=
  of_eq (fun _ => rfl) (fun _ => rfl) fun b => b.lists.buffer_append_of_ne hl items

lemma intern_plain (name : String) : Plain (intern name) :=
  of_eq (fun _ => rfl) (fun _ => rfl) fun _ => rfl

lemma spanOf_plain {s : NodeSort} (id : Id s) : Plain (spanOf id) :=
  of_eq (fun _ => rfl) (fun _ => rfl) fun _ => rfl

lemma firstSpan?_plain (names : ListRef .idents) : Plain (firstSpan? names) :=
  of_eq (fun _ => rfl) (fun _ => rfl) fun _ => rfl

lemma alloc_plain (s : NodeSort) (node : s.Node) (span : Span) : Plain (alloc s node span) :=
  ⟨fun b _ _ _ hn => b.toStore.node?_push node span hn, fun _ => (List.append_nil _).symm,
    fun _ => rfl⟩

lemma declare_appends {α : Type} {ds : α → List TopDeclNode} {d : TopDeclNode} {a : α}
    (h : ds a = [d]) : Appends ds (do declare d; return a) := by
  refine ⟨fun _ _ _ _ hn => hn, fun b => ?_, fun _ => rfl⟩
  show (b.decls.push d).toList = b.decls.toList ++ ds a
  rw [h, Array.toList_push]

/-! ## Names and comments -/

lemma ident_plain (name : String) : Plain (ident name) :=
  (pushText_plain name).bind fun _ => (intern_plain name).bind fun _ => .pure rfl

lemma idents_plain (names : List String) : Plain (idents names) :=
  (mapM ident_plain names).bind fun ids => pushList_plain .idents ids nofun

lemma comment_plain (line : String) : Plain (comment line) :=
  (pushText_plain line).bind fun _ => alloc_plain _ _ _

lemma commentGroup_plain (lines : List String) : Plain (commentGroup lines) := by
  have hlist (id : CommentGroupId) : Plain (modify fun b : Builder =>
      { b with commentGroups := b.commentGroups.push id }) :=
    of_eq (fun _ => rfl) (fun _ => rfl) fun _ => rfl
  rw [commentGroup_eq]
  refine (mapM comment_plain lines).bind fun ids => ?_
  refine (pushList_plain .comments ids nofun).bind fun r => ?_
  have hlast (sp : Span) : Plain (do
      let id ← alloc .commentGroup ⟨r⟩ sp
      modify fun b => { b with commentGroups := b.commentGroups.push id }
      return id) :=
    (alloc_plain _ _ _).bind fun id => (hlist id).bind fun _ => .pure rfl
  split
  · exact (spanOf_plain _).bind fun _ => (spanOf_plain _).bind fun _ => hlast _
  · exact hlast _

lemma commentGroup?_plain (lines : List String) : Plain (commentGroup? lines) :=
  ite (.pure rfl) ((commentGroup_plain lines).map fun _ => rfl)

lemma fileDoc_plain (lines : List String) : Plain (fileDoc lines) :=
  (commentGroup?_plain lines).bind fun _ => of_eq (fun _ => rfl) (fun _ => rfl) fun _ => rfl

lemma diagnostic_plain (d : Diagnostic) : Plain (diagnostic d) :=
  of_eq (fun _ => rfl) (fun _ => rfl) fun _ => rfl

/-! ## Types -/

lemma literal_plain (kind : LiteralKind) (raw : String) : Plain (literal kind raw) :=
  (pushText_plain raw).bind fun _ => alloc_plain _ _ _

lemma instantiated_plain (name : String) (args : List TypeId) : Plain (instantiated name args) := by
  have hnode (pkg : Option Ident) (i : Ident) (sp : Span) : Plain (do
      alloc .type (.named pkg i (← pushList .types args)) sp) :=
    (pushList_plain .types args nofun).bind fun _ => alloc_plain _ _ _
  unfold instantiated
  -- the span goes up to the last argument, if there is one
  cases args.getLast? with
  | none =>
    cases cutText '.' name with
    | none => exact (ident_plain name).bind fun i => hnode none i _
    | some parts =>
      exact (ident_plain parts.1).bind fun pkg => (ident_plain parts.2).bind fun i =>
        hnode (some pkg) i _
  | some last =>
    cases cutText '.' name with
    | none =>
      exact (ident_plain name).bind fun i => (spanOf_plain last).bind fun _ => hnode none i _
    | some parts =>
      exact (ident_plain parts.1).bind fun pkg => (ident_plain parts.2).bind fun i =>
        (spanOf_plain last).bind fun _ => hnode (some pkg) i _

lemma pointer_plain (elem : TypeId) : Plain (pointer elem) :=
  (pushText_plain _).bind fun _ => (spanOf_plain elem).bind fun _ => alloc_plain _ _ _

lemma slice_plain (elem : TypeId) : Plain (slice elem) :=
  (pushText_plain _).bind fun _ => (spanOf_plain elem).bind fun _ => alloc_plain _ _ _

lemma array_plain (length : String) (elem : TypeId) : Plain (array length elem) := by
  have hlast (n : ArrayLengthNode) (sp : Span) : Plain (do
      alloc .type (.array n elem) (sp.cover (← spanOf elem))) :=
    (spanOf_plain elem).bind fun _ => alloc_plain _ _ _
  refine (pushText_plain _).bind fun _ => ?_
  split
  · exact (pushText_plain _).bind fun _ => hlast _ _
  · exact ((literal_plain _ _).map fun _ => rfl).bind fun _ => hlast _ _

lemma map_plain (key val : TypeId) : Plain (map key val) :=
  (pushText_plain _).bind fun _ => (spanOf_plain val).bind fun _ => alloc_plain _ _ _

lemma chan_plain (dir : ChanDir) (elem : TypeId) : Plain (chan dir elem) :=
  (pushText_plain _).bind fun _ => (spanOf_plain elem).bind fun _ => alloc_plain _ _ _

lemma parenType_plain (inner : TypeId) : Plain (parenType inner) :=
  (pushText_plain _).bind fun _ => (pushText_plain _).bind fun _ => alloc_plain _ _ _

lemma funcType_plain (sig : SignatureId) : Plain (funcType sig) :=
  (pushText_plain _).bind fun _ => (spanOf_plain sig).bind fun _ => alloc_plain _ _ _

lemma struct_plain (fields : List FieldId) : Plain (struct fields) :=
  (pushText_plain _).bind fun _ => (pushList_plain .fields fields nofun).bind fun _ =>
    (pushText_plain _).bind fun _ => alloc_plain _ _ _

lemma interface_plain (elems : List InterfaceElemNode) : Plain (interface elems) :=
  (pushText_plain _).bind fun _ => (pushList_plain .interfaceElems elems nofun).bind fun _ =>
    (pushText_plain _).bind fun _ => alloc_plain _ _ _

lemma badType_plain : Plain badType := (pushText_plain _).bind fun _ => alloc_plain _ _ _

lemma methodElem_plain (doc : List String) (name : String) (sig : SignatureId) :
    Plain (methodElem doc name sig) :=
  (commentGroup?_plain doc).bind fun _ => (ident_plain name).bind fun _ => .pure rfl

lemma embedElem_plain (terms : List TypeTermNode) : Plain (embedElem terms) :=
  (pushList_plain .typeTerms terms nofun).map fun _ => rfl

lemma tilde_plain (type : TypeId) : Plain (tilde type) := (pushText_plain _).bind fun _ => .pure rfl

lemma anyConstraint_plain : Plain anyConstraint := (pushText_plain _).map fun _ => rfl

lemma unionConstraint_plain (terms : List TypeTermNode) : Plain (unionConstraint terms) :=
  (pushList_plain .typeTerms terms nofun).map fun _ => rfl

lemma typeParamDecl_plain (bracket : Span) (names : List String) (constraint : ConstraintNode) :
    Plain (typeParamDecl bracket names constraint) :=
  (idents_plain names).bind fun _ => (firstSpan?_plain _).bind fun _ => alloc_plain _ _ _

lemma typeParams_plain (decls : List (List String × ConstraintNode)) :
    Plain (typeParams decls) := by
  refine (pushText_plain "[").bind fun left => ?_
  have hdecls : Plain (decls.mapM fun d => typeParamDecl left d.1 d.2) := by
    refine mapM (fun d => ?_) decls
    exact typeParamDecl_plain left d.1 d.2
  refine hdecls.bind fun ids => ?_
  refine (pushList_plain .typeParamDecls ids nofun).bind fun r => ?_
  refine (pushText_plain "]").bind fun right => ?_
  exact alloc_plain .typeParams ⟨r⟩ _

/-! ## Fields and signatures -/

lemma fieldEntry_plain (names : List String) (variadic : Bool) (type : TypeId) (embedded : Bool) :
    Plain (fieldEntry names variadic type embedded) := by
  refine (idents_plain names).bind fun r => ?_
  have hlast (ellipsis : Option Span) : Plain (do
      let typeSpan ← spanOf type
      let span := (← firstSpan? r).elim typeSpan fun first => first.cover typeSpan
      alloc .field ⟨r, ellipsis, type, none, embedded, none, none⟩ span) :=
    (spanOf_plain type).bind fun _ => (firstSpan?_plain r).bind fun _ => alloc_plain _ _ _
  split
  · exact ((pushText_plain _).map fun _ => rfl).bind fun _ => hlast _
  · exact hlast _

lemma fieldList_plain (fields : List FieldId) : Plain (fieldList fields) :=
  (pushText_plain _).bind fun _ => (pushList_plain .fields fields nofun).bind fun _ =>
    (pushText_plain _).bind fun _ => .pure rfl

lemma signature_plain (params results : List FieldId) : Plain (signature params results) :=
  (fieldList_plain params).bind fun _ => ite (alloc_plain _ _ _)
    ((fieldList_plain results).bind fun _ => alloc_plain _ _ _)

lemma signatureReturning_plain (params : List FieldId) (result : TypeId) :
    Plain (signatureReturning params result) :=
  (fieldList_plain params).bind fun _ => (spanOf_plain result).bind fun _ => alloc_plain _ _ _

/-! ## Expressions -/

lemma identExpr_plain (name : String) : Plain (identExpr name) :=
  (ident_plain name).bind fun _ => alloc_plain _ _ _

lemma selector_plain (base : ExprId) (name : String) : Plain (selector base name) :=
  (pushText_plain _).bind fun _ => (ident_plain name).bind fun _ =>
    (spanOf_plain base).bind fun _ => alloc_plain _ _ _

lemma spanOfOperand_plain (x : OperandNode) : Plain (spanOfOperand x) := by
  cases x with
  | expr e => exact spanOf_plain e
  | type t => exact spanOf_plain t

lemma applied_plain (callee : OperandNode) (typeArg : Option TypeId) (args : List ExprId)
    (spread : Bool) : Plain (applied callee typeArg args spread) := by
  refine (pushText_plain _).bind fun _ => (pushList_plain .exprs args nofun).bind fun r => ?_
  have hlast : Plain (do
      let right ← pushText ")"
      alloc .expr (.call callee typeArg r spread) ((← spanOfOperand callee).cover right)) :=
    (pushText_plain _).bind fun _ => (spanOfOperand_plain callee).bind fun _ => alloc_plain _ _ _
  split
  · exact (pushText_plain _).bind fun _ => hlast
  · exact hlast

lemma builtin_plain (name : String) (type : TypeId) (args : List ExprId) :
    Plain (builtin name type args) :=
  (identExpr_plain name).bind fun _ => applied_plain _ _ args false

lemma unary_plain (op : UnaryOp) (operand : ExprId) : Plain (unary op operand) :=
  (pushText_plain _).bind fun _ => (spanOf_plain operand).bind fun _ => alloc_plain _ _ _

lemma binary_plain (left : ExprId) (op : BinaryOp) (right : ExprId) :
    Plain (binary left op right) :=
  (pushText_plain _).bind fun _ => (spanOf_plain left).bind fun _ =>
    (spanOf_plain right).bind fun _ => alloc_plain _ _ _

lemma paren_plain (inner : ExprId) : Plain (paren inner) :=
  (pushText_plain _).bind fun _ => (pushText_plain _).bind fun _ => alloc_plain _ _ _

lemma index_plain (base : ExprId) (args : List OperandNode) : Plain (index base args) :=
  (pushText_plain _).bind fun _ => (pushList_plain .operands args nofun).bind fun _ =>
    (pushText_plain _).bind fun _ => (spanOf_plain base).bind fun _ => alloc_plain _ _ _

lemma sliceExpr_plain (base : ExprId) (low high max : Option ExprId) :
    Plain (sliceExpr base low high max) :=
  (pushText_plain _).bind fun _ => (pushText_plain _).bind fun _ =>
    (spanOf_plain base).bind fun _ => alloc_plain _ _ _

lemma typeAssert_plain (base : ExprId) (type : TypeId) : Plain (typeAssert base type) :=
  (pushText_plain _).bind fun _ => (pushText_plain _).bind fun _ =>
    (spanOf_plain base).bind fun _ => alloc_plain _ _ _

lemma keyed_plain (field : String) (value : ExprId) : Plain (keyed field value) :=
  (ident_plain field).bind fun _ => .pure rfl

lemma literalValue_plain (elems : List KeyedNode) : Plain (literalValue elems) :=
  (pushText_plain _).bind fun _ => (pushList_plain .keyedElems elems nofun).bind fun _ =>
    (pushText_plain _).bind fun _ => .pure rfl

lemma composite_plain (type : Option TypeId) (elems : List KeyedNode) :
    Plain (composite type elems) := by
  refine (literalValue_plain elems).bind fun value => ?_
  cases type with
  | none => exact alloc_plain _ _ _
  | some t => exact (spanOf_plain t).bind fun _ => alloc_plain _ _ _

lemma funcLit_plain (sig : SignatureId) (body : String) : Plain (funcLit sig body) :=
  (pushText_plain _).bind fun _ => (pushText_plain body).bind fun _ => alloc_plain _ _ _

lemma badExpr_plain : Plain badExpr := (pushText_plain _).bind fun _ => alloc_plain _ _ _

/-! ## Specs and declarations -/

lemma importName_plain (name : String) : Plain (importName name) :=
  (pushText_plain name).bind fun _ => ite (.pure rfl) <| ite (.pure rfl) <|
    (intern_plain name).bind fun _ => .pure rfl

lemma importSpec_plain (name : Option String) (path : String) : Plain (importSpec name path) :=
  (optM importName_plain name).bind fun _ => (pushText_plain _).bind fun _ => .pure rfl

lemma valueSpec_plain (names : List String) (type : Option TypeId) (values : List ExprId) :
    Plain (valueSpec names type values) :=
  (idents_plain names).bind fun _ => (pushList_plain .exprs values nofun).bind fun _ => .pure rfl

lemma typeSpec_plain (name : String) (typeParams : Option TypeParamsId) (type : TypeId)
    (isAlias : Bool) : Plain (typeSpec name typeParams type isAlias) := by
  refine (ident_plain name).bind fun _ => ?_
  split
  · exact ((pushText_plain _).map fun _ => rfl).bind fun _ => .pure rfl
  · exact .pure rfl

lemma withDoc_plain (spec : SpecNode) (lines : List String) : Plain (withDoc spec lines) :=
  (commentGroup?_plain lines).bind fun _ => .pure rfl

lemma withComment_plain (spec : SpecNode) (lines : List String) : Plain (withComment spec lines) :=
  (commentGroup?_plain lines).bind fun _ => .pure rfl

lemma decl_appends (group : DeclGroup) (spec : SpecNode) :
    Appends (fun id => [.decl id]) (decl group spec) :=
  (pushText_plain _).bind fun _ => (pushList_plain .specs [spec] nofun).bind fun _ =>
    (alloc_plain _ _ _).bind fun _ => declare_appends rfl

lemma declGroup_appends (group : DeclGroup) (specs : List SpecNode) :
    Appends (fun id => [.decl id]) (declGroup group specs) :=
  (pushText_plain _).bind fun _ => (pushText_plain _).bind fun _ =>
    (pushList_plain .specs specs nofun).bind fun _ => (pushText_plain _).bind fun _ =>
      (alloc_plain _ _ _).bind fun _ => declare_appends rfl

lemma badDecl_appends : Appends (fun id => [.decl id]) badDecl :=
  (pushText_plain _).bind fun _ => (alloc_plain _ _ _).bind fun _ => declare_appends rfl

lemma receiver_plain (name : Option String) (type : TypeId) : Plain (receiver name type) :=
  (pushText_plain _).bind fun _ => (optM ident_plain name).bind fun _ =>
    (pushText_plain _).bind fun _ => .pure rfl

lemma genericReceiver_plain (name : Option String) (type : TypeId) (params : List String) :
    Plain (genericReceiver name type params) :=
  (receiver_plain name type).bind fun _ => (pushText_plain _).bind fun _ =>
    (idents_plain params).bind fun _ => (pushText_plain _).bind fun _ => .pure rfl

lemma func_appends (receiver : Option ReceiverNode) (name : String)
    (typeParams : Option TypeParamsId) (signature : SignatureId) :
    Appends (fun id => [.func id]) (func receiver name typeParams signature) :=
  (pushText_plain _).bind fun _ => (ident_plain name).bind fun _ => (pushText_plain _).bind fun _ =>
    (pushText_plain _).bind fun _ => (alloc_plain _ _ _).bind fun _ => declare_appends rfl

end Builder

/-! ## Steps -/

/-- The declaration in the register. -/
def Register.topDecl? : Register → Option TopDeclNode
  | .decl id => some (.decl id)
  | .func id => some (.func id)
  | _ => Option.none

namespace Step

open Registers Register Builder

/-- Whether a step adds a declaration to the file. -/
def declares : Step → Bool
  | .decl _ _ => true
  | .declGroup _ _ => true
  | .badDecl => true
  | .func _ _ => true
  | .genericFunc _ _ _ => true
  | .method _ _ _ => true
  | _ => false

/-- The declarations `ds` are what a step with the given result adds to the file: that result, or
nothing if the step is not one that declares. -/
def AddsDecls (step : Step) (r : Register) (ds : List TopDeclNode) : Prop :=
  (if step.declares then [r.topDecl?] else []) = ds.map some

/-- The node that a step is to change. -/
def target? (regs : Registers) : Step → Option Reference
  | .tag f _ => (regs.one field? f).map Id.ref
  | .fieldDoc f _ => (regs.one field? f).map Id.ref
  | .fieldComment f _ => (regs.one field? f).map Id.ref
  | .declDoc d _ => (regs.one decl? d).map Id.ref
  | .funcDoc f _ => (regs.one func? f).map Id.ref
  | _ => Option.none

/-- Whether a step is to change a node. -/
def edits : Step → Bool
  | .tag _ _ => true
  | .fieldDoc _ _ => true
  | .fieldComment _ _ => true
  | .declDoc _ _ => true
  | .funcDoc _ _ => true
  | _ => false

/-- The action, if there is one, changes no node and adds what the step declares. -/
def Appending (step : Step) (x : Option (Build Register)) : Prop :=
  ∀ act, x = some act → ∃ ds, Appends ds act ∧ ∀ b, step.AddsDecls (act b).1 (ds (act b).1)

variable {step : Step} {regs : Registers}

namespace Appending

variable {α : Type} {m : Build α} {g : α → Register}

lemma of_bind {x : Option α} {f : α → Option (Build Register)} (h : ∀ a, step.Appending (f a)) :
    step.Appending (x >>= f) := by
  intro act hact
  obtain ⟨a, -, hact⟩ := Option.bind_eq_some_iff.1 hact
  exact h a act hact

lemma of_plain {act : Build Register} (h : Plain act) (hstep : step.declares = false) :
    step.Appending (some act) := by
  rintro _ hact
  obtain rfl := Option.some.inj hact
  refine ⟨_, h, fun b => ?_⟩
  rw [AddsDecls, hstep]
  rfl

/-- A plain construction whose result goes into a register. -/
lemma of_map (h : Plain m) (hstep : step.declares = false) : step.Appending (some (g <$> m)) :=
  of_plain (h.map fun _ => rfl) hstep

/-- The construction of a declaration, which goes into a register. -/
lemma of_decl {d : α → TopDeclNode} (h : Appends (fun a => [d a]) m) (hstep : step.declares = true)
    (hg : ∀ a, (g a).topDecl? = some (d a)) : step.Appending (some (g <$> m)) := by
  rintro _ hact
  obtain rfl := Option.some.inj hact
  refine ⟨fun r => r.topDecl?.toList, h.map fun a => ?_, fun b => ?_⟩
  · rw [hg]
    rfl
  · show step.AddsDecls (g (m b).1) (g (m b).1).topDecl?.toList
    rw [AddsDecls, hstep, hg]
    rfl

end Appending

lemma action_appending (hstep : step.edits = false) : step.Appending (step.action regs) := by
  cases step with
  | tag f raw => simp [edits] at hstep
  | fieldDoc f lines => simp [edits] at hstep
  | fieldComment f lines => simp [edits] at hstep
  | declDoc d lines => simp [edits] at hstep
  | funcDoc f lines => simp [edits] at hstep
  | comment lines => exact .of_map (commentGroup_plain lines) rfl
  | fileDoc lines => exact .of_plain ((fileDoc_plain lines).bind fun _ => .pure rfl) rfl
  | ident name => exact .of_map (ident_plain name) rfl
  | idents names => exact .of_map (idents_plain names) rfl
  | named name => exact .of_map (instantiated_plain name []) rfl
  | instantiated name args =>
    exact .of_bind fun args => .of_map (instantiated_plain name args) rfl
  | pointer elem => exact .of_bind fun elem => .of_map (pointer_plain elem) rfl
  | slice elem => exact .of_bind fun elem => .of_map (slice_plain elem) rfl
  | parenType inner => exact .of_bind fun inner => .of_map (parenType_plain inner) rfl
  | array length elem => exact .of_bind fun elem => .of_map (array_plain length elem) rfl
  | map key val =>
    exact .of_bind fun key => .of_bind fun val => .of_map (map_plain key val) rfl
  | chan dir elem => exact .of_bind fun elem => .of_map (chan_plain dir elem) rfl
  | funcType sig => exact .of_bind fun sig => .of_map (funcType_plain sig) rfl
  | struct fields => exact .of_bind fun fields => .of_map (struct_plain fields) rfl
  | interface elems => exact .of_bind fun elems => .of_map (interface_plain elems) rfl
  | badType => exact .of_map badType_plain rfl
  | methodElem doc name sig =>
    exact .of_bind fun sig => .of_map (methodElem_plain doc name sig) rfl
  | embedElem terms => exact .of_bind fun terms => .of_map (embedElem_plain terms) rfl
  | term type => exact .of_bind fun _ => .of_plain (.pure rfl) rfl
  | tilde type => exact .of_bind fun type => .of_map (tilde_plain type) rfl
  | anyConstraint => exact .of_map anyConstraint_plain rfl
  | unionConstraint terms =>
    exact .of_bind fun terms => .of_map (unionConstraint_plain terms) rfl
  | interfaceConstraint type => exact .of_bind fun _ => .of_plain (.pure rfl) rfl
  | typeParams decls => exact .of_bind fun decls => .of_map (typeParams_plain decls) rfl
  | field names type =>
    exact .of_bind fun type => .of_map (fieldEntry_plain names false type false) rfl
  | variadic names type =>
    exact .of_bind fun type => .of_map (fieldEntry_plain names true type false) rfl
  | embedded type => exact .of_bind fun type => .of_map (fieldEntry_plain [] false type true) rfl
  | signature params results =>
    exact .of_bind fun params => .of_bind fun results =>
      .of_map (signature_plain params results) rfl
  | signatureReturning params result =>
    exact .of_bind fun params => .of_bind fun result =>
      .of_map (signatureReturning_plain params result) rfl
  | identExpr name => exact .of_map (identExpr_plain name) rfl
  | literal kind raw => exact .of_map (literal_plain kind raw) rfl
  | selector base name => exact .of_bind fun base => .of_map (selector_plain base name) rfl
  | call callee args =>
    exact .of_bind fun callee => .of_bind fun args =>
      .of_map (applied_plain (.expr callee) none args false) rfl
  | callSpread callee args =>
    exact .of_bind fun callee => .of_bind fun args =>
      .of_map (applied_plain (.expr callee) none args true) rfl
  | conversion type arg =>
    exact .of_bind fun type => .of_bind fun arg =>
      .of_map (applied_plain (.type type) none [arg] false) rfl
  | builtin name type args =>
    exact .of_bind fun type => .of_bind fun args => .of_map (builtin_plain name type args) rfl
  | unary op operand => exact .of_bind fun operand => .of_map (unary_plain op operand) rfl
  | binary left op right =>
    exact .of_bind fun left => .of_bind fun right => .of_map (binary_plain left op right) rfl
  | paren inner => exact .of_bind fun inner => .of_map (paren_plain inner) rfl
  | index base args =>
    exact .of_bind fun base => .of_bind fun args => .of_map (index_plain base args) rfl
  | sliceExpr base low high max =>
    exact .of_bind fun base => .of_bind fun low => .of_bind fun high => .of_bind fun max =>
      .of_map (sliceExpr_plain base low high max) rfl
  | typeAssert base type =>
    exact .of_bind fun base => .of_bind fun type => .of_map (typeAssert_plain base type) rfl
  | keyed name value => exact .of_bind fun value => .of_map (keyed_plain name value) rfl
  | keyedExpr key value => exact .of_bind fun _ => .of_bind fun _ => .of_plain (.pure rfl) rfl
  | element value => exact .of_bind fun _ => .of_plain (.pure rfl) rfl
  | literalValue elems => exact .of_bind fun elems => .of_map (literalValue_plain elems) rfl
  | keyValue key value => exact .of_bind fun _ => .of_bind fun _ => .of_plain (.pure rfl) rfl
  | composite type elems =>
    exact .of_bind fun type => .of_bind fun elems => .of_map (composite_plain type elems) rfl
  | funcLit sig body => exact .of_bind fun sig => .of_map (funcLit_plain sig body) rfl
  | badExpr => exact .of_map badExpr_plain rfl
  | importSpec name path => exact .of_map (importSpec_plain name path) rfl
  | importRaw name raw =>
    have hspec : Plain (do
        let spec ← Builder.importSpec name ""
        let path ← Builder.ident raw
        return Register.spec (spec.withPath path.span)) :=
      (importSpec_plain name "").bind fun _ => (ident_plain raw).bind fun _ => .pure rfl
    exact .of_plain hspec rfl
  | importSpan spec path => exact .of_bind fun _ => .of_plain (.pure rfl) rfl
  | valueSpec names type values =>
    exact .of_bind fun type => .of_bind fun values =>
      .of_map (valueSpec_plain names type values) rfl
  | typeSpec name type =>
    exact .of_bind fun type => .of_map (typeSpec_plain name none type false) rfl
  | aliasSpec name type =>
    exact .of_bind fun type => .of_map (typeSpec_plain name none type true) rfl
  | genericTypeSpec name params type =>
    exact .of_bind fun params => .of_bind fun type =>
      .of_map (typeSpec_plain name (some params) type false) rfl
  | specAlias spec isAlias => exact .of_bind fun _ => .of_plain (.pure rfl) rfl
  | withDoc spec lines => exact .of_bind fun spec => .of_map (withDoc_plain spec lines) rfl
  | withComment spec lines =>
    exact .of_bind fun spec => .of_map (withComment_plain spec lines) rfl
  | decl group spec =>
    exact .of_bind fun spec => .of_decl (decl_appends group spec) rfl fun _ => rfl
  | declGroup group specs =>
    exact .of_bind fun specs => .of_decl (declGroup_appends group specs) rfl fun _ => rfl
  | badDecl => exact .of_decl badDecl_appends rfl fun _ => rfl
  | receiver name type => exact .of_bind fun type => .of_map (receiver_plain name type) rfl
  | genericReceiver name type params =>
    exact .of_bind fun type => .of_map (genericReceiver_plain name type params) rfl
  | func name sig =>
    exact .of_bind fun sig => .of_decl (func_appends none name none sig) rfl fun _ => rfl
  | genericFunc name params sig =>
    exact .of_bind fun params => .of_bind fun sig =>
      .of_decl (func_appends none name (some params) sig) rfl fun _ => rfl
  | method recv name sig =>
    exact .of_bind fun recv => .of_bind fun sig =>
      .of_decl (func_appends (some recv) name none sig) rfl fun _ => rfl
  | diagnostic d => exact .of_plain ((diagnostic_plain d).bind fun _ => .pure rfl) rfl

end Step

end GoOutline
