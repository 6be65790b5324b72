/-
# Rendering

The text of a node is the text of the source form that is read from it. Here it is put together from
the texts of the parts of the node, one lemma for each kind of node, so that the source forms in
between can be forgotten.
-/
import GoOutline.Proofs.Sequence
import GoOutline.Proofs.Source.Form
import GoOutline.Proofs.Tree.Reading
import GoOutline.Source.Printer

namespace List

variable {α β γ : Type} {f : α → Option β} {g : β → γ}

/-- The images of results are the images of the results of all members. -/
lemma exists_of_mapM_map {as : List α} {cs : List γ}
    (h : as.mapM (fun a => (f a).map g) = some cs) : ∃ bs, as.mapM f = some bs ∧ bs.map g = cs := by
  induction as generalizing cs with
  | nil =>
    obtain rfl := Option.some.inj h
    exact ⟨[], rfl, rfl⟩
  | cons a as ih =>
    rw [mapM_cons] at h
    obtain ⟨c, hc, h⟩ := Option.bind_eq_some_iff.1 h
    obtain ⟨cs, hcs, h⟩ := Option.bind_eq_some_iff.1 h
    obtain rfl := Option.some.inj h
    obtain ⟨b, hb, rfl⟩ := Option.map_eq_some_iff.1 hc
    obtain ⟨bs, hbs, rfl⟩ := ih hcs
    exact ⟨b :: bs, by simp [mapM_cons, hb, hbs], rfl⟩

end List

lemma Option.exists_of_mapM_map {α β γ : Type} {f : α → Option β} {g : β → γ} {a : Option α}
    {c : Option γ} (h : a.mapM (fun a => (f a).map g) = some c) :
    ∃ b, a.mapM f = some b ∧ b.map g = c := by
  cases a with
  | none => exact ⟨none, rfl, Option.some.inj h⟩
  | some a =>
    obtain ⟨c, hc, h⟩ := Option.map_eq_some_iff.1 h
    obtain ⟨b, hb, rfl⟩ := Option.map_eq_some_iff.1 hc
    exact ⟨some b, by simp [hb], h⟩

namespace GoOutline

lemma resultsText_several (t u : FieldText) (ts : List FieldText) :
    resultsText (t :: u :: ts) = " " ++ parenthesized (t :: u :: ts) := rfl

/-! ## Texts of source forms -/

namespace Source

lemma joinWith_eq (sep : String) (texts : List String) :
    joinWith sep texts = sep.intercalate texts := by
  induction texts with
  | nil => simp [joinWith]
  | cons text texts ih =>
    cases texts with
    | nil => simp [joinWith]
    | cons next rest => rw [joinWith, ih, String.intercalate_cons_cons]

lemma argsText_eq (texts : List String) : argsText texts = bracketed texts := by
  cases texts <;> simp [argsText, bracketed, joinWith_eq]

lemma namesText_eq (names : List String) : namesText names = spaced names := by
  cases names <;> simp [namesText, spaced, joinWith_eq]

lemma chanWord_eq (dir : ChanDir) : chanWord dir = channelWords dir ++ " " := by
  cases dir <;> rfl

/-- A function that takes the text of each member of a list is a map. -/
lemma texts_eq_map {α : Type} {f : α → String} {texts : List α → List String}
    (hnil : texts [] = []) (hcons : ∀ x xs, texts (x :: xs) = f x :: texts xs) (xs : List α) :
    texts xs = xs.map f := by
  induction xs with
  | nil => rw [hnil, List.map_nil]
  | cons x xs ih => rw [hcons, ih, List.map_cons]

lemma typeTexts_eq (xs : List TypeExpr) : typeTexts xs = xs.map TypeExpr.text :=
  texts_eq_map rfl (fun _ _ => rfl) xs

lemma exprTexts_eq (xs : List Expr) : exprTexts xs = xs.map Expr.text :=
  texts_eq_map rfl (fun _ _ => rfl) xs

lemma operandTexts_eq (xs : List Operand) : operandTexts xs = xs.map Operand.text :=
  texts_eq_map rfl (fun _ _ => rfl) xs

lemma keyedTexts_eq (xs : List KeyedElem) : keyedTexts xs = xs.map KeyedElem.text :=
  texts_eq_map rfl (fun _ _ => rfl) xs

lemma paramTexts_eq (xs : List Field) : paramTexts xs = xs.map Field.paramText :=
  texts_eq_map rfl (fun _ _ => rfl) xs

lemma structFieldTexts_eq (xs : List Field) : structFieldTexts xs = xs.map Field.structText :=
  texts_eq_map rfl (fun _ _ => rfl) xs

lemma termTexts_eq (xs : List TypeTerm) : termTexts xs = xs.map TypeTerm.text :=
  texts_eq_map rfl (fun _ _ => rfl) xs

lemma elemTexts_eq (xs : List InterfaceElem) : elemTexts xs = xs.map InterfaceElem.text :=
  texts_eq_map rfl (fun _ _ => rfl) xs

lemma optTypeText_eq (x : Option TypeExpr) : optTypeText x = (x.map TypeExpr.text).getD "" := by
  cases x <;> rfl

lemma optExprText_eq (x : Option Expr) : optExprText x = (x.map Expr.text).getD "" := by
  cases x <;> rfl

/-- A call. A type that is given to a builtin function stands before the arguments. -/
lemma Expr.text_call (callee : Operand) (type : Option TypeExpr) (args : List Expr) (spread : Bool) :
    (Expr.call callee type args spread).text =
      callee.text ++ "(" ++ ", ".intercalate ((type.map TypeExpr.text).toList ++ args.map Expr.text) ++
        (if spread then "..." else "") ++ ")" := by
  cases type <;> simp [Expr.text, exprTexts_eq, joinWith_eq, markText]

lemma Results.text_list {fs : List Field} (hne : fs ≠ []) :
    (Results.list fs).text =
      " " ++ ("(" ++ ", ".intercalate (fs.map Field.paramText) ++ ")") := by
  have hopen : " (" = " " ++ "(" := rfl
  cases fs with
  | nil => exact absurd rfl hne
  | cons f fs =>
    rw [Results.text, joinWith_eq, paramTexts_eq, hopen, List.map_cons]
    simp only [String.append_assoc]

/-- The text of a key. -/
def Key.text : Key → String
  | .none => ""
  | .field name => name
  | .element e => e.text

lemma KeyedElem.text_keyed {key : Key} (hne : key ≠ .none) (value : Element) :
    (KeyedElem.mk key value).text = key.text ++ ": " ++ value.text := by
  cases key with
  | none => exact absurd rfl hne
  | field => rfl
  | element => rfl

/-- The text of an entry of a list, given whether it binds a name. -/
def Field.shown (anonymous : Bool) : Field → FieldText
  | .mk names variadic type tag embedded doc comment =>
    ⟨anonymous, (Field.mk names variadic type tag embedded doc comment).paramText, tag⟩

lemma Field.structText_eq (anonymous : Bool) (f : Field) :
    f.structText = (f.shown anonymous).tagged := by
  cases f
  simp [Field.structText, Field.shown, FieldText.tagged, Field.paramText]

end Source

namespace Store

/-- The text of what stands for a form, with at most `n` nested nodes. -/
def render (st : Store) (n : Nat) : (s : FormSort) → s.Value → Option s.Text
  | .type, id => (st.readType n id).map Source.TypeExpr.text
  | .expr, id => (st.readExpr n id).map Source.Expr.text
  | .operand, x =>
    (readOperand (fun e => st.readExpr n e) (fun t => st.readType n t) x).map Source.Operand.text
  | .key, k =>
    (st.readKey (fun e => st.readExpr n e) (fun v => st.readElems n v) (some k)).map Source.Key.text
  | .element, e =>
    (readElement (fun e => st.readExpr n e) (fun v => st.readElems n v) e).map Source.Element.text
  | .keyed, e =>
    (st.readKeyed (fun e => st.readExpr n e) (fun v => st.readElems n v) e).map
      Source.KeyedElem.text
  | .literal, v => (st.readElems n v).map fun es => (Source.Element.braces es).text
  | .field, id => do
    let f ← st.node? id
    return (← st.readField noLines (fun t => st.readType n t) id).shown f.names.isEmpty
  | .signature, id =>
    (st.readSignature noLines (fun t => st.readType n t) id).map Source.Signature.text
  | .term, t =>
    (do return Source.TypeTerm.mk t.tilde.isSome (← st.readType n t.type)).map Source.TypeTerm.text
  | .elem, e =>
    (st.readInterfaceElem noLines (fun t => st.readType n t) e).map Source.InterfaceElem.text
  | .list s, xs => xs.mapM (st.render n s)
  | .opt s, x => x.mapM (st.render n s)

attribute [local simp] render readType readExpr Source.TypeExpr.text Source.Expr.text

variable {st : Store} {n : Nat}

lemma type_of_render {id : TypeId} {t : String} (h : st.render n .type id = some t) :
    ∃ x, st.readType n id = some x ∧ x.text = t :=
  Option.map_eq_some_iff.1 h

lemma expr_of_render {id : ExprId} {t : String} (h : st.render n .expr id = some t) :
    ∃ x, st.readExpr n id = some x ∧ x.text = t :=
  Option.map_eq_some_iff.1 h

/-- The texts of entries of a list are those of the fields read from them. -/
lemma fields_of_render {ids : List FieldId} {ts : List FieldText}
    (h : st.render n (.list .field) ids = some ts) :
    ∃ xs, ids.mapM (st.readField noLines fun t => st.readType n t) = some xs ∧
      xs.map Source.Field.paramText = ts.map FieldText.entry ∧
      xs.map Source.Field.structText = ts.map FieldText.tagged := by
  have hrel := List.mapM_eq_some_iff.1 h
  clear h
  induction hrel with
  | nil => exact ⟨[], rfl, rfl, rfl⟩
  | cons ht _ ih =>
    obtain ⟨xs, hxs, hentries, htagged⟩ := ih
    obtain ⟨f, hf, ht⟩ := Option.bind_eq_some_iff.1 ht
    obtain ⟨x, hx, ht⟩ := Option.bind_eq_some_iff.1 ht
    obtain rfl := Option.some.inj ht
    refine ⟨x :: xs, by simp [List.mapM_cons, hx, hxs], ?_, ?_⟩
    · rw [List.map_cons, List.map_cons, hentries]
      cases x
      rfl
    · rw [List.map_cons, List.map_cons, htagged, Source.Field.structText_eq]

/-! ## Types -/

section Types

variable {id elem key val : TypeId} {t u : String} {ts : List String}

lemma render_named {pkg : Option Ident} {name : Ident} {args : ListRef .types}
    (h : st.node? id = some (.named pkg name args))
    (hargs : st.render n (.list .type) (st.list args) = some ts) :
    st.render (n + 1) .type id =
      some ((pkg.elim "" fun p => st.name p.symbol ++ ".") ++ st.name name.symbol ++
        bracketed ts) := by
  obtain ⟨xs, hxs, rfl⟩ := List.exists_of_mapM_map hargs
  cases pkg <;>
    simp [h, hxs, Source.typeTexts_eq, Source.argsText_eq]

lemma render_pointer (h : st.node? id = some (.pointer elem))
    (helem : st.render n .type elem = some t) : st.render (n + 1) .type id = some ("*" ++ t) := by
  obtain ⟨x, hx, rfl⟩ := type_of_render helem
  simp [h, hx]

lemma render_slice (h : st.node? id = some (.slice elem))
    (helem : st.render n .type elem = some t) : st.render (n + 1) .type id = some ("[]" ++ t) := by
  obtain ⟨x, hx, rfl⟩ := type_of_render helem
  simp [h, hx]

lemma render_inferred (h : st.node? id = some (.array .inferred elem))
    (helem : st.render n .type elem = some t) :
    st.render (n + 1) .type id = some ("[...]" ++ t) := by
  obtain ⟨x, hx, rfl⟩ := type_of_render helem
  simp [h, hx]

lemma render_array {length : ExprId} (h : st.node? id = some (.array (.expr length) elem))
    (hlength : st.render n .expr length = some u) (helem : st.render n .type elem = some t) :
    st.render (n + 1) .type id = some ("[" ++ u ++ "]" ++ t) := by
  obtain ⟨x, hx, rfl⟩ := type_of_render helem
  obtain ⟨y, hy, rfl⟩ := expr_of_render hlength
  simp [h, hx, hy]

lemma render_map (h : st.node? id = some (.map key val)) (hkey : st.render n .type key = some t)
    (hval : st.render n .type val = some u) :
    st.render (n + 1) .type id = some ("map[" ++ t ++ "]" ++ u) := by
  obtain ⟨x, hx, rfl⟩ := type_of_render hkey
  obtain ⟨y, hy, rfl⟩ := type_of_render hval
  simp [h, hx, hy]

lemma render_chan {dir : ChanDir} (h : st.node? id = some (.chan dir elem))
    (helem : st.render n .type elem = some t) :
    st.render (n + 1) .type id = some (channelWords dir ++ " " ++ t) := by
  obtain ⟨x, hx, rfl⟩ := type_of_render helem
  simp [h, hx, Source.chanWord_eq]

lemma render_func {sig : SignatureId} (h : st.node? id = some (.func sig))
    (hsig : st.render n .signature sig = some t) :
    st.render (n + 1) .type id = some ("func" ++ t) := by
  obtain ⟨x, hx, rfl⟩ := Option.map_eq_some_iff.1 hsig
  simp [h, hx]

lemma render_parenType (h : st.node? id = some (.paren elem))
    (helem : st.render n .type elem = some t) :
    st.render (n + 1) .type id = some ("(" ++ t ++ ")") := by
  obtain ⟨x, hx, rfl⟩ := type_of_render helem
  simp [h, hx]

lemma render_struct {fields : ListRef .fields} {ts : List FieldText}
    (h : st.node? id = some (.struct fields))
    (hfields : st.render n (.list .field) (st.list fields) = some ts) :
    st.render (n + 1) .type id =
      some ("struct\x7b" ++ "; ".intercalate (ts.map FieldText.tagged) ++ "\x7d") := by
  obtain ⟨xs, hxs, -, htexts⟩ := fields_of_render hfields
  simp [h, hxs, Source.structFieldTexts_eq, htexts,
    Source.joinWith_eq]

lemma render_interface {elems : ListRef .interfaceElems}
    (h : st.node? id = some (.interface elems))
    (helems : st.render n (.list .elem) (st.list elems) = some ts) :
    st.render (n + 1) .type id = some ("interface\x7b" ++ "; ".intercalate ts ++ "\x7d") := by
  obtain ⟨xs, hxs, rfl⟩ := List.exists_of_mapM_map helems
  simp [h, hxs, Source.elemTexts_eq, Source.joinWith_eq]

lemma render_badType (h : st.node? id = some .bad) : st.render (n + 1) .type id = some "BadType" := by
  simp [h]

end Types

/-! ## Parts of types -/

section Parts

variable {t : String} {ts us : List FieldText}

lemma render_method {doc : Option CommentGroupId} {name : Ident} {sig : SignatureId}
    (hsig : st.render n .signature sig = some t) :
    st.render n .elem (.method doc name sig) = some (st.name name.symbol ++ t) := by
  obtain ⟨x, hx, rfl⟩ := Option.map_eq_some_iff.1 hsig
  simp [readInterfaceElem, noLines, hx, Source.InterfaceElem.text]

lemma render_union {terms : ListRef .typeTerms} {ts : List String}
    (hterms : st.render n (.list .term) (st.list terms) = some ts) :
    st.render n .elem (.union terms) = some (" | ".intercalate ts) := by
  obtain ⟨xs, hxs, rfl⟩ := List.exists_of_mapM_map hterms
  simp only [render, readInterfaceElem, readUnion, hxs]
  simp [Source.InterfaceElem.text, Source.termTexts_eq, Source.joinWith_eq]

lemma render_term {term : TypeTermNode} (htype : st.render n .type term.type = some t) :
    st.render n .term term = some ((if term.tilde.isSome then "~" else "") ++ t) := by
  obtain ⟨x, hx, rfl⟩ := type_of_render htype
  simp [hx, Source.TypeTerm.text, Source.markText]

lemma render_field {id : FieldId} {f : FieldNode} (h : st.node? id = some f)
    (htype : st.render n .type f.type = some t) :
    st.render n .field id = some ⟨f.names.isEmpty, spaced (st.names f.names) ++
      (if f.ellipsis.isSome then "..." else "") ++ t, f.tag.map st.text⟩ := by
  obtain ⟨x, hx, rfl⟩ := type_of_render htype
  simp [readField, noLines, h, hx, Source.Field.shown, Source.Field.paramText,
    Source.namesText_eq, Source.markText]

lemma render_signature {id : SignatureId} {sig : SignatureNode} {results : Source.Results}
    (h : st.node? id = some sig)
    (hparams : st.render n (.list .field) (st.list sig.params) = some ts)
    (hresults : st.readResults noLines (fun t => st.readType n t) sig.results = some results) :
    st.render n .signature id = some (parenthesized ts ++ results.text) := by
  obtain ⟨xs, hxs, htexts, -⟩ := fields_of_render hparams
  simp [readSignature, h, hxs, hresults, Source.Signature.text, Source.paramTexts_eq,
    htexts, Source.joinWith_eq, parenthesized]

lemma readResults_type {result : TypeId} (hresult : st.render n .type result = some t) :
    ∃ y, st.readResults noLines (fun t => st.readType n t) (some (.type result)) = some y ∧
      y.text = " " ++ t := by
  obtain ⟨x, hx, rfl⟩ := type_of_render hresult
  exact ⟨.bare x, by simp [readResults, hx], rfl⟩

/-- A list of results. Only a single one can do without parentheses. -/
lemma readResults_list {results : ListRef .fields}
    (hresults : st.render n (.list .field) (st.list results) = some us) :
    ∃ y, st.readResults noLines (fun t => st.readType n t) (some (.list results)) = some y ∧
      y.text = resultsText us := by
  obtain ⟨xs, hxs, htexts, -⟩ := fields_of_render hresults
  have hrel := List.mapM_eq_some_iff.1 hresults
  generalize hlist : st.list results = ids at hrel hxs
  rcases hrel with _ | ⟨hu, _ | ⟨hu', hrest⟩⟩
  · exact ⟨.list [], by simp [readResults, hlist], rfl⟩
  · obtain ⟨f, hf, hu⟩ := Option.bind_eq_some_iff.1 hu
    obtain ⟨x, hx, hu⟩ := Option.bind_eq_some_iff.1 hu
    obtain rfl := Option.some.inj hu
    refine ⟨if f.names.isEmpty then .single x else .list [x], ?_, ?_⟩
    · simp [readResults, hlist, hf, hx]
    · cases x
      split
      · rename_i hempty
        simp [hempty, Source.Results.text, resultsText, Source.Field.shown]
      · rename_i hempty
        rw [Source.Results.text_list (by simp)]
        simp [hempty, resultsText, Source.Field.shown, parenthesized]
  · refine ⟨.list xs, by simp [readResults, hlist, hxs], ?_⟩
    have hne : xs ≠ [] := by
      rintro rfl
      simp at htexts
    rw [resultsText_several, parenthesized, ← htexts, Source.Results.text_list hne]

end Parts

/-! ## Expressions -/

section Expressions

variable {id base arg : ExprId} {t u : String} {ts : List String}

lemma render_ident {name : Ident} (h : st.node? id = some (.ident name)) :
    st.render (n + 1) .expr id = some (st.name name.symbol) := by
  simp [h]

lemma render_literal {kind : LiteralKind} {raw : Span} (h : st.node? id = some (.literal kind raw)) :
    st.render (n + 1) .expr id = some (st.text raw) := by
  simp [h]

lemma render_selector {name : Ident} (h : st.node? id = some (.selector base name))
    (hbase : st.render n .expr base = some t) :
    st.render (n + 1) .expr id = some (t ++ "." ++ st.name name.symbol) := by
  obtain ⟨x, hx, rfl⟩ := expr_of_render hbase
  simp [h, hx]

lemma render_call {callee : OperandNode} {type : Option TypeId} {args : ListRef .exprs}
    {spread : Bool} {first : Option String}
    (h : st.node? id = some (.call callee type args spread))
    (hcallee : st.render n .operand callee = some t)
    (htype : st.render n (.opt .type) type = some first)
    (hargs : st.render n (.list .expr) (st.list args) = some ts) :
    st.render (n + 1) .expr id = some (t ++ "(" ++ ", ".intercalate (first.toList ++ ts) ++
      (if spread then "..." else "") ++ ")") := by
  obtain ⟨x, hx, rfl⟩ := Option.map_eq_some_iff.1 hcallee
  obtain ⟨xs, hxs, rfl⟩ := List.exists_of_mapM_map hargs
  obtain ⟨y, hy, rfl⟩ := Option.exists_of_mapM_map htype
  simp [h, hx, hxs, hy, Source.Expr.text_call]

lemma render_unary {op : UnaryOp} (h : st.node? id = some (.unary op base))
    (hbase : st.render n .expr base = some t) :
    st.render (n + 1) .expr id = some (op.token ++ t) := by
  obtain ⟨x, hx, rfl⟩ := expr_of_render hbase
  simp [h, hx]

lemma render_binary {op : BinaryOp} (h : st.node? id = some (.binary base op arg))
    (hbase : st.render n .expr base = some t) (harg : st.render n .expr arg = some u) :
    st.render (n + 1) .expr id = some (t ++ " " ++ op.token ++ " " ++ u) := by
  obtain ⟨x, hx, rfl⟩ := expr_of_render hbase
  obtain ⟨y, hy, rfl⟩ := expr_of_render harg
  simp [h, hx, hy]

lemma render_paren (h : st.node? id = some (.paren base))
    (hbase : st.render n .expr base = some t) :
    st.render (n + 1) .expr id = some ("(" ++ t ++ ")") := by
  obtain ⟨x, hx, rfl⟩ := expr_of_render hbase
  simp [h, hx]

lemma render_index {args : ListRef .operands} (h : st.node? id = some (.index base args))
    (hbase : st.render n .expr base = some t)
    (hargs : st.render n (.list .operand) (st.list args) = some ts) :
    st.render (n + 1) .expr id = some (t ++ "[" ++ ", ".intercalate ts ++ "]") := by
  obtain ⟨x, hx, rfl⟩ := expr_of_render hbase
  obtain ⟨xs, hxs, rfl⟩ := List.exists_of_mapM_map hargs
  simp [h, hx, hxs, Source.operandTexts_eq, Source.joinWith_eq]

lemma render_sliceExpr {low high max : Option ExprId} {lowText highText maxText : Option String}
    (h : st.node? id = some (.slice base low high max))
    (hbase : st.render n .expr base = some t)
    (hlow : st.render n (.opt .expr) low = some lowText)
    (hhigh : st.render n (.opt .expr) high = some highText)
    (hmax : st.render n (.opt .expr) max = some maxText) :
    st.render (n + 1) .expr id = some (t ++ "[" ++ lowText.getD "" ++ ":" ++ highText.getD "" ++
      maxText.elim "" (":" ++ ·) ++ "]") := by
  obtain ⟨x, hx, rfl⟩ := expr_of_render hbase
  obtain ⟨low', hlow', rfl⟩ := Option.exists_of_mapM_map hlow
  obtain ⟨high', hhigh', rfl⟩ := Option.exists_of_mapM_map hhigh
  obtain ⟨max', hmax', rfl⟩ := Option.exists_of_mapM_map hmax
  cases max' <;> simp [h, hx, hlow', hhigh', hmax', Source.optExprText_eq]

lemma render_typeAssert {type : TypeId} (h : st.node? id = some (.typeAssert base (some type)))
    (hbase : st.render n .expr base = some t) (htype : st.render n .type type = some u) :
    st.render (n + 1) .expr id = some (t ++ ".(" ++ u ++ ")") := by
  obtain ⟨x, hx, rfl⟩ := expr_of_render hbase
  obtain ⟨y, hy, rfl⟩ := type_of_render htype
  simp [h, hx, hy]

lemma render_composite {type : Option TypeId} {value : LiteralNode} {typeText : Option String}
    (h : st.node? id = some (.composite type value))
    (htype : st.render n (.opt .type) type = some typeText)
    (hvalue : st.render n .literal value = some t) :
    st.render (n + 1) .expr id = some (typeText.getD "" ++ t) := by
  obtain ⟨x, hx, rfl⟩ := Option.exists_of_mapM_map htype
  obtain ⟨y, hy, rfl⟩ := Option.map_eq_some_iff.1 hvalue
  simp [h, hx, hy, Source.optTypeText_eq, Source.Element.text, String.append_assoc]

lemma render_funcLit {sig : SignatureId} {body : Block} (h : st.node? id = some (.funcLit sig body))
    (hsig : st.render n .signature sig = some t) :
    st.render (n + 1) .expr id = some ("func" ++ t ++ " " ++ st.text body.span) := by
  obtain ⟨x, hx, rfl⟩ := Option.map_eq_some_iff.1 hsig
  simp [h, hx]

lemma render_badExpr (h : st.node? id = some .bad) : st.render (n + 1) .expr id = some "BadExpr" := by
  simp [h]

end Expressions

/-! ## Parts of expressions -/

section ExprParts

variable {e : ExprId} {v : LiteralNode} {t u : String}

lemma render_exprOperand (h : st.render n .expr e = some t) :
    st.render n .operand (.expr e) = some t := by
  obtain ⟨x, hx, rfl⟩ := expr_of_render h
  simp [readOperand, hx, Source.Operand.text]

lemma render_typeOperand {id : TypeId} (h : st.render n .type id = some t) :
    st.render n .operand (.type id) = some t := by
  obtain ⟨x, hx, rfl⟩ := type_of_render h
  simp [readOperand, hx, Source.Operand.text]

lemma render_exprElement (h : st.render n .expr e = some t) :
    st.render n .element (.expr e) = some t := by
  obtain ⟨x, hx, rfl⟩ := expr_of_render h
  simp [readElement, hx, Source.Element.text]

lemma render_literalElement (h : st.render n .literal v = some t) :
    st.render n .element (.literal v) = some t := by
  obtain ⟨x, hx, rfl⟩ := Option.map_eq_some_iff.1 h
  simp [readElement, hx]

lemma render_exprKey (h : st.render n .expr e = some t) : st.render n .key (.expr e) = some t := by
  obtain ⟨x, hx, rfl⟩ := expr_of_render h
  simp [readKey, hx, Source.Key.text, Source.Element.text]

lemma render_literalKey (h : st.render n .literal v = some t) :
    st.render n .key (.literal v) = some t := by
  obtain ⟨x, hx, rfl⟩ := Option.map_eq_some_iff.1 h
  simp [readKey, hx, Source.Key.text]

lemma render_fieldValue {name : Ident} (h : st.render n .expr e = some t) :
    st.render n .keyed ⟨some (.field name), .expr e⟩ = some (st.name name.symbol ++ ": " ++ t) := by
  obtain ⟨x, hx, rfl⟩ := expr_of_render h
  simp [readKeyed, readKey, readElement, hx, Source.KeyedElem.text, Source.Element.text]

lemma render_keyValue {key : Option KeyNode} {value : ElementNode} {first : Option String}
    (hkey : st.render n (.opt .key) key = some first)
    (hvalue : st.render n .element value = some t) :
    st.render n .keyed ⟨key, value⟩ = some (first.elim "" (· ++ ": ") ++ t) := by
  obtain ⟨y, hy, rfl⟩ := Option.map_eq_some_iff.1 hvalue
  cases key with
  | none =>
    obtain rfl := Option.some.inj hkey
    simp [readKeyed, readKey, hy, Source.KeyedElem.text]
  | some key =>
    obtain ⟨first, hfirst, rfl⟩ := Option.map_eq_some_iff.1 hkey
    obtain ⟨x, hx, rfl⟩ := Option.map_eq_some_iff.1 hfirst
    have hne : x ≠ .none := by
      rintro rfl
      cases key <;> simp [readKey, Option.bind_eq_some_iff] at hx
    simp [readKeyed, hx, hy, Source.KeyedElem.text_keyed hne]

lemma render_braces {ts : List String}
    (h : st.render n (.list .keyed) (st.list v.elems) = some ts) :
    st.render (n + 1) .literal v = some ("\x7b" ++ ", ".intercalate ts ++ "\x7d") := by
  obtain ⟨xs, hxs, rfl⟩ := List.exists_of_mapM_map h
  simp only [render, readElems, hxs]
  simp [Source.Element.text, Source.keyedTexts_eq, Source.joinWith_eq]

end ExprParts

end Store

end GoOutline
