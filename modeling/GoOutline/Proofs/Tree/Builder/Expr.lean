/-
# What the constructions of expressions do
-/
import GoOutline.Proofs.Tree.Builder.Type

namespace GoOutline.Builder

open Store (Grows)

variable {s k : NodeSort} {c : Prop} {T : FieldId → Prop} {b : Builder}

/-! ## Names, calls and operations -/

lemma identExpr_adds (name : String) :
    Adds c T [] b (identExpr name) fun st id =>
      ∃ i, b.toStore.Gains st id (.ident i) ∧ st.Spells i name := by
  refine (ident_adds name).bind fun i b₁ g₁ hi => ?_
  refine (alloc_adds .expr (.ident i) i.span ?_ ?_).imp fun st id g h => ?_
  · exact fun _ => Store.sound_nil
  · exact fun _ => hi.place.fits
  · exact ⟨i, g₁.gains h.1, g.spells hi⟩

lemma selector_adds (base : ExprId) (name : String) (hbase : c → base.ref.In b.toStore) :
    Adds c T [] b (selector base name) fun st id =>
      ∃ i, b.toStore.Gains st id (.selector base i) ∧ st.Spells i name := by
  refine (pushText_adds ".").bind fun _ b₁ g₁ _ => ?_
  refine (ident_adds name).bind fun i b₂ g₂ hi => ?_
  refine (spanOf_adds base).bind fun sp b₃ g₃ hsp => ?_
  refine (alloc_adds .expr (.selector base i) _ ?_ ?_).imp fun st id g h => ?_
  · intro hc
    exact .one (g₃.reference (g₂.reference (g₁.reference (hbase hc))))
  · exact fun hfit => (hsp.fits hfit).cover (g₃.spells hi).place.fits
  · exact ⟨i, ((g₁.trans g₂).trans g₃).gains h.1, g.spells (g₃.spells hi)⟩

lemma spanOfOperand_adds (x : OperandNode) :
    Adds c T [] b (spanOfOperand x) fun st sp => st.SpansFit → sp.Fits st.source := by
  cases x with
  | expr e => exact (spanOf_adds e).imp fun _ _ _ h => h.fits
  | type t => exact (spanOf_adds t).imp fun _ _ _ h => h.fits

/-- A call once its arguments are written. -/
lemma callNode_adds (callee : OperandNode) (typeArg : Option TypeId) {args : List ExprId}
    {r : ListRef .exprs} (spread : Bool) (hold : b.toStore.Holds r args)
    (hcallee : c → b.toStore.Sound callee.refs)
    (htype : c → b.toStore.Sound (Id.optRefs typeArg)) :
    Adds c T [] b (do
      let right ← pushText ")"
      alloc .expr (.call callee typeArg r spread) ((← spanOfOperand callee).cover right))
      fun st id => b.toStore.Gains st id (.call callee typeArg r spread) ∧ st.Holds r args := by
  refine (pushText_adds ")").bind fun right b₁ g₁ hright => ?_
  refine (spanOfOperand_adds callee).bind fun sp b₂ g₂ hsp => ?_
  have hold₂ := g₂.holds (g₁.holds hold)
  refine (alloc_adds .expr (.call callee typeArg r spread) _ ?_ ?_).imp fun st id g h => ?_
  · intro hc
    have hparts := Store.sound_append.2 ⟨hcallee hc, htype hc⟩
    exact Store.sound_cons.2 ⟨hold₂.sound, g₂.sound (g₁.sound hparts)⟩
  · exact fun hfit => (hsp hfit).cover (g₂.cuts hright).fits
  · exact ⟨(g₁.trans g₂).gains h.1, g.holds hold₂⟩

lemma applied_adds (callee : OperandNode) (typeArg : Option TypeId) (args : List ExprId)
    (spread : Bool) (hcallee : c → b.toStore.Sound callee.refs)
    (htype : c → b.toStore.Sound (Id.optRefs typeArg))
    (hargs : c → ∀ e ∈ args, b.toStore.Sound [e.ref]) :
    Adds c T [] b (applied callee typeArg args spread) fun st id => ∃ r,
      b.toStore.Gains st id (.call callee typeArg r spread) ∧ st.Holds r args := by
  unfold applied
  refine (pushText_adds "(").bind fun _ b₁ g₁ _ => ?_
  refine (pushList_adds .exprs args ?_ rfl).bind fun r b₂ g₂ hold => ?_
  · exact fun hc e he => g₁.sound (hargs hc e he)
  have g := g₁.trans g₂
  cases spread with
  | false =>
    refine (callNode_adds callee typeArg false hold ?_ ?_).imp fun st id _ h =>
      ⟨r, g.gains h.1, h.2⟩
    · exact fun hc => g.sound (hcallee hc)
    · exact fun hc => g.sound (htype hc)
  | true =>
    refine (pushText_adds "...").bind fun _ b₃ g₃ _ => ?_
    refine (callNode_adds callee typeArg true (g₃.holds hold) ?_ ?_).imp fun st id _ h =>
      ⟨r, (g.trans g₃).gains h.1, h.2⟩
    · exact fun hc => g₃.sound (g.sound (hcallee hc))
    · exact fun hc => g₃.sound (g.sound (htype hc))

lemma builtin_adds (name : String) (type : TypeId) (args : List ExprId)
    (htype : c → type.ref.In b.toStore) (hargs : c → ∀ e ∈ args, b.toStore.Sound [e.ref]) :
    Adds c T [] b (builtin name type args) fun st id => ∃ e i r,
      b.toStore.Gains st id (.call (.expr e) (some type) r false) ∧ st.Holds r args ∧
        st.node? e = some (.ident i) ∧ st.Spells i name := by
  refine (identExpr_adds name).bind fun e b₁ g₁ he => ?_
  obtain ⟨i, hnode, hi⟩ := he
  refine (applied_adds (.expr e) (some type) args false ?_ ?_ ?_).imp fun st id g h => ?_
  · intro _
    exact .one (Store.in_of_node? hnode.node)
  · exact fun hc => Store.sound_optRefs_some.2 (g₁.reference (htype hc))
  · exact fun hc e he => g₁.sound (hargs hc e he)
  · obtain ⟨r, hcall, hold⟩ := h
    exact ⟨e, i, r, g₁.gains hcall, hold, g.node?_fixed hnode.node rfl, g.spells hi⟩

lemma unary_adds (op : UnaryOp) (operand : ExprId) (hoperand : c → operand.ref.In b.toStore) :
    Adds c T [] b (unary op operand) fun st id => b.toStore.Gains st id (.unary op operand) := by
  exact opened_adds op.token operand (s := .expr) (.unary op operand) fun hc => .one (hoperand hc)

lemma binary_adds (left : ExprId) (op : BinaryOp) (right : ExprId)
    (hleft : c → left.ref.In b.toStore) (hright : c → right.ref.In b.toStore) :
    Adds c T [] b (binary left op right) fun st id =>
      b.toStore.Gains st id (.binary left op right) := by
  refine (pushText_adds op.token).bind fun _ b₁ g₁ _ => ?_
  refine (spanOf_adds left).bind fun sp b₂ g₂ hsp => ?_
  refine (spanOf_adds right).bind fun sp' b₃ g₃ hsp' => ?_
  have g := (g₁.trans g₂).trans g₃
  refine (alloc_adds .expr (.binary left op right) _ ?_ ?_).imp fun _ _ _ h => g.gains h.1
  · intro hc
    exact .two (g.reference (hleft hc)) (g.reference (hright hc))
  · exact fun hfit => ((g₃.extent hsp).fits hfit).cover (hsp'.fits hfit)

lemma paren_adds (inner : ExprId) (hinner : c → inner.ref.In b.toStore) :
    Adds c T [] b (paren inner) fun st id => b.toStore.Gains st id (.paren inner) := by
  exact enclosed_adds "(" ")" (s := .expr) (.paren inner) fun hc => .one (hinner hc)

/-! ## Brackets after an expression -/

lemma index_adds (base : ExprId) (args : List OperandNode) (hbase : c → base.ref.In b.toStore)
    (hargs : c → ∀ x ∈ args, b.toStore.Sound x.refs) :
    Adds c T [] b (index base args) fun st id => ∃ r,
      b.toStore.Gains st id (.index base r) ∧ st.Holds r args := by
  refine (pushText_adds "[").bind fun _ b₁ g₁ _ => ?_
  refine (pushList_adds .operands args ?_ rfl).bind fun r b₂ g₂ hold => ?_
  · exact fun hc x hx => g₁.sound (hargs hc x hx)
  refine (pushText_adds "]").bind fun right b₃ g₃ hright => ?_
  refine (spanOf_adds base).bind fun sp b₄ g₄ hsp => ?_
  have hold₄ := g₄.holds (g₃.holds hold)
  have g₀ := ((g₁.trans g₂).trans g₃).trans g₄
  refine (alloc_adds .expr (.index base r) _ ?_ ?_).imp fun st id g h => ?_
  · intro hc
    exact .two (g₀.reference (hbase hc)) hold₄.sound
  · exact fun hfit => (hsp.fits hfit).cover (g₄.cuts hright).fits
  · exact ⟨r, g₀.gains h.1, g.holds hold₄⟩

/-- A node that begins with a part and ends with a word. -/
lemma closed_adds (left right : String) (first : Id k) (n : s.Node)
    (sound : c → b.toStore.Sound (s.refs n)) :
    Adds c T [] b (do
      let _ ← pushText left
      let right ← pushText right
      alloc s n ((← spanOf first).cover right)) fun st id => b.toStore.Gains st id n := by
  refine (pushText_adds left).bind fun _ b₁ g₁ _ => ?_
  refine (pushText_adds right).bind fun sp b₂ g₂ hsp => ?_
  refine (spanOf_adds first).bind fun sp' b₃ g₃ hsp' => ?_
  refine (alloc_adds s n _ ?_ ?_).imp fun _ _ _ h => ((g₁.trans g₂).trans g₃).gains h.1
  · exact fun hc => g₃.sound (g₂.sound (g₁.sound (sound hc)))
  · exact fun hfit => (hsp'.fits hfit).cover (g₃.cuts hsp).fits

lemma sliceExpr_adds (base : ExprId) (low high max : Option ExprId)
    (hbase : c → base.ref.In b.toStore) (hlow : c → b.toStore.Sound (Id.optRefs low))
    (hhigh : c → b.toStore.Sound (Id.optRefs high)) (hmax : c → b.toStore.Sound (Id.optRefs max)) :
    Adds c T [] b (sliceExpr base low high max) fun st id =>
      b.toStore.Gains st id (.slice base low high max) := by
  refine closed_adds "[" "]" base (s := .expr) (.slice base low high max) fun hc => ?_
  have hbounds := Store.sound_append.2 ⟨Store.sound_append.2 ⟨hlow hc, hhigh hc⟩, hmax hc⟩
  exact Store.sound_cons.2 ⟨hbase hc, hbounds⟩

lemma typeAssert_adds (base : ExprId) (type : TypeId) (hbase : c → base.ref.In b.toStore)
    (htype : c → type.ref.In b.toStore) :
    Adds c T [] b (typeAssert base type) fun st id =>
      b.toStore.Gains st id (.typeAssert base (some type)) := by
  refine closed_adds ".(" ")" base (s := .expr) (.typeAssert base (some type)) fun hc => ?_
  exact .two (hbase hc) (htype hc)

/-! ## Literals -/

lemma keyed_adds (field : String) (value : ExprId) :
    Adds c T [] b (keyed field value) fun st e => ∃ i,
      e = ⟨some (.field i), .expr value⟩ ∧ st.Spells i field :=
  (ident_adds field).bind fun i _ _ hi => .pure ⟨i, rfl, hi⟩

lemma literalValue_adds (elems : List KeyedNode)
    (helems : c → ∀ e ∈ elems, b.toStore.Sound e.refs) :
    Adds c T [] b (literalValue elems) fun st v => st.Holds v.elems elems ∧
      v.leftBrace.Fits st.source ∧ v.rightBrace.Fits st.source := by
  refine (pushText_adds "\x7b").bind fun left b₁ g₁ hleft => ?_
  refine (pushList_adds .keyedElems elems ?_ rfl).bind fun r b₂ g₂ hold => ?_
  · exact fun hc e he => g₁.sound (helems hc e he)
  refine (pushText_adds "\x7d").bind fun right b₃ g₃ hright => ?_
  exact .pure ⟨g₃.holds hold, (g₃.cuts (g₂.cuts hleft)).fits, hright.fits⟩

/-- A list of elements that is not empty takes a new stretch of its buffer. -/
lemma literalValue_fresh {elems : List KeyedNode} (hne : elems ≠ []) :
    ¬(literalValue elems b).1.elems.ref.In b.toStore := by
  show ¬b.lists.keyedElems.size + elems.length ≤ b.lists.keyedElems.size
  have hpos := List.length_pos_iff.2 hne
  omega

/-- A composite literal once the part in braces is written. -/
lemma compositeNode_adds (type : Option TypeId) (v : LiteralNode)
    (htype : c → b.toStore.Sound (Id.optRefs type)) (hv : c → v.elems.ref.In b.toStore)
    (hleft : v.leftBrace.Fits b.source) (hright : v.rightBrace.Fits b.source) :
    Adds c T [] b (do
      let start ← match type with
        | some t => spanOf t
        | none => pure v.leftBrace
      alloc .expr (.composite type v) (start.cover v.rightBrace)) fun st id =>
        b.toStore.Gains st id (.composite type v) := by
  have hlast : ∀ (sp : Span) (b₁ : Builder), Grows c T b.toStore b₁.toStore →
      (b₁.toStore.SpansFit → sp.Fits b₁.source) →
      Adds c T [] b₁ (alloc .expr (.composite type v) (sp.cover v.rightBrace)) fun st id =>
        b.toStore.Gains st id (.composite type v) := by
    intro sp b₁ g₁ hsp
    refine (alloc_adds .expr (.composite type v) _ ?_ ?_).imp fun st id _ h => g₁.gains h.1
    · intro hc
      exact Store.sound_append.2 ⟨g₁.sound (htype hc), .one (g₁.reference (hv hc))⟩
    · exact fun hfit => (hsp hfit).cover (g₁.fits hright)
  cases type with
  | none => exact hlast v.leftBrace b .refl fun _ => hleft
  | some t => exact (spanOf_adds t).bind fun sp b₁ g₁ hsp => hlast sp b₁ g₁ hsp.fits

lemma composite_adds (type : Option TypeId) (elems : List KeyedNode)
    (htype : c → b.toStore.Sound (Id.optRefs type))
    (helems : c → ∀ e ∈ elems, b.toStore.Sound e.refs) :
    Adds c T [] b (composite type elems) fun st id => ∃ v,
      b.toStore.Gains st id (.composite type v) ∧ st.Holds v.elems elems := by
  refine (literalValue_adds elems helems).bind fun v b₁ g₁ hv => ?_
  obtain ⟨hold, hleft, hright⟩ := hv
  refine (compositeNode_adds type v ?_ (fun _ => hold.sound) hleft hright).imp fun st id g h => ?_
  · exact fun hc => g₁.sound (htype hc)
  · exact ⟨v, g₁.gains h, g.holds hold⟩

/-- The braces of a body, one byte each, cover the body unless it is empty. -/
lemma cover_braces {sp : Span} {source body : String} (h : sp.Cuts source body) (hbody : body ≠ "") :
    (⟨⟨sp.start, sp.start + 1⟩, ⟨sp.stop - 1, sp.stop⟩⟩ : Block).span = sp := by
  obtain ⟨front, back, -, rfl⟩ := h
  have hpos : 0 < body.utf8ByteSize := by
    rw [Nat.pos_iff_ne_zero]
    exact fun h => hbody (String.utf8ByteSize_eq_zero_iff.1 h)
  simp only [Block.span, Span.cover, Span.mk.injEq]
  omega

lemma funcLit_adds (sig : SignatureId) (body : String) (hsig : c → sig.ref.In b.toStore) :
    Adds c T [] b (funcLit sig body) fun st id => ∃ block,
      b.toStore.Gains st id (.funcLit sig block) ∧
        (body ≠ "" → block.span.Cuts st.source body) := by
  refine (pushText_adds "func").bind fun word b₁ g₁ hword => ?_
  refine (pushText_adds body).bind fun sp b₂ g₂ hsp => ?_
  refine (alloc_adds .expr (.funcLit sig _) _ ?_ ?_).imp fun st id g h =>
    ⟨_, (g₁.trans g₂).gains h.1, fun hbody => ?_⟩
  · intro hc
    exact .one (g₂.reference (g₁.reference (hsig hc)))
  · exact fun _ => (g₂.cuts hword).fits.cover hsp.fits
  · rw [cover_braces hsp hbody]
    exact g.cuts hsp

lemma badExpr_adds : Adds c T [] b badExpr fun st id => b.toStore.Gains st id .bad := by
  refine (pushText_adds "<bad>").bind fun sp b₁ g₁ hsp => ?_
  refine (alloc_adds .expr .bad sp ?_ fun _ => hsp.fits).imp fun _ _ _ h => g₁.gains h.1
  exact fun _ => Store.sound_nil

end GoOutline.Builder
