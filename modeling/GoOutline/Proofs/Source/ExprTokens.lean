/-
# The tokens of expressions

An expression is printed so that its tokens can be read off the text again, if no two of them run
together. Names and numbers stand between blanks, operators and parentheses, and a binary operator
has a blank on either side. Only a unary operator stands right in front of its operand. Where the
operand begins with a unary operator as well, the two signs may make up a longer operator: of `-` and
`-x` the text is `--x`, which begins with a decrement.

Which signs run together is a question of the operators alone, so the text of an expression has the
tokens of the expression exactly if no such signs meet in it.
-/
import GoOutline.Proofs.Source.Token
import GoOutline.Proofs.Program.Load

namespace GoOutline.Source

/-! ## Plain expressions -/

/-- A whole number in decimal notation, possibly with underscores between its digits. -/
structure Numeral (text : String) : Prop where
  head : ∃ c ∈ text.toList.head?, c.isDigit
  chars : ∀ c ∈ text.toList, isNumberChar c

/-- Expressions of names, decimal numbers, unary and binary operators and parentheses. -/
inductive Expr.Plain : Expr → Prop
  | ident {name : String} (hname : Identifier name) (hhead : ∃ c ∈ name.toList.head?, ¬c.isDigit) :
    Plain (.ident name)
  | number {text : String} (htext : Numeral text) : Plain (.literal .int text)
  | unary (op : UnaryOp) {operand : Expr} (hoperand : Plain operand) : Plain (.unary op operand)
  | binary {left : Expr} (hleft : Plain left) (op : BinaryOp) {right : Expr} (hright : Plain right) :
    Plain (.binary left op right)
  | paren {inner : Expr} (hinner : Plain inner) : Plain (.paren inner)

instance (text : String) : Decidable (Numeral text) :=
  decidable_of_iff (text.toList.head?.any Char.isDigit = true ∧ text.toList.all isNumberChar = true)
    ⟨fun h => ⟨(Option.any_eq_true _ _).1 h.1, List.all_eq_true.1 h.2⟩,
      fun h => ⟨(Option.any_eq_true _ _).2 h.head, List.all_eq_true.2 h.chars⟩⟩

/-- Whether an expression is plain. -/
def Expr.isPlain : Expr → Bool
  | .ident name => Identifier name && name.toList.head?.any fun c => !c.isDigit
  | .literal .int text => Numeral text
  | .unary _ operand => operand.isPlain
  | .binary left _ right => left.isPlain && right.isPlain
  | .paren inner => inner.isPlain
  | _ => false

lemma Expr.plain_of_isPlain : ∀ e : Expr, e.isPlain = true → e.Plain
  | .ident name, h => by
    simp only [isPlain, Bool.and_eq_true, decide_eq_true_eq] at h
    obtain ⟨c, hc, hdigit⟩ := (Option.any_eq_true _ _).1 h.2
    exact .ident h.1 ⟨c, hc, by simpa using hdigit⟩
  | .literal .int text, h => .number (of_decide_eq_true h)
  | .unary op operand, h => .unary op (plain_of_isPlain operand h)
  | .binary left op right, h => by
    simp only [isPlain, Bool.and_eq_true] at h
    exact .binary (plain_of_isPlain left h.1) op (plain_of_isPlain right h.2)
  | .paren inner, h => .paren (plain_of_isPlain inner h)

lemma Expr.Plain.isPlain {e : Expr} (h : e.Plain) : e.isPlain = true := by
  induction h with
  | ident hname hhead =>
    obtain ⟨c, hc, hdigit⟩ := hhead
    simp only [Expr.isPlain, Bool.and_eq_true, decide_eq_true_eq]
    exact ⟨hname, (Option.any_eq_true _ _).2 ⟨c, hc, by simpa using hdigit⟩⟩
  | number htext => exact decide_eq_true htext
  | unary _ _ ih => exact ih
  | binary _ _ _ ihleft ihright => simp [Expr.isPlain, ihleft, ihright]
  | paren _ ih => exact ih

instance (e : Expr) : Decidable e.Plain :=
  decidable_of_iff (e.isPlain = true) ⟨e.plain_of_isPlain, Expr.Plain.isPlain⟩

/-- The tokens of a plain expression, in order. -/
def Expr.tokens : Expr → List Token
  | .ident name => [.word name]
  | .literal _ text => [.number text]
  | .unary op operand => .operator op.token :: operand.tokens
  | .binary left op right => left.tokens ++ .operator op.token :: right.tokens
  | .paren inner => .operator "(" :: (inner.tokens ++ [.operator ")"])
  | _ => []

/-- The unary operator that an expression begins with. -/
def Expr.sign? : Expr → Option UnaryOp
  | .unary op _ => some op
  | .binary left _ _ => left.sign?
  | _ => none

/-- Two signs make up an operator, if nothing stands between them. -/
def Fuses (op op' : UnaryOp) : Prop := op.token ++ op'.token ∈ operators

instance (op op' : UnaryOp) : Decidable (Fuses op op') :=
  inferInstanceAs (Decidable (_ ∈ operators))

/-- No unary operator fuses with the one that its operand begins with. -/
def Expr.Separated : Expr → Prop
  | .unary op operand => (∀ op' ∈ operand.sign?, ¬Fuses op op') ∧ operand.Separated
  | .binary left _ right => left.Separated ∧ right.Separated
  | .paren inner => inner.Separated
  | _ => True

/-- The signs that fuse, to an increment, a decrement, a conjunction and a bit clear. -/
lemma fuses_iff (op op' : UnaryOp) :
    Fuses op op' ↔ (op, op') ∈ [(.add, .add), (.sub, .sub), (.addr, .addr), (.addr, .xor)] := by
  cases op <;> cases op' <;> decide

/-! ## Where tokens end -/

variable {op : UnaryOp} {rest : List Char} {e : Expr}

/-- What follows an expression: nothing, a blank or the end of a parenthesis. -/
def Ends (rest : List Char) : Prop := ∀ c ∈ rest.head?, c = ' ' ∨ c = ')'

lemma ends_nil : Ends [] := by simp [Ends]

lemma ends_cons {c : Char} (hc : c = ' ' ∨ c = ')') (cs : List Char) : Ends (c :: cs) := by
  intro d hd
  obtain rfl := Option.some.inj hd
  exact hc

lemma Ends.not_isWordChar (hrest : Ends rest) (c : Char) (hc : c ∈ rest.head?) :
    ¬isWordChar c ∧ ¬isNumberChar c := by
  rcases hrest c hc with rfl | rfl <;> decide

/-- Letters, parentheses and blanks continue no operator. -/
def isSeparate (c : Char) : Bool := isWordChar c || c ∈ ['(', ')', ' ']

lemma not_isSeparate_of_mem_tail {op : String} (hop : op ∈ operators) {c : Char}
    (hc : c ∈ op.toList.tail) : ¬isSeparate c := by
  have hall : ∀ op ∈ operators, op.toList.tail.all fun c => !isSeparate c := by decide
  simpa using List.all_eq_true.1 (hall op hop) c hc

lemma not_continues {op : String} {c : Char} (hop : op ∈ operators) (hc : isSeparate c) :
    ¬Continues op c := by
  rintro ⟨longer, hmem, more, hmore⟩
  obtain ⟨d, ds, hds⟩ := List.exists_cons_of_ne_nil
    (List.ne_nil_of_length_pos (length_pos_of_mem_operators op hop))
  refine not_isSeparate_of_mem_tail hmem (c := c) ?_ hc
  rw [← hmore, hds]
  simp

/-- Only a sign that fuses with the one before it continues it. -/
lemma fuses_of_continues {op op' : UnaryOp} {c : Char} (hc : c ∈ op'.token.toList.head?)
    (h : Continues op.token c) : Fuses op op' := by
  have hall : op'.token.toList.head?.all fun c => Continues op.token c → Fuses op op' := by
    cases op <;> cases op' <;> decide
  rw [Option.mem_def.1 hc, Option.all_some, decide_eq_true_iff] at hall
  exact hall h

lemma unary_mem_operators (op : UnaryOp) : op.token ∈ operators := by cases op <;> decide

lemma binary_mem_operators (op : BinaryOp) : op.token ∈ operators := by cases op <;> decide

lemma tokens?_operator_separate {op : String} (hop : op ∈ operators)
    (hrest : ∀ c ∈ rest.head?, isSeparate c) :
    tokens? (op.toList ++ rest) = (tokens? rest).map (.operator op :: ·) :=
  tokens?_operator hop fun c hc => not_continues hop (hrest c hc)

/-! ## The text of an expression -/

namespace Expr

/-- The characters of the text of an expression. -/
def chars (e : Expr) : List Char := e.text.toList

lemma chars_unary (op : UnaryOp) (e : Expr) :
    (unary op e).chars = op.token.toList ++ e.chars := by
  simp [chars, text]

lemma chars_binary_append (left : Expr) (op : BinaryOp) (right : Expr) (rest : List Char) :
    (binary left op right).chars ++ rest =
      left.chars ++ ' ' :: (op.token.toList ++ ' ' :: (right.chars ++ rest)) := by
  simp [chars, text]

lemma chars_paren_append (e : Expr) (rest : List Char) :
    (paren e).chars ++ rest = '(' :: (e.chars ++ ')' :: rest) := by
  simp [chars, text]

/-- The text begins with the sign of the expression. Without a sign it begins with a name, a number
or a parenthesis. -/
lemma Plain.begins (he : e.Plain) : (∃ op, e.sign? = some op ∧ op.token.toList <+: e.chars) ∨
    (e.sign? = none ∧ ∃ c ∈ e.chars.head?, isSeparate c) := by
  induction he with
  | @ident name hname _ =>
    obtain ⟨c, cs, hcs⟩ := List.exists_cons_of_ne_nil hname.toList_ne_nil
    refine .inr ⟨rfl, c, by simp [chars, text, hcs], ?_⟩
    simp [isSeparate, hname.chars c (by simp [hcs])]
  | number htext =>
    obtain ⟨c, hc, hdigit⟩ := htext.head
    exact .inr ⟨rfl, c, hc, by simp [isSeparate, isWordChar_of_isDigit hdigit]⟩
  | unary op _ _ => exact .inl ⟨op, rfl, by rw [chars_unary]; exact List.prefix_append _ _⟩
  | binary _ op _ ih _ =>
    rw [← List.append_nil (chars _), chars_binary_append]
    rcases ih with ⟨sign, hsign, hbegins⟩ | ⟨hsign, c, hc, hseparate⟩
    · exact .inl ⟨sign, hsign, hbegins.trans (List.prefix_append _ _)⟩
    · exact .inr ⟨hsign, c, by simp [Option.mem_def.1 hc], hseparate⟩
  | paren _ _ => exact .inr ⟨rfl, '(', by simp [chars, text], by decide⟩

/-- Where an operand begins with no sign that fuses, the operator in front of it ends. -/
lemma Plain.not_continues (he : e.Plain) (h : ∀ op' ∈ e.sign?, ¬Fuses op op') :
    ∀ c ∈ (e.chars ++ rest).head?, ¬Continues op.token c := by
  intro c hc
  rcases he.begins with ⟨sign, hsign, more, hmore⟩ | ⟨-, d, hd, hseparate⟩
  · obtain ⟨d, ds, hds⟩ := List.exists_cons_of_ne_nil
      (List.ne_nil_of_length_pos (length_pos_of_mem_operators _ (unary_mem_operators sign)))
    rw [← hmore, hds] at hc
    obtain rfl := Option.some.inj hc
    exact fun hcontinues => h sign hsign (fuses_of_continues (by simp [hds]) hcontinues)
  · have hsome : (e.chars ++ rest).head? = some d := by simp [Option.mem_def.1 hd]
    obtain rfl := Option.some.inj (hsome.symm.trans hc)
    exact Source.not_continues (unary_mem_operators op) hseparate

/-! ## Reading the text -/

/-- A binary operator between blanks is one token. -/
lemma tokens?_binary (op : BinaryOp) (cs : List Char) :
    tokens? (' ' :: (op.token.toList ++ ' ' :: cs)) =
      (tokens? cs).map (.operator op.token :: ·) := by
  rw [tokens?_blank, tokens?_operator_separate (binary_mem_operators op) (by simp; decide),
    tokens?_blank]

lemma tokens?_open (cs : List Char) :
    tokens? ('(' :: cs) = (tokens? cs).map (.operator "(" :: ·) := by
  have hop : "(" ∈ brackets := by decide
  exact tokens?_bracket hop cs

lemma tokens?_close (cs : List Char) :
    tokens? (')' :: cs) = (tokens? cs).map (.operator ")" :: ·) := by
  have hop : ")" ∈ brackets := by decide
  exact tokens?_bracket hop cs

/-- The tokens in the text of an expression are those of the expression, whatever may follow. -/
lemma Plain.tokens?_chars (he : e.Plain) (hsep : e.Separated) (hrest : Ends rest) :
    tokens? (e.chars ++ rest) = (tokens? rest).map (e.tokens ++ ·) := by
  induction he generalizing rest with
  | ident hname hhead =>
    exact tokens?_word hhead hname.chars fun c hc => (hrest.not_isWordChar c hc).1
  | number htext =>
    exact tokens?_number htext.head htext.chars fun c hc => (hrest.not_isWordChar c hc).2
  | unary op he ih =>
    rw [chars_unary, List.append_assoc,
      tokens?_operator (unary_mem_operators op) (he.not_continues hsep.1), ih hsep.2 hrest]
    simp [tokens, Function.comp_def]
  | binary _ op _ ihleft ihright =>
    rw [chars_binary_append, ihleft hsep.1 (ends_cons (.inl rfl) _), tokens?_binary,
      ihright hsep.2 hrest]
    simp [tokens, Function.comp_def]
  | paren _ ih =>
    rw [chars_paren_append, tokens?_open, ih hsep (ends_cons (.inr rfl) _), tokens?_close]
    simp [tokens, Function.comp_def]

/-- Where the text of an expression has its tokens, no two signs fuse. -/
lemma Plain.separated (he : e.Plain) (hrest : Ends rest) {later : List Token}
    (h : tokens? (e.chars ++ rest) = some (e.tokens ++ later)) : e.Separated := by
  induction he generalizing rest later with
  | ident _ _ => trivial
  | number _ => trivial
  | @unary op operand he ih =>
    rw [chars_unary, List.append_assoc] at h
    have happart : ∀ op' ∈ operand.sign?, ¬Fuses op op' := by
      intro op' hop' hfuses
      -- the operator that the two signs make up is longer than the first one
      rcases he.begins with ⟨sign, hsign, hbegins⟩ | ⟨hnone, -⟩
      · obtain rfl := Option.some.inj (hop'.symm.trans hsign)
        refine tokens?_ne_of_longer hfuses ?_ ?_ h
        · rw [String.toList_append, List.prefix_append_right_inj]
          exact hbegins.trans (List.prefix_append _ _)
        · have hpos := length_pos_of_mem_operators _ (unary_mem_operators op')
          rw [String.length_append]
          omega
      · simp [hnone] at hop'
    rw [tokens?_operator (unary_mem_operators op) (he.not_continues happart)] at h
    obtain ⟨tokens, hoperand, heq⟩ := Option.map_eq_some_iff.1 h
    obtain rfl := (List.cons.inj heq).2
    exact ⟨happart, ih hrest hoperand⟩
  | @binary left hleft op right hright ihleft ihright =>
    rw [chars_binary_append] at h
    have hfirst : left.Separated :=
      ihleft (ends_cons (.inl rfl) _) (by rw [h, tokens, List.append_assoc])
    rw [hleft.tokens?_chars hfirst (ends_cons (.inl rfl) _), tokens?_binary] at h
    have hlast : tokens? (right.chars ++ rest) = some (right.tokens ++ later) := by
      simpa [tokens, Function.comp_def] using h
    exact ⟨hfirst, ihright hrest hlast⟩
  | @paren inner _ ih =>
    rw [chars_paren_append, tokens?_open] at h
    have hinside : tokens? (inner.chars ++ ')' :: rest) =
        some (inner.tokens ++ .operator ")" :: later) := by
      simpa [tokens] using h
    exact ih (ends_cons (.inr rfl) _) hinside

end Expr

/-- The text of a plain expression splits into the tokens of the expression exactly if no unary
operator fuses with one that its operand begins with. The signs that fuse are two pluses, two minuses,
two ampersands, and an ampersand in front of a caret. -/
theorem tokens_of_plain (h : e.Plain) :
    (tokens? e.text.toList = some e.tokens ↔ e.Separated) ∧
    ∀ op op', Fuses op op' ↔
      (op, op') ∈ [(.add, .add), (.sub, .sub), (.addr, .addr), (.addr, .xor)] := by
  have hchars : tokens? e.text.toList = tokens? (e.chars ++ []) := by
    rw [List.append_nil, Expr.chars]
  rw [hchars]
  refine ⟨⟨fun htokens => ?_, fun hsep => ?_⟩, fuses_iff⟩
  · rw [← List.append_nil e.tokens] at htokens
    exact h.separated ends_nil htokens
  · rw [h.tokens?_chars hsep ends_nil, tokens?, Option.map_some, List.append_nil]

/-- The expression `-x * (+1 - ^y)`. -/
def signedProduct : Expr :=
  .binary (.unary .sub (.ident "x")) .mul
    (.paren (.binary (.unary .add (.literal .int "1")) .sub (.unary .xor (.ident "y"))))

theorem tokens_of_signedProduct :
    signedProduct.Plain ∧ signedProduct.text = "-x * (+1 - ^y)" ∧
      tokens? signedProduct.text.toList = some signedProduct.tokens := by
  have hplain : signedProduct.Plain := by decide
  have hsep : signedProduct.Separated := by
    refine ⟨⟨?_, trivial⟩, ⟨?_, trivial⟩, ?_, trivial⟩ <;> simp [Expr.sign?]
  exact ⟨hplain, by decide, (tokens_of_plain hplain).1.2 hsep⟩

end GoOutline.Source

namespace GoOutline

open Source

/-- The script of `var v = - -x`. -/
def Step.minusMinus : List Step :=
  [.identExpr "x", .unary .sub 0, .unary .sub 1, .valueSpec ["v"] none [2], .decl .vars 3]

/-- The value is printed with a decrement in front of the name. -/
theorem tokens_fuse_minusMinus :
    ∃ p, (Progress.mk (.start "a.go" "main") #[]).run Step.minusMinus = some p ∧
      let t := p.builder.finish
      let f := File.ofTree .keepFirst ⟨0, 0⟩ "main" t
      ∃ e, t.expr? ⟨2⟩ = some e ∧ e.Plain ∧
        e.tokens = [.operator "-", .operator "-", .word "x"] ∧
        tokens? e.text.toList = some [.operator "--", .word "x"] ∧
        (f.decls.values.filterMap fun d => (d.as? .var).map fun d => d.value) = [e.text] := by
  have hrun : ((Progress.mk (.start "a.go" "main") #[]).run Step.minusMinus).any fun p =>
      let t := p.builder.finish
      let f := File.ofTree .keepFirst ⟨0, 0⟩ "main" t
      (t.expr? ⟨2⟩).any fun e => decide e.Plain &&
        e.tokens = [.operator "-", .operator "-", .word "x"] &&
        tokens? e.text.toList = some [.operator "--", .word "x"] &&
        (f.decls.values.filterMap fun d => (d.as? .var).map fun d => d.value) = [e.text] := by
    decide +kernel
  obtain ⟨p, hp, hany⟩ := (Option.any_eq_true _ _).1 hrun
  obtain ⟨e, he, hcheck⟩ := (Option.any_eq_true _ _).1 hany
  simp only [Bool.and_eq_true, decide_eq_true_eq] at hcheck
  obtain ⟨⟨⟨hplain, htokens⟩, hfused⟩, hvalue⟩ := hcheck
  exact ⟨p, hp, e, he, hplain, htokens, hfused, hvalue⟩

end GoOutline
