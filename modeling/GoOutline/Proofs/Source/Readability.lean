/-
# Unique readability of types

Types are compared by their texts. A text has no marks that say how long its parts are, but from left
to right it can be read in one way only: the first characters tell the shape of the type, a name ends
where no more letters follow, and every list ends at its bracket. So two plain types with the same
text are the same type, even if more text follows that cannot belong to either.

A type is plain if it is built from names, pointers, slices, arrays with a number or no length, maps,
channels and parentheses.
-/
import GoOutline.Proofs.Source.Rendering

namespace List

variable {α : Type} {p : α → Bool} {w w' r r' : List α}

lemma takeWhile_append_stop (hw : ∀ a ∈ w, p a) (hr : ∀ a ∈ r.head?, ¬p a) :
    (w ++ r).takeWhile p = w ∧ (w ++ r).dropWhile p = r := by
  have hrest : r.takeWhile p = [] ∧ r.dropWhile p = r := by
    cases r with
    | nil => exact ⟨rfl, rfl⟩
    | cons a r => simp [hr a rfl]
  rw [takeWhile_append_of_pos hw, dropWhile_append_of_pos hw, hrest.1, hrest.2, append_nil]
  exact ⟨rfl, rfl⟩

/-- A run of members with a property that ends where a member lacks it is determined. -/
lemma append_inj_of_stop (hw : ∀ a ∈ w, p a) (hw' : ∀ a ∈ w', p a) (hr : ∀ a ∈ r.head?, ¬p a)
    (hr' : ∀ a ∈ r'.head?, ¬p a) (h : w ++ r = w' ++ r') : w = w' ∧ r = r' := by
  obtain ⟨hword, hrest⟩ := takeWhile_append_stop hw hr
  obtain ⟨hword', hrest'⟩ := takeWhile_append_stop hw' hr'
  rw [h] at hword hrest
  exact ⟨hword.symm.trans hword', hrest.symm.trans hrest'⟩

end List

namespace GoOutline.Source

/-! ## Plain types -/

/-- Letters, digits and the underscore. Whatever is not an ASCII character may be a letter. -/
def isWordChar (c : Char) : Bool := c.isAlphanum || c == '_' || 128 ≤ c.toNat

/-- The keywords of Go. -/
def keywords : List String :=
  ["break", "case", "chan", "const", "continue", "default", "defer", "else", "fallthrough", "for",
    "func", "go", "goto", "if", "import", "interface", "map", "package", "range", "return", "select",
    "struct", "switch", "type", "var"]

/-- A name that can be declared or referred to. -/
structure Identifier (name : String) : Prop where
  ne_empty : name ≠ ""
  chars : ∀ c ∈ name.toList, isWordChar c
  keyword : name ∉ keywords

/-- A number in decimal notation. -/
structure Decimal (text : String) : Prop where
  ne_empty : text ≠ ""
  digits : ∀ c ∈ text.toList, c.isDigit

/-- Plain types. -/
inductive TypeExpr.Plain : TypeExpr → Prop
  | named {pkg : Option String} {name : String} {args : List TypeExpr}
    (hpkg : ∀ q ∈ pkg, Identifier q) (hname : Identifier name) (hargs : ∀ x ∈ args, Plain x) :
    Plain (.named pkg name args)
  | pointer {elem : TypeExpr} (helem : Plain elem) : Plain (.pointer elem)
  | slice {elem : TypeExpr} (helem : Plain elem) : Plain (.slice elem)
  | inferred {elem : TypeExpr} (helem : Plain elem) : Plain (.array none elem)
  | sized {length : String} {elem : TypeExpr} (hlength : Decimal length) (helem : Plain elem) :
    Plain (.array (some (.literal .int length)) elem)
  | map {key val : TypeExpr} (hkey : Plain key) (hval : Plain val) : Plain (.map key val)
  | chan (dir : ChanDir) {elem : TypeExpr} (helem : Plain elem) : Plain (.chan dir elem)
  | paren {inner : TypeExpr} (hinner : Plain inner) : Plain (.paren inner)

instance (name : String) : Decidable (Identifier name) :=
  decidable_of_iff (name ≠ "" ∧ name.toList.all isWordChar = true ∧ name ∉ keywords)
    ⟨fun h => ⟨h.1, List.all_eq_true.1 h.2.1, h.2.2⟩,
      fun h => ⟨h.ne_empty, List.all_eq_true.2 h.chars, h.keyword⟩⟩

instance (text : String) : Decidable (Decimal text) :=
  decidable_of_iff (text ≠ "" ∧ text.toList.all Char.isDigit = true)
    ⟨fun h => ⟨h.1, List.all_eq_true.1 h.2⟩, fun h => ⟨h.ne_empty, List.all_eq_true.2 h.digits⟩⟩

mutual

/-- Whether a type is plain. -/
def TypeExpr.isPlain : TypeExpr → Bool
  | .named pkg name args => pkg.all (Identifier ·) && Identifier name && allPlain args
  | .pointer elem => elem.isPlain
  | .slice elem => elem.isPlain
  | .array none elem => elem.isPlain
  | .array (some (.literal .int length)) elem => Decimal length && elem.isPlain
  | .map key val => key.isPlain && val.isPlain
  | .chan _ elem => elem.isPlain
  | .paren inner => inner.isPlain
  | _ => false

/-- Whether all types of a list are plain. -/
def allPlain : List TypeExpr → Bool
  | [] => true
  | x :: xs => x.isPlain && allPlain xs

end

mutual

lemma TypeExpr.plain_of_isPlain : ∀ x : TypeExpr, x.isPlain = true → x.Plain
  | .named pkg name args, h => by
    simp only [TypeExpr.isPlain, Bool.and_eq_true, Option.all_eq_true, decide_eq_true_eq] at h
    exact .named h.1.1 h.1.2 (plain_of_allPlain args h.2)
  | .pointer elem, h => .pointer (TypeExpr.plain_of_isPlain elem h)
  | .slice elem, h => .slice (TypeExpr.plain_of_isPlain elem h)
  | .array none elem, h => .inferred (TypeExpr.plain_of_isPlain elem h)
  | .array (some (.literal .int length)) elem, h => by
    simp only [TypeExpr.isPlain, Bool.and_eq_true, decide_eq_true_eq] at h
    exact .sized h.1 (TypeExpr.plain_of_isPlain elem h.2)
  | .map key val, h => by
    simp only [TypeExpr.isPlain, Bool.and_eq_true] at h
    exact .map (TypeExpr.plain_of_isPlain key h.1) (TypeExpr.plain_of_isPlain val h.2)
  | .chan dir elem, h => .chan dir (TypeExpr.plain_of_isPlain elem h)
  | .paren inner, h => .paren (TypeExpr.plain_of_isPlain inner h)

lemma plain_of_allPlain : ∀ xs : List TypeExpr, allPlain xs = true → ∀ x ∈ xs, x.Plain
  | [], _ => by simp
  | x :: xs, h => by
    simp only [allPlain, Bool.and_eq_true] at h
    exact List.forall_mem_cons.2 ⟨TypeExpr.plain_of_isPlain x h.1, plain_of_allPlain xs h.2⟩

end

lemma allPlain_of_forall {xs : List TypeExpr} (h : ∀ x ∈ xs, x.isPlain = true) :
    allPlain xs = true := by
  induction xs with
  | nil => rfl
  | cons x xs ih =>
    rw [allPlain, h x (by simp), ih fun y hy => h y (by simp [hy])]
    rfl

lemma TypeExpr.Plain.isPlain {x : TypeExpr} (h : x.Plain) : x.isPlain = true := by
  induction h with
  | named hpkg hname _ ih =>
    simp only [TypeExpr.isPlain, Bool.and_eq_true, Option.all_eq_true, decide_eq_true_eq]
    exact ⟨⟨hpkg, hname⟩, allPlain_of_forall ih⟩
  | pointer _ ih => exact ih
  | slice _ ih => exact ih
  | inferred _ ih => exact ih
  | sized hlength _ ih => simp [TypeExpr.isPlain, hlength, ih]
  | map _ _ ihkey ihval => simp [TypeExpr.isPlain, ihkey, ihval]
  | chan _ _ ih => exact ih
  | paren _ ih => exact ih

instance (x : TypeExpr) : Decidable x.Plain :=
  decidable_of_iff (x.isPlain = true) ⟨x.plain_of_isPlain, TypeExpr.Plain.isPlain⟩

/-- The type of the term is plain. -/
def TypeTerm.Plain : TypeTerm → Prop
  | .mk _ type => type.Plain

/-! ## Characters -/

/-- The characters of the text of a type. -/
def TypeExpr.chars (x : TypeExpr) : List Char := x.text.toList

/-- The characters of the text of a term. -/
def TypeTerm.chars (t : TypeTerm) : List Char := t.text.toList

/-- The characters of members of a list that come after others. -/
def later {α : Type} (sep : List Char) (chars : α → List Char) (as : List α) : List Char :=
  as.flatMap fun a => sep ++ chars a

/-- The characters of type arguments. -/
def argsChars : List TypeExpr → List Char
  | [] => []
  | x :: xs => '[' :: (x.chars ++ (later [',', ' '] TypeExpr.chars xs ++ [']']))

lemma toList_joinWith (sep text : String) (texts : List String) :
    (joinWith sep (text :: texts)).toList = text.toList ++ later sep.toList String.toList texts := by
  induction texts generalizing text with
  | nil => simp [joinWith, later]
  | cons next texts ih =>
    rw [joinWith, String.toList_append, String.toList_append, ih, later, later, List.flatMap_cons,
      List.append_assoc, List.append_assoc]

lemma later_map {α β : Type} (sep : List Char) (chars : β → List Char) (f : α → β) (as : List α) :
    later sep chars (as.map f) = later sep (chars ∘ f) as := by
  simp only [later, List.flatMap_map]
  rfl

lemma toList_argsText (xs : List TypeExpr) : (argsText (typeTexts xs)).toList = argsChars xs := by
  cases xs with
  | nil => rfl
  | cons x xs =>
    have hchars : String.toList ∘ TypeExpr.text = TypeExpr.chars := rfl
    rw [typeTexts, typeTexts_eq, argsText, if_neg (by simp), String.toList_append,
      String.toList_append, toList_joinWith, later_map, hchars]
    simp [argsChars, TypeExpr.chars]

namespace TypeExpr

lemma chars_named (name : String) (args : List TypeExpr) :
    (named none name args).chars = name.toList ++ argsChars args := by
  rw [chars, text, String.toList_append, toList_argsText]

lemma chars_qualified (pkg name : String) (args : List TypeExpr) :
    (named (some pkg) name args).chars =
      pkg.toList ++ '.' :: (name.toList ++ argsChars args) := by
  rw [chars, text, String.toList_append, toList_argsText]
  simp

lemma chars_pointer (x : TypeExpr) : (pointer x).chars = '*' :: x.chars := by
  simp [chars, text]

lemma chars_slice (x : TypeExpr) : (slice x).chars = '[' :: ']' :: x.chars := by
  simp [chars, text]

lemma chars_inferred (x : TypeExpr) :
    (array none x).chars = '[' :: '.' :: '.' :: '.' :: ']' :: x.chars := by
  simp [chars, text]

lemma chars_sized (kind : LiteralKind) (length : String) (x : TypeExpr) :
    (array (some (.literal kind length)) x).chars = '[' :: (length.toList ++ ']' :: x.chars) := by
  simp [chars, text, Expr.text]

lemma chars_map (x y : TypeExpr) :
    (map x y).chars = ['m', 'a', 'p'] ++ '[' :: (x.chars ++ ']' :: y.chars) := by
  simp [chars, text]

lemma chars_chan (dir : ChanDir) (x : TypeExpr) :
    (chan dir x).chars = (chanWord dir).toList ++ x.chars := by
  simp [chars, text]

lemma chars_paren (x : TypeExpr) : (paren x).chars = '(' :: (x.chars ++ [')']) := by
  simp [chars, text]

end TypeExpr

/-! ## Shapes -/

/-- What the first characters of a type tell. -/
inductive Shape where
  | named | pointer | slice | inferred | sized | map | chan (dir : ChanDir) | paren | other
deriving DecidableEq

/-- The shape of a type. -/
def TypeExpr.shape : TypeExpr → Shape
  | .named .. => .named
  | .pointer _ => .pointer
  | .slice _ => .slice
  | .array none _ => .inferred
  | .array (some _) _ => .sized
  | .map .. => .map
  | .chan dir _ => .chan dir
  | .paren _ => .paren
  | _ => .other

/-- The shape that a word and what follows it belong to. -/
def wordShape (word rest : List Char) : Shape :=
  if word = ['m', 'a', 'p'] then .map
  else if word = ['c', 'h', 'a', 'n'] then
    if rest.head? = some '<' then .chan .send else .chan .both
  else if word = [] then .other
  else .named

/-- The shape that some characters begin with. -/
def shapeOf : List Char → Shape
  | '*' :: _ => .pointer
  | '(' :: _ => .paren
  | '<' :: _ => .chan .recv
  | '[' :: ']' :: _ => .slice
  | '[' :: '.' :: _ => .inferred
  | '[' :: _ => .sized
  | cs => wordShape (cs.takeWhile isWordChar) (cs.dropWhile isWordChar)

/-- What follows a type does not go on with it: it is no letter, no dot and no bracket that opens. -/
def Stops (r : List Char) : Prop := ∀ c ∈ r.head?, ¬isWordChar c ∧ c ≠ '.' ∧ c ≠ '['

lemma stops_nil : Stops [] := by simp [Stops]

lemma stops_cons {c : Char} (hc : ¬isWordChar c ∧ c ≠ '.' ∧ c ≠ '[') (r : List Char) :
    Stops (c :: r) := by
  intro d hd
  obtain rfl := Option.some.inj hd
  exact hc

variable {x y : TypeExpr} {r r' : List Char}

/-- A word is the longest run of letters. -/
lemma shapeOf_word {word rest : List Char} (hne : word ≠ []) (hword : ∀ c ∈ word, isWordChar c)
    (hrest : ∀ c ∈ rest.head?, ¬isWordChar c) :
    shapeOf (word ++ rest) = wordShape word rest := by
  obtain ⟨htake, hdrop⟩ := List.takeWhile_append_stop hword hrest
  obtain ⟨c, cs, rfl⟩ := List.exists_cons_of_ne_nil hne
  have hc := hword c (by simp)
  rw [List.cons_append] at htake hdrop ⊢
  -- none of the other characters that a type begins with is a letter
  unfold shapeOf
  split
  case h_7 => rw [htake, hdrop]
  all_goals
    rename_i heq
    obtain ⟨rfl, -⟩ := List.cons.inj heq
    exact absurd hc (by decide)

lemma Stops.bracket_not_mem (hr : Stops r) : '[' ∉ r.head? := fun hmem => (hr _ hmem).2.2 rfl

/-- Neither type arguments nor what follows a type go on with a word, and no dot follows it. -/
lemma stops_argsChars (hr : Stops r) (xs : List TypeExpr) :
    ∀ c ∈ (argsChars xs ++ r).head?, ¬isWordChar c ∧ c ≠ '.' := by
  intro c hc
  cases xs with
  | nil => exact ⟨(hr c hc).1, (hr c hc).2.1⟩
  | cons x xs =>
    obtain rfl := Option.some.inj hc
    decide

lemma dot_not_mem_argsChars (hr : Stops r) (xs : List TypeExpr) :
    '.' ∉ (argsChars xs ++ r).head? := fun hmem => (stops_argsChars hr xs _ hmem).2 rfl

lemma Identifier.toList_ne_nil {name : String} (h : Identifier name) : name.toList ≠ [] := by
  simpa using h.ne_empty

lemma Identifier.wordShape_eq {name : String} (h : Identifier name) (rest : List Char) :
    wordShape name.toList rest = .named := by
  have hne (word : String) (hword : word ∈ keywords) : name.toList ≠ word.toList := by
    intro heq
    rw [String.toList_inj.1 heq] at h
    exact h.keyword hword
  have hmap : name.toList ≠ ['m', 'a', 'p'] := hne "map" (by decide)
  have hchan : name.toList ≠ ['c', 'h', 'a', 'n'] := hne "chan" (by decide)
  rw [wordShape, if_neg hmap, if_neg hchan, if_neg h.toList_ne_nil]

lemma Identifier.shapeOf_eq {name : String} (h : Identifier name) {rest : List Char}
    (hrest : ∀ c ∈ rest.head?, ¬isWordChar c) : shapeOf (name.toList ++ rest) = .named := by
  rw [shapeOf_word h.toList_ne_nil h.chars hrest, h.wordShape_eq]

lemma Decimal.exists_cons {text : String} (h : Decimal text) :
    ∃ c cs, text.toList = c :: cs ∧ c.isDigit := by
  obtain ⟨c, cs, hlist⟩ := List.exists_cons_of_ne_nil (by simpa using h.ne_empty : text.toList ≠ [])
  exact ⟨c, cs, hlist, h.digits c (by simp [hlist])⟩

lemma shapeOf_digit {c : Char} (hc : c.isDigit) (cs : List Char) :
    shapeOf ('[' :: c :: cs) = .sized := by
  -- the other shapes that begin with a bracket go on with `]` or a dot
  have hbracket : c ≠ ']' := by
    rintro rfl
    exact absurd hc (by decide)
  have hdot : c ≠ '.' := by
    rintro rfl
    exact absurd hc (by decide)
  unfold shapeOf
  split <;> simp_all

lemma shapeOf_chan (c : Char) (hc : ¬isWordChar c) (cs : List Char) :
    shapeOf (['c', 'h', 'a', 'n'] ++ c :: cs) = .chan (if c = '<' then .send else .both) := by
  rw [shapeOf_word (by simp) (List.all_eq_true.1 (by decide))]
  · rw [wordShape, if_neg (by decide), if_pos rfl]
    by_cases h : c = '<' <;> simp [h]
  · intro d hd
    obtain rfl := Option.some.inj hd
    exact hc

/-- A plain type begins with its shape. -/
lemma TypeExpr.Plain.shapeOf_eq (h : x.Plain) (hr : Stops r) : shapeOf (x.chars ++ r) = x.shape := by
  cases h with
  | @named pkg name args hpkg hname _ =>
    cases pkg with
    | none =>
      rw [chars_named, List.append_assoc]
      exact hname.shapeOf_eq fun c hc => (stops_argsChars hr args c hc).1
    | some pkg =>
      rw [chars_qualified, List.append_assoc]
      refine (hpkg pkg rfl).shapeOf_eq fun c hc => ?_
      obtain rfl := Option.some.inj hc
      decide
  | pointer _ => rw [chars_pointer]; rfl
  | slice _ => rw [chars_slice]; rfl
  | inferred _ => rw [chars_inferred]; rfl
  | sized hlength _ =>
    obtain ⟨c, cs, hlist, hc⟩ := hlength.exists_cons
    rw [chars_sized, hlist]
    exact shapeOf_digit hc _
  | map _ _ =>
    rw [chars_map, List.append_assoc, shapeOf_word (by simp) (List.all_eq_true.1 (by decide))]
    · rfl
    · intro c hc
      obtain rfl := Option.some.inj hc
      decide
  | chan dir _ =>
    rw [chars_chan, List.append_assoc]
    cases dir with
    | recv => rfl
    | both => exact shapeOf_chan ' ' (by decide) _
    | send => exact shapeOf_chan '<' (by decide) _
  | paren _ => rw [chars_paren]; rfl

/-! ## Reading -/

/-- The text of `a` can be read back: no other text of the kind `P` can be taken for it, if what
follows does not go on with either. -/
def ReadsBack {α : Type} (chars : α → List Char) (P : α → Prop) (a : α) : Prop :=
  ∀ ⦃b : α⦄, P b → ∀ ⦃r r' : List Char⦄, Stops r → Stops r' → chars a ++ r = chars b ++ r' →
    a = b ∧ r = r'

section Lists

variable {α : Type} {chars : α → List Char} {P : α → Prop} {sep : List Char} {as bs : List α}

lemma stops_later (hsep : ∀ cs, Stops (sep ++ cs)) (hr : Stops r) (as : List α) :
    Stops (later sep chars as ++ r) := by
  cases as with
  | nil => exact hr
  | cons a as =>
    rw [later, List.flatMap_cons, List.append_assoc, List.append_assoc]
    exact hsep _

/-- The members of a list are read one by one, as long as there is a separator. -/
lemma later_inj (hsep : ∀ cs, Stops (sep ++ cs)) (has : ∀ a ∈ as, ReadsBack chars P a)
    (hbs : ∀ b ∈ bs, P b) (hr : Stops r) (hr' : Stops r') (hend : ¬sep <+: r) (hend' : ¬sep <+: r')
    (h : later sep chars as ++ r = later sep chars bs ++ r') : as = bs ∧ r = r' := by
  induction as generalizing bs with
  | nil =>
    cases bs with
    | nil => exact ⟨rfl, h⟩
    | cons b bs =>
      -- one list ends where the other has a separator
      refine absurd ?_ hend
      rw [show r = later sep chars (b :: bs) ++ r' from h, later, List.flatMap_cons,
        List.append_assoc, List.append_assoc]
      exact List.prefix_append sep _
  | cons a as ih =>
    cases bs with
    | nil =>
      refine absurd ?_ hend'
      rw [show r' = later sep chars (a :: as) ++ r from h.symm, later, List.flatMap_cons,
        List.append_assoc, List.append_assoc]
      exact List.prefix_append sep _
    | cons b bs =>
      simp only [later, List.flatMap_cons, List.append_assoc, List.append_cancel_left_eq] at h
      obtain ⟨rfl, hrest⟩ := has a (by simp) (hbs b (by simp)) (stops_later hsep hr as)
        (stops_later hsep hr' bs) h
      obtain ⟨rfl, hend⟩ := ih (fun a ha => has a (by simp [ha])) (fun b hb => hbs b (by simp [hb]))
        hrest
      exact ⟨rfl, hend⟩

lemma joined_inj {a b : α} (hsep : ∀ cs, Stops (sep ++ cs))
    (has : ∀ c ∈ a :: as, ReadsBack chars P c) (hbs : ∀ c ∈ b :: bs, P c) (hr : Stops r)
    (hr' : Stops r') (hend : ¬sep <+: r) (hend' : ¬sep <+: r')
    (h : chars a ++ (later sep chars as ++ r) = chars b ++ (later sep chars bs ++ r')) :
    a :: as = b :: bs ∧ r = r' := by
  obtain ⟨rfl, hlater⟩ := has a (by simp) (hbs b (by simp)) (stops_later hsep hr as)
    (stops_later hsep hr' bs) h
  obtain ⟨rfl, hrest⟩ := later_inj hsep (fun c hc => has c (by simp [hc]))
    (fun c hc => hbs c (by simp [hc])) hr hr' hend hend' hlater
  exact ⟨rfl, hrest⟩

end Lists

/-- The type arguments after a name are read up to their bracket. -/
lemma argsChars_inj {xs ys : List TypeExpr}
    (hxs : ∀ x ∈ xs, ReadsBack TypeExpr.chars TypeExpr.Plain x) (hys : ∀ y ∈ ys, y.Plain)
    (hr : Stops r) (hr' : Stops r') (h : argsChars xs ++ r = argsChars ys ++ r') :
    xs = ys ∧ r = r' := by
  cases xs with
  | nil =>
    cases ys with
    | nil => exact ⟨rfl, h⟩
    | cons y ys =>
      -- a bracket after the name would belong to its arguments
      have hopen : '[' ∈ r.head? := by
        rw [show r = argsChars (y :: ys) ++ r' from h]
        rfl
      exact absurd hopen hr.bracket_not_mem
  | cons x xs =>
    cases ys with
    | nil =>
      have hopen : '[' ∈ r'.head? := by
        rw [show r' = argsChars (x :: xs) ++ r from h.symm]
        rfl
      exact absurd hopen hr'.bracket_not_mem
    | cons y ys =>
      simp only [argsChars, List.cons_append, List.append_assoc, List.cons.injEq, true_and,
        List.nil_append] at h
      have hclose (r : List Char) : Stops (']' :: r) := stops_cons (by decide) r
      have hsep (cs : List Char) : Stops ([',', ' '] ++ cs) := stops_cons (by decide) _
      obtain ⟨heq, hrest⟩ := joined_inj hsep hxs hys (hclose r) (hclose r') (by simp) (by simp) h
      exact ⟨heq, (List.cons.inj hrest).2⟩

/-- Words are read up to the first character that is no letter. -/
lemma identifier_inj {name name' : String} (hname : Identifier name) (hname' : Identifier name')
    (hr : ∀ c ∈ r.head?, ¬isWordChar c) (hr' : ∀ c ∈ r'.head?, ¬isWordChar c)
    (h : name.toList ++ r = name'.toList ++ r') : name = name' ∧ r = r' := by
  obtain ⟨heq, hrest⟩ := List.append_inj_of_stop hname.chars hname'.chars hr hr' h
  exact ⟨String.toList_inj.1 heq, hrest⟩

lemma decimal_inj {text text' : String} (htext : Decimal text) (htext' : Decimal text')
    (h : text.toList ++ ']' :: r = text'.toList ++ ']' :: r') : text = text' ∧ r = r' := by
  have hclose (r : List Char) : ∀ c ∈ (']' :: r).head?, ¬c.isDigit := by
    intro c hc
    obtain rfl := Option.some.inj hc
    decide
  obtain ⟨heq, hrest⟩ :=
    List.append_inj_of_stop htext.digits htext'.digits (hclose r) (hclose r') h
  exact ⟨String.toList_inj.1 heq, (List.cons.inj hrest).2⟩

/-- A name with its arguments. A dot after a word makes it the name of a package. -/
lemma named_readsBack {pkg : Option String} {name : String} {args : List TypeExpr}
    (hpkg : ∀ q ∈ pkg, Identifier q) (hname : Identifier name)
    (hargs : ∀ x ∈ args, ReadsBack TypeExpr.chars TypeExpr.Plain x) {pkg' : Option String}
    {name' : String} {args' : List TypeExpr} (hpkg' : ∀ q ∈ pkg', Identifier q)
    (hname' : Identifier name') (hargs' : ∀ x ∈ args', x.Plain) (hr : Stops r) (hr' : Stops r')
    (h : (TypeExpr.named pkg name args).chars ++ r = (TypeExpr.named pkg' name' args').chars ++ r') :
    TypeExpr.named pkg name args = .named pkg' name' args' ∧ r = r' := by
  have hstop (args : List TypeExpr) {r : List Char} (hr : Stops r) :
      ∀ c ∈ (argsChars args ++ r).head?, ¬isWordChar c := fun c hc => (stops_argsChars hr args c hc).1
  have hdot (cs : List Char) : ∀ c ∈ ('.' :: cs).head?, ¬isWordChar c := by
    intro c hc
    obtain rfl := Option.some.inj hc
    decide
  cases pkg with
  | none =>
    cases pkg' with
    | none =>
      simp only [TypeExpr.chars_named, List.append_assoc] at h
      obtain ⟨rfl, hafter⟩ := identifier_inj hname hname' (hstop args hr) (hstop args' hr') h
      obtain ⟨rfl, hrest⟩ := argsChars_inj hargs hargs' hr hr' hafter
      exact ⟨rfl, hrest⟩
    | some q =>
      simp only [TypeExpr.chars_named, TypeExpr.chars_qualified, List.append_assoc,
        List.cons_append] at h
      obtain ⟨-, hafter⟩ := identifier_inj hname (hpkg' q rfl) (hstop args hr) (hdot _) h
      -- the words agree, but only one of them has a dot behind it
      exact absurd (by rw [hafter]; rfl) (dot_not_mem_argsChars hr args)
  | some q =>
    cases pkg' with
    | none =>
      simp only [TypeExpr.chars_named, TypeExpr.chars_qualified, List.append_assoc,
        List.cons_append] at h
      obtain ⟨-, hafter⟩ := identifier_inj (hpkg q rfl) hname' (hdot _) (hstop args' hr') h
      exact absurd (by rw [← hafter]; rfl) (dot_not_mem_argsChars hr' args')
    | some q' =>
      simp only [TypeExpr.chars_qualified, List.append_assoc, List.cons_append] at h
      obtain ⟨rfl, hdotted⟩ := identifier_inj (hpkg q rfl) (hpkg' q' rfl) (hdot _) (hdot _) h
      obtain ⟨rfl, hafter⟩ := identifier_inj hname hname' (hstop args hr) (hstop args' hr')
        (List.cons.inj hdotted).2
      obtain ⟨rfl, hrest⟩ := argsChars_inj hargs hargs' hr hr' hafter
      exact ⟨rfl, hrest⟩

namespace TypeExpr

lemma Plain.shape_eq (hx : x.Plain) (hy : y.Plain) (hr : Stops r) (hr' : Stops r')
    (h : x.chars ++ r = y.chars ++ r') : x.shape = y.shape := by
  rw [← hx.shapeOf_eq hr, ← hy.shapeOf_eq hr', h]

/-- Plain types can be read back. -/
lemma Plain.readsBack (hx : x.Plain) : ReadsBack chars Plain x := by
  have hclose (r : List Char) : Stops (']' :: r) := stops_cons (by decide) r
  have hround (r : List Char) : Stops (')' :: r) := stops_cons (by decide) r
  -- the shapes of two types with the same characters agree, and then their parts do in turn
  induction hx with
  | named hpkg hname hargs ih =>
    intro y hy r r' hr hr' h
    have hshape := (named hpkg hname hargs).shape_eq hy hr hr' h
    cases hy with
    | named hpkg' hname' hargs' => exact named_readsBack hpkg hname ih hpkg' hname' hargs' hr hr' h
    | _ => simp [shape] at hshape
  | pointer hx ih =>
    intro y hy r r' hr hr' h
    have hshape := (pointer hx).shape_eq hy hr hr' h
    cases hy with
    | pointer hy =>
      simp only [chars_pointer, List.cons_append, List.cons.injEq, true_and] at h
      obtain ⟨rfl, hrest⟩ := ih hy hr hr' h
      exact ⟨rfl, hrest⟩
    | _ => simp [shape] at hshape
  | slice hx ih =>
    intro y hy r r' hr hr' h
    have hshape := (slice hx).shape_eq hy hr hr' h
    cases hy with
    | slice hy =>
      simp only [chars_slice, List.cons_append, List.cons.injEq, true_and] at h
      obtain ⟨rfl, hrest⟩ := ih hy hr hr' h
      exact ⟨rfl, hrest⟩
    | _ => simp [shape] at hshape
  | inferred hx ih =>
    intro y hy r r' hr hr' h
    have hshape := (inferred hx).shape_eq hy hr hr' h
    cases hy with
    | inferred hy =>
      simp only [chars_inferred, List.cons_append, List.cons.injEq, true_and] at h
      obtain ⟨rfl, hrest⟩ := ih hy hr hr' h
      exact ⟨rfl, hrest⟩
    | _ => simp [shape] at hshape
  | sized hlength hx ih =>
    intro y hy r r' hr hr' h
    have hshape := (sized hlength hx).shape_eq hy hr hr' h
    cases hy with
    | sized hlength' hy =>
      simp only [chars_sized, List.cons_append, List.append_assoc, List.cons.injEq, true_and] at h
      obtain ⟨rfl, helem⟩ := decimal_inj hlength hlength' h
      obtain ⟨rfl, hrest⟩ := ih hy hr hr' helem
      exact ⟨rfl, hrest⟩
    | _ => simp [shape] at hshape
  | map hkey hval ihkey ihval =>
    intro y hy r r' hr hr' h
    have hshape := (map hkey hval).shape_eq hy hr hr' h
    cases hy with
    | map hkey' hval' =>
      simp only [chars_map, List.cons_append, List.append_assoc, List.append_cancel_left_eq,
        List.cons.injEq, true_and] at h
      -- the key ends at its bracket, and the value where the whole type does
      obtain ⟨rfl, hclosed⟩ := ihkey hkey' (hclose _) (hclose _) h
      obtain ⟨rfl, hrest⟩ := ihval hval' hr hr' (List.cons.inj hclosed).2
      exact ⟨rfl, hrest⟩
    | _ => simp [shape] at hshape
  | chan dir hx ih =>
    intro y hy r r' hr hr' h
    have hshape := (chan dir hx).shape_eq hy hr hr' h
    cases hy with
    | chan dir' hy =>
      obtain rfl := Shape.chan.inj hshape
      simp only [chars_chan, List.append_assoc, List.append_cancel_left_eq] at h
      obtain ⟨rfl, hrest⟩ := ih hy hr hr' h
      exact ⟨rfl, hrest⟩
    | _ => simp [shape] at hshape
  | paren hx ih =>
    intro y hy r r' hr hr' h
    have hshape := (paren hx).shape_eq hy hr hr' h
    cases hy with
    | paren hy =>
      simp only [chars_paren, List.cons_append, List.append_assoc, List.cons.injEq, true_and] at h
      obtain ⟨rfl, hclosed⟩ := ih hy (hround r) (hround r') h
      exact ⟨rfl, (List.cons.inj hclosed).2⟩
    | _ => simp [shape] at hshape

/-- Plain types are determined by their texts. -/
lemma Plain.text_inj (hx : x.Plain) (hy : y.Plain) : x.text = y.text ↔ x = y := by
  constructor
  · intro h
    have hchars : x.chars ++ [] = y.chars ++ [] := by rw [chars, chars, h]
    exact (hx.readsBack hy stops_nil stops_nil hchars).1
  · rintro rfl
    rfl

lemma Plain.shape_ne_other (hx : x.Plain) : x.shape ≠ .other := by
  cases hx <;> simp [shape]

/-- The text of a plain type is not empty, and it does not begin with a tilde. -/
lemma Plain.head_chars (hx : x.Plain) : ∃ c cs, x.chars = c :: cs ∧ c ≠ '~' := by
  have hshape := hx.shapeOf_eq stops_nil
  rw [List.append_nil] at hshape
  cases hchars : x.chars with
  | nil =>
    rw [hchars] at hshape
    exact absurd hshape.symm hx.shape_ne_other
  | cons c cs =>
    refine ⟨c, cs, rfl, ?_⟩
    rintro rfl
    rw [hchars] at hshape
    exact absurd hshape.symm hx.shape_ne_other

lemma Plain.text_ne_empty (hx : x.Plain) : x.text ≠ "" := by
  obtain ⟨c, cs, hchars, -⟩ := hx.head_chars
  intro h
  rw [chars, h] at hchars
  simp at hchars

end TypeExpr

/-! ## Unions -/

namespace TypeTerm

lemma chars_mk (tilde : Bool) (x : TypeExpr) :
    (TypeTerm.mk tilde x).chars = (if tilde then ['~'] else []) ++ x.chars := by
  cases tilde <;> simp [chars, TypeTerm.text, markText, TypeExpr.chars]

/-- Only a term with a tilde begins with one. -/
lemma Plain.readsBack {t : TypeTerm} (ht : t.Plain) : ReadsBack chars Plain t := by
  rintro ⟨tilde', y⟩ hy r r' hr hr' h
  obtain ⟨tilde, x⟩ := t
  have hx : x.Plain := ht
  have hy : y.Plain := hy
  obtain ⟨c, cs, hxchars, hc⟩ := hx.head_chars
  obtain ⟨d, ds, hychars, hd⟩ := hy.head_chars
  simp only [chars_mk] at h
  have htilde : tilde = tilde' := by
    rw [hxchars, hychars] at h
    -- a type never begins with a tilde, so the first character tells whether there is one
    cases tilde with
    | true =>
      cases tilde' with
      | true => rfl
      | false => exact absurd (List.cons.inj h).1.symm hd
    | false =>
      cases tilde' with
      | true => exact absurd (List.cons.inj h).1 hc
      | false => rfl
  subst htilde
  rw [List.append_assoc, List.append_assoc, List.append_cancel_left_eq] at h
  obtain ⟨rfl, hrest⟩ := hx.readsBack hy hr hr' h
  exact ⟨rfl, hrest⟩

lemma Plain.chars_ne_nil {t : TypeTerm} (ht : t.Plain) : t.chars ≠ [] := by
  obtain ⟨tilde, x⟩ := t
  have hx : x.Plain := ht
  obtain ⟨c, cs, hchars, -⟩ := hx.head_chars
  rw [chars_mk, hchars]
  simp

end TypeTerm

lemma toList_unionText (t : TypeTerm) (ts : List TypeTerm) :
    (unionText (t :: ts)).toList = t.chars ++ later [' ', '|', ' '] TypeTerm.chars ts := by
  have hchars : String.toList ∘ TypeTerm.text = TypeTerm.chars := rfl
  rw [unionText, termTexts, termTexts_eq, toList_joinWith, later_map, hchars]
  rfl

/-- Unions of plain types are determined by their texts. -/
lemma unionText_inj {ts us : List TypeTerm} (hts : ∀ t ∈ ts, t.Plain) (hus : ∀ u ∈ us, u.Plain) :
    unionText ts = unionText us ↔ ts = us := by
  refine ⟨fun h => ?_, fun h => by rw [h]⟩
  have hempty {t : TypeTerm} {ts : List TypeTerm} (ht : t.Plain) : unionText (t :: ts) ≠ "" := by
    intro h
    have hlist := toList_unionText t ts
    rw [h] at hlist
    exact ht.chars_ne_nil (List.append_eq_nil_iff.1 hlist.symm).1
  cases ts with
  | nil =>
    cases us with
    | nil => rfl
    | cons u us => exact absurd h.symm (hempty (hus u (by simp)))
  | cons t ts =>
    cases us with
    | nil => exact absurd h (hempty (hts t (by simp)))
    | cons u us =>
      have hsep (cs : List Char) : Stops ([' ', '|', ' '] ++ cs) := stops_cons (by decide) _
      have hlist : t.chars ++ (later [' ', '|', ' '] TypeTerm.chars ts ++ []) =
          u.chars ++ (later [' ', '|', ' '] TypeTerm.chars us ++ []) := by
        rw [List.append_nil, List.append_nil, ← toList_unionText, ← toList_unionText, h]
      exact (joined_inj hsep (fun t ht => (hts t ht).readsBack) hus stops_nil stops_nil (by simp)
        (by simp) hlist).1

end GoOutline.Source
