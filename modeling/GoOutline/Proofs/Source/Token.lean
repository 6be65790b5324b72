/-
# Tokens

A text is split into tokens from left to right. A word goes on as long as letters, digits or
underscores follow, a number as long as digits or underscores follow, and an operator is the longest
one that the text goes on with. Blanks separate tokens and mean nothing else.

What the next token is depends only on where it ends: a word ends where no letter follows, and an
operator where it cannot be continued to a longer one.
-/
import GoOutline.Proofs.Source.Readability

namespace GoOutline.Source

/-! ## Splitting -/

/-- A token with its text. Keywords count as words, and punctuation as operators. -/
inductive Token where
  | word (text : String)
  | number (text : String)
  | operator (text : String)
deriving DecidableEq, Repr

/-- The operators and the punctuation of Go, the longer ones first. -/
def operators : List String :=
  ["<<=", ">>=", "&^=", "...", "<<", ">>", "&^", "+=", "-=", "*=", "/=", "%=", "&=", "|=", "^=", "&&",
    "||", "<-", "++", "--", "==", "!=", "<=", ">=", ":=", "+", "-", "*", "/", "%", "&", "|", "^", "<",
    ">", "=", "!", "(", ")", "[", "]", "\x7b", "\x7d", ",", ";", ".", ":", "~"]

/-- What a number goes on with. -/
def isNumberChar (c : Char) : Bool := c.isDigit || c == '_'

/-- The longest operator that some characters begin with. -/
def operator? (cs : List Char) : Option String := operators.find? fun op => op.toList.isPrefixOf cs

/-- The first token, and the characters after it. -/
def nextToken? : List Char → Option (Token × List Char)
  | [] => none
  | c :: cs =>
    if c.isDigit then
      some (.number (String.ofList (c :: cs.takeWhile isNumberChar)), cs.dropWhile isNumberChar)
    else if isWordChar c then
      some (.word (String.ofList (c :: cs.takeWhile isWordChar)), cs.dropWhile isWordChar)
    else (operator? (c :: cs)).map fun op => (.operator op, (c :: cs).drop op.length)

lemma length_pos_of_mem_operators : ∀ op ∈ operators, 0 < op.length := by decide

lemma nextToken?_shorter {cs rest : List Char} {token : Token}
    (h : nextToken? cs = some (token, rest)) : rest.length < cs.length := by
  cases cs with
  | nil => simp [nextToken?] at h
  | cons c cs =>
    rw [nextToken?] at h
    split at h
    · obtain ⟨-, rfl⟩ := Prod.mk.inj (Option.some.inj h)
      exact Nat.lt_succ_of_le (cs.dropWhile_suffix _).length_le
    split at h
    · obtain ⟨-, rfl⟩ := Prod.mk.inj (Option.some.inj h)
      exact Nat.lt_succ_of_le (cs.dropWhile_suffix _).length_le
    · obtain ⟨op, hop, heq⟩ := Option.map_eq_some_iff.1 h
      obtain ⟨-, rfl⟩ := Prod.mk.inj heq
      have hpos := length_pos_of_mem_operators op (List.mem_of_find?_eq_some hop)
      rw [List.length_drop, List.length_cons]
      omega

/-- The tokens of some characters, if they can be split into tokens. -/
def tokens? : List Char → Option (List Token)
  | [] => some []
  | c :: cs =>
    if c = ' ' then tokens? cs
    else
      match _h : nextToken? (c :: cs) with
      | none => none
      | some (token, rest) => (tokens? rest).map (token :: ·)
termination_by cs => cs.length
decreasing_by
  · simp
  · exact nextToken?_shorter ‹_›

/-! ## The first token -/

variable {cs rest : List Char} {op op' : String}

lemma tokens?_blank (cs : List Char) : tokens? (' ' :: cs) = tokens? cs := by
  rw [tokens?, if_pos rfl]

lemma tokens?_eq {token : Token} (hblank : ' ' ∉ cs.head?)
    (h : nextToken? cs = some (token, rest)) :
    tokens? cs = (tokens? rest).map (token :: ·) := by
  cases cs with
  | nil => simp [nextToken?] at h
  | cons c cs =>
    have hc : c ≠ ' ' := fun heq => hblank (congrArg some heq)
    rw [tokens?, if_neg hc]
    split
    case h_1 hnone => simp [hnone] at h
    case h_2 hsome =>
      obtain ⟨rfl, rfl⟩ := Prod.mk.inj (Option.some.inj (hsome.symm.trans h))
      rfl

/-- A word ends where no letter follows. -/
lemma tokens?_word {word : String} (hhead : ∃ c ∈ word.toList.head?, ¬c.isDigit)
    (hword : ∀ c ∈ word.toList, isWordChar c) (hrest : ∀ c ∈ rest.head?, ¬isWordChar c) :
    tokens? (word.toList ++ rest) = (tokens? rest).map (.word word :: ·) := by
  obtain ⟨c, hc, hdigit⟩ := hhead
  obtain ⟨cs, hcs⟩ := List.head?_eq_some_iff.1 hc
  rw [hcs] at hword ⊢
  have hletter := hword c (by simp)
  obtain ⟨htake, hdrop⟩ :=
    List.takeWhile_append_stop (fun d hd => hword d (List.mem_cons_of_mem c hd)) hrest
  refine tokens?_eq ?_ ?_
  · intro heq
    obtain rfl := Option.some.inj heq
    exact absurd hletter (by decide)
  · rw [List.cons_append, nextToken?, if_neg hdigit, if_pos hletter, htake, hdrop, ← hcs,
      String.ofList_toList]

/-- A number ends where no digit follows. -/
lemma tokens?_number {text : String} (hhead : ∃ c ∈ text.toList.head?, c.isDigit)
    (htext : ∀ c ∈ text.toList, isNumberChar c) (hrest : ∀ c ∈ rest.head?, ¬isNumberChar c) :
    tokens? (text.toList ++ rest) = (tokens? rest).map (.number text :: ·) := by
  obtain ⟨c, hc, hdigit⟩ := hhead
  obtain ⟨cs, hcs⟩ := List.head?_eq_some_iff.1 hc
  rw [hcs] at htext ⊢
  obtain ⟨htake, hdrop⟩ :=
    List.takeWhile_append_stop (fun d hd => htext d (List.mem_cons_of_mem c hd)) hrest
  refine tokens?_eq ?_ ?_
  · intro heq
    obtain rfl := Option.some.inj heq
    exact absurd hdigit (by decide)
  · rw [List.cons_append, nextToken?, if_pos hdigit, htake, hdrop, ← hcs, String.ofList_toList]

/-! ## The longest operator -/

lemma operators_longer_first : operators.Pairwise fun op op' => op'.length ≤ op.length := by decide

lemma operator?_fits (h : operator? cs = some op) : op ∈ operators ∧ op.toList <+: cs := by
  rw [operator?] at h
  have hfit := List.find?_some h
  exact ⟨List.mem_of_find?_eq_some h, List.isPrefixOf_iff_prefix.1 hfit⟩

lemma exists_operator? (hmem : op ∈ operators) (hbegins : op.toList <+: cs) :
    ∃ longest, operator? cs = some longest :=
  Option.isSome_iff_exists.1
    (List.find?_isSome.2 ⟨op, hmem, List.isPrefixOf_iff_prefix.2 hbegins⟩)

/-- No operator that the characters begin with is longer than the one that is read. -/
lemma length_le_of_operator? (h : operator? cs = some op) (hmem : op' ∈ operators)
    (hbegins : op'.toList <+: cs) : op'.length ≤ op.length := by
  obtain ⟨-, before, after, hsplit, hbefore⟩ := List.find?_eq_some_iff_append.1 h
  have hlonger := operators_longer_first
  rw [hsplit] at hmem hlonger
  rcases List.mem_append.1 hmem with hmem | hmem
  · -- what stands before the operator that is read does not fit
    have hfit := List.isPrefixOf_iff_prefix.2 hbegins
    exact absurd (hbefore op' hmem) (by simp [hfit])
  · rcases List.mem_cons.1 hmem with rfl | hmem
    · exact Nat.le_refl _
    · exact (List.pairwise_cons.1 (List.pairwise_append.1 hlonger).2.1).1 op' hmem

/-- Some operator goes on with the character after this one. -/
def Continues (op : String) (c : Char) : Prop :=
  ∃ longer ∈ operators, op.toList ++ [c] <+: longer.toList

instance (op : String) (c : Char) : Decidable (Continues op c) :=
  inferInstanceAs (Decidable (∃ longer ∈ operators, _))

/-- An operator is the longest one if the character after it does not continue it. -/
lemma operator?_append (hop : op ∈ operators) (hrest : ∀ c ∈ rest.head?, ¬Continues op c) :
    operator? (op.toList ++ rest) = some op := by
  have hfit : op.toList <+: op.toList ++ rest := List.prefix_append _ _
  obtain ⟨longest, hlongest⟩ := exists_operator? hop hfit
  obtain ⟨hmem, hbegins⟩ := operator?_fits hlongest
  have hle := length_le_of_operator? hlongest hop hfit
  obtain ⟨more, hmore⟩ := List.prefix_of_prefix_length_le hfit hbegins hle
  cases more with
  | nil => rw [hlongest, String.toList_inj.1 ((List.append_nil _).symm.trans hmore)]
  | cons c more =>
    -- the characters after the operator would go on with it
    rw [← hmore, List.prefix_append_right_inj] at hbegins
    obtain ⟨after, rfl⟩ := hbegins
    have hcontinues : Continues op c := ⟨longest, hmem, more, by rw [← hmore]; simp⟩
    exact absurd hcontinues (hrest c rfl)

lemma not_isWordChar_of_mem_operators (hop : op ∈ operators) {c : Char} (hc : c ∈ op.toList) :
    ¬isWordChar c ∧ c ≠ ' ' := by
  have hall : ∀ op ∈ operators, op.toList.all fun c => !isWordChar c && c != ' ' := by decide
  simpa using List.all_eq_true.1 (hall op hop) c hc

lemma isWordChar_of_isDigit {c : Char} (h : c.isDigit) : isWordChar c := by
  simp [isWordChar, Char.isAlphanum, h]

lemma nextToken?_of_operator? (h : operator? cs = some op) :
    nextToken? cs = some (.operator op, cs.drop op.length) ∧ ' ' ∉ cs.head? := by
  obtain ⟨hmem, more, rfl⟩ := operator?_fits h
  obtain ⟨c, cs, hcs⟩ := List.exists_cons_of_ne_nil
    (List.ne_nil_of_length_pos (length_pos_of_mem_operators op hmem))
  obtain ⟨hword, hblank⟩ := not_isWordChar_of_mem_operators hmem (c := c) (by simp [hcs])
  have hdigit : ¬c.isDigit := fun hdigit => hword (isWordChar_of_isDigit hdigit)
  rw [hcs, List.cons_append] at h ⊢
  refine ⟨?_, fun heq => hblank (Option.some.inj heq)⟩
  rw [nextToken?, if_neg hdigit, if_neg hword, h]
  rfl

/-- An operator ends where no longer one goes on. -/
lemma tokens?_operator (hop : op ∈ operators) (hrest : ∀ c ∈ rest.head?, ¬Continues op c) :
    tokens? (op.toList ++ rest) = (tokens? rest).map (.operator op :: ·) := by
  obtain ⟨hnext, hblank⟩ := nextToken?_of_operator? (operator?_append hop hrest)
  have hdrop : (op.toList ++ rest).drop op.length = rest := List.drop_left
  rw [tokens?_eq hblank hnext, hdrop]

/-! ## Brackets -/

/-- The brackets of lists, indices and lengths. -/
def brackets : List String := ["(", ")", "[", "]"]

lemma brackets_subset : brackets ⊆ operators := by decide

lemma eq_bracket_of_begins : ∀ op ∈ brackets, ∀ longer ∈ operators, op.toList <+: longer.toList →
    longer = op := by decide

/-- No operator goes on after a bracket. -/
lemma not_continues_bracket (hop : op ∈ brackets) (c : Char) : ¬Continues op c := by
  rintro ⟨longer, hmem, hbegins⟩
  obtain rfl := eq_bracket_of_begins op hop longer hmem ((List.prefix_append _ _).trans hbegins)
  have hle := hbegins.length_le
  rw [List.length_append, List.length_singleton] at hle
  omega

/-- A bracket is a token, whatever follows. -/
lemma tokens?_bracket (hop : op ∈ brackets) (cs : List Char) :
    tokens? (op.toList ++ cs) = (tokens? cs).map (.operator op :: ·) :=
  tokens?_operator (brackets_subset hop) fun c _ => not_continues_bracket hop c

/-! ## Tokens that run together -/

/-- Characters that begin with a longer operator do not begin with the token of a shorter one. -/
lemma tokens?_ne_of_longer {tokens : List Token} (hop : op' ∈ operators)
    (hbegins : op'.toList <+: cs) (hlonger : op.length < op'.length) :
    tokens? cs ≠ some (.operator op :: tokens) := by
  obtain ⟨longest, hlongest⟩ := exists_operator? hop hbegins
  obtain ⟨hnext, hblank⟩ := nextToken?_of_operator? hlongest
  have hle := length_le_of_operator? hlongest hop hbegins
  intro h
  rw [tokens?_eq hblank hnext] at h
  obtain ⟨rest, -, heq⟩ := Option.map_eq_some_iff.1 h
  obtain rfl := Token.operator.inj (List.cons.inj heq).1
  omega

end GoOutline.Source
