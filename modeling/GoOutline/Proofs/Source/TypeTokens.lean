/-
# The tokens of types

The text of a type can be pasted into Go source, where blanks mean nothing but that a token ends. What
is left of the type is then the list of its tokens, and Go reads a type off them again. It reads the
same type except for the arrows of channels: an arrow between two `chan`s may belong to either of them,
as `chan <-chan int` and `chan<- chan int` have the same tokens, and Go takes it for one of the first.

So two types have the same tokens exactly if they are the same after every arrow has moved to the
leftmost channel that can have it. Arrows move only where a channel of both directions carries
receiving channels.
-/
import GoOutline.Proofs.Source.ExprTokens

namespace GoOutline.Source

/-! ## Simple types -/

namespace TypeExpr

/-- Types of names, pointers, slices, maps, channels and parentheses. -/
inductive Simple : TypeExpr → Prop
  | named {name : String} (hname : Identifier name) (hhead : ∃ c ∈ name.toList.head?, ¬c.isDigit) :
    Simple (.named none name [])
  | pointer {elem : TypeExpr} (helem : Simple elem) : Simple (.pointer elem)
  | slice {elem : TypeExpr} (helem : Simple elem) : Simple (.slice elem)
  | map {key val : TypeExpr} (hkey : Simple key) (hval : Simple val) : Simple (.map key val)
  | chan (dir : ChanDir) {elem : TypeExpr} (helem : Simple elem) : Simple (.chan dir elem)
  | paren {inner : TypeExpr} (hinner : Simple inner) : Simple (.paren inner)

/-- Whether a type is simple. -/
def isSimple : TypeExpr → Bool
  | .named none name [] => Identifier name && name.toList.head?.any fun c => !c.isDigit
  | .pointer elem => elem.isSimple
  | .slice elem => elem.isSimple
  | .map key val => key.isSimple && val.isSimple
  | .chan _ elem => elem.isSimple
  | .paren inner => inner.isSimple
  | _ => false

lemma simple_of_isSimple : ∀ x : TypeExpr, x.isSimple = true → x.Simple
  | .named none name [], h => by
    simp only [isSimple, Bool.and_eq_true, decide_eq_true_eq] at h
    obtain ⟨c, hc, hdigit⟩ := (Option.any_eq_true _ _).1 h.2
    exact .named h.1 ⟨c, hc, by simpa using hdigit⟩
  | .pointer elem, h => .pointer (simple_of_isSimple elem h)
  | .slice elem, h => .slice (simple_of_isSimple elem h)
  | .map key val, h => by
    simp only [isSimple, Bool.and_eq_true] at h
    exact .map (simple_of_isSimple key h.1) (simple_of_isSimple val h.2)
  | .chan dir elem, h => .chan dir (simple_of_isSimple elem h)
  | .paren inner, h => .paren (simple_of_isSimple inner h)

lemma Simple.isSimple {x : TypeExpr} (h : x.Simple) : x.isSimple = true := by
  induction h with
  | named hname hhead =>
    obtain ⟨c, hc, hdigit⟩ := hhead
    simp only [TypeExpr.isSimple, Bool.and_eq_true, decide_eq_true_eq]
    exact ⟨hname, (Option.any_eq_true _ _).2 ⟨c, hc, by simpa using hdigit⟩⟩
  | pointer _ ih => exact ih
  | slice _ ih => exact ih
  | map _ _ ihkey ihval => simp [TypeExpr.isSimple, ihkey, ihval]
  | chan _ _ ih => exact ih
  | paren _ ih => exact ih

instance (x : TypeExpr) : Decidable x.Simple :=
  decidable_of_iff (x.isSimple = true) ⟨x.simple_of_isSimple, Simple.isSimple⟩

lemma Simple.plain {x : TypeExpr} (h : x.Simple) : x.Plain := by
  induction h with
  | named hname _ => exact .named (by simp) hname (by simp)
  | pointer _ ih => exact .pointer ih
  | slice _ ih => exact .slice ih
  | map _ _ ihkey ihval => exact .map ihkey ihval
  | chan dir _ ih => exact .chan dir ih
  | paren _ ih => exact .paren ih

end TypeExpr

/-- The tokens that open a channel type. -/
def chanTokens : ChanDir → List Token
  | .both => [.word "chan"]
  | .send => [.word "chan", .operator "<-"]
  | .recv => [.operator "<-", .word "chan"]

/-- The tokens of a simple type, in order. -/
def TypeExpr.tokens : TypeExpr → List Token
  | .named _ name _ => [.word name]
  | .pointer elem => .operator "*" :: elem.tokens
  | .slice elem => .operator "[" :: .operator "]" :: elem.tokens
  | .map key val => .word "map" :: .operator "[" :: (key.tokens ++ .operator "]" :: val.tokens)
  | .chan dir elem => chanTokens dir ++ elem.tokens
  | .paren inner => .operator "(" :: (inner.tokens ++ [.operator ")"])
  | _ => []

variable {x y : TypeExpr} {rest : List Char}

/-! ## The text of a type -/

lemma tokens?_chanWord (dir : ChanDir) (cs : List Char) :
    tokens? ((chanWord dir).toList ++ cs) = (tokens? cs).map (chanTokens dir ++ ·) := by
  have hword {cs : List Char} (hcs : ∀ c ∈ cs.head?, ¬isWordChar c) :
      tokens? ("chan".toList ++ cs) = (tokens? cs).map (.word "chan" :: ·) :=
    tokens?_word ⟨'c', rfl, by decide⟩ (List.all_eq_true.1 (by decide)) hcs
  have harrow {cs : List Char} (hcs : ∀ c ∈ cs.head?, isSeparate c) :
      tokens? ("<-".toList ++ cs) = (tokens? cs).map (.operator "<-" :: ·) :=
    tokens?_operator_separate (by decide) hcs
  cases dir with
  | both =>
    have hsplit : (chanWord .both).toList ++ cs = "chan".toList ++ ' ' :: cs := rfl
    rw [hsplit, hword (by simp; decide), tokens?_blank]
    rfl
  | send =>
    have hsplit : (chanWord .send).toList ++ cs = "chan".toList ++ ("<-".toList ++ ' ' :: cs) := rfl
    rw [hsplit, hword (by simp; decide), harrow (by simp; decide), tokens?_blank, Option.map_map]
    rfl
  | recv =>
    have hsplit : (chanWord .recv).toList ++ cs = "<-".toList ++ ("chan".toList ++ ' ' :: cs) := rfl
    rw [hsplit, harrow (by simp; decide), hword (by simp; decide), tokens?_blank, Option.map_map]
    rfl

/-- Only an assignment goes on with a star. -/
lemma eq_of_continues_star {c : Char} (h : Continues "*" c) : c = '=' := by
  have hstars : ∀ longer ∈ operators, "*".toList <+: longer.toList → longer ∈ ["*", "*="] := by
    decide
  obtain ⟨longer, hmem, hbegins⟩ := h
  have hlonger := hstars longer hmem ((List.prefix_append _ _).trans hbegins)
  rcases List.mem_pair.1 hlonger with rfl | rfl
  · simp at hbegins
  · simpa using hbegins

/-- No type begins with an equals sign. -/
lemma TypeExpr.Simple.not_continues_star (hx : x.Simple) (rest : List Char) :
    ∀ c ∈ (x.chars ++ rest).head?, ¬Continues "*" c := by
  obtain ⟨d, ds, hchars, -⟩ := hx.plain.head_chars
  have hshape := hx.plain.shapeOf_eq stops_nil
  rw [List.append_nil, hchars] at hshape
  rw [hchars]
  intro c hc hcontinues
  obtain rfl := Option.some.inj hc
  obtain rfl := eq_of_continues_star hcontinues
  exact hx.plain.shape_ne_other hshape.symm

lemma chars_map_append (x y : TypeExpr) (rest : List Char) :
    (TypeExpr.map x y).chars ++ rest =
      "map".toList ++ ("[".toList ++ (x.chars ++ ("]".toList ++ (y.chars ++ rest)))) := by
  simp [TypeExpr.chars_map]

lemma chars_paren_append (x : TypeExpr) (rest : List Char) :
    (TypeExpr.paren x).chars ++ rest = "(".toList ++ (x.chars ++ (")".toList ++ rest)) := by
  simp [TypeExpr.chars_paren]

/-- The tokens in the text of a type are those of the type, if no letter follows that could go on with
its last name. -/
lemma TypeExpr.Simple.tokens?_chars (hx : x.Simple) (hrest : ∀ c ∈ rest.head?, ¬isWordChar c) :
    tokens? (x.chars ++ rest) = (tokens? rest).map (x.tokens ++ ·) := by
  have hround : "(" ∈ brackets ∧ ")" ∈ brackets := by decide
  have hsquare : "[" ∈ brackets ∧ "]" ∈ brackets := by decide
  induction hx generalizing rest with
  | @named name hname hhead =>
    rw [chars_named, argsChars, List.append_nil]
    exact tokens?_word hhead hname.chars hrest
  | @pointer x hx ih =>
    have hstar : (TypeExpr.pointer x).chars ++ rest = "*".toList ++ (x.chars ++ rest) := by
      rw [chars_pointer]
      rfl
    rw [hstar, tokens?_operator (by decide) (hx.not_continues_star rest), ih hrest, Option.map_map]
    rfl
  | @slice x _ ih =>
    have hempty : (TypeExpr.slice x).chars ++ rest =
        "[".toList ++ ("]".toList ++ (x.chars ++ rest)) := by
      rw [chars_slice]
      rfl
    rw [hempty, tokens?_bracket hsquare.1, tokens?_bracket hsquare.2, ih hrest, Option.map_map,
      Option.map_map]
    rfl
  | map _ _ ihkey ihval =>
    rw [chars_map_append, tokens?_word ⟨'m', rfl, by decide⟩ (List.all_eq_true.1 (by decide))
      (by simp; decide), tokens?_bracket hsquare.1, ihkey (by simp; decide), tokens?_bracket hsquare.2,
      ihval hrest]
    simp [tokens, Function.comp_def]
  | chan dir _ ih =>
    rw [chars_chan, List.append_assoc, tokens?_chanWord, ih hrest]
    simp [tokens, Function.comp_def]
  | paren _ ih =>
    rw [chars_paren_append, tokens?_bracket hround.1, ih (by simp; decide), tokens?_bracket hround.2]
    simp [tokens, Function.comp_def]

/-! ## Reading tokens -/

/-- The simple type that some tokens begin with, and the number of its tokens. An arrow behind `chan`
belongs to that channel. -/
def parseType? : List Token → Option (TypeExpr × Nat)
  | .word "chan" :: .operator "<-" :: ts =>
    (parseType? ts).map fun (elem, n) => (.chan .send elem, n + 2)
  | .word "chan" :: ts => (parseType? ts).map fun (elem, n) => (.chan .both elem, n + 1)
  | .operator "<-" :: .word "chan" :: ts =>
    (parseType? ts).map fun (elem, n) => (.chan .recv elem, n + 2)
  | .word "map" :: .operator "[" :: ts =>
    match parseType? ts with
    | none => none
    | some (key, n) =>
      match _h : ts.drop n with
      | .operator "]" :: us => (parseType? us).map fun (val, k) => (.map key val, n + k + 3)
      | _ => none
  | .word name :: _ => if name ∈ keywords then none else some (.named none name [], 1)
  | .operator "*" :: ts => (parseType? ts).map fun (elem, n) => (.pointer elem, n + 1)
  | .operator "[" :: .operator "]" :: ts =>
    (parseType? ts).map fun (elem, n) => (.slice elem, n + 2)
  | .operator "(" :: ts =>
    match parseType? ts with
    | none => none
    | some (inner, n) =>
      match ts.drop n with
      | .operator ")" :: _ => some (.paren inner, n + 2)
      | _ => none
  | _ => none
termination_by ts => ts.length
decreasing_by
  all_goals simp only [List.length_cons]
  all_goals try omega
  have hlength := congrArg List.length _h
  rw [List.length_drop, List.length_cons] at hlength
  omega

namespace TypeExpr

/-- The channel of both directions of some elements. If they are receiving channels, their arrows
become those of the channels that stand in front of them. -/
def chanBefore : TypeExpr → TypeExpr
  | .chan .recv elem => .chan .send elem.chanBefore
  | elem => .chan .both elem

/-- The type with every arrow at the leftmost channel that can have it. -/
def leftmost : TypeExpr → TypeExpr
  | .pointer elem => .pointer elem.leftmost
  | .slice elem => .slice elem.leftmost
  | .map key val => .map key.leftmost val.leftmost
  | .chan .both elem => elem.leftmost.chanBefore
  | .chan dir elem => .chan dir elem.leftmost
  | .paren inner => .paren inner.leftmost
  | other => other

/-- No channel of both directions carries receiving channels. -/
def ArrowsLeft : TypeExpr → Prop
  | .pointer elem => elem.ArrowsLeft
  | .slice elem => elem.ArrowsLeft
  | .map key val => key.ArrowsLeft ∧ val.ArrowsLeft
  | .chan dir elem => (dir = .both → elem.shape ≠ .chan .recv) ∧ elem.ArrowsLeft
  | .paren inner => inner.ArrowsLeft
  | _ => True

/-! ## Arrows -/

lemma chanBefore_of_ne (h : x.shape ≠ .chan .recv) : x.chanBefore = .chan .both x := by
  fun_cases chanBefore x with
  | case1 elem => exact absurd rfl h
  | case2 => rfl

lemma shape_chanBefore_ne (x : TypeExpr) : x.chanBefore.shape ≠ .chan .recv := by
  fun_cases chanBefore x <;> simp [shape]

lemma tokens_chanBefore (x : TypeExpr) : x.chanBefore.tokens = .word "chan" :: x.tokens := by
  fun_induction chanBefore x with
  | case1 elem ih => simp [tokens, chanTokens, ih]
  | case2 elem _ => simp [tokens, chanTokens]

lemma tokens_leftmost (x : TypeExpr) : x.leftmost.tokens = x.tokens := by
  fun_induction leftmost x with
  | case1 elem ih => simp [tokens, ih]
  | case2 elem ih => simp [tokens, ih]
  | case3 key val ihkey ihval => simp [tokens, ihkey, ihval]
  | case4 elem ih => rw [tokens_chanBefore, ih]; rfl
  | case5 dir elem _ ih => simp [tokens, ih]
  | case6 inner ih => simp [tokens, ih]
  | case7 => rfl

lemma shape_leftmost_eq_recv_iff :
    x.leftmost.shape = .chan .recv ↔ x.shape = .chan .recv := by
  fun_cases leftmost x with
  | case4 elem => exact iff_of_false (shape_chanBefore_ne _) (by simp [shape])
  | _ => simp [shape]

lemma exists_of_shape_recv (h : x.shape = .chan .recv) : ∃ elem, x = .chan .recv elem := by
  cases x with
  | chan dir elem =>
    obtain rfl := Shape.chan.inj h
    exact ⟨elem, rfl⟩
  | array length elem => cases length <;> simp [shape] at h
  | _ => simp [shape] at h

lemma arrowsLeft_chanBefore (h : x.ArrowsLeft) : x.chanBefore.ArrowsLeft := by
  fun_induction chanBefore x with
  | case1 elem ih => exact ⟨by simp, ih h.2⟩
  | case2 elem hne =>
    refine ⟨fun _ hrecv => ?_, h⟩
    obtain ⟨inner, rfl⟩ := exists_of_shape_recv hrecv
    exact hne inner rfl

lemma arrowsLeft_leftmost (x : TypeExpr) : x.leftmost.ArrowsLeft := by
  fun_induction leftmost x with
  | case1 elem ih => exact ih
  | case2 elem ih => exact ih
  | case3 key val ihkey ihval => exact ⟨ihkey, ihval⟩
  | case4 elem ih => exact arrowsLeft_chanBefore ih
  | case5 dir elem hdir ih => exact ⟨fun hboth => absurd hboth hdir, ih⟩
  | case6 inner ih => exact ih
  | case7 x => cases x <;> simp_all [ArrowsLeft]

/-- Where no arrow can move, the type stays as it is. -/
lemma ArrowsLeft.leftmost_eq (h : x.ArrowsLeft) : x.leftmost = x := by
  fun_induction leftmost x with
  | case1 elem ih => rw [ih h]
  | case2 elem ih => rw [ih h]
  | case3 key val ihkey ihval => rw [ihkey h.1, ihval h.2]
  | case4 elem ih => rw [ih h.2, chanBefore_of_ne (h.1 rfl)]
  | case5 dir elem _ ih => rw [ih h.2]
  | case6 inner ih => rw [ih h]
  | case7 => rfl

lemma leftmost_eq_self_iff : x.leftmost = x ↔ x.ArrowsLeft :=
  ⟨fun h => h ▸ x.arrowsLeft_leftmost, ArrowsLeft.leftmost_eq⟩

end TypeExpr

/-! ## Reading a type -/

variable {ts us after : List Token} {n : Nat}

attribute [local simp] parseType?

lemma parseType?_named {name : String} (hname : Identifier name) (after : List Token) :
    parseType? (.word name :: after) = some (.named none name [], 1) := by
  have hchan : name ≠ "chan" := fun h => hname.keyword (h ▸ by decide)
  have hmap : name ≠ "map" := fun h => hname.keyword (h ▸ by decide)
  rw [parseType?, if_neg hname.keyword]
  · exact fun _ _ h => hchan h
  · exact hchan
  · exact fun _ _ h => hmap h

lemma parseType?_pointer (h : parseType? ts = some (x, n)) :
    parseType? (.operator "*" :: ts) = some (.pointer x, n + 1) := by
  simp [h]

lemma parseType?_slice (h : parseType? ts = some (x, n)) :
    parseType? (.operator "[" :: .operator "]" :: ts) = some (.slice x, n + 2) := by
  simp [h]

lemma parseType?_map (hkey : parseType? (ts ++ .operator "]" :: us) = some (x, ts.length))
    (hval : parseType? us = some (y, n)) :
    parseType? (.word "map" :: .operator "[" :: (ts ++ .operator "]" :: us)) =
      some (.map x y, ts.length + n + 3) := by
  have hdrop : (ts ++ .operator "]" :: us).drop ts.length = .operator "]" :: us := List.drop_left
  rw [parseType?, hkey]
  dsimp only
  split
  · rename_i us' heq
    obtain rfl := (List.cons.inj (hdrop.symm.trans heq)).2
    rw [hval]
    rfl
  · rename_i hne
    exact absurd hdrop (hne us)

lemma parseType?_both (harrow : .operator "<-" ∉ ts.head?) (h : parseType? ts = some (x, n)) :
    parseType? (.word "chan" :: ts) = some (.chan .both x, n + 1) := by
  rw [parseType?, h]
  · rfl
  · rintro ts rfl
    exact harrow rfl

lemma parseType?_send (h : parseType? ts = some (x, n)) :
    parseType? (.word "chan" :: .operator "<-" :: ts) = some (.chan .send x, n + 2) := by
  simp [h]

lemma parseType?_recv (h : parseType? ts = some (x, n)) :
    parseType? (.operator "<-" :: .word "chan" :: ts) = some (.chan .recv x, n + 2) := by
  simp [h]

lemma parseType?_paren (h : parseType? (ts ++ .operator ")" :: after) = some (x, ts.length)) :
    parseType? (.operator "(" :: (ts ++ .operator ")" :: after)) =
      some (.paren x, ts.length + 2) := by
  simp [h]

namespace TypeExpr

lemma Simple.arrow_not_mem (hx : x.Simple) (hne : x.shape ≠ .chan .recv) (after : List Token) :
    .operator "<-" ∉ (x.tokens ++ after).head? := by
  cases hx with
  | chan dir _ => cases dir <;> simp_all [tokens, chanTokens, shape]
  | _ => simp [tokens]

/-- The type `read` is read off the tokens of `x`, and off those tokens behind one more `chan` a channel
is read that has taken over the arrows at the front of `read`. -/
structure ParsesTo (x read : TypeExpr) : Prop where
  alone : ∀ after, parseType? (x.tokens ++ after) = some (read, x.tokens.length)
  behindChan : ∀ after, parseType? (.word "chan" :: (x.tokens ++ after)) =
    some (read.chanBefore, x.tokens.length + 1)

/-- Behind `chan` a type is read as it is alone, unless an arrow stands between them. -/
lemma Simple.parsesTo (hx : x.Simple) (hne : x.shape ≠ .chan .recv)
    (h : ∀ after, parseType? (x.tokens ++ after) = some (x.leftmost, x.tokens.length)) :
    x.ParsesTo x.leftmost where
  alone := h
  behindChan after := by
    rw [chanBefore_of_ne (mt shape_leftmost_eq_recv_iff.1 hne)]
    exact parseType?_both (hx.arrow_not_mem hne after) (h after)

lemma Simple.parsesTo_leftmost (hx : x.Simple) : x.ParsesTo x.leftmost := by
  induction hx with
  | named hname hhead =>
    exact (named hname hhead).parsesTo (by simp [shape]) (parseType?_named hname)
  | pointer hx ih =>
    exact (pointer hx).parsesTo (by simp [shape]) fun after => parseType?_pointer (ih.alone after)
  | slice hx ih =>
    exact (slice hx).parsesTo (by simp [shape]) fun after => parseType?_slice (ih.alone after)
  | @map key val hkey hval ihkey ihval =>
    refine (map hkey hval).parsesTo (by simp [shape]) fun after => ?_
    have hlength : (TypeExpr.map key val).tokens.length =
        key.tokens.length + val.tokens.length + 3 := by
      simp only [tokens, List.length_cons, List.length_append]
      omega
    rw [hlength]
    simp only [tokens, List.cons_append, List.append_assoc]
    exact parseType?_map (ihkey.alone _) (ihval.alone after)
  | @chan dir x hx ih =>
    cases dir with
    | both => exact (chan .both hx).parsesTo (by simp [shape]) ih.behindChan
    | send =>
      exact (chan .send hx).parsesTo (by simp [shape]) fun after => parseType?_send (ih.alone after)
    | recv =>
      -- an arrow behind `chan` belongs to it, and what follows is read behind another `chan`
      exact ⟨fun after => parseType?_recv (ih.alone after),
        fun after => parseType?_send (ih.behindChan after)⟩
  | @paren x hx ih =>
    refine (paren hx).parsesTo (by simp [shape]) fun after => ?_
    have hlength : (TypeExpr.paren x).tokens.length = x.tokens.length + 2 := by simp [tokens]
    rw [hlength]
    simp only [tokens, List.cons_append, List.append_assoc]
    exact parseType?_paren (ih.alone _)

end TypeExpr

/-- The text of a simple type has the tokens of the type, and from them the type is read with every
arrow at the leftmost channel that can have it. So two types have the same tokens exactly if they
differ in the places of such arrows only, and no arrow has another place if no channel of both
directions carries receiving channels. -/
theorem types_by_tokens (hx : x.Simple) (hy : y.Simple) :
    tokens? x.text.toList = some x.tokens ∧
    parseType? x.tokens = some (x.leftmost, x.tokens.length) ∧
    (tokens? x.text.toList = tokens? y.text.toList ↔ x.leftmost = y.leftmost) ∧
    (x.leftmost = x ↔ x.ArrowsLeft) := by
  have htokens {x : TypeExpr} (hx : x.Simple) : tokens? x.text.toList = some x.tokens := by
    have hchars : x.text.toList = x.chars ++ [] := (List.append_nil _).symm
    rw [hchars, hx.tokens?_chars (by simp), tokens?, Option.map_some, List.append_nil]
  have hparse {x : TypeExpr} (hx : x.Simple) :
      parseType? x.tokens = some (x.leftmost, x.tokens.length) := by
    simpa using hx.parsesTo_leftmost.alone []
  refine ⟨htokens hx, hparse hx, ⟨fun h => ?_, fun h => ?_⟩, TypeExpr.leftmost_eq_self_iff⟩
  · rw [htokens hx, htokens hy, Option.some.injEq] at h
    have hsame := hparse hx
    rw [h, hparse hy] at hsame
    exact (Prod.mk.inj (Option.some.inj hsame)).1.symm
  · rw [htokens hx, htokens hy, ← x.tokens_leftmost, ← y.tokens_leftmost, h]

/-- Maps to channels of both directions that carry channels for receiving, which carry such channels
again. -/
def carriesReceiving : TypeExpr :=
  .map (.named none "string" []) (.chan .both (.chan .recv (.chan .recv (.named none "int" []))))

/-- Maps to channels for sending that carry channels of both directions, which carry channels for
receiving. -/
def sendsChannels : TypeExpr :=
  .map (.named none "string" []) (.chan .send (.chan .both (.chan .recv (.named none "int" []))))

/-- Both are read as maps to channels for sending that carry such channels again, which carry channels
of both directions. -/
theorem types_by_tokens_twoArrows :
    carriesReceiving.Simple ∧ sendsChannels.Simple ∧
      carriesReceiving.text = "map[string]chan <-chan <-chan int" ∧
      sendsChannels.text = "map[string]chan<- chan <-chan int" ∧
      tokens? carriesReceiving.text.toList = tokens? sendsChannels.text.toList ∧
      parseType? carriesReceiving.tokens = some (.map (.named none "string" [])
        (.chan .send (.chan .send (.chan .both (.named none "int" [])))), 10) ∧
      ¬carriesReceiving.ArrowsLeft := by
  have hx : carriesReceiving.Simple := by decide
  have hy : sendsChannels.Simple := by decide
  obtain ⟨-, hread, htokens, hself⟩ := types_by_tokens hx hy
  refine ⟨hx, hy, by decide, by decide, htokens.2 rfl, hread, fun harrows => ?_⟩
  have hsame := hself.2 harrows
  simp [carriesReceiving, TypeExpr.leftmost, TypeExpr.chanBefore] at hsame

end GoOutline.Source

namespace GoOutline

open Source

/-- The script of two variables. The type of `v` is a channel of both directions that carries receiving
channels, and that of `w` a channel for sending that carries channels of both directions. Neither type
has parentheses in it. -/
def Step.twoChannels : List Step :=
  [.named "int", .chan .recv 0, .chan .both 1, .chan .both 0, .chan .send 3,
    .valueSpec ["v"] (some 2) [], .decl .vars 5, .valueSpec ["w"] (some 4) [], .decl .vars 7]

/-- Two variables are declared with different types, but the texts of the types have the same
tokens. -/
theorem types_share_tokens :
    ∃ p, (Progress.mk (.start "a.go" "main") #[]).run Step.twoChannels = some p ∧
      let t := p.builder.finish
      let f := File.ofTree .keepFirst ⟨0, 0⟩ "main" t
      ∃ x y, t.type? ⟨2⟩ = some x ∧ t.type? ⟨4⟩ = some y ∧ x.Simple ∧ y.Simple ∧ x ≠ y ∧
        tokens? x.text.toList = tokens? y.text.toList ∧
        f.decls.values.map Decl.declaredType? = [some x.text, some y.text] := by
  have hrun : ((Progress.mk (.start "a.go" "main") #[]).run Step.twoChannels).any fun p =>
      let t := p.builder.finish
      let f := File.ofTree .keepFirst ⟨0, 0⟩ "main" t
      (t.type? ⟨2⟩).any fun x => (t.type? ⟨4⟩).any fun y =>
        decide x.Simple && decide y.Simple && x.shape ≠ y.shape &&
          tokens? x.text.toList = tokens? y.text.toList &&
          f.decls.values.map Decl.declaredType? = [some x.text, some y.text] := by
    decide +kernel
  obtain ⟨p, hp, hany⟩ := (Option.any_eq_true _ _).1 hrun
  obtain ⟨x, hx, hany⟩ := (Option.any_eq_true _ _).1 hany
  obtain ⟨y, hy, hcheck⟩ := (Option.any_eq_true _ _).1 hany
  simp only [Bool.and_eq_true, decide_eq_true_eq] at hcheck
  obtain ⟨⟨⟨⟨hxsimple, hysimple⟩, hshape⟩, htokens⟩, htexts⟩ := hcheck
  have hne : x ≠ y := fun h => hshape (congrArg TypeExpr.shape h)
  exact ⟨p, hp, x, y, hx, hy, hxsimple, hysimple, hne, htokens, htexts⟩

end GoOutline
