/-
# Receivers

A receiver is outlined without the parentheses around its type and without the pointer, which becomes
a flag. A single pointer is taken off. If there is another one below it, then it stays in the text of
the type, and the receiver is reported as one that is not a plain name.
-/
import GoOutline.Proofs.Program.MethodSet
import GoOutline.Proofs.Source.Total

namespace GoOutline

open Source (TypeExpr)

/-! ## Source forms -/

lemma receiverBase_eq_of_pointer {x y : TypeExpr} (h : x.stripParens = .pointer y) :
    receiverBase x = (y.stripParens, true) := by
  rw [receiverBase, h]

lemma receiverBase_eq_of_ne {x : TypeExpr} (h : ∀ y, x.stripParens ≠ .pointer y) :
    receiverBase x = (x.stripParens, false) := by
  rw [receiverBase]
  split
  · rename_i y hy
    exact absurd hy (h y)
  · rfl

lemma receiverBase_snd_iff {x : TypeExpr} :
    (receiverBase x).2 = true ↔ ∃ y, x.stripParens = .pointer y := by
  by_cases h : ∃ y, x.stripParens = .pointer y
  · obtain ⟨y, hy⟩ := h
    simp [receiverBase_eq_of_pointer hy, hy]
  · rw [receiverBase_eq_of_ne (not_exists.1 h)]
    simp [h]

/-- What is left of a receiver is a pointer only if there were two. -/
lemma receiverBase_fst_iff {x z : TypeExpr} :
    (receiverBase x).1 = .pointer z ↔
      ∃ y, x.stripParens = .pointer y ∧ y.stripParens = .pointer z := by
  by_cases h : ∃ y, x.stripParens = .pointer y
  · obtain ⟨y, hy⟩ := h
    simp [receiverBase_eq_of_pointer hy, hy]
  · have hne := not_exists.1 h
    rw [receiverBase_eq_of_ne hne]
    exact ⟨fun hz => absurd hz (hne z), fun ⟨y, hy, _⟩ => absurd hy (hne y)⟩

instance : DecidablePred Unstarred := fun _ => inferInstanceAs (Decidable (_ ≠ _))

lemma Unstarred.append {a b : String} (ha : Unstarred a) (hb : Unstarred b) : Unstarred (a ++ b) := by
  rw [Unstarred, String.toList_append]
  cases h : a.toList with
  | nil => exact hb
  | cons c cs =>
    rw [Unstarred, h] at ha
    exact ha

/-! ## Nodes -/

namespace Store

/-- The type is `inner` with any number of parentheses around it. -/
inductive InParens (st : Store) (inner : TypeId) : TypeId → Prop
  | refl : InParens st inner inner
  | paren {id mid : TypeId} (hnode : st.node? id = some (.paren mid))
    (hmid : InParens st inner mid) : InParens st inner id

/-- Without the parentheses around it, the type is a pointer to `elem`. -/
def PointerTo (st : Store) (elem id : TypeId) : Prop :=
  ∃ inner, st.InParens inner id ∧ st.node? inner = some (.pointer elem)

variable {st : Store} {id elem inner : TypeId} {n : Nat} {x y : TypeExpr}

lemma InParens.exists_readType (h : st.InParens inner id) (hx : st.readType n id = some x) :
    ∃ m y, st.readType m inner = some y ∧ y.stripParens = x.stripParens := by
  induction h generalizing n x with
  | refl => exact ⟨n, x, hx, rfl⟩
  | paren hnode _ ih =>
    obtain ⟨m, -, hreads⟩ := readType_parts_of_node hnode hx
    cases hreads with
    | paren hy =>
      obtain ⟨k, z, hz, hstrip⟩ := ih hy
      exact ⟨k, z, hz, hstrip⟩

/-- A type without its parentheses is the reading of a node. -/
lemma exists_inParens (hx : st.readType n id = some x) :
    ∃ inner m, st.InParens inner id ∧ st.readType m inner = some x.stripParens := by
  induction n generalizing id x with
  | zero => simp [readType] at hx
  | succ n ih =>
    cases x with
    | paren y =>
      obtain ⟨m, node, hm, hnode, hreads⟩ := readType_parts hx
      obtain rfl := Nat.succ.inj hm
      cases hreads with
      | paren hy =>
        obtain ⟨inner, m, hmid, hinner⟩ := ih hy
        exact ⟨inner, m, .paren hnode hmid, hinner⟩
    | _ => exact ⟨id, n + 1, .refl, hx⟩

lemma PointerTo.stripParens_eq (h : st.PointerTo elem id) (hx : st.readType n id = some x) :
    ∃ m y, x.stripParens = .pointer y ∧ st.readType m elem = some y := by
  obtain ⟨inner, hinner, hnode⟩ := h
  obtain ⟨m, y, hy, hstrip⟩ := hinner.exists_readType hx
  obtain ⟨m, -, hreads⟩ := readType_parts_of_node hnode hy
  cases hreads with
  | pointer hz => exact ⟨m, _, hstrip.symm, hz⟩

lemma exists_pointerTo (hx : st.readType n id = some x) (h : x.stripParens = .pointer y) :
    ∃ elem m, st.PointerTo elem id ∧ st.readType m elem = some y := by
  obtain ⟨inner, m, hinner, hread⟩ := exists_inParens hx
  rw [h] at hread
  obtain ⟨m, node, -, hnode, hreads⟩ := readType_parts hread
  cases hreads with
  | pointer hy => exact ⟨_, m, ⟨inner, hinner, hnode⟩, hy⟩

lemma exists_pointerTo_iff (hx : st.readType n id = some x) :
    (∃ elem, st.PointerTo elem id) ↔ ∃ y, x.stripParens = .pointer y := by
  constructor
  · rintro ⟨elem, helem⟩
    obtain ⟨-, y, hy, -⟩ := helem.stripParens_eq hx
    exact ⟨y, hy⟩
  · rintro ⟨y, hy⟩
    obtain ⟨elem, -, helem, -⟩ := exists_pointerTo hx hy
    exact ⟨elem, helem⟩

/-- A receiver keeps a pointer in its type if and only if it is a pointer to a pointer. -/
lemma exists_pointerTo_pointerTo_iff (hx : st.readType n id = some x) :
    (∃ elem inner, st.PointerTo elem id ∧ st.PointerTo inner elem) ↔
      ∃ z, (receiverBase x).1 = .pointer z := by
  simp only [receiverBase_fst_iff]
  constructor
  · rintro ⟨elem, inner, helem, hinner⟩
    obtain ⟨m, y, hy, hread⟩ := helem.stripParens_eq hx
    obtain ⟨-, z, hz, -⟩ := hinner.stripParens_eq hread
    exact ⟨z, y, hy, hz⟩
  · rintro ⟨z, y, hy, hz⟩
    obtain ⟨elem, m, helem, hread⟩ := exists_pointerTo hx hy
    obtain ⟨inner, -, hinner, -⟩ := exists_pointerTo hread hz
    exact ⟨elem, inner, helem, hinner⟩

/-- What is left of a receiver is the reading of a node. -/
lemma exists_readType_receiverBase (hx : st.readType n id = some x) :
    ∃ base m, st.readType m base = some (receiverBase x).1 := by
  by_cases h : ∃ y, x.stripParens = .pointer y
  · obtain ⟨y, hy⟩ := h
    obtain ⟨elem, m, -, hread⟩ := exists_pointerTo hx hy
    obtain ⟨base, k, -, hbase⟩ := exists_inParens hread
    exact ⟨base, k, by rw [receiverBase_eq_of_pointer hy, hbase]⟩
  · obtain ⟨base, k, -, hbase⟩ := exists_inParens hx
    exact ⟨base, k, by rw [receiverBase_eq_of_ne (not_exists.1 h), hbase]⟩

lemma receiverType_starred_iff (hnames : ∀ sym, Unstarred (st.name sym))
    (hx : st.readType n id = some x) : ¬Unstarred (receiverType x).1 ↔ ∃ z, x = .pointer z := by
  obtain ⟨m, node, -, -, hreads⟩ := readType_parts hx
  cases hreads with
  | @named p i refs args =>
    cases p with
    | none => simpa [receiverType] using hnames i.symbol
    | some p =>
      simp only [receiverType, Option.map_some, TypeExpr.text, String.append_assoc]
      have hdot (text : String) : Unstarred ("." ++ text) := by simp [Unstarred]
      exact iff_of_false (not_not_intro ((hnames p.symbol).append (hdot _))) (by simp)
  | pointer hy => simp [receiverType, TypeExpr.text, Unstarred]
  | @chan dir =>
    cases dir <;> simp [receiverType, TypeExpr.text, Unstarred, Source.chanWord]
  | _ => simp [receiverType, TypeExpr.text, Unstarred]

end Store

/-! ## Methods -/

lemma receiverType_issues {x y : TypeExpr} (h : x = .pointer y) :
    (receiverType x).2.2 = [.unexpected .receiver] := by
  rw [h]
  rfl

/-- The receiver of a method is marked as a pointer if and only if its type, without the parentheses
around it, is a pointer. The text of its type is without the sign of a pointer if and only if there is
no second one below that pointer and below more parentheses. A second one is reported. In a finished
tree every method can be read. -/
theorem receiver_pointers {st : Store} (hnames : ∀ sym, Unstarred (st.name sym)) {id : FuncId}
    {f : FuncNode} {r : ReceiverNode} (hf : st.node? id = some f) (hr : f.receiver = some r)
    (file : FileId) :
    (∀ x, st.func? id = some x → ∃ m v, (x.outline file).1 = .method m ∧ m.receiver = some v ∧
      (v.pointer = true ↔ ∃ elem, st.PointerTo elem r.type) ∧
      (Unstarred v.type ↔ ¬∃ elem inner, st.PointerTo elem r.type ∧ st.PointerTo inner elem) ∧
      (¬Unstarred v.type → .unexpected .receiver ∈ (x.outline file).2)) ∧
    ∀ path package steps p, (Progress.mk (.start path package) #[]).run steps = some p →
      st = p.builder.finish.toStore → ∃ x, st.func? id = some x := by
  refine ⟨fun x hx => ?_, ?_⟩
  · obtain ⟨type, htype, -, hrecv, -⟩ := Store.func?_method hf hr hx
    obtain ⟨base, k, hbase⟩ := Store.exists_readType_receiverBase htype
    have hstarred := Store.receiverType_starred_iff hnames hbase
    simp only [Source.FuncDecl.outline, hrecv]
    refine ⟨_, _, rfl, rfl, ?_, ?_, fun h => ?_⟩
    · exact receiverBase_snd_iff.trans (Store.exists_pointerTo_iff htype).symm
    · rw [Store.exists_pointerTo_pointerTo_iff htype, ← hstarred, not_not]
      rfl
    · obtain ⟨z, hz⟩ := hstarred.1 h
      simp only [outlineReceiver, receiverType_issues hz, List.mem_append]
      exact .inr (.inl (List.mem_singleton_self _))
  · rintro path package steps p hrun rfl
    exact (Progress.legible_finish hrun).func? (Store.in_of_node? hf)

lemma Tree.forall_unstarred {t : Tree}
    (h : (t.symbols.names.toList.all fun name => Unstarred name) = true) (sym : Symbol) :
    Unstarred (t.name sym) :=
  forall_name (by decide) (fun name hname => of_decide_eq_true (List.all_eq_true.1 h name hname)) sym

/-- The script of a method with the receiver `(t (*(T)))`. -/
def Step.parenReceiver : List Step :=
  [.named "T", .parenType 0, .pointer 1, .parenType 2, .receiver (some "t") 3, .signature [] [],
    .method 4 "M" 5]

theorem receiver_pointers_parens :
    ∃ p, (Progress.mk (.start "a.go" "main") #[]).run Step.parenReceiver = some p ∧
      let t := p.builder.finish
      ∃ f r x, t.node? (s := .func) ⟨0⟩ = some f ∧ f.receiver = some r ∧
        t.PointerTo ⟨1⟩ r.type ∧ t.func? ⟨0⟩ = some x ∧
        ∃ m v, (x.outline ⟨0, 0⟩).1 = .method m ∧ m.receiver = some v ∧ v.pointer = true ∧
          (Unstarred v.type ↔ ¬∃ elem inner, t.PointerTo elem r.type ∧ t.PointerTo inner elem) := by
  have hrun : ((Progress.mk (.start "a.go" "main") #[]).run Step.parenReceiver).any fun p =>
      let t := p.builder.finish
      (t.symbols.names.toList.all fun name => Unstarred name) &&
        ((t.node? (s := .func) ⟨0⟩).bind FuncNode.receiver).map ReceiverNode.type = some ⟨3⟩ &&
        t.node? (s := .type) ⟨3⟩ = some (.paren ⟨2⟩) &&
        t.node? (s := .type) ⟨2⟩ = some (.pointer ⟨1⟩) := by
    decide +kernel
  obtain ⟨p, hp, hcheck⟩ := (Option.any_eq_true _ _).1 hrun
  simp only [Bool.and_eq_true, decide_eq_true_eq] at hcheck
  obtain ⟨⟨⟨hnames, htype⟩, hparen⟩, hpointer⟩ := hcheck
  obtain ⟨r, hr, htype⟩ := Option.map_eq_some_iff.1 htype
  obtain ⟨f, hf, hr⟩ := Option.bind_eq_some_iff.1 hr
  have hto : p.builder.finish.PointerTo ⟨1⟩ r.type := by
    rw [htype]
    exact ⟨⟨2⟩, .paren hparen .refl, hpointer⟩
  obtain ⟨hreceiver, hreadable⟩ := receiver_pointers (Tree.forall_unstarred hnames) hf hr ⟨0, 0⟩
  obtain ⟨x, hx⟩ := hreadable _ _ _ _ hp rfl
  obtain ⟨m, v, hm, hv, hflag, hstar, -⟩ := hreceiver x hx
  exact ⟨p, hp, f, r, x, hf, hr, hto, hx, m, v, hm, hv, hflag.2 ⟨_, hto⟩, hstar⟩

/-- The script of a method with the receiver `(t **T)`. -/
def Step.doublePointer : List Step :=
  [.named "T", .pointer 0, .pointer 1, .receiver (some "t") 2, .signature [] [], .method 3 "M" 4]

/-- No name begins with the sign of a pointer, but the type of the receiver does. -/
theorem receiver_pointers_two :
    ∃ p, (Progress.mk (.start "a.go" "main") #[]).run Step.doublePointer = some p ∧
      let t := p.builder.finish
      let f := File.ofTree .keepFirst ⟨0, 0⟩ "main" t
      (∀ sym, Unstarred (t.name sym)) ∧
        (f.decls.values.filterMap fun d => (d.as? .method).bind fun d => d.receiver.map fun v =>
          (v.type, v.pointer)) = [("*T", true)] ∧
        ¬Unstarred "*T" ∧ f.decls.keys = ["*T.M"] ∧ f.issues = [.unexpected .receiver] := by
  have hrun : ((Progress.mk (.start "a.go" "main") #[]).run Step.doublePointer).any fun p =>
      let t := p.builder.finish
      let f := File.ofTree .keepFirst ⟨0, 0⟩ "main" t
      (t.symbols.names.toList.all fun name => Unstarred name) &&
        (f.decls.values.filterMap fun d => (d.as? .method).bind fun d => d.receiver.map fun v =>
          (v.type, v.pointer)) = [("*T", true)] &&
        f.decls.keys = ["*T.M"] && f.issues = [.unexpected .receiver] := by
    decide +kernel
  obtain ⟨p, hp, hcheck⟩ := (Option.any_eq_true _ _).1 hrun
  simp only [Bool.and_eq_true, decide_eq_true_eq] at hcheck
  obtain ⟨⟨⟨hnames, hrecv⟩, hkeys⟩, hissues⟩ := hcheck
  exact ⟨p, hp, Tree.forall_unstarred hnames, hrecv, by decide, hkeys, hissues⟩

end GoOutline
