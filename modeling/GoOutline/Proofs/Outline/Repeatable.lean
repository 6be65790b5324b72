/-
# Repeatable declarations

A file may declare `_` any number of times, whatever it is, and have any number of functions called
`init`. From the second one on their keys end in the number of those before. A key without its number
is that of a name, or of a method with the receiver in front of a dot, so that no other declaration has
a key like this, if names have neither number signs nor dots. Nothing that may repeat is therefore
lost, reported or overwritten.
-/
import GoOutline.Proofs.Outline.Numbering
import GoOutline.Proofs.Program.MethodSet

namespace List

/-- The number of members with a property grows where there is one. -/
lemma countP_take_lt {α : Type} {as : List α} {a : α} {i j : Nat} {p : α → Bool}
    (hi : as[i]? = some a) (hp : p a = true) (hij : i < j) :
    (as.take i).countP p < (as.take j).countP p := by
  have hsucc : (as.take (i + 1)).countP p = (as.take i).countP p + 1 := by
    rw [take_add_one, hi, countP_append]
    simp [hp]
  have hle : (as.take (i + 1)).countP p ≤ (as.take j).countP p := by
    refine Sublist.countP_le ?_
    rw [show as.take (i + 1) = (as.take j).take (i + 1) by rw [take_take, Nat.min_eq_left hij]]
    exact take_sublist _ _
  omega

end List

namespace GoOutline

/-! ## Keys of declarations -/

/-- The name of a variable, type or function is one without number signs and dots. -/
def PlainName (name : String) : Prop := '#' ∉ name.toList ∧ '.' ∉ name.toList

/-- A method key can be read in one way. -/
lemma dottedKey_inj {type type' name name' : String} (hname : PlainName name)
    (hname' : PlainName name') (h : type ++ "." ++ name = type' ++ "." ++ name') :
    type = type' ∧ name = name' := by
  have hlist := congrArg String.toList h
  simp only [String.toList_append, List.append_assoc] at hlist
  obtain ⟨htype, hrest⟩ := List.append_cons_inj_of_last hname.2 hname'.2 hlist
  exact ⟨String.toList_inj.1 htype, String.toList_inj.1 hrest⟩

lemma dottedKey_ne {type name name' : String} (hname' : PlainName name') :
    type ++ "." ++ name ≠ name' := by
  rintro rfl
  exact hname'.2 (by simp)

/-- A repeated key shows how often the key has come before. -/
lemma repeatedKey_inj {key key' : String} {m n : Nat} (hkey : '#' ∉ key.toList)
    (hkey' : '#' ∉ key'.toList) (h : repeatedKey key m = repeatedKey key' n) :
    key = key' ∧ m = n := by
  simp only [repeatedKey] at h
  split at h
  · rename_i hm
    split at h
    · rename_i hn
      exact ⟨h, hm.trans hn.symm⟩
    · exact absurd (h ▸ hash_mem_indexedKey key' n) hkey
  · split at h
    · exact absurd (h ▸ hash_mem_indexedKey key m) hkey'
    · exact indexedKey_inj h

namespace Decl

variable {d e : Decl} {ds : List Decl} {i j : Nat}

lemma key_eq_name (hkind : d.kind ≠ .method) : d.key = d.name := by
  cases d with
  | method m => exact absurd rfl hkind
  | _ => rfl

lemma keyAfter_eq (before : List Decl) (d : Decl) :
    d.keyAfter before = repeatedKey d.key
      (if d.mayRepeat then before.countP fun e => e.mayRepeat && e.key == d.key else 0) := by
  simp only [keyAfter, repeatedKey]
  by_cases hrepeat : d.mayRepeat = true
  · cases before.countP fun e => e.mayRepeat && e.key == d.key <;> simp [hrepeat]
  · simp [hrepeat]

lemma mayRepeat_of_blank (h : d.name = "_") : d.mayRepeat = true := by
  cases d with
  | func f => exact Bool.or_eq_true_iff.2 (.inr (beq_iff_eq.2 h))
  | _ => exact beq_iff_eq.2 h

lemma mayRepeat_of_init (hkind : d.kind = .func) (h : d.name = "init") : d.mayRepeat = true := by
  cases d with
  | func f => exact Bool.or_eq_true_iff.2 (.inl (beq_iff_eq.2 h))
  | _ => simp [kind] at hkind

/-- What the names in the key of a declaration are like: one name, or that of a receiver type and
that of a method. -/
inductive PlainKey : Decl → Prop
  | method {m : MethodDecl} {r : Field} (hr : m.receiver = some r) (htype : PlainName r.type)
    (hname : PlainName m.name) : PlainKey (.method m)
  | name {d : Decl} (hkind : d.kind ≠ .method) (hname : PlainName d.name) : PlainKey d

lemma PlainKey.hash_not_mem (h : d.PlainKey) : '#' ∉ d.key.toList := by
  cases h with
  | method hr htype hname => simp [key, MethodDecl.key, hr, htype.1, hname.1]
  | name hkind hname => exact key_eq_name hkind ▸ hname.1

/-- Only a method can have the key of a method, and the names are the same. -/
lemma PlainKey.eq_of_key (h : d.PlainKey) (he : e.PlainKey) (hkey : e.key = d.key) :
    e.name = d.name ∧ (e.kind = .method ↔ d.kind = .method) := by
  cases h with
  | method hr _ hname =>
    cases he with
    | method hr' _ hname' =>
      simp only [key, MethodDecl.key, hr, hr'] at hkey
      exact ⟨(dottedKey_inj hname' hname hkey).2, Iff.rfl⟩
    | name hkind' hname' =>
      rw [key_eq_name hkind'] at hkey
      simp only [key, MethodDecl.key, hr] at hkey
      exact absurd hkey.symm (dottedKey_ne hname')
  | name hkind hname =>
    rw [key_eq_name hkind] at hkey
    cases he with
    | method hr' _ hname' =>
      simp only [key, MethodDecl.key, hr'] at hkey
      exact absurd hkey (dottedKey_ne hname)
    | name hkind' hname' =>
      rw [key_eq_name hkind'] at hkey
      exact ⟨hkey, iff_of_false hkind' hkind⟩

/-- If all declarations with the key of a repeatable one may repeat, then none of the others is filed
under its key. -/
lemma eq_of_keyAfter_eq (hplain : ∀ d ∈ ds, d.PlainKey) (hi : ds[i]? = some d)
    (hj : ds[j]? = some e) (hd : d.mayRepeat = true) (he : e.key = d.key → e.mayRepeat = true)
    (h : e.keyAfter (ds.take j) = d.keyAfter (ds.take i)) : j = i := by
  rw [keyAfter_eq, keyAfter_eq, if_pos hd] at h
  obtain ⟨hkey, hcount⟩ := repeatedKey_inj (hplain e (List.mem_of_getElem? hj)).hash_not_mem
    (hplain d (List.mem_of_getElem? hi)).hash_not_mem h
  rw [if_pos (he hkey), hkey] at hcount
  -- each occurrence counts for all that come later
  rcases Nat.lt_trichotomy j i with hlt | heq | hlt
  · have hmore := List.countP_take_lt (p := fun x : Decl => x.mayRepeat && x.key == d.key) hj
      (by simp [he hkey, hkey]) hlt
    omega
  · exact heq
  · have hmore := List.countP_take_lt (p := fun x : Decl => x.mayRepeat && x.key == d.key) hi
      (by simp [hd]) hlt
    omega

end Decl

lemma getElem?_keyed {ds : List Decl} {i : Nat} {e : String × Decl} :
    (keyed ds)[i]? = some e ↔ ds[i]? = some e.2 ∧ e.1 = e.2.keyAfter (ds.take i) := by
  simp only [keyed, List.mapBefore, List.getElem?_map, List.getElem?_zipIdx, Option.map_map,
    Option.map_eq_some_iff, Function.comp_apply, Nat.zero_add]
  constructor
  · rintro ⟨d, hd, rfl⟩
    exact ⟨hd, rfl⟩
  · rintro ⟨hd, hkey⟩
    exact ⟨e.2, hd, Prod.ext hkey.symm rfl⟩

/-- Only repeated keys are reported. -/
lemma OrderedMap.KeyedOnce.not_mem_repeatReports {ps : List (String × Decl)} {i : Nat}
    {e : String × Decl} (h : OrderedMap.KeyedOnce ps i e) :
    .redeclared e.1 ∉ repeatReports ps := by
  intro hmem
  obtain ⟨issues, hissues, hmem⟩ := List.mem_flatten.1 hmem
  obtain ⟨j, p, hj, rfl⟩ := List.mem_mapBefore.1 hissues
  by_cases hbefore : p.1 ∈ (ps.take j).map Prod.fst
  · rw [if_pos hbefore] at hmem
    have hkey : e.1 = p.1 := Issue.redeclared.inj (List.mem_singleton.1 hmem)
    obtain ⟨q, hq, hqkey⟩ := List.mem_map.1 hbefore
    obtain ⟨k, hk⟩ := List.mem_iff_getElem?.1 hq
    rw [List.getElem?_take] at hk
    obtain ⟨hkj, hk⟩ := Option.ite_none_right_eq_some.1 hk
    -- the key would stand in two places
    have hjeq := h.2 j p hj hkey.symm
    have hkeq := h.2 k q hk (hqkey.trans hkey.symm)
    omega
  · rw [if_neg hbefore] at hmem
    exact List.not_mem_nil hmem

/-! ## Declarations of plain trees -/

/-- The names that a top-level declaration gives to what it declares. -/
def Store.declNames (st : Store) : TopDeclNode → List String
  | .func id => ((st.node? id : Option FuncNode).map fun f => st.name f.name.symbol).toList
  | .decl id => st.declKeys (.decl id)

/-- What is declared has a name that was found in the source. -/
lemma Store.exists_symbol_of_mem {st : Store} {d : TopDeclNode} {name : String}
    (h : name ∈ st.declNames d) : ∃ sym, st.name sym = name := by
  cases d with
  | func id =>
    obtain ⟨f, -, rfl⟩ := Option.map_eq_some_iff.1 (Option.mem_toList.1 h)
    exact ⟨_, rfl⟩
  | decl id =>
    rw [declNames, declKeys] at h
    split at h
    · obtain ⟨s, -, hs⟩ := List.mem_flatMap.1 h
      simp only [specKeys, names] at hs
      split at hs
      · obtain ⟨i, -, rfl⟩ := List.mem_map.1 hs
        exact ⟨_, rfl⟩
      · obtain ⟨i, -, rfl⟩ := List.mem_map.1 hs
        exact ⟨_, rfl⟩
      · split at hs
        · exact ⟨_, (List.mem_singleton.1 hs).symm⟩
        · exact absurd hs List.not_mem_nil
      · exact absurd hs List.not_mem_nil
    · exact absurd h List.not_mem_nil

namespace Tree

/-- What is declared has plain names, and the receivers of the methods belong to types with such
names. -/
structure PlainlyNamed (t : Tree) : Prop where
  names : ∀ d ∈ t.topDecls, ∀ name ∈ t.declNames d, PlainName name
  receivers : ∀ d ∈ t.topDecls, ∀ f r, t.IsMethod d f r →
    ∃ type pointer, t.ReceiverOf type pointer r.type ∧ PlainName type

variable {t : Tree} {file : FileId} {d : Decl}

lemma PlainlyNamed.func_plainKey (h : t.PlainlyNamed) {id : FuncId} (hid : .func id ∈ t.topDecls)
    {x : Source.FuncDecl} (hx : t.func? id = some x) : (x.outline file).1.PlainKey := by
  obtain ⟨f, hf, -⟩ := Store.func?_parts hx
  have hname : PlainName (t.name f.name.symbol) := h.names _ hid _ (by simp [Store.declNames, hf])
  cases hr : f.receiver with
  | none =>
    have hkind : (x.outline file).1.kind = .func := Store.func?_kind hf hr hx
    have hkey : (x.outline file).1.key = t.funcKey f := Store.func?_key hf hx
    rw [Store.funcKey, hr, Decl.key_eq_name (by simp [hkind])] at hkey
    exact .name (by simp [hkind]) (hkey ▸ hname)
  | some r =>
    obtain ⟨type, pointer, hof, hplain⟩ := h.receivers _ hid f r ⟨id, rfl, hf, hr⟩
    obtain ⟨y, hy, -, hrecv, hxname, -⟩ := Store.func?_method hf hr hx
    obtain ⟨args, hbase⟩ := hof.base_eq hy
    simp only [Source.FuncDecl.outline, hrecv]
    refine .method rfl ?_ ?_
    · rw [outlineReceiver, hbase]
      exact hplain
    · exact hxname ▸ hname

/-- A tree without issues is plain if its symbol table is. -/
lemma plainlyNamed_of_names {policy : Redeclaration} {package : String}
    (hissues : (File.ofTree policy file package t).issues = [])
    (hnames : ∀ name ∈ t.symbols.names.toList, PlainName name) : t.PlainlyNamed := by
  have hplain : ∀ sym, PlainName (t.name sym) := forall_name (by simp [PlainName]) hnames
  refine ⟨fun d _ name hname => ?_, ?_⟩
  · obtain ⟨sym, rfl⟩ := Store.exists_symbol_of_mem hname
    exact hplain sym
  · rintro d hd f r ⟨id, rfl, hf, hr⟩
    obtain ⟨y, hy, hmem⟩ := File.topDecl?_isSome hissues hd
    obtain ⟨x, hx, rfl⟩ := Store.topDecl?_func hy
    -- a receiver of another type would be an issue
    have hfunc : (x.outline file).2 = [] := List.eq_nil_iff_forall_not_mem.2 fun i hi =>
      File.not_mem_entries_issue hissues hmem i (List.mem_append_left _ (List.mem_map_of_mem hi))
    obtain ⟨type, pointer, -, hof, -⟩ := Store.outlinesMethod hf hr hx hfunc
    obtain ⟨sym, rfl⟩ := hof.exists_symbol
    exact ⟨_, pointer, hof, hplain sym⟩

/-- In a plain tree all keys are those of names. -/
lemma PlainlyNamed.plainKey (h : t.PlainlyNamed) (hd : d ∈ t.declarations file) : d.PlainKey := by
  obtain ⟨y, hy, hdy⟩ := List.mem_flatMap.1 hd
  obtain ⟨x, hx, rfl⟩ := List.mem_map.1 hy
  cases htop : t.topDecl? x with
  | none => simp [htop, Source.TopDecl.decls] at hdy
  | some y =>
    rw [htop, Option.getD_some] at hdy
    cases x with
    | func id =>
      obtain ⟨f, hf, rfl⟩ := Store.topDecl?_func htop
      obtain rfl := List.mem_singleton.1 hdy
      exact h.func_plainKey hx hf
    | decl id =>
      have hkind := Store.decl_kind_ne_method htop hdy
      refine .name hkind (h.names _ hx _ ?_)
      rw [Store.declNames, ← Store.topDecl?_keys htop, ← Decl.key_eq_name hkind]
      exact List.mem_map_of_mem hdy

/-- The declaration in a position is stored in the outline `f` as it is, under a key that is that of no
other declaration, and it is not reported as a repetition. -/
structure KeepsDecl (t : Tree) (file : FileId) (f : File) (i : Nat) (d : Decl) : Prop where
  entry : (d.keyAfter ((t.declarations file).take i), d) ∈ f.decls.entries
  once : OrderedMap.KeyedOnce (keyed (t.declarations file)) i
    (d.keyAfter ((t.declarations file).take i), d)
  unreported : .redeclared (d.keyAfter ((t.declarations file).take i)) ∉ declReports (t.filings file)

/-- A repeatable declaration is kept if all declarations with its key may repeat. -/
lemma PlainlyNamed.keepsDecl (h : t.PlainlyNamed) {policy : Redeclaration} {package : String}
    {i : Nat} (hi : (t.declarations file)[i]? = some d) (hd : d.mayRepeat = true)
    (hsame : ∀ e ∈ t.declarations file, e.key = d.key → e.mayRepeat = true) :
    t.KeepsDecl file (File.ofTree policy file package t) i d := by
  have hlists := (File.ofTree_stores policy file package t).decls
  rw [t.filings_pairs] at hlists
  have honce : OrderedMap.KeyedOnce (keyed (t.declarations file)) i
      (d.keyAfter ((t.declarations file).take i), d) := by
    refine ⟨getElem?_keyed.2 ⟨hi, rfl⟩, fun j e hj hkey => ?_⟩
    obtain ⟨hj, he⟩ := getElem?_keyed.1 hj
    exact Decl.eq_of_keyAfter_eq (fun _ => h.plainKey) hi hj hd
      (hsame e.2 (List.mem_of_getElem? hj)) (he.symm.trans hkey)
  refine ⟨hlists.mem_entries honce, honce, ?_⟩
  rw [declReports_eq, t.filings_pairs]
  exact honce.not_mem_repeatReports

lemma PlainlyNamed.mayRepeat_of_key (h : t.PlainlyNamed) {e : Decl} (hd : d ∈ t.declarations file)
    (he : e ∈ t.declarations file) (hblank : d.name = "_") (hkey : e.key = d.key) :
    e.mayRepeat = true := by
  obtain ⟨hname, -⟩ := (h.plainKey hd).eq_of_key (h.plainKey he) hkey
  exact Decl.mayRepeat_of_blank (hname.trans hblank)

end Tree

/-- Whatever is called `_` in a tree with plain names has an entry of its own in the outline, and so
has each function called `init`, unless a variable, constant or type has this name. -/
theorem File.ofTree_keepsRepeatable {t : Tree} (hplain : t.PlainlyNamed) (policy : Redeclaration)
    (id : FileId) (package : String) :
    (∀ (i : Nat) (d : Decl), (t.declarations id)[i]? = some d → d.name = "_" →
      t.KeepsDecl id (ofTree policy id package t) i d) ∧
    ((∀ d ∈ t.declarations id, d.name = "init" → d.kind = .func ∨ d.kind = .method) →
      ∀ (i : Nat) (d : Decl), (t.declarations id)[i]? = some d → d.kind = .func → d.name = "init" →
        t.KeepsDecl id (ofTree policy id package t) i d) := by
  refine ⟨fun i d hi hblank => ?_, fun hfuncs i d hi hkind hinit => ?_⟩
  · have hd := List.mem_of_getElem? hi
    exact hplain.keepsDecl hi (Decl.mayRepeat_of_blank hblank) fun e he hkey =>
      hplain.mayRepeat_of_key hd he hblank hkey
  · have hd := List.mem_of_getElem? hi
    refine hplain.keepsDecl hi (Decl.mayRepeat_of_init hkind hinit) fun e he hkey => ?_
    obtain ⟨hname, hmethod⟩ := (hplain.plainKey hd).eq_of_key (hplain.plainKey he) hkey
    -- a method would have a dot in its key
    rcases hfuncs e he (hname.trans hinit) with hfunc | hfunc
    · exact Decl.mayRepeat_of_init hfunc (hname.trans hinit)
    · rw [hmethod.1 hfunc] at hkind
      simp at hkind

/-- The script of variables, methods, functions and a type called `_`, and of functions and a method
called `init`. -/
def Step.blankDecls : List Step :=
  [.named "int", .valueSpec ["_", "_"] (some 0) [], .decl .vars 1, .named "T", .pointer 3,
    .signature [] [], .receiver (some "t") 4, .method 6 "_" 5, .receiver none 3, .method 8 "_" 5,
    .func "_" 5, .func "init" 5, .method 8 "init" 5, .func "init" 5, .typeSpec "_" 0,
    .decl .types 14]

theorem File.ofTree_keepsRepeatable_blankDecls :
    ∃ p, (Progress.mk (.start "a.go" "main") #[]).run Step.blankDecls = some p ∧
      let t := p.builder.finish
      t.PlainlyNamed ∧ (∀ d ∈ t.declarations ⟨0, 0⟩, d.name = "init" →
        d.kind = .func ∨ d.kind = .method) ∧
      (ofTree .replace ⟨0, 0⟩ "main" t).decls.keys =
        ["_", "_#1", "T._", "T._#1", "_#2", "init", "T.init", "init#1", "_#3"] ∧
      (∀ (i : Nat) (d : Decl), (t.declarations ⟨0, 0⟩)[i]? = some d → d.name = "_" →
        t.KeepsDecl ⟨0, 0⟩ (ofTree .replace ⟨0, 0⟩ "main" t) i d) ∧
      ∀ (i : Nat) (d : Decl), (t.declarations ⟨0, 0⟩)[i]? = some d → d.kind = .func →
        d.name = "init" → t.KeepsDecl ⟨0, 0⟩ (ofTree .replace ⟨0, 0⟩ "main" t) i d := by
  have hrun : ((Progress.mk (.start "a.go" "main") #[]).run Step.blankDecls).any fun p =>
      let t := p.builder.finish
      (t.symbols.names.toList.all fun name => '#' ∉ name.toList && '.' ∉ name.toList) &&
        ((t.declarations ⟨0, 0⟩).all fun d =>
          d.name ≠ "init" || (d.kind = .func || d.kind = .method)) &&
        (ofTree .replace ⟨0, 0⟩ "main" t).issues = [] &&
        (ofTree .replace ⟨0, 0⟩ "main" t).decls.keys =
          ["_", "_#1", "T._", "T._#1", "_#2", "init", "T.init", "init#1", "_#3"] := by
    decide +kernel
  obtain ⟨p, hp, hcheck⟩ := (Option.any_eq_true _ _).1 hrun
  simp only [Bool.and_eq_true, decide_eq_true_eq] at hcheck
  obtain ⟨⟨⟨hnames, hfuncs⟩, hissues⟩, hkeys⟩ := hcheck
  have hplain : p.builder.finish.PlainlyNamed := by
    refine Tree.plainlyNamed_of_names hissues fun name hname => ?_
    simpa [PlainName] using List.all_eq_true.1 hnames name hname
  have hinit : ∀ d ∈ p.builder.finish.declarations ⟨0, 0⟩, d.name = "init" →
      d.kind = .func ∨ d.kind = .method := by
    intro d hd hname
    simpa [hname] using List.all_eq_true.1 hfuncs d hd
  obtain ⟨hblank, hinits⟩ := ofTree_keepsRepeatable hplain .replace ⟨0, 0⟩ "main"
  exact ⟨p, hp, hplain, hinit, hkeys, hblank, hinits hinit⟩

end GoOutline
