/-
# Numbered keys

Parameters without a name and parameters called `_` may stand several times in one list. Their keys end
in a number sign and a number, which tells them apart. A number has no number sign in it, so that the
text and the number can be read off such a key, and an identifier has none either, so that the key is
not that of a named parameter. So only parameters with the same name have the same key, and only these
are lost, whatever the texts of the types are.
-/
import GoOutline.Proofs.Outline.Faultless
import GoOutline.Proofs.Outline.FieldLists
import GoOutline.Proofs.Source.Readability

namespace List

variable {α : Type} {as bs as' bs' : List α} {a : α}

/-- Where a separator occurs last, it cuts a list in one way. -/
lemma append_cons_inj_of_last (hbs : a ∉ bs) (hbs' : a ∉ bs')
    (h : as ++ a :: bs = as' ++ a :: bs') : as = as' ∧ bs = bs' := by
  classical
  have hreverse : bs.reverse ++ a :: as.reverse = bs'.reverse ++ a :: as'.reverse := by
    simpa using congrArg List.reverse h
  have hstop (as : List α) : ∀ c ∈ (a :: as).head?, ¬decide (c ≠ a) := by
    intro c hc
    simp [Option.some.inj hc]
  have hrun {bs : List α} (hbs : a ∉ bs) : ∀ c ∈ bs.reverse, decide (c ≠ a) := by
    intro c hc
    exact decide_eq_true fun hca => hbs (hca ▸ mem_reverse.1 hc)
  obtain ⟨hright, hleft⟩ :=
    append_inj_of_stop (hrun hbs) (hrun hbs') (hstop as.reverse) (hstop as'.reverse) hreverse
  exact ⟨reverse_injective (cons.inj hleft).2, reverse_injective hright⟩

end List

namespace GoOutline

open List (Merges)

/-! ## Numbers at the end of a key -/

lemma hash_not_mem_toString (n : Nat) : '#' ∉ (toString n).toList := by
  intro h
  rw [Nat.toString_eq_repr, Nat.toList_repr] at h
  have hdigit := Nat.isDigit_of_mem_toDigits (by decide) (by decide) h
  exact absurd hdigit (by decide)

lemma eq_of_toList_toString {m n : Nat} (h : (toString m).toList = (toString n).toList) :
    m = n := by
  rw [Nat.toString_eq_repr, Nat.toString_eq_repr, Nat.toList_repr, Nat.toList_repr] at h
  simpa using congrArg (Nat.ofDigitChars 10 · 0) h

lemma toList_indexedKey (text : String) (n : Nat) :
    (indexedKey text n).toList = text.toList ++ '#' :: (toString n).toList := by
  simp [indexedKey]

lemma hash_mem_indexedKey (text : String) (n : Nat) : '#' ∈ (indexedKey text n).toList := by
  simp [toList_indexedKey]

/-- Text and number can be read off a numbered key. -/
lemma indexedKey_inj {text text' : String} {m n : Nat} (h : indexedKey text m = indexedKey text' n) :
    text = text' ∧ m = n := by
  have hlist := congrArg String.toList h
  rw [toList_indexedKey, toList_indexedKey] at hlist
  obtain ⟨htext, hnumber⟩ := List.append_cons_inj_of_last (hash_not_mem_toString m)
    (hash_not_mem_toString n) hlist
  exact ⟨String.toList_inj.1 htext, eq_of_toList_toString hnumber⟩

/-! ## Keys that occur once -/

namespace OrderedMap

variable {V : Type} {m : OrderedMap V} {policy : Redeclaration} {ps : List (String × V)}

/-- The key of the pair at a position is that of no other pair. -/
def KeyedOnce (ps : List (String × V)) (i : Nat) (e : String × V) : Prop :=
  ps[i]? = some e ∧ ∀ j e', ps[j]? = some e' → e'.1 = e.1 → j = i

lemma KeyedOnce.eq_of_mem {i : Nat} {e e' : String × V} (h : KeyedOnce ps i e) (he' : e' ∈ ps)
    (hkey : e'.1 = e.1) : e' = e := by
  obtain ⟨j, hj⟩ := List.mem_iff_getElem?.1 he'
  obtain rfl := h.2 j e' hj hkey
  exact Option.some.inj (hj.symm.trans h.1)

/-- A pair whose key occurs once is stored, whatever the policy. -/
lemma Lists.mem_entries (h : m.Lists policy.value? ps) {i : Nat} {e : String × V}
    (he : KeyedOnce ps i e) : e ∈ m.entries := by
  have hkey : e.1 ∈ m.keys := h.mem_keys.2 (List.mem_map_of_mem (List.mem_of_getElem? he.1))
  obtain ⟨e', he', hkey'⟩ := List.mem_map.1 hkey
  rw [← he.eq_of_mem (h.mem_pairs he') hkey']
  exact he'

end OrderedMap

/-! ## Parameters -/

namespace Field

/-- The name of a field, unless it is blank. -/
def properName? (f : Field) : Option String :=
  if f.unnamed then none else if f.name = "_" then none else some f.name

variable {f f' : Field} {i j n : Nat} {key name : String}

lemma StoredUnder.eq_properName (h : f.StoredUnder n .params key) (hf : f.properName? = some name) :
    key = name := by
  cases h with
  | unnamed hname => simp [properName?, hname] at hf
  | blank hname hblank => simp [properName?, hname, hblank] at hf
  | named hname hblank => simpa [properName?, hname, hblank] using hf

lemma StoredUnder.exists_indexed (h : f.StoredUnder n .params key) (hf : f.properName? = none) :
    ∃ text, key = indexedKey text n := by
  cases h with
  | unnamed => exact ⟨f.type, rfl⟩
  | blank => exact ⟨"_", by simp [indexedKey]⟩
  | named hname hblank => simp [properName?, hname, hblank] at hf

/-- Two parameters have the same key only if they have the same name. -/
lemma StoredUnder.properName?_eq (h : f.StoredUnder i .params key)
    (h' : f'.StoredUnder j .params key) (hij : i ≠ j)
    (hf : ∀ name ∈ f.properName?, '#' ∉ name.toList)
    (hf' : ∀ name ∈ f'.properName?, '#' ∉ name.toList) :
    f.properName? = some key ∧ f'.properName? = some key := by
  cases hname : f.properName? with
  | some name =>
    obtain rfl := h.eq_properName hname
    cases hname' : f'.properName? with
    | some name' =>
      obtain rfl := h'.eq_properName hname'
      exact ⟨rfl, rfl⟩
    | none =>
      obtain ⟨text, rfl⟩ := h'.exists_indexed hname'
      exact absurd (hash_mem_indexedKey text j) (hf _ hname)
  | none =>
    obtain ⟨text, rfl⟩ := h.exists_indexed hname
    cases hname' : f'.properName? with
    | some name' =>
      obtain rfl := h'.eq_properName hname'
      exact absurd (hash_mem_indexedKey text i) (hf' _ hname')
    | none =>
      obtain ⟨text', hkey⟩ := h'.exists_indexed hname'
      exact absurd (indexedKey_inj hkey).2 hij

end Field

/-- The names of some parameters, without the blank ones. -/
def properNames (pairs : List (String × Field)) : List String :=
  pairs.filterMap fun e => e.2.properName?

/-- The issue of a parameter whose name is among those of the parameters before it. -/
def repeatedName (before : List (String × Field)) (e : String × Field) : List Issue :=
  if e.2.properName?.any fun name => name ∈ properNames before then
    [.redeclared (if e.2.name = "" then e.2.type else e.2.name)]
  else []

/-- No repetition is reported exactly where no key occurs twice. -/
lemma repeatIssues_eq_nil_iff {V : Type} {ps : List (String × V)} (label : V → String) :
    (ps.mapBefore (repeatIssue label)).flatten = [] ↔ (ps.map Prod.fst).Nodup := by
  induction ps using List.reverseRecOn with
  | nil => simp
  | append_singleton ps e ih =>
    have hlast : repeatIssue label ps e = [] ↔ e.1 ∉ ps.map Prod.fst := by simp [repeatIssue]
    rw [List.mapBefore_concat, List.flatten_append, List.flatten_singleton, List.append_eq_nil_iff,
      ih, hlast, and_comm, List.map_append, List.map_singleton, ← List.concat_eq_append,
      List.nodup_concat]

/-- The parameters have the keys that go with their numbers, and their names have no number signs. -/
structure NumberedParams (pairs : List (String × Field)) : Prop where
  keys : ∀ (i : Nat) (e : String × Field), pairs[i]? = some e → e.2.StoredUnder i .params e.1
  names : ∀ name ∈ properNames pairs, '#' ∉ name.toList

namespace NumberedParams

variable {pairs : List (String × Field)} {i : Nat} {e : String × Field}

lemma hash_not_mem (h : NumberedParams pairs) (he : pairs[i]? = some e) :
    ∀ name ∈ e.2.properName?, '#' ∉ name.toList := fun name hname =>
  h.names name (List.mem_filterMap.2 ⟨e, List.mem_of_getElem? he, hname⟩)

/-- A key is in use if and only if it is a name that has come before. -/
lemma mem_keys_iff (h : NumberedParams pairs) (he : pairs[i]? = some e) :
    e.1 ∈ (pairs.take i).map Prod.fst ↔
      ∃ name, e.2.properName? = some name ∧ name ∈ properNames (pairs.take i) := by
  constructor
  · intro hmem
    obtain ⟨e', he', hkey⟩ := List.mem_map.1 hmem
    obtain ⟨j, hj⟩ := List.mem_iff_getElem?.1 he'
    rw [List.getElem?_take] at hj
    obtain ⟨hji, hj⟩ := Option.ite_none_right_eq_some.1 hj
    obtain ⟨hname', hname⟩ := (hkey ▸ h.keys j e' hj).properName?_eq (h.keys i e he)
      (Nat.ne_of_lt hji)
      (h.hash_not_mem hj) (h.hash_not_mem he)
    exact ⟨e.1, hname, List.mem_filterMap.2 ⟨e', he', hname'⟩⟩
  · rintro ⟨name, hname, hmem⟩
    obtain ⟨e', he', hname'⟩ := List.mem_filterMap.1 hmem
    obtain ⟨j, hj⟩ := List.mem_iff_getElem?.1 (List.mem_of_mem_take he')
    rw [(h.keys i e he).eq_properName hname, ← (h.keys j e' hj).eq_properName hname']
    exact List.mem_map_of_mem he'

/-- Without a name of its own, a parameter has a key of its own. -/
lemma keyedOnce (h : NumberedParams pairs) (he : pairs[i]? = some e) (hname : e.2.properName? = none) :
    OrderedMap.KeyedOnce pairs i e := by
  refine ⟨he, fun j e' hj hkey => ?_⟩
  by_contra hne
  obtain ⟨-, hsome⟩ := (hkey ▸ h.keys j e' hj).properName?_eq (h.keys i e he) hne
    (h.hash_not_mem hj) (h.hash_not_mem he)
  simp [hname] at hsome

lemma repeatIssue_eq (h : NumberedParams pairs) :
    pairs.mapBefore (repeatIssue fun f => if f.name = "" then f.type else f.name) =
      pairs.mapBefore repeatedName := by
  refine List.mapBefore_congr fun i e he => ?_
  have hiff : (e.2.properName?.any fun name => name ∈ properNames (pairs.take i)) = true ↔
      e.1 ∈ (pairs.take i).map Prod.fst := by
    rw [h.mem_keys_iff he, Option.any_eq_true]
    simp only [decide_eq_true_eq]
  rw [repeatIssue, repeatedName, if_congr hiff rfl rfl]

/-- If no name is repeated, then no key is. -/
lemma nodup_keys (h : NumberedParams pairs) (hnodup : (properNames pairs).Nodup) :
    (pairs.map Prod.fst).Nodup := by
  rw [List.Nodup, List.pairwise_iff_getElem]
  intro i j hi hj hij heq
  simp only [List.getElem_map, List.length_map] at hi hj heq
  have hkey : pairs[j].1 ∈ (pairs.take j).map Prod.fst := by
    rw [← heq]
    exact List.mem_map_of_mem (List.mem_take_iff_getElem.2 ⟨i, by omega, rfl⟩)
  obtain ⟨name, hname, hbefore⟩ := (h.mem_keys_iff (List.getElem?_eq_getElem hj)).1 hkey
  -- the name stands both before the parameter and at it
  have hafter : name ∈ properNames (pairs.drop j) := by
    rw [List.drop_eq_getElem_cons hj]
    exact List.mem_filterMap.2 ⟨pairs[j], List.mem_cons_self, hname⟩
  rw [← List.take_append_drop j pairs, properNames, List.filterMap_append] at hnodup
  exact List.disjoint_of_nodup_append hnodup hbefore hafter

end NumberedParams

namespace Store

variable {st : Store} {type : TypeId → Option Source.TypeExpr} {kind : FieldListKind}
  {id : FieldId} {ids : List FieldId} {pairs : List (String × Field)}

lemma OutlinesField.properName?_eq {x : FieldSite} {f : Field} (h : st.OutlinesField type x f) :
    f.properName? = x.name.filter (· ≠ "_") := by
  rw [Field.properName?, h.unnamed, h.name]
  cases x.name with
  | none => rfl
  | some name => by_cases hname : name = "_" <;> simp [Option.filter, hname]

lemma fieldSites_properNames (hplace : st.misplacedField? kind id = none) :
    (st.fieldSites kind id).filterMap (fun x => x.name.filter (· ≠ "_")) =
      (st.fieldNames id).filter (· ≠ "_") := by
  cases hnode : (st.node? id : Option FieldNode) with
  | none => simp [fieldSites, fieldNames, hnode]
  | some f =>
    simp only [fieldSites, hnode, Option.elim_some, hplace, Option.isSome_none, Bool.false_eq_true,
      if_false]
    split
    · rename_i hnames
      rw [List.isEmpty_iff.1 hnames]
      rfl
    · rw [List.filterMap_map, ← List.filterMap_eq_filter]
      rfl

lemma fieldSites_eq_nil {part : Misplaced} (hplace : st.misplacedField? kind id = some part) :
    st.fieldSites kind id = [] := by
  cases hnode : (st.node? id : Option FieldNode) <;> simp [fieldSites, hnode, hplace]

lemma BindsFields.properNames_eq (h : st.BindsFields type kind ids pairs) :
    properNames pairs =
      (ids.flatMap (st.fieldSites kind)).filterMap fun x => x.name.filter (· ≠ "_") := by
  rw [properNames, ← List.Forall₂.filterMap_eq (f := fun x => x.1.name.filter (· ≠ "_")) h
    fun x e hx => hx.1.properName?_eq.symm]
  conv_rhs => rw [← List.zipIdx_map_fst 0 (ids.flatMap (st.fieldSites kind)), List.filterMap_map]
  rfl

/-- The names that the entries of a list bind have no number signs. -/
def Unnumbered (st : Store) (kind : FieldListKind) (ids : List FieldId) : Prop :=
  ∀ id ∈ ids, st.misplacedField? kind id = none → ∀ name ∈ st.fieldNames id, '#' ∉ name.toList

lemma BindsFields.numberedParams (h : st.BindsFields type .params ids pairs)
    (hnames : st.Unnumbered .params ids) : NumberedParams pairs := by
  refine ⟨fun i e he => ?_, fun name hname => ?_⟩
  · obtain ⟨⟨x, j⟩, hx, -, hkey⟩ := h.getElem?_right he
    rw [List.getElem?_zipIdx, Option.map_eq_some_iff] at hx
    obtain ⟨x', -, hx⟩ := hx
    obtain rfl : 0 + i = j := congrArg Prod.snd hx
    rwa [Nat.zero_add] at hkey
  · rw [h.properNames_eq, List.filterMap_flatMap, List.mem_flatMap] at hname
    obtain ⟨id, hid, hname⟩ := hname
    cases hplace : st.misplacedField? .params id with
    | some part => simp [fieldSites_eq_nil hplace] at hname
    | none =>
      rw [fieldSites_properNames hplace] at hname
      exact hnames id hid hplace name (List.mem_of_mem_filter hname)

lemma BindsFields.properNames_eq_names (h : st.BindsFields type kind ids pairs)
    (hplace : ∀ id ∈ ids, st.misplacedField? kind id = none) :
    properNames pairs = (ids.flatMap st.fieldNames).filter (· ≠ "_") := by
  rw [h.properNames_eq, List.filterMap_flatMap, List.filter_flatMap]
  exact List.flatMap_congr fun id hid => fieldSites_properNames (hplace id hid)

/-- The outline of a parameter list loses nothing but repeated names: `pairs` are the parameters that
the list binds. -/
structure KeepsParams (st : Store) (type : TypeId → Option Source.TypeExpr) (ids : List FieldId)
    (pairs : List (String × Field)) (out : Fields × List Issue) : Prop where
  binds : st.BindsFields type .params ids pairs
  fields : out.1.Lists OrderedMap.firstValue? pairs
  /-- A parameter without a name, or with the blank one, is stored under a key of its own. -/
  kept : ∀ i e, pairs[i]? = some e → e.2.properName? = none →
    e ∈ out.1.entries ∧ OrderedMap.KeyedOnce pairs i e
  /-- A key is in use only if a parameter before has the same name. -/
  repeated : ∀ i e, pairs[i]? = some e → (e.1 ∈ (pairs.take i).map Prod.fst ↔
    ∃ name, e.2.properName? = some name ∧ name ∈ properNames (pairs.take i))
  issues : Merges Issue.Flags (ids.filterMap (st.misplacedField? .params))
    (pairs.mapBefore repeatedName).flatten out.2
  /-- If nothing is misplaced and no name is repeated, then there are as many fields as parameters. -/
  complete : (∀ id ∈ ids, st.misplacedField? .params id = none) →
    ((ids.flatMap st.fieldNames).filter (· ≠ "_")).Nodup →
    out.1.entries = pairs ∧ out.2 = [] ∧ out.1.size = (ids.map (st.fieldCount .params)).sum

lemma AccountsFields.keepsParams {out : Fields × List Issue}
    (h : st.AccountsFields type .params ids pairs out) (hnames : st.Unnumbered .params ids) :
    st.KeepsParams type ids pairs out := by
  have hnumbered := h.binds.numberedParams hnames
  have hlists : out.1.Lists (Redeclaration.value? .keepFirst) pairs := h.fields
  have hissues := hnumbered.repeatIssue_eq ▸ h.issues
  refine ⟨h.binds, h.fields, fun i e he hname => ?_, fun i e he => hnumbered.mem_keys_iff he,
    hissues, fun hplace hnodup => ?_⟩
  · have honce := hnumbered.keyedOnce he hname
    exact ⟨hlists.mem_entries honce, honce⟩
  · rw [← h.binds.properNames_eq_names hplace] at hnodup
    have hkeys := hnumbered.nodup_keys hnodup
    have hlength := h.issues.length_eq
    rw [List.filterMap_eq_nil_iff.2 hplace, (repeatIssues_eq_nil_iff _).2 hkeys] at hlength
    have hnone : out.2 = [] := List.length_eq_zero_iff.1 hlength
    -- with nothing to report, the fields are all that the entries amount to
    have hcount := h.count
    rw [hnone, List.length_nil, Nat.add_zero] at hcount
    exact ⟨hlists.entries_eq hkeys, hnone, hcount⟩

end Store

/-- If the names of a parameter list have no number signs, then its outline keeps every parameter but
those with repeated names, whatever their types are. In a finished tree there is such an outline for
every list of fields. -/
theorem outlineFields_keepsParams :
    (∀ (st : Store) (type : TypeId → Option Source.TypeExpr) (ids : List FieldId)
      (entries : List Source.Field), ids.mapM (st.readField st.docLines? type) = some entries →
      st.Unnumbered .params ids →
      ∃ pairs, st.KeepsParams type ids pairs (outlineFields .params entries)) ∧
    ∀ path package steps p, (Progress.mk (.start path package) #[]).run steps = some p →
      let t := p.builder.finish
      ∀ ids : List FieldId, (∀ id ∈ ids, id.ref.In t.toStore) →
        ∃ entries, ids.mapM (t.readField t.docLines? t.type?) = some entries :=
  ⟨fun _ _ _ entries hread hnames =>
      ⟨fieldPairs .params entries, (Store.fieldPairs_accounted hread).keepsParams hnames⟩,
    fun _ _ _ _ hrun _ => Progress.readFields_finish hrun⟩

/-- The script of parameters without names, with blank ones and with a repeated one. The second type
looks like a key. -/
def Step.numberedParams : List Step :=
  [.named "int", .named "int#0", .field [] 0, .field ["_", "x"] 0, .field [] 1, .field ["x", "_"] 0]

theorem outlineFields_keepsParams_numbered :
    ∃ p, (Progress.mk (.start "a.go" "main") #[]).run Step.numberedParams = some p ∧
      let t := p.builder.finish
      ∃ entries, [⟨0⟩, ⟨1⟩, ⟨2⟩, ⟨3⟩].mapM (t.readField t.docLines? t.type?) = some entries ∧
        t.Unnumbered .params [⟨0⟩, ⟨1⟩, ⟨2⟩, ⟨3⟩] ∧
        (outlineFields .params entries).1.keys = ["int#0", "_#1", "x", "int#0#3", "_#5"] ∧
        (outlineFields .params entries).2 = [.redeclared "x"] ∧
        ∃ pairs, t.KeepsParams t.type? [⟨0⟩, ⟨1⟩, ⟨2⟩, ⟨3⟩] pairs
          (outlineFields .params entries) := by
  have hrun : ((Progress.mk (.start "a.go" "main") #[]).run Step.numberedParams).any fun p =>
      let t := p.builder.finish
      t.nodes.fields.size = 4 &&
        ([⟨0⟩, ⟨1⟩, ⟨2⟩, ⟨3⟩].all fun id => (t.fieldNames id).all fun name => '#' ∉ name.toList) &&
        ([⟨0⟩, ⟨1⟩, ⟨2⟩, ⟨3⟩].mapM (t.readField t.docLines? t.type?)).all fun entries =>
          (outlineFields .params entries).1.keys = ["int#0", "_#1", "x", "int#0#3", "_#5"] &&
            (outlineFields .params entries).2 = [.redeclared "x"] := by
    decide +kernel
  obtain ⟨p, hp, hcheck⟩ := (Option.any_eq_true _ _).1 hrun
  simp only [Bool.and_eq_true, decide_eq_true_eq] at hcheck
  obtain ⟨⟨hsize, hnames⟩, hcheck⟩ := hcheck
  have hids : ∀ id ∈ ([⟨0⟩, ⟨1⟩, ⟨2⟩, ⟨3⟩] : List FieldId), id.ref.In p.builder.finish.toStore :=
    Store.fieldIds_in hsize (by decide)
  have hunnumbered : p.builder.finish.Unnumbered .params [⟨0⟩, ⟨1⟩, ⟨2⟩, ⟨3⟩] := by
    intro id hid _ name hname
    exact of_decide_eq_true (List.all_eq_true.1 (List.all_eq_true.1 hnames id hid) name hname)
  obtain ⟨hkeeps, hreadable⟩ := outlineFields_keepsParams
  obtain ⟨entries, hentries⟩ := hreadable _ _ _ _ hp _ hids
  simp only [hentries, Option.all_some, Bool.and_eq_true, decide_eq_true_eq] at hcheck
  exact ⟨p, hp, entries, hentries, hunnumbered, hcheck.1, hcheck.2,
    hkeeps _ _ _ _ hentries hunnumbered⟩

end GoOutline
