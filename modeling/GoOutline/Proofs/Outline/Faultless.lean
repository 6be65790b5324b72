/-
# Files without issues

A file without issues has lost nothing: all its declarations could be read and understood, their keys
are distinct, and the outline lists every one of them in source order.
-/
import GoOutline.Proofs.Outline.Declarations
import Mathlib.Data.List.Nodup

namespace List

lemma eraseDups_of_nodup {α : Type} [BEq α] [LawfulBEq α] {as : List α} (h : as.Nodup) :
    as.eraseDups = as := by
  induction as using List.reverseRecOn with
  | nil => rfl
  | append_singleton as a ih =>
    rw [← concat_eq_append, nodup_concat] at h
    rw [eraseDups_concat_of_not_mem h.1, ih h.2]

end List

namespace GoOutline

/-! ## Distinct keys -/

namespace OrderedMap

variable {V : Type} {m : OrderedMap V} {ps : List (String × V)}

lemma firstValue?_eq_some_iff (hnodup : (ps.map Prod.fst).Nodup) {key : String} {value : V} :
    firstValue? ps key = some value ↔ (key, value) ∈ ps :=
  get?_eq_some_iff (m := ⟨ps, hnodup⟩)

/-- Where no key occurs twice, the first pair of a key is also the last one. -/
lemma lastValue?_eq_firstValue? (hnodup : (ps.map Prod.fst).Nodup) (key : String) :
    lastValue? ps key = firstValue? ps key := by
  have hreverse : (ps.reverse.map Prod.fst).Nodup := by
    rw [List.map_reverse]
    exact List.nodup_reverse.2 hnodup
  refine Option.ext fun value => ?_
  rw [lastValue?, firstValue?_eq_some_iff hreverse, firstValue?_eq_some_iff hnodup,
    List.mem_reverse]

/-- A map that lists pairs with distinct keys lists nothing else. -/
lemma Lists.entries_eq {policy : Redeclaration} (h : m.Lists policy.value? ps)
    (hnodup : (ps.map Prod.fst).Nodup) : m.entries = ps := by
  have hmap : m = ⟨ps, hnodup⟩ := by
    refine ext_get? ?_ fun key => ?_
    · rw [h.keys, List.eraseDups_of_nodup hnodup]
      rfl
    · rw [h.get?]
      cases policy with
      | keepFirst => rfl
      | replace => exact lastValue?_eq_firstValue? hnodup key
  rw [hmap]

end OrderedMap

lemma nodup_of_repeatReports {ps : List (String × Decl)} (h : repeatReports ps = []) :
    (ps.map Prod.fst).Nodup := by
  induction ps using List.reverseRecOn with
  | nil => exact List.nodup_nil
  | append_singleton ps p ih =>
    rw [repeatReports, List.mapBefore_concat, List.flatten_append, List.append_eq_nil_iff] at h
    -- the last pair adds a report if its key stands among the earlier ones
    have hmem : p.1 ∉ ps.map Prod.fst := by
      intro hin
      simp [hin] at h
    rw [List.map_append, List.map_singleton, ← List.concat_eq_append]
    exact List.Nodup.concat hmem (ih h.1)

lemma keyed_map_snd (ds : List Decl) : (keyed ds).map Prod.snd = ds := by
  rw [keyed, List.mapBefore, List.map_map]
  exact List.zipIdx_map_fst 0 ds

/-! ## Entries -/

lemma mem_fileUnder_issue {i : Issue} {entries : List Entry} (h : Entry.issue i ∈ entries)
    (seen : List String) : Filing.issue i ∈ fileUnder seen entries := by
  have hmem : i ∈ (fileUnder seen entries).filterMap Filing.issue? := by
    rw [fileUnder_issues]
    exact List.mem_filterMap.2 ⟨_, h, rfl⟩
  obtain ⟨x, hx, hi⟩ := List.mem_filterMap.1 hmem
  cases x with
  | issue j =>
    obtain rfl := Option.some.inj hi
    exact hx
  | _ => simp [Filing.issue?] at hi

namespace File

variable {policy : Redeclaration} {id : FileId} {package : String} {t : Tree}

/-- What is filed in a file without issues adds none. -/
lemma reports_eq_nil (h : (ofTree policy id package t).issues = []) :
    ((t.filings id).mapBefore Filing.reports).flatten = [] := by
  rw [(ofTree_stores policy id package t).issues] at h
  exact (List.append_eq_nil_iff.1 h).2

lemma not_mem_entries_issue (h : (ofTree policy id package t).issues = []) {x : Source.TopDecl}
    (hx : x ∈ t.sourceFile.decls) (i : Issue) : Entry.issue i ∉ x.entries id := by
  intro hmem
  -- an issue that is filed is reported wherever it stands
  have hfiling : Filing.issue i ∈ t.filings id :=
    mem_fileUnder_issue (List.mem_flatMap.2 ⟨x, hx, hmem⟩) []
  obtain ⟨n, hn⟩ := List.mem_iff_getElem?.1 hfiling
  have hreports := List.flatten_eq_nil_iff.1 (reports_eq_nil h) [i]
    (List.mem_map.2 ⟨(Filing.issue i, n), List.mem_zipIdx_iff_getElem?.2 hn, rfl⟩)
  simp at hreports

/-- A declaration that cannot be read would be an issue. -/
lemma topDecl?_isSome (h : (ofTree policy id package t).issues = []) {d : TopDeclNode}
    (hd : d ∈ t.topDecls) : ∃ x, t.topDecl? d = some x ∧ x ∈ t.sourceFile.decls := by
  have hmem : (t.topDecl? d).getD .bad ∈ t.sourceFile.decls := List.mem_map_of_mem hd
  cases hx : t.topDecl? d with
  | some x => exact ⟨x, rfl, by simpa [hx] using hmem⟩
  | none =>
    rw [hx] at hmem
    exact absurd (List.mem_singleton.2 rfl) (not_mem_entries_issue h hmem (.unexpected .badDecl))

/-- The outline of a file without issues lists its declarations. -/
lemma decls_values_eq (h : (ofTree policy id package t).issues = []) :
    (ofTree policy id package t).decls.values = t.declarations id := by
  have hstores := ofTree_stores policy id package t
  have hreports : declReports (t.filings id) = [] := by
    -- these are some of the reports of the whole file
    have hnil := List.flatten_eq_nil_iff.1 (reports_eq_nil h)
    refine List.flatten_eq_nil_iff.2 fun issues hissues => ?_
    obtain ⟨p, hp, rfl⟩ := List.mem_map.1 hissues
    have hfiling := hnil _ (List.mem_map.2 ⟨p, hp, rfl⟩)
    show (if _ then _ else _) = _
    split
    · exact hfiling
    · rfl
  have hnodup := nodup_of_repeatReports ((declReports_eq _).symm.trans hreports)
  -- under distinct keys nothing is replaced, whatever the policy is
  rw [OrderedMap.values, hstores.decls.entries_eq hnodup, t.filings_pairs]
  exact keyed_map_snd _

end File

end GoOutline
