/-
# The end of a chain of types

A type of a universe has at most one type below it, so the types that are reached from a given one
form a chain. The chain ends at a type that has no other below it, or else it runs into a circle.

The end is looked for by following a bounded number of links. The bound is large enough, whatever the
links are: a type with a link is an entry, so among more types of a chain than there are entries one
ends the chain or occurs twice, and from then on the chain repeats itself. Hence the walk stops at the
end of the chain if there is one, and on a circle if there is none.
-/
import GoOutline.Program.TypeUniverse
import Mathlib.Data.Fintype.Pigeonhole
import Mathlib.Dynamics.PeriodicPts.Defs
import Mathlib.Tactic.Common

namespace GoOutline.TypeUniverse

open Function

/-! ## Chains -/

/-- The type `b` is the one below `a`. -/
def Link (u : TypeUniverse) (a b : TypeRef) : Prop := u.underlying? a = some b

/-- The chain from `t` passes through `r`. -/
def Reaches (u : TypeUniverse) : TypeRef → TypeRef → Prop := Relation.ReflTransGen u.Link

/-- The type has no other below it. This is so of every number that is not that of an entry. -/
def Terminal (u : TypeUniverse) (t : TypeRef) : Prop :=
  u.underlying? t = none ∨ u.underlying? t = some t

/-- The chain from `t` ends at `r`. -/
structure Ends (u : TypeUniverse) (t r : TypeRef) : Prop where
  reaches : u.Reaches t r
  terminal : u.Terminal r

/-- At least two different types, each with the next one below it and the last one with the first. -/
structure Circle (u : TypeUniverse) (types : List TypeRef) : Prop where
  two_le : 2 ≤ types.length
  distinct : types.Nodup
  linked : ∀ i t, types[i]? = some t → u.underlying? t = types[(i + 1) % types.length]?

variable {u u' : TypeUniverse} {a b t r : TypeRef}

lemma underlying?_of_size_le (h : u.entries.size ≤ t.index) : u.underlying? t = none := by
  rw [underlying?, Array.getElem?_eq_none h]
  rfl

/-- Only entries have a type below them. -/
lemma Link.lt_size (h : u.Link a b) : a.index < u.entries.size := by
  by_contra hle
  have hnone := underlying?_of_size_le (Nat.not_lt.1 hle)
  rw [Link, hnone] at h
  cases h

lemma text?_eq_none_iff : u.text? t = none ↔ u.entries.size ≤ t.index := by
  rw [text?, Option.map_eq_none_iff, Array.getElem?_eq_none_iff]

/-! ## The walk as an iteration -/

/-- The type below `t`, or `t` itself if there is none. -/
def next (u : TypeUniverse) (t : TypeRef) : TypeRef := (u.underlying? t).getD t

lemma Link.next_eq (h : u.Link a b) : u.next a = b := by
  rw [next, h]
  rfl

lemma terminal_iff : u.Terminal t ↔ IsFixedPt u.next t := by
  rw [Terminal, IsFixedPt, next]
  cases u.underlying? t <;> simp

lemma link_next (h : ¬u.Terminal t) : u.Link t (u.next t) := by
  rw [Terminal, not_or] at h
  obtain ⟨below, hbelow⟩ := Option.ne_none_iff_exists'.1 h.1
  rw [Link, next, hbelow]
  rfl

lemma follow_of_terminal (h : u.Terminal t) (n : Nat) : u.follow n t = t := by
  cases n with
  | zero => rfl
  | succ n => rcases h with h | h <;> simp [follow, h]

lemma follow_eq_iterate (u : TypeUniverse) (n : Nat) (t : TypeRef) :
    u.follow n t = u.next^[n] t := by
  induction n generalizing t with
  | zero => rfl
  | succ n ih =>
    by_cases hend : u.Terminal t
    · rw [follow_of_terminal hend, iterate_fixed (terminal_iff.1 hend)]
    · have hlink : u.underlying? t = some (u.next t) := link_next hend
      have hne : u.next t ≠ t := fun heq => hend (terminal_iff.2 heq)
      rw [iterate_succ_apply, ← ih]
      simp [follow, hlink, hne]

lemma reaches_next (u : TypeUniverse) (t : TypeRef) : u.Reaches t (u.next t) := by
  by_cases hend : u.Terminal t
  · have hfix : u.next t = t := terminal_iff.1 hend
    rw [hfix]
    exact .refl
  · exact .single (link_next hend)

/-- What a chain passes through is what is reached by following links. -/
lemma reaches_iff : u.Reaches t r ↔ ∃ n, u.next^[n] t = r := by
  constructor
  · intro h
    induction h with
    | refl => exact ⟨0, rfl⟩
    | tail _ hlink ih =>
      obtain ⟨n, rfl⟩ := ih
      exact ⟨n + 1, by rw [iterate_succ_apply', hlink.next_eq]⟩
  · rintro ⟨n, rfl⟩
    induction n with
    | zero => exact .refl
    | succ n ih =>
      rw [iterate_succ_apply']
      exact ih.trans (u.reaches_next _)

/-! ## The bound -/

/-- Links are followed once more than there are entries, and by then the walk comes back to where it
was, if only by standing still. -/
lemma exists_repetition (u : TypeUniverse) (t : TypeRef) :
    ∃ i j, i < j ∧ j ≤ u.entries.size + 1 ∧ u.next^[i] t = u.next^[j] t := by
  by_cases hend : ∃ i ≤ u.entries.size, u.Terminal (u.next^[i] t)
  · obtain ⟨i, hi, hterminal⟩ := hend
    have hfix : u.next (u.next^[i] t) = u.next^[i] t := terminal_iff.1 hterminal
    exact ⟨i, i + 1, by omega, by omega, by rw [iterate_succ_apply', hfix]⟩
  · -- all of these types have links, so they are entries, and there are more of them than entries
    have hlt : ∀ i ≤ u.entries.size, (u.next^[i] t).index < u.entries.size := by
      intro i hi
      exact (link_next fun h => hend ⟨i, hi, h⟩).lt_size
    let f : Fin (u.entries.size + 1) → Fin u.entries.size := fun i =>
      ⟨(u.next^[i] t).index, hlt i (Nat.le_of_lt_succ i.isLt)⟩
    obtain ⟨i, j, hne, heq⟩ := Fintype.exists_ne_map_eq_of_card_lt f (by simp)
    have hsame : u.next^[i] t = u.next^[j] t := by
      have hindex := Fin.val_eq_of_eq heq
      cases hi : u.next^[i] t
      cases hj : u.next^[j] t
      simpa [f, hi, hj] using hindex
    have hi := i.isLt
    have hj := j.isLt
    rcases Nat.lt_or_gt_of_ne (Fin.val_ne_of_ne hne) with hij | hij
    · exact ⟨i, j, hij, by omega, hsame⟩
    · exact ⟨j, i, hij, by omega, hsame.symm⟩

/-- The walk comes to where it would go round for ever. -/
lemma follow_mem_periodicPts (u : TypeUniverse) (t : TypeRef) :
    u.follow (u.entries.size + 1) t ∈ periodicPts u.next := by
  obtain ⟨i, j, hij, hj, heq⟩ := u.exists_repetition t
  have hperiodic : IsPeriodicPt u.next (j - i) (u.next^[i] t) := by
    rw [IsPeriodicPt, IsFixedPt, ← iterate_add_apply, Nat.sub_add_cancel (Nat.le_of_lt hij), heq]
  have hlater := hperiodic.apply_iterate (u.entries.size + 1 - i)
  rw [← iterate_add_apply, Nat.sub_add_cancel (by omega), ← follow_eq_iterate] at hlater
  exact mk_mem_periodicPts (by omega) hlater

/-- If the chain ends, the walk stops at its end. -/
lemma Ends.follow_eq (h : u.Ends t r) : u.follow (u.entries.size + 1) t = r := by
  obtain ⟨m, hm⟩ := reaches_iff.1 h.reaches
  obtain ⟨n, hn, hperiodic⟩ := u.follow_mem_periodicPts t
  -- going round often enough leads past the end, where nothing moves any more
  have hround : IsPeriodicPt u.next (n * m) (u.follow (u.entries.size + 1) t) :=
    hperiodic.mul_const m
  have hle : m ≤ n * m + (u.entries.size + 1) :=
    Nat.le_trans (Nat.le_mul_of_pos_left m hn) (Nat.le_add_right _ _)
  calc u.follow (u.entries.size + 1) t
    _ = u.next^[n * m] (u.follow (u.entries.size + 1) t) := hround.eq.symm
    _ = u.next^[n * m + (u.entries.size + 1)] t := by
      rw [follow_eq_iterate, iterate_add_apply u.next (n * m)]
    _ = u.next^[n * m + (u.entries.size + 1) - m] (u.next^[m] t) := by
      rw [← iterate_add_apply, Nat.sub_add_cancel hle]
    _ = r := by rw [hm, iterate_fixed (terminal_iff.1 h.terminal)]

lemma reaches_follow (u : TypeUniverse) (n : Nat) (t : TypeRef) : u.Reaches t (u.follow n t) :=
  reaches_iff.2 ⟨n, (u.follow_eq_iterate n t).symm⟩

/-! ## Circles -/

/-- A type to which the walk comes back lies on a circle, unless it is terminal. -/
lemma exists_circle (h : r ∈ periodicPts u.next) (hend : ¬u.Terminal r) :
    ∃ types, u.Circle types ∧ r ∈ types := by
  have hpos : 0 < minimalPeriod u.next r := minimalPeriod_pos_of_mem_periodicPts h
  have hne : minimalPeriod u.next r ≠ 1 := fun hone =>
    hend (terminal_iff.2 (minimalPeriod_eq_one_iff_isFixedPt.1 hone))
  let types := (List.range (minimalPeriod u.next r)).map fun i => u.next^[i] r
  have hlength : types.length = minimalPeriod u.next r := by simp [types]
  have hget : ∀ i < minimalPeriod u.next r, types[i]? = some (u.next^[i] r) := by
    intro i hi
    rw [List.getElem?_map, List.getElem?_range hi]
    rfl
  refine ⟨types, ⟨by omega, ?_, ?_⟩, ?_⟩
  · refine List.Nodup.map_on ?_ List.nodup_range
    intro i hi j hj heq
    exact iterate_injOn_Iio_minimalPeriod (List.mem_range.1 hi) (List.mem_range.1 hj) heq
  · intro i t hi
    have hlt : i < minimalPeriod u.next r := by
      rw [← hlength]
      exact (List.getElem?_eq_some_iff.1 hi).1
    rw [hget i hlt] at hi
    obtain rfl := Option.some.inj hi
    -- the whole circle has links, as going on from a terminal type would not lead back
    have hlink : ¬u.Terminal (u.next^[i] r) := by
      intro hterminal
      have hback : u.next^[minimalPeriod u.next r - i] (u.next^[i] r) = r := by
        rw [← iterate_add_apply, Nat.sub_add_cancel (Nat.le_of_lt hlt), iterate_minimalPeriod]
      rw [iterate_fixed (terminal_iff.1 hterminal)] at hback
      exact hend (hback ▸ hterminal)
    have hnext : u.underlying? (u.next^[i] r) = some (u.next (u.next^[i] r)) := link_next hlink
    rw [hnext, hlength, hget _ (Nat.mod_lt _ hpos), iterate_mod_minimalPeriod_eq,
      iterate_succ_apply']
  · exact List.mem_map.2 ⟨0, List.mem_range.2 hpos, rfl⟩

/-- A chain that does not end leads the walk onto a circle. -/
lemma follow_mem_circle (h : ¬∃ r, u.Ends t r) :
    ∃ types, u.Circle types ∧ u.follow (u.entries.size + 1) t ∈ types :=
  exists_circle (u.follow_mem_periodicPts t) fun hend => h ⟨_, u.reaches_follow _ t, hend⟩

lemma Circle.exists_text? {types : List TypeRef} (h : u.Circle types) (hr : r ∈ types) :
    ∃ text, u.text? r = some text := by
  obtain ⟨i, hi⟩ := List.mem_iff_getElem?.1 hr
  have hlt : (i + 1) % types.length < types.length := Nat.mod_lt _ (by have := h.two_le; omega)
  have hlink : u.Link r types[(i + 1) % types.length] := by
    rw [Link, h.linked i r hi, List.getElem?_eq_getElem hlt]
  refine Option.ne_none_iff_exists'.1 fun hnone => ?_
  exact absurd hlink.lt_size (Nat.not_lt.2 (text?_eq_none_iff.1 hnone))

/-! ## More entries -/

/-- The entries of `u'` are those of `u` and further ones. -/
def Extends (u u' : TypeUniverse) : Prop := ∃ more, u'.entries = u.entries ++ more

lemma Extends.entry?_eq (h : u.Extends u') (hlt : t.index < u.entries.size) :
    u'.entries[t.index]? = u.entries[t.index]? := by
  obtain ⟨more, hmore⟩ := h
  rw [hmore, Array.getElem?_append_left hlt]

lemma Extends.reaches (h : u.Extends u') (hreach : u.Reaches t r) : u'.Reaches t r := by
  induction hreach with
  | refl => exact .refl
  | tail _ hlink ih =>
    have hlt := hlink.lt_size
    refine ih.tail ?_
    rw [Link, underlying?, h.entry?_eq hlt]
    exact hlink

/-- The end of a chain is not moved, if the further entries do not have its number. -/
lemma Extends.ends (h : u.Extends u') (hend : u.Ends t r)
    (hr : r.index < u.entries.size ∨ u'.entries.size ≤ r.index) : u'.Ends t r := by
  refine ⟨h.reaches hend.reaches, ?_⟩
  rcases hr with hlt | hle
  · rw [Terminal, underlying?, h.entry?_eq hlt]
    exact hend.terminal
  · exact .inl (underlying?_of_size_le hle)

/-! ## The text at the end -/

lemma Ends.fixpoint?_eq (h : u.Ends t r) : u.fixpoint? t = u.text? r := by
  rw [fixpoint?, h.follow_eq]

lemma Extends.fixpoint?_eq (h : u.Extends u') (hend : u.Ends t r)
    (hr : r.index < u.entries.size ∨ u'.entries.size ≤ r.index) :
    u'.fixpoint? t = u.fixpoint? t := by
  rw [(h.ends hend hr).fixpoint?_eq, hend.fixpoint?_eq]
  rcases hr with hlt | hle
  · rw [text?, text?, h.entry?_eq hlt]
  · obtain ⟨more, hmore⟩ := h
    have hle' : u.entries.size ≤ r.index := by
      rw [hmore, Array.size_append] at hle
      omega
    rw [text?_eq_none_iff.2 hle, text?_eq_none_iff.2 hle']

/-- Every link leads to an entry. -/
def Dense (u : TypeUniverse) : Prop := ∀ a b, u.Link a b → b.index < u.entries.size

lemma Dense.lt_size (h : u.Dense) (ht : t.index < u.entries.size) (hreach : u.Reaches t r) :
    r.index < u.entries.size := by
  induction hreach with
  | refl => exact ht
  | tail _ hlink _ => exact h _ _ hlink

/-- What is found for `t`: the text at the end of its chain, or else that of a type on the circle that
the chain runs into. -/
structure FindsEnd (u : TypeUniverse) (t : TypeRef) : Prop where
  ends : ∀ r, u.Ends t r → u.fixpoint? t = u.text? r ∧
    (u.fixpoint? t = none ↔ u.entries.size ≤ r.index)
  circles : (¬∃ r, u.Ends t r) → ∃ types, u.Circle types ∧ ∃ r ∈ types, u.Reaches t r ∧
    ∃ text, u.text? r = some text ∧ u.fixpoint? t = some text
  /-- Further entries change nothing where the chain ends, unless it ends at the number of one of
  them. -/
  extended : ∀ u' r, u.Extends u' → u.Ends t r →
    r.index < u.entries.size ∨ u'.entries.size ≤ r.index → u'.fixpoint? t = u.fixpoint? t
  dense : u.Dense → t.index < u.entries.size → u.fixpoint? t ≠ none

/-- The walk is never cut short. -/
theorem findsEnd (u : TypeUniverse) (t : TypeRef) : u.FindsEnd t where
  ends := by
    intro r hend
    rw [hend.fixpoint?_eq]
    exact ⟨rfl, text?_eq_none_iff⟩
  circles := by
    intro hend
    obtain ⟨types, hcircle, hmem⟩ := follow_mem_circle hend
    obtain ⟨text, htext⟩ := hcircle.exists_text? hmem
    exact ⟨types, hcircle, _, hmem, u.reaches_follow _ t, text, htext, htext⟩
  extended := fun _ _ hmore hend hr => hmore.fixpoint?_eq hend hr
  dense := by
    intro hdense ht hnone
    have hle := text?_eq_none_iff.1 hnone
    have hlt := hdense.lt_size ht (u.reaches_follow (u.entries.size + 1) t)
    omega

/-- A universe with a chain of three types, a circle of two that a third type leads into, and a link
that leads nowhere. -/
def chained : TypeUniverse where
  entries := #[⟨"int", some ⟨0⟩⟩, ⟨"a.Size", some ⟨2⟩⟩, ⟨"a.Count", some ⟨0⟩⟩,
    ⟨"b.Loop", some ⟨4⟩⟩, ⟨"b.Back", some ⟨3⟩⟩, ⟨"b.Into", some ⟨3⟩⟩, ⟨"c.Lost", some ⟨9⟩⟩]

theorem findsEnd_chained :
    chained.Ends ⟨1⟩ ⟨0⟩ ∧ chained.fixpoint? ⟨1⟩ = chained.text? ⟨0⟩ ∧
      chained.text? ⟨0⟩ = some "int" ∧ chained.Ends ⟨6⟩ ⟨9⟩ ∧ chained.fixpoint? ⟨6⟩ = none ∧
      (¬∃ r, chained.Ends ⟨5⟩ r) ∧ (∃ text, chained.fixpoint? ⟨5⟩ = some text) := by
  have hcount : chained.Link ⟨1⟩ ⟨2⟩ := rfl
  have hint : chained.Link ⟨2⟩ ⟨0⟩ := rfl
  have hnowhere : chained.Link ⟨6⟩ ⟨9⟩ := rfl
  have hsize : chained.Ends ⟨1⟩ ⟨0⟩ := ⟨.tail (.single hcount) hint, .inr rfl⟩
  have hlost : chained.Ends ⟨6⟩ ⟨9⟩ := ⟨.single hnowhere, .inl rfl⟩
  have hloop : ¬∃ r, chained.Ends ⟨5⟩ r := by
    rintro ⟨r, hend⟩
    -- the walk would stop at the end, but it stops on the circle
    have hr : r = ⟨4⟩ := hend.follow_eq.symm.trans rfl
    have hterminal := hend.terminal
    rw [hr] at hterminal
    revert hterminal
    simp [Terminal, chained, underlying?]
  obtain ⟨-, -, r, -, -, text, -, htext⟩ := (chained.findsEnd ⟨5⟩).circles hloop
  exact ⟨hsize, ((chained.findsEnd ⟨1⟩).ends ⟨0⟩ hsize).1, rfl, hlost,
    ((chained.findsEnd ⟨6⟩).ends ⟨9⟩ hlost).2.2 (by decide), hloop, text, htext⟩

/-- A chain that ends nowhere can be continued by a further entry. -/
theorem not_forall_fixpoint?_eq :
    ¬∀ (u u' : TypeUniverse) (t r : TypeRef), u.Extends u' → u.Ends t r →
      u'.fixpoint? t = u.fixpoint? t := by
  intro hall
  let u := (({} : TypeUniverse).named "a" (some ⟨1⟩)).2
  let u' := (u.literal "int").2
  have hmore : u.Extends u' := ⟨#[⟨"int", some ⟨1⟩⟩], rfl⟩
  have hlink : u.Link ⟨0⟩ ⟨1⟩ := rfl
  have hend : u.Ends ⟨0⟩ ⟨1⟩ := ⟨.single hlink, .inl rfl⟩
  have hsame := hall u u' ⟨0⟩ ⟨1⟩ hmore hend
  have hbefore : u.fixpoint? ⟨0⟩ = none := rfl
  have hafter : u'.fixpoint? ⟨0⟩ = some "int" := rfl
  rw [hbefore, hafter] at hsame
  cases hsame

end GoOutline.TypeUniverse
