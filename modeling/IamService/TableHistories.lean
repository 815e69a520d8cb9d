import IamService.RelationTables

/-!
# How a table evolves

A table without deletions keeps every row at its place: a statement changes some rows and
appends others. When the change of a row is one of a reflexive and transitive relation, so is
the change over any number of statements, and what a row has when it is inserted and keeps
through every change, all rows have for ever.
-/

namespace IamService.RelationTables

variable {R : Type} {step step' : R → R → Prop} {born born' : R → Prop}
  {rows rows' rows'' : List R}

/-- Every row has changed by `step` at its place, and the rows after them stem from rows that
were inserted. -/
structure Evolves (step : R → R → Prop) (born : R → Prop) (rows rows' : List R) : Prop where
  kept : ∀ (i : ℕ) r, rows[i]? = some r → ∃ s, rows'[i]? = some s ∧ step r s
  added : ∀ (i : ℕ) s, rows'[i]? = some s → rows.length ≤ i → ∃ b, born b ∧ step b s

namespace Evolves

theorem refl (hrefl : ∀ r, step r r) (rows : List R) : Evolves step born rows rows := by
  constructor
  · intro i r hr
    exact ⟨r, hr, hrefl r⟩
  · intro i s hs hi
    rw [List.getElem?_eq_none hi] at hs
    cases hs

theorem of_update (hrefl : ∀ r, step r r) {p : R → Bool} {f : R → R} (hf : ∀ r, step r (f r))
    (rows : List R) : Evolves step born rows (updateWhere p f rows) := by
  unfold updateWhere
  constructor
  · intro i r hr
    refine ⟨if p r then f r else r, by rw [List.getElem?_map, hr]; rfl, ?_⟩
    split
    · exact hf r
    · exact hrefl r
  · intro i s hs hi
    rw [List.getElem?_eq_none (by rw [List.length_map]; exact hi)] at hs
    cases hs

theorem of_append (hrefl : ∀ r, step r r) (rows : List R) {b : R} (hb : born b) :
    Evolves step born rows (rows ++ [b]) := by
  constructor
  · intro i r hr
    have hi : i < rows.length := (List.getElem?_eq_some_iff.mp hr).1
    exact ⟨r, by rw [List.getElem?_append_left hi, hr], hrefl r⟩
  · intro i s hs hi
    rw [List.getElem?_append_right hi] at hs
    rw [List.mem_singleton.mp (List.mem_of_getElem? hs)]
    exact ⟨b, hb, hrefl b⟩

theorem mono (hstep : ∀ r s, step r s → step' r s) (hborn : ∀ r, born r → born' r)
    (h : Evolves step born rows rows') : Evolves step' born' rows rows' := by
  constructor
  · intro i r hr
    obtain ⟨s, hs, hrs⟩ := h.kept i r hr
    exact ⟨s, hs, hstep r s hrs⟩
  · intro i s hs hi
    obtain ⟨b, hb, hbs⟩ := h.added i s hs hi
    exact ⟨b, hborn b hb, hstep b s hbs⟩

theorem trans (htrans : ∀ {r s t}, step r s → step s t → step r t)
    (h : Evolves step born rows rows') (h' : Evolves step born rows' rows'') :
    Evolves step born rows rows'' := by
  constructor
  · intro i r hr
    obtain ⟨s, hs, hrs⟩ := h.kept i r hr
    obtain ⟨t, ht, hst⟩ := h'.kept i s hs
    exact ⟨t, ht, htrans hrs hst⟩
  · intro i t ht hi
    by_cases hlt : i < rows'.length
    · -- the row was inserted before, and has changed since
      obtain ⟨b, hb, hbs⟩ := h.added i _ (List.getElem?_eq_getElem hlt) hi
      obtain ⟨t', ht', hst⟩ := h'.kept i _ (List.getElem?_eq_getElem hlt)
      rw [ht] at ht'
      cases ht'
      exact ⟨b, hb, htrans hbs hst⟩
    · exact h'.added i t ht (by omega)

theorem mem (h : Evolves step born rows rows') {r : R} (hr : r ∈ rows) :
    ∃ s ∈ rows', step r s := by
  obtain ⟨i, hi⟩ := List.mem_iff_getElem?.mp hr
  obtain ⟨s, hs, hrs⟩ := h.kept i r hi
  exact ⟨s, List.mem_of_getElem? hs, hrs⟩

/-- What inserted rows have and changes keep, all rows keep. -/
theorem all (h : Evolves step born rows rows') {P : R → Prop}
    (hstep : ∀ r s, step r s → P r → P s) (hborn : ∀ r, born r → P r) (hrows : ∀ r ∈ rows, P r) :
    ∀ s ∈ rows', P s := by
  intro s hs
  obtain ⟨i, hi⟩ := List.mem_iff_getElem?.mp hs
  by_cases hlt : i < rows.length
  · obtain ⟨s', hs', hrs⟩ := h.kept i _ (List.getElem?_eq_getElem hlt)
    rw [hi] at hs'
    cases hs'
    exact hstep _ s hrs (hrows _ (List.getElem_mem hlt))
  · obtain ⟨b, hb, hbs⟩ := h.added i s hi (by omega)
    exact hstep b s hbs (hborn b hb)

end Evolves

end IamService.RelationTables
