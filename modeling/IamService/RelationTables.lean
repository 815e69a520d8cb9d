import Mathlib.Algebra.GroupWithZero.Nat
import Mathlib.Data.List.Basic
import Mathlib.Data.List.Nodup
import Mathlib.Data.List.Perm.Basic

/-!
# Tables as lists of rows

The statements of a relational store on one table: a conditional update, a selection
that returns one of the matching rows, and uniqueness of a column. Which matching row
a selection limited to one row returns is left to its first argument.
-/

namespace IamService.RelationTables

variable {R K : Type}

/-- `UPDATE ... SET f WHERE p`. -/
def updateWhere (p : R → Bool) (f : R → R) (rows : List R) : List R :=
  rows.map (fun r => if p r then f r else r)

/-- `SELECT ... WHERE p LIMIT 1`: some matching row, if there is one. -/
def limitOne (pick : ℕ) (p : R → Bool) (rows : List R) : Option R :=
  (rows.filter p)[pick % (rows.filter p).length]?

theorem limitOne_some {pick : ℕ} {p : R → Bool} {rows : List R} {r : R}
    (h : limitOne pick p rows = some r) : r ∈ rows ∧ p r = true :=
  List.mem_filter.mp (List.mem_of_getElem? h)

theorem limitOne_eq_none {pick : ℕ} {p : R → Bool} {rows : List R} :
    limitOne pick p rows = none ↔ ∀ r ∈ rows, p r = false := by
  have hn : limitOne pick p rows = none ↔ rows.filter p = [] := by
    unfold limitOne
    cases hf : rows.filter p with
    | nil => simp
    | cons a l =>
      have hpick : pick % (a :: l).length < (a :: l).length := Nat.mod_lt _ (by simp)
      rw [List.getElem?_eq_getElem hpick]
      simp
  rw [hn, List.filter_eq_nil_iff]
  simp

/-- With a single candidate the choice is forced. -/
theorem limitOne_eq_some {pick : ℕ} {p : R → Bool} {rows : List R} {r : R}
    (hr : r ∈ rows) (hp : p r = true) (huniq : ∀ s ∈ rows, p s = true → s = r) :
    limitOne pick p rows = some r := by
  cases h : limitOne pick p rows with
  | none => simp [limitOne_eq_none.mp h r hr] at hp
  | some s =>
    obtain ⟨hs, hps⟩ := limitOne_some h
    rw [huniq s hs hps]

/-- With at most one candidate every choice returns the same. -/
theorem limitOne_congr {p : R → Bool} {rows : List R}
    (huniq : ∀ r ∈ rows, ∀ s ∈ rows, p r = true → p s = true → r = s) (pick pick' : ℕ) :
    limitOne pick p rows = limitOne pick' p rows := by
  cases h : limitOne pick' p rows with
  | none => exact limitOne_eq_none.mpr (limitOne_eq_none.mp h)
  | some r =>
    obtain ⟨hr, hp⟩ := limitOne_some h
    exact limitOne_eq_some hr hp (fun s hs hps => huniq s hs r hr hps hp)

section Selections

variable {p q : R → Bool} {rows rows' : List R}

/-- Tables that agree on a selection agree on every part of it. -/
theorem filter_eq_of_filter_eq (hpq : ∀ r, p r = true → q r = true)
    (h : rows.filter q = rows'.filter q) : rows.filter p = rows'.filter p := by
  have hpart : ∀ l : List R, l.filter p = (l.filter q).filter p := by
    intro l
    rw [List.filter_filter]
    apply List.filter_congr
    intro r _
    cases hp : p r with
    | false => rfl
    | true => rw [hpq r hp]; rfl
  rw [hpart rows, h, ← hpart rows']

theorem find_eq_of_filter_eq (hpq : ∀ r, p r = true → q r = true)
    (h : rows.filter q = rows'.filter q) : rows.find? p = rows'.find? p := by
  rw [← List.head?_filter, ← List.head?_filter, filter_eq_of_filter_eq hpq h]

theorem any_eq_of_filter_eq (hpq : ∀ r, p r = true → q r = true)
    (h : rows.filter q = rows'.filter q) : rows.any p = rows'.any p := by
  have hsame := congrArg (·.any p) (filter_eq_of_filter_eq hpq h)
  simpa [List.any_filter] using hsame

theorem limitOne_eq_of_filter_eq (hpq : ∀ r, p r = true → q r = true)
    (h : rows.filter q = rows'.filter q) (pick : ℕ) : limitOne pick p rows = limitOne pick p rows' := by
  rw [limitOne, limitOne, filter_eq_of_filter_eq hpq h]

end Selections

/-- Rows of a table are determined by a column without duplicates. -/
theorem eq_of_key (key : R → K) {rows : List R} (h : (rows.map key).Nodup) {r s : R}
    (hr : r ∈ rows) (hs : s ∈ rows) (hk : key r = key s) : r = s :=
  List.inj_on_of_nodup_map h hr hs hk

theorem map_updateWhere {p : R → Bool} {f : R → R} (key : R → K) (rows : List R)
    (h : ∀ r, key (f r) = key r) : (updateWhere p f rows).map key = rows.map key := by
  unfold updateWhere
  rw [List.map_map]
  apply List.map_congr_left
  intro r _
  simp only [Function.comp]
  split
  · exact h r
  · rfl

/-- An update that matches no row changes nothing. -/
theorem updateWhere_of_none {p : R → Bool} {f : R → R} {rows : List R}
    (h : (rows.filter p).length = 0) : updateWhere p f rows = rows := by
  have hp : ∀ r ∈ rows, ¬ p r = true := by
    rwa [List.length_eq_zero_iff, List.filter_eq_nil_iff] at h
  unfold updateWhere
  exact (List.map_congr_left (fun r hr => if_neg (hp r hr))).trans (List.map_id _)

/-- An update that keeps a condition and a column keeps that column of the rows selected. -/
theorem map_filter_updateWhere {p : R → Bool} {f : R → R} {q : R → Bool} (key : R → K)
    (rows : List R) (hq : ∀ r, q (f r) = q r) (h : ∀ r, key (f r) = key r) :
    ((updateWhere p f rows).filter q).map key = (rows.filter q).map key := by
  induction rows with
  | nil => rfl
  | cons r rows ih =>
    have hr : q (if p r then f r else r) = q r ∧ key (if p r then f r else r) = key r := by
      split
      · exact ⟨hq r, h r⟩
      · exact ⟨rfl, rfl⟩
    simp only [updateWhere, List.map_cons, List.filter_cons, hr.1] at ih ⊢
    split
    · simp only [List.map_cons, hr.2, ih]
    · exact ih

/-- An update keeps the rows of a selection that it does not match. -/
theorem filter_updateWhere_of_disjoint {p : R → Bool} {f : R → R} {q : R → Bool} {rows : List R}
    (hf : ∀ r, q (f r) = q r) (hpq : ∀ r ∈ rows, p r = true → q r = false) :
    (updateWhere p f rows).filter q = rows.filter q := by
  induction rows with
  | nil => rfl
  | cons r rows ih =>
    have ih := ih (fun s hs => hpq s (List.mem_cons_of_mem r hs))
    simp only [updateWhere, List.map_cons, List.filter_cons] at ih ⊢
    by_cases hp : p r = true
    · simp [hp, hf, hpq r (List.mem_cons_self ..) hp, ih]
    · simp [hp, ih]

/-- Rows with a flag, when the flag and a column are those of rows of another table. -/
theorem flag_of_map {rows rows' : List R} (flag : R → Bool) (key : R → K)
    (h : ∀ a ∈ rows'.map (fun r => (flag r, key r)), a.1 = true →
      a ∈ rows.map (fun r => (flag r, key r))) :
    ∀ r ∈ rows', flag r = true → ∃ s ∈ rows, flag s = true ∧ key s = key r := by
  intro r hr hf
  obtain ⟨s, hs, he⟩ := List.mem_map.mp (h _ (List.mem_map_of_mem hr) hf)
  simp only [Prod.mk.injEq] at he
  exact ⟨s, hs, he.1.trans hf, he.2⟩

/-- Tables that agree on a column have a row for each row of the other. -/
theorem exists_of_map_eq {rows rows' : List R} (key : R → K) (h : rows'.map key = rows.map key)
    {r : R} (hr : r ∈ rows) : ∃ s ∈ rows', key s = key r := by
  have hmem : key r ∈ rows'.map key := h ▸ List.mem_map_of_mem hr
  simpa using hmem

/-- An update that raises no weight, and lowers that of one row by `k`. -/
theorem sum_updateWhere_add_le {p : R → Bool} {f : R → R} {weight : R → ℕ} {k : ℕ} {rows : List R}
    {r : R} (hr : r ∈ rows) (hp : p r = true) (hk : weight (f r) + k ≤ weight r)
    (hle : ∀ s ∈ rows, p s = true → weight (f s) ≤ weight s) :
    ((updateWhere p f rows).map weight).sum + k ≤ (rows.map weight).sum := by
  have hsum : ∀ l : List R, (∀ s ∈ l, p s = true → weight (f s) ≤ weight s) →
      ((updateWhere p f l).map weight).sum ≤ (l.map weight).sum := by
    intro l
    induction l with
    | nil => exact fun _ => Nat.le_refl _
    | cons s l ih =>
      intro hl
      have hrest := ih (fun s hs => hl s (List.mem_cons_of_mem _ hs))
      simp only [updateWhere, List.map_cons, List.sum_cons] at hrest ⊢
      by_cases hps : p s = true
      · have hs := hl s List.mem_cons_self hps
        simp only [hps, if_true]
        omega
      · simp only [hps, if_false, Bool.false_eq_true]
        omega
  obtain ⟨before, rest, rfl⟩ := List.append_of_mem hr
  have hbefore := hsum before (fun s hs => hle s (List.mem_append_left _ hs))
  have hrest := hsum rest (fun s hs => hle s (by simp [hs]))
  simp only [updateWhere, List.map_append, List.map_cons, hp, if_true, List.sum_append,
    List.sum_cons] at hbefore hrest ⊢
  omega

theorem mem_updateWhere {p : R → Bool} {f : R → R} {rows : List R} {r : R} :
    r ∈ updateWhere p f rows ↔ ∃ s ∈ rows, (if p s then f s else s) = r := by
  simp [updateWhere]

end IamService.RelationTables
