import IamService.OperationFootprints

/-!
# Programs that run one after the other

Each program is one section, which begins with an operation that only begins sections. In
a schedule that enters a section only while every other program rests, a section runs as
if it were alone. What every section restores when it runs alone is therefore restored
whenever no section is open, and an open section is on its way to restoring it.
-/

namespace IamService.EffectPrograms

universe u

variable {Op : Type} {Ans : Op → Type} {α : Type} {C : Type} {σ : Type u}

section Definitions

variable (entry : Op → Bool)

/-- The next operation enters a section. -/
def entering : Prog Ans α → Bool
  | .ret _ => false
  | .eff o _ => entry o

/-- The program has returned or has not entered its section. -/
def resting : Prog Ans α → Bool
  | .ret _ => true
  | .eff o _ => entry o

/-- The program has entered its section. -/
def Entered (p : Prog Ans α) : Prop := Issues (fun o => entry o = false) p

/-- The first operation of the program enters a section, and no later one does. -/
def Enclosed : Prog Ans α → Prop
  | .ret _ => False
  | .eff o k => entry o = true ∧ ∀ x, Entered entry (k x)

/-- A step meets an admitted choice, and enters a section only while every other program
rests. -/
def Exclusive (admits : C → σ → Op → Prop) (x : σ × List (Prog Ans α)) (j : ℕ × C) : Prop :=
  Admits admits x j ∧ ((x.2[j.1]?).any (entering entry) = true →
    ∀ i < x.2.length, i ≠ j.1 → (x.2[i]?).any (resting entry) = true)

instance (admits : C → σ → Op → Prop) [∀ c s o, Decidable (admits c s o)]
    (x : σ × List (Prog Ans α)) (j : ℕ × C) : Decidable (Exclusive entry admits x j) :=
  inferInstanceAs (Decidable (_ ∧ _))

end Definitions

section Rule

variable {entry : Op → Bool} {H : Handler Ans C σ} {admits : C → σ → Op → Prop}
  {settled : σ → Prop}

/-- The program has returned, or will enter a section that restores what is settled. -/
def Waiting (entry : Op → Bool) (H : Handler Ans C σ) (admits : C → σ → Op → Prop)
    (settled : σ → Prop) (p : Prog Ans α) : Prop :=
  (∃ a, p = .ret a) ∨ Enclosed entry p ∧
    ∀ s, settled s → Safe H (Discipline.solo admits) (fun _ t => settled t) p s

/-- The program is on its way to what is settled. -/
def Open (entry : Op → Bool) (H : Handler Ans C σ) (admits : C → σ → Op → Prop)
    (settled : σ → Prop) (p : Prog Ans α) (s : σ) : Prop :=
  Entered entry p ∧ Safe H (Discipline.solo admits) (fun _ t => settled t) p s

/-- One program may be in its section; all others are waiting. -/
def OneOpen (entry : Op → Bool) (H : Handler Ans C σ) (admits : C → σ → Op → Prop)
    (settled : σ → Prop) (x : σ × List (Prog Ans α)) : Prop :=
  (settled x.1 ∧ ∀ p ∈ x.2, Waiting entry H admits settled p) ∨
    ∃ (i : ℕ) (p : Prog Ans α), x.2[i]? = some p ∧ Open entry H admits settled p x.1 ∧
      ∀ (k : ℕ) (q : Prog Ans α), k ≠ i → x.2[k]? = some q → Waiting entry H admits settled q

theorem Waiting.enters {p : Prog Ans α} {o : Op} {k : Ans o → Prog Ans α}
    (h : Waiting entry H admits settled p) (hp : p = .eff o k) :
    entry o = true ∧ (∀ x, Entered entry (k x)) ∧
      ∀ s, settled s → Safe H (Discipline.solo admits) (fun _ t => settled t) (.eff o k) s := by
  rcases h with ⟨a, ha⟩ | ⟨henclosed, hsafe⟩
  · rw [hp] at ha
    cases ha
  · subst hp
    exact ⟨henclosed.1, henclosed.2, hsafe⟩

/-- An open section that rests has returned. -/
theorem Open.settled_of_resting {p : Prog Ans α} {s : σ} (h : Open entry H admits settled p s)
    (hrest : resting entry p = true) : settled s ∧ Waiting entry H admits settled p := by
  cases p with
  | ret a => exact ⟨h.2, .inl ⟨a, rfl⟩⟩
  | eff o k =>
    obtain ⟨⟨hno, -⟩, -⟩ := h
    rw [resting, hno] at hrest
    cases hrest

/-- A step of the open section. -/
theorem Open.step {o : Op} {k : Ans o → Prog Ans α} {s : σ} {c : C}
    (h : Open entry H admits settled (.eff o k) s) (hc : admits c s o) :
    Open entry H admits settled (k (H c s o).1) (H c s o).2 :=
  ⟨h.1.2 _, safe_solo_eff.mp h.2 c hc⟩

/-- Entering a section when all other programs are waiting. -/
theorem oneOpen_enter {s : σ} {ps : List (Prog Ans α)} {i : ℕ} {o : Op} {k : Ans o → Prog Ans α}
    {c : C} (hs : settled s) (hnext : ps[i]? = some (.eff o k)) (hc : admits c s o)
    (hwaiting : ∀ p ∈ ps, Waiting entry H admits settled p) :
    OneOpen entry H admits settled ((H c s o).2, ps.set i (k (H c s o).1)) := by
  obtain ⟨-, hentered, hsafe⟩ := (hwaiting _ (List.mem_of_getElem? hnext)).enters rfl
  have hi : i < ps.length := (List.getElem?_eq_some_iff.mp hnext).1
  refine .inr ⟨i, _, List.getElem?_set_self hi, ⟨hentered _, safe_solo_eff.mp (hsafe s hs) c hc⟩, ?_⟩
  intro j q hj hq
  rw [List.getElem?_set_ne (Ne.symm hj)] at hq
  exact hwaiting q (List.mem_of_getElem? hq)

theorem oneOpen_step (x : σ × List (Prog Ans α)) (j : ℕ × C)
    (h : OneOpen entry H admits settled x) (hj : Exclusive entry admits x j) :
    OneOpen entry H admits settled (advance H x j) := by
  obtain ⟨s, ps⟩ := x
  obtain ⟨i, c⟩ := j
  cases hnext : ps[i]? with
  | none =>
    rw [advance_of_done (by simp [hnext])]
    exact h
  | some p =>
    cases p with
    | ret a =>
      rw [advance_of_done (by simp [hnext])]
      exact h
    | eff o k =>
      rw [advance_eff hnext]
      obtain ⟨hc, hexclusive⟩ := hj
      simp only [Admits, hnext] at hc
      rcases h with ⟨hs, hwaiting⟩ | ⟨m, p, hm, hopen, hothers⟩
      · exact oneOpen_enter hs hnext hc hwaiting
      · by_cases him : i = m
        · subst him
          cases hm.symm.trans hnext
          have hi : i < ps.length := (List.getElem?_eq_some_iff.mp hnext).1
          refine .inr ⟨i, _, List.getElem?_set_self hi, hopen.step hc, ?_⟩
          intro n q hn hq
          rw [List.getElem?_set_ne (Ne.symm hn)] at hq
          exact hothers n q hn hq
        · -- the program is waiting, so it enters its section, and the open one has returned
          have henter := ((hothers i _ him hnext).enters rfl).1
          have hmlt : m < ps.length := (List.getElem?_eq_some_iff.mp hm).1
          have hrest : (ps[m]?).any (resting entry) = true :=
            hexclusive (by simp [hnext, entering, henter]) m hmlt (Ne.symm him)
          simp only [hm, Option.any_some] at hrest
          obtain ⟨hs, hdone⟩ := hopen.settled_of_resting hrest
          refine oneOpen_enter hs hnext hc ?_
          intro q hq
          obtain ⟨n, hn⟩ := List.getElem?_of_mem hq
          by_cases hnm : n = m
          · subst hnm
            cases hm.symm.trans hn
            exact hdone
          · exact hothers n q hnm hn

/-- Sections that restore what is settled keep doing so in every exclusive schedule. -/
theorem oneOpen_schedule {x : σ × List (Prog Ans α)} {l : List (ℕ × C)} (hs : settled x.1)
    (hx : ∀ p ∈ x.2, Enclosed entry p ∧
      ∀ s, settled s → Safe H (Discipline.solo admits) (fun _ t => settled t) p s)
    (h : Throughout H (Exclusive entry admits) x l) :
    OneOpen entry H admits settled (schedule H x l) :=
  schedule_invariant oneOpen_step (.inl ⟨hs, fun p hp => .inr (hx p hp)⟩) h

end Rule

end IamService.EffectPrograms
