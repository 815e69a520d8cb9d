import IamService.RelyGuarantee

/-!
# Which operations a program can issue

A footprint is a property that every operation in the tree of a program has, whatever
the answers are. It needs no state, so it is proved once for a program and then used
with every discipline: operations that a discipline permits everywhere make the program
safe, and operations that preserve a relation make the whole run preserve it.
-/

namespace IamService.EffectPrograms

universe u

variable {Op : Type} {Ans : Op → Type} {α β ε : Type} {C : Type} {σ : Type u}

/-- Every operation the program can issue satisfies `P`. -/
def Issues (P : Op → Prop) : Prog Ans α → Prop
  | .ret _ => True
  | .eff o k => P o ∧ ∀ x, Issues P (k x)

variable {P R : Op → Prop}

@[simp] theorem issues_ret (a : α) : Issues P (.ret a : Prog Ans α) := trivial

@[simp] theorem issues_eff {o : Op} {k : Ans o → Prog Ans α} :
    Issues P (.eff o k) ↔ P o ∧ ∀ x, Issues P (k x) := Iff.rfl

theorem Issues.mono (hPR : ∀ o, P o → R o) {p : Prog Ans α} (h : Issues P p) : Issues R p := by
  induction p with
  | ret a => trivial
  | eff o k ih => exact ⟨hPR o h.1, fun x => ih x (h.2 x)⟩

theorem Issues.and {p : Prog Ans α} (h : Issues P p) (h' : Issues R p) :
    Issues (fun o => P o ∧ R o) p := by
  induction p with
  | ret a => trivial
  | eff o k ih => exact ⟨⟨h.1, h'.1⟩, fun x => ih x (h.2 x) (h'.2 x)⟩

theorem Issues.forall {ι : Type} {P : ι → Op → Prop} {p : Prog Ans α} (h : ∀ i, Issues (P i) p) :
    Issues (fun o => ∀ i, P i o) p := by
  induction p with
  | ret a => trivial
  | eff o k ih => exact ⟨fun i => (h i).1, fun x => ih x (fun i => (h i).2 x)⟩

theorem Issues.bind {p : Prog Ans α} {f : α → Prog Ans β} (h : Issues P p)
    (hf : ∀ a, Issues P (f a)) : Issues P (p >>= f) := by
  induction p with
  | ret a => exact hf a
  | eff o k ih => exact ⟨h.1, fun x => ih x (h.2 x)⟩

/-- A fallible step followed by the rest of a body. -/
theorem Issues.bindExcept {p : Fallible Ans ε α} {f : α → Fallible Ans ε β}
    (h : Issues P p.run) (hf : ∀ a, Issues P (f a).run) : Issues P (p >>= f).run := by
  rw [run_bind']
  refine h.bind ?_
  intro r
  cases r with
  | ok a => exact hf a
  | error e => trivial

theorem Issues.observe {p : Prog Ans α} (h : Issues P p) : Issues P (observe (ε := ε) p).run :=
  h.bind (fun _ => trivial)

/-- A program whose operations are permitted everywhere is safe. -/
theorem Issues.safe {H : Handler Ans C σ} {D : Discipline Op C σ}
    (hP : ∀ s o, P o → D.permits s o) {p : Prog Ans α} (h : Issues P p) (s : σ) :
    Safe H D (fun _ _ => True) p s := by
  induction p generalizing s with
  | ret a => trivial
  | eff o k ih => exact fun t _ _ => ⟨hP t o h.1, fun c _ => ih _ (h.2 _) _⟩

/-- What every operation of the footprint preserves, the whole run preserves. -/
theorem Issues.run {H : Handler Ans C σ} (rel : σ → σ → Prop) (refl : ∀ s, rel s s)
    (trans : ∀ {s t r}, rel s t → rel t r → rel s r)
    (hstep : ∀ c s o, P o → rel s (H c s o).2) {p : Prog Ans α} (h : Issues P p) (f : ℕ → C)
    (s : σ) : rel s (run H p f s).2 := by
  induction p generalizing f s with
  | ret a => exact refl s
  | eff o k ih => exact trans (hstep (f 0) s o h.1) (ih _ (h.2 _) _ _)

/-- What every operation of the footprint preserves, a program that runs alone has preserved
when it returns. -/
theorem Issues.keeps {H : Handler Ans C σ} {admits : C → σ → Op → Prop} (rel : σ → σ → Prop)
    (refl : ∀ s, rel s s) (trans : ∀ {s t r}, rel s t → rel t r → rel s r)
    (hstep : ∀ c s o, P o → rel s (H c s o).2) {p : Prog Ans α} (h : Issues P p) (s : σ) :
    Safe H (Discipline.solo admits) (fun _ t => rel s t) p s := by
  induction p generalizing s with
  | ret a => exact refl s
  | eff o k ih =>
    refine safe_solo_eff.mpr ?_
    intro c _
    refine (ih _ (h.2 _) _).mono ?_
    intro a t ht
    exact trans (hstep c s o h.1) ht

/-- What a program ensures under some choices, it ensures under others that are no different for
its operations. -/
theorem Issues.readmits {H : Handler Ans C σ} {admits admits' : C → σ → Op → Prop}
    (hadmits : ∀ c s o, P o → admits' c s o → admits c s o) {Q : α → σ → Prop} {p : Prog Ans α}
    {s : σ} (hp : Issues P p) (h : Safe H (Discipline.solo admits) Q p s) :
    Safe H (Discipline.solo admits') Q p s := by
  induction p generalizing s with
  | ret a => exact h
  | eff o k ih =>
    refine safe_solo_eff.mpr ?_
    intro c hc
    exact ih _ (hp.2 _) (safe_solo_eff.mp h c (hadmits c s o hp.1 hc))

/-- What every operation of the footprints preserves, every interleaving preserves. -/
theorem Reach.preserves {H : Handler Ans C σ} {admits : C → σ → Op → Prop}
    {starts : σ → Prog Ans α → Prop} (rel : σ → σ → Prop) (refl : ∀ s, rel s s)
    (trans : ∀ {s t r}, rel s t → rel t r → rel s r)
    (hstep : ∀ c s o, P o → rel s (H c s o).2) (hstarts : ∀ s p, starts s p → Issues P p)
    {s₀ s : σ} {ps : List (Prog Ans α)} (h : Reach H starts admits (fun t => t = s₀) s ps) :
    rel s₀ s := by
  induction h with
  | init hs =>
    rw [hs]
    exact refl s₀
  | start _ _ ih => exact ih
  | step reached next _ ih =>
    have hissues := Reach.hereditary hstarts (fun _ _ hp x => hp.2 x) reached
    exact trans ih (hstep _ _ _ (hissues _ (List.mem_of_getElem? next)).1)

/-- Every operation of a run is one of the footprint. -/
theorem Issues.encounters {H : Handler Ans C σ} {p : Prog Ans α} (h : Issues P p) (f : ℕ → C)
    (s : σ) : Encounters H (fun _ _ o => P o) p f s := by
  induction p generalizing f s with
  | ret a => trivial
  | eff o k ih => exact ⟨h.1, ih _ (h.2 _) _ _⟩

/-- Every result the program can return satisfies `Q`. -/
def Returns (Q : α → Prop) : Prog Ans α → Prop
  | .ret a => Q a
  | .eff _ k => ∀ x, Returns Q (k x)

@[simp] theorem returns_ret {Q : α → Prop} {a : α} : Returns Q (.ret a : Prog Ans α) ↔ Q a := Iff.rfl

@[simp] theorem returns_eff {Q : α → Prop} {o : Op} {k : Ans o → Prog Ans α} :
    Returns Q (.eff o k) ↔ ∀ x, Returns Q (k x) := Iff.rfl

/-- What every result satisfies, the result of a safe program satisfies. -/
theorem Returns.safe {H : Handler Ans C σ} {D : Discipline Op C σ} {Q : α → Prop}
    {R : α → σ → Prop} {p : Prog Ans α} {s : σ} (hp : Returns Q p) (h : Safe H D R p s) :
    Safe H D (fun a t => Q a ∧ R a t) p s := by
  induction p generalizing s with
  | ret a => exact ⟨hp, h⟩
  | eff o k ih =>
    intro t ht hi
    obtain ⟨hperm, hk⟩ := h t ht hi
    exact ⟨hperm, fun c hc => ih _ (hp _) (hk c hc)⟩

theorem Returns.run {H : Handler Ans C σ} {Q : α → Prop} {p : Prog Ans α} (h : Returns Q p)
    (f : ℕ → C) (s : σ) : Q (run H p f s).1 := by
  induction p generalizing f s with
  | ret a => exact h
  | eff o k ih => exact ih _ (h _) _ _

/-- A step whose answer is only observed never ends the body. -/
theorem Returns.observeBind {Q : Except ε β → Prop} {p : Prog Ans α} {f : α → Fallible Ans ε β}
    (h : ∀ a, Returns Q (f a).run) : Returns Q (EffectPrograms.observe p >>= f).run := by
  rw [run_bind', run_observe]
  induction p with
  | ret a => exact h a
  | eff o k ih => exact fun x => ih x

section Beside

variable {H : Handler Ans C σ} {D : Discipline Op C σ} {Q : α → σ → Prop}

/-- One program of the pool is safe for a discipline, and all others are limited to `P`. -/
structure Beside (H : Handler Ans C σ) (D : Discipline Op C σ) (P : Op → Prop) (Q : α → σ → Prop)
    (i : ℕ) (x : σ × List (Prog Ans α)) : Prop where
  inv : D.inv x.1
  own : ∃ p, x.2[i]? = some p ∧ Safe H D Q p x.1
  others : ∀ j q, j ≠ i → x.2[j]? = some q → Issues P q

/-- What the discipline of one program asks of the others: their operations keep the
invariant and do no more than the program tolerates. -/
structure Discipline.Tolerates (D : Discipline Op C σ) (H : Handler Ans C σ) (P : Op → Prop) :
    Prop where
  refl : ∀ s, D.rely s s
  trans : ∀ {s t r}, D.rely s t → D.rely t r → D.rely s r
  own : ∀ {c s o}, D.inv s → D.permits s o → D.admits c s o → D.inv (H c s o).2
  others : ∀ {c s o}, D.inv s → P o → D.admits c s o →
    D.inv (H c s o).2 ∧ D.rely s (H c s o).2

theorem Beside.step (hD : D.Tolerates H P) (hQ : ∀ a s t, Q a s → D.rely s t → Q a t) {i : ℕ}
    (x : σ × List (Prog Ans α)) (j : ℕ × C) (h : Beside H D P Q i x) (hj : Admits D.admits x j) :
    Beside H D P Q i (advance H x j) := by
  obtain ⟨s, ps⟩ := x
  obtain ⟨n, c⟩ := j
  cases hnext : ps[n]? with
  | none =>
    rw [advance_of_done (by simp [hnext])]
    exact h
  | some q =>
    cases q with
    | ret a =>
      rw [advance_of_done (by simp [hnext])]
      exact h
    | eff o k =>
      simp only [Admits, hnext] at hj
      rw [advance_eff hnext]
      have hn : n < ps.length := (List.getElem?_eq_some_iff.mp hnext).1
      obtain ⟨hinv, ⟨p, hp, hsafe⟩, hothers⟩ := h
      by_cases hni : n = i
      · subst hni
        cases hp.symm.trans hnext
        obtain ⟨hpermit, hk⟩ := hsafe s (hD.refl s) hinv
        refine ⟨hD.own hinv hpermit hj, ⟨_, List.getElem?_set_self hn, hk c hj⟩, ?_⟩
        intro m r hm hr
        rw [List.getElem?_set_ne (Ne.symm hm)] at hr
        exact hothers m r hm hr
      · have hlimited := hothers n _ hni hnext
        obtain ⟨hkept, hrely⟩ := hD.others hinv hlimited.1 hj
        refine ⟨hkept, ⟨p, ?_, ?_⟩, ?_⟩
        · dsimp only
          rw [List.getElem?_set_ne hni]
          exact hp
        · -- the others have done no more than the program tolerates
          cases p with
          | ret a => exact hQ a s _ hsafe hrely
          | eff o' k' => exact fun t ht => hsafe t (hD.trans hrely ht)
        · intro m r hm hr
          by_cases hmn : m = n
          · subst hmn
            rw [List.getElem?_set_self hn] at hr
            cases hr
            exact hlimited.2 _
          · rw [List.getElem?_set_ne (Ne.symm hmn)] at hr
            exact hothers m r hm hr

/-- A safe program stays safe in every schedule beside limited programs. -/
theorem Beside.schedule (hD : D.Tolerates H P) (hQ : ∀ a s t, Q a s → D.rely s t → Q a t) {i : ℕ}
    {x : σ × List (Prog Ans α)} {l : List (ℕ × C)} (hx : Beside H D P Q i x)
    (h : Admitted H D.admits x l) : Beside H D P Q i (schedule H x l) :=
  schedule_invariant (Beside.step hD hQ) hx h

end Beside

end IamService.EffectPrograms
