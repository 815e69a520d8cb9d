import Mathlib.Logic.Function.Basic
import IamService.EffectPrograms

/-!
# Simulations between systems of programs

A system can be simulated in two ways.

The same programs run over two handlers. If every operation of the concrete one is matched by
the abstract one, with some choice, the same answer and related states, then whatever programs
do over the concrete handler they do over the abstract one: alone, and in any interleaving.

Other programs run over the same handler. If the operations of a program are those of calls,
one call after another and some of them left unfinished, then a system of such programs
reaches no state that the calls do not reach.
-/

namespace IamService.EffectPrograms

universe u

variable {Op : Type} {Ans : Op → Type} {α : Type} {C C' : Type} {σ τ : Type u}

/-- Every operation over `H` is matched over `H'` with a choice that may be met. -/
def Simulates (H : Handler Ans C σ) (H' : Handler Ans C' τ) (admits' : C' → τ → Op → Prop)
    (R : σ → τ → Prop) : Prop :=
  ∀ c s t o, R s t → ∃ c', admits' c' t o ∧ (H' c' t o).1 = (H c s o).1 ∧
    R (H c s o).2 (H' c' t o).2

variable {H : Handler Ans C σ} {H' : Handler Ans C' τ} {admits : C → σ → Op → Prop}
  {admits' : C' → τ → Op → Prop} {R : σ → τ → Prop}

/-- In every interleaving the pools are the same and the states related. -/
theorem Reach.simulated (hR : Simulates H H' admits' R) {starts : σ → Prog Ans α → Prop}
    {starts' : τ → Prog Ans α → Prop} (hstarts : ∀ s t p, R s t → starts s p → starts' t p)
    {init : σ → Prop} {init' : τ → Prop} (hinit : ∀ s, init s → ∃ t, init' t ∧ R s t) {s : σ}
    {ps : List (Prog Ans α)} (h : Reach H starts admits init s ps) :
    ∃ t, Reach H' starts' admits' init' t ps ∧ R s t := by
  induction h with
  | init hs =>
    obtain ⟨t, ht, hst⟩ := hinit _ hs
    exact ⟨t, .init ht, hst⟩
  | start _ hp ih =>
    obtain ⟨t, hreach, hst⟩ := ih
    exact ⟨t, hreach.start (hstarts _ _ _ hst hp), hst⟩
  | @step s ps i o k c _ next _ ih =>
    obtain ⟨t, hreach, hst⟩ := ih
    obtain ⟨c', hc', hans, hnext⟩ := hR c s t o hst
    have hstep := hreach.step next hc'
    rw [hans] at hstep
    exact ⟨_, hstep, hnext⟩

section Covers

variable {β γ δ : Type} {calls : Prog Ans β → Prop}

/-- The operations of a program are those of the call under way, and then of others. -/
inductive Covered (calls : Prog Ans β → Prop) : Prog Ans α → Prog Ans β → Prop where
  | ret (a : α) (q : Prog Ans β) : Covered calls (.ret a) q
  | eff {o : Op} {k : Ans o → Prog Ans α} {k' : Ans o → Prog Ans β}
      (h : ∀ x, Covered calls (k x) (k' x)) : Covered calls (.eff o k) (.eff o k')
  | next {p : Prog Ans α} {q' : Prog Ans β} (q : Prog Ans β) (hq : calls q')
      (h : Covered calls p q') : Covered calls p q

/-- A program that runs through a call goes on from where the call ends. -/
theorem Covered.bind {p : Prog Ans δ} {f : δ → Prog Ans α} {g : δ → Prog Ans β}
    (h : ∀ a, Covered calls (f a) (g a)) : Covered calls (p >>= f) (p >>= g) := by
  induction p with
  | ret a => exact h a
  | eff o k ih => exact .eff ih

/-- Some call covers the program from its first operation on. -/
def Coverable (calls : Prog Ans β → Prop) (p : Prog Ans α) : Prop :=
  ∃ q, calls q ∧ Covered calls p q

theorem Coverable.covered {p : Prog Ans α} (h : Coverable calls p) (q : Prog Ans β) :
    Covered calls p q := by
  obtain ⟨q', hq', hp⟩ := h
  exact .next q hq' hp

/-- A part of a program that can be covered, whatever covered program follows it. -/
def MadeOf (calls : Prog Ans β → Prop) (p : Prog Ans δ) : Prop :=
  ∀ (α : Type) (f : δ → Prog Ans α), (∀ a, Coverable calls (f a)) → Coverable calls (p >>= f)

namespace MadeOf

variable {ε : Type}

theorem ret (a : δ) : MadeOf calls (.ret a : Prog Ans δ) := fun _ _ hf => hf a

theorem bind {p : Prog Ans γ} {g : γ → Prog Ans δ} (hp : MadeOf calls p)
    (hg : ∀ a, MadeOf calls (g a)) : MadeOf calls (p >>= g) := by
  intro α f hf
  rw [Prog.bind_assoc]
  exact hp α _ (fun a => hg a α f hf)

theorem bindExcept {p : Fallible Ans ε γ} {g : γ → Fallible Ans ε δ} (hp : MadeOf calls p.run)
    (hg : ∀ a, MadeOf calls (g a).run) : MadeOf calls (p >>= g).run := by
  rw [run_bind']
  refine hp.bind ?_
  intro r
  cases r with
  | ok a => exact hg a
  | error e => exact ret _

theorem observe {p : Prog Ans δ} (hp : MadeOf calls p) :
    MadeOf calls (EffectPrograms.observe (ε := ε) p).run := hp.bind (fun _ => ret _)

/-- A whole call. -/
theorem call {p : Prog Ans δ} {g : δ → Prog Ans β} (hcall : calls (p >>= g)) : MadeOf calls p :=
  fun _ _ hf => ⟨_, hcall, .bind (fun a => (hf a).covered (g a))⟩

/-- The first operation of a call, which is then left unfinished. -/
theorem first {o : Op} {k : Ans o → Prog Ans β} (hcall : calls (.eff o k)) :
    MadeOf calls (.eff o .ret : Prog Ans (Ans o)) :=
  fun _ _ hf => ⟨_, hcall, .eff (fun x => (hf x).covered (k x))⟩

/-- If there is a call at all, a program that is made of calls is covered. -/
theorem coverable {p : Prog Ans δ} (hp : MadeOf calls p) {q : Prog Ans β} (hq : calls q)
    (f : δ → α) : Coverable calls (p >>= fun a => .ret (f a)) :=
  hp _ _ (fun a => ⟨q, hq, .ret (f a) q⟩)

end MadeOf

variable {init : σ → Prop} {s : σ}

/-- The call that performs the next operation of a covered program has been launched, or can be
launched now. -/
theorem Covered.ready {p : Prog Ans α} {q : Prog Ans β} (h : Covered calls p q) {o : Op}
    {k : Ans o → Prog Ans α} (hp : p = .eff o k) {qs : List (Prog Ans β)} {i : ℕ}
    (hreach : Reach H (fun _ q => calls q) admits init s qs) (hi : qs[i]? = some q) :
    ∃ (ext : List (Prog Ans β)) (j : ℕ) (k' : Ans o → Prog Ans β),
      Reach H (fun _ q => calls q) admits init s (qs ++ ext) ∧ (j = i ∨ qs.length ≤ j) ∧
      (qs ++ ext)[j]? = some (.eff o k') ∧ ∀ x, Covered calls (k x) (k' x) := by
  induction h generalizing qs i with
  | ret a q => cases hp
  | @eff o' l l' hl _ =>
    cases hp
    exact ⟨[], i, l', by simpa using hreach, .inl rfl, by simpa using hi, hl⟩
  | @next p q' q hq' hp' ih =>
    obtain ⟨ext, j, k', hreach', hj, hget, hk'⟩ := ih hp (hreach.start hq')
      (show (qs ++ [q'])[qs.length]? = some q' by simp)
    rw [List.append_assoc] at hreach' hget
    refine ⟨[q'] ++ ext, j, k', hreach', .inr ?_, hget, hk'⟩
    simp only [List.length_append, List.length_singleton] at hj
    omega

/-- Each program of the pool has a call of its own that covers it. -/
structure Covers (calls : Prog Ans β → Prop) (ps : List (Prog Ans α)) (qs : List (Prog Ans β))
    (place : ℕ → ℕ) : Prop where
  own : ∀ i j, i < ps.length → j < ps.length → place i = place j → i = j
  covered : ∀ i p, ps[i]? = some p → ∃ q, qs[place i]? = some q ∧ Covered calls p q

namespace Covers

variable {ps : List (Prog Ans α)} {qs : List (Prog Ans β)} {place : ℕ → ℕ}

theorem lt (h : Covers calls ps qs place) {i : ℕ} (hi : i < ps.length) : place i < qs.length := by
  obtain ⟨q, hq, -⟩ := h.covered i _ (List.getElem?_eq_getElem hi)
  exact (List.getElem?_eq_some_iff.mp hq).1

theorem start (h : Covers calls ps qs place) {p : Prog Ans α} {q : Prog Ans β}
    (hpq : Covered calls p q) :
    Covers calls (ps ++ [p]) (qs ++ [q]) (Function.update place ps.length qs.length) := by
  have hplace : ∀ i, i < ps.length → Function.update place ps.length qs.length i = place i := by
    intro i hi
    exact Function.update_of_ne (by omega) _ _
  constructor
  · intro i j hi hj hij
    simp only [List.length_append, List.length_singleton] at hi hj
    rcases Nat.lt_or_ge i ps.length with hi' | hi' <;> rcases Nat.lt_or_ge j ps.length with hj' | hj'
    · rw [hplace i hi', hplace j hj'] at hij
      exact h.own i j hi' hj' hij
    · have hlast : j = ps.length := by omega
      rw [hplace i hi', hlast, Function.update_self] at hij
      have hlt := h.lt hi'
      omega
    · have hlast : i = ps.length := by omega
      rw [hplace j hj', hlast, Function.update_self] at hij
      have hlt := h.lt hj'
      omega
    · omega
  · intro i x hx
    rcases Nat.lt_or_ge i ps.length with hi | hi
    · rw [List.getElem?_append_left hi] at hx
      obtain ⟨q', hq', hcov⟩ := h.covered i x hx
      rw [hplace i hi, List.getElem?_append_left (h.lt hi)]
      exact ⟨q', hq', hcov⟩
    · have hlast : i = ps.length := by
        have hlt := (List.getElem?_eq_some_iff.mp hx).1
        simp only [List.length_append, List.length_singleton] at hlt
        omega
      subst hlast
      simp only [List.getElem?_append_right (Nat.le_refl _), Nat.sub_self,
        List.getElem?_cons_zero, Option.some.injEq] at hx
      subst hx
      exact ⟨q, by simp, hpq⟩

/-- One program and its call move on, the others stay. -/
theorem step (h : Covers calls ps qs place) {ext : List (Prog Ans β)} {i j : ℕ} {p' : Prog Ans α}
    {q' : Prog Ans β} (hi : i < ps.length) (hj : j = place i ∨ qs.length ≤ j)
    (hlt : j < (qs ++ ext).length) (hpq : Covered calls p' q') :
    Covers calls (ps.set i p') ((qs ++ ext).set j q') (Function.update place i j) := by
  have hne : ∀ m, m < ps.length → m ≠ i → place m ≠ j := by
    intro m hm hmi hmj
    rcases hj with rfl | hj
    · exact hmi (h.own m i hm hi hmj)
    · have hlt := h.lt hm
      omega
  constructor
  · intro m n hm hn hmn
    rw [List.length_set] at hm hn
    by_cases hmi : m = i <;> by_cases hni : n = i
    · rw [hmi, hni]
    · rw [hmi, Function.update_self, Function.update_of_ne hni] at hmn
      exact absurd hmn.symm (hne n hn hni)
    · rw [hni, Function.update_self, Function.update_of_ne hmi] at hmn
      exact absurd hmn (hne m hm hmi)
    · rw [Function.update_of_ne hmi, Function.update_of_ne hni] at hmn
      exact h.own m n hm hn hmn
  · intro m x hx
    by_cases hmi : m = i
    · subst hmi
      rw [List.getElem?_set_self hi] at hx
      cases hx
      rw [Function.update_self, List.getElem?_set_self hlt]
      exact ⟨q', rfl, hpq⟩
    · rw [List.getElem?_set_ne (Ne.symm hmi)] at hx
      have hm := (List.getElem?_eq_some_iff.mp hx).1
      obtain ⟨q, hq, hcov⟩ := h.covered m x hx
      rw [Function.update_of_ne hmi, List.getElem?_set_ne (Ne.symm (hne m hm hmi)),
        List.getElem?_append_left (h.lt hm)]
      exact ⟨q, hq, hcov⟩

end Covers

/-- Whatever programs that calls cover do together, the calls do together. -/
theorem Reach.covered {starts : σ → Prog Ans α → Prop}
    (hstarts : ∀ s p, starts s p → Coverable calls p) {ps : List (Prog Ans α)}
    (h : Reach H starts admits init s ps) : ∃ qs place,
      Reach H (fun _ q => calls q) admits init s qs ∧ Covers calls ps qs place := by
  induction h with
  | init hs => exact ⟨[], id, .init hs, by simp, by simp⟩
  | start _ hp ih =>
    obtain ⟨qs, place, hreach, hcovers⟩ := ih
    obtain ⟨q, hq, hpq⟩ := hstarts _ _ hp
    exact ⟨_, _, hreach.start hq, hcovers.start hpq⟩
  | @step s ps i o k c _ next hc ih =>
    obtain ⟨qs, place, hreach, hcovers⟩ := ih
    obtain ⟨q, hq, hcov⟩ := hcovers.covered i _ next
    obtain ⟨ext, j, k', hready, hj, hget, hk'⟩ := hcov.ready rfl hreach hq
    exact ⟨_, _, hready.step hget hc, hcovers.step (List.getElem?_eq_some_iff.mp next).1 hj
      (List.getElem?_eq_some_iff.mp hget).1 (hk' _)⟩

end Covers

end IamService.EffectPrograms
