import IamService.EffectPrograms
import Mathlib.Data.List.Basic

/-!
# Rely-guarantee reasoning for interleaved programs

A discipline fixes an invariant of the shared state, the change that a program must
tolerate between two of its own operations (`rely`), the operations that may be
issued in a state (`permits`) and the choices that the environment may make
(`admits`). A program is safe when each operation it issues is permitted, at any
state that its environment can have reached in the meantime.

Soundness is proved once: in every interleaving of safe programs the invariant holds,
every remaining program is still safe, and so every operation about to be issued is
permitted. For a program that runs alone nothing happens between its operations.
-/

namespace IamService.EffectPrograms

universe u

variable {Op : Type} {Ans : Op → Type} {α β : Type} {C : Type} {σ : Type u}

/-- The terms under which programs share a state. -/
structure Discipline (Op C : Type) (σ : Type u) where
  inv : σ → Prop
  rely : σ → σ → Prop
  permits : σ → Op → Prop
  admits : C → σ → Op → Prop

/-- A permitted operation keeps the invariant and does no more than others tolerate. -/
structure Discipline.Sound (D : Discipline Op C σ) (H : Handler Ans C σ) : Prop where
  refl : ∀ s, D.rely s s
  trans : ∀ {s t r}, D.rely s t → D.rely t r → D.rely s r
  inv_step : ∀ {c s o}, D.inv s → D.permits s o → D.admits c s o → D.inv (H c s o).2
  rely_step : ∀ {c s o}, D.inv s → D.permits s o → D.admits c s o → D.rely s (H c s o).2

/-- Every operation the program goes on to issue is permitted, and its result
satisfies `Q`. -/
def Safe (H : Handler Ans C σ) (D : Discipline Op C σ) (Q : α → σ → Prop) :
    Prog Ans α → σ → Prop
  | .ret a, s => Q a s
  | .eff o k, s => ∀ t, D.rely s t → D.inv t →
      D.permits t o ∧ ∀ c, D.admits c t o → Safe H D Q (k (H c t o).1) (H c t o).2

variable {H : Handler Ans C σ} {D : Discipline Op C σ}

@[simp] theorem safe_ret {Q : α → σ → Prop} {a : α} {s : σ} :
    Safe H D Q (.ret a) s ↔ Q a s := Iff.rfl

theorem safe_eff {Q : α → σ → Prop} {o : Op} {k : Ans o → Prog Ans α} {s : σ} :
    Safe H D Q (.eff o k) s ↔ ∀ t, D.rely s t → D.inv t → D.permits t o ∧
      ∀ c, D.admits c t o → Safe H D Q (k (H c t o).1) (H c t o).2 := Iff.rfl

theorem Safe.mono {Q R : α → σ → Prop} (hQ : ∀ a s, Q a s → R a s) {p : Prog Ans α} {s : σ}
    (h : Safe H D Q p s) : Safe H D R p s := by
  induction p generalizing s with
  | ret a => exact hQ a s h
  | eff o k ih =>
    intro t ht hi
    obtain ⟨hp, hk⟩ := h t ht hi
    exact ⟨hp, fun c hc => ih _ (hk c hc)⟩

theorem Safe.bind {Q : β → σ → Prop} {p : Prog Ans α} {f : α → Prog Ans β} {s : σ}
    (h : Safe H D (fun a t => Safe H D Q (f a) t) p s) : Safe H D Q (p >>= f) s := by
  induction p generalizing s with
  | ret a => exact h
  | eff o k ih =>
    intro t ht hi
    obtain ⟨hp, hk⟩ := h t ht hi
    exact ⟨hp, fun c hc => ih _ (hk c hc)⟩

/-- A fallible step: its error is the error of the whole. -/
theorem Safe.bindExcept {ε : Type} {Q : Except ε β → σ → Prop}
    {p : Fallible Ans ε α} {f : α → Fallible Ans ε β} {s : σ}
    (h : Safe H D (fun r t => match r with
      | .ok a => Safe H D Q (f a).run t
      | .error e => Q (.error e) t) p.run s) : Safe H D Q (p >>= f).run s := by
  apply Safe.bind (p := p.run)
  refine h.mono ?_
  intro r t hr
  cases r with
  | ok a => exact hr
  | error e => exact hr

/-- A body whose rest is safe wherever it starts. -/
theorem Safe.andThen {ε : Type} {p : Fallible Ans ε α} {f : α → Fallible Ans ε β} {s : σ}
    (h : Safe H D (fun _ _ => True) p.run s)
    (hf : ∀ a t, Safe H D (fun _ _ => True) (f a).run t) :
    Safe H D (fun _ _ => True) (p >>= f).run s := by
  refine Safe.bindExcept (h.mono ?_)
  intro r t _
  cases r with
  | ok a => exact hf a t
  | error e => trivial

theorem Safe.observe {ε : Type} {p : Prog Ans α} {s : σ}
    (h : Safe H D (fun _ _ => True) p s) :
    Safe H D (fun _ _ => True) (EffectPrograms.observe (ε := ε) p).run s :=
  Safe.bind (h.mono (fun _ _ _ => trivial))

/-- A step whose answer is observed, with what is known of the answer. -/
theorem Safe.observeBind {ε : Type} {Q : Except ε β → σ → Prop} {p : Prog Ans α}
    {f : α → Fallible Ans ε β} {s : σ} (h : Safe H D (fun a t => Safe H D Q (f a).run t) p s) :
    Safe H D Q (EffectPrograms.observe p >>= f).run s := by
  refine Safe.bindExcept (Safe.bind (h.mono ?_))
  intro a t ha
  exact ha

/-- Safety survives what the others do, when the result does. -/
theorem Safe.stable (hD : D.Sound H) {Q : α → σ → Prop}
    (hQ : ∀ a s t, Q a s → D.rely s t → Q a t) {p : Prog Ans α} {s t : σ}
    (h : Safe H D Q p s) (ht : D.rely s t) : Safe H D Q p t := by
  cases p with
  | ret a => exact hQ a s t h ht
  | eff o k => exact fun r hr => h r (hD.trans ht hr)

/-- Whatever a safe program does with others between its operations, they tolerate. -/
theorem Safe.reaches (hD : D.Sound H) {Q : α → σ → Prop} {p : Prog Ans α} {s : σ}
    (h : Safe H D Q p s) : Safe H D (fun a t => D.rely s t ∧ Q a t) p s := by
  induction p generalizing s with
  | ret a => exact ⟨hD.refl s, h⟩
  | eff o k ih =>
    intro t ht hi
    obtain ⟨hp, hk⟩ := h t ht hi
    refine ⟨hp, fun c hc => (ih _ (hk c hc)).mono ?_⟩
    intro a r hr
    exact ⟨hD.trans ht (hD.trans (hD.rely_step hi hp hc) hr.1), hr.2⟩

/-- The invariant holds and every program of the pool is safe. -/
def SafePool (H : Handler Ans C σ) (D : Discipline Op C σ) (Q : α → σ → Prop) (s : σ)
    (ps : List (Prog Ans α)) : Prop := D.inv s ∧ ∀ p ∈ ps, Safe H D Q p s

theorem SafePool.start {Q : α → σ → Prop} {s : σ} {ps : List (Prog Ans α)} {p : Prog Ans α}
    (h : SafePool H D Q s ps) (hp : Safe H D Q p s) : SafePool H D Q s (ps ++ [p]) := by
  refine ⟨h.1, ?_⟩
  intro q hq
  rcases List.mem_append.mp hq with hq | hq
  · exact h.2 q hq
  · rw [List.mem_singleton.mp hq]
    exact hp

theorem SafePool.step {Q : α → σ → Prop} (hD : D.Sound H)
    (hQ : ∀ a s t, Q a s → D.rely s t → Q a t) {s : σ} {ps : List (Prog Ans α)} {i : ℕ} {o : Op}
    {k : Ans o → Prog Ans α} {c : C} (h : SafePool H D Q s ps) (next : ps[i]? = some (.eff o k))
    (hc : D.admits c s o) : SafePool H D Q (H c s o).2 (ps.set i (k (H c s o).1)) := by
  obtain ⟨hp, hk⟩ := h.2 _ (List.mem_of_getElem? next) s (hD.refl s) h.1
  refine ⟨hD.inv_step h.1 hp hc, ?_⟩
  intro p hmem
  rcases List.mem_or_eq_of_mem_set hmem with hmem | rfl
  · exact (h.2 p hmem).stable hD hQ (hD.rely_step h.1 hp hc)
  · exact hk c hc

/-- In every interleaving of safe programs the invariant holds and what remains of
each program is safe. -/
theorem Reach.safe {starts : σ → Prog Ans α → Prop} {init : σ → Prop} {Q : α → σ → Prop}
    (hD : D.Sound H) (hQ : ∀ a s t, Q a s → D.rely s t → Q a t)
    (hinit : ∀ s, init s → D.inv s)
    (hstart : ∀ s p, D.inv s → starts s p → Safe H D Q p s)
    {s : σ} {ps : List (Prog Ans α)} (h : Reach H starts D.admits init s ps) :
    D.inv s ∧ ∀ p ∈ ps, Safe H D Q p s := by
  induction h with
  | init h => exact ⟨hinit _ h, by simp⟩
  | start _ h ih => exact SafePool.start ih (hstart _ _ ih.1 h)
  | step _ next h ih => exact SafePool.step hD hQ ih next h

/-- A pool of safe programs stays one for ever. -/
theorem Later.safe {starts : σ → Prog Ans α → Prop} (hD : D.Sound H)
    (hstart : ∀ s p, D.inv s → starts s p → Safe H D (fun _ _ => True) p s) {s t : σ}
    {ps qs : List (Prog Ans α)} (hs : SafePool H D (fun _ _ => True) s ps)
    (h : Later H starts D.admits s ps t qs) : SafePool H D (fun _ _ => True) t qs := by
  induction h with
  | refl => exact hs
  | start _ h ih => exact ih.start (hstart _ _ ih.1 h)
  | step _ next h ih => exact ih.step hD (fun _ _ _ _ _ => trivial) next h

/-- A pool of safe programs keeps the invariant for ever. -/
theorem Later.inv {starts : σ → Prog Ans α → Prop} (hD : D.Sound H)
    (hstart : ∀ s p, D.inv s → starts s p → Safe H D (fun _ _ => True) p s) {s t : σ}
    {ps qs : List (Prog Ans α)} (hs : SafePool H D (fun _ _ => True) s ps)
    (h : Later H starts D.admits s ps t qs) : D.inv t := (h.safe hD hstart hs).1

/-- What happens later in a pool of safe programs, everyone tolerates. -/
theorem Later.rely {starts : σ → Prog Ans α → Prop} (hD : D.Sound H)
    (hstart : ∀ s p, D.inv s → starts s p → Safe H D (fun _ _ => True) p s) {s t : σ}
    {ps qs : List (Prog Ans α)} (hs : SafePool H D (fun _ _ => True) s ps)
    (h : Later H starts D.admits s ps t qs) : D.rely s t := by
  induction h with
  | refl => exact hD.refl s
  | start _ _ ih => exact ih
  | step reached next hc ih =>
    obtain ⟨hinv, hpool⟩ := reached.safe hD hstart hs
    obtain ⟨hp, -⟩ := hpool _ (List.mem_of_getElem? next) _ (hD.refl _) hinv
    exact hD.trans ih (hD.rely_step hinv hp hc)

/-- What one program of a safe pool establishes by itself, it establishes among the others. -/
theorem Later.safeAt {starts : σ → Prog Ans α → Prop} (hD : D.Sound H)
    (hstart : ∀ s p, D.inv s → starts s p → Safe H D (fun _ _ => True) p s) {Q : α → σ → Prop}
    (hQ : ∀ a s t, Q a s → D.rely s t → Q a t) {s t : σ} {ps qs : List (Prog Ans α)}
    (hs : SafePool H D (fun _ _ => True) s ps) {i : ℕ} {p : Prog Ans α} (hi : ps[i]? = some p)
    (hp : Safe H D Q p s) (h : Later H starts D.admits s ps t qs) :
    ∃ q, qs[i]? = some q ∧ Safe H D Q q t := by
  induction h with
  | refl => exact ⟨p, hi, hp⟩
  | start _ _ ih =>
    obtain ⟨q, hq, hsafe⟩ := ih
    exact ⟨q, List.getElem?_append_left (List.getElem?_eq_some_iff.mp hq).1 ▸ hq, hsafe⟩
  | @step t qs j o k c reached next hc ih =>
    obtain ⟨q, hq, hsafe⟩ := ih
    obtain ⟨hinv, hpool⟩ := reached.safe hD hstart hs
    obtain ⟨hpermits, -⟩ := hpool _ (List.mem_of_getElem? next) t (hD.refl t) hinv
    by_cases hji : j = i
    · subst hji
      obtain rfl : .eff o k = q := Option.some.inj (next.symm.trans hq)
      refine ⟨_, List.getElem?_set_self (List.getElem?_eq_some_iff.mp next).1, ?_⟩
      exact (hsafe t (hD.refl t) hinv).2 c hc
    · refine ⟨q, (List.getElem?_set_ne hji).trans hq, ?_⟩
      exact hsafe.stable hD hQ (hD.rely_step hinv hpermits hc)

/-- The invariant of a discipline holds in every interleaving of programs that are
safe for it, whatever their results. -/
theorem Reach.inv {starts : σ → Prog Ans α → Prop} {init : σ → Prop}
    (hD : D.Sound H) (hinit : ∀ s, init s → D.inv s)
    (hstart : ∀ s p, D.inv s → starts s p → Safe H D (fun _ _ => True) p s)
    {s : σ} {ps : List (Prog Ans α)} (h : Reach H starts D.admits init s ps) : D.inv s :=
  (h.safe hD (fun _ _ _ _ _ => trivial) hinit hstart).1

/-- What is reachable under a discipline is reachable under any terms that the discipline
implies for its operations. -/
theorem Reach.readmit {starts : σ → Prog Ans α → Prop} {init : σ → Prop}
    {admits : C → σ → Op → Prop} (hD : D.Sound H) (hinit : ∀ s, init s → D.inv s)
    (hstart : ∀ s p, D.inv s → starts s p → Safe H D (fun _ _ => True) p s)
    (hadmits : ∀ c s o, D.inv s → D.permits s o → D.admits c s o → admits c s o)
    {s : σ} {ps : List (Prog Ans α)} (h : Reach H starts D.admits init s ps) :
    Reach H starts admits init s ps := by
  induction h with
  | init h => exact .init h
  | start _ h ih => exact ih.start h
  | step reached next hc ih =>
    obtain ⟨hinv, hpool⟩ := reached.safe hD (fun _ _ _ _ _ => trivial) hinit hstart
    obtain ⟨hpermits, -⟩ := hpool _ (List.mem_of_getElem? next) _ (hD.refl _) hinv
    exact ih.step next (hadmits _ _ _ hinv hpermits hc)

/-- Two disciplines at once. -/
def Discipline.both (D E : Discipline Op C σ) : Discipline Op C σ where
  inv := fun s => D.inv s ∧ E.inv s
  rely := fun s t => D.rely s t ∧ E.rely s t
  permits := fun s o => D.permits s o ∧ E.permits s o
  admits := fun c s o => D.admits c s o ∧ E.admits c s o

/-- What is safe for two disciplines is safe for both at once. -/
theorem Safe.both {E : Discipline Op C σ} {Q R : α → σ → Prop} {p : Prog Ans α} {s : σ}
    (h : Safe H D Q p s) (h' : Safe H E R p s) :
    Safe H (D.both E) (fun a t => Q a t ∧ R a t) p s := by
  induction p generalizing s with
  | ret a => exact ⟨h, h'⟩
  | eff o k ih =>
    intro t ht hi
    obtain ⟨hp, hk⟩ := h t ht.1 hi.1
    obtain ⟨hp', hk'⟩ := h' t ht.2 hi.2
    exact ⟨⟨hp, hp'⟩, fun c hc => ih _ (hk c hc.1) (hk' c hc.2)⟩

/-- The discipline of a program that runs alone: nothing happens between its operations. -/
def Discipline.alone (inv : σ → Prop) (permits : σ → Op → Prop) : Discipline Op C σ :=
  ⟨inv, Eq, permits, fun _ _ _ => True⟩

/-- A program that is safe when it runs alone keeps the invariant and ends with its
result. -/
theorem Safe.run {inv : σ → Prop} {permits : σ → Op → Prop}
    (hstep : ∀ c s o, inv s → permits s o → inv (H c s o).2) {Q : α → σ → Prop}
    {p : Prog Ans α} {f : ℕ → C} {s : σ} (h : Safe H (Discipline.alone inv permits) Q p s)
    (hs : inv s) :
    Q (EffectPrograms.run H p f s).1 (EffectPrograms.run H p f s).2 ∧
      inv (EffectPrograms.run H p f s).2 := by
  induction p generalizing s f with
  | ret a => exact ⟨h, hs⟩
  | eff o k ih =>
    obtain ⟨hp, hk⟩ := h s rfl hs
    exact ih _ (hk (f 0) trivial) (hstep (f 0) s o hs hp)

/-- The discipline of a program that runs alone and meets only some choices. Safety for it
is the weakest precondition of a result. -/
def Discipline.solo (admits : C → σ → Op → Prop) : Discipline Op C σ :=
  ⟨fun _ => True, Eq, fun _ _ => True, admits⟩

theorem safe_solo_eff {admits : C → σ → Op → Prop} {Q : α → σ → Prop} {o : Op}
    {k : Ans o → Prog Ans α} {s : σ} : Safe H (Discipline.solo admits) Q (.eff o k) s ↔
      ∀ c, admits c s o → Safe H (Discipline.solo admits) Q (k (H c s o).1) (H c s o).2 := by
  constructor
  · intro h c hc
    exact (h s rfl trivial).2 c hc
  · rintro h _ rfl _
    exact ⟨trivial, h⟩

/-- What every operation preserves, a program that runs alone has preserved when it returns. -/
theorem Safe.keeps {admits : C → σ → Op → Prop} (rel : σ → σ → Prop) (refl : ∀ s, rel s s)
    (trans : ∀ {s t r}, rel s t → rel t r → rel s r) (hstep : ∀ c s o, rel s (H c s o).2)
    {Q : α → σ → Prop} {p : Prog Ans α} {s : σ} (h : Safe H (Discipline.solo admits) Q p s) :
    Safe H (Discipline.solo admits) (fun a t => rel s t ∧ Q a t) p s := by
  induction p generalizing s with
  | ret a => exact ⟨refl s, h⟩
  | eff o k ih =>
    refine safe_solo_eff.mpr ?_
    intro c hc
    refine (ih _ (safe_solo_eff.mp h c hc)).mono ?_
    rintro a t ⟨hrel, ha⟩
    exact ⟨trans (hstep c s o) hrel, ha⟩

/-- A run that meets only the admitted choices ends with the result. -/
theorem Safe.encounters {admits : C → σ → Op → Prop} {Q : α → σ → Prop} {p : Prog Ans α}
    {f : ℕ → C} {s : σ} (h : Safe H (Discipline.solo admits) Q p s)
    (hf : Encounters H admits p f s) :
    Q (EffectPrograms.run H p f s).1 (EffectPrograms.run H p f s).2 := by
  induction p generalizing s f with
  | ret a => exact h
  | eff o k ih => exact ih _ (safe_solo_eff.mp h (f 0) hf.1) hf.2

/-- In a run that meets only admitted choices, a safe program issues permitted operations only,
each of them in a state of the invariant. -/
theorem Safe.meets (hrefl : ∀ s, D.rely s s)
    (hstep : ∀ c s o, D.inv s → D.permits s o → D.admits c s o → D.inv (H c s o).2)
    {Q : α → σ → Prop} {p : Prog Ans α} {f : ℕ → C} {s : σ} (h : Safe H D Q p s) (hs : D.inv s)
    (hf : Encounters H D.admits p f s) :
    Encounters H (fun c t o => D.inv t ∧ D.permits t o ∧ D.admits c t o) p f s ∧
      D.inv (EffectPrograms.run H p f s).2 := by
  induction p generalizing s f with
  | ret a => exact ⟨trivial, hs⟩
  | eff o k ih =>
    obtain ⟨hp, hk⟩ := h s (hrefl s) hs
    obtain ⟨hmet, hinv⟩ := ih _ (hk (f 0) hf.1) (hstep (f 0) s o hs hp hf.1) hf.2
    exact ⟨⟨⟨hs, hp, hf.1⟩, hmet⟩, hinv⟩

/-- One operation as it was issued: the states around it and its answer. -/
structure Observed {Op : Type} (Ans : Op → Type) (σ : Type u) where
  pre : σ
  op : Op
  ans : Ans op
  post : σ

/-- The handler that also keeps the history of all operations. -/
def recorded (H : Handler Ans C σ) : Handler Ans C (σ × List (Observed Ans σ)) := fun c s o =>
  ((H c s.1 o).1, (H c s.1 o).2, s.2 ++ [⟨s.1, o, (H c s.1 o).1, (H c s.1 o).2⟩])

@[simp] theorem recorded_ans (c : C) (s : σ × List (Observed Ans σ)) (o : Op) :
    (recorded H c s o).1 = (H c s.1 o).1 := rfl

@[simp] theorem recorded_state (c : C) (s : σ × List (Observed Ans σ)) (o : Op) :
    (recorded H c s o).2.1 = (H c s.1 o).2 := rfl

@[simp] theorem recorded_history (c : C) (s : σ × List (Observed Ans σ)) (o : Op) :
    (recorded H c s o).2.2 = s.2 ++ [⟨s.1, o, (H c s.1 o).1, (H c s.1 o).2⟩] := rfl

/-- Keeping the history changes neither results nor states. -/
theorem run_recorded (p : Prog Ans α) (f : ℕ → C) (s : σ × List (Observed Ans σ)) :
    (run (recorded H) p f s).1 = (run H p f s.1).1 ∧ (run (recorded H) p f s).2.1 = (run H p f s.1).2 := by
  induction p generalizing f s with
  | ret a => exact ⟨rfl, rfl⟩
  | eff o k ih => exact ih _ _ _

/-- The handler that also watches whether every operation has met `P`. -/
def watched (H : Handler Ans C σ) (P : C → σ → Op → Prop) : Handler Ans C (σ × Prop) :=
  fun c s o => ((H c s.1 o).1, (H c s.1 o).2, s.2 ∧ P c s.1 o)

/-- Watching changes neither results nor states, and tells whether `P` was met throughout. -/
theorem run_watched {P : C → σ → Op → Prop} (p : Prog Ans α) (f : ℕ → C) (s : σ × Prop) :
    (run (watched H P) p f s).1 = (run H p f s.1).1 ∧
      (run (watched H P) p f s).2.1 = (run H p f s.1).2 ∧
      ((run (watched H P) p f s).2.2 ↔ s.2 ∧ Encounters H P p f s.1) := by
  induction p generalizing f s with
  | ret a => simp
  | eff o k ih =>
    obtain ⟨hresult, hstate, hmet⟩ := ih (H (f 0) s.1 o).1 (fun n => f (n + 1))
      (watched H P (f 0) s o).2
    refine ⟨hresult, hstate, hmet.trans ?_⟩
    rw [encounters_eff, ← and_assoc]
    rfl

end IamService.EffectPrograms
