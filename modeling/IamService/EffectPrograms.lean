import Mathlib.Logic.Basic
import Mathlib.Control.Basic
import Mathlib.Data.List.Induction
import Mathlib.Data.Nat.Notation

/-!
# Programs over a signature of atomic operations

A program is a finite tree: it returns, or it issues one operation and goes on with
the answer. The signature says which operations exist and what type answers each
of them; a handler says what an operation does to a state. Everything the handler
does not decide is a choice of the environment, one choice for each operation.

The same program is read in two ways. `run` executes it alone, against a stream of
choices. `Reach` executes any number of programs together, one operation of one
program at a time, so that operations are the atomic steps of an interleaving.
-/

namespace IamService.EffectPrograms

universe u

/-- A computation that returns or issues one operation and continues. -/
inductive Prog {Op : Type} (Ans : Op → Type) (α : Type) : Type where
  | ret (a : α) : Prog Ans α
  | eff (o : Op) (k : Ans o → Prog Ans α) : Prog Ans α

variable {Op : Type} {Ans : Op → Type} {α β γ : Type}

namespace Prog

/-- Sequential composition. -/
def bind : Prog Ans α → (α → Prog Ans β) → Prog Ans β
  | .ret a, f => f a
  | .eff o k, f => .eff o (fun x => (k x).bind f)

instance : Monad (Prog Ans) where
  pure := .ret
  bind := .bind

@[simp] theorem pure_eq (a : α) : (pure a : Prog Ans α) = .ret a := rfl

@[simp] theorem ret_bind (a : α) (f : α → Prog Ans β) : (Prog.ret a >>= f) = f a := rfl

@[simp] theorem eff_bind (o : Op) (k : Ans o → Prog Ans α) (f : α → Prog Ans β) :
    (Prog.eff o k >>= f) = .eff o (fun x => k x >>= f) := rfl

theorem bind_assoc (p : Prog Ans α) (f : α → Prog Ans β) (g : β → Prog Ans γ) :
    ((p >>= f) >>= g) = p >>= fun a => f a >>= g := by
  induction p with
  | ret a => rfl
  | eff o k ih =>
    apply congrArg (Prog.eff o)
    funext x
    exact ih x

/-- Issue a single operation. -/
def perform (o : Op) : Prog Ans (Ans o) := .eff o .ret

end Prog

/-- A program that may stop with an error, as a function with `?` does. -/
abbrev Fallible (Ans : Op → Type) (ε : Type) := ExceptT ε (Prog Ans)

/-- Run a fallible step and propagate its error. -/
def attempt {ε : Type} (p : Prog Ans (Except ε α)) : Fallible Ans ε α := ExceptT.mk p

/-- Run a step and look at its answer, whatever it is. -/
def observe {ε : Type} (p : Prog Ans α) : Fallible Ans ε α := ExceptT.lift p

section FallibleRules

variable {ε : Type}

@[simp] theorem run_attempt (p : Prog Ans (Except ε α)) : (attempt p).run = p := rfl

@[simp] theorem run_observe (p : Prog Ans α) :
    (observe (ε := ε) p).run = p >>= fun a => .ret (.ok a) := rfl

@[simp] theorem run_pure' (a : α) : (pure a : Fallible Ans ε α).run = .ret (.ok a) := rfl

@[simp] theorem run_throw' (e : ε) : (throw e : Fallible Ans ε α).run = .ret (.error e) := rfl

/-- What follows a fallible step: the rest of the body, or its error. -/
def proceed (f : α → Fallible Ans ε β) : Except ε α → Prog Ans (Except ε β)
  | .ok a => (f a).run
  | .error e => .ret (.error e)

@[simp] theorem proceed_ok (f : α → Fallible Ans ε β) (a : α) :
    proceed f (.ok a) = (f a).run := rfl

@[simp] theorem proceed_error (f : α → Fallible Ans ε β) (e : ε) :
    proceed f (.error e : Except ε α) = .ret (.error e) := rfl

@[simp] theorem run_bind' (p : Fallible Ans ε α) (f : α → Fallible Ans ε β) :
    (p >>= f).run = p.run >>= proceed f := by
  apply congrArg (p.run >>= ·)
  funext r
  cases r with
  | ok a => rfl
  | error e => rfl

end FallibleRules

/-- What each operation answers and does, given a choice of the environment. -/
abbrev Handler {Op : Type} (Ans : Op → Type) (C : Type) (σ : Type u) :=
  C → σ → (o : Op) → Ans o × σ

variable {C : Type} {σ : Type u}

/-- Execute a program alone; the `n`-th operation receives the `n`-th choice. -/
def run (H : Handler Ans C σ) : Prog Ans α → (ℕ → C) → σ → α × σ
  | .ret a, _, s => (a, s)
  | .eff o k, f, s => run H (k (H (f 0) s o).1) (fun n => f (n + 1)) (H (f 0) s o).2

@[simp] theorem run_ret (H : Handler Ans C σ) (a : α) (f : ℕ → C) (s : σ) :
    run H (.ret a) f s = (a, s) := rfl

@[simp] theorem run_eff (H : Handler Ans C σ) (o : Op) (k : Ans o → Prog Ans α)
    (f : ℕ → C) (s : σ) :
    run H (.eff o k) f s =
      run H (k (H (f 0) s o).1) (fun n => f (n + 1)) (H (f 0) s o).2 := rfl

/-- How many operations a program issues when it runs alone. -/
def issued (H : Handler Ans C σ) : Prog Ans α → (ℕ → C) → σ → ℕ
  | .ret _, _, _ => 0
  | .eff o k, f, s => issued H (k (H (f 0) s o).1) (fun n => f (n + 1)) (H (f 0) s o).2 + 1

/-- A composition runs its first part, then the second with the choices that remain. -/
theorem run_bind (H : Handler Ans C σ) (p : Prog Ans α) (k : α → Prog Ans β) (f : ℕ → C) (s : σ) :
    run H (p >>= k) f s =
      run H (k (run H p f s).1) (fun n => f (n + issued H p f s)) (run H p f s).2 := by
  induction p generalizing f s with
  | ret a => rfl
  | eff o q ih =>
    rw [Prog.eff_bind, run_eff, ih]
    rfl

/-- A part without operations only looks at the result. -/
theorem run_bind_ret (H : Handler Ans C σ) (p : Prog Ans α) (g : α → β) (f : ℕ → C) (s : σ) :
    run H (p >>= fun a => .ret (g a)) f s = (g (run H p f s).1, (run H p f s).2) := by
  rw [run_bind, run_ret]

/-- Every operation that a program issues when it runs alone meets `P`, with the choice and
in the state it is issued. -/
def Encounters (H : Handler Ans C σ) (P : C → σ → Op → Prop) : Prog Ans α → (ℕ → C) → σ → Prop
  | .ret _, _, _ => True
  | .eff o k, f, s => P (f 0) s o ∧
      Encounters H P (k (H (f 0) s o).1) (fun n => f (n + 1)) (H (f 0) s o).2

@[simp] theorem encounters_ret {H : Handler Ans C σ} {P : C → σ → Op → Prop} {a : α} {f : ℕ → C}
    {s : σ} : Encounters H P (.ret a) f s := trivial

@[simp] theorem encounters_eff {H : Handler Ans C σ} {P : C → σ → Op → Prop} {o : Op}
    {k : Ans o → Prog Ans α} {f : ℕ → C} {s : σ} : Encounters H P (.eff o k) f s ↔ P (f 0) s o ∧
      Encounters H P (k (H (f 0) s o).1) (fun n => f (n + 1)) (H (f 0) s o).2 := Iff.rfl

theorem Encounters.mono {H : Handler Ans C σ} {P Q : C → σ → Op → Prop} {R : C → Prop}
    (hPQ : ∀ c s o, P c s o → R c → Q c s o) {p : Prog Ans α} {f : ℕ → C} {s : σ}
    (h : Encounters H P p f s) (hf : ∀ n, R (f n)) : Encounters H Q p f s := by
  induction p generalizing f s with
  | ret a => trivial
  | eff o k ih => exact ⟨hPQ _ _ _ h.1 (hf 0), ih _ h.2 (fun n => hf (n + 1))⟩

theorem Encounters.of_forall {H : Handler Ans C σ} {P : C → σ → Op → Prop}
    (h : ∀ c s o, P c s o) (p : Prog Ans α) (f : ℕ → C) (s : σ) : Encounters H P p f s := by
  induction p generalizing f s with
  | ret a => trivial
  | eff o k ih => exact ⟨h _ _ _, ih _ _ _⟩

/-- What holds of all choices is met by every operation. -/
theorem Encounters.of_choices {H : Handler Ans C σ} {R : C → Prop} (p : Prog Ans α) {f : ℕ → C}
    (hf : ∀ n, R (f n)) (s : σ) : Encounters H (fun c _ _ => R c) p f s :=
  Encounters.mono (fun _ _ _ _ h => h) (Encounters.of_forall (fun _ _ _ => trivial) p f s :
    Encounters H (fun _ _ _ => True) p f s) hf

instance decidableEncounters (H : Handler Ans C σ) (P : C → σ → Op → Prop)
    [∀ c s o, Decidable (P c s o)] :
    (p : Prog Ans α) → (f : ℕ → C) → (s : σ) → Decidable (Encounters H P p f s)
  | .ret _, _, _ => inferInstanceAs (Decidable True)
  | .eff o k, f, s =>
    have := decidableEncounters H P (k (H (f 0) s o).1) (fun n => f (n + 1)) (H (f 0) s o).2
    inferInstanceAs (Decidable (P (f 0) s o ∧
      Encounters H P (k (H (f 0) s o).1) (fun n => f (n + 1)) (H (f 0) s o).2))

/-- States and pools of running programs reachable when `starts` says which programs
may be launched in a state and `admits` which choices a step may meet. -/
inductive Reach (H : Handler Ans C σ) (starts : σ → Prog Ans α → Prop)
    (admits : C → σ → Op → Prop) (init : σ → Prop) : σ → List (Prog Ans α) → Prop where
  | init {s} (h : init s) : Reach H starts admits init s []
  | start {s ps p} (reached : Reach H starts admits init s ps) (h : starts s p) :
      Reach H starts admits init s (ps ++ [p])
  | step {s ps i o k c} (reached : Reach H starts admits init s ps)
      (next : ps[i]? = some (.eff o k)) (h : admits c s o) :
      Reach H starts admits init (H c s o).2 (ps.set i (k (H c s o).1))

/-- What holds of the programs launched, and of the rest of a program after every answer,
holds of all running programs. -/
theorem Reach.hereditary {H : Handler Ans C σ} {starts : σ → Prog Ans α → Prop}
    {admits : C → σ → Op → Prop} {init : σ → Prop} {P : Prog Ans α → Prop}
    (hstart : ∀ s p, starts s p → P p) (hstep : ∀ o k, P (.eff o k) → ∀ x, P (k x)) {s : σ}
    {ps : List (Prog Ans α)} (h : Reach H starts admits init s ps) : ∀ p ∈ ps, P p := by
  induction h with
  | init h => simp
  | start _ h ih =>
    intro p hp
    rcases List.mem_append.mp hp with hp | hp
    · exact ih p hp
    · rw [List.mem_singleton.mp hp]
      exact hstart _ _ h
  | step _ next h ih =>
    intro p hp
    rcases List.mem_or_eq_of_mem_set hp with hp | rfl
    · exact ih p hp
    · exact hstep _ _ (ih _ (List.mem_of_getElem? next)) _

/-- What is reachable stays reachable when more may be launched and more choices are met. -/
theorem Reach.mono {H : Handler Ans C σ} {starts starts' : σ → Prog Ans α → Prop}
    {admits admits' : C → σ → Op → Prop} {init : σ → Prop}
    (hstarts : ∀ s p, starts s p → starts' s p)
    (hadmits : ∀ c s o, admits c s o → admits' c s o) {s : σ} {ps : List (Prog Ans α)}
    (h : Reach H starts admits init s ps) : Reach H starts' admits' init s ps := by
  induction h with
  | init h => exact .init h
  | start _ hp ih => exact ih.start (hstarts _ _ hp)
  | step _ next hc ih => exact ih.step next (hadmits _ _ _ hc)

/-- States and pools that can follow a given state and pool. -/
inductive Later (H : Handler Ans C σ) (starts : σ → Prog Ans α → Prop)
    (admits : C → σ → Op → Prop) (s₀ : σ) (ps₀ : List (Prog Ans α)) :
    σ → List (Prog Ans α) → Prop where
  | refl : Later H starts admits s₀ ps₀ s₀ ps₀
  | start {s ps p} (reached : Later H starts admits s₀ ps₀ s ps) (h : starts s p) :
      Later H starts admits s₀ ps₀ s (ps ++ [p])
  | step {s ps i o k c} (reached : Later H starts admits s₀ ps₀ s ps)
      (next : ps[i]? = some (.eff o k)) (h : admits c s o) :
      Later H starts admits s₀ ps₀ (H c s o).2 (ps.set i (k (H c s o).1))

theorem Later.trans {H : Handler Ans C σ} {starts : σ → Prog Ans α → Prop}
    {admits : C → σ → Op → Prop} {s t r : σ} {ps qs rs : List (Prog Ans α)}
    (h : Later H starts admits s ps t qs) (h' : Later H starts admits t qs r rs) :
    Later H starts admits s ps r rs := by
  induction h' with
  | refl => exact h
  | start _ hp ih => exact .start ih hp
  | step _ next hc ih => exact .step ih next hc

/-- One step of the program at position `i`; a program that has returned does nothing. -/
def advance (H : Handler Ans C σ) (x : σ × List (Prog Ans α)) (j : ℕ × C) :
    σ × List (Prog Ans α) :=
  match x.2[j.1]? with
  | some (.eff o k) => ((H j.2 x.1 o).2, x.2.set j.1 (k (H j.2 x.1 o).1))
  | _ => x

theorem advance_eff {H : Handler Ans C σ} {x : σ × List (Prog Ans α)} {i : ℕ} {o : Op}
    {k : Ans o → Prog Ans α} (h : x.2[i]? = some (.eff o k)) (c : C) :
    advance H x (i, c) = ((H c x.1 o).2, x.2.set i (k (H c x.1 o).1)) := by
  simp [advance, h]

theorem advance_of_done {H : Handler Ans C σ} {x : σ × List (Prog Ans α)} {j : ℕ × C}
    (h : ∀ o k, x.2[j.1]? ≠ some (.eff o k)) : advance H x j = x := by
  unfold advance
  split
  · rename_i o k hk
    exact absurd hk (h o k)
  · rfl

/-- Execute a schedule: each entry names a program of the pool and a choice. -/
def schedule (H : Handler Ans C σ) (x : σ × List (Prog Ans α)) (l : List (ℕ × C)) :
    σ × List (Prog Ans α) := l.foldl (advance H) x

@[simp] theorem length_schedule (H : Handler Ans C σ) (x : σ × List (Prog Ans α))
    (l : List (ℕ × C)) : (schedule H x l).2.length = x.2.length := by
  induction l generalizing x with
  | nil => rfl
  | cons j l ih =>
    refine (ih (advance H x j)).trans ?_
    unfold advance
    split
    · exact List.length_set
    · rfl

/-- Every step of a schedule meets `P` in the configuration in which it is taken. -/
def Throughout (H : Handler Ans C σ) (P : σ × List (Prog Ans α) → ℕ × C → Prop) :
    σ × List (Prog Ans α) → List (ℕ × C) → Prop
  | _, [] => True
  | x, j :: l => P x j ∧ Throughout H P (advance H x j) l

instance decidableThroughout (H : Handler Ans C σ) (P : σ × List (Prog Ans α) → ℕ × C → Prop)
    [∀ x j, Decidable (P x j)] :
    (x : σ × List (Prog Ans α)) → (l : List (ℕ × C)) → Decidable (Throughout H P x l)
  | _, [] => inferInstanceAs (Decidable True)
  | x, j :: l =>
    have := decidableThroughout H P (advance H x j) l
    inferInstanceAs (Decidable (P x j ∧ Throughout H P (advance H x j) l))

/-- What every step that meets `P` keeps, a schedule of such steps keeps. -/
theorem schedule_invariant {H : Handler Ans C σ} {P : σ × List (Prog Ans α) → ℕ × C → Prop}
    {inv : σ × List (Prog Ans α) → Prop} (hstep : ∀ x j, inv x → P x j → inv (advance H x j))
    {x : σ × List (Prog Ans α)} {l : List (ℕ × C)} (hx : inv x) (h : Throughout H P x l) :
    inv (schedule H x l) := by
  induction l generalizing x with
  | nil => exact hx
  | cons j l ih => exact ih (hstep x j hx h.1) h.2

/-- A step meets an admitted choice. -/
def Admits (admits : C → σ → Op → Prop) (x : σ × List (Prog Ans α)) (j : ℕ × C) : Prop :=
  match x.2[j.1]? with
  | some (.eff o _) => admits j.2 x.1 o
  | _ => True

instance (admits : C → σ → Op → Prop) [∀ c s o, Decidable (admits c s o)]
    (x : σ × List (Prog Ans α)) (j : ℕ × C) : Decidable (Admits admits x j) := by
  unfold Admits
  split <;> infer_instance

/-- Every step of a schedule meets an admitted choice. -/
def Admitted (H : Handler Ans C σ) (admits : C → σ → Op → Prop) :
    σ × List (Prog Ans α) → List (ℕ × C) → Prop := Throughout H (Admits admits)

instance (H : Handler Ans C σ) (admits : C → σ → Op → Prop) [∀ c s o, Decidable (admits c s o)]
    (x : σ × List (Prog Ans α)) (l : List (ℕ × C)) : Decidable (Admitted H admits x l) :=
  decidableThroughout H (Admits admits) x l

theorem Admitted.of_forall {H : Handler Ans C σ} {admits : C → σ → Op → Prop}
    (h : ∀ c s o, admits c s o) (x : σ × List (Prog Ans α)) (l : List (ℕ × C)) :
    Admitted H admits x l := by
  induction l generalizing x with
  | nil => trivial
  | cons j l ih =>
    refine ⟨?_, ih _⟩
    unfold Admits
    split
    · exact h _ _ _
    · trivial

/-- What a schedule executes comes later. -/
theorem Later.schedule {H : Handler Ans C σ} {starts : σ → Prog Ans α → Prop}
    {admits : C → σ → Op → Prop} {s : σ} {ps : List (Prog Ans α)} (l : List (ℕ × C))
    (hl : Admitted H admits (s, ps) l) : Later H starts admits s ps
      (schedule H (s, ps) l).1 (schedule H (s, ps) l).2 := by
  induction l generalizing s ps with
  | nil => exact .refl
  | cons j l ih =>
    have hj := hl.1
    have hnext : Later H starts admits s ps (advance H (s, ps) j).1 (advance H (s, ps) j).2 := by
      unfold advance
      split
      · rename_i o k hk
        simp only [Admits, hk] at hj
        exact .step .refl hk hj
      · exact .refl
    exact hnext.trans (ih hl.2)

/-- What comes later than something reachable is reachable. -/
theorem Reach.later {H : Handler Ans C σ} {starts : σ → Prog Ans α → Prop}
    {admits : C → σ → Op → Prop} {init : σ → Prop} {s t : σ} {ps qs : List (Prog Ans α)}
    (h : Reach H starts admits init s ps) (h' : Later H starts admits s ps t qs) :
    Reach H starts admits init t qs := by
  induction h' with
  | refl => exact h
  | start _ hp ih => exact .start ih hp
  | step _ next hc ih => exact .step ih next hc

/-- What a schedule executes is reachable. -/
theorem Reach.schedule {H : Handler Ans C σ} {starts : σ → Prog Ans α → Prop}
    {admits : C → σ → Op → Prop} {init : σ → Prop} {s : σ} {ps : List (Prog Ans α)}
    (h : Reach H starts admits init s ps) (l : List (ℕ × C)) (hl : Admitted H admits (s, ps) l) :
    Reach H starts admits init (schedule H (s, ps) l).1 (schedule H (s, ps) l).2 :=
  h.later (Later.schedule l hl)

/-- Programs that may be launched in the initial state form a reachable pool. -/
theorem Reach.pool {H : Handler Ans C σ} {starts : σ → Prog Ans α → Prop}
    {admits : C → σ → Op → Prop} {init : σ → Prop} {s : σ} (hs : init s)
    (ps : List (Prog Ans α)) (hps : ∀ p ∈ ps, starts s p) :
    Reach H starts admits init s ps := by
  induction ps using List.reverseRecOn with
  | nil => exact .init hs
  | append_singleton ps p ih =>
    exact .start (ih (fun q hq => hps q (List.mem_append_left _ hq))) (hps p (by simp))

end IamService.EffectPrograms
