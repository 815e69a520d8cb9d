import Mathlib.Data.List.Perm.Subperm
import IamService.OperationFootprints
import IamService.FairSemaphores

/-!
# Programs that work under permits

A program of the extended signature takes a permit of a semaphore before a section of its
operations and gives it back after it. A pool of such programs moves one task at a time: a
task performs its next operation, or asks for a permit and perhaps waits; new tasks arrive;
a task may be dropped wherever it is.

Permits decide only when a task goes on. Forgetting them leaves an interleaving of the plain
programs, so what is known about every interleaving holds under permits too. While there is
at least one permit, a pool with unfinished tasks can always go on.
-/

namespace IamService.EffectPrograms
open FairSemaphores

universe u

variable {Op : Type} {Ans : Op → Type} {α β : Type} {C : Type} {σ : Type u}

/-- The operations of a signature, with the taking and giving back of a permit. -/
inductive Guarded (Op : Type) where
  | acquire
  | release
  | base (o : Op)

@[reducible] def Guarded.Answer (Ans : Op → Type) : Guarded Op → Type
  | .acquire => Unit
  | .release => Unit
  | .base o => Ans o

abbrev GuardedProg (Ans : Op → Type) (α : Type) := Prog (Guarded.Answer Ans) α

/-- A program that takes no permit. -/
def plain : Prog Ans α → GuardedProg Ans α
  | .ret a => .ret a
  | .eff o k => .eff (.base o) (fun x => plain (k x))

/-- Run a program under a permit. -/
def withPermit (p : Prog Ans α) : GuardedProg Ans α :=
  .eff .acquire (fun _ => plain p >>= fun a => .eff .release (fun _ => .ret a))

/-- Forget the permits. -/
def erase : GuardedProg Ans α → Prog Ans α
  | .ret a => .ret a
  | .eff .acquire k => erase (k ())
  | .eff .release k => erase (k ())
  | .eff (.base o) k => .eff o (fun x => erase (k x))

/-- Permits are taken and given back in turn, the last one is given back, and the operations
of a kind `P` are performed under a permit. -/
def Sectioned (P : Op → Prop) : Bool → GuardedProg Ans α → Prop
  | held, .ret _ => held = false
  | held, .eff .acquire k => held = false ∧ Sectioned P true (k ())
  | held, .eff .release k => held = true ∧ Sectioned P false (k ())
  | held, .eff (.base o) k => (P o → held = true) ∧ ∀ x, Sectioned P held (k x)

section Erasure

@[simp] theorem erase_plain (p : Prog Ans α) : erase (plain p) = p := by
  induction p with
  | ret a => rfl
  | eff o k ih =>
    apply congrArg (Prog.eff o)
    funext x
    exact ih x

@[simp] theorem erase_bind (p : GuardedProg Ans α) (f : α → GuardedProg Ans β) :
    erase (p >>= f) = erase p >>= fun a => erase (f a) := by
  induction p with
  | ret a => rfl
  | eff o k ih =>
    cases o with
    | acquire => exact ih ()
    | release => exact ih ()
    | base o =>
      apply congrArg (Prog.eff o)
      funext x
      exact ih x

theorem bind_ret (p : Prog Ans α) : (p >>= fun a => .ret a) = p := by
  induction p with
  | ret a => rfl
  | eff o k ih =>
    apply congrArg (Prog.eff o)
    funext x
    exact ih x

@[simp] theorem erase_withPermit (p : Prog Ans α) : erase (withPermit p) = p := by
  have herase := erase_bind (plain p) (fun a => .eff .release (fun _ => .ret a))
  rw [erase_plain] at herase
  exact herase.trans (bind_ret p)

end Erasure

section Sections

variable {P : Op → Prop}

/-- A program performs without a permit what needs none. -/
theorem sectioned_plain {p : Prog Ans α} {f : α → GuardedProg Ans β} {held : Bool}
    (hp : Issues (fun o => P o → held = true) p) (hf : ∀ a, Sectioned P held (f a)) :
    Sectioned P held (plain p >>= f) := by
  induction p with
  | ret a => exact hf a
  | eff o k ih => exact ⟨hp.1, fun x => ih x (hp.2 x)⟩

theorem sectioned_withPermit (p : Prog Ans α) : Sectioned P false (withPermit p) := by
  have hp : Issues (fun o => P o → true = true) p := by
    induction p with
    | ret a => trivial
    | eff o k ih => exact ⟨fun _ => rfl, ih⟩
  exact ⟨rfl, sectioned_plain hp (fun _ => ⟨rfl, rfl⟩)⟩

theorem Sectioned.map {held : Bool} {p : GuardedProg Ans α} (h : Sectioned P held p) (f : α → β) :
    Sectioned P held (p >>= fun a => .ret (f a)) := by
  induction p generalizing held with
  | ret a => exact h
  | eff o k ih =>
    cases o with
    | acquire => exact ⟨h.1, ih () h.2⟩
    | release => exact ⟨h.1, ih () h.2⟩
    | base o => exact ⟨h.1, fun x => ih x (h.2 x)⟩

end Sections

section Bodies

variable {ε : Type} {P : Op → Prop}

/-- A part of a body that takes no permit. -/
def unguarded (m : Fallible Ans ε α) : Fallible (Guarded.Answer Ans) ε α :=
  ExceptT.mk (plain m.run)

/-- The rest of a body, under a permit that is kept to its end. -/
def underPermit (m : Fallible Ans ε α) : Fallible (Guarded.Answer Ans) ε α :=
  ExceptT.mk (withPermit m.run)

/-- A body without its permits. -/
def unpermitted (m : Fallible (Guarded.Answer Ans) ε α) : Fallible Ans ε α :=
  ExceptT.mk (erase m.run)

@[simp] theorem unpermitted_unguarded (m : Fallible Ans ε α) : unpermitted (unguarded m) = m :=
  erase_plain m.run

@[simp] theorem unpermitted_underPermit (m : Fallible Ans ε α) :
    unpermitted (underPermit m) = m := erase_withPermit m.run

@[simp] theorem unpermitted_bind (m : Fallible (Guarded.Answer Ans) ε α)
    (f : α → Fallible (Guarded.Answer Ans) ε β) :
    unpermitted (m >>= f) = unpermitted m >>= fun a => unpermitted (f a) := by
  have hrun : (unpermitted (m >>= f)).run =
      (unpermitted m >>= fun a => unpermitted (f a)).run := by
    rw [run_bind']
    refine (congrArg erase (run_bind' m f)).trans ?_
    rw [erase_bind]
    apply congrArg (erase m.run >>= ·)
    funext r
    cases r with
    | ok a => rfl
    | error e => rfl
  exact hrun

theorem sectioned_unguarded {m : Fallible Ans ε α} (hm : Issues (fun o => ¬ P o) m.run) :
    Sectioned P false (unguarded m).run := by
  have hplain : Sectioned P false (plain m.run >>= fun r => .ret r) :=
    sectioned_plain (hm.mono (fun o ho hP => absurd hP ho)) (fun _ => rfl)
  rwa [bind_ret] at hplain

theorem sectioned_underPermit (m : Fallible Ans ε α) : Sectioned P false (underPermit m).run :=
  sectioned_withPermit m.run

theorem sectioned_unguarded_bind {m : Fallible Ans ε α}
    {f : α → Fallible (Guarded.Answer Ans) ε β} (hm : Issues (fun o => ¬ P o) m.run)
    (hf : ∀ a, Sectioned P false (f a).run) : Sectioned P false (unguarded m >>= f).run := by
  rw [run_bind']
  refine sectioned_plain (hm.mono (fun o ho hP => absurd hP ho)) ?_
  intro r
  cases r with
  | ok a => exact hf a
  | error e => rfl

end Bodies

/-- Tasks over a shared state and a semaphore; a task that has been dropped is `none`. -/
structure Pool (Ans : Op → Type) (σ : Type u) (α : Type) where
  state : σ
  permits : Semaphore
  tasks : List (Option (GuardedProg Ans α))

inductive Move (Ans : Op → Type) (C α : Type) where
  | start (p : GuardedProg Ans α)
  | run (i : ℕ) (c : C)
  | drop (i : ℕ)

namespace Pool

/-- A pool without tasks, all permits free. -/
def new (limit : ℕ) (s : σ) : Pool Ans σ α := ⟨s, .new limit, []⟩

/-- What is left of a task that has not been dropped. -/
def task (x : Pool Ans σ α) (i : ℕ) : Option (GuardedProg Ans α) := x.tasks[i]?.join

def move (H : Handler Ans C σ) (x : Pool Ans σ α) : Move Ans C α → Pool Ans σ α
  | .start p => { x with tasks := x.tasks ++ [some p] }
  | .run i c =>
    match x.task i with
    | some (.eff (.base o) k) =>
      { x with
        state := (H c x.state o).2
        tasks := x.tasks.set i (some (k (H c x.state o).1)) }
    | some (.eff .acquire k) =>
      { x with
        permits := (x.permits.request i).2
        tasks := if (x.permits.request i).1 then x.tasks.set i (some (k ())) else x.tasks }
    | some (.eff .release k) =>
      { x with
        permits := x.permits.release i
        tasks := x.tasks.set i (some (k ())) }
    | _ => x
  | .drop i => { x with permits := x.permits.cancel i, tasks := x.tasks.set i none }

/-- A move starts a program that may be started, and meets an admitted choice. -/
def Allows (starts : σ → GuardedProg Ans α → Prop) (admits : C → σ → Op → Prop)
    (x : Pool Ans σ α) : Move Ans C α → Prop
  | .start p => starts x.state p
  | .run i c =>
    match x.task i with
    | some (.eff (.base o) _) => admits c x.state o
    | _ => True
  | .drop _ => True

theorem allows_run {starts : σ → GuardedProg Ans α → Prop} {admits : C → σ → Op → Prop}
    (hadmits : ∀ c s o, admits c s o) (x : Pool Ans σ α) (i : ℕ) (c : C) :
    x.Allows starts admits (.run i c) := by
  unfold Allows
  dsimp only
  split
  · exact hadmits _ _ _
  · trivial

/-- The pools that can be reached. -/
inductive Reached (H : Handler Ans C σ) (starts : σ → GuardedProg Ans α → Prop)
    (admits : C → σ → Op → Prop) (init : σ → Prop) (limit : ℕ) : Pool Ans σ α → Prop where
  | new {s} (h : init s) : Reached H starts admits init limit (new limit s)
  | move {x m} (reached : Reached H starts admits init limit x) (h : x.Allows starts admits m) :
      Reached H starts admits init limit (x.move H m)

theorem Reached.moves {H : Handler Ans C σ} {starts : σ → GuardedProg Ans α → Prop}
    {admits : C → σ → Op → Prop} {init : σ → Prop} {limit : ℕ} {x : Pool Ans σ α}
    {ms : List (Move Ans C α)} (h : Reached H starts admits init limit x)
    (hms : ∀ m ∈ ms, ∀ y, Allows starts admits y m) :
    Reached H starts admits init limit (ms.foldl (Pool.move H) x) := by
  induction ms generalizing x with
  | nil => exact h
  | cons m ms ih =>
    exact ih (.move h (hms m List.mem_cons_self x)) (fun n hn => hms n (List.mem_cons_of_mem m hn))

/-- A move of the task would take it further. -/
def Enabled (x : Pool Ans σ α) (i : ℕ) : Prop :=
  match x.task i with
  | some (.eff .acquire _) => (x.permits.request i).1 = true
  | some (.eff _ _) => True
  | _ => False

/-- The task has not returned. -/
def Unfinished (x : Pool Ans σ α) (i : ℕ) : Prop := ∃ o k, x.task i = some (.eff o k)

/-- The next operation of the task is of the kind `P`. -/
def Performs (P : Op → Prop) (x : Pool Ans σ α) (i : ℕ) : Prop :=
  ∃ o k, x.task i = some (.eff (.base o) k) ∧ P o

section Tasks

variable {l : List (Option (GuardedProg Ans α))} {i j : ℕ} {v : Option (GuardedProg Ans α)}

theorem join_set_ne (h : i ≠ j) : (l.set i v)[j]?.join = l[j]?.join := by
  rw [List.getElem?_set_ne h]

theorem join_set_self (h : l[i]?.join ≠ none) : (l.set i v)[i]?.join = v := by
  have hi : i < l.length := by
    by_contra hi
    rw [List.getElem?_eq_none (by omega)] at h
    exact h rfl
  rw [List.getElem?_set_self hi]
  rfl

theorem join_set_none : (l.set i none)[i]?.join = none := by
  by_cases hi : i < l.length
  · rw [List.getElem?_set_self hi]
    rfl
  · rw [List.getElem?_eq_none (by rw [List.length_set]; omega)]
    rfl

theorem join_append (p : GuardedProg Ans α) (i : ℕ) :
    (l ++ [some p])[i]?.join = if i = l.length then some p else l[i]?.join := by
  split
  · rename_i hi
    rw [hi, List.getElem?_concat_length]
    rfl
  · rename_i hi
    by_cases hlt : i < l.length
    · rw [List.getElem?_append_left hlt]
    · rw [List.getElem?_eq_none (by rw [List.length_append, List.length_singleton]; omega),
        List.getElem?_eq_none (by omega)]

end Tasks

/-- The permits are sound, and every task is in the section that its permit says. -/
structure Sound (P : Op → Prop) (limit : ℕ) (x : Pool Ans σ α) : Prop where
  permits : x.permits.Sound limit
  sections : ∀ i p, x.task i = some p → Sectioned P (decide (i ∈ x.permits.holders)) p
  holds : ∀ i ∈ x.permits.holders, x.task i ≠ none
  asks : ∀ i, x.permits.Asks i → ∃ k, x.task i = some (.eff .acquire k)

section Invariant

variable {P : Op → Prop} {limit : ℕ} {x : Pool Ans σ α} {H : Handler Ans C σ}
  {starts : σ → GuardedProg Ans α → Prop} {admits : C → σ → Op → Prop}

theorem new_sound (P : Op → Prop) (limit : ℕ) (s : σ) :
    (new limit s : Pool Ans σ α).Sound P limit where
  permits := Semaphore.new_sound limit
  sections := fun i p h => by simp [new, task] at h
  holds := fun i h => by cases h
  asks := fun i h => by rcases h with h | h <;> cases h

/-- A task beyond the list has no place in the semaphore. -/
theorem Sound.start (h : x.Sound P limit) {p : GuardedProg Ans α} (hp : Sectioned P false p) :
    { x with tasks := x.tasks ++ [some p] }.Sound P limit := by
  obtain ⟨hpermits, hsections, hholds, hasks⟩ := h
  have hnew : x.task x.tasks.length = none := by
    rw [task, List.getElem?_eq_none (Nat.le_refl _)]
    rfl
  have hold : ∀ i q, x.task i = some q → { x with tasks := x.tasks ++ [some p] }.task i = some q := by
    intro i q hq
    have hne : i ≠ x.tasks.length := by
      rintro rfl
      rw [hnew] at hq
      cases hq
    unfold task at hq ⊢
    rw [join_append, if_neg hne, hq]
  refine ⟨hpermits, ?_, ?_, ?_⟩
  · intro i q hq
    unfold task at hq
    rw [join_append] at hq
    split at hq
    · rename_i hi
      cases hq
      have hout : i ∉ x.permits.holders := by
        intro hmem
        exact hholds i hmem (hi ▸ hnew)
      simpa [hout] using hp
    · exact hsections i q hq
  · intro i hi
    obtain ⟨q, hq⟩ := Option.ne_none_iff_exists'.mp (hholds i hi)
    rw [hold i q hq]
    simp
  · intro i hi
    obtain ⟨k, hk⟩ := hasks i hi
    exact ⟨k, hold i _ hk⟩

/-- One task goes on; the others keep their permits and their places. -/
theorem Sound.resume (h : x.Sound P limit) {i : ℕ} {p q : GuardedProg Ans α}
    (hi : x.task i = some p) (s : σ) {permits : Semaphore} (hpermits : permits.Sound limit)
    (hothers : ∀ j, j ≠ i → (j ∈ permits.holders ↔ j ∈ x.permits.holders))
    (hasks : ∀ j, permits.Asks j → x.permits.Asks j ∧ j ≠ i)
    (hq : Sectioned P (decide (i ∈ permits.holders)) q) :
    (⟨s, permits, x.tasks.set i (some q)⟩ : Pool Ans σ α).Sound P limit := by
  have hself : x.tasks[i]?.join ≠ none := by
    unfold task at hi
    rw [hi]
    simp
  refine ⟨hpermits, ?_, ?_, ?_⟩
  · intro j r hr
    unfold task at hr
    by_cases hij : i = j
    · subst j
      rw [join_set_self hself] at hr
      cases hr
      exact hq
    · rw [join_set_ne hij] at hr
      have hsame := h.sections j r hr
      rwa [← decide_eq_decide.mpr (hothers j (Ne.symm hij))] at hsame
  · intro j hj
    unfold task
    by_cases hij : i = j
    · subst j
      rw [join_set_self hself]
      simp
    · rw [join_set_ne hij]
      exact h.holds j ((hothers j (Ne.symm hij)).mp hj)
  · intro j hj
    obtain ⟨hold, hne⟩ := hasks j hj
    obtain ⟨k, hk⟩ := h.asks j hold
    refine ⟨k, ?_⟩
    unfold task
    rw [join_set_ne (Ne.symm hne)]
    exact hk

/-- A task that is not at the taking of a permit asks for none. -/
theorem Sound.asks_ne (h : x.Sound P limit) {i j : ℕ} {p : GuardedProg Ans α}
    (hi : x.task i = some p) (hp : ∀ k, p ≠ .eff .acquire k) (hj : x.permits.Asks j) : j ≠ i := by
  rintro rfl
  obtain ⟨k, hk⟩ := h.asks j hj
  rw [hi] at hk
  exact hp k (Option.some.inj hk)

theorem Sound.acquire (h : x.Sound P limit) {i : ℕ} {k : Unit → GuardedProg Ans α}
    (hi : x.task i = some (.eff .acquire k)) :
    ({ x with
      permits := (x.permits.request i).2
      tasks := if (x.permits.request i).1 then x.tasks.set i (some (k ())) else x.tasks } :
        Pool Ans σ α).Sound P limit := by
  obtain ⟨hout, hnext⟩ := h.sections i _ hi
  have hfree : i ∉ x.permits.holders := of_decide_eq_false hout
  have hrequest := Semaphore.request_sound h.permits hfree
  cases hanswer : (x.permits.request i).1 with
  | true =>
    obtain ⟨hholders, hasks⟩ := Semaphore.request_granted h.permits hanswer
    refine h.resume hi x.state hrequest ?_ hasks ?_
    · intro j hj
      rw [hholders, List.mem_cons]
      exact or_iff_right hj
    · rw [hholders]
      simpa using hnext
  | false =>
    obtain ⟨-, hholders, hasks⟩ := Semaphore.request_refused hanswer
    refine ⟨hrequest, ?_, ?_, ?_⟩
    · intro j q hq
      rw [hholders]
      exact h.sections j q hq
    · intro j hj
      exact h.holds j (hholders ▸ hj)
    · intro j hj
      rcases hasks j hj with hj | rfl
      · exact h.asks j hj
      · exact ⟨k, hi⟩

theorem Sound.release (h : x.Sound P limit) {i : ℕ} {k : Unit → GuardedProg Ans α}
    (hi : x.task i = some (.eff .release k)) :
    ({ x with permits := x.permits.release i, tasks := x.tasks.set i (some (k ())) } :
      Pool Ans σ α).Sound P limit := by
  obtain ⟨-, hnext⟩ := h.sections i _ hi
  have hnodup := h.permits.nodup_holders
  refine h.resume hi x.state (Semaphore.release_sound h.permits i) ?_ ?_ ?_
  · intro j hj
    rw [Semaphore.release_holders]
    exact List.mem_erase_of_ne hj
  · intro j hj
    rw [Semaphore.release_asks] at hj
    exact ⟨hj, h.asks_ne hi (fun _ he => by cases he) hj⟩
  · rw [Semaphore.release_holders]
    simpa [hnodup.not_mem_erase] using hnext

theorem Sound.drop (h : x.Sound P limit) (i : ℕ) :
    ({ x with permits := x.permits.cancel i, tasks := x.tasks.set i none } :
      Pool Ans σ α).Sound P limit := by
  have hnodup := h.permits.nodup_holders
  have hholders : ∀ j, j ∈ (x.permits.cancel i).holders ↔ j ≠ i ∧ j ∈ x.permits.holders := by
    intro j
    rw [Semaphore.cancel_holders]
    exact hnodup.mem_erase_iff
  have hothers : ∀ j, j ≠ i → (x.tasks.set i none)[j]?.join = x.task j :=
    fun j hj => join_set_ne (Ne.symm hj)
  refine ⟨Semaphore.cancel_sound h.permits i, ?_, ?_, ?_⟩
  · intro j q hq
    unfold task at hq
    by_cases hij : j = i
    · subst j
      rw [join_set_none] at hq
      cases hq
    · rw [hothers j hij] at hq
      have hsame := h.sections j q hq
      have hiff : j ∈ (x.permits.cancel i).holders ↔ j ∈ x.permits.holders := by
        rw [hholders]
        exact and_iff_right hij
      rwa [← decide_eq_decide.mpr hiff] at hsame
  · intro j hj
    obtain ⟨hij, hj⟩ := (hholders j).mp hj
    unfold task
    rw [hothers j hij]
    exact h.holds j hj
  · intro j hj
    obtain ⟨hold, hij⟩ := Semaphore.cancel_asks h.permits hj
    obtain ⟨k, hk⟩ := h.asks j hold
    refine ⟨k, ?_⟩
    unfold task
    rw [hothers j hij]
    exact hk

/-- Every move keeps the pool sound. -/
theorem Sound.move (hstarts : ∀ s p, starts s p → Sectioned P false p) (h : x.Sound P limit)
    {m : Move Ans C α} (hm : x.Allows starts admits m) : (x.move H m).Sound P limit := by
  cases m with
  | start p => exact h.start (hstarts _ _ hm)
  | drop i => exact h.drop i
  | run i c =>
    unfold Pool.move
    dsimp only
    split
    · rename_i o k hi
      refine h.resume hi _ h.permits (fun _ _ => Iff.rfl) ?_ ((h.sections i _ hi).2 _)
      exact fun j hj => ⟨hj, h.asks_ne hi (fun _ he => by cases he) hj⟩
    · rename_i k hi
      exact h.acquire hi
    · rename_i k hi
      exact h.release hi
    · exact h

theorem Reached.sound {init : σ → Prop} (hstarts : ∀ s p, starts s p → Sectioned P false p)
    (h : Reached H starts admits init limit x) : x.Sound P limit := by
  induction h with
  | new _ => exact new_sound P limit _
  | move _ hm ih => exact ih.move hstarts hm

end Invariant

section Consequences

variable {P : Op → Prop} {limit : ℕ} {x : Pool Ans σ α}

/-- Who performs an operation of the kind `P` holds a permit. -/
theorem Sound.performs_holds (h : x.Sound P limit) {i : ℕ} (hi : x.Performs P i) :
    i ∈ x.permits.holders := by
  obtain ⟨o, k, htask, ho⟩ := hi
  exact of_decide_eq_true ((h.sections i _ htask).1 ho)

/-- No more tasks perform operations of the kind `P` at once than there are permits. -/
theorem Sound.performs_le (h : x.Sound P limit) {busy : List ℕ} (hnodup : busy.Nodup)
    (hbusy : ∀ i ∈ busy, x.Performs P i) : busy.length ≤ limit := by
  have hsubset : busy ⊆ x.permits.holders := fun i hi => h.performs_holds (hbusy i hi)
  exact (List.subperm_of_subset hnodup hsubset).length_le.trans h.permits.holders_le

/-- A task that holds a permit can go on. -/
theorem Sound.holder_enabled (h : x.Sound P limit) {i : ℕ} (hi : i ∈ x.permits.holders) :
    x.Enabled i := by
  obtain ⟨p, hp⟩ := Option.ne_none_iff_exists'.mp (h.holds i hi)
  have hsection := h.sections i p hp
  rw [decide_eq_true hi] at hsection
  unfold Enabled
  rw [hp]
  cases p with
  | ret a => cases hsection
  | eff o k =>
    cases o with
    | acquire => cases hsection.1
    | release => trivial
    | base o => trivial

/-- A task that has been handed a permit can go on. -/
theorem Sound.granted_enabled (h : x.Sound P limit) {i : ℕ} (hi : i ∈ x.permits.granted) :
    x.Enabled i := by
  obtain ⟨k, hk⟩ := h.asks i (.inr hi)
  unfold Enabled
  rw [hk]
  by_contra hrefused
  exact (Semaphore.blocked h.permits (Bool.not_eq_true _ ▸ hrefused)).2 hi

/-- While there is at least one permit, a pool with an unfinished task can go on: a task that
is refused leaves the permits with others, and one of these goes on. -/
theorem Sound.progress (h : x.Sound P limit) (hlimit : 0 < limit) {i : ℕ} (hi : x.Unfinished i) :
    ∃ j, x.Enabled j := by
  obtain ⟨o, k, htask⟩ := hi
  by_cases henabled : x.Enabled i
  · exact ⟨i, henabled⟩
  · unfold Enabled at henabled
    rw [htask] at henabled
    cases o with
    | release => exact absurd trivial henabled
    | base o => exact absurd trivial henabled
    | acquire =>
      obtain ⟨hfree, -⟩ := Semaphore.blocked h.permits (Bool.not_eq_true _ ▸ henabled)
      have hconserved := h.permits.conserved
      cases hgranted : x.permits.granted with
      | cons j rest =>
        exact ⟨j, h.granted_enabled (by rw [hgranted]; exact List.mem_cons_self)⟩
      | nil =>
        cases hholders : x.permits.holders with
        | cons j rest => exact ⟨j, h.holder_enabled (by rw [hholders]; exact List.mem_cons_self)⟩
        | nil =>
          rw [hfree, hgranted, hholders] at hconserved
          simp only [List.length_nil] at hconserved
          omega

/-- Without any permit nobody gets past the taking of one. -/
theorem Sound.stuck (h : x.Sound P 0) {i : ℕ} {k : Unit → GuardedProg Ans α}
    (hi : x.task i = some (.eff .acquire k)) : ¬ x.Enabled i := by
  unfold Enabled
  rw [hi]
  intro hanswer
  have hholders := (Semaphore.request_granted h.permits hanswer).1
  have hle := (Semaphore.request_sound h.permits
    (of_decide_eq_false (h.sections i _ hi).1)).holders_le
  rw [hholders, List.length_cons] at hle
  omega

end Consequences

section Simulation

variable {H : Handler Ans C σ} {starts : σ → GuardedProg Ans α → Prop}
  {admits : C → σ → Op → Prop} {init : σ → Prop} {limit : ℕ} {x : Pool Ans σ α}

/-- The tasks that have not been dropped are the programs, up to permits. -/
structure Covers (tasks : List (Option (GuardedProg Ans α))) (ps : List (Prog Ans α)) : Prop where
  length : tasks.length = ps.length
  erased : ∀ (i : ℕ) p, tasks[i]?.join = some p → ps[i]? = some (erase p)

theorem Covers.set {tasks : List (Option (GuardedProg Ans α))} {ps : List (Prog Ans α)}
    (h : Covers tasks ps) {i : ℕ} (hi : tasks[i]?.join ≠ none) (q : GuardedProg Ans α) :
    Covers (tasks.set i (some q)) (ps.set i (erase q)) := by
  obtain ⟨hlength, herased⟩ := h
  obtain ⟨r, hr⟩ := Option.ne_none_iff_exists'.mp hi
  have hlt : i < ps.length := (List.getElem?_eq_some_iff.mp (herased i r hr)).1
  refine ⟨by rw [List.length_set, List.length_set, hlength], ?_⟩
  intro j p hp
  by_cases hij : i = j
  · subst j
    rw [join_set_self hi] at hp
    cases hp
    exact List.getElem?_set_self hlt
  · rw [join_set_ne hij] at hp
    rw [List.getElem?_set_ne hij]
    exact herased j p hp

/-- What a task does to permits leaves its plain program as it is. -/
theorem Covers.silent {tasks : List (Option (GuardedProg Ans α))} {ps : List (Prog Ans α)}
    (h : Covers tasks ps) {i : ℕ} {p q : GuardedProg Ans α} (hi : tasks[i]?.join = some p)
    (hq : erase p = erase q) : Covers (tasks.set i (some q)) ps := by
  have hset := h.set (i := i) (by rw [hi]; simp) q
  have hsame : ps.set i (erase q) = ps := by
    apply List.ext_getElem?
    intro j
    by_cases hij : i = j
    · subst j
      have hp := h.erased i p hi
      rw [List.getElem?_set_self (List.getElem?_eq_some_iff.mp hp).1, hp, hq]
    · rw [List.getElem?_set_ne hij]
  rwa [hsame] at hset

theorem Covers.drop {tasks : List (Option (GuardedProg Ans α))} {ps : List (Prog Ans α)}
    (h : Covers tasks ps) (i : ℕ) : Covers (tasks.set i none) ps := by
  refine ⟨by rw [List.length_set, h.length], ?_⟩
  intro j p hp
  by_cases hij : i = j
  · subst j
    rw [join_set_none] at hp
    cases hp
  · rw [join_set_ne hij] at hp
    exact h.erased j p hp

theorem Covers.start {tasks : List (Option (GuardedProg Ans α))} {ps : List (Prog Ans α)}
    (h : Covers tasks ps) (q : GuardedProg Ans α) :
    Covers (tasks ++ [some q]) (ps ++ [erase q]) := by
  obtain ⟨hlength, herased⟩ := h
  refine ⟨by simp [hlength], ?_⟩
  intro j p hp
  rw [join_append] at hp
  split at hp
  · rename_i hj
    cases hp
    rw [hj, hlength, List.getElem?_concat_length]
  · have hold := herased j p hp
    rw [List.getElem?_append_left (List.getElem?_eq_some_iff.mp hold).1, hold]

/-- Forgetting permits and dropped tasks leaves an interleaving of the plain programs that
reaches the same state. -/
theorem Reached.erased (h : Reached H starts admits init limit x) :
    ∃ ps, Reach H (fun s p => ∃ q, starts s q ∧ p = erase q) admits init x.state ps ∧
      Covers x.tasks ps := by
  induction h with
  | new hs =>
    refine ⟨[], .init hs, ⟨rfl, ?_⟩⟩
    intro i p hp
    simp [Pool.new] at hp
  | @move x m reached hm ih =>
    obtain ⟨ps, hreach, hcovers⟩ := ih
    cases m with
    | start p => exact ⟨_, hreach.start ⟨p, hm, rfl⟩, hcovers.start p⟩
    | drop i => exact ⟨ps, hreach, hcovers.drop i⟩
    | run i c =>
      unfold Allows at hm
      unfold Pool.move
      dsimp only at hm ⊢
      split
      · rename_i o k hi
        rw [hi] at hm
        exact ⟨_, hreach.step (hcovers.erased i _ hi) hm,
          hcovers.set (by unfold task at hi; rw [hi]; simp) _⟩
      · rename_i k hi
        refine ⟨ps, hreach, ?_⟩
        dsimp only
        split
        · exact hcovers.silent hi rfl
        · exact hcovers
      · rename_i k hi
        exact ⟨ps, hreach, hcovers.silent hi rfl⟩
      · exact ⟨ps, hreach, hcovers⟩

end Simulation

section Fairness

variable {P : Op → Prop} {limit : ℕ} {x : Pool Ans σ α} {H : Handler Ans C σ}
  {starts : σ → GuardedProg Ans α → Prop} {admits : C → σ → Op → Prop}

/-- One move overtakes nobody who waits before and after it. -/
theorem Sound.fair (h : x.Sound P limit) {i : ℕ} (hi : i ∈ x.permits.waiting) {m : Move Ans C α}
    (hm : i ∈ (x.move H m).permits.waiting) :
    Semaphore.Fair i x.permits (x.move H m).permits := by
  cases m with
  | start p => exact .refl i _
  | drop j => exact Semaphore.cancel_fair h.permits hi hm
  | run j c =>
    unfold Pool.move at hm ⊢
    dsimp only at hm ⊢
    split at hm
    · exact .refl i _
    · exact Semaphore.request_fair h.permits hi j
    · exact Semaphore.release_fair h.permits hi hm
    · exact .refl i _

/-- A run of moves, in each state of which task `i` waits. -/
inductive Waits (H : Handler Ans C σ) (starts : σ → GuardedProg Ans α → Prop)
    (admits : C → σ → Op → Prop) (i : ℕ) (x : Pool Ans σ α) : Pool Ans σ α → Prop where
  | here (hi : i ∈ x.permits.waiting) : Waits H starts admits i x x
  | move {y m} (run : Waits H starts admits i x y) (hm : y.Allows starts admits m)
      (hi : i ∈ (y.move H m).permits.waiting) : Waits H starts admits i x (y.move H m)

theorem Waits.last {y : Pool Ans σ α} {i : ℕ} (h : Waits H starts admits i x y) :
    i ∈ y.permits.waiting := by
  cases h with
  | here hi => exact hi
  | move _ _ hi => exact hi

/-- As long as a task waits, nobody overtakes it. -/
theorem Waits.fair (hstarts : ∀ s p, starts s p → Sectioned P false p) (hx : x.Sound P limit)
    {y : Pool Ans σ α} {i : ℕ} (h : Waits H starts admits i x y) :
    y.Sound P limit ∧ Semaphore.Fair i x.permits y.permits := by
  induction h with
  | here _ => exact ⟨hx, .refl i _⟩
  | move run hm hi ih =>
    obtain ⟨hsound, hfair⟩ := ih
    exact ⟨hsound.move hstarts hm, hfair.trans (hsound.fair run.last hi)⟩

end Fairness

end Pool

end IamService.EffectPrograms
