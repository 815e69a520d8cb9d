import IamService.RelyGuarantee

/-!
# What a program has yet to do

A program owes an operation when it issues the operation before it returns, whatever is
answered. An answer may call for further operations, and a dutiful program owes them from then
on. In every interleaving of dutiful programs, what an answer has called for has been done
since or is still owed by a program that runs.
-/

namespace IamService.EffectPrograms

universe u

variable {Op : Type} {Ans : Op → Type} {α β : Type} {C : Type} {σ : Type u}

/-- The program issues the operation on every path. -/
def Owes (o : Op) : Prog Ans α → Prop
  | .ret _ => False
  | .eff o' k => o' = o ∨ ∀ x, Owes o (k x)

/-- The program owes what the answers to its operations call for. -/
def Dutiful (due : (o : Op) → Ans o → Op → Prop) : Prog Ans α → Prop
  | .ret _ => True
  | .eff o k => ∀ x, (∀ o', due o x o' → Owes o' (k x)) ∧ Dutiful due (k x)

variable {o : Op} {due : (o : Op) → Ans o → Op → Prop}

@[simp] theorem owes_ret (a : α) : ¬ Owes o (.ret a : Prog Ans α) := fun h => h

@[simp] theorem dutiful_ret (a : α) : Dutiful due (.ret a : Prog Ans α) := trivial

/-- What the first part owes, a composition owes. -/
theorem Owes.bind {p : Prog Ans α} (h : Owes o p) (f : α → Prog Ans β) : Owes o (p >>= f) := by
  induction p with
  | ret a => exact absurd h (owes_ret a)
  | eff o' k ih =>
    rcases h with h | h
    · exact .inl h
    · exact .inr (fun x => ih x (h x))

/-- What the second part owes in any case, a composition owes. -/
theorem Owes.after (p : Prog Ans α) {f : α → Prog Ans β} (h : ∀ a, Owes o (f a)) :
    Owes o (p >>= f) := by
  induction p with
  | ret a => exact h a
  | eff o' k ih => exact .inr ih

theorem Dutiful.bind {p : Prog Ans α} {f : α → Prog Ans β} (h : Dutiful due p)
    (hf : ∀ a, Dutiful due (f a)) : Dutiful due (p >>= f) := by
  induction p with
  | ret a => exact hf a
  | eff o k ih =>
    intro x
    obtain ⟨howes, hrest⟩ := h x
    exact ⟨fun o' ho' => (howes o' ho').bind f, ih x hrest⟩

section Interleavings

variable {H : Handler Ans C σ} {starts : σ × List (Observed Ans σ) → Prog Ans α → Prop}
  {admits : C → σ × List (Observed Ans σ) → Op → Prop} {init : σ × List (Observed Ans σ) → Prop}
  {s : σ × List (Observed Ans σ)} {ps : List (Prog Ans α)}

/-- A program that owes an operation still does after a step of the pool, unless the step was
that operation. -/
theorem owes_set {i : ℕ} {o' : Op} {k : Ans o' → Prog Ans α} (next : ps[i]? = some (.eff o' k))
    (x : Ans o') (h : ∃ p ∈ ps, Owes o p) : o' = o ∨ ∃ p ∈ ps.set i (k x), Owes o p := by
  obtain ⟨p, hp, howes⟩ := h
  obtain ⟨j, hj⟩ := List.mem_iff_getElem?.mp hp
  by_cases hji : j = i
  · subst hji
    obtain rfl : .eff o' k = p := Option.some.inj (next.symm.trans hj)
    rcases howes with howes | howes
    · exact .inl howes
    · exact .inr ⟨k x, List.mem_set (List.getElem?_eq_some_iff.mp next).1 _, howes x⟩
  · refine .inr ⟨p, List.mem_of_getElem? (i := j) ?_, howes⟩
    rw [List.getElem?_set_ne (Ne.symm hji)]
    exact hj

/-- In every interleaving of dutiful programs, what an answer has called for has been done
since, or is owed by a program. -/
theorem Reach.owed (hinit : ∀ s, init s → s.2 = []) (hstarts : ∀ s p, starts s p → Dutiful due p)
    (h : Reach (recorded H) starts admits init s ps) {before after : List (Observed Ans σ)}
    {x : Observed Ans σ} (hs : s.2 = before ++ x :: after) (hdue : due x.op x.ans o) :
    (∃ y ∈ after, y.op = o) ∨ ∃ p ∈ ps, Owes o p := by
  induction h generalizing before after with
  | init h =>
    rw [hinit _ h] at hs
    simp at hs
  | start _ _ ih =>
    rcases ih hs with hdone | ⟨p, hp, howes⟩
    · exact .inl hdone
    · exact .inr ⟨p, List.mem_append_left _ hp, howes⟩
  | @step s ps i o' k c reached next _ ih =>
    rw [recorded_history] at hs
    -- the last operation is the one in question, or comes after it
    rcases List.eq_nil_or_concat after with rfl | ⟨after', z, rfl⟩
    · obtain ⟨-, hlast⟩ := List.append_inj' hs rfl
      obtain rfl := List.head_eq_of_cons_eq hlast
      have hdutiful : Dutiful due (.eff o' k) :=
        Reach.hereditary hstarts (fun _ _ hp a => (hp a).2) reached _ (List.mem_of_getElem? next)
      refine .inr ⟨_, List.mem_set (List.getElem?_eq_some_iff.mp next).1 _, ?_⟩
      exact (hdutiful _).1 o hdue
    · have hsplit : s.2 ++ [⟨s.1, o', (H c s.1 o').1, (H c s.1 o').2⟩] =
          (before ++ x :: after') ++ [z] := by
        rw [hs]
        simp
      obtain ⟨hbefore, hlast⟩ := List.append_inj' hsplit rfl
      obtain rfl := List.head_eq_of_cons_eq hlast
      rcases ih hbefore with ⟨y, hy, hop⟩ | howed
      · exact .inl ⟨y, by simp [hy], hop⟩
      · rcases owes_set next (recorded H c s o').1 howed with rfl | howed
        · exact .inl ⟨⟨s.1, o', (H c s.1 o').1, (H c s.1 o').2⟩, by simp, rfl⟩
        · exact .inr howed

end Interleavings

end IamService.EffectPrograms
