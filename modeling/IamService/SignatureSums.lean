import IamService.OperationFootprints

/-!
# Two signatures side by side

Programs over two signatures run together over the sum of the signatures. The state is a pair,
and an operation of one signature leaves the state of the other alone.
-/

namespace IamService.EffectPrograms

universe u

variable {Op Op' : Type} {Ans : Op → Type} {Ans' : Op' → Type} {α : Type} {C : Type} {σ τ : Type u}

/-- What answers an operation of either signature. -/
@[reducible] def SumAns (Ans : Op → Type) (Ans' : Op' → Type) : Op ⊕ Op' → Type
  | .inl o => Ans o
  | .inr o => Ans' o

namespace Prog

/-- A program over the first signature. -/
def left : Prog Ans α → Prog (SumAns Ans Ans') α
  | .ret a => .ret a
  | .eff o k => .eff (.inl o) (fun x => (k x).left)

/-- A program over the second signature. -/
def right : Prog Ans' α → Prog (SumAns Ans Ans') α
  | .ret a => .ret a
  | .eff o k => .eff (.inr o) (fun x => (k x).right)

end Prog

/-- Two handlers, each for its own part of the state. -/
def beside (H : Handler Ans C σ) (H' : Handler Ans' C τ) : Handler (SumAns Ans Ans') C (σ × τ) :=
  fun c s o => match o with
    | .inl o => ((H c s.1 o).1, (H c s.1 o).2, s.2)
    | .inr o => ((H' c s.2 o).1, s.1, (H' c s.2 o).2)

variable {P : Op → Prop} {R : Op' → Prop}

theorem Issues.left {p : Prog Ans α} (h : Issues P p) :
    Issues (Sum.elim P R) (p.left : Prog (SumAns Ans Ans') α) := by
  induction p with
  | ret a => trivial
  | eff o k ih => exact ⟨h.1, fun x => ih x (h.2 x)⟩

theorem Issues.right {p : Prog Ans' α} (h : Issues R p) :
    Issues (Sum.elim P R) (p.right : Prog (SumAns Ans Ans') α) := by
  induction p with
  | ret a => trivial
  | eff o k ih => exact ⟨h.1, fun x => ih x (h.2 x)⟩

/-- What the operations of two footprints preserve of their parts, every interleaving of programs
within them preserves. -/
theorem Reach.preservesBoth {H : Handler Ans C σ} {H' : Handler Ans' C τ}
    {admits : C → σ × τ → Op ⊕ Op' → Prop} {starts : σ × τ → Prog (SumAns Ans Ans') α → Prop}
    {rel : σ → σ → Prop} {rel' : τ → τ → Prop} (refl : ∀ s, rel s s) (refl' : ∀ t, rel' t t)
    (trans : ∀ {s t r}, rel s t → rel t r → rel s r)
    (trans' : ∀ {s t r}, rel' s t → rel' t r → rel' s r)
    (hstep : ∀ c s o, P o → rel s (H c s o).2) (hstep' : ∀ c t o, R o → rel' t (H' c t o).2)
    (hstarts : ∀ s p, starts s p → Issues (Sum.elim P R) p) {s₀ s : σ × τ}
    {ps : List (Prog (SumAns Ans Ans') α)}
    (h : Reach (beside H H') starts admits (fun t => t = s₀) s ps) :
    rel s₀.1 s.1 ∧ rel' s₀.2 s.2 := by
  refine Reach.preserves (P := Sum.elim P R) (fun s t => rel s.1 t.1 ∧ rel' s.2 t.2)
    (fun s => ⟨refl s.1, refl' s.2⟩) ?_ ?_ hstarts h
  · intro s t r h h'
    exact ⟨trans h.1 h'.1, trans' h.2 h'.2⟩
  · intro c s o ho
    cases o with
    | inl o => exact ⟨hstep c s.1 o ho, refl' s.2⟩
    | inr o => exact ⟨refl s.1, hstep' c s.2 o ho⟩

end IamService.EffectPrograms
