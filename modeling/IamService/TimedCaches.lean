import IamService.ExpiringStore
import Mathlib.Data.List.Induction
import Mathlib.Data.List.Infix

/-!
# Caches filled from a source that changes

A run moves a state with a clock and a store. When every entry that matters was there
before a step or was stored by it with a fixed time to live and with what a source granted
at that moment, then whatever is read was granted less than a time to live ago.
-/

namespace IamService.TimedCaches
open ExpiringStore

variable {σ S K V : Type}

/-- How a run moves, and the clock and the store of its states. -/
structure Timeline (σ S K V : Type) where
  advance : σ → S → σ
  clock : σ → ℕ
  cache : σ → Store K V

namespace Timeline

def after (T : Timeline σ S K V) (w : σ) (steps : List S) : σ := steps.foldl T.advance w

variable {T : Timeline σ S K V}

@[simp] theorem after_nil (w : σ) : T.after w [] = w := rfl

@[simp] theorem after_append (w : σ) (steps : List S) (s : S) :
    T.after w (steps ++ [s]) = T.advance (T.after w steps) s := by
  simp [after]

end Timeline

/-- Steps that let time pass and store what the source grants, for `ttl`. -/
structure Refreshes (T : Timeline σ S K V) (ttl : ℕ) (admissible : S → Prop)
    (matters : K → V → Prop) (grants : σ → K → V → Prop) : Prop where
  clock_le : ∀ w s, admissible s → T.clock w ≤ T.clock (T.advance w s)
  entry : ∀ w s, admissible s → ∀ k e, T.cache (T.advance w s) k = some e → matters k e.value →
    T.cache w k = some e ∨ grants w k e.value ∧ e.expiresAt = some (T.clock w + ttl)

namespace Refreshes

variable {T : Timeline σ S K V} {ttl : ℕ} {admissible : S → Prop} {matters : K → V → Prop}
  {grants : σ → K → V → Prop} {w : σ} {steps : List S}

theorem clock_le_after (h : Refreshes T ttl admissible matters grants) {past : List S}
    (hpast : past <+: steps) (hsteps : ∀ s ∈ steps, admissible s) :
    T.clock (T.after w past) ≤ T.clock (T.after w steps) := by
  induction steps using List.reverseRecOn with
  | nil =>
    rw [List.prefix_nil.mp hpast]
  | append_singleton steps s ih =>
    rcases List.prefix_concat_iff.mp hpast with rfl | hpast
    · exact Nat.le_refl _
    · have hprior := ih hpast (fun s hs => hsteps s (List.mem_append_left _ hs))
      rw [Timeline.after_append]
      exact hprior.trans (h.clock_le _ s (hsteps s (by simp)))

/-- An entry that matters was stored at some moment of the run, with what the source granted. -/
theorem entry_granted (h : Refreshes T ttl admissible matters grants)
    (hw : ∀ k e, T.cache w k = some e → ¬ matters k e.value) (hsteps : ∀ s ∈ steps, admissible s)
    {k : K} {e : Entry V} (he : T.cache (T.after w steps) k = some e) (hm : matters k e.value) :
    ∃ past, past <+: steps ∧ grants (T.after w past) k e.value ∧
      e.expiresAt = some (T.clock (T.after w past) + ttl) := by
  induction steps using List.reverseRecOn with
  | nil => exact absurd hm (hw k e he)
  | append_singleton steps s ih =>
    rw [Timeline.after_append] at he
    rcases h.entry _ s (hsteps s (by simp)) k e he hm with hold | hnew
    · obtain ⟨past, hpast, hgrants⟩ := ih (fun s hs => hsteps s (List.mem_append_left _ hs)) hold
      exact ⟨past, hpast.trans (List.prefix_append _ _), hgrants⟩
    · exact ⟨steps, List.prefix_append _ _, hnew⟩

/-- What is read was granted less than a time to live ago. -/
theorem read_granted (h : Refreshes T ttl admissible matters grants)
    (hw : ∀ k e, T.cache w k = some e → ¬ matters k e.value) (hsteps : ∀ s ∈ steps, admissible s)
    {k : K} {v : V} (hget : (T.cache (T.after w steps)).get (T.clock (T.after w steps)) k = some v)
    (hm : matters k v) :
    ∃ past, past <+: steps ∧ T.clock (T.after w steps) ≤ T.clock (T.after w past) + ttl ∧
      T.clock (T.after w past) ≤ T.clock (T.after w steps) ∧ grants (T.after w past) k v := by
  obtain ⟨e, he, hvisible, rfl⟩ := Store.get_eq_some.mp hget
  obtain ⟨past, hpast, hgrants, hexpiry⟩ := h.entry_granted hw hsteps he hm
  refine ⟨past, hpast, ?_, h.clock_le_after hpast hsteps, hgrants⟩
  simp only [Entry.visible, hexpiry, decide_eq_true_eq] at hvisible
  exact hvisible.le

end Refreshes

end IamService.TimedCaches
