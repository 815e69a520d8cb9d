import IamService.MethodFootprints

/-!
# Confirming a registration on chain

What the polling loop establishes, for every discipline that lets it look and wait: it
answers `true` only in a state in which the account exists. It does not say which
transaction created the account.
-/

namespace IamService.ChainConfirmation
open EffectPrograms

variable {self : AuthService}

/-- An account is reported only if it exists. -/
theorem accountExists_seen {c : Choice} {w : self.State} {pda : Pubkey}
    (h : (self.handle c w (.chain (.accountExists pda))).1.toOption.getD false = true) :
    (self.handle c w (.chain (.accountExists pda))).2.chain.Exists pda := by
  rw [AuthService.handle_chain] at h ⊢
  simp only [BlockchainProvider.handle] at h ⊢
  split at h
  · simp [Except.toOption] at h
  · simp only [Except.toOption, Option.getD_some, Bool.and_eq_true] at h
    exact h.2

section Polling

variable {D : Discipline Op Choice self.State}
  (hD : ∀ w (o : Op), o.kind ∈ [OpKind.lookAccount, .sleep, .submit] → D.permits w o)
include hD

/-- A poll that ends well has seen the account. -/
theorem pollAccount_safe (pda : Pubkey) (n : ℕ) (w : self.State) :
    Safe self.handle D (fun seen v => seen = true → v.chain.Exists pda)
      (AuthService.pollAccount pda n) w := by
  induction n generalizing w with
  | zero =>
    intro h
    cases h
  | succ n ih =>
    intro t _ _
    refine ⟨hD t _ (by simp), ?_⟩
    intro c _
    change Safe self.handle D _
      (if ((self.handle c t (.chain (.accountExists pda))).1.toOption.getD false) = true
        then pure true else do
          host (.sleep 750)
          AuthService.pollAccount pda n) _
    split
    · rename_i hseen
      exact fun _ => accountExists_seen hseen
    · exact fun t' _ _ => ⟨hD t' _ (by simp), fun c' _ => ih _⟩

theorem confirmRegistered_safe (pubkey : Pubkey) (w : self.State) :
    Safe self.handle D (fun seen v => seen = true →
      ∃ pda, self.registryPda pubkey = some pda ∧ v.chain.Exists pda)
      (self.confirmRegistered pubkey) w := by
  unfold AuthService.confirmRegistered
  cases hp : self.registryPda pubkey with
  | none =>
    intro h
    cases h
  | some pda => exact (pollAccount_safe hD pda 20 w).mono (fun seen v h hs => ⟨pda, rfl, h hs⟩)

/-- A submission or a lookup, whatever it answers. -/
theorem blockchain_safe {ε β : Type} {Q : Except ε β → self.State → Prop} {q : ChainOp}
    {f : q.Ans → Fallible Op.Ans ε β} {w : self.State}
    (h : ∀ a v, Safe self.handle D Q (f a).run v) :
    Safe self.handle D Q (observe (blockchain q) >>= f).run w := by
  refine Safe.observeBind ?_
  intro t _ _
  have hkind : (Op.chain q).kind ∈ [OpKind.lookAccount, .sleep, .submit] := by
    cases q <;> simp
  exact ⟨hD t _ hkind, fun _ _ => h _ _⟩

end Polling

end IamService.ChainConfirmation
