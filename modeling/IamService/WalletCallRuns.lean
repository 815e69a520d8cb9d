import IamService.MethodFootprints
import IamService.WalletStatements

/-!
# Wallet calls served alone

The runs of `linkWallet`, `setPrimaryWallet` and `unlinkWallet` up to the point where
the tables are settled, each as one equation over the statements it executes.
-/

namespace IamService.AuthService
open EffectPrograms WalletRepository

variable (self : AuthService) (w : self.State) (o : ℕ → Choice) (userId : Uuid)

/-- The answer of a statement without text parameters when the database is down. -/
def unavailable {α : Type} (c : Choice) : Result α := .error (.database .unavailable c.errorText)

theorem linkWallet_run (walletAddress : String) (label : Option String) (isPrimary : Bool) :
    run self.handle (self.linkWallet userId walletAddress label isPrimary).run o w =
      match self.lib.parsePubkey walletAddress with
      | .error e => (.error (.badRequest ("invalid wallet address: " ++ e)), w)
      | .ok _ =>
        if (o 0).fails then (unavailable (o 0), w.evolve (o 0))
        else if hasAnyWallet w.db userId && isPrimary then
          if (o 1).fails then (unavailable (o 1), (w.evolve (o 0)).evolve (o 1))
          else run self.handle (self.insertLinked userId walletAddress label isPrimary true).run
            (fun n => o (n + 2))
            { (w.evolve (o 0)).evolve (o 1) with db := demote w.db userId }
        else run self.handle (self.insertLinked userId walletAddress label isPrimary
          (hasAnyWallet w.db userId)).run (fun n => o (n + 1)) (w.evolve (o 0)) := by
  unfold linkWallet
  cases self.lib.parsePubkey walletAddress with
  | error e => rfl
  | ok pubkey =>
    simp only [run_bind', run_attempt, walletRepo, Prog.eff_bind, Prog.ret_bind, run_eff,
      handle_wallet, WalletRepository.handle, select_nil]
    cases (o 0).fails with
    | true => rfl
    | false =>
      simp only [Bool.false_eq_true, if_false, proceed_ok]
      cases hasAnyWallet w.db userId <;> cases isPrimary <;> try rfl
      simp only [Bool.and_self, if_true, run_bind', run_attempt, Prog.eff_bind, Prog.ret_bind,
        run_eff, handle_wallet, WalletRepository.handle, clearPrimary_eq]
      cases (o (0 + 1)).fails <;> rfl

/-- The insertion decides what remains of a link: refused, it ends the call. -/
theorem insertLinked_run (walletAddress : String) (label : Option String)
    (isPrimary hasExisting : Bool) :
    run self.handle (self.insertLinked userId walletAddress label isPrimary hasExisting).run o w =
      let q := WalletRepository.insert (o 0) (w.now + (o 0).elapsed) w.db userId walletAddress label
        isPrimary
      match q.1 with
      | .error e => (.error e, { w.evolve (o 0) with db := q.2 })
      | .ok wallet => run self.handle
          (self.afterInsert userId walletAddress isPrimary hasExisting wallet).run
          (fun n => o (n + 1)) { w.evolve (o 0) with db := q.2 } := by
  simp only [insertLinked, run_bind', run_attempt, walletRepo, Prog.eff_bind, Prog.ret_bind,
    run_eff, handle_wallet, WalletRepository.handle, World.evolve_now]
  cases (WalletRepository.insert (o 0) (w.now + (o 0).elapsed) w.db userId walletAddress label
    isPrimary).1 <;> rfl

theorem setPrimaryWallet_run (walletId : Uuid) :
    run self.handle (setPrimaryWallet userId walletId).run o w =
      if (o 0).fails then (unavailable (o 0), w.evolve (o 0))
      else
        let v := { w.evolve (o 0) with db := (setPrimary (o 0) w.db userId walletId).2 }
        match (promoted w.db userId walletId).find? (isWallet userId walletId) with
        | none => (.error (.notFound "Wallet not found"), v)
        | some r => (.ok r.intoDomain,
            (self.handle (o 1) v (.user (.setWalletAddress userId r.walletAddress))).2) := by
  simp only [setPrimaryWallet, run_bind', run_attempt, walletRepo, Prog.eff_bind, Prog.ret_bind,
    run_eff, handle_wallet, WalletRepository.handle, setPrimary_eq]
  cases (o 0).fails with
  | true => rfl
  | false =>
    simp only [Bool.false_eq_true, if_false, proceed_ok]
    cases (promoted w.db userId walletId).find? (isWallet userId walletId) <;> rfl

theorem unlinkWallet_run (walletId : Uuid) :
    run self.handle (unlinkWallet userId walletId).run o w =
      if (o 0).fails then (unavailable (o 0), w.evolve (o 0))
      else
        let v := { w.evolve (o 0) with
          db := w.db.keepWallets (fun r => !removable userId walletId r) }
        if w.db.wallets.any (removable userId walletId) then (.ok (), v)
        else if (o 1).fails then (unavailable (o 1), v.evolve (o 1))
        else if v.db.wallets.any (isWallet userId walletId) then
          (.error (.badRequest "Cannot delete primary wallet"), v.evolve (o 1))
        else (.error (.notFound "Wallet not found"), v.evolve (o 1)) := by
  simp only [unlinkWallet, run_bind', run_attempt, walletRepo, Prog.eff_bind, Prog.ret_bind,
    run_eff, handle_wallet, WalletRepository.handle, deleteIfNotPrimary_eq]
  cases (o 0).fails with
  | true => rfl
  | false =>
    simp only [Bool.false_eq_true, if_false, proceed_ok]
    cases w.db.wallets.any (removable userId walletId) with
    | true => rfl
    | false =>
      simp only [Bool.false_eq_true, if_false, run_bind', run_attempt, Prog.eff_bind,
        Prog.ret_bind, run_eff, handle_wallet, WalletRepository.handle, select_nil]
      cases (o (0 + 1)).fails with
      | true => rfl
      | false =>
        simp only [Bool.false_eq_true, if_false, proceed_ok]
        cases (w.db.keepWallets (fun r => !removable userId walletId r)).wallets.any
          (isWallet userId walletId) <;> rfl

end IamService.AuthService
