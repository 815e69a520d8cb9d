import IamService.ReferenceLibraries
import IamService.WalletCallRuns

/-!
# Failed wallet calls and the tables

A wallet call that returns an error should leave both tables alone. Unlinking always
does. Promotion commits its demotion even when the wallet named is not there, and
linking demotes in a statement of its own before the insertion can be refused; these
are the only two ways in which a failed call changes a row.
-/

namespace IamService
open EffectPrograms WalletRepository ReferenceLibraries

/-- The three calls that manage the wallets of a user. -/
inductive WalletCall where
  | link (userId : Uuid) (walletAddress : String) (label : Option String) (isPrimary : Bool)
  | setPrimary (userId walletId : Uuid)
  | unlink (userId walletId : Uuid)

def WalletCall.call : WalletCall → Call
  | .link userId walletAddress label isPrimary =>
    .linkWallet userId walletAddress label isPrimary
  | .setPrimary userId walletId => .setPrimaryWallet userId walletId
  | .unlink userId walletId => .unlinkWallet userId walletId

namespace WalletFailureAtomicity

variable (self : AuthService)

/-- If the request returns an error, both tables are as they were. -/
def FailsCleanly (w : self.State) (r : Request) : Prop :=
  ∀ e, (self.serve w r).1 = .error e →
    (self.after w r).db.users = w.db.users ∧ (self.after w r).db.wallets = w.db.wallets

/-- The insertion is refused for a reason other than the primary index: the database is
unavailable, a parameter is no text, a text does not fit, or the wallet's address or id
is taken. -/
def InsertionRefused {lower : String → String} (c : Choice) (db : Database lower)
    (walletAddress : String) (label : Option String) : Prop :=
  c.fails = true ∨ (walletAddress :: label.toList).all sqlText = false ∨
    ∀ address text, fit 64 walletAddress = .ok address → fitOption 50 label = .ok text →
      ∃ r ∈ db.wallets, r.id = c.uuid ∨ r.walletAddress = address

/-- When a failing wallet call leaves the tables alone, by the state it starts in. -/
def CleanCondition (w : self.State) (o : ℕ → Choice) : WalletCall → Prop
  | .link userId walletAddress label isPrimary =>
    ¬ (isPrimary = true ∧ (self.lib.parsePubkey walletAddress).isOk ∧ (o 0).fails = false ∧
      (o 1).fails = false ∧ hasPrimary w.db userId ∧
      InsertionRefused (o 2) w.db walletAddress label)
  | .setPrimary userId walletId =>
    (o 0).fails = true ∨ (∃ r ∈ w.db.wallets, r.id = walletId ∧ r.userId = userId) ∨
      ¬ hasPrimary w.db userId
  | .unlink _ _ => True

variable {self}

section Link

variable {walletAddress : String}

theorem refused_demote_iff {w : self.State} {userId : Uuid} {label : Option String}
    {isPrimary : Bool} {c : Choice} {now : ℕ} (hw : hasPrimary w.db userId) :
    Refused c now (demote w.db userId) userId walletAddress label isPrimary ↔
      InsertionRefused c w.db walletAddress label := by
  have hid : ∀ x : Uuid, (∃ r ∈ (demote w.db userId).wallets, r.id = x) ↔
      ∃ r ∈ w.db.wallets, r.id = x := by
    intro x
    simpa using congrArg (x ∈ ·) (map_demote w.db userId (·.id) (fun _ => rfl))
  have had : ∀ x : String, (∃ r ∈ (demote w.db userId).wallets, r.walletAddress = x) ↔
      ∃ r ∈ w.db.wallets, r.walletAddress = x := by
    intro x
    simpa using congrArg (x ∈ ·) (map_demote w.db userId (·.walletAddress) (fun _ => rfl))
  have howner : userId ∈ w.db.users.map (·.id) := by
    obtain ⟨r, hr, rfl, -⟩ := hw
    exact w.db.references r hr
  refine or_congr_right (or_congr_right ?_)
  constructor
  · intro h address text ha ht
    by_contra hn
    refine h (newWalletRow c now userId address text isPrimary) ?_
      ⟨?_, ?_, fun _ => not_hasPrimary_demote w.db userId, howner⟩
    · simp [candidate, ha, ht, Bind.bind, Except.bind, pure, Except.pure]
    · intro r hr he
      obtain ⟨s, hs, hse⟩ := (hid r.id).mp ⟨r, hr, rfl⟩
      exact hn ⟨s, hs, .inl (hse.trans he)⟩
    · intro r hr he
      obtain ⟨s, hs, hse⟩ := (had r.walletAddress).mp ⟨r, hr, rfl⟩
      exact hn ⟨s, hs, .inr (hse.trans he)⟩
  · intro h row hrow hacc
    obtain ⟨hid', -, -, -, ha⟩ := candidate_ok hrow
    cases ht : fitOption 50 label with
    | error e => simp [candidate, ha, ht, Bind.bind, Except.bind] at hrow
    | ok text =>
      obtain ⟨s, hs, he | he⟩ := h _ text ha ht
      · obtain ⟨r, hr, hre⟩ := (hid s.id).mpr ⟨s, hs, rfl⟩
        exact hacc.id r hr (by rw [hre, he, hid'])
      · obtain ⟨r, hr, hre⟩ := (had s.walletAddress).mpr ⟨s, hs, rfl⟩
        exact hacc.address r hr (by rw [hre, he])

/-- What follows an insertion never fails: the program id is parsed before the account
can have been seen. -/
theorem registerLinked_returns_ok (userId : Uuid) (wallet : UserWallet)
    (hpk : (self.lib.parsePubkey walletAddress).isOk) :
    Returns (fun r => ∃ v, r = .ok v) (self.registerLinked userId walletAddress wallet).run := by
  refine Returns.observeBind ?_
  intro found
  split
  · split
    · unfold AuthService.autoRegister
      cases hp : self.lib.parsePubkey walletAddress with
      | error e => simp [hp, Except.isOk, Except.toBool] at hpk
      | ok pubkey =>
        refine Returns.observeBind ?_
        intro submitted
        cases submitted with
        | error e => simp
        | ok signature =>
          cases hprog : self.lib.pubkeyFromStr self.config.registryProgramId with
          | error e => simp [AuthService.confirmRegistered, AuthService.registryPda, hprog]
          | ok programId =>
            refine Returns.observeBind ?_
            intro confirmed
            split <;> simp [walletRepo, eventBus]
    · simp
  · simp

theorem afterInsert_returns_ok (userId : Uuid) (isPrimary hasExisting : Bool)
    (wallet : UserWallet) (hpk : (self.lib.parsePubkey walletAddress).isOk) :
    Returns (fun r => ∃ v, r = .ok v)
      (self.afterInsert userId walletAddress isPrimary hasExisting wallet).run := by
  unfold AuthService.afterInsert
  split
  · exact Returns.observeBind (fun _ => registerLinked_returns_ok userId wallet hpk)
  · exact registerLinked_returns_ok userId wallet hpk

/-- What remains of a link fails exactly when its insertion is refused, and then the
insertion has changed nothing. -/
theorem insertLinked_error_iff (w : self.State) (o : ℕ → Choice) (userId : Uuid)
    (label : Option String) (isPrimary hasExisting : Bool) (hpk : (self.lib.parsePubkey walletAddress).isOk) :
    let v := run self.handle
      (self.insertLinked userId walletAddress label isPrimary hasExisting).run o w
    ((∃ e, v.1 = .error e) ↔
      Refused (o 0) (w.now + (o 0).elapsed) w.db userId walletAddress label isPrimary) ∧
      ∀ e, v.1 = .error e → v.2.db = w.db := by
  intro v
  simp only [v, AuthService.insertLinked_run, ← insert_error_iff]
  cases hq : (WalletRepository.insert (o 0) (w.now + (o 0).elapsed) w.db userId walletAddress
      label isPrimary).1 with
  | error e => exact ⟨by simp, fun _ _ => insert_error hq⟩
  | ok wallet =>
    obtain ⟨x, hx⟩ := (afterInsert_returns_ok userId isPrimary hasExisting wallet hpk).run
      (H := self.handle)
      (fun n => o (n + 1)) { w.evolve (o 0) with db := (WalletRepository.insert (o 0)
        (w.now + (o 0).elapsed) w.db userId walletAddress label isPrimary).2 }
    dsimp only
    rw [hx]
    simp

end Link

theorem link_fails_cleanly_iff (w : self.State) (o : ℕ → Choice) (userId : Uuid)
    (walletAddress : String) (label : Option String) (isPrimary : Bool) :
    FailsCleanly self w ⟨.linkWallet userId walletAddress label isPrimary, o⟩ ↔
      CleanCondition self w o (.link userId walletAddress label isPrimary) := by
  simp only [FailsCleanly, AuthService.after, AuthService.serve, AuthService.method,
    AuthService.linkWallet_run, CleanCondition]
  cases hp : self.lib.parsePubkey walletAddress with
  | error e => simp [Except.isOk, Except.toBool]
  | ok pubkey =>
    have hpk : (self.lib.parsePubkey walletAddress).isOk := by
      simp [hp, Except.isOk, Except.toBool]
    cases h0 : (o 0).fails with
    | true => simp
    | false =>
      simp only [Bool.false_eq_true, if_false]
      by_cases hb : (hasAnyWallet w.db userId && isPrimary) = true
      · obtain ⟨-, hprim⟩ := Bool.and_eq_true_iff.mp hb
        rw [if_pos hb]
        cases h1 : (o 1).fails with
        | true => simp
        | false =>
          -- the demotion has been committed; only a refused insertion can now fail
          obtain ⟨hiff, hdb⟩ := insertLinked_error_iff { (w.evolve (o 0)).evolve (o 1) with
            db := demote w.db userId } (fun n => o (n + 2)) userId label isPrimary true hpk
          by_cases hP : hasPrimary w.db userId
          · rw [refused_demote_iff hP] at hiff
            constructor
            · rintro h ⟨-, -, -, -, -, hI⟩
              obtain ⟨e, he⟩ := hiff.mpr hI
              have hsame := (h e he).2
              rw [if_neg (by simp), hdb e he] at hsame
              exact demote_eq_iff.mp hsame hP
            · intro hn e he
              exact absurd ⟨hprim, hp ▸ hpk, trivial, rfl, hP, hiff.mp ⟨e, he⟩⟩ hn
          · refine iff_of_true ?_ (fun h => hP h.2.2.2.2.1)
            intro e he
            rw [if_neg (by simp), hdb e he]
            exact ⟨rfl, demote_eq_iff.mpr hP⟩
      · obtain ⟨-, hdb⟩ := insertLinked_error_iff (w.evolve (o 0)) (fun n => o (n + 1)) userId
          label isPrimary (hasAnyWallet w.db userId) hpk
        rw [if_neg hb]
        refine iff_of_true ?_ ?_
        · intro e he
          rw [hdb e he]
          exact ⟨rfl, rfl⟩
        · rintro ⟨hprim, -, -, -, ⟨r, hr, hu, -⟩, -⟩
          exact hb (Bool.and_eq_true_iff.mpr ⟨hasAnyWallet_iff.mpr ⟨r, hr, hu⟩, hprim⟩)

theorem setPrimary_fails_cleanly_iff (w : self.State) (o : ℕ → Choice) (userId walletId : Uuid) :
    FailsCleanly self w ⟨.setPrimaryWallet userId walletId, o⟩ ↔
      CleanCondition self w o (.setPrimary userId walletId) := by
  simp only [FailsCleanly, AuthService.after, AuthService.serve, AuthService.method,
    AuthService.setPrimaryWallet_run, CleanCondition]
  cases hf : (o 0).fails with
  | true => simp
  | false =>
    by_cases hw : ∃ r ∈ w.db.wallets, r.id = walletId ∧ r.userId = userId
    · obtain ⟨r, hr⟩ := Option.isSome_iff_exists.mp (find_promoted.mpr hw)
      simp only [Bool.false_eq_true, if_false, hr]
      exact iff_of_true (by simp) (.inr (.inl hw))
    · have hnone : (promoted w.db userId walletId).find? (isWallet userId walletId) = none := by
        rw [← Option.not_isSome_iff_eq_none, find_promoted]
        exact hw
      rw [hnone]
      simp only [Bool.false_eq_true, if_false, setPrimary_eq, hf, hw, false_or,
        promoted_of_absent hw, ← demote_eq_iff]
      simp

theorem unlink_fails_cleanly (w : self.State) (o : ℕ → Choice) (userId walletId : Uuid) :
    FailsCleanly self w ⟨.unlinkWallet userId walletId, o⟩ := by
  simp only [FailsCleanly, AuthService.after, AuthService.serve, AuthService.method,
    AuthService.unlinkWallet_run]
  cases (o 0).fails with
  | true => simp
  | false =>
    cases hd : w.db.wallets.any (removable userId walletId) with
    | true => simp
    | false =>
      have hkeep := keepWallets_of_none hd
      intro e he
      simp only [Bool.false_eq_true, if_false] at he ⊢
      split
      · exact ⟨rfl, hkeep⟩
      · split <;> exact ⟨rfl, hkeep⟩

variable (self) in
/-- A failing wallet call leaves both tables alone exactly under `CleanCondition`. -/
theorem fails_cleanly_iff (w : self.State) (q : WalletCall) (o : ℕ → Choice) :
    FailsCleanly self w ⟨q.call, o⟩ ↔ CleanCondition self w o q := by
  cases q with
  | link userId walletAddress label isPrimary => exact link_fails_cleanly_iff _ _ _ _ _ _
  | setPrimary userId walletId => exact setPrimary_fails_cleanly_iff _ _ _ _
  | unlink userId walletId => exact iff_of_true (unlink_fails_cleanly _ _ _ _) trivial

/-- Promoting a wallet that is not there takes the primary wallet away. -/
theorem set_primary_of_unknown_wallet_changes_tables :
    ¬ ∀ (rs : List Request) (q : WalletCall) (o : ℕ → Choice), FailsCleanly service
      (service.serveAll (World.empty _) rs) ⟨q.call, o⟩ := by
  intro h
  have hclean := h [registerAlice, linkAlice] (.setPrimary ⟨1⟩ ⟨9⟩) (oracle [])
  have hno : ¬ ((oracle [] 0).fails = true ∨
      (∃ r ∈ (service.serveAll (World.empty _) [registerAlice, linkAlice]).db.wallets,
        r.id = ⟨9⟩ ∧ r.userId = ⟨1⟩) ∨
      ¬ hasPrimary (service.serveAll (World.empty _) [registerAlice, linkAlice]).db ⟨1⟩) := by
    decide +kernel
  exact hno ((setPrimary_fails_cleanly_iff _ _ _ _).mp hclean)

end WalletFailureAtomicity

end IamService
