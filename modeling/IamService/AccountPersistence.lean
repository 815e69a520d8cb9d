import IamService.MethodFootprints
import IamService.UserStatements
import IamService.WalletStatements

/-!
# Accounts persist

No operation removes an account, changes its id, its username or its email, or
deactivates it. What identifies an account therefore holds in every later state.
-/

namespace IamService
open EffectPrograms RelationTables

/-- A later version of the same account. -/
structure UserRow.Persists (r s : UserRow) : Prop where
  id : s.id = r.id
  username : s.username = r.username
  email : s.email = r.email
  isActive : r.isActive = true → s.isActive = true

theorem UserRow.Persists.refl (r : UserRow) : r.Persists r :=
  ⟨rfl, rfl, rfl, fun h => h⟩

theorem UserRow.Persists.trans {r s t : UserRow} (h₁ : r.Persists s) (h₂ : s.Persists t) :
    r.Persists t :=
  ⟨h₂.id.trans h₁.id, h₂.username.trans h₁.username, h₂.email.trans h₁.email,
    fun h => h₂.isActive (h₁.isActive h)⟩

/-- Every account of the first table has a later version in the second. -/
def Retained (rows rows' : List UserRow) : Prop := ∀ r ∈ rows, ∃ s ∈ rows', r.Persists s

namespace Retained

theorem refl (rows : List UserRow) : Retained rows rows := fun r hr => ⟨r, hr, .refl r⟩

theorem trans {rows rows' rows'' : List UserRow} (h₁ : Retained rows rows')
    (h₂ : Retained rows' rows'') : Retained rows rows'' := by
  intro r hr
  obtain ⟨s, hs, hrs⟩ := h₁ r hr
  obtain ⟨t, ht, hst⟩ := h₂ s hs
  exact ⟨t, ht, hrs.trans hst⟩

theorem append (rows rows' : List UserRow) : Retained rows (rows ++ rows') :=
  fun r hr => ⟨r, List.mem_append_left _ hr, .refl r⟩

theorem updateWhere {p : UserRow → Bool} {f : UserRow → UserRow} (hf : ∀ r : UserRow, r.Persists (f r))
    (rows : List UserRow) : Retained rows (updateWhere p f rows) := by
  intro r hr
  refine ⟨_, mem_updateWhere.mpr ⟨r, hr, rfl⟩, ?_⟩
  split
  · exact hf r
  · exact .refl r

end Retained

section Operations

variable {lower : String → String} (c : Choice) (now : ℕ) (db : Database lower)

theorem UserRepository.handle_retained (q : UserOp) :
    Retained db.users (UserRepository.handle c now db q).2.users := by
  cases q with
  | create newUser =>
    rcases create_cases c now db newUser with ⟨e, h⟩ | ⟨fitted, db', -, h, -, hu⟩
    · rw [handle, h]
      exact .refl _
    · rw [handle, h, hu]
      exact .append _ _
  | verifyEmail email =>
    rcases verifyEmail_cases c db email with ⟨e, h⟩ | h
    · rw [handle, h]
      exact .refl _
    · rw [handle, h]
      apply Retained.updateWhere
      exact fun _ => ⟨rfl, rfl, rfl, fun _ => rfl⟩
  | setWalletAddress userId address =>
    rcases setWalletAddress_cases c db userId address with ⟨e, h⟩ | ⟨text, db', -, h, -, hu⟩
    · rw [handle, h]
      exact .refl _
    · rw [handle, h, hu]
      apply Retained.updateWhere
      exact fun _ => ⟨rfl, rfl, rfl, id⟩
  | setVerificationToken userId token =>
    rcases setVerificationToken_cases c now db userId token with
      ⟨e, h⟩ | ⟨text, db', -, h, -, hu⟩
    · rw [handle, h]
      exact .refl _
    · rw [handle, h, hu]
      apply Retained.updateWhere
      exact fun _ => ⟨rfl, rfl, rfl, id⟩
  | updatePassword email passwordHash =>
    rcases updatePassword_cases c db email passwordHash with ⟨e, h⟩ | ⟨text, db', -, h, -, hu⟩
    · rw [handle, h]
      exact .refl _
    · rw [handle, h, hu]
      apply Retained.updateWhere
      exact fun _ => ⟨rfl, rfl, rfl, id⟩
  | markUserOnboarded userId userType lat long pda signature =>
    rcases markUserOnboarded_cases c db userId userType lat long pda signature with
      ⟨e, h⟩ | ⟨type, address, text, db', -, -, -, h, -, hu⟩
    · rw [handle, h]
      exact .refl _
    · rw [handle, h, hu]
      apply Retained.updateWhere
      exact fun _ => ⟨rfl, rfl, rfl, id⟩
  | findByUsernameOrEmail identity => exact .refl _
  | findById id => exact .refl _
  | findEmailByToken token => exact .refl _
  | findVerificationStateByEmail email => exact .refl _

theorem WalletRepository.handle_retained (q : WalletOp) :
    Retained db.users (WalletRepository.handle c now db q).2.users := by
  cases q with
  | setPrimary userId walletId =>
    simp only [handle, setPrimary_eq]
    split <;> exact .refl _
  | deleteIfNotPrimary userId walletId =>
    simp only [handle, deleteIfNotPrimary_eq]
    split <;> exact .refl _
  | clearPrimary userId =>
    simp only [handle, clearPrimary_eq]
    split <;> exact .refl _
  | insert userId walletAddress label isPrimary =>
    simp only [handle]
    cases hi : (insert c now db userId walletAddress label isPrimary).1 with
    | error e => rw [insert_error hi]; exact .refl _
    | ok wallet =>
      obtain ⟨row, -, -, -, hu, -⟩ := insert_ok hi
      rw [hu]
      exact .refl _
  | persistCustodialWallet userId walletAddress label key kdfVersion =>
    rcases persistCustodialWallet_cases c now db userId walletAddress label key kdfVersion with
      ⟨e, h⟩ | ⟨row, address, db', -, -, -, h, -, hu⟩
    · rw [handle, h]
      exact .refl _
    · rw [handle, h, hu]
      apply Retained.updateWhere
      exact fun _ => ⟨rfl, rfl, rfl, id⟩
  | markRegistered userId address signature =>
    rcases markRegistered_cases c db userId address signature with
      ⟨e, h⟩ | ⟨text, db', -, h, hu, -⟩
    · rw [handle, h]
      exact .refl _
    · rw [handle, h, hu]
      exact .refl _
  | listByUserId userId => exact .refl _
  | findByIdAndUserId id userId => exact .refl _
  | «exists» userId walletId => exact .refl _
  | hasAnyWallet userId => exact .refl _
  | findPrimaryAddress userId => exact .refl _

end Operations

namespace AuthService

variable (self : AuthService)

theorem handle_retained (c : Choice) (w : self.State) (o : Op) :
    Retained w.db.users (self.handle c w o).2.db.users := by
  cases o with
  | user q => exact UserRepository.handle_retained c _ w.db q
  | wallet q => exact WalletRepository.handle_retained c _ w.db q
  | cache q => exact .refl _
  | bus q => exact .refl _
  | chain q => exact .refl _
  | host q => rw [handle_host_db]; exact .refl _

/-- Accounts persist through every sequential run. -/
theorem serveAll_retained (w : self.State) (rs : List Request) :
    Retained w.db.users (self.serveAll w rs).db.users := by
  induction rs generalizing w with
  | nil => exact .refl _
  | cons r rs ih =>
    have hr : Retained w.db.users (self.after w r).db.users :=
      self.after_preserves (fun w v => Retained w.db.users v.db.users) (fun _ => .refl _)
        Retained.trans r (fun c w o _ => self.handle_retained c w o) w
    exact hr.trans (ih (self.after w r))

end AuthService

end IamService
