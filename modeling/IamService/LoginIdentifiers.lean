import IamService.PasswordResetRevocation

/-!
# Login identifiers

The database keeps usernames unique and emails unique, but a login looks an identifier up
in both columns. An account may therefore be registered under the email of another one as
its username, and both answer to that identifier once they are verified. When no
registration takes an identifier of the other kind, every identifier names one account.
-/

namespace IamService.LoginIdentifiers
open EffectPrograms RelationTables UserRepository AuthService PasswordResetRevocation
open ReferenceLibraries

variable (self : AuthService)

/-- Registrations and verifications, where no registered username is an email and no
registered email is a username of another account. -/
def Distinct (w : self.State) (r : Request) : Prop :=
  match r.call with
  | .register username email _ _ _ => ∀ name ∈ (fit 50 username).toOption,
      ∀ mail ∈ (fit 255 email).toOption, Unclaimed w.db.users name mail
  | .verifyEmail _ => True
  | _ => False

instance (w : self.State) (r : Request) : Decidable (Distinct self w r) := by
  obtain ⟨call, _⟩ := r
  cases call <;> dsimp only [Distinct, Unclaimed] <;> infer_instance

/-- Registrations and verifications with any arguments. -/
def AccountSetup (r : Request) : Prop :=
  match r.call with
  | .register .. => True
  | .verifyEmail _ => True
  | _ => False

instance (r : Request) : Decidable (AccountSetup r) := by
  obtain ⟨call, _⟩ := r
  cases call <;> dsimp only [AccountSetup] <;> infer_instance

/-- At most one active account answers to the identifier, so that a lookup does not depend on
the row that the database happens to return. -/
def NamesOne (w : self.State) (identifier : String) : Prop :=
  (∀ u ∈ w.db.users, ∀ v ∈ w.db.users, named identifier u = true → named identifier v = true →
    u = v) ∧
  ∀ pick pick', lookup pick w.db identifier = lookup pick' w.db identifier

variable {self}

theorem Distinct.allowed {w : self.State} {r : Request} (h : Distinct self w r) :
    Allowed self w r := by
  obtain ⟨call, oracle⟩ := r
  cases call with
  | register username email password firstName lastName => exact h
  | verifyEmail token => trivial
  | _ => exact h.elim

/-- Accounts with identifiers of their own are told apart by every identifier. -/
theorem namesOne_of_separate {w : self.State} (h : Separate w.db.users) (identifier : String) :
    NamesOne self w identifier := by
  have hone : ∀ u ∈ w.db.users, ∀ v ∈ w.db.users, named identifier u = true →
      named identifier v = true → u = v := by
    intro u hu v hv hnu hnv
    simp only [named, decide_eq_true_eq] at hnu hnv
    exact Owns.unique h hu hv hnu.1 hnv.1
  refine ⟨hone, ?_⟩
  intro pick pick'
  unfold lookup
  rw [limitOne_congr hone pick pick']

/-- In every run of registrations and verifications in which no registration takes an
identifier of the other kind, an identifier names at most one active account. -/
theorem identifier_names_one_account {rs : List Request}
    (h : self.Along (Distinct self) (World.empty self.lib.pgLower) rs) (identifier : String) :
    NamesOne self (self.serveAll (World.empty self.lib.pgLower) rs) identifier := by
  have hcoherent : Coherent self (self.serveAll (World.empty self.lib.pgLower) rs) :=
    serveAll_invariant (fun w r hw hr => coherent_after w r hw hr.allowed) coherent_empty h
  obtain ⟨hseparate, -⟩ := hcoherent
  exact namesOne_of_separate hseparate identifier

section Mallory

/-- Mallory takes Alice's email as a username; the id is 8 and the verification token 9. -/
def registerMallory (username : String) : Request where
  call := .register username "mallory@example.com" "An0ther!Pass" none none
  oracle := oracle [{}, { uuid := ⟨8⟩ }, { uuid := ⟨9⟩ }]

def verifyMallory : Request where
  call := .verifyEmail (uuidToString ⟨9⟩)
  oracle := oracle [{}, {}, { fails := true }]

/-- Alice and Mallory register and verify their accounts. -/
def setup (username : String) : List Request :=
  [registerAlice, registerMallory username, activateAlice, verifyMallory]

theorem mallory_has_own_name : NamesOne service
    (service.serveAll (World.empty _) (setup "mallory")) "alice@example.com" :=
  identifier_names_one_account (by decide +kernel) "alice@example.com"

/-- Mallory and Alice both answer to Alice's email. -/
theorem email_taken_as_username :
    ¬ ∀ (rs : List Request), (∀ r ∈ rs, AccountSetup r) → ∀ identifier : String,
      NamesOne service (service.serveAll (World.empty _) rs) identifier := by
  intro h
  have hrun : (∀ r ∈ setup "alice@example.com", AccountSetup r) ∧
      (lookup 0 (service.serveAll (World.empty _) (setup "alice@example.com")).db
        "alice@example.com").map (·.user.id) ≠
      (lookup 1 (service.serveAll (World.empty _) (setup "alice@example.com")).db
        "alice@example.com").map (·.user.id) := by decide +kernel
  apply hrun.2
  rw [(h _ hrun.1 "alice@example.com").2 0 1]

end Mallory

end IamService.LoginIdentifiers
