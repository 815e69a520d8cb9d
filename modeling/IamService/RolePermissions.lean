import IamService.PasswordService

/-!
# Roles and their permissions

A permission is a text of the form `resource:action`; one that ends in `:*` grants every
action on its resource. Each role has a table of permissions.
-/

namespace IamService

/-- A specific action on a resource, as a text. -/
structure Permission where
  text : String
  deriving DecidableEq

namespace Permission

/-- The segment before the first colon. -/
def resource (p : Permission) : String := String.ofList (p.text.toList.takeWhile (· ≠ ':'))

def isWildcard (p : Permission) : Bool := ":*".toList.isSuffixOf p.text.toList

/-- A permission grants itself, and a wildcard grants every permission on its resource. -/
def grants (p requested : Permission) : Bool :=
  if p.text = requested.text then true
  else if p.isWildcard && p.resource = requested.resource then true
  else false

theorem grants_iff {p requested : Permission} : p.grants requested = true ↔
    p = requested ∨ p.isWildcard = true ∧ p.resource = requested.resource := by
  cases p
  cases requested
  simp [grants]

theorem grants_refl (p : Permission) : p.grants p = true := grants_iff.mpr (.inl rfl)

/-- Along a chain of grants, a wildcard at its beginning reaches the resource at its end. -/
theorem grants_trans {p q r : Permission} (hpq : p.grants q = true) (hqr : q.grants r = true) :
    p.grants r = true := by
  rcases grants_iff.mp hpq with rfl | ⟨hwild, hresource⟩
  · exact hqr
  · rcases grants_iff.mp hqr with rfl | ⟨-, hresource'⟩
    · exact hpq
    · exact grants_iff.mpr (.inr ⟨hwild, hresource.trans hresource'⟩)

/-- Whatever is granted lies on the resource of the permission that grants it. -/
theorem resource_of_grants {p requested : Permission} (h : p.grants requested = true) :
    p.resource = requested.resource := by
  rcases grants_iff.mp h with rfl | ⟨-, hresource⟩
  · rfl
  · exact hresource

end Permission

inductive Role where
  | user | admin | ami | producer | consumer | operator
  deriving DecidableEq

namespace Role

def userPermissions : List Permission :=
  ["energy:read", "energy:submit", "trading:read", "trading:create", "profile:read",
    "profile:update", "meters:read"].map Permission.mk

def adminPermissions : List Permission :=
  ["energy:*", "trading:*", "profile:*", "analytics:*", "users:*", "admin:*", "meters:*",
    "system:*"].map Permission.mk

def amiPermissions : List Permission :=
  ["energy:submit", "meters:read", "meters:update", "readings:submit"].map Permission.mk

def producerPermissions : List Permission :=
  ["energy:read", "energy:submit", "offers:*", "trading:read", "trading:create",
    "transactions:read", "profile:read", "profile:update", "meters:read"].map Permission.mk

def consumerPermissions : List Permission :=
  ["energy:read", "orders:*", "offers:read", "trading:read", "trading:create",
    "transactions:read", "profile:read", "profile:update"].map Permission.mk

def operatorPermissions : List Permission :=
  ["energy:read", "meters:*", "readings:*", "analytics:read", "system:health"].map Permission.mk

/-- All permissions of a role. -/
def permissions : Role → List Permission
  | .user => userPermissions
  | .admin => adminPermissions
  | .ami => amiPermissions
  | .producer => producerPermissions
  | .consumer => consumerPermissions
  | .operator => operatorPermissions

def hasPermission (role : Role) (permission : Permission) : Bool :=
  role.permissions.any (fun p => p.grants permission)

/-- A role has whatever its permissions grant. -/
theorem hasPermission_of_grants {role : Role} {p q : Permission}
    (hp : role.hasPermission p = true) (h : p.grants q = true) : role.hasPermission q = true := by
  obtain ⟨held, hheld, hgrants⟩ := List.any_eq_true.mp hp
  exact List.any_eq_true.mpr ⟨held, hheld, Permission.grants_trans hgrants h⟩

/-- Granting is a preorder on all texts, and what a role has is closed under it. -/
theorem grants_preorder_closed :
    (∀ a : String, (Permission.mk a).grants ⟨a⟩ = true) ∧
      (∀ a b c : String, (Permission.mk a).grants ⟨b⟩ = true →
        (Permission.mk b).grants ⟨c⟩ = true → (Permission.mk a).grants ⟨c⟩ = true) ∧
      ∀ (role : Role) (a b : String), role.hasPermission ⟨a⟩ = true →
        (Permission.mk a).grants ⟨b⟩ = true → role.hasPermission ⟨b⟩ = true := by
  refine ⟨?_, ?_, ?_⟩
  · intro a
    exact Permission.grants_refl ⟨a⟩
  · intro a b c hab hbc
    exact Permission.grants_trans hab hbc
  · intro role a b ha hab
    exact hasPermission_of_grants ha hab

/-- Check a permission given as a text. -/
def canAccess (role : Role) (permission : String) : Bool := role.hasPermission ⟨permission⟩

/-- Read a role from its name in any letter case. -/
def fromStr (lib : Libraries) (s : String) : Except String Role :=
  match lib.toLowercase s with
  | "user" => .ok .user
  | "admin" => .ok .admin
  | "ami" => .ok .ami
  | "producer" => .ok .producer
  | "consumer" => .ok .consumer
  | "operator" => .ok .operator
  | _ => .error ("Invalid role: " ++ s)

theorem canAccess_iff {role : Role} {permission : String} : role.canAccess permission = true ↔
    ⟨permission⟩ ∈ role.permissions ∨ ∃ p ∈ role.permissions, p.isWildcard = true ∧
      p.resource = (Permission.mk permission).resource := by
  simp only [canAccess, hasPermission, List.any_eq_true, Permission.grants_iff]
  constructor
  · rintro ⟨p, hp, rfl | hwild⟩
    · exact .inl hp
    · exact .inr ⟨p, hp, hwild⟩
  · rintro (hp | ⟨p, hp, hwild⟩)
    · exact ⟨_, hp, .inl rfl⟩
    · exact ⟨p, hp, .inr hwild⟩

/-- The permissions of a user are those of the table, without wildcards. -/
theorem user_canAccess_iff {permission : String} :
    Role.user.canAccess permission = true ↔ ⟨permission⟩ ∈ userPermissions := by
  have hplain : ∀ p ∈ userPermissions, p.isWildcard = false := by decide +kernel
  rw [canAccess_iff]
  refine ⟨?_, .inl⟩
  rintro (hp | ⟨p, hp, hwild, -⟩)
  · exact hp
  · rw [hplain p hp] at hwild
    cases hwild

section Dominance

/-- The resources on which an administrator holds a wildcard. -/
def adminResources : List String :=
  ["energy", "trading", "profile", "analytics", "users", "admin", "meters", "system"]

/-- An administrator may do everything on these resources, and nothing on others. -/
theorem admin_canAccess_iff {permission : String} : Role.admin.canAccess permission = true ↔
    (Permission.mk permission).resource ∈ adminResources := by
  have htable : adminPermissions.map Permission.resource = adminResources := by decide +kernel
  have hwild : ∀ p ∈ adminPermissions, p.isWildcard = true := by decide +kernel
  have hgrants : Role.admin.canAccess permission = true ↔
      ∃ p ∈ adminPermissions, p.grants ⟨permission⟩ = true := List.any_eq_true
  rw [hgrants, ← htable]
  simp only [List.mem_map]
  constructor
  · rintro ⟨p, hp, hg⟩
    exact ⟨p, hp, Permission.resource_of_grants hg⟩
  · rintro ⟨p, hp, hr⟩
    exact ⟨p, hp, Permission.grants_iff.mpr (.inr ⟨hwild p hp, hr⟩)⟩

/-- The entries of a role's table on resources that the administrator's table lacks. -/
def beyondAdmin (role : Role) : List Permission :=
  role.permissions.filter (fun p => p.resource ∉ adminResources)

/-- What a role may do and an administrator may not is granted by such an entry. -/
theorem exceeds_iff {role : Role} {permission : String} :
    (role.canAccess permission = true ∧ Role.admin.canAccess permission ≠ true) ↔
      ∃ p ∈ role.beyondAdmin, p.grants ⟨permission⟩ = true := by
  have hgrants : role.canAccess permission = true ↔
      ∃ p ∈ role.permissions, p.grants ⟨permission⟩ = true := List.any_eq_true
  rw [hgrants, Ne, admin_canAccess_iff]
  simp only [beyondAdmin, List.mem_filter, decide_eq_true_eq]
  constructor
  · rintro ⟨⟨p, hp, hg⟩, hnot⟩
    exact ⟨p, ⟨hp, Permission.resource_of_grants hg ▸ hnot⟩, hg⟩
  · rintro ⟨p, ⟨hp, hnot⟩, hg⟩
    exact ⟨⟨p, hp, hg⟩, Permission.resource_of_grants hg ▸ hnot⟩

/-- Offers, orders, readings and transactions as far as a role may use them. -/
def OnMissingResource (permission : String) : Role → Prop
  | .user => False
  | .admin => False
  | .ami => permission = "readings:submit"
  | .producer => (Permission.mk permission).resource = "offers" ∨ permission = "transactions:read"
  | .consumer => (Permission.mk permission).resource = "orders" ∨ permission = "offers:read" ∨
      permission = "transactions:read"
  | .operator => (Permission.mk permission).resource = "readings"

/-- A plain entry grants itself only. -/
theorem grants_plain {p : Permission} (h : p.isWildcard = false) {permission : String} :
    p.grants ⟨permission⟩ = true ↔ permission = p.text := by
  simp only [Permission.grants_iff, h, Bool.false_eq_true, false_and, or_false]
  constructor
  · rintro rfl
    rfl
  · rintro rfl
    rfl

/-- A wildcard grants all of its resource. -/
theorem grants_wildcard {p : Permission} (h : p.isWildcard = true) {permission : String} :
    p.grants ⟨permission⟩ = true ↔ (Permission.mk permission).resource = p.resource := by
  constructor
  · intro hg
    exact (Permission.resource_of_grants hg).symm
  · intro hr
    exact Permission.grants_iff.mpr (.inr ⟨h, hr.symm⟩)

theorem exceeds_iff_onMissingResource {role : Role} {permission : String} :
    (∃ p ∈ role.beyondAdmin, p.grants ⟨permission⟩ = true) ↔ OnMissingResource permission role := by
  have hoffers : (Permission.mk "offers:*").resource = "offers" := by decide +kernel
  have horders : (Permission.mk "orders:*").resource = "orders" := by decide +kernel
  have hreadings : (Permission.mk "readings:*").resource = "readings" := by decide +kernel
  cases role with
  | user =>
    have htable : beyondAdmin .user = [] := by decide +kernel
    simp [htable, OnMissingResource]
  | admin =>
    have htable : beyondAdmin .admin = [] := by decide +kernel
    simp [htable, OnMissingResource]
  | ami =>
    have htable : beyondAdmin .ami = [⟨"readings:submit"⟩] := by decide +kernel
    simp only [htable, List.mem_singleton, exists_eq_left]
    exact grants_plain (by decide +kernel)
  | producer =>
    have htable : beyondAdmin .producer = [⟨"offers:*"⟩, ⟨"transactions:read"⟩] := by decide +kernel
    simp only [htable, List.mem_cons, List.not_mem_nil, or_false, exists_eq_or_imp, exists_eq_left]
    rw [grants_wildcard (by decide +kernel), grants_plain (by decide +kernel), hoffers]
    rfl
  | consumer =>
    have htable : beyondAdmin .consumer =
        [⟨"orders:*"⟩, ⟨"offers:read"⟩, ⟨"transactions:read"⟩] := by decide +kernel
    simp only [htable, List.mem_cons, List.not_mem_nil, or_false, exists_eq_or_imp, exists_eq_left]
    rw [grants_wildcard (by decide +kernel), grants_plain (by decide +kernel),
      grants_plain (by decide +kernel), horders]
    rfl
  | operator =>
    have htable : beyondAdmin .operator = [⟨"readings:*"⟩] := by decide +kernel
    simp only [htable, List.mem_singleton, exists_eq_left]
    rw [grants_wildcard (by decide +kernel), hreadings]
    rfl

/-- An administrator may do what a role may do, except where the role uses a resource that
the administrator's table lacks. -/
theorem admin_dominates_iff (role : Role) (permission : String) :
    (role.canAccess permission = true → Role.admin.canAccess permission = true) ↔
      ¬ OnMissingResource permission role := by
  rw [← exceeds_iff_onMissingResource, ← exceeds_iff, Classical.not_and_iff_not_or_not,
    Ne, not_not, ← imp_iff_not_or]

/-- A producer may place offers, and an administrator may not. -/
theorem admin_lacks_offers : ¬ ∀ (role : Role) (permission : String),
    role.canAccess permission = true → Role.admin.canAccess permission = true := by
  intro h
  have hproducer : Role.producer.canAccess "offers:create" = true := by decide +kernel
  have hadmin : Role.admin.canAccess "offers:create" = false := by decide +kernel
  rw [h .producer "offers:create" hproducer] at hadmin
  cases hadmin

end Dominance

end Role

/-- `str::to_lowercase` on a text of ASCII characters maps each letter on its own. -/
def AsciiLowercase (lib : Libraries) : Prop :=
  ∀ s : String, (∀ c ∈ s.toList, c.toNat < 128) →
    lib.toLowercase s = String.ofList (s.toList.map Char.toLower)

end IamService
