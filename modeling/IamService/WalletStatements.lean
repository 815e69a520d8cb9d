import IamService.Infrastructure

/-!
# What the statements on `user_wallets` do

For each writing operation of the wallets repository: when it is refused, and which
rows the tables hold after it. Later modules use these and never unfold a statement.
-/

namespace IamService.WalletRepository
open RelationTables

variable {lower : String → String}

/-- Some wallet of the user is primary. -/
def hasPrimary (db : Database lower) (userId : Uuid) : Prop :=
  ∃ r ∈ db.wallets, r.userId = userId ∧ r.isPrimary = true

instance (db : Database lower) (userId : Uuid) : Decidable (hasPrimary db userId) :=
  inferInstanceAs (Decidable (∃ r ∈ db.wallets, r.userId = userId ∧ r.isPrimary = true))

@[simp] theorem ownedBy_iff {userId : Uuid} {r : WalletRow} :
    ownedBy userId r = true ↔ r.userId = userId := by simp [ownedBy]

@[simp] theorem isWallet_iff {userId walletId : Uuid} {r : WalletRow} :
    isWallet userId walletId r = true ↔ r.id = walletId ∧ r.userId = userId := by simp [isWallet]

theorem hasAnyWallet_iff {db : Database lower} {userId : Uuid} :
    hasAnyWallet db userId = true ↔ ∃ r ∈ db.wallets, r.userId = userId := by
  simp [hasAnyWallet]

section Demotion

@[simp] theorem demote_users (db : Database lower) (userId : Uuid) :
    (demote db userId).users = db.users := rfl

theorem mem_demote {db : Database lower} {userId : Uuid} {r : WalletRow} :
    r ∈ (demote db userId).wallets ↔ ∃ s ∈ db.wallets,
      (if s.userId = userId then { s with isPrimary := false } else s) = r := by
  unfold demote Database.updateWallets
  simp only [mem_updateWhere, ownedBy_iff]

/-- A demoted table has the rows of the table, primary only if they belong to others. -/
theorem mem_demote_primary {db : Database lower} {userId : Uuid} {r : WalletRow}
    (h : r ∈ (demote db userId).wallets) (hp : r.isPrimary = true) :
    r ∈ db.wallets ∧ r.userId ≠ userId := by
  obtain ⟨s, hs, rfl⟩ := mem_demote.mp h
  split at hp
  · simp at hp
  · rename_i hne
    rw [if_neg hne]
    exact ⟨hs, hne⟩

theorem not_hasPrimary_demote (db : Database lower) (userId : Uuid) :
    ¬ hasPrimary (demote db userId) userId := by
  rintro ⟨r, hr, hu, hp⟩
  exact (mem_demote_primary hr hp).2 hu

theorem map_demote {K : Type} (db : Database lower) (userId : Uuid) (key : WalletRow → K)
    (h : ∀ r : WalletRow, key { r with isPrimary := false } = key r) :
    (demote db userId).wallets.map key = db.wallets.map key :=
  map_updateWhere key db.wallets h

/-- Demotion changes nothing exactly when there is nothing to demote. -/
theorem demote_eq_iff {db : Database lower} {userId : Uuid} :
    (demote db userId).wallets = db.wallets ↔ ¬ hasPrimary db userId := by
  constructor
  · rintro h ⟨r, hr, hu, hp⟩
    rw [← h] at hr
    exact (mem_demote_primary hr hp).2 hu
  · intro h
    refine (List.map_congr_left ?_).trans (List.map_id _)
    intro r hr
    simp only [ownedBy_iff, id_eq]
    split
    · rename_i hu
      have hp : r.isPrimary = false := by
        by_contra hp
        exact h ⟨r, hr, hu, by simpa using hp⟩
      cases r
      simp_all
    · rfl

end Demotion

/-- The index `idx_user_wallets_primary`, from unique primaries. -/
theorem primary_nodup {rows : List WalletRow} (hid : (rows.map (·.id)).Nodup)
    (h : ∀ r ∈ rows, ∀ s ∈ rows, r.isPrimary = true → s.isPrimary = true →
      r.userId = s.userId → r = s) : ((rows.filter (·.isPrimary)).map (·.userId)).Nodup := by
  refine List.Nodup.map_on ?_ ((List.Nodup.of_map _ hid).filter _)
  intro r hr s hs hu
  obtain ⟨hr, hpr⟩ := List.mem_filter.mp hr
  obtain ⟨hs, hps⟩ := List.mem_filter.mp hs
  exact h r hr s hs hpr hps hu

section Promotion

/-- The rows after a demotion and a promotion. -/
def promoted (db : Database lower) (userId walletId : Uuid) : List WalletRow :=
  updateWhere (isWallet userId walletId) (fun r => { r with isPrimary := true })
    (demote db userId).wallets

theorem map_promoted {K : Type} (db : Database lower) (userId walletId : Uuid)
    (key : WalletRow → K) (h : ∀ (r : WalletRow) b, key { r with isPrimary := b } = key r) :
    (promoted db userId walletId).map key = db.wallets.map key :=
  (map_updateWhere key _ (fun r => h r true)).trans (map_demote db userId key (fun r => h r false))

/-- A row of the promoted table is a row of the table, primary if it is the wallet named
or if it belongs to another user and was primary. -/
theorem mem_promoted {db : Database lower} {userId walletId : Uuid} {r : WalletRow} :
    r ∈ promoted db userId walletId ↔ ∃ s ∈ db.wallets,
      (if s.userId = userId then { s with isPrimary := decide (s.id = walletId) } else s) = r := by
  simp only [promoted, mem_updateWhere, mem_demote, isWallet_iff]
  constructor
  · rintro ⟨_, ⟨s, hs, rfl⟩, rfl⟩
    refine ⟨s, hs, ?_⟩
    by_cases hu : s.userId = userId <;> by_cases hw : s.id = walletId <;> simp [hu, hw]
  · rintro ⟨s, hs, rfl⟩
    refine ⟨_, ⟨s, hs, rfl⟩, ?_⟩
    by_cases hu : s.userId = userId <;> by_cases hw : s.id = walletId <;> simp [hu, hw]

theorem promoted_valid (db : Database lower) (userId walletId : Uuid) :
    Unique lower db.users (promoted db userId walletId) := by
  have hid := (map_promoted db userId walletId (·.id) (fun _ _ => rfl)).symm ▸ db.unique.walletId
  refine { db.unique with
    walletId := hid
    walletAddress := ?_
    primary := primary_nodup hid ?_ }
  · rw [map_promoted db userId walletId (·.walletAddress) (fun _ _ => rfl)]
    exact db.unique.walletAddress
  · intro r hr s hs hpr hps hu
    apply eq_of_key _ hid hr hs
    obtain ⟨r₀, hr₀, rfl⟩ := mem_promoted.mp hr
    obtain ⟨s₀, hs₀, rfl⟩ := mem_promoted.mp hs
    by_cases hru : r₀.userId = userId <;> by_cases hsu : s₀.userId = userId
    · simp_all
    · simp only [hru, hsu, if_true, if_false] at hu
      exact absurd hu.symm hsu
    · simp only [hru, hsu, if_true, if_false] at hu
    · simp only [hru, hsu, if_false] at hpr hps hu ⊢
      rw [db.primary_unique hr₀ hs₀ hu hpr hps]

theorem promoted_references (db : Database lower) (userId walletId : Uuid) :
    References db.users (promoted db userId walletId) := by
  intro r hr
  obtain ⟨s, hs, rfl⟩ := mem_promoted.mp hr
  have hu : (if s.userId = userId then { s with isPrimary := decide (s.id = walletId) } else s :
      WalletRow).userId = s.userId := by split <;> rfl
  rw [hu]
  exact db.references s hs

/-- `setPrimary` in one equation: it fails with the database, else it commits. -/
theorem setPrimary_eq (c : Choice) (db : Database lower) (userId walletId : Uuid) :
    setPrimary c db userId walletId =
      if c.fails then (.error (.database .unavailable c.errorText), db)
      else (.ok (((promoted db userId walletId).find? (isWallet userId walletId)).map
        WalletRow.intoDomain), ⟨db.users, promoted db userId walletId,
          promoted_valid db userId walletId, promoted_references db userId walletId⟩) := by
  have hcommit := Database.commit_of_valid (promoted_valid db userId walletId)
    (promoted_references db userId walletId)
  have hbody : (do
      let db' ← Database.commit (demote db userId).users (promoted db userId walletId)
      return ((db'.wallets.find? (isWallet userId walletId)).map WalletRow.intoDomain, db') :
      Except DbError (Option UserWallet × Database lower)) =
        .ok (((promoted db userId walletId).find? (isWallet userId walletId)).map
          WalletRow.intoDomain, ⟨db.users, promoted db userId walletId,
            promoted_valid db userId walletId, promoted_references db userId walletId⟩) := by
    rw [demote_users, hcommit]
    rfl
  by_cases hf : c.fails = true
  · simp [setPrimary, execute, select, hf]
  · rw [if_neg hf]
    exact execute_of_ok (by simpa using hf) (by simp) hbody

/-- The wallet named is found after the promotion if it was there before. -/
theorem find_promoted {db : Database lower} {userId walletId : Uuid} :
    ((promoted db userId walletId).find? (isWallet userId walletId)).isSome ↔
      ∃ r ∈ db.wallets, r.id = walletId ∧ r.userId = userId := by
  rw [List.find?_isSome]
  constructor
  · rintro ⟨r, hr, hw⟩
    obtain ⟨s, hs, rfl⟩ := mem_promoted.mp hr
    refine ⟨s, hs, ?_⟩
    by_cases hu : s.userId = userId
    · simpa [hu] using hw
    · simp [hu] at hw
  · rintro ⟨r, hr, hw, hu⟩
    exact ⟨_, mem_promoted.mpr ⟨r, hr, rfl⟩, by simp [hw, hu]⟩

/-- Without the wallet named, a promotion is a mere demotion. -/
theorem promoted_of_absent {db : Database lower} {userId walletId : Uuid}
    (h : ¬ ∃ r ∈ db.wallets, r.id = walletId ∧ r.userId = userId) :
    promoted db userId walletId = (demote db userId).wallets := by
  refine (List.map_congr_left ?_).trans (List.map_id _)
  intro r hr
  obtain ⟨s, hs, rfl⟩ := mem_demote.mp hr
  rw [if_neg]
  · rfl
  · intro hw
    refine h ⟨s, hs, ?_⟩
    by_cases hu : s.userId = userId
    · simpa [hu] using hw
    · simp [hu] at hw

end Promotion

section Deletion

/-- The rows that `deleteIfNotPrimary` removes. -/
def removable (userId walletId : Uuid) (r : WalletRow) : Bool :=
  isWallet userId walletId r && !r.isPrimary

theorem deleteIfNotPrimary_eq (c : Choice) (db : Database lower) (userId walletId : Uuid) :
    deleteIfNotPrimary c db userId walletId =
      if c.fails then (.error (.database .unavailable c.errorText), db)
      else (.ok (db.wallets.any (removable userId walletId)),
        db.keepWallets (fun r => !removable userId walletId r)) := by
  by_cases hf : c.fails = true
  · simp [deleteIfNotPrimary, execute, select, hf]
  · rw [if_neg hf]
    exact execute_of_ok (by simpa using hf) (by simp) rfl

/-- Where nothing is deleted the table stays as it is. -/
theorem keepWallets_of_none {db : Database lower} {userId walletId : Uuid}
    (h : db.wallets.any (removable userId walletId) = false) :
    (db.keepWallets (fun r => !removable userId walletId r)).wallets = db.wallets := by
  refine List.filter_eq_self.mpr ?_
  intro r hr
  simpa using List.any_eq_false.mp h r hr

end Deletion

theorem clearPrimary_eq (c : Choice) (db : Database lower) (userId : Uuid) :
    clearPrimary c db userId =
      if c.fails then (.error (.database .unavailable c.errorText), db)
      else (.ok (), demote db userId) := by
  by_cases hf : c.fails = true
  · simp [clearPrimary, execute, select, hf]
  · rw [if_neg hf]
    exact execute_of_ok (by simpa using hf) (by simp) rfl

section Insertion

variable {c : Choice} {now : ℕ} {db : Database lower} {userId : Uuid} {walletAddress : String}
  {label : Option String} {isPrimary : Bool}

/-- The table accepts a further row. -/
structure Accepts (db : Database lower) (row : WalletRow) : Prop where
  id : ∀ r ∈ db.wallets, r.id ≠ row.id
  address : ∀ r ∈ db.wallets, r.walletAddress ≠ row.walletAddress
  primary : row.isPrimary = true → ¬ hasPrimary db row.userId
  owner : row.userId ∈ db.users.map (·.id)

theorem append_valid_iff {row : WalletRow} :
    (Unique lower db.users (db.wallets ++ [row]) ∧ References db.users (db.wallets ++ [row])) ↔
      Accepts db row := by
  have hu := db.unique
  constructor
  · rintro ⟨h, hr⟩
    have hid := h.walletId
    have had := h.walletAddress
    simp only [List.map_append, List.map_cons, List.map_nil, List.nodup_append] at hid had
    refine ⟨fun r hm => hid.2.2 _ (List.mem_map_of_mem hm) _ (by simp),
      fun r hm => had.2.2 _ (List.mem_map_of_mem hm) _ (by simp), ?_, hr row (by simp)⟩
    rintro hp ⟨r, hm, hru, hrp⟩
    have he := eq_of_key (·.userId) h.primary
      (List.mem_filter.mpr ⟨List.mem_append_left [row] hm, hrp⟩)
      (List.mem_filter.mpr ⟨List.mem_append_right db.wallets (List.mem_singleton_self row), hp⟩) hru
    exact hid.2.2 _ (List.mem_map_of_mem hm) row.id (by simp) (by rw [he])
  · intro h
    have hid : ((db.wallets ++ [row]).map (·.id)).Nodup := by
      rw [List.map_append, List.nodup_append]
      refine ⟨hu.walletId, by simp, ?_⟩
      rintro _ hm _ hrow rfl
      obtain ⟨r, hr, he⟩ := List.mem_map.mp hm
      exact h.id r hr (by simpa [he] using hrow)
    have had : ((db.wallets ++ [row]).map (·.walletAddress)).Nodup := by
      rw [List.map_append, List.nodup_append]
      refine ⟨hu.walletAddress, by simp, ?_⟩
      rintro _ hm _ hrow rfl
      obtain ⟨r, hr, he⟩ := List.mem_map.mp hm
      exact h.address r hr (by simpa [he] using hrow)
    refine ⟨{ hu with walletId := hid, walletAddress := had, primary := primary_nodup hid ?_ }, ?_⟩
    · intro r hr s hs hpr hps he
      rcases List.mem_append.mp hr with hr | hr <;> rcases List.mem_append.mp hs with hs | hs
      · exact db.primary_unique hr hs he hpr hps
      · rw [List.mem_singleton.mp hs] at he hps
        exact absurd ⟨r, hr, he, hpr⟩ (h.primary hps)
      · rw [List.mem_singleton.mp hr] at he hpr
        exact absurd ⟨s, hs, he.symm, hps⟩ (h.primary hpr)
      · rw [List.mem_singleton.mp hr, List.mem_singleton.mp hs]
    · intro r hr
      rcases List.mem_append.mp hr with hr | hr
      · exact db.references r hr
      · rw [List.mem_singleton.mp hr]
        exact h.owner

/-- The row that an insertion tries to append, if its texts fit their columns. -/
def candidate (c : Choice) (now : ℕ) (userId : Uuid) (walletAddress : String)
    (label : Option String) (isPrimary : Bool) : Except DbError WalletRow := do
  let walletAddress ← fit 64 walletAddress
  let label ← fitOption 50 label
  return newWalletRow c now userId walletAddress label isPrimary

theorem insertRow_eq_candidate : insertRow c now db userId walletAddress label isPrimary =
    (candidate c now userId walletAddress label isPrimary).bind fun row =>
      (Database.commit db.users (db.wallets ++ [row])).map (fun db' => (row, db')) := by
  unfold insertRow candidate
  cases fit 64 walletAddress with
  | error e => rfl
  | ok a => cases fitOption 50 label with
    | error e => rfl
    | ok l => cases hc : (Database.commit db.users (db.wallets ++
        [newWalletRow c now userId a l isPrimary]) : Except DbError (Database lower)) <;>
      simp [Bind.bind, Except.bind, pure, Except.pure, Except.map, hc]

/-- An insertion appends a fresh, acceptable row of the user. -/
theorem insertRow_ok {row : WalletRow} {db' : Database lower}
    (h : insertRow c now db userId walletAddress label isPrimary = .ok (row, db')) :
    candidate c now userId walletAddress label isPrimary = .ok row ∧ Accepts db row ∧
      db'.users = db.users ∧ db'.wallets = db.wallets ++ [row] := by
  rw [insertRow_eq_candidate] at h
  cases hr : candidate c now userId walletAddress label isPrimary with
  | error e => rw [hr] at h; cases h
  | ok row' =>
    rw [hr] at h
    cases hc : (Database.commit db.users (db.wallets ++ [row']) :
        Except DbError (Database lower)) with
    | error e => simp [Except.bind, Except.map, hc] at h
    | ok db'' =>
      simp only [Except.bind, Except.map, hc, Except.ok.injEq, Prod.mk.injEq] at h
      obtain ⟨rfl, rfl⟩ := h
      obtain ⟨hus, hws⟩ := Database.commit_tables hc
      have hv : Unique lower db.users (db.wallets ++ [row']) ∧
          References db.users (db.wallets ++ [row']) := by
        have := db''.unique
        have := db''.references
        rw [hus, hws] at *
        exact ⟨‹_›, ‹_›⟩
      exact ⟨rfl, append_valid_iff.mp hv, hus, hws⟩

/-- An acceptable row is inserted. -/
theorem insertRow_of_accepts {row : WalletRow}
    (hr : candidate c now userId walletAddress label isPrimary = .ok row) (h : Accepts db row) :
    ∃ db', insertRow c now db userId walletAddress label isPrimary = .ok (row, db') := by
  obtain ⟨hu, href⟩ := append_valid_iff.mpr h
  rw [insertRow_eq_candidate, hr]
  exact ⟨_, by rw [Except.bind, Database.commit_of_valid hu href, Except.map]⟩

/-- The columns an insertion fixes. -/
theorem candidate_ok {row : WalletRow}
    (h : candidate c now userId walletAddress label isPrimary = .ok row) :
    row.id = c.uuid ∧ row.userId = userId ∧ row.isPrimary = isPrimary ∧
      row.blockchainRegistered = false ∧ fit 64 walletAddress = .ok row.walletAddress := by
  unfold candidate at h
  cases ha : fit 64 walletAddress with
  | error e => rw [ha] at h; cases h
  | ok a => cases hl : fitOption 50 label with
    | error e => rw [ha, hl] at h; cases h
    | ok l =>
      rw [ha, hl] at h
      cases h
      exact ⟨rfl, rfl, rfl, rfl, rfl⟩

variable (c now db userId walletAddress label isPrimary) in
/-- `insert` is its statement, up to the form of the answer. -/
theorem insert_eq_execute :
    let r := execute c (walletAddress :: label.toList) db
      (insertRow c now db userId walletAddress label isPrimary)
    let q := insert c now db userId walletAddress label isPrimary
    q.2 = r.2 ∧ (∀ row, r.1 = .ok row → q.1 = .ok row.intoDomain) ∧
      (∀ e, r.1 = .error e → ∃ e', q.1 = .error e') := by
  dsimp only [insert]
  cases (execute c (walletAddress :: label.toList) db
      (insertRow c now db userId walletAddress label isPrimary)).1 with
  | ok row => simp
  | error e => split <;> simp_all

/-- What an `insert` that succeeds has done. -/
theorem insert_ok {wallet : UserWallet}
    (h : (insert c now db userId walletAddress label isPrimary).1 = .ok wallet) :
    ∃ row, candidate c now userId walletAddress label isPrimary = .ok row ∧ Accepts db row ∧
      wallet = row.intoDomain ∧
      (insert c now db userId walletAddress label isPrimary).2.users = db.users ∧
      (insert c now db userId walletAddress label isPrimary).2.wallets = db.wallets ++ [row] := by
  obtain ⟨hdb, hok, herr⟩ := insert_eq_execute c now db userId walletAddress label isPrimary
  cases hx : (execute c (walletAddress :: label.toList) db
      (insertRow c now db userId walletAddress label isPrimary)).1 with
  | ok row =>
    obtain ⟨hr, ha, hus, hws⟩ := insertRow_ok (execute_ok hx)
    rw [hok row hx] at h
    cases h
    exact ⟨row, hr, ha, rfl, hdb ▸ hus, hdb ▸ hws⟩
  | error e =>
    obtain ⟨e', he⟩ := herr e hx
    rw [he] at h
    cases h

/-- An `insert` that succeeds was given a text. -/
theorem insert_text {wallet : UserWallet}
    (h : (insert c now db userId walletAddress label isPrimary).1 = .ok wallet) :
    sqlText walletAddress = true := by
  obtain ⟨-, -, herr⟩ := insert_eq_execute c now db userId walletAddress label isPrimary
  cases hx : (execute c (walletAddress :: label.toList) db
      (insertRow c now db userId walletAddress label isPrimary)).1 with
  | ok row =>
    have htexts := (execute_available hx).2
    simp only [List.all_cons, Bool.and_eq_true] at htexts
    exact htexts.1
  | error e =>
    obtain ⟨e', he⟩ := herr e hx
    rw [he] at h
    cases h

/-- A refused `insert` leaves the database alone. -/
theorem insert_error {e : ApiError}
    (h : (insert c now db userId walletAddress label isPrimary).1 = .error e) :
    (insert c now db userId walletAddress label isPrimary).2 = db := by
  obtain ⟨hdb, hok, -⟩ := insert_eq_execute c now db userId walletAddress label isPrimary
  cases hx : (execute c (walletAddress :: label.toList) db
      (insertRow c now db userId walletAddress label isPrimary)).1 with
  | ok row => rw [hok row hx] at h; cases h
  | error e' => rw [hdb, execute_error hx]

/-- Why an insertion is refused: the database is unavailable, a parameter is no text, or
the row does not fit its columns or is not acceptable. -/
def Refused (c : Choice) (now : ℕ) (db : Database lower) (userId : Uuid) (walletAddress : String)
    (label : Option String) (isPrimary : Bool) : Prop :=
  c.fails = true ∨ (walletAddress :: label.toList).all sqlText = false ∨
    ∀ row, candidate c now userId walletAddress label isPrimary = .ok row → ¬ Accepts db row

theorem insert_error_iff :
    (∃ e, (insert c now db userId walletAddress label isPrimary).1 = .error e) ↔
      Refused c now db userId walletAddress label isPrimary := by
  obtain ⟨-, hok, herr⟩ := insert_eq_execute c now db userId walletAddress label isPrimary
  constructor
  · rintro ⟨e, he⟩
    by_contra hn
    simp only [Refused, not_or, not_forall, not_not, Bool.not_eq_true, Bool.not_eq_false] at hn
    obtain ⟨hf, hp, row, hr, ha⟩ := hn
    obtain ⟨db', hdb'⟩ := insertRow_of_accepts hr ha
    rw [hok row (by rw [execute_of_ok hf hp hdb'])] at he
    cases he
  · intro h
    cases hx : (execute c (walletAddress :: label.toList) db
        (insertRow c now db userId walletAddress label isPrimary)).1 with
    | error e => exact herr e hx
    | ok row =>
      exfalso
      obtain ⟨hf, hp⟩ := execute_available hx
      obtain ⟨hr, ha, -⟩ := insertRow_ok (execute_ok hx)
      rcases h with h | h | h
      · simp [hf] at h
      · simp [hp] at h
      · exact h row hr ha

end Insertion

section Custody

variable (c : Choice) (now : ℕ) (db : Database lower) (userId : Uuid)

/-- The custodial transaction appends a primary wallet to the demoted table and fills the
key slot of its owner, or does nothing. -/
theorem persistCustodialWallet_cases (walletAddress : String) (label : Option String)
    (key : KeyMaterial) (kdfVersion : ℕ) :
    (∃ e, persistCustodialWallet c now db userId walletAddress label key kdfVersion =
      (.error e, db)) ∨ ∃ row address db',
      candidate c now userId walletAddress label true = .ok row ∧
      Accepts (demote db userId) row ∧ fit 88 walletAddress = .ok address ∧
      persistCustodialWallet c now db userId walletAddress label key kdfVersion =
        (.ok row.intoDomain, db') ∧
      db'.wallets = (demote db userId).wallets ++ [row] ∧
      db'.users = updateWhere (fun r => r.id = userId)
        (fun r => { r with
          keyMaterial := some key
          kdfVersion := kdfVersion
          walletAddress := some address }) db.users := by
  unfold persistCustodialWallet
  rcases execute_cases c (walletAddress :: label.toList) db (do
    let stored ← insertRow c now (demote db userId) userId walletAddress label true
    let address ← fit 88 walletAddress
    let db' ← Database.commit (updateWhere (fun r => r.id = userId)
      (fun r => { r with
        keyMaterial := some key
        kdfVersion := kdfVersion
        walletAddress := some address }) stored.2.users) stored.2.wallets
    return (stored.1.intoDomain, db')) with h | ⟨wallet, db', hb, h⟩
  · exact .inl h
  · simp only [bind_eq_ok, pure_eq_ok] at hb
    obtain ⟨⟨row, inserted⟩, hi, address, ha, db₁, hc, he⟩ := hb
    cases he
    obtain ⟨hrow, hacc, hus, hws⟩ := insertRow_ok hi
    obtain ⟨hus', hws'⟩ := Database.commit_tables hc
    exact .inr ⟨row, address, db', hrow, hacc, ha, h, hws'.trans hws, by rw [hus', hus, demote_users]⟩

/-- Recording a registration sets the flag and the signature of one address. -/
theorem markRegistered_cases (address signature : String) :
    (∃ e, markRegistered c db userId address signature = (.error e, db)) ∨ ∃ text db',
      fit 128 signature = .ok text ∧
      markRegistered c db userId address signature = (.ok (), db') ∧ db'.users = db.users ∧
      db'.wallets = updateWhere (fun r => r.userId = userId ∧ r.walletAddress = address)
        (fun r => { r with
          blockchainRegistered := true
          blockchainTxSignature := some text }) db.wallets := by
  unfold markRegistered
  rcases execute_cases c [signature, address] db (do
    let signature ← fit 128 signature
    return ((), db.updateWallets (fun r => r.userId = userId ∧ r.walletAddress = address)
      (fun r => { r with
        blockchainRegistered := true
        blockchainTxSignature := some signature })
      (fun _ => ⟨rfl, rfl, rfl, id⟩))) with h | ⟨a, db', hb, h⟩
  · exact .inl h
  · simp only [bind_eq_ok, pure_eq_ok] at hb
    obtain ⟨text, hf, he⟩ := hb
    cases he
    exact .inr ⟨text, _, hf, h, rfl, rfl⟩

end Custody

end IamService.WalletRepository
