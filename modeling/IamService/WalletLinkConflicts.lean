import IamService.WalletAddressTracking
import IamService.WalletFailureAtomicity
import IamService.ReferenceStates

/-!
# What a conflict of a link means

An insertion reports every violated unique constraint as an address that is already
linked. In a sequential run the index on primary wallets is never the reason: each write
path demotes before it promotes, and the one that skips the demotion has found no wallet
of the user. A link of a new wallet is then refused exactly when its address is taken,
provided that its label is a text that the database accepts.
-/

namespace IamService.WalletLinkConflicts
open EffectPrograms RelationTables WalletRepository AuthService ReferenceLibraries
open WalletAddressTracking WalletFailureAtomicity

/-- The index on the primary wallets: one for each user. -/
def PrimaryIndex (rows : List WalletRow) : Prop :=
  ((rows.filter (·.isPrimary)).map (·.userId)).Nodup

variable (self : AuthService)

/-- The rows that each statement of an operation would leave satisfy the index. -/
def KeepsIndex (w : self.State) : Op → Prop
  | .wallet (.insert userId walletAddress label isPrimary) => ∀ c now row,
      candidate c now userId walletAddress label isPrimary = .ok row →
        PrimaryIndex (w.db.wallets ++ [row])
  | .wallet (.persistCustodialWallet userId walletAddress label _ _) =>
    PrimaryIndex (demote w.db userId).wallets ∧ ∀ c now row,
      candidate c now userId walletAddress label true = .ok row →
        PrimaryIndex ((demote w.db userId).wallets ++ [row])
  | .wallet (.setPrimary userId walletId) =>
    PrimaryIndex (demote w.db userId).wallets ∧ PrimaryIndex (promoted w.db userId walletId)
  | .wallet (.clearPrimary userId) => PrimaryIndex (demote w.db userId).wallets
  | .wallet (.deleteIfNotPrimary userId walletId) =>
    PrimaryIndex (w.db.wallets.filter (fun r => !removable userId walletId r))
  | .wallet (.markRegistered userId address _) => ∀ text : String,
      PrimaryIndex (updateWhere (fun r => r.userId = userId ∧ r.walletAddress = address)
        (fun r => { r with
          blockchainRegistered := true
          blockchainTxSignature := some text }) w.db.wallets)
  -- no other statement writes a wallet
  | _ => True

/-- The call keeps the index with every statement, and a link of a valid key is a conflict
exactly when the address is present. -/
structure LinksSoundly (w : self.State) (r : Request) : Prop where
  index : Encounters self.handle (fun _ w o => KeepsIndex self w o) (self.method r.call).run
    r.oracle w
  conflict : ∀ userId walletAddress label isPrimary o,
    r = ⟨.linkWallet userId walletAddress label isPrimary, o⟩ →
    (self.lib.parsePubkey walletAddress).isOk →
    ((∃ m, (self.serve w ⟨.linkWallet userId walletAddress label isPrimary, o⟩).1 =
        .error (.conflict m)) ↔
      ∃ x ∈ w.db.wallets, x.walletAddress = walletAddress)

/-- A request under a healthy infrastructure, whose new ids are fresh; a link is for a user
who exists, with a label from `labels`. -/
structure Admissible (labels : String → Prop) (w : self.State) (r : Request) : Prop where
  healthy : Healthy r
  fresh : ∀ n, (r.oracle n).uuid ∉ w.db.wallets.map (·.id)
  link : ∀ userId walletAddress label isPrimary,
    r.call = .linkWallet userId walletAddress label isPrimary →
    userId ∈ w.db.users.map (·.id) ∧ ∀ text, label = some text → labels text

variable {self}

section Index

variable {lower : String → String}

theorem primaryIndex_append {rows : List WalletRow} {row : WalletRow} (h : PrimaryIndex rows)
    (hrow : row.isPrimary = true → ∀ r ∈ rows, r.isPrimary = true → r.userId ≠ row.userId) :
    PrimaryIndex (rows ++ [row]) := by
  unfold PrimaryIndex at h ⊢
  rw [List.filter_append, List.map_append, List.nodup_append]
  cases hp : row.isPrimary with
  | false => simpa [List.filter, hp] using h
  | true =>
    refine ⟨h, by simp [List.filter, hp], ?_⟩
    intro userId hmem userId' hmem'
    obtain ⟨r, hr, rfl⟩ := List.mem_map.mp hmem
    obtain ⟨hr, hrp⟩ := List.mem_filter.mp hr
    simp only [List.filter, hp, List.map_cons, List.map_nil, List.mem_singleton] at hmem'
    rw [hmem']
    exact hrow hp r hr hrp

/-- A link that skips the demotion of a primary wallet has found no wallet of the user. -/
theorem not_hasPrimary_of_skip {db : Database lower} {userId : Uuid} {isPrimary : Bool}
    (hskip : ¬ (hasAnyWallet db userId && isPrimary) = true) (hprimary : isPrimary = true) :
    ¬ hasPrimary db userId := by
  rintro ⟨r, hr, hu, -⟩
  apply hskip
  rw [hasAnyWallet_iff.mpr ⟨r, hr, hu⟩, hprimary]
  rfl

/-- Every operation but an insertion keeps the index, in any state. -/
theorem keepsIndex_of_kind {o : Op} (h : o.kind ≠ .insertWallet) (w : self.State) :
    KeepsIndex self w o := by
  unfold KeepsIndex
  split
  · simp at h
  · rename_i userId walletAddress label key kdfVersion
    refine ⟨(demote w.db userId).unique.primary, ?_⟩
    intro c now row hrow
    apply primaryIndex_append (demote w.db userId).unique.primary
    intro _ r hr hp hu
    exact (mem_demote_primary hr hp).2 (hu.trans (candidate_ok hrow).2.1)
  · exact ⟨(demote w.db _).unique.primary, (promoted_valid w.db _ _).primary⟩
  · exact (demote w.db _).unique.primary
  · rename_i userId walletId
    exact (w.db.keepWallets (fun r => !removable userId walletId r)).unique.primary
  · rename_i userId address signature
    intro text
    exact (w.db.updateWallets (fun r => r.userId = userId ∧ r.walletAddress = address)
      (fun r => { r with
        blockchainRegistered := true
        blockchainTxSignature := some text }) (fun _ => ⟨rfl, rfl, rfl, id⟩)).unique.primary
  · trivial

/-- An insertion keeps the index when no wallet of the user is primary. -/
theorem keepsIndex_insert {w : self.State} {userId : Uuid} {walletAddress : String}
    {label : Option String} {isPrimary : Bool}
    (h : isPrimary = true → ¬ hasPrimary w.db userId) :
    KeepsIndex self w (.wallet (.insert userId walletAddress label isPrimary)) := by
  intro c now row hrow
  obtain ⟨-, hu, hp, -, -⟩ := candidate_ok hrow
  apply primaryIndex_append w.db.unique.primary
  intro hprimary r hr hrp hru
  exact h (hp ▸ hprimary) ⟨r, hr, hru.trans hu, hrp⟩

end Index

section Statements

variable {w : self.State}

/-- A program without insertions keeps the index with every statement. -/
theorem encounters_limited {α : Type} {kinds : List OpKind} {p : Program α} (h : Limited kinds p)
    (hk : .insertWallet ∉ kinds) (f : ℕ → Choice) (w : self.State) :
    Encounters self.handle (fun _ w o => KeepsIndex self w o) p f w := by
  induction p generalizing f w with
  | ret a => trivial
  | eff o k ih =>
    refine ⟨keepsIndex_of_kind ?_ w, ih _ (h.2 _) _ _⟩
    intro hkind
    exact hk (hkind ▸ h.1)

theorem encounters_insertLinked {userId : Uuid} {walletAddress : String} {label : Option String}
    {isPrimary : Bool} (h : isPrimary = true → ¬ hasPrimary w.db userId) (hasExisting : Bool)
    (f : ℕ → Choice) :
    Encounters self.handle (fun _ w o => KeepsIndex self w o)
      (self.insertLinked userId walletAddress label isPrimary hasExisting).run f w := by
  refine ⟨keepsIndex_insert h, ?_⟩
  cases (self.handle (f 0) w (.wallet (.insert userId walletAddress label isPrimary))).1 with
  | error e => trivial
  | ok wallet => exact encounters_limited (self.afterInsert_limited _ _ _ _ _) (by simp) _ _

/-- The wallets of the user are demoted, or there are none, when a link inserts. -/
theorem encounters_linkWallet (userId : Uuid) (walletAddress : String) (label : Option String)
    (isPrimary : Bool) (f : ℕ → Choice) :
    Encounters self.handle (fun _ w o => KeepsIndex self w o)
      (self.linkWallet userId walletAddress label isPrimary).run f w := by
  unfold linkWallet
  cases self.lib.parsePubkey walletAddress with
  | error e => trivial
  | ok pubkey =>
    simp only [run_bind', run_attempt, walletRepo, Prog.eff_bind, Prog.ret_bind, encounters_eff,
      handle_wallet, WalletRepository.handle, select_nil]
    refine ⟨keepsIndex_of_kind (by simp) w, ?_⟩
    cases (f 0).fails with
    | true => trivial
    | false =>
      simp only [Bool.false_eq_true, if_false, proceed_ok]
      split
      · simp only [run_bind', run_attempt, Prog.eff_bind, Prog.ret_bind, encounters_eff,
          handle_wallet, WalletRepository.handle, clearPrimary_eq]
        refine ⟨keepsIndex_of_kind (by simp) _, ?_⟩
        cases (f (0 + 1)).fails with
        | true => trivial
        | false =>
          exact encounters_insertLinked (fun _ => not_hasPrimary_demote w.db userId) _ _
      · rename_i hskip
        apply encounters_insertLinked
        exact fun hprimary => not_hasPrimary_of_skip hskip hprimary

end Statements

section Conflicts

variable {lower : String → String} {db : Database lower} {c : Choice} {now : ℕ} {userId : Uuid}
  {walletAddress : String} {label : Option String} {isPrimary : Bool}

/-- A row that is wanting in nothing but its address is a conflict exactly when that is
taken. -/
theorem insert_conflict_iff {row : WalletRow} (hup : c.fails = false)
    (htexts : (walletAddress :: label.toList).all sqlText = true)
    (hrow : candidate c now userId walletAddress label isPrimary = .ok row)
    (haddress : row.walletAddress = walletAddress)
    (haccepts : (∀ r ∈ db.wallets, r.walletAddress ≠ walletAddress) → Accepts db row) :
    (∃ m, (insert c now db userId walletAddress label isPrimary).1 = .error (.conflict m)) ↔
      ∃ x ∈ db.wallets, x.walletAddress = walletAddress := by
  by_cases htaken : ∃ x ∈ db.wallets, x.walletAddress = walletAddress
  · refine iff_of_true ?_ htaken
    obtain ⟨x, hx, hxa⟩ := htaken
    have hnot : ¬ Unique lower db.users (db.wallets ++ [row]) := by
      intro hunique
      have hnodup := hunique.walletAddress
      rw [List.map_append, List.nodup_append] at hnodup
      exact hnodup.2.2 _ (List.mem_map_of_mem hx) row.walletAddress (by simp)
        (hxa.trans haddress.symm)
    have hcommit : (Database.commit db.users (db.wallets ++ [row]) :
        Except DbError (Database lower)) = .error .uniqueViolation := dif_neg hnot
    have hbody : insertRow c now db userId walletAddress label isPrimary =
        .error .uniqueViolation := by
      rw [insertRow_eq_candidate, hrow, Except.bind, hcommit, Except.map]
    have hselect : select c (walletAddress :: label.toList) () = .ok () := by
      simp only [select, hup, htexts, Bool.false_eq_true, if_false, if_true]
    refine ⟨"Wallet address " ++ walletAddress ++ " is already linked", ?_⟩
    simp only [WalletRepository.insert, execute, hselect, hbody]
  · refine iff_of_false ?_ htaken
    rintro ⟨m, hm⟩
    have hfree : ∀ r ∈ db.wallets, r.walletAddress ≠ walletAddress := by
      intro r hr he
      exact htaken ⟨r, hr, he⟩
    rcases insert_error_iff.mp ⟨_, hm⟩ with hdown | hbad | hnone
    · rw [hup] at hdown
      cases hdown
    · rw [htexts] at hbad
      cases hbad
    · exact hnone row hrow (haccepts hfree)

/-- A label of fifty characters without NUL. -/
def PlainLabel (text : String) : Prop := text.toList.length ≤ 50 ∧ sqlText text = true

theorem candidate_of_plain (hlen : walletAddress.toList.length ≤ 64)
    (hlabel : ∀ text, label = some text → PlainLabel text) :
    candidate c now userId walletAddress label isPrimary =
      .ok (newWalletRow c now userId walletAddress label isPrimary) := by
  have hfit : fitOption 50 label = .ok label := by
    cases label with
    | none => rfl
    | some text =>
      rw [fitOption, fit_of_le (hlabel text rfl).1]
      rfl
  unfold candidate
  rw [fit_of_le hlen, hfit]
  rfl

theorem all_sqlText (haddress : sqlText walletAddress = true)
    (hlabel : ∀ text, label = some text → PlainLabel text) :
    (walletAddress :: label.toList).all sqlText = true := by
  cases label with
  | none => simp [haddress]
  | some text => simp [haddress, (hlabel text rfl).2]

/-- The rest of a link is a conflict exactly when the address is taken. -/
theorem insertLinked_conflict_iff {w : self.State} {o : ℕ → Choice}
    (hpk : (self.lib.parsePubkey walletAddress).isOk) (hlen : walletAddress.toList.length ≤ 64)
    (htext : sqlText walletAddress = true) (hlabel : ∀ text, label = some text → PlainLabel text)
    (hup : (o 0).fails = false) (hfresh : (o 0).uuid ∉ w.db.wallets.map (·.id))
    (howner : userId ∈ w.db.users.map (·.id))
    (hprimary : isPrimary = true → ¬ hasPrimary w.db userId) (hasExisting : Bool) :
    (∃ m, (run self.handle (self.insertLinked userId walletAddress label isPrimary
        hasExisting).run o w).1 = .error (.conflict m)) ↔
      ∃ x ∈ w.db.wallets, x.walletAddress = walletAddress := by
  have hrow : candidate (o 0) (w.now + (o 0).elapsed) userId walletAddress label isPrimary =
      .ok (newWalletRow (o 0) (w.now + (o 0).elapsed) userId walletAddress label isPrimary) :=
    candidate_of_plain hlen hlabel
  have haccepts : (∀ r ∈ w.db.wallets, r.walletAddress ≠ walletAddress) → Accepts w.db
      (newWalletRow (o 0) (w.now + (o 0).elapsed) userId walletAddress label isPrimary) := by
    intro hfree
    refine ⟨?_, hfree, hprimary, howner⟩
    intro r hr he
    exact hfresh (List.mem_map.mpr ⟨r, hr, he⟩)
  rw [← insert_conflict_iff hup (all_sqlText htext hlabel) hrow rfl haccepts, insertLinked_run]
  cases hq : (WalletRepository.insert (o 0) (w.now + (o 0).elapsed) w.db userId walletAddress
      label isPrimary).1 with
  | error e => simp [hq]
  | ok wallet =>
    refine iff_of_false ?_ (by simp)
    rintro ⟨m, hm⟩
    obtain ⟨v, hv⟩ := (afterInsert_returns_ok userId isPrimary hasExisting wallet hpk).run
      (H := self.handle) (fun n => o (n + 1)) { w.evolve (o 0) with db := (WalletRepository.insert
        (o 0) (w.now + (o 0).elapsed) w.db userId walletAddress label isPrimary).2 }
    simp only [hq] at hm
    rw [hv] at hm
    cases hm

theorem linkWallet_conflict_iff (hparse : KeyTextLength self.lib) (hkeys : KeyCharacters self.lib)
    {w : self.State} {o : ℕ → Choice}
    (h : Admissible self PlainLabel w ⟨.linkWallet userId walletAddress label isPrimary, o⟩)
    (hpk : (self.lib.parsePubkey walletAddress).isOk) :
    (∃ m, (self.serve w ⟨.linkWallet userId walletAddress label isPrimary, o⟩).1 =
        .error (.conflict m)) ↔
      ∃ x ∈ w.db.wallets, x.walletAddress = walletAddress := by
  obtain ⟨hup, hfresh, hlink⟩ := h
  obtain ⟨howner, hlabel⟩ := hlink _ _ _ _ rfl
  have hkept : ∀ x : String, (∃ r ∈ (demote w.db userId).wallets, r.walletAddress = x) ↔
      ∃ r ∈ w.db.wallets, r.walletAddress = x := by
    intro x
    simpa using congrArg (x ∈ ·) (map_demote w.db userId (·.walletAddress) (fun _ => rfl))
  simp only [AuthService.serve, AuthService.method, linkWallet_run]
  cases hkey : self.lib.parsePubkey walletAddress with
  | error e => simp [hkey, Except.isOk, Except.toBool] at hpk
  | ok pubkey =>
    have hlen : walletAddress.toList.length ≤ 64 := (hparse _ _ hkey).trans (by decide)
    have htext := hkeys _ _ hkey
    have hup0 : (o 0).fails = false := hup 0
    have hup1 : (o 1).fails = false := hup 1
    simp only [hup0, hup1, Bool.false_eq_true, if_false]
    split
    · -- the demotion leaves the ids and the addresses as they are
      rw [← hkept walletAddress]
      apply insertLinked_conflict_iff hpk hlen htext hlabel (hup 2)
      · have hids := map_demote w.db userId (·.id) (fun _ => rfl)
        rw [hids]
        exact hfresh 2
      · exact howner
      · exact fun _ => not_hasPrimary_demote w.db userId
    · rename_i hskip
      apply insertLinked_conflict_iff (w := w.evolve (o 0)) (o := fun n => o (n + 1)) hpk hlen htext
        hlabel (hup 1) (hfresh 1) howner
      exact fun hprimary => not_hasPrimary_of_skip hskip hprimary

end Conflicts

section Runs

theorem encounters_method (call : Call) (f : ℕ → Choice) (w : self.State) :
    Encounters self.handle (fun _ w o => KeepsIndex self w o) (self.method call).run f w := by
  cases call with
  | linkWallet userId walletAddress label isPrimary => exact encounters_linkWallet _ _ _ _ _
  | _ => exact encounters_limited (self.method_limited _) (by simp) _ _

theorem linksSoundly_of_admissible (hparse : KeyTextLength self.lib)
    (hkeys : KeyCharacters self.lib) {w : self.State} {r : Request}
    (h : Admissible self PlainLabel w r) : LinksSoundly self w r := by
  refine ⟨encounters_method _ _ _, ?_⟩
  rintro userId walletAddress label isPrimary o rfl hpk
  exact linkWallet_conflict_iff hparse hkeys h hpk

variable (self) in
/-- In every sequential run no statement violates the index on primary wallets, and a link
of a valid key is a conflict exactly when its address is taken. -/
theorem conflict_iff_taken (hparse : KeyTextLength self.lib) (hkeys : KeyCharacters self.lib)
    (w : self.State) (rs : List Request) (h : self.Along (Admissible self PlainLabel) w rs) :
    self.Along (LinksSoundly self) w rs := by
  induction rs generalizing w with
  | nil => trivial
  | cons r rs ih => exact ⟨linksSoundly_of_admissible hparse hkeys h.1, ih _ h.2⟩

end Runs

section Alice

/-- What holds of the choices given and of the undisturbed one holds of all. -/
theorem oracle_forall (P : Choice → Prop) {choices : List Choice} (h : ∀ c ∈ {} :: choices, P c)
    (n : ℕ) : P (oracle choices n) := by
  obtain ⟨hdefault, hchoices⟩ := List.forall_mem_cons.mp h
  simp only [oracle, List.getD_eq_getElem?_getD]
  cases hc : choices[n]? with
  | none => exact hdefault
  | some c => exact hchoices c (List.mem_of_getElem? hc)

/-- Alice links a wallet, and links it once more. -/
def linkTwice (label : Option String) : List Request :=
  [linkAlice,
    ⟨.linkWallet ⟨1⟩ "11111111111111111111111111111115" label true,
      oracle [{}, {}, { uuid := ⟨9⟩ }]⟩]

theorem admissible_linkTwice {labels : String → Prop} {label : Option String}
    (hlabel : ∀ text, label = some text → labels text) :
    service.Along (Admissible service labels) registered (linkTwice label) := by
  rw [registered_eq]
  refine ⟨⟨?_, ?_, ?_⟩, ⟨?_, ?_, ?_⟩, trivial⟩
  · exact fun n => oracle_forall (fun c => c.fails = false) (by decide) n
  · exact fun n => oracle_forall (fun c => c.uuid ∉ registeredState.db.wallets.map (·.id))
      (by decide +kernel) n
  · rintro _ _ _ _ ⟨⟩
    exact ⟨by decide +kernel, by simp⟩
  · exact fun n => oracle_forall (fun c => c.fails = false) (by decide) n
  · exact fun n => oracle_forall
      (fun c => c.uuid ∉ (service.after registeredState linkAlice).db.wallets.map (·.id))
      (by decide +kernel) n
  · rintro _ _ _ _ ⟨⟩
    exact ⟨by decide +kernel, hlabel⟩

/-- The first link is no conflict, and the second is one. -/
theorem conflict_iff_taken_alice :
    service.Along (LinksSoundly service) registered (linkTwice none) :=
  conflict_iff_taken service keyTextLength keyCharacters registered (linkTwice none)
    (admissible_linkTwice (by simp))

def nulLabel : Option String := some (String.ofList [Char.ofNat 0])

/-- The label is one NUL character: the link is refused as a database error, although the
address is taken. -/
theorem nul_label_hides_conflict : ¬ ∀ rs : List Request,
    service.Along (Admissible service (fun text => text.toList.length ≤ 50)) registered rs →
      service.Along (LinksSoundly service) registered rs := by
  intro h
  have hshort : ∀ text, nulLabel = some text → text.toList.length ≤ 50 := by
    rintro _ ⟨⟩
    decide
  obtain ⟨-, ⟨-, hconflict⟩, -⟩ := h _ (admissible_linkTwice hshort)
  have hvalid : (service.lib.parsePubkey "11111111111111111111111111111115").isOk := by
    decide +kernel
  rw [registered_eq] at hconflict
  have htaken : ∃ x ∈ (service.after registeredState linkAlice).db.wallets,
      x.walletAddress = "11111111111111111111111111111115" := by decide +kernel
  obtain ⟨m, hm⟩ := (hconflict _ _ _ _ _ rfl hvalid).mpr htaken
  have hrefused : (service.serve (service.after registeredState linkAlice)
      ⟨.linkWallet ⟨1⟩ "11111111111111111111111111111115" nulLabel true,
        oracle [{}, {}, { uuid := ⟨9⟩ }]⟩).1 = .error (.database .invalidValue "") := by
    decide +kernel
  rw [hrefused] at hm
  cases hm

end Alice

end IamService.WalletLinkConflicts
