import IamService.HandlerSimulations
import IamService.RegisteredFlagSoundness

/-!
# The retrying blockchain provider

`BlockchainProvider` submits a registration at most twice. An attempt is given up after 15
seconds, and the second one follows a pause of two seconds. While the provider waits, time
passes, transactions land, and an attempt that fails or is given up may have reached the
network all the same.

The calls are modelled over a single operation that submits once. Here the loop of the
provider is put in its place, and it is shown to do nothing that the single operation cannot
do: the Registry keeps the first registration of an account, so a second copy of the same
transaction is never seen.
-/

namespace IamService.ProviderRetries
open EffectPrograms ReferenceLibraries

/-- `max_attempts`: the number of attempts after the first. -/
def maxAttempts : ℕ := 1

/-- How long one attempt may take. -/
def attemptTimeoutMs : ℕ := secs 15

/-- The network during one attempt. -/
structure Attempt where
  lands : List ℕ := []
  foreign : List (Pubkey × Registration) := []
  latency : ℕ := 0
  submits : Bool := false
  reply : Except String String := .ok ""

section Loop

variable (self : AuthService) (authority : Pubkey) (registration : Registration)

/-- The transaction of the call reaches the network. -/
def submit (ch : Chain) : Chain :=
  match self.registryPda authority with
  | some pda => { ch with submitted := ch.submitted ++ [(pda, registration)] }
  | none => ch

/-- One attempt under a timeout; without an answer in time there is none. -/
def tryRegister (a : Attempt) (w : self.State) : Option (Except String String) × self.State :=
  (if a.latency ≤ attemptTimeoutMs then some a.reply else none,
    { w with
      now := w.now + min a.latency attemptTimeoutMs
      chain :=
        if a.submits then submit self authority registration (w.chain.advance a.lands a.foreign)
        else w.chain.advance a.lands a.foreign })

/-- `register_user_on_chain` after some attempts, with the number of retries that are left. -/
def registerUserOnChain (network : ℕ → Attempt) :
    (retries attempts : ℕ) → self.State → Result String × self.State
  | 0, attempts, w =>
    match tryRegister self authority registration (network attempts) w with
    | (some (.ok signature), w) => (.ok signature, w)
    | (some (.error e), w) => (.error (.internal ("On-chain registration failed: " ++ e)), w)
    | (none, w) => (.error (.internal "On-chain registration timed out"), w)
  | retries + 1, attempts, w =>
    match tryRegister self authority registration (network attempts) w with
    | (some (.ok signature), w) => (.ok signature, w)
    | (_, w) => registerUserOnChain network retries (attempts + 1)
        { w with now := w.now + secs (2 ^ (attempts + 1)) }

end Loop

/-- The environment's part in one operation over the provider. -/
structure Turn where
  choice : Choice := {}
  network : ℕ → Attempt := fun _ => {}

/-- The operations of the service, with the loop of the provider for a registration. -/
def handle (self : AuthService) : Handler Op.Ans Turn self.State := fun c w o =>
  match o with
  | .chain (.registerUserOnChain authority userType latE7 longE7 h3Index shardId) =>
    registerUserOnChain self authority ⟨userType, latE7, longE7, h3Index, shardId⟩ c.network
      maxAttempts 0 w
  | o => self.handle c.choice w o

/-- An account that appears on chain, by a transaction of the service or by another. -/
inductive Landing where
  | own (a : Pubkey × Registration)
  | foreign (a : Pubkey × Registration)

def Landing.account : Landing → Pubkey × Registration
  | .own a => a
  | .foreign a => a

/-- The first registration of an account in a list. -/
def first (as : List (Pubkey × Registration)) (pda : Pubkey) : Option Registration :=
  (as.find? (fun a => a.1 = pda)).map Prod.snd

section Landings

theorem first_append (as bs : List (Pubkey × Registration)) (pda : Pubkey) :
    first (as ++ bs) pda = (first as pda).or (first bs pda) := by
  unfold first
  rw [List.find?_append, Option.map_or]

theorem registration_create_or (ch : Chain) (a : Pubkey × Registration) (pda : Pubkey) :
    (ch.create a).registration pda = (ch.registration pda).or (first [a] pda) := by
  unfold Chain.create
  split
  · rename_i hsome
    obtain ⟨r, hr⟩ := Option.isSome_iff_exists.mp hsome
    by_cases ha : a.1 = pda
    · rw [← ha, hr]
      rfl
    · simp [first, ha]
  · exact first_append ch.accounts [a] pda

/-- The Registry keeps the first registration of an account. -/
theorem registration_foldl_or (as : List (Pubkey × Registration)) (ch : Chain) (pda : Pubkey) :
    (as.foldl Chain.create ch).registration pda = (ch.registration pda).or (first as pda) := by
  induction as generalizing ch with
  | nil => simp [first]
  | cons a as ih =>
    rw [List.foldl_cons, ih, registration_create_or, Option.or_assoc, ← first_append]
    rfl

theorem submitted_foldl (as : List (Pubkey × Registration)) (ch : Chain) :
    (as.foldl Chain.create ch).submitted = ch.submitted := by
  induction as generalizing ch with
  | nil => rfl
  | cons a as ih =>
    rw [List.foldl_cons, ih]
    unfold Chain.create
    split <;> rfl

/-- What lands in a turn of the environment. -/
def landings (ch : Chain) (lands : List ℕ) (foreign : List (Pubkey × Registration)) :
    List Landing :=
  (lands.filterMap (fun i => ch.submitted[i]?)).map .own ++ foreign.map .foreign

theorem landings_accounts (ch : Chain) (lands : List ℕ) (foreign : List (Pubkey × Registration)) :
    (landings ch lands foreign).map Landing.account =
      lands.filterMap (fun i => ch.submitted[i]?) ++ foreign := by
  unfold landings
  rw [List.map_append, List.map_map, List.map_map]
  congr 1
  · exact List.map_id _
  · exact List.map_id _

theorem registration_advance (ch : Chain) (lands : List ℕ)
    (foreign : List (Pubkey × Registration)) (pda : Pubkey) :
    (ch.advance lands foreign).registration pda = (ch.registration pda).or
      (first ((landings ch lands foreign).map Landing.account) pda) := by
  rw [landings_accounts]
  exact registration_foldl_or _ ch pda

/-- Transactions of the service that land have been submitted. -/
def Sent (ch : Chain) (l : List Landing) : Prop := ∀ a, Landing.own a ∈ l → a ∈ ch.submitted

theorem sent_landings (ch : Chain) (lands : List ℕ) (foreign : List (Pubkey × Registration)) :
    Sent ch (landings ch lands foreign) := by
  intro a ha
  rcases List.mem_append.mp ha with ha | ha
  · obtain ⟨b, hb, he⟩ := List.mem_map.mp ha
    cases he
    obtain ⟨i, -, hi⟩ := List.mem_filterMap.mp hb
    exact List.mem_of_getElem? hi
  · obtain ⟨b, -, he⟩ := List.mem_map.mp ha
    cases he

theorem sent_nil (ch : Chain) : Sent ch [] := fun _ ha => absurd ha List.not_mem_nil

theorem Sent.append {ch : Chain} {l m : List Landing} (hl : Sent ch l) (hm : Sent ch m) :
    Sent ch (l ++ m) := by
  intro a ha
  rcases List.mem_append.mp ha with ha | ha
  · exact hl a ha
  · exact hm a ha

/-- The transactions of the service that are first to register their accounts. -/
def winners : List Landing → List (Pubkey × Registration)
  | [] => []
  | .own a :: l => a :: (winners l).filter (fun b => b.1 ≠ a.1)
  | .foreign a :: l => (winners l).filter (fun b => b.1 ≠ a.1)

def others : List Landing → List (Pubkey × Registration)
  | [] => []
  | .own _ :: l => others l
  | .foreign a :: l => a :: others l

theorem winners_subset {ch : Chain} {l : List Landing} (hl : Sent ch l) :
    ∀ a ∈ winners l, a ∈ ch.submitted := by
  induction l with
  | nil => simp [winners]
  | cons x l ih =>
    have hrest : Sent ch l := fun a ha => hl a (List.mem_cons_of_mem x ha)
    intro a ha
    cases x with
    | own b =>
      rcases List.mem_cons.mp ha with rfl | ha
      · exact hl a List.mem_cons_self
      · exact ih hrest a (List.mem_filter.mp ha).1
    | foreign b => exact ih hrest a (List.mem_filter.mp ha).1

theorem first_filter_ne (as : List (Pubkey × Registration)) (pda other : Pubkey) :
    first (as.filter (fun b => b.1 ≠ other)) pda = if other = pda then none else first as pda := by
  induction as with
  | nil => simp [first]
  | cons a as ih =>
    have hcons : ∀ l, first (a :: l) pda = if a.1 = pda then some a.2 else first l pda := by
      intro l
      by_cases ha : a.1 = pda
      · simp [first, ha]
      · simp [first, ha]
    by_cases ha : a.1 = other
    · rw [List.filter_cons_of_neg (by simpa using ha), ih, hcons]
      split
      · rfl
      · rename_i hne
        rw [if_neg (ha ▸ hne)]
    · rw [List.filter_cons_of_pos (by simpa using ha), hcons, hcons, ih]
      by_cases hp : a.1 = pda
      · rw [if_pos hp, if_pos hp, if_neg (fun h => ha (hp.trans h.symm))]
      · rw [if_neg hp, if_neg hp]

/-- The order between winners and others does not matter. -/
theorem first_normalized (l : List Landing) (pda : Pubkey) :
    first (winners l ++ others l) pda = first (l.map Landing.account) pda := by
  induction l with
  | nil => rfl
  | cons x l ih =>
    rw [first_append] at ih
    have hcons : ∀ a as, first (a :: as) pda = (first [a] pda).or (first as pda) :=
      fun a as => first_append [a] as pda
    cases x with
    | own a =>
      rw [first_append]
      simp only [winners, others, List.map_cons, Landing.account]
      rw [hcons a, hcons a (l.map Landing.account), ← ih, first_filter_ne, Option.or_assoc]
      by_cases ha : a.1 = pda
      · simp [first, ha]
      · simp [ha]
    | foreign a =>
      rw [first_append]
      simp only [winners, others, List.map_cons, Landing.account]
      rw [hcons a, hcons a (l.map Landing.account), ← ih, first_filter_ne]
      by_cases ha : a.1 = pda
      · simp [first, ha]
      · simp [first, ha]

/-- Transactions that have been submitted can be named by position. -/
theorem exists_positions {T : Type} {l all : List T} (h : ∀ a ∈ l, a ∈ all) :
    ∃ is : List ℕ, is.filterMap (fun i => all[i]?) = l := by
  induction l with
  | nil => exact ⟨[], rfl⟩
  | cons a l ih =>
    obtain ⟨is, his⟩ := ih (fun b hb => h b (List.mem_cons_of_mem a hb))
    obtain ⟨i, hi⟩ := List.mem_iff_getElem?.mp (h a List.mem_cons_self)
    exact ⟨i :: is, by rw [List.filterMap_cons, hi, his]⟩

/-- Whatever lands in whatever order, one turn of the environment does the same. -/
theorem exists_turn (ch : Chain) {l : List Landing} (hl : Sent ch l) :
    ∃ lands foreign, (ch.advance lands foreign).submitted = ch.submitted ∧
      ∀ pda, (ch.advance lands foreign).registration pda =
        (ch.registration pda).or (first (l.map Landing.account) pda) := by
  obtain ⟨lands, hlands⟩ := exists_positions (winners_subset hl)
  refine ⟨lands, others l, submitted_foldl _ ch, ?_⟩
  intro pda
  rw [← first_normalized, ← hlands]
  exact registration_foldl_or _ ch pda

end Landings

section Attempts

/-- What a part of the loop does: time passes, transactions land, and the transaction of the
call may have reached the network. -/
structure Effect (auth : AuthService) (authority : Pubkey) (registration : Registration)
    (w v : auth.State) : Prop where
  frame : v = { w with now := v.now, chain := v.chain }
  now : w.now ≤ v.now
  submitted : (∀ a, a ∈ v.chain.submitted ↔ a ∈ w.chain.submitted) ∨
    ∃ pda, auth.registryPda authority = some pda ∧
      ∀ a, a ∈ v.chain.submitted ↔ a ∈ w.chain.submitted ∨ a = (pda, registration)
  landed : ∃ l, Sent v.chain l ∧ ∀ pda, v.chain.registration pda =
    (w.chain.registration pda).or (first (l.map Landing.account) pda)

variable {self : AuthService} {authority : Pubkey} {registration : Registration}
  {w v u : self.State}

theorem Effect.grows (h : Effect self authority registration w v) {a : Pubkey × Registration}
    (ha : a ∈ w.chain.submitted) : a ∈ v.chain.submitted := by
  rcases h.submitted with hsame | ⟨pda, -, hadded⟩
  · exact (hsame a).mpr ha
  · exact (hadded a).mpr (.inl ha)

theorem Effect.trans (h : Effect self authority registration w v)
    (h' : Effect self authority registration v u) : Effect self authority registration w u where
  frame := by
    have hframe := h'.frame
    rw [h.frame] at hframe
    exact hframe
  now := h.now.trans h'.now
  submitted := by
    rcases h.submitted with hsame | ⟨pda, hpda, hadded⟩
    · rcases h'.submitted with hsame' | ⟨pda, hpda, hadded'⟩
      · exact .inl (fun a => (hsame' a).trans (hsame a))
      · exact .inr ⟨pda, hpda, fun a => by rw [hadded' a, hsame a]⟩
    · rcases h'.submitted with hsame' | ⟨pda', hpda', hadded'⟩
      · exact .inr ⟨pda, hpda, fun a => (hsame' a).trans (hadded a)⟩
      · -- the second copy is the same transaction
        rw [hpda] at hpda'
        cases hpda'
        exact .inr ⟨pda, hpda, fun a => by rw [hadded' a, hadded a, or_assoc, or_self]⟩
  landed := by
    obtain ⟨l, hl, hreg⟩ := h.landed
    obtain ⟨m, hm, hreg'⟩ := h'.landed
    refine ⟨l ++ m, Sent.append (fun a ha => h'.grows (hl a ha)) hm, ?_⟩
    intro pda
    rw [hreg', hreg, List.map_append, first_append, Option.or_assoc]

theorem sleep_effect (w : self.State) (ms : ℕ) :
    Effect self authority registration w { w with now := w.now + ms } where
  frame := rfl
  now := Nat.le_add_right _ _
  submitted := .inl (fun _ => Iff.rfl)
  landed := ⟨[], sent_nil _, fun pda => by simp [first]⟩

theorem tryRegister_effect (a : Attempt) (w : self.State) :
    Effect self authority registration w (tryRegister self authority registration a w).2 := by
  have hkept : (w.chain.advance a.lands a.foreign).submitted = w.chain.submitted :=
    submitted_foldl _ w.chain
  refine ⟨rfl, Nat.le_add_right _ _, ?_, landings w.chain a.lands a.foreign, ?_, ?_⟩
  · unfold tryRegister submit
    dsimp only
    split
    · split
      · rename_i pda hpda
        refine .inr ⟨pda, hpda, ?_⟩
        intro b
        rw [List.mem_append, List.mem_singleton, hkept]
      · exact .inl (fun b => by rw [hkept])
    · exact .inl (fun b => by rw [hkept])
  · intro b hb
    have hsent := sent_landings w.chain a.lands a.foreign b hb
    rw [← hkept] at hsent
    unfold tryRegister submit
    dsimp only
    split
    · split
      · exact List.mem_append_left _ hsent
      · exact hsent
    · exact hsent
  · intro pda
    rw [← registration_advance]
    unfold tryRegister submit
    dsimp only
    split
    · split <;> rfl
    · rfl

/-- However often the loop goes round, the world has only seen one transaction. -/
theorem registerUserOnChain_effect (network : ℕ → Attempt) (retries attempts : ℕ)
    (w : self.State) : Effect self authority registration w
      (registerUserOnChain self authority registration network retries attempts w).2 := by
  induction retries generalizing attempts w with
  | zero =>
    have htry := @tryRegister_effect self authority registration (network attempts) w
    unfold registerUserOnChain
    generalize tryRegister self authority registration (network attempts) w = r at htry ⊢
    obtain ⟨reply, v⟩ := r
    rcases reply with - | (e | signature) <;> exact htry
  | succ retries ih =>
    have htry := @tryRegister_effect self authority registration (network attempts) w
    unfold registerUserOnChain
    generalize tryRegister self authority registration (network attempts) w = r at htry ⊢
    obtain ⟨reply, v⟩ := r
    have hretry := htry.trans ((sleep_effect v (secs (2 ^ (attempts + 1)))).trans
      (ih (attempts + 1) _))
    rcases reply with - | (e | signature)
    · exact hretry
    · exact hretry
    · exact htry

/-- The provider answers a signature or an internal error. -/
theorem registerUserOnChain_answer (network : ℕ → Attempt) (retries attempts : ℕ)
    (w : self.State) :
    (∃ signature, (registerUserOnChain self authority registration network retries attempts w).1 =
      .ok signature) ∨
      ∃ text, (registerUserOnChain self authority registration network retries attempts w).1 =
        .error (.internal text) := by
  induction retries generalizing attempts w with
  | zero =>
    unfold registerUserOnChain
    generalize tryRegister self authority registration (network attempts) w = r
    obtain ⟨reply, v⟩ := r
    rcases reply with - | (e | signature)
    · exact .inr ⟨_, rfl⟩
    · exact .inr ⟨_, rfl⟩
    · exact .inl ⟨_, rfl⟩
  | succ retries ih =>
    unfold registerUserOnChain
    generalize tryRegister self authority registration (network attempts) w = r
    obtain ⟨reply, v⟩ := r
    rcases reply with - | (e | signature)
    · exact ih _ _
    · exact ih _ _
    · exact .inl ⟨_, rfl⟩

end Attempts

section Refinement

/-- The two worlds differ at most in when transactions land: what has landed for the provider
and not yet for the single operation is pending. -/
structure Related (auth : AuthService) (w v : auth.State) : Prop where
  frame : v = { w with chain := v.chain }
  submitted : ∀ a, a ∈ w.chain.submitted ↔ a ∈ v.chain.submitted
  pending : ∃ l, Sent v.chain l ∧ ∀ pda, w.chain.registration pda =
    (v.chain.registration pda).or (first (l.map Landing.account) pda)

variable {self : AuthService}

theorem Related.refl (w : self.State) : Related self w w :=
  ⟨rfl, fun _ => Iff.rfl, [], sent_nil _, fun pda => by simp [first]⟩

/-- Every operation but a registration looks at the chain through its registrations only. -/
theorem handle_chain_irrelevant {o : Op} (ho : o.kind ≠ .submit) {c c' : Choice} {w : self.State}
    {ch : Chain} (hc : c' = { c with lands := c'.lands, foreign := c'.foreign })
    (hreg : ∀ pda, (ch.advance c'.lands c'.foreign).registration pda =
      (w.chain.advance c.lands c.foreign).registration pda) :
    (self.handle c' { w with chain := ch } o).1 = (self.handle c w o).1 ∧
      (self.handle c' { w with chain := ch } o).2 = { (self.handle c w o).2 with
        chain := ch.advance c'.lands c'.foreign } ∧
      (self.handle c w o).2.chain = w.chain.advance c.lands c.foreign := by
  rw [hc]
  cases o with
  | user q => exact ⟨rfl, rfl, rfl⟩
  | wallet q => exact ⟨rfl, rfl, rfl⟩
  | cache q => exact ⟨rfl, rfl, rfl⟩
  | bus q => exact ⟨rfl, rfl, rfl⟩
  | chain q =>
    cases q with
    | registerUserOnChain => simp at ho
    | accountExists pda =>
      refine ⟨?_, rfl, rfl⟩
      simp only [AuthService.handle_chain, BlockchainProvider.handle, World.evolve, hreg]
  | host q =>
    cases q with
    | encodeToken claims =>
      simp only [AuthService.handle_host, AuthService.hostHandle]
      split <;> exact ⟨rfl, rfl, rfl⟩
    | _ => exact ⟨rfl, rfl, rfl⟩

/-- An operation other than a registration is matched by itself, after everything that is
pending has landed. -/
theorem simulates_other {o : Op} (ho : o.kind ≠ .submit) (c : Choice) {w v : self.State}
    (h : Related self w v) : ∃ c', (self.handle c' v o).1 = (self.handle c w o).1 ∧
      Related self (self.handle c w o).2 (self.handle c' v o).2 := by
  obtain ⟨hframe, hsubmitted, l, hl, hreg⟩ := h
  have hsent : Sent v.chain (l ++ landings w.chain c.lands c.foreign) :=
    hl.append (fun a ha => (hsubmitted a).mp (sent_landings w.chain c.lands c.foreign a ha))
  obtain ⟨lands, foreign, hkept, hlanded⟩ := exists_turn v.chain hsent
  have hsame : ∀ pda, (v.chain.advance lands foreign).registration pda =
      (w.chain.advance c.lands c.foreign).registration pda := by
    intro pda
    rw [hlanded, registration_advance w.chain, hreg, List.map_append, first_append,
      Option.or_assoc]
  obtain ⟨hans, hstate, hchain⟩ := @handle_chain_irrelevant self o ho c
    { c with lands := lands, foreign := foreign } w v.chain rfl hsame
  rw [← hframe] at hans hstate
  refine ⟨_, hans, ?_⟩
  rw [hstate]
  refine ⟨rfl, ?_, [], sent_nil _, ?_⟩
  · intro a
    have hold : (w.chain.advance c.lands c.foreign).submitted = w.chain.submitted :=
      submitted_foldl _ w.chain
    rw [hchain, hold, hkept]
    exact hsubmitted a
  · intro pda
    rw [hchain, ← hsame]
    simp [first]

/-- The single operation lets the environment take its turn and submits at most once. -/
theorem handle_register (c : Choice) (v : self.State) (authority : Pubkey) (userType : UserType)
    (latE7 longE7 : Int32) (h3Index : UInt64) (shardId : UInt8) :
    self.handle c v (.chain (.registerUserOnChain authority userType latE7 longE7 h3Index
      shardId)) = (if c.fails then .error (.internal c.errorText) else .ok c.signature,
        { v with
          now := v.now + c.elapsed
          chain :=
            if c.submits then submit self authority ⟨userType, latE7, longE7, h3Index, shardId⟩
              (v.chain.advance c.lands c.foreign)
            else v.chain.advance c.lands c.foreign }) := by
  rw [AuthService.handle_chain]
  simp only [BlockchainProvider.handle, World.evolve, submit]
  cases c.submits with
  | false => rfl
  | true => cases self.registryPda authority <;> rfl

/-- Some choice makes the single operation answer like the provider, whatever else it does. -/
theorem exists_answer (c : Choice) {answer : Result String}
    (h : (∃ signature, answer = .ok signature) ∨ ∃ text, answer = .error (.internal text)) :
    ∃ c' : Choice, (c'.lands = c.lands ∧ c'.foreign = c.foreign ∧ c'.elapsed = c.elapsed ∧
      c'.submits = c.submits) ∧
      (if c'.fails then .error (.internal c'.errorText) else .ok c'.signature) = answer := by
  rcases h with ⟨signature, rfl⟩ | ⟨text, rfl⟩
  · exact ⟨{ c with fails := false, signature := signature }, ⟨rfl, rfl, rfl, rfl⟩, rfl⟩
  · exact ⟨{ c with fails := true, errorText := text }, ⟨rfl, rfl, rfl, rfl⟩, rfl⟩

theorem submit_registration (authority : Pubkey) (registration : Registration) (ch : Chain)
    (pda : Pubkey) :
    (submit self authority registration ch).registration pda = ch.registration pda := by
  unfold submit
  split <;> rfl

/-- One submission, if the loop has made any, leaves the same transactions. -/
theorem exists_submits {authority : Pubkey} {registration : Registration} {w u : self.State}
    (h : Effect self authority registration w u) {ch : Chain}
    (hch : ∀ a, a ∈ w.chain.submitted ↔ a ∈ ch.submitted) :
    ∃ submits : Bool, ∀ a, a ∈ u.chain.submitted ↔
      a ∈ (if submits = true then submit self authority registration ch else ch).submitted := by
  rcases h.submitted with hsame | ⟨pda, hpda, hadded⟩
  · exact ⟨false, fun a => (hsame a).trans (hch a)⟩
  · refine ⟨true, ?_⟩
    intro a
    rw [if_pos rfl, submit, hpda, hadded a, hch a, List.mem_append, List.mem_singleton]

/-- The loop is matched by one submission; what has landed in the meantime is pending. -/
theorem simulates_register (authority : Pubkey) (userType : UserType) (latE7 longE7 : Int32)
    (h3Index : UInt64) (shardId : UInt8) (network : ℕ → Attempt) (retries : ℕ)
    {w v : self.State} (h : Related self w v) :
    let r := registerUserOnChain self authority ⟨userType, latE7, longE7, h3Index, shardId⟩
      network retries 0 w
    let q : ChainOp := .registerUserOnChain authority userType latE7 longE7 h3Index shardId
    ∃ c', (self.handle c' v (.chain q)).1 = r.1 ∧
      Related self r.2 (self.handle c' v (.chain q)).2 := by
  intro r q
  have heffect : Effect self authority ⟨userType, latE7, longE7, h3Index, shardId⟩ w r.2 :=
    registerUserOnChain_effect network retries 0 w
  obtain ⟨hframe, hsubmitted, l, hl, hreg⟩ := h
  obtain ⟨lands, foreign, hkept, hlanded⟩ := exists_turn v.chain hl
  have hch : ∀ a, a ∈ w.chain.submitted ↔ a ∈ (v.chain.advance lands foreign).submitted := by
    intro a
    rw [hkept]
    exact hsubmitted a
  obtain ⟨submits, hsubmits⟩ := exists_submits heffect hch
  obtain ⟨c', ⟨hlands, hforeign, helapsed, hsub⟩, hans⟩ := exists_answer
    { lands := lands, foreign := foreign, elapsed := r.2.now - w.now, submits := submits }
    (registerUserOnChain_answer network retries 0 w)
  refine ⟨c', ?_, ?_⟩
  · rw [handle_register]
    exact hans
  · rw [handle_register, hlands, hforeign, helapsed, hsub]
    obtain ⟨hframe', hnow, -, m, hm, hreg'⟩ := heffect
    refine ⟨?_, hsubmits, m, fun a ha => (hsubmits a).mp (hm a ha), ?_⟩
    · have hclock : v.now + (r.2.now - w.now) = r.2.now := by
        have hsame : v.now = w.now := by rw [hframe]
        omega
      rw [hclock, hframe', hframe]
    · intro pda
      have hold : (v.chain.advance lands foreign).registration pda = w.chain.registration pda := by
        rw [hlanded, hreg]
      rw [hreg', ← hold]
      dsimp only
      split
      · rw [submit_registration]
      · rfl

/-- The provider implements the single operation. -/
theorem provider_simulates :
    Simulates (handle self) self.handle (fun _ _ _ => True) (Related self) := by
  intro c w v o h
  by_cases ho : o.kind = .submit
  · cases o with
    | chain q =>
      cases q with
      | registerUserOnChain authority userType latE7 longE7 h3Index shardId =>
        obtain ⟨c', hans, hnext⟩ := simulates_register authority userType latE7 longE7 h3Index
          shardId c.network maxAttempts h
        exact ⟨c', trivial, hans, hnext⟩
      | accountExists pda => cases ho
    | user q => cases q <;> cases ho
    | wallet q => cases q <;> cases ho
    | cache q =>
      cases q with
      | setValue key value ttl => cases value <;> cases ho
      | _ => cases ho
    | bus q => cases ho
    | host q => cases q <;> cases ho
  · obtain ⟨c', hans, hnext⟩ := simulates_other ho c.choice h
    have hother : handle self c w o = self.handle c.choice w o := by
      unfold handle
      split
      · simp at ho
      · rfl
    rw [hother]
    exact ⟨c', trivial, hans, hnext⟩

end Refinement

section Budget

variable {self : AuthService} {authority : Pubkey} {registration : Registration}

/-- The longest that the loop can take. -/
def budget : (retries attempts : ℕ) → ℕ
  | 0, _ => attemptTimeoutMs
  | retries + 1, attempts =>
    attemptTimeoutMs + secs (2 ^ (attempts + 1)) + budget retries (attempts + 1)

theorem tryRegister_budget (a : Attempt) (w : self.State) :
    (tryRegister self authority registration a w).2.now ≤ w.now + attemptTimeoutMs ∧
      (tryRegister self authority registration a w).2.chain.submitted.length ≤
        w.chain.submitted.length + 1 := by
  have hkept : (w.chain.advance a.lands a.foreign).submitted = w.chain.submitted :=
    submitted_foldl _ w.chain
  constructor
  · exact Nat.add_le_add_left (Nat.min_le_right _ _) _
  · unfold tryRegister submit
    dsimp only
    split
    · split
      · rw [List.length_append, hkept, List.length_singleton]
      · rw [hkept]
        omega
    · rw [hkept]
      omega

theorem registerUserOnChain_budget (network : ℕ → Attempt) (retries attempts : ℕ)
    (w : self.State) :
    let v := (registerUserOnChain self authority registration network retries attempts w).2
    v.now ≤ w.now + budget retries attempts ∧
      v.chain.submitted.length ≤ w.chain.submitted.length + (retries + 1) := by
  induction retries generalizing attempts w with
  | zero =>
    have htry := @tryRegister_budget self authority registration (network attempts) w
    unfold registerUserOnChain budget
    generalize tryRegister self authority registration (network attempts) w = r at htry ⊢
    obtain ⟨reply, v⟩ := r
    rcases reply with - | (e | signature) <;> exact htry
  | succ retries ih =>
    have htry := @tryRegister_budget self authority registration (network attempts) w
    unfold registerUserOnChain budget
    generalize tryRegister self authority registration (network attempts) w = r at htry ⊢
    obtain ⟨reply, v⟩ := r
    have hrest := ih (attempts + 1) { v with now := v.now + secs (2 ^ (attempts + 1)) }
    dsimp only at htry hrest
    rcases reply with - | (e | signature) <;> dsimp only <;> omega

end Budget

section Alice

/-- The first attempt to register Alice is given up although it has reached the network; its
transaction lands before the second one is refused. -/
def lostAttempt : Turn where
  network := fun n => if n = 0 then { latency := 20000, submits := true }
    else { lands := [0], submits := true, reply := .error "already in use" }

/-- Alice's registration task over the provider. -/
def retried : service.State × List (Program AuthService.Returned) :=
  schedule (handle service) (verified, [service.program (.registrationTask aliceTask)])
    [(0, lostAttempt)]

end Alice

end IamService.ProviderRetries
