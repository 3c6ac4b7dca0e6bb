import PythCrosschain.Aptos.Governance
import PythCrosschain.Lib.ReplayCounter
import PythCrosschain.Lib.Transactions

/-!
# Aptos: authorized upgrades

Governance authorizes the hash of a package, and `do_contract_upgrade` moves the hash out and
publishes the package. `get_contract_upgrade_authorized_hash` is public: whoever calls it moves
the hash out, too.

A run is a list of calls from scripts and other modules. The calls of a script that aborts are
not in it, and one that aborts by itself changes nothing. The log has the authorizations and the
published packages. The results are:

- `execute_cases`: what a call does to the authorization;
- `Package.ext_hash`: without collisions, the hash of a package is that of no other one;
- `authorized_upgrades`: what is published is authorized, and an authorization is there until it
  is used in the runs in which nobody else moves it out;
- `authorized_upgrades_fail`: a run in which somebody does.
-/

namespace PythCrosschain.Aptos

open Move
open OneTimeGrant (Event inForce Justified)

/-! ## Calls -/

/-- The public and the entry functions. `read` is any of those that only read. -/
inductive Function where
  | init
  | executeGovernanceInstruction (vaaBytes : Bytes)
  | doContractUpgrade (package : Package)
  | getContractUpgradeAuthorizedHash
  | updatePriceFeedsWithFunder (funds : U64) (vaas : List Bytes)
  | updatePriceFeeds (vaas : List Bytes) (fee : U64)
  | updatePriceFeedsIfFreshWithFunder (funds : U64) (vaas priceIdentifiers : List Bytes)
      (publishTimes : List U64)
  | updatePriceFeedsIfFresh (vaas priceIdentifiers : List Bytes) (publishTimes : List U64)
      (fee : U64)
  | read

/-- A call, with what it finds outside the package. -/
structure Call (keccak256 : Bytes → BitVec 256) where
  env : Env
  hashes : env.keccak256 = keccak256
  function : Function

/-- The state, and the authorized hashes and the published packages in their order. -/
structure Ledger where
  state : State
  log : List (Event Hash Package) := []

/-- What an instruction authorizes. -/
def GovernanceInstruction.grants (instruction : GovernanceInstruction) :
    List (Event Hash Package) :=
  if instruction.action = .contractUpgrade then
    ((ContractUpgrade.fromByteVec instruction.payload).toOption.map .grant).toList
  else []

/-- What the instruction in a VAA authorizes. -/
def grantsOf (env : Env) (vaaBytes : Bytes) (s : State) : List (Event Hash Package) :=
  match takeInstruction env vaaBytes s with
  | .ok (instruction, _) => instruction.grants
  | .error _ => []

section

variable {keccak256 : Bytes → BitVec 256}

def execute (call : Call keccak256) (l : Ledger) : Result Ledger :=
  match call.function with
  -- the resources are there
  | .init => .error .resourceAlreadyExists
  | .executeGovernanceInstruction vaaBytes => do
    let s ← executeGovernanceInstruction call.env vaaBytes l.state
    return { state := s, log := l.log ++ grantsOf call.env vaaBytes l.state }
  | .doContractUpgrade package => do
    let s ← doContractUpgrade call.env package l.state
    return { state := s, log := l.log ++ [.use package] }
  | .getContractUpgradeAuthorizedHash => do
    let (_, s) ← l.state.getContractUpgradeAuthorizedHash
    return { l with state := s }
  | .updatePriceFeedsWithFunder funds vaas => do
    let s ← updatePriceFeedsWithFunder call.env funds vaas l.state
    return { l with state := s }
  | .updatePriceFeeds vaas fee => do
    let s ← updatePriceFeeds call.env vaas fee l.state
    return { l with state := s }
  | .updatePriceFeedsIfFreshWithFunder funds vaas priceIdentifiers publishTimes => do
    let s ← updatePriceFeedsIfFreshWithFunder call.env funds vaas priceIdentifiers publishTimes
      l.state
    return { l with state := s }
  | .updatePriceFeedsIfFresh vaas priceIdentifiers publishTimes fee => do
    let s ← updatePriceFeedsIfFresh call.env vaas priceIdentifiers publishTimes fee l.state
    return { l with state := s }
  | .read => return l

end

/-! ## The authorization in the state -/

section

variable {env : Env} {s s' : State}

theorem cacheUpdate_authorized (update : MovePackages.PriceInfo) (s : State) :
    (cacheUpdate update s).contractUpgradeAuthorized = s.contractUpgradeAuthorized := by
  unfold cacheUpdate
  split <;> rfl

theorem updateCache_authorized (updates : List MovePackages.PriceInfo) (s : State) :
    (updateCache updates s).contractUpgradeAuthorized = s.contractUpgradeAuthorized := by
  unfold updateCache
  induction updates with
  | nil => rfl
  | cons update updates ih => rw [List.foldr_cons, cacheUpdate_authorized, ih]

theorem updateFromVaas_authorized {vaas : List Bytes} {totalUpdates n : ℕ}
    (h : updateFromVaas env vaas totalUpdates s = .ok (n, s')) :
    s'.contractUpgradeAuthorized = s.contractUpgradeAuthorized := by
  induction vaas generalizing totalUpdates s with
  | nil =>
    cases h
    rfl
  | cons vaa vaas ih =>
    obtain ⟨⟨updates, mid⟩, hvaa, hrest⟩ := except_bind_eq_ok.mp h
    obtain ⟨read, -, hmid⟩ := except_bind_eq_ok.mp hvaa
    cases hmid
    rw [ih hrest, updateCache_authorized]

theorem updatePriceFeeds_authorized {vaas : List Bytes} {fee : U64}
    (h : updatePriceFeeds env vaas fee s = .ok s') :
    s'.contractUpgradeAuthorized = s.contractUpgradeAuthorized := by
  obtain ⟨⟨totalUpdates, mid⟩, hvaas, hfee⟩ := except_bind_eq_ok.mp h
  obtain ⟨updateFee, -, hpaid⟩ := except_bind_eq_ok.mp hfee
  obtain ⟨_, -, hs'⟩ := except_bind_eq_ok.mp hpaid
  cases hs'
  exact updateFromVaas_authorized hvaas

theorem updatePriceFeedsWithFunder_authorized {funds : U64} {vaas : List Bytes}
    (h : updatePriceFeedsWithFunder env funds vaas s = .ok s') :
    s'.contractUpgradeAuthorized = s.contractUpgradeAuthorized := by
  obtain ⟨⟨totalUpdates, mid⟩, hvaas, hfee⟩ := except_bind_eq_ok.mp h
  obtain ⟨updateFee, -, hpaid⟩ := except_bind_eq_ok.mp hfee
  obtain ⟨_, -, hs'⟩ := except_bind_eq_ok.mp hpaid
  cases hs'
  exact updateFromVaas_authorized hvaas

theorem updatePriceFeedsIfFresh_authorized {vaas priceIdentifiers : List Bytes}
    {publishTimes : List U64} {fee : U64}
    (h : updatePriceFeedsIfFresh env vaas priceIdentifiers publishTimes fee s = .ok s') :
    s'.contractUpgradeAuthorized = s.contractUpgradeAuthorized := by
  obtain ⟨_, -, hlengths⟩ := except_bind_eq_ok.mp h
  obtain ⟨freshData, -, hfresh⟩ := except_bind_eq_ok.mp hlengths
  obtain ⟨_, -, hupdate⟩ := except_bind_eq_ok.mp hfresh
  exact updatePriceFeeds_authorized hupdate

theorem updatePriceFeedsIfFreshWithFunder_authorized {funds : U64}
    {vaas priceIdentifiers : List Bytes} {publishTimes : List U64}
    (h : updatePriceFeedsIfFreshWithFunder env funds vaas priceIdentifiers publishTimes s
      = .ok s') :
    s'.contractUpgradeAuthorized = s.contractUpgradeAuthorized := by
  obtain ⟨fee, -, hfee⟩ := except_bind_eq_ok.mp h
  obtain ⟨_, -, hupdate⟩ := except_bind_eq_ok.mp hfee
  exact updatePriceFeedsIfFresh_authorized hupdate

/-- What governance does to the state and to the log. -/
def Authorizes (grants : List (Event Hash Package)) (s s' : State) : Prop :=
  (∃ hash, grants = [.grant hash] ∧ s'.contractUpgradeAuthorized = some hash) ∨
    (grants = [] ∧ s'.contractUpgradeAuthorized = s.contractUpgradeAuthorized)

theorem executeAction_authorizes {instruction : GovernanceInstruction}
    (h : executeAction instruction s = .ok s') : Authorizes instruction.grants s s' := by
  unfold executeAction at h
  unfold GovernanceInstruction.grants
  cases haction : instruction.action with
  | contractUpgrade =>
    rw [haction] at h
    obtain ⟨_, -, hexecute⟩ := except_bind_eq_ok.mp h
    obtain ⟨hash, hparse, hs'⟩ := except_bind_eq_ok.mp hexecute
    cases hs'
    refine .inl ⟨hash, ?_, rfl⟩
    rw [if_pos rfl, hparse]
    rfl
  | setGovernanceDataSource =>
    rw [haction] at h
    obtain ⟨r, -, hs'⟩ := except_bind_eq_ok.mp h
    cases hs'
    exact .inr ⟨rfl, rfl⟩
  | setDataSources =>
    rw [haction] at h
    obtain ⟨sources, -, hset⟩ := except_bind_eq_ok.mp h
    obtain ⟨registered, -, hs'⟩ := except_bind_eq_ok.mp hset
    cases hs'
    exact .inr ⟨rfl, rfl⟩
  | setUpdateFee =>
    rw [haction] at h
    obtain ⟨r, -, hfee⟩ := except_bind_eq_ok.mp h
    obtain ⟨fee, -, hs'⟩ := except_bind_eq_ok.mp hfee
    cases hs'
    exact .inr ⟨rfl, rfl⟩
  | setStalePriceThreshold =>
    rw [haction] at h
    obtain ⟨threshold, -, hs'⟩ := except_bind_eq_ok.mp h
    cases hs'
    exact .inr ⟨rfl, rfl⟩

theorem executeGovernanceInstruction_authorizes {vaaBytes : Bytes}
    (h : executeGovernanceInstruction env vaaBytes s = .ok s') :
    Authorizes (grantsOf env vaaBytes s) s s' := by
  obtain ⟨⟨instruction, mid⟩, htake, haction⟩ := except_bind_eq_ok.mp h
  have hmid : mid.contractUpgradeAuthorized = s.contractUpgradeAuthorized := by
    obtain ⟨⟨vaa, verified⟩, hvaa, hinstruction⟩ := except_bind_eq_ok.mp htake
    obtain ⟨parsed, -, hsource⟩ := except_bind_eq_ok.mp hvaa
    obtain ⟨_, -, hsequence⟩ := except_bind_eq_ok.mp hsource
    obtain ⟨_, -, hverified⟩ := except_bind_eq_ok.mp hsequence
    obtain ⟨_, -, hpair⟩ := except_bind_eq_ok.mp hinstruction
    cases hverified
    cases hpair
    rfl
  have hauthorizes := executeAction_authorizes haction
  unfold grantsOf
  rw [htake]
  unfold Authorizes at hauthorizes ⊢
  rwa [hmid] at hauthorizes

theorem getContractUpgradeAuthorizedHash_eq_ok {hash : Hash} :
    s.getContractUpgradeAuthorizedHash = .ok (hash, s') ↔
      s.contractUpgradeAuthorized = some hash ∧
        s' = { s with contractUpgradeAuthorized := none } := by
  unfold State.getContractUpgradeAuthorizedHash
  simp only [except_bind_eq_ok, orAbort_eq_ok]
  constructor
  · rintro ⟨_, hstored, hmoved⟩
    cases hmoved
    exact ⟨hstored, rfl⟩
  · rintro ⟨hstored, rfl⟩
    exact ⟨hash, hstored, rfl⟩

/-- A package is published if it is the authorized one and the framework takes it. -/
theorem doContractUpgrade_eq_ok {package : Package} :
    doContractUpgrade env package s = .ok s' ↔
      ∃ hash, s.contractUpgradeAuthorized = some hash ∧
        matchesHash env.keccak256 package hash = true ∧
        env.publishPackage package.metadataSerialized package.code = .ok () ∧
        s' = { s with contractUpgradeAuthorized := none } := by
  unfold doContractUpgrade
  simp only [except_bind_eq_ok, Prod.exists, getContractUpgradeAuthorizedHash_eq_ok, assert_eq_ok,
    exists_const, and_assoc]
  constructor
  · rintro ⟨hash, _, hstored, rfl, hmatches, _, hpublish, hs'⟩
    cases hs'
    exact ⟨hash, hstored, hmatches, hpublish, rfl⟩
  · rintro ⟨hash, hstored, hmatches, hpublish, rfl⟩
    exact ⟨hash, _, hstored, rfl, hmatches, (), hpublish, rfl⟩

theorem doContractUpgrade_of_none {package : Package} (h : s.contractUpgradeAuthorized = none) :
    doContractUpgrade env package s = .error (.code Error.unauthorizedUpgrade) := by
  unfold doContractUpgrade State.getContractUpgradeAuthorizedHash
  rw [h]
  rfl

end

/-! ## Steps -/

section

variable {keccak256 : Bytes → BitVec 256} {call : Call keccak256} {l l' : Ledger}

/-- Somebody moves the hash out that is there. -/
def Withdraws (l : Ledger) (call : Call keccak256) : Prop :=
  call.function = .getContractUpgradeAuthorizedHash ∧ l.state.contractUpgradeAuthorized ≠ none

theorem Withdraws.succeeds (h : Withdraws l call) : ∃ l', execute call l = .ok l' := by
  obtain ⟨hfunction, hstored⟩ := h
  obtain ⟨hash, hstored⟩ := Option.ne_none_iff_exists'.mp hstored
  unfold execute
  rw [hfunction]
  exact ⟨_, except_bind_eq_ok.mpr
    ⟨_, getContractUpgradeAuthorizedHash_eq_ok.mpr ⟨hstored, rfl⟩, rfl⟩⟩

/-- What a call does to the authorization, and what it adds to the log. -/
inductive Effect (call : Call keccak256) (l l' : Ledger) : Prop
  | grant (hash : Hash) (stays : ¬Withdraws l call)
      (stored : l'.state.contractUpgradeAuthorized = some hash)
      (log : l'.log = l.log ++ [.grant hash])
  | publish (package : Package) (hash : Hash) (stays : ¬Withdraws l call)
      (found : l.state.contractUpgradeAuthorized = some hash)
      (suits : matchesHash keccak256 package hash = true)
      (used : l'.state.contractUpgradeAuthorized = none)
      (log : l'.log = l.log ++ [.use package])
  | withdraw (withdraws : Withdraws l call) (moved : l'.state.contractUpgradeAuthorized = none)
      (log : l'.log = l.log)
  | other (stays : ¬Withdraws l call)
      (kept : l'.state.contractUpgradeAuthorized = l.state.contractUpgradeAuthorized)
      (log : l'.log = l.log)

theorem execute_cases (h : execute call l = .ok l') : Effect call l l' := by
  have hupdate {s : State} (hfunction : call.function ≠ .getContractUpgradeAuthorizedHash)
      (hkept : s.contractUpgradeAuthorized = l.state.contractUpgradeAuthorized) :
      Effect call l { l with state := s } :=
    .other (fun hwithdraws => hfunction hwithdraws.1) hkept rfl
  unfold execute at h
  cases hfunction : call.function with
  | init =>
    rw [hfunction] at h
    cases h
  | executeGovernanceInstruction vaaBytes =>
    rw [hfunction] at h
    obtain ⟨s, hs, hl'⟩ := except_bind_eq_ok.mp h
    cases hl'
    rcases executeGovernanceInstruction_authorizes hs with ⟨hash, hgrants, hstored⟩ | ⟨hgrants, hkept⟩
    · exact .grant hash (fun hwithdraws => nomatch hfunction.symm.trans hwithdraws.1) hstored
        (congrArg (l.log ++ ·) hgrants)
    · refine .other (fun hwithdraws => nomatch hfunction.symm.trans hwithdraws.1) hkept ?_
      rw [hgrants, List.append_nil]
  | doContractUpgrade package =>
    rw [hfunction] at h
    obtain ⟨s, hs, hl'⟩ := except_bind_eq_ok.mp h
    cases hl'
    obtain ⟨hash, hstored, hmatches, -, rfl⟩ := doContractUpgrade_eq_ok.mp hs
    rw [call.hashes] at hmatches
    exact .publish package hash (fun hwithdraws => nomatch hfunction.symm.trans hwithdraws.1)
      hstored hmatches rfl rfl
  | getContractUpgradeAuthorizedHash =>
    rw [hfunction] at h
    obtain ⟨⟨hash, s⟩, hs, hl'⟩ := except_bind_eq_ok.mp h
    cases hl'
    obtain ⟨hstored, rfl⟩ := getContractUpgradeAuthorizedHash_eq_ok.mp hs
    refine .withdraw ⟨hfunction, ?_⟩ rfl rfl
    rw [hstored]
    exact Option.some_ne_none hash
  | updatePriceFeedsWithFunder funds vaas =>
    rw [hfunction] at h
    obtain ⟨s, hs, hl'⟩ := except_bind_eq_ok.mp h
    cases hl'
    exact hupdate (by simp [hfunction]) (updatePriceFeedsWithFunder_authorized hs)
  | updatePriceFeeds vaas fee =>
    rw [hfunction] at h
    obtain ⟨s, hs, hl'⟩ := except_bind_eq_ok.mp h
    cases hl'
    exact hupdate (by simp [hfunction]) (updatePriceFeeds_authorized hs)
  | updatePriceFeedsIfFreshWithFunder funds vaas priceIdentifiers publishTimes =>
    rw [hfunction] at h
    obtain ⟨s, hs, hl'⟩ := except_bind_eq_ok.mp h
    cases hl'
    exact hupdate (by simp [hfunction]) (updatePriceFeedsIfFreshWithFunder_authorized hs)
  | updatePriceFeedsIfFresh vaas priceIdentifiers publishTimes fee =>
    rw [hfunction] at h
    obtain ⟨s, hs, hl'⟩ := except_bind_eq_ok.mp h
    cases hl'
    exact hupdate (by simp [hfunction]) (updatePriceFeedsIfFresh_authorized hs)
  | read =>
    rw [hfunction] at h
    cases h
    exact .other (fun hwithdraws => nomatch hfunction.symm.trans hwithdraws.1) rfl rfl

end

/-! ## The hash of a package -/

section

variable (keccak256 : Bytes → BitVec 256)

/-- The byte strings that are hashed for a package. -/
def Package.hashed (package : Package) : Set Bytes :=
  {bytes | bytes = package.flattened keccak256 ∨
    bytes ∈ package.metadataSerialized :: package.code}

/-- The hash that governance authorizes for a package. -/
def Package.hash (package : Package) : Hash :=
  ⟨wordBytes (keccak256 (package.flattened keccak256)), by simp [wordBytes]⟩

variable {keccak256}

theorem matchesHash_iff {package : Package} {hash : Hash} :
    matchesHash keccak256 package hash = true ↔ package.hash keccak256 = hash := by
  unfold matchesHash
  rw [decide_eq_true_iff]
  exact ⟨fun h => Subtype.ext h, congrArg Subtype.val⟩

theorem Package.flattened_eq (package : Package) : package.flattened keccak256
    = (package.metadataSerialized :: package.code).flatMap fun module =>
      wordBytes (keccak256 module) := by
  have hloop (acc : Bytes) (code : List Bytes) :
      code.foldl (fun flattened module => flattened ++ wordBytes (keccak256 module)) acc
        = acc ++ code.flatMap fun module => wordBytes (keccak256 module) := by
    induction code generalizing acc with
    | nil => exact (List.append_nil acc).symm
    | cons module code ih => rw [List.foldl_cons, ih, List.flatMap_cons, List.append_assoc]
  exact hloop _ _

/-- Words at the front of two byte strings are the same words. -/
theorem hashes_injective {as bs : List Bytes} {S : Set Bytes} (hS : Set.InjOn keccak256 S)
    (has : ∀ a ∈ as, a ∈ S) (hbs : ∀ b ∈ bs, b ∈ S)
    (h : as.flatMap (fun module => wordBytes (keccak256 module))
      = bs.flatMap fun module => wordBytes (keccak256 module)) : as = bs := by
  have hlength (module : Bytes) : (wordBytes (keccak256 module)).length = 32 := by simp [wordBytes]
  induction as generalizing bs with
  | nil =>
    cases bs with
    | nil => rfl
    | cons b bs => exact absurd (congrArg List.length h).symm (by simp [hlength])
  | cons a as ih =>
    cases bs with
    | nil => exact absurd (congrArg List.length h) (by simp [hlength])
    | cons b bs =>
      rw [List.flatMap_cons, List.flatMap_cons] at h
      obtain ⟨hfirst, hrest⟩ := List.append_inj h ((hlength a).trans (hlength b).symm)
      obtain ⟨ha, has⟩ := List.forall_mem_cons.mp has
      obtain ⟨hb, hbs⟩ := List.forall_mem_cons.mp hbs
      rw [hS ha hb (wordBytes_inj.mp hfirst), ih has hbs hrest]

/-- Where no two of the hashed strings collide, the hash says which package it is. -/
theorem Package.ext_hash {p q : Package}
    (hno : Set.InjOn keccak256 (p.hashed keccak256 ∪ q.hashed keccak256))
    (h : p.hash keccak256 = q.hash keccak256) : p = q := by
  have hflattened : p.flattened keccak256 = q.flattened keccak256 :=
    hno (.inl (.inl rfl)) (.inr (.inl rfl)) (wordBytes_inj.mp (congrArg Subtype.val h))
  rw [flattened_eq, flattened_eq] at hflattened
  have hparts := hashes_injective hno (fun a ha => .inl (.inr ha)) (fun b hb => .inr (.inr hb))
    hflattened
  cases p
  cases q
  obtain ⟨hmetadata, hcode⟩ := List.cons.inj hparts
  exact congrArg₂ _ hmetadata hcode

end

/-! ## Runs -/

section

variable (keccak256 : Bytes → BitVec 256)

/-- What has been published. -/
structure AuthorizedUpgrades (log : List (Event Hash Package)) : Prop where
  authorized : ∀ before package after, log = before ++ .use package :: after →
    ∃ hash, inForce before = some hash ∧ package.hash keccak256 = hash
  once : ∀ before package between package' after,
    log = before ++ .use package :: between ++ .use package' :: after →
    ∃ hash, .grant hash ∈ between
  exact : ∀ before package after hashed, log = before ++ .use package :: after →
    inForce before = some (hashed.hash keccak256) →
    Set.InjOn keccak256 (package.hashed keccak256 ∪ hashed.hashed keccak256) → package = hashed

/-- The authorized hash is there, and whoever has the package can publish it. -/
structure Available (l : Ledger) : Prop where
  stored : ∀ hash, inForce l.log = some hash → l.state.contractUpgradeAuthorized = some hash
  usable : ∀ (env : Env) package, env.keccak256 = keccak256 →
    inForce l.log = some (package.hash keccak256) →
    env.publishPackage package.metadataSerialized package.code = .ok () →
    ∃ s, doContractUpgrade env package l.state = .ok s

variable {keccak256} {l l' : Ledger} {call : Call keccak256}

theorem available_of_stored
    (h : ∀ hash, inForce l.log = some hash → l.state.contractUpgradeAuthorized = some hash) :
    Available keccak256 l where
  stored := h
  usable := by
    intro env package hkeccak hforce hpublish
    refine ⟨_, doContractUpgrade_eq_ok.mpr ⟨_, h _ hforce, ?_, hpublish, rfl⟩⟩
    rw [hkeccak]
    exact matchesHash_iff.mpr rfl

variable (keccak256) in
/-- Only an authorization that is in force is stored, and only authorized packages are
published. -/
structure Sound (l : Ledger) : Prop where
  stored : ∀ hash, l.state.contractUpgradeAuthorized = some hash → inForce l.log = some hash
  justified : Justified (fun hash (package : Package) => package.hash keccak256 = hash) l.log

theorem sound_execute (hl : Sound keccak256 l) (h : execute call l = .ok l') :
    Sound keccak256 l' := by
  rcases execute_cases h with ⟨hash, hstays, hstored, hlog⟩ |
    ⟨package, hash, hstays, hfound, hsuits, hused, hlog⟩ | ⟨-, hmoved, hlog⟩ | ⟨-, hkept, hlog⟩
  · refine ⟨fun hash' hstored' => ?_, ?_⟩
    · rw [hlog, OneTimeGrant.inForce_append_singleton]
      exact hstored.symm.trans hstored'
    · rw [hlog]
      exact hl.justified.snoc fun _ h => nomatch h
  · refine ⟨fun hash' hstored' => absurd (hused.symm.trans hstored') (Option.some_ne_none _).symm,
      ?_⟩
    rw [hlog]
    refine hl.justified.snoc fun package' heq => ?_
    obtain rfl := Event.use.inj heq
    exact ⟨hash, hl.stored hash hfound, matchesHash_iff.mp hsuits⟩
  · refine ⟨fun hash' hstored' => absurd (hmoved.symm.trans hstored') (Option.some_ne_none _).symm,
      ?_⟩
    rw [hlog]
    exact hl.justified
  · refine ⟨fun hash' hstored' => ?_, ?_⟩
    · rw [hlog]
      exact hl.stored hash' (hkept.symm.trans hstored')
    · rw [hlog]
      exact hl.justified

/-- Where the authorization in force is stored, a call leaves it there, unless it withdraws it. -/
theorem available_submit (call : Call keccak256)
    (hl : Sound keccak256 l ∧ Available keccak256 l) :
    (Sound keccak256 (submit execute l call) ∧ Available keccak256 (submit execute l call)) ↔
      ¬Withdraws l call := by
  obtain ⟨hsound, havailable⟩ := hl
  cases hexec : execute call l with
  | error e =>
    rw [submit_of_error hexec]
    refine iff_of_true ⟨hsound, havailable⟩ fun hwithdraws => ?_
    obtain ⟨l', hok⟩ := hwithdraws.succeeds
    cases hexec.symm.trans hok
  | ok l' =>
    rw [submit_of_ok hexec]
    have hsound' := sound_execute hsound hexec
    rcases execute_cases hexec with ⟨hash, hstays, hstored, hlog⟩ |
      ⟨package, hash, hstays, hfound, hsuits, hused, hlog⟩ | ⟨hwithdraws, hmoved, hlog⟩ |
      ⟨hstays, hkept, hlog⟩
    · refine iff_of_true ⟨hsound', available_of_stored fun hash' hforce => ?_⟩ ?_
      · rw [hlog, OneTimeGrant.inForce_append_singleton] at hforce
        exact hstored.trans hforce
      · exact hstays
    · refine iff_of_true ⟨hsound', available_of_stored fun hash' hforce => ?_⟩ ?_
      · rw [hlog, OneTimeGrant.inForce_append_singleton] at hforce
        cases hforce
      · exact hstays
    · refine iff_of_false (fun hafter => ?_) (not_not.mpr hwithdraws)
      obtain ⟨hash, hstored⟩ := Option.ne_none_iff_exists'.mp hwithdraws.2
      have hlost := hafter.2.stored hash (hlog ▸ hsound.stored hash hstored)
      exact absurd (hmoved.symm.trans hlost) (Option.some_ne_none _).symm
    · refine iff_of_true ⟨hsound', available_of_stored fun hash' hforce => ?_⟩ hstays
      rw [hkept]
      exact havailable.stored hash' (hlog ▸ hforce)

theorem authorizedUpgrades_of_sound (hl : Sound keccak256 l) :
    AuthorizedUpgrades keccak256 l.log where
  authorized := hl.justified
  once _ _ _ _ _ := hl.justified.grant_between
  exact := by
    intro before package after hashed hlog hforce hno
    obtain ⟨hash, hforce', hhash⟩ := hl.justified before package after hlog
    cases hforce.symm.trans hforce'
    exact Package.ext_hash hno hhash

theorem sound_init {s : State} (h : s.contractUpgradeAuthorized = none) :
    Sound keccak256 { state := s } where
  stored _ hstored := absurd (h.symm.trans hstored) (Option.some_ne_none _).symm
  justified := OneTimeGrant.justified_nil

theorem init_authorized {stalePriceThreshold governanceEmitterChainId updateFee : U64}
    {governanceEmitterAddress : PythnetSdk.HashArray 32} {emitterChainIds : List U64}
    {emitterAddresses : List (PythnetSdk.HashArray 32)} {s : State}
    (h : init stalePriceThreshold governanceEmitterChainId governanceEmitterAddress
      emitterChainIds emitterAddresses updateFee = .ok s) : s.contractUpgradeAuthorized = none := by
  obtain ⟨dataSources, -, hinit⟩ := except_bind_eq_ok.mp h
  obtain ⟨sources, -, hs⟩ := except_bind_eq_ok.mp hinit
  cases hs
  rfl

/-- In every run, what is published is authorized. The authorization in force is available in
every state of the run exactly if nobody withdraws it. -/
theorem authorized_upgrades (keccak256 : Bytes → BitVec 256)
    (stalePriceThreshold governanceEmitterChainId updateFee : U64)
    (governanceEmitterAddress : PythnetSdk.HashArray 32) (emitterChainIds : List U64)
    (emitterAddresses : List (PythnetSdk.HashArray 32)) (s : State)
    (hinit : init stalePriceThreshold governanceEmitterChainId governanceEmitterAddress
      emitterChainIds emitterAddresses updateFee = .ok s)
    (calls : List (Call keccak256)) :
    AuthorizedUpgrades keccak256 (runAll execute { state := s } calls).log ∧
    (Always execute (Available keccak256) { state := s } calls ↔
      Along execute (fun l call => ¬Withdraws l call) { state := s } calls) := by
  have hsound : Sound keccak256 { state := s } := sound_init (init_authorized hinit)
  have hstep (call : Call keccak256) (l l' : Ledger) (hl : Sound keccak256 l)
      (h : execute call l = .ok l') : Sound keccak256 l' := sound_execute hl h
  refine ⟨authorizedUpgrades_of_sound (runAll_invariant hsound hstep calls), ?_⟩
  rw [← always_and_iff hsound hstep]
  refine always_iff_along ⟨hsound, available_of_stored fun _ hforce => ?_⟩ fun call l hl =>
    available_submit call hl
  cases hforce

end

/-! ### A run in which somebody moves the hash out -/

/-- Two packages that differ in a module. -/
def exPackage : Package where
  metadataSerialized := [1, 2]
  code := [[3], [4, 5]]

def exOther : Package where
  metadataSerialized := [1, 2]
  code := [[3], [4, 6]]

/-- What is hashed for them, with Keccak-256 of it. -/
def exHashes : List (Bytes × BitVec 256) :=
  let metadata : BitVec 256 := 0x22ae6da6b482f9b1b19b0b897c3fd43884180a1c5ee361e1107a1bc635649dda
  let first : BitVec 256 := 0x69c322e3248a5dfc29d73c5b0553b0185a35cd5bb6386747517ef7e53b15e287
  let second : BitVec 256 := 0xddfababe4dc7b4e689f1574a7ee60ec5fdc89d9232546c039cdbe66866bcab5c
  let other : BitVec 256 := 0xf6202a38610ea39c2259acce486a632c26ad6308de413e784336c3bf0b58a3ca
  [([1, 2], metadata), ([3], first), ([4, 5], second), ([4, 6], other),
    (wordBytes metadata ++ wordBytes first ++ wordBytes second,
      0xe5df42ce9cb77911da8e5371da25421a6f06e8282b36e7ed29be486918b2be3f),
    (wordBytes metadata ++ wordBytes first ++ wordBytes other,
      0x7785be79ab8e95fb4d1ff06ab78e7cdcf632a4ce5c98be68b81a5a6e3add3c4b)]

def exKeccak (bytes : Bytes) : BitVec 256 :=
  (exHashes.find? fun entry => entry.1 = bytes).elim 0 Prod.snd

/-- No two of the strings collide. -/
theorem exKeccak_injOn :
    Set.InjOn exKeccak (exPackage.hashed exKeccak ∪ exOther.hashed exKeccak) := by
  have hinjective : ∀ a ∈ exHashes.map Prod.fst, ∀ b ∈ exHashes.map Prod.fst,
      exKeccak a = exKeccak b → a = b := by
    decide +kernel
  have hparts : ∀ package ∈ [exPackage, exOther],
      package.flattened exKeccak ∈ exHashes.map Prod.fst ∧
        ∀ bytes ∈ package.metadataSerialized :: package.code, bytes ∈ exHashes.map Prod.fst := by
    decide +kernel
  have hlisted : ∀ bytes ∈ exPackage.hashed exKeccak ∪ exOther.hashed exKeccak,
      bytes ∈ exHashes.map Prod.fst := by
    rintro bytes ((rfl | hbytes) | (rfl | hbytes))
    · exact (hparts exPackage (by decide)).1
    · exact (hparts exPackage (by decide)).2 bytes hbytes
    · exact (hparts exOther (by decide)).1
    · exact (hparts exOther (by decide)).2 bytes hbytes
  exact fun a ha b hb => hinjective a (hlisted a ha) b (hlisted b hb)

def exGovernance : PythnetSdk.HashArray 32 := PythnetSdk.HashArray.ofNat 32 7

/-- The instruction that authorizes the package on chain 22. -/
def exPayload : Bytes := MAGIC ++ [1, 0] ++ bytesBE 2 22 ++ (exPackage.hash exKeccak).val

def exEnv : Env where
  keccak256 := exKeccak
  parseAndVerify vaa :=
    if vaa = [7] then
      .ok { emitterChain := 1, emitterAddress := exGovernance, sequence := 1, payload := exPayload }
    else .error .external
  publishPackage _ _ := .ok ()
  now := 1700000100
  chainId := 22

def exCall (function : Function) : Call exKeccak where
  env := exEnv
  hashes := rfl
  function := function

def exState : State where
  dataSources := []
  stalePriceThreshold := 60
  baseUpdateFee := 1
  latestPriceInfo _ := none
  governanceDataSource := { emitterChain := 1, emitterAddress := exGovernance }
  lastExecutedGovernanceSequence := 0
  contractUpgradeAuthorized := none

/-- Governance authorizes the package, and then somebody makes other calls. -/
def exCalls (functions : List Function) : List (Call exKeccak) :=
  exCall (.executeGovernanceInstruction [7]) :: functions.map exCall

/-- Somebody tries to publish the other package, which fails, and then publishes the package. -/
theorem authorized_upgrades_example :
    let calls := exCalls [.doContractUpgrade exOther, .doContractUpgrade exPackage]
    AuthorizedUpgrades exKeccak (runAll execute { state := exState } calls).log ∧
    Always execute (Available exKeccak) { state := exState } calls ∧
    (runAll execute { state := exState } calls).log
      = [.grant (exPackage.hash exKeccak), .use exPackage] ∧
    Set.InjOn exKeccak (exPackage.hashed exKeccak ∪ exOther.hashed exKeccak) := by
  intro calls
  obtain ⟨hauthorized, havailable⟩ :=
    authorized_upgrades exKeccak 60 1 1 exGovernance [] [] exState rfl calls
  have hkept : Along execute (fun l call => ¬Withdraws l call) { state := exState } calls :=
    ⟨nofun, nofun, nofun, trivial⟩
  exact ⟨hauthorized, havailable.mpr hkept, by decide +kernel, exKeccak_injOn⟩

/-- Somebody reads the hash, and the package cannot be published any more. -/
theorem authorized_upgrades_fail :
    init 60 1 exGovernance [] [] 1 = .ok exState ∧
    ¬Always execute (Available exKeccak) { state := exState }
      (exCalls [.getContractUpgradeAuthorizedHash]) ∧
    doContractUpgrade exEnv exPackage
        (runAll execute { state := exState } (exCalls [.getContractUpgradeAuthorizedHash])).state
      = .error (.code Error.unauthorizedUpgrade) := by
  have hlost : (runAll execute { state := exState }
      (exCalls [.getContractUpgradeAuthorizedHash])).state.contractUpgradeAuthorized = none := by
    decide +kernel
  refine ⟨rfl, fun halways => ?_, doContractUpgrade_of_none hlost⟩
  have hstored := halways.last.stored (exPackage.hash exKeccak) (by decide +kernel)
  exact Option.some_ne_none _ (hstored.symm.trans hlost)

end PythCrosschain.Aptos
