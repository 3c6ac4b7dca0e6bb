import PythCrosschain.PriceStore.Accounts

/-!
# Price store: the program

The instructions of the program `pyth-price-store`, with the checks of `validate.rs`. An account
that an instruction is called with twice is borrowed twice, which panics where one of the two
borrows is mutable.

What an instruction that succeeds does to the accounts is one lemma each:
`initializeConfig_cases`, `initializePublisher_cases` and `submitPrices_cases`.
-/

namespace PythCrosschain.PriceStore

open Solana

/-! ## `instruction.rs` -/

/-- `"CONFIG"`. -/
def CONFIG_SEED : Bytes := [67, 79, 78, 70, 73, 71]

/-- `"PUBLISHER_CONFIG"`. -/
def PUBLISHER_CONFIG_SEED : Bytes :=
  [80, 85, 66, 76, 73, 83, 72, 69, 82, 95, 67, 79, 78, 70, 73, 71]

structure InitializeArgs where
  configBump : UInt8
  authority : Pubkey

structure InitializePublisherArgs where
  configBump : UInt8
  publisherConfigBump : UInt8
  publisher : Pubkey

structure SubmitPricesArgsHeader where
  publisherConfigBump : UInt8

/-- An instruction with its payload. -/
inductive Instruction where
  | initializeConfig (args : InitializeArgs)
  | submitPrices (args : SubmitPricesArgsHeader) (pricesData : Bytes)
  | initializePublisher (args : InitializePublisherArgs)

/-- `Instruction::parse`, and `try_from_bytes` of the arguments. -/
def Instruction.parse (data : Bytes) : Result Instruction :=
  match data with
  | [] => .error (.error (.custom .invalidInstructionData))
  | 0 :: payload => do
    require (payload.length = 33) .invalidInstructionData
    return .initializeConfig { configBump := payload.getD 0 0, authority := pubkeyAt payload 1 }
  | 1 :: payload => do
    require (1 ≤ payload.length) .invalidInstructionData
    return .submitPrices { publisherConfigBump := payload.getD 0 0 } (payload.drop 1)
  | 2 :: payload => do
    require (payload.length = 34) .invalidInstructionData
    return .initializePublisher {
      configBump := payload.getD 0 0
      publisherConfigBump := payload.getD 1 0
      publisher := pubkeyAt payload 2 }
  | _ => .error (.error (.custom .invalidInstructionData))

/-! ## `validate.rs` -/

/-- The id of the program, and the functions of the runtime. -/
structure Env where
  programId : Pubkey
  createProgramAddress : List Bytes → Pubkey → Option Pubkey
  minimumBalance : ℕ → ℕ

/-- `find_program_address`: the address with the highest bump that has one, and the bump. -/
def Env.findProgramAddress (env : Env) (seeds : List Bytes) : Result (Pubkey × UInt8) :=
  Rust.unwrap ((List.range 255).findSome? fun i =>
    let bump := UInt8.ofNat (255 - i)
    (env.createProgramAddress (seeds ++ [[bump]]) env.programId).map fun key => (key, bump))

section

variable (env : Env)

def validatePublisher (account : Option AccountMeta) : Result AccountMeta := do
  let publisher ← Rust.okOr (.custom .notEnoughAccountKeys) account
  require (publisher.isSigner = true) .missingRequiredSignature
  require (publisher.isWritable = true) .invalidArgument
  return publisher

def validateSystem (account : Option AccountMeta) : Result AccountMeta := do
  let system ← Rust.okOr (.custom .notEnoughAccountKeys) account
  require (system.pubkey = SYSTEM_PROGRAM_ID) .invalidArgument
  return system

def validatePayer (account : Option AccountMeta) : Result AccountMeta := do
  let payer ← Rust.okOr (.custom .notEnoughAccountKeys) account
  require (payer.isSigner = true) .missingRequiredSignature
  require (payer.isWritable = true) .invalidArgument
  return payer

def validateConfig (account : Option AccountMeta) (bump : UInt8) (requireWritable : Bool) :
    Result AccountMeta := do
  let config ← Rust.okOr (.custom .notEnoughAccountKeys) account
  let (configPda, expectedBump) ← env.findProgramAddress [CONFIG_SEED]
  require (bump = expectedBump) .invalidInstructionData
  require (config.pubkey = configPda) .invalidArgument
  require (requireWritable = true → config.isWritable = true) .invalidArgument
  return config

def validateAuthority (ledger : StoreLedger) (account : Option AccountMeta)
    (config : AccountMeta) : Result AccountMeta := do
  let authority ← Rust.okOr (.custom .notEnoughAccountKeys) account
  require (authority.isSigner = true) .missingRequiredSignature
  require (authority.isWritable = true) .invalidArgument
  let config ← ofRead (Config.read (dataOf ledger config.pubkey))
  require (authority.pubkey = config.authority) .missingRequiredSignature
  return authority

def validatePublisherConfigForAccess (account : Option AccountMeta) (bump : UInt8)
    (publisher : Pubkey) : Result AccountMeta := do
  let publisherConfig ← Rust.okOr (.custom .notEnoughAccountKeys) account
  let publisherConfigPda ← Rust.okOr (.custom .invalidInstructionData)
    (env.createProgramAddress [PUBLISHER_CONFIG_SEED, publisher.val, [bump]] env.programId)
  require (publisherConfig.pubkey = publisherConfigPda) .missingRequiredSignature
  return publisherConfig

def validatePublisherConfigForInit (account : Option AccountMeta) (bump : UInt8)
    (publisher : Pubkey) : Result AccountMeta := do
  let publisherConfig ← Rust.okOr (.custom .notEnoughAccountKeys) account
  let (publisherConfigPda, expectedBump) ←
    env.findProgramAddress [PUBLISHER_CONFIG_SEED, publisher.val]
  require (bump = expectedBump) .invalidInstructionData
  require (publisherConfig.isWritable = true) .invalidArgument
  require (publisherConfig.pubkey = publisherConfigPda) .missingRequiredSignature
  return publisherConfig

def validateBuffer (ledger : StoreLedger) (account : Option AccountMeta) :
    Result AccountMeta := do
  let buffer ← Rust.okOr (.custom .notEnoughAccountKeys) account
  require (buffer.isWritable = true) .invalidArgument
  require ((ledger buffer.pubkey).owner = env.programId) .illegalOwner
  return buffer

/-! ## `processor` -/

/-- `invoke_signed` of `create_account`, for an account of this program. -/
def createAccountSigned (ledger : StoreLedger) (payer target : AccountMeta) (space : ℕ)
    (seeds : List Bytes) : Result StoreLedger :=
  let isSigner : Bool := env.createProgramAddress seeds env.programId = some target.pubkey
  ledger.createAccount payer { target with isSigner } (env.minimumBalance space) space
    env.programId

/-- `initialize`. -/
def initializeConfig (accounts : List AccountMeta) (args : InitializeArgs) (ledger : StoreLedger) :
    Result StoreLedger := do
  let payer ← validatePayer accounts[0]?
  let config ← validateConfig env accounts[1]? args.configBump true
  let _ ← validateSystem accounts[2]?
  let ledger ← createAccountSigned env ledger payer config Config.SIZE
    [CONFIG_SEED, [args.configBump]]
  let data ← ofRead (Config.create (dataOf ledger config.pubkey) args.authority)
  return setData ledger config.pubkey data

def initializePublisher (accounts : List AccountMeta) (args : InitializePublisherArgs)
    (ledger : StoreLedger) : Result StoreLedger := do
  let config ← validateConfig env accounts[1]? args.configBump false
  let authority ← validateAuthority ledger accounts[0]? config
  let publisherConfig ← validatePublisherConfigForInit env accounts[2]? args.publisherConfigBump
    args.publisher
  let buffer ← validateBuffer env ledger accounts[3]?
  let _ ← validateSystem accounts[4]?
  let ledger ← createAccountSigned env ledger authority publisherConfig PublisherConfig.SIZE
    [PUBLISHER_CONFIG_SEED, args.publisher.val, [args.publisherConfigBump]]
  let data ← ofRead (PublisherConfig.create (dataOf ledger publisherConfig.pubkey) args.publisher
    buffer.pubkey)
  let ledger := setData ledger publisherConfig.pubkey data
  -- both accounts are borrowed mutably
  if buffer.pubkey = publisherConfig.pubkey then .error .panic
  else do
    let bufferData := dataOf ledger buffer.pubkey
    require ((ledger buffer.pubkey).lamports ≥ env.minimumBalance bufferData.length)
      .accountNotRentExempt
    let (header, prices) ← ofRead (Buffer.create bufferData args.publisher)
    return setData ledger buffer.pubkey (header.toBytes ++ prices)

def submitPrices (slot : U64) (accounts : List AccountMeta) (args : SubmitPricesArgsHeader)
    (pricesData : Bytes) (ledger : StoreLedger) : Result StoreLedger := do
  let publisher ← validatePublisher accounts[0]?
  let publisherConfig ← validatePublisherConfigForAccess env accounts[1]?
    args.publisherConfigBump publisher.pubkey
  let buffer ← validateBuffer env ledger accounts[2]?
  let config ← ofRead (PublisherConfig.read (dataOf ledger publisherConfig.pubkey))
  require (publisher.pubkey = config.publisher) .invalidArgument
  require (buffer.pubkey = config.bufferAccount) .invalidArgument
  -- the publisher config is still borrowed
  if buffer.pubkey = publisherConfig.pubkey then .error .panic
  else do
    let (header, prices) ← ofRead (Buffer.readMut (dataOf ledger buffer.pubkey))
    let (header, prices) ← ofExtend (Buffer.update header prices slot pricesData)
    return setData ledger buffer.pubkey (header.toBytes ++ prices)

def processInstruction (slot : U64) (accounts : List AccountMeta) (data : Bytes)
    (ledger : StoreLedger) : Result StoreLedger := do
  match ← Instruction.parse data with
  | .initializeConfig args => initializeConfig env accounts args ledger
  | .submitPrices args pricesData => submitPrices env slot accounts args pricesData ledger
  | .initializePublisher args => initializePublisher env accounts args ledger

end

/-! ## What an instruction does -/

/-- A program derived address of the program. -/
def Derived (env : Env) (key : Pubkey) : Prop :=
  ∃ seeds, env.createProgramAddress seeds env.programId = some key

structure Holds (env : Env) (ledger : StoreLedger) (key : Pubkey) (x : Stored) : Prop where
  owner : (ledger key).owner = env.programId
  data : dataOf ledger key = x.bytes

/-- The accounts of the program hold what it keeps in them. -/
def Typed (env : Env) (ledger : StoreLedger) : Prop :=
  ∀ key, (ledger key).owner = env.programId → ∃ x : Stored, dataOf ledger key = x.bytes

section

variable {env : Env} {ledger ledger' : StoreLedger} {key k : Pubkey} {data : Bytes} {x : Stored}

theorem dataOf_of_same (h : Ledger.Same ledger ledger' k) : dataOf ledger' k = dataOf ledger k := by
  rw [dataOf, dataOf, h.data]

theorem Holds.of_same (h : Holds env ledger k x) (hsame : Ledger.Same ledger ledger' k) :
    Holds env ledger' k x :=
  ⟨hsame.owner.trans h.owner, (dataOf_of_same hsame).trans h.data⟩

theorem Holds.of_same' (h : Holds env ledger' k x) (hsame : Ledger.Same ledger ledger' k) :
    Holds env ledger k x :=
  ⟨hsame.owner.symm.trans h.owner, (dataOf_of_same hsame).symm.trans h.data⟩

theorem dataOf_of_raw (h : (ledger key).data = .raw data) : dataOf ledger key = data := by
  rw [dataOf, h]

theorem dataOf_setData : dataOf (setData ledger key data) key = data :=
  dataOf_of_raw (by rw [setData, Function.update_self])

theorem owner_setData : (setData ledger key data k).owner = (ledger k).owner := by
  rcases eq_or_ne k key with rfl | hne
  · rw [setData, Function.update_self]
  · rw [setData, Function.update_of_ne hne]

theorem same_setData (hk : k ≠ key) : Ledger.Same ledger (setData ledger key data) k :=
  Ledger.same_update ledger _ hk

theorem ofRead_eq_ok {α : Type} {r : Except ReadAccountError α} {a : α} :
    ofRead r = .ok a ↔ r = .ok a := by
  cases r with
  | error e => exact ⟨fun h => (by cases h), fun h => (by cases h)⟩
  | ok b => exact ⟨fun h => congrArg Except.ok (Except.ok.inj h), fun h => h ▸ rfl⟩

theorem ofExtend_eq_ok {α : Type} {r : Rust.Result ExtendError α} {a : α} :
    ofExtend r = .ok a ↔ r = .ok a := by
  rcases r with (e | -) | b
  · exact ⟨fun h => (by cases h), fun h => (by cases h)⟩
  · exact ⟨fun h => (by cases h), fun h => (by cases h)⟩
  · exact ⟨fun h => congrArg Except.ok (Except.ok.inj h), fun h => h ▸ rfl⟩

/-- The account that is created signs with the seeds of its address. -/
theorem createAccountSigned_eq_ok {payer target : AccountMeta} {space : ℕ} {seeds : List Bytes}
    (h : createAccountSigned env ledger payer target space seeds = .ok ledger') :
    Derived env target.pubkey ∧ ledger.Free target.pubkey ∧
      Holds env ledger' target.pubkey (.blank space) ∧
      ∀ k, k ≠ target.pubkey → Ledger.Same ledger ledger' k := by
  obtain ⟨hsigner, hfree, howner, hdata, hsame⟩ := Ledger.createAccount_eq_ok h
  exact ⟨⟨seeds, of_decide_eq_true hsigner⟩, hfree, ⟨howner, dataOf_of_raw hdata⟩, hsame⟩

theorem configCreate_blank (authority : Pubkey) :
    Config.create (Stored.blank Config.SIZE).bytes authority
      = .ok (Stored.config authority).bytes := by
  refine (Stored.checked_bytes_eq_ok (by decide)).mpr ⟨?_, rfl, ?_⟩
  · rw [Stored.bytes, List.length_replicate]
  · rw [Stored.bytes, List.drop_replicate, Nat.sub_self]
    exact List.append_nil _

theorem publisherConfigCreate_blank (publisher bufferAccount : Pubkey) :
    PublisherConfig.create (Stored.blank PublisherConfig.SIZE).bytes publisher bufferAccount
      = .ok (Stored.publisherConfig publisher bufferAccount).bytes := by
  refine (Stored.checked_bytes_eq_ok (by decide)).mpr ⟨?_, rfl, ?_⟩
  · rw [Stored.bytes, List.length_replicate]
  · rw [Stored.bytes, List.drop_replicate, Nat.sub_self]
    exact List.append_nil _

theorem validatePublisherConfigForInit_eq_ok {account : Option AccountMeta} {bump : UInt8}
    {publisher : Pubkey} {config : AccountMeta}
    (h : validatePublisherConfigForInit env account bump publisher = .ok config) :
    env.findProgramAddress [PUBLISHER_CONFIG_SEED, publisher.val] = .ok (config.pubkey, bump) := by
  obtain ⟨config', -, h⟩ := except_bind_eq_ok.mp h
  obtain ⟨⟨configPda, expectedBump⟩, hfind, h⟩ := except_bind_eq_ok.mp h
  obtain ⟨_, hbump, h⟩ := except_bind_eq_ok.mp h
  obtain ⟨_, -, h⟩ := except_bind_eq_ok.mp h
  obtain ⟨_, hkey, h⟩ := except_bind_eq_ok.mp h
  cases h
  rw [require_eq_ok.mp hbump, require_eq_ok.mp hkey]
  exact hfind

theorem validatePublisherConfigForAccess_derived {account : Option AccountMeta} {bump : UInt8}
    {publisher : Pubkey} {config : AccountMeta}
    (h : validatePublisherConfigForAccess env account bump publisher = .ok config) :
    Derived env config.pubkey := by
  obtain ⟨config', -, h⟩ := except_bind_eq_ok.mp h
  obtain ⟨publisherConfigPda, hcreate, h⟩ := except_bind_eq_ok.mp h
  obtain ⟨_, hkey, h⟩ := except_bind_eq_ok.mp h
  cases h
  rw [require_eq_ok.mp hkey]
  exact ⟨_, Rust.okOr_eq_ok.mp hcreate⟩

theorem validateBuffer_eq_ok {account : Option AccountMeta} {buffer : AccountMeta}
    (h : validateBuffer env ledger account = .ok buffer) :
    (ledger buffer.pubkey).owner = env.programId := by
  obtain ⟨buffer', -, h⟩ := except_bind_eq_ok.mp h
  obtain ⟨_, -, h⟩ := except_bind_eq_ok.mp h
  obtain ⟨_, howner, h⟩ := except_bind_eq_ok.mp h
  cases h
  exact require_eq_ok.mp howner

/-- The config is created at its address. -/
structure CreatesConfig (env : Env) (ledger ledger' : StoreLedger) (key authority : Pubkey) :
    Prop where
  derived : Derived env key
  free : ledger.Free key
  config : Holds env ledger' key (.config authority)
  same : ∀ k, k ≠ key → Ledger.Same ledger ledger' k

theorem initializeConfig_cases {accounts : List AccountMeta} {args : InitializeArgs}
    (h : initializeConfig env accounts args ledger = .ok ledger') :
    ∃ key, CreatesConfig env ledger ledger' key args.authority := by
  obtain ⟨payer, -, h⟩ := except_bind_eq_ok.mp h
  obtain ⟨config, -, h⟩ := except_bind_eq_ok.mp h
  obtain ⟨_, -, h⟩ := except_bind_eq_ok.mp h
  obtain ⟨created, hcreated, h⟩ := except_bind_eq_ok.mp h
  obtain ⟨data, hdata, h⟩ := except_bind_eq_ok.mp h
  cases h
  obtain ⟨hderived, hfree, hblank, hsame⟩ := createAccountSigned_eq_ok hcreated
  rw [ofRead_eq_ok, hblank.data, configCreate_blank] at hdata
  cases hdata
  refine ⟨config.pubkey, hderived, hfree, ⟨?_, dataOf_setData⟩, fun k hk => ?_⟩
  · rw [owner_setData, hblank.owner]
  · exact (hsame k hk).trans (same_setData hk)

/-- The publisher config is created at its address, and a blank account becomes the buffer. -/
structure CreatesPublisher (env : Env) (ledger ledger' : StoreLedger)
    (publisher key buffer : Pubkey) : Prop where
  derived : Derived env key
  address : ∃ bump, env.findProgramAddress [PUBLISHER_CONFIG_SEED, publisher.val] = .ok (key, bump)
  free : ledger.Free key
  apart : buffer ≠ key
  blank : ∃ size, Holds env ledger buffer (.blank size)
  config : Holds env ledger' key (.publisherConfig publisher buffer)
  opened : ∃ prices, Holds env ledger' buffer (.buffer publisher 0 0 prices)
  same : ∀ k, k ≠ key → k ≠ buffer → Ledger.Same ledger ledger' k

theorem initializePublisher_cases (htyped : Typed env ledger) {accounts : List AccountMeta}
    {args : InitializePublisherArgs}
    (h : initializePublisher env accounts args ledger = .ok ledger') :
    ∃ key buffer, CreatesPublisher env ledger ledger' args.publisher key buffer := by
  obtain ⟨config, -, h⟩ := except_bind_eq_ok.mp h
  obtain ⟨authority, -, h⟩ := except_bind_eq_ok.mp h
  obtain ⟨publisherConfig, hconfig, h⟩ := except_bind_eq_ok.mp h
  obtain ⟨buffer, hbuffer, h⟩ := except_bind_eq_ok.mp h
  obtain ⟨_, -, h⟩ := except_bind_eq_ok.mp h
  obtain ⟨created, hcreated, h⟩ := except_bind_eq_ok.mp h
  obtain ⟨data, hdata, h⟩ := except_bind_eq_ok.mp h
  obtain ⟨hderived, hfree, hblank, hsame⟩ := createAccountSigned_eq_ok hcreated
  rw [ofRead_eq_ok, hblank.data, publisherConfigCreate_blank] at hdata
  cases hdata
  dsimp only at h
  split at h
  · cases h
  next hapart =>
  obtain ⟨_, -, h⟩ := except_bind_eq_ok.mp h
  obtain ⟨⟨header, prices⟩, hcreate, h⟩ := except_bind_eq_ok.mp h
  cases h
  have howner := validateBuffer_eq_ok hbuffer
  obtain ⟨x, hx⟩ := htyped _ howner
  have hbufferSame : Ledger.Same ledger (setData created publisherConfig.pubkey
      (Stored.publisherConfig args.publisher buffer.pubkey).bytes) buffer.pubkey :=
    (hsame _ hapart).trans (same_setData hapart)
  rw [ofRead_eq_ok, dataOf_of_same hbufferSame, hx, Stored.bufferCreate_eq_ok] at hcreate
  obtain ⟨rfl, rfl, -⟩ := hcreate
  refine ⟨publisherConfig.pubkey, buffer.pubkey, hderived,
    ⟨_, validatePublisherConfigForInit_eq_ok hconfig⟩, hfree, hapart, ⟨_, howner, hx⟩, ?_,
    ⟨prices, ?_, ?_⟩, fun k hk hk' => ?_⟩
  · refine Holds.of_same ⟨?_, dataOf_setData⟩ (same_setData (Ne.symm hapart))
    rw [owner_setData, hblank.owner]
  · rw [owner_setData, hbufferSame.owner, howner]
  · exact dataOf_setData
  · exact ((hsame k hk).trans (same_setData hk)).trans (same_setData hk')

/-- A publisher that signs writes prices to the buffer of its config. -/
structure Submits (env : Env) (now : U64) (ledger ledger' : StoreLedger) (publisher : Pubkey)
    (newPrices : Bytes) (key buffer : Pubkey) : Prop where
  derived : Derived env key
  config : ∃ config, PublisherConfig.read (dataOf ledger key) = .ok config ∧
    config.publisher = publisher ∧ config.bufferAccount = buffer
  written : ∃ publisher' slot numPrices prices header' prices',
    Holds env ledger buffer (.buffer publisher' slot numPrices prices) ∧
    Buffer.update (Stored.header publisher' slot numPrices) prices now newPrices
      = .ok (header', prices') ∧
    (ledger' buffer).owner = env.programId ∧ dataOf ledger' buffer = header'.toBytes ++ prices'
  same : ∀ k, k ≠ buffer → Ledger.Same ledger ledger' k

theorem submitPrices_cases (htyped : Typed env ledger) {now : U64} {accounts : List AccountMeta}
    {args : SubmitPricesArgsHeader} {newPrices : Bytes}
    (h : submitPrices env now accounts args newPrices ledger = .ok ledger') :
    ∃ publisher key buffer, accounts[0]? = some publisher ∧ publisher.isSigner = true ∧
      Submits env now ledger ledger' publisher.pubkey newPrices key buffer := by
  obtain ⟨publisher, hpublisher, h⟩ := except_bind_eq_ok.mp h
  obtain ⟨publisherConfig, hconfig, h⟩ := except_bind_eq_ok.mp h
  obtain ⟨buffer, hbuffer, h⟩ := except_bind_eq_ok.mp h
  obtain ⟨config, hread, h⟩ := except_bind_eq_ok.mp h
  obtain ⟨_, hsame, h⟩ := except_bind_eq_ok.mp h
  obtain ⟨_, hbufferKey, h⟩ := except_bind_eq_ok.mp h
  split at h
  · cases h
  obtain ⟨⟨header, prices⟩, hreadMut, h⟩ := except_bind_eq_ok.mp h
  obtain ⟨⟨header', prices'⟩, hupdate, h⟩ := except_bind_eq_ok.mp h
  cases h
  obtain ⟨publisher', haccount, hpublisher⟩ := except_bind_eq_ok.mp hpublisher
  obtain ⟨_, hsigner, hpublisher⟩ := except_bind_eq_ok.mp hpublisher
  obtain ⟨_, -, hpublisher⟩ := except_bind_eq_ok.mp hpublisher
  cases hpublisher
  have howner := validateBuffer_eq_ok hbuffer
  obtain ⟨x, hx⟩ := htyped _ howner
  rw [ofRead_eq_ok, hx, Stored.bufferReadMut_eq_ok] at hreadMut
  obtain ⟨hbufferData, hformat⟩ := hreadMut
  have hheader : header = Stored.header header.publisher header.slot header.numPrices := by
    rw [Stored.header, ← hformat]
  rw [ofExtend_eq_ok, hheader] at hupdate
  refine ⟨publisher, publisherConfig.pubkey, buffer.pubkey, Rust.okOr_eq_ok.mp haccount,
    require_eq_ok.mp hsigner, validatePublisherConfigForAccess_derived hconfig,
    ⟨config, ofRead_eq_ok.mp hread, (require_eq_ok.mp hsame).symm,
      (require_eq_ok.mp hbufferKey).symm⟩,
    ⟨_, _, _, _, _, _, ⟨howner, hx.trans (congrArg Stored.bytes hbufferData)⟩, hupdate, ?_,
      dataOf_setData⟩, fun k hk => same_setData hk⟩
  rw [owner_setData, howner]

end

end PythCrosschain.PriceStore
