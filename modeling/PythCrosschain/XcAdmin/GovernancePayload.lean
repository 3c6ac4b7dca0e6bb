import PythCrosschain.Lib.Hex

/-!
# Governance payloads of `xc_admin_common`

`PythGovernanceAction.ts`, `BufferLayoutExt.ts` and `ExecuteAction.ts`: the header of a governance
message and the action `EvmExecute`. The table of the chains is a parameter, `toChainId`.
-/

namespace PythCrosschain.XcAdmin

/-! ## `PythGovernanceAction.ts` -/

inductive ActionName where
  | executePostedVaa
  | upgradeContract
  | authorizeGovernanceDataSourceTransfer
  | setDataSources
  | setFee
  | setValidPeriod
  | requestGovernanceDataSourceTransfer
  | setWormholeAddress
  | setFeeInToken
  | execute
deriving DecidableEq, Repr

def MAGIC_NUMBER : ℕ := 0x4d475450
def MODULE_EXECUTOR : UInt8 := 0
def MODULE_TARGET : UInt8 := 1
def MODULE_EVM_EXECUTOR : UInt8 := 2

def ActionName.moduleId : ActionName → UInt8
  | executePostedVaa => MODULE_EXECUTOR
  | execute => MODULE_EVM_EXECUTOR
  | _ => MODULE_TARGET

/-- The numbers of `ExecutorAction`, `TargetAction` and `EvmExecutorAction`. -/
def ActionName.actionId : ActionName → UInt8
  | executePostedVaa => 0
  | upgradeContract => 0
  | authorizeGovernanceDataSourceTransfer => 1
  | setDataSources => 2
  | setFee => 3
  | setValidPeriod => 4
  | requestGovernanceDataSourceTransfer => 5
  | setWormholeAddress => 6
  | setFeeInToken => 7
  | execute => 0

structure PythGovernanceHeader (ChainName : Type) where
  targetChainId : ChainName
  action : ActionName

section

variable {ChainName : Type} (toChainId : ChainName → Option (BitVec 16))

/-- The magic number is written in little-endian order. A chain without an id throws. -/
def PythGovernanceHeader.encode (header : PythGovernanceHeader ChainName) : Option Bytes := do
  let chain ← toChainId header.targetChainId
  return bytesLE 4 MAGIC_NUMBER ++ [header.action.moduleId, header.action.actionId]
    ++ bytesBE 2 chain.toNat

/-- `PythGovernanceActionImpl.encodeWithPayload`. -/
def encodeWithPayload (header : PythGovernanceHeader ChainName) (payload : Bytes) :
    Option Bytes := do
  let headerBuffer ← header.encode toChainId
  return headerBuffer ++ payload

end

/-! ## `BufferLayoutExt.ts` -/

/-- The bytes that `buffer.write(src, "hex")` writes: it stops at the first pair that is not two
digits. -/
def hexPairs : List Char → Bytes
  | high :: low :: rest =>
    match Hex.digit high, Hex.digit low with
    | some h, some l => UInt8.ofNat (16 * h + l) :: hexPairs rest
    | _, _ => []
  | _ => []

/-- `HexBytes.encode`: the rest of the span is zero. -/
def HexBytes.encode (span : ℕ) (src : List Char) : Bytes :=
  (hexPairs src ++ List.replicate span 0).take span

/-- `UIntBE.encode`, of a number that fits the span. -/
def UIntBE.encode (span : ℕ) (src : ℕ) : Bytes := bytesBE span src

/-! ## `ExecuteAction.ts` -/

structure EvmExecute (ChainName : Type) where
  targetChainId : ChainName
  executorAddress : List Char
  callAddress : List Char
  value : ℕ
  calldata : Bytes

def EvmExecute.encode {ChainName : Type} (toChainId : ChainName → Option (BitVec 16))
    (action : EvmExecute ChainName) : Option Bytes :=
  encodeWithPayload toChainId ⟨action.targetChainId, .execute⟩
    (HexBytes.encode 20 action.executorAddress ++ HexBytes.encode 20 action.callAddress
      ++ UIntBE.encode 32 action.value ++ action.calldata)

/-- A text is the hexadecimal form of an address. -/
def IsAddress (text : List Char) (address : Bytes) : Prop :=
  Hex.decode text = some address ∧ address.length = 20

/-- Addresses of 20 bytes and a value below `2 ^ 256`. -/
structure EvmExecute.InRange {ChainName : Type} (action : EvmExecute ChainName) : Prop where
  executorAddress : ∃ address, IsAddress action.executorAddress address
  callAddress : ∃ address, IsAddress action.callAddress address
  value : action.value < 2 ^ 256

/-! ## Hexadecimal texts -/

theorem hexPairs_of_decode {text : List Char} {bytes : Bytes} (h : Hex.decode text = some bytes) :
    hexPairs text = bytes := by
  induction text using Hex.decode.induct generalizing bytes with
  | case1 =>
    cases h
    rfl
  | case2 => cases h
  | case3 high low rest ih =>
    rw [Hex.decode] at h
    simp only [Option.bind_eq_bind, Option.bind_eq_some_iff, Option.pure_def,
      Option.some.injEq] at h
    obtain ⟨hi, hhigh, lo, hlow, bytes, hrest, rfl⟩ := h
    rw [hexPairs, hhigh, hlow, ih hrest]

/-- An address is written as it is. -/
theorem HexBytes.encode_of_isAddress {text : List Char} {address : Bytes}
    (h : IsAddress text address) : HexBytes.encode 20 text = address := by
  rw [HexBytes.encode, hexPairs_of_decode h.1, List.take_append_of_le_length h.2.ge,
    List.take_of_length_le h.2.le]

/-- Every address has a text. -/
theorem isAddress_encode {address : Bytes} (h : address.length = 20) :
    IsAddress (Hex.encode address) address :=
  ⟨Hex.decode_encode address, h⟩

end PythCrosschain.XcAdmin
