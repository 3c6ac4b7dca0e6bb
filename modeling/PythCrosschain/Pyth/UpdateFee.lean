import Mathlib.Data.BitVec
import PythCrosschain.Pyth.LatestPrice

/-!
# The quoted and the charged fee

`getUpdateFee` finds the number of messages of an update without verifying it: it skips the VAA by
the size that stands before it. On an update that `updatePriceFeeds` accepts both read the same
byte. The results are:

- `parseWormholeMerkleHeaderNumUpdates_eq`: the number of messages of one update;
- `countUpdates_eq`: the number of messages of the update data;
- `quoted_fee_eq_required_fee`: the quote is what `updatePriceFeeds` requires, or both overflow;
- `quoted_fee_overflows`: two messages at a fee of `2 ^ 255`.
-/

namespace PythCrosschain.Pyth

open UnsafeCalldataBytesLib

section

variable {keccak256 : Bytes → Bytes32} {env : CallEnv} {update : CalldataBytes}

/-- The header of an update ends within it, and behind its first 8 bytes. -/
theorem header_bounds {header : Uint256 × UpdateType}
    (h : extractUpdateTypeFromAccumulatorHeader env.machine update = .ok header) :
    toUint32 env.machine update 0 = ACCUMULATOR_MAGIC ∧
      8 ≤ header.1.toNat ∧ header.1.toNat ≤ 263 ∧ header.1.toNat ≤ update.length.toNat := by
  have hend := header_end h
  simp only [extractUpdateTypeFromAccumulatorHeader, bind_eq_ok, require_eq_ok, pure_eq_ok] at h
  obtain ⟨-, hmagic, -, -, -, -, _, -, -, -, rfl⟩ := h
  generalize toUint8 env.machine update (0 + 4 + 1 + 1) = trailing at hend ⊢
  have hlt := trailing.isLt
  have hoffset : (0 + 4 + 1 + 1 + 1 + trailing.setWidth 256 + 1 : Uint256).toNat
      = 8 + trailing.toNat := by
    bv_omega
  simp only [hoffset] at hend ⊢
  exact ⟨hmagic, by omega, by omega, hend⟩

theorem isAccumulatorUpdate_of_header {header : Uint256 × UpdateType}
    (h : extractUpdateTypeFromAccumulatorHeader env.machine update = .ok header) :
    isAccumulatorUpdate env update = true := by
  obtain ⟨hmagic, hlow, -, hend⟩ := header_bounds h
  refine decide_eq_true ⟨BitVec.lt_def.mpr ?_, hmagic⟩
  show 4 < update.length.toNat
  omega

/-- The size of the VAA and the number of messages stand at the same addresses of the calldata for
both functions. -/
theorem parseWormholeMerkleHeaderNumUpdates_eq {offset : Uint256}
    {body : Uint256 × Bytes20 × Uint8 × CalldataBytes}
    (h : extractWormholeMerkleHeaderDigestAndNumUpdatesAndEncodedFromAccumulatorUpdate env.machine
      env.parseAndVerifyPythVM update offset = .ok body) (hoffset : offset.toNat ≤ 263) :
    parseWormholeMerkleHeaderNumUpdates env update offset = .ok body.2.2.1 := by
  simp only [extractWormholeMerkleHeaderDigestAndNumUpdatesAndEncodedFromAccumulatorUpdate,
    bind_eq_ok, pure_eq_ok, slice_eq_ok] at h
  obtain ⟨encoded, ⟨-, -, rfl⟩, _, -, _, -, _, -, rfl⟩ := h
  have hsize : toUint16 env.machine
      { offset := update.offset + offset, length := update.length - offset } 0
      = toUint16 env.machine update offset :=
    congrArg (fun address => (calldataload env.machine address >>> 240).setWidth 16)
      (BitVec.add_zero _)
  simp only [hsize]
  generalize hread : toUint16 env.machine update offset = size
  have hlt := size.isLt
  have hnum : toUint8 env.machine
      { offset := update.offset + offset, length := update.length - offset }
        (0 + 2 + size.setWidth 256)
      = toUint8 env.machine update (offset + 2 + size.setWidth 256) := by
    refine congrArg (fun address => (calldataload env.machine address >>> 248).setWidth 8) ?_
    show update.offset + offset + (0 + 2 + size.setWidth 256)
      = update.offset + (offset + 2 + size.setWidth 256)
    bv_omega
  simp only [parseWormholeMerkleHeaderNumUpdates, hread, hnum, bind_eq_ok, checkedAdd_eq_ok,
    pure_eq_ok]
  refine ⟨offset + 2, ?_, offset + 2 + size.setWidth 256, ?_, rfl⟩
  · bv_omega
  · bv_omega

theorem countUpdates_eq {updateData : List CalldataBytes} {totalNumUpdates : Uint256} {w : World}
    {updated : World × Uint256}
    (h : updatePriceInfosFromUpdateData keccak256 env w totalNumUpdates updateData
      = .ok updated) :
    countUpdates env totalNumUpdates updateData = .ok updated.2 := by
  induction updateData generalizing w totalNumUpdates with
  | nil =>
    cases h
    rfl
  | cons update updateData ih =>
    simp only [updatePriceInfosFromUpdateData, updatePriceInfosFromAccumulatorUpdate, bind_eq_ok,
      require_eq_ok, pure_eq_ok] at h
    obtain ⟨_, ⟨header, hheader, _, htype, body, hbody, _, -, _, -, rfl⟩, total, htotal, hrest⟩ := h
    obtain ⟨-, -, hoffset, -⟩ := header_bounds hheader
    simp only [countUpdates, bind_eq_ok, require_eq_ok]
    exact ⟨(), isAccumulatorUpdate_of_header hheader, header, hheader, (), htype, body.2.2.1,
      parseWormholeMerkleHeaderNumUpdates_eq hbody hoffset, total, htotal, ih hrest⟩

/-- Updates do not change the fee. -/
theorem singleUpdateFeeInWei_applyUpdates (w : World) (updates : List (Bytes32 × PriceInfo)) :
    (applyUpdates w updates).state.singleUpdateFeeInWei = w.state.singleUpdateFeeInWei := by
  induction updates generalizing w with
  | nil => rfl
  | cons update updates ih =>
    have hstep : (updateLatestPriceIfNecessary w update.1 update.2).state.singleUpdateFeeInWei
        = w.state.singleUpdateFeeInWei := by
      unfold updateLatestPriceIfNecessary
      dsimp only
      split <;> rfl
    exact (ih _).trans hstep

/-- The loop does not depend on the value that is sent. -/
theorem updatePriceInfosFromUpdateData_value (value : Uint256) (w : World)
    (totalNumUpdates : Uint256) (updateData : List CalldataBytes) :
    updatePriceInfosFromUpdateData keccak256 { env with value } w totalNumUpdates updateData
      = updatePriceInfosFromUpdateData keccak256 env w totalNumUpdates updateData := by
  induction updateData generalizing w totalNumUpdates with
  | nil => rfl
  | cons update updateData ih => simp only [updatePriceInfosFromUpdateData, ih]

end

/-- **The quoted fee.** Let the update loop of `updatePriceFeeds` succeed. Then the quote for the
update data is what the contract computes as the required fee from the number of messages that it
applied: this number times the fee of one, or an overflow for both. The update is accepted exactly
with a value from the quote on, and never where the quote overflows. -/
theorem quoted_fee_eq_required_fee (keccak256 : Bytes → Bytes32) (env : CallEnv)
    (updateData : List CalldataBytes) (w : World) (updated : World × Uint256)
    (hupdated : updatePriceInfosFromUpdateData keccak256 env w 0 updateData = .ok updated) :
    getUpdateFee env w.state updateData = getTotalFee updated.1.state updated.2 ∧
    (updated.2.toNat * w.state.singleUpdateFeeInWei.toNat < 2 ^ 256 →
      ∃ fee : Uint256, getUpdateFee env w.state updateData = .ok fee ∧
        fee.toNat = updated.2.toNat * w.state.singleUpdateFeeInWei.toNat) ∧
    ∀ value, (∃ w', updatePriceFeeds keccak256 { env with value } updateData w = .ok w') ↔
      ∃ fee, getUpdateFee env w.state updateData = .ok fee ∧ fee ≤ value := by
  obtain ⟨messages, -, happlied⟩ := updatePriceInfosFromUpdateData_ok hupdated
  have hfee : updated.1.state.singleUpdateFeeInWei = w.state.singleUpdateFeeInWei := by
    rw [happlied, singleUpdateFeeInWei_applyUpdates]
  have hquote : getUpdateFee env w.state updateData = getTotalFee updated.1.state updated.2 := by
    rw [getUpdateFee, countUpdates_eq hupdated, getTotalFee, hfee]
    rfl
  refine ⟨hquote, fun hfits => ?_, fun value => ?_⟩
  · rw [hquote, getTotalFee, hfee]
    refine ⟨BitVec.ofNat 256 (updated.2.toNat * w.state.singleUpdateFeeInWei.toNat), ?_, ?_⟩
    · rw [checkedMul_eq_ok, BitVec.toNat_ofNat, Nat.mod_eq_of_lt hfits]
    · rw [BitVec.toNat_ofNat, Nat.mod_eq_of_lt hfits]
  · rw [hquote]
    simp only [updatePriceFeeds, updatePriceInfosFromUpdateData_value, hupdated, bind_eq_ok,
      require_eq_ok, pure_eq_ok]
    constructor
    · rintro ⟨w', _, hok, fee, hrequired, _, hvalue, -⟩
      cases Except.ok.inj hok
      exact ⟨fee, hrequired, hvalue⟩
    · rintro ⟨fee, hrequired, hvalue⟩
      exact ⟨updated.1, updated, rfl, fee, hrequired, (), hvalue, rfl⟩

/-! ### The fee of one and of two messages -/

def exFeeEnv : CallEnv :=
  { machine := exMachine 4 0xff false, parseAndVerifyPythVM := exParseAndVerify, value := 0 }

/-- A contract with a fee. -/
def exFeeWorld (fee : Uint256) : World := { state := { singleUpdateFeeInWei := fee } }

theorem quoted_fee_eq_required_fee_example :
    ∃ fee : Uint256, getUpdateFee exFeeEnv (exFeeWorld 7).state [exUpdate 4] = .ok fee ∧
      fee.toNat = 7 := by
  have hsome : (updatePriceInfosFromUpdateData exKeccak exFeeEnv (exFeeWorld 7) 0
      [exUpdate 4]).toOption.map Prod.snd = some 1 := by
    decide +kernel
  obtain ⟨updated, hupdated, hone⟩ := Option.map_eq_some_iff.mp hsome
  have hquote := (quoted_fee_eq_required_fee exKeccak exFeeEnv [exUpdate 4] (exFeeWorld 7) updated
    (toOption_eq_some.mp hupdated)).2.1
  rw [hone] at hquote
  exact hquote (by decide)

/-- Two messages are applied at a fee of `9 * 10 ^ 76`, and the quote for them overflows. -/
theorem quoted_fee_overflows :
    (updatePriceInfosFromUpdateData exKeccak exFeeEnv
      (exFeeWorld (BitVec.ofNat 256 (9 * 10 ^ 76))) 0
        [exUpdate 4, exUpdate 4]).toOption.map Prod.snd = some 2 ∧
    getUpdateFee exFeeEnv (exFeeWorld (BitVec.ofNat 256 (9 * 10 ^ 76))).state
      [exUpdate 4, exUpdate 4] = .error (.panic 0x11) := by
  decide +kernel

end PythCrosschain.Pyth
