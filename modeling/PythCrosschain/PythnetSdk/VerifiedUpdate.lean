import Mathlib.Data.List.Forall2
import PythCrosschain.PythnetSdk.Grammar

/-!
# Verified accumulator updates

What an accumulator update says, whoever reads it: its VAA carries the root of a Merkle
tree, and each of its updates proves one message of a price feed in that tree. `Verifies`
is what every target chain has to find before it takes the messages.

The parsers of the SDK are restated for it: `tryFromSlice_eq_ok` and `tryFromBytes_eq_ok`
say what they accept.
-/

namespace PythCrosschain.PythnetSdk

def Proof.vaa : Proof → Bytes
  | .wormholeMerkle vaa _ => vaa

def Proof.updates : Proof → List MerklePriceUpdate
  | .wormholeMerkle _ updates => updates

def WormholePayload.root : WormholePayload → HashArray 20
  | .merkle root => root.root

/-- The payload of a VAA carries the root. -/
def CarriesRoot (payload : Bytes) (root : HashArray 20) : Prop :=
  ∃ msg, WormholeMessage.tryFromBytes payload = .ok msg ∧ msg.payload.root = root

/-- The update proves the message, which is one of a price feed. -/
structure MerklePriceUpdate.Proves (H : Hasher 20) (root : HashArray 20)
    (update : MerklePriceUpdate) (msg : PriceFeedMessage) : Prop where
  proof : MerkleTree.check H root update.proof update.message = true
  message : ∃ rest,
    Message.schema.fromSlice .BE update.message = .ok (.priceFeedMessage msg, rest)

/-- The updates prove the messages, one by one, in the tree whose root the payload of the
VAA carries. -/
structure AccumulatorUpdateData.Verifies (H : Hasher 20) (payload : Bytes)
    (data : AccumulatorUpdateData) (msgs : List PriceFeedMessage) : Prop where
  magic : data.magic = PYTHNET_ACCUMULATOR_UPDATE_MAGIC
  majorVersion : data.majorVersion = 1
  messages : ∃ root, CarriesRoot payload root ∧
    List.Forall₂ (MerklePriceUpdate.Proves H root) data.proof.updates msgs

/-! ## What the parsers accept -/

theorem AccumulatorUpdateData.tryFromSlice_eq_ok {bytes : Bytes} {data : AccumulatorUpdateData} :
    tryFromSlice bytes = .ok data ↔
      (∃ rest, Grammar.accumulatorUpdateData bytes = some (data, rest)) ∧
        data.magic = PYTHNET_ACCUMULATOR_UPDATE_MAGIC ∧ data.majorVersion = 1 := by
  unfold tryFromSlice
  have hreads := accumulatorUpdateData_reads bytes
  cases hslice : schema.fromSlice .BE bytes with
  | error e =>
    refine iff_of_false nofun ?_
    rintro ⟨⟨rest, hrest⟩, -⟩
    cases hslice.symm.trans ((hreads (data, rest)).mpr hrest)
  | ok r =>
    obtain ⟨message, rest⟩ := r
    have hparse := (hreads (message, rest)).mp hslice
    have hminor : ¬ message.minorVersion < CURRENT_MINOR_VERSION :=
      UInt8.not_lt.mpr (UInt8.zero_le ..)
    simp only [hparse, Option.some.injEq, Prod.mk.injEq, if_neg hminor]
    constructor
    · intro h
      split at h
      · cases h
      · next hmagic =>
        split at h
        · cases h
        · next hmajor =>
          cases h
          exact ⟨⟨rest, rfl, rfl⟩, not_not.mp hmagic, not_not.mp hmajor⟩
    · rintro ⟨⟨_, rfl, -⟩, hmagic, hmajor⟩
      rw [if_neg (not_not.mpr hmagic), if_neg (not_not.mpr hmajor)]

theorem WormholeMessage.tryFromBytes_eq_ok {bytes : Bytes} {message : WormholeMessage} :
    tryFromBytes bytes = .ok message ↔
      (∃ rest, Grammar.wormholeMessage bytes = some (message, rest)) ∧
        message.magic = ACCUMULATOR_UPDATE_WORMHOLE_VERIFICATION_MAGIC := by
  unfold tryFromBytes
  have hreads := wormholeMessage_reads bytes
  cases hslice : schema.fromSlice .BE bytes with
  | error e =>
    refine iff_of_false nofun ?_
    rintro ⟨⟨rest, hrest⟩, -⟩
    cases hslice.symm.trans ((hreads (message, rest)).mpr hrest)
  | ok r =>
    obtain ⟨message', rest⟩ := r
    have hparse := (hreads (message', rest)).mp hslice
    simp only [hparse, Option.some.injEq, Prod.mk.injEq]
    constructor
    · intro h
      split at h
      · cases h
      · next hmagic =>
        cases h
        exact ⟨⟨rest, rfl, rfl⟩, not_not.mp hmagic⟩
    · rintro ⟨⟨_, rfl, -⟩, hmagic⟩
      rw [if_neg (not_not.mpr hmagic)]

/-- The number of updates fits in the byte that it is read from. -/
theorem length_updates_lt {bytes rest : Bytes} {data : AccumulatorUpdateData}
    (h : Grammar.accumulatorUpdateData bytes = some (data, rest)) :
    data.proof.updates.length < 256 := by
  simp only [Grammar.accumulatorUpdateData, Grammar.proof, Grammar.seq,
    Parser.bind_run_eq_some] at h
  obtain ⟨_, _, _, _, _, _, _, _, _, _, _, _, _, _, hproof, hdata⟩ := h
  obtain ⟨_, _, _, _, _, _, updates, _, ⟨len, _, _, hupdates⟩, hpure⟩ := hproof
  cases hpure
  cases hdata
  rw [Proof.updates, Parser.length_elements hupdates]
  exact len.toNat_lt

end PythCrosschain.PythnetSdk
