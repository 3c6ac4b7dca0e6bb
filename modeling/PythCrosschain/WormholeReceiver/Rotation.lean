import Mathlib.Logic.Relation
import PythCrosschain.WormholeReceiver.Governance
import PythCrosschain.WormholeReceiver.Quorum

/-!
# Rotation of the guardian set

A run of the receiver replaces its guardian set again and again. `Config` keeps, beside
the state, the replacements so far. The results are:

- `Step.inv`: what a step preserves (`Inv`);
- `Step.keys_eq`: a stored set keeps its keys;
- `guardian_set_rotation`: over every run from the setup, the current set has keys, the
  index counts the replacements, a replaced set is accepted for a day, and no governance
  VAA is accepted twice.
-/

namespace PythCrosschain.WormholeReceiver

open Relation (ReflTransGen)

/-- An accepted governance VAA, the index of the set that it replaced, and when. -/
structure Rotation where
  vaa : Bytes
  replaced : Uint32
  time : Nat
deriving DecidableEq, Repr

/-- The state at a block timestamp, and the replacements that led to it. -/
structure Config where
  state : WormholeState
  now : Nat
  rotations : List Rotation := []

section

variable (keccak256 : Bytes → Bytes32) (ecrecover : Bytes32 → Uint8 → Bytes32 → Bytes32 → Address)

/-- Time passes (calls that revert included), or a governance VAA is accepted. -/
inductive Step : Config → Config → Prop
  | pass {c : Config} {now : Nat} : c.now ≤ now → Step c { c with now }
  | submit {c : Config} {vaa : Bytes} {timestamp : Uint256} {state : WormholeState} :
      c.now ≤ timestamp.toNat → timestamp.toNat < 2 ^ 32 - 86400 →
      submitNewGuardianSet keccak256 ecrecover vaa timestamp c.state = .ok state →
      Step c
        { state
          now := timestamp.toNat
          rotations := c.rotations ++
            [{ vaa, replaced := c.state.guardianSetIndex, time := timestamp.toNat }] }

/-- The hash of the body of an accepted governance VAA. -/
def Rotation.hash (r : Rotation) : Bytes32 := (vmOf keccak256 r.vaa).hash

/-- Sets are stored up to the current index, the replaced ones with the time of their
replacement, and the governance actions of the replacements are consumed. -/
structure Inv (c : Config) : Prop where
  index : c.state.guardianSetIndex.toNat = c.rotations.length
  stored : ∀ i : Uint32, i.toNat ≤ c.state.guardianSetIndex.toNat →
    (c.state.guardianSets i).keys ≠ []
  unset : ∀ i : Uint32, c.state.guardianSetIndex.toNat < i.toNat →
    (c.state.guardianSets i).keys = []
  replaced : ∀ i : Uint32, i.toNat < c.state.guardianSetIndex.toNat →
    ∃ r ∈ c.rotations, r.replaced = i ∧
      (c.state.guardianSets i).expirationTime.toNat = r.time + 86400
  consumed : ∀ r ∈ c.rotations, c.state.consumedGovernanceActions (r.hash keccak256) = true
  fresh : (c.rotations.map (Rotation.hash keccak256)).Nodup

end

/-! ## The state after a replacement -/

section

variable {st : WormholeState} {hash : Bytes32} {expirationTime newIndex : Uint32}
  {keys : List Address}

theorem rotated_new :
    (st.rotated hash expirationTime keys newIndex).guardianSets newIndex
      = { keys, expirationTime := 0 } :=
  Function.update_self _ _ _

theorem rotated_current (different : st.guardianSetIndex ≠ newIndex) :
    (st.rotated hash expirationTime keys newIndex).guardianSets st.guardianSetIndex
      = { st.guardianSets st.guardianSetIndex with expirationTime } := by
  show Function.update _ _ _ _ = _
  rw [Function.update_of_ne different, Function.update_self]

theorem rotated_other {i : Uint32} (different : i ≠ newIndex) (old : i ≠ st.guardianSetIndex) :
    (st.rotated hash expirationTime keys newIndex).guardianSets i = st.guardianSets i := by
  show Function.update _ _ _ _ = _
  rw [Function.update_of_ne different, Function.update_of_ne old]

/-- A replacement keeps the keys of all sets but the new one. -/
theorem keys_rotated {i : Uint32} (different : i ≠ newIndex) :
    ((st.rotated hash expirationTime keys newIndex).guardianSets i).keys
      = (st.guardianSets i).keys := by
  by_cases old : i = st.guardianSetIndex
  · subst old
    rw [rotated_current different]
  · rw [rotated_other different old]

end

/-! ## One step -/

variable {keccak256 : Bytes → Bytes32} {ecrecover : Bytes32 → Uint8 → Bytes32 → Bytes32 → Address}
  {c c' : Config}

/-- The index of the new set is above all that are stored. -/
theorem ne_newIndex {i newIndex : Uint32}
    (next : newIndex.toNat = c.state.guardianSetIndex.toNat + 1)
    (old : i.toNat ≤ c.state.guardianSetIndex.toNat) : i ≠ newIndex := by
  rintro rfl
  omega

theorem Step.inv (step : Step keccak256 ecrecover c c') (inv : Inv keccak256 c) :
    Inv keccak256 c' := by
  cases step with
  | pass later => exact ⟨inv.index, inv.stored, inv.unset, inv.replaced, inv.consumed, inv.fresh⟩
  | @submit vaa timestamp state later early submitted =>
    obtain ⟨expirationTime, keys, newIndex, notConsumed, expires, nonempty, next, rfl⟩ :=
      submitNewGuardianSet_ok submitted
    have index : (c.state.rotated (vmOf keccak256 vaa).hash expirationTime keys
        newIndex).guardianSetIndex = newIndex := rfl
    constructor
    case index =>
      rw [index, next, inv.index, List.length_append, List.length_singleton]
    case stored =>
      intro i below
      rw [index, next] at below
      rcases Nat.le_succ_iff.mp below with old | new
      · rw [keys_rotated (ne_newIndex next old)]
        exact inv.stored i old
      · obtain rfl : i = newIndex := BitVec.eq_of_toNat_eq (new.trans next.symm)
        rw [rotated_new]
        exact nonempty
    case unset =>
      intro i above
      rw [index, next] at above
      have different : i ≠ newIndex := by
        rintro rfl
        omega
      rw [keys_rotated different]
      exact inv.unset i (by omega)
    case replaced =>
      intro i below
      rw [index, next] at below
      have old := Nat.le_of_lt_succ below
      rcases Nat.lt_or_eq_of_le old with earlier | current
      · obtain ⟨r, listed, names, time⟩ := inv.replaced i earlier
        refine ⟨r, List.mem_append_left _ listed, names, ?_⟩
        have notCurrent : i ≠ c.state.guardianSetIndex := by
          rintro rfl
          exact Nat.lt_irrefl _ earlier
        rw [rotated_other (ne_newIndex next old) notCurrent]
        exact time
      -- The current set expires a day after this block.
      · obtain rfl : i = c.state.guardianSetIndex := BitVec.eq_of_toNat_eq current
        refine ⟨_, List.mem_append_right _ (List.mem_singleton_self _), rfl, ?_⟩
        rw [rotated_current (ne_newIndex next le_rfl)]
        show expirationTime.toNat = timestamp.toNat + 86400
        rw [expires, Nat.mod_eq_of_lt (by omega)]
    case consumed =>
      intro r listed
      show Function.update _ _ _ _ = _
      by_cases same : r.hash keccak256 = (vmOf keccak256 vaa).hash
      · rw [same, Function.update_self]
      · rw [Function.update_of_ne same]
        rcases List.mem_append.mp listed with old | new
        · exact inv.consumed r old
        · rw [List.mem_singleton] at new
          subst new
          exact absurd rfl same
    case fresh =>
      rw [List.map_append, List.map_singleton, ← List.concat_eq_append, List.nodup_concat]
      refine ⟨fun listed => ?_, inv.fresh⟩
      obtain ⟨r, member, same⟩ := List.mem_map.mp listed
      have consumed := inv.consumed r member
      rw [same] at consumed
      exact absurd (consumed.symm.trans notConsumed) (by decide)

/-- A stored set keeps its keys. -/
theorem Step.keys_eq (step : Step keccak256 ecrecover c c') (inv : Inv keccak256 c) {i : Uint32}
    (stored : (c.state.guardianSets i).keys ≠ []) :
    (c'.state.guardianSets i).keys = (c.state.guardianSets i).keys := by
  cases step with
  | pass later => rfl
  | submit later early submitted =>
    obtain ⟨expirationTime, keys, newIndex, _, _, _, next, rfl⟩ := submitNewGuardianSet_ok submitted
    have old : i.toNat ≤ c.state.guardianSetIndex.toNat := by
      by_contra above
      exact stored (inv.unset i (Nat.lt_of_not_le above))
    exact keys_rotated (ne_newIndex next old)

/-! ## Runs -/

theorem inv_of_run (run : ReflTransGen (Step keccak256 ecrecover) c c') (inv : Inv keccak256 c) :
    Inv keccak256 c' := by
  induction run with
  | refl => exact inv
  | tail _ step ih => exact step.inv ih

theorem keys_eq_of_run (run : ReflTransGen (Step keccak256 ecrecover) c c') (inv : Inv keccak256 c)
    {i : Uint32} (stored : (c.state.guardianSets i).keys ≠ []) :
    (c'.state.guardianSets i).keys = (c.state.guardianSets i).keys := by
  induction run with
  | refl => rfl
  | tail before step ih =>
    rw [step.keys_eq (inv_of_run before inv) (ih ▸ stored), ih]

/-- The setup establishes the invariant. -/
theorem inv_of_setup {initialGuardians : List Address} {chainId governanceChainId : Uint16}
    {governanceContract : Bytes32} {st : WormholeState} {now : Nat}
    (start : setup initialGuardians chainId governanceChainId governanceContract {} = .ok st) :
    Inv keccak256 { state := st, now } := by
  obtain ⟨nonempty, rfl⟩ := setup_eq_ok.mp start
  constructor
  case index => rfl
  case stored =>
    intro i below
    obtain rfl : i = 0 := BitVec.eq_of_toNat_eq (Nat.le_zero.mp below)
    show (Function.update (fun _ : Uint32 => ({} : GuardianSet)) 0 _ _).keys ≠ []
    rw [Function.update_self]
    exact nonempty
  case unset =>
    intro i above
    have different : i ≠ 0 := by
      rintro rfl
      exact Nat.lt_irrefl _ above
    show (Function.update (fun _ : Uint32 => ({} : GuardianSet)) 0 _ _).keys = []
    rw [Function.update_of_ne different]
  case replaced => exact fun i below => absurd below (Nat.not_lt_zero _)
  case consumed => exact fun r listed => absurd listed List.not_mem_nil
  case fresh => exact List.nodup_nil

/-- A VAA is accepted only under the current set or within a day of the replacement of
the set that it names. -/
theorem accepted_set (inv : Inv keccak256 c) {timestamp : Uint256} {index : Uint32}
    {hash : Bytes32} {signatures : List Signature}
    (accepted : Accepted keccak256 ecrecover c.state.toState timestamp index hash signatures) :
    index = c.state.guardianSetIndex ∨
      ∃ r ∈ c.rotations, r.replaced = index ∧ timestamp.toNat ≤ r.time + 86400 := by
  obtain ⟨⟨_, nonempty, current⟩, _, _⟩ := accepted.checks
  by_cases named : index = c.state.guardianSetIndex
  · exact Or.inl named
  · right
    have below : index.toNat < c.state.guardianSetIndex.toNat := by
      have different : index.toNat ≠ c.state.guardianSetIndex.toNat :=
        fun same => named (BitVec.eq_of_toNat_eq same)
      have atMost : ¬c.state.guardianSetIndex.toNat < index.toNat :=
        fun above => nonempty (List.length_eq_zero_iff.mpr (inv.unset index above))
      omega
    obtain ⟨r, listed, names, time⟩ := inv.replaced index below
    refine ⟨r, listed, names, ?_⟩
    rw [← time]
    exact Nat.le_of_not_lt fun expired => current ⟨named, expired⟩

/-- **Rotation.** In every run from the setup: the current set has keys, the index is the
number of accepted replacements and a replacement increases it by one, the keys of a
stored set never change, a VAA is accepted only under the current set or a set that was
replaced at most a day ago, and no governance VAA is accepted twice. -/
theorem guardian_set_rotation {initialGuardians : List Address} {chainId governanceChainId : Uint16}
    {governanceContract : Bytes32} {st : WormholeState} {now : Nat}
    (start : setup initialGuardians chainId governanceChainId governanceContract {} = .ok st)
    (run : ReflTransGen (Step keccak256 ecrecover) { state := st, now } c) :
    (c.state.guardianSets c.state.guardianSetIndex).keys ≠ [] ∧
      c.state.guardianSetIndex.toNat = c.rotations.length ∧
      (∀ (vaa : Bytes) (timestamp : Uint256) (st' : WormholeState),
        submitNewGuardianSet keccak256 ecrecover vaa timestamp c.state = .ok st' →
        st'.guardianSetIndex.toNat = c.state.guardianSetIndex.toNat + 1) ∧
      (∀ (c' : Config), ReflTransGen (Step keccak256 ecrecover) c c' →
        ∀ i, (c.state.guardianSets i).keys ≠ [] →
          (c'.state.guardianSets i).keys = (c.state.guardianSets i).keys) ∧
      (∀ (timestamp : Uint256) (index : Uint32) (hash : Bytes32) (signatures : List Signature),
        Accepted keccak256 ecrecover c.state.toState timestamp index hash signatures →
        index = c.state.guardianSetIndex ∨
          ∃ r ∈ c.rotations, r.replaced = index ∧ timestamp.toNat ≤ r.time + 86400) ∧
      (c.rotations.map (Rotation.hash keccak256)).Nodup := by
  have inv := inv_of_run run (inv_of_setup start)
  refine ⟨inv.stored _ le_rfl, inv.index, fun vaa timestamp st' submitted => ?_,
    fun c' later i stored => keys_eq_of_run later inv stored,
    fun timestamp index hash signatures => accepted_set inv, inv.fresh⟩
  obtain ⟨_, _, _, _, _, _, next, rfl⟩ := submitNewGuardianSet_ok submitted
  exact next

/-! ### A run with two replacements -/

/-- The body of an upgrade to a guardian set, for the chain with an id, or for all chains. -/
def exUpgradeBody (sequence chain newIndex : ℕ) (guardians : List ExGuardian) : Bytes :=
  bytesBE 4 1700000000 ++ bytesBE 4 7 ++ bytesBE 2 1 ++ bytesBE 32 4 ++ bytesBE 8 sequence ++ [0x20]
    ++ (bytesBE 32 0x436f7265 ++ [2] ++ bytesBE 2 chain ++ bytesBE 4 newIndex
      ++ bytesBE 1 guardians.length
      ++ guardians.flatMap fun guardian => bytesBE 20 guardian.address.toNat)

/-- To set 1, for all chains. -/
def exFirstUpgrade : ExVaa where
  guardianSetIndex := 0
  body := exUpgradeBody 3 0 1 [exGuardian1, exGuardian2, exGuardian3, exGuardian4]
  digest := 0xdd822211160ca8c49d9c5bb163a84af1e0305c7cc6db923395c395ba17fa6eb8
  hash := 0xfa27f27f9eea612176650d5ae13cf2fc8bc44d7ba47c6642171bc2730665a9ba
  signatures := [
    ⟨0, exGuardian0, 0xf3b78c13da1de877678ff4feacd74ee9972c30673df1e13c44bbb3b75e494972,
      0x29f1825819ab8d17e82063412d6fc41f6b3c9c8b59b3347af5785f1adecb137e, 0⟩,
    ⟨1, exGuardian1, 0xd159a33fa8b6deebe40399375f7efe53741691013deeb966c39be44c3f25bbd1,
      0x59870f9a1d0a2ee1f2a10e75cdabf654210d6744a8dc44152decb301bff04be1, 1⟩,
    ⟨2, exGuardian2, 0x3d1198a49b7299ae91386af39b1482200c46997acc0f378470b8e2ede70c1938,
      0x0c3606c34d54bd14d55f352ea99b1259fae40edc667a995b23b85f7b46ed363c, 1⟩]

/-- To set 2, for chain 6. -/
def exSecondUpgrade : ExVaa where
  guardianSetIndex := 1
  body := exUpgradeBody 4 6 2 [exGuardian2, exGuardian3, exGuardian4, exGuardian5]
  digest := 0x39f6b14a806e2ecb2cb0e868084e84308ce7ae892d4ac579cb8d7cdb844a5083
  hash := 0x2136ff0568d233f9e4508e2afca5615c8bca2e5e36b175024ae67e39586e83e0
  signatures := [
    ⟨0, exGuardian1, 0xafb800d323fdb4ccd5165588502e816b1491eb81ec80bcf6865977f12a9270a4,
      0x6ee87b461cefd8868979963b2307fe881d2129d7559879fd4df381e68c9f874c, 1⟩,
    ⟨1, exGuardian2, 0x5b22df604becebb2de9340b7cae4e51490c9fd0030f5688f5c1f314acc079ef8,
      0x666039c1e0cececc39ddbd8df4287f1bd7d2ba4b74b056f4a67b1d075179f345, 0⟩,
    ⟨3, exGuardian4, 0x8f5f4e7e077121322c39e59ff178f6043419eb0f86aee653959143dd6ddd4b30,
      0x53637188f2bf622d4dd2b3ff82745b424b98a198df7a7d10ebb9f95e0b7891f1, 0⟩]

def exUpgrades : List ExVaa := [exFirstUpgrade, exSecondUpgrade]

/-- The guardians of set 0. -/
def exInitialGuardians : List Address :=
  [exGuardian0, exGuardian1, exGuardian2, exGuardian3].map ExGuardian.address

/-- After two replacements the index is 2, both governance VAAs are different, and set 0 still has
its guardians. -/
theorem guardian_set_rotation_run :
    ∃ st c, setup exInitialGuardians 2 1 4 {} = .ok st ∧
      ReflTransGen (Step (ExVaa.hashOf exUpgrades) (ExVaa.recover exUpgrades))
        { state := st, now := 0 } c ∧
      c.state.guardianSetIndex.toNat = 2 ∧
      (c.rotations.map (Rotation.hash (ExVaa.hashOf exUpgrades))).Nodup ∧
      (c.state.guardianSets 0).keys = exInitialGuardians := by
  have submits : ((setup exInitialGuardians 2 1 4 {}).toOption.bind fun st =>
      (submitNewGuardianSet (ExVaa.hashOf exUpgrades) (ExVaa.recover exUpgrades)
        exFirstUpgrade.bytes 1000 st).toOption.bind fun st' =>
          (submitNewGuardianSet (ExVaa.hashOf exUpgrades) (ExVaa.recover exUpgrades)
            exSecondUpgrade.bytes 2000 st').toOption).isSome := by
    decide +kernel
  obtain ⟨st'', found⟩ := Option.isSome_iff_exists.mp submits
  obtain ⟨st, start, found⟩ := Option.bind_eq_some_iff.mp found
  obtain ⟨st', first, second⟩ := Option.bind_eq_some_iff.mp found
  have later : (1000 : Uint256).toNat ≤ (2000 : Uint256).toNat := by decide
  have stay : ReflTransGen (Step (ExVaa.hashOf exUpgrades) (ExVaa.recover exUpgrades))
      { state := st, now := 0 } { state := st, now := 0 } := .refl
  have run := (stay.tail (.submit (Nat.zero_le _) (by decide) (toOption_eq_some.mp first))).tail
    (.submit later (by decide) (toOption_eq_some.mp second))
  have initial := guardian_set_rotation (toOption_eq_some.mp start) stay
  have stored : (st.guardianSets 0).keys = exInitialGuardians := by
    obtain ⟨_, rfl⟩ := setup_eq_ok.mp (toOption_eq_some.mp start)
    rfl
  have rotated := guardian_set_rotation (toOption_eq_some.mp start) run
  refine ⟨st, _, toOption_eq_some.mp start, run, rotated.2.1, rotated.2.2.2.2.2, ?_⟩
  rw [initial.2.2.2.1 _ run 0 (stored ▸ List.cons_ne_nil _ _), stored]

end PythCrosschain.WormholeReceiver
