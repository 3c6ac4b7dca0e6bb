import PythCrosschain.CosmWasm.Governance
import PythCrosschain.Lib.ExactCodec

/-!
# The CosmWasm contract: the governance codec

`serialize` of `governance.rs`, which is written by hand next to `deserialize`. The results are:

- `serialize_eq`: an instruction is a header and the fields of its action;
- `action_run`: the fields of an action are what is read for its type;
- `governance_codec`: the two are inverse to one another, and what `serialize` rejects.
-/

namespace PythCrosschain.CosmWasm

/-! ## Serialization -/

/-- Why an instruction has no encoding. -/
inductive SerializeError where
  | tryFromIntError
  | emitterLength
deriving DecidableEq, Repr

def GovernanceModule.toU8 : GovernanceModule → UInt8
  | .executor => 0
  | .target => 1

/-- `u8::try_from(len)`. -/
def u8TryFrom (len : ℕ) : Except SerializeError UInt8 :=
  if len < 2 ^ 8 then .ok (UInt8.ofNat len) else .error .tryFromIntError

/-- One round of the loop over the data sources. -/
def writeDataSource (dataSource : PythDataSource) : Except SerializeError Bytes :=
  if dataSource.emitter.length ≠ 32 then .error .emitterLength
  else .ok (bytesBE 2 dataSource.chainId.toNat ++ dataSource.emitter)

def GovernanceInstruction.serialize (i : GovernanceInstruction) : Except SerializeError Bytes :=
  let buf := PYTH_GOVERNANCE_MAGIC ++ [i.module.toU8]
  let targetChainId := bytesBE 2 i.targetChainId.toNat
  match i.action with
  | .upgradeContract codeId => return buf ++ [0] ++ targetChainId ++ bytesBE 8 codeId.toNat
  | .authorizeGovernanceDataSourceTransfer claimVaa =>
    return buf ++ [1] ++ targetChainId ++ claimVaa
  | .setDataSources dataSources => do
    let numDataSources ← u8TryFrom dataSources.length
    let dataSources ← encodeElements writeDataSource dataSources
    return buf ++ [2] ++ targetChainId ++ [numDataSources] ++ dataSources
  | .setFee val expo =>
    return buf ++ [3] ++ targetChainId ++ bytesBE 8 val.toNat ++ bytesBE 8 expo.toNat
  | .setValidPeriod newValidPeriod =>
    return buf ++ [4] ++ targetChainId ++ bytesBE 8 newValidPeriod.toNat
  | .requestGovernanceDataSourceTransfer governanceDataSourceIndex =>
    return buf ++ [5] ++ targetChainId ++ bytesBE 4 governanceDataSourceIndex.toNat

/-- The byte that stands for the action. -/
def GovernanceAction.actionType : GovernanceAction → UInt8
  | .upgradeContract _ => 0
  | .authorizeGovernanceDataSourceTransfer _ => 1
  | .setDataSources _ => 2
  | .setFee _ _ => 3
  | .setValidPeriod _ => 4
  | .requestGovernanceDataSourceTransfer _ => 5

/-- What is written behind the header. -/
def GovernanceAction.fields : GovernanceAction → Except SerializeError Bytes
  | .upgradeContract codeId => .ok (bytesBE 8 codeId.toNat)
  | .authorizeGovernanceDataSourceTransfer claimVaa => .ok claimVaa
  | .setDataSources dataSources => do
    let numDataSources ← u8TryFrom dataSources.length
    let dataSources ← encodeElements writeDataSource dataSources
    return numDataSources :: dataSources
  | .setFee val expo => .ok (bytesBE 8 val.toNat ++ bytesBE 8 expo.toNat)
  | .setValidPeriod validSeconds => .ok (bytesBE 8 validSeconds.toNat)
  | .requestGovernanceDataSourceTransfer index => .ok (bytesBE 4 index.toNat)

/-- The header and the fields. -/
def GovernanceInstruction.withFields (i : GovernanceInstruction) (fields : Bytes) : Bytes :=
  PYTH_GOVERNANCE_MAGIC ++
    (i.module.toU8 :: i.action.actionType :: (bytesBE 2 i.targetChainId.toNat ++ fields))

theorem serialize_eq (i : GovernanceInstruction) :
    i.serialize = i.withFields <$> i.action.fields := by
  obtain ⟨module, action, targetChainId⟩ := i
  cases action with
  | setDataSources dataSources =>
    show (u8TryFrom _ >>= _) = Except.map _ (u8TryFrom _ >>= _)
    cases u8TryFrom dataSources.length with
    | error e => rfl
    | ok numDataSources =>
      show (encodeElements _ _ >>= _) = Except.map _ (encodeElements _ _ >>= _)
      cases encodeElements writeDataSource dataSources with
      | error e => rfl
      | ok bytes =>
        refine congrArg Except.ok ?_
        simp [GovernanceInstruction.withFields, GovernanceAction.actionType]
  | upgradeContract codeId =>
    refine congrArg Except.ok ?_
    simp [GovernanceInstruction.withFields, GovernanceAction.actionType]
  | authorizeGovernanceDataSourceTransfer claimVaa =>
    refine congrArg Except.ok ?_
    simp [GovernanceInstruction.withFields, GovernanceAction.actionType]
  | setFee val expo =>
    refine congrArg Except.ok ?_
    simp [GovernanceInstruction.withFields, GovernanceAction.actionType]
  | setValidPeriod validSeconds =>
    refine congrArg Except.ok ?_
    simp [GovernanceInstruction.withFields, GovernanceAction.actionType]
  | requestGovernanceDataSourceTransfer index =>
    refine congrArg Except.ok ?_
    simp [GovernanceInstruction.withFields, GovernanceAction.actionType]

theorem serialize_eq_ok {i : GovernanceInstruction} {bytes : Bytes} :
    i.serialize = .ok bytes ↔
      ∃ fields, i.action.fields = .ok fields ∧ bytes = i.withFields fields := by
  rw [serialize_eq, map_eq_pure_bind, except_bind_eq_ok]
  refine exists_congr fun fields => and_congr_right fun _ => ?_
  exact ⟨fun h => (Except.ok.inj h).symm, fun h => h ▸ rfl⟩

/-! ## What is read -/

namespace PayloadReader

theorem uint_run {k : ℕ} {bs rest : Bytes} {v : BitVec (8 * k)} :
    uint k bs = .ok (v, rest) ↔ bs = bytesBE k v.toNat ++ rest := by
  refine (exact_uint (ε := SerializeError) _ k bs v rest).trans ⟨?_, fun h => ⟨_, rfl, h⟩⟩
  rintro ⟨_, ⟨⟩, rfl⟩
  rfl

theorem u8_run {bs rest : Bytes} {b : UInt8} : u8 bs = .ok (b, rest) ↔ bs = b :: rest := by
  rw [u8, Decoder.reads_byte, Parser.byte_run]

theorem magic_run {bs rest : Bytes} {u : Unit} :
    magic bs = .ok (u, rest) ↔ bs = PYTH_GOVERNANCE_MAGIC ++ rest := by
  simp only [magic, Decoder.bind_run_eq_ok, Decoder.reads_take _ _ _ _, Parser.take_run]
  constructor
  · rintro ⟨magicVec, mid, ⟨-, rfl⟩, h⟩
    split at h
    · next hmagic =>
      cases h
      rw [hmagic]
    · cases h
  · rintro rfl
    exact ⟨PYTH_GOVERNANCE_MAGIC, rest, ⟨rfl, rfl⟩, rfl⟩

theorem exact_dataSource : Exact writeDataSource dataSource := by
  rintro bs ⟨emitter, chainId⟩ rest
  simp only [dataSource, Decoder.bind_run_eq_ok, uint_run, Decoder.reads_take _ _ _ _,
    Parser.take_run, writeDataSource]
  constructor
  · rintro ⟨chainId, mid, rfl, emitter, rest, ⟨hlength, rfl⟩, ⟨⟩⟩
    exact ⟨_, if_neg (not_not.mpr hlength), (List.append_assoc ..).symm⟩
  · rintro ⟨bytes, hbytes, rfl⟩
    split at hbytes
    · cases hbytes
    · next hlength =>
      cases hbytes
      exact ⟨chainId, emitter ++ rest, List.append_assoc .., emitter, rest,
        ⟨not_not.mp hlength, rfl⟩, rfl⟩

theorem u8TryFrom_eq_ok {len : ℕ} {b : UInt8} : u8TryFrom len = .ok b ↔ len = b.toNat := by
  unfold u8TryFrom
  constructor
  · intro h
    split at h
    · next hlen =>
      cases h
      exact (UInt8.toNat_ofNat_of_lt' hlen).symm
    · cases h
  · rintro rfl
    rw [if_pos b.toNat_lt, UInt8.ofNat_toNat]

theorem dataSources_run {bs rest : Bytes} {dataSources : List PythDataSource} :
    (do
      let numDataSources ← u8
      Decoder.elements dataSource numDataSources.toNat) bs = .ok (dataSources, rest) ↔
      ∃ fields, (GovernanceAction.setDataSources dataSources).fields = .ok fields ∧
        bs = fields ++ rest := by
  simp only [Decoder.bind_run_eq_ok, u8_run, exact_dataSource.elements, GovernanceAction.fields,
    except_bind_eq_ok, u8TryFrom_eq_ok]
  constructor
  · rintro ⟨numDataSources, mid, rfl, hlength, bytes, hbytes, rfl⟩
    exact ⟨_, ⟨numDataSources, hlength, bytes, hbytes, rfl⟩, rfl⟩
  · rintro ⟨fields, ⟨numDataSources, hlength, bytes, hbytes, ⟨⟩⟩, rfl⟩
    exact ⟨numDataSources, bytes ++ rest, rfl, hlength, bytes, hbytes, rfl⟩

theorem toEnd_run {bs rest payload : Bytes} :
    toEnd bs = .ok (payload, rest) ↔ payload = bs ∧ rest = [] := by
  simp only [toEnd, Except.ok.injEq, Prod.mk.injEq, eq_comm]

/-- What is read to the end for a type are the fields of an action of that type. -/
theorem fields_of_action {actionType : UInt8} {bs : Bytes} {a : GovernanceAction}
    (h : action actionType bs = .ok (.ok a, [])) :
    actionType = a.actionType ∧ a.fields = .ok bs := by
  unfold action at h
  split at h
  · obtain ⟨codeId, mid, hcodeId, ⟨⟩⟩ := Decoder.bind_run_eq_ok.mp h
    obtain rfl := uint_run.mp hcodeId
    exact ⟨rfl, congrArg Except.ok (List.append_nil _).symm⟩
  · obtain ⟨claimVaa, mid, hclaimVaa, ⟨⟩⟩ := Decoder.bind_run_eq_ok.mp h
    obtain ⟨rfl, -⟩ := toEnd_run.mp hclaimVaa
    exact ⟨rfl, rfl⟩
  · obtain ⟨numDataSources, mid, hnum, h⟩ := Decoder.bind_run_eq_ok.mp h
    obtain ⟨dataSources, mid', hsources, ⟨⟩⟩ := Decoder.bind_run_eq_ok.mp h
    obtain ⟨fields, hfields, rfl⟩ := dataSources_run.mp
      (Decoder.bind_run_eq_ok.mpr ⟨numDataSources, mid, hnum, hsources⟩)
    rw [List.append_nil]
    exact ⟨rfl, hfields⟩
  · obtain ⟨val, mid, hval, h⟩ := Decoder.bind_run_eq_ok.mp h
    obtain ⟨expo, mid', hexpo, ⟨⟩⟩ := Decoder.bind_run_eq_ok.mp h
    obtain rfl := uint_run.mp hval
    obtain rfl := uint_run.mp hexpo
    rw [List.append_nil]
    exact ⟨rfl, rfl⟩
  · obtain ⟨validSeconds, mid, hseconds, ⟨⟩⟩ := Decoder.bind_run_eq_ok.mp h
    obtain rfl := uint_run.mp hseconds
    exact ⟨rfl, congrArg Except.ok (List.append_nil _).symm⟩
  · obtain ⟨index, mid, hindex, ⟨⟩⟩ := Decoder.bind_run_eq_ok.mp h
    obtain rfl := uint_run.mp hindex
    exact ⟨rfl, congrArg Except.ok (List.append_nil _).symm⟩
  · -- the error of an unknown type is pending, so there is no action
    cases h

/-- Fields are followed by anything, unless they are a VAA. -/
theorem action_append {fields rest : Bytes} {a : GovernanceAction} (h : a.fields = .ok fields)
    (hvaa : ∀ claimVaa, a ≠ .authorizeGovernanceDataSourceTransfer claimVaa) :
    action a.actionType (fields ++ rest) = .ok (.ok a, rest) := by
  cases a with
  | upgradeContract codeId =>
    cases h
    exact Decoder.bind_run_eq_ok.mpr ⟨codeId, rest, uint_run.mpr rfl, rfl⟩
  | authorizeGovernanceDataSourceTransfer claimVaa => exact absurd rfl (hvaa claimVaa)
  | setDataSources dataSources =>
    obtain ⟨numDataSources, mid, hnum, hsources⟩ := Decoder.bind_run_eq_ok.mp
      (dataSources_run.mpr ⟨fields, h, rfl⟩)
    exact Decoder.bind_run_eq_ok.mpr ⟨numDataSources, mid, hnum,
      Decoder.bind_run_eq_ok.mpr ⟨dataSources, rest, hsources, rfl⟩⟩
  | setFee val expo =>
    cases h
    have hval : uint 8 (bytesBE 8 val.toNat ++ bytesBE 8 expo.toNat ++ rest)
        = .ok (val, bytesBE 8 expo.toNat ++ rest) := uint_run.mpr (List.append_assoc ..)
    exact Decoder.bind_run_eq_ok.mpr ⟨val, _, hval,
      Decoder.bind_run_eq_ok.mpr ⟨expo, rest, uint_run.mpr rfl, rfl⟩⟩
  | setValidPeriod validSeconds =>
    cases h
    exact Decoder.bind_run_eq_ok.mpr ⟨validSeconds, rest, uint_run.mpr rfl, rfl⟩
  | requestGovernanceDataSourceTransfer index =>
    cases h
    exact Decoder.bind_run_eq_ok.mpr ⟨index, rest, uint_run.mpr rfl, rfl⟩

theorem action_of_fields {fields : Bytes} {a : GovernanceAction} (h : a.fields = .ok fields) :
    action a.actionType fields = .ok (.ok a, []) := by
  by_cases hvaa : ∃ claimVaa, a = .authorizeGovernanceDataSourceTransfer claimVaa
  · obtain ⟨claimVaa, rfl⟩ := hvaa
    cases h
    rfl
  · have hread : action a.actionType (fields ++ []) = .ok (.ok a, []) :=
      action_append h (not_exists.mp hvaa)
    rwa [List.append_nil] at hread

theorem fromU8_eq_ok {x : UInt8} {module : GovernanceModule} :
    GovernanceModule.fromU8 x = .ok module ↔ x = module.toU8 := by
  unfold GovernanceModule.fromU8
  constructor
  · intro h
    split at h
    · cases h
      rfl
    · cases h
      rfl
    · cases h
  · rintro rfl
    cases module <;> rfl

theorem atEnd_run {bs rest : Bytes} {u : Unit} :
    atEnd bs = .ok (u, rest) ↔ bs = [] ∧ rest = [] := by
  unfold atEnd
  constructor
  · intro h
    split at h
    · next hbs =>
      cases h
      exact ⟨hbs, rfl⟩
    · cases h
  · rintro ⟨rfl, rfl⟩
    rfl

theorem instruction_run {bs rest : Bytes} {i : GovernanceInstruction} :
    instruction bs = .ok (i, rest) ↔
      rest = [] ∧ ∃ fields, i.action.fields = .ok fields ∧ bs = i.withFields fields := by
  simp only [instruction, Decoder.bind_run_eq_ok, magic_run, u8_run, uint_run,
    Decoder.lift_run_eq_ok, fromU8_eq_ok, atEnd_run]
  constructor
  · rintro ⟨_, _, rfl, _, _, rfl, module, _, ⟨rfl, rfl⟩, actionType, _, rfl, targetChainId, _,
      rfl, read, _, haction, _, _, ⟨rfl, rfl⟩, action, _, ⟨rfl, rfl⟩, ⟨⟩⟩
    obtain ⟨rfl, hfields⟩ := fields_of_action haction
    exact ⟨rfl, _, hfields, rfl⟩
  · rintro ⟨rfl, fields, hfields, rfl⟩
    exact ⟨(), _, rfl, _, _, rfl, _, _, ⟨rfl, rfl⟩, _, _, rfl, _, _, rfl, _, _,
      action_of_fields hfields, (), _, ⟨rfl, rfl⟩, _, _, ⟨rfl, rfl⟩, rfl⟩

end PayloadReader

/-! ## The codec -/

/-- The two halves of the codec are inverse to one another. -/
theorem inverse_deserialize :
    Inverse GovernanceInstruction.serialize GovernanceInstruction.deserialize := by
  intro bs i
  rw [serialize_eq_ok]
  unfold GovernanceInstruction.deserialize
  rw [map_eq_pure_bind, except_bind_eq_ok]
  constructor
  · rintro ⟨⟨i', rest⟩, hread, ⟨⟩⟩
    exact (PayloadReader.instruction_run.mp hread).2
  · intro h
    exact ⟨(i, []), PayloadReader.instruction_run.mpr ⟨rfl, h⟩, rfl⟩

theorem withFields_append (i : GovernanceInstruction) (fields more : Bytes) :
    i.withFields fields ++ more = i.withFields (fields ++ more) := by
  simp [GovernanceInstruction.withFields]

theorem withFields_inj {i j : GovernanceInstruction} {fields fields' : Bytes}
    (h : i.withFields fields = j.withFields fields') :
    i.action.actionType = j.action.actionType ∧ fields = fields' := by
  have hbehind := List.append_cancel_left h
  obtain ⟨-, hrest⟩ := List.cons.inj hbehind
  obtain ⟨htype, hrest⟩ := List.cons.inj hrest
  exact ⟨htype, (List.append_inj hrest (by simp)).2⟩

/-- Unless it ends with a VAA, an encoding with extra bytes is rejected. -/
theorem deserialize_longer {i : GovernanceInstruction} {bytes more : Bytes}
    (h : i.serialize = .ok bytes) (hmore : more ≠ [])
    (hvaa : ∀ claimVaa, i.action ≠ .authorizeGovernanceDataSourceTransfer claimVaa) :
    ∃ e, GovernanceInstruction.deserialize (bytes ++ more) = .error e := by
  obtain ⟨fields, hfields, rfl⟩ := serialize_eq_ok.mp h
  refine inverse_deserialize.rejects fun j hj => ?_
  obtain ⟨fields', hfields', hlonger⟩ := serialize_eq_ok.mp hj
  rw [withFields_append] at hlonger
  obtain ⟨htype, rfl⟩ := withFields_inj hlonger
  have hread := PayloadReader.action_of_fields hfields'
  rw [← htype, PayloadReader.action_append hfields hvaa] at hread
  exact hmore (Prod.mk.inj (Except.ok.inj hread)).2

/-- The data sources that an action sets. -/
def GovernanceAction.dataSources : GovernanceAction → List PythDataSource
  | .setDataSources dataSources => dataSources
  | _ => []

theorem exists_fields_iff {a : GovernanceAction}
    (hemitters : ∀ dataSource ∈ a.dataSources, dataSource.emitter.length = 32) :
    (∃ fields, a.fields = .ok fields) ↔ a.dataSources.length < 2 ^ 8 := by
  cases a with
  | setDataSources dataSources =>
    simp only [GovernanceAction.fields, except_bind_eq_ok]
    constructor
    · rintro ⟨_, numDataSources, hnum, -⟩
      exact lt_of_eq_of_lt (PayloadReader.u8TryFrom_eq_ok.mp hnum) numDataSources.toNat_lt
    · intro hlength
      have hwritten : ∀ s ∈ dataSources, ∃ bytes, writeDataSource s = .ok bytes :=
        fun s hs => ⟨_, if_neg (not_not.mpr (hemitters s hs))⟩
      obtain ⟨bytes, hbytes⟩ := exists_encodeElements hwritten
      exact ⟨_, _, if_pos hlength, bytes, hbytes, rfl⟩
  | upgradeContract _ => exact iff_of_true ⟨_, rfl⟩ (Nat.two_pow_pos 8)
  | authorizeGovernanceDataSourceTransfer _ => exact iff_of_true ⟨_, rfl⟩ (Nat.two_pow_pos 8)
  | setFee _ _ => exact iff_of_true ⟨_, rfl⟩ (Nat.two_pow_pos 8)
  | setValidPeriod _ => exact iff_of_true ⟨_, rfl⟩ (Nat.two_pow_pos 8)
  | requestGovernanceDataSourceTransfer _ => exact iff_of_true ⟨_, rfl⟩ (Nat.two_pow_pos 8)

/-- With emitters of 32 bytes only the number of the data sources can be too large. -/
theorem serialize_fails_iff {i : GovernanceInstruction}
    (hemitters : ∀ dataSource ∈ i.action.dataSources, dataSource.emitter.length = 32) :
    (∃ e, i.serialize = .error e) ↔ 255 < i.action.dataSources.length := by
  have hfields : (∃ bytes, i.serialize = .ok bytes) ↔ i.action.dataSources.length < 2 ^ 8 := by
    rw [← exists_fields_iff hemitters]
    simp only [serialize_eq_ok]
    constructor
    · rintro ⟨_, fields, hfields, -⟩
      exact ⟨fields, hfields⟩
    · rintro ⟨fields, hfields⟩
      exact ⟨_, fields, hfields, rfl⟩
  rw [except_eq_error, ← not_exists, hfields, Nat.not_lt]
  exact Nat.succ_le_iff

/-- A byte string is read as an instruction exactly when it is the encoding of the instruction.
So a cut encoding and an encoding with extra bytes are rejected, unless they are encodings, as
when the extra bytes belong to the VAA of an authorization; and only instructions with more than
255 data sources have no encoding. -/
theorem governance_codec :
    (∀ bytes i, GovernanceInstruction.deserialize bytes = .ok i ↔ i.serialize = .ok bytes) ∧
      (∀ (i : GovernanceInstruction) bytes cut more, i.serialize = .ok bytes →
        bytes = cut ++ more → more ≠ [] → (∀ j : GovernanceInstruction, j.serialize ≠ .ok cut) →
          ∃ e, GovernanceInstruction.deserialize cut = .error e) ∧
      (∀ (i : GovernanceInstruction) bytes more, i.serialize = .ok bytes → more ≠ [] →
        (∀ claimVaa, i.action ≠ .authorizeGovernanceDataSourceTransfer claimVaa) →
          ∃ e, GovernanceInstruction.deserialize (bytes ++ more) = .error e) ∧
      (∀ (i : GovernanceInstruction) bytes more claimVaa, i.serialize = .ok bytes →
        i.action = .authorizeGovernanceDataSourceTransfer claimVaa →
          GovernanceInstruction.deserialize (bytes ++ more) = .ok { i with
            action := .authorizeGovernanceDataSourceTransfer (claimVaa ++ more) }) ∧
      ∀ i : GovernanceInstruction,
        (∀ dataSource ∈ i.action.dataSources, dataSource.emitter.length = 32) →
          ((∃ e, i.serialize = .error e) ↔ 255 < i.action.dataSources.length) := by
  refine ⟨inverse_deserialize, ?_, ?_, ?_, fun i => serialize_fails_iff⟩
  · intro i bytes cut more _ _ _ hcut
    exact inverse_deserialize.rejects hcut
  · intro i bytes more hbytes hmore hvaa
    exact deserialize_longer hbytes hmore hvaa
  · rintro ⟨module, action, targetChainId⟩ bytes more claimVaa hbytes rfl
    obtain ⟨fields, ⟨⟩, rfl⟩ := serialize_eq_ok.mp hbytes
    rw [withFields_append]
    exact (inverse_deserialize _ _).mpr (serialize_eq_ok.mpr ⟨_, rfl, rfl⟩)

end PythCrosschain.CosmWasm
