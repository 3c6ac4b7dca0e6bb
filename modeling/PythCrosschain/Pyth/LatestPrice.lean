import PythCrosschain.Lib.LatestValue
import PythCrosschain.Pyth.PriceFeeds
import PythCrosschain.Pyth.StrictAccumulator

/-!
# The stored prices over whole runs

Every entry point takes the verified messages of its update data in order and offers
each to the stored price of its id (`Call.execute_ok`). The messages of a call do not
depend on the state, so a run has the effect of the messages of all its calls, one after
the other. The results are:

- `latestPriceInfo_applyUpdates`: the stored prices are registers of the latest message;
- `latest_price_state`: over every run, the stored price of an id is the first verified
  message with the greatest publish time, its publish time never decreases, and the final
  publish times do not depend on the order of the calls.
-/

namespace PythCrosschain.Pyth

open LatestValue

/-! ## The verified messages of update data -/

section

variable (keccak256 : Bytes → Bytes32)

/-- The messages of an update, for `numUpdates` more of them, and the offset behind them. -/
def extractMessages (m : Machine) (digest : Bytes20) (encoded : CalldataBytes) (offset : Uint256) :
    Nat → Result (List (Bytes32 × PriceInfo) × Uint256)
  | 0 => return ([], offset)
  | numUpdates + 1 => do
    let extracted ← extractPriceInfoFromMerkleProof keccak256 m digest encoded offset
    let messages ← extractMessages m digest encoded extracted.1 numUpdates
    return ((extracted.2.2.1, extracted.2.1) :: messages.1, messages.2)

/-- The verified messages of an update. -/
def accumulatorMessages (env : CallEnv) (update : CalldataBytes) :
    Result (List (Bytes32 × PriceInfo)) := do
  let header ← extractUpdateTypeFromAccumulatorHeader env.machine update
  let body ← extractWormholeMerkleHeaderDigestAndNumUpdatesAndEncodedFromAccumulatorUpdate
    env.machine env.parseAndVerifyPythVM update header.1
  let messages ← extractMessages keccak256 env.machine body.2.1 body.2.2.2 body.1
    body.2.2.1.toNat
  return messages.1

/-- The verified messages of all updates, in processing order. -/
def verifiedMessages (env : CallEnv) : List CalldataBytes → Result (List (Bytes32 × PriceInfo))
  | [] => return []
  | update :: updateData => do
    let first ← accumulatorMessages keccak256 env update
    let rest ← verifiedMessages env updateData
    return first ++ rest

end

variable {keccak256 : Bytes → Bytes32} {env : CallEnv} {w w' : World}

theorem applyUpdates_append (w : World) (first rest : List (Bytes32 × PriceInfo)) :
    applyUpdates w (first ++ rest) = applyUpdates (applyUpdates w first) rest :=
  List.foldl_append

theorem updatePriceInfos_ok {m : Machine} {digest : Bytes20} {encoded : CalldataBytes}
    {offset endOffset : Uint256} {numUpdates : Nat}
    (updated : updatePriceInfos keccak256 m digest encoded w offset numUpdates
      = .ok (w', endOffset)) :
    ∃ messages, extractMessages keccak256 m digest encoded offset numUpdates
        = .ok (messages, endOffset) ∧ w' = applyUpdates w messages := by
  induction numUpdates generalizing w offset with
  | zero =>
    cases updated
    exact ⟨[], rfl, rfl⟩
  | succ numUpdates ih =>
    obtain ⟨⟨next, priceInfo, priceId, prev⟩, extracted, rest⟩ := bind_eq_ok.mp updated
    obtain ⟨messages, found, rfl⟩ := ih rest
    refine ⟨(priceId, priceInfo) :: messages, ?_, rfl⟩
    exact bind_eq_ok.mpr ⟨_, extracted, bind_eq_ok.mpr ⟨_, found, rfl⟩⟩

theorem parseMessages_ok {priceIds : List Bytes32} {config : ParseConfig} {digest : Bytes20}
    {encoded : CalldataBytes} {priceFeeds : List PriceFeed} {offset : Uint256} {numUpdates : Nat}
    {parsed : World × List PriceFeed × Uint256}
    (ok : parseMessages keccak256 env priceIds config digest encoded w priceFeeds offset numUpdates
      = .ok parsed) :
    ∃ messages, extractMessages keccak256 env.machine digest encoded offset numUpdates
        = .ok (messages, parsed.2.2) ∧ parsed.1 = applyUpdates w messages := by
  induction numUpdates generalizing w priceFeeds offset with
  | zero =>
    cases ok
    exact ⟨[], rfl, rfl⟩
  | succ numUpdates ih =>
    obtain ⟨⟨next, priceInfo, priceId, prev⟩, extracted, rest⟩ := bind_eq_ok.mp ok
    obtain ⟨messages, found, applied⟩ := ih rest
    refine ⟨(priceId, priceInfo) :: messages, ?_, applied⟩
    exact bind_eq_ok.mpr ⟨_, extracted, bind_eq_ok.mpr ⟨_, found, rfl⟩⟩

theorem updatePriceInfosFromAccumulatorUpdate_messages {update : CalldataBytes}
    {updated : Uint8 × World}
    (ok : updatePriceInfosFromAccumulatorUpdate keccak256 env.machine env.parseAndVerifyPythVM
      update w = .ok updated) :
    ∃ messages, accumulatorMessages keccak256 env update = .ok messages ∧
      updated.2 = applyUpdates w messages := by
  simp only [updatePriceInfosFromAccumulatorUpdate, bind_eq_ok, require_eq_ok, pure_eq_ok] at ok
  obtain ⟨header, headed, _, _, body, bodied, ⟨last, offset⟩, looped, _, _, rfl⟩ := ok
  obtain ⟨messages, found, rfl⟩ := updatePriceInfos_ok looped
  exact ⟨messages, bind_eq_ok.mpr ⟨header, headed, bind_eq_ok.mpr ⟨body, bodied,
    bind_eq_ok.mpr ⟨_, found, rfl⟩⟩⟩, rfl⟩

theorem updatePriceInfosFromUpdateData_ok {updateData : List CalldataBytes}
    {totalNumUpdates : Uint256} {updated : World × Uint256}
    (ok : updatePriceInfosFromUpdateData keccak256 env w totalNumUpdates updateData
      = .ok updated) :
    ∃ messages, verifiedMessages keccak256 env updateData = .ok messages ∧
      updated.1 = applyUpdates w messages := by
  induction updateData generalizing w totalNumUpdates with
  | nil =>
    cases ok
    exact ⟨[], rfl, rfl⟩
  | cons update updateData ih =>
    simp only [updatePriceInfosFromUpdateData, bind_eq_ok] at ok
    obtain ⟨first, done, _, _, rest⟩ := ok
    obtain ⟨messages, found, applied⟩ := updatePriceInfosFromAccumulatorUpdate_messages done
    obtain ⟨more, foundMore, appliedMore⟩ := ih rest
    refine ⟨messages ++ more, bind_eq_ok.mpr ⟨_, found, bind_eq_ok.mpr ⟨_, foundMore, rfl⟩⟩, ?_⟩
    rw [appliedMore, applied, applyUpdates_append]

theorem updatePriceFeeds_ok {updateData : List CalldataBytes}
    (ok : updatePriceFeeds keccak256 env updateData w = .ok w') :
    ∃ messages, verifiedMessages keccak256 env updateData = .ok messages ∧
      w' = applyUpdates w messages := by
  simp only [updatePriceFeeds, bind_eq_ok, pure_eq_ok] at ok
  obtain ⟨updated, done, _, _, _, _, rfl⟩ := ok
  exact updatePriceInfosFromUpdateData_ok done

theorem parseUpdateData_ok {updateData : List CalldataBytes} {priceIds : List Bytes32}
    {config : ParseConfig} {priceFeeds : List PriceFeed} {parsed : World × List PriceFeed}
    (ok : parseUpdateData keccak256 env priceIds config w priceFeeds updateData = .ok parsed) :
    ∃ messages, verifiedMessages keccak256 env updateData = .ok messages ∧
      parsed.1 = applyUpdates w messages := by
  induction updateData generalizing w priceFeeds with
  | nil =>
    cases ok
    exact ⟨[], rfl, rfl⟩
  | cons update updateData ih =>
    simp only [parseUpdateData, bind_eq_ok] at ok
    obtain ⟨_, _, header, headed, _, _, body, bodied, first, looped, _, _, rest⟩ := ok
    obtain ⟨messages, found, applied⟩ := parseMessages_ok looped
    obtain ⟨more, foundMore, appliedMore⟩ := ih rest
    have extracted : accumulatorMessages keccak256 env update = .ok messages :=
      bind_eq_ok.mpr ⟨header, headed, bind_eq_ok.mpr ⟨body, bodied,
        bind_eq_ok.mpr ⟨_, found, rfl⟩⟩⟩
    refine ⟨messages ++ more, bind_eq_ok.mpr ⟨_, extracted,
      bind_eq_ok.mpr ⟨_, foundMore, rfl⟩⟩, ?_⟩
    rw [appliedMore, applied, applyUpdates_append]

theorem parsePriceFeedUpdatesInternal_ok {updateData : List CalldataBytes}
    {priceIds : List Bytes32} {config : ParseConfig} {parsed : List PriceFeed × World}
    (ok : parsePriceFeedUpdatesInternal keccak256 env updateData priceIds config w = .ok parsed) :
    ∃ messages, verifiedMessages keccak256 env updateData = .ok messages ∧
      parsed.2 = applyUpdates w messages := by
  simp only [parsePriceFeedUpdatesInternal, bind_eq_ok, pure_eq_ok] at ok
  obtain ⟨_, _, _, _, updated, done, _, _, rfl⟩ := ok
  exact parseUpdateData_ok done

/-! ## Calls -/

/-- A call of one of the four entry points. -/
inductive Call where
  | updatePriceFeeds (env : CallEnv) (updateData : List CalldataBytes)
  | updatePriceFeedsIfNecessary (env : CallEnv) (updateData : List CalldataBytes)
      (priceIds : List Bytes32) (publishTimes : List Uint64)
  | parsePriceFeedUpdates (env : CallEnv) (updateData : List CalldataBytes)
      (priceIds : List Bytes32) (minPublishTime maxPublishTime : Uint64)
  | parsePriceFeedUpdatesUnique (env : CallEnv) (updateData : List CalldataBytes)
      (priceIds : List Bytes32) (minPublishTime maxPublishTime : Uint64)

section

variable (keccak256 : Bytes → Bytes32)

def Call.execute (w : World) : Call → Result World
  | .updatePriceFeeds env updateData => Pyth.updatePriceFeeds keccak256 env updateData w
  | .updatePriceFeedsIfNecessary env updateData priceIds publishTimes =>
    Pyth.updatePriceFeedsIfNecessary keccak256 env updateData priceIds publishTimes w
  | .parsePriceFeedUpdates env updateData priceIds minPublishTime maxPublishTime => do
    let parsed ← Pyth.parsePriceFeedUpdates keccak256 env updateData priceIds minPublishTime
      maxPublishTime w
    return parsed.2
  | .parsePriceFeedUpdatesUnique env updateData priceIds minPublishTime maxPublishTime => do
    let parsed ← Pyth.parsePriceFeedUpdatesUnique keccak256 env updateData priceIds minPublishTime
      maxPublishTime w
    return parsed.2

/-- Calls one after the other, all of them successful. -/
def executeAll (w : World) : List Call → Result World
  | [] => return w
  | call :: calls => do
    let w ← call.execute keccak256 w
    executeAll w calls

def Call.callEnv : Call → CallEnv
  | .updatePriceFeeds env .. => env
  | .updatePriceFeedsIfNecessary env .. => env
  | .parsePriceFeedUpdates env .. => env
  | .parsePriceFeedUpdatesUnique env .. => env

def Call.updateData : Call → List CalldataBytes
  | .updatePriceFeeds _ updateData => updateData
  | .updatePriceFeedsIfNecessary _ updateData .. => updateData
  | .parsePriceFeedUpdates _ updateData .. => updateData
  | .parsePriceFeedUpdatesUnique _ updateData .. => updateData

/-- The verified messages of a call, in processing order. -/
def Call.messages (call : Call) : List (Bytes32 × PriceInfo) :=
  ((verifiedMessages keccak256 call.callEnv call.updateData).toOption).getD []

/-- The verified messages for one price id. -/
def messagesFor (priceId : Bytes32) (messages : List (Bytes32 × PriceInfo)) : List PriceInfo :=
  (messages.filter fun message => message.1 = priceId).map Prod.snd

end

/-- A call offers its verified messages to the stored prices, and does nothing else. -/
theorem Call.execute_ok {call : Call} (ok : call.execute keccak256 w = .ok w') :
    w' = applyUpdates w (call.messages keccak256) := by
  have verified : ∃ messages,
      verifiedMessages keccak256 call.callEnv call.updateData = .ok messages ∧
      w' = applyUpdates w messages := by
    cases call with
    | updatePriceFeeds env updateData => exact updatePriceFeeds_ok ok
    | updatePriceFeedsIfNecessary env updateData priceIds publishTimes =>
      obtain ⟨_, _, rest⟩ := bind_eq_ok.mp ok
      obtain ⟨_, _, updated⟩ := bind_eq_ok.mp rest
      exact updatePriceFeeds_ok updated
    | parsePriceFeedUpdates env updateData priceIds minPublishTime maxPublishTime =>
      obtain ⟨parsed, done, result⟩ := bind_eq_ok.mp ok
      cases result
      exact parsePriceFeedUpdatesInternal_ok done
    | parsePriceFeedUpdatesUnique env updateData priceIds minPublishTime maxPublishTime =>
      obtain ⟨parsed, done, result⟩ := bind_eq_ok.mp ok
      cases result
      exact parsePriceFeedUpdatesInternal_ok done
  obtain ⟨messages, found, rfl⟩ := verified
  unfold Call.messages
  rw [found]
  rfl

theorem executeAll_ok {calls : List Call} (ok : executeAll keccak256 w calls = .ok w') :
    w' = applyUpdates w (calls.flatMap (Call.messages keccak256)) := by
  induction calls generalizing w with
  | nil =>
    cases ok
    rfl
  | cons call calls ih =>
    obtain ⟨middle, first, rest⟩ := bind_eq_ok.mp ok
    rw [ih rest, Call.execute_ok first, List.flatMap_cons, applyUpdates_append]

theorem executeAll_append {before after : List Call} :
    executeAll keccak256 w (before ++ after) = .ok w' ↔
      ∃ middle, executeAll keccak256 w before = .ok middle ∧
        executeAll keccak256 middle after = .ok w' := by
  induction before generalizing w with
  | nil => simp [executeAll]
  | cons call before ih =>
    simp only [List.cons_append, executeAll, bind_eq_ok, ih]
    constructor
    · rintro ⟨next, first, middle, rest, done⟩
      exact ⟨middle, ⟨next, first, rest⟩, done⟩
    · rintro ⟨middle, ⟨next, first, rest⟩, done⟩
      exact ⟨next, first, middle, rest, done⟩

/-! ## Stored prices -/

/-- The publish time as a number. -/
def PriceInfo.time (info : PriceInfo) : Nat := info.publishTime.toNat

/-- The entry of the mapping for a register. -/
def entryOf (stored : Option PriceInfo) : PriceInfo := stored.getD {}

theorem storedTime_eq (stored : Option PriceInfo) :
    storedTime PriceInfo.time stored = (entryOf stored).publishTime.toNat := by
  cases stored <;> rfl

/-- One message does to the entry of its price id what `keepNewer` does to a register. -/
theorem latestPriceInfo_update {priceId id : Bytes32} {info : PriceInfo}
    {stored : Option PriceInfo} (entry : w.state.latestPriceInfo id = entryOf stored) :
    (updateLatestPriceIfNecessary w priceId info).state.latestPriceInfo id =
      entryOf (if priceId = id then keepNewer PriceInfo.time stored info else stored) := by
  rw [latestPriceInfo_eq]
  by_cases same : priceId = id
  · subst same
    rw [if_pos rfl, keepNewer, storedTime_eq, entry, PriceInfo.time]
    by_cases newer : info.publishTime > (entryOf stored).publishTime
    · rw [if_pos newer, if_pos (BitVec.lt_def.mp newer), Function.update_self]
      rfl
    · rw [if_neg newer, if_neg (mt BitVec.lt_def.mpr newer), entry]
  · rw [if_neg same]
    split
    · rw [Function.update_of_ne (fun h => same h.symm), entry]
    · exact entry

/-- The stored prices are registers of the latest message for their id. -/
theorem latestPriceInfo_applyUpdates {id : Bytes32} {stored : Option PriceInfo}
    {messages : List (Bytes32 × PriceInfo)}
    (entry : w.state.latestPriceInfo id = entryOf stored) :
    (applyUpdates w messages).state.latestPriceInfo id =
      entryOf ((messagesFor id messages).foldl (keepNewer PriceInfo.time) stored) := by
  induction messages generalizing w stored with
  | nil => exact entry
  | cons message messages ih =>
    have first := @latestPriceInfo_update w message.1 id message.2 stored entry
    refine (ih first).trans ?_
    unfold messagesFor
    by_cases same : message.1 = id
    · simp [same]
    · simp [same]

theorem storedTime_le_foldl (stored : Option PriceInfo) (messages : List PriceInfo) :
    storedTime PriceInfo.time stored ≤
      storedTime PriceInfo.time (messages.foldl (keepNewer PriceInfo.time) stored) := by
  induction messages generalizing stored with
  | nil => exact le_rfl
  | cons info messages ih => exact (storedTime_le_keepNewer info).trans (ih _)

/-- **The latest price.** From a contract without prices, after any successful calls of the
four entry points: the stored price of an id is the first verified message for it with the
greatest publish time, and the entry is empty where no verified message has a publish time
above 0; the publish time never decreases along the run; and the same calls in another
order leave the same publish times. -/
theorem latest_price_state (w₀ : World) (empty : ∀ id, w₀.state.latestPriceInfo id = {})
    (calls : List Call) (run : executeAll keccak256 w₀ calls = .ok w) (id : Bytes32) :
    (∃ stored, w.state.latestPriceInfo id = stored.getD {} ∧
      IsLatest PriceInfo.time
        (messagesFor id (calls.flatMap (Call.messages keccak256))) stored) ∧
    (∀ before after middle, calls = before ++ after →
      executeAll keccak256 w₀ before = .ok middle →
      (middle.state.latestPriceInfo id).publishTime ≤ (w.state.latestPriceInfo id).publishTime) ∧
    ∀ calls' w', calls'.Perm calls → executeAll keccak256 w₀ calls' = .ok w' →
      (w'.state.latestPriceInfo id).publishTime = (w.state.latestPriceInfo id).publishTime := by
  -- what any run from `w₀` leaves at `id`
  have entries : ∀ {calls w}, executeAll keccak256 w₀ calls = .ok w →
      ∃ stored, w.state.latestPriceInfo id = entryOf stored ∧
        IsLatest PriceInfo.time (messagesFor id (calls.flatMap (Call.messages keccak256)))
          stored := by
    intro calls w run
    rw [executeAll_ok run]
    have start : w₀.state.latestPriceInfo id = entryOf none := empty id
    refine ⟨_, latestPriceInfo_applyUpdates start, ?_⟩
    have none_latest : IsLatest PriceInfo.time [] none := isLatest_nil
    have latest := isLatest_foldl none_latest
      (messagesFor id (calls.flatMap (Call.messages keccak256)))
    rwa [List.nil_append] at latest
  obtain ⟨stored, entry, latest⟩ := entries run
  refine ⟨⟨stored, entry, latest⟩, ?_, ?_⟩
  · rintro before after middle rfl ran
    obtain ⟨middle', ran', rest⟩ := executeAll_append.mp run
    cases ran.symm.trans ran'
    obtain ⟨stored', entry', _⟩ := entries ran
    rw [executeAll_ok rest, latestPriceInfo_applyUpdates entry', entry', BitVec.le_def,
      ← storedTime_eq, ← storedTime_eq]
    exact storedTime_le_foldl stored' _
  · intro calls' w' perm run'
    obtain ⟨stored', entry', latest'⟩ := entries run'
    have sameMessages : (messagesFor id (calls'.flatMap (Call.messages keccak256))).Perm
        (messagesFor id (calls.flatMap (Call.messages keccak256))) :=
      ((perm.flatMap_right _).filter _).map _
    have same := latest'.time_eq_of_perm latest sameMessages
    rw [storedTime_eq, storedTime_eq] at same
    rw [entry, entry']
    exact BitVec.eq_of_toNat_eq same

/-! ### A run that parses one price and updates it again -/

def exCalls : List Call :=
  let env : CallEnv :=
    { machine := exMachine 4 0xff false, parseAndVerifyPythVM := exParseAndVerify, value := 0 }
  [.parsePriceFeedUpdates env [exUpdate 4] [7] 0 100, .updatePriceFeeds env [exUpdate 4]]

theorem latest_price_state_exCalls :
    ∃ w, executeAll exKeccak {} exCalls = .ok w ∧
      ∃ stored, w.state.latestPriceInfo 7 = stored.getD {} ∧
        IsLatest PriceInfo.time
          (messagesFor 7 (exCalls.flatMap (Call.messages exKeccak))) stored := by
  have succeeds : (executeAll exKeccak {} exCalls).toOption.isSome := by decide +kernel
  obtain ⟨w, run⟩ := Option.isSome_iff_exists.mp succeeds
  exact ⟨w, toOption_eq_some.mp run,
    (latest_price_state {} (fun _ => rfl) exCalls (toOption_eq_some.mp run) 7).1⟩

end PythCrosschain.Pyth
