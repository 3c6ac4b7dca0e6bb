import PythCrosschain.Hermes.Cache

/-!
# Hermes: lookups by time

A lookup with `FirstAfter(t)` should return the first message at or after `t`
among all that were ever stored (`IsFirstAfter`), evicted ones included. What is
evicted lies below the oldest message of the cache, and the lookup gives up when
`t` is below its publish time. It does not give up when the two publish times
are equal, although messages of that second may have been evicted:

- the lookup returns the first message exactly if no message of the second `t`
  was evicted (`firstAfter_exact`);
- two messages in one second and room for one are enough to skip an update
  (`firstAfter_skips`).
-/

namespace PythCrosschain.Hermes

open PythnetSdk

/-- `m` has the smallest time among the states with a publish time from `t` on. -/
structure IsFirstAfter (stored : List MessageState) (t : UnixTimestamp) (m : MessageState) :
    Prop where
  mem : m ∈ stored
  after : t ≤ m.time.publishTime
  least : ∀ s ∈ stored, t ≤ s.time.publishTime → m.time ≤ s.time

/-- What a lookup by time says about the cache of its key. -/
theorem retrieve_firstAfter {keyCache : KeyCache} {t : UnixTimestamp} {m : MessageState}
    (h : keyCache.retrieve (.firstAfter t) = some m) :
    ∃ time oldest, keyCache.first? = some oldest ∧ oldest.2.time.publishTime ≤ t ∧
      keyCache.firstFrom ⟨t, 0⟩ = some (time, m) := by
  simp only [KeyCache.retrieve] at h
  split at h
  · cases h
  · next hguard =>
    obtain ⟨⟨time, state⟩, hfirst, rfl⟩ := Option.map_eq_some_iff.mp h
    cases holdest : keyCache.first? with
    | none =>
      have hempty : keyCache.entries = [] := List.head?_eq_none_iff.mp holdest
      rw [SortedMap.firstFrom, hempty] at hfirst
      cases hfirst
    | some oldest =>
      rw [holdest] at hguard
      simp only [Option.any_some, decide_eq_true_eq, not_lt] at hguard
      exact ⟨time, oldest, rfl, hguard, hfirst⟩

/-- In a run that never prunes the key, a lookup that returns a message returns
the first one exactly if every message stored for the second `t` is still in the
cache. -/
theorem firstAfter_exact {cacheSize : Nat} {writes : List CacheWrite} {key : MessageStateKey}
    {t : UnixTimestamp} {m : MessageState}
    (hkept : ∀ keys, .prune keys ∈ writes → key ∈ keys)
    (h : retrieveMessageState (runWrites cacheSize writes) key (.firstAfter t) = some m) :
    IsFirstAfter (storedStates key writes) t m ↔
      ∀ s ∈ storedStates key writes, s.time.publishTime = t →
        Cached (runWrites cacheSize writes) key s.time := by
  have hnewest : HoldsNewest cacheSize (runWrites cacheSize writes) key
      (storedStates key writes).reverse := runWrites_newest writes hkept
  unfold retrieveMessageState at h
  split at h
  · next keyCache hcache =>
    rw [HoldsNewest, hcache, Option.getD_some] at hnewest
    have hcached : ∀ time, Cached (runWrites cacheSize writes) key time ↔ time ∈ keyCache.keys := by
      intro time
      simp [Cached, hcache]
    have hentry : ∀ e ∈ keyCache.entries, e.2 ∈ storedStates key writes ∧ e.1 = e.2.time := by
      intro e he
      obtain ⟨state, hstate, rfl⟩ := List.mem_map.mp (hnewest.stored e he)
      exact ⟨List.mem_reverse.mp hstate, rfl⟩
    have hevicted : ∀ s ∈ storedStates key writes, s.time ∉ keyCache.keys →
        ∀ time ∈ keyCache.keys, s.time < time := fun s hs hgone =>
      (hnewest.evicted (s.time, s)
        (List.mem_map_of_mem (List.mem_reverse.mpr hs)) hgone).2
    obtain ⟨time, oldest, holdest, hguard, hfirst⟩ := retrieve_firstAfter h
    obtain ⟨hmem, hfrom, hleast⟩ := SortedMap.firstFrom_least hfirst
    obtain ⟨hstored, htime⟩ := hentry _ hmem
    have htime : time = m.time := htime
    subst htime
    simp only [hcached]
    constructor
    · intro hm s hs hsecond
      refine Decidable.byContradiction fun hgone => ?_
      have hlt := hevicted s hs hgone m.time (SortedMap.mem_keys.mpr ⟨m, hmem⟩)
      exact absurd (hm.least s hs hsecond.ge) (not_le.mpr hlt)
    · intro hsecond
      refine ⟨hstored, MessageStateTime.publishTime_mono hfrom, fun s hs hafter => ?_⟩
      rcases Decidable.em (s.time ∈ keyCache.keys) with hin | hgone
      · obtain ⟨v, hv⟩ := SortedMap.mem_keys.mp hin
        exact hleast (s.time, v) hv (MessageStateTime.lookupTime_le hafter)
      · -- An evicted state is not newer than the oldest one, which is not newer than `t`.
        obtain ⟨holdestMem, -⟩ := SortedMap.first_least holdest
        have hlt := hevicted s hs hgone oldest.1 (SortedMap.mem_keys.mpr ⟨oldest.2, holdestMem⟩)
        rw [(hentry _ holdestMem).2] at hlt
        have hpublish := MessageStateTime.publishTime_mono hlt.le
        exact absurd (hsecond s hs (le_antisymm (hpublish.trans hguard) hafter)) hgone
  · cases h

/-! ## Two messages in one second -/

/-- A price message of feed 1 for second 10. -/
def exState (slot : Slot) : MessageState where
  slot := slot
  message := .priceFeedMessage
    { feedId := default
      price := 0
      conf := 0
      exponent := 0
      publishTime := 10
      prevPublishTime := 9
      emaPrice := 0
      emaConf := 0 }
  rawMessage := []
  proofSet := ⟨⟨[], []⟩⟩
  receivedAt := 10

def exWrites : List CacheWrite := [.store [exState 5], .store [exState 7]]

theorem exWrites_lookup (cacheSize : Nat) (hsize : cacheSize = 1 ∨ cacheSize = 2) :
    retrieveMessageState (runWrites cacheSize exWrites) (exState 5).key (.firstAfter 10) =
      some (exState (if cacheSize = 1 then 7 else 5)) := by
  rcases hsize with rfl | rfl
  · decide +kernel
  · decide +kernel

/-- A cache of two messages has the first message of the second, at slot 5. -/
theorem firstAfter_exact_run :
    IsFirstAfter (storedStates (exState 5).key exWrites) 10 (exState 5) := by
  refine (firstAfter_exact (by simp [exWrites]) (exWrites_lookup 2 (.inr rfl))).mpr
    fun s hs _ => ?_
  have hcache : (runWrites 2 exWrites (exState 5).key).any (fun keyCache =>
      (storedStates (exState 5).key exWrites).all (·.time ∈ keyCache.keys)) = true := by
    decide +kernel
  obtain ⟨keyCache, hkeyCache, hall⟩ := (Option.any_eq_true _ _).mp hcache
  exact ⟨keyCache, hkeyCache, of_decide_eq_true (List.all_eq_true.mp hall s hs)⟩

/-- A cache of one message returns the message of slot 7, although the one of
slot 5 is the first of the second. -/
theorem firstAfter_skips :
    ¬ ∀ (cacheSize : Nat) (writes : List CacheWrite) (key : MessageStateKey) (t : UnixTimestamp)
        (m : MessageState), 1 ≤ cacheSize → (∀ keys, .prune keys ∈ writes → key ∈ keys) →
      retrieveMessageState (runWrites cacheSize writes) key (.firstAfter t) = some m →
        IsFirstAfter (storedStates key writes) t m := by
  intro hclaim
  have hfirst := hclaim 1 exWrites (exState 5).key 10 (exState 7) le_rfl (by simp [exWrites])
    (exWrites_lookup 1 (.inl rfl))
  have hstored : exState 5 ∈ storedStates (exState 5).key exWrites := by decide +kernel
  have hle : (exState 7).time ≤ (exState 5).time := hfirst.least _ hstored (by decide +kernel)
  rcases MessageStateTime.le_iff.mp hle with hlt | ⟨-, hslot⟩
  · exact absurd hlt (by decide +kernel)
  · exact absurd hslot (by decide)

end PythCrosschain.Hermes
