import Mathlib.Logic.Relation
import PythCrosschain.PriceStore.Program

/-!
# Price store: the buffers

Runs of the program: instructions with any accounts, with the other programs of the chain between
them. The results are:

- `inv_move`, `inv_of_reached`: the invariant of the accounts and of the submissions;
- `storeLaw_of_inv`, `callLaw_of_inv`: what it says about a state, and about the next instruction;
- `price_store`: publisher configs and buffers belong together one to one, and a buffer is what its
  publisher has submitted.
-/

namespace PythCrosschain.PriceStore

open Solana
open PythnetSdk (HashArray)
open Relation (ReflTransGen)
open BufferedPrice (SIZE castSlice)

/-! ## Runs -/

/-- An instruction in the current slot. -/
structure Call where
  accounts : List AccountMeta
  data : Bytes

/-- The chain, with the submissions that succeeded. -/
structure Chain where
  slot : U64
  ledger : StoreLedger
  submissions : List Submission

/-- What an instruction submits, if it does. -/
def Call.submission (call : Call) (slot : U64) : Option Submission :=
  match call.accounts[0]?, call.data with
  | some publisher, 1 :: payload => some ⟨publisher.pubkey, slot, payload.drop 1⟩
  | _, _ => none

def Call.exec (env : Env) (call : Call) (c : Chain) : Result StoreLedger :=
  processInstruction env c.slot call.accounts call.data c.ledger

/-- An instruction that fails is rolled back. -/
def Chain.call (env : Env) (c : Chain) (call : Call) : Chain :=
  match call.exec env c with
  | .ok ledger => { c with
      ledger
      submissions := c.submissions ++ (call.submission c.slot).toList }
  | .error _ => c

/-- What the other programs of the chain can do: they do not write to the accounts of the program,
an account that it gets holds zeros, and nobody signs for a program derived address of it. -/
structure Foreign (env : Env) (ledger ledger' : StoreLedger) : Prop where
  owned : ∀ k, (ledger k).owner = env.programId → Ledger.Same ledger ledger' k
  entering : ∀ k, (ledger k).owner ≠ env.programId → (ledger' k).owner = env.programId →
    ∃ size, Holds env ledger' k (.blank size)
  derived : ∀ k, Derived env k → Ledger.Same ledger ledger' k

/-- The program was not called yet. -/
structure Fresh (env : Env) (ledger : StoreLedger) : Prop where
  blank : ∀ k, (ledger k).owner = env.programId → ∃ size, Holds env ledger k (.blank size)
  derived : ∀ k, Derived env k → ledger.Free k

inductive Move (env : Env) : Chain → Chain → Prop
  | call {c : Chain} (call : Call) : Move env c (c.call env call)
  | clock {c : Chain} {slot : U64} (h : c.slot ≤ slot) : Move env c { c with slot }
  | foreign {c : Chain} {ledger : StoreLedger} (h : Foreign env c.ledger ledger) :
    Move env c { c with ledger }

/-- A state of a run. -/
def Reached (env : Env) (start : StoreLedger) (c : Chain) : Prop :=
  ∃ slot, ReflTransGen (Move env) ⟨slot, start, []⟩ c

/-- The submissions of a publisher. -/
def Chain.submissionsOf (c : Chain) (publisher : Pubkey) : List Submission :=
  c.submissions.filter fun s => s.publisher = publisher

/-! ## The invariant -/

structure Inv (env : Env) (c : Chain) : Prop where
  typed : Typed env c.ledger
  derived : ∀ k, Derived env k → c.ledger.Free k ∨ (c.ledger k).owner = env.programId
  /-- A publisher config is at the address of its publisher, and its buffer is one of it. -/
  config : ∀ k publisher buffer, Holds env c.ledger k (.publisherConfig publisher buffer) →
    (∃ bump, env.findProgramAddress [PUBLISHER_CONFIG_SEED, publisher.val] = .ok (k, bump)) ∧
    ∃ slot numPrices prices, Holds env c.ledger buffer (.buffer publisher slot numPrices prices)
  /-- A buffer has a config. -/
  buffer : ∀ k publisher slot numPrices prices,
    Holds env c.ledger k (.buffer publisher slot numPrices prices) →
    (∃ key, Holds env c.ledger key (.publisherConfig publisher k)) ∧ slot ≤ c.slot ∧
    ReadsBack (c.submissionsOf publisher) slot numPrices prices
  /-- Who has submitted prices has a config. -/
  submitted : ∀ s ∈ c.submissions, ∃ key buffer,
    Holds env c.ledger key (.publisherConfig s.publisher buffer)

section

variable {env : Env} {c : Chain} {ledger ledger' : StoreLedger} {key k : Pubkey} {x y : Stored}

theorem Holds.unique (hx : Holds env ledger k x) (hy : Holds env ledger k y) : x = y :=
  Stored.bytes_injective (hx.data.symm.trans hy.data)

theorem dataOf_of_free (h : ledger.Free k) : dataOf ledger k = [] := dataOf_of_raw h.2

theorem Holds.eq_blank_of_free (hx : Holds env ledger k x) (h : ledger.Free k) : x = .blank 0 :=
  Stored.bytes_injective (hx.data.symm.trans (dataOf_of_free h))

theorem holds_iff_of_same (h : Ledger.Same ledger ledger' k) :
    Holds env ledger' k x ↔ Holds env ledger k x :=
  ⟨fun hx => hx.of_same' h, fun hx => hx.of_same h⟩

theorem free_of_same (h : Ledger.Same ledger ledger' k) (hfree : ledger.Free k) :
    ledger'.Free k :=
  ⟨h.owner.trans hfree.1, h.data.trans hfree.2⟩

/-- The account is a publisher config or a buffer. -/
def Stored.Published : Stored → Prop
  | .publisherConfig _ _ => True
  | .buffer _ _ _ _ => True
  | _ => False

/-- What leaves the publisher configs and the buffers alone keeps the invariant. -/
theorem Inv.frame (h : Inv env c) {slot : U64} (hslot : c.slot ≤ slot) (htyped : Typed env ledger')
    (hderived : ∀ k, Derived env k → ledger'.Free k ∨ (ledger' k).owner = env.programId)
    (hheld : ∀ k x, x.Published → (Holds env ledger' k x ↔ Holds env c.ledger k x)) :
    Inv env { c with slot, ledger := ledger' } := by
  have hconfig (k publisher buffer : Pubkey) :
      Holds env ledger' k (.publisherConfig publisher buffer) ↔
        Holds env c.ledger k (.publisherConfig publisher buffer) :=
    hheld k (.publisherConfig publisher buffer) trivial
  have hbuffer (k publisher : Pubkey) (slot : U64) (numPrices : U32) (prices : Bytes) :
      Holds env ledger' k (.buffer publisher slot numPrices prices) ↔
        Holds env c.ledger k (.buffer publisher slot numPrices prices) :=
    hheld k (.buffer publisher slot numPrices prices) trivial
  refine ⟨htyped, hderived, ?_, ?_, ?_⟩
  · intro k publisher buffer hk
    obtain ⟨haddress, slot', numPrices, prices, hheld⟩ := h.config _ _ _ ((hconfig _ _ _).mp hk)
    exact ⟨haddress, slot', numPrices, prices, (hbuffer _ _ _ _ _).mpr hheld⟩
  · intro k publisher slot' numPrices prices hk
    obtain ⟨⟨key, hkey⟩, hle, hreads⟩ := h.buffer _ _ _ _ _ ((hbuffer _ _ _ _ _).mp hk)
    exact ⟨⟨key, (hconfig _ _ _).mpr hkey⟩, BitVec.le_trans hle hslot, hreads⟩
  · intro s hs
    obtain ⟨key, buffer, hkey⟩ := h.submitted s hs
    exact ⟨key, buffer, (hconfig _ _ _).mpr hkey⟩

theorem inv_clock (h : Inv env c) {slot : U64} (hslot : c.slot ≤ slot) :
    Inv env { c with slot } :=
  h.frame hslot h.typed h.derived fun _ _ _ => Iff.rfl

theorem inv_foreign (h : Inv env c) (hforeign : Foreign env c.ledger ledger') :
    Inv env { c with ledger := ledger' } := by
  refine h.frame (BitVec.le_refl _) (fun k hk => ?_) (fun k hk => ?_) fun k x hx => ?_
  · by_cases howner : (c.ledger k).owner = env.programId
    · obtain ⟨x, hx⟩ := h.typed k howner
      exact ⟨x, (dataOf_of_same (hforeign.owned k howner)).trans hx⟩
    · obtain ⟨size, hsize⟩ := hforeign.entering k howner hk
      exact ⟨_, hsize.data⟩
  · have hsame := hforeign.derived k hk
    exact (h.derived k hk).imp (free_of_same hsame) fun howner => hsame.owner.trans howner
  · by_cases howner : (c.ledger k).owner = env.programId
    · exact holds_iff_of_same (hforeign.owned k howner)
    · refine ⟨fun hk => ?_, fun hk => absurd hk.owner howner⟩
      obtain ⟨size, hsize⟩ := hforeign.entering k howner hk.owner
      rw [hk.unique hsize] at hx
      cases hx

theorem inv_createsConfig {authority : Pubkey} (h : Inv env c)
    (hc : CreatesConfig env c.ledger ledger' key authority) :
    Inv env { c with ledger := ledger' } := by
  refine h.frame (BitVec.le_refl _) (fun k hk => ?_) (fun k hk => ?_) fun k x hx => ?_
  · rcases eq_or_ne k key with rfl | hne
    · exact ⟨_, hc.config.data⟩
    · obtain ⟨x, hx⟩ := h.typed k ((hc.same k hne).owner.symm.trans hk)
      exact ⟨x, (dataOf_of_same (hc.same k hne)).trans hx⟩
  · rcases eq_or_ne k key with rfl | hne
    · exact .inr hc.config.owner
    · exact (h.derived k hk).imp (free_of_same (hc.same k hne))
        fun howner => (hc.same k hne).owner.trans howner
  · rcases eq_or_ne k key with rfl | hne
    · refine ⟨fun hk => ?_, fun hk => ?_⟩
      · rw [hk.unique hc.config] at hx
        cases hx
      · rw [hk.eq_blank_of_free hc.free] at hx
        cases hx
    · exact holds_iff_of_same (hc.same k hne)

/-- The config of a publisher has one address. -/
theorem Inv.config_unique (h : Inv env c) {publisher buffer buffer' : Pubkey} {key' : Pubkey}
    (hkey : Holds env c.ledger key (.publisherConfig publisher buffer))
    (hkey' : Holds env c.ledger key' (.publisherConfig publisher buffer')) :
    key' = key ∧ buffer' = buffer := by
  obtain ⟨⟨bump, hfind⟩, -⟩ := h.config _ _ _ hkey
  obtain ⟨⟨bump', hfind'⟩, -⟩ := h.config _ _ _ hkey'
  cases hfind.symm.trans hfind'
  cases hkey.unique hkey'
  exact ⟨rfl, rfl⟩

theorem inv_createsPublisher {publisher buffer : Pubkey} (h : Inv env c)
    (hc : CreatesPublisher env c.ledger ledger' publisher key buffer) :
    Inv env { c with ledger := ledger' } := by
  obtain ⟨size, hblank⟩ := hc.blank
  obtain ⟨prices, hopened⟩ := hc.opened
  -- what was a config or a buffer before is at other addresses
  have hold {k : Pubkey} {x : Stored} (hx : x.Published) (hk : Holds env c.ledger k x) :
      Holds env ledger' k x := by
    refine hk.of_same (hc.same k ?_ ?_)
    · rintro rfl
      rw [hk.eq_blank_of_free hc.free] at hx
      cases hx
    · rintro rfl
      rw [hk.unique hblank] at hx
      cases hx
  refine ⟨fun k hk => ?_, fun k hk => ?_, fun k publisher' buffer' hk => ?_,
    fun k publisher' slot numPrices prices' hk => ?_, fun s hs => ?_⟩
  · rcases eq_or_ne k key with rfl | hkey
    · exact ⟨_, hc.config.data⟩
    · rcases eq_or_ne k buffer with rfl | hbuffer
      · exact ⟨_, hopened.data⟩
      · have hsame := hc.same k hkey hbuffer
        obtain ⟨x, hx⟩ := h.typed k (hsame.owner.symm.trans hk)
        exact ⟨x, (dataOf_of_same hsame).trans hx⟩
  · rcases eq_or_ne k key with rfl | hkey
    · exact .inr hc.config.owner
    · rcases eq_or_ne k buffer with rfl | hbuffer
      · exact .inr hopened.owner
      · have hsame := hc.same k hkey hbuffer
        exact (h.derived k hk).imp (free_of_same hsame) fun howner => hsame.owner.trans howner
  · rcases eq_or_ne k key with rfl | hkey
    · cases hk.unique hc.config
      exact ⟨hc.address, 0, 0, prices, hopened⟩
    · rcases eq_or_ne k buffer with rfl | hbuffer
      · cases hk.unique hopened
      · obtain ⟨haddress, slot, numPrices, prices', hheld⟩ :=
          h.config _ _ _ (hk.of_same' (hc.same k hkey hbuffer))
        exact ⟨haddress, slot, numPrices, prices', hold trivial hheld⟩
  · rcases eq_or_ne k key with rfl | hkey
    · cases hk.unique hc.config
    · rcases eq_or_ne k buffer with rfl | hbuffer
      · cases hk.unique hopened
        have hnone : c.submissionsOf publisher = [] := by
          refine List.filter_eq_nil_iff.mpr fun s hs hpublisher => ?_
          obtain ⟨key', buffer', hheld⟩ := h.submitted s hs
          rw [of_decide_eq_true hpublisher] at hheld
          -- its config would be at the address that is free
          obtain ⟨⟨bump', hfind'⟩, -⟩ := h.config _ _ _ hheld
          obtain ⟨bump, hfind⟩ := hc.address
          cases hfind.symm.trans hfind'
          cases hheld.eq_blank_of_free hc.free
        refine ⟨⟨key, hc.config⟩, Nat.zero_le _, ?_⟩
        show ReadsBack (c.submissionsOf publisher) 0 0 prices
        rw [hnone]
        exact readsBack_new prices
      · obtain ⟨⟨key', hkey'⟩, hle, hreads⟩ :=
          h.buffer _ _ _ _ _ (hk.of_same' (hc.same k hkey hbuffer))
        exact ⟨⟨key', hold trivial hkey'⟩, hle, hreads⟩
  · obtain ⟨key', buffer', hheld⟩ := h.submitted s hs
    exact ⟨key', buffer', hold trivial hheld⟩

/-- The config that a publisher submits with is its own, and so is the buffer. -/
theorem Submits.held {publisher buffer : Pubkey} {newPrices : Bytes} (h : Inv env c)
    (hs : Submits env c.slot c.ledger ledger' publisher newPrices key buffer) :
    Holds env c.ledger key (.publisherConfig publisher buffer) ∧
      ∃ slot numPrices prices,
        Holds env c.ledger buffer (.buffer publisher slot numPrices prices) := by
  obtain ⟨config, hread, rfl, rfl⟩ := hs.config
  have hkey : Holds env c.ledger key (.publisherConfig config.publisher config.bufferAccount) := by
    rcases h.derived key hs.derived with hfree | howner
    · rw [dataOf_of_free hfree] at hread
      cases hread
    · obtain ⟨x, hx⟩ := h.typed key howner
      rw [hx] at hread
      exact ⟨howner, hx.trans (congrArg Stored.bytes (Stored.publisherConfigRead_eq_ok.mp hread).1)⟩
  exact ⟨hkey, (h.config _ _ _ hkey).2⟩

theorem submissionsOf_concat (c : Chain) (ledger : StoreLedger) (s : Submission)
    (publisher : Pubkey) :
    Chain.submissionsOf { c with ledger, submissions := c.submissions ++ [s] } publisher
      = if s.publisher = publisher then c.submissionsOf publisher ++ [s]
        else c.submissionsOf publisher := by
  unfold Chain.submissionsOf
  rw [List.filter_append, List.filter_singleton]
  by_cases hs : s.publisher = publisher
  · rw [if_pos hs, decide_eq_true hs]
    rfl
  · rw [if_neg hs, decide_eq_false hs]
    exact List.append_nil _

theorem inv_submits {publisher buffer : Pubkey} {newPrices : Bytes} (h : Inv env c)
    (hs : Submits env c.slot c.ledger ledger' publisher newPrices key buffer) :
    Inv env { c with
      ledger := ledger'
      submissions := c.submissions ++ [⟨publisher, c.slot, newPrices⟩] } := by
  obtain ⟨hkey, slot, numPrices, prices, hbuffer⟩ := hs.held h
  obtain ⟨_, _, _, _, header', prices', hheld, hupdate, howner, hdata⟩ := hs.written
  cases hheld.unique hbuffer
  obtain ⟨-, hle, hreads⟩ := h.buffer _ _ _ _ _ hbuffer
  obtain ⟨numPrices', rfl, hreads'⟩ := readsBack_update hreads hle hupdate
  have hwritten : Holds env ledger' buffer (.buffer publisher c.slot numPrices' prices') :=
    ⟨howner, hdata⟩
  -- configs are not written
  have hconfig {k publisher' buffer' : Pubkey}
      (hk : Holds env c.ledger k (.publisherConfig publisher' buffer')) :
      Holds env ledger' k (.publisherConfig publisher' buffer') := by
    refine hk.of_same (hs.same k ?_)
    rintro rfl
    cases hk.unique hbuffer
  refine ⟨fun k hk => ?_, fun k hk => ?_, fun k publisher' buffer' hk => ?_,
    fun k publisher' slot' numPrices'' prices'' hk => ?_, fun s hmem => ?_⟩
  · rcases eq_or_ne k buffer with rfl | hne
    · exact ⟨_, hwritten.data⟩
    · obtain ⟨x, hx⟩ := h.typed k ((hs.same k hne).owner.symm.trans hk)
      exact ⟨x, (dataOf_of_same (hs.same k hne)).trans hx⟩
  · rcases eq_or_ne k buffer with rfl | hne
    · exact .inr howner
    · exact (h.derived k hk).imp (free_of_same (hs.same k hne))
        fun howner => (hs.same k hne).owner.trans howner
  · rcases eq_or_ne k buffer with rfl | hne
    · cases hk.unique hwritten
    · obtain ⟨haddress, slot', numPrices'', prices'', hbuffer'⟩ :=
        h.config _ _ _ (hk.of_same' (hs.same k hne))
      refine ⟨haddress, ?_⟩
      rcases eq_or_ne buffer' buffer with rfl | hne'
      · cases hbuffer'.unique hbuffer
        exact ⟨_, _, _, hwritten⟩
      · exact ⟨_, _, _, hbuffer'.of_same (hs.same _ hne')⟩
  · rw [submissionsOf_concat]
    rcases eq_or_ne k buffer with rfl | hne
    · cases hk.unique hwritten
      rw [if_pos rfl]
      exact ⟨⟨key, hconfig hkey⟩, BitVec.le_refl _, hreads'⟩
    · obtain ⟨⟨key', hkey'⟩, hle', hreads''⟩ :=
        h.buffer _ _ _ _ _ (hk.of_same' (hs.same k hne))
      have hother : publisher ≠ publisher' := by
        rintro rfl
        exact hne (h.config_unique hkey hkey').2
      rw [if_neg hother]
      exact ⟨⟨key', hconfig hkey'⟩, hle', hreads''⟩
  · rcases List.mem_append.mp hmem with hmem | hmem
    · obtain ⟨key', buffer', hkey'⟩ := h.submitted s hmem
      exact ⟨key', buffer', hconfig hkey'⟩
    · obtain rfl := List.mem_singleton.mp hmem
      exact ⟨key, buffer, hconfig hkey⟩

/-! ## Every move keeps the invariant -/

/-- What an instruction that succeeds does, and what it submits. -/
inductive Effect (env : Env) (c : Chain) (ledger' : StoreLedger) : Option Submission → Prop
  | config {key authority : Pubkey} (h : CreatesConfig env c.ledger ledger' key authority) :
    Effect env c ledger' none
  | publisher {publisher key buffer : Pubkey}
    (h : CreatesPublisher env c.ledger ledger' publisher key buffer) : Effect env c ledger' none
  | prices {publisher key buffer : Pubkey} {newPrices : Bytes}
    (h : Submits env c.slot c.ledger ledger' publisher newPrices key buffer) :
    Effect env c ledger' (some ⟨publisher, c.slot, newPrices⟩)

/-- The first account signs. -/
def Call.SignedBy (call : Call) (publisher : Pubkey) : Prop :=
  ∃ account, call.accounts[0]? = some account ∧ account.isSigner = true ∧
    account.pubkey = publisher

theorem submission_eq_some {call : Call} {slot : U64} {s : Submission} :
    call.submission slot = some s ↔ ∃ publisher payload, call.accounts[0]? = some publisher ∧
      call.data = 1 :: payload ∧ s = ⟨publisher.pubkey, slot, payload.drop 1⟩ := by
  unfold Call.submission
  constructor
  · intro h
    split at h
    · next publisher payload haccount hdata =>
      cases h
      exact ⟨publisher, payload, haccount, hdata, rfl⟩
    · cases h
  · rintro ⟨publisher, payload, haccount, hdata, rfl⟩
    rw [haccount, hdata]
    rfl

theorem submission_eq_none {call : Call} {slot : U64} {tag : UInt8} {payload : Bytes}
    (hdata : call.data = tag :: payload) (htag : tag ≠ 1) : call.submission slot = none := by
  refine Option.eq_none_iff_forall_ne_some.mpr fun s hs => ?_
  obtain ⟨_, payload', -, hdata', -⟩ := submission_eq_some.mp hs
  cases hdata.symm.trans hdata'
  exact htag rfl

theorem parse_cases {data : Bytes} {instruction : Instruction}
    (h : Instruction.parse data = .ok instruction) :
    (∃ payload args, data = 0 :: payload ∧ instruction = .initializeConfig args) ∨
      (∃ payload args, data = 1 :: payload ∧
        instruction = .submitPrices args (payload.drop 1)) ∨
      ∃ payload args, data = 2 :: payload ∧ instruction = .initializePublisher args := by
  unfold Instruction.parse at h
  split at h
  · cases h
  · next payload =>
    obtain ⟨_, -, h⟩ := except_bind_eq_ok.mp h
    cases h
    exact .inl ⟨payload, _, rfl, rfl⟩
  · next payload =>
    obtain ⟨_, -, h⟩ := except_bind_eq_ok.mp h
    cases h
    exact .inr (.inl ⟨payload, _, rfl, rfl⟩)
  · next payload =>
    obtain ⟨_, -, h⟩ := except_bind_eq_ok.mp h
    cases h
    exact .inr (.inr ⟨payload, _, rfl, rfl⟩)
  · cases h

theorem exec_cases (htyped : Typed env c.ledger) {call : Call}
    (h : call.exec env c = .ok ledger') :
    Effect env c ledger' (call.submission c.slot) ∧
      ∀ s, call.submission c.slot = some s → call.SignedBy s.publisher := by
  obtain ⟨instruction, hparse, h⟩ := except_bind_eq_ok.mp h
  rcases parse_cases hparse with ⟨payload, args, hdata, rfl⟩ | ⟨payload, args, hdata, rfl⟩ |
    ⟨payload, args, hdata, rfl⟩
  · obtain ⟨key, hc⟩ := initializeConfig_cases h
    rw [submission_eq_none hdata (by decide)]
    refine ⟨.config hc, fun s hs => ?_⟩
    cases hs
  · obtain ⟨publisher, key, buffer, haccount, hsigner, hs⟩ := submitPrices_cases htyped h
    have hsubmission : call.submission c.slot
        = some ⟨publisher.pubkey, c.slot, payload.drop 1⟩ :=
      submission_eq_some.mpr ⟨publisher, payload, haccount, hdata, rfl⟩
    rw [hsubmission]
    refine ⟨.prices hs, fun s hs => ?_⟩
    cases hs
    exact ⟨publisher, haccount, hsigner, rfl⟩
  · obtain ⟨key, buffer, hc⟩ := initializePublisher_cases htyped h
    rw [submission_eq_none hdata (by decide)]
    refine ⟨.publisher hc, fun s hs => ?_⟩
    cases hs

theorem inv_effect {s : Option Submission} (h : Inv env c) (heffect : Effect env c ledger' s) :
    Inv env { c with ledger := ledger', submissions := c.submissions ++ s.toList } := by
  cases heffect with
  | config hc =>
    rw [Option.toList_none, List.append_nil]
    exact inv_createsConfig h hc
  | publisher hc =>
    rw [Option.toList_none, List.append_nil]
    exact inv_createsPublisher h hc
  | prices hs => exact inv_submits h hs

theorem inv_move {c' : Chain} (h : Inv env c) (hmove : Move env c c') : Inv env c' := by
  cases hmove with
  | clock hslot => exact inv_clock h hslot
  | foreign hforeign => exact inv_foreign h hforeign
  | call call =>
    unfold Chain.call
    split
    · next ledger' hexec => exact inv_effect h (exec_cases h.typed hexec).1
    · exact h

theorem inv_fresh {slot : U64} (h : Fresh env ledger) : Inv env ⟨slot, ledger, []⟩ where
  typed k hk := by
    obtain ⟨size, hsize⟩ := h.blank k hk
    exact ⟨_, hsize.data⟩
  derived k hk := .inl (h.derived k hk)
  config k publisher buffer hk := by
    obtain ⟨size, hsize⟩ := h.blank k hk.owner
    cases hk.unique hsize
  buffer k publisher slot numPrices prices hk := by
    obtain ⟨size, hsize⟩ := h.blank k hk.owner
    cases hk.unique hsize
  submitted := List.forall_mem_nil _

theorem inv_of_reached {start : StoreLedger} (hstart : Fresh env start)
    (h : Reached env start c) : Inv env c := by
  obtain ⟨slot, hrun⟩ := h
  induction hrun with
  | refl => exact inv_fresh hstart
  | tail _ hmove ih => exact inv_move ih hmove

/-! ## The law -/

/-- The account is a buffer that the program has written the header of. -/
def IsBuffer (env : Env) (ledger : StoreLedger) (key : Pubkey) : Prop :=
  (ledger key).owner = env.programId ∧ Buffer.formatMatches (dataOf ledger key) = true

def IsPublisherConfig (env : Env) (ledger : StoreLedger) (key : Pubkey)
    (config : PublisherConfig) : Prop :=
  (ledger key).owner = env.programId ∧ PublisherConfig.read (dataOf ledger key) = .ok config

def IsConfig (env : Env) (ledger : StoreLedger) (key : Pubkey) : Prop :=
  (ledger key).owner = env.programId ∧ ∃ config, Config.read (dataOf ledger key) = .ok config

/-- What holds of the accounts in a state of a run. -/
structure StoreLaw (env : Env) (c : Chain) : Prop where
  /-- Every buffer belongs to one publisher config. -/
  config : ∀ buffer, IsBuffer env c.ledger buffer →
    ∃! key, ∃ config, IsPublisherConfig env c.ledger key config ∧ config.bufferAccount = buffer
  /-- Every publisher config has one buffer, which is a buffer of its publisher. -/
  buffer : ∀ key config, IsPublisherConfig env c.ledger key config →
    ∃! buffer, IsBuffer env c.ledger buffer ∧ config.bufferAccount = buffer ∧
      ∃ header prices, Buffer.read (dataOf c.ledger buffer) = .ok (header, prices) ∧
        header.publisher = config.publisher
  /-- A buffer is read, and has the prices of its publisher since the first submission in its
  slot. -/
  reads : ∀ buffer, IsBuffer env c.ledger buffer → ∃ header,
    Buffer.read (dataOf c.ledger buffer) = .ok (header,
      (since header.slot (c.submissionsOf header.publisher)).flatMap fun s =>
        castSlice s.prices)

/-- What an instruction that succeeds in a state of a run leaves alone. -/
structure CallLaw (env : Env) (c : Chain) (call : Call) (ledger' : StoreLedger) : Prop where
  /-- A buffer is only changed by a submission of its publisher, which has signed it. -/
  signed : ∀ buffer header prices, IsBuffer env c.ledger buffer →
    Buffer.read (dataOf c.ledger buffer) = .ok (header, prices) →
    dataOf ledger' buffer ≠ dataOf c.ledger buffer →
    (∃ s, call.submission c.slot = some s ∧ s.publisher = header.publisher) ∧
      call.SignedBy header.publisher
  /-- The config is not changed. -/
  config : ∀ key, IsConfig env c.ledger key → Ledger.Same c.ledger ledger' key
  /-- No publisher config is changed. -/
  publisherConfig : ∀ key config, IsPublisherConfig env c.ledger key config →
    Ledger.Same c.ledger ledger' key

theorem formatMatches_bytes : Buffer.formatMatches x.bytes = true ↔
    ∃ publisher slot numPrices prices, x = .buffer publisher slot numPrices prices := by
  unfold Buffer.formatMatches
  split
  · next hlength =>
    refine iff_of_false (fun h => (by cases h)) ?_
    rintro ⟨publisher, slot, numPrices, prices, rfl⟩
    rw [Stored.bytes, List.length_append, Stored.length_header] at hlength
    exact absurd hlength (not_lt.mpr ((by decide : 4 ≤ BufferHeader.SIZE).trans
      (Nat.le_add_right _ _)))
  · next hlength =>
    rw [Stored.uintAt_bytes (not_lt.mp hlength), decide_eq_true_eq]
    exact Stored.format_eq_buffer

theorem isBuffer_iff (htyped : Typed env ledger) : IsBuffer env ledger k ↔
    ∃ publisher slot numPrices prices,
      Holds env ledger k (.buffer publisher slot numPrices prices) := by
  constructor
  · rintro ⟨howner, hformat⟩
    obtain ⟨x, hx⟩ := htyped k howner
    rw [hx, formatMatches_bytes] at hformat
    obtain ⟨publisher, slot, numPrices, prices, rfl⟩ := hformat
    exact ⟨publisher, slot, numPrices, prices, howner, hx⟩
  · rintro ⟨publisher, slot, numPrices, prices, hk⟩
    refine ⟨hk.owner, ?_⟩
    rw [hk.data, formatMatches_bytes]
    exact ⟨publisher, slot, numPrices, prices, rfl⟩

theorem isPublisherConfig_iff (htyped : Typed env ledger) {config : PublisherConfig} :
    IsPublisherConfig env ledger k config ↔
      Holds env ledger k (.publisherConfig config.publisher config.bufferAccount) ∧
        config.format = PublisherConfig.FORMAT := by
  constructor
  · rintro ⟨howner, hread⟩
    obtain ⟨x, hx⟩ := htyped k howner
    rw [hx, Stored.publisherConfigRead_eq_ok] at hread
    exact ⟨⟨howner, hx.trans (congrArg Stored.bytes hread.1)⟩, hread.2⟩
  · rintro ⟨hk, hformat⟩
    refine ⟨hk.owner, ?_⟩
    rw [hk.data, Stored.publisherConfigRead_eq_ok]
    exact ⟨rfl, hformat⟩

theorem isConfig_iff (htyped : Typed env ledger) :
    IsConfig env ledger k ↔ ∃ authority, Holds env ledger k (.config authority) := by
  constructor
  · rintro ⟨howner, config, hread⟩
    obtain ⟨x, hx⟩ := htyped k howner
    rw [hx, Stored.configRead_eq_ok] at hread
    exact ⟨config.authority, howner, hx.trans (congrArg Stored.bytes hread.1)⟩
  · rintro ⟨authority, hk⟩
    refine ⟨hk.owner, { format := Config.FORMAT, authority }, ?_⟩
    rw [hk.data, Stored.configRead_eq_ok]
    exact ⟨rfl, rfl⟩

/-- What a buffer is read as. -/
theorem Inv.read_buffer (h : Inv env c) {publisher : Pubkey} {slot : U64} {numPrices : U32}
    {prices : Bytes} (hk : Holds env c.ledger k (.buffer publisher slot numPrices prices)) :
    Buffer.read (dataOf c.ledger k) = .ok (Stored.header publisher slot numPrices,
      (since slot (c.submissionsOf publisher)).flatMap fun s => castSlice s.prices) := by
  rw [hk.data]
  exact read_of_readsBack (h.buffer _ _ _ _ _ hk).2.2

theorem storeLaw_of_inv (h : Inv env c) : StoreLaw env c := by
  refine ⟨fun buffer hbuffer => ?_, fun key config hconfig => ?_, fun buffer hbuffer => ?_⟩
  · obtain ⟨publisher, slot, numPrices, prices, hk⟩ := (isBuffer_iff h.typed).mp hbuffer
    obtain ⟨⟨key, hkey⟩, -⟩ := h.buffer _ _ _ _ _ hk
    refine ⟨key, ⟨⟨PublisherConfig.FORMAT, publisher, buffer⟩,
      (isPublisherConfig_iff h.typed).mpr ⟨hkey, rfl⟩, rfl⟩, ?_⟩
    rintro key' ⟨config, hconfig, rfl⟩
    obtain ⟨hkey', -⟩ := (isPublisherConfig_iff h.typed).mp hconfig
    obtain ⟨-, slot', numPrices', prices', hk'⟩ := h.config _ _ _ hkey'
    cases hk.unique hk'
    exact (h.config_unique hkey hkey').1
  · obtain ⟨hkey, -⟩ := (isPublisherConfig_iff h.typed).mp hconfig
    obtain ⟨-, slot, numPrices, prices, hk⟩ := h.config _ _ _ hkey
    refine ⟨config.bufferAccount, ⟨(isBuffer_iff h.typed).mpr ⟨_, _, _, _, hk⟩, rfl, _, _,
      h.read_buffer hk, rfl⟩, ?_⟩
    rintro buffer ⟨-, hbuffer, -⟩
    exact hbuffer.symm
  · obtain ⟨publisher, slot, numPrices, prices, hk⟩ := (isBuffer_iff h.typed).mp hbuffer
    exact ⟨_, h.read_buffer hk⟩

/-- An instruction writes to blank accounts, and to the buffer of a publisher that submits. -/
theorem written_cases {s : Option Submission} (h : Inv env c)
    (heffect : Effect env c ledger' s) (k : Pubkey) :
    Ledger.Same c.ledger ledger' k ∨ c.ledger.Free k ∨
      (∃ size, Holds env c.ledger k (.blank size)) ∨
      ∃ publisher slot numPrices prices newPrices, s = some ⟨publisher, c.slot, newPrices⟩ ∧
        Holds env c.ledger k (.buffer publisher slot numPrices prices) := by
  cases heffect with
  | @config key authority hc =>
    rcases eq_or_ne k key with rfl | hne
    · exact .inr (.inl hc.free)
    · exact .inl (hc.same k hne)
  | @publisher publisher key buffer hc =>
    rcases eq_or_ne k key with rfl | hkey
    · exact .inr (.inl hc.free)
    · rcases eq_or_ne k buffer with rfl | hbuffer
      · exact .inr (.inr (.inl hc.blank))
      · exact .inl (hc.same k hkey hbuffer)
  | @prices publisher key buffer newPrices hs =>
    rcases eq_or_ne k buffer with rfl | hne
    · obtain ⟨-, slot, numPrices, prices, hk⟩ := hs.held h
      exact .inr (.inr (.inr ⟨_, _, _, _, _, rfl, hk⟩))
    · exact .inl (hs.same k hne)

/-- What is neither blank nor a buffer is not written. -/
theorem same_of_effect {s : Option Submission} (h : Inv env c)
    (heffect : Effect env c ledger' s) (hk : Holds env c.ledger k x)
    (hblank : ∀ size, x ≠ .blank size)
    (hbuffer : ∀ publisher slot numPrices prices, x ≠ .buffer publisher slot numPrices prices) :
    Ledger.Same c.ledger ledger' k := by
  rcases written_cases h heffect k with hsame | hfree | ⟨size, hsize⟩ |
    ⟨publisher, slot, numPrices, prices, _, -, hheld⟩
  · exact hsame
  · exact absurd (hk.eq_blank_of_free hfree) (hblank 0)
  · exact absurd (hk.unique hsize) (hblank size)
  · exact absurd (hk.unique hheld) (hbuffer _ _ _ _)

theorem callLaw_of_inv (h : Inv env c) {call : Call} (hexec : call.exec env c = .ok ledger') :
    CallLaw env c call ledger' := by
  obtain ⟨heffect, hsigned⟩ := exec_cases h.typed hexec
  refine ⟨fun buffer header prices hbuffer hread hchanged => ?_, fun key hconfig => ?_,
    fun key config hconfig => ?_⟩
  · obtain ⟨publisher, slot, numPrices, prices, hk⟩ := (isBuffer_iff h.typed).mp hbuffer
    cases (h.read_buffer hk).symm.trans hread
    rcases written_cases h heffect buffer with hsame | hfree | ⟨size, hsize⟩ |
      ⟨publisher', slot', numPrices', prices', newPrices, hs, hheld⟩
    · exact absurd (dataOf_of_same hsame) hchanged
    · cases hk.eq_blank_of_free hfree
    · cases hk.unique hsize
    · cases hk.unique hheld
      exact ⟨⟨_, hs, rfl⟩, hsigned _ hs⟩
  · obtain ⟨authority, hk⟩ := (isConfig_iff h.typed).mp hconfig
    refine same_of_effect h heffect hk (fun size hx => ?_)
      fun publisher slot numPrices prices hx => ?_
    · cases hx
    · cases hx
  · obtain ⟨hk, -⟩ := (isPublisherConfig_iff h.typed).mp hconfig
    refine same_of_effect h heffect hk (fun size hx => ?_)
      fun publisher slot numPrices prices hx => ?_
    · cases hx
    · cases hx

/-- In every state of every run, publisher configs and buffers belong together one to one, and a
buffer is read as what its publisher has submitted in its slot. The next instruction only changes
a buffer when its publisher has signed it, and no config. -/
theorem price_store {start : StoreLedger} (hstart : Fresh env start)
    (hreached : Reached env start c) :
    StoreLaw env c ∧ ∀ call ledger', Call.exec env call c = .ok ledger' →
      CallLaw env c call ledger' :=
  have h := inv_of_reached hstart hreached
  ⟨storeLaw_of_inv h, fun _ _ hexec => callLaw_of_inv h hexec⟩

end

/-! ### A run with three submissions -/

def exProgramId : Pubkey :=
  HashArray.ofNat 32 0x29039357dc9e9b30c0e5b60966d4b2d4975a8a46489a66f216fd5fde52aec59d
def exConfigKey : Pubkey :=
  HashArray.ofNat 32 0xba7f7238867ff7fef893046ffe49d839ac940ff024b3fa43d4cf2592fc0a795d
def exPublisherConfigKey : Pubkey :=
  HashArray.ofNat 32 0x438d265d94aadfa134943390bbf621889dd68eaaabc9fec92e6da2b37a577539

def exPublisherKey : Pubkey := HashArray.filled 32 17
def exAuthorityKey : Pubkey := HashArray.filled 32 34
def exBufferKey : Pubkey := HashArray.filled 32 51

/-- The addresses of the config and of the publisher config, with the bump 255. -/
def exCreateProgramAddress (seeds : List Bytes) (programId : Pubkey) : Option Pubkey :=
  if programId = exProgramId ∧ seeds = [CONFIG_SEED, [255]] then some exConfigKey
  else if programId = exProgramId ∧ seeds = [PUBLISHER_CONFIG_SEED, exPublisherKey.val, [255]] then
    some exPublisherConfigKey
  else none

def exEnv : Env where
  programId := exProgramId
  createProgramAddress := exCreateProgramAddress
  minimumBalance size := (size + 128) * 6960

/-- The account of the buffer has room for three prices. -/
def exStart : StoreLedger := fun key =>
  if key = exBufferKey then
    { owner := exProgramId, lamports := 2000000, data := .raw (List.replicate 108 0) }
  else if key = exAuthorityKey then { lamports := 1000000000 }
  else {}

def exPrice (feedIndex price : ℕ) : Bytes :=
  bytesLE 4 (2 ^ 29 + feedIndex) ++ bytesLE 8 price ++ bytesLE 8 3

def exAccount (pubkey : Pubkey) : AccountMeta := { pubkey, isSigner := false, isWritable := true }
def exSigner (pubkey : Pubkey) : AccountMeta := { pubkey, isSigner := true, isWritable := true }

def exInitialize : Call where
  accounts := [exSigner exAuthorityKey, exAccount exConfigKey, exAccount SYSTEM_PROGRAM_ID]
  data := [0, 255] ++ exAuthorityKey.val

def exInitializePublisher : Call where
  accounts := [exSigner exAuthorityKey, exAccount exConfigKey, exAccount exPublisherConfigKey,
    exAccount exBufferKey, exAccount SYSTEM_PROGRAM_ID]
  data := [2, 255, 255] ++ exPublisherKey.val

def exSubmit (prices : Bytes) : Call where
  accounts := [exSigner exPublisherKey, exAccount exPublisherConfigKey, exAccount exBufferKey]
  data := [1, 255] ++ prices

/-- A submission in the slot 4, and two in the slot 5. -/
def exChain : Chain :=
  let before := [exInitialize, exInitializePublisher, exSubmit (exPrice 1 100)].foldl
    (Chain.call exEnv) ⟨4, exStart, []⟩
  [exSubmit (exPrice 1 200), exSubmit (exPrice 2 300)].foldl (Chain.call exEnv)
    { before with slot := 5 }

theorem reached_calls {env : Env} {c : Chain} {start : StoreLedger} (h : Reached env start c)
    (calls : List Call) : Reached env start (calls.foldl (Chain.call env) c) := by
  induction calls generalizing c with
  | nil => exact h
  | cons call calls ih =>
    obtain ⟨slot, hrun⟩ := h
    exact ih ⟨slot, hrun.tail (.call call)⟩

theorem exChain_reached : Reached exEnv exStart exChain := by
  have hfirst : Reached exEnv exStart ⟨4, exStart, []⟩ := ⟨4, .refl⟩
  obtain ⟨slot, hrun⟩ := reached_calls hfirst
    [exInitialize, exInitializePublisher, exSubmit (exPrice 1 100)]
  exact reached_calls ⟨slot, hrun.tail (.clock (by decide +kernel))⟩ _

theorem exStart_fresh : Fresh exEnv exStart := by
  constructor
  · intro k hk
    unfold exStart at hk
    split at hk
    · next hbuffer =>
      subst hbuffer
      exact ⟨108, rfl, by decide +kernel⟩
    · split at hk
      · exact absurd hk (by decide)
      · exact absurd hk (by decide)
  · rintro k ⟨seeds, hseeds⟩
    unfold exEnv exCreateProgramAddress at hseeds
    dsimp only at hseeds
    split at hseeds
    · cases hseeds
      decide
    · split at hseeds
      · cases hseeds
        decide
      · cases hseeds

/-- The buffer has the two prices of the slot 5. -/
theorem price_store_example :
    Fresh exEnv exStart ∧ Reached exEnv exStart exChain ∧
      IsBuffer exEnv exChain.ledger exBufferKey ∧
      Buffer.read (dataOf exChain.ledger exBufferKey)
        = .ok (Stored.header exPublisherKey 5 2, [⟨536870913, 200, 3⟩, ⟨536870914, 300, 3⟩]) ∧
      StoreLaw exEnv exChain ∧ ∀ call ledger', Call.exec exEnv call exChain = .ok ledger' →
        CallLaw exEnv exChain call ledger' := by
  refine ⟨exStart_fresh, exChain_reached, ⟨by decide +kernel, by decide +kernel⟩, ?_,
    price_store exStart_fresh exChain_reached⟩
  exact except_toOption_eq_some.mp (by decide +kernel)

end PythCrosschain.PriceStore
