import Mathlib.Data.List.Nodup
import PythCrosschain.Entropy.ChainPosition

/-!
# Entropy: a request binds its random number

From the moment a request is stored, only one pair of revelations opens it: the
preimage of the user's commitment, and the value that hashes in `numHashes`
steps to the commitment the provider had at that moment. `Origin` keeps, for
every request, the world and the call that made it; `BoundReveals` keeps, for
every reveal, that it opened the commitment.

Result: `entropy_binding`: all reveals of one request, in any two continuations
of a run, give the same random number.
-/

namespace PythCrosschain.Entropy

section

variable (keccak256 : Bytes → Bytes32)

/-- `req` was made by a call in the world `w₀`, before all that `w` has added to
`w₀`'s requests, and the string that its commitment hashes is among `w`'s. -/
structure Origin (w w₀ : World) (userCommitment : Bytes32) (req : Request) : Prop where
  reachable : (component keccak256).FlatReachable w₀
  made : ∃ env, MadeIn keccak256 w₀ env userCommitment req
  hashed : commitmentPreimage userCommitment
    (w₀.state.chains req.provider).currentCommitment ∈ w.hashed
  before : req :: w₀.requests <:+ w.requests

/-- Where requests come from, and what reveals opened. -/
structure Bound (w : World) : Prop where
  origin : ∀ req ∈ w.requests, ∃ w₀ userCommitment, Origin keccak256 w w₀ userCommitment req
  opened : ∀ rv ∈ w.reveals, Opens keccak256 rv ∧ openingPreimages keccak256 rv ⊆ w.hashed

end

section

variable {keccak256 : Bytes → Bytes32}

theorem Origin.mono {w w' w₀ : World} {userCommitment : Bytes32} {req : Request}
    (h : Origin keccak256 w w₀ userCommitment req) (hhashed : w.hashed ⊆ w'.hashed)
    (hrequests : w.requests <:+ w'.requests) : Origin keccak256 w' w₀ userCommitment req :=
  ⟨h.reachable, h.made, hhashed h.hashed, h.before.trans hrequests⟩

/-- What a world remembers of an earlier one. -/
theorem requests_suffix {w w' : World} (h : w.logs <:+ w'.logs) : w.requests <:+ w'.requests := by
  obtain ⟨new, hnew⟩ := h
  exact ⟨new.filterMap Event.request?, by rw [World.requests, World.requests, ← hnew,
    List.filterMap_append]⟩

theorem Bound.step {w w' : World} (hw : (component keccak256).FlatReachable w)
    (h : Bound keccak256 w) (he : Effect keccak256 w w') : Bound keccak256 w' := by
  have hsuffix := requests_suffix he.logs
  have hopened : ∀ rv ∈ w.reveals,
      Opens keccak256 rv ∧ openingPreimages keccak256 rv ⊆ w'.hashed :=
    fun rv hrv => ⟨(h.opened rv hrv).1, List.Subset.trans (h.opened rv hrv).2 he.hashed⟩
  have horigin : ∀ req ∈ w.requests, ∃ w₀ userCommitment,
      Origin keccak256 w' w₀ userCommitment req := by
    intro req hreq
    obtain ⟨w₀, uc, ho⟩ := h.origin req hreq
    exact ⟨w₀, uc, ho.mono he.hashed hsuffix⟩
  rcases he.change.requests_cases with ⟨-, hrequests, hreveals⟩ |
    ⟨req, env, uc, next, hreq⟩ | ⟨rv, hrv⟩
  · exact ⟨fun r hr => horigin r (hrequests ▸ hr), fun rv hrv => hopened rv (hreveals ▸ hrv)⟩
  · refine ⟨fun r hr => ?_, fun rv hrv => hopened rv (hreq.reveals ▸ hrv)⟩
    rw [hreq.requests] at hr
    rcases List.mem_cons.mp hr with rfl | hr
    · exact ⟨w, uc, hw, ⟨env, hreq.made⟩, hreq.hashed,
        hreq.requests ▸ List.suffix_refl w'.requests⟩
    · exact horigin r hr
  · refine ⟨fun r hr => horigin r (hrv.requests ▸ hr), fun r hr => ?_⟩
    rw [hrv.reveals] at hr
    rcases List.mem_cons.mp hr with rfl | hr
    · exact ⟨hrv.opens, hrv.hashed⟩
    · exact hopened r hr

theorem flatReachable_bound {w : World} (h : (component keccak256).FlatReachable w) :
    Bound keccak256 w := by
  refine h.invariant (fun w hw => ⟨?_, ?_⟩) fun _ _ hw hb hm => hb.step hw (move_effect hm)
  · simp [World.requests, (initial_table hw).2.2]
  · simp [World.reveals, (initial_table hw).2.2]

/-- The strings hashed in some of the worlds that a run went through. -/
def hashedIn (ws : List World) : Set Bytes := {s | ∃ w ∈ ws, s ∈ w.hashed}

/-- Two openings of one commitment have the same revelations. -/
theorem opens_unique {S : Set Bytes} (hno : NoCollision keccak256 S) {rv₁ rv₂ : Reveal}
    (hreq : rv₁.request = rv₂.request)
    (h₁ : Opens keccak256 rv₁) (hs₁ : ∀ s ∈ openingPreimages keccak256 rv₁, s ∈ S)
    (h₂ : Opens keccak256 rv₂) (hs₂ : ∀ s ∈ openingPreimages keccak256 rv₂, s ∈ S) :
    rv₁.userRevelation = rv₂.userRevelation ∧
      rv₁.providerRevelation = rv₂.providerRevelation := by
  have hpreimage := hno (hs₁ _ (List.mem_cons_of_mem _ List.mem_cons_self))
    (hs₂ _ (List.mem_cons_of_mem _ List.mem_cons_self))
    (h₁.commitment.symm.trans ((congrArg Request.commitment hreq).trans h₂.commitment))
  obtain ⟨huser, hprovider⟩ := wordBytes_append_inj hpreimage
  constructor
  · exact wordBytes_inj.mp (hno (hs₁ _ List.mem_cons_self) (hs₂ _ List.mem_cons_self) huser)
  · rw [hreq] at hprovider
    refine walk_start_unique hno (fun s hs => ?_) (fun s hs => ?_) hprovider
    · exact hs₁ s (List.mem_cons_of_mem _ (List.mem_cons_of_mem _ (hreq ▸ hs)))
    · exact hs₂ s (List.mem_cons_of_mem _ (List.mem_cons_of_mem _ hs))

/-- A reveal of the key of `req`, in a world that remembers `req` being made,
is a reveal of `req`. -/
theorem reveal_request {w w' : World} (hw : (component keccak256).FlatReachable w')
    (hlogs : w.logs <:+ w'.logs) {req : Request} (hreq : req ∈ w.requests) {rv : Reveal}
    (hrv : rv ∈ w'.reveals) (hkey : rv.key = req.key) : rv.request = req := by
  have hhist := flatReachable_history hw
  exact List.inj_on_of_nodup_map hhist.distinct (hhist.revealed rv hrv)
    ((requests_suffix hlogs).mem hreq) hkey

/-- A request in flight binds its random number. `c` is any reachable
configuration and `req` a request in flight there that does not use the block
hash; `c₁` and `c₂` are continuations of the run in which the call that made
`req` was not rolled back. Provided that the strings hashed up to there do not
collide, every reveal of the request opened it with the preimage of the user's
commitment and with the value that hashes in `numHashes` steps to the
commitment that the provider had when `req` was made, and all reveals give the
same random number. -/
theorem entropy_binding {c : Config World Pending} (hc : (component keccak256).Reachable c)
    {provider : Address} {n : Uint64} {req : Request}
    (hreq : InFlight keccak256 c.state.state provider n req)
    (hblockhash : req.useBlockhash = false) :
    ∃ w₀ userCommitment, Origin keccak256 c.state w₀ userCommitment req ∧
      ∀ c₁, Relation.ReflTransGen (component keccak256).Step c c₁ →
      c.state.logs <:+ c₁.state.logs →
      ∀ rv₁ ∈ c₁.state.reveals, rv₁.key = (provider, n) →
        (NoCollision keccak256 (hashedIn [c.state, c₁.state]) →
          constructUserCommitment keccak256 rv₁.userRevelation = userCommitment ∧
          (hashWord keccak256)^[req.numHashes.toNat] rv₁.providerRevelation =
            (w₀.state.providers provider).currentCommitment) ∧
        ∀ c₂, Relation.ReflTransGen (component keccak256).Step c c₂ →
        c.state.logs <:+ c₂.state.logs →
        ∀ rv₂ ∈ c₂.state.reveals, rv₂.key = (provider, n) →
          NoCollision keccak256 (hashedIn [c₁.state, c₂.state]) →
          rv₁.randomNumber = rv₂.randomNumber := by
  have hlookup := inFlight_iff.mp hreq
  have hmem : req ∈ c.state.requests := (flatReachable_history hc.flat).inFlight.lookup hlookup
  have hkey : req.key = (provider, n) := (Table.lookup_eq_some.mp hlookup).2.1
  have hprovider : req.provider = provider := congrArg Prod.fst hkey
  obtain ⟨w₀, uc, horigin⟩ := (flatReachable_bound hc.flat).origin req hmem
  refine ⟨w₀, uc, horigin, fun c₁ hsteps₁ hlogs₁ rv₁ hrv₁ hkey₁ => ?_⟩
  have hc₁ := (hc.steps hsteps₁).flat
  have hreq₁ := reveal_request hc₁ hlogs₁ hmem hrv₁ (hkey₁.trans hkey.symm)
  obtain ⟨hopens₁, hsub₁⟩ := (flatReachable_bound hc₁).opened rv₁ hrv₁
  constructor
  · intro hno
    obtain ⟨env, hmade⟩ := horigin.made
    have hpreimage := hno ⟨c₁.state, by simp, hsub₁ (List.mem_cons_of_mem _ List.mem_cons_self)⟩
      ⟨c.state, by simp, horigin.hashed⟩
      (hopens₁.commitment.symm.trans ((congrArg Request.commitment hreq₁).trans hmade.commitment))
    obtain ⟨huser, hchain⟩ := wordBytes_append_inj hpreimage
    rw [hreq₁, hprovider] at hchain
    exact ⟨huser, hchain⟩
  · intro c₂ hsteps₂ hlogs₂ rv₂ hrv₂ hkey₂ hno
    have hc₂ := (hc.steps hsteps₂).flat
    have hreq₂ := reveal_request hc₂ hlogs₂ hmem hrv₂ (hkey₂.trans hkey.symm)
    obtain ⟨hopens₂, hsub₂⟩ := (flatReachable_bound hc₂).opened rv₂ hrv₂
    obtain ⟨huser, hchain⟩ := opens_unique hno (hreq₁.trans hreq₂.symm)
      hopens₁ (fun s hs => ⟨c₁.state, by simp, hsub₁ hs⟩)
      hopens₂ (fun s hs => ⟨c₂.state, by simp, hsub₂ hs⟩)
    rw [hopens₁.randomNumber (by rw [hreq₁, hblockhash]),
      hopens₂.randomNumber (by rw [hreq₂, hblockhash]), huser, hchain]

end

/-! ## A run -/

def exReveal : Reveal where
  request := exRequest
  userRevelation := 33
  providerRevelation := exChain 1
  randomNumber := combineRandomValues exKeccak 33 (exChain 1) 0

theorem exRequest_inFlight : InFlight exKeccak exInFlight.state 7 1 exRequest :=
  inFlight_iff.mpr (by decide +kernel)

theorem exRevealed_steps : Relation.ReflTransGen (component exKeccak).Step
    ⟨exInFlight, []⟩ ⟨exRevealed, []⟩ :=
  Component.steps_perform _ _ _ _

theorem exRevealed_logs : exInFlight.logs <:+ exRevealed.logs :=
  ⟨exRevealed.logs.take 1, by decide +kernel⟩

theorem exRevealed_hashed :
    NoCollision exKeccak (hashedIn [exInFlight, exRevealed]) := by
  have hsub : ∀ s ∈ exInFlight.hashed, s ∈ exRevealed.hashed := by decide +kernel
  refine Set.InjOn.mono ?_ exRevealed_noCollision
  rintro s ⟨w, hw, hs⟩
  rcases List.mem_cons.mp hw with h | hw
  · rw [h] at hs
    exact hsub s hs
  · rw [List.mem_singleton.mp hw] at hs
    exact hs

/-- User 9 made its commitment from 33, and the provider revealed the value
after the head of its chain. -/
theorem entropy_binding_run :
    ∃ w₀ userCommitment, Origin exKeccak exInFlight w₀ userCommitment exRequest ∧
      constructUserCommitment exKeccak 33 = userCommitment ∧
      hashWord exKeccak (exChain 1) = (w₀.state.providers 7).currentCommitment := by
  have hreveal : exReveal ∈ exRevealed.reveals := by decide +kernel
  have hkey : exReveal.key = (7, 1) := by decide +kernel
  obtain ⟨w₀, uc, horigin, hreveals⟩ :=
    entropy_binding exInFlight_reachable exRequest_inFlight rfl
  have hrevealed := hreveals ⟨exRevealed, []⟩ exRevealed_steps
  dsimp only at hrevealed
  obtain ⟨hopened, -⟩ := hrevealed exRevealed_logs exReveal hreveal hkey
  exact ⟨w₀, uc, horigin, hopened exRevealed_hashed⟩

end PythCrosschain.Entropy
