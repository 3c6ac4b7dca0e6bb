import Mathlib.Logic.Relation
import Mathlib.Order.Lattice

/-!
# Chains of blocks and their reorganisations

A `BlockChain` is the state after each block, from a genesis state on. A node shows a chain
and the number of a confirmed block (`View`). Later it may show another chain, longer or
shorter, but blocks that are at least `delay` below a block that was ever confirmed stay
(`View.Next`). The results are:

- `BlockChain.invariant`, `BlockChain.le_of_le`: what every block preserves;
- `BlockChain.exists_crossing`: a counter that has passed a number passed it in some block;
- `View.Next.stateAt_eq`: settled blocks are the same in all later views.
-/

namespace PythCrosschain

/-- The states that a chain may start from, and those that a block of a given number may
lead to. -/
structure BlockRules (σ : Type) where
  genesis : σ → Prop
  block : Nat → σ → σ → Prop

/-- The state after each block. Block `n + 1` leads from the state after block `n` to the
next one. -/
structure BlockChain {σ : Type} (R : BlockRules σ) where
  stateAt : Nat → σ
  latest : Nat
  starts : R.genesis (stateAt 0)
  follows : ∀ n < latest, R.block (n + 1) (stateAt n) (stateAt (n + 1))

namespace BlockChain

variable {σ : Type} {R : BlockRules σ}

/-- Both chains have the blocks up to `n`, and these lead to the same states. -/
structure Agree (c d : BlockChain R) (n : Nat) : Prop where
  left : n ≤ c.latest
  right : n ≤ d.latest
  same : ∀ i ≤ n, c.stateAt i = d.stateAt i

variable {c d : BlockChain R} {n : Nat}

/-- The induction rule: what holds at the start and is preserved by every block holds after
every block. -/
theorem invariant {P : Nat → σ → Prop} (init : ∀ s, R.genesis s → P 0 s)
    (step : ∀ i s s', P i s → R.block (i + 1) s s' → P (i + 1) s') (h : n ≤ c.latest) :
    P n (c.stateAt n) := by
  induction n with
  | zero => exact init _ c.starts
  | succ n ih => exact step n _ _ (ih (Nat.le_of_succ_le h)) (c.follows n h)

variable {count : σ → Nat}

/-- A count that no block lowers is no smaller after a later block. -/
theorem le_of_le (grows : ∀ i s s', R.block i s s' → count s ≤ count s') {m : Nat} (hm : m ≤ n)
    (h : n ≤ c.latest) : count (c.stateAt m) ≤ count (c.stateAt n) := by
  induction hm with
  | refl => exact Nat.le_refl _
  | @step k hk ih =>
    exact Nat.le_trans (ih (Nat.le_of_succ_le h)) (grows _ _ _ (c.follows k h))

/-- A number that the count has passed was passed by one of the blocks. -/
theorem exists_crossing {m : Nat} (init : ∀ s, R.genesis s → count s ≤ m)
    (hm : m < count (c.stateAt n)) :
    ∃ i < n, count (c.stateAt i) ≤ m ∧ m < count (c.stateAt (i + 1)) := by
  induction n with
  | zero => exact absurd (init _ c.starts) (Nat.not_le_of_gt hm)
  | succ n ih =>
    by_cases before : m < count (c.stateAt n)
    · obtain ⟨i, hi, crossed⟩ := ih before
      exact ⟨i, Nat.lt_succ_of_lt hi, crossed⟩
    · exact ⟨n, Nat.lt_succ_self n, Nat.le_of_not_gt before, hm⟩

end BlockChain

/-- What a node shows: a chain and the number of its confirmed block. `settled` is the
highest block that was ever `delay` below the confirmed one. -/
structure View {σ : Type} (R : BlockRules σ) (delay : Nat) where
  chain : BlockChain R
  confirmed : Nat
  settled : Nat
  delay_le : delay ≤ confirmed
  confirmed_le : confirmed ≤ chain.latest
  le_settled : confirmed - delay ≤ settled
  settled_le : settled ≤ chain.latest

namespace View

variable {σ : Type} {R : BlockRules σ} {delay : Nat} {v v' : View R delay}

/-- Blocks are added, or replaced by a reorganisation, and the confirmed block moves. No
block up to the settled one is replaced. -/
structure Next (v v' : View R delay) : Prop where
  agree : v.chain.Agree v'.chain v.settled
  settled : v'.settled = max v.settled (v'.confirmed - delay)

theorem Next.settled_mono (h : v.Next v') : v.settled ≤ v'.settled := by
  rw [h.settled]
  exact Nat.le_max_left _ _

theorem Next.stateAt_eq (h : v.Next v') {n : Nat} (hn : n ≤ v.settled) :
    v.chain.stateAt n = v'.chain.stateAt n :=
  h.agree.same n hn

end View

end PythCrosschain
