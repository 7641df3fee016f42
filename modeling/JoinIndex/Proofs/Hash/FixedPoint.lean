import JoinIndex.Hash.XxHash32
import JoinIndex.Proofs.Hash.Abreast

/-!
Of all seeds one is the xxHash of nothing under itself. Nothing in the final mixing of a hash says
so, and the seeds are too many to be tried one by one.

A seed whose hash it is gives an equation for each half of it. Guess nineteen bits about the seed:
the lower half of its state after the first step of the mixing, and three bits that pass from one
half to the other. Under a guess the lower half of the seed follows from the upper one, and the
equations give every bit of the upper half from the bits below it, so that sixteen rounds settle
it. What is left of the equations then decides about the guess. The guesses of sixteen bits are
tried abreast, for each of the eight settings of the other three.

The numbers in the definitions are the halves 0x1656 and 0x67b1 of `prime5`, which a hash adds to
its seed, and `prime2` and `prime3`, by which the mixing multiplies.
-/

set_option autoImplicit false
set_option relaxedAutoImplicit false

namespace JoinIndex.Hash.XxHash32

open Abreast

theorem hash_nil (seed : UInt32) : hash seed [] = avalanche (seed + prime5) := by
  simp [hash, absorbWords]

/-! ### Congruence modulo a power of two -/

section

variable {a b c d j k : ℕ}

theorem xor_modEq (hab : a ≡ b [MOD 2 ^ k]) (hcd : c ≡ d [MOD 2 ^ k]) :
    a ^^^ c ≡ b ^^^ d [MOD 2 ^ k] := by
  unfold Nat.ModEq at *
  rw [Nat.xor_mod_two_pow, Nat.xor_mod_two_pow, hab, hcd]

theorem or_modEq (hab : a ≡ b [MOD 2 ^ k]) (hcd : c ≡ d [MOD 2 ^ k]) :
    a ||| c ≡ b ||| d [MOD 2 ^ k] := by
  unfold Nat.ModEq at *
  rw [Nat.or_mod_two_pow, Nat.or_mod_two_pow, hab, hcd]

theorem mul_two_pow_modEq (hab : a ≡ b [MOD 2 ^ k]) :
    a * 2 ^ j ≡ b * 2 ^ j [MOD 2 ^ (k + j)] := by
  rw [pow_add]
  exact hab.mul_right' _

theorem div_two_pow_modEq (hab : a ≡ b [MOD 2 ^ (j + k)]) :
    a / 2 ^ j ≡ b / 2 ^ j [MOD 2 ^ k] := by
  unfold Nat.ModEq at *
  rw [pow_add] at hab
  rw [← Nat.mod_mul_right_div_self, ← Nat.mod_mul_right_div_self, hab]

theorem mod_two_pow_modEq (hab : a ≡ b [MOD 2 ^ k]) (hle : k ≤ j) :
    a % 2 ^ j ≡ b % 2 ^ j [MOD 2 ^ k] := by
  unfold Nat.ModEq at *
  rw [Nat.mod_mod_of_dvd _ (pow_dvd_pow 2 hle), Nat.mod_mod_of_dvd _ (pow_dvd_pow 2 hle), hab]

end

/-! ### The search for a fixed point -/

/-- What has to be known of a seed besides its upper half, for its hash to be computed by halves. -/
@[ext]
structure Guess where
  /-- Whether the lower half of the state overflowed. -/
  carry : ℕ
  /-- The highest bit of the lower half of the state. -/
  mid : ℕ
  /-- The highest bit of the state. -/
  top : ℕ
  /-- The lower half of the state once its upper bits are mixed into it. -/
  word : ℕ

namespace Guess

section

variable (L : Layout) (g : Guess) (u : ℕ)

/-- The upper half of the state, if `u` is the upper half of the seed. -/
def upper : ℕ :=
  L.low 16 (u + (L.unit * 0x1656 + g.carry))

/-- The lower half of the state. -/
def lower : ℕ :=
  g.word ^^^ (L.low 16 (g.upper L u * 2) ||| g.mid)

/-- The lower half of the seed. -/
def seedLower : ℕ :=
  L.low 16 (g.lower L u + L.unit * (2 ^ 16 - 0x67b1))

/-- The state after the first product. -/
def first : ℕ :=
  L.low 32 ((g.word ||| (g.upper L u ^^^ g.top) * 2 ^ 16) * 2246822519)

/-- The state after the second product. -/
def second : ℕ :=
  L.low 32 ((g.first L u ^^^ L.high 13 (g.first L u)) * 3266489917)

/-- What the upper half of the seed must be, if the hash is to have the lower half of the seed. -/
def next : ℕ :=
  g.seedLower L u ^^^ L.low 16 (g.second L u)

/-- The upper half of the seed, found from its lowest bit upwards. -/
def settled : ℕ → ℕ
  | 0 => 0
  | count + 1 => g.next L (settled count)

/-- Where the guess disagrees with the seed that has the upper half `u`, and where the hash of the
seed does. -/
def mismatch : ℕ :=
  (L.high 16 (g.second L u) ^^^ u) ||| (L.high 15 (g.lower L u) ^^^ g.mid) |||
    (L.high 15 (g.upper L u) ^^^ g.top) |||
    (L.high 16 (g.seedLower L u + L.unit * 0x67b1) ^^^ g.carry)

/-- 1 if the guess belongs to a fixed point, and 0 if not. -/
def holds : ℕ :=
  L.unit ^^^ L.high 16 (g.mismatch L (g.settled L 16) + L.unit * (2 ^ 16 - 1))

end

/-! ### All words at once -/

/-- The lanes of a guess hold the guesses `g`. -/
structure Spreads (k : ℕ) (all : Guess) (g : ℕ → Guess) : Prop where
  carry : Packs k all.carry 1 fun i ↦ (g i).carry
  mid : Packs k all.mid 1 fun i ↦ (g i).mid
  top : Packs k all.top 1 fun i ↦ (g i).top
  word : Packs k all.word 16 fun i ↦ (g i).word

namespace Spreads

variable {k : ℕ} {L M : Layout} {all : Guess} {g : ℕ → Guess} {x : ℕ} {u : ℕ → ℕ}

theorem upper (hL : L.Spreads k M) (h : Spreads k all g) (hu : Packs k x 16 u) :
    Packs k (all.upper L x) 16 fun i ↦ (g i).upper M (u i) := by
  have hstep := (hL.unit.mul_const (by decide : 0x1656 < 2 ^ 13)).add (h.carry.mono (by decide))
  exact hL.low (hu.add (hstep.mono (by decide))) (by decide) (by decide)

theorem lower (hL : L.Spreads k M) (h : Spreads k all g) (hu : Packs k x 16 u) :
    Packs k (all.lower L x) 16 fun i ↦ (g i).lower M (u i) := by
  have hdouble := (h.upper hL hu).mul_const (by decide : 2 < 2 ^ 2)
  have hshift := (hL.low hdouble (by decide) (by decide : 16 ≤ 64)).or (h.mid.mono (by decide))
    (by decide)
  exact h.word.xor hshift (by decide)

theorem seedLower (hL : L.Spreads k M) (h : Spreads k all g) (hu : Packs k x 16 u) :
    Packs k (all.seedLower L x) 16 fun i ↦ (g i).seedLower M (u i) := by
  have hback := hL.unit.mul_const (by decide : 2 ^ 16 - 0x67b1 < 2 ^ 16)
  exact hL.low (((h.lower hL hu).mono (by decide)).add hback) (by decide) (by decide)

theorem first (hL : L.Spreads k M) (h : Spreads k all g) (hu : Packs k x 16 u) :
    Packs k (all.first L x) 32 fun i ↦ (g i).first M (u i) := by
  have hupper := ((h.upper hL hu).xor (h.top.mono (by decide)) (by decide)).mul_two_pow 16
  have hstate := (h.word.mono (by decide)).or hupper (by decide)
  exact hL.low (hstate.mul_const (by decide : 2246822519 < 2 ^ 32)) (by decide) (by decide)

theorem second (hL : L.Spreads k M) (h : Spreads k all g) (hu : Packs k x 16 u) :
    Packs k (all.second L x) 32 fun i ↦ (g i).second M (u i) := by
  have hfirst := h.first hL hu
  have hshift := (hL.high hfirst (by decide) (by decide : 13 ≤ 64)).mono (by decide : _ ≤ 32)
  have hproduct := (hfirst.xor hshift (by decide)).mul_const (by decide : 3266489917 < 2 ^ 32)
  exact hL.low hproduct (by decide) (by decide)

theorem next (hL : L.Spreads k M) (h : Spreads k all g) (hu : Packs k x 16 u) :
    Packs k (all.next L x) 16 fun i ↦ (g i).next M (u i) :=
  (h.seedLower hL hu).xor (hL.low (h.second hL hu) (by decide) (by decide)) (by decide)

theorem settled (hL : L.Spreads k M) (h : Spreads k all g) (count : ℕ) :
    Packs k (all.settled L count) 16 fun i ↦ (g i).settled M count := by
  induction count with
  | zero => exact Packs.zero
  | succ count ih => exact h.next hL ih

theorem mismatch (hL : L.Spreads k M) (h : Spreads k all g) (hu : Packs k x 16 u) :
    Packs k (all.mismatch L x) 16 fun i ↦ (g i).mismatch M (u i) := by
  have hsecond := (hL.high (h.second hL hu) (by decide) (by decide : 16 ≤ 64)).xor hu (by decide)
  have hmid := (hL.high (h.lower hL hu) (by decide) (by decide : 15 ≤ 64)).xor h.mid (by decide)
  have htop := (hL.high (h.upper hL hu) (by decide) (by decide : 15 ≤ 64)).xor h.top (by decide)
  have hsum := (h.seedLower hL hu).add (hL.unit.mul_const (by decide : 0x67b1 < 2 ^ 15))
  have hcarry := (hL.high hsum (by decide) (by decide : 16 ≤ 64)).xor h.carry (by decide)
  exact ((hsecond.or (hmid.mono (by decide)) (by decide)).or (htop.mono (by decide))
    (by decide)).or (hcarry.mono (by decide)) (by decide)

theorem holds (hL : L.Spreads k M) (h : Spreads k all g) :
    Packs k (all.holds L) 2 fun i ↦ (g i).holds M := by
  have hmismatch := h.mismatch hL (h.settled hL 16)
  have hfull := hL.unit.mul_const (by decide : 2 ^ 16 - 1 < 2 ^ 16)
  have hsum := (hmismatch.mono (by decide)).add hfull
  have hflag := hL.high hsum (by decide) (by decide : 16 ≤ 64)
  exact (hL.unit.mono (by decide)).xor hflag (by decide)

end Spreads

/-- Flags are single bits, and the word has sixteen. -/
structure Bounded (g : Guess) : Prop where
  carry : g.carry < 2
  mid : g.mid < 2
  top : g.top < 2
  word : g.word < 2 ^ 16

/-- The guesses with given flags, one for each word of 16 bits. -/
def everyWord (carry mid top : ℕ) : Guess :=
  ⟨ones 16 * carry, ones 16 * mid, ones 16 * top, indices 16⟩

theorem spreads_everyWord {carry mid top : ℕ} (hcarry : carry < 2) (hmid : mid < 2)
    (htop : top < 2) : Spreads 16 (everyWord carry mid top) fun i ↦ ⟨carry, mid, top, i⟩ :=
  ⟨Packs.const hcarry, Packs.const hmid, Packs.const htop, Packs.indices⟩

/-- Each of the eight cases is decided by some two hundred operations on numbers of 65536 lanes. -/
theorem holds_everyWord : ∀ carry < 2, ∀ mid < 2, ∀ top < 2,
    (everyWord carry mid top).holds (Layout.abreast 16) =
      if carry = 1 ∧ mid = 0 ∧ top = 1 then lone 47376 else 0 := by
  decide +kernel

/-- Only one guess belongs to a fixed point. -/
theorem Bounded.eq_of_mismatch_eq_zero {g : Guess} (hg : g.Bounded)
    (h : g.mismatch Layout.single (g.settled Layout.single 16) = 0) :
    g = ⟨1, 0, 1, 47376⟩ := by
  have hlanes := (spreads_everyWord hg.carry hg.mid hg.top).holds (Layout.spreads_abreast 16)
  have hlane := hlanes.testBit_lane (by decide) hg.word (by decide : 0 < 64)
  have hholds : g.holds Layout.single = 1 := by
    rw [Guess.holds, h]
    rfl
  rw [holds_everyWord _ hg.carry _ hg.mid _ hg.top, Nat.add_zero] at hlane
  change _ = (g.holds Layout.single).testBit 0 at hlane
  rw [hholds, Nat.testBit_one_zero] at hlane
  split_ifs at hlane with hflags
  · rw [testBit_lone, decide_eq_true_iff] at hlane
    exact Guess.ext hflags.1 hflags.2.1 hflags.2.2 hlane.symm
  · rw [Nat.zero_testBit] at hlane
    contradiction

/-! ### Lower bits first -/

-- These equations are rewritten with below, since a comparison by unfolding would count the
-- products out.
section

variable (g : Guess) (u : ℕ)

theorem upper_single :
    g.upper Layout.single u = (u + (1 * 0x1656 + g.carry)) % 2 ^ 16 := by
  rw [Guess.upper, Layout.single_low, Layout.single_unit]

theorem lower_single :
    g.lower Layout.single u =
      g.word ^^^ (g.upper Layout.single u * 2 % 2 ^ 16 ||| g.mid) := by
  rw [Guess.lower, Layout.single_low]

theorem seedLower_single :
    g.seedLower Layout.single u =
      (g.lower Layout.single u + 1 * (2 ^ 16 - 0x67b1)) % 2 ^ 16 := by
  rw [Guess.seedLower, Layout.single_low, Layout.single_unit]

theorem first_single :
    g.first Layout.single u =
      (g.word ||| (g.upper Layout.single u ^^^ g.top) * 2 ^ 16) * 2246822519 % 2 ^ 32 := by
  rw [Guess.first, Layout.single_low]

theorem second_single :
    g.second Layout.single u =
      (g.first Layout.single u ^^^ g.first Layout.single u / 2 ^ 13) * 3266489917 % 2 ^ 32 := by
  rw [Guess.second, Layout.single_low, Layout.single_high]

theorem next_single :
    g.next Layout.single u = g.seedLower Layout.single u ^^^ g.second Layout.single u % 2 ^ 16 := by
  rw [Guess.next, Layout.single_low]

theorem mismatch_single :
    g.mismatch Layout.single u =
      (g.second Layout.single u / 2 ^ 16 ^^^ u) |||
        (g.lower Layout.single u / 2 ^ 15 ^^^ g.mid) |||
        (g.upper Layout.single u / 2 ^ 15 ^^^ g.top) |||
        ((g.seedLower Layout.single u + 1 * 0x67b1) / 2 ^ 16 ^^^ g.carry) := by
  simp only [Guess.mismatch, Layout.single_high, Layout.single_unit]

end

variable {g : Guess} {u v k : ℕ}

theorem upper_modEq (h : u ≡ v [MOD 2 ^ k]) (hk : k ≤ 16) :
    g.upper Layout.single u ≡ g.upper Layout.single v [MOD 2 ^ k] := by
  rw [upper_single, upper_single]
  exact mod_two_pow_modEq (h.add_right _) hk

theorem seedLower_modEq (h : u ≡ v [MOD 2 ^ k]) (hk : k < 16) :
    g.seedLower Layout.single u ≡ g.seedLower Layout.single v [MOD 2 ^ (k + 1)] := by
  have hdouble := mul_two_pow_modEq (j := 1) (upper_modEq (g := g) h hk.le)
  have hlower := xor_modEq (Nat.ModEq.refl g.word)
    (or_modEq (mod_two_pow_modEq hdouble hk) (Nat.ModEq.refl g.mid))
  rw [seedLower_single, seedLower_single, lower_single, lower_single]
  exact mod_two_pow_modEq (hlower.add_right _) hk

theorem first_modEq (h : u ≡ v [MOD 2 ^ k]) (hk : k ≤ 16) :
    g.first Layout.single u ≡ g.first Layout.single v [MOD 2 ^ (k + 16)] := by
  have hupper := xor_modEq (upper_modEq (g := g) h hk) (Nat.ModEq.refl g.top)
  have hstate := or_modEq (Nat.ModEq.refl g.word) (mul_two_pow_modEq (j := 16) hupper)
  rw [first_single, first_single]
  exact mod_two_pow_modEq (hstate.mul_right _) (by omega)

theorem second_modEq (h : u ≡ v [MOD 2 ^ k]) (hk : k ≤ 16) :
    g.second Layout.single u ≡ g.second Layout.single v [MOD 2 ^ (k + 1)] := by
  have hfirst := first_modEq (g := g) h hk
  have hlow := hfirst.of_dvd (pow_dvd_pow 2 (by omega : k + 1 ≤ k + 16))
  have hhigh := div_two_pow_modEq
    (hfirst.of_dvd (pow_dvd_pow 2 (by omega : 13 + (k + 1) ≤ k + 16)))
  rw [second_single, second_single]
  exact mod_two_pow_modEq ((xor_modEq hlow hhigh).mul_right _) (by omega)

/-- A bit of the upper half is given by the bits below it. -/
theorem next_modEq (h : u ≡ v [MOD 2 ^ k]) (hk : k < 16) :
    g.next Layout.single u ≡ g.next Layout.single v [MOD 2 ^ (k + 1)] := by
  rw [next_single, next_single]
  exact xor_modEq (seedLower_modEq h hk) (mod_two_pow_modEq (second_modEq h hk.le) hk)

theorem settled_modEq (h : g.next Layout.single u = u) (hk : k ≤ 16) :
    g.settled Layout.single k ≡ u [MOD 2 ^ k] := by
  induction k with
  | zero => exact Nat.modEq_one
  | succ k ih =>
    have hstep := next_modEq (g := g) (ih (by omega)) hk
    rwa [h] at hstep

theorem next_lt : g.next Layout.single u < 2 ^ 16 := by
  rw [next_single, seedLower_single]
  exact Nat.xor_lt_two_pow (Nat.mod_lt _ (by decide)) (Nat.mod_lt _ (by decide))

/-- The upper half is settled after sixteen rounds. -/
theorem settled_eq (h : g.next Layout.single u = u) : g.settled Layout.single 16 = u := by
  have hu : u < 2 ^ 16 := h ▸ next_lt
  exact (settled_modEq h le_rfl).eq_of_lt_of_lt next_lt hu

/-! ### The guess that a seed makes true -/

/-- The state that a seed begins. -/
def state (seed : UInt32) : ℕ :=
  (seed + prime5).toNat

def ofSeed (seed : UInt32) : Guess where
  carry := (seed.toNat % 2 ^ 16 + 0x67b1) / 2 ^ 16
  mid := state seed % 2 ^ 16 / 2 ^ 15
  top := state seed / 2 ^ 31
  word := (state seed ^^^ state seed / 2 ^ 15) % 2 ^ 16

section

variable (seed : UInt32)

theorem state_eq : state seed = (seed.toNat + 374761393) % 2 ^ 32 :=
  UInt32.toNat_add _ _

theorem state_lt : state seed < 2 ^ 32 :=
  (seed + prime5).toNat_lt

theorem bounded_ofSeed : (ofSeed seed).Bounded := by
  have hstate := state_lt seed
  unfold ofSeed
  refine ⟨?_, ?_, ?_, Nat.mod_lt _ (by decide)⟩ <;> dsimp only <;> omega

theorem upper_ofSeed :
    (ofSeed seed).upper Layout.single (seed.toNat / 2 ^ 16) = state seed / 2 ^ 16 := by
  have hseed := seed.toNat_lt
  rw [upper_single, state_eq, ofSeed]
  dsimp only
  omega

theorem lower_ofSeed :
    (ofSeed seed).lower Layout.single (seed.toNat / 2 ^ 16) = state seed % 2 ^ 16 := by
  have hmid : (ofSeed seed).mid < 2 ^ 1 := (bounded_ofSeed seed).mid
  have hdouble : state seed / 2 ^ 16 * 2 % 2 ^ 16 = 2 ^ 1 * (state seed / 2 ^ 16 % 2 ^ 15) := by
    omega
  have hshift : state seed / 2 ^ 16 * 2 % 2 ^ 16 ||| (ofSeed seed).mid =
      state seed / 2 ^ 15 % 2 ^ 16 := by
    rw [hdouble, ← Nat.two_pow_add_eq_or_of_lt hmid, ofSeed]
    dsimp only
    omega
  rw [lower_single, upper_ofSeed, hshift, ofSeed]
  dsimp only
  rw [Nat.xor_mod_two_pow, Nat.xor_xor_cancel_right]

theorem seedLower_ofSeed :
    (ofSeed seed).seedLower Layout.single (seed.toNat / 2 ^ 16) = seed.toNat % 2 ^ 16 := by
  rw [seedLower_single, lower_ofSeed, state_eq]
  omega

theorem first_ofSeed :
    (ofSeed seed).first Layout.single (seed.toNat / 2 ^ 16) =
      (state seed ^^^ state seed / 2 ^ 15) * 2246822519 % 2 ^ 32 := by
  have hmixed : state seed / 2 ^ 16 ^^^ (ofSeed seed).top =
      (state seed ^^^ state seed / 2 ^ 15) / 2 ^ 16 := by
    rw [Nat.xor_div_two_pow, Nat.div_div_eq_div_mul, ofSeed]
    rfl
  have hword := (bounded_ofSeed seed).word
  rw [first_single, upper_ofSeed, hmixed, Nat.or_comm, Nat.mul_comm (_ / _),
    ← Nat.two_pow_add_eq_or_of_lt hword, ofSeed]
  dsimp only
  rw [Nat.div_add_mod]

/-- The hash of nothing, once the second product is known. -/
theorem toNat_hash_nil :
    (hash seed []).toNat = (ofSeed seed).second Layout.single (seed.toNat / 2 ^ 16) ^^^
      (ofSeed seed).second Layout.single (seed.toNat / 2 ^ 16) / 2 ^ 16 := by
  rw [hash_nil, second_single, first_ofSeed, avalanche]
  simp only [UInt32.toNat_xor, UInt32.toNat_mul, UInt32.toNat_shiftRight,
    Nat.shiftRight_eq_div_pow]
  rfl

end

/-- The halves of a seed whose hash it is. -/
theorem halves_of_hash_nil_eq {seed : UInt32} (h : hash seed [] = seed) :
    (ofSeed seed).second Layout.single (seed.toNat / 2 ^ 16) / 2 ^ 16 = seed.toNat / 2 ^ 16 ∧
      (ofSeed seed).next Layout.single (seed.toNat / 2 ^ 16) = seed.toNat / 2 ^ 16 := by
  have hvalue := toNat_hash_nil seed
  have hlt : (ofSeed seed).second Layout.single (seed.toNat / 2 ^ 16) < 2 ^ 32 := by
    rw [second_single]
    exact Nat.mod_lt _ (by decide)
  rw [next_single, seedLower_ofSeed]
  generalize (ofSeed seed).second Layout.single (seed.toNat / 2 ^ 16) = m at hvalue hlt ⊢
  rw [h] at hvalue
  have hupper : m / 2 ^ 16 = seed.toNat / 2 ^ 16 := by
    rw [hvalue, Nat.xor_div_two_pow, Nat.div_eq_of_lt (by omega : m / 2 ^ 16 < 2 ^ 16),
      Nat.xor_zero]
  refine ⟨hupper, ?_⟩
  calc seed.toNat % 2 ^ 16 ^^^ m % 2 ^ 16
      = (m / 2 ^ 16 % 2 ^ 16 ^^^ m % 2 ^ 16) ^^^ m % 2 ^ 16 := by
        rw [hvalue, Nat.xor_mod_two_pow, Nat.xor_comm (m % 2 ^ 16)]
    _ = m / 2 ^ 16 % 2 ^ 16 := Nat.xor_xor_cancel_right _ _
    _ = seed.toNat / 2 ^ 16 := by
        rw [Nat.mod_eq_of_lt (by omega), hupper]

theorem mismatch_of_hash_nil_eq {seed : UInt32} (h : hash seed [] = seed) :
    (ofSeed seed).mismatch Layout.single (seed.toNat / 2 ^ 16) = 0 := by
  have hmid : state seed % 2 ^ 16 / 2 ^ 15 = (ofSeed seed).mid := rfl
  have htop : state seed / 2 ^ 16 / 2 ^ 15 = (ofSeed seed).top := Nat.div_div_eq_div_mul _ _ _
  have hcarry : (seed.toNat % 2 ^ 16 + 1 * 0x67b1) / 2 ^ 16 = (ofSeed seed).carry := rfl
  rw [mismatch_single, (halves_of_hash_nil_eq h).1, lower_ofSeed, upper_ofSeed, seedLower_ofSeed,
    hmid, htop, hcarry]
  simp only [Nat.xor_self, Nat.or_self]

end Guess

/-- Of all seeds one is the hash of nothing under itself. -/
theorem hash_nil_eq_iff (seed : UInt32) : hash seed [] = seed ↔ seed = 3223629365 := by
  refine ⟨fun h ↦ ?_, fun h ↦ by rw [h]; decide⟩
  have hsettled := Guess.settled_eq (Guess.halves_of_hash_nil_eq h).2
  have hguess := (Guess.bounded_ofSeed seed).eq_of_mismatch_eq_zero
    (by rw [hsettled, Guess.mismatch_of_hash_nil_eq h])
  have hlower := Guess.seedLower_ofSeed seed
  rw [← hsettled, hguess] at hlower
  rw [hguess] at hsettled
  have hupper : (⟨1, 0, 1, 47376⟩ : Guess).settled Layout.single 16 = 0xc024 := by
    decide +kernel
  have hvalue : (⟨1, 0, 1, 47376⟩ : Guess).seedLower Layout.single 0xc024 = 0xae35 := by decide
  rw [hupper] at hsettled hlower
  rw [hvalue] at hlower
  refine UInt32.toNat_inj.mp ?_
  rw [← Nat.div_add_mod seed.toNat (2 ^ 16), ← hsettled, ← hlower]
  decide

end JoinIndex.Hash.XxHash32
