import JoinIndex.Proofs.Hash.Crc32
import JoinIndex.Proofs.Hash.XxHash32

/-!
Hashes of level 0. Bytes that are hashed alike under one seed are not under another, so that a
component of a key never loses what the components before it have told apart. Under one seed, byte
strings that differ in four bytes side by side are hashed apart; such are the bytes of integers that
agree in their upper halves, and of days.
-/

set_option autoImplicit false
set_option relaxedAutoImplicit false

namespace JoinIndex

namespace LittleEndian

/-- The lower bytes of a number come before the upper ones. -/
theorem ofNat_add (count more n : ℕ) :
    ofNat (count + more) n = ofNat count n ++ ofNat more (n / 256 ^ count) := by
  induction count generalizing n with
  | zero => rw [Nat.zero_add, pow_zero, Nat.div_one]; rfl
  | succ count ih =>
    rw [Nat.succ_add, ofNat, ofNat, ih, Nat.div_div_eq_div_mul, pow_succ']
    rfl

end LittleEndian

namespace Hash

/-! ### Bytes -/

/-- What is done to a checksum afterwards can be undone. -/
theorem hashBytes_zero_inj {seed seed' : UInt32} {as bs : List UInt8} :
    hashBytes 0 seed as = hashBytes 0 seed' bs ↔
      Crc32.continued seed as = Crc32.continued seed' bs := by
  rw [hashBytes, hashBytes, if_pos rfl, if_pos rfl, UInt32.xor_left_inj]
  exact (XxHash32.rotateLeft_injective 16 (by decide) (by decide)).eq_iff

theorem hashBytes_zero_injective (bytes : List UInt8) :
    Function.Injective fun seed ↦ hashBytes 0 seed bytes :=
  fun _ _ h ↦ Crc32.continued_injective bytes (hashBytes_zero_inj.mp h)

theorem take_append_window {α : Type} (l : List α) (p : ℕ) :
    l.take p ++ (l.drop p).take 4 ++ l.drop (p + 4) = l := by
  rw [List.append_assoc, ← List.drop_drop, List.take_append_drop, List.take_append_drop]

/-- Strings of one length that differ from place `p` on in no more than four places. -/
theorem eq_of_hashBytes_zero_eq {seed : UInt32} {as bs : List UInt8} {p : ℕ}
    (hlength : as.length = bs.length)
    (hsame : ∀ k, k < p ∨ p + 4 ≤ k → as[k]? = bs[k]?)
    (h : hashBytes 0 seed as = hashBytes 0 seed bs) : as = bs := by
  have hfront : as.take p = bs.take p := by
    refine List.ext_getElem? fun k ↦ ?_
    rw [List.getElem?_take, List.getElem?_take]
    split_ifs with hk
    · exact hsame k (Or.inl hk)
    · rfl
  have hback : as.drop (p + 4) = bs.drop (p + 4) := by
    refine List.ext_getElem? fun k ↦ ?_
    rw [List.getElem?_drop, List.getElem?_drop]
    exact hsame _ (Or.inr (Nat.le_add_right _ _))
  have hwindow : ((as.drop p).take 4).length = ((bs.drop p).take 4).length := by
    rw [List.length_take, List.length_take, List.length_drop, List.length_drop, hlength]
  rw [hashBytes_zero_inj, ← take_append_window as p, ← take_append_window bs p, hfront,
    hback] at h
  have hmiddle := Crc32.continued_window hwindow (List.length_take_le _ _) h
  rw [← take_append_window as p, ← take_append_window bs p, hfront, hback, hmiddle]

end Hash

namespace KeyContext

variable {c : KeyContext}

/-! ### Keys -/

/-- The hash of the components of a key, from the hash of what is before them. -/
def hashFrom (c : KeyContext) (hash : UInt32) (key : List Value) : UInt32 :=
  key.foldl (fun hash v ↦ c.hash hash v.keyBytes) hash

theorem hashFrom_injective (hlevel : c.level = 0) (key : List Value) :
    Function.Injective fun hash ↦ c.hashFrom hash key := by
  induction key with
  | nil => exact fun _ _ h ↦ h
  | cons v key ih =>
    refine ih.comp fun hash hash' h ↦ ?_
    change Hash.hashBytes c.level hash v.keyBytes = Hash.hashBytes c.level hash' v.keyBytes at h
    rw [hlevel] at h
    exact Hash.hashBytes_zero_injective _ h

/-- The hash of what is before is a seed like any other. -/
theorem hashFrom_eq_of_same (hlevel : c.level = 0) {hash : UInt32} {as bs : List Value}
    (h : Row.sameValues as bs = true) : c.hashFrom hash as = c.hashFrom hash bs := by
  obtain ⟨build, probe, stores, finds, level, seeds, key⟩ := c
  obtain rfl : level = 0 := hlevel
  exact (KeyHash.ofContext ⟨build, probe, stores, finds, 0, ⟨[hash]⟩, key⟩).eq_of_same as bs h

theorem toFun_ofContext_append (lead trail : List Value) :
    (KeyHash.ofContext c).toFun (lead ++ trail) =
      c.hashFrom ((KeyHash.ofContext c).toFun lead) trail :=
  List.foldl_append

theorem toFun_ofContext_singleton (hlevel : c.level = 0) (v : Value) :
    (KeyHash.ofContext c).toFun [v] = Hash.hashBytes 0 c.seed v.keyBytes := by
  rw [← hlevel]
  rfl

/-- Integers that agree in their upper halves differ in the four bytes after the first. -/
theorem eq_of_hashBytes_int64_eq {seed : UInt32} {i j : Int64}
    (hupper : i.toInt / 2 ^ 32 = j.toInt / 2 ^ 32)
    (h : Hash.hashBytes 0 seed (Value.int64 i).keyBytes =
      Hash.hashBytes 0 seed (Value.int64 j).keyBytes) : i = j := by
  have hbytes : ∀ k : Int64, (Value.int64 k).keyBytes =
      [2] ++ LittleEndian.ofNat 4 (k.toInt % 2 ^ 64).toNat ++
        LittleEndian.ofNat 4 ((k.toInt % 2 ^ 64).toNat / 256 ^ 4) := by
    intro k
    rw [List.append_assoc, ← LittleEndian.ofNat_add]
    rfl
  have hhigh : (i.toInt % 2 ^ 64).toNat / 256 ^ 4 = (j.toInt % 2 ^ 64).toNat / 256 ^ 4 := by
    omega
  rw [Hash.hashBytes_zero_inj, hbytes, hbytes, hhigh] at h
  have hlow := Hash.Crc32.continued_window (by simp) (by simp) h
  have hall : (Value.int64 i).keyBytes = (Value.int64 j).keyBytes := by
    rw [hbytes, hbytes, hhigh, hlow]
  rcases Value.same_of_keyBytes_eq hall with hsame | ⟨m, n, hm, -⟩ | ⟨m, n, hm, -⟩
  · exact beq_iff_eq.mp hsame
  · cases hm
  · cases hm

theorem eq_of_hashBytes_date_eq {seed : UInt32} {d e : Date}
    (h : Hash.hashBytes 0 seed (Value.date d).keyBytes =
      Hash.hashBytes 0 seed (Value.date e).keyBytes) : d = e := by
  have hbytes : ∀ d : Date, (Value.date d).keyBytes =
      [7] ++ LittleEndian.ofInt 4 d.day ++ [] := by
    intro d
    rw [List.append_nil]
    rfl
  have hlength : ∀ d : Date, (LittleEndian.ofInt 4 d.day).length = 4 :=
    fun d ↦ LittleEndian.length_ofNat 4 _
  rw [Hash.hashBytes_zero_inj, hbytes, hbytes] at h
  exact Value.dayBytes_inj.mp
    (Hash.Crc32.continued_window ((hlength d).trans (hlength e).symm) (hlength d).le h)

/-- At level 0, whatever the seed: bytes do not make the hashes under two seeds equal, and strings
of one length that differ in four bytes side by side, and nowhere else, have different hashes. So
keys that end in the same components are hashed alike exactly when their first components are, and
integers that agree in their upper halves and days are hashed apart. -/
theorem levelZero_apart :
    (∀ bytes, Function.Injective fun seed ↦ Hash.hashBytes 0 seed bytes) ∧
    (∀ (seed : UInt32) (as bs : List UInt8) (p : ℕ), as.length = bs.length →
      (∀ k, k < p ∨ p + 4 ≤ k → as[k]? = bs[k]?) → as ≠ bs →
        Hash.hashBytes 0 seed as ≠ Hash.hashBytes 0 seed bs) ∧
    ∀ c : KeyContext, c.level = 0 →
      let hashOf := (KeyHash.ofContext c).toFun
      (∀ lead lead' trail trail', Row.sameValues trail trail' = true →
        (hashOf (lead ++ trail) = hashOf (lead' ++ trail') ↔ hashOf lead = hashOf lead')) ∧
      (∀ i j : Int64, i.toInt / 2 ^ 32 = j.toInt / 2 ^ 32 → i ≠ j →
        hashOf [.int64 i] ≠ hashOf [.int64 j]) ∧
      ∀ d e : Date, d ≠ e → hashOf [.date d] ≠ hashOf [.date e] := by
  refine ⟨Hash.hashBytes_zero_injective, fun seed as bs p hlength hsame hne h ↦
    hne (Hash.eq_of_hashBytes_zero_eq hlength hsame h), fun c hlevel ↦ ⟨?_, ?_, ?_⟩⟩
  · intro lead lead' trail trail' hsame
    rw [toFun_ofContext_append, toFun_ofContext_append, hashFrom_eq_of_same hlevel hsame]
    exact (hashFrom_injective hlevel trail').eq_iff
  · intro i j hupper hne h
    rw [toFun_ofContext_singleton hlevel, toFun_ofContext_singleton hlevel] at h
    exact hne (eq_of_hashBytes_int64_eq hupper h)
  · intro d e hne h
    rw [toFun_ofContext_singleton hlevel, toFun_ofContext_singleton hlevel] at h
    exact hne (eq_of_hashBytes_date_eq h)

/-- A context at level 0 with four levels. -/
def smallContext : KeyContext :=
  KeyContext.new [] [] false false (Hash.Seeds.new 1 4)

/-- Two keys of two components. The zeros are the same, and the integers before them differ in the
lower halves only; both are negative. -/
theorem levelZero_apart_small :
    smallContext.level = 0 ∧
      Hash.hashBytes 0 7 [1, 2, 3, 4, 5, 6] ≠ Hash.hashBytes 0 7 [1, 9, 3, 4, 8, 6] ∧
      (KeyHash.ofContext smallContext).toFun [.int64 (-1), .float64 .zero] ≠
        (KeyHash.ofContext smallContext).toFun [.int64 (-7), .float64 ⟨0x8000000000000000⟩] ∧
      (KeyHash.ofContext smallContext).toFun [.date ⟨0, by decide⟩] ≠
        (KeyHash.ofContext smallContext).toFun [.date ⟨-1, by decide⟩] := by
  obtain ⟨-, hwindow, hkeys⟩ := levelZero_apart
  obtain ⟨htrail, hintegers, hdays⟩ := hkeys smallContext rfl
  refine ⟨rfl, hwindow 7 _ _ 1 rfl ?_ (by decide), fun h ↦ ?_, hdays _ _ (by decide)⟩
  · rintro k (hk | hk)
    · obtain rfl := Nat.lt_one_iff.mp hk
      rfl
    · obtain ⟨k, rfl⟩ := Nat.exists_eq_add_of_le hk
      cases k with
      | zero => rfl
      | succ k =>
        rw [List.getElem?_eq_none (by simp; omega), List.getElem?_eq_none (by simp; omega)]
  · have hlead := (htrail [.int64 (-1)] [.int64 (-7)] [.float64 .zero]
      [.float64 ⟨0x8000000000000000⟩] (by decide)).mp h
    exact hintegers (-1) (-7) (by decide) (by decide) hlead

end KeyContext

end JoinIndex
