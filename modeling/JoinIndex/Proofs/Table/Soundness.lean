import JoinIndex.Proofs.Table.Moves

/-!
What is true of a table at any time. `Sound` relates the counters of a table to the buckets and
nodes that they count, and says that the paths to the filled buckets are filled. Every table starts
sound, and every move keeps it so, whatever the rows, keys and hashes are and however many nodes
there are.
-/

set_option autoImplicit false
set_option relaxedAutoImplicit false

namespace JoinIndex.Table

open Probe

variable {t u : Table}

/-- The counters of a table are right, and so is the place of every filled bucket. The rows in the
buckets and in the chains are counted by `filled` and by the arena; the first node of a chain is
counted by both. -/
structure Sound (t : Table) : Prop where
  size_isPower : PowerOfTwo.IsPower t.buckets.size
  size_le : t.buckets.size ≤ Config.maxBuckets
  arena : t.arena.Sound
  filled_eq : t.filled = (filledBuckets t.buckets).length
  overflowing_eq : t.overflowing = (filledBuckets t.buckets).countP Bucket.hasOverflow
  entries_eq : t.entries + t.overflowing = t.filled + t.arena.numNodes
  paths : PathsFilled t.probing t.buckets

theorem sound_empty (probing : ProbingMode) (storage : StorageMode) {size : Nat}
    (hpower : PowerOfTwo.IsPower size) (hle : size ≤ Config.maxBuckets) :
    (empty probing storage size).Sound where
  size_isPower := by
    rw [empty, Array.size_replicate]
    exact hpower
  size_le := by
    rw [empty, Array.size_replicate]
    exact hle
  arena := Arena.sound_empty
  filled_eq := by
    rw [empty, filledBuckets_replicate]
    rfl
  overflowing_eq := by
    rw [empty, filledBuckets_replicate]
    rfl
  entries_eq := rfl
  paths := pathsFilled_replicate probing size

/-! ### Writing a bucket -/

theorem Sound.fill (h : t.Sound) {p : Nat} {hash : UInt32} (row : RowRef)
    (hempty : bucketAt t.buckets p = .empty) (hreaches : Reaches t.probing t.buckets hash p) :
    (t.fill p hash row).Sound := by
  have hperm : (filledBuckets (t.fill p hash row).buckets).Perm
      (.inline hash false row :: filledBuckets t.buckets) :=
    filledBuckets_setIfInBounds_of_empty hreaches.lt_size hempty rfl
  have hsize : (t.fill p hash row).buckets.size = t.buckets.size := Array.size_setIfInBounds
  constructor
  · rw [hsize]
    exact h.size_isPower
  · rw [hsize]
    exact h.size_le
  · exact h.arena
  · rw [hperm.length_eq, List.length_cons, ← h.filled_eq]
    rfl
  · rw [hperm.countP_eq, List.countP_cons, ← h.overflowing_eq]
    rfl
  · have hentries := h.entries_eq
    change t.entries + 1 + t.overflowing = t.filled + 1 + t.arena.numNodes
    omega
  · exact h.paths.setIfInBounds rfl hreaches

/-- A filled bucket gives way to a chain for one row more. If it was not a chain before, there is
one chain more, and a node for the row that it held. -/
theorem Sound.write_chain (h : t.Sound) {p : Nat} {hash : UInt32} {head : NodeIndex} {more : Nat}
    (hhash : (bucketAt t.buckets p).hash? = some hash)
    (hmore : (if (bucketAt t.buckets p).hasOverflow then 1 else 0) + more = 1)
    (hbuckets : u.buckets = t.buckets.setIfInBounds p (.chain hash head))
    (hprobing : u.probing = t.probing) (harena : u.arena.Sound) (hfilled : u.filled = t.filled)
    (hentries : u.entries = t.entries + 1) (hoverflowing : u.overflowing = t.overflowing + more)
    (hnodes : u.arena.numNodes = t.arena.numNodes + 1 + more) : u.Sound := by
  obtain ⟨others, hbefore, hafter⟩ := filledBuckets_setIfInBounds_of_filled
    (Bucket.isFilled_of_hash? hhash) (b := .chain hash head) rfl
  rw [← hbuckets] at hafter
  have hsize : u.buckets.size = t.buckets.size := by
    rw [hbuckets, Array.size_setIfInBounds]
  constructor
  · rw [hsize]
    exact h.size_isPower
  · rw [hsize]
    exact h.size_le
  · exact harena
  · rw [hafter.length_eq, hfilled, h.filled_eq, hbefore.length_eq]
    rfl
  · have hbefore := hbefore.countP_eq Bucket.hasOverflow
    rw [List.countP_cons] at hbefore
    rw [hafter.countP_eq, List.countP_cons_of_pos rfl, hoverflowing, h.overflowing_eq, hbefore]
    omega
  · have hsum := h.entries_eq
    omega
  · rw [hprobing, hbuckets]
    exact h.paths.setIfInBounds rfl (h.paths p hash hhash)

theorem Sound.promote (h : t.Sound) {p : Nat} {hash : UInt32} {matched : Bool} {first : RowRef}
    (row : RowRef) (hbucket : bucketAt t.buckets p = .inline hash matched first)
    (hfree : 2 ≤ t.arena.free) : (t.promote p hash matched first row).Sound := by
  have hfree' : 0 < (t.arena.push ⟨first, matched, none⟩).free := by
    change 0 < t.arena.free - 1
    omega
  have harena := (h.arena.push (by omega) ⟨first, matched, none⟩).push hfree'
  have hhash : (bucketAt t.buckets p).hash? = some hash := by rw [hbucket]; rfl
  have hmore : (if (bucketAt t.buckets p).hasOverflow then 1 else 0) + 1 = 1 := by
    rw [hbucket]
    rfl
  exact h.write_chain hhash hmore rfl rfl (harena _) rfl rfl rfl rfl

theorem Sound.prepend (h : t.Sound) {p : Nat} {hash : UInt32} {head : NodeIndex} (row : RowRef)
    (hbucket : bucketAt t.buckets p = .chain hash head) (hfree : 1 ≤ t.arena.free) :
    (t.prepend p hash head row).Sound := by
  have hhash : (bucketAt t.buckets p).hash? = some hash := by rw [hbucket]; rfl
  have hmore : (if (bucketAt t.buckets p).hasOverflow then 1 else 0) + 0 = 1 := by
    rw [hbucket]
    rfl
  exact h.write_chain hhash hmore rfl rfl (h.arena.push hfree _) rfl rfl rfl rfl

/-! ### Other moves -/

theorem Sound.mark (h : t.Sound) (c : Cursor) : (c.setMatched t).Sound := by
  match c with
  | .atEnd => exact h
  | .on _ (some node) =>
    exact ⟨h.size_isPower, h.size_le, h.arena.setMatched node, h.filled_eq, h.overflowing_eq,
      h.entries_eq, h.paths⟩
  | .on p none =>
    have hsize : (t.buckets.modify p Bucket.setMatched).size = t.buckets.size := Array.size_modify
    constructor
    · change PowerOfTwo.IsPower (t.buckets.modify p Bucket.setMatched).size
      rw [hsize]
      exact h.size_isPower
    · change (t.buckets.modify p Bucket.setMatched).size ≤ _
      rw [hsize]
      exact h.size_le
    · exact h.arena
    · have hlength := congrArg List.length (map_filledBuckets_modify Bucket.isFilled
        Bucket.setMatched Bucket.isFilled_setMatched Bucket.isFilled_setMatched t.buckets p)
      rw [List.length_map, List.length_map] at hlength
      change t.filled = (filledBuckets (t.buckets.modify p Bucket.setMatched)).length
      rw [hlength, h.filled_eq]
    · have hcount := congrArg (List.countP id) (map_filledBuckets_modify Bucket.hasOverflow
        Bucket.setMatched Bucket.hasOverflow_setMatched Bucket.isFilled_setMatched t.buckets p)
      rw [List.countP_map, List.countP_map, Function.id_comp] at hcount
      change t.overflowing = List.countP _ (filledBuckets (t.buckets.modify p Bucket.setMatched))
      rw [hcount, h.overflowing_eq]
    · exact h.entries_eq
    · refine h.paths.congr hsize fun q ↦ ?_
      change (bucketAt (t.buckets.modify p Bucket.setMatched) q).hash? = _
      rw [bucketAt_modify _ _ _ rfl]
      split_ifs
      · exact Bucket.hash?_setMatched _
      · rfl

theorem Sound.relocate (h : t.Sound) {size : Nat} {buckets : Array Bucket}
    (hpower : PowerOfTwo.IsPower size) (hle : size ≤ Config.maxBuckets)
    (hmoved : relocate t.probing t.buckets size = some buckets) :
    ({ t with buckets, resizes := t.resizes + 1 } : Table).Sound := by
  obtain ⟨hsize, hpaths, hperm⟩ := relocate_eq_some hmoved
  constructor
  · change PowerOfTwo.IsPower buckets.size
    rwa [hsize]
  · change buckets.size ≤ _
    rwa [hsize]
  · exact h.arena
  · change t.filled = (filledBuckets buckets).length
    rw [hperm.length_eq, h.filled_eq]
  · change t.overflowing = (filledBuckets buckets).countP Bucket.hasOverflow
    rw [hperm.countP_eq, h.overflowing_eq]
  · exact h.entries_eq
  · exact hpaths

theorem Move.sound (hmove : Move t u) (h : t.Sound) : u.Sound := by
  cases hmove with
  | search probe => exact ⟨h.1, h.2, h.3, h.4, h.5, h.6, h.7⟩
  | fill p hash row hempty hreaches => exact h.fill row hempty hreaches
  | grow => exact ⟨h.1, h.2, h.arena.grown, h.4, h.5, h.6, h.7⟩
  | promote p hash matched first row hbucket hfree => exact h.promote row hbucket hfree
  | prepend p hash head row hbucket hfree => exact h.prepend row hbucket hfree
  | mark c => exact h.mark c
  | relocate size buckets hpower hle _ hmoved => exact h.relocate hpower hle hmoved
  | clear =>
    have hempty := sound_empty t.probing t.storage h.size_isPower h.size_le
    exact ⟨hempty.1, hempty.2, hempty.3, hempty.4, hempty.5, hempty.6, hempty.7⟩

theorem Sound.exists_size_eq (h : t.Sound) : ∃ k ≤ 30, t.buckets.size = 2 ^ k := by
  obtain ⟨k, hk⟩ := PowerOfTwo.isPower_iff.mp h.size_isPower
  have hle : 2 ^ k ≤ 2 ^ 30 := hk ▸ h.size_le
  exact ⟨k, (Nat.pow_le_pow_iff_right (by decide)).mp hle, hk⟩

theorem Moves.sound (hmoves : Moves t u) (h : t.Sound) : u.Sound := by
  induction hmoves with
  | refl => exact h
  | tail _ hmove ih => exact hmove.sound ih

end JoinIndex.Table
