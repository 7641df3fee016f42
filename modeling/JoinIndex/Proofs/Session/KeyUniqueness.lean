import JoinIndex.Proofs.Session.Keys

/-!
Paths and keys after any operations. On the way of a search to a filled bucket there is no empty
one; this holds whatever rows, keys and hashes were used. If the insertions were made with the keys
of their rows, the rows of a bucket have one key and were stored under its hash, and no other bucket
with that hash has that key.
-/

set_option autoImplicit false
set_option relaxedAutoImplicit false

namespace JoinIndex.Session

open Table Insertion

variable {s : Session} {exprs : List KeyExpr}

/-- The rows of the bucket at a place, from the one stored last to the first. -/
def rowsAt (s : Session) (p : Nat) : List RowRef :=
  ((bucketAt s.table.buckets p).group s.table.arena).refs

/-- The build key of the first of some rows, as far as the row can be found. -/
def keyOf (exprs : List KeyExpr) (rows : RowStore) (refs : List RowRef) : Option (List Value) :=
  (refs.head?.bind (·.resolve rows)).map (KeyContext.buildKey exprs)

/-- The build key of the first row of the bucket at a place. -/
def keyAt (exprs : List KeyExpr) (s : Session) (p : Nat) : Option (List Value) :=
  keyOf exprs s.rows (s.rowsAt p)

/-- The key of the first row of a class is the key of the class. -/
theorem exists_keyOf_classOf {r : Insertion} (hpersistent : s.Persistent)
    (hkeyed : s.KeyedBy exprs) (hr : r ∈ s.kept) :
    ∃ key, keyOf exprs s.rows (r.classOf s.kept).2 = some key ∧
      Row.sameValues r.key key = true := by
  obtain ⟨j, hj, hrj, hhead⟩ := exists_head?_classOf hr
  obtain ⟨row, hrow, hkey⟩ := (hkeyed j hj).exists_row
  refine ⟨KeyContext.buildKey exprs row, ?_, ?_⟩
  · rw [keyOf, hhead, Option.bind_some, hpersistent j hj row hrow]
    rfl
  · rw [← hkey]
    exact (alike_iff.mp hrj).2

/-- Two groups with one hash have keys that are not the same. -/
def Apart (exprs : List KeyExpr) (rows : RowStore) (a b : UInt32 × List RowRef) : Prop :=
  a.1 = b.1 → ∀ key key', keyOf exprs rows a.2 = some key → keyOf exprs rows b.2 = some key' →
    Row.sameValues key key' = false

theorem apart_symm {rows : RowStore} {a b : UInt32 × List RowRef} (h : Apart exprs rows a b) :
    Apart exprs rows b a := by
  intro hhash key key' hkey hkey'
  have hfalse := h hhash.symm key' key hkey' hkey
  rw [Bool.eq_false_iff] at hfalse ⊢
  exact fun htrue ↦ hfalse (Row.sameValues_symm htrue)

theorem apart_classOf {r q : Insertion} (hpersistent : s.Persistent) (hkeyed : s.KeyedBy exprs)
    (hr : r ∈ s.kept) (hq : q ∈ s.kept) (hrq : r.alike q = false) :
    Apart exprs s.rows (r.classOf s.kept) (q.classOf s.kept) := by
  intro hhash key key' hkey hkey'
  obtain ⟨_, hkr, hsr⟩ := exists_keyOf_classOf hpersistent hkeyed hr
  obtain ⟨_, hkq, hsq⟩ := exists_keyOf_classOf hpersistent hkeyed hq
  rw [hkr, Option.some.injEq] at hkey
  rw [hkq, Option.some.injEq] at hkey'
  subst hkey hkey'
  rw [Bool.eq_false_iff]
  intro hsame
  have halike : r.alike q = true :=
    alike_iff.mpr ⟨hhash,
      Row.sameValues_trans (Row.sameValues_trans hsr hsame) (Row.sameValues_symm hsq)⟩
  rw [hrq] at halike
  cases halike

theorem pairwise_apart {reps : List Insertion} (hpersistent : s.Persistent)
    (hkeyed : s.KeyedBy exprs) (hclasses : Classes s.table.shapes s.kept reps) :
    s.table.shapes.Pairwise (Apart exprs s.rows) := by
  refine (hclasses.perm.pairwise_iff apart_symm).mpr (List.pairwise_map.mpr ?_)
  refine hclasses.pairwise.imp_of_mem fun hr hq hrq ↦ ?_
  exact apart_classOf hpersistent hkeyed (hclasses.mem _ hr) (hclasses.mem _ hq) hrq

/-- The rows of a bucket are those stored under its hash with the key of the first of them. -/
theorem InOrder.exists_keyAt (h : InOrder exprs s) (haddr : s.table.arena.Addressable)
    (hkeyed : s.KeyedBy exprs) {p : Nat} {hash : UInt32}
    (hhash : (bucketAt s.table.buckets p).hash? = some hash) :
    ∃ key, s.keyAt exprs p = some key ∧
      s.rowsAt p = (s.kept.filter fun i ↦ i.hash == hash && Row.sameValues key i.key).map ref := by
  obtain ⟨reps, hclasses⟩ := h.grouped haddr hkeyed
  have hfilled := Bucket.isFilled_of_hash? hhash
  obtain ⟨r, hr, hshape⟩ := hclasses.exists_rep (mem_shapes_bucketAt hfilled)
  obtain ⟨key, hkey, hrkey⟩ := exists_keyOf_classOf h.persistent hkeyed (hclasses.mem r hr)
  have hrows : s.rowsAt p = (r.classOf s.kept).2 := (congrArg Prod.snd hshape).symm
  have hrhash : r.hash = hash := by
    rw [Bucket.hash?_eq_some_group hfilled s.table.arena, Option.some.injEq] at hhash
    rw [← hhash]
    exact congrArg Prod.fst hshape
  have hclass : (r.classOf s.kept).2 =
      (s.kept.filter fun i ↦ i.hash == hash && Row.sameValues key i.key).map ref := by
    refine congrArg (List.map ref) (List.filter_congr fun i _ ↦ ?_)
    rw [alike, hrhash, sameValues_congr_left hrkey, BEq.comm]
  refine ⟨key, ?_, hrows.trans hclass⟩
  rw [keyAt, hrows, hkey]

/-- Two buckets with one hash have different keys. -/
theorem InOrder.eq_of_sameValues_keyAt (h : InOrder exprs s) (haddr : s.table.arena.Addressable)
    (hkeyed : s.KeyedBy exprs) {p q : Nat} {hash : UInt32} {key key' : List Value}
    (hp : (bucketAt s.table.buckets p).hash? = some hash)
    (hq : (bucketAt s.table.buckets q).hash? = some hash) (hkey : s.keyAt exprs p = some key)
    (hkey' : s.keyAt exprs q = some key') (hsame : Row.sameValues key key' = true) : p = q := by
  by_contra hpq
  obtain ⟨reps, hclasses⟩ := h.grouped haddr hkeyed
  have hpairwise := pairwise_apart h.persistent hkeyed hclasses
  rw [shapes, groups, List.map_map, List.pairwise_map] at hpairwise
  have hapart := rel_of_pairwise_filledBuckets hpairwise (fun _ _ ↦ apart_symm)
    (Bucket.isFilled_of_hash? hp) (Bucket.isFilled_of_hash? hq) hpq
  have hhash : ((bucketAt s.table.buckets p).group s.table.arena).hash =
      ((bucketAt s.table.buckets q).group s.table.arena).hash := by
    rw [← Option.some.injEq, ← Bucket.hash?_eq_some_group (Bucket.isFilled_of_hash? hp),
      ← Bucket.hash?_eq_some_group (Bucket.isFilled_of_hash? hq), hp, hq]
  have hfalse := hapart hhash key key' hkey hkey'
  rw [hsame] at hfalse
  cases hfalse

/-- After any operations on a new table, no operation has faulted, and a search for the hash of a
filled bucket visits the bucket and no empty one before. While every accepted insertion since the
last clear was made with the key of its row, the rows of a bucket are those stored under its hash
with the same key as the first of them, and two buckets with one hash have different keys. -/
theorem run_paths_and_keys {config : Config} {stored : Bool} {budget : Budget} {rows : RowStore}
    (h : create config stored budget rows = .ok s) (ops : List Op) (exprs : List KeyExpr) :
    ∃ s', s.run ops = .ok s' ∧
      (∀ p hash, (bucketAt s'.table.buckets p).hash? = some hash →
        (∃ k < s'.table.buckets.size,
          s'.table.probing.slot s'.table.buckets.size hash k = p) ∧
        ∀ k < s'.table.buckets.size, s'.table.probing.slot s'.table.buckets.size hash k = p →
          ∀ j < k, (bucketAt s'.table.buckets
            (s'.table.probing.slot s'.table.buckets.size hash j)).isFilled = true) ∧
      (s'.table.arena.Addressable → s'.KeyedBy exprs →
        (∀ p hash, (bucketAt s'.table.buckets p).hash? = some hash →
          ∃ key, s'.keyAt exprs p = some key ∧
            s'.rowsAt p = (s'.kept.filter fun i ↦
              i.hash == hash && Row.sameValues key i.key).map ref ∧
            ∀ ref ∈ s'.rowsAt p, ∃ row, ref.resolve s'.rows = some row ∧
              Row.sameValues key (KeyContext.buildKey exprs row) = true) ∧
        ∀ p q hash key key', (bucketAt s'.table.buckets p).hash? = some hash →
          (bucketAt s'.table.buckets q).hash? = some hash → s'.keyAt exprs p = some key →
          s'.keyAt exprs q = some key' → Row.sameValues key key' = true → p = q) := by
  obtain ⟨s', hrun, -, hinOrder⟩ := exists_run_eq_ok (P := InOrder exprs)
    (fun _ _ hs hchanges ↦ hchanges.inOrder hs) (solvent_create h)
    (inOrder_create h) ops
  have hsound := hinOrder.intact.sound
  refine ⟨s', hrun, fun p hash hhash ↦ ?_, fun haddr hkeyed ↦ ⟨fun p hash hhash ↦ ?_, ?_⟩⟩
  · obtain ⟨k, hk, hslot, hfilled⟩ := hsound.paths p hash hhash
    refine ⟨⟨k, hk, hslot⟩, fun k' hk' hslot' j hj ↦ hfilled j ?_⟩
    have heq := ProbingMode.slot_injOn hsound.size_isPower s'.table.probing hash hk hk'
      (hslot.trans hslot'.symm)
    omega
  · obtain ⟨key, hkey, hrows⟩ := hinOrder.exists_keyAt haddr hkeyed hhash
    refine ⟨key, hkey, hrows, fun ref href ↦ ?_⟩
    rw [hrows, List.mem_map] at href
    obtain ⟨i, hi, rfl⟩ := href
    obtain ⟨hi, halike⟩ := List.mem_filter.mp hi
    obtain ⟨row, hrow, hikey⟩ := (hkeyed i hi).exists_row
    rw [Bool.and_eq_true, hikey] at halike
    exact ⟨row, hinOrder.persistent i hi row hrow, halike.2⟩
  · exact fun p q hash key key' hp hq hkey hkey' hsame ↦
      hinOrder.eq_of_sameValues_keyAt haddr hkeyed hp hq hkey hkey' hsame

theorem run_paths_and_keys_small :
    create (.linear 2) false (Budget.unlimited "small") (.new 1) = .ok smallStart ∧
      ∃ s', smallStart.run smallOps = .ok s' ∧ s'.table.arena.Addressable ∧
        s'.KeyedBy [.column 0 .int64] ∧
        ∀ p q hash key key', (bucketAt s'.table.buckets p).hash? = some hash →
          (bucketAt s'.table.buckets q).hash? = some hash →
          s'.keyAt [.column 0 .int64] p = some key → s'.keyAt [.column 0 .int64] q = some key' →
          Row.sameValues key key' = true → p = q := by
  obtain ⟨s', hrun, -, hend⟩ := run_paths_and_keys create_small smallOps [.column 0 .int64]
  have haddr : s'.table.arena.Addressable := by
    rw [Arena.Addressable, (run_small hrun).2]
    decide
  have hkeyed := keyedBy_small (run_small hrun).1
  exact ⟨create_small, s', hrun, haddr, hkeyed, (hend haddr hkeyed).2⟩

end JoinIndex.Session
