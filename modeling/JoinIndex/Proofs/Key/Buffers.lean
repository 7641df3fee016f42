import JoinIndex.Cursor
import JoinIndex.Proofs.Key.Sameness

/-!
Contexts that use their memory again. Such a context keeps a flag for each component of its key, the
bytes that a component was written to for hashing, and a row that the rows of a store are copied
over. Each of them is left behind by one operation and met by the next: the key and the flags are
emptied and filled one by one, the bytes are written over for each component, and a search or a
cursor leaves the row it read last.

Nothing of this shows. An operation answers what it answers on the plain context, which has no
buffers, and leaves the plain context behind with other buffers.
-/

set_option autoImplicit false
set_option relaxedAutoImplicit false

namespace JoinIndex

/-- A context with its buffers. -/
structure BufferedContext where
  context : KeyContext
  nulls : List Bool
  bytes : List UInt8
  scratch : Row

namespace BufferedContext

variable {b : BufferedContext}

/-- A context whose buffers have not been used. -/
def ofContext (context : KeyContext) : BufferedContext :=
  ⟨context, [], [], Row.empty⟩

/-- A copy has buffers of its own. -/
def clone (b : BufferedContext) : BufferedContext :=
  ofContext b.context.fresh

/-! ### Evaluating keys -/

/-- A buffer from which everything was dropped. -/
def emptied {α : Type} (buffer : List α) : List α :=
  buffer.drop buffer.length

theorem emptied_eq {α : Type} (buffer : List α) : emptied buffer = [] :=
  List.drop_length

/-- Drops the key evaluated last. -/
def forget (b : BufferedContext) : BufferedContext :=
  { b with context.key := emptied b.context.key, nulls := emptied b.nulls }

/-- Adds a component to the key. -/
def push (b : BufferedContext) (v : Value) : BufferedContext :=
  { b with context.key := b.context.key ++ [v], nulls := b.nulls ++ [v.isNull] }

def evaluate (b : BufferedContext) (exprs : List KeyExpr) (row : Row) : BufferedContext :=
  exprs.foldl (fun b e ↦ b.push (e.eval row)) b.forget

def keyHasNull (b : BufferedContext) : Bool :=
  b.nulls.any id

/-- Writes a component over the bytes of the one before and hashes it with the hash so far. -/
def hashComponent (state : UInt32 × BufferedContext) (v : Value) : UInt32 × BufferedContext :=
  let b := { state.2 with bytes := emptied state.2.bytes ++ v.keyBytes }
  (b.context.hash state.1 b.bytes, b)

def keyHash (b : BufferedContext) : UInt32 × BufferedContext :=
  b.context.key.foldl hashComponent (b.context.seed, b)

def hashUnless (b : BufferedContext) (nullsTakePart : Bool) : Option UInt32 × BufferedContext :=
  if b.keyHasNull && !nullsTakePart then (none, b)
  else
    let (hash, b) := b.keyHash
    (some hash, b)

def evaluateBuild (b : BufferedContext) (row : Row) : Option UInt32 × BufferedContext :=
  (b.evaluate b.context.buildExprs row).hashUnless b.context.storesNulls

def evaluateProbe (b : BufferedContext) (row : Row) : Option UInt32 × BufferedContext :=
  (b.evaluate b.context.probeExprs row).hashUnless
    (b.context.storesNulls && b.context.findsNulls)

/-! ### Reading rows -/

/-- The row of a reference; a row of a store is copied over the one that was read before. -/
def load (b : BufferedContext) (rows : RowStore) : RowRef → Option Row × BufferedContext
  | .direct shared => (some shared.row, b)
  | .indexed index =>
    let (found, scratch) := rows.materialize index b.scratch
    (if found then some scratch else none, { b with scratch })

/-- Whether the row of a reference has the key evaluated last. -/
def holds (b : BufferedContext) (rows : RowStore) (ref : RowRef) : Bool × BufferedContext :=
  let (row?, b) := b.load rows ref
  (row?.any b.context.equals, b)

/-- As `Probe.walk`, for the key evaluated last, each row being read before it is compared. -/
def search (t : Table) (rows : RowStore) (hash : UInt32) (b : BufferedContext)
    (travel collisions : ℕ) : ℕ → Probe × BufferedContext
  | 0 => (⟨.exhausted, travel, collisions⟩, b)
  | left + 1 =>
    let place := t.probing.slot t.buckets.size hash travel
    let bucket := t.buckets.getD place .empty
    match bucket.hash? with
    | none => (⟨.vacant place, travel, collisions⟩, b)
    | some h =>
      if h = hash then
        let (isKey, b) := (bucket.firstRow? t.arena).elim (false, b) (b.holds rows)
        if isKey then (⟨.found place, travel, collisions⟩, b)
        else search t rows hash b (travel + 1) (collisions + 1) left
      else search t rows hash b (travel + 1) collisions left

/-- The cursor that a search leads to, and the table that has counted the search. -/
def find (b : BufferedContext) (t : Table) (rows : RowStore) (hash : UInt32) :
    (Cursor × Table) × BufferedContext :=
  let (probe, b) := search t rows hash b 0 0 t.buckets.size
  let t := { t with counts := t.counts.add probe }
  match probe.result with
  | .found bucket => ((t.cursorAt bucket, t), b)
  | _ => ((.atEnd, t), b)

/-- The row that a cursor is on. -/
def read (b : BufferedContext) (t : Table) (rows : RowStore) (c : Cursor) :
    Option Row × BufferedContext :=
  (c.ref? t).elim (none, b) (b.load rows)

/-! ### What an operation answers -/

/-- The flags are those of the key. -/
def Flagged (b : BufferedContext) : Prop :=
  b.nulls = b.context.key.map Value.isNull

/-- The induction is on the expressions; the key and the flags so far are general. -/
theorem foldl_push (exprs : List KeyExpr) (row : Row) (b : BufferedContext) :
    exprs.foldl (fun b e ↦ b.push (e.eval row)) b =
      { b with
        context.key := b.context.key ++ exprs.map (·.eval row)
        nulls := b.nulls ++ exprs.map fun e ↦ (e.eval row).isNull } := by
  induction exprs generalizing b with
  | nil => simp
  | cons e exprs ih =>
    rw [List.foldl_cons, ih, push]
    simp

/-- What was in the key and the flags before does not show in them. -/
theorem evaluate_eq (b : BufferedContext) (exprs : List KeyExpr) (row : Row) :
    b.evaluate exprs row =
      { b with
        context := b.context.evaluate exprs row
        nulls := exprs.map fun e ↦ (e.eval row).isNull } := by
  rw [evaluate, foldl_push, forget, emptied_eq, emptied_eq]
  rfl

theorem flagged_evaluate (b : BufferedContext) (exprs : List KeyExpr) (row : Row) :
    (b.evaluate exprs row).Flagged := by
  rw [Flagged, evaluate_eq, KeyContext.evaluate, List.map_map]
  rfl

theorem Flagged.keyHasNull_eq (h : b.Flagged) : b.keyHasNull = b.context.keyHasNull := by
  rw [keyHasNull, h, List.any_map]
  rfl

/-- The bytes of the components before do not show in the hash. The induction is on the key; the
hash and the bytes so far are general. -/
theorem foldl_hashComponent (b : BufferedContext) (key : List Value) (hash : UInt32)
    (bytes : List UInt8) :
    ∃ bytes', key.foldl hashComponent (hash, { b with bytes }) =
      (key.foldl (fun hash v ↦ b.context.hash hash v.keyBytes) hash,
        { b with bytes := bytes' }) := by
  induction key generalizing hash bytes with
  | nil => exact ⟨bytes, rfl⟩
  | cons v key ih =>
    have hcomponent : hashComponent (hash, { b with bytes }) v =
        (b.context.hash hash v.keyBytes, { b with bytes := v.keyBytes }) := by
      rw [hashComponent, emptied_eq, List.nil_append]
    rw [List.foldl_cons, List.foldl_cons, hcomponent]
    exact ih (b.context.hash hash v.keyBytes) v.keyBytes

theorem keyHash_eq (b : BufferedContext) :
    ∃ bytes, b.keyHash = (b.context.keyHash, { b with bytes }) :=
  b.foldl_hashComponent b.context.key b.context.seed b.bytes

theorem Flagged.hashUnless_eq (h : b.Flagged) (nullsTakePart : Bool) :
    ∃ bytes, b.hashUnless nullsTakePart =
      (b.context.hashUnless nullsTakePart, { b with bytes }) := by
  obtain ⟨bytes, hhash⟩ := b.keyHash_eq
  rw [hashUnless, KeyContext.hashUnless, h.keyHasNull_eq, hhash]
  split_ifs
  · exact ⟨b.bytes, rfl⟩
  · exact ⟨bytes, rfl⟩

/-- What is evaluated and hashed is answered as by the plain context, which is left behind. -/
theorem hashUnless_evaluate_eq (b : BufferedContext) (exprs : List KeyExpr) (row : Row)
    (nullsTakePart : Bool) :
    ∃ b', (b.evaluate exprs row).hashUnless nullsTakePart =
        ((b.context.evaluate exprs row).hashUnless nullsTakePart, b') ∧
      b'.context = b.context.evaluate exprs row ∧ b'.Flagged := by
  have hflagged := b.flagged_evaluate exprs row
  obtain ⟨bytes, hhash⟩ := hflagged.hashUnless_eq nullsTakePart
  refine ⟨{ b.evaluate exprs row with bytes }, ?_, ?_, hflagged⟩
  · rw [hhash, evaluate_eq]
  · rw [evaluate_eq]

theorem evaluateBuild_eq (b : BufferedContext) (row : Row) :
    ∃ b', b.evaluateBuild row = ((b.context.evaluateBuild row).2, b') ∧
      b'.context = (b.context.evaluateBuild row).1 ∧ b'.Flagged :=
  b.hashUnless_evaluate_eq b.context.buildExprs row b.context.storesNulls

theorem evaluateProbe_eq (b : BufferedContext) (row : Row) :
    ∃ b', b.evaluateProbe row = ((b.context.evaluateProbe row).2, b') ∧
      b'.context = (b.context.evaluateProbe row).1 ∧ b'.Flagged :=
  b.hashUnless_evaluate_eq b.context.probeExprs row (b.context.storesNulls && b.context.findsNulls)

/-- The row that was read before does not show in the row that is read. -/
theorem load_eq (b : BufferedContext) (rows : RowStore) (ref : RowRef) :
    ∃ scratch, b.load rows ref = (ref.resolve rows, { b with scratch }) := by
  cases ref with
  | direct shared => exact ⟨b.scratch, rfl⟩
  | indexed index =>
    rw [load, RowStore.materialize, RowRef.resolve]
    cases rows.get? index with
    | none => exact ⟨b.scratch, rfl⟩
    | some row => exact ⟨row, rfl⟩

theorem holds_eq (b : BufferedContext) (rows : RowStore) (ref : RowRef) :
    ∃ scratch, b.holds rows ref = (b.context.holds rows ref, { b with scratch }) := by
  obtain ⟨scratch, hload⟩ := b.load_eq rows ref
  exact ⟨scratch, by rw [holds, hload]; rfl⟩

theorem firstRow_holds_eq (b : BufferedContext) (rows : RowStore) (row? : Option RowRef) :
    ∃ scratch, row?.elim (false, b) (b.holds rows) =
      (row?.any (b.context.holds rows), { b with scratch }) := by
  cases row? with
  | none => exact ⟨b.scratch, rfl⟩
  | some ref => exact b.holds_eq rows ref

/-- A search goes the way of `Probe.walk`. The induction is on the buckets left; the row read last
is general. -/
theorem search_eq (t : Table) (rows : RowStore) (hash : UInt32) (b : BufferedContext)
    (travel collisions left : ℕ) :
    ∃ scratch, search t rows hash b travel collisions left =
      (Probe.walk t.probing t.buckets hash
        (fun bucket ↦ (bucket.firstRow? t.arena).any (b.context.holds rows)) travel collisions left,
        { b with scratch }) := by
  induction left generalizing b travel collisions with
  | zero => exact ⟨b.scratch, rfl⟩
  | succ left ih =>
    rw [search, Probe.walk]
    generalize t.buckets.getD (t.probing.slot t.buckets.size hash travel) .empty = bucket
    dsimp only
    cases bucket.hash? with
    | none => exact ⟨b.scratch, rfl⟩
    | some h =>
      dsimp only
      by_cases hsame : h = hash
      · obtain ⟨scratch, hread⟩ := b.firstRow_holds_eq rows (bucket.firstRow? t.arena)
        rw [if_pos hsame, if_pos hsame, hread]
        dsimp only
        cases (bucket.firstRow? t.arena).any (b.context.holds rows) with
        | true => exact ⟨scratch, rfl⟩
        | false => exact ih { b with scratch } (travel + 1) (collisions + 1)
      · rw [if_neg hsame, if_neg hsame]
        exact ih b (travel + 1) collisions

theorem find_eq (b : BufferedContext) (t : Table) (rows : RowStore) (hash : UInt32) :
    ∃ scratch, b.find t rows hash = (t.find rows b.context hash, { b with scratch }) := by
  obtain ⟨scratch, hsearch⟩ := search_eq t rows hash b 0 0 t.buckets.size
  refine ⟨scratch, ?_⟩
  rw [find, hsearch, Table.find, Table.probe, Probe.run]
  dsimp only
  generalize Probe.walk t.probing t.buckets hash _ 0 0 t.buckets.size = probe
  cases probe.result <;> rfl

theorem read_eq (b : BufferedContext) (t : Table) (rows : RowStore) (c : Cursor) :
    ∃ scratch, b.read t rows c = (c.row? t rows, { b with scratch }) := by
  rw [read, Cursor.row?]
  cases c.ref? t with
  | none => exact ⟨b.scratch, rfl⟩
  | some ref => exact b.load_eq rows ref

end BufferedContext

end JoinIndex
