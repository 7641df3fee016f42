import JoinIndex.Proofs.IntJoin.Filling

/-!
A join by a table answers what a join by nested loops answers. The nested loop compares each probe
key with the key of each row; `payloadsOf` collects the payloads of the rows that match. Neither the
bucket count, the probing mode, the seed, the growth of the table nor later resizes can be seen in
the answers, and no step faults or is refused. Only the seeds of the levels may be too many to begin
with.
-/

set_option autoImplicit false
set_option relaxedAutoImplicit false

namespace JoinIndex.IntJoin

open Table

variable {config : Config} {s : State} {kept : List Insertion} {stored : List (Key × Int64)}

/-- The payloads of the rows with a key, the last row first. -/
def payloadsOf (rows : List (Key × Int64)) (key : Key) : List Int64 :=
  ((rows.filter fun row ↦ row.1 == key).map Prod.snd).reverse

/-- The payloads of the rows with a key, in their order. -/
def payloadsIn (stored : List (Key × Int64)) (key : Key) : List Int64 :=
  (stored.filter fun row ↦ row.1 == key).map Prod.snd

/-- The kept rows with a key. -/
def refsOf (kept : List Insertion) (key : Key) : List RowRef :=
  (kept.filter fun i ↦ Row.sameValues i.key [keyValue key]).map Insertion.ref

/-- The payload of a row that the table holds. -/
def payloadOf? (ref : RowRef) : Option Int64 :=
  (ref.resolve noRows).bind fun row ↦ (row.get? 1).bind Value.toInt64?

theorem same_keyValue (key key' : Key) : (keyValue key).same (keyValue key') = (key == key') := by
  cases key <;> cases key' <;> rfl

theorem sameValues_keyValue (key key' : Key) :
    Row.sameValues [keyValue key] [keyValue key'] = (key == key') := by
  rw [Row.sameValues, same_keyValue, Row.sameValues, Bool.and_true]

theorem Stored.payloadOf?_eq {i : Insertion} {row : Key × Int64} (h : Stored config i row) :
    payloadOf? i.ref = some row.2 := by
  rw [payloadOf?, h.resolve_eq]
  rfl

/-- The payloads of the kept rows with a key. -/
theorem filterMap_payloadOf? (h : List.Forall₂ (Stored config) kept stored) (key : Key) :
    (refsOf kept key).filterMap payloadOf? = payloadsIn stored key := by
  rw [refsOf, payloadsIn]
  induction h with
  | nil => rfl
  | cons hfirst _ ih =>
    rw [List.filter_cons, List.filter_cons, hfirst.key_eq, sameValues_keyValue]
    split_ifs
    · rw [List.map_cons, List.filterMap_cons, hfirst.payloadOf?_eq, List.map_cons, ih]
    · exact ih

/-- Of the rows that are stored, those with a key that is stored are all rows with it. -/
theorem payloads_storedRows {key : Key} (hkey : storesKey config key = true)
    (rows : List (Key × Int64)) :
    payloadsIn (storedRows config rows) key = payloadsOf rows key := by
  rw [payloadsIn, storedRows, payloadsOf, List.filter_reverse, List.filter_filter, List.map_reverse]
  congr 2
  refine List.filter_congr fun row _ ↦ ?_
  by_cases hrow : row.1 = key
  · rw [hrow, hkey, Bool.and_true]
  · rw [beq_eq_false_iff_ne.mpr hrow, Bool.false_and]

/-! ### Probing -/

theorem payload?_eq (t : Table) (c : Cursor) :
    payload? t c = (c.ref? t).bind payloadOf? := by
  rw [payload?, Cursor.row?, Option.bind_assoc]
  rfl

theorem filterMap_payload? (t : Table) (cs : List Cursor) :
    cs.filterMap (payload? t) = (cs.map (·.ref? t)).filterMap fun ref? ↦ ref?.bind payloadOf? := by
  rw [List.filterMap_map]
  exact List.filterMap_congr fun c _ ↦ payload?_eq t c

theorem asks_asked (config : Config) (key : Key) : Session.Asks keyExprs (asked config key) :=
  ⟨rfl, rfl⟩

/-- The table after a search differs from the one before in nothing that `Holds` speaks of. -/
theorem Holds.find (h : Holds config s kept stored) (key : Key) (hash : UInt32) :
    Holds config ⟨(s.table.find noRows (asked config key) hash).2, s.budget, asked config key,
      s.numShared⟩ kept stored := by
  obtain ⟨probe, -, heq⟩ := find_eq s.table noRows (asked config key) hash
  rw [heq]
  have hchanges := Session.Changes.quiet (s := ⟨s.table, s.budget, noRows, kept⟩)
    (s.table.searched probe) s.budget (Move.search probe).moves (List.Perm.refl _) rfl
  exact {
    inOrder := hchanges.inOrder h.inOrder
    charged := h.charged
    storage_eq := h.storage_eq
    spent := ⟨h.spent.1, h.spent.2, h.spent.3, h.spent.4⟩
    context_eq := rfl
    forall₂ := h.forall₂ }

theorem Holds.exists_probe_eq (h : Holds config s kept stored)
    (hlength : stored.length ≤ Config.maxBuckets) (key : Key) :
    ∃ s', probe s key = (if findsKey config key then payloadsIn stored key else [], s') ∧
      Holds config s' kept stored := by
  rw [probe, evaluateProbe_eq h.context_eq]
  cases hkey : findsKey config key with
  | false => exact ⟨{ s with context := asked config key }, rfl, h.with_context key⟩
  | true =>
    let hash := (hashOf config).toFun [keyValue key]
    let found := s.table.find noRows (asked config key) hash
    have hrefs := Session.map_ref?_positions_find h.inOrder (h.addressable hlength) h.keyedBy
      (fun i hi ↦ h.hash_eq hi) (asks_asked config key)
    change (found.1.positions found.2 .duplicate).map (·.ref? found.2) =
      (refsOf kept key).map some at hrefs
    have hread : (found.1.positions found.2 .duplicate).filterMap (payload? found.2) =
        payloadsIn stored key := by
      rw [← filterMap_payloadOf? h.forall₂ key, filterMap_payload?, hrefs, List.filterMap_map]
      exact List.filterMap_congr fun ref _ ↦ rfl
    refine ⟨⟨found.2, s.budget, asked config key, s.numShared⟩, ?_, h.find key hash⟩
    change ((found.1.positions found.2 .duplicate).filterMap (payload? found.2), _) = _
    rw [hread]
    rfl

theorem Holds.probeAll_eq (h : Holds config s kept stored)
    (hlength : stored.length ≤ Config.maxBuckets) (keys : List Key) :
    ∃ s', probeAll s keys =
      (keys.map fun key ↦ if findsKey config key then payloadsIn stored key else [], s') ∧
        Holds config s' kept stored := by
  induction keys generalizing s with
  | nil => exact ⟨s, rfl, h⟩
  | cons key rest ih =>
    obtain ⟨next, hprobe, hnext⟩ := h.exists_probe_eq hlength key
    obtain ⟨s', hrest, hend⟩ := ih hnext
    refine ⟨s', ?_, hend⟩
    rw [probeAll, hprobe]
    dsimp only
    rw [hrest]
    rfl

/-! ### Reading all rows -/

theorem add_of_not_mem {groups : Groups} {v : Value} (hnew : ∀ g ∈ groups, g.1.same v = false)
    (payload : Int64) : groups.add v payload = groups ++ [(v, [payload])] := by
  induction groups with
  | nil => rfl
  | cons g rest ih =>
    obtain ⟨k, payloads⟩ := g
    rw [Groups.add, if_neg (by simp [hnew _ List.mem_cons_self]),
      ih fun g hg ↦ hnew g (List.mem_cons_of_mem _ hg)]
    rfl

theorem add_of_last {groups : Groups} {v : Value} (hnew : ∀ g ∈ groups, g.1.same v = false)
    (payloads : List Int64) (payload : Int64) :
    Groups.add (groups ++ [(v, payloads)]) v payload = groups ++ [(v, payloads ++ [payload])] := by
  induction groups with
  | nil => rw [List.nil_append, Groups.add, if_pos (Value.same_refl v), List.nil_append]
  | cons g rest ih =>
    obtain ⟨k, others⟩ := g
    rw [List.cons_append, Groups.add, if_neg (by simp [hnew _ List.mem_cons_self]),
      ih fun g hg ↦ hnew g (List.mem_cons_of_mem _ hg)]
    rfl

/-- The payloads of a key that is met for the first time make a group of their own. -/
theorem foldl_add {groups : Groups} {v : Value} (hnew : ∀ g ∈ groups, g.1.same v = false)
    {payloads : List Int64} (hne : payloads ≠ []) :
    payloads.foldl (fun gs payload ↦ Groups.add gs v payload) groups =
      groups ++ [(v, payloads)] := by
  have hgrow : ∀ (rest before : List Int64),
      rest.foldl (fun gs payload ↦ Groups.add gs v payload) (groups ++ [(v, before)]) =
        groups ++ [(v, before ++ rest)] := by
    intro rest
    induction rest with
    | nil => intro before; rw [List.foldl_nil, List.append_nil]
    | cons payload rest ih =>
      intro before
      rw [List.foldl_cons, add_of_last hnew, ih, List.append_assoc, List.singleton_append]
  cases payloads with
  | nil => exact absurd rfl hne
  | cons payload rest =>
    rw [List.foldl_cons, add_of_not_mem hnew, hgrow, List.singleton_append]

/-- What a scan does with a row. -/
def visitRef (groups : Groups) (ref : RowRef) : Groups :=
  match ref.resolve noRows with
  | none => groups
  | some row =>
    groups.add ((row.get? 0).getD .null) (((row.get? 1).bind Value.toInt64?).getD 0)

theorem visit_eq (s : State) (groups : Groups) (c : Cursor) :
    scan.visit s groups c = (c.ref? s.table).elim groups (visitRef groups) := by
  rw [scan.visit, Cursor.row?]
  cases c.ref? s.table <;> rfl

theorem Holds.scan_eq_foldl (h : Holds config s kept stored)
    (haddr : s.table.arena.Addressable) : scan s = s.table.refs.foldl visitRef [] := by
  have hlinked := h.inOrder.intact.linked haddr
  have hvisit : scan.visit s = fun groups c ↦
      (c.ref? s.table).elim groups (visitRef groups) := by
    funext groups c
    exact visit_eq s groups c
  have hread : s.table.cursors.foldl (fun groups c ↦
        (c.ref? s.table).elim groups (visitRef groups)) [] =
      (s.table.cursors.map (·.ref? s.table)).foldl
        (fun groups ref? ↦ ref?.elim groups (visitRef groups)) [] := by
    rw [List.foldl_map]
  rw [scan, positions_first hlinked h.inOrder.intact.sound, hvisit, hread,
    map_ref?_cursors hlinked, List.foldl_map]
  rfl

theorem Stored.visitRef_eq {i : Insertion} {row : Key × Int64} (h : Stored config i row)
    (groups : Groups) : visitRef groups i.ref = groups.add (keyValue row.1) row.2 := by
  rw [visitRef, h.resolve_eq]
  rfl

theorem foldl_visitRef_refsOf (h : List.Forall₂ (Stored config) kept stored) (key : Key)
    (groups : Groups) : (refsOf kept key).foldl visitRef groups = (payloadsIn stored key).foldl
      (fun gs payload ↦ Groups.add gs (keyValue key) payload) groups := by
  rw [refsOf, payloadsIn]
  induction h generalizing groups with
  | nil => rfl
  | @cons i row _ _ hfirst _ ih =>
    rw [List.filter_cons, List.filter_cons, hfirst.key_eq, sameValues_keyValue]
    split_ifs with hkey
    · rw [List.map_cons, List.foldl_cons, List.map_cons, List.foldl_cons, hfirst.visitRef_eq,
        beq_iff_eq.mp hkey]
      exact ih _
    · exact ih groups

/-- Rows that are met key by key are grouped key by key. -/
theorem foldl_visitRef_keys (h : List.Forall₂ (Stored config) kept stored) {keys : List Key}
    (hnodup : keys.Nodup) (hstored : ∀ key ∈ keys, ∃ row ∈ stored, row.1 = key) (groups : Groups)
    (hnew : ∀ g ∈ groups, ∀ key ∈ keys, g.1.same (keyValue key) = false) :
    (keys.flatMap (refsOf kept)).foldl visitRef groups =
      groups ++ keys.map fun key ↦ (keyValue key, payloadsIn stored key) := by
  induction keys generalizing groups with
  | nil => rw [List.flatMap_nil, List.foldl_nil, List.map_nil, List.append_nil]
  | cons key rest ih =>
    have hne : payloadsIn stored key ≠ [] := by
      obtain ⟨row, hrow, hkey⟩ := hstored key List.mem_cons_self
      have hmem : row ∈ stored.filter fun row ↦ row.1 == key :=
        List.mem_filter.mpr ⟨hrow, beq_iff_eq.mpr hkey⟩
      rw [payloadsIn, Ne, List.map_eq_nil_iff]
      exact List.ne_nil_of_mem hmem
    have hfirst : ∀ g ∈ groups, g.1.same (keyValue key) = false :=
      fun g hg ↦ hnew g hg key List.mem_cons_self
    rw [List.flatMap_cons, List.foldl_append, foldl_visitRef_refsOf h, foldl_add hfirst hne,
      ih (List.nodup_cons.mp hnodup).2 (fun k hk ↦ hstored k (List.mem_cons_of_mem _ hk)) _ ?_,
      List.append_assoc, List.singleton_append, List.map_cons]
    intro g hg k hk
    rcases List.mem_append.mp hg with hg | hg
    · exact hnew g hg k (List.mem_cons_of_mem _ hk)
    · rw [List.mem_singleton] at hg
      rw [hg, same_keyValue, beq_eq_false_iff_ne]
      rintro rfl
      exact (List.nodup_cons.mp hnodup).1 hk

/-- The key under which a row was stored. -/
def keyOf (i : Insertion) : Key :=
  i.key.head?.bind Value.toInt64?

theorem Stored.keyOf_eq {i : Insertion} {row : Key × Int64} (h : Stored config i row) :
    keyOf i = row.1 ∧ i.key = [keyValue (keyOf i)] := by
  have hkey : keyOf i = row.1 := by
    rw [keyOf, h.key_eq]
    cases row.1 <;> rfl
  rw [hkey]
  exact ⟨rfl, h.key_eq⟩

theorem Holds.key_eq (h : Holds config s kept stored) {i : Insertion} (hi : i ∈ kept) :
    i.key = [keyValue (keyOf i)] := by
  obtain ⟨row, -, hstored⟩ := h.exists_stored hi
  exact hstored.keyOf_eq.2

/-- Rows share a bucket when they have one key. -/
theorem Holds.alike_iff (h : Holds config s kept stored) {i j : Insertion} (hi : i ∈ kept)
    (hj : j ∈ kept) : i.alike j = true ↔ keyOf i = keyOf j := by
  have hsame : Row.sameValues i.key j.key = (keyOf i == keyOf j) := by
    rw [h.key_eq hi, h.key_eq hj, sameValues_keyValue]
  rw [Insertion.alike_iff, hsame, beq_iff_eq, h.hash_eq hi, h.hash_eq hj]
  refine and_iff_right_of_imp fun heq ↦ (hashOf config).eq_of_same _ _ ?_
  rw [hsame, beq_iff_eq]
  exact heq

/-- The keys of the groups, in the order of the buckets. -/
theorem Holds.exists_keys (h : Holds config s kept stored) (haddr : s.table.arena.Addressable) :
    ∃ keys : List Key, keys.Nodup ∧ (∀ key, key ∈ keys ↔ ∃ row ∈ stored, row.1 = key) ∧
      s.table.refs = keys.flatMap (refsOf kept) := by
  obtain ⟨reps, hclasses⟩ := h.inOrder.grouped haddr h.keyedBy
  obtain ⟨ordered, hshapes, hordered⟩ := hclasses.exists_reps_eq
  refine ⟨ordered.map keyOf, ?_, fun key ↦ ?_, ?_⟩
  · refine List.pairwise_map.mpr (hordered.pairwise.imp_of_mem fun {r q} hr hq hrq ↦ ?_)
    rw [Ne, ← h.alike_iff (hordered.mem r hr) (hordered.mem q hq), hrq]
    exact Bool.false_ne_true
  · rw [List.mem_map]
    constructor
    · rintro ⟨r, hr, rfl⟩
      obtain ⟨row, hrow, hstored⟩ := h.exists_stored (hordered.mem r hr)
      exact ⟨row, hrow, hstored.keyOf_eq.1.symm⟩
    · rintro ⟨row, hrow, rfl⟩
      obtain ⟨i, hi, hstored⟩ := h.exists_kept hrow
      obtain ⟨r, hr, hri⟩ := hordered.exists_alike i hi
      refine ⟨r, hr, ?_⟩
      rw [(h.alike_iff (hordered.mem r hr) hi).mp hri, hstored.keyOf_eq.1]
  · rw [refs, hshapes, List.flatMap_map, List.flatMap_map]
    refine List.flatMap_congr fun r hr ↦ ?_
    have hr := hordered.mem r hr
    refine Session.classOf_eq_rowsFor (s := ⟨s.table, s.budget, noRows, kept⟩)
      (fun i hi ↦ h.hash_eq hi) hr ?_
    rw [← h.key_eq hr]
    exact Row.sameValues_refl _

theorem Holds.scan_perm (h : Holds config s kept stored) (haddr : s.table.arena.Addressable) :
    (scan s).Perm
      ((stored.map Prod.fst).dedup.map fun key ↦ (keyValue key, payloadsIn stored key)) := by
  obtain ⟨keys, hnodup, hmem, hrefs⟩ := h.exists_keys haddr
  have hkeys : keys.Perm (stored.map Prod.fst).dedup := by
    rw [List.perm_ext_iff_of_nodup hnodup (List.nodup_dedup _)]
    intro key
    rw [hmem, List.mem_dedup, List.mem_map]
  rw [h.scan_eq_foldl haddr, hrefs, foldl_visitRef_keys h.forall₂ hnodup
    (fun key hkey ↦ (hmem key).mp hkey) [] (fun g hg ↦ absurd hg List.not_mem_nil),
    List.nil_append]
  exact hkeys.map _

/-! ### The whole join -/

theorem answerOf_eq (config : Config) (row : Key × Int64) : answerOf config row =
    if row.1 = none ∧ config.storesNulls = false then none else some true := by
  rw [answerOf, storesKey]
  cases row.1 <;> cases config.storesNulls <;> rfl

/-- A key that may be found is stored. -/
theorem storesKey_of_findsKey {key : Key} (h : findsKey config key = true) :
    storesKey config key = true := by
  rw [findsKey, Bool.or_eq_true, Bool.and_eq_true] at h
  rw [storesKey, Bool.or_eq_true]
  exact h.imp And.left id

theorem probed_eq (config : Config) (rows : List (Key × Int64)) (key : Key) :
    (if findsKey config key then payloadsIn (storedRows config rows) key else []) =
      if key = none ∧ (config.storesNulls && config.findsNulls) = false then []
      else payloadsOf rows key := by
  by_cases hfinds : findsKey config key = true
  · have hnot : ¬ (key = none ∧ (config.storesNulls && config.findsNulls) = false) := by
      rintro ⟨rfl, hnulls⟩
      rw [findsKey, hnulls] at hfinds
      cases hfinds
    rw [if_pos hfinds, if_neg hnot, payloads_storedRows (storesKey_of_findsKey hfinds)]
  · have hnone : key = none ∧ (config.storesNulls && config.findsNulls) = false := by
      rw [findsKey, Bool.or_eq_true, not_or, Bool.not_eq_true, Bool.not_eq_true,
        Option.isSome_eq_false_iff, Option.isNone_iff_eq_none] at hfinds
      exact hfinds.symm
    rw [if_neg hfinds, if_pos hnone]

theorem scanned_perm (config : Config) (rows : List (Key × Int64)) :
    (((storedRows config rows).map Prod.fst).dedup.map fun key ↦
      (keyValue key, payloadsIn (storedRows config rows) key)).Perm
        (((rows.map Prod.fst).filter fun key ↦ key.isSome || config.storesNulls).dedup.map
          fun key ↦ (keyValue key, payloadsOf rows key)) := by
  have hmem : ∀ key, key ∈ (storedRows config rows).map Prod.fst ↔
      key ∈ (rows.map Prod.fst).filter fun key ↦ key.isSome || config.storesNulls := by
    intro key
    rw [storedRows, List.map_reverse, List.mem_reverse, List.mem_map, List.mem_filter,
      List.mem_map]
    constructor
    · rintro ⟨row, hrow, rfl⟩
      obtain ⟨hrow, hkey⟩ := List.mem_filter.mp hrow
      rw [storesKey, Bool.or_comm] at hkey
      exact ⟨⟨row, hrow, rfl⟩, hkey⟩
    · rintro ⟨⟨row, hrow, rfl⟩, hkey⟩
      refine ⟨row, List.mem_filter.mpr ⟨hrow, ?_⟩, rfl⟩
      rw [storesKey, Bool.or_comm]
      exact hkey
  have hkeys : ((storedRows config rows).map Prod.fst).dedup.Perm
      ((rows.map Prod.fst).filter fun key ↦ key.isSome || config.storesNulls).dedup := by
    rw [List.perm_ext_iff_of_nodup (List.nodup_dedup _) (List.nodup_dedup _)]
    intro key
    rw [List.mem_dedup, List.mem_dedup, hmem]
  have hpayloads : ((storedRows config rows).map Prod.fst).dedup.map (fun key ↦
      (keyValue key, payloadsIn (storedRows config rows) key)) =
        ((storedRows config rows).map Prod.fst).dedup.map fun key ↦
          (keyValue key, payloadsOf rows key) := by
    refine List.map_congr_left fun key hkey ↦ ?_
    have hstored := (List.mem_filter.mp ((hmem key).mp (List.mem_dedup.mp hkey))).2
    rw [payloads_storedRows (by rw [storesKey, Bool.or_comm]; exact hstored)]
  rw [hpayloads]
  exact hkeys.map _

theorem run_eq_error (hvalid : config.validate = .ok ()) (hstorage : config.storage = .direct)
    (hkeys : config.buildKeys = 1) (hlevels : 2 ^ 61 ≤ config.levels) (grows : Bool)
    (rows : List (Key × Int64)) (resizes : List Nat) (probes : List Key) :
    run config grows rows resizes probes = .error (.fault .capacityOverflow) := by
  rw [run, start_eq_error hvalid hstorage hkeys hlevels]
  rfl

/-- A join by a table over fewer rows than three quarters of the largest table, with any
configuration for rows of one key, any resizes and any probes. Room is made before every row, and
every row whose key is stored is taken in. A probe answers the payloads of the rows with its key,
the last row first; a probe for null answers those of the rows with a null if these are stored and
may be found. Reading all rows gives each stored key once, with the payloads of its rows, the last
row first.

All this is so for fewer than `2 ^ 61` levels, the most whose seeds there is room for. With more of
them the join does not start. -/
theorem run_eq_nestedLoop (hvalid : config.validate = .ok ()) (hstorage : config.storage = .direct)
    (hkeys : config.buildKeys = 1) {rows : List (Key × Int64)} (hrows : rows.length < 3 * 2 ^ 28)
    (resizes : List Nat) (probes : List Key) :
    (config.levels < 2 ^ 61 → ∃ report, run config true rows resizes probes = .ok report ∧
      (∀ before after, rows = before ++ after → after ≠ [] → ∃ started answers s o,
        start config = .ok started ∧ insertAll started true before = .ok (answers, s) ∧
          s.table.makeRoom s.budget 1 = .ok o ∧ o.answer = .ok ()) ∧
      report.inserts = rows.map (fun row ↦
        if row.1 = none ∧ config.storesNulls = false then none else some true) ∧
      report.probes = probes.map (fun key ↦
        if key = none ∧ (config.storesNulls && config.findsNulls) = false then []
        else payloadsOf rows key) ∧
      report.scan.Perm
        (((rows.map Prod.fst).filter fun key ↦
          key.isSome || config.storesNulls).dedup.map fun key ↦
            (keyValue key, payloadsOf rows key))) ∧
    (2 ^ 61 ≤ config.levels →
      run config true rows resizes probes = .error (.fault .capacityOverflow)) := by
  refine ⟨fun hlevels ↦ ?_, fun hlevels ↦
    run_eq_error hvalid hstorage hkeys hlevels true rows resizes probes⟩
  obtain ⟨started, hstart, hempty⟩ := exists_start_eq_ok hvalid hstorage hkeys hlevels
  obtain ⟨filled, kept, hfilled, hholds⟩ := hempty.exists_insertAll_eq_ok rows (by
    rw [List.length_nil]
    omega)
  rw [List.append_nil] at hholds
  have hlength : (storedRows config rows).length ≤ Config.maxBuckets := by
    rw [storedRows, List.length_reverse]
    refine (List.length_filter_le _ _).trans ?_
    change _ ≤ 2 ^ 30
    omega
  obtain ⟨answers, resized, hresized, hholds⟩ := hholds.exists_resizeAll_eq_ok resizes
  obtain ⟨probed, hprobed, hholds⟩ := hholds.probeAll_eq hlength probes
  have hscan := hholds.scan_perm (hholds.addressable hlength)
  refine ⟨⟨rows.map (answerOf config), answers, probes.map fun key ↦
    if findsKey config key then payloadsIn (storedRows config rows) key else [],
    (scan probed).mergeSort keyLe, probed.table.stats⟩, ?_, ?_, ?_, ?_, ?_⟩
  · rw [run, hstart]
    simp only [bind, Except.bind, hfilled, hresized, hprobed, Except.mapError]
    rfl
  · intro before after hsplit hafter
    have hbefore : before.length < 3 * 2 ^ 28 := by
      rw [hsplit, List.length_append] at hrows
      omega
    obtain ⟨s, kept, hs, hholds⟩ := hempty.exists_insertAll_eq_ok before (by
      rw [List.length_nil]
      omega)
    rw [List.append_nil] at hholds
    have hstored : (storedRows config before).length < 3 * 2 ^ 28 := by
      rw [storedRows, List.length_reverse]
      exact (List.length_filter_le _ _).trans_lt hbefore
    obtain ⟨o, ho, hanswer, -⟩ := hholds.exists_makeRoom_granted hstored
    exact ⟨started, _, s, o, hstart, hs, ho, hanswer⟩
  · exact List.map_congr_left fun row _ ↦ answerOf_eq config row
  · exact List.map_congr_left fun key _ ↦ probed_eq config rows key
  · exact (List.mergeSort_perm _ _).trans (hscan.trans (scanned_perm config rows))

theorem run_eq_nestedLoop_small : ∃ report,
    run (.quadratic 1) true [(some 1, 10), (none, 20), (some 1, 30), (some 2, 40)] [8, 3]
        [some 1, some 3, none] = .ok report ∧
      report.inserts = [some true, none, some true, some true] ∧
      report.probes = [[30, 10], [], []] ∧
      report.scan.Perm [(.int64 1, [30, 10]), (.int64 2, [40])] := by
  have hvalid : (Config.quadratic 1).validate = .ok () := rfl
  have hstorage : (Config.quadratic 1).storage = .direct := rfl
  have hkeys : (Config.quadratic 1).buildKeys = 1 := rfl
  let rows : List (Key × Int64) := [(some 1, 10), (none, 20), (some 1, 30), (some 2, 40)]
  have hrows : rows.length < 3 * 2 ^ 28 := by decide
  have hlevels : (Config.quadratic 1).levels < 2 ^ 61 := by decide
  obtain ⟨report, hrun, -, hinserts, hprobes, hscan⟩ :=
    (run_eq_nestedLoop hvalid hstorage hkeys hrows [8, 3] [some 1, some 3, none]).1 hlevels
  exact ⟨report, hrun, hinserts, hprobes, hscan⟩

/-- A configuration for rows of one key is valid with any number of levels, but with `2 ^ 61` of
them a join of a single row answers nothing. -/
theorem run_levels_overflow :
    let config := { Config.linear 1 with levels := 2 ^ 61 }
    config.validate = .ok () ∧ config.storage = .direct ∧ config.buildKeys = 1 ∧
      run config true [(some 1, 10)] [] [some 1] = .error (.fault .capacityOverflow) ∧
      ¬ ∃ report, run config true [(some 1, 10)] [] [some 1] = .ok report := by
  intro config
  have hvalid : config.validate = .ok () := rfl
  have hrun : run config true [(some 1, 10)] [] [some 1] = .error (.fault .capacityOverflow) :=
    run_eq_error hvalid rfl rfl (le_refl _) true _ _ _
  refine ⟨hvalid, rfl, rfl, hrun, fun ⟨report, hreport⟩ ↦ ?_⟩
  rw [hrun] at hreport
  cases hreport

end JoinIndex.IntJoin
