import JoinIndex.IntJoin
import JoinIndex.Proofs.Hash.Seeds
import JoinIndex.Proofs.Session.Multimap
import JoinIndex.Proofs.Table.Spending

/-!
Filling the table of a join. After any number of rows, and after any resizes, the table holds the
rows whose keys are stored, the latest first, and has spent no more than they cost; so the next row
finds room and is taken in. `Holds` says this of a state of the join, and every step keeps it.
-/

set_option autoImplicit false
set_option relaxedAutoImplicit false

namespace JoinIndex.IntJoin

open Table

variable {config : Config} {s : State} {kept : List Insertion} {stored : List (Key × Int64)}

/-- The context of a join before any key was evaluated. -/
def baseContext (config : Config) : KeyContext :=
  KeyContext.new keyExprs keyExprs config.storesNulls config.findsNulls config.seeds

/-- The context of a join that has evaluated a key. -/
def asked (config : Config) (key : Key) : KeyContext :=
  { baseContext config with key := [keyValue key] }

/-- The hash function of a join. It is never computed here: all that matters is that it is a
function of the key. -/
@[irreducible] def hashOf (config : Config) : KeyHash :=
  KeyHash.ofContext (baseContext config)

theorem keyHash_asked (config : Config) (key : Key) :
    (asked config key).keyHash = (hashOf config).toFun [keyValue key] := by
  rw [hashOf]
  rfl

/-- Whether rows with a key are stored. -/
def storesKey (config : Config) (key : Key) : Bool :=
  config.storesNulls || key.isSome

/-- Whether a key may be found. -/
def findsKey (config : Config) (key : Key) : Bool :=
  (config.storesNulls && config.findsNulls) || key.isSome

/-- An insertion of a row, with its key and the hash of the key. -/
structure Stored (config : Config) (i : Insertion) (row : Key × Int64) : Prop where
  resolve_eq : i.ref.resolve noRows = some (buildRow row.1 row.2)
  row?_eq : i.row? = some (buildRow row.1 row.2)
  buildExprs_eq : i.context.buildExprs = keyExprs
  key_eq : i.key = [keyValue row.1]
  hash_eq : i.hash = (hashOf config).toFun i.key

/-- The table holds these rows, the latest first. -/
structure Holds (config : Config) (s : State) (kept : List Insertion)
    (stored : List (Key × Int64)) : Prop where
  inOrder : Session.InOrder keyExprs ⟨s.table, s.budget, noRows, kept⟩
  charged : s.table.Charged s.budget
  storage_eq : s.table.storage = .direct
  spent : Spent s.table s.budget stored.length
  context_eq : s.context = { baseContext config with key := s.context.key }
  forall₂ : List.Forall₂ (Stored config) kept stored

theorem Stored.keyed {i : Insertion} {row : Key × Int64} (h : Stored config i row) :
    i.Keyed keyExprs :=
  ⟨h.buildExprs_eq, _, h.row?_eq, h.key_eq⟩

theorem exists_of_mem_forall₂ {α β : Type} {r : α → β → Prop} {as : List α} {bs : List β}
    (h : List.Forall₂ r as bs) {a : α} (ha : a ∈ as) : ∃ b ∈ bs, r a b := by
  induction h with
  | nil => cases ha
  | cons hfirst _ ih =>
    rcases List.mem_cons.mp ha with rfl | ha
    · exact ⟨_, List.mem_cons_self, hfirst⟩
    · obtain ⟨b, hb, hab⟩ := ih ha
      exact ⟨b, List.mem_cons_of_mem _ hb, hab⟩

theorem Holds.exists_stored (h : Holds config s kept stored) {i : Insertion} (hi : i ∈ kept) :
    ∃ row ∈ stored, Stored config i row :=
  exists_of_mem_forall₂ h.forall₂ hi

theorem Holds.exists_kept (h : Holds config s kept stored) {row : Key × Int64}
    (hrow : row ∈ stored) : ∃ i ∈ kept, Stored config i row :=
  exists_of_mem_forall₂ h.forall₂.flip hrow

theorem Holds.keyedBy (h : Holds config s kept stored) :
    Session.KeyedBy keyExprs ⟨s.table, s.budget, noRows, kept⟩ := by
  intro i hi
  obtain ⟨row, -, hstored⟩ := h.exists_stored hi
  exact hstored.keyed

theorem Holds.hash_eq (h : Holds config s kept stored) {i : Insertion} (hi : i ∈ kept) :
    i.hash = (hashOf config).toFun i.key := by
  obtain ⟨row, -, hstored⟩ := h.exists_stored hi
  exact hstored.hash_eq

theorem Holds.addressable (h : Holds config s kept stored)
    (hlength : stored.length ≤ Config.maxBuckets) : s.table.arena.Addressable := by
  have hpages := h.spent.pages_le
  have hmax : Config.maxBuckets ≤ 2 ^ 32 := by decide
  exact (hpages.trans hlength).trans hmax

/-! ### Evaluating keys -/

theorem isNull_keyValue (key : Key) : (keyValue key).isNull = !key.isSome := by
  cases key <;> rfl

theorem evaluateBuild_eq {context : KeyContext}
    (h : context = { baseContext config with key := context.key }) (key : Key)
    (payload : Int64) : context.evaluateBuild (buildRow key payload) =
      (asked config key,
        if storesKey config key then some ((hashOf config).toFun [keyValue key]) else none) := by
  have hcontext : context.evaluate context.buildExprs (buildRow key payload) =
      asked config key := by
    rw [h]
    rfl
  rw [KeyContext.evaluateBuild, hcontext]
  change (asked config key,
    if ((keyValue key).isNull || false) && !config.storesNulls then none
      else some (asked config key).keyHash) = _
  rw [keyHash_asked, Bool.or_false, isNull_keyValue, storesKey]
  cases config.storesNulls <;> cases key.isSome <;> rfl

theorem evaluateProbe_eq {context : KeyContext}
    (h : context = { baseContext config with key := context.key }) (key : Key) :
    context.evaluateProbe (probeRow key) =
      (asked config key,
        if findsKey config key then some ((hashOf config).toFun [keyValue key]) else none) := by
  have hcontext : context.evaluate context.probeExprs (probeRow key) = asked config key := by
    rw [h]
    rfl
  rw [KeyContext.evaluateProbe, hcontext]
  change (asked config key,
    if ((keyValue key).isNull || false) && !(config.storesNulls && config.findsNulls) then none
      else some (asked config key).keyHash) = _
  rw [keyHash_asked, Bool.or_false, isNull_keyValue, findsKey]
  cases config.storesNulls && config.findsNulls <;> cases key.isSome <;> rfl

/-! ### Steps -/

/-- A context that has evaluated another key serves as well. -/
theorem Holds.with_context (h : Holds config s kept stored) (key : Key) :
    Holds config { s with context := asked config key } kept stored :=
  ⟨h.inOrder, h.charged, h.storage_eq, h.spent, rfl, h.forall₂⟩

theorem Holds.of_resized (h : Holds config s kept stored) {size : Nat}
    {o : Outcome (Except Error Unit)} (hresized : Resized s.table s.budget size o) :
    Holds config { s with table := o.table, budget := o.budget } kept stored where
  inOrder := (Session.Changes.of_resized
    (s := ⟨s.table, s.budget, noRows, kept⟩) hresized).inOrder h.inOrder
  charged := hresized.charged h.charged
  storage_eq := hresized.storage_eq.trans h.storage_eq
  spent := hresized.spent h.spent
  context_eq := h.context_eq
  forall₂ := h.forall₂

/-- Room for one more row is made. -/
theorem Holds.exists_makeRoom_granted (h : Holds config s kept stored)
    (hlength : stored.length < 3 * 2 ^ 28) :
    ∃ o, s.table.makeRoom s.budget 1 = .ok o ∧ o.answer = .ok () ∧
      Holds config { s with table := o.table, budget := o.budget } kept stored ∧
      o.table.filled < o.table.buckets.size := by
  have hfilled := h.spent.filled_le
  have hmore : 4 * (s.table.filled + 1) ≤ 3 * Config.maxBuckets := by
    change _ ≤ 3 * 2 ^ 30
    omega
  have hmax : stored.length ≤ Config.maxBuckets := by
    change _ ≤ 2 ^ 30
    omega
  obtain ⟨o, ho, hanswer, hcases, hroom⟩ := h.spent.exists_makeRoom_eq_ok
    h.inOrder.intact.sound h.charged hmax hmore
  refine ⟨o, ho, hanswer, ?_, by omega⟩
  rcases hcases with ⟨htable, hbudget⟩ | ⟨size, hresized⟩
  · rw [htable, hbudget]
    exact h
  · exact h.of_resized hresized

theorem makeRoom_eq_ok {o : Outcome (Except Error Unit)}
    (h : s.table.makeRoom s.budget 1 = .ok o) :
    makeRoom s = .ok { s with table := o.table, budget := o.budget } := by
  rw [makeRoom, h]
  rfl

/-- A row whose key is not stored leaves the table as it is. -/
theorem Holds.insert_none (h : Holds config s kept stored) {key : Key} (payload : Int64)
    (hkey : storesKey config key = false) :
    insert s key payload = (none, { s with context := asked config key }) := by
  rw [insert, evaluateBuild_eq h.context_eq, hkey]
  rfl

/-- A row whose key is stored is taken in. -/
theorem Holds.exists_insert_some (h : Holds config s kept stored) {key : Key} (payload : Int64)
    (hkey : storesKey config key = true) (hlength : stored.length < 3 * 2 ^ 28)
    (hroom : s.table.filled < s.table.buckets.size) :
    ∃ s' i, insert s key payload = (some true, s') ∧
      Holds config s' (i :: kept) ((key, payload) :: stored) := by
  have hsound := h.inOrder.intact.sound
  let shared : SharedRow := ⟨s.numShared, buildRow key payload⟩
  let hash := (hashOf config).toFun [keyValue key]
  let o := s.table.insert s.budget noRows (asked config key) (.direct shared) hash
  have hinserted : Inserted s.table s.budget ((asked config key).holds noRows) (.direct shared)
      hash o := insert_inserted _ _ _ _ _ _
  have hmax : stored.length ≤ Config.maxBuckets := by
    change _ ≤ 2 ^ 30
    omega
  have hanswer : o.answer = true :=
    hinserted.granted hsound h.storage_eq.symm hroom (h.spent.admits_page hsound hmax)
  let i : Insertion := ⟨.direct shared, some (buildRow key payload), asked config key, hash⟩
  refine ⟨⟨o.table, o.budget, asked config key, s.numShared + 1⟩, i, ?_, ?_⟩
  · rw [insert, evaluateBuild_eq h.context_eq, hkey]
    change (some o.answer, _) = _
    rw [hanswer]
  · have hchanges := Session.Changes.insert (s := ⟨s.table, s.budget, noRows, kept⟩)
      (asked config key) (.direct shared) hash o hinserted
    rw [if_pos hanswer] at hchanges
    exact {
      inOrder := hchanges.inOrder h.inOrder
      charged := hinserted.charged h.charged
      storage_eq := hinserted.storage_eq.trans h.storage_eq
      spent := hinserted.spent h.spent hsound
      context_eq := rfl
      forall₂ := h.forall₂.cons ⟨rfl, rfl, rfl, rfl, rfl⟩ }

/-! ### Runs -/

/-- What storing a row answers. -/
def answerOf (config : Config) (row : Key × Int64) : Option Bool :=
  if storesKey config row.1 then some true else none

/-- The rows that are stored, the latest first. -/
def storedRows (config : Config) (rows : List (Key × Int64)) : List (Key × Int64) :=
  (rows.filter fun row ↦ storesKey config row.1).reverse

theorem storedRows_cons (row : Key × Int64) (rest : List (Key × Int64)) :
    storedRows config (row :: rest) =
      storedRows config rest ++ if storesKey config row.1 then [row] else [] := by
  rw [storedRows, storedRows, List.filter_cons]
  split_ifs
  · exact List.reverse_cons
  · exact (List.append_nil _).symm

theorem insertAll_cons {key : Key} {payload : Int64} {rest : List (Key × Int64)}
    {roomy next s' : State} {answer : Option Bool} {answers : List (Option Bool)}
    (hroomy : makeRoom s = .ok roomy) (hinsert : insert roomy key payload = (answer, next))
    (hrest : insertAll next true rest = .ok (answers, s')) :
    insertAll s true ((key, payload) :: rest) = .ok (answer :: answers, s') := by
  rw [insertAll, if_pos rfl, hroomy]
  simp only [bind, Except.bind, hinsert, hrest]
  rfl

theorem Holds.exists_insertAll_eq_ok (h : Holds config s kept stored)
    (rows : List (Key × Int64)) (hlength : rows.length + stored.length ≤ 3 * 2 ^ 28) :
    ∃ s' kept', insertAll s true rows = .ok (rows.map (answerOf config), s') ∧
      Holds config s' kept' (storedRows config rows ++ stored) := by
  induction rows generalizing s kept stored with
  | nil => exact ⟨s, kept, rfl, h⟩
  | cons row rest ih =>
    obtain ⟨key, payload⟩ := row
    rw [List.length_cons] at hlength
    obtain ⟨o, ho, -, hholds, hroom⟩ := h.exists_makeRoom_granted (by omega)
    have hroomy := makeRoom_eq_ok ho
    rw [List.map_cons, storedRows_cons, List.append_assoc, answerOf]
    cases hkey : storesKey config key with
    | false =>
      obtain ⟨s', kept', hrest, hend⟩ := ih (hholds.with_context key) (by omega)
      exact ⟨s', kept', insertAll_cons hroomy (hholds.insert_none payload hkey) hrest, hend⟩
    | true =>
      obtain ⟨next, i, hinsert, hnext⟩ := hholds.exists_insert_some payload hkey (by omega) hroom
      obtain ⟨s', kept', hrest, hend⟩ := ih hnext (by rw [List.length_cons]; omega)
      exact ⟨s', kept', insertAll_cons hroomy hinsert hrest, hend⟩

theorem Holds.exists_resizeAll_eq_ok (h : Holds config s kept stored) (sizes : List Nat) :
    ∃ answers s', resizeAll s sizes = .ok (answers, s') ∧ Holds config s' kept stored := by
  induction sizes generalizing s with
  | nil => exact ⟨[], s, rfl, h⟩
  | cons size rest ih =>
    have hbuckets : bucketBytes s.table.buckets.size ≤ s.budget.consumed :=
      (Nat.le_add_right _ _).trans h.charged
    obtain ⟨o, ho, hresized⟩ := exists_resize_eq_ok size hbuckets
    obtain ⟨answers, s', hrest, hend⟩ := ih (h.of_resized hresized)
    refine ⟨o.answer.map (fun _ ↦ o.table.numBuckets) :: answers, s', ?_, hend⟩
    rw [resizeAll, ho]
    change (resizeAll { s with table := o.table, budget := o.budget } rest >>= _) = _
    rw [hrest]
    rfl

/-! ### The start -/

theorem checkExprs_keyExprs (hvalid : config.validate = .ok ()) (hkeys : config.buildKeys = 1) :
    KeyContext.checkExprs config keyExprs keyExprs = .ok () := by
  rw [KeyContext.checkExprs, hvalid, Config.probeKeys_eq_of_validate hvalid, hkeys]
  rfl

theorem new_table_eq (hvalid : config.validate = .ok ()) (hstorage : config.storage = .direct) :
    Table.new config (Budget.unlimited "test") =
      (.ok (.empty config.probing config.storage config.startBuckets),
        (Budget.unlimited "test").charge (bucketBytes config.startBuckets)) := by
  have hstart := Session.le_maxBuckets_of_validate hvalid
  have hadmits : (Budget.unlimited "test").admits (bucketBytes config.startBuckets) = true := by
    refine admits_of_limit_eq_none rfl ?_
    have hbytes := bucketBytes_le hstart
    have hrange : bucketBytes Config.maxBuckets < Budget.wordRange := by decide
    change 0 + _ < _
    omega
  rw [Table.new, if_pos hstorage, Table.create, hvalid]
  dsimp only
  rw [if_pos hadmits]

/-- A join over a valid configuration for rows starts with an empty table, if there is room for the
seeds of its levels. -/
theorem exists_start_eq_ok (hvalid : config.validate = .ok ()) (hstorage : config.storage = .direct)
    (hkeys : config.buildKeys = 1) (hlevels : config.levels < 2 ^ 61) :
    ∃ s, start config = .ok s ∧ Holds config s [] [] := by
  have htable := new_table_eq hvalid hstorage
  have hcontext : KeyContext.create config keyExprs keyExprs =
      .ok (.ok (baseContext config)) := by
    rw [KeyContext.create_eq_ok hlevels, KeyContext.ofConfig, checkExprs_keyExprs hvalid hkeys]
    rfl
  have hcreate : Session.create config false (Budget.unlimited "test") noRows =
      .ok ⟨.empty config.probing config.storage config.startBuckets,
        (Budget.unlimited "test").charge (bucketBytes config.startBuckets), noRows, []⟩ := by
    rw [Session.create, if_neg Bool.false_ne_true, htable]
  have hinOrder : Session.InOrder keyExprs _ := Session.inOrder_create hcreate
  have hsolvent := Session.solvent_create hcreate
  rw [Session.Solvent] at hsolvent
  refine ⟨⟨.empty config.probing config.storage config.startBuckets,
    (Budget.unlimited "test").charge (bucketBytes config.startBuckets), baseContext config, 0⟩,
    ?_, ?_⟩
  · rw [start, htable, hcontext]
  · exact {
      inOrder := hinOrder
      charged := hsolvent
      storage_eq := hstorage
      spent := by
        refine ⟨rfl, ?_, Nat.zero_le _, Nat.zero_le _⟩
        change 0 + _ ≤ bucketBytes (Array.replicate _ Bucket.empty).size + _
        rw [Array.size_replicate, Nat.zero_add]
        exact Nat.le_add_right _ _
      context_eq := rfl
      forall₂ := List.Forall₂.nil }

/-- If there is none, the join does not start. -/
theorem start_eq_error (hvalid : config.validate = .ok ()) (hstorage : config.storage = .direct)
    (hkeys : config.buildKeys = 1) (hlevels : 2 ^ 61 ≤ config.levels) :
    start config = .error (.fault .capacityOverflow) := by
  rw [start, new_table_eq hvalid hstorage,
    KeyContext.create_eq_error hlevels (checkExprs_keyExprs hvalid hkeys)]

end JoinIndex.IntJoin
