import JoinIndex.Proofs.Table.Payments

/-!
The books of a budget after any history of charges and of bytes given back. The bytes charged are
what was granted less what was given back, the peak is the most that was charged at any point, and
the refusals are counted. A request that is refused changes nothing else, and one that gives back
more than is charged faults and changes nothing at all, so that no history takes a budget past its
limit.
-/

set_option autoImplicit false
set_option relaxedAutoImplicit false

namespace JoinIndex

namespace Budget

/-- What an owner asks of a budget. -/
inductive Request where
  | charge (bytes : UInt64)
  | giveBack (bytes : UInt64)

/-- What a request is answered. -/
inductive Reply where
  | granted
  | refused
  | givenBack
  | faulted (fault : Fault)
  deriving DecidableEq

def Request.bytes : Request → ℕ
  | charge bytes => bytes.toNat
  | giveBack bytes => bytes.toNat

variable (b : Budget)

/-- A request that faults leaves the budget as it was. -/
def serve : Request → Reply × Budget
  | .charge bytes =>
    let (granted, b') := b.tryConsume bytes.toNat
    (if granted then .granted else .refused, b')
  | .giveBack bytes =>
    match b.release bytes.toNat with
    | .ok b' => (.givenBack, b')
    | .error fault => (.faulted fault, b)

/-- The budget after all requests, one after the other. -/
def after (requests : List Request) : Budget :=
  requests.foldl (fun b request ↦ (b.serve request).2) b

/-- The replies to requests, one after the other. -/
def replies : Budget → List Request → List Reply
  | _, [] => []
  | b, request :: rest => (b.serve request).1 :: replies (b.serve request).2 rest

/-- The bytes of all requests that got a reply. -/
def bytesWith (reply : Reply) (requests : List Request) : ℕ :=
  (((requests.zip (b.replies requests)).filter fun served ↦ served.2 = reply).map
    fun served ↦ served.1.bytes).sum

variable {b} {bytes : UInt64} {requests : List Request}

/-! ### One request -/

theorem serve_charge_of_admits (h : b.admits bytes.toNat = true) :
    b.serve (.charge bytes) = (.granted, b.charge bytes.toNat) := by
  simp [serve, tryConsume, h]

theorem serve_charge_of_not_admits (h : ¬ b.admits bytes.toNat = true) :
    b.serve (.charge bytes) = (.refused, b.refuse) := by
  simp [serve, tryConsume, h]

theorem serve_charge_granted_iff :
    (b.serve (.charge bytes)).1 = .granted ↔ b.admits bytes.toNat = true := by
  by_cases h : b.admits bytes.toNat = true
  · simp [serve_charge_of_admits h, h]
  · simp [serve_charge_of_not_admits h, h]

theorem serve_giveBack_of_le (h : bytes.toNat ≤ b.consumed) :
    b.serve (.giveBack bytes) =
      (.givenBack, { b with consumed := b.consumed - bytes.toNat }) := by
  simp [serve, release, h]

theorem serve_giveBack_of_lt (h : b.consumed < bytes.toNat) :
    b.serve (.giveBack bytes) = (.faulted .releasedMoreThanConsumed, b) := by
  simp [serve, release, h.not_ge]

/-- What any request is answered, and what it leaves behind. -/
theorem serve_cases (b : Budget) (request : Request) :
    (b.admits request.bytes = true ∧ b.serve request = (.granted, b.charge request.bytes)) ∨
    b.serve request = (.refused, b.refuse) ∨
    (request.bytes ≤ b.consumed ∧
      b.serve request = (.givenBack, { b with consumed := b.consumed - request.bytes })) ∨
    b.serve request = (.faulted .releasedMoreThanConsumed, b) := by
  cases request with
  | charge bytes =>
    by_cases h : b.admits bytes.toNat = true
    · exact Or.inl ⟨h, serve_charge_of_admits h⟩
    · exact Or.inr (Or.inl (serve_charge_of_not_admits h))
  | giveBack bytes =>
    by_cases h : bytes.toNat ≤ b.consumed
    · exact Or.inr (Or.inr (Or.inl ⟨h, serve_giveBack_of_le h⟩))
    · exact Or.inr (Or.inr (Or.inr (serve_giveBack_of_lt (Nat.lt_of_not_le h))))

/-- Only a grant adds to the charges, and only bytes given back are taken from them. -/
theorem consumed_serve (b : Budget) (request : Request) :
    (b.serve request).2.consumed +
        (if (b.serve request).1 = .givenBack then request.bytes else 0) =
      b.consumed + if (b.serve request).1 = .granted then request.bytes else 0 := by
  rcases serve_cases b request with ⟨-, h⟩ | h | ⟨hle, h⟩ | h
  · simp [h, charge]
  · simp [h, refuse]
  · simp [h, hle]
  · simp [h]

theorem peak_serve (h : b.consumed ≤ b.peak) (request : Request) :
    (b.serve request).2.peak = max b.peak (b.serve request).2.consumed := by
  rcases serve_cases b request with ⟨-, hserve⟩ | hserve | ⟨-, hserve⟩ | hserve
  · simp [hserve, charge]
  · simp [hserve, refuse, h]
  · simp [hserve, (Nat.sub_le _ _).trans h]
  · simp [hserve, h]

theorem refusals_serve (b : Budget) (request : Request) :
    (b.serve request).2.refusals = b.refusals + [(b.serve request).1].count .refused := by
  rcases serve_cases b request with ⟨-, h⟩ | h | ⟨-, h⟩ | h <;> simp [h, charge, refuse]

theorem label_serve (b : Budget) (request : Request) : (b.serve request).2.label = b.label := by
  rcases serve_cases b request with ⟨-, h⟩ | h | ⟨-, h⟩ | h <;> simp [h, charge, refuse]

theorem limit_serve (b : Budget) (request : Request) : (b.serve request).2.limit = b.limit := by
  rcases serve_cases b request with ⟨-, h⟩ | h | ⟨-, h⟩ | h <;> simp [h, charge, refuse]

theorem Sound.serve (h : b.Sound) (request : Request) : (b.serve request).2.Sound := by
  rcases serve_cases b request with ⟨hadmits, hserve⟩ | hserve | ⟨-, hserve⟩ | hserve
  · rw [hserve]
    exact (Settles.charge hadmits 0).sound h
  · rw [hserve]
    exact (Settles.refuse b 0).sound h
  · rw [hserve]
    exact ⟨(Nat.sub_le _ _).trans h.consumed_le, h.peak_lt, h.peak_le⟩
  · rw [hserve]
    exact h

/-! ### One request more -/

theorem after_concat (b : Budget) (requests : List Request) (request : Request) :
    b.after (requests ++ [request]) = ((b.after requests).serve request).2 := by
  unfold after
  rw [List.foldl_concat]

theorem replies_concat (b : Budget) (requests : List Request) (request : Request) :
    b.replies (requests ++ [request]) =
      b.replies requests ++ [((b.after requests).serve request).1] := by
  induction requests generalizing b with
  | nil => rfl
  | cons first rest ih =>
    rw [List.cons_append, replies, ih, replies, List.cons_append]
    rfl

theorem length_replies (b : Budget) (requests : List Request) :
    (b.replies requests).length = requests.length := by
  induction requests generalizing b with
  | nil => rfl
  | cons first rest ih => simp [replies, ih]

theorem bytesWith_concat (b : Budget) (reply : Reply) (requests : List Request)
    (request : Request) :
    b.bytesWith reply (requests ++ [request]) = b.bytesWith reply requests +
      if ((b.after requests).serve request).1 = reply then request.bytes else 0 := by
  unfold bytesWith
  rw [replies_concat, List.zip_append (b.length_replies requests).symm, List.filter_append,
    List.map_append, List.sum_append]
  congr 1
  by_cases h : ((b.after requests).serve request).1 = reply <;> simp [h]

/-! ### The books -/

/-- What the books of a budget say after a history. -/
structure Recorded (start : Budget) (requests : List Request) (b : Budget) : Prop where
  label_eq : b.label = start.label
  limit_eq : b.limit = start.limit
  sound : b.Sound
  balance : b.consumed + start.bytesWith .givenBack requests =
    start.consumed + start.bytesWith .granted requests
  peak : IsGreatest {bytes | ∃ earlier, earlier <+: requests ∧
    bytes = (start.after earlier).consumed} b.peak
  refusals_eq : b.refusals = start.refusals + (start.replies requests).count .refused

variable {start : Budget}

theorem recorded_nil (hsound : start.Sound) (hpeak : start.peak = start.consumed) :
    start.Recorded [] start where
  label_eq := rfl
  limit_eq := rfl
  sound := hsound
  balance := rfl
  peak := by
    refine ⟨⟨[], List.nil_prefix, hpeak⟩, ?_⟩
    rintro bytes ⟨earlier, hearlier, rfl⟩
    rw [List.prefix_nil.mp hearlier, hpeak]
    rfl
  refusals_eq := rfl

/-- The points of a longer history are those of the shorter one and its end. -/
theorem isGreatest_concat {peak : ℕ}
    (h : IsGreatest {bytes | ∃ earlier, earlier <+: requests ∧
      bytes = (start.after earlier).consumed} peak) (request : Request) :
    IsGreatest {bytes | ∃ earlier, earlier <+: requests ++ [request] ∧
      bytes = (start.after earlier).consumed}
        (max peak (start.after (requests ++ [request])).consumed) := by
  have hpoints : {bytes | ∃ earlier, earlier <+: requests ++ [request] ∧
      bytes = (start.after earlier).consumed} =
      insert (start.after (requests ++ [request])).consumed
        {bytes | ∃ earlier, earlier <+: requests ∧ bytes = (start.after earlier).consumed} := by
    ext bytes
    simp only [List.prefix_concat_iff, Set.mem_ofPred_eq, Set.mem_insert_iff, or_and_right,
      exists_or, exists_eq_left]
  rw [hpoints, max_comm]
  exact h.insert _

theorem Recorded.concat (h : start.Recorded requests (start.after requests))
    (request : Request) :
    start.Recorded (requests ++ [request]) (start.after (requests ++ [request])) := by
  have hafter := after_concat start requests request
  refine ⟨?_, ?_, ?_, ?_, ?_, ?_⟩
  · rw [hafter, label_serve, h.label_eq]
  · rw [hafter, limit_serve, h.limit_eq]
  · rw [hafter]
    exact h.sound.serve request
  · have hstep := consumed_serve (start.after requests) request
    have hbalance := h.balance
    rw [bytesWith_concat, bytesWith_concat, hafter]
    omega
  · have hpeak := isGreatest_concat h.peak request
    rw [hafter] at hpeak ⊢
    rwa [peak_serve h.sound.consumed_le]
  · rw [hafter, refusals_serve, h.refusals_eq, replies_concat, List.count_append, Nat.add_assoc]

/-- The induction is on the requests, the last one first, so that the points of a history are known
when its last request comes. -/
theorem recorded_after (hsound : start.Sound) (hpeak : start.peak = start.consumed)
    (requests : List Request) : start.Recorded requests (start.after requests) := by
  induction requests using List.reverseRecOn with
  | nil => exact recorded_nil hsound hpeak
  | append_singleton requests request ih => exact ih.concat request

/-- Whatever a new budget was asked for before, a charge is granted if and only if it stays within
the range of words and within the limit, and then it is written to the books; a refusal is counted
and changes nothing else. Bytes are given back if they are charged, and more than that is a fault
that changes nothing. The charges are what was granted less what was given back, they are never
past the limit, the peak is the most that was charged at any point, and the refusals are all
counted. -/
theorem run_books_exact (label : String) (limit : Option UInt64) (requests : List Request) :
    let start := new label limit
    let b := start.after requests
    (∀ bytes : UInt64,
      ((b.serve (.charge bytes)).1 = .granted ↔ b.consumed + bytes.toNat < 2 ^ 64 ∧
        ∀ most ∈ limit, b.consumed + bytes.toNat ≤ most.toNat) ∧
      ((b.serve (.charge bytes)).1 = .granted → (b.serve (.charge bytes)).2 =
        { b with
          consumed := b.consumed + bytes.toNat
          peak := max b.peak (b.consumed + bytes.toNat) }) ∧
      ((b.serve (.charge bytes)).1 ≠ .granted →
        b.serve (.charge bytes) = (.refused, { b with refusals := b.refusals + 1 })) ∧
      (bytes.toNat ≤ b.consumed → b.serve (.giveBack bytes) =
        (.givenBack, { b with consumed := b.consumed - bytes.toNat })) ∧
      (b.consumed < bytes.toNat →
        b.serve (.giveBack bytes) = (.faulted .releasedMoreThanConsumed, b))) ∧
    b.consumed + start.bytesWith .givenBack requests = start.bytesWith .granted requests ∧
    (b.consumed < 2 ^ 64 ∧ (∀ most ∈ limit, b.consumed ≤ most.toNat) ∧ b.isExceeded = false) ∧
    IsGreatest {bytes | ∃ earlier, earlier <+: requests ∧
      bytes = (start.after earlier).consumed} b.peak ∧
    b.refusals = (start.replies requests).count .refused ∧
    b.label = label ∧ b.limit = limit := by
  intro start b
  have h : start.Recorded requests b := recorded_after (sound_new label limit) rfl requests
  have hlimit : b.limit = limit := h.limit_eq
  have hwithin : ∀ most ∈ limit, b.consumed ≤ most.toNat := fun most hmost ↦
    h.sound.consumed_le.trans (h.sound.peak_le most (by rw [hlimit]; exact hmost))
  refine ⟨fun bytes ↦ ⟨?_, fun hgranted ↦ ?_, fun hrefused ↦ ?_, serve_giveBack_of_le,
    serve_giveBack_of_lt⟩, ?_, ⟨?_, hwithin, ?_⟩, h.peak, ?_, h.label_eq, hlimit⟩
  · rw [serve_charge_granted_iff, admits_iff, hlimit]
    rfl
  · rw [serve_charge_of_admits (serve_charge_granted_iff.mp hgranted)]
    rfl
  · exact serve_charge_of_not_admits fun hadmits ↦
      hrefused (serve_charge_granted_iff.mpr hadmits)
  · simpa [start, new] using h.balance
  · exact h.sound.consumed_le.trans_lt h.sound.peak_lt
  · rw [isExceeded, hlimit, Option.any_eq_false]
    intro most hmost
    simpa using hwithin most hmost
  · simpa [start, new] using h.refusals_eq

end Budget

end JoinIndex
