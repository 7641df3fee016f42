import JoinIndex.Proofs.Cursor.Related
import JoinIndex.Proofs.Session

/-!
What a session answers. An operation of a session changes its state; here it also tells its caller
something, and whoever looks at the table sees its counters. Two sessions that a caller is to take
for one another have to agree in all of this.
-/

set_option autoImplicit false
set_option relaxedAutoImplicit false

namespace JoinIndex.Session

open Table

/-- What an operation answers, rows being told by their content. -/
inductive Answer where
  | inserted (accepted : Bool)
  | probed (result : ProbeResult)
  | walked (start : Cursor.View) (told : List (Cursor.View × Cursor.Content))
  | resized (result : Except Fault (Except Error Unit))
  | appended (index : Except Error RowIndex)
  | charged (granted : Bool)
  | done

variable (s : Session)

def answer : Op → Answer
  | .insert context row hash =>
    .inserted (s.table.insert s.budget s.rows context row hash).answer
  | .probe context? hash =>
    .probed (s.table.probe (context?.elim (fun _ ↦ false) (·.holds s.rows)) hash).1
  | .walk start steps =>
    .walked ((s.place start).1.view (s.place start).2)
      ((s.place start).1.told (s.place start).2 s.rows steps)
  | .resize size => .resized ((s.table.resize s.budget size).map Outcome.answer)
  | .makeRoom more => .resized ((s.table.makeRoom s.budget more).map Outcome.answer)
  | .clear => .done
  | .append row paid => .appended (s.rows.append (if paid then some s.budget else none) row).index
  | .charge bytes => .charged (s.budget.tryConsume bytes).1
  | .giveBack _ => .done

/-- An operation with its answer. -/
def perform (op : Op) : Except Fault (Answer × Session) :=
  (s.step op).map fun s' ↦ (s.answer op, s')

variable {s}

theorem perform_eq_ok {s' : Session} {op : Op} (h : s.step op = .ok s') :
    s.perform op = .ok (s.answer op, s') := by
  rw [perform, h]
  rfl

/-- Outcomes that are related answer the same and make sessions that are related. -/
theorem alike_of_outcomes {t : Session} {T : Outcome (Except Error Unit) →
      Outcome (Except Error Unit) → Prop} {U : Session → Session → Prop}
    {r r' : Except Fault (Outcome (Except Error Unit))} (hr : SameFault T r r')
    (hanswer : ∀ o o', T o o' → o.answer = o'.answer)
    (hsession : ∀ o o', T o o' → U { s with table := o.table, budget := o.budget }
      { t with table := o'.table, budget := o'.budget }) :
    r.map Outcome.answer = r'.map Outcome.answer ∧
      SameFault U (r >>= fun o ↦ .ok { s with table := o.table, budget := o.budget })
        (r' >>= fun o ↦ .ok { t with table := o.table, budget := o.budget }) := by
  cases hr with
  | error fault => exact ⟨rfl, .error fault⟩
  | ok ho => exact ⟨congrArg Except.ok (hanswer _ _ ho), .ok (hsession _ _ ho)⟩

/-! ### What stays -/

/-- What becomes of the row store and of the insertions that were kept. -/
theorem rows_kept_step {s' : Session} {op : Op} (h : s.step op = .ok s') :
    match op with
    | .insert context ref hash => s'.rows = s.rows ∧ s'.kept =
        if (s.table.insert s.budget s.rows context ref hash).answer then
          ⟨ref, ref.resolve s.rows, context, hash⟩ :: s.kept
        else s.kept
    | .append _ _ => s'.kept = s.kept
    | .clear => s'.rows = s.rows ∧ s'.kept = []
    | _ => s'.rows = s.rows ∧ s'.kept = s.kept := by
  have houtcome : ∀ {r : Except Fault (Outcome (Except Error Unit))},
      (r >>= fun o ↦ .ok { s with table := o.table, budget := o.budget }) = .ok s' →
        s'.rows = s.rows ∧ s'.kept = s.kept := by
    intro r hr
    cases r with
    | error fault => cases hr
    | ok o =>
      obtain rfl := Except.ok.inj hr
      exact ⟨rfl, rfl⟩
  cases op with
  | insert context ref hash =>
    obtain rfl := Except.ok.inj h
    exact ⟨rfl, rfl⟩
  | probe =>
    obtain rfl := Except.ok.inj h
    exact ⟨rfl, rfl⟩
  | walk =>
    obtain rfl := Except.ok.inj h
    exact ⟨rfl, rfl⟩
  | resize => exact houtcome h
  | makeRoom => exact houtcome h
  | clear =>
    rw [step] at h
    cases hclear : s.table.clear s.budget with
    | error fault =>
      rw [hclear] at h
      cases h
    | ok r =>
      rw [hclear] at h
      obtain rfl := Except.ok.inj h
      exact ⟨rfl, rfl⟩
  | append =>
    obtain rfl := Except.ok.inj h
    rfl
  | charge =>
    obtain rfl := Except.ok.inj h
    exact ⟨rfl, rfl⟩
  | giveBack bytes =>
    rw [step] at h
    cases hback : s.budget.release (min bytes (s.budget.consumed - s.table.byteSize)) with
    | error fault =>
      rw [hback] at h
      cases h
    | ok budget =>
      rw [hback] at h
      obtain rfl := Except.ok.inj h
      exact ⟨rfl, rfl⟩

theorem moves_modes_eq {t u : Table} (hmoves : Moves t u) :
    u.storage = t.storage ∧ u.probing = t.probing := by
  induction hmoves with
  | refl => exact ⟨rfl, rfl⟩
  | tail _ hmove ih =>
    rw [← ih.1, ← ih.2]
    cases hmove with
    | mark c =>
      match c with
      | .atEnd => exact ⟨rfl, rfl⟩
      | .on _ (some node) => exact ⟨rfl, rfl⟩
      | .on _ none => exact ⟨rfl, rfl⟩
    | _ => exact ⟨rfl, rfl⟩

/-- A table in good order that is paid for, of a storage mode. -/
structure Ready (s : Session) (storage : StorageMode) : Prop where
  solvent : s.Solvent
  sound : s.table.Sound
  storage_eq : s.table.storage = storage

theorem Ready.exists_step_eq_ok {storage : StorageMode} (h : s.Ready storage) (op : Op) :
    ∃ s', s.step op = .ok s' ∧ s'.Ready storage := by
  obtain ⟨s', hs', hchanges, hsolvent⟩ := Session.exists_step_eq_ok h.solvent op
  have hmoves := hchanges.moves h.sound
  exact ⟨s', hs', hsolvent, hmoves.sound h.sound,
    (moves_modes_eq hmoves).1.trans h.storage_eq⟩

theorem ready_create {config : Config} {stored : Bool} {budget : Budget} {rows : RowStore}
    (h : create config stored budget rows = .ok s) : s.Ready config.storage := by
  refine ⟨solvent_create h, (intact_create h).sound, ?_⟩
  obtain ⟨-, -, rfl⟩ := create_eq_ok h
  rfl

end JoinIndex.Session
