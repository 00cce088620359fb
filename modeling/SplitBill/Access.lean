import SplitBill.Transaction
import SplitBill.World

/-!
# Access to the database

What the methods of the repositories do with PostgreSQL: a query reads the tables, and everything
that writes is a transaction, of one statement where the source does not open one. The surroundings
choose the order of the rows that a query leaves open, and whether a transaction is cut off.
-/

namespace SplitBill

/-- What the surroundings choose for one access. -/
structure Choice where
  /-- The number of statements after which a transaction is cut off, if it is. -/
  cut : Option ℕ := none
  /-- The order of rows, by their ids, where a query does not order them. -/
  rank : Id → ℕ := id
  /-- Of two queries that are issued together, the first one is answered first. -/
  first : Bool := true

/-- Rows in the order of a query. Rows that `before` does not order come as the database pleases. -/
def Choice.arrange {α : Type} (c : Choice) (rowId : α → Id) (before : α → α → Bool)
    (rows : List α) : List α :=
  rows.insertionSort fun a b => before a b ∨ ¬ before b a ∧ c.rank (rowId a) ≤ c.rank (rowId b)

/-- An answer has the rows of the query, in some order. -/
theorem Choice.arrange_perm {α : Type} (c : Choice) (rowId : α → Id) (before : α → α → Bool)
    (rows : List α) : (c.arrange rowId before rows).Perm rows :=
  List.perm_insertionSort _ _

/-- An answer has a row exactly if the query has it. -/
@[simp] theorem Choice.mem_arrange {α : Type} {c : Choice} {rowId : α → Id}
    {before : α → α → Bool} {rows : List α} {a : α} :
    a ∈ c.arrange rowId before rows ↔ a ∈ rows :=
  (c.arrange_perm rowId before rows).mem_iff

/-- No order at all: the `before` of a query without `orderBy`. -/
def unordered {α : Type} (_ _ : α) : Bool := false

/-- What a repository method does with the database. -/
inductive Access (α : Type)
  /-- A query. -/
  | read (f : Choice → Db → α)
  /-- A transaction at an instant. -/
  | write (t : Choice → Time → Tx Db Err Metric α)

namespace Access

variable {α : Type}

/-- The answer and the effect of an access. -/
def exec : Access α → Choice → World → Except Err α × World
  | read f, c, w => (.ok (f c w.db), w)
  | write t, c, w =>
    let r := (t c w.now).run c.cut (.prisma .unavailable) w.db
    (r.1, { w with db := r.2.1, metrics := r.2.2.reverse ++ w.metrics })

section

variable (a : Access α) (c : Choice) (w : World)

/-- The database leaves Redis alone. -/
@[simp] theorem exec_redis : (a.exec c w).2.redis = w.redis := by cases a <;> rfl

/-- The database leaves the clock alone. -/
@[simp] theorem exec_now : (a.exec c w).2.now = w.now := by cases a <;> rfl

/-- The database draws no random values. -/
@[simp] theorem exec_random : (a.exec c w).2.random = w.random := by cases a <;> rfl

/-- The database sends no mail. -/
@[simp] theorem exec_outbox : (a.exec c w).2.outbox = w.outbox := by cases a <;> rfl

/-- A query answers from the tables and changes nothing. -/
@[simp] theorem exec_read (f : Choice → Db → α) :
    (read f).exec c w = (.ok (f c w.db), w) := rfl

end

/-- A transaction that is not cut off commits what its body computes. -/
theorem exec_write_of_eval {t : Choice → Time → Tx Db Err Metric α} {c : Choice} {w : World}
    (hcut : c.cut = none) {r : α} {db' : Db} (h : (t c w.now).eval w.db = .ok (r, db')) :
    (write t).exec c w = (.ok r, { w with
      db := db', metrics := (Mark.notes ((t c w.now).marks w.db)).reverse ++ w.metrics }) := by
  simp only [exec, hcut, Tx.run_none_of_ok h]

/-- An access that changes the tables is a transaction that committed what its body computed. -/
theorem exec_cases (a : Access α) (c : Choice) (w : World) :
    (a.exec c w).2.db = w.db ∨
      ∃ t r db', a = write t ∧ (t c w.now).eval w.db = .ok (r, db') ∧
        (a.exec c w).1 = .ok r ∧ (a.exec c w).2.db = db' := by
  cases a with
  | read f => exact .inl rfl
  | write t =>
    rcases (t c w.now).run_cases c.cut (.prisma .unavailable) w.db with
      ⟨e, -, hdb⟩ | ⟨r, db', heval, hr, hdb⟩
    · exact .inl hdb
    · exact .inr ⟨t, r, db', rfl, heval, hr, hdb⟩

/-- A transaction that answers with an error has left the tables as they were. -/
theorem db_of_exec_error {a : Access α} {c : Choice} {w : World} {e : Err}
    (h : (a.exec c w).1 = .error e) : (a.exec c w).2.db = w.db := by
  rcases a.exec_cases c w with hdb | ⟨t, r, db', -, -, hr, -⟩
  · exact hdb
  · rw [hr] at h
    cases h

/-- A transaction that answers with a result has committed what its body computed. -/
theorem eval_of_exec_ok {t : Choice → Time → Tx Db Err Metric α} {c : Choice} {w : World} {r : α}
    (h : ((write t).exec c w).1 = .ok r) :
    (t c w.now).eval w.db = .ok (r, ((write t).exec c w).2.db) := by
  rcases (t c w.now).run_cases c.cut (.prisma .unavailable) w.db with
    ⟨e, he, -⟩ | ⟨r', db', heval, hr, hdb⟩
  · have : ((write t).exec c w).1 = .error e := he
    rw [this] at h
    cases h
  · have hr' : ((write t).exec c w).1 = .ok r' := hr
    rw [hr'] at h
    cases h
    have hdb' : ((write t).exec c w).2.db = db' := hdb
    rw [hdb', heval]

end Access

end SplitBill
