import Mathlib.Data.List.Basic
import Mathlib.Data.Nat.Notation

/-!
# Interactive transactions

The body of an interactive transaction is code that runs statements through a transaction client,
and that may also do something outside the database on its way, such as counting a metric. Either
the database commits all statements of the body or it keeps none of them, but what the body did
outside the database is not undone.

A body is modelled by the result and the database that it would commit, with the marks that it
leaves in order: one for each statement that it started and one for each thing done outside. `run`
either lets the body run to its end and commits it, or cuts it off after a number of statements,
where a number past the last statement stands for a commit that fails.
-/

namespace SplitBill

/-- What a transaction body leaves behind on its way. -/
inductive Mark (μ : Type)
  /-- A statement was started. -/
  | statement
  /-- Something was done outside the database. -/
  | noted (m : μ)

namespace Mark

variable {μ : Type}

/-- What was done outside the database. -/
def notes (ms : List (Mark μ)) : List μ :=
  ms.filterMap fun
    | statement => none
    | noted m => some m

/-- The marks that are left when the body is cut off after `n` statements. -/
def upTo : ℕ → List (Mark μ) → List (Mark μ)
  | _, [] => []
  | 0, statement :: _ => []
  | n + 1, statement :: ms => statement :: upTo n ms
  | n, noted m :: ms => noted m :: upTo n ms

/-- What a body that is cut off leaves is the beginning of what it would have left. -/
theorem upTo_prefix (n : ℕ) (ms : List (Mark μ)) : upTo n ms <+: ms := by
  induction ms generalizing n with
  | nil => exact ⟨[], by cases n <;> rfl⟩
  | cons m ms ih =>
    cases m with
    | statement =>
      cases n with
      | zero => exact List.nil_prefix
      | succ n => exact (List.prefix_cons_inj _).mpr (ih n)
    | noted m =>
      cases n with
      | zero => exact (List.prefix_cons_inj _).mpr (ih 0)
      | succ n => exact (List.prefix_cons_inj _).mpr (ih (n + 1))

/-- A part of a transaction without notes has none. -/
theorem notes_upTo_eq_nil {n : ℕ} {ms : List (Mark μ)} (h : notes ms = []) :
    notes (upTo n ms) = [] := by
  obtain ⟨rest, hrest⟩ := upTo_prefix n ms
  have hsplit : notes (upTo n ms) ++ notes rest = notes (upTo n ms ++ rest) :=
    (List.filterMap_append).symm
  rw [hrest, h] at hsplit
  exact (List.append_eq_nil_iff.mp hsplit).1

/-- A body that is cut off before its statement number `k` is over has done nothing that follows. -/
theorem upTo_replicate {n k : ℕ} (h : n < k) (ms : List (Mark μ)) :
    upTo n (List.replicate k statement ++ ms) = List.replicate n statement := by
  induction n generalizing k with
  | zero =>
    obtain ⟨k, rfl⟩ : ∃ j, k = j + 1 := ⟨k - 1, by omega⟩
    rfl
  | succ n ih =>
    obtain ⟨k, rfl⟩ : ∃ j, k = j + 1 := ⟨k - 1, by omega⟩
    have hlt : n < k := by omega
    calc upTo (n + 1) (List.replicate (k + 1) statement ++ ms)
        = statement :: upTo n (List.replicate k statement ++ ms) := rfl
      _ = List.replicate (n + 1) statement := by rw [ih hlt]; rfl

/-- Statements are no notes. -/
theorem notes_replicate (n : ℕ) : notes (List.replicate n (statement : Mark μ)) = [] := by
  induction n with
  | zero => rfl
  | succ n ih => exact ih

end Mark

/-- A transaction body on a database in `D`, with errors in `ε`, notes in `μ` and results in `α`. -/
def Tx (D ε μ α : Type) : Type := D → Except ε (α × D) × List (Mark μ)

namespace Tx

variable {D ε μ α β : Type}

/-- The result of the body and the database that it would commit. -/
def eval (t : Tx D ε μ α) (d : D) : Except ε (α × D) := (t d).1

/-- The marks of the body. -/
def marks (t : Tx D ε μ α) (d : D) : List (Mark μ) := (t d).2

/-- Sequencing: an error ends the body. -/
def bind (t : Tx D ε μ α) (f : α → Tx D ε μ β) : Tx D ε μ β := fun d =>
  match t d with
  | (.ok (a, d'), ms) => ((f a).eval d', ms ++ (f a).marks d')
  | (.error e, ms) => (.error e, ms)

instance : Monad (Tx D ε μ) where
  pure a := fun d => (.ok (a, d), [])
  bind := bind

/-- One statement. -/
def statement (f : D → Except ε (α × D)) : Tx D ε μ α := fun d => (f d, [.statement])

/-- One statement whose answer includes what `g` reads from the database that it leaves. -/
def including (f : D → Except ε (α × D)) (g : D → α → β) : Tx D ε μ β :=
  statement fun d => (f d).map fun r => (g r.2 r.1, r.2)

/-- Something done outside the database. -/
def note (m : μ) : Tx D ε μ Unit := fun d => (.ok ((), d), [.noted m])

/-- The empty transaction. -/
@[simp] theorem eval_pure (a : α) (d : D) : (pure a : Tx D ε μ α).eval d = .ok (a, d) := rfl

/-- A transaction of one statement. -/
@[simp] theorem eval_statement (f : D → Except ε (α × D)) (d : D) :
    (statement f : Tx D ε μ α).eval d = f d := rfl

/-- A note leaves the data. -/
@[simp] theorem eval_note (m : μ) (d : D) : (note m : Tx D ε μ Unit).eval d = .ok ((), d) := rfl

/-- A statement that reads its row back. -/
theorem eval_including_eq_ok {f : D → Except ε (α × D)} {g : D → α → β} {d d' : D} {b : β} :
    (including f g : Tx D ε μ β).eval d = .ok (b, d') ↔ ∃ a, f d = .ok (a, d') ∧ b = g d' a := by
  rw [including, eval_statement]
  constructor
  · intro h
    cases hf : f d with
    | error e => rw [hf] at h; cases h
    | ok r =>
      rw [hf] at h
      obtain ⟨rfl, rfl⟩ := Prod.mk.inj (Except.ok.inj h)
      exact ⟨r.1, rfl, rfl⟩
  · rintro ⟨a, ha, rfl⟩
    rw [ha]
    rfl

/-- Two transactions one after the other. -/
@[simp] theorem eval_bind (t : Tx D ε μ α) (f : α → Tx D ε μ β) (d : D) :
    (t >>= f).eval d = (t.eval d).bind fun r => (f r.1).eval r.2 := by
  show (bind t f d).1 = ((t d).1).bind fun r => (f r.1).eval r.2
  unfold bind
  rcases t d with ⟨e | ⟨a, d'⟩, ms⟩ <;> rfl

/-- A sequence is successful when its parts are. -/
theorem eval_bind_eq_ok {t : Tx D ε μ α} {f : α → Tx D ε μ β} {d d' : D} {b : β} :
    (t >>= f).eval d = .ok (b, d') ↔
      ∃ a d₁, t.eval d = .ok (a, d₁) ∧ (f a).eval d₁ = .ok (b, d') := by
  rw [eval_bind]
  constructor
  · intro h
    cases hr : t.eval d with
    | error e => rw [hr] at h; cases h
    | ok r => exact ⟨r.1, r.2, rfl, by rw [hr] at h; exact h⟩
  · rintro ⟨a, d₁, ha, hb⟩
    rw [ha]
    exact hb

/-- The outcome of a transaction: its answer, the database afterwards, and what was done outside it.
`cut` is the number of statements after which the transaction is cut off, if it is, and `fault` what
its caller is told then. -/
def run (t : Tx D ε μ α) (cut : Option ℕ) (fault : ε) (d : D) : Except ε α × D × List μ :=
  match cut, t.eval d with
  | some n, _ => (.error fault, d, Mark.notes (Mark.upTo n (t.marks d)))
  | none, .ok (a, d') => (.ok a, d', Mark.notes (t.marks d))
  | none, .error e => (.error e, d, Mark.notes (t.marks d))

/-- A transaction that is not cut off commits what its body computes. -/
theorem run_none_of_ok {t : Tx D ε μ α} {fault : ε} {d d' : D} {a : α}
    (h : t.eval d = .ok (a, d')) : t.run none fault d = (.ok a, d', Mark.notes (t.marks d)) := by
  simp only [run, h]

/-- What the body commits is related by `R` to the database on which it runs. -/
def Within (R : D → D → Prop) (t : Tx D ε μ α) : Prop := ∀ d a d', t.eval d = .ok (a, d') → R d d'

section Within

variable {R : D → D → Prop}

/-- A statement stays within what each of its runs does. -/
theorem within_statement {f : D → Except ε (α × D)} (h : ∀ d a d', f d = .ok (a, d') → R d d') :
    (statement f : Tx D ε μ α).Within R := h

/-- A statement that reads its row back stays within what the statement does. -/
theorem within_including {f : D → Except ε (α × D)} {g : D → α → β}
    (h : ∀ d a d', f d = .ok (a, d') → R d d') : (including f g : Tx D ε μ β).Within R := by
  intro d b d' heval
  obtain ⟨a, ha, -⟩ := eval_including_eq_ok.mp heval
  exact h d a d' ha

/-- The empty transaction does nothing. -/
theorem within_pure (hrefl : ∀ d, R d d) (a : α) : (pure a : Tx D ε μ α).Within R :=
  fun d _ _ heval => (Prod.mk.inj (Except.ok.inj heval)).2 ▸ hrefl d

/-- A note does nothing to the data. -/
theorem within_note (hrefl : ∀ d, R d d) (m : μ) : (note m : Tx D ε μ Unit).Within R :=
  fun d _ _ heval => (Prod.mk.inj (Except.ok.inj heval)).2 ▸ hrefl d

/-- A body keeps to a transitive relation if its statements do. -/
theorem Within.bind (htrans : ∀ {a b c}, R a b → R b c → R a c) {t : Tx D ε μ α}
    {f : α → Tx D ε μ β} (ht : t.Within R) (hf : ∀ a, (f a).Within R) : (t >>= f).Within R := by
  intro d b d' heval
  obtain ⟨a, d₁, ha, hb⟩ := eval_bind_eq_ok.mp heval
  exact htrans (ht d a d₁ ha) (hf a d₁ b d' hb)

end Within

/-- A transaction either answers with an error and leaves the database as it was, or it commits the
result of its body. -/
theorem run_cases (t : Tx D ε μ α) (cut : Option ℕ) (fault : ε) (d : D) :
    (∃ e, (t.run cut fault d).1 = .error e ∧ (t.run cut fault d).2.1 = d) ∨
      ∃ a d', t.eval d = .ok (a, d') ∧ (t.run cut fault d).1 = .ok a ∧
        (t.run cut fault d).2.1 = d' := by
  unfold run
  cases cut with
  | some n => exact .inl ⟨fault, rfl, rfl⟩
  | none =>
    cases h : t.eval d with
    | error e => exact .inl ⟨e, rfl, rfl⟩
    | ok r => exact .inr ⟨r.1, r.2, rfl, rfl, rfl⟩

end Tx

end SplitBill
