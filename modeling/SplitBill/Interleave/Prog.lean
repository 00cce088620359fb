import Mathlib.Logic.Basic

/-!
# Programs over the operations of a shared store

A program is asynchronous code seen from its calls to a store: it returns, throws, or issues one
operation and continues with the operation's answer. Between two operations of a program anything
may happen to the store, so a program's text does not fix a run; `Interleave/Machine.lean` runs
programs side by side, and one alone. `Prog` is a monad with exceptions, so source code with
`await`, `throw` and `try`/`catch` is written in `do` notation.
-/

universe u

namespace SplitBill.Interleave

/-- The operations of a store, with their arguments, and the type of each operation's answer. -/
structure Interface where
  /-- The operations. -/
  Op : Type u
  /-- What an operation answers. -/
  Res : Op → Type

/-- A program over the operations of `S`, with errors in `ε` and results in `α`. An operation
answers with a result or with an error, and the program goes on with either. -/
inductive Prog (S : Interface.{u}) (ε α : Type) : Type u
  | ret (a : α)
  | throw (e : ε)
  | call (o : S.Op) (k : Except ε (S.Res o) → Prog S ε α)

namespace Prog

variable {S : Interface.{u}} {ε α β : Type}

/-- The program that has already finished with the result `r`. -/
def ofExcept : Except ε α → Prog S ε α
  | .ok a => .ret a
  | .error e => .throw e

/-- Sequencing: `g` runs on the result of `p`, and an error of `p` ends the whole. -/
def bind : Prog S ε α → (α → Prog S ε β) → Prog S ε β
  | ret a, g => g a
  | throw e, _ => throw e
  | call o k, g => call o fun r => (k r).bind g

/-- `try`/`catch`: `h` runs on the error of `p`. -/
def tryCatch : Prog S ε α → (ε → Prog S ε α) → Prog S ε α
  | ret a, _ => ret a
  | throw e, h => h e
  | call o k, h => call o fun r => (k r).tryCatch h

/-- Runs `p` to its end and hands on its outcome as a value: what `finally` waits for. -/
def attempt : Prog S ε α → Prog S ε (Except ε α)
  | ret a => ret (.ok a)
  | throw e => ret (.error e)
  | call o k => call o fun r => (k r).attempt

instance : Monad (Prog S ε) where
  pure := ret
  bind := bind

instance : MonadExceptOf ε (Prog S ε) where
  throw := throw
  tryCatch := tryCatch

/-- The program of one operation: its answer is the result, its error is thrown. -/
def perform (o : S.Op) : Prog S ε (S.Res o) := call o ofExcept

/-- Goes on if `p` holds, and throws `e` otherwise. -/
def ensure (p : Prop) [Decidable p] (e : ε) : Prog S ε Unit := if p then ret () else throw e

/-- Goes on with the value, if there is one, and throws `e` otherwise. -/
def expect (a : Option α) (e : ε) : Prog S ε α :=
  match a with
  | some a => ret a
  | none => throw e

/-- The result of a program that has returned. -/
def result? : Prog S ε α → Option α
  | ret a => some a
  | _ => none

/-- A program that has a result has returned. -/
theorem exists_ret {p : Prog S ε α} (h : p.result?.isSome = true) : ∃ a, p = .ret a := by
  cases p with
  | ret a => exact ⟨a, rfl⟩
  | throw e => cases h
  | call o k => cases h

/-- The outcome of a program that has ended. -/
def outcome? : Prog S ε α → Option (Except ε α)
  | ret a => some (.ok a)
  | throw e => some (.error e)
  | call _ _ => none

/-- A program that has an outcome has ended with it. -/
theorem exists_ofExcept {p : Prog S ε α} (h : p.outcome?.isSome = true) :
    ∃ r, p = ofExcept r := by
  cases p with
  | ret a => exact ⟨.ok a, rfl⟩
  | throw e => exact ⟨.error e, rfl⟩
  | call o k => cases h

/-- `pure` is `ret`. -/
@[simp] theorem pure_eq (a : α) : (pure a : Prog S ε α) = ret a := rfl

/-- The monad's `bind` is the program's. -/
@[simp] theorem bind_eq (p : Prog S ε α) (g : α → Prog S ε β) : p >>= g = p.bind g := rfl

/-- `throw` is the program's. -/
@[simp] theorem throw_eq (e : ε) : (MonadExcept.throw e : Prog S ε α) = throw e := rfl

/-- `throwThe` is the program's. -/
@[simp] theorem throwThe_eq (e : ε) : (throwThe ε e : Prog S ε α) = throw e := rfl

/-- `try` is the program's. -/
@[simp] theorem tryCatch_eq (p : Prog S ε α) (h : ε → Prog S ε α) :
    MonadExcept.tryCatch p h = p.tryCatch h := rfl

/-- `tryCatchThe` is the program's. -/
@[simp] theorem tryCatchThe_eq (p : Prog S ε α) (h : ε → Prog S ε α) :
    tryCatchThe ε p h = p.tryCatch h := rfl

/-- A program that has returned goes on at once. -/
@[simp] theorem ret_bind (a : α) (g : α → Prog S ε β) : (ret a : Prog S ε α).bind g = g a := rfl

/-- After a `throw` nothing runs. -/
@[simp] theorem throw_bind (e : ε) (g : α → Prog S ε β) :
    (throw e : Prog S ε α).bind g = throw e := rfl

/-- Three programs one after the other. -/
theorem bind_assoc {γ : Type} (p : Prog S ε α) (g : α → Prog S ε β) (f : β → Prog S ε γ) :
    (p.bind g).bind f = p.bind fun a => (g a).bind f := by
  induction p with
  | ret a => rfl
  | throw e => rfl
  | call o k ih => exact congrArg (call o) (funext fun r => ih r)

/-- What is thrown again after it was caught was never caught. -/
theorem attempt_bind_ofExcept (p : Prog S ε α) : p.attempt.bind (fun r => ofExcept r) = p := by
  induction p with
  | ret a => rfl
  | throw e => rfl
  | call o k ih => exact congrArg (call o) (funext fun r => ih r)

/-- The outcome of an operation is its answer. -/
theorem attempt_perform_bind {o : S.Op} (g : Except ε (S.Res o) → Prog S ε β) :
    (perform o : Prog S ε (S.Res o)).attempt.bind g = call o g := by
  refine congrArg (call o) (funext fun r => ?_)
  cases r with
  | ok a => rfl
  | error e => rfl

section Expand

variable {T : Interface.{u}} (f : ∀ o : S.Op, Prog T ε (S.Res o))

/-- `p` with a program over the operations of `T` for each operation. -/
def expand : Prog S ε α → Prog T ε α
  | ret a => ret a
  | throw e => throw e
  | call o k => (f o).attempt.bind fun r => (k r).expand

/-- A sequence is expanded part by part. -/
theorem expand_bind (p : Prog S ε α) (g : α → Prog S ε β) :
    (p.bind g).expand f = (p.expand f).bind fun a => (g a).expand f := by
  induction p with
  | ret a => rfl
  | throw e => rfl
  | call o k ih =>
    simp only [bind, expand, bind_assoc]
    exact congrArg _ (funext fun r => ih r)

/-- One operation becomes its program. -/
theorem expand_perform (o : S.Op) : (perform o : Prog S ε (S.Res o)).expand f = f o := by
  have hanswer : (fun r => (ofExcept r : Prog S ε (S.Res o)).expand f) = fun r => ofExcept r := by
    funext r
    cases r with
    | ok a => rfl
    | error e => rfl
  show (f o).attempt.bind (fun r => (ofExcept r).expand f) = f o
  rw [hanswer, attempt_bind_ofExcept]

end Expand

/-- Every operation that `p` may ever issue, whatever it is answered, satisfies `A`. -/
def Issues (A : S.Op → Prop) : Prog S ε α → Prop
  | ret _ => True
  | throw _ => True
  | call o k => A o ∧ ∀ r, (k r).Issues A

/-- A program that has returned issues nothing. -/
@[simp] theorem issues_ret (A : S.Op → Prop) (a : α) : (ret a : Prog S ε α).Issues A := trivial

/-- A program that has thrown issues nothing. -/
@[simp] theorem issues_throw (A : S.Op → Prop) (e : ε) :
    (throw e : Prog S ε α).Issues A := trivial

/-- One operation is what it issues. -/
@[simp] theorem issues_perform (A : S.Op → Prop) (o : S.Op) :
    (perform o : Prog S ε (S.Res o)).Issues A ↔ A o := by
  refine ⟨fun h => h.1, fun h => ⟨h, fun r => ?_⟩⟩
  cases r <;> trivial

/-- A check issues nothing. -/
@[simp] theorem issues_ensure (A : S.Op → Prop) (p : Prop) [Decidable p] (e : ε) :
    (ensure p e : Prog S ε Unit).Issues A := by
  unfold ensure
  split <;> trivial

/-- A check of an optional value issues nothing. -/
@[simp] theorem issues_expect (A : S.Op → Prop) (a : Option α) (e : ε) :
    (expect a e : Prog S ε α).Issues A := by
  cases a <;> trivial

/-- A computation that may fail issues nothing. -/
@[simp] theorem issues_ofExcept (A : S.Op → Prop) (r : Except ε α) :
    (ofExcept r : Prog S ε α).Issues A := by
  cases r <;> trivial

/-- What is issued under one condition is issued under a weaker one. -/
theorem Issues.mono {A B : S.Op → Prop} (hAB : ∀ o, A o → B o) {p : Prog S ε α}
    (hp : p.Issues A) : p.Issues B := by
  induction p with
  | ret a => trivial
  | throw e => trivial
  | call o k ih => exact ⟨hAB o hp.1, fun r => ih r (hp.2 r)⟩

/-- Two conditions on what is issued are one. -/
theorem Issues.and {A B : S.Op → Prop} {p : Prog S ε α} (hA : p.Issues A) (hB : p.Issues B) :
    p.Issues fun o => A o ∧ B o := by
  induction p with
  | ret a => trivial
  | throw e => trivial
  | call o k ih => exact ⟨⟨hA.1, hB.1⟩, fun r => ih r (hA.2 r) (hB.2 r)⟩

/-- A sequence issues what its parts issue. -/
theorem Issues.bind {A : S.Op → Prop} {p : Prog S ε α} {g : α → Prog S ε β}
    (hp : p.Issues A) (hg : ∀ a, (g a).Issues A) : (p.bind g).Issues A := by
  induction p with
  | ret a => exact hg a
  | throw e => trivial
  | call o k ih => exact ⟨hp.1, fun r => ih r (hp.2 r)⟩

/-- A `try`/`catch` issues what its body and its handler issue. -/
theorem Issues.tryCatch {A : S.Op → Prop} {p : Prog S ε α} {h : ε → Prog S ε α}
    (hp : p.Issues A) (hh : ∀ e, (h e).Issues A) : (p.tryCatch h).Issues A := by
  induction p with
  | ret a => trivial
  | throw e => exact hh e
  | call o k ih => exact ⟨hp.1, fun r => ih r (hp.2 r)⟩

/-- Waiting for an outcome issues nothing of its own. -/
theorem Issues.attempt {A : S.Op → Prop} {p : Prog S ε α} (hp : p.Issues A) :
    p.attempt.Issues A := by
  induction p with
  | ret a => trivial
  | throw e => trivial
  | call o k ih => exact ⟨hp.1, fun r => ih r (hp.2 r)⟩

/-- An operation in `A` that fails is the last one that `p` issues: its error is thrown. -/
def EndsAt (A : S.Op → Prop) : Prog S ε α → Prop
  | ret _ => True
  | throw _ => True
  | call o k => (A o → ∀ e, k (.error e) = .throw e) ∧ ∀ r, EndsAt A (k r)

/-- One operation is followed by none. -/
theorem EndsAt.perform (A : S.Op → Prop) (o : S.Op) :
    (Prog.perform o : Prog S ε (S.Res o)).EndsAt A := by
  refine ⟨fun _ _ => rfl, fun r => ?_⟩
  cases r <;> trivial

/-- A program without such operations. -/
theorem EndsAt.of_issues {A : S.Op → Prop} {p : Prog S ε α} (h : p.Issues fun o => ¬A o) :
    p.EndsAt A := by
  induction p with
  | ret a => trivial
  | throw e => trivial
  | call o k ih => exact ⟨fun ho => absurd ho h.1, fun r => ih r (h.2 r)⟩

/-- Two programs that end at such an operation, one after the other. -/
theorem EndsAt.bind {A : S.Op → Prop} {p : Prog S ε α} {g : α → Prog S ε β} (hp : p.EndsAt A)
    (hg : ∀ a, (g a).EndsAt A) : (p.bind g).EndsAt A := by
  induction p with
  | ret a => exact hg a
  | throw e => trivial
  | call o k ih =>
    refine ⟨fun ho e => ?_, fun r => ih r (hp.2 r)⟩
    exact congrArg (fun p : Prog S ε α => p.bind g) (hp.1 ho e)

end Prog

end SplitBill.Interleave
