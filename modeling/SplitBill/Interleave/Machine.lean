import Mathlib.Algebra.BigOperators.Group.List.Basic
import Mathlib.Algebra.GroupWithZero.Nat
import Mathlib.Logic.Relation
import SplitBill.Interleave.Prog

/-!
# Machines and their runs

A machine says what each operation does to the world and what it answers, under a choice of the
surroundings (the order of unsorted rows, the place where a transaction is cut off). On top of it an
operation may fail before it has any effect, or take effect while its answer is lost.

A system runs any number of calls of a machine side by side. A step of a system starts a call, lets
one call perform its next operation, or lets the surroundings change the world. A call that crashed
is one that the schedule never picks again, so it needs no step of its own. Every performed
operation is entered in a log, which no program reads: it is there to state what a run did.

`Exec` is the run of one program without company, and `System.play` computes the run of a schedule.
-/

universe u

namespace SplitBill.Interleave

/-- What the operations of an interface do to a world in `W`. -/
structure Machine (S : Interface.{u}) (ε W : Type) where
  /-- What the surroundings choose for one operation. -/
  Choice : Type
  /-- The answer and the effect of an operation. -/
  exec : (o : S.Op) → Choice → W → Except ε (S.Res o) × W
  /-- The errors with which an operation may fail before it has any effect. -/
  fails : S.Op → ε → Prop
  /-- The errors that the caller may see although the operation took effect. -/
  loses : S.Op → ε → Prop

variable {S : Interface.{u}} {ε α W : Type}

/-- The ways an operation can go from the world `w`: `did` is what the store did, `seen` what the
caller is told, and the last argument is the world afterwards. -/
inductive Machine.Answer (M : Machine S ε W) (o : S.Op) (w : W) :
    Except ε (S.Res o) → Except ε (S.Res o) → W → Prop
  | done (c : M.Choice) : M.Answer o w (M.exec o c w).1 (M.exec o c w).1 (M.exec o c w).2
  | failed (e : ε) (h : M.fails o e) : M.Answer o w (.error e) (.error e) w
  | lost (e : ε) (c : M.Choice) (h : M.loses o e) :
      M.Answer o w (M.exec o c w).1 (.error e) (M.exec o c w).2

/-- What a caller is told the store did. -/
theorem Machine.Answer.did_eq {M : Machine S ε W} {o : S.Op} {w w' : W} {did : Except ε (S.Res o)}
    {a : S.Res o} (h : M.Answer o w did (.ok a) w') : did = .ok a := by
  generalize hseen : (Except.ok a : Except ε (S.Res o)) = seen at h
  cases h with
  | done c => rfl
  | failed e h => cases hseen
  | lost e c h => cases hseen

/-! ## One program alone -/

/-- The run of one program from the world `w` to its outcome `r` and the world `w'`, where `env`
may change the world before each operation. -/
inductive Exec (M : Machine S ε W) (env : W → W → Prop) :
    Prog S ε α → W → Except ε α → W → Prop
  | ret (a : α) (w : W) : Exec M env (.ret a) w (.ok a) w
  | throw (e : ε) (w : W) : Exec M env (.throw e) w (.error e) w
  | call {o : S.Op} {k : Except ε (S.Res o) → Prog S ε α} {w w₁ w₂ w' : W}
      {did seen : Except ε (S.Res o)} {r : Except ε α} (henv : env w w₁)
      (hans : M.Answer o w₁ did seen w₂) (hk : Exec M env (k seen) w₂ r w') :
      Exec M env (.call o k) w r w'

namespace Exec

variable {β : Type} {M : Machine S ε W} {env : W → W → Prop} {w w' : W} {a : α}

/-- A program that has returned has changed nothing more. -/
theorem of_ret {r : Except ε α} (h : Exec M env (.ret a) w r w') : r = .ok a ∧ w' = w := by
  cases h
  exact ⟨rfl, rfl⟩

/-- The first operation of a program that returns is answered. -/
theorem perform_bind {o : S.Op} {g : S.Res o → Prog S ε α}
    (h : Exec M env ((Prog.perform o).bind g) w (.ok a) w') :
    ∃ w₁ did v w₂, env w w₁ ∧ M.Answer o w₁ did (.ok v) w₂ ∧ Exec M env (g v) w₂ (.ok a) w' := by
  cases h with
  | @call _ _ _ w₁ w₂ _ did seen _ henv hans hk =>
    cases seen with
    | error e => cases hk
    | ok v => exact ⟨w₁, did, v, w₂, henv, hans, hk⟩

/-- A check of a program that returns holds. -/
theorem ensure_bind {P : Prop} [Decidable P] {e : ε} {g : Unit → Prog S ε α}
    (h : Exec M env ((Prog.ensure P e).bind g) w (.ok a) w') :
    P ∧ Exec M env (g ()) w (.ok a) w' := by
  unfold Prog.ensure at h
  by_cases hP : P
  · rw [if_pos hP] at h
    exact ⟨hP, h⟩
  · rw [if_neg hP] at h
    cases h

/-- A value that a program that returns expects is there. -/
theorem expect_bind {v : Option β} {e : ε} {g : β → Prog S ε α}
    (h : Exec M env ((Prog.expect v e).bind g) w (.ok a) w') :
    ∃ b, v = some b ∧ Exec M env (g b) w (.ok a) w' := by
  cases v with
  | none => cases h
  | some b => exact ⟨b, rfl, h⟩

/-- A computed outcome in a program that returns is a result. -/
theorem ofExcept_bind {v : Except ε β} {g : β → Prog S ε α}
    (h : Exec M env ((Prog.ofExcept v).bind g) w (.ok a) w') :
    ∃ b, v = .ok b ∧ Exec M env (g b) w (.ok a) w' := by
  cases v with
  | error e => cases h
  | ok b => exact ⟨b, rfl, h⟩

end Exec

/-- The run in which every operation is answered, under the choice `c`. -/
def Machine.run (M : Machine S ε W) (c : M.Choice) : Prog S ε α → W → Except ε α × W
  | .ret a, w => (.ok a, w)
  | .throw e, w => (.error e, w)
  | .call o k, w => M.run c (k (M.exec o c w).1) (M.exec o c w).2

/-- `Machine.run` is a run. -/
theorem Machine.exec_run (M : Machine S ε W) {env : W → W → Prop} (henv : ∀ w, env w w)
    (c : M.Choice) (p : Prog S ε α) (w : W) : Exec M env p w (M.run c p w).1 (M.run c p w).2 := by
  induction p generalizing w with
  | ret a => exact .ret a w
  | throw e => exact .throw e w
  | call o k ih => exact .call (henv w) (.done c) (ih _ _)

/-- A run that returns goes on with the result. -/
theorem Machine.run_bind {M : Machine S ε W} {c : M.Choice} {β : Type} {p : Prog S ε α}
    {g : α → Prog S ε β} {w w' : W} {a : α} (h : M.run c p w = (.ok a, w')) :
    M.run c (p.bind g) w = M.run c (g a) w' := by
  induction p generalizing w with
  | ret b =>
    obtain ⟨ha, rfl⟩ := Prod.mk.inj h
    rw [Except.ok.inj ha]
    rfl
  | throw e => cases (Prod.mk.inj h).1
  | call o k ih => exact ih _ h

/-- A run that throws ends there. -/
theorem Machine.run_bind_error {M : Machine S ε W} {c : M.Choice} {β : Type} {p : Prog S ε α}
    {g : α → Prog S ε β} {w w' : W} {e : ε} (h : M.run c p w = (.error e, w')) :
    M.run c (p.bind g) w = (.error e, w') := by
  induction p generalizing w with
  | ret a => cases (Prod.mk.inj h).1
  | throw e' =>
    obtain ⟨he, rfl⟩ := Prod.mk.inj h
    rw [Except.error.inj he]
    rfl
  | call o k ih => exact ih _ h

/-- Waiting for an outcome is answered with it. -/
theorem Machine.run_attempt (M : Machine S ε W) (c : M.Choice) (p : Prog S ε α) (w : W) :
    M.run c p.attempt w = (.ok (M.run c p w).1, (M.run c p w).2) := by
  induction p generalizing w with
  | ret a => rfl
  | throw e => rfl
  | call o k ih => exact ih _ _

/-- Nothing is caught in a run that returns. -/
theorem Machine.run_tryCatch {M : Machine S ε W} {c : M.Choice} {p : Prog S ε α}
    {g : ε → Prog S ε α} {w w' : W} {a : α} (h : M.run c p w = (.ok a, w')) :
    M.run c (p.tryCatch g) w = (.ok a, w') := by
  induction p generalizing w with
  | ret b => exact h
  | throw e => cases (Prod.mk.inj h).1
  | call o k ih => exact ih _ h

/-- The run of one operation. -/
theorem Machine.run_perform (M : Machine S ε W) (c : M.Choice) (o : S.Op) (w : W) :
    M.run c (Prog.perform o) w = M.exec o c w := by
  have hrun : M.run c (Prog.perform o) w =
      M.run c (Prog.ofExcept (M.exec o c w).1) (M.exec o c w).2 := rfl
  rw [hrun]
  rcases M.exec o c w with ⟨_ | _, w'⟩ <;> rfl

/-- A check that holds is passed. -/
theorem Machine.run_ensure_bind (M : Machine S ε W) (c : M.Choice) {p : Prop} [Decidable p] {e : ε}
    (hp : p) (g : Unit → Prog S ε α) (w : W) :
    M.run c ((Prog.ensure p e).bind g) w = M.run c (g ()) w := by
  rw [Prog.ensure, if_pos hp, Prog.ret_bind]

/-- The machine on which every operation is answered. -/
def Machine.answered (M : Machine S ε W) : Machine S ε W :=
  { M with fails := fun _ _ => False, loses := fun _ _ => False }

/-- `Machine.run` needs no fault, and nothing happens in between. -/
theorem Machine.exec_answered (M : Machine S ε W) (c : M.Choice) (p : Prog S ε α) (w : W) :
    Exec M.answered Eq p w (M.run c p w).1 (M.run c p w).2 := by
  induction p generalizing w with
  | ret a => exact .ret a w
  | throw e => exact .throw e w
  | call o k ih => exact .call rfl (@Machine.Answer.done _ _ _ M.answered o w c) (ih _ _)

/-- What an answered operation answers. -/
theorem Machine.Answer.of_answered {M : Machine S ε W} {o : S.Op} {w w' : W}
    {did seen : Except ε (S.Res o)} (h : M.answered.Answer o w did seen w') :
    M.Answer o w did seen w' ∧ ∃ c, seen = (M.exec o c w).1 ∧ w' = (M.exec o c w).2 := by
  cases h with
  | done c => exact ⟨@Machine.Answer.done _ _ _ M o w c, c, rfl, rfl⟩
  | failed e h => exact h.elim
  | lost e c h => exact h.elim

/-- The machine on which the operations in `R` are always answered. -/
def Machine.reliable (M : Machine S ε W) (R : S.Op → Prop) : Machine S ε W :=
  { M with
    fails := fun o e => ¬R o ∧ M.fails o e
    loses := fun o e => ¬R o ∧ M.loses o e }

/-- What an operation answers there. -/
theorem Machine.Answer.of_reliable {M : Machine S ε W} {R : S.Op → Prop} {o : S.Op} {w w' : W}
    {did seen : Except ε (S.Res o)} (h : (M.reliable R).Answer o w did seen w') :
    M.Answer o w did seen w' ∧
      (R o → ∃ c, seen = (M.exec o c w).1 ∧ w' = (M.exec o c w).2) := by
  cases h with
  | done c => exact ⟨@Machine.Answer.done _ _ _ M o w c, fun _ => ⟨c, rfl, rfl⟩⟩
  | failed e h =>
    exact ⟨@Machine.Answer.failed _ _ _ M o w e h.2, fun ho => absurd ho h.1⟩
  | lost e c h =>
    exact ⟨@Machine.Answer.lost _ _ _ M o w e c h.2, fun ho => absurd ho h.1⟩

/-! ## Calls one after another -/

section Sequence

variable {Call : Type}

/-- The worlds that calls reach which run one after another, each to its end. `may` are the calls
that may be started in a world, and `env` may change the world at any time. -/
inductive Sequence (M : Machine S ε W) (env : W → W → Prop) (body : Call → Prog S ε α)
    (may : Call → W → Prop) (init : W → Prop) : W → Prop
  | start {w : W} (h : init w) : Sequence M env body may init w
  | env {w w' : W} (h : Sequence M env body may init w) (he : env w w') :
      Sequence M env body may init w'
  | call {w w' : W} {r : Except ε α} (h : Sequence M env body may init w) (c : Call)
      (hc : may c w) (hx : Exec M env (body c) w r w') : Sequence M env body may init w'

/-- Runs calls one after another, all of them under one choice, as long as they may be started. -/
def Machine.runAll (M : Machine S ε W) (body : Call → Prog S ε α) (may : Call → W → Prop)
    [∀ c w, Decidable (may c w)] (ch : M.Choice) : List Call → W → Option W
  | [], w => some w
  | c :: cs, w => if may c w then M.runAll body may ch cs (M.run ch (body c) w).2 else none

/-- `Machine.runAll` is a sequence of calls. -/
theorem Sequence.of_runAll {M : Machine S ε W} {env : W → W → Prop} {body : Call → Prog S ε α}
    {may : Call → W → Prop} [∀ c w, Decidable (may c w)] {init : W → Prop}
    (henv : ∀ w, env w w) {ch : M.Choice} {cs : List Call} {w w' : W}
    (h : Sequence M env body may init w) (hrun : M.runAll body may ch cs w = some w') :
    Sequence M env body may init w' := by
  induction cs generalizing w with
  | nil => exact Option.some.inj hrun ▸ h
  | cons c cs ih =>
    unfold Machine.runAll at hrun
    split at hrun
    · next hc => exact ih (h.call c hc (M.exec_run henv ch _ w)) hrun
    · cases hrun

end Sequence

/-! ## Calls side by side -/

/-- One performed operation: which call issued it, the world before and after it, what the store
did and what the caller saw. -/
structure Entry (S : Interface.{u}) (ε W : Type) where
  /-- The number of the call. -/
  pid : ℕ
  /-- The operation. -/
  op : S.Op
  /-- The world in which it was performed. -/
  pre : W
  /-- What the store did. -/
  did : Except ε (S.Res op)
  /-- What the caller saw. -/
  seen : Except ε (S.Res op)
  /-- The world that it left. -/
  post : W

/-- Of two entries of a log one is earlier, unless they are the same. -/
theorem eq_or_earlier {α : Type*} {log : List α} {x y : α} (hx : x ∈ log) (hy : y ∈ log) :
    x = y ∨ (∃ l, x :: l <:+ log ∧ y ∈ l) ∨ ∃ l, y :: l <:+ log ∧ x ∈ l := by
  induction log with
  | nil => cases hx
  | cons e log ih =>
    rcases List.mem_cons.mp hx with rfl | hx'
    · rcases List.mem_cons.mp hy with rfl | hy'
      · exact .inl rfl
      · exact .inr (.inl ⟨log, List.suffix_rfl, hy'⟩)
    · rcases List.mem_cons.mp hy with rfl | hy'
      · exact .inr (.inr ⟨log, List.suffix_rfl, hx'⟩)
      · rcases ih hx' hy' with heq | ⟨l, hl, hmem⟩ | ⟨l, hl, hmem⟩
        · exact .inl heq
        · exact .inr (.inl ⟨l, hl.trans (List.suffix_cons _ _), hmem⟩)
        · exact .inr (.inr ⟨l, hl.trans (List.suffix_cons _ _), hmem⟩)

/-- What is said of every entry and those before it is said of the latest one, and of the others. -/
theorem forall_suffix_cons {α : Type*} {P : α → List α → Prop} {x : α} {log : List α} :
    (∀ y l, y :: l <:+ x :: log → P y l) ↔ P x log ∧ ∀ y l, y :: l <:+ log → P y l := by
  constructor
  · intro h
    exact ⟨h x log List.suffix_rfl, fun y l hl => h y l (hl.trans (List.suffix_cons _ _))⟩
  · rintro ⟨hx, hlog⟩ y l hl
    rcases List.suffix_cons_iff.mp hl with heq | hl
    · obtain ⟨rfl, rfl⟩ := List.cons.inj heq
      exact hx
    · exact hlog y l hl

/-- What follows an entry in a part of a log follows it in the log. -/
theorem exists_suffix_of_filter {α : Type*} {P : α → Bool} {log l : List α} {y : α}
    (h : y :: l <:+ log.filter P) : ∃ l', y :: l' <:+ log ∧ l = l'.filter P := by
  obtain ⟨later, hlater⟩ := h
  obtain ⟨l₁, l₂, rfl, -, hl₂⟩ := List.filter_eq_append_iff.mp hlater.symm
  obtain ⟨l₃, l₄, rfl, -, -, rfl⟩ := List.filter_eq_cons_iff.mp hl₂
  exact ⟨l₄, ⟨l₁ ++ l₃, by rw [List.append_assoc]⟩, rfl⟩

/-- Of two entries `x` and `d`, the first one earlier, either both stand after the entry `r`, or the
first one stands at `r` or before. -/
theorem mem_or_between {α : Type*} {later earlier since l : List α} {d r x : α}
    (h : later ++ d :: earlier = since ++ r :: l) (hx : x ∈ earlier) :
    x ∈ r :: l ∨ x ∈ since ∧ d ∈ since := by
  rcases List.append_eq_append_iff.mp h with ⟨between, rfl, hbetween⟩ | ⟨between, -, hbetween⟩
  · cases between with
    | nil =>
      obtain ⟨rfl, rfl⟩ := List.cons.inj hbetween
      exact .inl (List.mem_cons_of_mem _ hx)
    | cons y between =>
      obtain ⟨rfl, rfl⟩ := List.cons.inj hbetween
      rcases List.mem_append.mp hx with hx | hx
      · refine .inr ⟨?_, ?_⟩
        · exact List.mem_append_right _ (List.mem_cons_of_mem _ hx)
        · exact List.mem_append_right _ List.mem_cons_self
      · exact .inl hx
  · refine .inl ?_
    rw [hbetween]
    exact List.mem_append_right _ (List.mem_cons_of_mem _ hx)

/-- Whatever stands in a list after one thing was added at its end stood there before, or is new. -/
theorem old_or_added {α : Type*} {l : List α} {x y : α} {i : ℕ} (h : (l ++ [x])[i]? = some y) :
    l[i]? = some y ∨ i = l.length ∧ y = x := by
  rcases Nat.lt_trichotomy i l.length with hlt | rfl | hgt
  · rw [List.getElem?_append_left hlt] at h
    exact .inl h
  · rw [List.getElem?_concat_length] at h
    exact .inr ⟨rfl, (Option.some.inj h).symm⟩
  · have hlen : (l ++ [x]).length ≤ i := by
      rw [List.length_append, List.length_singleton]
      omega
    rw [List.getElem?_eq_none hlen] at h
    cases h

/-- Two sums over a log that agree on the entries of each call agree on the whole. -/
theorem sum_eq_of_own {α κ : Type*} [DecidableEq κ] (key : α → κ) {f g : α → ℕ} (log : List α)
    (h : ∀ k, ((log.filter fun x => key x = k).map f).sum =
      ((log.filter fun x => key x = k).map g).sum) : (log.map f).sum = (log.map g).sum := by
  -- By induction on the length: the entries of one call are taken out at a time.
  induction hn : log.length using Nat.strongRecOn generalizing log with
  | ind n ih =>
    cases log with
    | nil => rfl
    | cons x xs =>
      let rest := (x :: xs).filter fun y => ¬key y = key x
      have hlt : rest.length < n := by
        have hx : rest = xs.filter fun y => ¬key y = key x := by
          simp only [rest, List.filter_cons, not_true_eq_false, decide_false, if_false,
            Bool.false_eq_true]
        have hle : rest.length ≤ xs.length := by
          rw [hx]
          exact List.length_filter_le _ _
        rw [← hn, List.length_cons]
        omega
      have hrest : ∀ k, ((rest.filter fun y => key y = k).map f).sum =
          ((rest.filter fun y => key y = k).map g).sum := by
        intro k
        by_cases hk : k = key x
        · have hnil : (rest.filter fun y => key y = k) = [] := by
            rw [List.filter_eq_nil_iff]
            intro y hy
            simpa [hk] using (List.mem_filter.mp hy).2
          rw [hnil]
          rfl
        · have hsame : (rest.filter fun y => key y = k) =
              (x :: xs).filter fun y => key y = k := by
            rw [List.filter_filter]
            refine List.filter_congr fun y _ => ?_
            by_cases hy : key y = k
            · simp [hy, hk]
            · simp [hy]
          rw [hsame]
          exact h k
      have hsum := ih _ hlt rest hrest rfl
      rw [← List.sum_map_filter_add_sum_map_filter_not (fun y => key y = key x) f,
        ← List.sum_map_filter_add_sum_map_filter_not (fun y => key y = key x) g, h (key x)]
      exact congrArg _ hsum

/-- A world with the log of what led to it, the latest entry first. -/
structure Hist (S : Interface.{u}) (ε W : Type) where
  /-- The present world. -/
  world : W
  /-- The operations performed so far. -/
  log : List (Entry S ε W)

namespace Hist

/-- The history after the call `pid` performed `o`. -/
def record (h : Hist S ε W) (pid : ℕ) (o : S.Op) (did seen : Except ε (S.Res o)) (w : W) :
    Hist S ε W :=
  ⟨w, ⟨pid, o, h.world, did, seen, w⟩ :: h.log⟩

/-- The history after the surroundings changed the world. -/
def withWorld (h : Hist S ε W) (w : W) : Hist S ε W := ⟨w, h.log⟩

/-- The entries of one call. -/
def own (h : Hist S ε W) (pid : ℕ) : List (Entry S ε W) := h.log.filter (·.pid = pid)

section

variable (h : Hist S ε W) (pid : ℕ) (o : S.Op) (did seen : Except ε (S.Res o)) (w : W)

/-- An operation leaves its world in the history. -/
@[simp] theorem record_world : (h.record pid o did seen w).world = w := rfl

/-- An operation enters the log. -/
@[simp] theorem record_log :
    (h.record pid o did seen w).log = ⟨pid, o, h.world, did, seen, w⟩ :: h.log := rfl

/-- The world after a change from outside. -/
@[simp] theorem withWorld_world : (h.withWorld w).world = w := rfl

/-- A change from outside is no entry. -/
@[simp] theorem withWorld_log : (h.withWorld w).log = h.log := rfl

/-- A change from outside leaves every call's own entries. -/
@[simp] theorem own_withWorld (q : ℕ) : (h.withWorld w).own q = h.own q := rfl

/-- A call's operation is its newest entry. -/
@[simp] theorem own_record_self :
    (h.record pid o did seen w).own pid = ⟨pid, o, h.world, did, seen, w⟩ :: h.own pid := by
  simp [own]

/-- One call's operation leaves the entries of the others. -/
theorem own_record_of_ne {q : ℕ} (hq : pid ≠ q) :
    (h.record pid o did seen w).own q = h.own q := by
  simp [own, hq]

end

/-- An entry of a call is an entry of the log, and carries the call's number. -/
theorem mem_own {h : Hist S ε W} {pid : ℕ} {e : Entry S ε W} :
    e ∈ h.own pid ↔ e ∈ h.log ∧ e.pid = pid := by
  simp [own]

/-- A call that has not started yet has no entries. -/
theorem own_eq_nil {h : Hist S ε W} {n pid : ℕ} (hlog : ∀ e ∈ h.log, e.pid < n) (hpid : n ≤ pid) :
    h.own pid = [] := by
  rw [List.eq_nil_iff_forall_not_mem]
  intro e he
  obtain ⟨hmem, heq⟩ := mem_own.mp he
  have hlt := hlog e hmem
  omega

end Hist

/-- Any number of calls over one machine. `valid` are the calls that may be started, `env` is what
the surroundings may do to the world, and `allow` restricts the operations of the runs under
consideration; by default it allows all of them. -/
structure System (S : Interface.{u}) (ε α W : Type) where
  /-- The machine on which the calls run. -/
  machine : Machine S ε W
  /-- The calls. -/
  Call : Type
  /-- The program of a call. -/
  body : Call → Prog S ε α
  /-- The calls that may be started. -/
  valid : Call → Prop
  /-- What may happen to the world between two operations. -/
  env : W → W → Prop
  /-- The operations that the runs under consideration may perform. -/
  allow : ℕ → S.Op → Hist S ε W → Prop := fun _ _ _ => True

namespace System

variable (sys : System S ε α W)

/-- A state of a system: the history, and each call with what is left of its program. A call's
number is its place in the list. -/
structure Config where
  /-- The world and the log. -/
  hist : Hist S ε W
  /-- The calls started so far. -/
  procs : List (sys.Call × Prog S ε α)

/-- The state in which no call has started. -/
def start (w : W) : sys.Config := ⟨⟨w, []⟩, []⟩

/-- One step of a system. -/
inductive Step : sys.Config → sys.Config → Prop
  | spawn (cfg : sys.Config) (c : sys.Call) (hc : sys.valid c) :
      Step cfg ⟨cfg.hist, cfg.procs ++ [(c, sys.body c)]⟩
  | env (cfg : sys.Config) (w : W) (h : sys.env cfg.hist.world w) :
      Step cfg ⟨cfg.hist.withWorld w, cfg.procs⟩
  | op (cfg : sys.Config) (pid : ℕ) (c : sys.Call) (o : S.Op)
      (k : Except ε (S.Res o) → Prog S ε α) (hp : cfg.procs[pid]? = some (c, .call o k))
      (ha : sys.allow pid o cfg.hist) (did seen : Except ε (S.Res o)) (w : W)
      (h : sys.machine.Answer o cfg.hist.world did seen w) :
      Step cfg ⟨cfg.hist.record pid o did seen w, cfg.procs.set pid (c, k seen)⟩

/-- The states that runs from an initial world reach. -/
inductive Reachable (init : W → Prop) : sys.Config → Prop
  | start {w : W} (h : init w) : Reachable init (sys.start w)
  | step {cfg cfg' : sys.Config} (h : Reachable init cfg) (hs : sys.Step cfg cfg') :
      Reachable init cfg'

variable {sys} in
/-- What is reached from a reachable state is reachable. -/
theorem Reachable.run {init : W → Prop} {cfg cfg' : sys.Config} (h : sys.Reachable init cfg)
    (hrun : Relation.ReflTransGen sys.Step cfg cfg') : sys.Reachable init cfg' := by
  induction hrun with
  | refl => exact h
  | tail _ hs ih => exact ih.step hs

variable {sys} in
/-- A run only adds to the log. -/
theorem log_suffix {cfg cfg' : sys.Config} (hrun : Relation.ReflTransGen sys.Step cfg cfg') :
    cfg.hist.log <:+ cfg'.hist.log := by
  induction hrun with
  | refl => exact List.suffix_rfl
  | tail _ hs ih =>
    cases hs with
    | spawn c hc => exact ih
    | env w h => exact ih
    | op pid c o k hp ha did seen w h => exact ih.trans (List.suffix_cons _ _)

variable {sys} in
/-- A call with what `f` says of its result, if it has returned. -/
def Config.returned? {β : Type} (cfg : sys.Config) (f : α → β) (pid : ℕ) :
    Option (sys.Call × Option β) :=
  (cfg.procs[pid]?).map fun p => (p.1, p.2.result?.map f)

variable {sys} in
/-- A call that has a result has returned it. -/
theorem Config.exists_of_returned? {β : Type} {cfg : sys.Config} {f : α → β} {pid : ℕ}
    {c : sys.Call} {b : β} (h : cfg.returned? f pid = some (c, some b)) :
    ∃ a, cfg.procs[pid]? = some (c, .ret a) ∧ f a = b := by
  obtain ⟨⟨c', p⟩, hp, heq⟩ := Option.map_eq_some_iff.mp h
  obtain ⟨rfl, hresult⟩ := Prod.mk.inj heq
  obtain ⟨a, ha, rfl⟩ := Option.map_eq_some_iff.mp hresult
  cases p with
  | ret a' =>
    obtain rfl := Option.some.inj ha
    exact ⟨a', hp, rfl⟩
  | throw e => cases ha
  | call o k => cases ha

/-! ## Schedules -/

/-- One instruction of a schedule. -/
inductive Action (sys : System S ε α W) : Type
  /-- Start a call. -/
  | spawn (c : sys.Call)
  /-- Let the surroundings change the world in this way. -/
  | env (f : W → W) (h : ∀ w, sys.env w (f w))
  /-- Let a call perform its next operation, under this choice. -/
  | op (pid : ℕ) (c : sys.machine.Choice)

/-- The next `n` operations of a call, all of them under one choice. -/
def turns (pid : ℕ) (ch : sys.machine.Choice) (n : ℕ) : List (Action sys) :=
  List.replicate n (.op pid ch)

/-- What a schedule leads to, if that can be computed. -/
theorem exists_of_play {κ : Type*} {cfg : Option κ} {P : κ → Prop} [DecidablePred P]
    (h : cfg.any (fun c => decide (P c)) = true) : ∃ c, cfg = some c ∧ P c := by
  obtain ⟨c, hc, hP⟩ := (Option.any_eq_true _ _).mp h
  exact ⟨c, hc, of_decide_eq_true hP⟩

section Play

variable [DecidablePred sys.valid]

/-- Carries out one instruction, if it can be. -/
def act (cfg : sys.Config) : Action sys → Option sys.Config
  | .spawn c => if sys.valid c then some ⟨cfg.hist, cfg.procs ++ [(c, sys.body c)]⟩ else none
  | .env f _ => some ⟨cfg.hist.withWorld (f cfg.hist.world), cfg.procs⟩
  | .op pid ch =>
    match cfg.procs[pid]? with
    | some (c, .call o k) =>
      let res := sys.machine.exec o ch cfg.hist.world
      some ⟨cfg.hist.record pid o res.1 res.1 res.2, cfg.procs.set pid (c, k res.1)⟩
    | _ => none

/-- Carries out a schedule. -/
def play : List (Action sys) → sys.Config → Option sys.Config
  | [], cfg => some cfg
  | a :: as, cfg => (sys.act cfg a).bind (play as)

variable {sys}

variable (sys) in
/-- The system allows every step of the log. -/
def Allowed : List (Entry S ε W) → Prop
  | [] => True
  | e :: log => sys.allow e.pid e.op ⟨e.pre, log⟩ ∧ Allowed log

instance [∀ pid o h, Decidable (sys.allow pid o h)] : DecidablePred sys.Allowed := fun log => by
  induction log with
  | nil => exact isTrue trivial
  | cons e log ih => exact inferInstanceAs (Decidable (_ ∧ _))

omit [DecidablePred sys.valid] in
/-- What a log is allowed, its past was. -/
theorem Allowed.of_suffix {log log' : List (Entry S ε W)} (h : sys.Allowed log')
    (hsuffix : log <:+ log') : sys.Allowed log := by
  induction log' with
  | nil => exact List.suffix_nil.mp hsuffix ▸ h
  | cons e log' ih =>
    rcases List.suffix_cons_iff.mp hsuffix with rfl | hsuffix
    · exact h
    · exact ih h.2 hsuffix

omit [DecidablePred sys.valid] in
/-- Where the system allows everything, every log is allowed. -/
theorem allowed_of_forall (hallow : ∀ pid o h, sys.allow pid o h) (log : List (Entry S ε W)) :
    sys.Allowed log := by
  induction log with
  | nil => trivial
  | cons e log ih => exact ⟨hallow _ _ _, ih⟩

/-- An instruction that can be carried out is a step, if the system allows it, and only adds to the
log. -/
theorem step_of_act {cfg cfg' : sys.Config} {a : Action sys} (h : sys.act cfg a = some cfg') :
    cfg.hist.log <:+ cfg'.hist.log ∧ (sys.Allowed cfg'.hist.log → sys.Step cfg cfg') := by
  cases a with
  | spawn c =>
    simp only [act, Option.ite_none_right_eq_some, Option.some.injEq] at h
    obtain ⟨hc, rfl⟩ := h
    exact ⟨List.suffix_rfl, fun _ => .spawn cfg c hc⟩
  | env f hf =>
    obtain rfl := Option.some.inj h
    exact ⟨List.suffix_rfl, fun _ => .env cfg _ (hf _)⟩
  | op pid ch =>
    simp only [act] at h
    split at h
    · rename_i c o k hp
      obtain rfl := Option.some.inj h
      exact ⟨List.suffix_cons _ _, fun hall => .op cfg pid c o k hp hall.1 _ _ _ (.done ch)⟩
    · cases h

/-- A schedule that can be carried out only adds to the log. -/
theorem suffix_of_play {as : List (Action sys)} {cfg cfg' : sys.Config}
    (h : sys.play as cfg = some cfg') : cfg.hist.log <:+ cfg'.hist.log := by
  induction as generalizing cfg with
  | nil =>
    obtain rfl := Option.some.inj h
    exact List.suffix_rfl
  | cons a as ih =>
    obtain ⟨cfg₁, h₁, h₂⟩ := Option.bind_eq_some_iff.mp h
    exact (step_of_act h₁).1.trans (ih h₂)

/-- A schedule that can be carried out is a run, if the system allows what it adds to the log. -/
theorem run_of_play {as : List (Action sys)} {cfg cfg' : sys.Config}
    (h : sys.play as cfg = some cfg') (hall : sys.Allowed cfg'.hist.log) :
    Relation.ReflTransGen sys.Step cfg cfg' := by
  induction as generalizing cfg with
  | nil => exact Option.some.inj h ▸ .refl
  | cons a as ih =>
    obtain ⟨cfg₁, h₁, h₂⟩ := Option.bind_eq_some_iff.mp h
    exact .head ((step_of_act h₁).2 (hall.of_suffix (suffix_of_play h₂))) (ih h₂)

/-- A schedule that can be carried out ends in a reachable state, if the system allows what it adds
to the log. -/
theorem reachable_of_allowed {init : W → Prop} {as : List (Action sys)} {cfg cfg' : sys.Config}
    (hr : sys.Reachable init cfg) (h : sys.play as cfg = some cfg')
    (hall : sys.Allowed cfg'.hist.log) : sys.Reachable init cfg' :=
  hr.run (run_of_play h hall)

/-- A schedule that can be carried out from a reachable state ends in a reachable one, in a system
that allows every operation. -/
theorem reachable_of_play (hallow : ∀ pid o h, sys.allow pid o h) {init : W → Prop}
    {as : List (Action sys)} {cfg cfg' : sys.Config} (hr : sys.Reachable init cfg)
    (h : sys.play as cfg = some cfg') : sys.Reachable init cfg' :=
  reachable_of_allowed hr h (allowed_of_forall hallow _)

end Play

end System

end SplitBill.Interleave
