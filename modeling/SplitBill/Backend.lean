import SplitBill.Auth.Repository
import SplitBill.Expenses.Repository
import SplitBill.Groups.Repository
import SplitBill.Interleave.Logic
import SplitBill.Settlements.Repository
import SplitBill.Summary.Repository

/-!
# The backend's machine

The operations between which the code of the backend waits: the methods of the repositories, the
commands to Redis, password hashing and the mail provider. Reading the clock, drawing random bytes
and counting a metric do not wait in the source. They are operations here because they read or
change the world, and a place more at which others may act only adds runs. The start and the end of
a job's handler are operations so that the log shows them, and so is the order in which two queries
are answered for which the code waits together (`promiseAll`).

An access to PostgreSQL, a Redis command or a mail may fail, or take effect although its caller is
told otherwise.
-/

namespace SplitBill

open Interleave

/-- The methods of the repositories. -/
inductive DbOp
  | group (o : GroupOp)
  | expense (o : ExpenseOp)
  | settlement (o : SettlementOp)
  | activity (o : ActivityOp)
  | summary (o : SummaryOp)
  | auth (o : AuthOp)

namespace DbOp

/-- What a method answers. -/
abbrev Res : DbOp → Type
  | group o => o.Res
  | expense o => o.Res
  | settlement o => o.Res
  | activity o => o.Res
  | summary o => o.Res
  | auth o => o.Res

/-- What a method does. -/
def access : (o : DbOp) → Access o.Res
  | group o => o.access
  | expense o => o.access
  | settlement o => o.access
  | activity o => o.access
  | summary o => o.access
  | auth o => o.access

end DbOp

/-- The methods that issue Redis commands. -/
inductive Caller
  /-- `GroupCache`. -/
  | groupCache
  /-- `DistributedLock`. -/
  | distributedLock
  /-- `JobQueue.enqueue`. -/
  | enqueue
  /-- `JobQueue.claimNext`. -/
  | claimNext
  /-- `JobQueue.complete`. -/
  | complete
  /-- `JobQueue.retryAfterFailure`. -/
  | retryAfterFailure
  /-- `JobQueue.discard`. -/
  | discard
  deriving DecidableEq

/-- The operations of the backend. -/
inductive Op
  /-- `new Date()` or `Date.now()`. -/
  | now
  /-- `randomUUID()` or `randomBytes(32)`. -/
  | random
  /-- The choice of the query that is answered first, of two that are issued together. -/
  | race
  /-- `metrics.increment`. -/
  | metric (m : Metric)
  /-- `bcrypt.hash`. -/
  | bcryptHash (password : String)
  /-- `bcrypt.compare`. -/
  | bcryptCompare (password hash : String)
  /-- `EmailProvider.send`. -/
  | mail (m : Mail)
  /-- A repository method. -/
  | db (o : DbOp)
  /-- A Redis command. -/
  | redis (caller : Caller) (c : Command Key Stored)
  /-- The call of a job's handler, whose own operations follow. -/
  | process (type : JobType) (jobId : Id)
  /-- The end of a job's handler, with the attempts that the job's envelope counted. -/
  | processed (type : JobType) (jobId : Id) (attempts : ℕ) (outcome : Except Err Unit)

/-- What an operation answers. -/
abbrev Op.Res : Op → Type
  | now => Time
  | random => Id
  | race => Bool
  | metric _ => Unit
  | bcryptHash _ => String
  | bcryptCompare _ _ => Bool
  | mail _ => Unit
  | db o => o.Res
  | redis _ c => c.Res
  | process _ _ => Unit
  | processed _ _ _ _ => Unit

/-- The interface of the backend. -/
abbrev backend : Interface := ⟨Op, Op.Res⟩

/-- Asynchronous code of the backend. -/
abbrev Act (α : Type) : Type := Prog backend Err α

/-- A step of a run of the backend. -/
abbrev BackendEntry : Type := Entry backend Err World

/-- The program of one operation. -/
abbrev Op.perform (o : Op) : Act o.Res := @Prog.perform backend Err o

/-- `new Date()` or `Date.now()`. -/
def newDate : Act Time := Op.perform .now

/-- An instant that is given, or else the present one. -/
def dateOrNow : Option Time → Act Time
  | some date => pure date
  | none => newDate

/-- `randomUUID()` or another random string. -/
def randomId : Act Id := Op.perform .random

/-- `metrics.increment`. -/
def increment (m : Metric) : Act Unit := Op.perform (.metric m)

/-- `Promise.all([p, q])`, for two queries: either of them may be answered first. -/
def promiseAll {α β : Type} (p : Act α) (q : Act β) : Act (α × β) := do
  if ← Op.perform .race then
    let a ← p
    return (a, ← q)
  else
    let b ← q
    return (← p, b)

/-- An operation that is none on the database, or one in `P`. -/
def Op.OnDb (P : DbOp → Prop) : Op → Prop
  | .db o => P o
  | _ => True

/-- A query, or else a transaction in `T`. -/
def ReadsOr (T : DbOp → Prop) (o : DbOp) : Prop := (∃ f, o.access = .read f) ∨ T o

/-- The program of one operation. -/
theorem issues_op {P : DbOp → Prop} {o : Op} (h : o.OnDb P) : (Op.perform o).Issues (Op.OnDb P) :=
  (Prog.issues_perform _ _).mpr h

/-- Both queries, and the choice between them. -/
theorem issues_promiseAll {α β : Type} {P : Op → Prop} {p : Act α} {q : Act β} (hp : p.Issues P)
    (hq : q.Issues P) (hrace : P .race) : (promiseAll p q).Issues P := by
  refine .bind ((Prog.issues_perform _ _).mpr hrace) fun first => ?_
  cases first with
  | true => exact .bind hp fun _ => .bind hq fun _ => trivial
  | false => exact .bind hq fun _ => .bind hp fun _ => trivial

/-- The answer and the effect of an operation. -/
def Op.exec (lib : Lib) : (o : Op) → Choice → World → Except Err o.Res × World
  | now, _, w => (.ok w.now, w)
  | random, _, w => (.ok w.random, { w with random := w.random + 1 })
  | race, c, w => (.ok c.first, w)
  | metric m, _, w => (.ok (), { w with metrics := m :: w.metrics })
  | bcryptHash password, _, w =>
    (.ok (lib.bcryptHash password w.random), { w with random := w.random + 1 })
  | bcryptCompare password hash, _, w => (.ok (lib.bcryptCompare password hash), w)
  | mail m, _, w => (.ok (), { w with outbox := m :: w.outbox })
  | db o, c, w => o.access.exec c w
  | redis _ cmd, _, w =>
    let r := w.redis.exec w.now cmd
    (.ok r.1, { w with redis := r.2 })
  | process _ _, _, w => (.ok (), w)
  | processed _ _ _ _, _, w => (.ok (), w)

/-- The error with which an operation may fail, and which its caller may see although it took
effect. -/
def Op.fault : Op → Option Err
  | mail _ => some .mail
  | db _ => some (.prisma .unavailable)
  | redis _ _ => some .redis
  | _ => none

/-- The machine on which the backend runs. -/
def machine (lib : Lib) : Machine backend Err World where
  Choice := Choice
  exec := Op.exec lib
  fails o e := o.fault = some e
  loses o e := o.fault = some e

variable {lib : Lib}

/-- What may come of an operation: it takes effect, and its caller may be told of a fault, or it
fails and has no effect. -/
theorem answer_cases {o : Op} {w w' : World} {did seen : Except Err (backend.Res o)}
    (h : (machine lib).Answer o w did seen w') :
    (∃ c, did = (o.exec lib c w).1 ∧ w' = (o.exec lib c w).2 ∧
        (seen = did ∨ ∃ e, o.fault = some e ∧ seen = .error e)) ∨
      w' = w ∧ ∃ e, o.fault = some e ∧ did = .error e ∧ seen = .error e := by
  cases h with
  | done c => exact .inl ⟨c, rfl, rfl, .inl rfl⟩
  | failed e h => exact .inr ⟨rfl, e, h, rfl, rfl⟩
  | lost e c h => exact .inl ⟨c, rfl, rfl, .inr ⟨e, h, rfl⟩⟩

/-- A Redis command is carried out, or fails. Its caller may be told of a failure in either case. -/
theorem answer_redis {caller : Caller} {c : Command Key Stored} {w w' : World}
    {did seen : Except Err c.Res} (h : (machine lib).Answer (.redis caller c) w did seen w') :
    (did = .ok (w.redis.exec w.now c).1 ∧ w' = { w with redis := (w.redis.exec w.now c).2 } ∧
        (seen = did ∨ ∃ e, seen = .error e)) ∨
      w' = w ∧ ∃ e, did = .error e ∧ seen = .error e := by
  rcases answer_cases h with ⟨_, hdid, hw, hseen | ⟨e, -, hseen⟩⟩ | ⟨hw, e, -, hdid, hseen⟩
  · exact .inl ⟨hdid, hw, .inl hseen⟩
  · exact .inl ⟨hdid, hw, .inr ⟨e, hseen⟩⟩
  · exact .inr ⟨hw, e, hdid, hseen⟩

/-- An operation other than a Redis command leaves Redis as it was. -/
theorem answer_redis_eq {o : Op} (ho : ∀ caller c, o ≠ .redis caller c) {w w' : World}
    {did seen : Except Err (backend.Res o)} (h : (machine lib).Answer o w did seen w') :
    w'.redis = w.redis := by
  rcases answer_cases h with ⟨c, -, rfl, -⟩ | ⟨rfl, -⟩
  · cases o with
    | redis caller cmd => exact absurd rfl (ho caller cmd)
    | db d => exact Access.exec_redis d.access c w
    | _ => rfl
  · rfl

/-- What a caller is told of a success is the truth. -/
theorem answer_seen_ok {o : Op} {w w' : World} {did : Except Err (backend.Res o)}
    {a : backend.Res o} (h : (machine lib).Answer o w did (.ok a) w') : did = .ok a := by
  rcases answer_cases h with ⟨c, -, -, hseen | ⟨e, -, hseen⟩⟩ | ⟨-, e, -, -, hseen⟩
  · exact hseen.symm
  · cases hseen
  · cases hseen

/-- An operation that is not answered by the database, Redis or the mail provider is answered. -/
theorem answer_of_fault_none {o : Op} (ho : o.fault = none) {w w' : World}
    {did seen : Except Err (backend.Res o)} (h : (machine lib).Answer o w did seen w') :
    ∃ a, did = .ok a ∧ seen = .ok a := by
  rcases answer_cases h with ⟨c, hdid, -, hseen | ⟨e, he, -⟩⟩ | ⟨-, e, he, -⟩
  · have hok : ∃ a, (o.exec lib c w).1 = .ok a := by
      cases o with
      | mail m => cases ho
      | db d => cases ho
      | redis caller cmd => cases ho
      | _ => exact ⟨_, rfl⟩
    obtain ⟨a, ha⟩ := hok
    exact ⟨a, hdid.trans ha, hseen.trans (hdid.trans ha)⟩
  · rw [ho] at he
    cases he
  · rw [ho] at he
    cases he

/-- A query changes nothing, and what its caller sees is the table at that moment, or that the
database is unavailable. -/
theorem answer_read {o : DbOp} {f : Choice → Db → o.Res} (ho : o.access = .read f) {w w' : World}
    {did seen : Except Err o.Res} (h : (machine lib).Answer (.db o) w did seen w') :
    w' = w ∧ ((∃ c, seen = .ok (f c w.db)) ∨ seen = .error (.prisma .unavailable)) := by
  have hexec : ∀ c, (Op.db o).exec lib c w = (.ok (f c w.db), w) := by
    intro c
    show o.access.exec c w = _
    rw [ho]
    rfl
  rcases answer_cases h with ⟨c, hdid, rfl, hseen⟩ | ⟨rfl, e, hfault, -, he⟩
  · have hw : ((Op.db o).exec lib c w).2 = w := by rw [hexec c]
    have hr : ((Op.db o).exec lib c w).1 = .ok (f c w.db) := by rw [hexec c]
    rcases hseen with rfl | ⟨e, hfault, he⟩
    · exact ⟨hw, .inl ⟨c, hdid.trans hr⟩⟩
    · exact ⟨hw, .inr (he.trans (congrArg _ (Option.some.inj hfault).symm))⟩
  · exact ⟨rfl, .inr (he.trans (congrArg _ (Option.some.inj hfault).symm))⟩

/-- A transaction either leaves the tables as they were, or commits what its body computed. Its
caller learns the truth, or is told that the database is unavailable. -/
theorem answer_write {o : DbOp} {t : Choice → Time → Tx Db Err Metric o.Res}
    (ho : o.access = .write t) {w w' : World} {did seen : Except Err o.Res}
    (h : (machine lib).Answer (.db o) w did seen w') :
    w'.now = w.now ∧ (seen = did ∨ seen = .error (.prisma .unavailable)) ∧
      ((∃ e, did = .error e ∧ w'.db = w.db) ∨
        ∃ c r, did = .ok r ∧ (t c w.now).eval w.db = .ok (r, w'.db)) := by
  rcases answer_cases h with ⟨c, hdid, rfl, hseen⟩ | ⟨rfl, e, he, rfl, rfl⟩
  · refine ⟨Access.exec_now o.access c w, ?_, ?_⟩
    · rcases hseen with hseen | ⟨e, he, hseen⟩
      · exact .inl hseen
      · exact .inr (by rw [hseen]; exact congrArg _ (Option.some.inj he).symm)
    · cases hexec : (o.access.exec c w).1 with
      | error e => exact .inl ⟨e, hdid.trans hexec, Access.db_of_exec_error hexec⟩
      | ok r =>
        refine .inr ⟨c, r, hdid.trans hexec, ?_⟩
        rw [ho] at hexec
        rw [Access.eval_of_exec_ok hexec]
        show _ = Except.ok (r, (o.access.exec c w).2.db)
        rw [ho]
  · exact ⟨rfl, .inl rfl, .inl ⟨e, rfl, rfl⟩⟩

/-- What an access that answered `r` made of the tables: a query left them, and a transaction
committed what its body computed. -/
def Access.Makes {α : Type} (now : Time) (d : Db) (r : α) (d' : Db) : Access α → Prop
  | .read _ => d' = d
  | .write t => ∃ c, (t c now).eval d = .ok (r, d')

/-- An access that fails leaves the tables as they were. -/
theorem answer_access {o : DbOp} {w w' : World} {did seen : Except Err o.Res}
    (h : (machine lib).Answer (.db o) w did seen w') :
    (∃ e, did = .error e ∧ w'.db = w.db) ∨
      ∃ r, did = .ok r ∧ o.access.Makes w.now w.db r w'.db := by
  cases hacc : o.access with
  | read f =>
    obtain ⟨rfl, -⟩ := answer_read hacc h
    cases did with
    | error e => exact .inl ⟨e, rfl, rfl⟩
    | ok r => exact .inr ⟨r, rfl, rfl⟩
  | write t =>
    obtain ⟨-, -, hfailed | ⟨c, r, hdid, heval⟩⟩ := answer_write hacc h
    · exact .inl hfailed
    · exact .inr ⟨r, hdid, c, heval⟩

/-- An access leaves the tables as they were, or is a transaction that commits. -/
theorem answer_commit {o : DbOp} {w w' : World} {did seen : Except Err o.Res}
    (h : (machine lib).Answer (.db o) w did seen w') : w'.db = w.db ∨
      ∃ t c r, o.access = .write t ∧ did = .ok r ∧ (t c w.now).eval w.db = .ok (r, w'.db) := by
  obtain ⟨e, -, hdb⟩ | ⟨r, hdid, hmakes⟩ := answer_access h
  · exact .inl hdb
  · cases hacc : o.access with
    | read f =>
      rw [hacc] at hmakes
      exact .inl hmakes
    | write t =>
      rw [hacc] at hmakes
      obtain ⟨c, heval⟩ := hmakes
      exact .inr ⟨t, c, r, rfl, hdid, heval⟩

/-- An access to the database can be answered alike in every world with the same tables and the same
clock. -/
theorem answer_db_congr {o : DbOp} {w v w' : World} {did seen : Except Err o.Res}
    (h : (machine lib).Answer (.db o) w did seen w') (hdb : v.db = w.db) (hnow : v.now = w.now) :
    ∃ v', (machine lib).Answer (.db o) v did seen v' ∧ v'.db = w'.db ∧ v'.now = w'.now := by
  have hexec : ∀ c, (o.access.exec c v).1 = (o.access.exec c w).1 ∧
      (o.access.exec c v).2.db = (o.access.exec c w).2.db := by
    intro c
    cases o.access with
    | read f => exact ⟨by simp only [Access.exec_read, hdb], hdb⟩
    | write t => exact ⟨by simp only [Access.exec, hdb, hnow], by simp only [Access.exec, hdb, hnow]⟩
  have hclock : ∀ c, (o.access.exec c v).2.now = (o.access.exec c w).2.now := by
    intro c
    rw [Access.exec_now, Access.exec_now, hnow]
  rcases answer_cases h with ⟨c, hdid, rfl, hseen⟩ | ⟨rfl, e, he, rfl, rfl⟩
  · have hdid' : did = (o.access.exec c v).1 := hdid.trans (hexec c).1.symm
    refine ⟨(o.access.exec c v).2, ?_, (hexec c).2, hclock c⟩
    rcases hseen with rfl | ⟨e, he, rfl⟩
    · rw [hdid']
      exact @Machine.Answer.done _ _ _ (machine lib) (.db o) v c
    · rw [hdid']
      exact @Machine.Answer.lost _ _ _ (machine lib) (.db o) v e c he
  · exact ⟨v, .failed e he, hdb, hnow⟩

/-- An operation other than an access to the database leaves the tables as they were. -/
theorem answer_db_eq {o : Op} (ho : ∀ d, o ≠ .db d) {w w' : World}
    {did seen : Except Err (backend.Res o)}
    (h : (machine lib).Answer o w did seen w') : w'.db = w.db := by
  rcases answer_cases h with ⟨c, -, rfl, -⟩ | ⟨rfl, -⟩
  · cases o with
    | db d => exact absurd rfl (ho d)
    | _ => rfl
  · rfl

/-- An operation leaves the tables as they were, or is one of the transactions `T` and commits. -/
theorem answer_transaction {T : DbOp → Prop} {o : Op} (ho : o.OnDb (ReadsOr T)) {w w' : World}
    {did seen : Except Err (backend.Res o)} (h : (machine lib).Answer o w did seen w') :
    w'.db = w.db ∨ ∃ d t c r, o = .db d ∧ T d ∧ d.access = .write t ∧
      (t c w.now).eval w.db = .ok (r, w'.db) := by
  cases o with
  | db d =>
    obtain hdb | ⟨t, c, r, hacc, -, heval⟩ := answer_commit h
    · exact .inl hdb
    · obtain ⟨f, hf⟩ | hd := ho
      · rw [hacc] at hf
        cases hf
      · exact .inr ⟨d, t, c, r, rfl, hd, hacc, heval⟩
  | _ => exact .inl (answer_db_eq (by rintro d ⟨⟩) h)

/-- An operation changes the clock never. -/
theorem answer_now {o : Op} {w w' : World} {did seen : Except Err (backend.Res o)}
    (h : (machine lib).Answer o w did seen w') : w'.now = w.now := by
  rcases answer_cases h with ⟨c, -, rfl, -⟩ | ⟨rfl, -⟩
  · cases o with
    | db d => exact Access.exec_now d.access c w
    | _ => rfl
  · rfl

end SplitBill
