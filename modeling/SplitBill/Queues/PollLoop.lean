import SplitBill.Queues.Protocol

/-!
# The poll loop of a worker

`start`, `stop` and `tick` of `src/queues/workerRunner.ts`. A runner is an object with two fields,
`running` and `inFlight`. Every call of `start` that finds the runner stopped adds a loop, which
polls as long as it finds `running` set. A call of `stop` resets `running` and then waits until it
finds no job in flight. A loop runs no code of its own between two operations of a tick, so that a
stop or a start may come at any of them.

A loop and a stop carry a few notes on the run, which no code reads: they are there to state what a
run did.
-/

namespace SplitBill

open Interleave

/-! ## One tick -/

/-- The operations of a tick: those of the backend, and the two steps of the count of jobs in
flight. -/
inductive RunnerOp
  | backend (o : Op)
  /-- `this.inFlight += 1`. -/
  | raiseInFlight
  /-- `this.inFlight -= 1`. -/
  | lowerInFlight

/-- What an operation answers. -/
abbrev RunnerOp.Res : RunnerOp → Type
  | backend o => o.Res
  | _ => Unit

/-- The interface of a tick. -/
abbrev runnerInterface : Interface := ⟨RunnerOp, RunnerOp.Res⟩

/-- Code of a tick. -/
abbrev Tick (α : Type) : Type := Prog runnerInterface Err α

/-- Code of the backend, as code of a tick. -/
def onBackend {α : Type} : Act α → Tick α
  | .ret a => .ret a
  | .throw e => .throw e
  | .call o k => .call (S := runnerInterface) (.backend o) fun r => onBackend (k r)

namespace PollLoop

/-- `processType`, with the count of jobs in flight. -/
def processType (env : Env) (registry : JobType → JobRegistration) (type : JobType) :
    Tick Unit := do
  match ← onBackend (JobQueue.claimNext env type) with
  | .empty => return ()
  | .busy => return ()
  | .malformed _ => return ()
  | .claimed jobId envelope =>
    Prog.call (S := runnerInterface) .raiseInFlight fun _ => do
      let outcome ← (onBackend ((WorkerRunner.runJob (registry type) type jobId envelope).tryCatch
        (WorkerRunner.handleFailure env type jobId envelope))).attempt
      Prog.call (S := runnerInterface) .lowerInFlight fun _ => Prog.ofExcept outcome

/-- `tick`, for a registry with these keys. -/
def tick (env : Env) (registry : JobType → JobRegistration) : List JobType → Tick Unit
  | [] => return ()
  | type :: types => do
    (processType env registry type).tryCatch fun _ => return ()
    tick env registry types

/-- What a tick does when no one counts the jobs in flight. -/
def uncounted {α : Type} : Tick α → Act α
  | .ret a => .ret a
  | .throw e => .throw e
  | .call (.backend o) k => .call (S := backend) o fun r => uncounted (k r)
  | .call .raiseInFlight k => uncounted (k (.ok ()))
  | .call .lowerInFlight k => uncounted (k (.ok ()))

/-- A computation of the backend counts no job in flight. -/
theorem uncounted_onBackend {α : Type} (p : Act α) : uncounted (onBackend p) = p := by
  induction p with
  | ret a => rfl
  | throw e => rfl
  | call o k ih => exact congrArg (Prog.call (S := backend) o) (funext ih)

/-- Two computations one after the other, without the counting. -/
theorem uncounted_bind {α β : Type} (p : Tick α) (g : α → Tick β) :
    uncounted (p.bind g) = (uncounted p).bind fun a => uncounted (g a) := by
  induction p with
  | ret a => rfl
  | throw e => rfl
  | call o k ih =>
    cases o with
    | backend o => exact congrArg (Prog.call (S := backend) o) (funext ih)
    | raiseInFlight => exact ih _
    | lowerInFlight => exact ih _

/-- A computation whose error is caught, without the counting. -/
theorem uncounted_attempt {α : Type} (p : Tick α) :
    uncounted p.attempt = (uncounted p).attempt := by
  induction p with
  | ret a => rfl
  | throw e => rfl
  | call o k ih =>
    cases o with
    | backend o => exact congrArg (Prog.call (S := backend) o) (funext ih)
    | raiseInFlight => exact ih _
    | lowerInFlight => exact ih _

/-- But for the count, a tick polls each type as a call of `WorkerRunner.processType` does. -/
theorem uncounted_processType (env : Env) (registry : JobType → JobRegistration) (type : JobType) :
    uncounted (processType env registry type) = WorkerRunner.processType env registry type := by
  have hclaim : ∀ result : ClaimResult,
      uncounted (match result with
        | .empty => return ()
        | .busy => return ()
        | .malformed _ => return ()
        | .claimed jobId envelope =>
          Prog.call (S := runnerInterface) .raiseInFlight fun _ => do
            let outcome ← (onBackend ((WorkerRunner.runJob (registry type) type jobId
              envelope).tryCatch (WorkerRunner.handleFailure env type jobId envelope))).attempt
            Prog.call (S := runnerInterface) .lowerInFlight fun _ => Prog.ofExcept outcome) =
      (match result with
        | .empty => return ()
        | .busy => return ()
        | .malformed _ => return ()
        | .claimed jobId envelope =>
          (WorkerRunner.runJob (registry type) type jobId envelope).tryCatch
            (WorkerRunner.handleFailure env type jobId envelope) : Act Unit) := by
    -- Only a claimed job is counted.
    rintro (_ | _ | _ | ⟨jobId, envelope⟩)
    case claimed =>
      have hlower : ∀ outcome : Except Err Unit,
          uncounted (Prog.call (S := runnerInterface) .lowerInFlight fun _ =>
            Prog.ofExcept outcome) = Prog.ofExcept outcome := by
        rintro (e | a) <;> rfl
      dsimp only [uncounted, Prog.bind_eq]
      rw [uncounted_bind, uncounted_attempt, uncounted_onBackend]
      simp only [hlower]
      exact Prog.attempt_bind_ofExcept _
    all_goals rfl
  unfold processType WorkerRunner.processType
  dsimp only [Prog.bind_eq]
  rw [uncounted_bind, uncounted_onBackend]
  exact congrArg _ (funext hclaim)

end PollLoop

/-- The fields of a `WorkerRunner`, and the world. -/
structure RunnerState where
  world : World
  running : Bool := false
  inFlight : ℕ := 0

/-- The answer and the effect of an operation. -/
def RunnerOp.exec (lib : Lib) :
    (o : RunnerOp) → Choice → RunnerState → Except Err o.Res × RunnerState
  | backend o, c, s =>
    let r := o.exec lib c s.world
    (r.1, { s with world := r.2 })
  | raiseInFlight, _, s => (.ok (), { s with inFlight := s.inFlight + 1 })
  | lowerInFlight, _, s => (.ok (), { s with inFlight := s.inFlight - 1 })

/-- The error with which an operation may fail. -/
def RunnerOp.fault : RunnerOp → Option Err
  | backend o => o.fault
  | _ => none

/-- The machine on which a tick runs. -/
def runnerMachine (lib : Lib) : Machine runnerInterface Err RunnerState where
  Choice := Choice
  exec := RunnerOp.exec lib
  fails o e := o.fault = some e
  loses o e := o.fault = some e

/-- A step of a tick. -/
abbrev RunnerEntry : Type := Entry runnerInterface Err RunnerState

/-! ## What a tick does -/

/-- Some time after the last operation that begins it, and before one that ends it. -/
def within (begins ends : RunnerOp → Bool) : List RunnerEntry → Bool
  | [] => false
  | e :: own => if begins e.op then true else if ends e.op then false else within begins ends own

/-- An operation starts a job's handler. -/
def startsHandler : RunnerOp → Bool
  | .backend (.process _ _) => true
  | _ => false

/-- An operation is the end of a job's handler. -/
def endsHandler : RunnerOp → Bool
  | .backend (.processed _ _ _ _) => true
  | _ => false

/-- An operation raises the count of jobs in flight. -/
def raises : RunnerOp → Bool
  | .raiseInFlight => true
  | _ => false

/-- An operation lowers it. -/
def lowers : RunnerOp → Bool
  | .lowerInFlight => true
  | _ => false

/-- A handler runs. -/
abbrev handling (own : List RunnerEntry) : Bool := within startsHandler endsHandler own

/-- The tick has a job in flight. -/
abbrev counting (own : List RunnerEntry) : Bool := within raises lowers own

/-- A tick counts each job exactly as long as it is in flight, and starts a handler only for a job
that it counts. -/
structure CountsJobs (own : List RunnerEntry) (o : RunnerOp) : Prop where
  raises : raises o = true → counting own = false
  lowers : lowers o = true → counting own = true ∧ handling own = false
  starts : startsHandler o = true → counting own = true

/-- The operation is one of the backend's, and neither the start nor the end of a handler. -/
def Op.Plain : Op → Prop
  | .process _ _ => False
  | .processed _ _ _ _ => False
  | _ => True

section Plain

variable {own : List RunnerEntry} {e : RunnerEntry} {o : Op}

/-- A plain operation is neither the start nor the end of a handler. -/
theorem Op.Plain.marks (ho : o.Plain) :
    startsHandler (.backend o) = false ∧ endsHandler (.backend o) = false := by
  cases o with
  | process type j => exact ho.elim
  | processed type j n r => exact ho.elim
  | _ => exact ⟨rfl, rfl⟩

/-- After a plain operation the same handler runs. -/
theorem handling_cons_of_plain (ho : o.Plain) (he : e.op = .backend o) :
    handling (e :: own) = handling own := by
  simp [handling, within, he, ho.marks]

/-- After an operation of the backend the same jobs are counted. -/
theorem counting_cons_of_backend (he : e.op = .backend o) :
    counting (e :: own) = counting own := by
  simp [counting, within, he, raises, lowers]

end Plain

/-- A tick between two jobs, or a job in flight whose handler does not run. -/
structure Between (inFlight : Bool) (own : List RunnerEntry) : Prop where
  counting : counting own = inFlight
  handling : handling own = false

section Tick

universe u

/-- The discipline that code of the backend has to keep within a tick. -/
def Interleave.Discipline.backend {X : Type u} (D : Discipline runnerInterface Err X) :
    Discipline SplitBill.backend Err X where
  rely := D.rely
  answer o := D.answer (.backend o)
  guar := D.guar

/-- A computation of the backend inside a tick is judged by the backend's discipline. -/
theorem wp_onBackend {X : Type u} {α : Type} {D : Discipline runnerInterface Err X}
    {Q : Except Err α → X → Prop} {p : Act α} {x : X} :
    wp D Q (onBackend p) x ↔ wp D.backend Q p x := by
  induction p generalizing x with
  | ret a => rfl
  | throw e => rfl
  | call o k ih =>
    constructor
    · intro h y hy r z hz
      exact ⟨(h y hy r z hz).1, ih r |>.mp (h y hy r z hz).2⟩
    · intro h y hy r z hz
      exact ⟨(h y hy r z hz).1, ih r |>.mpr (h y hy r z hz).2⟩

variable {lib : Lib} {i : ℕ} {own : List RunnerEntry} {env : Env} {type : JobType} {jobId : Id}
  {envelope : JobEnvelope}

/-- What code of a tick has to keep. -/
abbrev countsJobs (lib : Lib) (i : ℕ) : Discipline runnerInterface Err (List RunnerEntry) :=
  (runnerMachine lib).ownLog i CountsJobs

/-- An operation of the backend within a tick. -/
theorem wp_backend_perform {o : Op} {Q : Except Err o.Res → List RunnerEntry → Prop}
    (ho : CountsJobs own (.backend o))
    (hQ : ∀ w did r w', (runnerMachine lib).Answer (.backend o) w did r w' →
      Q r (⟨i, .backend o, w, did, r, w'⟩ :: own)) :
    wp (countsJobs lib i).backend Q (Op.perform o) own := by
  refine wp_perform.mpr ?_
  rintro _ rfl r _ ⟨w, did, w', hans, rfl⟩
  refine ⟨fun e he => ?_, hQ w did r w' hans⟩
  rw [← (List.cons.inj he).1]
  exact ho

/-- A plain operation may be issued at any time. -/
theorem countsJobs_of_plain {o : Op} (ho : o.Plain) : CountsJobs own (.backend o) := by
  constructor
  case raises =>
    intro h
    cases h
  case lowers =>
    intro h
    cases h
  case starts =>
    intro h
    rw [ho.marks.1] at h
    cases h

/-- Code of the backend that starts no handler leaves the tick where it is. -/
theorem plain_wp {α : Type} {p : Act α} (hp : p.Issues Op.Plain) {b : Bool} (hown : Between b own) :
    wp (countsJobs lib i).backend (fun _ own => Between b own) p own := by
  refine wp_of_issues (I := Between b) hp ?_ ?_ (fun _ _ h => h) hown
  · rintro own _ h rfl
    exact h
  · rintro o own r _ ho h ⟨w, did, w', hans, rfl⟩
    refine ⟨fun e he => ?_, ?_, ?_⟩
    · obtain ⟨rfl, -⟩ := List.cons.inj he
      exact countsJobs_of_plain ho
    · rw [counting_cons_of_backend rfl]
      exact h.counting
    · rw [handling_cons_of_plain ho rfl]
      exact h.handling

/-- An operation off the queues is plain. -/
theorem plain_of_offQueue {o : Op} (ho : o.OffQueue) : o.Plain := by
  cases o with
  | process type j => exact ho.elim
  | processed type j n r => exact ho.elim
  | _ => trivial

/-- The bookkeeping is plain. -/
theorem plain_of_bookkeeping {o : Op} (ho : o.Bookkeeping) : o.Plain := by
  cases o with
  | process type j => exact ho.elim
  | processed type j n r => exact ho.elim
  | _ => trivial

/-- Looking for a job starts no handler. -/
theorem claimNext_plain : (JobQueue.claimNext env type).Issues Op.Plain := by
  have hplain : ∀ o : Op, o.Plain → (Op.perform o).Issues Op.Plain := by
    intro o ho
    exact (@Prog.issues_perform backend Err Op.Plain o).mpr ho
  refine .bind (.bind (hplain _ trivial) fun _ => hplain _ trivial) fun due => ?_
  exact (claimDue_bookkeeping due).mono fun _ => plain_of_bookkeeping

/-- A job is run as one job in flight, and its handler has ended when it is done. -/
theorem runJob_counts {registration : JobRegistration}
    (hoff : ∀ envelope, (registration.process envelope).Issues Op.OffQueue)
    (hown : Between true own) :
    wp (countsJobs lib i).backend (fun _ own => Between true own)
      (WorkerRunner.runJob registration type jobId envelope) own := by
  unfold WorkerRunner.runJob
  cases registration.schema envelope.payload with
  | none =>
    exact plain_wp (.mono (fun _ => plain_of_bookkeeping)
      (.bind (remove_bookkeeping .discard) fun _ => increment_bookkeeping _)) hown
  | some payload =>
    refine wp_bind.mpr (wp_backend_perform ?_ fun w did r w' hans => ?_)
    · constructor
      · intro h
        cases h
      · intro h
        cases h
      · exact fun _ => hown.counting
    cases r with
    | error e =>
      -- The start of a handler is no access that could fail.
      cases hans with
      | failed e h => cases h
      | lost e c h => cases h
    | ok a =>
      -- While the handler runs its operations only have to be plain.
      refine wp_bind.mpr (wp_attempt.mpr (wp_of_issues
        (I := fun own => counting own = true) (hoff _) ?_ ?_ ?_ ?_))
      · rintro own _ h rfl
        exact h
      · rintro o own r _ ho h ⟨w, did, w', hans, rfl⟩
        refine ⟨fun e he => ?_, ?_⟩
        · obtain ⟨rfl, -⟩ := List.cons.inj he
          exact countsJobs_of_plain (plain_of_offQueue ho)
        · rw [counting_cons_of_backend rfl]
          exact h
      · intro outcome own hcounting
        refine wp_bind.mpr (wp_backend_perform ?_ fun w did r w' hans => ?_)
        · constructor
          · intro h
            cases h
          · intro h
            cases h
          · intro h
            cases h
        have hbetween : Between true (⟨i, .backend (.processed type jobId envelope.attempts outcome),
            w, did, r, w'⟩ :: own) := by
          constructor
          · rw [counting_cons_of_backend rfl]
            exact hcounting
          · rfl
        cases r with
        | error e => exact hbetween
        | ok a =>
          refine wp_ofExcept_bind.mpr ⟨fun _ _ => ?_, fun _ _ => hbetween⟩
          exact plain_wp (.mono (fun _ => plain_of_bookkeeping)
            (.bind (remove_bookkeeping .complete) fun _ => increment_bookkeeping _)) hbetween
      · rw [counting_cons_of_backend rfl]
        exact hown.counting

/-- A poll of one job type begins and ends between two jobs. -/
theorem processType_counts {registry : JobType → JobRegistration}
    (hoff : ∀ type envelope, ((registry type).process envelope).Issues Op.OffQueue)
    (hown : Between false own) :
    wp (countsJobs lib i) (fun _ own => Between false own) (PollLoop.processType env registry type)
      own := by
  refine wp_bind.mpr (wp_onBackend.mpr (wp_mono ?_ (plain_wp claimNext_plain hown)))
  rintro (e | ⟨_ | _ | _ | ⟨jobId, envelope⟩⟩) own hown
  case ok.claimed =>
    rintro own rfl r _ ⟨w, did, w', hans, rfl⟩
    have hraised : Between true (⟨i, .raiseInFlight, w, did, r, w'⟩ :: own) := by
      constructor
      · rfl
      · exact hown.handling
    refine ⟨fun e he => ?_, ?_⟩
    · obtain ⟨rfl, -⟩ := List.cons.inj he
      constructor
      · exact fun _ => hown.counting
      · intro h
        cases h
      · intro h
        cases h
    refine wp_bind.mpr (wp_attempt.mpr (wp_onBackend.mpr (wp_tryCatch.mpr (wp_mono ?_
      (runJob_counts (hoff type) hraised)))))
    -- However the handler and the bookkeeping end, the count goes down.
    have hlower : ∀ (outcome : Except Err Unit) (own : List RunnerEntry), Between true own →
        wp (countsJobs lib i) (fun _ own => Between false own)
          (Prog.call (S := runnerInterface) .lowerInFlight fun _ => Prog.ofExcept outcome) own := by
      rintro outcome _ hown own rfl r _ ⟨w, did, w', hans, rfl⟩
      have hlowered : Between false (⟨i, .lowerInFlight, w, did, r, w'⟩ :: own) := by
        constructor
        · rfl
        · exact hown.handling
      refine ⟨fun e he => ?_, ?_⟩
      · obtain ⟨rfl, -⟩ := List.cons.inj he
        constructor
        · intro h
          cases h
        · exact fun _ => ⟨hown.counting, hown.handling⟩
        · intro h
          cases h
      · cases outcome with
        | error e => exact hlowered
        | ok a => exact hlowered
    rintro (error | a) own hown
    · exact wp_mono (fun outcome own hown => hlower outcome own hown)
        (plain_wp ((handleFailure_bookkeeping error).mono fun _ => plain_of_bookkeeping) hown)
    · exact hlower _ own hown
  all_goals exact hown

/-- So does a whole tick. -/
theorem tick_counts {registry : JobType → JobRegistration}
    (hoff : ∀ type envelope, ((registry type).process envelope).Issues Op.OffQueue)
    (types : List JobType) (hown : Between false own) :
    wp (countsJobs lib i) (fun _ own => Between false own)
      (PollLoop.tick env registry types) own := by
  induction types generalizing own with
  | nil => exact hown
  | cons type types ih =>
    refine wp_bind.mpr (wp_tryCatch.mpr (wp_mono ?_ (processType_counts hoff hown)))
    rintro (error | a) own hown
    · exact ih hown
    · exact ih hown

end Tick

/-! ## The runner -/

/-- Where a loop is. -/
inductive LoopStatus
  /-- In a tick, with what the tick has done, the latest operation first, and what is left of it. -/
  | ticking (own : List RunnerEntry) (rest : Tick Unit)
  /-- In the `sleep` between two ticks. -/
  | asleep
  /-- Its `start` has returned. -/
  | ended

/-- A loop. -/
structure Loop where
  status : LoopStatus
  /-- A `stop` has resolved since the present tick began, and no `start` has been called since. -/
  overtaken : Bool := false
  /-- A `stop` has been called since the loop was started. -/
  told : Bool := false
  /-- It has begun a tick all the same. -/
  defiant : Bool := false

/-- A call of `stop`. -/
structure StopCall where
  /-- Its promise has resolved. -/
  resolved : Bool := false
  /-- A `start` has been called since. -/
  restarted : Bool := false
  deriving DecidableEq

/-- A runner, with its calls. -/
structure RunnerConfig where
  state : RunnerState
  loops : List Loop := []
  stops : List StopCall := []

namespace Loop

/-- The loop is in a tick. -/
def ticks (l : Loop) : Bool :=
  match l.status with
  | .ticking _ _ => true
  | _ => false

/-- The loop has not returned. -/
def active (l : Loop) : Bool :=
  match l.status with
  | .ended => false
  | _ => true

/-- The note of a tick that a `stop` has not waited for. -/
def overtake (l : Loop) : Loop := { l with overtaken := l.overtaken || l.ticks }

end Loop

namespace RunnerConfig

/-- `start`, up to the first operation of its first tick. -/
def start (tick : Tick Unit) (cfg : RunnerConfig) : RunnerConfig :=
  if cfg.state.running then cfg
  else
    { state := { cfg.state with running := true }
      loops := (cfg.loops.map fun l => { l with overtaken := false }) ++
        [{ status := .ticking [] tick }]
      stops := cfg.stops.map fun s => { s with restarted := true } }

/-- The check of `stop` in which the `k`th call returns when it finds no job in flight. -/
def check (cfg : RunnerConfig) (k : ℕ) : RunnerConfig :=
  match cfg.stops[k]? with
  | none => cfg
  | some s =>
    if cfg.state.inFlight = 0 ∧ s.resolved = false then
      { cfg with
        loops := cfg.loops.map Loop.overtake
        stops := cfg.stops.set k { s with resolved := true } }
    else cfg

/-- `stop`, up to its first check. -/
def requestStop (cfg : RunnerConfig) : RunnerConfig where
  state := { cfg.state with running := false }
  loops := cfg.loops.map fun l => { l with told := true }
  stops := cfg.stops ++ [{}]

/-- `stop`, with its first check. -/
def stop (cfg : RunnerConfig) : RunnerConfig := cfg.requestStop.check cfg.stops.length

/-- The loop at `i` is `l` from now on. -/
def setLoop (cfg : RunnerConfig) (i : ℕ) (l : Loop) : RunnerConfig :=
  { cfg with loops := cfg.loops.set i l }

/-- The check of the loop `l` at `i` after its sleep. -/
def wake (tick : Tick Unit) (cfg : RunnerConfig) (i : ℕ) (l : Loop) : RunnerConfig :=
  if cfg.state.running then
    cfg.setLoop i { l with status := .ticking [] tick, defiant := l.defiant || l.told }
  else cfg.setLoop i { l with status := .ended }

/-- The end of a tick of the loop `l` at `i`. -/
def rest (cfg : RunnerConfig) (i : ℕ) (l : Loop) : RunnerConfig :=
  cfg.setLoop i { l with status := .asleep, overtaken := false }

/-- The end of the loop `l` at `i` by an error. -/
def fail (cfg : RunnerConfig) (i : ℕ) (l : Loop) : RunnerConfig :=
  { cfg.setLoop i { l with status := .ended } with state := { cfg.state with running := false } }

/-- One operation of the loop `l` at `i`, which leaves `p` of its tick. -/
def answered (cfg : RunnerConfig) (i : ℕ) (l : Loop) (own : List RunnerEntry) (o : RunnerOp)
    (did seen : Except Err o.Res) (s : RunnerState) (p : Tick Unit) : RunnerConfig :=
  { cfg.setLoop i { l with status := .ticking (⟨i, o, cfg.state, did, seen, s⟩ :: own) p } with
    state := s }

end RunnerConfig

/-- A runner, with the starts and the operations that the runs under consideration may perform. -/
structure RunnerSystem where
  lib : Lib
  env : Env
  registry : WorkerRegistry
  /-- The keys of the registry. -/
  types : List JobType
  mayStart : RunnerConfig → Prop := fun _ => True
  mayPerform : Loop → RunnerOp → Prop := fun _ _ => True

namespace RunnerSystem

variable (sys : RunnerSystem)

/-- One tick of the runner. -/
def tick : Tick Unit := PollLoop.tick sys.env sys.registry.registration sys.types

/-- One step of a runner. -/
inductive Step : RunnerConfig → RunnerConfig → Prop
  | start (cfg : RunnerConfig) (h : sys.mayStart cfg) : Step cfg (cfg.start sys.tick)
  | stop (cfg : RunnerConfig) : Step cfg cfg.stop
  | check (cfg : RunnerConfig) (k : ℕ) : Step cfg (cfg.check k)
  | wake (cfg : RunnerConfig) (i : ℕ) (l : Loop) (hl : cfg.loops[i]? = some l)
      (hs : l.status = .asleep) : Step cfg (cfg.wake sys.tick i l)
  | rest (cfg : RunnerConfig) (i : ℕ) (l : Loop) (hl : cfg.loops[i]? = some l)
      (own : List RunnerEntry) (hs : l.status = .ticking own (.ret ())) : Step cfg (cfg.rest i l)
  | fail (cfg : RunnerConfig) (i : ℕ) (l : Loop) (hl : cfg.loops[i]? = some l)
      (own : List RunnerEntry) (e : Err) (hs : l.status = .ticking own (.throw e)) :
      Step cfg (cfg.fail i l)
  | op (cfg : RunnerConfig) (i : ℕ) (l : Loop) (hl : cfg.loops[i]? = some l)
      (own : List RunnerEntry) (o : RunnerOp) (k : Except Err o.Res → Tick Unit)
      (hs : l.status = .ticking own (.call o k)) (h : sys.mayPerform l o)
      (did seen : Except Err o.Res) (s : RunnerState)
      (hans : (runnerMachine sys.lib).Answer o cfg.state did seen s) :
      Step cfg (cfg.answered i l own o did seen s (k seen))
  /-- Others change the world: producers, other workers, time. -/
  | env (cfg : RunnerConfig) (w : World) :
      Step cfg { cfg with state := { cfg.state with world := w } }

/-- The states that runs of a new runner reach. -/
inductive Reachable : RunnerConfig → Prop
  | init (w : World) : Reachable { state := { world := w } }
  | step {cfg cfg' : RunnerConfig} (h : Reachable cfg) (hs : sys.Step cfg cfg') : Reachable cfg'

variable {sys} in
/-- The rule for an invariant of a runner. -/
theorem Reachable.invariant {I : RunnerConfig → Prop}
    (hinit : ∀ w, I { state := { world := w } })
    (hstep : ∀ cfg cfg', I cfg → sys.Step cfg cfg' → I cfg') {cfg : RunnerConfig}
    (h : sys.Reachable cfg) : I cfg := by
  induction h with
  | init w => exact hinit w
  | step _ hs ih => exact hstep _ _ ih hs

/-! ## Schedules -/

/-- One instruction of a schedule. -/
inductive Action
  | start
  | stop
  | check (k : ℕ)
  | wake (i : ℕ)
  | rest (i : ℕ)
  | op (i : ℕ) (c : Choice)

variable [DecidablePred sys.mayStart] [∀ l o, Decidable (sys.mayPerform l o)]

/-- Carries out one instruction, if it can be. -/
def act (cfg : RunnerConfig) : Action → Option RunnerConfig
  | .start => if sys.mayStart cfg then some (cfg.start sys.tick) else none
  | .stop => some cfg.stop
  | .check k => some (cfg.check k)
  | .wake i =>
    match cfg.loops[i]? with
    | some l =>
      match l.status with
      | .asleep => some (cfg.wake sys.tick i l)
      | _ => none
    | none => none
  | .rest i =>
    match cfg.loops[i]? with
    | some l =>
      match l.status with
      | .ticking _ (.ret ()) => some (cfg.rest i l)
      | _ => none
    | none => none
  | .op i c =>
    match cfg.loops[i]? with
    | some l =>
      match l.status with
      | .ticking own (.call o k) =>
        if sys.mayPerform l o then
          let r := (runnerMachine sys.lib).exec o c cfg.state
          some (cfg.answered i l own o r.1 r.1 r.2 (k r.1))
        else none
      | _ => none
    | none => none

/-- Carries out a schedule. -/
def play : List Action → RunnerConfig → Option RunnerConfig
  | [], cfg => some cfg
  | a :: as, cfg => (sys.act cfg a).bind (play as)

variable {sys}

/-- An instruction that can be carried out is a step. -/
theorem step_of_act {cfg cfg' : RunnerConfig} {a : Action} (h : sys.act cfg a = some cfg') :
    sys.Step cfg cfg' := by
  cases a with
  -- Action by action, as the machine performs it.
  | start =>
    simp only [act, Option.ite_none_right_eq_some, Option.some.injEq] at h
    obtain ⟨hstart, rfl⟩ := h
    exact .start cfg hstart
  | stop =>
    obtain rfl := Option.some.inj h
    exact .stop cfg
  | check k =>
    obtain rfl := Option.some.inj h
    exact .check cfg k
  | wake i =>
    simp only [act] at h
    split at h
    · next l hl =>
      split at h
      · next hs =>
        obtain rfl := Option.some.inj h
        exact .wake cfg i l hl hs
      · cases h
    · cases h
  | rest i =>
    simp only [act] at h
    split at h
    · next l hl =>
      split at h
      · next own hs =>
        obtain rfl := Option.some.inj h
        exact .rest cfg i l hl own hs
      · cases h
    · cases h
  | op i c =>
    simp only [act] at h
    split at h
    · next l hl =>
      split at h
      · next own o k hs =>
        simp only [Option.ite_none_right_eq_some, Option.some.injEq] at h
        obtain ⟨hmay, rfl⟩ := h
        exact .op cfg i l hl own o k hs hmay _ _ _
          (@Machine.Answer.done _ _ _ (runnerMachine sys.lib) o cfg.state c)
      · cases h
    · cases h

/-- A schedule that can be carried out from a reachable state ends in a reachable one. -/
theorem reachable_of_play {as : List Action} {cfg cfg' : RunnerConfig} (hr : sys.Reachable cfg)
    (h : sys.play as cfg = some cfg') : sys.Reachable cfg' := by
  induction as generalizing cfg with
  | nil => exact Option.some.inj h ▸ hr
  | cons a as ih =>
    obtain ⟨cfg₁, h₁, h₂⟩ := Option.bind_eq_some_iff.mp h
    exact ih (hr.step (step_of_act h₁)) h₂

end RunnerSystem

end SplitBill
