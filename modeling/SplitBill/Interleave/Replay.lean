import Mathlib.Order.Basic
import SplitBill.Interleave.Machine

/-!
# Running the entries of a call again

What is left of a call is what the answers in its own entries leave of its program (`Replay`). If
the same operations can be answered in the same way one after another in some world (`Runs`), the
program run alone from that world takes the same course (`Replay.exec`). This is how a run in
company is shown to have the outcome of one call after the other.

`Linked` says how the entries of a log follow from each other: each was performed in the world that
the one before left, up to what the surroundings did in between.
-/

universe u

namespace SplitBill.Interleave

variable {S : Interface.{u}} {ε α β W : Type}

/-! ## What entries leave of a program -/

/-- The answers in the entries, the first one first, leave `q` of the program `p`. -/
inductive Replay : Prog S ε α → List (Entry S ε W) → Prog S ε α → Prop
  | nil (p : Prog S ε α) : Replay p [] p
  | cons {o : S.Op} {k : Except ε (S.Res o) → Prog S ε α} {pid : ℕ} {pre post : W}
      {did seen : Except ε (S.Res o)} {l : List (Entry S ε W)} {q : Prog S ε α}
      (h : Replay (k seen) l q) : Replay (.call o k) (⟨pid, o, pre, did, seen, post⟩ :: l) q

namespace Replay

variable {p q : Prog S ε α} {l : List (Entry S ε W)}

/-- One more entry. -/
theorem concat {o : S.Op} {k : Except ε (S.Res o) → Prog S ε α} (h : Replay p l (.call o k))
    {pid : ℕ} {pre post : W} {did seen : Except ε (S.Res o)} :
    Replay p (l ++ [⟨pid, o, pre, did, seen, post⟩]) (k seen) := by
  generalize hq : Prog.call o k = q at h
  induction h with
  | nil p =>
    subst hq
    exact .cons (.nil _)
  | cons h ih => exact .cons (ih hq)

/-- A program that has returned has no entries left. -/
theorem ret {a : α} (h : Replay (.ret a) l q) : l = [] ∧ q = .ret a := by
  cases h
  exact ⟨rfl, rfl⟩

/-- The first operation of a program that has returned was answered. -/
theorem perform_bind {o : S.Op} {g : S.Res o → Prog S ε α} {a : α}
    (h : Replay ((Prog.perform o).bind g) l (.ret a)) :
    ∃ pid pre did v post l', l = ⟨pid, o, pre, did, .ok v, post⟩ :: l' ∧
      Replay (g v) l' (.ret a) := by
  cases h with
  | @cons _ _ pid pre post did seen l' _ h =>
    cases seen with
    | error e => cases h
    | ok v => exact ⟨pid, pre, did, v, post, l', rfl, h⟩

/-- A check held. -/
theorem ensure_bind {P : Prop} [Decidable P] {e : ε} {g : Unit → Prog S ε α} {a : α}
    (h : Replay ((Prog.ensure P e).bind g) l (.ret a)) : P ∧ Replay (g ()) l (.ret a) := by
  unfold Prog.ensure at h
  by_cases hP : P
  · rw [if_pos hP] at h
    exact ⟨hP, h⟩
  · rw [if_neg hP] at h
    cases h

/-- A value was there. -/
theorem expect_bind {v : Option β} {e : ε} {g : β → Prog S ε α} {a : α}
    (h : Replay ((Prog.expect v e).bind g) l (.ret a)) :
    ∃ b, v = some b ∧ Replay (g b) l (.ret a) := by
  cases v with
  | none => cases h
  | some b => exact ⟨b, rfl, h⟩

/-- A computed outcome was a result. -/
theorem ofExcept_bind {v : Except ε β} {g : β → Prog S ε α} {a : α}
    (h : Replay ((Prog.ofExcept v).bind g) l (.ret a)) :
    ∃ b, v = .ok b ∧ Replay (g b) l (.ret a) := by
  cases v with
  | error e => cases h
  | ok b => exact ⟨b, rfl, h⟩

/-- A program that has returned is a whole run. -/
theorem ret_iff {a : α} {r : Except ε α} :
    Replay (.ret a) l (.ofExcept r) ↔ l = [] ∧ r = .ok a := by
  constructor
  · intro h
    generalize hq : (Prog.ofExcept r : Prog S ε α) = q at h
    cases h
    cases r with
    | ok b => exact ⟨rfl, congrArg _ (Prog.ret.inj hq)⟩
    | error e => cases hq
  · rintro ⟨rfl, rfl⟩
    exact .nil _

/-- A program that has thrown is a whole run. -/
theorem throw_iff {e : ε} {r : Except ε α} :
    Replay (.throw e) l (.ofExcept r) ↔ l = [] ∧ r = .error e := by
  constructor
  · intro h
    generalize hq : (Prog.ofExcept r : Prog S ε α) = q at h
    cases h
    cases r with
    | ok b => cases hq
    | error e' => exact ⟨rfl, congrArg _ (Prog.throw.inj hq)⟩
  · rintro ⟨rfl, rfl⟩
    exact .nil _

/-- A program that has ended is a whole run. -/
theorem ofExcept_iff {r r' : Except ε α} :
    Replay (.ofExcept r) l (.ofExcept r') ↔ l = [] ∧ r' = r := by
  cases r with
  | ok a => exact ret_iff
  | error e => exact throw_iff

/-- A whole run of a call is the entry of its first operation and a whole run of what is left. -/
theorem call_iff {o : S.Op} {k : Except ε (S.Res o) → Prog S ε α} {r : Except ε α} :
    Replay (.call o k) l (.ofExcept r) ↔ ∃ pid pre did seen post l',
      l = ⟨pid, o, pre, did, seen, post⟩ :: l' ∧ Replay (k seen) l' (.ofExcept r) := by
  constructor
  · intro h
    generalize hq : (Prog.ofExcept r : Prog S ε α) = q at h
    cases h with
    | nil => cases r <;> cases hq
    | @cons _ _ pid pre post did seen l' _ h =>
      subst hq
      exact ⟨pid, pre, did, seen, post, l', rfl, h⟩
  · rintro ⟨pid, pre, did, seen, post, l', rfl, h⟩
    exact .cons h

/-- A whole run of a sequence is a whole run of its first part that throws, or one that returns and
then a whole run of the rest. -/
theorem bind_iff {g : α → Prog S ε β} {r : Except ε β} :
    Replay (p.bind g) l (.ofExcept r) ↔
      (∃ e, r = .error e ∧ Replay p l (.ofExcept (.error e))) ∨
        ∃ a l₁ l₂, l = l₁ ++ l₂ ∧ Replay p l₁ (.ofExcept (.ok a)) ∧
          Replay (g a) l₂ (.ofExcept r) := by
  constructor
  · intro h
    -- By induction on the first program: the split of the log is found where it returns.
    induction p generalizing l with
    | ret a => exact .inr ⟨a, [], l, rfl, .nil _, h⟩
    | throw e =>
      obtain ⟨rfl, rfl⟩ := throw_iff.mp h
      exact .inl ⟨e, rfl, .nil _⟩
    | call o k ih =>
      obtain ⟨pid, pre, did, seen, post, l', rfl, hk⟩ := call_iff.mp h
      rcases ih seen hk with ⟨e, rfl, hp⟩ | ⟨a, l₁, l₂, rfl, h₁, h₂⟩
      · exact .inl ⟨e, rfl, .cons hp⟩
      · exact .inr ⟨a, _ :: l₁, l₂, rfl, .cons h₁, h₂⟩
  · intro h
    -- By induction on the first program: its part of the log comes first.
    induction p generalizing l with
    | ret a =>
      rcases h with ⟨e, rfl, h⟩ | ⟨b, l₁, l₂, rfl, h₁, h₂⟩
      · cases h
      · cases h₁
        exact h₂
    | throw e =>
      rcases h with ⟨e', rfl, h⟩ | ⟨b, l₁, l₂, rfl, h₁, h₂⟩
      · cases h
        exact .nil _
      · cases h₁
    | call o k ih =>
      rcases h with ⟨e, rfl, h⟩ | ⟨b, l₁, l₂, rfl, h₁, h₂⟩
      · obtain ⟨pid, pre, did, seen, post, l', rfl, hk⟩ := call_iff.mp h
        exact .cons (ih seen (.inl ⟨e, rfl, hk⟩))
      · obtain ⟨pid, pre, did, seen, post, l', rfl, hk⟩ := call_iff.mp h₁
        exact .cons (ih seen (.inr ⟨b, l', l₂, rfl, hk, h₂⟩))

/-- Waiting for an outcome throws nothing, and ends as the program does. -/
theorem attempt_iff {r : Except ε (Except ε α)} :
    Replay p.attempt l (.ofExcept r) ↔ ∃ r', r = .ok r' ∧ Replay p l (.ofExcept r') := by
  constructor
  · intro h
    induction p generalizing l with
    | ret a =>
      obtain ⟨rfl, rfl⟩ := ret_iff.mp h
      exact ⟨_, rfl, .nil _⟩
    | throw e =>
      obtain ⟨rfl, rfl⟩ := ret_iff.mp h
      exact ⟨_, rfl, .nil _⟩
    | call o k ih =>
      obtain ⟨pid, pre, did, seen, post, l', rfl, hk⟩ := call_iff.mp h
      obtain ⟨r', rfl, hp⟩ := ih seen hk
      exact ⟨r', rfl, .cons hp⟩
  · rintro ⟨r', rfl, h⟩
    induction p generalizing l with
    | ret a =>
      obtain ⟨rfl, rfl⟩ := ret_iff.mp h
      exact .nil _
    | throw e =>
      obtain ⟨rfl, rfl⟩ := throw_iff.mp h
      exact .nil _
    | call o k ih =>
      obtain ⟨pid, pre, did, seen, post, l', rfl, hk⟩ := call_iff.mp h
      exact .cons (ih seen hk)

/-- A whole run of one operation is its entry, with the answer as the outcome. -/
theorem perform_iff {o : S.Op} {r : Except ε (S.Res o)} {l : List (Entry S ε W)} :
    Replay (.perform o) l (.ofExcept r) ↔
      ∃ pid pre did post, l = [⟨pid, o, pre, did, r, post⟩] := by
  unfold Prog.perform
  rw [call_iff]
  constructor
  · rintro ⟨pid, pre, did, seen, post, l', rfl, h⟩
    obtain ⟨rfl, rfl⟩ := ofExcept_iff.mp h
    exact ⟨pid, pre, did, post, rfl⟩
  · rintro ⟨pid, pre, did, post, rfl⟩
    exact ⟨pid, pre, did, r, post, [], rfl, .nil _⟩

/-- A program whose operation in `A` failed has thrown the error. -/
theorem of_endsAt {A : S.Op → Prop} (h : Replay p l q) (hp : p.EndsAt A) {e : Entry S ε W}
    (he : e ∈ l) (hA : A e.op) {err : ε} (herr : e.seen = .error err) : q = .throw err := by
  induction h with
  | nil p => cases he
  | @cons o k pid pre post did seen l q h ih =>
    rcases List.mem_cons.mp he with rfl | he
    · have hseen : seen = .error err := herr
      rw [hseen, hp.1 hA err] at h
      cases h
      rfl
    · exact ih (hp.2 seen) he

/-- The operations of the entries are operations of the program. -/
theorem issues {A : S.Op → Prop} (h : Replay p l q) (hp : p.Issues A) : ∀ e ∈ l, A e.op := by
  induction h with
  | nil p => exact fun e he => (List.not_mem_nil he).elim
  | cons h ih => exact List.forall_mem_cons.mpr ⟨hp.1, ih (hp.2 _)⟩

end Replay

/-- The operations of the entries, the first one first, can be answered as they were from the world
`w` on, one after another, and end in the world `w'`. -/
inductive Runs (M : Machine S ε W) (env : W → W → Prop) : List (Entry S ε W) → W → W → Prop
  | nil (w : W) : Runs M env [] w w
  | cons {e : Entry S ε W} {l : List (Entry S ε W)} {w w₁ w₂ w' : W}
      {did : Except ε (S.Res e.op)} (henv : env w w₁) (hans : M.Answer e.op w₁ did e.seen w₂)
      (h : Runs M env l w₂ w') : Runs M env (e :: l) w w'

/-- A program whose entries can be answered from a world on runs from there as it did. -/
theorem Replay.exec {M : Machine S ε W} {env : W → W → Prop} {p q : Prog S ε α}
    {l : List (Entry S ε W)} (h : Replay p l q) {w w' w'' : W} (hl : Runs M env l w w')
    {r : Except ε α} (hq : Exec M env q w' r w'') : Exec M env p w r w'' := by
  induction h generalizing w with
  | nil p =>
    cases hl
    exact hq
  | cons h ih =>
    cases hl with
    | cons henv hans hl => exact .call henv hans (ih hl hq)

/-! ## How the entries of a log follow from each other -/

/-- The entries after the last one of the call `pid` that satisfies `P`. -/
def sinceLast (pid : ℕ) (P : Entry S ε W → Bool) (log : List (Entry S ε W)) :
    List (Entry S ε W) :=
  log.takeWhile fun e => ¬(e.pid = pid ∧ P e = true)

/-- Where the last entry of the call that satisfies `P` stands in the log. -/
theorem eq_sinceLast_append {pid : ℕ} {P : Entry S ε W → Bool} {log : List (Entry S ε W)}
    {r : Entry S ε W} (h : (log.filter (·.pid = pid)).find? P = some r) :
    ∃ l, log = sinceLast pid P log ++ r :: l := by
  induction log with
  | nil => cases h
  | cons e log ih =>
    unfold sinceLast
    by_cases he : e.pid = pid ∧ P e = true
    · rw [List.filter_cons_of_pos (by simpa using he.1), List.find?_cons_of_pos he.2] at h
      obtain rfl := Option.some.inj h
      exact ⟨log, by rw [List.takeWhile_cons_of_neg (by simpa using he), List.nil_append]⟩
    · have hrest : (log.filter (·.pid = pid)).find? P = some r := by
        by_cases hpid : e.pid = pid
        · rw [List.filter_cons_of_pos (by simpa using hpid),
            List.find?_cons_of_neg fun hP => he ⟨hpid, hP⟩] at h
          exact h
        · rwa [List.filter_cons_of_neg (by simpa using hpid)] at h
      obtain ⟨l, hl⟩ := ih hrest
      refine ⟨l, ?_⟩
      rw [List.takeWhile_cons_of_pos (by simpa [imp_iff_not_or] using he), List.cons_append]
      exact congrArg _ hl

namespace System

variable (sys : System S ε α W)

/-- From the initial world `w₀` the entries of the log, the latest one first, lead to the world
`w`. -/
def Linked (w₀ : W) : List (Entry S ε W) → W → Prop
  | [], w => Relation.ReflTransGen sys.env w₀ w
  | e :: l, w => Linked w₀ l e.pre ∧ sys.allow e.pid e.op ⟨e.pre, l⟩ ∧
      sys.machine.Answer e.op e.pre e.did e.seen e.post ∧ Relation.ReflTransGen sys.env e.post w

variable {sys}

/-- The surroundings may go on changing the world. -/
theorem Linked.env {w₀ w w' : W} {l : List (Entry S ε W)} (h : sys.Linked w₀ l w)
    (he : sys.env w w') : sys.Linked w₀ l w' := by
  cases l with
  | nil => exact Relation.ReflTransGen.tail h he
  | cons e l => exact ⟨h.1, h.2.1, h.2.2.1, h.2.2.2.tail he⟩

/-- What leads to an entry is linked, and the entry is an allowed answer. -/
theorem Linked.of_suffix {w₀ w : W} {l l' : List (Entry S ε W)} {e : Entry S ε W}
    (h : sys.Linked w₀ l w) (hl : e :: l' <:+ l) :
    sys.Linked w₀ l' e.pre ∧ sys.allow e.pid e.op ⟨e.pre, l'⟩ ∧
      sys.machine.Answer e.op e.pre e.did e.seen e.post := by
  induction l generalizing w with
  | nil => cases List.suffix_nil.mp hl
  | cons x l ih =>
    rcases List.suffix_cons_iff.mp hl with heq | hl
    · obtain ⟨rfl, rfl⟩ := List.cons.inj heq
      exact ⟨h.1, h.2.1, h.2.2.1⟩
    · exact ih h.1 hl

/-- What the surroundings keep they keep in any number of steps. -/
theorem keeps_star {env : W → W → Prop} {P : W → Prop} (henv : ∀ w w', P w → env w w' → P w')
    {w w' : W} (hw : P w) (h : Relation.ReflTransGen env w w') : P w' := by
  induction h with
  | refl => exact hw
  | tail _ he ih => exact henv _ _ ih he

/-- What held of the world after the entries `l` holds as long as the later entries keep it. -/
theorem Linked.persists {P : W → Prop} (henv : ∀ w w', P w → sys.env w w' → P w') {w₀ w : W}
    {later l : List (Entry S ε W)} (h : sys.Linked w₀ (later ++ l) w)
    (hP : ∀ w, sys.Linked w₀ l w → P w) (hlater : ∀ e ∈ later, P e.pre → P e.post) :
    P w ∧ ∀ e ∈ later, P e.pre := by
  induction later generalizing w with
  | nil => exact ⟨hP w h, fun e he => (List.not_mem_nil he).elim⟩
  | cons e later ih =>
    obtain ⟨hpre, hall⟩ := ih h.1 fun x hx => hlater x (List.mem_cons_of_mem _ hx)
    have hpost : P e.post := hlater e List.mem_cons_self hpre
    exact ⟨keeps_star henv hpost h.2.2.2, List.forall_mem_cons.mpr ⟨hpre, hall⟩⟩

/-- The entries of a log are answers. -/
theorem Linked.answer {w₀ w : W} {l : List (Entry S ε W)} (h : sys.Linked w₀ l w)
    {e : Entry S ε W} (he : e ∈ l) : sys.machine.Answer e.op e.pre e.did e.seen e.post := by
  obtain ⟨later, earlier, rfl⟩ := List.append_of_mem he
  exact (h.of_suffix (List.suffix_append later (e :: earlier))).2.2

/-- What an entry brought about holds as long as the later entries keep it. -/
theorem Linked.keeps {P : W → Prop} (henv : ∀ w w', P w → sys.env w w' → P w') {w₀ w : W}
    {later earlier : List (Entry S ε W)} {e : Entry S ε W}
    (h : sys.Linked w₀ (later ++ e :: earlier) w) (he : P e.post)
    (hlater : ∀ x ∈ later, P x.pre → P x.post) : P w ∧ ∀ x ∈ later, P x.pre := by
  exact h.persists henv (fun w hw => keeps_star henv he hw.2.2.2) hlater

/-- What neither the surroundings nor any operation decreases grows along the log. -/
theorem Linked.mono {β : Type} [Preorder β] {f : W → β} (henv : ∀ w w', sys.env w w' → f w ≤ f w')
    (hop : ∀ e : Entry S ε W, sys.machine.Answer e.op e.pre e.did e.seen e.post →
      f e.pre ≤ f e.post) {w₀ w : W} {l : List (Entry S ε W)} (h : sys.Linked w₀ l w) :
    l.Pairwise (fun x e => f e.post ≤ f x.pre) ∧
      (∀ e ∈ l, f w₀ ≤ f e.pre ∧ f e.post ≤ f w) ∧ f w₀ ≤ f w := by
  have hkeep : ∀ {v w : W} (b : β), b ≤ f v → Relation.ReflTransGen sys.env v w → b ≤ f w := by
    intro v w b hv hstar
    refine @keeps_star W sys.env (fun w => b ≤ f w) (fun w w' hw he => ?_) v w hv hstar
    exact le_trans hw (henv w w' he)
  induction l generalizing w with
  | nil => exact ⟨.nil, fun e he => (List.not_mem_nil he).elim, hkeep _ le_rfl h⟩
  | cons e l ih =>
    obtain ⟨hpair, hall, hpre⟩ := ih h.1
    have hpost : f e.pre ≤ f e.post := hop e h.2.2.1
    refine ⟨.cons (fun x hx => (hall x hx).2) hpair, fun x hx => ?_,
      hkeep _ (hpre.trans hpost) h.2.2.2⟩
    rcases List.mem_cons.mp hx with rfl | hx
    · exact ⟨hpre, hkeep _ le_rfl h.2.2.2⟩
    · exact ⟨(hall x hx).1, hkeep _ ((hall x hx).2.trans hpost) h.2.2.2⟩

/-- The log of a run is linked, names only calls that have started, and what is left of each call is
what its own entries leave of its program. -/
theorem replays {init : W → Prop} {cfg : sys.Config} (hr : sys.Reachable init cfg) :
    (∃ w₀, init w₀ ∧ sys.Linked w₀ cfg.hist.log cfg.hist.world) ∧
      (∀ e ∈ cfg.hist.log, e.pid < cfg.procs.length) ∧
      ∀ pid c p, cfg.procs[pid]? = some (c, p) →
        Replay (sys.body c) (cfg.hist.own pid).reverse p := by
  induction hr with
  | @start w h =>
    refine ⟨⟨w, h, .refl⟩, fun e he => (List.not_mem_nil he).elim, fun pid c p hp => ?_⟩
    cases hp
  | @step cfg cfg' _ hs ih =>
    obtain ⟨⟨w₀, hinit, hlinked⟩, hlog, hprocs⟩ := ih
    cases hs with
    | spawn c hc =>
      refine ⟨⟨w₀, hinit, hlinked⟩, fun e he => ?_, fun pid c' p hp => ?_⟩
      · have hlt := hlog e he
        simp only [List.length_append, List.length_cons, List.length_nil]
        omega
      · rcases old_or_added hp with hp | ⟨rfl, heq⟩
        · exact hprocs pid c' p hp
        · obtain ⟨rfl, rfl⟩ := Prod.mk.inj heq
          -- The number is new, so no entry of the log carries it.
          have hown : cfg.hist.own cfg.procs.length = [] := Hist.own_eq_nil hlog (Nat.le_refl _)
          rw [hown]
          exact .nil _
    | env w he => exact ⟨⟨w₀, hinit, hlinked.env he⟩, hlog, hprocs⟩
    | op pid c o k hp ha did seen w hans =>
      have hlt : pid < cfg.procs.length := (List.getElem?_eq_some_iff.mp hp).1
      refine ⟨⟨w₀, hinit, hlinked, ha, hans, .refl⟩, fun e he => ?_, fun q c' p hq => ?_⟩
      · rw [List.length_set]
        rcases List.mem_cons.mp he with rfl | he
        · exact hlt
        · exact hlog e he
      · by_cases hpq : pid = q
        · subst hpq
          rw [List.getElem?_set_self hlt, Option.some.injEq, Prod.mk.injEq] at hq
          obtain ⟨rfl, rfl⟩ := hq
          rw [Hist.own_record_self, List.reverse_cons]
          exact (hprocs pid c _ hp).concat
        · rw [List.getElem?_set_ne hpq] at hq
          rw [Hist.own_record_of_ne cfg.hist pid o did seen w hpq]
          exact hprocs q c' p hq

end System

end SplitBill.Interleave
