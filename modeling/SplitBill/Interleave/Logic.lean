import SplitBill.Interleave.Machine

/-!
# What holds of programs that run side by side

`wp D Q p x` says that the program `p`, started in the state `x`, keeps the discipline `D` and ends
in `Q`, whatever the others do in between: before each operation the others may take the state
along `D.rely`, and each of the program's own operations has to stay within `D.guar`.

`System.sound` is the rule for a whole system: if each call keeps a preorder `R` on histories, given
that the others keep it, then every reachable state has the invariant that `R` preserves and every
call still satisfies its `wp`. The others never add to a call's own log, so what a call has seen so
far stays available to its proof. `System.invariant` is the simpler rule for an invariant that every
operation of the system preserves by itself, and `Exec.sound` is the rule for one program alone.

Often the reason why an operation keeps an invariant is what its own call did before.
`Machine.ownLog` is the discipline of a program that has nothing but its own entries to go by: each
operation has to satisfy a predicate of the entries before it. `System.keeps_of_ownLog` then asks of
an invariant only that the operations that satisfy the predicate preserve it, and
`System.entries_of_ownLog` tells of each entry what was known when it was made.
-/

universe u v

namespace SplitBill.Interleave

variable {S : Interface.{u}} {ε α β W : Type} {X : Type v}

/-- The rules under which a program runs. -/
structure Discipline (S : Interface.{u}) (ε : Type) (X : Type v) where
  /-- What others may do between two operations. -/
  rely : X → X → Prop
  /-- How an operation may be answered, and the state afterwards. -/
  answer : (o : S.Op) → X → Except ε (S.Res o) → X → Prop
  /-- What every operation of the program has to keep. -/
  guar : X → X → Prop

/-- From the state `x` the program keeps the discipline and ends in `Q`. -/
def wp (D : Discipline S ε X) (Q : Except ε α → X → Prop) : Prog S ε α → X → Prop
  | .ret a, x => Q (.ok a) x
  | .throw e, x => Q (.error e) x
  | .call o k, x => ∀ x₁, D.rely x x₁ → ∀ r x₂, D.answer o x₁ r x₂ →
      D.guar x₁ x₂ ∧ wp D Q (k r) x₂

/-- Where the first part of a sequence has to end for the whole to end in `Q`. -/
abbrev andThen (D : Discipline S ε X) (Q : Except ε β → X → Prop) (g : α → Prog S ε β) :
    Except ε α → X → Prop
  | .ok a, x => wp D Q (g a) x
  | .error e, x => Q (.error e) x

/-- Where the body of a `try` has to end for the whole to end in `Q`. -/
abbrev orCatch (D : Discipline S ε X) (Q : Except ε α → X → Prop) (g : ε → Prog S ε α) :
    Except ε α → X → Prop
  | .ok a, x => Q (.ok a) x
  | .error e, x => wp D Q (g e) x

section Rules

variable {D : Discipline S ε X} {Q Q' : Except ε α → X → Prop}

/-- A weaker end is easier to reach. -/
theorem wp_mono (hQ : ∀ r x, Q r x → Q' r x) {p : Prog S ε α} {x : X} (h : wp D Q p x) :
    wp D Q' p x := by
  induction p generalizing x with
  | ret a => exact hQ _ _ h
  | throw e => exact hQ _ _ h
  | call o k ih =>
    intro x₁ hx r x₂ ha
    obtain ⟨hg, hk⟩ := h x₁ hx r x₂ ha
    exact ⟨hg, ih r hk⟩

/-- What holds of the rest of a program still holds after the others moved. -/
theorem wp_stable (htrans : ∀ {a b c}, D.rely a b → D.rely b c → D.rely a c)
    (hQ : ∀ r x y, Q r x → D.rely x y → Q r y) {p : Prog S ε α} {x y : X} (h : wp D Q p x)
    (hxy : D.rely x y) : wp D Q p y := by
  cases p with
  | ret a => exact hQ _ _ _ h hxy
  | throw e => exact hQ _ _ _ h hxy
  | call o k => exact fun x₁ hx => h x₁ (htrans hxy hx)

/-- A sequence ends in `Q` when its first part ends where its second part does. -/
theorem wp_bind {Q : Except ε β → X → Prop} {p : Prog S ε α} {g : α → Prog S ε β} {x : X} :
    wp D Q (p.bind g) x ↔ wp D (andThen D Q g) p x := by
  induction p generalizing x with
  | ret a => rfl
  | throw e => rfl
  | call o k ih =>
    simp only [Prog.bind, wp, ih]

/-- A `try`/`catch` ends in `Q` when its body ends in `Q` or where its handler ends in `Q`. -/
theorem wp_tryCatch {p : Prog S ε α} {g : ε → Prog S ε α} {x : X} :
    wp D Q (p.tryCatch g) x ↔ wp D (orCatch D Q g) p x := by
  induction p generalizing x with
  | ret a => rfl
  | throw e => rfl
  | call o k ih =>
    simp only [Prog.tryCatch, wp, ih]

/-- Waiting for an outcome ends in `Q` when the program ends in `Q` of its outcome. -/
theorem wp_attempt {Q : Except ε (Except ε α) → X → Prop} {p : Prog S ε α} {x : X} :
    wp D Q p.attempt x ↔ wp D (fun r y => Q (.ok r) y) p x := by
  induction p generalizing x with
  | ret a => rfl
  | throw e => rfl
  | call o k ih =>
    simp only [Prog.attempt, wp, ih]

/-- One operation. -/
theorem wp_perform {o : S.Op} {Q : Except ε (S.Res o) → X → Prop} {x : X} :
    wp D Q (Prog.perform o) x ↔
      ∀ x₁, D.rely x x₁ → ∀ r x₂, D.answer o x₁ r x₂ → D.guar x₁ x₂ ∧ Q r x₂ := by
  have key : ∀ (r : Except ε (S.Res o)) (y : X), wp D Q (Prog.ofExcept r) y ↔ Q r y := by
    rintro (e | a) y <;> rfl
  simp only [Prog.perform, wp, key]

/-- One operation before the rest of a program. -/
theorem wp_perform_bind {o : S.Op} {g : S.Res o → Prog S ε α} {x : X} :
    wp D Q ((Prog.perform o).bind g) x ↔
      ∀ x₁, D.rely x x₁ → ∀ r x₂, D.answer o x₁ r x₂ →
        D.guar x₁ x₂ ∧ andThen D Q g r x₂ := by
  rw [wp_bind, wp_perform]

/-- A check. -/
theorem wp_ensure {p : Prop} [Decidable p] {e : ε} {Q : Except ε Unit → X → Prop} {x : X} :
    wp D Q (Prog.ensure p e) x ↔ (p → Q (.ok ()) x) ∧ (¬p → Q (.error e) x) := by
  unfold Prog.ensure
  by_cases h : p
  · rw [if_pos h]
    exact ⟨fun hq => ⟨fun _ => hq, fun hn => absurd h hn⟩, fun hq => hq.1 h⟩
  · rw [if_neg h]
    exact ⟨fun he => ⟨fun hp => absurd hp h, fun _ => he⟩, fun he => he.2 h⟩

/-- A check before the rest of a program. -/
theorem wp_ensure_bind {p : Prop} [Decidable p] {e : ε} {g : Unit → Prog S ε α} {x : X} :
    wp D Q ((Prog.ensure p e).bind g) x ↔
      (p → wp D Q (g ()) x) ∧ (¬p → Q (.error e) x) := by
  rw [wp_bind, wp_ensure]

/-- A value that has to be there. -/
theorem wp_expect {a : Option α} {e : ε} {x : X} :
    wp D Q (Prog.expect a e) x ↔ (∀ b, a = some b → Q (.ok b) x) ∧ (a = none → Q (.error e) x) := by
  cases a with
  | none => simp [Prog.expect, wp]
  | some b => simp [Prog.expect, wp]

/-- A value that has to be there, before the rest of a program. -/
theorem wp_expect_bind {a : Option β} {e : ε} {g : β → Prog S ε α} {x : X} :
    wp D Q ((Prog.expect a e).bind g) x ↔
      (∀ b, a = some b → wp D Q (g b) x) ∧ (a = none → Q (.error e) x) := by
  rw [wp_bind, wp_expect]

/-- A computed outcome before the rest of a program. -/
theorem wp_ofExcept_bind {r : Except ε β} {g : β → Prog S ε α} {x : X} :
    wp D Q ((Prog.ofExcept r).bind g) x ↔
      (∀ b, r = .ok b → wp D Q (g b) x) ∧ ∀ e, r = .error e → Q (.error e) x := by
  cases r with
  | error e => simp [Prog.ofExcept, wp]
  | ok b => simp [Prog.ofExcept]

/-- A program whose operations all keep the discipline wherever they are performed keeps it. -/
theorem wp_of_issues {A : S.Op → Prop} {I : X → Prop} {p : Prog S ε α} (hp : p.Issues A)
    (hrely : ∀ x y, I x → D.rely x y → I y)
    (hop : ∀ o x r y, A o → I x → D.answer o x r y → D.guar x y ∧ I y)
    (hQ : ∀ r x, I x → Q r x) {x : X} (hx : I x) : wp D Q p x := by
  induction p generalizing x with
  | ret a => exact hQ _ _ hx
  | throw e => exact hQ _ _ hx
  | call o k ih =>
    intro x₁ h₁ r x₂ ha
    obtain ⟨hg, h₂⟩ := hop o x₁ r x₂ hp.1 (hrely _ _ hx h₁) ha
    exact ⟨hg, ih r (hp.2 r) h₂⟩

end Rules

/-! ## One program alone -/

/-- The discipline of a program without company: only `env` moves the world in between, and the
program's operations may do what they like. -/
def Machine.alone (M : Machine S ε W) (env : W → W → Prop) : Discipline S ε W where
  rely := env
  answer o w r w' := ∃ did, M.Answer o w did r w'
  guar _ _ := True

/-- The end of a run of one program is where its `wp` says. -/
theorem Exec.sound {M : Machine S ε W} {env : W → W → Prop} {p : Prog S ε α} {w w' : W}
    {r : Except ε α} (h : Exec M env p w r w') {Q : Except ε α → W → Prop}
    (hwp : wp (M.alone env) Q p w) : Q r w' := by
  induction h with
  | ret a w => exact hwp
  | throw e w => exact hwp
  | call henv hans hk ih => exact ih (hwp _ henv _ _ ⟨_, hans⟩).2

/-- An invariant that every call keeps holds in every world that calls one after another reach. -/
theorem Sequence.invariant {Call : Type} {M : Machine S ε W} {env : W → W → Prop}
    {body : Call → Prog S ε α} {may : Call → W → Prop} {init : W → Prop} (I : W → Prop)
    (hinit : ∀ w, init w → I w) (henv : ∀ w w', I w → env w w' → I w')
    (hcall : ∀ c w, I w → may c w → wp (M.alone env) (fun _ y => I y) (body c) w) {w : W}
    (h : Sequence M env body may init w) : I w := by
  induction h with
  | start h => exact hinit _ h
  | env _ he ih => exact henv _ _ ih he
  | call _ c hc hx ih => exact hx.sound (hcall c _ ih hc)

/-- What holds of every run of a program alone holds of its runs on a machine that answers in fewer
ways. -/
theorem wp_alone_of_answer {M M' : Machine S ε W} {env : W → W → Prop}
    (hM : ∀ {o w did r w'}, M'.Answer o w did r w' → M.Answer o w did r w') {p : Prog S ε α}
    {Q : Except ε α → W → Prop} {w : W} (h : wp (M.alone env) Q p w) : wp (M'.alone env) Q p w := by
  induction p generalizing w with
  | ret a => exact h
  | throw e => exact h
  | call o k ih =>
    intro w₁ henv r w₂ hans
    obtain ⟨did, hans⟩ := hans
    exact ⟨trivial, ih r (h w₁ henv r w₂ ⟨did, hM hans⟩).2⟩

/-! ## Systems -/

namespace System

variable (sys : System S ε α W) (R : Hist S ε W → Hist S ε W → Prop)

/-- The discipline of the call `pid`: the others keep `R` and leave the call's own log alone, and
its own operations, those that the system allows, have to keep `R` as well and to end in `L`. -/
def discipline (L : Hist S ε W → Prop) (pid : ℕ) : Discipline S ε (Hist S ε W) where
  rely h h₁ := R h h₁ ∧ h₁.own pid = h.own pid
  answer o h r h' := sys.allow pid o h ∧
    ∃ did w, sys.machine.Answer o h.world did r w ∧ h' = h.record pid o did r w
  guar h h' := R h h' ∧ L h'

/-- What a proof about a system has to supply: a preorder on histories that the surroundings keep,
an invariant that it preserves, for each call what holds of it at each of its steps and at its end,
which the others preserve as well, and for each call the proof that it keeps the discipline. -/
structure Outline (init : W → Prop) where
  /-- The invariant. -/
  I : Hist S ε W → Prop
  /-- What holds of a call all along. -/
  L : ℕ → sys.Call → Hist S ε W → Prop := fun _ _ _ => True
  /-- What holds when a call has ended. -/
  Q : ℕ → sys.Call → Except ε α → Hist S ε W → Prop := fun _ _ _ _ => True
  refl : ∀ h, R h h
  trans : ∀ {a b c}, R a b → R b c → R a c
  init : ∀ w, init w → I ⟨w, []⟩
  inv : ∀ h h', I h → R h h' → I h'
  env : ∀ h w, I h → sys.env h.world w → R h (h.withWorld w)
  begins : ∀ pid c h, I h → h.own pid = [] → L pid c h
  steps : ∀ pid c h h', L pid c h → R h h' → h'.own pid = h.own pid → L pid c h'
  ends : ∀ pid c r h h', Q pid c r h → R h h' → h'.own pid = h.own pid → Q pid c r h'
  body : ∀ pid c h, I h → sys.valid c → h.own pid = [] →
    wp (sys.discipline R (L pid c) pid) (Q pid c) (sys.body c) h

variable {sys R}

/-- The rule for a system: in every reachable state the invariant holds, the log names only calls
that have started, and what is left of each call keeps the discipline and leads to the call's
end. -/
theorem sound {init : W → Prop} (out : sys.Outline R init) {cfg : sys.Config}
    (hr : sys.Reachable init cfg) :
    out.I cfg.hist ∧ (∀ e ∈ cfg.hist.log, e.pid < cfg.procs.length) ∧
      ∀ pid c p, cfg.procs[pid]? = some (c, p) → sys.valid c ∧ out.L pid c cfg.hist ∧
        wp (sys.discipline R (out.L pid c) pid) (out.Q pid c) p cfg.hist := by
  have htrans : ∀ pid c {x y z}, (sys.discipline R (out.L pid c) pid).rely x y →
      (sys.discipline R (out.L pid c) pid).rely y z →
      (sys.discipline R (out.L pid c) pid).rely x z :=
    fun pid c {x y z} h₁ h₂ => ⟨out.trans h₁.1 h₂.1, h₂.2.trans h₁.2⟩
  have hends : ∀ pid c r h h', out.Q pid c r h →
      (sys.discipline R (out.L pid c) pid).rely h h' → out.Q pid c r h' :=
    fun pid c r h h' hq hx => out.ends pid c r h h' hq hx.1 hx.2
  induction hr with
  | start h => exact ⟨out.init _ h, by simp [System.start], by simp [System.start]⟩
  | @step cfg cfg' h hs ih =>
    obtain ⟨hI, hlog, hprocs⟩ := ih
    cases hs with
    | spawn c hc =>
      refine ⟨hI, fun e he => ?_, fun pid c' p hp => ?_⟩
      · have := hlog e he
        simp only [List.length_append, List.length_cons, List.length_nil]
        omega
      · rcases old_or_added hp with hp | ⟨rfl, heq⟩
        · exact hprocs pid c' p hp
        · obtain ⟨rfl, rfl⟩ := Prod.mk.inj heq
          -- The number is new, so no entry of the log carries it.
          have hown : cfg.hist.own cfg.procs.length = [] := Hist.own_eq_nil hlog (Nat.le_refl _)
          exact ⟨hc, out.begins _ _ _ hI hown, out.body _ _ _ hI hc hown⟩
    | env w he =>
      have hR := out.env _ _ hI he
      refine ⟨out.inv _ _ hI hR, hlog, fun pid c p hp => ?_⟩
      obtain ⟨hv, hL, hwp⟩ := hprocs pid c p hp
      exact ⟨hv, out.steps _ _ _ _ hL hR rfl, wp_stable (htrans pid c) (hends pid c) hwp ⟨hR, rfl⟩⟩
    | op pid c o k hp ha did seen w hans =>
      obtain ⟨hv, hL, hwp⟩ := hprocs pid c _ hp
      have hlt : pid < cfg.procs.length := (List.getElem?_eq_some_iff.mp hp).1
      obtain ⟨⟨hR, hL'⟩, hk⟩ :=
        hwp cfg.hist ⟨out.refl _, rfl⟩ seen _ ⟨ha, did, w, hans, rfl⟩
      refine ⟨out.inv _ _ hI hR, fun e he => ?_, fun q c' p hq => ?_⟩
      · rw [List.length_set]
        rcases List.mem_cons.mp he with rfl | he
        · exact hlt
        · exact hlog e he
      · by_cases hpq : pid = q
        · -- The call that moved.
          subst hpq
          rw [List.getElem?_set_self hlt, Option.some.injEq, Prod.mk.injEq] at hq
          obtain ⟨rfl, rfl⟩ := hq
          exact ⟨hv, hL', hk⟩
        · -- The others: the step is one that they rely on.
          rw [List.getElem?_set_ne hpq] at hq
          obtain ⟨hv', hL', hwp'⟩ := hprocs q c' p hq
          have hown := Hist.own_record_of_ne cfg.hist pid o did seen w hpq
          exact ⟨hv', out.steps _ _ _ _ hL' hR hown,
            wp_stable (htrans q c') (hends q c') hwp' ⟨hR, hown⟩⟩

/-- The invariant of an outline holds in every reachable state. -/
theorem Outline.holds {init : W → Prop} (out : sys.Outline R init) {cfg : sys.Config}
    (hr : sys.Reachable init cfg) : out.I cfg.hist := (sound out hr).1

/-- What an outline says of a call holds in every reachable state. -/
theorem Outline.started {init : W → Prop} (out : sys.Outline R init) {cfg : sys.Config}
    (hr : sys.Reachable init cfg) {pid : ℕ} {c : sys.Call} {p : Prog S ε α}
    (hp : cfg.procs[pid]? = some (c, p)) : out.L pid c cfg.hist :=
  ((sound out hr).2.2 pid c p hp).2.1

/-- A call that has ended, with a result or with an error, satisfies its end. -/
theorem Outline.ended {init : W → Prop} (out : sys.Outline R init) {cfg : sys.Config}
    (hr : sys.Reachable init cfg) {pid : ℕ} {c : sys.Call} {r : Except ε α}
    (hp : cfg.procs[pid]? = some (c, .ofExcept r)) : out.Q pid c r cfg.hist := by
  have hwp := ((sound out hr).2.2 pid c _ hp).2.2
  cases r with
  | error e => exact hwp
  | ok a => exact hwp

/-- A call that has returned satisfies its end. -/
theorem Outline.returned {init : W → Prop} (out : sys.Outline R init) {cfg : sys.Config}
    (hr : sys.Reachable init cfg) {pid : ℕ} {c : sys.Call} {a : α}
    (hp : cfg.procs[pid]? = some (c, .ret a)) : out.Q pid c (.ok a) cfg.hist :=
  out.ended hr (r := .ok a) hp

/-- An invariant that every operation of the system preserves by itself holds in every reachable
state. -/
theorem invariant {init : W → Prop} (A : S.Op → Prop) (I : Hist S ε W → Prop)
    (hA : ∀ c, sys.valid c → (sys.body c).Issues A) (hinit : ∀ w, init w → I ⟨w, []⟩)
    (henv : ∀ h w, I h → sys.env h.world w → I (h.withWorld w))
    (hop : ∀ pid o h did seen w, A o → I h → sys.allow pid o h →
      sys.machine.Answer o h.world did seen w → I (h.record pid o did seen w))
    {cfg : sys.Config} (hr : sys.Reachable init cfg) : I cfg.hist := by
  -- Every call may rely on the invariant alone.
  let out : sys.Outline (fun h h' => I h → I h') init :=
    { I := I
      refl := fun _ h => h
      trans := fun h₁ h₂ h => h₂ (h₁ h)
      init := hinit
      inv := fun _ _ h hR => hR h
      env := fun h w _ he h' => henv h w h' he
      begins := fun _ _ _ _ _ => trivial
      steps := fun _ _ _ _ _ _ _ => trivial
      ends := fun _ _ _ _ _ _ _ _ => trivial
      body := fun pid c h hI hc _ => by
        refine wp_of_issues (I := I) (hA c hc) ?_ ?_ (fun _ _ _ => trivial) hI
        · rintro x y hx ⟨hxy, -⟩
          exact hxy hx
        · rintro o x r y ho hx ⟨ha, did, w, hans, rfl⟩
          have hy := hop pid o x did r w ho hx ha hans
          exact ⟨⟨fun _ => hy, trivial⟩, hy⟩ }
  exact (sound out hr).1

end System

/-! ## What a program knows from its own entries -/

/-- The discipline of the call `pid` on its own entries: `A` has to hold of each operation, given
the entries before it, and the operation may be answered as in any world. -/
def Machine.ownLog (M : Machine S ε W) (pid : ℕ) (A : List (Entry S ε W) → S.Op → Prop) :
    Discipline S ε (List (Entry S ε W)) where
  rely l l' := l' = l
  answer o l r l' := ∃ w did w', M.Answer o w did r w' ∧ l' = ⟨pid, o, w, did, r, w'⟩ :: l
  guar l l' := ∀ e, l' = e :: l → A l e.op

section OwnLog

variable {M : Machine S ε W} {pid : ℕ} {A : List (Entry S ε W) → S.Op → Prop}
  {Q : Except ε α → List (Entry S ε W) → Prop}

/-- One operation. -/
theorem wp_ownLog_perform {o : S.Op} {Q : Except ε (S.Res o) → List (Entry S ε W) → Prop}
    {l : List (Entry S ε W)} (ho : A l o)
    (hQ : ∀ w did r w', M.Answer o w did r w' → Q r (⟨pid, o, w, did, r, w'⟩ :: l)) :
    wp (M.ownLog pid A) Q (Prog.perform o) l := by
  refine wp_perform.mpr ?_
  rintro _ rfl r _ ⟨w, did, w', hans, rfl⟩
  refine ⟨fun e he => ?_, hQ w did r w' hans⟩
  rw [← (List.cons.inj he).1]
  exact ho

/-- One operation before the rest of a program of which nothing is asked when it throws. -/
theorem wp_ownLog_bind (herr : ∀ e l, Q (.error e) l) {o : S.Op} {g : S.Res o → Prog S ε α}
    {l : List (Entry S ε W)} (ho : A l o)
    (hg : ∀ w did v w', M.Answer o w did (.ok v) w' →
      wp (M.ownLog pid A) Q (g v) (⟨pid, o, w, did, .ok v, w'⟩ :: l)) :
    wp (M.ownLog pid A) Q ((Prog.perform o).bind g) l := by
  refine wp_bind.mpr (wp_ownLog_perform ho fun w did r w' hans => ?_)
  cases r with
  | error e => exact herr e _
  | ok v => exact hg w did v w' hans

/-- A program whose operations satisfy a predicate that the entries before do not matter for. -/
theorem wp_ownLog_of_issues {B : S.Op → Prop} {I : List (Entry S ε W) → Prop} {p : Prog S ε α}
    (hp : p.Issues B) (hB : ∀ l o, I l → B o → A l o)
    (hI : ∀ l o w did r w', I l → B o → M.Answer o w did r w' → I (⟨pid, o, w, did, r, w'⟩ :: l))
    (hQ : ∀ r l, I l → Q r l) {l : List (Entry S ε W)} (hl : I l) :
    wp (M.ownLog pid A) Q p l := by
  refine wp_of_issues hp (fun l l' h hl => hl ▸ h) ?_ hQ hl
  rintro o l r _ ho h ⟨w, did, w', hans, rfl⟩
  refine ⟨fun e he => ?_, hI l o w did r w' h ho hans⟩
  rw [← (List.cons.inj he).1]
  exact hB l o h ho

/-- A program may be held to two predicates one after the other. -/
theorem wp_ownLog_and {B : List (Entry S ε W) → S.Op → Prop} {p : Prog S ε α}
    {Q' : Except ε α → List (Entry S ε W) → Prop}
    {l : List (Entry S ε W)} (hA : wp (M.ownLog pid A) Q p l) (hB : wp (M.ownLog pid B) Q' p l) :
    wp (M.ownLog pid fun l o => A l o ∧ B l o) (fun r l => Q r l ∧ Q' r l) p l := by
  induction p generalizing l with
  | ret a => exact ⟨hA, hB⟩
  | throw e => exact ⟨hA, hB⟩
  | call o k ih =>
    intro l₁ hl₁ r l₂ hans
    obtain ⟨hguarA, hkA⟩ := hA l₁ hl₁ r l₂ hans
    obtain ⟨hguarB, hkB⟩ := hB l₁ hl₁ r l₂ hans
    exact ⟨fun e he => ⟨hguarA e he, hguarB e he⟩, ih r hkA hkB⟩

variable {sys : System S ε α W}

/-- What a program does by its own entries it does in company, where the others keep an invariant
that its operations preserve. -/
theorem wp_of_ownLog {I : Hist S ε W → Prop} {A : List (Entry S ε W) → S.Op → Prop}
    (hop : ∀ o h did seen w, A (h.own pid) o → I h → sys.allow pid o h →
      sys.machine.Answer o h.world did seen w → I (h.record pid o did seen w))
    {p : Prog S ε α} {h : Hist S ε W} (hI : I h)
    (hp : wp (sys.machine.ownLog pid A) Q p (h.own pid)) :
    wp (sys.discipline (fun x y => I x → I y) (fun _ => True) pid) (fun r y => Q r (y.own pid)) p
      h := by
  induction p generalizing h with
  | ret a => exact hp
  | throw e => exact hp
  | call o k ih =>
    rintro x ⟨hR, hown⟩ r y ⟨ha, did, w, hans, rfl⟩
    obtain ⟨hguar, hk⟩ := hp _ rfl r _ ⟨x.world, did, w, hans, rfl⟩
    have ho : A (x.own pid) o := hown ▸ hguar _ rfl
    have hy : I (x.record pid o did r w) := hop o x did r w ho (hR hI) ha hans
    refine ⟨⟨fun _ => hy, trivial⟩, ih r hy ?_⟩
    rw [Hist.own_record_self, hown]
    exact hk

/-- The rule for an invariant that every operation of the system preserves, given what its own call
did before: it holds in every reachable state, and the entries of a call that has ended are as its
program says. -/
theorem System.ends_of_ownLog {init : W → Prop}
    (A : ℕ → sys.Call → List (Entry S ε W) → S.Op → Prop)
    (Q : ℕ → sys.Call → Except ε α → List (Entry S ε W) → Prop) (I : Hist S ε W → Prop)
    (hbody : ∀ pid c, sys.valid c →
      wp (sys.machine.ownLog pid (A pid c)) (Q pid c) (sys.body c) [])
    (hinit : ∀ w, init w → I ⟨w, []⟩)
    (henv : ∀ h w, I h → sys.env h.world w → I (h.withWorld w))
    (hop : ∀ pid c o h did seen w, A pid c (h.own pid) o → I h → sys.allow pid o h →
      sys.machine.Answer o h.world did seen w → I (h.record pid o did seen w))
    {cfg : sys.Config} (hr : sys.Reachable init cfg) :
    I cfg.hist ∧ ∀ pid c r, cfg.procs[pid]? = some (c, .ofExcept r) →
      Q pid c r (cfg.hist.own pid) := by
  let out : sys.Outline (fun h h' => I h → I h') init :=
    { I := I
      Q := fun pid c r h => Q pid c r (h.own pid)
      refl := fun _ h => h
      trans := fun h₁ h₂ h => h₂ (h₁ h)
      init := hinit
      inv := fun _ _ h hR => hR h
      env := fun h w _ he h' => henv h w h' he
      begins := fun _ _ _ _ _ => trivial
      steps := fun _ _ _ _ _ _ _ => trivial
      ends := fun pid c r h h' hQ _ hown => by rw [hown]; exact hQ
      body := fun pid c h hI hc hown =>
        wp_of_ownLog (fun o h did seen w ho hI ha hans => hop pid c o h did seen w ho hI ha hans) hI
          (by rw [hown]; exact hbody pid c hc) }
  exact ⟨out.holds hr, fun pid c r hp => out.ended hr hp⟩

/-- The same for the calls that have returned. -/
theorem System.keeps_of_ownLog {init : W → Prop}
    (A : ℕ → sys.Call → List (Entry S ε W) → S.Op → Prop)
    (Q : ℕ → sys.Call → Except ε α → List (Entry S ε W) → Prop) (I : Hist S ε W → Prop)
    (hbody : ∀ pid c, sys.valid c →
      wp (sys.machine.ownLog pid (A pid c)) (Q pid c) (sys.body c) [])
    (hinit : ∀ w, init w → I ⟨w, []⟩)
    (henv : ∀ h w, I h → sys.env h.world w → I (h.withWorld w))
    (hop : ∀ pid c o h did seen w, A pid c (h.own pid) o → I h → sys.allow pid o h →
      sys.machine.Answer o h.world did seen w → I (h.record pid o did seen w))
    {cfg : sys.Config} (hr : sys.Reachable init cfg) :
    I cfg.hist ∧ ∀ pid c a, cfg.procs[pid]? = some (c, .ret a) →
      Q pid c (.ok a) (cfg.hist.own pid) := by
  obtain ⟨hI, hQ⟩ := System.ends_of_ownLog A Q I hbody hinit henv hop hr
  exact ⟨hI, fun pid c a hp => hQ pid c (.ok a) hp⟩

/-- Every entry of a run satisfies the predicate, given the earlier entries of its own call, and the
entries of a call that has returned are as its program says. -/
theorem System.follows_of_ownLog {init : W → Prop} {A : ℕ → List (Entry S ε W) → S.Op → Prop}
    {Q : sys.Call → Except ε α → List (Entry S ε W) → Prop}
    (hbody : ∀ pid c, sys.valid c → wp (sys.machine.ownLog pid (A pid)) (Q c) (sys.body c) [])
    {cfg : sys.Config} (hr : sys.Reachable init cfg) :
    (∀ e l, e :: l <:+ cfg.hist.log → A e.pid (l.filter (·.pid = e.pid)) e.op) ∧
      ∀ pid c a, cfg.procs[pid]? = some (c, .ret a) → Q c (.ok a) (cfg.hist.own pid) := by
  refine System.keeps_of_ownLog (fun pid _ => A pid) (fun _ => Q)
    (fun h => ∀ e l, e :: l <:+ h.log → A e.pid (l.filter (·.pid = e.pid)) e.op) hbody ?_ ?_ ?_ hr
  · intro w _ e l hl
    cases List.suffix_nil.mp hl
  · exact fun h w hI _ => hI
  · intro pid c o h did seen w ho hI _ _
    exact forall_suffix_cons.mpr ⟨ho, hI⟩

/-- What was known when an entry was made, where every operation of a call satisfies a predicate of
the call and its entries: the invariant held, and the call had started and satisfied its
predicate. -/
theorem System.entries_of_ownLog (sys : System S ε α W) {init : W → Prop}
    (A : ℕ → sys.Call → List (Entry S ε W) → S.Op → Prop)
    (Q : ℕ → sys.Call → Except ε α → List (Entry S ε W) → Prop) (I : Hist S ε W → Prop)
    (hbody : ∀ pid c, sys.valid c →
      wp (sys.machine.ownLog pid (A pid c)) (Q pid c) (sys.body c) [])
    (hinit : ∀ w, init w → I ⟨w, []⟩)
    (henv : ∀ h w, I h → sys.env h.world w → I (h.withWorld w))
    (hop : ∀ pid c o h did seen w, A pid c (h.own pid) o → I h → sys.allow pid o h →
      sys.machine.Answer o h.world did seen w → I (h.record pid o did seen w))
    {cfg : sys.Config} (hr : sys.Reachable init cfg) {e : Entry S ε W} {l : List (Entry S ε W)}
    (hl : e :: l <:+ cfg.hist.log) :
    I ⟨e.pre, l⟩ ∧ ∃ c p, cfg.procs[e.pid]? = some (c, p) ∧
      A e.pid c (l.filter (·.pid = e.pid)) e.op := by
  let J (h : Hist S ε W) : Prop := I h ∧ ∀ e l, e :: l <:+ h.log → I ⟨e.pre, l⟩
  let L (pid : ℕ) (c : sys.Call) (h : Hist S ε W) : Prop :=
    ∀ e l, e :: l <:+ h.own pid → A pid c l e.op
  let R (h h' : Hist S ε W) : Prop := J h → J h'
  -- A call adds to its own entries only what satisfies its predicate.
  have hwp : ∀ pid c (p : Prog S ε α) h, J h → L pid c h →
      wp (sys.machine.ownLog pid (A pid c)) (Q pid c) p (h.own pid) →
      wp (sys.discipline R (L pid c) pid) (fun _ _ => True) p h := by
    intro pid c p
    induction p with
    | ret a => exact fun _ _ _ _ => trivial
    | throw e => exact fun _ _ _ _ => trivial
    | call o k ih =>
      rintro h hJ hL hp x ⟨hR, hown⟩ r y ⟨ha, did, w, hans, rfl⟩
      obtain ⟨hguar, hk⟩ := hp _ rfl r _ ⟨x.world, did, w, hans, rfl⟩
      have ho : A pid c (x.own pid) o := hown ▸ hguar _ rfl
      have hx : J x := hR hJ
      have hy : J (x.record pid o did r w) :=
        ⟨hop pid c o x did r w ho hx.1 ha hans, forall_suffix_cons.mpr ⟨hx.1, hx.2⟩⟩
      have hLy : L pid c (x.record pid o did r w) := by
        show ∀ e l, e :: l <:+ (x.record pid o did r w).own pid → A pid c l e.op
        rw [Hist.own_record_self]
        refine forall_suffix_cons.mpr ⟨ho, ?_⟩
        rw [hown]
        exact hL
      refine ⟨⟨fun _ => hy, hLy⟩, ih r _ hy hLy ?_⟩
      rw [Hist.own_record_self, hown]
      exact hk
  let out : sys.Outline R init :=
    { I := J
      L := L
      refl := fun _ h => h
      trans := fun h₁ h₂ h => h₂ (h₁ h)
      init := fun w hw => ⟨hinit w hw, fun e l hl => nomatch List.suffix_nil.mp hl⟩
      inv := fun _ _ h hR => hR h
      env := fun h w _ he hJ => ⟨henv h w hJ.1 he, hJ.2⟩
      begins := fun pid c h _ hown e l hl => by
        rw [hown] at hl
        cases List.suffix_nil.mp hl
      steps := fun pid c h h' hL _ hown => by
        show ∀ e l, e :: l <:+ h'.own pid → A pid c l e.op
        rw [hown]
        exact hL
      ends := fun _ _ _ _ _ _ _ _ => trivial
      body := fun pid c h hJ hc hown => hwp pid c _ h hJ
        (fun e l hl => by
          rw [hown] at hl
          cases List.suffix_nil.mp hl)
        (by
          rw [hown]
          exact hbody pid c hc) }
  obtain ⟨hJ, hlog, hprocs⟩ := System.sound out hr
  have hlt : e.pid < cfg.procs.length := hlog e (hl.subset List.mem_cons_self)
  refine ⟨hJ.2 e l hl, (cfg.procs[e.pid]).1, (cfg.procs[e.pid]).2, List.getElem?_eq_getElem hlt, ?_⟩
  obtain ⟨-, hL, -⟩ := hprocs e.pid _ _ (List.getElem?_eq_getElem hlt)
  apply hL
  have hself : (e :: l).filter (·.pid = e.pid) = e :: l.filter (·.pid = e.pid) := by
    simp
  rw [← hself]
  exact hl.filter _

end OwnLog

end SplitBill.Interleave
