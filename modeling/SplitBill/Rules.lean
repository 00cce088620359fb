import SplitBill.Backend

/-!
# Rules for programs of the backend

The rules of `Interleave/Logic.lean` at the operations of the backend, for proofs that look at the
tables only. `Stable` is what such a proof has between two of its own writes: a predicate `J` that
the tables decide and that the others keep. A query answers from tables that satisfy `J`, and an
operation outside the database keeps `J`, so only a transaction needs an argument.
-/

namespace SplitBill

open Interleave

variable {lib : Lib} {X : Type} {α : Type}

/-- The tables of `x` are `db x`, the others keep `J`, and a step that leaves the tables alone is
within the program's guarantee. If `strict` holds, every operation is answered. -/
structure Stable (lib : Lib) (D : Discipline backend Err X) (db : X → Db) (J : X → Prop)
    (strict : Prop := False) : Prop where
  answer : ∀ {o x r y}, D.answer o x r y →
    ∃ w w' did, w.db = db x ∧ w'.db = db y ∧ (machine lib).Answer o w did r w' ∧
      (strict → ∃ c, r = (Op.exec lib o c w).1)
  rely : ∀ {x y}, J x → D.rely x y → J y
  guar : ∀ {x y}, J x → db y = db x → D.guar x y
  keeps : ∀ {x y}, J x → db y = db x → J y

namespace Stable

variable {D : Discipline backend Err X} {db : X → Db} {J : X → Prop} {strict : Prop}

/-- A query. -/
theorem read (hs : Stable lib D db J strict) (o : DbOp) {f : Choice → Db → o.Res}
    (ho : o.access = .read f) {Q : Except Err o.Res → X → Prop} {x : X} (hx : J x)
    (hok : ∀ c y, J y → Q (.ok (f c (db y))) y)
    (herr : ∀ y, J y → ¬strict → Q (.error (.prisma .unavailable)) y) :
    wp D Q (Op.perform (.db o)) x := by
  refine wp_perform.mpr fun x₁ hrely r y hans => ?_
  have hx₁ := hs.rely hx hrely
  obtain ⟨w, w', did, hw, hw', h, hstrict⟩ := hs.answer hans
  obtain ⟨rfl, hr⟩ := answer_read ho h
  have hdb : db y = db x₁ := hw'.symm.trans hw
  have hy := hs.keeps hx₁ hdb
  refine ⟨hs.guar hx₁ hdb, ?_⟩
  -- The read is answered from the rows, or it fails.
  rcases hr with ⟨c, rfl⟩ | rfl
  · rw [hw']
    exact hok c y hy
  · refine herr y hy fun hst => ?_
    obtain ⟨c, hc⟩ := hstrict hst
    have hexec : (Op.exec lib (.db o) c w').1 = .ok (f c w'.db) := by
      show (o.access.exec c w').1 = _
      rw [ho]
      rfl
    rw [hexec] at hc
    cases hc

/-- An operation outside the database. -/
theorem quiet (hs : Stable lib D db J strict) (o : Op) (ho : ∀ d, o ≠ .db d)
    {Q : Except Err o.Res → X → Prop} {x : X} (hx : J x) (hQ : ∀ r y, J y → Q r y) :
    wp D Q (Op.perform o) x := by
  refine wp_perform.mpr fun x₁ hrely r y hans => ?_
  have hx₁ := hs.rely hx hrely
  obtain ⟨w, w', did, hw, hw', h, -⟩ := hs.answer hans
  have hdb : db y = db x₁ := by rw [← hw', answer_db_eq ho h, hw]
  exact ⟨hs.guar hx₁ hdb, hQ r y (hs.keeps hx₁ hdb)⟩

/-- Two queries that are issued together, each with the tables that it answers from. -/
theorem promiseAll (hs : Stable lib D db J strict) (o o' : DbOp) {f : Choice → Db → o.Res}
    {f' : Choice → Db → o'.Res} (ho : o.access = .read f) (ho' : o'.access = .read f')
    {Q : Except Err (o.Res × o'.Res) → X → Prop} {x : X} (hx : J x)
    (hok : ∀ c c' x₁ x₂ y, J x₁ → J x₂ → J y → Q (.ok (f c (db x₁), f' c' (db x₂))) y)
    (herr : ∀ y, J y → ¬strict → Q (.error (.prisma .unavailable)) y) :
    wp D Q (SplitBill.promiseAll (Op.perform (.db o)) (Op.perform (.db o'))) x := by
  refine wp_bind.mpr (wp_perform.mpr fun x₁ hrely r y hans => ?_)
  have hx₁ := hs.rely hx hrely
  obtain ⟨w, w', did, hw, hw', h, -⟩ := hs.answer hans
  have hdb : db y = db x₁ := by rw [← hw', answer_db_eq (by rintro d ⟨⟩) h, hw]
  have hy := hs.keeps hx₁ hdb
  refine ⟨hs.guar hx₁ hdb, ?_⟩
  -- The choice always has an outcome.
  obtain ⟨first, -, rfl⟩ := answer_of_fault_none rfl h
  cases first with
  | true =>
    refine wp_bind.mpr (hs.read o ho hy (fun c x₂ hx₂ => ?_) herr)
    refine wp_bind.mpr (hs.read o' ho' hx₂ (fun c' x₃ hx₃ => ?_) herr)
    exact hok c c' x₂ x₃ x₃ hx₂ hx₃ hx₃
  | false =>
    refine wp_bind.mpr (hs.read o' ho' hy (fun c' x₂ hx₂ => ?_) herr)
    refine wp_bind.mpr (hs.read o ho hx₂ (fun c x₃ hx₃ => ?_) herr)
    exact hok c c' x₃ x₂ x₃ hx₃ hx₂ hx₃

/-- An instant that is given, or else the present one. -/
theorem dateOrNow (hs : Stable lib D db J strict) {t : Option Time} {Q : Except Err Time → X → Prop}
    {x : X} (hx : J x) (hQ : ∀ r y, J y → Q r y) : wp D Q (SplitBill.dateOrNow t) x := by
  cases t with
  | some t => exact hQ (.ok t) x hx
  | none => exact hs.quiet .now (by rintro d ⟨⟩) hx hQ

/-- A transaction, where it matters under which answer of the discipline it was committed. Its
caller may be told of an error whether or not it was committed. -/
theorem write_answered (hs : Stable lib D db J strict) (o : DbOp)
    {t : Choice → Time → Tx Db Err Metric o.Res} (ho : o.access = .write t)
    {Q : Except Err o.Res → X → Prop} {x : X} (hx : J x)
    (hcommit : ∀ x₁ y c now r seen, J x₁ → D.answer (.db o) x₁ seen y →
      (t c now).eval (db x₁) = .ok (r, db y) → D.guar x₁ y ∧ Q (.ok r) y ∧ ∀ e, Q (.error e) y)
    (herr : ∀ e y, J y → Q (.error e) y) : wp D Q (Op.perform (.db o)) x := by
  refine wp_perform.mpr fun x₁ hrely r y hans => ?_
  have hx₁ := hs.rely hx hrely
  obtain ⟨w, w', did, hw, hw', h, -⟩ := hs.answer hans
  -- The transaction is rolled back, or it commits.
  obtain ⟨-, hseen, ⟨e, hdid, hdb⟩ | ⟨c, a, hdid, heval⟩⟩ := answer_write ho h
  · have hdb : db y = db x₁ := by rw [← hw', hdb, hw]
    have hr : ∃ e', r = .error e' := by
      rcases hseen with hseen | hseen
      · exact ⟨e, hseen.trans hdid⟩
      · exact ⟨_, hseen⟩
    obtain ⟨e', rfl⟩ := hr
    exact ⟨hs.guar hx₁ hdb, herr e' y (hs.keeps hx₁ hdb)⟩
  · rw [hw, hw'] at heval
    obtain ⟨hg, hok, he⟩ := hcommit x₁ y c w.now a r hx₁ hans heval
    rcases hseen with hseen | hseen
    · rw [hseen, hdid]
      exact ⟨hg, hok⟩
    · rw [hseen]
      exact ⟨hg, he _⟩

/-- A transaction. Its caller may be told of an error whether or not it was committed. -/
theorem write (hs : Stable lib D db J strict) (o : DbOp)
    {t : Choice → Time → Tx Db Err Metric o.Res} (ho : o.access = .write t)
    {Q : Except Err o.Res → X → Prop} {x : X} (hx : J x)
    (hcommit : ∀ x₁ y c now r, J x₁ → (t c now).eval (db x₁) = .ok (r, db y) →
      D.guar x₁ y ∧ Q (.ok r) y ∧ ∀ e, Q (.error e) y)
    (herr : ∀ e y, J y → Q (.error e) y) : wp D Q (Op.perform (.db o)) x :=
  hs.write_answered o ho hx (fun x₁ y c now r _ hx₁ _ heval => hcommit x₁ y c now r hx₁ heval) herr

/-- A program each of whose transactions is within its guarantee and keeps `J`, where it matters
under which answer of the discipline it was committed. -/
theorem run_answered (hs : Stable lib D db J strict) {T : DbOp → Prop}
    (hT : ∀ o, T o → ∀ t, o.access = .write t → ∀ x y c now r seen, J x →
      D.answer (.db o) x seen y → (t c now).eval (db x) = .ok (r, db y) → D.guar x y ∧ J y)
    {p : Act α} (hp : p.Issues (Op.OnDb (ReadsOr T))) {x : X} (hx : J x) :
    wp D (fun _ => J) p x := by
  refine wp_of_issues hp (fun _ _ => hs.rely) ?_ (fun _ _ h => h) hx
  rintro o x r y ho hx h
  obtain ⟨w, w', did, hw, hw', hans, -⟩ := hs.answer h
  have hquiet : db y = db x → D.guar x y ∧ J y := fun hdb => ⟨hs.guar hx hdb, hs.keeps hx hdb⟩
  obtain hdb | ⟨d, t, c, a, rfl, hd, hacc, heval⟩ := answer_transaction ho hans
  · exact hquiet (hw'.symm.trans (hdb.trans hw))
  · rw [hw, hw'] at heval
    exact hT d hd t hacc x y c w.now a r hx h heval

/-- A program each of whose transactions is within its guarantee and keeps `J`. -/
theorem run (hs : Stable lib D db J strict) {T : DbOp → Prop}
    (hT : ∀ o, T o → ∀ t, o.access = .write t → ∀ x y c now r, J x →
      (t c now).eval (db x) = .ok (r, db y) → D.guar x y ∧ J y)
    {p : Act α} (hp : p.Issues (Op.OnDb (ReadsOr T))) {x : X} (hx : J x) :
    wp D (fun _ => J) p x :=
  hs.run_answered (fun o ho t ht x y c now r _ hx _ heval =>
    hT o ho t ht x y c now r hx heval) hp hx

end Stable

/-- The program runs without company: only time passes between its operations, and if `strict`
holds, not even that, and every operation is answered. -/
structure Sequential (lib : Lib) (D : Discipline backend Err World) (strict : Prop) : Prop where
  answer : ∀ {o w r w'}, D.answer o w r w' → ∃ did, (machine lib).Answer o w did r w' ∧
    (strict → ∃ c, r = (Op.exec lib o c w).1 ∧ w' = (Op.exec lib o c w).2)
  rely : ∀ {w w'}, D.rely w w' → w.Later w' ∧ (strict → w' = w)
  guar : ∀ w w', D.guar w w'

/-- A run of one program, in which operations may fail and time may pass. -/
theorem sequential_alone (lib : Lib) :
    Sequential lib ((machine lib).alone World.Later) False where
  answer := fun ⟨did, h⟩ => ⟨did, h, False.elim⟩
  rely := fun h => ⟨h, False.elim⟩
  guar := fun _ _ => trivial

/-- A run of one program in which every operation is answered at once. -/
theorem sequential_answered (lib : Lib) :
    Sequential lib ((machine lib).answered.alone Eq) True where
  answer := fun ⟨did, h⟩ => ⟨did, h.of_answered.1, fun _ => h.of_answered.2⟩
  rely := fun h => ⟨h ▸ World.later_refl _, fun _ => h.symm⟩
  guar := fun _ _ => trivial

namespace Sequential

variable {D : Discipline backend Err World} {strict : Prop}

/-- A program without company may rely on what it knows of the tables. -/
theorem stable_of (hD : Sequential lib D strict) (I : Db → Prop) :
    Stable lib D World.db (fun w => I w.db) strict where
  answer := fun h => by
    obtain ⟨did, hans, hstrict⟩ := hD.answer h
    exact ⟨_, _, did, rfl, rfl, hans, fun hst => (hstrict hst).imp fun c hc => hc.1⟩
  rely := by
    rintro x y hx hxy
    obtain ⟨⟨t, -, rfl⟩, -⟩ := hD.rely hxy
    exact hx
  guar := fun _ _ => hD.guar _ _
  keeps := fun hx hdb => by rw [hdb]; exact hx

/-- A program without company may rely on the tables. -/
theorem stable (hD : Sequential lib D strict) (d : Db) :
    Stable lib D World.db (fun w => w.db = d) strict :=
  hD.stable_of (· = d)

/-- A program without company keeps a predicate of the tables that each of its transactions
keeps. -/
theorem keeps (hD : Sequential lib D strict) {I : Db → Prop} {T : DbOp → Prop}
    (hT : ∀ o, T o → ∀ t, o.access = .write t → ∀ c now d r d', I d →
      (t c now).eval d = .ok (r, d') → I d')
    {p : Act α} (hp : p.Issues (Op.OnDb (ReadsOr T))) {w : World} (hw : I w.db) :
    wp D (fun _ (y : World) => I y.db) p w :=
  (hD.stable_of I).run (fun o ho t hacc x y c now r hx heval =>
    ⟨hD.guar x y, hT o ho t hacc c now x.db r y.db hx heval⟩) hp hw

end Sequential

/-- The histories whose tables are related by `R`. -/
def OnTables (R : Db → Db → Prop) (h h' : Hist backend Err World) : Prop :=
  R h.world.db h'.world.db

/-- A program among others that keep a relation of the tables may rely on what the relation
preserves. -/
theorem stable_relation {sys : System backend Err α World} (hm : sys.machine = machine lib)
    {R : Db → Db → Prop} (hrefl : ∀ d, R d d) {J : Db → Prop} (hJ : ∀ d d', J d → R d d' → J d')
    (pid : ℕ) : Stable lib (sys.discipline (OnTables R) (fun _ => True) pid)
      (fun h => h.world.db) (fun h => J h.world.db) where
  answer := by
    rintro o x r y ⟨-, did, w, h, rfl⟩
    obtain ⟨M, Call, body, valid, env, allow⟩ := sys
    subst hm
    exact ⟨_, w, did, rfl, rfl, h, False.elim⟩
  rely := fun hx hxy => hJ _ _ hx hxy.1
  guar := fun {x _} _ hdb => ⟨by unfold OnTables; rw [hdb]; exact hrefl x.world.db, trivial⟩
  keeps := fun hx hdb => by rw [hdb]; exact hx

end SplitBill
