import SplitBill.Backend

/-!
# Rules for programs without company

The rules of `Interleave/Logic.lean` at the operations of the backend, for proofs about one program
alone that look at more than the tables. Most operations write nothing and send nothing: what such a
proof knows of the tables, of Redis and of the mail it still knows afterwards (`World.Idle`), and
only a transaction, a Redis command or a mail needs an argument.
-/

namespace SplitBill

open Interleave

/-- The world `w'` is the world `w` later, and nothing was written or sent in between. -/
structure World.Idle (w w' : World) : Prop where
  db : w'.db = w.db
  redis : w'.redis = w.redis
  outbox : w'.outbox = w.outbox
  now : w.now ≤ w'.now

/-- Nothing has happened. -/
theorem World.Idle.refl (w : World) : w.Idle w := ⟨rfl, rfl, rfl, Nat.le_refl _⟩

/-- Nothing has happened twice. -/
theorem World.Idle.trans {a b c : World} (h₁ : a.Idle b) (h₂ : b.Idle c) : a.Idle c :=
  ⟨h₂.db.trans h₁.db, h₂.redis.trans h₁.redis, h₂.outbox.trans h₁.outbox,
    Nat.le_trans h₁.now h₂.now⟩

/-- The passing of time is idle. -/
theorem World.Later.idle {w w' : World} (h : w.Later w') : w.Idle w' := by
  obtain ⟨t, ht, rfl⟩ := h
  exact ⟨rfl, rfl, rfl, ht⟩

/-- The operation writes nothing and sends nothing. -/
def Op.Idle : Op → Prop
  | .mail _ => False
  | .db o => ∃ f, o.access = .read f
  | .redis _ _ => False
  | _ => True

variable {lib : Lib}

/-- However an idle operation is answered, the world is as it was. -/
theorem answer_idle {o : Op} (ho : o.Idle) {w w' : World} {did seen : Except Err (backend.Res o)}
    (h : (machine lib).Answer o w did seen w') : w.Idle w' := by
  cases o with
  | mail m => exact ho.elim
  | redis caller c => exact ho.elim
  | db o =>
    obtain ⟨f, hf⟩ := ho
    obtain ⟨rfl, -⟩ := answer_read hf h
    exact World.Idle.refl _
  | _ =>
    rcases answer_cases h with ⟨c, -, rfl, -⟩ | ⟨rfl, -⟩
    · exact ⟨rfl, rfl, rfl, Nat.le_refl _⟩
    · exact World.Idle.refl _

/-- A transaction leaves Redis, the mail and the clock alone. -/
theorem answer_db_frame {o : DbOp} {w w' : World} {did seen : Except Err o.Res}
    (h : (machine lib).Answer (.db o) w did seen w') :
    w'.redis = w.redis ∧ w'.outbox = w.outbox ∧ w'.now = w.now := by
  rcases answer_cases h with ⟨c, -, rfl, -⟩ | ⟨rfl, -⟩
  · exact ⟨Access.exec_redis o.access c w, Access.exec_outbox o.access c w,
      Access.exec_now o.access c w⟩
  · exact ⟨rfl, rfl, rfl⟩

/-- The discipline of a program without company, in which operations may fail and time may pass. -/
abbrev alone (lib : Lib) : Discipline backend Err World := (machine lib).alone World.Later

section

variable {α : Type} {x : World}

/-- An operation that writes and sends nothing. -/
theorem alone_idle (o : Op) (ho : o.Idle) {Q : Except Err o.Res → World → Prop}
    (hQ : ∀ r y, x.Idle y → Q r y) : wp (alone lib) Q (Op.perform o) x := by
  apply wp_perform.mpr
  rintro x₁ hx₁ r y ⟨did, hans⟩
  exact ⟨trivial, hQ r y (hx₁.idle.trans (answer_idle ho hans))⟩

/-- A query. -/
theorem alone_read (o : DbOp) {f : Choice → Db → o.Res} (ho : o.access = .read f)
    {Q : Except Err o.Res → World → Prop} (hok : ∀ c y, x.Idle y → Q (.ok (f c x.db)) y)
    (herr : ∀ e y, x.Idle y → Q (.error e) y) : wp (alone lib) Q (Op.perform (.db o)) x := by
  apply wp_perform.mpr
  rintro x₁ hx₁ r y ⟨did, hans⟩
  refine ⟨trivial, ?_⟩
  have hreads : Op.Idle (.db o) := ⟨f, ho⟩
  have hidle : x.Idle y := hx₁.idle.trans (answer_idle hreads hans)
  obtain ⟨-, ⟨c, rfl⟩ | rfl⟩ := answer_read ho hans
  · rw [hx₁.idle.db]
    exact hok c y hidle
  · exact herr _ y hidle

/-- A look at the clock. -/
theorem alone_newDate {Q : Except Err Time → World → Prop}
    (hQ : ∀ t y, x.now ≤ t → x.Idle y → Q (.ok t) y) : wp (alone lib) Q newDate x := by
  apply wp_perform.mpr
  rintro x₁ hx₁ r y ⟨did, hans⟩
  refine ⟨trivial, ?_⟩
  have hidle : x.Idle y := hx₁.idle.trans (@answer_idle _ .now trivial _ _ _ _ hans)
  rcases answer_cases hans with ⟨c, rfl, -, rfl | ⟨e, he, -⟩⟩ | ⟨-, e, he, -⟩
  · exact hQ _ y hx₁.idle.now hidle
  · cases he
  · cases he

/-- A transaction. Its caller may be told of an error whether or not it was committed. -/
theorem alone_write (o : DbOp) {t : Choice → Time → Tx Db Err Metric o.Res}
    (ho : o.access = .write t) {Q : Except Err o.Res → World → Prop}
    (hcommit : ∀ c now a y, (t c now).eval x.db = .ok (a, y.db) → y.redis = x.redis →
      y.outbox = x.outbox → x.now ≤ y.now → Q (.ok a) y ∧ ∀ e, Q (.error e) y)
    (herr : ∀ e y, x.Idle y → Q (.error e) y) : wp (alone lib) Q (Op.perform (.db o)) x := by
  apply wp_perform.mpr
  rintro x₁ hx₁ r y ⟨did, hans⟩
  refine ⟨trivial, ?_⟩
  have hidle := hx₁.idle
  obtain ⟨hredis, houtbox, hnow⟩ := answer_db_frame hans
  obtain ⟨-, hseen, ⟨e, hdid, hdb⟩ | ⟨c, a, hdid, heval⟩⟩ := answer_write ho hans
  · -- Nothing was committed, and the caller is told of an error.
    have hy : x.Idle y := ⟨hdb.trans hidle.db, hredis.trans hidle.redis, houtbox.trans hidle.outbox,
      hnow ▸ hidle.now⟩
    rcases hseen with hseen | hseen
    · rw [hseen, hdid]
      exact herr e y hy
    · rw [hseen]
      exact herr _ y hy
  · rw [hidle.db] at heval
    obtain ⟨hok, he⟩ := hcommit c _ a y heval (hredis.trans hidle.redis)
      (houtbox.trans hidle.outbox) (hnow ▸ hidle.now)
    rcases hseen with hseen | hseen
    · rw [hseen, hdid]
      exact hok
    · rw [hseen]
      exact he _

/-- A mail. It may have been sent or not, whatever its sender is told. -/
theorem alone_mail (m : Mail) {Q : Except Err Unit → World → Prop}
    (hsent : ∀ r y, y.db = x.db → y.outbox = m :: x.outbox → Q r y)
    (hnot : ∀ r y, x.Idle y → Q r y) : wp (alone lib) Q (Op.perform (.mail m)) x := by
  apply wp_perform.mpr
  rintro x₁ hx₁ r y ⟨did, hans⟩
  refine ⟨trivial, ?_⟩
  have hidle := hx₁.idle
  rcases answer_cases hans with ⟨c, -, rfl, -⟩ | ⟨rfl, -⟩
  · apply hsent
    · exact hidle.db
    · exact congrArg _ hidle.outbox
  · exact hnot r _ hidle

/-- A program all of whose operations write and send nothing. -/
theorem alone_idle_of_issues {p : Act α} (hp : p.Issues Op.Idle) {Q : Except Err α → World → Prop}
    (hQ : ∀ r y, x.Idle y → Q r y) : wp (alone lib) Q p x := by
  refine wp_of_issues (I := fun y => x.Idle y) hp ?_ ?_ hQ (World.Idle.refl x)
  · intro y z hy hz
    exact hy.trans hz.idle
  · rintro o y r z ho hy ⟨did, hans⟩
    exact ⟨trivial, hy.trans (answer_idle ho hans)⟩

end

end SplitBill
