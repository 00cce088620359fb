import SplitBill.RateLimit.Store

/-!
# The limiters of the email endpoints

`sensitiveEmailAuthLimiter` of `src/middleware/rateLimiter.ts`, and the loop of `createApp` in
`src/app.ts` that mounts it on the email endpoints. Each round of the loop creates a limiter.

What `express-rate-limit` does with a limiter: it counts every request in the limiter's store under
the IP of the client, and lets the request pass if its number is within the limit. A limiter without
a store option has a `MemoryStore` of its own, with the same fixed windows.
-/

namespace SplitBill.RateLimit

open Interleave FixedWindow

/-- The settings that the limiter reads from `env`, with their defaults and what is checked of
them. -/
structure Env where
  rateLimitWindowMs : ℕ := 900000
  authEmailRateLimitMax : ℕ := 5
  window_pos : 0 < rateLimitWindowMs := by decide
  max_pos : 0 < authEmailRateLimitMax := by decide

/-- A limiter: which object it is, and the options with which it was created. -/
structure Limiter where
  id : ℕ
  windowMs : ℕ
  limit : ℕ
  passOnStoreError : Bool
  store : Option RedisRateLimitStore

/-- `createLimiter`. -/
def createLimiter (id limit windowMs : ℕ) (store : Option RedisRateLimitStore) : Limiter :=
  ⟨id, windowMs, limit, true, store⟩

/-- `resolveStore`, by whether there is a Redis client. -/
def resolveStore (redis : Bool) (keyPrefix : String) (windowMs : ℕ) : Option RedisRateLimitStore :=
  if redis then some ⟨keyPrefix, windowMs⟩ else none

/-- `sensitiveEmailAuthLimiter`, as the object `id`. -/
def sensitiveEmailAuthLimiter (env : Env) (redis : Bool) (id : ℕ) : Limiter :=
  let store := resolveStore redis "rl:auth-email:" env.rateLimitWindowMs
  createLimiter id env.authEmailRateLimitMax env.rateLimitWindowMs store

/-- `emailAuthLeaves` of `createApp`. -/
def emailAuthLeaves : List String :=
  ["verify-email", "resend-verification", "forgot-password", "reset-password"]

/-- One of the email endpoints. -/
@[ext]
structure Leaf where
  val : String
  mem : val ∈ emailAuthLeaves
  deriving DecidableEq

/-- The limiter that `createApp` mounts on an email endpoint, in the round of its loop for it. -/
def limiterOf (env : Env) (redis : Bool) (leaf : Leaf) : Limiter :=
  sensitiveEmailAuthLimiter env redis (emailAuthLeaves.idxOf leaf.val)

/-! ## Requests -/

/-- Redis, and the memory stores by their limiters. -/
structure Stores where
  redis : Redis String ℤ := {}
  memory : ℕ → String → Option Counter := fun _ _ => none

/-- A memory store keeps a counter. -/
def Stores.keep (s : Stores) (id : ℕ) (ip : String) (c : Counter) : Stores :=
  { s with memory := Function.update s.memory id (Function.update (s.memory id) ip (some c)) }

/-- Whether a limiter lets a request pass. -/
def Limiter.handle (l : Limiter) (ip : String) (now : ℕ) (s : Stores) : Bool × Stores :=
  match l.store with
  | some store =>
    match machine.run now (store.increment ip) ⟨s.redis, now⟩ with
    | (.ok res, w) => (res.totalHits ≤ l.limit, { s with redis := w.redis })
    | (.error _, w) => (l.passOnStoreError, { s with redis := w.redis })
  | none =>
    let c := Counter.hit l.windowMs now (s.memory l.id ip)
    (c.totalHits ≤ l.limit, s.keep l.id ip c)

/-- A request from the IP to an email endpoint. -/
structure Request where
  leaf : Leaf
  time : ℕ

/-- Which of the requests from one IP pass, the first one first. -/
def passed (env : Env) (redis : Bool) (ip : String) : Stores → List Request → List Bool
  | _, [] => []
  | s, r :: rs =>
    let (pass, s) := (limiterOf env redis r.leaf).handle ip r.time s
    pass :: passed env redis ip s rs

/-- All requests are within the window of the first one. -/
def InOneWindow (env : Env) (rs : List Request) : Prop :=
  ∀ first ∈ rs.head?, ∀ r ∈ rs, first.time ≤ r.time ∧ r.time < first.time + env.rateLimitWindowMs

/-- No more requests pass than the maximum, whichever store there is, and the same ones with either
store. -/
def SharesBudget (env : Env) (ip : String) (rs : List Request) : Prop :=
  (∀ redis, (passed env redis ip {} rs).countP id ≤ env.authEmailRateLimitMax) ∧
    passed env true ip {} rs = passed env false ip {} rs

instance (env : Env) (rs : List Request) : Decidable (InOneWindow env rs) := by
  unfold InOneWindow
  infer_instance

instance (env : Env) (ip : String) (rs : List Request) : Decidable (SharesBudget env ip rs) := by
  unfold SharesBudget
  infer_instance

section

variable {env : Env} {ip : String}

/-- The first request passes or not, and the others follow. -/
theorem passed_cons (redis : Bool) (s : Stores) (r : Request) (rs : List Request) :
    passed env redis ip s (r :: rs) = ((limiterOf env redis r.leaf).handle ip r.time s).1 ::
      passed env redis ip ((limiterOf env redis r.leaf).handle ip r.time s).2 rs := rfl

/-- With Redis, all limiters count under one key. -/
theorem handle_redis (leaf : Leaf) (now : ℕ) {s : Stores} {c : Option Counter}
    (hkey : s.redis.strings ("rl:auth-email:" ++ ip) = c.map slotOf)
    (hpos : ∀ x ∈ c, 0 < x.totalHits) :
    ((limiterOf env true leaf).handle ip now s).1 =
        decide ((Counter.hit env.rateLimitWindowMs now c).totalHits ≤ env.authEmailRateLimitMax) ∧
      ((limiterOf env true leaf).handle ip now s).2.redis.strings ("rl:auth-email:" ++ ip) =
        some (slotOf (Counter.hit env.rateLimitWindowMs now c)) := by
  -- The script increments the counter of the address, and its reply is what is compared.
  obtain ⟨htotal, hpost⟩ := @incrementScript_hit now env.rateLimitWindowMs _ s.redis c hkey hpos
  let store : RedisRateLimitStore := ⟨"rl:auth-email:", env.rateLimitWindowMs⟩
  obtain ⟨resetTime, hrun⟩ := run_increment now store ip ⟨s.redis, now⟩
  have hhandle : (limiterOf env true leaf).handle ip now s =
      (decide ((incrementScript now (store.fullKey ip) store.windowMs s.redis).1.1 ≤
        env.authEmailRateLimitMax),
        { s with redis := (incrementScript now (store.fullKey ip) store.windowMs s.redis).2 }) := by
    show (match machine.run now (store.increment ip) ⟨s.redis, now⟩ with
      | (.ok res, w) => (decide (res.totalHits ≤ env.authEmailRateLimitMax),
        { s with redis := w.redis })
      | (.error _, w) => (true, { s with redis := w.redis })) = _
    rw [hrun]
  rw [hhandle]
  constructor
  · have hle := congrArg (fun n : ℤ => decide (n ≤ env.authEmailRateLimitMax)) htotal
    exact hle.trans (decide_eq_decide.mpr Int.ofNat_le)
  · show (incrementScript now (store.fullKey ip) store.windowMs s.redis).2.strings _ = _
    rw [show store.fullKey ip = "rl:auth-email:" ++ ip from rfl, hpost, Function.update_self]

/-- Without Redis, each limiter counts by itself. -/
theorem handle_memory (leaf : Leaf) (now : ℕ) {s : Stores} {c : Option Counter}
    (hc : s.memory (emailAuthLeaves.idxOf leaf.val) ip = c) :
    (limiterOf env false leaf).handle ip now s =
      (decide ((Counter.hit env.rateLimitWindowMs now c).totalHits ≤ env.authEmailRateLimitMax),
        s.keep (emailAuthLeaves.idxOf leaf.val) ip (Counter.hit env.rateLimitWindowMs now c)) := by
  subst hc
  rfl

/-- The requests that pass with Redis are those that one counter numbers up to the maximum. -/
theorem passed_redis {rs : List Request} {s : Stores} {m : Unit → Option Counter}
    (hkey : s.redis.strings ("rl:auth-email:" ++ ip) = (m ()).map slotOf)
    (hpos : ∀ x ∈ m (), 0 < x.totalHits) :
    passed env true ip s rs =
      (replies env.rateLimitWindowMs m (rs.map fun r => ((), r.time))).map
        fun n => decide (n ≤ env.authEmailRateLimitMax) := by
  induction rs generalizing s m with
  | nil => rfl
  | cons r rs ih =>
    obtain ⟨hpass, hpost⟩ := @handle_redis env ip r.leaf r.time s (m ()) hkey hpos
    have htotal := Counter.hit_pos env.rateLimitWindowMs r.time (m ())
    have hrest := @ih ((limiterOf env true r.leaf).handle ip r.time s).2
      (Function.update m () (some (Counter.hit env.rateLimitWindowMs r.time (m ()))))
      (by rw [hpost, Function.update_self]; rfl)
      (by rw [Function.update_self]; exact fun x hx => Option.mem_some_iff.mp hx ▸ htotal)
    rw [passed_cons, hpass, hrest]
    rfl

/-- The requests that pass without Redis are those that the counter of their endpoint numbers up to
the maximum. -/
theorem passed_memory {rs : List Request} {s : Stores} {m : Leaf → Option Counter}
    (hmem : ∀ leaf : Leaf, s.memory (emailAuthLeaves.idxOf leaf.val) ip = m leaf) :
    passed env false ip s rs =
      (replies env.rateLimitWindowMs m (rs.map fun r => (r.leaf, r.time))).map
        fun n => decide (n ≤ env.authEmailRateLimitMax) := by
  induction rs generalizing s m with
  | nil => rfl
  | cons r rs ih =>
    have hhandle := @handle_memory env ip r.leaf r.time s _ (hmem r.leaf)
    let c := Counter.hit env.rateLimitWindowMs r.time (m r.leaf)
    have hkept : ∀ leaf : Leaf,
        (s.keep (emailAuthLeaves.idxOf r.leaf.val) ip c).memory
          (emailAuthLeaves.idxOf leaf.val) ip =
          Function.update m r.leaf (some c) leaf := by
      intro leaf
      show Function.update s.memory _ (Function.update _ ip (some c)) _ ip = _
      by_cases hleaf : leaf = r.leaf
      · subst hleaf
        rw [Function.update_self, Function.update_self, Function.update_self]
      · -- Different endpoints have different limiters.
        have hne : emailAuthLeaves.idxOf leaf.val ≠ emailAuthLeaves.idxOf r.leaf.val := fun heq =>
          hleaf (Leaf.ext ((List.idxOf_inj leaf.mem).mp heq))
        rw [Function.update_of_ne hne, Function.update_of_ne hleaf, hmem leaf]
    have hrest := @ih (s.keep (emailAuthLeaves.idxOf r.leaf.val) ip c)
      (Function.update m r.leaf (some c)) hkept
    rw [passed_cons, hhandle]
    exact congrArg (decide (c.totalHits ≤ env.authEmailRateLimitMax) :: ·) hrest

/-- Within one window, each counter numbers its requests in turn. -/
theorem getElem?_replies_requests {ι : Type} [DecidableEq ι] (f : Request → ι) {rs : List Request}
    (h : InOneWindow env rs) (k : ℕ) :
    (replies env.rateLimitWindowMs (fun _ => none) (rs.map fun r => (f r, r.time)))[k]? =
      rs[k]?.map fun r => ((rs.map f).take k).count (f r) + 1 := by
  cases rs with
  | nil => rfl
  | cons first rs =>
    have hwithin : ∀ x ∈ (first :: rs).map fun r => (f r, r.time),
        first.time ≤ x.2 ∧ x.2 < first.time + env.rateLimitWindowMs := by
      intro x hx
      obtain ⟨r, hr, rfl⟩ := List.mem_map.mp hx
      exact h first rfl r hr
    have hnone : ∀ i : ι, ∀ c ∈ (none : Option Counter),
        first.time + env.rateLimitWindowMs ≤ c.resetTime := fun _ c hc =>
      (Option.not_mem_none c hc).elim
    have hf : ((first :: rs).map fun r => (f r, r.time)).map (·.1) = (first :: rs).map f := by
      rw [List.map_map]
      rfl
    rw [getElem?_replies hnone hwithin k, List.getElem?_map, Option.map_map, List.map_take, hf]
    refine congrArg ((first :: rs)[k]?.map ·) (funext fun r => ?_)
    show latest none + _ + 1 = _
    rw [latest, Nat.zero_add]

/-- Within one window, a request passes with Redis if fewer requests than the maximum came before
it. -/
theorem getElem?_passed_redis {rs : List Request} (h : InOneWindow env rs) (k : ℕ) :
    (passed env true ip {} rs)[k]? =
      rs[k]?.map fun _ => decide (k < env.authEmailRateLimitMax) := by
  have hpassed := @passed_redis env ip rs {} (fun _ => none) rfl
    fun x hx => (Option.not_mem_none x hx).elim
  rw [hpassed, List.getElem?_map, getElem?_replies_requests (fun _ => ()) h, Option.map_map]
  cases hr : rs[k]? with
  | none => rfl
  | some r =>
    have hk : k < rs.length := (List.getElem?_eq_some_iff.mp hr).1
    have hcount : ((rs.map fun _ => ()).take k).count () = k := by
      rw [← List.map_take, List.map_const', List.count_replicate_self, List.length_take]
      omega
    simp only [Option.map_some, Function.comp_apply, hcount, Nat.succ_le_iff]

/-- Within one window, a request passes without Redis if fewer requests than the maximum came before
it to the same endpoint. -/
theorem getElem?_passed_memory {rs : List Request} (h : InOneWindow env rs) (k : ℕ) :
    (passed env false ip {} rs)[k]? = rs[k]?.map fun r =>
      decide (((rs.map (·.leaf)).take k).count r.leaf < env.authEmailRateLimitMax) := by
  have hpassed := @passed_memory env ip rs {} (fun _ => none) fun _ => rfl
  rw [hpassed, List.getElem?_map, getElem?_replies_requests (·.leaf) h, Option.map_map]
  simp only [Function.comp_def, Nat.succ_le_iff]

/-- With Redis, no more requests pass than the maximum. -/
theorem countP_passed_redis {rs : List Request} (h : InOneWindow env rs) :
    (passed env true ip {} rs).countP id ≤ env.authEmailRateLimitMax := by
  have heq : passed env true ip {} rs =
      (List.range' 1 rs.length).map fun n => decide (n ≤ env.authEmailRateLimitMax) := by
    apply List.ext_getElem?
    intro k
    rw [getElem?_passed_redis h, List.getElem?_map]
    by_cases hk : k < rs.length
    · rw [List.getElem?_eq_getElem hk, List.getElem?_range' hk]
      simp only [Option.map_some, Nat.one_mul, Nat.add_comm 1, Nat.succ_le_iff]
    · have hle : rs.length ≤ k := by omega
      have hlen : (List.range' 1 rs.length).length ≤ k := by rwa [List.length_range']
      rw [List.getElem?_eq_none hle, List.getElem?_eq_none hlen]
      rfl
  have hcount := countP_range' rs.length env.authEmailRateLimitMax
  rw [heq, List.countP_map]
  simp only [Function.comp_def, id]
  omega

end

/-- Within one window the email endpoints share one budget, if and only if there are no more
requests than the maximum or all of them go to one endpoint. -/
theorem sharesBudget_iff {env : Env} {ip : String} {rs : List Request} (h : InOneWindow env rs) :
    SharesBudget env ip rs ↔
      rs.length ≤ env.authEmailRateLimitMax ∨ ∃ leaf, ∀ r ∈ rs, r.leaf = leaf := by
  have hranks := @forall_rank_iff _ _ (rs.map (·.leaf)) _ env.max_pos
  -- Request by request, one limiter ranks by position and the others by position within a leaf.
  have hsame : passed env true ip {} rs = passed env false ip {} rs ↔
      ∀ k, ∀ i ∈ (rs.map (·.leaf))[k]?, k < env.authEmailRateLimitMax ↔
        ((rs.map (·.leaf)).take k).count i < env.authEmailRateLimitMax := by
    constructor
    · intro heq k i hi
      rw [List.getElem?_map] at hi
      obtain ⟨r, hr, rfl⟩ := Option.map_eq_some_iff.mp hi
      have hk := congrArg (·[k]?) heq
      simp only [getElem?_passed_redis h, getElem?_passed_memory h, hr, Option.map_some,
        Option.some.injEq, decide_eq_decide] at hk
      exact hk
    · intro hall
      apply List.ext_getElem?
      intro k
      rw [getElem?_passed_redis h, getElem?_passed_memory h]
      cases hr : rs[k]? with
      | none => rfl
      | some r =>
        have hi : r.leaf ∈ (rs.map (·.leaf))[k]? := by
          rw [List.getElem?_map, hr]
          rfl
        exact congrArg some (decide_eq_decide.mpr (hall k r.leaf hi))
  have hshares : SharesBudget env ip rs ↔ passed env true ip {} rs = passed env false ip {} rs := by
    constructor
    · exact fun hs => hs.2
    · intro heq
      refine ⟨fun redis => ?_, heq⟩
      cases redis with
      | true => exact countP_passed_redis h
      | false => exact heq ▸ countP_passed_redis h
  rw [hshares, hsame, hranks, List.length_map]
  simp only [List.mem_map, forall_exists_index, and_imp, forall_apply_eq_imp_iff₂]

/-- With the default settings, five requests to verify an email address and one to reset a
password. -/
def sixRequests : List Request :=
  List.replicate 5 ⟨⟨"verify-email", by decide⟩, 0⟩ ++ [⟨⟨"reset-password", by decide⟩, 1000⟩]

/-- With Redis five of six requests to two endpoints pass, and without it all six. -/
theorem not_sharesBudget_sixRequests :
    InOneWindow {} sixRequests ∧ ¬SharesBudget {} "ip" sixRequests ∧
      (passed {} true "ip" {} sixRequests).countP id = 5 ∧
      (passed {} false "ip" {} sixRequests).countP id = 6 := by
  decide +kernel

/-- With the default settings, five requests to the four endpoints. -/
def fiveRequests : List Request :=
  [⟨⟨"verify-email", by decide⟩, 0⟩, ⟨⟨"resend-verification", by decide⟩, 1000⟩,
    ⟨⟨"forgot-password", by decide⟩, 2000⟩, ⟨⟨"reset-password", by decide⟩, 3000⟩,
    ⟨⟨"verify-email", by decide⟩, 4000⟩]

/-- All five pass, with either store. -/
theorem sharesBudget_iff_fiveRequests : SharesBudget {} "ip" fiveRequests :=
  (sharesBudget_iff (by decide +kernel)).mpr (.inl (by decide))

end SplitBill.RateLimit
