import Mathlib.Data.List.Sort
import Mathlib.Logic.Function.Basic

/-!
# A Redis store

The part of Redis that coordination on top of it uses: string keys with an expiry, sorted sets, and
two scripts that Redis runs atomically. Keys and values are parameters. Time is in milliseconds, and
a key with an expiry is missing from the moment its time to live has elapsed. A key that is missing
for that reason stays in the model's table, where nothing can see it, until it is written again.
-/

namespace SplitBill

/-- The value of a string key, and the instant from which the key is missing. -/
structure Slot (V : Type) where
  /-- The stored string. -/
  value : V
  /-- The first instant at which the key no longer exists; none for a key without expiry. -/
  expiresAt : Option ℕ

/-- The key still exists at the instant `now`. -/
def Slot.live {V : Type} (s : Slot V) (now : ℕ) : Bool :=
  match s.expiresAt with
  | none => true
  | some t => now < t

/-- A member of a sorted set with its score. -/
structure Member where
  /-- The score. -/
  score : ℕ
  /-- The member. -/
  id : ℕ
  deriving DecidableEq

/-- The order of a sorted set: by score, and among equal scores by member. -/
def Member.before (a b : Member) : Prop := a.score < b.score ∨ a.score = b.score ∧ a.id ≤ b.id

instance : DecidableRel Member.before := fun a b => by unfold Member.before; infer_instance

/-- A Redis database. -/
structure Redis (K V : Type) where
  /-- The string keys. -/
  strings : K → Option (Slot V) := fun _ => none
  /-- The sorted sets, each in its order. -/
  zsets : K → List Member := fun _ => []

/-- The commands, with the scripts that are evaluated as one command. -/
inductive Command (K V : Type)
  /-- `GET`. -/
  | get (k : K)
  /-- `SET … PX`. -/
  | set (k : K) (v : V) (ttlMs : ℕ)
  /-- `SET … PX … NX`. -/
  | setNx (k : K) (v : V) (ttlMs : ℕ)
  /-- `DEL`. -/
  | del (ks : List K)
  /-- `ZADD`. -/
  | zadd (k : K) (score member : ℕ)
  /-- `ZREM`. -/
  | zrem (k : K) (member : ℕ)
  /-- The script that returns the first member of `ZRANGEBYSCORE k -inf max LIMIT 0 1`. -/
  | firstDue (k : K) (max : ℕ)
  /-- The script that deletes the key if it holds `v`. -/
  | delIfEq (k : K) (v : V)

/-- What a command answers. `SET … NX` answers whether it set the key, the deleting commands how
many entries they removed, `ZADD` how many it added. -/
abbrev Command.Res {K V : Type} : Command K V → Type
  | get _ => Option V
  | set _ _ _ => Unit
  | setNx _ _ _ => Bool
  | del _ => ℕ
  | zadd _ _ _ => ℕ
  | zrem _ _ => ℕ
  | firstDue _ _ => Option ℕ
  | delIfEq _ _ => Bool

/-- The keys that a command names. -/
def Command.keys {K V : Type} : Command K V → List K
  | get k => [k]
  | set k _ _ => [k]
  | setNx k _ _ => [k]
  | del ks => ks
  | zadd k _ _ => [k]
  | zrem k _ => [k]
  | firstDue k _ => [k]
  | delIfEq k _ => [k]

/-- The command does not write the string key. -/
def Command.LeavesKey {K V : Type} (key : K) : Command K V → Prop
  | set k _ _ => k ≠ key
  | setNx k _ _ => k ≠ key
  | del ks => key ∉ ks
  | delIfEq k _ => k ≠ key
  | _ => True

/-- A command does not write a key that it does not name. -/
theorem Command.leavesKey_of_not_mem_keys {K V : Type} {key : K} {c : Command K V}
    (h : key ∉ c.keys) : c.LeavesKey key := by
  cases c with
  | del ks => exact h
  | set k v ttlMs => exact fun hk => h (List.mem_singleton.mpr hk.symm)
  | setNx k v ttlMs => exact fun hk => h (List.mem_singleton.mpr hk.symm)
  | delIfEq k v => exact fun hk => h (List.mem_singleton.mpr hk.symm)
  | _ => trivial

namespace Redis

variable {K V : Type}

/-- The value of a string key at the instant `now`. -/
def lookup (r : Redis K V) (now : ℕ) (k : K) : Option V :=
  (r.strings k).bind fun s => if s.live now then some s.value else none

/-- The members of a sorted set, without their scores. -/
def members (r : Redis K V) (k : K) : List ℕ := (r.zsets k).map (·.id)

/-- A sorted set without a member. -/
def without (s : List Member) (id : ℕ) : List Member := s.filter (·.id ≠ id)

variable [DecidableEq K]

/-- Writes a string key. -/
def write (r : Redis K V) (k : K) (s : Option (Slot V)) : Redis K V :=
  { r with strings := Function.update r.strings k s }

/-- Replaces a sorted set. -/
def writeSet (r : Redis K V) (k : K) (s : List Member) : Redis K V :=
  { r with zsets := Function.update r.zsets k s }

/-- Deletes string keys. -/
def remove (r : Redis K V) (ks : List K) : Redis K V :=
  { r with strings := fun k => if k ∈ ks then none else r.strings k }

/-- The answer and the effect of a command at the instant `now`. -/
def exec [BEq V] (now : ℕ) : (c : Command K V) → Redis K V → c.Res × Redis K V
  | .get k, r => (r.lookup now k, r)
  | .set k v ttlMs, r => ((), r.write k (some ⟨v, some (now + ttlMs)⟩))
  | .setNx k v ttlMs, r =>
    if (r.lookup now k).isSome then (false, r)
    else (true, r.write k (some ⟨v, some (now + ttlMs)⟩))
  | .del ks, r => (ks.countP fun k => (r.lookup now k).isSome, r.remove ks)
  | .zadd k score member, r =>
    ((if (r.zsets k).any (·.id = member) then 0 else 1 : ℕ),
      r.writeSet k ((without (r.zsets k) member).orderedInsert Member.before ⟨score, member⟩))
  | .zrem k member, r =>
    ((if (r.zsets k).any (·.id = member) then 1 else 0 : ℕ),
      r.writeSet k (without (r.zsets k) member))
  | .firstDue k max, r => (((r.zsets k).find? (·.score ≤ max)).map (·.id), r)
  | .delIfEq k v, r =>
    if r.lookup now k == some v then (true, r.remove [k]) else (false, r)

section Effects

variable (r : Redis K V)

/-- A write replaces the string of its key. -/
@[simp] theorem write_strings (k : K) (s : Option (Slot V)) :
    (r.write k s).strings = Function.update r.strings k s := rfl

/-- A write of a string leaves the sorted sets. -/
@[simp] theorem write_zsets (k : K) (s : Option (Slot V)) : (r.write k s).zsets = r.zsets := rfl

/-- A write of a sorted set leaves the strings. -/
@[simp] theorem writeSet_strings (k : K) (s : List Member) :
    (r.writeSet k s).strings = r.strings := rfl

/-- A write replaces the sorted set of its key. -/
@[simp] theorem writeSet_zsets (k : K) (s : List Member) :
    (r.writeSet k s).zsets = Function.update r.zsets k s := rfl

/-- `DEL` removes the strings of its keys. -/
@[simp] theorem remove_strings (ks : List K) (k : K) :
    (r.remove ks).strings k = if k ∈ ks then none else r.strings k := rfl

/-- `DEL` of strings leaves the sorted sets. -/
@[simp] theorem remove_zsets (ks : List K) : (r.remove ks).zsets = r.zsets := rfl

end Effects

/-- `SET` sets its key. -/
theorem exec_set_self [BEq V] (r : Redis K V) (now : ℕ) (k : K) (v : V) (ttlMs : ℕ) :
    (r.exec now (.set k v ttlMs)).2.strings k = some ⟨v, some (now + ttlMs)⟩ :=
  Function.update_self _ _ _

/-- `SET … NX` sets a missing key, and leaves one that exists. -/
theorem exec_setNx [BEq V] (r : Redis K V) (now : ℕ) (k : K) (v : V) (ttlMs : ℕ) :
    r.lookup now k = none ∧ r.exec now (.setNx k v ttlMs) =
        (true, r.write k (some ⟨v, some (now + ttlMs)⟩)) ∨
      (r.lookup now k).isSome = true ∧ r.exec now (.setNx k v ttlMs) = (false, r) := by
  by_cases h : (r.lookup now k).isSome = true
  · exact .inr ⟨h, if_pos h⟩
  · exact .inl ⟨Option.not_isSome_iff_eq_none.mp h, if_neg h⟩

/-- The script deletes a key that holds the value, and leaves any other. -/
theorem exec_delIfEq [BEq V] (r : Redis K V) (now : ℕ) (k : K) (v : V) :
    (r.lookup now k == some v) = true ∧ r.exec now (.delIfEq k v) = (true, r.remove [k]) ∨
      r.exec now (.delIfEq k v) = (false, r) := by
  by_cases h : (r.lookup now k == some v) = true
  · exact .inl ⟨h, if_pos h⟩
  · exact .inr (if_neg h)

/-- A command leaves a key that it does not write. -/
theorem exec_strings_of_leavesKey [BEq V] {now : ℕ} {key : K} {c : Command K V} (r : Redis K V)
    (h : c.LeavesKey key) : (r.exec now c).2.strings key = r.strings key := by
  cases c with
  | get k => rfl
  | set k v ttlMs => exact Function.update_of_ne (Ne.symm h) _ _
  | setNx k v ttlMs =>
    rcases r.exec_setNx now k v ttlMs with ⟨-, hexec⟩ | ⟨-, hexec⟩
    · rw [hexec]
      exact Function.update_of_ne (Ne.symm h) _ _
    · rw [hexec]
  | del ks => exact if_neg h
  | zadd k score member => rfl
  | zrem k member => rfl
  | firstDue k max => rfl
  | delIfEq k v =>
    rcases r.exec_delIfEq now k v with ⟨-, hexec⟩ | hexec
    · rw [hexec]
      exact if_neg fun hk => h (List.mem_singleton.mp hk).symm
    · rw [hexec]

/-- A command leaves the string keys and the sorted sets that it does not name. -/
theorem exec_of_not_mem_keys [BEq V] {now : ℕ} {key : K} {c : Command K V} (r : Redis K V)
    (h : key ∉ c.keys) : (r.exec now c).2.strings key = r.strings key ∧
      (r.exec now c).2.zsets key = r.zsets key := by
  refine ⟨exec_strings_of_leavesKey r (Command.leavesKey_of_not_mem_keys h), ?_⟩
  cases c with
  | zadd k score member => exact Function.update_of_ne (fun hk => h (List.mem_singleton.mpr hk)) _ _
  | zrem k member => exact Function.update_of_ne (fun hk => h (List.mem_singleton.mpr hk)) _ _
  | setNx k v ttlMs =>
    rcases r.exec_setNx now k v ttlMs with ⟨-, hexec⟩ | ⟨-, hexec⟩ <;> rw [hexec]
    rfl
  | delIfEq k v =>
    rcases r.exec_delIfEq now k v with ⟨-, hexec⟩ | hexec <;> rw [hexec]
    rfl
  | _ => rfl

/-- Removing a member leaves the others. -/
theorem mem_without {s : List Member} {id m : ℕ} :
    m ∈ (without s id).map (·.id) ↔ m ∈ s.map (·.id) ∧ m ≠ id := by
  simp only [without, List.mem_map, List.mem_filter, decide_eq_true_eq]
  constructor
  · rintro ⟨x, ⟨hx, hne⟩, rfl⟩
    exact ⟨⟨x, hx, rfl⟩, hne⟩
  · rintro ⟨⟨x, hx, rfl⟩, hne⟩
    exact ⟨x, ⟨hx, hne⟩, rfl⟩

/-- What a command does to a sorted set: only `ZADD` and `ZREM` of the set change it. -/
theorem exec_zsets [BEq V] (r : Redis K V) (now : ℕ) (c : Command K V) (key : K) :
    (r.exec now c).2.zsets key = r.zsets key ∨
      (∃ score id, c = .zadd key score id ∧ (r.exec now c).2.zsets key =
        (without (r.zsets key) id).orderedInsert Member.before ⟨score, id⟩) ∨
      ∃ id, c = .zrem key id ∧ (r.exec now c).2.zsets key = without (r.zsets key) id := by
  -- Only `ZADD` and `ZREM` change a sorted set, and only that of their key.
  by_cases hkey : key ∈ c.keys
  · cases c with
    | zadd k score id =>
      obtain rfl := List.mem_singleton.mp hkey
      exact .inr (.inl ⟨score, id, rfl, Function.update_self _ _ _⟩)
    | zrem k id =>
      obtain rfl := List.mem_singleton.mp hkey
      exact .inr (.inr ⟨id, rfl, Function.update_self _ _ _⟩)
    | setNx k v ttlMs =>
      rcases r.exec_setNx now k v ttlMs with ⟨-, hexec⟩ | ⟨-, hexec⟩
      · rw [hexec]
        exact .inl rfl
      · rw [hexec]
        exact .inl rfl
    | delIfEq k v =>
      rcases r.exec_delIfEq now k v with ⟨-, hexec⟩ | hexec
      · rw [hexec]
        exact .inl rfl
      · rw [hexec]
        exact .inl rfl
    | get k => exact .inl rfl
    | set k v ttlMs => exact .inl rfl
    | del ks => exact .inl rfl
    | firstDue k max => exact .inl rfl
  · exact .inl (exec_of_not_mem_keys r hkey).2

/-- The members that a sorted set has after `ZADD`. -/
theorem mem_orderedInsert {s : List Member} {score id : ℕ} {m : Member}
    (hm : m ∈ (without s id).orderedInsert Member.before ⟨score, id⟩) :
    m = ⟨score, id⟩ ∨ m ∈ s := by
  rcases List.mem_cons.mp ((List.perm_orderedInsert _ _ _).mem_iff.mp hm) with rfl | hm
  · exact .inl rfl
  · exact .inr (List.mem_of_mem_filter hm)

/-- A sorted set holds a member once, and does so after every command. -/
theorem nodup_exec [BEq V] {r : Redis K V} {key : K} (h : ((r.zsets key).map (·.id)).Nodup)
    (now : ℕ) (c : Command K V) : (((r.exec now c).2.zsets key).map (·.id)).Nodup := by
  have hwithout : ∀ id, ((without (r.zsets key) id).map (·.id)).Nodup := fun id =>
    h.sublist (List.filter_sublist.map _)
  rcases r.exec_zsets now c key with hsame | ⟨score, id, -, hadded⟩ | ⟨id, -, hremoved⟩
  · rw [hsame]
    exact h
  · rw [hadded, ((List.perm_orderedInsert _ _ _).map _).nodup_iff, List.map_cons, List.nodup_cons]
    exact ⟨fun hmem => (mem_without.mp hmem).2 rfl, hwithout id⟩
  · rw [hremoved]
    exact hwithout id

omit [DecidableEq K] in
/-- Only a key that exists has a value. -/
theorem lookup_eq_some {r : Redis K V} {now : ℕ} {k : K} {v : V} :
    r.lookup now k = some v ↔ ∃ s, r.strings k = some s ∧ s.live now = true ∧ s.value = v := by
  unfold lookup
  cases r.strings k with
  | none => simp
  | some s => by_cases h : s.live now = true <;> simp [h]

/-- `ZADD` adds its member. -/
theorem mem_zadd {s : List Member} {score id m : ℕ} :
    m ∈ ((without s id).orderedInsert Member.before ⟨score, id⟩).map (·.id) ↔
      m = id ∨ m ∈ s.map (·.id) := by
  have hperm := (List.perm_orderedInsert Member.before ⟨score, id⟩ (without s id)).map (·.id)
  rw [hperm.mem_iff, List.map_cons, List.mem_cons, mem_without]
  constructor
  · rintro (rfl | ⟨hm, -⟩)
    · exact .inl rfl
    · exact .inr hm
  · rintro (rfl | hm)
    · exact .inl rfl
    · by_cases hne : m = id
      · exact .inl hne
      · exact .inr ⟨hm, hne⟩

/-- `ZADD` adds its member to the set, and no other. -/
theorem mem_members_zadd [BEq V] {r : Redis K V} (now : ℕ) {k : K} {score id m : ℕ} :
    m ∈ (r.exec now (.zadd k score id)).2.members k ↔ m = id ∨ m ∈ r.members k := by
  unfold members exec
  rw [writeSet_zsets, Function.update_self]
  exact mem_zadd

/-- `ZREM` removes its member from the set, and no other. -/
theorem mem_members_zrem [BEq V] {r : Redis K V} (now : ℕ) {k : K} {id m : ℕ} :
    m ∈ (r.exec now (.zrem k id)).2.members k ↔ m ∈ r.members k ∧ m ≠ id := by
  unfold members exec
  rw [writeSet_zsets, Function.update_self]
  exact mem_without

/-- The script returns a member of the set. -/
theorem mem_of_firstDue {s : List Member} {max m : ℕ}
    (h : (s.find? (·.score ≤ max)).map (·.id) = some m) : m ∈ s.map (·.id) := by
  obtain ⟨x, hx, rfl⟩ := Option.map_eq_some_iff.mp h
  exact List.mem_map.mpr ⟨x, List.mem_of_find?_eq_some hx, rfl⟩

end Redis

end SplitBill
