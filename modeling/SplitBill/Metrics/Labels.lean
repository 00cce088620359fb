import Mathlib.Data.List.Nodup
import SplitBill.Metrics.Route

/-!
# Bounded route labels

The label of a request should be the template of its route: the mount paths on the way to it and the
route's own path, as they are written in the code. `findMountPrefix` puts it together from the texts
that the mount paths matched last, of whichever request. These are the mount paths themselves only
if that request spelled them as the code does, which no request does with a parameter. If one of the
layers was tried in vain by another request, the label falls back to `req.baseUrl`, which is empty
once the request has left the routers.

`Orderly` says of a run that neither has happened when a response is finished (`labels_bounded`). Of
the requests themselves `AsWritten` asks that they spell the mount paths as the code does, and that
a request with a route is not overtaken by one that goes elsewhere (`orderly_of_asWritten`). The
invariant of these runs: every layer that has a path has its own mount path, and each request under
way has a path in every layer above its route, or is still in the router of its route.
-/

namespace SplitBill.Http

/-- The text that a mount path contributes. A router that is mounted at the root matches the empty
text. -/
def mountText (mount : String) : String := if mount = "/" then "" else mount

/-- The mount paths on a way, one after the other. -/
def wayText : List (ℕ × String) → String
  | [] => ""
  | m :: ms => mountText m.2 ++ wayText ms

/-- A way in two parts. -/
theorem wayText_append (ms ns : List (ℕ × String)) :
    wayText (ms ++ ns) = wayText ms ++ wayText ns := by
  induction ms with
  | nil => rw [List.nil_append, wayText, String.empty_append]
  | cons m ms ih => rw [List.cons_append, wayText, wayText, ih, String.append_assoc]

/-- The layers above a route. -/
def App.way (app : App) (r : Route) : List (ℕ × String) := (app.stack.mountsOf? r.id).getD []

/-- The template of a route. -/
def App.template (app : App) (r : Route) : String :=
  match r.path with
  | none => unmatchedRoute
  | some path => if path = "" then unmatchedRoute else withoutSlash (wayText (app.way r) ++ path)

/-! ## The walk through the stack -/

namespace Stack

variable {s : Stack} {target : ℕ} {ms : List (ℕ × String)}

/-- The routes of a stack are those with a way in it. -/
theorem mountsOf?_eq_none : s.mountsOf? target = none ↔ target ∉ s.routeIds := by
  induction s with
  | nil => exact ⟨fun _ => List.not_mem_nil, fun _ => rfl⟩
  | route r rest ih =>
    rw [mountsOf?, routeIds, List.mem_cons, not_or, ← ih]
    by_cases heq : r.id = target
    · simp [heq]
    · simp [heq, Ne.symm heq]
  | router layer mount inner rest ihInner ihRest =>
    rw [mountsOf?, routeIds, List.mem_append, not_or, ← ihInner, ← ihRest]
    cases inner.mountsOf? target with
    | none => simp
    | some ms => simp
  | handler rest ih => exact ih

/-- A route with a way is one of the stack. -/
theorem mem_routeIds (h : s.mountsOf? target = some ms) : target ∈ s.routeIds := by
  by_contra hnot
  rw [mountsOf?_eq_none.mpr hnot] at h
  cases h

/-- A way leads through layers of the stack. -/
theorem mem_mounts (h : s.mountsOf? target = some ms) {m : ℕ × String} (hm : m ∈ ms) :
    m ∈ s.mounts := by
  induction s generalizing ms with
  | nil => cases h
  | route r rest ih =>
    rw [mountsOf?] at h
    split at h
    · obtain rfl := Option.some.inj h
      cases hm
    · exact ih h hm
  -- The route is inside the router, or after it.
  | router layer mount inner rest ihInner ihRest =>
    rw [mountsOf?] at h
    cases hin : inner.mountsOf? target with
    | some ns =>
      rw [hin] at h
      obtain rfl := Option.some.inj h
      rcases List.mem_cons.mp hm with rfl | hm
      · exact List.mem_cons_self
      · exact List.mem_cons_of_mem _ (List.mem_append_left _ (ihInner hin hm))
    | none =>
      rw [hin] at h
      exact List.mem_cons_of_mem _ (List.mem_append_right _ (ihRest h hm))
  | handler rest ih => exact ih h hm

end Stack

variable {paths : ℕ → Option String} {target : ℕ}

/-- The texts that the layers of a way matched last, one after the other. -/
def pathText (paths : ℕ → Option String) : List (ℕ × String) → String
  | [] => ""
  | m :: ms => (paths m.1).getD "" ++ pathText paths ms

/-- The walk finds no route that is not in the stack. -/
theorem findMountPrefix_eq_none {s : Stack} (h : target ∉ s.routeIds) (start : String) :
    findMountPrefix paths target s start = none := by
  induction s generalizing start with
  | nil => rfl
  | route r rest ih =>
    rw [Stack.routeIds, List.mem_cons, not_or] at h
    rw [findMountPrefix, if_neg (Ne.symm h.1)]
    exact ih h.2 start
  | router layer mount inner rest ihInner ihRest =>
    rw [Stack.routeIds, List.mem_append, not_or] at h
    rw [findMountPrefix]
    cases paths layer with
    | none => exact ihRest h.2 start
    | some path =>
      simp only [ihInner h.1]
      exact ihRest h.2 start
  | handler rest ih => exact ih h start

/-- What the walk finds below a layer: it goes on with the layer's path, if there is one, and the
route is not found further on. -/
theorem findMountPrefix_router {layer : ℕ} {mount : String} {inner rest : Stack}
    {ns : List (ℕ × String)} (hnone : target ∉ rest.routeIds)
    (hns : ∀ start, findMountPrefix paths target inner start =
      if ∀ m ∈ ns, (paths m.1).isSome = true then some (start ++ pathText paths ns) else none)
    (start : String) : findMountPrefix paths target (.router layer mount inner rest) start =
      if ∀ m ∈ (layer, mount) :: ns, (paths m.1).isSome = true then
        some (start ++ pathText paths ((layer, mount) :: ns))
      else none := by
  simp only [List.forall_mem_cons]
  rw [findMountPrefix]
  -- A layer whose path is not readable is passed over, and the route is not after it.
  cases hpath : paths layer with
  | none =>
    rw [if_neg fun h => by cases h.1]
    exact findMountPrefix_eq_none hnone start
  | some path =>
    have hinner := hns (start ++ path)
    -- Inside the router the search succeeds where every layer on the way has a path.
    by_cases hall : ∀ m ∈ ns, (paths m.1).isSome = true
    · rw [if_pos hall] at hinner
      rw [if_pos ⟨rfl, hall⟩]
      simp only [hinner]
      rw [pathText, hpath, Option.getD_some, String.append_assoc]
    · rw [if_neg hall] at hinner
      rw [if_neg fun h => hall h.2]
      simp only [hinner]
      exact findMountPrefix_eq_none hnone start

/-- What the walk finds: what the layers on the way to the route matched last, if every one of them
has a path. -/
theorem findMountPrefix_eq {s : Stack} (hnodup : s.routeIds.Nodup) {ms : List (ℕ × String)}
    (h : s.mountsOf? target = some ms) (start : String) :
    findMountPrefix paths target s start =
      if ∀ m ∈ ms, (paths m.1).isSome = true then some (start ++ pathText paths ms) else none := by
  induction s generalizing start ms with
  | nil => cases h
  | route r rest ih =>
    rw [Stack.mountsOf?] at h
    rw [findMountPrefix]
    split at h
    next heq =>
      obtain rfl := Option.some.inj h
      rw [if_pos heq, if_pos (fun m hm => by cases hm), pathText, String.append_empty]
    next hne =>
      rw [if_neg hne]
      exact ih (List.nodup_cons.mp hnodup).2 h start
  | router layer mount inner rest ihInner ihRest =>
    rw [Stack.routeIds, List.nodup_append] at hnodup
    obtain ⟨hinner, hrest, hdisjoint⟩ := hnodup
    rw [Stack.mountsOf?] at h
    cases hin : inner.mountsOf? target with
    | some ns =>
      rw [hin] at h
      obtain rfl := Option.some.inj h
      -- The ids are distinct, so that the route is not looked for after its router.
      have hnone : target ∉ rest.routeIds := fun hmem =>
        hdisjoint target (Stack.mem_routeIds hin) target hmem rfl
      exact findMountPrefix_router hnone (ihInner hinner hin) start
    | none =>
      rw [hin] at h
      have hrest' := ihRest hrest h start
      rw [findMountPrefix]
      -- The route is not inside the router, whether or not the router was entered.
      cases paths layer with
      | none => exact hrest'
      | some path =>
        have hnone : findMountPrefix paths target inner (start ++ path) = none :=
          findMountPrefix_eq_none (Stack.mountsOf?_eq_none.mp hin) _
        simp only [hnone]
        exact hrest'
  | handler rest ih => exact ih hnodup h start

/-- Layers that have their own mount paths. -/
theorem pathText_eq_wayText {ms : List (ℕ × String)}
    (h : ∀ m ∈ ms, paths m.1 = some (mountText m.2)) : pathText paths ms = wayText ms := by
  induction ms with
  | nil => rfl
  | cons m ms ih =>
    obtain ⟨hm, hms⟩ := List.forall_mem_cons.mp h
    rw [pathText, wayText, hm, Option.getD_some, ih hms]

/-! ## Places in the application -/

/-- The layers from which `rest` begins, on the way `ms` through the application. -/
inductive Stack.At (app : Stack) : List (ℕ × String) → Stack → Prop
  | root : At app [] app
  | afterRoute {ms : List (ℕ × String)} {r : Route} {rest : Stack} (h : At app ms (.route r rest)) :
      At app ms rest
  | afterHandler {ms : List (ℕ × String)} {rest : Stack} (h : At app ms (.handler rest)) :
      At app ms rest
  | after {ms : List (ℕ × String)} {layer : ℕ} {mount : String} {inner rest : Stack}
      (h : At app ms (.router layer mount inner rest)) : At app ms rest
  | enter {ms : List (ℕ × String)} {layer : ℕ} {mount : String} {inner rest : Stack}
      (h : At app ms (.router layer mount inner rest)) : At app (ms ++ [(layer, mount)]) inner

/-- The routes that follow a place are reached through it. -/
theorem Stack.At.routes {app rest : Stack} {ms : List (ℕ × String)} (h : app.At ms rest)
    (hnodup : app.routeIds.Nodup) : rest.routeIds.Nodup ∧ ∀ target ∈ rest.routeIds,
      app.mountsOf? target = (rest.mountsOf? target).map (ms ++ ·) := by
  induction h with
  | root => exact ⟨hnodup, fun target _ => by cases app.mountsOf? target <;> rfl⟩
  -- An identifier occurs once, so the route that was passed is not the one looked for.
  | @afterRoute ms r rest _ ih =>
    obtain ⟨hids, hway⟩ := ih
    rw [routeIds, List.nodup_cons] at hids
    refine ⟨hids.2, fun target hmem => ?_⟩
    have hne : r.id ≠ target := fun heq => hids.1 (heq ▸ hmem)
    rw [hway target (List.mem_cons_of_mem _ hmem), mountsOf?, if_neg hne]
  | afterHandler _ ih => exact ih
  | @after ms layer mount inner rest _ ih =>
    obtain ⟨hids, hway⟩ := ih
    rw [routeIds, List.nodup_append] at hids
    refine ⟨hids.2.1, fun target hmem => ?_⟩
    have hnot : target ∉ inner.routeIds := fun hin => hids.2.2 target hin target hmem rfl
    rw [hway target (List.mem_append_right _ hmem), mountsOf?, mountsOf?_eq_none.mpr hnot]
  | @enter ms layer mount inner rest _ ih =>
    obtain ⟨hids, hway⟩ := ih
    rw [routeIds, List.nodup_append] at hids
    refine ⟨hids.1, fun target hmem => ?_⟩
    rw [hway target (List.mem_append_left _ hmem), mountsOf?]
    cases hin : inner.mountsOf? target with
    | none => exact absurd hmem (mountsOf?_eq_none.mp hin)
    | some ns => simp

/-- The way to the route of the next layer. -/
theorem App.way_eq {app : App} {ms : List (ℕ × String)} {r : Route} {rest : Stack}
    (h : app.stack.At ms (.route r rest)) : app.stack.mountsOf? r.id = some ms := by
  rw [(h.routes app.routes_nodup).2 r.id List.mem_cons_self, Stack.mountsOf?, if_pos rfl,
    Option.map_some, List.append_nil]

/-- The next layer is a layer of the application. -/
theorem Stack.At.mem_mounts {app rest : Stack} {ms : List (ℕ × String)} (h : app.At ms rest) :
    ∀ m ∈ rest.mounts, m ∈ app.mounts := by
  induction h with
  | root => exact fun m hm => hm
  | afterRoute _ ih => exact ih
  | afterHandler _ ih => exact ih
  | after _ ih => exact fun m hm => ih m (List.mem_cons_of_mem _ (List.mem_append_right _ hm))
  | enter _ ih => exact fun m hm => ih m (List.mem_cons_of_mem _ (List.mem_append_left _ hm))

/-! ## Runs -/

variable {E : Express}

/-- The labels of the measured requests are bounded: requests for one route have one label, and it
is the template of the route, which is made of the patterns in the code. -/
structure LabelsBounded (app : App) (s : Server E) : Prop where
  same : ∀ r l l', (some r, l) ∈ s.labels → (some r, l') ∈ s.labels → l = l'
  template : ∀ r l, (some r, l) ∈ s.labels → l = app.template r

/-- The layers above the route of a request have matched last what is written in the code; or one of
them has matched nothing, and the request is still in the router of its route, which it has entered
through what is written in the code. -/
def Legible (app : App) (paths : ℕ → Option String) (q : Request E) : Prop :=
  ∀ r ∈ q.route, (∀ m ∈ app.way r, paths m.1 = some (mountText m.2)) ∨
    (∃ m ∈ app.way r, paths m.1 = none) ∧ q.baseUrl = wayText (app.way r)

instance (app : App) (paths : ℕ → Option String) (q : Request E) :
    Decidable (Legible app paths q) :=
  inferInstanceAs (Decidable (∀ r ∈ q.route, (∀ m ∈ app.way r, paths m.1 = some (mountText m.2)) ∨
    (∃ m ∈ app.way r, paths m.1 = none) ∧ q.baseUrl = wayText (app.way r)))

/-- A response is finished only while the way to its route can be read off the layers. -/
def Orderly (app : App) (s : Server E) : Event E → Prop
  | .finish i => ∀ q ∈ s.requests[i]?, Legible app s.paths q
  | _ => True

instance (app : App) (s : Server E) : DecidablePred (Orderly app s)
  | .finish i => inferInstanceAs (Decidable (∀ q ∈ s.requests[i]?, Legible app s.paths q))
  | .arrive _ => .isTrue trivial
  | .next _ _ => .isTrue trivial

/-- A request is in routers of the application, and its route is one of the application. -/
structure Routed (app : App) (q : Request E) : Prop where
  frames : ∀ f ∈ q.frames, ∃ ms, app.stack.At ms f.rest
  route : ∀ r ∈ q.route, (app.stack.mountsOf? r.id).isSome = true

section Routed

variable {app : App} {q : Request E}

/-- A request that goes on within its router. -/
theorem Routed.advance {f : Frame E} {outer : List (Frame E)} (h : Routed app q)
    (hframes : q.frames = f :: outer) {rest : Stack}
    (hrest : ∀ ms, app.stack.At ms f.rest → app.stack.At ms rest) :
    Routed app { q with frames := { f with rest } :: outer } := by
  refine ⟨fun g hg => ?_, h.route⟩
  rcases List.mem_cons.mp hg with rfl | hg
  · obtain ⟨ms, hms⟩ := h.frames f (hframes ▸ List.mem_cons_self)
    exact ⟨ms, hrest ms hms⟩
  · exact h.frames g (hframes ▸ List.mem_cons_of_mem _ hg)

/-- The next layer is one of the application. -/
theorem Routed.tryLayer (h : Routed app q) (paths : ℕ → Option String) (failing : Bool) :
    Routed app (tryLayer paths q failing).2 := by
  cases hframes : q.frames with
  | nil =>
    rw [Http.tryLayer, hframes]
    exact h
  | cons f outer =>
    obtain ⟨ms, hms⟩ := h.frames f (hframes ▸ List.mem_cons_self)
    cases hrest : f.rest with
    | nil =>
      simp only [Http.tryLayer, hframes, hrest]
      exact ⟨fun g hg => h.frames g (hframes ▸ List.mem_cons_of_mem _ hg), h.route⟩
    | handler rest =>
      simp only [Http.tryLayer, hframes, hrest]
      exact h.advance hframes fun ms hms => .afterHandler (hrest ▸ hms)
    | route r rest =>
      -- Whatever becomes of the layer, the frame goes on behind it.
      have hadvance : Routed app { q with frames := { f with rest } :: outer } :=
        h.advance hframes fun ms hms => .afterRoute (hrest ▸ hms)
      simp only [Http.tryLayer, hframes, hrest]
      split
      · refine ⟨hadvance.frames, ?_⟩
        rintro _ ⟨⟩
        rw [App.way_eq (hrest ▸ hms)]
        rfl
      · exact hadvance
    | router layer mount inner rest =>
      have hadvance : Routed app { q with frames := { f with rest } :: outer } :=
        h.advance hframes fun ms hms => .after (hrest ▸ hms)
      simp only [Http.tryLayer, hframes, hrest]
      cases E.mount mount f.url with
      | none => exact hadvance
      | some found =>
        refine ⟨fun g hg => ?_, h.route⟩
        have hentered : g ∈ ⟨inner, found.2, f.baseUrl ++ dropSlash found.1⟩ ::
            { f with rest } :: outer := by
          cases failing with
          | true => exact List.mem_cons_of_mem _ hg
          | false => exact hg
        -- A frame of the router was entered, or only passed.
        rcases List.mem_cons.mp hentered with rfl | hg
        · exact ⟨ms ++ [(layer, mount)], .enter (hrest ▸ hms)⟩
        · exact hadvance.frames g hg

/-- The label of a request whose way can be read off the layers. -/
theorem resolveRouteTemplate_eq (hrouted : Routed app q) (hq : Legible app paths q) {r : Route}
    (hr : q.route = some r) :
    resolveRouteTemplate paths app.stack q.route q.baseUrl = app.template r := by
  rw [hr]
  cases hpath : r.path with
  | none => simp only [resolveRouteTemplate, App.template, hpath]
  | some path =>
    obtain ⟨ms, hms⟩ := Option.isSome_iff_exists.mp (hrouted.route r hr)
    have hway : app.way r = ms := by rw [App.way, hms, Option.getD_some]
    -- The search gives the way, or it fails and the base URL is the way.
    have hfound : (findMountPrefix paths r.id app.stack "").getD q.baseUrl = wayText ms := by
      rw [findMountPrefix_eq app.routes_nodup hms]
      rcases hq r hr with hall | ⟨⟨m, hm, hnone⟩, hbase⟩
      · rw [hway] at hall
        have hsome : ∀ m ∈ ms, (paths m.1).isSome = true := by
          intro m hm
          rw [hall m hm]
          rfl
        rw [if_pos hsome, Option.getD_some, String.empty_append, pathText_eq_wayText hall]
      · rw [hway] at hm hbase
        have hnot : ¬∀ m ∈ ms, (paths m.1).isSome = true := by
          intro hsome
          have hm' := hsome m hm
          rw [hnone] at hm'
          cases hm'
        rw [if_neg hnot, Option.getD_none, hbase]
    simp only [resolveRouteTemplate, App.template, hpath, hfound, hway]

end Routed

/-- Every request is in routers of the application. -/
theorem Reaches.routed {app : App} {allow : Server E → Event E → Prop} {s : Server E}
    (h : Reaches app allow s) : ∀ q ∈ s.requests, Routed app q := by
  induction h with
  | start =>
    intro q hq
    cases hq
  | @step s s' e _ _ hs ih =>
    cases e with
    | arrive url =>
      obtain rfl := Option.some.inj hs
      intro q hq
      rcases List.mem_append.mp hq with hq | hq
      · exact ih q hq
      · obtain rfl := List.mem_singleton.mp hq
        refine ⟨fun f hf => ?_, fun r hr => by cases hr⟩
        obtain rfl := List.mem_singleton.mp hf
        exact ⟨[], .root⟩
    | next i failing =>
      obtain ⟨q, hq, rfl⟩ := Server.handle_next hs
      intro q' hq'
      rcases List.mem_or_eq_of_mem_set hq' with hq' | rfl
      · exact ih q' hq'
      -- Only the request that moves can leave its way.
      · exact (ih q (List.mem_of_getElem? hq)).tryLayer s.paths failing
    | finish i =>
      obtain ⟨q, hq, -, rfl⟩ := Server.handle_finish hs
      intro q' hq'
      rcases List.mem_or_eq_of_mem_set hq' with hq' | rfl
      · exact ih q' hq'
      · obtain ⟨hframes, hroute⟩ := ih q (List.mem_of_getElem? hq)
        exact ⟨hframes, hroute⟩

/-! ## Requests that spell the mount paths as they are written -/

/-- As long as the request is under way, every layer above its route has a path. -/
def Covered (app : App) (paths : ℕ → Option String) (q : Request E) : Prop :=
  q.finished = false → ∀ r ∈ q.route, ∀ m ∈ app.way r, (paths m.1).isSome = true

/-- A mount path that matches is spelled as in the code. A mount path that does not match is above
no route of a request under way, or that request is still in the router of its route. A request with
a route that leaves a router or enters another one is covered. -/
def AsWritten (app : App) (s : Server E) : Event E → Prop
  | .next i failing =>
    match s.requests[i]? with
    | none => True
    | some q =>
      match q.frames with
      | [] => True
      | f :: _ =>
        match f.rest with
        | .nil => Covered app s.paths q
        | .router layer mount _ _ =>
          match E.mount mount f.url with
          | some (text, _) => text = mountText mount ∧ dropSlash text = text ∧
              (failing = false → Covered app s.paths q)
          | none => ∀ q' ∈ s.requests, q'.finished = false → ∀ r ∈ q'.route,
              layer ∈ (app.way r).map (·.1) → q'.baseUrl = wayText (app.way r)
        | _ => True
  | _ => True

/-- A layer that has a path has its own mount path. -/
def Spelled (app : App) (paths : ℕ → Option String) : Prop :=
  ∀ m ∈ app.stack.mounts, ∀ text, paths m.1 = some text → text = mountText m.2

/-- A request is where its `baseUrl` says, and its route is one of the application. -/
structure Placed (app : App) (q : Request E) : Prop where
  frames : ∀ f ∈ q.frames, ∃ ms, app.stack.At ms f.rest ∧ f.baseUrl = wayText ms
  route : ∀ r ∈ q.route, (app.stack.mountsOf? r.id).isSome = true

/-- What keeps the label of a request right. -/
def Resolvable (app : App) (paths : ℕ → Option String) (q : Request E) : Prop :=
  q.finished = false → ∀ r ∈ q.route,
    (∀ m ∈ app.way r, (paths m.1).isSome = true) ∨ q.baseUrl = wayText (app.way r)

/-- The invariant of these runs. -/
structure RouteInv (app : App) (s : Server E) : Prop where
  spelled : Spelled app s.paths
  placed : ∀ q ∈ s.requests, Placed app q
  resolvable : ∀ q ∈ s.requests, Resolvable app s.paths q

section Step

variable {app : App} {s : Server E} {q q' : Request E} {i : ℕ}

/-- A request of such a state can be finished. -/
theorem legible_of_resolvable (hpaths : Spelled app paths) (hplaced : Placed app q)
    (hq : Resolvable app paths q) (hunfinished : q.finished = false) : Legible app paths q := by
  intro r hr
  by_cases hall : ∀ m ∈ app.way r, (paths m.1).isSome = true
  · refine .inl fun m hm => ?_
    obtain ⟨ms, hms⟩ := Option.isSome_iff_exists.mp (hplaced.route r hr)
    have hway : app.way r = ms := by rw [App.way, hms, Option.getD_some]
    obtain ⟨text, htext⟩ := Option.isSome_iff_exists.mp (hall m hm)
    rw [htext, hpaths m (Stack.mem_mounts hms (hway ▸ hm)) text htext]
  · have hbase := (hq hunfinished r hr).resolve_left hall
    push Not at hall
    obtain ⟨m, hm, hnone⟩ := hall
    exact .inr ⟨⟨m, hm, Option.not_isSome_iff_eq_none.mp hnone⟩, hbase⟩

/-- One request has moved, and some layers have been tried. -/
theorem RouteInv.move (h : RouteInv app s) {paths : ℕ → Option String}
    (hpaths : Spelled app paths) (hplaced : Placed app q') (hq' : Resolvable app paths q')
    (hothers : ∀ q ∈ s.requests, Resolvable app paths q) :
    RouteInv app { s with paths := paths, requests := s.requests.set i q' } := by
  constructor
  case spelled => exact hpaths
  case placed =>
    intro q hq
    rcases List.mem_or_eq_of_mem_set hq with hq | rfl
    · exact h.placed q hq
    · exact hplaced
  case resolvable =>
    intro q hq
    rcases List.mem_or_eq_of_mem_set hq with hq | rfl
    · exact hothers q hq
    · exact hq'

/-- A path more changes nothing for a request. -/
theorem Resolvable.update (h : Resolvable app paths q) (layer : ℕ) (text : String) :
    Resolvable app (Function.update paths layer (some text)) q := by
  intro hunfinished r hr
  refine (h hunfinished r hr).imp_left fun hall m hm => ?_
  by_cases heq : m.1 = layer
  · rw [heq, Function.update_self]
    rfl
  · rw [Function.update_of_ne heq]
    exact hall m hm

/-- A path more uncovers nothing. -/
theorem Covered.update (h : Covered app paths q) (layer : ℕ) (text : String) :
    Covered app (Function.update paths layer (some text)) q := by
  intro hunfinished r hr m hm
  by_cases heq : m.1 = layer
  · rw [heq, Function.update_self]
    rfl
  · rw [Function.update_of_ne heq]
    exact h hunfinished r hr m hm

/-- A request that goes on within its router. -/
theorem Placed.advance {f : Frame E} {outer : List (Frame E)} (h : Placed app q)
    (hframes : q.frames = f :: outer) {rest : Stack}
    (hrest : ∀ ms, app.stack.At ms f.rest → app.stack.At ms rest) :
    Placed app { q with frames := { f with rest } :: outer } := by
  refine ⟨fun g hg => ?_, h.route⟩
  rcases List.mem_cons.mp hg with rfl | hg
  · obtain ⟨ms, hms, hbase⟩ := h.frames f (hframes ▸ List.mem_cons_self)
    exact ⟨ms, hrest ms hms, hbase⟩
  · exact h.frames g (hframes ▸ List.mem_cons_of_mem _ hg)

/-- A request that goes on within its router keeps its `baseUrl`. -/
theorem Resolvable.advance {f : Frame E} {outer : List (Frame E)} (h : Resolvable app paths q)
    (hframes : q.frames = f :: outer) (rest : Stack) :
    Resolvable app paths { q with frames := { f with rest } :: outer } := by
  have hbase : q.baseUrl = f.baseUrl := by rw [Request.baseUrl, hframes]
  intro hunfinished r hr
  refine (h hunfinished r hr).imp_right fun hq => ?_
  rw [← hq, hbase]
  rfl

/-- A layer gets its mount path, or none. -/
theorem Spelled.update {paths : ℕ → Option String} (h : Spelled app paths) {layer : ℕ}
    {mount : String} (hmem : (layer, mount) ∈ app.stack.mounts) {x : Option String}
    (hx : ∀ text, x = some text → text = mountText mount) :
    Spelled app (Function.update paths layer x) := by
  intro m hm text htext
  by_cases heq : m.1 = layer
  · rw [heq, Function.update_self] at htext
    obtain rfl : m = (layer, mount) := List.inj_on_of_nodup_map app.layers_nodup hm hmem heq
    exact hx text htext
  · rw [Function.update_of_ne heq] at htext
    exact h m hm text htext

/-- The step of a request whose next layer is a mounted router. -/
theorem RouteInv.tryRouter (h : RouteInv app s) (hq : q ∈ s.requests) {failing : Bool} {f : Frame E}
    {outer : List (Frame E)} (hframes : q.frames = f :: outer) {layer : ℕ} {mount : String}
    {inner rest : Stack} (hrest : f.rest = .router layer mount inner rest)
    (ho : match E.mount mount f.url with
      | some (text, _) => text = mountText mount ∧ dropSlash text = text ∧
          (failing = false → Covered app s.paths q)
      | none => ∀ q' ∈ s.requests, q'.finished = false → ∀ r ∈ q'.route,
          layer ∈ (app.way r).map (·.1) → q'.baseUrl = wayText (app.way r)) :
    RouteInv app { s with
      paths := (tryLayer s.paths q failing).1
      requests := s.requests.set i (tryLayer s.paths q failing).2 } := by
  have hplaced := h.placed q hq
  have hadvance : Placed app { q with frames := { f with rest } :: outer } :=
    hplaced.advance hframes fun ms hms => .after (hrest ▸ hms)
  have hmem : (layer, mount) ∈ app.stack.mounts := by
    obtain ⟨ms, hms, -⟩ := hplaced.frames f (hframes ▸ List.mem_cons_self)
    exact hms.mem_mounts _ (hrest ▸ List.mem_cons_self)
  cases hmatch : E.mount mount f.url with
  | none =>
    rw [hmatch] at ho
    have hfails : tryLayer s.paths q failing =
        (Function.update s.paths layer none, { q with frames := { f with rest } :: outer }) := by
      simp only [tryLayer, hframes, hrest, hmatch]
    rw [hfails]
    -- A request below this layer is still in the router of its route.
    have hothers : ∀ q' ∈ s.requests, Resolvable app (Function.update s.paths layer none) q' := by
      intro q' hq' hunfinished r hr
      by_cases hway : layer ∈ (app.way r).map (·.1)
      · exact .inr (ho q' hq' hunfinished r hr hway)
      · refine (h.resolvable q' hq' hunfinished r hr).imp_left fun hall m hm => ?_
        have hne : m.1 ≠ layer := fun heq => hway (heq ▸ List.mem_map_of_mem hm)
        rw [Function.update_of_ne hne]
        exact hall m hm
    have hspelled : Spelled app (Function.update s.paths layer none) := h.spelled.update hmem nofun
    exact h.move hspelled hadvance ((hothers q hq).advance hframes rest) hothers
  | some found =>
    obtain ⟨text, url⟩ := found
    rw [hmatch] at ho
    obtain ⟨htext, hslash, hcovered⟩ := ho
    have hmatches : tryLayer s.paths q failing = (Function.update s.paths layer (some text),
        { q with frames := if failing then { f with rest } :: outer
          else ⟨inner, url, f.baseUrl ++ text⟩ :: { f with rest } :: outer }) := by
      simp only [tryLayer, hframes, hrest, hmatch, hslash]
    rw [hmatches]
    have hothers : ∀ q' ∈ s.requests,
        Resolvable app (Function.update s.paths layer (some text)) q' :=
      fun q' hq' => (h.resolvable q' hq').update layer text
    have hspelled : Spelled app (Function.update s.paths layer (some text)) :=
      h.spelled.update hmem fun t ht => (Option.some.inj ht).symm.trans htext
    cases failing with
    | true => exact h.move hspelled hadvance ((hothers q hq).advance hframes rest) hothers
    | false =>
      refine h.move hspelled ⟨fun g hg => ?_, hplaced.route⟩ ?_ hothers
      · rcases List.mem_cons.mp hg with rfl | hg
        · obtain ⟨ms, hms, hbase⟩ := hplaced.frames f (hframes ▸ List.mem_cons_self)
          refine ⟨ms ++ [(layer, mount)], .enter (hrest ▸ hms), ?_⟩
          rw [wayText_append, ← hbase, htext, wayText, wayText, String.append_empty]
        · exact hadvance.frames g hg
      · -- It enters the router, so its route is covered, if it has one.
        exact fun hunfinished r hr => .inl (((hcovered rfl).update layer text) hunfinished r hr)

/-- The step of a request whose next layer is a route. -/
theorem RouteInv.tryRoute (h : RouteInv app s) (hq : q ∈ s.requests) {failing : Bool} {f : Frame E}
    {outer : List (Frame E)} (hframes : q.frames = f :: outer) {r : Route} {rest : Stack}
    (hrest : f.rest = .route r rest) :
    RouteInv app { s with
      paths := (tryLayer s.paths q failing).1
      requests := s.requests.set i (tryLayer s.paths q failing).2 } := by
  have hplaced := h.placed q hq
  have hadvance : Placed app { q with frames := { f with rest } :: outer } :=
    hplaced.advance hframes fun ms hms => .afterRoute (hrest ▸ hms)
  by_cases htakes : failing = false ∧ E.serves r f.url = true
  · have htake : tryLayer s.paths q failing =
        (s.paths, { q with frames := { f with rest } :: outer, route := some r }) := by
      simp only [tryLayer, hframes, hrest]
      rw [if_pos (by simpa using htakes)]
    rw [htake]
    -- The request is in the router of its new route.
    obtain ⟨ms, hms, hbase⟩ := hplaced.frames f (hframes ▸ List.mem_cons_self)
    have hway := App.way_eq (hrest ▸ hms)
    refine h.move h.spelled ⟨hadvance.frames, fun r' hr' => ?_⟩ (fun _ r' hr' => .inr ?_)
      h.resolvable
    · obtain rfl := Option.some.inj hr'
      rw [hway]
      rfl
    · obtain rfl := Option.some.inj hr'
      rw [App.way, hway, Option.getD_some, ← hbase]
      rfl
  · have hpass : tryLayer s.paths q failing =
        (s.paths, { q with frames := { f with rest } :: outer }) := by
      simp only [tryLayer, hframes, hrest]
      rw [if_neg (by simpa using htakes)]
    rw [hpass]
    exact h.move h.spelled hadvance ((h.resolvable q hq).advance hframes rest) h.resolvable

/-- The step of a request. -/
theorem RouteInv.next (h : RouteInv app s) (hq : s.requests[i]? = some q) {failing : Bool}
    (ho : AsWritten app s (.next i failing)) :
    RouteInv app { s with
      paths := (tryLayer s.paths q failing).1
      requests := s.requests.set i (tryLayer s.paths q failing).2 } := by
  have hmem : q ∈ s.requests := List.mem_of_getElem? hq
  have hplaced := h.placed q hmem
  have hresolvable := h.resolvable q hmem
  simp only [AsWritten, hq] at ho
  cases hframes : q.frames with
  | nil =>
    -- No frame is left, and the request stays.
    have hstay : tryLayer s.paths q failing = (s.paths, q) := by rw [tryLayer, hframes]
    rw [hstay]
    exact h.move h.spelled hplaced hresolvable h.resolvable
  | cons f outer =>
    simp only [hframes] at ho
    cases hrest : f.rest with
    | nil =>
      simp only [hrest] at ho
      have hleave : tryLayer s.paths q failing = (s.paths, { q with frames := outer }) := by
        simp only [tryLayer, hframes, hrest]
      rw [hleave]
      refine h.move h.spelled ⟨fun g hg => ?_, hplaced.route⟩ ?_ h.resolvable
      · exact hplaced.frames g (hframes ▸ List.mem_cons_of_mem _ hg)
      -- The routes of the frame that is left may still be written down in another request.
      · exact fun hunfinished r hr => .inl (ho hunfinished r hr)
    | handler rest =>
      have hpass : tryLayer s.paths q failing =
          (s.paths, { q with frames := { f with rest } :: outer }) := by
        simp only [tryLayer, hframes, hrest]
      rw [hpass]
      exact h.move h.spelled (hplaced.advance hframes fun ms hms => .afterHandler (hrest ▸ hms))
        (hresolvable.advance hframes rest) h.resolvable
    | route r rest => exact h.tryRoute hmem hframes hrest
    | router layer mount inner rest =>
      simp only [hrest] at ho
      exact h.tryRouter hmem hframes hrest ho

/-- A new request begins at the root. -/
theorem RouteInv.arrive (h : RouteInv app s) {s' : Server E} {url : E.Url}
    (hs : s.handle app (.arrive url) = some s') : RouteInv app s' := by
  obtain rfl := Option.some.inj hs
  constructor
  case spelled => exact h.spelled
  case placed =>
    intro q hq
    rcases List.mem_append.mp hq with hq | hq
    · exact h.placed q hq
    · obtain rfl := List.mem_singleton.mp hq
      refine ⟨fun f hf => ?_, fun r hr => by cases hr⟩
      obtain rfl := List.mem_singleton.mp hf
      exact ⟨[], .root, rfl⟩
  case resolvable =>
    intro q hq
    rcases List.mem_append.mp hq with hq | hq
    · exact h.resolvable q hq
    · obtain rfl := List.mem_singleton.mp hq
      exact fun _ r hr => by cases hr

/-- A request that finishes is under way no longer. -/
theorem RouteInv.finish (h : RouteInv app s) {s' : Server E}
    (hs : s.handle app (.finish i) = some s') : RouteInv app s' := by
  obtain ⟨q, hq, -, rfl⟩ := Server.handle_finish hs
  have hplaced := h.placed q (List.mem_of_getElem? hq)
  have hmoved : RouteInv app { s with
      requests := s.requests.set i { q with finished := true } } :=
    h.move h.spelled ⟨hplaced.frames, hplaced.route⟩ (fun hf => by cases hf) h.resolvable
  exact ⟨h.spelled, hmoved.placed, hmoved.resolvable⟩

/-- Every event keeps the invariant. -/
theorem RouteInv.step (h : RouteInv app s) {s' : Server E} {e : Event E} (ho : AsWritten app s e)
    (hs : s.handle app e = some s') : RouteInv app s' := by
  cases e with
  | arrive url => exact h.arrive hs
  | next i failing =>
    obtain ⟨q, hq, rfl⟩ := Server.handle_next hs
    exact h.next hq ho
  | finish i => exact h.finish hs

end Step

/-- Runs of requests that spell the mount paths as they are written are orderly. -/
theorem orderly_of_asWritten {app : App} {s : Server E} (h : Reaches app (AsWritten app) s) :
    Reaches app (Orderly app) s := by
  have hboth : RouteInv app s ∧ Reaches app (Orderly app) s := by
    induction h with
    | start =>
      refine ⟨⟨fun _ _ _ h => ?_, fun _ h => ?_, fun _ h => ?_⟩, .start⟩ <;> cases h
    | @step s s' e _ ha hs ih =>
      obtain ⟨hinv, hreach⟩ := ih
      refine ⟨hinv.step ha hs, hreach.step ?_ hs⟩
      cases e with
      | finish i =>
        intro q hq
        have hmem : q ∈ s.requests := List.mem_of_getElem? hq
        -- Only a request that has not finished yet can finish.
        obtain ⟨q', hq', hfinished, -⟩ := Server.handle_finish hs
        obtain rfl : q' = q := Option.some.inj (hq'.symm.trans hq)
        exact legible_of_resolvable hinv.spelled (hinv.placed q' hmem) (hinv.resolvable q' hmem)
          hfinished
      | _ => trivial
  exact hboth.2

/-- In an orderly run the labels are bounded. -/
theorem labels_bounded {app : App} {s : Server E} (h : Reaches app (Orderly app) s) :
    LabelsBounded app s := by
  have htemplate : ∀ r l, (some r, l) ∈ s.labels → l = app.template r := by
    induction h with
    | start =>
      intro r l hl
      cases hl
    | @step s s' e hreach ha hs ih =>
      cases e with
      | arrive url =>
        obtain rfl := Option.some.inj hs
        exact ih
      | next i failing =>
        obtain ⟨q, -, rfl⟩ := Server.handle_next hs
        exact ih
      | finish i =>
        obtain ⟨q, hq, -, rfl⟩ := Server.handle_finish hs
        intro r l hl
        -- The new label is that of a request that ends in order.
        rcases List.mem_cons.mp hl with heq | hl
        · obtain ⟨hr, rfl⟩ := Prod.mk.inj heq
          exact resolveRouteTemplate_eq (hreach.routed q (List.mem_of_getElem? hq)) (ha q hq)
            hr.symm
        · exact ih r l hl
  exact ⟨fun r l l' hl hl' => (htemplate r l hl).trans (htemplate r l' hl').symm, htemplate⟩

/-! ## The routes of groups -/

/-- `GET /:id` of the groups. -/
def groupRoute : Route := ⟨1, some "/:id"⟩

/-- `GET /` of the summary. -/
def summaryRoute : Route := ⟨2, some "/"⟩

/-- The application with the routes `/health`, `/api/v1/groups/:id` and
`/api/v1/groups/:id/summary`. -/
def groupsApp : App where
  stack :=
    .router 0 "/health" (.route ⟨0, some "/"⟩ .nil) <|
    .router 1 "/api/v1" (.router 2 "/" (.router 3 "/groups" (.route groupRoute <|
      .router 4 "/:id/summary" (.route summaryRoute .nil) .nil) .nil) .nil) .nil
  routes_nodup := by decide
  layers_nodup := by decide

/-- How Express matches these paths, where a path is its segments. -/
def segments : Express where
  Url := List String
  mount pattern url :=
    match pattern, url with
    | "/", _ => some ("", url)
    | "/health", "health" :: rest => some ("/health", rest)
    | "/api/v1", "api" :: "v1" :: rest => some ("/api/v1", rest)
    | "/groups", "groups" :: rest => some ("/groups", rest)
    | "/:id/summary", id :: "summary" :: rest => some ("/" ++ id ++ "/summary", rest)
    | _, _ => none
  serves r url :=
    match r.path, url with
    | some "/", [] => true
    | some "/:id", [_] => true
    | _, _ => false

/-- The next `n` layers are tried with a request. -/
def tries (i : ℕ) (failing : Bool) (n : ℕ) : List (Event segments) :=
  List.replicate n (.next i failing)

/-- Two requests for a group that overlap. -/
def twoGroups : List (Event segments) :=
  List.flatten [
    [.arrive ["api", "v1", "groups", "17"], .arrive ["api", "v1", "groups", "42"]],
    tries 0 false 3, tries 1 false 5, tries 0 false 2, [.finish 1, .finish 0]]

/-- Both have the label of the route. -/
theorem labels_bounded_twoGroups : ∃ s,
    Server.run groupsApp (Orderly groupsApp) twoGroups {} = some s ∧
    s.labels = [(some groupRoute, "/api/v1/groups/:id"), (some groupRoute, "/api/v1/groups/:id")] ∧
    LabelsBounded groupsApp s := by
  obtain ⟨s, hs, hlabels⟩ : ∃ s,
      Server.run groupsApp (Orderly groupsApp) twoGroups {} = some s ∧
      s.labels = [(some groupRoute, "/api/v1/groups/:id"),
        (some groupRoute, "/api/v1/groups/:id")] := Server.exists_of_run (by decide +kernel)
  exact ⟨s, hs, hlabels, labels_bounded (Reaches.start.run hs)⟩

/-- The summaries of two groups, one after the other. -/
def twoSummaries : List (Event segments) :=
  List.flatten [
    [.arrive ["api", "v1", "groups", "17", "summary"]], tries 0 false 7, [.finish 0],
    [.arrive ["api", "v1", "groups", "42", "summary"]], tries 1 false 7, [.finish 1]]

/-- Two requests for a group. The second one fails, and before its response is finished another
request goes to a path that nothing serves. -/
def failedRequest : List (Event segments) :=
  List.flatten [
    [.arrive ["api", "v1", "groups", "17"]], tries 0 false 5, [.finish 0],
    [.arrive ["api", "v1", "groups", "17"]], tries 1 false 5, tries 1 true 5,
    [.arrive ["nowhere"]], tries 2 false 2, [.finish 1]]

/-- The label of a route below a parameter holds the id of the request, and the label of a route
below static mount paths depends on what was routed before its response was finished. -/
theorem labels_unbounded :
    (∃ s, Reaches groupsApp (fun (_ : Server segments) _ => True) s ∧
      s.labels = [(some summaryRoute, "/api/v1/groups/42/summary"),
        (some summaryRoute, "/api/v1/groups/17/summary")] ∧ ¬LabelsBounded groupsApp s) ∧
    ∃ s, Reaches groupsApp (fun (_ : Server segments) _ => True) s ∧
      s.labels = [(some groupRoute, "/:id"), (some groupRoute, "/api/v1/groups/:id")] ∧
        ¬LabelsBounded groupsApp s := by
  constructor
  -- Two groups, one route, two labels.
  · obtain ⟨s, hs, hlabels⟩ : ∃ s,
        Server.run groupsApp (fun _ _ => True) twoSummaries {} = some s ∧
        s.labels = [(some summaryRoute, "/api/v1/groups/42/summary"),
          (some summaryRoute, "/api/v1/groups/17/summary")] :=
      Server.exists_of_run (by decide +kernel)
    refine ⟨s, Reaches.start.run hs, hlabels, fun h => ?_⟩
    have heq := h.same summaryRoute _ _ (hlabels ▸ List.mem_cons_self)
      (hlabels ▸ List.mem_cons_of_mem _ List.mem_cons_self)
    revert heq
    decide
  -- The last request wiped the path of the mount, and the failed one has an empty `baseUrl`.
  · obtain ⟨s, hs, hlabels⟩ : ∃ s,
        Server.run groupsApp (fun _ _ => True) failedRequest {} = some s ∧
        s.labels = [(some groupRoute, "/:id"), (some groupRoute, "/api/v1/groups/:id")] :=
      Server.exists_of_run (by decide +kernel)
    refine ⟨s, Reaches.start.run hs, hlabels, fun h => ?_⟩
    have heq := h.same groupRoute _ _ (hlabels ▸ List.mem_cons_self)
      (hlabels ▸ List.mem_cons_of_mem _ List.mem_cons_self)
    revert heq
    decide

end SplitBill.Http
