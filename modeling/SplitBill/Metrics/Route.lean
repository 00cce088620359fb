import Mathlib.Data.List.Basic
import Mathlib.Data.Nat.Notation
import Mathlib.Logic.Function.Basic

/-!
# Route labels

`src/metrics/route.ts`, which `requestHttpMetrics` of `src/metrics/httpMetrics.ts` calls when a
response is finished, and the routing of Express around it. A router is its stack of layers. A layer
with a mounted router keeps in `path` the text that the mount path matched last, or `undefined` if
it did not match. There is one such field for each layer, whichever request the layer was tried
with, and `findMountPrefix` reads it.

How Express matches a mount path or a route is a parameter, `Express`.
-/

namespace SplitBill.Http

/-! ## Routers -/

/-- A route. -/
structure Route where
  /-- Which object it is. -/
  id : ℕ
  /-- `route.path`, if it is a string. -/
  path : Option String
  deriving DecidableEq

/-- The stack of a router from one of its layers on. -/
inductive Stack
  | nil
  /-- A layer with a route. -/
  | route (r : Route) (rest : Stack)
  /-- A layer with a mounted router: which layer it is, the mount path and the router's stack. -/
  | router (layer : ℕ) (mount : String) (inner rest : Stack)
  /-- A layer with another handler. -/
  | handler (rest : Stack)

namespace Stack

/-- The routes of a stack and of the routers mounted on it. -/
def routeIds : Stack → List ℕ
  | nil => []
  | route r rest => r.id :: rest.routeIds
  | router _ _ inner rest => inner.routeIds ++ rest.routeIds
  | handler rest => rest.routeIds

/-- The layers with a mounted router, with their mount paths. -/
def mounts : Stack → List (ℕ × String)
  | nil => []
  | route _ rest => rest.mounts
  | router layer mount inner rest => (layer, mount) :: (inner.mounts ++ rest.mounts)
  | handler rest => rest.mounts

/-- The layers through which a route is reached, outermost first. -/
def mountsOf? (target : ℕ) : Stack → Option (List (ℕ × String))
  | nil => none
  | route r rest => if r.id = target then some [] else rest.mountsOf? target
  | router layer mount inner rest =>
    match inner.mountsOf? target with
    | some ms => some ((layer, mount) :: ms)
    | none => rest.mountsOf? target
  | handler rest => rest.mountsOf? target

end Stack

/-- The stack of an application. Every layer and every route is an object of its own. -/
structure App where
  stack : Stack
  routes_nodup : stack.routeIds.Nodup
  layers_nodup : (stack.mounts.map (·.1)).Nodup

/-! ## The label -/

/-- `UNMATCHED_ROUTE`. -/
def unmatchedRoute : String := "unmatched"

/-- `findMountPrefix`, where `paths` is the `path` of each layer. -/
def findMountPrefix (paths : ℕ → Option String) (target : ℕ) : Stack → String → Option String
  | .nil, _ => none
  | .route r rest, start =>
    if r.id = target then some start else findMountPrefix paths target rest start
  | .router layer _ inner rest, start =>
    match paths layer with
    | some path =>
      match findMountPrefix paths target inner (start ++ path) with
      | some found => some found
      | none => findMountPrefix paths target rest start
    | none => findMountPrefix paths target rest start
  | .handler rest, start => findMountPrefix paths target rest start

/-- `text.slice(0, -1)` for a text that ends in a slash. -/
def dropSlash (text : String) : String :=
  if text.toList.getLast? = some '/' then String.ofList text.toList.dropLast else text

/-- The template without a slash at its end, but for the slash alone. -/
def withoutSlash (template : String) : String :=
  if 1 < template.length then dropSlash template else template

/-- `resolveRouteTemplate`, for a request with this `route` and this `baseUrl`. -/
def resolveRouteTemplate (paths : ℕ → Option String) (app : Stack) (route : Option Route)
    (baseUrl : String) : String :=
  match route with
  | none => unmatchedRoute
  | some r =>
    match r.path with
    | none => unmatchedRoute
    | some path =>
      if path = "" then unmatchedRoute
      else withoutSlash ((findMountPrefix paths r.id app "").getD baseUrl ++ path)

/-! ## Routing -/

/-- What Express matches. -/
structure Express where
  /-- What routing looks at of a request within a router: its method and the rest of its path. -/
  Url : Type
  /-- `Layer.match` for a mount path: the text that it matches and what is left. -/
  mount : String → Url → Option (String × Url)
  /-- A route takes the request. -/
  serves : Route → Url → Bool

/-- A router that a request is in. -/
structure Frame (E : Express) where
  /-- The layers that are still to be tried. -/
  rest : Stack
  /-- `req.url` within this router. -/
  url : E.Url
  /-- `req.baseUrl` within this router. -/
  baseUrl : String

/-- A request. -/
structure Request (E : Express) where
  /-- The routers that it is in, innermost first. -/
  frames : List (Frame E)
  /-- `req.route`. -/
  route : Option Route := none
  /-- Its response was finished. -/
  finished : Bool := false

/-- `req.baseUrl`, which Express restores when a router is left. -/
def Request.baseUrl {E : Express} (q : Request E) : String :=
  match q.frames with
  | [] => ""
  | f :: _ => f.baseUrl

/-- The server. -/
structure Server (E : Express) where
  /-- `layer.path` of each layer with a mounted router. -/
  paths : ℕ → Option String := fun _ => none
  requests : List (Request E) := []
  /-- The requests that were measured, by their routes, with their labels, latest first. -/
  labels : List (Option Route × String) := []

/-- What happens on the server. -/
inductive Event (E : Express)
  /-- A request arrives. -/
  | arrive (url : E.Url)
  /-- The handler that has the request calls `next`, with an error if `failing`. -/
  | next (i : ℕ) (failing : Bool)
  /-- The response to the request is finished. -/
  | finish (i : ℕ)

variable {E : Express}

/-- `next`: the router that has the request tries its next layer, or is left if there is none. A
request with an error is matched against mount paths, but enters no router and no route. The text
that a mount path matches goes into `req.baseUrl` without a slash at its end. -/
def tryLayer (paths : ℕ → Option String) (q : Request E) (failing : Bool) :
    (ℕ → Option String) × Request E :=
  match q.frames with
  | [] => (paths, q)
  | f :: outer =>
    match f.rest with
    | .nil => (paths, { q with frames := outer })
    | .handler rest => (paths, { q with frames := { f with rest } :: outer })
    | .route r rest =>
      if ¬failing ∧ E.serves r f.url then
        (paths, { q with frames := { f with rest } :: outer, route := some r })
      else (paths, { q with frames := { f with rest } :: outer })
    | .router layer mount inner rest =>
      match E.mount mount f.url with
      | none =>
        (Function.update paths layer none, { q with frames := { f with rest } :: outer })
      | some (text, url) =>
        let frames := { f with rest } :: outer
        (Function.update paths layer (some text),
          { q with frames := if failing then frames else
            ⟨inner, url, f.baseUrl ++ dropSlash text⟩ :: frames })

/-- One event. -/
def Server.handle (app : App) (s : Server E) : Event E → Option (Server E)
  | .arrive url => some { s with requests := s.requests ++ [{ frames := [⟨app.stack, url, ""⟩] }] }
  | .next i failing =>
    match s.requests[i]? with
    | none => none
    | some q =>
      let r := tryLayer s.paths q failing
      some { s with paths := r.1, requests := s.requests.set i r.2 }
  | .finish i =>
    match s.requests[i]? with
    | none => none
    | some q =>
      if q.finished then none
      else some { s with
        requests := s.requests.set i { q with finished := true }
        labels := (q.route, resolveRouteTemplate s.paths app.stack q.route q.baseUrl) :: s.labels }

/-- `next` is called by a request that is there, and tries its next layer. -/
theorem Server.handle_next {app : App} {s s' : Server E} {i : ℕ} {failing : Bool}
    (h : s.handle app (.next i failing) = some s') : ∃ q, s.requests[i]? = some q ∧
      s' = { s with
        paths := (tryLayer s.paths q failing).1
        requests := s.requests.set i (tryLayer s.paths q failing).2 } := by
  rw [handle] at h
  cases hq : s.requests[i]? with
  | none =>
    rw [hq] at h
    cases h
  | some q =>
    rw [hq] at h
    exact ⟨q, rfl, (Option.some.inj h).symm⟩

/-- A request that is there and has not finished yet finishes, and its label is recorded. -/
theorem Server.handle_finish {app : App} {s s' : Server E} {i : ℕ}
    (h : s.handle app (.finish i) = some s') : ∃ q, s.requests[i]? = some q ∧ q.finished = false ∧
      s' = { s with
        requests := s.requests.set i { q with finished := true }
        labels := (q.route, resolveRouteTemplate s.paths app.stack q.route q.baseUrl) ::
          s.labels } := by
  rw [handle] at h
  cases hq : s.requests[i]? with
  | none =>
    rw [hq] at h
    cases h
  | some q =>
    simp only [hq, Option.ite_none_left_eq_some, Bool.not_eq_true] at h
    exact ⟨q, rfl, h.1, (Option.some.inj h.2).symm⟩

/-- The states of the server, where every event is one that `allow` permits. -/
inductive Reaches (app : App) (allow : Server E → Event E → Prop) : Server E → Prop
  | start : Reaches app allow {}
  | step {s s' : Server E} {e : Event E} (h : Reaches app allow s) (ha : allow s e)
      (hs : s.handle app e = some s') : Reaches app allow s'

/-- Carries out events that `allow` permits. -/
def Server.run (app : App) (allow : Server E → Event E → Prop) [∀ s e, Decidable (allow s e)] :
    List (Event E) → Server E → Option (Server E)
  | [], s => some s
  | e :: es, s => if allow s e then (s.handle app e).bind (run app allow es) else none

/-- What such events lead to is reached. -/
theorem Reaches.run {app : App} {allow : Server E → Event E → Prop} [∀ s e, Decidable (allow s e)]
    {es : List (Event E)} {s s' : Server E} (h : Reaches app allow s)
    (hrun : s.run app allow es = some s') : Reaches app allow s' := by
  induction es generalizing s with
  | nil =>
    obtain rfl := Option.some.inj hrun
    exact h
  | cons e es ih =>
    simp only [Server.run, Option.ite_none_right_eq_some, Option.bind_eq_some_iff] at hrun
    obtain ⟨ha, s₁, hs₁, hrun⟩ := hrun
    exact ih (h.step ha hs₁) hrun

/-- What events lead to, if that can be computed. -/
theorem Server.exists_of_run {o : Option (Server E)} {P : Server E → Prop} [DecidablePred P]
    (h : o.any (fun s => decide (P s)) = true) : ∃ s, o = some s ∧ P s := by
  obtain ⟨s, hs, hP⟩ := (Option.any_eq_true _ _).mp h
  exact ⟨s, hs, of_decide_eq_true hP⟩

end SplitBill.Http
