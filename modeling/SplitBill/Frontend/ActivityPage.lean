import Mathlib.Data.List.Nodup
import SplitBill.Frontend.BalancesPage

/-!
# The activity page

The state of `src/frontend/lib/features/activity/presentation/pages/activity_page.dart` and the
code that changes it. A refresh replaces the events of the page by the first page of a group's feed,
and a load of more appends the page that follows the last one; both write what they are answered
into whatever the page shows by then. In runs in which nothing else was written or selected under
way, the page shows the beginning of the selected group's feed.
-/

namespace SplitBill.Frontend

open Interleave

/-- `ActivityEvent`. -/
structure ActivityEvent where
  id : String
  groupId : String
  userId : String
  type : String
  message : String
  deriving DecidableEq

/-- `ActivityPagination`. -/
structure ActivityPagination where
  page : ℕ
  limit : ℕ
  total : ℕ
  deriving DecidableEq

/-- `hasMore`. -/
def ActivityPagination.hasMore (p : ActivityPagination) : Bool := p.page * p.limit < p.total

/-- `ActivityFeedPage`. -/
structure ActivityFeedPage where
  events : List ActivityEvent
  pagination : ActivityPagination
  deriving DecidableEq

/-- `_pageSize`. -/
def activityPageSize : ℕ := 20

/-- The feeds of a server, in feed order. No event stands in two of them, or in one twice. -/
structure Feeds where
  events : String → List ActivityEvent
  belongs : ∀ groupId, ∀ e ∈ events groupId, e.groupId = groupId
  nodup : ∀ groupId, ((events groupId).map (·.id)).Nodup

/-- The page that the server answers. -/
def Feeds.page (feeds : Feeds) (groupId : String) (page limit : ℕ) : ActivityFeedPage :=
  ⟨((feeds.events groupId).drop ((page - 1) * limit)).take limit,
    ⟨page, limit, (feeds.events groupId).length⟩⟩

/-- `_ActivityPageState`. -/
structure ActivityPageState where
  groups : List GroupSummary := []
  selectedGroupId : Option String := none
  events : List ActivityEvent := []
  pagination : Option ActivityPagination := none
  loadingInitial : Bool := true
  loadingMore : Bool := false
  error : Option String := none
  mounted : Bool := true
  deriving DecidableEq

/-- The requests for which the page waits, and the pieces of code that run in between. -/
inductive FeedOp
  /-- `GroupsRepository.getGroups`. -/
  | getGroups
  /-- `ActivityRepository.getGroupActivity`. -/
  | getGroupActivity (groupId : String) (page limit : ℕ)
  /-- The first `setState` of `_loadGroups`. -/
  | startLoading
  /-- The second one, if the page is still mounted: whether it is. -/
  | showGroups (groups : List GroupSummary)
  /-- The last one. -/
  | endLoading
  /-- Reads `_selectedGroupId`. -/
  | selectedGroupId
  /-- The `setState` of `_refresh`, for the group that it was started for. -/
  | showPage (groupId : String) (page : ActivityFeedPage)
  /-- The `setState` of a failure. -/
  | showError (message : String)
  /-- The checks of `_loadMore` and its first `setState`: the group and the last page, if it goes
  on. -/
  | startMore
  /-- The second `setState` of `_loadMore`, for the group and the last page it was started for. -/
  | appendPage (groupId : String) (last : ActivityPagination) (next : ActivityFeedPage)
  /-- The snack bar of a failure. -/
  | showSnackBar (text : String)
  /-- The last `setState` of `_loadMore`. -/
  | endMore
  /-- The check and the `setState` of `_selectGroup`: whether the selection changed. -/
  | selectGroup (groupId : String)

/-- What an operation answers. -/
abbrev FeedOp.Res : FeedOp → Type
  | getGroups => List GroupSummary
  | getGroupActivity _ _ _ => ActivityFeedPage
  | showGroups _ => Bool
  | selectedGroupId => Option String
  | startMore => Option (String × ActivityPagination)
  | selectGroup _ => Bool
  | _ => Unit

/-- The interface of the page. -/
abbrev feedInterface : Interface := ⟨FeedOp, FeedOp.Res⟩

/-- Code of the page. -/
abbrev Feed (α : Type) : Type := Prog feedInterface AppFailure α

/-- The program of one operation. -/
abbrev FeedOp.perform (o : FeedOp) : Feed o.Res := @Prog.perform feedInterface AppFailure o

/-- The answer and the effect of an operation. -/
def FeedOp.exec (feeds : Feeds) : (o : FeedOp) → PageWorld → ActivityPageState →
    Except AppFailure o.Res × ActivityPageState
  | getGroups, world, s => (world.answer world.groups, s)
  | getGroupActivity groupId page limit, world, s =>
    (world.answer (feeds.page groupId page limit), s)
  | startLoading, _, s => (.ok (), { s with loadingInitial := true, error := none })
  | showGroups groups, _, s =>
    if s.mounted then
      (.ok true, { s with groups := groups,
                          selectedGroupId := s.selectedGroupId <|> groups.head?.map (·.id) })
    else (.ok false, s)
  | endLoading, _, s => (.ok (), if s.mounted then { s with loadingInitial := false } else s)
  | selectedGroupId, _, s => (.ok s.selectedGroupId, s)
  | showPage _ page, _, s =>
    (.ok (), if s.mounted then
      { s with events := page.events, pagination := some page.pagination, error := none } else s)
  | showError message, _, s => (.ok (), if s.mounted then { s with error := some message } else s)
  | startMore, _, s =>
    match s.selectedGroupId, s.pagination with
    | some groupId, some pagination =>
      if pagination.hasMore = true ∧ s.loadingMore = false then
        (.ok (some (groupId, pagination)), { s with loadingMore := true })
      else (.ok none, s)
    | _, _ => (.ok none, s)
  | appendPage _ _ next, _, s =>
    (.ok (), if s.mounted then
      { s with events := s.events ++ next.events, pagination := some next.pagination } else s)
  | showSnackBar _, _, s => (.ok (), s)
  | endMore, _, s => (.ok (), if s.mounted then { s with loadingMore := false } else s)
  | selectGroup groupId, _, s =>
    if s.selectedGroupId = some groupId then (.ok false, s)
    else (.ok true, { s with selectedGroupId := some groupId, events := [], pagination := none })

/-- The machine on which the code of the page runs. -/
abbrev feedMachine (feeds : Feeds) : Machine feedInterface AppFailure ActivityPageState where
  Choice := PageWorld
  exec := FeedOp.exec feeds
  fails _ _ := False
  loses _ _ := False

namespace ActivityPage

/-- `_refresh`. -/
def refresh : Feed Unit := do
  match ← FeedOp.perform .selectedGroupId with
  | none => return ()
  | some groupId =>
    match ← (FeedOp.perform (.getGroupActivity groupId 1 activityPageSize)).attempt with
    | .ok page => FeedOp.perform (.showPage groupId page)
    | .error error => FeedOp.perform (.showError error.message)

/-- `_loadGroups`. -/
def loadGroups : Feed Unit := do
  FeedOp.perform .startLoading
  let load : Feed Unit := do
    let groups ← FeedOp.perform .getGroups
    if ← FeedOp.perform (.showGroups groups) then refresh
  load.tryCatch fun error => FeedOp.perform (.showError error.message)
  FeedOp.perform .endLoading

/-- `_loadMore`. -/
def loadMore : Feed Unit := do
  match ← FeedOp.perform .startMore with
  | none => return ()
  | some (groupId, pagination) =>
    let next ← (FeedOp.perform
      (.getGroupActivity groupId (pagination.page + 1) activityPageSize)).attempt
    match next with
    | .ok next => FeedOp.perform (.appendPage groupId pagination next)
    | .error error => FeedOp.perform (.showSnackBar error.message)
    FeedOp.perform .endMore

/-- `_selectGroup`. -/
def selectGroup (groupId : Option String) : Feed Unit :=
  match groupId with
  | none => return ()
  | some groupId => do
    if ← FeedOp.perform (.selectGroup groupId) then refresh

end ActivityPage

/-- What makes the page run its code. -/
inductive FeedCall
  | loadGroups
  | refresh
  | loadMore
  | selectGroup (groupId : Option String)
  deriving DecidableEq

/-- The code of a call. -/
def FeedCall.body : FeedCall → Feed Unit
  | loadGroups => ActivityPage.loadGroups
  | refresh => ActivityPage.refresh
  | loadMore => ActivityPage.loadMore
  | selectGroup groupId => ActivityPage.selectGroup groupId

/-- The page, which is disposed of at some time. -/
abbrev feedSystem (feeds : Feeds) : System feedInterface AppFailure Unit ActivityPageState where
  machine := feedMachine feeds
  Call := FeedCall
  body := FeedCall.body
  valid := fun _ => True
  env := fun s s' => s' = { s with mounted := false }

instance (feeds : Feeds) : DecidablePred (feedSystem feeds).valid := fun _ => isTrue trivial

/-- The history of the page. -/
abbrev FeedHist := Hist feedInterface AppFailure ActivityPageState

/-! ## What the page shows -/

/-- The page shows the beginning of the selected group's feed, and where it ends. -/
structure CleanPrefix (feeds : Feeds) (s : ActivityPageState) : Prop where
  belongs : ∀ e ∈ s.events, s.selectedGroupId = some e.groupId
  nodup : (s.events.map (·.id)).Nodup
  begins : ∀ groupId, s.selectedGroupId = some groupId → s.events <+: feeds.events groupId
  last : ∀ pagination, s.pagination = some pagination → ∃ groupId,
    s.selectedGroupId = some groupId ∧
    pagination = (feeds.page groupId pagination.page activityPageSize).pagination ∧
    s.events = (feeds.events groupId).take (pagination.page * activityPageSize)
  shown : s.pagination = none → s.events = []

/-- An answer is written while its group is selected; a following page, while the last page is the
one that it follows. -/
def StillShown (_ : ℕ) (o : FeedOp) (h : FeedHist) : Prop :=
  match o with
  | .showPage groupId _ => h.world.mounted = true → h.world.selectedGroupId = some groupId
  | .appendPage groupId last _ => h.world.mounted = true →
    h.world.selectedGroupId = some groupId ∧ h.world.pagination = some last
  | _ => True

instance (pid : ℕ) (o : FeedOp) (h : FeedHist) : Decidable (StillShown pid o h) := by
  unfold StillShown
  cases o <;> infer_instance

/-- The page, in runs in which what it shows stays as it is under way. -/
abbrev steadyFeed (feeds : Feeds) : System feedInterface AppFailure Unit ActivityPageState :=
  { feedSystem feeds with allow := StillShown }

instance (feeds : Feeds) : DecidablePred (steadyFeed feeds).valid := fun _ => isTrue trivial

/-- What is written was answered to the request. -/
def Fetched (feeds : Feeds) : FeedOp → Prop
  | .showPage groupId page => page = feeds.page groupId 1 activityPageSize
  | .appendPage groupId last next => next = feeds.page groupId (last.page + 1) activityPageSize
  | _ => True

section

variable {feeds : Feeds} {pid : ℕ}

/-- Every operation is answered. -/
theorem feed_answer {o : FeedOp} {s s' : ActivityPageState}
    {did seen : Except AppFailure (feedInterface.Res o)}
    (h : (feedMachine feeds).Answer o s did seen s') :
    ∃ world, seen = (o.exec feeds world s).1 ∧ s' = (o.exec feeds world s).2 := by
  cases h with
  | done world => exact ⟨world, rfl, rfl⟩
  | failed e hfails => exact hfails.elim
  | lost e world hloses => exact hloses.elim

/-- The server answers a page of its feed. -/
theorem page_of_answer {groupId : String} {page limit : ℕ} {s s' : ActivityPageState}
    {did : Except AppFailure (feedInterface.Res (.getGroupActivity groupId page limit))}
    {v : ActivityFeedPage}
    (h : (feedMachine feeds).Answer (.getGroupActivity groupId page limit) s did (.ok v) s') :
    v = feeds.page groupId page limit := by
  obtain ⟨world, hseen, -⟩ := feed_answer h
  have hanswer : world.answer (feeds.page groupId page limit) = .ok v := hseen.symm
  unfold PageWorld.answer at hanswer
  split at hanswer
  · exact (Except.ok.inj hanswer).symm
  · cases hanswer

/-- Whatever the program has done before, it writes only what was answered to its requests. -/
def Fetches {α : Type} (feeds : Feeds) (pid : ℕ) (p : Feed α) : Prop :=
  ∀ l, wp ((feedMachine feeds).ownLog pid fun _ => Fetched feeds) (fun _ _ => True) p l

namespace Fetches

variable {α β : Type}

/-- A load that is over fetches nothing. -/
theorem ret (a : α) : Fetches feeds pid (.ret a) := fun _ => trivial

/-- One operation that fetches the right page. -/
theorem perform {o : FeedOp} (ho : Fetched feeds o) : Fetches feeds pid (FeedOp.perform o) :=
  fun _ => wp_ownLog_perform ho fun _ _ _ _ _ => trivial

/-- A load in two parts. -/
theorem bind {p : Feed α} {g : α → Feed β} (hp : Fetches feeds pid p)
    (hg : ∀ a, Fetches feeds pid (g a)) : Fetches feeds pid (p.bind g) := by
  intro l
  apply wp_bind.mpr
  apply wp_mono _ (hp l)
  rintro (e | a) l' _
  · trivial
  · exact hg a l'

/-- A load and what it does with a failure. -/
theorem tryCatch {p : Feed α} {g : AppFailure → Feed α} (hp : Fetches feeds pid p)
    (hg : ∀ e, Fetches feeds pid (g e)) : Fetches feeds pid (p.tryCatch g) := by
  intro l
  apply wp_tryCatch.mpr
  apply wp_mono _ (hp l)
  rintro (e | a) l' _
  · exact hg e l'
  · trivial

/-- A request, whose answer is a page of the feed. -/
theorem request {groupId : String} {page : ℕ} {g : Except AppFailure ActivityFeedPage → Feed α}
    (hok : Fetches feeds pid (g (.ok (feeds.page groupId page activityPageSize))))
    (herr : ∀ e, Fetches feeds pid (g (.error e))) :
    Fetches feeds pid
      ((FeedOp.perform (.getGroupActivity groupId page activityPageSize)).attempt.bind g) := by
  intro l
  apply wp_bind.mpr
  apply wp_attempt.mpr
  apply wp_ownLog_perform
  · trivial
  intro s did seen s' hans
  cases seen with
  | error e => exact herr e _
  | ok v =>
    rw [page_of_answer hans]
    exact hok _

end Fetches

/-- A refresh fetches what the page shows. -/
theorem refresh_fetches : Fetches feeds pid ActivityPage.refresh := by
  apply Fetches.bind
  · exact .perform trivial
  intro selected
  cases selected with
  | none => exact .ret ()
  | some groupId =>
    apply Fetches.request
    · exact .perform rfl
    · exact fun e => .perform trivial

/-- Loading more fetches what the page shows. -/
theorem loadMore_fetches : Fetches feeds pid ActivityPage.loadMore := by
  apply Fetches.bind
  · exact .perform trivial
  intro start
  cases start with
  | none => exact .ret ()
  | some start =>
    apply Fetches.request
    · exact .bind (.perform rfl) fun _ => .perform trivial
    · exact fun e => .bind (.perform trivial) fun _ => .perform trivial

/-- Loading the groups fetches no events. -/
theorem loadGroups_fetches : Fetches feeds pid ActivityPage.loadGroups := by
  apply Fetches.bind
  · exact .perform trivial
  intro _
  apply Fetches.bind
  · apply Fetches.tryCatch
    · apply Fetches.bind
      · exact .perform trivial
      intro groups
      apply Fetches.bind
      · exact .perform trivial
      intro mounted
      cases mounted with
      | false => exact .ret ()
      | true => exact refresh_fetches
    · exact fun e => .perform trivial
  · exact fun _ => .perform trivial

/-- Every call of the page writes what was answered to its requests. -/
theorem feedCall_fetches (c : FeedCall) : Fetches feeds pid c.body := by
  cases c with
  | loadGroups => exact loadGroups_fetches
  | refresh => exact refresh_fetches
  | loadMore => exact loadMore_fetches
  | selectGroup groupId =>
    cases groupId with
    | none => exact .ret ()
    | some groupId =>
      apply Fetches.bind
      · exact .perform trivial
      intro changed
      cases changed with
      | false => exact .ret ()
      | true => exact refresh_fetches

/-! ## The beginning of the feed -/

/-- The page shows nothing, or so many pages of the selected group's feed. -/
def ShowsPages (feeds : Feeds) (s : ActivityPageState) : Prop :=
  (s.events = [] ∧ s.pagination = none) ∨
    ∃ groupId page, s.selectedGroupId = some groupId ∧
      s.events = (feeds.events groupId).take (page * activityPageSize) ∧
      s.pagination = some ⟨page, activityPageSize, (feeds.events groupId).length⟩

/-- A step that leaves what the page shows, and the group it shows it for, as they were. -/
theorem ShowsPages.congr {s s' : ActivityPageState} (hs : ShowsPages feeds s)
    (hevents : s'.events = s.events) (hpagination : s'.pagination = s.pagination)
    (hselected : ∀ groupId, s.selectedGroupId = some groupId → s'.selectedGroupId = some groupId) :
    ShowsPages feeds s' := by
  unfold ShowsPages
  rw [hevents, hpagination]
  rcases hs with hempty | ⟨groupId, page, hgroup, hshown⟩
  · exact .inl hempty
  · exact .inr ⟨groupId, page, hselected groupId hgroup, hshown⟩

/-- A page that shows pages of a feed shows a clean beginning of it. -/
theorem ShowsPages.clean {s : ActivityPageState} (hs : ShowsPages feeds s) :
    CleanPrefix feeds s := by
  -- Nothing is shown, or pages from the first one on.
  rcases hs with ⟨hevents, hpagination⟩ | ⟨groupId, page, hgroup, hevents, hpagination⟩
  · constructor
    · rw [hevents]
      exact fun e he => (List.not_mem_nil he).elim
    · rw [hevents]
      exact List.nodup_nil
    · rw [hevents]
      exact fun groupId _ => List.nil_prefix
    · rw [hpagination]
      intro pagination h
      cases h
    · exact fun _ => hevents
  · have hbegins : s.events <+: feeds.events groupId := hevents ▸ List.take_prefix _ _
    constructor
    · intro e he
      rw [hgroup, feeds.belongs groupId e (hbegins.subset he)]
    · exact (feeds.nodup groupId).sublist (hbegins.sublist.map _)
    · intro groupId' h
      rw [hgroup, Option.some.injEq] at h
      exact h ▸ hbegins
    · intro pagination h
      rw [hpagination, Option.some.injEq] at h
      subst h
      exact ⟨groupId, hgroup, rfl, hevents⟩
    · intro h
      rw [hpagination] at h
      cases h

/-- The first page of the selected group's feed is shown. -/
theorem ShowsPages.showPage {s : ActivityPageState} (hs : ShowsPages feeds s) {groupId : String}
    (hgroup : s.mounted = true → s.selectedGroupId = some groupId) (world : PageWorld) :
    ShowsPages feeds ((FeedOp.showPage groupId (feeds.page groupId 1 activityPageSize)).exec feeds
      world s).2 := by
  simp only [FeedOp.exec]
  split
  · next hmounted => exact .inr ⟨groupId, 1, hgroup hmounted, by simp [Feeds.page], rfl⟩
  · exact hs

/-- The page that follows the last one that is shown is appended. -/
theorem ShowsPages.appendPage {s : ActivityPageState} (hs : ShowsPages feeds s) {groupId : String}
    {last : ActivityPagination}
    (hlast : s.mounted = true → s.selectedGroupId = some groupId ∧ s.pagination = some last)
    (world : PageWorld) :
    ShowsPages feeds ((FeedOp.appendPage groupId last
      (feeds.page groupId (last.page + 1) activityPageSize)).exec feeds world s).2 := by
  simp only [FeedOp.exec]
  split
  · next hmounted =>
    obtain ⟨hgroup, hlast⟩ := hlast hmounted
    rcases hs with ⟨-, hnone⟩ | ⟨groupId', page, hgroup', hevents, hpagination⟩
    · rw [hnone] at hlast
      cases hlast
    rw [hgroup, Option.some.injEq] at hgroup'
    rw [hlast, Option.some.injEq] at hpagination
    subst hgroup' hpagination
    refine .inr ⟨groupId, page + 1, hgroup, ?_, rfl⟩
    show s.events ++ (feeds.page groupId (page + 1) activityPageSize).events = _
    rw [hevents, Nat.succ_mul, List.take_add]
    rfl
  · exact hs

/-- One operation, while what the page shows is what its call was started for. -/
theorem ShowsPages.exec {s : ActivityPageState} (hs : ShowsPages feeds s) {o : FeedOp}
    (hfetched : Fetched feeds o) (world : PageWorld) {h : FeedHist} (hworld : h.world = s)
    (hallow : StillShown pid o h) : ShowsPages feeds (o.exec feeds world s).2 := by
  subst hworld
  cases o with
  -- Most operations leave what is shown; those that show a page need its group to be selected.
  | showGroups groups =>
    simp only [FeedOp.exec]
    split
    · refine hs.congr rfl rfl ?_
      intro groupId hgroup
      show (h.world.selectedGroupId <|> _) = some groupId
      rw [hgroup]
      rfl
    · exact hs
  | showPage groupId page =>
    obtain rfl : page = feeds.page groupId 1 activityPageSize := hfetched
    exact hs.showPage hallow world
  | appendPage groupId last next =>
    obtain rfl : next = feeds.page groupId (last.page + 1) activityPageSize := hfetched
    exact hs.appendPage hallow world
  | selectGroup groupId =>
    simp only [FeedOp.exec]
    split
    · exact hs
    · exact .inl ⟨rfl, rfl⟩
  | startMore =>
    simp only [FeedOp.exec]
    split
    · split
      · exact hs.congr rfl rfl fun _ hgroup => hgroup
      · exact hs
    · exact hs
  | endLoading =>
    simp only [FeedOp.exec]
    split
    · exact hs.congr rfl rfl fun _ hgroup => hgroup
    · exact hs
  | showError message =>
    simp only [FeedOp.exec]
    split
    · exact hs.congr rfl rfl fun _ hgroup => hgroup
    · exact hs
  | endMore =>
    simp only [FeedOp.exec]
    split
    · exact hs.congr rfl rfl fun _ hgroup => hgroup
    · exact hs
  | _ => exact hs.congr rfl rfl fun _ hgroup => hgroup

end

/-- In runs in which an answer is written only while its group is selected, and a following page
only while the last page is the one that it follows, the page shows a clean beginning of the
selected group's feed. -/
theorem shows_clean_prefix {feeds : Feeds} {cfg : (steadyFeed feeds).Config}
    (h : (steadyFeed feeds).Reachable (fun s => s = {}) cfg) :
    CleanPrefix feeds cfg.hist.world := by
  have hkeeps : ShowsPages feeds cfg.hist.world ∧ ∀ (pid : ℕ) (c : FeedCall) (a : Unit),
      cfg.procs[pid]? = some (c, .ret a) → True := by
    refine @System.keeps_of_ownLog _ _ _ _ (steadyFeed feeds) _ (fun _ _ _ => Fetched feeds)
      (fun _ _ _ _ => True) (fun h => ShowsPages feeds h.world)
      (fun pid c _ => feedCall_fetches c []) ?_ ?_ ?_ _ h
    · rintro s rfl
      exact .inl ⟨rfl, rfl⟩
    · rintro h s hs rfl
      exact hs.congr rfl rfl fun _ hgroup => hgroup
    · intro pid c o h did seen s hfetched hs hallow hans
      obtain ⟨world, -, rfl⟩ := feed_answer hans
      exact @ShowsPages.exec feeds pid h.world hs o hfetched world h rfl hallow
  exact hkeeps.1.clean

/-- Two groups, one of which has so many events that they fill two pages and begin a third. -/
def twoFeeds : Feeds where
  events groupId :=
    if groupId = "g1" then
      (List.range 41).map fun n => ⟨toString n, "g1", "u1", "EXPENSE_ADDED", "added an expense"⟩
    else if groupId = "g2" then [⟨"a", "g2", "u1", "GROUP_CREATED", "created the group"⟩]
    else []
  belongs groupId e he := by
    split at he
    · next h =>
      obtain ⟨n, -, rfl⟩ := List.mem_map.mp he
      exact h.symm
    · split at he
      · next h => rw [List.mem_singleton.mp he, h]
      · cases he
  nodup groupId := by
    split
    · decide
    · split
      · decide
      · decide

/-- The groups of the user. -/
def twoFeedGroups : PageWorld where
  groups := [⟨"g1", "Flat"⟩, ⟨"g2", "Trip"⟩]

/-- The page has loaded two pages of the first group's feed. -/
def twoPages (allow : ℕ → FeedOp → FeedHist → Prop) :
    List (System.Action { feedSystem twoFeeds with allow := allow }) := List.flatten
  [[.spawn .loadGroups], System.turns _ 0 twoFeedGroups 7, [.spawn .loadMore],
    System.turns _ 1 twoFeedGroups 4]

/-- Two pages of one group, while the other one is loaded in between. -/
theorem shows_clean_prefix_twoPages : ∃ cfg,
    (steadyFeed twoFeeds).play (twoPages StillShown) ((steadyFeed twoFeeds).start {}) = some cfg ∧
    cfg.hist.world.events.length = 40 ∧ CleanPrefix twoFeeds cfg.hist.world := by
  obtain ⟨cfg, hplay, hall, hlength⟩ : ∃ cfg,
      (steadyFeed twoFeeds).play (twoPages StillShown) ((steadyFeed twoFeeds).start {}) = some cfg ∧
      (steadyFeed twoFeeds).Allowed cfg.hist.log ∧ cfg.hist.world.events.length = 40 :=
    System.exists_of_play (by decide +kernel)
  have hreach : (steadyFeed twoFeeds).Reachable (fun s => s = {}) cfg :=
    System.reachable_of_allowed (.start rfl) hplay hall
  exact ⟨cfg, hplay, hlength, shows_clean_prefix hreach⟩

/-- A refresh of the first group is on its way while the second one is selected. -/
def lateRefresh : List (System.Action (feedSystem twoFeeds)) :=
  twoPages (fun _ _ _ => True) ++ [.spawn .refresh] ++ System.turns _ 2 twoFeedGroups 2 ++
    [.spawn (.selectGroup (some "g2"))] ++ System.turns _ 3 twoFeedGroups 4 ++
    System.turns _ 2 twoFeedGroups 1

/-- The third page is on its way while a refresh is answered. -/
def overtakenLoad : List (System.Action (feedSystem twoFeeds)) :=
  twoPages (fun _ _ _ => True) ++ [.spawn .loadMore] ++ System.turns _ 2 twoFeedGroups 2 ++
    [.spawn .refresh] ++ System.turns _ 3 twoFeedGroups 3 ++ System.turns _ 2 twoFeedGroups 2

/-- A late answer is shown for the group that has been selected since, and a following page is
appended to the first one when a refresh came first. -/
theorem not_shows_clean_prefix :
    (¬∀ cfg : (feedSystem twoFeeds).Config, (feedSystem twoFeeds).Reachable (fun s => s = {}) cfg →
      ∀ e ∈ cfg.hist.world.events, cfg.hist.world.selectedGroupId = some e.groupId) ∧
    ¬∀ cfg : (feedSystem twoFeeds).Config, (feedSystem twoFeeds).Reachable (fun s => s = {}) cfg →
      ∀ groupId ∈ cfg.hist.world.selectedGroupId,
        cfg.hist.world.events <+: twoFeeds.events groupId := by
  constructor
  · intro hbelongs
    obtain ⟨cfg, hplay, hwrong⟩ : ∃ cfg,
        (feedSystem twoFeeds).play lateRefresh ((feedSystem twoFeeds).start {}) = some cfg ∧
        ¬∀ e ∈ cfg.hist.world.events, cfg.hist.world.selectedGroupId = some e.groupId :=
      System.exists_of_play (by decide +kernel)
    exact hwrong (hbelongs cfg
      (System.reachable_of_play (fun _ _ _ => trivial) (.start rfl) hplay))
  · intro hbegins
    obtain ⟨cfg, hplay, hwrong⟩ : ∃ cfg,
        (feedSystem twoFeeds).play overtakenLoad ((feedSystem twoFeeds).start {}) = some cfg ∧
        ¬∀ groupId ∈ cfg.hist.world.selectedGroupId,
          cfg.hist.world.events <+: twoFeeds.events groupId :=
      System.exists_of_play (by decide +kernel)
    exact hwrong (hbegins cfg
      (System.reachable_of_play (fun _ _ _ => trivial) (.start rfl) hplay))

end SplitBill.Frontend
