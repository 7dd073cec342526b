import DataAccess.Proofs.Groups.Services
import DataAccess.Recorder

/-!
# Data sources are closed once

Groups share data sources: there is one service for each name, whatever groups and roles the name
stands in. However often the groups are shut down and in whatever order, the source of a registered
group is closed the first time, whether its driver manages to or not, and never called again.
-/

set_option autoImplicit false

namespace DataAccess

namespace Groups

theorem addAll_sorted {sources : List String} {start gs : Groups} (hstart : start.Sorted)
    {settings : List GroupSettings} (h : addAll sources start settings = .ok gs) : gs.Sorted := by
  induction settings generalizing start with
  | nil =>
    cases h
    exact hstart
  | cons s settings ih =>
    obtain ⟨g, -, h⟩ := bind_eq_ok.mp h
    exact ih (Dict.put_sorted hstart) h

/-- The data source is the master or the slave of a registered physical group. -/
def Uses (gs : Groups) (source : String) : Prop :=
  ∃ name g, gs.get? name = some (.physical g) ∧ source ∈ g.sources

theorem mem_sourcesOf {groups : List Group} {source : String} :
    source ∈ sourcesOf groups ↔ ∃ g, .physical g ∈ groups ∧ source ∈ g.sources := by
  induction groups with
  | nil => simp [sourcesOf]
  | cons group groups ih =>
    cases group with
    | physical g => simp [sourcesOf, ih, or_and_right, exists_or]
    | sharded name router => simp [sourcesOf, ih]

theorem mem_sourcesOf_iff_uses {gs : Groups} (h : gs.Sorted) {order : List Group}
    (horder : order.Perm (gs.entries.map Prod.snd)) {source : String} :
    source ∈ sourcesOf order ↔ gs.Uses source := by
  rw [mem_sourcesOf]
  constructor
  · rintro ⟨g, hg, hsource⟩
    obtain ⟨⟨name, group⟩, hmem, rfl⟩ := List.mem_map.mp (horder.mem_iff.mp hg)
    exact ⟨name, g, Dict.get?_of_mem h hmem, hsource⟩
  · rintro ⟨name, g, hg, hsource⟩
    exact ⟨g, horder.mem_iff.mpr (List.mem_map_of_mem (Dict.mem_of_get? hg)), hsource⟩

end Groups

section
variable {W : Type}

def Site.shutdowns (site : Site W) (source : String) : Nat :=
  site.history.countP (·.call = .shutdown source)

/-- Behind `after` the sources are closed, and those that were closed before. Each of the former
was called once, unless it was one of the latter; no other was called. -/
structure Closing (sources : String → Prop) (before after : Site W) : Prop where
  closed : ∀ source, (after.status source).closed = true ↔
    sources source ∨ (before.status source).closed = true
  once : ∀ source, after.shutdowns source + (before.status source).closed.toNat =
    before.shutdowns source + (after.status source).closed.toNat
  history : before.history <+: after.history

theorem closing_refl (site : Site W) : Closing (fun _ => False) site site where
  closed _ := (false_or _).symm.to_iff
  once _ := rfl
  history := List.prefix_refl _

theorem closing_trans {sources sources' : String → Prop} {before mid after : Site W}
    (h : Closing sources before mid) (h' : Closing sources' mid after) :
    Closing (fun source => sources source ∨ sources' source) before after where
  closed source := by
    rw [h'.closed, h.closed]
    tauto
  once source := by
    have hfirst := h.once source
    have hlater := h'.once source
    omega
  history := h.history.trans h'.history

theorem closing_congr {sources sources' : String → Prop} {before after : Site W}
    (h : Closing sources before after) (heq : ∀ source, sources source ↔ sources' source) :
    Closing sources' before after :=
  { h with closed := fun source => by rw [h.closed, heq] }

theorem closeSource_closing (d : Driver W) (source : String) (site : Site W) :
    Closing (· = source) site (d.closeSource source site).2 := by
  unfold Driver.closeSource
  split
  · next hclosed =>
    refine { closing_refl site with closed := fun other => ?_ }
    constructor
    · exact .inr
    · rintro (rfl | h)
      · exact hclosed
      · exact h
  · next hopen =>
    refine ⟨fun other => ?_, fun other => ?_, List.prefix_append _ _⟩
    · by_cases h : other = source <;> simp [Driver.call, Site.setStatus, h]
    · by_cases h : other = source
      · simp [Driver.call, Site.setStatus, Site.shutdowns, h, hopen]
      · simp [Driver.call, Site.setStatus, Site.shutdowns, h, Ne.symm h]

theorem closeSources_closing (d : Driver W) (sources : List String) (site : Site W) :
    Closing (· ∈ sources) site (d.closeSources sources site).2 := by
  induction sources generalizing site with
  | nil => exact closing_congr (closing_refl site) (by simp)
  | cons source sources ih =>
    have hfirst := closeSource_closing d source site
    exact closing_congr (closing_trans hfirst (ih (d.closeSource source site).2)) (by simp)

structure Quiet (before after : Site W) : Prop where
  closed : ∀ source, (after.status source).closed = (before.status source).closed
  calls : ∃ calls, after.history = before.history ++ calls ∧
    ∀ p ∈ calls, ∀ source, p.call ≠ .shutdown source

theorem quiet_closing {before after : Site W} (h : Quiet before after) :
    Closing (fun _ => False) before after := by
  obtain ⟨calls, hcalls, hother⟩ := h.calls
  refine ⟨fun source => by simp [h.closed], fun source => ?_, ⟨calls, hcalls.symm⟩⟩
  have hnone : calls.countP (·.call = .shutdown source) = 0 := by
    rw [List.countP_eq_zero]
    intro p hp
    simpa using hother p hp source
  rw [h.closed, Site.shutdowns, hcalls, List.countP_append, hnone]
  rfl

theorem enable_quiet (site : Site W) (source : String) (enabled : Bool) :
    Quiet site (site.enable source enabled) where
  closed other := by by_cases h : other = source <;> simp [Site.enable, Site.setStatus, h]
  calls := ⟨[], (List.append_nil _).symm, fun _ h => absurd h List.not_mem_nil⟩

/-- The groups are shut down at least once, each time in an order of its own. Behind that their
services may also be closed one by one. -/
inductive ShutDown (d : Driver W) (groups : List Group) : Site W → Site W → Prop
  | first {site : Site W} {order : List Group} (horder : order.Perm groups) :
    ShutDown d groups site (d.shutdown order site).2
  | between {site mid after : Site W} (h : ShutDown d groups site mid) (hquiet : Quiet mid after) :
    ShutDown d groups site after
  | again {site mid : Site W} {order : List Group} (h : ShutDown d groups site mid)
    (horder : order.Perm groups) : ShutDown d groups site (d.shutdown order mid).2
  | alone {site mid : Site W} {source : String} (h : ShutDown d groups site mid)
    (hsource : source ∈ Groups.sourcesOf groups) :
    ShutDown d groups site (d.closeSource source mid).2

end

namespace Services

variable {W : Type} {d : Driver W} {built : Services} {places : Dict (List Nat)} {gs : Groups}

structure Quiet (before after : State W) : Prop where
  closed : ∀ place, (after.status place).closed = (before.status place).closed
  calls : ∃ calls, after.history = before.history ++ calls ∧
    ∀ p ∈ calls, ∀ source, p.call ≠ .shutdown source

def placesOf (places : Dict (List Nat)) : List (String × Group) → List Nat
  | [] => []
  | (name, _) :: rest => (places.get? name).getD [] ++ placesOf places rest

inductive ShutDown (d : Driver W) (built : Services) (places : Dict (List Nat))
    (groups : List (String × Group)) : State W → State W → Prop
  | first {served : State W} {order : List (String × Group)} (horder : order.Perm groups) :
    ShutDown d built places groups served (closeAll d built (placesOf places order) served).2
  | between {served mid after : State W} (h : ShutDown d built places groups served mid)
      (hquiet : Quiet mid after) : ShutDown d built places groups served after
  | again {served mid : State W} {order : List (String × Group)}
      (h : ShutDown d built places groups served mid) (horder : order.Perm groups) :
    ShutDown d built places groups served (closeAll d built (placesOf places order) mid).2
  | alone {served mid : State W} {place : Nat} (h : ShutDown d built places groups served mid)
      (hplace : place ∈ placesOf places groups) :
    ShutDown d built places groups served (close d built place mid).2

theorem at_placesOf (hserves : built.Serves places gs) {order : List (String × Group)}
    (horder : ∀ entry ∈ order, gs.get? entry.1 = some entry.2) :
    built.At (placesOf places order) (Groups.sourcesOf (order.map Prod.snd)) := by
  induction order with
  | nil => exact .nil
  | cons entry rest ih =>
    obtain ⟨name, g⟩ := entry
    rw [List.forall_mem_cons] at horder
    obtain ⟨own, hown, hat⟩ := hserves.served name g horder.1
    have hrest := ih horder.2
    rw [placesOf, hown]
    cases g with
    | physical g => exact List.rel_append hat hrest
    | sharded name router =>
      cases hat
      exact hrest

theorem exists_quiet_image {served mid : State W} {site : Site W} (hbuilt : built.Nodup)
    (himage : built.Image served site) (hquiet : Quiet served mid) :
    ∃ site', DataAccess.Quiet site site' ∧ built.Image mid site' := by
  obtain ⟨calls, hcalls, hother⟩ := hquiet.calls
  refine ⟨{ world := mid.world, history := mid.history, log := mid.log, status := fun name =>
    if name ∈ built then mid.status (built.idxOf name) else site.status name }, ⟨fun source => ?_,
      calls, himage.history ▸ hcalls, hother⟩, rfl, fun place source hplace => ?_, rfl, rfl⟩
  · dsimp only
    split
    · next hmem => rw [hquiet.closed, himage.status _ _ (List.getElem?_idxOf hmem)]
    · rfl
  · obtain ⟨hlt, rfl⟩ := List.getElem?_eq_some_iff.mp hplace
    dsimp only
    rw [if_pos (List.getElem_mem hlt), hbuilt.idxOf_getElem]

/-- Whatever is done by the services is done by the names of their sources. -/
theorem shutDown_image (hsorted : gs.Sorted) (hserves : built.Serves places gs)
    {served closed : State W} (h : ShutDown d built places gs.entries served closed)
    {site : Site W} (himage : built.Image served site) :
    ∃ after, DataAccess.ShutDown d (gs.entries.map Prod.snd) site after ∧
      built.Image closed after := by
  have hat {order : List (String × Group)} (horder : order.Perm gs.entries) :=
    at_placesOf hserves fun entry hentry => Dict.get?_of_mem hsorted (horder.mem_iff.mp hentry)
  induction h with
  | first horder =>
    exact ⟨_, .first (horder.map Prod.snd),
      closeAll_image d hserves.distinct himage (hat horder)⟩
  | between _ hquiet ih =>
    obtain ⟨mid, hrun, hmid⟩ := ih
    obtain ⟨after, hsame, hafter⟩ := exists_quiet_image hserves.distinct hmid hquiet
    exact ⟨after, hrun.between hsame, hafter⟩
  | again _ horder ih =>
    obtain ⟨mid, hrun, hmid⟩ := ih
    exact ⟨_, hrun.again (horder.map Prod.snd),
      closeAll_image d hserves.distinct hmid (hat horder)⟩
  | alone _ hplace ih =>
    obtain ⟨mid, hrun, hmid⟩ := ih
    obtain ⟨source, hsource, hbuilt⟩ := exists_source (hat (.refl _)) hplace
    exact ⟨_, hrun.alone hsource, (close_image d hserves.distinct hmid hbuilt).2⟩

end Services

namespace Groups

variable {W : Type}

theorem shutdown_closing (d : Driver W) {gs : Groups} (hsorted : gs.Sorted) {order : List Group}
    (horder : order.Perm (gs.entries.map Prod.snd)) (site : Site W) :
    Closing gs.Uses site (d.shutdown order site).2 :=
  closing_congr (closeSources_closing d (sourcesOf order) site)
    fun _ => mem_sourcesOf_iff_uses hsorted horder

theorem shutDown_closing {d : Driver W} {gs : Groups} (hsorted : gs.Sorted) {site after : Site W}
    (h : ShutDown d (gs.entries.map Prod.snd) site after) : Closing gs.Uses site after := by
  induction h with
  | first horder => exact shutdown_closing d hsorted horder _
  | between _ hquiet ih => exact closing_congr (closing_trans ih (quiet_closing hquiet)) (by simp)
  | again _ horder ih =>
    exact closing_congr (closing_trans ih (shutdown_closing d hsorted horder _)) (by simp)
  | @alone _ closed _ hsource ih =>
    have hused : gs.Uses closed := (mem_sourcesOf_iff_uses hsorted (.refl _)).mp hsource
    refine closing_congr (closing_trans ih (closeSource_closing d closed _)) fun source => ?_
    exact or_iff_left_of_imp fun heq => heq ▸ hused

/-- Groups are set up by settings and shut down any number of times. There is one service for each
data source that is used, and shutting down the services, each with switches of its own, comes to
the same by the names of their sources. From the first shutdown on, each source of a registered
group is called to close exactly once and no other source at all, whichever of these calls fail;
and behind it no source of a registered group is available. -/
theorem shutdown_once (d : Driver W) {settings : List GroupSettings} {sources : List String}
    {gs : Groups} (hgs : ofSettings settings sources = .ok gs) {site after : Site W}
    (hopen : ∀ source, gs.Uses source → (site.status source).closed = false)
    (h : ShutDown d (gs.entries.map Prod.snd) site after) :
    (∃ built places, Services.ofSettings settings sources = .ok (built, places) ∧
      built.Serves places gs ∧
      ∀ served closed, built.Image served site →
        built.ShutDown d places gs.entries served closed →
        ∃ after, ShutDown d (gs.entries.map Prod.snd) site after ∧ built.Image closed after) ∧
    site.history <+: after.history ∧
    ∀ source,
      (gs.Uses source → after.shutdowns source = site.shutdowns source + 1 ∧
        after.isAvailable source = false) ∧
      (¬ gs.Uses source → after.shutdowns source = site.shutdowns source) := by
  have hsorted := addAll_sorted .nil hgs
  have hclosing := shutDown_closing hsorted h
  obtain ⟨built, places, hbuilt, hserves⟩ :
      ∃ built places, Services.ofSettings settings sources = .ok (built, places) ∧
        built.Serves places gs := by
    rcases ofSettings_services settings sources with
      ⟨gs', built, places, hgs', hbuilt, hserves⟩ | ⟨e, hrefused, -⟩
    · obtain rfl := Except.ok.inj (hgs.symm.trans hgs')
      exact ⟨built, places, hbuilt, hserves⟩
    · cases hgs.symm.trans hrefused
  refine ⟨⟨built, places, hbuilt, hserves, fun served closed himage hrun =>
    Services.shutDown_image hsorted hserves hrun himage⟩, hclosing.history,
      fun source => ⟨fun hused => ?_, fun hunused => ?_⟩⟩
  · have hclosed := (hclosing.closed source).mpr (.inl hused)
    have honce := hclosing.once source
    rw [hopen source hused, hclosed] at honce
    exact ⟨honce, by simp [Site.isAvailable, SourceStatus.isAvailable, hclosed]⟩
  · have hsame : (after.status source).closed = (site.status source).closed := by
      rw [Bool.eq_iff_iff, hclosing.closed]
      simp [hunused]
    have honce := hclosing.once source
    rw [hsame] at honce
    exact Nat.add_right_cancel honce

/-- Two groups share their sources with the roles exchanged, and a third one is replaced before
anything is shut down. The slave fails to close, and is switched on again between two shutdowns
that take the groups in different orders. -/
theorem shutdown_once_shared :
    let settings := [.physical "old" "lost" none, .physical "default" "master" (some "slave"),
      .physical "copy" "slave" (some "master"), .sharded "old" (.modulo "id" ["default", "copy"])]
    let site : Site Recorder := { world := { failing := [("shutdown", "slave")] } }
    ∃ gs after, ofSettings settings ["master", "slave", "lost"] = .ok gs ∧
      ShutDown Recorder.driver (gs.entries.map Prod.snd) site after ∧
      after.shutdowns "master" = 1 ∧ after.shutdowns "slave" = 1 ∧
      after.isAvailable "slave" = false ∧ after.shutdowns "lost" = 0 := by
  intro settings site
  let master : PhysicalGroup := ⟨"default", "master", some "slave"⟩
  let copy : PhysicalGroup := ⟨"copy", "slave", some "master"⟩
  let old : Group := .sharded "old" (.modulo "id" ["default", "copy"])
  let gs : Groups := ⟨[("copy", .physical copy), ("default", .physical master), ("old", old)]⟩
  have hgs : ofSettings settings ["master", "slave", "lost"] = .ok gs := by decide +kernel
  have hfirst : [old, .physical master, .physical copy].Perm (gs.entries.map Prod.snd) := by
    decide +kernel
  have hshut := ((ShutDown.first hfirst : ShutDown Recorder.driver _ site _).between
    (enable_quiet _ "slave" true)).again (.refl _)
  obtain ⟨-, -, hclosed⟩ := shutdown_once Recorder.driver hgs (fun _ _ => rfl) hshut
  have hmaster : gs.Uses "master" := ⟨"default", master, by decide, by decide⟩
  have hslave : gs.Uses "slave" := ⟨"default", master, by decide, by decide⟩
  have hlost : ¬ gs.Uses "lost" := by
    rw [← mem_sourcesOf_iff_uses (addAll_sorted .nil hgs) (.refl _)]
    decide
  exact ⟨gs, _, hgs, hshut, ((hclosed "master").1 hmaster).1, ((hclosed "slave").1 hslave).1,
    ((hclosed "slave").1 hslave).2, (hclosed "lost").2 hlost⟩

end Groups

end DataAccess
