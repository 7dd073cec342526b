import DataAccess.Groups
import DataAccess.Proofs.Computation
import DataAccess.Proofs.Dictionaries
import Mathlib.Data.List.Forall2

/-!
# Services and their switches

There is one service for each data source that groups use, whatever groups and roles its name
stands in. A service has switches of its own. As no source has two services, the switches may as
well be kept by the names of the sources: closing services is closing these sources.
-/

set_option autoImplicit false

namespace DataAccess

def GroupSettings.name : GroupSettings → String
  | physical name .. => name
  | sharded name _ => name

def Group.sources : Group → List String
  | physical g => g.sources
  | sharded .. => []

/-- The services that have been built, each for the data source of this name. A service is known
by its place. -/
abbrev Services := List String

namespace Services

def serve (sources : List String) (built : Services) (name : String) :
    Except Fault (Nat × Services) :=
  if name ∈ built then .ok (built.idxOf name, built)
  else if name ∈ sources then .ok (built.length, built ++ [name])
  else .error (.unknownDataSource name)

def serveAll (sources : List String) (built : Services) :
    List String → Except Fault (List Nat × Services)
  | [] => .ok ([], built)
  | name :: rest => do
    let (place, built) ← serve sources built name
    let (places, built) ← serveAll sources built rest
    return (place :: places, built)

def addAll (sources : List String) (built : Services) (places : Dict (List Nat)) :
    List GroupSettings → Except Fault (Services × Dict (List Nat))
  | [] => .ok (built, places)
  | s :: rest => do
    let (own, built) ← serveAll sources built s.sources
    addAll sources built (places.insert s.name own) rest

def ofSettings (settings : List GroupSettings) (sources : List String) :
    Except Fault (Services × Dict (List Nat)) := addAll sources [] Dict.empty settings

def At (built : Services) (places : List Nat) (names : List String) : Prop :=
  List.Forall₂ (fun place name => built[place]? = some name) places names

/-- No source has two services, and each group has the services of its sources. -/
structure Serves (built : Services) (places : Dict (List Nat)) (gs : Groups) : Prop where
  distinct : built.Nodup
  served : ∀ name g, gs.get? name = some g →
    ∃ own, places.get? name = some own ∧ built.At own g.sources

variable {sources : List String} {built : Services}

theorem at_mono {built' : Services} (h : built <+: built') {places : List Nat}
    {names : List String} (hat : built.At places names) : built'.At places names := by
  refine hat.imp fun place name hplace => ?_
  obtain ⟨later, rfl⟩ := h
  exact List.getElem?_append_left (List.getElem?_eq_some_iff.mp hplace).1 ▸ hplace

theorem exists_source {places : List Nat} {names : List String} (hat : built.At places names)
    {place : Nat} (hplace : place ∈ places) : ∃ source ∈ names, built[place]? = some source := by
  induction hat with
  | nil => cases hplace
  | cons hfirst _ ih =>
    rcases List.mem_cons.mp hplace with rfl | hrest
    · exact ⟨_, List.mem_cons_self, hfirst⟩
    · obtain ⟨source, hsource, hbuilt⟩ := ih hrest
      exact ⟨source, List.mem_cons_of_mem _ hsource, hbuilt⟩

/-- No source has two services, and all of them have sources that are known. -/
structure Proper (sources : List String) (built : Services) : Prop where
  distinct : built.Nodup
  known : ∀ name ∈ built, name ∈ sources

theorem exists_serve (hbuilt : built.Proper sources) {name : String} (hname : name ∈ sources) :
    ∃ place built', serve sources built name = .ok (place, built') ∧ built'.Proper sources ∧
      built <+: built' ∧ built'[place]? = some name := by
  unfold serve
  by_cases h : name ∈ built
  · exact ⟨_, _, if_pos h, hbuilt, List.prefix_refl _, List.getElem?_idxOf h⟩
  · refine ⟨_, _, by rw [if_neg h, if_pos hname], ⟨?_, ?_⟩, List.prefix_append _ _, by simp⟩
    · simpa [List.nodup_append] using
        ⟨hbuilt.distinct, fun other hother heq => h (heq ▸ hother)⟩
    · simpa [or_imp, forall_and] using ⟨hbuilt.known, hname⟩

theorem serve_unknown (hbuilt : built.Proper sources) {name : String} (hname : name ∉ sources) :
    serve sources built name = .error (.unknownDataSource name) := by
  rw [serve, if_neg fun h => hname (hbuilt.known name h), if_neg hname]

theorem serveAll_cons {name : String} {names : List String} {place : Nat} {mid : Services}
    (h : serve sources built name = .ok (place, mid)) :
    serveAll sources built (name :: names) =
      (serveAll sources mid names).map fun served => (place :: served.1, served.2) := by
  rw [serveAll, h]
  change (serveAll sources mid names >>= fun served => pure (place :: served.1, served.2)) = _
  cases serveAll sources mid names <;> rfl

theorem exists_serveAll (hbuilt : built.Proper sources) {names : List String}
    (hnames : ∀ name ∈ names, name ∈ sources) :
    ∃ places built', serveAll sources built names = .ok (places, built') ∧
      built'.Proper sources ∧ built <+: built' ∧ built'.At places names := by
  induction names generalizing built with
  | nil => exact ⟨[], built, rfl, hbuilt, List.prefix_refl _, .nil⟩
  | cons name names ih =>
    rw [List.forall_mem_cons] at hnames
    obtain ⟨place, mid, hplace, hmid, hgrows, hat⟩ := exists_serve hbuilt hnames.1
    obtain ⟨places, built', hplaces, hbuilt', hgrows', hats⟩ := ih hmid hnames.2
    refine ⟨place :: places, built', ?_, hbuilt', hgrows.trans hgrows', .cons ?_ hats⟩
    · rw [serveAll_cons hplace, hplaces]
      rfl
    · exact (List.forall₂_cons.mp (at_mono hgrows' (.cons hat .nil))).1

theorem serveAll_unknown (hbuilt : built.Proper sources) {known : List String}
    (hknown : ∀ name ∈ known, name ∈ sources) {name : String} (hname : name ∉ sources)
    (rest : List String) :
    serveAll sources built (known ++ name :: rest) = .error (.unknownDataSource name) := by
  induction known generalizing built with
  | nil =>
    rw [List.nil_append, serveAll, serve_unknown hbuilt hname]
    rfl
  | cons first known ih =>
    rw [List.forall_mem_cons] at hknown
    obtain ⟨place, mid, hplace, hmid, -, -⟩ := exists_serve hbuilt hknown.1
    rw [List.cons_append, serveAll_cons hplace, ih hmid hknown.2]
    rfl

end Services

namespace Groups

variable {sources : List String}

theorem knownSource_eq_ok {name name' : String}
    (h : knownSource sources name = .ok name') : name' = name ∧ name ∈ sources := by
  unfold knownSource at h
  split at h
  · next hmem =>
    cases h
    exact ⟨rfl, hmem⟩
  · cases h

theorem ofGroup_sources {s : GroupSettings} {g : Group}
    (h : ofGroup sources s = .ok g) :
    g.name = s.name ∧ g.sources = s.sources ∧ ∀ name ∈ s.sources, name ∈ sources := by
  cases s with
  | sharded name router =>
    cases h
    exact ⟨rfl, rfl, fun _ hname => absurd hname List.not_mem_nil⟩
  | physical name master slave =>
    obtain ⟨_, hfound, hrest⟩ := bind_eq_ok.mp h
    obtain ⟨rfl, hmaster⟩ := knownSource_eq_ok hfound
    cases slave with
    | none =>
      cases hrest
      exact ⟨rfl, rfl, by simpa [GroupSettings.sources] using hmaster⟩
    | some slave =>
      obtain ⟨_, hfound, hgroup⟩ := bind_eq_ok.mp hrest
      cases hgroup
      cases hslave : knownSource sources slave with
      | error e =>
        rw [hslave] at hfound
        cases hfound
      | ok slave' =>
        rw [hslave] at hfound
        cases hfound
        obtain ⟨rfl, hslave⟩ := knownSource_eq_ok hslave
        exact ⟨rfl, rfl, by simpa [GroupSettings.sources] using ⟨hmaster, hslave⟩⟩

/-- Settings of a group are refused for the first of their sources that is unknown. -/
theorem ofGroup_refused {s : GroupSettings} {e : Fault}
    (h : ofGroup sources s = .error e) :
    ∃ known name rest, s.sources = known ++ name :: rest ∧ (∀ n ∈ known, n ∈ sources) ∧
      name ∉ sources ∧ e = .unknownDataSource name := by
  cases s with
  | sharded name router => cases h
  | physical name master slave =>
    by_cases hmaster : master ∈ sources
    · rw [ofGroup, knownSource, if_pos hmaster] at h
      cases slave with
      | none => cases h
      | some slave =>
        dsimp only [knownSource] at h
        by_cases hslave : slave ∈ sources
        · rw [if_pos hslave] at h
          cases h
        · rw [if_neg hslave] at h
          cases h
          exact ⟨[master], slave, [], rfl, by simpa using hmaster, hslave, rfl⟩
    · rw [ofGroup, knownSource, if_neg hmaster] at h
      cases h
      exact ⟨[], master, slave.toList, rfl, by simp, hmaster, rfl⟩

theorem addAll_served {built : Services} (hbuilt : built.Proper sources)
    {places : Dict (List Nat)} {start gs : Groups} (hstart : built.Serves places start)
    {settings : List GroupSettings} (h : addAll sources start settings = .ok gs) :
    ∃ built' places', Services.addAll sources built places settings = .ok (built', places') ∧
      built'.Serves places' gs := by
  induction settings generalizing built places start with
  | nil =>
    cases h
    exact ⟨built, places, rfl, hstart⟩
  | cons s settings ih =>
    obtain ⟨g, hg, h⟩ := bind_eq_ok.mp h
    obtain ⟨hname, hsources, hknown⟩ := ofGroup_sources hg
    obtain ⟨own, mid, hown, hmid, hgrows, hat⟩ := Services.exists_serveAll hbuilt hknown
    have hserves : mid.Serves (places.insert s.name own) (start.insert g.name g) := by
      refine ⟨hmid.distinct, fun name g' hg' => ?_⟩
      rw [Dict.get?_insert, hname] at hg'
      rw [Dict.get?_insert]
      split at hg'
      · next heq =>
        cases hg'
        exact ⟨own, if_pos heq, hsources ▸ hat⟩
      · next hne =>
        obtain ⟨own', hplaces, hat'⟩ := hstart.served name g' hg'
        exact ⟨own', (if_neg hne).trans hplaces, Services.at_mono hgrows hat'⟩
    obtain ⟨built', places', hall, hserves'⟩ := ih hmid hserves h
    refine ⟨built', places', ?_, hserves'⟩
    rw [Services.addAll, hown]
    exact hall

theorem addAll_refused {built : Services} (hbuilt : built.Proper sources)
    {places : Dict (List Nat)} {start : Groups} {settings : List GroupSettings} {e : Fault}
    (h : addAll sources start settings = .error e) :
    Services.addAll sources built places settings = .error e := by
  induction settings generalizing built places start with
  | nil => cases h
  | cons s settings ih =>
    rw [addAll] at h
    rw [Services.addAll]
    cases hg : ofGroup sources s with
    | error e' =>
      rw [hg] at h
      cases h
      obtain ⟨known, name, rest, hsources, hknown, hname, rfl⟩ := ofGroup_refused hg
      rw [hsources, Services.serveAll_unknown hbuilt hknown hname]
      rfl
    | ok g =>
      rw [hg] at h
      obtain ⟨own, mid, hown, hmid, -, -⟩ :=
        Services.exists_serveAll hbuilt (ofGroup_sources hg).2.2
      rw [hown]
      exact ih hmid h

/-- The services are built where the groups are set up, and refused with the same fault. -/
theorem ofSettings_services (settings : List GroupSettings) (sources : List String) :
    (∃ gs built places, ofSettings settings sources = .ok gs ∧
      Services.ofSettings settings sources = .ok (built, places) ∧ built.Serves places gs) ∨
    ∃ e, ofSettings settings sources = .error e ∧
      Services.ofSettings settings sources = .error e := by
  have hproper : Services.Proper sources [] := ⟨.nil, nofun⟩
  cases h : ofSettings settings sources with
  | error e => exact .inr ⟨e, rfl, addAll_refused hproper h⟩
  | ok gs =>
    have hempty : Services.Serves [] Dict.empty Dict.empty := ⟨.nil, fun _ _ h => by cases h⟩
    obtain ⟨built, places, hbuilt, hserves⟩ := addAll_served hproper hempty h
    exact .inl ⟨gs, built, places, rfl, hbuilt, hserves⟩

end Groups

namespace Services

variable {built : Services} {W : Type}

structure State (W : Type) where
  world : W
  status : Nat → SourceStatus
  history : List Performed
  log : List LogEntry

def close (d : Driver W) (built : Services) (place : Nat) :
    StateM (State W) (Except DriverFault Bool) := fun served =>
  match built[place]? with
  | none => (.ok false, served)
  | some source =>
    if (served.status place).closed then (.ok false, served)
    else
      let (r, world) := d.answer (.shutdown source) served.world
      (r.map fun _ => true, { served with
        world
        status := fun p =>
          if p = place then { served.status place with closed := true } else served.status p
        history := served.history ++ [⟨.shutdown source, succeeded r⟩] })

def closeAll (d : Driver W) (built : Services) : List Nat → StateM (State W) Unit
  | [] => pure ()
  | place :: rest => do
    let _ ← close d built place
    closeAll d built rest

/-- The switches by name are those of the services, and all else is the same. -/
structure Image (built : Services) (served : State W) (site : Site W) : Prop where
  world : site.world = served.world
  status : ∀ place source, built[place]? = some source → site.status source = served.status place
  history : site.history = served.history
  log : site.log = served.log

theorem close_image (d : Driver W) (hbuilt : built.Nodup) {served : State W} {site : Site W}
    (himage : built.Image served site) {place : Nat} {source : String}
    (hplace : built[place]? = some source) :
    (close d built place served).1 = (d.closeSource source site).1 ∧
      built.Image (close d built place served).2 (d.closeSource source site).2 := by
  unfold close Driver.closeSource
  rw [hplace]
  dsimp only
  rw [himage.status place source hplace]
  split
  · exact ⟨rfl, himage⟩
  · dsimp only [Driver.call, Site.setStatus]
    rw [himage.world]
    refine ⟨rfl, rfl, fun other source' hother => ?_, ?_, himage.log⟩
    · have hsame : source' = source ↔ other = place := by
        constructor
        · rintro rfl
          exact (List.getElem?_inj (List.getElem?_eq_some_iff.mp hother).1 hbuilt).mp
            (hother.trans hplace.symm)
        · rintro rfl
          exact Option.some.inj (hother.symm.trans hplace)
      simp only [hsame, himage.status other source' hother]
    · rw [himage.history]

theorem closeAll_image (d : Driver W) (hbuilt : built.Nodup) {served : State W} {site : Site W}
    (himage : built.Image served site) {places : List Nat} {names : List String}
    (hat : built.At places names) :
    built.Image (closeAll d built places served).2 (d.closeSources names site).2 := by
  induction hat generalizing served site with
  | nil => exact himage
  | cons hplace _ ih => exact ih (close_image d hbuilt himage hplace).2

end Services

end DataAccess
