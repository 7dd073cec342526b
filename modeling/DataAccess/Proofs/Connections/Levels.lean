import DataAccess.Proofs.Connections.Calls
import DataAccess.Recorder
import Mathlib.Logic.Function.Basic

/-!
# The levels of held connections

A driver that keeps levels reports for a connection the level that was last set on it, or the
one it was opened with. Where no call fails, every connection is brought to the level of the
override, remembers the level it was opened with as long as there is one, and is put back to
it before it is closed.
-/

set_option autoImplicit false

namespace DataAccess

def Call.movesLevel (conn : Nat) : Call → Bool
  | connect c _ => c == conn
  | setIsolation c _ => c == conn
  | _ => false

section
variable {W : Type}

/-- The levels that a driver keeps for its connections: a connection has one from its opening
on, the level last set on it is the one it reports, and no other call moves it. A call that
fails may do anything. -/
structure Driver.KeepsLevels (d : Driver W) (level? : W → Nat → Option Isolation) : Prop where
  opens : ∀ {conn source w w'}, d.answer (.connect conn source) w = (.ok (), w') →
    (level? w' conn).isSome
  reports : ∀ {conn w w'} {l : Isolation}, d.answer (.isolation conn) w = (.ok l, w') →
    (level? w conn).isSome → level? w conn = some l
  sets : ∀ {conn l w w'}, d.answer (.setIsolation conn l) w = (.ok (), w') →
    (level? w conn).isSome → level? w' conn = some l
  keeps : ∀ {c w a w' conn}, d.answer c w = (.ok a, w') → c.movesLevel conn = false →
    level? w' conn = level? w conn

def Site.Unfailing (before after : Site W) : Prop :=
  ∃ calls, after.history = before.history ++ calls ∧ ∀ p ∈ calls, p.succeeded = true

namespace Site

theorem unfailing_iff {before after : Site W} : before.Unfailing after ↔
    before.history <+: after.history ∧
      ∀ p ∈ after.history.drop before.history.length, p.succeeded = true := by
  constructor
  · rintro ⟨calls, hcalls, hall⟩
    rw [hcalls, List.drop_left]
    exact ⟨List.prefix_append .., hall⟩
  · rintro ⟨⟨calls, hcalls⟩, hall⟩
    rw [← hcalls, List.drop_left] at hall
    exact ⟨calls, hcalls.symm, hall⟩

instance (before after : Site W) : Decidable (before.Unfailing after) :=
  decidable_of_iff _ unfailing_iff.symm

theorem unfailing_split {a b c : Site W} {first second : Deeds} (h : a.Unfailing c)
    (hab : a.Did b first) (hbc : b.Did c second) : a.Unfailing b ∧ b.Unfailing c := by
  obtain ⟨calls, hcalls, hall⟩ := h
  obtain ⟨front, back, rfl, hfront, hback⟩ := calls_split hcalls hab hbc
  exact ⟨⟨front, hfront, fun p hp => hall p (List.mem_append_left back hp)⟩,
    ⟨back, hback, fun p hp => hall p (List.mem_append_right front hp)⟩⟩

theorem not_unfailing_of_failed {a b : Site W} {conn : Nat} (h : a.FailedToPrepare b conn) :
    ¬ a.Unfailing b := by
  rintro ⟨calls, hcalls, hall⟩
  obtain ⟨more, hmore, p, hp, -, hfailed⟩ := h
  have heq : calls = more := List.append_cancel_left (hcalls.symm.trans hmore)
  rw [hall p (heq ▸ hp)] at hfailed
  cases hfailed

end Site

variable {d : Driver W} {level? : W → Nat → Option Isolation}

theorem call_of_unfailing {c : Call} {site after : Site W} {r : Except DriverFault c.Answer}
    (hcall : d.call c site = (r, after)) (hno : site.Unfailing after) :
    ∃ a, r = .ok a ∧ d.answer c site.world = (.ok a, after.world) ∧
      after.history = site.history ++ [⟨c, true⟩] := by
  rcases hanswer : d.answer c site.world with ⟨answered, w⟩
  rw [Driver.call, hanswer] at hcall
  obtain ⟨rfl, rfl⟩ := Prod.mk.inj hcall
  cases answered with
  | ok a => exact ⟨a, rfl, rfl, rfl⟩
  | error e =>
    obtain ⟨calls, hcalls, hall⟩ := hno
    have hlast : calls = [⟨c, false⟩] := (List.append_cancel_left hcalls).symm
    rw [hlast] at hall
    cases hall _ (List.mem_singleton_self _)

theorem call_levels (hd : d.KeepsLevels level?) {c : Call} {site : Site W}
    (hno : site.Unfailing (d.call c site).2) {conn : Nat} (hc : c.movesLevel conn = false) :
    level? (d.call c site).2.world conn = level? site.world conn := by
  obtain ⟨a, -, hanswer, -⟩ := call_of_unfailing rfl hno
  exact hd.keeps hanswer hc

/-- Under the override the connection is at its level, and remembers the level it was opened
with; without one it is at that level and remembers none. -/
structure Settled (level? : W → Nat → Option Isolation) (opened : Nat → Option Isolation)
    (override? : Option Isolation) (w : W) (h : Held) : Prop where
  known : (opened h.conn).isSome
  saved : h.saved = override?.bind fun _ => opened h.conn
  level : level? w h.conn = override?.or (opened h.conn)

variable {opened : Nat → Option Isolation} {before? after? : Option Isolation}

theorem settled_known {w : W} {h : Held} (hs : Settled level? opened before? w h) :
    (level? w h.conn).isSome := by
  rw [hs.level]
  cases before? with
  | none => exact hs.known
  | some l => rfl

theorem settled_congr {w w' : W} {h : Held} (hs : Settled level? opened before? w h)
    (hw : level? w' h.conn = level? w h.conn) : Settled level? opened before? w' h :=
  ⟨hs.known, hs.saved, hw.trans hs.level⟩

theorem settled_opened {w : W} {h : Held} {opened' : Nat → Option Isolation}
    (hs : Settled level? opened before? w h) (heq : opened' h.conn = opened h.conn) :
    Settled level? opened' before? w h :=
  ⟨heq ▸ hs.known, heq ▸ hs.saved, heq ▸ hs.level⟩

theorem setIsolation_levels (hd : d.KeepsLevels level?) (conn : Nat) (l : Isolation)
    {site : Site W} (hno : site.Unfailing (d.call (.setIsolation conn l) site).2)
    (hknown : (level? site.world conn).isSome) :
    level? (d.call (.setIsolation conn l) site).2.world conn = some l ∧
      ∀ c, c ≠ conn →
        level? (d.call (.setIsolation conn l) site).2.world c = level? site.world c := by
  obtain ⟨⟨⟩, -, hanswer, -⟩ := call_of_unfailing rfl hno
  refine ⟨hd.sets hanswer hknown, fun c hc => call_levels hd hno ?_⟩
  simpa [Call.movesLevel] using Ne.symm hc

theorem apply_first (hd : d.KeepsLevels level?) {h : Held} (hsaved : h.saved = none)
    {l : Isolation} {site : Site W} (hno : site.Unfailing (h.apply d (some l) site).2)
    (hknown : (level? site.world h.conn).isSome) :
    (h.apply d (some l) site).1.2 = { h with saved := level? site.world h.conn } ∧
      level? (h.apply d (some l) site).2.world h.conn = some l ∧
      ∀ c, c ≠ h.conn →
        level? (h.apply d (some l) site).2.world c = level? site.world c := by
  obtain ⟨group, conn, saved⟩ := h
  cases hsaved
  have hasked := call_did d (.isolation conn) site
  unfold Held.apply at hno ⊢
  rcases hcall : d.call (.isolation conn) site with ⟨r, mid⟩
  simp only [bind_site, hcall] at hno hasked ⊢
  cases r with
  | error e =>
    obtain ⟨l₀, hl, -⟩ := call_of_unfailing hcall hno
    cases hl
  | ok saved =>
    obtain ⟨hasks, hsets⟩ := Site.unfailing_split hno hasked (call_did d (.setIsolation conn l) mid)
    obtain ⟨l₀, hl, hanswer, -⟩ := call_of_unfailing hcall hasks
    cases hl
    have hsame (c : Nat) : level? mid.world c = level? site.world c := hd.keeps hanswer rfl
    obtain ⟨hset, hother⟩ := setIsolation_levels hd conn l hsets (hsame conn ▸ hknown)
    refine ⟨?_, hset, fun c hc => (hother c hc).trans (hsame c)⟩
    rw [hd.reports hanswer hknown]
    rfl

theorem apply_settled (hd : d.KeepsLevels level?) {h : Held} {site : Site W}
    (hs : Settled level? opened before? site.world h)
    (hno : site.Unfailing (h.apply d after? site).2) :
    Settled level? opened after? (h.apply d after? site).2.world (h.apply d after? site).1.2 ∧
      ∀ c, c ≠ h.conn →
        level? (h.apply d after? site).2.world c = level? site.world c := by
  have hknown := settled_known hs
  have hsaved := hs.saved
  have hlevel := hs.level
  obtain ⟨group, conn, saved⟩ := h
  obtain ⟨l₀, hopened⟩ : ∃ l, opened conn = some l := Option.isSome_iff_exists.mp hs.known
  simp only at hsaved hlevel hknown
  subst hsaved
  cases after? with
  | none =>
    cases before? with
    | none => exact ⟨hs, fun _ _ => rfl⟩
    | some b =>
      rw [Option.bind_some, hopened] at hno ⊢
      obtain ⟨hset, hother⟩ := setIsolation_levels hd conn l₀ hno hknown
      exact ⟨⟨hs.known, rfl, hset.trans hopened.symm⟩, hother⟩
  | some l =>
    cases before? with
    | some b =>
      rw [Option.bind_some, hopened] at hno ⊢
      obtain ⟨hset, hother⟩ := setIsolation_levels hd conn l hno hknown
      exact ⟨⟨hs.known, hopened.symm, hset⟩, hother⟩
    | none =>
      obtain ⟨hheld, hset, hother⟩ := apply_first hd rfl hno hknown
      rw [hheld]
      exact ⟨⟨hs.known, hlevel, hset⟩, hother⟩

def SameElsewhere (level? : W → Nat → Option Isolation) (conns : List Nat) (w w' : W) : Prop :=
  ∀ c, c ∉ conns → level? w' c = level? w c

theorem settled_others {w w' : W} {conn : Nat} {rest : List Held}
    (hconn : conn ∉ rest.map (·.conn)) (hall : ∀ k ∈ rest, Settled level? opened before? w k)
    (hother : ∀ c, c ≠ conn → level? w' c = level? w c) :
    ∀ k ∈ rest, Settled level? opened before? w' k := by
  intro k hk
  apply settled_congr (hall k hk)
  apply hother
  rintro rfl
  exact hconn (List.mem_map_of_mem hk)

theorem applyAll_settled (hd : d.KeepsLevels level?) {hs : List Held} {site : Site W}
    (hdistinct : (hs.map (·.conn)).Nodup)
    (hall : ∀ h ∈ hs, Settled level? opened before? site.world h)
    (hno : site.Unfailing (applyAll d after? hs site).2) :
    (∀ h ∈ (applyAll d after? hs site).1.2,
      Settled level? opened after? (applyAll d after? hs site).2.world h) ∧
      SameElsewhere level? (hs.map (·.conn)) site.world (applyAll d after? hs site).2.world := by
  induction hs generalizing site with
  | nil => exact ⟨fun h hh => absurd hh (List.not_mem_nil), fun _ _ => rfl⟩
  | cons h rest ih =>
    rw [List.map_cons, List.nodup_cons] at hdistinct
    obtain ⟨hfirst, hconn, -, -⟩ := apply_madeReady d h after? site
    obtain ⟨hrest, hconns, -⟩ := applyAll_did d after? rest (h.apply d after? site).2
    simp only [applyAll, bind_site] at hno ⊢
    obtain ⟨hnofirst, hnorest⟩ := Site.unfailing_split hno hfirst hrest
    obtain ⟨hsettled, hother⟩ := apply_settled hd (hall h List.mem_cons_self) hnofirst
    have hmid := settled_others hdistinct.1 (fun k hk => hall k (List.mem_cons_of_mem h hk)) hother
    obtain ⟨hsettledrest, hsame⟩ := ih hdistinct.2 hmid hnorest
    constructor
    · intro k hk
      rcases List.mem_cons.mp hk with rfl | hk
      · apply settled_congr hsettled
        apply hsame
        rw [hconn]
        exact hdistinct.1
      · exact hsettledrest k hk
    · intro c hc
      rw [List.map_cons, List.mem_cons, not_or] at hc
      exact (hsame c hc.2).trans (hother c hc.1)

theorem applyAll_fault {hs : List Held} {site : Site W}
    (hno : site.Unfailing (applyAll d after? hs site).2) :
    (applyAll d after? hs site).1.1 = none := by
  induction hs generalizing site with
  | nil => rfl
  | cons h rest ih =>
    obtain ⟨hfirst, -, -, hfailed⟩ := apply_madeReady d h after? site
    have hrest := (applyAll_did d after? rest (h.apply d after? site).2).1
    simp only [applyAll, bind_site] at hno ⊢
    obtain ⟨hnofirst, hnorest⟩ := Site.unfailing_split hno hfirst hrest
    have hlater := ih hnorest
    cases hr : (h.apply d after? site).1.1 with
    | error e => exact absurd hnofirst (Site.not_unfailing_of_failed (hfailed e hr))
    | ok _ => exact hlater

theorem callAll_levels {run : Nat → Effect W (Except DriverFault Unit)}
    (hdid : ∀ conn (site : Site W), site.Did (run conn site).2 {})
    (hrun : ∀ conn (site : Site W), site.Unfailing (run conn site).2 →
      level? (run conn site).2.world = level? site.world)
    {hs : List Held} {site : Site W} (hno : site.Unfailing (callAll run hs site).2) :
    level? (callAll run hs site).2.world = level? site.world := by
  induction hs generalizing site with
  | nil => rfl
  | cons h rest ih =>
    simp only [callAll, bind_site] at hno ⊢
    obtain ⟨hnofirst, hnorest⟩ := Site.unfailing_split hno (hdid h.conn site)
      (callAll_did hdid rest (run h.conn site).2)
    exact (ih hnorest).trans (hrun h.conn site hnofirst)

def releaseCalls (override? opened? : Option Isolation) (conn : Nat) : List Performed :=
  (override?.bind fun _ => opened?).toList.map (fun l => ⟨.setIsolation conn l, true⟩) ++
    [⟨.close conn, true⟩]

theorem restore_history {h : Held} {site : Site W} (hno : site.Unfailing (h.apply d none site).2) :
    (h.apply d none site).2.history =
      site.history ++ h.saved.toList.map fun l => ⟨.setIsolation h.conn l, true⟩ := by
  obtain ⟨group, conn, saved⟩ := h
  cases saved with
  | none => exact (List.append_nil _).symm
  | some l =>
    rcases hcall : d.call (.setIsolation conn l) site with ⟨r, after⟩
    have happly : (Held.apply d ⟨group, conn, some l⟩ none site).2 = after :=
      congrArg Prod.snd hcall
    rw [happly] at hno ⊢
    obtain ⟨-, -, -, hhistory⟩ := call_of_unfailing hcall hno
    exact hhistory

theorem release_restores (hd : d.KeepsLevels level?) {h restored : Held} {site mid after : Site W}
    {r closed : Except DriverFault Unit} (hs : Settled level? opened before? site.world h)
    (happly : h.apply d none site = ((r, restored), mid))
    (hclose : d.call (.close restored.conn) mid = (closed, after)) (hno : site.Unfailing after) :
    after.history = site.history ++ releaseCalls before? (opened h.conn) h.conn ∧
      level? after.world h.conn = opened h.conn ∧
      ∀ c, c ≠ h.conn → level? after.world c = level? site.world c := by
  obtain ⟨hdid, hconn, -, -⟩ := apply_madeReady d h none site
  have hclosed := call_did d (.close restored.conn) mid
  rw [happly] at hdid hconn
  rw [hclose] at hclosed
  obtain ⟨hnorestore, hnoclose⟩ := Site.unfailing_split hno hdid hclosed
  have hnone : site.Unfailing (h.apply d none site).2 := by rwa [happly]
  obtain ⟨hrestored, hother⟩ := apply_settled hd hs hnone
  have hput := restore_history hnone
  rw [happly] at hrestored hother hput
  obtain ⟨_, -, hanswer, hhistory⟩ := call_of_unfailing hclose hnoclose
  have hsame (c : Nat) : level? after.world c = level? mid.world c := hd.keeps hanswer rfl
  simp only at hconn hput hrestored hother
  refine ⟨?_, ?_, fun c hc => (hsame c).trans (hother c hc)⟩
  · rw [hhistory, hput, List.append_assoc, releaseCalls, hs.saved, hconn]
  · rw [hsame, ← hconn, hrestored.level, Option.none_or]

theorem releaseAll_restores (hd : d.KeepsLevels level?) {hs : List Held} {site : Site W}
    (hdistinct : (hs.map (·.conn)).Nodup)
    (hall : ∀ h ∈ hs, Settled level? opened before? site.world h)
    (hno : site.Unfailing (releaseAll d hs site).2) :
    (releaseAll d hs site).2.history =
      site.history ++ hs.flatMap (fun h => releaseCalls before? (opened h.conn) h.conn) ∧
      (∀ h ∈ hs, level? (releaseAll d hs site).2.world h.conn = opened h.conn) ∧
      SameElsewhere level? (hs.map (·.conn)) site.world (releaseAll d hs site).2.world := by
  induction hs generalizing site with
  | nil => exact ⟨(List.append_nil _).symm, fun h hh => absurd hh List.not_mem_nil, fun _ _ => rfl⟩
  | cons h rest ih =>
    rw [List.map_cons, List.nodup_cons] at hdistinct
    have hdid := (apply_madeReady d h none site).1
    rcases happly : h.apply d none site with ⟨⟨r, restored⟩, mid⟩
    rcases hclose : d.call (.close restored.conn) mid with ⟨closed, after⟩
    have hclosed := call_did d (.close restored.conn) mid
    rw [happly] at hdid
    rw [hclose] at hclosed
    have hrest := releaseAll_did d rest after
    have hwhole : (releaseAll d (h :: rest) site).2 = (releaseAll d rest after).2 := by
      show (releaseAll d rest (d.call (.close (h.apply d none site).1.2.conn)
        (h.apply d none site).2).2).2 = _
      rw [happly, hclose]
    rw [hwhole] at hno ⊢
    obtain ⟨hnofirst, hnorest⟩ := Site.unfailing_split hno (Site.did_trans hdid hclosed) hrest
    obtain ⟨hfirst, hlevel, hother⟩ :=
      release_restores hd (hall h List.mem_cons_self) happly hclose hnofirst
    have hafter :=
      settled_others hdistinct.1 (fun k hk => hall k (List.mem_cons_of_mem h hk)) hother
    obtain ⟨hhistory, hlevels, hsame⟩ := ih hdistinct.2 hafter hnorest
    refine ⟨?_, ?_, ?_⟩
    · rw [hhistory, hfirst, List.append_assoc, List.flatMap_cons]
    · intro k hk
      rcases List.mem_cons.mp hk with rfl | hk
      · exact (hsame k.conn hdistinct.1).trans hlevel
      · exact hlevels k hk
    · intro c hc
      rw [List.map_cons, List.mem_cons, not_or] at hc
      exact (hsame c hc.2).trans (hother c hc.1)

def levelAtOpening (d : Driver W) (level? : W → Nat → Option Isolation) (cs : Connections)
    (g : PhysicalGroup) (site : Site W) : Option Isolation :=
  match cs.access.pick site g with
  | .ok source =>
    level? (d.call (.connect site.history.length source) site).2.world site.history.length
  | .error _ => none

theorem setAutoCommit_levels (hd : d.KeepsLevels level?) {cs : Connections} {conn : Nat}
    {site : Site W} (hno : site.Unfailing (Connections.setAutoCommit d cs conn site).2) (c : Nat) :
    level? (Connections.setAutoCommit d cs conn site).2.world c = level? site.world c := by
  unfold Connections.setAutoCommit at hno ⊢
  generalize cs.access = access at hno ⊢
  cases access with
  | write autoCommit => exact call_levels hd hno rfl
  | _ => rfl

theorem ready_settled (hd : d.KeepsLevels level?) (cs : Connections) {h : Held} {site : Site W}
    (hs : Settled level? opened none site.world h)
    (hno : site.Unfailing (Connections.ready d cs h site).2) :
    ((Connections.ready d cs h site).1.1 = .ok () →
      Settled level? opened cs.current (Connections.ready d cs h site).2.world
        (Connections.ready d cs h site).1.2) ∧
      ∀ c, c ≠ h.conn →
        level? (Connections.ready d cs h site).2.world c = level? site.world c := by
  have hdid := (setAutoCommit_madeReady d cs h site).1
  have hset (hno : site.Unfailing (Connections.setAutoCommit d cs h.conn site).2) :=
    setAutoCommit_levels hd hno
  rcases ready_cases d cs h site with ⟨e, -, heq⟩ | ⟨-, hcurrent, heq⟩ | ⟨-, -, heq⟩ <;>
    rw [heq] at hno ⊢
  · exact ⟨nofun, fun c _ => hset hno c⟩
  · rw [hcurrent]
    exact ⟨fun _ => settled_congr hs (hset hno h.conn), fun c _ => hset hno c⟩
  · obtain ⟨hnoset, hnoapply⟩ :=
      Site.unfailing_split hno hdid (apply_madeReady d h cs.current _).1
    have hmid := settled_congr hs (hset hnoset h.conn)
    obtain ⟨hsettled, hother⟩ := apply_settled hd hmid hnoapply
    exact ⟨fun _ => hsettled, fun c hc => (hother c hc).trans (hset hnoset c)⟩

theorem opened_settled (hd : d.KeepsLevels level?) {cs : Connections} {g : PhysicalGroup}
    {source : String} {site : Site W} (hpick : cs.access.pick site g = .ok source)
    (hno : site.Unfailing (d.call (.connect site.history.length source) site).2)
    (opened : Nat → Option Isolation) :
    let mid := (d.call (.connect site.history.length source) site).2
    Settled level?
        (Function.update opened site.history.length (levelAtOpening d level? cs g site))
        none mid.world ⟨g.name, site.history.length, none⟩ ∧
      ∀ c, c ≠ site.history.length → level? mid.world c = level? site.world c := by
  obtain ⟨_, -, hanswer, -⟩ := call_of_unfailing rfl hno
  have hlevel : Function.update opened site.history.length (levelAtOpening d level? cs g site)
      site.history.length =
        level? (d.call (.connect site.history.length source) site).2.world site.history.length := by
    rw [Function.update_self, levelAtOpening, hpick]
  refine ⟨⟨?_, rfl, ?_⟩, fun c hc => hd.keeps hanswer ?_⟩
  · rw [hlevel]
    exact hd.opens hanswer
  · rw [hlevel, Option.none_or]
  · simpa [Call.movesLevel] using Ne.symm hc

theorem acquire_settled (hd : d.KeepsLevels level?) {cs : Connections} {g : PhysicalGroup}
    {site after : Site W} {r : Except Fault Held}
    (hacquire : Connections.acquire d cs g site = (r, after)) (hno : site.Unfailing after)
    (opened : Nat → Option Isolation) :
    (∀ h, r = .ok h →
      Settled level?
        (Function.update opened site.history.length (levelAtOpening d level? cs g site))
        cs.current after.world h) ∧
      ∀ c, c ≠ site.history.length → level? after.world c = level? site.world c := by
  rcases acquire_cases d cs g site with ⟨e, -, heq⟩ | ⟨source, hpick, hcases⟩
  · rw [hacquire] at heq
    cases heq
    exact ⟨nofun, fun _ _ => rfl⟩
  have hopen := call_did d (.connect site.history.length source) site
  have hdid := (ready_madeReady d cs ⟨g.name, site.history.length, none⟩
    (d.call (.connect site.history.length source) site).2).1
  rcases hcases with ⟨e, he, heq⟩ | ⟨-, hready, heq⟩ | ⟨-, e, -, heq⟩ <;>
    rw [hacquire] at heq <;> cases heq
  · obtain ⟨_, hok, -⟩ := call_of_unfailing rfl hno
    cases he.symm.trans hok
  · obtain ⟨hnoopen, hnoready⟩ := Site.unfailing_split hno hopen hdid
    obtain ⟨hs, hother⟩ := opened_settled hd hpick hnoopen opened
    obtain ⟨hsettled, hsame⟩ := ready_settled hd cs hs hnoready
    refine ⟨fun h hh => ?_, fun c hc => (hsame c hc).trans (hother c hc)⟩
    cases hh
    exact hsettled hready
  · have hclose (site : Site W) (held : Held) := call_did d (.close held.conn) site
    obtain ⟨hnoopen, hno⟩ := Site.unfailing_split hno hopen (Site.did_trans hdid (hclose _ _))
    obtain ⟨hnoready, hnoclose⟩ := Site.unfailing_split hno hdid (hclose _ _)
    obtain ⟨hs, hother⟩ := opened_settled hd hpick hnoopen opened
    obtain ⟨-, hsame⟩ := ready_settled hd cs hs hnoready
    refine ⟨nofun, fun c hc => ?_⟩
    exact (call_levels hd hnoclose rfl).trans ((hsame c hc).trans (hother c hc))

end

namespace Recorder

def level? (r : Recorder) (conn : Nat) : Option Isolation := (r.connection? conn).map (·.level)

theorem guarded_eq_ok {α : Type} {r after w : Recorder} {action source : String} {a b : α}
    (h : r.guarded action source a after = (.ok b, w)) : b = a ∧ w = after := by
  unfold guarded at h
  split at h
  · cases h
  · cases h
    exact ⟨rfl, rfl⟩

theorem setLevel_level? (r : Recorder) (conn : Nat) (l : Isolation) (c : Nat) :
    (r.setLevel conn l).level? c =
      if c = conn then (r.level? c).map fun _ => l else r.level? c := by
  have hfind : (r.setLevel conn l).connection? c =
      (r.connection? c).map fun o => if o.conn = conn then { o with level := l } else o := by
    simp only [connection?, setLevel, List.find?_map]
    congr 2
    funext o
    simp only [Function.comp_apply]
    split <;> rfl
  rw [level?, hfind, level?]
  cases hc : r.connection? c with
  | none => simp
  | some o =>
    have hconn : o.conn = c := by simpa using List.find?_some hc
    subst hconn
    simp only [Option.map_some]
    split <;> rfl

theorem keepsLevels : driver.KeepsLevels level? where
  opens {conn source w w'} h := by
    obtain ⟨-, rfl⟩ := guarded_eq_ok h
    simp [level?, connection?]
  reports {conn w w' l} h hknown := by
    obtain ⟨rfl, -⟩ := guarded_eq_ok h
    rw [level?, Option.isSome_map] at hknown
    obtain ⟨o, ho⟩ := Option.isSome_iff_exists.mp hknown
    simp [level?, levelOf, ho]
  sets {conn l w w'} h hknown := by
    obtain ⟨-, rfl⟩ := guarded_eq_ok h
    obtain ⟨l₀, hl₀⟩ := Option.isSome_iff_exists.mp hknown
    rw [setLevel_level?, if_pos rfl, hl₀]
    rfl
  keeps {c w a w' conn} h hc := by
    cases c with
    | connect n source =>
      obtain ⟨-, rfl⟩ := guarded_eq_ok h
      have hne : n ≠ conn := by simpa [Call.movesLevel] using hc
      simp [level?, connection?, hne]
    | setIsolation n l =>
      obtain ⟨-, rfl⟩ := guarded_eq_ok h
      have hne : n ≠ conn := by simpa [Call.movesLevel] using hc
      rw [setLevel_level?, if_neg hne.symm]
    | query n s =>
      change w.answerQuery s = _ at h
      unfold answerQuery at h
      split at h <;> cases h
      rfl
    | update n s =>
      change w.answerUpdate s = _ at h
      unfold answerUpdate at h
      split at h <;> cases h
      rfl
    | _ =>
      obtain ⟨-, rfl⟩ := guarded_eq_ok h
      rfl

end Recorder

end DataAccess
