import DataAccess.Proofs.Connections.Isolation

/-!
# Levels where calls fail

Any call may fail, and one that fails moves no level. Then a connection is at the level it was
opened with and remembers none, or it remembers that level, as long as no call that is to put
the level back has failed: the remembered level is given up whether that call succeeds or not.
-/

set_option autoImplicit false

namespace DataAccess

def Performed.failsToSet (conn : Nat) (p : Performed) : Bool :=
  match p.call with
  | .setIsolation c _ => c == conn && !p.succeeded
  | _ => false

section
variable {W : Type}

/-- A driver that keeps levels also where its calls fail: a call that fails moves none. -/
structure Driver.HoldsLevels (d : Driver W) (level? : W → Nat → Option Isolation) : Prop
    extends d.KeepsLevels level? where
  refuses : ∀ {c w e w'} (conn : Nat), d.answer c w = (.error e, w') →
    level? w' conn = level? w conn

def Site.SetsLevel (conn : Nat) (before after : Site W) : Prop :=
  ∃ calls, after.history = before.history ++ calls ∧ ∀ p ∈ calls, p.failsToSet conn = false

namespace Site

theorem setsLevel_iff {conn : Nat} {before after : Site W} : before.SetsLevel conn after ↔
    before.history <+: after.history ∧
      ∀ p ∈ after.history.drop before.history.length, p.failsToSet conn = false := by
  constructor
  · rintro ⟨calls, hcalls, hall⟩
    rw [hcalls, List.drop_left]
    exact ⟨List.prefix_append .., hall⟩
  · rintro ⟨⟨calls, hcalls⟩, hall⟩
    rw [← hcalls, List.drop_left] at hall
    exact ⟨calls, hcalls.symm, hall⟩

instance (conn : Nat) (before after : Site W) : Decidable (before.SetsLevel conn after) :=
  decidable_of_iff _ setsLevel_iff.symm

theorem setsLevel_split {conn : Nat} {a b c : Site W} {first second : Deeds}
    (h : a.SetsLevel conn c) (hab : a.Did b first) (hbc : b.Did c second) :
    a.SetsLevel conn b ∧ b.SetsLevel conn c := by
  obtain ⟨calls, hcalls, hall⟩ := h
  obtain ⟨front, back, rfl, hfront, hback⟩ := calls_split hcalls hab hbc
  exact ⟨⟨front, hfront, fun p hp => hall p (List.mem_append_left back hp)⟩,
    ⟨back, hback, fun p hp => hall p (List.mem_append_right front hp)⟩⟩

end Site

variable {d : Driver W} {level? : W → Nat → Option Isolation}

theorem call_keeps (hd : d.HoldsLevels level?) {c : Call} {conn : Nat}
    (hc : c.movesLevel conn = false) (site : Site W) :
    level? (d.call c site).2.world conn = level? site.world conn := by
  have hanswer : d.answer c site.world = ((d.call c site).1, (d.call c site).2.world) := rfl
  cases hr : (d.call c site).1 with
  | ok a => exact hd.keeps (hr ▸ hanswer) hc
  | error e => exact hd.refuses conn (hr ▸ hanswer)

theorem setIsolation_keeps (hd : d.HoldsLevels level?) {conn c : Nat} (hc : c ≠ conn)
    (l : Isolation) (site : Site W) :
    level? (d.call (.setIsolation conn l) site).2.world c = level? site.world c :=
  call_keeps hd (by simpa [Call.movesLevel] using Ne.symm hc) site

theorem setAutoCommit_keeps (hd : d.HoldsLevels level?) (cs : Connections) (conn : Nat)
    (site : Site W) (c : Nat) :
    level? (Connections.setAutoCommit d cs conn site).2.world c = level? site.world c := by
  unfold Connections.setAutoCommit
  cases cs.access with
  | write autoCommit => exact call_keeps hd rfl site
  | _ => rfl

theorem setIsolation_cases (hd : d.HoldsLevels level?) {conn : Nat} {site : Site W}
    (hknown : (level? site.world conn).isSome) (l : Isolation) :
    ((d.call (.setIsolation conn l) site).1 = .ok () ∧
      level? (d.call (.setIsolation conn l) site).2.world conn = some l) ∨
    (∃ e, (d.call (.setIsolation conn l) site).1 = .error e) ∧
      level? (d.call (.setIsolation conn l) site).2.world conn = level? site.world conn := by
  have hanswer : d.answer (.setIsolation conn l) site.world =
      ((d.call (.setIsolation conn l) site).1, (d.call (.setIsolation conn l) site).2.world) := rfl
  cases hr : (d.call (.setIsolation conn l) site).1 with
  | ok a => exact .inl ⟨rfl, hd.sets (hr ▸ hanswer) hknown⟩
  | error e => exact .inr ⟨⟨e, rfl⟩, hd.refuses conn (hr ▸ hanswer)⟩

theorem setIsolation_of_setsLevel (hd : d.HoldsLevels level?) {conn : Nat} {l : Isolation}
    {site : Site W} (hknown : (level? site.world conn).isSome)
    (h : site.SetsLevel conn (d.call (.setIsolation conn l) site).2) :
    level? (d.call (.setIsolation conn l) site).2.world conn = some l := by
  rcases setIsolation_cases hd hknown l with ⟨-, hlevel⟩ | ⟨⟨e, he⟩, -⟩
  · exact hlevel
  · obtain ⟨calls, hcalls, hall⟩ := h
    have hlast :
        calls = [⟨.setIsolation conn l, succeeded (d.call (.setIsolation conn l) site).1⟩] :=
      (List.append_cancel_left hcalls).symm
    have hnot := hall _ (hlast ▸ List.mem_singleton_self _)
    simp [Performed.failsToSet, he, succeeded] at hnot

/-- What is remembered for the connection is the level it was opened with, and as long as nothing
is, the connection is at that level. -/
structure Remembers (level? : W → Nat → Option Isolation) (opened : Nat → Option Isolation)
    (w : W) (h : Held) : Prop where
  recorded : (opened h.conn).isSome
  known : (level? w h.conn).isSome
  saved : ∀ l, h.saved = some l → opened h.conn = some l
  unmoved : h.saved = none → level? w h.conn = opened h.conn

variable {opened : Nat → Option Isolation}

theorem remembers_congr {w w' : W} {h : Held} (hr : Remembers level? opened w h)
    (hw : level? w' h.conn = level? w h.conn) : Remembers level? opened w' h :=
  ⟨hr.recorded, hw ▸ hr.known, hr.saved, hw ▸ hr.unmoved⟩

theorem remembers_opened {w : W} {h : Held} {opened' : Nat → Option Isolation}
    (hr : Remembers level? opened w h) (heq : opened' h.conn = opened h.conn) :
    Remembers level? opened' w h :=
  ⟨heq ▸ hr.recorded, hr.known, heq ▸ hr.saved, heq ▸ hr.unmoved⟩

theorem apply_others (hd : d.HoldsLevels level?) (h : Held) (level : Option Isolation)
    (site : Site W) {c : Nat} (hc : c ≠ h.conn) :
    level? (h.apply d level site).2.world c = level? site.world c := by
  have hset (l : Isolation) (site : Site W) := setIsolation_keeps hd hc l site
  have hasked : level? (d.call (.isolation h.conn) site).2.world c = level? site.world c :=
    call_keeps hd rfl site
  rcases apply_cases d h level site with ⟨-, -, heq⟩ | ⟨saved, -, -, heq⟩ | ⟨l, -, -, heq⟩ |
    ⟨l, -, -, ⟨e, -, heq⟩ | ⟨saved, -, heq⟩⟩ <;> rw [heq]
  · exact hset saved site
  · exact hset l site
  · exact hasked
  · exact (hset l _).trans hasked

theorem apply_remembers (hd : d.HoldsLevels level?) {h : Held} {level : Option Isolation}
    {site : Site W} (hr : Remembers level? opened site.world h)
    (hback : level = none → site.SetsLevel h.conn (h.apply d level site).2) :
    Remembers level? opened (h.apply d level site).2.world (h.apply d level site).1.2 := by
  -- the level is still known when a set was tried, wherever it is
  have hset {w : W} {site : Site W} (l : Isolation) (hknown : (level? site.world h.conn).isSome)
      (hw : w = (d.call (.setIsolation h.conn l) site).2.world) : (level? w h.conn).isSome := by
    rcases setIsolation_cases hd hknown l with ⟨-, hlevel⟩ | ⟨-, hlevel⟩
    · rw [hw, hlevel]
      rfl
    · rwa [hw, hlevel]
  have hasked : level? (d.call (.isolation h.conn) site).2.world h.conn =
      level? site.world h.conn := call_keeps hd rfl site
  rcases apply_cases d h level site with ⟨-, -, heq⟩ | ⟨saved, hlevel, hsaved, heq⟩ |
    ⟨l, -, hsaved, heq⟩ | ⟨l, -, hsaved, ⟨e, -, heq⟩ | ⟨saved, hsome, heq⟩⟩
  · rwa [heq]
  · have hback := hback hlevel
    rw [heq] at hback ⊢
    have hrestored := setIsolation_of_setsLevel hd hr.known hback
    exact ⟨hr.recorded, hset saved hr.known rfl, nofun,
      fun _ => hrestored.trans (hr.saved saved hsaved).symm⟩
  · rw [heq]
    exact ⟨hr.recorded, hset l hr.known rfl, hr.saved,
      fun hnone => by rw [hnone] at hsaved; cases hsaved⟩
  · rw [heq]
    exact remembers_congr hr hasked
  · rw [heq]
    have hlevel : level? site.world h.conn = some saved := by
      have hanswer : d.answer (.isolation h.conn) site.world =
        (.ok saved, (d.call (.isolation h.conn) site).2.world) := by
          rw [← hsome]
          rfl
      exact hd.reports hanswer hr.known
    refine ⟨hr.recorded, hset l (hasked ▸ hr.known) rfl, fun l' hl' => ?_, nofun⟩
    rw [← hr.unmoved hsaved, hlevel, ← hl']

theorem applyAll_others (hd : d.HoldsLevels level?) {level : Option Isolation} {hs : List Held}
    {c : Nat} (hc : c ∉ hs.map (·.conn)) (site : Site W) :
    level? (applyAll d level hs site).2.world c = level? site.world c := by
  induction hs generalizing site with
  | nil => rfl
  | cons h rest ih =>
    rw [List.map_cons, List.mem_cons, not_or] at hc
    exact (ih hc.2 _).trans (apply_others hd h level site hc.1)

theorem applyAll_remembers (hd : d.HoldsLevels level?) {level : Option Isolation} {conn : Nat}
    {hs : List Held} {site : Site W} (hdistinct : (hs.map (·.conn)).Nodup)
    (hall : ∀ h ∈ hs, h.conn = conn → Remembers level? opened site.world h)
    (hback : level = none → site.SetsLevel conn (applyAll d level hs site).2) :
    ∀ h ∈ (applyAll d level hs site).1.2, h.conn = conn →
      Remembers level? opened (applyAll d level hs site).2.world h := by
  induction hs generalizing site with
  | nil => exact fun h hh => absurd hh List.not_mem_nil
  | cons h rest ih =>
    rw [List.map_cons, List.nodup_cons] at hdistinct
    obtain ⟨hfirst, hconn, -, -⟩ := apply_madeReady d h level site
    obtain ⟨hrest, hconns, -⟩ := applyAll_did d level rest (h.apply d level site).2
    simp only [applyAll, bind_site] at hback ⊢
    have hsplit (hnone : level = none) := Site.setsLevel_split (hback hnone) hfirst hrest
    intro k hk hkc
    rcases List.mem_cons.mp hk with rfl | hk
    · have hh : h.conn = conn := hconn.symm.trans hkc
      have happlied := apply_remembers hd (hall h List.mem_cons_self hh)
        (fun hnone => hh ▸ (hsplit hnone).1)
      refine remembers_congr happlied (applyAll_others hd ?_ _)
      rw [hconn]
      exact hdistinct.1
    · refine ih hdistinct.2 (fun k' hk' hkc' => ?_) (fun hnone => (hsplit hnone).2) k hk hkc
      refine remembers_congr (hall k' (List.mem_cons_of_mem h hk') hkc')
        (apply_others hd h level site ?_)
      rintro heq
      exact hdistinct.1 (heq ▸ List.mem_map_of_mem hk')

theorem ready_others (hd : d.HoldsLevels level?) (cs : Connections) (h : Held) (site : Site W)
    {c : Nat} (hc : c ≠ h.conn) :
    level? (Connections.ready d cs h site).2.world c = level? site.world c := by
  have hset := setAutoCommit_keeps hd cs h.conn site c
  rcases ready_cases d cs h site with ⟨e, -, heq⟩ | ⟨-, -, heq⟩ | ⟨-, -, heq⟩ <;> rw [heq]
  · exact hset
  · exact hset
  · exact (apply_others hd h cs.current _ hc).trans hset

theorem ready_remembers (hd : d.HoldsLevels level?) (cs : Connections) {h : Held} {site : Site W}
    (hr : Remembers level? opened site.world h) :
    Remembers level? opened (Connections.ready d cs h site).2.world
      (Connections.ready d cs h site).1.2 := by
  have hset := remembers_congr hr (setAutoCommit_keeps hd cs h.conn site h.conn)
  rcases ready_cases d cs h site with ⟨e, -, heq⟩ | ⟨-, -, heq⟩ | ⟨-, hcurrent, heq⟩ <;> rw [heq]
  · exact hset
  · exact hset
  · exact apply_remembers hd hset fun hnone => by rw [hnone] at hcurrent; cases hcurrent

theorem acquire_others (hd : d.HoldsLevels level?) (cs : Connections) (g : PhysicalGroup)
    (site : Site W) {c : Nat} (hc : c ≠ site.history.length) :
    level? (Connections.acquire d cs g site).2.world c = level? site.world c := by
  rcases acquire_cases d cs g site with ⟨e, -, heq⟩ | ⟨source, -, hcases⟩
  · rw [heq]
  have hopen : level? (d.call (.connect site.history.length source) site).2.world c =
      level? site.world c := call_keeps hd (by simpa [Call.movesLevel] using Ne.symm hc) site
  have hready := (ready_others hd cs ⟨g.name, site.history.length, none⟩
    (d.call (.connect site.history.length source) site).2 hc).trans hopen
  rcases hcases with ⟨e, -, heq⟩ | ⟨-, -, heq⟩ | ⟨-, e, -, heq⟩ <;> rw [heq]
  · exact hopen
  · exact hready
  · exact (call_keeps hd rfl _).trans hready

theorem acquire_remembers (hd : d.HoldsLevels level?) {cs : Connections} {g : PhysicalGroup}
    {site after : Site W} {h : Held} (hacquire : Connections.acquire d cs g site = (.ok h, after))
    (opened : Nat → Option Isolation) :
    Remembers level?
      (Function.update opened site.history.length (levelAtOpening d level? cs g site))
      after.world h := by
  rcases acquire_cases d cs g site with ⟨e, -, heq⟩ | ⟨source, hpick, hcases⟩
  · rw [heq] at hacquire
    cases hacquire
  rcases hcases with ⟨e, -, heq⟩ | ⟨hopen, -, heq⟩ | ⟨-, e, -, heq⟩ <;> rw [heq] at hacquire
  · cases hacquire
  · cases hacquire
    have hanswer : d.answer (.connect site.history.length source) site.world =
        (.ok (), (d.call (.connect site.history.length source) site).2.world) := by
      rw [← hopen]
      rfl
    have hknown := hd.opens hanswer
    have hlevel : Function.update opened site.history.length (levelAtOpening d level? cs g site)
        site.history.length =
        level? (d.call (.connect site.history.length source) site).2.world site.history.length := by
      rw [Function.update_self, levelAtOpening, hpick]
    refine ready_remembers hd cs ⟨hlevel ▸ hknown, hknown, fun level hsaved => ?_,
      fun _ => hlevel.symm⟩
    cases hsaved
  · cases hacquire

end

namespace Connections

section
variable {W : Type} (d : Driver W) (level? : W → Nat → Option Isolation) (conn : Nat)

def PutsBack (cs : Connections) (site : Site W) : Op W → Prop
  | .resetTo point => (cs.resetTo d point site).1.2.current = none →
      site.SetsLevel conn (cs.resetTo d point site).2
  | .resetLast => (cs.resetLast d site).1.2.current = none →
      site.SetsLevel conn (cs.resetLast d site).2
  | .elsewhere world _ => level? world conn = level? site.world conn
  | _ => True

def AllPutBack (cs : Connections) (site : Site W) : List (Op W) → Prop
  | [] => True
  | op :: rest =>
    PutsBack d level? conn cs site op ∧ AllPutBack (cs.step d site op).1 (cs.step d site op).2 rest

variable {d level? conn}
variable {start site : Site W} {cs : Connections} {deeds : Deeds} {o : Observed}

theorem connect_remembers (hd : d.HoldsLevels level?) (h : Accounted start cs site deeds)
    (hr : ∀ k ∈ cs.held, k.conn = conn → Remembers level? o.opened site.world k)
    (g : PhysicalGroup) :
    ∀ k ∈ (cs.connect d g site).1.2.held, k.conn = conn →
      Remembers level?
        (Function.update o.opened site.history.length (levelAtOpening d level? cs g site))
        (cs.connect d g site).2.world k := by
  have hheld (w : W) (hw : ∀ c, c ≠ site.history.length → level? w c = level? site.world c) :
      ∀ k ∈ cs.held, k.conn = conn → Remembers level?
        (Function.update o.opened site.history.length (levelAtOpening d level? cs g site)) w k := by
    intro k hk hkc
    have hne : k.conn ≠ site.history.length := Nat.ne_of_lt (conns_earlier h hk)
    exact remembers_opened (remembers_congr (hr k hk hkc) (hw k.conn hne))
      (Function.update_of_ne hne _ _)
  rcases connect_cases d cs g site with
    ⟨-, e, heq⟩ | ⟨-, held, -, heq⟩ |
    ⟨-, -, ⟨e, after, hacquire, heq⟩ | ⟨new, after, hacquire, heq⟩⟩
  · rw [heq]
    exact hheld site.world fun _ _ => rfl
  · rw [heq]
    exact hheld site.world fun _ _ => rfl
  · rw [heq]
    refine hheld after.world fun c hc => ?_
    have hother := acquire_others hd cs g site hc
    rwa [hacquire] at hother
  · rw [heq]
    intro k hk hkc
    rcases List.mem_append.mp hk with hk | hk
    · refine hheld after.world (fun c hc => ?_) k hk hkc
      have hother := acquire_others hd cs g site hc
      rwa [hacquire] at hother
    · obtain rfl := List.mem_singleton.mp hk
      exact acquire_remembers hd hacquire o.opened

theorem resetTo_remembers (hd : d.HoldsLevels level?) (hdistinct : cs.conns.Nodup)
    (hr : ∀ k ∈ cs.held, k.conn = conn → Remembers level? o.opened site.world k) {point : Nat}
    (hback : (cs.resetTo d point site).1.2.current = none →
      site.SetsLevel conn (cs.resetTo d point site).2) :
    ∀ k ∈ (cs.resetTo d point site).1.2.held, k.conn = conn →
      Remembers level? o.opened (cs.resetTo d point site).2.world k := by
  unfold resetTo at hback ⊢
  split at hback
  · next hpoint =>
    rw [if_pos hpoint]
    exact hr
  · next hpoint =>
    rw [if_neg hpoint]
    cases hdrop : cs.stack.drop (cs.stack.length - point) with
    | nil => exact hr
    | cons previous below =>
      rw [hdrop] at hback
      exact applyAll_remembers hd hdistinct hr hback

theorem callAll_keeps {run : Nat → Effect W (Except DriverFault Unit)}
    (hrun : ∀ conn (site : Site W), level? (run conn site).2.world = level? site.world)
    (hs : List Held) (site : Site W) :
    level? (callAll run hs site).2.world = level? site.world := by
  induction hs generalizing site with
  | nil => rfl
  | cons h rest ih => exact (ih _).trans (hrun h.conn site)

theorem step_remembers (hd : d.HoldsLevels level?) (h : Accounted start cs site deeds)
    (hr : ∀ k ∈ cs.held, k.conn = conn → Remembers level? o.opened site.world k) {op : Op W}
    (hop : PutsBack d level? conn cs site op) :
    ∀ k ∈ (cs.step d site op).1.held, k.conn = conn →
      Remembers level? (o.after d level? cs site op).opened (cs.step d site op).2.world k := by
  have hdistinct := conns_nodup h
  have hdue := step_due d h.released site op
  cases op with
  | connect g => exact connect_remembers hd h hr g
  | setIsolation level => exact applyAll_remembers hd hdistinct hr nofun
  | resetTo point =>
    have hafter : (o.after d level? cs site (.resetTo point)).opened = o.opened := by
      simp only [Observed.after]
      split <;> rfl
    rw [hafter]
    exact resetTo_remembers hd hdistinct hr hop
  | resetLast => exact resetTo_remembers hd hdistinct hr hop
  | commit =>
    intro k hk hkc
    have hcall (conn : Nat) (site : Site W) :
        level? (d.call (.commit conn) site).2.world = level? site.world :=
      funext fun _ => call_keeps hd rfl site
    exact remembers_congr (hr k hk hkc) (congrFun (callAll_keeps hcall cs.held site) k.conn)
  | rollback =>
    intro k hk hkc
    have hcall (conn : Nat) (site : Site W) :
        level? (d.call (.rollback conn) site).2.world = level? site.world :=
      funext fun _ => call_keeps hd rfl site
    exact remembers_congr (hr k hk hkc) (congrFun (callAll_keeps hcall cs.held site) k.conn)
  | close | drop =>
    intro k hk
    exact absurd hk (List.eq_nil_iff_forall_not_mem.mp hdue.2.1 k)
  | elsewhere world status =>
    intro k hk hkc
    refine remembers_congr (hr k hk hkc) ?_
    rw [hkc]
    exact hop

theorem run_remembers (hd : d.HoldsLevels level?) (h : Accounted start cs site deeds)
    (hr : ∀ k ∈ cs.held, k.conn = conn → Remembers level? o.opened site.world k)
    {ops : List (Op W)} (hops : AllPutBack d level? conn cs site ops) :
    ∀ k ∈ (cs.run d site ops).1.held, k.conn = conn →
      Remembers level? (observe d level? o cs site ops).opened (cs.run d site ops).2.world k := by
  induction ops generalizing cs site deeds o with
  | nil => exact hr
  | cons op ops ih =>
    obtain ⟨deeds', h'⟩ := step_accounted d h op
    exact ih h' (step_remembers hd h hr hops.1) hops.2

theorem release_history (d : Driver W) (h : Held) (site : Site W) :
    ∃ restored closed,
      (d.call (.close (h.apply d none site).1.2.conn) (h.apply d none site).2).2.history =
        site.history ++ (h.saved.toList.map fun l => ⟨.setIsolation h.conn l, restored⟩) ++
          [⟨.close h.conn, closed⟩] := by
  rcases apply_cases d h none site with ⟨-, hsaved, heq⟩ | ⟨saved, -, hsaved, heq⟩ |
    ⟨l, hl, -⟩ | ⟨l, hl, -⟩
  · rw [heq, hsaved]
    exact ⟨true, _, by rw [Option.toList_none, List.map_nil, List.append_nil]; rfl⟩
  · rw [heq, hsaved]
    exact ⟨_, _, rfl⟩
  · cases hl
  · cases hl

theorem releaseAll_history (d : Driver W) {hs : List Held} {h : Held} (hmem : h ∈ hs)
    (site : Site W) : ∃ before restored closed after,
      (releaseAll d hs site).2.history = site.history ++ before ++
        (h.saved.toList.map fun l => ⟨.setIsolation h.conn l, restored⟩) ++
          ⟨.close h.conn, closed⟩ :: after := by
  induction hs generalizing site with
  | nil => cases hmem
  | cons first rest ih =>
    obtain ⟨restored, closed, hfirst⟩ := release_history d first site
    have hwhole : (releaseAll d (first :: rest) site).2 = (releaseAll d rest
      (d.call (.close (first.apply d none site).1.2.conn) (first.apply d none site).2).2).2 := rfl
    rw [hwhole]
    rcases List.mem_cons.mp hmem with rfl | hmem
    · obtain ⟨more, hmore, -⟩ := releaseAll_did d rest
        (d.call (.close (h.apply d none site).1.2.conn) (h.apply d none site).2).2
      refine ⟨[], restored, closed, more, ?_⟩
      rw [hmore, hfirst, List.append_nil, List.append_assoc, List.singleton_append]
    · obtain ⟨before, restored', closed', after, hrest⟩ := ih hmem
        (d.call (.close (first.apply d none site).1.2.conn) (first.apply d none site).2).2
      refine ⟨(first.saved.toList.map fun l => ⟨.setIsolation first.conn l, restored⟩) ++
        ⟨.close first.conn, closed⟩ :: before, restored', closed', after, ?_⟩
      rw [hrest, hfirst]
      simp only [List.append_assoc, List.nil_append, List.cons_append]

/-- Whatever else fails in a run, as long as no call that is to put a connection's level back
does, the level that is remembered for the connection is the one it was opened with; and where it
is at another one, closing sets the level it was opened with before it closes it. -/
theorem close_restores (hd : d.HoldsLevels level?) (access : Access) (start : Site W)
    (ops : List (Op W)) (conn : Nat)
    (hback : AllPutBack d level? conn (.new access) start ops) :
    let (cs, site) := run d (.new access) start ops
    let opened := (observe d level? {} (.new access) start ops).opened
    ∀ h ∈ cs.held, h.conn = conn →
      (∀ l, h.saved = some l → opened conn = some l) ∧
      (level? site.world conn ≠ opened conn → ∃ l before restored closed after,
        opened conn = some l ∧ (cs.close d site).2.history = site.history ++ before ++
          ⟨.setIsolation conn l, restored⟩ :: ⟨.close conn, closed⟩ :: after) := by
  have hstart := new_accounted access start
  obtain ⟨deeds, haccounted⟩ := run_accounted d hstart ops
  have hr := run_remembers (o := {}) hd hstart (fun _ hk => absurd hk List.not_mem_nil) hback
  generalize run d (.new access) start ops = state at haccounted hr
  obtain ⟨cs, site⟩ := state
  generalize (observe d level? {} (.new access) start ops).opened = opened at hr
  rintro h hh rfl
  obtain ⟨-, -, hsaved, hunmoved⟩ := hr h hh rfl
  refine ⟨hsaved, fun hmoved => ?_⟩
  obtain ⟨l, hl⟩ : ∃ l, h.saved = some l := by
    cases hs : h.saved with
    | none => exact absurd (hunmoved hs) hmoved
    | some l => exact ⟨l, rfl⟩
  have hnot : cs.closed = false := by
    rw [← Bool.not_eq_true]
    intro hclosed
    rw [haccounted.released hclosed] at hh
    cases hh
  have hclose : (cs.close d site).2 = (releaseAll d cs.held site).2 := by
    rw [close, hnot, if_neg Bool.false_ne_true]
    rfl
  obtain ⟨before, restored, closed, after, hhistory⟩ := releaseAll_history d hh site
  refine ⟨l, before, restored, closed, after, hsaved l hl, ?_⟩
  rw [hclose, hhistory, hl, List.append_assoc]
  rfl

end

end Connections

namespace Recorder

theorem guarded_eq_error {α : Type} {r after w : Recorder} {action source : String} {a : α}
    {e : DriverFault} (h : r.guarded action source a after = (.error e, w)) : w = r := by
  unfold guarded at h
  split at h
  · cases h
    rfl
  · cases h

theorem holdsLevels : driver.HoldsLevels level? where
  toKeepsLevels := keepsLevels
  refuses {c w e w'} conn h := by
    suffices hsame : w' = w by rw [hsame]
    cases c with
    | query n s =>
      change w.answerQuery s = _ at h
      unfold answerQuery at h
      split at h <;> cases h
      rfl
    | update n s =>
      change w.answerUpdate s = _ at h
      unfold answerUpdate at h
      split at h <;> cases h
      rfl
    | _ => exact guarded_eq_error h

end Recorder

namespace Connections

/-- A set fails and so does asking for the level of a second connection; the first is put back. -/
theorem close_restores_failing :
    let group (name : String) : PhysicalGroup := ⟨name, name, none⟩
    let start : Site Recorder := { world := {} }
    let broken : Recorder :=
      { failing := [("set_isolation", "a"), ("get_isolation", "b")]
        opened := [⟨0, "a", .serializable⟩] }
    let ops : List (Op Recorder) := [.connect (group "a"), .setIsolation .serializable,
      .elsewhere broken start.status, .setIsolation .repeatableRead, .connect (group "b")]
    let state := run Recorder.driver (.new .directRead) start ops
    ∃ before restored closed after,
      (state.1.close Recorder.driver state.2).2.history = state.2.history ++ before ++
        ⟨.setIsolation 0 .readCommitted, restored⟩ :: ⟨.close 0, closed⟩ :: after := by
  intro group start broken ops state
  have hsame : PutsBack Recorder.driver Recorder.level? 0
      (run Recorder.driver (.new .directRead) start (ops.take 2)).1
      (run Recorder.driver (.new .directRead) start (ops.take 2)).2
      (.elsewhere broken start.status) := by
    unfold PutsBack
    decide
  have hback : AllPutBack Recorder.driver Recorder.level? 0 (.new .directRead) start ops :=
    ⟨trivial, trivial, hsame, trivial, trivial, trivial⟩
  have h := close_restores Recorder.holdsLevels .directRead start ops 0 hback
  have hheld : ⟨"a", 0, some .readCommitted⟩ ∈ state.1.held := by decide
  have hopened : (observe Recorder.driver Recorder.level? {} (.new .directRead) start ops).opened 0
      = some .readCommitted := by decide
  have hmoved : state.2.world.level? 0 ≠ some .readCommitted := by decide
  rw [show run Recorder.driver (.new .directRead) start ops = state from rfl] at h
  -- the run is evaluated above; from here on it is any run with these facts
  generalize observe Recorder.driver Recorder.level? {} (.new .directRead) start ops = seen
    at h hopened
  clear hback hsame
  clear_value state
  obtain ⟨-, hrestores⟩ := h _ hheld rfl
  obtain ⟨l, before, restored, closed, after, hl, hhistory⟩ := hrestores (hopened ▸ hmoved)
  rw [hopened] at hl
  cases hl
  exact ⟨before, restored, closed, after, hhistory⟩

/-- Putting the level back fails once. The level that the connection was opened with is then
forgotten: the connection is closed at the level of the override, and a later set remembers that
level for it. -/
theorem level_lost :
    let group : PhysicalGroup := ⟨"default", "master", none⟩
    let held := run Recorder.driver (.new .directRead) { world := {} } [.connect group]
    let set := held.1.setIsolation Recorder.driver .serializable held.2
    let broken := { set.2 with world := set.2.world.fail "set_isolation" "master" }
    let back := set.1.2.resetTo Recorder.driver 1 broken
    let healed := { back.2 with world := back.2.world.heal }
    let closed := back.1.2.close Recorder.driver healed
    let again := back.1.2.setIsolation Recorder.driver .repeatableRead healed
    held.2.world.level? 0 = some .readCommitted ∧ healed.world.level? 0 = some .serializable ∧
      closed.2.history = healed.history ++ [⟨.close 0, true⟩] ∧
      again.1.2.held = [⟨"default", 0, some .serializable⟩] := by
  decide

end Connections

end DataAccess
