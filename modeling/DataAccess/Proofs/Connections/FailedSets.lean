import DataAccess.Proofs.Connections.SavePoints

/-!
# Sets that fail

A set installs its override before it brings the connections to it, so whether a call fails says
nothing of the override: it is in force behind the set, and what it replaced is on the stack. A
connection that is opened later is brought to it, and only going back takes it away.
-/

set_option autoImplicit false

namespace DataAccess

section
variable {W : Type} {d : Driver W}

theorem call_last {c : Call} {site : Site W} {a : c.Answer} (h : (d.call c site).1 = .ok a) :
    (d.call c site).2.history.getLast? = some ⟨c, true⟩ := by
  have hhistory : (d.call c site).2.history =
      site.history ++ [⟨c, succeeded (d.call c site).1⟩] := rfl
  rw [hhistory, h, List.getLast?_concat]
  rfl

theorem apply_last {h : Held} {level : Isolation} {site : Site W}
    (hok : (h.apply d (some level) site).1.1 = .ok ()) :
    (h.apply d (some level) site).2.history.getLast? =
      some ⟨.setIsolation h.conn level, true⟩ := by
  rcases apply_cases d h (some level) site with ⟨hnone, -, -⟩ | ⟨saved, hnone, -, -⟩ |
    ⟨l, hlevel, -, heq⟩ | ⟨l, hlevel, -, ⟨e, -, heq⟩ | ⟨saved, -, heq⟩⟩
  · cases hnone
  · cases hnone
  · cases hlevel
    rw [heq] at hok ⊢
    exact call_last hok
  · rw [heq] at hok
    cases hok
  · cases hlevel
    rw [heq] at hok ⊢
    exact call_last hok

namespace Connections

variable {cs : Connections} {level : Isolation} {site : Site W}

theorem ready_last (hcurrent : cs.current = some level) {h : Held}
    (hok : (ready d cs h site).1.1 = .ok ()) :
    (ready d cs h site).2.history.getLast? = some ⟨.setIsolation h.conn level, true⟩ := by
  rcases ready_cases d cs h site with ⟨e, -, heq⟩ | ⟨-, hnone, -⟩ | ⟨-, -, heq⟩
  · rw [heq] at hok
    cases hok
  · rw [hcurrent] at hnone
    cases hnone
  · rw [hcurrent] at heq
    rw [heq] at hok ⊢
    exact apply_last hok

theorem acquire_last (hcurrent : cs.current = some level) {g : PhysicalGroup} {h : Held}
    {after : Site W} (hacquire : acquire d cs g site = (.ok h, after)) :
    after.history.getLast? = some ⟨.setIsolation h.conn level, true⟩ := by
  rcases acquire_cases d cs g site with ⟨e, -, heq⟩ | ⟨source, -, hcases⟩
  · rw [heq] at hacquire
    cases hacquire
  rcases hcases with ⟨e, -, heq⟩ | ⟨-, hok, heq⟩ | ⟨-, e, -, heq⟩ <;> rw [heq] at hacquire
  · cases hacquire
  · cases hacquire
    obtain ⟨-, hconn, -, -⟩ := ready_madeReady d cs ⟨g.name, site.history.length, none⟩
      (d.call (.connect site.history.length source) site).2
    rw [ready_last hcurrent hok, hconn]
  · cases hacquire

theorem connect_last (hcurrent : cs.current = some level) {g : PhysicalGroup}
    (hnew : g.name ∉ cs.groups) {conn : Nat} {later : Connections} {after : Site W}
    (hconnect : cs.connect d g site = ((.ok conn, later), after)) :
    after.history.getLast? = some ⟨.setIsolation conn level, true⟩ := by
  rcases connect_cases d cs g site with ⟨-, e, heq⟩ | ⟨-, held, hfind, heq⟩ |
    ⟨-, -, ⟨e, mid, -, heq⟩ | ⟨held, mid, hacquire, heq⟩⟩ <;> rw [heq] at hconnect
  · cases hconnect
  · have hgroup : held.group = g.name := by simpa using List.find?_some hfind
    exact absurd (List.mem_map.mpr ⟨held, List.mem_of_find?_eq_some hfind, hgroup⟩) hnew
  · cases hconnect
  · cases hconnect
    exact acquire_last hcurrent hacquire

theorem drop_of_suffix {α : Type} {base l : List α} (h : base <:+ l) {k : Nat}
    (hk : k ≤ base.length) : l.drop (l.length - k) = base.drop (base.length - k) := by
  obtain ⟨front, rfl⟩ := h
  have hlength : (front ++ base).length - k = front.length + (base.length - k) := by
    rw [List.length_append]
    omega
  rw [hlength, ← List.drop_drop, List.drop_left]

theorem resetTo_of_suffix {now : Connections} (h : cs.overrides <:+ now.overrides) {point : Nat}
    (hpos : 0 < point) (hpoint : point ≤ cs.overrides.length) (site site' : Site W) :
    (now.resetTo d point site').1.2.overrides = (cs.resetTo d point site).1.2.overrides := by
  rw [resetTo_overrides, resetTo_overrides, if_neg (by omega), if_neg (by omega),
    drop_of_suffix h hpoint]

end Connections

end

namespace Connections

/-- A set that fails is no less in force than one that succeeds: what it overrode is on the stack,
though no save point was given out for it, and a connection that is opened later is brought to its
level. As long as it is on the stack, going back to the last save point takes it back and nothing
else, and going back to an earlier one takes it back as well. -/
theorem setIsolation_fault {W : Type} (d : Driver W) (cs : Connections) (site : Site W)
    {level : Isolation} {e : DriverFault}
    (hfault : (cs.setIsolation d level site).1.1 = .error e) :
    let after := (cs.setIsolation d level site).1.2
    let behind := (cs.setIsolation d level site).2
    ¬ site.Unfailing behind ∧ cs.Keeps after ∧
      after.stack = cs.current :: cs.stack ∧ after.current = some level ∧
      (∀ g conn later site', g.name ∉ cs.groups →
        after.connect d g behind = ((.ok conn, later), site') →
          site'.history.getLast? = some ⟨.setIsolation conn level, true⟩) ∧
      ∀ between, StaysLive d after.stack.length after behind between →
        let now := run d after behind between
        (now.1.stack.length = after.stack.length →
          (now.1.resetLast d now.2).1.2.overrides = cs.overrides) ∧
        ∀ point, 0 < point → point ≤ cs.stack.length →
          (now.1.resetTo d point now.2).1.2.overrides =
            (cs.resetTo d point site).1.2.overrides := by
  intro after behind
  have hkeeps : cs.Keeps after := (setIsolation_did d cs level site).2
  have hfailed : ¬ site.Unfailing behind := by
    intro hno
    rw [setIsolation_point level hno] at hfault
    cases hfault
  refine ⟨hfailed, hkeeps, rfl, rfl, ?_, ?_⟩
  · intro g conn later site' hnew hconnect
    have hgroups : after.groups = cs.groups := hkeeps.groups
    exact connect_last rfl (hgroups ▸ hnew) hconnect
  · intro between hlive now
    have hbase : cs.overrides <:+ after.overrides := List.suffix_cons (some level) cs.overrides
    have hnow : cs.overrides <:+ now.1.overrides :=
      suffix_run hbase (List.cons_ne_nil _ _) hlive
    refine ⟨fun hheight => ?_, fun point hpos hpoint => ?_⟩
    · have hlength : now.1.stack.length = cs.overrides.length := hheight
      rw [resetLast, hlength]
      exact resetTo_restores hnow (List.cons_ne_nil _ _) now.2
    · refine resetTo_of_suffix hnow hpos ?_ site now.2
      rw [length_overrides]
      omega

/-- Inside a set that succeeded, one that fails on the only connection brings the second group's
connection to its level, and going back once leaves the outer override. -/
theorem setIsolation_fault_inner :
    let first : PhysicalGroup := ⟨"first", "one", none⟩
    let second : PhysicalGroup := ⟨"second", "two", none⟩
    let outer := run Recorder.driver (.new .directRead) { world := {} }
      [.connect first, .setIsolation .repeatableRead]
    let site : Site Recorder := { outer.2 with world := outer.2.world.fail "set_isolation" "one" }
    let failed := outer.1.setIsolation Recorder.driver .serializable site
    (∃ e, failed.1.1 = .error e) ∧ failed.1.2.overrides = some .serializable :: outer.1.overrides ∧
      (∃ later site', failed.1.2.connect Recorder.driver second failed.2 =
        ((.ok 4, later), site') ∧
          site'.history.getLast? = some ⟨.setIsolation 4 .serializable, true⟩) ∧
      (failed.1.2.resetLast Recorder.driver failed.2).1.2.overrides = outer.1.overrides := by
  intro first second outer site failed
  have hfault : failed.1.1 = .error { message := "set_isolation failed on one" } := by decide
  have hnew : second.name ∉ outer.1.groups := by decide
  have hconn : (failed.1.2.connect Recorder.driver second failed.2).1.1 = .ok 4 := by decide
  have h := setIsolation_fault Recorder.driver outer.1 site hfault
  rw [show outer.1.setIsolation Recorder.driver .serializable site = failed from rfl] at h
  -- the run is evaluated above; from here on it is any set with these facts
  clear_value failed site outer
  obtain ⟨-, -, hstack, hcurrent, hlater, hback⟩ := h
  have hoverrides : failed.1.2.overrides = some .serializable :: outer.1.overrides :=
    congrArg₂ List.cons hcurrent hstack
  refine ⟨⟨_, hfault⟩, hoverrides, ?_, (hback [] (Nat.le_refl _)).1 rfl⟩
  rcases hopened : failed.1.2.connect Recorder.driver second failed.2 with ⟨⟨r, later⟩, site'⟩
  rw [hopened] at hconn
  cases hconn
  exact ⟨later, site', rfl, hlater second 4 later site' hnew hopened⟩

/-- A set that fails on the held connection gives out no save point, and yet it is on the stack
and the connection that is opened next is at its level. -/
theorem failed_set_in_force :
    let first : PhysicalGroup := ⟨"first", "one", none⟩
    let second : PhysicalGroup := ⟨"second", "two", none⟩
    let start : Site Recorder := { world := ({} : Recorder).fail "set_isolation" "one" }
    let held := run Recorder.driver (.new .directRead) start [.connect first]
    let failed := held.1.setIsolation Recorder.driver .serializable held.2
    let before := held.1.connect Recorder.driver second held.2
    let behind := failed.1.2.connect Recorder.driver second failed.2
    failed.1.1 = .error { message := "set_isolation failed on one" } ∧
      held.1.stack = [] ∧ failed.1.2.stack = [none] ∧
      before.2.world.level? 1 = some .readCommitted ∧
      behind.2.world.level? 3 = some .serializable := by
  decide

end Connections

end DataAccess
