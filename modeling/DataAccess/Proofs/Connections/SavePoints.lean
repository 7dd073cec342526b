import DataAccess.Proofs.Connections.Isolation

/-!
# Save points that were discarded

A save point is a height of the stack, and heights are reached again. As long as the stack is
lower than a discarded save point, going back to it changes nothing. Once later sets have
brought the stack up to it, it is the save point of one of them.
-/

set_option autoImplicit false

namespace DataAccess.Connections

section
variable {W : Type} {d : Driver W} {cs : Connections} {site : Site W} {point : Nat}

theorem resetTo_of_lower (h : cs.stack.length < point) (site : Site W) :
    cs.resetTo d point site = ((.ok (), cs), site) := by
  rw [resetTo, if_pos (.inr h)]
  rfl

theorem point_of_setIsolation {level : Isolation}
    (h : (cs.setIsolation d level site).1.1 = .ok point) :
    point = (cs.step d site (.setIsolation level)).1.stack.length := by
  change Except.map (fun _ => (cs.current :: cs.stack).length) _ = _ at h
  generalize resultOf _ = r at h
  cases r with
  | error e => cases h
  | ok _ =>
    cases h
    rfl

theorem stack_length_step (cs : Connections) (site : Site W) (op : Op W) :
    (cs.step d site op).1.stack.length ≤ cs.stack.length ∨
      ∃ level, op = .setIsolation level ∧
        (cs.step d site op).1.stack.length = cs.stack.length + 1 := by
  have hlength := congrArg List.length (step_overrides d cs site op)
  rw [length_overrides] at hlength
  cases op with
  | setIsolation level => exact .inr ⟨level, rfl, rfl⟩
  | resetTo point =>
    left
    simp only [overridesAfter] at hlength
    split at hlength
    · rw [length_overrides] at hlength
      omega
    · rw [List.length_drop, length_overrides] at hlength
      omega
  | resetLast =>
    left
    simp only [overridesAfter] at hlength
    split at hlength
    · rw [length_overrides] at hlength
      omega
    · rw [List.length_tail, length_overrides] at hlength
      omega
  | close | drop =>
    left
    simp only [overridesAfter] at hlength
    split at hlength
    · rw [length_overrides] at hlength
      omega
    · rw [List.length_singleton] at hlength
      omega
  | connect | commit | rollback | elsewhere =>
    left
    simp only [overridesAfter, length_overrides] at hlength
    omega

/-- Where the stack has been lower than the save point and is no longer, the last set that
brought it up to the save point is live. -/
theorem exists_set_of_reached {ops : List (Op W)} (hlower : ¬ StaysLive d point cs site ops)
    (hreached : point ≤ (cs.run d site ops).1.stack.length) :
    ∃ earlier level later, ops = earlier ++ .setIsolation level :: later ∧
      (cs.run d site earlier).1.stack.length + 1 = point ∧
      let set := (cs.run d site earlier).1.step d (cs.run d site earlier).2 (.setIsolation level)
      StaysLive d point set.1 set.2 later := by
  induction ops generalizing cs site with
  | nil => exact absurd hreached hlower
  | cons op ops ih =>
    by_cases hlive : StaysLive d point (cs.step d site op).1 (cs.step d site op).2 ops
    · -- from here on the stack stays up, so this operation brought it there
      have hbefore : cs.stack.length < point := by
        by_contra hnot
        exact hlower ⟨Nat.le_of_not_lt hnot, hlive⟩
      have hafter := le_length_of_staysLive hlive
      rcases stack_length_step (d := d) cs site op with hle | ⟨level, rfl, hset⟩
      · omega
      · exact ⟨[], level, ops, rfl, by simp only [run]; omega, hlive⟩
    · obtain ⟨earlier, level, later, rfl, hpoint, hstays⟩ := ih hlive hreached
      exact ⟨op :: earlier, level, later, rfl, hpoint, hstays⟩

theorem run_append (ops later : List (Op W)) : cs.run d site (ops ++ later) =
    (cs.run d site ops).1.run d (cs.run d site ops).2 later := by
  induction ops generalizing cs site with
  | nil => rfl
  | cons op ops ih => exact ih

theorem resetTo_reached {ops : List (Op W)} (hlower : ¬ StaysLive d point cs site ops)
    (hreached : point ≤ (cs.run d site ops).1.stack.length) :
    ∃ earlier level later, ops = earlier ++ .setIsolation level :: later ∧
      let before := cs.run d site earlier
      let again := before.1.step d before.2 (.setIsolation level)
      again.1.stack.length = point ∧ StaysLive d point again.1 again.2 later ∧
        ((cs.run d site ops).1.resetTo d point (cs.run d site ops).2).1.2.overrides =
          before.1.overrides := by
  obtain ⟨earlier, level, later, rfl, rfl, hlive⟩ := exists_set_of_reached hlower hreached
  refine ⟨earlier, level, later, rfl, rfl, hlive, ?_⟩
  have hbase : (cs.run d site earlier).1.overrides <:+
      ((cs.run d site earlier).1.step d (cs.run d site earlier).2
        (.setIsolation level)).1.overrides := List.suffix_cons (some level) _
  rw [run_append]
  exact resetTo_restores (suffix_run hbase (List.cons_ne_nil _ _) hlive) (List.cons_ne_nil _ _) _

end

/-- The save point of a set is the height of the stack behind it. If it is discarded, then going
back to it changes nothing exactly as long as the stack is lower than it; otherwise it takes back
a later set. -/
theorem resetTo_discarded {W : Type} (d : Driver W) (cs : Connections) (site : Site W)
    {level : Isolation} {point : Nat} (hset : (cs.setIsolation d level site).1.1 = .ok point)
    (between : List (Op W)) :
    let set := cs.step d site (.setIsolation level)
    let now := run d set.1 set.2 between
    point = set.1.stack.length ∧ (¬ StaysLive d point set.1 set.2 between →
      (now.1.resetTo d point now.2 = ((.ok (), now.1), now.2) ↔ now.1.stack.length < point) ∧
      (point ≤ now.1.stack.length → ∃ earlier level' later,
        between = earlier ++ .setIsolation level' :: later ∧
        let before := run d set.1 set.2 earlier
        let again := before.1.step d before.2 (.setIsolation level')
        again.1.stack.length = point ∧ StaysLive d point again.1 again.2 later ∧
          (now.1.resetTo d point now.2).1.2.overrides = before.1.overrides)) := by
  intro set now
  refine ⟨point_of_setIsolation hset, fun hlower => ?_⟩
  have hreached (h : point ≤ now.1.stack.length) := resetTo_reached hlower h
  refine ⟨⟨fun hsame => ?_, fun h => resetTo_of_lower h now.2⟩, hreached⟩
  -- a set that is taken back leaves fewer overrides than there are now
  by_contra hnot
  obtain ⟨earlier, level', later, -, hpoint, -, hoverrides⟩ := hreached (Nat.le_of_not_lt hnot)
  rw [hsame] at hoverrides
  have hlength : now.1.stack.length + 1 = (run d set.1 set.2 earlier).1.stack.length + 1 :=
    congrArg List.length hoverrides
  have hheight : (run d set.1 set.2 earlier).1.stack.length + 1 = point := hpoint
  omega

/-- The save point of a set that was taken back changes nothing, until a second set is made. -/
theorem resetTo_discarded_twice :
    let group : PhysicalGroup := ⟨"default", "master", none⟩
    let held := run Recorder.driver (.new .directRead) { world := {} } [.connect group]
    let set := held.1.step Recorder.driver held.2 (.setIsolation .serializable)
    let back := run Recorder.driver set.1 set.2 [.resetTo 1]
    let again := run Recorder.driver set.1 set.2 [.resetTo 1, .setIsolation .repeatableRead]
    (held.1.setIsolation Recorder.driver .serializable held.2).1.1 = .ok 1 ∧
      back.1.resetTo Recorder.driver 1 back.2 = ((.ok (), back.1), back.2) ∧
      again.1.resetTo Recorder.driver 1 again.2 ≠ ((.ok (), again.1), again.2) := by
  intro group held set back again
  have hset : (held.1.setIsolation Recorder.driver .serializable held.2).1.1 = .ok 1 := by decide
  have hback := (resetTo_discarded Recorder.driver held.1 held.2 hset [.resetTo 1]).2 (by decide)
  have hagain := (resetTo_discarded Recorder.driver held.1 held.2 hset
    [.resetTo 1, .setIsolation .repeatableRead]).2 (by decide)
  exact ⟨hset, hback.1.mpr (by decide), fun h => absurd (hagain.1.mp h) (by decide)⟩

/-- The save point of the first set is discarded by going back to it. After a second set it takes
effect again: the override is gone and the connection is back at the level it was opened with. -/
theorem discarded_point_takes_effect :
    let group : PhysicalGroup := ⟨"default", "master", none⟩
    let held := run Recorder.driver (.new .directRead) { world := {} } [.connect group]
    let first := held.1.setIsolation Recorder.driver .serializable held.2
    let back := first.1.2.resetTo Recorder.driver 1 first.2
    let second := back.1.2.setIsolation Recorder.driver .repeatableRead back.2
    let late := second.1.2.resetTo Recorder.driver 1 second.2
    first.1.1 = .ok 1 ∧ back.1.2.overrides = [none] ∧
      second.1.2.overrides = [some .repeatableRead, none] ∧
      second.2.world.level? 0 = some .repeatableRead ∧
      late.1.2.overrides = [none] ∧ late.2.world.level? 0 = some .readCommitted := by
  decide

end DataAccess.Connections
