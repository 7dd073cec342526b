import DataAccess.Proofs.Connections.Levels
import DataAccess.Proofs.Connections.Release
import Mathlib.Data.List.Infix

/-!
# Overrides of the level

A run is compared with the sets that are still live. The override in force and those that the
save points go back to are the beginnings of that list, one inside the other, and every held
connection is at the level of the innermost set, or at the one it was opened with. Going back
to a save point leaves what was there before its set.
-/

set_option autoImplicit false

namespace DataAccess.Connections

def overrides (cs : Connections) : List (Option Isolation) := cs.current :: cs.stack

theorem length_overrides (cs : Connections) : cs.overrides.length = cs.stack.length + 1 := rfl

section
variable {W : Type}

/-- What an operation makes of the overrides. Save point zero is none; a save point that the
stack does not reach drops nothing. -/
def overridesAfter (closed : Bool) (levels : List (Option Isolation)) :
    Op W → List (Option Isolation)
  | .setIsolation level => some level :: levels
  | .resetTo point => if point = 0 then levels else levels.drop (levels.length - point)
  | .resetLast => if levels.length = 1 then levels else levels.tail
  | .close | .drop => if closed then levels else [none]
  | _ => levels

variable (d : Driver W)

theorem resetTo_overrides (cs : Connections) (point : Nat) (site : Site W) :
    (cs.resetTo d point site).1.2.overrides =
      if point = 0 then cs.overrides else cs.overrides.drop (cs.overrides.length - point) := by
  by_cases hzero : point = 0
  · rw [resetTo, if_pos (.inl hzero), if_pos hzero]
    rfl
  by_cases hbeyond : cs.stack.length < point
  · rw [resetTo, if_pos (.inr hbeyond), if_neg hzero, length_overrides,
      show cs.stack.length + 1 - point = 0 by omega]
    rfl
  · have hdropped : cs.overrides.drop (cs.stack.length - point + 1) =
        cs.stack.drop (cs.stack.length - point) := rfl
    rw [resetTo, if_neg (by omega), if_neg hzero, length_overrides,
      show cs.stack.length + 1 - point = cs.stack.length - point + 1 by omega, hdropped]
    cases hdrop : cs.stack.drop (cs.stack.length - point) with
    | nil =>
      have hlength := congrArg List.length hdrop
      rw [List.length_drop, List.length_nil] at hlength
      omega
    | cons previous below => rfl

theorem step_overrides (cs : Connections) (site : Site W) (op : Op W) :
    (cs.step d site op).1.overrides = overridesAfter cs.closed cs.overrides op := by
  cases op with
  | connect g =>
    rcases connect_cases d cs g site with
      ⟨-, e, h⟩ | ⟨-, held, -, h⟩ | ⟨-, -, ⟨e, after, -, h⟩ | ⟨held, after, -, h⟩⟩ <;>
    · rw [step, h]
      rfl
  | setIsolation level => rfl
  | resetTo point => exact resetTo_overrides d cs point site
  | resetLast =>
    have h := resetTo_overrides d cs cs.stack.length site
    rw [step, resetLast, h, overridesAfter, length_overrides, Nat.add_sub_cancel_left,
      List.drop_one]
    simp
  | commit | rollback | elsewhere => rfl
  | close =>
    rw [step, close, overridesAfter]
    split <;> rfl
  | drop =>
    rw [step, overridesAfter]
    split
    · rfl
    · next h =>
      rw [close, if_neg h]
      rfl

/-- The levels of the sets that are live, the innermost first, and the level that each
connection was opened with. -/
structure Observed where
  live : List Isolation := []
  opened : Nat → Option Isolation := fun _ => none

variable (level? : W → Nat → Option Isolation)

/-- Going back to a save point ends its set and every later one, and closing ends them all. -/
def Observed.after (o : Observed) (cs : Connections) (site : Site W) : Op W → Observed
  | .connect g =>
    { o with opened :=
        Function.update o.opened site.history.length (levelAtOpening d level? cs g site) }
  | .setIsolation level => { o with live := level :: o.live }
  | .resetTo point =>
    if point = 0 then o else { o with live := o.live.drop (o.live.length + 1 - point) }
  | .resetLast => { o with live := o.live.tail }
  | .close | .drop => if cs.closed then o else { o with live := [] }
  | _ => o

def observe (o : Observed) (cs : Connections) (site : Site W) : List (Op W) → Observed
  | [] => o
  | op :: rest =>
    observe (o.after d level? cs site op) (cs.step d site op).1 (cs.step d site op).2 rest

/-- No call of the operation fails, and what happens elsewhere moves no level. -/
def Smooth (cs : Connections) (site : Site W) : Op W → Prop
  | .elsewhere world _ => level? world = level? site.world
  | op => site.Unfailing (cs.step d site op).2

def Faultless (cs : Connections) (site : Site W) : List (Op W) → Prop
  | [] => True
  | op :: rest =>
    Smooth d level? cs site op ∧ Faultless (cs.step d site op).1 (cs.step d site op).2 rest

/-- The overrides are those of the live sets, and every held connection is settled under them. -/
structure Followed (cs : Connections) (site : Site W) (o : Observed) : Prop where
  overrides : cs.overrides = o.live.tails.map List.head?
  settled : ∀ h ∈ cs.held, Settled level? o.opened cs.current site.world h

theorem drop_tails {α : Type} (l : List α) {k : Nat} (hk : k ≤ l.length) :
    l.tails.drop k = (l.drop k).tails := by
  induction l generalizing k with
  | nil =>
    obtain rfl : k = 0 := by simpa using hk
    rfl
  | cons a l ih =>
    cases k with
    | zero => rfl
    | succ k => simpa using ih (by simpa using hk)

variable {d level?}

theorem overrides_followed {cs : Connections} {o : Observed}
    (h : cs.overrides = o.live.tails.map List.head?) (site : Site W) (op : Op W) :
    overridesAfter cs.closed cs.overrides op =
      (o.after d level? cs site op).live.tails.map List.head? := by
  rw [h]
  cases op with
  | setIsolation level => simp [overridesAfter, Observed.after]
  | resetTo point =>
    simp only [overridesAfter, Observed.after]
    by_cases hzero : point = 0
    · rw [if_pos hzero, if_pos hzero]
    · rw [if_neg hzero, if_neg hzero, ← List.map_drop, List.length_map, List.length_tails,
        drop_tails o.live (by omega)]
  | resetLast =>
    simp only [overridesAfter, Observed.after]
    cases o.live <;> simp
  | close | drop =>
    simp only [overridesAfter, Observed.after]
    split <;> rfl
  | _ => rfl

theorem override_of_followed {cs : Connections} {o : Observed}
    (h : cs.overrides = o.live.tails.map List.head?) :
    cs.current = o.live.head? ∧ cs.stack.length = o.live.length := by
  have hlength := congrArg List.length h
  rw [length_overrides, List.length_map, List.length_tails] at hlength
  constructor
  · have hhead := congrArg List.head? h
    rw [overrides, List.head?_cons] at hhead
    cases hlive : o.live <;> simp_all
  · omega

variable {start site : Site W} {cs : Connections} {deeds : Deeds} {o : Observed}

theorem conns_nodup (h : Accounted start cs site deeds) : cs.conns.Nodup :=
  (List.nodup_append.mp (h.accounts.nodup_iff.mp h.once)).2.1

theorem conns_earlier (h : Accounted start cs site deeds) {held : Held} (hmem : held ∈ cs.held) :
    held.conn < site.history.length :=
  h.earlier _ (h.accounts.mem_iff.mpr (List.mem_append_right _ (List.mem_map_of_mem hmem)))

theorem connect_settled (hd : d.KeepsLevels level?) (h : Accounted start cs site deeds)
    (hs : ∀ k ∈ cs.held, Settled level? o.opened cs.current site.world k) {g : PhysicalGroup}
    (hno : site.Unfailing (cs.connect d g site).2) :
    ∀ k ∈ (cs.connect d g site).1.2.held,
      Settled level?
        (Function.update o.opened site.history.length (levelAtOpening d level? cs g site))
        (cs.connect d g site).1.2.current (cs.connect d g site).2.world k := by
  -- no held connection has the number that a new one would get
  have hheld (w : W) (hw : ∀ c, c ≠ site.history.length → level? w c = level? site.world c) :
      ∀ k ∈ cs.held, Settled level?
        (Function.update o.opened site.history.length (levelAtOpening d level? cs g site))
        cs.current w k := by
    intro k hk
    have hne : k.conn ≠ site.history.length := Nat.ne_of_lt (conns_earlier h hk)
    exact settled_opened (settled_congr (hs k hk) (hw k.conn hne))
      (Function.update_of_ne hne _ _)
  rcases connect_cases d cs g site with
    ⟨-, e, heq⟩ | ⟨-, held, -, heq⟩ |
    ⟨-, -, ⟨e, after, hacquire, heq⟩ | ⟨new, after, hacquire, heq⟩⟩
  · rw [heq]
    exact hheld site.world fun _ _ => rfl
  · rw [heq]
    exact hheld site.world fun _ _ => rfl
  · rw [heq] at hno ⊢
    exact hheld after.world (acquire_settled hd hacquire hno o.opened).2
  · rw [heq] at hno ⊢
    obtain ⟨hnew, hother⟩ := acquire_settled hd hacquire hno o.opened
    intro k hk
    rcases List.mem_append.mp hk with hk | hk
    · exact hheld after.world hother k hk
    · obtain rfl := List.mem_singleton.mp hk
      exact hnew k rfl

theorem applyCurrent_settled (hd : d.KeepsLevels level?) {before? : Option Isolation}
    (hdistinct : cs.conns.Nodup)
    (hs : ∀ k ∈ cs.held, Settled level? o.opened before? site.world k)
    (hno : site.Unfailing (cs.applyCurrent d site).2) :
    ∀ k ∈ (cs.applyCurrent d site).1.2.held,
      Settled level? o.opened (cs.applyCurrent d site).1.2.current
        (cs.applyCurrent d site).2.world k :=
  (applyAll_settled hd hdistinct hs hno).1

theorem resetTo_settled (hd : d.KeepsLevels level?) (hdistinct : cs.conns.Nodup)
    (hs : ∀ k ∈ cs.held, Settled level? o.opened cs.current site.world k) {point : Nat}
    (hno : site.Unfailing (cs.resetTo d point site).2) :
    ∀ k ∈ (cs.resetTo d point site).1.2.held,
      Settled level? o.opened (cs.resetTo d point site).1.2.current
        (cs.resetTo d point site).2.world k := by
  unfold resetTo at hno ⊢
  split at hno
  · next hpoint =>
    rw [if_pos hpoint]
    exact hs
  · next hpoint =>
    rw [if_neg hpoint]
    cases hdrop : cs.stack.drop (cs.stack.length - point) with
    | nil => exact hs
    | cons previous below =>
      rw [hdrop] at hno
      exact applyCurrent_settled hd hdistinct hs hno

theorem step_settled (hd : d.KeepsLevels level?) (h : Accounted start cs site deeds)
    (hs : ∀ k ∈ cs.held, Settled level? o.opened cs.current site.world k) {op : Op W}
    (hop : Smooth d level? cs site op) :
    ∀ k ∈ (cs.step d site op).1.held,
      Settled level? (o.after d level? cs site op).opened (cs.step d site op).1.current
        (cs.step d site op).2.world k := by
  have hdistinct := conns_nodup h
  have hdue := step_due d h.released site op
  cases op with
  | connect g => exact connect_settled hd h hs hop
  | setIsolation level => exact applyCurrent_settled hd hdistinct hs hop
  | resetTo point =>
    have hafter : (o.after d level? cs site (.resetTo point)).opened = o.opened := by
      simp only [Observed.after]
      split <;> rfl
    rw [hafter]
    exact resetTo_settled hd hdistinct hs hop
  | resetLast => exact resetTo_settled hd hdistinct hs hop
  | commit =>
    intro k hk
    have hlevels := callAll_levels (fun conn site => call_did d (.commit conn) site)
      (fun conn site hno => funext fun c => call_levels hd hno rfl) hop
    exact settled_congr (hs k hk) (congrFun hlevels k.conn)
  | rollback =>
    intro k hk
    have hlevels := callAll_levels (fun conn site => call_did d (.rollback conn) site)
      (fun conn site hno => funext fun c => call_levels hd hno rfl) hop
    exact settled_congr (hs k hk) (congrFun hlevels k.conn)
  | close | drop =>
    intro k hk
    exact absurd hk (List.eq_nil_iff_forall_not_mem.mp hdue.2.1 k)
  | elsewhere world status =>
    intro k hk
    exact settled_congr (hs k hk) (congrFun hop k.conn)

theorem step_followed (hd : d.KeepsLevels level?) (h : Accounted start cs site deeds)
    (hf : Followed level? cs site o) {op : Op W} (hop : Smooth d level? cs site op) :
    Followed level? (cs.step d site op).1 (cs.step d site op).2 (o.after d level? cs site op) where
  overrides := (step_overrides d cs site op).trans (overrides_followed hf.overrides site op)
  settled := step_settled hd h hf.settled hop

theorem run_followed (hd : d.KeepsLevels level?) (h : Accounted start cs site deeds)
    (hf : Followed level? cs site o) {ops : List (Op W)} (hops : Faultless d level? cs site ops) :
    Followed level? (cs.run d site ops).1 (cs.run d site ops).2
      (observe d level? o cs site ops) := by
  induction ops generalizing cs site deeds o with
  | nil => exact hf
  | cons op ops ih =>
    obtain ⟨deeds', h'⟩ := step_accounted d h op
    exact ih h' (step_followed hd h hf hops.1) hops.2

theorem new_followed (access : Access) (site : Site W) :
    Followed level? (.new access) site {} where
  overrides := rfl
  settled k hk := by cases hk

variable (d)

def StaysLive (point : Nat) (cs : Connections) (site : Site W) : List (Op W) → Prop
  | [] => point ≤ cs.stack.length
  | op :: rest =>
    point ≤ cs.stack.length ∧ StaysLive point (cs.step d site op).1 (cs.step d site op).2 rest

instance decidableStaysLive (point : Nat) (cs : Connections) (site : Site W) :
    (ops : List (Op W)) → Decidable (StaysLive d point cs site ops)
  | [] => inferInstanceAs (Decidable (point ≤ cs.stack.length))
  | op :: rest =>
    have := decidableStaysLive point (cs.step d site op).1 (cs.step d site op).2 rest
    inferInstanceAs (Decidable (point ≤ cs.stack.length ∧ StaysLive d point _ _ rest))

variable {d}

theorem le_length_of_staysLive {point : Nat} {ops : List (Op W)}
    (h : StaysLive d point cs site ops) : point ≤ cs.stack.length := by
  cases ops with
  | nil => exact h
  | cons op ops => exact h.1

/-- An operation takes overrides off the top or puts one there, so those below a save point
that stays are what they were. -/
theorem suffix_overridesAfter {closed : Bool} {base levels : List (Option Isolation)} {op : Op W}
    (h : base <:+ levels) (hbase : base ≠ [])
    (hlive : base.length < (overridesAfter closed levels op).length) :
    base <:+ overridesAfter closed levels op := by
  have hpos := List.length_pos_iff.mpr hbase
  have hdrop (k : Nat) (hk : base.length < (levels.drop k).length) : base <:+ levels.drop k :=
    List.suffix_of_suffix_length_le h (List.drop_suffix k levels) (Nat.le_of_lt hk)
  cases op with
  | setIsolation level => exact h.trans (List.suffix_cons _ _)
  | resetTo point =>
    simp only [overridesAfter] at hlive ⊢
    split at hlive
    · next hzero => rwa [if_pos hzero]
    · next hzero =>
      rw [if_neg hzero]
      exact hdrop _ hlive
  | resetLast =>
    simp only [overridesAfter] at hlive ⊢
    split at hlive
    · next hone => rwa [if_pos hone]
    · next hone =>
      rw [if_neg hone, ← List.drop_one]
      exact hdrop 1 (by rwa [List.drop_one])
  | close | drop =>
    simp only [overridesAfter] at hlive ⊢
    split at hlive
    · next hclosed => rwa [if_pos hclosed]
    · rw [List.length_singleton] at hlive
      omega
  | _ => exact h

theorem suffix_run {base : List (Option Isolation)} {ops : List (Op W)}
    (h : base <:+ cs.overrides) (hbase : base ≠ [])
    (hlive : StaysLive d base.length cs site ops) :
    base <:+ (cs.run d site ops).1.overrides := by
  induction ops generalizing cs site with
  | nil => exact h
  | cons op ops ih =>
    have hle := le_length_of_staysLive hlive.2
    have hstep := step_overrides d cs site op
    have hlonger : base.length < (overridesAfter cs.closed cs.overrides op).length := by
      rw [← hstep, length_overrides]
      omega
    exact ih (hstep ▸ suffix_overridesAfter h hbase hlonger) hlive.2

theorem resetTo_restores {base : List (Option Isolation)} (h : base <:+ cs.overrides)
    (hbase : base ≠ []) (site : Site W) :
    (cs.resetTo d base.length site).1.2.overrides = base := by
  rw [resetTo_overrides, if_neg (by simpa using hbase)]
  exact (List.suffix_iff_eq_drop.mp h).symm

theorem setIsolation_point (level : Isolation)
    (hno : site.Unfailing (cs.setIsolation d level site).2) :
    (cs.setIsolation d level site).1.1 = .ok (cs.stack.length + 1) := by
  have hfault : (applyAll d (some level) cs.held site).1.1 = none := applyAll_fault hno
  show Except.map _ (resultOf (applyAll d (some level) cs.held site).1.1) = _
  rw [hfault]
  rfl

/-- In every run in which no call fails a held connection is at the level of the innermost set
that is live, or at the one it was opened with, and the level counts as changed as long as a
set is live; going back to the save point of a set that is still live leaves the overrides that
were there before it; and closing puts every connection back to the level it was opened with
before it closes it. -/
theorem run_levels (hd : d.KeepsLevels level?) (access : Access) (start : Site W)
    (ops : List (Op W)) (hops : Faultless d level? (.new access) start ops) :
    let (cs, site) := run d (.new access) start ops
    let seen := observe d level? {} (.new access) start ops
    (∀ h ∈ cs.held, (seen.opened h.conn).isSome ∧
      level? site.world h.conn = seen.live.head?.or (seen.opened h.conn)) ∧
    (cs.current = seen.live.head? ∧ cs.stack.length = seen.live.length ∧
      (cs.isOverridden = true ↔ seen.live ≠ [])) ∧
    (∀ level between, let ((point, set), site') := cs.setIsolation d level site
      site.Unfailing site' → point = .ok (cs.stack.length + 1) ∧
        (StaysLive d (cs.stack.length + 1) set site' between →
          let (later, site'') := run d set site' between
          (later.resetTo d (cs.stack.length + 1) site'').1.2.overrides = cs.overrides)) ∧
    (cs.closed = false → site.Unfailing (cs.close d site).2 →
      (cs.close d site).2.history = site.history ++ cs.held.flatMap
        (fun h => releaseCalls seen.live.head? (seen.opened h.conn) h.conn) ∧
      ∀ h ∈ cs.held, level? (cs.close d site).2.world h.conn = seen.opened h.conn) := by
  have hstart := new_accounted access start
  obtain ⟨deeds, h⟩ := run_accounted d hstart ops
  have hf := run_followed hd hstart (new_followed access start) hops
  generalize run d (.new access) start ops = state at h hf
  obtain ⟨cs, site⟩ := state
  generalize observe d level? {} (.new access) start ops = seen at hf
  obtain ⟨hcurrent, hlength⟩ := override_of_followed hf.overrides
  refine ⟨?_, ⟨hcurrent, hlength, ?_⟩, ?_, ?_⟩
  · intro k hk
    have hs := hf.settled k hk
    exact ⟨hs.known, hcurrent ▸ hs.level⟩
  · rw [isOverridden, hcurrent]
    cases seen.live <;> simp
  · intro level between hno
    refine ⟨setIsolation_point level hno, fun hlive => ?_⟩
    have hbase : cs.overrides <:+ (cs.setIsolation d level site).1.2.overrides :=
      List.suffix_cons (some level) cs.overrides
    exact resetTo_restores (suffix_run hbase (List.cons_ne_nil _ _) hlive) (List.cons_ne_nil _ _) _
  · intro hclosed hno
    have hclose : (cs.close d site).2 = (releaseAll d cs.held site).2 := by
      rw [close, hclosed, if_neg Bool.false_ne_true]
      rfl
    rw [hclose] at hno ⊢
    obtain ⟨hhistory, hlevels, -⟩ := releaseAll_restores hd (conns_nodup h) hf.settled hno
    exact ⟨hcurrent ▸ hhistory, hlevels⟩

/-- With one of two nested overrides taken back, a third set is live between its save point and
the way back to it. -/
theorem run_levels_nested :
    let group (name : String) : PhysicalGroup := ⟨name, name, none⟩
    let start : Site Recorder := { world := {} }
    let ops : List (Op Recorder) := [.connect (group "a"), .setIsolation .serializable,
      .connect (group "b"), .setIsolation .repeatableRead, .connect (group "c"), .resetTo 2]
    let between : List (Op Recorder) :=
      [.connect (group "d"), .setIsolation .repeatableRead, .resetLast]
    let state := run Recorder.driver (.new (.write true)) start ops
    let set := state.1.setIsolation Recorder.driver .readUncommitted state.2
    let later := run Recorder.driver set.1.2 set.2 between
    Faultless Recorder.driver Recorder.level? (.new (.write true)) start ops ∧
    (∀ h ∈ state.1.held, state.2.world.level? h.conn = some .serializable) ∧
    state.1.isOverridden = true ∧
    (later.1.resetTo Recorder.driver 2 later.2).1.2.overrides = [some .serializable, none] ∧
    (state.1.close Recorder.driver state.2).2.history = state.2.history ++ state.1.held.flatMap
      fun h => releaseCalls (some .serializable) (some .readCommitted) h.conn := by
  intro group start ops between state set later
  have hops : Faultless Recorder.driver Recorder.level? (.new (.write true)) start ops := by
    refine ⟨?_, ?_, ?_, ?_, ?_, ?_, trivial⟩ <;> unfold Smooth <;> decide
  have h := run_levels Recorder.keepsLevels (.write true) start ops hops
  have hlive : (observe Recorder.driver Recorder.level? {} (.new (.write true)) start ops).live =
      [.serializable] := by decide
  have hopened : ∀ k ∈ state.1.held,
      (observe Recorder.driver Recorder.level? {} (.new (.write true)) start ops).opened k.conn =
        some .readCommitted := by decide
  have hset : state.2.Unfailing set.2 := by decide
  have hbetween : StaysLive Recorder.driver 2 set.1.2 set.2 between := by decide
  have hclosing : state.1.closed = false ∧
    state.2.Unfailing (state.1.close Recorder.driver state.2).2 := by decide
  have hoverrides : state.1.overrides = [some .serializable, none] := by decide
  have hpoint : state.1.stack.length + 1 = 2 := by decide
  refine ⟨hops, ?_⟩
  rw [show run Recorder.driver (.new (.write true)) start ops = state from rfl] at h
  clear hops
  -- the run is evaluated above; from here on it is any run with these facts
  generalize observe Recorder.driver Recorder.level? {} (.new (.write true)) start ops = seen
    at h hlive hopened
  clear_value state
  obtain ⟨cs, site⟩ := state
  obtain ⟨hlevels, hcurrent, hback, hclose⟩ := h
  have hlevel (k : Held) (hk : k ∈ cs.held) : site.world.level? k.conn = some .serializable := by
    rw [(hlevels k hk).2, hlive]
    rfl
  have hrestored := (hback .readUncommitted between hset).2
  obtain ⟨hhistory, -⟩ := hclose hclosing.1 hclosing.2
  refine ⟨hlevel, hcurrent.2.2.mpr (by simp [hlive]), ?_, ?_⟩
  · rw [hpoint, hoverrides] at hrestored
    exact hrestored hbetween
  · rw [hhistory, hlive]
    congr 1
    exact List.flatMap_congr fun k hk => by rw [hopened k hk]; rfl

end

end DataAccess.Connections
