import DataAccess.Proofs.Connections.Calls
import DataAccess.Proofs.Dictionaries
import DataAccess.Recorder

/-!
# Every connection is closed once

A run of a session's connections is any sequence of its operations, with a driver that may fail
at any call. In every run the connections opened are those closed and those still held, each
once. A connection is closed when it cannot be made ready, or with all that are held at the
first close or drop, and behind that nothing is called any more.
-/

set_option autoImplicit false

namespace DataAccess.Connections

/-- The operations on held connections. Between them the world and the status of the data
sources may change. -/
inductive Op (W : Type) where
  | connect (g : PhysicalGroup)
  | setIsolation (level : Isolation)
  | resetTo (point : Nat)
  | resetLast
  | commit
  | rollback
  | close
  | drop
  | elsewhere (world : W) (status : String → SourceStatus)

section
variable {W : Type} (d : Driver W)

def step (cs : Connections) (site : Site W) : Op W → Connections × Site W
  | .connect g => ((cs.connect d g site).1.2, (cs.connect d g site).2)
  | .setIsolation level => ((cs.setIsolation d level site).1.2, (cs.setIsolation d level site).2)
  | .resetTo point => ((cs.resetTo d point site).1.2, (cs.resetTo d point site).2)
  | .resetLast => ((cs.resetLast d site).1.2, (cs.resetLast d site).2)
  | .commit => (cs, (cs.commit d site).2)
  | .rollback => (cs, (cs.rollback d site).2)
  | .close => ((cs.close d site).1.2, (cs.close d site).2)
  | .drop => if cs.closed then (cs, site) else ((cs.close d site).1.2, (cs.close d site).2)
  | .elsewhere world status => (cs, { site with world, status })

def run (cs : Connections) (site : Site W) : List (Op W) → Connections × Site W
  | [] => (cs, site)
  | op :: rest => run (cs.step d site op).1 (cs.step d site op).2 rest

def Due (cs : Connections) (site : Site W) (op : Op W) : Prop :=
  let (after, site') := cs.step d site op
  match op with
  | .connect g => cs.Connected g site (cs.connect d g site)
  | .close | .drop =>
    site.Did site' { closed := cs.conns } ∧ after.held = [] ∧ after.closed = true
  | _ => site.Did site' {} ∧ cs.Keeps after

theorem close_due {cs : Connections} (h : cs.closed = true → cs.held = []) (site : Site W) :
    site.Did (cs.close d site).2 { closed := cs.conns } ∧ (cs.close d site).1.2.held = [] ∧
      (cs.close d site).1.2.closed = true := by
  cases hclosed : cs.closed with
  | false => exact close_did d hclosed site
  | true =>
    have hheld := h hclosed
    rw [close_eq_of_closed d hclosed, conns, hheld]
    exact ⟨site.did_refl, rfl, hclosed⟩

theorem step_due {cs : Connections} (h : cs.closed = true → cs.held = []) (site : Site W)
    (op : Op W) : cs.Due d site op := by
  cases op with
  | connect g => exact connect_connected d cs g site
  | setIsolation level => exact setIsolation_did d cs level site
  | resetTo point => exact resetTo_did d cs point site
  | resetLast => exact resetTo_did d cs cs.stack.length site
  | commit => exact ⟨commit_did d cs site, keeps_refl cs⟩
  | rollback => exact ⟨rollback_did d cs site, keeps_refl cs⟩
  | close => exact close_due d h site
  | drop =>
    cases hclosed : cs.closed with
    | false =>
      rw [Due, step, hclosed, if_neg Bool.false_ne_true]
      exact close_due d h site
    | true =>
      have hheld := h hclosed
      rw [Due, step, if_pos hclosed, conns, hheld]
      exact ⟨site.did_refl, hheld, hclosed⟩
  | elsewhere world status =>
    exact ⟨⟨[], (List.append_nil _).symm, rfl⟩, keeps_refl cs⟩

/-- The connections opened since the start are those closed and those held, each once. -/
structure Accounted (start : Site W) (cs : Connections) (site : Site W) (deeds : Deeds) :
    Prop where
  did : start.Did site deeds
  accounts : deeds.opened.Perm (deeds.closed ++ cs.conns)
  once : deeds.opened.Nodup
  earlier : ∀ n ∈ deeds.opened, n < site.history.length
  distinct : cs.groups.Nodup
  released : cs.closed = true → cs.held = []

theorem new_accounted (access : Access) (site : Site W) :
    Accounted site (.new access) site {} where
  did := site.did_refl
  accounts := .nil
  once := .nil
  earlier _ h := by cases h
  distinct := .nil
  released _ := rfl

variable {d}
variable {start site site' : Site W} {cs : Connections} {deeds : Deeds}

theorem length_le_of_did (h : site.Did site' deeds) :
    site.history.length ≤ site'.history.length := by
  obtain ⟨calls, hcalls, -⟩ := h
  rw [hcalls, List.length_append]
  omega

theorem length_lt_of_did {n : Nat} (h : site.Did site' deeds) (hn : n ∈ deeds.opened) :
    site.history.length < site'.history.length := by
  obtain ⟨calls, hcalls, rfl⟩ := h
  cases calls with
  | nil => cases hn
  | cons p calls =>
    rw [hcalls, List.length_append, List.length_cons]
    omega

theorem keeps_accounted (h : Accounted start cs site deeds) {after : Connections}
    (hdid : site.Did site' {}) (hkeeps : cs.Keeps after) :
    Accounted start after site' deeds where
  did := Site.did_trans_quiet h.did hdid
  accounts := by rw [conns, hkeeps.conns]; exact h.accounts
  once := h.once
  earlier n hn := Nat.lt_of_lt_of_le (h.earlier n hn) (length_le_of_did hdid)
  distinct := by rw [groups, hkeeps.groups]; exact h.distinct
  released hclosed := by
    have hheld := hkeeps.conns
    rw [h.released (hkeeps.closed ▸ hclosed), List.map_nil] at hheld
    exact List.map_eq_nil_iff.mp hheld

theorem released_accounted (h : Accounted start cs site deeds) {after : Connections}
    (hdid : site.Did site' { closed := cs.conns }) (hheld : after.held = []) :
    Accounted start after site' (deeds.append { closed := cs.conns }) where
  did := Site.did_trans h.did hdid
  accounts := by simpa [Deeds.append, conns, hheld] using h.accounts
  once := by simpa [Deeds.append] using h.once
  earlier n hn := by
    have hmem : n ∈ deeds.opened := by simpa [Deeds.append] using hn
    exact Nat.lt_of_lt_of_le (h.earlier n hmem) (length_le_of_did hdid)
  distinct := by rw [groups, hheld]; exact .nil
  released _ := hheld

theorem opened_nodup (h : Accounted start cs site deeds) :
    (deeds.opened ++ [site.history.length]).Nodup := by
  rw [List.nodup_append]
  refine ⟨h.once, by simp, ?_⟩
  intro n hn k hk
  have hlt := h.earlier n hn
  rw [List.mem_singleton] at hk
  omega

theorem opened_earlier (h : Accounted start cs site deeds)
    (hlt : site.history.length < site'.history.length) :
    ∀ n ∈ deeds.opened ++ [site.history.length], n < site'.history.length := by
  intro n hn
  rcases List.mem_append.mp hn with hn | hn
  · exact Nat.lt_trans (h.earlier n hn) hlt
  · rw [List.mem_singleton] at hn
    omega

theorem connected_accounted (h : Accounted start cs site deeds) {g : PhysicalGroup}
    {r : Except Fault Nat} {after : Connections}
    (hc : cs.Connected g site ((r, after), site')) :
    ∃ deeds', Accounted start after site' deeds' := by
  cases r with
  | error e =>
    obtain ⟨rfl, hdid | ⟨hdid, -⟩⟩ := hc
    · exact ⟨deeds, keeps_accounted h hdid (keeps_refl after)⟩
    · have hperm := h.accounts.append_right [site.history.length]
      refine ⟨_, Site.did_trans h.did hdid, hperm.trans ?_, opened_nodup h,
        opened_earlier h (length_lt_of_did hdid (List.mem_singleton_self _)), h.distinct,
        h.released⟩
      simp only [Deeds.append, List.append_assoc]
      exact List.perm_append_comm.append_left deeds.closed
  | ok conn =>
    rcases hc with ⟨rfl, rfl, -⟩ | ⟨hopen, hnew, rfl, hdid, held, hgroup, hconn, rfl⟩
    · exact ⟨deeds, h⟩
    · have hperm := h.accounts.append_right [site.history.length]
      refine ⟨_, Site.did_trans h.did hdid, ?_, opened_nodup h,
        opened_earlier h (length_lt_of_did hdid (List.mem_singleton_self _)), ?_, ?_⟩
      · simpa [Deeds.append, conns, hconn, List.append_assoc] using hperm
      · rw [groups, List.map_append, List.nodup_append]
        refine ⟨h.distinct, by simp, ?_⟩
        intro name hname k hk
        rw [List.map_singleton, List.mem_singleton, hgroup] at hk
        rw [hk]
        intro heq
        exact hnew (heq ▸ hname)
      · intro hclosed
        rw [hopen] at hclosed
        cases hclosed

theorem step_accounted (d : Driver W) (h : Accounted start cs site deeds) (op : Op W) :
    ∃ deeds', Accounted start (cs.step d site op).1 (cs.step d site op).2 deeds' := by
  have hdue := step_due d h.released site op
  cases op with
  | connect g => exact connected_accounted h hdue
  | close | drop => exact ⟨_, released_accounted h hdue.1 hdue.2.1⟩
  | _ => exact ⟨deeds, keeps_accounted h hdue.1 hdue.2⟩

theorem run_accounted (d : Driver W) (h : Accounted start cs site deeds) (ops : List (Op W)) :
    ∃ deeds', Accounted start (cs.run d site ops).1 (cs.run d site ops).2 deeds' := by
  induction ops generalizing cs site deeds with
  | nil => exact ⟨deeds, h⟩
  | cons op ops ih =>
    obtain ⟨deeds', h'⟩ := step_accounted d h op
    exact ih h'

theorem connect_of_closed (d : Driver W) (hclosed : cs.closed = true) (g : PhysicalGroup)
    (site : Site W) : ∃ e, cs.connect d g site = ((.error e, cs), site) := by
  rcases connect_cases d cs g site with ⟨-, h⟩ | ⟨hopen, -⟩ | ⟨hopen, -⟩
  · exact h
  · rw [hclosed] at hopen
    cases hopen
  · rw [hclosed] at hopen
    cases hopen

theorem resetTo_of_held_nil (d : Driver W) (hheld : cs.held = []) (point : Nat)
    (site : Site W) : (cs.resetTo d point site).2 = site := by
  unfold resetTo
  split
  · rfl
  · cases cs.stack.drop (cs.stack.length - point) with
    | nil => rfl
    | cons previous below =>
      simp only [applyCurrent, hheld]
      rfl

theorem step_of_closed (d : Driver W) (hclosed : cs.closed = true) (hheld : cs.held = [])
    (site : Site W) (op : Op W) :
    (cs.step d site op).2.history = site.history ∧ (cs.step d site op).1.closed = true := by
  have hdue := step_due d (fun _ => hheld) site op
  cases op with
  | connect g =>
    obtain ⟨e, h⟩ := connect_of_closed d hclosed g site
    rw [step, h]
    exact ⟨rfl, hclosed⟩
  | setIsolation level =>
    refine ⟨?_, hdue.2.closed.trans hclosed⟩
    simp only [step, setIsolation, applyCurrent, hheld]
    rfl
  | resetTo point =>
    exact ⟨congrArg Site.history (resetTo_of_held_nil d hheld point site),
      hdue.2.closed.trans hclosed⟩
  | resetLast =>
    exact ⟨congrArg Site.history (resetTo_of_held_nil d hheld cs.stack.length site),
      hdue.2.closed.trans hclosed⟩
  | commit =>
    rw [step, commit, hheld]
    exact ⟨rfl, hclosed⟩
  | rollback =>
    rw [step, rollback, hheld]
    exact ⟨rfl, hclosed⟩
  | close =>
    rw [step, close_eq_of_closed d hclosed]
    exact ⟨rfl, hclosed⟩
  | drop =>
    rw [step, if_pos hclosed]
    exact ⟨rfl, hclosed⟩
  | elsewhere world status => exact ⟨rfl, hclosed⟩

def Op.isEnd : Op W → Bool
  | .close | .drop => true
  | _ => false

theorem step_closed (d : Driver W) (h : cs.closed = true → cs.held = []) (site : Site W)
    (op : Op W) : (cs.step d site op).1.closed = (cs.closed || op.isEnd) := by
  have hdue := step_due d h site op
  cases op with
  | connect g =>
    have hconnected : cs.Connected g site (cs.connect d g site) := hdue
    change (cs.connect d g site).1.2.closed = (cs.closed || false)
    rw [Bool.or_false]
    revert hconnected
    rcases cs.connect d g site with ⟨⟨r, after⟩, site'⟩
    intro hconnected
    cases r with
    | error e =>
      obtain ⟨rfl, -⟩ := hconnected
      rfl
    | ok conn =>
      rcases hconnected with ⟨rfl, -⟩ | ⟨-, -, -, -, held, -, -, rfl⟩
      · rfl
      · rfl
  | close | drop =>
    rw [Op.isEnd, Bool.or_true]
    exact hdue.2.2
  | _ => exact hdue.2.closed.trans (Bool.or_false _).symm

theorem run_closed (d : Driver W) (h : Accounted start cs site deeds) (ops : List (Op W)) :
    (cs.run d site ops).1.closed = (cs.closed || ops.any Op.isEnd) := by
  induction ops generalizing cs site deeds with
  | nil => rw [run, List.any_nil, Bool.or_false]
  | cons op ops ih =>
    obtain ⟨deeds', h'⟩ := step_accounted d h op
    rw [run, ih h', step_closed d h.released, List.any_cons, Bool.or_assoc]

theorem connect_of_mem (d : Driver W) (hopen : cs.closed = false) (hdistinct : cs.groups.Nodup)
    {h : Held} (hmem : h ∈ cs.held) {g : PhysicalGroup} (hg : g.name = h.group) (site : Site W) :
    cs.connect d g site = ((.ok h.conn, cs), site) := by
  have hfind : cs.held.find? (·.group = g.name) = some h := hg ▸ find?_key hdistinct hmem
  rcases connect_cases d cs g site with ⟨hclosed, -⟩ | ⟨-, k, hk, heq⟩ | ⟨-, hnone, -⟩
  · rw [hopen] at hclosed
    cases hclosed
  · rw [hfind] at hk
    cases hk
    exact heq
  · rw [hfind] at hnone
    cases hnone

theorem count_closed (h : Accounted start cs site deeds) {n : Nat} (hn : n ∈ deeds.opened) :
    deeds.closed.count n = if n ∈ cs.conns then 0 else 1 := by
  have honce := h.accounts.count_eq n
  rw [h.once.count, if_pos hn, List.count_append] at honce
  split
  · next hheld =>
    have hpos := List.count_pos_iff.mpr hheld
    omega
  · next hheld =>
    have hzero := List.count_eq_zero.mpr hheld
    omega

/-- In every run a group has one connection at most, which connecting again returns as it is;
what was opened is closed once unless it is still held, and no operation closes anything but
what is due; and behind the first close or drop nothing is opened, closed or called. -/
theorem run_closes_once (d : Driver W) (access : Access) (start : Site W) (ops : List (Op W)) :
    let (cs, site) := run d (.new access) start ops
    (cs.groups.Nodup ∧ ∀ h ∈ cs.held, ∀ g : PhysicalGroup, g.name = h.group →
      cs.connect d g site = ((.ok h.conn, cs), site)) ∧
    (∃ deeds, start.Did site deeds ∧ deeds.opened.Nodup ∧
      (∀ n ∈ deeds.closed ++ cs.conns, n ∈ deeds.opened) ∧
      (∀ n ∈ deeds.opened, deeds.closed.count n = if n ∈ cs.conns then 0 else 1) ∧
      (cs.closed = true → ∀ n ∈ deeds.opened, deeds.closed.count n = 1)) ∧
    (∀ op, cs.Due d site op) ∧
    cs.closed = ops.any Op.isEnd ∧
    (cs.closed = true → cs.held = [] ∧
      (∀ g, ∃ e, cs.connect d g site = ((.error e, cs), site)) ∧
      ∀ op, (cs.step d site op).2.history = site.history ∧
        (cs.step d site op).1.closed = true) := by
  have hstart := new_accounted access start
  obtain ⟨deeds, h⟩ := run_accounted d hstart ops
  have hclosed := run_closed d hstart ops
  generalize run d (.new access) start ops = state at h hclosed
  obtain ⟨cs, site⟩ := state
  refine ⟨⟨h.distinct, ?_⟩, ⟨deeds, h.did, h.once, ?_, ?_, ?_⟩, ?_, hclosed, ?_⟩
  · intro held hmem g hg
    have hopen : cs.closed = false := by
      rw [← Bool.not_eq_true]
      intro hc
      rw [h.released hc] at hmem
      cases hmem
    exact connect_of_mem d hopen h.distinct hmem hg site
  · intro n hn
    exact h.accounts.mem_iff.mpr hn
  · intro n hn
    exact count_closed h hn
  · intro hc n hn
    rw [count_closed h hn, conns, h.released hc]
    rfl
  · intro op
    exact step_due d h.released site op
  · intro hc
    have hheld := h.released hc
    exact ⟨hheld, fun g => connect_of_closed d hc g site, step_of_closed d hc hheld site⟩

/-- The second group's connection cannot be brought to the level and is closed at once; the
first group's is closed by the close, not by the drop. -/
theorem run_closes_once_unprepared :
    let first : PhysicalGroup := ⟨"first", "one", none⟩
    let second : PhysicalGroup := ⟨"second", "two", none⟩
    let start : Site Recorder := { world := ({} : Recorder).fail "set_isolation" "two" }
    let ops : List (Op Recorder) := [.connect first, .setIsolation .serializable,
      .connect second, .connect first, .close, .drop, .connect second]
    let (cs, site) := run Recorder.driver (.new .directRead) start ops
    (Deeds.of site.history).opened = [0, 3] ∧ (Deeds.of site.history).closed = [3, 0] ∧
      ∃ e, cs.connect Recorder.driver first site = ((.error e, cs), site) := by
  intro first second start ops
  have h := run_closes_once Recorder.driver .directRead start ops
  exact ⟨by decide, by decide, (h.2.2.2.2 (by decide)).2.1 first⟩

end

end DataAccess.Connections
