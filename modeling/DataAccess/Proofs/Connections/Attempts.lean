import DataAccess.Manager
import DataAccess.Proofs.Connections.Release
import DataAccess.Recorder

/-!
# Every held connection is reached

Commit, rollback and close make their call on each connection that is held, in the order in which
the connections were opened, whatever an earlier one answered. Only then a fault is told: that of
the first connection that failed, and for a close those of all that did.
-/

set_option autoImplicit false

namespace DataAccess

def Performed.release? (p : Performed) : Option (Nat × Bool) :=
  match p.call with
  | .close conn => some (conn, p.succeeded)
  | _ => none

def faults (answers : List (Except DriverFault Unit)) : List DriverFault :=
  answers.filterMap fun
    | .error e => some e
    | .ok _ => none

/-- What is told of all answers: success where all succeeded, or else the first fault. -/
inductive Tells : List (Except DriverFault Unit) → Except DriverFault Unit → Prop
  | success {answers : List (Except DriverFault Unit)} (h : ∀ r ∈ answers, r = .ok ()) :
      Tells answers (.ok ())
  | fault (front : List (Except DriverFault Unit)) {back : List (Except DriverFault Unit)}
      (e : DriverFault) (h : ∀ r ∈ front, r = .ok ()) : Tells (front ++ .error e :: back) (.error e)

theorem tells_ok {answers : List (Except DriverFault Unit)} {r : Except DriverFault Unit}
    (h : Tells answers r) : Tells (.ok () :: answers) r := by
  cases h with
  | success hall => exact .success (List.forall_mem_cons.mpr ⟨rfl, hall⟩)
  | fault front e hfront =>
    exact .fault (.ok () :: front) e (List.forall_mem_cons.mpr ⟨rfl, hfront⟩)

theorem tells_first (answers : List (Except DriverFault Unit)) :
    Tells answers (resultOf (faults answers).head?) := by
  induction answers with
  | nil => exact .success nofun
  | cons r answers ih =>
    cases r with
    | error e => exact .fault [] e nofun
    | ok _ => exact tells_ok ih

theorem faults_cons (r : Except DriverFault Unit) (answers : List (Except DriverFault Unit)) :
    faults (r :: answers) = (firstFault r none).toList ++ faults answers := by
  cases r with
  | error e => rfl
  | ok _ => rfl

theorem firstFault_eq (r : Except DriverFault Unit) (answers : List (Except DriverFault Unit)) :
    firstFault r (faults answers).head? = (faults (r :: answers)).head? := by
  cases r with
  | error e => rfl
  | ok _ => rfl

section
variable {W : Type}

/-- The calls on each of the connections, in order: what they are answered, and what they leave
in the history. -/
structure Reaches (call : Nat → Call) (run : Nat → Effect W (Except DriverFault Unit))
    (conns : List Nat) (before : Site W) (answers : List (Except DriverFault Unit))
    (after : Site W) : Prop where
  answered : conns.mapM run before = (answers, after)
  each : answers.length = conns.length
  history : after.history =
    before.history ++ List.zipWith (fun conn r => ⟨call conn, succeeded r⟩) conns answers

theorem mapM_site {α β : Type} (f : α → Effect W β) (a : α) (rest : List α) (site : Site W) :
    (a :: rest).mapM f site =
      ((f a site).1 :: (rest.mapM f (f a site).2).1, (rest.mapM f (f a site).2).2) := by
  rw [List.mapM_cons]
  rfl

theorem exists_reaches {call : Nat → Call} {run : Nat → Effect W (Except DriverFault Unit)}
    (hrun : ∀ conn (site : Site W), (run conn site).2.history =
      site.history ++ [⟨call conn, succeeded (run conn site).1⟩]) (conns : List Nat)
    (site : Site W) :
    Reaches call run conns site (conns.mapM run site).1 (conns.mapM run site).2 := by
  induction conns generalizing site with
  | nil => exact ⟨rfl, rfl, (List.append_nil _).symm⟩
  | cons conn rest ih =>
    obtain ⟨-, heach, hhistory⟩ := ih (run conn site).2
    rw [mapM_site]
    refine ⟨by rw [mapM_site], congrArg (· + 1) heach, ?_⟩
    rw [hhistory, hrun, List.append_assoc]
    rfl

theorem callAll_eq (run : Nat → Effect W (Except DriverFault Unit)) (hs : List Held)
    (site : Site W) : callAll run hs site =
      ((faults ((hs.map (·.conn)).mapM run site).1).head?,
        ((hs.map (·.conn)).mapM run site).2) := by
  induction hs generalizing site with
  | nil => rfl
  | cons h rest ih =>
    rw [List.map_cons, mapM_site, ← firstFault_eq]
    simp only [callAll, bind_site, ih]
    rfl

variable (d : Driver W)

def release (h : Held) : Effect W (Except DriverFault Unit) := do
  let _ ← h.apply d none
  d.call (.close h.conn)

structure Releases (hs : List Held) (before : Site W) (answers : List (Except DriverFault Unit))
    (after : Site W) : Prop where
  answered : hs.mapM (release d) before = (answers, after)
  each : answers.length = hs.length
  history : ∃ calls, after.history = before.history ++ calls ∧
    calls.filterMap Performed.release? =
      List.zipWith (fun h r => (h.conn, succeeded r)) hs answers

theorem release_history_calls (h : Held) (site : Site W) :
    ∃ calls, (release d h site).2.history = site.history ++ calls ∧
      calls.filterMap Performed.release? = [(h.conn, succeeded (release d h site).1)] := by
  obtain ⟨⟨calls, hcalls, hdeeds⟩, -, -, -⟩ := apply_madeReady d h none site
  -- what puts the level back closes nothing
  have hnone : calls.filterMap Performed.release? = [] := by
    have hclosed : calls.filterMap Performed.closed? = [] := congrArg Deeds.closed hdeeds
    rw [List.filterMap_eq_nil_iff] at hclosed ⊢
    intro p hp
    have hp := hclosed p hp
    obtain ⟨call, succeeded⟩ := p
    cases call <;> first | rfl | cases hp
  have hclose : (release d h site).2.history = (h.apply d none site).2.history ++
      [⟨.close h.conn, succeeded (release d h site).1⟩] := rfl
  refine ⟨calls ++ [⟨.close h.conn, succeeded (release d h site).1⟩], ?_, ?_⟩
  · rw [hclose, hcalls, List.append_assoc]
  · rw [List.filterMap_append, hnone]
    rfl

theorem exists_releases (hs : List Held) (site : Site W) :
    Releases d hs site (hs.mapM (release d) site).1 (hs.mapM (release d) site).2 := by
  induction hs generalizing site with
  | nil => exact ⟨rfl, rfl, [], (List.append_nil _).symm, rfl⟩
  | cons h rest ih =>
    obtain ⟨-, heach, more, hmore, hlater⟩ := ih (release d h site).2
    obtain ⟨calls, hcalls, hfirst⟩ := release_history_calls d h site
    rw [mapM_site]
    refine ⟨by rw [mapM_site], congrArg (· + 1) heach, calls ++ more, ?_, ?_⟩
    · rw [hmore, hcalls, List.append_assoc]
    · rw [List.filterMap_append, hfirst, hlater]
      rfl

theorem releaseAll_eq (hs : List Held) (site : Site W) :
    releaseAll d hs site = (faults (hs.mapM (release d) site).1, (hs.mapM (release d) site).2) := by
  induction hs generalizing site with
  | nil => rfl
  | cons h rest ih =>
    obtain ⟨group, conn, saved⟩ := h
    obtain ⟨-, hconn, -, -⟩ := apply_madeReady d ⟨group, conn, saved⟩ none site
    rw [mapM_site, faults_cons]
    simp only [releaseAll, release, bind_site, ih]
    generalize Held.apply d ⟨group, conn, saved⟩ none site = out at hconn ⊢
    obtain ⟨⟨r, restored⟩, mid⟩ := out
    obtain rfl : restored.conn = conn := hconn
    rfl

theorem did_unique {before after : Site W} {first second : Deeds} (h : before.Did after first)
    (h' : before.Did after second) : first = second := by
  obtain ⟨calls, hcalls, rfl⟩ := h
  obtain ⟨more, hmore, rfl⟩ := h'
  rw [List.append_cancel_left (hcalls.symm.trans hmore)]

namespace Connections

variable {d} {start site : Site W} {cs : Connections} {deeds : Deeds}

/-- The connections that are held are among those opened, and in the order of their opening. -/
def InOrder (start : Site W) (cs : Connections) (site : Site W) : Prop :=
  ∃ deeds, start.Did site deeds ∧ deeds.opened.Nodup ∧ cs.conns.Sublist deeds.opened

theorem inOrder_of_did {site' : Site W} {cs' : Connections} {more : Deeds}
    (h : InOrder start cs site) (hdid : site.Did site' more)
    (hconns : cs'.conns.Sublist (cs.conns ++ more.opened)) {all : Deeds}
    (hall : start.Did site' all) (honce : all.opened.Nodup) : InOrder start cs' site' := by
  obtain ⟨deeds, hdeeds, -, horder⟩ := h
  have heq : all = deeds.append more := did_unique hall (Site.did_trans hdeeds hdid)
  refine ⟨all, hall, honce, hconns.trans ?_⟩
  rw [heq]
  exact horder.append (List.Sublist.refl more.opened)

theorem connected_inOrder {after : Connections} {site' : Site W} (horder : InOrder start cs site)
    {g : PhysicalGroup} {r : Except Fault Nat} (hc : cs.Connected g site ((r, after), site'))
    (hall : Accounted start after site' deeds) : InOrder start after site' := by
  cases r with
  | error e =>
    obtain ⟨rfl, hdid | ⟨hdid, -⟩⟩ := hc
    · exact inOrder_of_did horder hdid (List.sublist_append_left _ _) hall.did hall.once
    · exact inOrder_of_did horder hdid (List.sublist_append_left _ _) hall.did hall.once
  | ok conn =>
    rcases hc with ⟨rfl, rfl, -⟩ | ⟨-, -, -, hdid, held, -, hconn, rfl⟩
    · exact horder
    · refine inOrder_of_did horder hdid ?_ hall.did hall.once
      simp [conns, hconn]

theorem keeps_inOrder {after : Connections} {site' : Site W} (horder : InOrder start cs site)
    (hdid : site.Did site' {}) (hkeeps : cs.Keeps after)
    (hall : Accounted start after site' deeds) : InOrder start after site' := by
  refine inOrder_of_did horder hdid ?_ hall.did hall.once
  rw [conns, hkeeps.conns]
  exact List.sublist_append_left _ _

theorem released_inOrder {after : Connections} {site' : Site W} {more : Deeds}
    (horder : InOrder start cs site) (hdid : site.Did site' more) (hheld : after.held = [])
    (hall : Accounted start after site' deeds) : InOrder start after site' := by
  refine inOrder_of_did horder hdid ?_ hall.did hall.once
  rw [conns, hheld]
  exact List.nil_sublist _

theorem step_inOrder (h : Accounted start cs site deeds) (horder : InOrder start cs site)
    (op : Op W) : InOrder start (cs.step d site op).1 (cs.step d site op).2 := by
  obtain ⟨all, hall⟩ := step_accounted d h op
  have hdue := step_due d h.released site op
  cases op with
  | connect g => exact connected_inOrder horder hdue hall
  | close | drop => exact released_inOrder horder hdue.1 hdue.2.1 hall
  | _ => exact keeps_inOrder horder hdue.1 hdue.2 hall

theorem run_inOrder (h : Accounted start cs site deeds) (horder : InOrder start cs site)
    (ops : List (Op W)) : InOrder start (cs.run d site ops).1 (cs.run d site ops).2 := by
  induction ops generalizing cs site deeds with
  | nil => exact horder
  | cons op ops ih =>
    obtain ⟨deeds', h'⟩ := step_accounted d h op
    exact ih h' (step_inOrder h horder op)

theorem new_inOrder (access : Access) (start : Site W) : InOrder start (.new access) start :=
  ⟨{}, start.did_refl, .nil, .slnil⟩

end Connections

end

inductive Ending where
  | commit | rollback

namespace Ending

variable {W : Type}

def call : Ending → Nat → Call
  | commit => .commit
  | rollback => .rollback

def on (d : Driver W) : Ending → Nat → Effect W (Except DriverFault Unit)
  | commit, conn => d.call (.commit conn)
  | rollback, conn => d.call (.rollback conn)

def all (d : Driver W) (cs : Connections) : Ending → Effect W (Except DriverFault Unit)
  | commit => cs.commit d
  | rollback => cs.rollback d

def act (d : Driver W) : Ending → Action W Unit
  | commit => Session.commit d
  | rollback => Session.rollback d

theorem on_history (d : Driver W) (ending : Ending) (conn : Nat) (site : Site W) :
    (ending.on d conn site).2.history =
      site.history ++ [⟨ending.call conn, succeeded (ending.on d conn site).1⟩] := by
  cases ending with
  | commit => rfl
  | rollback => rfl

theorem all_eq (d : Driver W) (ending : Ending) (cs : Connections) (site : Site W) :
    ending.all d cs site = (resultOf (faults (cs.conns.mapM (ending.on d) site).1).head?,
      (cs.conns.mapM (ending.on d) site).2) := by
  have hcalls : ending.all d cs site = (resultOf (callAll (ending.on d) cs.held site).1,
      (callAll (ending.on d) cs.held site).2) := by
    cases ending with
    | commit => rfl
    | rollback => rfl
  rw [hcalls, callAll_eq]
  rfl

theorem act_eq (d : Driver W) (ending : Ending) (session : Session) (site : Site W) :
    (ending.act d).run (session, site) =
      (Session.fault (ending.all d session.connections site).1,
        (session, (ending.all d session.connections site).2)) := by
  cases ending with
  | commit => rfl
  | rollback => rfl

end Ending

namespace Connections

variable {W : Type}

theorem close_eq (d : Driver W) {cs : Connections} (h : cs.closed = true → cs.held = [])
    (site : Site W) : ∃ closed, cs.close d site =
      ((faults (cs.held.mapM (release d) site).1, closed), (cs.held.mapM (release d) site).2) ∧
        closed.held = [] ∧ closed.closed = true := by
  cases hclosed : cs.closed with
  | true =>
    refine ⟨cs, ?_, h hclosed, hclosed⟩
    rw [close_eq_of_closed d hclosed, h hclosed]
    rfl
  | false =>
    refine ⟨{ cs with held := [], stack := [], current := none, closed := true }, ?_, rfl, rfl⟩
    rw [close, hclosed, if_neg Bool.false_ne_true, bind_site, releaseAll_eq]
    rfl

/-- After every run the connections that are held are among those opened, in that order, and each
is reached whatever fails: commit and rollback make their one call on each, in order, keep them all
and tell success exactly if all succeeded, or else the fault of the first that did not; closing
closes each, in order, and tells the faults of all that failed, and a session's close the first of
them. -/
theorem run_attempts_each (d : Driver W) (access : Access) (condition? : Option TableCondition)
    (start : Site W) (ops : List (Op W)) :
    let (cs, site) := run d (.new access) start ops
    InOrder start cs site ∧
    (∀ ending : Ending, ∃ answers after r,
      Reaches ending.call (ending.on d) cs.conns site answers after ∧ Tells answers r ∧
      ending.all d cs site = (r, after) ∧
      (ending.act d).run (⟨cs, condition?⟩, site) =
        (Session.fault r, (⟨cs, condition?⟩, after)) ∧
      ∀ h ∈ cs.held, ∀ g : PhysicalGroup, g.name = h.group →
        cs.connect d g after = ((.ok h.conn, cs), after)) ∧
    ∃ answers after closed r, Releases d cs.held site answers after ∧ Tells answers r ∧
      cs.close d site = ((faults answers, closed), after) ∧
      closed.held = [] ∧ closed.closed = true ∧
      Manager.close d ⟨cs, condition?⟩ site = (r, after) := by
  have hstart := new_accounted access start
  obtain ⟨deeds, h⟩ := run_accounted d hstart ops
  have horder := run_inOrder (d := d) hstart (new_inOrder access start) ops
  generalize run d (.new access) start ops = state at h horder
  obtain ⟨cs, site⟩ := state
  refine ⟨horder, fun ending => ?_, ?_⟩
  · have hall := ending.all_eq d cs site
    have hreaches := exists_reaches (ending.on_history d) cs.conns site
    refine ⟨_, _, _, hreaches, tells_first _, hall, ?_, ?_⟩
    · rw [ending.act_eq d, hall]
    · intro held hmem g hg
      have hopen : cs.closed = false := by
        rw [← Bool.not_eq_true]
        intro hclosed
        rw [h.released hclosed] at hmem
        cases hmem
      exact connect_of_mem d hopen h.distinct hmem hg _
  · obtain ⟨closed, hclose, hheld, hclosed⟩ := close_eq d h.released site
    have hreleases := exists_releases d cs.held site
    refine ⟨_, _, closed, _, hreleases, tells_first _, hclose, hheld, hclosed, ?_⟩
    rw [Manager.close, bind_site, hclose]
    rfl

/-- The second of three is committed although the first fails, and so does the third. -/
example :
    let group (name : String) : PhysicalGroup := ⟨name, name, none⟩
    let world : Recorder := (({} : Recorder).fail "commit" "a").fail "commit" "c"
    let state := run Recorder.driver (.new (.write false)) { world := world }
      [.connect (group "a"), .connect (group "b"), .connect (group "c")]
    let ended := state.1.commit Recorder.driver state.2
    ended.1 = .error { message := "commit failed on a" } ∧
      ended.2.history.drop state.2.history.length =
        state.1.conns.zipWith (fun conn committed => ⟨.commit conn, committed⟩)
          [false, true, false] := by
  decide

end Connections

end DataAccess
