import DataAccess.Connections

/-!
# The calls of held connections

What each operation on held connections adds to the history: which connections it opens, which
it closes and which statements it runs. Only opening and closing do either, and no operation
runs a statement.
-/

set_option autoImplicit false

namespace DataAccess

namespace Performed

def opened? (p : Performed) : Option Nat :=
  match p.call with
  | .connect conn _ => if p.succeeded then some conn else none
  | _ => none

def closed? (p : Performed) : Option Nat :=
  match p.call with
  | .close conn => some conn
  | _ => none

def statement? (p : Performed) : Option Statement :=
  match p.call with
  | .query _ s => some s
  | .update _ s => some s
  | _ => none

def prepares (conn : Nat) (p : Performed) : Bool :=
  match p.call with
  | .autoCommit c _ => c == conn
  | .isolation c => c == conn
  | .setIsolation c _ => c == conn
  | _ => false

end Performed

/-- What a list of calls opens, closes and runs. -/
structure Deeds where
  opened : List Nat := []
  closed : List Nat := []
  executed : List Statement := []

namespace Deeds

def of (calls : List Performed) : Deeds where
  opened := calls.filterMap Performed.opened?
  closed := calls.filterMap Performed.closed?
  executed := calls.filterMap Performed.statement?

def append (a b : Deeds) : Deeds :=
  ⟨a.opened ++ b.opened, a.closed ++ b.closed, a.executed ++ b.executed⟩

theorem of_append (calls more : List Performed) :
    of (calls ++ more) = (of calls).append (of more) := by
  simp [of, append, List.filterMap_append]

end Deeds

section
variable {W : Type}

def Site.Did (before after : Site W) (deeds : Deeds) : Prop :=
  ∃ calls, after.history = before.history ++ calls ∧ Deeds.of calls = deeds

def Site.FailedToPrepare (before after : Site W) (conn : Nat) : Prop :=
  ∃ calls, after.history = before.history ++ calls ∧
    ∃ p ∈ calls, p.prepares conn = true ∧ p.succeeded = false

namespace Site

theorem did_refl (site : Site W) : site.Did site {} :=
  ⟨[], (List.append_nil _).symm, rfl⟩

theorem did_trans {a b c : Site W} {first second : Deeds} (h : a.Did b first)
    (h' : b.Did c second) : a.Did c (first.append second) := by
  obtain ⟨calls, hcalls, rfl⟩ := h
  obtain ⟨more, hmore, rfl⟩ := h'
  exact ⟨calls ++ more, by rw [hmore, hcalls, List.append_assoc], Deeds.of_append calls more⟩

theorem did_quiet_trans {a b c : Site W} {deeds : Deeds} (h : a.Did b {}) (h' : b.Did c deeds) :
    a.Did c deeds := did_trans h h'

theorem did_trans_quiet {a b c : Site W} {deeds : Deeds} (h : a.Did b deeds) (h' : b.Did c {}) :
    a.Did c deeds := by
  have := did_trans h h'
  simpa [Deeds.append] using this

theorem calls_split {a b c : Site W} {first second : Deeds} {calls : List Performed}
    (h : c.history = a.history ++ calls) (hab : a.Did b first) (hbc : b.Did c second) :
    ∃ front back, calls = front ++ back ∧ b.history = a.history ++ front ∧
      c.history = b.history ++ back := by
  obtain ⟨front, hfront, -⟩ := hab
  obtain ⟨back, hback, -⟩ := hbc
  refine ⟨front, back, ?_, hfront, hback⟩
  apply (List.append_right_inj a.history).mp
  rw [← h, hback, hfront, List.append_assoc]

theorem failed_of_did {a b c : Site W} {deeds : Deeds} {conn : Nat} (h : a.Did b deeds)
    (h' : b.FailedToPrepare c conn) : a.FailedToPrepare c conn := by
  obtain ⟨calls, hcalls, -⟩ := h
  obtain ⟨more, hmore, p, hp, hfailed⟩ := h'
  exact ⟨calls ++ more, by rw [hmore, hcalls, List.append_assoc], p,
    List.mem_append_right calls hp, hfailed⟩

theorem did_of_failed {a b c : Site W} {deeds : Deeds} {conn : Nat}
    (h : a.FailedToPrepare b conn) (h' : b.Did c deeds) : a.FailedToPrepare c conn := by
  obtain ⟨calls, hcalls, p, hp, hfailed⟩ := h
  obtain ⟨more, hmore, -⟩ := h'
  exact ⟨calls ++ more, by rw [hmore, hcalls, List.append_assoc], p,
    List.mem_append_left more hp, hfailed⟩

end Site

theorem bind_site {α β : Type} (x : Effect W α) (f : α → Effect W β) (site : Site W) :
    (x >>= f) site = f (x site).1 (x site).2 := rfl

theorem get_site (site : Site W) : (get : Effect W (Site W)) site = (site, site) := rfl

variable (d : Driver W)

theorem call_did (c : Call) (site : Site W) :
    site.Did (d.call c site).2 (Deeds.of [⟨c, succeeded (d.call c site).1⟩]) :=
  ⟨_, rfl, rfl⟩

theorem call_failed (c : Call) {conn : Nat} (hc : Performed.prepares conn ⟨c, false⟩ = true)
    (site : Site W) (e : DriverFault) (h : (d.call c site).1 = .error e) :
    site.FailedToPrepare (d.call c site).2 conn := by
  refine ⟨[⟨c, succeeded (d.call c site).1⟩], rfl, _, List.mem_singleton_self _, ?_⟩
  rw [h]
  exact ⟨hc, rfl⟩

theorem setIsolation_failed (conn : Nat) (level : Isolation) (site : Site W) (e : DriverFault)
    (h : (d.call (.setIsolation conn level) site).1 = .error e) :
    site.FailedToPrepare (d.call (.setIsolation conn level) site).2 conn :=
  call_failed d (.setIsolation conn level) (beq_self_eq_true conn) site e h

def MadeReady (h : Held) (site : Site W) (out : (Except DriverFault Unit × Held) × Site W) : Prop :=
  site.Did out.2 {} ∧ out.1.2.conn = h.conn ∧ out.1.2.group = h.group ∧
    ∀ e, out.1.1 = .error e → site.FailedToPrepare out.2 h.conn

/-- What applying a level does, by the override and the level that is remembered. The level is
asked for before the first override, and set only if the answer came. -/
theorem apply_cases (h : Held) (level : Option Isolation) (site : Site W) :
    (level = none ∧ h.saved = none ∧ h.apply d level site = ((.ok (), h), site)) ∨
    (∃ saved, level = none ∧ h.saved = some saved ∧
      let restored := d.call (.setIsolation h.conn saved) site
      h.apply d level site = ((restored.1, { h with saved := none }), restored.2)) ∨
    (∃ l, level = some l ∧ h.saved.isSome = true ∧
      let set := d.call (.setIsolation h.conn l) site
      h.apply d level site = ((set.1, h), set.2)) ∨
    (∃ l, level = some l ∧ h.saved = none ∧
      let asked := d.call (.isolation h.conn) site
      (∃ e, asked.1 = .error e ∧ h.apply d level site = ((.error e, h), asked.2)) ∨
      ∃ saved, asked.1 = .ok saved ∧
        let set := d.call (.setIsolation h.conn l) asked.2
        h.apply d level site = ((set.1, { h with saved := some saved }), set.2)) := by
  obtain ⟨group, conn, saved⟩ := h
  cases level with
  | none =>
    cases saved with
    | none => exact .inl ⟨rfl, rfl, rfl⟩
    | some saved => exact .inr (.inl ⟨saved, rfl, rfl, rfl⟩)
  | some l =>
    cases saved with
    | some saved => exact .inr (.inr (.inl ⟨l, rfl, rfl, rfl⟩))
    | none =>
      refine .inr (.inr (.inr ⟨l, rfl, rfl, ?_⟩))
      unfold Held.apply
      rcases hcall : d.call (.isolation conn) site with ⟨r, mid⟩
      simp only [bind_site, hcall]
      cases r with
      | error e => exact .inl ⟨e, rfl, rfl⟩
      | ok saved => exact .inr ⟨saved, rfl, rfl⟩

theorem apply_madeReady (h : Held) (level : Option Isolation) (site : Site W) :
    MadeReady h site (h.apply d level site) := by
  rcases apply_cases d h level site with ⟨-, -, heq⟩ | ⟨saved, -, -, heq⟩ | ⟨l, -, -, heq⟩ |
    ⟨l, -, -, ⟨e, he, heq⟩ | ⟨saved, -, heq⟩⟩
  · rw [heq]
    exact ⟨site.did_refl, rfl, rfl, nofun⟩
  · rw [heq]
    exact ⟨call_did d (.setIsolation h.conn saved) site, rfl, rfl,
      setIsolation_failed d h.conn saved site⟩
  · rw [heq]
    exact ⟨call_did d (.setIsolation h.conn l) site, rfl, rfl,
      setIsolation_failed d h.conn l site⟩
  · rw [heq]
    exact ⟨call_did d (.isolation h.conn) site, rfl, rfl,
      fun _ _ => call_failed d (.isolation h.conn) (beq_self_eq_true h.conn) site e he⟩
  · have hasked : site.Did (d.call (.isolation h.conn) site).2 {} := call_did d _ site
    rw [heq]
    exact ⟨Site.did_quiet_trans hasked (call_did d (.setIsolation h.conn l) _), rfl, rfl,
      fun e he => Site.failed_of_did hasked (setIsolation_failed d h.conn l _ e he)⟩

theorem setAutoCommit_madeReady (cs : Connections) (h : Held) (site : Site W) :
    MadeReady h site (((Connections.setAutoCommit d cs h.conn site).1, h),
      (Connections.setAutoCommit d cs h.conn site).2) := by
  unfold Connections.setAutoCommit
  cases cs.access with
  | write autoCommit =>
    exact ⟨call_did d (.autoCommit h.conn autoCommit) site, rfl, rfl,
      call_failed d (.autoCommit h.conn autoCommit) (beq_self_eq_true h.conn) site⟩
  | _ => exact ⟨site.did_refl, rfl, rfl, nofun⟩

theorem ready_cases (cs : Connections) (h : Held) (site : Site W) :
    let set := Connections.setAutoCommit d cs h.conn site
    (∃ e, set.1 = .error e ∧ Connections.ready d cs h site = ((.error e, h), set.2)) ∨
    (set.1 = .ok () ∧ cs.current = none ∧
      Connections.ready d cs h site = ((.ok (), h), set.2)) ∨
    (set.1 = .ok () ∧ cs.current.isSome = true ∧
      Connections.ready d cs h site = h.apply d cs.current set.2) := by
  unfold Connections.ready
  rcases hcall : Connections.setAutoCommit d cs h.conn site with ⟨r, mid⟩
  simp only [bind_site, hcall]
  cases r with
  | error e => exact .inl ⟨e, rfl, rfl⟩
  | ok _ =>
    cases hcurrent : cs.current with
    | none => exact .inr (.inl ⟨rfl, rfl, rfl⟩)
    | some level => exact .inr (.inr ⟨rfl, rfl, rfl⟩)

theorem ready_madeReady (cs : Connections) (h : Held) (site : Site W) :
    MadeReady h site (Connections.ready d cs h site) := by
  obtain ⟨hset, -, -, hfailed⟩ := setAutoCommit_madeReady d cs h site
  rcases ready_cases d cs h site with ⟨e, he, heq⟩ | ⟨-, -, heq⟩ | ⟨-, -, heq⟩
  · rw [heq]
    exact ⟨hset, rfl, rfl, fun _ _ => hfailed e he⟩
  · rw [heq]
    exact ⟨hset, rfl, rfl, nofun⟩
  · obtain ⟨happly, hconn, hgroup, hlevel⟩ :=
      apply_madeReady d h cs.current (Connections.setAutoCommit d cs h.conn site).2
    rw [heq]
    exact ⟨Site.did_quiet_trans hset happly, hconn, hgroup,
      fun e he => Site.failed_of_did hset (hlevel e he)⟩

def Acquired (g : PhysicalGroup) (site : Site W) : Except Fault Held × Site W → Prop
  | (.error _, after) => site.Did after {} ∨
      (site.Did after { opened := [site.history.length], closed := [site.history.length] } ∧
        site.FailedToPrepare after site.history.length)
  | (.ok h, after) => h.group = g.name ∧ h.conn = site.history.length ∧
      site.Did after { opened := [site.history.length] }

theorem acquire_cases (cs : Connections) (g : PhysicalGroup) (site : Site W) :
    (∃ e, cs.access.pick site g = .error e ∧
      Connections.acquire d cs g site = (.error e, site)) ∨
    ∃ source, cs.access.pick site g = .ok source ∧
      let opening := d.call (.connect site.history.length source) site
      let readied := Connections.ready d cs ⟨g.name, site.history.length, none⟩ opening.2
      (∃ e, opening.1 = .error e ∧
        Connections.acquire d cs g site = (.error (.execution e), opening.2)) ∨
      (opening.1 = .ok () ∧ readied.1.1 = .ok () ∧
        Connections.acquire d cs g site = (.ok readied.1.2, readied.2)) ∨
      (opening.1 = .ok () ∧ ∃ e, readied.1.1 = .error e ∧
        Connections.acquire d cs g site =
          (.error (.execution e), (d.call (.close readied.1.2.conn) readied.2).2)) := by
  unfold Connections.acquire
  simp only [bind_site, get_site]
  cases cs.access.pick site g with
  | error e => exact .inl ⟨e, rfl, rfl⟩
  | ok source =>
    refine .inr ⟨source, rfl, ?_⟩
    rcases hcall : d.call (.connect site.history.length source) site with ⟨r, mid⟩
    simp only [bind_site, hcall]
    cases r with
    | error e => exact .inl ⟨e, rfl, rfl⟩
    | ok _ =>
      simp only [bind_site]
      generalize Connections.ready d cs ⟨g.name, site.history.length, none⟩ mid = out
      obtain ⟨⟨r, held⟩, ready⟩ := out
      cases r with
      | ok _ => exact .inr (.inl ⟨trivial, rfl, rfl⟩)
      | error e => exact .inr (.inr ⟨trivial, e, rfl, rfl⟩)

theorem acquire_did (cs : Connections) (g : PhysicalGroup) (site : Site W) :
    Acquired g site (Connections.acquire d cs g site) := by
  rcases acquire_cases d cs g site with ⟨e, -, heq⟩ | ⟨source, -, hcases⟩
  · rw [heq]
    exact .inl site.did_refl
  have hopen := call_did d (.connect site.history.length source) site
  obtain ⟨hready, hconn, hgroup, hfailed⟩ :=
    ready_madeReady d cs ⟨g.name, site.history.length, none⟩
      (d.call (.connect site.history.length source) site).2
  rcases hcases with ⟨e, he, heq⟩ | ⟨hopened, -, heq⟩ | ⟨hopened, e, he, heq⟩
  · rw [he] at hopen
    rw [heq]
    exact .inl hopen
  · rw [hopened] at hopen
    rw [heq]
    exact ⟨hgroup, hconn, Site.did_trans_quiet hopen hready⟩
  · rw [hopened] at hopen
    rw [heq, hconn]
    generalize Connections.ready d cs _ _ = readied at hready hfailed he ⊢
    have hclose := call_did d (.close site.history.length) readied.2
    exact .inr ⟨Site.did_trans (Site.did_trans_quiet hopen hready) hclose,
      Site.did_of_failed (Site.failed_of_did hopen (hfailed e he)) hclose⟩

/-- What connecting does, by the state it finds. -/
theorem connect_cases (cs : Connections) (g : PhysicalGroup) (site : Site W) :
    (cs.closed = true ∧ ∃ e, cs.connect d g site = ((.error e, cs), site)) ∨
    (cs.closed = false ∧ ∃ h, cs.held.find? (·.group = g.name) = some h ∧
      cs.connect d g site = ((.ok h.conn, cs), site)) ∨
    (cs.closed = false ∧ cs.held.find? (·.group = g.name) = none ∧
      ((∃ e after, Connections.acquire d cs g site = (.error e, after) ∧
        cs.connect d g site = ((.error e, cs), after)) ∨
      ∃ h after, Connections.acquire d cs g site = (.ok h, after) ∧
        cs.connect d g site = ((.ok h.conn, { cs with held := cs.held ++ [h] }), after))) := by
  unfold Connections.connect
  cases hclosed : cs.closed with
  | true => exact .inl ⟨rfl, _, rfl⟩
  | false =>
    simp only [Bool.false_eq_true, if_false]
    cases hfind : cs.held.find? (·.group = g.name) with
    | some h => exact .inr (.inl ⟨trivial, h, rfl, rfl⟩)
    | none =>
      refine .inr (.inr ⟨trivial, rfl, ?_⟩)
      rcases hacquire : Connections.acquire d cs g site with ⟨r, after⟩
      simp only [bind_site, hacquire]
      cases r with
      | error e => exact .inl ⟨e, after, rfl, rfl⟩
      | ok h => exact .inr ⟨h, after, rfl, rfl⟩

namespace Connections

def conns (cs : Connections) : List Nat := cs.held.map (·.conn)

def groups (cs : Connections) : List String := cs.held.map (·.group)

def Connected (cs : Connections) (g : PhysicalGroup) (site : Site W) :
    (Except Fault Nat × Connections) × Site W → Prop
  | ((.ok conn, after), site') =>
    (after = cs ∧ site' = site ∧ ∃ h ∈ cs.held, h.group = g.name ∧ h.conn = conn) ∨
    (cs.closed = false ∧ g.name ∉ cs.groups ∧ conn = site.history.length ∧
      site.Did site' { opened := [conn] } ∧ ∃ h : Held, h.group = g.name ∧ h.conn = conn ∧
        after = { cs with held := cs.held ++ [h] })
  | ((.error _, after), site') =>
    after = cs ∧ (site.Did site' {} ∨
      (site.Did site' { opened := [site.history.length], closed := [site.history.length] } ∧
        site.FailedToPrepare site' site.history.length))

theorem connect_connected (cs : Connections) (g : PhysicalGroup) (site : Site W) :
    cs.Connected g site (cs.connect d g site) := by
  rcases connect_cases d cs g site with
    ⟨-, e, h⟩ | ⟨-, held, hfind, h⟩ |
    ⟨hopen, hfind, ⟨e, after, hacquire, h⟩ | ⟨held, after, hacquire, h⟩⟩
  · rw [h]
    exact ⟨rfl, .inl site.did_refl⟩
  · rw [h]
    have hgroup : held.group = g.name := by simpa using List.find?_some hfind
    exact .inl ⟨rfl, rfl, held, List.mem_of_find?_eq_some hfind, hgroup, rfl⟩
  · have hdid := acquire_did d cs g site
    rw [hacquire] at hdid
    rw [h]
    exact ⟨rfl, hdid⟩
  · have hdid := acquire_did d cs g site
    rw [hacquire] at hdid
    obtain ⟨hgroup, hconn, hdid⟩ := hdid
    have hnew : g.name ∉ cs.groups := by
      intro hmem
      obtain ⟨k, hk, hkg⟩ := List.mem_map.mp hmem
      exact absurd hkg (by simpa using List.find?_eq_none.mp hfind k hk)
    rw [h, hconn]
    exact .inr ⟨hopen, hnew, rfl, hdid, held, hgroup, hconn, rfl⟩

end Connections

theorem applyAll_did (level : Option Isolation) (hs : List Held) (site : Site W) :
    site.Did (applyAll d level hs site).2 {} ∧
      (applyAll d level hs site).1.2.map (·.conn) = hs.map (·.conn) ∧
      (applyAll d level hs site).1.2.map (·.group) = hs.map (·.group) := by
  induction hs generalizing site with
  | nil => exact ⟨site.did_refl, rfl, rfl⟩
  | cons h rest ih =>
    obtain ⟨hfirst, hconn, hgroup, -⟩ := apply_madeReady d h level site
    obtain ⟨hrest, hconns, hgroups⟩ := ih (h.apply d level site).2
    refine ⟨Site.did_quiet_trans hfirst hrest, ?_, ?_⟩
    · rw [List.map_cons, ← hconn, ← hconns]
      rfl
    · rw [List.map_cons, ← hgroup, ← hgroups]
      rfl

theorem callAll_did {run : Nat → Effect W (Except DriverFault Unit)}
    (hrun : ∀ conn (site : Site W), site.Did (run conn site).2 {}) (hs : List Held)
    (site : Site W) : site.Did (callAll run hs site).2 {} := by
  induction hs generalizing site with
  | nil => exact site.did_refl
  | cons h rest ih =>
    simp only [callAll, bind_site]
    exact Site.did_quiet_trans (hrun h.conn site) (ih _)

theorem releaseAll_did (hs : List Held) (site : Site W) :
    site.Did (releaseAll d hs site).2 { closed := hs.map (·.conn) } := by
  induction hs generalizing site with
  | nil => exact site.did_refl
  | cons h rest ih =>
    obtain ⟨hrestored, hconn, -, -⟩ := apply_madeReady d h none site
    simp only [releaseAll, bind_site]
    generalize h.apply d none site = out at hrestored hconn ⊢
    obtain ⟨⟨r, restored⟩, mid⟩ := out
    have hclose : mid.Did (d.call (.close restored.conn) mid).2 { closed := [restored.conn] } :=
      call_did d (.close restored.conn) mid
    rw [List.map_cons, ← hconn]
    exact Site.did_trans (Site.did_quiet_trans hrestored hclose) (ih _)

namespace Connections

theorem commit_did (cs : Connections) (site : Site W) : site.Did (cs.commit d site).2 {} :=
  callAll_did (fun conn site => call_did d (.commit conn) site) cs.held site

theorem rollback_did (cs : Connections) (site : Site W) : site.Did (cs.rollback d site).2 {} :=
  callAll_did (fun conn site => call_did d (.rollback conn) site) cs.held site

structure Keeps (before after : Connections) : Prop where
  conns : after.held.map (·.conn) = before.held.map (·.conn)
  groups : after.held.map (·.group) = before.held.map (·.group)
  closed : after.closed = before.closed

theorem keeps_refl (cs : Connections) : cs.Keeps cs := ⟨rfl, rfl, rfl⟩

theorem applyCurrent_did (cs : Connections) (site : Site W) :
    site.Did (cs.applyCurrent d site).2 {} ∧ cs.Keeps (cs.applyCurrent d site).1.2 := by
  obtain ⟨hdid, hconns, hgroups⟩ := applyAll_did d cs.current cs.held site
  exact ⟨hdid, hconns, hgroups, rfl⟩

theorem setIsolation_did (cs : Connections) (level : Isolation) (site : Site W) :
    site.Did (cs.setIsolation d level site).2 {} ∧ cs.Keeps (cs.setIsolation d level site).1.2 := by
  obtain ⟨hdid, hconns, hgroups, hclosed⟩ :=
    applyCurrent_did d { cs with stack := cs.current :: cs.stack, current := some level } site
  exact ⟨hdid, hconns, hgroups, hclosed⟩

theorem resetTo_did (cs : Connections) (point : Nat) (site : Site W) :
    site.Did (cs.resetTo d point site).2 {} ∧ cs.Keeps (cs.resetTo d point site).1.2 := by
  unfold resetTo
  split
  · exact ⟨site.did_refl, keeps_refl cs⟩
  · cases cs.stack.drop (cs.stack.length - point) with
    | nil => exact ⟨site.did_refl, keeps_refl cs⟩
    | cons previous below =>
      obtain ⟨hdid, hconns, hgroups, hclosed⟩ :=
        applyCurrent_did d { cs with stack := below, current := previous } site
      exact ⟨hdid, hconns, hgroups, hclosed⟩

theorem close_eq_of_closed {cs : Connections} (h : cs.closed = true) (site : Site W) :
    cs.close d site = (([], cs), site) := by
  rw [close, if_pos h]
  rfl

theorem close_did {cs : Connections} (h : cs.closed = false) (site : Site W) :
    site.Did (cs.close d site).2 { closed := cs.held.map (·.conn) } ∧
      (cs.close d site).1.2.held = [] ∧ (cs.close d site).1.2.closed = true := by
  rw [close, h, if_neg Bool.false_ne_true]
  exact ⟨releaseAll_did d cs.held site, rfl, rfl⟩

end Connections

end

end DataAccess
