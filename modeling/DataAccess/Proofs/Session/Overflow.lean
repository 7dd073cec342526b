import DataAccess.Proofs.Session.Versions

/-!
# The greatest version

The version of a bean is stepped in 64-bit arithmetic, behind the update that has changed the row.
Any version below the greatest integer has a next one. The greatest has none, whatever kind of
value it was read from: there the program stops, and the row is a version ahead of the bean.
-/

set_option autoImplicit false

namespace DataAccess

namespace Value

/-- The integer that a value stands for, if it is a version. -/
inductive Counts : Value → Int → Prop
  | int (v : Int64) : Counts (.int v) v.toInt
  | uint (u : UInt64) : Counts (.uint u) u.toNat
  | bool (b : Bool) : Counts (.bool b) (if b then 1 else 0)
  | text {s : String} {numeral : List Char} {v : Int64} (htrim : Text.TrimsTo s.toList numeral)
      (h : Text.readInt? numeral = some v) : Counts (.text s) v.toInt

theorem counts_unique {w : Value} {n n' : Int} (h : w.Counts n) (h' : w.Counts n') : n = n' := by
  cases h with
  | text htrim hread =>
    cases h' with
    | text htrim' hread' =>
      obtain rfl := (Text.trimsTo_iff.mp htrim).symm.trans (Text.trimsTo_iff.mp htrim')
      rw [Option.some.inj (hread.symm.trans hread')]
  | _ =>
    cases h'
    rfl

theorem le_of_counts {w : Value} {n : Int} (h : w.Counts n) : -0x8000000000000000 ≤ n := by
  cases h with
  | int v => exact Int64.le_toInt v
  | uint u => omega
  | bool b => cases b <;> decide
  | text => exact Int64.le_toInt _

theorem toInt?_eq_some_iff {w : Value} {v : Int64} : w.toInt? = some v ↔ w.Counts v.toInt := by
  constructor
  · intro h
    cases w with
    | int v' =>
      cases h
      exact .int v
    | uint u =>
      rw [Text.toInt_of_signed? h]
      exact .uint u
    | bool b =>
      cases h
      have hbool : (if b then (1 : Int64) else 0).toInt = if b then 1 else 0 := by
        cases b <;> rfl
      rw [hbool]
      exact .bool b
    | text s => exact .text (Text.trimsTo_trim _) h
    | _ => cases h
  · intro h
    generalize hn : v.toInt = n at h
    cases h with
    | int v' => rw [toInt?, Int64.toInt_inj.mp hn]
    | uint u =>
      have hlow := Int64.le_toInt v
      have hhigh := Int64.toInt_lt v
      rw [toInt?, Text.signed?, ← hn, if_pos (by omega), Int64.ofInt_toInt]
    | bool b =>
      have hbool : v.toInt = (if b then (1 : Int64) else 0).toInt := by
        rw [hn]
        cases b <;> rfl
      rw [toInt?, Int64.toInt_inj.mp hbool]
    | text htrim hread => rw [toInt?, Text.trimsTo_iff.mp htrim, hread, Int64.toInt_inj.mp hn]

theorem toInt?_eq_none_iff {w : Value} : w.toInt? = none ↔ ∀ n, w.Counts n → 0x8000000000000000 ≤ n := by
  constructor
  · intro h n hcounts
    refine Int.not_lt.mp fun hlt => ?_
    have hn : (Int64.ofInt n).toInt = n := Int64.toInt_ofInt_of_le (le_of_counts hcounts) hlt
    rw [← hn, ← toInt?_eq_some_iff, h] at hcounts
    cases hcounts
  · intro h
    cases hread : w.toInt? with
    | none => rfl
    | some v =>
      have hlarge := h _ (toInt?_eq_some_iff.mp hread)
      have hhigh := Int64.toInt_lt v
      omega

end Value

namespace Session

section
variable {β : Type} [Bean β]

/-- The bean has a version that counts an integer, and `next` is one more. -/
structure Steps (m : Mapping) (bean : β) (version : Column) (next : Int64) : Prop where
  column : m.table.version? = some version
  counted : ∃ w v, Bean.value? bean version.prop = some w ∧ w.Counts v ∧ next.toInt = v + 1

/-- The bean's version counts the greatest 64-bit integer. -/
def AtGreatest (m : Mapping) (bean : β) : Prop :=
  ∃ version w, m.table.version? = some version ∧ Bean.value? bean version.prop = some w ∧
    w.Counts 0x7fffffffffffffff

/-- What becomes of a bean whose update has changed `rows` rows. -/
inductive Stepped (m : Mapping) (bean : β) (rows : Nat) : Option (Written β Nat) → Prop
  | kept (h : rows = 1 → ∀ version ∈ m.table.version?,
      ∀ w ∈ Bean.value? bean version.prop, ∀ v, w.Counts v → 0x8000000000000000 ≤ v) :
    Stepped m bean rows (some ⟨.ok rows, bean⟩)
  | set {version : Column} {next : Int64} {bean' : β} (hrows : rows = 1)
      (h : Steps m bean version next)
      (hset : Bean.setValue bean version.prop (.int next) = .ok bean') :
    Stepped m bean rows (some ⟨.ok rows, bean'⟩)
  | refused {version : Column} {next : Int64} {e : Fault} (hrows : rows = 1)
      (h : Steps m bean version next)
      (hset : Bean.setValue bean version.prop (.int next) = .error e) :
    Stepped m bean rows (some ⟨.error e, bean⟩)
  | stopped (hrows : rows = 1) (h : AtGreatest m bean) : Stepped m bean rows none

theorem signed?_succ (v : Int64) :
    (v.toInt = 0x7fffffffffffffff ∧ Text.signed? (v.toInt + 1) = none) ∨
      ∃ next, Text.signed? (v.toInt + 1) = some next := by
  have hlow := Int64.le_toInt v
  have hhigh := Int64.toInt_lt v
  rw [Text.signed?]
  split
  · exact .inr ⟨_, rfl⟩
  · exact .inl ⟨by omega, rfl⟩

theorem nextVersion_cases (m : Mapping) (bean : β) :
    (nextVersion m bean = some [] ∧ ∀ version ∈ m.table.version?,
      ∀ w ∈ Bean.value? bean version.prop, ∀ v, w.Counts v → 0x8000000000000000 ≤ v) ∨
    (∃ version next, Steps m bean version next ∧
      nextVersion m bean = some [(version.prop, .int next)]) ∨
    (AtGreatest m bean ∧ nextVersion m bean = none) := by
  rw [nextVersion]
  cases hversion : m.table.version? with
  | none =>
    refine .inl ⟨rfl, fun version h => ?_⟩
    cases h
  | some version =>
    dsimp only
    cases hread : (Bean.value? bean version.prop).bind Value.toInt? with
    | none =>
      refine .inl ⟨rfl, fun version' h w hw => ?_⟩
      cases h
      exact Value.toInt?_eq_none_iff.mp (Option.bind_eq_none_iff.mp hread w hw)
    | some v =>
      obtain ⟨w, hheld, hw⟩ := Option.bind_eq_some_iff.mp hread
      have hcounts := Value.toInt?_eq_some_iff.mp hw
      rcases signed?_succ v with ⟨hgreatest, hnext⟩ | ⟨next, hnext⟩ <;> dsimp only <;> rw [hnext]
      · exact .inr (.inr ⟨⟨version, w, hversion, hheld, hgreatest ▸ hcounts⟩, rfl⟩)
      · exact .inr (.inl ⟨version, next,
          ⟨hversion, w, v.toInt, hheld, hcounts, Text.toInt_of_signed? hnext⟩, rfl⟩)

theorem writing_stepped (m : Mapping) (bean : β) (rows : Nat) :
    Stepped m bean rows ((if rows = 1 then nextVersion m bean else some []).map fun values =>
      writing bean values rows) := by
  by_cases hrows : rows = 1
  · rw [if_pos hrows]
    rcases nextVersion_cases m bean with
      ⟨hnone, hunread⟩ | ⟨version, next, hsteps, hnext⟩ | ⟨hgreatest, hnext⟩
    · rw [hnone]
      exact .kept fun _ => hunread
    · rw [hnext, Option.map_some, writing, setAll]
      cases hset : Bean.setValue bean version.prop (.int next) with
      | error e => exact .refused hrows hsteps hset
      | ok bean' => exact .set hrows hsteps hset
    · rw [hnext]
      exact .stopped hrows hgreatest
  · rw [if_neg hrows]
    exact .kept fun h => absurd h hrows

theorem not_steps_of_atGreatest {m : Mapping} {bean : β} (h : AtGreatest m bean) {version : Column}
    {next : Int64} : ¬ Steps m bean version next := by
  rintro ⟨hcolumn, w, v, hheld, hcounts, hnext⟩
  obtain ⟨version', w', hcolumn', hheld', hgreatest⟩ := h
  obtain rfl := Option.some.inj (hcolumn.symm.trans hcolumn')
  obtain rfl := Option.some.inj (hheld.symm.trans hheld')
  have hv := Value.counts_unique hcounts hgreatest
  have hhigh := Int64.toInt_lt next
  omega

theorem stepped_none_iff {m : Mapping} {bean : β} {rows : Nat} {out : Option (Written β Nat)}
    (h : Stepped m bean rows out) : out = none ↔ rows = 1 ∧ AtGreatest m bean := by
  refine ⟨fun hnone => ?_, fun ⟨hrows, hgreatest⟩ => ?_⟩
  · subst hnone
    cases h with
    | stopped hrows hgreatest => exact ⟨hrows, hgreatest⟩
  · cases h with
    | kept hunread =>
      obtain ⟨version, w, hversion, hheld, hcounts⟩ := hgreatest
      have hlarge := hunread hrows version hversion w hheld _ hcounts
      omega
    | set _ hsteps => exact absurd hsteps (not_steps_of_atGreatest hgreatest)
    | refused _ hsteps => exact absurd hsteps (not_steps_of_atGreatest hgreatest)
    | stopped => rfl

/-- The update has changed the rows with the last call of all, and then the version is stepped.
That is one more than it was, and a version that counts no 64-bit integer stays. Exactly at
the greatest one the step overflows, and the update that has changed the row has no outcome. -/
theorem updateBean_stepped {W : Type} (d : Driver W) {env : Environment} {business : String}
    {bean : β} {m : Mapping} {rows : Nat} {state after : Session × Site W}
    (h : (updated d env business bean).run state = (.ok (m, rows), after)) :
    let out := updateBean d env business bean state
    out.2 = after ∧ (∃ conn s, after.2.history.getLast? = some ⟨.update conn s, true⟩) ∧
      Stepped m bean rows out.1 ∧ (out.1 = none ↔ rows = 1 ∧ AtGreatest m bean) := by
  obtain ⟨-, statements, t, b, -, -, -, hrows⟩ := updated_ok h
  obtain ⟨g, s, -, hupdate⟩ := updateRows_ok hrows
  obtain ⟨conn, -, hlast⟩ := update_last d hupdate
  dsimp only
  rw [updateBean, thenWrite_eq, h]
  have hstepped := writing_stepped m bean rows
  exact ⟨rfl, ⟨conn, s, hlast⟩, hstepped, stepped_none_iff hstepped⟩

end

def lilyAt (version : Value) : Record :=
  Dict.ofList [("id", .int 1), ("userName", .text "lily"), ("version", version)]

def updateLilyAt (version : Value) : Option (Written Record Nat) × Session × Site Recorder :=
  updateBean Recorder.driver (environmentOf (versionedUser true)) "user" (lilyAt version)
    (⟨Connections.new (.write true), none⟩, { world := {} })

/-- The last version that can be stepped, as text. -/
theorem updateBean_stepped_last :
    let w := Value.text " 9223372036854775806"
    w.Counts 0x7ffffffffffffffe ∧
      (updateLilyAt w).1.bind (·.bean.get? "version") = some (.int Int64.maxValue) := by
  intro w
  have hcounts : w.Counts 0x7ffffffffffffffe :=
    Value.toInt?_eq_some_iff.mp (show w.toInt? = some (Int64.maxValue - 1) by decide +kernel)
  have hversion : (versionedUser true).table.version? =
      some (Magazine.column .mySQL "version" "version" .int) := by decide +kernel
  have hheld : Bean.value? (lilyAt w) "version" = some w := by decide +kernel
  have hran : (updateLilyAt (.text " 9223372036854775806")).1.map (·.result) = some (.ok 1) := by
    decide +kernel
  obtain ⟨written, hwritten, hone⟩ := Option.map_eq_some_iff.mp hran
  obtain ⟨m, after, _, hrun, -, -, -, -⟩ := updateBean_ok hwritten hone
  obtain rfl : m = versionedUser true :=
    Except.ok.inj ((updated_ok hrun).1.symm.trans (by decide +kernel))
  have hstepped : Stepped (versionedUser true) (lilyAt w) 1 (updateLilyAt w).1 :=
    (updateBean_stepped Recorder.driver hrun).2.2.1
  refine ⟨hcounts, ?_⟩
  change (updateLilyAt w).1 = some written at hwritten
  generalize (updateLilyAt w).1 = out at hstepped hwritten ⊢
  cases hstepped with
  | kept h => exact absurd (h rfl _ hversion w hheld _ hcounts) (by decide)
  | refused hrows hsteps hset => cases hset
  | stopped => cases hwritten
  | @set version next bean' hrows hsteps hset =>
    obtain rfl := Option.some.inj (hversion.symm.trans hsteps.column)
    obtain ⟨w', v, hheld', hcounts', hnext⟩ := hsteps.counted
    obtain rfl : w = w' := Option.some.inj (hheld.symm.trans hheld')
    obtain rfl := Value.counts_unique hcounts hcounts'
    obtain rfl : next = Int64.maxValue := Int64.toInt_inj.mp hnext
    cases hset
    exact (Dict.get?_insert _ _ _ _).trans (if_pos rfl)

/-- The row of the greatest version is changed, and the step of the version overflows. -/
theorem version_overflows :
    (updateLilyAt (.int Int64.maxValue)).1.isNone ∧
      (updateLilyAt (.int Int64.maxValue)).2.2.history.getLast? = some ⟨.update 0
        ⟨"update TB_USER set userName=?, version = version + 1 where pk=? and version=?",
          [.text "lily", .int 1, .int Int64.maxValue], none⟩, true⟩ := by
  decide +kernel

end Session

end DataAccess
