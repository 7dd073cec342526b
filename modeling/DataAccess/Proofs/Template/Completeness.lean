import DataAccess.Magazine
import DataAccess.Proofs.Session.Routing
import DataAccess.Proofs.Template.Binding
import DataAccess.Proofs.Template.Names

/-!
# Parameters that are complete

Binding a bean binds every parameter of the text, and a value that is bound is not lost, so
whatever the guards switch on finds its values and only the name of a table can be at fault.
-/

set_option autoImplicit false

namespace DataAccess

namespace Template

section
variable {β : Type} [Bean β]

def paramPair (t : Template) (bean : β) (param : String) : String × Value :=
  (param, (Bean.value? bean (t.propOf param)).getD .null)

def varPair? (t : Template) (bean : β) (var : String) : Option (String × Value) :=
  if var ∈ t.body.paramNames then none
  else (Bean.value? bean (t.propOf var)).map fun v => (var, v)

theorem bindParams_eq (t : Template) (bean : β) (b : BoundTemplate) (params : List String) :
    t.bindParams bean b params = b.bindAll (params.map (t.paramPair bean)) := by
  induction params generalizing b with
  | nil => rfl
  | cons param rest ih => exact bind_congr ih

theorem bindVars_eq (t : Template) (bean : β) (b : BoundTemplate) (vars : List String) :
    t.bindVars bean b vars = b.bindAll (vars.filterMap (t.varPair? bean)) := by
  induction vars generalizing b with
  | nil => rfl
  | cons var rest ih =>
    rw [bindVars, List.filterMap_cons, varPair?]
    split
    · exact ih b
    · cases Bean.value? bean (t.propOf var) with
      | none => exact ih b
      | some v => exact bind_congr fun mid => ih mid

theorem bindBean_complete {t : Template} {bean : β} {b : BoundTemplate}
    (h : t.bindBean bean = .ok b) :
    b.template = t ∧ ∀ name ∈ t.body.paramNames, b.values.contains name = true := by
  obtain ⟨mid, hparams, hvars⟩ := bind_eq_ok.mp h
  rw [bindParams_eq] at hparams
  rw [bindVars_eq] at hvars
  constructor
  · rw [BoundTemplate.bindAll_fields hvars, BoundTemplate.bindAll_fields hparams]
    rfl
  · intro name hname
    have hnames : (t.params.map (t.paramPair bean)).map Prod.fst = t.params := by
      rw [List.map_map]
      exact List.map_id _
    have hlisted : name ∈ (t.params.map (t.paramPair bean)).map Prod.fst := by
      rw [hnames]
      exact mem_firstOccurrences.mpr hname
    exact BoundTemplate.contains_of_bindAll hvars
      (BoundTemplate.bindAll_contains hparams hname hlisted)

end

end Template

theorem Table.realName_fault {t : Table} {condition : Option TableCondition} {e : Fault}
    (h : t.realName condition = .error e) (name : String) : e ≠ .parameterNotBound name := by
  unfold realName at h
  split at h
  · unfold suffixed at h
    split at h
    · cases h
      exact Fault.noConfusion
    · cases h
      exact Fault.noConfusion
    · split at h
      · cases h
      · cases h
        exact Fault.noConfusion
  · cases h

namespace Block

/-- The fault is that of a table among the parts that are switched on. -/
def TableFault (values : Dict Value) (condition : Option TableCondition) (b : Block) (e : Fault) :
    Prop :=
  ∃ m, Part.table m ∈ b.parts values ∧ m.table.realName condition = .error e

theorem TableFault.ne_notBound {values : Dict Value} {condition : Option TableCondition}
    {b : Block} {e : Fault} (h : b.TableFault values condition e) (name : String) :
    e ≠ .parameterNotBound name := by
  obtain ⟨m, -, he⟩ := h
  exact Table.realName_fault he name

theorem prepare_complete {flavor : Flavor} {values : Dict Value}
    {condition : Option TableCondition} {b : Block}
    (hbound : ∀ name ∈ b.paramNames, values.contains name = true) {out : Prepared} {e : Fault}
    (h : b.prepare flavor values condition out = .error e) : b.TableFault values condition e := by
  induction b generalizing out with
  | done => cases h
  | text s next ih =>
    obtain ⟨m, hm, he⟩ := ih hbound h
    exact ⟨m, List.mem_cons_of_mem _ hm, he⟩
  | table m next ih =>
    rw [prepare] at h
    cases hname : m.table.realName condition with
    | error e' =>
      rw [hname] at h
      cases h
      exact ⟨m, List.mem_cons_self, hname⟩
    | ok name =>
      rw [hname] at h
      obtain ⟨m', hm', he⟩ := ih hbound h
      exact ⟨m', List.mem_cons_of_mem _ hm', he⟩
  | param name next ih =>
    rw [paramNames, List.forall_mem_cons] at hbound
    obtain ⟨v, hv⟩ := Option.isSome_iff_exists.mp hbound.1
    rw [prepare, hv] at h
    obtain ⟨m, hm, he⟩ := ih hbound.2 h
    exact ⟨m, List.mem_cons_of_mem _ hm, he⟩
  | guarded guard body next ihb ihn =>
    rw [paramNames, List.forall_mem_append] at hbound
    rw [prepare_guarded] at h
    rw [TableFault, parts]
    split at h
    · next hon =>
      rw [if_pos hon]
      cases hbody : body.prepare flavor values condition out with
      | error e' =>
        rw [hbody] at h
        cases h
        obtain ⟨m, hm, he⟩ := ihb hbound.1 hbody
        exact ⟨m, List.mem_append_left _ hm, he⟩
      | ok mid =>
        rw [hbody] at h
        obtain ⟨m, hm, he⟩ := ihn hbound.2 h
        exact ⟨m, List.mem_append_right _ hm, he⟩
    · next hoff =>
      rw [if_neg hoff]
      exact ihn hbound.2 h

end Block

namespace Template

/-- The parameters of a template, whatever is declared of them, are the names of its text, once
each and in the order in which they stand first. Where a bean is bound, preparing can fail for the
name of a table that is switched on and for nothing else, whatever is bound behind the bean. -/
theorem params_complete {registry : Registry} {owner : Mapping} {text : String} {t : Template}
    {tokens : List Token} (ht : Template.compile registry owner text = .ok t)
    (htokens : Token.Splits text.toList tokens) {declared : Template}
    (hbody : declared.body = t.body) :
    let names := tokens.filterMap Token.param?
    declared.params.Nodup ∧ (∀ name, name ∈ declared.params ↔ name ∈ names) ∧
      declared.params.Pairwise (fun a b => names.idxOf a < names.idxOf b) ∧
      ∀ (β : Type) [Bean β] (bean : β) (b : BoundTemplate), declared.bindBean bean = .ok b →
        ∀ pairs later, b.bindAll pairs = .ok later → ∀ own default,
          let sent : BoundTemplate := { later with condition? := own }
          (∃ prepared, sent.prepare default = .ok prepared) ∨
            ∃ e, sent.prepare default = .error e ∧
              declared.body.TableFault later.values (own.or default) e ∧
              ∀ name, e ≠ .parameterNotBound name := by
  intro names
  obtain ⟨-, hofText⟩ := compile_eq_ok ht
  have hnames : declared.body.paramNames = names := by
    rw [hbody, Block.paramNames_of_ofText hofText, Token.scan_of_splits htokens]
  have hparams : declared.params = firstOccurrences names := congrArg firstOccurrences hnames
  rw [hparams]
  refine ⟨firstOccurrences_nodup names, fun _ => mem_firstOccurrences,
    firstOccurrences_pairwise names, ?_⟩
  intro β _ bean b hb pairs later hlater own default sent
  obtain ⟨htemplate, hbound⟩ := bindBean_complete hb
  have hlaterBound : ∀ name ∈ declared.body.paramNames, later.values.contains name = true :=
    fun name hname => BoundTemplate.contains_of_bindAll hlater (hbound name hname)
  have hbodyLater : later.template.body = declared.body := by
    rw [BoundTemplate.bindAll_fields hlater, htemplate]
  cases hprepare : sent.prepare default with
  | ok prepared => exact .inl ⟨prepared, rfl⟩
  | error e =>
    have hfault : declared.body.TableFault later.values (own.or default) e := by
      rw [BoundTemplate.prepare, hbodyLater] at hprepare
      exact Block.prepare_complete hlaterBound hprepare
    exact .inr ⟨e, rfl, hfault, hfault.ne_notBound⟩

/-- One parameter stands in two directives, and a table without its suffix is switched on. -/
theorem params_complete_nested :
    let registry : Registry := Dict.ofList [("comment", Magazine.comment .mySQL)]
    let owner := Magazine.article .mySQL
    let text := "#if(on) :b #notEmpty(a) @@comment :a #end :b #end :c :a"
    let bean : Record := Dict.ofList [("on", .bool true), ("a", .text "7")]
    ∃ t b e, Template.compile registry owner text = .ok t ∧ t.params = ["b", "a", "c"] ∧
      t.params.Nodup ∧ (t.withParamType "a" .int).bindBean bean = .ok b ∧
      b.prepare none = .error e ∧ ∀ name, e ≠ .parameterNotBound name := by
  intro registry owner text bean
  obtain ⟨t, ht⟩ : ∃ t, Template.compile registry owner text = .ok t :=
    exists_of_isOk (by decide +kernel)
  have hparams : (Template.compile registry owner text).map params = .ok ["b", "a", "c"] := by
    decide +kernel
  have hbean : (Template.compile registry owner text >>= fun t =>
      (t.withParamType "a" .int).bindBean bean).isOk = true := by decide +kernel
  have hfault : (Template.compile registry owner text >>= fun t =>
      (t.withParamType "a" .int).bindBean bean >>= fun b => b.prepare none).isOk = false := by
    decide +kernel
  rw [ht] at hparams hbean hfault
  obtain ⟨b, hb⟩ : ∃ b, (t.withParamType "a" .int).bindBean bean = .ok b := exists_of_isOk hbean
  have hunprepared : (b.prepare none).isOk = false := by
    change ((t.withParamType "a" .int).bindBean bean >>= fun b => b.prepare none).isOk = false
      at hfault
    rwa [hb] at hfault
  obtain ⟨hnodup, -, -, hprepared⟩ := params_complete ht (Token.splits_scan text.toList)
    (show (t.withParamType "a" .int).body = t.body from rfl)
  refine ⟨t, b, ?_⟩
  rcases hprepared Record bean b hb [] b rfl b.condition? none with ⟨p, hp⟩ | ⟨e, he, -, hno⟩
  · have hok : b.prepare none = .ok p := hp
    rw [hok] at hunprepared
    cases hunprepared
  · exact ⟨e, ht, Except.ok.inj hparams, hnodup, hb, he, hno⟩

end Template

end DataAccess
