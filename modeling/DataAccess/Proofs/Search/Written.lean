import DataAccess.Proofs.Parameters.Names
import DataAccess.Proofs.Template.Splitting
import DataAccess.Proofs.Term.Rendering
import DataAccess.Proofs.Trimming

/-!
# The text that terms are written in

Where columns and properties are identifiers, a rendered term is made of characters that begin
no marker, of quoted identifiers and of parameters. The parameters stand in the text in the
order in which their values were added.
-/

set_option autoImplicit false

namespace DataAccess

namespace Text

def isPlain (c : Char) : Bool := !(['\'', '"', ':', '@', '#'].contains c)

theorem isPlain_of_isNamePart {c : Char} (h : isNamePart c = true) : isPlain c = true := by
  have hne (d : Char) (hd : isNamePart d = false) : c ≠ d := by
    rintro rfl
    rw [hd] at h
    cases h
  simp [isPlain, hne '\'' (by decide), hne '"' (by decide), hne ':' (by decide),
    hne '@' (by decide), hne '#' (by decide)]

theorem endsName_append {cs ds : List Char} (hc : EndsName cs) (hd : EndsName ds) :
    EndsName (cs ++ ds) := by
  cases cs with
  | nil => exact hd
  | cons c cs => exact hc

theorem endsName_left {cs ds : List Char} (h : EndsName (cs ++ ds)) : EndsName cs := by
  cases cs with
  | nil => rfl
  | cons c cs => exact h

/-- Text of plain characters, quoted identifiers and parameters, and the names of these. -/
inductive Written : List Char → List String → Prop
  | nil : Written [] []
  | plain {c : Char} {cs : List Char} {names : List String} (hc : isPlain c = true)
      (hcs : Written cs names) : Written (c :: cs) names
  | quoted {name cs : List Char} {names : List String} (hname : isName name = true)
      (hcs : Written cs names) : Written ('"' :: (name ++ '"' :: cs)) names
  | param {name : String} {cs : List Char} {names : List String}
      (hname : isName name.toList = true) (hend : EndsName cs) (hcs : Written cs names) :
      Written (':' :: (name.toList ++ cs)) (name :: names)

variable {cs ds : List Char} {names others : List String}

theorem written_plain_append (hcs : cs.all isPlain = true) (h : Written ds names) :
    Written (cs ++ ds) names := by
  induction cs with
  | nil => exact h
  | cons c cs ih =>
    rw [List.all_cons, Bool.and_eq_true] at hcs
    exact .plain hcs.1 (ih hcs.2)

theorem written_of_all (hcs : cs.all isPlain = true) : Written cs [] := by
  have h := written_plain_append hcs .nil
  rwa [List.append_nil] at h

theorem written_append (h : Written cs names) (hd : Written ds others) (hend : EndsName ds) :
    Written (cs ++ ds) (names ++ others) := by
  induction h with
  | nil => exact hd
  | plain hc hcs ih => exact .plain hc ih
  | quoted hname hcs ih =>
    rw [List.cons_append, List.append_assoc]
    exact .quoted hname ih
  | param hname hends hcs ih =>
    rw [List.cons_append, List.append_assoc]
    exact .param hname (endsName_append hends hend) ih

theorem names_of_blank (h : Written cs names) (hblank : allBlank cs = true) : names = [] := by
  induction h with
  | nil => rfl
  | plain hc hcs ih =>
    rw [allBlank, List.all_cons, Bool.and_eq_true] at hblank
    exact ih hblank.2
  | quoted | param =>
    rw [allBlank, List.all_cons, Bool.and_eq_true] at hblank
    cases hblank.1

theorem written_of_blanks {front : List Char} (hfront : allBlank front = true)
    (h : Written (front ++ cs) names) : Written cs names := by
  induction front with
  | nil => exact h
  | cons c front ih =>
    rw [allBlank, List.all_cons, Bool.and_eq_true] at hfront
    apply ih hfront.2
    rw [List.cons_append] at h
    generalize front ++ cs = rest at h
    cases h with
    | plain hc hcs => exact hcs
    | quoted | param => cases hfront.1

theorem exists_append_of_blanks {part rest front back : List Char}
    (hpart : ∀ c ∈ part, isBlank c = false) (hback : allBlank back = true)
    (h : front ++ back = part ++ rest) : ∃ mid, front = part ++ mid ∧ rest = mid ++ back := by
  rcases List.append_eq_append_iff.mp h with ⟨mid, hp, hb⟩ | ⟨mid, hf, hr⟩
  · cases mid with
    | nil =>
      rw [List.append_nil] at hp
      exact ⟨[], by rw [hp, List.append_nil], hb.symm⟩
    | cons c mid =>
      have hc := hpart c (by rw [hp]; simp)
      rw [hb, List.cons_append, allBlank, List.all_cons, hc] at hback
      cases hback
  · exact ⟨mid, hf, hr⟩

theorem not_isBlank_of_isName {name : List Char} (h : isName name = true) {c : Char}
    (hc : c ∈ name) : isBlank c = false :=
  not_isBlank_of_isNamePart (List.all_eq_true.mp (all_of_isName h) c hc)

theorem written_of_append_blanks {back : List Char} (hback : allBlank back = true)
    (h : Written (cs ++ back) names) : Written cs names := by
  generalize hwhole : cs ++ back = whole at h
  induction h generalizing cs with
  | nil =>
    obtain ⟨rfl, -⟩ := List.append_eq_nil_iff.mp hwhole
    exact .nil
  | @plain c rest names hc hrest ih =>
    cases cs with
    | nil =>
      obtain rfl : back = c :: rest := hwhole
      rw [allBlank, List.all_cons, Bool.and_eq_true] at hback
      rw [names_of_blank hrest hback.2]
      exact .nil
    | cons d cs =>
      cases hwhole
      exact .plain hc (ih rfl)
  | @quoted name rest names hname hrest ih =>
    have hpart : ∀ c ∈ '"' :: (name ++ ['"']), isBlank c = false := by
      intro c hc
      simp only [List.mem_cons, List.mem_append, List.not_mem_nil, or_false] at hc
      rcases hc with rfl | hc | rfl
      · decide
      · exact not_isBlank_of_isName hname hc
      · decide
    have hsplit : cs ++ back = '"' :: (name ++ ['"']) ++ rest := by
      rw [hwhole]
      simp
    obtain ⟨mid, rfl, hrest'⟩ := exists_append_of_blanks hpart hback hsplit
    rw [List.cons_append, List.append_assoc]
    exact .quoted hname (ih hrest'.symm)
  | @param name rest names hname hend hrest ih =>
    have hpart : ∀ c ∈ ':' :: name.toList, isBlank c = false := by
      intro c hc
      rcases List.mem_cons.mp hc with rfl | hc
      · decide
      · exact not_isBlank_of_isName hname hc
    obtain ⟨mid, rfl, hrest'⟩ := exists_append_of_blanks hpart hback hwhole
    rw [hrest'] at hend
    exact .param hname (endsName_left hend) (ih hrest'.symm)

theorem written_trim (h : Written cs names) : Written (trim cs) names := by
  obtain ⟨front, back, hfront, hback, heq⟩ := exists_append_trim cs
  rw [heq] at h
  exact written_of_append_blanks hback (written_of_blanks hfront h)

end Text

open Text

/-- The property is an identifier, and the name in SQL is one, bare or quoted as it was declared
in backticks. -/
structure Column.IsPlain (column : Column) : Prop where
  prop : isName column.prop.toList = true
  sqlName : ∃ flavor name declared, isName name.toList = true ∧
    (declared = name ∨ declared = "`" ++ name ++ "`") ∧
    column.sqlName = (Column.declare flavor column.prop declared column.type column.insertable
      column.updatable).sqlName

theorem Column.quotedPart?_of_isName {name : String} (h : isName name.toList = true) :
    quotedPart? name = none := by
  unfold quotedPart?
  split
  · next c rest hname =>
    rw [hname, isName, Bool.and_eq_true] at h
    have hc : isBacktick c = false := by
      rw [isBacktick, beq_eq_false_iff_ne]
      rintro rfl
      cases h.1
    split
    · rw [hc, Bool.false_and, if_neg Bool.false_ne_true]
    · rfl
  · rfl

theorem Column.quotedPart?_of_quoted {name : String} (h : isName name.toList = true) :
    quotedPart? ("`" ++ name ++ "`") = some name := by
  have hchars : ("`" ++ name ++ "`").toList = '\x60' :: (name.toList ++ ['\x60']) := by simp
  have hreverse : (name.toList ++ ['\x60']).reverse = '\x60' :: name.toList.reverse := by simp
  unfold quotedPart?
  rw [hchars]
  simp only [hreverse]
  cases hname : name.toList.reverse with
  | nil =>
    rw [List.reverse_eq_nil_iff] at hname
    rw [hname] at h
    cases h
  | cons e inner =>
    have hinner : (e :: inner).reverse = name.toList := by rw [← hname, List.reverse_reverse]
    simp only [hinner, String.ofList_toList]
    rfl

theorem Column.sqlName_cases {column : Column} (h : column.IsPlain) :
    ∃ name, isName name.toList = true ∧ (column.sqlName = name ∨
      column.sqlName = "`" ++ name ++ "`" ∨ column.sqlName = "\"" ++ name ++ "\"") := by
  obtain ⟨flavor, name, declared, hname, hdeclared, hsql⟩ := h.sqlName
  refine ⟨name, hname, ?_⟩
  rcases hdeclared with rfl | rfl
  · rw [hsql, declare, Column.quotedPart?_of_isName hname]
    exact .inl rfl
  · rw [hsql, declare, Column.quotedPart?_of_quoted hname]
    cases flavor <;> simp [Flavor.quote]

theorem all_isPlain_of_isName {name : List Char} (h : isName name = true) :
    name.all isPlain = true := by
  rw [List.all_eq_true]
  exact fun c hc => isPlain_of_isNamePart (List.all_eq_true.mp (all_of_isName h) c hc)

theorem Column.IsPlain.written_append {column : Column} (h : column.IsPlain) {cs : List Char}
    {names : List String} (hcs : Written cs names) :
    Written (column.sqlName.toList ++ cs) names := by
  obtain ⟨name, hname, heq | heq | heq⟩ := Column.sqlName_cases h
  · rw [heq]
    exact written_plain_append (all_isPlain_of_isName hname) hcs
  · have hplain : ("`" ++ name ++ "`").toList.all isPlain = true := by
      simp only [String.toList_append, List.all_append, all_isPlain_of_isName hname]
      decide
    rw [heq]
    exact written_plain_append hplain hcs
  · rw [heq]
    have hquoted := Written.quoted hname hcs
    simpa using hquoted

namespace Term

variable {m : Mapping}

def Adds (ps : Parameters) (sql : String) (ps' : Parameters) : Prop :=
  ∃ new : List Parameter, ps'.entries = ps.entries ++ new ∧
    Written sql.toList (new.map (·.name))

theorem comparison_shape (flavor : Flavor) (op : Operator) : ∃ front mid back : List Char,
    front.all isPlain = true ∧ mid.all isPlain = true ∧ back.all isPlain = true ∧
      EndsName back ∧ ∀ column param, (comparison flavor op column param).toList =
        front ++ (column.toList ++ (mid ++ ':' :: (param.toList ++ back))) := by
  have hinfix (h : ∀ column param,
      comparison flavor op column param = column ++ " " ++ op.sqlSymbol ++ " :" ++ param) :
      ∃ front mid back : List Char, front.all isPlain = true ∧ mid.all isPlain = true ∧
        back.all isPlain = true ∧ EndsName back ∧
        ∀ column param, (comparison flavor op column param).toList =
          front ++ (column.toList ++ (mid ++ ':' :: (param.toList ++ back))) := by
    refine ⟨[], ' ' :: (op.sqlSymbol.toList ++ [' ']), [], rfl, ?_, rfl, rfl, ?_⟩
    · cases op <;> decide
    · intro column param
      simp [h]
  cases op with
  | likeIgnoreCase =>
    by_cases h : flavor = .postgreSQL
    · subst h
      exact ⟨[], " ilike ".toList, [], rfl, by decide, rfl, rfl, fun column param => by
        simp [comparison, Flavor.likeIgnoringCase]⟩
    · refine ⟨"lower(".toList, ") like lower(".toList, [')'], by decide, by decide, by decide, rfl,
        fun column param => ?_⟩
      cases flavor <;> simp_all [comparison, Flavor.likeIgnoringCase]
  | equalIgnoreCase =>
    exact ⟨"lower(".toList, ") = lower(".toList, [')'], by decide, by decide, by decide, rfl,
      fun column param => by simp [comparison]⟩
  | _ => exact hinfix fun _ _ => rfl

theorem comparison_written (flavor : Flavor) (op : Operator) {column : Column}
    (hcolumn : column.IsPlain) {param : String} (hparam : isName param.toList = true) :
    Written (comparison flavor op column.sqlName param).toList [param] := by
  obtain ⟨front, mid, back, hfront, hmid, hback, hend, heq⟩ := comparison_shape flavor op
  have htail : Written (':' :: (param.toList ++ back)) [param] :=
    .param hparam hend (written_of_all hback)
  rw [heq]
  exact written_plain_append hfront (hcolumn.written_append (written_plain_append hmid htail))

theorem add_adds {ps : Parameters} {prop : String} (v : Value) {sql : String}
    (h : Written sql.toList [ps.nextName prop]) : Adds ps sql (ps.add prop v).2 :=
  ⟨[⟨ps.nextName prop, prop, v⟩], rfl, h⟩

theorem renderValues_adds {prop : String} (hprop : isName prop.toList = true) {type : ColumnType}
    {values : List Value} {ps ps' : Parameters} {params : List String}
    (h : (renderValues prop type values).run ps = (.ok params, ps')) :
    ∃ new : List Parameter, ps'.entries = ps.entries ++ new ∧
      params = (new.map (·.name)).map (":" ++ ·) ∧
      ∀ name ∈ new.map (·.name), isName name.toList = true := by
  induction values generalizing ps params with
  | nil =>
    cases h
    exact ⟨[], by simp, rfl, by simp⟩
  | cons v values ih =>
    obtain ⟨w, rest, -, hrest, rfl⟩ := renderValues_cons_ok h
    obtain ⟨new, hentries, rfl, hnames⟩ := ih hrest
    refine ⟨⟨ps.nextName prop, prop, w⟩ :: new, ?_, rfl, ?_⟩
    · rw [hentries, Parameters.add, List.append_assoc]
      rfl
    · rw [List.map_cons, List.forall_mem_cons]
      exact ⟨Parameters.isName_numbered hprop _, hnames⟩

theorem written_list {names : List String} (hnames : ∀ name ∈ names, isName name.toList = true)
    {back : List Char} (hback : back.all isPlain = true) (hend : EndsName back) :
    Written ((joined ", " (names.map (":" ++ ·))).toList ++ back) names := by
  induction names with
  | nil => exact written_of_all hback
  | cons name names ih =>
    rw [List.forall_mem_cons] at hnames
    have hrest := ih hnames.2
    cases names with
    | nil =>
      have hparam := Written.param hnames.1 hend (written_of_all hback)
      simpa [joined] using hparam
    | cons next names =>
      have htail : Written (',' :: ' ' :: ((joined ", " ((next :: names).map (":" ++ ·))).toList ++
          back)) (next :: names) := .plain (by decide) (.plain (by decide) hrest)
      have hcomma (cs : List Char) : EndsName (',' :: cs) := rfl
      have hparam := Written.param hnames.1 (hcomma _) htail
      simpa [joined] using hparam

variable (hcolumns : ∀ column ∈ m.table.columns, column.IsPlain)
include hcolumns

theorem column?_plain {prop : String} {column : Column} (h : m.column? prop = some column) :
    column.IsPlain ∧ isName prop.toList = true := by
  have hplain := hcolumns column (List.mem_of_find?_eq_some h)
  have hprop : column.prop = prop := by simpa using List.find?_some h
  exact ⟨hplain, hprop ▸ hplain.prop⟩

theorem renderCompare_adds {prop : String} {op : Operator} {value : Value} {ps ps' : Parameters}
    {sql : String} (h : (renderCompare m prop op value).run ps = (.ok sql, ps')) :
    Adds ps sql ps' := by
  obtain ⟨column, hc, ⟨test, htest, rfl, rfl⟩ | ⟨-, v, -, rfl, rfl⟩⟩ := renderCompare_ok h
  · obtain ⟨hcolumn, -⟩ := column?_plain hcolumns hc
    refine ⟨[], by simp, ?_⟩
    have hplain : test.toList.all isPlain = true := by
      unfold nullTest? at htest
      split at htest <;> cases htest <;> decide
    rw [String.toList_append]
    exact hcolumn.written_append (written_of_all hplain)
  · obtain ⟨hcolumn, hprop⟩ := column?_plain hcolumns hc
    exact add_adds v (comparison_written _ _ hcolumn (Parameters.isName_numbered hprop _))

theorem renderAmong_adds {prop : String} {values : List Value} {ps ps' : Parameters} {sql : String}
    (h : (renderAmong m prop values).run ps = (.ok sql, ps')) : Adds ps sql ps' := by
  obtain ⟨column, params, hc, hparams, rfl⟩ := renderAmong_ok h
  obtain ⟨hcolumn, hprop⟩ := column?_plain hcolumns hc
  obtain ⟨new, hentries, rfl, hnames⟩ := renderValues_adds hprop hparams
  have hclose : [')'].all isPlain = true := by decide
  have hlist := written_list hnames hclose rfl
  refine ⟨new, hentries, ?_⟩
  have hin : (" in (").toList.all isPlain = true := by decide
  have hsql := hcolumn.written_append (written_plain_append hin hlist)
  simpa using hsql

omit hcolumns in
theorem wrapped_written {isJoin : Bool} {sql : String} {names : List String}
    (h : Written sql.toList names) : Written (wrapped isJoin sql).toList names := by
  rw [toList_wrapped]
  cases isJoin with
  | false => exact h
  | true =>
    have hclose : Written [')'] [] := .plain (by decide) .nil
    have hinner := written_append (written_trim h) hclose rfl
    rw [List.append_nil] at hinner
    exact .plain (by decide) hinner

omit hcolumns in
theorem joinSides_adds {joiner : Joiner} {isJoin isJoin' : Bool} {ps mid ps' : Parameters}
    {l r : String} (hl : Adds ps l mid) (hr : Adds mid r ps') :
    Adds ps (joinSides joiner isJoin isJoin' l r) ps' := by
  obtain ⟨new, hmid, hleft⟩ := hl
  obtain ⟨new', hps', hright⟩ := hr
  refine ⟨new ++ new', by rw [hps', hmid, List.append_assoc], ?_⟩
  rw [List.map_append]
  cases hbl : isBlankText l with
  | true =>
    rw [isBlankText_eq_allBlank] at hbl
    rw [names_of_blank hleft hbl, joinSides_blank_left _ _ (isBlankText_eq_allBlank l ▸ hbl)]
    exact hright
  | false =>
    cases hbr : isBlankText r with
    | true =>
      rw [joinSides_blank_right _ _ hbl hbr]
      rw [isBlankText_eq_allBlank] at hbr
      rw [names_of_blank hright hbr, List.append_nil]
      exact hleft
    | false =>
      have hspace : isPlain ' ' = true := by decide
      have hword : joiner.word.toList.all isPlain = true := by cases joiner <;> decide
      have hback : Written ((wrapped isJoin' r).toList ++ [' ']) (new'.map (·.name) ++ []) :=
        written_append (wrapped_written hright) (.plain hspace .nil) rfl
      rw [List.append_nil] at hback
      have hmiddle := written_plain_append hword (.plain hspace hback)
      rw [toList_joinSides _ _ hbl hbr]
      exact .plain hspace (written_append (wrapped_written hleft) (.plain hspace hmiddle) rfl)

theorem render_adds {t : Option Term} {ps ps' : Parameters} {sql : String}
    (h : (renderSide m t).run ps = (.ok sql, ps')) : Adds ps sql ps' :=
  render_induction (P := fun _ => Adds) (fun _ => ⟨[], by simp, .nil⟩)
    (renderCompare_adds hcolumns) (fun _ => renderAmong_adds hcolumns)
    (fun _ => joinSides_adds) h

end Term

end DataAccess
