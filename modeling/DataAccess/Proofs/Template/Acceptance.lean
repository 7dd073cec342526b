import DataAccess.Proofs.Template.Splitting
import DataAccess.Proofs.Trimming

/-!
# What a template accepts

A text is a template when its directives are nested and closed, their arguments name variables,
and every table and column is known. A text that is none is refused for its first token that is
at fault, or, where no token is, for a directive that is still open behind the last one.
-/

set_option autoImplicit false

namespace DataAccess

namespace Guard

def IsVar (var : List Char) : Prop := var ≠ [] ∧ var.all Text.isNamePart = true

inductive Decorated (var : List Char) : List Char → Prop
  | bare : Decorated var var
  | dollar : Decorated var ('$' :: var)
  | braces {front back : List Char} (hfront : Text.allBlank front = true)
      (hback : Text.allBlank back = true) :
      Decorated var ('$' :: '\x7b' :: (front ++ (var ++ back) ++ ['\x7d']))

inductive Names : List Char → List Char → Bool → Prop
  | plain {front back var cs : List Char} (hvar : IsVar var) (hcs : Decorated var cs)
      (hfront : Text.allBlank front = true) (hback : Text.allBlank back = true) :
      Names (front ++ (cs ++ back)) var false
  | negated {front gap back var cs : List Char} (hvar : IsVar var) (hcs : Decorated var cs)
      (hfront : Text.allBlank front = true) (hgap : Text.allBlank gap = true)
      (hback : Text.allBlank back = true) :
      Names (front ++ ('!' :: (gap ++ cs) ++ back)) var true

theorem eq_append_of_stripEnd? {pattern cs front : List Char}
    (h : Text.stripEnd? pattern cs = some front) : cs = front ++ pattern := by
  unfold Text.stripEnd? at h
  split at h
  · next hsuffix =>
    cases h
    exact (List.suffix_iff_eq_append.mp (List.isSuffixOf_iff_suffix.mp hsuffix)).symm
  · cases h

theorem decorated_bareVar (cs : List Char) : Decorated (bareVar cs) cs := by
  rw [bareVar]
  split
  · next inner h =>
    obtain ⟨behind, hstart, hend⟩ := Option.bind_eq_some_iff.mp h
    rw [Token.eq_append_of_stripStart? hstart, eq_append_of_stripEnd? hend]
    obtain ⟨front, back, hfront, hback, heq⟩ := Text.exists_append_trim inner
    have hbraces : Decorated (Text.trim inner) _ := .braces hfront hback
    rw [← heq] at hbraces
    exact hbraces
  · cases h : Text.stripStart? ['$'] cs with
    | none => exact .bare
    | some behind =>
      rw [Token.eq_append_of_stripStart? h]
      exact .dollar

theorem stripEnd?_append (pattern front : List Char) :
    Text.stripEnd? pattern (front ++ pattern) = some front := by
  have hsuffix : pattern.isSuffixOf (front ++ pattern) = true :=
    List.isSuffixOf_iff_suffix.mpr (List.suffix_append front pattern)
  rw [Text.stripEnd?, if_pos hsuffix, List.length_append, Nat.add_sub_cancel, List.take_left]

theorem isVar_head {var : List Char} (h : IsVar var) :
    ∃ c rest, var = c :: rest ∧ Text.isNamePart c = true := by
  obtain ⟨c, rest, rfl⟩ := List.exists_cons_of_ne_nil h.1
  exact ⟨c, rest, rfl, List.all_eq_true.mp h.2 c (List.mem_cons_self ..)⟩

theorem isVar_last {var : List Char} (h : IsVar var) :
    ∃ c, var.getLast? = some c ∧ Text.isNamePart c = true := by
  refine ⟨var.getLast h.1, List.getLast?_eq_some_getLast h.1, ?_⟩
  exact List.all_eq_true.mp h.2 _ (List.getLast_mem h.1)

theorem trim_isVar {front var back : List Char} (hvar : IsVar var)
    (hfront : Text.allBlank front = true) (hback : Text.allBlank back = true) :
    Text.trim (front ++ (var ++ back)) = var := by
  obtain ⟨c, rest, hhead, hc⟩ := isVar_head hvar
  obtain ⟨d, hlast, hd⟩ := isVar_last hvar
  apply Text.trim_append hfront hback hvar.1
  · rw [hhead]
    exact Text.not_isBlank_of_isNamePart hc
  · rw [hlast]
    exact Text.not_isBlank_of_isNamePart hd

theorem bareVar_decorated {var cs : List Char} (hvar : IsVar var) (h : Decorated var cs) :
    bareVar cs = var := by
  obtain ⟨c, rest, hhead, hc⟩ := isVar_head hvar
  have hother (d : Char) (hd : Text.isNamePart d = false) : ¬ d = c := by
    rintro rfl
    rw [hd] at hc
    cases hc
  have hdollar := hother '$' (by decide)
  have hbrace := hother '\x7b' (by decide)
  cases h with
  | bare =>
    rw [bareVar, hhead]
    simp [Text.stripStart?_eq, hdollar]
  | dollar =>
    rw [bareVar, hhead]
    simp [Text.stripStart?_eq, hbrace]
  | @braces front back hfront hback =>
    have hstart : Text.stripStart? ['$', '\x7b']
        ('$' :: '\x7b' :: (front ++ (var ++ back) ++ ['\x7d'])) =
        some (front ++ (var ++ back) ++ ['\x7d']) := by
      rw [Text.stripStart?_eq, if_pos (by simp)]
      rfl
    rw [bareVar, hstart, Option.bind_some, stripEnd?_append]
    exact trim_isVar hvar hfront hback

theorem decorated_bounds {var cs : List Char} (hvar : IsVar var) (h : Decorated var cs) :
    cs ≠ [] ∧ cs.head?.any Text.isBlank = false ∧ cs.getLast?.any Text.isBlank = false ∧
      cs.head? ≠ some '!' := by
  obtain ⟨c, rest, hhead, hc⟩ := isVar_head hvar
  obtain ⟨d, hlast, hd⟩ := isVar_last hvar
  have hfirst := Text.not_isBlank_of_isNamePart hc
  have hfinal := Text.not_isBlank_of_isNamePart hd
  cases h with
  | bare =>
    refine ⟨hvar.1, by rw [hhead]; exact hfirst, by rw [hlast]; exact hfinal, ?_⟩
    rw [hhead, List.head?_cons]
    rintro ⟨⟩
    cases hc
  | dollar =>
    refine ⟨List.cons_ne_nil _ _, rfl, ?_, by simp⟩
    rw [List.getLast?_cons, hlast]
    exact hfinal
  | braces hfront hback =>
    refine ⟨List.cons_ne_nil _ _, rfl, ?_, by simp⟩
    rw [← List.cons_append, ← List.cons_append, List.getLast?_concat]
    rfl

theorem isVar_iff (var : List Char) :
    IsVar var ↔ ¬ (var.isEmpty || !var.all Text.isNamePart) = true := by
  simp [IsVar]

theorem names_of_readVar? {argument : List Char} {v : String} {negated : Bool}
    (h : readVar? argument = some (v, negated)) :
    ∃ var, v = String.ofList var ∧ Names argument var negated := by
  obtain ⟨front, back, hfront, hback, heq⟩ := Text.exists_append_trim argument
  by_cases hmark : (Text.trim argument).head? = some '!'
  · obtain ⟨behind, htrim⟩ := List.head?_eq_some_iff.mp hmark
    obtain ⟨gap, hgap, hbehind⟩ := Text.exists_append_trimStart behind
    simp only [readVar?, htrim, List.head?_cons, beq_self_eq_true, if_true, List.tail_cons] at h
    split at h
    · cases h
    next hvar =>
    cases h
    refine ⟨_, rfl, ?_⟩
    have hnames := Names.negated ((isVar_iff _).mpr hvar) (decorated_bareVar _) hfront hgap hback
    rwa [← hbehind, ← htrim, ← heq] at hnames
  · simp only [readVar?, beq_eq_false_iff_ne.mpr hmark, Bool.false_eq_true, if_false] at h
    split at h
    · cases h
    next hvar =>
    cases h
    refine ⟨_, rfl, ?_⟩
    have hnames := Names.plain ((isVar_iff _).mpr hvar) (decorated_bareVar _) hfront hback
    rwa [← heq] at hnames

theorem readVar?_of_names {argument var : List Char} {negated : Bool}
    (h : Names argument var negated) : readVar? argument = some (String.ofList var, negated) := by
  cases h with
  | @plain front back var cs hvar hcs hfront hback =>
    obtain ⟨hne, hhead, hlast, hmark⟩ := decorated_bounds hvar hcs
    have htrim := Text.trim_append hfront hback hne hhead hlast
    simp only [readVar?, htrim, beq_eq_false_iff_ne.mpr hmark, Bool.false_eq_true, if_false,
      bareVar_decorated hvar hcs]
    rw [if_neg ((isVar_iff var).mp hvar)]
  | @negated front gap back var cs hvar hcs hfront hgap hback =>
    obtain ⟨hne, hhead, hlast, -⟩ := decorated_bounds hvar hcs
    have hend : ('!' :: (gap ++ cs)).getLast?.any Text.isBlank = false := by
      rw [← List.cons_append, List.getLast?_append, List.getLast?_eq_some_getLast hne]
      rwa [List.getLast?_eq_some_getLast hne] at hlast
    have htrim := Text.trim_append hfront hback (List.cons_ne_nil '!' (gap ++ cs)) rfl hend
    have hstart : Text.trimStart (gap ++ cs) = cs := Text.dropWhile_append_eq hgap hhead
    simp only [readVar?, htrim, List.head?_cons, beq_self_eq_true, if_true, List.tail_cons, hstart,
      bareVar_decorated hvar hcs]
    rw [if_neg ((isVar_iff var).mp hvar)]

theorem readVar?_eq_none {argument : List Char} :
    readVar? argument = none ↔ ∀ var negated, ¬ Names argument var negated := by
  constructor
  · intro h var negated hnames
    rw [readVar?_of_names hnames] at h
    cases h
  · intro h
    rw [Option.eq_none_iff_forall_ne_some]
    rintro ⟨v, negated⟩ hread
    obtain ⟨var, -, hnames⟩ := names_of_readVar? hread
    exact h var negated hnames

end Guard

namespace Token

/-- The token is complete in itself, and what it names is known. -/
def StandsAlone (registry : Registry) (owner : Mapping) : Token → Prop
  | .text _ | .param _ => True
  | .table business => ∃ m, registry.get? (String.ofList business) = some m
  | .column prop => ∃ c, owner.column? (String.ofList prop) = some c
  | .opening .. | .unclosed .. | .closing => False

def Opens : Token → Prop
  | .opening directive argument =>
    ∃ var negated, Guard.Names argument var negated ∧ (negated = true → directive = .ifTrue)
  | _ => False

def opened (depth : Nat) : Token → Nat
  | .opening .. => depth + 1
  | .closing => depth - 1
  | _ => depth

section
variable (registry : Registry) (owner : Mapping) (source : String)

/-- The fault of a token in front of which `depth` directives are open. -/
inductive Offends (depth : Nat) : Token → Fault → Prop
  | table {business : List Char} (h : registry.get? (String.ofList business) = none) :
      Offends depth (.table business) (.mappingNotFound (String.ofList business))
  | column {prop : List Char} (h : owner.column? (String.ofList prop) = none) :
      Offends depth (.column prop) (.unknownProperty owner.business (String.ofList prop))
  | unnamed {directive : Directive} {argument : List Char}
      (h : ∀ var negated, ¬ Guard.Names argument var negated) :
      Offends depth (.opening directive argument) (.unbalancedDirective
        ("invalid directive variable [" ++ String.ofList argument ++ "]"))
  | negation {argument var : List Char} (h : Guard.Names argument var true) :
      Offends depth (.opening .notEmpty argument)
        (.unbalancedDirective ("#notEmpty does not accept negation: " ++ source))
  | unclosed {directive : Directive} {rest : List Char} :
      Offends depth (.unclosed directive rest) (.unbalancedDirective source)
  | closing (h : depth = 0) : Offends depth .closing (.unbalancedDirective source)

def Faultless (depth : Nat) (tokens : List Token) : Prop :=
  ∀ earlier token later, tokens = earlier ++ token :: later →
    ∀ e, ¬ Offends registry owner source (earlier.foldl opened depth) token e

def FirstFault (depth : Nat) (tokens : List Token) (e : Fault) : Prop :=
  (∃ earlier token later, tokens = earlier ++ token :: later ∧
    Faultless registry owner source depth earlier ∧
    Offends registry owner source (earlier.foldl opened depth) token e) ∨
  (Faultless registry owner source depth tokens ∧ tokens.foldl opened depth ≠ 0 ∧
    e = .unbalancedDirective source)

end

/-- A template's tokens: every directive is closed, and what stands between is complete. -/
def WellFormed (registry : Registry) (owner : Mapping) : List Token → Prop :=
  Nested (StandsAlone registry owner) Opens .closing

end Token

namespace Block
open Token

variable {registry : Registry} {owner : Mapping} {source : String}

theorem faultless_cons {depth : Nat} {token : Token} {tokens : List Token} :
    Faultless registry owner source depth (token :: tokens) ↔
      (∀ e, ¬ Offends registry owner source depth token e) ∧
        Faultless registry owner source (opened depth token) tokens := by
  constructor
  · intro h
    refine ⟨h [] token tokens rfl, ?_⟩
    rintro earlier next later rfl
    exact h (token :: earlier) next later rfl
  · rintro ⟨hfirst, hrest⟩ earlier next later heq
    cases earlier with
    | nil =>
      cases heq
      exact hfirst
    | cons first earlier =>
      cases heq
      exact hrest earlier next later rfl

theorem firstFault_cons {depth : Nat} {token : Token} {tokens : List Token} {e : Fault} :
    FirstFault registry owner source depth (token :: tokens) e ↔
      Offends registry owner source depth token e ∨
        (∀ e, ¬ Offends registry owner source depth token e) ∧
          FirstFault registry owner source (opened depth token) tokens e := by
  constructor
  · rintro (⟨earlier, next, later, heq, hsound, hoffends⟩ | ⟨hsound, hopen, rfl⟩)
    · cases earlier with
      | nil =>
        cases heq
        exact .inl hoffends
      | cons first earlier =>
        cases heq
        obtain ⟨hfirst, hrest⟩ := faultless_cons.mp hsound
        exact .inr ⟨hfirst, .inl ⟨earlier, next, later, rfl, hrest, hoffends⟩⟩
    · obtain ⟨hfirst, hrest⟩ := faultless_cons.mp hsound
      exact .inr ⟨hfirst, .inr ⟨hrest, hopen, rfl⟩⟩
  · rintro (hoffends |
      ⟨hfirst, ⟨earlier, next, later, rfl, hsound, hoffends⟩ | ⟨hsound, hopen, rfl⟩⟩)
    · refine .inl ⟨[], token, tokens, rfl, ?_, hoffends⟩
      intro earlier next later heq
      exact absurd heq (by simp)
    · have hearlier := faultless_cons.mpr ⟨hfirst, hsound⟩
      exact .inl ⟨token :: earlier, next, later, rfl, hearlier, hoffends⟩
    · exact .inr ⟨faultless_cons.mpr ⟨hfirst, hsound⟩, hopen, rfl⟩

theorem read_of_opens {directive : Directive} {argument : List Char}
    (h : Opens (.opening directive argument)) :
    ∃ guard, Guard.read source directive argument = .ok guard := by
  obtain ⟨var, negated, hnames, hnegated⟩ := h
  unfold Guard.read
  rw [Guard.readVar?_of_names hnames]
  cases directive with
  | ifTrue => exact ⟨_, rfl⟩
  | notEmpty =>
    cases negated with
    | false => exact ⟨_, rfl⟩
    | true => exact absurd (hnegated rfl) (by decide)

theorem read_cases (registry : Registry) (owner : Mapping) (source : String) (depth : Nat)
    (directive : Directive) (argument : List Char) :
    (Opens (.opening directive argument) ∧
      ∃ guard, Guard.read source directive argument = .ok guard) ∨
    ∃ e, Offends registry owner source depth (.opening directive argument) e ∧
      Guard.read source directive argument = .error e := by
  cases hread : Guard.readVar? argument with
  | none =>
    refine .inr ⟨_, .unnamed (Guard.readVar?_eq_none.mp hread), ?_⟩
    unfold Guard.read
    rw [hread]
  | some p =>
    obtain ⟨v, negated⟩ := p
    obtain ⟨var, -, hnames⟩ := Guard.names_of_readVar? hread
    have hopens (h : negated = true → directive = .ifTrue) :
        Opens (.opening directive argument) := ⟨var, negated, hnames, h⟩
    by_cases h : negated = true → directive = .ifTrue
    · exact .inl ⟨hopens h, read_of_opens (hopens h)⟩
    · obtain ⟨rfl, hd⟩ := Classical.not_imp.mp h
      cases directive with
      | ifTrue => exact absurd rfl hd
      | notEmpty =>
        refine .inr ⟨_, .negation hnames, ?_⟩
        unfold Guard.read
        rw [hread]

theorem opens_of_read {directive : Directive} {argument : List Char} {guard : Guard}
    (h : Guard.read source directive argument = .ok guard) (registry : Registry)
    (owner : Mapping) : Opens (.opening directive argument) := by
  rcases read_cases registry owner source 0 directive argument with ⟨hopens, -⟩ | ⟨e, -, he⟩
  · exact hopens
  · rw [h] at he
    cases he

theorem build_of_offends {depth : Nat} {token : Token} {e : Fault}
    (h : Offends registry owner source depth token e) (rest : List Token) :
    build registry owner source depth (token :: rest) = .error e := by
  cases h with
  | table h =>
    rw [build, Registry.mapping, h]
    rfl
  | column h =>
    rw [build, Mapping.column, h]
    rfl
  | unnamed h =>
    rw [build]
    unfold Guard.read
    rw [Guard.readVar?_eq_none.mpr h]
    rfl
  | negation h =>
    rw [build]
    unfold Guard.read
    rw [Guard.readVar?_of_names h]
    rfl
  | unclosed => rw [build]
  | closing h =>
    subst h
    rw [build]

theorem build_of_sound {depth : Nat} {token : Token} (rest : List Token)
    (h : ∀ e, ¬ Offends registry owner source depth token e) (e : Fault) :
    build registry owner source depth (token :: rest) = .error e ↔
      build registry owner source (opened depth token) rest = .error e := by
  cases token with
  | text cs => exact bind_eq_error (fun p _ => ⟨_, rfl⟩) e
  | param name => exact bind_eq_error (fun p _ => ⟨_, rfl⟩) e
  | table business =>
    cases hm : registry.get? (String.ofList business) with
    | none => exact absurd (.table hm) (h _)
    | some m =>
      rw [build, Registry.mapping, hm]
      exact bind_eq_error (fun p _ => ⟨_, rfl⟩) e
  | column prop =>
    cases hc : owner.column? (String.ofList prop) with
    | none => exact absurd (.column hc) (h _)
    | some c =>
      rw [build, Mapping.column, hc]
      exact bind_eq_error (fun p _ => ⟨_, rfl⟩) e
  | opening directive argument =>
    rcases read_cases registry owner source depth directive argument with
      ⟨-, guard, hguard⟩ | ⟨e, hoffends, -⟩
    · rw [build, hguard]
      change (build registry owner source (depth + 1) rest >>= _) = _ ↔ _
      refine bind_eq_error ?_ e
      rintro ⟨body, outer⟩ hb
      cases outer with
      | nil => cases length_build hb
      | cons next outer => exact ⟨_, rfl⟩
    · exact absurd hoffends (h e)
  | unclosed directive rest => exact absurd .unclosed (h _)
  | closing =>
    cases depth with
    | zero => exact absurd (.closing rfl) (h _)
    | succ below => exact bind_eq_error (fun p _ => ⟨_, rfl⟩) e

/-- The builder's fault is that of the first token that is at fault. -/
theorem build_eq_error {depth : Nat} {tokens : List Token} {e : Fault} :
    build registry owner source depth tokens = .error e ↔
      FirstFault registry owner source depth tokens e := by
  induction tokens generalizing depth with
  | nil =>
    have hsound : Faultless registry owner source depth [] := by
      intro earlier token later heq
      exact absurd heq (by simp)
    rw [build]
    constructor
    · intro h
      split at h
      · cases h
      · next hopen =>
        cases h
        exact .inr ⟨hsound, hopen, rfl⟩
    · rintro (⟨earlier, token, later, heq, -⟩ | ⟨-, hopen, rfl⟩)
      · exact absurd heq (by simp)
      · exact if_neg hopen
  | cons token rest ih =>
    rw [firstFault_cons]
    by_cases h : ∃ e', Offends registry owner source depth token e'
    · obtain ⟨e', hoffends⟩ := h
      rw [build_of_offends hoffends]
      constructor
      · rintro ⟨⟩
        exact .inl hoffends
      · rintro (hother | ⟨hsound, -⟩)
        · exact (build_of_offends hoffends rest).symm.trans (build_of_offends hother rest)
        · exact absurd hoffends (hsound e')
    · have hsound := not_exists.mp h
      rw [build_of_sound rest hsound, ih]
      constructor
      · exact fun hrest => .inr ⟨hsound, hrest⟩
      · rintro (hoffends | ⟨-, hrest⟩)
        · exact absurd hoffends (hsound e)
        · exact hrest

theorem build_of_nested {tokens : List Token} (h : WellFormed registry owner tokens) {depth : Nat}
    {rest : List Token} {b : Block} {outer : List Block}
    (hrest : build registry owner source depth rest = .ok (b, outer)) :
    ∃ b', build registry owner source depth (tokens ++ rest) = .ok (b', outer) := by
  induction h generalizing depth rest b outer with
  | nil => exact ⟨b, hrest⟩
  | @alone token tokens htoken hl ih =>
    obtain ⟨b', hb'⟩ := ih hrest
    rw [List.cons_append]
    cases token with
    | text cs | param name =>
      rw [build, hb']
      exact ⟨_, rfl⟩
    | table business =>
      obtain ⟨m, hm⟩ := htoken
      rw [build, Registry.mapping, hm, hb']
      exact ⟨_, rfl⟩
    | column prop =>
      obtain ⟨c, hc⟩ := htoken
      rw [build, Mapping.column, hc, hb']
      exact ⟨_, rfl⟩
    | opening directive argument | unclosed directive rest | closing => exact htoken.elim
  | @pair token inner tokens htoken hinner hl ihinner ih =>
    obtain ⟨b', hb'⟩ := ih hrest
    cases token with
    | opening directive argument =>
      obtain ⟨guard, hguard⟩ : ∃ guard, Guard.read source directive argument = .ok guard :=
        read_of_opens htoken
      have hclosing : build registry owner source (depth + 1) (.closing :: (tokens ++ rest)) =
          .ok (done, b' :: outer) := by
        rw [build, hb']
        rfl
      obtain ⟨body, hbody⟩ := ihinner hclosing
      rw [List.cons_append, List.append_assoc, List.cons_append, build, hguard]
      change ∃ b'', (build registry owner source (depth + 1) _ >>= _) = .ok (b'', outer)
      rw [hbody]
      exact ⟨guarded guard body b', rfl⟩
    | _ => exact htoken.elim

theorem nested_of_build {tokens : List Token} {depth : Nat} {b : Block} {outer : List Block}
    (h : build registry owner source depth tokens = .ok (b, outer)) :
    NestedUnder (StandsAlone registry owner) Opens .closing depth tokens := by
  induction tokens generalizing depth b outer with
  | nil =>
    obtain ⟨rfl, -, -⟩ := build_nil h
    exact .nil
  | cons token rest ih =>
    have hcons := build_cons h
    cases token with
    | text cs =>
      obtain ⟨next, -, hb⟩ := hcons
      exact nestedUnder_alone trivial (ih hb)
    | param name =>
      obtain ⟨next, -, hb⟩ := hcons
      exact nestedUnder_alone trivial (ih hb)
    | table business =>
      obtain ⟨m, next, hm, -, hb⟩ := hcons
      exact nestedUnder_alone ⟨m, Registry.get?_of_mapping hm⟩ (ih hb)
    | column prop =>
      obtain ⟨c, next, hc, -, hb⟩ := hcons
      exact nestedUnder_alone ⟨c, Mapping.column?_of_column hc⟩ (ih hb)
    | opening directive argument =>
      obtain ⟨guard, body, next, hguard, -, hb⟩ := hcons
      exact nestedUnder_opens (opens_of_read hguard registry owner) (ih hb)
    | unclosed directive rest => exact hcons.elim
    | closing =>
      obtain ⟨below, next, outer', rfl, -, rfl, hb⟩ := hcons
      exact nestedUnder_close (ih hb)

theorem build_eq_ok {tokens : List Token} :
    (∃ p, build registry owner source 0 tokens = .ok p) ↔ WellFormed registry owner tokens := by
  constructor
  · rintro ⟨⟨b, outer⟩, hb⟩
    exact nested_of_build hb
  · intro h
    have hdone : build registry owner source 0 [] = .ok (done, []) := rfl
    obtain ⟨b, hb⟩ := build_of_nested h hdone
    rw [List.append_nil] at hb
    exact ⟨_, hb⟩

end Block

/-- A text splits in exactly one way; it is compiled exactly when its tokens are well formed,
and is refused for the fault of the first token that is at fault, behind which stands only that
of an open end. -/
theorem Template.compile_accepts (registry : Registry) (owner : Mapping) (text : String) :
    ∃ tokens, (∀ others, Token.Splits text.toList others ↔ others = tokens) ∧
      ((∃ t, compile registry owner text = .ok t) ↔ Token.WellFormed registry owner tokens) ∧
      ∀ e, compile registry owner text = .error e ↔
        Token.FirstFault registry owner text 0 tokens e := by
  refine ⟨Token.scan text.toList, ?_, ?_, ?_⟩
  · intro others
    rw [Token.splits_iff, eq_comm]
  · rw [← Block.build_eq_ok]
    constructor
    · rintro ⟨t, ht⟩
      exact ⟨_, Block.ofText_eq_ok.mp (compile_eq_ok ht).2⟩
    · rintro ⟨p, hp⟩
      have hbody : Block.ofText registry owner text = .ok p.1 := by
        rw [Block.ofText, hp]
        rfl
      refine ⟨{ mapping := owner, text := text, body := p.1 }, ?_⟩
      rw [compile, hbody]
      rfl
  · intro e
    rw [← Block.build_eq_error]
    exact (bind_eq_error (fun body _ => ⟨_, rfl⟩) e).trans
      (bind_eq_error (fun p _ => ⟨_, rfl⟩) e)

end DataAccess
