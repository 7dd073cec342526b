import DataAccess.Proofs.Nesting
import DataAccess.Proofs.Template.Parsing

/-!
# The tokens of a text

What a text begins with is told by the text alone: a quoted part, doubled colons, one of the
markers, or a character that begins none of these. Every text splits in exactly one way, and the
scanner finds it.
-/

set_option autoImplicit false

namespace DataAccess

namespace Text

def Balanced : List Char → Prop := Nested (fun c => c ≠ '(' ∧ c ≠ ')') (· = '(') ')'

def EndsName (rest : List Char) : Prop := rest.head?.any isNamePart = false

end Text

namespace Token

inductive Marked : List Char → Prop
  | quote {q : Char} (rest : List Char) (hq : q = '\'' ∨ q = '"') : Marked (q :: rest)
  | colons (rest : List Char) : Marked (':' :: ':' :: rest)
  | param {rest : List Char} (hname : startsName rest = true) : Marked (':' :: rest)
  | table {rest : List Char} (hname : startsName rest = true) : Marked ('@' :: '@' :: rest)
  | column {rest : List Char} (hname : startsName rest = true) : Marked ('@' :: rest)
  | opening (d : Directive) (rest : List Char) : Marked ('#' :: (d.opening ++ rest))
  | closing {rest : List Char} (hend : Text.EndsName rest) : Marked ('#' :: ("end".toList ++ rest))

inductive Begins : List Char → Token → List Char → Prop
  | quoted {q : Char} {inner rest : List Char} (hq : q = '\'' ∨ q = '"') (hinner : q ∉ inner) :
      Begins (q :: (inner ++ q :: rest)) (.text (q :: (inner ++ [q]))) rest
  | quotedToEnd {q : Char} {inner : List Char} (hq : q = '\'' ∨ q = '"') (hinner : q ∉ inner) :
      Begins (q :: inner) (.text (q :: inner)) []
  | colons {rest : List Char} : Begins (':' :: ':' :: rest) (.text [':', ':']) rest
  | param {name rest : List Char} (hname : Text.isName name = true) (hend : Text.EndsName rest) :
      Begins (':' :: (name ++ rest)) (.param name) rest
  | table {name rest : List Char} (hname : Text.isName name = true) (hend : Text.EndsName rest) :
      Begins ('@' :: '@' :: (name ++ rest)) (.table name) rest
  | column {name rest : List Char} (hname : Text.isName name = true) (hend : Text.EndsName rest) :
      Begins ('@' :: (name ++ rest)) (.column name) rest
  | opening (d : Directive) {argument rest : List Char} (hbalanced : Text.Balanced argument) :
      Begins ('#' :: (d.opening ++ (argument ++ ')' :: rest))) (.opening d argument) rest
  | unclosed (d : Directive) {rest : List Char}
      (hopen : ∀ argument behind, Text.Balanced argument → rest ≠ argument ++ ')' :: behind) :
      Begins ('#' :: (d.opening ++ rest)) (.unclosed d rest) []
  | closing {rest : List Char} (hend : Text.EndsName rest) :
      Begins ('#' :: ("end".toList ++ rest)) .closing rest
  | plain {c : Char} {rest : List Char} (hplain : ¬ Marked (c :: rest)) :
      Begins (c :: rest) (.text [c]) rest

/-- The tokens of a text, from its beginning to its end. -/
inductive Splits : List Char → List Token → Prop
  | nil : Splits [] []
  | cons {cs rest : List Char} {token : Token} {tokens : List Token}
      (hfirst : Begins cs token rest) (hrest : Splits rest tokens) : Splits cs (token :: tokens)

theorem throughQuote_quoted {q : Char} {inner : List Char} (h : q ∉ inner) (rest : List Char) :
    throughQuote q (inner ++ q :: rest) = (inner ++ [q], rest) := by
  induction inner with
  | nil => simp [throughQuote]
  | cons c inner ih =>
    rw [List.mem_cons, not_or] at h
    rw [List.cons_append, throughQuote, if_neg (Ne.symm h.1), ih h.2]
    rfl

theorem throughQuote_toEnd {q : Char} {inner : List Char} (h : q ∉ inner) :
    throughQuote q inner = (inner, []) := by
  induction inner with
  | nil => rfl
  | cons c inner ih =>
    rw [List.mem_cons, not_or] at h
    rw [throughQuote, if_neg (Ne.symm h.1), ih h.2]

theorem throughQuote_cases (q : Char) (cs : List Char) :
    (∃ inner rest, q ∉ inner ∧ cs = inner ++ q :: rest) ∨ q ∉ cs := by
  by_cases h : q ∈ cs
  · obtain ⟨inner, rest, hcs, hinner⟩ := List.eq_append_cons_of_mem h
    exact .inl ⟨inner, rest, hinner, hcs⟩
  · exact .inr h

theorem throughParen?_balanced {argument : List Char} (h : Text.Balanced argument) (depth : Nat)
    (rest : List Char) :
    throughParen? depth (argument ++ rest) =
      (throughParen? depth rest).map fun p => (argument ++ p.1, p.2) := by
  induction h generalizing depth rest with
  | nil => simp
  | @alone c l hc hl ih =>
    rw [List.cons_append, throughParen?, if_neg fun h => hc.2 h.1]
    simp [hc.1, hc.2, ih, Function.comp_def]
  | @pair c inner l hc hinner hl ihinner ih =>
    subst hc
    rw [List.cons_append, List.append_assoc, List.cons_append, throughParen?,
      if_neg (by simp)]
    simp [ihinner, throughParen?, ih, Function.comp_def]

theorem nested_of_throughParen? {depth : Nat} {cs argument behind : List Char}
    (h : throughParen? depth cs = some (argument, behind)) :
    cs = argument ++ ')' :: behind ∧
      NestedUnder (fun c => c ≠ '(' ∧ c ≠ ')') (· = '(') ')' depth argument := by
  induction cs generalizing depth argument with
  | nil => cases h
  | cons c cs ih =>
    by_cases hlast : c = ')' ∧ depth = 0
    · obtain ⟨rfl, rfl⟩ := hlast
      cases h
      exact ⟨rfl, .nil⟩
    rw [throughParen?, if_neg hlast] at h
    obtain ⟨⟨argument', behind'⟩, h, he⟩ := Option.map_eq_some_iff.mp h
    cases he
    by_cases ho : c = '('
    · rw [if_pos ho] at h
      obtain ⟨hcs, hnested⟩ := ih h
      exact ⟨congrArg (c :: ·) hcs, nestedUnder_opens ho hnested⟩
    rw [if_neg ho] at h
    by_cases hc : c = ')'
    · obtain ⟨below, rfl⟩ := Nat.exists_eq_succ_of_ne_zero fun hzero => hlast ⟨hc, hzero⟩
      rw [if_pos hc] at h
      obtain ⟨hcs, hnested⟩ := ih h
      rw [hc]
      exact ⟨congrArg (')' :: ·) hcs, nestedUnder_close hnested⟩
    · rw [if_neg hc] at h
      obtain ⟨hcs, hnested⟩ := ih h
      exact ⟨congrArg (c :: ·) hcs, nestedUnder_alone ⟨ho, hc⟩ hnested⟩

theorem throughParen?_eq_some {cs argument behind : List Char} :
    throughParen? 0 cs = some (argument, behind) ↔
      Text.Balanced argument ∧ cs = argument ++ ')' :: behind := by
  constructor
  · intro h
    obtain ⟨hcs, hnested⟩ := nested_of_throughParen? h
    exact ⟨hnested, hcs⟩
  · rintro ⟨hbalanced, rfl⟩
    simp [throughParen?_balanced hbalanced, throughParen?]

theorem throughParen?_eq_none {cs : List Char} :
    throughParen? 0 cs = none ↔
      ∀ argument behind, Text.Balanced argument → cs ≠ argument ++ ')' :: behind := by
  rw [Option.eq_none_iff_forall_ne_some, Prod.forall]
  simp only [ne_eq, throughParen?_eq_some, not_and]

theorem name_append {name rest : List Char} (hname : Text.isName name = true)
    (hend : Text.EndsName rest) :
    Token.startsName (name ++ rest) = true ∧ Token.name (name ++ rest) = name ∧
      behindName (name ++ rest) = rest := by
  cases name with
  | nil => cases hname
  | cons c name =>
    have hall := Text.all_of_isName hname
    rw [Text.isName, Bool.and_eq_true] at hname
    have hbehind : behindName (c :: name ++ rest) = rest := Text.dropWhile_append_eq hall hend
    refine ⟨hname.1, ?_, hbehind⟩
    have hsplit := List.takeWhile_append_dropWhile (p := Text.isNamePart) (l := c :: name ++ rest)
    rw [← behindName, hbehind] at hsplit
    exact List.append_cancel_right hsplit

theorem exists_name {cs : List Char} (h : startsName cs = true) :
    Text.isName (name cs) = true ∧ Text.EndsName (behindName cs) ∧
      cs = name cs ++ behindName cs := by
  refine ⟨?_, ?_, List.takeWhile_append_dropWhile.symm⟩
  · cases cs with
    | nil => cases h
    | cons c cs =>
      have hc : Text.isNameStart c = true := h
      rw [name, List.takeWhile_cons_of_pos (Text.isNamePart_of_isNameStart hc), Text.isName, hc,
        Bool.true_and]
      exact List.all_takeWhile
  · have hhead := List.head?_dropWhile_not Text.isNamePart cs
    rw [Text.EndsName, behindName]
    cases hd : (cs.dropWhile Text.isNamePart).head? with
    | none => rfl
    | some c => simpa [hd] using hhead

theorem next_quote {q : Char} (hq : q = '\'' ∨ q = '"') (rest : List Char) :
    next q rest = (text (q :: (throughQuote q rest).1), (throughQuote q rest).2) :=
  if_pos hq

theorem next_directive (d : Directive) (rest : List Char) :
    next '#' (d.opening ++ rest) = directive d rest := by
  have hno : ¬ Directive.ifTrue.opening <+: Directive.notEmpty.opening ++ rest := by
    intro h
    exact absurd (List.cons_prefix_cons.mp h).1 (by decide)
  cases d with
  | ifTrue => simp [next, Text.stripStart?_eq]
  | notEmpty => simp [next, Text.stripStart?_eq, hno]

theorem next_closing {rest : List Char} (hend : Text.EndsName rest) :
    next '#' ("end".toList ++ rest) = (closing, rest) := by
  have hno (d : Directive) : ¬ d.opening <+: 'e' :: 'n' :: 'd' :: rest := by
    intro h
    cases d <;> exact absurd (List.cons_prefix_cons.mp h).1 (by decide)
  have hname : ¬ Option.any Text.isNamePart rest.head? = true := by rw [hend]; decide
  simp [next, Text.stripStart?_eq, hno, hname]

theorem head?_of_startsName {cs : List Char} (h : startsName cs = true) {c : Char}
    (hc : Text.isNameStart c = false) : cs.head? ≠ some c := by
  intro hhead
  rw [startsName, hhead, Option.any_some, hc] at h
  cases h

theorem next_param {cs : List Char} (h : startsName cs = true) :
    next ':' cs = (param (name cs), behindName cs) := by
  have hno := head?_of_startsName h (show Text.isNameStart ':' = false by decide)
  simp [next, hno, h]

theorem next_table {cs : List Char} (h : startsName cs = true) :
    next '@' ('@' :: cs) = (table (name cs), behindName cs) := by
  simp [next, h]

theorem next_column {cs : List Char} (h : startsName cs = true) :
    next '@' cs = (column (name cs), behindName cs) := by
  have hno := head?_of_startsName h (show Text.isNameStart '@' = false by decide)
  simp [next, hno, h]

theorem eq_append_of_stripStart? {pattern cs behind : List Char}
    (h : Text.stripStart? pattern cs = some behind) : cs = pattern ++ behind := by
  rw [Text.stripStart?_eq] at h
  split at h
  · next hprefix =>
    cases h
    exact (List.prefix_iff_eq_append.mp hprefix).symm
  · cases h

theorem next_number_sign {rest : List Char} (h : ¬ Marked ('#' :: rest)) :
    next '#' rest = (text ['#'], rest) := by
  have hno (d : Directive) : Text.stripStart? d.opening rest = none := by
    rw [Option.eq_none_iff_forall_ne_some]
    intro behind hstrip
    rw [eq_append_of_stripStart? hstrip] at h
    exact h (.opening d behind)
  have hend (behind : List Char) (hstrip : Text.stripStart? "end".toList rest = some behind) :
      behind.head?.any Text.isNamePart = true := by
    rw [eq_append_of_stripStart? hstrip] at h
    rw [← Bool.not_eq_false]
    exact fun hname => h (.closing hname)
  simp only [next, hno]
  cases hstrip : Text.stripStart? "end".toList rest with
  | none => rfl
  | some behind => simp [hend behind hstrip]

theorem next_plain {c : Char} {rest : List Char} (h : ¬ Marked (c :: rest)) :
    next c rest = (text [c], rest) := by
  by_cases hhash : c = '#'
  · subst hhash
    exact next_number_sign h
  rw [next, if_neg fun hq => h (.quote rest hq), if_neg hhash]
  split
  · next hc =>
    subst hc
    have hcolons : ¬ rest.head? = some ':' := by
      intro hhead
      obtain ⟨cs, rfl⟩ := List.head?_eq_some_iff.mp hhead
      exact h (.colons cs)
    rw [if_neg hcolons, if_neg fun hname => h (.param hname)]
  split
  · next hc =>
    subst hc
    have htable : ¬ (rest.head? = some '@' ∧ startsName rest.tail = true) := by
      rintro ⟨hhead, hname⟩
      obtain ⟨cs, rfl⟩ := List.head?_eq_some_iff.mp hhead
      exact h (.table hname)
    rw [if_neg htable, if_neg fun hname => h (.column hname)]
  · rfl

theorem next_of_begins {c : Char} {cs rest : List Char} {token : Token}
    (h : Begins (c :: cs) token rest) : next c cs = (token, rest) := by
  generalize htext : c :: cs = whole at h
  cases h with
  | quoted hq hinner =>
    cases htext
    rw [next_quote hq, throughQuote_quoted hinner]
  | quotedToEnd hq hinner =>
    cases htext
    rw [next_quote hq, throughQuote_toEnd hinner]
  | colons =>
    cases htext
    rfl
  | param hname hend =>
    cases htext
    obtain ⟨hstarts, hn, hbehind⟩ := name_append hname hend
    rw [next_param hstarts, hn, hbehind]
  | table hname hend =>
    cases htext
    obtain ⟨hstarts, hn, hbehind⟩ := name_append hname hend
    rw [next_table hstarts, hn, hbehind]
  | column hname hend =>
    cases htext
    obtain ⟨hstarts, hn, hbehind⟩ := name_append hname hend
    rw [next_column hstarts, hn, hbehind]
  | opening d hbalanced =>
    cases htext
    rw [next_directive, directive, throughParen?_eq_some.mpr ⟨hbalanced, rfl⟩]
  | unclosed d hopen =>
    cases htext
    rw [next_directive, directive, throughParen?_eq_none.mpr hopen]
  | closing hend =>
    cases htext
    exact next_closing hend
  | plain hplain =>
    cases htext
    exact next_plain hplain

theorem begins_directive (d : Directive) (rest : List Char) :
    Begins ('#' :: (d.opening ++ rest)) (directive d rest).1 (directive d rest).2 := by
  rw [directive]
  cases h : throughParen? 0 rest with
  | none => exact .unclosed d (throughParen?_eq_none.mp h)
  | some p =>
    obtain ⟨hbalanced, hrest⟩ := throughParen?_eq_some.mp h
    rw [hrest]
    exact .opening d hbalanced

theorem begins_next (c : Char) (cs : List Char) : Begins (c :: cs) (next c cs).1 (next c cs).2 := by
  by_cases hmarked : Marked (c :: cs)
  · generalize htext : c :: cs = whole at hmarked
    cases hmarked with
    | quote rest hq =>
      cases htext
      rw [next_quote hq]
      rcases throughQuote_cases c cs with ⟨inner, rest, hinner, rfl⟩ | hinner
      · rw [throughQuote_quoted hinner]
        exact .quoted hq hinner
      · rw [throughQuote_toEnd hinner]
        exact .quotedToEnd hq hinner
    | colons rest =>
      cases htext
      exact .colons
    | param hstarts =>
      cases htext
      obtain ⟨hname, hend, hcs⟩ := exists_name hstarts
      have hbegins := Begins.param hname hend
      rw [← hcs] at hbegins
      rw [next_param hstarts]
      exact hbegins
    | table hstarts =>
      cases htext
      obtain ⟨hname, hend, hcs⟩ := exists_name hstarts
      have hbegins := Begins.table hname hend
      rw [← hcs] at hbegins
      rw [next_table hstarts]
      exact hbegins
    | column hstarts =>
      cases htext
      obtain ⟨hname, hend, hcs⟩ := exists_name hstarts
      have hbegins := Begins.column hname hend
      rw [← hcs] at hbegins
      rw [next_column hstarts]
      exact hbegins
    | opening d rest =>
      cases htext
      rw [next_directive]
      exact begins_directive d rest
    | closing hend =>
      cases htext
      rw [next_closing hend]
      exact .closing hend
  · rw [next_plain hmarked]
    exact .plain hmarked

theorem splits_scan (cs : List Char) : Splits cs (scan cs) := by
  induction cs using scan.induct with
  | case1 =>
    rw [scan]
    exact .nil
  | case2 c rest ih =>
    rw [scan]
    exact .cons (begins_next c rest) ih

theorem scan_of_splits {cs : List Char} {tokens : List Token} (h : Splits cs tokens) :
    scan cs = tokens := by
  induction h with
  | nil => rw [scan]
  | @cons cs rest token tokens hfirst hrest ih =>
    cases cs with
    | nil => cases hfirst
    | cons c cs => rw [scan, next_of_begins hfirst, ih]

theorem scan_of_begins {cs rest : List Char} {token : Token} (h : Begins cs token rest) :
    scan cs = token :: scan rest :=
  scan_of_splits (.cons h (splits_scan rest))

/-- A text splits in exactly one way. -/
theorem splits_iff (cs : List Char) (tokens : List Token) : Splits cs tokens ↔ scan cs = tokens :=
  ⟨scan_of_splits, fun h => h ▸ splits_scan cs⟩

end Token

end DataAccess
