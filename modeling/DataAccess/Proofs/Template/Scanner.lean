import DataAccess.Proofs.Template.Splitting
import DataAccess.Proofs.Text.Bytes
import DataAccess.Proofs.Trimming

/-!
# Scanning a template by its bytes

A scanner looks at single bytes to find where a token ends, and cuts the token out of the text.
It stands in front of a character all the time, so every cut is around whole characters, and it
finds the token that the characters begin with.
-/

set_option autoImplicit false

namespace DataAccess

open Text

namespace Scanner

def cut (s : String) (start stop : Nat) : Option (List Char) :=
  (between? s start stop).map String.toList

def nameEnd (s : String) (pos : Nat) : Nat :=
  match h : byteAt? s pos with
  | none => pos
  | some b => if isNamePart b then nameEnd s (pos + 1) else pos
termination_by s.utf8ByteSize - pos
decreasing_by exact Nat.sub_succ_lt_self _ _ (lt_of_byteAt? h)

def quoteEnd (s : String) (quote : Char) (pos : Nat) : Nat :=
  match h : byteAt? s pos with
  | none => pos
  | some b => if b = quote then pos + 1 else quoteEnd s quote (pos + 1)
termination_by s.utf8ByteSize - pos
decreasing_by exact Nat.sub_succ_lt_self _ _ (lt_of_byteAt? h)

def parenEnd? (s : String) (depth pos : Nat) : Option Nat :=
  match h : byteAt? s pos with
  | none => none
  | some b =>
    if b = ')' ∧ depth = 0 then some (pos + 1)
    else
      let inner := if b = '(' then depth + 1 else if b = ')' then depth - 1 else depth
      parenEnd? s inner (pos + 1)
termination_by s.utf8ByteSize - pos
decreasing_by exact Nat.sub_succ_lt_self _ _ (lt_of_byteAt? h)

def quoted (s : String) (quote : Char) (pos : Nat) : Checked (Token × Nat) := do
  let stop := quoteEnd s quote (pos + 1)
  return (.text (← cut s pos stop), stop)

def named (s : String) (token : List Char → Token) (pos : Nat) : Checked (Token × Nat) := do
  let stop := nameEnd s pos
  return (token (← cut s pos stop), stop)

def single (s : String) (pos : Nat) : Checked (Token × Nat) := do
  match ← cut s pos s.utf8ByteSize with
  | c :: _ => return (.text [c], pos + c.utf8Size)
  | [] => return (.text [], pos)

def directive (s : String) (d : Directive) (pos : Nat) : Checked (Token × Nat) := do
  match parenEnd? s 0 pos with
  | none => throw (.unbalancedDirective s)
  | some stop => return (.opening d (← cut s pos (← minus? stop 1)), stop)

def numberSign (s : String) (pos : Nat) : Checked (Token × Nat) := do
  let rest ← cut s pos s.utf8ByteSize
  if ('#' :: Directive.ifTrue.opening).isPrefixOf rest then
    directive s .ifTrue (pos + ('#' :: Directive.ifTrue.opening).length)
  else if ('#' :: Directive.notEmpty.opening).isPrefixOf rest then
    directive s .notEmpty (pos + ('#' :: Directive.notEmpty.opening).length)
  else if "#end".toList.isPrefixOf rest ∧ ¬ (byteAt? s (pos + 4)).any isNamePart then
    return (.closing, pos + 4)
  else single s pos

def next (s : String) (pos : Nat) (b : Char) : Checked (Token × Nat) :=
  if b = '\'' ∨ b = '"' then quoted s b pos
  else if b = ':' then
    if byteAt? s (pos + 1) = some ':' then return (.text [':', ':'], pos + 2)
    else if (byteAt? s (pos + 1)).any isNameStart then named s .param (pos + 1)
    else single s pos
  else if b = '@' then
    if byteAt? s (pos + 1) = some '@' ∧ (byteAt? s (pos + 2)).any isNameStart then
      named s .table (pos + 2)
    else if (byteAt? s (pos + 1)).any isNameStart then named s .column (pos + 1)
    else single s pos
  else if b = '#' then numberSign s pos
  else single s pos

variable {s : String} {pos : Nat} {rest : List Char}

theorem isNamePart_ascii {c : Char} (h : isNamePart c = true) : c.toNat < 128 := by
  rcases isNamePart_cases h with hrange | rfl
  · omega
  · decide

theorem cut_behind {cs : List Char} (h : Behind s pos (cs ++ rest)) :
    cut s pos (pos + byteLength cs) = some cs := by
  rw [cut, h.between, Option.map_some, String.toList_ofList]

theorem cut_rest (h : Behind s pos rest) : cut s pos s.utf8ByteSize = some rest := by
  rw [cut, h.through, Option.map_some, String.toList_ofList]

theorem nameEnd_stop (h : (byteAt? s pos).any isNamePart = false) : nameEnd s pos = pos := by
  rw [nameEnd]
  split
  · rfl
  · next b hb =>
    rw [hb, Option.any_some] at h
    rw [h]
    rfl

theorem nameEnd_step {b : Char} (hb : byteAt? s pos = some b) (h : isNamePart b = true) :
    nameEnd s pos = nameEnd s (pos + 1) := by
  rw [nameEnd]
  split
  · next hnone => rw [hb] at hnone; cases hnone
  · next b' hb' =>
    obtain rfl : b = b' := Option.some.inj (hb.symm.trans hb')
    rw [if_pos h]

theorem nameEnd_eq (h : Behind s pos rest) :
    nameEnd s pos = pos + byteLength (Token.name rest) := by
  induction rest generalizing pos with
  | nil => exact nameEnd_stop (by rw [h.byteAt_nil]; rfl)
  | cons c rest ih =>
    cases hc : isNamePart c with
    | false =>
      have hstop := h.byteAt_any fun d => isNamePart_ascii (c := d)
      rw [nameEnd_stop (hstop.trans hc), Token.name, List.takeWhile_cons_of_neg (by rw [hc]; decide)]
      rfl
    | true =>
      have hascii := isNamePart_ascii hc
      have hnext := h.cons
      rw [utf8Size_of_toNat_lt hascii] at hnext
      rw [nameEnd_step (h.byteAt_cons hascii) hc, ih hnext, Token.name, Token.name,
        List.takeWhile_cons_of_pos hc, byteLength_cons, utf8Size_of_toNat_lt hascii, Nat.add_assoc]

theorem quoteEnd_none {quote : Char} (h : byteAt? s pos = none) : quoteEnd s quote pos = pos := by
  rw [quoteEnd]
  split
  · rfl
  · next hb => rw [h] at hb; cases hb

theorem quoteEnd_some {quote b : Char} (hb : byteAt? s pos = some b) :
    quoteEnd s quote pos = if b = quote then pos + 1 else quoteEnd s quote (pos + 1) := by
  rw [quoteEnd]
  split
  · next hnone => rw [hb] at hnone; cases hnone
  · next b' hb' =>
    obtain rfl : b = b' := Option.some.inj (hb.symm.trans hb')
    rfl

theorem quoteEnd_eq {quote : Char} (hquote : quote.toNat < 128) (h : Behind s pos rest) :
    quoteEnd s quote pos = pos + byteLength (Token.throughQuote quote rest).1 := by
  induction rest generalizing pos with
  | nil => exact quoteEnd_none h.byteAt_nil
  | cons c rest ih =>
    rw [Token.throughQuote]
    rcases Nat.lt_or_ge c.toNat 128 with hc | hc
    · have hnext := h.cons
      rw [utf8Size_of_toNat_lt hc] at hnext
      rw [quoteEnd_some (h.byteAt_cons hc)]
      split
      · rw [byteLength_cons, utf8Size_of_toNat_lt hc, byteLength_nil]
      · rw [ih hnext, byteLength_cons, utf8Size_of_toNat_lt hc, Nat.add_assoc]
    · have hskip := h.skip hc (f := quoteEnd s quote) fun n d hd hwide =>
        (quoteEnd_some hd).trans (if_neg (ne_of_wide hwide hquote))
      rw [hskip, ih h.cons, if_neg (ne_of_wide hc hquote), byteLength_cons, Nat.add_assoc]

theorem parenEnd?_none {depth : Nat} (h : byteAt? s pos = none) :
    parenEnd? s depth pos = none := by
  rw [parenEnd?]
  split
  · rfl
  · next hb => rw [h] at hb; cases hb

theorem parenEnd?_some {depth : Nat} {b : Char} (hb : byteAt? s pos = some b) :
    parenEnd? s depth pos = if b = ')' ∧ depth = 0 then some (pos + 1)
      else parenEnd? s (if b = '(' then depth + 1 else if b = ')' then depth - 1 else depth)
        (pos + 1) := by
  rw [parenEnd?]
  split
  · next hnone => rw [hb] at hnone; cases hnone
  · next b' hb' =>
    obtain rfl : b = b' := Option.some.inj (hb.symm.trans hb')
    rfl

theorem parenEnd?_eq {depth : Nat} (h : Behind s pos rest) : parenEnd? s depth pos =
    (Token.throughParen? depth rest).map fun found => pos + byteLength found.1 + 1 := by
  induction rest generalizing pos depth with
  | nil => exact parenEnd?_none h.byteAt_nil
  | cons c rest ih =>
    rw [Token.throughParen?]
    rcases Nat.lt_or_ge c.toNat 128 with hc | hc
    · have hnext := h.cons
      rw [utf8Size_of_toNat_lt hc] at hnext
      rw [parenEnd?_some (h.byteAt_cons hc)]
      split
      · rfl
      · rw [ih hnext, Option.map_map]
        congr 1
        funext found
        simp only [Function.comp_apply, byteLength_cons, utf8Size_of_toNat_lt hc]
        omega
    · have hopen : c ≠ '(' := ne_of_wide hc (by decide)
      have hclose : c ≠ ')' := ne_of_wide hc (by decide)
      have hskip := h.skip hc (f := parenEnd? s depth) fun n d hd hwide => by
        have hopen : d ≠ '(' := ne_of_wide hwide (by decide)
        have hclose : d ≠ ')' := ne_of_wide hwide (by decide)
        rw [parenEnd?_some hd, if_neg fun hlast => hclose hlast.1, if_neg hopen, if_neg hclose]
      rw [hskip, ih h.cons, if_neg fun hlast => hclose hlast.1, if_neg hopen, if_neg hclose,
        Option.map_map]
      congr 1
      funext found
      simp only [Function.comp_apply, byteLength_cons]
      omega

/-- The token that stands at the offset is found up to the characters behind it, or its directive
is not closed. -/
inductive Found (s : String) (pos : Nat) :
    Token × List Char → Option (Except Fault (Token × Nat)) → Prop
  | token {token : Token} {behind : List Char} {stop : Nat} (hlt : pos < stop)
      (hbehind : Behind s stop behind) : Found s pos (token, behind) (some (.ok (token, stop)))
  | unclosed (d : Directive) (rest behind : List Char) :
      Found s pos (.unclosed d rest, behind) (some (.error (.unbalancedDirective s)))

variable {c : Char}

theorem found_append {cs : List Char} (hne : cs ≠ []) (h : Behind s pos (cs ++ rest))
    (token : Token) : Found s pos (token, rest) (some (.ok (token, pos + byteLength cs))) := by
  refine .token ?_ h.append
  obtain ⟨c, cs, rfl⟩ := List.exists_cons_of_ne_nil hne
  have := c.utf8Size_pos
  rw [byteLength_cons]
  omega

theorem quoted_found (hc : c.toNat < 128) (h : Behind s pos (c :: rest)) :
    Found s pos (.text (c :: (Token.throughQuote c rest).1), (Token.throughQuote c rest).2)
      (quoted s c pos) := by
  have hnext := h.cons
  rw [utf8Size_of_toNat_lt hc] at hnext
  have hsplit : (Token.throughQuote c rest).1 ++ (Token.throughQuote c rest).2 = rest := by
    rw [Token.throughQuote_eq, List.take_append_drop]
  rw [← hsplit, ← List.cons_append] at h
  have hstop : quoteEnd s c (pos + 1) =
      pos + byteLength (c :: (Token.throughQuote c rest).1) := by
    rw [quoteEnd_eq hc hnext, byteLength_cons, utf8Size_of_toNat_lt hc, Nat.add_assoc]
  have hcut := cut_behind h
  rw [← hstop] at hcut
  have hquoted : quoted s c pos =
      some (.ok (.text (c :: (Token.throughQuote c rest).1), quoteEnd s c (pos + 1))) := by
    simp only [quoted, hcut]
    rfl
  rw [hquoted, hstop]
  exact found_append (List.cons_ne_nil _ _) h _

theorem single_found (h : Behind s pos (c :: rest)) :
    Found s pos (.text [c], rest) (single s pos) := by
  have hsingle : single s pos = some (.ok (.text [c], pos + c.utf8Size)) := by
    simp only [single, cut_rest h]
    rfl
  rw [hsingle]
  exact .token (Nat.lt_add_of_pos_right c.utf8Size_pos) h.cons

theorem named_found {cs : List Char} (hne : cs ≠ []) (hcs : IsAscii cs)
    (h : Behind s pos (cs ++ rest)) (token : List Char → Token) :
    Found s pos (token (Token.name rest), Token.behindName rest)
      (named s token (pos + cs.length)) := by
  have hsplit : Token.name rest ++ Token.behindName rest = rest := List.takeWhile_append_dropWhile
  have hname := h.ascii hcs
  have hstop := nameEnd_eq hname
  have hcut := cut_behind
    (show Behind s (pos + cs.length) (Token.name rest ++ Token.behindName rest) by rwa [hsplit])
  rw [← hstop] at hcut
  have hnamed : named s token (pos + cs.length) =
      some (.ok (token (Token.name rest), nameEnd s (pos + cs.length))) := by
    simp only [named, hcut]
    rfl
  rw [hnamed, hstop, ← byteLength_ascii hcs, Nat.add_assoc, ← byteLength_append]
  refine found_append ?_ ?_ _
  · exact fun hnil => hne (List.append_eq_nil_iff.mp hnil).1
  · rwa [List.append_assoc, hsplit]

theorem directive_found (d : Directive) {cs : List Char} (hcs : IsAscii cs)
    (h : Behind s pos (cs ++ rest)) :
    Found s pos (Token.directive d rest) (directive s d (pos + cs.length)) := by
  have hbehind := h.ascii hcs
  have hparen : parenEnd? s 0 (pos + cs.length) = _ := parenEnd?_eq hbehind
  rw [Token.directive]
  cases hfound : Token.throughParen? 0 rest with
  | none =>
    rw [hfound] at hparen
    have hdirective : directive s d (pos + cs.length) = some (.error (.unbalancedDirective s)) := by
      simp only [directive, hparen]
      rfl
    rw [hdirective]
    exact .unclosed d rest []
  | some found =>
    obtain ⟨argument, behind⟩ := found
    obtain ⟨hrest, -⟩ := Token.nested_of_throughParen? hfound
    rw [hfound, Option.map_some] at hparen
    rw [hrest] at h hbehind
    have hcut := cut_behind hbehind
    have hminus : minus? (pos + cs.length + byteLength argument + 1) 1 =
        some (pos + cs.length + byteLength argument) := if_pos (Nat.le_add_left _ _)
    have hdirective : directive s d (pos + cs.length) =
        some (.ok (.opening d argument, pos + byteLength (cs ++ (argument ++ [')'])))) := by
      have hparenthesis : byteLength [')'] = 1 := rfl
      rw [byteLength_append, byteLength_append, byteLength_ascii hcs, hparenthesis, ← Nat.add_assoc,
        ← Nat.add_assoc]
      simp only [directive, hparen]
      rw [Checked.bind_some hminus, Checked.bind_some hcut]
      rfl
    rw [hdirective]
    refine found_append (by simp) ?_ _
    simpa using h

theorem isPrefixOf_numberSign {pattern cs : List Char} :
    (('#' :: pattern).isPrefixOf ('#' :: cs)) = (Text.stripStart? pattern cs).isSome := by
  rw [List.isPrefixOf, beq_self_eq_true, Bool.true_and, Text.stripStart?]
  cases pattern.isPrefixOf cs <;> rfl

theorem numberSign_found (h : Behind s pos ('#' :: rest)) :
    Found s pos (Token.next '#' rest) (numberSign s pos) := by
  have hascii (d : Directive) : IsAscii ('#' :: d.opening) := by cases d <;> decide
  have hdirective (d : Directive) {behind : List Char}
      (hstrip : Text.stripStart? d.opening rest = some behind) :
      Found s pos (Token.directive d behind) (directive s d (pos + ('#' :: d.opening).length)) := by
    refine directive_found d (hascii d) ?_
    rwa [List.cons_append, ← Token.eq_append_of_stripStart? hstrip]
  have hplain := single_found h
  have hend : "#end".toList = '#' :: "end".toList := by decide
  rw [numberSign, Checked.bind_some (cut_rest h), hend, Token.next, if_neg (by decide),
    if_neg (by decide), if_neg (by decide), if_pos rfl]
  simp only [isPrefixOf_numberSign]
  cases hif : Text.stripStart? Directive.ifTrue.opening rest with
  | some behind => exact hdirective .ifTrue hif
  | none =>
    cases hempty : Text.stripStart? Directive.notEmpty.opening rest with
    | some behind => exact hdirective .notEmpty hempty
    | none =>
      cases hstrip : Text.stripStart? "end".toList rest with
      | none => exact hplain
      | some behind =>
        have hword : Behind s pos ("#end".toList ++ behind) := by
          rwa [hend, List.cons_append, ← Token.eq_append_of_stripStart? hstrip]
        have hbehind : Behind s (pos + 4) behind := hword.ascii (by decide)
        dsimp only
        rw [hbehind.byteAt_any fun d => isNamePart_ascii (c := d)]
        cases hname : behind.head?.any isNamePart with
        | true => exact hplain
        | false => exact found_append (by decide) hword .closing

theorem isNameStart_ascii {c : Char} (h : isNameStart c = true) : c.toNat < 128 :=
  isNamePart_ascii (isNamePart_of_isNameStart h)

theorem colon_found (h : Behind s pos (':' :: rest)) :
    Found s pos (Token.next ':' rest) (next s pos ':') := by
  have hbehind : Behind s (pos + 1) rest := h.cons
  have hpeek := hbehind.byteAt_iff (d := ':') (by decide)
  have hname : (byteAt? s (pos + 1)).any isNameStart = Token.startsName rest :=
    hbehind.byteAt_any fun d => isNameStart_ascii
  have hnext : next s pos ':' =
      if byteAt? s (pos + 1) = some ':' then return (.text [':', ':'], pos + 2)
      else if (byteAt? s (pos + 1)).any isNameStart then named s .param (pos + 1)
      else single s pos := rfl
  have htoken : Token.next ':' rest =
      if rest.head? = some ':' then (.text [':', ':'], rest.tail)
      else if Token.startsName rest then (.param (Token.name rest), Token.behindName rest)
      else (.text [':'], rest) := rfl
  rw [hnext, htoken, hname]
  simp only [hpeek]
  split
  · next hcolon =>
    obtain ⟨behind, rfl⟩ := List.head?_eq_some_iff.mp hcolon
    exact found_append (by decide) (show Behind s pos ([':', ':'] ++ behind) from h) _
  split
  · exact named_found (by decide) (by decide) (show Behind s pos ([':'] ++ rest) from h) _
  · exact single_found h

theorem at_found (h : Behind s pos ('@' :: rest)) :
    Found s pos (Token.next '@' rest) (next s pos '@') := by
  have hbehind : Behind s (pos + 1) rest := h.cons
  have hname : (byteAt? s (pos + 1)).any isNameStart = Token.startsName rest :=
    hbehind.byteAt_any fun d => isNameStart_ascii
  have hpeek : (byteAt? s (pos + 1) = some '@' ∧ (byteAt? s (pos + 2)).any isNameStart) ↔
      (rest.head? = some '@' ∧ Token.startsName rest.tail) := by
    rw [hbehind.byteAt_iff (by decide)]
    refine and_congr_right fun hat => ?_
    obtain ⟨tail, rfl⟩ := List.head?_eq_some_iff.mp hat
    have htail : Behind s (pos + 2) tail := hbehind.cons
    rw [htail.byteAt_any fun d => isNameStart_ascii]
    rfl
  have hnext : next s pos '@' =
      if byteAt? s (pos + 1) = some '@' ∧ (byteAt? s (pos + 2)).any isNameStart then
        named s .table (pos + 2)
      else if (byteAt? s (pos + 1)).any isNameStart then named s .column (pos + 1)
      else single s pos := rfl
  have htoken : Token.next '@' rest =
      if rest.head? = some '@' ∧ Token.startsName rest.tail then
        (.table (Token.name rest.tail), Token.behindName rest.tail)
      else if Token.startsName rest then (.column (Token.name rest), Token.behindName rest)
      else (.text ['@'], rest) := rfl
  rw [hnext, htoken, hname]
  simp only [hpeek]
  split
  · next htable =>
    obtain ⟨tail, rfl⟩ := List.head?_eq_some_iff.mp htable.1
    exact named_found (by decide) (by decide) (show Behind s pos (['@', '@'] ++ tail) from h) _
  split
  · exact named_found (by decide) (by decide) (show Behind s pos (['@'] ++ rest) from h) _
  · exact single_found h

def marks : List Char := ['\'', '"', ':', '@', '#']

theorem not_mark_of_wide {c : Char} (h : 128 ≤ c.toNat) : c ∉ marks := by
  have hmarks : IsAscii marks := by decide
  exact fun hmem => Nat.not_le_of_lt (hmarks c hmem) h

theorem next_single (s : String) (pos : Nat) (rest : List Char) {b : Char} (h : b ∉ marks) :
    next s pos b = single s pos ∧ Token.next b rest = (.text [b], rest) := by
  simp only [marks, List.mem_cons, List.not_mem_nil, or_false, not_or] at h
  obtain ⟨hsingle, hdouble, hcolon, hat, hsign⟩ := h
  constructor
  · rw [next, if_neg (not_or.mpr ⟨hsingle, hdouble⟩), if_neg hcolon, if_neg hat, if_neg hsign]
  · rw [Token.next, if_neg (not_or.mpr ⟨hsingle, hdouble⟩), if_neg hcolon, if_neg hat,
      if_neg hsign]

/-- The scanner finds the token that the characters begin with. -/
theorem next_found {b : Char} (h : Behind s pos (c :: rest)) (hb : byteAt? s pos = some b) :
    Found s pos (Token.next c rest) (next s pos b) := by
  rcases Nat.lt_or_ge c.toNat 128 with hc | hc
  · obtain rfl : c = b := Option.some.inj ((h.byteAt_cons hc).symm.trans hb)
    by_cases hquote : c = '\'' ∨ c = '"'
    · rw [Token.next_quote hquote, next, if_pos hquote]
      exact quoted_found hc h
    by_cases hmarks : c ∈ [':', '@', '#']
    · simp only [List.mem_cons, List.not_mem_nil, or_false] at hmarks
      rcases hmarks with rfl | rfl | rfl
      · exact colon_found h
      · exact at_found h
      · exact numberSign_found h
    · obtain ⟨hnext, htoken⟩ := next_single s pos rest
        (show c ∉ marks by simpa [marks, not_or, and_assoc] using And.intro hquote hmarks)
      rw [hnext, htoken]
      exact single_found h
  · -- A byte of a wide character is no marker, and neither is the character.
    obtain ⟨d, hd, hwide⟩ := h.byteAt_wide hc c.utf8Size_pos
    obtain rfl : d = b := Option.some.inj (hd.symm.trans hb)
    rw [(next_single s pos rest (not_mark_of_wide hwide)).1,
      (next_single s pos rest (not_mark_of_wide hc)).2]
    exact single_found h

theorem isBoundary_of_single {found : Except Fault (Token × Nat)}
    (h : single s pos = some found) : IsBoundary s pos := by
  cases hcut : between? s pos s.utf8ByteSize with
  | none =>
    rw [single, cut, hcut] at h
    cases h
  | some rest =>
    rw [between?] at hcut
    split at hcut
    · next hbounds => exact hbounds.2.1
    · cases hcut

theorem next_advances {b : Char} {token : Token} {stop : Nat} (hb : byteAt? s pos = some b)
    (h : next s pos b = some (.ok (token, stop))) : pos < stop ∧ IsBoundary s stop := by
  have hboundary : IsBoundary s pos := by
    rcases Nat.lt_or_ge b.toNat 128 with hnarrow | hwide
    · exact isBoundary_of_byteAt? hb hnarrow
    · rw [(next_single s pos [] (not_mark_of_wide hwide)).1] at h
      exact isBoundary_of_single h
  obtain ⟨rest, hrest⟩ := exists_behind hboundary
  cases rest with
  | nil =>
    rw [hrest.byteAt_nil] at hb
    cases hb
  | cons c rest =>
    have hfound := next_found hrest hb
    rw [h] at hfound
    generalize Token.next c rest = first at hfound
    cases hfound with
    | token hlt hbehind => exact ⟨hlt, hbehind.isBoundary⟩

end Scanner

end DataAccess
