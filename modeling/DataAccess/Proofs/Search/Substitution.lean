import DataAccess.Proofs.Search.Written
import Mathlib.Data.List.Forall2

/-!
# Names replaced by what they stand for

Written text is split at its parameters. Prepared, it is the text itself with a placeholder in
the place of every parameter, numbered on from those before it, and the values in the order of
the parameters.
-/

set_option autoImplicit false

namespace DataAccess

namespace Text

/-- The text with the table's name in the place of every `@@` and the name behind it, and the
placeholder that is next in the place of every colon and the name behind it. The first `used`
placeholders are taken. -/
def substituted (flavor : Flavor) (table : String) (used : Nat) : List Char → List Char
  | [] => []
  | c :: rest =>
    if c = ':' ∧ rest.head?.any isNameStart then
      (flavor.placeholder (used + 1)).toList ++
        substituted flavor table (used + 1) (rest.dropWhile isNamePart)
    else if c = '@' ∧ rest.head? = some '@' ∧ rest.tail.head?.any isNameStart then
      table.toList ++ substituted flavor table used (rest.tail.dropWhile isNamePart)
    else c :: substituted flavor table used rest
termination_by cs => cs.length
decreasing_by
  · exact Nat.lt_succ_of_le (Token.behindName_length rest)
  · exact Nat.lt_succ_of_le (Nat.le_trans (Token.behindName_length _) (by simp))
  · exact Nat.lt_succ_self _

variable {flavor : Flavor} {table : String} {used : Nat} {cs rest : List Char}
  {names : List String}

def Silent (c : Char) : Prop := c ≠ ':' ∧ c ≠ '@'

theorem silent_of_isPlain {c : Char} (h : isPlain c = true) : Silent c := by
  constructor <;> (rintro rfl; cases h)

theorem quoted_append (name cs : List Char) :
    '"' :: (name ++ '"' :: cs) = '"' :: (name ++ ['"']) ++ cs := by
  rw [List.cons_append, List.append_assoc]
  rfl

theorem silent_quoted {name : List Char} (hname : isName name = true) :
    ∀ c ∈ '"' :: (name ++ ['"']), Silent c := by
  have hquote : Silent '"' := ⟨by decide, by decide⟩
  intro c hc
  simp only [List.mem_cons, List.mem_append, List.not_mem_nil, or_false] at hc
  rcases hc with rfl | hc | rfl
  · exact hquote
  · exact silent_of_isPlain (isPlain_of_isNamePart (List.all_eq_true.mp (all_of_isName hname) c hc))
  · exact hquote

theorem substituted_silent {part : List Char} (h : ∀ c ∈ part, Silent c) (rest : List Char) :
    substituted flavor table used (part ++ rest) =
      part ++ substituted flavor table used rest := by
  induction part with
  | nil => rfl
  | cons c part ih =>
    rw [List.forall_mem_cons] at h
    rw [List.cons_append, substituted, if_neg fun hmark => h.1.1 hmark.1,
      if_neg fun hmark => h.1.2 hmark.1, ih h.2, List.cons_append]

theorem substituted_param {name : List Char} (hname : isName name = true) (hend : EndsName rest) :
    substituted flavor table used (':' :: (name ++ rest)) =
      (flavor.placeholder (used + 1)).toList ++ substituted flavor table (used + 1) rest := by
  obtain ⟨hstarts, -, -⟩ := Token.name_append hname hend
  rw [substituted, if_pos ⟨rfl, hstarts⟩, dropWhile_append_eq (all_of_isName hname) hend]

theorem substituted_table {name : List Char} (hname : isName name = true) (hend : EndsName rest) :
    substituted flavor table used ('@' :: '@' :: (name ++ rest)) =
      table.toList ++ substituted flavor table used rest := by
  obtain ⟨hstarts, -, -⟩ := Token.name_append hname hend
  rw [substituted, if_neg fun hmark => absurd hmark.1 (by decide), if_pos ⟨rfl, rfl, hstarts⟩,
    List.tail_cons, dropWhile_append_eq (all_of_isName hname) hend]

theorem substituted_written (h : Written cs names) (hend : EndsName rest) :
    substituted flavor table used (cs ++ rest) = substituted flavor table used cs ++
      substituted flavor table (used + names.length) rest := by
  have hpart {used : Nat} {part cs : List Char} {names : List String}
      (hsilent : ∀ c ∈ part, Silent c)
      (ih : substituted flavor table used (cs ++ rest) = substituted flavor table used cs ++
        substituted flavor table (used + names.length) rest) :
      substituted flavor table used (part ++ cs ++ rest) =
        substituted flavor table used (part ++ cs) ++
          substituted flavor table (used + names.length) rest := by
    rw [List.append_assoc, substituted_silent hsilent, substituted_silent hsilent, ih,
      List.append_assoc]
  induction h generalizing used with
  | nil => simp [substituted]
  | @plain c cs names hc hcs ih =>
    have hsilent : ∀ d ∈ [c], Silent d := by simpa using silent_of_isPlain hc
    exact hpart hsilent ih
  | @quoted name cs names hname hcs ih =>
    rw [quoted_append]
    exact hpart (silent_quoted hname) ih
  | @param name cs names hname hends hcs ih =>
    rw [List.cons_append, List.append_assoc, substituted_param hname (endsName_append hends hend),
      substituted_param hname hends, ih, List.append_assoc, List.length_cons, Nat.add_assoc,
      Nat.add_comm 1]

example : substituted .oracle "TB_2" 0 "select \"ID\" from @@b where a = :a_0 or c > :c_0".toList =
    "select \"ID\" from TB_2 where a = :1 or c > :2".toList := by decide +kernel

end Text

open Text

namespace Token

theorem begins_isPlain {c : Char} {rest : List Char} (h : isPlain c = true) :
    Begins (c :: rest) (text [c]) rest := by
  apply Begins.plain
  intro hmarked
  generalize hcs : c :: rest = cs at hmarked
  cases hmarked with
  | quote rest hq =>
    cases hcs
    rcases hq with rfl | rfl <;> cases h
  | colons | param | table | column | opening | closing =>
    cases hcs
    cases h

theorem begins_quoted {name : List Char} (hname : isName name = true) (rest : List Char) :
    Begins ('"' :: (name ++ ['"']) ++ rest) (text ('"' :: (name ++ ['"']))) rest := by
  rw [← quoted_append]
  refine .quoted (.inr rfl) ?_
  intro hmem
  cases List.all_eq_true.mp (all_of_isName hname) '"' hmem

end Token

namespace Block

/-- The block is prepared as the text in front of it, with the values of the names, and then as
the next block. -/
structure Leads (cs : List Char) (names : List String) (next b : Block) : Prop where
  paramNames : b.paramNames = names ++ next.paramNames
  prepare : ∀ (flavor : Flavor) (values : Dict Value) (condition : Option TableCondition)
    (bound : List Value) (table : String) (out : Prepared),
    List.Forall₂ (fun name v => values.get? name = some v) names bound →
    b.prepare flavor values condition out = next.prepare flavor values condition
      ⟨out.sql ++ String.ofList (substituted flavor table out.params.length cs),
        out.params ++ bound⟩

variable {registry : Registry} {owner : Mapping} {source : String} {depth : Nat}
  {cs rest : List Char} {names : List String} {next : Block} {outer : List Block}

theorem leads_text {part : List Char} (hpart : ∀ c ∈ part, Silent c) {b : Block}
    (h : Leads cs names next b) :
    Leads (part ++ cs) names next (text (String.ofList part) b) where
  paramNames := h.paramNames
  prepare flavor values condition bound table out hbound := by
    rw [Block.prepare, h.prepare flavor values condition bound table _ hbound,
      substituted_silent hpart, String.ofList_append, String.append_assoc]

theorem leads_param {name : String} (hname : isName name.toList = true) (hend : EndsName cs)
    {b : Block} (h : Leads cs names next b) :
    Leads (':' :: (name.toList ++ cs)) (name :: names) next (param name b) where
  paramNames := congrArg (name :: ·) h.paramNames
  prepare flavor values condition bound table out hbound := by
    cases hbound with
    | @cons _ v _ bound hv hrest =>
      rw [Block.prepare, hv]
      dsimp only
      rw [h.prepare flavor values condition bound table _ hrest, substituted_param hname hend]
      simp [String.append_assoc]

theorem build_written (h : Written cs names) (hend : EndsName rest)
    (hnext : build registry owner source depth (Token.scan rest) = .ok (next, outer)) :
    ∃ b, build registry owner source depth (Token.scan (cs ++ rest)) = .ok (b, outer) ∧
      Leads cs names next b := by
  have hpart {part cs : List Char} {names : List String} (hsilent : ∀ c ∈ part, Silent c)
      (hbegins : Token.Begins (part ++ (cs ++ rest)) (.text part) (cs ++ rest))
      (ih : ∃ b, build registry owner source depth (Token.scan (cs ++ rest)) = .ok (b, outer) ∧
        Leads cs names next b) :
      ∃ b, build registry owner source depth (Token.scan (part ++ cs ++ rest)) = .ok (b, outer) ∧
        Leads (part ++ cs) names next b := by
    obtain ⟨b, hb, hleads⟩ := ih
    refine ⟨text (String.ofList part) b, ?_, leads_text hsilent hleads⟩
    rw [List.append_assoc, Token.scan_of_begins hbegins, build, hb]
    rfl
  induction h with
  | nil =>
    refine ⟨next, hnext, rfl, ?_⟩
    intro flavor values condition bound table out hbound
    cases hbound
    simp [substituted]
  | @plain c cs names hc hcs ih =>
    have hsilent : ∀ d ∈ [c], Silent d := by simpa using silent_of_isPlain hc
    exact hpart hsilent (Token.begins_isPlain hc) ih
  | @quoted name cs names hname hcs ih =>
    rw [quoted_append]
    exact hpart (silent_quoted hname) (Token.begins_quoted hname _) ih
  | @param name cs names hname hends hcs ih =>
    obtain ⟨b, hb, hleads⟩ := ih
    refine ⟨param name b, ?_, leads_param hname hends hleads⟩
    have hbegins := Token.Begins.param hname (endsName_append hends hend)
    rw [List.cons_append, List.append_assoc, Token.scan_of_begins hbegins, build, hb,
      String.ofList_toList]
    rfl

end Block

end DataAccess
