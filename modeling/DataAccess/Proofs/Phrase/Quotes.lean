import DataAccess.Magazine
import DataAccess.Proofs.Computation
import DataAccess.Proofs.Template.Assignments
import DataAccess.Proofs.Template.Splitting
import DataAccess.Search
import Mathlib.Data.List.Forall2

/-!
# Quotes in phrases

A phrase is read from left to right as parts in quotes, whole identifiers and single characters. It
is written with single quotes for its only quotes, while the text that it becomes a part of is read
with double ones too. Both readings come to the same where nothing in double quotes is a property;
a property in double quotes becomes its column.
-/

set_option autoImplicit false

namespace DataAccess

theorem Text.joined_empty_cons (s : String) (parts : List String) :
    joined "" (s :: parts) = s ++ joined "" parts := by
  cases parts with
  | nil => exact String.append_empty.symm
  | cons part parts => rw [joined_cons "" s (List.cons_ne_nil part parts), String.append_empty]

theorem Text.joined_empty_append (parts more : List String) :
    joined "" (parts ++ more) = joined "" parts ++ joined "" more := by
  induction parts with
  | nil => exact String.empty_append.symm
  | cons part parts ih =>
    rw [List.cons_append, joined_empty_cons, joined_empty_cons, ih, String.append_assoc]

namespace Phrase

def singleQuote : List Char := ['\'']

def bothQuotes : List Char := ['\'', '"']

/-- What a phrase begins with under these quotes, and the text behind it. A quoted part goes on to
the next occurrence of its quote or to the end, and a name as far as it can. -/
inductive Begins (quotes : List Char) : List Char → Piece → List Char → Prop
  | quoted {q : Char} {inner rest : List Char} (hq : q ∈ quotes) (hinner : q ∉ inner) :
      Begins quotes (q :: (inner ++ q :: rest)) (.literal (q :: (inner ++ [q]))) rest
  | quotedToEnd {q : Char} {inner : List Char} (hq : q ∈ quotes) (hinner : q ∉ inner) :
      Begins quotes (q :: inner) (.literal (q :: inner)) []
  | word {name rest : List Char} (hname : Text.isName name = true) (hend : Text.EndsName rest) :
      Begins quotes (name ++ rest) (.word name) rest
  | other {c : Char} {rest : List Char} (hquote : c ∉ quotes)
      (hstart : Text.isNameStart c = false) : Begins quotes (c :: rest) (.literal [c]) rest

/-- The pieces of a phrase, from its beginning to its end. -/
inductive Reads (quotes : List Char) : List Char → List Piece → Prop
  | nil : Reads quotes [] []
  | cons {cs rest : List Char} {p : Piece} {ps : List Piece} (hfirst : Begins quotes cs p rest)
      (hrest : Reads quotes rest ps) : Reads quotes cs (p :: ps)

inductive Piece.Becomes (m : Mapping) : Piece → String → Prop
  | literal (cs : List Char) : Piece.Becomes m (.literal cs) (String.ofList cs)
  | property {name : List Char} {column : String}
      (h : m.sqlName? (String.ofList name) = some column) : Piece.Becomes m (.word name) column
  | word {name : List Char} (h : m.sqlName? (String.ofList name) = none) :
      Piece.Becomes m (.word name) (String.ofList name)

def Translates (quotes : List Char) (m : Mapping) (phrase out : String) : Prop :=
  ∃ ps parts, Reads quotes phrase.toList ps ∧ List.Forall₂ (Piece.Becomes m) ps parts ∧
    out = Text.joined "" parts

section
variable {quotes : List Char} (hquotes : ∀ q ∈ quotes, Text.isNameStart q = false)

theorem exists_begins (quotes : List Char) (c : Char) (cs : List Char) :
    ∃ p rest, Begins quotes (c :: cs) p rest := by
  by_cases hq : c ∈ quotes
  · rcases Token.throughQuote_cases c cs with ⟨inner, rest, hinner, rfl⟩ | hinner
    · exact ⟨_, _, .quoted hq hinner⟩
    · exact ⟨_, _, .quotedToEnd hq hinner⟩
  cases hstart : Text.isNameStart c with
  | true =>
    have hstarts : Token.startsName (c :: cs) = true := hstart
    obtain ⟨hname, hend, hsplit⟩ := Token.exists_name hstarts
    rw [hsplit]
    exact ⟨_, _, .word hname hend⟩
  | false => exact ⟨_, _, .other hq hstart⟩

theorem begins_cons {cs rest : List Char} {p : Piece} (h : Begins quotes cs p rest) :
    ∃ c tail, cs = c :: tail := by
  cases h with
  | @word name rest hname hend =>
    cases name with
    | nil => cases hname
    | cons c name => exact ⟨c, _, rfl⟩
  | _ => exact ⟨_, _, rfl⟩

include hquotes

theorem begins_eq {c : Char} {cs rest : List Char} {p : Piece}
    (h : Begins quotes (c :: cs) p rest) : (p, rest) =
      if c ∈ quotes then
        (.literal (c :: (Token.throughQuote c cs).1), (Token.throughQuote c cs).2)
      else if Text.isNameStart c then (.word (c :: Token.name cs), Token.behindName cs)
      else (.literal [c], cs) := by
  generalize hall : c :: cs = all at h
  cases h with
  | quoted hq hinner =>
    cases hall
    rw [if_pos hq, Token.throughQuote_quoted hinner]
  | quotedToEnd hq hinner =>
    cases hall
    rw [if_pos hq, Token.throughQuote_toEnd hinner]
  | word hname hend =>
    obtain ⟨hstarts, hword, hbehind⟩ := Token.name_append hname hend
    rw [← hall] at hstarts hword hbehind
    have hstart : Text.isNameStart c = true := hstarts
    have hpart := Text.isNamePart_of_isNameStart hstart
    have hq : c ∉ quotes := fun hm => by
      rw [hquotes c hm] at hstart
      cases hstart
    rw [if_neg hq, if_pos hstart, ← hword, ← hbehind, Token.name, Token.behindName,
      List.takeWhile_cons_of_pos hpart, List.dropWhile_cons_of_pos hpart]
    rfl
  | other hquote hstart =>
    cases hall
    rw [if_neg hquote, hstart, if_neg Bool.false_ne_true]

theorem begins_length {c : Char} {cs rest : List Char} {p : Piece}
    (h : Begins quotes (c :: cs) p rest) : rest.length ≤ cs.length := by
  have hrest := congrArg Prod.snd (begins_eq hquotes h)
  split at hrest
  · rw [show rest = _ from hrest]
    exact Token.throughQuote_length c cs
  split at hrest
  · rw [show rest = _ from hrest]
    exact Token.behindName_length cs
  · exact Nat.le_of_eq (congrArg List.length hrest)

theorem exists_reads (cs : List Char) : ∃ ps, Reads quotes cs ps := by
  match cs with
  | [] => exact ⟨[], .nil⟩
  | c :: cs =>
    obtain ⟨p, rest, hfirst⟩ := exists_begins quotes c cs
    have hshorter := begins_length hquotes hfirst
    obtain ⟨ps, hrest⟩ := exists_reads rest
    exact ⟨p :: ps, .cons hfirst hrest⟩
termination_by cs.length

theorem reads_unique {cs : List Char} {ps qs : List Piece} (h : Reads quotes cs ps)
    (h' : Reads quotes cs qs) : ps = qs := by
  induction h generalizing qs with
  | nil =>
    cases h' with
    | nil => rfl
    | cons hfirst _ =>
      obtain ⟨c, tail, hnil⟩ := begins_cons hfirst
      cases hnil
  | cons hfirst hrest ih =>
    obtain ⟨c, tail, rfl⟩ := begins_cons hfirst
    cases h' with
    | cons hfirst' hrest' =>
      have hsame := (begins_eq hquotes hfirst).trans (begins_eq hquotes hfirst').symm
      cases hsame
      rw [ih hrest']

end

theorem singleQuote_noName : ∀ q ∈ singleQuote, Text.isNameStart q = false := by
  intro q hq
  obtain rfl := List.mem_singleton.mp hq
  rfl

theorem bothQuotes_noName : ∀ q ∈ bothQuotes, Text.isNameStart q = false := by
  intro q hq
  rcases List.mem_pair.mp hq with rfl | rfl <;> rfl

theorem reads_pieces (cs : List Char) : Reads singleQuote cs (pieces cs) := by
  induction cs using pieces.induct with
  | case1 =>
    rw [pieces]
    exact .nil
  | case2 c rest ih =>
    obtain ⟨p, behind, hfirst⟩ := exists_begins singleQuote c rest
    have hnext : (p, behind) = next c rest := by
      rw [begins_eq singleQuote_noName hfirst, next]
      simp only [singleQuote, List.mem_singleton]
    rw [pieces, ← hnext]
    rw [← hnext] at ih
    exact .cons hfirst ih

theorem becomes_iff {m : Mapping} (p : Piece) (out : String) :
    p.Becomes m out ↔ out = p.sql m := by
  constructor
  · intro h
    cases h with
    | literal cs => rfl
    | property h | word h =>
      rw [Piece.sql, h]
      rfl
  · rintro rfl
    cases p with
    | literal cs => exact .literal cs
    | word name =>
      rw [Piece.sql]
      cases h : m.sqlName? (String.ofList name) with
      | none => exact .word h
      | some column => exact .property h

def written (m : Mapping) (ps : List Piece) : String := Text.joined "" (ps.map (Piece.sql m))

theorem written_cons (m : Mapping) (p : Piece) (ps : List Piece) :
    written m (p :: ps) = p.sql m ++ written m ps := Text.joined_empty_cons _ _

theorem written_append (m : Mapping) (ps qs : List Piece) :
    written m (ps ++ qs) = written m ps ++ written m qs := by
  rw [written, List.map_append, Text.joined_empty_append]
  rfl

theorem becomes_all_iff {m : Mapping} (ps : List Piece) (parts : List String) :
    List.Forall₂ (Piece.Becomes m) ps parts ↔ parts = ps.map (Piece.sql m) := by
  induction ps generalizing parts with
  | nil => rw [List.forall₂_nil_left_iff, List.map_nil]
  | cons p ps ih =>
    rw [List.forall₂_cons_left_iff, List.map_cons]
    simp only [becomes_iff, ih]
    constructor
    · rintro ⟨_, _, rfl, rfl, rfl⟩
      rfl
    · rintro rfl
      exact ⟨_, _, rfl, rfl, rfl⟩

theorem translates_iff {quotes : List Char} {m : Mapping} {phrase out : String} :
    Translates quotes m phrase out ↔
      ∃ ps, Reads quotes phrase.toList ps ∧ out = written m ps := by
  refine exists_congr fun ps => ?_
  simp only [becomes_all_iff]
  constructor
  · rintro ⟨_, hreads, rfl, rfl⟩
    exact ⟨hreads, rfl⟩
  · rintro ⟨hreads, rfl⟩
    exact ⟨_, hreads, rfl, rfl⟩

theorem translates_of_reads {quotes : List Char}
    (hquotes : ∀ q ∈ quotes, Text.isNameStart q = false) {m : Mapping} {phrase : String}
    {ps : List Piece} (h : Reads quotes phrase.toList ps) (out : String) :
    Translates quotes m phrase out ↔ out = written m ps := by
  rw [translates_iff]
  constructor
  · rintro ⟨qs, hqs, rfl⟩
    rw [reads_unique hquotes h hqs]
  · rintro rfl
    exact ⟨ps, h, rfl⟩

theorem translates_single (m : Mapping) (phrase out : String) :
    Translates singleQuote m phrase out ↔ out = inColumns m phrase :=
  translates_of_reads singleQuote_noName (reads_pieces phrase.toList) out

/-- No single quote, and no name that is a property under another name of its column. -/
structure Undisturbed (m : Mapping) (inner : List Char) : Prop where
  unquoted : '\'' ∉ inner
  kept : ∀ ps, Reads singleQuote inner ps → ∀ name, .word name ∈ ps →
    ∀ column, m.sqlName? (String.ofList name) = some column → column = String.ofList name

/-- Every part of the phrase in double quotes is undisturbed, the closing quote included. -/
def QuotesUndisturbed (m : Mapping) (phrase : String) : Prop :=
  ∀ ps, Reads bothQuotes phrase.toList ps → ∀ inner, .literal ('"' :: inner) ∈ ps →
    Undisturbed m inner

theorem reads_append {front back : List Char} {ps qs : List Piece}
    (hfront : Reads singleQuote front ps) (hquote : '\'' ∉ front) (hend : Text.EndsName back)
    (hback : Reads singleQuote back qs) : Reads singleQuote (front ++ back) (ps ++ qs) := by
  induction hfront with
  | nil => exact hback
  | @cons cs rest p ps hfirst hrest ih =>
    cases hfirst with
    | quoted hq hinner | quotedToEnd hq hinner =>
      rw [List.mem_singleton.mp hq] at hquote
      exact absurd (List.mem_cons_self ..) hquote
    | @word name rest hname hends =>
      rw [List.append_assoc]
      have hends' : Text.EndsName (rest ++ back) := by
        cases rest with
        | nil => exact hend
        | cons c rest => exact hends
      exact .cons (.word hname hends') (ih fun hm => hquote (List.mem_append_right _ hm))
    | other hc hstart =>
      exact .cons (.other hc hstart) (ih fun hm => hquote (List.mem_cons_of_mem _ hm))

theorem written_kept {m : Mapping} {quotes cs : List Char} {ps : List Piece}
    (h : Reads quotes cs ps) (hkept : ∀ name, .word name ∈ ps →
      ∀ column, m.sqlName? (String.ofList name) = some column → column = String.ofList name) :
    written m ps = String.ofList cs := by
  induction h with
  | nil => rfl
  | @cons cs rest p ps hfirst hrest ih =>
    have hpiece : p.sql m ++ String.ofList rest = String.ofList cs := by
      cases hfirst with
      | word hname hend =>
        have hword := hkept _ (List.mem_cons_self ..)
        rw [Piece.sql, String.ofList_append]
        cases hcolumn : m.sqlName? _ with
        | none => rfl
        | some column =>
          rw [hword column hcolumn]
          rfl
      | _ =>
        rw [Piece.sql, ← String.ofList_append]
        exact congrArg String.ofList (by simp)
    rw [written_cons, ih fun name hm => hkept name (List.mem_cons_of_mem _ hm), hpiece]

theorem reads_mark {cs : List Char} {ps : List Piece} (h : Reads singleQuote cs ps) :
    Reads singleQuote ('"' :: cs) (.literal ['"'] :: ps) :=
  .cons (.other (by decide) (by decide)) h

theorem undisturbed_init {m : Mapping} {inner : List Char} (h : Undisturbed m (inner ++ ['"'])) :
    Undisturbed m inner := by
  have hquote : '\'' ∉ inner := fun hm => h.unquoted (List.mem_append_left _ hm)
  refine ⟨hquote, fun ps hps name hname => ?_⟩
  have hend : Text.EndsName ['"'] := rfl
  have hall := reads_append hps hquote hend (reads_mark .nil)
  exact h.kept _ hall name (List.mem_append_left _ hname)

theorem reads_undisturbed {m : Mapping} {inner rest : List Char} (h : Undisturbed m inner)
    (hend : Text.EndsName rest) {qs : List Piece} (hqs : Reads singleQuote rest qs) :
    ∃ ps, Reads singleQuote ('"' :: (inner ++ rest)) ps ∧
      written m ps = String.ofList ('"' :: inner) ++ written m qs := by
  obtain ⟨ps, hps⟩ := exists_reads singleQuote_noName inner
  refine ⟨_, reads_mark (reads_append hps h.unquoted hend hqs), ?_⟩
  rw [written_cons, written_append, written_kept hps (h.kept ps hps), Piece.sql,
    ← String.append_assoc, ← String.ofList_append]
  rfl

/-- Where the parts in double quotes are undisturbed, both readings are written alike. -/
theorem reads_both {m : Mapping} {cs : List Char} {ps : List Piece} (h : Reads bothQuotes cs ps)
    (hdoubles : ∀ inner, .literal ('"' :: inner) ∈ ps → Undisturbed m inner) :
    ∃ qs, Reads singleQuote cs qs ∧ written m qs = written m ps := by
  induction h with
  | nil => exact ⟨[], .nil, rfl⟩
  | @cons cs rest p ps hfirst hrest ih =>
    obtain ⟨qs, hqs, hwritten⟩ := ih fun inner hm => hdoubles inner (List.mem_cons_of_mem _ hm)
    have halike {cs' : List Char} (hsingle : Begins singleQuote cs' p rest) :
        ∃ qs, Reads singleQuote cs' qs ∧ written m qs = written m (p :: ps) :=
      ⟨p :: qs, .cons hsingle hqs, by rw [written_cons, written_cons, hwritten]⟩
    cases hfirst with
    | @quoted q inner rest hq hinner =>
      rcases List.mem_pair.mp hq with rfl | rfl
      · exact halike (.quoted (List.mem_singleton_self _) hinner)
      · have hinit := undisturbed_init (hdoubles _ (List.mem_cons_self ..))
        have hend : Text.EndsName ('"' :: rest) := rfl
        obtain ⟨all, hall, heq⟩ := reads_undisturbed hinit hend (reads_mark hqs)
        refine ⟨all, hall, ?_⟩
        rw [heq, written_cons, written_cons, hwritten, Piece.sql, Piece.sql,
          ← String.append_assoc, ← String.ofList_append]
        rfl
    | @quotedToEnd q inner hq hinner =>
      rcases List.mem_pair.mp hq with rfl | rfl
      · exact halike (.quotedToEnd (List.mem_singleton_self _) hinner)
      · have hend : Text.EndsName [] := rfl
        have hinner := hdoubles inner (List.mem_cons_self ..)
        obtain ⟨all, hall, heq⟩ := reads_undisturbed hinner hend hqs
        rw [List.append_nil] at hall
        exact ⟨all, hall, by rw [heq, written_cons, hwritten, Piece.sql]⟩
    | word hname hend => exact halike (.word hname hend)
    | @other c rest hc hstart =>
      have hsingle : c ∉ singleQuote := fun hm =>
        hc (List.mem_pair.mpr (.inl (List.mem_singleton.mp hm)))
      exact halike (.other hsingle hstart)

theorem translates_both {m : Mapping} {phrase : String} (h : QuotesUndisturbed m phrase)
    (out : String) : Translates bothQuotes m phrase out ↔ out = inColumns m phrase := by
  obtain ⟨ps, hps⟩ := exists_reads bothQuotes_noName phrase.toList
  obtain ⟨qs, hqs, hwritten⟩ := reads_both hps (h ps hps)
  rw [translates_of_reads bothQuotes_noName hps, ← hwritten,
    ← translates_of_reads singleQuote_noName hqs, translates_single]

inductive Stands (translates : String → String → Prop) (lead default : String) :
    Option String → String → Prop
  | default : Stands translates lead default none default
  | phrase {phrase out : String} (h : translates phrase out) :
      Stands translates lead default (some phrase) (lead ++ out)

theorem stands_iff {translates : String → String → Prop} {m : Mapping} (lead default : String)
    {phrase? : Option String}
    (h : ∀ phrase, phrase? = some phrase → ∀ out, translates phrase out ↔ out = inColumns m phrase)
    (out : String) : Stands translates lead default phrase? out ↔
      out = (phrase?.map fun phrase => lead ++ inColumns m phrase).getD default := by
  constructor
  · intro hstands
    cases hstands with
    | default => rfl
    | phrase hout =>
      rw [(h _ rfl _).mp hout]
      rfl
  · rintro rfl
    cases phrase? with
    | none => exact .default
    | some phrase => exact .phrase ((h phrase rfl _).mpr rfl)

end Phrase

namespace Search

open Phrase

def phrases (s : Search) : Lowering → List String
  | .load => s.selected?.toList ++ s.orderBy?.toList
  | .count => s.countPhrase?.toList
  | .delete => []

/-- The text before and behind the condition, where each phrase of the search is translated. -/
inductive Frames (s : Search) (m : Mapping) (translates : String → String → Prop) :
    Lowering → String → String → Prop
  | load {projection order : String}
      (hprojection : Stands translates "" (Text.joined ", " (m.table.columns.map (·.sqlName)))
        s.selected? projection)
      (horder : Stands translates " order by " "" s.orderBy? order) :
      Frames s m translates .load ("select " ++ projection ++ " from @@" ++ m.business) order
  | count {phrase : String} (h : Stands translates "" "count(*)" s.countPhrase? phrase) :
      Frames s m translates .count ("select " ++ phrase ++ " from @@" ++ m.business) ""
  | delete : Frames s m translates .delete ("delete from @@" ++ m.business) ""

theorem projection_eq (s : Search) (m : Mapping) : s.projection m =
    (s.selected?.map fun phrase => "" ++ inColumns m phrase).getD
      (Text.joined ", " (m.table.columns.map (·.sqlName))) := by
  rw [projection]
  cases s.selected? with
  | none => rfl
  | some phrase => exact String.empty_append.symm

theorem countPhrase_eq (s : Search) (m : Mapping) : s.countPhrase m =
    (s.countPhrase?.map fun phrase => "" ++ inColumns m phrase).getD "count(*)" := by
  rw [countPhrase]
  cases s.countPhrase? with
  | none => rfl
  | some phrase => exact String.empty_append.symm

theorem orderClause_eq (s : Search) (m : Mapping) : s.orderClause m =
    (s.orderBy?.map fun phrase => " order by " ++ inColumns m phrase).getD "" := by
  rw [orderClause]
  cases s.orderBy? <;> rfl

theorem frames_iff {s : Search} {m : Mapping} {translates : String → String → Prop}
    {lowering : Lowering} (h : ∀ phrase ∈ s.phrases lowering, ∀ out,
      translates phrase out ↔ out = inColumns m phrase) (front back : String) :
    s.Frames m translates lowering front back ↔
      front = (s.frame m lowering).1 ∧ back = (s.frame m lowering).2 := by
  cases lowering with
  | load =>
    have hselected phrase (hp : s.selected? = some phrase) := h phrase (by simp [phrases, hp])
    have horderBy phrase (hp : s.orderBy? = some phrase) := h phrase (by simp [phrases, hp])
    constructor
    · intro hframes
      cases hframes with
      | load hprojection horder =>
        rw [stands_iff _ _ hselected, ← projection_eq] at hprojection
        rw [stands_iff _ _ horderBy, ← orderClause_eq] at horder
        rw [hprojection, horder]
        exact ⟨rfl, rfl⟩
    · rintro ⟨rfl, rfl⟩
      refine .load ((stands_iff _ _ hselected _).mpr ?_) ((stands_iff _ _ horderBy _).mpr ?_)
      · exact projection_eq s m
      · exact orderClause_eq s m
  | count =>
    have hcount phrase (hp : s.countPhrase? = some phrase) := h phrase (by simp [phrases, hp])
    constructor
    · intro hframes
      cases hframes with
      | count hphrase =>
        rw [stands_iff _ _ hcount, ← countPhrase_eq] at hphrase
        rw [hphrase]
        exact ⟨rfl, rfl⟩
    · rintro ⟨rfl, rfl⟩
      exact .count ((stands_iff _ _ hcount _).mpr (countPhrase_eq s m))
  | delete =>
    constructor
    · intro hframes
      cases hframes with
      | delete => exact ⟨rfl, rfl⟩
    · rintro ⟨rfl, rfl⟩
      exact .delete

def titlesAs (label : String) : Search :=
  { business := "article", selected? := some ("title as \"" ++ label ++ "\"") }

theorem reads_titlesAs {quotes : List Char} (hspace : ' ' ∉ quotes) {label : String}
    {ps : List Piece} (h : Reads quotes ('"' :: (label.toList ++ ['"'])) ps) :
    Reads quotes ("title as \"" ++ label ++ "\"").toList
      (.word "title".toList :: .literal [' '] :: .word "as".toList :: .literal [' '] :: ps) := by
  have hsplit : ("title as \"" ++ label ++ "\"").toList =
      "title".toList ++ ' ' :: ("as".toList ++ ' ' :: '"' :: (label.toList ++ ['"'])) := by
    rw [String.toList_append, String.toList_append]
    rfl
  have hend (cs : List Char) : Text.EndsName (' ' :: cs) := rfl
  rw [hsplit]
  refine .cons (.word rfl (hend _)) (.cons (.other hspace rfl) ?_)
  exact .cons (.word rfl (hend _)) (.cons (.other hspace rfl) h)

theorem reads_titlesAs_both {label : String} (h : '"' ∉ label.toList) :
    Reads bothQuotes ("title as \"" ++ label ++ "\"").toList [.word "title".toList,
      .literal [' '], .word "as".toList, .literal [' '],
      .literal ('"' :: (label.toList ++ ['"']))] :=
  reads_titlesAs (by decide) (.cons (.quoted (by decide) h) .nil)

theorem titlesAs_frames {label : String} (h : '"' ∉ label.toList) (front back : String) :
    (titlesAs label).Frames (Magazine.article .mySQL)
        (Translates bothQuotes (Magazine.article .mySQL)) .load front back ↔
      front = "select NAME as \"" ++ label ++ "\" from @@article" ∧ back = "" := by
  have htitle : (Magazine.article .mySQL).sqlName? "title" = some "NAME" := by decide
  have has : (Magazine.article .mySQL).sqlName? "as" = none := by decide
  have htranslates (out : String) : Translates bothQuotes (Magazine.article .mySQL)
      ("title as \"" ++ label ++ "\"") out ↔ out = "NAME as \"" ++ label ++ "\"" := by
    rw [translates_of_reads bothQuotes_noName (reads_titlesAs_both h)]
    simp [written, Text.joined, Piece.sql, htitle, has, ← String.append_assoc]
  have hfront : "select " ++ ("" ++ ("NAME as \"" ++ label ++ "\"")) ++ " from @@" ++
      (Magazine.article .mySQL).business = "select NAME as \"" ++ label ++ "\" from @@article" := by
    rw [← String.toList_inj]
    simp [Magazine.article]
  rw [← hfront]
  constructor
  · intro hframes
    cases hframes with
    | load hprojection horder =>
      cases hprojection with
      | phrase hout =>
        cases horder with
        | default =>
          rw [(htranslates _).mp hout]
          exact ⟨rfl, rfl⟩
  · rintro ⟨rfl, rfl⟩
    exact .load (.phrase ((htranslates _).mpr rfl)) .default

theorem whereClause_unconditioned {s : Search} (h : s.condition? = none) (m : Mapping) :
    s.whereClause m = pure "" := by
  have hblank : Text.isBlankText "" = true := by
    rw [Text.isBlankText_eq_allBlank]
    rfl
  rw [whereClause, h]
  show (pure (if Text.isBlankText "" = true then "" else _) : Rendering String) = pure ""
  rw [if_pos hblank]

/-- A search is lowered to its condition between two texts in which each phrase is translated piece
by piece, with single quotes for its only quotes: a quoted part stays as it is, a whole name that is
a property becomes its column, and every other character stays. Where no part of the phrases in
double quotes holds a single quote or the name of a property that its column does not have, these
are also the texts that reading the phrases with both quotes gives. -/
theorem lower_phrases (s : Search) (m : Mapping) (lowering : Lowering) :
    ∃ front back,
      (∀ params, (s.lower m lowering).run params =
        match (s.whereClause m).run params with
        | (.ok condition, after) => (.ok (front ++ condition ++ back), after)
        | (.error e, after) => (.error e, after)) ∧
      (∀ front' back', s.Frames m (Translates singleQuote m) lowering front' back' ↔
        front' = front ∧ back' = back) ∧
      ((∀ phrase ∈ s.phrases lowering, QuotesUndisturbed m phrase) →
        ∀ front' back', s.Frames m (Translates bothQuotes m) lowering front' back' ↔
          front' = front ∧ back' = back) := by
  refine ⟨(s.frame m lowering).1, (s.frame m lowering).2, fun params => ?_, ?_, fun hdoubles => ?_⟩
  · rw [lower, run_bind]
    rcases (s.whereClause m).run params with ⟨_ | _, _⟩ <;> rfl
  · exact frames_iff fun phrase _ => translates_single m phrase
  · exact frames_iff fun phrase hm => translates_both (hdoubles phrase hm)

/-- A label in double quotes that is no property stays as it is. -/
theorem lower_phrases_label :
    let m := Magazine.article .mySQL
    ((titlesAs "t").lower m .load).run .empty =
        (.ok "select NAME as \"t\" from @@article", .empty) ∧
      (titlesAs "t").Frames m (Translates bothQuotes m) .load
        "select NAME as \"t\" from @@article" "" := by
  intro m
  have hlabel : '"' ∉ "t".toList := by decide
  have hframes := (titlesAs_frames hlabel _ _).mpr ⟨rfl, rfl⟩
  obtain ⟨front, back, hrun, -, hdoubles⟩ := lower_phrases (titlesAs "t") m .load
  have hphrases : ∀ phrase ∈ (titlesAs "t").phrases .load, QuotesUndisturbed m phrase := by
    intro phrase hphrase ps hps inner hinner
    obtain rfl := List.mem_singleton.mp hphrase
    obtain rfl := reads_unique bothQuotes_noName (reads_titlesAs_both hlabel) hps
    obtain rfl : inner = ['t', '"'] := by simpa using hinner
    have hreads : Reads singleQuote ['t', '"'] [.word ['t'], .literal ['"']] :=
      .cons (@Begins.word singleQuote ['t'] ['"'] rfl rfl) (reads_mark .nil)
    refine ⟨by decide, fun ps hps name hname column hcolumn => ?_⟩
    obtain rfl := reads_unique singleQuote_noName hreads hps
    obtain rfl : name = ['t'] := by simpa using hname
    cases hcolumn
  obtain ⟨rfl, rfl⟩ := (hdoubles hphrases _ _).mp hframes
  refine ⟨?_, hframes⟩
  rw [hrun, whereClause_unconditioned rfl]
  rfl

/-- A label in double quotes that is a property becomes the property's column. -/
theorem label_translated :
    let m := Magazine.article .mySQL
    ((titlesAs "title").lower m .load).run .empty =
        (.ok "select NAME as \"NAME\" from @@article", .empty) ∧
      ∀ front back, (titlesAs "title").Frames m (Translates bothQuotes m) .load front back ↔
        front = "select NAME as \"title\" from @@article" ∧ back = "" := by
  intro m
  refine ⟨?_, titlesAs_frames (by decide)⟩
  have hword : Reads singleQuote ("title".toList ++ ['"']) [.word "title".toList, .literal ['"']] :=
    .cons (.word rfl rfl) (reads_mark .nil)
  have hreads := reads_titlesAs (by decide) (reads_mark hword)
  have hphrase : inColumns m ("title as \"" ++ "title" ++ "\"") = "NAME as \"NAME\"" := by
    rw [← (translates_single m _ _).mp ((translates_of_reads singleQuote_noName hreads _).mpr rfl)]
    decide
  have hframe : (titlesAs "title").frame m .load = ("select " ++
      inColumns m ("title as \"" ++ "title" ++ "\"") ++ " from @@" ++ "article", "") := rfl
  rw [lower, whereClause_unconditioned rfl, pure_bind, hframe, hphrase]
  rfl

end Search

end DataAccess
