import DataAccess.Proofs.Search.Substitution

/-!
# Texts that become chains

A text without tables and directives becomes a chain of texts and parameters in front of the block
that follows, or it is refused for a column that is not known. Either way it is built apart from
what follows.
-/

set_option autoImplicit false

namespace DataAccess

open Text

inductive Link where
  | text (s : String)
  | param (name : String)

namespace Link

def names : List Link → List String
  | [] => []
  | text _ :: rest => names rest
  | param name :: rest => name :: names rest

def sql (flavor : Flavor) : Nat → List Link → String
  | _, [] => ""
  | used, text s :: rest => s ++ sql flavor used rest
  | used, param _ :: rest => flavor.placeholder (used + 1) ++ sql flavor (used + 1) rest

def ofChars (cs : List Char) : List Link := cs.map fun c => text (String.ofList [c])

@[simp] theorem names_append (ls ks : List Link) : names (ls ++ ks) = names ls ++ names ks := by
  induction ls with
  | nil => rfl
  | cons l ls ih => cases l <;> simp [names, ih]

theorem sql_append (flavor : Flavor) (used : Nat) (ls ks : List Link) :
    sql flavor used (ls ++ ks) =
      sql flavor used ls ++ sql flavor (used + (names ls).length) ks := by
  induction ls generalizing used with
  | nil => simp [sql, names]
  | cons l ls ih =>
    cases l with
    | text s => simp [sql, names, ih, String.append_assoc]
    | param name =>
      simp [sql, names, ih, String.append_assoc, Nat.add_assoc, Nat.add_comm 1]

@[simp] theorem names_ofChars (cs : List Char) : names (ofChars cs) = [] := by
  induction cs with
  | nil => rfl
  | cons c cs ih => exact ih

@[simp] theorem sql_ofChars (flavor : Flavor) (used : Nat) (cs : List Char) :
    sql flavor used (ofChars cs) = String.ofList cs := by
  induction cs with
  | nil => rfl
  | cons c cs ih =>
    show String.ofList [c] ++ sql flavor used (ofChars cs) = _
    rw [ih, ← String.ofList_append]
    rfl

end Link

namespace Block

def chain : List Link → Block → Block
  | [], next => next
  | .text s :: rest, next => text s (chain rest next)
  | .param name :: rest, next => param name (chain rest next)

theorem chain_append (ls ks : List Link) (next : Block) :
    chain (ls ++ ks) next = chain ls (chain ks next) := by
  induction ls with
  | nil => rfl
  | cons l ls ih => cases l <;> simp [chain, ih]

theorem paramNames_chain (ls : List Link) (next : Block) :
    (chain ls next).paramNames = Link.names ls ++ next.paramNames := by
  induction ls with
  | nil => rfl
  | cons l ls ih => cases l <;> simp [chain, paramNames, Link.names, ih]

theorem guardVars_chain (ls : List Link) (next : Block) :
    (chain ls next).guardVars = next.guardVars := by
  induction ls with
  | nil => rfl
  | cons l ls ih => cases l <;> exact ih

theorem prepare_chain {flavor : Flavor} {values : Dict Value} {condition : Option TableCondition}
    {ls : List Link} {bound : List Value}
    (h : List.Forall₂ (fun name v => values.get? name = some v) (Link.names ls) bound)
    (next : Block) (out : Prepared) :
    (chain ls next).prepare flavor values condition out = next.prepare flavor values condition
      ⟨out.sql ++ Link.sql flavor out.params.length ls, out.params ++ bound⟩ := by
  induction ls generalizing bound out with
  | nil =>
    cases h
    simp [chain, Link.sql]
  | cons l ls ih =>
    cases l with
    | text s =>
      rw [chain, prepare, ih h]
      simp [Link.sql, String.append_assoc]
    | param name =>
      cases h with
      | @cons _ v _ bound hv hrest =>
        rw [chain, prepare, hv]
        dsimp only
        rw [ih hrest]
        simp [Link.sql, String.append_assoc]

theorem prepare_ofChars {flavor : Flavor} {values : Dict Value}
    {condition : Option TableCondition} (cs : List Char) (next : Block) (out : Prepared) :
    (chain (Link.ofChars cs) next).prepare flavor values condition out =
      next.prepare flavor values condition { out with sql := out.sql ++ String.ofList cs } := by
  have hbound : List.Forall₂ (fun name v => values.get? name = some v)
      (Link.names (Link.ofChars cs)) [] := by
    rw [Link.names_ofChars]
    exact .nil
  rw [prepare_chain hbound, Link.sql_ofChars, List.append_nil]

end Block

theorem Token.begins_unnamed {c : Char} (hc : c = ':' ∨ c = '@') {rest : List Char}
    (h : rest.head?.any (fun d => isNameStart d || d == c) = false) :
    Begins (c :: rest) (.text [c]) rest := by
  apply Begins.plain
  intro hmarked
  have hstarts : startsName rest = false := by
    rw [← Bool.not_eq_true]
    intro hstarts
    cases rest with
    | nil => cases hstarts
    | cons d rest => exact Bool.false_ne_true ((Bool.or_eq_false_iff.mp h).1.symm.trans hstarts)
  generalize hcs : c :: rest = cs at hmarked
  cases hmarked with
  | quote rest hq =>
    cases hcs
    rcases hc with rfl | rfl <;> rcases hq with hq | hq <;> cases hq
  | colons rest => cases hcs; simp at h
  | param hname => cases hcs; rw [hname] at hstarts; cases hstarts
  | table hname => cases hcs; simp at h
  | column hname => cases hcs; rw [hname] at hstarts; cases hstarts
  | opening d rest => cases hcs; rcases hc with hc | hc <;> cases hc
  | closing hend => cases hcs; rcases hc with hc | hc <;> cases hc

namespace Text

def Stops (rest : List Char) : Prop :=
  rest.head?.any (fun c => isNamePart c || c == ':') = false

theorem stops_append {cs ds : List Char} (hc : Stops cs) (hd : Stops ds) : Stops (cs ++ ds) := by
  cases cs with
  | nil => exact hd
  | cons c cs => exact hc

theorem stops_words {words : String}
    (h : (words.toList.head?.any fun c => !(isNamePart c || c == ':')) = true) (text : String) :
    Stops (words ++ text).toList := by
  rw [String.toList_append]
  cases hwords : words.toList with
  | nil => simp [hwords] at h
  | cons c rest => simpa [Stops, hwords] using h

theorem endsName_of_stops {cs : List Char} (h : Stops cs) : EndsName cs := by
  cases cs with
  | nil => rfl
  | cons c cs => exact (Bool.or_eq_false_iff.mp h).1

/-- In front of anything that stops it the text becomes these links, or ends with their fault. -/
def Becomes (registry : Registry) (owner : Mapping) (text : String)
    (links : Except Fault (List Link)) : Prop :=
  ∀ source depth rest, Stops rest →
    Block.build registry owner source depth (Token.scan (text.toList ++ rest)) = do
      let ls ← links
      let (b, outer) ← Block.build registry owner source depth (Token.scan rest)
      return (Block.chain ls b, outer)

variable {registry : Registry} {owner : Mapping}

theorem becomes_append {text text' : String} {links links' : Except Fault (List Link)}
    (h : Becomes registry owner text links) (h' : Becomes registry owner text' links')
    (hstops : Stops text'.toList) :
    Becomes registry owner (text ++ text') (do return (← links) ++ (← links')) := by
  intro source depth rest hrest
  rw [String.toList_append, List.append_assoc, h _ _ _ (stops_append hstops hrest),
    h' _ _ _ hrest]
  simp [Block.chain_append]

theorem becomes_empty : Becomes registry owner "" (.ok []) := by
  intro source depth rest _
  show Block.build registry owner source depth (Token.scan rest) = _
  cases Block.build registry owner source depth (Token.scan rest) <;> rfl

theorem build_isPlain {cs : List Char} (h : cs.all isPlain = true) (source : String) (depth : Nat)
    (rest : List Char) : Block.build registry owner source depth (Token.scan (cs ++ rest)) = do
      let (b, outer) ← Block.build registry owner source depth (Token.scan rest)
      return (Block.chain (Link.ofChars cs) b, outer) := by
  induction cs with
  | nil =>
    show Block.build registry owner source depth (Token.scan rest) = _
    cases Block.build registry owner source depth (Token.scan rest) <;> rfl
  | cons c cs ih =>
    rw [List.all_cons, Bool.and_eq_true] at h
    rw [List.cons_append, Token.scan_of_begins (Token.begins_isPlain h.1), Block.build, ih h.2]
    cases Block.build registry owner source depth (Token.scan rest) <;> rfl

theorem becomes_plain {text : String} (h : text.toList.all isPlain = true) :
    Becomes registry owner text (.ok (Link.ofChars text.toList)) :=
  fun source depth rest _ => build_isPlain h source depth rest

theorem becomes_behind (words : String) (hwords : words.toList.all isPlain = true) {text : String}
    {links : Except Fault (List Link)} (h : Becomes registry owner text links) :
    Becomes registry owner (words ++ text) (links.map (Link.ofChars words.toList ++ ·)) := by
  intro source depth rest hrest
  rw [String.toList_append, List.append_assoc, build_isPlain hwords, h _ _ _ hrest]
  cases links with
  | error e => rfl
  | ok ls =>
    cases Block.build registry owner source depth (Token.scan rest) with
    | error e => rfl
    | ok p => exact congrArg (fun b => Except.ok (b, p.2)) (Block.chain_append _ _ _).symm

theorem becomes_param {name : String} (h : isName name.toList = true) :
    Becomes registry owner (":" ++ name) (.ok [.param name]) := by
  intro source depth rest hrest
  have htext : (":" ++ name).toList ++ rest = ':' :: (name.toList ++ rest) := by simp
  rw [htext, Token.scan_of_begins (.param h (endsName_of_stops hrest)), Block.build,
    String.ofList_toList]
  rfl

theorem becomes_column {prop : String} (h : isName prop.toList = true) :
    Becomes registry owner ("@" ++ prop)
      ((owner.column prop).map fun c => [.text c.sqlName]) := by
  intro source depth rest hrest
  have htext : ("@" ++ prop).toList ++ rest = '@' :: (prop.toList ++ rest) := by simp
  rw [htext, Token.scan_of_begins (.column h (endsName_of_stops hrest)), Block.build,
    String.ofList_toList]
  cases owner.column prop <;> rfl

end Text

end DataAccess
