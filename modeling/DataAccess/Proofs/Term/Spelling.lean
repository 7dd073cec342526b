import DataAccess.Proofs.Trimming
import DataAccess.Term

/-!
# Spelling a predicate

A predicate is spelled in atoms, `and`, `or` and parentheses, with blanks between them. The
text of a leaf is one atom. Blanks around the text change nothing, and a text with given atoms
has one spelling at most.
-/

set_option autoImplicit false

namespace DataAccess

inductive Lexeme where
  | atom (leaf : Nat) (text : String)
  | joiner (j : Joiner)
  | opening
  | closing

namespace Lexeme

def spelling : Lexeme → List Char
  | atom _ text => Text.trim text.toList
  | joiner j => j.word.toList
  | opening => ['(']
  | closing => [')']

def isWord : Lexeme → Bool
  | atom .. | joiner _ => true
  | opening | closing => false

def atoms : List Lexeme → List (Nat × String)
  | [] => []
  | atom leaf text :: rest => (leaf, text) :: atoms rest
  | _ :: rest => atoms rest

def Delimited (cs : List Char) : Prop :=
  ∀ c ∈ cs.head?, Text.isBlank c = true ∨ c = '(' ∨ c = ')'

inductive Spells : List Lexeme → List Char → Prop
  | done : Spells [] []
  | blank {c : Char} {ls : List Lexeme} {cs : List Char} :
      Text.isBlank c = true → Spells ls cs → Spells ls (c :: cs)
  | lexeme {l : Lexeme} {ls : List Lexeme} {cs : List Char} :
      l.spelling ≠ [] → (l.isWord = true → Delimited cs) → Spells ls cs →
      Spells (l :: ls) (l.spelling ++ cs)

theorem atoms_append (ls rest : List Lexeme) : atoms (ls ++ rest) = atoms ls ++ atoms rest := by
  induction ls with
  | nil => rfl
  | cons l ls ih => cases l <;> simp [atoms, ih]

theorem delimited_append {cs rest : List Char} (h : Delimited cs) (hr : Delimited rest) :
    Delimited (cs ++ rest) := by
  cases cs with
  | nil => exact hr
  | cons c cs => exact h

theorem spells_append {ls rest : List Lexeme} {cs ds : List Char} (h : Spells ls cs)
    (hr : Spells rest ds) (hd : Delimited ds) : Spells (ls ++ rest) (cs ++ ds) := by
  induction h with
  | done => exact hr
  | blank hc _ ih => exact .blank hc ih
  | @lexeme l ls cs hne hword _ ih =>
    rw [List.append_assoc]
    exact .lexeme hne (fun hw => delimited_append (hword hw) hd) ih

theorem spells_blanks {ls : List Lexeme} {front cs : List Char} (hf : Text.allBlank front = true)
    (h : Spells ls cs) : Spells ls (front ++ cs) := by
  induction front with
  | nil => exact h
  | cons c front ih =>
    rw [Text.allBlank, List.all_cons, Bool.and_eq_true] at hf
    exact .blank hf.1 (ih hf.2)

theorem spells_atom (leaf : Nat) {text : String} (hne : Text.trim text.toList ≠ []) :
    Spells [.atom leaf text] text.toList := by
  obtain ⟨front, back, hfront, hback, heq⟩ := Text.exists_append_trim text.toList
  have hdone : Spells [] back := by
    have h := spells_blanks hback .done
    rwa [List.append_nil] at h
  have hdelimited : Delimited back := by
    intro c hc
    exact .inl (List.all_eq_true.mp hback c (List.mem_of_mem_head? hc))
  rw [heq]
  exact spells_blanks hfront (.lexeme (l := .atom leaf text) hne (fun _ => hdelimited) hdone)

theorem not_isBlank_of_head {l : Lexeme} {c : Char} {rest : List Char}
    (h : l.spelling = c :: rest) : Text.isBlank c = false := by
  cases l with
  | atom leaf text => exact Text.not_isBlank_of_head_trim h
  | joiner j =>
    cases j <;> obtain ⟨rfl, -⟩ := List.cons.inj h <;> decide
  | opening | closing => cases h; decide

theorem not_isBlank_of_last {l : Lexeme} {c : Char} {front : List Char}
    (h : l.spelling = front ++ [c]) : Text.isBlank c = false := by
  have hlast : l.spelling.getLast? = some c := by rw [h, List.getLast?_concat]
  cases l with
  | atom leaf text => exact Text.not_isBlank_of_last_trim h
  | joiner j =>
    cases j <;> cases hlast <;> decide
  | opening | closing => cases hlast; decide

theorem spelling_append_ne {l : Lexeme} (hne : l.spelling ≠ []) {c : Char}
    (hc : Text.isBlank c = true) (cs ds : List Char) : l.spelling ++ cs ≠ c :: ds := by
  intro htext
  cases hl : l.spelling with
  | nil => exact hne hl
  | cons d spelling =>
    rw [hl, List.cons_append] at htext
    obtain ⟨rfl, -⟩ := List.cons.inj htext
    rw [not_isBlank_of_head hl] at hc
    cases hc

theorem spells_of_blank {c : Char} {ls : List Lexeme} {cs : List Char}
    (h : Spells ls (c :: cs)) (hc : Text.isBlank c = true) : Spells ls cs := by
  generalize htext : c :: cs = text at h
  cases h with
  | done => cases htext
  | blank _ h =>
    cases htext
    exact h
  | lexeme hne _ _ => exact absurd htext.symm (spelling_append_ne hne hc _ _)

theorem spells_of_blanks {ls : List Lexeme} {front cs : List Char}
    (hf : Text.allBlank front = true) (h : Spells ls (front ++ cs)) : Spells ls cs := by
  induction front with
  | nil => exact h
  | cons c front ih =>
    rw [Text.allBlank, List.all_cons, Bool.and_eq_true] at hf
    exact ih hf.2 (spells_of_blank h hf.1)

theorem spelling_append_inv {l : Lexeme} {rest cs back : List Char}
    (hb : Text.allBlank back = true) (h : l.spelling ++ rest = cs ++ back) :
    ∃ ds, cs = l.spelling ++ ds ∧ rest = ds ++ back := by
  rcases List.append_eq_append_iff.mp h with ⟨ds, hcs, hrest⟩ | ⟨ds, hl, hback⟩
  · exact ⟨ds, hcs, hrest⟩
  · rcases List.eq_nil_or_concat ds with rfl | ⟨front, c, rfl⟩
    · rw [List.append_nil] at hl
      exact ⟨[], by rw [hl, List.append_nil], hback.symm⟩
    · have hc : Text.isBlank c = false := by
        rw [List.concat_eq_append, ← List.append_assoc] at hl
        exact not_isBlank_of_last hl
      have hmem : c ∈ back := by simp [hback]
      rw [List.all_eq_true.mp hb c hmem] at hc
      cases hc

theorem spells_of_append_blanks {ls : List Lexeme} {cs back : List Char}
    (hb : Text.allBlank back = true) (h : Spells ls (cs ++ back)) : Spells ls cs := by
  generalize htext : cs ++ back = text at h
  induction h generalizing cs with
  | done =>
    obtain ⟨rfl, -⟩ := List.append_eq_nil_iff.mp htext
    exact .done
  | @blank c ls rest hc h ih =>
    cases cs with
    | nil =>
      rw [List.nil_append] at htext
      rw [htext, Text.allBlank, List.all_cons, Bool.and_eq_true] at hb
      have hrest : Spells ls (rest ++ []) := by rwa [List.append_nil]
      exact spells_of_blanks hb.2 hrest
    | cons d cs =>
      rw [List.cons_append] at htext
      obtain ⟨rfl, hrest⟩ := List.cons.inj htext
      exact .blank hc (ih hrest)
  | @lexeme l ls rest hne hword h ih =>
    obtain ⟨ds, rfl, hrest⟩ := spelling_append_inv hb htext.symm
    refine .lexeme hne (fun hw c hc => ?_) (ih hrest.symm)
    have hhead : c ∈ rest.head? := by
      rw [hrest, List.head?_append, hc]
      rfl
    exact hword hw c hhead

/-- A predicate is spelled as it was without the blanks around it. -/
theorem spells_trim {ls : List Lexeme} {cs : List Char} (h : Spells ls cs) :
    Spells ls (Text.trim cs) := by
  obtain ⟨front, back, hfront, hback, heq⟩ := Text.exists_append_trim cs
  rw [heq] at h
  exact spells_of_append_blanks hback (spells_of_blanks hfront h)

def isMark (c : Char) : Bool := c == ':' || c == 'i'

def IsMarked (text : String) : Prop := ∃ c ∈ text.toList, isMark c = true

def Marked (leaves : List (Nat × String)) : Prop := ∀ leaf ∈ leaves, IsMarked leaf.2

def isAtom : Lexeme → Bool
  | atom .. => true
  | _ => false

theorem atoms_cons {l : Lexeme} (hl : l.isAtom = false) (ls : List Lexeme) :
    atoms (l :: ls) = atoms ls := by
  cases l with
  | atom => cases hl
  | _ => rfl

theorem eq_atom {l : Lexeme} (hl : l.isAtom = true) : ∃ leaf text, l = .atom leaf text := by
  cases l with
  | atom leaf text => exact ⟨leaf, text, rfl⟩
  | _ => cases hl

theorem spelling_ne_nil {l : Lexeme} (hl : l.isAtom = false) : l.spelling ≠ [] := by
  cases l with
  | atom => cases hl
  | joiner j => cases j <;> decide
  | opening | closing => decide

theorem not_isMark_of_isBlank {c : Char} (h : Text.isBlank c = true) : isMark c = false := by
  rw [← Bool.not_eq_true]
  intro hm
  rw [isMark, Bool.or_eq_true, beq_iff_eq, beq_iff_eq] at hm
  rcases hm with rfl | rfl <;> exact absurd h (by decide)

theorem not_isMark_of_spelling {l : Lexeme} (hl : l.isAtom = false) :
    ∀ c ∈ l.spelling, isMark c = false := by
  have hall : l.spelling.any isMark = false := by
    cases l with
    | atom => cases hl
    | joiner j => cases j <;> decide
    | opening | closing => decide
  intro c hc
  exact Bool.not_eq_true _ ▸ List.any_eq_false.mp hall c hc

theorem findIdx_isMark_spelling {l : Lexeme} (hl : l.isAtom = false) (cs : List Char) :
    (l.spelling ++ cs).findIdx isMark = l.spelling.length + cs.findIdx isMark := by
  have hfind : l.spelling.findIdx isMark = l.spelling.length := by
    rw [List.findIdx_eq_length]
    exact not_isMark_of_spelling hl
  rw [List.findIdx_append, hfind, if_neg (Nat.lt_irrefl _), Nat.add_comm]

theorem exists_isMark_trim {text : String} (hm : IsMarked text) :
    ∃ c ∈ Text.trim text.toList, isMark c = true := by
  obtain ⟨c, hc, hmark⟩ := hm
  refine ⟨c, Text.mem_trim hc ?_, hmark⟩
  rw [← Bool.not_eq_true]
  intro hb
  rw [not_isMark_of_isBlank hb] at hmark
  cases hmark

theorem findIdx_isMark_append {cs : List Char} (ds : List Char)
    (h : ∃ c ∈ cs, isMark c = true) : (cs ++ ds).findIdx isMark = cs.findIdx isMark := by
  rw [List.findIdx_append, if_pos (List.findIdx_lt_length.mpr h)]

theorem findIdx_isMark_le {ls : List Lexeme} {cs : List Char} (h : Spells ls cs) {leaf : Nat}
    {text : String} {rest : List (Nat × String)} (ha : atoms ls = (leaf, text) :: rest)
    (hm : Marked (atoms ls)) :
    (Text.trim text.toList).findIdx isMark ≤ cs.findIdx isMark := by
  induction h with
  | done => cases ha
  | @blank c ls cs hc h ih =>
    have := ih ha hm
    rw [List.findIdx_cons, not_isMark_of_isBlank hc, cond_false]
    omega
  | @lexeme l ls cs hne hword h ih =>
    by_cases hl : l.isAtom = true
    · obtain ⟨leaf', text', rfl⟩ := eq_atom hl
      cases ha
      have hfirst := findIdx_isMark_append cs (exists_isMark_trim (hm _ List.mem_cons_self))
      exact Nat.le_of_eq hfirst.symm
    · rw [Bool.not_eq_true] at hl
      rw [atoms_cons hl] at ha hm
      have := ih ha hm
      rw [findIdx_isMark_spelling hl]
      omega

theorem atom_append_ne {l : Lexeme} (hl : l.isAtom = false) {ls : List Lexeme}
    {cs : List Char} (h : Spells ls cs) {leaf : Nat} {text : String}
    {rest : List (Nat × String)} (ha : atoms ls = (leaf, text) :: rest)
    (hm : Marked (atoms ls)) (ds : List Char) :
    (atom leaf text).spelling ++ ds ≠ l.spelling ++ cs := by
  intro htext
  have hle := findIdx_isMark_le h ha hm
  rw [ha] at hm
  have hmarked : IsMarked text := hm (leaf, text) List.mem_cons_self
  have hfirst := findIdx_isMark_append ds (exists_isMark_trim hmarked)
  have hlater := findIdx_isMark_spelling hl cs
  rw [← htext, spelling, hfirst] at hlater
  have hpos := List.length_pos_iff.mpr (spelling_ne_nil hl)
  omega

theorem head?_spelling_append {l : Lexeme} (hl : l.isAtom = false) (cs : List Char) :
    (l.spelling ++ cs).head? = l.spelling.head? := by
  cases h : l.spelling with
  | nil => exact absurd h (spelling_ne_nil hl)
  | cons c rest => rfl

theorem eq_of_spelling_append {l l' : Lexeme} (hl : l.isAtom = false) (hl' : l'.isAtom = false)
    {cs ds : List Char} (h : l.spelling ++ cs = l'.spelling ++ ds) : l = l' := by
  have hhead := congrArg List.head? h
  rw [head?_spelling_append hl, head?_spelling_append hl'] at hhead
  have hjoiner (j : Joiner) : j = .and ∨ j = .or := by cases j <;> simp
  cases l with
  | atom => cases hl
  | joiner j =>
    cases l' with
    | atom => cases hl'
    | joiner k =>
      rcases hjoiner j with rfl | rfl <;> rcases hjoiner k with rfl | rfl <;>
        first | rfl | exact absurd hhead (by decide)
    | _ => rcases hjoiner j with rfl | rfl <;> exact absurd hhead (by decide)
  | _ =>
    cases l' with
    | atom => cases hl'
    | joiner k => rcases hjoiner k with rfl | rfl <;> exact absurd hhead (by decide)
    | _ => first | rfl | exact absurd hhead (by decide)

theorem eq_of_spells {l l' : Lexeme} {ls ls' : List Lexeme} {cs ds : List Char}
    (h : Spells ls cs) (h' : Spells ls' ds) (htext : l.spelling ++ cs = l'.spelling ++ ds)
    (ha : atoms (l :: ls) = atoms (l' :: ls')) (hm : Marked (atoms (l :: ls))) : l = l' := by
  cases hl : l.isAtom with
  | true =>
    obtain ⟨leaf, text, rfl⟩ := eq_atom hl
    cases hl' : l'.isAtom with
    | true =>
      obtain ⟨leaf', text', rfl⟩ := eq_atom hl'
      obtain ⟨hfirst, -⟩ := List.cons.inj ha
      obtain ⟨rfl, rfl⟩ := Prod.mk.inj hfirst
      rfl
    | false =>
      rw [ha, atoms_cons hl'] at hm
      rw [atoms_cons hl'] at ha
      exact absurd htext (atom_append_ne hl' h' ha.symm hm cs)
  | false =>
    rw [atoms_cons hl] at ha hm
    cases hl' : l'.isAtom with
    | true =>
      obtain ⟨leaf, text, rfl⟩ := eq_atom hl'
      exact absurd htext.symm (atom_append_ne hl h ha hm ds)
    | false => exact eq_of_spelling_append hl hl' htext

theorem atoms_cons_inj {l : Lexeme} {ls ls' : List Lexeme}
    (h : atoms (l :: ls) = atoms (l :: ls')) : atoms ls = atoms ls' := by
  cases l with
  | atom => exact (List.cons.inj h).2
  | _ => exact h

theorem marked_of_cons {l : Lexeme} {ls : List Lexeme} (h : Marked (atoms (l :: ls))) :
    Marked (atoms ls) := by
  cases l with
  | atom => exact fun leaf hleaf => h leaf (List.mem_cons_of_mem _ hleaf)
  | _ => exact h

theorem spells_unique {ls ls' : List Lexeme} {cs : List Char} (h : Spells ls cs)
    (h' : Spells ls' cs) (ha : atoms ls = atoms ls') (hm : Marked (atoms ls)) : ls = ls' := by
  induction h generalizing ls' with
  | done =>
    generalize htext : ([] : List Char) = text at h'
    cases h' with
    | done => rfl
    | blank => cases htext
    | lexeme hne => exact absurd (List.append_eq_nil_iff.mp htext.symm).1 hne
  | blank hc _ ih => exact ih (spells_of_blank h' hc) ha hm
  | @lexeme l ls cs hne hword h ih =>
    generalize htext : l.spelling ++ cs = text at h'
    cases h' with
    | done => exact absurd (List.append_eq_nil_iff.mp htext).1 hne
    | blank hc => exact absurd htext (spelling_append_ne hne hc _ _)
    | lexeme hne' hword' h' =>
      obtain rfl := eq_of_spells h h' htext ha hm
      rw [List.append_cancel_left htext] at ih
      rw [ih h' (atoms_cons_inj ha) (marked_of_cons hm)]

end Lexeme

end DataAccess
