import DataAccess.Proofs.Computation

/-!
# How a template is split and nested

Quoted text, arguments and names are cut out of a text at a place that is told by counting.
A block is taken apart by the first token it was built from; one block is left over for each
directive that is open.
-/

set_option autoImplicit false

namespace DataAccess

namespace Token

theorem throughQuote_eq (quote : Char) (cs : List Char) :
    throughQuote quote cs = (cs.take (cs.idxOf quote + 1), cs.drop (cs.idxOf quote + 1)) := by
  induction cs with
  | nil => simp [throughQuote]
  | cons c rest ih =>
    by_cases h : c = quote
    · simp [throughQuote, h]
    · have hne : (c == quote) = false := beq_eq_false_iff_ne.mpr h
      rw [throughQuote, if_neg h, ih, List.idxOf_cons, hne]
      rfl

end Token

namespace Text

theorem isNamePart_of_isNameStart {c : Char} (h : isNameStart c = true) :
    isNamePart c = true := by
  simp only [isNameStart, isNamePart, Char.isAlphanum, Bool.or_eq_true] at *
  exact h.imp_left Or.inl

theorem all_of_isName {cs : List Char} (h : isName cs = true) : cs.all isNamePart = true := by
  cases cs with
  | nil => rfl
  | cons c cs =>
    rw [isName, Bool.and_eq_true] at h
    rw [List.all_cons, isNamePart_of_isNameStart h.1, h.2]
    rfl

theorem stripStart?_eq (pattern cs : List Char) :
    stripStart? pattern cs = if pattern <+: cs then some (cs.drop pattern.length) else none := by
  simp [stripStart?]

end Text

namespace Block

variable {registry : Registry} {owner : Mapping} {source : String}

def Built (registry : Registry) (owner : Mapping) (source : String) (rest : List Token)
    (depth : Nat) (b : Block) (outer : List Block) : Token → Prop
  | .text cs => ∃ next, b = text (String.ofList cs) next ∧
      build registry owner source depth rest = .ok (next, outer)
  | .param name => ∃ next, b = param (String.ofList name) next ∧
      build registry owner source depth rest = .ok (next, outer)
  | .table business => ∃ m next, registry.mapping (String.ofList business) = .ok m ∧
      b = table m next ∧ build registry owner source depth rest = .ok (next, outer)
  | .column prop => ∃ c next, owner.column (String.ofList prop) = .ok c ∧
      b = text c.sqlName next ∧ build registry owner source depth rest = .ok (next, outer)
  | .opening directive argument => ∃ guard body next,
      Guard.read source directive argument = .ok guard ∧ b = guarded guard body next ∧
      build registry owner source (depth + 1) rest = .ok (body, next :: outer)
  | .unclosed .. => False
  | .closing => ∃ below next outer', depth = below + 1 ∧ b = done ∧ outer = next :: outer' ∧
      build registry owner source below rest = .ok (next, outer')

theorem build_cons {token : Token} {rest : List Token} {depth : Nat} {b : Block}
    {outer : List Block} (h : build registry owner source depth (token :: rest) = .ok (b, outer)) :
    Built registry owner source rest depth b outer token := by
  cases token with
  | text cs =>
    obtain ⟨⟨next, outer'⟩, hb, he⟩ := bind_eq_ok.mp h
    cases he
    exact ⟨next, rfl, hb⟩
  | param name =>
    obtain ⟨⟨next, outer'⟩, hb, he⟩ := bind_eq_ok.mp h
    cases he
    exact ⟨next, rfl, hb⟩
  | table business =>
    obtain ⟨m, hm, h⟩ := bind_eq_ok.mp h
    obtain ⟨⟨next, outer'⟩, hb, he⟩ := bind_eq_ok.mp h
    cases he
    exact ⟨m, next, hm, rfl, hb⟩
  | column prop =>
    obtain ⟨c, hc, h⟩ := bind_eq_ok.mp h
    obtain ⟨⟨next, outer'⟩, hb, he⟩ := bind_eq_ok.mp h
    cases he
    exact ⟨c, next, hc, rfl, hb⟩
  | opening directive argument =>
    obtain ⟨guard, hg, h⟩ := bind_eq_ok.mp h
    obtain ⟨⟨body, followers⟩, hb, h⟩ := bind_eq_ok.mp h
    cases followers with
    | nil => cases h
    | cons next outer' =>
      cases h
      exact ⟨guard, body, next, hg, rfl, hb⟩
  | unclosed directive rest => cases h
  | closing =>
    cases depth with
    | zero => cases h
    | succ below =>
      obtain ⟨⟨next, outer'⟩, hb, he⟩ := bind_eq_ok.mp h
      cases he
      exact ⟨below, next, outer', rfl, rfl, rfl, hb⟩

theorem build_nil {depth : Nat} {b : Block} {outer : List Block}
    (h : build registry owner source depth [] = .ok (b, outer)) :
    depth = 0 ∧ b = done ∧ outer = [] := by
  rw [build] at h
  split at h
  · next hd =>
    cases h
    exact ⟨hd, rfl, rfl⟩
  · cases h

theorem length_build {tokens : List Token} {depth : Nat} {b : Block} {outer : List Block}
    (h : build registry owner source depth tokens = .ok (b, outer)) : outer.length = depth := by
  induction tokens generalizing depth b outer with
  | nil =>
    obtain ⟨rfl, -, rfl⟩ := build_nil h
    rfl
  | cons token rest ih =>
    have hcons := build_cons h
    cases token with
    | text cs =>
      obtain ⟨next, -, hb⟩ := hcons
      exact ih hb
    | param name =>
      obtain ⟨next, -, hb⟩ := hcons
      exact ih hb
    | table business =>
      obtain ⟨m, next, -, -, hb⟩ := hcons
      exact ih hb
    | column prop =>
      obtain ⟨c, next, -, -, hb⟩ := hcons
      exact ih hb
    | opening directive argument =>
      obtain ⟨guard, body, next, -, -, hb⟩ := hcons
      exact Nat.succ.inj (ih hb)
    | unclosed directive rest => exact hcons.elim
    | closing =>
      obtain ⟨below, next, outer', rfl, -, rfl, hb⟩ := hcons
      exact congrArg Nat.succ (ih hb)

theorem ofText_eq_ok {text : String} {b : Block} :
    ofText registry owner text = .ok b ↔
      build registry owner text 0 (Token.scan text.toList) = .ok (b, []) := by
  constructor
  · intro h
    obtain ⟨⟨b', outer⟩, hb, he⟩ := bind_eq_ok.mp h
    cases he
    have houter : outer = [] := List.length_eq_zero_iff.mp (length_build hb)
    rw [hb, houter]
  · intro h
    rw [ofText, h]
    rfl

end Block

theorem Template.compile_eq_ok {registry : Registry} {owner : Mapping} {text : String}
    {t : Template} (h : compile registry owner text = .ok t) :
    t.mapping = owner ∧ Block.ofText registry owner text = .ok t.body := by
  obtain ⟨body, hb, he⟩ := bind_eq_ok.mp h
  cases he
  exact ⟨rfl, hb⟩

end DataAccess
