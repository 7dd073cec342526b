/-!
# Pattern matching

A percent sign stands for any characters and an underscore for one. Matching is a loop over a
place in the text and one in the pattern, with one point to fall back to, the last percent sign
taken. A pattern character that equals the text's is passed with it before it is read as a percent
sign.
-/

set_option autoImplicit false

namespace DataAccess.Pattern

/-- The places reached in the text and in the pattern; for the last percent sign taken, its own
place and the place of the text where what stands behind it was tried last. -/
structure Place where
  text : Nat := 0
  pattern : Nat := 0
  star? : Option (Nat × Nat) := none
  deriving DecidableEq

inductive Next where
  | on (p : Place)
  | answer (matched : Bool)
  /-- Something was read that is not there. -/
  | outside
  deriving DecidableEq

def onlyPercents (pattern : List Char) : Bool := pattern.all (· == '%')

def fallBack (p : Place) : Next :=
  match p.star? with
  | some (star, tried) => .on ⟨tried + 1, star + 1, some (star, tried + 1)⟩
  | none => .answer false

def step (text pattern : Array Char) (p : Place) : Next :=
  if p.text < text.size then
    if p.pattern < pattern.size then
      match text[p.text]?, pattern[p.pattern]? with
      | some t, some c =>
        if c = '_' ∨ c = t then .on { p with text := p.text + 1, pattern := p.pattern + 1 }
        else if c = '%' then
          .on { p with pattern := p.pattern + 1, star? := some (p.pattern, p.text) }
        else fallBack p
      | _, _ => .outside
    else fallBack p
  else if p.pattern ≤ pattern.size then .answer (onlyPercents (pattern.toList.drop p.pattern))
  else .outside

structure Place.InRange (text pattern : Array Char) (p : Place) : Prop where
  text_le : p.text ≤ text.size
  pattern_le : p.pattern ≤ pattern.size
  star : ∀ star tried, p.star? = some (star, tried) → star < p.pattern ∧ tried ≤ p.text

/-- What a round can do, by the characters that it finds. -/
inductive Round (text pattern : Array Char) (p : Place) : Next → Prop
  | ended (ht : p.text = text.size) :
      Round text pattern p (.answer (onlyPercents (pattern.toList.drop p.pattern)))
  | passed {t c : Char} (ht : text[p.text]? = some t) (hc : pattern[p.pattern]? = some c)
      (hpass : c = '_' ∨ c = t) :
      Round text pattern p (.on { p with text := p.text + 1, pattern := p.pattern + 1 })
  | starred {t : Char} (ht : text[p.text]? = some t) (hc : pattern[p.pattern]? = some '%')
      (hne : t ≠ '%') :
      Round text pattern p
        (.on { p with pattern := p.pattern + 1, star? := some (p.pattern, p.text) })
  | stuck {t : Char} (ht : text[p.text]? = some t)
      (hc : ∀ c, pattern[p.pattern]? = some c → ¬(c = '_' ∨ c = t) ∧ c ≠ '%') :
      Round text pattern p (fallBack p)

section
variable {text pattern : Array Char} {p next : Place}

theorem round_step (h : p.InRange text pattern) :
    Round text pattern p (step text pattern p) := by
  unfold step
  by_cases ht : p.text < text.size
  · rw [if_pos ht]
    have htext : text[p.text]? = some text[p.text] := Array.getElem?_eq_getElem ht
    by_cases hc : p.pattern < pattern.size
    · have hpattern : pattern[p.pattern]? = some pattern[p.pattern] :=
        Array.getElem?_eq_getElem hc
      rw [if_pos hc, htext, hpattern]
      dsimp only
      split
      · next hpass => exact .passed htext hpattern hpass
      · next hfail =>
        split
        · next hstar =>
          rw [hstar] at hpattern hfail
          exact .starred htext hpattern fun he => hfail (.inr he.symm)
        · next hstar =>
          refine .stuck htext fun c hc => ?_
          obtain rfl := Option.some.inj (hpattern.symm.trans hc)
          exact ⟨hfail, hstar⟩
    · rw [if_neg hc]
      refine .stuck htext fun c hsome => ?_
      rw [Array.getElem?_eq_none (Nat.le_of_not_lt hc)] at hsome
      cases hsome
  · rw [if_neg ht, if_pos h.pattern_le]
    exact .ended (Nat.le_antisymm h.text_le (Nat.le_of_not_lt ht))

theorem step_ne_outside (h : p.InRange text pattern) : step text pattern p ≠ .outside := by
  intro hs
  have hround := round_step h
  rw [hs] at hround
  generalize hnext : Next.outside = next at hround
  cases hround with
  | ended | passed | starred => cases hnext
  | stuck =>
    unfold fallBack at hnext
    split at hnext <;> cases hnext

theorem step_inRange (h : p.InRange text pattern) (hs : step text pattern p = .on next) :
    next.InRange text pattern := by
  have hround := round_step h
  rw [hs] at hround
  generalize hnext : Next.on next = out at hround
  cases hround with
  | ended => cases hnext
  | passed ht hc =>
    cases hnext
    have htext := (Array.getElem?_eq_some_iff.mp ht).1
    have hpattern := (Array.getElem?_eq_some_iff.mp hc).1
    exact ⟨htext, hpattern, fun star tried hstar =>
      ⟨Nat.lt_succ_of_lt (h.star star tried hstar).1, Nat.le_succ_of_le (h.star star tried hstar).2⟩⟩
  | starred ht hc =>
    cases hnext
    have hpattern := (Array.getElem?_eq_some_iff.mp hc).1
    refine ⟨h.text_le, hpattern, fun star tried hstar => ?_⟩
    cases hstar
    exact ⟨Nat.lt_succ_self _, Nat.le_refl _⟩
  | stuck ht =>
    have htext := (Array.getElem?_eq_some_iff.mp ht).1
    unfold fallBack at hnext
    split at hnext
    · next star tried hstar =>
      cases hnext
      obtain ⟨hpast, htried⟩ := h.star star tried hstar
      refine ⟨Nat.lt_of_le_of_lt htried htext, Nat.le_trans hpast h.pattern_le,
        fun star' tried' hstar' => ?_⟩
      cases hstar'
      exact ⟨Nat.lt_succ_self _, Nat.le_refl _⟩
    · cases hnext

/-- A percent sign taken leaves less of the pattern for the next one; falling back leaves less of
the text to try it at; a character passed leaves less of the text. -/
def Place.left (text pattern : Array Char) (p : Place) : Nat × Nat × Nat :=
  match p.star? with
  | none => (pattern.size + 1, 0, text.size - p.text)
  | some (star, tried) => (pattern.size - star, text.size - tried, text.size - p.text)

theorem step_left (h : p.InRange text pattern) (hs : step text pattern p = .on next) :
    Prod.Lex (· < ·) (Prod.Lex (· < ·) (· < ·)) (next.left text pattern)
      (p.left text pattern) := by
  have hround := round_step h
  rw [hs] at hround
  generalize hnext : Next.on next = out at hround
  cases hround with
  | ended => cases hnext
  | passed ht =>
    cases hnext
    have htext := (Array.getElem?_eq_some_iff.mp ht).1
    have hless : text.size - (p.text + 1) < text.size - p.text := by omega
    unfold Place.left
    dsimp only
    split
    · exact .right _ (.right _ hless)
    · exact .right _ (.right _ hless)
  | starred ht hc =>
    cases hnext
    have hpattern := (Array.getElem?_eq_some_iff.mp hc).1
    unfold Place.left
    dsimp only
    split
    · exact .left _ _ (by omega)
    · next star tried hstar =>
      have hpast := (h.star star tried hstar).1
      exact .left _ _ (by omega)
  | stuck ht =>
    have htext := (Array.getElem?_eq_some_iff.mp ht).1
    unfold fallBack at hnext
    split at hnext
    · next star tried hstar =>
      cases hnext
      have htried := (h.star star tried hstar).2
      unfold Place.left
      rw [hstar]
      exact .right _ (.left _ _ (by omega))
    · cases hnext

end

def loop (text pattern : Array Char) (p : Place) (h : p.InRange text pattern) : Bool :=
  match hs : step text pattern p with
  | .on next => loop text pattern next (step_inRange h hs)
  | .answer matched => matched
  | .outside => absurd hs (step_ne_outside h)
termination_by p.left text pattern
decreasing_by exact step_left h hs

theorem inRange_start (text pattern : Array Char) : Place.InRange text pattern {} :=
  ⟨Nat.zero_le _, Nat.zero_le _, fun _ _ h => nomatch h⟩

def matchesText (text pattern : List Char) : Bool :=
  loop text.toArray pattern.toArray {} (inRange_start _ _)

end DataAccess.Pattern
