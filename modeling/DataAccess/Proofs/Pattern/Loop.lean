import DataAccess.Pattern
import Mathlib.Data.List.Forall2
import Mathlib.Logic.Relation

/-!
# What the matching loop decides

A percent sign of the pattern that meets one of the text is passed with it, and only elsewhere
taken for any characters. The loop decides exactly this reading of a pattern. It falls back to the
last percent sign alone: whatever an earlier one could still try comes past the last one later in
the text, so that the last one can try it too.
-/

set_option autoImplicit false

namespace DataAccess.Pattern

def Reached (text pattern : Array Char) (p : Place) : Prop :=
  Relation.ReflTransGen (fun p next => step text pattern p = .on next) {} p

variable {text pattern : Array Char} {p next : Place}

theorem reached_inRange (h : Reached text pattern p) : p.InRange text pattern := by
  induction h with
  | refl => exact inRange_start text pattern
  | tail _ hstep ih => exact step_inRange ih hstep

theorem exists_answer (h : p.InRange text pattern) :
    ∃ last, Relation.ReflTransGen (fun p next => step text pattern p = .on next) p last ∧
      step text pattern last = .answer (loop text pattern p h) := by
  fun_induction loop text pattern p h with
  | case1 p h next hs ih =>
    obtain ⟨last, hlast, hanswer⟩ := ih
    exact ⟨last, hlast.head hs, hanswer⟩
  | case2 p h matched hs => exact ⟨p, .refl, hs⟩

def Passes (t c : Char) : Prop := c = '_' ∨ c = t

/-- A percent sign is itself where the text has one, and elsewhere any characters. -/
inductive Reads : List Char → List Char → Prop
  | ended {pattern : List Char} (h : onlyPercents pattern = true) : Reads [] pattern
  | passed {t c : Char} {text pattern : List Char} (hpass : Passes t c) (h : Reads text pattern) :
      Reads (t :: text) (c :: pattern)
  | starred {t : Char} {text back pattern : List Char} (hne : t ≠ '%') (hback : back <:+ t :: text)
      (h : Reads back pattern) : Reads (t :: text) ('%' :: pattern)

theorem reads_nil_iff {rest : List Char} : Reads [] rest ↔ onlyPercents rest = true := by
  constructor
  · intro h
    cases h with
    | ended h => exact h
  · exact .ended

theorem reads_passed_iff {t c : Char} {ts cs : List Char} (hpass : Passes t c) :
    Reads (t :: ts) (c :: cs) ↔ Reads ts cs := by
  constructor
  · intro h
    cases h with
    | passed _ h => exact h
    | starred hne =>
      rcases hpass with hpass | hpass
      · cases hpass
      · exact absurd hpass.symm hne
  · exact .passed hpass

theorem reads_starred_iff {t : Char} {ts cs : List Char} (hne : t ≠ '%') :
    Reads (t :: ts) ('%' :: cs) ↔ ∃ back, back <:+ t :: ts ∧ Reads back cs := by
  constructor
  · intro h
    cases h with
    | passed hpass =>
      rcases hpass with hpass | hpass
      · cases hpass
      · exact absurd hpass.symm hne
    | starred _ hback h => exact ⟨_, hback, h⟩
  · rintro ⟨back, hback, h⟩
    exact .starred hne hback h

theorem exists_behind_percent {ts cs : List Char} (h : Reads ts ('%' :: cs)) :
    ∃ back, back <:+ ts ∧ Reads back cs := by
  cases h with
  | ended h =>
    rw [onlyPercents, List.all_cons, Bool.and_eq_true] at h
    exact ⟨[], List.nil_suffix, .ended h.2⟩
  | passed _ h => exact ⟨_, List.suffix_cons _ _, h⟩
  | starred _ hback h => exact ⟨_, hback, h⟩

theorem not_reads_stuck {t : Char} {ts rest : List Char}
    (h : ∀ c cs, rest = c :: cs → ¬Passes t c ∧ c ≠ '%') : ¬Reads (t :: ts) rest := by
  intro hr
  cases hr with
  | passed hpass => exact (h _ _ rfl).1 hpass
  | starred => exact (h _ _ rfl).2 rfl

theorem exists_overtaken {ts cs : List Char} (hpassed : List.Forall₂ Passes ts cs)
    {ahead more rest : List Char} (hahead : ahead <:+ ts ++ more) (h : Reads ahead (cs ++ rest)) :
    ∃ back, back <:+ more ∧ Reads back rest := by
  induction hpassed generalizing ahead with
  | nil => exact ⟨ahead, hahead, h⟩
  | @cons t c ts cs hpass hrest ih =>
    rw [List.cons_append] at h hahead
    rw [List.suffix_cons_iff] at hahead
    cases h with
    | ended h =>
      rw [onlyPercents, List.all_cons, List.all_append, Bool.and_eq_true, Bool.and_eq_true] at h
      exact ⟨[], List.nil_suffix, .ended h.2.2⟩
    | @passed t' _ text _ _ h =>
      have hlater : text <:+ ts ++ more := by
        rcases hahead with heq | hlater
        · cases heq
          exact List.suffix_refl _
        · exact (List.suffix_cons _ _).trans hlater
      exact ih hlater h
    | @starred t' text back _ hne hback h =>
      rcases hahead with heq | hlater
      · cases heq
        rcases hpass with hpass | hpass
        · cases hpass
        · exact absurd hpass.symm hne
      · exact ih (hback.trans hlater) h

theorem drop_of_getElem? {cs : Array Char} {n : Nat} {c : Char} (h : cs[n]? = some c) :
    cs.toList.drop n = c :: cs.toList.drop (n + 1) := by
  rw [← Array.getElem?_toList] at h
  obtain ⟨hn, rfl⟩ := List.getElem?_eq_some_iff.mp h
  exact List.drop_eq_getElem_cons hn

theorem suffix_drop_iff {back cs : List Char} {n : Nat} :
    back <:+ cs.drop n ↔ back = cs.drop n ∨ back <:+ cs.drop (n + 1) := by
  rw [← List.tail_drop]
  cases cs.drop n with
  | nil => simp
  | cons c rest => exact List.suffix_cons_iff

def Aligned (text pattern : Array Char) (p : Place) : Prop :=
  ∀ star tried, p.star? = some (star, tried) → ∃ ts cs, List.Forall₂ Passes ts cs ∧
    text.toList.drop tried = ts ++ text.toList.drop p.text ∧
    pattern.toList.drop (star + 1) = cs ++ pattern.toList.drop p.pattern

/-- What is left can be read, or the pattern behind the last percent sign can be read from a place
where it was not tried. -/
def Viable (text pattern : Array Char) (p : Place) : Prop :=
  Reads (text.toList.drop p.text) (pattern.toList.drop p.pattern) ∨
    ∃ star tried, p.star? = some (star, tried) ∧
      ∃ back, back <:+ text.toList.drop (tried + 1) ∧ Reads back (pattern.toList.drop (star + 1))

theorem aligned_start (text pattern : Array Char) : Aligned text pattern {} :=
  fun _ _ h => nomatch h

theorem aligned_starred {p : Place} {star tried : Nat}
    (hstar : p.star? = some (star, tried)) (htext : p.text = tried)
    (hpattern : p.pattern = star + 1) : Aligned text pattern p := by
  intro star' tried' hstar'
  rw [hstar] at hstar'
  cases hstar'
  exact ⟨[], [], .nil, by rw [htext]; rfl, by rw [hpattern]; rfl⟩

theorem aligned_step (h : p.InRange text pattern) (ha : Aligned text pattern p)
    (hs : step text pattern p = .on next) : Aligned text pattern next := by
  have hround := round_step h
  rw [hs] at hround
  generalize hnext : Next.on next = out at hround
  cases hround with
  | ended => cases hnext
  | passed ht hc hpass =>
    cases hnext
    intro star tried hstar
    obtain ⟨ts, cs, hpassed, htext, hpattern⟩ := ha star tried hstar
    refine ⟨ts ++ [_], cs ++ [_], List.rel_append hpassed (.cons hpass .nil), ?_, ?_⟩
    · rw [htext, drop_of_getElem? ht, List.append_assoc]
      rfl
    · rw [hpattern, drop_of_getElem? hc, List.append_assoc]
      rfl
  | starred =>
    cases hnext
    exact aligned_starred rfl rfl rfl
  | stuck =>
    unfold fallBack at hnext
    split at hnext
    · cases hnext
      exact aligned_starred rfl rfl rfl
    · cases hnext

theorem exists_of_star (ha : Aligned text pattern p) {star tried : Nat}
    (hstar : p.star? = some (star, tried)) {back : List Char}
    (hback : back <:+ text.toList.drop (tried + 1))
    (h : Reads back (pattern.toList.drop (star + 1))) :
    ∃ later, later <:+ text.toList.drop p.text ∧
      Reads later (pattern.toList.drop p.pattern) := by
  obtain ⟨ts, cs, hpassed, htext, hpattern⟩ := ha star tried hstar
  have hahead : back <:+ ts ++ text.toList.drop p.text := by
    rw [← htext]
    exact suffix_drop_iff.mpr (.inr hback)
  rw [hpattern] at h
  exact exists_overtaken hpassed hahead h

theorem fallBack_viable {t : Char} (ht : text[p.text]? = some t)
    (hc : ∀ c, pattern[p.pattern]? = some c → ¬Passes t c ∧ c ≠ '%') :
    match fallBack p with
    | .on next => Viable text pattern next ↔ Viable text pattern p
    | .answer matched => matched = true ↔ Viable text pattern p
    | .outside => False := by
  have hstuck : ¬Reads (text.toList.drop p.text) (pattern.toList.drop p.pattern) := by
    rw [drop_of_getElem? ht]
    refine not_reads_stuck fun c cs hrest => hc c ?_
    have hhead := congrArg List.head? hrest
    rwa [List.head?_drop, Array.getElem?_toList] at hhead
  unfold fallBack Viable
  cases hstar : p.star? with
  | none => simp [hstuck]
  | some s =>
    obtain ⟨star, tried⟩ := s
    simp only [hstuck, false_or, Option.some.injEq, Prod.mk.injEq]
    constructor
    · rintro (h | ⟨_, _, ⟨rfl, rfl⟩, back, hback, h⟩)
      · exact ⟨star, tried, ⟨rfl, rfl⟩, _, List.suffix_refl _, h⟩
      · exact ⟨star, tried, ⟨rfl, rfl⟩, back, suffix_drop_iff.mpr (.inr hback), h⟩
    · rintro ⟨_, _, ⟨rfl, rfl⟩, back, hback, h⟩
      rcases suffix_drop_iff.mp hback with rfl | hback
      · exact .inl h
      · exact .inr ⟨star, tried + 1, ⟨rfl, rfl⟩, back, hback, h⟩

/-- No round loses a way to read the pattern or finds one that was not there. -/
theorem step_viable (h : p.InRange text pattern) (ha : Aligned text pattern p) :
    match step text pattern p with
    | .on next => Viable text pattern next ↔ Viable text pattern p
    | .answer matched => matched = true ↔ Viable text pattern p
    | .outside => False := by
  have hround := round_step h
  generalize step text pattern p = out at hround
  cases hround with
  | ended ht =>
    have hend : text.toList.drop p.text = [] := by simp [ht]
    dsimp only
    rw [Viable, hend, reads_nil_iff]
    constructor
    · exact .inl
    · rintro (hdone | ⟨star, tried, hstar, back, hback, hr⟩)
      · exact hdone
      · obtain ⟨later, hlater, hr⟩ := exists_of_star ha hstar hback hr
        rw [hend, List.suffix_nil] at hlater
        rw [hlater] at hr
        exact reads_nil_iff.mp hr
  | passed ht hc hpass =>
    dsimp only
    rw [Viable, Viable, drop_of_getElem? ht, drop_of_getElem? hc, reads_passed_iff hpass]
  | @starred t ht hc hne =>
    have hleft : Reads (text.toList.drop p.text) (pattern.toList.drop p.pattern) ↔
        ∃ back, back <:+ text.toList.drop p.text ∧
          Reads back (pattern.toList.drop (p.pattern + 1)) := by
      rw [drop_of_getElem? ht, drop_of_getElem? hc, reads_starred_iff hne]
    have hnext : Viable text pattern
        { p with pattern := p.pattern + 1, star? := some (p.pattern, p.text) } ↔
        ∃ back, back <:+ text.toList.drop p.text ∧
          Reads back (pattern.toList.drop (p.pattern + 1)) := by
      simp only [Viable, suffix_drop_iff (n := p.text), or_and_right, exists_or, exists_eq_left,
        Option.some.injEq, Prod.mk.injEq, and_assoc]
      simp
    dsimp only
    rw [hnext, Viable, hleft]
    -- the sign before is forgotten here: whatever it could still try comes past this one too
    constructor
    · exact .inl
    · rintro (hr | ⟨star, tried, hstar, back, hback, hr⟩)
      · exact hr
      · obtain ⟨later, hlater, hr⟩ := exists_of_star ha hstar hback hr
        rw [drop_of_getElem? hc] at hr
        obtain ⟨behind, hbehind, hr⟩ := exists_behind_percent hr
        exact ⟨behind, hbehind.trans hlater, hr⟩
  | stuck ht hc => exact fallBack_viable ht hc

theorem loop_eq_true_iff (h : p.InRange text pattern) (ha : Aligned text pattern p) :
    loop text pattern p h = true ↔ Viable text pattern p := by
  fun_induction loop text pattern p h with
  | case1 p h next hs ih =>
    have hviable := step_viable h ha
    rw [hs] at hviable
    exact (ih (aligned_step h ha hs)).trans hviable
  | case2 p h matched hs =>
    have hviable := step_viable h ha
    rwa [hs] at hviable

theorem matchesText_eq_true_iff {text pattern : List Char} :
    matchesText text pattern = true ↔ Reads text pattern := by
  rw [matchesText, loop_eq_true_iff _ (aligned_start _ _), Viable]
  simp

end DataAccess.Pattern
