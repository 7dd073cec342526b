import DataAccess.Condition
import DataAccess.Proofs.Pattern.Loop

/-!
# Patterns as SQL reads them

For SQL a percent sign of the pattern is any characters, also where the text has a percent sign.
A condition on a pattern never holds of a text that SQL would not find; it misses some of those
where both have a percent sign, and no others.
-/

set_option autoImplicit false

namespace DataAccess

namespace Pattern

/-- SQL's `like`: a percent sign stands for any characters, an underscore for one, and any other
character for itself. -/
inductive Likes : List Char → List Char → Prop
  | nil : Likes [] []
  | any {text back pattern : List Char} (hback : back <:+ text) (h : Likes back pattern) :
      Likes text ('%' :: pattern)
  | one {t : Char} {text pattern : List Char} (h : Likes text pattern) :
      Likes (t :: text) ('_' :: pattern)
  | same {c : Char} {text pattern : List Char} (hany : c ≠ '%') (hone : c ≠ '_')
      (h : Likes text pattern) : Likes (c :: text) (c :: pattern)

theorem likes_onlyPercents {pattern : List Char} (h : onlyPercents pattern = true) :
    Likes [] pattern := by
  induction pattern with
  | nil => exact .nil
  | cons c pattern ih =>
    rw [onlyPercents, List.all_cons, Bool.and_eq_true, beq_iff_eq] at h
    obtain ⟨rfl, h⟩ := h
    exact .any List.nil_suffix (ih h)

theorem likes_passed {t c : Char} {text pattern : List Char} (hpass : Passes t c)
    (h : Likes text pattern) : Likes (t :: text) (c :: pattern) := by
  by_cases hone : c = '_'
  · subst hone
    exact .one h
  · obtain rfl : c = t := hpass.resolve_left hone
    by_cases hany : c = '%'
    · subst hany
      exact .any (List.suffix_cons _ _) h
    · exact .same hany hone h

theorem likes_of_reads {text pattern : List Char} (h : Reads text pattern) :
    Likes text pattern := by
  induction h with
  | ended h => exact likes_onlyPercents h
  | passed hpass _ ih => exact likes_passed hpass ih
  | starred _ hback _ ih => exact .any hback ih

theorem reads_of_likes {text pattern : List Char} (hpercent : '%' ∈ text → '%' ∉ pattern)
    (h : Likes text pattern) : Reads text pattern := by
  induction h with
  | nil => exact .ended rfl
  | @any text back pattern hback _ ih =>
    have htext : '%' ∉ text := fun hmem => hpercent hmem List.mem_cons_self
    have hreads : Reads back pattern := ih fun hmem => absurd (hback.subset hmem) htext
    cases text with
    | nil =>
      rw [List.suffix_nil.mp hback] at hreads
      have hrest : onlyPercents pattern = true := reads_nil_iff.mp hreads
      exact .ended hrest
    | cons t text =>
      have hne : t ≠ '%' := fun he => htext (he ▸ List.mem_cons_self)
      exact .starred hne hback hreads
  | one _ ih =>
    refine .passed (.inl rfl) (ih fun hmem hpattern => ?_)
    exact hpercent (List.mem_cons_of_mem _ hmem) (List.mem_cons_of_mem _ hpattern)
  | same _ _ _ ih =>
    refine .passed (.inr rfl) (ih fun hmem hpattern => ?_)
    exact hpercent (List.mem_cons_of_mem _ hmem) (List.mem_cons_of_mem _ hpattern)

end Pattern

namespace Condition

open Pattern

theorem holds_like {β : Type} [Bean β] {c : Condition} {bean : β} {text pattern : String}
    (hop : c.op = .like) (hvalue : c.value = some (.text pattern))
    (hbean : Bean.value? bean c.field = some (.text text)) :
    c.holds bean = matchesText text.toList pattern.toList := by
  rw [holds, hvalue]
  dsimp only
  rw [hop, hbean]
  rfl

/-- The loop on a bean's text and a pattern ends with what the condition says of the bean, every
place that it reaches is in the text and in the pattern, no round reads anything outside them, and
where the condition holds the pattern is like the text. -/
theorem like_sound {β : Type} [Bean β] {c : Condition} {bean : β} {text pattern : String}
    (hop : c.op = .like) (hvalue : c.value = some (.text pattern))
    (hbean : Bean.value? bean c.field = some (.text text)) :
    (∃ last, Reached text.toList.toArray pattern.toList.toArray last ∧
        step text.toList.toArray pattern.toList.toArray last = .answer (c.holds bean)) ∧
      (∀ p, Reached text.toList.toArray pattern.toList.toArray p →
        p.InRange text.toList.toArray pattern.toList.toArray ∧
          step text.toList.toArray pattern.toList.toArray p ≠ .outside) ∧
      (c.holds bean = true → Likes text.toList pattern.toList) := by
  rw [holds_like hop hvalue hbean]
  refine ⟨exists_answer (inRange_start _ _), fun p hp => ?_, fun hmatches => ?_⟩
  · have hrange := reached_inRange hp
    exact ⟨hrange, step_ne_outside hrange⟩
  · exact likes_of_reads (matchesText_eq_true_iff.mp hmatches)

/-- The first try behind the percent sign passes a character before it fails. -/
theorem like_sound_retried :
    let c : Condition := ⟨"name", .like, some (.text "%z_")⟩
    let bean : Record := Dict.ofList [("name", .text "azzb")]
    c.holds bean = true ∧ Likes "azzb".toList "%z_".toList ∧
      ∃ last, Reached "azzb".toList.toArray "%z_".toList.toArray last ∧
        step "azzb".toList.toArray "%z_".toList.toArray last = .answer true := by
  intro c bean
  have hbean : Bean.value? bean c.field = some (.text "azzb") := by decide +kernel
  have hholds : c.holds bean = true := by cbv
  obtain ⟨hends, -, hlikes⟩ := like_sound (c := c) rfl rfl hbean
  rw [hholds] at hends
  exact ⟨hholds, hlikes hholds, hends⟩

/-- A condition on a pattern holds of the texts in which the pattern can be read with each of its
percent signs that meets one of the text as this one character. These are the texts that the
pattern is like, unless text and pattern both have a percent sign. -/
theorem like_complete {β : Type} [Bean β] {c : Condition} {bean : β} {text pattern : String}
    (hop : c.op = .like) (hvalue : c.value = some (.text pattern))
    (hbean : Bean.value? bean c.field = some (.text text)) :
    (c.holds bean = true ↔ Reads text.toList pattern.toList) ∧
      (('%' ∈ text.toList → '%' ∉ pattern.toList) →
        (c.holds bean = true ↔ Likes text.toList pattern.toList)) := by
  have hreads : c.holds bean = true ↔ Reads text.toList pattern.toList := by
    rw [holds_like hop hvalue hbean, matchesText_eq_true_iff]
  refine ⟨hreads, fun hpercent => ?_⟩
  rw [hreads]
  exact ⟨likes_of_reads, reads_of_likes hpercent⟩

/-- The last percent sign takes the end of the text, and an underscore is like any character. -/
theorem like_complete_guzz :
    let c : Condition := ⟨"name", .like, some (.text "g%z_%")⟩
    let bean : Record := Dict.ofList [("name", .text "guzzle")]
    Likes "guzzle".toList "g%z_%".toList ∧ c.holds bean = true := by
  intro c bean
  have hbean : Bean.value? bean c.field = some (.text "guzzle") := by decide +kernel
  have hpercent : '%' ∈ "guzzle".toList → '%' ∉ "g%z_%".toList := by decide
  have hlikes : Likes "guzzle".toList "g%z_%".toList := by
    have hbehind : Likes "zzle".toList "z_%".toList :=
      .same (by decide) (by decide) (.one (.any List.nil_suffix .nil))
    exact .same (by decide) (by decide) (.any ⟨['u'], rfl⟩ hbehind)
  exact ⟨hlikes, ((like_complete (c := c) rfl rfl hbean).2 hpercent).mpr hlikes⟩

/-- The text begins with a percent sign: the pattern's is passed with it, and none is left to take
the next character. -/
theorem like_misses_percent :
    let c : Condition := ⟨"name", .like, some (.text "%b")⟩
    let bean : Record := Dict.ofList [("name", .text "%ab")]
    Likes "%ab".toList "%b".toList ∧ c.holds bean = false := by
  refine ⟨.any ⟨['%', 'a'], rfl⟩ (.same (by decide) (by decide) .nil), ?_⟩
  cbv

end Condition

end DataAccess
