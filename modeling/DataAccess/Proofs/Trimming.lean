import DataAccess.Text

/-!
# Trimming

A text is its trimmed part between blanks. The trimmed part neither begins nor ends with a
blank, and holds every other character.
-/

set_option autoImplicit false

namespace DataAccess.Text

theorem isNamePart_cases {c : Char} (h : isNamePart c = true) :
    ((65 ≤ c.toNat ∧ c.toNat ≤ 90 ∨ 97 ≤ c.toNat ∧ c.toNat ≤ 122) ∨
      48 ≤ c.toNat ∧ c.toNat ≤ 57) ∨ c = '_' := by
  have hparts : ((decide (65 ≤ c.toNat ∧ c.toNat ≤ 90) ||
      decide (97 ≤ c.toNat) && decide (c.toNat ≤ 122)) ||
      decide (48 ≤ c.toNat) && decide (c.toNat ≤ 57) || c == '_') = true := h
  simpa only [Bool.or_eq_true, Bool.and_eq_true, decide_eq_true_eq, beq_iff_eq] using hparts

theorem not_isBlank_of_isNamePart {c : Char} (h : isNamePart c = true) : isBlank c = false := by
  rcases isNamePart_cases h with hrange | rfl
  · simp only [isBlank, Bool.or_eq_false_iff, Bool.and_eq_false_iff, decide_eq_false_iff_not,
      beq_eq_false_iff_ne]
    omega
  · decide

theorem allBlank_append (cs ds : List Char) :
    allBlank (cs ++ ds) = (allBlank cs && allBlank ds) := List.all_append

theorem allBlank_takeWhile (cs : List Char) : allBlank (cs.takeWhile isBlank) = true :=
  List.all_takeWhile

theorem exists_append_trimEnd (cs : List Char) :
    ∃ back, allBlank back = true ∧ cs = trimEnd cs ++ back := by
  refine ⟨(cs.reverse.takeWhile isBlank).reverse, ?_, ?_⟩
  · rw [allBlank, List.all_reverse]
    exact allBlank_takeWhile cs.reverse
  · rw [trimEnd, ← List.reverse_append, List.takeWhile_append_dropWhile, List.reverse_reverse]

theorem exists_append_trim (cs : List Char) :
    ∃ front back, allBlank front = true ∧ allBlank back = true ∧
      cs = front ++ (trim cs ++ back) := by
  obtain ⟨back, hback, heq⟩ := exists_append_trimEnd (trimStart cs)
  refine ⟨cs.takeWhile isBlank, back, allBlank_takeWhile cs, hback, ?_⟩
  rw [trim, ← heq, trimStart, List.takeWhile_append_dropWhile]

theorem exists_append_trimStart (cs : List Char) :
    ∃ front, allBlank front = true ∧ cs = front ++ trimStart cs :=
  ⟨cs.takeWhile isBlank, allBlank_takeWhile cs, List.takeWhile_append_dropWhile.symm⟩

theorem trim_append {front cs back : List Char} (hfront : allBlank front = true)
    (hback : allBlank back = true) (hne : cs ≠ []) (hhead : cs.head?.any isBlank = false)
    (hlast : cs.getLast?.any isBlank = false) : trim (front ++ (cs ++ back)) = cs := by
  have hstart : trimStart (front ++ (cs ++ back)) = cs ++ back := by
    apply dropWhile_append_eq hfront
    cases cs with
    | nil => exact absurd rfl hne
    | cons c cs => exact hhead
  have hend : (back.reverse ++ cs.reverse).dropWhile isBlank = cs.reverse := by
    apply dropWhile_append_eq
    · rw [List.all_reverse]
      exact hback
    · rwa [List.head?_reverse]
  rw [trim, hstart, trimEnd, List.reverse_append, hend, List.reverse_reverse]

theorem not_isBlank_of_head_trim {c : Char} {cs rest : List Char} (h : trim cs = c :: rest) :
    isBlank c = false := by
  obtain ⟨back, -, heq⟩ := exists_append_trimEnd (trimStart cs)
  have hhead := List.head?_dropWhile_not isBlank cs
  rw [← trimStart, heq, ← trim, h] at hhead
  simpa using hhead

theorem not_isBlank_of_last_trim {c : Char} {cs front : List Char} (h : trim cs = front ++ [c]) :
    isBlank c = false := by
  have hhead := List.head?_dropWhile_not isBlank (trimStart cs).reverse
  have hrev : (trimStart cs).reverse.dropWhile isBlank = c :: front.reverse := by
    rw [← List.reverse_reverse ((trimStart cs).reverse.dropWhile isBlank), ← trimEnd, ← trim, h]
    simp
  rw [hrev] at hhead
  simpa using hhead

theorem trim_of_last {cs : List Char} (h : cs.getLast?.any isBlank = false) :
    trim cs = trimStart cs := by
  obtain ⟨front, -, hcs⟩ := exists_append_trimStart cs
  have hlast : (trimStart cs).reverse.head?.any isBlank = false := by
    rw [List.head?_reverse]
    rw [hcs, List.getLast?_append] at h
    cases hend : (trimStart cs).getLast? with
    | none => rfl
    | some c => rwa [hend, Option.some_or] at h
  have hfront : ([] : List Char).all isBlank = true := rfl
  have hkept : (trimStart cs).reverse.dropWhile isBlank = (trimStart cs).reverse :=
    dropWhile_append_eq hfront hlast
  rw [trim, trimEnd, hkept, List.reverse_reverse]

theorem trimStart_append {cs : List Char} (h : allBlank cs = false) (ds : List Char) :
    trimStart (cs ++ ds) = trimStart cs ++ ds := by
  have hsome : ¬ (cs.dropWhile isBlank).isEmpty = true := by
    intro hnil
    have hcs := List.takeWhile_append_dropWhile (p := isBlank) (l := cs)
    rw [List.isEmpty_iff.mp hnil, List.append_nil] at hcs
    rw [← hcs, allBlank_takeWhile] at h
    cases h
  rw [trimStart, List.dropWhile_append, if_neg hsome, trimStart]

theorem mem_trim {c : Char} {cs : List Char} (h : c ∈ cs) (hc : isBlank c = false) :
    c ∈ trim cs := by
  obtain ⟨front, back, hfront, hback, heq⟩ := exists_append_trim cs
  rw [heq, List.mem_append, List.mem_append] at h
  rcases h with h | h | h
  · have := List.all_eq_true.mp hfront c h
    simp [hc] at this
  · exact h
  · have := List.all_eq_true.mp hback c h
    simp [hc] at this

theorem trimmed_eq (s : String) : trimmed s = String.ofList (trim s.toList) := by
  rw [← toList_trimmed, String.ofList_toList]

theorem allBlank_trim (cs : List Char) : allBlank (trim cs) = allBlank cs := by
  obtain ⟨front, back, hfront, hback, heq⟩ := exists_append_trim cs
  rw [congrArg allBlank heq, allBlank_append, allBlank_append, hfront, hback, Bool.true_and,
    Bool.and_true]

theorem isEmpty_trim (cs : List Char) : (trim cs).isEmpty = allBlank cs := by
  rw [← allBlank_trim]
  cases htrim : trim cs with
  | nil => rfl
  | cons c rest => simp [allBlank, not_isBlank_of_head_trim htrim]

/-- A text is `core` between blanks, and no blank is first or last in `core`. -/
structure TrimsTo (text core : List Char) : Prop where
  between : ∃ front back, (∀ c ∈ front ++ back, isBlank c = true) ∧ text = front ++ (core ++ back)
  head : ∀ c ∈ core.head?, isBlank c = false
  last : ∀ c ∈ core.getLast?, isBlank c = false

theorem trimsTo_trim (text : List Char) : TrimsTo text (trim text) where
  between := by
    obtain ⟨front, back, hfront, hback, htext⟩ := exists_append_trim text
    refine ⟨front, back, fun c hc => ?_, htext⟩
    rcases List.mem_append.mp hc with hc | hc
    · exact List.all_eq_true.mp hfront c hc
    · exact List.all_eq_true.mp hback c hc
  head c hc := by
    obtain ⟨rest, hrest⟩ := List.head?_eq_some_iff.mp hc
    exact not_isBlank_of_head_trim hrest
  last c hc := by
    obtain ⟨front, hfront⟩ := List.getLast?_eq_some_iff.mp hc
    exact not_isBlank_of_last_trim hfront

theorem trim_of_trimsTo {text core : List Char} (h : TrimsTo text core) : trim text = core := by
  obtain ⟨front, back, hblank, rfl⟩ := h.between
  rw [List.forall_mem_append] at hblank
  have hfront : allBlank front = true := List.all_eq_true.mpr hblank.1
  have hback : allBlank back = true := List.all_eq_true.mpr hblank.2
  by_cases hcore : core = []
  · subst hcore
    rw [← List.isEmpty_iff, isEmpty_trim, allBlank_append, hfront]
    exact hback
  · refine trim_append hfront hback hcore ?_ ?_ <;> rw [Option.any_eq_false]
    · exact h.head
    · exact h.last

theorem trimsTo_iff {text core : List Char} : TrimsTo text core ↔ trim text = core :=
  ⟨trim_of_trimsTo, fun h => h ▸ trimsTo_trim text⟩

end DataAccess.Text
