import DataAccess.Operator
import DataAccess.Proofs.Trimming

/-!
# The leftmost token of a text

A token begins where its characters stand; an equals sign before a tilde begins the token of
three characters only. A text is split at the leftmost place where a token begins, around the
longest one there, and so in one way at most.
-/

set_option autoImplicit false

namespace DataAccess.Operator

def spellings : List String :=
  ["!=", "<>", ">=", ">", "<=", "<", "==", "=~=", "=", "~~", "~="]

def Begins (token : String) (cs : List Char) : Prop :=
  token ∈ spellings ∧ token.toList <+: cs ∧ (token = "=" → ¬ ['=', '~'] <+: cs)

instance (token : String) (cs : List Char) : Decidable (Begins token cs) :=
  inferInstanceAs (Decidable (_ ∧ _ ∧ _))

/-- A text split around the longest of the tokens that begin at the leftmost place where any
does. -/
structure FirstToken (text before : List Char) (token : String) (behind : List Char) : Prop where
  whole : text = before ++ (token.toList ++ behind)
  begins : Begins token (token.toList ++ behind)
  longest : ∀ other, Begins other (token.toList ++ behind) →
    other.toList.length ≤ token.toList.length
  first : ∀ place < before.length, ∀ other, ¬ Begins other (text.drop place)

theorem mem_all (op : Operator) : op ∈ all := by
  cases op <;> decide

theorem mem_spellings {op : Operator} {token : String} (h : token ∈ op.tokens) :
    token ∈ spellings := by
  have hall : ∀ op ∈ all, ∀ token ∈ op.tokens, token ∈ spellings := by decide
  exact hall op (mem_all op) token h

theorem ofToken?_of_mem {op : Operator} {token : String} (h : token ∈ op.tokens) :
    ofToken? token = some op := by
  have hall : ∀ op ∈ all, ∀ token ∈ op.tokens,
      (all.find? fun op => op.tokens.contains (String.ofList (Text.trim token.toList))) =
        some op := by
    decide +kernel
  rw [ofToken?, Text.trimmed_eq]
  exact hall op (mem_all op) token h

def extending : String → List Char
  | ">" => ['=']
  | "<" => ['=', '>']
  | "=" => ['=', '~']
  | _ => []

/-- The token is no part of a longer one. -/
def Ends (token : String) (behind : List Char) : Prop :=
  ∀ c ∈ behind.head?, c ∉ extending token

theorem ends_of_extending {token : String} (h : extending token = []) (behind : List Char) :
    Ends token behind := by
  intro c _ hc
  rw [h] at hc
  cases hc

theorem ends_of_ne {token : String} {behind : List Char}
    (h : ∀ c ∈ extending token, ∀ rest, behind ≠ c :: rest) : Ends token behind := by
  intro c hhead hc
  obtain ⟨rest, hbehind⟩ := List.head?_eq_some_iff.mp hhead
  exact h c hc rest hbehind

theorem exists_extending {token other : String} (hmem : token ∈ spellings)
    (homem : other ∈ spellings) (hfront : token.toList <+: other.toList)
    (hlong : token.toList.length < other.toList.length) :
    ∃ c ∈ extending token, token.toList ++ [c] <+: other.toList := by
  have hall : ∀ token ∈ spellings, ∀ other ∈ spellings, token.toList <+: other.toList →
      token.toList.length < other.toList.length →
        ((extending token).any fun c => (token.toList ++ [c]).isPrefixOf other.toList) = true := by
    decide +kernel
  obtain ⟨c, hc, hlonger⟩ := List.any_eq_true.mp (hall token hmem other homem hfront hlong)
  exact ⟨c, hc, List.isPrefixOf_iff_prefix.mp hlonger⟩

theorem begins_of_ends {token : String} {behind : List Char} (hmem : token ∈ spellings)
    (h : Ends token behind) : Begins token (token.toList ++ behind) := by
  refine ⟨hmem, List.prefix_append _ _, ?_⟩
  rintro rfl ⟨rest, hrest⟩
  have hbehind : '~' :: rest = behind :=
    List.append_cancel_left (show ['='] ++ ('~' :: rest) = ['='] ++ behind from hrest)
  exact h '~' (by rw [← hbehind]; rfl) (by decide)

theorem length_le_of_ends {token other : String} {behind : List Char} (hmem : token ∈ spellings)
    (h : Ends token behind) (hother : Begins other (token.toList ++ behind)) :
    other.toList.length ≤ token.toList.length := by
  obtain ⟨homem, hfront, -⟩ := hother
  refine Nat.le_of_not_lt fun hlong => ?_
  have hboth : token.toList <+: other.toList :=
    List.prefix_of_prefix_length_le (List.prefix_append _ _) hfront (Nat.le_of_lt hlong)
  obtain ⟨c, hc, hlonger⟩ := exists_extending hmem homem hboth hlong
  obtain ⟨rest, hrest⟩ := hlonger.trans hfront
  rw [List.append_assoc] at hrest
  have hbehind := List.append_cancel_left hrest
  exact h c (by rw [← hbehind]; rfl) hc

theorem firstToken_of_ends {text before behind : List Char} {token : String}
    (hmem : token ∈ spellings) (hwhole : text = before ++ (token.toList ++ behind))
    (h : Ends token behind)
    (hfirst : ∀ place < before.length, ∀ other, ¬ Begins other (text.drop place)) :
    FirstToken text before token behind :=
  ⟨hwhole, begins_of_ends hmem h, fun _ => length_le_of_ends hmem h, hfirst⟩

theorem exists_token_of_leading {cs behind : List Char} {op : Operator}
    (h : leading? cs = some (op, behind)) :
    ∃ token ∈ op.tokens, cs = token.toList ++ behind ∧ Ends token behind := by
  unfold leading? at h
  split at h <;> cases h
  case h_1 => exact ⟨"!=", by decide, rfl, ends_of_extending rfl _⟩
  case h_2 => exact ⟨">=", by decide, rfl, ends_of_extending rfl _⟩
  case h_4 => exact ⟨"<>", by decide, rfl, ends_of_extending rfl _⟩
  case h_5 => exact ⟨"<=", by decide, rfl, ends_of_extending rfl _⟩
  case h_7 => exact ⟨"==", by decide, rfl, ends_of_extending rfl _⟩
  case h_8 => exact ⟨"=~=", by decide, rfl, ends_of_extending rfl _⟩
  case h_11 => exact ⟨"~~", by decide, rfl, ends_of_extending rfl _⟩
  case h_12 => exact ⟨"~=", by decide, rfl, ends_of_extending rfl _⟩
  case h_3 hequal =>
    exact ⟨">", by decide, rfl, ends_of_ne (by simpa [extending] using hequal)⟩
  case h_6 hbigger hequal =>
    exact ⟨"<", by decide, rfl, ends_of_ne (by simpa [extending] using ⟨hequal, hbigger⟩)⟩
  case h_10 hequal _ htilde =>
    exact ⟨"=", by decide, rfl, ends_of_ne (by simpa [extending] using ⟨hequal, htilde⟩)⟩

theorem not_begins_of_leading {cs : List Char} (h : leading? cs = none) (token : String) :
    ¬ Begins token cs := by
  rintro ⟨hmem, ⟨rest, rfl⟩, hstop⟩
  simp only [spellings, List.mem_cons, List.not_mem_nil, or_false] at hmem
  rcases hmem with rfl | rfl | rfl | rfl | rfl | rfl | rfl | rfl | rfl | rfl | rfl
  -- The three tokens of one character are left, which look at what is behind them.
  all_goals simp [leading?] at h
  · split at h <;> simp_all
  · split at h <;> simp_all
  · split at h <;> simp_all

theorem FirstToken.cons {c : Char} {rest before behind : List Char} {token : String}
    (hnone : ∀ other, ¬ Begins other (c :: rest)) (h : FirstToken rest before token behind) :
    FirstToken (c :: rest) (c :: before) token behind where
  whole := congrArg (c :: ·) h.whole
  begins := h.begins
  longest := h.longest
  first
    | 0, _ => hnone
    | place + 1, hplace => h.first place (Nat.lt_of_succ_lt_succ hplace)

theorem split_cases (cs : List Char) :
    (split? cs = none ∧ ∀ place token, ¬ Begins token (cs.drop place)) ∨
    ∃ before token op behind, split? cs = some (before, op, behind) ∧ token ∈ op.tokens ∧
      FirstToken cs before token behind := by
  induction cs with
  | nil =>
    refine .inl ⟨rfl, fun place token => ?_⟩
    rw [List.drop_nil]
    exact not_begins_of_leading rfl token
  | cons c rest ih =>
    cases hfront : leading? (c :: rest) with
    | some found =>
      obtain ⟨op, behind⟩ := found
      obtain ⟨token, htoken, hwhole, hends⟩ := exists_token_of_leading hfront
      refine .inr ⟨[], token, op, behind, by rw [split?, hfront], htoken, ?_⟩
      exact firstToken_of_ends (mem_spellings htoken) hwhole hends
        fun _ hplace => absurd hplace (Nat.not_lt_zero _)
    | none =>
      have hnone := not_begins_of_leading hfront
      rcases ih with ⟨hsplit, hrest⟩ | ⟨before, token, op, behind, hsplit, htoken, hfirst⟩
      · refine .inl ⟨by rw [split?, hfront, hsplit]; rfl, fun place => ?_⟩
        cases place with
        | zero => exact hnone
        | succ place => exact hrest place
      · refine .inr ⟨c :: before, token, op, behind, ?_, htoken, hfirst.cons hnone⟩
        rw [split?, hfront, hsplit]
        rfl

theorem FirstToken.begins_drop {text before behind : List Char} {token : String}
    (h : FirstToken text before token behind) : Begins token (text.drop before.length) := by
  rw [h.whole, List.drop_left]
  exact h.begins

theorem FirstToken.length_le {text before behind before' behind' : List Char}
    {token token' : String} (h : FirstToken text before token behind)
    (h' : FirstToken text before' token' behind') : before.length ≤ before'.length :=
  Nat.le_of_not_lt fun hlt => h.first before'.length hlt token' h'.begins_drop

/-- A text has one leftmost token. -/
theorem FirstToken.unique {text before behind before' behind' : List Char}
    {token token' : String} (h : FirstToken text before token behind)
    (h' : FirstToken text before' token' behind') :
    before = before' ∧ token = token' ∧ behind = behind' := by
  have hplace := Nat.le_antisymm (h.length_le h') (h'.length_le h)
  obtain ⟨rfl, hrest⟩ := List.append_inj (h.whole.symm.trans h'.whole) hplace
  have hlength : token.toList.length = token'.toList.length :=
    Nat.le_antisymm (h'.longest token (hrest ▸ h.begins)) (h.longest token' (hrest ▸ h'.begins))
  obtain ⟨htoken, hbehind⟩ := List.append_inj hrest hlength
  exact ⟨rfl, String.toList_inj.mp htoken, hbehind⟩

theorem split_eq_some {cs before behind : List Char} {op : Operator} :
    split? cs = some (before, op, behind) ↔
      ∃ token, ofToken? token = some op ∧ FirstToken cs before token behind := by
  rcases split_cases cs with ⟨hsplit, hnone⟩ |
    ⟨before', token', op', behind', hsplit, htoken', hfirst'⟩
  · rw [hsplit]
    refine ⟨fun h => (nomatch h), fun ⟨token, _, hfirst⟩ => ?_⟩
    exact absurd hfirst.begins_drop (hnone _ _)
  · have hof := ofToken?_of_mem htoken'
    rw [hsplit]
    constructor
    · intro h
      cases h
      exact ⟨token', hof, hfirst'⟩
    · rintro ⟨token, htoken, hfirst⟩
      obtain ⟨rfl, rfl, rfl⟩ := hfirst.unique hfirst'
      cases htoken.symm.trans hof
      rfl

theorem split_isSome {cs : List Char} :
    (split? cs).isSome ↔ ∃ place token, Begins token (cs.drop place) := by
  rcases split_cases cs with ⟨hsplit, hnone⟩ | ⟨before, token, _, _, hsplit, _, hfirst⟩
  · rw [hsplit]
    refine ⟨fun h => (nomatch h), fun ⟨place, token, hbegins⟩ => ?_⟩
    exact absurd hbegins (hnone place token)
  · rw [hsplit]
    exact ⟨fun _ => ⟨before.length, token, hfirst.begins_drop⟩, fun _ => rfl⟩

/-- The equals sign before the tilde is passed over. -/
example : ¬ Begins "=" "=~b~=c".toList ∧
    split? "a=~b~=c".toList = some ("a=~b".toList, .like, "c".toList) := by
  decide

end DataAccess.Operator
