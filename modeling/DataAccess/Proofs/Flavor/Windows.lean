import DataAccess.Flavor
import DataAccess.Proofs.Parameters.Names

/-!
# Clauses that cut windows

Each flavor has two clauses for a window of a query's rows, one with an offset and one without. A
clause is known by its text, and the text that is written for an offset and a limit is that of a
clause which keeps the `limit` rows from `offset` on. Rows have places counted from zero; the
numbers that SQL gives them count from one.
-/

set_option autoImplicit false

namespace DataAccess

open Text

/-- The numbers of a clause. The bound is a number of rows, or the number of the last row. -/
structure WindowClause where
  offset? : Option Nat
  bound : Nat
  deriving DecidableEq

namespace WindowClause

def text (flavor : Flavor) (body : String) : WindowClause → String
  | ⟨none, bound⟩ =>
    match flavor with
    | .oracle => "select * from ( " ++ body ++ " ) where rownum <= " ++ ofNat bound
    | _ => body ++ " limit " ++ ofNat bound
  | ⟨some offset, bound⟩ =>
    match flavor with
    | .mySQL => body ++ " limit " ++ ofNat offset ++ ", " ++ ofNat bound
    | .oracle =>
      "select * from ( select row_.*, rownum rownum_ from ( " ++ body ++
        " ) row_ ) where rownum_ <= " ++ ofNat bound ++ " and rownum_ > " ++ ofNat offset
    | _ => body ++ " limit " ++ ofNat bound ++ " offset " ++ ofNat offset

def Keeps (flavor : Flavor) (row : Nat) : WindowClause → Prop
  | ⟨none, bound⟩ =>
    match flavor with
    | .oracle => row + 1 ≤ bound
    | _ => row < bound
  | ⟨some offset, bound⟩ =>
    match flavor with
    | .oracle => row + 1 ≤ bound ∧ offset < row + 1
    | _ => offset ≤ row ∧ row < offset + bound

def EndsNumeral (front : String) : Prop := front.toList.getLast?.any Char.isDigit = false

theorem endsNumeral_words {words : String}
    (h : (words.toList.getLast?.any fun c => !c.isDigit) = true) (front : String) :
    EndsNumeral (front ++ words) := by
  rw [EndsNumeral, String.toList_append, List.getLast?_append]
  cases hlast : words.toList.getLast? with
  | none => simp [hlast] at h
  | some c => simpa [hlast] using h

theorem eq_nil_of_endsNumeral {whole : String} {front mid digits rest : List Char}
    (hend : EndsNumeral whole) (hwhole : whole.toList = front ++ mid)
    (hdigits : ∀ c ∈ digits, c.isDigit = true) (h : digits = mid ++ rest) : mid = [] := by
  rw [EndsNumeral, hwhole, List.getLast?_append] at hend
  cases hlast : mid.getLast? with
  | none => exact List.getLast?_eq_none_iff.mp hlast
  | some c =>
    have hc := hdigits c (h ▸ List.mem_append_left _ (List.mem_of_getLast? hlast))
    simp [hlast, hc] at hend

theorem numeral_injective {front front' : String} {n n' : Nat} (hend : EndsNumeral front)
    (hend' : EndsNumeral front') (h : front ++ ofNat n = front' ++ ofNat n') :
    front = front' ∧ n = n' := by
  have hlist := congrArg String.toList h
  simp only [ofNat, String.toList_append, String.toList_ofList] at hlist
  rcases List.append_eq_append_iff.mp hlist with ⟨mid, hfront, hdigits⟩ | ⟨mid, hfront, hdigits⟩
  · obtain rfl := eq_nil_of_endsNumeral hend' hfront (fun _ => isDigit_of_mem_digitsOf) hdigits
    rw [List.append_nil] at hfront
    exact ⟨(String.toList_inj.mp hfront).symm, digitsOf_injective hdigits⟩
  · obtain rfl := eq_nil_of_endsNumeral hend hfront (fun _ => isDigit_of_mem_digitsOf) hdigits
    rw [List.append_nil] at hfront
    exact ⟨String.toList_inj.mp hfront, digitsOf_injective hdigits.symm⟩

theorem words_injective (words : String)
    (hwords : (words.toList.getLast?.any fun c => !c.isDigit) = true) {front front' : String}
    {n n' : Nat} (h : front ++ words ++ ofNat n = front' ++ words ++ ofNat n') :
    front = front' ∧ n = n' := by
  obtain ⟨hfront, hn⟩ := numeral_injective (endsNumeral_words hwords _)
    (endsNumeral_words hwords _) h
  exact ⟨(String.append_left_inj words).mp hfront, hn⟩

theorem length_eq_of_numerals {words words' : String}
    (hwords : (words.toList.getLast?.any fun c => !c.isDigit) = true)
    (hwords' : (words'.toList.getLast?.any fun c => !c.isDigit) = true) {front front' : String}
    {n n' : Nat} (h : front ++ words ++ ofNat n = front' ++ words' ++ ofNat n') :
    front.length + words.length = front'.length + words'.length := by
  have hfront := (numeral_injective (endsNumeral_words hwords _)
    (endsNumeral_words hwords' _) h).1
  rw [← String.length_append, ← String.length_append, hfront]

variable {flavor : Flavor} {body : String}

theorem text_none_ne_some {bound bound' offset : Nat} :
    text flavor body ⟨none, bound⟩ ≠ text flavor body ⟨some offset, bound'⟩ := by
  intro h
  cases flavor with
  | mySQL =>
    have hlength := length_eq_of_numerals (by decide) (by decide) h
    have hcomma : ", ".length = 2 := by decide
    simp only [String.length_append] at hlength
    omega
  | oracle =>
    have hlength := length_eq_of_numerals (by decide) (by decide) h
    have hopening : "select * from ( ".length = 16 := by decide
    have hclosing : " ) where rownum <= ".length = 19 := by decide
    have hinner : "select * from ( select row_.*, rownum rownum_ from ( ".length = 53 := by decide
    simp only [String.length_append] at hlength
    omega
  | postgreSQL | sqLite | h2 =>
    have hlength := length_eq_of_numerals (by decide) (by decide) h
    have hoffset : " offset ".length = 8 := by decide
    simp only [String.length_append] at hlength
    omega

theorem text_injective : Function.Injective (text flavor body) := by
  rintro ⟨offset?, bound⟩ ⟨offset?', bound'⟩ h
  cases offset? with
  | none =>
    cases offset?' with
    | none =>
      obtain rfl : bound = bound' := by
        cases flavor with
        | oracle => exact (words_injective " ) where rownum <= " (by decide) h).2
        | mySQL | postgreSQL | sqLite | h2 => exact (words_injective " limit " (by decide) h).2
      rfl
    | some offset' => exact absurd h text_none_ne_some
  | some offset =>
    cases offset?' with
    | none => exact absurd h.symm text_none_ne_some
    | some offset' =>
      cases flavor with
      | mySQL =>
        obtain ⟨hfront, rfl⟩ := words_injective ", " (by decide) h
        obtain ⟨-, rfl⟩ := words_injective " limit " (by decide) hfront
        rfl
      | oracle =>
        obtain ⟨hfront, rfl⟩ := words_injective " and rownum_ > " (by decide) h
        obtain ⟨-, rfl⟩ := words_injective " ) row_ ) where rownum_ <= " (by decide) hfront
        rfl
      | postgreSQL | sqLite | h2 =>
        obtain ⟨hfront, rfl⟩ := words_injective " offset " (by decide) h
        obtain ⟨-, rfl⟩ := words_injective " limit " (by decide) hfront
        rfl

def ofWindow (flavor : Flavor) (offset limit : Nat) : WindowClause :=
  if offset = 0 then ⟨none, limit⟩
  else match flavor with
    | .oracle => ⟨some offset, offset + limit⟩
    | _ => ⟨some offset, limit⟩

theorem window_eq {offset limit : Nat} (h : offset + limit ≤ Count.greatest) :
    flavor.window body offset limit = (ofWindow flavor offset limit).text flavor body := by
  have hsum : Count.add limit offset = offset + limit := by
    rw [Count.add_eq (Nat.add_comm offset limit ▸ h), Nat.add_comm]
  cases offset with
  | zero => cases flavor <;> rfl
  | succ offset =>
    have hpos : 0 < offset + 1 := offset.succ_pos
    cases flavor with
    | oracle => rw [Flavor.window, if_pos hpos, hsum]; rfl
    | mySQL => rw [Flavor.window, if_pos hpos]; rfl
    | postgreSQL | sqLite | h2 => rw [Flavor.window.eq_def]; exact if_pos hpos

theorem offset?_ofWindow {offset limit : Nat} :
    (ofWindow flavor offset limit).offset? = none ↔ offset = 0 := by
  cases offset with
  | zero => simp [ofWindow]
  | succ offset => cases flavor <;> simp [ofWindow]

theorem keeps_ofWindow {offset limit row : Nat} :
    (ofWindow flavor offset limit).Keeps flavor row ↔ offset ≤ row ∧ row < offset + limit := by
  cases offset with
  | zero =>
    have hfirst : row < limit ↔ 0 ≤ row ∧ row < 0 + limit := by omega
    cases flavor <;> exact hfirst
  | succ offset =>
    cases flavor with
    | oracle =>
      have hnumbered : row + 1 ≤ offset + 1 + limit ∧ offset + 1 < row + 1 ↔
          offset + 1 ≤ row ∧ row < offset + 1 + limit := by omega
      exact hnumbered
    | mySQL | postgreSQL | sqLite | h2 => exact Iff.rfl

end WindowClause

end DataAccess
