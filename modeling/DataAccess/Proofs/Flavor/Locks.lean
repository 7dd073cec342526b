import DataAccess.Magazine
import DataAccess.Proofs.Flavor.Windows
import DataAccess.Proofs.Trimming
import DataAccess.Session
import Mathlib.Data.String.Basic

/-!
# Locks and windows

A window is cut in front of the lock clause at the end of a text. So a query may be locked before
its window is cut or behind that, and the clause stands last and once.
-/

set_option autoImplicit false

namespace DataAccess

open Text

namespace Text

theorem asciiLower_append (cs ds : List Char) :
    asciiLower (cs ++ ds) = asciiLower cs ++ asciiLower ds := List.map_append

theorem toLower_of_isDigit {c : Char} (h : c.isDigit = true) : c.toLower = c := by
  have hle : c.val ≤ '9'.val := of_decide_eq_true (Bool.and_eq_true_iff.mp h).2
  have hupper : ¬ (c.val ≥ 'A'.val ∧ c.val ≤ 'Z'.val) := by
    rintro ⟨hge, -⟩
    exact absurd (UInt32.le_trans hge hle) (by decide)
  exact dif_neg hupper

end Text

namespace Flavor

def lockClauses : List String := [forUpdateNowait, forUpdate]

def EndsLocked (sql : String) : Prop :=
  ∃ clause ∈ lockClauses, clause.toList <:+ asciiLower sql.toList

instance : DecidablePred EndsLocked := fun sql =>
  inferInstanceAs (Decidable (∃ clause ∈ lockClauses, clause.toList <:+ asciiLower sql.toList))

theorem lockClause_cases (f : Flavor) (mode : LockMode) :
    f.lockClause mode = "" ∨ f.lockClause mode ∈ lockClauses := by
  cases f <;> cases mode <;> decide

theorem getLast?_of_mem_lockClauses {clause : String} (h : clause ∈ lockClauses) :
    ∃ c, clause.toList.getLast? = some c ∧ isBlank c = false ∧ c.isDigit = false := by
  rw [lockClauses, List.mem_cons, List.mem_singleton] at h
  rcases h with rfl | rfl
  · exact ⟨'t', by decide⟩
  · exact ⟨'e', by decide⟩

theorem suffix_asciiLower_append {clause : String} (h : clause ∈ lockClauses) (body : List Char) :
    clause.toList <:+ asciiLower (body ++ clause.toList) := by
  have hlower : ∀ clause ∈ lockClauses, asciiLower clause.toList = clause.toList := by decide
  rw [asciiLower_append, hlower clause h]
  exact List.suffix_append _ _

theorem not_suffix_asciiLower_forUpdate (body : List Char) :
    ¬ forUpdateNowait.toList <:+ asciiLower (body ++ forUpdate.toList) := by
  rintro ⟨front, heq⟩
  have hlast := congrArg List.getLast? heq
  have hnowait : forUpdateNowait.toList.getLast? = some 't' := by decide
  have hplain : (asciiLower forUpdate.toList).getLast? = some 'e' := by decide
  rw [asciiLower_append, List.getLast?_append, List.getLast?_append, hnowait, hplain] at hlast
  cases hlast

theorem splitLock_of_clause {sql clause : String} {body : List Char}
    (hclause : clause ∈ lockClauses) (h : trim sql.toList = body ++ clause.toList) :
    splitLock sql = (String.ofList body, clause) := by
  have hlength : (body ++ clause.toList).length - clause.length = body.length := by
    rw [List.length_append, String.length_toList, Nat.add_sub_cancel]
  have hcut : (String.ofList ((body ++ clause.toList).take body.length),
      String.ofList ((body ++ clause.toList).drop body.length)) =
        (String.ofList body, clause) := by
    rw [List.take_left, List.drop_left, String.ofList_toList]
  have hsuffix := suffix_asciiLower_append hclause body
  have hother := not_suffix_asciiLower_forUpdate body
  unfold splitLock
  simp only [h, List.isSuffixOf_iff_suffix]
  rw [lockClauses, List.mem_cons, List.mem_singleton] at hclause
  rcases hclause with rfl | rfl
  · rw [if_pos hsuffix, hlength, hcut]
    rfl
  · rw [if_neg hother, if_pos hsuffix, hlength, hcut]
    rfl

theorem splitLock_of_unlocked {sql : String} (h : ¬ EndsLocked (trimmed sql)) :
    splitLock sql = (trimmed sql, "") := by
  have hno : ∀ clause ∈ lockClauses, ¬ clause.toList <:+ asciiLower (trim sql.toList) := by
    intro clause hclause hsuffix
    exact h ⟨clause, hclause, (toList_trimmed sql).symm ▸ hsuffix⟩
  rw [lockClauses, List.forall_mem_cons, List.forall_mem_singleton] at hno
  unfold splitLock
  simp only [List.isSuffixOf_iff_suffix, if_neg hno.1, if_neg hno.2, trimmed_eq]
  rfl

variable {sql : String}

theorem splitLock_locked (hsome : isBlankText sql = false)
    (hlast : sql.toList.getLast?.any isBlank = false) {clause : String}
    (hclause : clause ∈ lockClauses) : splitLock (sql ++ clause) = (trimmed sql, clause) := by
  obtain ⟨c, hc, hblank, -⟩ := getLast?_of_mem_lockClauses hclause
  have hlocked : (sql.toList ++ clause.toList).getLast?.any isBlank = false := by
    rw [List.getLast?_append, hc, Option.some_or, Option.any_some, hblank]
  have htrim : trim (sql ++ clause).toList = trim sql.toList ++ clause.toList := by
    rw [isBlankText_eq_allBlank] at hsome
    rw [String.toList_append, trim_of_last hlocked, trimStart_append hsome, trim_of_last hlast]
  rw [splitLock_of_clause hclause htrim, trimmed_eq]

theorem not_endsLocked_trimmed (hlast : sql.toList.getLast?.any isBlank = false)
    (h : ¬ EndsLocked sql) : ¬ EndsLocked (trimmed sql) := by
  rintro ⟨clause, hclause, hsuffix⟩
  refine h ⟨clause, hclause, hsuffix.trans ?_⟩
  rw [toList_trimmed, trim_of_last hlast]
  exact List.IsSuffix.map _ (List.dropWhile_suffix isBlank)

theorem window_numeral (f : Flavor) (body : String) (offset limit : Nat) :
    ∃ (front : String) (n : Nat), f.window body offset limit = front ++ Text.ofNat n := by
  rw [window.eq_def]
  split <;> split <;> exact ⟨_, _, rfl⟩

theorem not_endsLocked_window (f : Flavor) (body : String) (offset limit : Nat) :
    ¬ EndsLocked (f.window body offset limit) := by
  obtain ⟨front, n, hwindow⟩ := f.window_numeral body offset limit
  rintro ⟨clause, hclause, rest, hsuffix⟩
  obtain ⟨c, hc, -, hletter⟩ := getLast?_of_mem_lockClauses hclause
  have hdigits : (digitsOf n).getLast?.isSome = true := List.getLast?_isSome.mpr Nat.toDigits_ne_nil
  obtain ⟨digit, hdigit⟩ := Option.isSome_iff_exists.mp hdigits
  have hnumeral := isDigit_of_mem_digitsOf (List.mem_of_getLast? hdigit)
  have hlast := congrArg List.getLast? hsuffix
  rw [hwindow, String.toList_append, Text.ofNat, String.toList_ofList, asciiLower_append,
    List.getLast?_append, List.getLast?_append, hc, asciiLower, List.getLast?_map, hdigit,
    Option.map_some, toLower_of_isDigit hnumeral, Option.some_or, Option.some_or] at hlast
  cases hlast
  rw [hnumeral] at hletter
  cases hletter

theorem limited_append (f : Flavor) (hsome : isBlankText sql = false)
    (hlast : sql.toList.getLast?.any isBlank = false) {clause : String}
    (hclause : clause ∈ lockClauses) (offset limit : Nat) :
    f.limited (sql ++ clause) offset limit = f.window (trimmed sql) offset limit ++ clause := by
  rw [limited, splitLock_locked hsome hlast hclause]

theorem limited_of_unlocked (f : Flavor) (hlast : sql.toList.getLast?.any isBlank = false)
    (h : ¬ EndsLocked sql) (offset limit : Nat) :
    f.limited sql offset limit = f.window (trimmed sql) offset limit := by
  rw [limited, splitLock_of_unlocked (not_endsLocked_trimmed hlast h)]
  exact String.append_empty

theorem limited_locked_eq (f : Flavor) (mode : LockMode) (hsome : isBlankText sql = false)
    (hlast : sql.toList.getLast?.any isBlank = false) (h : ¬ EndsLocked sql)
    (offset limit : Nat) : f.limited (f.locked mode sql) offset limit =
      f.window (trimmed sql) offset limit ++ f.lockClause mode := by
  rw [locked]
  rcases lockClause_cases f mode with hnone | hclause
  · rw [hnone, String.append_empty, String.append_empty, limited_of_unlocked f hlast h]
  · exact limited_append f hsome hlast hclause offset limit

/-- Locking and cutting a window commute where the text ends with neither a blank nor a clause. The
window is that of the whole query, and the clause stands behind it, once. So does a session run a
prepared text that is such, with the template's own lock. -/
theorem limited_locked (f : Flavor) (mode : LockMode) (offset limit : Nat)
    (hsome : isBlankText sql = false) (hlast : sql.toList.getLast?.any isBlank = false)
    (hunlocked : ¬ EndsLocked sql) :
    f.limited (f.locked mode sql) offset limit = f.locked mode (f.limited sql offset limit) ∧
    f.limited (f.locked mode sql) offset limit =
      f.window (trimmed sql) offset limit ++ f.lockClause mode ∧
    ¬ EndsLocked (f.window (trimmed sql) offset limit) ∧
    ∀ (env : Environment) (default : Option TableCondition) (b : BoundTemplate)
      (g : PhysicalGroup) (params : List Value), b.mapping.flavor = f → b.lock = mode →
      env.groups.resolve b.mapping.group (b.condition default) = .ok g →
      b.prepare default = .ok ⟨sql, params⟩ →
      Session.statement env default b (some (offset, limit)) =
        .ok (g, ⟨f.window (trimmed sql) offset limit ++ f.lockClause mode, params,
          env.settings.timeoutSeconds⟩) := by
  have hboth := limited_locked_eq f mode hsome hlast hunlocked offset limit
  refine ⟨?_, hboth, not_endsLocked_window f _ _ _, ?_⟩
  · rw [hboth, limited_of_unlocked f hlast hunlocked, locked]
  · rintro env default b g params rfl rfl hgroup hprepare
    simp only [Session.statement, hgroup, hprepare, bind, Except.bind, hboth]
    rfl

/-- A clause inside of the query is not taken off. -/
theorem limited_locked_quoted :
    let m := Magazine.article .oracle
    let g : PhysicalGroup := ⟨"default", "master", none⟩
    let env : Environment := ⟨{ registry := .empty }, Dict.ofList [("default", .physical g)], {}⟩
    let body : Block := .text "select id from " (.table m
      (.text " where NAME <> ' for update' and id > " (.param "id" .done)))
    let b : BoundTemplate :=
      { template := { mapping := m, text := "", body }, lock := .upgradeNowait,
        values := Dict.ofList [("id", .int 7)] }
    let sql := "select id from TB_ARTICLE where NAME <> ' for update' and id > :1"
    let paged := "select * from ( select row_.*, rownum rownum_ from ( select id " ++
      "from TB_ARTICLE where NAME <> ' for update' and id > :1 ) row_ ) " ++
      "where rownum_ <= 30 and rownum_ > 20" ++
      " for update nowait"
    (isBlankText sql = false ∧ sql.toList.getLast?.any isBlank = false ∧ ¬ EndsLocked sql) ∧
    oracle.limited (oracle.locked .upgradeNowait sql) 20 10 = paged ∧
    Session.statement env none b (some (20, 10)) = .ok (g, ⟨paged, [.int 7], none⟩) := by
  intro m g env body b sql paged
  have hsome : isBlankText sql = false := by
    rw [isBlankText_eq_allBlank]
    decide
  have hlast : sql.toList.getLast?.any isBlank = false := by decide
  have hunlocked : ¬ EndsLocked sql := by decide
  have hpaged : oracle.window (trimmed sql) 20 10 ++ oracle.lockClause .upgradeNowait = paged := by
    rw [trimmed_eq]
    decide +kernel
  obtain ⟨-, hlimited, -, hsession⟩ :=
    limited_locked oracle .upgradeNowait 20 10 hsome hlast hunlocked
  refine ⟨⟨hsome, hlast, hunlocked⟩, hlimited.trans hpaged, ?_⟩
  rw [← hpaged]
  exact hsession env none b g [.int 7] rfl rfl rfl (by decide +kernel)

end Flavor

end DataAccess
