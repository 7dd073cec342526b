import DataAccess.Dict
import Mathlib.Data.List.Nodup
import Mathlib.Data.String.Basic

/-!
# Dictionaries

A dictionary that is made of pairs has the last value for each key. Its keys stand in strictly
rising order, so that look-ups and entries tell the same.
-/

set_option autoImplicit false

namespace DataAccess

theorem find?_key {α κ : Type} [DecidableEq κ] {key : α → κ} {items : List α}
    (h : (items.map key).Nodup) {item : α} (hitem : item ∈ items) :
    items.find? (fun other => key other = key item) = some item := by
  cases hfound : items.find? (fun other => key other = key item) with
  | none =>
    have hnone := List.find?_eq_none.mp hfound item hitem
    simp at hnone
  | some other =>
    have hkey : key other = key item := by simpa using List.find?_some hfound
    rw [List.inj_on_of_nodup_map h (List.mem_of_find?_eq_some hfound) hitem hkey]

namespace Dict

variable {α : Type}

theorem contains_insert (d : Dict α) (key other : String) (a : α) :
    (d.insert key a).contains other = true ↔ other = key ∨ d.contains other = true := by
  rw [contains, get?_insert]
  split
  · next heq => simp [heq]
  · next hne => simp [hne, contains]

theorem get?_foldl_insert {pairs : List (String × α)} {key : String}
    (h : key ∉ pairs.map Prod.fst) (d : Dict α) :
    (pairs.foldl (fun d (k, a) => d.insert k a) d).get? key = d.get? key := by
  induction pairs generalizing d with
  | nil => rfl
  | cons pair rest ih =>
    rw [List.map_cons, List.mem_cons, not_or] at h
    rw [List.foldl_cons, ih h.2, get?_insert, if_neg h.1]

theorem get?_ofList {pairs : List (String × α)} (h : (pairs.map Prod.fst).Nodup) {key : String}
    {a : α} (hmem : (key, a) ∈ pairs) : (ofList pairs).get? key = some a := by
  have hfold (d : Dict α) : (pairs.foldl (fun d (k, a) => d.insert k a) d).get? key = some a := by
    induction pairs generalizing d with
    | nil => cases hmem
    | cons pair rest ih =>
      rw [List.map_cons, List.nodup_cons] at h
      rcases List.mem_cons.mp hmem with rfl | hrest
      · rw [List.foldl_cons, get?_foldl_insert h.1, get?_insert, if_pos rfl]
      · exact ih h.2 hrest _
  exact hfold empty

theorem get?_foldl_insert_map (value : String → α) (names : List String)
    (d : Dict α) (name : String) :
    (names.foldl (fun d name => d.insert name (value name)) d).get? name =
      if name ∈ names then some (value name) else d.get? name := by
  induction names generalizing d with
  | nil => rfl
  | cons first names ih =>
    rw [List.foldl_cons, ih, get?_insert]
    by_cases hfirst : name = first <;> by_cases hmem : name ∈ names <;> simp [hfirst, hmem]

def Sorted (d : Dict α) : Prop := d.entries.Pairwise (·.1 < ·.1)

theorem mem_put {key : String} {a : α} {l : List (String × α)} {e : String × α}
    (h : e ∈ put key a l) : e = (key, a) ∨ e ∈ l := by
  induction l with
  | nil => exact .inl (List.mem_singleton.mp h)
  | cons first rest ih =>
    rw [put] at h
    split at h
    · exact (List.mem_cons.mp h).imp_right (List.mem_cons_of_mem first)
    · split at h
      · exact List.mem_cons.mp h
      · rcases List.mem_cons.mp h with rfl | h
        · exact .inr List.mem_cons_self
        · exact (ih h).imp_right (List.mem_cons_of_mem first)

theorem put_sorted {key : String} {a : α} {l : List (String × α)} (h : l.Pairwise (·.1 < ·.1)) :
    (put key a l).Pairwise (·.1 < ·.1) := by
  induction l with
  | nil => exact List.pairwise_singleton _ _
  | cons first rest ih =>
    obtain ⟨hfirst, hrest⟩ := List.pairwise_cons.mp h
    rw [put]
    split
    · next heq => exact List.pairwise_cons.mpr ⟨heq ▸ hfirst, hrest⟩
    · next hne =>
      split
      · next hlt =>
        refine List.pairwise_cons.mpr ⟨fun e he => ?_, h⟩
        rcases List.mem_cons.mp he with rfl | he
        · exact hlt
        · exact lt_trans hlt (hfirst e he)
      · next hnlt =>
        refine List.pairwise_cons.mpr ⟨fun e he => ?_, ih hrest⟩
        rcases mem_put he with rfl | he
        · exact lt_of_le_of_ne (not_lt.mp hnlt) hne
        · exact hfirst e he

theorem mem_of_get? {d : Dict α} {key : String} {a : α} (h : d.get? key = some a) :
    (key, a) ∈ d.entries := by
  obtain ⟨l⟩ := d
  change find key l = some a at h
  induction l with
  | nil => cases h
  | cons first rest ih =>
    rw [find] at h
    split at h
    · next heq =>
      cases h
      exact heq ▸ List.mem_cons_self
    · exact List.mem_cons_of_mem first (ih h)

theorem get?_of_mem {d : Dict α} (h : d.Sorted) {key : String} {a : α}
    (hmem : (key, a) ∈ d.entries) : d.get? key = some a := by
  obtain ⟨l⟩ := d
  change find key l = some a
  induction l with
  | nil => cases hmem
  | cons first rest ih =>
    obtain ⟨hfirst, hrest⟩ := List.pairwise_cons.mp h
    rw [find]
    rcases List.mem_cons.mp hmem with rfl | hmem
    · exact if_pos rfl
    · rw [if_neg (ne_of_lt (hfirst _ hmem))]
      exact ih hrest hmem

theorem put_perm {key : String} {l : List (String × α)} (h : key ∉ l.map Prod.fst) (a : α) :
    (put key a l).Perm ((key, a) :: l) := by
  induction l with
  | nil => exact .refl _
  | cons first rest ih =>
    rw [List.map_cons, List.mem_cons, not_or] at h
    rw [put, if_neg (Ne.symm h.1)]
    split
    · exact .refl _
    · exact ((ih h.2).cons first).trans (.swap _ _ _)

theorem foldl_insert_perm {pairs : List (String × α)} {d : Dict α}
    (h : (pairs.map Prod.fst ++ d.keys).Nodup) :
    (pairs.foldl (fun d (k, a) => d.insert k a) d).entries.Perm (pairs ++ d.entries) := by
  induction pairs generalizing d with
  | nil => exact .refl _
  | cons pair pairs ih =>
    rw [List.map_cons, List.cons_append] at h
    have hnew : pair.1 ∉ d.keys :=
      fun hkey => (List.nodup_cons.mp h).1 (List.mem_append_right _ hkey)
    have hput : (put pair.1 pair.2 d.entries).Perm (pair :: d.entries) := put_perm hnew pair.2
    have hkeys : (pairs.map Prod.fst ++ (d.insert pair.1 pair.2).keys).Perm
        (pair.1 :: (pairs.map Prod.fst ++ d.keys)) :=
      ((hput.map Prod.fst).append_left _).trans List.perm_middle
    exact (ih (hkeys.nodup_iff.mpr h)).trans ((hput.append_left pairs).trans List.perm_middle)

theorem ofList_perm {pairs : List (String × α)} (h : (pairs.map Prod.fst).Nodup) :
    (ofList pairs).entries.Perm pairs := by
  have hall : (pairs.map Prod.fst ++ (empty : Dict α).keys).Nodup := by
    rwa [keys, empty, List.map_nil, List.append_nil]
  have hperm := foldl_insert_perm hall
  rwa [empty, List.append_nil] at hperm

end Dict

end DataAccess
