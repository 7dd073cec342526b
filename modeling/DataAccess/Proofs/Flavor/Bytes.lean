import DataAccess.Proofs.Flavor.Locks
import DataAccess.Proofs.Text.Bytes

/-!
# Cutting a lock clause off by its bytes

The clause is looked for in a copy of the text in lower case, and the text itself is cut by the
length of the clause in bytes. Only ASCII letters have other letter cases here, so what stands in
the text for the clause has as many bytes as the clause.
-/

set_option autoImplicit false

namespace DataAccess

open Text

namespace Text

theorem ascii_of_toLower {c : Char} (h : c.toLower.toNat < 128) : c.toNat < 128 := by
  unfold Char.toLower at h
  split at h
  · next hupper => exact Nat.lt_of_le_of_lt (UInt32.le_iff_toNat_le.mp hupper.2) (by decide)
  · exact h

theorem ascii_of_asciiLower {cs : List Char} (h : IsAscii (asciiLower cs)) : IsAscii cs :=
  fun _ hc => ascii_of_toLower (h _ (List.mem_map_of_mem hc))

end Text

namespace Flavor

def splitLockBytes (sql : String) : Option (String × String) :=
  let s := trimmed sql
  match lockClauses.find? fun clause => clause.toList.isSuffixOf (lowered s).toList with
  | none => some (s, "")
  | some clause => do
    let stop ← minus? s.utf8ByteSize clause.utf8ByteSize
    return (← between? s 0 stop, ← between? s stop s.utf8ByteSize)

def limitedBytes (f : Flavor) (sql : String) (offset limit : Nat) : Option String := do
  let (body, lock) ← splitLockBytes sql
  return f.window body offset limit ++ lock

theorem ascii_of_mem_lockClauses {clause : String} (h : clause ∈ lockClauses) :
    IsAscii clause.toList := by
  have hall : ∀ clause ∈ lockClauses, IsAscii clause.toList := by decide
  exact hall clause h

theorem exists_ascii_end {cs : List Char} {clause : String} (hclause : clause ∈ lockClauses)
    (h : clause.toList <:+ asciiLower cs) : ∃ body lock, cs = body ++ lock ∧
      lock.length = clause.length ∧ byteLength lock = clause.utf8ByteSize := by
  obtain ⟨front, hfront⟩ := h
  obtain ⟨body, lock, rfl, -, hlock⟩ := List.map_eq_append_iff.mp hfront.symm
  have hascii := ascii_of_mem_lockClauses hclause
  have hlength : lock.length = clause.length := by
    rw [← String.length_toList, ← hlock, List.length_map]
  refine ⟨body, lock, rfl, hlength, ?_⟩
  have hlower : IsAscii (asciiLower lock) := by
    rw [asciiLower, hlock]
    exact hascii
  rw [byteLength_ascii (ascii_of_asciiLower hlower), hlength, ← byteLength_toList,
    byteLength_ascii hascii, String.length_toList]

theorem splitLock_eq_find (sql : String) : splitLock sql =
    match lockClauses.find? fun clause =>
      clause.toList.isSuffixOf (asciiLower (trim sql.toList)) with
    | none => (trimmed sql, "")
    | some clause =>
      let at_ := (trim sql.toList).length - clause.length
      (String.ofList ((trim sql.toList).take at_), String.ofList ((trim sql.toList).drop at_)) := by
  rw [splitLock, trimmed_eq]
  dsimp only [lockClauses]
  rw [List.find?_cons, List.find?_cons, List.find?_nil]
  cases forUpdateNowait.toList.isSuffixOf (asciiLower (trim sql.toList)) with
  | true => rfl
  | false => cases forUpdate.toList.isSuffixOf (asciiLower (trim sql.toList)) <;> rfl

theorem splitLockBytes_eq (sql : String) : splitLockBytes sql = some (splitLock sql) := by
  have hlowered : (lowered (trimmed sql)).toList = asciiLower (trim sql.toList) := by
    rw [lowered, String.toList_ofList, toList_trimmed]
  rw [splitLockBytes, splitLock_eq_find]
  dsimp only
  rw [hlowered]
  cases hfind : lockClauses.find? fun clause =>
      clause.toList.isSuffixOf (asciiLower (trim sql.toList)) with
  | none => rfl
  | some clause =>
    have hfound := List.find?_some hfind
    obtain ⟨body, lock, htrim, hlength, hbytes⟩ :=
      exists_ascii_end (List.mem_of_find?_eq_some hfind)
        (List.isSuffixOf_iff_suffix.mp hfound)
    have hstart : Behind (trimmed sql) 0 (body ++ lock) := by
      rw [← htrim, ← toList_trimmed]
      exact Behind.start _
    have hbody := hstart.between
    have hlock := hstart.append.through
    rw [Nat.zero_add] at hbody hlock
    -- The lengths in bytes and in characters lead to the same place, behind `body`.
    have hminus : minus? (trimmed sql).utf8ByteSize clause.utf8ByteSize =
        some (byteLength body) := by
      rw [← hstart.size, Nat.zero_add, byteLength_append, hbytes, minus?,
        if_pos (Nat.le_add_left _ _), Nat.add_sub_cancel]
    have hat : (trim sql.toList).length - clause.length = body.length := by
      rw [htrim, List.length_append, hlength, Nat.add_sub_cancel]
    dsimp only
    rw [hat, htrim, List.take_left, List.drop_left, hminus, Option.bind_eq_bind, Option.bind_some,
      hbody, hlock]
    rfl

theorem limitedBytes_eq (f : Flavor) (sql : String) (offset limit : Nat) :
    f.limitedBytes sql offset limit = some (f.limited sql offset limit) := by
  rw [limitedBytes, splitLockBytes_eq]
  rfl

end Flavor

end DataAccess
