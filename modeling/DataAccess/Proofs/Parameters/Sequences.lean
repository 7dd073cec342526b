import DataAccess.Proofs.Dictionaries
import DataAccess.Proofs.Parameters.Names

/-!
# Sequences of additions

Values are added one after the other, for any properties. The accumulator lists them in that
order, and under the name that an addition was answered with stand its value and its property,
because no other addition was answered with that name.
-/

set_option autoImplicit false

namespace DataAccess.Parameters

def addAll (ps : Parameters) : List (String × Value) → List String × Parameters
  | [] => ([], ps)
  | (prop, v) :: rest =>
    let answer := ps.add prop v
    (answer.1 :: (answer.2.addAll rest).1, (answer.2.addAll rest).2)

theorem length_addAll (ps : Parameters) (adds : List (String × Value)) :
    (ps.addAll adds).1.length = adds.length := by
  induction adds generalizing ps with
  | nil => rfl
  | cons first rest ih => exact congrArg (· + 1) (ih _)

theorem addAll_named {ps : Parameters} (h : Named ps) (adds : List (String × Value)) :
    Named (ps.addAll adds).2 := by
  induction adds generalizing ps with
  | nil => exact h
  | cons first rest ih => exact ih (add_named h first.1 first.2)

def entry (answered : String × String × Value) : Parameter :=
  ⟨answered.1, answered.2.1, answered.2.2⟩

theorem entries_addAll (ps : Parameters) (adds : List (String × Value)) :
    (ps.addAll adds).2.entries = ps.entries ++ ((ps.addAll adds).1.zip adds).map entry := by
  induction adds generalizing ps with
  | nil => exact (List.append_nil _).symm
  | cons first rest ih =>
    show ((ps.add first.1 first.2).2.addAll rest).2.entries = _
    rw [ih, add, List.append_assoc]
    rfl

/-- In every sequence of additions each has a name of its own, whatever the properties are. The
accumulator lists the values under these names in the order of the additions, and finds under
each name the value and the property of the addition that was answered with it. -/
theorem addAll_answers (adds : List (String × Value)) :
    let (names, ps) := empty.addAll adds
    names.Nodup ∧ ps.pairs = names.zip (adds.map Prod.snd) ∧
      List.Forall₂ (fun name add => ps.value? name = some (Prod.snd add) ∧
        ps.propOf? name = some (Prod.fst add)) names adds := by
  have hlength := length_addAll empty adds
  have hnamed := addAll_named named_empty adds
  have hentries := entries_addAll empty adds
  generalize empty.addAll adds = answered at hlength hnamed hentries
  obtain ⟨names, ps⟩ := answered
  simp only at hlength hnamed hentries ⊢
  rw [show empty.entries = [] from rfl, List.nil_append] at hentries
  have hnames : ps.entries.map (·.name) = names := by
    rw [hentries, List.map_map]
    exact List.map_fst_zip (Nat.le_of_eq hlength)
  refine ⟨hnames ▸ hnamed.nodup, ?_, ?_⟩
  · rw [pairs, hentries, List.map_map, List.zip_map_right]
    rfl
  · refine List.forall₂_iff_zip.mpr ⟨hlength, fun {name add} hmem => ?_⟩
    have hentry : entry (name, add) ∈ ps.entries := hentries ▸ List.mem_map_of_mem hmem
    have hfind : ps.find? name = some (entry (name, add)) := find?_key hnamed.nodup hentry
    rw [value?, propOf?, hfind]
    exact ⟨rfl, rfl⟩

/-- One base for three properties, and a property that ends like a name. -/
example : (empty.addAll [("user.name", .int 1), ("user_name", .int 2), ("user_name_0", .int 3),
    ("user name", .int 4), ("", .int 5)]).1 =
      ["user_name_0", "user_name_1", "user_name_0_0", "user_name_2", "p_0"] := by
  decide

end DataAccess.Parameters
