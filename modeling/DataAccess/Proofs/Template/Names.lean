import DataAccess.Proofs.Template.Splitting
import Mathlib.Data.List.Basic
import Mathlib.Data.List.Induction

/-!
# The names of a template

The parameters of a block are read off the tokens of its text, in whatever directive they stand,
and are listed once each in the order in which they stand first.
-/

set_option autoImplicit false

namespace DataAccess

theorem mem_firstOccurrences {name : String} {names : List String} :
    name ∈ firstOccurrences names ↔ name ∈ names := by
  have hfold (seen : List String) :
      name ∈ names.foldl (fun seen name => if name ∈ seen then seen else seen ++ [name]) seen ↔
        name ∈ seen ∨ name ∈ names := by
    induction names generalizing seen with
    | nil => simp
    | cons first rest ih =>
      rw [List.foldl_cons, ih, List.mem_cons]
      split
      · next h =>
        constructor
        · exact fun hm => hm.imp_right .inr
        · rintro (hm | rfl | hm)
          · exact .inl hm
          · exact .inl h
          · exact .inr hm
      · rw [List.mem_append, List.mem_singleton, or_assoc]
  rw [firstOccurrences, hfold]
  simp

theorem firstOccurrences_concat (names : List String) (name : String) :
    firstOccurrences (names ++ [name]) =
      if name ∈ names then firstOccurrences names else firstOccurrences names ++ [name] := by
  have hmem : name ∈ firstOccurrences names ↔ name ∈ names := mem_firstOccurrences
  rw [← if_congr hmem rfl rfl, firstOccurrences, List.foldl_append]
  rfl

theorem firstOccurrences_of_nodup {names : List String} (h : names.Nodup) :
    firstOccurrences names = names := by
  induction names using List.reverseRecOn with
  | nil => rfl
  | append_singleton names name ih =>
    obtain ⟨hnames, -, hdistinct⟩ := List.nodup_append.mp h
    have hnew : name ∉ names := fun hname =>
      hdistinct name hname name (List.mem_singleton_self name) rfl
    rw [firstOccurrences_concat, if_neg hnew, ih hnames]

theorem firstOccurrences_pairwise (names : List String) :
    (firstOccurrences names).Pairwise fun a b => names.idxOf a < names.idxOf b := by
  induction names using List.reverseRecOn with
  | nil => exact .nil
  | append_singleton names name ih =>
    have hplace {a : String} (ha : a ∈ firstOccurrences names) :
        (names ++ [name]).idxOf a = names.idxOf a :=
      List.idxOf_append_of_mem (mem_firstOccurrences.mp ha)
    have hbefore : (firstOccurrences names).Pairwise fun a b =>
        (names ++ [name]).idxOf a < (names ++ [name]).idxOf b :=
      ih.imp_of_mem fun ha hb hlt => by rwa [hplace ha, hplace hb]
    rw [firstOccurrences_concat]
    split
    · exact hbefore
    · next hnew =>
      refine List.pairwise_append.mpr ⟨hbefore, List.pairwise_singleton _ _, fun a ha b hb => ?_⟩
      obtain rfl := List.mem_singleton.mp hb
      have hlast : (names ++ [b]).idxOf b = names.length := by
        rw [List.idxOf_append_of_notMem hnew, List.idxOf_cons_self, Nat.add_zero]
      rw [hplace ha, hlast]
      exact List.idxOf_lt_length_of_mem (mem_firstOccurrences.mp ha)

theorem firstOccurrences_nodup (names : List String) : (firstOccurrences names).Nodup :=
  (firstOccurrences_pairwise names).imp fun hlt heq => absurd (heq ▸ hlt) (Nat.lt_irrefl _)

def Token.param? : Token → Option String
  | param name => some (String.ofList name)
  | _ => none

namespace Block

theorem paramNames_of_build {registry : Registry} {owner : Mapping} {source : String}
    {depth : Nat} {tokens : List Token} {b : Block} {outer : List Block}
    (h : build registry owner source depth tokens = .ok (b, outer)) :
    b.paramNames ++ outer.flatMap paramNames = tokens.filterMap Token.param? := by
  induction tokens generalizing depth b outer with
  | nil =>
    obtain ⟨-, rfl, rfl⟩ := build_nil h
    rfl
  | cons token rest ih =>
    have hcons := build_cons h
    cases token with
    | text cs =>
      obtain ⟨next, rfl, hb⟩ := hcons
      show next.paramNames ++ outer.flatMap paramNames = rest.filterMap Token.param?
      exact ih hb
    | param name =>
      obtain ⟨next, rfl, hb⟩ := hcons
      exact congrArg (String.ofList name :: ·) (ih hb)
    | table business =>
      obtain ⟨m, next, -, rfl, hb⟩ := hcons
      show next.paramNames ++ outer.flatMap paramNames = rest.filterMap Token.param?
      exact ih hb
    | column prop =>
      obtain ⟨c, next, -, rfl, hb⟩ := hcons
      show next.paramNames ++ outer.flatMap paramNames = rest.filterMap Token.param?
      exact ih hb
    | opening directive argument =>
      obtain ⟨guard, body, next, -, rfl, hb⟩ := hcons
      rw [paramNames, List.append_assoc]
      exact ih hb
    | unclosed directive behind => exact hcons.elim
    | closing =>
      obtain ⟨below, next, outer', -, rfl, rfl, hb⟩ := hcons
      show next.paramNames ++ outer'.flatMap paramNames = rest.filterMap Token.param?
      exact ih hb

theorem paramNames_of_ofText {registry : Registry} {owner : Mapping} {text : String} {b : Block}
    (h : ofText registry owner text = .ok b) :
    b.paramNames = (Token.scan text.toList).filterMap Token.param? := by
  have hnames := paramNames_of_build (ofText_eq_ok.mp h)
  rwa [List.flatMap_nil, List.append_nil] at hnames

end Block

end DataAccess
