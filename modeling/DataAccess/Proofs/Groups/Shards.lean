import DataAccess.Groups
import DataAccess.Magazine
import DataAccess.Proofs.Value.Integers

/-!
# Shards by remainder

A modulo router reads the value of its key as a signed integer of 64 bits and takes the group at
the remainder, which is never negative. So each integer below 2^63 has its one group, whether it is
signed or not; an unsigned one from 2^63 on is no key for the router, and has none.
-/

set_option autoImplicit false

namespace DataAccess

theorem Value.toInt?_integer {v : Value} {k : Int} (hk : v.integer? = some k) :
    v.toInt?.map (·.toInt) = if k < 2 ^ 63 then some k else none := by
  cases v with
  | int i =>
    cases hk
    rw [if_pos (Int64.toInt_lt i)]
    rfl
  | uint n =>
    cases hk
    rw [toInt?, Text.signed?]
    by_cases hsmall : (n.toNat : Int) < 2 ^ 63
    · have hlow : -2 ^ 63 ≤ (n.toNat : Int) := by omega
      rw [if_pos hsmall, if_pos ⟨hlow, hsmall⟩, Option.map_some,
        Int64.toInt_ofInt_of_le hlow hsmall]
    · rw [if_neg hsmall, if_neg fun h => hsmall h.2]
      rfl
  | _ => cases hk

namespace Router

variable {key : String} {condition : TableCondition} {v : Value} {k : Int}

theorem route?_modulo (targets : List String) (hkey : condition.get? key = some v)
    (hk : v.integer? = some k) : (modulo key targets).route? (some condition) =
      if k < 2 ^ 63 then targets[(k % targets.length).toNat]? else none := by
  have hint : keyInt? key (some condition) = if k < 2 ^ 63 then some k else none := by
    rw [keyInt?, Option.bind_some, hkey, Option.bind_some, Value.toInt?_integer hk]
  rw [route?, hint]
  split <;> rfl

theorem exists_remainder {targets : List String} (hne : targets ≠ []) (k : Int) :
    ∃ (q : Int) (i : Fin targets.length), k = targets.length * q + i ∧
      targets[(k % targets.length).toNat]? = some targets[i] := by
  have hpos : 0 < (targets.length : Int) := Int.natCast_pos.mpr (List.length_pos_iff.mpr hne)
  have hlow := Int.emod_nonneg k (Int.ne_of_gt hpos)
  have hhigh := Int.emod_lt_of_pos k hpos
  have hsplit := Int.mul_ediv_add_emod k targets.length
  refine ⟨k / targets.length, ⟨(k % targets.length).toNat, by omega⟩, ?_, ?_⟩
  · show k = targets.length * (k / targets.length) + ((k % targets.length).toNat : Int)
    rw [Int.toNat_of_nonneg hlow, hsplit]
  · exact List.getElem?_eq_getElem (by omega)

end Router

namespace Groups

theorem physical_eq (gs : Groups) (name : String) : gs.physical name =
    match gs.get? name with
    | some (.physical g) => .ok g
    | some (.sharded ..) => .error (.wrongGroupKind name "physics")
    | none => .error (.unknownGroup name) := by
  rw [physical, group]
  cases gs.get? name with
  | none => rfl
  | some g => cases g <;> rfl

theorem resolve_sharded {gs : Groups} {name shards : String} {router : Router}
    (h : gs.get? name = some (.sharded shards router)) (condition : TableCondition) :
    gs.resolve name (some condition) =
      match router.route? (some condition) with
      | some target => gs.physical target
      | none => .error (.noShardMatch name condition.display) := by
  rw [resolve, group, h]
  rfl

/-- A modulo router with targets takes every integer below 2^63 to the target at its remainder, and
a sharded group then is the physical group of that name, or the fault of a name that has none; an
integer from 2^63 on is routed nowhere. One integer is always routed alike, signed or not and
whatever else the condition says. -/
theorem modulo_routes {key : String} {targets : List String} (hne : targets ≠ [])
    {condition : TableCondition} {v : Value} (hkey : condition.get? key = some v) {k : Int}
    (hk : v.integer? = some k) :
    let router := Router.modulo key targets
    (k < 2 ^ 63 → ∃ (q : Int) (i : Fin targets.length), k = targets.length * q + i ∧
      router.route? (some condition) = some targets[i] ∧
      ∀ (gs : Groups) (name shards : String), gs.get? name = some (.sharded shards router) →
        gs.resolve name (some condition) =
          match gs.get? targets[i] with
          | some (.physical g) => .ok g
          | some (.sharded ..) => .error (.wrongGroupKind targets[i] "physics")
          | none => .error (.unknownGroup targets[i])) ∧
    (2 ^ 63 ≤ k → router.route? (some condition) = none ∧
      ∀ (gs : Groups) (name shards : String), gs.get? name = some (.sharded shards router) →
        gs.resolve name (some condition) = .error (.noShardMatch name condition.display)) ∧
    ∀ (condition' : TableCondition) (v' : Value), condition'.get? key = some v' →
      v'.integer? = some k → router.route? (some condition') = router.route? (some condition) := by
  intro router
  have hroute := Router.route?_modulo targets hkey hk
  refine ⟨fun hsmall => ?_, fun hlarge => ?_, fun condition' v' hkey' hk' => ?_⟩
  · obtain ⟨q, i, hi, htarget⟩ := Router.exists_remainder hne k
    rw [if_pos hsmall, htarget] at hroute
    refine ⟨q, i, hi, hroute, fun gs name shards hgroup => ?_⟩
    rw [resolve_sharded hgroup, hroute]
    exact physical_eq gs targets[i]
  · rw [if_neg (Int.not_lt.mpr hlarge)] at hroute
    refine ⟨hroute, fun gs name shards hgroup => ?_⟩
    rw [resolve_sharded hgroup, hroute]
  · rw [hroute]
    exact Router.route?_modulo targets hkey' hk'

/-- The comments of the user -1 are in the second of two groups. -/
theorem modulo_routes_negative :
    let condition : TableCondition := Dict.ofList [("userId", .int (-1))]
    let gs : Groups := Dict.ofList [("comment1", .physical ⟨"comment1", "c1", none⟩),
      ("comment2", .physical ⟨"comment2", "c2", none⟩),
      ("comments", .sharded "comments" (.modulo "userId" ["comment1", "comment2"]))]
    gs.resolve "comments" (some condition) = .ok ⟨"comment2", "c2", none⟩ := by
  intro condition gs
  have hkey : condition.get? "userId" = some (.int (-1)) := by decide
  have hk : (Value.int (-1)).integer? = some (-1) := by decide
  have hne : ["comment1", "comment2"] ≠ [] := by decide
  obtain ⟨q, i, hq, -, hresolve⟩ := (modulo_routes hne hkey hk).1 (by decide)
  obtain rfl : i = 1 := by
    have hi : (i : Nat) < 2 := i.isLt
    have hlength : (["comment1", "comment2"].length : Int) = 2 := rfl
    rw [hlength] at hq
    ext
    show (i : Nat) = 1
    omega
  exact hresolve gs "comments" "comments" (by decide)

/-- The first unsigned integer that is no signed one is even, and is routed nowhere. -/
theorem upper_half_unrouted :
    let router : Router := .modulo "userId" ["comment1", "comment2"]
    let condition : TableCondition := Dict.ofList [("userId", .uint (2 ^ 63))]
    let gs : Groups := Dict.ofList [("comment1", .physical ⟨"comment1", "c1", none⟩),
      ("comment2", .physical ⟨"comment2", "c2", none⟩), ("comments", .sharded "comments" router)]
    (Value.uint (2 ^ 63)).integer? = some (2 * 2 ^ 62 + 0) ∧
      router.route? (some condition) = none ∧
      gs.resolve "comments" (some condition) =
        .error (.noShardMatch "comments" condition.display) := by
  decide +kernel

end Groups

end DataAccess
