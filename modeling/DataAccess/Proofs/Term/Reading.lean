import DataAccess.Magazine
import DataAccess.Proofs.Term.Grammar
import DataAccess.Proofs.Term.Rendering

/-!
# A rendered term reads as the term

The leaves of a term are numbered from the left. The text of a join is spelled by the spellings
of its sides, each a factor: a leaf is an atom, and a side that is a join stands in parentheses.
A side that renders to nothing is false and joined by `or`, or absent.
-/

set_option autoImplicit false

namespace DataAccess.Term

def leaves : Term → Nat
  | compare .. => 1
  | among .. => 1
  | join _ none none => 0
  | join _ (some l) none => l.leaves
  | join _ none (some r) => r.leaves
  | join _ (some l) (some r) => l.leaves + r.leaves

/-- The truth of a term whose first leaf has the given number. Membership in nothing and a join
of no terms are false, and an absent side leaves the other. -/
def truth (σ : Nat → Bool) : Term → Nat → Bool
  | compare .., n => σ n
  | among _ values, n => !values.isEmpty && σ n
  | join _ none none, _ => false
  | join _ (some l) none, n => l.truth σ n
  | join _ none (some r), n => r.truth σ n
  | join .and (some l) (some r), n => l.truth σ n && r.truth σ (n + l.leaves)
  | join .or (some l) (some r), n => l.truth σ n || r.truth σ (n + l.leaves)

def leafTexts (m : Mapping) : Term → Nat → Rendering (List (Nat × String))
  | compare prop op value, n => return [(n, ← renderCompare m prop op value)]
  | among prop values, n =>
    if values.isEmpty then return [] else return [(n, ← renderAmong m prop values)]
  | join _ none none, _ => return []
  | join _ (some l) none, n => l.leafTexts m n
  | join _ none (some r), n => r.leafTexts m n
  | join joiner (some l) (some r), n =>
    if (join joiner (some l) (some r)).isEmptyQuery then return []
    else return (← l.leafTexts m n) ++ (← r.leafTexts m (n + l.leaves))

theorem truth_of_isEmptyQuery (σ : Nat → Bool) {t : Term} (h : t.isEmptyQuery = true) (n : Nat) :
    t.truth σ n = false := by
  induction t using isEmptyQuery.induct generalizing n with
  | case1 => cases h
  | case2 prop values =>
    rw [isEmptyQuery] at h
    rw [truth, h, Bool.not_true, Bool.false_and]
  | case3 joiner => cases joiner <;> rfl
  | case4 joiner l ih => cases joiner <;> exact ih h n
  | case5 joiner r ih => cases joiner <;> exact ih h n
  | case6 l r ihl ihr =>
    rw [isEmptyQuery, Bool.or_eq_true] at h
    rw [truth, Bool.and_eq_false_iff]
    exact h.imp (ihl · n) (ihr · (n + l.leaves))
  | case7 l r ihl ihr =>
    rw [isEmptyQuery, Bool.and_eq_true] at h
    rw [truth, ihl h.1, ihr h.2, Bool.or_false]

theorem leafTexts_of_isEmptyQuery (m : Mapping) {t : Term} (h : t.isEmptyQuery = true) (n : Nat) :
    t.leafTexts m n = pure [] := by
  induction t using isEmptyQuery.induct generalizing n with
  | case1 => cases h
  | case2 prop values =>
    rw [isEmptyQuery] at h
    rw [leafTexts, if_pos h]
  | case3 joiner => rfl
  | case4 joiner l ih => exact ih h n
  | case5 joiner r ih => exact ih h n
  | case6 l r ihl ihr => rw [leafTexts, if_pos h]
  | case7 l r ihl ihr => rw [leafTexts, if_pos h]

theorem leafTexts_join (m : Mapping) {joiner : Joiner} {l r : Term} (n : Nat)
    (he : (join joiner (some l) (some r)).isEmptyQuery = false) :
    (join joiner (some l) (some r)).leafTexts m n = do
      return (← l.leafTexts m n) ++ (← r.leafTexts m (n + l.leaves)) := by
  rw [leafTexts, he, if_neg Bool.false_ne_true]

open Lexeme Formula

/-- A term rendered to a text: the lexemes that spell the text, with the leaves of the term as
atoms, and the formula they read as. -/
structure ReadsAs (m : Mapping) (t : Term) (n : Nat) (ps ps' : Parameters) (sql : String)
    (ls : List Lexeme) (φ : Formula) : Prop where
  spells : Spells ls sql.toList
  leafTexts : (t.leafTexts m n).run ps = (.ok (atoms ls), ps')
  marked : Marked (atoms ls)
  reads : Reads .disjunction ls φ
  factor : t.isJoin = false → Reads .factor ls φ
  truth : ∀ σ, φ.truth σ = t.truth σ n

theorem exists_factor {isJoin : Bool} {sql : String} {ls : List Lexeme} {φ : Formula}
    (hs : Spells ls sql.toList) (hr : Reads .disjunction ls φ)
    (hf : isJoin = false → Reads .factor ls φ) :
    ∃ fs, Spells fs (wrapped isJoin sql).toList ∧ atoms fs = atoms ls ∧ Reads .factor fs φ := by
  rw [toList_wrapped]
  cases isJoin with
  | false => exact ⟨ls, hs, rfl, hf rfl⟩
  | true =>
    have hclose : Spells [.closing] [')'] := .lexeme (by decide) nofun .done
    have hinner := spells_append (spells_trim hs) hclose (by simp [Delimited])
    refine ⟨.opening :: (ls ++ [.closing]), .lexeme (by decide) nofun hinner, ?_,
      .parentheses hr⟩
    rw [atoms_cons rfl, atoms_append]
    exact List.append_nil _

theorem spells_joined {ls rs : List Lexeme} {left right : List Char} (joiner : Joiner)
    (hl : Spells ls left) (hr : Spells rs right) :
    Spells (ls ++ .joiner joiner :: rs)
      (' ' :: (left ++ ' ' :: (joiner.word.toList ++ ' ' :: (right ++ [' '])))) := by
  have hspace : Text.isBlank ' ' = true := by decide
  have hdelimited (cs : List Char) : Delimited (' ' :: cs) := by simp [Delimited, hspace]
  have hright : Spells rs (right ++ [' ']) := by
    have h := spells_append hr (.blank hspace .done) (hdelimited [])
    rwa [List.append_nil] at h
  have hword : Spells (.joiner joiner :: rs) (joiner.word.toList ++ ' ' :: (right ++ [' '])) :=
    .lexeme (spelling_ne_nil rfl) (fun _ => hdelimited _) (.blank hspace hright)
  exact .blank hspace (spells_append hl (.blank hspace hword) (hdelimited _))

theorem reads_joined {ls rs : List Lexeme} {φ ψ : Formula} (hl : Reads .factor ls φ)
    (hr : Reads .factor rs ψ) (joiner : Joiner) :
    Reads .disjunction (ls ++ .joiner joiner :: rs) (.joined joiner φ ψ) := by
  cases joiner with
  | and => exact .conjunction (.and (.factor hl) hr)
  | or => exact .or (.conjunction (.factor hl)) (.factor hr)

theorem readsAs_leaf {m : Mapping} {t : Term} {n : Nat} {ps ps' : Parameters} {sql : String}
    (hm : IsMarked sql) (htexts : (t.leafTexts m n).run ps = (.ok [(n, sql)], ps'))
    (ht : ∀ σ, t.truth σ n = σ n) : ReadsAs m t n ps ps' sql [.atom n sql] (.atom n) where
  spells := by
    obtain ⟨c, hc, -⟩ := exists_isMark_trim hm
    exact spells_atom n (List.ne_nil_of_mem hc)
  leafTexts := htexts
  marked := by simpa [Marked, atoms] using hm
  reads := .conjunction (.factor (.atom n sql))
  factor _ := .atom n sql
  truth σ := (ht σ).symm

theorem readsAs_join {m : Mapping} {joiner : Joiner} {l r : Term} {n : Nat}
    {ps mid ps' : Parameters} {left right : String} {ls rs : List Lexeme} {φ ψ : Formula}
    (he : (join joiner (some l) (some r)).isEmptyQuery = false)
    (hl : ReadsAs m l n ps mid left ls φ) (hr : ReadsAs m r (n + l.leaves) mid ps' right rs ψ)
    (hbl : Text.isBlankText left = false) (hbr : Text.isBlankText right = false) :
    ∃ fs χ, ReadsAs m (join joiner (some l) (some r)) n ps ps'
      (joinSides joiner l.isJoin r.isJoin left right) fs χ := by
  obtain ⟨ls', hls, hal, hrl⟩ := exists_factor hl.spells hl.reads hl.factor
  obtain ⟨rs', hrs, har, hrr⟩ := exists_factor hr.spells hr.reads hr.factor
  refine ⟨ls' ++ .joiner joiner :: rs', .joined joiner φ ψ, ?_⟩
  have hatoms : atoms (ls' ++ .joiner joiner :: rs') = atoms ls ++ atoms rs := by
    rw [atoms_append, atoms_cons rfl, hal, har]
  refine { spells := ?_, leafTexts := ?_, marked := ?_, reads := ?_, factor := nofun, truth := ?_ }
  · rw [toList_joinSides _ _ hbl hbr]
    exact spells_joined joiner hls hrs
  · rw [leafTexts_join m n he, hatoms]
    exact run_bind_ok.mpr ⟨_, mid, hl.leafTexts, run_bind_ok.mpr ⟨_, ps', hr.leafTexts, rfl⟩⟩
  · rw [hatoms]
    intro leaf hleaf
    exact (List.mem_append.mp hleaf).elim (hl.marked leaf) (hr.marked leaf)
  · exact reads_joined hrl hrr joiner
  · intro σ
    cases joiner <;> simp only [joined, Formula.truth, Term.truth, hl.truth, hr.truth]

theorem readsAs_side {m : Mapping} {side t : Term} {n k : Nat} {ps ps' : Parameters}
    {sql : String} {ls : List Lexeme} {φ : Formula} (h : ReadsAs m side k ps ps' sql ls φ)
    (ht : t.isJoin = true) (htexts : (t.leafTexts m n).run ps = (side.leafTexts m k).run ps)
    (htruth : ∀ σ, t.truth σ n = side.truth σ k) : ReadsAs m t n ps ps' sql ls φ where
  spells := h.spells
  leafTexts := htexts.trans h.leafTexts
  marked := h.marked
  reads := h.reads
  factor hf := by rw [ht] at hf; cases hf
  truth σ := (h.truth σ).trans (htruth σ).symm

theorem readsAs_or_left {m : Mapping} {l r : Term} {n : Nat} {ps ps' : Parameters} {sql : String}
    {ls : List Lexeme} {φ : Formula} (he : (join .or (some l) (some r)).isEmptyQuery = false)
    (her : r.isEmptyQuery = true) (hl : ReadsAs m l n ps ps' sql ls φ) :
    ReadsAs m (join .or (some l) (some r)) n ps ps' sql ls φ := by
  apply readsAs_side hl rfl
  · rw [leafTexts_join m n he, leafTexts_of_isEmptyQuery m her]
    simp only [pure_bind, List.append_nil, bind_pure]
  · intro σ
    rw [Term.truth, truth_of_isEmptyQuery σ her, Bool.or_false]

theorem readsAs_or_right {m : Mapping} {l r : Term} {n : Nat} {ps ps' : Parameters} {sql : String}
    {rs : List Lexeme} {ψ : Formula} (he : (join .or (some l) (some r)).isEmptyQuery = false)
    (hel : l.isEmptyQuery = true) (hr : ReadsAs m r (n + l.leaves) ps ps' sql rs ψ) :
    ReadsAs m (join .or (some l) (some r)) n ps ps' sql rs ψ := by
  apply readsAs_side hr rfl
  · rw [leafTexts_join m n he, leafTexts_of_isEmptyQuery m hel, pure_bind]
    simp only [List.nil_append, bind_pure]
  · intro σ
    rw [Term.truth, truth_of_isEmptyQuery σ hel, Bool.false_or]

theorem exists_readsAs {m : Mapping} {t : Term} {ps ps' : Parameters} {sql : String}
    (he : t.isEmptyQuery = false) (h : (t.render m).run ps = (.ok sql, ps')) (n : Nat) :
    ∃ ls φ, ReadsAs m t n ps ps' sql ls φ := by
  induction t using isEmptyQuery.induct generalizing ps ps' sql n with
  | case1 prop op value =>
    have htexts : ((compare prop op value).leafTexts m n).run ps = (.ok [(n, sql)], ps') :=
      run_bind_ok.mpr ⟨sql, ps', h, rfl⟩
    exact ⟨_, _, readsAs_leaf (renderCompare_isMarked h) htexts fun σ => rfl⟩
  | case2 prop values =>
    rw [isEmptyQuery] at he
    rw [render, he, if_neg Bool.false_ne_true] at h
    have htexts : ((among prop values).leafTexts m n).run ps = (.ok [(n, sql)], ps') := by
      rw [Term.leafTexts, he, if_neg Bool.false_ne_true]
      exact run_bind_ok.mpr ⟨sql, ps', h, rfl⟩
    refine ⟨_, _, readsAs_leaf (renderAmong_isMarked h) htexts fun σ => ?_⟩
    rw [Term.truth, he, Bool.not_false, Bool.true_and]
  | case3 joiner => cases he
  | case4 joiner l ih =>
    obtain ⟨left, mid, right, hl, hr, rfl⟩ := render_join_ok he h
    cases hr
    obtain ⟨ls, φ, hreads⟩ := ih he hl n
    rw [joinSides_blank_right _ _ ((isBlankText_render hl).trans he) isBlankText_empty]
    exact ⟨ls, φ, readsAs_side hreads rfl rfl fun σ => by cases joiner <;> rfl⟩
  | case5 joiner r ih =>
    obtain ⟨left, mid, right, hl, hr, rfl⟩ := render_join_ok he h
    cases hl
    obtain ⟨ls, φ, hreads⟩ := ih he hr n
    rw [joinSides_blank_left _ _ isBlankText_empty]
    exact ⟨ls, φ, readsAs_side hreads rfl rfl fun σ => by cases joiner <;> rfl⟩
  | case6 l r ihl ihr =>
    obtain ⟨left, mid, right, hl, hr, rfl⟩ := render_join_ok he h
    obtain ⟨hel, her⟩ := Bool.or_eq_false_iff.mp he
    obtain ⟨ls, φ, hreadsl⟩ := ihl hel hl n
    obtain ⟨rs, ψ, hreadsr⟩ := ihr her hr (n + l.leaves)
    exact readsAs_join he hreadsl hreadsr ((isBlankText_render hl).trans hel)
      ((isBlankText_render hr).trans her)
  | case7 l r ihl ihr =>
    obtain ⟨left, mid, right, hl, hr, rfl⟩ := render_join_ok he h
    have hl' := isBlankText_render hl
    have hr' := isBlankText_render hr
    cases hel : l.isEmptyQuery with
    | true =>
      -- the left side is written as nothing, and the right side stands alone
      have her : r.isEmptyQuery = false := by rwa [isEmptyQuery, hel, Bool.true_and] at he
      obtain ⟨rs, ψ, hreads⟩ := ihr her hr (n + l.leaves)
      rw [joinSides_blank_left _ _ (hl'.trans hel)]
      rw [renderSide, render_of_isEmptyQuery hel] at hl
      cases hl
      exact ⟨rs, ψ, readsAs_or_right he hel hreads⟩
    | false =>
      obtain ⟨ls, φ, hreadsl⟩ := ihl hel hl n
      cases her : r.isEmptyQuery with
      | true =>
        rw [joinSides_blank_right _ _ (hl'.trans hel) (hr'.trans her)]
        rw [renderSide, render_of_isEmptyQuery her] at hr
        cases hr
        exact ⟨ls, φ, readsAs_or_left he her hreadsl⟩
      | false =>
        obtain ⟨rs, ψ, hreadsr⟩ := ihr her hr (n + l.leaves)
        exact readsAs_join he hreadsl hreadsr (hl'.trans hel) (hr'.trans her)

/-- The text of a term reads, with the texts of its leaves as atoms, as one formula, which has
the truth of the term whatever the leaves are. An empty query is false of every row. -/
theorem render_reads (m : Mapping) (t : Term) :
    (t.isEmptyQuery = false → ∀ ps ps' sql, (t.render m).run ps = (.ok sql, ps') →
      ∃ texts φ, (t.leafTexts m 0).run ps = (.ok texts, ps') ∧ IsReading texts sql φ ∧
        (∀ ψ, IsReading texts sql ψ → ψ = φ) ∧ ∀ σ, φ.truth σ = t.truth σ 0) ∧
    (t.isEmptyQuery = true → ∀ σ, t.truth σ 0 = false) := by
  constructor
  · intro he ps ps' sql h
    obtain ⟨ls, φ, hreads⟩ := exists_readsAs he h 0
    have hreading : IsReading (atoms ls) sql φ := ⟨ls, hreads.spells, rfl, hreads.reads⟩
    exact ⟨atoms ls, φ, hreads.leafTexts, hreading,
      fun ψ hψ => isReading_unique hreads.marked hψ hreading, hreads.truth⟩
  · intro he σ
    exact truth_of_isEmptyQuery σ he 0

/-- The left side comes down to its first leaf, in parentheses all the same. -/
theorem render_reads_nested :
    let m := Magazine.article .mySQL
    let none : Term := .among "id" []
    let left : Term := .join .or (some (.compare "id" .equal (.int 1))) (some none)
    let right : Term :=
      .join .or (some (.compare "title" .equal .null)) (some (.compare "id" .bigger (.int 5)))
    let t : Term := .join .and (some left) (some right)
    (∃ sql ps, (t.render m).run .empty = (.ok sql, ps) ∧ ∃ texts φ, IsReading texts sql φ ∧
      texts = [(0, "id = :id_0"), (2, "NAME is null"), (3, "id > :id_1")] ∧
      ∀ σ, φ.truth σ = (σ 0 && (σ 2 || σ 3))) ∧
    ∀ σ, none.truth σ 0 = false := by
  intro m none left right t
  constructor
  · obtain ⟨sql, hsql⟩ : ∃ sql, ((t.render m).run .empty).1 = .ok sql :=
      exists_of_isOk (by decide +kernel)
    have hrun : (t.render m).run .empty = (.ok sql, ((t.render m).run .empty).2) :=
      Prod.ext hsql rfl
    obtain ⟨texts, φ, htexts, hreading, -, htruth⟩ :=
      (render_reads m t).1 rfl _ _ _ hrun
    refine ⟨sql, _, hrun, texts, φ, hreading, ?_, fun σ => ?_⟩
    · have hleaves : ((t.leafTexts m 0).run .empty).1.toOption =
          some [(0, "id = :id_0"), (2, "NAME is null"), (3, "id > :id_1")] := by decide +kernel
      rw [htexts] at hleaves
      exact Option.some.inj hleaves
    · rw [htruth]
      simp [t, left, right, none, Term.truth, leaves]
  · exact (render_reads m none).2 rfl

end DataAccess.Term
