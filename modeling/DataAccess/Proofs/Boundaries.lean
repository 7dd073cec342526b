import DataAccess.Magazine
import DataAccess.Proofs.Condition.Bytes
import DataAccess.Proofs.Flavor.Bytes
import DataAccess.Proofs.Template.Parser

/-!
# Cuts around whole characters

Templates, conditions and lock clauses are read by bytes, and the texts that they are cut into are
those that are read from the characters. No text makes a cut go through a character.
-/

set_option autoImplicit false

namespace DataAccess.Text

/-- Any text at all is read to its end by its bytes, and no cut is refused. The parser of templates
stands between two characters at each turn of its loop, and moves on with it; it comes to the
template, or to the fault, of the characters. So do the conditions, with and without the types of
a mapping, and the windows in front of a lock clause. -/
theorem cut_between_characters (s : String) :
    (∀ registry owner,
      Parser.compile registry owner s = some ((Template.compile registry owner s).map fun t =>
        { t with body := t.body.merged "" }) ∧
      ∀ p, Parser.Reaches registry owner s p → IsBoundary s p.pos ∧
        ∀ b, byteAt? s p.pos = some b →
          (∃ e, Parser.step registry owner s p b = some (.error e)) ∨
          ∃ next, Parser.step registry owner s p b = some (.ok next) ∧
            p.pos < next.pos ∧ next.pos ≤ s.utf8ByteSize) ∧
    Condition.parseBytes s = some (Condition.parse? s) ∧
    (∀ m, Condition.parseTypedBytes m s = some (Condition.parseTyped m s)) ∧
    ∀ f offset limit,
      Flavor.limitedBytes f s offset limit = some (Flavor.limited f s offset limit) :=
  ⟨fun registry owner => ⟨Parser.compile_eq registry owner s, fun _ h => h.turn⟩,
    Condition.parseBytes_eq s, fun m => Condition.parseTypedBytes_eq m s,
    fun f => f.limitedBytes_eq s⟩

/-- Between two characters of more than one byte. -/
theorem cut_between_characters_wide : ∃ p next,
    Parser.Reaches Dict.empty (Magazine.article .mySQL) "é名'" p ∧ p.pos = 2 ∧
      IsBoundary "é名'" p.pos ∧
      Parser.step Dict.empty (Magazine.article .mySQL) "é名'" p 'å' = some (.ok next) ∧
      2 < next.pos ∧ next.pos ≤ "é名'".utf8ByteSize := by
  let owner := Magazine.article .mySQL
  let p : Parser := ⟨2, "é", [⟨none, .done⟩]⟩
  have hfirst : Parser.step Dict.empty (Magazine.article .mySQL) "é名'" Parser.start 'Ã' =
      some (.ok ⟨2, "é", [⟨none, .done⟩]⟩) := by rfl
  have hsecond : Parser.step Dict.empty (Magazine.article .mySQL) "é名'"
      ⟨2, "é", [⟨none, .done⟩]⟩ 'å' = some (.ok ⟨5, "é名", [⟨none, .done⟩]⟩) := by rfl
  have hreaches : Parser.Reaches Dict.empty owner "é名'" p := .step .start (by decide) hfirst
  obtain ⟨hboundary, hturn⟩ := ((cut_between_characters "é名'").1 Dict.empty owner).2 p hreaches
  rcases hturn 'å' (by decide) with ⟨e, he⟩ | ⟨next, hnext, hlt, hle⟩
  · cases hsecond.symm.trans he
  · exact ⟨p, next, hreaches, rfl, hboundary, hnext, hlt, hle⟩

end DataAccess.Text
