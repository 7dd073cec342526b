import DataAccess.Proofs.Parameters.Names
import DataAccess.Proofs.Template.Binding
import DataAccess.Proofs.Template.Chains

/-!
# Names that are read back

The name of a parameter has only characters that names have, so behind a colon it is read to its
end, and it is read as a parameter unless it begins with a digit. A digit comes only from the
property, whose other characters are replaced wherever they stand.
-/

set_option autoImplicit false

namespace DataAccess

open Text

namespace Text

variable {registry : Registry} {owner : Mapping}

theorem becomes_unread {name : String} (hall : name.toList.all isNamePart = true)
    (hname : isName name.toList = false) :
    Becomes registry owner (":" ++ (name ++ " "))
      (.ok (Link.ofChars (":" ++ (name ++ " ")).toList)) := by
  intro source depth rest _
  have hplain : (name.toList ++ [' ']).all isPlain = true := by
    rw [List.all_append, Bool.and_eq_true]
    refine ⟨List.all_eq_true.mpr fun c hc => ?_, rfl⟩
    exact isPlain_of_isNamePart (List.all_eq_true.mp hall c hc)
  have hfirst : (name.toList ++ [' '] ++ rest).head?.any
      (fun d => isNameStart d || d == ':') = false := by
    cases hcs : name.toList with
    | nil => rfl
    | cons c cs =>
      rw [hcs, List.all_cons, Bool.and_eq_true] at hall
      rw [hcs, isName, hall.2, Bool.and_true] at hname
      refine Bool.or_eq_false_iff.mpr ⟨hname, beq_eq_false_iff_ne.mpr ?_⟩
      rintro rfl
      cases hall.1
  have htext : (":" ++ (name ++ " ")).toList = ':' :: (name.toList ++ [' ']) := by simp
  rw [htext, List.cons_append, Token.scan_of_begins (Token.begins_unnamed (.inl rfl) hfirst),
    Block.build, build_isPlain hplain]
  cases Block.build registry owner source depth (Token.scan rest) <;> rfl

theorem becomes_marked {name : String} (hall : name.toList.all isNamePart = true) :
    Becomes registry owner (" :" ++ name ++ " ") (.ok
      (if isName name.toList then [.text " ", .param name, .text " "]
      else Link.ofChars (" :" ++ name ++ " ").toList)) := by
  have htext : " :" ++ name ++ " " = " " ++ (":" ++ (name ++ " ")) := by
    rw [← String.append_assoc, ← String.append_assoc]
    rfl
  rw [htext]
  split
  · next hname =>
    have hspace : Becomes registry owner " " (.ok [.text " "]) := becomes_plain (by decide)
    have hparam : Becomes registry owner (":" ++ name ++ " ") (.ok [.param name, .text " "]) :=
      becomes_append (becomes_param hname) hspace rfl
    rw [← String.append_assoc]
    exact becomes_behind " " (by decide) hparam
  · next hname =>
    have hunread : Becomes registry owner _ _ :=
      becomes_behind " " (by decide) (becomes_unread hall (Bool.not_eq_true _ ▸ hname))
    rw [String.toList_append, Link.ofChars, List.map_append]
    exact hunread

end Text

theorem Template.compile_becomes {registry : Registry} {owner : Mapping} {text : String}
    {links : List Link} (h : Becomes registry owner text (.ok links)) :
    Template.compile registry owner text =
      .ok { mapping := owner, text, body := Block.chain links .done } := by
  have hbuild := h text 0 [] rfl
  rw [List.append_nil, Token.scan] at hbuild
  rw [Template.compile, Block.ofText, hbuild]
  rfl

namespace Parameters

/-- A text that marks the name that a value was given is compiled whatever the property is. Where
the property does not begin with a digit, its only parameter is that name, to which any value can
be bound; where it does, the text has no parameter, and the name is unknown to it. -/
theorem add_marked (registry : Registry) (owner : Mapping) (ps : Parameters) (prop : String)
    (v : Value) :
    let name := (ps.add prop v).1
    ∃ t, Template.compile registry owner (" :" ++ name ++ " ") = .ok t ∧
      if beginsWithDigit prop then
        t.params = [] ∧ t.bindAll [(name, v)] = .error (.unknownParameter name)
      else
        t.params = [name] ∧
          t.bindAll [(name, v)] = .ok { template := t, values := Dict.ofList [(name, v)] } := by
  intro name
  have hall : name.toList.all isNamePart = true := numbered_all prop (ps.uses prop)
  have hname : isName name.toList = !beginsWithDigit prop :=
    isName_numbered_eq prop (ps.uses prop)
  have hcompile := Template.compile_becomes
    (becomes_marked hall : Becomes registry owner (" :" ++ name ++ " ") _)
  refine ⟨_, hcompile, ?_⟩
  rw [Template.params, Template.bindAll_one (Block.guardVars_chain _ _) rfl rfl]
  dsimp only
  rw [Block.paramNames_chain, hname]
  cases beginsWithDigit prop with
  | true => simp [Block.paramNames, firstOccurrences]
  | false => simp [Block.paramNames, Link.names, firstOccurrences]

/-- The property begins with a digit: its name is no parameter of the text that marks it, and a
condition that compares the property cannot be bound to its own values. -/
theorem digit_unread :
    let factor : Column := .declare .mySQL "2fa" "SECOND_FACTOR" .string true true
    let user : Mapping :=
      ⟨"user", { name := "TB_USER", dialect := .ofFlavor .mySQL, columns := [factor] }, "default"⟩
    let name := (empty.add "2fa" (.text "on")).1
    let rendered := ((Term.compare "2fa" .equal (.text "on")).render user).run empty
    (Template.compile Dict.empty user (" :" ++ name ++ " ")).map (·.params) = .ok [] ∧
      rendered.1 = .ok ("SECOND_FACTOR = :" ++ name) ∧
      (do (← Template.compile Dict.empty user (← rendered.1)).bindAll rendered.2.pairs).map
        (fun _ => ()) = .error (.unknownParameter name) := by
  decide +kernel

end Parameters

end DataAccess
