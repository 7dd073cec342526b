import DataAccess.Mapping
import DataAccess.Template.Token

/-!
# Phrases

Projections, orders and count phrases are written with property names. Outside single
quotes each identifier that is a property becomes the name of its column.
-/

set_option autoImplicit false

namespace DataAccess.Phrase

inductive Piece where
  /-- Text in single quotes, or one character that starts no identifier. -/
  | literal (cs : List Char)
  | word (cs : List Char)
  deriving DecidableEq

def next (c : Char) (rest : List Char) : Piece × List Char :=
  if c = '\'' then
    (.literal (c :: (Token.throughQuote c rest).1), (Token.throughQuote c rest).2)
  else if Text.isNameStart c then (.word (c :: Token.name rest), Token.behindName rest)
  else (.literal [c], rest)

theorem next_length (c : Char) (rest : List Char) : (next c rest).2.length ≤ rest.length := by
  unfold next
  split
  · exact Token.throughQuote_length c rest
  · split
    · exact Token.behindName_length rest
    · exact Nat.le_refl _

def pieces : List Char → List Piece
  | [] => []
  | c :: rest => (next c rest).1 :: pieces (next c rest).2
termination_by cs => cs.length
decreasing_by exact Nat.lt_succ_of_le (next_length c rest)

def Piece.sql (m : Mapping) : Piece → String
  | .literal cs => String.ofList cs
  | .word cs => (m.sqlName? (String.ofList cs)).getD (String.ofList cs)

def inColumns (m : Mapping) (phrase : String) : String :=
  Text.joined "" ((pieces phrase.toList).map (Piece.sql m))

end DataAccess.Phrase
