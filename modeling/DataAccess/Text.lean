/-!
# Text classes and trimming

Blank characters are those of the Unicode property White_Space. Names, digits and
case folding of keywords are ASCII. Scanners work on lists of characters, and the
functions on `String` agree with them: `toList_trimmed`, `isBlankText_eq_allBlank`.
-/

set_option autoImplicit false

namespace DataAccess.Text

/-- The Unicode property White_Space. -/
def isBlank (c : Char) : Bool :=
  let n := c.toNat
  (9 ≤ n && n ≤ 13) || n == 0x20 || n == 0x85 || n == 0xA0 || n == 0x1680 ||
    (0x2000 ≤ n && n ≤ 0x200A) || n == 0x2028 || n == 0x2029 || n == 0x202F ||
    n == 0x205F || n == 0x3000

def trimStart (cs : List Char) : List Char := cs.dropWhile isBlank

def trimEnd (cs : List Char) : List Char := (cs.reverse.dropWhile isBlank).reverse

def trim (cs : List Char) : List Char := trimEnd (trimStart cs)

def allBlank (cs : List Char) : Bool := cs.all isBlank

def isNameStart (c : Char) : Bool := c.isAlpha || c == '_'

def isNamePart (c : Char) : Bool := c.isAlphanum || c == '_'

def asciiLower (cs : List Char) : List Char := cs.map Char.toLower

def stripStart? (pattern cs : List Char) : Option (List Char) :=
  if pattern.isPrefixOf cs then some (cs.drop pattern.length) else none

def stripEnd? (pattern cs : List Char) : Option (List Char) :=
  if pattern.isSuffixOf cs then some (cs.take (cs.length - pattern.length)) else none

def contains (pattern : List Char) : List Char → Bool
  | [] => pattern.isEmpty
  | c :: cs => pattern.isPrefixOf (c :: cs) || contains pattern cs

def trimmed (s : String) : String := ((s.dropWhile isBlank).dropEndWhile isBlank).copy

def isBlankText (s : String) : Bool := s.all isBlank

def lowered (s : String) : String := String.ofList (asciiLower s.toList)

def isName : List Char → Bool
  | [] => false
  | c :: cs => isNameStart c && cs.all isNamePart

def joined (separator : String) : List String → String
  | [] => ""
  | [s] => s
  | s :: rest => s ++ separator ++ joined separator rest

def equalIgnoringAsciiCase (a b : String) : Bool :=
  asciiLower a.toList == asciiLower b.toList

theorem dropWhile_append_eq {p : Char → Bool} {front back : List Char}
    (hfront : front.all p = true) (hback : back.head?.any p = false) :
    (front ++ back).dropWhile p = back := by
  induction front with
  | nil =>
    cases back with
    | nil => rfl
    | cons c rest => simp_all
  | cons c rest ih => simp_all

theorem toList_dropWhile (p : Char → Bool) (s : String.Slice) :
    (s.dropWhile p).copy.toList = s.copy.toList.dropWhile p := by
  have hfront : (s.takeWhile p).copy.toList.all p = true := by
    rw [← String.Slice.all_bool_eq]
    exact String.Slice.all_takeWhile
  have hback : (s.dropWhile p).copy.toList.head?.any p = false := by
    rw [← String.Slice.startsWith_bool_eq_head?]
    exact String.Slice.startsWith_dropWhile
  have hs : s.copy.toList = (s.takeWhile p).copy.toList ++ (s.dropWhile p).copy.toList := by
    rw [← String.toList_append, String.Slice.takeWhile_append_dropWhile]
  rw [hs, dropWhile_append_eq hfront hback]

theorem toList_dropEndWhile (p : Char → Bool) (s : String.Slice) :
    (s.dropEndWhile p).copy.toList = (s.copy.toList.reverse.dropWhile p).reverse := by
  have hfront : (s.takeEndWhile p).copy.toList.reverse.all p = true := by
    rw [List.all_reverse, ← String.Slice.revAll_bool_eq]
    exact String.Slice.revAll_takeEndWhile
  have hback : (s.dropEndWhile p).copy.toList.reverse.head?.any p = false := by
    rw [List.head?_reverse, ← String.Slice.endsWith_bool_eq_getLast?]
    exact String.Slice.endsWith_dropEndWhile
  have hs : s.copy.toList =
      (s.dropEndWhile p).copy.toList ++ (s.takeEndWhile p).copy.toList := by
    rw [← String.toList_append, String.Slice.dropEndWhile_append_takeEndWhile]
  rw [hs, List.reverse_append, dropWhile_append_eq hfront hback, List.reverse_reverse]

/-- Trimming a text is trimming its characters. -/
theorem toList_trimmed (s : String) : (trimmed s).toList = trim s.toList := by
  simp only [trimmed, trim, trimEnd, trimStart, toList_dropEndWhile, String.dropWhile,
    toList_dropWhile, String.copy_toSlice]

theorem isBlankText_eq_allBlank (s : String) : isBlankText s = allBlank s.toList :=
  String.all_bool_eq

end DataAccess.Text
