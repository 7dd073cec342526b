import DataAccess.Fault
import Mathlib.Data.String.Basic

/-!
# Texts by their bytes

A text is read byte by byte, and cut between two of its bytes. A cut inside of a character, behind
the end or backwards is refused. In front of characters that are known, a byte is the beginning
of the first one or no ASCII character at all, and the cuts around whole characters succeed.
-/

set_option autoImplicit false

namespace DataAccess

/-- There is no outcome where a text is cut inside of a character; else a result or a fault. -/
abbrev Checked := ExceptT Fault Option

namespace Checked

variable {α β : Type}

theorem bind_some {x : Option α} {a : α} (h : x = some a) (f : α → Checked β) :
    (liftM x >>= f) = f a := by
  subst h
  rfl

theorem bind_result (a : α) (f : α → Checked β) :
    (liftM (Except.ok a : Except Fault α) >>= f) = f a := rfl

theorem lift_ok {x : Option α} {a : α} : (liftM x : Checked α) = some (.ok a) ↔ x = some a := by
  cases x with
  | none => exact ⟨fun h => (nomatch h), fun h => (nomatch h)⟩
  | some b =>
    have hlift : (liftM (some b) : Checked α) = some (.ok b) := rfl
    rw [hlift]
    exact ⟨fun h => by cases h; rfl, fun h => by cases h; rfl⟩

theorem bind_ok {x : Checked α} {f : α → Checked β} {b : β} :
    (x >>= f) = some (.ok b) ↔ ∃ a, x = some (.ok a) ∧ f a = some (.ok b) := by
  constructor
  · intro h
    match x with
    | none => cases h
    | some (.error e) => cases h
    | some (.ok a) => exact ⟨a, rfl, h⟩
  · rintro ⟨a, rfl, h⟩
    exact h

theorem lift_bind_ok {x : Option α} {f : α → Checked β} {b : β} :
    (liftM x >>= f) = some (.ok b) ↔ ∃ a, x = some a ∧ f a = some (.ok b) := by
  rw [bind_ok]
  exact exists_congr fun a => and_congr_left fun _ => lift_ok

end Checked

namespace Text

def byteAt? (s : String) (offset : Nat) : Option Char := s.toUTF8.data[offset]?.map Char.ofUInt8

def IsBoundary (s : String) (offset : Nat) : Prop := String.Pos.Raw.IsValid s ⟨offset⟩

instance (s : String) (offset : Nat) : Decidable (IsBoundary s offset) :=
  inferInstanceAs (Decidable (String.Pos.Raw.IsValid s ⟨offset⟩))

def between? (s : String) (start stop : Nat) : Option String :=
  if h : start ≤ stop ∧ IsBoundary s start ∧ IsBoundary s stop then
    some (s.extract ⟨⟨start⟩, h.2.1⟩ ⟨⟨stop⟩, h.2.2⟩)
  else none

def minus? (a b : Nat) : Option Nat := if b ≤ a then some (a - b) else none

def IsAscii (cs : List Char) : Prop := ∀ c ∈ cs, c.toNat < 128

instance : DecidablePred IsAscii := fun cs =>
  List.decidableBAll (fun c : Char => c.toNat < 128) cs

def byteLength (cs : List Char) : Nat := (String.ofList cs).utf8ByteSize

/-- The characters stand behind the offset, up to the end of the text. -/
def Behind (s : String) (offset : Nat) (rest : List Char) : Prop :=
  ∃ front, s.toList = front ++ rest ∧ offset = byteLength front

@[simp] theorem byteLength_nil : byteLength [] = 0 := rfl

@[simp] theorem byteLength_append (cs ds : List Char) :
    byteLength (cs ++ ds) = byteLength cs + byteLength ds := by
  rw [byteLength, String.ofList_append, String.utf8ByteSize_append, byteLength, byteLength]

theorem byteLength_singleton (c : Char) : byteLength [c] = c.utf8Size := by
  rw [byteLength, ← String.singleton_eq_ofList, String.utf8ByteSize_singleton]

@[simp] theorem byteLength_cons (c : Char) (cs : List Char) :
    byteLength (c :: cs) = c.utf8Size + byteLength cs := by
  rw [← List.singleton_append, byteLength_append, byteLength_singleton]

theorem byteLength_toList (s : String) : byteLength s.toList = s.utf8ByteSize := by
  rw [byteLength, String.ofList_toList]

theorem utf8Size_of_toNat_lt {c : Char} (h : c.toNat < 128) : c.utf8Size = 1 := by
  rw [Char.utf8Size_eq_one_iff, UInt32.le_iff_toNat_le]
  exact Nat.le_of_lt_succ h

theorem ne_of_wide {c mark : Char} (h : 128 ≤ c.toNat) (hmark : mark.toNat < 128) : c ≠ mark := by
  rintro rfl
  omega

theorem byteLength_ascii {cs : List Char} (h : IsAscii cs) :
    byteLength cs = cs.length := by
  induction cs with
  | nil => rfl
  | cons c cs ih =>
    rw [byteLength_cons, utf8Size_of_toNat_lt (h c List.mem_cons_self),
      ih fun d hd => h d (List.mem_cons_of_mem c hd), List.length_cons, Nat.add_comm]

theorem wide_of_mem_utf8EncodeChar {c : Char} (h : 128 ≤ c.toNat) {b : UInt8}
    (hb : b ∈ String.utf8EncodeChar c) : 128 ≤ b.toNat := by
  have hwide : ∀ (n m base : Nat), 128 ≤ base → base + m ≤ 256 → 0 < m →
      128 ≤ (UInt8.ofNat (n % m + base)).toNat := by
    intro n m base hbase htop hm
    have hlt := Nat.mod_lt n hm
    rw [UInt8.toNat_ofNat', Nat.mod_eq_of_lt (by omega)]
    omega
  have hnarrow : ¬ c.val.toNat ≤ 127 := Nat.not_le_of_lt h
  unfold String.utf8EncodeChar at hb
  simp only [if_neg hnarrow] at hb
  split at hb
  · simp only [List.mem_cons, List.not_mem_nil, or_false] at hb
    rcases hb with rfl | rfl <;> exact hwide _ _ _ (by decide) (by decide) (by decide)
  split at hb
  · simp only [List.mem_cons, List.not_mem_nil, or_false] at hb
    rcases hb with rfl | rfl | rfl <;> exact hwide _ _ _ (by decide) (by decide) (by decide)
  · simp only [List.mem_cons, List.not_mem_nil, or_false] at hb
    rcases hb with rfl | rfl | rfl | rfl <;>
      exact hwide _ _ _ (by decide) (by decide) (by decide)

theorem length_flatMap_utf8EncodeChar (cs : List Char) :
    (cs.flatMap String.utf8EncodeChar).length = byteLength cs := by
  induction cs with
  | nil => rfl
  | cons c cs ih =>
    rw [List.flatMap_cons, List.length_append, String.length_utf8EncodeChar, ih, byteLength_cons]

theorem toNat_ofUInt8 (b : UInt8) : (Char.ofUInt8 b).toNat = b.toNat := UInt8.toNat_toUInt32 b

theorem ofUInt8_toUInt8 {c : Char} (h : c.toNat < 128) : Char.ofUInt8 c.val.toUInt8 = c := by
  apply Char.toNat_inj.mp
  rw [toNat_ofUInt8, UInt32.toNat_toUInt8]
  exact Nat.mod_eq_of_lt (Nat.lt_trans h (by decide))

variable {s : String} {offset : Nat}

theorem lt_of_byteAt? {d : Char} (h : byteAt? s offset = some d) : offset < s.utf8ByteSize := by
  obtain ⟨b, hb, -⟩ := Option.map_eq_some_iff.mp h
  obtain ⟨hlt, -⟩ := Array.getElem?_eq_some_iff.mp hb
  exact hlt

theorem byteAt?_append {front rest : List Char} (h : s.toList = front ++ rest) (n : Nat) :
    byteAt? s (byteLength front + n) =
      (rest.flatMap String.utf8EncodeChar)[n]?.map Char.ofUInt8 := by
  have hlength := length_flatMap_utf8EncodeChar front
  rw [byteAt?, String.toUTF8_eq_toByteArray, ← String.utf8Encode_toList, List.utf8Encode,
    List.data_toByteArray, List.getElem?_toArray, h, List.flatMap_append,
    List.getElem?_append_right (by rw [hlength]; exact Nat.le_add_right _ _), hlength,
    Nat.add_sub_cancel_left]

namespace Behind

variable {c : Char} {cs rest : List Char}

theorem start (s : String) : Behind s 0 s.toList := ⟨[], rfl, rfl⟩

theorem append (h : Behind s offset (cs ++ rest)) : Behind s (offset + byteLength cs) rest := by
  obtain ⟨front, hs, rfl⟩ := h
  exact ⟨front ++ cs, by rw [hs, List.append_assoc], (byteLength_append front cs).symm⟩

theorem cons (h : Behind s offset (c :: rest)) : Behind s (offset + c.utf8Size) rest := by
  rw [← byteLength_singleton]
  exact h.append

theorem ascii (h : Behind s offset (cs ++ rest)) (hcs : IsAscii cs) :
    Behind s (offset + cs.length) rest := by
  rw [← byteLength_ascii hcs]
  exact h.append

theorem size (h : Behind s offset rest) : offset + byteLength rest = s.utf8ByteSize := by
  obtain ⟨front, hs, rfl⟩ := h
  rw [← byteLength_append, ← hs, byteLength_toList]

theorem isBoundary (h : Behind s offset rest) : IsBoundary s offset := by
  obtain ⟨front, hs, rfl⟩ := h
  refine String.Pos.Raw.isValid_iff_exists_append.mpr
    ⟨String.ofList front, String.ofList rest, ?_, rfl⟩
  rw [← String.ofList_append, ← hs, String.ofList_toList]

theorem between (h : Behind s offset (cs ++ rest)) :
    between? s offset (offset + byteLength cs) = some (String.ofList cs) := by
  have hfront := h.isBoundary
  have hback := h.append.isBoundary
  rw [between?, dif_pos ⟨Nat.le_add_right _ _, hfront, hback⟩]
  obtain ⟨front, hs, rfl⟩ := h
  congr 1
  have hbytes : s.toByteArray = front.utf8Encode ++ (cs.utf8Encode ++ rest.utf8Encode) := by
    rw [← String.utf8Encode_toList, hs, List.utf8Encode_append, List.utf8Encode_append]
  have hlength : byteLength front = front.utf8Encode.size + 0 := by
    rw [Nat.add_zero, byteLength, ← String.size_toByteArray, String.toByteArray_ofList]
  have hcs : byteLength cs = cs.utf8Encode.size := by
    rw [byteLength, ← String.size_toByteArray, String.toByteArray_ofList]
  rw [← String.toByteArray_inj, String.toByteArray_extract, hbytes, String.toByteArray_ofList]
  dsimp only
  rw [hlength, Nat.add_assoc, Nat.zero_add, ByteArray.extract_append_size_add,
    ByteArray.extract_append_eq_left hcs]

example : between? "a名b" 1 4 = some "名" ∧ between? "a名b" 2 4 = none := by decide

theorem through (h : Behind s offset rest) :
    between? s offset s.utf8ByteSize = some (String.ofList rest) := by
  have hcut := between (show Behind s offset (rest ++ []) by rwa [List.append_nil])
  rwa [h.size] at hcut

theorem byteAt_nil (h : Behind s offset []) : byteAt? s offset = none := by
  obtain ⟨front, hs, rfl⟩ := h
  exact byteAt?_append hs 0

theorem byteAt_cons (h : Behind s offset (c :: rest)) (hc : c.toNat < 128) :
    byteAt? s offset = some c := by
  obtain ⟨front, hs, rfl⟩ := h
  have hbyte := byteAt?_append hs 0
  rw [List.flatMap_cons, String.utf8EncodeChar_eq_singleton (utf8Size_of_toNat_lt hc)] at hbyte
  rw [Nat.add_zero] at hbyte
  rw [hbyte]
  exact congrArg some (ofUInt8_toUInt8 hc)

theorem byteAt_wide (h : Behind s offset (c :: rest)) (hc : 128 ≤ c.toNat) {n : Nat}
    (hn : n < c.utf8Size) : ∃ d, byteAt? s (offset + n) = some d ∧ 128 ≤ d.toNat := by
  obtain ⟨front, hs, rfl⟩ := h
  have hlt : n < (String.utf8EncodeChar c).length := by rwa [String.length_utf8EncodeChar]
  rw [byteAt?_append hs, List.flatMap_cons, List.getElem?_append_left hlt,
    List.getElem?_eq_getElem hlt]
  refine ⟨_, rfl, ?_⟩
  rw [toNat_ofUInt8]
  exact wide_of_mem_utf8EncodeChar hc (List.getElem_mem hlt)

theorem exists_byteAt (h : Behind s offset (c :: rest)) : ∃ d, byteAt? s offset = some d := by
  rcases Nat.lt_or_ge c.toNat 128 with hc | hc
  · exact ⟨c, h.byteAt_cons hc⟩
  · obtain ⟨d, hd, -⟩ := h.byteAt_wide hc c.utf8Size_pos
    exact ⟨d, hd⟩

/-- An ASCII character is seen in the bytes exactly where it stands in the text. -/
theorem byteAt_iff (h : Behind s offset rest) {d : Char} (hd : d.toNat < 128) :
    byteAt? s offset = some d ↔ rest.head? = some d := by
  cases rest with
  | nil => rw [h.byteAt_nil]; rfl
  | cons c rest =>
    rcases Nat.lt_or_ge c.toNat 128 with hc | hc
    · rw [h.byteAt_cons hc]; rfl
    · obtain ⟨e, hbyte, he⟩ := h.byteAt_wide hc c.utf8Size_pos
      rw [Nat.add_zero] at hbyte
      rw [hbyte, List.head?_cons, Option.some_inj, Option.some_inj]
      constructor
      · rintro rfl
        omega
      · rintro rfl
        omega

theorem byteAt_any (h : Behind s offset rest) {p : Char → Bool}
    (hp : ∀ d, p d = true → d.toNat < 128) : (byteAt? s offset).any p = rest.head?.any p := by
  rw [Bool.eq_iff_iff, Option.any_eq_true, Option.any_eq_true]
  refine exists_congr fun d => and_congr_left fun hd => h.byteAt_iff (hp d hd)

/-- A scan that passes over every byte outside of ASCII passes over a whole character. -/
theorem skip {α : Type} {f : Nat → α} (h : Behind s offset (c :: rest)) (hc : 128 ≤ c.toNat)
    (hf : ∀ n d, byteAt? s n = some d → 128 ≤ d.toNat → f n = f (n + 1)) :
    f offset = f (offset + c.utf8Size) := by
  -- The induction is on the bytes of the character, which are all outside of ASCII.
  have hall : ∀ n ≤ c.utf8Size, f offset = f (offset + n) := by
    intro n
    induction n with
    | zero => exact fun _ => rfl
    | succ n ih =>
      intro hn
      obtain ⟨d, hbyte, hd⟩ := h.byteAt_wide hc (Nat.lt_of_succ_le hn)
      rw [ih (Nat.le_of_succ_le hn), hf _ d hbyte hd, Nat.add_assoc]
  exact hall _ (Nat.le_refl _)

end Behind

theorem exists_behind (h : IsBoundary s offset) : ∃ rest, Behind s offset rest := by
  obtain ⟨front, rest, rfl, hfront⟩ := String.Pos.Raw.isValid_iff_exists_append.mp h
  refine ⟨rest.toList, front.toList, String.toList_append, ?_⟩
  rw [byteLength_toList]
  exact congrArg String.Pos.Raw.byteIdx hfront

theorem isBoundary_of_byteAt? {d : Char} (h : byteAt? s offset = some d) (hd : d.toNat < 128) :
    IsBoundary s offset := by
  obtain ⟨b, hb, rfl⟩ := Option.map_eq_some_iff.mp h
  obtain ⟨hlt, hb⟩ := Array.getElem?_eq_some_iff.mp hb
  rw [toNat_ofUInt8] at hd
  have hzero : b &&& 0x80 = 0 := by
    have hall : ∀ n < 128, UInt8.ofNat n &&& 0x80 = 0 := by decide
    have hof := hall b.toNat hd
    rwa [UInt8.ofNat_toNat] at hof
  refine String.Pos.Raw.isValid_iff_isUTF8FirstByte.mpr (.inr ⟨hlt, .inl ?_⟩)
  have hbyte : s.getUTF8Byte ⟨offset⟩ hlt = b := hb
  rw [hbyte, hzero]

end Text

end DataAccess
