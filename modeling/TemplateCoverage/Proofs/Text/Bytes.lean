import TemplateCoverage.Proofs.Text.Offset
import TemplateCoverage.Text.Bytes

/-!
# The bytes of a text

A text in UTF-8 is the bytes of its characters one after the other.

* **`Bytes.ofChar`**: the bytes of one character. A character of the seven-bit range is its own byte
  (`Bytes.ofChar_of_lt`), and the bytes of any other character are beyond that range
  (`Bytes.le_of_mem_ofChar`).
* **`Bytes.ofText_ofList`**: the bytes of a text. There are `byteLength` of them.
-/

namespace TemplateCoverage.Bytes

open Text

/-! ## Characters -/

/-- The bytes of a character in UTF-8. -/
def ofChar (c : Char) : Bytes :=
  (String.utf8EncodeChar c).map fun b => Char.ofNat b.toNat

/-- A character has as many bytes as its encoding. -/
theorem length_ofChar (c : Char) : (ofChar c).length = c.utf8Size := by
  rw [ofChar, List.length_map, String.length_utf8EncodeChar]

/-- A byte is the number of some character. -/
theorem toNat_ofNat_byte (b : UInt8) : (Char.ofNat b.toNat).toNat = b.toNat := by
  have hlt : b.toNat < 256 := b.toNat_lt
  have hvalid : b.toNat.isValidChar := .inl (by omega)
  rw [Char.ofNat, dif_pos hvalid]
  rfl

theorem ofChar_of_lt {c : Char} (h : c.toNat < 128) : ofChar c = [c] := by
  have hval : c.val.toNat = c.toNat := rfl
  have hbyte : (UInt8.ofNat c.val.toNat).toNat = c.toNat := by
    rw [UInt8.toNat_ofNat', hval]
    omega
  have hbytes : String.utf8EncodeChar c = [UInt8.ofNat c.val.toNat] := if_pos (by omega)
  rw [ofChar, hbytes, List.map_singleton, hbyte, Char.ofNat_toNat]

/-- The first byte of a longer form and those that go on with it have their high bits set. -/
theorem le_of_mem_ofChar {c b : Char} (h : 128 ≤ c.toNat) (hb : b ∈ ofChar c) : 128 ≤ b.toNat := by
  have hval : c.val.toNat = c.toNat := rfl
  have hbytes : ∀ byte ∈ String.utf8EncodeChar c, 128 ≤ byte.toNat := by
    unfold String.utf8EncodeChar
    rw [if_neg (by omega)]
    -- forms of two, three and four bytes
    repeat' split
    all_goals
      simp only [List.forall_mem_cons, UInt8.toNat_ofNat', List.not_mem_nil, false_implies,
        implies_true, and_true]
      omega
  obtain ⟨byte, hbyte, rfl⟩ := List.mem_map.mp hb
  rw [toNat_ofNat_byte]
  exact hbytes byte hbyte

/-! ## Texts -/

/-- The bytes of an array are listed from the point that the listing has reached. -/
theorem toList_loop_eq (bytes : ByteArray) (i : Nat) (front : List UInt8) :
    ByteArray.toList.loop bytes i front = front.reverse ++ bytes.data.toList.drop i := by
  fun_induction ByteArray.toList.loop bytes i front with
  | case1 i front h ih =>
    have hi : i < bytes.data.toList.length := h
    have hget : bytes.get! i = bytes.data.toList[i] := getElem!_pos bytes.data i h
    rw [ih, List.drop_eq_getElem_cons hi, hget, List.reverse_cons, List.append_assoc]
    rfl
  | case2 i front h =>
    rw [List.drop_eq_nil_of_le (Nat.le_of_not_lt h), List.append_nil]

theorem ofText_ofList (cs : List Char) : ofText (String.ofList cs) = cs.flatMap ofChar := by
  have hlist : (String.ofList cs).toUTF8.toList = cs.flatMap String.utf8EncodeChar := by
    show ByteArray.toList.loop _ 0 [] = _
    rw [toList_loop_eq]
    exact List.toList_data_toByteArray
  rw [ofText, ofArray, hlist, List.map_flatMap]
  rfl

/-- The bytes of a text are counted character by character. -/
theorem length_ofText (cs : List Char) : (ofText (String.ofList cs)).length = byteLength cs := by
  rw [ofText_ofList]
  induction cs with
  | nil => rfl
  | cons c cs ih => rw [List.flatMap_cons, List.length_append, ih, length_ofChar, byteLength_cons]

end TemplateCoverage.Bytes
