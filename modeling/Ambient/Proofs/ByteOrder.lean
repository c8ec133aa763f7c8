import Ambient.SortedMap
import Mathlib.Data.List.Lex

/-!
# The order of bytes

Texts are compared code point by code point, and what is sorted by keys is
sorted in that order.  Compared byte by byte in UTF-8 texts stand in the same
order (`utf8Bytes_lt`): of two characters the smaller one has the smaller bytes,
whatever follows, because its encoding is not longer and differs from the other
one before either of them ends.
-/

namespace Ambient

def utf8Bytes (t : String) : List UInt8 :=
  t.toUTF8.data.toList

theorem utf8Bytes_eq_flatMap (t : String) :
    utf8Bytes t = t.toList.flatMap String.utf8EncodeChar := by
  have hbytes : t.toUTF8 = t.toList.utf8Encode := by
    conv => lhs; rw [← String.ofList_toList (s := t)]
    rfl
  rw [utf8Bytes, hbytes, List.utf8Encode]
  simp

theorem toNat_val_lt (c : Char) : c.val.toNat < 0x110000 := by
  rcases c.valid with h | h
  · exact Nat.lt_trans h (by decide)
  · exact h.2

/-- The smaller of two characters has the smaller bytes. -/
theorem utf8EncodeChar_append_lt {c d : Char} (h : c < d) (u v : List UInt8) :
    String.utf8EncodeChar c ++ u < String.utf8EncodeChar d ++ v := by
  have hlt : c.val.toNat < d.val.toNat := h
  have hmax := toNat_val_lt d
  -- The digits of a code point to base 64, each from the one before.
  have htwo : ∀ n : Nat, n / 4096 = n / 64 / 64 :=
    fun n => (Nat.div_div_eq_div_mul n 64 64).symm
  have hthree : ∀ n : Nat, n / 262144 = n / 64 / 64 / 64 :=
    fun n => by rw [Nat.div_div_eq_div_mul, Nat.div_div_eq_div_mul]
  simp only [String.utf8EncodeChar, htwo, hthree]
  generalize c.val.toNat = m at hlt
  generalize d.val.toNat = n at hlt hmax
  -- One case for each pair of lengths; the first bytes differ, or the lengths are the same.
  split_ifs
  all_goals
    simp only [List.cons_append, List.nil_append, List.cons_lt_cons_iff, UInt8.lt_iff_toNat_lt,
      ← UInt8.toNat_inj, UInt8.toNat_ofNat']
    omega

/-- **The order of texts is the order of their bytes.** -/
theorem utf8Bytes_lt {s t : String} (h : s < t) : utf8Bytes s < utf8Bytes t := by
  have hlist : ∀ {cs ds : List Char}, cs < ds →
      cs.flatMap String.utf8EncodeChar < ds.flatMap String.utf8EncodeChar := by
    intro cs ds hlt
    induction hlt with
    | @nil d ds =>
        obtain ⟨b, bs, hbytes⟩ :=
          List.exists_cons_of_ne_nil (String.utf8EncodeChar_ne_nil (c := d))
        rw [List.flatMap_cons, hbytes]
        exact .nil
    | cons _ ih => exact List.append_left_lt ih
    | rel hlt => exact utf8EncodeChar_append_lt hlt _ _
  rw [utf8Bytes_eq_flatMap, utf8Bytes_eq_flatMap]
  exact hlist h

end Ambient
