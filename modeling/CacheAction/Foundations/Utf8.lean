import Mathlib.Data.List.Basic
import Mathlib.Data.UInt

/-!
# Byte-level view of UTF-8 strings

A string is stored as the concatenation of the UTF-8 encodings of its
characters.  `utf8` and `fromUtf8` convert between the two views, and
`mem_utf8_of_ascii` is the fact that lets a byte-oriented scanner look for an
ASCII separator: a byte below `0x80` only ever encodes the character with that
code, it is never part of a longer encoding.
-/

namespace CacheAction

/-- The bytes of a string. -/
def utf8 (s : String) : List UInt8 := s.toList.flatMap String.utf8EncodeChar

/-- Decode a byte sequence; `none` when it is not valid UTF-8. -/
def fromUtf8 (bytes : List UInt8) : Option String :=
  String.fromUTF8? bytes.toByteArray

theorem toByteArray_utf8 (s : String) : (utf8 s).toByteArray = s.toByteArray := by
  conv_rhs => rw [← String.ofList_toList (s := s)]
  rfl

/-- Decoding undoes encoding. -/
@[simp] theorem fromUtf8_utf8 (s : String) : fromUtf8 (utf8 s) = some s := by
  unfold fromUtf8
  rw [toByteArray_utf8, String.fromUTF8?, dif_pos s.isValidUTF8]
  rfl

/-- Only the encoding of a string decodes to it. -/
theorem utf8_of_fromUtf8 {bytes : List UInt8} {s : String}
    (h : fromUtf8 bytes = some s) : utf8 s = bytes := by
  unfold fromUtf8 String.fromUTF8? at h
  split at h
  · rename_i valid
    have hbytes : s.toByteArray = bytes.toByteArray := by
      rw [← Option.some.inj h]
      rfl
    have hdata := congrArg (fun b => b.data.toList) ((toByteArray_utf8 s).trans hbytes)
    simpa using hdata
  · cases h

@[simp] theorem utf8_append (s t : String) : utf8 (s ++ t) = utf8 s ++ utf8 t := by
  simp [utf8]

/-- The bytes that encode `c` below `0x80` are the code of `c`, if any. -/
theorem mem_utf8EncodeChar_of_ascii {c : Char} {b : UInt8} (ascii : b.toNat < 128) :
    b ∈ String.utf8EncodeChar c ↔ c.toNat = b.toNat := by
  have hb : b.toNat < 256 := b.toNat_lt
  unfold String.utf8EncodeChar Char.toNat
  simp only
  split_ifs <;> simp only [List.mem_cons, List.not_mem_nil, or_false, ← UInt8.toNat_inj,
    UInt8.toNat_ofNat'] <;> omega

/-- An ASCII byte occurs among the bytes of a string exactly when the
corresponding character occurs in it. -/
theorem mem_utf8_of_ascii {s : String} {c : Char} {b : UInt8} (ascii : b.toNat < 128)
    (code : c.toNat = b.toNat) : b ∈ utf8 s ↔ c ∈ s.toList := by
  unfold utf8
  rw [List.mem_flatMap]
  constructor
  · rintro ⟨d, member, hb⟩
    have hd : d.toNat = b.toNat := (mem_utf8EncodeChar_of_ascii ascii).mp hb
    have : d = c := Char.toNat_inj.mp (hd.trans code.symm)
    exact this ▸ member
  · intro member
    exact ⟨c, member, (mem_utf8EncodeChar_of_ascii ascii).mpr code⟩

end CacheAction
