import CacheAction.Foundations.Nar

/-!
# The bytes of a NAR

A token is stored as its length in eight bytes, the least significant one first, its
content, and zeros up to a multiple of eight bytes.  `encode` is a NAR as bytes and
`decode` reads it back; `decode_encode` holds for every NAR whose size fits in eight
bytes.

The eight bytes are the reason for the condition: a longer token would be stored with its length
modulo `2 ^ 64`, and read back as another one.  When a NAR is read, no byte of the padding may
be anything but zero.
-/

namespace CacheAction

namespace Nar

/-! ## Numbers -/

/-- The lowest `width` bytes of a number, the least significant one first. -/
def littleEndian : ℕ → ℕ → List UInt8
  | 0, _ => []
  | width + 1, n => UInt8.ofNat n :: littleEndian width (n / 256)

/-- The number that some bytes stand for. -/
def ofLittleEndian (bytes : List UInt8) : ℕ :=
  bytes.foldr (fun byte n => byte.toNat + 256 * n) 0

@[simp] theorem length_littleEndian (width n : ℕ) : (littleEndian width n).length = width := by
  induction width generalizing n with
  | zero => rfl
  | succ width ih => rw [littleEndian, List.length_cons, ih]

theorem ofLittleEndian_littleEndian {width n : ℕ} (fits : n < 256 ^ width) :
    ofLittleEndian (littleEndian width n) = n := by
  induction width generalizing n with
  | zero =>
      rw [pow_zero, Nat.lt_one_iff] at fits
      exact fits.symm
  | succ width ih =>
      have higher : n / 256 < 256 ^ width := by
        rw [Nat.div_lt_iff_lt_mul (by decide)]
        exact fits
      show (UInt8.ofNat n).toNat + 256 * ofLittleEndian (littleEndian width (n / 256)) = n
      rw [ih higher, UInt8.toNat_ofNat']
      omega

/-! ## Tokens -/

/-- The zeros after a content of this length. -/
def padding (len : ℕ) : List UInt8 :=
  List.replicate ((8 - len % 8) % 8) 0

/-- A token as bytes. -/
def frame (token : Token) : List UInt8 :=
  littleEndian 8 token.length ++ (token ++ padding token.length)

/-- The first token of some bytes, and what follows it. -/
def unframe (bytes : List UInt8) : Option (Token × List UInt8) :=
  let len := ofLittleEndian (bytes.take 8)
  let rest := bytes.drop 8
  if 8 ≤ bytes.length ∧ len ≤ rest.length ∧ padding len <+: rest.drop len then
    some (rest.take len, rest.drop (len + (padding len).length))
  else none

/-- The tokens that some bytes consist of; `fuel` bounds their number. -/
def readTokens : ℕ → List UInt8 → Option (List Token)
  | _, [] => some []
  | 0, _ :: _ => none
  | fuel + 1, byte :: bytes =>
      (unframe (byte :: bytes)).bind fun next =>
        (readTokens fuel next.2).map fun ts => next.1 :: ts

theorem unframe_frame {token : Token} (short : token.length < 256 ^ 8) (rest : List UInt8) :
    unframe (frame token ++ rest) = some (token, rest) := by
  have size : (littleEndian 8 token.length).length = 8 := length_littleEndian 8 token.length
  have parts : frame token ++ rest =
      littleEndian 8 token.length ++ (token ++ (padding token.length ++ rest)) := by
    simp only [frame, List.append_assoc]
  have len : ofLittleEndian ((frame token ++ rest).take 8) = token.length := by
    rw [parts, List.take_left' size, ofLittleEndian_littleEndian short]
  have content : (frame token ++ rest).drop 8 = token ++ (padding token.length ++ rest) := by
    rw [parts, List.drop_left' size]
  have enough : 8 ≤ (frame token ++ rest).length := by
    rw [parts, List.length_append, size]
    omega
  unfold unframe
  simp only [len, content, enough, true_and]
  rw [List.drop_left, if_pos ⟨by simp, List.prefix_append _ _⟩, List.take_left,
    ← List.drop_drop, List.drop_left, List.drop_left]

/-- A token is not longer than its bytes. -/
theorem length_le_frame (token : Token) : token.length + 1 ≤ (frame token).length := by
  simp only [frame, List.length_append, length_littleEndian]
  omega

theorem readTokens_frames {ts : List Token} (short : ∀ token ∈ ts, token.length < 256 ^ 8)
    {fuel : ℕ} (enough : ts.length ≤ fuel) : readTokens fuel (ts.flatMap frame) = some ts := by
  induction ts generalizing fuel with
  | nil => cases fuel <;> rfl
  | cons token ts ih =>
      obtain ⟨first, others⟩ := List.forall_mem_cons.mp short
      obtain ⟨fuel, rfl⟩ := Nat.exists_eq_succ_of_ne_zero
        (Nat.ne_of_gt (Nat.lt_of_lt_of_le (Nat.succ_pos ts.length) enough))
      have read := unframe_frame first (ts.flatMap frame)
      have some_byte := length_le_frame token
      rw [List.flatMap_cons]
      cases bytes : frame token with
      | nil =>
          rw [bytes] at some_byte
          cases some_byte
      | cons byte bytes' =>
          rw [bytes, List.cons_append] at read
          rw [List.cons_append, readTokens, read, Option.bind_some,
            ih others (Nat.le_of_succ_le_succ enough), Option.map_some]

/-! ## NARs -/

/-- A NAR as bytes. -/
def encode (nar : Nar) : List UInt8 :=
  (tokens nar).flatMap frame

/-- The NAR that some bytes are, if they are one. -/
def decode (bytes : List UInt8) : Option Nar :=
  (readTokens bytes.length bytes).bind parse

/-- A token of a NAR is shorter than the NAR. -/
theorem length_lt_of_mem {ts : List Token} {token : Token} (member : token ∈ ts) :
    token.length < (ts.flatMap frame).length := by
  obtain ⟨before, after, rfl⟩ := List.append_of_mem member
  have := length_le_frame token
  simp only [List.flatMap_append, List.flatMap_cons, List.length_append]
  omega

theorem length_le_frames (ts : List Token) : ts.length ≤ (ts.flatMap frame).length := by
  induction ts with
  | nil => exact Nat.le_refl 0
  | cons token ts ih =>
      have := length_le_frame token
      simp only [List.flatMap_cons, List.length_append, List.length_cons]
      omega

/-- **A NAR is read back from its bytes.** -/
theorem decode_encode {nar : Nar} (ordered : nar.Ordered)
    (fits : (encode nar).length < 256 ^ 8) : decode (encode nar) = some nar := by
  have short : ∀ token ∈ tokens nar, token.length < 256 ^ 8 := fun token member =>
    (length_lt_of_mem member).trans fits
  have read : readTokens (encode nar).length (encode nar) = some (tokens nar) :=
    readTokens_frames short (length_le_frames (tokens nar))
  rw [decode, read, Option.bind_some, parse_tokens ordered]

end Nar

end CacheAction
