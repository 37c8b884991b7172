import CacheAction.Foundations.IncrementalHash
import CacheAction.Foundations.Pipe
import Mathlib.Algebra.Group.Nat.Defs

/-!
# The hashing and counting writer

`HashAndCountWriter` is an adapter around the writing end of the pipe: it hashes
and counts the bytes that the pipe accepts.  `Wrote` says that it has done so for
a given sequence of bytes; the counter is a machine integer.

It hashes what has been accepted, after the poll, and not what has been offered: a write that is
cut short, or that is pending and offered again, must not be counted twice.
-/

namespace CacheAction

namespace HandleStorePath

/-- `HashAndCountWriter`. -/
structure HashAndCountWriter (σ : Type) where
  inner : Pipe UInt8
  sha256 : σ
  numBytesWritten : ℕ
  deriving DecidableEq

namespace HashAndCountWriter

variable {σ δ : Type} (hash : IncrementalHash σ δ)

/-- `HashAndCountWriter::new`. -/
def new (inner : Pipe UInt8) : HashAndCountWriter σ :=
  { inner, sha256 := hash.new, numBytesWritten := 0 }

/-- `poll_write`, the pipe accepting up to `limit` bytes. -/
def pollWrite (writer : HashAndCountWriter σ) (buf : List UInt8) (limit : ℕ) :
    Poll (Except BrokenPipe ℕ) × HashAndCountWriter σ :=
  match writer.inner.pollWrite buf limit with
  | (.ready (.ok numBytes), inner) =>
      (.ready (.ok numBytes),
        { inner
          sha256 := hash.update writer.sha256 (buf.take numBytes)
          numBytesWritten := (writer.numBytesWritten + numBytes) % 2 ^ 64 })
  | (other, inner) => (other, { writer with inner })

/-- `poll_close`. -/
def close (writer : HashAndCountWriter σ) : HashAndCountWriter σ :=
  { writer with inner := writer.inner.close }

/-- The writer has hashed and counted `bytes`. -/
structure Wrote (writer : HashAndCountWriter σ) (bytes : List UInt8) : Prop where
  hashed : hash.Absorbed writer.sha256 bytes
  counted : writer.numBytesWritten = bytes.length % 2 ^ 64

variable {hash} {writer : HashAndCountWriter σ} {written read : List UInt8} {ended : Bool}

theorem wrote_new (inner : Pipe UInt8) : Wrote hash (new hash inner) [] :=
  { hashed := IncrementalHash.absorbed_new, counted := rfl }

/-- A chunk is hashed and counted together. -/
theorem Wrote.advance (wrote : Wrote hash writer written) (inner : Pipe UInt8)
    (chunk : List UInt8) :
    Wrote hash
      { inner
        sha256 := hash.update writer.sha256 chunk
        numBytesWritten := (writer.numBytesWritten + chunk.length) % 2 ^ 64 }
      (written ++ chunk) where
  hashed := wrote.hashed.update chunk
  counted := by
    rw [List.length_append]
    show (writer.numBytesWritten + _) % _ = _
    rw [wrote.counted, Nat.mod_add_mod]

/-- **A poll of the writer.**  Nothing happens, or the pipe accepts a prefix of
the buffer, which is hashed and counted. -/
theorem pollWrite_spec (wrote : Wrote hash writer written)
    (flow : writer.inner.Flow written read ended) (isOpen : writer.inner.closed = false)
    (buf : List UInt8) (limit : ℕ) :
    writer.pollWrite hash buf limit = (.pending, writer) ∨
      ∃ numBytes next, writer.pollWrite hash buf limit = (.ready (.ok numBytes), next) ∧
        numBytes ≤ buf.length ∧ Wrote hash next (written ++ buf.take numBytes) ∧
        next.inner.Flow (written ++ buf.take numBytes) read ended ∧
        next.inner.closed = false := by
  unfold pollWrite Pipe.pollWrite
  rw [isOpen, if_neg Bool.false_ne_true]
  split_ifs
  · exact Or.inl rfl
  · have fits : writer.inner.accepts buf limit ≤ buf.length :=
      Nat.le_trans (Nat.min_le_right _ _) (Nat.min_le_left _ _)
    refine Or.inr ⟨_, _, rfl, fits, ?_, flow.push isOpen buf limit, isOpen⟩
    have advanced := wrote.advance (writer.inner.push buf limit)
      (buf.take (writer.inner.accepts buf limit))
    rwa [List.length_take, Nat.min_eq_left fits] at advanced

end HashAndCountWriter

end HandleStorePath

end CacheAction
