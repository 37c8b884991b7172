import Mathlib.Data.List.Basic

/-!
# Incremental hashes

A hash that is computed from chunks: a state, updated with one chunk after the
other, and finalized to a digest.  All that is required is that the digest
depends on nothing but the chunks put together.

`IncrementalHash.Absorbed` says that a state has absorbed a sequence of bytes,
in whatever chunks.
-/

namespace CacheAction

universe u v

/-- A hash with states `σ` and digests `δ`. -/
structure IncrementalHash (σ : Type u) (δ : Type v) where
  new : σ
  update : σ → List UInt8 → σ
  finalize : σ → δ
  /-- The digest of a sequence of bytes. -/
  digest : List UInt8 → δ
  finalize_updates : ∀ chunks : List (List UInt8),
    finalize (chunks.foldl update new) = digest chunks.flatten

namespace IncrementalHash

variable {σ : Type u} {δ : Type v} (hash : IncrementalHash σ δ)

/-- The state has absorbed `bytes`. -/
def Absorbed (state : σ) (bytes : List UInt8) : Prop :=
  ∃ chunks : List (List UInt8), chunks.flatten = bytes ∧ chunks.foldl hash.update hash.new = state

variable {hash} {state : σ} {bytes : List UInt8}

theorem absorbed_new : hash.Absorbed hash.new [] := ⟨[], rfl, rfl⟩

theorem Absorbed.update (absorbed : hash.Absorbed state bytes) (chunk : List UInt8) :
    hash.Absorbed (hash.update state chunk) (bytes ++ chunk) := by
  obtain ⟨chunks, rfl, rfl⟩ := absorbed
  refine ⟨chunks ++ [chunk], ?_, ?_⟩
  · rw [List.flatten_append, List.flatten_singleton]
  · rw [List.foldl_append]
    rfl

theorem Absorbed.finalize (absorbed : hash.Absorbed state bytes) :
    hash.finalize state = hash.digest bytes := by
  obtain ⟨chunks, rfl, rfl⟩ := absorbed
  exact hash.finalize_updates chunks

end IncrementalHash

/-- The hash that keeps the bytes and computes the digest at the end. -/
def IncrementalHash.collecting {δ : Type v} (digest : List UInt8 → δ) :
    IncrementalHash (List UInt8) δ where
  new := []
  update := (· ++ ·)
  finalize := digest
  digest := digest
  finalize_updates chunks := by
    have : ∀ bytes : List UInt8, chunks.foldl (· ++ ·) bytes = bytes ++ chunks.flatten := by
      intro bytes
      induction chunks generalizing bytes with
      | nil => exact (List.append_nil bytes).symm
      | cons chunk rest ih => rw [List.foldl_cons, ih, List.flatten_cons, List.append_assoc]
    rw [this, List.nil_append]

end CacheAction
