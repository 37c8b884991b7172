import Mathlib.Data.List.Forall2

/-!
# Collecting through a callback

A library passes the elements of a collection to a callback, one by one, and says at the
end whether that has worked (`Visit`).  A callback collects the results of a function that
can fail, in one of two ways.

* It cannot stop the library; it remembers the first failure and ignores what follows
  (`collect`).
* It stops the library at the first failure (`collectWhile`).

Both come to `List.mapM` (`foldl_collect`, `tryFold_collectWhile`).  They differ in which
failure is seen when the library fails as well (`forEach_collect`,
`tryForEach_collectWhile`).

A library that stops half-way is a list of elements and an error behind them.  A callback that
cannot stop it sees all of these elements, and the error of the library hides its own; one that
stops it at its first failure never gets to the error.  With no failure in the library the two
collect the same.
-/

namespace CacheAction

variable {α β S B E : Type}

/-- The elements that a library has for a callback, and how it ends. -/
structure Visit (α E : Type) where
  elements : List α
  result : Except E Unit

/-- `core::ops::ControlFlow<B>`. -/
inductive ControlFlow (B : Type) where
  | proceed
  | stop (value : B)

/-- Pass elements to a callback with a state until it stops. -/
def tryFold (f : S → α → S × ControlFlow B) : S → List α → S × ControlFlow B
  | s, [] => (s, .proceed)
  | s, a :: rest =>
      match f s a with
      | (s, .proceed) => tryFold f s rest
      | (s, .stop value) => (s, .stop value)

namespace Visit

/-- All elements are passed to the callback. -/
def forEach (visit : Visit α E) (f : S → α → S) (s : S) : Except E S :=
  visit.result.map fun _ => visit.elements.foldl f s

/-- The elements are passed to the callback until it stops. -/
def tryForEach (visit : Visit α E) (f : S → α → S × ControlFlow B) (s : S) :
    Except E (S × ControlFlow B) :=
  match tryFold f s visit.elements with
  | (s, .proceed) => visit.result.map fun _ => (s, .proceed)
  | (s, .stop value) => .ok (s, .stop value)

end Visit

variable (g : α → Except E β)

/-- Remember the first failure. -/
def collect : Except E (List β) → α → Except E (List β)
  | .ok bs, a =>
      match g a with
      | .ok b => .ok (bs ++ [b])
      | .error e => .error e
  | .error e, _ => .error e

/-- Stop at the first failure. -/
def collectWhile (bs : List β) (a : α) : List β × ControlFlow E :=
  match g a with
  | .ok b => (bs ++ [b], .proceed)
  | .error e => (bs, .stop e)

/-- What has been collected, or why there was a stop. -/
def collected : List β × ControlFlow E → Except E (List β)
  | (bs, .proceed) => .ok bs
  | (_, .stop e) => .error e

theorem foldl_collect_error (l : List α) (e : E) :
    l.foldl (collect g) (.error e) = .error e := by
  induction l with
  | nil => rfl
  | cons a l ih => exact ih

/-- **Remembering the first failure is `mapM`.** -/
theorem foldl_collect (l : List α) (bs : List β) :
    l.foldl (collect g) (.ok bs) = (l.mapM g).map (bs ++ ·) := by
  induction l generalizing bs with
  | nil => exact congrArg Except.ok (List.append_nil bs).symm
  | cons a l ih =>
      rw [List.foldl_cons, List.mapM_cons, collect]
      cases g a with
      | error e => exact foldl_collect_error g l e
      | ok b =>
          show l.foldl (collect g) (.ok (bs ++ [b])) = _
          rw [ih]
          cases l.mapM g with
          | error e => rfl
          | ok rest => exact congrArg Except.ok (List.append_assoc bs [b] rest)

/-- **Stopping at the first failure is `mapM`.** -/
theorem tryFold_collectWhile (l : List α) (bs : List β) :
    collected (tryFold (collectWhile g) bs l) = (l.mapM g).map (bs ++ ·) := by
  induction l generalizing bs with
  | nil => exact congrArg Except.ok (List.append_nil bs).symm
  | cons a l ih =>
      rw [tryFold, List.mapM_cons, collectWhile]
      cases g a with
      | error e => rfl
      | ok b =>
          show collected (tryFold (collectWhile g) (bs ++ [b]) l) = _
          rw [ih]
          cases l.mapM g with
          | error e => rfl
          | ok rest => exact congrArg Except.ok (List.append_assoc bs [b] rest)

/-- A callback that remembers shows a failure of the library first, -/
theorem forEach_collect (visit : Visit α E) :
    (visit.forEach (collect g) (.ok [])).bind id =
      visit.result.bind fun _ => visit.elements.mapM g := by
  rw [Visit.forEach, foldl_collect]
  cases visit.result with
  | error e => rfl
  | ok _ => cases visit.elements.mapM g <;> rfl

/-- and one that stops shows its own. -/
theorem tryForEach_collectWhile (visit : Visit α E) :
    (visit.tryForEach (collectWhile g) []).bind collected =
      (visit.elements.mapM g).bind fun bs => visit.result.map fun _ => bs := by
  have all : visit.elements.mapM g = collected (tryFold (collectWhile g) [] visit.elements) := by
    rw [tryFold_collectWhile]
    cases visit.elements.mapM g <;> rfl
  rw [all, Visit.tryForEach]
  rcases tryFold (collectWhile g) [] visit.elements with ⟨bs, _ | e⟩
  · cases visit.result <;> rfl
  · rfl

variable {g}

/-- With `mapM`, all elements succeed, -/
theorem mapM_eq_ok {l : List α} {bs : List β} :
    l.mapM g = .ok bs ↔ List.Forall₂ (fun a b => g a = .ok b) l bs := by
  induction l generalizing bs with
  | nil =>
      rw [List.forall₂_nil_left_iff]
      exact ⟨fun h => (Except.ok.inj h).symm, fun h => congrArg Except.ok h.symm⟩
  | cons a l ih =>
      rw [List.mapM_cons, List.forall₂_cons_left_iff]
      constructor
      · intro h
        cases first : g a with
        | error e =>
            rw [first] at h
            cases h
        | ok b =>
            rw [first] at h
            cases others : l.mapM g with
            | error e =>
                rw [others] at h
                cases h
            | ok rest =>
                rw [others] at h
                exact ⟨b, rest, rfl, ih.mp others, (Except.ok.inj h).symm⟩
      · rintro ⟨b, rest, first, others, rfl⟩
        rw [first, ih.mpr others]
        rfl

/-- Every result is that of an element. -/
theorem exists_of_mapM_eq_ok {l : List α} {bs : List β} (h : l.mapM g = .ok bs) :
    ∀ b ∈ bs, ∃ a ∈ l, g a = .ok b := by
  have matched := mapM_eq_ok.mp h
  clear h
  induction matched with
  | nil => simp
  | cons first _ ih =>
      intro b member
      rcases List.mem_cons.mp member with rfl | later
      · exact ⟨_, List.mem_cons_self, first⟩
      · obtain ⟨a, inRest, found⟩ := ih b later
        exact ⟨a, List.mem_cons_of_mem _ inRest, found⟩

/-- or the first one that fails decides. -/
theorem mapM_eq_error {l : List α} {e : E} :
    l.mapM g = .error e ↔ ∃ before a after, l = before ++ a :: after ∧
      (∀ b ∈ before, ∃ c, g b = .ok c) ∧ g a = .error e := by
  induction l with
  | nil =>
      refine ⟨by rintro ⟨⟩, ?_⟩
      rintro ⟨before, a, after, split, -⟩
      simp at split
  | cons a l ih =>
      rw [List.mapM_cons]
      cases first : g a with
      | error e' =>
          constructor
          · rintro ⟨⟩
            exact ⟨[], a, l, rfl, by simp, first⟩
          · rintro ⟨before, b, after, split, fine, fails⟩
            cases before with
            | nil =>
                cases split
                rw [first] at fails
                cases fails
                rfl
            | cons _ before =>
                cases split
                obtain ⟨c, ok⟩ := fine a List.mem_cons_self
                rw [first] at ok
                cases ok
      | ok b =>
          have others : (do let b ← (.ok b : Except E β); let bs ← l.mapM g; pure (b :: bs)) =
              .error e ↔ l.mapM g = .error e := by
            cases l.mapM g with
            | error e' => exact Iff.rfl
            | ok rest => exact ⟨by rintro ⟨⟩, by rintro ⟨⟩⟩
          rw [others, ih]
          constructor
          · rintro ⟨before, c, after, rfl, fine, fails⟩
            exact ⟨a :: before, c, after, rfl,
              List.forall_mem_cons.mpr ⟨⟨b, first⟩, fine⟩, fails⟩
          · rintro ⟨before, c, after, split, fine, fails⟩
            cases before with
            | nil =>
                cases split
                rw [first] at fails
                cases fails
            | cons _ before =>
                cases split
                exact ⟨before, c, after, rfl, (List.forall_mem_cons.mp fine).2, fails⟩

/-- A result is the result of some element, -/
theorem exists_of_mem_right {R : α → β → Prop} {l : List α} {bs : List β}
    (all : List.Forall₂ R l bs) {b : β} (member : b ∈ bs) : ∃ a ∈ l, R a b := by
  obtain ⟨i, bound, rfl⟩ := List.mem_iff_getElem.mp member
  have bound' : i < l.length := all.length_eq ▸ bound
  exact ⟨l[i], List.getElem_mem bound', all.get bound' bound⟩

/-- and every element has one. -/
theorem exists_of_mem_left {R : α → β → Prop} {l : List α} {bs : List β}
    (all : List.Forall₂ R l bs) {a : α} (member : a ∈ l) : ∃ b ∈ bs, R a b :=
  exists_of_mem_right (R := fun b a => R a b) all.flip member

end CacheAction
