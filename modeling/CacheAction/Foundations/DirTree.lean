import Mathlib.Data.List.Forall2
import Mathlib.Data.List.Sort

/-!
# Trees of directories

A tree of directories has named entries in its inner nodes and values in its
leaves.  The entries of a directory are a list; a tree is only meaningful up to
their order, and the names in a directory are distinct (`Unique`).

`canonical` is the way to compare such trees: it sorts every directory by name
and replaces each leaf by what can be seen of it, if it can be seen at all.  Its
result is strictly ordered (`canonical_ordered`), does not depend on the order of
the entries, and has at every path what the tree has there (`find_canonical`).

A tree is a nested inductive type, with lists of named trees in its nodes, for which Lean has
no induction principle that reaches into the lists.  `DirTree.induction` is that principle: to
show something of a directory it may be assumed of all its entries.  All proofs about trees go
through it, and so does the recursion of whatever walks a tree.
-/

namespace CacheAction

universe u v w

/-- A tree of directories, with names in `ν` and values in `α`. -/
inductive DirTree (ν : Type u) (α : Type v) where
  | leaf (value : α)
  | directory (entries : List (ν × DirTree ν α))

namespace DirTree

variable {ν : Type u} {α : Type v} {β : Type w}

/-- Induction over a tree, with the hypothesis for all entries of a directory. -/
theorem induction {motive : DirTree ν α → Prop} (leaf : ∀ value, motive (.leaf value))
    (directory : ∀ entries, (∀ entry ∈ entries, motive entry.2) → motive (.directory entries)) :
    ∀ t, motive t
  | .leaf value => leaf value
  | .directory entries =>
      directory entries fun entry _ => induction leaf directory entry.2
termination_by t => sizeOf t
decreasing_by
  rename_i member
  have := List.sizeOf_lt_of_mem member
  obtain ⟨name, child⟩ := entry
  simp only [Prod.mk.sizeOf_spec, DirTree.directory.sizeOf_spec] at *
  omega

/-- The names in every directory are distinct. -/
inductive Unique : DirTree ν α → Prop where
  | leaf {value} : Unique (.leaf value)
  | directory {entries} (names : (entries.map Prod.fst).Nodup)
      (children : ∀ entry ∈ entries, Unique entry.2) : Unique (.directory entries)

/-- The names in every directory are strictly increasing. -/
inductive Ordered [LT ν] : DirTree ν α → Prop where
  | leaf {value} : Ordered (.leaf value)
  | directory {entries} (names : (entries.map Prod.fst).Pairwise (· < ·))
      (children : ∀ entry ∈ entries, Ordered entry.2) : Ordered (.directory entries)

/-! ## Paths -/

section Paths

variable [DecidableEq ν]

/-- The node at a path. -/
def find : DirTree ν α → List ν → Option (DirTree ν α)
  | t, [] => some t
  | .leaf _, _ :: _ => none
  | .directory entries, name :: path => (entries.lookup name).bind fun child => child.find path

@[simp] theorem find_nil (t : DirTree ν α) : t.find [] = some t := by
  cases t <;> rfl

/-- The node below a node. -/
theorem find_append (t : DirTree ν α) (path rest : List ν) :
    t.find (path ++ rest) = (t.find path).bind fun child => child.find rest := by
  induction path generalizing t with
  | nil => simp
  | cons name path ih =>
      cases t with
      | leaf value => rfl
      | directory entries =>
          simp only [List.cons_append, find, Option.bind_assoc]
          congr 1
          funext child
          exact ih child

/-- With distinct names, the entry of a name is the one in the list. -/
theorem lookup_eq_some_iff {β : Type w} {entries : List (ν × β)}
    (names : (entries.map Prod.fst).Nodup) {name : ν} {child : β} :
    entries.lookup name = some child ↔ (name, child) ∈ entries := by
  induction entries with
  | nil => simp
  | cons entry rest ih =>
      obtain ⟨first, value⟩ := entry
      obtain ⟨fresh, others⟩ := List.nodup_cons.mp names
      rw [List.lookup_cons, List.mem_cons, Prod.mk.injEq]
      by_cases same : name = first
      · subst same
        have absent : (name, child) ∉ rest := fun member =>
          fresh (List.mem_map.mpr ⟨(name, child), member, rfl⟩)
        simp [absent, eq_comm]
      · have : (name == first) = false := by simpa using same
        rw [this]
        simpa [same] using ih others

/-- The entry of a directory is the node at its name. -/
theorem find_concat_of_mem {t : DirTree ν α} {path : List ν} {entries : List (ν × DirTree ν α)}
    (here : t.find path = some (.directory entries)) (names : (entries.map Prod.fst).Nodup)
    {entry : ν × DirTree ν α} (member : entry ∈ entries) :
    t.find (path ++ [entry.1]) = some entry.2 := by
  rw [find_append, here, Option.bind_some, find, (lookup_eq_some_iff names).mpr member,
    Option.bind_some, find_nil]

/-- Every node of a tree with distinct names has distinct names. -/
theorem Unique.find {t node : DirTree ν α} (unique : t.Unique) {path : List ν}
    (here : t.find path = some node) : node.Unique := by
  induction path generalizing t with
  | nil =>
      rw [find_nil] at here
      obtain rfl := Option.some.inj here
      exact unique
  | cons name path ih =>
      cases unique with
      | leaf => cases here
      | directory names children =>
          obtain ⟨child, lookup, below⟩ := Option.bind_eq_some_iff.mp here
          exact ih (children _ ((lookup_eq_some_iff names).mp lookup)) below

end Paths

/-! ## Canonical trees -/

section Canonical

variable [LE ν] [DecidableLE ν]

/-- The entries sorted by name. -/
def sortByName (entries : List (ν × β)) : List (ν × β) :=
  entries.insertionSort fun first second => first.1 ≤ second.1

variable (f : α → Option β)

mutual

/-- The tree with its directories sorted and `f` of its leaves; `none` if `f` of a
leaf is `none`. -/
def canonical : DirTree ν α → Option (DirTree ν β)
  | .leaf value => (f value).map .leaf
  | .directory entries =>
      (canonicalEntries entries).map fun children => .directory (sortByName children)

/-- The entries with canonical trees, not sorted. -/
def canonicalEntries : List (ν × DirTree ν α) → Option (List (ν × DirTree ν β))
  | [] => some []
  | (name, t) :: rest =>
      (canonical t).bind fun child =>
        (canonicalEntries rest).map fun children => (name, child) :: children

end

variable {f}

/-- The canonical entries are those of the list, one by one. -/
theorem canonicalEntries_eq_some {entries : List (ν × DirTree ν α)}
    {children : List (ν × DirTree ν β)} :
    canonicalEntries f entries = some children ↔
      List.Forall₂ (fun entry child => child.1 = entry.1 ∧ canonical f entry.2 = some child.2)
        entries children := by
  induction entries generalizing children with
  | nil => simp [canonicalEntries, eq_comm]
  | cons entry rest ih =>
      obtain ⟨name, t⟩ := entry
      rw [canonicalEntries, Option.bind_eq_some_iff, List.forall₂_cons_left_iff]
      constructor
      · rintro ⟨child, canon, more⟩
        obtain ⟨others, hothers, rfl⟩ := Option.map_eq_some_iff.mp more
        exact ⟨(name, child), others, ⟨rfl, canon⟩, ih.mp hothers, rfl⟩
      · rintro ⟨⟨_, child⟩, others, ⟨rfl, canon⟩, hothers, rfl⟩
        exact ⟨child, canon, Option.map_eq_some_iff.mpr ⟨others, ih.mpr hothers, rfl⟩⟩

theorem canonicalEntries_eq_none {entries : List (ν × DirTree ν α)} :
    canonicalEntries f entries = none ↔ ∃ entry ∈ entries, canonical f entry.2 = none := by
  induction entries with
  | nil => simp [canonicalEntries]
  | cons entry rest ih =>
      obtain ⟨name, t⟩ := entry
      rw [canonicalEntries, List.exists_mem_cons_iff, ← ih]
      cases canonical f t with
      | none => simp
      | some child => simp

/-- The names of the canonical entries. -/
theorem map_fst_of_canonicalEntries {entries : List (ν × DirTree ν α)}
    {children : List (ν × DirTree ν β)} (h : canonicalEntries f entries = some children) :
    children.map Prod.fst = entries.map Prod.fst := by
  have pairs := canonicalEntries_eq_some.mp h
  clear h
  induction pairs with
  | nil => rfl
  | cons first _ ih => rw [List.map_cons, List.map_cons, first.1, ih]

/-- A canonical entry comes from an entry of the same name. -/
theorem exists_of_mem_canonicalEntries {entries : List (ν × DirTree ν α)}
    {children : List (ν × DirTree ν β)} (h : canonicalEntries f entries = some children)
    {child : ν × DirTree ν β} (member : child ∈ children) :
    ∃ entry ∈ entries, child.1 = entry.1 ∧ canonical f entry.2 = some child.2 := by
  obtain ⟨i, bound, rfl⟩ := List.mem_iff_getElem.mp member
  have pairs := canonicalEntries_eq_some.mp h
  have bound' : i < entries.length := by
    rw [pairs.length_eq]
    exact bound
  exact ⟨entries[i], List.getElem_mem bound', pairs.get bound' bound⟩

/-- An entry has a canonical entry of the same name. -/
theorem mem_canonicalEntries_of_mem {entries : List (ν × DirTree ν α)}
    {children : List (ν × DirTree ν β)} (h : canonicalEntries f entries = some children)
    {entry : ν × DirTree ν α} (member : entry ∈ entries) :
    ∃ child ∈ children, child.1 = entry.1 ∧ canonical f entry.2 = some child.2 := by
  obtain ⟨i, bound, rfl⟩ := List.mem_iff_getElem.mp member
  have pairs := canonicalEntries_eq_some.mp h
  have bound' : i < children.length := by
    rw [← pairs.length_eq]
    exact bound
  exact ⟨children[i], List.getElem_mem bound', pairs.get bound bound'⟩

theorem sortByName_perm (entries : List (ν × β)) : (sortByName entries).Perm entries :=
  List.perm_insertionSort _ entries

theorem map_fst_sortByName (entries : List (ν × β)) :
    (sortByName entries).map Prod.fst = (entries.map Prod.fst).insertionSort (· ≤ ·) :=
  List.map_insertionSort _ _ Prod.fst entries fun _ _ _ _ => Iff.rfl

section Order

variable [Std.IsLinearOrder ν]

/-- Sorting does not depend on the order of the list. -/
theorem insertionSort_eq_of_perm {names names' : List ν} (perm : names.Perm names') :
    names.insertionSort (· ≤ ·) = names'.insertionSort (· ≤ ·) := by
  refine List.Perm.eq_of_pairwise (fun a b _ _ => Std.le_antisymm)
    (List.pairwise_insertionSort _ names) (List.pairwise_insertionSort _ names') ?_
  exact (List.perm_insertionSort _ names).trans
    (perm.trans (List.perm_insertionSort _ names').symm)

variable [LT ν] [Std.LawfulOrderLT ν]

/-- Distinct names are strictly increasing when sorted. -/
theorem insertionSort_strict {names : List ν} (distinct : names.Nodup) :
    (names.insertionSort (· ≤ ·)).Pairwise (· < ·) := by
  have sorted : (names.insertionSort (· ≤ ·)).Pairwise (· ≤ ·) :=
    List.pairwise_insertionSort _ names
  have still : (names.insertionSort (· ≤ ·)).Nodup :=
    (List.perm_insertionSort _ names).nodup_iff.mpr distinct
  exact (sorted.and still).imp fun both => Std.lt_of_le_of_ne both.1 both.2

/-- **A canonical tree is strictly ordered.** -/
theorem canonical_ordered {t : DirTree ν α} (unique : t.Unique) {n : DirTree ν β}
    (h : canonical f t = some n) : n.Ordered := by
  induction t using DirTree.induction generalizing n with
  | leaf value =>
      obtain ⟨seen, -, rfl⟩ := Option.map_eq_some_iff.mp h
      exact .leaf
  | directory entries ih =>
      obtain ⟨children, hchildren, rfl⟩ := Option.map_eq_some_iff.mp h
      cases unique with
      | directory names below =>
          refine .directory ?_ fun child member => ?_
          · rw [map_fst_sortByName, map_fst_of_canonicalEntries hchildren]
            exact insertionSort_strict names
          · obtain ⟨entry, hentry, -, canon⟩ := exists_of_mem_canonicalEntries hchildren
              ((sortByName_perm children).mem_iff.mp member)
            exact ih entry hentry (below entry hentry) canon

end Order

/-- **At every path a canonical tree has what the tree has there.** -/
theorem find_canonical [DecidableEq ν] {t : DirTree ν α} (unique : t.Unique) {n : DirTree ν β}
    (h : canonical f t = some n) (path : List ν) :
    n.find path = (t.find path).bind (canonical f) := by
  induction path generalizing t n with
  | nil => rw [find_nil, find_nil, Option.bind_some, h]
  | cons name path ih =>
      cases unique with
      | leaf =>
          obtain ⟨seen, -, rfl⟩ := Option.map_eq_some_iff.mp h
          rfl
      | directory names below =>
          rename_i entries
          obtain ⟨children, hchildren, rfl⟩ := Option.map_eq_some_iff.mp h
          have sorted : ((sortByName children).map Prod.fst).Nodup := by
            rw [((sortByName_perm children).map Prod.fst).nodup_iff,
              map_fst_of_canonicalEntries hchildren]
            exact names
          rw [find, find, Option.bind_assoc]
          cases lookup : entries.lookup name with
          | none =>
              cases lookup' : (sortByName children).lookup name with
              | none => rfl
              | some child =>
                  -- it was made from a child of this name, and there is none
                  have member := (sortByName_perm children).mem_iff.mp
                    ((lookup_eq_some_iff sorted).mp lookup')
                  obtain ⟨⟨_, t⟩, hentry, rfl, -⟩ := exists_of_mem_canonicalEntries hchildren member
                  rw [(lookup_eq_some_iff names).mpr hentry] at lookup
                  cases lookup
          | some t =>
              have hentry := (lookup_eq_some_iff names).mp lookup
              obtain ⟨⟨_, child⟩, member, rfl, canon⟩ :=
                mem_canonicalEntries_of_mem hchildren hentry
              have lookup' := (lookup_eq_some_iff sorted).mpr
                ((sortByName_perm children).mem_iff.mpr member)
              rw [lookup']
              exact ih (below _ hentry) canon

/-- A tree is not seen as a whole exactly if some leaf is not. -/
theorem canonical_eq_none [DecidableEq ν] {t : DirTree ν α} (unique : t.Unique) :
    canonical f t = none ↔ ∃ path value, t.find path = some (.leaf value) ∧ f value = none := by
  induction t using DirTree.induction with
  | leaf value =>
      rw [canonical, Option.map_eq_none_iff]
      constructor
      · exact fun unseen => ⟨[], value, rfl, unseen⟩
      · rintro ⟨_ | ⟨name, path⟩, value', here, unseen⟩
        · cases here
          exact unseen
        · cases here
  | directory entries ih =>
      cases unique with
      | directory names below =>
          rw [canonical, Option.map_eq_none_iff, canonicalEntries_eq_none]
          constructor
          · rintro ⟨entry, member, unseen⟩
            obtain ⟨path, value, here, unseen⟩ := (ih entry member (below entry member)).mp unseen
            refine ⟨entry.1 :: path, value, ?_, unseen⟩
            rw [find, (lookup_eq_some_iff names).mpr member, Option.bind_some, here]
          · rintro ⟨_ | ⟨name, path⟩, value, here, unseen⟩
            · cases here
            · obtain ⟨child, lookup, here⟩ := Option.bind_eq_some_iff.mp here
              have member := (lookup_eq_some_iff names).mp lookup
              exact ⟨_, member, (ih _ member (below _ member)).mpr ⟨path, value, here, unseen⟩⟩

end Canonical

end DirTree

end CacheAction
