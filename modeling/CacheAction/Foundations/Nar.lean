import CacheAction.Foundations.DirTree
import CacheAction.Foundations.Utf8

/-!
# The NAR format

A NAR is a sequence of tokens, each of them a byte string; words such as
`"entry"` are tokens like any other.  The grammar is

* `nar = "nix-archive-1" node`
* `node = "(" "type" ("regular" ["executable" ""] "contents" bytes | "symlink"
  "target" bytes | "directory" entry*) ")"`
* `entry = "entry" "(" "name" bytes "node" node ")"`

and the names in a directory are strictly increasing.  `tokens` writes a tree in
this grammar and `parse` reads one back; `parse_tokens` says that nothing is lost
on the way.
-/

namespace CacheAction

/-- A token. -/
abbrev Token := List UInt8

/-- What a NAR stores of a file that is not a directory. -/
inductive NarLeaf where
  | regular (executable : Bool) (contents : List UInt8)
  | symlink (target : List UInt8)
  deriving DecidableEq

/-- A tree as a NAR stores it. -/
abbrev Nar := DirTree (List UInt8) NarLeaf

namespace Nar

/-! ## Writing -/

/-- What precedes the type of the root. -/
def header : List Token := [utf8 "nix-archive-1", utf8 "(", utf8 "type"]

/-- What precedes the type of an entry. -/
def openEntry (name : List UInt8) : List Token :=
  [utf8 "entry", utf8 "(", utf8 "name", name, utf8 "node", utf8 "(", utf8 "type"]

/-- A leaf, from its type on. -/
def leafTokens : NarLeaf → List Token
  | .regular executable contents =>
      utf8 "regular" :: ((if executable then [utf8 "executable", []] else []) ++
        [utf8 "contents", contents, utf8 ")"])
  | .symlink target => [utf8 "symlink", utf8 "target", target, utf8 ")"]

mutual

/-- A node, from its type on. -/
def nodeTokens : Nar → List Token
  | .leaf value => leafTokens value
  | .directory entries => utf8 "directory" :: (entriesTokens entries ++ [utf8 ")"])

/-- The entries of a directory. -/
def entriesTokens : List (List UInt8 × Nar) → List Token
  | [] => []
  | (name, node) :: rest => openEntry name ++ (nodeTokens node ++ utf8 ")" :: entriesTokens rest)

end

/-- The tokens of a NAR. -/
def tokens (nar : Nar) : List Token :=
  header ++ nodeTokens nar

/-! ## Reading -/

/-- Drop the tokens `words`, which have to come first. -/
def expect (words ts : List Token) : Option (List Token) :=
  if words <+: ts then some (ts.drop words.length) else none

/-- The contents of a regular file. -/
def readContents (executable : Bool) (ts : List Token) : Option (Nar × List Token) :=
  match expect [utf8 "contents"] ts with
  | some (contents :: ts) =>
      (expect [utf8 ")"] ts).map fun ts => (.leaf (.regular executable contents), ts)
  | _ => none

def readRegular (ts : List Token) : Option (Nar × List Token) :=
  match expect [utf8 "executable", []] ts with
  | some ts => readContents true ts
  | none => readContents false ts

def readSymlink (ts : List Token) : Option (Nar × List Token) :=
  match expect [utf8 "target"] ts with
  | some (target :: ts) => (expect [utf8 ")"] ts).map fun ts => (.leaf (.symlink target), ts)
  | _ => none

mutual

/-- Read a node, from its type on; `fuel` bounds the recursion. -/
def readNode : ℕ → List Token → Option (Nar × List Token)
  | 0, _ => none
  | _ + 1, [] => none
  | fuel + 1, kind :: ts =>
      if kind = utf8 "regular" then readRegular ts
      else if kind = utf8 "symlink" then readSymlink ts
      else if kind = utf8 "directory" then
        (readEntries fuel none ts).map fun p => (.directory p.1, p.2)
      else none

/-- Read entries up to the end of the directory; `last` is the name of the one
before. -/
def readEntries : ℕ → Option (List UInt8) → List Token →
    Option (List (List UInt8 × Nar) × List Token)
  | 0, _, _ => none
  | fuel + 1, last, ts =>
      match expect [utf8 ")"] ts with
      | some ts => some ([], ts)
      | none =>
          match expect [utf8 "entry", utf8 "(", utf8 "name"] ts with
          | some (name :: ts) =>
              if ∀ before ∈ last, before < name then
                (expect [utf8 "node", utf8 "(", utf8 "type"] ts).bind fun ts =>
                  (readNode fuel ts).bind fun p =>
                    (expect [utf8 ")"] p.2).bind fun ts =>
                      (readEntries fuel (some name) ts).map fun q => ((name, p.1) :: q.1, q.2)
              else none
          | _ => none

end

/-- Read a NAR; nothing may follow it. -/
def parse (ts : List Token) : Option Nar :=
  match (expect header ts).bind fun ts => readNode ts.length ts with
  | some (nar, []) => some nar
  | _ => none

/-! ## The round trip -/

theorem utf8_ne {s t : String} (different : s ≠ t) : utf8 s ≠ utf8 t := by
  intro same
  have decoded := congrArg fromUtf8 same
  rw [fromUtf8_utf8, fromUtf8_utf8] at decoded
  exact different (Option.some.inj decoded)

@[simp] theorem expect_append (words ts : List Token) : expect words (words ++ ts) = some ts := by
  rw [expect, if_pos (List.prefix_append words ts), List.drop_left]

/-- Another word comes first. -/
theorem expect_cons_ne {word other : Token} (different : word ≠ other) (words ts : List Token) :
    expect (word :: words) (other :: ts) = none := by
  rw [expect, if_neg fun isPrefix => different (List.cons_prefix_cons.mp isPrefix).1]

theorem readContents_tokens (executable : Bool) (contents : List UInt8) (ts : List Token) :
    readContents executable (utf8 "contents" :: contents :: utf8 ")" :: ts) =
      some (.leaf (.regular executable contents), ts) := by
  have first : expect [utf8 "contents"] (utf8 "contents" :: contents :: utf8 ")" :: ts) =
      some (contents :: utf8 ")" :: ts) := expect_append [utf8 "contents"] _
  have last : expect [utf8 ")"] (utf8 ")" :: ts) = some ts := expect_append [utf8 ")"] ts
  rw [readContents, first]
  dsimp only
  rw [last, Option.map_some]

theorem readRegular_tokens (executable : Bool) (contents : List UInt8) (ts : List Token) :
    readRegular ((if executable then [utf8 "executable", []] else []) ++
        utf8 "contents" :: contents :: utf8 ")" :: ts) =
      some (.leaf (.regular executable contents), ts) := by
  have different : utf8 "executable" ≠ utf8 "contents" := utf8_ne (by decide)
  unfold readRegular
  cases executable with
  | true =>
      rw [if_pos rfl, expect_append]
      exact readContents_tokens true contents ts
  | false =>
      rw [if_neg Bool.false_ne_true, List.nil_append, expect_cons_ne different]
      exact readContents_tokens false contents ts

theorem readSymlink_tokens (target : List UInt8) (ts : List Token) :
    readSymlink (utf8 "target" :: target :: utf8 ")" :: ts) =
      some (.leaf (.symlink target), ts) := by
  have first : expect [utf8 "target"] (utf8 "target" :: target :: utf8 ")" :: ts) =
      some (target :: utf8 ")" :: ts) := expect_append [utf8 "target"] _
  have last : expect [utf8 ")"] (utf8 ")" :: ts) = some ts := expect_append [utf8 ")"] ts
  rw [readSymlink, first]
  dsimp only
  rw [last, Option.map_some]

/-- A leaf is read back. -/
theorem readNode_leaf (fuel : ℕ) (value : NarLeaf) (ts : List Token) :
    readNode (fuel + 1) (leafTokens value ++ ts) = some (.leaf value, ts) := by
  cases value with
  | regular executable contents =>
      rw [leafTokens, List.cons_append, List.append_assoc, readNode, if_pos rfl]
      exact readRegular_tokens executable contents ts
  | symlink target =>
      have different : utf8 "symlink" ≠ utf8 "regular" := utf8_ne (by decide)
      rw [leafTokens, List.cons_append, readNode, if_neg different, if_pos rfl]
      exact readSymlink_tokens target ts

/-- The end of a directory. -/
theorem readEntries_nil (fuel : ℕ) (last : Option (List UInt8)) (ts : List Token) :
    readEntries (fuel + 1) last (utf8 ")" :: ts) = some ([], ts) := by
  have close : expect [utf8 ")"] (utf8 ")" :: ts) = some ts := expect_append [utf8 ")"] ts
  rw [readEntries, close]

/-- One entry, when its node is read back. -/
theorem readEntries_cons {fuel : ℕ} {last : Option (List UInt8)} {name : List UInt8}
    (increasing : ∀ before ∈ last, before < name) {node : Nar} {ts rest : List Token}
    (hnode : readNode fuel (nodeTokens node ++ utf8 ")" :: ts) = some (node, utf8 ")" :: ts))
    {entries : List (List UInt8 × Nar)}
    (hentries : readEntries fuel (some name) ts = some (entries, rest)) :
    readEntries (fuel + 1) last (openEntry name ++ (nodeTokens node ++ utf8 ")" :: ts)) =
      some ((name, node) :: entries, rest) := by
  have different : utf8 ")" ≠ utf8 "entry" := utf8_ne (by decide)
  have first : expect [utf8 "entry", utf8 "(", utf8 "name"]
      (openEntry name ++ (nodeTokens node ++ utf8 ")" :: ts)) =
        some (name :: utf8 "node" :: utf8 "(" :: utf8 "type" ::
          (nodeTokens node ++ utf8 ")" :: ts)) := expect_append _ _
  have second : expect [utf8 "node", utf8 "(", utf8 "type"]
      (utf8 "node" :: utf8 "(" :: utf8 "type" :: (nodeTokens node ++ utf8 ")" :: ts)) =
        some (nodeTokens node ++ utf8 ")" :: ts) := expect_append _ _
  have close : expect [utf8 ")"] (utf8 ")" :: ts) = some ts := expect_append [utf8 ")"] ts
  have continues : expect [utf8 ")"] (openEntry name ++ (nodeTokens node ++ utf8 ")" :: ts)) =
      none := expect_cons_ne different _ _
  rw [readEntries, continues, first]
  dsimp only
  rw [if_pos increasing, second, Option.bind_some, hnode, Option.bind_some]
  dsimp only
  rw [close, Option.bind_some, hentries, Option.map_some]

/-- The entries are read back if their nodes are. -/
theorem readEntries_tokens {entries : List (List UInt8 × Nar)}
    (hnodes : ∀ entry ∈ entries, ∀ fuel ts, (nodeTokens entry.2).length ≤ fuel →
      readNode fuel (nodeTokens entry.2 ++ ts) = some (entry.2, ts))
    (increasing : (entries.map Prod.fst).Pairwise (· < ·)) {last : Option (List UInt8)}
    (later : ∀ before ∈ last, ∀ entry ∈ entries, before < entry.1) {fuel : ℕ}
    (enough : (entriesTokens entries).length < fuel) (ts : List Token) :
    readEntries fuel last (entriesTokens entries ++ utf8 ")" :: ts) = some (entries, ts) := by
  induction entries generalizing last fuel with
  | nil =>
      obtain ⟨fuel, rfl⟩ := Nat.exists_eq_succ_of_ne_zero (Nat.ne_of_gt enough)
      exact readEntries_nil fuel last ts
  | cons entry rest ih =>
      obtain ⟨fuel, rfl⟩ := Nat.exists_eq_succ_of_ne_zero
        (Nat.ne_of_gt (Nat.lt_of_le_of_lt (Nat.zero_le _) enough))
      obtain ⟨name, node⟩ := entry
      obtain ⟨hnode, hrest⟩ := List.forall_mem_cons.mp hnodes
      obtain ⟨before, others⟩ := List.pairwise_cons.mp increasing
      have size : (nodeTokens node).length + (entriesTokens rest).length + 8 ≤ fuel := by
        simp only [entriesTokens, List.length_append, List.length_cons, openEntry,
          List.length_nil] at enough
        omega
      have later' : ∀ first ∈ some name, ∀ entry ∈ rest, first < entry.1 := by
        rintro _ ⟨⟩ entry member
        exact before _ (List.mem_map_of_mem member)
      have enough' : (entriesTokens rest).length < fuel := by omega
      rw [entriesTokens, List.append_assoc, List.append_assoc, List.cons_append]
      exact readEntries_cons (fun first member => later first member _ List.mem_cons_self)
        (hnode fuel _ (show (nodeTokens node).length ≤ fuel by omega))
        (ih hrest others later' enough')

/-- **Reading a node that has been written gives it back.** -/
theorem readNode_tokens {nar : Nar} (ordered : nar.Ordered) :
    ∀ fuel ts, (nodeTokens nar).length ≤ fuel →
      readNode fuel (nodeTokens nar ++ ts) = some (nar, ts) := by
  induction nar using DirTree.induction with
  | leaf value =>
      intro fuel ts enough
      have positive : 0 < (leafTokens value).length := by
        cases value <;> simp [leafTokens]
      obtain ⟨fuel, rfl⟩ := Nat.exists_eq_succ_of_ne_zero
        (Nat.ne_of_gt (Nat.lt_of_lt_of_le positive enough))
      exact readNode_leaf fuel value ts
  | directory entries ih =>
      intro fuel ts enough
      cases ordered with
      | directory increasing children =>
          have first : utf8 "directory" ≠ utf8 "regular" := utf8_ne (by decide)
          have second : utf8 "directory" ≠ utf8 "symlink" := utf8_ne (by decide)
          rw [nodeTokens, List.length_cons, List.length_append, List.length_singleton] at enough
          obtain ⟨fuel, rfl⟩ := Nat.exists_eq_succ_of_ne_zero (n := fuel) (by omega)
          have none_before : ∀ before ∈ (none : Option (List UInt8)), ∀ entry ∈ entries,
              before < entry.1 := by
            intro before member
            cases member
          have enough' : (entriesTokens entries).length < fuel := by omega
          have hentries := readEntries_tokens
            (fun entry member => ih entry member (children entry member)) increasing none_before
            enough' ts
          rw [nodeTokens, List.cons_append, readNode, if_neg first, if_neg second, if_pos rfl,
            List.append_assoc, List.singleton_append, hentries, Option.map_some]

/-- **Reading a NAR that has been written gives it back.** -/
theorem parse_tokens {nar : Nar} (ordered : nar.Ordered) : parse nar.tokens = some nar := by
  have node := readNode_tokens ordered (nodeTokens nar).length [] (Nat.le_refl _)
  rw [List.append_nil] at node
  rw [parse, tokens, expect_append, Option.bind_some, node]

end Nar

end CacheAction
