import CacheAction.Foundations.Fields

/-!
# Simple commands of the shell

A fragment of the shell command language: lines of simple commands, without operators.
A line is cut into words (`words`), in which quotes are removed and parameters are
expanded.  The value of an unquoted parameter is split into fields at the characters of
`IFS`, and each field is taken as a pattern for file names, unless that has been switched
off.  The commands are the built-in ones `set`, `export` and `exec`; a script runs until
it executes something else (`exec`).

A script outside of the fragment has no meaning here (`none`).

### What is not decided here

What the fragment leaves out is left out for good: an operator, a redirection, a command
substitution or an arithmetic expansion makes the whole script mean nothing, and so does any
command but the three.  A theorem about a script is therefore one about all shells, as long as
they agree on this fragment.  Patterns are the exception.  Their meaning depends on the files
that there are, so it is a parameter (`glob`), and a script that does not want to depend on it
has to switch it off.

Every character of a word knows whether it was quoted, since a quoted blank separates nothing
and a quoted parameter is not split.  That is what `words` computes, and what `expand` goes by.
-/

namespace CacheAction

namespace Shell

/-! ## Words -/

/-- A part of a word. -/
inductive Part where
  | char (c : Char) (quoted : Bool)
  | param (name : List Char) (quoted : Bool)
  deriving DecidableEq

/-- Where the lexer is. -/
inductive Mode where
  | bare
  | single
  | double
  /-- In the name of a parameter. -/
  | name (quoted : Bool) (name : List Char)
  | comment
  deriving DecidableEq

/-- The words of a line so far; `word` is the one that has been begun. -/
structure Lexer where
  words : List (List Part)
  word : Option (List Part)
  mode : Mode
  deriving DecidableEq

/-- The characters that have a meaning between words and are not in the fragment. -/
def isOperator (c : Char) : Bool :=
  c ∈ "|&;<>()~\\`".toList

/-- The characters of a name. -/
def isName (c : Char) : Bool :=
  c.isAlphanum || c == '_'

namespace Lexer

/-- One more part. -/
def add (lexer : Lexer) (part : Part) : Lexer :=
  { lexer with word := some (lexer.word.getD [] ++ [part]) }

/-- Outside of quotes. -/
def bare (lexer : Lexer) (c : Char) : Option Lexer :=
  if c = ' ' ∨ c = '\t' then
    some { words := lexer.words ++ lexer.word.toList, word := none, mode := .bare }
  else if c = '\'' then some { lexer with word := some (lexer.word.getD []), mode := .single }
  else if c = '"' then some { lexer with word := some (lexer.word.getD []), mode := .double }
  else if c = '$' then some { lexer with mode := .name false [] }
  else if c = '#' ∧ lexer.word = none then some { lexer with mode := .comment }
  else if isOperator c then none
  else some ({ lexer with mode := .bare }.add (.char c false))

/-- Between double quotes. -/
def double (lexer : Lexer) (c : Char) : Option Lexer :=
  if c = '"' then some { lexer with mode := .bare }
  else if c = '$' then some { lexer with mode := .name true [] }
  else if c ∈ "\\`".toList then none
  else some ({ lexer with mode := .double }.add (.char c true))

/-- The next character. -/
def step (lexer : Lexer) (c : Char) : Option Lexer :=
  match lexer.mode with
  | .bare => lexer.bare c
  | .single =>
      if c = '\'' then some { lexer with mode := .bare } else some (lexer.add (.char c true))
  | .double => lexer.double c
  | .name quoted name =>
      if isName c then some { lexer with mode := .name quoted (name ++ [c]) }
      else if name = [] then none
      else if quoted then (lexer.add (.param name true)).double c
      else (lexer.add (.param name false)).bare c
  | .comment => some lexer

/-- The end of the line. -/
def finish (lexer : Lexer) : Option (List (List Part)) :=
  match lexer.mode with
  | .bare => some (lexer.words ++ lexer.word.toList)
  | .name false name =>
      if name = [] then none
      else some (lexer.words ++ (lexer.add (.param name false)).word.toList)
  | .comment => some lexer.words
  | _ => none

end Lexer

/-- The words of a line. -/
def words (line : List Char) : Option (List (List Part)) :=
  (line.foldlM Lexer.step { words := [], word := none, mode := .bare }).bind Lexer.finish

/-! ## Expansion -/

/-- What the commands of the fragment change. -/
structure State where
  env : List Char → Option (List Char)
  nounset : Bool
  noglob : Bool

/-- A shell is started with the variables of its environment, but for `IFS`. -/
def State.start (environment : List Char → Option (List Char)) : State where
  env := Function.update environment "IFS".toList (some [' ', '\t', '\n'])
  nounset := false
  noglob := false

namespace State

variable (state : State) (glob : List Char → List (List Char))

/-- The value of a parameter; with `set -u` one that is not set is an error. -/
def value (name : List Char) : Option (List Char) :=
  match state.env name with
  | some value => some value
  | none => if state.nounset then none else some []

/-- Field splitting, where `IFS` has nothing but blanks. -/
def split (value : List Char) : Option (List (List Char)) :=
  match state.env "IFS".toList with
  | none => none
  | some ifs =>
      if ifs.all (· ∈ [' ', '\t', '\n']) then
        some ((value.splitOnP (· ∈ ifs)).filter fun field => !field.isEmpty)
      else none

/-- A part of a word that is not split. -/
def text : Part → Option (List Char)
  | .char c quoted => if !quoted && !state.noglob && c ∈ ['*', '?', '['] then none else some [c]
  | .param name true => state.value name
  | .param _ false => none

/-- The fields of a word. -/
def expand : List Part → Option (List (List Char))
  | [.param name false] => do
      let fields ← state.split (← state.value name)
      return if state.noglob then fields else fields.flatMap glob
  | parts => do
      let texts ← parts.mapM state.text
      return [texts.flatten]

/-- The fields of a line. -/
def fields (line : List Char) : Option (List (List Char)) := do
  let parts ← words line
  let expanded ← parts.mapM (state.expand glob)
  return expanded.flatten

/-! ## Commands -/

/-- `set -…`; that a failing command ends the script makes no difference here. -/
def set : State → List Char → Option State
  | state, [] => some state
  | state, 'e' :: options => set state options
  | state, 'u' :: options => set { state with nounset := true } options
  | state, 'f' :: options => set { state with noglob := true } options
  | _, _ :: _ => none

/-- `export name=value`. -/
def exported (assignment : List Char) : Option State :=
  match assignment.splitOn '=' with
  | name :: value :: rest =>
      some { state with
        env := Function.update state.env name (some (['='].intercalate (value :: rest))) }
  | _ => none

/-- A command: what it changes, or what is executed instead of the script. -/
def command : List (List Char) → Option (State ⊕ List (List Char))
  | [] => some (.inl state)
  | name :: args =>
      if name = "set".toList then
        match args with
        | [('-' :: options)] => (state.set options).map .inl
        | _ => none
      else if name = "export".toList then
        match args with
        | [assignment] => (state.exported assignment).map .inl
        | _ => none
      else if name = "exec".toList ∧ args ≠ [] then some (.inr args)
      else none

/-- The lines of a script: the arguments of what it executes in the end. -/
def run : State → List (List Char) → Option (List (List Char))
  | _, [] => none
  | state, line :: rest =>
      match (state.fields glob line).bind state.command with
      | none => none
      | some (.inl state) => run state rest
      | some (.inr args) => some args

end State

/-- A script, in an environment. -/
def exec (glob : List Char → List (List Char)) (environment : List Char → Option (List Char))
    (script : String) : Option (List String) :=
  ((State.start environment).run glob (script.toList.splitOn '\n')).map (·.map String.ofList)

/-! ## Quoted text -/

/-- Text that stands for itself between double quotes. -/
def Plain (text : List Char) : Prop :=
  ∀ c ∈ text, c ∉ "\"$\\`\n".toList

instance (text : List Char) : Decidable (Plain text) :=
  List.decidableBAll _ text

/-- Plain text between double quotes is read as it is. -/
theorem foldlM_double {text : List Char} (plain : Plain text) (words : List (List Part))
    (word : List Part) :
    text.foldlM Lexer.step { words, word := some word, mode := .double } =
      some { words, word := some (word ++ text.map (.char · true)), mode := .double } := by
  induction text generalizing word with
  | nil => simp
  | cons c rest ih =>
      obtain ⟨here, later⟩ := List.forall_mem_cons.mp plain
      have next : Lexer.step { words, word := some word, mode := .double } c =
          some { words, word := some (word ++ [.char c true]), mode := .double } := by
        simp only [show "\"$\\`\n".toList = ['"', '$', '\\', Char.ofNat 96, '\n'] from rfl,
          List.mem_cons, List.not_mem_nil, or_false, not_or] at here
        simp [Lexer.step, Lexer.double, Lexer.add, here]
      rw [List.foldlM_cons, next]
      show rest.foldlM Lexer.step _ = _
      rw [ih later, List.map_cons, List.append_assoc]
      rfl

section Expansion

variable {state : State} {quoted : Bool}

/-- What is done with each, done with all. -/
theorem mapM_of_forall₂ {α β : Type} {f : α → Option β} {as : List α} {bs : List β}
    (each : List.Forall₂ (fun a b => f a = some b) as bs) : as.mapM f = some bs := by
  induction each with
  | nil => rfl
  | cons here _ ih =>
      rw [List.mapM_cons, here, ih]
      rfl

/-- Text without patterns in it stands for itself. -/
theorem mapM_text (literal : quoted = true ∨ state.noglob = true) (text : List Char) :
    (text.map (.char · quoted)).mapM state.text = some (text.map fun c => [c]) := by
  have one (c : Char) : state.text (.char c quoted) = some [c] := by
    rcases literal with rfl | noglob
    · rfl
    · simp [State.text, noglob]
  refine mapM_of_forall₂ (List.forall₂_map_left_iff.mpr (List.forall₂_map_right_iff.mpr ?_))
  exact List.forall₂_same.mpr fun c _ => one c

/-- It is one field. -/
theorem expand_text (literal : quoted = true ∨ state.noglob = true)
    (glob : List Char → List (List Char)) (text : List Char) :
    state.expand glob (text.map (.char · quoted)) = some [text] := by
  have whole : (text.map fun c => [c]).flatten = text := by
    rw [← List.flatMap_def]
    exact List.flatMap_singleton' text
  unfold State.expand
  split
  · rename_i name same
    have parameter := congrArg (fun parts => parts.any fun
      | .param _ _ => true
      | _ => false) same
    simp at parameter
  · rw [mapM_text literal]
    show some [_] = _
    rw [whole]

/-- With `IFS=' '` and `set -f`, a parameter has the fields between its spaces. -/
theorem expand_param {name value : List Char} (glob : List Char → List (List Char))
    (noglob : state.noglob = true) (ifs : state.env "IFS".toList = some [' '])
    (found : state.env name = some value) :
    state.expand glob [.param name false] = some (CacheAction.fields ' ' value) := by
  have separators : (fun c => decide (c ∈ [' '])) = (· == ' ') := by
    funext c
    simp only [List.mem_singleton]
    rfl
  have cut : state.split value = some (CacheAction.fields ' ' value) := by
    rw [State.split, ifs]
    show some ((value.splitOnP fun c => decide (c ∈ [' '])).filter _) = _
    rw [separators]
    rfl
  have read : state.value name = some value := by rw [State.value, found]
  rw [State.expand, read, Option.bind_eq_bind, Option.bind_some, cut, Option.bind_eq_bind,
    Option.bind_some, if_pos noglob]
  rfl

/-- The words of a line are expanded one by one. -/
theorem fields_eq {glob : List Char → List (List Char)} {line : List Char}
    {parts : List (List Part)} {expanded : List (List (List Char))} (cut : words line = some parts)
    (each : List.Forall₂ (fun word fields => state.expand glob word = some fields) parts expanded) :
    state.fields glob line = some expanded.flatten := by
  rw [State.fields, cut, Option.bind_eq_bind, Option.bind_some, mapM_of_forall₂ each]
  rfl

end Expansion

section Run

variable {glob : List Char → List (List Char)} {state : State} {line : List Char}

/-- A command that changes the shell. -/
theorem run_cons {next : State} {rest : List (List Char)}
    (changes : (state.fields glob line).bind state.command = some (.inl next)) :
    state.run glob (line :: rest) = next.run glob rest := by
  rw [State.run, changes]

/-- A command that is executed instead of the script. -/
theorem run_exec {path : List Char} {args : List (List Char)} {rest : List (List Char)}
    (split : state.fields glob line = some ("exec".toList :: path :: args)) :
    state.run glob (line :: rest) = some (path :: args) := by
  have replaced : state.command ("exec".toList :: path :: args) = some (.inr (path :: args)) := by
    have notSet : "exec".toList ≠ "set".toList := by decide
    have notExport : "exec".toList ≠ "export".toList := by decide
    unfold State.command
    dsimp only
    rw [if_neg notSet, if_neg notExport, if_pos ⟨rfl, List.cons_ne_nil path args⟩]
  rw [State.run, split, Option.bind_some, replaced]

end Run

end Shell

end CacheAction
