import CacheAction.Foundations.Shell
import CacheAction.Foundations.Visit
import CacheAction.Protocol.RoundTrip

/-!
# From a build to a push

Nix runs the post-build hook after every build, with the store paths that have been built
in `OUT_PATHS`, separated by spaces.  The hook is a shell script that the action has
written (`MainJs.hookScript`).  It executes `push`, which gets the paths that have been
built, unless a path begins with a hyphen or a store directory has a space in it
(`hook_pushes_iff`).

### The parser of the command line

`push` derives its parser from the declaration of `PushArgs`, so there is no code to translate.
The parser is a parameter here, and `PushArgs.ParsedBy` says what is documented of a derived
one: an argument that begins with a hyphen is an option, every other one is a value, values go
to the positional argument in order, each through `FromStr`, and a required argument that is
missing is an error.  Nothing is said about the arguments after `--`, where a hyphen means
nothing, but that the paths are among them.
-/

namespace CacheAction

/-! ## The arguments of `push` -/

/-- An argument that is neither empty nor begins with a hyphen. -/
def IsValue (arg : String) : Prop :=
  arg.toList.head? ≠ none ∧ arg.toList.head? ≠ some '-'

instance (arg : String) : Decidable (IsValue arg) :=
  inferInstanceAs (Decidable (_ ∧ _))

/-- `PushArgs`. -/
structure PushArgs (B : Type) where
  socket : String
  storePaths : List (StorePath B)

/-- The command line of `push`, the binary first. -/
def pushCommand (binary socket : String) (args : List String) : List String :=
  binary :: "push" :: "--socket" :: socket :: args

variable {B E : Type} {codec : BasenameCodec B E}

/-- A store path prints with a slash. -/
theorem slash_mem_display (path : StorePath B) : '/' ∈ (path.display codec).toList := by
  simp [StorePath.display]

/-- What a derived parser makes of the arguments after the socket. -/
structure PushArgs.ParsedBy (codec : BasenameCodec B E)
    (parse : List String → Option (PushArgs B)) : Prop where
  /-- Values are the store paths, in order, if `FromStr` takes every one of them. -/
  values : ∀ binary socket args, IsValue socket → (∀ arg ∈ args, IsValue arg) → args ≠ [] →
    parse (pushCommand binary socket args) =
      (args.mapM (StorePath.fromStr codec)).toOption.map fun storePaths => { socket, storePaths }
  /-- `#[arg(required = true)]`. -/
  required : ∀ binary socket, IsValue socket → parse (pushCommand binary socket []) = none
  /-- There is no option but `--socket`, and it is there already. -/
  options : ∀ binary socket args arg, IsValue socket → arg ∈ args →
    arg.toList.head? = some '-' → "-" ∉ args → "--" ∉ args →
    parse (pushCommand binary socket args) = none
  /-- A store path is one of the arguments. -/
  positional : ∀ binary socket args pushed, IsValue socket →
    parse (pushCommand binary socket args) = some pushed →
    ∀ path ∈ pushed.storePaths, ∃ arg ∈ args, StorePath.fromStr codec arg = .ok path

/-- Such a parser that takes its arguments in this one order. -/
def PushArgs.parseInOrder (codec : BasenameCodec B E) : List String → Option (PushArgs B)
  | _ :: "push" :: "--socket" :: socket :: args =>
      if (∀ arg ∈ socket :: args, IsValue arg) ∧ args ≠ [] then
        (args.mapM (StorePath.fromStr codec)).toOption.map fun storePaths => { socket, storePaths }
      else none
  | _ => none

theorem PushArgs.parseInOrder_pushCommand (binary socket : String) (args : List String) :
    PushArgs.parseInOrder codec (pushCommand binary socket args) =
      if (∀ arg ∈ socket :: args, IsValue arg) ∧ args ≠ [] then
        (args.mapM (StorePath.fromStr codec)).toOption.map fun storePaths => { socket, storePaths }
      else none := rfl

theorem PushArgs.parsedBy_parseInOrder : PushArgs.ParsedBy codec (parseInOrder codec) where
  values binary socket args socketValue values nonempty := by
    rw [parseInOrder_pushCommand,
      if_pos ⟨List.forall_mem_cons.mpr ⟨socketValue, values⟩, nonempty⟩]
  required binary socket _ := by
    rw [parseInOrder_pushCommand, if_neg fun both => both.2 rfl]
  options binary socket args arg _ member hyphen _ _ := by
    rw [parseInOrder_pushCommand,
      if_neg fun both => (both.1 arg (List.mem_cons_of_mem _ member)).2 hyphen]
  positional binary socket args pushed _ parsed path member := by
    rw [parseInOrder_pushCommand] at parsed
    split_ifs at parsed
    cases found : args.mapM (StorePath.fromStr codec) with
    | error error => simp [found, Except.toOption] at parsed
    | ok storePaths =>
        simp only [found, Except.toOption, Option.map_some, Option.some.injEq] at parsed
        subst parsed
        exact exists_of_mapM_eq_ok found path member

namespace MainJs

/-- `writeHookScript`: the text of the script. -/
def hookScript (binaryPath socketPath : String) : String :=
  "\n".intercalate
    ["#!/bin/sh",
      "set -eu",
      "set -f",
      "export IFS=' '",
      "exec \"" ++ binaryPath ++ "\" push --socket \"" ++ socketPath ++ "\" $OUT_PATHS",
      ""]

section Script

open Shell

variable (glob : List Char → List (List Char)) {binaryPath socketPath : String}

/-- The last command of the script. -/
def pushLine (binaryPath socketPath : String) : List Char :=
  "exec \"".toList ++ (binaryPath.toList ++ ("\" push --socket \"".toList ++
    (socketPath.toList ++ "\" $OUT_PATHS".toList)))

theorem words_pushLine (plainBinary : Plain binaryPath.toList)
    (plainSocket : Plain socketPath.toList) :
    words (pushLine binaryPath socketPath) =
      some ["exec".toList.map (.char · false), binaryPath.toList.map (.char · true),
        "push".toList.map (.char · false), "--socket".toList.map (.char · false),
        socketPath.toList.map (.char · true), [.param "OUT_PATHS".toList false]] := by
  have command : "exec \"".toList.foldlM Lexer.step { words := [], word := none, mode := .bare } =
      some { words := ["exec".toList.map (.char · false)], word := some [], mode := .double } :=
    rfl
  have between (words : List (List Part)) (word : List Part) :
      "\" push --socket \"".toList.foldlM Lexer.step { words, word := some word, mode := .double } =
        some { words := words ++ [word] ++ ["push".toList.map (.char · false)] ++
                 ["--socket".toList.map (.char · false)],
               word := some [], mode := .double } := rfl
  have last (words : List (List Part)) (word : List Part) :
      "\" $OUT_PATHS".toList.foldlM Lexer.step { words, word := some word, mode := .double } =
        some { words := words ++ [word], word := none,
               mode := .name false "OUT_PATHS".toList } := rfl
  unfold words pushLine
  rw [List.foldlM_append, command, Option.bind_eq_bind, Option.bind_some, List.foldlM_append,
    foldlM_double plainBinary, Option.bind_eq_bind, Option.bind_some, List.foldlM_append, between,
    Option.bind_eq_bind, Option.bind_some, List.foldlM_append, foldlM_double plainSocket,
    Option.bind_eq_bind, Option.bind_some, last]
  rfl

/-- The lines of the script. -/
def hookLines (binaryPath socketPath : String) : List (List Char) :=
  ["#!/bin/sh".toList, "set -eu".toList, "set -f".toList, "export IFS=' '".toList,
    pushLine binaryPath socketPath, []]

theorem splitOn_hookScript (plainBinary : Plain binaryPath.toList)
    (plainSocket : Plain socketPath.toList) :
    (hookScript binaryPath socketPath).toList.splitOn '\n' = hookLines binaryPath socketPath := by
  have joined : (hookScript binaryPath socketPath).toList =
      ['\n'].intercalate (hookLines binaryPath socketPath) := by
    unfold hookLines pushLine
    rw [hookScript, String.toList_intercalate]
    simp only [List.map_cons, List.map_nil, String.toList_append, List.append_assoc]
    rfl
  have plain (text : List Char) (isPlain : Plain text) : '\n' ∉ text :=
    fun member => isPlain _ member (by decide)
  rw [joined]
  refine List.splitOn_intercalate _ (fun line member => ?_) (List.cons_ne_nil _ _)
  have binary := plain _ plainBinary
  have socket := plain _ plainSocket
  simp only [hookLines, List.mem_cons, List.not_mem_nil, or_false] at member
  rcases member with rfl | rfl | rfl | rfl | rfl | rfl
  on_goal 5 =>
    unfold pushLine
    simp only [List.mem_append, binary, socket, false_or]
  all_goals decide

/-- The shell before the last command. -/
def hookState (environment : List Char → Option (List Char)) : State where
  env := Function.update (State.start environment).env "IFS".toList (some [' '])
  nounset := true
  noglob := true

theorem run_hookLines (environment : List Char → Option (List Char)) :
    (State.start environment).run glob (hookLines binaryPath socketPath) =
      (hookState environment).run glob [pushLine binaryPath socketPath, []] := by
  let strict : State := { State.start environment with nounset := true }
  let literal : State := { strict with noglob := true }
  have shebang : ((State.start environment).fields glob "#!/bin/sh".toList).bind
      (State.start environment).command = some (.inl (State.start environment)) := rfl
  have setEu : ((State.start environment).fields glob "set -eu".toList).bind
      (State.start environment).command = some (.inl strict) := rfl
  have setF : (strict.fields glob "set -f".toList).bind strict.command = some (.inl literal) := rfl
  have exportIfs : (literal.fields glob "export IFS=' '".toList).bind literal.command =
      some (.inl (hookState environment)) := rfl
  rw [hookLines, run_cons shebang, run_cons setEu, run_cons setF, run_cons exportIfs]

/-- **What the hook executes**: `push`, with the paths between the spaces of `OUT_PATHS`. -/
theorem exec_hookScript (plainBinary : Plain binaryPath.toList)
    (plainSocket : Plain socketPath.toList) {environment : List Char → Option (List Char)}
    {outPaths : List Char} (built : environment "OUT_PATHS".toList = some outPaths) :
    exec glob environment (hookScript binaryPath socketPath) =
      some (binaryPath :: "push" :: "--socket" :: socketPath ::
        (CacheAction.fields ' ' outPaths).map String.ofList) := by
  have ifs : (hookState environment).env "IFS".toList = some [' '] := by
    simp [hookState]
  have found : (hookState environment).env "OUT_PATHS".toList = some outPaths := by
    have other : "OUT_PATHS".toList ≠ "IFS".toList := by decide
    simp only [hookState, State.start, Function.update_of_ne other, built]
  have literal : (hookState environment).noglob = true := rfl
  have line : (hookState environment).fields glob (pushLine binaryPath socketPath) =
      some ("exec".toList :: binaryPath.toList :: "push".toList :: "--socket".toList ::
        socketPath.toList :: CacheAction.fields ' ' outPaths) := by
    rw [fields_eq (words_pushLine plainBinary plainSocket)
      (.cons (expand_text (.inr literal) glob _) <| .cons (expand_text (.inl rfl) glob _) <|
        .cons (expand_text (.inr literal) glob _) <| .cons (expand_text (.inr literal) glob _) <|
        .cons (expand_text (.inl rfl) glob _) <|
        .cons (expand_param glob literal ifs found) .nil)]
    simp only [List.flatten_cons, List.flatten_nil, List.append_nil, List.cons_append,
      List.nil_append]
  rw [exec, splitOn_hookScript plainBinary plainSocket, run_hookLines, run_exec line]
  simp only [Option.map_some, List.map_cons, String.ofList_toList]

/-- `OUT_PATHS`. -/
def outPaths (codec : BasenameCodec B E) (paths : List (StorePath B)) : List Char :=
  [' '].intercalate (paths.map fun path => (path.display codec).toList)

/-- Paths without spaces are told apart by the spaces between them. -/
theorem fields_outPaths {paths : List (StorePath B)}
    (noSpace : ∀ path ∈ paths, ' ' ∉ (path.display codec).toList) :
    (CacheAction.fields ' ' (outPaths codec paths)).map String.ofList =
      paths.map (StorePath.display codec) := by
  rw [outPaths, fields_intercalate]
  induction paths with
  | nil => rfl
  | cons path rest ih =>
      obtain ⟨absent, later⟩ := List.forall_mem_cons.mp noSpace
      have nonempty : (path.display codec).toList ≠ [] :=
        List.ne_nil_of_mem (slash_mem_display path)
      rw [List.map_cons, List.flatMap_cons, fields_eq_singleton nonempty absent,
        List.map_append, ih later, List.map_cons, List.map_nil, List.map_cons,
        String.ofList_toList]
      rfl

/-- An argument without a space in it has none in the directory that it is parsed to. -/
theorem space_notMem_storeDir {arg : String} {path : StorePath B}
    (parsed : StorePath.fromStr codec arg = .ok path) (noSpace : ' ' ∉ arg.toList) :
    ' ' ∉ path.storeDir.display.toList := by
  obtain ⟨dir, base, rfl, hdir, -⟩ := StorePath.fromStr_eq_ok parsed
  rw [StoreDir.display_of_fromStr hdir]
  intro member
  exact noSpace (by simp [member])

/-- No field of `OUT_PATHS` has a space in it. -/
theorem space_notMem_field {outPaths : List Char} :
    ∀ arg ∈ (CacheAction.fields ' ' outPaths).map String.ofList, ' ' ∉ arg.toList := by
  intro arg given
  obtain ⟨field, inFields, rfl⟩ := List.mem_map.mp given
  rw [String.toList_ofList]
  exact notMem_of_mem_splitOn (List.mem_of_mem_filter inFields)

/-- **The hook pushes the paths that have been built**, on the daemon's socket, exactly when
there is one, none begins with a hyphen and no store directory has a space in it.

Each of the three conditions is lost at another place.  The shell splits the unquoted
`$OUT_PATHS` at the spaces and passes on the fields, in which there is none, so a path with
a space cannot be among what is parsed.  Without a path the argument that `push` requires
is missing.  A path with a hyphen in front stands where an option may stand, and since a
path has a slash no other argument can be the `-` or the `--` that would excuse it. -/
theorem hook_pushes_iff (lawful : codec.Lawful) (basenames : ∀ b, ' ' ∉ (codec.display b).toList)
    {parse : List String → Option (PushArgs B)} (derived : PushArgs.ParsedBy codec parse)
    (plainBinary : Plain binaryPath.toList) (plainSocket : Plain socketPath.toList)
    (socketValue : IsValue socketPath) {environment : List Char → Option (List Char)}
    {paths : List (StorePath B)} (built : environment "OUT_PATHS".toList = some (outPaths codec paths))
    (accepted : ∀ path ∈ paths, path.Accepted codec) :
    (exec glob environment (hookScript binaryPath socketPath)).bind parse =
        some { socket := socketPath, storePaths := paths } ↔
      paths ≠ [] ∧ ∀ path ∈ paths, (path.display codec).toList.head? ≠ some '-' ∧
        ' ' ∉ path.storeDir.display.toList := by
  rw [exec_hookScript glob plainBinary plainSocket built, Option.bind_some]
  have noSpace (directories : ∀ path ∈ paths, ' ' ∉ path.storeDir.display.toList) :
      ∀ path ∈ paths, ' ' ∉ (path.display codec).toList := by
    intro path member
    simp [StorePath.display, directories path member, basenames path.basename]
  constructor
  · intro parsed
    -- a store path comes from one of the fields, and these have no space
    have directories : ∀ path ∈ paths, ' ' ∉ path.storeDir.display.toList := by
      intro path member
      obtain ⟨arg, given, fromArg⟩ := derived.positional _ _ _ _ socketValue parsed path member
      exact space_notMem_storeDir fromArg (space_notMem_field arg given)
    rw [fields_outPaths (noSpace directories)] at parsed
    refine ⟨?_, fun path member => ⟨fun hyphen => ?_, directories path member⟩⟩
    · rintro rfl
      exact absurd (parsed.symm.trans (derived.required binaryPath socketPath socketValue))
        (Option.some_ne_none _)
    · -- a path has a slash, so it is an option and ends none
      have slashless (arg : String) (noSlash : '/' ∉ arg.toList) :
          arg ∉ paths.map (StorePath.display codec) := by
        intro given
        obtain ⟨other, -, rfl⟩ := List.mem_map.mp given
        exact noSlash (slash_mem_display other)
      have refused := derived.options binaryPath socketPath _ _ socketValue
        (List.mem_map_of_mem member) hyphen (slashless "-" (by decide)) (slashless "--" (by decide))
      exact absurd (parsed.symm.trans refused) (Option.some_ne_none _)
  · rintro ⟨nonempty, plain⟩
    have values : ∀ arg ∈ paths.map (StorePath.display codec), IsValue arg := by
      intro arg given
      obtain ⟨path, member, rfl⟩ := List.mem_map.mp given
      refine ⟨fun empty => ?_, (plain path member).1⟩
      exact List.ne_nil_of_mem (slash_mem_display path) (List.head?_eq_none_iff.mp empty)
    have each : (paths.map (StorePath.display codec)).mapM (StorePath.fromStr codec) =
        .ok paths := by
      refine mapM_eq_ok.mpr (List.forall₂_map_left_iff.mpr (List.forall₂_same.mpr ?_))
      intro path member
      obtain ⟨s, parsed⟩ := accepted path member
      exact StorePath.fromStr_display lawful parsed
    rw [fields_outPaths (noSpace fun path member => (plain path member).2)]
    refine (derived.values _ _ _ socketValue values (by simpa using nonempty)).trans ?_
    rw [each]
    rfl

/-- The environment of the hook after the build of `helloPath`. -/
def helloEnvironment (name : List Char) : Option (List Char) :=
  if name = "OUT_PATHS".toList then some (outPaths nixBasenameCodec [helloPath]) else none

theorem hook_pushes_hello :
    (exec (fun _ => []) helloEnvironment
        (hookScript "/tmp/cache-action" "/tmp/cache-action.sock")).bind
      (PushArgs.parseInOrder nixBasenameCodec) =
      some { socket := "/tmp/cache-action.sock", storePaths := [helloPath] } := by
  refine (hook_pushes_iff _ nixBasenameCodec_lawful ?_ PushArgs.parsedBy_parseInOrder ?_ ?_
    (by decide) rfl ?_).mpr ⟨List.cons_ne_nil _ _, ?_⟩
  · intro b member
    exact absurd (isBasename_chars b.valid member) (by decide)
  · decide
  · decide
  · simpa using accepted_helloPath
  · decide +kernel

end Script

end MainJs

end CacheAction
