import CacheAction.Foundations.Environment
import CacheAction.StorePath.PublishedNar

/-!
# Handling a path of a store

`handle_store_path` gets the NAR and the infos of its path from `context::Nix`.  `Nix` is
a store that does not change: whether `write_nar` returns `Ok`, what it has written by
then and what `get_path_infos` answers depend on the path only.  `FromStore` says of the
inputs that they are those of such a store.

The bytes that the pipe has accepted are then always the first bytes of the NAR, in
whatever pieces, and a NARInfo that is published is the one which the store determines
(`stored_of_run`).

`FromStore` is a condition on single inputs, and it looks at the trace: what `write_nar` may
offer next depends on what the pipe has accepted so far.  It leaves the sizes of the pieces
and the moments open, and for a path without a NAR it leaves open what is written before
`write_nar` fails, since nothing of it will be published.  That the store does not change
while a path is handled is what Nix promises of valid paths; it is not checked by the daemon.
-/

namespace CacheAction

namespace HandleStorePath

open Sub60

/-- The answers of `context::Nix`.  They are functions of the path: two tasks, or a task and the
loop, that ask for the same path get the same answer, whenever they ask. -/
structure Nix (P C E : Type) where
  storeClosure : P → Except C (List P)
  /-- What `write_nar` writes, if it returns `Ok`. -/
  nar : P → Option (List UInt8)
  pathInfos : P → Except E (PathInfos E)

variable {P C σ δ E : Type} (nix : Nix P C E) (fmt : HandleFormats P σ δ E) (path : P)

/-- The input is one that the store gives: `write_nar` goes on with the next bytes of the
NAR and returns `Ok` after the last one, and the infos are those of the path. -/
def FromStore (_ : Handle P σ δ E) (trace : List (HandleObs P δ)) : HandleInput E → Prop
  | .write buf _ => ∀ bytes ∈ nix.nar path, (handleLog trace).accepted ++ buf <+: bytes
  | .shutdown (.ok ()) => nix.nar path = some (handleLog trace).accepted
  | .pathInfos infos => infos = nix.pathInfos path
  | _ => True

/-- The NARInfo that the store determines.  It is the function of the source that puts it together,
applied to the hash and the size of the NAR, so nothing is left open in it. -/
def Describes (narinfo : NarInfo P δ) : Prop :=
  ∃ bytes, nix.nar path = some bytes ∧
    ∃ narSize : NonZero 64, narSize.val = bytes.length ∧
      (nix.pathInfos path).bind (Handle.narInfo path (fmt.sha256.digest bytes) narSize) =
        .ok narinfo

deriving instance DecidableEq for PathInfos

/-- A run can be checked against a store. -/
instance instDecidableFromStore [DecidableEq E] (handle : Handle P σ δ E)
    (trace : List (HandleObs P δ)) (input : HandleInput E) :
    Decidable (FromStore nix path handle trace input) :=
  match input with
  | .write buf _ => inferInstanceAs (Decidable (∀ bytes ∈ nix.nar path,
      (handleLog trace).accepted ++ buf <+: bytes))
  | .shutdown (.ok ()) => inferInstanceAs (Decidable (nix.nar path = some _))
  | .shutdown (.error _) => .isTrue trivial
  | .pathInfos infos => inferInstanceAs (Decidable (infos = _))
  | .start => .isTrue trivial
  | .check _ => .isTrue trivial
  | .initiated _ => .isTrue trivial
  | .writeFails _ => .isTrue trivial
  | .read _ => .isTrue trivial
  | .readFails _ => .isTrue trivial
  | .upload _ => .isTrue trivial
  | .narinfoSent _ => .isTrue trivial

section Described

variable {nix fmt path} {narinfo : NarInfo P δ}

/-- The size that is published is the size of the NAR. -/
theorem Describes.size (describes : Describes nix fmt path narinfo) :
    ∃ bytes, nix.nar path = some bytes ∧ narinfo.narSize.val = bytes.length := by
  obtain ⟨bytes, nar, narSize, size, read⟩ := describes
  refine ⟨bytes, nar, ?_⟩
  rw [← size]
  rcases infos : nix.pathInfos path with e | ⟨references, deriver, signatures, contentAddress⟩
  · rw [infos] at read
    cases read
  rw [infos] at read
  rcases references with e | references
  · cases read
  rcases deriver with e | deriver
  · cases read
  rcases signatures with e | signatures
  · cases read
  rcases contentAddress with e | contentAddress
  · cases read
  cases read
  rfl

end Described

/-- What has been done for a path of the store: the pipe has accepted the beginning of the NAR,
all of it once `write_nar` has returned, and what is published is described by it. -/
structure StoredNar (log : HandleLog P δ) : Prop where
  inOrder : ∀ bytes ∈ nix.nar path, log.accepted <+: bytes
  whole : log.writer = [true] → nix.nar path = some log.accepted
  described : ∀ entry ∈ log.publications, Describes nix fmt path entry.1

section Steps

variable {nix fmt cache path} {upstreamCaches : List Url} {trace out : List (HandleObs P δ)}
  {handle handle' : Handle P σ δ E}

/-- Nothing of this depends on the other outputs.  This is the case of most steps: they neither
write nor publish. -/
theorem StoredNar.silent (stored : StoredNar nix fmt path (handleLog trace))
    (accepted : (handleLog out).accepted = []) (writer : (handleLog out).writer = [])
    (publications : (handleLog out).publications = []) :
    StoredNar nix fmt path (handleLog (trace ++ out)) := by
  have log : handleLog (trace ++ out) = handleLog trace ++ handleLog out :=
    handleLog_append trace out
  have accepted' : (handleLog (trace ++ out)).accepted = (handleLog trace).accepted := by
    rw [log]
    exact (congrArg ((handleLog trace).accepted ++ ·) accepted).trans (List.append_nil _)
  have writer' : (handleLog (trace ++ out)).writer = (handleLog trace).writer := by
    rw [log]
    exact (congrArg ((handleLog trace).writer ++ ·) writer).trans (List.append_nil _)
  have publications' :
      (handleLog (trace ++ out)).publications = (handleLog trace).publications := by
    rw [log]
    exact (congrArg ((handleLog trace).publications ++ ·) publications).trans
      (List.append_nil _)
  exact
    { inOrder := by rw [accepted']; exact stored.inOrder
      whole := by rw [accepted', writer']; exact stored.whole
      described := by rw [publications']; exact stored.described }

/-- The uploader reads what has been accepted, and accepts nothing. -/
theorem StoredNar.upload (stored : StoredNar nix fmt path (handleLog trace))
    {halves : Streaming σ E} {input : UploadInput E}
    (h : Handle.uploadStep fmt cache halves input = some (handle', out)) :
    StoredNar nix fmt path (handleLog (trace ++ out)) := by
  obtain ⟨next, -, hnext⟩ := Option.map_eq_some_iff.mp h
  obtain ⟨-, rfl⟩ := Prod.ext_iff.mp hnext
  refine stored.silent ?_ ?_ ?_ <;> rw [handleLog_uploads]

/-- The next bytes of the NAR.  The pipe may take only the first of them, and these are the next
ones as well. -/
theorem StoredNar.write (stored : StoredNar nix fmt path (handleLog trace))
    {initial : NarUploadState} {halves : Streaming σ E}
    (flowing : Flowing fmt initial (handleLog trace) halves) (writing : halves.written = false)
    {buf : List UInt8}
    (next : ∀ bytes ∈ nix.nar path, (handleLog trace).accepted ++ buf <+: bytes) (limit : ℕ) :
    StoredNar nix fmt path
      (handleLog (trace ++ (Handle.write (P := P) fmt halves buf limit).2)) := by
  unfold Handle.write
  split
  · rename_i numBytes writer polled
    have unfinished : (handleLog (trace ++ [.accepted (buf.take numBytes)])).writer = [] := by
      rw [handleLog_append]
      show (handleLog trace).writer ++ [] = []
      rw [flowing.writer, writing]
      rfl
    have accepted : (handleLog (trace ++ [.accepted (buf.take numBytes)])).accepted =
        (handleLog trace).accepted ++ buf.take numBytes := by
      rw [handleLog_append]
      show _ ++ (buf.take numBytes ++ []) = _
      rw [List.append_nil]
    refine { inOrder := ?_, whole := ?_, described := ?_ }
    · rw [accepted]
      intro bytes nar
      exact ((List.prefix_append_right_inj _).mpr (List.take_prefix _ _)).trans (next bytes nar)
    · intro finished
      rw [unfinished] at finished
      cases finished
    · rw [handleLog_append]
      show ∀ entry ∈ (handleLog trace).publications ++ [], Describes nix fmt path entry.1
      rw [List.append_nil]
      exact stored.described
  · exact stored.silent rfl rfl rfl

/-- `write_nar` has returned. -/
theorem StoredNar.returned (stored : StoredNar nix fmt path (handleLog trace)) {ok : Bool}
    (whole : ok = true → nix.nar path = some (handleLog trace).accepted) :
    StoredNar nix fmt path (handleLog (trace ++ [.writerReturned ok])) := by
  have log : handleLog (trace ++ [.writerReturned ok]) =
      handleLog trace ++ ({ writer := [ok] } : HandleLog P δ) := handleLog_append _ _
  simp only [HandleLog.append_mk, UploadLog.append_nothing, List.append_nil, Bool.or_false] at log
  rw [log]
  refine { inOrder := stored.inOrder, whole := fun returned => ?_, described := stored.described }
  refine whole ?_
  have last : ok ∈ [true] := returned ▸ List.mem_append_right _ (List.mem_singleton_self ok)
  exact List.mem_singleton.mp last

/-- A NARInfo is published with the hash and the size of the NAR: they were measured on what the
pipe has accepted, and by now that is all of it. -/
theorem StoredNar.publish (stored : StoredNar nix fmt path (handleLog trace))
    {initial state : NarUploadState} {narHash : δ} {narSize : NonZero 64}
    (uploaded : Uploaded initial (handleLog trace))
    (measured : Measured fmt (handleLog trace) narHash narSize)
    {infos : Except E (PathInfos E)} (answer : infos = nix.pathInfos path) :
    StoredNar nix fmt path
      (handleLog (trace ++ (Handle.receiveInfos fmt path state narHash narSize infos).2)) := by
  have whole := stored.whole uploaded.writer
  unfold Handle.receiveInfos
  split
  · exact stored.silent rfl rfl rfl
  · rename_i narinfo read
    have describes : Describes nix fmt path narinfo := by
      refine ⟨_, whole, narSize, measured.size, ?_⟩
      rw [← measured.hash, ← answer]
      exact read
    rw [handleLog_append]
    exact
      { inOrder := by
          show ∀ bytes ∈ nix.nar path, _ ++ [] <+: bytes
          rw [List.append_nil]
          exact stored.inOrder
        whole := fun _ => by
          show _ = some (_ ++ [])
          rw [List.append_nil]
          exact whole
        described := by
          refine List.forall_mem_append.mpr ⟨stored.described, ?_⟩
          rintro entry (_ | ⟨_, ⟨⟩⟩)
          exact describes }

/-- **Every step that gets its input from the store keeps to its NAR.** -/
theorem StoredNar.step {input : HandleInput E} (known : Known fmt path trace handle)
    (stored : StoredNar nix fmt path (handleLog trace))
    (given : FromStore nix path handle trace input)
    (h : Handle.step fmt cache path upstreamCaches handle input = some (handle', out)) :
    StoredNar nix fmt path (handleLog (trace ++ out)) := by
  cases Handle.step_spec _ _ _ _ h with
  | start => refine stored.silent ?_ ?_ ?_ <;> rw [handleLog_check]
  | @check check check' input outputs done =>
      have checked : StoredNar nix fmt path (handleLog (trace ++ outputs.map .check)) := by
        refine stored.silent ?_ ?_ ?_ <;> rw [handleLog_check]
      rw [← List.append_assoc]
      unfold Handle.afterCheck
      split <;> exact checked.silent rfl rfl rfl
  | initiated =>
      unfold Handle.receiveState
      split <;> exact stored.silent rfl rfl rfl
  | write writing =>
      cases known with
      | streaming flowing => exact stored.write flowing writing given _
  | writeFails writing => exact stored.returned (by simp)
  | @shutdown halves result writing =>
      rcases result with e | ⟨⟩
      · exact stored.returned (by simp)
      · exact stored.returned fun _ => given
  | read done =>
      unfold Handle.read at done
      split at done <;> exact stored.upload done
  | readFails done => exact stored.upload done
  | upload other done => exact stored.upload done
  | pathInfos =>
      cases known with
      | gettingInfos same uploaded measured => exact stored.publish uploaded measured given
  | narinfoSent =>
      unfold Handle.receivePublication
      split <;> exact stored.silent rfl rfl rfl

/-- What a run has done for a path of the store. -/
theorem stored_of_run {is : List (HandleInput E)}
    (follows : (handleMachine fmt cache path upstreamCaches).Follows (FromStore nix path) .called
      [] is)
    (hrun : (handleMachine fmt cache path upstreamCaches).run .called is =
      some (handle, trace)) : StoredNar nix fmt path (handleLog trace) := by
  have start : StoredNar nix fmt path (handleLog ([] : List (HandleObs P δ))) :=
    ⟨fun _ _ => List.nil_prefix, by rintro ⟨⟩, by rintro entry ⟨⟩⟩
  have invariant := (handleMachine fmt cache path upstreamCaches).run_invariant_of_follows
    (I := fun handle trace => Known fmt path trace handle ∧
      StoredNar nix fmt path (handleLog trace))
    (fun _ _ _ _ _ both given hstep => ⟨both.1.step hstep, both.2.step both.1 given hstep⟩)
    follows ⟨.called rfl, start⟩ hrun
  exact invariant.2

/-- Where a NARInfo is published, the bodies that have been put make up the NAR. -/
theorem stored_of_publish {is : List (HandleInput E)} {pre post : List (HandleObs P δ)}
    {narinfo : NarInfo P δ} {call : Call}
    (follows : (handleMachine fmt cache path upstreamCaches).Follows (FromStore nix path) .called
      [] is)
    (hrun : (handleMachine fmt cache path upstreamCaches).run .called is =
      some (handle, trace)) (split : trace = pre ++ .publish narinfo call :: post) :
    nix.nar path = some (bytesPut (handleRequests fmt cache pre)) := by
  obtain ⟨initial, before, now, -, ran, -, publishing⟩ := publication_of_run hrun split
  have stored := stored_of_run follows hrun
  rw [bytesPut_handleRequests (speaks_of_run ran)]
  rw [split, handleLog_append] at stored
  -- what the pipe has accepted by then starts the NAR, and is as long
  have describes : Describes nix fmt path narinfo :=
    stored.described (narinfo, call) (List.mem_append_right _ List.mem_cons_self)
  obtain ⟨bytes, nar, size⟩ := describes.size
  have inOrder : (handleLog pre).accepted <+: bytes :=
    (List.prefix_append _ _).trans (stored.inOrder bytes nar)
  rw [nar, ← publishing.uploaded.whole, inOrder.eq_of_length]
  rw [← publishing.nar.size, size]

end Steps

end HandleStorePath

end CacheAction
