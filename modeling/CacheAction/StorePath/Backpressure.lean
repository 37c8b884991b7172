import CacheAction.StorePath.PublishedNar

/-!
# The two halves over the pipe

While `write_nar` and `upload_nar` run side by side, the pipe and the buffer for one
part are all that lies between them.  In every state that a run of
`handle_store_path` can be in (`halves_keep_pace`):

* the bytes that have been written and are not yet in an answered part fit into the
  pipe and one part, however large the NAR is and however slow the server;
* the halves never wait for each other: whenever the uploader finds nothing to read,
  the writer finds room;
* the uploader does not return before the writer has been shut down, and it has read
  everything when it is told of the end.

That the halves cannot block each other is a property of the pipe alone: it is writable
unless it is full and readable unless it is empty, and its capacity is positive.  It would fail
for a capacity of zero, and for two pipes in opposite directions; here the uploader tells the
writer nothing.

The bound is one part *and* one pipe.  What has been read is in the buffer until its part has
been answered, the buffer has the size of a part, and nothing more is read while a part is
under way.
-/

namespace CacheAction

namespace HandleStorePath

open Sub60

variable {P σ δ E : Type} (fmt : HandleFormats P σ δ E) (cache : Sub60Cache) (path : P)
  (upstreamCaches : List Url)

/-- The bytes of the parts that the server has confirmed. -/
def confirmed (log : HandleLog P δ) : List UInt8 :=
  (log.upload.answers.map fun answer => answer.1.2).flatten

/-- The two halves, while they run. -/
structure KeepsPace (initial : NarUploadState) (log : HandleLog P δ) (halves : Streaming σ E) :
    Prop where
  initiated : log.initiated = [initial]
  /-- What has been written has been read, or is in the pipe. -/
  inFlight : log.accepted = log.upload.bytes ++ halves.writer.inner.queue
  bounded : halves.writer.inner.queue.length ≤ narStreamBufferSize
  /-- What the server has confirmed comes first, -/
  confirmedFirst : confirmed log <+: log.accepted
  /-- and what it has not confirmed is bounded. -/
  backlog : log.accepted.length ≤
    (confirmed log).length + initial.partSize.val + narStreamBufferSize
  /-- The uploader goes on until the writer has been shut down, -/
  uploading : ∀ state result, halves.upload ≠ .returned state result
  /-- and gets the end of the stream only after everything. -/
  ended : log.upload.eof = true → halves.written = true ∧ log.upload.bytes = log.accepted
  /-- One half can always go on. -/
  progress : ∀ buf limit limit', buf ≠ [] → 0 < limit → 0 < limit' →
    (halves.written = false ∧ ∃ numBytes, 0 < numBytes ∧
      (halves.writer.pollWrite fmt.sha256 buf limit).1 = .ready (.ok numBytes)) ∨
    ∃ bytes inner, halves.writer.inner.pollRead limit' = (.ready bytes, inner)
  /-- Once the writer has been shut down, the uploader never waits for it. -/
  drains : halves.written = true → ∀ limit, 0 < limit →
    ∃ bytes inner, halves.writer.inner.pollRead limit = (.ready bytes, inner)

/-! ## What the steps leave alone -/

/-- The pipe is the one that has been created, and an uploader that has returned has
been waited for. -/
structure Joined (halves : Streaming σ E) : Prop where
  capacity : halves.writer.inner.capacity = narStreamBufferSize
  returned : ∀ state result, halves.upload = .returned state result →
    result = .ok () ∧ halves.written = false

section Steps

variable {fmt cache path upstreamCaches} {halves halves' : Streaming σ E}
  {handle handle' : Handle P σ δ E} {out : List (HandleObs P δ)}

/-- `try_join` goes on with the same halves. -/
theorem joined_of_join (h : Handle.join fmt halves' = (.streaming halves : Handle P σ δ E))
    (capacity : halves'.writer.inner.capacity = narStreamBufferSize) : Joined halves := by
  unfold Handle.join at h
  split at h
  · cases h
  · rename_i state returned
    split at h
    · unfold Handle.finish at h
      split at h <;> cases h
    · rename_i writing
      cases h
      refine ⟨capacity, fun state' result same => ?_⟩
      rw [returned] at same
      cases same
      exact ⟨rfl, (Bool.not_eq_true _).mp writing⟩
  · rename_i failed succeeded
    cases h
    refine ⟨capacity, fun state result same => ?_⟩
    rcases result with e | ⟨⟩
    · exact absurd same (failed state e)
    · exact absurd same (succeeded state)

/-- If the halves go on after a step of the upload, the upload has not returned. -/
theorem joined_of_uploadStep {input : UploadInput E}
    (h : Handle.uploadStep fmt cache halves' input = some (.streaming halves, out))
    (capacity : halves'.writer.inner.capacity = narStreamBufferSize) : Joined halves := by
  obtain ⟨next, -, hnext⟩ := Option.map_eq_some_iff.mp h
  obtain ⟨joined, -⟩ := Prod.ext_iff.mp hnext
  exact joined_of_join joined capacity

variable (fmt) in
theorem capacity_pollWrite (writer : HashAndCountWriter σ) (buf : List UInt8) (limit : ℕ) :
    (writer.pollWrite fmt.sha256 buf limit).2.inner.capacity = writer.inner.capacity := by
  unfold HashAndCountWriter.pollWrite Pipe.pollWrite
  split_ifs <;> rfl

theorem capacity_pollRead (inner : Pipe UInt8) (limit : ℕ) :
    (inner.pollRead limit).2.capacity = inner.capacity := by
  unfold Pipe.pollRead
  split_ifs <;> rfl

/-- **Every step that leaves the halves running leaves them joined.** -/
theorem Joined.step {input : HandleInput E}
    (joined : ∀ halves, handle = .streaming halves → Joined halves)
    (h : Handle.step fmt cache path upstreamCaches handle input = some (.streaming halves, out)) :
    Joined halves := by
  generalize next : (Handle.streaming halves : Handle P σ δ E) = handle' at h
  cases Handle.step_spec _ _ _ _ h with
  | start => cases next
  | check done =>
      unfold Handle.afterCheck at next
      split at next <;> cases next
  | initiated =>
      unfold Handle.receiveState at next
      split at next <;> cases next
      -- the halves are started with an empty pipe of the full size
      exact ⟨rfl, fun state result => by rintro ⟨⟩⟩
  | @write running buf limit writing =>
      -- the writer is polled: the uploader has not moved
      obtain ⟨capacity, returned⟩ := joined running rfl
      have same := capacity_pollWrite fmt running.writer buf limit
      unfold Handle.write at next
      split at next <;> rename_i polled <;> cases next <;> rw [polled] at same <;>
        exact ⟨same.trans capacity, returned⟩
  | writeFails writing => cases next
  | @shutdown running result writing =>
      rcases result with e | ⟨⟩
      · cases next
      · exact joined_of_join next.symm (joined running rfl).capacity
  | @read running limit _ _ done =>
      have capacity := (joined running rfl).capacity
      -- a read takes bytes out of the pipe and leaves its size
      unfold Handle.read at done
      subst next
      split at done
      · exact joined_of_uploadStep done capacity
      · rename_i bytes inner polled
        have same := capacity_pollRead running.writer.inner limit
        rw [polled] at same
        exact joined_of_uploadStep done (same.trans capacity)
  | @readFails running _ _ _ done =>
      subst next
      exact joined_of_uploadStep done (joined running rfl).capacity
  | @upload running _ _ _ other done =>
      subst next
      exact joined_of_uploadStep done (joined running rfl).capacity
  | pathInfos =>
      unfold Handle.receiveInfos at next
      split at next <;> cases next
  | narinfoSent =>
      unfold Handle.receivePublication at next
      split at next <;> cases next

end Steps

/-! ## The bounds -/

section Bounds

variable {fmt} {initial : NarUploadState} {log : HandleLog P δ} {halves : Streaming σ E}

/-- What has been read and is not confirmed fits into one part. -/
theorem read_unconfirmed {upload : Upload E} (known : Assembled initial log.upload upload)
    (uploading : ∀ state result, upload ≠ .returned state result) :
    ∃ rest, log.upload.bytes = confirmed log ++ rest ∧ rest.length ≤ initial.partSize.val := by
  have answered : ∀ {parts : List (Url × List UInt8)}, log.upload.answers.map Prod.fst = parts →
      (parts.map Prod.snd).flatten = confirmed log := by
    rintro parts rfl
    rw [List.map_map]
    rfl
  cases known with
  | top known =>
      refine ⟨[], ?_, Nat.zero_le _⟩
      rw [known.bytes, UploadLog.assembled, answered known.answered]
  | requestingUrls known =>
      refine ⟨[], ?_, Nat.zero_le _⟩
      rw [known.bytes, UploadLog.assembled, answered known.answered]
  | @filling locals partUrl numRead known room =>
      refine ⟨locals.partBytesBuf.take numRead, ?_, ?_⟩
      · rw [known.bytes, UploadLog.assembled, answered known.answered]
      · exact Nat.le_trans (List.length_take_le _ _) (Nat.le_of_lt room)
  | @uploadingPart locals partUrl partBytes known =>
      refine ⟨partBytes, ?_, known.fits⟩
      rw [known.bytes, UploadLog.assembled, known.parts, List.map_append, List.flatten_append,
        answered rfl]
      simp
  | completing same known =>
      refine ⟨[], ?_, Nat.zero_le _⟩
      rw [List.append_nil, known.bytes, UploadLog.assembled, answered known.answered]
  | returned => exact absurd rfl (uploading _ _)
  | failed => exact absurd rfl (uploading _ _)

/-- An uploader that has returned has read the end of the stream. -/
theorem Flowing.uploading (flowing : Flowing fmt initial log halves) (joined : Joined halves)
    (state : NarUploadState) (result : Except (CacheRequestError E) Unit) :
    halves.upload ≠ .returned state result := by
  intro returned
  obtain ⟨rfl, writing⟩ := joined.returned state result returned
  have known := flowing.upload
  rw [returned] at known
  cases known with
  | returned same known succeeded =>
      have closed := (flowing.flow.ended known.ended).1
      rw [flowing.closed, writing] at closed
      cases closed

/-- What is known of the two halves, of the pipe and of the join makes up all of it. -/
theorem Flowing.keepsPace (flowing : Flowing fmt initial log halves) (joined : Joined halves) :
    KeepsPace fmt initial log halves := by
  have uploading := flowing.uploading joined
  obtain ⟨rest, read, small⟩ := read_unconfirmed flowing.upload uploading
  have bounded : halves.writer.inner.queue.length ≤ narStreamBufferSize := by
    rw [← joined.capacity]
    exact halves.writer.inner.bounded
  have inFlight := flowing.flow.fifo
  refine
    { initiated := flowing.initiated, inFlight, bounded, confirmedFirst := ?_, backlog := ?_,
      uploading, ended := ?_, progress := ?_, drains := ?_ }
  · rw [inFlight, read, List.append_assoc]
    exact List.prefix_append _ _
  · rw [inFlight, read, List.length_append, List.length_append]
    omega
  · intro ended
    obtain ⟨closed, empty⟩ := flowing.flow.ended ended
    rw [flowing.closed] at closed
    rw [inFlight, empty, List.append_nil]
    exact ⟨closed, rfl⟩
  · intro buf limit limit' nonempty writes reads
    have roomy : 0 < halves.writer.inner.capacity := by
      rw [joined.capacity]
      decide
    rcases halves.writer.inner.writable_or_readable roomy nonempty writes reads with
      ⟨isOpen, polled, accepts⟩ | readable
    · rw [flowing.closed] at isOpen
      refine Or.inl ⟨isOpen, _, accepts, ?_⟩
      rw [HashAndCountWriter.pollWrite, polled]
    · exact Or.inr readable
  · intro written limit reads
    exact Pipe.readable_of_closed (flowing.closed.trans written) reads

end Bounds

/-- **The two halves keep pace with each other**, in every state of every run.

The writer of the NAR and the reader of the upload meet in a pipe of 64 KiB, and neither has
a way round it: what has been written is what has been read and what is in the pipe.  The
fields about waiting say that the two do not wait for each other, since a pipe is never both
full and empty. -/
theorem halves_keep_pace {is : List (HandleInput E)} {halves : Streaming σ E}
    {trace : List (HandleObs P δ)}
    (hrun : (handleMachine fmt cache path upstreamCaches).run .called is =
      some (.streaming halves, trace)) :
    ∃ initial, KeepsPace fmt initial (handleLog trace) halves := by
  have joined : Joined halves :=
    @Machine.run_invariant _ _ _ (handleMachine fmt cache path upstreamCaches)
      (fun handle _ => ∀ halves, handle = .streaming halves → Joined halves)
      (fun s trace i s' out joined hstep halves streaming => by
        subst streaming
        exact Joined.step joined hstep)
      _ _ _ [] _ (fun halves => by rintro ⟨⟩) hrun halves rfl
  cases known_of_run hrun with
  | streaming flowing => exact ⟨_, flowing.keepsPace joined⟩

/-- The three bytes have been written and the first part is being uploaded. -/
theorem halves_keep_pace_three_bytes :
    ∃ halves trace, (handleMachine exampleFormats exampleCache examplePath [nixosCache]).run
        .called (pushRun.take 11) = some (.streaming halves, trace) ∧
      ∃ initial, KeepsPace exampleFormats initial (handleLog trace) halves := by
  obtain ⟨halves, trace, hrun⟩ : ∃ halves trace,
      (handleMachine exampleFormats exampleCache examplePath [nixosCache]).run
        .called (pushRun.take 11) = some (.streaming halves, trace) := by
    have read : (((handleMachine exampleFormats exampleCache examplePath [nixosCache]).run
        .called (pushRun.take 11)).map fun next =>
          match next.1 with
          | .streaming _ => true
          | _ => false) = some true := by
      decide +kernel
    obtain ⟨⟨handle, trace⟩, hrun, streaming⟩ := Option.map_eq_some_iff.mp read
    cases handle with
    | streaming halves => exact ⟨halves, trace, hrun⟩
    | _ => cases streaming
  exact ⟨halves, trace, hrun, halves_keep_pace _ _ _ _ hrun⟩

end HandleStorePath

end CacheAction
