import CacheAction.Protocol.Sender
import CacheAction.Protocol.Streaming

/-!
# Sending and receiving a list of messages

The two ends of the socket share a separator, a sentinel and nothing else.  The
sender writes any store directory unescaped; the receiver splits at the first
newline and gives up on a line of 1024 bytes or more.  `LineFits` is what a
store path must satisfy for its encoding to be one line of the receiver, and
`decode_encode_iff` says that a list of messages survives the trip exactly when
all of its paths do.

Of the basename nothing is assumed but that its printer and its parser agree and that it has no
slash, newline or NUL in it.  The directory is where a path can go wrong: `StoreDir` takes any
text without a NUL, and a newline in it ends the line too early.  What is received then depends
on the two pieces, one of which may well be a store path; in no case does the stream begin with
the path that was sent (`decode_not_fitting`).
-/

namespace CacheAction

variable {B E ε ρ : Type} {codec : BasenameCodec B E}

/-- The store paths the command line can produce. -/
def StorePath.Accepted (codec : BasenameCodec B E) (path : StorePath B) : Prop :=
  ∃ s, StorePath.fromStr codec s = .ok path

/-- The printed path is one line of the receiver: it has no newline in it and
fits the buffer together with its separator. -/
def LineFits (codec : BasenameCodec B E) (path : StorePath B) : Prop :=
  '\n' ∉ (path.display codec).toList ∧ (utf8 (path.display codec)).length < 1024

instance (codec : BasenameCodec B E) (path : StorePath B) : Decidable (LineFits codec path) :=
  inferInstanceAs (Decidable (_ ∧ _))

/-- A list of pushes, optionally followed by a stop. -/
def session (paths : List (StorePath B)) (stop : Bool) : List (Message (StorePath B)) :=
  paths.map .pushStorePath ++ if stop then [.stopDaemon] else []

/-- The bytes of a list of messages. -/
def encodeAll (codec : BasenameCodec B E) (messages : List (Message (StorePath B))) :
    List UInt8 :=
  messages.flatMap (Message.encode (StorePath.display codec))

@[simp] theorem encodeAll_push (path : StorePath B) (messages : List (Message (StorePath B))) :
    encodeAll codec (.pushStorePath path :: messages) =
      utf8 (path.display codec) ++ pathSeparator :: encodeAll codec messages := by
  simp [encodeAll, Message.encode]

/-- No message of the protocol starts with the stop byte unless it is a stop. -/
theorem head?_path_ne_stop (lawful : codec.Lawful) (path : StorePath B) (rest : List UInt8) :
    (utf8 (path.display codec) ++ pathSeparator :: rest).head? ≠ some stopSentinel := by
  have absent : stopSentinel ∉ utf8 (path.display codec) := by
    rw [mem_utf8_of_ascii (c := '\x00') (by decide) (by decide)]
    exact StorePath.nul_notMem_display lawful path
  intro h
  cases hbytes : utf8 (path.display codec) with
  | nil =>
      rw [hbytes, List.nil_append, List.head?_cons] at h
      exact absurd h (by decide)
  | cons b bs =>
      rw [hbytes, List.cons_append, List.head?_cons] at h
      exact absent (hbytes ▸ Option.some.inj h ▸ List.mem_cons_self)

/-- Nothing is found where there is nothing. -/
theorem memchr_eq_none {needle : UInt8} {haystack : List UInt8} :
    memchr needle haystack = none ↔ needle ∉ haystack := by
  rw [memchr, List.findIdx?_eq_none_iff]
  constructor
  · intro h member
    simpa using h needle member
  · intro absent b member
    rw [beq_eq_false_iff_ne]
    rintro rfl
    exact absent member

/-- The line up to the first separator has none in it. -/
theorem separator_notMem_take {needle : UInt8} {haystack : List UInt8} {offset : ℕ}
    (found : memchr needle haystack = some offset) : needle ∉ haystack.take offset := by
  intro member
  obtain ⟨i, hi, rfl⟩ := List.mem_iff_getElem.mp member
  rw [List.length_take] at hi
  have hspec := (List.findIdx?_eq_some_iff_getElem.mp found).2.2 i (by omega)
  simp at hspec

/-- A line that fits is received as the path it was sent for. -/
theorem decode_fitting (lawful : codec.Lawful) {path : StorePath B}
    (accepted : path.Accepted codec) (fits : LineFits codec path) (ending : Ending ε)
    (rest : List UInt8) :
    decode (StorePath.fromStr codec) ending
        (utf8 (path.display codec) ++ pathSeparator :: rest) =
      .ok (.pushStorePath path) :: decode (StorePath.fromStr codec) ending rest := by
  obtain ⟨s, hs⟩ := accepted
  have noSeparator : pathSeparator ∉ utf8 (path.display codec) := by
    rw [mem_utf8_of_ascii (c := '\n') (by decide) (by decide)]
    exact fits.1
  have found : memchr pathSeparator (utf8 (path.display codec) ++ [pathSeparator]) =
      some (utf8 (path.display codec)).length := by
    rw [memchr, List.findIdx?_append, ← memchr, memchr_eq_none.mpr noSeparator]
    simp [List.findIdx?_cons]
  have hlen : (utf8 (path.display codec) ++ [pathSeparator]).length ≤ receiverBufLen := by
    rw [List.length_append, List.length_singleton, receiverBufLen]
    exact fits.2
  have hline : decodeLine (StorePath.fromStr codec) (utf8 (path.display codec)) =
      (.ok (.pushStorePath path) : Item (StorePath B) ε (StorePathError E)) := by
    rw [decodeLine, fromUtf8_utf8]
    simp only [StorePath.fromStr_display lawful hs]
  rw [show utf8 (path.display codec) ++ pathSeparator :: rest =
      utf8 (path.display codec) ++ [pathSeparator] ++ rest by simp,
    Receiver.decode_line hlen (head?_path_ne_stop lawful path []) found, List.take_left, hline]
  simp [Item.isLast]

/-- The path a line is received as prints without newlines. -/
theorem newline_notMem_of_decodeLine (lawful : codec.Lawful) {line : List UInt8}
    (oneLine : pathSeparator ∉ line) {path : StorePath B}
    (h : decodeLine (StorePath.fromStr codec) line =
      (.ok (.pushStorePath path) : Item (StorePath B) ε (StorePathError E))) :
    '\n' ∉ (path.display codec).toList := by
  rw [decodeLine] at h
  cases decoded : fromUtf8 line with
  | none => simp [decoded] at h
  | some s =>
      cases parsed : StorePath.fromStr codec s with
      | error e => simp [decoded, parsed] at h
      | ok path' =>
          simp only [decoded, parsed, Except.ok.injEq, Message.pushStorePath.injEq] at h
          subst h
          apply StorePath.newline_notMem_display lawful parsed
          rwa [← mem_utf8_of_ascii (b := pathSeparator) (by decide) (by decide),
            utf8_of_fromUtf8 decoded]

/-- A line that does not fit is not received as the path it was sent for: the
receiver finds an earlier newline, or none at all. -/
theorem decode_not_fitting (lawful : codec.Lawful) {path : StorePath B}
    (unfit : ¬ LineFits codec path) (ending : Ending ε) (rest : List UInt8)
    (items : List (Item (StorePath B) ε (StorePathError E))) :
    decode (StorePath.fromStr codec) ending
        (utf8 (path.display codec) ++ pathSeparator :: rest) ≠
      .ok (.pushStorePath path) :: items := by
  intro hdecode
  rw [decode.eq_def, if_neg (head?_path_ne_stop lawful path rest)] at hdecode
  split at hdecode
  · rename_i offset found
    have hitem : decodeLine (StorePath.fromStr codec)
        ((utf8 (path.display codec) ++ pathSeparator :: rest).take offset) =
          (.ok (.pushStorePath path) : Item (StorePath B) ε (StorePathError E)) := by
      dsimp only at hdecode
      split_ifs at hdecode <;> exact (List.cons.inj hdecode).1
    have inside : offset < receiverBufLen := by
      have := Receiver.memchr_lt found
      rw [List.length_take] at this
      omega
    have oneLine := separator_notMem_take found
    rw [List.take_take, min_eq_left inside.le] at oneLine
    have noNewline := newline_notMem_of_decodeLine lawful oneLine hitem
    -- so the printed path is too long, and there is no separator in the buffer
    have long : receiverBufLen ≤ (utf8 (path.display codec)).length := by
      by_contra short
      exact unfit ⟨noNewline, Nat.lt_of_not_le short⟩
    rw [← mem_utf8_of_ascii (b := pathSeparator) (by decide) (by decide)] at noNewline
    rw [List.take_append_of_le_length long,
      memchr_eq_none.mpr fun member => noNewline (List.mem_of_mem_take member)] at found
    cases found
  · split_ifs at hdecode
    cases ending <;> simp at hdecode

/-- **Decoding undoes encoding exactly on the paths that fit a line.** -/
theorem decode_encode_iff (lawful : codec.Lawful) (paths : List (StorePath B))
    (accepted : ∀ path ∈ paths, path.Accepted codec) (stop : Bool) :
    decode (StorePath.fromStr codec) (.eof : Ending ε) (encodeAll codec (session paths stop)) =
        (session paths stop).map .ok ↔
      ∀ path ∈ paths, LineFits codec path := by
  induction paths with
  | nil =>
      simp only [List.not_mem_nil, false_implies, implies_true, iff_true]
      cases stop with
      | false => rw [decode.eq_def]; rfl
      | true => rw [decode.eq_def]; rfl
  | cons path rest ih =>
      have haccepted := accepted path List.mem_cons_self
      have hrest := ih fun q member => accepted q (List.mem_cons_of_mem path member)
      have hsession : session (path :: rest) stop = .pushStorePath path :: session rest stop :=
        rfl
      rw [hsession, encodeAll_push, List.map_cons, List.forall_mem_cons]
      by_cases fits : LineFits codec path
      · rw [decode_fitting lawful haccepted fits, List.cons_inj_right, hrest]
        simp [fits]
      · simp only [fits, false_and, iff_false]
        exact decode_not_fitting lawful fits _ _ _

/-- **A list of messages survives the trip through the socket exactly when every
path fits a line.**  The messages are fed to a `Sender` and the sender is
closed, over any schedule of the writer; the bytes reach the `Receiver` over
any schedule of the reader that is not pending for ever, and the stream is
collected until its first `None`.

The schedules drop out on both sides: a sender that has been closed with success has
delivered the encoding of the messages, and the receiver collects what one decoding of all
bytes gives.  What is left compares a decoding with an encoding (`decode_encode_iff`). -/
theorem session_roundTrip_iff (lawful : codec.Lawful) (paths : List (StorePath B))
    (accepted : ∀ path ∈ paths, path.Accepted codec) (stop : Bool)
    (writes : ℕ → WriteChoice ρ) (polls : ℕ) (writer : Sink UInt8 ρ)
    (closed : Sender.close polls
      (Sender.new.feedAll (StorePath.display codec) (session paths stop))
      { accepted := [], schedule := writes } = some (.ok (), writer))
    (reads : ℕ → ReadChoice)
    (fair : Source.Fair
      ({ remaining := writer.accepted, ending := .eof, schedule := reads } : Source UInt8 ε)) :
    (∃ n results rx reader,
      Receiver.polls (StorePath.fromStr codec) n Receiver.new
          ({ remaining := writer.accepted, ending := .eof, schedule := reads } :
            Source UInt8 ε) = some (results, rx, reader) ∧
        .ready none ∈ results ∧
        Receiver.itemsUntilNone results = (session paths stop).map .ok) ↔
      ∀ path ∈ paths, LineFits codec path := by
  have delivered : writer.accepted = encodeAll codec (session paths stop) := by
    have hnew := Sender.delivers_new (ε := ρ) writes
    have hfed := Sender.feedAll_delivers (StorePath.display codec) (session paths stop) hnew
    rw [List.nil_append] at hfed
    exact Sender.close_delivers hfed closed
  rw [← decode_encode_iff (ε := ε) lawful paths accepted stop, ← delivered]
  constructor
  · rintro ⟨n, results, rx, reader, hpolls, finished, hitems⟩
    exact (Receiver.collected_eq_decode hpolls finished).symm.trans hitems
  · intro hdecode
    obtain ⟨n, results, rx, reader, hpolls, finished, hitems⟩ :=
      Receiver.exists_collected (StorePath.fromStr codec) fair
    exact ⟨n, results, rx, reader, hpolls, finished, hitems.trans hdecode⟩

/-! ## A concrete basename type -/

/-- The characters of a base-32 digest. -/
def isNix32 (c : Char) : Bool := c ∈ "0123456789abcdfghijklmnpqrsvwxyz".toList

/-- The characters of a store path name. -/
def isNameChar (c : Char) : Bool := c.isAlphanum || c ∈ "+-._?=".toList

/-- A digest of 32 characters, a dash and a name. -/
def isBasename (cs : List Char) : Bool :=
  match cs.drop 32 with
  | '-' :: name => (cs.take 32).all isNix32 && !name.isEmpty && name.all isNameChar
  | _ => false

/-- A basename of the usual form. -/
structure NixBasename where
  text : String
  valid : isBasename text.toList = true
  deriving DecidableEq

/-- Its printer and its parser. -/
def nixBasenameCodec : BasenameCodec NixBasename Unit where
  display b := b.text
  fromStr s := if h : isBasename s.toList = true then .ok ⟨s, h⟩ else .error ()

/-- A basename has the characters of a hash, the hyphen, and those of a name. -/
theorem isBasename_chars {cs : List Char} (h : isBasename cs = true) {c : Char}
    (member : c ∈ cs) : isNix32 c = true ∨ c = '-' ∨ isNameChar c = true := by
  unfold isBasename at h
  split at h
  · rename_i name hdrop
    simp only [Bool.and_eq_true, List.all_eq_true] at h
    rw [← List.take_append_drop 32 cs, hdrop, List.mem_append, List.mem_cons] at member
    rcases member with digest | rfl | name
    · exact Or.inl (h.1.1 c digest)
    · exact Or.inr (Or.inl rfl)
    · exact Or.inr (Or.inr (h.2 c name))
  · cases h

/-- Basenames are printed as they are parsed, and have no slash. -/
theorem nixBasenameCodec_lawful : nixBasenameCodec.Lawful where
  fromStr_display b := by
    show (if h : isBasename b.text.toList = true then _ else _) = _
    rw [dif_pos b.valid]
    rfl
  clean := by
    intro s b h
    have valid : isBasename s.toList = true := by
      by_contra invalid
      have refused : nixBasenameCodec.fromStr s = .error () := dif_neg invalid
      rw [refused] at h
      cases h
    refine ⟨fun member => ?_, fun member => ?_, fun member => ?_⟩ <;>
      exact absurd (isBasename_chars valid member) (by decide)

/-- `/nix/store/aaaaaaaaaaaaaaaaaaaaaaaaaaaaaaaa-hello`. -/
def helloPath : StorePath NixBasename where
  storeDir := .nixStore
  basename := ⟨"aaaaaaaaaaaaaaaaaaaaaaaaaaaaaaaa-hello", by decide⟩

/-- The same basename in the store directory `/a⏎b`. -/
def newlinePath : StorePath NixBasename where
  storeDir := .other ⟨"/a\nb", by decide⟩
  basename := ⟨"aaaaaaaaaaaaaaaaaaaaaaaaaaaaaaaa-hello", by decide⟩

theorem accepted_helloPath : helloPath.Accepted nixBasenameCodec :=
  ⟨"/nix/store/aaaaaaaaaaaaaaaaaaaaaaaaaaaaaaaa-hello", by decide +kernel⟩

theorem accepted_newlinePath : newlinePath.Accepted nixBasenameCodec :=
  ⟨"/a\nb/aaaaaaaaaaaaaaaaaaaaaaaaaaaaaaaa-hello", by decide +kernel⟩

/-- A push of `helloPath` and a stop, read seven bytes at a time. -/
theorem session_roundTrip_hello :
    ∃ n results rx reader,
      Receiver.polls (StorePath.fromStr nixBasenameCodec) n Receiver.new
          ({ remaining := encodeAll nixBasenameCodec (session [helloPath] true),
             ending := .eof, schedule := fun _ => .upTo 7 } : Source UInt8 Empty) =
        some (results, rx, reader) ∧
      .ready none ∈ results ∧
      Receiver.itemsUntilNone results = (session [helloPath] true).map .ok :=
  (session_roundTrip_iff (ρ := Empty) nixBasenameCodec_lawful [helloPath]
    (by simpa using accepted_helloPath) true (fun _ => .upTo 4096) 1 _ rfl
    (fun _ => .upTo 7) (fun _ => ⟨0, by simp⟩)).mpr (by decide +kernel)

/-- A reader that delivers up to 4096 bytes whenever it is polled. -/
theorem fair_eager (bytes : List UInt8) :
    Source.Fair ({ remaining := bytes, ending := .eof, schedule := fun _ => .upTo 4096 } :
      Source UInt8 Empty) :=
  fun _ => ⟨0, by simp⟩

/-- A path whose store directory contains a newline is accepted by the command
line and delivered to the socket, but it is not what the receiver yields. -/
theorem newline_directory_not_received :
    newlinePath.Accepted nixBasenameCodec ∧
      ∃ writer : Sink UInt8 Empty,
        Sender.close 1
            (Sender.new.feedAll (StorePath.display nixBasenameCodec)
              (session [newlinePath] false))
            { accepted := [], schedule := fun _ => .upTo 4096 } = some (.ok (), writer) ∧
          ∃ n results rx reader,
            Receiver.polls (StorePath.fromStr nixBasenameCodec) n Receiver.new
                ({ remaining := writer.accepted, ending := .eof,
                   schedule := fun _ => .upTo 4096 } : Source UInt8 Empty) =
              some (results, rx, reader) ∧
            .ready none ∈ results ∧
            Receiver.itemsUntilNone results ≠ (session [newlinePath] false).map .ok := by
  refine ⟨accepted_newlinePath, _, rfl, ?_⟩
  obtain ⟨n, results, rx, reader, hpolls, finished, hitems⟩ :=
    Receiver.exists_collected (StorePath.fromStr nixBasenameCodec)
      (fair_eager (encodeAll nixBasenameCodec (session [newlinePath] false)))
  refine ⟨n, results, rx, reader, hpolls, finished, ?_⟩
  rw [hitems, ne_eq, decode_encode_iff (ε := Empty) nixBasenameCodec_lawful [newlinePath]
    (by simpa using accepted_newlinePath) false]
  decide +kernel

end CacheAction
