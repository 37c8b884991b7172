import CacheAction.EventLoop.Model
import CacheAction.Foundations.Utf8

/-!
# What the stop client is told

`RealStopProgressReporter` writes to the socket of the client that requested the
stop.  All of its methods ignore what comes of their writes: they return
nothing, and `run` goes on in the same way whether the client is still there.

Paths and errors are printed by other crates; `Printers` collects their texts.
A `Socket` says of each write whether all of it is accepted.  When all writes
are, the client receives the messages of the calls, one after the other
(`RealStopProgressReporter.received_of_reliable`).

That a number of paths has been announced is remembered, also if it could not be written: the
final report then begins with an empty line, which sets it off from the messages before it.
Where nothing is left to handle nothing is announced, and the report comes first.

Sizes are printed from a `f64`.  The model rounds a `u64` to a float as the conversion does
(`toF64`).  It divides exactly, as the loop of the source does in effect, since a float that is
divided by 1024 loses nothing; only the printing of one decimal rounds again (`tenths`).
-/

namespace CacheAction

namespace EventLoop

/-! ## The socket -/

/-- What becomes of a write: all bytes are accepted, or the first `n` of them and
then an error occurs. -/
inductive WriteOutcome where
  | accepted
  | broken (n : ℕ)
  deriving DecidableEq, Repr

/-- The write half of a socket: the bytes that have gone through, and what
becomes of the writes to come. -/
structure Socket where
  received : List UInt8
  outcomes : ℕ → WriteOutcome

namespace Socket

/-- The next write succeeds. -/
def succeeds (socket : Socket) : Bool :=
  socket.outcomes 0 = .accepted

/-- `write_all`; the first component says whether it succeeds. -/
def writeAll (socket : Socket) (bytes : List UInt8) : Bool × Socket :=
  let outcomes := fun k => socket.outcomes (k + 1)
  match socket.outcomes 0 with
  | .accepted => (true, { received := socket.received ++ bytes, outcomes })
  | .broken n => (false, { received := socket.received ++ bytes.take n, outcomes })

/-- No write fails. -/
def Reliable (socket : Socket) : Prop :=
  ∀ k, socket.outcomes k = .accepted

theorem writeAll_of_reliable {socket : Socket} (reliable : socket.Reliable) (bytes : List UInt8) :
    (socket.writeAll bytes).2.received = socket.received ++ bytes ∧
      (socket.writeAll bytes).2.Reliable := by
  rw [writeAll, reliable 0]
  exact ⟨rfl, fun k => reliable (k + 1)⟩

end Socket

/-! ## Byte sizes -/

/-- `a / b`, rounded to the nearest integer and, half-way, to the even one. -/
def roundDiv (a b : ℕ) : ℕ :=
  let quotient := a / b
  let remainder := a % b
  if 2 * remainder < b then quotient
  else if b < 2 * remainder then quotient + 1
  else if quotient % 2 = 0 then quotient
  else quotient + 1

/-- `n as f64`, for an unsigned integer: the nearest multiple of the power of two
that leaves 53 significant bits. -/
def toF64 (n : ℕ) : ℕ :=
  let ulp := 2 ^ (n.log2 - 52)
  roundDiv n ulp * ulp

namespace HumanReadableByteSize

/-- `UNITS`. -/
def units : List String := ["B", "KiB", "MiB", "GiB", "TiB", "PiB"]

/-- The `while` loop, from the unit `unitIdx` on: `remaining` units are left, and
the value is `num / 1024 ^ unitIdx`, exactly. -/
def scaleLoop (num : ℕ) : ℕ → ℕ → ℕ
  | 0, unitIdx => unitIdx
  | remaining + 1, unitIdx =>
      if 1024 * 1024 ^ unitIdx ≤ num then scaleLoop num remaining (unitIdx + 1) else unitIdx

/-- The index of the unit. -/
def unitIdx (numBytes : ℕ) : ℕ :=
  scaleLoop (toF64 numBytes) (units.length - 1) 0

/-- The loop stays inside the table of units. -/
theorem scaleLoop_le (num : ℕ) (remaining unitIdx : ℕ) :
    scaleLoop num remaining unitIdx ≤ unitIdx + remaining := by
  induction remaining generalizing unitIdx with
  | zero => exact Nat.le_refl _
  | succ remaining ih =>
      unfold scaleLoop
      split
      · have := ih (unitIdx + 1)
        omega
      · omega

theorem unitIdx_lt (numBytes : ℕ) : unitIdx numBytes < units.length :=
  Nat.lt_succ_of_le ((scaleLoop_le _ _ _).trans (Nat.zero_add _).le)

/-- The number of tenths that `{value:.1}` prints. -/
def tenths (numBytes : ℕ) : ℕ :=
  roundDiv (10 * toF64 numBytes) (1024 ^ unitIdx numBytes)

/-- `HumanReadableByteSize::fmt`. -/
def display (numBytes : ℕ) : String :=
  let unit := units.get ⟨unitIdx numBytes, unitIdx_lt numBytes⟩
  if unitIdx numBytes = 0 then toString numBytes ++ " " ++ unit
  else
    toString (tenths numBytes / 10) ++ "." ++ toString (tenths numBytes % 10) ++ " " ++ unit

example : display 42690 = "41.7 KiB" := by decide +kernel

end HumanReadableByteSize

/-! ## Reports -/

/-- An error as it is printed: its message and those of its sources. -/
structure ErrorChain where
  message : String
  causes : List String

/-- How paths and errors are printed. -/
structure Printers (P C H : Type) where
  path : P → String
  closureError : C → ErrorChain
  handlingError : H → ErrorChain

/-- A call of a method of `StopProgressReporter`. -/
inductive Report (P C H : Type) where
  | pathsLeftToHandle (numPathsLeftToHandle : ℕ)
  | pathPushed (path : P) (numBytes : NonZero 64)
  | pathSkipped (path : P)
  | pathHandlingError (path : P) (error : H)
  | finalReport (report : ActionReport P C H)

/-- `RealStopProgressReporter`. -/
structure RealStopProgressReporter where
  reportedPathsLeftToHandle : Bool
  writer : Socket

namespace RealStopProgressReporter

variable {P C H : Type} (print : Printers P C H)

/-- `RealStopProgressReporter::new`. -/
def new (writer : Socket) : RealStopProgressReporter :=
  { reportedPathsLeftToHandle := false, writer }

/-- Write a message, whatever comes of it. -/
def write (reporter : RealStopProgressReporter) (msg : String) : RealStopProgressReporter :=
  { reporter with writer := (reporter.writer.writeAll (utf8 msg)).2 }

/-- The message of `report_paths_left_to_handle`, if there is one. -/
def pathsLeftMessage : ℕ → Option String
  | 0 => none
  | 1 => some "There is still 1 store path left to handle\n"
  | n => some ("There are still " ++ toString n ++ " store paths left to handle\n")

/-- `report_paths_left_to_handle`. -/
def reportPathsLeftToHandle (reporter : RealStopProgressReporter) (numPathsLeftToHandle : ℕ) :
    RealStopProgressReporter :=
  match pathsLeftMessage numPathsLeftToHandle with
  | none => reporter
  | some msg => { reporter.write msg with reportedPathsLeftToHandle := true }

/-- `report_path_pushed`. -/
def reportPathPushed (reporter : RealStopProgressReporter) (path : P) (_ : NonZero 64) :
    RealStopProgressReporter :=
  reporter.write ("Pushed " ++ print.path path ++ "\n")

/-- `report_path_skipped`. -/
def reportPathSkipped (reporter : RealStopProgressReporter) (path : P) :
    RealStopProgressReporter :=
  reporter.write ("Skipped " ++ print.path path ++ "\n")

/-- `report_path_handling_error`. -/
def reportPathHandlingError (reporter : RealStopProgressReporter) (path : P) (_error : H) :
    RealStopProgressReporter :=
  reporter.write ("Failed handling " ++ print.path path ++ "\n")

/-- The ending of a plural. -/
def plural (n : ℕ) : String := if n = 1 then "" else "s"

/-- The form of the verb. -/
def was (n : ℕ) : String := if n = 1 then "was" else "were"

/-- The entry of a path that could not be handled. -/
def errorEntry (path : P) (error : ErrorChain) : String :=
  print.path path ++ ": " ++ error.message ++
    String.join (error.causes.map fun err => "\n  caused by: " ++ err) ++ "\n"

/-- The errors at the end of the final report: those of the closures come first. -/
def errorsMessage (report : ActionReport P C H) : String :=
  let numErrors := report.pathClosureErrors.length + report.pathHandlingErrors.length
  if 0 < numErrors then
    toString numErrors ++ " store path" ++ plural numErrors ++ " could not be handled:\n" ++
      String.join (report.pathClosureErrors.map fun entry =>
        errorEntry print entry.1 (print.closureError entry.2)) ++
      String.join (report.pathHandlingErrors.map fun entry =>
        errorEntry print entry.1 (print.handlingError entry.2))
  else ""

/-- The message of `report_final_report`. -/
def finalMessage (reportedPathsLeftToHandle : Bool) (report : ActionReport P C H) : String :=
  (if reportedPathsLeftToHandle then "\n" else "") ++
    (toString report.numPathsSkipped ++ " store path" ++ plural report.numPathsSkipped ++ " " ++
      was report.numPathsSkipped ++ " skipped\n") ++
    (toString report.numPathsPushed ++ " store path" ++ plural report.numPathsPushed ++ " " ++
      was report.numPathsPushed ++ " pushed") ++
    (if 0 < report.numPathsPushed then
      ", totalling " ++ HumanReadableByteSize.display report.numBytesPushed ++ "\n"
    else "\n") ++
    errorsMessage print report

/-- `report_final_report`; the flush writes nothing. -/
def reportFinalReport (reporter : RealStopProgressReporter) (report : ActionReport P C H) :
    RealStopProgressReporter :=
  reporter.write (finalMessage print reporter.reportedPathsLeftToHandle report)

/-- One call. -/
def call (reporter : RealStopProgressReporter) : Report P C H → RealStopProgressReporter
  | .pathsLeftToHandle n => reporter.reportPathsLeftToHandle n
  | .pathPushed path numBytes => reporter.reportPathPushed print path numBytes
  | .pathSkipped path => reporter.reportPathSkipped print path
  | .pathHandlingError path error => reporter.reportPathHandlingError print path error
  | .finalReport report => reporter.reportFinalReport print report

/-! ## What is received -/

/-- The message of a call; `reported` says whether the number of paths left has
been reported before. -/
def message (reported : Bool) : Report P C H → String
  | .pathsLeftToHandle n => (pathsLeftMessage n).getD ""
  | .pathPushed path _ => "Pushed " ++ print.path path ++ "\n"
  | .pathSkipped path => "Skipped " ++ print.path path ++ "\n"
  | .pathHandlingError path _ => "Failed handling " ++ print.path path ++ "\n"
  | .finalReport report => finalMessage print reported report

/-- The call sets the flag of the reporter. -/
def announces : Report P C H → Bool
  | .pathsLeftToHandle n => (pathsLeftMessage n).isSome
  | _ => false

/-- The messages of the calls, one after the other. -/
def messages (reported : Bool) : List (Report P C H) → String
  | [] => ""
  | report :: rest => message print reported report ++ messages (reported || announces report) rest

section Reliable

variable {reporter : RealStopProgressReporter}

theorem write_of_reliable (reliable : reporter.writer.Reliable) (msg : String) :
    (reporter.write msg).writer.received = reporter.writer.received ++ utf8 msg ∧
      (reporter.write msg).writer.Reliable :=
  Socket.writeAll_of_reliable reliable (utf8 msg)

/-- A writer that takes everything has got the whole message. -/
theorem call_of_reliable (reliable : reporter.writer.Reliable) (report : Report P C H) :
    (reporter.call print report).writer.received =
        reporter.writer.received ++
          utf8 (message print reporter.reportedPathsLeftToHandle report) ∧
      (reporter.call print report).writer.Reliable ∧
      (reporter.call print report).reportedPathsLeftToHandle =
        (reporter.reportedPathsLeftToHandle || announces report) := by
  have written := write_of_reliable reliable
  rcases report with n | ⟨path, numBytes⟩ | path | ⟨path, e⟩ | report
  · unfold call reportPathsLeftToHandle message announces
    dsimp only
    rcases pathsLeftMessage n with _ | msg
    · exact ⟨by simp [utf8], reliable, by simp⟩
    · exact ⟨(written msg).1, (written msg).2, by simp⟩
  · exact ⟨(written _).1, (written _).2, (Bool.or_false _).symm⟩
  · exact ⟨(written _).1, (written _).2, (Bool.or_false _).symm⟩
  · exact ⟨(written _).1, (written _).2, (Bool.or_false _).symm⟩
  · exact ⟨(written _).1, (written _).2, (Bool.or_false _).symm⟩

/-- **Over a reliable socket the client receives every message**, in the order
of the calls. -/
theorem received_of_reliable (reports : List (Report P C H))
    (reliable : reporter.writer.Reliable) :
    (reports.foldl (call print) reporter).writer.received =
      reporter.writer.received ++
        utf8 (messages print reporter.reportedPathsLeftToHandle reports) := by
  induction reports generalizing reporter with
  | nil => simp [messages, utf8]
  | cons report rest ih =>
      obtain ⟨received, still, flag⟩ := call_of_reliable print reliable report
      rw [List.foldl_cons, ih still, received, flag, messages, utf8_append, List.append_assoc]

end Reliable

end RealStopProgressReporter

end EventLoop

end CacheAction
