import Mathlib.Data.List.Forall2
import ReversibleMips.Proofs.TapeAccounts

/-!
# Calls of a tape

A tape is read, written and rewound in any order.  A read of the tape reads its source until
there is a byte or a failure, but not without end.  What one call does is said first.  From
this follows, call by call, that no byte of the source is lost or comes twice, that the sink
gets the bytes that were written and nothing else, and that the counters count both since the
tape was last rewound.
-/

namespace ReversibleMips

namespace Delivery

def byte? : Delivery → Option UInt8
  | byte value => some value
  | byteAndFailure value => some value
  | empty => none
  | failure => none

end Delivery

/-- The sink as it takes the next byte: it accepts it, or refuses it for a reason. -/
def Sink.taking (sink : Sink) : Option String → Sink
  | none => { sink with limit := none }
  | some reason => { sink with limit := some 0, refusal := reason }

theorem TapeError.message_refused (reason : String) :
    (refused reason).message = closed.message ++ ("\n" ++ reason) := by
  have split : "channel has no output\n" = "channel has no output" ++ "\n" := by decide
  exact (congrArg (· ++ reason) split).trans (String.append_assoc ..)

namespace Tape

/-- What the reads of a source deliver that one read of a tape makes, up to some number of
them, and the byte that comes of it. -/
structure Reading (bound : Nat) (made : List Delivery) (result : Option UInt8) : Prop where
  some : made ≠ []
  bounded : made.length ≤ bound
  waits : ∀ delivery ∈ made.dropLast, delivery = .empty
  /-- The last read has a byte or a failure, unless there may be no more reads. -/
  stops : made.length < bound → made.getLast? ≠ Option.some .empty
  delivers : made.filterMap Delivery.byte? = result.toList
  ended : result = none ↔
    made.getLast? = Option.some .failure ∨ made = List.replicate bound .empty

theorem Reading.single {delivery : Delivery} (found : delivery ≠ .empty) (bound : Nat) :
    Reading (bound + 1) [delivery] delivery.byte? where
  some := List.cons_ne_nil _ _
  bounded := by simp
  waits := by simp
  stops := by simp [found]
  delivers := by cases delivery <;> rfl
  ended := by
    have several : [delivery] ≠ List.replicate (bound + 1) .empty := by
      rw [List.replicate_succ]
      intro same
      exact found (List.cons.inj same).1
    simp only [several, or_false, List.getLast?_singleton, Option.some.injEq]
    cases delivery with
    | empty => exact absurd rfl found
    | failure => simp [Delivery.byte?]
    | byte value => simp [Delivery.byte?]
    | byteAndFailure value => simp [Delivery.byte?]

theorem Reading.last : Reading 1 [.empty] none where
  some := List.cons_ne_nil _ _
  bounded := Nat.le_refl 1
  waits := by simp
  stops := by simp
  delivers := rfl
  ended := by simp

theorem Reading.wait {bound : Nat} {made : List Delivery} {result : Option UInt8}
    (reading : Reading bound made result) : Reading (bound + 1) (.empty :: made) result where
  some := List.cons_ne_nil _ _
  bounded := Nat.succ_le_succ reading.bounded
  waits := by
    intro delivery member
    rw [List.dropLast_cons_of_ne_nil reading.some, List.mem_cons] at member
    rcases member with rfl | later
    · rfl
    · exact reading.waits delivery later
  stops := by
    intro fewer
    rw [List.getLast?_cons_of_ne_nil reading.some]
    exact reading.stops (Nat.lt_of_succ_lt_succ fewer)
  delivers := reading.delivers
  ended := by
    rw [List.getLast?_cons_of_ne_nil reading.some, List.replicate_succ, List.cons.injEq]
    simpa using reading.ended

/-- What the reads of a source deliver, by their numbers.  A source that has ended fails. -/
def scriptOf (source : List Delivery) (place : Nat) : Delivery := source.getD place .failure

/-- Some reads of a source, and the source behind them. -/
structure Consumes (source made rest : List Delivery) : Prop where
  made_eq : made = (List.range made.length).map (scriptOf source)
  behind : ∀ place, scriptOf rest place = scriptOf source (made.length + place)

theorem scriptOf_tail (source : List Delivery) (place : Nat) :
    scriptOf source.tail place = scriptOf source (place + 1) := by
  cases source with
  | nil => rfl
  | cons delivery source => rfl

theorem consumes_nothing (source : List Delivery) : Consumes source [] source where
  made_eq := rfl
  behind := by simp

theorem Consumes.first {source made rest : List Delivery}
    (consumes : Consumes source.tail made rest) :
    Consumes source (scriptOf source 0 :: made) rest where
  made_eq := by
    rw [List.length_cons, List.range_succ_eq_map, List.map_cons, List.map_map]
    have later : (List.range made.length).map (scriptOf source.tail) =
        (List.range made.length).map (scriptOf source ∘ Nat.succ) :=
      List.map_congr_left fun place _ => scriptOf_tail source place
    rw [← later, ← consumes.made_eq]
  behind := by
    intro place
    rw [consumes.behind, scriptOf_tail, List.length_cons, Nat.add_right_comm]

theorem Consumes.trans {source made middle later rest : List Delivery}
    (before : Consumes source made middle) (after : Consumes middle later rest) :
    Consumes source (made ++ later) rest where
  made_eq := by
    have laterEq : later = (List.range later.length).map
        fun place => scriptOf source (made.length + place) := by
      rw [← funext before.behind]
      exact after.made_eq
    rw [List.length_append, List.range_add, List.map_append, List.map_map, ← before.made_eq]
    exact congrArg (made ++ ·) laterEq
  behind := by
    intro place
    rw [after.behind, before.behind, List.length_append, Nat.add_assoc]

theorem nextByte_of_empty {source : List Delivery} (isEmpty : scriptOf source 0 = .empty)
    (attempts : Nat) : nextByte (attempts + 1) source = nextByte attempts source.tail := by
  cases source with
  | nil => cases isEmpty
  | cons delivery source =>
      obtain rfl : delivery = .empty := isEmpty
      rfl

theorem nextByte_of_found {source : List Delivery} (found : scriptOf source 0 ≠ .empty)
    (attempts : Nat) :
    nextByte (attempts + 1) source = ((scriptOf source 0).byte?, source.tail) := by
  cases source with
  | nil => rfl
  | cons delivery source =>
      cases delivery with
      | empty => exact absurd rfl found
      | failure => rfl
      | byte value => rfl
      | byteAndFailure value => rfl

theorem reading_nextByte (attempts : Nat) (source : List Delivery) :
    ∃ made, Reading (attempts + 1) made (nextByte (attempts + 1) source).1 ∧
      Consumes source made (nextByte (attempts + 1) source).2 := by
  induction attempts generalizing source with
  | zero =>
      by_cases isEmpty : scriptOf source 0 = .empty
      · have consumes := (consumes_nothing source.tail).first
        rw [isEmpty] at consumes
        rw [nextByte_of_empty isEmpty]
        exact ⟨[.empty], .last, consumes⟩
      · rw [nextByte_of_found isEmpty]
        exact ⟨_, .single isEmpty 0, (consumes_nothing source.tail).first⟩
  | succ attempts ih =>
      by_cases isEmpty : scriptOf source 0 = .empty
      · obtain ⟨made, reading, consumes⟩ := ih source.tail
        have consumes := consumes.first
        rw [isEmpty] at consumes
        rw [nextByte_of_empty isEmpty]
        exact ⟨_, reading.wait, consumes⟩
      · rw [nextByte_of_found isEmpty]
        exact ⟨_, .single isEmpty _, (consumes_nothing source.tail).first⟩

/-- One read of a tape makes some reads of its source, and counts the byte that comes of them. -/
theorem reading_read {tape : Tape} {source : List Delivery} (isOpen : tape.input = some source) :
    ∃ made rest, Reading maxEmptyReads made tape.read.1 ∧ Consumes source made rest ∧
      tape.read.2 =
        { tape with
          input := some rest
          bytesRead := tape.bytesRead + tape.read.1.toList.length } := by
  obtain ⟨made, reading, consumes⟩ := reading_nextByte 99 source
  have readEq : tape.read =
      ((nextByte maxEmptyReads source).1,
        { tape with
          input := some (nextByte maxEmptyReads source).2
          bytesRead :=
            tape.bytesRead + (nextByte maxEmptyReads source).1.toList.length }) := by
    rw [read, isOpen]
    simp only
    split
    · rename_i rest nothing
      rw [nothing]
      rfl
    · rename_i value rest found
      rw [found]
      rfl
  rw [readEq]
  exact ⟨made, _, reading, consumes, rfl⟩

inductive Call where
  | read
  /-- A byte is written to a sink that accepts it, or refuses it for a reason. -/
  | write (value : UInt8) (refusal : Option String)
  | rewind
deriving DecidableEq

inductive Reply where
  | read (result : Option UInt8)
  | write (value : UInt8) (error : Option TapeError)
  | rewind
deriving DecidableEq

namespace Reply

def result? : Reply → Option (Option UInt8)
  | read result => some result
  | _ => none

def byteRead? : Reply → Option UInt8
  | read result => result
  | _ => none

def byteWritten? : Reply → Option UInt8
  | write value none => some value
  | _ => none

def sinceRewind (replies : List Reply) : List Reply :=
  (replies.reverse.takeWhile (· ≠ rewind)).reverse

end Reply

def call (tape : Tape) : Call → Reply × Tape
  | .read => (.read tape.read.1, tape.read.2)
  | .write value refusal =>
      let output := tape.output.map fun sink => sink.taking refusal
      let ready : Tape := { tape with output := output }
      match ready.write value with
      | .ok later => (.write value none, later)
      | .error error => (.write value (some error), ready)
  | .rewind => (.rewind, tape.rewind)

def callAll (tape : Tape) : List Call → List Reply × Tape
  | [] => ([], tape)
  | call :: calls =>
      let later := (tape.call call).2.callAll calls
      ((tape.call call).1 :: later.1, later.2)

/-- Everything that a call can do. -/
inductive Calls (tape : Tape) : Call → Reply → Tape → Prop
  | readNone (closed : tape.input = none) : Calls tape .read (.read none) tape
  | read {source made rest : List Delivery} {result : Option UInt8}
      (isOpen : tape.input = some source) (reading : Reading maxEmptyReads made result)
      (consumes : Consumes source made rest) :
      Calls tape .read (.read result)
        { tape with input := some rest, bytesRead := tape.bytesRead + result.toList.length }
  | writeClosed (closed : tape.output = none) (value : UInt8) (refusal : Option String) :
      Calls tape (.write value refusal) (.write value (some .closed)) tape
  | writeAccepted {sink : Sink} (isOpen : tape.output = some sink) (value : UInt8) :
      Calls tape (.write value none) (.write value none)
        { tape with
          output := some { sink.taking none with bytes := sink.bytes ++ sink.stored value }
          bytesWritten := tape.bytesWritten + 1 }
  | writeRefused {sink : Sink} (isOpen : tape.output = some sink) (value : UInt8)
      (reason : String) :
      Calls tape (.write value (some reason)) (.write value (some (.refused reason)))
        { tape with output := some (sink.taking (some reason)) }
  | rewind : Calls tape .rewind .rewind tape.rewind

theorem call_write_refused {tape : Tape} {sink : Sink} (isOpen : tape.output = some sink)
    (value : UInt8) (reason : String) :
    tape.call (.write value (some reason)) =
      (.write value (some (.refused reason)),
        { tape with output := some (sink.taking (some reason)) }) := by
  obtain ⟨input, output, bytesRead, bytesWritten⟩ := tape
  cases isOpen
  have positive : 0 < ((sink.taking (some reason)).stored value).length := by
    unfold Sink.stored
    split
    · simp
    · simp
  have full : (sink.taking (some reason)).hasRoom
      ((sink.taking (some reason)).stored value).length = false := by
    apply decide_eq_false
    omega
  simp only [call, Option.map_some, write, Sink.accept, full]
  rfl

theorem calls_call (tape : Tape) (call : Call) :
    Calls tape call (tape.call call).1 (tape.call call).2 := by
  cases call with
  | read =>
      change Calls tape .read (.read tape.read.1) tape.read.2
      cases isOpen : tape.input with
      | none =>
          have nothing : tape.read = (none, tape) := by rw [Tape.read, isOpen]
          rw [nothing]
          exact .readNone isOpen
      | some source =>
          obtain ⟨made, rest, reading, consumes, later⟩ := reading_read isOpen
          rw [later]
          exact .read isOpen reading consumes
  | write value refusal =>
      cases isOpen : tape.output with
      | none =>
          have closed : tape.call (.write value refusal) = (.write value (some .closed), tape) := by
            obtain ⟨input, output, bytesRead, bytesWritten⟩ := tape
            cases isOpen
            rfl
          rw [closed]
          exact .writeClosed isOpen value refusal
      | some sink =>
          cases refusal with
          | none =>
              have accepted := Calls.writeAccepted isOpen value
              obtain ⟨input, output, bytesRead, bytesWritten⟩ := tape
              cases isOpen
              exact accepted
          | some reason =>
              rw [call_write_refused isOpen]
              exact .writeRefused isOpen value reason
  | rewind => exact .rewind

/-- What holds of a tape at first and is kept by every call, holds behind all calls. -/
theorem callAll_induction {holds : List Reply → Tape → Prop} {tape : Tape}
    (start : holds [] tape)
    (kept : ∀ replies tape call reply later, Calls tape call reply later → holds replies tape →
      holds (replies ++ [reply]) later)
    (calls : List Call) : holds (tape.callAll calls).1 (tape.callAll calls).2 := by
  have behind : ∀ calls replies tape, holds replies tape →
      holds (replies ++ (tape.callAll calls).1) (tape.callAll calls).2 := by
    intro calls
    induction calls with
    | nil =>
        intro replies tape earlier
        rw [callAll, List.append_nil]
        exact earlier
    | cons call calls ih =>
        intro replies tape earlier
        have later := ih _ _ (kept replies tape call _ _ (calls_call tape call) earlier)
        rwa [List.append_assoc, List.singleton_append] at later
  exact behind calls [] tape start

/-- The reads that were made of a source, by the replies that a tape gave, and the tape has the
source behind them as its input. -/
def ReadSoFar (source : List Delivery) (replies : List Reply) (tape : Tape) : Prop :=
  ∃ made rest, tape.input = some rest ∧ Consumes source made.flatten rest ∧
    List.Forall₂ (Reading maxEmptyReads) made (replies.filterMap Reply.result?)

theorem ReadSoFar.call {source : List Delivery} {replies : List Reply} {tape later : Tape}
    {call : Call} {reply : Reply} (calls : Calls tape call reply later)
    (earlier : ReadSoFar source replies tape) : ReadSoFar source (replies ++ [reply]) later := by
  obtain ⟨made, rest, input, consumes, readings⟩ := earlier
  have unread : reply.result? = none → later.input = some rest →
      ReadSoFar source (replies ++ [reply]) later := by
    intro noResult sameInput
    refine ⟨made, rest, sameInput, consumes, ?_⟩
    rw [List.filterMap_append, List.filterMap_cons_none noResult, List.filterMap_nil,
      List.append_nil]
    exact readings
  cases calls with
  | readNone closed =>
      rw [closed] at input
      cases input
  | @read reached more behind result isOpen reading further =>
      rw [input] at isOpen
      cases isOpen
      refine ⟨made ++ [more], behind, rfl, ?_, ?_⟩
      · rw [List.flatten_concat]
        exact consumes.trans further
      · rw [List.filterMap_append]
        exact List.rel_append readings (.cons reading .nil)
  | writeClosed closed value refusal => exact unread rfl input
  | writeAccepted isOpen value => exact unread rfl input
  | writeRefused isOpen value reason => exact unread rfl input
  | rewind => exact unread rfl input

/-- A tape has no input, and no read has had a byte, by the replies that the tape gave. -/
structure NothingSoFar (replies : List Reply) (tape : Tape) : Prop where
  input : tape.input = none
  results : ∀ result ∈ replies.filterMap Reply.result?, result = none

theorem NothingSoFar.call {replies : List Reply} {tape later : Tape} {call : Call} {reply : Reply}
    (calls : Calls tape call reply later) (earlier : NothingSoFar replies tape) :
    NothingSoFar (replies ++ [reply]) later := by
  have unread : later.input = none → (∀ result ∈ reply.result?, result = none) →
      NothingSoFar (replies ++ [reply]) later := by
    intro closed nothing
    refine ⟨closed, fun result member => ?_⟩
    rw [List.filterMap_append, List.mem_append, List.filterMap_eq_flatMap_toList _ [reply],
      List.flatMap_singleton, Option.mem_toList] at member
    rcases member with old | new
    · exact earlier.results result old
    · exact nothing result new
  cases calls with
  | readNone closed => exact unread closed (by simp [Reply.result?])
  | read isOpen reading consumes =>
      rw [earlier.input] at isOpen
      cases isOpen
  | writeClosed closed value refusal => exact unread earlier.input (by simp [Reply.result?])
  | writeAccepted isOpen value => exact unread earlier.input (by simp [Reply.result?])
  | writeRefused isOpen value reason => exact unread earlier.input (by simp [Reply.result?])
  | rewind => exact unread earlier.input (by simp [Reply.result?])

/-- The output of a tape has what a sink had, and behind it the bytes that were written, by the
replies that the tape gave. -/
def WrittenSoFar (sink : Sink) (replies : List Reply) (tape : Tape) : Prop :=
  ∃ later, tape.output = some later ∧ later.carriageReturns = sink.carriageReturns ∧
    later.bytes.toList =
      sink.bytes.toList ++ (replies.filterMap Reply.byteWritten?).flatMap sink.stored

theorem WrittenSoFar.call {sink : Sink} {replies : List Reply} {tape later : Tape} {call : Call}
    {reply : Reply} (calls : Calls tape call reply later)
    (earlier : WrittenSoFar sink replies tape) : WrittenSoFar sink (replies ++ [reply]) later := by
  obtain ⟨reached, output, style, stored⟩ := earlier
  have unwritten : reply.byteWritten? = none → ∀ next : Sink, later.output = some next →
      next.carriageReturns = reached.carriageReturns → next.bytes = reached.bytes →
      WrittenSoFar sink (replies ++ [reply]) later := by
    intro nothing next sameOutput sameStyle sameBytes
    refine ⟨next, sameOutput, sameStyle.trans style, ?_⟩
    rw [sameBytes, stored, List.filterMap_append, List.filterMap_cons_none nothing,
      List.filterMap_nil, List.append_nil]
  cases calls with
  | readNone closed => exact unwritten rfl reached output rfl rfl
  | read isOpen reading consumes => exact unwritten rfl reached output rfl rfl
  | writeClosed closed value refusal =>
      rw [closed] at output
      cases output
  | writeAccepted isOpen value =>
      rw [output] at isOpen
      cases isOpen
      refine ⟨_, rfl, style, ?_⟩
      have written : [Reply.write value none].filterMap Reply.byteWritten? = [value] := rfl
      rw [List.filterMap_append, written, List.flatMap_append, List.flatMap_singleton,
        Array.toList_appendList, stored, Sink.stored_eq style, List.append_assoc]
  | writeRefused isOpen value reason =>
      rw [output] at isOpen
      cases isOpen
      exact unwritten rfl _ rfl rfl rfl
  | rewind => exact unwritten rfl reached output rfl rfl

/-- The counters of a tape say how many bytes were read and written since it was rewound, by the
replies that the tape gave. -/
structure CountedSoFar (replies : List Reply) (tape : Tape) : Prop where
  bytesRead : tape.bytesRead = ((Reply.sinceRewind replies).filterMap Reply.byteRead?).length
  bytesWritten :
    tape.bytesWritten = ((Reply.sinceRewind replies).filterMap Reply.byteWritten?).length

theorem Reply.sinceRewind_concat (replies : List Reply) (reply : Reply) :
    sinceRewind (replies ++ [reply]) =
      if reply = .rewind then [] else sinceRewind replies ++ [reply] := by
  rw [sinceRewind, List.reverse_concat, List.takeWhile_cons]
  by_cases isRewind : reply = .rewind
  · simp [isRewind]
  · simp [isRewind, sinceRewind]

theorem CountedSoFar.call {replies : List Reply} {tape later : Tape} {call : Call}
    {reply : Reply} (calls : Calls tape call reply later)
    (earlier : CountedSoFar replies tape) : CountedSoFar (replies ++ [reply]) later := by
  obtain ⟨bytesRead, bytesWritten⟩ := earlier
  have counted : reply ≠ .rewind →
      later.bytesRead = tape.bytesRead + reply.byteRead?.toList.length →
      later.bytesWritten = tape.bytesWritten + reply.byteWritten?.toList.length →
      CountedSoFar (replies ++ [reply]) later := by
    intro notRewound laterRead laterWritten
    constructor
    · rw [Reply.sinceRewind_concat, if_neg notRewound, List.filterMap_append, List.length_append,
        List.filterMap_eq_flatMap_toList _ [reply], List.flatMap_singleton, laterRead, bytesRead]
    · rw [Reply.sinceRewind_concat, if_neg notRewound, List.filterMap_append, List.length_append,
        List.filterMap_eq_flatMap_toList _ [reply], List.flatMap_singleton, laterWritten,
        bytesWritten]
  cases calls with
  | readNone closed => exact counted (by simp) rfl rfl
  | read isOpen reading consumes => exact counted (by simp) rfl rfl
  | writeClosed closed value refusal => exact counted (by simp) rfl rfl
  | writeAccepted isOpen value => exact counted (by simp) rfl rfl
  | writeRefused isOpen value reason => exact counted (by simp) rfl rfl
  | rewind =>
      constructor
      · rw [Reply.sinceRewind_concat, if_pos rfl]
        rfl
      · rw [Reply.sinceRewind_concat, if_pos rfl]
        rfl

theorem length_callAll (tape : Tape) (calls : List Call) :
    (tape.callAll calls).1.length = calls.length := by
  induction calls generalizing tape with
  | nil => rfl
  | cons call calls ih => exact congrArg Nat.succ (ih (tape.call call).2)

theorem Calls.isSome_output {tape later : Tape} {call : Call} {reply : Reply}
    (calls : Calls tape call reply later) : later.output.isSome = tape.output.isSome := by
  cases calls with
  | readNone closed => rfl
  | read isOpen reading consumes => rfl
  | writeClosed closed value refusal => rfl
  | writeAccepted isOpen value => rw [isOpen]; rfl
  | writeRefused isOpen value reason => rw [isOpen]; rfl
  | rewind => rfl

def writeError? (hasOutput : Bool) (refusal : Option String) : Option TapeError :=
  if hasOutput then refusal.map .refused else some .closed

theorem Calls.reply_write {tape later : Tape} {value : UInt8} {refusal : Option String}
    {reply : Reply} (calls : Calls tape (.write value refusal) reply later) :
    reply = .write value (writeError? tape.output.isSome refusal) := by
  cases calls with
  | writeClosed closed => rw [closed]; rfl
  | writeAccepted isOpen => rw [isOpen]; rfl
  | writeRefused isOpen => rw [isOpen]; rfl

theorem reply_callAll_write {tape : Tape} {calls : List Call} {index : Nat} {value : UInt8}
    {refusal : Option String} (asked : calls[index]? = some (.write value refusal)) :
    (tape.callAll calls).1[index]? =
      some (.write value (writeError? tape.output.isSome refusal)) := by
  induction calls generalizing tape index with
  | nil => simp at asked
  | cons call calls ih =>
      have first := calls_call tape call
      cases index with
      | zero =>
          obtain rfl : call = .write value refusal := by simpa using asked
          exact congrArg some first.reply_write
      | succ index =>
          have later := @ih (tape.call call).2 index (by simpa using asked)
          rw [first.isSome_output] at later
          exact later

theorem closed_reported (error : TapeError) :
    ∃ more, error.message = TapeError.closed.message ++ more := by
  cases error with
  | closed => exact ⟨"", (String.append_empty ..).symm⟩
  | refused reason => exact ⟨_, TapeError.message_refused reason⟩

section Readings

variable {made : List (List Delivery)} {results : List (Option UInt8)}
    (readings : List.Forall₂ (Reading maxEmptyReads) made results)
include readings

/-- The results of reads are the bytes that the reads of the source delivered. -/
theorem delivered_readings :
    made.flatten.filterMap Delivery.byte? = results.flatMap Option.toList := by
  induction readings with
  | nil => rfl
  | cons reading _ ih =>
      rw [List.flatten_cons, List.filterMap_append, reading.delivers, ih, List.flatMap_cons]

theorem length_readings_le : made.flatten.length ≤ maxEmptyReads * results.length := by
  induction readings with
  | nil => exact Nat.zero_le _
  | cons reading _ ih =>
      have bounded := reading.bounded
      rw [List.flatten_cons, List.length_append, List.length_cons, Nat.mul_succ]
      omega

end Readings

theorem Reply.flatMap_results (replies : List Reply) :
    (replies.filterMap result?).flatMap Option.toList = replies.filterMap byteRead? := by
  induction replies with
  | nil => rfl
  | cons reply replies ih =>
      cases reply with
      | read result =>
          have first : (read result).result? = some result := rfl
          rw [List.filterMap_cons_some first, List.flatMap_cons, ih]
          cases result with
          | none => rfl
          | some value => rfl
      | write value error => exact ih
      | rewind => exact ih

/-- A tape loses and duplicates nothing, whatever the reads of its source deliver and whenever its
sink refuses a byte.  A script says what the reads deliver, one after the other; it need not end,
and the source has to follow it for as many reads as the calls can make.  Each read of the tape
makes some reads of the source, as `Reading` says.  Together these are the first reads of the
script, and the bytes that they delivered are what the reads of the tape gave.  The sink gets the
bytes of the writes that succeeded.  A write fails if there is no output or if the sink refuses the
byte, and reports so; it does not count.  The counters have what was read and written since the
tape was rewound. -/
theorem tape_loses_nothing (input : Option (List Delivery)) (output : Option Sink)
    (calls : List Call) (script : Nat → Delivery)
    (follows : ∀ source, input = some source →
      ∀ place < maxEmptyReads * calls.length, scriptOf source place = script place) :
    let tape : Tape := ⟨input, output, 0, 0⟩
    let replies := (tape.callAll calls).1
    let final := (tape.callAll calls).2
    let written := replies.filterMap Reply.byteWritten?
    (input = none → ∀ result ∈ replies.filterMap Reply.result?, result = none) ∧
    (∀ source, input = some source → ∃ made : List (List Delivery),
      List.Forall₂ (Reading maxEmptyReads) made (replies.filterMap Reply.result?) ∧
      made.flatten = (List.range made.flatten.length).map script ∧
      replies.filterMap Reply.byteRead? = made.flatten.filterMap Delivery.byte? ∧
      ∃ rest, final.input = some rest ∧
        ∀ place, made.flatten.length + place < maxEmptyReads * calls.length →
          scriptOf rest place = script (made.flatten.length + place)) ∧
    (∀ sink, output = some sink → ∃ finalSink, final.output = some finalSink ∧
      finalSink.bytes.toList = sink.bytes.toList ++ written.flatMap sink.stored ∧
      (sink.carriageReturns = false →
        finalSink.bytes.toList = sink.bytes.toList ++ written)) ∧
    (∀ (index : Nat) (value : UInt8) (refusal : Option String),
      calls[index]? = some (.write value refusal) →
        replies[index]? = some (.write value (writeError? output.isSome refusal))) ∧
    (∀ (value : UInt8) (error : TapeError), Reply.write value (some error) ∈ replies →
      ∃ more, error.message = TapeError.closed.message ++ more) ∧
    final.bytesRead = ((Reply.sinceRewind replies).filterMap Reply.byteRead?).length ∧
    final.bytesWritten =
      ((Reply.sinceRewind replies).filterMap Reply.byteWritten?).length := by
  intro tape replies final written
  have counted : CountedSoFar replies final :=
    callAll_induction ⟨rfl, rfl⟩ (fun _ _ _ _ _ => .call) calls
  refine ⟨?_, ?_, ?_, fun index value refusal => reply_callAll_write,
    fun value error _ => closed_reported error, counted.bytesRead, counted.bytesWritten⟩
  · intro closed
    have start : NothingSoFar [] tape := ⟨closed, by simp⟩
    exact (callAll_induction start (fun _ _ _ _ _ => .call) calls).results
  · intro source isOpen
    have start : ReadSoFar source [] tape := ⟨[], source, isOpen, consumes_nothing source, .nil⟩
    obtain ⟨made, rest, reached, consumes, readings⟩ :=
      callAll_induction start (fun _ _ _ _ _ => .call) calls
    have bounded : made.flatten.length ≤ maxEmptyReads * calls.length := by
      apply Nat.le_trans (length_readings_le readings)
      apply Nat.mul_le_mul_left
      rw [← length_callAll tape calls]
      exact List.length_filterMap_le _ _
    refine ⟨made, readings, ?_, ?_, rest, reached, ?_⟩
    · rw [consumes.made_eq, List.length_map, List.length_range]
      apply List.map_congr_left
      intro place inside
      have below := List.mem_range.mp inside
      exact follows source isOpen place (by omega)
    · rw [delivered_readings readings, Reply.flatMap_results]
    · intro place inside
      rw [consumes.behind]
      exact follows source isOpen _ inside
  · intro sink isOpen
    have start : WrittenSoFar sink [] tape := ⟨sink, isOpen, rfl, by simp⟩
    obtain ⟨finalSink, reached, -, stored⟩ :=
      callAll_induction start (fun _ _ _ _ _ => .call) calls
    refine ⟨finalSink, reached, stored, fun plain => ?_⟩
    rw [stored, Sink.flatMap_stored plain]

/-- A source that pauses for as long as it may, has a byte with a failure, fails, and goes on. -/
def interrupted : List Delivery :=
  List.replicate 99 .empty ++ [.byte 0x61, .byteAndFailure 0x62, .failure, .byte 0x63]

/-- The tape is read four times, a write is refused, and the tape is rewound in between. -/
def interleaved : List Call :=
  [.read, .write 0x78 (some "full"), .rewind, .read, .read, .write 0x79 none, .read]

theorem tape_loses_nothing_interrupted :
    let tape : Tape := ⟨some interrupted, some .unlimited, 0, 0⟩
    let replies := (tape.callAll interleaved).1
    let final := (tape.callAll interleaved).2
    replies =
      [.read (some 0x61), .write 0x78 (some (.refused "full")), .rewind, .read (some 0x62),
        .read none, .write 0x79 none, .read (some 0x63)] ∧
    final.bytesRead = 2 ∧ final.bytesWritten = 1 ∧
    (∃ sink, final.output = some sink ∧ sink.bytes.toList = [0x79]) ∧
    ∃ made : List (List Delivery),
      List.Forall₂ (Reading maxEmptyReads) made [some 0x61, some 0x62, none, some 0x63] ∧
      made.flatten.filterMap Delivery.byte? = [0x61, 0x62, 0x63] := by
  intro tape replies final
  have repliesEq : replies =
      [.read (some 0x61), .write 0x78 (some (.refused "full")), .rewind, .read (some 0x62),
        .read none, .write 0x79 none, .read (some 0x63)] := by
    decide +kernel
  obtain ⟨-, read, written, -, -, bytesRead, bytesWritten⟩ :=
    tape_loses_nothing (some interrupted) (some .unlimited) interleaved (scriptOf interrupted)
      (by rintro source ⟨⟩ place _; rfl)
  obtain ⟨made, readings, -, bytes, -⟩ := read interrupted rfl
  obtain ⟨sink, isOpen, -, plain⟩ := written .unlimited rfl
  change List.Forall₂ _ made (replies.filterMap Reply.result?) at readings
  change replies.filterMap Reply.byteRead? = _ at bytes
  have stored : sink.bytes.toList = [] ++ replies.filterMap Reply.byteWritten? := plain rfl
  change final.bytesRead = ((Reply.sinceRewind replies).filterMap Reply.byteRead?).length
    at bytesRead
  change final.bytesWritten = ((Reply.sinceRewind replies).filterMap Reply.byteWritten?).length
    at bytesWritten
  rw [repliesEq] at readings bytes stored bytesRead bytesWritten
  exact ⟨repliesEq, bytesRead, bytesWritten, ⟨sink, isOpen, stored⟩, made, readings, bytes.symm⟩

end Tape
end ReversibleMips
