import Enfold.Foundation.Delimited

/-! The read loop of a daemon connection: reads fill a buffer, and every complete line of the buffer
goes to the frame handler. How a stream is split into reads makes no difference. -/
namespace Enfold

abbrev Bytes := List UInt8

def lineEnd : UInt8 := 10

/-- How a connection ends: the peer closed, the handler did, or a frame passed the limit. -/
inductive Ending where
  | endOfStream
  | closed
  | frameTooLarge
  deriving DecidableEq, Repr

structure Passed (σ : Type) where
  state : σ
  frames : List Bytes
  deriving DecidableEq, Repr

inductive Drained (σ : Type) where
  /-- No complete line is left in the buffer. -/
  | waiting (passed : Passed σ) (buffer : Bytes)
  | ended (passed : Passed σ) (ending : Ending)
  deriving DecidableEq, Repr

section Loop
variable {σ : Type} (handleFrame : σ → Bytes → Bool × σ) (maxFrameBytes : Nat)

/-- The inner loop: every complete line of the buffer, in order. -/
def drain (passed : Passed σ) (buffer : Bytes) : Drained σ :=
  match _found : Delimited.cut lineEnd buffer with
  | none => if maxFrameBytes < buffer.length then .ended passed .frameTooLarge else .waiting passed buffer
  | some (frame, rest) =>
    if maxFrameBytes < frame.length then .ended passed .frameTooLarge
    else
      let (keepOpen, state) := handleFrame passed.state frame
      let passed := ⟨state, passed.frames ++ [frame]⟩
      if keepOpen then drain passed rest else .ended passed .closed
termination_by buffer.length
decreasing_by exact Delimited.cutShorter _found

/-- The outer loop over what `recv` returns; behind the last read, and for an empty one, the stream
has ended. -/
def receive (passed : Passed σ) (buffer : Bytes) : List Bytes → Passed σ × Ending
  | [] => (passed, .endOfStream)
  | chunk :: reads =>
    if chunk = [] then (passed, .endOfStream)
    else match drain handleFrame maxFrameBytes passed (buffer ++ chunk) with
      | .ended passed ending => (passed, ending)
      | .waiting passed buffer => receive passed buffer reads

/-- `_serve_client`. -/
def serveClient (state : σ) (reads : List Bytes) : Passed σ × Ending :=
  receive handleFrame maxFrameBytes ⟨state, []⟩ [] reads

end Loop

/-! ## Growing buffers -/

section Growing
variable {σ : Type} {handleFrame : σ → Bytes → Bool × σ} {maxFrameBytes : Nat} {passed passed' : Passed σ}
  {buffer rest : Bytes}

theorem drainOpen (found : Delimited.cut lineEnd buffer = none) :
    drain handleFrame maxFrameBytes passed buffer =
      if maxFrameBytes < buffer.length then .ended passed .frameTooLarge else .waiting passed buffer := by
  rw [drain]
  split
  · rfl
  · rename_i complete
    cases found.symm.trans complete

theorem drainLong {frame : Bytes} (found : Delimited.cut lineEnd buffer = some (frame, rest))
    (long : maxFrameBytes < frame.length) :
    drain handleFrame maxFrameBytes passed buffer = .ended passed .frameTooLarge := by
  rw [drain]
  split
  · rename_i open'
    cases found.symm.trans open'
  · rename_i frame' rest' found'
    cases found.symm.trans found'
    exact if_pos long

theorem drainLine {frame : Bytes} {keepOpen : Bool} {state : σ}
    (found : Delimited.cut lineEnd buffer = some (frame, rest)) (short : ¬ maxFrameBytes < frame.length)
    (handled : handleFrame passed.state frame = (keepOpen, state)) :
    drain handleFrame maxFrameBytes passed buffer =
      if keepOpen then drain handleFrame maxFrameBytes ⟨state, passed.frames ++ [frame]⟩ rest
      else .ended ⟨state, passed.frames ++ [frame]⟩ .closed := by
  rw [drain]
  split
  · rename_i open'
    cases found.symm.trans open'
  · rename_i frame' rest' found'
    cases found.symm.trans found'
    rw [if_neg short, handled]

theorem drainEmpty : drain handleFrame maxFrameBytes passed [] = .waiting passed [] :=
  drainOpen rfl

theorem drainWaiting (h : drain handleFrame maxFrameBytes passed buffer = .waiting passed' rest) :
    Delimited.cut lineEnd rest = none ∧ rest.length ≤ maxFrameBytes := by
  induction passed, buffer using drain.induct handleFrame maxFrameBytes with
  | case1 passed buffer found long =>
    rw [drainOpen found, if_pos long] at h
    cases h
  | case2 passed buffer found short =>
    rw [drainOpen found, if_neg short] at h
    cases h
    exact ⟨found, Nat.le_of_not_lt short⟩
  | case3 passed buffer frame tail found long =>
    rw [drainLong found long] at h
    cases h
  | case4 passed buffer frame tail found short state next handled ih =>
    rw [drainLine found short handled, if_pos rfl] at h
    exact ih h
  | case5 passed buffer frame tail found short keepOpen state handled closed =>
    rw [drainLine found short handled, if_neg closed] at h
    cases h

theorem drainMore (h : drain handleFrame maxFrameBytes passed buffer = .waiting passed' rest) (more : Bytes) :
    drain handleFrame maxFrameBytes passed (buffer ++ more) =
      drain handleFrame maxFrameBytes passed' (rest ++ more) := by
  induction passed, buffer using drain.induct handleFrame maxFrameBytes with
  | case1 passed buffer found long =>
    rw [drainOpen found, if_pos long] at h
    cases h
  | case2 passed buffer found short =>
    rw [drainOpen found, if_neg short] at h
    cases h
    rfl
  | case3 passed buffer frame tail found long =>
    rw [drainLong found long] at h
    cases h
  | case4 passed buffer frame tail found short state next handled ih =>
    rw [drainLine found short handled, if_pos rfl] at h
    rw [drainLine (Delimited.cutAppend found more) short handled, if_pos rfl]
    exact ih h
  | case5 passed buffer frame tail found short keepOpen state handled closed =>
    rw [drainLine found short handled, if_neg closed] at h
    cases h

theorem drainEnded {ending : Ending}
    (h : drain handleFrame maxFrameBytes passed buffer = .ended passed' ending) (more : Bytes) :
    drain handleFrame maxFrameBytes passed (buffer ++ more) = .ended passed' ending := by
  induction passed, buffer using drain.induct handleFrame maxFrameBytes with
  | case1 passed buffer found long =>
    rw [drainOpen found, if_pos long] at h
    cases h
    -- the line is too long before its end is seen, and no shorter when it is
    have extended := Delimited.cutLater found more
    cases next : Delimited.cut lineEnd more with
    | none =>
      rw [next] at extended
      rw [drainOpen extended, if_pos]
      rw [List.length_append]
      omega
    | some next' =>
      obtain ⟨piece, tail⟩ := next'
      rw [next] at extended
      refine drainLong extended ?_
      rw [List.length_append]
      omega
  | case2 passed buffer found short =>
    rw [drainOpen found, if_neg short] at h
    cases h
  | case3 passed buffer frame tail found long =>
    rw [drainLong found long] at h
    cases h
    exact drainLong (Delimited.cutAppend found more) long
  | case4 passed buffer frame tail found short state next handled ih =>
    rw [drainLine found short handled, if_pos rfl] at h
    rw [drainLine (Delimited.cutAppend found more) short handled, if_pos rfl]
    exact ih h
  | case5 passed buffer frame tail found short keepOpen state handled closed =>
    rw [drainLine found short handled, if_neg closed] at h
    rw [drainLine (Delimited.cutAppend found more) short handled, if_neg closed]
    exact h

/-! ## Streams -/

def wholeStream (handleFrame : σ → Bytes → Bool × σ) (maxFrameBytes : Nat) (passed : Passed σ)
    (stream : Bytes) : Passed σ × Ending :=
  match drain handleFrame maxFrameBytes passed stream with
  | .ended passed ending => (passed, ending)
  | .waiting passed _ => (passed, .endOfStream)

theorem receiveWhole {reads : List Bytes} (some' : ∀ chunk ∈ reads, chunk ≠ [])
    (waits : drain handleFrame maxFrameBytes passed buffer = .waiting passed buffer) :
    receive handleFrame maxFrameBytes passed buffer reads =
      wholeStream handleFrame maxFrameBytes passed (buffer ++ reads.flatten) := by
  induction reads generalizing passed buffer with
  | nil => rw [receive, wholeStream, List.flatten_nil, List.append_nil, waits]
  | cons chunk reads ih =>
    rw [receive, if_neg (some' chunk List.mem_cons_self), List.flatten_cons, ← List.append_assoc]
    cases first : drain handleFrame maxFrameBytes passed (buffer ++ chunk) with
    | ended passed' ending => rw [wholeStream, drainEnded first]
    | waiting passed' rest =>
      obtain ⟨found, short⟩ := drainWaiting first
      have still : drain handleFrame maxFrameBytes passed' rest = .waiting passed' rest := by
        rw [drainOpen found, if_neg (Nat.not_lt_of_le short)]
      rw [wholeStream, drainMore first]
      exact ih (fun other inside => some' other (List.mem_cons_of_mem _ inside)) still

/-- The invariant rule: `P` while the connection is open, `Q` however it ends. -/
theorem drainInvariant (maxFrameBytes : Nat) (buffer : Bytes) {P Q : σ → Prop}
    (kept : ∀ state frame, P state → (handleFrame state frame).1 = true → P (handleFrame state frame).2)
    (left : ∀ state frame, P state → (handleFrame state frame).1 = false → Q (handleFrame state frame).2)
    (weaker : ∀ state, P state → Q state) (init : P passed.state) :
    match drain handleFrame maxFrameBytes passed buffer with
    | .waiting passed _ => P passed.state
    | .ended passed _ => Q passed.state := by
  induction passed, buffer using drain.induct handleFrame maxFrameBytes with
  | case1 passed buffer found long =>
    rw [drainOpen found, if_pos long]
    exact weaker _ init
  | case2 passed buffer found short =>
    rw [drainOpen found, if_neg short]
    exact init
  | case3 passed buffer frame tail found long =>
    rw [drainLong found long]
    exact weaker _ init
  | case4 passed buffer frame tail found short state next handled ih =>
    rw [drainLine found short handled, if_pos rfl]
    have step := kept passed.state frame init
    rw [handled] at step
    exact ih (step rfl)
  | case5 passed buffer frame tail found short keepOpen state handled closed =>
    rw [drainLine found short handled, if_neg closed]
    have step := left passed.state frame init
    rw [handled] at step
    exact step (by simpa using closed)

theorem serveInvariant {P Q : σ → Prop}
    (kept : ∀ state frame, P state → (handleFrame state frame).1 = true → P (handleFrame state frame).2)
    (left : ∀ state frame, P state → (handleFrame state frame).1 = false → Q (handleFrame state frame).2)
    (weaker : ∀ state, P state → Q state) {state : σ} (init : P state) {reads : List Bytes} :
    Q (serveClient handleFrame maxFrameBytes state reads).1.state := by
  have run (passed : Passed σ) (buffer : Bytes) (init : P passed.state) :
      Q (receive handleFrame maxFrameBytes passed buffer reads).1.state := by
    induction reads generalizing passed buffer with
    | nil => exact weaker _ init
    | cons chunk reads ih =>
      rw [receive]
      split
      · exact weaker _ init
      · have step := drainInvariant maxFrameBytes (buffer ++ chunk) kept left weaker init
        split
        · rename_i passed' ending first
          rw [first] at step
          exact step
        · rename_i passed' rest first
          rw [first] at step
          exact ih passed' rest step
  exact run ⟨state, []⟩ [] init

/-- Two splittings of one stream pass the same frames and end the same way, whatever the handler does. -/
theorem framingUnchunked {σ : Type} (handleFrame : σ → Bytes → Bool × σ) (maxFrameBytes : Nat) (state : σ)
    {reads reads' : List Bytes} (some' : ∀ chunk ∈ reads, chunk ≠ []) (some'' : ∀ chunk ∈ reads', chunk ≠ [])
    (same : reads.flatten = reads'.flatten) :
    serveClient handleFrame maxFrameBytes state reads = serveClient handleFrame maxFrameBytes state reads' := by
  rw [serveClient, serveClient, receiveWhole some' drainEmpty, receiveWhole some'' drainEmpty, same]

end Growing

namespace Example

def untilEmpty : Unit → Bytes → Bool × Unit := fun state frame => (frame ≠ [], state)

theorem framingUnchunkedHere :
    serveClient untilEmpty 2 () [[65, 65], [10, 66, 10], [10, 67]] =
      serveClient untilEmpty 2 () [[65], [65, 10, 66], [10, 10, 67]] :=
  framingUnchunked untilEmpty 2 () (by decide) (by decide) (by decide)

end Example
end Enfold
