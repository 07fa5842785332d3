import RpcWire.Proofs.RoundTrip

namespace RpcWire.Message

/-! # Reused buffers

One buffer serves for many messages. Each of them is written over what the
buffer holds, and what it held does not show in the bytes of the message. -/

/-- One message written into a buffer: what was reported, and the buffer then. -/
structure Attempt where
  result : Except Fault Nat
  buffer : Bytes

def attempt (message : Message) (buffer : Bytes) : Attempt :=
  match message.writeInto.run buffer with
  | .ok count after => { result := .ok count, buffer := after }
  | .error fault after => { result := .error fault, buffer := after }

/-- Messages written into the same buffer, one after the other. -/
def attempts : List Message → Bytes → List Attempt
  | [], _ => []
  | message :: rest, buffer =>
      let first := message.attempt buffer
      first :: attempts rest first.buffer

namespace Attempt

/-- The bytes to be sent, none if the message was not written. -/
def front (attempt : Attempt) : Bytes :=
  match attempt.result with
  | .ok count => attempt.buffer.take count
  | .error _ => []

/-- All that one who sends the bytes gets to see. -/
def shown (attempt : Attempt) : Except Fault Nat × Bytes := (attempt.result, attempt.front)

end Attempt

/-! ## One message -/

variable {message : Message}

theorem attempt_eq (encodable : message.Encodable) (buffer : Bytes) :
    message.attempt buffer =
      if message.size ≤ buffer.length then
        { result := .ok message.size
          buffer := message.layout.written ++ buffer.drop message.size }
      else { result := .error (.messageTooLarge message.size buffer.length), buffer } := by
  rw [attempt, run_writeInto encodable]
  by_cases fits : message.size ≤ buffer.length
  · rw [if_pos fits, if_pos fits]
  · rw [if_neg fits, if_neg fits]

/-- No writing changes how long the buffer is. -/
theorem length_attempt (encodable : message.Encodable) (buffer : Bytes) :
    (message.attempt buffer).buffer.length = buffer.length := by
  rw [attempt_eq encodable]
  split
  · simp only [List.length_append, Layout.length_written, length_layout, List.length_drop]
    omega
  · rfl

/-- What is shown is settled by the message and the length of the buffer. -/
theorem shown_attempt (encodable : message.Encodable) (buffer : Bytes) :
    (message.attempt buffer).shown =
      if message.size ≤ buffer.length then (.ok message.size, message.layout.written)
      else (.error (.messageTooLarge message.size buffer.length), []) := by
  have size : message.layout.written.length = message.size := by simp
  rw [attempt_eq encodable]
  split
  · exact congrArg (Prod.mk (Except.ok message.size)) (List.take_left' size)
  · rfl

/-! ## Many messages -/

/-- Each message shows what it would show in a fresh buffer of the same length,
whichever messages were written before. -/
theorem shown_attempts {messages : List Message}
    (encodable : ∀ message ∈ messages, message.Encodable) (buffer : Bytes) :
    (attempts messages buffer).map Attempt.shown =
      messages.map fun message => (message.attempt (Bytes.zeros buffer.length)).shown := by
  induction messages generalizing buffer with
  | nil => rfl
  | cons message rest induction =>
      have first := encodable message List.mem_cons_self
      have later := induction (fun other member => encodable other (List.mem_cons_of_mem _ member))
        (message.attempt buffer).buffer
      rw [length_attempt first] at later
      simp only [attempts, List.map_cons]
      rw [later, shown_attempt first, shown_attempt first, Bytes.length_zeros]

/-- The bytes of a message are the fields of its layout, with zeros for padding. They
are written whole over the front of the buffer, or the buffer is not touched. So in a
buffer that is used again and again, what was written before has no part in what a
message shows. -/
theorem writeInto_whole_or_untouched :
    (∀ message : Message, message.Encodable →
      message.toBytes = .ok message.layout.written ∧
      message.layout.written.length = message.size ∧
      ∀ buffer : Bytes,
        (buffer.length < message.size → ∃ fault, fault.code = some .bufferTooSmall ∧
          message.writeInto.run buffer = .error fault buffer) ∧
        (message.size ≤ buffer.length → ∃ after,
          message.writeInto.run buffer = .ok message.size after ∧
            after.length = buffer.length ∧
            after.take message.size = message.layout.written ∧
            after.drop message.size = buffer.drop message.size)) ∧
    (∀ messages : List Message, (∀ message ∈ messages, message.Encodable) → ∀ buffer : Bytes,
      (attempts messages buffer).map Attempt.shown =
        messages.map fun message => (message.attempt (Bytes.zeros buffer.length)).shown) := by
  refine ⟨?_, fun _ => shown_attempts⟩
  intro message encodable
  have size : message.layout.written.length = message.size := by simp
  refine ⟨toBytes_eq encodable, size, fun buffer => ⟨?_, ?_⟩⟩
  · intro short
    refine ⟨.messageTooLarge message.size buffer.length, rfl, ?_⟩
    rw [run_writeInto encodable, if_neg (Nat.not_le_of_lt short)]
  · intro fits
    refine ⟨_, by rw [run_writeInto encodable, if_pos fits], ?_, ?_, ?_⟩
    · rw [List.length_append, size, List.length_drop]
      omega
    · exact List.take_left' size
    · exact List.drop_left' size

/-- The sample leaves the last five of sixty bytes alone, and nothing of it shows
in the shorter message that is written over it. -/
theorem writeInto_whole_or_untouched_sample :
    let short : Message := { xid := 8, body := .reply (.denied (.authError .tooWeak)) }
    (sample.Encodable ∧ sample.size ≤ 60 ∧ short.Encodable) ∧
      (∃ after, sample.writeInto.run (List.replicate 60 0xff) = .ok sample.size after ∧
        after.take sample.size = sample.layout.written ∧
        after.drop sample.size = (List.replicate 60 0xff).drop sample.size) ∧
      (attempts [sample, short] (List.replicate 60 0xff)).map Attempt.shown =
        [(sample.attempt (Bytes.zeros 60)).shown, (short.attempt (Bytes.zeros 60)).shown] := by
  intro short
  have encodable : sample.Encodable := by decide
  have fits : sample.size ≤ 60 := by decide
  have encodableShort : short.Encodable := by decide
  rcases writeInto_whole_or_untouched with ⟨one, many⟩
  rcases one sample encodable with ⟨_, _, into⟩
  rcases (into (List.replicate 60 0xff)).2 fits with ⟨after, run, _, front, untouched⟩
  refine ⟨⟨encodable, fits, encodableShort⟩, ⟨after, run, front, untouched⟩, ?_⟩
  apply many [sample, short]
  simp [encodable, encodableShort]

end RpcWire.Message
