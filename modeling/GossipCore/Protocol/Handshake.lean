import GossipCore.Wire.Receive

/-! The opening of a chat connection in process_established_connection, and the codes
that a refused connection is closed with. -/
namespace GossipCore.Protocol
open Base Chat Wire

inductive ConnectionCloseReason where
  | normal
  | invalidOpenMessage
  | streamReadFailed
  | streamWriteFailed
  deriving DecidableEq, Repr

structure InvalidConnectionCloseReasonCode where
  code : Nat
  deriving DecidableEq, Repr

namespace ConnectionCloseReason

def toCodeReason : ConnectionCloseReason → Nat × String
  | .normal => (0,"Normal closure")
  | .invalidOpenMessage => (1001,"Invalid or unexpected open message received")
  | .streamReadFailed => (1002,"Stream read operation failed")
  | .streamWriteFailed => (1003,"Stream write operation failed")

/-- What the supervisor of the other side makes of the code of a close. -/
def tryFrom (value : Nat) : Except InvalidConnectionCloseReasonCode ConnectionCloseReason :=
  if value = 0 then .ok .normal
  else if value = 1001 then .ok .invalidOpenMessage
  else if value = 1002 then .ok .streamReadFailed
  else if value = 1003 then .ok .streamWriteFailed
  else .error ⟨value⟩

theorem tryFrom_toCodeReason (reason : ConnectionCloseReason) :
    tryFrom reason.toCodeReason.1 = .ok reason := by
  cases reason <;> rfl

end ConnectionCloseReason

/-- Why process_established_connection returns an error. -/
inductive HandshakeError where
  | noStream
  | readOpenMessage
  | invalidOpenMessage
  | writeOpenMessage
  deriving DecidableEq, Repr

namespace HandshakeError

/-- The reason that the connection is closed with. Without a stream it is only dropped. -/
def closeReason : HandshakeError → Option ConnectionCloseReason
  | .noStream => none
  | .readOpenMessage => some .streamReadFailed
  | .invalidOpenMessage => some .invalidOpenMessage
  | .writeOpenMessage => some .streamWriteFailed

end HandshakeError

/-- The accepting branch, on the stream that accept_bi has returned. -/
def acceptHandshake (r : ChunkReader UInt8) : Except HandshakeError (ChunkReader UInt8) :=
  match openStream .accept r with
  | .ok r' => .ok r'
  | .error .streamReadFailed => .error .readOpenMessage
  | .error .invalidOpenMessage => .error .invalidOpenMessage

/-- What the accepting branch makes of the bytes of a stream. -/
inductive Opened (bytes : Bytes) : Except HandshakeError (ChunkReader UInt8) → Prop where
  | valid (r' : ChunkReader UInt8) (h : bytes = openMessage++r'.remaining) : Opened bytes (.ok r')
  | short (h : bytes.length < openMessage.length) : Opened bytes (.error .readOpenMessage)
  | wrong (hl : openMessage.length ≤ bytes.length) (h : ¬ openMessage <+: bytes) :
      Opened bytes (.error .invalidOpenMessage)

/-- The outcome depends only on the bytes, not on their chunks or on the end of the stream. -/
theorem acceptHandshake_opened (r : ChunkReader UInt8) : Opened r.remaining (acceptHandshake r) := by
  rcases Nat.lt_or_ge r.remaining.length openMessage.length with hshort | hlong
  · have hread := ChunkReader.readExact_short hshort
    simp only [acceptHandshake,openStream,hread]
    exact .short hshort
  · obtain ⟨r',hread,hrem,-⟩ := ChunkReader.readExact_ok hlong
    by_cases heq : r.remaining.take openMessage.length = openMessage
    · have hbytes : r.remaining = openMessage++r'.remaining := by
        have hsplit := List.take_append_drop openMessage.length r.remaining
        rw [heq] at hsplit
        rw [hrem]
        exact hsplit.symm
      simp only [acceptHandshake,openStream,hread,heq,ne_eq,not_true_eq_false,if_false]
      exact .valid r' hbytes
    · simp only [acceptHandshake,openStream,hread,ne_eq,heq,not_false_eq_true,if_true]
      refine .wrong hlong (fun hpre => heq ?_)
      exact (List.prefix_iff_eq_take.mp hpre).symm

end GossipCore.Protocol
