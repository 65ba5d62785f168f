import GossipCore.Base.ChunkReader
import GossipCore.Chat.Connection
import GossipCore.Wire.Message

/-! Length-prefixed frames on a stream, the opening handshake, and the task that
receives messages until its stream ends. -/
namespace GossipCore.Wire
open Base Chat
variable (pc : Postcard)

def openMessage : Bytes := "OPEN_MESSAGE".toList.map (fun c => UInt8.ofNat c.toNat)

def defaultMaxMessageSize : Nat := 1024*1024

inductive WriteError where
  | tooLarge
  deriving DecidableEq, Repr

/-- What is written to the stream. The buffer of the caller is cleared and resized to
the message, so nothing of an earlier call is left in it. -/
def writeMessage (frame : ProtoMessage) (maxMessageSize : Nat) : Except WriteError Bytes :=
  let len := pc.serializedSize frame
  if len ≥ maxMessageSize then .error .tooLarge
  else .ok (be32 (len%2^32)++pc.encode frame)

/-- The loop of the sending task over the messages it receives. -/
def writeMessages (maxMessageSize : Nat) : List ProtoMessage → Except WriteError Bytes
  | [] => .ok []
  | m::ms => do
    let out ← writeMessage pc m maxMessageSize
    let rest ← writeMessages maxMessageSize ms
    .ok (out++rest)

/-- The bytes that process_established_connection puts on its stream. -/
def sendStream (origin : ConnOrigin) (maxMessageSize : Nat) (msgs : List ProtoMessage) :
    Except WriteError Bytes := do
  let frames ← writeMessages pc maxMessageSize msgs
  match origin with
  | .dial => .ok (openMessage++frames)
  | .accept => .ok frames

inductive OpenError where
  | streamReadFailed
  | invalidOpenMessage
  deriving DecidableEq, Repr

/-- The receiving half of the handshake. -/
def openStream (origin : ConnOrigin) (r : ChunkReader UInt8) : Except OpenError (ChunkReader UInt8) :=
  match origin with
  | .accept =>
    match r.readExact openMessage.length with
    | .error _ => .error .streamReadFailed
    | .ok (buf,r') => if buf ≠ openMessage then .error .invalidOpenMessage else .ok r'
  | .dial => .ok r

inductive ReadError where
  | de
  | io
  | tooLarge
  deriving DecidableEq, Repr

/-- A value with the buffer and the reader after it, Ok(None), an error, or a panic. -/
inductive ReadOutcome (α : Type) where
  | value (a : α) (buffer : Bytes) (reader : ChunkReader UInt8)
  | endOfStream
  | error (e : ReadError)
  | panicked

/-- BytesMut::split_to, which panics when it would go past the end. -/
def splitTo (buffer : Bytes) (n : Nat) : Option (Bytes × Bytes) :=
  if n ≤ buffer.length then some (buffer.take n,buffer.drop n) else none

def readLp (r : ChunkReader UInt8) (buffer : Bytes) (maxMessageSize : Nat) : ReadOutcome Bytes :=
  match r.readExact 4 with
  | .error .unexpectedEof => .endOfStream
  | .error .failed => .error .io
  | .ok (head,r₁) =>
    let size := ofBe32 head
    if size > maxMessageSize then .error .tooLarge
    else
      match r₁.readLoop size buffer with
      | none => .error .io
      | some (filled,r₂) =>
        match splitTo filled size with
        | some (data,rest) => .value data rest r₂
        | none => .panicked

def readMessage (r : ChunkReader UInt8) (buffer : Bytes) (maxMessageSize : Nat) :
    ReadOutcome ProtoMessage :=
  match readLp r buffer maxMessageSize with
  | .value data rest r' =>
    match pc.decode data with
    | some m => .value m rest r'
    | none => .error .de
  | .endOfStream => .endOfStream
  | .error e => .error e
  | .panicked => .panicked

/-- The first k calls of read_message with one buffer. -/
def readMessages (maxMessageSize : Nat) :
    Nat → Bytes → ChunkReader UInt8 → Option (List ProtoMessage × Bytes × ChunkReader UInt8)
  | 0, buffer, r => some ([],buffer,r)
  | k+1, buffer, r =>
    match readMessage pc r buffer maxMessageSize with
    | .value m buffer' r' => (readMessages maxMessageSize k buffer' r').map (fun out => (m::out.1,out.2))
    | _ => none

/-- The part of read_lp after the size check, on an empty buffer. -/
private def readBody (r : ChunkReader UInt8) (size : Nat) : ReadOutcome Bytes :=
  match r.readLoop size [] with
  | none => .error .io
  | some (filled,r') =>
    match splitTo filled size with
    | some (data,rest) => .value data rest r'
    | none => .panicked

private theorem readBody_short {r : ChunkReader UInt8} {n : Nat} (h : r.remaining.length < n) :
    readBody r n = if r.ending = .finished then .panicked else .error .io := by
  cases he : r.ending with
  | finished =>
    obtain ⟨r',hr,-,-⟩ := r.readLoop_eq n [] (Or.inl he)
    rw [List.take_of_length_le h.le,List.nil_append] at hr
    simp [readBody,hr,splitTo,Nat.not_le.mpr h]
  | failed => simp [readBody,r.readLoop_failed n [] he h]

private theorem readBody_full {r : ChunkReader UInt8} {n : Nat} (h : n ≤ r.remaining.length) :
    ∃ r', readBody r n = .value (r.remaining.take n) [] r' ∧ r'.remaining = r.remaining.drop n ∧
      r'.ending = r.ending := by
  obtain ⟨r',hr,hrem,hend⟩ := r.readLoop_eq n [] (Or.inr h)
  refine ⟨r',?_,hrem,hend⟩
  simp [readBody,hr,splitTo,h]

/-- One call on an empty buffer, in terms of the bytes that are left. -/
theorem readLp_cases (r : ChunkReader UInt8) (maxMessageSize : Nat) :
    (r.remaining.length < 4 ∧
      readLp r [] maxMessageSize = if r.ending = .finished then .endOfStream else .error .io) ∨
    ∃ n rest, n < 2^32 ∧ r.remaining = be32 n++rest ∧
      ((maxMessageSize < n ∧ readLp r [] maxMessageSize = .error .tooLarge) ∨
      (n ≤ maxMessageSize ∧ rest.length < n ∧
        readLp r [] maxMessageSize = if r.ending = .finished then .panicked else .error .io) ∨
      (n ≤ maxMessageSize ∧ n ≤ rest.length ∧ ∃ r', readLp r [] maxMessageSize = .value (rest.take n) [] r' ∧
        r'.remaining = rest.drop n ∧ r'.ending = r.ending)) := by
  rcases Nat.lt_or_ge r.remaining.length 4 with hshort | hlong
  · refine Or.inl ⟨hshort,?_⟩
    rw [readLp,ChunkReader.readExact_short hshort]
    cases r.ending <;> rfl
  · obtain ⟨r₁,hr₁,hrem,hend⟩ := ChunkReader.readExact_ok hlong
    have hhead : (r.remaining.take 4).length = 4 := by simpa using hlong
    refine Or.inr ⟨ofBe32 (r.remaining.take 4),r.remaining.drop 4,ofBe32_lt hhead,?_,?_⟩
    · rw [be32_ofBe32 hhead,List.take_append_drop]
    · have hlp : readLp r [] maxMessageSize =
          if ofBe32 (r.remaining.take 4) > maxMessageSize then .error .tooLarge
          else readBody r₁ (ofBe32 (r.remaining.take 4)) := by
        rw [readLp,hr₁]
        rfl
      rw [hlp,← hrem,← hend]
      generalize ofBe32 (r.remaining.take 4) = n
      rcases Nat.lt_or_ge maxMessageSize n with hbig | hle
      · exact Or.inl ⟨hbig,if_pos hbig⟩
      · rw [if_neg (Nat.not_lt.mpr hle)]
        rcases Nat.lt_or_ge r₁.remaining.length n with hpart | hfull
        · exact Or.inr (Or.inl ⟨hle,hpart,readBody_short hpart⟩)
        · exact Or.inr (Or.inr ⟨hle,hfull,readBody_full hfull⟩)

/-- The longest encoding that fits into a frame next to the index of the enum, the tag of
the option and three bytes of length. -/
def maxSyncMessage : Nat := 1048570

theorem serializedSize_lt_iff (data : Bytes) :
    pc.serializedSize (.sync (some data)) < defaultMaxMessageSize ↔ data.length ≤ maxSyncMessage := by
  rw [Postcard.serializedSize,pc.length_some,defaultMaxMessageSize,maxSyncMessage]
  constructor
  · intro h
    by_contra hlong
    have hvarint : 2 < (Varint.encode usizeBytes data.length).length := Varint.lt_length_encode (by decide) (by omega)
    omega
  · intro h
    have hvarint : (Varint.encode usizeBytes data.length).length ≤ 3 := Varint.length_encode_le (by omega)
    omega

variable {pc}

theorem writeMessage_tooLarge_iff {frame : ProtoMessage} {maxMessageSize : Nat} :
    writeMessage pc frame maxMessageSize = .error .tooLarge ↔ maxMessageSize ≤ pc.serializedSize frame := by
  simp only [writeMessage]
  split <;> simp_all

/-- The send task fails at its first frame that is too large. -/
theorem writeMessages_tooLarge_iff {frames : List ProtoMessage} {maxMessageSize : Nat} :
    writeMessages pc maxMessageSize frames = .error .tooLarge ↔
      ∃ frame ∈ frames, writeMessage pc frame maxMessageSize = .error .tooLarge := by
  induction frames with
  | nil => simp [writeMessages]
  | cons frame frames ih =>
    rw [List.exists_mem_cons_iff,← ih,writeMessages]
    cases writeMessage pc frame maxMessageSize with
    | error e =>
      cases e
      simp [bind,Except.bind]
    | ok out =>
      cases writeMessages pc maxMessageSize frames <;> simp [bind,Except.bind]

end GossipCore.Wire
