import GossipCore.Base.ByteCodes

/-! The messages of the chat protocol and what is used of postcard for them. The format that
postcard documents has enum index and lengths as varints, one tag byte for an option, and
bytes after their length. -/
namespace GossipCore.Wire
open Base

abbrev Bytes := List UInt8

/-- ProtoMessage, with the newtype SyncMessage written as its bytes. -/
inductive ProtoMessage where
  | sync (msg : Option Bytes)
  deriving DecidableEq, Repr

/-- The byte budgets of postcard's varints, and their greatest last bytes. -/
def u32Bytes : Nat := 5
def u32LastMax : Nat := 15
def usizeBytes : Nat := 10
def usizeLastMax : Nat := 1

/-- postcard::to_slice and postcard::from_bytes at ProtoMessage: what was encoded is decoded
again, and the sizes are those of the index, the tag, the length and the bytes. -/
structure Postcard where
  encode : ProtoMessage → Bytes
  decode : Bytes → Option ProtoMessage
  decode_encode : ∀ m, (encode m).length < 2^64 → decode (encode m) = some m
  length_none : (encode (.sync none)).length = 2
  length_some : ∀ data, (encode (.sync (some data))).length =
    2+(Varint.encode usizeBytes data.length).length+data.length

/-- The size that to_slice fills exactly. -/
def Postcard.serializedSize (pc : Postcard) (m : ProtoMessage) : Nat := (pc.encode m).length

namespace WireFormat

def encodeOption : Option Bytes → Bytes
  | none => [0]
  | some data => 1::(Varint.encode usizeBytes data.length++data)

def encode : ProtoMessage → Bytes
  | .sync msg => Varint.encode u32Bytes 0++encodeOption msg

def decodeBytes (input : Bytes) : Option Bytes := do
  let (size,rest) ← Varint.decode usizeLastMax usizeBytes input
  if size ≤ rest.length then some (rest.take size) else none

def decodeOption : Bytes → Option (Option Bytes)
  | [] => none
  | tag::rest =>
    if tag = 0 then some none
    else if tag = 1 then (decodeBytes rest).map some
    else none

/-- Bytes after the message are not looked at. -/
def decode (input : Bytes) : Option ProtoMessage := do
  let (index,rest) ← Varint.decode u32LastMax u32Bytes input
  if index = 0 then (decodeOption rest).map .sync else none

private theorem decodeBytes_encode {data : Bytes} (h : data.length < 2^64) :
    decodeBytes (Varint.encode usizeBytes data.length++data) = some data := by
  have hv : Varint.decode usizeLastMax usizeBytes (Varint.encode usizeBytes data.length++data) =
      some (data.length,data) := Varint.decode_encode (by decide) (by simpa [usizeLastMax] using h) data
  simp [decodeBytes,hv]

theorem decode_encode {m : ProtoMessage} (h : (encode m).length < 2^64) : decode (encode m) = some m := by
  obtain ⟨msg⟩ := m
  have hindex : Varint.decode u32LastMax u32Bytes (encode (.sync msg)) = some (0,encodeOption msg) :=
    Varint.decode_encode (by decide) (by decide) (encodeOption msg)
  cases msg with
  | none => simp [decode,hindex,encodeOption,decodeOption]
  | some data =>
    have hdata : data.length < 2^64 := by
      refine Nat.lt_of_le_of_lt ?_ h
      simp only [encode,encodeOption,List.length_append,List.length_cons]
      omega
    simp [decode,hindex,encodeOption,decodeOption,decodeBytes_encode hdata]

end WireFormat

/-- The format that postcard documents. -/
def wireFormat : Postcard where
  encode := WireFormat.encode
  decode := WireFormat.decode
  decode_encode _ := WireFormat.decode_encode
  length_none := by decide
  length_some data := by
    simp [WireFormat.encode,WireFormat.encodeOption,u32Bytes,Varint.encode]
    omega

end GossipCore.Wire
