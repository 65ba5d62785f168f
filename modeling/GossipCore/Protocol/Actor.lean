import GossipCore.Base.Runs
import GossipCore.Protocol.Handshake

/-! The protocol actor of one endpoint: it takes one request at a time from its channel
and looks at the cancel token only between two of them. What its awaits return is the
label of the step, so nothing is assumed about the network here. -/
namespace GossipCore.Protocol
open Base Chat Wire

def channelBuffer : Nat := 1024

/-- A dial is named by the oneshot that it answers; connections are numbered. -/
inductive ConnectionRequest (E : Type) where
  | accept (conn : Nat)
  | dial (endpointId : E) (respondTo : Nat)
  deriving DecidableEq, Repr

inductive ConnectError where
  | connect
  | handshake (conn : Nat) (e : HandshakeError)
  deriving DecidableEq, Repr

abbrev Accepted (U : Type) := Except HandshakeError (ChatConnectionHandle U Nat)
abbrev Answer (U : Type) := Except ConnectError (ChatConnectionHandle U Nat)

/-- The await at which run stands. -/
inductive ActorStage (E U : Type) where
  | selecting
  | connecting (endpointId : E) (respondTo : Nat)
  | openingBi (endpointId : E) (respondTo conn : Nat)
  | writingOpen (endpointId : E) (respondTo conn : Nat)
  | acceptingBi (conn : Nat)
  | readingOpen (conn : Nat)
  | passingOn (conn : Nat) (result : Accepted U)
  | returned

structure ProtocolActor (E U : Type) where
  requestRx : List (ConnectionRequest E)
  acceptRx : List (Accepted U)
  stage : ActorStage E U
  cancelled : Bool
  /-- Some sender of requests, and some receiver of accepted connections, is left. -/
  sendersAlive : Bool
  receiversAlive : Bool
  /-- All requests so far, the answered ones with their answers, and those that were
  dropped with the channel. -/
  issued : List (ConnectionRequest E)
  served : List (ConnectionRequest E × Answer U)
  dropped : List (ConnectionRequest E)
  /-- What accept_conn has returned, the calls of close, and what was on the streams of
  accepted connections. -/
  taken : List (Accepted U)
  closes : List (Nat × ConnectionCloseReason)
  reads : List (Nat × Bytes)

inductive ActorEvent (E U : Type) where
  | request (r : ConnectionRequest E)
  | acceptConn
  | dropSenders
  | dropReceivers
  | cancel
  | cancelArm
  | recv
  | connected (conn : Option Nat)
  | biOpened (ok : Bool)
  | openWritten (ok : Bool) (id : U)
  | biAccepted (ok : Bool)
  | openRead (stream : ChunkReader UInt8) (id : U)
  | passedOn

namespace ProtocolActor
variable {E U : Type}

def new : ProtocolActor E U := ⟨[],[],.selecting,false,true,true,[],[],[],[],[],[]⟩

/-- The request that the actor is working on. -/
def inService (a : ProtocolActor E U) : List (ConnectionRequest E) :=
  match a.stage with
  | .connecting e t => [.dial e t]
  | .openingBi e t _ => [.dial e t]
  | .writingOpen e t _ => [.dial e t]
  | .acceptingBi k => [.accept k]
  | .readingOpen k => [.accept k]
  | .passingOn k _ => [.accept k]
  | .selecting => []
  | .returned => []

def isReturned (a : ProtocolActor E U) : Bool :=
  match a.stage with
  | .returned => true
  | _ => false

/-- The channels are dropped with the actor, and the requests in them. -/
def finish (a : ProtocolActor E U) : ProtocolActor E U :=
  { a with stage := .returned, requestRx := [], dropped := a.inService++a.requestRx }

def answer (a : ProtocolActor E U) (r : ConnectionRequest E) (result : Answer U) : ProtocolActor E U :=
  { a with stage := .selecting, served := a.served++[(r,result)] }

/-- The close of a connection whose handshake has failed. -/
def refuse (a : ProtocolActor E U) (conn : Nat) (e : HandshakeError) : ProtocolActor E U :=
  { a with closes := a.closes++(e.closeReason.map (fun reason => (conn,reason))).toList }

def serve (a : ProtocolActor E U) : ConnectionRequest E → ProtocolActor E U
  | .accept conn => { a with stage := .acceptingBi conn }
  | .dial e t => { a with stage := .connecting e t }

/-- The two arms of the select. The cancelled one comes first. -/
def cancelArm (a : ProtocolActor E U) : Option (ProtocolActor E U) :=
  match a.stage with
  | .selecting => if a.cancelled then some a.finish else none
  | _ => none

def recv (a : ProtocolActor E U) : Option (ProtocolActor E U) :=
  match a.stage, a.requestRx with
  | .selecting, r::rest => if a.cancelled then none else some (serve { a with requestRx := rest } r)
  | .selecting, [] => if a.cancelled ∨ a.sendersAlive then none else some a.finish
  | _, _ => none

def connected (a : ProtocolActor E U) (conn : Option Nat) : Option (ProtocolActor E U) :=
  match a.stage, conn with
  | .connecting e t, some k => some { a with stage := .openingBi e t k }
  | .connecting e t, none => some (a.answer (.dial e t) (.error .connect))
  | _, _ => none

def biOpened (a : ProtocolActor E U) (ok : Bool) : Option (ProtocolActor E U) :=
  match a.stage with
  | .openingBi e t k =>
    if ok then some { a with stage := .writingOpen e t k }
    else some ((a.refuse k .noStream).answer (.dial e t) (.error (.handshake k .noStream)))
  | _ => none

def openWritten (a : ProtocolActor E U) (ok : Bool) (id : U) : Option (ProtocolActor E U) :=
  match a.stage with
  | .writingOpen e t k =>
    if ok then some (a.answer (.dial e t) (.ok ⟨id,.dial,k⟩))
    else some ((a.refuse k .writeOpenMessage).answer (.dial e t) (.error (.handshake k .writeOpenMessage)))
  | _ => none

def biAccepted (a : ProtocolActor E U) (ok : Bool) : Option (ProtocolActor E U) :=
  match a.stage with
  | .acceptingBi k =>
    if ok then some { a with stage := .readingOpen k }
    else some { a.refuse k .noStream with stage := .passingOn k (.error .noStream) }
  | _ => none

def openRead (a : ProtocolActor E U) (stream : ChunkReader UInt8) (id : U) : Option (ProtocolActor E U) :=
  match a.stage with
  | .readingOpen k =>
    let a' := { a with reads := a.reads++[(k,stream.remaining)] }
    match acceptHandshake stream with
    | .ok _ => some { a' with stage := .passingOn k (.ok ⟨id,.accept,k⟩) }
    | .error e => some { a'.refuse k e with stage := .passingOn k (.error e) }
  | _ => none

def answerOf (conn : Nat) : Accepted U → Answer U
  | .ok handle => .ok handle
  | .error e => .error (.handshake conn e)

/-- The send on the bounded accept channel; a closed channel ends the actor. -/
def passedOn (a : ProtocolActor E U) : Option (ProtocolActor E U) :=
  match a.stage with
  | .passingOn k result =>
    if a.receiversAlive then
      if a.acceptRx.length < channelBuffer then
        some { a.answer (.accept k) (answerOf k result) with acceptRx := a.acceptRx++[result] }
      else none
    else some a.finish
  | _ => none

def step (a : ProtocolActor E U) : ActorEvent E U → Option (ProtocolActor E U)
  | .request r =>
    if a.isReturned = false ∧ a.sendersAlive ∧ a.requestRx.length < channelBuffer then
      some { a with requestRx := a.requestRx++[r], issued := a.issued++[r] }
    else none
  | .acceptConn =>
    match a.acceptRx with
    | result::rest => if a.receiversAlive then some { a with acceptRx := rest, taken := a.taken++[result] } else none
    | [] => none
  | .dropSenders => some { a with sendersAlive := false }
  | .dropReceivers => some { a with receiversAlive := false }
  | .cancel => some { a with cancelled := true }
  | .cancelArm => a.cancelArm
  | .recv => a.recv
  | .connected conn => a.connected conn
  | .biOpened ok => a.biOpened ok
  | .openWritten ok id => a.openWritten ok id
  | .biAccepted ok => a.biAccepted ok
  | .openRead stream id => a.openRead stream id
  | .passedOn => a.passedOn

/-- What each event does, with the guards under which it is possible. Everything that
is proved about a step goes through this. -/
inductive Stepped (a : ProtocolActor E U) : ActorEvent E U → ProtocolActor E U → Prop where
  | request (r : ConnectionRequest E) (hr : a.isReturned = false) (hs : a.sendersAlive = true)
      (hlt : a.requestRx.length < channelBuffer) :
      Stepped a (.request r) { a with requestRx := a.requestRx++[r], issued := a.issued++[r] }
  | acceptConn (result : Accepted U) (rest : List (Accepted U)) (hq : a.acceptRx = result::rest)
      (hr : a.receiversAlive = true) :
      Stepped a .acceptConn { a with acceptRx := rest, taken := a.taken++[result] }
  | dropSenders : Stepped a .dropSenders { a with sendersAlive := false }
  | dropReceivers : Stepped a .dropReceivers { a with receiversAlive := false }
  | cancel : Stepped a .cancel { a with cancelled := true }
  | cancelArm (hst : a.stage = .selecting) (hc : a.cancelled = true) : Stepped a .cancelArm a.finish
  | recv (r : ConnectionRequest E) (rest : List (ConnectionRequest E)) (hst : a.stage = .selecting)
      (hq : a.requestRx = r::rest) (hc : a.cancelled = false) : Stepped a .recv (serve { a with requestRx := rest } r)
  | recvClosed (hst : a.stage = .selecting) (hq : a.requestRx = []) (hc : a.cancelled = false)
      (hs : a.sendersAlive = false) : Stepped a .recv a.finish
  | connected (e : E) (t k : Nat) (hst : a.stage = .connecting e t) :
      Stepped a (.connected (some k)) { a with stage := .openingBi e t k }
  | connectFailed (e : E) (t : Nat) (hst : a.stage = .connecting e t) :
      Stepped a (.connected none) (a.answer (.dial e t) (.error .connect))
  | biOpened (e : E) (t k : Nat) (hst : a.stage = .openingBi e t k) :
      Stepped a (.biOpened true) { a with stage := .writingOpen e t k }
  | biOpenFailed (e : E) (t k : Nat) (hst : a.stage = .openingBi e t k) :
      Stepped a (.biOpened false) ((a.refuse k .noStream).answer (.dial e t) (.error (.handshake k .noStream)))
  | openWritten (e : E) (t k : Nat) (id : U) (hst : a.stage = .writingOpen e t k) :
      Stepped a (.openWritten true id) (a.answer (.dial e t) (.ok ⟨id,.dial,k⟩))
  | openWriteFailed (e : E) (t k : Nat) (id : U) (hst : a.stage = .writingOpen e t k) :
      Stepped a (.openWritten false id)
        ((a.refuse k .writeOpenMessage).answer (.dial e t) (.error (.handshake k .writeOpenMessage)))
  | biAccepted (k : Nat) (hst : a.stage = .acceptingBi k) :
      Stepped a (.biAccepted true) { a with stage := .readingOpen k }
  | biAcceptFailed (k : Nat) (hst : a.stage = .acceptingBi k) :
      Stepped a (.biAccepted false) { a.refuse k .noStream with stage := .passingOn k (.error .noStream) }
  | openRead (k : Nat) (stream rest : ChunkReader UInt8) (id : U) (hst : a.stage = .readingOpen k)
      (ho : acceptHandshake stream = .ok rest) :
      Stepped a (.openRead stream id)
        { a with reads := a.reads++[(k,stream.remaining)], stage := .passingOn k (.ok ⟨id,.accept,k⟩) }
  | openReadFailed (k : Nat) (stream : ChunkReader UInt8) (id : U) (e : HandshakeError)
      (hst : a.stage = .readingOpen k) (ho : acceptHandshake stream = .error e) :
      Stepped a (.openRead stream id)
        { refuse { a with reads := a.reads++[(k,stream.remaining)] } k e with stage := .passingOn k (.error e) }
  | passedOn (k : Nat) (result : Accepted U) (hst : a.stage = .passingOn k result)
      (hr : a.receiversAlive = true) (hlt : a.acceptRx.length < channelBuffer) :
      Stepped a .passedOn { a.answer (.accept k) (answerOf k result) with acceptRx := a.acceptRx++[result] }
  | passedClosed (k : Nat) (result : Accepted U) (hst : a.stage = .passingOn k result)
      (hr : a.receiversAlive = false) : Stepped a .passedOn a.finish

private theorem stepped_recv {a b : ProtocolActor E U} (hs : a.recv = some b) : Stepped a .recv b := by
  unfold recv at hs
  split at hs
  · rename_i r rest hst hq
    split at hs <;> cases hs
    rename_i hc
    exact .recv r rest hst hq (Bool.eq_false_iff.mpr hc)
  · rename_i hst hq
    split at hs <;> cases hs
    rename_i hc
    exact .recvClosed hst hq (Bool.eq_false_iff.mpr (fun h => hc (Or.inl h)))
      (Bool.eq_false_iff.mpr (fun h => hc (Or.inr h)))
  · cases hs

private theorem stepped_connected {a b : ProtocolActor E U} {conn : Option Nat} (hs : a.connected conn = some b) :
    Stepped a (.connected conn) b := by
  unfold connected at hs
  split at hs <;> cases hs
  · rename_i e t k hst
    exact .connected e t k hst
  · rename_i e t hst
    exact .connectFailed e t hst

private theorem stepped_biOpened {a b : ProtocolActor E U} {ok : Bool} (hs : a.biOpened ok = some b) :
    Stepped a (.biOpened ok) b := by
  unfold biOpened at hs
  split at hs
  · rename_i e t k hst
    cases ok <;> cases hs
    · exact .biOpenFailed e t k hst
    · exact .biOpened e t k hst
  · cases hs

private theorem stepped_openWritten {a b : ProtocolActor E U} {ok : Bool} {id : U}
    (hs : a.openWritten ok id = some b) : Stepped a (.openWritten ok id) b := by
  unfold openWritten at hs
  split at hs
  · rename_i e t k hst
    cases ok <;> cases hs
    · exact .openWriteFailed e t k id hst
    · exact .openWritten e t k id hst
  · cases hs

private theorem stepped_biAccepted {a b : ProtocolActor E U} {ok : Bool} (hs : a.biAccepted ok = some b) :
    Stepped a (.biAccepted ok) b := by
  unfold biAccepted at hs
  split at hs
  · rename_i k hst
    cases ok <;> cases hs
    · exact .biAcceptFailed k hst
    · exact .biAccepted k hst
  · cases hs

private theorem stepped_openRead {a b : ProtocolActor E U} {stream : ChunkReader UInt8} {id : U}
    (hs : a.openRead stream id = some b) : Stepped a (.openRead stream id) b := by
  unfold openRead at hs
  split at hs
  · rename_i k hst
    cases ho : acceptHandshake stream with
    | ok rest =>
      simp only [ho] at hs
      cases hs
      exact .openRead k stream rest id hst ho
    | error e =>
      simp only [ho] at hs
      cases hs
      exact .openReadFailed k stream id e hst ho
  · cases hs

private theorem stepped_passedOn {a b : ProtocolActor E U} (hs : a.passedOn = some b) : Stepped a .passedOn b := by
  unfold passedOn at hs
  split at hs
  · rename_i k result hst
    split at hs
    · rename_i hr
      split at hs <;> cases hs
      rename_i hlt
      exact .passedOn k result hst hr hlt
    · rename_i hr
      cases hs
      exact .passedClosed k result hst (Bool.eq_false_iff.mpr hr)
  · cases hs

theorem step_stepped {a b : ProtocolActor E U} {l : ActorEvent E U} (hs : a.step l = some b) : Stepped a l b := by
  cases l with
  | request r =>
    simp only [step] at hs
    split at hs <;> cases hs
    rename_i hopen
    exact .request r hopen.1 hopen.2.1 hopen.2.2
  | acceptConn =>
    simp only [step] at hs
    split at hs
    · rename_i result rest hq
      split at hs <;> cases hs
      rename_i hr
      exact .acceptConn result rest hq hr
    · cases hs
  | dropSenders =>
    cases hs
    exact .dropSenders
  | dropReceivers =>
    cases hs
    exact .dropReceivers
  | cancel =>
    cases hs
    exact .cancel
  | cancelArm =>
    simp only [step,cancelArm] at hs
    split at hs
    · rename_i hst
      split at hs <;> cases hs
      rename_i hc
      exact .cancelArm hst hc
    · cases hs
  | recv => exact stepped_recv hs
  | connected conn => exact stepped_connected hs
  | biOpened ok => exact stepped_biOpened hs
  | openWritten ok id => exact stepped_openWritten hs
  | biAccepted ok => exact stepped_biAccepted hs
  | openRead stream id => exact stepped_openRead hs
  | passedOn => exact stepped_passedOn hs

/-- The close that an answer has come with. -/
def closeOf : ConnectionRequest E × Answer U → Option (Nat × ConnectionCloseReason)
  | (_,.error (.handshake conn e)) => e.closeReason.map (fun reason => (conn,reason))
  | _ => none

/-- What an answered request has put on the accept channel. -/
def acceptedOf : ConnectionRequest E × Answer U → Option (Accepted U)
  | (.accept _,.ok handle) => some (.ok handle)
  | (.accept _,.error (.handshake _ e)) => some (.error e)
  | _ => none

/-- The close of an accepted connection whose error is not on the channel yet. -/
def pendingClose (a : ProtocolActor E U) : List (Nat × ConnectionCloseReason) :=
  match a.stage with
  | .passingOn k result => (closeOf ((.accept k : ConnectionRequest E),answerOf k result)).toList
  | _ => []

/-- An answer agrees with what was on the stream of an accepted connection. -/
def Justified (reads : List (Nat × Bytes)) : ConnectionRequest E → Answer U → Prop
  | .accept k, .ok handle =>
    handle.origin = .accept ∧ handle.connection = k ∧ ∃ bytes, (k,bytes) ∈ reads ∧ openMessage <+: bytes
  | .accept k, .error (.handshake j .readOpenMessage) =>
    j = k ∧ ∃ bytes, (k,bytes) ∈ reads ∧ bytes.length < openMessage.length
  | .accept k, .error (.handshake j .invalidOpenMessage) =>
    j = k ∧ ∃ bytes, (k,bytes) ∈ reads ∧ openMessage.length ≤ bytes.length ∧ ¬ openMessage <+: bytes
  | .accept k, .error (.handshake j .noStream) => j = k
  | .dial _ _, .ok handle => handle.origin = .dial
  | .dial _ _, .error (.handshake _ e) => e = .noStream ∨ e = .writeOpenMessage
  | .dial _ _, .error .connect => True
  | _, _ => False

private theorem Justified.mono {reads more : List (Nat × Bytes)} {r : ConnectionRequest E} {result : Answer U}
    (h : Justified reads r result) : Justified (reads++more) r result := by
  unfold Justified at h ⊢
  split at h
  · exact ⟨h.1,h.2.1,h.2.2.imp (fun b hb => ⟨List.mem_append_left more hb.1,hb.2⟩)⟩
  · exact ⟨h.1,h.2.imp (fun b hb => ⟨List.mem_append_left more hb.1,hb.2⟩)⟩
  · exact ⟨h.1,h.2.imp (fun b hb => ⟨List.mem_append_left more hb.1,hb.2⟩)⟩
  all_goals exact h

/-- The request in service reaches its last await. -/
def conclude (a : ProtocolActor E U) (k : Nat) (result : Accepted U) (reads : List (Nat × Bytes)) :
    ProtocolActor E U :=
  { a with
    stage := .passingOn k result
    closes := a.closes++(closeOf ((.accept k : ConnectionRequest E),answerOf k result)).toList
    reads := a.reads++reads }

/-- The answer to a dial, after the close that belongs to it. -/
def answerDial (a : ProtocolActor E U) (e : E) (t : Nat) (result : Answer U) : ProtocolActor E U :=
  answer { a with closes := a.closes++(closeOf ((.dial e t : ConnectionRequest E),result)).toList } (.dial e t) result

/-- What one step can do; the invariants use only this. -/
inductive Moved (a : ProtocolActor E U) : ProtocolActor E U → Prop where
  | queued (r : ConnectionRequest E) (hr : a.isReturned = false) :
      Moved a { a with requestRx := a.requestRx++[r], issued := a.issued++[r] }
  | took (result : Accepted U) (rest : List (Accepted U)) (hq : a.acceptRx = result::rest) :
      Moved a { a with acceptRx := rest, taken := a.taken++[result] }
  | flagged (cancelled senders receivers : Bool) (hc : a.cancelled = true → cancelled = true) :
      Moved a { a with cancelled := cancelled, sendersAlive := senders, receiversAlive := receivers }
  | finished (hr : a.isReturned = false) : Moved a a.finish
  | began (r : ConnectionRequest E) (rest : List (ConnectionRequest E)) (hst : a.stage = .selecting)
      (hq : a.requestRx = r::rest) (hc : a.cancelled = false) : Moved a (serve { a with requestRx := rest } r)
  | advanced (stage : ActorStage E U) (hr : a.isReturned = false) (hp : a.pendingClose = [])
      (hs : { a with stage := stage }.inService = a.inService) (hn : ∀ k result, stage ≠ .passingOn k result) :
      Moved a { a with stage := stage }
  | answered (e : E) (t : Nat) (result : Answer U) (hr : a.isReturned = false) (hp : a.pendingClose = [])
      (hs : a.inService = [.dial e t]) (hj : Justified a.reads (.dial e t) result) :
      Moved a (a.answerDial e t result)
  | decided (k : Nat) (result : Accepted U) (reads : List (Nat × Bytes)) (hr : a.isReturned = false)
      (hp : a.pendingClose = []) (hs : a.inService = [.accept k])
      (hj : Justified (a.reads++reads) (.accept k : ConnectionRequest E) (answerOf k result)) :
      Moved a (a.conclude k result reads)
  | passed (k : Nat) (result : Accepted U) (hst : a.stage = .passingOn k result) :
      Moved a { a.answer (.accept k) (answerOf k result) with acceptRx := a.acceptRx++[result] }

/-- A step that ends the reading of the open message, by what was on the stream. -/
private theorem moved_openRead {a b : ProtocolActor E U} {stream : ChunkReader UInt8} {id : U} {k : Nat}
    (hst : a.stage = .readingOpen k) (hs : a.openRead stream id = some b) : Moved a b := by
  have hmem : (k,stream.remaining) ∈ a.reads++[(k,stream.remaining)] := by simp
  have ho := acceptHandshake_opened stream
  simp only [openRead,hst] at hs
  generalize acceptHandshake stream = out at ho hs
  have hr : a.isReturned = false := by simp [isReturned,hst]
  have hp : a.pendingClose = [] := by simp [pendingClose,hst]
  have hin : a.inService = [.accept k] := by simp [inService,hst]
  cases ho with
  | valid r' hbytes =>
    cases hs
    have hm : Moved a (a.conclude k (.ok ⟨id,.accept,k⟩) [(k,stream.remaining)]) :=
      .decided k _ _ hr hp hin ⟨rfl,rfl,_,hmem,hbytes ▸ List.prefix_append _ _⟩
    simpa [conclude,closeOf,answerOf] using hm
  | short hlt =>
    cases hs
    exact .decided k (.error .readOpenMessage) _ hr hp hin ⟨rfl,_,hmem,hlt⟩
  | wrong hle hne =>
    cases hs
    exact .decided k (.error .invalidOpenMessage) _ hr hp hin ⟨rfl,_,hmem,hle,hne⟩

theorem step_moved {a b : ProtocolActor E U} {l : ActorEvent E U} (hs : a.step l = some b) : Moved a b := by
  cases step_stepped hs with
  | request r hr hsend hlt => exact .queued r hr
  | acceptConn result rest hq hr => exact .took result rest hq
  | dropSenders => exact .flagged _ _ _ id
  | dropReceivers => exact .flagged _ _ _ id
  | cancel => exact .flagged _ _ _ (fun _ => rfl)
  | cancelArm hst hc => exact .finished (by simp [isReturned,hst])
  | recv r rest hst hq hc => exact .began r rest hst hq hc
  | recvClosed hst hq hc hsend => exact .finished (by simp [isReturned,hst])
  | connected e t k hst =>
    exact .advanced _ (by simp [isReturned,hst]) (by simp [pendingClose,hst]) (by simp [inService,hst]) (by simp)
  | connectFailed e t hst =>
    have hm : Moved a (a.answerDial e t (.error .connect)) :=
      .answered e t _ (by simp [isReturned,hst]) (by simp [pendingClose,hst]) (by simp [inService,hst]) trivial
    simpa [answerDial,closeOf] using hm
  | biOpened e t k hst =>
    exact .advanced _ (by simp [isReturned,hst]) (by simp [pendingClose,hst]) (by simp [inService,hst]) (by simp)
  | biOpenFailed e t k hst =>
    exact .answered e t (.error (.handshake k .noStream)) (by simp [isReturned,hst]) (by simp [pendingClose,hst])
      (by simp [inService,hst]) (Or.inl rfl)
  | openWritten e t k id hst =>
    have hm : Moved a (a.answerDial e t (.ok ⟨id,.dial,k⟩)) :=
      .answered e t _ (by simp [isReturned,hst]) (by simp [pendingClose,hst]) (by simp [inService,hst]) rfl
    simpa [answerDial,closeOf] using hm
  | openWriteFailed e t k id hst =>
    exact .answered e t (.error (.handshake k .writeOpenMessage)) (by simp [isReturned,hst])
      (by simp [pendingClose,hst]) (by simp [inService,hst]) (Or.inr rfl)
  | biAccepted k hst =>
    exact .advanced _ (by simp [isReturned,hst]) (by simp [pendingClose,hst]) (by simp [inService,hst]) (by simp)
  | biAcceptFailed k hst =>
    have hm : Moved a (a.conclude k (.error .noStream) []) :=
      .decided k _ [] (by simp [isReturned,hst]) (by simp [pendingClose,hst]) (by simp [inService,hst]) rfl
    simpa [conclude,closeOf,answerOf,HandshakeError.closeReason,refuse] using hm
  | openRead k stream rest id hst ho => exact moved_openRead hst hs
  | openReadFailed k stream id e hst ho => exact moved_openRead hst hs
  | passedOn k result hst hr hlt => exact .passed k result hst
  | passedClosed k result hst hr => exact .finished (by simp [isReturned,hst])

/-- Every request is in one place, in order; the accept channel and the closes follow
from the answers. The last close is not answered for yet while its error is passed on. -/
structure Books (a : ProtocolActor E U) : Prop where
  ordered : a.issued = a.served.map Prod.fst++(a.inService++(a.requestRx++a.dropped))
  kept : a.isReturned = false → a.dropped = []
  accepted : a.taken++a.acceptRx = a.served.filterMap acceptedOf
  closed : ∃ last, a.closes = a.served.filterMap closeOf++last ∧ (a.isReturned = false → last = a.pendingClose)
  served : ∀ p ∈ a.served, Justified a.reads p.1 p.2
  passing : ∀ k result, a.stage = .passingOn k result →
    Justified a.reads (.accept k : ConnectionRequest E) (answerOf k result)

theorem new_books : (new : ProtocolActor E U).Books :=
  ⟨rfl,fun _ => rfl,rfl,⟨[],rfl,fun _ => rfl⟩,by simp [new],by simp [new]⟩

theorem Books.closes_eq {a : ProtocolActor E U} (h : a.Books) (hr : a.isReturned = false) :
    a.closes = a.served.filterMap closeOf++a.pendingClose := by
  obtain ⟨last,hc,hlast⟩ := h.closed
  rw [← hlast hr]
  exact hc

private theorem acceptedOf_answerOf (k : Nat) (result : Accepted U) :
    acceptedOf ((.accept k : ConnectionRequest E),answerOf k result) = some result := by
  cases result <;> rfl

private theorem acceptedOf_dial (e : E) (t : Nat) (result : Answer U) :
    acceptedOf ((.dial e t : ConnectionRequest E),result) = none := by
  cases result with
  | ok handle => rfl
  | error err => cases err <;> rfl

private theorem filterMap_concat_toList {α β : Type} (f : α → Option β) (l : List α) (x : α) :
    (l++[x]).filterMap f = l.filterMap f++(f x).toList := by
  rw [List.filterMap_append]
  cases hf : f x <;> simp [hf]

private theorem served_concat {a : ProtocolActor E U} (h : a.Books) {r : ConnectionRequest E} {result : Answer U}
    (hj : Justified a.reads r result) : ∀ p ∈ a.served++[(r,result)], Justified a.reads p.1 p.2 := by
  intro p hp
  rcases List.mem_append.mp hp with hp | hp
  · exact h.served p hp
  · rw [List.mem_singleton.mp hp]
    exact hj

theorem step_books {a b : ProtocolActor E U} {l : ActorEvent E U} (h : a.Books) (hs : a.step l = some b) :
    b.Books := by
  have ho := h.ordered
  cases step_moved hs with
  | queued r hr =>
    rw [h.kept hr,List.append_nil] at ho
    refine ⟨?_,h.kept,h.accepted,h.closed,h.served,h.passing⟩
    simp only [h.kept hr,List.append_nil,ho]
    simp [inService]
  | took result rest hq =>
    have ha := h.accepted
    rw [hq] at ha
    exact ⟨ho,h.kept,by simpa using ha,h.closed,h.served,h.passing⟩
  | flagged cancelled senders receivers hc => exact ⟨ho,h.kept,h.accepted,h.closed,h.served,h.passing⟩
  | finished hr =>
    obtain ⟨last,hc,-⟩ := h.closed
    rw [h.kept hr,List.append_nil] at ho
    exact ⟨by simpa [finish,inService] using ho,fun hf => (by cases hf),h.accepted,⟨last,hc,fun hf => (by cases hf)⟩,
      h.served,fun k result hst => (by cases hst)⟩
  | began r rest hst hq hc =>
    have hr : a.isReturned = false := by simp [isReturned,hst]
    have hclosed := h.closes_eq hr
    simp only [pendingClose,hst] at hclosed
    simp only [inService,hst,hq] at ho
    cases r <;> exact ⟨by simpa [serve,inService] using ho,fun _ => h.kept hr,h.accepted,
      ⟨[],hclosed,fun _ => rfl⟩,h.served,fun k result hst' => (by cases hst')⟩
  | advanced stage hr hp hin hn =>
    have hclosed := h.closes_eq hr
    rw [hp] at hclosed
    refine ⟨by rw [hin]; exact ho,fun _ => h.kept hr,h.accepted,⟨[],hclosed,fun _ => ?_⟩,h.served,?_⟩
    · unfold pendingClose
      split
      · rename_i k result hst
        exact absurd hst (hn k result)
      · rfl
    · exact fun k result hst => absurd hst (hn k result)
  | answered e t result hr hp hin hj =>
    have hclosed := h.closes_eq hr
    rw [hp,List.append_nil] at hclosed
    rw [hin] at ho
    refine ⟨by simpa [answerDial,answer,inService] using ho,fun _ => h.kept hr,?_,⟨[],?_,fun _ => rfl⟩,
      served_concat h hj,fun k result hst => (by cases hst)⟩
    · rw [answerDial,answer,filterMap_concat_toList,acceptedOf_dial]
      simpa using h.accepted
    · rw [answerDial,answer,filterMap_concat_toList,hclosed,List.append_nil]
  | decided k result reads hr hp hin hj =>
    have hclosed := h.closes_eq hr
    rw [hp,List.append_nil] at hclosed
    rw [hin] at ho
    refine ⟨ho,fun _ => h.kept hr,h.accepted,⟨_,?_,fun _ => rfl⟩,fun p hp => (h.served p hp).mono,?_⟩
    · rw [conclude,hclosed]
      rfl
    · intro j res hst
      cases hst
      exact hj
  | passed k result hst =>
    have hr : a.isReturned = false := by simp [isReturned,hst]
    have hclosed := h.closes_eq hr
    simp only [pendingClose,hst] at hclosed
    simp only [inService,hst] at ho
    refine ⟨by simpa [answer,inService] using ho,fun _ => h.kept hr,?_,⟨[],?_,fun _ => rfl⟩,
      served_concat h (h.passing k result hst),fun j res hst' => (by cases hst')⟩
    · rw [answer,filterMap_concat_toList,acceptedOf_answerOf,← h.accepted]
      simp
    · rw [answer,filterMap_concat_toList,hclosed,List.append_nil]

/-- Whatever the network does, requests are answered one by one in the order in which
they were made; none is lost before the actor returns, and the accept channel carries the
results of the accepted connections in that order. -/
theorem requests_answered_in_order {labels : List (ActorEvent E U)} {a : ProtocolActor E U}
    (h : run step new labels = some a) :
    a.issued = a.served.map Prod.fst++(a.inService++(a.requestRx++a.dropped)) ∧
    (a.isReturned = false → a.dropped = []) ∧ a.taken++a.acceptRx = a.served.filterMap acceptedOf := by
  have hb : a.Books := run_invariant (fun _ _ _ hi hs => step_books hi hs) h new_books
  exact ⟨hb.ordered,hb.kept,hb.accepted⟩

/-- An accepted and a dialed connection, the first of which never opens a stream. -/
def silentThenDial : List (ActorEvent Unit Nat) :=
  [.request (.accept 0),.request (.dial () 7),.recv,.biAccepted false,.passedOn,.recv,.connected (some 1),
    .biOpened true,.openWritten true 5,.acceptConn]

theorem requests_answered_in_order_silent : ∃ a : ProtocolActor Unit Nat,
    run step new silentThenDial = some a ∧ a.served = [(.accept 0,.error (.handshake 0 .noStream)),
      (.dial () 7,.ok ⟨5,.dial,1⟩)] ∧ a.taken++a.acceptRx = a.served.filterMap acceptedOf := by
  obtain ⟨a,ha⟩ : ∃ a : ProtocolActor Unit Nat, run step new silentThenDial = some a := ⟨_,rfl⟩
  refine ⟨a,ha,?_,(requests_answered_in_order ha).2.2⟩
  cases ha
  rfl

/-- The return of the actor answers nothing and closes nothing; it only drops what is left. -/
private theorem step_returns {a b : ProtocolActor E U} {l : ActorEvent E U} (ha : a.isReturned = false)
    (hs : a.step l = some b) (hb : b.isReturned = true) :
    b.closes = a.closes ∧ b.served = a.served ∧ b.dropped = a.inService++a.requestRx := by
  have hkept : b.stage ≠ a.stage := by
    intro hst
    have hsame : b.isReturned = a.isReturned := by simp only [isReturned,hst]
    cases ha.symm.trans (hsame.symm.trans hb)
  cases step_stepped hs with
  | cancelArm hst hc => exact ⟨rfl,rfl,rfl⟩
  | recvClosed hst hq hc hsend => exact ⟨rfl,rfl,rfl⟩
  | passedClosed k result hst hr => exact ⟨rfl,rfl,rfl⟩
  | request r hr hsend hlt => exact absurd rfl hkept
  | acceptConn result rest hq hr => exact absurd rfl hkept
  | dropSenders => exact absurd rfl hkept
  | dropReceivers => exact absurd rfl hkept
  | cancel => exact absurd rfl hkept
  | recv r rest hst hq hc => cases r <;> cases hb
  | _ => cases hb

/-- The returned actor has these books, and nothing is answered, closed or dropped any more. -/
private structure Returned (closes : List (Nat × ConnectionCloseReason)) (served : List (ConnectionRequest E × Answer U))
    (dropped : List (ConnectionRequest E)) (a : ProtocolActor E U) : Prop where
  stage : a.stage = .returned
  closes : a.closes = closes
  served : a.served = served
  dropped : a.dropped = dropped

private theorem step_returned {closes : List (Nat × ConnectionCloseReason)}
    {served : List (ConnectionRequest E × Answer U)} {dropped : List (ConnectionRequest E)} {a b : ProtocolActor E U}
    {l : ActorEvent E U} (h : Returned closes served dropped a) (hs : a.step l = some b) :
    Returned closes served dropped b := by
  have hst := h.stage
  cases step_stepped hs with
  | acceptConn => exact ⟨h.stage,h.closes,h.served,h.dropped⟩
  | dropSenders => exact ⟨h.stage,h.closes,h.served,h.dropped⟩
  | dropReceivers => exact ⟨h.stage,h.closes,h.served,h.dropped⟩
  | cancel => exact ⟨h.stage,h.closes,h.served,h.dropped⟩
  | request r hr => simp [isReturned,hst] at hr
  | _ => simp_all

private theorem isReturned_iff {a : ProtocolActor E U} : a.isReturned = true ↔ a.stage = .returned := by
  unfold isReturned
  cases a.stage <;> simp

/-- The state in which a returned actor has left its loop. -/
private theorem run_returns {labels : List (ActorEvent E U)} {a : ProtocolActor E U}
    (h : run step new labels = some a) (ha : a.isReturned = true) :
    ∃ before b, before <+: labels ∧ run step new before = some b ∧ b.isReturned = false ∧
      a.closes = b.closes ∧ a.served = b.served ∧ a.dropped = b.inService++b.requestRx := by
  obtain ⟨before,l,after,b,c,rfl,hb,hno,hstep,hc,hrest⟩ :=
    run_begins (p := fun x : ProtocolActor E U => x.isReturned = true) h (by simp [new,isReturned]) ha
  have hrunning : b.isReturned = false := Bool.eq_false_iff.mpr hno
  obtain ⟨hcloses,hserved,hdropped⟩ := step_returns hrunning hstep hc
  have hend : Returned c.closes c.served c.dropped a :=
    run_invariant (fun _ _ _ hi hs => step_returned hi hs) hrest ⟨isReturned_iff.mp hc,rfl,rfl,rfl⟩
  exact ⟨before,b,List.prefix_append _ _,hb,hrunning,hend.closes.trans hcloses,hend.served.trans hserved,
    hend.dropped.trans hdropped⟩

/-- A handle for an accepted connection is given out only when its stream began with the
open message. Each failed handshake with a stream closes its connection once, with a code
that the peer decodes to what was on the stream; no other connection is closed here, and
the return of the actor closes none. -/
theorem refused_connections_closed {labels : List (ActorEvent E U)} {a : ProtocolActor E U}
    (h : run step new labels = some a) :
    (∀ p ∈ a.served, Justified a.reads p.1 p.2) ∧
    (∀ k result, a.stage = .passingOn k result → Justified a.reads (.accept k : ConnectionRequest E) (answerOf k result)) ∧
    (a.isReturned = false → a.closes = a.served.filterMap closeOf++a.pendingClose) ∧
    (a.isReturned = true → ∃ before b, before <+: labels ∧ run step new before = some b ∧ b.isReturned = false ∧
      a.served = b.served ∧ a.dropped = b.inService++b.requestRx ∧
      a.closes = a.served.filterMap closeOf++b.pendingClose) ∧
    ∀ p ∈ a.closes, ConnectionCloseReason.tryFrom p.2.toCodeReason.1 = .ok p.2 := by
  have hbooks : ∀ (ls : List (ActorEvent E U)) x, run step new ls = some x → x.Books :=
    fun _ _ hx => run_invariant (fun _ _ _ hi hs => step_books hi hs) hx new_books
  have ha := hbooks labels a h
  refine ⟨ha.served,ha.passing,ha.closes_eq,fun hr => ?_,fun p _ => p.2.tryFrom_toCodeReason⟩
  obtain ⟨before,b,hpre,hb,hrunning,hcloses,hserved,hdropped⟩ := run_returns h hr
  refine ⟨before,b,hpre,hb,hrunning,hserved,hdropped,?_⟩
  rw [hcloses,hserved]
  exact (hbooks before b hb).closes_eq hrunning

/-- Twelve bytes that are not the open message. -/
def wrongStream : ChunkReader UInt8 := ⟨[List.replicate 12 0],by simp,.finished⟩

private theorem acceptHandshake_wrong : acceptHandshake wrongStream = .error .invalidOpenMessage := by
  have ho := acceptHandshake_opened wrongStream
  have hbytes : wrongStream.remaining = List.replicate 12 0 := rfl
  rw [hbytes] at ho
  generalize acceptHandshake wrongStream = out at ho
  cases ho with
  | valid r' he => exact absurd (List.prefix_append openMessage r'.remaining) (he ▸ by decide)
  | short hlt => exact absurd hlt (by decide)
  | wrong => rfl

/-- A peer that writes something else is closed with the code for it. Nobody takes the
error, and the actor returns with it. -/
theorem refused_connections_closed_wrong : ∃ a : ProtocolActor Unit Nat,
    run step new [.request (.accept 0),.recv,.biAccepted true,.openRead wrongStream 5,.dropReceivers,.passedOn] =
      some a ∧ a.isReturned = true ∧ a.closes = [(0,.invalidOpenMessage)] ∧
    ∃ b : ProtocolActor Unit Nat, b.isReturned = false ∧ a.dropped = b.inService++b.requestRx ∧
      a.closes = a.served.filterMap closeOf++b.pendingClose := by
  have hrun : ∃ a : ProtocolActor Unit Nat, run step new [.request (.accept 0),.recv,.biAccepted true,
      .openRead wrongStream 5,.dropReceivers,.passedOn] = some a ∧ a.isReturned = true ∧
      a.closes = [(0,.invalidOpenMessage)] := by
    simp [run,step,new,isReturned,recv,serve,biAccepted,openRead,acceptHandshake_wrong,refuse,passedOn,finish,
      channelBuffer,HandshakeError.closeReason]
  obtain ⟨a,ha,hr,hc⟩ := hrun
  obtain ⟨before,b,-,-,hrunning,-,hdropped,hcloses⟩ := (refused_connections_closed ha).2.2.2.1 hr
  exact ⟨a,ha,hr,hc,b,hrunning,hdropped,hcloses⟩

/-- Nothing is taken from the channel any more, and at most the request in service is
answered. -/
private theorem cancelled_step {a b : ProtocolActor E U} {l : ActorEvent E U} (hc : a.cancelled = true)
    (hs : a.step l = some b) : b.cancelled = true ∧
      ((b.served = a.served ∧ (b.inService = a.inService ∨ b.inService = [])) ∨
      ∃ r result, a.inService = [r] ∧ b.inService = [] ∧ b.served = a.served++[(r,result)]) := by
  cases step_moved hs with
  | queued r hr => exact ⟨hc,Or.inl ⟨rfl,Or.inl rfl⟩⟩
  | took result rest hq => exact ⟨hc,Or.inl ⟨rfl,Or.inl rfl⟩⟩
  | flagged cancelled senders receivers hkeep => exact ⟨hkeep hc,Or.inl ⟨rfl,Or.inl rfl⟩⟩
  | finished hr => exact ⟨hc,Or.inl ⟨rfl,Or.inr rfl⟩⟩
  | began r rest hst hq hno =>
    rw [hc] at hno
    cases hno
  | advanced stage hr hp hin hn => exact ⟨hc,Or.inl ⟨rfl,Or.inl hin⟩⟩
  | answered e t result hr hp hin hj => exact ⟨hc,Or.inr ⟨_,result,hin,rfl,rfl⟩⟩
  | decided k result reads hr hp hin hj => exact ⟨hc,Or.inl ⟨rfl,Or.inl hin.symm⟩⟩
  | passed k result hst => exact ⟨hc,Or.inr ⟨_,_,by simp only [inService,hst],rfl,rfl⟩⟩

/-- The token was cancelled at `a`, and at `c` at most the request in service there is answered. -/
private structure WindsUp (a c : ProtocolActor E U) : Prop where
  cancelled : c.cancelled = true
  answers : (c.served = a.served ∧ (c.inService = a.inService ∨ c.inService = [])) ∨
    ∃ r result, a.inService = [r] ∧ c.inService = [] ∧ c.served = a.served++[(r,result)]

private theorem step_windsUp {a c d : ProtocolActor E U} {l : ActorEvent E U} (h : WindsUp a c)
    (hs : c.step l = some d) : WindsUp a d := by
  obtain ⟨hdc,hnew⟩ := cancelled_step h.cancelled hs
  refine ⟨hdc,?_⟩
  rcases hnew with ⟨hserved,hin⟩ | ⟨r,result,hr,hd,hserved⟩
  · rw [hserved]
    rcases h.answers with ⟨hs',hin'⟩ | ⟨r,result,hr,hd,hs'⟩
    · refine Or.inl ⟨hs',?_⟩
      rcases hin with hin | hin
      · rw [hin]
        exact hin'
      · exact Or.inr hin
    · refine Or.inr ⟨r,result,hr,?_,hs'⟩
      rcases hin with hin | hin
      · rw [hin,hd]
      · exact hin
  · rcases h.answers with ⟨hs',hin'⟩ | ⟨r',result',-,hd',-⟩
    · rw [hr] at hin'
      rcases hin' with hin' | hin'
      · exact Or.inr ⟨r,result,hin'.symm,hd,by rw [hserved,hs']⟩
      · cases hin'
    · rw [hr] at hd'
      cases hd'

/-- Once the token is cancelled the actor answers at most the request that it was working
on: no run from there gives out more than one further handle. -/
theorem cancelled_answers_at_most_one {labels : List (ActorEvent E U)} {a b : ProtocolActor E U}
    (hc : a.cancelled = true) (h : run step a labels = some b) :
    ∃ more, b.served = a.served++more ∧ more.map Prod.fst <+: a.inService ∧ more.length ≤ 1 := by
  have hinv : WindsUp a b :=
    run_invariant (fun _ _ _ hw hs => step_windsUp hw hs) h ⟨hc,Or.inl ⟨rfl,Or.inl rfl⟩⟩
  rcases hinv.answers with ⟨hs,-⟩ | ⟨r,result,hr,-,hs⟩
  · exact ⟨[],by simpa using hs,List.nil_prefix,Nat.zero_le _⟩
  · exact ⟨[(r,result)],hs,by rw [hr]; exact List.prefix_rfl,Nat.le_refl _⟩

/-- A dial that is cut off by the shutdown is still answered, the next one is not. -/
theorem cancelled_answers_at_most_one_dial : ∃ a b : ProtocolActor Unit Nat,
    run step new [.request (.dial () 7),.request (.dial () 8),.recv,.cancel] = some a ∧
    run step a [.connected none,.cancelArm] = some b ∧ b.dropped = [.dial () 8] ∧
    ∃ more, b.served = a.served++more ∧ more.map Prod.fst <+: a.inService ∧ more.length ≤ 1 := by
  obtain ⟨a,ha⟩ : ∃ a : ProtocolActor Unit Nat,
    run step new [.request (.dial () 7),.request (.dial () 8),.recv,.cancel] = some a := ⟨_,rfl⟩
  obtain ⟨b,hb⟩ : ∃ b, run step a [.connected none,.cancelArm] = some b := by
    cases ha
    exact ⟨_,rfl⟩
  have hc : a.cancelled = true := by
    cases ha
    rfl
  refine ⟨a,b,ha,hb,?_,cancelled_answers_at_most_one hc hb⟩
  cases ha
  cases hb
  rfl

end ProtocolActor
end GossipCore.Protocol
