import GossipCore.Manager.Recovery
import GossipCore.Wire.Framing

/-! The frames that a chat actor enqueues for the send task of its connection, and the
limit that write_message puts on their length. -/
namespace GossipCore.Manager
open Base Persistence Wire SyncActor

structure SendingActor (I C S M : Type) where
  actor : SyncActor I C S M
  /-- All frames enqueued so far for the send task, while there is a connection. -/
  enqueued : Option (List ProtoMessage)

inductive SendingLabel (C M : Type) where
  | handle (l : SyncLabel C M)
  | connected
  | disconnected

namespace SendingActor
variable {I C S M O : Type} [DecidableEq I] [DecidableEq C] (pc : Postcard) (am : Automerge C S M O)
  (chatId : I) (encode : M → Bytes)

def initial (t : Tables I C) : SendingActor I C S M := ⟨SyncActor.initial t,none⟩

def handleOutgoingSyncMessage (syncMsg : Option M) : ProtoMessage := .sync (syncMsg.map encode)

/-- Without a connection send_message drops the frames of a handler. -/
def step (s : SendingActor I C S M) : SendingLabel C M → Option (SendingActor I C S M)
  | .handle l => (s.actor.step am chatId l).map (fun a =>
    ⟨a,s.enqueued.map (·++(SyncPair.outgoing am chatId s.actor a l).map (handleOutgoingSyncMessage encode))⟩)
  | .connected => some { s with enqueued := some [] }
  | .disconnected => some { s with enqueued := none }

/-- The sync state and the document from which a handler generates its message. -/
def generatesFrom (s : SyncActor I C S M) (l : SyncLabel C M) : Option (S × Doc C) :=
  match s.memory, l with
  | some m, .localSend _ (some c) true => some (m.doc.syncState,insert c m.doc.doc)
  | some m, .syncTick true => some (m.doc.syncState,m.doc.doc)
  | some m, .connStateChanged true => some (am.newState,m.doc.doc)
  | some m, .incoming .empty _ _ _ => some (m.doc.syncState,m.doc.doc)
  | some m, .incoming (.sync x) ok oks i =>
    let applied := (m.doc.applySyncMessage am x).1
    let out := m.doc.receiveSyncMessage am chatId ok (some x) s.tables
    match out.1, m.resetDocState, out.2.2.resetDocStateToPersisted am chatId oks i out.2.1 with
    | .ok _, _, _ => some (applied.syncState,applied.doc)
    | .error _, false, some (.ok _,_,doc) => some (doc.syncState,doc.doc)
    | _, _, _ => none
  | _, _ => none

/-- The condition on the step: what automerge generates from there while there is a
connection has an encoding that fits into a frame. -/
def Fits (s : SendingActor I C S M) : SendingLabel C M → Prop
  | .handle l => s.enqueued.isSome → ∀ p x, generatesFrom am chatId s.actor l = some p →
    (am.generateSyncMessage p.1 p.2).2 = some x → (encode x).length ≤ maxSyncMessage
  | _ => True

private theorem generatesFrom_ignored {s : SyncActor I C S M} {l : SyncLabel C M} (hl : Ignored l) :
    generatesFrom am chatId s l = none := by
  cases l with
  | «open» oks i => cases hl
  | localSend msg commit ok =>
    cases commit with
    | none => cases hm : s.memory <;> simp [generatesFrom,hm]
    | some c => cases hl
  | incoming frame ok oks i =>
    cases frame with
    | undecodable => cases hm : s.memory <;> simp [generatesFrom,hm]
    | empty => cases hl
    | sync msg => cases hl
  | syncTick connected =>
    cases connected with
    | true => cases hl
    | false => cases hm : s.memory <;> simp [generatesFrom,hm]
  | connStateChanged connected =>
    cases connected with
    | true => cases hl
    | false => cases hm : s.memory <;> simp [generatesFrom,hm]
  | crash => cases hl

theorem generated_of_handled {s s' : SyncActor I C S M} {l : SyncLabel C M} (h : Handled am chatId s l s') :
    s'.generated = (generatesFrom am chatId s l).bind (fun p => (am.generateSyncMessage p.1 p.2).2) := by
  cases h with
  | crash => simp [generatesFrom]
  | opened oks i hn t ht hrow hst => simp [generatesFrom]
  | openFailed oks i hn t ht hst => simp [generatesFrom]
  | ignored m hm l hl => rw [generatesFrom_ignored am chatId hl,Option.bind_none]
  | sendFailed m hm msg c hc hres => simp [generatesFrom,hm]
  | sent m hm msg c hc t doc hp hres =>
    simp only [generatesFrom,hm,Option.bind_some,ChatRepository.generateSyncMessage,hp.syncState,hp.doc]
    rfl
  | tick m hm => simp [generatesFrom,hm,SyncActor.generate,ChatRepository.generateSyncMessage]
  | connected m hm =>
    simp [generatesFrom,hm,SyncActor.generate,ChatRepository.generateSyncMessage,ChatRepository.resetSyncState]
  | answered m hm ok oks i =>
    simp [generatesFrom,hm,SyncActor.generate,ChatRepository.generateSyncMessage]
  | merged m hm msg ok oks i ha t doc hp messages he u hres =>
    obtain ⟨reply,hres⟩ := hres
    simp only [generatesFrom,hm,hres,Option.bind_some,ChatRepository.generateSyncMessage,hp.syncState,hp.doc]
  | rejected m hm msg ok oks i t doc hj u s' e hres hr =>
    cases hr with
    | gaveUp hf => simp [generatesFrom,hm,hres,show m.resetDocState = true from hf]
    | reloaded hf t' ht hs hr hl =>
      simp [generatesFrom,hm,hres,show m.resetDocState = false from hf,hl,SyncActor.generate,
        ChatRepository.generateSyncMessage]
    | reloadFailed hf t' ht hs hr e' hl =>
      simp [generatesFrom,hm,hres,show m.resetDocState = false from hf,hl]

/-- No frame for the send task is too large. -/
def FramesPass (s : SendingActor I C S M) : Prop :=
  ∀ frames, s.enqueued = some frames →
    ∀ frame ∈ frames, writeMessage pc frame defaultMaxMessageSize ≠ .error .tooLarge

theorem frame_passes_iff (syncMsg : Option M) :
    writeMessage pc (handleOutgoingSyncMessage encode syncMsg) defaultMaxMessageSize ≠ .error .tooLarge ↔
      ∀ x, syncMsg = some x → (encode x).length ≤ maxSyncMessage := by
  rw [ne_eq,writeMessage_tooLarge_iff,Nat.not_le]
  cases syncMsg with
  | none =>
    refine ⟨fun _ x h => (by cases h),fun _ => ?_⟩
    rw [handleOutgoingSyncMessage,Option.map_none,Postcard.serializedSize,pc.length_none]
    decide
  | some x =>
    rw [handleOutgoingSyncMessage,Option.map_some,serializedSize_lt_iff]
    refine ⟨fun h y hy => ?_,fun h => h x rfl⟩
    cases hy
    exact h

/-- What a handler enqueues passes exactly when the message it has generated fits. -/
theorem outgoing_pass_iff {s s' : SyncActor I C S M} {l : SyncLabel C M} :
    (∀ frame ∈ (SyncPair.outgoing am chatId s s' l).map (handleOutgoingSyncMessage encode),
      writeMessage pc frame defaultMaxMessageSize ≠ .error .tooLarge) ↔
      ∀ x, s'.generated = some x → (encode x).length ≤ maxSyncMessage := by
  rw [List.forall_mem_map]
  simp only [frame_passes_iff]
  cases hg : s'.generated with
  | none =>
    simp only [SyncPair.outgoing,hg]
    split <;> simp
  | some x => simp [SyncPair.outgoing,hg]

theorem step_passes_iff {s s' : SendingActor I C S M} {l : SendingLabel C M} (hs : Tracked am chatId s.actor)
    (hp : FramesPass pc s) (h : step am chatId encode s l = some s') :
    FramesPass pc s' ↔ Fits am chatId encode s l := by
  cases l with
  | handle l =>
    obtain ⟨a,ha,rfl⟩ := Option.map_eq_some_iff.mp h
    have hgen := generated_of_handled am chatId (step_handled am chatId hs ha)
    cases he : s.enqueued with
    | none => exact ⟨fun _ hsome => by simp [he] at hsome,fun _ frames hf => by simp at hf⟩
    | some frames =>
      have hfits : Fits am chatId encode s (.handle l) ↔
          ∀ x, a.generated = some x → (encode x).length ≤ maxSyncMessage := by
        simp only [Fits,he,hgen,Option.isSome_some,forall_const,Option.bind_eq_some_iff]
        constructor
        · rintro h x ⟨p,hp,hx⟩
          exact h p x hp hx
        · intro h p x hp hx
          exact h x ⟨p,hp,hx⟩
      rw [hfits,← outgoing_pass_iff pc am chatId encode]
      simp only [FramesPass,Option.map_some,Option.some.injEq,forall_eq',List.mem_append]
      exact ⟨fun h f hf => h f (Or.inr hf),fun h f hf => hf.elim (hp frames he f) (h f)⟩
  | connected =>
    cases h
    exact ⟨fun _ => trivial,fun _ frames he frame hf => by cases he; cases hf⟩
  | disconnected =>
    cases h
    exact ⟨fun _ => trivial,fun _ frames he => by cases he⟩

theorem step_tracked {s s' : SendingActor I C S M} {l : SendingLabel C M} (hs : Tracked am chatId s.actor)
    (h : step am chatId encode s l = some s') : Tracked am chatId s'.actor := by
  cases l with
  | handle l =>
    obtain ⟨a,ha,rfl⟩ := Option.map_eq_some_iff.mp h
    exact SyncActor.step_tracked am chatId hs ha
  | connected =>
    cases h
    exact hs
  | disconnected =>
    cases h
    exact hs

/-- In all states of a run write_message takes every frame that has been enqueued, and
the send task goes on, exactly when each handler with a connection generates a message
of at most maxSyncMessage bytes. -/
theorem own_frames_fit_iff {t : Tables I C} (hn : t.chats chatId = none) (hl : t.selectLog chatId = [])
    {labels : List (SendingLabel C M)} {s : SendingActor I C S M}
    (h : run (step am chatId encode) (initial t) labels = some s) :
    (∀ pre post u, labels = pre++post → run (step am chatId encode) (initial t) pre = some u →
      ∀ frames, u.enqueued = some frames →
        (∀ frame ∈ frames, writeMessage pc frame defaultMaxMessageSize ≠ .error .tooLarge) ∧
        writeMessages pc defaultMaxMessageSize frames ≠ .error .tooLarge) ↔
      StepsMeet (step am chatId encode) (Fits am chatId encode) (initial t) labels := by
  have hgood : ∀ u : SendingActor I C S M, (∀ frames, u.enqueued = some frames →
      (∀ frame ∈ frames, writeMessage pc frame defaultMaxMessageSize ≠ .error .tooLarge) ∧
      writeMessages pc defaultMaxMessageSize frames ≠ .error .tooLarge) ↔ FramesPass pc u := by
    intro u
    refine ⟨fun h frames hf => (h frames hf).1,fun h frames hf => ⟨h frames hf,fun hw => ?_⟩⟩
    obtain ⟨frame,hmem,hlarge⟩ := writeMessages_tooLarge_iff.mp hw
    exact h frames hf frame hmem hlarge
  refine prefixes_good_iff (fun l _ _ _ hs hst => step_tracked am chatId encode hs hst) ?_ h
    (SyncActor.initial_tracked am chatId hn hl) (fun frames hf => by cases hf)
  intro l _ u v hu hp hst
  exact (hgood v).trans (step_passes_iff pc am chatId encode hu ((hgood u).mp hp) hst)

/-- The condition as a test. -/
def fits (s : SendingActor I C S M) : SendingLabel C M → Bool
  | .handle l => (generatesFrom am chatId s.actor l).all (fun p =>
    (am.generateSyncMessage p.1 p.2).2.all (fun x => (encode x).length ≤ maxSyncMessage))
  | _ => true

theorem fits_of_test (s : SendingActor I C S M) (l : SendingLabel C M) (h : fits am chatId encode s l = true) :
    Fits am chatId encode s l := by
  cases l with
  | handle l =>
    intro _ p x hp hx
    simpa [fits,hp,hx] using h
  | connected => trivial
  | disconnected => trivial

/-- The parts of a message that its size depends on: the type byte, 32 bytes for each head,
and the text that change 1 appends and that does not compress. -/
def encodeText (text : List Char) (m : Session.Message) : Bytes :=
  0x42::List.replicate (32*m.heads.card) 0++if 1 ∈ m.changes then text.map (fun c => UInt8.ofNat c.toNat) else []

/-- The chat is created and connected, the peer announces the same history, and then a
message with the text is added. -/
def sendText (text : List Char) : List (SendingLabel Nat Session.Message) :=
  [.connected,.handle (.open [true,true] 0),.handle (.connStateChanged true),
    .handle (.incoming (.sync ⟨{0},∅⟩) true [] 0),
    .handle (.localSend ⟨"m1","A",.text (String.ofList text),1,1⟩ (some 1) true)]

theorem own_frames_fit_hello : ∃ s : SendingActor Unit Nat Session.State Session.Message,
    run (step Session.automerge () (encodeText ['h','e','l','l','o'])) (initial Tables.empty)
      (sendText ['h','e','l','l','o']) = some s ∧
    ∀ frames, s.enqueued = some frames → writeMessages wireFormat defaultMaxMessageSize frames ≠ .error .tooLarge := by
  have hrun : (run (step Session.automerge () (encodeText ['h','e','l','l','o'])) (initial Tables.empty)
      (sendText ['h','e','l','l','o'])).isSome = true := by decide +kernel
  obtain ⟨s,hs⟩ := Option.isSome_iff_exists.mp hrun
  have hmeet : StepsMeet (step Session.automerge () (encodeText ['h','e','l','l','o']))
      (Fits Session.automerge () (encodeText ['h','e','l','l','o'])) (initial Tables.empty)
      (sendText ['h','e','l','l','o']) :=
    stepsMeet_of_pass (fits_of_test Session.automerge () _) (by decide +kernel)
  have hall := (own_frames_fit_iff wireFormat Session.automerge () (encodeText ['h','e','l','l','o']) rfl rfl hs).mpr hmeet
  exact ⟨s,hs,fun frames hf => (hall _ [] s (List.append_nil _).symm hs frames hf).2⟩

/-- Two million characters of six bits each. -/
def longText : List Char := (List.range (2^21)).map (fun n => Char.ofNat (n^3%1000003%64+48))

private theorem length_encodeText {m : Session.Message} (h : 1 ∈ m.changes) :
    2^21 ≤ (encodeText longText m).length := by
  have htext : (longText.map (fun c => UInt8.ofNat c.toNat)).length = 2^21 := by
    rw [List.length_map,longText,List.length_map,List.length_range]
  rw [encodeText,if_pos h,List.length_append,htext]
  exact Nat.le_add_left _ _

/-- A handler with a connection that generates too long a message ends the send task. -/
theorem ends_of_long {s s' : SendingActor I C S M} {l : SyncLabel C M} {x : M}
    (h : step am chatId encode s (.handle l) = some s') (hs : s.enqueued.isSome)
    (hx : s'.actor.generated = some x) (hlong : maxSyncMessage < (encode x).length) :
    ∃ frames, s'.enqueued = some frames ∧ writeMessages pc defaultMaxMessageSize frames = .error .tooLarge := by
  obtain ⟨frames,hf⟩ := Option.isSome_iff_exists.mp hs
  obtain ⟨a,ha,rfl⟩ := Option.map_eq_some_iff.mp h
  refine ⟨frames++[handleOutgoingSyncMessage encode (some x)],?_,writeMessages_tooLarge_iff.mpr ?_⟩
  · simp [hf,SyncPair.outgoing,show a.generated = some x from hx]
  · refine ⟨_,List.mem_append_right _ List.mem_cons_self,not_not.mp (fun hp => ?_)⟩
    exact absurd ((frame_passes_iff pc encode (some x)).mp hp x rfl) (Nat.not_le.mpr hlong)

/-- The connection is made again and the peer announces the same history as before. -/
def reconnect : List (SendingLabel Nat Session.Message) :=
  [.disconnected,.connected,.handle (.connStateChanged true),.handle (.incoming (.sync ⟨{0},∅⟩) true [] 0)]

private theorem ends_after (labels : List (SendingLabel Nat Session.Message)) (l : SyncLabel Nat Session.Message)
    (h : (run (step Session.automerge () (encodeText longText)) (initial Tables.empty) labels).bind (fun u =>
      (step Session.automerge () (encodeText longText) u (.handle l)).bind (fun v =>
        v.actor.generated.map (fun x => (u.enqueued.isSome,decide (1 ∈ x.changes))))) = some (true,true)) :
    ∃ s : SendingActor Unit Nat Session.State Session.Message,
      run (step Session.automerge () (encodeText longText)) (initial Tables.empty) (labels++[.handle l]) = some s ∧
      ∃ frames, s.enqueued = some frames ∧ writeMessages wireFormat defaultMaxMessageSize frames = .error .tooLarge := by
  obtain ⟨u,hu,h⟩ := Option.bind_eq_some_iff.mp h
  obtain ⟨v,hv,h⟩ := Option.bind_eq_some_iff.mp h
  obtain ⟨x,hx,he⟩ := Option.map_eq_some_iff.mp h
  simp only [Prod.mk.injEq,decide_eq_true_eq] at he
  refine ⟨v,by simp [run_append,hu,run,hv],ends_of_long wireFormat Session.automerge () _ hv he.1 hx ?_⟩
  exact Nat.lt_of_lt_of_le (by decide) (length_encodeText he.2)

/-- The frame with the text is too large, and so is the one after the next connection. -/
theorem long_text_ends_send_task :
    (∃ s : SendingActor Unit Nat Session.State Session.Message,
      run (step Session.automerge () (encodeText longText)) (initial Tables.empty) (sendText longText) = some s ∧
      ∃ frames, s.enqueued = some frames ∧ writeMessages wireFormat defaultMaxMessageSize frames = .error .tooLarge) ∧
    ∃ s : SendingActor Unit Nat Session.State Session.Message,
      run (step Session.automerge () (encodeText longText)) (initial Tables.empty)
        (sendText longText++reconnect) = some s ∧
      ∃ frames, s.enqueued = some frames ∧ writeMessages wireFormat defaultMaxMessageSize frames = .error .tooLarge := by
  refine ⟨ends_after ((sendText longText).take 4) _ ?_,ends_after (sendText longText++reconnect.take 3) _ ?_⟩
  · decide +kernel
  · decide +kernel

end SendingActor
end GossipCore.Manager
