import GossipCore.Protocol.Tasks

/-! From the tx of one side to the rx of the other: whatever the tasks on both sides do,
and wherever the stream breaks, what is received is a beginning of what was accepted. -/
namespace GossipCore.Protocol
open Base Chat Wire
variable {pc : Postcard}

def framesOf (pc : Postcard) (msgs : List ProtoMessage) : Bytes := msgs.flatMap (fun m => frame (pc.encode m))

private theorem framesOf_cons (m : ProtoMessage) (ms : List ProtoMessage) :
    framesOf pc (m::ms) = frame (pc.encode m)++framesOf pc ms := List.flatMap_cons

private theorem framesOf_append (ms ns : List ProtoMessage) : framesOf pc (ms++ns) = framesOf pc ms++framesOf pc ns :=
  List.flatMap_append

/-- A stream that stops inside the next frame gives no further message. -/
private theorem receiveLoop_torn {m : ProtoMessage} {rest : Bytes} {r : ChunkReader UInt8} {maxMessageSize : Nat}
    (hm : (pc.encode m).length < 2^32) (hr : r.remaining <+: frame (pc.encode m)++rest)
    (hshort : r.remaining.length < (frame (pc.encode m)).length) :
    (receiveLoop pc maxMessageSize [] r).1 = [] := by
  obtain ⟨tail,htail⟩ := hr
  rcases readMessage_cases pc r maxMessageSize with ⟨-,he⟩ | ⟨n,body,hn,hrem,hcases⟩
  · rw [receiveLoop_last he]
  · rw [hrem,List.append_assoc,frame,List.append_assoc] at htail
    obtain ⟨rfl,-⟩ := be32_append_inj hn hm htail
    rw [hrem,frame,List.length_append,List.length_append,length_be32] at hshort
    rcases hcases with ⟨-,he⟩ | ⟨-,-,he⟩ | ⟨-,he⟩ | ⟨hfull,-⟩
    · rw [receiveLoop_last he]
    · rw [receiveLoop_last he]
    · rw [receiveLoop_last he]
    · omega

/-- The loop on a part of a stream of frames returns a beginning of their messages. -/
theorem receiveLoop_part {maxMessageSize : Nat} (hmax : maxMessageSize ≤ 2^32) {msgs : List ProtoMessage}
    (h : ∀ m ∈ msgs, pc.serializedSize m < maxMessageSize) {r : ChunkReader UInt8}
    (hr : r.remaining <+: framesOf pc msgs) : (receiveLoop pc maxMessageSize [] r).1 <+: msgs := by
  induction msgs generalizing r with
  | nil =>
    have hnil : r.remaining = [] := List.prefix_nil.mp hr
    rcases readMessage_cases pc r maxMessageSize with ⟨-,he⟩ | ⟨n,body,-,hrem,-⟩
    · rw [receiveLoop_last he]
    · have hlen := congrArg List.length hrem
      rw [hnil,List.length_append,length_be32,List.length_nil] at hlen
      omega
  | cons m ms ih =>
    rw [framesOf_cons] at hr
    have hm := h m List.mem_cons_self
    rcases Nat.lt_or_ge r.remaining.length (frame (pc.encode m)).length with hshort | hlong
    · rw [receiveLoop_torn (Nat.lt_of_lt_of_le hm hmax) hr hshort]
      exact List.nil_prefix
    · obtain ⟨tail,htail⟩ := List.prefix_of_prefix_length_le (List.prefix_append _ _) hr hlong
      obtain ⟨r',hread,hr',-⟩ := readMessage_frame hmax hm htail.symm
      have hrest : r'.remaining <+: framesOf pc ms := by
        rw [hr']
        rw [← htail] at hr
        exact (List.prefix_append_right_inj _).mp hr
      rw [receiveLoop_value hread]
      exact List.cons_prefix_cons.mpr ⟨rfl,ih (fun x hx => h x (List.mem_cons_of_mem m hx)) hrest⟩

/-- The loop gets through the frames that are there completely. -/
theorem receiveLoop_whole {maxMessageSize : Nat} (hmax : maxMessageSize ≤ 2^32) {msgs : List ProtoMessage}
    (h : ∀ m ∈ msgs, pc.serializedSize m < maxMessageSize) {r : ChunkReader UInt8} {rest : Bytes}
    (hr : r.remaining = framesOf pc msgs++rest) : msgs <+: (receiveLoop pc maxMessageSize [] r).1 := by
  induction msgs generalizing r with
  | nil => exact List.nil_prefix
  | cons m ms ih =>
    rw [framesOf_cons,List.append_assoc] at hr
    obtain ⟨r',hread,hr',-⟩ := readMessage_frame hmax (h m List.mem_cons_self) hr
    rw [receiveLoop_value hread]
    exact List.cons_prefix_cons.mpr ⟨rfl,ih (fun x hx => h x (List.mem_cons_of_mem m hx)) hr'⟩

namespace Outgoing

/-- The bytes of the messages on the stream, with what a failed write has left there. -/
def stream (pc : Postcard) (o : Outgoing) : Bytes := framesOf pc o.written++(o.torn.map Prod.snd).getD []

/-- Messages leave in the order in which tx took them; only the last write can be torn. -/
structure Sending (pc : Postcard) (o : Outgoing) : Prop where
  kept : o.task ≠ .ended → o.torn = none ∧ o.accepted = o.written++(o.inHand++o.writeRx)
  sent : ∃ rest, o.accepted = o.written++((o.torn.map Prod.fst).toList++rest)
  fits : ∀ m ∈ o.written, pc.serializedSize m < defaultMaxMessageSize
  torn : ∀ m part, o.torn = some (m,part) → pc.serializedSize m < defaultMaxMessageSize ∧
    part <+: frame (pc.encode m)
  done : o.finished = true → o.senders = 0 ∧ o.written = o.accepted ∧ o.torn = none ∧
    (o.task = .stopping ∨ o.task = .ended)

theorem spawn_sending : spawn.Sending pc :=
  ⟨fun _ => ⟨rfl,rfl⟩,⟨[],rfl⟩,by simp [spawn],by simp [spawn],by simp [spawn]⟩

private theorem writeMessage_cases (pc : Postcard) (m : ProtoMessage) :
    writeMessage pc m defaultMaxMessageSize = .error .tooLarge ∨
    (pc.serializedSize m < defaultMaxMessageSize ∧
      writeMessage pc m defaultMaxMessageSize = .ok (frame (pc.encode m))) := by
  rcases Nat.lt_or_ge (pc.serializedSize m) defaultMaxMessageSize with hlt | hge
  · have hmod : pc.serializedSize m%2^32 = pc.serializedSize m :=
      Nat.mod_eq_of_lt (Nat.lt_trans hlt (by decide))
    refine Or.inr ⟨hlt,?_⟩
    rw [writeMessage,if_neg (Nat.not_le.mpr hlt),hmod]
    rfl
  · exact Or.inl (writeMessage_tooLarge_iff.mpr hge)

private theorem Sending.not_finished {o : Outgoing} (h : o.Sending pc) {m : ProtoMessage} (ht : o.task = .writing m) :
    o.finished = false := by
  cases hf : o.finished with
  | false => rfl
  | true =>
    obtain ⟨-,-,-,hst | hst⟩ := h.done hf <;> cases ht.symm.trans hst

private theorem Sending.write {o o' : Outgoing} (h : o.Sending pc) (hs : o.write pc = some o') : o'.Sending pc := by
  unfold Outgoing.write at hs
  split at hs
  · rename_i m ht
    have hfin := h.not_finished ht
    obtain ⟨htorn,hacc⟩ := h.kept (by simp [ht])
    have hhand : o.inHand = [m] := by simp [inHand,ht]
    rw [hhand] at hacc
    have hsplit : o.accepted = (o.written++[m])++o.writeRx := by rw [hacc]; simp
    rcases writeMessage_cases pc m with hbig | ⟨hlt,hok⟩
    · rw [hbig] at hs
      cases hs
      exact ⟨fun hne => absurd rfl hne,h.sent,h.fits,h.torn,fun hf => by rw [hfin] at hf; cases hf⟩
    · rw [hok] at hs
      cases hs
      refine ⟨fun _ => ⟨htorn,hsplit⟩,⟨o.writeRx,by rw [htorn]; exact hsplit⟩,fun x hx => ?_,h.torn,
        fun hf => by rw [hfin] at hf; cases hf⟩
      rcases List.mem_append.mp hx with hx | hx
      · exact h.fits x hx
      · rw [List.mem_singleton.mp hx]
        exact hlt
  · cases hs

private theorem Sending.writeFails {o o' : Outgoing} (h : o.Sending pc) {n : Nat} (hs : o.writeFails pc n = some o') :
    o'.Sending pc := by
  unfold Outgoing.writeFails at hs
  split at hs
  · rename_i m ht
    have hfin := h.not_finished ht
    obtain ⟨htorn,hacc⟩ := h.kept (by simp [ht])
    have hhand : o.inHand = [m] := by simp [inHand,ht]
    rw [hhand] at hacc
    rcases writeMessage_cases pc m with hbig | ⟨hlt,hok⟩
    · rw [hbig] at hs
      cases hs
      exact ⟨fun hne => absurd rfl hne,h.sent,h.fits,h.torn,fun hf => by rw [hfin] at hf; cases hf⟩
    · rw [hok] at hs
      cases hs
      refine ⟨fun hne => absurd rfl hne,⟨o.writeRx,hacc⟩,h.fits,fun m' part hm => ?_,
        fun hf => by rw [hfin] at hf; cases hf⟩
      cases hm
      exact ⟨hlt,List.take_prefix _ _⟩
  · cases hs

private theorem Sending.stopped {o o' : Outgoing} (h : o.Sending pc) (hs : o.stopped = some o') : o'.Sending pc := by
  unfold Outgoing.stopped at hs
  split at hs
  · cases hs
    refine ⟨fun hne => absurd rfl hne,h.sent,h.fits,h.torn,fun hf => ?_⟩
    obtain ⟨hz,hw,htorn,-⟩ := h.done hf
    exact ⟨hz,hw,htorn,Or.inr rfl⟩
  · cases hs

private theorem Sending.recv {o o' : Outgoing} (h : o.Sending pc) (hs : o.recv = some o') : o'.Sending pc := by
  unfold Outgoing.recv at hs
  split at hs
  · rename_i m rest ht hq
    cases hs
    obtain ⟨htorn,hacc⟩ := h.kept (by simp [ht])
    have hhand : o.inHand = [] := by simp [inHand,ht]
    rw [hhand,hq] at hacc
    refine ⟨fun _ => ⟨htorn,hacc⟩,h.sent,h.fits,h.torn,fun hf => ?_⟩
    obtain ⟨-,-,-,hst | hst⟩ := h.done hf <;> cases ht.symm.trans hst
  · rename_i ht hq
    split at hs <;> cases hs
    rename_i hz
    obtain ⟨htorn,hacc⟩ := h.kept (by simp [ht])
    have hhand : o.inHand = [] := by simp [inHand,ht]
    rw [hhand,hq] at hacc
    exact ⟨fun _ => ⟨htorn,by rw [hq]; exact hacc⟩,h.sent,h.fits,h.torn,
      fun _ => ⟨hz,by simpa using hacc.symm,htorn,Or.inl rfl⟩⟩
  · cases hs

theorem step_sending {down : Bool} {o o' : Outgoing} {l : SendLabel} (h : o.Sending pc)
    (hs : o.step pc down l = some o') : o'.Sending pc := by
  cases l with
  | cloneTx =>
    simp only [step] at hs
    split at hs <;> cases hs
    rename_i hne
    exact ⟨h.kept,h.sent,h.fits,h.torn,fun hf => absurd (h.done hf).1 hne⟩
  | dropTx =>
    simp only [step] at hs
    split at hs <;> cases hs
    rename_i hne
    exact ⟨h.kept,h.sent,h.fits,h.torn,fun hf => absurd (h.done hf).1 hne⟩
  | enqueue m =>
    simp only [step] at hs
    split at hs <;> cases hs
    rename_i hg
    obtain ⟨htorn,hacc⟩ := h.kept hg.2.1
    have hacc' : o.accepted++[m] = o.written++(o.inHand++(o.writeRx++[m])) := by rw [hacc]; simp
    exact ⟨fun _ => ⟨htorn,hacc'⟩,⟨_,by rw [htorn]; exact hacc'⟩,h.fits,h.torn,fun hf => absurd (h.done hf).1 hg.1⟩
  | write =>
    simp only [step] at hs
    split at hs
    · cases hs
    · exact h.write hs
  | refused n => exact h.writeFails hs
  | stopped => exact h.stopped hs
  | recv => exact h.recv hs
  | fail n =>
    simp only [step] at hs
    split at hs
    · exact h.writeFails hs
    · cases hs
  | stoppedFail =>
    simp only [step] at hs
    split at hs
    · exact h.stopped hs
    · cases hs

/-- All that is on the stream belongs to a beginning of the accepted messages. -/
theorem Sending.stream_begins {o : Outgoing} (h : o.Sending pc) : ∃ msgs, msgs <+: o.accepted ∧
    (∀ m ∈ msgs, pc.serializedSize m < defaultMaxMessageSize) ∧ o.stream pc <+: framesOf pc msgs := by
  obtain ⟨rest,hrest⟩ := h.sent
  cases htorn : o.torn with
  | none =>
    refine ⟨o.written,?_,h.fits,?_⟩
    · rw [hrest]
      exact List.prefix_append _ _
    · rw [stream,htorn]
      simp
  | some t =>
    obtain ⟨m,part⟩ := t
    obtain ⟨hlt,hpart⟩ := h.torn m part htorn
    rw [htorn] at hrest
    refine ⟨o.written++[m],⟨rest,by rw [hrest]; simp⟩,fun x hx => ?_,?_⟩
    · rcases List.mem_append.mp hx with hx | hx
      · exact h.fits x hx
      · rw [List.mem_singleton.mp hx]
        exact hlt
    · rw [stream,htorn,framesOf_append]
      refine (List.prefix_append_right_inj _).mpr ?_
      rw [framesOf_cons]
      exact hpart.trans (List.prefix_append _ _)

end Outgoing

namespace Incoming

/-- What the loop over the whole stream returns. -/
def toRead (pc : Postcard) (r : ChunkReader UInt8) : List ProtoMessage × LoopEnd :=
  receiveLoop pc defaultMaxMessageSize [] r

/-- The task is somewhere inside the loop over its stream; nothing that was read is lost
or reordered on the way to rx as long as the task goes on. -/
structure Receiving (pc : Postcard) (r : ChunkReader UInt8) (i : Incoming) : Prop where
  ahead : i.task ≠ .ended → toRead pc r = (i.got++(receiveLoop pc defaultMaxMessageSize i.recvBuf i.recv).1,
    (receiveLoop pc defaultMaxMessageSize i.recvBuf i.recv).2)
  read : i.got <+: (toRead pc r).1
  kept : i.task ≠ .ended → i.received++(i.readRx++i.inHand) = i.got
  given : i.received++i.readRx <+: i.got
  clean : i.clean = true → i.task = .ended ∧ i.received++i.readRx = i.got ∧ toRead pc r = (i.got,.closed)

theorem spawn_receiving (r : ChunkReader UInt8) : (spawn r).Receiving pc r :=
  ⟨fun _ => rfl,List.nil_prefix,fun _ => rfl,List.prefix_rfl,by simp [spawn]⟩

private theorem Receiving.not_clean {r : ChunkReader UInt8} {i : Incoming} (h : i.Receiving pc r)
    (ht : i.task ≠ .ended) : i.clean = false := by
  cases hc : i.clean with
  | false => rfl
  | true => exact absurd (h.clean hc).1 ht

private theorem Receiving.ends {r : ChunkReader UInt8} {i : Incoming} (h : i.Receiving pc r) (ht : i.task ≠ .ended) :
    ({ i with task := .ended } : Incoming).Receiving pc r :=
  ⟨fun hne => absurd rfl hne,h.read,fun hne => absurd rfl hne,h.given,
    fun hc => absurd ((h.not_clean ht).symm.trans hc) (by decide)⟩

private theorem Receiving.readStep {r : ChunkReader UInt8} {i i' : Incoming} (h : i.Receiving pc r)
    (hs : i.read pc = some i') : i'.Receiving pc r := by
  unfold Incoming.read at hs
  split at hs
  · rename_i ht
    have hne : i.task ≠ .ended := by simp [ht]
    have hnot := h.not_clean hne
    have hloop := h.ahead hne
    have hkept := h.kept hne
    have hhand : i.inHand = [] := by simp [inHand,ht]
    rw [hhand,List.append_nil] at hkept
    split at hs <;> cases hs
    · rename_i m rest r' hread
      rw [receiveLoop_value hread] at hloop
      refine ⟨fun _ => by rw [hloop]; simp,?_,fun _ => ?_,h.given.trans (List.prefix_append _ _),
        fun hc => absurd (hnot.symm.trans hc) (by decide)⟩
      · rw [hloop]
        exact (List.prefix_append_right_inj _).mpr (List.cons_prefix_cons.mpr ⟨rfl,List.nil_prefix⟩)
      · rw [← hkept,List.append_assoc]
        rfl
    · rename_i hread
      have hend : receiveLoop pc defaultMaxMessageSize i.recvBuf i.recv = ([],.closed) :=
        receiveLoop_last (by rw [hread]; rfl)
      rw [hend,List.append_nil] at hloop
      exact ⟨fun hne => absurd rfl hne,h.read,fun hne => absurd rfl hne,h.given,fun _ => ⟨rfl,hkept,hloop⟩⟩
    · exact h.ends hne
    · exact h.ends hne
  · cases hs

private theorem Receiving.forwardStep {r : ChunkReader UInt8} {i i' : Incoming} (h : i.Receiving pc r)
    (hs : i.forward = some i') : i'.Receiving pc r := by
  unfold Incoming.forward at hs
  split at hs
  · rename_i m ht
    have hne : i.task ≠ .ended := by simp [ht]
    have hkept := h.kept hne
    have hhand : i.inHand = [m] := by simp [inHand,ht]
    rw [hhand] at hkept
    split at hs
    · cases hs
      exact h.ends hne
    · split at hs <;> cases hs
      refine ⟨fun _ => h.ahead hne,h.read,fun _ => ?_,?_,
        fun hc => absurd ((h.not_clean hne).symm.trans hc) (by decide)⟩
      · rw [← hkept]
        simp [inHand]
      · rw [← hkept]
  · cases hs

theorem step_receiving {r : ChunkReader UInt8} {down : Bool} {i i' : Incoming} {l : RecvLabel} (h : i.Receiving pc r)
    (hs : i.step pc down l = some i') : i'.Receiving pc r := by
  cases l with
  | cloneRx =>
    simp only [step] at hs
    split at hs <;> cases hs
    exact ⟨h.ahead,h.read,h.kept,h.given,h.clean⟩
  | dropRx =>
    simp only [step] at hs
    split at hs <;> cases hs
    exact ⟨h.ahead,h.read,h.kept,h.given,h.clean⟩
  | receive =>
    simp only [step] at hs
    split at hs
    · rename_i m rest hrx
      split at hs <;> cases hs
      have hmove : (i.received++[m])++rest = i.received++i.readRx := by rw [hrx]; simp
      refine ⟨h.ahead,h.read,fun hne => ?_,?_,fun hc => ?_⟩
      · have hkept := h.kept hne
        rw [hrx] at hkept
        rw [← hkept]
        simp [inHand]
      · rw [hmove]
        exact h.given
      · rw [hmove]
        exact h.clean hc
    · cases hs
  | read => exact h.readStep hs
  | fail =>
    simp only [step] at hs
    split at hs
    · unfold Incoming.fail at hs
      split at hs <;> cases hs
      rename_i ht
      exact h.ends (by simp [ht])
    · cases hs
  | forward => exact h.forwardStep hs

end Incoming

namespace Tasks

theorem run_sending {r : ChunkReader UInt8} {labels : List TaskLabel} {s : Tasks}
    (h : run (step pc) (spawn r) labels = some s) : s.outgoing.Sending pc := by
  have keeps : ∀ (s : Tasks) l t, s.outgoing.Sending pc → s.step pc l = some t → t.outgoing.Sending pc := by
    intro s l t hi hs
    cases l with
    | send l =>
      obtain ⟨o,ho,rfl⟩ := Option.map_eq_some_iff.mp hs
      exact Outgoing.step_sending hi ho
    | recv l =>
      obtain ⟨i,-,rfl⟩ := Option.map_eq_some_iff.mp hs
      exact hi
    | cancel =>
      cases hs
      exact hi
    | lose =>
      cases hs
      exact hi
    | supervise =>
      simp only [step] at hs
      split at hs <;> cases hs
      exact hi
  exact run_invariant keeps h Outgoing.spawn_sending

theorem run_receiving {r : ChunkReader UInt8} {labels : List TaskLabel} {s : Tasks}
    (h : run (step pc) (spawn r) labels = some s) : s.incoming.Receiving pc r := by
  have keeps : ∀ (s : Tasks) l t, s.incoming.Receiving pc r → s.step pc l = some t → t.incoming.Receiving pc r := by
    intro s l t hi hs
    cases l with
    | send l =>
      obtain ⟨o,-,rfl⟩ := Option.map_eq_some_iff.mp hs
      exact hi
    | recv l =>
      obtain ⟨i,ho,rfl⟩ := Option.map_eq_some_iff.mp hs
      exact Incoming.step_receiving hi ho
    | cancel =>
      cases hs
      exact hi
    | lose =>
      cases hs
      exact hi
    | supervise =>
      simp only [step] at hs
      split at hs <;> cases hs
      exact hi
  exact run_invariant keeps h (Incoming.spawn_receiving r)

private theorem openStream_remaining {origin : ConnOrigin} {r r₀ : ChunkReader UInt8}
    (h : openStream origin r = .ok r₀) :
    r.remaining = (if origin = .accept then openMessage else [])++r₀.remaining := by
  cases origin with
  | dial =>
    cases h
    rfl
  | accept =>
    rcases Nat.lt_or_ge r.remaining.length openMessage.length with hshort | hlong
    · simp only [openStream,ChunkReader.readExact_short hshort] at h
      cases h
    · obtain ⟨r',hread,hrem,-⟩ := ChunkReader.readExact_ok hlong
      simp only [openStream,hread] at h
      split at h <;> cases h
      rename_i heq
      rw [if_pos rfl,hrem]
      exact (List.take_append_drop _ _).symm.trans (congrArg (· ++ _) (Decidable.not_not.mp heq))

/-- What the handle of one side has given out is a beginning of what tx of the other has
taken, whatever both sides do and wherever the transport breaks the stream. Once the whole
stream has come and has ended with Ok(None), everything written is there; a sender that
has finished has then lost nothing. -/
theorem delivered_in_order {origin : ConnOrigin} {r r₀ r₁ : ChunkReader UInt8} {sends reads : List TaskLabel}
    {s t : Tasks} (hs : run (step pc) (spawn r₁) sends = some s) (ho : openStream origin r = .ok r₀)
    (ht : run (step pc) (spawn r₀) reads = some t)
    (hr : r.remaining <+: (if origin = .accept then openMessage else [])++s.outgoing.stream pc) :
    t.incoming.received <+: s.outgoing.accepted ∧
    (t.incoming.clean = true → r₀.remaining = s.outgoing.stream pc →
      s.outgoing.written <+: t.incoming.received++t.incoming.readRx ∧
      (s.outgoing.finished = true → t.incoming.received++t.incoming.readRx = s.outgoing.accepted)) := by
  have hsend := run_sending hs
  have hrecv := run_receiving ht
  have hmax : defaultMaxMessageSize ≤ 2^32 := by decide
  rw [openStream_remaining ho] at hr
  obtain ⟨msgs,hmsgs,hfits,hstream⟩ := hsend.stream_begins
  have hread : t.incoming.got <+: s.outgoing.accepted :=
    (hrecv.read.trans (receiveLoop_part hmax hfits
      (((List.prefix_append_right_inj _).mp hr).trans hstream))).trans hmsgs
  refine ⟨((List.prefix_append _ _).trans hrecv.given).trans hread,fun hclean hall => ?_⟩
  obtain ⟨-,hgiven,hloop⟩ := hrecv.clean hclean
  have hwritten : s.outgoing.written <+: t.incoming.got := by
    have hwhole := receiveLoop_whole hmax hsend.fits hall
    rw [show receiveLoop pc defaultMaxMessageSize [] r₀ = (t.incoming.got,.closed) from hloop] at hwhole
    exact hwhole
  rw [hgiven]
  refine ⟨hwritten,fun hfin => ?_⟩
  obtain ⟨-,heq,-⟩ := hsend.done hfin
  rw [heq] at hwritten
  exact hread.eq_of_length_le hwritten.length_le

/-- Two messages are written, and the stream is finished after the second one. -/
def twoSends : List TaskLabel :=
  [.send (.enqueue (.sync none)),.send (.enqueue (.sync (some [7]))),.send .recv,.send .write,.send .recv,
    .send .write,.send .dropTx,.send .recv]

/-- Both are read, the end is seen, and both are given out. -/
def twoReads : List TaskLabel :=
  [.recv .read,.recv .forward,.recv .read,.recv .forward,.recv .read,.recv .receive,.recv .receive]

theorem delivered_in_order_two : ∃ (r : ChunkReader UInt8) (s t : Tasks),
    run (step wireFormat) (spawn r) twoSends = some s ∧ run (step wireFormat) (spawn r) twoReads = some t ∧
    s.outgoing.finished = true ∧ t.incoming.clean = true ∧ t.incoming.received = [.sync none,.sync (some [7])] ∧
    t.incoming.received <+: s.outgoing.accepted ∧
    t.incoming.received++t.incoming.readRx = s.outgoing.accepted := by
  -- the chunks end inside the first frame
  let r : ChunkReader UInt8 := ⟨[(framesOf wireFormat [.sync none,.sync (some [7])]).take 3,
    (framesOf wireFormat [.sync none,.sync (some [7])]).drop 3],by decide,.finished⟩
  obtain ⟨s,hs,hstream,hfin⟩ : ∃ s, run (step wireFormat) (spawn r) twoSends = some s ∧
      s.outgoing.stream wireFormat = r.remaining ∧ s.outgoing.finished = true := ⟨_,rfl,by decide,rfl⟩
  obtain ⟨r₁,hread₁,hr₁,hend₁⟩ : ∃ r',
      readMessage wireFormat r [] defaultMaxMessageSize = .value (.sync none) [] r' ∧
      r'.remaining = framesOf wireFormat [.sync (some [7])] ∧ r'.ending = r.ending :=
    readMessage_frame (by decide) (by decide) (by decide)
  obtain ⟨r₂,hread₂,hr₂,hend₂⟩ : ∃ r',
      readMessage wireFormat r₁ [] defaultMaxMessageSize = .value (.sync (some [7])) [] r' ∧
      r'.remaining = [] ∧ r'.ending = r₁.ending :=
    readMessage_frame (by decide) (by decide) (by rw [hr₁]; decide)
  have hread₃ : readMessage wireFormat r₂ [] defaultMaxMessageSize = .endOfStream :=
    readMessage_finished hr₂ (hend₂.trans hend₁)
  have ht : run (step wireFormat) (spawn r) twoReads = some { spawn r with
      incoming := ⟨1,.ended,[],r₂,[],[.sync none,.sync (some [7])],[.sync none,.sync (some [7])],true⟩ } := by
    simp [twoReads,run,step,spawn,Incoming.spawn,Incoming.step,Incoming.read,hread₁,hread₂,hread₃,Incoming.forward,
      handleBuffer]
  have ho : openStream .dial r = .ok r := rfl
  obtain ⟨hbegins,hwhole⟩ := delivered_in_order hs ho ht (by rw [hstream]; exact List.prefix_rfl)
  exact ⟨r,s,_,hs,ht,hfin,rfl,rfl,hbegins,(hwhole rfl hstream.symm).2 hfin⟩

end Tasks
end GossipCore.Protocol
