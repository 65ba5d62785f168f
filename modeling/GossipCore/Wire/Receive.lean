import GossipCore.Wire.Framing

/-! The receiving task over a whole stream: what a well-behaved peer wrote comes out
again, and what any peer can send that makes it panic. -/
namespace GossipCore.Wire
open Base Chat
variable {pc : Postcard}

inductive LoopEnd where
  | closed
  | failed (e : ReadError)
  | panicked
  deriving DecidableEq, Repr

private theorem readLoop_remaining_le {r r' : ChunkReader UInt8} {limit : Nat} {buffer filled : Bytes}
    (h : r.readLoop limit buffer = some (filled,r')) : r'.remaining.length ≤ r.remaining.length := by
  by_cases hk : r.ending = .finished ∨ limit ≤ r.remaining.length
  · obtain ⟨r'',hr,hrem,-⟩ := r.readLoop_eq limit buffer hk
    rw [hr] at h
    cases h
    rw [hrem,List.length_drop]
    exact Nat.sub_le _ _
  · obtain ⟨hne,hlt⟩ := not_or.mp hk
    cases he : r.ending with
    | finished => exact absurd he hne
    | failed =>
      rw [r.readLoop_failed limit buffer he (Nat.not_le.mp hlt)] at h
      cases h

private theorem readLp_shortens {r r' : ChunkReader UInt8} {buffer data rest : Bytes} {maxMessageSize : Nat}
    (h : readLp r buffer maxMessageSize = .value data rest r') :
    r'.remaining.length < r.remaining.length := by
  rcases Nat.lt_or_ge r.remaining.length 4 with hshort | hlong
  · rw [readLp,ChunkReader.readExact_short hshort] at h
    cases he : r.ending <;> simp [he] at h
  · obtain ⟨r₁,hr₁,hrem,-⟩ := ChunkReader.readExact_ok hlong
    rw [readLp,hr₁] at h
    dsimp only at h
    split at h
    · cases h
    · split at h
      · cases h
      · rename_i filled r₂ hloop
        have hle := readLoop_remaining_le hloop
        split at h
        · cases h
          rw [hrem,List.length_drop] at hle
          omega
        · cases h

theorem readMessage_shortens {r r' : ChunkReader UInt8} {buffer rest : Bytes} {m : ProtoMessage}
    {maxMessageSize : Nat} (h : readMessage pc r buffer maxMessageSize = .value m rest r') :
    r'.remaining.length < r.remaining.length := by
  unfold readMessage at h
  split at h
  · rename_i data rest' r'' hlp
    split at h
    · cases h
      exact readLp_shortens hlp
    · cases h
  · cases h
  · cases h
  · cases h

/-- The receiving task, as long as the channel of its handle takes the messages. -/
def receiveLoop (pc : Postcard) (maxMessageSize : Nat) (buffer : Bytes) (r : ChunkReader UInt8) :
    List ProtoMessage × LoopEnd :=
  match h : readMessage pc r buffer maxMessageSize with
  | .value m rest r' =>
    have : r'.remaining.length < r.remaining.length := readMessage_shortens h
    let out := receiveLoop pc maxMessageSize rest r'
    (m::out.1,out.2)
  | .endOfStream => ([],.closed)
  | .error e => ([],.failed e)
  | .panicked => ([],.panicked)
termination_by r.remaining.length

theorem receiveLoop_value {r r' : ChunkReader UInt8} {buffer rest : Bytes} {m : ProtoMessage}
    {maxMessageSize : Nat} (h : readMessage pc r buffer maxMessageSize = .value m rest r') :
    receiveLoop pc maxMessageSize buffer r =
      (m::(receiveLoop pc maxMessageSize rest r').1,(receiveLoop pc maxMessageSize rest r').2) := by
  rw [receiveLoop]
  split
  · rename_i m' rest' r'' h'
    rw [h] at h'
    cases h'
    rfl
  all_goals
    rename_i h'
    rw [h] at h'
    cases h'

/-- How a call that delivers nothing ends the loop. -/
def ReadOutcome.loopEnd {α : Type} : ReadOutcome α → Option LoopEnd
  | .value _ _ _ => none
  | .endOfStream => some .closed
  | .error e => some (.failed e)
  | .panicked => some .panicked

theorem receiveLoop_last {r : ChunkReader UInt8} {buffer : Bytes} {maxMessageSize : Nat} {e : LoopEnd}
    (h : (readMessage pc r buffer maxMessageSize).loopEnd = some e) :
    receiveLoop pc maxMessageSize buffer r = ([],e) := by
  rw [receiveLoop]
  split <;> rename_i h' <;> rw [h'] at h <;> cases h <;> rfl

def frame (body : Bytes) : Bytes := be32 body.length++body

theorem be32_append_inj {m n : Nat} (hm : m < 2^32) (hn : n < 2^32) {a b : Bytes}
    (h : be32 m++a = be32 n++b) : m = n ∧ a = b := by
  obtain ⟨hhead,htail⟩ := List.append_inj h rfl
  refine ⟨?_,htail⟩
  rw [← ofBe32_be32 hm,← ofBe32_be32 hn,hhead]

theorem writeMessages_ok {maxMessageSize : Nat} (hmax : maxMessageSize ≤ 2^32) {msgs : List ProtoMessage}
    (h : ∀ m ∈ msgs, pc.serializedSize m < maxMessageSize) :
    writeMessages pc maxMessageSize msgs = .ok (msgs.flatMap (fun m => frame (pc.encode m))) := by
  induction msgs with
  | nil => rfl
  | cons m ms ih =>
    have hm := h m List.mem_cons_self
    have hlen : pc.serializedSize m%2^32 = pc.serializedSize m :=
      Nat.mod_eq_of_lt (Nat.lt_of_lt_of_le hm hmax)
    have hw : writeMessage pc m maxMessageSize = .ok (frame (pc.encode m)) := by
      rw [writeMessage,if_neg (Nat.not_le.mpr hm),hlen]
      rfl
    rw [writeMessages,hw,ih (fun x hx => h x (List.mem_cons_of_mem m hx))]
    rfl

/-- A frame body that the receiver takes: within the limit, and decodable. -/
structure AcceptedBody (pc : Postcard) (maxMessageSize : Nat) (body : Bytes) : Prop where
  fits : body.length < 2^32
  allowed : body.length ≤ maxMessageSize
  decodes : (pc.decode body).isSome

/-- What a call with an empty buffer makes of a stream: it ends the loop, or it reads one
frame with a body that the receiver takes. -/
theorem readMessage_cases (pc : Postcard) (r : ChunkReader UInt8) (maxMessageSize : Nat) :
    (r.remaining.length < 4 ∧ (readMessage pc r [] maxMessageSize).loopEnd =
      some (if r.ending = .finished then .closed else .failed .io)) ∨
    ∃ n rest, n < 2^32 ∧ r.remaining = be32 n++rest ∧
      ((maxMessageSize < n ∧ (readMessage pc r [] maxMessageSize).loopEnd = some (.failed .tooLarge)) ∨
      (n ≤ maxMessageSize ∧ rest.length < n ∧ (readMessage pc r [] maxMessageSize).loopEnd =
        some (if r.ending = .finished then .panicked else .failed .io)) ∨
      (n ≤ rest.length ∧ (readMessage pc r [] maxMessageSize).loopEnd = some (.failed .de)) ∨
      (n ≤ rest.length ∧ AcceptedBody pc maxMessageSize (rest.take n) ∧ ∃ m r',
        readMessage pc r [] maxMessageSize = .value m [] r' ∧ r'.remaining = rest.drop n ∧ r'.ending = r.ending)) := by
  rcases readLp_cases r maxMessageSize with ⟨hshort,hlp⟩ | ⟨n,rest,hn,hrem,hcases⟩
  · refine Or.inl ⟨hshort,?_⟩
    rw [readMessage,hlp]
    cases r.ending <;> rfl
  · refine Or.inr ⟨n,rest,hn,hrem,?_⟩
    rcases hcases with ⟨hbig,hlp⟩ | ⟨hle,hpart,hlp⟩ | ⟨hle,hfull,r',hlp,hr',hend⟩
    · exact Or.inl ⟨hbig,by rw [readMessage,hlp]; rfl⟩
    · refine Or.inr (Or.inl ⟨hle,hpart,?_⟩)
      rw [readMessage,hlp]
      cases r.ending <;> rfl
    · cases hdec : pc.decode (rest.take n) with
      | none => exact Or.inr (Or.inr (Or.inl ⟨hfull,by rw [readMessage,hlp]; simp only [hdec]; rfl⟩))
      | some m =>
        have hbody : (rest.take n).length = n := by simpa using hfull
        refine Or.inr (Or.inr (Or.inr ⟨hfull,⟨hbody.symm ▸ hn,hbody.symm ▸ hle,by rw [hdec]; rfl⟩,m,r',?_,hr',hend⟩))
        simp [readMessage,hlp,hdec]

/-- A frame with a body that the receiver takes is read, and nothing but it is consumed. -/
theorem readMessage_body {maxMessageSize : Nat} {body : Bytes} (hb : AcceptedBody pc maxMessageSize body)
    {m : ProtoMessage} (hm : pc.decode body = some m) {r : ChunkReader UInt8} {rest : Bytes}
    (hr : r.remaining = frame body++rest) :
    ∃ r', readMessage pc r [] maxMessageSize = .value m [] r' ∧ r'.remaining = rest ∧ r'.ending = r.ending := by
  rcases readLp_cases r maxMessageSize with ⟨hshort,-⟩ | ⟨n,rest',hn,hrem,hcases⟩
  · rw [hr,frame,List.length_append,List.length_append,length_be32] at hshort
    omega
  · rw [hr,frame,List.append_assoc] at hrem
    obtain ⟨rfl,rfl⟩ := be32_append_inj hb.fits hn hrem
    rcases hcases with ⟨hbig,-⟩ | ⟨-,hpart,-⟩ | ⟨-,-,r',hlp,hr',hend⟩
    · exact absurd hb.allowed (Nat.not_le.mpr hbig)
    · rw [List.length_append] at hpart
      omega
    · refine ⟨r',?_,by simpa using hr',hend⟩
      simp [readMessage,hlp,hm]

/-- A frame that the peer wrote is read back. -/
theorem readMessage_frame {maxMessageSize : Nat} (hmax : maxMessageSize ≤ 2^32) {m : ProtoMessage}
    (hm : pc.serializedSize m < maxMessageSize) {r : ChunkReader UInt8} {rest : Bytes}
    (hr : r.remaining = frame (pc.encode m)++rest) :
    ∃ r', readMessage pc r [] maxMessageSize = .value m [] r' ∧ r'.remaining = rest ∧ r'.ending = r.ending := by
  have hlt : (pc.encode m).length < 2^32 := Nat.lt_of_lt_of_le hm hmax
  have hdec : pc.decode (pc.encode m) = some m :=
    pc.decode_encode m (Nat.lt_trans hlt (by decide))
  exact readMessage_body ⟨hlt,Nat.le_of_lt hm,by rw [hdec]; rfl⟩ hdec hr

theorem readMessage_finished {r : ChunkReader UInt8} {maxMessageSize : Nat} (hr : r.remaining = [])
    (hend : r.ending = .finished) : readMessage pc r [] maxMessageSize = .endOfStream := by
  have hshort : r.remaining.length < 4 := by simp [hr]
  rw [readMessage,readLp,ChunkReader.readExact_short hshort,if_pos hend]

private theorem readMessages_frames {maxMessageSize : Nat} (hmax : maxMessageSize ≤ 2^32)
    {msgs : List ProtoMessage} (h : ∀ m ∈ msgs, pc.serializedSize m < maxMessageSize)
    {r : ChunkReader UInt8} (hr : r.remaining = msgs.flatMap (fun m => frame (pc.encode m)))
    {k : Nat} (hk : k ≤ msgs.length) :
    ∃ r', readMessages pc maxMessageSize k [] r = some (msgs.take k,[],r') ∧
      r'.remaining = (msgs.drop k).flatMap (fun m => frame (pc.encode m)) ∧ r'.ending = r.ending := by
  induction k generalizing msgs r with
  | zero => exact ⟨r,rfl,hr,rfl⟩
  | succ k ih =>
    cases msgs with
    | nil => exact absurd hk (Nat.not_succ_le_zero k)
    | cons m ms =>
      rw [List.flatMap_cons] at hr
      obtain ⟨r₁,hread,hr₁,hend⟩ := readMessage_frame hmax (h m List.mem_cons_self) hr
      obtain ⟨r',hrest,hr',hend'⟩ := ih (fun x hx => h x (List.mem_cons_of_mem m hx)) hr₁
        (Nat.le_of_succ_le_succ hk)
      refine ⟨r',?_,hr',hend'.trans hend⟩
      simp [readMessages,hread,hrest]

private theorem receiveLoop_frames {maxMessageSize : Nat} (hmax : maxMessageSize ≤ 2^32)
    {msgs : List ProtoMessage} (h : ∀ m ∈ msgs, pc.serializedSize m < maxMessageSize)
    {r : ChunkReader UInt8} (hr : r.remaining = msgs.flatMap (fun m => frame (pc.encode m)))
    (hend : r.ending = .finished) : receiveLoop pc maxMessageSize [] r = (msgs,.closed) := by
  induction msgs generalizing r with
  | nil => exact receiveLoop_last (by rw [readMessage_finished hr hend]; rfl)
  | cons m ms ih =>
    rw [List.flatMap_cons] at hr
    obtain ⟨r₁,hread,hr₁,hend₁⟩ := readMessage_frame hmax (h m List.mem_cons_self) hr
    rw [receiveLoop_value hread,ih (fun x hx => h x (List.mem_cons_of_mem m hx)) hr₁ (hend₁.trans hend)]

private theorem openStream_sent (origin : ConnOrigin) {r : ChunkReader UInt8} {frames : Bytes}
    (hr : r.remaining = (if origin = .accept then openMessage else [])++frames) :
    ∃ r₀, openStream origin r = .ok r₀ ∧ r₀.remaining = frames ∧ r₀.ending = r.ending := by
  cases origin with
  | dial => exact ⟨r,rfl,by simpa using hr,rfl⟩
  | accept =>
    rw [if_pos rfl] at hr
    obtain ⟨r₀,hread,hrem,hend⟩ := ChunkReader.readExact_ok (n := openMessage.length) (r := r)
      (by rw [hr,List.length_append]; exact Nat.le_add_right _ _)
    rw [hr,List.take_left] at hread
    rw [hr,List.drop_left] at hrem
    refine ⟨r₀,?_,hrem,hend⟩
    simp [openStream,hread]

/-- The origin that the other end of the connection has. -/
def otherEnd : ConnOrigin → ConnOrigin
  | .accept => .dial
  | .dial => .accept

/-- Everything one side sends over a connection arrives at the other side, whatever
chunks the transport makes of it. -/
theorem connection_round_trip {maxMessageSize : Nat} (hmax : maxMessageSize ≤ 2^32) (origin : ConnOrigin)
    {msgs : List ProtoMessage} (hmsgs : ∀ m ∈ msgs, pc.serializedSize m < maxMessageSize) :
    ∃ stream, sendStream pc origin maxMessageSize msgs = .ok stream ∧
    ∀ r : ChunkReader UInt8, r.ending = .finished → r.remaining = stream →
    ∃ r₀, openStream (otherEnd origin) r = .ok r₀ ∧
      receiveLoop pc maxMessageSize [] r₀ = (msgs,.closed) ∧
      ∀ k ≤ msgs.length, ∃ r', readMessages pc maxMessageSize k [] r₀ = some (msgs.take k,[],r') ∧
        r₀.remaining = (msgs.take k).flatMap (fun m => frame (pc.encode m))++r'.remaining ∧
        (k = msgs.length → readMessage pc r' [] maxMessageSize = .endOfStream) := by
  have hwrite := writeMessages_ok hmax hmsgs
  refine ⟨(if otherEnd origin = .accept then openMessage else [])++
    msgs.flatMap (fun m => frame (pc.encode m)),?_,fun r hend hr => ?_⟩
  · cases origin <;> rw [sendStream,hwrite] <;> rfl
  · obtain ⟨r₀,hopen,hrem,hend₀⟩ := openStream_sent (otherEnd origin) hr
    refine ⟨r₀,hopen,receiveLoop_frames hmax hmsgs hrem (hend₀.trans hend),fun k hk => ?_⟩
    obtain ⟨r',hread,hr',hend'⟩ := readMessages_frames hmax hmsgs hrem hk
    refine ⟨r',hread,?_,?_⟩
    · rw [hrem,hr',← List.flatMap_append,List.take_append_drop]
    · rintro rfl
      rw [List.drop_length] at hr'
      exact readMessage_finished hr' (hend'.trans (hend₀.trans hend))

theorem connection_round_trip_two : ∃ stream,
    sendStream wireFormat .dial defaultMaxMessageSize [.sync none,.sync (some [7,8])] = .ok stream ∧
    ∀ r : ChunkReader UInt8, r.ending = .finished → r.remaining = stream →
    ∃ r₀, openStream .accept r = .ok r₀ ∧
      receiveLoop wireFormat defaultMaxMessageSize [] r₀ = ([.sync none,.sync (some [7,8])],.closed) := by
  have hmsgs : ∀ m ∈ [ProtoMessage.sync none,.sync (some [7,8])],
      wireFormat.serializedSize m < defaultMaxMessageSize := by decide
  obtain ⟨stream,hsend,hrecv⟩ := connection_round_trip (by decide) .dial hmsgs
  refine ⟨stream,hsend,fun r hend hr => ?_⟩
  obtain ⟨r₀,hopen,hloop,-⟩ := hrecv r hend hr
  exact ⟨r₀,hopen,hloop⟩

/-- The stream stops inside a body: after accepted frames comes a length within the
limit and then fewer bytes than it announces. -/
def EndsInsideBody (pc : Postcard) (maxMessageSize : Nat) (stream : Bytes) : Prop :=
  ∃ (bodies : List Bytes) (n : Nat) (part : Bytes), (∀ b ∈ bodies, AcceptedBody pc maxMessageSize b) ∧ n < 2^32 ∧
    n ≤ maxMessageSize ∧ part.length < n ∧ stream = bodies.flatMap frame++(be32 n++part)

/-- The loop gets through the frames that it takes. -/
theorem receiveLoop_through {maxMessageSize : Nat} {bodies : List Bytes}
    (hb : ∀ b ∈ bodies, AcceptedBody pc maxMessageSize b) {r : ChunkReader UInt8} {rest : Bytes}
    (hr : r.remaining = bodies.flatMap frame++rest) :
    ∃ r', r'.remaining = rest ∧ r'.ending = r.ending ∧
      (receiveLoop pc maxMessageSize [] r).2 = (receiveLoop pc maxMessageSize [] r').2 := by
  induction bodies generalizing r with
  | nil => exact ⟨r,hr,rfl,rfl⟩
  | cons b bs ih =>
    have hfirst := hb b List.mem_cons_self
    obtain ⟨m,hm⟩ := Option.isSome_iff_exists.mp hfirst.decodes
    rw [List.flatMap_cons,List.append_assoc] at hr
    obtain ⟨r₁,hread,hr₁,hend₁⟩ := readMessage_body hfirst hm hr
    obtain ⟨r',hr',hend,hloop⟩ := ih (fun x hx => hb x (List.mem_cons_of_mem b hx)) hr₁
    refine ⟨r',hr',hend.trans hend₁,?_⟩
    rw [receiveLoop_value hread]
    exact hloop

/-- The loop reads frames that it takes, up to the call that ends it. -/
theorem receiveLoop_splits (pc : Postcard) (r : ChunkReader UInt8) (maxMessageSize : Nat) :
    ∃ (bodies : List Bytes) (r' : ChunkReader UInt8), (∀ b ∈ bodies, AcceptedBody pc maxMessageSize b) ∧
      r.remaining = bodies.flatMap frame++r'.remaining ∧ r'.ending = r.ending ∧
      (readMessage pc r' [] maxMessageSize).loopEnd = some (receiveLoop pc maxMessageSize [] r).2 := by
  induction hlen : r.remaining.length using Nat.strong_induction_on generalizing r with
  | _ len ih =>
    have hstop : ∀ e, (readMessage pc r [] maxMessageSize).loopEnd = some e →
        ∃ (bodies : List Bytes) (r' : ChunkReader UInt8), (∀ b ∈ bodies, AcceptedBody pc maxMessageSize b) ∧
          r.remaining = bodies.flatMap frame++r'.remaining ∧ r'.ending = r.ending ∧
          (readMessage pc r' [] maxMessageSize).loopEnd = some (receiveLoop pc maxMessageSize [] r).2 := by
      intro e he
      exact ⟨[],r,by simp,rfl,rfl,by rw [receiveLoop_last he,he]⟩
    rcases readMessage_cases pc r maxMessageSize with ⟨-,he⟩ | ⟨n,rest,hn,hrem,hcases⟩
    · exact hstop _ he
    · rcases hcases with ⟨-,he⟩ | ⟨-,-,he⟩ | ⟨-,he⟩ | ⟨hfull,hbody,m,r',hread,hr',hend⟩
      · exact hstop _ he
      · exact hstop _ he
      · exact hstop _ he
      · obtain ⟨bodies,r'',hb,hrem',hend',hlast⟩ := ih r'.remaining.length (hlen ▸ readMessage_shortens hread) r' rfl
        have hlen' : (rest.take n).length = n := by simpa using hfull
        refine ⟨rest.take n::bodies,r'',List.forall_mem_cons.mpr ⟨hbody,hb⟩,?_,hend'.trans hend,?_⟩
        · rw [List.flatMap_cons,frame,hlen',List.append_assoc,List.append_assoc,← hrem',hr',
            List.take_append_drop,hrem]
        · rw [receiveLoop_value hread]
          exact hlast

private theorem remaining_of_loopEnd_panicked {r : ChunkReader UInt8} {maxMessageSize : Nat}
    (h : (readMessage pc r [] maxMessageSize).loopEnd = some .panicked) : r.ending = .finished ∧
      ∃ n part, n < 2^32 ∧ n ≤ maxMessageSize ∧ part.length < n ∧ r.remaining = be32 n++part := by
  rcases readMessage_cases pc r maxMessageSize with ⟨-,he⟩ | ⟨n,rest,hn,hrem,hcases⟩
  · rw [he] at h
    split at h <;> cases h
  · rcases hcases with ⟨-,he⟩ | ⟨hle,hpart,he⟩ | ⟨-,he⟩ | ⟨-,-,m,r',hread,-⟩
    · rw [he] at h
      cases h
    · refine ⟨?_,n,rest,hn,hle,hpart,hrem⟩
      by_contra hfail
      rw [he,if_neg hfail] at h
      cases h
    · rw [he] at h
      cases h
    · rw [hread] at h
      cases h

theorem receiveLoop_panicked_iff (pc : Postcard) (r : ChunkReader UInt8) (maxMessageSize : Nat) :
    (receiveLoop pc maxMessageSize [] r).2 = .panicked ↔
      r.ending = .finished ∧ EndsInsideBody pc maxMessageSize r.remaining := by
  constructor
  · intro h
    obtain ⟨bodies,r',hb,hrem,hend,hlast⟩ := receiveLoop_splits pc r maxMessageSize
    rw [h] at hlast
    obtain ⟨hfin,n,part,hn,hle,hpart,hr'⟩ := remaining_of_loopEnd_panicked hlast
    exact ⟨hend.symm.trans hfin,bodies,n,part,hb,hn,hle,hpart,by rw [hrem,hr']⟩
  · rintro ⟨hend,bodies,n,part,hb,hn,hle,hpart,hrem⟩
    obtain ⟨r',hr',hend',hloop⟩ := receiveLoop_through hb hrem
    rw [hloop]
    rcases readLp_cases r' maxMessageSize with ⟨hshort,-⟩ | ⟨n',rest,hn',hrem',hcases⟩
    · rw [hr',List.length_append,length_be32] at hshort
      omega
    · rw [hr'] at hrem'
      obtain ⟨rfl,rfl⟩ := be32_append_inj hn hn' hrem'
      rcases hcases with ⟨hbig,-⟩ | ⟨-,-,hlp⟩ | ⟨-,hfull,-⟩
      · exact absurd hle (Nat.not_le.mpr hbig)
      · rw [receiveLoop_last (e := .panicked) (by rw [readMessage,hlp,if_pos (hend'.trans hend)]; rfl)]
      · exact absurd hfull (Nat.not_le.mpr hpart)

/-- The receiving task ends with Ok or with an error, on every stream and chunking,
unless the peer finishes its stream inside an announced body. -/
theorem receive_ends_cleanly_iff (pc : Postcard) (r : ChunkReader UInt8) (maxMessageSize : Nat) :
    ((receiveLoop pc maxMessageSize [] r).2 = .closed ∨
      ∃ e, (receiveLoop pc maxMessageSize [] r).2 = .failed e) ↔
      ¬ (r.ending = .finished ∧ EndsInsideBody pc maxMessageSize r.remaining) := by
  rw [← receiveLoop_panicked_iff]
  cases (receiveLoop pc maxMessageSize [] r).2 <;> simp

/-- A length of one and no body. -/
theorem truncated_body_panics :
    (receiveLoop wireFormat defaultMaxMessageSize [] ⟨[[0,0,0,1]],by simp,.finished⟩).2 = .panicked := by
  refine (receiveLoop_panicked_iff _ _ _).mpr ⟨rfl,[],1,[],by simp,by decide,by decide,by decide,rfl⟩

end GossipCore.Wire
