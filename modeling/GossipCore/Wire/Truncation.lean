import GossipCore.Wire.Receive

/-! Streams that are cut short. A clean end and a cut inside a length prefix look the
same to the receiving task, and a cut inside a body makes it panic. -/
namespace GossipCore.Wire
open Base
variable {pc : Postcard}

/-- A concatenation of complete frames. -/
def CompleteFrames (stream : Bytes) : Prop :=
  ∃ bodies : List Bytes, (∀ b ∈ bodies, b.length < 2^32) ∧ stream = bodies.flatMap frame

/-- The beginning of a frame that stops inside the length prefix or inside the body. -/
def PartialFrame (part : Bytes) : Prop :=
  (part ≠ [] ∧ part.length < 4) ∨ ∃ n body, n < 2^32 ∧ body.length < n ∧ part = be32 n++body

/-- After complete frames the stream stops inside one more. -/
def EndsInsideFrame (stream : Bytes) : Prop :=
  ∃ (bodies : List Bytes) (part : Bytes), (∀ b ∈ bodies, b.length < 2^32) ∧ PartialFrame part ∧
    stream = bodies.flatMap frame++part

/-- After frames that the receiver takes come one to three bytes of a length prefix. -/
def EndsInsidePrefix (pc : Postcard) (maxMessageSize : Nat) (stream : Bytes) : Prop :=
  ∃ (bodies : List Bytes) (part : Bytes), (∀ b ∈ bodies, AcceptedBody pc maxMessageSize b) ∧ part ≠ [] ∧
    part.length < 4 ∧ stream = bodies.flatMap frame++part

private theorem not_partialFrame_nil : ¬ PartialFrame [] := by
  rintro (⟨h,-⟩ | ⟨n,body,-,-,h⟩)
  · exact h rfl
  · have hlen := congrArg List.length h
    rw [List.length_append,length_be32,List.length_nil] at hlen
    omega

private theorem not_partialFrame_frame {body rest : Bytes} (hb : body.length < 2^32) :
    ¬ PartialFrame (frame body++rest) := by
  rintro (⟨-,h⟩ | ⟨n,part,hn,hpart,h⟩)
  · simp only [frame,List.length_append,length_be32] at h
    omega
  · rw [frame,List.append_assoc] at h
    obtain ⟨rfl,rfl⟩ := be32_append_inj hb hn h
    rw [List.length_append] at hpart
    omega

/-- No stream is both: the first length tells where the first frame ends. -/
theorem not_endsInsideFrame_of_complete {stream : Bytes} (h : CompleteFrames stream) :
    ¬ EndsInsideFrame stream := by
  obtain ⟨bodies,hb,rfl⟩ := h
  rintro ⟨bodies',part,hb',hpart,heq⟩
  induction bodies' generalizing bodies with
  | nil =>
    rw [List.flatMap_nil,List.nil_append] at heq
    subst heq
    cases bodies with
    | nil => exact not_partialFrame_nil hpart
    | cons b bs => exact not_partialFrame_frame (hb b List.mem_cons_self) hpart
  | cons b' bs' ih =>
    cases bodies with
    | nil =>
      have hlen := congrArg List.length heq
      simp only [List.flatMap_nil,List.flatMap_cons,frame,List.length_append,length_be32,List.length_nil] at hlen
      omega
    | cons b bs =>
      simp only [List.flatMap_cons,frame,List.append_assoc] at heq
      obtain ⟨hlen,hrest⟩ := be32_append_inj (hb b List.mem_cons_self) (hb' b' List.mem_cons_self) heq
      refine ih bs (fun x hx => hb x (List.mem_cons_of_mem b hx)) (fun x hx => hb' x (List.mem_cons_of_mem b' hx)) ?_
      exact (List.append_inj hrest hlen).2

private theorem remaining_of_loopEnd_closed {r : ChunkReader UInt8} {maxMessageSize : Nat}
    (h : (readMessage pc r [] maxMessageSize).loopEnd = some .closed) :
    r.ending = .finished ∧ r.remaining.length < 4 := by
  rcases readMessage_cases pc r maxMessageSize with ⟨hshort,he⟩ | ⟨n,rest,-,-,hcases⟩
  · refine ⟨?_,hshort⟩
    by_contra hfail
    rw [he,if_neg hfail] at h
    cases h
  · rcases hcases with ⟨-,he⟩ | ⟨-,-,he⟩ | ⟨-,he⟩ | ⟨-,-,m,r',hread,-⟩
    · rw [he] at h
      cases h
    · rw [he] at h
      split at h <;> cases h
    · rw [he] at h
      cases h
    · rw [hread] at h
      cases h

/-- Ok(None) comes at the end of a finished stream with fewer than four bytes left. -/
theorem receiveLoop_closed {r : ChunkReader UInt8} {maxMessageSize : Nat}
    (h : (receiveLoop pc maxMessageSize [] r).2 = .closed) :
    CompleteFrames r.remaining ∨ (r.ending = .finished ∧ EndsInsidePrefix pc maxMessageSize r.remaining) := by
  obtain ⟨bodies,r',hb,hrem,hend,hlast⟩ := receiveLoop_splits pc r maxMessageSize
  rw [h] at hlast
  obtain ⟨hfin,hshort⟩ := remaining_of_loopEnd_closed hlast
  by_cases hnil : r'.remaining = []
  · refine Or.inl ⟨bodies,fun b hx => (hb b hx).fits,?_⟩
    rw [hrem,hnil,List.append_nil]
  · exact Or.inr ⟨hend.symm.trans hfin,bodies,r'.remaining,hb,hnil,hshort,hrem⟩

private theorem receiveLoop_closed_of_cut {r : ChunkReader UInt8} {maxMessageSize : Nat}
    (hend : r.ending = .finished) (h : EndsInsidePrefix pc maxMessageSize r.remaining) :
    (receiveLoop pc maxMessageSize [] r).2 = .closed := by
  obtain ⟨bodies,part,hb,hne,hshort,hrem⟩ := h
  obtain ⟨r',hr',hend',hloop⟩ := receiveLoop_through hb hrem
  rw [hloop]
  rcases readLp_cases r' maxMessageSize with ⟨-,hlp⟩ | ⟨n,rest,-,hrem',-⟩
  · rw [receiveLoop_last (e := .closed) (by rw [readMessage,hlp,if_pos (hend'.trans hend)]; rfl)]
  · rw [hr'] at hrem'
    rw [hrem',List.length_append,length_be32] at hshort
    omega

private theorem endsInsideFrame_of_cut {maxMessageSize : Nat} {stream : Bytes}
    (h : EndsInsidePrefix pc maxMessageSize stream) : EndsInsideFrame stream := by
  obtain ⟨bodies,part,hb,hne,hshort,heq⟩ := h
  exact ⟨bodies,part,fun b hx => (hb b hx).fits,Or.inl ⟨hne,hshort⟩,heq⟩

private theorem endsInsideFrame_of_body {maxMessageSize : Nat} {stream : Bytes}
    (h : EndsInsideBody pc maxMessageSize stream) : EndsInsideFrame stream := by
  obtain ⟨bodies,n,part,hb,hn,-,hpart,heq⟩ := h
  exact ⟨bodies,be32 n++part,fun b hx => (hb b hx).fits,Or.inr ⟨n,part,hn,hpart,rfl⟩,heq⟩

/-- A stream that ends with Ok(None) was a concatenation of complete frames and one that
stops inside a frame ends with an error, exactly when no regular end of the stream cuts a
frame that follows frames the receiver takes. -/
theorem truncation_reported_iff (pc : Postcard) (r : ChunkReader UInt8) (maxMessageSize : Nat) :
    (((receiveLoop pc maxMessageSize [] r).2 = .closed → CompleteFrames r.remaining) ∧
      (EndsInsideFrame r.remaining → ∃ e, (receiveLoop pc maxMessageSize [] r).2 = .failed e)) ↔
    ¬ (r.ending = .finished ∧
      (EndsInsidePrefix pc maxMessageSize r.remaining ∨ EndsInsideBody pc maxMessageSize r.remaining)) := by
  constructor
  · rintro ⟨-,hcut⟩ ⟨hend,hpre | hbody⟩
    · obtain ⟨e,he⟩ := hcut (endsInsideFrame_of_cut hpre)
      rw [receiveLoop_closed_of_cut hend hpre] at he
      cases he
    · obtain ⟨e,he⟩ := hcut (endsInsideFrame_of_body hbody)
      rw [(receiveLoop_panicked_iff pc r maxMessageSize).mpr ⟨hend,hbody⟩] at he
      cases he
  · intro hwhole
    have hclosed : (receiveLoop pc maxMessageSize [] r).2 = .closed → CompleteFrames r.remaining := by
      intro h
      rcases receiveLoop_closed h with hall | ⟨hend,hpre⟩
      · exact hall
      · exact absurd ⟨hend,Or.inl hpre⟩ hwhole
    refine ⟨hclosed,fun hcut => ?_⟩
    cases hl : (receiveLoop pc maxMessageSize [] r).2 with
    | closed => exact absurd hcut (not_endsInsideFrame_of_complete (hclosed hl))
    | failed e => exact ⟨e,rfl⟩
    | panicked =>
      obtain ⟨hend,hbody⟩ := (receiveLoop_panicked_iff pc r maxMessageSize).mp hl
      exact absurd ⟨hend,Or.inr hbody⟩ hwhole

/-- One byte of a length prefix is taken for a clean end. -/
theorem truncated_prefix_closes :
    (receiveLoop wireFormat defaultMaxMessageSize [] ⟨[[0]],by simp,.finished⟩).2 = .closed ∧ ¬ CompleteFrames [0] := by
  refine ⟨receiveLoop_closed_of_cut rfl ⟨[],[0],by simp,by simp,by decide,rfl⟩,fun h => ?_⟩
  exact not_endsInsideFrame_of_complete h ⟨[],[0],by simp,Or.inl ⟨by simp,by decide⟩,rfl⟩

end GossipCore.Wire
