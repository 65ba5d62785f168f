import GossipCore.Protocol.Actor
import Mathlib.Data.List.Nodup
import Mathlib.Logic.Function.Basic

/-! Any number of endpoints whose protocol actors dial each other. The bytes of the
handshake are on the links; a link can be lost at any time, and no order is assumed
between the steps of different endpoints. -/
namespace GossipCore.Protocol
open Base Chat Wire

/-- One transport connection, with what its dialer has written. -/
structure Link (E : Type) where
  dialer : E
  acceptor : E
  written : Bytes
  down : Bool

structure Network (E U : Type) where
  actor : E → ProtocolActor E U
  links : List (Link E)
  /-- Connections that the router of an endpoint is handing to its actor. -/
  incoming : E → List Nat

inductive NetMove (E U : Type) where
  | dial (e target : E) (respondTo : Nat)
  | cancel (e : E)
  | lose (k : Nat)
  | route (e : E) (k : Nat)
  | cancelArm (e : E)
  | recv (e : E)
  | connect (e : E) (ok : Bool)
  | openBi (e : E)
  | writeOpen (e : E) (n : Nat) (id : U)
  | acceptBi (e : E) (ok : Bool)
  | readOpen (e : E) (stream : ChunkReader UInt8) (id : U)
  | passOn (e : E)
  | acceptConn (e : E)

/-- The moves that go on with what was begun: all but new dials, cancels and losses. -/
def NetMove.Continues {E U : Type} : NetMove E U → Prop
  | .dial _ _ _ => False
  | .cancel _ => False
  | .lose _ => False
  | _ => True

/-- Those of them that wait for nobody outside the actors. An application that is shut
down or suspended takes nothing from its accept channel. -/
def NetMove.Internal {E U : Type} : NetMove E U → Prop
  | .acceptConn _ => False
  | m => m.Continues

theorem NetMove.Internal.continues {E U : Type} {m : NetMove E U} (h : m.Internal) : m.Continues := by
  cases m <;> first | exact h | trivial

def acceptsOf {E : Type} (requests : List (ConnectionRequest E)) : List Nat :=
  requests.filterMap (fun r => match r with
    | .accept k => some k
    | .dial _ _ => none)

/-- The connections closed, or dropped by their last holder. -/
def closeAll {E : Type} (links : List (Link E)) (ks : List Nat) : List (Link E) :=
  links.mapIdx (fun k link => if k ∈ ks then { link with down := true } else link)

def write {E : Type} (links : List (Link E)) (conn : Nat) (bytes : Bytes) : List (Link E) :=
  links.mapIdx (fun k link => if k = conn then { link with written := bytes } else link)

theorem getElem?_closeAll {E : Type} (links : List (Link E)) (ks : List Nat) (k : Nat) :
    (closeAll links ks)[k]? = links[k]?.map (fun link => if k ∈ ks then { link with down := true } else link) :=
  List.getElem?_mapIdx

theorem getElem?_write {E : Type} (links : List (Link E)) (conn : Nat) (bytes : Bytes) (k : Nat) :
    (write links conn bytes)[k]? = links[k]?.map (fun link => if k = conn then { link with written := bytes } else link) :=
  List.getElem?_mapIdx

namespace ProtocolActor
variable {E U : Type}

/-- The dial for which a connection is there already, with that connection. -/
def dialing (a : ProtocolActor E U) : Option (E × Nat × Nat) :=
  match a.stage with
  | .openingBi e t k => some (e,t,k)
  | .writingOpen e t k => some (e,t,k)
  | _ => none

def dialedOf : ConnectionRequest E × Answer U → Option Nat
  | (.dial _ _,.ok handle) => some handle.connection
  | (.dial _ _,.error (.handshake conn _)) => some conn
  | _ => none

/-- The connections that this endpoint has dialed. -/
def dialed (a : ProtocolActor E U) : List Nat :=
  a.served.filterMap dialedOf++(a.dialing.map (fun d => d.2.2)).toList

end ProtocolActor

namespace Network
variable {E U : Type} [DecidableEq E]

def start : Network E U := ⟨fun _ => .new,[],fun _ => []⟩

def act (s : Network E U) (e : E) (l : ActorEvent E U) : Option (Network E U) :=
  ((s.actor e).step l).map (fun a => { s with actor := Function.update s.actor e a })

/-- ChatProtocol::accept for one connection. When the actor is gone the connection is
dropped with the request. -/
def route (s : Network E U) (e : E) (k : Nat) : Option (Network E U) :=
  if k ∈ s.incoming e then
    let incoming := Function.update s.incoming e ((s.incoming e).erase k)
    if (s.actor e).isReturned then some { s with incoming := incoming, links := closeAll s.links [k] }
    else (s.act e (.request (.accept k))).map (fun t => { t with incoming := incoming })
  else none

/-- A connection that is established shows up at the router of the other endpoint. -/
def connect (s : Network E U) (e : E) (ok : Bool) : Option (Network E U) :=
  match (s.actor e).stage with
  | .connecting target _ =>
    if ok then
      (s.act e (.connected (some s.links.length))).map (fun t => { t with
        links := s.links++[⟨e,target,[],false⟩]
        incoming := Function.update s.incoming target (s.incoming target++[s.links.length]) })
    else s.act e (.connected none)
  | _ => none

def openBi (s : Network E U) (e : E) : Option (Network E U) :=
  match (s.actor e).stage with
  | .openingBi _ _ k =>
    match s.links[k]? with
    | some link => s.act e (.biOpened (!link.down))
    | none => none
  | _ => none

/-- The open message goes out as a whole unless the link is down, when only a part of it
may have. -/
def writeOpen (s : Network E U) (e : E) (n : Nat) (id : U) : Option (Network E U) :=
  match (s.actor e).stage with
  | .writingOpen _ _ k =>
    match s.links[k]? with
    | some link =>
      if link.down then
        if n < openMessage.length then
          (s.act e (.openWritten false id)).map (fun t => { t with links := write s.links k (openMessage.take n) })
        else none
      else (s.act e (.openWritten true id)).map (fun t => { t with links := write s.links k openMessage })
    | none => none
  | _ => none

/-- The stream is seen once something was written on it. -/
def acceptBi (s : Network E U) (e : E) (ok : Bool) : Option (Network E U) :=
  match (s.actor e).stage with
  | .acceptingBi k =>
    match s.links[k]? with
    | some link =>
      if ok then if link.written ≠ [] then s.act e (.biAccepted true) else none
      else if link.down then s.act e (.biAccepted false) else none
    | none => none
  | _ => none

/-- The read gets all of the open message, or less when the link is down. -/
def readOpen (s : Network E U) (e : E) (stream : ChunkReader UInt8) (id : U) : Option (Network E U) :=
  match (s.actor e).stage with
  | .readingOpen k =>
    match s.links[k]? with
    | some link =>
      if stream.remaining <+: link.written ∧ (openMessage.length ≤ stream.remaining.length ∨ link.down) then
        match acceptHandshake stream with
        | .ok _ => s.act e (.openRead stream id)
        | .error _ => (s.act e (.openRead stream id)).map (fun t => { t with links := closeAll s.links [k] })
      else none
    | none => none
  | _ => none

def step (s : Network E U) : NetMove E U → Option (Network E U)
  | .dial e target respondTo => s.act e (.request (.dial target respondTo))
  | .cancel e => s.act e .cancel
  | .lose k => some { s with links := closeAll s.links [k] }
  | .route e k => s.route e k
  | .cancelArm e =>
    (s.act e .cancelArm).map (fun t => { t with links := closeAll s.links (acceptsOf (s.actor e).requestRx) })
  | .recv e => s.act e .recv
  | .connect e ok => s.connect e ok
  | .openBi e => s.openBi e
  | .writeOpen e n id => s.writeOpen e n id
  | .acceptBi e ok => s.acceptBi e ok
  | .readOpen e stream id => s.readOpen e stream id
  | .passOn e => s.act e .passedOn
  | .acceptConn e => s.act e .acceptConn

/-- A link is still being opened by its dialer, carries the open message for a dial that
was answered with its handle, or has failed before. -/
inductive LinkState (actor : E → ProtocolActor E U) (k : Nat) (link : Link E) : Prop where
  | dialing (hw : link.written = []) (t : Nat) (hd : (actor link.dialer).dialing = some (link.acceptor,t,k)) :
      LinkState actor k link
  | opened (hw : link.written = openMessage) (t : Nat) (id : U)
      (hs : (.dial link.acceptor t,.ok ⟨id,.dial,k⟩) ∈ (actor link.dialer).served) : LinkState actor k link
  | broken (hd : link.down = true) (hl : link.written.length < openMessage.length)
      (hw : link.written <+: openMessage) : LinkState actor k link

/-- All links are still there, with the same ends and no less written on them. -/
def Extended (links links' : List (Link E)) : Prop :=
  ∀ (k : Nat) (link : Link E), links[k]? = some link → ∃ link', links'[k]? = some link' ∧
    link'.dialer = link.dialer ∧ link'.acceptor = link.acceptor ∧ link.written <+: link'.written

omit [DecidableEq E] in
theorem extended_refl (links : List (Link E)) : Extended links links :=
  fun _ link h => ⟨link,h,rfl,rfl,List.prefix_rfl⟩

omit [DecidableEq E] in
theorem extended_closeAll (links : List (Link E)) (ks : List Nat) : Extended links (closeAll links ks) := by
  intro k link h
  refine ⟨_,by rw [getElem?_closeAll,h]; rfl,?_⟩
  split <;> exact ⟨rfl,rfl,List.prefix_rfl⟩

/-- The facts of one endpoint in the invariant, against the links and the router. -/
structure Endpoint (links : List (Link E)) (incoming : List Nat) (e : E) (a : ProtocolActor E U) : Prop where
  books : a.Books
  senders : a.sendersAlive = true
  receivers : a.receiversAlive = true
  accepts : (acceptsOf a.issued++incoming).Nodup
  acceptor : ∀ k ∈ acceptsOf a.issued++incoming, ∃ link, links[k]? = some link ∧ link.acceptor = e
  dials : a.dialed.Nodup
  dialer : ∀ k ∈ a.dialed, ∃ link, links[k]? = some link ∧ link.dialer = e
  target : ∀ target t k, a.dialing = some (target,t,k) →
    ∃ link, links[k]? = some link ∧ link.dialer = e ∧ link.acceptor = target ∧ link.written = []
  reading : ∀ k, a.stage = .readingOpen k → ∃ link, links[k]? = some link ∧ link.written ≠ []
  reads : ∀ k bytes, (k,bytes) ∈ a.reads → ∃ link, links[k]? = some link ∧ bytes <+: link.written

/-- The invariant of the network. Every connection is accepted at one endpoint and dialed
at one endpoint, once, and what was read is a part of what was written. -/
structure Wired (s : Network E U) : Prop where
  endpoint : ∀ e, Endpoint s.links (s.incoming e) e (s.actor e)
  state : ∀ k link, s.links[k]? = some link → LinkState s.actor k link

omit [DecidableEq E] in
theorem start_wired : (start : Network E U).Wired := by
  refine ⟨fun e => ⟨ProtocolActor.new_books,rfl,rfl,?_,?_,?_,?_,?_,?_,?_⟩,?_⟩ <;>
    simp [start,ProtocolActor.new,acceptsOf,ProtocolActor.dialed,ProtocolActor.dialing]

omit [DecidableEq E] in
/-- An endpoint is not affected by what happens on links that it is not opening. -/
theorem Endpoint.extend {links links' : List (Link E)} {incoming : List Nat} {e : E} {a : ProtocolActor E U}
    (h : Endpoint links incoming e a) (hx : Extended links links')
    (hw : ∀ target t k, a.dialing = some (target,t,k) → ∀ link, links'[k]? = some link → link.written = []) :
    Endpoint links' incoming e a := by
  refine ⟨h.books,h.senders,h.receivers,h.accepts,?_,h.dials,?_,?_,?_,?_⟩
  · intro k hk
    obtain ⟨link,hl,ha⟩ := h.acceptor k hk
    obtain ⟨link',hl',-,ha',-⟩ := hx k link hl
    exact ⟨link',hl',ha'.trans ha⟩
  · intro k hk
    obtain ⟨link,hl,hd⟩ := h.dialer k hk
    obtain ⟨link',hl',hd',-,-⟩ := hx k link hl
    exact ⟨link',hl',hd'.trans hd⟩
  · intro target t k hk
    obtain ⟨link,hl,hd,ha,-⟩ := h.target target t k hk
    obtain ⟨link',hl',hd',ha',-⟩ := hx k link hl
    exact ⟨link',hl',hd'.trans hd,ha'.trans ha,hw target t k hk link' hl'⟩
  · intro k hk
    obtain ⟨link,hl,hne⟩ := h.reading k hk
    obtain ⟨link',hl',-,-,hp⟩ := hx k link hl
    exact ⟨link',hl',fun hnil => hne (List.prefix_nil.mp (hnil ▸ hp))⟩
  · intro k bytes hk
    obtain ⟨link,hl,hb⟩ := h.reads k bytes hk
    obtain ⟨link',hl',-,-,hp⟩ := hx k link hl
    exact ⟨link',hl',hb.trans hp⟩

omit [DecidableEq E] in
/-- Closing links keeps everything: only the third state speaks of it, and allows it. -/
theorem Wired.close {s : Network E U} (h : s.Wired) (ks : List Nat) :
    { s with links := closeAll s.links ks }.Wired := by
  refine ⟨fun e => (h.endpoint e).extend (extended_closeAll s.links ks) ?_,?_⟩
  · intro target t k hk link' hl'
    obtain ⟨link,hl,-,-,hw⟩ := (h.endpoint e).target target t k hk
    rw [getElem?_closeAll,hl] at hl'
    cases hl'
    split <;> exact hw
  · intro k link' hl'
    rw [getElem?_closeAll] at hl'
    obtain ⟨link,hl,rfl⟩ := Option.map_eq_some_iff.mp hl'
    have hst := h.state k link hl
    split
    · cases hst with
      | dialing hw t hd => exact .dialing hw t hd
      | opened hw t id hs => exact .opened hw t id hs
      | broken hd hlen hw => exact .broken rfl hlen hw
    · exact hst

/-- What a step of an actor may change without the links taking notice. -/
structure Unseen (a b : ProtocolActor E U) : Prop where
  accepts : acceptsOf b.issued = acceptsOf a.issued
  dialing : b.dialing = a.dialing
  dialed : b.served.filterMap ProtocolActor.dialedOf = a.served.filterMap ProtocolActor.dialedOf
  served : a.served ⊆ b.served
  reading : ∀ k, b.stage = .readingOpen k → a.stage = .readingOpen k
  reads : b.reads = a.reads
  senders : b.sendersAlive = a.sendersAlive
  receivers : b.receiversAlive = a.receiversAlive

omit [DecidableEq E] in
theorem Endpoint.unseen {links : List (Link E)} {incoming : List Nat} {e : E} {a b : ProtocolActor E U}
    (h : Endpoint links incoming e a) (hb : b.Books) (hu : Unseen a b) : Endpoint links incoming e b := by
  have hdialed : b.dialed = a.dialed := by rw [ProtocolActor.dialed,hu.dialed,hu.dialing]; rfl
  refine ⟨hb,hu.senders.trans h.senders,hu.receivers.trans h.receivers,?_,?_,?_,?_,?_,?_,?_⟩
  · rw [hu.accepts]
    exact h.accepts
  · rw [hu.accepts]
    exact h.acceptor
  · rw [hdialed]
    exact h.dials
  · rw [hdialed]
    exact h.dialer
  · rw [hu.dialing]
    exact h.target
  · exact fun k hk => h.reading k (hu.reading k hk)
  · rw [hu.reads]
    exact h.reads

/-- The state of a link follows the actor of its dialer, which keeps what it has served. -/
theorem LinkState.update {actor : E → ProtocolActor E U} {e : E} {b : ProtocolActor E U} {k : Nat} {link : Link E}
    (h : LinkState actor k link) (hserved : (actor e).served ⊆ b.served)
    (hdial : ∀ t, link.dialer = e → (actor e).dialing = some (link.acceptor,t,k) →
      b.dialing = some (link.acceptor,t,k)) : LinkState (Function.update actor e b) k link := by
  cases h with
  | dialing hw t hd =>
    refine .dialing hw t ?_
    by_cases he : link.dialer = e
    · rw [he] at hd
      simpa [he] using hdial t he hd
    · simpa [Function.update_of_ne he] using hd
  | opened hw t id hs =>
    refine .opened hw t id ?_
    by_cases he : link.dialer = e
    · rw [he] at hs
      simpa [he] using hserved hs
    · simpa [Function.update_of_ne he] using hs
  | broken hd hl hw => exact .broken hd hl hw

/-- A step of one actor on the links as they are. -/
theorem Wired.setActor {s : Network E U} (h : s.Wired) {e : E} {b : ProtocolActor E U}
    (hb : Endpoint s.links (s.incoming e) e b) (hserved : (s.actor e).served ⊆ b.served)
    (hdial : ∀ d, (s.actor e).dialing = some d → b.dialing = some d) :
    { s with actor := Function.update s.actor e b }.Wired := by
  refine ⟨fun e' => ?_,fun k link hl => (h.state k link hl).update hserved (fun t _ hd => hdial _ hd)⟩
  by_cases he : e' = e
  · subst he
    simpa using hb
  · simpa [Function.update_of_ne he] using h.endpoint e'

/-- The events of an actor that change nothing on the links. -/
def Private : ActorEvent E U → Prop
  | .request (.dial _ _) => True
  | .cancel => True
  | .cancelArm => True
  | .recv => True
  | .connected none => True
  | .biOpened true => True
  | .biAccepted false => True
  | .passedOn => True
  | .acceptConn => True
  | _ => False

omit [DecidableEq E] in
private theorem unseen_stage {a b : ProtocolActor E U} (ha : a.dialing = none)
    (hb : b.dialing = none) (hr : ∀ k, b.stage ≠ .readingOpen k) (hi : b.issued = a.issued)
    (hs : b.served = a.served) (hreads : b.reads = a.reads) (h₁ : b.sendersAlive = a.sendersAlive)
    (h₂ : b.receiversAlive = a.receiversAlive) : Unseen a b where
  accepts := by rw [hi]
  dialing := hb.trans ha.symm
  dialed := by rw [hs]
  served := by rw [hs]; exact List.Subset.refl _
  reading k hk := absurd hk (hr k)
  reads := hreads
  senders := h₁
  receivers := h₂

omit [DecidableEq E] in
private theorem unseen_answer {a : ProtocolActor E U} {r : ConnectionRequest E} {result : Answer U}
    (ha : a.dialing = none) (hd : ProtocolActor.dialedOf (r,result) = none) : Unseen a (a.answer r result) where
  accepts := rfl
  dialing := ha.symm
  dialed := by simp [ProtocolActor.answer,List.filterMap_append,hd]
  served := List.subset_append_left _ _
  reading k hk := by cases hk
  reads := rfl
  senders := rfl
  receivers := rfl

omit [DecidableEq E] in
theorem step_unseen {a b : ProtocolActor E U} {l : ActorEvent E U} (hl : Private l) (h : a.step l = some b) :
    Unseen a b := by
  cases ProtocolActor.step_stepped h with
  | request r hr hs hlt =>
    cases r with
    | accept k => exact hl.elim
    | dial e t =>
      exact ⟨by simp [acceptsOf,List.filterMap_append],rfl,rfl,List.Subset.refl _,fun _ => id,rfl,rfl,rfl⟩
  | acceptConn result rest hq hr => exact ⟨rfl,rfl,rfl,List.Subset.refl _,fun _ => id,rfl,rfl,rfl⟩
  | dropSenders => exact hl.elim
  | dropReceivers => exact hl.elim
  | cancel => exact ⟨rfl,rfl,rfl,List.Subset.refl _,fun _ => id,rfl,rfl,rfl⟩
  | cancelArm hst hc =>
    exact unseen_stage (by simp [ProtocolActor.dialing,hst]) rfl (by simp [ProtocolActor.finish]) rfl rfl rfl rfl rfl
  | recv r rest hst hq hc =>
    have hd : a.dialing = none := by simp [ProtocolActor.dialing,hst]
    cases r <;> exact unseen_stage hd rfl (by simp [ProtocolActor.serve]) rfl rfl rfl rfl rfl
  | recvClosed hst hq hc hs =>
    exact unseen_stage (by simp [ProtocolActor.dialing,hst]) rfl (by simp [ProtocolActor.finish]) rfl rfl rfl rfl rfl
  | connected e t k hst => exact hl.elim
  | connectFailed e t hst => exact unseen_answer (by simp [ProtocolActor.dialing,hst]) rfl
  | biOpened e t k hst =>
    exact ⟨rfl,by simp [ProtocolActor.dialing,hst],rfl,List.Subset.refl _,fun _ hk => (by cases hk),rfl,rfl,rfl⟩
  | biOpenFailed e t k hst => exact hl.elim
  | openWritten e t k id hst => exact hl.elim
  | openWriteFailed e t k id hst => exact hl.elim
  | biAccepted k hst => exact hl.elim
  | biAcceptFailed k hst =>
    exact unseen_stage (by simp [ProtocolActor.dialing,hst]) rfl (by simp) rfl rfl rfl rfl rfl
  | openRead k stream rest id hst ho => exact hl.elim
  | openReadFailed k stream id e hst ho => exact hl.elim
  | passedOn k result hst hr hlt =>
    have hnone : ProtocolActor.dialedOf ((.accept k : ConnectionRequest E),ProtocolActor.answerOf k result) = none := by
      cases result <;> rfl
    have hd : a.dialing = none := by simp [ProtocolActor.dialing,hst]
    obtain ⟨h1,h2,h3,h4,h5,h6,h7,h8⟩ := unseen_answer hd hnone
    exact ⟨h1,h2,h3,h4,h5,h6,h7,h8⟩
  | passedClosed k result hst hr =>
    exact unseen_stage (by simp [ProtocolActor.dialing,hst]) rfl (by simp [ProtocolActor.finish]) rfl rfl rfl rfl rfl

theorem Wired.act {s s' : Network E U} (h : s.Wired) {e : E} {l : ActorEvent E U} (hl : Private l)
    (hs : s.act e l = some s') : s'.Wired := by
  obtain ⟨b,hb,rfl⟩ := Option.map_eq_some_iff.mp hs
  have hu := step_unseen hl hb
  exact h.setActor ((h.endpoint e).unseen (ProtocolActor.step_books (h.endpoint e).books hb) hu) hu.served
    (fun _ hd => hu.dialing.trans hd)

/-- A connection moves from the router into the channel of the actor. -/
private theorem Wired.routed {s : Network E U} (h : s.Wired) {e : E} {k : Nat} (hk : k ∈ s.incoming e)
    {b : ProtocolActor E U} (hb : (s.actor e).step (.request (.accept k)) = some b) :
    { s with
      actor := Function.update s.actor e b
      incoming := Function.update s.incoming e ((s.incoming e).erase k) }.Wired := by
  have hbooks := ProtocolActor.step_books (h.endpoint e).books hb
  simp only [ProtocolActor.step] at hb
  split at hb <;> cases hb
  have hperm : (acceptsOf ((s.actor e).issued++[.accept k])++(s.incoming e).erase k).Perm
      (acceptsOf (s.actor e).issued++s.incoming e) := by
    simp only [acceptsOf,List.filterMap_append,List.append_assoc]
    exact (List.perm_cons_erase hk).symm.append_left _
  refine ⟨fun e' => ?_,fun j link hl => (h.state j link hl).update (List.Subset.refl _) (fun _ _ => id)⟩
  by_cases he : e' = e
  · subst he
    have hend := h.endpoint e'
    simp only [Function.update_self]
    exact ⟨hbooks,hend.senders,hend.receivers,hperm.nodup_iff.mpr hend.accepts,
      fun j hj => hend.acceptor j (hperm.mem_iff.mp hj),hend.dials,hend.dialer,hend.target,hend.reading,hend.reads⟩
  · simpa [Function.update_of_ne he] using h.endpoint e'

omit [DecidableEq E] in
private theorem Wired.dropIncoming {s : Network E U} (h : s.Wired) {incoming : E → List Nat}
    (hsub : ∀ e, (incoming e).Sublist (s.incoming e)) : { s with incoming := incoming }.Wired := by
  refine ⟨fun e => ?_,h.state⟩
  have hend := h.endpoint e
  have happ := (List.Sublist.refl (acceptsOf (s.actor e).issued)).append (hsub e)
  exact ⟨hend.books,hend.senders,hend.receivers,hend.accepts.sublist happ,
    fun k hk => hend.acceptor k (happ.subset hk),hend.dials,hend.dialer,hend.target,hend.reading,hend.reads⟩

omit [DecidableEq E] in
private theorem lt_length_of_get {links : List (Link E)} {k : Nat} {link : Link E} (h : links[k]? = some link) :
    k < links.length := (List.getElem?_eq_some_iff.mp h).1

omit [DecidableEq E] in
private theorem extended_concat (links : List (Link E)) (link : Link E) : Extended links (links++[link]) := by
  intro k l hl
  refine ⟨l,?_,rfl,rfl,List.prefix_rfl⟩
  rw [List.getElem?_append_left (lt_length_of_get hl)]
  exact hl

omit [DecidableEq E] in
/-- No endpoint has used the number that the next connection gets. -/
private theorem Endpoint.fresh {links : List (Link E)} {incoming : List Nat} {e : E} {a : ProtocolActor E U}
    (h : Endpoint links incoming e a) :
    links.length ∉ acceptsOf a.issued++incoming ∧ links.length ∉ a.dialed := by
  refine ⟨fun hm => ?_,fun hm => ?_⟩
  · obtain ⟨link,hl,-⟩ := h.acceptor _ hm
    exact absurd (lt_length_of_get hl) (Nat.lt_irrefl _)
  · obtain ⟨link,hl,-⟩ := h.dialer _ hm
    exact absurd (lt_length_of_get hl) (Nat.lt_irrefl _)

omit [DecidableEq E] in
/-- A new link leaves every endpoint as it was. -/
private theorem Endpoint.addLink {links : List (Link E)} {incoming : List Nat} {e : E} {a : ProtocolActor E U}
    (h : Endpoint links incoming e a) (new : Link E) : Endpoint (links++[new]) incoming e a := by
  refine h.extend (extended_concat _ _) (fun target u k hk link' hl' => ?_)
  obtain ⟨link,hl,-,-,hw⟩ := h.target target u k hk
  rw [List.getElem?_append_left (lt_length_of_get hl),hl] at hl'
  cases hl'
  exact hw

omit [DecidableEq E] in
/-- The new connection at the endpoint that has dialed it. -/
private theorem Endpoint.dialedNew {links : List (Link E)} {incoming : List Nat} {e target : E} {t : Nat}
    {a : ProtocolActor E U} (h : Endpoint links incoming e a) (hst : a.stage = .connecting target t)
    (hbooks : { a with stage := .openingBi target t links.length }.Books) :
    Endpoint (links++[⟨e,target,[],false⟩]) incoming e { a with stage := .openingBi target t links.length } := by
  have hend := h.addLink ⟨e,target,[],false⟩
  have hnew : (links++[(⟨e,target,[],false⟩ : Link E)])[links.length]? = some ⟨e,target,[],false⟩ := by simp
  have hdialed : ProtocolActor.dialed { a with stage := .openingBi target t links.length } =
      a.dialed++[links.length] := by
    simp [ProtocolActor.dialed,ProtocolActor.dialing,hst]
  refine ⟨hbooks,hend.senders,hend.receivers,hend.accepts,hend.acceptor,?_,?_,?_,
    fun k hk => (by cases hk),hend.reads⟩
  · rw [hdialed,← List.concat_eq_append]
    exact (List.nodup_concat _ _).mpr ⟨h.fresh.2,hend.dials⟩
  · rw [hdialed]
    intro k hk
    rcases List.mem_append.mp hk with hk | hk
    · exact hend.dialer k hk
    · rw [List.mem_singleton] at hk
      exact ⟨_,hk ▸ hnew,rfl⟩
  · intro b u k hk
    simp only [ProtocolActor.dialing,Option.some.injEq,Prod.mk.injEq] at hk
    obtain ⟨rfl,rfl,rfl⟩ := hk
    exact ⟨_,hnew,rfl,rfl,rfl⟩

omit [DecidableEq E] in
/-- A connection that was not seen before reaches the router of its acceptor. -/
private theorem Endpoint.arrived {links : List (Link E)} {incoming : List Nat} {e : E} {a : ProtocolActor E U}
    (h : Endpoint links incoming e a) {k : Nat} {link : Link E} (hfresh : k ∉ acceptsOf a.issued++incoming)
    (hl : links[k]? = some link) (he : link.acceptor = e) : Endpoint links (incoming++[k]) e a := by
  refine ⟨h.books,h.senders,h.receivers,?_,?_,h.dials,h.dialer,h.target,h.reading,h.reads⟩
  · rw [← List.append_assoc,← List.concat_eq_append]
    exact (List.nodup_concat _ _).mpr ⟨hfresh,h.accepts⟩
  · intro j hj
    rw [← List.append_assoc] at hj
    rcases List.mem_append.mp hj with hj | hj
    · exact h.acceptor j hj
    · rw [List.mem_singleton] at hj
      exact ⟨link,hj ▸ hl,he⟩

/-- A new connection gets the next number, which nobody has used. -/
private theorem Wired.connected {s : Network E U} (h : s.Wired) {e target : E} {t : Nat}
    (hst : (s.actor e).stage = .connecting target t) {b : ProtocolActor E U}
    (hb : (s.actor e).step (.connected (some s.links.length)) = some b) :
    (⟨Function.update s.actor e b,s.links++[⟨e,target,[],false⟩],
      Function.update s.incoming target (s.incoming target++[s.links.length])⟩ : Network E U).Wired := by
  have hbooks := ProtocolActor.step_books (h.endpoint e).books hb
  simp only [ProtocolActor.step,ProtocolActor.connected,hst] at hb
  cases hb
  have hnew : (s.links++[(⟨e,target,[],false⟩ : Link E)])[s.links.length]? = some ⟨e,target,[],false⟩ := by simp
  have hnone : (s.actor e).dialing = none := by simp [ProtocolActor.dialing,hst]
  -- the actor of the dialer first, with the router as it was
  have hactor : ∀ e', Endpoint (s.links++[⟨e,target,[],false⟩]) (s.incoming e') e'
      (Function.update s.actor e { s.actor e with stage := .openingBi target t s.links.length } e') := by
    intro e'
    by_cases he : e' = e
    · subst he
      rw [Function.update_self]
      exact (h.endpoint e').dialedNew hst hbooks
    · rw [Function.update_of_ne he]
      exact (h.endpoint e').addLink _
  refine ⟨fun e' => ?_,fun k link hl => ?_⟩
  · by_cases he : e' = target
    · subst he
      have hissued : (Function.update s.actor e { s.actor e with stage := .openingBi e' t s.links.length } e').issued =
          (s.actor e').issued := by
        by_cases hee : e' = e
        · subst hee
          simp
        · rw [Function.update_of_ne hee]
      simp only [Function.update_self]
      refine (hactor e').arrived ?_ hnew rfl
      rw [hissued]
      exact (h.endpoint e').fresh.1
    · simp only [Function.update_of_ne he]
      exact hactor e'
  · rcases Nat.lt_or_ge k s.links.length with hk | hk
    · rw [List.getElem?_append_left hk] at hl
      refine (h.state k link hl).update (List.Subset.refl _) (fun u _ hd => ?_)
      rw [hnone] at hd
      cases hd
    · have hlt := lt_length_of_get hl
      rw [List.length_append,List.length_singleton] at hlt
      obtain rfl : k = s.links.length := by omega
      rw [hnew] at hl
      cases hl
      exact .dialing rfl t (by simp [ProtocolActor.dialing])

/-- A dial with a connection is answered, and only its own link changes with it. -/
private theorem Wired.dialDone {s : Network E U} (h : s.Wired) {e target : E} {t k : Nat}
    (hd : (s.actor e).dialing = some (target,t,k)) (result : Answer U) {b : ProtocolActor E U} (hbooks : b.Books)
    (hb : b = { s.actor e with stage := .selecting, served := (s.actor e).served++[(.dial target t,result)], closes := b.closes })
    (hk : ProtocolActor.dialedOf ((.dial target t : ConnectionRequest E),result) = some k) {links : List (Link E)}
    (hx : Extended s.links links) (hframe : ∀ j, j ≠ k → links[j]? = s.links[j]?)
    (hstate : ∀ link, links[k]? = some link → LinkState (Function.update s.actor e b) k link) :
    (⟨Function.update s.actor e b,links,s.incoming⟩ : Network E U).Wired := by
  have hdialed : b.dialed = (s.actor e).dialed := by
    rw [hb,ProtocolActor.dialed,ProtocolActor.dialed,hd]
    simp [ProtocolActor.dialing,List.filterMap_append,hk]
  refine ⟨fun e' => ?_,fun j link hl => ?_⟩
  · by_cases he : e' = e
    · subst he
      have hend := h.endpoint e'
      have hsame : Endpoint s.links (s.incoming e') e' b := by
        refine ⟨hbooks,by rw [hb]; exact hend.senders,by rw [hb]; exact hend.receivers,by rw [hb]; exact hend.accepts,
          by rw [hb]; exact hend.acceptor,by rw [hdialed]; exact hend.dials,by rw [hdialed]; exact hend.dialer,
          ?_,?_,by rw [hb]; exact hend.reads⟩
        · intro a u j hj
          rw [hb] at hj
          cases hj
        · intro j hj
          rw [hb] at hj
          cases hj
      simp only [Function.update_self]
      refine hsame.extend hx (fun a u j hj => ?_)
      rw [hb] at hj
      cases hj
    · simp only [Function.update_of_ne he]
      refine (h.endpoint e').extend hx (fun a u j hj link hl => ?_)
      obtain ⟨old,hold,hdialer,-,hw⟩ := (h.endpoint e').target a u j hj
      have hjk : j ≠ k := by
        rintro rfl
        obtain ⟨other,hother,hother',-,-⟩ := (h.endpoint e).target target t j hd
        rw [hold] at hother
        cases hother
        exact he (hdialer.symm.trans hother')
      rw [hframe j hjk,hold] at hl
      cases hl
      exact hw
  · by_cases hjk : j = k
    · subst hjk
      exact hstate link hl
    · rw [hframe j hjk] at hl
      refine (h.state j link hl).update (by rw [hb]; exact List.subset_append_left _ _) (fun u _ hd' => ?_)
      rw [hd] at hd'
      cases hd'
      exact absurd rfl hjk

/-- An accepted connection whose stream is there. -/
private theorem Wired.streamAccepted {s : Network E U} (h : s.Wired) {e : E} {k : Nat} {link : Link E}
    (hst : (s.actor e).stage = .acceptingBi k) (hl : s.links[k]? = some link) (hw : link.written ≠ [])
    {b : ProtocolActor E U} (hb : (s.actor e).step (.biAccepted true) = some b) :
    { s with actor := Function.update s.actor e b }.Wired := by
  have hbooks := ProtocolActor.step_books (h.endpoint e).books hb
  have hnone : (s.actor e).dialing = none := by simp [ProtocolActor.dialing,hst]
  simp only [ProtocolActor.step,ProtocolActor.biAccepted,hst,if_true] at hb
  cases hb
  have hend := h.endpoint e
  refine h.setActor ⟨hbooks,hend.senders,hend.receivers,hend.accepts,hend.acceptor,?_,?_,?_,?_,hend.reads⟩
    (List.Subset.refl _) (fun d hd => ?_)
  · have hd := hend.dials
    simpa [ProtocolActor.dialed,ProtocolActor.dialing,hst] using hd
  · have hd := hend.dialer
    simpa [ProtocolActor.dialed,ProtocolActor.dialing,hst] using hd
  · intro a u j hj
    cases hj
  · intro j hj
    cases hj
    exact ⟨link,hl,hw⟩
  · rw [hnone] at hd
    cases hd

/-- The handshake of an accepted connection is read. -/
private theorem Wired.openRead {s : Network E U} (h : s.Wired) {e : E} {k : Nat} {link : Link E}
    (hst : (s.actor e).stage = .readingOpen k) (hl : s.links[k]? = some link) {stream : ChunkReader UInt8}
    (hw : stream.remaining <+: link.written) {id : U} {b : ProtocolActor E U}
    (hb : (s.actor e).step (.openRead stream id) = some b) :
    { s with actor := Function.update s.actor e b }.Wired := by
  have hbooks := ProtocolActor.step_books (h.endpoint e).books hb
  have hnone : (s.actor e).dialing = none := by simp [ProtocolActor.dialing,hst]
  have hb' : ∃ result closes, b = { s.actor e with
      stage := .passingOn k result
      closes := closes
      reads := (s.actor e).reads++[(k,stream.remaining)] } := by
    simp only [ProtocolActor.step,ProtocolActor.openRead,hst] at hb
    split at hb <;> cases hb
    · exact ⟨_,_,rfl⟩
    · exact ⟨_,_,rfl⟩
  obtain ⟨result,closes,rfl⟩ := hb'
  have hend := h.endpoint e
  refine h.setActor ⟨hbooks,hend.senders,hend.receivers,hend.accepts,hend.acceptor,?_,?_,?_,?_,?_⟩
    (List.Subset.refl _) (fun d hd => ?_)
  · have hd := hend.dials
    simpa [ProtocolActor.dialed,ProtocolActor.dialing,hst] using hd
  · have hd := hend.dialer
    simpa [ProtocolActor.dialed,ProtocolActor.dialing,hst] using hd
  · intro a u j hj
    cases hj
  · intro j hj
    cases hj
  · intro j bytes hj
    rcases List.mem_append.mp hj with hj | hj
    · exact hend.reads j bytes hj
    · cases List.mem_singleton.mp hj
      exact ⟨link,hl,hw⟩
  · rw [hnone] at hd
    cases hd

private theorem route_wired {s s' : Network E U} (h : s.Wired) {e : E} {k : Nat} (hs : s.route e k = some s') :
    s'.Wired := by
  unfold route at hs
  split at hs
  · rename_i hk
    dsimp only at hs
    split at hs
    · cases hs
      refine (h.close [k]).dropIncoming (fun e' => ?_)
      by_cases he : e' = e
      · subst he
        rw [Function.update_self]
        exact List.erase_sublist
      · rw [Function.update_of_ne he]
    · obtain ⟨t,ht,rfl⟩ := Option.map_eq_some_iff.mp hs
      obtain ⟨b,hb,rfl⟩ := Option.map_eq_some_iff.mp ht
      exact h.routed hk hb
  · cases hs

private theorem connect_wired {s s' : Network E U} (h : s.Wired) {e : E} {ok : Bool}
    (hs : s.connect e ok = some s') : s'.Wired := by
  unfold connect at hs
  split at hs
  · rename_i target t hst
    split at hs
    · obtain ⟨u,hu,rfl⟩ := Option.map_eq_some_iff.mp hs
      obtain ⟨b,hb,rfl⟩ := Option.map_eq_some_iff.mp hu
      exact h.connected hst hb
    · exact h.act (l := .connected none) trivial hs
  · cases hs

private theorem openBi_wired {s s' : Network E U} (h : s.Wired) {e : E} (hs : s.openBi e = some s') : s'.Wired := by
  unfold openBi at hs
  split at hs
  · rename_i target t k hst
    split at hs
    · rename_i link hl
      cases hdown : link.down with
      | false =>
        rw [hdown] at hs
        exact h.act (l := .biOpened true) trivial hs
      | true =>
        rw [hdown] at hs
        have hd : (s.actor e).dialing = some (target,t,k) := by simp [ProtocolActor.dialing,hst]
        obtain ⟨b,hb,rfl⟩ := Option.map_eq_some_iff.mp hs
        have hbooks := ProtocolActor.step_books (h.endpoint e).books hb
        simp only [ProtocolActor.step,ProtocolActor.biOpened,hst] at hb
        cases hb
        refine h.dialDone hd (.error (.handshake k .noStream)) hbooks rfl rfl (extended_refl _)
          (fun _ _ => rfl) (fun link' hl' => ?_)
        obtain ⟨old,hold,-,-,hw⟩ := (h.endpoint e).target target t k hd
        rw [hl] at hold hl'
        cases hold
        cases hl'
        exact .broken hdown (by rw [hw]; decide) (by rw [hw]; exact List.nil_prefix)
    · cases hs
  · cases hs

omit [DecidableEq E] in
private theorem extended_write {links : List (Link E)} {conn : Nat} {bytes : Bytes}
    (h : ∀ link, links[conn]? = some link → link.written = []) : Extended links (write links conn bytes) := by
  intro k link hl
  refine ⟨_,by rw [getElem?_write,hl]; rfl,?_⟩
  split
  · rename_i hk
    subst hk
    refine ⟨rfl,rfl,?_⟩
    rw [h link hl]
    exact List.nil_prefix
  · exact ⟨rfl,rfl,List.prefix_rfl⟩

private theorem writeOpen_wired {s s' : Network E U} (h : s.Wired) {e : E} {n : Nat} {id : U}
    (hs : s.writeOpen e n id = some s') : s'.Wired := by
  unfold writeOpen at hs
  split at hs
  · rename_i target t k hst
    have hd : (s.actor e).dialing = some (target,t,k) := by simp [ProtocolActor.dialing,hst]
    obtain ⟨link,hl,hdialer,hacc,hw⟩ := (h.endpoint e).target target t k hd
    rw [hl] at hs
    have hx : ∀ bytes, Extended s.links (write s.links k bytes) := by
      intro bytes
      refine extended_write (fun link' hl' => ?_)
      rw [hl] at hl'
      cases hl'
      exact hw
    have hframe : ∀ bytes j, j ≠ k → (write s.links k bytes)[j]? = s.links[j]? := by
      intro bytes j hj
      rw [getElem?_write]
      simp [hj]
    have hself : ∀ bytes link', (write s.links k bytes)[k]? = some link' → link' = { link with written := bytes } := by
      intro bytes link' hl'
      rw [getElem?_write,hl] at hl'
      simpa using hl'.symm
    dsimp only at hs
    split at hs
    · rename_i hdown
      split at hs
      · rename_i hn
        obtain ⟨u,hu,rfl⟩ := Option.map_eq_some_iff.mp hs
        obtain ⟨b,hb,rfl⟩ := Option.map_eq_some_iff.mp hu
        have hbooks := ProtocolActor.step_books (h.endpoint e).books hb
        simp only [ProtocolActor.step,ProtocolActor.openWritten,hst] at hb
        cases hb
        refine h.dialDone hd (.error (.handshake k .writeOpenMessage)) hbooks rfl rfl (hx _) (hframe _)
          (fun link' hl' => ?_)
        rw [hself _ link' hl']
        exact .broken hdown (by simpa using hn) (List.take_prefix _ _)
      · cases hs
    · obtain ⟨u,hu,rfl⟩ := Option.map_eq_some_iff.mp hs
      obtain ⟨b,hb,rfl⟩ := Option.map_eq_some_iff.mp hu
      have hbooks := ProtocolActor.step_books (h.endpoint e).books hb
      simp only [ProtocolActor.step,ProtocolActor.openWritten,hst,if_true] at hb
      cases hb
      refine h.dialDone hd (.ok ⟨id,.dial,k⟩) hbooks rfl rfl (hx _) (hframe _) (fun link' hl' => ?_)
      rw [hself _ link' hl']
      refine .opened rfl t id ?_
      rw [hdialer,hacc,Function.update_self]
      exact List.mem_append_right _ (List.mem_singleton_self _)
  · cases hs

private theorem acceptBi_wired {s s' : Network E U} (h : s.Wired) {e : E} {ok : Bool}
    (hs : s.acceptBi e ok = some s') : s'.Wired := by
  unfold acceptBi at hs
  split at hs
  · rename_i k hst
    split at hs
    · rename_i link hl
      split at hs
      · split at hs
        · rename_i hw
          obtain ⟨b,hb,rfl⟩ := Option.map_eq_some_iff.mp hs
          exact h.streamAccepted hst hl hw hb
        · cases hs
      · split at hs
        · exact h.act (l := .biAccepted false) trivial hs
        · cases hs
    · cases hs
  · cases hs

private theorem readOpen_wired {s s' : Network E U} (h : s.Wired) {e : E} {stream : ChunkReader UInt8} {id : U}
    (hs : s.readOpen e stream id = some s') : s'.Wired := by
  unfold readOpen at hs
  split at hs
  · rename_i k hst
    split at hs
    · rename_i link hl
      split at hs
      · rename_i hg
        split at hs
        · obtain ⟨b,hb,rfl⟩ := Option.map_eq_some_iff.mp hs
          exact h.openRead hst hl hg.1 hb
        · obtain ⟨u,hu,rfl⟩ := Option.map_eq_some_iff.mp hs
          obtain ⟨b,hb,rfl⟩ := Option.map_eq_some_iff.mp hu
          exact (h.openRead hst hl hg.1 hb).close [k]
      · cases hs
    · cases hs
  · cases hs

theorem step_wired {s s' : Network E U} {m : NetMove E U} (h : s.Wired) (hs : s.step m = some s') : s'.Wired := by
  cases m with
  | dial e target t => exact h.act (l := .request (.dial target t)) trivial hs
  | cancel e => exact h.act (l := .cancel) trivial hs
  | lose k =>
    cases hs
    exact h.close [k]
  | route e k => exact route_wired h hs
  | cancelArm e =>
    obtain ⟨t,ht,rfl⟩ := Option.map_eq_some_iff.mp hs
    have hlinks : t.links = s.links := by
      obtain ⟨b,-,rfl⟩ := Option.map_eq_some_iff.mp ht
      rfl
    rw [← hlinks]
    exact (h.act (l := .cancelArm) trivial ht).close _
  | recv e => exact h.act (l := .recv) trivial hs
  | connect e ok => exact connect_wired h hs
  | openBi e => exact openBi_wired h hs
  | writeOpen e n id => exact writeOpen_wired h hs
  | acceptBi e ok => exact acceptBi_wired h hs
  | readOpen e stream id => exact readOpen_wired h hs
  | passOn e => exact h.act (l := .passedOn) trivial hs
  | acceptConn e => exact h.act (l := .acceptConn) trivial hs

end Network
end GossipCore.Protocol
