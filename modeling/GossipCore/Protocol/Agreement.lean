import GossipCore.Base.Progress
import GossipCore.Protocol.Network

/-! What the handshakes of a network lead to: the two ends of a connection agree about it,
and the actors never wait for each other in a circle, so every dial is answered. -/
namespace GossipCore.Protocol
open Base Chat Wire

namespace Network
variable {E U : Type} [DecidableEq E]

/-- The handles that an actor has given out, as origin and connection. -/
def handleOf : ConnectionRequest E × Answer U → Option (ConnOrigin × Nat)
  | (_,.ok handle) => some (handle.origin,handle.connection)
  | _ => none

omit [DecidableEq E] in
/-- Whatever was read is a part of the open message. -/
private theorem Wired.read_part {s : Network E U} (h : s.Wired) {e : E} {k : Nat} {bytes : Bytes}
    (hr : (k,bytes) ∈ (s.actor e).reads) : bytes <+: openMessage := by
  obtain ⟨link,hl,hb⟩ := (h.endpoint e).reads k bytes hr
  cases h.state k link hl with
  | dialing hw t hd =>
    rw [hw] at hb
    rw [List.prefix_nil.mp hb]
    exact List.nil_prefix
  | opened hw t id hs => exact hw ▸ hb
  | broken hd hlen hw => exact hb.trans hw

omit [DecidableEq E] in
/-- All of the open message can be read only from a link whose dial has been answered. -/
private theorem Wired.read_opened {s : Network E U} (h : s.Wired) {e : E} {k : Nat} {bytes : Bytes}
    (hr : (k,bytes) ∈ (s.actor e).reads) (ho : openMessage <+: bytes) :
    ∃ link, s.links[k]? = some link ∧
      ∃ t id, (.dial link.acceptor t,.ok ⟨id,.dial,k⟩) ∈ (s.actor link.dialer).served := by
  obtain ⟨link,hl,hb⟩ := (h.endpoint e).reads k bytes hr
  refine ⟨link,hl,?_⟩
  have hlen := (ho.trans hb).length_le
  cases h.state k link hl with
  | dialing hw t hd =>
    rw [hw] at hlen
    exact absurd hlen (by decide)
  | opened hw t id hs => exact ⟨t,id,hs⟩
  | broken hd hlt hw => exact absurd hlen (Nat.not_le.mpr hlt)

omit [DecidableEq E] in
private theorem mem_acceptsOf {requests : List (ConnectionRequest E)} {k : Nat} :
    k ∈ acceptsOf requests ↔ .accept k ∈ requests := by
  simp only [acceptsOf,List.mem_filterMap]
  constructor
  · rintro ⟨r,hr,hk⟩
    cases r with
    | accept j =>
      cases hk
      exact hr
    | dial e t => cases hk
  · exact fun h => ⟨_,h,rfl⟩

omit [DecidableEq E] in
private theorem Wired.served_acceptor {s : Network E U} (h : s.Wired) {e : E} {k : Nat} {result : Answer U}
    (hs : (.accept k,result) ∈ (s.actor e).served) : ∃ link, s.links[k]? = some link ∧ link.acceptor = e := by
  refine (h.endpoint e).acceptor k (List.mem_append_left _ (mem_acceptsOf.mpr ?_))
  rw [(h.endpoint e).books.ordered]
  exact List.mem_append_left _ (List.mem_map_of_mem (f := Prod.fst) hs)

omit [DecidableEq E] in
/-- Two answers with the same accepted connection, or the same dialed one, are the same. -/
private theorem Wired.handles_nodup {s : Network E U} (h : s.Wired) (e : E) :
    ((s.actor e).served.filterMap handleOf).Nodup := by
  have hbooks := (h.endpoint e).books
  have haccepts : (acceptsOf ((s.actor e).served.map Prod.fst)).Nodup := by
    have hn := (h.endpoint e).accepts
    rw [hbooks.ordered,acceptsOf,List.filterMap_append] at hn
    exact (List.nodup_append.mp (List.nodup_append.mp hn).1).1
  have hdials : ((s.actor e).served.filterMap ProtocolActor.dialedOf).Nodup :=
    (List.nodup_append.mp (h.endpoint e).dials).1
  rw [acceptsOf,List.filterMap_map,List.Nodup,List.pairwise_filterMap] at haccepts
  rw [List.Nodup,List.pairwise_filterMap] at hdials ⊢
  refine (haccepts.and hdials).imp_of_mem ?_
  rintro ⟨r,result⟩ ⟨r',result'⟩ hp hp' ⟨ha,hd⟩ x hx y hy rfl
  obtain ⟨o,k⟩ := x
  have hj := hbooks.served _ hp
  have hj' := hbooks.served _ hp'
  cases result with
  | error err => cases hx
  | ok handle =>
    cases result' with
    | error err => cases hy
    | ok handle' =>
      cases r with
      | accept j =>
        cases r' with
        | accept j' =>
          simp only [handleOf,Option.some.injEq,Prod.mk.injEq] at hx hy
          exact ha j rfl j' rfl (by rw [← hj.2.1,← hj'.2.1,hx.2,hy.2])
        | dial e' t' =>
          simp only [handleOf,Option.some.injEq,Prod.mk.injEq] at hx hy
          exact absurd (hj.1.symm.trans (hx.1.trans (hy.1.symm.trans hj'))) (by decide)
      | dial e' t' =>
        cases r' with
        | accept j' =>
          simp only [handleOf,Option.some.injEq,Prod.mk.injEq] at hx hy
          exact absurd (hj'.1.symm.trans (hy.1.trans (hx.1.symm.trans hj))) (by decide)
        | dial e'' t'' =>
          simp only [handleOf,Option.some.injEq,Prod.mk.injEq] at hx hy
          exact hd _ rfl _ rfl (hx.2.trans hy.2.symm)

/-- Between endpoints that all run this protocol, an accepted handle is always matched by
the handle of its dialer for the same connection, an endpoint gives out at most one handle
for a connection and origin, and no handshake fails for a wrong open message. -/
theorem handles_are_paired {moves : List (NetMove E U)} {s : Network E U} (h : run step start moves = some s) :
    (∀ e k handle, (.accept k,.ok handle) ∈ (s.actor e).served →
      handle.origin = .accept ∧ handle.connection = k ∧ ∃ link, s.links[k]? = some link ∧ link.acceptor = e ∧
        ∃ t id, (.dial e t,.ok ⟨id,.dial,k⟩) ∈ (s.actor link.dialer).served) ∧
    (∀ e, ((s.actor e).served.filterMap handleOf).Nodup) ∧
    ∀ e k j, (.accept k,.error (.handshake j .invalidOpenMessage)) ∉ (s.actor e).served := by
  have hw : s.Wired := run_invariant (fun _ _ _ hi hs => step_wired hi hs) h start_wired
  refine ⟨fun e k handle hs => ?_,hw.handles_nodup,fun e k j hs => ?_⟩
  · obtain ⟨horigin,hconn,bytes,hread,ho⟩ := (hw.endpoint e).books.served _ hs
    obtain ⟨link,hl,ha⟩ := hw.served_acceptor hs
    obtain ⟨link',hl',t,id,hd⟩ := hw.read_opened hread ho
    rw [hl] at hl'
    cases hl'
    exact ⟨horigin,hconn,link,hl,ha,t,id,ha ▸ hd⟩
  · obtain ⟨-,bytes,hread,hlen,hne⟩ := (hw.endpoint e).books.served _ hs
    have hpre := hw.read_part hread
    exact hne (hpre.eq_of_length (Nat.le_antisymm hpre.length_le hlen) ▸ List.prefix_rfl)

def sentStream : ChunkReader UInt8 := ⟨[openMessage],by decide,.finished⟩

theorem acceptHandshake_sent : ∃ r', acceptHandshake sentStream = .ok r' := by
  have ho := acceptHandshake_opened sentStream
  have hbytes : sentStream.remaining = openMessage := rfl
  rw [hbytes] at ho
  generalize acceptHandshake sentStream = out at ho
  cases ho with
  | valid r' _ => exact ⟨r',rfl⟩
  | short hlt => exact absurd hlt (Nat.lt_irrefl _)
  | wrong _ hne => exact absurd List.prefix_rfl hne

/-- One dial, with all its moves at both ends but the last two. -/
def oneDial : List (NetMove Bool Nat) :=
  [.dial true false 7,.recv true,.connect true true,.openBi true,.writeOpen true 0 5,.route false 0,.recv false,
    .acceptBi false true]

theorem handles_are_paired_one : ∃ s : Network Bool Nat,
    run step start (oneDial++[.readOpen false sentStream 6,.passOn false]) = some s ∧
    (.accept 0,.ok ⟨6,.accept,0⟩) ∈ (s.actor false).served ∧ ∃ link, s.links[0]? = some link ∧ link.acceptor = false ∧
      ∃ t id, (.dial false t,.ok ⟨id,.dial,0⟩) ∈ (s.actor link.dialer).served := by
  obtain ⟨r',hr⟩ := acceptHandshake_sent
  obtain ⟨t,ht⟩ : ∃ t, run step (start : Network Bool Nat) oneDial = some t := ⟨_,rfl⟩
  have hrest : ∃ s, run step t [.readOpen false sentStream 6,.passOn false] = some s ∧
      (.accept 0,.ok ⟨6,.accept,0⟩) ∈ (s.actor false).served := by
    have hstage : (t.actor false).stage = .readingOpen 0 := by cases ht; rfl
    have hlink : t.links[0]? = some ⟨true,false,openMessage,false⟩ := by cases ht; rfl
    have halive : (t.actor false).receiversAlive = true := by cases ht; rfl
    have hempty : (t.actor false).acceptRx = [] := by cases ht; rfl
    have hguard : sentStream.remaining <+: openMessage ∧ openMessage.length ≤ sentStream.remaining.length :=
      ⟨List.prefix_rfl,Nat.le_refl _⟩
    simp [run,step,readOpen,act,hstage,hlink,hguard,hr,ProtocolActor.step,ProtocolActor.openRead,
      ProtocolActor.passedOn,ProtocolActor.answer,ProtocolActor.answerOf,halive,hempty,channelBuffer]
  obtain ⟨s,hs,hmem⟩ := hrest
  have hrun : run step start (oneDial++[.readOpen false sentStream 6,.passOn false]) = some s := by
    rw [run_append,ht]
    exact hs
  obtain ⟨-,-,link⟩ := (handles_are_paired hrun).1 false 0 _ hmem
  exact ⟨s,hrun,hmem,link⟩

/-- An upper bound of the moves that a request still needs. A dial is accepted at the
other end, which needs six of its own. -/
def requestWork : ConnectionRequest E → Nat
  | .accept _ => 5
  | .dial _ _ => 10

def stageWork : ActorStage E U → Nat
  | .selecting => 0
  | .connecting _ _ => 9
  | .openingBi _ _ _ => 2
  | .writingOpen _ _ _ => 1
  | .acceptingBi _ => 4
  | .readingOpen _ => 3
  | .passingOn _ _ => 2
  | .returned => 0

/-- A cancelled actor still has to return. -/
def cancelWork : ActorStage E U → Bool → Nat
  | .returned, _ => 0
  | _, cancelled => cancelled.toNat

def queueWork : List (ConnectionRequest E) → Nat
  | [] => 0
  | r::rest => requestWork r+queueWork rest

omit [DecidableEq E] in
@[simp] private theorem queueWork_concat (rs : List (ConnectionRequest E)) (r : ConnectionRequest E) :
    queueWork (rs++[r]) = queueWork rs+requestWork r := by
  induction rs with
  | nil => simp [queueWork]
  | cons q rs ih => simp only [List.cons_append,queueWork,ih,Nat.add_assoc]

def actorWork (a : ProtocolActor E U) : Nat :=
  queueWork a.requestRx+stageWork a.stage+a.acceptRx.length+cancelWork a.stage a.cancelled

def work [Fintype E] (s : Network E U) : Nat := ∑ e, actorWork (s.actor e)+∑ e, 6*(s.incoming e).length

/-- What an event takes from the work of its actor. -/
def cost : ActorEvent E U → Nat
  | .connected (some _) => 7
  | _ => 1

/-- The events that are not put on the actor from outside. -/
def Own : ActorEvent E U → Prop
  | .request _ => False
  | .cancel => False
  | .dropSenders => False
  | .dropReceivers => False
  | _ => True

omit [DecidableEq E] in
private theorem cancelWork_running {a : ProtocolActor E U} (hr : a.isReturned = false) (c : Bool) :
    cancelWork a.stage c = c.toNat := by
  unfold ProtocolActor.isReturned at hr
  cases hst : a.stage <;> simp [hst] at hr <;> rfl

omit [DecidableEq E] in
private theorem actorWork_stage {a b : ProtocolActor E U} {n : Nat} (hq : b.requestRx = a.requestRx)
    (hx : b.acceptRx = a.acceptRx) (hc : b.cancelled = a.cancelled) (hr : a.isReturned = false)
    (hr' : b.isReturned = false) (hs : stageWork b.stage+n ≤ stageWork a.stage) : actorWork b+n ≤ actorWork a := by
  simp only [actorWork,hq,hx,hc,cancelWork_running hr,cancelWork_running hr']
  omega

omit [DecidableEq E] in
private theorem actorWork_finish {a : ProtocolActor E U} (hr : a.isReturned = false)
    (hw : a.cancelled = true ∨ 0 < stageWork a.stage) : actorWork a.finish+1 ≤ actorWork a := by
  have hf : actorWork a.finish = a.acceptRx.length := by
    simp [actorWork,ProtocolActor.finish,queueWork,stageWork,cancelWork]
  rw [hf,actorWork,cancelWork_running hr]
  rcases hw with hc | hw
  · rw [hc,Bool.toNat_true]
    omega
  · omega

omit [DecidableEq E] in
theorem step_actorWork {a b : ProtocolActor E U} {l : ActorEvent E U} (hsend : a.sendersAlive = true) (hl : Own l)
    (h : a.step l = some b) : actorWork b+cost l ≤ actorWork a := by
  cases ProtocolActor.step_stepped h with
  | request r hr hs hlt => exact hl.elim
  | cancel => exact hl.elim
  | dropSenders => exact hl.elim
  | dropReceivers => exact hl.elim
  | acceptConn result rest hq hr =>
    simp only [actorWork,cost,hq,List.length_cons]
    omega
  | cancelArm hst hc => exact actorWork_finish (by simp [ProtocolActor.isReturned,hst]) (Or.inl hc)
  | recv r rest hst hq hc =>
    cases r <;> simp [actorWork,ProtocolActor.serve,hst,hq,hc,queueWork,stageWork,cancelWork,requestWork,cost] <;> omega
  | recvClosed hst hq hc hs => cases hsend.symm.trans hs
  | connected e t k hst =>
    exact actorWork_stage rfl rfl rfl (by simp [ProtocolActor.isReturned,hst]) rfl (by simp [hst,stageWork,cost])
  | connectFailed e t hst =>
    exact actorWork_stage rfl rfl rfl (by simp [ProtocolActor.isReturned,hst]) rfl
      (by simp [hst,stageWork,cost,ProtocolActor.answer])
  | biOpened e t k hst =>
    exact actorWork_stage rfl rfl rfl (by simp [ProtocolActor.isReturned,hst]) rfl (by simp [hst,stageWork,cost])
  | biOpenFailed e t k hst =>
    exact actorWork_stage rfl rfl rfl (by simp [ProtocolActor.isReturned,hst]) rfl
      (by simp [hst,stageWork,cost,ProtocolActor.answer])
  | openWritten e t k id hst =>
    exact actorWork_stage rfl rfl rfl (by simp [ProtocolActor.isReturned,hst]) rfl
      (by simp [hst,stageWork,cost,ProtocolActor.answer])
  | openWriteFailed e t k id hst =>
    exact actorWork_stage rfl rfl rfl (by simp [ProtocolActor.isReturned,hst]) rfl
      (by simp [hst,stageWork,cost,ProtocolActor.answer])
  | biAccepted k hst =>
    exact actorWork_stage rfl rfl rfl (by simp [ProtocolActor.isReturned,hst]) rfl (by simp [hst,stageWork,cost])
  | biAcceptFailed k hst =>
    exact actorWork_stage rfl rfl rfl (by simp [ProtocolActor.isReturned,hst]) rfl (by simp [hst,stageWork,cost])
  | openRead k stream rest id hst ho =>
    exact actorWork_stage rfl rfl rfl (by simp [ProtocolActor.isReturned,hst]) rfl (by simp [hst,stageWork,cost])
  | openReadFailed k stream id e hst ho =>
    exact actorWork_stage rfl rfl rfl (by simp [ProtocolActor.isReturned,hst]) rfl (by simp [hst,stageWork,cost])
  | passedOn k result hst hr hlt =>
    simp only [actorWork,hst,stageWork,cancelWork,cost,ProtocolActor.answer,List.length_append,List.length_singleton]
    omega
  | passedClosed k result hst hr =>
    exact actorWork_finish (by simp [ProtocolActor.isReturned,hst]) (Or.inr (by simp [hst,stageWork]))

private theorem act_work [Fintype E] {s t : Network E U} (h : s.Wired) {e : E} {l : ActorEvent E U} (hl : Own l)
    (ht : s.act e l = some t) : work t+cost l ≤ work s ∧ t.incoming = s.incoming := by
  obtain ⟨b,hb,rfl⟩ := Option.map_eq_some_iff.mp ht
  refine ⟨?_,rfl⟩
  have hw := step_actorWork (h.endpoint e).senders hl hb
  have hsum := sum_update_part actorWork s.actor e b
  simp only [work]
  omega

/-- An event of one actor that starts nothing elsewhere. -/
private theorem act_lowers [Fintype E] {s t : Network E U} (h : s.Wired) {e : E} {l : ActorEvent E U} (hl : Own l)
    (hc : cost l = 1) (ht : s.act e l = some t) : work t < work s := by
  have hw := (act_work h hl ht).1
  omega

private theorem act_map_lowers [Fintype E] {s t : Network E U} (h : s.Wired) {e : E} {l : ActorEvent E U} (hl : Own l)
    (hc : cost l = 1) {links : List (Link E)}
    (ht : (s.act e l).map (fun u => { u with links := links }) = some t) : work t < work s := by
  obtain ⟨u,hu,rfl⟩ := Option.map_eq_some_iff.mp ht
  have hlow := act_lowers h hl hc hu
  exact hlow

/-- A connection that reaches its actor, or whose actor is gone. -/
private theorem route_work [Fintype E] {s t : Network E U} {e : E} {k : Nat} (ht : s.route e k = some t) :
    work t < work s := by
  unfold route at ht
  split at ht
  · rename_i hk
    have hlen : ((s.incoming e).erase k).length+1 = (s.incoming e).length := List.length_erase_add_one hk
    have hsum := sum_update_part (fun l : List Nat => 6*l.length) s.incoming e ((s.incoming e).erase k)
    split at ht
    · cases ht
      simp only [work]
      omega
    · obtain ⟨u,hu,rfl⟩ := Option.map_eq_some_iff.mp ht
      obtain ⟨b,hb,rfl⟩ := Option.map_eq_some_iff.mp hu
      have hactor : actorWork b = actorWork (s.actor e)+5 := by
        simp only [ProtocolActor.step] at hb
        split at hb <;> cases hb
        simp [actorWork,requestWork]
        omega
      have hsum' := sum_update_part actorWork s.actor e b
      simp only [work]
      omega
  · cases ht

/-- A dial that gets its connection leaves work to the other end. -/
private theorem connect_work [Fintype E] {s t : Network E U} (h : s.Wired) {e : E} {ok : Bool}
    (ht : s.connect e ok = some t) : work t < work s := by
  unfold connect at ht
  split at ht
  · rename_i target c hst
    split at ht
    · obtain ⟨u,hu,rfl⟩ := Option.map_eq_some_iff.mp ht
      obtain ⟨hw,hin⟩ := act_work h (l := .connected (some s.links.length)) trivial hu
      have hsum := sum_update_part (fun l : List Nat => 6*l.length) s.incoming target
        (s.incoming target++[s.links.length])
      simp only [List.length_append,List.length_singleton] at hsum
      simp only [work,hin,cost] at hw ⊢
      omega
    · exact act_lowers h (l := .connected none) trivial rfl ht
  · cases ht

private theorem openBi_work [Fintype E] {s t : Network E U} (h : s.Wired) {e : E} (ht : s.openBi e = some t) :
    work t < work s := by
  unfold openBi at ht
  split at ht
  · split at ht
    · exact act_lowers h (l := .biOpened _) trivial rfl ht
    · cases ht
  · cases ht

private theorem writeOpen_work [Fintype E] {s t : Network E U} (h : s.Wired) {e : E} {n : Nat} {id : U}
    (ht : s.writeOpen e n id = some t) : work t < work s := by
  unfold writeOpen at ht
  split at ht
  · split at ht
    · split at ht
      · split at ht
        · exact act_map_lowers h (l := .openWritten false id) trivial rfl ht
        · cases ht
      · exact act_map_lowers h (l := .openWritten true id) trivial rfl ht
    · cases ht
  · cases ht

private theorem acceptBi_work [Fintype E] {s t : Network E U} (h : s.Wired) {e : E} {ok : Bool}
    (ht : s.acceptBi e ok = some t) : work t < work s := by
  unfold acceptBi at ht
  split at ht
  · split at ht
    · split at ht
      · split at ht
        · exact act_lowers h (l := .biAccepted true) trivial rfl ht
        · cases ht
      · split at ht
        · exact act_lowers h (l := .biAccepted false) trivial rfl ht
        · cases ht
    · cases ht
  · cases ht

private theorem readOpen_work [Fintype E] {s t : Network E U} (h : s.Wired) {e : E} {stream : ChunkReader UInt8}
    {id : U} (ht : s.readOpen e stream id = some t) : work t < work s := by
  unfold readOpen at ht
  split at ht
  · split at ht
    · split at ht
      · split at ht
        · exact act_lowers h (l := .openRead stream id) trivial rfl ht
        · exact act_map_lowers h (l := .openRead stream id) trivial rfl ht
      · cases ht
    · cases ht
  · cases ht

/-- Every move that starts nothing new takes something from the work. -/
theorem step_work [Fintype E] {s t : Network E U} {m : NetMove E U} (h : s.Wired) (hm : m.Continues)
    (ht : s.step m = some t) : work t < work s := by
  cases m with
  | dial e target t => exact hm.elim
  | cancel e => exact hm.elim
  | lose k => exact hm.elim
  | route e k => exact route_work ht
  | cancelArm e => exact act_map_lowers h (l := .cancelArm) trivial rfl ht
  | recv e => exact act_lowers h (l := .recv) trivial rfl ht
  | connect e ok => exact connect_work h ht
  | openBi e => exact openBi_work h ht
  | writeOpen e n id => exact writeOpen_work h ht
  | acceptBi e ok => exact acceptBi_work h ht
  | readOpen e stream id => exact readOpen_work h ht
  | passOn e => exact act_lowers h (l := .passedOn) trivial rfl ht
  | acceptConn e => exact act_lowers h (l := .acceptConn) trivial rfl ht

/-- Nothing is on its way to the actor, and every request that was made has been answered,
unless it was cancelled and has returned. -/
def SettledAt (s : Network E U) (e : E) : Prop :=
  s.incoming e = [] ∧ ((s.actor e).isReturned = true ∨
    ((s.actor e).cancelled = false ∧ (s.actor e).issued = (s.actor e).served.map Prod.fst))

/-- The actor hands over a connection, and its application has not emptied the accept
channel. -/
def WaitsAt (s : Network E U) (e : E) : Prop :=
  channelBuffer ≤ (s.actor e).acceptRx.length ∧ ∃ k result, (s.actor e).stage = .passingOn k result

private theorem act_eq_none_iff {s : Network E U} {e : E} {l : ActorEvent E U} :
    s.act e l = none ↔ (s.actor e).step l = none := Option.map_eq_none_iff

/-- No actor of a quiet network is opening a connection that it has dialed. -/
private theorem Wired.not_dialing [Nonempty U] {s : Network E U} (h : s.Wired)
    (hq : Quiet step NetMove.Internal s) (e : E) : (s.actor e).dialing = none := by
  obtain ⟨id⟩ := ‹Nonempty U›
  cases hd : (s.actor e).dialing with
  | none => rfl
  | some d =>
    exfalso
    obtain ⟨target,t,k⟩ := d
    obtain ⟨link,hl,-,-,-⟩ := (h.endpoint e).target target t k hd
    unfold ProtocolActor.dialing at hd
    split at hd
    · rename_i hst
      cases hd
      have hnone := hq (.openBi e) trivial
      simp only [step,openBi,hst,hl] at hnone
      have hact := act_eq_none_iff.mp hnone
      simp only [ProtocolActor.step,ProtocolActor.biOpened,hst] at hact
      split at hact <;> cases hact
    · rename_i hst
      cases hd
      have hnone := hq (.writeOpen e 0 id) trivial
      have hpos : 0 < openMessage.length := by decide
      simp only [step,writeOpen,hst,hl,if_pos hpos] at hnone
      split at hnone
      · have hact := act_eq_none_iff.mp (Option.map_eq_none_iff.mp hnone)
        simp only [ProtocolActor.step,ProtocolActor.openWritten,hst] at hact
        cases hact
      · have hact := act_eq_none_iff.mp (Option.map_eq_none_iff.mp hnone)
        simp only [ProtocolActor.step,ProtocolActor.openWritten,hst] at hact
        cases hact
    · cases hd

/-- A link of a quiet network is down or carries the open message. -/
private theorem Wired.link_ready [Nonempty U] {s : Network E U} (h : s.Wired)
    (hq : Quiet step NetMove.Internal s) {k : Nat} {link : Link E} (hl : s.links[k]? = some link) :
    link.down = true ∨ link.written = openMessage := by
  cases h.state k link hl with
  | dialing hw t hd => cases hd.symm.trans (h.not_dialing hq link.dialer)
  | opened hw t id hs => exact Or.inr hw
  | broken hd hlen hw => exact Or.inl hd

omit [DecidableEq E] in
/-- What a read gets from a link that is ready. -/
private theorem exists_stream {link : Link E} (h : link.down = true ∨ link.written = openMessage) :
    ∃ stream : ChunkReader UInt8, stream.remaining <+: link.written ∧
      (openMessage.length ≤ stream.remaining.length ∨ link.down = true) := by
  rcases h with h | h
  · exact ⟨⟨[],by simp,.failed⟩,List.nil_prefix,Or.inr h⟩
  · refine ⟨⟨[openMessage],by decide,.finished⟩,?_,Or.inl (by decide)⟩
    rw [h]
    decide

/-- What an accepted handshake waits for is there. -/
private theorem Wired.accept_ready [Nonempty U] {s : Network E U} (h : s.Wired)
    (hq : Quiet step NetMove.Internal s) {e : E} {k : Nat} (hk : .accept k ∈ (s.actor e).inService) :
    ∃ link, s.links[k]? = some link ∧ (link.down = true ∨ link.written = openMessage) := by
  have hmem : k ∈ acceptsOf (s.actor e).issued := by
    rw [mem_acceptsOf,(h.endpoint e).books.ordered]
    exact List.mem_append_right _ (List.mem_append_left _ hk)
  obtain ⟨link,hl,-⟩ := (h.endpoint e).acceptor k (List.mem_append_left _ hmem)
  exact ⟨link,hl,h.link_ready hq hl⟩

private theorem Wired.not_acceptingBi [Nonempty U] {s : Network E U} (h : s.Wired)
    (hq : Quiet step NetMove.Internal s) (e : E) (k : Nat) : (s.actor e).stage ≠ .acceptingBi k := by
  intro hst
  have hk : .accept k ∈ (s.actor e).inService := by simp [ProtocolActor.inService,hst]
  obtain ⟨link,hl,hdown | hw⟩ := h.accept_ready hq hk
  · have hnone := hq (.acceptBi e false) trivial
    simp only [step,acceptBi,hst,hl,if_pos hdown] at hnone
    have hact := act_eq_none_iff.mp hnone
    simp only [ProtocolActor.step,ProtocolActor.biAccepted,hst] at hact
    cases hact
  · have hnone := hq (.acceptBi e true) trivial
    have hne : link.written ≠ [] := by
      rw [hw]
      decide
    simp only [step,acceptBi,hst,hl,if_pos hne] at hnone
    have hact := act_eq_none_iff.mp hnone
    simp only [ProtocolActor.step,ProtocolActor.biAccepted,hst] at hact
    cases hact

private theorem Wired.not_readingOpen [Nonempty U] {s : Network E U} (h : s.Wired)
    (hq : Quiet step NetMove.Internal s) (e : E) (k : Nat) : (s.actor e).stage ≠ .readingOpen k := by
  intro hst
  obtain ⟨id⟩ := ‹Nonempty U›
  have hk : .accept k ∈ (s.actor e).inService := by simp [ProtocolActor.inService,hst]
  obtain ⟨link,hl,hready⟩ := h.accept_ready hq hk
  obtain ⟨stream,hpre,hlen⟩ := exists_stream hready
  have hnone := hq (.readOpen e stream id) trivial
  simp only [step,readOpen,hst,hl,if_pos (And.intro hpre hlen)] at hnone
  split at hnone
  · rename_i r' hr
    have hact := act_eq_none_iff.mp hnone
    simp [ProtocolActor.step,ProtocolActor.openRead,hst,hr] at hact
  · rename_i err herr
    have hact := act_eq_none_iff.mp (Option.map_eq_none_iff.mp hnone)
    simp [ProtocolActor.step,ProtocolActor.openRead,hst,herr] at hact

private theorem Wired.quiet_stage [Nonempty U] {s : Network E U} (h : s.Wired)
    (hq : Quiet step NetMove.Internal s) (e : E) :
    (s.actor e).isReturned = true ∨
      ((s.actor e).stage = .selecting ∧ (s.actor e).cancelled = false ∧ (s.actor e).requestRx = []) ∨ s.WaitsAt e := by
  have hdial := h.not_dialing hq e
  cases hst : (s.actor e).stage with
  | returned => exact Or.inl (by simp [ProtocolActor.isReturned,hst])
  | selecting =>
    have hcancel := act_eq_none_iff.mp (Option.map_eq_none_iff.mp (hq (.cancelArm e) trivial))
    have hrecv := act_eq_none_iff.mp (hq (.recv e) trivial)
    have hc : (s.actor e).cancelled = false := by
      simpa [ProtocolActor.step,ProtocolActor.cancelArm,hst] using hcancel
    refine Or.inr (Or.inl ⟨rfl,hc,?_⟩)
    cases hrx : (s.actor e).requestRx with
    | nil => rfl
    | cons r rest => simp [ProtocolActor.step,ProtocolActor.recv,hst,hrx,hc] at hrecv
  | connecting target t =>
    have hnone := hq (.connect e false) trivial
    simp only [step,connect,hst] at hnone
    have hact := act_eq_none_iff.mp hnone
    simp only [ProtocolActor.step,ProtocolActor.connected,hst] at hact
    cases hact
  | openingBi target t k => simp [ProtocolActor.dialing,hst] at hdial
  | writingOpen target t k => simp [ProtocolActor.dialing,hst] at hdial
  | acceptingBi k => exact absurd hst (h.not_acceptingBi hq e k)
  | readingOpen k => exact absurd hst (h.not_readingOpen hq e k)
  | passingOn k result =>
    have hnone := act_eq_none_iff.mp (hq (.passOn e) trivial)
    simp only [ProtocolActor.step,ProtocolActor.passedOn,hst,(h.endpoint e).receivers,if_true] at hnone
    split at hnone
    · cases hnone
    · rename_i hfull
      exact Or.inr (Or.inr ⟨Nat.not_lt.mp hfull,k,result,hst⟩)

/-- The actors never wait for each other: where nothing is left to do, each of them has
settled or waits for its own application. -/
private theorem Wired.settled [Nonempty U] {s : Network E U} (h : s.Wired)
    (hq : Quiet step NetMove.Internal s) (e : E) : s.SettledAt e ∨ s.WaitsAt e := by
  have hincoming : ∀ k ∈ s.incoming e, (s.actor e).isReturned = false ∧ (s.actor e).requestRx ≠ [] := by
    intro k hk
    have hnone := hq (.route e k) trivial
    simp only [step,route,if_pos hk] at hnone
    split at hnone
    · cases hnone
    · rename_i hr
      have hact := act_eq_none_iff.mp (Option.map_eq_none_iff.mp hnone)
      refine ⟨Bool.eq_false_iff.mpr hr,fun hrx => ?_⟩
      simp [ProtocolActor.step,hr,(h.endpoint e).senders,hrx,channelBuffer] at hact
  rcases h.quiet_stage hq e with hret | ⟨hst,hc,hrx⟩ | hwait
  · refine Or.inl ⟨List.eq_nil_iff_forall_not_mem.mpr (fun k hk => ?_),Or.inl hret⟩
    cases (hincoming k hk).1.symm.trans hret
  · refine Or.inl ⟨List.eq_nil_iff_forall_not_mem.mpr (fun k hk => (hincoming k hk).2 hrx),Or.inr ⟨hc,?_⟩⟩
    have hbooks := (h.endpoint e).books
    have ho := hbooks.ordered
    have hin : (s.actor e).inService = [] := by simp [ProtocolActor.inService,hst]
    rw [hin,hrx,hbooks.kept (by simp [ProtocolActor.isReturned,hst])] at ho
    simpa using ho
  · exact Or.inr hwait

/-- An application that takes its connections leaves its accept channel empty. -/
private theorem Wired.acceptRx_nil {s : Network E U} (h : s.Wired) (hq : Quiet step NetMove.Continues s) (e : E) :
    (s.actor e).acceptRx = [] := by
  have hnone := act_eq_none_iff.mp (hq (.acceptConn e) trivial)
  simp only [ProtocolActor.step,(h.endpoint e).receivers,if_true] at hnone
  split at hnone
  · cases hnone
  · assumption

private theorem Wired.all_settled [Nonempty U] {s : Network E U} (h : s.Wired) (hq : Quiet step NetMove.Continues s)
    (e : E) : s.SettledAt e ∧ (s.actor e).acceptRx = [] := by
  have hempty := h.acceptRx_nil hq e
  refine ⟨(h.settled (fun m hm => hq m hm.continues) e).resolve_right (fun hwait => ?_),hempty⟩
  have hfull := hwait.1
  simp [hempty,channelBuffer] at hfull

/-- No circle of waiting and no endless exchange: from every state that a network of any
number of endpoints reaches, with dials, cancels and lost connections at any time, the
moves that go on with what was begun are bounded in number. Where none of the actors can
go on, every dial and every accepted connection has been answered, except at an actor whose
own application has left its accept channel full; and where the applications take their
connections there is no such actor. -/
theorem every_request_is_answered [Fintype E] [Nonempty U] {moves : List (NetMove E U)} {s : Network E U}
    (h : run step start moves = some s) :
    (∀ more t, (∀ m ∈ more, m.Continues) → run step s more = some t → more.length+work t ≤ work s ∧
      (Quiet step NetMove.Internal t → ∀ e, t.SettledAt e ∨ t.WaitsAt e) ∧
      (Quiet step NetMove.Continues t → ∀ e, t.SettledAt e ∧ (t.actor e).acceptRx = [])) ∧
    (∃ more t, (∀ m ∈ more, m.Internal) ∧ run step s more = some t ∧ ∀ e, t.SettledAt e ∨ t.WaitsAt e) ∧
    ∃ more t, (∀ m ∈ more, m.Continues) ∧ run step s more = some t ∧ ∀ e, t.SettledAt e ∧ (t.actor e).acceptRx = [] := by
  have keeps : ∀ (s : Network E U) m t, s.Wired → s.step m = some t → t.Wired := fun _ _ _ hi hs => step_wired hi hs
  have lowers : ∀ (s : Network E U) (m : NetMove E U) t, s.Wired → m.Continues → s.step m = some t → work t < work s :=
    fun _ _ _ hi hm hs => step_work hi hm hs
  have lowers' : ∀ (s : Network E U) (m : NetMove E U) t, s.Wired → m.Internal → s.step m = some t → work t < work s :=
    fun _ _ _ hi hm hs => step_work hi hm.continues hs
  have hw : s.Wired := run_invariant keeps h start_wired
  refine ⟨fun more t hmore ht => ⟨run_length_le keeps lowers ht hw hmore,?_,?_⟩,?_,?_⟩
  · exact (run_invariant keeps ht hw).settled
  · exact (run_invariant keeps ht hw).all_settled
  · obtain ⟨more,t,hmore,ht,hwt,hq⟩ := exists_run_quiet keeps lowers' s hw
    exact ⟨more,t,hmore,ht,hwt.settled hq⟩
  · obtain ⟨more,t,hmore,ht,hwt,hq⟩ := exists_run_quiet keeps lowers s hw
    exact ⟨more,t,hmore,ht,hwt.all_settled hq⟩

/-- The dial of an endpoint to another one that has not done anything yet. -/
theorem every_request_is_answered_one : ∃ s : Network Bool Nat, run step start oneDial = some s ∧
    ∃ more t, (∀ m ∈ more, m.Internal) ∧ run step s more = some t ∧ ∀ e, t.SettledAt e ∨ t.WaitsAt e := by
  obtain ⟨s,hs⟩ : ∃ s, run step (start : Network Bool Nat) oneDial = some s := ⟨_,rfl⟩
  exact ⟨s,hs,(every_request_is_answered hs).2.1⟩

end Network
end GossipCore.Protocol
