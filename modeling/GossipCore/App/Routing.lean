import GossipCore.App.Shutdown

/-! Where AppActor takes what it is asked for: a peer has one manager as long as the
application runs, and every accepted connection goes to the manager of its peer. -/
namespace GossipCore.App
open Base Chat Protocol
open Manager hiding channelBuffer

/-- What has become of an accepted connection. Without a repository, or when the chat actor
has returned, its handle is dropped. -/
inductive Outcome where
  | passed (manager : Nat)
  | actorGone (manager : Nat)
  | noRepository
  deriving DecidableEq, Repr

/-- The application with a record of what AppActor has done. -/
structure Routing (E U : Type) where
  app : Application E U
  /-- The handle that handle_chat_manager was called with. -/
  inHand : Option (ChatConnectionHandle U Nat)
  routed : List (ChatConnectionHandle U Nat × Outcome)
  asked : List E
  answered : List (E × Option Nat)

namespace Routing
variable {E U : Type} [DecidableEq E] (remoteId : Nat → E)

def start : Routing E U := ⟨Application.start,none,[],[],[]⟩

/-- An accepted connection that carries a handle. -/
def handle? (result : Accepted U) : Option (ChatConnectionHandle U Nat) := result.toOption

def outcome (before after : AppState E) : Outcome :=
  match after.served with
  | some i => if i < before.spawned ∧ (before.actors i).stage = .returned then .actorGone i else .passed i
  | none => .noRepository

/-- AppActor goes into handle_chat_manager and comes back from it. -/
def record (r : Routing E U) (app : Application E U) : Routing E U :=
  match r.app.stage, app.stage with
  | .selecting, .handling _ true => { r with app := app, inHand := r.app.protocol.acceptRx.head?.bind handle? }
  | .handling p _, .selecting =>
    match r.inHand with
    | some handle =>
      { r with app := app, inHand := none, routed := r.routed++[(handle,outcome r.app.managers app.managers)] }
    | none => { r with app := app, answered := r.answered++[(p,app.managers.served)] }
  | _, _ => { r with app := app }

def ask (r : Routing E U) : Label E U → Routing E U
  | .request p => { r with asked := r.asked++[p] }
  | _ => r

def step (r : Routing E U) (l : Label E U) : Option (Routing E U) :=
  (r.app.step remoteId l).map (fun app => (r.record app).ask l)

/-- The request that AppActor is working on. -/
def serving (app : Application E U) : List E :=
  match app.stage with
  | .handling p false => [p]
  | _ => []

/-- The handle in hand is the one that AppActor works on. -/
def HandleInHand (r : Routing E U) : Prop :=
  match r.app.stage with
  | .handling p true => ∃ handle, r.inHand = some handle ∧ remoteId handle.connection = p
  | _ => r.inHand = none

structure Routed (r : Routing E U) : Prop where
  inv : r.app.Inv
  books : r.app.protocol.Books
  mapped : ∀ p i, r.app.managers.chatManagers p = some i → i < r.app.managers.spawned
  single : ∀ p q i, r.app.managers.chatManagers p = some i → r.app.managers.chatManagers q = some i → p = q
  opening : ∀ o, r.app.managers.opening = some o → r.app.stage = .handling o.remoteId o.accepted
  hand : r.HandleInHand remoteId
  taken : r.app.protocol.taken.filterMap handle? = r.routed.map Prod.fst++r.inHand.toList
  destination : ∀ handle i, (handle,Outcome.passed i) ∈ r.routed ∨ (handle,Outcome.actorGone i) ∈ r.routed →
    r.app.managers.chatManagers (remoteId handle.connection) = some i
  asked : r.asked = r.answered.map Prod.fst++serving r.app++r.app.requestRx
  answers : ∀ p i, (p,some i) ∈ r.answered → r.app.managers.chatManagers p = some i

section Step
variable {remoteId} {r : Routing E U} {app : Application E U}

omit [DecidableEq E] in
/-- A step that is not recorded and changes neither the map nor the channels. -/
private theorem Routed.kept (h : r.Routed remoteId) (hinv : app.Inv) (hbooks : app.protocol.Books)
    (hrecord : r.record app = { r with app := app }) (hhand : { r with app := app }.HandleInHand remoteId)
    (hserving : serving app = serving r.app) (hmap : app.managers.chatManagers = r.app.managers.chatManagers)
    (hspawned : app.managers.spawned = r.app.managers.spawned)
    (hopening : ∀ o, app.managers.opening = some o → app.stage = .handling o.remoteId o.accepted)
    (htaken : app.protocol.taken = r.app.protocol.taken) (hrequests : app.requestRx = r.app.requestRx) :
    (r.record app).Routed remoteId := by
  rw [hrecord]
  refine ⟨hinv,hbooks,?_,?_,hopening,hhand,?_,?_,?_,?_⟩
  · simpa only [hmap,hspawned] using h.mapped
  · simpa only [hmap] using h.single
  · simpa only [htaken] using h.taken
  · simpa only [hmap] using h.destination
  · simpa only [hserving,hrequests] using h.asked
  · simpa only [hmap] using h.answers

omit [DecidableEq E] in
private theorem HandleInHand.none (h : r.HandleInHand remoteId) (hst : ∀ p b, r.app.stage ≠ .handling p b) :
    r.inHand = none := by
  unfold HandleInHand at h
  split at h
  · rename_i he
    exact absurd he (hst _ _)
  · exact h

omit [DecidableEq E] in
/-- AppActor takes the next connection from the accept channel. -/
private theorem Routed.tookConn (h : r.Routed remoteId) {result : Accepted U} {rest : List (Accepted U)}
    (hst : r.app.stage = .selecting) (hq : r.app.protocol.acceptRx = result::rest) (hinv : app.Inv)
    (hbooks : app.protocol.Books) (happ : app = { r.app with
      protocol := { r.app.protocol with acceptRx := rest, taken := r.app.protocol.taken++[result] }
      stage := Application.afterAccept remoteId result }) : (r.record app).Routed remoteId := by
  have hnone : r.inHand = none := h.hand.none (by simp [hst])
  have htaken := h.taken
  have hasked := h.asked
  have hopening : ∀ o, r.app.managers.opening = some o → False := by
    intro o ho
    have hhandling := h.opening o ho
    rw [hst] at hhandling
    cases hhandling
  rw [hnone] at htaken
  simp only [serving,hst] at hasked
  cases result with
  | ok handle =>
    have hrecord : r.record app = { r with app := app, inHand := some handle } := by
      simp [record,happ,hst,hq,handle?,Except.toOption,Application.afterAccept]
    rw [hrecord]
    subst happ
    refine ⟨hinv,hbooks,h.mapped,h.single,fun o ho => (hopening o ho).elim,⟨handle,rfl,rfl⟩,?_,h.destination,?_,
      h.answers⟩
    · simpa [handle?,Except.toOption] using htaken
    · simpa [serving,Application.afterAccept] using hasked
  | error e =>
    have hrecord : r.record app = { r with app := app } := by
      simp [record,happ,hst,Application.afterAccept]
    rw [hrecord]
    subst happ
    refine ⟨hinv,hbooks,h.mapped,h.single,fun o ho => (hopening o ho).elim,hnone,?_,h.destination,?_,h.answers⟩
    · simpa [hnone,handle?,Except.toOption,List.filterMap_cons] using htaken
    · simpa [serving,Application.afterAccept] using hasked

omit [DecidableEq E] in
private theorem Routed.tookRequest (h : r.Routed remoteId) {p : E} {rest : List E} (hst : r.app.stage = .selecting)
    (hq : r.app.requestRx = p::rest) (hinv : app.Inv)
    (happ : app = { r.app with stage := .handling p false, requestRx := rest }) :
    (r.record app).Routed remoteId := by
  have hnone : r.inHand = none := h.hand.none (by simp [hst])
  have hasked := h.asked
  have hrecord : r.record app = { r with app := app } := by
    simp [record,happ,hst]
  rw [hrecord]
  subst happ
  refine ⟨hinv,h.books,h.mapped,h.single,fun o ho => ?_,hnone,h.taken,h.destination,?_,h.answers⟩
  · have hhandling := h.opening o ho
    rw [hst] at hhandling
    cases hhandling
  · simpa [serving,hst,hq] using hasked

/-- A new manager is put under a peer that has none. -/
private theorem Routed.spawned (h : r.Routed remoteId) {p : E} (hno : r.app.managers.chatManagers p = none)
    {m : E → Option Nat} (hm : m = Function.update r.app.managers.chatManagers p (some r.app.managers.spawned)) :
    m p = some r.app.managers.spawned ∧ (∀ q i, m q = some i → i < r.app.managers.spawned+1) ∧
      (∀ p q i, m p = some i → m q = some i → p = q) ∧
      ∀ q i, r.app.managers.chatManagers q = some i → m q = some i := by
  have hself : m p = some r.app.managers.spawned := by rw [hm,Function.update_self]
  have hother : ∀ {q}, q ≠ p → m q = r.app.managers.chatManagers q := fun hq => by rw [hm,Function.update_of_ne hq]
  have hlt : ∀ {q i}, q ≠ p → m q = some i → i < r.app.managers.spawned :=
    fun hq hi => h.mapped _ _ ((hother hq).symm.trans hi)
  refine ⟨hself,fun q i hi => ?_,fun q q' i hi hi' => ?_,fun q i hi => ?_⟩
  · by_cases hq : q = p
    · rw [hq,hself] at hi
      cases hi
      exact Nat.lt_succ_self _
    · exact (hlt hq hi).trans (Nat.lt_succ_self _)
  · by_cases hq : q = p <;> by_cases hq' : q' = p
    · rw [hq,hq']
    · rw [hq,hself] at hi
      cases hi
      exact absurd (hlt hq' hi') (Nat.lt_irrefl _)
    · rw [hq',hself] at hi'
      cases hi'
      exact absurd (hlt hq hi) (Nat.lt_irrefl _)
    · exact h.single q q' i ((hother hq).symm.trans hi) ((hother hq').symm.trans hi')
  · have hq : q ≠ p := by
      rintro rfl
      rw [hno] at hi
      cases hi
    rw [hother hq]
    exact hi

end Step

/-- What the open message makes of the state. -/
private def opened (k : Nat) (r : Routing Bool Nat) : Routing Bool Nat := { r with app := { r.app with
  protocol := { r.app.protocol with
    reads := r.app.protocol.reads++[(k,Network.sentStream.remaining)]
    stage := .passingOn k (.ok ⟨7+k,.accept,k⟩) }
  live := insert k r.app.live } }

end Routing
end GossipCore.App
