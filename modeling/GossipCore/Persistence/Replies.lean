import GossipCore.Persistence.PeerLists
import Mathlib.Algebra.GroupWithZero.Nat

/-! Two repositories that answer each other's frames, with nothing else going on.
Frames may overtake each other. The exchange ends, by a count over both directions. -/
namespace GossipCore.Persistence
open Base

/-- The reply action of receive_sync_message: what was generated, but nothing at all
when both the frame and the answer are empty. -/
def replyTo {M : Type} (frame generated : Option M) : Option (Option M) :=
  if frame.isNone ∧ generated.isNone then none else some generated

variable {I C S M O : Type} [DecidableEq C] (am : Automerge C S M O) (chatId : I)

/-- A frame that is accepted ends in one call of generate_sync_message, and the reply
is made from what it returned. -/
theorem receiveSyncMessage_reply (ok : Bool) (frame : Option M) (t : Tables I C) (repo : ChatRepository C S) :
    (∃ e, (repo.receiveSyncMessage am chatId ok frame t).1 = .error e) ∨
    ∃ msgs, ∃ last : ChatRepository C S,
      (repo.receiveSyncMessage am chatId ok frame t).1 = .ok (msgs,replyTo frame (last.generateSyncMessage am).2) ∧
      (repo.receiveSyncMessage am chatId ok frame t).2.2 = (last.generateSyncMessage am).1 := by
  cases frame with
  | none =>
    refine Or.inr ⟨[],repo,?_,rfl⟩
    simp only [ChatRepository.receiveSyncMessage,ChatRepository.receiveEmpty,replyTo,Option.isNone_none,true_and]
  | some msg =>
    simp only [ChatRepository.receiveSyncMessage]
    split
    · unfold ChatRepository.persistAndExtract
      generalize (repo.applySyncMessage am msg).1.persistChat am chatId ok t = saved
      obtain ⟨res,t',repo'⟩ := saved
      cases res with
      | error e => exact Or.inl ⟨e,rfl⟩
      | ok u =>
        dsimp only
        split
        · rename_i e he
          exact Or.inl ⟨e,rfl⟩
        · rename_i messages hm
          exact Or.inr ⟨messages,repo',by simp [replyTo],rfl⟩
    · exact Or.inl ⟨_,rfl⟩

/-- Both repositories with their rows, the frames on their way to each side, and how
often generate_sync_message has returned a message. -/
structure Exchange (I C S M : Type) where
  tables : Side → Tables I C
  repo : Side → ChatRepository C S
  inFlight : Side → List (Option M)
  generated : Nat

/-- A frame arrives at the side; its INSERT has the given outcome. -/
structure Delivery where
  side : Side
  k : Nat
  ok : Bool

namespace Exchange

/-- What is sent back, and how many messages generate_sync_message gave for it. -/
def answer {α : Type} : Except LibError (α × Option (Option M)) → List (Option M) × Nat
  | .ok (_,some (some msg)) => ([some msg],1)
  | .ok (_,some none) => ([none],0)
  | .ok (_,none) => ([],0)
  | .error _ => ([],0)

def step (s : Exchange I C S M) (l : Delivery) : Option (Exchange I C S M) :=
  match (s.inFlight l.side)[l.k]? with
  | some frame =>
    let out := (s.repo l.side).receiveSyncMessage am chatId l.ok frame (s.tables l.side)
    let reply := answer out.1
    let rest := Function.update s.inFlight l.side ((s.inFlight l.side).eraseIdx l.k)
    some {
      tables := Function.update s.tables l.side out.2.1
      repo := Function.update s.repo l.side out.2.2
      inFlight := Function.update rest l.side.other (rest l.side.other++reply.1)
      generated := s.generated+reply.2 }
  | none => none

def frames (s : Exchange I C S M) : Nat := (s.inFlight .left).length+(s.inFlight .right).length

/-- A frame with a message can cause two further ones, an empty one only one. -/
def weight : Option M → Nat
  | some _ => 2
  | none => 1

def total (l : List (Option M)) : Nat := (l.map weight).sum

def load (s : Exchange I C S M) : Nat := total (s.inFlight .left)+total (s.inFlight .right)

/-- What a delivered frame brings about, in the terms of generate_sync_message. -/
private theorem answer_cases (ok : Bool) (frame : Option M) (t : Tables I C) (repo : ChatRepository C S) :
    answer (repo.receiveSyncMessage am chatId ok frame t).1 = ([],0) ∨
    ∃ last : ChatRepository C S, answer (repo.receiveSyncMessage am chatId ok frame t).1 =
      ((replyTo frame (last.generateSyncMessage am).2).toList,if (last.generateSyncMessage am).2.isSome then 1 else 0) := by
  rcases receiveSyncMessage_reply am chatId ok frame t repo with ⟨e,he⟩ | ⟨msgs,last,hr,-⟩
  · exact Or.inl (by rw [he]; rfl)
  · refine Or.inr ⟨last,?_⟩
    rw [hr]
    cases frame <;> cases (last.generateSyncMessage am).2 <;> rfl

/-- The answer weighs less than the frame, up to twice the messages generated for it. -/
private theorem answer_weight (ok : Bool) (frame : Option M) (t : Tables I C) (repo : ChatRepository C S) :
    total (answer (repo.receiveSyncMessage am chatId ok frame t).1).1+1 ≤
      weight frame+2*(answer (repo.receiveSyncMessage am chatId ok frame t).1).2 := by
  have hpos : 1 ≤ weight frame := by cases frame <;> simp [weight]
  rcases answer_cases am chatId ok frame t repo with ha | ⟨last,ha⟩
  · rw [ha]
    simpa [total] using hpos
  · rw [ha]
    cases frame <;> cases (last.generateSyncMessage am).2 <;> simp [replyTo,total,weight]

private theorem total_eraseIdx {l : List (Option M)} {k : Nat} {frame : Option M} (h : l[k]? = some frame) :
    total (l.eraseIdx k)+weight frame = total l := by
  induction l generalizing k with
  | nil => simp at h
  | cons x l ih =>
    cases k with
    | zero =>
      obtain rfl : x = frame := by simpa using h
      simp [total,Nat.add_comm]
    | succ k =>
      have hrest := ih (k := k) (by simpa using h)
      simp only [total,List.eraseIdx_cons_succ,List.map_cons,List.sum_cons] at hrest ⊢
      omega

private theorem total_append (l m : List (Option M)) : total (l++m) = total l+total m := by
  simp [total]

omit [DecidableEq C] in
private theorem load_eq (s : Exchange I C S M) (side : Side) :
    s.load = total (s.inFlight side)+total (s.inFlight side.other) := by
  cases side with
  | left => rfl
  | right => exact Nat.add_comm _ _

/-- Every delivery takes something from the load. -/
theorem step_load {s t : Exchange I C S M} {l : Delivery} (h : step am chatId s l = some t) :
    t.load+2*s.generated+1 ≤ s.load+2*t.generated := by
  simp only [step] at h
  split at h
  · rename_i frame hk
    cases h
    have herase := total_eraseIdx hk
    have hans := answer_weight am chatId l.ok frame (s.tables l.side) (s.repo l.side)
    have hne : l.side ≠ l.side.other := by cases l.side <;> decide
    rw [load_eq _ l.side,load_eq s l.side]
    simp only [Function.update_self,Function.update_of_ne hne,Function.update_of_ne hne.symm,total_append]
    omega
  · cases h

theorem run_load {s t : Exchange I C S M} {ls : List Delivery} (h : run (step am chatId) s ls = some t) :
    t.load+2*s.generated+ls.length ≤ s.load+2*t.generated := by
  induction ls generalizing s with
  | nil =>
    cases h
    exact Nat.le_refl _
  | cons l ls ih =>
    obtain ⟨u,hu,hr⟩ := run_cons h
    have hstep := step_load am chatId hu
    have hrest := ih hr
    rw [List.length_cons]
    omega

omit [DecidableEq C] in
private theorem load_le_frames (s : Exchange I C S M) : s.load ≤ 2*s.frames := by
  have hone : ∀ l : List (Option M), total l ≤ 2*l.length := by
    intro l
    induction l with
    | nil => simp [total]
    | cons x l ih =>
      have hx : weight x ≤ 2 := by cases x <;> simp [weight]
      simp only [total,List.map_cons,List.sum_cons,List.length_cons] at ih ⊢
      omega
  have hl := hone (s.inFlight .left)
  have hr := hone (s.inFlight .right)
  simp only [load,frames]
  omega

/-- Any frame in flight can be delivered, whatever becomes of its INSERT. -/
theorem stuck_iff {s : Exchange I C S M} :
    (∀ l, step am chatId s l = none) ↔ ∀ side, s.inFlight side = [] := by
  constructor
  · intro h side
    have hnone := h ⟨side,0,true⟩
    simp only [step] at hnone
    cases hf : s.inFlight side with
    | nil => rfl
    | cons frame rest => simp [hf] at hnone
  · intro h l
    simp [step,h l.side]

/-- An exchange in which only finitely many messages are generated runs dry. -/
private theorem exists_quiet {n : Nat} {s : Exchange I C S M}
    (hn : ∀ ls t, run (step am chatId) s ls = some t → t.generated ≤ n) :
    ∃ ls t, run (step am chatId) s ls = some t ∧ ∀ side, t.inFlight side = [] := by
  induction hm : s.load+2*(n-s.generated) using Nat.strong_induction_on generalizing s with
  | _ m ih =>
    by_cases hq : ∀ side, s.inFlight side = []
    · exact ⟨[],s,rfl,hq⟩
    · obtain ⟨l,hl⟩ := not_forall.mp (fun h => hq ((stuck_iff am chatId).mp h))
      obtain ⟨t,ht⟩ := Option.ne_none_iff_exists'.mp hl
      have hload := step_load am chatId ht
      have hgen := hn [l] t (by simp [run,ht])
      have hlater : ∀ ls u, run (step am chatId) t ls = some u → u.generated ≤ n := by
        intro ls u hu
        refine hn (l::ls) u ?_
        simpa [run,ht] using hu
      obtain ⟨ls,u,hr,hquiet⟩ := ih (t.load+2*(n-t.generated)) (by omega) hlater rfl
      exact ⟨l::ls,u,by simpa [run,ht] using hr,hquiet⟩

/-- The exchange of replies terminates: at most two deliveries for each frame in flight
at the start and two for each message generated, then silence. -/
theorem replies_terminate {n : Nat} {s t : Exchange I C S M} {ls : List Delivery} (h0 : s.generated = 0)
    (h : run (step am chatId) s ls = some t) (hn : t.generated ≤ n) :
    ls.length ≤ 2*n+2*s.frames ∧
    ((∀ l, step am chatId t l = none) ↔ ∀ side, t.inFlight side = []) ∧
    ((∀ ms u, run (step am chatId) t ms = some u → u.generated ≤ n) →
      ∃ ms u, run (step am chatId) s (ls++ms) = some u ∧ (ls++ms).length ≤ 2*n+2*s.frames ∧
        (∀ side, u.inFlight side = []) ∧ ∀ l, step am chatId u l = none) ∧
    ∀ ok (rows : Tables I C) (repo : ChatRepository C S) msgs reply,
      (repo.receiveSyncMessage am chatId ok none rows).1 = .ok (msgs,reply) → reply ≠ some none := by
  have hbound : ∀ {ms u}, run (step am chatId) s ms = some u → u.generated ≤ n → ms.length ≤ 2*n+2*s.frames := by
    intro ms u hu hle
    have hload := run_load am chatId hu
    have hframes := load_le_frames s
    omega
  refine ⟨hbound h hn,stuck_iff am chatId,fun hall => ?_,?_⟩
  · obtain ⟨ms,u,hu,hquiet⟩ := exists_quiet am chatId hall
    have hrun : run (step am chatId) s (ls++ms) = some u := by
      rw [run_append,h]
      exact hu
    exact ⟨ms,u,hrun,hbound hrun (hall ms u hu),hquiet,(stuck_iff am chatId).mpr hquiet⟩
  · rintro ok rows repo msgs _ hr rfl
    rcases receiveSyncMessage_reply am chatId ok none rows repo with ⟨e,he⟩ | ⟨msgs',last,hok,-⟩
    · rw [he] at hr
      cases hr
    · rw [hok] at hr
      cases hg : (last.generateSyncMessage am).2 <;> simp [replyTo,hg] at hr

/-- The left side has one change more and has announced it. -/
def oneChangeAhead : Exchange Unit Nat Line.SyncState Line.SyncMessage where
  tables _ := Tables.empty
  repo
    | .left => ⟨{0,1},⟨none,some {0,1}⟩,{1},.channel false⟩
    | .right => ⟨{0},⟨none,none⟩,{0},.channel false⟩
  inFlight
    | .left => []
    | .right => [some ⟨{0,1},∅⟩]
  generated := 0

theorem replies_terminate_one_change : ∃ t,
    run (step Line.automerge ()) oneChangeAhead
      [⟨.right,0,true⟩,⟨.left,0,true⟩,⟨.right,0,true⟩,⟨.left,0,true⟩,⟨.right,0,true⟩] = some t ∧
    t.generated ≤ 3 ∧ 5 ≤ 2*3+2*oneChangeAhead.frames ∧ ∀ l, step Line.automerge () t l = none := by
  obtain ⟨t,ht,hgen,hquiet⟩ : ∃ t, run (step Line.automerge ()) oneChangeAhead
      [⟨.right,0,true⟩,⟨.left,0,true⟩,⟨.right,0,true⟩,⟨.left,0,true⟩,⟨.right,0,true⟩] = some t ∧
      t.generated ≤ 3 ∧ ∀ side, t.inFlight side = [] :=
    ⟨_,rfl,by decide,fun side => by cases side <;> rfl⟩
  obtain ⟨hlen,hstuck,-,-⟩ := replies_terminate Line.automerge () rfl ht hgen
  exact ⟨t,ht,hgen,hlen,hstuck.mpr hquiet⟩

end Exchange
end GossipCore.Persistence
