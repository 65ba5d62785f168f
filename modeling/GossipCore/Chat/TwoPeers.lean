import GossipCore.Base.Runs
import GossipCore.Chat.Connection
import Mathlib.Data.Finset.Option
import Mathlib.Data.Fintype.Defs

/-! Two peers with one chat connection each, and any number of transport
connections between them. Each connection has one handle at its dialer and one
at its acceptor; a handle reaches the connection of its own side at most once. -/
namespace GossipCore.Chat
open Base

inductive Side where
  | a
  | b
  deriving DecidableEq, Repr

instance : Fintype Side := ⟨{.a,.b},fun s => by cases s <;> simp⟩

/-- The origin of the handle that a connection has on one side. -/
def originAt {K : Type} (dialer : K → Side) (side : Side) (k : K) : ConnOrigin :=
  if dialer k = side then .dial else .accept

structure TwoPeers (E U K : Type) where
  conn : Side → ChatConnection E U K
  delivered : Side → Finset K
  /-- Connections that the transport itself has closed. -/
  lost : Finset K

inductive PeerMove (U K : Type) where
  | deliver (side : Side) (k : K) (id newId : U)
  | enterReconnecting (side : Side)
  | dialFailed (side : Side)
  | failureReport (side : Side) (expectedId : U)
  | close (side : Side)
  | lose (k : K)
  deriving DecidableEq, Repr

namespace TwoPeers
variable {E U K : Type} [LinearOrder E] [DecidableEq U] [DecidableEq K]

/-- A connection is closed as soon as either side has cancelled its handle. -/
def Closed (s : TwoPeers E U K) (k : K) : Prop :=
  k ∈ s.lost ∨ ∃ side, k ∈ (s.conn side).cancelled

/-- Each side starts unconnected, or around a first handle. -/
def initial (ids : Side → E) (dialer : K → Side) (first : Side → Option (K × U)) :
    TwoPeers E U K where
  conn side :=
    let remote := match side with | .a => ids .b | .b => ids .a
    match first side with
    | none => .new (ids side) remote
    | some (k,id) => .newConnected (ids side) remote ⟨id,originAt dialer side k,k⟩
  delivered side := ((first side).map Prod.fst).toFinset
  lost := ∅

def applyAt (s : TwoPeers E U K) (side : Side) (e : ConnEvent U K) : TwoPeers E U K :=
  { s with conn := Function.update s.conn side ((s.conn side).apply e) }

def step (dialer : K → Side) (s : TwoPeers E U K) : PeerMove U K → Option (TwoPeers E U K)
  | .deliver side k id newId =>
    if k ∈ s.delivered side then none
    else some { s.applyAt side (.updateHandle ⟨id,originAt dialer side k,k⟩ newId) with
      delivered := Function.update s.delivered side (insert k (s.delivered side)) }
  | .enterReconnecting side => some (s.applyAt side .enterReconnecting)
  | .dialFailed side => some (s.applyAt side .dialFailed)
  | .failureReport side expectedId => some (s.applyAt side (.failureReport expectedId))
  | .close side => some (s.applyAt side .close)
  | .lose k => some { s with lost := insert k s.lost }

/-- On both sides every delivered handle is cancelled or in use. -/
def Accounted (s : TwoPeers E U K) : Prop :=
  ∀ side, (s.conn side).Accounted (s.delivered side)

omit [LinearOrder E] [DecidableEq U] [DecidableEq K] in
theorem initial_accounted (ids : Side → E) (dialer : K → Side) (first : Side → Option (K × U)) :
    (initial ids dialer first).Accounted := by
  intro side k hk
  right
  cases hf : first side with
  | none => simp [initial,hf] at hk
  | some p =>
    obtain ⟨j,id⟩ := p
    have hj : k = j := by simpa [initial,hf] using hk
    simp [initial,hf,ChatConnection.current,ChatConnection.newConnected,hj]

private theorem applyAt_accounted {s : TwoPeers E U K} (h : s.Accounted) (side : Side)
    {e : ConnEvent U K} (he : ∀ g i, e ≠ .updateHandle g i) : (s.applyAt side e).Accounted := by
  intro other
  by_cases ho : other = side
  · subst ho
    simpa [applyAt] using ChatConnection.apply_accounted (h other) he
  · simpa [applyAt,Function.update_of_ne ho] using h other

theorem step_accounted {dialer : K → Side} {s t : TwoPeers E U K} {m : PeerMove U K}
    (h : s.Accounted) (hs : step dialer s m = some t) : t.Accounted := by
  cases m with
  | deliver side k id newId =>
    simp only [step] at hs
    split at hs
    · cases hs
    · cases hs
      intro other
      by_cases ho : other = side
      · subst ho
        simpa [applyAt,ChatConnection.apply] using ChatConnection.updateHandle_accounted (h other)
          ⟨id,originAt dialer other k,k⟩ newId
      · simpa [applyAt,Function.update_of_ne ho] using h other
  | enterReconnecting side => cases hs; exact applyAt_accounted h side (by simp)
  | dialFailed side => cases hs; exact applyAt_accounted h side (by simp)
  | failureReport side i => cases hs; exact applyAt_accounted h side (by simp)
  | close side => cases hs; exact applyAt_accounted h side (by simp)
  | lose k => cases hs; exact h

/-- Along every run, a connection that is open and delivered on both sides is the
one in use on both sides; so there is at most one, and the two peers are never
connected through two different such connections. -/
theorem open_delivered_is_current (ids : Side → E) (dialer : K → Side)
    (first : Side → Option (K × U)) (moves : List (PeerMove U K)) (s : TwoPeers E U K)
    (h : run (step dialer) (initial ids dialer first) moves = some s) :
    (∀ k, ¬ s.Closed k → (∀ side, k ∈ s.delivered side) →
      ∀ side, ∃ handle, (s.conn side).state = .connected handle ∧ handle.connection = k) ∧
    (∀ k l, ¬ s.Closed k → ¬ s.Closed l → (∀ side, k ∈ s.delivered side) →
      (∀ side, l ∈ s.delivered side) → k = l) ∧
    (∀ k l, (s.conn .a).current = some k → (s.conn .b).current = some l →
      ¬ s.Closed k → ¬ s.Closed l → (∀ side, k ∈ s.delivered side) →
      (∀ side, l ∈ s.delivered side) → k = l) := by
  have hacc : s.Accounted := run_invariant (fun _ _ _ hi hs => step_accounted hi hs) h
    (initial_accounted ids dialer first)
  have hcur (k : K) (hk : ¬ s.Closed k) (hd : ∀ side, k ∈ s.delivered side) (side : Side) :
      (s.conn side).current = some k :=
    (hacc side k (hd side)).resolve_left (fun hc => hk (Or.inr ⟨side,hc⟩))
  have huniq (k l : K) (hk : ¬ s.Closed k) (hl : ¬ s.Closed l) (hdk : ∀ side, k ∈ s.delivered side)
      (hdl : ∀ side, l ∈ s.delivered side) : k = l :=
    Option.some.inj ((hcur k hk hdk .a).symm.trans (hcur l hl hdl .a))
  refine ⟨?_,huniq,fun k l _ _ => huniq k l⟩
  intro k hk hd side
  exact ChatConnection.current_eq_some.mp (hcur k hk hd side)

/-- Connection 7 is dialed by a, connection 8 by b. -/
def crossingDialer (k : Nat) : Side := if k = 7 then .a else .b

/-- Each peer gets the handle of its own dial first and then that of the other's. -/
def crossingDials : List (PeerMove Nat Nat) := [.deliver .a 7 1 0,.deliver .b 8 2 0,.deliver .a 8 3 0,.deliver .b 7 4 0]

theorem open_delivered_is_current_crossing :
    let start : TwoPeers Nat Nat Nat := initial (fun side => if side = .a then 0 else 1) crossingDialer (fun _ => none)
    ∃ s, run (step crossingDialer) start crossingDials = some s ∧
      (∀ side, 7 ∈ s.delivered side ∧ 8 ∈ s.delivered side) ∧ ¬ s.Closed 7 ∧ s.Closed 8 ∧
      ∀ side, ∃ handle, (s.conn side).state = .connected handle ∧ handle.connection = 7 := by
  intro start
  obtain ⟨s,hs⟩ : ∃ s, run (step crossingDialer) start crossingDials = some s := ⟨_,rfl⟩
  have hd : ∀ side, 7 ∈ s.delivered side ∧ 8 ∈ s.delivered side := by
    cases hs
    intro side
    cases side <;> decide
  have ho : ¬ s.Closed 7 := by
    cases hs
    rintro (h | ⟨side,h⟩)
    · revert h; decide
    · revert h; cases side <;> decide
  have hc : s.Closed 8 := by
    cases hs
    exact Or.inr ⟨.b,by decide⟩
  exact ⟨s,hs,hd,ho,hc,(open_delivered_is_current _ _ _ _ s hs).1 7 ho (fun side => (hd side).1)⟩

end TwoPeers
end GossipCore.Chat
