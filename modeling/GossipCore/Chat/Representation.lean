import GossipCore.Chat.Reconnect
import Mathlib.Data.Finset.Lattice.Basic

/-! The representation invariant of a connection. Beside the connection and its reconnect
tasks the state records what the outside has done: the handles delivered, the ids drawn,
and what senders and receivers have read under the lock. -/
namespace GossipCore.Chat
open Base

namespace Reconnects
variable {E U K : Type}

/-- The handle that the step passes to update_handle, with the id it would rotate to. -/
def delivery? (s : Reconnects E U K) : ReconnectLabel U K → Option (ChatConnectionHandle U K × U)
  | .updateHandle newHandle newId => some (newHandle,newId)
  | .finish i newId =>
    match s.task i with
    | .answered (some handle) => some (handle,newId)
    | _ => none
  | _ => none

variable [LinearOrder E] [DecidableEq U] [DecidableEq K]

/-- What a step does to the connection: a delivery, one of the other events, or nothing. -/
theorem step_conn {s t : Reconnects E U K} {l : ReconnectLabel U K} (hs : s.step l = some t) :
    (∃ handle newId, s.delivery? l = some (handle,newId) ∧ t.conn = s.conn.updateHandle handle newId) ∨
    (s.delivery? l = none ∧ (t.conn = s.conn ∨
      ∃ e : ConnEvent U K, (∀ g i, e ≠ .updateHandle g i) ∧ t.conn = s.conn.apply e)) := by
  cases l with
  | reconnect =>
    cases hs
    exact Or.inr ⟨rfl,Or.inl rfl⟩
  | enter i =>
    simp only [step] at hs
    split at hs <;> cases hs
    refine Or.inr ⟨rfl,Or.inr ⟨.enterReconnecting,by simp,?_⟩⟩
    unfold enter
    dsimp only
    split <;> rfl
  | request i sent =>
    simp only [step] at hs
    split at hs <;> cases hs
    exact Or.inr ⟨rfl,Or.inl rfl⟩
  | answer i handle =>
    simp only [step] at hs
    split at hs <;> cases hs
    exact Or.inr ⟨rfl,Or.inl rfl⟩
  | finish i newId =>
    simp only [step] at hs
    split at hs <;> cases hs
    rename_i handle hi
    cases handle with
    | some g => exact Or.inl ⟨g,newId,by simp [delivery?,hi],rfl⟩
    | none => exact Or.inr ⟨by simp [delivery?,hi],Or.inr ⟨.dialFailed,by simp,rfl⟩⟩
  | updateHandle g newId =>
    cases hs
    exact Or.inl ⟨g,newId,rfl,rfl⟩
  | failureReport expectedId =>
    cases hs
    exact Or.inr ⟨rfl,Or.inr ⟨.failureReport expectedId,by simp,rfl⟩⟩
  | close =>
    cases hs
    exact Or.inr ⟨rfl,Or.inr ⟨.close,by simp,rfl⟩⟩

end Reconnects

/-- A connection and its reconnect tasks, with the record of what happened to it. -/
structure Observed (E U K : Type) extends Reconnects E U K where
  delivered : Finset K
  drawn : Finset U
  reports : Finset (U × K)

/-- A step of the tasks or the actor, send_message or receive taking the handle under the
read lock, and the failure report that such a call spawns later. -/
inductive ObservedLabel (U K : Type) where
  | task (l : ReconnectLabel U K)
  | readHandle
  | report (id : U) (connection : K)
  deriving DecidableEq, Repr

namespace Observed
variable {E U K : Type}

def initial (localId remoteId : E) : Observed E U K :=
  ⟨.initial (.new localId remoteId),∅,∅,∅⟩

def initialConnected (localId remoteId : E) (handle : ChatConnectionHandle U K) : Observed E U K :=
  ⟨.initial (.newConnected localId remoteId handle),{handle.connection},{handle.id},∅⟩

/-- Both constructors; the reconnect that the first one starts is a step of its own. -/
inductive Initial : Observed E U K → Prop where
  | disconnected (localId remoteId : E) : Initial (initial localId remoteId)
  | connected (localId remoteId : E) (handle : ChatConnectionHandle U K) :
    Initial (initialConnected localId remoteId handle)

section Step
variable [LinearOrder E] [DecidableEq U] [DecidableEq K]

def proceed (s : Observed E U K) (next : Reconnects E U K) : Observed E U K := { s with toReconnects := next }

/-- The UUIDs that a delivery brings: the one of the handle, and a new one when the
handle is refused. -/
def draws (s : Observed E U K) (handle : ChatConnectionHandle U K) (newId : U) : Finset U :=
  if s.conn.shouldSwitch handle then {handle.id} else {handle.id,newId}

/-- A handle reaches update_handle once, and no UUID is drawn twice. -/
def FreshDelivery (s : Observed E U K) (handle : ChatConnectionHandle U K) (newId : U) : Prop :=
  handle.connection ∉ s.delivered ∧ ∀ id ∈ s.draws handle newId, id ∉ s.drawn

instance (s : Observed E U K) (handle : ChatConnectionHandle U K) (newId : U) :
    Decidable (s.FreshDelivery handle newId) := inferInstanceAs (Decidable (_ ∧ _))

def deliver (s : Observed E U K) (handle : ChatConnectionHandle U K) (newId : U) : Observed E U K :=
  { s with
    delivered := insert handle.connection s.delivered
    drawn := s.draws handle newId ∪ s.drawn }

def step (s : Observed E U K) : ObservedLabel U K → Option (Observed E U K)
  | .task (.failureReport _) => none
  | .task l =>
    match s.delivery? l with
    | some (handle,newId) =>
      if s.FreshDelivery handle newId then
        (s.toReconnects.step l).map (s.deliver handle newId).proceed
      else none
    | none => (s.toReconnects.step l).map s.proceed
  | .readHandle =>
    match s.conn.state with
    | .connected handle => some { s with reports := insert (handle.id,handle.connection) s.reports }
    | _ => some s
  | .report id connection =>
    if (id,connection) ∈ s.reports then (s.toReconnects.step (.failureReport id)).map s.proceed else none

/-- The id of the current handle was drawn; what a sender or receiver has read names the
connection that its id belongs to. -/
structure Represented (s : Observed E U K) : Prop where
  shown : s.conn.Published
  accounted : s.conn.Accounted s.delivered
  current_drawn : ∀ cur, s.conn.state = .connected cur → cur.id ∈ s.drawn
  reports_drawn : ∀ p ∈ s.reports, p.1 ∈ s.drawn
  reports_current : ∀ p ∈ s.reports, ∀ cur, s.conn.state = .connected cur → cur.id = p.1 → cur.connection = p.2

private theorem updateHandle_state (s : Observed E U K) (handle : ChatConnectionHandle U K) (newId : U) :
    ∃ cur, (s.conn.updateHandle handle newId).state = .connected cur ∧ cur.id ∈ s.draws handle newId ∧
      (s.conn.updateHandle handle newId).stateNotifier.version = s.conn.stateNotifier.version+1 := by
  have ho := ChatConnection.apply_outcome s.conn (.updateHandle handle newId)
  simp only [ChatConnection.apply] at ho
  generalize s.conn.updateHandle handle newId = next at ho
  cases ho with
  | unchanged hn => exact absurd rfl (hn handle newId)
  | leave hn => exact absurd rfl (hn handle newId)
  | switch _ _ hs => exact ⟨_,rfl,by simp [draws,hs],rfl⟩
  | rotate cur _ _ _ hs => exact ⟨_,rfl,by simp [draws,hs],rfl⟩

omit [LinearOrder E] [DecidableEq U] [DecidableEq K] in
/-- A write that leaves the current handle as it was, or leaves none. -/
private theorem Represented.proceed_of {s : Observed E U K} (h : s.Represented) {next : Reconnects E U K}
    (hshown : next.conn.Published) (haccounted : next.conn.Accounted s.delivered)
    (hstate : ∀ cur, next.conn.state = .connected cur → s.conn.state = .connected cur) :
    (s.proceed next).Represented where
  shown := hshown
  accounted := haccounted
  current_drawn cur hcur := h.current_drawn cur (hstate cur hcur)
  reports_drawn := h.reports_drawn
  reports_current p hp cur hcur := h.reports_current p hp cur (hstate cur hcur)

private theorem Represented.event {s : Observed E U K} (h : s.Represented) {next : Reconnects E U K}
    {e : ConnEvent U K} (he : ∀ g i, e ≠ .updateHandle g i) (hn : next.conn = s.conn.apply e) :
    (s.proceed next).Represented := by
  refine h.proceed_of (hn ▸ ChatConnection.apply_published h.shown e)
    (hn ▸ ChatConnection.apply_accounted h.accounted he) ?_
  rw [hn]
  have ho := ChatConnection.apply_outcome s.conn e
  generalize s.conn.apply e = next at ho
  cases ho with
  | unchanged => exact fun _ hcur => hcur
  | leave _ newState hn => exact fun cur hcur => absurd hcur (hn cur)
  | switch g i => exact absurd rfl (he g i)
  | rotate cur g i => exact absurd rfl (he g i)

/-- The id that a delivery publishes is none of those drawn before, so no report has it. -/
private theorem Represented.delivery {s : Observed E U K} (h : s.Represented) {next : Reconnects E U K}
    {handle : ChatConnectionHandle U K} {newId : U} (hf : s.FreshDelivery handle newId)
    (hn : next.conn = s.conn.updateHandle handle newId) : ((s.deliver handle newId).proceed next).Represented := by
  have hshown : next.conn.Published := hn ▸ ChatConnection.apply_published h.shown (.updateHandle handle newId)
  obtain ⟨cur,hcur,hdraws,-⟩ := s.updateHandle_state handle newId
  rw [← hn] at hcur
  have honly : ∀ cur', next.conn.state = .connected cur' → cur' = cur := by
    intro cur' hcur'
    cases hcur.symm.trans hcur'
    rfl
  constructor
  · exact hshown
  · have hacc := ChatConnection.updateHandle_accounted h.accounted handle newId
    rw [← hn] at hacc
    exact hacc
  · intro cur' hcur'
    rw [honly cur' hcur']
    exact Finset.mem_union_left _ hdraws
  · exact fun p hp => Finset.mem_union_right _ (h.reports_drawn p hp)
  · intro p hp cur' hcur' hid
    rw [honly cur' hcur'] at hid
    exact absurd (hid ▸ h.reports_drawn p hp) (hf.2 cur.id hdraws)

private theorem delivery_of_step {s t : Observed E U K} {l : ReconnectLabel U K}
    {handle : ChatConnectionHandle U K} {newId : U} (hd : s.delivery? l = some (handle,newId))
    (hs : s.step (.task l) = some t) :
    ∃ next : Reconnects E U K, s.FreshDelivery handle newId ∧ next.conn = s.conn.updateHandle handle newId ∧
      t = (s.deliver handle newId).proceed next := by
  cases l with
  | failureReport expectedId => cases hs
  | _ =>
    simp only [step,hd] at hs
    split at hs
    · rename_i hf
      obtain ⟨next,hnext,rfl⟩ := Option.map_eq_some_iff.mp hs
      rcases Reconnects.step_conn hnext with ⟨handle',newId',hd',hc⟩ | ⟨hnone,-⟩
      · cases hd.symm.trans hd'
        exact ⟨next,hf,hc,rfl⟩
      · cases hd.symm.trans hnone
    · cases hs

private theorem task_of_step {s t : Observed E U K} {l : ReconnectLabel U K} (hd : s.delivery? l = none)
    (hs : s.step (.task l) = some t) : ∃ next, s.toReconnects.step l = some next ∧ t = s.proceed next := by
  cases l with
  | failureReport expectedId => cases hs
  | _ =>
    simp only [step,hd] at hs
    obtain ⟨next,hnext,rfl⟩ := Option.map_eq_some_iff.mp hs
    exact ⟨next,hnext,rfl⟩

/-- What one label does. -/
private theorem step_cases {s t : Observed E U K} {l : ObservedLabel U K} (hs : s.step l = some t) :
    (∃ next handle newId, s.FreshDelivery handle newId ∧ next.conn = s.conn.updateHandle handle newId ∧
      t = (s.deliver handle newId).proceed next) ∨
    (∃ next, (next.conn = s.conn ∨ ∃ e : ConnEvent U K, (∀ g i, e ≠ .updateHandle g i) ∧
      next.conn = s.conn.apply e) ∧ t = s.proceed next) ∨
    t = s ∨
    ∃ cur, s.conn.state = .connected cur ∧ t = { s with reports := insert (cur.id,cur.connection) s.reports } := by
  cases l with
  | task l =>
    cases hd : s.delivery? l with
    | some pair =>
      obtain ⟨next,hf,hc,rfl⟩ := delivery_of_step hd hs
      exact Or.inl ⟨next,pair.1,pair.2,hf,hc,rfl⟩
    | none =>
      obtain ⟨next,hnext,rfl⟩ := task_of_step hd hs
      rcases Reconnects.step_conn hnext with ⟨handle,newId,hd',-⟩ | ⟨-,hc⟩
      · cases hd.symm.trans hd'
      · exact Or.inr (Or.inl ⟨next,hc,rfl⟩)
  | readHandle =>
    simp only [step] at hs
    split at hs
    · rename_i cur hcur
      cases hs
      exact Or.inr (Or.inr (Or.inr ⟨cur,hcur,rfl⟩))
    · cases hs
      exact Or.inr (Or.inr (Or.inl rfl))
  | report id connection =>
    simp only [step] at hs
    split at hs
    · cases hs
      exact Or.inr (Or.inl ⟨_,Or.inr ⟨.failureReport id,by simp,rfl⟩,rfl⟩)
    · cases hs

theorem step_represented {s t : Observed E U K} {l : ObservedLabel U K} (h : s.Represented)
    (hs : s.step l = some t) : t.Represented := by
  rcases step_cases hs with ⟨next,handle,newId,hf,hn,rfl⟩ | ⟨next,hn | ⟨e,he,hn⟩,rfl⟩ | rfl | ⟨cur,hcur,rfl⟩
  · exact h.delivery hf hn
  · exact h.proceed_of (hn ▸ h.shown) (hn ▸ h.accounted) (fun cur hcur => hn ▸ hcur)
  · exact h.event he hn
  · exact h
  · refine ⟨h.shown,h.accounted,h.current_drawn,?_,?_⟩
    · intro p hp
      rcases Finset.mem_insert.mp hp with rfl | hp
      · exact h.current_drawn cur hcur
      · exact h.reports_drawn p hp
    · intro p hp cur' hcur' hid
      rcases Finset.mem_insert.mp hp with rfl | hp
      · cases hcur.symm.trans hcur'
        rfl
      · exact h.reports_current p hp cur' hcur' hid

omit [LinearOrder E] [DecidableEq U] [DecidableEq K] in
theorem initial_represented {s : Observed E U K} (h : Initial s) : s.Represented := by
  cases h with
  | disconnected localId remoteId =>
    refine ⟨ChatConnection.new_published _ _,fun k hk => ?_,fun cur hcur => ?_,?_,?_⟩
    · cases hk
    · cases hcur
    · exact fun p hp => absurd hp (Finset.notMem_empty p)
    · exact fun p hp => absurd hp (Finset.notMem_empty p)
  | connected localId remoteId handle =>
    refine ⟨ChatConnection.newConnected_published _ _ _,fun k hk => ?_,fun cur hcur => ?_,?_,?_⟩
    · exact Or.inr (congrArg some (Finset.mem_singleton.mp hk).symm)
    · cases hcur
      exact Finset.mem_singleton_self _
    · exact fun p hp => absurd hp (Finset.notMem_empty p)
    · exact fun p hp => absurd hp (Finset.notMem_empty p)

omit [LinearOrder E] in
/-- A report about another connection than the current one finds another id. -/
private theorem report_ignored {s : Observed E U K} (h : s.Represented) {id : U} {connection : K}
    (hr : (id,connection) ∈ s.reports) (hc : s.conn.current ≠ some connection) :
    s.conn.setStateDisconnectedIfIdMatches id = s.conn := by
  unfold ChatConnection.setStateDisconnectedIfIdMatches
  cases hs : s.conn.state with
  | disconnected => rfl
  | reconnecting => rfl
  | connected cur =>
    have hne : cur.id ≠ id := by
      intro hid
      have hk := h.reports_current _ hr cur hs hid
      exact hc (ChatConnection.current_eq_some.mpr ⟨cur,hs,hk⟩)
    simp only [if_neg hne]

private theorem drawn_subset_of_step {s t : Observed E U K} {l : ObservedLabel U K} (hs : s.step l = some t) :
    s.drawn ⊆ t.drawn := by
  rcases step_cases hs with ⟨next,handle,newId,-,-,rfl⟩ | ⟨next,-,rfl⟩ | rfl | ⟨cur,-,rfl⟩
  · exact Finset.subset_union_right
  · exact Finset.Subset.refl _
  · exact Finset.Subset.refl _
  · exact Finset.Subset.refl _

/-- Every id on the channel, at any time of the run, was drawn. -/
private theorem drawn_of_published {start s : Observed E U K} {pre post : List (ObservedLabel U K)}
    (h0 : Initial start) (h : run step start (pre++post) = some s) {u : Observed E U K}
    (hu : run step start pre = some u) {id : U} (hid : u.conn.stateNotifier.value = .connected id) :
    id ∈ s.drawn := by
  have hinv : u.Represented := run_invariant (fun _ _ _ => step_represented) hu (initial_represented h0)
  rw [run_append,hu] at h
  have hkeeps : ∀ (x : Observed E U K) l y, u.drawn ⊆ x.drawn → x.step l = some y → u.drawn ⊆ y.drawn :=
    fun _ _ _ hx hs => hx.trans (drawn_subset_of_step hs)
  have hgrows : u.drawn ⊆ s.drawn := run_invariant hkeeps h (Finset.Subset.refl _)
  rw [hinv.shown] at hid
  cases hc : u.conn.state with
  | disconnected => simp [hc,ChatConnectionState.ofInternal] at hid
  | reconnecting => simp [hc,ChatConnectionState.ofInternal] at hid
  | connected cur =>
    rw [hc] at hid
    cases hid
    exact hgrows (hinv.current_drawn cur hc)

/-- In every state of a run the channel shows the internal state and each delivered handle
is current or cancelled; from there a delivery publishes an id that was never published
and a new version, and a report about a connection that is not current changes nothing. -/
theorem representation_invariant {start s : Observed E U K} {labels : List (ObservedLabel U K)}
    (h0 : Initial start) (h : run step start labels = some s) :
    s.conn.stateNotifier.value = .ofInternal s.conn.state ∧
    (∀ k ∈ s.delivered, s.conn.current ≠ some k → k ∈ s.conn.cancelled) ∧
    (∀ l handle newId t, s.delivery? l = some (handle,newId) → s.step (.task l) = some t →
      ∃ cur, t.conn.state = .connected cur ∧ s.conn.stateNotifier.version < t.conn.stateNotifier.version ∧
        ∀ pre post u, labels = pre++post → run step start pre = some u →
          u.conn.stateNotifier.value ≠ .connected cur.id) ∧
    ∀ id connection t, s.step (.report id connection) = some t → s.conn.current ≠ some connection →
      t.conn = s.conn := by
  have hinv : s.Represented := run_invariant (fun _ _ _ => step_represented) h (initial_represented h0)
  refine ⟨hinv.shown,?_,?_,?_⟩
  · intro k hk hne
    exact (hinv.accounted k hk).resolve_right hne
  · intro l handle newId t hd hs
    obtain ⟨next,hf,hn,rfl⟩ := delivery_of_step hd hs
    obtain ⟨cur,hcur,hdraws,hv⟩ := s.updateHandle_state handle newId
    rw [← hn] at hcur hv
    refine ⟨cur,hcur,hv ▸ Nat.lt_succ_self _,?_⟩
    rintro pre post u rfl hu hid
    exact hf.2 cur.id hdraws (drawn_of_published h0 h hu hid)
  · intro id connection t hs hne
    simp only [step] at hs
    split at hs
    · rename_i hr
      cases hs
      exact report_ignored hinv hr hne
    · cases hs

/-- A dialed connection is refreshed by a second dial while a sender holds the first
handle, and then an accepted connection is refused. -/
def staleReport : List (ObservedLabel Nat Nat) :=
  [.task .reconnect,.task (.enter 0),.task (.request 0 true),.task (.answer 0 (some ⟨1,.dial,10⟩)),
    .task (.finish 0 2),.readHandle,.task (.updateHandle ⟨3,.dial,11⟩ 4),.task (.updateHandle ⟨5,.accept,12⟩ 6)]

theorem representation_stale_report : ∃ s t : Observed Nat Nat Nat,
    run step (initial 0 1) staleReport = some s ∧ s.conn.state = .connected ⟨6,.dial,11⟩ ∧
    10 ∈ s.conn.cancelled ∧ 12 ∈ s.conn.cancelled ∧ s.step (.report 1 10) = some t ∧ t.conn = s.conn := by
  obtain ⟨s,t,hs,hstate,hd,ht⟩ : ∃ s t : Observed Nat Nat Nat, run step (initial 0 1) staleReport = some s ∧
      s.conn.state = .connected ⟨6,.dial,11⟩ ∧ s.delivered = {12,11,10} ∧ s.step (.report 1 10) = some t :=
    ⟨_,_,rfl,rfl,rfl,rfl⟩
  have hcurrent : s.conn.current = some 11 := ChatConnection.current_eq_some.mpr ⟨_,hstate,rfl⟩
  obtain ⟨-,hcancelled,-,hreport⟩ := representation_invariant (.disconnected 0 1) hs
  refine ⟨s,t,hs,hstate,hcancelled 10 (by simp [hd]) (by simp [hcurrent]),
    hcancelled 12 (by simp [hd]) (by simp [hcurrent]),ht,hreport 1 10 t ht (by simp [hcurrent])⟩

end Step
end Observed
end GossipCore.Chat
