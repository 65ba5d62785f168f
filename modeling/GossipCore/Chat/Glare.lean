import GossipCore.Chat.TwoPeers
import Mathlib.Data.List.Basic

/-! Glare resolution over whole delivery sequences. The handles of a collection
of connections reach both sides in any order, with no failure report between. -/
namespace GossipCore.Chat

def Side.other : Side → Side
  | .a => .b
  | .b => .a

variable {E U K : Type} [LinearOrder E] [DecidableEq U] [DecidableEq K]

/-- The connection dialed by one side that comes last in a delivery order. -/
def lastDialedBy (dialer : K → Side) (side : Side) (order : List K) : Option K :=
  (order.filter (fun k => dialer k = side)).getLast?

/-- The last dial of side a, and the last dial of side b where a has none. -/
def glareWinner (dialer : K → Side) (order : List K) : Option K :=
  (lastDialedBy dialer .a order).or (lastDialedBy dialer .b order)

/-- Deliver one side's handles in the given order; ids are those that the handles
carry, fresh those that a rotation would draw. -/
def deliverAll (dialer : K → Side) (side : Side) (ids fresh : K → U)
    (conn : ChatConnection E U K) (order : List K) : ChatConnection E U K :=
  order.foldl (fun c k => c.updateHandle ⟨ids k,originAt dialer side k,k⟩ (fresh k)) conn

omit [DecidableEq U] [DecidableEq K] in
private theorem lastDialedBy_append (dialer : K → Side) (side : Side) (order : List K) (k : K) :
    lastDialedBy dialer side (order++[k]) =
      if dialer k = side then some k else lastDialedBy dialer side order := by
  unfold lastDialedBy
  rw [List.filter_append]
  split <;> rename_i h <;> simp [h]

omit [DecidableEq U] [DecidableEq K] in
private theorem lastDialedBy_dialer {dialer : K → Side} {side : Side} {order : List K} {k : K}
    (h : lastDialedBy dialer side order = some k) : dialer k = side := by
  have hm := List.mem_of_getLast? h
  simpa using (List.mem_filter.mp hm).2

omit [DecidableEq U] [DecidableEq K] in
/-- A dial of side a always wins at once; a dial of side b wins unless a dial of
side a is already there. -/
private theorem glareWinner_append (dialer : K → Side) (order : List K) (k : K) :
    glareWinner dialer (order++[k]) =
      if dialer k = .a ∨ lastDialedBy dialer .a order = none then some k
      else glareWinner dialer order := by
  unfold glareWinner
  rw [lastDialedBy_append,lastDialedBy_append]
  cases hk : dialer k with
  | a => simp
  | b => cases hl : lastDialedBy dialer .a order <;> simp

/-- A connection as one of the two peers holds it, with the lower id at side a. -/
structure PlaysSide (ids : Side → E) (side : Side) (conn : ChatConnection E U K) : Prop where
  local_id : conn.localId = ids side
  remote_id : conn.remoteId = ids side.other

/-- What the deliveries so far have established on one side. -/
structure Resolved (ids : Side → E) (dialer : K → Side) (side : Side)
    (start : Finset K) (order : List K) (conn : ChatConnection E U K) : Prop where
  plays : PlaysSide ids side conn
  current : conn.current = glareWinner dialer order
  origin : ∀ h, conn.state = .connected h → h.origin = originAt dialer side h.connection
  accounted : conn.Accounted order.toFinset
  cancelled : ∀ k ∈ conn.cancelled, k ∈ start ∨ k ∈ order
  alive : (∀ k ∈ order, k ∉ start) → order.Nodup → ∀ k, conn.current = some k → k ∉ conn.cancelled

omit [DecidableEq U] [DecidableEq K] in
private theorem shouldSwitch_iff {ids : Side → E} (hids : ids .a < ids .b) {dialer : K → Side}
    {side : Side} {conn : ChatConnection E U K} (hp : PlaysSide ids side conn)
    (ho : ∀ h, conn.state = .connected h → h.origin = originAt dialer side h.connection)
    (k : K) (i : U) :
    conn.shouldSwitch ⟨i,originAt dialer side k,k⟩ = true ↔
      dialer k = .a ∨ ∀ j, conn.current = some j → dialer j ≠ .a := by
  unfold ChatConnection.shouldSwitch ChatConnection.current
  cases hs : conn.state with
  | disconnected => simp
  | reconnecting => simp
  | connected h =>
    have horigin := ho h hs
    have hl := hp.local_id
    have hr := hp.remote_id
    cases side <;> cases hk : dialer k <;> cases hj : dialer h.connection <;>
      simp [horigin,hl,hr,originAt,hk,hj,Side.other,hids,hids.not_gt]

omit [DecidableEq U] [DecidableEq K] in
/-- The winner so far is a dial of side a exactly when there is one. -/
private theorem winner_dialer (dialer : K → Side) (order : List K) :
    (∀ j, glareWinner dialer order = some j → dialer j ≠ .a) ↔
      lastDialedBy dialer .a order = none := by
  unfold glareWinner
  cases hl : lastDialedBy dialer .a order with
  | some j => simpa using lastDialedBy_dialer hl
  | none =>
    simp only [Option.none_or,iff_true]
    intro j hj
    simp [lastDialedBy_dialer hj]

omit [DecidableEq U] [DecidableEq K] in
private theorem glareWinner_mem {dialer : K → Side} {order : List K} {k : K}
    (h : glareWinner dialer order = some k) : k ∈ order := by
  unfold glareWinner at h
  rcases Option.or_eq_some_iff.mp h with h | ⟨_,h⟩
  · exact List.mem_of_mem_filter (List.mem_of_getLast? h)
  · exact List.mem_of_mem_filter (List.mem_of_getLast? h)

omit [DecidableEq U] [DecidableEq K] in
private theorem glareWinner_ne_none (dialer : K → Side) {order : List K} (h : order ≠ []) :
    glareWinner dialer order ≠ none := by
  rw [← List.dropLast_concat_getLast h,glareWinner_append]
  split
  · simp
  · rename_i hn
    intro he
    exact hn (Or.inr (Option.or_eq_none_iff.mp he).1)

/-- One more delivery. The switch and the refusal differ in which handle is
cancelled; both leave the winner of the longer order in use. -/
private theorem resolved_append {ids : Side → E} (hids : ids .a < ids .b) {dialer : K → Side}
    {side : Side} {start : Finset K} {order : List K} {conn : ChatConnection E U K}
    (h : Resolved ids dialer side start order conn) (k : K) (i j : U) :
    Resolved ids dialer side start (order++[k])
      (conn.updateHandle ⟨i,originAt dialer side k,k⟩ j) := by
  have hsw := shouldSwitch_iff hids h.plays h.origin k i
  have hacc := ChatConnection.updateHandle_accounted h.accounted ⟨i,originAt dialer side k,k⟩ j
  have hset : insert k order.toFinset = (order++[k]).toFinset := by
    ext x
    simp
  rw [h.current,winner_dialer] at hsw
  have hwin := glareWinner_append dialer order k
  have ho := ChatConnection.apply_outcome conn (.updateHandle ⟨i,originAt dialer side k,k⟩ j)
  change ChatConnection.Outcome _ _ (conn.updateHandle ⟨i,originAt dialer side k,k⟩ j) at ho
  generalize conn.updateHandle ⟨i,originAt dialer side k,k⟩ j = next at ho hacc
  rw [hset] at hacc
  cases ho with
  | unchanged he => exact absurd rfl (he _ _)
  | leave he => exact absurd rfl (he _ _)
  | switch _ _ hs =>
    rw [if_pos (hsw.mp hs)] at hwin
    refine ⟨⟨?_,?_⟩,hwin.symm,?_,hacc,?_,?_⟩
    · rw [← h.plays.local_id]; exact conn.shutdownCurrent_ids.1
    · rw [← h.plays.remote_id]; exact conn.shutdownCurrent_ids.2
    · rintro g ⟨⟩
      rfl
    · intro x hx
      rcases conn.mem_shutdownCurrent hx with hx | hx
      · exact (h.cancelled x hx).imp id (fun hm => by simp [hm])
      · exact Or.inr (by simp [glareWinner_mem (h.current.symm.trans hx)])
    · rintro hfresh hnd x ⟨⟩ hx
      have hnot : k ∉ order := fun hk => (List.nodup_append.mp hnd).2.2 k hk k (by simp) rfl
      rcases conn.mem_shutdownCurrent hx with hx | hx
      · rcases h.cancelled k hx with hx | hx
        · exact hfresh k (by simp) hx
        · exact hnot hx
      · exact hnot (glareWinner_mem (h.current.symm.trans hx))
  | rotate cur _ _ hc hs =>
    have hno : ¬ (dialer k = .a ∨ lastDialedBy dialer .a order = none) := by
      rw [← hsw,hs]
      simp
    rw [if_neg hno] at hwin
    have hcur : conn.current = some cur.connection := by simp [ChatConnection.current,hc]
    have hin : cur.connection ∈ order := glareWinner_mem (h.current.symm.trans hcur)
    refine ⟨⟨h.plays.local_id,h.plays.remote_id⟩,?_,?_,hacc,?_,?_⟩
    · rw [hwin,← h.current,hcur]
      rfl
    · rintro g ⟨⟩
      exact h.origin cur hc
    · intro x hx
      rcases Finset.mem_insert.mp hx with rfl | hx
      · exact Or.inr (by simp)
      · exact (h.cancelled x hx).imp id (fun hm => by simp [hm])
    · rintro hfresh hnd x ⟨⟩ hx
      obtain ⟨hnd,_,hne⟩ := List.nodup_append.mp hnd
      rcases Finset.mem_insert.mp hx with hx | hx
      · exact hne _ hin k (by simp) hx
      · exact h.alive (fun y hy => hfresh y (by simp [hy])) hnd _ hcur hx

private theorem resolved_deliverAll {ids : Side → E} (hids : ids .a < ids .b) (dialer : K → Side)
    {side : Side} {conn : ChatConnection E U K} (hp : PlaysSide ids side conn)
    (hc : conn.current = none) (uuid fresh : K → U) (order : List K) :
    Resolved ids dialer side conn.cancelled order (deliverAll dialer side uuid fresh conn order) := by
  induction order using List.reverseRecOn with
  | nil =>
    refine ⟨hp,hc,?_,by simp [ChatConnection.Accounted],fun k hk => Or.inl hk,?_⟩
    · intro h hs
      have hs : conn.state = .connected h := hs
      simp [ChatConnection.current,hs] at hc
    · intro _ _ k hk
      simp [deliverAll,hc] at hk
  | append_singleton order k ih =>
    unfold deliverAll
    rw [List.foldl_append]
    exact resolved_append hids ih k (uuid k) (fresh k)

/-- Whatever the two delivery orders, each side ends on the last connection that
the lower id dialed, or on the last one of the other side if there is none, and
has cancelled every other delivered handle. Equal orders for each dialer, however
they are interleaved, bring both sides to the same connection. -/
theorem glare_outcome_order_independent (ids : Side → E) (hids : ids .a < ids .b)
    (dialer : K → Side) (conn : Side → ChatConnection E U K) (uuid fresh : Side → K → U)
    (order : Side → List K) (hperm : (order .a).Perm (order .b)) (hnodup : (order .a).Nodup)
    (hplays : ∀ side, PlaysSide ids side (conn side)) (hstart : ∀ side, (conn side).current = none) :
    let final side := deliverAll dialer side (uuid side) (fresh side) (conn side) (order side)
    (∀ side, (final side).current =
      (lastDialedBy dialer .a (order side)).or (lastDialedBy dialer .b (order side))) ∧
    (∀ side, order side ≠ [] → ∃ h, (final side).state = .connected h) ∧
    (∀ side, ∀ k ∈ order side, (final side).current ≠ some k → k ∈ (final side).cancelled) ∧
    (∀ side k, (∀ j ∈ order side, j ∉ (conn side).cancelled) →
      (final side).current = some k → k ∉ (final side).cancelled) ∧
    ((∀ d, (order .a).filter (fun k => dialer k = d) = (order .b).filter (fun k => dialer k = d)) →
      (final .a).current = (final .b).current) := by
  intro final
  have hres (side : Side) : Resolved ids dialer side (conn side).cancelled (order side) (final side) :=
    resolved_deliverAll hids dialer (hplays side) (hstart side) (uuid side) (fresh side) (order side)
  have hnd (side : Side) : (order side).Nodup := by
    cases side with
    | a => exact hnodup
    | b => exact hperm.nodup_iff.mp hnodup
  refine ⟨fun side => (hres side).current,?_,?_,?_,?_⟩
  · intro side hne
    obtain ⟨k,hk⟩ := Option.ne_none_iff_exists'.mp (glareWinner_ne_none dialer hne)
    obtain ⟨h,hh,_⟩ := ChatConnection.current_eq_some.mp ((hres side).current.trans hk)
    exact ⟨h,hh⟩
  · intro side k hk hcur
    exact ((hres side).accounted k (List.mem_toFinset.mpr hk)).resolve_right hcur
  · intro side k hfresh hcur
    exact (hres side).alive hfresh (hnd side) k hcur
  · intro hsame
    rw [(hres .a).current,(hres .b).current]
    simp only [glareWinner,lastDialedBy,hsame]

/-- Four crossing dials, interleaved differently on the two sides. -/
theorem glare_outcome_four_dials :
    let dialer : Nat → Side := fun k => if k % 2 = 0 then .a else .b
    let final side := deliverAll dialer side id id
      (.new (if side = .a then 0 else 1) (if side = .a then 1 else 0) : ChatConnection Nat Nat Nat)
      (if side = .a then [1,2,3,4] else [2,4,1,3])
    (final .a).current = some 4 ∧ (final .b).current = some 4 ∧ 4 ∉ (final .a).cancelled := by
  intro dialer final
  have h := glare_outcome_order_independent (fun side => if side = .a then 0 else 1) (by decide) dialer
    (fun side => (.new (if side = .a then 0 else 1) (if side = .a then 1 else 0) : ChatConnection Nat Nat Nat))
    (fun _ => id) (fun _ => id) (fun side => if side = .a then [1,2,3,4] else [2,4,1,3])
    (by decide) (by decide) (fun side => by cases side <;> exact ⟨rfl,rfl⟩) (fun _ => rfl)
  have ha : (final .a).current = some 4 := (h.1 .a).trans (by decide)
  exact ⟨ha,(h.1 .b).trans (by decide),h.2.2.2.1 .a 4 (by simp [ChatConnection.new]) ha⟩

end GossipCore.Chat
