import GossipCore.Manager.Handlers
import GossipCore.Persistence.PeerLists
import GossipCore.Persistence.SyncSession

/-! Two chat actors on one connection that stays up. A receiver that reloads forgets
changes which the sender has recorded as sent, and only the receiver resets its state. -/
namespace GossipCore.Manager
open Base Persistence SyncActor

/-- The actors and the frames on their way to each side, oldest first. -/
structure SyncPair (I C S M : Type) where
  actor : Side → SyncActor I C S M
  inFlight : Side → List (Option M)

inductive SyncPairLabel (C M : Type) where
  | handle (side : Side) (l : SyncLabel C M)
  | deliver (side : Side) (ok : Bool) (oks : List Bool) (i : C)

namespace SyncPair
variable {I C S M O : Type} [DecidableEq I] [DecidableEq C] {am : Automerge C S M O} (view : SessionView am)
  (chatId : I)

variable (am) in
/-- Whether a handler that has generated None hands over an empty frame. -/
def sendsEmpty (s : SyncActor I C S M) (l : SyncLabel C M) : Bool :=
  match s.memory, l with
  | some m, .localSend msg commit ok => (m.doc.addMessage am chatId commit ok msg s.tables).1.isOk
  | some _, .syncTick connected => connected
  | some _, .connStateChanged connected => connected
  | some m, .incoming (.sync x) ok oks i =>
    let out := m.doc.receiveSyncMessage am chatId ok (some x) s.tables
    match out.1, m.resetDocState, out.2.2.resetDocStateToPersisted am chatId oks i out.2.1 with
    | .ok _, _, _ => true
    | .error _, false, some (.ok _,_) => true
    | _, _, _ => false
  | _, _ => false

variable (am) in
/-- The frames that a handler gives to the connection. -/
def outgoing (s s' : SyncActor I C S M) (l : SyncLabel C M) : List (Option M) :=
  match s'.generated with
  | some x => [some x]
  | none => if sendsEmpty am chatId s l then [none] else []

variable (am) in
/-- A handler of one side, with what is still in flight to it. -/
def act (s : SyncPair I C S M) (side : Side) (rest : List (Option M)) (l : SyncLabel C M) :
    Option (SyncPair I C S M) :=
  ((s.actor side).step am chatId l).map (fun a => {
    actor := Function.update s.actor side a
    inFlight := Function.update (Function.update s.inFlight side rest) side.other
      (s.inFlight side.other++outgoing am chatId (s.actor side) a l) })

/-- The handlers besides the receiving one that run while the connection is up. -/
def isLocal : SyncLabel C M → Bool
  | .localSend _ _ _ => true
  | .syncTick _ => true
  | .connStateChanged _ => true
  | _ => false

def received : Option M → IncomingFrame M
  | some x => .sync x
  | none => .empty

variable (am) in
def step (s : SyncPair I C S M) : SyncPairLabel C M → Option (SyncPair I C S M)
  | .handle side l => if isLocal l then s.act am chatId side (s.inFlight side) l else none
  | .deliver side ok oks i =>
    match s.inFlight side with
    | frame::rest => s.act am chatId side rest (.incoming (received frame) ok oks i)
    | [] => none

/-- The change is in the sender's document, not in the other's, in no frame on its way
there, and the sender's sync state counts it as sent. -/
def Lost (s : SyncPair I C S M) (sender : Side) (c : C) : Prop :=
  ∃ m m', (s.actor sender).memory = some m ∧ (s.actor sender.other).memory = some m' ∧
    c ∈ m.doc.doc ∧ c ∉ m'.doc.doc ∧ (∀ x, some x ∈ s.inFlight sender.other → c ∉ am.carried x) ∧
    c ∈ view.sent m.doc.syncState

variable (am) in
/-- Whether the error branch would reload the document. -/
def reloads (t : Tables I C) (m : SyncMemory C S) (x : M) (oks : List Bool) (i : C) : Bool :=
  match m.resetDocState, (m.doc.applySyncMessage am x).1.resetDocStateToPersisted am chatId oks i t with
  | false, some (.ok _,_) => true
  | _, _ => false

variable (am) in
/-- What the receiver still has after the frame: all that is merged, unless it could not
be merged and written and a reload goes back to the rows. -/
def kept (t : Tables I C) (m : SyncMemory C S) (x : M) (ok : Bool) (oks : List Bool) (i : C) : Doc C :=
  if ((m.doc.applySyncMessage am x).2 && ok) || !reloads am chatId t m x oks i then
    (m.doc.applySyncMessage am x).1.doc
  else t.stored chatId

/-- The condition on the step: a change that the peer counts as sent, and that the
receiver has or gets with this frame, is kept or is in a further frame on its way. -/
def KeepsSent (s : SyncPair I C S M) : SyncPairLabel C M → Prop
  | .handle _ _ => True
  | .deliver side ok oks i => ∀ x rest m m', s.inFlight side = some x::rest →
    (s.actor side).memory = some m → (s.actor side.other).memory = some m' →
    ∀ c ∈ view.sent m'.doc.syncState, c ∈ m.doc.doc ∨ c ∈ am.carried x →
      c ∈ kept am chatId (s.actor side).tables m x ok oks i ∨ ∃ y, some y ∈ rest ∧ c ∈ am.carried y

/-- What a handler adds to the record of sent changes is what it generates. -/
private theorem sent_of_handled {s s' : SyncActor I C S M} {l : SyncLabel C M} (h : Handled am chatId s l s')
    {m' : SyncMemory C S} (hm' : s'.memory = some m') {c : C} (hc : c ∈ view.sent m'.doc.syncState) :
    (∃ m, s.memory = some m ∧ c ∈ view.sent m.doc.syncState) ∨
      ∃ x, s'.generated = some x ∧ c ∈ am.carried x := by
  have hgen : ∀ {repo : ChatRepository C S}, c ∈ view.sent (repo.generateSyncMessage am).1.syncState →
      c ∈ view.sent repo.syncState ∨ ∃ x, (repo.generateSyncMessage am).2 = some x ∧ c ∈ am.carried x :=
    fun h => (view.sent_generate _ _ _).mp h
  have hnew : ∀ {repo : ChatRepository C S}, repo.syncState = am.newState →
      c ∈ view.sent (repo.generateSyncMessage am).1.syncState →
      ∃ x, (repo.generateSyncMessage am).2 = some x ∧ c ∈ am.carried x := by
    intro repo hs h
    rcases hgen h with h | h
    · rw [hs,view.sent_new] at h
      cases h
    · exact h
  cases h with
  | crash => cases hm'
  | opened oks i hn t ht hrow hst =>
    cases hm'
    rw [show (ChatRepository.new am _ _).syncState = am.newState from rfl,view.sent_new] at hc
    cases hc
  | openFailed oks i hn t ht hst => cases hn.symm.trans hm'
  | ignored m hm l hl => exact Or.inl ⟨m',hm',hc⟩
  | sendFailed m hm msg c' hdeps hres =>
    cases hm'
    exact Or.inl ⟨m,hm,hc⟩
  | sent m hm msg c' hdeps t doc hp hres =>
    cases hm'
    rcases hgen hc with h | h
    · exact Or.inl ⟨m,hm,hp.syncState ▸ h⟩
    · exact Or.inr h
  | tick m hm =>
    cases hm'
    rcases hgen hc with h | h
    · exact Or.inl ⟨m,hm,h⟩
    · exact Or.inr h
  | connected m hm =>
    cases hm'
    exact Or.inr (hnew rfl hc)
  | answered m hm ok oks i =>
    cases hm'
    rcases hgen hc with h | h
    · exact Or.inl ⟨m,hm,h⟩
    · exact Or.inr h
  | merged m hm x ok oks i ha t doc hp messages he u hres =>
    cases hm'
    rcases hgen hc with h | h
    · rw [hp.syncState] at h
      exact Or.inl ⟨m,hm,view.sent_receive _ _ _ h⟩
    · exact Or.inr h
  | rejected m hm x ok oks i t doc hj u s' e hres hr =>
    have hold : c ∈ view.sent doc.syncState → c ∈ view.sent m.doc.syncState := by
      intro h
      rw [(hj.memory am chatId).2.1] at h
      exact view.sent_receive _ _ _ h
    cases hr with
    | gaveUp hf =>
      cases hm'
      exact Or.inl ⟨m,hm,hold hc⟩
    | reloaded hf t' ht' hst hr hl =>
      cases hm'
      exact Or.inr (hnew rfl hc)
    | reloadFailed hf t' ht' hst hr e' hl =>
      cases hm'
      exact Or.inl ⟨m,hm,hold hc⟩

private theorem outgoing_generated {s s' : SyncActor I C S M} {l : SyncLabel C M} {x : M}
    (h : s'.generated = some x) : some x ∈ outgoing am chatId s s' l := by
  rw [outgoing,h]
  exact List.mem_singleton_self _

/-- Only a reload takes changes out of memory. -/
private theorem doc_grows {s s' : SyncActor I C S M} {l : SyncLabel C M} (h : Handled am chatId s l s')
    (hl : ∀ x ok oks i, l ≠ .incoming (.sync x) ok oks i) {m m' : SyncMemory C S} (hm : s.memory = some m)
    (hm' : s'.memory = some m') : m.doc.doc ⊆ m'.doc.doc := by
  cases h with
  | crash => cases hm'
  | opened oks i hn => cases hn.symm.trans hm
  | openFailed oks i hn => cases hn.symm.trans hm
  | ignored m₀ hm₀ l hl' =>
    cases hm.symm.trans hm'
    exact Finset.Subset.refl _
  | sendFailed m₀ hm₀ msg c hdeps hres =>
    cases hm.symm.trans hm₀
    cases hm'
    exact Finset.subset_insert _ _
  | sent m₀ hm₀ msg c hdeps t doc hp hres =>
    cases hm.symm.trans hm₀
    cases hm'
    have hdoc : doc.doc = insert c m.doc.doc := hp.doc
    intro x hx
    exact hdoc ▸ Finset.mem_insert_of_mem hx
  | tick m₀ hm₀ =>
    cases hm.symm.trans hm₀
    cases hm'
    exact Finset.Subset.refl _
  | connected m₀ hm₀ =>
    cases hm.symm.trans hm₀
    cases hm'
    exact Finset.Subset.refl _
  | answered m₀ hm₀ ok oks i =>
    cases hm.symm.trans hm₀
    cases hm'
    exact Finset.Subset.refl _
  | merged m₀ hm₀ x ok oks i => exact absurd rfl (hl x ok oks i)
  | rejected m₀ hm₀ x ok oks i => exact absurd rfl (hl x ok oks i)

private theorem kept_subset_applied {s : SyncActor I C S M} (hs : Tracked am chatId s) {m : SyncMemory C S}
    (hm : s.memory = some m) (x : M) (ok : Bool) (oks : List Bool) (i : C) :
    kept am chatId s.tables m x ok oks i ⊆ (m.doc.applySyncMessage am x).1.doc := by
  unfold kept
  split
  · exact Finset.Subset.refl _
  · exact (repoSound_apply am chatId (hs.memory m hm) x).held

/-- The document after a frame has what is said to be kept. -/
private theorem kept_subset {s s' : SyncActor I C S M} (hs : Tracked am chatId s) {x : M} {ok : Bool}
    {oks : List Bool} {i : C} (h : Handled am chatId s (.incoming (.sync x) ok oks i) s') {m m' : SyncMemory C S}
    (hm : s.memory = some m) (hm' : s'.memory = some m') :
    kept am chatId s.tables m x ok oks i ⊆ m'.doc.doc := by
  have happ := kept_subset_applied chatId hs hm x ok oks i
  cases h with
  | ignored m₀ hm₀ l hl => cases hl
  | merged m₀ hm₀ _ _ _ _ ha t doc hp messages he u hres =>
    cases hm.symm.trans hm₀
    cases hm'
    have hdoc : doc.doc = (m.doc.applySyncMessage am x).1.doc := hp.doc
    exact happ.trans hdoc.symm.subset
  | rejected m₀ hm₀ _ _ _ _ t doc hj u _ e hres hr =>
    cases hm.symm.trans hm₀
    have hdoc := (hj.memory am chatId).1
    cases hr with
    | gaveUp hf =>
      cases hm'
      exact happ.trans hdoc.symm.subset
    | reloadFailed hf t' ht' hst hr e' hl =>
      cases hm'
      exact happ.trans hdoc.symm.subset
    | reloaded hf t' ht' hst hr hl =>
      cases hm'
      -- a reload shows the rows, which hold the merged document or are the old ones
      have hback : t = s.tables → doc = (m.doc.applySyncMessage am x).1 →
          ((m.doc.applySyncMessage am x).2 && ok) = false → kept am chatId s.tables m x ok oks i ⊆ t.stored chatId := by
        rintro rfl rfl hno
        have hre : reloads am chatId s.tables m x oks i = true := by
          simp only [reloads]
          rw [hl,hf]
        unfold kept
        rw [hno,hre]
        exact Finset.Subset.refl _
      cases hj with
      | refused ha => exact hback rfl rfl (by rw [ha]; rfl)
      | unwritten ha hok => exact hback rfl rfl (by rw [hok,Bool.and_false])
      | unreadable ha t doc hp hw e he => exact happ.trans hp.stored.symm.subset

/-- The invariant: what a side counts as sent is with the other side or on its way. -/
structure Delivered (s : SyncPair I C S M) : Prop where
  tracked : ∀ i, Tracked am chatId (s.actor i)
  sent : ∀ i m m', (s.actor i).memory = some m → (s.actor i.other).memory = some m' →
    ∀ c ∈ view.sent m.doc.syncState, c ∈ m'.doc.doc ∨ ∃ x, some x ∈ s.inFlight i.other ∧ c ∈ am.carried x

/-- A handler that keeps what the other side counts as sent. -/
private theorem act_delivered {s s' : SyncPair I C S M} (h : Delivered view chatId s) {side : Side}
    {rest : List (Option M)} {l : SyncLabel C M}
    (hkeep : ∀ a m' p, Handled am chatId (s.actor side) l a → a.memory = some m' →
      (s.actor side.other).memory = some p → ∀ c ∈ view.sent p.doc.syncState,
        c ∈ m'.doc.doc ∨ ∃ x, some x ∈ rest ∧ c ∈ am.carried x)
    (hs : s.act am chatId side rest l = some s') : Delivered view chatId s' := by
  obtain ⟨a,ha,rfl⟩ := Option.map_eq_some_iff.mp hs
  have hh := step_handled am chatId (h.tracked side) ha
  have hside : Function.update s.actor side a side = a := Function.update_self ..
  have hother : Function.update s.actor side a side.other = s.actor side.other :=
    Function.update_of_ne side.other_ne ..
  refine ⟨fun i => ?_,fun i m m' hm hm' c hc => ?_⟩
  · rcases side.eq_or_other i with rfl | rfl
    · simp only [hside]
      exact hh.tracked am chatId (h.tracked i)
    · simp only [hother]
      exact h.tracked _
  · rcases side.eq_or_other i with rfl | rfl
    · simp only [hside] at hm
      simp only [hother] at hm'
      simp only [Function.update_self,List.mem_append]
      rcases sent_of_handled view chatId hh hm hc with ⟨m₀,hm₀,hc₀⟩ | ⟨x,hx,hcx⟩
      · rcases h.sent i m₀ m' hm₀ hm' c hc₀ with hdoc | ⟨x,hx,hcx⟩
        · exact Or.inl hdoc
        · exact Or.inr ⟨x,Or.inl hx,hcx⟩
      · exact Or.inr ⟨x,Or.inr (outgoing_generated chatId hx),hcx⟩
    · simp only [hother] at hm
      rw [Side.other_other] at hm' ⊢
      simp only [hside] at hm'
      simp only [Function.update_of_ne side.other_ne.symm,Function.update_self]
      exact hkeep a m' m hh hm' hm c hc

private theorem memory_of_handled {s s' : SyncActor I C S M} {l : SyncLabel C M} (h : Handled am chatId s l s')
    (hl : ∀ oks i, l ≠ .open oks i) {m' : SyncMemory C S} (hm' : s'.memory = some m') :
    ∃ m, s.memory = some m := by
  cases h with
  | crash => cases hm'
  | opened oks i => exact absurd rfl (hl oks i)
  | openFailed oks i => exact absurd rfl (hl oks i)
  | _ m hm => exact ⟨m,hm⟩

theorem step_delivered {s s' : SyncPair I C S M} {l : SyncPairLabel C M} (h : Delivered view chatId s)
    (hc : KeepsSent view chatId s l) (hs : step am chatId s l = some s') : Delivered view chatId s' := by
  cases l with
  | handle side l =>
    simp only [step] at hs
    split at hs
    · rename_i hlocal
      refine act_delivered view chatId h (fun a m' p hh hm' hp c hcp => ?_) hs
      obtain ⟨m,hm⟩ := memory_of_handled chatId hh (fun _ _ he => by rw [he] at hlocal; cases hlocal) hm'
      have hgrow := doc_grows chatId hh (fun _ _ _ _ he => by rw [he] at hlocal; cases hlocal) hm hm'
      have hsent := h.sent side.other p m hp (by rw [Side.other_other]; exact hm) c hcp
      rw [Side.other_other] at hsent
      exact hsent.imp_left (fun hdoc => hgrow hdoc)
    · cases hs
  | deliver side ok oks i =>
    simp only [step] at hs
    split at hs
    · rename_i frame rest hq
      refine act_delivered view chatId h (fun a m' p hh hm' hp c hcp => ?_) hs
      obtain ⟨m,hm⟩ := memory_of_handled chatId hh (fun _ _ he => by cases he) hm'
      have hsent := h.sent side.other p m hp (by rw [Side.other_other]; exact hm) c hcp
      rw [Side.other_other,hq] at hsent
      cases frame with
      | none =>
        have hgrow := doc_grows chatId hh (fun _ _ _ _ he => by cases he) hm hm'
        rcases hsent with hdoc | ⟨x,hx,hcx⟩
        · exact Or.inl (hgrow hdoc)
        · rcases List.mem_cons.mp hx with hx | hx
          · cases hx
          · exact Or.inr ⟨x,hx,hcx⟩
      | some x =>
        have hkept := kept_subset chatId (h.tracked side) hh hm hm'
        have hcond := hc x rest m p hq hm hp c hcp
        rcases hsent with hdoc | ⟨y,hy,hcy⟩
        · exact (hcond (Or.inl hdoc)).imp_left (fun hk => hkept hk)
        · rcases List.mem_cons.mp hy with hy | hy
          · cases hy
            exact (hcond (Or.inr hcy)).imp_left (fun hk => hkept hk)
          · exact Or.inr ⟨y,hy,hcy⟩
    · cases hs

/-- In a run whose deliveries meet the condition no change is ever lost. -/
theorem recovery_loses_no_update {t : Side → Tables I C} (hn : ∀ i, (t i).chats chatId = none)
    (hl : ∀ i, (t i).selectLog chatId = []) {before : Side → List (SyncLabel C M)}
    {oks : Side → List Bool} {init : Side → C} {actor : Side → SyncActor I C S M}
    (h₀ : ∀ i, run (SyncActor.step am chatId) (initial (t i)) (before i++[.open (oks i) (init i)]) = some (actor i))
    {labels : List (SyncPairLabel C M)} {s : SyncPair I C S M}
    (h : run (step am chatId) ⟨actor,fun _ => []⟩ labels = some s)
    (hc : StepsMeet (step am chatId) (KeepsSent view chatId) ⟨actor,fun _ => []⟩ labels) :
    ∀ sender c, ¬ Lost view s sender c := by
  have hstart : Delivered view chatId (⟨actor,fun _ => []⟩ : SyncPair I C S M) :=
    { tracked := fun i => run_tracked am chatId (hn i) (hl i) (h₀ i)
      sent := fun i m m' hm hm' c hcs => by
        rw [memory_of_opened am chatId (hn i) (hl i) (h₀ i) hm] at hcs
        exact absurd (view.sent_new ▸ hcs : c ∈ (∅ : Finset C)) (Finset.notMem_empty c) }
  have hend := run_invariant_of_meets (fun _ _ _ => step_delivered view chatId) h hstart hc
  rintro sender c ⟨m,m',hm,hm',-,hdoc,hframes,hsent⟩
  rcases hend.sent sender m m' hm hm' c hsent with hin | ⟨x,hx,hcx⟩
  · exact hdoc hin
  · exact hframes x hx hcx

/-- What the peer counts as sent, and the receiver has or gets, is kept. -/
def keepsTest (s : SyncPair I C S M) : SyncPairLabel C M → Bool
  | .handle _ _ => true
  | .deliver side ok oks i =>
    match s.inFlight side, (s.actor side).memory, (s.actor side.other).memory with
    | some x::_, some m, some m' => decide (∀ c ∈ view.sent m'.doc.syncState, c ∈ m.doc.doc ∨ c ∈ am.carried x →
        c ∈ kept am chatId (s.actor side).tables m x ok oks i)
    | _, _, _ => true

theorem keepsSent_of_test (s : SyncPair I C S M) (l : SyncPairLabel C M) (h : keepsTest view chatId s l = true) :
    KeepsSent view chatId s l := by
  cases l with
  | handle side l => trivial
  | deliver side ok oks i =>
    intro x rest m m' hq hm hm' c hsent hc
    simp only [keepsTest,hq,hm,hm',decide_eq_true_eq] at h
    exact Or.inl (h c hsent hc)

/-- Either peer's chat after ChatRepository::new has created it. -/
def bothCreated : SyncPair Unit Nat Session.State Session.Message where
  actor _ := ⟨(Tables.empty.insertOrIgnoreChat () {0}).1,
    some ⟨ChatRepository.new Session.automerge {0} {0},false⟩,none,false⟩
  inFlight _ := []

theorem run_bothCreated (i : Side) : run (SyncActor.step Session.automerge ()) (initial Tables.empty)
    ([]++[.open [true,true] 0]) = some (bothCreated.actor i) := by
  rfl

/-- The left peer's message is written at the right peer, which cannot write its own. The
frame after it fails to be persisted, and the right peer reloads. -/
def reloadAfterSend : List (SyncPairLabel Nat Session.Message) :=
  [.handle .left (.connStateChanged true),.handle .right (.connStateChanged true),
    .handle .right (.connStateChanged true),.deliver .left true [] 0,
    .handle .left (.localSend ⟨"m1","A",.text "hello",1,1⟩ (some 1) true),.deliver .left true [] 0,
    .deliver .right true [] 0,.deliver .right true [] 0,.deliver .right true [] 0,
    .handle .right (.localSend ⟨"m2","B",.text "hi",1,1⟩ (some 2) false),.deliver .right false [true,true] 0]

theorem recovery_loses_no_update_reloaded :
    ∃ s, run (step Session.automerge ()) bothCreated reloadAfterSend = some s ∧
      (s.actor .right).memory.map (fun m => (m.resetDocState,m.doc.doc)) = some (true,{0,1}) ∧
      ∀ sender c, ¬ Lost Session.view s sender c := by
  have hrun : (run (step Session.automerge ()) bothCreated reloadAfterSend).map (fun s =>
      (s.actor .right).memory.map (fun m => (m.resetDocState,m.doc.doc))) = some (some (true,{0,1})) := by
    decide +kernel
  obtain ⟨s,hs,hreloaded⟩ := Option.map_eq_some_iff.mp hrun
  have hmeets : StepsMeet (step Session.automerge ()) (KeepsSent Session.view ()) bothCreated reloadAfterSend :=
    stepsMeet_of_pass (keepsSent_of_test Session.view ()) (by decide +kernel)
  exact ⟨s,hs,hreloaded,
    recovery_loses_no_update Session.view () (fun _ => rfl) (fun _ => rfl) run_bothCreated hs hmeets⟩

/-- Both announce themselves, and the left peer's message reaches the right peer, whose
INSERT for it fails. -/
def sendToPeer : List (SyncPairLabel Nat Session.Message) :=
  [.handle .left (.connStateChanged true),.handle .right (.connStateChanged true),.deliver .left true [] 0,
    .handle .left (.localSend ⟨"m1","A",.text "hello",1,1⟩ (some 1) true),.deliver .right true [] 0,
    .deliver .right true [] 0,.deliver .right false [true,true] 0]

/-- The INSERT fails, the right peer reloads without the message, and the left peer
counts it as sent and leaves it out of what it generates. -/
theorem reload_loses_update :
    ∃ s, run (step Session.automerge ()) bothCreated sendToPeer = some s ∧
      Lost Session.view s .left 1 ∧
      ∀ m, (s.actor .left).memory = some m → ∀ d x,
        (Session.automerge.generateSyncMessage m.doc.syncState d).2 = some x → 1 ∉ Session.automerge.carried x := by
  have hrun : (run (step Session.automerge ()) bothCreated sendToPeer).bind (fun s =>
      (s.actor .left).memory.bind (fun m => (s.actor .right).memory.map (fun m' =>
        (m.doc.doc,m.doc.syncState.sentHashes,m'.doc.doc,(s.inFlight .right).length)))) = some ({0,1},{1},{0},0) := by
    decide +kernel
  obtain ⟨s,hs,hm⟩ := Option.bind_eq_some_iff.mp hrun
  obtain ⟨m,hm,hm'⟩ := Option.bind_eq_some_iff.mp hm
  obtain ⟨m',hm',he⟩ := Option.map_eq_some_iff.mp hm'
  simp only [Prod.mk.injEq] at he
  obtain ⟨hdoc,hsent,hdoc',hframes⟩ := he
  have hempty : s.inFlight Side.left.other = [] := List.eq_nil_of_length_eq_zero hframes
  have hcounted : 1 ∈ m.doc.syncState.sentHashes := by
    rw [hsent]
    exact Finset.mem_singleton_self 1
  refine ⟨s,hs,⟨m,m',hm,hm',by rw [hdoc]; decide,by rw [hdoc']; decide,fun x hx => ?_,hcounted⟩,?_⟩
  · rw [hempty] at hx
    cases hx
  · intro m₀ hm₀ d x hx hcarried
    cases hm.symm.trans hm₀
    exact Session.generate_skips hx hcarried hcounted

end SyncPair
end GossipCore.Manager
