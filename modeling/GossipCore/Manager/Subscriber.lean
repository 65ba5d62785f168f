import GossipCore.Manager.FailedCalls
import Mathlib.Data.Fintype.Powerset

/-! A chat actor with a subscriber, and what the outside has been told of the messages:
those returned by send_message and those passed to process_messages. -/
namespace GossipCore.Manager
open Base Persistence SyncActor

structure SubscribedActor (I C S M : Type) where
  actor : SyncActor I C S M
  /-- The messages in the document when the subscriber was installed. -/
  start : List ChatMessage
  returned : List ChatMessage
  reported : List ChatMessage

namespace SubscribedActor
variable {I C S M : Type} [DecidableEq I] [DecidableEq C] (cd : ChatDocs C S M) (chatId : I) (peerId : String)

def subscribed (actor : SyncActor I C S M) (m : SyncMemory C S) : SubscribedActor I C S M :=
  ⟨actor,listing cd.toAutomerge m.doc.doc,[],[]⟩

/-- What the oneshot of a local send hands back. -/
def returns (t : Tables I C) (m : SyncMemory C S) : SyncLabel C M → List ChatMessage
  | .localSend msg commit ok =>
    match (m.doc.addMessage cd.toAutomerge chatId commit ok msg t).1 with
    | .ok (msg,_) => [msg]
    | .error _ => []
  | _ => []

/-- What handle_incomming_message passes to process_messages. -/
def reports (t : Tables I C) (m : SyncMemory C S) : SyncLabel C M → List ChatMessage
  | .incoming (.sync x) ok _ _ =>
    match (m.doc.receiveSyncMessage cd.toAutomerge chatId ok (some x) t).1 with
    | .ok (messages,_) => messages
    | .error _ => []
  | _ => []

/-- The change that a local send commits appends its message to the peer's own list. -/
def commitsMessage (m : SyncMemory C S) : SyncLabel C M → Bool
  | .localSend msg (some c) _ => decide (cd.content c = cd.appendContent m.doc.doc peerId msg)
  | .crash => false
  | _ => true

/-- The handler has run and the actor is in its new state. -/
def record (s : SubscribedActor I C S M) (m : SyncMemory C S) (l : SyncLabel C M) (actor : SyncActor I C S M) :
    SubscribedActor I C S M where
  actor := actor
  start := s.start
  returned := s.returned++returns cd chatId s.actor.tables m l
  reported := s.reported++reports cd chatId s.actor.tables m l

/-- One handler of the actor. A crash would end it. -/
def step (s : SubscribedActor I C S M) (l : SyncLabel C M) : Option (SubscribedActor I C S M) :=
  match s.actor.memory with
  | some m =>
    if commitsMessage cd peerId m l then
      (s.actor.step cd.toAutomerge chatId l).map (s.record cd chatId m l)
    else none
  | none => none

/-- Appending one message changes nothing else in the lists. -/
def AppendsOne : Prop :=
  ∀ d c msg, cd.content c = cd.appendContent d peerId msg → cd.graph.deps c = cd.getHeads d →
    ∀ x ∈ listing cd.toAutomerge (insert c d), x ∈ listing cd.toAutomerge d ∨ x = msg

/-- Every entry that shows a message which was not there before lies on the path of a patch. -/
def PatchesNew : Prop :=
  ∀ before after, before ⊆ after → cd.graph.Closed before → cd.graph.Closed after →
    ∀ key list idx msg, cd.getRoot after key = some list → cd.hydrateMessage after list idx = some msg →
      msg ∉ listing cd.toAutomerge before →
      ∃ patch ∈ cd.makePatches before after, ∃ o o' rest, patch.path = (o,.map key)::(o',.seq idx)::rest

def Told (s : SubscribedActor I C S M) (msg : ChatMessage) : Prop :=
  msg ∈ s.start ∨ msg ∈ s.returned ∨ msg ∈ s.reported

/-- The condition on the step: the INSERT of a local send works, and a frame that shows
new messages is merged, written and readable, or is undone by a reload. -/
def TellsAll (s : SubscribedActor I C S M) : SyncLabel C M → Prop
  | .localSend _ (some _) ok => ok = true
  | .incoming (.sync x) ok oks _ => ∀ m, s.actor.memory = some m →
    let applied := m.doc.applySyncMessage cd.toAutomerge x
    (∀ msg ∈ listing cd.toAutomerge applied.1.doc, msg ∈ listing cd.toAutomerge m.doc.doc) ∨
    (applied.2 = true ∧ ok = true ∧ Readable cd.toAutomerge m.doc.doc applied.1.doc) ∨
    ((applied.2 = false ∨ ok = false) ∧ m.resetDocState = false ∧ false ∉ oks)
  | _ => True

/-- The invariant: what is in memory and what a reload would bring back has been told. -/
structure AllTold (s : SubscribedActor I C S M) : Prop where
  tracked : Tracked cd.toAutomerge chatId s.actor
  stored : ∀ msg ∈ listing cd.toAutomerge (s.actor.tables.stored chatId), s.Told msg
  memory : ∀ m, s.actor.memory = some m → ∀ msg ∈ listing cd.toAutomerge m.doc.doc, s.Told msg

omit [DecidableEq I] in
private theorem Told.record {s : SubscribedActor I C S M} {msg : ChatMessage} (h : s.Told msg)
    (m : SyncMemory C S) (l : SyncLabel C M) (actor : SyncActor I C S M) :
    (s.record cd chatId m l actor).Told msg := by
  rcases h with h | h | h
  · exact Or.inl h
  · exact Or.inr (Or.inl (List.mem_append_left _ h))
  · exact Or.inr (Or.inr (List.mem_append_left _ h))

omit [DecidableEq I] in
/-- A merge that succeeds reports every message that it makes visible. -/
private theorem mem_reported (hpatch : PatchesNew cd) {before after : Doc C} (hsub : before ⊆ after)
    (hb : cd.graph.Closed before) (ha : cd.graph.Closed after) {messages : List ChatMessage}
    (he : extractNewMessagesFromPatches cd.toAutomerge after (cd.makePatches before after) = .ok messages)
    {msg : ChatMessage} (hmsg : msg ∈ listing cd.toAutomerge after) :
    msg ∈ listing cd.toAutomerge before ∨ msg ∈ messages := by
  by_cases hold : msg ∈ listing cd.toAutomerge before
  · exact Or.inl hold
  · obtain ⟨list,hlist,hm⟩ := List.mem_flatMap.mp hmsg
    obtain ⟨idx,-,hidx⟩ := List.mem_filterMap.mp hm
    obtain ⟨key,-,hkey,hroot⟩ := (Schema.mem_getAllPeerLists cd.toAutomerge).mp hlist
    obtain ⟨patch,hp,o,o',rest,hpath⟩ := hpatch before after hsub hb ha key list idx msg hroot hidx hold
    exact Or.inr (mem_extractNewMessages cd.toAutomerge he hp hpath hkey hroot hidx)

/-- What a rejected frame leaves in the rows and in memory has been told, under the
condition on the step. -/
private theorem rejected_told {s : SubscribedActor I C S M} (h : AllTold cd chatId s) {m : SyncMemory C S}
    (hm : s.actor.memory = some m) {x : M} {ok : Bool} {oks : List Bool} {i : C}
    (hc : TellsAll cd s (.incoming (.sync x) ok oks i)) {t : Tables I C} {doc : ChatRepository C S}
    (hj : Rejected cd.toAutomerge chatId s.actor m x ok t doc) {u : Bool} {actor : SyncActor I C S M}
    (hr : Recovered cd.toAutomerge chatId { s.actor with tables := t, unsaved := u } { m with doc := doc } oks i actor) :
    (∀ msg ∈ listing cd.toAutomerge (actor.tables.stored chatId), s.Told msg) ∧
      ∀ m', actor.memory = some m' → ∀ msg ∈ listing cd.toAutomerge m'.doc.doc, s.Told msg := by
  have hd := h.tracked.memory m hm
  have hgrow : m.doc.doc ⊆ (m.doc.applySyncMessage cd.toAutomerge x).1.doc := cd.receive_grows _ _ _
  -- the rows hold what they held, or the merged document with nothing new to show
  have hrows : ∀ msg ∈ listing cd.toAutomerge (t.stored chatId), s.Told msg := by
    cases hj with
    | refused ha => exact h.stored
    | unwritten ha hok => exact h.stored
    | unreadable ha t doc hp hw e he =>
      rcases hc m hm with hold | ⟨-,-,hread⟩ | ⟨hno,-,-⟩
      · intro msg hmsg
        rw [hp.stored] at hmsg
        exact h.memory m hm msg (hold msg hmsg)
      · exact absurd hread (not_readable_of_error cd.toAutomerge he)
      · rcases hw with rfl | hw
        · rcases hno with hno | hno
          · cases ha.symm.trans hno
          · cases hno
        · exact hw ▸ h.stored
  have hkept : (m.resetDocState = true ∨ false ∈ oks) →
      ∀ msg ∈ listing cd.toAutomerge doc.doc, s.Told msg := by
    intro hstuck msg hmsg
    rw [(hj.memory cd.toAutomerge chatId).1] at hmsg
    rcases hc m hm with hold | ⟨hyes,hok,hread⟩ | ⟨-,hflag,hoks⟩
    · exact h.memory m hm msg (hold msg hmsg)
    · exact absurd hread (hj.not_merged cd.toAutomerge chatId hyes hok)
    · rcases hstuck with hstuck | hstuck
      · cases hflag.symm.trans hstuck
      · exact absurd hstuck hoks
  cases hr with
  | gaveUp hf =>
    refine ⟨hrows,fun m' hm' => ?_⟩
    cases hm'
    exact hkept (Or.inl hf)
  | reloaded hf t' ht' hst hr hl =>
    refine ⟨fun msg hmsg => hrows msg (hst ▸ hmsg),fun m' hm' => ?_⟩
    cases hm'
    exact hrows
  | reloadFailed hf t' ht' hst hr e hl =>
    refine ⟨fun msg hmsg => hrows msg (hst ▸ hmsg),fun m' hm' => ?_⟩
    cases hm'
    exact hkept (Or.inr (ChatRepository.resetDocStateToPersisted_error cd.toAutomerge hl))

theorem step_allTold (hpatch : PatchesNew cd) (happend : AppendsOne cd peerId) {s s' : SubscribedActor I C S M}
    {l : SyncLabel C M} (h : AllTold cd chatId s) (hc : TellsAll cd s l)
    (hs : step cd chatId peerId s l = some s') : AllTold cd chatId s' := by
  unfold step at hs
  split at hs
  · rename_i m hm
    split at hs
    · rename_i hcommit
      obtain ⟨actor,hactor,rfl⟩ := Option.map_eq_some_iff.mp hs
      have hh := step_handled cd.toAutomerge chatId h.tracked hactor
      have ht := hh.tracked cd.toAutomerge chatId h.tracked
      have hd := h.tracked.memory m hm
      -- it is enough that the new rows and the new memory show nothing untold
      have hdone : (∀ msg ∈ listing cd.toAutomerge (actor.tables.stored chatId), s.Told msg) →
          (∀ m', actor.memory = some m' → ∀ msg ∈ listing cd.toAutomerge m'.doc.doc, s.Told msg) →
          AllTold cd chatId (s.record cd chatId m l actor) := fun hst hmem =>
        { tracked := ht
          stored := fun msg hmsg => (hst msg hmsg).record cd chatId m l actor
          memory := fun m' hm' msg hmsg => (hmem m' hm' msg hmsg).record cd chatId m l actor }
      cases hh with
      | crash => cases hcommit
      | opened oks i hn => cases hn.symm.trans hm
      | openFailed oks i hn => cases hn.symm.trans hm
      | ignored m' hm' l hl => exact hdone h.stored h.memory
      | sendFailed m' hm' msg c hdeps hres => cases hc
      | sent m' hm' msg c hdeps t doc hp hres =>
        cases hm.symm.trans hm'
        obtain ⟨reply,hres⟩ := hres
        have hcontent : cd.content c = cd.appendContent m.doc.doc peerId msg := by
          simpa [commitsMessage] using hcommit
        have hnew : ∀ actor, ∀ x ∈ listing cd.toAutomerge (m.doc.transact c).doc,
            (s.record cd chatId m (.localSend msg (some c) true) actor).Told x := by
          intro actor x hx
          rcases happend m.doc.doc c msg hcontent hdeps x hx with hold | rfl
          · exact (h.memory m hm x hold).record cd chatId m _ actor
          · refine Or.inr (Or.inl (List.mem_append_right _ ?_))
            simp only [returns,hres]
            exact List.mem_singleton_self x
        refine ⟨ht,fun x hx => hnew _ x (hp.stored ▸ hx),fun m' hm' x hx => hnew _ x ?_⟩
        cases hm'
        exact hp.doc ▸ hx
      | tick m' hm' =>
        refine hdone h.stored (fun m'' hm'' => ?_)
        cases hm''
        exact h.memory m' hm'
      | connected m' hm' =>
        refine hdone h.stored (fun m'' hm'' => ?_)
        cases hm''
        exact h.memory m' hm'
      | answered m' hm' ok oks i =>
        refine hdone h.stored (fun m'' hm'' => ?_)
        cases hm''
        exact h.memory m' hm'
      | merged m' hm' x ok oks i ha t doc hp messages he u hres =>
        cases hm.symm.trans hm'
        obtain ⟨reply,hres⟩ := hres
        have happ := repoSound_apply cd.toAutomerge chatId hd x
        have hnew : ∀ actor, ∀ msg ∈ listing cd.toAutomerge (m.doc.applySyncMessage cd.toAutomerge x).1.doc,
            (s.record cd chatId m (.incoming (.sync x) ok oks i) actor).Told msg := by
          intro actor msg hmsg
          rcases mem_reported cd hpatch (cd.receive_grows _ _ _) hd.closed happ.closed he hmsg with hold | hrep
          · exact (h.memory m hm msg hold).record cd chatId m _ actor
          · refine Or.inr (Or.inr (List.mem_append_right _ ?_))
            simp only [reports,hres]
            exact hrep
        refine ⟨ht,fun msg hmsg => hnew _ msg (hp.stored ▸ hmsg),fun m' hm' msg hmsg => hnew _ msg ?_⟩
        cases hm'
        exact hp.doc ▸ hmsg
      | rejected m' hm' x ok oks i t doc hj u actor e hres hr =>
        cases hm.symm.trans hm'
        obtain ⟨hst,hmem⟩ := rejected_told cd chatId h hm hc hj hr
        exact hdone hst hmem
    · cases hs
  · cases hs

/-- In a run whose steps meet the condition, the outside has been told of every message
that get_all_messages returns. -/
theorem subscriber_told_every_message (hpatch : PatchesNew cd) (happend : AppendsOne cd peerId)
    {t : Tables I C} (hn : t.chats chatId = none) (hl : t.selectLog chatId = [])
    {before : List (SyncLabel C M)} {oks : List Bool} {i : C} {actor : SyncActor I C S M}
    (h₀ : run (SyncActor.step cd.toAutomerge chatId) (initial t) (before++[.open oks i]) = some actor)
    {m₀ : SyncMemory C S} (hm₀ : actor.memory = some m₀)
    {labels : List (SyncLabel C M)} {s : SubscribedActor I C S M}
    (h : run (step cd chatId peerId) (subscribed cd actor m₀) labels = some s)
    (hc : StepsMeet (step cd chatId peerId) (TellsAll cd) (subscribed cd actor m₀) labels)
    {m : SyncMemory C S} (hm : s.actor.memory = some m) {msgs : List ChatMessage}
    (hmsgs : getAllMessages cd.toAutomerge m.doc.doc = .ok msgs) :
    ∀ msg ∈ msgs, msg ∈ s.start ∨ msg ∈ s.returned ∨ msg ∈ s.reported := by
  have hdoc : m₀.doc.doc = actor.tables.stored chatId := by
    rw [memory_of_opened cd.toAutomerge chatId hn hl h₀ hm₀]
    rfl
  have hstart : AllTold cd chatId (subscribed cd actor m₀) :=
    { tracked := run_tracked cd.toAutomerge chatId hn hl h₀
      stored := fun msg hmsg => by
        refine Or.inl (?_ : msg ∈ listing cd.toAutomerge m₀.doc.doc)
        rw [hdoc]
        exact hmsg
      memory := fun m' hm' msg hmsg => by
        cases hm₀.symm.trans hm'
        exact Or.inl hmsg }
  have hend := run_invariant_of_meets
    (fun _ _ _ ht hcond hs => step_allTold cd chatId peerId hpatch happend ht hcond hs) h hstart hc
  exact fun msg hmsg => hend.memory m hm msg (mem_listing_of_getMessages cd.toAutomerge hmsgs hmsg)

/-- The initial change, the first message of each peer and a second one of B. -/
def bothPeers : ChatDocs (Fin 4) Unit (Finset (Fin 4)) :=
  Finite.docs
    { deps := fun | 0 => ∅ | 3 => {2} | _ => {0}
      rank := fun c => c
      rank_lt := by decide }
    (fun
      | 0 => .chatInit
      | 1 => .message "msgs_A" none ⟨"m1","A",.text "hello",1,1⟩
      | 2 => .message "msgs_B" none ⟨"m2","B",.text "hi",2,2⟩
      | 3 => .message "msgs_B" (some 2) ⟨"m3","B",.text "bye",3,3⟩)

private theorem bothPeers_patches : PatchesNew bothPeers := by
  have hcheck : ∀ before after : Finset (Fin 4), before ⊆ after → bothPeers.graph.Closed before →
      bothPeers.graph.Closed after → ∀ list idx : Fin 4,
      ∀ key ∈ Finite.createdKey? (bothPeers.content list),
      bothPeers.getRoot after key = some list → ∀ msg ∈ bothPeers.hydrateMessage after list idx,
      msg ∉ listing bothPeers.toAutomerge before →
      ∃ patch ∈ bothPeers.makePatches before after, patch.path.map Prod.snd = [.map key,.seq idx] := by
    decide +kernel
  intro before after hsub hbefore hafter key list idx msg hroot hmsg hold
  have hkey : Finite.createdKey? (bothPeers.content list) = some key := by
    have hfound := List.find?_some hroot
    simp only [decide_eq_true_eq] at hfound
    exact hfound.2
  have hidx : idx < 4 := by
    by_contra hge
    have hlen : (bothPeers.entries after list).length ≤ 4 := List.length_filter_le _ _
    rw [bothPeers.hydrate_eq,List.getElem?_eq_none (by omega)] at hmsg
    cases hmsg
  obtain ⟨patch,hp,hpath⟩ := hcheck before after hsub hbefore hafter list ⟨idx,hidx⟩ key hkey hroot msg hmsg hold
  obtain ⟨⟨o,_⟩,rest,hfirst,rfl,hrest⟩ := List.map_eq_cons_iff.mp hpath
  obtain ⟨⟨o',_⟩,rest',hsecond,rfl,-⟩ := List.map_eq_cons_iff.mp hrest
  exact ⟨patch,hp,o,o',rest',by rw [hfirst,hsecond]⟩

private theorem bothPeers_appends : AppendsOne bothPeers "A" := by
  have hcheck : ∀ d c, ∀ msg ∈ bothPeers.message? c, bothPeers.content c = bothPeers.appendContent d "A" msg →
      ∀ x ∈ listing bothPeers.toAutomerge (insert c d), x ∈ listing bothPeers.toAutomerge d ∨ x = msg := by
    decide +kernel
  intro d c msg hc _
  have hmsg : bothPeers.message? c = some msg := by
    rw [ChatDocs.message?,hc]
    rfl
  exact hcheck d c msg hmsg hc

/-- A's chat after ChatRepository::new has created it. -/
def bare : SyncActor Unit (Fin 4) Unit (Finset (Fin 4)) :=
  ⟨(Tables.empty.insertOrIgnoreChat () {0}).1,
    some ⟨ChatRepository.new bothPeers.toAutomerge {0} {0},false⟩,none,false⟩

def bareMemory : SyncMemory (Fin 4) Unit := ⟨ChatRepository.new bothPeers.toAutomerge {0} {0},false⟩

theorem run_bare : run (SyncActor.step bothPeers.toAutomerge ()) (initial Tables.empty)
    ([]++[.open [true,true] 0]) = some bare := by
  rfl

/-- B's message arrives, is merged and written. -/
theorem subscriber_told_of_frame : ∃ s m,
    run (step bothPeers () "A") (subscribed bothPeers bare bareMemory)
      [.incoming (.sync {0,2}) true [] 0,.syncTick true] = some s ∧
    s.actor.memory = some m ∧
    getAllMessages bothPeers.toAutomerge m.doc.doc = .ok [⟨"m2","B",.text "hi",2,2⟩] ∧
    ∀ msg ∈ ([⟨"m2","B",.text "hi",2,2⟩] : List ChatMessage),
      msg ∈ s.start ∨ msg ∈ s.returned ∨ msg ∈ s.reported := by
  have hrun : (run (step bothPeers () "A") (subscribed bothPeers bare bareMemory)
      [.incoming (.sync {0,2}) true [] 0,.syncTick true]).bind
        (fun s => s.actor.memory.map (fun m => m.doc.doc)) = some {0,2} := by
    decide +kernel
  obtain ⟨s,hs,hm⟩ := Option.bind_eq_some_iff.mp hrun
  obtain ⟨m,hm,hdoc⟩ := Option.map_eq_some_iff.mp hm
  have hall : getAllMessages bothPeers.toAutomerge m.doc.doc = .ok [⟨"m2","B",.text "hi",2,2⟩] := by
    rw [hdoc]
    decide +kernel
  have hread : Readable bothPeers.toAutomerge {0} {0,2} :=
    (extract_ok_iff bothPeers.toAutomerge).mp ⟨[⟨"m2","B",.text "hi",2,2⟩],by decide +kernel⟩
  have hmeets : StepsMeet (step bothPeers () "A") (TellsAll bothPeers) (subscribed bothPeers bare bareMemory)
      [.incoming (.sync {0,2}) true [] 0,.syncTick true] := by
    refine ⟨fun m hm => Or.inr (Or.inl ?_),fun _ _ => ⟨trivial,fun _ _ => trivial⟩⟩
    cases hm
    exact ⟨rfl,rfl,hread⟩
  exact ⟨s,m,hs,hm,hall,subscriber_told_every_message bothPeers () "A" bothPeers_patches bothPeers_appends
    rfl rfl run_bare rfl hs hmeets hm hall⟩

/-- The INSERT for B's message fails and so does the reload: the message stays in memory
and the subscriber never hears of it. -/
theorem unreported_message_is_listed : ∃ s m,
    run (step bothPeers () "A") (subscribed bothPeers bare bareMemory)
      [.incoming (.sync {0,2}) false [false] 0] = some s ∧
    s.actor.memory = some m ∧
    getAllMessages bothPeers.toAutomerge m.doc.doc = .ok [⟨"m2","B",.text "hi",2,2⟩] ∧
    s.start = [] ∧ s.returned = [] ∧ s.reported = [] := by
  have hrun : (run (step bothPeers () "A") (subscribed bothPeers bare bareMemory)
      [.incoming (.sync {0,2}) false [false] 0]).bind (fun s => s.actor.memory.map (fun m =>
        (m.doc.doc,s.start,s.returned,s.reported))) = some ({0,2},[],[],[]) := by
    decide +kernel
  obtain ⟨s,hs,hm⟩ := Option.bind_eq_some_iff.mp hrun
  obtain ⟨m,hm,he⟩ := Option.map_eq_some_iff.mp hm
  simp only [Prod.mk.injEq] at he
  obtain ⟨hdoc,hstart,hreturned,hreported⟩ := he
  refine ⟨s,m,hs,hm,?_,hstart,hreturned,hreported⟩
  rw [hdoc]
  decide +kernel

end SubscribedActor
end GossipCore.Manager
