import GossipCore.Manager.FailedCalls
import GossipCore.Persistence.SyncSession

/-! The published sync status against what the peer has announced. The connection can
be lost or replaced at any time; the actor learns of it in a later handler. -/
namespace GossipCore.Manager
open Base Persistence SyncActor

structure SessionActor (I C S M : Type) where
  actor : SyncActor I C S M
  /-- The heads in the last sync message received on the current connection. -/
  heard : Option (Finset C)

inductive SessionLabel (C M : Type) where
  | handler (l : SyncLabel C M)
  | connectionChanged

namespace SessionActor
variable {I C S M O : Type} [DecidableEq I] [DecidableEq C] {am : Automerge C S M O} (view : SessionView am)
  (chatId : I)

def initial (t : Tables I C) : SessionActor I C S M := ⟨SyncActor.initial t,none⟩

def heardAfter (heard : Option (Finset C)) : SyncLabel C M → Option (Finset C)
  | .incoming (.sync x) _ _ _ => some (view.announced x)
  | .crash => none
  | _ => heard

def step (s : SessionActor I C S M) : SessionLabel C M → Option (SessionActor I C S M)
  | .handler l => (s.actor.step am chatId l).map (fun actor => ⟨actor,heardAfter view s.heard l⟩)
  | .connectionChanged => some { s with heard := none }

variable (am) in
/-- The last message received on the connection covers the document. -/
def Covers (heard : Option (Finset C)) (d : Doc C) : Prop :=
  ∃ h, heard = some h ∧ d ⊆ am.graph.ancestorsOf h

variable (am) in
/-- A published true is the truth. -/
def Truthful (s : SessionActor I C S M) : Prop :=
  ∀ m, s.actor.memory = some m → m.doc.syncStatus.value = true → Covers am s.heard m.doc.doc

/-- The sync state awaits no answer about the document, and heads in it that cover the
document are those of the last message on the connection. -/
def UpToDate (heard : Option (Finset C)) (st : S) (d : Doc C) : Prop :=
  view.waiting st d = false ∧
  ∀ h, view.theirHeads st = some h → d ⊆ am.graph.ancestorsOf h → heard = some h

/-- The condition on the step: what a generating handler finds in the sync state is up
to date, and while the status is true nothing else moves the document or the connection. -/
def KeepsStatus (s : SessionActor I C S M) (l : SessionLabel C M) : Prop :=
  ∀ m, s.actor.memory = some m →
    match l with
    | .connectionChanged => m.doc.syncStatus.value = false
    | .handler (.localSend _ (some c) true) => UpToDate view s.heard m.doc.syncState (insert c m.doc.doc)
    | .handler (.localSend _ (some _) false) => m.doc.syncStatus.value = false
    | .handler (.syncTick true) => UpToDate view s.heard m.doc.syncState m.doc.doc
    | .handler (.incoming .empty _ _ _) => UpToDate view s.heard m.doc.syncState m.doc.doc
    | .handler (.incoming (.sync x) ok oks _) => m.doc.syncStatus.value = true →
      let applied := m.doc.applySyncMessage am x
      (applied.2 = true ∧ ok = true ∧ Readable am m.doc.doc applied.1.doc) ∨
      (m.resetDocState = false ∧ false ∉ oks) ∨
      applied.1.doc ⊆ am.graph.ancestorsOf (view.announced x)
    | _ => True

omit [DecidableEq I] in
/-- A generate in an up-to-date state publishes the truth. -/
private theorem covers_of_generate {heard : Option (Finset C)} {r : ChatRepository C S}
    (hu : UpToDate view heard r.syncState r.doc)
    (h : (r.generateSyncMessage am).1.syncStatus.value = true) : Covers am heard r.doc := by
  have hnone : (am.generateSyncMessage r.syncState r.doc).2 = none := by
    simpa [ChatRepository.generateSyncMessage] using h
  rcases view.none_cases _ _ hnone with hwait | ⟨hs,hheads,hcover⟩
  · cases hu.1.symm.trans hwait
  · exact ⟨hs,hu.2 hs hheads hcover,hcover⟩

include view in
/-- A new sync state always has something to announce. -/
private theorem not_synced_of_newState {repo : ChatRepository C S} (hs : repo.syncState = am.newState) :
    (repo.generateSyncMessage am).1.syncStatus.value ≠ true := by
  intro h
  have hnone : (am.generateSyncMessage repo.syncState repo.doc).2 = none := by
    simpa [ChatRepository.generateSyncMessage] using h
  rw [hs] at hnone
  exact view.new_generates _ hnone

/-- A merged frame leaves a state that speaks for it. -/
private theorem upToDate_of_merge {repo : ChatRepository C S} {x : M}
    (ha : (repo.applySyncMessage am x).2 = true) (d : Doc C) :
    UpToDate view (some (view.announced x)) (repo.applySyncMessage am x).1.syncState d := by
  refine ⟨view.receive_answers _ _ _ ha d,fun h hheads _ => ?_⟩
  exact (view.receive_heads _ _ _ ha).symm.trans hheads

/-- A rejected frame that is not undone leaves the status as it was. -/
private theorem covers_of_rejected {s : SessionActor I C S M} {m : SyncMemory C S}
    (hm : s.actor.memory = some m) {x : M} {ok : Bool} {oks : List Bool} {i : C}
    (hc : KeepsStatus view s (.handler (.incoming (.sync x) ok oks i))) {t : Tables I C}
    {doc : ChatRepository C S} (hj : Rejected am chatId s.actor m x ok t doc)
    (hstuck : m.resetDocState = true ∨ false ∈ oks) (h : doc.syncStatus.value = true) :
    Covers am (some (view.announced x)) doc.doc := by
  obtain ⟨hdoc,-,hstatus⟩ := hj.memory am chatId
  rw [hstatus] at h
  rcases hc m hm h with ⟨hyes,hok,hread⟩ | ⟨hflag,hoks⟩ | hcover
  · exact absurd hread (hj.not_merged am chatId hyes hok)
  · rcases hstuck with hstuck | hstuck
    · cases hflag.symm.trans hstuck
    · exact absurd hstuck hoks
  · exact ⟨_,rfl,hdoc ▸ hcover⟩

variable (am) in
/-- The invariant: the status is the truth, and rows and memory agree. -/
structure Published (s : SessionActor I C S M) : Prop where
  tracked : Tracked am chatId s.actor
  truthful : Truthful am s

theorem step_published {s s' : SessionActor I C S M} {l : SessionLabel C M} (h : Published am chatId s)
    (hc : KeepsStatus view s l) (hs : step view chatId s l = some s') : Published am chatId s' := by
  cases l with
  | connectionChanged =>
    cases hs
    refine ⟨h.tracked,fun m hm hv => ?_⟩
    cases (hc m hm).symm.trans hv
  | handler l =>
    obtain ⟨actor,hactor,rfl⟩ := Option.map_eq_some_iff.mp hs
    have hh := step_handled am chatId h.tracked hactor
    refine ⟨hh.tracked am chatId h.tracked,?_⟩
    intro m' hm' hv
    cases hh with
    | crash => cases hm'
    | opened oks i hn t ht hrow hst =>
      cases hm'
      cases hv
    | openFailed oks i hn t ht hst => cases hn.symm.trans hm'
    | ignored m hm l hl =>
      have hheard : heardAfter view s.heard l = s.heard := by
        unfold Ignored at hl
        unfold heardAfter
        split at hl <;> trivial
      rw [hheard]
      exact h.truthful m' hm' hv
    | sendFailed m hm msg c hdeps hres =>
      cases hm'
      cases (hc m hm).symm.trans hv
    | sent m hm msg c hdeps t doc hp hres =>
      cases hm'
      have hu : UpToDate view s.heard m.doc.syncState (insert c m.doc.doc) := hc m hm
      refine covers_of_generate view (r := doc) ?_ hv
      rw [hp.syncState,hp.doc]
      exact hu
    | tick m hm =>
      cases hm'
      exact covers_of_generate view (r := m.doc) (hc m hm) hv
    | connected m hm =>
      cases hm'
      exact absurd hv (not_synced_of_newState view rfl)
    | answered m hm ok oks i =>
      cases hm'
      exact covers_of_generate view (r := m.doc) (hc m hm) hv
    | merged m hm x ok oks i ha t doc hp messages he u hres =>
      cases hm'
      refine covers_of_generate view (r := doc) ?_ hv
      rw [hp.syncState]
      exact upToDate_of_merge view ha _
    | rejected m hm x ok oks i t doc hj u actor e hres hr =>
      cases hr with
      | gaveUp hf =>
        cases hm'
        exact covers_of_rejected view chatId hm hc hj (Or.inl hf) hv
      | reloaded hf t' ht' hst hr hl =>
        cases hm'
        exact absurd hv (not_synced_of_newState view rfl)
      | reloadFailed hf t' ht' hst hr e' hl =>
        cases hm'
        have hno := ChatRepository.resetDocStateToPersisted_error am hl
        exact covers_of_rejected view chatId hm hc hj (Or.inr hno) hv

/-- In a run whose steps meet the condition, a published true means that the last sync
message on the current connection announced heads that cover the document. -/
theorem sync_status_truthful {t : Tables I C} (hn : t.chats chatId = none) (hl : t.selectLog chatId = [])
    {labels : List (SessionLabel C M)} {s : SessionActor I C S M}
    (h : run (step view chatId) (initial t) labels = some s)
    (hc : StepsMeet (step view chatId) (KeepsStatus view) (initial t) labels) {m : SyncMemory C S}
    (hm : s.actor.memory = some m) (hv : m.doc.syncStatus.value = true) :
    ∃ heads, s.heard = some heads ∧ m.doc.doc ⊆ am.graph.ancestorsOf heads := by
  have hstart : Published am chatId (initial t : SessionActor I C S M) :=
    ⟨initial_tracked am chatId hn hl,fun _ hm' => by cases hm'⟩
  have hend := run_invariant_of_meets (fun _ _ _ => step_published view chatId) h hstart hc
  exact hend.truthful m hm hv

/-- The chat is created, the connection comes up, and the peer announces the same history. -/
def announceSame : List (SessionLabel Nat Session.Message) :=
  [.handler (.open [true,true] 0),.handler (.connStateChanged true),
    .handler (.incoming (.sync ⟨{0},∅⟩) true [] 0)]

theorem sync_status_truthful_same : ∃ (s : SessionActor Unit Nat Session.State Session.Message)
    (m : SyncMemory Nat Session.State), run (step Session.view ()) (initial Tables.empty) announceSame = some s ∧
    s.actor.memory = some m ∧ m.doc.syncStatus.value = true ∧
    ∃ heads, s.heard = some heads ∧ m.doc.doc ⊆ Line.graph.ancestorsOf heads := by
  have hrun : (run (step Session.view ()) (initial Tables.empty : SessionActor Unit Nat Session.State Session.Message)
      announceSame).bind (fun s => s.actor.memory.map (fun m => m.doc.syncStatus.value)) = some true := by
    decide +kernel
  obtain ⟨s,hs,hm⟩ := Option.bind_eq_some_iff.mp hrun
  obtain ⟨m,hm,hv⟩ := Option.map_eq_some_iff.mp hm
  have hmeets : StepsMeet (step Session.view ()) (KeepsStatus Session.view)
      (initial Tables.empty : SessionActor Unit Nat Session.State Session.Message) announceSame := by
    refine ⟨fun m hm => (by cases hm),fun t ht => ⟨fun m _ => trivial,fun u hu => ⟨fun m hm hv => ?_,fun _ _ => trivial⟩⟩⟩
    cases ht
    cases hu
    cases hm
    exact Or.inr (Or.inl ⟨rfl,by simp⟩)
  exact ⟨s,m,hs,hm,hv,sync_status_truthful Session.view () rfl rfl hs hmeets hm hv⟩

/-- A message is sent, and the next tick takes the pending answer for agreement. -/
theorem tick_publishes_synced_too_early : ∃ (s : SessionActor Unit Nat Session.State Session.Message)
    (m : SyncMemory Nat Session.State), run (step Session.view ()) (initial Tables.empty)
      (announceSame++[.handler (.localSend ⟨"m1","A",.text "hello",1,1⟩ (some 1) true),.handler (.syncTick true)]) =
        some s ∧ s.actor.memory = some m ∧ m.doc.syncStatus.value = true ∧
    ¬ ∃ heads, s.heard = some heads ∧ m.doc.doc ⊆ Line.graph.ancestorsOf heads := by
  have hrun : (run (step Session.view ()) (initial Tables.empty : SessionActor Unit Nat Session.State Session.Message)
      (announceSame++[.handler (.localSend ⟨"m1","A",.text "hello",1,1⟩ (some 1) true),
        .handler (.syncTick true)])).bind (fun s => s.actor.memory.map (fun m =>
          (m.doc.syncStatus.value,s.heard,m.doc.doc))) = some (true,some {0},{0,1}) := by
    decide +kernel
  obtain ⟨s,hs,hm⟩ := Option.bind_eq_some_iff.mp hrun
  obtain ⟨m,hm,he⟩ := Option.map_eq_some_iff.mp hm
  simp only [Prod.mk.injEq] at he
  obtain ⟨hv,hheard,hdoc⟩ := he
  refine ⟨s,m,hs,hm,hv,?_⟩
  rintro ⟨heads,hh,hsub⟩
  cases hheard.symm.trans hh
  rw [hdoc] at hsub
  revert hsub
  decide

end SessionActor
end GossipCore.Manager
