import GossipCore.Base.Runs
import GossipCore.Persistence.Repository

/-! One task that owns a repository of a chat, one SQL statement per step. The
memory of the task is lost in a crash; the tables are shared and survive it. -/
namespace GossipCore.Persistence
open Base

/-- A call whose INSERT has not been run yet. -/
inductive PendingCall (C : Type) where
  | addMessage (msg : ChatMessage) (c : C)
  | receiveSyncMessage (before : Doc C)

inductive Activity (I C : Type) where
  | idle
  | opening (load : LoadState I C)
  | resetting (load : LoadState I C)
  | persisting (call : PendingCall C)

/-- The load that an activity is in the middle of. -/
def Activity.load? {I C : Type} : Activity I C → Option (LoadState I C)
  | .opening load => some load
  | .resetting load => some load
  | _ => none

structure Process (I C S : Type) where
  repo : Option (ChatRepository C S)
  activity : Activity I C

/-- A call that has returned to its caller in the last step. -/
inductive Returned (C : Type) where
  | opened
  | addedMessage (c : C)
  | receivedMessage
  | receivedEmpty
  | reset
  | error

def PendingCall.returned {C : Type} : PendingCall C → Returned C
  | .addMessage _ c => .addedMessage c
  | .receiveSyncMessage _ => .receivedMessage

/-- The result that the caller of a pending call sees. -/
def PendingCall.result {C α : Type} (call : PendingCall C) : Except LibError α → Returned C
  | .ok _ => call.returned
  | .error _ => .error

inductive ProcessLabel (C M : Type) where
  | open
  | addMessage (msg : ChatMessage) (commit : Option C)
  | receiveSyncMessage (inSyncMsg : Option M)
  | resetDocState
  | sql (ok : Bool) (initial : C)
  | crash

namespace Process
variable {I C S M O : Type} [DecidableEq I] [DecidableEq C] (am : Automerge C S M O) (chatId : I)

def new : Process I C S := ⟨none,.idle⟩

/-- What a load has come to: the process and the result of its call. -/
def resume (repo : Option (ChatRepository C S)) (pending : LoadState I C → Activity I C)
    (done : Doc C → Finset C → ChatRepository C S) (result : Returned C) :
    LoadState I C → Process I C S × Option (Returned C)
  | .returned doc heads => (⟨some (done doc heads),.idle⟩,some result)
  | .failed => (⟨repo,.idle⟩,some .error)
  | load => (⟨repo,pending load⟩,none)

/-- After a statement of ChatRepository::new. -/
def resumeOpen : LoadState I C → Process I C S × Option (Returned C) :=
  resume none .opening (ChatRepository.new am) .opened

/-- After a statement of reset_doc_state_to_persisted. -/
def resumeReset (repo : ChatRepository C S) : LoadState I C → Process I C S × Option (Returned C) :=
  resume (some repo) .resetting (repo.resetTo am) .reset

/-- The change that a transaction commits names the current heads. -/
def step (t : Tables I C) (p : Process I C S) :
    ProcessLabel C M → Option (Tables I C × Process I C S × Option (Returned C))
  | .open =>
    match p.repo, p.activity with
    | none, .idle => some (t,⟨none,.opening .selectSnapshot⟩,none)
    | _, _ => none
  | .addMessage msg commit =>
    match p.repo, p.activity, commit with
    | some repo, .idle, some c =>
      if am.graph.deps c = am.getHeads repo.doc then
        some (t,⟨some (repo.transact c),.persisting (.addMessage msg c)⟩,none)
      else none
    | some _, .idle, none => some (t,p,some .error)
    | _, _, _ => none
  | .receiveSyncMessage inSyncMsg =>
    match p.repo, p.activity, inSyncMsg with
    | some repo, .idle, some msg =>
      let applied := repo.applySyncMessage am msg
      if applied.2 then some (t,⟨some applied.1,.persisting (.receiveSyncMessage repo.doc)⟩,none)
      else some (t,⟨some applied.1,.idle⟩,some .error)
    | some repo, .idle, none => some (t,⟨some (repo.receiveEmpty am).2,.idle⟩,some .receivedEmpty)
    | _, _, _ => none
  | .resetDocState =>
    match p.repo, p.activity with
    | some repo, .idle => some (t,⟨some repo,.resetting .selectSnapshot⟩,none)
    | _, _ => none
  | .sql ok initial =>
    if am.graph.deps initial = ∅ then
      match p.activity, p.repo with
      | .opening load, none =>
        let next := loadStep am chatId ok initial t load
        some (next.1,resumeOpen am next.2)
      | .resetting load, some repo =>
        let next := loadStep am chatId ok initial t load
        some (next.1,resumeReset am repo next.2)
      | .persisting (.addMessage msg c), some repo =>
        let out := repo.persistAndGenerate am chatId ok msg t
        some (out.2.1,⟨some out.2.2,.idle⟩,some (PendingCall.result (.addMessage msg c) out.1))
      | .persisting (.receiveSyncMessage before), some repo =>
        let out := repo.persistAndExtract am chatId ok before t
        some (out.2.1,⟨some out.2.2,.idle⟩,some (PendingCall.result (.receiveSyncMessage before) out.1))
      | _, _ => none
    else none
  | .crash => some (t,new,none)

/-- The two steps of a send are the repository's add_message. -/
theorem addMessage_steps (t : Tables I C) (repo : ChatRepository C S) (msg : ChatMessage) (c initial : C)
    (ok : Bool) (hc : am.graph.deps c = am.getHeads repo.doc) (hi : am.graph.deps initial = ∅) :
    let out := repo.addMessage am chatId (some c) ok msg t
    step am chatId t ⟨some repo,.idle⟩ (.addMessage msg (some c)) =
        some (t,⟨some (repo.transact c),.persisting (.addMessage msg c)⟩,none) ∧
      step am chatId t ⟨some (repo.transact c),.persisting (.addMessage msg c)⟩ (.sql ok initial) =
        some (out.2.1,⟨some out.2.2,.idle⟩,some (PendingCall.result (.addMessage msg c) out.1)) := by
  simp only [step,if_pos hc,if_pos hi,ChatRepository.addMessage,and_self]

/-- What one step can do. Sync states are left free: no later statement about the
tables depends on them. -/
inductive Moved (t : Tables I C) (p : Process I C S) :
    ProcessLabel C M → Tables I C → Process I C S → Option (Returned C) → Prop where
  | crash : Moved t p .crash t new none
  | open (hr : p.repo = none) (ha : p.activity = .idle) :
      Moved t p .open t ⟨none,.opening .selectSnapshot⟩ none
  | beginReset (repo : ChatRepository C S) (hr : p.repo = some repo) (ha : p.activity = .idle) :
      Moved t p .resetDocState t ⟨some repo,.resetting .selectSnapshot⟩ none
  | unsaved (l : ProcessLabel C M) (repo repo' : ChatRepository C S) (hr : p.repo = some repo)
      (ha : p.activity = .idle) (hd : repo'.doc = repo.doc) (hh : repo'.lastSavedHeads = repo.lastSavedHeads)
      (r : Returned C) (hres : r = .error ∨ r = .receivedEmpty) : Moved t p l t ⟨some repo',.idle⟩ (some r)
  | transact (repo : ChatRepository C S) (hr : p.repo = some repo) (ha : p.activity = .idle)
      (msg : ChatMessage) (c : C) (hc : am.graph.deps c = am.getHeads repo.doc) :
      Moved t p (.addMessage msg (some c)) t ⟨some (repo.transact c),.persisting (.addMessage msg c)⟩ none
  | receive (repo : ChatRepository C S) (hr : p.repo = some repo) (ha : p.activity = .idle) (msg : M)
      (a : Activity I C) (r : Option (Returned C))
      (har : (a = .idle ∧ r = some .error ∧ (repo.applySyncMessage am msg).2 = false) ∨
        (a = .persisting (.receiveSyncMessage repo.doc) ∧ r = none)) :
      Moved t p (.receiveSyncMessage (some msg)) t ⟨some (repo.applySyncMessage am msg).1,a⟩ r
  | openStatement (load : LoadState I C) (hr : p.repo = none) (ha : p.activity = .opening load)
      (ok : Bool) (initial : C) (hi : am.graph.deps initial = ∅) :
      Moved t p (.sql ok initial) (loadStep am chatId ok initial t load).1
        (resumeOpen am (loadStep am chatId ok initial t load).2).1
        (resumeOpen am (loadStep am chatId ok initial t load).2).2
  | resetStatement (repo : ChatRepository C S) (load : LoadState I C) (hr : p.repo = some repo)
      (ha : p.activity = .resetting load) (ok : Bool) (initial : C) (hi : am.graph.deps initial = ∅) :
      Moved t p (.sql ok initial) (loadStep am chatId ok initial t load).1
        (resumeReset am repo (loadStep am chatId ok initial t load).2).1
        (resumeReset am repo (loadStep am chatId ok initial t load).2).2
  | persist (repo repo' : ChatRepository C S) (call : PendingCall C) (hr : p.repo = some repo)
      (ha : p.activity = .persisting call) (ok : Bool) (initial : C) (e : Except LibError Unit)
      (hp : (repo.persistChat am chatId ok t).1 = e)
      (hd : repo'.doc = (repo.persistChat am chatId ok t).2.2.doc)
      (hh : repo'.lastSavedHeads = (repo.persistChat am chatId ok t).2.2.lastSavedHeads)
      (r : Returned C) (hres : r = .error ∨ (e = .ok () ∧ r = call.returned)) :
      Moved t p (.sql ok initial) (repo.persistChat am chatId ok t).2.1 ⟨some repo',.idle⟩ (some r)

private theorem moved_persist_add {t : Tables I C} {p : Process I C S} {repo : ChatRepository C S}
    {msg : ChatMessage} {c : C} (hr : p.repo = some repo) (ha : p.activity = .persisting (.addMessage msg c))
    (ok : Bool) (initial : C) :
    Moved am chatId t p (.sql ok initial) (repo.persistAndGenerate am chatId ok msg t).2.1
      ⟨some (repo.persistAndGenerate am chatId ok msg t).2.2,.idle⟩
      (some (PendingCall.result (.addMessage msg c) (repo.persistAndGenerate am chatId ok msg t).1)) := by
  unfold ChatRepository.persistAndGenerate
  cases hp : (repo.persistChat am chatId ok t).1 with
  | error e =>
    simp only [hp]
    exact .persist repo _ _ hr ha ok initial _ hp rfl rfl _ (Or.inl rfl)
  | ok u =>
    simp only [hp]
    exact .persist repo ((repo.persistChat am chatId ok t).2.2.generateSyncMessage am).1 _ hr ha ok initial _ hp
      rfl rfl _ (Or.inr ⟨rfl,rfl⟩)

private theorem moved_persist_receive {t : Tables I C} {p : Process I C S} {repo : ChatRepository C S}
    {before : Doc C} (hr : p.repo = some repo)
    (ha : p.activity = .persisting (.receiveSyncMessage before)) (ok : Bool) (initial : C) :
    Moved am chatId t p (.sql ok initial) (repo.persistAndExtract am chatId ok before t).2.1
      ⟨some (repo.persistAndExtract am chatId ok before t).2.2,.idle⟩
      (some (PendingCall.result (.receiveSyncMessage before)
        (repo.persistAndExtract am chatId ok before t).1)) := by
  unfold ChatRepository.persistAndExtract
  cases hp : (repo.persistChat am chatId ok t).1 with
  | error e =>
    simp only [hp]
    exact .persist repo _ _ hr ha ok initial _ hp rfl rfl _ (Or.inl rfl)
  | ok u =>
    simp only [hp]
    cases extractNewMessagesFromPatches am (repo.persistChat am chatId ok t).2.2.doc
      (am.makePatches before (repo.persistChat am chatId ok t).2.2.doc) with
    | error e => exact .persist repo _ _ hr ha ok initial _ hp rfl rfl _ (Or.inl rfl)
    | ok messages =>
      exact .persist repo ((repo.persistChat am chatId ok t).2.2.generateSyncMessage am).1 _ hr ha ok initial _ hp
        rfl rfl _ (Or.inr ⟨rfl,rfl⟩)

/-- Every step is one of these moves. -/
theorem step_moved {t t' : Tables I C} {p p' : Process I C S} {l : ProcessLabel C M}
    {r : Option (Returned C)} (h : step am chatId t p l = some (t',p',r)) :
    Moved am chatId t p l t' p' r := by
  cases l with
  | crash => cases h; exact .crash
  | «open» =>
    simp only [step] at h
    split at h <;> cases h
    rename_i hr ha
    exact .open hr ha
  | resetDocState =>
    simp only [step] at h
    split at h <;> cases h
    rename_i repo hr ha
    exact .beginReset repo hr ha
  | addMessage msg commit =>
    simp only [step] at h
    split at h
    · rename_i repo c hr ha
      split at h <;> cases h
      rename_i hc
      exact .transact repo hr ha msg c hc
    · rename_i repo hr ha
      cases h
      obtain ⟨pr,pa⟩ := p
      cases hr
      cases ha
      exact .unsaved _ repo repo rfl rfl rfl rfl _ (Or.inl rfl)
    · cases h
  | receiveSyncMessage inSyncMsg =>
    simp only [step] at h
    split at h
    · rename_i repo msg hr ha
      split at h <;> cases h
      · exact .receive repo hr ha msg _ _ (Or.inr ⟨rfl,rfl⟩)
      · rename_i hno
        exact .receive repo hr ha msg _ _ (Or.inl ⟨rfl,rfl,by simpa using hno⟩)
    · rename_i repo hr ha
      cases h
      exact .unsaved _ repo (repo.receiveEmpty am).2 hr ha rfl rfl _ (Or.inr rfl)
    · cases h
  | sql ok initial =>
    simp only [step] at h
    split at h
    · rename_i hi
      split at h
      · rename_i load ha hr
        obtain ⟨rfl,he⟩ := Prod.mk.inj (Option.some.inj h)
        have hm : Moved am chatId t p _ _ _ _ := .openStatement load hr ha ok initial hi
        rwa [he] at hm
      · rename_i load repo ha hr
        obtain ⟨rfl,he⟩ := Prod.mk.inj (Option.some.inj h)
        have hm : Moved am chatId t p _ _ _ _ := .resetStatement repo load hr ha ok initial hi
        rwa [he] at hm
      · rename_i msg c repo ha hr
        cases h
        exact moved_persist_add am chatId hr ha ok initial
      · rename_i before repo ha hr
        cases h
        exact moved_persist_receive am chatId hr ha ok initial
      · cases h
    · cases h

end Process
end GossipCore.Persistence
