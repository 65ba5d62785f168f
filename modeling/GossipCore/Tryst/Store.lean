import GossipCore.Base.UniqueTable
import GossipCore.Persistence.ChatIdentity

/-! The repository of trust relationships: one table, keyed by id, with a unique index on
the account of those rows that have one. Values are stored as text, blobs and a signed
integer and are checked when they are read. -/
namespace GossipCore.Tryst
open Base Persistence

structure EpochSecret where
  bytes : List UInt8
  length_eq : bytes.length = 32
  deriving DecidableEq

/-- The conversion of a blob to an array of 32 bytes. -/
def EpochSecret.ofBytes? (bytes : List UInt8) : Option EpochSecret :=
  if h : bytes.length = 32 then some ⟨bytes,h⟩ else none

structure StoredTryst (U E : Type) where
  id : U
  accountId : Option E
  currentSecret : EpochSecret
  previousSecret : Option EpochSecret
  lastUpdatedEpoch : UInt64
  isVerified : Bool
  deriving DecidableEq

/-- A row of the table. -/
structure RawTryst where
  id : String
  accountId : Option String
  currentSecret : List UInt8
  previousSecret : Option (List UInt8)
  lastUpdatedEpoch : Int64
  isVerified : Bool
  deriving DecidableEq

abbrev TrystTable := UniqueTable RawTryst.id RawTryst.accountId

section Rows
variable {U E : Type} (uuids : TextForm U) (ids : TextForm E)

/-- The values that save binds. The epoch is cast to a signed integer. -/
def StoredTryst.toRaw (tryst : StoredTryst U E) : RawTryst where
  id := uuids.display tryst.id
  accountId := tryst.accountId.map ids.display
  currentSecret := tryst.currentSecret.bytes
  previousSecret := tryst.previousSecret.map EpochSecret.bytes
  lastUpdatedEpoch := tryst.lastUpdatedEpoch.toInt64
  isVerified := tryst.isVerified

def orUnexpected {α : Type} (message : String) : Option α → Except LibError α
  | some a => .ok a
  | none => .error (.unexpected message)

def RawTryst.tryFrom (row : RawTryst) : Except LibError (StoredTryst U E) := do
  let id ← orUnexpected "Invalid UUID in DB" (uuids.fromStr row.id)
  let accountId ← match row.accountId with
    | some s => (orUnexpected "Invalid EndpointId in DB" (ids.fromStr s)).map some
    | none => .ok none
  let currentSecret ← orUnexpected "Invalid secret length" (EpochSecret.ofBytes? row.currentSecret)
  let previousSecret ← match row.previousSecret with
    | some bytes => (orUnexpected "Invalid previous secret length" (EpochSecret.ofBytes? bytes)).map some
    | none => .ok none
  .ok ⟨id,accountId,currentSecret,previousSecret,row.lastUpdatedEpoch.toUInt64,row.isVerified⟩

theorem EpochSecret.ofBytes?_bytes (secret : EpochSecret) : EpochSecret.ofBytes? secret.bytes = some secret := by
  rw [EpochSecret.ofBytes?,dif_pos secret.length_eq]

/-- A row that save wrote is read back as the value it was written from. -/
theorem tryFrom_toRaw (tryst : StoredTryst U E) : (tryst.toRaw uuids ids).tryFrom uuids ids = .ok tryst := by
  obtain ⟨id,accountId,currentSecret,previousSecret,lastUpdatedEpoch,isVerified⟩ := tryst
  cases accountId <;> cases previousSecret <;>
    simp [StoredTryst.toRaw,RawTryst.tryFrom,orUnexpected,uuids.fromStr_display,ids.fromStr_display,
      EpochSecret.ofBytes?_bytes,bind,Except.bind,Except.map]

end Rows

section Repository
variable {U E : Type} (uuids : TextForm U) (ids : TextForm E)

/-- The value after the check, and whether it was ratcheted. The public snapshot leaves
the logic out and never ratchets. -/
def ratchetIfNeeded (tryst : StoredTryst U E) : StoredTryst U E × Bool := (tryst,false)

/-- The statement can also fail for reasons outside the table; then ok is false. -/
def save (store : TrystTable) (tryst : StoredTryst U E) (ok : Bool) : TrystTable × Except LibError Unit :=
  if ok then
    match store.upsert (tryst.toRaw uuids ids) with
    | some store' => (store',.ok ())
    | none => (store,.error .sqlx)
  else (store,.error .sqlx)

def ratchetAndSaveTryst (store : TrystTable) (tryst : StoredTryst U E) (ok : Bool) :
    TrystTable × StoredTryst U E :=
  let (tryst',ratcheted) := ratchetIfNeeded tryst
  if ratcheted then ((save uuids ids store tryst' ok).1,tryst') else (store,tryst')

/-- A row that does not convert counts as missing. -/
def mapRaw (row : RawTryst) : Option (StoredTryst U E) := (row.tryFrom uuids ids).toOption

def ratchetFound (store : TrystTable) (ok : Bool) :
    Option (StoredTryst U E) → TrystTable × Option (StoredTryst U E)
  | some tryst =>
    let (store',tryst') := ratchetAndSaveTryst uuids ids store tryst ok
    (store',some tryst')
  | none => (store,none)

/-- What get returns when its query succeeds; ok is the outcome of a save it may make. -/
def get (store : TrystTable) (id : U) (ok : Bool) : TrystTable × Option (StoredTryst U E) :=
  ratchetFound uuids ids store ok ((store.selectByKey (uuids.display id)).bind (mapRaw uuids ids))

def getByAccountId (store : TrystTable) (accountId : E) (ok : Bool) :
    TrystTable × Option (StoredTryst U E) :=
  ratchetFound uuids ids store ok ((store.selectByColumn (ids.display accountId)).bind (mapRaw uuids ids))

/-- The loop of get_all over the rows that convert. -/
def ratchetAll (ok : Bool) : TrystTable → List (StoredTryst U E) → TrystTable × List (StoredTryst U E)
  | store, [] => (store,[])
  | store, tryst::trysts =>
    let (store',tryst') := ratchetAndSaveTryst uuids ids store tryst ok
    let rest := ratchetAll ok store' trysts
    (rest.1,tryst'::rest.2)

def getAll (store : TrystTable) (ok : Bool) : TrystTable × List (StoredTryst U E) :=
  ratchetAll uuids ids ok store (store.rows.filterMap (mapRaw uuids ids))

theorem ratchetFound_eq (store : TrystTable) (ok : Bool) (found : Option (StoredTryst U E)) :
    ratchetFound uuids ids store ok found = (store,found) := by
  cases found <;> rfl

theorem ratchetAll_eq (store : TrystTable) (ok : Bool) (trysts : List (StoredTryst U E)) :
    ratchetAll uuids ids ok store trysts = (store,trysts) := by
  induction trysts with
  | nil => rfl
  | cons tryst trysts ih => simp [ratchetAll,ratchetAndSaveTryst,ratchetIfNeeded,ih]

/-- A failed save has no effect. -/
theorem save_error {store : TrystTable} {tryst : StoredTryst U E} {ok : Bool} {e : LibError}
    (h : (save uuids ids store tryst ok).2 = .error e) : (save uuids ids store tryst ok).1 = store := by
  unfold save at h ⊢
  split
  · split
    · rename_i hok _ store' hs
      rw [if_pos hok,hs] at h
      cases h
    · rfl
  · rfl

end Repository

/-- The store, and the values saved so far with the latest first. -/
structure Saves (U E : Type) where
  store : TrystTable
  saved : List (StoredTryst U E)

namespace Saves
variable {U E : Type} (uuids : TextForm U) (ids : TextForm E)

def save (s : Saves U E) (call : StoredTryst U E × Bool) : Saves U E :=
  match Tryst.save uuids ids s.store call.1 call.2 with
  | (store,.ok _) => ⟨store,call.1::s.saved⟩
  | (store,.error _) => ⟨store,s.saved⟩

def saveAll (calls : List (StoredTryst U E × Bool)) : Saves U E := calls.foldl (save uuids ids) ⟨.empty,[]⟩

variable [DecidableEq U]

/-- The value of the last successful save for an id. -/
def last (s : Saves U E) (id : U) : Option (StoredTryst U E) := s.saved.find? (fun tryst => tryst.id = id)

/-- The table has one row for each id that was saved, with the last value. -/
def Holds (s : Saves U E) : Prop :=
  ∀ row, row ∈ s.store.rows ↔ ∃ tryst, s.last tryst.id = some tryst ∧ row = tryst.toRaw uuids ids

theorem last_cons (store : TrystTable) (tryst : StoredTryst U E) (saved : List (StoredTryst U E)) (id : U) :
    (Saves.mk store (tryst::saved)).last id =
      if tryst.id = id then some tryst else (Saves.mk store saved).last id := by
  simp [last,List.find?_cons]
  split <;> simp_all

omit [DecidableEq U] in
theorem toRaw_id_eq {a b : StoredTryst U E} :
    (a.toRaw uuids ids).id = (b.toRaw uuids ids).id ↔ a.id = b.id :=
  ⟨fun h => uuids.display_inj h,fun h => congrArg uuids.display h⟩

omit [DecidableEq U] in
theorem toRaw_accountId_eq {a b : StoredTryst U E} :
    (a.toRaw uuids ids).accountId = (b.toRaw uuids ids).accountId ↔ a.accountId = b.accountId := by
  refine ⟨fun h => ?_,fun h => congrArg (Option.map ids.display) h⟩
  exact Option.map_injective (fun _ _ he => ids.display_inj he) h

theorem save_holds {s : Saves U E} (h : s.Holds uuids ids) (call : StoredTryst U E × Bool) :
    (s.save uuids ids call).Holds uuids ids := by
  obtain ⟨tryst,ok⟩ := call
  unfold save Tryst.save
  dsimp only
  cases ok with
  | false => exact h
  | true =>
    rw [if_pos rfl]
    cases hu : s.store.upsert (tryst.toRaw uuids ids) with
    | none => exact h
    | some store' =>
      intro row
      rw [UniqueTable.mem_upsert hu,h]
      simp only [last_cons]
      constructor
      · rintro (rfl | ⟨⟨other,hother,rfl⟩,hne⟩)
        · exact ⟨tryst,if_pos rfl,rfl⟩
        · have hid : tryst.id ≠ other.id := fun he => hne ((toRaw_id_eq uuids ids).mpr he.symm)
          exact ⟨other,by rw [if_neg hid]; exact hother,rfl⟩
      · rintro ⟨other,hother,rfl⟩
        split at hother
        · cases hother
          exact Or.inl rfl
        · rename_i hid
          refine Or.inr ⟨⟨other,hother,rfl⟩,fun he => hid ((toRaw_id_eq uuids ids).mp he).symm⟩

theorem saveAll_holds (calls : List (StoredTryst U E × Bool)) : (saveAll uuids ids calls).Holds uuids ids := by
  have hstart : (Saves.mk .empty [] : Saves U E).Holds uuids ids := by
    intro row
    simp [last,UniqueTable.empty]
  unfold saveAll
  induction calls using List.reverseRecOn with
  | nil => exact hstart
  | append_singleton calls call ih =>
    rw [List.foldl_append]
    exact save_holds uuids ids ih call

omit [DecidableEq U] in
private theorem mapRaw_toRaw (tryst : StoredTryst U E) :
    mapRaw uuids ids (tryst.toRaw uuids ids) = some tryst := by
  rw [mapRaw,tryFrom_toRaw]
  rfl

private theorem id_of_last {s : Saves U E} {id : U} {tryst : StoredTryst U E} (h : s.last id = some tryst) :
    tryst.id = id := by
  have ht := List.find?_some h
  exact of_decide_eq_true ht

private theorem get_eq {s : Saves U E} (h : s.Holds uuids ids) (id : U) (ok : Bool) :
    get uuids ids s.store id ok = (s.store,s.last id) := by
  rw [get,ratchetFound_eq]
  refine congrArg (Prod.mk s.store) ?_
  cases hl : s.last id with
  | some tryst =>
    have hid := id_of_last hl
    have hrow : s.store.selectByKey (uuids.display id) = some (tryst.toRaw uuids ids) := by
      refine UniqueTable.selectByKey_eq_some.mpr ⟨(h _).mpr ⟨tryst,hid ▸ hl,rfl⟩,?_⟩
      exact congrArg uuids.display hid
    rw [hrow]
    exact mapRaw_toRaw uuids ids tryst
  | none =>
    cases hr : s.store.selectByKey (uuids.display id) with
    | none => rfl
    | some row =>
      obtain ⟨hmem,hid⟩ := UniqueTable.selectByKey_eq_some.mp hr
      obtain ⟨tryst,ht,rfl⟩ := (h row).mp hmem
      rw [uuids.display_inj hid,hl] at ht
      cases ht

private theorem getByAccountId_eq_some {s : Saves U E} (h : s.Holds uuids ids) {accountId : E} {ok : Bool}
    {tryst : StoredTryst U E} : (getByAccountId uuids ids s.store accountId ok).2 = some tryst ↔
      s.last tryst.id = some tryst ∧ tryst.accountId = some accountId := by
  rw [getByAccountId,ratchetFound_eq]
  constructor
  · intro hf
    obtain ⟨row,hr,hmap⟩ := Option.bind_eq_some_iff.mp hf
    obtain ⟨hmem,hacc⟩ := UniqueTable.selectByColumn_eq_some.mp hr
    obtain ⟨other,ho,rfl⟩ := (h row).mp hmem
    rw [mapRaw_toRaw] at hmap
    cases hmap
    obtain ⟨a,ha,hdisplay⟩ := Option.map_eq_some_iff.mp hacc
    exact ⟨ho,ha.trans (congrArg some (ids.display_inj hdisplay))⟩
  · rintro ⟨hl,hacc⟩
    refine Option.bind_eq_some_iff.mpr ⟨tryst.toRaw uuids ids,?_,mapRaw_toRaw uuids ids tryst⟩
    refine UniqueTable.selectByColumn_eq_some.mpr ⟨(h _).mpr ⟨tryst,hl,rfl⟩,?_⟩
    exact congrArg (Option.map ids.display) hacc

private theorem mem_getAll {s : Saves U E} (h : s.Holds uuids ids) {ok : Bool} {tryst : StoredTryst U E} :
    tryst ∈ (getAll uuids ids s.store ok).2 ↔ s.last tryst.id = some tryst := by
  rw [getAll,ratchetAll_eq,List.mem_filterMap]
  constructor
  · rintro ⟨row,hmem,hmap⟩
    obtain ⟨other,ho,rfl⟩ := (h row).mp hmem
    rw [mapRaw_toRaw] at hmap
    cases hmap
    exact ho
  · intro hl
    exact ⟨tryst.toRaw uuids ids,(h _).mpr ⟨tryst,hl,rfl⟩,mapRaw_toRaw uuids ids tryst⟩

private theorem getAll_nodup {s : Saves U E} (h : s.Holds uuids ids) (ok : Bool) :
    ((getAll uuids ids s.store ok).2.map StoredTryst.id).Nodup := by
  have hraw : ∀ row ∈ s.store.rows, ∀ a, mapRaw uuids ids row = some a → row = a.toRaw uuids ids := by
    intro row hmem a ha
    obtain ⟨tryst,-,rfl⟩ := (h row).mp hmem
    rw [mapRaw_toRaw] at ha
    cases ha
    rfl
  rw [getAll,ratchetAll_eq,List.Nodup,List.pairwise_map,List.pairwise_filterMap]
  refine s.store.keys_unique.imp_of_mem (fun hp hq hne a ha b hb he => hne ?_)
  rw [hraw _ hp a ha,hraw _ hq b hb]
  exact (toRaw_id_eq uuids ids).mpr he

/-- Stored values with one account are one value. -/
private theorem eq_of_account {s : Saves U E} (h : s.Holds uuids ids) {a b : StoredTryst U E}
    (ha : s.last a.id = some a) (hb : s.last b.id = some b) (hn : a.accountId ≠ none)
    (he : a.accountId = b.accountId) : a = b := by
  have hid := s.store.column_unique _ ((h _).mpr ⟨a,ha,rfl⟩) _ ((h _).mpr ⟨b,hb,rfl⟩)
    (by simpa [StoredTryst.toRaw] using hn) ((toRaw_accountId_eq uuids ids).mpr he)
  rw [(toRaw_id_eq uuids ids).mp hid,hb] at ha
  cases ha
  rfl

private theorem save_fails_iff {s : Saves U E} (h : s.Holds uuids ids) (tryst : StoredTryst U E) (ok : Bool) :
    (∃ e, (Tryst.save uuids ids s.store tryst ok).2 = .error e) ↔ ok = false ∨
      ∃ other, s.last other.id = some other ∧ other.id ≠ tryst.id ∧ other.accountId = tryst.accountId ∧
        tryst.accountId ≠ none := by
  have hconflict : s.store.Conflicts (tryst.toRaw uuids ids) ↔ ∃ other, s.last other.id = some other ∧
      other.id ≠ tryst.id ∧ other.accountId = tryst.accountId ∧ tryst.accountId ≠ none := by
    constructor
    · rintro ⟨row,hmem,hid,hacc,hn⟩
      obtain ⟨other,ho,rfl⟩ := (h row).mp hmem
      refine ⟨other,ho,fun he => hid ((toRaw_id_eq uuids ids).mpr he),(toRaw_accountId_eq uuids ids).mp hacc,?_⟩
      simpa [StoredTryst.toRaw] using hn
    · rintro ⟨other,ho,hid,hacc,hn⟩
      refine ⟨other.toRaw uuids ids,(h _).mpr ⟨other,ho,rfl⟩,fun he => hid ((toRaw_id_eq uuids ids).mp he),
        (toRaw_accountId_eq uuids ids).mpr hacc,?_⟩
      simpa [StoredTryst.toRaw] using hn
  rw [← hconflict,← UniqueTable.upsert_eq_none_iff]
  unfold Tryst.save
  cases ok with
  | false => simp
  | true => cases s.store.upsert (tryst.toRaw uuids ids) <;> simp

/-- After any saves the store is the map from ids to the last value saved for each: every
query reads it exactly, no account has two values, and a save fails, without effect, only
from outside or when another id has the account. -/
theorem tryst_store_faithful (calls : List (StoredTryst U E × Bool)) :
    let s := saveAll uuids ids calls
    (∀ id ok, get uuids ids s.store id ok = (s.store,s.last id)) ∧
    (∀ accountId ok, (getByAccountId uuids ids s.store accountId ok).1 = s.store ∧
      ∀ tryst, (getByAccountId uuids ids s.store accountId ok).2 = some tryst ↔
        s.last tryst.id = some tryst ∧ tryst.accountId = some accountId) ∧
    (∀ ok, (getAll uuids ids s.store ok).1 = s.store ∧
      ((getAll uuids ids s.store ok).2.map StoredTryst.id).Nodup ∧
      ∀ tryst, tryst ∈ (getAll uuids ids s.store ok).2 ↔ s.last tryst.id = some tryst) ∧
    (∀ a b, s.last a.id = some a → s.last b.id = some b → a.accountId ≠ none → a.accountId = b.accountId →
      a = b) ∧
    ∀ tryst ok, ((∃ e, (Tryst.save uuids ids s.store tryst ok).2 = .error e) ↔ ok = false ∨
      ∃ other, s.last other.id = some other ∧ other.id ≠ tryst.id ∧ other.accountId = tryst.accountId ∧
        tryst.accountId ≠ none) ∧
      ∀ e, (Tryst.save uuids ids s.store tryst ok).2 = .error e →
        (Tryst.save uuids ids s.store tryst ok).1 = s.store := by
  intro s
  have h : s.Holds uuids ids := saveAll_holds uuids ids calls
  refine ⟨fun id ok => get_eq uuids ids h id ok,fun accountId ok => ⟨?_,fun tryst => ?_⟩,
    fun ok => ⟨?_,getAll_nodup uuids ids h ok,fun tryst => mem_getAll uuids ids h⟩,
    fun a b => eq_of_account uuids ids h,fun tryst ok => ⟨save_fails_iff uuids ids h tryst ok,fun e => ?_⟩⟩
  · rw [getByAccountId,ratchetFound_eq]
  · exact getByAccountId_eq_some uuids ids h
  · rw [getAll,ratchetAll_eq]
  · exact save_error uuids ids

end Saves
end GossipCore.Tryst
