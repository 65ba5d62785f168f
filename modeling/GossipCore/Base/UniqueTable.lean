import Mathlib.Data.List.Nodup
import Mathlib.Tactic.Common

/-! A table of rows with a primary key and a partial unique index: rows whose indexed
column is none are not indexed. The upsert resolves conflicts on the key only. -/
namespace GossipCore.Base
variable {ρ κ α : Type} [DecidableEq κ] [DecidableEq α]

structure UniqueTable (key : ρ → κ) (column : ρ → Option α) where
  rows : List ρ
  keys_unique : rows.Pairwise (fun p q => key p ≠ key q)
  column_unique : ∀ p ∈ rows, ∀ q ∈ rows, column p ≠ none → column p = column q → key p = key q

namespace UniqueTable
variable {key : ρ → κ} {column : ρ → Option α}

def empty : UniqueTable key column := ⟨[],List.Pairwise.nil,fun _ h => absurd h List.not_mem_nil⟩

def selectByKey (t : UniqueTable key column) (k : κ) : Option ρ := t.rows.find? (fun p => key p = k)

def selectByColumn (t : UniqueTable key column) (a : α) : Option ρ := t.rows.find? (fun p => column p = some a)

/-- Another row already has the value that the indexed column of the new one has. -/
def Conflicts (t : UniqueTable key column) (r : ρ) : Prop :=
  ∃ p ∈ t.rows, key p ≠ key r ∧ column p = column r ∧ column r ≠ none

instance (t : UniqueTable key column) (r : ρ) : Decidable (t.Conflicts r) :=
  inferInstanceAs (Decidable (∃ p ∈ t.rows, _))

omit [DecidableEq α] in
/-- The row with the same key is overwritten, or the new row comes last. -/
def putRow (key : ρ → κ) (r : ρ) : List ρ → List ρ
  | [] => [r]
  | p::ps => if key p = key r then r::ps else p::putRow key r ps

omit [DecidableEq α] in
theorem mem_putRow {r p : ρ} {rows : List ρ} (h : rows.Pairwise (fun p q => key p ≠ key q)) :
    p ∈ putRow key r rows ↔ p = r ∨ (p ∈ rows ∧ key p ≠ key r) := by
  induction rows with
  | nil => simp [putRow]
  | cons q qs ih =>
    obtain ⟨hq,hqs⟩ := List.pairwise_cons.mp h
    unfold putRow
    split
    · rename_i hkey
      have hne : p ∈ qs → key p ≠ key r := fun hp he => hq p hp (hkey.trans he.symm)
      constructor
      · intro hp
        exact (List.mem_cons.mp hp).imp id (fun hp => ⟨List.mem_cons_of_mem q hp,hne hp⟩)
      · rintro (rfl | ⟨hp,hpr⟩)
        · exact List.mem_cons_self
        · rcases List.mem_cons.mp hp with rfl | hp
          · exact absurd hkey hpr
          · exact List.mem_cons_of_mem r hp
    · rename_i hkey
      rw [List.mem_cons,ih hqs]
      constructor
      · rintro (rfl | rfl | ⟨hp,hpr⟩)
        · exact Or.inr ⟨List.mem_cons_self,hkey⟩
        · exact Or.inl rfl
        · exact Or.inr ⟨List.mem_cons_of_mem q hp,hpr⟩
      · rintro (rfl | ⟨hp,hpr⟩)
        · exact Or.inr (Or.inl rfl)
        · exact (List.mem_cons.mp hp).imp id (fun hp => Or.inr ⟨hp,hpr⟩)

omit [DecidableEq α] in
theorem putRow_unique {r : ρ} {rows : List ρ} (h : rows.Pairwise (fun p q => key p ≠ key q)) :
    (putRow key r rows).Pairwise (fun p q => key p ≠ key q) := by
  induction rows with
  | nil => exact List.pairwise_singleton _ r
  | cons q qs ih =>
    obtain ⟨hq,hqs⟩ := List.pairwise_cons.mp h
    unfold putRow
    split
    · rename_i hkey
      exact List.pairwise_cons.mpr ⟨fun p hp => hkey ▸ hq p hp,hqs⟩
    · rename_i hkey
      refine List.pairwise_cons.mpr ⟨fun p hp => ?_,ih hqs⟩
      rcases (mem_putRow hqs).mp hp with rfl | ⟨hp,-⟩
      · exact hkey
      · exact hq p hp

/-- INSERT with ON CONFLICT of the key DO UPDATE; none when the index refuses the row. -/
def upsert (t : UniqueTable key column) (r : ρ) : Option (UniqueTable key column) :=
  if h : t.Conflicts r then none
  else some ⟨putRow key r t.rows,putRow_unique t.keys_unique,by
    have hfree : ∀ p ∈ t.rows, key p ≠ key r → column p = column r → column r = none := by
      intro p hp hk hc
      by_contra hn
      exact h ⟨p,hp,hk,hc,hn⟩
    intro p hp q hq hn he
    rcases (mem_putRow t.keys_unique).mp hp with rfl | ⟨hold,hpr⟩
    · rcases (mem_putRow t.keys_unique).mp hq with rfl | ⟨hold,hqr⟩
      · rfl
      · exact absurd (hfree q hold hqr he.symm) hn
    · rcases (mem_putRow t.keys_unique).mp hq with rfl | ⟨hold',-⟩
      · exact absurd (he.trans (hfree p hold hpr he)) hn
      · exact t.column_unique p hold q hold' hn he⟩

theorem upsert_eq_none_iff {t : UniqueTable key column} {r : ρ} : t.upsert r = none ↔ t.Conflicts r := by
  unfold upsert
  split <;> simp_all

theorem mem_upsert {t t' : UniqueTable key column} {r p : ρ} (h : t.upsert r = some t') :
    p ∈ t'.rows ↔ p = r ∨ (p ∈ t.rows ∧ key p ≠ key r) := by
  unfold upsert at h
  split at h
  · cases h
  · cases h
    exact mem_putRow t.keys_unique

omit [DecidableEq κ] [DecidableEq α] in
theorem eq_of_key_eq {t : UniqueTable key column} {p q : ρ} (hp : p ∈ t.rows) (hq : q ∈ t.rows)
    (h : key p = key q) : p = q :=
  List.inj_on_of_nodup_map (List.pairwise_map.mpr t.keys_unique) hp hq h

omit [DecidableEq κ] [DecidableEq α] in
private theorem find_eq_some_iff {rows : List ρ} {test : ρ → Bool} {p : ρ}
    (h : ∀ p ∈ rows, ∀ q ∈ rows, test p = true → test q = true → p = q) :
    rows.find? test = some p ↔ p ∈ rows ∧ test p = true := by
  constructor
  · intro hf
    exact ⟨List.mem_of_find?_eq_some hf,List.find?_some hf⟩
  · rintro ⟨hp,htest⟩
    cases hf : rows.find? test with
    | none => exact absurd htest (List.find?_eq_none.mp hf p hp)
    | some q => rw [h q (List.mem_of_find?_eq_some hf) p hp (List.find?_some hf) htest]

omit [DecidableEq α] in
theorem selectByKey_eq_some {t : UniqueTable key column} {k : κ} {p : ρ} :
    t.selectByKey k = some p ↔ p ∈ t.rows ∧ key p = k := by
  unfold selectByKey
  rw [find_eq_some_iff]
  · simp
  · intro p hp q hq hpk hqk
    exact eq_of_key_eq hp hq ((of_decide_eq_true hpk).trans (of_decide_eq_true hqk).symm)

omit [DecidableEq κ] in
theorem selectByColumn_eq_some {t : UniqueTable key column} {a : α} {p : ρ} :
    t.selectByColumn a = some p ↔ p ∈ t.rows ∧ column p = some a := by
  unfold selectByColumn
  rw [find_eq_some_iff]
  · simp
  · intro p hp q hq hpa hqa
    have hpa' := of_decide_eq_true hpa
    exact eq_of_key_eq hp hq (t.column_unique p hp q hq (by simp [hpa']) (hpa'.trans (of_decide_eq_true hqa).symm))

end UniqueTable
end GossipCore.Base
