import Mathlib.Data.List.Basic
import Mathlib.Tactic.Common

/-! A stream that arrives in non-empty chunks and ends by finishing or by an error.
What is read does not depend on where the stream was cut. -/
namespace GossipCore.Base

inductive StreamEnd where
  | finished
  | failed
  deriving DecidableEq, Repr

structure ChunkReader (α : Type) where
  chunks : List (List α)
  nonempty : ∀ c ∈ chunks, c ≠ []
  ending : StreamEnd

inductive ReadFailure where
  | unexpectedEof
  | failed
  deriving DecidableEq, Repr

namespace ChunkReader
variable {α : Type}

def remaining (r : ChunkReader α) : List α := r.chunks.flatten

/-- One read of at most limit items: the rest of the current chunk, nothing at the
end of a finished stream, none when the stream has failed. -/
def read (limit : Nat) (r : ChunkReader α) : Option (List α × ChunkReader α) :=
  match r with
  | ⟨[],_,.finished⟩ => some ([],r)
  | ⟨[],_,.failed⟩ => if limit = 0 then some ([],r) else none
  | ⟨c::cs,h,e⟩ =>
    if hl : limit < c.length then
      some (c.take limit,⟨c.drop limit::cs,by
        intro d hd
        rcases List.mem_cons.mp hd with rfl | hd
        · simpa using hl
        · exact h d (List.mem_cons_of_mem c hd),e⟩)
    else some (c,⟨cs,fun d hd => h d (List.mem_cons_of_mem c hd),e⟩)

/-- What one read can do. -/
theorem read_cases (limit : Nat) (r : ChunkReader α) :
    (r.read limit = none ∧ 0 < limit ∧ r.remaining = [] ∧ r.ending = .failed) ∨
    ∃ got r', r.read limit = some (got,r') ∧ got.length ≤ limit ∧ r.remaining = got++r'.remaining ∧
      r'.ending = r.ending ∧ (got = [] → limit = 0 ∨ (r.remaining = [] ∧ r.ending = .finished)) := by
  match r with
  | ⟨[],h,.finished⟩ => exact Or.inr ⟨[],_,rfl,Nat.zero_le _,rfl,rfl,fun _ => Or.inr ⟨rfl,rfl⟩⟩
  | ⟨[],h,.failed⟩ =>
    by_cases hl : limit = 0
    · exact Or.inr ⟨[],⟨[],h,.failed⟩,by simp [read,hl],Nat.zero_le _,rfl,rfl,fun _ => Or.inl hl⟩
    · exact Or.inl ⟨by simp [read,hl],Nat.pos_of_ne_zero hl,rfl,rfl⟩
  | ⟨c::cs,h,e⟩ =>
    have hc : c ≠ [] := h c List.mem_cons_self
    by_cases hl : limit < c.length
    · refine Or.inr ⟨c.take limit,_,dif_pos hl,List.length_take_le _ _,?_,rfl,fun hg => Or.inl ?_⟩
      · simp only [remaining,List.flatten_cons]
        rw [← List.append_assoc,List.take_append_drop]
      · simpa [hc] using hg
    · exact Or.inr ⟨c,_,dif_neg hl,Nat.not_lt.mp hl,by simp [remaining],rfl,fun hg => absurd hg hc⟩

private theorem sub_lt_of_read {limit : Nat} {r r' : ChunkReader α} {got : List α}
    (h : r.read limit = some (got,r')) (hg : got ≠ []) : limit-got.length < limit := by
  have hpos := List.length_pos_iff.mpr hg
  rcases r.read_cases limit with ⟨hn,-⟩ | ⟨got',r'',he,hle,-⟩
  · rw [hn] at h
    cases h
  · rw [he] at h
    cases h
    omega

/-- Read into the buffer, within the limit, until a read returns nothing. -/
def readLoop (limit : Nat) (buffer : List α) (r : ChunkReader α) : Option (List α × ChunkReader α) :=
  match h : r.read limit with
  | none => none
  | some (got,r') =>
    if hg : got = [] then some (buffer,r')
    else
      have : limit-got.length < limit := sub_lt_of_read h hg
      readLoop (limit-got.length) (buffer++got) r'
termination_by limit

/-- The loop delivers the next items of the stream, whatever the chunks were. -/
theorem readLoop_eq (limit : Nat) (buffer : List α) (r : ChunkReader α)
    (h : r.ending = .finished ∨ limit ≤ r.remaining.length) :
    ∃ r', r.readLoop limit buffer = some (buffer++r.remaining.take limit,r') ∧
      r'.remaining = r.remaining.drop limit ∧ r'.ending = r.ending := by
  induction limit using Nat.strongRecOn generalizing buffer r with
  | ind limit ih =>
    rw [readLoop]
    rcases r.read_cases limit with ⟨-,hpos,hnil,hfail⟩ | ⟨got,r',he,hle,hrem,hend,hlast⟩
    · rcases h with h | h
      · rw [hfail] at h
        cases h
      · rw [hnil] at h
        exact absurd h (Nat.not_le.mpr hpos)
    · split
      · rename_i hn
        rw [he] at hn
        cases hn
      · rename_i got' r'' hn
        rw [he] at hn
        cases hn
        split
        · rename_i hg
          subst hg
          rw [List.nil_append] at hrem
          rcases hlast rfl with rfl | ⟨hnil,-⟩
          · exact ⟨r',by simp,by simp [hrem],hend⟩
          · exact ⟨r',by simp [hnil],by simp [← hrem,hnil],hend⟩
        · rename_i hg
          have hpos := List.length_pos_iff.mpr hg
          have hrest : r'.ending = .finished ∨ limit-got.length ≤ r'.remaining.length := by
            rcases h with h | h
            · exact Or.inl (hend.trans h)
            · rw [hrem,List.length_append] at h
              exact Or.inr (by omega)
          obtain ⟨s,hs,hsr,hse⟩ := ih (limit-got.length) (by omega) (buffer++got) r' hrest
          refine ⟨s,?_,?_,hse.trans hend⟩
          · rw [hs,hrem,List.take_append,List.take_of_length_le hle,List.append_assoc]
          · rw [hsr,hrem,List.drop_append,List.drop_of_length_le hle,List.nil_append]

theorem readLoop_failed (limit : Nat) (buffer : List α) (r : ChunkReader α) (he : r.ending = .failed)
    (h : r.remaining.length < limit) : r.readLoop limit buffer = none := by
  induction limit using Nat.strongRecOn generalizing buffer r with
  | ind limit ih =>
    rw [readLoop]
    rcases r.read_cases limit with ⟨hn,-⟩ | ⟨got,r',hs,hle,hrem,hend,hlast⟩
    · split
      · rfl
      · rename_i hs
        rw [hn] at hs
        cases hs
    · split
      · rfl
      · rename_i got' r'' hn
        rw [hs] at hn
        cases hn
        split
        · rename_i hg
          rcases hlast hg with rfl | ⟨-,hfin⟩
          · exact absurd h (Nat.not_lt_zero _)
          · rw [he] at hfin
            cases hfin
        · rename_i hg
          have hpos := List.length_pos_iff.mpr hg
          rw [hrem,List.length_append] at h
          exact ih (limit-got.length) (by omega) _ r' (hend.trans he) (by omega)

/-- Read exactly n items. -/
def readExact (n : Nat) (r : ChunkReader α) : Except ReadFailure (List α × ChunkReader α) :=
  match r.readLoop n [] with
  | none => .error .failed
  | some (got,r') => if got.length < n then .error .unexpectedEof else .ok (got,r')

theorem readExact_ok {n : Nat} {r : ChunkReader α} (h : n ≤ r.remaining.length) :
    ∃ r', r.readExact n = .ok (r.remaining.take n,r') ∧ r'.remaining = r.remaining.drop n ∧
      r'.ending = r.ending := by
  obtain ⟨r',hr,hrest,hend⟩ := readLoop_eq n [] r (Or.inr h)
  refine ⟨r',?_,hrest,hend⟩
  simp [readExact,hr,h]

theorem readExact_short {n : Nat} {r : ChunkReader α} (h : r.remaining.length < n) :
    r.readExact n = .error (if r.ending = .finished then .unexpectedEof else .failed) := by
  cases he : r.ending with
  | finished =>
    obtain ⟨r',hr,-,-⟩ := readLoop_eq n [] r (Or.inl he)
    rw [List.take_of_length_le (Nat.le_of_lt h)] at hr
    simp [readExact,hr,h]
  | failed => simp [readExact,readLoop_failed n [] r he h]

end ChunkReader
end GossipCore.Base
