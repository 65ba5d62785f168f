import Mathlib.Algebra.Group.Nat.Defs
import Mathlib.Data.Nat.Basic
import Mathlib.Tactic.Common

/-! Numbers as bytes: variable-length integers of seven bits a byte, lowest first,
within a byte budget, and fixed 32-bit integers in network order. -/
namespace GossipCore.Base

private theorem toNat_ofNat_of_lt {n : Nat} (h : n < 256) : (UInt8.ofNat n).toNat = n := by
  rw [UInt8.toNat_ofNat']
  exact Nat.mod_eq_of_lt h

namespace Varint

/-- At most n bytes; every byte but the last has its high bit set. -/
def encode : Nat → Nat → List UInt8
  | 0, _ => []
  | n+1, v => if v < 128 then [UInt8.ofNat v] else UInt8.ofNat (v%128+128)::encode n (v/128)

/-- Read at most n bytes. A number that takes the whole budget may not have a last
byte above the given one. -/
def decode (lastMax : Nat) : Nat → List UInt8 → Option (Nat × List UInt8)
  | 0, _ => none
  | _+1, [] => none
  | n+1, b::rest =>
    if b.toNat < 128 then if n = 0 ∧ lastMax < b.toNat then none else some (b.toNat,rest)
    else (decode lastMax n rest).map (fun r => (b.toNat-128+128*r.1,r.2))

theorem decode_encode {lastMax n v : Nat} (hlast : lastMax < 128) (hv : v < 128^n*(lastMax+1))
    (rest : List UInt8) : decode lastMax (n+1) (encode (n+1) v++rest) = some (v,rest) := by
  induction n generalizing v with
  | zero =>
    have hv' : v ≤ lastMax := by simpa [Nat.lt_succ_iff] using hv
    have hsmall : v < 128 := Nat.lt_of_le_of_lt hv' hlast
    have hbyte := toNat_ofNat_of_lt (Nat.lt_trans hsmall (by decide : 128 < 256))
    simp [encode,decode,hsmall,hbyte,hv']
  | succ n ih =>
    rw [encode]
    split
    · rename_i hsmall
      have hbyte := toNat_ofNat_of_lt (Nat.lt_trans hsmall (by decide : 128 < 256))
      simp [decode,hsmall,hbyte]
    · rename_i hbig
      have hbyte := toNat_ofNat_of_lt (by omega : v%128+128 < 256)
      have hdiv : v/128 < 128^n*(lastMax+1) := by
        refine Nat.div_lt_of_lt_mul ?_
        rw [← Nat.mul_assoc,← Nat.pow_succ']
        exact hv
      rw [List.cons_append,decode,hbyte,if_neg (by omega),ih hdiv]
      simp only [Option.map_some,Option.some.injEq,Prod.mk.injEq,and_true]
      omega

theorem length_encode_le {n k v : Nat} (hv : v < 128^(k+1)) : (encode n v).length ≤ k+1 := by
  induction k generalizing n v with
  | zero =>
    cases n with
    | zero => exact Nat.zero_le 1
    | succ n => simp [encode,show v < 128 by simpa using hv]
  | succ k ih =>
    cases n with
    | zero => exact Nat.zero_le _
    | succ n =>
      rw [encode]
      split
      · simp
      · exact Nat.succ_le_succ (ih (Nat.div_lt_of_lt_mul (by rw [← Nat.pow_succ']; exact hv)))

theorem lt_length_encode {n k v : Nat} (hn : k < n) (hv : 128^k ≤ v) : k < (encode n v).length := by
  induction k generalizing n v with
  | zero =>
    obtain ⟨n,rfl⟩ := Nat.exists_eq_succ_of_ne_zero (Nat.ne_of_gt hn)
    rw [encode]
    split <;> simp
  | succ k ih =>
    obtain ⟨n,rfl⟩ := Nat.exists_eq_succ_of_ne_zero (Nat.ne_of_gt (Nat.zero_lt_of_lt hn))
    have hdiv : 128^k ≤ v/128 := by
      rw [Nat.le_div_iff_mul_le (by decide),← Nat.pow_succ]
      exact hv
    have hbig : ¬v < 128 := by
      have hpos : 0 < 128^k := Nat.pow_pos (by decide)
      omega
    rw [encode,if_neg hbig]
    exact Nat.succ_lt_succ (ih (Nat.lt_of_succ_lt_succ hn) hdiv)

end Varint

/-- The four bytes of a 32-bit number, highest first. -/
def be32 (n : Nat) : List UInt8 :=
  [UInt8.ofNat (n/2^24%256),UInt8.ofNat (n/2^16%256),UInt8.ofNat (n/2^8%256),UInt8.ofNat (n%256)]

def ofBe32 (bytes : List UInt8) : Nat := bytes.foldl (fun acc b => acc*256+b.toNat) 0

theorem length_be32 (n : Nat) : (be32 n).length = 4 := rfl

theorem ofBe32_be32 {n : Nat} (h : n < 2^32) : ofBe32 (be32 n) = n := by
  simp only [be32,ofBe32,List.foldl_cons,List.foldl_nil]
  rw [toNat_ofNat_of_lt (Nat.mod_lt _ (by decide)),toNat_ofNat_of_lt (Nat.mod_lt _ (by decide)),
    toNat_ofNat_of_lt (Nat.mod_lt _ (by decide)),toNat_ofNat_of_lt (Nat.mod_lt _ (by decide))]
  omega

private theorem eq_four {bytes : List UInt8} (h : bytes.length = 4) : ∃ a b c d, bytes = [a,b,c,d] := by
  match bytes, h with
  | [a,b,c,d], _ => exact ⟨a,b,c,d,rfl⟩

theorem ofBe32_lt {bytes : List UInt8} (h : bytes.length = 4) : ofBe32 bytes < 2^32 := by
  obtain ⟨a,b,c,d,rfl⟩ := eq_four h
  simp only [ofBe32,List.foldl_cons,List.foldl_nil]
  have ha := a.toNat_lt
  have hb := b.toNat_lt
  have hc := c.toNat_lt
  have hd := d.toNat_lt
  omega

theorem be32_ofBe32 {bytes : List UInt8} (h : bytes.length = 4) : be32 (ofBe32 bytes) = bytes := by
  obtain ⟨a,b,c,d,rfl⟩ := eq_four h
  have ha := a.toNat_lt
  have hb := b.toNat_lt
  have hc := c.toNat_lt
  have hd := d.toNat_lt
  have hbyte : ∀ (x : UInt8) {n : Nat}, n = x.toNat → UInt8.ofNat n = x := by
    rintro x _ rfl
    exact UInt8.ofNat_toNat
  simp only [ofBe32,List.foldl_cons,List.foldl_nil,be32]
  rw [hbyte a (by omega),hbyte b (by omega),hbyte c (by omega),hbyte d (by omega)]

end GossipCore.Base
