import Mathlib.Algebra.Group.Nat.Defs
import Mathlib.Data.List.Basic
namespace InvariantProtocol.ByteReader
open List

section
variable {α:Type}
/-- The first `n` items, taken chunk by chunk, or all there are; and the chunks left. -/
def fill : ℕ → List (List α) → List α×List (List α)
 | _,[]=>([],[])
 | n,chunk::chunks=>
  if n≤chunk.length then (chunk.take n,chunk.drop n::chunks)
  else (chunk++(fill (n-chunk.length) chunks).1,(fill (n-chunk.length) chunks).2)

lemma fill_fst (n:ℕ) (chunks:List (List α)) : (fill n chunks).1=chunks.flatten.take n := by
 induction chunks generalizing n with
 | nil=>simp [fill]
 | cons chunk chunks ih=>
  rw [fill,flatten_cons,List.take_append]
  split_ifs with hn
  · rw [Nat.sub_eq_zero_of_le hn,take_zero,append_nil]
  · rw [ih,take_of_length_le (Nat.le_of_not_le hn)]

lemma fill_snd (n:ℕ) (chunks:List (List α)) : (fill n chunks).2.flatten=chunks.flatten.drop n := by
 induction chunks generalizing n with
 | nil=>simp [fill]
 | cons chunk chunks ih=>
  rw [fill,flatten_cons,drop_append]
  split_ifs with hn
  · rw [Nat.sub_eq_zero_of_le hn,drop_zero,flatten_cons]
  · rw [ih,drop_of_length_le (Nat.le_of_not_le hn),nil_append]
end

variable (a b c d:UInt8)
def bigEndian : ℕ:=((a.toNat*256+b.toNat)*256+c.toNat)*256+d.toNat

lemma shift_or_nat :
 (a.toNat <<< 24 ||| b.toNat <<< 16 ||| c.toNat <<< 8 ||| d.toNat)=bigEndian a b c d := by
 have hb:=b.toNat_lt
 have hc:=c.toNat_lt
 have hd:=d.toNat_lt
 have hl:c.toNat <<< 8 ||| d.toNat=c.toNat*256+d.toNat:=by
  rw [←Nat.shiftLeft_add_eq_or_of_lt hd,Nat.shiftLeft_eq]
 have hm:b.toNat <<< 16 ||| (c.toNat <<< 8 ||| d.toNat) =
   (b.toNat*256+c.toNat)*256+d.toNat:=by
  rw [hl,←Nat.shiftLeft_add_eq_or_of_lt (by omega),Nat.shiftLeft_eq]
  omega
 rw [Nat.or_assoc,Nat.or_assoc,hm,←Nat.shiftLeft_add_eq_or_of_lt (by omega),Nat.shiftLeft_eq,bigEndian]
 omega

lemma shift_or_word :
 (a.toUInt32 <<< 24 ||| b.toUInt32 <<< 16 ||| c.toUInt32 <<< 8 ||| d.toUInt32).toNat =
  bigEndian a b c d := by
 have ha:=a.toNat_lt
 have hb:=b.toNat_lt
 have hc:=c.toNat_lt
 rw [←shift_or_nat]
 simp only [UInt32.toNat_or,UInt32.toNat_shiftLeft,UInt8.toNat_toUInt32,UInt32.reduceToNat,Nat.reduceMod]
 rw [Nat.mod_eq_of_lt,Nat.mod_eq_of_lt,Nat.mod_eq_of_lt]
 · rw [Nat.shiftLeft_eq]
   omega
 · rw [Nat.shiftLeft_eq]
   omega
 · rw [Nat.shiftLeft_eq]
   omega

lemma bigEndian_bytes {n:ℕ} (h:n<2^32) :
 bigEndian (UInt8.ofNat (n / 2^24)) (UInt8.ofNat (n / 2^16)) (UInt8.ofNat (n / 2^8)) (UInt8.ofNat n)=n := by
 unfold bigEndian
 simp only [UInt8.toNat_ofNat']
 omega
end InvariantProtocol.ByteReader
