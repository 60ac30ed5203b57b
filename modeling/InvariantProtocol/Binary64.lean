import Mathlib.Algebra.Group.Nat.Defs
import Mathlib.Data.Nat.Basic
import Mathlib.Tactic.SplitIfs
/-! Natural numbers as IEEE 754 doubles: rounding to 53 binary digits, and where it overflows. -/
namespace InvariantProtocol.Binary64

/-- The significand nearest to `n / ulp`, ties to the even one. -/
def roundHalfEven (n ulp:ℕ) : ℕ :=
 if ulp<2*(n % ulp) ∨ (2*(n % ulp)=ulp ∧ n / ulp % 2=1) then n / ulp+1 else n / ulp

def maxExponent : ℕ:=1024

/-- The double nearest to a natural number; `none` where it is out of range. -/
def floatOf (n:ℕ) : Option ℕ :=
 let ulp:=2^(n.log2-52)
 if roundHalfEven n ulp*ulp<2^maxExponent then some (roundHalfEven n ulp*ulp) else none

/-- From here on a number is nearer to two to the power 1024 than to the largest double. -/
def floatOverflow : ℕ:=2^maxExponent-2^(maxExponent-54)

lemma le_roundHalfEven (n ulp:ℕ) : n / ulp≤roundHalfEven n ulp := by
 unfold roundHalfEven
 split_ifs <;> omega

lemma roundHalfEven_le (n ulp:ℕ) : roundHalfEven n ulp≤n / ulp+1 := by
 unfold roundHalfEven
 split_ifs <;> omega

variable {n:ℕ}
lemma floatOf_of_lt (h:n<2^53) : floatOf n=some n := by
 have hs:n.log2-52=0:=by
  by_cases hz : n=0
  · rw [hz]
    rfl
  · have hl:=(Nat.log2_lt hz).2 h
    omega
 have hr:roundHalfEven n 1=n:=by
  simp [roundHalfEven,Nat.mod_one]
 have hlt:n<2^maxExponent:=
  lt_of_lt_of_le h (Nat.pow_le_pow_right (by decide) (by decide))
 unfold floatOf
 rw [hs]
 simp [hr,hlt]

section
variable {n:ℕ} (h:2^53≤n)
include h

lemma ne_zero_of_large : n≠0 := by
 rintro rfl
 exact absurd h (by decide)

lemma log2_of_large : 53≤n.log2 := (Nat.le_log2 (ne_zero_of_large h)).2 h

lemma significand_bounds : 2^52≤n / 2^(n.log2-52) ∧ n / 2^(n.log2-52)<2^53 := by
 have hlg:=log2_of_large h
 have hl:=Nat.log2_self_le (ne_zero_of_large h)
 have hh:n<2^(n.log2+1):=Nat.lt_log2_self
 have hp:0<2^(n.log2-52):=Nat.two_pow_pos _
 constructor
 · rw [Nat.le_div_iff_mul_le hp,←Nat.pow_add]
   have hex:52+(n.log2-52)=n.log2:=by omega
   rw [hex]
   exact hl
 · rw [Nat.div_lt_iff_lt_mul hp,←Nat.pow_add]
   have hex:53+(n.log2-52)=n.log2+1:=by omega
   rw [hex]
   exact hh

lemma le_rounded : 2^n.log2≤roundHalfEven n (2^(n.log2-52))*2^(n.log2-52) := by
 have hl:=log2_of_large h
 have hex:n.log2=52+(n.log2-52):=by omega
 calc 2^n.log2=2^52*2^(n.log2-52):=by rw [←Nat.pow_add,←hex]
  _≤roundHalfEven n (2^(n.log2-52))*2^(n.log2-52):=
   Nat.mul_le_mul_right _ (le_trans (significand_bounds h).1 (le_roundHalfEven _ _))

lemma rounded_le : roundHalfEven n (2^(n.log2-52))*2^(n.log2-52)≤2^(n.log2+1) := by
 have hl:=log2_of_large h
 have hex:n.log2+1=53+(n.log2-52):=by omega
 have hr:roundHalfEven n (2^(n.log2-52))≤2^53:=by
  have hle:=roundHalfEven_le n (2^(n.log2-52))
  have hlt:=(significand_bounds h).2
  omega
 calc roundHalfEven n (2^(n.log2-52))*2^(n.log2-52)
   ≤ 2^53*2^(n.log2-52):=Nat.mul_le_mul_right _ hr
  _=2^(n.log2+1):=by rw [←Nat.pow_add,←hex]

lemma le_of_floatOf_large {f:ℕ} (hf:floatOf n=some f) : 2^53≤f := by
 have hl:=log2_of_large h
 have hle:=le_rounded h
 unfold floatOf at hf
 dsimp only at hf
 split_ifs at hf
 cases hf
 exact le_trans (Nat.pow_le_pow_right (by decide) hl) hle
end

/-- Rounding does not go below a number that is a double itself. -/
theorem lt_of_floatOf {m f:ℕ} (hm:m<2^53) (hf:floatOf n=some f) (h:m<n) : m<f := by
 by_cases hl : 2^53≤n
 · exact lt_of_lt_of_le hm (le_of_floatOf_large hl hf)
 · rw [floatOf_of_lt (by omega)] at hf
   cases hf
   exact h

/-- In the last binade the significand is rounded out of range from half an ulp below it on. -/
theorem rounded_overflow_iff {half:ℕ} (hh:0<half) (hb:n / (2*half)<2^53) :
 2^53≤roundHalfEven n (2*half) ↔ (2^54-1)*half≤n := by
 have hd:=Nat.div_add_mod n (2*half)
 have hm:n % (2*half)<2*half:=Nat.mod_lt _ (by omega)
 by_cases hq : n / (2*half)=2^53-1
 · rw [hq] at hd
   unfold roundHalfEven
   rw [hq]
   split_ifs with hup
   · constructor
     · intro _
       omega
     · intro _
       omega
   · constructor
     · intro hle
       omega
     · intro hle
       omega
 · have hlt:n<(2^53-1)*(2*half):=by
    rw [←Nat.div_lt_iff_lt_mul (by omega)]
    omega
   have hle:=roundHalfEven_le n (2*half)
   constructor
   · intro hge
     omega
   · intro hge
     omega

lemma floatOf_eq_none : floatOf n=none ↔ floatOverflow≤n := by
 have hm:maxExponent=1024:=rfl
 have hs:2^maxExponent=2^54*2^(maxExponent-54):=by
  rw [←Nat.pow_add]
  congr 1
 have hsm:2^53≤floatOverflow:=by
  have hp:0<2^(maxExponent-54):=Nat.two_pow_pos _
  unfold floatOverflow
  omega
 by_cases h : 2^53≤n
 · have hi:floatOf n=none ↔
     2^maxExponent≤roundHalfEven n (2^(n.log2-52))*2^(n.log2-52):=by
    simp [floatOf]
   rw [hi]
   have hhg:n<2^(n.log2+1):=Nat.lt_log2_self
   have hlw:=Nat.log2_self_le (ne_zero_of_large h)
   rcases lt_trichotomy (n.log2+1) maxExponent with hlt|heq|hgt
   · have hpw:2^(n.log2+2)≤2^maxExponent:=
      Nat.pow_le_pow_right (by decide) (by omega)
     have hd:2^(n.log2+2)=2^(n.log2+1)*2:=Nat.pow_succ 2 _
     have hle:=rounded_le h
     have hp:0<2^(n.log2+1):=Nat.two_pow_pos _
     unfold floatOverflow
     omega
   · have hu:2^(n.log2-52)=2*2^(maxExponent-54):=by
      have hex:n.log2-52=maxExponent-54+1:=by omega
      rw [hex,Nat.pow_succ']
     have hb:=(significand_bounds h).2
     have hh:0<2^(maxExponent-54):=Nat.two_pow_pos _
     rw [hu] at hb ⊢
     unfold floatOverflow
     rw [hs]
     generalize 2^(maxExponent-54)=half at hb hh ⊢
     have hsub:2^54*half-half=(2^54-1)*half:=by omega
     have hl:2^54*half=2^53*(2*half):=by omega
     rw [hsub,←rounded_overflow_iff hh hb,hl]
     exact Nat.mul_le_mul_right_iff (by omega)
   · have hpw:2^maxExponent≤2^n.log2:=Nat.pow_le_pow_right (by decide) (by omega)
     have hle:=le_rounded h
     unfold floatOverflow
     omega
 · rw [floatOf_of_lt (by omega)]
   simp only [reduceCtorEq,false_iff]
   omega
end InvariantProtocol.Binary64
