import InvariantProtocol.ByteText
import Mathlib.Algebra.Group.Nat.Defs
import Mathlib.Data.List.Induction
import Mathlib.Data.List.Lex
/-! Decimal digits as text: the shortest texts of numbers, and their order by bytes. -/
namespace InvariantProtocol.DigitText
open List ByteText

def Digits (s:List Char) : Prop := ∀c∈s,c.isDigit=true

/-- Zero, or digits of which the first is not zero. -/
def Canonical (s:List Char) : Prop:=s≠[] ∧ Digits s ∧ (s=['0'] ∨ s.head?≠some '0')

def number (s:List Char) : ℕ:=Nat.ofDigitChars 10 s 0

lemma digit_eq {c:Char} (h:c.isDigit=true) : ∃d<10,c=Nat.digitChar d := by
 have hv:48≤c.toNat ∧ c.toNat≤57:=by
  simpa [Char.isDigit,UInt32.le_iff_toNat_le] using h
 refine ⟨c.toNat-48,by omega,Char.toNat_inj.1 ?_⟩
 rw [Nat.toNat_digitChar_of_lt_ten (by omega)]
 omega

variable {d:ℕ} {s:List Char}
lemma number_append_digit (s:List Char) (hd:d<10) : number (s++[Nat.digitChar d])=10*number s+d := by
 rw [number,Nat.ofDigitChars_append,Nat.ofDigitChars_cons_digitChar_of_lt_ten hd,Nat.ofDigitChars_nil]
 rfl

lemma number_digit_cons (hd:d<10) (s:List Char) : number (Nat.digitChar d::s)=10^s.length*d+number s := by
 rw [number,Nat.ofDigitChars_cons_digitChar_of_lt_ten hd,Nat.ofDigitChars_eq_ofDigitChars_zero,
  Nat.mul_zero,Nat.zero_add]
 rfl

lemma number_lt (h:Digits s) : number s<10^s.length := by
 induction s using reverseRecOn with
 | nil=>decide
 | append_singleton s c ih=>
  obtain ⟨d,hd,rfl⟩:=digit_eq (h c (by simp))
  have hs:=ih fun c hc=>h c (mem_append_left _ hc)
  rw [number_append_digit s hd,length_append,length_singleton,Nat.pow_succ]
  omega

lemma pos_of_head (hd:d<10) (h:Nat.digitChar d ≠ '0') : 10^s.length≤number (Nat.digitChar d::s) := by
 have hp:0<d:=Nat.pos_of_ne_zero fun h0=>h (by rw [h0];rfl)
 rw [number_digit_cons hd]
 exact Nat.le_add_right_of_le (Nat.le_mul_of_pos_right _ hp)

lemma toDigits_number (h:Canonical s) : Nat.toDigits 10 (number s)=s := by
 obtain ⟨hne,hdg,rfl|hh⟩:=h
 · decide
 · induction s using reverseRecOn with
   | nil=>exact absurd rfl hne
   | append_singleton s c ih=>
    obtain ⟨d,hd,rfl⟩:=digit_eq (hdg c (by simp))
    have hs:Digits s:=fun c hc=>hdg c (mem_append_left _ hc)
    rw [number_append_digit s hd]
    cases s with
    | nil=>
     rw [show number []=0 from rfl,Nat.mul_zero,Nat.zero_add,Nat.toDigits_of_lt_base hd]
     rfl
    | cons e s=>
     obtain ⟨e,he,rfl⟩:=digit_eq (hs e (by simp))
     have hp:=Nat.lt_of_lt_of_le (Nat.pow_pos (by decide)) (pos_of_head he (s := s) (by simpa using hh))
     rw [←Nat.toDigits_append_toDigits (by decide) hp hd,ih (by simp) hs (by simpa using hh),
      Nat.toDigits_of_lt_base hd]

lemma canonical_toDigits (n:ℕ) : Canonical (Nat.toDigits 10 n) := by
 refine ⟨Nat.toDigits_ne_nil,fun c hc=>Nat.isDigit_of_mem_toDigits (by decide) (by decide) hc,?_⟩
 induction n using Nat.strongRecOn with
 | ind n ih=>
  by_cases hn : n<10
  · rw [Nat.toDigits_of_lt_base hn]
    clear ih
    revert n
    decide
  · rw [Nat.toDigits_of_base_le (by decide) (Nat.le_of_not_lt hn)]
    refine .inr ?_
    obtain hz|hh:=ih (n / 10) (by omega)
    · have hvalue:=congrArg number hz
      rw [number,Nat.ofDigitChars_ten_toDigits] at hvalue
      exact absurd (show n / 10=0 from hvalue) (by omega)
    · cases hl : Nat.toDigits 10 (n / 10) with
      | nil=>exact absurd hl Nat.toDigits_ne_nil
      | cons c cs=>simpa [hl] using hh

lemma utf8_digit_cons (hd:d<10) (s:List Char) : utf8 (Nat.digitChar d::s)=UInt8.ofNat (48+d)::utf8 s := by
 have hen:∀d : Fin 10,String.utf8EncodeChar (Nat.digitChar d)=[UInt8.ofNat (48+d)]:=by decide
 rw [utf8_cons,hen ⟨d,hd⟩]
 rfl

lemma utf8_lt_iff {t:List Char} (hs:Digits s) (ht:Digits t) (hl:s.length=t.length) :
 utf8 s<utf8 t ↔ number s<number t := by
 induction s generalizing t with
 | nil=>
  obtain rfl : t=[]:=List.length_eq_zero_iff.1 hl.symm
  simp [utf8]
 | cons c s ih=>
  cases t with
  | nil=>cases hl
  | cons e t=>
   replace hl : s.length=t.length:=Nat.succ.inj hl
   obtain ⟨d,hd,rfl⟩:=digit_eq (hs c (by simp))
   obtain ⟨e,he,rfl⟩:=digit_eq (ht e (by simp))
   have hs:Digits s:=fun c hc=>hs c (mem_cons_of_mem _ hc)
   have ht:Digits t:=fun c hc=>ht c (mem_cons_of_mem _ hc)
   have hf:UInt8.ofNat (48+d)<UInt8.ofNat (48+e) ↔ d<e:=by
    rw [UInt8.lt_iff_toNat_lt,UInt8.toNat_ofNat',UInt8.toNat_ofNat']
    omega
   have hsm:UInt8.ofNat (48+d)=UInt8.ofNat (48+e) ↔ d=e:=by
    rw [←UInt8.toNat_inj,UInt8.toNat_ofNat',UInt8.toNat_ofNat']
    omega
   rw [utf8_digit_cons hd,utf8_digit_cons he,cons_lt_cons_iff,hf,hsm,ih hs ht hl,
    number_digit_cons hd,number_digit_cons he,hl]
   have hlw:=hl ▸ number_lt hs
   have hh:=number_lt ht
   obtain hlt|rfl|hgt:=Nat.lt_trichotomy d e
   · have:=Nat.mul_le_mul_left (10^t.length) (Nat.succ_le_of_lt hlt)
     rw [Nat.mul_succ] at this
     exact ⟨fun _=>by omega,fun _=>.inl hlt⟩
   · simp
   · have:=Nat.mul_le_mul_left (10^t.length) (Nat.succ_le_of_lt hgt)
     rw [Nat.mul_succ] at this
     refine ⟨fun h=>?_,fun h=>?_⟩ <;> omega

lemma utf8_injective : Function.Injective utf8 := fun s t h=>by
 rw [←runes_utf8 s,h,runes_utf8]
end InvariantProtocol.DigitText
