import InvariantProtocol.SqliteDecimal
import Mathlib.Computability.RegularExpressions
/-! `data_arrow.py`: values of decimal, UUID, timestamp and duration fields. -/
namespace InvariantProtocol.PythonValues
open List GoResult GoText DigitText SqliteSchema SqliteChecks SqliteMeaning SqliteDecimal
open RegularExpression

def oneOf (cs:List Char) : RegularExpression Char:=(cs.map char).foldr (· + ·) 0

def decimalDigits : List Char:=['0','1','2','3','4','5','6','7','8','9']

def wholePattern : RegularExpression Char:=char '0' + oneOf decimalDigits.tail*star (oneOf decimalDigits)

def decimalPattern (scale:ℕ) : RegularExpression Char :=
 if scale=0 then (1+char '-')*wholePattern
 else (1+char '-')*wholePattern*(char '.' * oneOf decimalDigits^scale)

def strip (cs s:List Char) : List Char :=
 ((s.dropWhile (· ∈ cs)).reverse.dropWhile (· ∈ cs)).reverse

def decimalParameters (precision scale:ℕ) (path:String) : Result Unit:=do
 rejectIf (precision<1 ∨ precision > 38)
  (.errorf "arrow: decimal field %r precision must be between 1 and 38" [.str path])
 rejectIf (scale > precision) (.errorf "arrow: decimal field %r scale must not exceed precision %d"
  [.str path,.int precision])

/-- The decimal number as its unscaled integer and the number of digits behind the point. -/
def decimalValue (value:List Char) (precision scale:ℕ) (path:String) : Result (ℤ×ℕ):=do
 decimalParameters precision scale path
 rejectIf (¬ (decimalPattern scale).rmatch value)
  (.errorf "arrow: decimal field %r is not canonical decimal(%d, %d) text"
   [.str path,.int precision,.int scale])
 let negative:=value.head?=some '-'
 let digits:=replaceChars ['.'] [] 0 (if negative then value.tail else value)
 rejectIf (negative ∧ strip ['0'] digits=[])
  (.errorf "arrow: decimal field %r uses the non-canonical negative-zero spelling" [.str path])
 let significant:=digits.dropWhile (· = '0')
 let exceeds : GoError:=.errorf "arrow: decimal field %r exceeds precision %d" [.str path,.int precision]
 rejectIf (significant.length > precision) exceeds
 let unscaled:=number digits
 rejectIf (unscaled ≥ 10^precision) exceeds
 return (if negative then -unscaled else unscaled,scale)

def hexValue (c:Char) : ℕ:=if c.isDigit then c.toNat-48 else c.toNat-87

def hexNumber (s:List Char) : ℕ:=s.foldl (fun n c=>16*n+hexValue c) 0

/-- `int(s, 16)`; `other` is what it makes of signs, capitals, separators and whatever else there is. -/
def intOfHex (other:List Char → Option ℤ) (s:List Char) : Option ℤ :=
 if s.all isLowerHex then some (hexNumber s) else other s

/-- The number of a `UUID`; `none` is a `ValueError`. -/
def parseUuid (other:List Char → Option ℤ) (value:List Char) : Option ℤ :=
 let hex:=replaceChars "uuid:".toList [] 0 (replaceChars "urn:".toList [] 0 value)
 let hex:=replaceChars ['-'] [] 0 (strip ['\x7b','\x7d'] hex)
 if hex.length≠32 then none
 else (intOfHex other hex).bind fun int=>if 0 ≤ int ∧ int<2^128 then some int else none

def hexText : ℕ → ℕ → List Char
 | 0,_=>[]
 | width+1,n=>hexText width (n / 16)++[Nat.digitChar (n % 16)]

def formatUuid (int:ℤ) : List Char:=hyphenated (hexText 32 int.toNat)

def uuidValue (other:List Char → Option ℤ) (value:List Char) (path:String) : Result ℤ :=
 match parseUuid other value with
 | none=>.error (.errorf "arrow: UUID field %r is not valid canonical UUID text" [.str path])
 | some parsed=>do
  rejectIf (formatUuid parsed≠value)
   (.errorf "arrow: UUID field %r is not lowercase hyphenated canonical UUID text" [.str path])
  return parsed

section
variable {x:List Char}
lemma oneOf_rmatch (cs x:List Char) : (oneOf cs).rmatch x=true ↔ ∃c∈cs,x=[c] := by
 induction cs with
 | nil=>simp [oneOf]
 | cons c cs ih => 
  rw [show oneOf (c::cs)=char c+oneOf cs from rfl,add_rmatch_iff,char_rmatch_iff,ih]
  simp

lemma star_rmatch (cs x:List Char) : (star (oneOf cs)).rmatch x=true ↔ ∀c∈x,c∈cs := by
 rw [star_rmatch_iff]
 constructor
 · rintro ⟨S,rfl,hS⟩ c hc
   obtain ⟨t,ht,hct⟩:=List.mem_flatten.1 hc
   obtain ⟨d,hd,rfl⟩:=(oneOf_rmatch cs t).1 (hS t ht).2
   rwa [List.mem_singleton.1 hct]
 · intro h
   refine ⟨x.map fun c=>[c],by simp [←flatMap_def],?_⟩
   simp only [forall_mem_map,oneOf_rmatch]
   exact fun c hc=>⟨by simp,c,h c hc,rfl⟩

lemma pow_rmatch (cs:List Char) (n:ℕ) (x:List Char) :
 (oneOf cs^n).rmatch x=true ↔ x.length=n ∧ ∀c∈x,c∈cs := by
 induction n generalizing x with
 | zero=>
  rw [show oneOf cs^0=1 from rfl,one_rmatch_iff]
  constructor
  · rintro rfl
    simp
  · exact fun h=>List.length_eq_zero_iff.1 h.1
 | succ n ih=>
  rw [show oneOf cs^(n+1)=oneOf cs^n*oneOf cs from rfl,mul_rmatch_iff]
  simp only [ih,oneOf_rmatch]
  constructor
  · rintro ⟨t,u,rfl,⟨rfl,ht⟩,c,hc,rfl⟩
    refine ⟨by simp,?_⟩
    simp only [forall_mem_append,forall_mem_singleton]
    exact ⟨ht,hc⟩
  · rintro ⟨hl,hx⟩
    have hne:x≠[]:=ne_nil_of_length_eq_add_one hl
    refine ⟨x.dropLast,[x.getLast hne],(dropLast_append_getLast hne).symm,
     ⟨by simp [hl],fun c hc=>hx c (mem_of_mem_dropLast hc)⟩,_,hx _ (getLast_mem hne),rfl⟩

lemma mem_decimalDigits (c:Char) : c∈decimalDigits ↔ c.isDigit=true := by
 constructor
 · have hdg:∀c∈decimalDigits,c.isDigit=true:=by
    unfold decimalDigits
    simp
   exact hdg c
 · intro h
   obtain ⟨d,hd,rfl⟩:=digit_eq h
   revert d
   decide

lemma wholePattern_rmatch : wholePattern.rmatch x=true ↔ Canonical x := by
 have hz : '0' ∉ decimalDigits.tail:=by decide
 have ht (c:Char) : c∈decimalDigits.tail ↔ c.isDigit=true ∧ c ≠ '0':=by
  rw [←mem_decimalDigits,show c∈decimalDigits ↔ c = '0' ∨ c∈decimalDigits.tail from mem_cons]
  constructor
  · exact fun h=>⟨.inr h,fun hc=>hz (hc ▸ h)⟩
  · exact fun h=>h.1.resolve_left h.2
 rw [wholePattern,add_rmatch_iff,char_rmatch_iff,mul_rmatch_iff]
 simp only [oneOf_rmatch,star_rmatch,mem_decimalDigits,ht]
 constructor
 · rintro (rfl|⟨-,s,rfl,⟨c,⟨hdg,hne⟩,rfl⟩,hs⟩)
   · exact ⟨by simp,by simp [Digits],.inl rfl⟩
   · exact ⟨by simp,List.forall_mem_cons.2 ⟨hdg,hs⟩,.inr (by simpa using hne)⟩
 · rintro ⟨hne,hd,rfl|hh⟩
   · exact .inl rfl
   · obtain ⟨c,s,rfl⟩:=exists_cons_of_ne_nil hne
     obtain ⟨hc,hs⟩:=List.forall_mem_cons.1 hd
     exact .inr ⟨[c],s,rfl,⟨c,⟨hc,by simpa using hh⟩,rfl⟩,hs⟩

lemma decimalPattern_rmatch (scale:ℕ) :
 (decimalPattern scale).rmatch x=true ↔ ∃parts : Parts scale,x=parts.text := by
 have hsg (s:List Char) : (1+char '-').rmatch s=true ↔ s=[] ∨ s=['-']:=by
  rw [add_rmatch_iff,one_rmatch_iff,char_rmatch_iff]
 have ht (parts:Parts scale) : parts.text=(if parts.negative then ['-'] else [])++parts.magnitude:=by
  unfold Parts.text
  split_ifs <;> rfl
 have hn (parts:Parts scale) : (if parts.negative then ['-'] else [])=[] ∨
   (if parts.negative then ['-'] else [])=['-']:=by
  split_ifs <;> simp
 unfold decimalPattern
 split_ifs with hsc
 · subst hsc
   simp only [mul_rmatch_iff,hsg,wholePattern_rmatch]
   constructor
   · rintro ⟨s,whole,rfl,hs,hw⟩
     refine ⟨⟨s=['-'],whole,[],hw,by simp [Digits],rfl⟩,?_⟩
     obtain rfl|rfl:=hs <;> simp [ht,Parts.magnitude]
   · rintro ⟨parts,rfl⟩
     exact ⟨_,parts.whole,by rw [ht,Parts.magnitude];simp,hn parts,parts.canonical⟩
 · have hp:=Nat.pos_of_ne_zero hsc
   simp only [mul_rmatch_iff,hsg,wholePattern_rmatch,char_rmatch_iff,pow_rmatch,mem_decimalDigits]
   constructor
   · rintro ⟨-,-,rfl,⟨s,whole,rfl,hs,hw⟩,-,fraction,rfl,rfl,hl,hd⟩
     refine ⟨⟨s=['-'],whole,fraction,hw,hd,hl⟩,?_⟩
     obtain rfl|rfl:=hs <;> simp [ht,Parts.magnitude,hp]
   · rintro ⟨parts,rfl⟩
     exact ⟨_,'.' :: parts.fraction,by rw [ht,Parts.magnitude,if_pos hp,append_assoc],
      ⟨_,parts.whole,rfl,hn parts,parts.canonical⟩,_,_,rfl,rfl,parts.length_eq,parts.digits⟩
end

section
variable {scale:ℕ}
lemma strip_eq_nil_iff (s:List Char) : strip ['0'] s=[] ↔ s.dropWhile (· = '0')=[] := by
 simp only [strip,mem_singleton,reverse_eq_nil_iff]
 constructor
 · intro h
   rw [dropWhile_eq_nil_iff] at h ⊢
   intro c hc
   rw [←takeWhile_append_dropWhile (p := (· = '0')) (l := s),mem_append] at hc
   obtain hc|hc:=hc
   · exact mem_takeWhile_imp (p := fun c=>decide (c = '0')) hc
   · exact h c (List.mem_reverse.2 hc)
 · intro h
   rw [h]
   rfl

lemma number_dropWhile (s:List Char) : number (s.dropWhile (· = '0'))=number s := by
 induction s with
 | nil=>rfl
 | cons c s ih=>
  by_cases hc : c = '0'
  · rw [dropWhile_cons_of_pos (by simpa using hc),ih,hc]
    change _=number (Nat.digitChar 0::s)
    rw [number_digit_cons (by decide),Nat.mul_zero,Nat.zero_add]
  · rw [dropWhile_cons_of_neg (by simpa using hc)]

lemma head_text (parts:Parts scale) : parts.text.head?=some '-' ↔ parts.negative=true := by
 have hh:=parts.head_magnitude
 rw [Parts.text]
 split_ifs with h <;> simp [h,hh]

lemma digits_text (parts:Parts scale) :
 replaceChars ['.'] [] 0 (if parts.text.head?=some '-' then parts.text.tail else parts.text) =
  parts.whole++parts.fraction := by
 have hsl {s:List Char} (hs:Digits s) : s.filter (· ≠ '.')=s:=
  List.filter_eq_self.2 fun c hc=>by
   rw [decide_eq_true_eq]
   rintro rfl
   exact absurd (hs _ hc) (by decide)
 have hm:(if parts.text.head?=some '-' then parts.text.tail else parts.text)=parts.magnitude:=by
  simp only [head_text]
  rw [Parts.text]
  split_ifs <;> rfl
 rw [hm,replaceChars_eq_filter,Parts.magnitude,filter_append,hsl parts.canonical.2.1]
 split_ifs with hsc
 · rw [filter_cons_of_neg (by decide),hsl parts.digits]
 · have hl:=parts.length_eq
   rw [List.length_eq_zero_iff.1 (hl.trans (Nat.eq_zero_of_not_pos hsc)),filter_nil]

lemma succeeds_decimalValue {precision:ℕ} (hp:0<precision ∧ precision≤38)
 (hs:scale≤precision) (v:List Char) (path:String) :
 succeeds (decimalValue v precision scale path)=true ↔ IsDecimal precision scale v := by
 rw [succeeds_iff]
 simp only [decimalValue,decimalParameters,bind_ok,rejectIf_ok,exists_const,pure_ok,not_not,
  decimalPattern_rmatch,IsDecimal]
 constructor
 · rintro ⟨-,-,⟨parts,rfl⟩,hz,hl,-⟩
   rw [digits_text] at hz hl
   refine ⟨parts,rfl,Nat.le_of_not_lt hl,?_⟩
   rwa [strip_eq_nil_iff,head_text] at hz
 · rintro ⟨parts,rfl,hl,hz⟩
   have hd:Digits parts.significant:=fun c hc=>by
    obtain hc|hc:=List.mem_append.1 ((dropWhile_sublist _).subset hc)
    · exact parts.canonical.2.1 c hc
    · exact parts.digits c hc
   have hb:number (parts.whole++parts.fraction)<10^precision:=by
    rw [←number_dropWhile]
    exact (number_lt hd).trans_le (Nat.pow_le_pow_right (by decide) hl)
   simp only [digits_text]
   simp only [strip_eq_nil_iff,head_text]
   exact ⟨_,⟨by omega,by omega⟩,⟨parts,rfl⟩,hz,Nat.not_lt.2 hl,Nat.not_le.2 hb,rfl⟩

/-- The check of a decimal column and the validator of its values let through the canonical texts. -/
theorem decimal_check_exact (t name path:String) (precision scale:ℕ) (hlow:1≤precision)
  (hhigh:precision≤38) (hscale:scale≤precision) (v:List Char) :
  ∃m,mapping (.decimal t precision scale) name=.ok m ∧ m.check=(decimalExpr precision scale).render name ∧
   ((decimalExpr precision scale).holds v ↔ IsDecimal precision scale v) ∧
   (succeeds (decimalValue v precision scale path)=true ↔ IsDecimal precision scale v) := by
 have ha:¬ (precision=0 ∨ precision > 38 ∨ scale > precision) := by omega
 obtain ⟨m,hm,hc⟩ : ∃m,mapping (.decimal t precision scale) name=.ok m ∧
   m.check=decimalCheck precision scale name := by
  rw [mapping,rejectIf,if_neg ha]
  exact ⟨_,rfl,rfl⟩
 exact ⟨m,hm,hc.trans (render_decimal name precision scale).symm,decimal_holds_iff hscale v,
  succeeds_decimalValue ⟨hlow,hhigh⟩ hscale v path⟩

theorem negative_amount_accepted : ∃m,mapping (.decimal "Money" 3 2) (quote "amount")=.ok m ∧
  m.check=(decimalExpr 3 2).render (quote "amount") ∧ (decimalExpr 3 2).holds ['-','0','.','5','0'] ∧
  succeeds (decimalValue ['-','0','.','5','0'] 3 2 "amount")=true := by
 have hd:IsDecimal 3 2 ['-','0','.','5','0'] :=
  ⟨⟨true,['0'],['5','0'],canonical_toDigits 0,by simp [Digits],rfl⟩,rfl,by decide,by decide⟩
 obtain ⟨m,hm,hc,hh,hvalue⟩:=decimal_check_exact "Money" (quote "amount") "amount" 3 2
  (by decide) (by decide) (by decide) ['-','0','.','5','0']
 exact ⟨m,hm,hc,hh.2 hd,hvalue.2 hd⟩
end

lemma lowerHex_eq {c:Char} (h:isLowerHex c=true) : ∃d<16,c=Nat.digitChar d := by
 rw [isLowerHex,Bool.or_eq_true] at h
 obtain h|h:=h
 · obtain ⟨d,hd,rfl⟩:=digit_eq h
   exact ⟨d,by omega,rfl⟩
 · have hv:97≤c.toNat ∧ c.toNat≤102:=by
    simpa [Char.le_def,UInt32.le_iff_toNat_le] using h
   refine ⟨c.toNat-87,by omega,Char.toNat_inj.1 ?_⟩
   have hl:∀n<103,97≤n → (Nat.digitChar (n-87)).toNat=n:=by decide
   exact (hl c.toNat (by omega) hv.1).symm

lemma hexNumber_append {d:ℕ} (hd:d<16) (s:List Char) :
 hexNumber (s++[Nat.digitChar d])=16*hexNumber s+d := by
 have hvalue:∀d<16,hexValue (Nat.digitChar d)=d:=by decide
 simp [hexNumber,hvalue d hd]

lemma hexText_hexNumber {s:List Char} (h:∀c∈s,isLowerHex c=true) :
 hexText s.length (hexNumber s)=s ∧ hexNumber s<16^s.length := by
 induction s using reverseRecOn with
 | nil=>exact ⟨rfl,by decide⟩
 | append_singleton s c ih=>
  obtain ⟨d,hd,rfl⟩:=lowerHex_eq (h c (by simp))
  obtain ⟨ht,hlt⟩:=ih fun c hc=>h c (mem_append_left _ hc)
  rw [length_append,length_singleton,hexText,hexNumber_append hd,Nat.pow_succ]
  refine ⟨?_,by omega⟩
  rw [show (16*hexNumber s+d) / 16=hexNumber s by omega,ht,show (16*hexNumber s+d) % 16=d by omega]

lemma hexText_lower (width n:ℕ) :
 (hexText width n).length=width ∧ ∀c∈hexText width n,isLowerHex c=true := by
 have hd:∀d<16,isLowerHex (Nat.digitChar d)=true:=by decide
 induction width generalizing n with
 | zero=>simp [hexText]
 | succ width ih=>
  simp only [hexText,length_append,forall_mem_append,forall_mem_singleton]
  exact ⟨by simp [(ih _).1],(ih _).2,hd _ (Nat.mod_lt _ (by decide))⟩

lemma strip_of_not_mem {cs s:List Char} (h:∀c∈s,c∉cs) : strip cs s=s := by
 have hk {s:List Char} (h:∀c∈s,c∉cs) : s.dropWhile (· ∈ cs)=s:=by
  cases s with
  | nil=>rfl
  | cons c s=>exact dropWhile_cons_of_neg (by simpa using h c (by simp))
 rw [strip,hk h,hk fun c hc=>h c (List.mem_reverse.1 hc),reverse_reverse]

/-- The lenient parser takes every text that the UUID it reads is printed as. -/
theorem parseUuid_hyphenated (other:List Char → Option ℤ) {hex:List Char} (hln:hex.length=32)
 (hl:∀c∈hex,isLowerHex c=true) : parseUuid other (hyphenated hex)=some (hexNumber hex) := by
 have ha {c:Char} (hc:isLowerHex c=false ∧ c ≠ '-') : c∉hyphenated hex:=by
  intro hm
  have hh:c∈hex:=by
   rw [←filter_hex hl,←filter_hyphenated]
   exact List.mem_filter.2 ⟨hm,by simpa using hc.2⟩
  simp [hl c hh] at hc
 have hk (old:List Char) : replaceChars ('u' :: old) [] 0 (hyphenated hex)=hyphenated hex:=by
  simpa [replaceChars] using @replaceChars_of_not_mem 'u' old [] _ (ha (by decide)) []
 have hs:strip ['\x7b','\x7d'] (hyphenated hex)=hyphenated hex:=strip_of_not_mem fun c hc=>by
  simp only [mem_cons,not_mem_nil,or_false,not_or]
  exact ⟨fun h=>ha (by decide) (h ▸ hc),fun h=>ha (by decide) (h ▸ hc)⟩
 have hr:=(hexText_hexNumber hl).2
 rw [hln] at hr
 have hal:hex.all isLowerHex=true:=List.all_eq_true.2 hl
 rw [parseUuid,show "urn:".toList = 'u' :: ['r','n',':'] from rfl,show "uuid:".toList = 'u' :: ['u','i','d',':'] from rfl,
  hk,hk,hs,replaceChars_eq_filter,filter_hyphenated,filter_hex hl,intOfHex,if_pos hal,
  if_neg (not_not.2 hln),Option.bind_some]
 exact if_pos ⟨Int.natCast_nonneg _,by exact_mod_cast hr⟩

lemma succeeds_uuidValue (other:List Char → Option ℤ) (v:List Char) (path:String) :
 succeeds (uuidValue other v path)=true ↔ IsUuid v := by
 rw [succeeds_iff,uuidValue]
 constructor
 · intro h
   split at h
   · simp at h
   · rename_i parsed _
     simp only [bind_ok,rejectIf_ok,exists_const,pure_ok,not_not] at h
     obtain ⟨-,rfl,-⟩:=h
     obtain ⟨hl,hlw⟩:=hexText_lower 32 parsed.toNat
     exact ⟨_,hl,hlw,rfl⟩
 · rintro ⟨hex,hl,hlw,rfl⟩
   have hf:formatUuid (hexNumber hex)=hyphenated hex:=by
    rw [formatUuid,Int.toNat_natCast,←hl,(hexText_hexNumber hlw).1]
   rw [parseUuid_hyphenated other hl hlw]
   exact ⟨_,by simp [rejectIf,hf];rfl⟩

/-- The check of a UUID column and the validator of its values let through the same texts. -/
theorem uuid_check_exact (t name path:String) (other:List Char → Option ℤ) (v:List Char) :
  ∃m,mapping (.uuid t) name=.ok m ∧ m.check=uuidExpr.render name ∧ (uuidExpr.holds v ↔ IsUuid v) ∧
   (succeeds (uuidValue other v path)=true ↔ IsUuid v) :=
 ⟨_,rfl,(render_uuid name).symm,(uuid_decides v).holds_iff,succeeds_uuidValue other v path⟩

def nanosPerSecond : ℤ:=1000000000

def fitsInt64 (value:ℤ) : Prop := -2^63≤value ∧ value≤2^63-1

def checkedNanoseconds (seconds nanos:ℤ) (path logicalType:String) : Result ℤ:=do
 let value:=seconds*nanosPerSecond+nanos
 rejectIf (value < -2^63 ∨ value > 2^63-1)
  (.errorf "arrow: protobuf %s field %r is outside Arrow's signed int64 nanosecond range"
   [.str logicalType,.str path])
 return value

def timestampSecondsMin : ℤ := -62135596800

def timestampSecondsMax : ℤ:=253402300799

def durationSecondsMax : ℤ:=315576000000

def timestampNanoseconds (seconds nanos:ℤ) (path:String) : Result ℤ:=do
 rejectIf (seconds<timestampSecondsMin ∨ seconds > timestampSecondsMax)
  (.errorf "arrow: protobuf Timestamp field %r is invalid: seconds must be in [%d, %d]"
   [.str path,.int timestampSecondsMin,.int timestampSecondsMax])
 rejectIf (nanos<0 ∨ nanos≥nanosPerSecond)
  (.errorf "arrow: protobuf Timestamp field %r is invalid: nanos must be in [0, 999999999]" [.str path])
 checkedNanoseconds seconds nanos path "Timestamp"

def durationNanoseconds (seconds nanos:ℤ) (path:String) : Result ℤ:=do
 rejectIf (seconds < -durationSecondsMax ∨ seconds > durationSecondsMax)
  (.errorf "arrow: protobuf Duration field %r is invalid: seconds must be in [-%d, %d]"
   [.str path,.int durationSecondsMax,.int durationSecondsMax])
 rejectIf (nanos ≤ -nanosPerSecond ∨ nanos≥nanosPerSecond)
  (.errorf "arrow: protobuf Duration field %r is invalid: nanos must be in [-999999999, 999999999]" [.str path])
 rejectIf (seconds > 0 ∧ nanos<0 ∨ seconds<0 ∧ nanos > 0)
  (.errorf "arrow: protobuf Duration field %r is invalid: seconds and nanos signs disagree" [.str path])
 checkedNanoseconds seconds nanos path "Duration"

/-- From the year 1 to the year 9999; the nanoseconds count forward in time. -/
def ValidTimestamp (seconds nanos:ℤ) : Prop :=
 (-62135596800 ≤ seconds ∧ seconds≤253402300799) ∧ 0≤nanos ∧ nanos≤999999999

/-- At most 10000 years; seconds and nanoseconds have one sign. -/
def ValidDuration (seconds nanos:ℤ) : Prop :=
 (-315576000000 ≤ seconds ∧ seconds≤315576000000) ∧ (-999999999≤nanos ∧ nanos≤999999999) ∧
  (0<seconds → 0≤nanos) ∧ (seconds<0 → nanos≤0)

variable {seconds nanos v:ℤ} {path:String}
lemma checkedNanoseconds_ok {logicalType:String} : checkedNanoseconds seconds nanos path logicalType=.ok v ↔
 fitsInt64 v ∧ v=seconds*1000000000+nanos := by
 simp only [checkedNanoseconds,bind_ok,rejectIf_ok,exists_const,pure_ok]
 simp only [nanosPerSecond,fitsInt64]
 constructor
 · rintro ⟨hr,rfl⟩
   exact ⟨by omega,rfl⟩
 · rintro ⟨hf,rfl⟩
   exact ⟨by omega,rfl⟩

lemma timestampNanoseconds_ok : timestampNanoseconds seconds nanos path=.ok v ↔
 ValidTimestamp seconds nanos ∧ fitsInt64 v ∧ v=seconds*1000000000+nanos := by
 simp only [timestampNanoseconds,bind_ok,rejectIf_ok,exists_const,checkedNanoseconds_ok,←and_assoc]
 refine and_congr_left fun _=>and_congr_left fun _=>?_
 simp only [ValidTimestamp,timestampSecondsMin,timestampSecondsMax,nanosPerSecond]
 omega

lemma durationNanoseconds_ok : durationNanoseconds seconds nanos path=.ok v ↔
 ValidDuration seconds nanos ∧ fitsInt64 v ∧ v=seconds*1000000000+nanos := by
 simp only [durationNanoseconds,bind_ok,rejectIf_ok,exists_const,checkedNanoseconds_ok,←and_assoc]
 refine and_congr_left fun _=>and_congr_left fun _=>?_
 simp only [ValidDuration,durationSecondsMax,nanosPerSecond]
 omega

lemma floor_recovers (h:ValidTimestamp seconds nanos) :
 (seconds*1000000000+nanos).fdiv 1000000000=seconds ∧ (seconds*1000000000+nanos).fmod 1000000000=nanos := by
 obtain ⟨-,hn,hl⟩:=h
 rw [Int.fdiv_eq_ediv_of_nonneg _ (by decide),Int.fmod_eq_emod_of_nonneg _ (by decide)]
 omega

/-- Truncation rounds towards zero, so a negative duration is divided as its opposite is. -/
theorem truncation_recovers (h:ValidDuration seconds nanos) :
 (seconds*1000000000+nanos).tdiv 1000000000=seconds ∧ (seconds*1000000000+nanos).tmod 1000000000=nanos := by
 obtain ⟨-,hb,hp,hn⟩:=h
 rcases Int.le_total 0 (seconds*1000000000+nanos) with hs|hs
 · rw [Int.tdiv_eq_ediv_of_nonneg hs,Int.tmod_eq_emod_of_nonneg hs]
   omega
 · have ho:0 ≤ -(seconds*1000000000+nanos):=by omega
   rw [←Int.neg_neg (seconds*1000000000+nanos),Int.neg_tdiv,Int.neg_tmod,Int.tdiv_eq_ediv_of_nonneg ho,
    Int.tmod_eq_emod_of_nonneg ho]
   omega

/-- The conversions to nanoseconds refuse what is invalid or does not fit and nothing else, and what they
  return determines the seconds and the nanoseconds. -/
theorem nanoseconds_exact :
  (∀seconds nanos path v,timestampNanoseconds seconds nanos path=.ok v →
   fitsInt64 v ∧ v.fdiv 1000000000=seconds ∧ v.fmod 1000000000=nanos) ∧
  (∀seconds nanos path v,durationNanoseconds seconds nanos path=.ok v →
   fitsInt64 v ∧ v.tdiv 1000000000=seconds ∧ v.tmod 1000000000=nanos) ∧
  (∀seconds nanos path,succeeds (timestampNanoseconds seconds nanos path)=true ↔
   ValidTimestamp seconds nanos ∧ fitsInt64 (seconds*1000000000+nanos)) ∧
  (∀seconds nanos path,succeeds (durationNanoseconds seconds nanos path)=true ↔
   ValidDuration seconds nanos ∧ fitsInt64 (seconds*1000000000+nanos)) ∧
  (∀seconds nanos path seconds' nanos' path' v,timestampNanoseconds seconds nanos path=.ok v →
   timestampNanoseconds seconds' nanos' path'=.ok v → seconds=seconds' ∧ nanos=nanos') ∧
  ∀seconds nanos path seconds' nanos' path' v,durationNanoseconds seconds nanos path=.ok v →
   durationNanoseconds seconds' nanos' path'=.ok v → seconds=seconds' ∧ nanos=nanos' := by
 have ht:∀seconds nanos path v,timestampNanoseconds seconds nanos path=.ok v →
   fitsInt64 v ∧ v.fdiv 1000000000=seconds ∧ v.fmod 1000000000=nanos:=by
  intro seconds nanos path v h
  obtain ⟨hv,hf,rfl⟩:=timestampNanoseconds_ok.1 h
  exact ⟨hf,floor_recovers hv⟩
 have hd:∀seconds nanos path v,durationNanoseconds seconds nanos path=.ok v →
   fitsInt64 v ∧ v.tdiv 1000000000=seconds ∧ v.tmod 1000000000=nanos:=by
  intro seconds nanos path v h
  obtain ⟨hv,hf,rfl⟩:=durationNanoseconds_ok.1 h
  exact ⟨hf,truncation_recovers hv⟩
 refine ⟨ht,hd,fun seconds nanos path=>?_,fun seconds nanos path=>?_,?_,?_⟩
 · simp only [succeeds_iff,timestampNanoseconds_ok,exists_and_left,exists_eq_right]
 · simp only [succeeds_iff,durationNanoseconds_ok,exists_and_left,exists_eq_right]
 · intro seconds nanos path seconds' nanos' path' v h h'
   obtain ⟨-,rfl,rfl⟩:=ht _ _ _ _ h
   exact (ht _ _ _ _ h').2
 · intro seconds nanos path seconds' nanos' path' v h h'
   obtain ⟨-,rfl,rfl⟩:=hd _ _ _ _ h
   exact (hd _ _ _ _ h').2
end InvariantProtocol.PythonValues
