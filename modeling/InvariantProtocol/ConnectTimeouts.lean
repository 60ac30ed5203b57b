import InvariantProtocol.BoundedBodies
import InvariantProtocol.GoText
import Mathlib.Algebra.Order.Ring.Rat
/-! The `Connect-Timeout-Ms` header, given by its characters; a server that counts bytes counts those
of its UTF-8. -/
namespace InvariantProtocol.ConnectTimeouts
open List ByteText DigitText StatusCodes

variable {raw:List Char}
def invalid {α:Type} (message:String) : Except (Code×String) α:=.error (.invalidArgument,message)

def notDigit (c:Char) : Bool:=c < '0' || c > '9'

namespace Go

def positiveInteger : String:="Connect-Timeout-Ms must be a positive integer of at most 10 ASCII digits"

/-- The nanoseconds of the timeout, as the 64-bit product. -/
def applyConnectTimeout (raw:List Char) : Except (Code×String) ℤ :=
 if (utf8 raw).length=0 ∨ (utf8 raw).length>10 then invalid positiveInteger
 else if raw.any notDigit then invalid positiveInteger
 else
  match GoText.parseInt 64 (String.ofList raw) with
  | none=>invalid positiveInteger
  | some ms=>if ms≤0 then invalid positiveInteger else .ok (Int.bmod (ms*1000000) (2^64))
end Go

namespace Rust

def visible (c:Char) : Bool:=c = '\t' || (32≤c.toNat && c.toNat<127)

def parseU64 (cs:List Char) : Option ℕ :=
 let digits:=if cs.head?=some '+' then cs.tail else cs
 if digits≠[] ∧ digits.all Char.isDigit ∧ number digits<2^64 then some (number digits) else none

def parseConnectTimeout (raw:List Char) : Except (Code×String) ℕ :=
 if ¬ raw.all visible then invalid "Connect-Timeout-Ms must be a positive ASCII integer"
 else if raw=[] ∨ (utf8 raw).length>10 ∨ raw.any fun c=>!c.isDigit then
  invalid "Connect-Timeout-Ms must contain 1 to 10 ASCII digits"
 else
  match parseU64 raw with
  | none=>invalid "Connect-Timeout-Ms is out of range"
  | some ms=>if ms=0 then invalid "Connect-Timeout-Ms must be greater than zero" else .ok ms

/-- A duration in nanoseconds; the products of the long units stop at the largest `u64`. -/
def parseGrpcTimeout (value:List Char) : Option ℕ :=
 if ¬ value.all visible then none
 else
  (parseU64 value.dropLast).bind fun number=>
   match value.getLast? with
   | some 'H'=>some (min (number*3600) (2^64-1)*10^9)
   | some 'M'=>some (min (number*60) (2^64-1)*10^9)
   | some 'S'=>some (number*10^9)
   | some 'm'=>some (number*10^6)
   | some 'u'=>some (number*10^3)
   | some 'n'=>some number
   | _=>none

def outboundTimeout (remaining:Option ℕ) (grpcTimeout:Option (List Char)) : Option ℕ :=
 remaining.or (grpcTimeout.bind parseGrpcTimeout)

def timeoutHeader (remaining:Option ℕ) (grpcTimeout:Option (List Char)) : Option (List Char) :=
 (outboundTimeout remaining grpcTimeout).map fun timeout=>Nat.toDigits 10 (max (timeout/10^6) 1)
end Rust

/-- The seconds of the timeout, rounded to a double by `round`. -/
def Python.connectTimeoutSeconds {F:Type} (round:ℚ → F) (raw:List Char) : Except (Code×String) F :=
 if raw.length=0 ∨ raw.length>10 ∨ raw.any notDigit then invalid Go.positiveInteger
 else if number raw=0 then invalid Go.positiveInteger
 else .ok (round (number raw/1000))

def TypeScript.connectTimeoutMs (raw:List Char) : Except (Code×String) ℕ :=
 if ¬ (1≤raw.length ∧ raw.length≤10 ∧ raw.all Char.isDigit) ∨ raw=['0'] then
  invalid "Connect-Timeout-Ms must be a positive ASCII integer with at most 10 digits"
 else if number raw>2^53-1 then invalid "Connect-Timeout-Ms is out of range"
 else .ok (number raw)

/-- One to ten digits that are not all zero. -/
def Valid (raw:List Char) : Prop:=(1≤raw.length ∧ raw.length≤10) ∧ Digits raw ∧ ∃c∈raw,c ≠ '0'

def ReadsAs {α:Type} (parsed:Except (Code×String) α) (raw:List Char) (value:α) : Prop :=
 ∀v,parsed=.ok v ↔ Valid raw ∧ v=value

lemma any_notDigit : raw.any notDigit=true ↔ ¬ Digits raw := by
 have hc:∀c:Char,notDigit c=!c.isDigit:=by
  intro c
  simp [notDigit,Char.isDigit,Char.lt_def,←UInt32.not_le]
 simp [Digits,hc]

lemma all_isDigit : raw.all Char.isDigit=true ↔ Digits raw := all_eq_true

lemma length_utf8 (h:Digits raw) : (utf8 raw).length=raw.length := by
 induction raw with
 | nil=>rfl
 | cons c raw ih=>
  obtain ⟨d,hd,rfl⟩:=digit_eq (h c mem_cons_self)
  rw [utf8_digit_cons hd,length_cons,ih fun c hc=>h c (mem_cons_of_mem _ hc),length_cons]

lemma number_eq_zero (h:Digits raw) : number raw=0 ↔ ∀c∈raw,c = '0' := by
 induction raw with
 | nil=>simp [number]
 | cons c raw ih=>
  obtain ⟨d,hd,rfl⟩:=digit_eq (h c mem_cons_self)
  have hz:∀d:Fin 10,Nat.digitChar d = '0' ↔ d.val=0:=by decide
  rw [number_digit_cons hd,forall_mem_cons,←ih fun c hc=>h c (mem_cons_of_mem _ hc),hz ⟨d,hd⟩]
  have hp:0<10^raw.length:=Nat.pow_pos (by decide)
  simp only [Nat.add_eq_zero_iff,Nat.mul_eq_zero,hp.ne',false_or]

lemma head_not_sign {c:Char} (h:Digits (c::raw)) : c ≠ '-' ∧ c ≠ '+' := by
 have hc:=h c mem_cons_self
 constructor <;> rintro rfl <;> revert hc <;> decide

/-- What is left to a parser once the grammar of the digits has been checked. -/
theorem readsAs_of_digits {α:Type} {parsed:Except (Code×String) α} {value:α}
 (h:∀v,parsed=.ok v → (1≤raw.length ∧ raw.length≤10) ∧ Digits raw)
 (hd:(1≤raw.length ∧ raw.length≤10) → Digits raw → number raw<10^10 →
  ∀v,parsed=.ok v ↔ number raw≠0 ∧ v=value) :
 ReadsAs parsed raw value := by
 intro v
 by_cases hg : (1≤raw.length ∧ raw.length≤10) ∧ Digits raw
 · have hn:=(number_lt hg.2).trans_le (Nat.pow_le_pow_right (by decide) hg.1.2)
   rw [hd hg.1 hg.2 hn,Valid,ne_eq,number_eq_zero hg.2]
   simp [hg]
 · exact ⟨fun hp=>absurd (h v hp) hg,fun hv=>absurd ⟨hv.1.1,hv.1.2.1⟩ hg⟩

lemma parseInt_digits (hne:raw≠[]) (hd:Digits raw) (hn:number raw<10^10) :
 GoText.parseInt 64 (String.ofList raw)=some (number raw:ℤ) := by
 have hp:GoText.parseDigits raw=some (number raw):=by
  rw [GoText.parseDigits,if_pos ⟨hne,all_isDigit.2 hd⟩]
  rfl
 unfold GoText.parseInt
 rw [String.toList_ofList]
 split
 · exact absurd rfl (head_not_sign hd).1
 · exact absurd rfl (head_not_sign hd).2
 · have hb:number raw<2^(64-1):=hn.trans (by decide)
   simpa [hp] using hb

lemma go_readsAs : ReadsAs (Go.applyConnectTimeout raw) raw (number raw*1000000:ℤ) := by
 refine readsAs_of_digits (fun v hp=>?_) fun hl hd hn v=>?_
 · simp only [Go.applyConnectTimeout,invalid] at hp
   split_ifs at hp with hb ha
   have hd:=not_not.1 (mt any_notDigit.2 ha)
   rw [length_utf8 hd] at hb
   exact ⟨by omega,hd⟩
 · have hw:Int.bmod (number raw*1000000) (2^64)=number raw*1000000:=
    Int.bmod_eq_of_le (by omega) (by omega)
   simp only [Go.applyConnectTimeout,length_utf8 hd,any_notDigit,hd,not_true_eq_false,if_false,
    parseInt_digits (length_pos_iff.1 hl.1) hd hn,hw]
   rw [if_neg (by omega)]
   by_cases h0:number raw=0
   · simp [h0,invalid]
   · rw [if_neg (by omega)]
     simp [h0,eq_comm]

lemma parseU64_digits (hne:raw≠[]) (hd:Digits raw) (hn:number raw<2^64) : Rust.parseU64 raw=some (number raw) := by
 cases raw with
 | nil=>exact absurd rfl hne
 | cons c raw=>
  have hc:(c::raw).head?≠some '+':=fun h=>(head_not_sign hd).2 (Option.some.inj h)
  rw [Rust.parseU64,if_neg hc]
  exact if_pos ⟨hne,all_isDigit.2 hd,hn⟩

lemma all_visible (h : Digits raw) : raw.all Rust.visible=true := by
 rw [all_eq_true]
 intro c hc
 have hcd:=h c hc
 simp [Char.isDigit,UInt32.le_iff_toNat_le] at hcd
 simp [Rust.visible]
 omega

lemma rust_readsAs : ReadsAs (Rust.parseConnectTimeout raw) raw (number raw) := by
 have ha:(raw.any fun c=>!c.isDigit)=true ↔ ¬ Digits raw:=by simp [Digits]
 refine readsAs_of_digits (fun v hp=>?_) fun hl hd hn v=>?_
 · simp only [Rust.parseConnectTimeout,invalid] at hp
   split_ifs at hp with hv hb
   simp only [not_or] at hb
   obtain ⟨hne,hb,hd⟩:=hb
   have hd:=not_not.1 (mt ha.2 hd)
   rw [length_utf8 hd] at hb
   exact ⟨⟨length_pos_iff.2 hne,by omega⟩,hd⟩
 · simp only [Rust.parseConnectTimeout,all_visible hd,ha,hd,length_utf8 hd,not_true_eq_false,if_false,or_false,
    parseU64_digits (length_pos_iff.1 hl.1) hd (hn.trans (by decide))]
   rw [if_neg (not_or.2 ⟨length_pos_iff.1 hl.1,by omega⟩)]
   by_cases h0:number raw=0
   · simp [h0,invalid]
   · simp [h0,eq_comm]

lemma python_readsAs {F:Type} (round:ℚ → F) :
 ReadsAs (Python.connectTimeoutSeconds round raw) raw (round (number raw/1000)) := by
 refine readsAs_of_digits (fun v hp=>?_) fun hl hd _ v=>?_
 · simp only [Python.connectTimeoutSeconds,invalid] at hp
   split_ifs at hp with hb
   simp only [not_or] at hb
   exact ⟨by omega,not_not.1 (mt any_notDigit.2 hb.2.2)⟩
 · simp only [Python.connectTimeoutSeconds,any_notDigit,hd,not_true_eq_false,or_false]
   rw [if_neg (by omega)]
   by_cases h0:number raw=0
   · simp [h0,invalid]
   · simp [h0,eq_comm]

/-- A zero of several digits passes, since only the text of one digit is compared. -/
theorem typescript_readsAs_iff : ReadsAs (TypeScript.connectTimeoutMs raw) raw (number raw) ↔
 ¬ ((2≤raw.length ∧ raw.length≤10) ∧ ∀c∈raw,c = '0') := by
 have hs:∀v,TypeScript.connectTimeoutMs raw=.ok v ↔
   ((1≤raw.length ∧ raw.length≤10) ∧ Digits raw) ∧ raw≠['0'] ∧ v=number raw:=by
  intro v
  by_cases hg : (1≤raw.length ∧ raw.length≤10) ∧ Digits raw
  · have hn:=(number_lt hg.2).trans_le (Nat.pow_le_pow_right (by decide) hg.1.2)
    have hb:¬ number raw>2^53-1:=by omega
    simp only [TypeScript.connectTimeoutMs,all_isDigit,hg,hb,and_self,not_true_eq_false,false_or,if_false,true_and]
    by_cases h0:raw=['0']
    · simp [h0,invalid]
    · simp [h0,eq_comm]
  · have hf:¬ (1≤raw.length ∧ raw.length≤10 ∧ raw.all Char.isDigit):=fun h=>hg ⟨⟨h.1,h.2.1⟩,all_isDigit.1 h.2.2⟩
    rw [TypeScript.connectTimeoutMs,if_pos (.inl hf)]
    simp [hg,invalid]
 constructor
 · rintro h ⟨hl,hz⟩
   have hd:Digits raw:=fun c hc=>hz c hc ▸ rfl
   have hne:raw≠['0']:=by
    rintro rfl
    simp at hl
   obtain ⟨⟨-,-,c,hc,hc0⟩,-⟩:=(h _).1 ((hs _).2 ⟨⟨⟨by omega,hl.2⟩,hd⟩,hne,rfl⟩)
   exact hc0 (hz c hc)
 · intro h v
   rw [hs,Valid]
   constructor
   · rintro ⟨⟨hl,hd⟩,hne,rfl⟩
     refine ⟨⟨hl,hd,?_⟩,rfl⟩
     by_contra hz
     simp only [not_exists,not_and,not_not] at hz
     by_cases h1:raw.length=1
     · obtain ⟨c,rfl⟩:=length_eq_one_iff.1 h1
       exact hne (by rw [hz c mem_cons_self])
     · exact h ⟨⟨by omega,hl.2⟩,hz⟩
   · rintro ⟨⟨hl,hd,c,hc,hc0⟩,rfl⟩
     refine ⟨⟨hl,hd⟩,?_,rfl⟩
     rintro rfl
     exact hc0 (mem_singleton.1 hc)

def ParsedAlike {F:Type} (round:ℚ → F) (raw:List Char) : Prop :=
 ReadsAs (Go.applyConnectTimeout raw) raw (number raw*1000000:ℤ) ∧
 ReadsAs (Rust.parseConnectTimeout raw) raw (number raw) ∧
 ReadsAs (Python.connectTimeoutSeconds round raw) raw (round (number raw/1000)) ∧
 ReadsAs (TypeScript.connectTimeoutMs raw) raw (number raw)

theorem timeout_parsed_alike_iff {F:Type} (round:ℚ → F) (raw:List Char) :
  ParsedAlike round raw ↔ ¬ ((2≤raw.length ∧ raw.length≤10) ∧ ∀c∈raw,c = '0') :=
 ⟨fun h=>typescript_readsAs_iff.1 h.2.2.2,
  fun h=>⟨go_readsAs,rust_readsAs,python_readsAs round,typescript_readsAs_iff.2 h⟩⟩

theorem double_zero_parsed : TypeScript.connectTimeoutMs ['0','0']=.ok 0 ∧
  Go.applyConnectTimeout ['0','0']=invalid Go.positiveInteger ∧ ¬ ParsedAlike id ['0','0'] := by
 refine ⟨rfl,rfl,fun h=>?_⟩
 exact typescript_readsAs_iff.1 h.2.2.2 ⟨by decide,by simp⟩

lemma valid_toDigits {n:ℕ} (hn:n≠0) : Valid (Nat.toDigits 10 n) ↔ n<10^10 := by
 have hc:=canonical_toDigits n
 have hv:number (Nat.toDigits 10 n)=n:=Nat.ofDigitChars_ten_toDigits
 constructor
 · rintro ⟨hl,-⟩
   have hb:=(number_lt hc.2.1).trans_le (Nat.pow_le_pow_right (by decide) hl.2)
   rwa [hv] at hb
 · intro hb
   refine ⟨⟨length_pos_iff.2 hc.1,?_⟩,hc.2.1,?_⟩
   · by_contra hl
     have h10:=BoundedBodies.lower_bound hc (by omega)
     rw [hv] at h10
     have hp:10^10≤10^((Nat.toDigits 10 n).length-1):=Nat.pow_le_pow_right (by decide) (by omega)
     omega
   · by_contra hz
     simp only [not_exists,not_and,not_not] at hz
     exact hn (hv ▸ (number_eq_zero hc.2.1).2 hz)

def Accepted (header:List Char) : Prop :=
 Valid header ∧ (∃ms,Rust.parseConnectTimeout header=.ok ms) ∧ ∃ns,Go.applyConnectTimeout header=.ok ns

/-- The grammar of `grpc-timeout`: one to eight digits and a unit. -/
def GrpcTimeout (value:List Char) : Prop :=
 ∃digits unit,value=digits++[unit] ∧ Digits digits ∧ 1≤digits.length ∧ digits.length≤8 ∧
  unit∈['H','M','S','m','u','n']

/-- The milliseconds of a `grpc-timeout` have ten digits at most: a bound for each long unit. -/
def Forwardable (value:List Char) : Prop :=
 (value.getLast?=some 'H' → number value.dropLast≤2777) ∧
 (value.getLast?=some 'M' → number value.dropLast≤166666) ∧
 (value.getLast?=some 'S' → number value.dropLast≤9999999)

lemma parseGrpcTimeout_of_grammar {value : List Char} (h : GrpcTimeout value) :
 ∃ns,Rust.parseGrpcTimeout value=some ns ∧ (ns/10^6<10^10 ↔ Forwardable value) := by
 obtain ⟨digits,unit,rfl,hd,h1,h8,hu⟩:=h
 have hn:number digits<10^8:=(number_lt hd).trans_le (Nat.pow_le_pow_right (by decide) h8)
 have hp:=parseU64_digits (length_pos_iff.1 h1) hd (hn.trans (by decide))
 have hv:∀c,Rust.visible c=true → ((digits++[c]).all Rust.visible)=true:=
  fun c hc=>by simp [all_visible hd,hc]
 simp only [mem_cons,not_mem_nil,or_false] at hu
 obtain rfl|rfl|rfl|rfl|rfl|rfl:=hu <;>
  refine ⟨_,by rw [Rust.parseGrpcTimeout,hv _ (by decide),dropLast_concat,hp,getLast?_concat]; rfl,?_⟩ <;>
  simp [Forwardable] <;> omega

theorem forwarded_timeout_accepted_iff (remaining:Option ℕ) (value:Option (List Char))
  (hv:∀v∈value,GrpcTimeout v) : (∀header∈Rust.timeoutHeader remaining value,Accepted header) ↔
   (∀ns∈remaining,ns<10^16) ∧ (remaining=none → ∀v∈value,Forwardable v) := by
 have ha:∀header,Accepted header ↔ Valid header := by
  intro header
  exact ⟨And.left,fun h=>⟨h,⟨_,(rust_readsAs _).2 ⟨h,rfl⟩⟩,⟨_,(go_readsAs _).2 ⟨h,rfl⟩⟩⟩⟩
 have ht:∀ns,Accepted (Nat.toDigits 10 (max (ns/10^6) 1)) ↔ ns/10^6<10^10 := by
  intro ns
  rw [ha,valid_toDigits (by omega)]
  omega
 cases remaining with
 | some ns=>
  have hb:ns/10^6<10^10 ↔ ns<10^16:=by omega
  simp [Rust.timeoutHeader,Rust.outboundTimeout,-Nat.reducePow,ht,hb]
 | none=>
  cases value with
  | none=>simp [Rust.timeoutHeader,Rust.outboundTimeout]
  | some v=>
   obtain ⟨ns,hns,hf⟩:=parseGrpcTimeout_of_grammar (hv v rfl)
   simp [Rust.timeoutHeader,Rust.outboundTimeout,-Nat.reducePow,hns,ht,hf]

theorem second_accepted : Rust.timeoutHeader none (some ['1','S'])=some ['1','0','0','0'] ∧
  ∀header∈Rust.timeoutHeader none (some ['1','S']),Accepted header := by
 refine ⟨by decide,(forwarded_timeout_accepted_iff none (some ['1','S']) ?_).2 ⟨by simp,?_⟩⟩
 · rintro _ ⟨⟩
   exact ⟨['1'],'S',rfl,by simp [Digits],by decide⟩
 · rintro - _ ⟨⟩
   unfold Forwardable
   decide

theorem long_hours_refused : Rust.timeoutHeader none (some ['2','7','7','8','H'])=some "10000800000".toList ∧
  ¬ Accepted "10000800000".toList := by
 refine ⟨by decide,fun h=>?_⟩
 exact absurd h.1.1.2 (by decide)
end InvariantProtocol.ConnectTimeouts
