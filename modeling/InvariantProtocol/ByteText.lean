import Mathlib.Data.List.Basic
/-! Texts as byte strings, by UTF-8, and byte strings as texts, by base64. -/
namespace InvariantProtocol.ByteText
open List

variable {b:UInt8} {n:ℕ}

abbrev Bytes:=List UInt8

def utf8 (cs:List Char) : Bytes:=cs.flatMap String.utf8EncodeChar

def firstChar (bs:Bytes) : Option Char:=bs.toByteArray.utf8DecodeChar? 0

/-- At most `fuel` characters; a byte that begins none is the replacement character. -/
def runesFrom : ℕ → Bytes → List Char
 | 0,_=>[]
 | _,[]=>[]
 | fuel+1,b::bs=>
  match firstChar (b::bs) with
  | some c=>c::runesFrom fuel ((b::bs).drop c.utf8Size)
  | none => '\uFFFD' :: runesFrom fuel bs

/-- The characters of a byte string, with one replacement for each invalid byte. -/
def runes (bs:Bytes) : List Char:=runesFrom bs.length bs

def decodeUtf8 (bs:Bytes) : Option (List Char) :=
 if utf8 (runes bs)=bs then some (runes bs) else none

/-- How many bytes at the front, which begin no character, one replacement stands for: the longest
part that could have been continued to a character. -/
def invalidLength : Bytes → ℕ
 | a::b::rest=>
  let continues:=fun (c:UInt8)=>0x80≤c && c≤0xBF
  let second :=
   if a=0xE0 then 0xA0≤b && b≤0xBF
   else if a=0xED then 0x80≤b && b≤0x9F
   else if a=0xF0 then 0x90≤b && b≤0xBF
   else if a=0xF4 then 0x80≤b && b≤0x8F
   else 0xE1≤a && a≤0xF3 && continues b
  if second then if 0xF0≤a && rest.head?.any continues then 3 else 2 else 1
 | _=>1

def lossyFrom : ℕ → Bytes → List Char
 | 0,_=>[]
 | _,[]=>[]
 | fuel+1,b::bs=>
  match firstChar (b::bs) with
  | some c=>c::lossyFrom fuel ((b::bs).drop c.utf8Size)
  | none => '\uFFFD' :: lossyFrom fuel ((b::bs).drop (invalidLength (b::bs)))

/-- The characters of a byte string, with one replacement for each invalid part. -/
def decodeLossy (bs:Bytes) : List Char:=lossyFrom bs.length bs

lemma utf8_cons (c:Char) (cs:List Char) : utf8 (c::cs)=String.utf8EncodeChar c++utf8 cs :=
 flatMap_cons

lemma utf8_append (cs ds:List Char) : utf8 (cs++ds)=utf8 cs++utf8 ds := flatMap_append

lemma firstChar_utf8 (c:Char) (bs:Bytes) : firstChar (String.utf8EncodeChar c++bs)=some c := by
 unfold firstChar
 rw [toByteArray_append]
 exact ByteArray.utf8DecodeChar?_utf8EncodeChar_append

lemma encodeChar_ne_nil (c:Char) : String.utf8EncodeChar c≠[] := by
 intro h
 have hl:=String.length_utf8EncodeChar c
 rw [h] at hl
 exact absurd hl.symm (Nat.pos_iff_ne_zero.1 c.utf8Size_pos)

lemma runesFrom_utf8 (cs:List Char) (fuel:ℕ) (hf:(utf8 cs).length≤fuel) :
 runesFrom fuel (utf8 cs)=cs := by
 induction cs generalizing fuel with
 | nil=>cases fuel <;> rfl
 | cons c cs ih=>
  rw [utf8_cons] at hf ⊢
  have hl:=String.length_utf8EncodeChar c
  have hp:=c.utf8Size_pos
  cases fuel with
  | zero=>
   simp only [length_append] at hf
   omega
  | succ fuel=>
   obtain ⟨b,bs,hb⟩:=exists_cons_of_ne_nil (encodeChar_ne_nil c)
   have hfr:=firstChar_utf8 c (utf8 cs)
   have hd:(String.utf8EncodeChar c++utf8 cs).drop c.utf8Size=utf8 cs:=by
    rw [←hl,drop_left]
   have hr:(utf8 cs).length≤fuel:=by
    simp only [length_append] at hf
    omega
   rw [hb,cons_append] at hfr hd ⊢
   rw [runesFrom,hfr]
   dsimp only
   rw [hd,ih fuel hr]

@[simp] lemma runes_utf8 (cs:List Char) : runes (utf8 cs)=cs :=
 runesFrom_utf8 cs _ (Nat.le_refl _)

lemma toNat_of_eq_ofNat (h:b=UInt8.ofNat n) : b.toNat=n % 256 := by
 rw [h,UInt8.toNat_ofNat']

/-- A byte below 128 is written only for the character of that number. -/
theorem toNat_of_mem_encodeChar {c:Char} (h:b∈String.utf8EncodeChar c) (hb:b.toNat<128) :
 c.toNat=b.toNat := by
 have hv:c.toNat=c.val.toNat:=rfl
 simp only [String.utf8EncodeChar] at h
 split_ifs at h
 · have hn:=toNat_of_eq_ofNat (List.mem_singleton.1 h)
   omega
 -- every byte of a longer sequence is at least 128
 · simp only [mem_cons,not_mem_nil,or_false] at h
   obtain h|h:=h <;> (have hn:=toNat_of_eq_ofNat h;omega)
 · simp only [mem_cons,not_mem_nil,or_false] at h
   obtain h|h|h:=h <;> (have hn:=toNat_of_eq_ofNat h;omega)
 · simp only [mem_cons,not_mem_nil,or_false] at h
   obtain h|h|h|h:=h <;> (have hn:=toNat_of_eq_ofNat h;omega)

@[simp] lemma decodeUtf8_utf8 (cs:List Char) : decodeUtf8 (utf8 cs)=some cs := by
 simp [decodeUtf8]

/-- The standard alphabet of RFC 4648. -/
def digit (n:ℕ) : Char :=
 if n<26 then Char.ofNat (65+n)
 else if n<52 then Char.ofNat (71+n)
 else if n<62 then Char.ofNat (n-4)
 else if n=62 then '+' else '/'

def digitValue (c:Char) : Option ℕ :=
 if 65≤c.toNat ∧ c.toNat≤90 then some (c.toNat-65)
 else if 97≤c.toNat ∧ c.toNat≤122 then some (c.toNat-71)
 else if 48≤c.toNat ∧ c.toNat≤57 then some (c.toNat+4)
 else if c = '+' then some 62
 else if c = '/' then some 63
 else none

/-- Three bytes are four digits; one or two bytes at the end are two or three. -/
def toDigits : Bytes → List ℕ
 | a::b::c::rest=>
  a.toNat / 4::(a.toNat % 4*16+b.toNat / 16)::(b.toNat % 16*4+c.toNat / 64) ::
   c.toNat % 64::toDigits rest
 | [a,b]=>[a.toNat / 4,a.toNat % 4*16+b.toNat / 16,b.toNat % 16*4]
 | [a]=>[a.toNat / 4,a.toNat % 4*16]
 | []=>[]

/-- The bits that a last digit has beyond the last byte are not looked at. -/
def ofDigits : List ℕ → Option Bytes
 | i::j::k::l::rest=>do
  let bs ← ofDigits rest
  some (UInt8.ofNat (i*4+j / 16)::UInt8.ofNat (j % 16*16+k / 4) ::
   UInt8.ofNat (k % 4*64+l)::bs)
 | [i,j,k]=>some [UInt8.ofNat (i*4+j / 16),UInt8.ofNat (j % 16*16+k / 4)]
 | [i,j]=>some [UInt8.ofNat (i*4+j / 16)]
 | [_]=>none
 | []=>some []

def encodeRaw (bs:Bytes) : List Char:=(toDigits bs).map digit

def decodeRaw (s:List Char) : Option Bytes:=do
 let digits ← s.mapM digitValue
 ofDigits digits

/-- The text without its padding, which has to fill up the last group of four. -/
def unpad (s:List Char) : Option (List Char) :=
 let body:=(s.reverse.dropWhile (· = '=')).reverse
 if s.length % 4=0 ∧ s.length≤body.length+2 then some body else none

def decodePadded (s:List Char) : Option Bytes:=unpad s >>= decodeRaw

/-- Only what encoding gives: the bits beyond the last byte are zero. -/
def decodeCanonical (s:List Char) : Option Bytes :=
 (decodeRaw s).filter fun bs=>encodeRaw bs=s

lemma toDigits_lt (bs:Bytes) : ∀n∈toDigits bs,n<64 := by
 fun_induction toDigits bs with
 | case1 a b c rest ih=>
  have ha:=UInt8.toNat_lt a
  have hb:=UInt8.toNat_lt b
  have hc:=UInt8.toNat_lt c
  simp only [mem_cons,forall_eq_or_imp]
  exact ⟨by omega,by omega,by omega,by omega,ih⟩
 | case2 a b=>
  have ha:=UInt8.toNat_lt a
  have hb:=UInt8.toNat_lt b
  simp only [mem_cons,not_mem_nil,or_false,forall_eq_or_imp,forall_eq]
  exact ⟨by omega,by omega,by omega⟩
 | case3 a=>
  have ha:=UInt8.toNat_lt a
  simp only [mem_cons,not_mem_nil,or_false,forall_eq_or_imp,forall_eq]
  exact ⟨by omega,by omega⟩
 | case4=>simp

lemma ofNat_of_toNat (h:n=b.toNat) : UInt8.ofNat n=b := by
 rw [h,UInt8.ofNat_toNat]

lemma ofDigits_toDigits (bs:Bytes) : ofDigits (toDigits bs)=some bs := by
 fun_induction toDigits bs with
 | case1 a b c rest ih=>
  have ha:=UInt8.toNat_lt a
  have hb:=UInt8.toNat_lt b
  have hc:=UInt8.toNat_lt c
  rw [ofDigits,ih]
  simp only [Option.bind_eq_bind,Option.bind_some,Option.some.injEq,List.cons.injEq,and_true]
  exact ⟨ofNat_of_toNat (by omega),ofNat_of_toNat (by omega),ofNat_of_toNat (by omega)⟩
 | case2 a b=>
  have ha:=UInt8.toNat_lt a
  have hb:=UInt8.toNat_lt b
  simp only [ofDigits,Option.some.injEq,List.cons.injEq,and_true]
  exact ⟨ofNat_of_toNat (by omega),ofNat_of_toNat (by omega)⟩
 | case3 a=>
  have ha:=UInt8.toNat_lt a
  simp only [ofDigits,Option.some.injEq,List.cons.injEq,and_true]
  exact ofNat_of_toNat (by omega)
 | case4=>rfl

lemma digitValue_digit (h:n<64) : digitValue (digit n)=some n := by
 have ha:∀k : Fin 64,digitValue (digit k)=some k.val:=by decide
 exact ha ⟨n,h⟩

lemma mapM_digitValue {digits:List ℕ} (h:∀n∈digits,n<64) :
 (digits.map digit).mapM digitValue=some digits := by
 induction digits with
 | nil=>rfl
 | cons n digits ih=>
  obtain ⟨hn,hd⟩:=List.forall_mem_cons.1 h
  simp [digitValue_digit hn,ih hd]

@[simp] lemma decodeRaw_encodeRaw (bs:Bytes) : decodeRaw (encodeRaw bs)=some bs := by
 unfold decodeRaw encodeRaw
 rw [mapM_digitValue (toDigits_lt bs)]
 exact ofDigits_toDigits bs

lemma mem_encodeRaw {bs:Bytes} {c:Char} (h:c∈encodeRaw bs) : (digitValue c).isSome := by
 obtain ⟨n,hn,rfl⟩:=List.mem_map.1 h
 rw [digitValue_digit (toDigits_lt bs n hn)]
 rfl
end InvariantProtocol.ByteText
