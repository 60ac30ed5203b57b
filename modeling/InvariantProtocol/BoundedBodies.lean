import InvariantProtocol.DigitText
import InvariantProtocol.StatusCodes
namespace InvariantProtocol.BoundedBodies
open ByteText DigitText StatusCodes
open List hiding concat length

structure ReadResult where
 body : Bytes
 exceeded : Bool

def bounded (maxBytes:ℕ) (whole:Bytes) : ReadResult:=⟨whole.take maxBytes,maxBytes<whole.length⟩

variable {maxBytes:ℕ}
lemma bounded_within {whole:Bytes} (h:whole.length ≤ maxBytes) : bounded maxBytes whole=⟨whole,false⟩ := by
 simp [bounded,take_of_length_le h,h]

lemma bounded_crossed {kept chunk rest:Bytes} (hk:kept.length ≤ maxBytes)
 (hc:maxBytes<kept.length+chunk.length) :
 bounded maxBytes (kept++(chunk++rest))=⟨kept++chunk.take (maxBytes-kept.length),true⟩ := by
 have ht:(kept++(chunk++rest)).take maxBytes=kept++chunk.take (maxBytes-kept.length):=by
  rw [List.take_append,take_of_length_le hk,take_append_of_le_length (by omega)]
 have hl:maxBytes<(kept++(chunk++rest)).length:=by
  simp only [length_append]
  omega
 simp only [bounded,ht,hl,decide_true]

namespace Python

def readChunks (maxBytes:ℕ) (chunks:List Bytes) (total retained:ℕ) : List Bytes → ReadResult
 | []=>⟨chunks.flatten,false⟩
 | chunk::rest=>
  if maxBytes<total+chunk.length then
   let remaining:=max 0 (maxBytes-retained)
   ⟨(if remaining=0 then chunks else chunks++[chunk.take remaining]).flatten,true⟩
  else readChunks maxBytes (chunks++[chunk]) (total+chunk.length) (retained+chunk.length) rest

def readRaw (maxBytes:ℕ) (chunks:List Bytes) (retained:ℕ) : List Bytes → ReadResult
 | []=>⟨chunks.flatten,false⟩
 | chunk::rest=>
  if maxBytes-retained<chunk.length then ⟨chunks.flatten,true⟩
  else readRaw maxBytes (chunks++[chunk]) (retained+chunk.length) rest

/-- Leading zeros apart, the longer number is larger, and of two of one length the later in the order
  of code points, which is that of UTF-8. -/
def declaredExceeds (maxBytes:ℕ) (declared:List Char) : Bool :=
 let stripped:=declared.dropWhile (· == '0')
 let significant:=if stripped=[] then ['0'] else stripped
 let ceiling:=Nat.toDigits 10 maxBytes
 ceiling.length<significant.length ∨ (significant.length=ceiling.length ∧ utf8 ceiling<utf8 significant)

def checkLength (maxBytes:ℕ) : Option (List Char) → Except (Code×String) Bool
 | none=>.ok false
 | some declared=>
  if declared=[] ∨ ¬ declared.all Char.isDigit then
   .error (.failedPrecondition,"identity-only HTTP Content-Length is invalid")
  else .ok (declaredExceeds maxBytes declared)

/-- `normalized` is the content encoding, stripped and lower-case, if the header is there. -/
def readResponseBody (maxBytes:ℕ) (identityOnly:Bool) (normalized:Option String)
  (contentLength:Option (List Char)) (chunks:List Bytes) : Except (Code×String) ReadResult :=
 if identityOnly then
  if normalized.getD "identity" ≠ "identity" then
   .error (.failedPrecondition,"identity-only HTTP response uses an unsupported encoding")
  else do
   if ← checkLength maxBytes contentLength then return ⟨[],true⟩
   else return readRaw maxBytes [] 0 chunks
 else .ok (readChunks maxBytes [] 0 0 chunks)

lemma readChunks_eq {rest:List Bytes} {chunks:List Bytes} {n:ℕ} (hn:n=chunks.flatten.length)
 (hk:n ≤ maxBytes) : readChunks maxBytes chunks n n rest=bounded maxBytes (chunks.flatten++rest.flatten) := by
 induction rest generalizing chunks n with
 | nil=>
  subst hn
  simp [readChunks,bounded_within hk]
 | cons chunk rest ih=>
  rw [readChunks]
  split_ifs with hc
  · subst hn
    rw [flatten_cons,bounded_crossed hk hc]
    by_cases hz : maxBytes-chunks.flatten.length=0
    · simp only [Nat.zero_max,hz,if_true,take_zero,append_nil]
    · simp only [Nat.zero_max,hz,if_false,flatten_append,flatten_singleton]
  · rw [ih (by simp [hn]) (by omega)]
    simp
end Python

namespace TypeScript

/-- `Buffer.concat`, which cuts or pads to the given length. -/
def concat (chunks:List Bytes) (length:ℕ) : Bytes :=
 chunks.flatten.take length++replicate (length-chunks.flatten.length) 0

def readChunks (maxBytes:ℕ) (chunks:List Bytes) (retained:ℕ) : List Bytes → ReadResult
 | []=>⟨concat chunks retained,false⟩
 | chunk::rest=>
  if maxBytes<retained+chunk.length then
   let remaining:=maxBytes-retained
   if 0<remaining then ⟨concat (chunks++[chunk.take remaining]) (retained+remaining),true⟩
   else ⟨concat chunks retained,true⟩
  else readChunks maxBytes (chunks++[chunk]) (retained+chunk.length) rest

def readResponseBody (body:Option (List Bytes)) (maxBytes:ℕ) : ReadResult :=
 match body with
 | none=>⟨[],false⟩
 | some chunks=>readChunks maxBytes [] 0 chunks

lemma concat_eq {chunks:List Bytes} {n:ℕ} (hn:n=chunks.flatten.length) : concat chunks n=chunks.flatten := by
 rw [concat,hn,take_length,Nat.sub_self,replicate_zero,append_nil]

lemma readChunks_eq {rest:List Bytes} {chunks:List Bytes} {n:ℕ} (hn:n=chunks.flatten.length)
 (hk:n ≤ maxBytes) : readChunks maxBytes chunks n rest=bounded maxBytes (chunks.flatten++rest.flatten) := by
 induction rest generalizing chunks n with
 | nil=>
  rw [readChunks,concat_eq hn]
  subst hn
  simp [bounded_within hk]
 | cons chunk rest ih=>
  rw [readChunks]
  split_ifs with hc
  · subst hn
    rw [flatten_cons,bounded_crossed hk hc]
    by_cases hp : 0 < maxBytes-chunks.flatten.length
    · have ht:(chunk.take (maxBytes-chunks.flatten.length)).length=maxBytes-chunks.flatten.length:=by
       rw [length_take]
       omega
      have hl:chunks.flatten.length+(maxBytes-chunks.flatten.length)=
        (chunks++[chunk.take (maxBytes-chunks.flatten.length)]).flatten.length:=by
       rw [flatten_append,length_append,flatten_singleton,ht]
      simp only [hp,if_true,concat_eq hl,flatten_append,flatten_singleton]
    · simp only [Nat.eq_zero_of_not_pos hp,Nat.lt_irrefl,if_false,concat_eq rfl,take_zero,append_nil]
  · rw [ih (by simp [hn]) (by omega)]
    simp
end TypeScript

section
variable {s t:List Char}
lemma lower_bound (ht:Canonical t) (hl:1<t.length) : 10^(t.length-1)≤number t := by
 obtain ⟨-,hdg,rfl|hh⟩:=ht
 · simp at hl
 · cases t with
   | nil=>simp at hl
   | cons c rest=>
    obtain ⟨d,hd,rfl⟩:=digit_eq (hdg c mem_cons_self)
    exact pos_of_head hd fun h0=>hh (by rw [h0];rfl)

lemma number_lt_of_length (hs:Digits s) (ht:Canonical t) (hl:s.length<t.length) (hne:s≠[]) :
 number s<number t := by
 have hp:=List.length_pos_iff.2 hne
 calc number s
  _<10^s.length:=number_lt hs
  _≤10^(t.length-1):=Nat.pow_le_pow_right (by decide) (by omega)
  _≤number t:=lower_bound ht (by omega)

lemma number_lt_iff (hs:Canonical s) (ht:Canonical t) :
 s.length<t.length ∨ (t.length=s.length ∧ utf8 s<utf8 t) ↔ number s<number t := by
 rcases Nat.lt_trichotomy s.length t.length with hlt|heq|hgt
 · simp [hlt,number_lt_of_length hs.2.1 ht hlt hs.1]
 · simp [heq,utf8_lt_iff hs.2.1 ht.2.1 heq]
 · have hnt:=number_lt_of_length ht.2.1 hs hgt ht.1
   have hn:¬ number s<number t:=by omega
   have hl:¬ s.length<t.length:=by omega
   simp [hn,hl,Nat.ne_of_lt hgt]

lemma number_zeros (s:List Char) : number (s.dropWhile (· == '0'))=number s := by
 induction s with
 | nil=>rfl
 | cons c s ih=>
  by_cases h0 : c = '0'
  · subst h0
    have hc:number ('0'::s)=10^s.length*0+number s:=
     number_digit_cons (d := 0) (by decide) s
    rw [dropWhile_cons_of_pos (by decide),ih,hc,Nat.mul_zero,Nat.zero_add]
  · rw [dropWhile_cons_of_neg (by simpa using h0)]

lemma canonical_zeros (hs:Digits s) (hne:s.dropWhile (· == '0')≠[]) : Canonical (s.dropWhile (· == '0')) := by
 refine ⟨hne,fun c hc=>hs c ((dropWhile_sublist _).subset hc),.inr fun hh=>?_⟩
 have hn:=List.head?_dropWhile_not (· == '0') s
 rw [hh] at hn
 exact absurd hn (by decide)

lemma declaredExceeds_iff (hs:Digits s) : Python.declaredExceeds maxBytes s=true ↔ maxBytes<number s := by
 have hc:=canonical_toDigits maxBytes
 have hm:number (Nat.toDigits 10 maxBytes)=maxBytes:=Nat.ofDigitChars_ten_toDigits
 simp only [Python.declaredExceeds,decide_eq_true_eq]
 rw [←number_zeros s]
 split_ifs with hem
 · rw [number_lt_iff hc ⟨by decide,by simp [Digits],.inl rfl⟩,hm,hem]
   rfl
 · rw [number_lt_iff hc (canonical_zeros hs hem),hm]
end

/-- Both readers return the longest allowed start of the body and say whether there was more, however
  the body is cut; a declared length is refused before any chunk is read exactly if its number is too large. -/
theorem bounded_reading_exact (maxBytes:ℕ) (normalized:Option String) (contentLength:Option (List Char))
  (chunks:List Bytes) (body:Option (List Bytes)) :
  Python.readResponseBody maxBytes false normalized contentLength chunks=.ok (bounded maxBytes chunks.flatten) ∧
  TypeScript.readResponseBody body maxBytes=bounded maxBytes (body.getD []).flatten ∧
  (normalized.getD "identity"="identity" → ∀declared,declared≠[] → Digits declared →
   Python.checkLength maxBytes (some declared)=.ok (maxBytes<number declared) ∧
   Python.readResponseBody maxBytes true normalized (some declared) chunks=
    .ok (if maxBytes<number declared then ⟨[],true⟩ else Python.readRaw maxBytes [] 0 chunks)) := by
 refine ⟨?_,?_,fun hi declared hne hd=>?_⟩
 · simpa [Python.readResponseBody] using @Python.readChunks_eq maxBytes chunks [] 0 rfl (Nat.zero_le _)
 · cases body with
   | none=>simp [TypeScript.readResponseBody,bounded]
   | some chunks=>
    simpa [TypeScript.readResponseBody] using @TypeScript.readChunks_eq maxBytes chunks [] 0 rfl (Nat.zero_le _)
 · have ha:declared.all Char.isDigit=true:=List.all_eq_true.2 hd
   have hex:Python.declaredExceeds maxBytes declared=decide (maxBytes<number declared) :=
    Bool.eq_iff_iff.2 ((declaredExceeds_iff hd).trans decide_eq_true_iff.symm)
   have hc:Python.checkLength maxBytes (some declared)=.ok (maxBytes<number declared) := by
    simp only [Python.checkLength,hne,ha,not_true,or_self,if_false,hex]
   refine ⟨hc,?_⟩
   simp only [Python.readResponseBody,if_true,hi,ne_eq,not_true,if_false,hc]
   by_cases hlt : maxBytes<number declared
   · simp only [hlt,decide_true,if_true]
     rfl
   · simp only [hlt,decide_false,if_false]
     rfl

theorem zeros_before_eleven : Python.checkLength 10 (some ['0','0','1','1'])=.ok (10<number ['0','0','1','1']) :=
 ((bounded_reading_exact 10 none none [] none).2.2 rfl ['0','0','1','1'] (by decide)
  (by simp [Digits])).1
end InvariantProtocol.BoundedBodies
