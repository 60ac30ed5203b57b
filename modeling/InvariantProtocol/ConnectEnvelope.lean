import InvariantProtocol.ByteReader
import InvariantProtocol.ConnectStream
import InvariantProtocol.StatusCodes
/-! The envelope of a stream request. Go reads it from the body as it arrives, Rust and Python cut it
out of the whole body. -/
namespace InvariantProtocol.ConnectEnvelope
open List ByteReader ByteText ConnectStream StatusCodes

/-- Why a request is refused: an error of the reader, or a status. -/
inductive Refusal where
 | eof
 | unexpectedEOF
 | status (code:Code) (message:String)
 deriving DecidableEq

def hexByte (b:UInt8) : String :=
 String.ofList [Nat.digitChar (b.toNat / 16),Nat.digitChar (b.toNat % 16)]

def checkFlags (flags:UInt8) : Except Refusal Unit :=
 if flags &&& ~~~0x03≠0 then
  .error (.status .invalidArgument
   ("request envelope has unsupported reserved flags 0x"++hexByte (flags &&& ~~~0x03)))
 else if flags &&& 0x01≠0 then
  .error (.status .unimplemented "compressed request envelopes are not supported")
 else if flags &&& connectEndStreamFlag≠0 then
  .error (.status .invalidArgument "request envelope must not use the end-stream flag")
 else .ok ()

def oneEnvelope : Refusal :=
 .status .invalidArgument "stream request body must contain exactly one envelope"

namespace Go

def readFull (n:ℕ) (r:List Bytes) : Except Refusal (Bytes×List Bytes) :=
 let read:=fill n r
 if read.1.length=n then .ok read
 else .error (if read.1=[] then .eof else .unexpectedEOF)

def readPayload (size:ℕ) (r:List Bytes) : Except Refusal (Bytes×List Bytes) :=
 if 0<size then readFull size r else .ok ([],r)

def sizeError (size:ℕ) (maxSize:ℤ) : Refusal :=
 .status .resourceExhausted ("request envelope size "++toString size++" exceeds " ++
  toString maxSize++" byte limit")

def readConnectEnvelope (r:List Bytes) (maxSize:ℤ) : Except Refusal Bytes :=
 match readFull 5 r with
 | .error err=>.error err
 | .ok (hdr,r)=>
  match checkFlags (hdr.getD 0 0) with
  | .error err=>.error err
  | .ok ()=>
   let size:=((hdr.getD 1 0).toUInt32 <<< 24 ||| (hdr.getD 2 0).toUInt32 <<< 16 |||
    (hdr.getD 3 0).toUInt32 <<< 8 ||| (hdr.getD 4 0).toUInt32).toNat
   if 0 < maxSize ∧ maxSize<size then .error (sizeError size maxSize)
   else
    match readPayload size r with
    | .error err=>.error err
    | .ok (buf,r)=>
     -- of what follows at most one byte is read
     if (fill 1 r).1≠[] then .error oneEnvelope else .ok buf
end Go

/-- The decoders that are given the whole body; they differ in the text for a size above the limit. -/
def unpackBody (size:UInt8 → UInt8 → UInt8 → UInt8 → ℕ) (tooLarge:ℕ → Refusal) (data:Bytes)
  (max:ℕ) : Except Refusal (UInt8×Bytes) :=
 if data.length<5 then
  .error (.status .invalidArgument "stream request body shorter than envelope header")
 else
  match checkFlags (data.getD 0 0) with
  | .error err=>.error err
  | .ok ()=>
   let size:=size (data.getD 1 0) (data.getD 2 0) (data.getD 3 0) (data.getD 4 0)
   if max<size then .error (tooLarge size)
   else if data.length<5+size then
    .error (.status .invalidArgument "stream request body truncated")
   else if data.length≠5+size then .error oneEnvelope
   else .ok (data.getD 0 0,(data.drop 5).take size)

namespace Rust

def packEnvelope (flags:UInt8) (payload:Bytes) : Bytes :=
 let size:=UInt32.ofNat payload.length
 flags::[(size >>> 24).toUInt8,(size >>> 16).toUInt8,(size >>> 8).toUInt8,size.toUInt8] ++
  payload

def unpackEnvelope (data:Bytes) (maxMessageBytes:ℕ) : Except Refusal (UInt8×Bytes) :=
 unpackBody bigEndian
  (fun _=>.status .resourceExhausted
   ("stream request message exceeds "++toString maxMessageBytes++" byte limit"))
  data maxMessageBytes
end Rust

namespace Python

def packEnvelope (flags:UInt8) (payload:Bytes) : Bytes :=
 let size:=payload.length
 flags::[UInt8.ofNat (size >>> 24 &&& 0xFF),UInt8.ofNat (size >>> 16 &&& 0xFF),
  UInt8.ofNat (size >>> 8 &&& 0xFF),UInt8.ofNat (size &&& 0xFF)]++payload

def unpackEnvelope (data:Bytes) (maxSize:ℕ) : Except Refusal (UInt8×Bytes) :=
 unpackBody
  (fun a b c d=>a.toNat <<< 24 ||| b.toNat <<< 16 ||| c.toNat <<< 8 ||| d.toNat)
  (fun size=>.status .resourceExhausted ("request envelope size "++toString size ++
   " exceeds "++toString maxSize++" byte limit"))
  data maxSize
end Python

def DataFrame (max:ℕ) (data payload:Bytes) : Prop :=
 ∃a b c d : UInt8,data=0::a::b::c::d::payload ∧
  bigEndian a b c d=payload.length ∧ payload.length ≤ max

section

lemma checkFlags_ok {flags:UInt8} : checkFlags flags=.ok () ↔ flags=0 := by
 have ha:∀n : Fin 256,checkFlags (UInt8.ofFin n)=.ok () ↔ n=0:=by decide +kernel
 have hf:=ha flags.toFin
 rw [UInt8.ofFin_toFin] at hf
 rw [hf,←UInt8.toFin_inj]
 rfl

lemma checkFlags_cases (flags:UInt8) :
 flags=0 ∧ checkFlags flags=.ok () ∨ flags≠0 ∧ ∃err,checkFlags flags=.error err := by
 cases h : checkFlags flags with
 | ok _=>exact .inl ⟨checkFlags_ok.1 h,rfl⟩
 | error err=>
  refine .inr ⟨fun hz=>?_,err,rfl⟩
  rw [checkFlags_ok.2 hz] at h
  cases h

variable {data:Bytes} {max:ℕ} {payload:Bytes} {n:ℕ} {r:List Bytes}
lemma getD_of_five (h:5≤data.length) : ∃f a b c d rest,data=f::a::b::c::d::rest := by
 match data,h with
 | f::a::b::c::d::rest,_=>exact ⟨f,a,b,c,d,rest,rfl⟩

lemma dataFrame_cons {f a b c d:UInt8} {rest:Bytes} : DataFrame max (f::a::b::c::d::rest) payload ↔
  f=0 ∧ rest=payload ∧ bigEndian a b c d=payload.length ∧ payload.length ≤ max := by
 constructor
 · rintro ⟨a',b',c',d',heq,hs,hm⟩
   simp only [List.cons.injEq] at heq
   obtain ⟨rfl,rfl,rfl,rfl,rfl,rfl⟩:=heq
   exact ⟨rfl,rfl,hs,hm⟩
 · rintro ⟨rfl,rfl,hs,hm⟩
   exact ⟨a,b,c,d,rfl,hs,hm⟩

lemma not_dataFrame_of_short (h:data.length<5) : ¬ DataFrame max data payload := by
 rintro ⟨a,b,c,d,rfl,-⟩
 simp at h
 omega

lemma unpackBody_ok {size:UInt8 → UInt8 → UInt8 → UInt8 → ℕ}
 (hsz:∀a b c d,size a b c d=bigEndian a b c d) {tooLarge:ℕ → Refusal} {flags:UInt8} :
 unpackBody size tooLarge data max=.ok (flags,payload) ↔
  flags=0 ∧ DataFrame max data payload := by
 by_cases hs : data.length<5
 · simp [unpackBody,hs,not_dataFrame_of_short hs]
 · obtain ⟨f,a,b,c,d,rest,rfl⟩:=getD_of_five (Nat.le_of_not_lt hs)
   rw [dataFrame_cons,unpackBody,if_neg hs]
   obtain ⟨rfl,hf⟩|⟨hne,err,hf⟩:=checkFlags_cases f
   · simp only [getD_cons_zero,getD_cons_succ,hf,hsz,length_cons,drop_succ_cons,
      drop_zero,true_and]
     split_ifs with hm ht hex
     · refine iff_of_false (by simp) ?_
       omega
     · refine iff_of_false (by simp) ?_
       rintro ⟨-,rfl,hl,-⟩
       omega
     · refine iff_of_false (by simp) ?_
       rintro ⟨-,rfl,hl,-⟩
       omega
     · have hl:bigEndian a b c d=rest.length:=by omega
       rw [hl,take_length,Except.ok.injEq,Prod.mk.injEq]
       constructor
       · rintro ⟨rfl,rfl⟩
         exact ⟨rfl,rfl,rfl,by omega⟩
       · rintro ⟨rfl,rfl,-,-⟩
         exact ⟨rfl,rfl⟩
   · simp [hf,hne]

lemma readFull_of_le (h:n≤r.flatten.length) :
 ∃rest,Go.readFull n r=.ok (r.flatten.take n,rest) ∧ rest.flatten=r.flatten.drop n := by
 refine ⟨(fill n r).2,?_,fill_snd n r⟩
 have hl:(fill n r).1.length=n:=by
  rw [fill_fst,length_take,Nat.min_eq_left h]
 rw [Go.readFull,if_pos hl,←fill_fst]

lemma readFull_of_lt (h:r.flatten.length<n) : ∃err,Go.readFull n r=.error err := by
 refine ⟨_,if_neg ?_⟩
 rw [fill_fst,length_take]
 omega

lemma readPayload_of_le (h:n≤r.flatten.length) :
 ∃rest,Go.readPayload n r=.ok (r.flatten.take n,rest) ∧ rest.flatten=r.flatten.drop n := by
 unfold Go.readPayload
 split_ifs with hn
 · exact readFull_of_le h
 · obtain rfl : n=0:=by omega
   exact ⟨r,rfl,rfl⟩

lemma readPayload_of_lt (h:r.flatten.length<n) : ∃err,Go.readPayload n r=.error err := by
 rw [Go.readPayload,if_pos (by omega)]
 exact readFull_of_lt h

lemma readConnectEnvelope_ok (hm:0 < max) :
 Go.readConnectEnvelope r max=.ok payload ↔ DataFrame max r.flatten payload := by
 by_cases hs : r.flatten.length<5
 · obtain ⟨err,her⟩:=readFull_of_lt hs
   simp [Go.readConnectEnvelope,her,not_dataFrame_of_short hs]
 · obtain ⟨rest,hh,hr⟩:=readFull_of_le (Nat.le_of_not_lt hs)
   obtain ⟨f,a,b,c,d,body,hb⟩:=getD_of_five (Nat.le_of_not_lt hs)
   rw [hb] at hr hh
   simp only [take_succ_cons,take_zero,drop_succ_cons,drop_zero] at hr hh
   rw [hb,dataFrame_cons,Go.readConnectEnvelope,hh]
   obtain ⟨rfl,hf⟩|⟨hne,err,hf⟩:=checkFlags_cases f
   · simp only [getD_cons_zero,getD_cons_succ,hf,shift_or_word,true_and]
     split_ifs with hsz
     · refine iff_of_false (by simp) ?_
       omega
     · by_cases ht : body.length<bigEndian a b c d
       · obtain ⟨err,her⟩:=readPayload_of_lt (hr ▸ ht)
         rw [her]
         refine iff_of_false (by simp) ?_
         rintro ⟨rfl,hl,-⟩
         omega
       · obtain ⟨left,hrd,hlf⟩:=readPayload_of_le (hr ▸ Nat.le_of_not_lt ht)
         rw [hrd]
         have hn:(fill 1 left).1≠[] ↔ bigEndian a b c d<body.length:=by
          rw [fill_fst,hlf,hr,Ne,take_eq_nil_iff,drop_eq_nil_iff]
          omega
         simp only [hn,hr]
         split_ifs with hex
         · refine iff_of_false (by simp) ?_
           rintro ⟨rfl,hl,-⟩
           omega
         · have hl:bigEndian a b c d=body.length:=by omega
           rw [hl,take_length,Except.ok.injEq]
           constructor
           · rintro rfl
             exact ⟨rfl,rfl,by omega⟩
           · rintro ⟨rfl,-,-⟩
             rfl
   · simp [hf,hne]
end

section
variable {payload:Bytes}
lemma dataFrame_envelope {max:ℕ} (hs:payload.length<2^32) (hm:payload.length ≤ max) :
 DataFrame max (envelope 0 payload) payload :=
 ⟨_,_,_,_,rfl,bigEndian_bytes hs,hm⟩

lemma rust_packEnvelope (flags:UInt8) (hs:payload.length<2^32) :
 Rust.packEnvelope flags payload=envelope flags payload := by
 have hl:(UInt32.ofNat payload.length).toNat=payload.length:=
  UInt32.toNat_ofNat_of_lt hs
 have hb:∀{b:UInt8} {n:ℕ},b.toNat=n % 256 → b=UInt8.ofNat n:=by
  intro b n h
  rw [←UInt8.toNat_inj,UInt8.toNat_ofNat',h]
 simp only [Rust.packEnvelope,envelope,sizeBytes]
 congr 2
 refine List.cons_eq_cons.2 ⟨hb ?_,List.cons_eq_cons.2 ⟨hb ?_,List.cons_eq_cons.2
  ⟨hb ?_,List.cons_eq_cons.2 ⟨hb ?_,rfl⟩⟩⟩⟩
 all_goals
  simp [UInt32.toNat_toUInt8,UInt32.toNat_shiftRight,hl,Nat.shiftRight_eq_div_pow]

lemma python_packEnvelope (flags:UInt8) : Python.packEnvelope flags payload=envelope flags payload := by
 have hb:∀n : ℕ,UInt8.ofNat (n &&& 0xFF)=UInt8.ofNat n:=by
  intro n
  have hm:n &&& 0xFF=n % 2^8:=Nat.and_two_pow_sub_one_eq_mod n 8
  rw [hm,←UInt8.toNat_inj,UInt8.toNat_ofNat',UInt8.toNat_ofNat',Nat.mod_mod]
 simp only [Python.packEnvelope,envelope,sizeBytes,hb,Nat.shiftRight_eq_div_pow]
end

inductive Runtime where
 | go
 | rust
 | python

def encode : Runtime → UInt8 → Bytes → Except GoError Bytes
 | .go,flags,payload=>writeConnectEnvelope flags payload
 | .rust,flags,payload=>.ok (Rust.packEnvelope flags payload)
 | .python,flags,payload=>.ok (Python.packEnvelope flags payload)

def decode : Runtime → ℕ → List Bytes → Except Refusal Bytes
 | .go,max,chunks=>Go.readConnectEnvelope chunks max
 | .rust,max,chunks=>(Rust.unpackEnvelope chunks.flatten max).map Prod.snd
 | .python,max,chunks=>(Python.unpackEnvelope chunks.flatten max).map Prod.snd

variable {payload:Bytes}
lemma decode_ok (reader:Runtime) {max:ℕ} (hm:0 < max) {chunks:List Bytes} :
 decode reader max chunks=.ok payload ↔ DataFrame max chunks.flatten payload := by
 have hs:∀result : Except Refusal (UInt8×Bytes),
   result.map Prod.snd=.ok payload ↔ ∃flags,result=.ok (flags,payload):=by
  intro result
  cases result with
  | error err=>simp [Except.map]
  | ok pair=>simp [Except.map,Prod.ext_iff]
 cases reader with
 | go=>exact readConnectEnvelope_ok hm
 | rust=>simp [decode,hs,Rust.unpackEnvelope,unpackBody_ok]
 | python=>simp [decode,hs,Python.unpackEnvelope,unpackBody_ok shift_or_nat]

lemma encode_frame (writer:Runtime) (hs:payload.length≤2^32-1) :
 encode writer 0 payload=.ok (envelope 0 payload) := by
 cases writer with
 | go=>exact if_neg (by omega)
 | rust=>exact congrArg Except.ok (rust_packEnvelope 0 (by omega))
 | python=>exact congrArg Except.ok (python_packEnvelope 0)

/-- The decoders accept exactly one data frame within the limit, however the body arrives, and read
back what any of the encoders wrote. -/
theorem envelope_codecs (max:ℕ) (hmax:0 < max) : (∀reader chunks payload,
   decode reader max chunks=.ok payload ↔ DataFrame max chunks.flatten payload) ∧
  (∀payload,payload.length ≤ min max (2^32-1) → ∀writer reader,∃data,
   encode writer 0 payload=.ok data ∧
    ∀chunks : List Bytes,chunks.flatten=data → decode reader max chunks=.ok payload) := by
 refine ⟨fun reader chunks payload=>decode_ok reader hmax,?_⟩
 intro payload hl writer reader
 rw [Nat.le_min] at hl
 refine ⟨_,encode_frame writer hl.2,fun chunks hc=>?_⟩
 rw [decode_ok reader hmax,hc]
 exact dataFrame_envelope (by omega) hl.1

theorem envelope_codecs_small : (0<4 ∧ decode .go 4 [[0,0,0],[0],[2,7],[],[8]]=.ok [7,8]) ∧
   ∃data,encode .rust 0 [7,8]=.ok data ∧
    ∀chunks : List Bytes,chunks.flatten=data → decode .python 4 chunks=.ok [7,8] :=
 ⟨⟨by decide,((envelope_codecs 4 (by decide)).1 _ _ _).2 ⟨0,0,0,2,rfl,rfl,by decide⟩⟩,
  (envelope_codecs 4 (by decide)).2 [7,8] (by decide) .rust .python⟩
end InvariantProtocol.ConnectEnvelope
