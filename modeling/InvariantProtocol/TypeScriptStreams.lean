import InvariantProtocol.ByteReader
import InvariantProtocol.ChunkedDecoder
import InvariantProtocol.ConnectStream
import InvariantProtocol.ListRelations
import Mathlib.Data.List.TakeWhile
/-! What the TypeScript runtime reads from streams of byte chunks: the lines of an MCP session, and
the frames of a Connect response that it bounds. -/
namespace InvariantProtocol.TypeScriptStreams
open ByteReader ByteText ListRelations ConnectStream ChunkedDecoder
open List hiding tail

/-- What an input stream delivers; strings are encoded first. -/
inductive Chunk where
 | text (s:List Char)
 | bytes (b:Bytes)

def Chunk.toBytes : Chunk → Bytes
 | .text s=>utf8 s
 | .bytes b=>b

def dropReturn (line:Bytes) : Bytes:=if line.getLast?=some 0x0d then line.dropLast else line

def nextLine (pending:Bytes) : Option (Bytes×Option Bytes) :=
 match pending.idxOf? 0x0a with
 | none=>none
 | some newline=>some (dropReturn (pending.take newline),some (pending.drop (newline+1)))

lemma nextLine_none {p:Bytes} (h:0x0a∉p) : nextLine p=none := by
 rw [nextLine,idxOf?_eq_none_iff.2 h]

lemma nextLine_cut {front:Bytes} (h:0x0a∉front) (rest:Bytes) :
 nextLine (front++0x0a::rest)=some (dropReturn front,some rest) := by
 have hi:(front++0x0a::rest).idxOf? 0x0a=some front.length:=by
  induction front with
  | nil=>simp [idxOf?_cons]
  | cons b front ih=>
   rw [mem_cons,not_or] at h
   simp [idxOf?_cons,Ne.symm h.1,ih h.2]
 simp [nextLine,hi]

lemma nextLine_cases (p:Bytes) : nextLine p=none ∨
 ∃front rest,p=front++0x0a::rest ∧ 0x0a∉front ∧ nextLine p=some (dropReturn front,some rest) := by
 by_cases h : 0x0a∈p
 · obtain ⟨front,rest,rfl,hf⟩:=eq_append_cons_of_mem h
   exact .inr ⟨front,rest,rfl,hf,nextLine_cut hf rest⟩
 · exact .inl (nextLine_none h)

def lineDecoder : Decoder UInt8 Bytes where
 next:=nextLine
 shorter := by
  intro p x rest h
  obtain hnone|⟨front,rest',rfl,-,hcut⟩:=nextLine_cases p
  · simp [hnone] at h
  · obtain ⟨-,rfl⟩ : dropReturn front=x ∧ rest'=rest := by simpa [hcut] using h
    simp only [length_append,length_cons]
    omega
 stable := by
  intro p x r c h
  obtain hnone|⟨front,rest,rfl,hfront,hcut⟩:=nextLine_cases p
  · simp [hnone] at h
  · rw [hcut,Option.some.injEq,Prod.mk.injEq] at h
    obtain ⟨rfl,rfl⟩:=h
    rw [append_assoc,cons_append,nextLine_cut hfront]
    rfl

/-- What is yielded after the input has ended. -/
def lastLine (decoded:Decoded UInt8 Bytes) : List Bytes :=
 match decoded with
 | (out,some pending)=>if 0<pending.length then out++[dropReturn pending] else out
 | (out,none)=>out

def lines (input:List Chunk) : List Bytes :=
 lastLine (run lineDecoder [] (input.map Chunk.toBytes))

/-- The pieces between the line feeds; the last one counts if there is anything in it. -/
def pieces (bytes:Bytes) : List Bytes :=
 (bytes.splitOn 0x0a).dropLast++((bytes.splitOn 0x0a).getLast?.toList.filter (· ≠ []))

lemma lastLine_cons (x:Bytes) (decoded:Decoded UInt8 Bytes) :
 lastLine (x::decoded.1,decoded.2)=x::lastLine decoded := by
 obtain ⟨out,_|rest⟩:=decoded
 · rfl
 · simp only [lastLine]
   split_ifs <;> rfl

lemma pieces_cut {xs:Bytes} (hxs:0x0a∉xs) (ys:Bytes) : pieces (xs++0x0a::ys)=xs::pieces ys := by
 have hne:ys.splitOn 0x0a≠[]:=splitOn_ne_nil _ _
 simp only [pieces]
 rw [splitOn_append_cons_self,splitOn_eq_singleton hxs,singleton_append,
  dropLast_cons_of_ne_nil hne,List.getLast?_cons_of_ne_nil hne,cons_append]

/-- The lines are those of the whole input, however it is cut into chunks. -/
theorem lines_of_whole (input:List Chunk) :
  lines input=(pieces (input.flatMap Chunk.toBytes)).map fun piece =>
   if piece.getLast?=some 0x0d then piece.dropLast else piece := by
 change _=(pieces _).map dropReturn
 rw [lines,run_eq_drain (nextLine_none not_mem_nil),nil_append,List.flatMap]
 induction (input.map Chunk.toBytes).flatten using splitOn_induction (a := (0x0a:UInt8)) with
 | single xs hxs=>
  have hd:drain lineDecoder xs=([],some xs):=drain_idle (nextLine_none hxs)
  rw [hd,lastLine,pieces,splitOn_eq_singleton hxs]
  by_cases hem : xs=[]
  · simp [hem]
  · simp [hem,length_pos_iff]
 | cut xs ys hxs ih=>
  have hd:drain lineDecoder (xs++0x0a::ys)=andThen ([dropReturn xs],some ys) (drain lineDecoder) :=
   drain_item (nextLine_cut hxs ys)
  rw [hd,pieces_cut hxs,map_cons,← ih]
  exact lastLine_cons _ _

def connectControlMaxBytes : ℕ:=1024*1024

def resourceExhaustedEndStream : Bytes :=
 utf8 "\x7b\"error\":\x7b\"code\":\"resource_exhausted\"\x7d\x7d".toList

def resourceExhaustedEndStreamFrame : Bytes:=envelope connectEndStreamFlag resourceExhaustedEndStream

/-- One round of the inner loop of `boundConnectStreamBody`. -/
def nextFrame (maxResponseBytes:ℕ) (pending:Bytes) : Option (Bytes×Option Bytes) :=
 if pending.length<5 then none
 else
  let payloadLength:=bigEndian (pending.getD 1 0) (pending.getD 2 0) (pending.getD 3 0) (pending.getD 4 0)
  let frameLength:=5+payloadLength
  if pending.length<frameLength then none
  else
   let frame:=pending.take frameLength
   if frame.getD 0 0 &&& connectEndStreamFlag≠0 then
    some (if connectControlMaxBytes<payloadLength then resourceExhaustedEndStreamFrame else frame,none)
   else if maxResponseBytes<payloadLength then some (resourceExhaustedEndStreamFrame,none)
   else some (frame,some (pending.drop frameLength))

/-- A frame of a Connect stream, whose size has four bytes. -/
structure Frame where
 flags : UInt8
 payload : Bytes
 fits : payload.length<2^32

def Frame.bytes (f:Frame) : Bytes:=envelope f.flags f.payload

def Frame.isEnd (f:Frame) : Prop:=f.flags &&& connectEndStreamFlag≠0

instance Frame.decidableIsEnd (f:Frame) : Decidable f.isEnd:=inferInstanceAs (Decidable (_≠_))

def bounded (maxResponseBytes:ℕ) (f:Frame) (rest:Bytes) : Bytes×Option Bytes :=
 if f.isEnd then
  (if connectControlMaxBytes<f.payload.length then resourceExhaustedEndStreamFrame else f.bytes,none)
 else if maxResponseBytes<f.payload.length then (resourceExhaustedEndStreamFrame,none)
 else (f.bytes,some rest)

variable {maxResponseBytes:ℕ}
lemma nextFrame_frame (f:Frame) (rest:Bytes) :
 nextFrame maxResponseBytes (f.bytes++rest)=some (bounded maxResponseBytes f rest) := by
 have hs:=bigEndian_bytes f.fits
 have hl:(f.bytes++rest).length=5+(f.payload.length+rest.length):=by
  simp [Frame.bytes,envelope,sizeBytes]
  omega
 have ht:(f.bytes++rest).take (5+f.payload.length)=f.bytes:=by
  refine take_left' ?_
  simp [Frame.bytes,envelope,sizeBytes]
  omega
 have hd:(f.bytes++rest).drop (5+f.payload.length)=rest:=by
  refine drop_left' ?_
  simp [Frame.bytes,envelope,sizeBytes]
  omega
 have hp:bigEndian ((f.bytes++rest).getD 1 0) ((f.bytes++rest).getD 2 0)
   ((f.bytes++rest).getD 3 0) ((f.bytes++rest).getD 4 0)=f.payload.length:=by
  simpa [Frame.bytes,envelope,sizeBytes] using hs
 have hf:f.bytes.getD 0 0=f.flags:=rfl
 unfold nextFrame
 dsimp only
 rw [hp,ht,hd,hf,if_neg (by omega),if_neg (by omega)]
 simp only [bounded,Frame.isEnd]
 split_ifs <;> rfl

lemma sizeBytes_bigEndian (a b c d:UInt8) : sizeBytes (bigEndian a b c d)=[a,b,c,d] := by
 have ha:=a.toNat_lt
 have hb:=b.toNat_lt
 have hc:=c.toNat_lt
 have hd:=d.toNat_lt
 simp only [sizeBytes,bigEndian,List.cons.injEq,and_true,←UInt8.toNat_inj,UInt8.toNat_ofNat']
 omega

lemma nextFrame_cases (maxResponseBytes:ℕ) (p:Bytes) :
 nextFrame maxResponseBytes p=none ∨ ∃(f:Frame) (rest:Bytes),p=f.bytes++rest := by
 match p with
 | []=>exact .inl rfl
 | [_]=>exact .inl rfl
 | [_,_]=>exact .inl rfl
 | [_,_,_]=>exact .inl rfl
 | [_,_,_,_]=>exact .inl rfl
 | flags::a::b::c::d::tail=>
  by_cases hs : tail.length<bigEndian a b c d
  · left
    unfold nextFrame
    simp only [length_cons,getD_cons_succ,getD_cons_zero]
    rw [if_neg (by omega),if_pos (by omega)]
  · right
    have hl:(tail.take (bigEndian a b c d)).length=bigEndian a b c d:=
     length_take_of_le (Nat.le_of_not_lt hs)
    have hf:(tail.take (bigEndian a b c d)).length<2^32:=by
     have ha:=a.toNat_lt
     have hb:=b.toNat_lt
     have hc:=c.toNat_lt
     have hd:=d.toNat_lt
     rw [hl]
     unfold bigEndian
     omega
    refine ⟨⟨flags,tail.take (bigEndian a b c d),hf⟩,tail.drop (bigEndian a b c d),?_⟩
    rw [Frame.bytes,envelope,hl,sizeBytes_bigEndian]
    simp

def frameDecoder (maxResponseBytes:ℕ) : Decoder UInt8 Bytes where
 next:=nextFrame maxResponseBytes
 shorter := by
  intro p x rest h
  obtain hnone|⟨f,rest',rfl⟩:=nextFrame_cases maxResponseBytes p
  · simp [hnone] at h
  · rw [nextFrame_frame] at h
    unfold bounded at h
    split_ifs at h <;> simp at h
    rw [← h.2]
    simp [Frame.bytes,envelope,sizeBytes]
    omega
 stable := by
  intro p x r c h
  obtain hnone|⟨f,rest,rfl⟩:=nextFrame_cases maxResponseBytes p
  · simp [hnone] at h
  · rw [nextFrame_frame,Option.some.injEq] at h
    rw [append_assoc,nextFrame_frame,Option.some.injEq]
    unfold bounded at h ⊢
    split_ifs at h ⊢ <;> simp at h <;> simp [← h.1,← h.2]

def boundConnectStreamBody (body:List Bytes) (maxResponseBytes:ℕ) : List Bytes :=
 match run (frameDecoder maxResponseBytes) [] body with
 | (out,none)=>out
 | (out,some pending)=>if 0<pending.length then out++[resourceExhaustedEndStreamFrame] else out

def withinLimit (maxResponseBytes:ℕ) (f:Frame) : Bool:=f.payload.length ≤ maxResponseBytes

def exhaustedFrame : Frame where
 flags:=connectEndStreamFlag
 payload:=resourceExhaustedEndStream
 fits := by decide

/-- The frame the output ends with: the original one, if everything is within the limits. -/
def finalFrame (maxResponseBytes:ℕ) (data:List Frame) (last:Frame) : Frame :=
 if data.all (withinLimit maxResponseBytes) ∧ last.payload.length≤connectControlMaxBytes then last
 else exhaustedFrame

lemma drain_frames (maxResponseBytes:ℕ) (data:List Frame) (hd:∀f∈data,¬f.isEnd) {last:Frame} (hls:last.isEnd) :
 ∃out,drain (frameDecoder maxResponseBytes) ((data++[last]).flatMap Frame.bytes)=(out,none) ∧
  out.flatten=(data.takeWhile (withinLimit maxResponseBytes)++
   [finalFrame maxResponseBytes data last]).flatMap Frame.bytes := by
 induction data with
 | nil=>
  have hn:(frameDecoder maxResponseBytes).next (last.bytes++[])=some (bounded maxResponseBytes last []):=
   nextFrame_frame last []
  simp only [bounded,hls,if_true] at hn
  refine ⟨_,by simpa using drain_last hn,?_⟩
  by_cases hc : connectControlMaxBytes<last.payload.length
  · simp [hc,finalFrame,Nat.not_le.2 hc,resourceExhaustedEndStreamFrame,exhaustedFrame,Frame.bytes]
  · simp [hc,finalFrame,Nat.le_of_not_lt hc]
 | cons f data ih=>
  rw [forall_mem_cons] at hd
  have hn:(frameDecoder maxResponseBytes).next (f.bytes++(data++[last]).flatMap Frame.bytes) =
    some (bounded maxResponseBytes f ((data++[last]).flatMap Frame.bytes)):=nextFrame_frame f _
  simp only [bounded,hd.1,if_false] at hn
  rw [cons_append,flatMap_cons]
  by_cases hl : maxResponseBytes<f.payload.length
  · have hw:withinLimit maxResponseBytes f=false:=by simpa [withinLimit] using hl
    rw [if_pos hl] at hn
    refine ⟨_,drain_last hn,?_⟩
    simp [hw,finalFrame,resourceExhaustedEndStreamFrame,exhaustedFrame,Frame.bytes]
  · have hw:withinLimit maxResponseBytes f=true:=by simpa [withinLimit] using hl
    rw [if_neg hl] at hn
    obtain ⟨out,hdr,ho⟩:=ih hd.2
    refine ⟨f.bytes::out,?_,?_⟩
    · rw [drain_item hn]
      simp only [andThen,hdr,singleton_append]
    · have hf:finalFrame maxResponseBytes (f::data) last=finalFrame maxResponseBytes data last:=by
       simp [finalFrame,hw]
      rw [takeWhile_cons_of_pos hw,hf,flatten_cons,ho,cons_append,flatMap_cons]

lemma finalFrame_isEnd (maxResponseBytes:ℕ) (data:List Frame) {last:Frame} (hl:last.isEnd) :
 (finalFrame maxResponseBytes data last).isEnd := by
 unfold finalFrame
 split_ifs
 · exact hl
 · exact (by decide)

/-- However the stream is cut into chunks: the data frames up to the first one over the limit, and
  then one frame that ends the stream. -/
theorem bounded_stream_of_whole (body:List Bytes) (maxResponseBytes:ℕ) (data:List Frame)
  (last:Frame) (hdata:∀f∈data,¬f.isEnd) (hlast:last.isEnd)
  (hbody:body.flatten=(data++[last]).flatMap Frame.bytes) :
  ∃kept final,(boundConnectStreamBody body maxResponseBytes).flatten=(kept++[final]).flatMap Frame.bytes ∧
   kept=data.takeWhile (withinLimit maxResponseBytes) ∧ final=finalFrame maxResponseBytes data last ∧
   final.isEnd ∧ (∀f∈kept,¬f.isEnd ∧ f.payload.length ≤ maxResponseBytes) ∧
   ((∀f∈data,f.payload.length ≤ maxResponseBytes) → last.payload.length≤connectControlMaxBytes →
    (boundConnectStreamBody body maxResponseBytes).flatten=body.flatten) := by
 obtain ⟨out,hd,ho⟩:=drain_frames maxResponseBytes data hdata hlast
 have hr:boundConnectStreamBody body maxResponseBytes=out := by
  have hem:(frameDecoder maxResponseBytes).next []=none:=rfl
  rw [boundConnectStreamBody,run_eq_drain hem,nil_append,hbody,hd]
 refine ⟨_,_,by rw [hr,ho],rfl,rfl,finalFrame_isEnd _ _ hlast,fun f hf=>?_,fun hw hc=>?_⟩
 · exact ⟨hdata f (takeWhile_sublist _ |>.subset hf),by simpa [withinLimit] using mem_takeWhile_imp hf⟩
 · have ha:∀f∈data,withinLimit maxResponseBytes f=true := by simpa [withinLimit] using hw
   have hk:data.takeWhile (withinLimit maxResponseBytes)=data:=List.takeWhile_eq_self_iff.2 ha
   have hfn:finalFrame maxResponseBytes data last=last:=if_pos ⟨List.all_eq_true.2 ha,hc⟩
   rw [hr,ho,hk,hfn,hbody]

theorem long_message_bounded :
  (boundConnectStreamBody [[0,0,0],[0,2,7,7,2,0,0,0,0]] 1).flatten =
   [2,0,0,0,39]++utf8 "\x7b\"error\":\x7b\"code\":\"resource_exhausted\"\x7d\x7d".toList := by
 obtain ⟨kept,final,ho,rfl,rfl,-⟩:=bounded_stream_of_whole [[0,0,0],[0,2,7,7,2,0,0,0,0]] 1
  [⟨0,[7,7],by decide⟩] ⟨2,[],by decide⟩ (by decide) (by decide) (by decide)
 exact ho.trans (by decide)
end InvariantProtocol.TypeScriptStreams
