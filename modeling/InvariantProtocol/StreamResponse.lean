import InvariantProtocol.ConnectStream
namespace InvariantProtocol.ConnectStream
open List ByteText JsonText ConnectErrors

section
variable {Msg:Type} {entry:Endpoint Msg}
variable {s:Stream} {err:GoError} {msg:Msg} {ops:List (Op Msg)}
  {before:List (Op Msg×Option GoError)}
lemma headerSent_step (h:s.headerSent=true) (op:Op Msg) : (step entry op s).2.headerSent=true := by
 cases op with
 | setHeader md=>simp [step,setHeader,h]
 | sendHeader md=>simp [step,sendHeader,h]
 | setTrailer md=>exact h
 | sendMsg msg=>
  change (sendMsg entry msg s).2.headerSent=true
  cases hs : s.sendErr with
  | some err=>
   rw [sendMsg_of_sendErr hs]
   exact h
  | none=>
   obtain ⟨err,s',rfl|rfl,heq⟩|⟨payload,-,-,heq⟩:=sendMsg_cases hs msg
   · rw [heq]
   · rw [heq]
     exact commit_headerSent _
   · rw [heq]
     exact commit_headerSent _

lemma sendErr_step (h:s.sendErr=some err) (op:Op Msg) : (step entry op s).2.sendErr=some err := by
 cases op with
 | setHeader md=>
  simp only [step,setHeader]
  split <;> exact h
 | sendHeader md=>
  simp only [step,sendHeader]
  split
  · exact h
  · rw [commit_sendErr]
    exact h
 | setTrailer md=>exact h
 | sendMsg msg=>
  change (sendMsg entry msg s).2.sendErr=some err
  rw [sendMsg_of_sendErr h]
  exact h

variable {call:Op Msg×Option GoError}
lemma headers_fail (h:s.headerSent=true) (ops:List (Op Msg))
 (hc:call∈(run entry ops s).1) (hh:call.1.isHeader=true) : call.2.isSome=true := by
 induction ops generalizing s with
 | nil=>cases hc
 | cons op ops ih=>
  obtain rfl|hc:=mem_cons.1 hc
  · cases op with
    | setHeader md=>simp [step,setHeader,h]
    | sendHeader md=>simp [step,sendHeader,h]
    | setTrailer md | sendMsg msg=>cases hh
  · exact ih (headerSent_step h op) hc

variable {result:Option GoError}
lemma sends_fail (h:s.sendErr=some err) (ops:List (Op Msg))
 (hc:(.sendMsg msg,result)∈(run entry ops s).1) : result=some err := by
 induction ops generalizing s with
 | nil=>cases hc
 | cons op ops ih=>
  obtain heq|hc:=mem_cons.1 hc
  · cases heq
    change (sendMsg entry msg s).1=some err
    rw [sendMsg_of_sendErr h]
  · exact ih (sendErr_step h op) hc

variable {after:List (Op Msg×Option GoError)}
lemma run_split {calls:List (Op Msg×Option GoError)} (ha:After entry calls s)
 (h:(run entry ops s).1=before++call::after) :
 ∃s' rest,After entry (calls++before) s' ∧ call.2=(step entry call.1 s').1 ∧
  after=(run entry rest (step entry call.1 s').2).1 := by
 induction ops generalizing s calls before with
 | nil=>simp [run] at h
 | cons op ops ih=>
  rw [run] at h
  cases before with
  | nil=>
   obtain ⟨rfl,rfl⟩:=cons.inj h
   exact ⟨s,ops,by simpa using ha,rfl,rfl⟩
  | cons first before=>
   obtain ⟨rfl,hr⟩:=cons.inj h
   have hs:=ih (after_step ha op) hr
   rw [append_assoc,singleton_append] at hs
   exact hs

lemma sendErr_of_failed (h:(step entry (.sendMsg msg) s).1=some err) :
 (step entry (.sendMsg msg) s).2.sendErr=some err := by
 change (sendMsg entry msg s).1=some err at h
 change (sendMsg entry msg s).2.sendErr=some err
 cases hs : s.sendErr with
 | some err' =>
  rw [sendMsg_of_sendErr hs] at h ⊢
  rw [hs]
  exact h
 | none=>
  obtain ⟨err',s',-,heq⟩|⟨payload,-,-,heq⟩:=sendMsg_cases hs msg
  · rw [heq] at h ⊢
    exact h
  · rw [heq] at h
    cases h

lemma later_headers_fail {later:Op Msg×Option GoError}
 (h:(run entry ops {}).1=before++call::after) (hc:call.1.commits=true)
 (hl:later∈after) (hh:later.1.isHeader=true) : later.2.isSome=true := by
 obtain ⟨s',rest,ha,hr,rfl⟩:=run_split (after_nil entry) h
 have hs:(step entry call.1 s').2.headerSent=true:=by
  rw [(after_step ha call.1).headerSent]
  simp [hc]
 exact headers_fail hs rest hl hh

lemma later_sends_fail (h:(run entry ops {}).1=before++(.sendMsg msg,some err)::after) {later:Msg}
 (hl:(.sendMsg later,result)∈after) : result=some err := by
 obtain ⟨s',rest,-,hr,rfl⟩:=run_split (after_nil entry) h
 exact sends_fail (sendErr_of_failed hr.symm) rest hl
end

section
open JsonValue

/-- The payload is a JSON object with an error. -/
def ReportsError (payload:Bytes) : Prop :=
 ∃members v,parse goDialect (runes payload)=some (.object members) ∧
  (JsonValue.text "error",v)∈members

variable {members:List (List Char×Doc)}
lemma membersDepth_le {n:ℕ} (h:∀m∈members,m.2.depth≤n) :
 membersDepth members≤n := by
 induction members with
 | nil=>exact Nat.zero_le n
 | cons m members ih=>
  obtain ⟨hm,hmm⟩:=forall_mem_cons.1 h
  obtain ⟨name,d⟩:=m
  rw [membersDepth]
  exact Nat.max_le.2 ⟨hm,ih hmm⟩

lemma itemsDepth_strings (values:List (List Char)) : itemsDepth (values.map Doc.string)=0 := by
 induction values with
 | nil=>rfl
 | cons value values ih=>
  rw [map_cons,itemsDepth,ih]
  rfl

lemma depth_goMap_le {n:ℕ} (h:∀m∈members,m.2.depth≤n) : (goMap members).depth≤n+1 := by
 rw [goMap,Doc.depth]
 have hle:membersDepth (members.insertionSort fun m m' => m.1 ≤ m'.1)≤n:=by
  apply membersDepth_le
  intro m hm
  exact h m ((mem_insertionSort _).1 hm)
 omega

lemma depth_endStream (streamErr:Option GoError) (trailer:MD) : (endStream streamErr trailer).depth≤4 := by
 unfold endStream
 apply depth_goMap_le
 intro m hm
 obtain hm|hm:=mem_append.1 hm
 · cases streamErr with
   | none=>cases hm
   | some err=>
    rw [mem_singleton.1 hm]
    exact depth_connectErrorPayload _
 · split_ifs at hm
   · rw [mem_singleton.1 hm]
     refine le_trans (depth_goMap_le (n := 1) ?_) (by decide)
     intro field hf
     obtain ⟨entry,-,rfl⟩:=mem_map.1 hf
     rw [Doc.depth,itemsDepth_strings]
   · cases hm

lemma reportsError_endStream (err:GoError) (trailer:MD) :
 ReportsError (marshal (endStream (some err) trailer)) := by
 have hd:(endStream (some err) trailer).depth≤goDialect.maxDepth:=
  le_trans (depth_endStream (some err) trailer) (by decide)
 have hp:=undone_escape.parse_print goDialect _ hd
 unfold ReportsError marshal
 rw [runes_utf8,hp]
 unfold endStream
 dsimp only
 split_ifs
 · exact ⟨_,_,rfl,mem_cons_self⟩
 · exact ⟨_,_,rfl,mem_cons_self⟩

lemma reportsError_payload (err:GoError) (trailer:MD) :
 ReportsError (connectEndStreamPayload (some err) trailer) := by
 unfold connectEndStreamPayload
 dsimp only
 split_ifs
 · exact reportsError_endStream err trailer
 · exact reportsError_endStream _ []

lemma length_payload_lt (streamErr:Option GoError) (trailer:MD) :
 (connectEndStreamPayload streamErr trailer).length<2^32 := by
 have hf:(marshal (endStream (some (.status controlLimitError)) [])).length<2^32:=by
  decide
 unfold connectEndStreamPayload
 dsimp only
 split_ifs with h
 · exact lt_of_le_of_lt h (by decide)
 · exact hf
end

section
open JsonValue

/-- A key that a response carries: none of the transport's own and none that is internal. -/
def Carried (key:List Char) : Prop :=
 key≠[] ∧ (∀c∈key,('a' ≤ c ∧ c ≤ 'z') ∨ ('0' ≤ c ∧ c ≤ '9') ∨ c∈['-','_','.']) ∧
 (∀start∈["grpc-","connect-","trailer-","invariant-internal-","x-invariant-internal-"],
  ¬ start.toList <+: key) ∧
 ∀name∈["content-length","content-type","content-encoding","transfer-encoding","accept-encoding",
  "connection","keep-alive","proxy-connection","te","trailer","upgrade","host"],name.toList≠key

instance carriedDecidable : DecidablePred Carried:=fun _=>inferInstanceAs (Decidable (_ ∧ _))

/-- The fields that metadata are written as: the keys in lower case, the values of binary keys in
base64; other values are left out where they are not printable. -/
def carriedFields (md:MD) : List (List Char×List Char) :=
 md.flatMap fun entry=>entry.2.filterMap fun value=>
  let key:=(runes entry.1).map lowerRune
  if ¬ Carried key then none
  else if "-bin".toList <:+ key then some (key,encodeRaw value)
  else if value.all fun b=>0x20≤b ∧ b≤0x7e then some (key,runes value) else none

lemma carried_iff {key : List Char} :
 Carried key ↔ reservedResponseMetadata key=false ∧ validMetadataKey key=true := by
 have hr : reservedResponseMetadata key=false ↔
   (∀start∈reservedPrefixes,¬ start.toList <+: key) ∧ ∀name∈reservedKeys,name.toList≠key := by
  simp [reservedResponseMetadata]
 have hv : validMetadataKey key=true ↔ key≠[] ∧
   ∀c∈key,('a' ≤ c ∧ c ≤ 'z') ∨ ('0' ≤ c ∧ c ≤ '9') ∨ c∈['-','_','.'] := by
  simp [validMetadataKey,or_assoc]
 rw [hr,hv,Carried,reservedPrefixes,reservedKeys]
 tauto

lemma metadataFields_eq (md : MD) : metadataFields md=carriedFields md := by
 refine flatMap_congr fun entry _=>?_
 dsimp only
 by_cases hc : Carried ((runes entry.1).map lowerRune)
 · obtain ⟨hr,hv⟩:=carried_iff.1 hc
   simp only [hr,hv,Bool.not_true,Bool.or_self,Bool.false_eq_true,if_false,hc,not_true_eq_false]
   refine filterMap_congr fun value _=>?_
   simp only [metadataValue,validASCIIMetadataValue,isSuffixOf_iff_suffix,all_eq_true,
    Bool.and_eq_true,decide_eq_true_eq]
   split_ifs <;> rfl
 · have hn:(reservedResponseMetadata ((runes entry.1).map lowerRune) ||
     !validMetadataKey ((runes entry.1).map lowerRune))=true := by
    by_contra h
    simp only [Bool.or_eq_true,Bool.not_eq_true',not_or,Bool.not_eq_true,Bool.not_eq_false] at h
    exact hc (carried_iff.2 h)
   simp [hn,hc]

/-- An end of stream has these metadata: under each key an array of the values of its fields. -/
def HasMetadata (payload:Bytes) (fields:List (List Char×List Char)) : Prop :=
 ∃members metadata,parse goDialect (runes payload)=some (.object members) ∧
  (∀v,(JsonValue.text "metadata",v)∈members ↔ fields≠[] ∧ v=.object metadata) ∧
  ∀name v,(name,v)∈metadata ↔ ∃field∈fields,name=field.1.map Char.toNat ∧
   v=.array ((fields.filter (·.1=field.1)).map fun f=>.string (f.2.map Char.toNat))

section
variable {K V : Type} [DecidableEq K]
lemma mem_appendValues {key k : K} {values vs : List V} {md : List (K×List V)}
 (hk : (md.map Prod.fst).Nodup) : (k,vs)∈appendValues key values md ↔
  (k≠key ∧ (k,vs)∈md) ∨ k=key ∧ ∃old,vs=old++values ∧ ((key,old)∈md ∨ (∀vs,(key,vs)∉md) ∧ old=[]) := by
 induction md with
 | nil=>simp [appendValues]
 | cons entry md ih=>
  obtain ⟨e,old⟩:=entry
  rw [map_cons,nodup_cons] at hk
  have hno:∀vs,(e,vs)∉md:=fun vs h=>hk.1 (mem_map.2 ⟨_,h,rfl⟩)
  by_cases he : e=key
  · subst he
    rw [appendValues,if_pos rfl]
    by_cases hke : k=e
    · subst hke
      simp [hno]
    · simp [hke]
  · rw [appendValues,if_neg he,mem_cons,ih hk.2]
    by_cases hke : k=key
    · subst hke
      simp [Ne.symm he]
    · simp [hke]

/-- Each key of the fields once, with the values of its fields in their order. -/
structure Grouped (fields : List (K×V)) (out : List (K×List V)) : Prop where
 keys : (out.map Prod.fst).Nodup
 mem_iff : ∀key values,(key,values)∈out ↔
  (∃field∈fields,field.1=key) ∧ values=(fields.filter (·.1=key)).map Prod.snd

lemma Grouped.append {fields : List (K×V)} {out : List (K×List V)} (h : Grouped fields out) (f : K×V) :
 Grouped (fields++[f]) (appendValues f.1 [f.2] out) := by
 refine ⟨keys_appendValues _ _ _ h.keys,fun key values=>?_⟩
 rw [mem_appendValues h.keys]
 by_cases hk : key=f.1
 · subst hk
   have ho:∀old,((f.1,old)∈out ∨ (∀vs,(f.1,vs)∉out) ∧ old=[]) ↔ old=(fields.filter (·.1=f.1)).map Prod.snd := by
    intro old
    simp only [h.mem_iff]
    by_cases hf : ∃field∈fields,field.1=f.1
    · simp only [hf,true_and]
      exact ⟨fun h=>h.elim id fun h=>absurd rfl (h.1 _),.inl⟩
    · have hnil:fields.filter (·.1=f.1)=[]:=
       filter_eq_nil_iff.2 fun field hmem he=>hf ⟨field,hmem,of_decide_eq_true he⟩
      simp [hf,hnil]
   simp only [ho]
   simp
 · simp [h.mem_iff,hk,Ne.symm hk]
end

lemma connectEndStreamMetadata_grouped (md : MD) :
 Grouped (carriedFields md) (connectEndStreamMetadata md) := by
 rw [←metadataFields_eq,connectEndStreamMetadata]
 induction metadataFields md using reverseRecOn with
 | nil=>exact ⟨nodup_nil,by simp⟩
 | append_singleton fields f ih=>
  rw [foldl_append]
  exact ih.append f

lemma connectEndStreamMetadata_pos (md : MD) :
 (connectEndStreamMetadata md).length>0 ↔ carriedFields md≠[] := by
 have hg:=(connectEndStreamMetadata_grouped md).mem_iff
 rw [gt_iff_lt,length_pos_iff_exists_mem]
 constructor
 · rintro ⟨⟨key,values⟩,h⟩
   obtain ⟨⟨field,hf,-⟩,-⟩:=(hg key values).1 h
   exact ne_nil_of_mem hf
 · intro h
   obtain ⟨field,hf⟩:=exists_mem_of_ne_nil _ h
   exact ⟨_,(hg _ _).2 ⟨⟨field,hf,rfl⟩,rfl⟩⟩

lemma value_goMap (members : List (List Char×Doc)) : ∃ms,(goMap members).value=.object ms ∧
 ∀name v,(name,v)∈ms ↔ ∃m∈members,name=m.1.map Char.toNat ∧ v=m.2.value := by
 have hm:∀members : List (List Char×Doc),memberValues members=members.map fun m=>(m.1.map Char.toNat,m.2.value) := by
  intro members
  induction members with
  | nil=>rfl
  | cons m members ih=>rw [memberValues,ih,map_cons]
 refine ⟨_,rfl,fun name v=>?_⟩
 simp [hm,mem_insertionSort,eq_comm]

lemma values_strings (texts : List (List Char)) :
 values (texts.map Doc.string)=texts.map fun t=>.string (t.map Char.toNat) := by
 induction texts with
 | nil=>rfl
 | cons t texts ih=>rw [map_cons,values,ih,map_cons,Doc.value]

lemma hasMetadata_endStream (streamErr : Option GoError) (trailer : MD) :
 HasMetadata (marshal (endStream streamErr trailer)) (carriedFields trailer) := by
 have hd:(endStream streamErr trailer).depth≤goDialect.maxDepth:=
  le_trans (depth_endStream streamErr trailer) (by decide)
 have hg:=(connectEndStreamMetadata_grouped trailer).mem_iff
 have hlen:=connectEndStreamMetadata_pos trailer
 obtain ⟨metadata,hmd,hf⟩:=value_goMap
  ((connectEndStreamMetadata trailer).map fun field=>(field.1,Doc.array (field.2.map .string)))
 obtain ⟨members,hv,hm⟩ : ∃ms,(endStream streamErr trailer).value=.object ms ∧ _:=value_goMap _
 refine ⟨members,metadata,?_,fun v=>?_,fun name v=>?_⟩
 · rw [marshal,runes_utf8,undone_escape.parse_print goDialect _ hd,hv]
 · rw [hm]
   cases streamErr with
   | none=>
    by_cases hl : (connectEndStreamMetadata trailer).length>0
    · simp [hl,hmd,hlen.1 hl,JsonValue.text]
    · simp [hl,mt hlen.2 hl]
   | some err=>
    by_cases hl : (connectEndStreamMetadata trailer).length>0
    · simp [hl,hmd,hlen.1 hl,JsonValue.text]
    · simp [hl,mt hlen.2 hl,JsonValue.text]
 · rw [hf]
   have ha:∀texts : List (List Char×List Char),(Doc.array ((texts.map Prod.snd).map .string)).value =
     .array (texts.map fun f=>.string (f.2.map Char.toNat)) := by
    intro texts
    rw [Doc.value,values_strings,map_map]
    rfl
   constructor
   · rintro ⟨_,hm,rfl,rfl⟩
     obtain ⟨⟨key,texts⟩,hk,rfl⟩:=mem_map.1 hm
     obtain ⟨⟨field,hfm,rfl⟩,rfl⟩:=(hg _ _).1 hk
     exact ⟨field,hfm,rfl,ha _⟩
   · rintro ⟨field,hfm,rfl,rfl⟩
     exact ⟨_,mem_map_of_mem ((hg _ _).2 ⟨⟨field,hfm,rfl⟩,rfl⟩),rfl,(ha _).symm⟩
end

/-- The flags and the payload of the first envelope, and what follows it. -/
def readEnvelope : Bytes → Option ((UInt8×Bytes)×Bytes)
 | flags::a::b::c::d::rest=>
  let size:=a.toNat*2^24+b.toNat*2^16+c.toNat*2^8+d.toNat
  if size≤rest.length then some ((flags,rest.take size),rest.drop size) else none
 | _=>none

def readEnvelopes : ℕ → Bytes → Option (List (UInt8×Bytes))
 | _,[]=>some []
 | 0,_=>none
 | fuel+1,b::bs=>do
  let (first,rest) ← readEnvelope (b::bs)
  let others ← readEnvelopes fuel rest
  some (first::others)

def writeEnvelopes (envelopes:List (UInt8×Bytes)) : Bytes :=
 envelopes.flatMap fun e=>envelope e.1 e.2

lemma readEnvelope_envelope (flags:UInt8) {payload:Bytes} (h:payload.length<2^32)
 (rest:Bytes) : readEnvelope (envelope flags payload++rest)=some ((flags,payload),rest) := by
 have hs:payload.length / 2^24 % 256*2^24+payload.length / 2^16 % 256*2^16 +
   payload.length / 2^8 % 256*2^8+payload.length % 256=payload.length:=by omega
 simp only [envelope,sizeBytes,cons_append,nil_append,readEnvelope,UInt8.toNat_ofNat',hs]
 simp

lemma readEnvelopes_writeEnvelopes {envelopes:List (UInt8×Bytes)}
 (h:∀e∈envelopes,e.2.length<2^32) {fuel:ℕ} (hf:envelopes.length≤fuel) :
 readEnvelopes fuel (writeEnvelopes envelopes)=some envelopes := by
 induction envelopes generalizing fuel with
 | nil=>cases fuel <;> rfl
 | cons first envelopes ih=>
  obtain ⟨hfr,ho⟩:=forall_mem_cons.1 h
  cases fuel with
  | zero=>cases hf
  | succ fuel=>
   have hr:=readEnvelope_envelope first.1 hfr (writeEnvelopes envelopes)
   have hw:writeEnvelopes (first::envelopes) =
     first.1::(sizeBytes first.2.length++first.2++writeEnvelopes envelopes):=rfl
   rw [hw,readEnvelopes]
   change readEnvelope (first.1::(sizeBytes first.2.length++first.2 ++
    writeEnvelopes envelopes))=_ at hr
   rw [hr]
   simp [ih ho (by simpa using hf)]

lemma length_le_writeEnvelopes (envelopes:List (UInt8×Bytes)) :
 envelopes.length≤(writeEnvelopes envelopes).length := by
 induction envelopes with
 | nil=>exact Nat.zero_le _
 | cons first envelopes ih=>
  simp only [writeEnvelopes,flatMap_cons,length_append,length_cons,envelope]
   at ih ⊢
  omega

variable {Msg:Type} (entry:Endpoint Msg) (ops:List (Op Msg)) (returned:Option GoError)
/-- The error of the end of the stream: the handler's own or that of the first message that could
not be sent. -/
def reportedError : Option GoError :=
 (returned.or (firstSendError (run entry ops {}).1)).map normalizeContextError

def endPayload : Bytes :=
 connectEndStreamPayload (reportedError entry ops returned) (join (trailers ops))

def responseEnvelopes : List (UInt8×Bytes) :=
 (sent entry (run entry ops {}).1).map (fun payload=>(0,payload)) ++
  [(connectEndStreamFlag,endPayload entry ops returned)]

structure WellFormed : Prop where
 written : (handleHTTPStream entry ops returned).body =
  writeEnvelopes (responseEnvelopes entry ops returned)
 read : readEnvelopes (handleHTTPStream entry ops returned).body.length
  (handleHTTPStream entry ops returned).body=some (responseEnvelopes entry ops returned)
 failed : ∀before msg err after,
  (run entry ops {}).1=before++(.sendMsg msg,some err)::after →
   sent entry after=[] ∧ ∀later result,(.sendMsg later,result)∈after → result=some err
 reported : ∀msg err,(.sendMsg msg,some err)∈(run entry ops {}).1 →
  ReportsError (endPayload entry ops returned)
 header : (handleHTTPStream entry ops returned).header=carriedFields (join (leadingHeaders ops))
 metadata : (marshal (endStream (reportedError entry ops returned) (join (trailers ops)))).length≤2^20 →
  HasMetadata (endPayload entry ops returned) (carriedFields (join (trailers ops)))
 limited : 2^20<(marshal (endStream (reportedError entry ops returned) (join (trailers ops)))).length →
  endPayload entry ops returned=utf8 "\x7b\"error\":\x7b\"code\":\"resource_exhausted\",\"message\":\"Connect control envelope exceeds configured byte limit\"\x7d\x7d".toList
 closed : ∀before call after,(run entry ops {}).1=before++call::after →
  call.1.commits=true → ∀later∈after,later.1.isHeader=true → later.2.isSome=true

lemma calls_run (s:Stream) : (run entry ops s).1.map Prod.fst=ops := by
 induction ops generalizing s with
 | nil=>rfl
 | cons op ops ih=>rw [run,map_cons,ih]

lemma after_ops : After entry (run entry ops {}).1 (run entry ops {}).2 :=
 after_run (after_nil entry) ops

lemma header_handleHTTPStream :
 (handleHTTPStream entry ops returned).header=carriedFields (join (leadingHeaders ops)) := by
 have h:=after_ops entry ops
 have hh:=h.header
 rw [calls_run] at hh
 have hc:=commit_committed h.committed_header
 rw [hh] at hc
 change (commit (run entry ops {}).2).committed.getD []=_
 rw [hc,←metadataFields_eq]
 rfl

lemma body_handleHTTPStream : (handleHTTPStream entry ops returned).body =
 writeEnvelopes (responseEnvelopes entry ops returned) := by
 have h:=after_ops entry ops
 have ht:=h.trailer
 rw [calls_run] at ht
 have hp:connectEndStreamPayload (invokeGRPCStream returned (run entry ops {}).2)
   (commit (run entry ops {}).2).trailer=endPayload entry ops returned:=by
  rw [commit_trailer,ht,invokeGRPCStream,h.sendErr]
  rfl
 have hw:writeConnectEnvelope connectEndStreamFlag (endPayload entry ops returned) =
   .ok (envelope connectEndStreamFlag (endPayload entry ops returned)):=
  if_neg (Nat.not_le.2 (length_payload_lt _ _))
 unfold handleHTTPStream
 dsimp only
 rw [hp,hw,commit_body,h.body]
 simp [responseEnvelopes,writeEnvelopes,flatMap_append,flatMap_map]

lemma framed_responseEnvelopes : ∀e∈responseEnvelopes entry ops returned,
 e.2.length<2^32 := by
 intro e he
 obtain he|he:=mem_append.1 he
 · obtain ⟨payload,hp,rfl⟩:=mem_map.1 he
   exact (after_ops entry ops).framed payload hp
 · rw [mem_singleton.1 he]
   exact length_payload_lt _ _

lemma isSome_reportedError {msg:Msg} {err:GoError} (h:(.sendMsg msg,some err)∈(run entry ops {}).1) :
 ∃reported,reportedError entry ops returned=some reported := by
 have hf:(firstSendError (run entry ops {}).1).isSome=true:=
  findSome?_isSome_iff.2 ⟨_,h,rfl⟩
 rw [←Option.isSome_iff_exists,reportedError,Option.isSome_map,Option.isSome_or,hf,Bool.or_true]

/-- Every response of a server stream is well formed, whatever calls its handler makes. -/
theorem stream_well_formed : WellFormed entry ops returned where
 written:=body_handleHTTPStream entry ops returned
 read := by
  rw [body_handleHTTPStream]
  exact readEnvelopes_writeEnvelopes (framed_responseEnvelopes entry ops returned)
   (length_le_writeEnvelopes _)
 failed := by
  intro before msg err after h
  have hl:∀later result,(.sendMsg later,result)∈after → result=some err :=
   fun later result hm=>later_sends_fail h hm
  refine ⟨filterMap_eq_nil_iff.2 ?_,hl⟩
  rintro ⟨op,result⟩ hm
  cases op with
  | sendMsg later=>rw [hl later result hm]
  | setHeader md | sendHeader md | setTrailer md=>rfl
 reported := by
  intro msg err h
  obtain ⟨reported,hr⟩:=isSome_reportedError entry ops returned h
  rw [endPayload,hr]
  exact reportsError_payload _ _
 header:=header_handleHTTPStream entry ops returned
 metadata h := by
  rw [endPayload,connectEndStreamPayload,maxConnectControlEnvelope,if_pos h]
  exact hasMetadata_endStream _ _
 limited h := by
  rw [endPayload,connectEndStreamPayload,maxConnectControlEnvelope,if_neg (Nat.not_le.2 h)]
  decide
 closed := by
  intro before call after h hc later hl hh
  exact later_headers_fail h hc hl hh

/-- A reserved key that the handler sets is not written. -/
theorem host_not_written :
  (handleHTTPStream (⟨true,fun _ : Unit=>.ok [],0⟩) [.setHeader [(utf8 "host".toList,[[97]])]] none).header=[] ∧
  join (leadingHeaders [(.setHeader [(utf8 "host".toList,[[97]])] : Op Unit)])=[(utf8 "host".toList,[[97]])] := by
 decide
end InvariantProtocol.ConnectStream
