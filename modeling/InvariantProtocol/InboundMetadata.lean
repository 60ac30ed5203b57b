import InvariantProtocol.ConnectStream
import InvariantProtocol.GoText
import InvariantProtocol.MessageClasses
import Mathlib.Data.List.Infix
namespace InvariantProtocol.InboundMetadata
open ByteText GoText MessageClasses ConnectStream
open List hiding take_append

def inboundPrefixes : List (List Char) :=
 ["grpc-","connect-","invariant-internal-","x-invariant-internal-","x-tenant","x-principal",
  "x-role","x-user","x-auth","x-internal-","internal-","tenant-","principal-","role-",
  "user-","auth-","subject-","identity-"].map String.toList

def inboundNames : List (List Char) :=
 ["authorization","proxy-authorization","cookie","set-cookie","authentication","api-key",
  "x-api-key","tenant","principal","role","user","subject","identity","te","host",
  "connection","keep-alive","proxy-connection","transfer-encoding","upgrade",
  "content-length","content-type","trailer"].map String.toList

def binSuffix : List Char := "-bin".toList

def startsReserved (key:List Char) : Bool:=inboundPrefixes.any fun start=>start.isPrefixOf key

/-- `strings.TrimSuffix(key, "-bin")` -/
def logicalKey (key:List Char) : List Char :=
 if binSuffix.isSuffixOf key then key.take (key.length-4) else key

def Go.reservedInboundMetadata (key:List Char) : Bool :=
 if startsReserved key then true else decide (logicalKey key∈inboundNames)

def Python.reservedInboundMetadata (key:List Char) : Bool :=
 if startsReserved key then true
 else
  decide (key∈inboundNames) ||
   (binSuffix.isSuffixOf key && decide (key.take (key.length-4)∈inboundNames))

def TypeScript.reservedInboundMetadata (key:List Char) : Bool :=
 if startsReserved (logicalKey key) then true else decide (logicalKey key∈inboundNames)

def Rust.reservedIncomingMetadata (key:List Char) : Bool :=
 let logical:=logicalKey (key.map Char.toLower)
 if startsReserved logical then true else decide (logical∈inboundNames)

/-- `lower` of Python: one character of which an ASCII letter is a part becomes two. -/
def pythonLower (c:Char) : List Char :=
 if c.toNat=0x130 then ['i',Char.ofNat 0x307] else [lowerRune c]

inductive PythonValue where
 | str (s:List Char)
 | bytes (bs:Bytes)
 | other

/-- The decoders are those of `encoding/base64`. -/
def Go.inboundValue (rawStd std:Bytes → Option Bytes) (key:List Char) (value:Bytes) :
  Option Bytes :=
 if binSuffix.isSuffixOf key then (rawStd value).orElse fun _=>std value
 else if validASCIIMetadataValue value then some value
 else none

def Go.incomingHTTPMetadata (rawStd std:Bytes → Option Bytes) (mapped:MD) :
  List (List Char×Bytes) :=
 mapped.flatMap fun entry=>
  let key:=(trimWith isSpace (runes entry.1)).map lowerRune
  if key=[] ∨ Go.reservedInboundMetadata key then []
  else if !validMetadataKey key then []
  else entry.2.filterMap fun value=>(Go.inboundValue rawStd std key value).map fun v=>(key,v)

def Python.validMetadataKey (key:List Char) : Bool :=
 !key.isEmpty && key.all fun c=>c.isAlphanum || c∈['-','_','.']

def validASCIIText (value:List Char) : Bool:=value.all fun c=>0x20≤c.toNat && c.toNat≤0x7E

def Python.inboundValue (b64decode:List Char → Option Bytes) (key:List Char) :
  PythonValue → Option PythonValue
 | .bytes bs=>if binSuffix.isSuffixOf key then some (.bytes bs) else none
 | .str s=>
  if binSuffix.isSuffixOf key then
   (b64decode (s++replicate ((4-s.length % 4) % 4) '=')).map .bytes
  else if validASCIIText s then some (.str s)
  else none
 | .other=>none

def Python.inboundHttpMetadata (space:Char → Bool) (b64decode:List Char → Option Bytes)
  (mapped:List (List Char×PythonValue)) : List (List Char×PythonValue) :=
 mapped.filterMap fun entry=>
  let key:=(trimWith space entry.1).flatMap pythonLower
  if !Python.validMetadataKey key || Python.reservedInboundMetadata key then none
  else (Python.inboundValue b64decode key entry.2).map fun v=>(key,v)

/-- The names of `Headers` are ASCII; a key that occurs again is joined, which is left out. -/
def TypeScript.mapHTTPContext (mapped:List (List Char×List Char)) :
  List (List Char×List Char) :=
 mapped.filterMap fun entry=>
  let key:=(trimWith typescriptSpace entry.1).map Char.toLower
  if validMetadataKey key && !TypeScript.reservedInboundMetadata key &&
    (!entry.2.isEmpty && validASCIIText entry.2) then
   some (key,entry.2)
  else none

/-- A `MetadataMap` holds valid lower-case names only. -/
def Rust.filterIncomingMetadata (mapped:List (List Char×Bytes)) : List (List Char×Bytes) :=
 mapped.filter fun entry=>!Rust.reservedIncomingMetadata entry.1

def reserved : Runtime → List Char → Bool
 | .go=>Go.reservedInboundMetadata
 | .python=>Python.reservedInboundMetadata
 | .typescript=>TypeScript.reservedInboundMetadata
 | .rust=>Rust.reservedIncomingMetadata

/-- With some result of the mapper the runtime hands a value under the key to a handler. -/
def Delivers (rawStd std:Bytes → Option Bytes) (space:Char → Bool)
  (b64decode:List Char → Option Bytes) : Runtime → List Char → Prop
 | .go,key=>∃mapped value,(key,value)∈Go.incomingHTTPMetadata rawStd std mapped
 | .python,key=>∃mapped value,(key,value)∈Python.inboundHttpMetadata space b64decode mapped
 | .typescript,key=>∃mapped value,(key,value)∈TypeScript.mapHTTPContext mapped
 | .rust,key=>∃mapped value,(key,value)∈Rust.filterIncomingMetadata mapped

/-- The keys that are a reserved prefix only with the dash of the suffix. -/
def splitKeys : List (List Char) :=
 ["grpc-bin","connect-bin","invariant-internal-bin","x-invariant-internal-bin",
  "x-internal-bin","internal-bin","auth-bin"].map String.toList

section

lemma isSuffixOf_append (base:List Char) : binSuffix.isSuffixOf (base++binSuffix)=true :=
 List.isSuffixOf_iff_suffix.2 (suffix_append base binSuffix)

lemma take_append (base:List Char) : (base++binSuffix).take ((base++binSuffix).length-4)=base := by
 have hl:(base++binSuffix).length-4=base.length:=by
  rw [length_append]
  exact Nat.add_sub_cancel _ _
 rw [hl,take_left]

lemma logicalKey_append (base:List Char) : logicalKey (base++binSuffix)=base := by
 rw [logicalKey,if_pos (isSuffixOf_append base),take_append]

lemma logicalKey_cases (key:List Char) : binSuffix.isSuffixOf key=false ∧ logicalKey key=key ∨
  ∃base,key=base++binSuffix ∧ logicalKey key=base := by
 cases h : binSuffix.isSuffixOf key with
 | false=>exact .inl ⟨rfl,by simp [logicalKey,h]⟩
 | true=>
  obtain ⟨base,rfl⟩:=List.isSuffixOf_iff_suffix.1 h
  exact .inr ⟨base,rfl,logicalKey_append base⟩

variable {base key:List Char}
lemma startsReserved_append (h:startsReserved base=true) : startsReserved (base++binSuffix)=true := by
 obtain ⟨start,hst,hs⟩:=List.any_eq_true.1 h
 rw [ isPrefixOf_iff_prefix] at hs
 exact List.any_eq_true.2 ⟨start,hst,
  List.isPrefixOf_iff_prefix.2 (hs.trans (prefix_append base binSuffix))⟩

lemma reserved_once_suffixed (hl:startsReserved (base++binSuffix)=true) (her:startsReserved base=false) :
 decide (base∈inboundNames)=true ∨ base++binSuffix∈splitKeys := by
 obtain ⟨start,hst,hs⟩:=List.any_eq_true.1 hl
 rw [ isPrefixOf_iff_prefix] at hs
 have hn:¬ start <+: base:=fun hb=>
  List.any_eq_false.1 her start hst (List.isPrefixOf_iff_prefix.2 hb)
 obtain hb|⟨rest,rfl⟩:=
  prefix_or_prefix_of_prefix hs (prefix_append base binSuffix)
 · exact absurd hb hn
 · -- what is left of the prefix begins the suffix: four cases for each prefix
   have hr:rest∈binSuffix.inits:=
    (mem_inits _ _).2 ((prefix_append_right_inj base).1 hs)
   have hne:rest≠[]:=by
    rintro rfl
    rw [append_nil] at hn
    exact hn (prefix_refl base)
   have ha:inboundPrefixes.all (fun start=>binSuffix.inits.all fun rest=>
     !rest.isSuffixOf start || rest.isEmpty ||
      decide (start.take (start.length-rest.length)∈inboundNames) ||
      decide (start.take (start.length-rest.length)++binSuffix∈splitKeys))=true:=by
    decide
   have hsf:rest.isSuffixOf (base++rest)=true:=
    List.isSuffixOf_iff_suffix.2 (suffix_append base rest)
   have hc:=List.all_eq_true.1 (List.all_eq_true.1 ha _ hst) _ hr
   simpa [hsf,hne] using hc

lemma splitKeys_late : splitKeys.all (fun key=> startsReserved key && !startsReserved (logicalKey key) &&
  !decide (logicalKey key∈inboundNames))=true := by
 decide

lemma inboundNames_suffix : inboundNames.all (fun name=>!binSuffix.isSuffixOf name)=true := by
 decide

lemma python_reserved (key:List Char) :
 Python.reservedInboundMetadata key=Go.reservedInboundMetadata key := by
 obtain ⟨hs,hl⟩|⟨base,rfl,hl⟩:=logicalKey_cases key
 · simp [Python.reservedInboundMetadata,Go.reservedInboundMetadata,hs,hl]
 · have hw:base++binSuffix∉inboundNames:=by
    intro hm
    have hn:=List.all_eq_true.1 inboundNames_suffix _ hm
    rw [isSuffixOf_append] at hn
    cases hn
   rw [Python.reservedInboundMetadata,Go.reservedInboundMetadata,hl,take_append,isSuffixOf_append,
    decide_eq_false hw,Bool.false_or,Bool.true_and]

lemma typescript_reserved (key:List Char) :
 TypeScript.reservedInboundMetadata key=Go.reservedInboundMetadata key ↔ key∉splitKeys := by
 by_cases hs : key∈splitKeys
 · have hlt:=List.all_eq_true.1 splitKeys_late key hs
   simp only [Bool.and_eq_true,Bool.not_eq_true'] at hlt
   simp [TypeScript.reservedInboundMetadata,Go.reservedInboundMetadata,hlt.1.1,hlt.1.2,hlt.2,hs]
 · simp only [hs,not_false_eq_true,iff_true]
   obtain ⟨_,hl⟩|⟨base,rfl,hl⟩:=logicalKey_cases key
   · simp [TypeScript.reservedInboundMetadata,Go.reservedInboundMetadata,hl]
   · rw [TypeScript.reservedInboundMetadata,Go.reservedInboundMetadata,hl]
     cases her : startsReserved base with
     | true=>rw [startsReserved_append her]
     | false=>
      cases hlt : startsReserved (base++binSuffix) with
      | false=>rfl
      | true=>
       obtain hn|hm:=reserved_once_suffixed hlt her
       · simpa using hn
       · exact absurd hm hs

lemma toLower_of_validMetadataKey (h:validMetadataKey key=true) : key.map Char.toLower=key := by
 rw [validMetadataKey,Bool.and_eq_true,all_eq_true] at h
 refine (map_congr_left fun c hc=>?_).trans (map_id key)
 have hk:=h.2 c hc
 refine dif_neg fun hu=>?_
 have hA : 'A'.val.toNat=65:=rfl
 have hZ : 'Z'.val.toNat=90:=rfl
 have ha : 'a'.val.toNat=97:=rfl
 have h9 : '9'.val.toNat=57:=rfl
 simp only [Bool.or_eq_true,Bool.and_eq_true,decide_eq_true_eq,Char.le_def,ge_iff_le,
  UInt32.le_iff_toNat_le] at hk hu
 obtain (((hk|hk)|rfl)|rfl)|rfl:=hk
 · omega
 · omega
 · exact absurd hu.1 (by decide)
 · exact absurd hu.2 (by decide)
 · exact absurd hu.1 (by decide)

lemma rust_reserved (h:validMetadataKey key=true) :
 Rust.reservedIncomingMetadata key=TypeScript.reservedInboundMetadata key := by
 rw [Rust.reservedIncomingMetadata,toLower_of_validMetadataKey h]
 rfl
end

variable {rawStd std:Bytes → Option Bytes} {space:Char → Bool}
 {b64decode:List Char → Option Bytes}
lemma not_reserved_of_delivers {r:Runtime} {key:List Char}
 (h:Delivers rawStd std space b64decode r key) : reserved r key=false := by
 cases r with
 | go=>
  obtain ⟨mapped,value,hm⟩:=h
  obtain ⟨entry,-,hen⟩:=List.mem_flatMap.1 hm
  simp only at hen
  split_ifs at hen with hem hvl
  · cases hen
  · cases hen
  · obtain ⟨v,-,hv⟩:=List.mem_filterMap.1 hen
    obtain ⟨w,-,heq⟩:=Option.map_eq_some_iff.1 hv
    obtain ⟨rfl,-⟩:=Prod.mk.injEq .. ▸ heq
    exact Bool.eq_false_iff.2 fun hrs=>hem (.inr hrs)
 | python=>
  obtain ⟨mapped,value,hm⟩:=h
  obtain ⟨entry,-,hen⟩:=List.mem_filterMap.1 hm
  simp only at hen
  split_ifs at hen with hr
  obtain ⟨w,-,heq⟩:=Option.map_eq_some_iff.1 hen
  obtain ⟨rfl,-⟩:=Prod.mk.injEq .. ▸ heq
  rw [Bool.or_eq_true,not_or] at hr
  exact Bool.eq_false_iff.2 hr.2
 | typescript=>
  obtain ⟨mapped,value,hm⟩:=h
  obtain ⟨entry,-,hen⟩:=List.mem_filterMap.1 hm
  simp only at hen
  split_ifs at hen with hs
  obtain ⟨rfl,-⟩:=Prod.mk.injEq .. ▸ Option.some.inj hen
  simp only [Bool.and_eq_true,Bool.not_eq_true'] at hs
  exact hs.1.2
 | rust=>
  obtain ⟨mapped,value,hm⟩:=h
  simpa [reserved] using (List.mem_filter.1 hm).2

/-- The runtimes reserve the same keys, and none delivers what another refuses, exactly outside of
the split keys. -/
theorem inbound_keys_agree_iff {key:List Char} (h:validMetadataKey key=true) :
  (∀r₁ r₂,reserved r₁ key=reserved r₂ key ∧
   (reserved r₁ key=true → ¬ Delivers rawStd std space b64decode r₂ key)) ↔
   key∉splitKeys := by
 constructor
 · intro ha
   exact (typescript_reserved key).1 (ha .typescript .go).1
 · intro hk
   have hs:∀r,reserved r key=Go.reservedInboundMetadata key := by
    intro r
    cases r with
    | go=>rfl
    | python=>exact python_reserved key
    | typescript=>exact (typescript_reserved key).2 hk
    | rust=>exact (rust_reserved h).trans ((typescript_reserved key).2 hk)
   intro r₁ r₂
   refine ⟨(hs r₁).trans (hs r₂).symm,fun hr hd=>?_⟩
   have hf:=not_reserved_of_delivers hd
   rw [hs] at hf hr
   rw [hf] at hr
   cases hr

theorem trace_key_agrees : validMetadataKey "x-request-id".toList=true ∧
   ∀r₁ r₂,reserved r₁ "x-request-id".toList=reserved r₂ "x-request-id".toList :=
 ⟨by decide,fun r₁ r₂=>
  ((@inbound_keys_agree_iff (fun _=>none) (fun _=>none) isSpace (fun _=>none)
   "x-request-id".toList (by decide)).2 (by decide) r₁ r₂).1⟩

theorem auth_bin_delivered : validMetadataKey "auth-bin".toList=true ∧
   reserved .go "auth-bin".toList=true ∧ reserved .python "auth-bin".toList=true ∧
   ("auth-bin".toList,"AAAA".toList) ∈ TypeScript.mapHTTPContext [("auth-bin".toList,"AAAA".toList)] ∧
   ("auth-bin".toList,[0,0,0])∈Rust.filterIncomingMetadata [("auth-bin".toList,[0,0,0])] := by
 decide
end InvariantProtocol.InboundMetadata
