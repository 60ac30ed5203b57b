import InvariantProtocol.HttpClient
/-! Field selectors of HTTP rules: how the clients translate them to JSON paths, and which value of
a request's JSON object such a path reaches. -/
namespace InvariantProtocol.RequestSelectors
open List ListRelations PercentEncoding HttpClient

inductive FieldType (M:Type) where
 | scalar
 | message (inner:M)
 | list (element:Option M)
 | map (entry:M) (value:Option M)

def FieldType.descriptor {M:Type} : FieldType M → Option M
 | .scalar=>none
 | .message inner=>some inner
 | .list element=>element
 | .map entry _=>some entry

/-- TypeScript's `messageField`, which passes from a map to its values. -/
def FieldType.messageField {M:Type} : FieldType M → Option M
 | .scalar=>none
 | .message inner=>some inner
 | .list element=>element
 | .map _ value=>value

structure RequestField (M:Type) where
 jsonName : Bytes
 type : FieldType M

/-- The JSON of a message: its fields, or the form of a well-known type. `Struct`, `Value` and `Any`
  can be any object, `ListValue` is an array, and the others are scalars. -/
inductive JsonForm where
 | fields
 | scalar
 | list
 | any
 deriving DecidableEq

structure RequestTypes (M:Type) where
 field : M → Bytes → Option (RequestField M)
 form : M → JsonForm
 jsonName_unique : ∀m part part' f f',field m part=some f → field m part'=some f' →
  f.jsonName=f'.jsonName → part=part'

variable {M:Type} (T:RequestTypes M)

mutual

def Shaped (m:M) : Json → Prop
 | .object names members=>T.form m=.any ∨ T.form m=.fields ∧ names.Nodup ∧
   ShapedMembers m names members
 | .array _=>T.form m=.any ∨ T.form m=.list
 | .null | .bool _ | .number _ | .string _=>T.form m=.any ∨ T.form m=.scalar

def ShapedMembers (m:M) : List Bytes → List Json → Prop
 | name::names,v::members=>
  (∃part f,T.field m part=some f ∧ f.jsonName=name ∧
   ∀inner,f.type=.message inner → Shaped inner v) ∧ ShapedMembers m names members
 | [],[]=>True
 | _,_=>False
end

/-- The path `parts` leads from `m` through singular message fields to a field; `names` are the JSON
  names on it and `way` the messages it looks fields up in. -/
inductive Addresses : M → List Bytes → List Bytes → List M → Prop
 | field {m:M} {part:Bytes} {f:RequestField M} :
  T.field m part=some f → Addresses m [part] [f.jsonName] [m]
 | within {m inner:M} {part:Bytes} {f:RequestField M} {parts names:List Bytes} {way:List M} :
  T.field m part=some f → f.type=.message inner → Addresses inner parts names way →
  Addresses m (part::parts) (f.jsonName::names) (m::way)

def emitted : M → List Bytes → Json → Option Json
 | _,[],_=>none
 | m,part::rest,v=>
  if T.form m≠.fields then none
  else match T.field m part with
   | none=>none
   | some f=>match v.member f.jsonName with
    | none=>none
    | some next=>
     if rest=[] then some next
     else match f.type with
      | .message inner=>emitted inner rest next
      | _=>none

def withoutField : M → List Bytes → Json → Json
 | _,[],v=>v
 | m,part::rest,v=>
  if T.form m≠.fields then v
  else match T.field m part,v with
   | some f,.object names members=>
    if rest=[] then
     .object (removeMember f.jsonName names members).1 (removeMember f.jsonName names members).2
    else match f.type with
     | .message inner=>.object names (updateMember f.jsonName (withoutField inner rest) names members)
     | _=>v
   | _,_=>v

section

def goField (m:M) (name:Bytes) : Option (FieldInfo M) :=
 (T.field m name).map fun f=>{ jsonName:=f.jsonName,message:=f.type.descriptor }

/-- A translated path where unknown parts pass through; `next` is the message of a field. -/
def translated (next:FieldType M → Option M) : Option M → List Bytes → List Bytes
 | _,[]=>[]
 | none,part::rest=>part::translated next none rest
 | some m,part::rest=>
  match T.field m part with
  | none=>part::translated next none rest
  | some f=>f.jsonName::translated next (next f.type) rest

/-- Python's `_json_field_path`. -/
def pythonFieldPath (m:M) (protoPath:Bytes) : Bytes :=
 [dot].intercalate (translated T FieldType.descriptor (some m) (protoPath.splitOn dot))

/-- TypeScript's `jsonFieldPath`. -/
def typescriptFieldPath (m:M) (fieldPath:Bytes) : Bytes :=
 [dot].intercalate (translated T FieldType.messageField (some m) (fieldPath.splitOn dot))

def getNested (root:Json) (path:Bytes) : Option Json:=(path.splitOn dot).foldlM Json.member root

def deleteNested (root:Json) (path:Bytes) : Json:=deleteParts (path.splitOn dot) root

variable {T} {m:M} {parts:List Bytes} {way:List M} {names:List Bytes}
lemma Addresses.ne_nil (h:Addresses T m parts names way) : parts≠[] ∧ names≠[] := by
 cases h <;> simp

lemma intercalate_eq_iff {whole:Bytes} (hne:names≠[]) (hd:dot∉whole) :
 [dot].intercalate names=whole ↔ names=[whole] := by
 constructor
 · intro h
   match names with
   | [name]=>simpa [intercalate] using h
   | name::next::rest=>
    have hm:dot∈[dot].intercalate (name::next::rest):=by simp [intercalate]
    exact absurd (h ▸ hm) hd
 · rintro rfl
   simp [intercalate]

section
variable (h:Addresses T m parts names way)
include h
lemma Addresses.root_mem : m∈way := by
 cases h <;> simp

lemma Addresses.jsonParts_eq
 (fullName:M → Bytes) (before:List Bytes) : jsonParts (goField T) fullName m before parts=.ok names := by
 induction h generalizing before with
 | field hf=>simp [jsonParts,goField,hf]
 | within hf ht hr ih=>
  simp [jsonParts,goField,hf,ht,FieldType.descriptor,hr.ne_nil.1,ih,bind,Except.bind,pure,
   Except.pure]

lemma Addresses.translated_eq
 {next:FieldType M → Option M} (hn:∀inner,next (.message inner)=some inner) :
 translated T next (some m) parts=names := by
 induction h with
 | field hf=>simp [translated,hf]
 | within hf ht _ ih=>simp [translated,hf,ht,hn,ih]
end
end

section
variable {T} {m:M} {part:Bytes} {f:RequestField M} {v:Json} {parts:List Bytes}
lemma shapedMembers_lookup {inner:M} {next:Json} (hf:T.field m part=some f) (ht:f.type=.message inner) :
 ∀{names:List Bytes} {members:List Json},ShapedMembers T m names members →
  (names.zip members).lookup f.jsonName=some next → Shaped T inner next
 | name::names,v::members,hs,hn=>by
  rw [ShapedMembers] at hs
  obtain ⟨⟨part',f',hf',hnm,hi⟩,hr⟩:=hs
  rw [zip_cons_cons,lookup_cons] at hn
  by_cases heq : f.jsonName=name
  · have hp:=T.jsonName_unique _ _ _ _ _ hf hf' (heq.trans hnm.symm)
    have hsm:f=f':=by
     subst hp
     exact Option.some.inj (hf.symm.trans hf')
    simp only [heq,beq_self_eq_true,Option.some.injEq] at hn
    exact hn ▸ hi inner (hsm ▸ ht)
  · rw [beq_false_of_ne heq] at hn
    exact shapedMembers_lookup hf ht hr hn
 | [],[],_,hn=>by simp at hn

lemma Shaped.object_of_fields (hs:Shaped T m v) (hf:T.form m=.fields) :
 ∃names members,v=.object names members ∧ names.Nodup ∧ ShapedMembers T m names members := by
 cases v with
 | object names members=>exact ⟨names,members,rfl,by simpa [Shaped,hf] using hs⟩
 | _=>simp [Shaped,hf] at hs

lemma Shaped.member {inner:M} {next:Json} (hs:Shaped T m v) (hfr:T.form m=.fields)
 (hf:T.field m part=some f) (ht:f.type=.message inner)
 (hn:v.member f.jsonName=some next) : Shaped T inner next := by
 obtain ⟨names,members,rfl,-,hm⟩:=hs.object_of_fields hfr
 exact shapedMembers_lookup hf ht hm hn

/-- A well-known type other than the free-form ones has no JSON members. -/
theorem Shaped.member_eq_none (hs:Shaped T m v) (hf:T.form m≠.fields) (ha:T.form m≠.any)
 (name:Bytes) : v.member name=none := by
 cases v with
 | object names members=>simp [Shaped,hf,ha] at hs
 | _=>rfl

lemma Shaped.deleteParts_eq (hs:Shaped T m v) (hf:T.form m≠.fields) (ha:T.form m≠.any)
 (names:List Bytes) : deleteParts names v=v := by
 cases v with
 | object names members=>simp [Shaped,hf,ha] at hs
 | _=>cases names <;> simp [deleteParts]

lemma updateMember_congr {name:Bytes} {f g:Json → Json} :
 ∀{names:List Bytes} {members:List Json}, (∀v,(names.zip members).lookup name=some v → f v=g v) →
  updateMember name f names members=updateMember name g names members
 | n::names,v::members,h=>by
  rw [zip_cons_cons] at h
  by_cases heq : n=name
  · simp [updateMember,heq,h v (by simp [heq])]
  · have hr:∀v,(names.zip members).lookup name=some v → f v=g v:=by
     intro w hw
     apply h w
     rw [lookup_cons,beq_false_of_ne (Ne.symm heq)]
     exact hw
    simp [updateMember,heq,updateMember_congr hr]
 | [],_,_=>by simp [updateMember]
 | _::_,[],_=>by simp [updateMember]

lemma emitted_field (hfr:T.form m=.fields) (hf:T.field m part=some f) (v:Json) :
 emitted T m [part] v=v.member f.jsonName := by
 cases hm : v.member f.jsonName <;> simp [emitted,hfr,hf,hm]

lemma emitted_within {inner:M} (hfr:T.form m=.fields) (hf:T.field m part=some f)
 (ht:f.type=.message inner) (hne:parts≠[]) (v:Json) :
 emitted T m (part::parts) v=(v.member f.jsonName).bind (emitted T inner parts) := by
 cases hm : v.member f.jsonName <;> simp [emitted,hfr,hf,hm,ht,hne]

lemma emitted_own (hf:T.form m≠.fields) (parts:List Bytes) (v:Json) : emitted T m parts v=none := by
 cases parts <;> simp [emitted,hf]

/-- The first message on the way that is not written as its fields. -/
def ownForm (T:RequestTypes M) (way:List M) : Option M:=way.find? fun x=>T.form x≠.fields

lemma Addresses.lookup_eq {names:List Bytes} {way:List M} (h:Addresses T m parts names way)
 (ha:∀x,ownForm T way=some x → T.form x≠.any) (hs:Shaped T m v) :
 names.foldlM Json.member v=emitted T m parts v := by
 induction h generalizing v with
 | @field m part f hfl=>
  by_cases hf : T.form m=.fields
  · rw [emitted_field hf hfl]
    cases hm : v.member f.jsonName <;> simp [hm]
  · have hn:=hs.member_eq_none hf (ha m (by simp [ownForm,hf]))
    simp [emitted_own hf,hn]
 | @within m inner part f parts names way hfl ht hr ih=>
  by_cases hf : T.form m=.fields
  · rw [emitted_within hf hfl ht hr.ne_nil.1,foldlM_cons]
    cases hm : v.member f.jsonName with
    | none=>rfl
    | some next=>
     exact ih (by simpa [ownForm,hf] using ha) (hs.member hf hfl ht hm)
  · have hn:=hs.member_eq_none hf (ha m (by simp [ownForm,hf]))
    simp [emitted_own hf,hn]

lemma Addresses.delete_eq {names:List Bytes} {way:List M} (h:Addresses T m parts names way)
 (ha:∀x,ownForm T way=some x → T.form x≠.any) (hs:Shaped T m v) :
 deleteParts names v=withoutField T m parts v := by
 induction h generalizing v with
 | @field m part f hfl=>
  by_cases hf : T.form m=.fields
  · cases v <;> simp [withoutField,deleteParts,hf,hfl]
  · rw [hs.deleteParts_eq hf (ha m (by simp [ownForm,hf]))]
    simp [withoutField,hf]
 | @within m inner part f parts names way hfl ht hr ih=>
  by_cases hf : T.form m=.fields
  · obtain ⟨keys,members,rfl,-,-⟩:=hs.object_of_fields hf
    have hsm:updateMember f.jsonName (deleteParts names) keys members =
      updateMember f.jsonName (withoutField T inner parts) keys members:=by
     apply updateMember_congr
     intro next hn
     exact ih (by simpa [ownForm,hf] using ha) (hs.member hf hfl ht hn)
    obtain ⟨first,rest,rfl⟩:=exists_cons_of_ne_nil hr.ne_nil.2
    simp [withoutField,deleteParts,hf,hfl,ht,hr.ne_nil.1,hsm]
  · rw [hs.deleteParts_eq hf (ha m (by simp [ownForm,hf]))]
    simp [withoutField,hf]
end

section
variable {T} {key:Bytes} {m:M}
lemma lookup_removeMember {name:Bytes} :
 ∀{names:List Bytes} {members:List Json},names.Nodup →
  ((removeMember key names members).1.zip (removeMember key names members).2).lookup name =
   if name=key then none else (names.zip members).lookup name
 | n::names,v::members,hn=>by
  rw [nodup_cons] at hn
  by_cases hk : n=key
  · simp only [removeMember,hk,if_true]
    split_ifs with hnm
    · rw [lookup_eq_none_iff]
      intro pair hp
      have hm:pair.1∈names:=(of_mem_zip hp).1
      simp only [hnm,bne_iff_ne]
      rintro rfl
      exact hn.1 (hk ▸ hm)
    · rw [zip_cons_cons,lookup_cons,beq_false_of_ne hnm]
  · simp only [removeMember,hk,if_false,zip_cons_cons,lookup_cons]
    rw [lookup_removeMember hn.2]
    split_ifs with hnm
    · simp [hnm,beq_false_of_ne (Ne.symm hk)]
    · rfl
 | [],_,_=>by simp [removeMember]
 | _::_,[],_=>by simp [removeMember]

lemma lookup_updateMember {name:Bytes} {f:Json → Json} :
 ∀{names:List Bytes} {members:List Json}, (names.zip (updateMember key f names members)).lookup name =
   if name=key then ((names.zip members).lookup name).map f else (names.zip members).lookup name
 | n::names,v::members=>by
  by_cases hk : n=key
  · by_cases hn : name=n
    · simp [updateMember,hk,hn]
    · simp [updateMember,hk,hk ▸ hn,lookup_cons,beq_false_of_ne (hk ▸ hn)]
  · simp only [updateMember,hk,if_false,zip_cons_cons,lookup_cons]
    by_cases hn : name=n
    · simp [hn,hk]
    · rw [beq_false_of_ne hn]
      exact lookup_updateMember
 | [],_=>by simp [updateMember]
 | _::_,[]=>by simp [updateMember]

lemma member_deleteParts {names:List Bytes} (hnd:names.Nodup) (members:List Json)
 (path:List Bytes) (name:Bytes) : (deleteParts path (.object names members)).member name=none ∨
 ∃rest,(deleteParts path (.object names members)).member name =
  ((Json.object names members).member name).map (deleteParts rest) := by
 have hk:∀v : Option Json,v.map (deleteParts [])=v:=by
  intro v
  cases v <;> simp [deleteParts]
 match path with
 | []=>exact .inr ⟨[],by simp [deleteParts]⟩
 | [key]=>
  simp only [deleteParts,Json.member,lookup_removeMember hnd]
  by_cases hn : name=key
  · exact .inl (by simp [hn])
  · exact .inr ⟨[],by simp [hn,hk]⟩
 | key::next::rest=>
  simp only [deleteParts,Json.member,lookup_updateMember]
  by_cases hn : name=key
  · exact .inr ⟨next::rest,by simp [hn]⟩
  · exact .inr ⟨[],by simp [hn,hk]⟩

lemma removeMember_sublist :
 ∀{names:List Bytes} {members:List Json},(removeMember key names members).1.Sublist names
 | n::names,v::members=>by
  by_cases hk : n=key
  · simp [removeMember,hk]
  · simpa [removeMember,hk] using removeMember_sublist
 | [],_=>by simp [removeMember]
 | _::_,[]=>by simp [removeMember]

lemma shapedMembers_remove :
 ∀{names:List Bytes} {members:List Json},ShapedMembers T m names members →
  ShapedMembers T m (removeMember key names members).1 (removeMember key names members).2
 | n::names,v::members,h=>by
  rw [ShapedMembers] at h
  by_cases hk : n=key
  · simpa [removeMember,hk] using h.2
  · simp only [removeMember,hk,if_false,ShapedMembers]
    exact ⟨h.1,shapedMembers_remove h.2⟩
 | [],[],_=>by simp [removeMember,ShapedMembers]

lemma shapedMembers_update {f:Json → Json} (hf:∀inner v,Shaped T inner v → Shaped T inner (f v)) :
 ∀{names:List Bytes} {members:List Json},ShapedMembers T m names members →
  ShapedMembers T m names (updateMember key f names members)
 | n::names,v::members,h=>by
  rw [ShapedMembers] at h
  obtain ⟨⟨part,field,hfl,hn,hv⟩,hr⟩:=h
  by_cases hk : n=key
  · simp only [updateMember,hk,if_true,ShapedMembers]
    exact ⟨⟨part,field,hfl,hn.trans hk,fun inner ht=>hf inner v (hv inner ht)⟩,hr⟩
  · simp only [updateMember,hk,if_false,ShapedMembers]
    exact ⟨⟨part,field,hfl,hn,hv⟩,shapedMembers_update hf hr⟩
 | [],[],_=>by simp [updateMember,ShapedMembers]

lemma Shaped.deleteParts {v:Json} (path:List Bytes) (h:Shaped T m v) : Shaped T m (deleteParts path v) := by
 induction path generalizing m v with
 | nil=>simpa [HttpClient.deleteParts] using h
 | cons key rest ih=>
  cases v with
  | object names members=>
   rw [Shaped] at h
   cases rest with
   | nil=>
    rw [HttpClient.deleteParts,Shaped]
    exact h.imp id fun ⟨hf,hn,hm⟩=>
     ⟨hf,hn.sublist removeMember_sublist,shapedMembers_remove hm⟩
   | cons next rest=>
    rw [HttpClient.deleteParts,Shaped]
    · exact h.imp id fun ⟨hf,hn,hm⟩=>
       ⟨hf,hn,shapedMembers_update (fun inner v hv=>ih hv) hm⟩
    · simp
  | _=>simpa [HttpClient.deleteParts] using h

/-- Deleting other fields does not bring a missing field into the request. -/
theorem Addresses.emitted_deleteParts {parts names:List Bytes} {way:List M}
 (h:Addresses T m parts names way) {v:Json} (hs:Shaped T m v) (path:List Bytes)
 (hn:emitted T m parts v=none) : emitted T m parts (deleteParts path v)=none := by
 induction h generalizing path v with
 | @field m part f hfl=>
  by_cases hf : T.form m=.fields
  · obtain ⟨keys,members,rfl,hnd,-⟩:=hs.object_of_fields hf
    rw [emitted_field hf hfl] at hn ⊢
    rcases member_deleteParts hnd members path f.jsonName with hg|⟨rest,hk⟩
    · exact hg
    · rw [hk,hn]
      rfl
  · exact emitted_own hf _ _
 | @within m inner part f parts names way hfl ht hr ih=>
  by_cases hf : T.form m=.fields
  · obtain ⟨keys,members,rfl,hnd,-⟩:=hs.object_of_fields hf
    rw [emitted_within hf hfl ht hr.ne_nil.1] at hn ⊢
    rcases member_deleteParts hnd members path f.jsonName with hg|⟨rest,hk⟩
    · rw [hg]
      rfl
    · rw [hk]
      cases hm : (Json.object keys members).member f.jsonName with
      | none=>rfl
      | some next=>
       rw [hm] at hn
       exact ih (hs.member hf hfl ht hm) rest hn
  · exact emitted_own hf _ _
end

section
variable {T}
def nest (names:List Bytes) (leaf:Json) : Json:=names.foldr (fun name v=>.object [name] [v]) leaf

/-- A value without members, of any form. -/
inductive Blank : Json → Prop
 | null : Blank .null
 | array : Blank (.array [])
 | object : Blank (.object [] [])

variable {leaf:Json} {m:M}
lemma Blank.member_eq_none (h:Blank leaf) (name:Bytes) : leaf.member name=none := by
 cases h <;> simp [Json.member]

lemma Blank.nest_ne (h:Blank leaf) (name:Bytes) (names:List Bytes) : nest (name::names) leaf≠leaf := by
 cases h <;> simp [nest]

lemma exists_blank (m:M) : ∃leaf,Blank leaf ∧ Shaped T m leaf := by
 cases hf : T.form m with
 | fields=>exact ⟨_,.object,by simp [Shaped,ShapedMembers,hf]⟩
 | scalar=>exact ⟨_,.null,by simp [Shaped,hf]⟩
 | list=>exact ⟨_,.array,by simp [Shaped,hf]⟩
 | any=>exact ⟨_,.null,by simp [Shaped,hf]⟩

lemma member_single (name key:Bytes) (v:Json) :
 (Json.object [key] [v]).member name=if name=key then some v else none := by
 by_cases h : name=key
 · simp [Json.member,h]
 · simp [Json.member,lookup_cons,beq_false_of_ne h,h]

/-- Only its own names lead to the one value of such a request. -/
theorem Blank.nest_lookup (hl:Blank leaf) {names pieces:List Bytes} :
 pieces.foldlM Json.member (nest names leaf)=some leaf ↔ pieces=names := by
 induction names generalizing pieces with
 | nil=>
  cases pieces with
  | nil=>simp [nest]
  | cons piece pieces=>simp [nest,hl.member_eq_none]
 | cons name names ih=>
  cases pieces with
  | nil=>simpa using hl.nest_ne name names
  | cons piece pieces=>
   have hs:nest (name::names) leaf=.object [name] [nest names leaf]:=rfl
   rw [foldlM_cons,hs,member_single]
   by_cases heq : piece=name
   · simp [heq,ih]
   · simp [heq]

lemma shaped_single {part:Bytes} {f:RequestField M} {v:Json} (hfr:T.form m=.fields)
 (hf:T.field m part=some f) (hv:∀inner,f.type=.message inner → Shaped T inner v) :
 Shaped T m (.object [f.jsonName] [v]) := by
 simp only [Shaped,ShapedMembers,hfr,reduceCtorEq,false_or,true_and,and_true,nodup_singleton]
 exact ⟨part,f,hf,rfl,hv⟩

lemma Addresses.exists_request {parts names:List Bytes} {way:List M}
 (h:Addresses T m parts names way) (hfl:∀x∈way,T.form x=.fields) :
 ∃leaf,Blank leaf ∧ Shaped T m (nest names leaf) ∧ emitted T m parts (nest names leaf)=some leaf := by
 induction h with
 | @field m part f hf=>
  have hfr:=hfl m (by simp)
  have hl:∃leaf,Blank leaf ∧ ∀inner,f.type=.message inner → Shaped T inner leaf:=by
   cases ht : f.type with
   | message inner=>
    obtain ⟨leaf,hb,hs⟩:=@exists_blank _ T inner
    exact ⟨leaf,hb,fun inner' heq=>FieldType.message.inj heq ▸ hs⟩
   | _=>exact ⟨.null,.null,by simp⟩
  obtain ⟨leaf,hb,hs⟩:=hl
  refine ⟨leaf,hb,shaped_single hfr hf hs,?_⟩
  rw [emitted_field hfr hf]
  simp [nest,member_single]
 | @within m inner part f parts names way hf ht hr ih=>
  have hfr:=hfl m (by simp)
  obtain ⟨leaf,hb,hs,hem⟩:=ih fun x hx=>hfl x (by simp [hx])
  have hst:nest (f.jsonName::names) leaf=.object [f.jsonName] [nest names leaf]:=rfl
  refine ⟨leaf,hb,?_,?_⟩
  · rw [hst]
    exact shaped_single hfr hf fun inner' heq=>by
     rw [ht] at heq
     exact FieldType.message.inj heq ▸ hs
  · rw [hst,emitted_within hfr hf ht hr.ne_nil.1]
    simp [member_single,hem]

/-- Inside a free-form message a request can hold the addressed names without holding the field. -/
theorem Addresses.free_request {x:M} {parts names:List Bytes} {way:List M}
 (h:Addresses T m parts names way) (ho:ownForm T way=some x) (ha:T.form x=.any) :
 Shaped T m (nest names .null) ∧ emitted T m parts (nest names .null)=none := by
 induction h with
 | @field m part f hfl=>
  by_cases hf : T.form m=.fields
  · simp [ownForm,hf] at ho
  · have hx:m=x:=by simpa [ownForm,hf] using ho
    subst hx
    exact ⟨by simp [nest,Shaped,ha],emitted_own hf _ _⟩
 | @within m inner part f parts names way hfl ht hr ih=>
  have hst:nest (f.jsonName::names) .null=.object [f.jsonName] [nest names .null]:=rfl
  rw [hst]
  by_cases hf : T.form m=.fields
  · obtain ⟨hs,hem⟩:=ih (by simpa [ownForm,hf] using ho)
    refine ⟨shaped_single hf hfl fun inner' heq=>?_,?_⟩
    · rw [ht] at heq
      exact FieldType.message.inj heq ▸ hs
    · rw [emitted_within hf hfl ht hr.ne_nil.1]
      simp [member_single,hem]
  · have hx:m=x:=by simpa [ownForm,hf] using ho
    subst hx
    exact ⟨by simp [Shaped,ha],emitted_own hf _ _⟩
end

section

/-- Both clients find the addressed field by its selector, and delete just that field. -/
def SelectorReaches (m:M) (fieldPath:Bytes) (args:Json) : Prop :=
 (∀fullName,∃path,protobufJSONFieldPath (goField T) fullName m fieldPath=.ok path ∧
  getNestedField args path=emitted T m (fieldPath.splitOn dot) args ∧
  deleteNestedField args path=withoutField T m (fieldPath.splitOn dot) args) ∧
 getNested args (pythonFieldPath T m fieldPath)=emitted T m (fieldPath.splitOn dot) args ∧
 deleteNested args (pythonFieldPath T m fieldPath)=withoutField T m (fieldPath.splitOn dot) args

variable {T}
lemma Addresses.selectorReaches_iff {m:M} {fieldPath:Bytes} {names:List Bytes} {way:List M}
 (h:Addresses T m (fieldPath.splitOn dot) names way) (args:Json) : SelectorReaches T m fieldPath args ↔
  (([dot].intercalate names).splitOn dot).foldlM Json.member args =
   emitted T m (fieldPath.splitOn dot) args ∧
  deleteParts (([dot].intercalate names).splitOn dot) args =
   withoutField T m (fieldPath.splitOn dot) args := by
 have hgo:∀fullName,protobufJSONFieldPath (goField T) fullName m fieldPath =
   .ok ([dot].intercalate names):=by
  intro fullName
  rw [protobufJSONFieldPath,h.jsonParts_eq]
  rfl
 have hp:pythonFieldPath T m fieldPath=[dot].intercalate names:=by
  rw [pythonFieldPath,h.translated_eq fun _=>rfl]
 constructor
 · intro hr
   rw [←hp]
   exact hr.2
 · rintro ⟨hg,hd⟩
   refine ⟨fun fullName=>⟨_,hgo fullName,hg,hd⟩,?_,?_⟩
   · rw [hp]
     exact hg
   · rw [hp]
     exact hd

/-- Selectors reach their field in every request when no JSON name on the path has a dot in it and
  the path does not enter a free-form message. Where the field can be emitted, or no name has a
  dot, this is needed as well. -/
theorem selector_reaches_iff {m:M} {fieldPath:Bytes} {names:List Bytes} {way:List M}
  (h:Addresses T m (fieldPath.splitOn dot) names way) :
  ((∀name∈names,dot∉name) ∧ (∀x,ownForm T way=some x → T.form x≠.any) →
   ∀args,Shaped T m args → SelectorReaches T m fieldPath args) ∧
  ((∀x∈way,T.form x=.fields) ∨ (∀name∈names,dot∉name) →
   (∀args,Shaped T m args → SelectorReaches T m fieldPath args) →
   (∀name∈names,dot∉name) ∧ ∀x,ownForm T way=some x → T.form x≠.any) := by
 constructor
 · rintro ⟨hd,ha⟩ args hs
   rw [h.selectorReaches_iff,splitOn_intercalate dot hd h.ne_nil.2]
   exact ⟨h.lookup_eq ha hs,h.delete_eq ha hs⟩
 · intro hc hr
   have hd:∀name∈names,dot∉name := by
    rcases hc with hfl|hd
    · obtain ⟨leaf,hb,hs,hem⟩:=h.exists_request hfl
      have hg:=((h.selectorReaches_iff _).mp (hr _ hs)).1
      rw [hem,hb.nest_lookup] at hg
      rw [← hg]
      exact not_mem_of_mem_splitOn _
    · exact hd
   refine ⟨hd,fun x ho ha=>?_⟩
   obtain ⟨hs,hem⟩:=h.free_request ho ha
   have hg:=((h.selectorReaches_iff _).mp (hr _ hs)).1
   rw [splitOn_intercalate dot hd h.ne_nil.2,hem] at hg
   have hf:=Blank.null.nest_lookup.mpr (rfl:names=names)
   rw [hg] at hf
   cases hf
end

inductive ProfileMessage where
 | request
 | user

def profileField : ProfileMessage → Bytes → Option (RequestField ProfileMessage)
 | .request,part=>
  if part=text "user" then some ⟨text "user",.message .user⟩
  else if part=text "user_id" then some ⟨text "user.id",.scalar⟩
  else none
 | .user,part=>if part=text "id" then some ⟨text "id",.scalar⟩ else none

def profileTypes : RequestTypes ProfileMessage where
 field:=profileField
 form _:=.fields
 jsonName_unique := by
  have hnames:text "user" ≠ text "user.id" := by decide
  intro m part part' f f' hf hf' hname
  cases m <;> simp only [profileField] at hf hf' <;> grind

def profileArgs : Json :=
 .object [text "user",text "user.id"]
  [.object [text "id"] [.string (text "1")],.string (text "2")]

lemma profileArgs_shaped : Shaped profileTypes .request profileArgs := by
 have hu:Shaped profileTypes .user (.object [text "id"] [.string (text "1")]):=
  @shaped_single _ profileTypes .user (text "id") ⟨text "id",.scalar⟩ _ rfl rfl (by simp)
 refine .inr ⟨rfl,by decide,⟨text "user",⟨text "user",.message .user⟩,rfl,rfl,?_⟩,
  ⟨text "user_id",⟨text "user.id",.scalar⟩,rfl,rfl,by simp⟩,trivial⟩
 intro inner heq
 exact FieldType.message.inj heq ▸ hu

theorem wire_name_not_reached :
  Addresses profileTypes .request ((text "user_id").splitOn dot) [text "user.id"] [.request] ∧
  Shaped profileTypes .request profileArgs ∧
  emitted profileTypes .request ((text "user_id").splitOn dot) profileArgs =
   some (.string (text "2")) ∧
  getNested profileArgs (pythonFieldPath profileTypes .request (text "user_id")) =
   some (.string (text "1")) ∧
  ¬SelectorReaches profileTypes .request (text "user_id") profileArgs := by
 have hg:getNested profileArgs (pythonFieldPath profileTypes .request (text "user_id")) =
   some (.string (text "1")) := by rfl
 have hem:emitted profileTypes .request ((text "user_id").splitOn dot) profileArgs =
   some (.string (text "2")) := by rfl
 have hp:(text "user_id").splitOn dot=[text "user_id"] := by decide
 have ha:Addresses profileTypes .request [text "user_id"] [text "user.id"] [.request] :=
  @Addresses.field _ profileTypes .request (text "user_id") ⟨text "user.id",.scalar⟩ rfl
 refine ⟨hp ▸ ha,profileArgs_shaped,hem,hg,fun hr=>?_⟩
 have hs:=hg.symm.trans (hr.2.1.trans hem)
 exact absurd hs (by simp; decide)

theorem nested_name_reached : SelectorReaches profileTypes .request (text "user.id") profileArgs :=
 have hp:(text "user.id").splitOn dot=[text "user",text "id"] := by decide
 have ha:Addresses profileTypes .request ((text "user.id").splitOn dot)
   [text "user",text "id"] [.request,.user] :=
  hp ▸ @Addresses.within _ profileTypes .request .user _ ⟨text "user",.message .user⟩ _ _ _ rfl rfl
   (@Addresses.field _ profileTypes .user (text "id") ⟨text "id",.scalar⟩ rfl)
 (selector_reaches_iff ha).1 ⟨by decide,by simp [ownForm,profileTypes]⟩ profileArgs
  profileArgs_shaped
end InvariantProtocol.RequestSelectors
