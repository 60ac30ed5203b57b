import InvariantProtocol.PythonDescriptor
import InvariantProtocol.CompileOutcome
import InvariantProtocol.SlotShape
import InvariantProtocol.Reordering
namespace InvariantProtocol.DescriptorChecks
open List GoResult DataSchema ProtoDescriptor CompilerState DataCompiler
open CompiledTree Occurrences SlotShape PythonDescriptor
open ClickHouseSchema (lastNumber isNilType)

variable {ed:EnumDescriptor} {kind:PrimitiveKind}

section

def logicalAttributes (a:FieldAttributes) : FieldAttributes :=
 { a with name := "",stableId:=0,description := "",storageNameSource := "" }

def logicalEnum (enum:EnumType) : EnumType :=
 { enum with values:=enum.values.map fun value=>{ value with description := "" } }

mutual

/-- A field without its ID, its storage name and the source of it, and its descriptions. -/
def logicalField : Field → Field
 | .nil=>.nil
 | .mk a t=>.mk (logicalAttributes a) (logicalType t)

def logicalType : DataType → DataType
 | .enum p enum=>.enum p (logicalEnum enum)
 | .struct p fields=>.struct p (logicalFields fields)
 | .list p element fixedLength=>.list p (logicalField element) fixedLength
 | .map p key value=>.map p (logicalField key) (logicalField value)
 | t=>t

def logicalFields : List Field → List Field
 | []=>[]
 | field::rest=>logicalField field::logicalFields rest
end

/-- What a node says of its type, apart from the nodes below it. -/
def headType : DataType → DataType
 | .enum p enum=>.enum p (logicalEnum enum)
 | .struct p _=>.struct p []
 | .list p _ fixedLength=>.list p .nil fixedLength
 | .map p _ _=>.map p .nil .nil
 | t=>t

lemma logicalFields_eq (fields:List Field) : logicalFields fields=fields.map logicalField := by
 induction fields with
 | nil=>rfl
 | cons field rest ih=>rw [logicalFields,ih,map_cons]

def isFlat : DataType → Bool
 | .enum _ _ | .struct _ _ | .list _ _ _ | .map _ _ _=>false
 | _=>true

variable {t:DataType}
lemma headType_flat {u:DataType} (h:isFlat u=true) : headType t=headType u ↔ t=u := by
 cases u <;> simp only [isFlat,Bool.false_eq_true] at h <;> cases t <;> simp [headType]

lemma logicalType_congr {u:DataType} (hh:headType t=headType u)
 (hc:t.children.map logicalField=u.children.map logicalField) : logicalType t=logicalType u := by
 cases t <;> cases u <;> simp_all [headType,logicalType,DataType.children,logicalFields_eq]

lemma headType_enum : headType t=headType (enumType ed) ↔ ∃enum,t=.enum ed.fullName enum ∧
  enum.fullName=ed.fullName ∧ enum.closed=ed.isClosed ∧
  (enum.values.map fun value=>(value.name,value.number)) =
   ed.values.map fun value=>(value.name,value.number) := by
 have hv:∀values : List EnumValue,
   (values.map fun value=>(value.name,value.number)) =
     (ed.values.map fun value=>(value.name,value.number)) ↔
    (values.map fun value=>EnumValue.mk value.name value.number "") =
     ed.values.map fun value=>EnumValue.mk value.name value.number "":=by
  intro values
  have hi:Function.Injective fun p : String×ℤ=>EnumValue.mk p.1 p.2 "":=by
   rintro ⟨a,b⟩ ⟨c,d⟩ h
   simpa using h
  rw [←hi.list_map.eq_iff]
  simp [Function.comp_def]
 cases t with
 | enum p enum=>
  obtain ⟨fullName,values,closed⟩:=enum
  simp only [headType,enumType,logicalEnum,DataType.enum.injEq,EnumType.mk.injEq,hv,map_map,
   Function.comp_def]
  grind
 | _=>simp [headType,enumType]
end

section

def entryByName (files:Files) (fd:FieldDescriptor) (name:String) : Option FieldDescriptor :=
 (fd.messageType files).bind fun entry=>entry.fields.find? (·.name=name)

/-- The protobuf rules on map fields: they are repeated, and the fields of their entries are named
  as they are numbered. -/
def MapsValid (files:Files) (md:MessageDescriptor) : Prop :=
 ∀fd∈md.fields,fd.isMap files=true → fd.cardinality=.repeated ∧
  entryByName files fd "key" = fd.mapKey files ∧ entryByName files fd "value" = fd.mapValue files

instance (files:Files) (md:MessageDescriptor) : Decidable (MapsValid files md) :=
 inferInstanceAs (Decidable (∀fd∈md.fields,_))

def MapFieldsValid (m:Descriptor) : Prop :=
 MapsValid m.files m.message ∧ ∀md∈m.files.messages,MapsValid m.files md

instance : DecidablePred MapFieldsValid:=fun _=>inferInstanceAs (Decidable (_ ∧ _))

/-- No field that the compiler reaches declares a default. -/
def NoDefaults (m:Descriptor) : Prop :=
 ∀md fd path parent,Occurs m.files m.message (.proto md fd) path parent → fd.default=none

variable {files:Files} {fd:FieldDescriptor}
lemma entryField_ok {name:String} {field:FieldDescriptor} :
 entryField files fd name=.ok field ↔ entryByName files fd name=some field := by
 unfold entryField entryByName
 split
 · next hn=>simp only [hn,reduceCtorEq]
 · next found hf=>simp only [hf,Except.ok.injEq,Option.some.injEq]

lemma isMapField_eq (h:fd.isMap files=true → fd.cardinality=.repeated) :
 isMapField files fd=fd.isMap files := by
 cases hm : fd.isMap files with
 | true=>simpa [isMapField,h hm,FieldDescriptor.isMap] using hm
 | false=>
  rw [FieldDescriptor.isMap] at hm
  simp [isMapField,hm]

lemma isList_iff (hm:fd.isMap files=false) : fd.isList files=true ↔ fd.cardinality=.repeated := by
 simp [FieldDescriptor.isList,hm]

lemma descriptorPresence_eq (h:fd.isMap files=true → fd.cardinality=.repeated) :
 descriptorPresence files fd=fieldPresence files fd := by
 unfold descriptorPresence fieldPresence
 rw [isMapField_eq h]
 cases hm : fd.isMap files with
 | true=>rfl
 | false=>
  have hl:=isList_iff hm
  by_cases hr : fd.cardinality=.repeated
  · simp [hr,hl.2 hr]
  · have hsn:fd.isList files=false:=by
     simpa [hr] using hl
    simp only [hr,hsn]
    cases ho : fd.containingOneof with
    | none=>simp
    | some oneof=>cases hs : oneof.isSynthetic <;> simp [proto3Optional,ho,hs]
end

section
variable {files:Files} {md:MessageDescriptor} {fd:FieldDescriptor}
 {options:Option FieldOptions} {t:DataType}
/-- Options that select a semantic type and nothing else. -/
def Semantic (options:Option FieldOptions) : Prop :=
 ∀o,options=some o → o.fixedList=none ∧ o.unknown=false ∧
  o.semanticType.any SemanticType.hasUnknown=false

lemma refinedType_refinement {o:FieldOptions} (hs:Semantic (some o))
 (h:refinedType fd o=.ok t) : valueRefinement t=some o := by
 obtain ⟨hl,hu,hi⟩:=hs o rfl
 obtain ⟨semanticType,fixedList,unknown⟩:=o
 dsimp only at hl hu hi
 subst hl hu
 unfold refinedType at h
 cases semanticType with
 | none=>simp at h
 | some s=>
  cases s with
  | decimal precision scale unknown=>
   obtain rfl : unknown=false:=hi
   simp only [bind_ok,rejectIf_ok,exists_const,pure_ok] at h
   obtain ⟨-,-,-,rfl⟩:=h
   rfl
  | uuid unknown=>
   obtain rfl : unknown=false:=hi
   simp only [bind_ok,rejectIf_ok,exists_const,pure_ok] at h
   obtain ⟨-,rfl⟩:=h
   rfl
  | fixedBytes byteLength unknown=>
   obtain rfl : unknown=false:=hi
   simp only [bind_ok,rejectIf_ok,exists_const,pure_ok] at h
   obtain ⟨-,-,-,rfl⟩:=h
   rfl
end

section
variable {t:DataType} {name path:String}
lemma checkWrapper_ok : checkWrapper t name kind path=.ok () ↔ t=.primitive name kind := by
 cases t <;> simp [checkWrapper]

lemma checkTimestamp_ok : checkTimestamp t name path=.ok () ↔ t=.timestamp name .nanosecond "UTC" := by
 cases t <;> simp [checkTimestamp]

lemma checkDuration_ok : checkDuration t name path=.ok () ↔ t=.duration name .nanosecond := by
 cases t <;> simp [checkDuration]

lemma checkJson_ok {kind:JsonKind} : checkJson t name kind path=.ok () ↔ t=.json name kind := by
 cases t <;> simp [checkJson]

lemma checkWellKnown_none (h:wellKnownType name=none) : checkWellKnown t name path=none := by
 have hk:∀n∈wellKnownTypes.map Prod.fst,name≠n:=by
  simp only [wellKnownType,Option.map_eq_none_iff,List.find?_eq_none,decide_eq_true_eq] at h
  intro n hn heq
  obtain ⟨entry,hen,rfl⟩:=List.mem_map.1 hn
  exact h entry hen heq.symm
 have hw:wrapperKinds.lookup name=none:=by
  rw [lookup_eq_none_iff]
  intro entry hen
  have hm:∀entry∈wrapperKinds,entry.1∈wellKnownTypes.map Prod.fst:=by decide
  simpa using hk _ (hm entry hen)
 have hj:jsonKinds.lookup name=none:=by
  rw [lookup_eq_none_iff]
  intro entry hen
  have hm:∀entry∈jsonKinds,entry.1∈wellKnownTypes.map Prod.fst:=by decide
  simpa using hk _ (hm entry hen)
 have ht:=hk "google.protobuf.Timestamp" (by decide)
 have hd:=hk "google.protobuf.Duration" (by decide)
 simp [checkWellKnown,hw,ht,hd,hj]

lemma checkWellKnown_some (t:DataType) (path:String) {typ:DataType} (h:wellKnownType name=some typ) :
 ∃result,checkWellKnown t name path=some result ∧ (result=.ok () ↔ t=typ) := by
 obtain ⟨entry,hf,rfl⟩:=Option.map_eq_some_iff.1 h
 have hn:entry.1=name:=by simpa using List.find?_some hf
 have hm:=List.mem_of_find?_eq_some hf
 subst hn
 simp only [wellKnownTypes,map_cons,map_nil,cons_append,nil_append,mem_cons,
  not_mem_nil,or_false] at hm
 rcases hm with rfl|rfl|rfl|rfl|rfl|rfl|rfl|rfl|rfl|rfl|rfl|rfl|rfl |
  rfl | rfl
 case inr.inr.inr.inr.inr.inr.inr.inr.inr.inl=>exact ⟨_,rfl,checkTimestamp_ok⟩
 case inr.inr.inr.inr.inr.inr.inr.inr.inr.inr.inl=>exact ⟨_,rfl,checkDuration_ok⟩
 all_goals
  first
  | exact ⟨_,rfl,checkWrapper_ok⟩
  | exact ⟨_,rfl,checkJson_ok⟩

lemma wellKnownType_flat {typ:DataType} (h:wellKnownType name=some typ) :
 isFlat typ=true ∧ isNilType typ=false ∧ valueRefinement typ=none := by
 obtain ⟨entry,hf,rfl⟩:=Option.map_eq_some_iff.1 h
 have hfl:∀entry∈wellKnownTypes,isFlat entry.2=true ∧ isNilType entry.2=false ∧
   valueRefinement entry.2=none:=by decide
 exact hfl entry (List.mem_of_find?_eq_some hf)
end

section
variable {defaultValue:FieldDescriptor → String} {files:Files} {fd:FieldDescriptor}
 {t:DataType} {numberPath:List UInt32} {path:String}
lemma validateValueType_primitive (h:primitiveKind fd.kind=some kind) :
 validateValueType defaultValue files t fd numberPath path =
  checkPrimitive t fd.kind kind path := by
 unfold validateValueType
 simp [h]

lemma validateValueType_enum (h:fd.kind=.enum ed) :
 validateValueType defaultValue files t fd numberPath path=checkEnum t ed path := by
 unfold validateValueType
 simp [h,primitiveKind]

variable {md:MessageDescriptor} {o:FieldOptions} {options:Option FieldOptions}
lemma messageType_kind (h:fd.messageType files=some md) :
 primitiveKind fd.kind=none ∧ ∀ed,fd.kind≠.enum ed := by
 unfold FieldDescriptor.messageType at h
 split at h
 · next hk=>simp [hk,primitiveKind]
 · next hk=>simp [hk,primitiveKind]
 · cases h

lemma validateValueType_message (h:fd.messageType files=some md) :
 validateValueType defaultValue files t fd numberPath path=.ok () ↔
  (∃typ,wellKnownType md.fullName=some typ ∧ t=typ) ∨
  (wellKnownType md.fullName=none ∧ ∃fields,t=.struct md.fullName fields ∧
   validateMessageFields defaultValue files fields md numberPath path=.ok ()) := by
 obtain ⟨hp,hen⟩:=messageType_kind h
 unfold validateValueType
 simp only [hp,h]
 cases hk : wellKnownType md.fullName with
 | some typ=>
  obtain ⟨result,hr,hok⟩:=checkWellKnown_some t path hk
  simp [hr,hok,eq_comm]
 | none=>
  rw [checkWellKnown_none hk]
  cases t with
  | struct p fields=>
   simp only [validateMessageFields,bind_ok,rejectIf_ok,not_not,DataType.struct.injEq,
    reduceCtorEq,false_and,exists_const,true_and,and_assoc,exists_and_left,exists_eq_left',
    exists_false,false_or]
  | _=>simp

variable {cs:List Field} {u:DataType}
lemma validateValueType_plain (h:valueShape files fd none cs=.ok u) :
 validateValueType defaultValue files t fd numberPath path=.ok () ∧ valueRefinement t=none ↔
  headType t=headType u ∧ ∀md,valueContainer files fd none=some md →
   validateMessageFields defaultValue files t.children md numberPath path=.ok () := by
 unfold valueShape at h
 cases hp : primitiveKind fd.kind with
 | some kind=>
  simp only [hp,Except.ok.injEq] at h
  subst h
  rw [validateValueType_primitive hp,headType_flat rfl,valueContainer,
   primitiveKind_messageType hp]
  cases t <;> simp [checkPrimitive,valueRefinement,and_comm]
 | none=>
  simp only [hp] at h
  split at h
  · next ed hkn=>
    simp only [Except.ok.injEq] at h
    subst h
    rw [validateValueType_enum hkn,headType_enum]
    have hl:valueContainer files fd none=none:=by
     simp [valueContainer,FieldDescriptor.messageType,hkn]
    cases t with
    | enum p enum=>
     simp only [checkEnum,bind_ok,rejectIf_ok,not_or,not_not,hl,valueRefinement,DataType.enum.injEq]
     grind
    | _=>simp [checkEnum]
  · cases hm : fd.messageType files with
    | none=>simp [hm] at h
    | some md=>
     simp only [hm,bind_ok,exists_unit_ok] at h
     obtain ⟨-,h⟩:=h
     rw [validateValueType_message hm]
     cases hk : wellKnownType md.fullName with
     | some typ=>
      simp only [hk,Except.ok.injEq] at h
      subst h
      obtain ⟨hf,-,hr⟩:=wellKnownType_flat hk
      have hl:valueContainer files fd none=none:=by
       simp [valueContainer,hm,Option.filter_some,hk]
      simp only [headType_flat hf,hl,Option.some.injEq,exists_eq_left',reduceCtorEq,false_and,
       or_false,false_implies,implies_true,and_true]
      exact and_iff_left_of_imp fun ht=>ht ▸ hr
     | none=>
      simp only [hk,Except.ok.injEq] at h
      subst h
      have hc:valueContainer files fd none=some md:=by
       simp [valueContainer,hm,Option.filter_some,hk]
      simp only [hc,reduceCtorEq,false_and,true_and,Option.some.injEq,forall_eq']
      cases t with
      | struct p fields=>simp [headType,valueRefinement,DataType.children,eq_comm]
      | _=>simp [headType]

lemma refinedType_carrier (h:refinedType fd o=.ok u) :
 (fd.kind=.string ∧ ((∃precision scale,u=.decimal "" precision scale) ∨ u=.uuid "")) ∨
  (fd.kind=.bytes ∧ ∃byteLength,u=.fixedBytes "" byteLength) := by
 unfold refinedType at h
 split at h
 · simp only [bind_ok,rejectIf_ok,not_not,exists_const,pure_ok] at h
   obtain ⟨hk,-,-,rfl⟩:=h
   exact Or.inl ⟨hk,Or.inl ⟨_,_,rfl⟩⟩
 · simp only [bind_ok,rejectIf_ok,not_not,exists_const,pure_ok] at h
   obtain ⟨hk,rfl⟩:=h
   exact Or.inl ⟨hk,Or.inr rfl⟩
 · simp only [bind_ok,rejectIf_ok,not_not,exists_const,pure_ok] at h
   obtain ⟨hk,-,-,rfl⟩:=h
   exact Or.inr ⟨hk,_,rfl⟩
 · cases h

lemma validateValueType_refined (hs:Semantic (some o)) (h:refinedType fd o=.ok u) :
 validateValueType defaultValue files t fd numberPath path=.ok () ∧ valueRefinement t=some o ↔
  t=u := by
 rw [←refinedType_refinement hs h]
 obtain ⟨hk,⟨precision,scale,rfl⟩|rfl⟩|⟨hk,byteLength,rfl⟩:=refinedType_carrier h
 · have hp:primitiveKind fd.kind=some .string:=by simp [hk,primitiveKind]
   rw [validateValueType_primitive hp]
   cases t <;> simp [checkPrimitive,valueRefinement,hk]
 · have hp:primitiveKind fd.kind=some .string:=by simp [hk,primitiveKind]
   rw [validateValueType_primitive hp]
   cases t <;> simp [checkPrimitive,valueRefinement,hk]
 · have hp:primitiveKind fd.kind=some .bytes:=by simp [hk,primitiveKind]
   rw [validateValueType_primitive hp]
   cases t <;> simp [checkPrimitive,valueRefinement,hk]

/-- The value at a slot of another descriptor is accepted when it has the head that the compiler
  gives the slot and, below a message, fields that are accepted. -/
theorem validateValueType_iff (hs:Semantic options) (h:valueShape files fd options cs=.ok u) :
 validateValueType defaultValue files t fd numberPath path=.ok () ∧
   valueRefinement t=options ↔
  headType t=headType u ∧ ∀md,valueContainer files fd options=some md →
   validateMessageFields defaultValue files t.children md numberPath path=.ok () := by
 cases options with
 | none=>exact validateValueType_plain h
 | some o=>
  have hf:isFlat u=true:=by
   obtain ⟨-,⟨_,_,rfl⟩|rfl⟩|⟨-,_,rfl⟩:=refinedType_carrier h <;> rfl
  rw [validateValueType_refined hs h,headType_flat hf]
  simp [valueContainer]

lemma valueShape_refinement (hs:Semantic options) (h:valueShape files fd options cs=.ok u) :
 valueRefinement u=options := by
 unfold valueShape at h
 split at h
 · exact refinedType_refinement hs h
 · split at h
   · obtain rfl:=Except.ok.inj h
     rfl
   · split at h
     · obtain rfl:=Except.ok.inj h
       rfl
     · split at h
       · cases h
       · simp only [bind_ok,exists_unit_ok] at h
         obtain ⟨-,h⟩:=h
         split at h
         · next hk=>
           obtain rfl:=Except.ok.inj h
           exact (wellKnownType_flat hk).2.2
         · obtain rfl:=Except.ok.inj h
           rfl

lemma validateValueType_value (h:validateValueType defaultValue files t fd numberPath path=.ok ()) :
 isNilType t=false ∧ expectedRefinement t=valueRefinement t := by
 cases hp : primitiveKind fd.kind with
 | some kind=>
  rw [validateValueType_primitive hp] at h
  cases t <;> first | exact ⟨rfl,rfl⟩ | cases h
 | none=>
  cases hm : fd.messageType files with
  | some md=>
   rw [validateValueType_message hm] at h
   obtain ⟨typ,hk,rfl⟩|⟨-,fields,rfl,-⟩:=h
   · obtain ⟨hf,hnil,-⟩:=wellKnownType_flat hk
     refine ⟨hnil,?_⟩
     cases t <;> first | rfl | cases hf
   · exact ⟨rfl,rfl⟩
  | none=>
   unfold validateValueType at h
   simp only [hp,hm] at h
   split at h
   · simp_all
   · cases t <;> first | exact ⟨rfl,rfl⟩ | cases h
   · cases h
   · simp_all
end

section
variable {defaultValue:FieldDescriptor → String} {files:Files} {md:MessageDescriptor}
 {fd:FieldDescriptor} {a:FieldAttributes} {numberPath:List UInt32} {path:String}
lemma checkPresence_ok : checkPresence files a fd path=.ok () ↔
 (a.presence,a.nullable,a.oneof)=descriptorPresence files fd := by
 unfold checkPresence
 simp [Prod.ext_iff,and_assoc]

lemma checkField_ok (hd:fd.default=none) : checkField defaultValue files a md fd path=.ok () ↔
  a.protoFullName=fd.fullName md ∧ a.jsonName=fd.jsonName ∧
   (a.presence,a.nullable,a.oneof)=descriptorPresence files fd ∧ a.hasDefault=false := by
 unfold checkField
 simp only [bind_ok,exists_unit_ok,checkPresence_ok]
 simp [hd]

lemma checkChild_ok {role:SyntheticRole} {protoFullName:String} :
 checkChild a numberPath path role protoFullName=.ok () ↔
  a.name=expectedName role ∧ logicalAttributes a =
   logicalAttributes (syntheticAttributes "" protoFullName numberPath 0 role) := by
 obtain ⟨⟩:=a
 simp only [checkChild,ne_eq,bind_ok,rejectIf_ok,Decidable.not_not,not_or,Bool.not_eq_true,
  exists_const,logicalAttributes,syntheticAttributes,FieldAttributes.mk.injEq,and_true,true_and]
 grind
end

variable {md:MessageDescriptor} {parent:List UInt32} {path:String}
lemma length_dropLast_iff {numbers:List UInt32} :
 (numbers.length=parent.length+1 ∧ numbers.dropLast=parent) ↔
  numbers=parent++[numbers.getLastD 0] := by
 constructor
 · rintro ⟨hl,rfl⟩
   have hne:numbers≠[]:=by
    rintro rfl
    simp at hl
   rw [List.getLastD_eq_getLast?,List.getLast?_eq_some_getLast hne]
   exact (dropLast_append_getLast hne).symm
 · intro h
   rw [h]
   simp

lemma indexField_ok {seen seen':List UInt32} {f:Field} : indexField parent path seen f=.ok seen' ↔
  f.attributes.syntheticRole=.protoField ∧
   f.attributes.protoNumberPath=parent++[lastNumber f] ∧ lastNumber f∉seen ∧
   seen++[lastNumber f]=seen' := by
 unfold indexField
 simp only [bind_ok,rejectIf_ok,not_not,exists_const,pure_ok]
 refine and_congr_right fun _=>?_
 rw [←and_assoc]
 refine and_congr_left fun _=>?_
 exact length_dropLast_iff

lemma checkNumbers_ok {fields:List Field} : checkNumbers md parent path fields=.ok () ↔
 (∀f∈fields,f.attributes.syntheticRole=.protoField ∧
  f.attributes.protoNumberPath=parent++[lastNumber f]) ∧
 (fields.map lastNumber).Nodup ∧ ∀n,n∈fields.map lastNumber ↔ n∈declaredNumbers md := by
 have hl:=@loop_register _ _ (indexField parent path) (fun seen fs=>seen=fs.map lastNumber)
  (fun f=>f.attributes.syntheticRole=.protoField ∧
   f.attributes.protoNumberPath=parent++[lastNumber f])
  (fun g f=>lastNumber g≠lastNumber f)
  (fun seen fs f hs=>by
   subst hs
   simp only [indexField_ok,mem_map,not_exists,not_and,and_assoc]
   simp)
  (fun seen fs f seen' hs h=>by
   obtain ⟨-,-,-,rfl⟩:=indexField_ok.1 h
   simp [hs])
  fields [] [] rfl
 simp only [not_mem_nil,false_implies,implies_true,true_and,nil_append] at hl
 rw [Nodup,pairwise_map,←and_assoc,←hl.1]
 unfold checkNumbers
 simp only [bind_ok,rejectIf_ok,not_or,not_not,filter_eq_nil_iff,decide_eq_true_eq]
 constructor
 · rintro ⟨numbers,hn,hm,hex⟩
   obtain rfl:=hl.2 numbers hn
   exact ⟨⟨_,hn⟩,fun n=>⟨hex n,hm n⟩⟩
 · rintro ⟨⟨numbers,hn⟩,hsm⟩
   obtain rfl:=hl.2 numbers hn
   exact ⟨_,hn,fun n=>(hsm n).2,fun n=>(hsm n).1⟩
end InvariantProtocol.DescriptorChecks
