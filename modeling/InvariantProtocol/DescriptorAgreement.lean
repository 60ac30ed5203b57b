import InvariantProtocol.DescriptorChecks
/-! The Python validator accepts the descriptors that the Go compiler describes: at one slot it asks
of a node what the compiler would put there, up to names, IDs and descriptions. -/
namespace InvariantProtocol.DescriptorAgreement
open ListRelations GoResult DataSchema DataIdentity DataEntries ProtoDescriptor CompilerState
open DataCompiler CompiledTree CompilerWalk Occurrences SlotShape CompileOutcome PythonDescriptor
open Reordering DescriptorChecks
open PythonArrow (joinPath)
open ClickHouseSchema (lastNumber isNilType)
open List hiding le_antisymm le_total le_trans length map

variable {fields:List Field} {name:String} {role:SyntheticRole}

section
variable {defaultValue:FieldDescriptor → String} {files:Files}
def childSuffix : SyntheticRole → String
 | .listElement=>"[]"
 | .mapKey=>".key"
 | .mapValue=>".value"
 | _=>""

/-- Where the diagnostics of the validator place a node below the given place. -/
def Slot.place (path name:String) : Slot → String
 | .proto _ _=>joinPath path name
 | .synthetic role _ _ _ _=>path++childSuffix role

/-- The validator accepts the node at the slot. The refinement of a collection child is checked on
  the field that holds the collection. -/
def Accepted (defaultValue:FieldDescriptor → String) (files:Files) (numberPath:List UInt32)
  (path:String) (field:Field) : Slot → Prop
 | .proto md fd=>field.attributes.syntheticRole=.protoField ∧
   field.attributes.protoNumberPath=numberPath++[fd.number.toUInt32] ∧
   validateField defaultValue files md numberPath path field=.ok ()
 | .synthetic role _ protoFullName fd options=>
   validateSyntheticField defaultValue files field fd numberPath (path++childSuffix role) role
    protoFullName=.ok () ∧ valueRefinement field.type=options

def numberLe (n k:UInt32) : Prop:=n.toInt32.toInt≤k.toInt32.toInt

lemma numberLe_antisymm {n k:UInt32} (h:numberLe n k) (h':numberLe k n) : n=k := by
 have heq:=Int32.toInt_inj.1 (le_antisymm h h')
 simpa using congrArg Int32.toUInt32 heq

def InOrder (fields:List Field) : Prop:=(fields.map lastNumber).Pairwise numberLe

lemma sortedFields_pairwise (fields:List FieldDescriptor) :
 ((sortedFields fields).map fun fd=>fd.number.toUInt32).Pairwise numberLe := by
 have ht:Std.Total fun left right : FieldDescriptor=>
   left.number.toInt≤right.number.toInt:=⟨fun _ _=>le_total _ _⟩
 have htr:IsTrans FieldDescriptor fun left right=>
   left.number.toInt≤right.number.toInt:=⟨fun _ _ _=>le_trans⟩
 rw [pairwise_map]
 refine (pairwise_insertionSort _ fields).imp fun h=>?_
 simpa [numberLe] using h

variable {md:MessageDescriptor} {parent:List UInt32}
lemma validateFields_ok {path:String} : validateFields defaultValue files md parent path fields=.ok () ↔
  ∀f∈fields,validateField defaultValue files md parent path f=.ok () := by
 induction fields with
 | nil=>simp [validateFields]
 | cons f rest ih=>
  simp only [validateFields,bind_ok,exists_unit_ok,ih,forall_mem_cons]

/-- Fields in the order of their numbers are compared with the declared ones in that order. -/
theorem validateMessageFields_iff {path:String}
 (hd:(declaredNumbers md).Nodup) (ho:InOrder fields) :
 validateMessageFields defaultValue files fields md parent path=.ok () ↔
  Forall₂ (fun s f=>Accepted defaultValue files parent path f s) (protoSlots md) fields := by
 have hs:((sortedFields md.fields).map fun fd=>fd.number.toUInt32).Perm
   (declaredNumbers md):=(perm_insertionSort _ md.fields).map _
 rw [protoSlots,forall₂_map_left_iff]
 simp only [validateMessageFields,bind_ok,exists_unit_ok,checkNumbers_ok,validateFields_ok]
 constructor
 · rintro ⟨⟨hpt,hnd,hsm⟩,hfd⟩
   have hn:((sortedFields md.fields).map fun fd=>fd.number.toUInt32) =
     fields.map lastNumber:=
    List.Perm.eq_of_pairwise (fun _ _ _ _=>numberLe_antisymm) (sortedFields_pairwise md.fields)
     ho (hs.trans ((perm_ext_iff_of_nodup hd hnd).2
      fun n=>(hsm n).symm))
   have hpr:=map_eq_map_iff_forall₂.1 hn.symm
   refine (((forall₂_and_left _ _).2 ⟨fun f hf=>hf,hpr⟩).imp fun f fd hf=>?_).flip
   obtain ⟨hm,hnm⟩:=hf
   obtain ⟨hr,hp⟩:=hpt f hm
   exact ⟨hr,hnm ▸ hp,hfd f hm⟩
 · intro h
   have hl:∀fd f,Accepted defaultValue files parent path f (.proto md fd) →
     fd.number.toUInt32=lastNumber f:=by
    rintro fd f ⟨-,hp,-⟩
    simp [lastNumber,hp]
   have hn:((sortedFields md.fields).map fun fd=>fd.number.toUInt32) =
     fields.map lastNumber:=map_eq_map_iff_forall₂.2 (h.imp hl)
   refine ⟨⟨fun f hf=>?_,?_,fun n=>?_⟩,fun f hf=>?_⟩
   · obtain ⟨fd,-,hr,hp,hfl⟩:=forall₂_mem_right h hf
     exact ⟨hr,hl fd f ⟨hr,hp,hfl⟩ ▸ hp⟩
   · rw [←hn]
     exact hs.nodup_iff.2 hd
   · rw [←hn]
     exact hs.mem_iff
   · obtain ⟨fd,-,-,-,hfl⟩:=forall₂_mem_right h hf
     exact hfl
end

section
variable {defaultValue:FieldDescriptor → String} {files:Files} {numberPath:List UInt32}
 {path:String} {a:FieldAttributes} {t u:DataType}
def Describes (files:Files) (numberPath:List UInt32) (a:FieldAttributes) (slot:Slot) : Prop :=
 logicalAttributes a=logicalAttributes (slot.attributes files (slot.path numberPath) "" "" 0)

def Sound (files:Files) : Slot → Prop
 | .proto md fd=>MapsValid files md ∧ (declaredNumbers md).Nodup ∧ fd∈md.fields ∧
   fd.default=none
 | .synthetic _ _ _ _ options=>Semantic options

def RefinedOnce : DataType → Prop
 | .list _ element fixedLength=>fixedLength≠0 → valueRefinement element.type=none
 | .map _ key value=>valueRefinement key.type=none ∧ valueRefinement value.type=none
 | _=>True

structure Regular (a:FieldAttributes) (t:DataType) : Prop where
 default : a.hasDefault=false → a.protobufDefault = ""
 name : a.syntheticRole≠.protoField → a.name=expectedName a.syntheticRole
 refined : RefinedOnce t
 ordered : ∀p fields,t=.struct p fields → InOrder fields

variable {md:MessageDescriptor} {fd:FieldDescriptor}
lemma describes_proto (hd:fd.default=none) (hr:Regular a t)
 (hm:fd.isMap files=true → fd.cardinality=.repeated) : Describes files numberPath a (.proto md fd) ↔
  a.syntheticRole=.protoField ∧ a.protoNumberPath=numberPath++[fd.number.toUInt32] ∧
   checkField defaultValue files a md fd path=.ok () := by
 rw [checkField_ok hd,descriptorPresence_eq hm]
 have hp:=hr.default
 obtain ⟨⟩:=a
 simp only [Describes,Slot.attributes,Slot.path,protoAttributes,logicalAttributes,hd,
  FieldAttributes.mk.injEq,Prod.ext_iff,Option.isSome_none,Option.getD_none] at hp ⊢
 grind

variable {options:Option FieldOptions}
lemma valueSlots_accepted (hs:valueShape files fd options u.children=.ok u)
 (hh:headType t=headType u)
 (hsc:∀md,valueContainer files fd options=some md → (declaredNumbers md).Nodup) (hr:Regular a t) :
 (∀md,valueContainer files fd options=some md →
   validateMessageFields defaultValue files t.children md numberPath path=.ok ()) ↔
  Forall₂ (fun s f=>Accepted defaultValue files numberPath path f s)
   (valueSlots files fd options) t.children := by
 rw [valueSlots_of_container]
 obtain ⟨md,fields,hc,-,rfl⟩|⟨hl,hc⟩:=valueShape_cases hs
 · obtain ⟨fields',rfl⟩ : ∃fields',t=.struct md.fullName fields':=by
    cases t <;> simp_all [headType]
   have ho:=hr.ordered _ _ rfl
   simp only [hc,Option.some.injEq,forall_eq',Option.map_some,Option.getD_some]
   exact validateMessageFields_iff (hsc md hc) ho
 · have hch:t.children=[]:=by
    cases u <;> cases t <;> simp_all [headType,isLeaf,DataType.children]
   simp [hc,hch]

lemma accepted_synthetic {protoFullName:String} (hs:Semantic options) (hrl:role≠.protoField)
 (hsh:valueShape files fd options u.children=.ok u)
 (hsc:∀md,valueContainer files fd options=some md → (declaredNumbers md).Nodup) (hrg:Regular a t) :
 Accepted defaultValue files numberPath path (.mk a t) (.synthetic role name protoFullName fd options) ↔
  Describes files numberPath a (.synthetic role name protoFullName fd options) ∧
   headType t=headType u ∧
   Forall₂ (fun s f=>Accepted defaultValue files numberPath (path++childSuffix role) f s)
    (valueSlots files fd options) t.children := by
 simp only [Accepted,validateSyntheticField,bind_ok,exists_unit_ok,rejectIf_ok,checkChild_ok,
  exists_const]
 constructor
 · rintro ⟨⟨⟨-,ha⟩,-,hvalue⟩,hr⟩
   obtain ⟨hh,hf⟩:=(validateValueType_iff hs hsh).1 ⟨hvalue,hr⟩
   exact ⟨ha,hh,(valueSlots_accepted hsh hh hsc hrg).1 hf⟩
 · rintro ⟨ha,hh,hc⟩
   obtain ⟨hvalue,hr⟩:=(validateValueType_iff hs hsh).2
    ⟨hh,(valueSlots_accepted hsh hh hsc hrg).2 hc⟩
   have hn:a.syntheticRole=role:=congrArg FieldAttributes.syntheticRole ha
   refine ⟨⟨⟨?_,ha⟩,?_,hvalue⟩,hr⟩
   · rw [hrg.name (hn ▸ hrl),hn]
   · simp [(validateValueType_value hvalue).1]

lemma validateField_found (hfd:fd∈md.fields) (hd:(declaredNumbers md).Nodup)
 (hp:a.protoNumberPath=numberPath++[fd.number.toUInt32]) :
 validateField defaultValue files md numberPath path (.mk a t)=.ok () ↔
  checkField defaultValue files a md fd (joinPath path a.name)=.ok () ∧
   validateFieldType files t fd (joinPath path a.name)
    (validateMapType defaultValue files t md fd a.protoNumberPath (joinPath path a.name))
    (validateListType defaultValue files t md fd a.protoNumberPath (joinPath path a.name))
    (validateValueType defaultValue files t fd a.protoNumberPath (joinPath path a.name)) =
     .ok () ∧ fd.options=expectedRefinement t := by
 have hf:md.fields.find? (fun fd' => fd'.number.toUInt32=fd.number.toUInt32)=some fd:=
  (find?_eq_some_of_nodup hd fd _).2 ⟨hfd,rfl⟩
 simp only [validateField,hp,getLastD_concat,hf,bind_ok,exists_unit_ok,
  validateFieldRefinement,rejectIf_ok,not_not]

lemma validateMapType_iff (hky:entryByName files fd "key" = fd.mapKey files)
 (hvalue:entryByName files fd "value" = fd.mapValue files) (hr:RefinedOnce t) :
 validateMapType defaultValue files t md fd numberPath path=.ok () ↔
  headType t=.map "" .nil .nil ∧
   Forall₂ (fun s f=>Accepted defaultValue files numberPath path f s)
    (mapSlots files md fd) t.children := by
 cases t with
 | map p key value=>
  obtain ⟨hpk,hp⟩:=hr
  simp only [validateMapType,bind_ok,exists_unit_ok,rejectIf_ok,exists_const,not_not,
   entryField_ok,hky,hvalue,headType,DataType.map.injEq,and_true,mapSlots,DataType.children]
  refine and_congr_right fun _=>?_
  constructor
  · rintro ⟨keyField,hk,hko,valueField,hv,hvo⟩
    rw [hk,hv]
    exact .cons ⟨hko,hpk⟩ (.cons ⟨hvo,hp⟩ .nil)
  · intro h
    split at h
    · next keyField valueField hk hv=>
      simp only [forall₂_cons,List.Forall₂.nil,and_true] at h
      exact ⟨keyField,hk,h.1.1,valueField,hv,h.2.1⟩
    · simp at h
 | _=>simp [validateMapType,headType]

section
variable (ha:(Slot.proto md fd).Admitted files)
include ha
lemma admitted_fixedList {fixedList:FixedListOptions}
 (hfx:fd.options.bind FieldOptions.fixedList=some fixedList) :
 fd.options=some { fixedList:=some { length:=fixedList.length } } ∧ fixedList.length≠0 := by
 obtain ⟨ho,hl,-,-⟩:=ha
 obtain ⟨⟨semanticType,fixed,unknown⟩,hsm,hf⟩:=Option.bind_eq_some_iff.1 hfx
 obtain ⟨length,unknownLength⟩:=fixedList
 dsimp only at hf
 subst hf
 simp only [validateFixedList,dataFieldOptions,hsm,Option.bind_some,bind_ok,rejectIf_ok,
  exists_const,pure_ok] at ho hl
 obtain ⟨hun,-,hu,-⟩:=ho
 obtain ⟨-,hs,-,hp,-⟩:=hl
 simp_all

/-- A list is fixed by its field or refined in its elements, not both. -/
theorem listOptions_iff {p:String} {element:Field} {fixedLength:ℕ}
 (hr:RefinedOnce (.list p element fixedLength)) :
 fd.options=expectedRefinement (.list p element fixedLength) ↔
  fixedLength=listFixedLength fd.options ∧
   valueRefinement element.type=listElementOptions fd.options := by
 have hvalue:∀o,valueRefinement element.type=some o → o.fixedList=none:=by
  intro o ho
  cases hfl : element.type <;> simp [hfl,valueRefinement] at ho <;> simp [←ho]
 simp only [expectedRefinement]
 cases hf : fd.options.bind FieldOptions.fixedList with
 | none=>
  have hl:listFixedLength fd.options=0:=by simp [listFixedLength,hf]
  have hel:listElementOptions fd.options=fd.options:=by simp [listElementOptions,hf]
  rw [hl,hel]
  by_cases hz : fixedLength=0
  · simp [hz,eq_comm]
  · simp only [ne_eq,hz,not_false_eq_true,if_true,false_and,iff_false]
    intro hop
    simp [hop] at hf
 | some fixedList=>
  obtain ⟨hop,hp⟩:=admitted_fixedList ha hf
  have hl:listFixedLength fd.options=fixedList.length:=by
   simp [listFixedLength,hf]
  have hel:listElementOptions fd.options=none:=by simp [listElementOptions,hf]
  rw [hl,hel]
  by_cases hz : fixedLength=0
  · simp only [hz,ne_eq,not_true_eq_false,if_false,hp.symm,false_and,iff_false]
    intro hn
    have hfr:=hvalue _ (hn.symm.trans hop)
    simp at hfr
  · have hpl:=hr hz
    simp [hz,hop,hpl,eq_comm]

lemma validateListType_iff (hr:RefinedOnce t) :
 validateListType defaultValue files t md fd numberPath path=.ok () ∧
   fd.options=expectedRefinement t ↔
  headType t=.list "" .nil (listFixedLength fd.options) ∧
   Forall₂ (fun s f=>Accepted defaultValue files numberPath path f s)
    [elementSlot md fd] t.children := by
 cases t with
 | list p element fixedLength=>
  simp only [validateListType,bind_ok,rejectIf_ok,exists_const,not_not,headType,
   DataType.list.injEq,true_and,DataType.children,forall₂_cons,List.Forall₂.nil,and_true,Accepted,
   elementSlot,childSuffix,and_assoc]
  refine and_congr_right fun _=>?_
  rw [and_left_comm]
  refine and_congr_right fun _=>?_
  exact listOptions_iff ha hr
 | _=>simp [validateListType,headType]

lemma admitted_semantic
 (hf:fd.options.bind FieldOptions.fixedList=none) : Semantic fd.options := by
 intro o ho
 obtain ⟨hop,-⟩:=ha
 simp only [dataFieldOptions,ho,bind_ok,rejectIf_ok,exists_const,pure_ok] at hop
 refine ⟨by simpa [ho] using hf,by simpa using hop.1,by simpa using hop.2.1⟩

lemma element_semantic :
 Semantic (listElementOptions fd.options) := by
 cases hf : fd.options.bind FieldOptions.fixedList with
 | none=>simpa [listElementOptions,hf] using admitted_semantic ha hf
 | some fixedList=>simp [listElementOptions,hf,Semantic]

lemma singular_semantic (hl:fd.isList files=false) :
 Semantic fd.options := by
 refine admitted_semantic ha ?_
 cases hfx : fd.options.bind FieldOptions.fixedList with
 | none=>rfl
 | some fixedList=>
  obtain ⟨-,hf,-⟩:=ha
  simp [validateFixedList,hfx,hl] at hf
end

lemma validateFieldType_iff (hsn:Sound files (.proto md fd))
 (ha:(Slot.proto md fd).Admitted files) (hs:(Slot.proto md fd).shape files u.children=.ok u)
 (hsc:∀md',(Slot.proto md fd).container files=some md' → (declaredNumbers md').Nodup)
 (hr:Regular a t) : validateFieldType files t fd path
   (validateMapType defaultValue files t md fd numberPath path)
   (validateListType defaultValue files t md fd numberPath path)
   (validateValueType defaultValue files t fd numberPath path)=.ok () ∧
   fd.options=expectedRefinement t ↔
  headType t=headType u ∧
   Forall₂ (fun s f=>Accepted defaultValue files numberPath path f s)
    ((Slot.proto md fd).children files) t.children := by
 obtain ⟨hmp,-,hfd,-⟩:=hsn
 have hrp:fd.isMap files=true → fd.cardinality=.repeated:=fun h=>(hmp fd hfd h).1
 simp only [validateFieldType,bind_ok,rejectIf_ok,exists_const,isMapField_eq hrp]
 cases hm : fd.isMap files with
 | true=>
  obtain ⟨-,hk,hvalue⟩:=hmp fd hfd hm
  have hp:fd.options=none:=by
   have hn:=ha.2.2.2
   simpa [hm] using hn
  have hh:headType u=.map "" .nil .nil:=by
   simp only [Slot.shape,hm,if_true] at hs
   split at hs
   · rw [←Except.ok.inj hs,headType]
   · cases hs
  have hsl:(Slot.proto md fd).children files=mapSlots files md fd:=by
   simp [Slot.children,hm]
  rw [hh,hsl,if_pos rfl,hp,validateMapType_iff hk hvalue hr.refined,and_assoc,
   and_comm (b := none=_),←and_assoc]
  cases t <;> simp [headType,isNilType,expectedRefinement,valueRefinement]
 | false=>
  rw [if_neg Bool.false_ne_true]
  by_cases hc : fd.cardinality=.repeated
  · have hl:=(isList_iff hm).2 hc
    have hh:headType u=.list "" .nil (listFixedLength fd.options):=by
     simp only [Slot.shape,hm,Bool.false_eq_true,if_false,hl,if_true] at hs
     split at hs
     · rw [←Except.ok.inj hs,headType]
     · cases hs
    have hsl:(Slot.proto md fd).children files=[elementSlot md fd]:=by
     simp [Slot.children,hm,hl]
    rw [if_pos hc,and_assoc,validateListType_iff ha hr.refined,hh,hsl]
    cases t <;> simp [headType,isNilType]
  · have hl:fd.isList files=false:=by simpa [hc] using isList_iff hm
    have hsm:=singular_semantic ha hl
    have hvalue:valueShape files fd fd.options u.children=.ok u:=by
     simpa [Slot.shape,hm,hl] using hs
    have hsl:(Slot.proto md fd).children files=valueSlots files fd fd.options:=by
     simp [Slot.children,hm,hl]
    have hcn:(Slot.proto md fd).container files=valueContainer files fd fd.options:=by
     simp [Slot.container,hm,hl]
    rw [hcn] at hsc
    rw [if_neg hc,hsl]
    constructor
    · rintro ⟨⟨-,hok⟩,ho⟩
      rw [(validateValueType_value hok).2] at ho
      obtain ⟨hh,hf⟩:=(validateValueType_iff hsm hvalue).1 ⟨hok,ho.symm⟩
      exact ⟨hh,(valueSlots_accepted hvalue hh hsc hr).1 hf⟩
    · rintro ⟨hh,hch⟩
      obtain ⟨hok,ho⟩:=(validateValueType_iff hsm hvalue).2
       ⟨hh,(valueSlots_accepted hvalue hh hsc hr).2 hch⟩
      obtain ⟨ht,hex⟩:=validateValueType_value hok
      exact ⟨⟨by simp [ht],hok⟩,by rw [hex,ho]⟩

/-- At one slot: the attributes the compiler gives, the head it gives, and accepted children. -/
theorem accepted_iff {slot:Slot} (hs:Sound files slot) (ha:slot.Admitted files)
 (hp:Slot.Proper slot) (hsh:slot.shape files u.children=.ok u)
 (hsc:∀md,slot.container files=some md → (declaredNumbers md).Nodup) (hr:Regular a t) :
 Accepted defaultValue files numberPath path (.mk a t) slot ↔
  Describes files numberPath a slot ∧ headType t=headType u ∧
   Forall₂ (fun s f=>Accepted defaultValue files (slot.path numberPath)
    (Slot.place path a.name slot) f s) (slot.children files) t.children := by
 cases slot with
 | synthetic role name protoFullName fd options=>
  have hrl:role≠.protoField:=by
   rintro rfl
   simp [Slot.Proper,isCollectionRole] at hp
  exact accepted_synthetic hs hrl hsh hsc hr
 | proto md fd=>
  obtain ⟨hm,hd,hfd,hdf⟩:=id hs
  have hrp:fd.isMap files=true → fd.cardinality=.repeated:=fun h=>(hm fd hfd h).1
  have hf:=@validateFieldType_iff defaultValue files (numberPath++[fd.number.toUInt32])
   (joinPath path a.name) a t u md fd hs ha hsh hsc hr
  rw [@describes_proto defaultValue files numberPath (joinPath path a.name) a t md fd hdf hr
   hrp,Slot.path,Slot.place,←hf]
  simp only [Accepted,Field.attributes_mk,and_assoc]
  refine and_congr_right fun _=>and_congr_right fun hpt=>?_
  rw [validateField_found hfd hd hpt,hpt]
end

section
variable {m:Descriptor} {h:CompilerHistory}
structure Placed (m:Descriptor) (h:CompilerHistory) (f:Field) (slot:Slot)
  (parentPath:List UInt32) (parent:String) : Prop where
 occurs : Occurs m.files m.message slot parentPath parent
 compiled : ∃fuel stack,CompiledField m.files h f fuel stack slot parentPath parent
 distinct : ((fieldEntries parent f).map Prod.fst).Nodup
 sound : Sound m.files slot

lemma heads_sublist {files:Files} {fuel:ℕ} {stack:List String} {path:List UInt32}
 {identity:String} {slots:List Slot} (hp:∀s∈slots,Slot.Proper s)
 (ht:Forall₂ (fun s f=>CompiledField files h f fuel stack s path identity) slots fields) :
 (slots.map fun s=>appendIdentity identity s.segment).Sublist
  ((fieldsEntries identity fields).map Prod.fst) := by
 induction ht with
 | nil=>exact .slnil
 | @cons s f slots fields hf _ ih=>
  cases f with
  | nil=>exact hf.elim
  | mk a t=>
   rw [fieldsEntries,fieldEntries,NodeOk.segment hf.1 (hp s mem_cons_self)]
   simp only [map_cons,cons_append,map_append]
   have hr:=ih fun s hs=>hp s (mem_cons_of_mem _ hs)
   exact (hr.trans (sublist_append_right _ _)).cons_cons _

section
variable {files:Files} {fuel:ℕ} {stack:List String} {path:List UInt32} {identity:String}
 {md:MessageDescriptor} {fields:List Field}
lemma scope_distinct (ht:Forall₂ (fun s f=>CompiledField files h f fuel stack s path identity)
  (protoSlots md) fields) (hd:((fieldsEntries identity fields).map Prod.fst).Nodup) :
 (declaredNumbers md).Nodup := by
 have hh:=(heads_sublist (fun s=>protoSlots_proper) ht).nodup hd
 have hi:((sortedFields md.fields).map fun fd=>fd.number.toUInt32).map
   (fun n=>appendIdentity identity (fieldIdentitySegment n.toInt32)) =
    (protoSlots md).map fun s=>appendIdentity identity s.segment:=by
  simp [protoSlots,Slot.segment,Function.comp_def]
 rw [←hi] at hh
 exact ((perm_insertionSort _ md.fields).map _).nodup_iff.1 hh.of_map

lemma scope_inOrder (ht:Forall₂ (fun s f=>CompiledField files h f fuel stack s path identity)
  (protoSlots md) fields) : InOrder fields := by
 have hn:((sortedFields md.fields).map fun fd=>fd.number.toUInt32) =
   fields.map lastNumber:=by
  rw [map_eq_map_iff_forall₂]
  rw [protoSlots,forall₂_map_left_iff] at ht
  refine ht.imp fun fd f hf=>?_
  rw [lastNumber,hf.node.attributes]
  simp [Slot.attributes,protoAttributes,Slot.path]
 rw [InOrder,←hn]
 exact sortedFields_pairwise md.fields
end

section
variable {f:Field} {slot:Slot} {path:List UInt32} {parent:String}
 {a:FieldAttributes} {t:DataType}
lemma Placed.node (hf:Placed m h (.mk a t) slot path parent) : NodeOk m.files h slot path parent a t := by
 obtain ⟨_,_,hc⟩:=hf.compiled
 exact hc.node

variable {protoFullName:String} {fd:FieldDescriptor} {options:Option FieldOptions}
lemma Placed.refinement (hf:Placed m h f (.synthetic role name protoFullName fd options) path parent) :
 valueRefinement f.type=options := by
 obtain ⟨_,_,hc⟩:=hf.compiled
 exact valueShape_refinement hf.sound hc.node.shape

lemma Placed.below (hf:Placed m h (.mk a t) slot path parent) :
 ((t.children.flatMap (fieldEntries (appendIdentity parent slot.segment))).map Prod.fst).Nodup := by
 have hd:=hf.distinct
 rw [fieldEntries,NodeOk.segment hf.node hf.occurs.proper,map_cons,nodup_cons,typeEntries_eq] at hd
 exact hd.2

lemma Placed.scope (hf:Placed m h (.mk a t) slot path parent) {md:MessageDescriptor}
 (hc:slot.container m.files=some md) : (declaredNumbers md).Nodup ∧ InOrder t.children := by
 obtain ⟨fuel,stack,hcm⟩:=hf.compiled
 obtain ⟨fuel',stack',hch⟩:=hcm.type.children
 have hb:=hf.below
 rw [←fieldsEntries_eq] at hb
 have hs:slot.children m.files=protoSlots md:=by
  cases slotForm_of_shape hf.node.shape with
  | @struct _ md' fields hc' hs _=>
   obtain rfl : md'=md:=by simpa [hc'] using hc
   exact hs
  | list element hm hl=>simp [Slot.container,hl] at hc
  | map key value hm=>simp [Slot.container,hm] at hc
  | leaf _ hc' _=>simp [hc'] at hc
 rw [hs] at hch
 exact ⟨scope_distinct hch hb,scope_inOrder hch⟩

lemma Placed.child_sound (hv:MapFieldsValid m) (hd:NoDefaults m)
 (hf:Placed m h (.mk a t) slot path parent) {s:Slot} (hs:s∈slot.children m.files) : Sound m.files s := by
 have hoc:=Occurs.child hf.occurs hs
 obtain ⟨md,fd,hc,hfd,rfl⟩|⟨md,fd,rfl,-,-,rfl⟩ |
  ⟨md,fd,key,value,rfl,-,-,-,rfl | rfl⟩:=mem_children hs
 · exact ⟨hv.2 md (container_mem hc),(hf.scope hc).1,hfd,
    hd md fd _ _ hoc⟩
 · exact element_semantic hf.node.admitted
 · exact fun o ho=>nomatch ho
 · exact fun o ho=>nomatch ho

lemma Placed.children (hv:MapFieldsValid m) (hd:NoDefaults m)
 (hf:Placed m h (.mk a t) slot path parent) :
 Forall₂ (fun s c=>Placed m h c s (slot.path path) (appendIdentity parent slot.segment))
  (slot.children m.files) t.children := by
 obtain ⟨fuel,stack,hcm⟩:=hf.compiled
 obtain ⟨fuel',stack',hc⟩:=hcm.type.children
 have hb:=hf.below
 rw [map_flatMap] at hb
 rw [forall₂_iff_get] at hc ⊢
 refine ⟨hc.1,fun i hi hi' => ⟨.child hf.occurs (get_mem _ _),?_,?_,?_⟩⟩
 · exact ⟨fuel',stack',hc.2 i hi hi'⟩
 · exact (List.nodup_flatMap.1 hb).1 _ (get_mem _ _)
 · exact hf.child_sound hv hd (get_mem _ _)

lemma Occurs.childName
 (ho:Occurs m.files m.message (.synthetic role name protoFullName fd options) path parent) :
 name=expectedName role := by
 cases ho with
 | child _ hs=>
  obtain ⟨_,_,_,_,heq⟩|⟨_,_,_,_,_,heq⟩|⟨_,_,_,_,_,_,_,_,heq|heq⟩:=
   mem_children hs <;> cases heq <;> rfl

lemma Placed.refinedOnce (hv:MapFieldsValid m) (hd:NoDefaults m)
 (hf:Placed m h (.mk a t) slot path parent) : RefinedOnce t := by
 have hc:=hf.children hv hd
 cases slotForm_of_shape hf.node.shape with
 | struct fields _ _ _=>trivial
 | @list md fd element hm hl=>
  intro hfx
  have hs:(Slot.proto md fd).children m.files=[elementSlot md fd]:=by
   simp [Slot.children,hm,hl]
  rw [hs] at hc
  obtain ⟨hel,-⟩:=List.forall₂_cons.1 hc
  rw [hel.refinement,listElementOptions,if_pos]
  cases ho : fd.options.bind FieldOptions.fixedList with
  | none=>simp [listFixedLength,ho] at hfx
  | some fixedList=>rfl
 | @map md fd key value hm=>
  have hs:(Slot.proto md fd).children m.files=mapSlots m.files md fd:=by
   simp [Slot.children,hm]
  rw [hs,mapSlots] at hc
  split at hc
  · obtain ⟨hk,hr⟩:=List.forall₂_cons.1 hc
    obtain ⟨hvalue,-⟩:=List.forall₂_cons.1 hr
    exact ⟨hk.refinement,hvalue.refinement⟩
  · cases hc
 | leaf hlf _ _=>cases t <;> simp_all [isLeaf,RefinedOnce]

lemma Placed.regular (hv:MapFieldsValid m) (hd:NoDefaults m)
 (hf:Placed m h (.mk a t) slot path parent) : Regular a t where
 default hdefault:=by
  have ha:=hf.node.attributes
  cases slot with
  | proto md fd=>
   rw [ha] at hdefault ⊢
   have hn:fd.default=none:=by
    simpa [Slot.attributes,protoAttributes] using hdefault
   simp [Slot.attributes,protoAttributes,hn]
  | synthetic role name protoFullName fd options=>
   rw [ha]
   rfl
 name hrole:=by
  have ha:=hf.node.attributes
  cases slot with
  | proto md fd=>
   rw [ha] at hrole
   exact absurd rfl hrole
  | synthetic role name protoFullName fd options=>
   rw [ha]
   exact Occurs.childName hf.occurs
 refined:=hf.refinedOnce hv hd
 ordered p fields ht:=by
  subst ht
  cases slotForm_of_shape hf.node.shape with
  | struct _ hc _ _=>exact (hf.scope hc).2
  | leaf hl _ _=>cases hl

variable {defaultValue:FieldDescriptor → String}
lemma Placed.accepted_iff {place:String} {b:FieldAttributes} {u:DataType}
 (hf:Placed m h (.mk b u) slot path parent) (hr:Regular a t) :
 Accepted defaultValue m.files path place (.mk a t) slot ↔
  Describes m.files path a slot ∧ headType t=headType u ∧
   Forall₂ (fun s f=>Accepted defaultValue m.files (slot.path path)
    (Slot.place place a.name slot) f s) (slot.children m.files) t.children :=
 DescriptorAgreement.accepted_iff hf.sound hf.node.admitted hf.occurs.proper hf.node.shape
  (fun _ hc=>(hf.scope hc).1) hr

lemma Placed.describes (hf:Placed m h (.mk a t) slot path parent) : Describes m.files path a slot := by
 rw [Describes,hf.node.attributes]
 cases slot <;> rfl

lemma Placed.accepted (hv:MapFieldsValid m) (hd:NoDefaults m)
 (hf:Placed m h f slot path parent) (place:String) : Accepted defaultValue m.files path place f slot := by
 induction f using Field.tree_induction generalizing slot path parent place with
 | hnil=>
  obtain ⟨_,_,hcm⟩:=hf.compiled
  exact hcm.elim
 | hmk a t ih=>
  rw [hf.accepted_iff (hf.regular hv hd)]
  refine ⟨hf.describes,rfl,?_⟩
  have hc:=hf.children hv hd
  rw [forall₂_iff_get] at hc ⊢
  exact ⟨hc.1,fun i hi hi' => ih _ (get_mem _ _) (hc.2 i hi hi') _⟩

/-- A node that is accepted at a slot is, logically, the node that the compiler makes of it. -/
theorem Placed.logical_eq {m':Descriptor} {h':CompilerHistory} {f':Field} {slot':Slot}
 {path':List UInt32} {parent' place:String} (hv:MapFieldsValid m) (hd:NoDefaults m)
 (hv':MapFieldsValid m') (hd':NoDefaults m') (hf:Placed m h f slot path parent)
 (hf':Placed m' h' f' slot' path' parent') (ha:Accepted defaultValue m'.files path' place f slot') :
 logicalField f=logicalField f' := by
 induction f using Field.tree_induction
  generalizing slot path parent f' slot' path' parent' place with
 | hnil=>
  obtain ⟨_,_,hc⟩:=hf.compiled
  exact hc.elim
 | hmk a t ih=>
  cases f' with
  | nil=>
   obtain ⟨_,_,hc⟩:=hf'.compiled
   exact hc.elim
  | mk b u=>
   rw [hf'.accepted_iff (hf.regular hv hd)] at ha
   obtain ⟨hds,hh,ha⟩:=ha
   have hat:logicalAttributes a=logicalAttributes b:=
    hds.trans hf'.describes.symm
   have hch:=hf.children hv hd
   have hc':=hf'.children hv' hd'
   rw [forall₂_iff_get] at hch hc' ha
   have hb:t.children.map logicalField=u.children.map logicalField:=by
    rw [map_eq_map_iff_forall₂,forall₂_iff_get]
    refine ⟨ha.1.symm.trans hc'.1,fun i hi hi' => ?_⟩
    have hs:i<(slot.children m.files).length:=hch.1 ▸ hi
    have hs':i<(slot'.children m'.files).length:=ha.1 ▸ hi
    exact ih _ (get_mem _ _) (hch.2 i hs hi) (hc'.2 i hs' hi')
     (ha.2 i hs' hi)
   rw [logicalField,logicalField,hat,logicalType_congr hh hb]
end

lemma Compilation.placed {previous:Option DatasetSchema} {d:DatasetSchema} {c v:DatasetCompiler}
 (C:Compilation m previous d c v) (hv:MapFieldsValid m) (hdf:NoDefaults m) :
 (declaredNumbers m.message).Nodup ∧ InOrder d.fields ∧
  Forall₂ (fun s f=>Placed m c.toCompilerHistory f s [] "") (protoSlots m.message) d.fields := by
 have ht:=compiledFields_forall₂.1 C.tree
 have hn:=C.active_nodup
 have hd:=scope_distinct ht hn
 refine ⟨hd,scope_inOrder ht,?_⟩
 rw [activeEntries,fieldsEntries_eq,map_flatMap] at hn
 rw [forall₂_iff_get] at ht ⊢
 refine ⟨ht.1,fun i hi hi' => ?_⟩
 have hs:=get_mem (protoSlots m.message) ⟨i,hi⟩
 obtain ⟨fd,hfd,hsl⟩:=mem_protoSlots.1 hs
 have hc:=ht.2 i hi hi'
 rw [hsl] at hc ⊢
 exact {
  occurs:=.top hfd
  compiled:=⟨_,_,hc⟩
  distinct:=(List.nodup_flatMap.1 hn).1 _ (get_mem _ _)
  sound:=⟨hv.1,hd,hfd,hdf _ _ _ _ (.top hfd)⟩ }
end

/-- The validator accepts what the compiler describes, and another descriptor that it accepts is
  compiled to the same logical tree. -/
theorem descriptor_validator_exact (defaultValue:FieldDescriptor → String) {m:Descriptor}
  {previous:Option DatasetSchema} {d:DatasetSchema} (hvalid:MapFieldsValid m)
  (hdefaults:NoDefaults m) (hcompile:compileMessage m previous=.ok d) :
  validateMessageDescriptor defaultValue d m=.ok () ∧
   ∀m' d',MapFieldsValid m' → NoDefaults m' → m'.message.fullName=m.message.fullName →
    validateMessageDescriptor defaultValue d m'=.ok () → compileMessage m' none=.ok d' →
    d.sourceMessage=d'.sourceMessage ∧ logicalFields d.fields=logicalFields d'.fields := by
 obtain ⟨c,v,C⟩:=compileMessage_ok.1 hcompile
 obtain ⟨hd,ho,hp⟩:=Compilation.placed C hvalid hdefaults
 constructor
 · simp only [validateMessageDescriptor,bind_ok,rejectIf_ok,exists_const,not_not]
   refine ⟨C.sourceMessage.symm,(validateMessageFields_iff hd ho).2 ?_⟩
   exact hp.imp fun s f hf=>hf.accepted hvalid hdefaults _
 · intro m' d' hv' hd' _ hv hc'
   obtain ⟨c',v',C'⟩:=compileMessage_ok.1 hc'
   obtain ⟨hds',-,hp'⟩:=Compilation.placed C' hv' hd'
   simp only [validateMessageDescriptor,bind_ok,rejectIf_ok,exists_const,not_not]
    at hv
   obtain ⟨hs,hfl⟩:=hv
   have ha:=(validateMessageFields_iff hds' ho).1 hfl
   refine ⟨hs.symm.trans C'.sourceMessage.symm,?_⟩
   rw [logicalFields_eq,logicalFields_eq,map_eq_map_iff_forall₂]
   rw [forall₂_iff_get] at hp hp' ha ⊢
   refine ⟨ha.1.symm.trans hp'.1,fun i hi hi' => ?_⟩
   have hsl:i<(protoSlots m.message).length:=hp.1 ▸ hi
   have hs':i<(protoSlots m'.message).length:=ha.1 ▸ hi
   exact Placed.logical_eq hvalid hdefaults hv' hd' (hp.2 i hsl hi)
    (hp'.2 i hs' hi') (ha.2 i hs' hi)

lemma noDefaults_of_messages {m:Descriptor} (hr:∀fd∈m.message.fields,fd.default=none)
 (hfiles:∀md∈m.files.messages,∀fd∈md.fields,fd.default=none) : NoDefaults m := by
 intro md fd path parent ho
 cases ho with
 | top hfd=>exact hr fd hfd
 | child _ hs=>
  obtain ⟨md',fd',hc,hf',heq⟩|⟨_,_,_,_,_,heq⟩ |
   ⟨_,_,_,_,_,_,_,_,heq | heq⟩:=mem_children hs <;> cases heq
  exact hfiles md (container_mem hc) fd hf'

def invoiceLine : MessageDescriptor where
 fullName := "shop.Line"
 fields:=[{ name := "sku",number:=1,kind:=.string },
  { name := "weights",number:=2,kind:=.double,cardinality:=.repeated,
    options:=some { fixedList:=some { length:=3 } } }]

def invoiceLinesEntry : MessageDescriptor where
 fullName := "shop.Invoice.LinesEntry"
 isMapEntry:=true
 fields:=[{ name := "key",number:=1,kind:=.string },
  { name := "value",number:=2,kind:=.message "shop.Line" }]

def invoice (comment:String) (arrange:List FieldDescriptor → List FieldDescriptor) : Descriptor where
 files:=⟨[invoiceLine,invoiceLinesEntry]⟩
 message :=
  { fullName := "shop.Invoice"
    fields:=arrange [
     { name := "total",number:=1,kind:=.string,fieldPresence:=true,
       jsonName := "total",comments:={ leading:=comment },
       options:=some { semanticType:=some (.decimal 12 2 false) } },
     { name := "lines",number:=2,kind:=.message "shop.Invoice.LinesEntry",
       cardinality:=.repeated,jsonName := "lines" }] }

@[irreducible] def invoiceDataset : DatasetSchema :=
 value (compileMessage (invoice "" id) none) (by decide +kernel)

@[irreducible] def commentedDataset : DatasetSchema :=
 value (compileMessage (invoice "the total" reverse) none) (by decide +kernel)

theorem invoice_accepted :
  validateMessageDescriptor (fun _=>"") invoiceDataset (invoice "the total" reverse)=.ok () ∧
   logicalFields invoiceDataset.fields=logicalFields commentedDataset.fields := by
 have hc:compileMessage (invoice "" id) none=.ok invoiceDataset := by
  rw [invoiceDataset]
  exact eq_ok_value _ _
 have hc':compileMessage (invoice "the total" reverse) none=.ok commentedDataset := by
  rw [commentedDataset]
  exact eq_ok_value _ _
 have hp:NoDefaults (invoice "" id):=noDefaults_of_messages (by decide) (by decide)
 have hp':NoDefaults (invoice "the total" reverse) :=
  noDefaults_of_messages (by decide) (by decide)
 have hs:succeeds (validateMessageDescriptor (fun _=>"") invoiceDataset
   (invoice "the total" reverse))=true := by decide +kernel
 obtain ⟨⟨⟩,ha⟩:=(succeeds_iff _).1 hs
 exact ⟨ha,((descriptor_validator_exact _ (by decide) hp hc).2 _ _
  (by decide) hp' rfl ha hc').2⟩
end InvariantProtocol.DescriptorAgreement
