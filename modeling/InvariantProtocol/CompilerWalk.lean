import InvariantProtocol.CompiledTree
namespace InvariantProtocol.CompilerWalk
open GoResult GoText DataSchema DataIdentity ProtoDescriptor CompilerState
open DataEntries DataCompiler CompilerTrace CompiledTree

def ValueSpec (files:Files) (fuel:ℕ) : Prop :=
 ∀(c:DatasetCompiler) (fd:FieldDescriptor) (path:List UInt32) (identity:String)
  (stack:List String) (t:DataType) (v:DatasetCompiler),
  compileValueType files fuel c fd path identity stack=.ok (t,v) ↔
   valueShape files fd none t.children=.ok t ∧
   CompiledType files c.toCompilerHistory t fuel stack (valueSlots files fd none) path identity ∧
   Runs c (typeTrace files identity t) v

/-- The types without children that a walk can build; it builds them without a further step. -/
def isLeaf : DataType → Bool
 | .nil=>false
 | .unset _=>false
 | .struct _ _=>false
 | .list _ _ _=>false
 | .map _ _ _=>false
 | _=>true

variable {t:DataType} {files:Files} {fuel:ℕ} {fd:FieldDescriptor}
lemma typeTrace_leaf (h:isLeaf t) (files:Files) (identity:String) : typeTrace files identity t=[] := by
 cases t <;> first | rfl | simp [isLeaf] at h

lemma compiledType_leaf (h:isLeaf t) {hi:CompilerHistory} {stack:List String} {slots:List Slot}
 {path:List UInt32} {identity:String} :
 CompiledType files hi t fuel stack slots path identity ↔ slots=[] := by
 cases t <;> first | rfl | simp [isLeaf] at h

lemma refinedType_leaf {options:FieldOptions} (h:refinedType fd options=.ok t) : isLeaf t := by
 unfold refinedType at h
 split at h
 · simp only [bind_ok,pure_ok,rejectIf_ok,exists_const] at h
   obtain ⟨-,-,-,rfl⟩:=h
   rfl
 · simp only [bind_ok,pure_ok,rejectIf_ok,exists_const] at h
   obtain ⟨-,rfl⟩:=h
   rfl
 · simp only [bind_ok,pure_ok,rejectIf_ok,exists_const] at h
   obtain ⟨-,-,-,rfl⟩:=h
   rfl
 · simp at h

lemma wellKnownType_leaf {name:String} (h:wellKnownType name=some t) : isLeaf t := by
 have ha:∀entry∈wellKnownTypes,isLeaf entry.2:=by decide
 obtain ⟨entry,hen,rfl⟩:=Option.map_eq_some_iff.1 h
 exact ha entry (List.mem_of_find?_eq_some hen)

lemma refined_ok (hV:ValueSpec files fuel) (c v:DatasetCompiler) (fd:FieldDescriptor)
 (path:List UInt32) (identity:String) (stack:List String) (options:Option FieldOptions) (t:DataType) :
 compileRefinedValueType (compileValueType files fuel) c fd path identity stack options =
   .ok (t,v) ↔
  valueShape files fd options t.children=.ok t ∧
  CompiledType files c.toCompilerHistory t fuel stack (valueSlots files fd options) path
   identity ∧ Runs c (typeTrace files identity t) v := by
 cases options with
 | none=>exact hV c fd path identity stack t v
 | some options=>
  have hsl:valueSlots files fd (some options)=[]:=rfl
  simp only [compileRefinedValueType,bind_ok,pure_ok,Prod.mk.injEq,valueShape,hsl]
  constructor
  · rintro ⟨s,hs,rfl,rfl⟩
    have hl:=refinedType_leaf hs
    exact ⟨hs,(compiledType_leaf hl).2 rfl,by rw [typeTrace_leaf hl];exact .refl _⟩
  · rintro ⟨hs,-,hr⟩
    rw [typeTrace_leaf (refinedType_leaf hs),runs_nil] at hr
    exact ⟨t,hs,rfl,hr.symm⟩

def isCollectionRole (role:SyntheticRole) : Prop :=
 role=.listElement ∨ role=.mapKey ∨ role=.mapValue

lemma nodeSegment_synthetic {role:SyntheticRole} (hr:isCollectionRole role)
 (name protoFullName:String) (path:List UInt32) (id:ℤ) :
 nodeSegment (syntheticAttributes name protoFullName path id role)=roleSegment role := by
 obtain rfl|rfl|rfl:=hr <;> rfl

lemma nodeSegment_proto (files:Files) (md:MessageDescriptor) (fd:FieldDescriptor)
 (parentPath:List UInt32) (name source:String) (id:ℤ) :
 nodeSegment (protoAttributes files md fd (parentPath++[fd.number.toUInt32]) name source id) =
  fieldIdentitySegment fd.number := by
 simp [nodeSegment,protoAttributes]

section
variable (hV:ValueSpec files fuel)
include hV
section
variable (c v:DatasetCompiler)
include c v
lemma synthetic_ok (fd:FieldDescriptor)
 (name protoFullName:String) (path:List UInt32) (parent:String) (role:SyntheticRole)
 (hrl:isCollectionRole role) (stack:List String) (options:Option FieldOptions) (field:Field) :
 compileSyntheticField (compileValueType files fuel) c fd name protoFullName path
   (appendIdentity parent (roleSegment role)) role stack options=.ok (field,v) ↔
  CompiledField files c.toCompilerHistory field fuel stack
   (.synthetic role name protoFullName fd options) path parent ∧
  Runs c (fieldTrace files parent field) v := by
 simp only [compileSyntheticField,bind_ok,pure_ok,Prod.exists,Prod.mk.injEq,exists_unit_ok,
  refined_ok hV]
 constructor
 · rintro ⟨id,u,hid,t,w,⟨hs,ht,hr⟩,hev,rfl,rfl⟩
   have hu:=allocate_history hid
   rw [hr.history,hu] at hev
   rw [hu] at ht
   refine ⟨⟨⟨rfl,trivial,trivial,hs,hev⟩,ht⟩,?_⟩
   rw [fieldTrace,nodeSegment_synthetic hrl]
   exact .allocate hid hr
 · rintro ⟨hf,hr⟩
   cases field with
   | nil=>exact hf.elim
   | mk a t=>
    obtain ⟨node,ht⟩:=hf
    obtain ⟨ha,-,-,hs,hev⟩:=node
    rw [fieldTrace] at hr
    have hsg:nodeSegment a=roleSegment role:=by
     rw [ha]
     exact nodeSegment_synthetic hrl _ _ _ _
    rw [hsg] at hr
    obtain ⟨u,hid,hr⟩:=runs_allocate.1 hr
    have hu:=allocate_history hid
    refine ⟨a.stableId,u,hid,t,v,⟨hs,?_,hr⟩,?_,?_,rfl⟩
    · rw [hu]
      exact ht
    · rw [hr.history,hu]
      rw [show syntheticAttributes name protoFullName path a.stableId role=a from ha.symm]
      exact hev
    · rw [show syntheticAttributes name protoFullName path a.stableId role=a from ha.symm]

lemma map_ok (md:MessageDescriptor)
 (fd:FieldDescriptor) (path:List UInt32) (identity:String) (stack:List String) (t:DataType) :
 compileMapType (compileValueType files fuel) files c md fd path identity stack=.ok (t,v) ↔
  (∃key value,t=.map "" key value) ∧
  CompiledType files c.toCompilerHistory t fuel stack (mapSlots files md fd) path identity ∧
  Runs c (typeTrace files identity t) v := by
 have hky:isCollectionRole .mapKey:=Or.inr (Or.inl rfl)
 have hvalue:isCollectionRole .mapValue:=Or.inr (Or.inr rfl)
 simp only [compileMapType,bind_ok,pure_ok,Prod.exists,Prod.mk.injEq,wrap_ok]
 constructor
 · rintro ⟨kf,hkf,key,u,hk,vf,hvf,value,w,hv,rfl,rfl⟩
   obtain ⟨hkf,hvf⟩ : fd.mapKey files=some kf ∧ fd.mapValue files=some vf:=by
    constructor
    · revert hkf
      cases fd.mapKey files <;> simp [mapEntryField]
    · revert hvf
      cases fd.mapValue files <;> simp [mapEntryField]
   obtain ⟨hkc,hkr⟩:=(synthetic_ok hV c u kf _ _ path identity .mapKey hky stack none key).1 hk
   obtain ⟨hvc,hvr⟩:=
    (synthetic_ok hV u w vf _ _ path identity .mapValue hvalue stack none value).1 hv
   rw [hkr.history] at hvc
   refine ⟨⟨key,value,rfl⟩,⟨keySlot md fd kf,valueSlot md fd vf,?_,hkc,hvc⟩,hkr.trans hvr⟩
   simp [mapSlots,hkf,hvf]
 · rintro ⟨⟨key,value,rfl⟩,⟨s,s',hs,hkc,hvc⟩,hr⟩
   unfold mapSlots at hs
   split at hs
   · next kf vf hkf hvf=>
     obtain ⟨rfl,rfl⟩ : keySlot md fd kf=s ∧ valueSlot md fd vf=s':=by simpa using hs
     obtain ⟨u,hkr,hvr⟩:=runs_append.1 hr
     have hk:=(synthetic_ok hV c u kf _ _ path identity .mapKey hky stack none key).2 ⟨hkc,hkr⟩
     rw [←hkr.history] at hvc
     have hv:=(synthetic_ok hV u v vf _ _ path identity .mapValue hvalue stack none value).2
      ⟨hvc,hvr⟩
     exact ⟨kf,by simp [mapEntryField,hkf],key,u,hk,vf,by simp [mapEntryField,hvf],
      value,v,hv,rfl,rfl⟩
   · simp at hs

lemma list_ok (md:MessageDescriptor)
 (fd:FieldDescriptor) (path:List UInt32) (identity:String) (stack:List String) (t:DataType) :
 compileListType (compileValueType files fuel) c md fd path identity stack fd.options =
   .ok (t,v) ↔
  (∃element,t=.list "" element (listFixedLength fd.options)) ∧
  CompiledType files c.toCompilerHistory t fuel stack [elementSlot md fd] path identity ∧
  Runs c (typeTrace files identity t) v := by
 have hrl:isCollectionRole .listElement:=Or.inl rfl
 simp only [compileListType,bind_ok,pure_ok,Prod.exists,Prod.mk.injEq,wrap_ok]
 constructor
 · rintro ⟨element,u,he,rfl,rfl⟩
   obtain ⟨hc,hr⟩:=(synthetic_ok hV c u fd _ _ path identity .listElement hrl stack
    (listElementOptions fd.options) element).1 he
   exact ⟨⟨element,rfl⟩,⟨elementSlot md fd,rfl,hc⟩,hr⟩
 · rintro ⟨⟨element,rfl⟩,⟨s,hs,hc⟩,hr⟩
   obtain rfl : elementSlot md fd=s:=by simpa using hs
   exact ⟨element,v,(synthetic_ok hV c v fd _ _ path identity .listElement hrl stack
    (listElementOptions fd.options) element).2 ⟨hc,hr⟩,rfl,rfl⟩

lemma fieldType_ok (md:MessageDescriptor)
 (fd:FieldDescriptor) (path:List UInt32) (identity:String) (stack:List String) (t:DataType) :
 compileFieldType (compileValueType files fuel) files c md fd path identity stack fd.options =
   .ok (t,v) ↔
  (Slot.proto md fd).shape files t.children=.ok t ∧
  CompiledType files c.toCompilerHistory t fuel stack ((Slot.proto md fd).children files) path
   identity ∧ Runs c (typeTrace files identity t) v := by
 simp only [compileFieldType,Slot.shape,Slot.children]
 by_cases hm : fd.isMap files
 · simp only [hm,if_true,map_ok hV]
   apply and_congr_left
   rintro -
   constructor
   · rintro ⟨key,value,rfl⟩
     rfl
   · intro h
     split at h
     · next key value _=>exact ⟨key,value,by simpa using h.symm⟩
     · simp at h
 · simp only [hm,if_false,Bool.false_eq_true]
   by_cases hl : fd.isList files
   · simp only [hl,if_true,list_ok hV]
     apply and_congr_left
     rintro -
     constructor
     · rintro ⟨element,rfl⟩
       rfl
     · intro h
       split at h
       · next element _=>exact ⟨element,by simpa using h.symm⟩
       · simp at h
   · simp only [hl,if_false,Bool.false_eq_true]
     exact refined_ok hV c v fd path identity stack fd.options t
end
end

lemma dataFieldOptions_eq {options:Option FieldOptions} (h:dataFieldOptions fd=.ok options) :
 options=fd.options := by
 unfold dataFieldOptions at h
 split at h
 · next hn=>simpa [hn] using h.symm
 · next o hs=>
   simp only [bind_ok,pure_ok,rejectIf_ok,exists_const] at h
   rw [hs,←h.2.2.2]

lemma proto_ok (hV:ValueSpec files fuel) (c v:DatasetCompiler) (md:MessageDescriptor)
 (fd:FieldDescriptor) (parentPath:List UInt32) (parent:String) (stack:List String) (field:Field) :
 compileProtoField (compileValueType files fuel) files c md fd parentPath parent stack =
   .ok (field,v) ↔
  CompiledField files c.toCompilerHistory field fuel stack (.proto md fd) parentPath parent ∧
  Runs c (fieldTrace files parent field) v := by
 simp only [compileProtoField,bind_ok,pure_ok,Prod.exists,Prod.mk.injEq,wrap_ok,
  exists_unit_ok,rejectIf_ok,exists_const]
 constructor
 · rintro ⟨id,u,hid,name,source,hn,options,ho,hf,hs,hm,t,w,ht,
    hev,rfl,rfl⟩
   obtain rfl:=dataFieldOptions_eq ho
   obtain ⟨hsh,hty,hr⟩:=(fieldType_ok hV u w md fd _ _ stack t).1 ht
   have hu:=allocate_history hid
   rw [hr.history,hu] at hev
   rw [hu] at hty hn
   refine ⟨⟨⟨rfl,hn,⟨ho,hf,hs,hm⟩,hsh,hev⟩,hty⟩,?_⟩
   rw [fieldTrace,nodeSegment_proto]
   exact .allocate hid hr
 · rintro ⟨hfl,hr⟩
   cases field with
   | nil=>exact hfl.elim
   | mk a t=>
    obtain ⟨⟨ha,hn,⟨ho,hf,hs,hm⟩,hsh,hev⟩,hty⟩:=hfl
    have hsg:nodeSegment a=fieldIdentitySegment fd.number:=by
     rw [ha]
     exact nodeSegment_proto _ _ _ _ _ _ _
    rw [fieldTrace,hsg] at hr
    obtain ⟨u,hid,hr⟩:=runs_allocate.1 hr
    have hu:=allocate_history hid
    refine ⟨a.stableId,u,hid,a.name,a.storageNameSource,?_,fd.options,ho,hf,
     hs,hm,t,v,(fieldType_ok hV u v md fd _ _ stack t).2 ⟨hsh,?_,hr⟩,?_,
     ?_,rfl⟩
    · rw [hu]
      exact hn
    · rw [hu]
      exact hty
    · rw [hr.history,hu]
      exact ha ▸ hev
    · exact congrArg (DataSchema.Field.mk · t) ha.symm

lemma fields_ok (hV:ValueSpec files fuel) (c v:DatasetCompiler) (md:MessageDescriptor)
 (fds:List FieldDescriptor) (path:List UInt32) (identity:String) (stack:List String) (fields:List Field) :
 compileProtoFields (compileValueType files fuel) files md path identity stack c fds =
   .ok (fields,v) ↔
  CompiledFields files c.toCompilerHistory fields fuel stack (fds.map (Slot.proto md)) path
   identity ∧ Runs c (fieldsTrace files identity fields) v := by
 induction fds generalizing c v fields with
 | nil=>
  cases fields with
  | nil=>
   simp only [compileProtoFields,Except.ok.injEq,Prod.mk.injEq,true_and,CompiledFields,List.map_nil,
    fieldsTrace,runs_nil]
   exact eq_comm
  | cons field rest=>simp [compileProtoFields,CompiledFields]
 | cons fd fds ih=>
  simp only [compileProtoFields,bind_ok,pure_ok,Prod.exists,Prod.mk.injEq,proto_ok hV,ih,List.map_cons]
  constructor
  · rintro ⟨field,u,⟨hf,hr⟩,rest,w,⟨hfs,hrs⟩,rfl,rfl⟩
    rw [hr.history] at hfs
    exact ⟨⟨_,_,rfl,hf,hfs⟩,hr.trans hrs⟩
  · cases fields with
    | nil=>
     rintro ⟨hnil,-⟩
     simp [CompiledFields] at hnil
    | cons field rest=>
     rintro ⟨⟨slot,more,hs,hf,hfs⟩,hrn⟩
     obtain ⟨rfl,rfl⟩:=List.cons.inj hs
     obtain ⟨u,hr,hrs⟩:=runs_append.1 hrn
     rw [←hr.history] at hfs
     exact ⟨field,u,⟨hf,hr⟩,rest,v,⟨hfs,hrs⟩,rfl,rfl⟩

lemma messageType_find {md:MessageDescriptor} (h:fd.messageType files=some md) :
 files.findMessage md.fullName=some md := by
 unfold FieldDescriptor.messageType at h
 split at h
 · rw [Files.findMessage_fullName h]
   exact h
 · rw [Files.findMessage_fullName h]
   exact h
 · simp at h

def StructSpec (files:Files) (fuel:ℕ) (struct:StructCompiler) : Prop :=
 ∀(c:DatasetCompiler) (md:MessageDescriptor) (path:List UInt32) (identity:String)
  (stack:List String) (t:DataType) (v:DatasetCompiler),md.fullName∉stack →
  (struct c md path identity stack=.ok (t,v) ↔
   t=.struct md.fullName t.children ∧
   CompiledType files c.toCompilerHistory t fuel stack (protoSlots md) path identity ∧
   Runs c (fieldsTrace files identity t.children) v)

lemma struct_zero (files:Files) : StructSpec files 0 (fun _ _ _ _ _=>.error .exhausted) := by
 intro c md path identity stack t v _
 simp only [reduceCtorEq,false_iff]
 rintro ⟨ht,hty,-⟩
 rw [ht] at hty
 obtain ⟨-,-,rest,hr,-⟩:=hty
 omega

lemma struct_succ (hV:ValueSpec files fuel) :
 StructSpec files (fuel+1) (compileStruct (compileValueType files fuel) files) := by
 intro c md path identity stack t v hfr
 simp only [compileStruct,bind_ok,pure_ok,Prod.exists,Prod.mk.injEq,exists_unit_ok,fields_ok hV]
 constructor
 · rintro ⟨children,u,⟨hf,hr⟩,hc,rfl,rfl⟩
   exact ⟨rfl,⟨hfr,hc,fuel,rfl,hf⟩,hr⟩
 · rintro ⟨ht,hty,hr⟩
   rw [ht] at hty
   obtain ⟨-,hc,rest,hrs,hf⟩:=hty
   obtain rfl : fuel=rest:=by omega
   exact ⟨t.children,v,⟨hf,hr⟩,hc,ht.symm,rfl⟩

lemma value_ok {struct:StructCompiler} (hS:StructSpec files fuel struct) (c v:DatasetCompiler)
 (fd:FieldDescriptor) (path:List UInt32) (identity:String) (stack:List String) (t:DataType) :
 compileValue struct files c fd path identity stack=.ok (t,v) ↔
  valueShape files fd none t.children=.ok t ∧
  CompiledType files c.toCompilerHistory t fuel stack (valueSlots files fd none) path identity ∧
  Runs c (typeTrace files identity t) v := by
 -- A leaf is built without a step, so only the message branch runs the machine.
 have hl:∀s : DataType,isLeaf s → valueSlots files fd none=[] →
   ((.ok (s,c) : Result (DataType×DatasetCompiler))=.ok (t,v) ↔
    (.ok s : Result DataType)=.ok t ∧
    CompiledType files c.toCompilerHistory t fuel stack (valueSlots files fd none) path
     identity ∧ Runs c (typeTrace files identity t) v):=by
  intro s hs hsl
  simp only [Except.ok.injEq,Prod.mk.injEq,hsl]
  constructor
  · rintro ⟨rfl,rfl⟩
    exact ⟨rfl,(compiledType_leaf hs).2 rfl,by rw [typeTrace_leaf hs];exact .refl _⟩
  · rintro ⟨rfl,-,hr⟩
    rw [typeTrace_leaf hs,runs_nil] at hr
    exact ⟨rfl,hr.symm⟩
 have hsc:fd.messageType files=none → valueSlots files fd none=[]:=by
  intro h
  simp [valueSlots,valueContainer,h]
 unfold compileValue valueShape
 cases hp : primitiveKind fd.kind with
 | some primitive=>
  refine hl _ rfl (hsc ?_)
  unfold FieldDescriptor.messageType
  split
  · next h=>simp [h,primitiveKind] at hp
  · next h=>simp [h,primitiveKind] at hp
  · rfl
 | none=>
  simp only
  split
  · next ed hkn=>
    simpa only [hkn] using
     hl (enumType ed) rfl (hsc (by simp [FieldDescriptor.messageType,hkn]))
  · unfold compileMessageValue
    cases hm : fd.messageType files with
    | none=>simp
    | some md=>
     simp only [bind_ok,exists_unit_ok,and_assoc]
     apply and_congr_right
     intro _
     cases hk : wellKnownType md.fullName with
     | some typ=>
      exact hl typ (wellKnownType_leaf hk)
       (by simp [valueSlots,valueContainer,hm,Option.filter_some,hk])
     | none=>
      have hsl:valueSlots files fd none=protoSlots md:=by
       simp [valueSlots,valueContainer,hm,Option.filter_some,hk]
      simp only [bind_ok,rejectIf_ok,exists_const,hsl,Except.ok.injEq]
      constructor
      · rintro ⟨hf,hs⟩
        obtain ⟨ht,hty,hr⟩:=(hS (enter c identity md) md path identity stack t v hf).1 hs
        refine ⟨ht.symm,hty,?_⟩
        rw [ht]
        simp only [typeTrace,messageType_find hm,Option.toList_some,List.map_cons,List.map_nil,
         List.singleton_append]
        exact .enter hr
      · rintro ⟨ht,hty,hr⟩
        have hf:md.fullName∉stack:=by
         rw [←ht] at hty
         exact hty.1
        rw [←ht] at hr
        simp only [typeTrace,messageType_find hm,Option.toList_some,List.map_cons,List.map_nil,
         List.singleton_append] at hr
        exact ⟨hf,(hS (enter c identity md) md path identity stack t v hf).2
         ⟨ht.symm,hty,runs_enter.1 hr⟩⟩

lemma valueSpec (files:Files) (fuel:ℕ) : ValueSpec files fuel := by
 induction fuel with
 | zero=>exact fun c fd path identity stack t v=>value_ok (struct_zero files) c v fd path identity stack t
 | succ fuel ih=>
  exact fun c fd path identity stack t v=>value_ok (struct_succ ih) c v fd path identity stack t
end InvariantProtocol.CompilerWalk
