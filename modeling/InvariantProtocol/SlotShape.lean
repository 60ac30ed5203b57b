import InvariantProtocol.Occurrences
namespace InvariantProtocol.SlotShape
open GoResult GoText DataSchema DataIdentity ProtoDescriptor
open CompilerState DataCompiler CompiledTree CompilerWalk Occurrences

variable {fd:FieldDescriptor} {path:List UInt32}
inductive SlotForm (files:Files) : Slot → DataType → Prop where
 | struct {slot:Slot} {md:MessageDescriptor} (fields:List Field)
   (hcontainer:slot.container files=some md) (hchildren:slot.children files=protoSlots md)
   (hclosed:rejectExtensionRanges md=.ok ()) : SlotForm files slot (.struct md.fullName fields)
 | list {md:MessageDescriptor} {fd:FieldDescriptor} (element:Field)
   (hmap:fd.isMap files=false) (hlist:fd.isList files=true) :
   SlotForm files (.proto md fd) (.list "" element (listFixedLength fd.options))
 | map {md:MessageDescriptor} {fd:FieldDescriptor} (key value:Field)
   (hmap:fd.isMap files=true) : SlotForm files (.proto md fd) (.map "" key value)
 | leaf {slot:Slot} {t:DataType} (hleaf:isLeaf t=true)
   (hcontainer:slot.container files=none) (hchildren:slot.children files=[]) :
   SlotForm files slot t

variable {fd:FieldDescriptor} {files:Files} {options:Option FieldOptions} {t:DataType} {slot:Slot}
  {md:MessageDescriptor}
lemma primitiveKind_messageType {k:PrimitiveKind} (h:primitiveKind fd.kind=some k) :
 fd.messageType files=none := by
 unfold FieldDescriptor.messageType
 split
 · next hk=>simp [hk,primitiveKind] at h
 · next hk=>simp [hk,primitiveKind] at h
 · rfl

/-- A value is expanded into the fields of its message, or it is a leaf. -/
theorem valueShape_cases (h:valueShape files fd options t.children=.ok t) :
 (∃md fields,valueContainer files fd options=some md ∧ rejectExtensionRanges md=.ok () ∧
  t=.struct md.fullName fields) ∨
 (isLeaf t=true ∧ valueContainer files fd options=none) := by
 unfold valueShape at h
 cases options with
 | some options=>exact Or.inr ⟨refinedType_leaf h,rfl⟩
 | none=>
  have hn:fd.messageType files=none → valueContainer files fd none=none:=by
   intro hm
   simp [valueContainer,hm]
  cases hp : primitiveKind fd.kind with
  | some primitive=>
   simp only [hp,Except.ok.injEq] at h
   exact Or.inr ⟨h ▸ rfl,hn (primitiveKind_messageType hp)⟩
  | none=>
   simp only [hp] at h
   split at h
   · next ed hkn=>
     simp only [Except.ok.injEq] at h
     exact Or.inr ⟨h ▸ rfl,hn (by simp [FieldDescriptor.messageType,hkn])⟩
   · cases hm : fd.messageType files with
     | none=>simp [hm] at h
     | some md=>
      simp only [hm,bind_ok,exists_unit_ok] at h
      obtain ⟨hc,h⟩:=h
      cases hk : wellKnownType md.fullName with
      | some typ=>
       simp only [hk,Except.ok.injEq] at h
       subst h
       exact Or.inr ⟨wellKnownType_leaf hk,
        by simp [valueContainer,hm,Option.filter_some,hk]⟩
      | none=>
       simp only [hk,Except.ok.injEq] at h
       exact Or.inl ⟨md,_,by simp [valueContainer,hm,Option.filter_some,hk],
        hc,h.symm⟩

lemma valueSlots_of_container :
 valueSlots files fd options=((valueContainer files fd options).map protoSlots).getD [] := by
 unfold valueSlots
 cases valueContainer files fd options <;> rfl

lemma slotForm_of_shape (h:slot.shape files t.children=.ok t) : SlotForm files slot t := by
 cases slot with
 | synthetic role name protoFullName fd options=>
  obtain ⟨md,fields,hc,hcl,rfl⟩|⟨hl,hc⟩:=valueShape_cases h
  · exact .struct fields hc
     (by simp [Slot.children,valueSlots_of_container,hc]) hcl
  · exact .leaf hl hc (by simp [Slot.children,valueSlots_of_container,hc])
 | proto md fd=>
  simp only [Slot.shape] at h
  split_ifs at h with hm hls
  · split at h
    · next key value _=>
      obtain rfl : DataType.map "" key value=t:=by simpa using h
      exact .map key value hm
    · simp at h
  · split at h
    · next element _=>
      obtain rfl : DataType.list "" element (listFixedLength fd.options)=t:=by simpa using h
      exact .list element (by simpa using hm) hls
    · simp at h
  · have hcn:(Slot.proto md fd).container files=valueContainer files fd fd.options:=by
     simp [Slot.container,hm,hls]
    have hs:(Slot.proto md fd).children files=valueSlots files fd fd.options:=by
     simp [Slot.children,hm,hls]
    obtain ⟨md',fields,hc,hcl,rfl⟩|⟨hl,hc⟩:=valueShape_cases h
    · exact .struct fields (hcn.trans hc)
       (by rw [hs,valueSlots_of_container,hc];rfl) hcl
    · exact .leaf hl (hcn.trans hc)
       (by rw [hs,valueSlots_of_container,hc];rfl)

def Slot.role : Slot → SyntheticRole
 | .proto _ _=>.protoField
 | .synthetic role _ _ _ _=>role

lemma NodeOk.role {h:CompilerHistory} {parent:String} {a:FieldAttributes}
 (node:NodeOk files h slot path parent a t) : a.syntheticRole=Slot.role slot := by
 rw [node.attributes]
 cases slot <;> rfl

def isMapKeyKind : Kind → Bool
 | .int64 | .uint64 | .int32 | .fixed64 | .fixed32 | .bool | .string | .uint32=>true
 | .sfixed32 | .sfixed64 | .sint32 | .sint64=>true
 | _=>false

/-- The protobuf rules on names, field numbers and map entries that the compiler relies on. -/
def MessageValid (md:MessageDescriptor) : Prop :=
 fullNameIsValid md.fullName ∧
  (∀fd∈md.fields,nameIsValid fd.name ∧ 1≤fd.number.toInt ∧
   fd.number.toInt ≤ maxFieldNumber) ∧
  (md.isMapEntry → ∀fd∈md.fields,fd.number=1 → isMapKeyKind fd.kind)

instance : DecidablePred MessageValid:=fun _=>inferInstanceAs (Decidable (_ ∧ _ ∧ _))

def DescriptorValid (m:Descriptor) : Prop :=
 MessageValid m.message ∧ ∀md∈m.files.messages,MessageValid md

instance : DecidablePred DescriptorValid:=fun _=>inferInstanceAs (Decidable (_ ∧ _))

lemma messageType_mem (h:fd.messageType files=some md) : md∈files.messages :=
 List.mem_of_find?_eq_some (messageType_find h)

lemma mem_valueSlots {s:Slot} (h:s∈valueSlots files fd options) :
 ∃md fd',valueContainer files fd options=some md ∧ fd'∈md.fields ∧ s=.proto md fd' := by
 unfold valueSlots at h
 split at h
 · next md hc=>
   obtain ⟨fd',hf',rfl⟩:=mem_protoSlots.1 h
   exact ⟨md,fd',hc,hf',rfl⟩
 · simp at h

lemma mem_children {s:Slot} (h:s∈slot.children files) :
 (∃md fd,slot.container files=some md ∧ fd∈md.fields ∧ s=.proto md fd) ∨
 (∃md fd,slot=.proto md fd ∧ fd.isMap files=false ∧ fd.isList files=true ∧
  s=elementSlot md fd) ∨
 (∃md fd key value,slot=.proto md fd ∧ fd.isMap files=true ∧ fd.mapKey files=some key ∧
  fd.mapValue files=some value ∧ (s=keySlot md fd key ∨ s=valueSlot md fd value)) := by
 cases slot with
 | synthetic role name protoFullName fd options=>exact Or.inl (mem_valueSlots h)
 | proto md fd=>
  simp only [Slot.children] at h
  split_ifs at h with hm hl
  · unfold mapSlots at h
    split at h
    · next key value hk hvalue=>
      exact Or.inr (Or.inr ⟨md,fd,key,value,rfl,hm,hk,hvalue,by simpa using h⟩)
    · simp at h
  · exact Or.inr (Or.inl ⟨md,fd,rfl,by simpa using hm,hl,by simpa using h⟩)
  · obtain ⟨md',fd',hc,hf',rfl⟩:=mem_valueSlots h
    exact Or.inl ⟨md',fd',by simp [Slot.container,hm,hl,hc],hf',rfl⟩

lemma container_find (h:slot.container files=some md) : files.findMessage md.fullName=some md := by
 have hvalue:∀{fd options},valueContainer files fd options=some md →
   files.findMessage md.fullName=some md:=by
  intro fd options h
  unfold valueContainer at h
  split_ifs at h
  exact messageType_find (Option.filter_eq_some_iff.1 h).1
 cases slot with
 | synthetic role name protoFullName fd options=>exact hvalue h
 | proto md' fd=>
  simp only [Slot.container] at h
  split_ifs at h
  exact hvalue h

lemma container_mem (h:slot.container files=some md) : md∈files.messages :=
 List.mem_of_find?_eq_some (container_find h)

variable {m:Descriptor} {parent:String} {slot:Slot}
lemma Occurs.valid (hm:DescriptorValid m) {md:MessageDescriptor}
 (h:Occurs m.files m.message (.proto md fd) path parent) : MessageValid md ∧ fd∈md.fields := by
 cases h with
 | top hfd=>exact ⟨hm.1,hfd⟩
 | child _ hs=>
  obtain ⟨md',fd',hc,hf',heq⟩|⟨_,_,_,_,_,heq⟩ |
   ⟨_,_,_,_,_,_,_,_,heq | heq⟩:=mem_children hs
  · cases heq
    exact ⟨hm.2 md (container_mem hc),hf'⟩
  · cases heq
  · cases heq
  · cases heq

lemma mapKey_scalar (hm:DescriptorValid m) {key:FieldDescriptor} (hmp:fd.isMap m.files=true)
 (hk:fd.mapKey m.files=some key) : key.messageType m.files=none := by
 unfold FieldDescriptor.isMap at hmp
 unfold FieldDescriptor.mapKey at hk
 cases hms : fd.messageType m.files with
 | none=>simp [hms] at hk
 | some entry=>
  simp only [hms,Option.any_some,Option.bind_some,MessageDescriptor.fieldByNumber]
   at hmp hk
  have hn:key.number=1:=by simpa using List.find?_some hk
  have hkn:=(hm.2 entry (messageType_mem hms)).2.2 hmp key
   (List.mem_of_find?_eq_some hk) hn
  unfold FieldDescriptor.messageType
  split
  · next h=>simp [h,isMapKeyKind] at hkn
  · next h=>simp [h,isMapKeyKind] at hkn
  · rfl

lemma mapKey_children (hm:DescriptorValid m)
 (h:Occurs m.files m.message slot path parent) (hr:Slot.role slot=.mapKey) :
 slot.children m.files=[] := by
 cases h with
 | top _=>simp [Slot.role] at hr
 | child _ hs=>
  obtain ⟨_,_,_,_,rfl⟩|⟨_,_,_,_,_,rfl⟩ |
   ⟨md,fd,key,value,-,hmp,hk,-,rfl | rfl⟩:=mem_children hs
  · simp [Slot.role] at hr
  · simp [Slot.role,elementSlot] at hr
  · simp [Slot.children,keySlot,valueSlots_of_container,valueContainer,mapKey_scalar hm hmp hk]
  · simp [Slot.role,valueSlot] at hr

lemma roleSegment_spec {role:SyntheticRole} (h:isCollectionRole role) :
 '/' ∉ (roleSegment role).toList ∧ roleSegment role≠"" ∧
  segmentRole "" (roleSegment role)=.ok role := by
 obtain rfl|rfl|rfl:=h <;> exact ⟨by decide,by decide,rfl⟩

lemma Slot.segment_slash (h:Slot.Proper slot) : '/' ∉ slot.segment.toList := by
 cases slot with
 | proto md fd=>exact fieldIdentitySegment_slash _
 | synthetic role name protoFullName fd options=>exact (roleSegment_spec h).1

lemma Slot.segment_ne_empty (h:Slot.Proper slot) : slot.segment≠"" := by
 cases slot with
 | proto md fd=>exact fieldIdentitySegment_ne_empty _
 | synthetic role name protoFullName fd options=>exact (roleSegment_spec h).2.1

lemma Occurs.parent_eq {files:Files} {root:MessageDescriptor} (h:Occurs files root slot path parent) :
 parentCompilerIdentity (appendIdentity parent slot.segment)=parent :=
 parentCompilerIdentity_append (Slot.segment_slash h.proper)

lemma Slot.role_unique {role:SyntheticRole} (hp:Slot.Proper slot)
 (h:compilerIdentityRole (appendIdentity parent slot.segment)=.ok role) : role=Slot.role slot := by
 have hs:=segmentRole_of_append (Slot.segment_slash hp) h
 cases slot with
 | proto md fd=>exact segmentRole_field_eq hs
 | synthetic role' name protoFullName fd options=>
  have hr:=(segmentRole_ok_congr (roleSegment_spec hp).2.2 :
   segmentRole parent (roleSegment role')=.ok role')
  exact Except.ok.inj (hs.symm.trans hr)

lemma slot_of_denotesField (hp:Slot.Proper slot)
 (h:DenotesField (appendIdentity parent slot.segment)) : ∃md fd,slot=.proto md fd := by
 obtain ⟨q,n,heq⟩:=h
 have hpr:=congrArg parentCompilerIdentity heq
 rw [parentCompilerIdentity_append (Slot.segment_slash hp),
  parentCompilerIdentity_append (fieldIdentitySegment_slash n)] at hpr
 subst hpr
 have hs:=appendIdentity_left_cancel heq
 cases slot with
 | proto md fd=>exact ⟨md,fd,rfl⟩
 | synthetic role name protoFullName fd options=>
  obtain ⟨hl,hk,hv⟩:=fieldIdentitySegment_ne_collection n
  obtain rfl|rfl|rfl:=hp
  · exact absurd hs.symm hl
  · exact absurd hs.symm hk
  · exact absurd hs.symm hv

lemma compilerIdentityRole_root {segment:String} (hs : '/' ∉ segment.toList)
 (h:segmentRole segment segment=.ok .protoField) :
 compilerIdentityRole (appendIdentity "" segment)=.ok .protoField := by
 rw [appendIdentity,if_pos rfl,compilerIdentityRole_ok]
 refine ⟨1,?_⟩
 rw [split_eq_singleton '/' segment hs,loop_cons]
 exact ⟨(1,.protoField),roleStep_ok.2 ⟨h,rfl,fun _=>rfl,Or.inl rfl,by simp⟩,rfl⟩

/-- The identity grammar assigns every declared slot its role. -/
theorem Occurs.role (hm:DescriptorValid m) (h:Occurs m.files m.message slot path parent) :
 compilerIdentityRole (appendIdentity parent slot.segment)=.ok (Slot.role slot) := by
 have hn:∀{md fd path parent} identity,
   Occurs m.files m.message (.proto md fd) path parent →
   segmentRole identity (fieldIdentitySegment fd.number)=.ok .protoField:=by
  intro md fd path parent identity ho
  obtain ⟨hv,hfd⟩:=Occurs.valid hm ho
  obtain ⟨-,hl,hh⟩:=hv.2.1 fd hfd
  exact segmentRole_field identity hl hh
 induction h with
 | top hfd=>exact compilerIdentityRole_root (fieldIdentitySegment_slash _) (hn _ (.top hfd))
 | @child slot s path parent h hs ih=>
  have hc:=Occurs.child h hs
  have hne:appendIdentity parent slot.segment≠"" :=
   appendIdentity_ne_empty (Slot.segment_ne_empty h.proper)
  refine (compilerIdentityRole_append hne (Slot.segment_slash hc.proper)).2
   ⟨Slot.role slot,ih,?_,?_,fun hk=>?_⟩
  · cases s with
    | proto md fd=>exact hn _ hc
    | synthetic role name protoFullName fd options=>
     exact segmentRole_ok_congr (roleSegment_spec hc.proper).2.2
  · obtain ⟨_,_,_,_,rfl⟩|⟨_,_,rfl,_⟩|⟨_,_,_,_,rfl,_⟩:=mem_children hs
    · exact Or.inl rfl
    · exact Or.inr rfl
    · exact Or.inr rfl
  · rw [mapKey_children hm h hk] at hs
    simp at hs
end InvariantProtocol.SlotShape
