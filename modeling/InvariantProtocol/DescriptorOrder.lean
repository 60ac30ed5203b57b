import InvariantProtocol.DataCompiler
import InvariantProtocol.Reordering
namespace InvariantProtocol.DescriptorOrder
open GoResult DataSchema DataIdentity ProtoDescriptor CompilerState DataCompiler
open Reordering

/-- The same message, with its fields declared in any order. -/
structure SameMessage (md md':MessageDescriptor) : Prop where
 fullName : md.fullName=md'.fullName
 isMapEntry : md.isMapEntry=md'.isMapEntry
 extensionRanges : md.extensionRanges=md'.extensionRanges
 reservedNames : md.reservedNames=md'.reservedNames
 reservedRanges : md.reservedRanges=md'.reservedRanges
 comments : md.comments=md'.comments
 fields : sortedFields md.fields=sortedFields md'.fields
 fieldByNumber : ∀number,md.fieldByNumber number=md'.fieldByNumber number

structure SameFiles (files files':Files) : Prop where
 messages : ∀name,Option.Rel SameMessage (files.findMessage name) (files'.findMessage name)
 count : files.messages.length=files'.messages.length

structure SameState (c c':DatasetCompiler) : Prop where
 rest : c'={ c with currentContainers:=c'.currentContainers }
 containers : ∀identity,
  Option.Rel SameMessage (c.currentContainers.lookup identity) (c'.currentContainers.lookup identity)

def SameStep {α:Type} (p q:α×DatasetCompiler) : Prop:=p.1=q.1 ∧ SameState p.2 q.2

section
variable {md md':MessageDescriptor} (h:SameMessage md md')
include h

lemma SameMessage.fieldFullName (fd:FieldDescriptor) : fd.fullName md=fd.fullName md' := by
 rw [FieldDescriptor.fullName,FieldDescriptor.fullName,h.fullName]

lemma SameMessage.reservesName (name:String) : md.reservesName name=md'.reservesName name := by
 rw [MessageDescriptor.reservesName,MessageDescriptor.reservesName,h.reservedNames]

lemma SameMessage.reservesNumber (number:ℤ) : md.reservesNumber number=md'.reservesNumber number := by
 rw [MessageDescriptor.reservesNumber,MessageDescriptor.reservesNumber,h.reservedRanges]

lemma SameMessage.rejectExtensionRanges :
 DataCompiler.rejectExtensionRanges md=DataCompiler.rejectExtensionRanges md' := by
 rw [DataCompiler.rejectExtensionRanges,DataCompiler.rejectExtensionRanges,h.fullName,h.extensionRanges]

lemma SameMessage.storageFieldName (hi:CompilerHistory) (identity parent:String) (fd:FieldDescriptor) :
 storageFieldName hi identity parent md fd =
  storageFieldName hi identity parent md' fd := by
 simp only [DataCompiler.storageFieldName,previousStorageSource,h.fullName,h.reservesName]
end

section
variable {files files':Files} (h:SameFiles files files') (fd:FieldDescriptor)
include h

lemma SameFiles.messageType : Option.Rel SameMessage (fd.messageType files) (fd.messageType files') := by
 unfold FieldDescriptor.messageType
 split
 · exact h.messages _
 · exact h.messages _
 · exact .none

lemma SameFiles.isMap : fd.isMap files=fd.isMap files' := by
 rw [FieldDescriptor.isMap,FieldDescriptor.isMap]
 obtain ⟨hmd,hm'⟩|⟨md,md',hmd,hm',hs⟩:=optionRel_cases (h.messageType fd)
 · rw [hmd,hm']
 · rw [hmd,hm',Option.any_some,Option.any_some,hs.isMapEntry]

lemma SameFiles.isList : fd.isList files=fd.isList files' := by
 rw [FieldDescriptor.isList,FieldDescriptor.isList,h.isMap]

lemma SameFiles.mapField (number:Int32) : (fd.messageType files).bind (·.fieldByNumber number) =
  (fd.messageType files').bind (·.fieldByNumber number) := by
 obtain ⟨hmd,hm'⟩|⟨md,md',hmd,hm',hs⟩:=optionRel_cases (h.messageType fd)
 · rw [hmd,hm']
 · rw [hmd,hm',Option.bind_some,Option.bind_some,hs.fieldByNumber]

lemma SameFiles.hasPresence : fd.hasPresence files=fd.hasPresence files' := by
 rw [FieldDescriptor.hasPresence,FieldDescriptor.hasPresence]
 obtain ⟨hmd,hm'⟩|⟨md,md',hmd,hm',hs⟩:=optionRel_cases (h.messageType fd)
 · rw [hmd,hm']
 · rw [hmd,hm',Option.isSome_some,Option.isSome_some]

lemma SameFiles.fieldPresence : fieldPresence files fd=fieldPresence files' fd := by
 simp only [DataCompiler.fieldPresence,h.isMap,h.isList,h.hasPresence]
end

variable {c c':DatasetCompiler} {md md':MessageDescriptor}
lemma SameState.history (h:SameState c c') : c.toCompilerHistory=c'.toCompilerHistory := by
 rw [h.rest]

/-! ### The walk -/

lemma allocate_same (h:SameState c c') (identity:String) :
 Agree SameStep (allocate c identity) (allocate c' identity) := by
 obtain ⟨hrs,hc⟩:=h
 rw [hrs]
 simp only [allocate]
 by_cases ha : identity∈c.currentActive
 · simp [ha]
 simp only [ha,if_false]
 cases hrt : c.retired.lookup identity with
 | some retired=>trivial
 | none=>?_
 cases hp : c.previousActive.lookup identity with
 | some id=>exact ⟨rfl,rfl,hc⟩
 | none=>?_
 cases hf : c.firstTopLevelIDs.lookup identity with
 | some id=>exact ⟨rfl,rfl,hc⟩
 | none=>?_
 by_cases hl : c.lastID=maxStableID
 · simp [hl]
 simp only [hl,if_false]
 cases hr : c.reservedIDs.lookup (c.lastID+1) with
 | some owner=>trivial
 | none=>exact ⟨rfl,rfl,hc⟩

def SameValues (value value':ValueCompiler) : Prop :=
 ∀{c c':DatasetCompiler},SameState c c' → ∀fd path identity stack,
  Agree SameStep (value c fd path identity stack) (value' c' fd path identity stack)

def SameStructs (struct struct':StructCompiler) : Prop :=
 ∀{c c':DatasetCompiler} {md md':MessageDescriptor},SameState c c' → SameMessage md md' →
  ∀path identity stack,
   Agree SameStep (struct c md path identity stack) (struct' c' md' path identity stack)

section
variable {value value':ValueCompiler} (hvalue:SameValues value value')
 {files files':Files} (hfiles:SameFiles files files')
 {c c':DatasetCompiler} {md md':MessageDescriptor}

include hvalue

lemma compileRefinedValueType_same (h:SameState c c') (fd:FieldDescriptor) (path:List UInt32)
 (identity:String) (stack:List String) (options:Option FieldOptions) :
 Agree SameStep (compileRefinedValueType value c fd path identity stack options)
  (compileRefinedValueType value' c' fd path identity stack options) := by
 cases options with
 | none=>exact hvalue h fd path identity stack
 | some options=>
  refine (@agree_refl _ _ (refinedType fd options)).bind fun typ typ' ht=>?_
  exact ⟨ht,h⟩

lemma compileSyntheticField_same (h:SameState c c') (fd:FieldDescriptor) (name protoFullName:String)
 (path:List UInt32) (identity:String) (role:SyntheticRole) (stack:List String)
 (options:Option FieldOptions) : Agree SameStep
  (compileSyntheticField value c fd name protoFullName path identity role stack options)
  (compileSyntheticField value' c' fd name protoFullName path identity role stack options) := by
 refine (allocate_same h identity).bind ?_
 rintro ⟨id,c⟩ ⟨_,c'⟩ ⟨rfl,h⟩
 refine (compileRefinedValueType_same hvalue h fd path identity stack options).bind ?_
 rintro ⟨typ,c⟩ ⟨_,c'⟩ ⟨rfl,(h:SameState c c')⟩
 simp only [h.history]
 refine (@agree_refl _ _ (validateEvolution _ _ _)).bind fun _ _ _=>?_
 exact ⟨rfl,h⟩

lemma compileListType_same (h:SameState c c') (hmd:SameMessage md md') (fd:FieldDescriptor)
 (path:List UInt32) (identity:String) (stack:List String) (options:Option FieldOptions) :
 Agree SameStep (compileListType value c md fd path identity stack options)
  (compileListType value' c' md' fd path identity stack options) := by
 rw [compileListType,compileListType,hmd.fieldFullName]
 refine (compileSyntheticField_same hvalue h fd _ _ path _ _ stack _).wrap.bind ?_
 rintro ⟨element,c⟩ ⟨_,c'⟩ ⟨rfl,h⟩
 exact ⟨rfl,h⟩

include hfiles

lemma compileMapType_same (h:SameState c c') (hmd:SameMessage md md') (fd:FieldDescriptor)
 (path:List UInt32) (identity:String) (stack:List String) :
 Agree SameStep (compileMapType value files c md fd path identity stack)
  (compileMapType value' files' c' md' fd path identity stack) := by
 rw [compileMapType,compileMapType,hmd.fieldFullName,FieldDescriptor.mapKey,FieldDescriptor.mapKey,
  FieldDescriptor.mapValue,FieldDescriptor.mapValue,hfiles.mapField,hfiles.mapField]
 refine (@agree_refl _ _ (mapEntryField _)).bind ?_
 rintro keyField _ rfl
 refine (compileSyntheticField_same hvalue h keyField _ _ path _ _ stack _).wrap.bind ?_
 rintro ⟨key,c⟩ ⟨_,c'⟩ ⟨rfl,h⟩
 refine (@agree_refl _ _ (mapEntryField _)).bind ?_
 rintro valueField _ rfl
 refine (compileSyntheticField_same hvalue h valueField _ _ path _ _ stack _).wrap.bind ?_
 rintro ⟨value,c⟩ ⟨_,c'⟩ ⟨rfl,h⟩
 exact ⟨rfl,h⟩

lemma compileFieldType_same (h:SameState c c') (hmd:SameMessage md md') (fd:FieldDescriptor)
 (path:List UInt32) (identity:String) (stack:List String) (options:Option FieldOptions) :
 Agree SameStep (compileFieldType value files c md fd path identity stack options)
  (compileFieldType value' files' c' md' fd path identity stack options) := by
 simp only [compileFieldType,hfiles.isMap,hfiles.isList]
 split_ifs with hm hl
 · exact compileMapType_same hvalue hfiles h hmd fd path identity stack
 · exact compileListType_same hvalue h hmd fd path identity stack options
 · exact compileRefinedValueType_same hvalue h fd path identity stack options

omit hvalue in
lemma fieldChecks_same (hmd:SameMessage md md') (fd:FieldDescriptor) (path:List UInt32)
 (name source:String) (id:ℤ) (options:Option FieldOptions) :
 validateFixedList files md fd options=validateFixedList files' md' fd options ∧
  validateRefinedSingular files md fd options=validateRefinedSingular files' md' fd options ∧
  protoAttributes files md fd path name source id =
   protoAttributes files' md' fd path name source id := by
 refine ⟨?_,?_,?_⟩
 · simp only [validateFixedList,hfiles.isMap,hfiles.isList,hmd.fieldFullName]
 · simp only [validateRefinedSingular,hfiles.isMap,hfiles.isList,hfiles.fieldPresence,hmd.fieldFullName]
 · simp only [protoAttributes,hfiles.fieldPresence,hmd.fieldFullName]

lemma compileProtoField_same (h:SameState c c') (hmd:SameMessage md md') (fd:FieldDescriptor)
 (parentPath:List UInt32) (parent:String) (stack:List String) :
 Agree SameStep (compileProtoField value files c md fd parentPath parent stack)
  (compileProtoField value' files' c' md' fd parentPath parent stack) := by
 simp only [compileProtoField,hfiles.isMap]
 refine (allocate_same h _).wrap.bind ?_
 rintro ⟨id,c⟩ ⟨_,c'⟩ ⟨rfl,(h:SameState c c')⟩
 simp only [h.history,hmd.storageFieldName]
 refine (@agree_refl _ _ (storageFieldName _ _ _ md' fd)).wrap.bind ?_
 rintro ⟨name,source⟩ _ rfl
 refine (@agree_refl _ _ (dataFieldOptions fd)).wrap.bind ?_
 rintro options _ rfl
 obtain ⟨hf,hr,ha⟩:=
  fieldChecks_same hfiles hmd fd (parentPath++[fd.number.toUInt32]) name source id options
 simp only [hf,hr,ha]
 refine (@agree_refl _ _ (validateFixedList files' md' fd options)).bind fun _ _ _=>?_
 refine (@agree_refl _ _ (validateRefinedSingular files' md' fd options)).bind fun _ _ _=>?_
 refine (agree_rejectIf Iff.rfl).bind fun _ _ _=>?_
 refine (compileFieldType_same hvalue hfiles h hmd fd _ _ stack options).wrap.bind ?_
 rintro ⟨typ,c⟩ ⟨_,c'⟩ ⟨rfl,(h:SameState c c')⟩
 simp only [h.history]
 refine (@agree_refl _ _ (validateEvolution _ _ _)).wrap.bind fun _ _ _=>?_
 exact ⟨rfl,h⟩

lemma compileProtoFields_same (h:SameState c c') (hmd:SameMessage md md') (parentPath:List UInt32)
 (parent:String) (stack:List String) (fds:List FieldDescriptor) :
 Agree SameStep (compileProtoFields value files md parentPath parent stack c fds)
  (compileProtoFields value' files' md' parentPath parent stack c' fds) := by
 induction fds generalizing c c' with
 | nil=>exact ⟨rfl,h⟩
 | cons fd rest ih=>
  refine (compileProtoField_same hvalue hfiles h hmd fd parentPath parent stack).bind ?_
  rintro ⟨field,c⟩ ⟨_,c'⟩ ⟨rfl,h⟩
  refine (ih h).bind ?_
  rintro ⟨fields,c⟩ ⟨_,c'⟩ ⟨rfl,h⟩
  exact ⟨rfl,h⟩

lemma compileStruct_same : SameStructs (compileStruct value files) (compileStruct value' files') := by
 intro c c' md md' h hmd path identity stack
 simp only [compileStruct,hmd.fields,hmd.fullName]
 refine (compileProtoFields_same hvalue hfiles h hmd path identity _ _).bind ?_
 rintro ⟨children,c⟩ ⟨_,c'⟩ ⟨rfl,h⟩
 refine (@agree_refl _ _ (validateStorageNameCollisions _ _)).bind fun _ _ _=>?_
 exact ⟨rfl,h⟩
end

section
variable {files files':Files} (hfiles:SameFiles files files')
include hfiles

lemma compileValue_same {struct struct':StructCompiler} (hst:SameStructs struct struct') :
 SameValues (compileValue struct files) (compileValue struct' files') := by
 intro c c' h fd path identity stack
 have hm:Agree SameStep (compileMessageValue struct files c fd path identity stack)
   (compileMessageValue struct' files' c' fd path identity stack):=by
  rw [compileMessageValue,compileMessageValue]
  obtain ⟨hmd,hm'⟩|⟨md,md',hmd,hm',hs⟩:=optionRel_cases (hfiles.messageType fd)
  · rw [hmd,hm']
    trivial
  rw [hmd,hm']
  simp only [hs.rejectExtensionRanges,hs.fullName]
  refine (@agree_refl _ _ (rejectExtensionRanges md')).bind fun _ _ _=>?_
  cases wellKnownType md'.fullName with
  | some typ=>exact ⟨rfl,h⟩
  | none=>
   refine (agree_rejectIf Iff.rfl).bind fun _ _ _=>hst ?_ hs path identity stack
   refine ⟨by rw [enter,enter,h.rest],fun other=>?_⟩
   rw [enter,enter]
   by_cases ho : other=identity
   · rw [ho,AList.lookup_insert,AList.lookup_insert]
     exact .some hs
   · rw [AList.lookup_insert_ne ho,AList.lookup_insert_ne ho]
     exact h.containers other
 simp only [compileValue]
 cases primitiveKind fd.kind with
 | some primitive=>exact ⟨rfl,h⟩
 | none=>
  cases fd.kind with
  | enum ed=>exact ⟨rfl,h⟩
  | _=>exact hm

lemma compileValueType_same (fuel:ℕ) :
 SameValues (compileValueType files fuel) (compileValueType files' fuel) := by
 induction fuel with
 | zero=>
  apply compileValue_same hfiles
  intro c c' md md' _ _ path identity stack
  trivial
 | succ fuel ih=>exact compileValue_same hfiles (compileStruct_same ih hfiles)
end

/-! ### The previous schema -/

lemma sameState_iff : SameState c c' ↔ ∃containers,
 c'={ c with currentContainers:=containers } ∧ ∀identity,
  Option.Rel SameMessage (c.currentContainers.lookup identity) (containers.lookup identity) := by
 constructor
 · rintro ⟨hr,hc⟩
   exact ⟨_,hr,hc⟩
 · rintro ⟨containers,rfl,hc⟩
   exact ⟨rfl,hc⟩

lemma registerHistoricalName_same (h:SameState c c') (identity name:String) :
 Agree SameState (registerHistoricalName c identity name) (registerHistoricalName c' identity name) := by
 obtain ⟨containers,rfl,hc⟩:=sameState_iff.1 h
 simp only [registerHistoricalName]
 refine agree_refl.bind fun _ _ _=>?_
 exact ⟨rfl,hc⟩

lemma registerRetired_same (h:SameState c c') (retired:RetiredField) :
 Agree SameState (registerRetired c retired) (registerRetired c' retired) := by
 have hn:=registerHistoricalName_same h retired.identity retired.name
 obtain ⟨containers,rfl,hc⟩:=sameState_iff.1 h
 simp only [registerRetired]
 refine agree_refl.bind fun _ _ _=>?_
 refine agree_refl.bind fun _ _ _=>?_
 refine agree_refl.bind fun _ _ _=>?_
 refine agree_refl.bind fun _ _ _=>?_
 refine agree_refl.bind fun _ _ _=>?_
 refine hn.bind fun c c' h=>?_
 obtain ⟨containers,rfl,hc⟩:=sameState_iff.1 h
 exact ⟨rfl,hc⟩

lemma registerPrevious_same (h:SameState c c') (identity:String) (field:Field) :
 Agree SameState (registerPrevious c identity field) (registerPrevious c' identity field) := by
 have hn:=registerHistoricalName_same h identity field.attributes.name
 obtain ⟨containers,rfl,hc⟩:=sameState_iff.1 h
 simp only [registerPrevious]
 refine agree_refl.bind fun _ _ _=>?_
 refine agree_refl.bind fun _ _ _=>?_
 refine agree_refl.bind fun _ _ _=>?_
 refine agree_refl.bind fun _ _ _=>?_
 refine agree_refl.bind fun _ _ _=>?_
 refine hn.bind fun c c' h=>?_
 obtain ⟨containers,rfl,hc⟩:=sameState_iff.1 h
 exact ⟨rfl,hc⟩

lemma indexPreviousFields_same {fields:List Field}
 (hfl:∀f∈fields,∀{c c':DatasetCompiler},SameState c c' → ∀path identity role,
  Agree SameState (indexPreviousField f path identity role c)
   (indexPreviousField f path identity role c')) (h:SameState c c') (path:List UInt32) (identity:String) :
 Agree SameState (indexPreviousFields fields path identity c)
  (indexPreviousFields fields path identity c') := by
 induction fields generalizing c c' with
 | nil=>exact h
 | cons f rest ih=>
  obtain ⟨hf,hr⟩:=List.forall_mem_cons.1 hfl
  rw [indexPreviousFields,indexPreviousFields]
  exact (hf h path identity .protoField).bind fun c c' h=>ih hr h

lemma indexPreviousField_same (f:Field) : ∀{c c':DatasetCompiler},SameState c c' →
 ∀path identity role,Agree SameState (indexPreviousField f path identity role c)
  (indexPreviousField f path identity role c') := by
 induction f using Field.tree_induction with
 | hnil=>
  intro c c' _ path identity role
  trivial
 | hmk a t ih=>
  intro c c' h path identity role
  rw [indexPreviousField,indexPreviousField]
  refine agree_refl.bind fun _ _ _=>?_
  refine agree_refl.bind ?_
  rintro identity _ rfl
  refine (registerPrevious_same h identity (.mk a t)).bind fun c c' h=>?_
  cases t with
  | nil=>trivial
  | struct p fields=>exact indexPreviousFields_same ih h a.protoNumberPath identity
  | list p element n=>
   rw [indexPreviousType,indexPreviousType]
   exact agree_refl.bind fun _ _ _=>ih element List.mem_cons_self h _ _ _
  | map p key value=>
   rw [indexPreviousType,indexPreviousType]
   refine agree_refl.bind fun _ _ _=>?_
   refine (ih key List.mem_cons_self h _ _ _).bind fun c c' h=>?_
   exact ih value (List.mem_cons_of_mem _ List.mem_cons_self) h _ _ _
  | _=>exact h

lemma newDatasetCompiler_same (hmd:SameMessage md md') (previous:Option DatasetSchema) :
 Agree SameState (newDatasetCompiler md previous) (newDatasetCompiler md' previous) := by
 have hs:∀last,SameState { currentContainers:=AList.singleton "" md,lastID:=last }
   { currentContainers:=AList.singleton "" md',lastID:=last }:=by
  intro last
  refine ⟨rfl,fun identity=>?_⟩
  rw [←AList.insert_empty,←AList.insert_empty]
  by_cases hr : identity = ""
  · rw [hr,AList.lookup_insert,AList.lookup_insert]
    exact .some hmd
  · rw [AList.lookup_insert_ne hr,AList.lookup_insert_ne hr,AList.lookup_empty]
    exact .none
 cases previous with
 | none=>exact hs 0
 | some previous=>
  simp only [newDatasetCompiler,hmd.fullName]
  refine agree_refl.bind fun _ _ _=>?_
  refine agree_refl.bind fun _ _ _=>?_
  refine agree_refl.bind fun _ _ _=>?_
  refine (Agree.loop (fun c c' r h=>registerRetired_same h r) (hs _) _).bind fun c c' h=>?_
  refine (indexPreviousFields_same (fun f _=>indexPreviousField_same f) h _ _).bind
   fun c c' h=>?_
  obtain ⟨containers,rfl,hc⟩:=sameState_iff.1 h
  exact agree_refl.bind fun _ _ _=>⟨rfl,hc⟩

lemma startCompiler_same (hmd:SameMessage md md') (previous:Option DatasetSchema) :
 Agree SameState (startCompiler md previous) (startCompiler md' previous) := by
 simp only [startCompiler,hmd.fields]
 refine (newDatasetCompiler_same hmd previous).bind fun c c' h=>?_
 split_ifs
 · refine Agree.loop (fun c c' fd h=>?_) h _
   obtain ⟨containers,rfl,hc⟩:=sameState_iff.1 h
   simp only [reserveTopLevel,hmd.fieldFullName]
   exact agree_refl.bind fun _ _ _=>⟨rfl,hc⟩
 · exact h

/-! ### The dataset -/

lemma validateRetiredReservation_same (h:SameState c c') (field:RetiredField) :
 Agree Eq (validateRetiredReservation c.currentContainers field)
  (validateRetiredReservation c'.currentContainers field) := by
 simp only [validateRetiredReservation]
 refine agree_refl.bind ?_
 rintro role _ rfl
 split_ifs with hr
 · rfl
 obtain ⟨hmd,hm'⟩|⟨md,md',hmd,hm',hs⟩:=
  optionRel_cases (h.containers (parentCompilerIdentity field.identity))
 · rw [hmd,hm']
   rfl
 · rw [hmd,hm']
   simp only [hs.fullName,hs.reservesName,hs.reservesNumber]
   exact agree_refl

lemma compileMessage_same {files files':Files} (hfiles:SameFiles files files')
 (hmd:SameMessage md md') (previous:Option DatasetSchema) :
 Agree Eq (compileMessage ⟨files,md⟩ previous) (compileMessage ⟨files',md'⟩ previous) := by
 have hb:recursionBudget files=recursionBudget files':=by
  rw [recursionBudget,recursionBudget,hfiles.count]
 simp only [compileMessage,hmd.isMapEntry,hmd.fullName,hmd.fields,hmd.comments,hmd.rejectExtensionRanges,
  hb]
 split_ifs
 · trivial
 · trivial
 refine Agree.wrap ?_
 refine agree_refl.bind fun _ _ _=>?_
 refine (startCompiler_same hmd previous).bind fun c c' h=>?_
 refine (compileProtoFields_same (compileValueType_same hfiles _) hfiles h hmd [] "" _ _).bind ?_
 rintro ⟨compiled,c⟩ ⟨_,c'⟩ ⟨rfl,(h:SameState c c')⟩
 refine agree_refl.bind fun _ _ _=>?_
 have hr:retireAbsent c=retireAbsent c':=by
  obtain ⟨containers,rfl,-⟩:=sameState_iff.1 h
  rfl
 have hl:c.lastID=c'.lastID:=by rw [h.rest]
 simp only [hr,hl]
 refine (Agree.loop (fun _ _ r _=>validateRetiredReservation_same h r) rfl _).bind
  fun _ _ _=>rfl
end InvariantProtocol.DescriptorOrder
