import InvariantProtocol.DataFixpoint
namespace InvariantProtocol.Reservations
open List GoResult GoText DataSchema DataIdentity DataNames DataEntries ProtoDescriptor CompilerState
open DataCompiler CompilerTrace CompiledTree CompilerWalk PreviousIndex AllocationLedger
open Occurrences CompileOutcome DataHistory SlotShape ScopeNames DataFixpoint

variable {i:String} {previous:Option DatasetSchema}
/-- A message container reached from the root, under the identity it is reached by. -/
inductive Reaches (m:Descriptor) : String → MessageDescriptor → Prop where
 | root : Reaches m "" m.message
 | slot {slot:Slot} {path:List UInt32} {parent:String} {md:MessageDescriptor}
   (hoccurs:Occurs m.files m.message slot path parent)
   (hcontainer:slot.container m.files=some md) :
   Reaches m (appendIdentity parent slot.segment) md

variable {containers:GoMap String MessageDescriptor} {md:MessageDescriptor} {r:RetiredField}
  {c v:DatasetCompiler}
lemma foldl_insert_lookup {entries:List (String×MessageDescriptor)}
 (hn:(entries.map Prod.fst).Nodup) (hf:∀i∈entries.map Prod.fst,i∉containers) :
 (entries.foldl (fun containers e=>containers.insert e.1 e.2) containers).lookup i=some md ↔
  containers.lookup i=some md ∨ (i,md)∈entries := by
 induction entries generalizing containers with
 | nil=>simp
 | cons e entries ih=>
  rw [map_cons,nodup_cons] at hn
  rw [map_cons,forall_mem_cons] at hf
  rw [foldl_cons,ih hn.2,lookup_insert_iff hf.1,mem_cons,Prod.ext_iff,or_assoc]
  intro j hj
  rw [AList.mem_insert,not_or]
  exact ⟨fun heq=>hn.1 (heq ▸ hj),hf.2 j hj⟩

lemma lookup_singleton {k:String} {md':MessageDescriptor} :
 (AList.singleton k md : GoMap String MessageDescriptor).lookup i=some md' ↔
  i=k ∧ md'=md := by
 have hm:(AList.singleton k md : GoMap String MessageDescriptor).lookup i=some md' ↔
   Sigma.mk i md'∈[(Sigma.mk k md : Σ _ : String,MessageDescriptor)]:=AList.mem_lookup_iff
 rw [hm,mem_singleton,Sigma.mk.injEq,heq_eq_eq]

lemma entryContainer_fst {files:Files} {entry:String×Field} {e:String×MessageDescriptor}
 (h:entryContainer files entry=some e) : e.1=entry.1 := by
 unfold entryContainer at h
 split at h
 · obtain ⟨md,-,rfl⟩:=Option.map_eq_some_iff.1 h
   rfl
 · simp at h

lemma filterMap_fst_sublist (files:Files) (entries:List (String×Field)) :
 ((entries.filterMap (entryContainer files)).map Prod.fst).Sublist (entries.map Prod.fst) := by
 induction entries with
 | nil=>exact List.Sublist.refl _
 | cons entry entries ih=>
  rw [filterMap_cons]
  cases h : entryContainer files entry with
  | none=>exact ih.cons _
  | some e=>
   simp only [map_cons]
   rw [entryContainer_fst h]
   exact ih.cons_cons _

section
variable {m:Descriptor} {h:CompilerHistory} {fields:List Field} {fuel:ℕ}
 {stack:List String}

variable {md:MessageDescriptor}
/-- The containers of a compiled tree are those its descriptor reaches below the root. -/
theorem mem_containers_iff (ht:CompiledFields m.files h fields fuel stack (protoSlots m.message) [] "") :
 (i,md)∈(fieldsEntries "" fields).filterMap (entryContainer m.files) ↔
  ∃slot path parent,Occurs m.files m.message slot path parent ∧
   i=appendIdentity parent slot.segment ∧ slot.container m.files=some md := by
 have hf:∀{slot:Slot} {a:FieldAttributes} {t:DataType},
   slot.shape m.files t.children=.ok t →
   (entryContainer m.files (i,DataSchema.Field.mk a t)=some (i,md) ↔
    slot.container m.files=some md):=by
  intro slot a t hs
  cases slotForm_of_shape hs with
  | struct fields hc _ _=>
   have hfn:=container_find hc
   simp [entryContainer,hfn,hc]
  | list element hm hl=>simp [entryContainer,Slot.container,hl]
  | map key value hm=>simp [entryContainer,Slot.container,hm]
  | leaf hlf hc _=>
   cases t <;> simp_all [entryContainer,isLeaf]
 rw [mem_filterMap]
 constructor
 · rintro ⟨⟨j,f⟩,hen,hc⟩
   obtain rfl : i=j:=entryContainer_fst hc
   obtain ⟨slot,path,parent,fuel',stack',ho,hi,hcm⟩:=
    compiledFields_entries ht hen
   cases f with
   | nil=>exact hcm.elim
   | mk a t=>exact ⟨slot,path,parent,ho,hi,(hf hcm.1.shape).1 hc⟩
 · rintro ⟨slot,path,parent,ho,hi,hc⟩
   obtain ⟨a,t,hen,node⟩:=ho.entry ht
   exact ⟨_,hi ▸ hen,(hf node.shape).2 hc⟩

lemma containers_iff {c v:DatasetCompiler} (hs:startCompiler m.message previous=.ok c)
 (ht:CompiledFields m.files c.toCompilerHistory fields fuel stack (protoSlots m.message) [] "")
 (hr:Runs c (fieldsTrace m.files "" fields) v) :
 v.currentContainers.lookup i=some md ↔ Reaches m i md := by
 have hen:((fieldsEntries "" fields).map Prod.fst).Nodup:=by
  have h:=(runs_activates hr).1
  rwa [allocations_fieldsTrace,map_map] at h
 have hsub:=filterMap_fst_sublist m.files (fieldsEntries "" fields)
 have hrt:∀i∈((fieldsEntries "" fields).filterMap (entryContainer m.files)).map Prod.fst,
   i∉(AList.singleton "" m.message : GoMap String MessageDescriptor):=by
  intro i hi
  obtain ⟨entry,het,rfl⟩:=mem_map.1 (hsub.subset hi)
  rw [mem_iff_lookup]
  rintro ⟨md',hm'⟩
  exact NodeAt.ne_empty (compiledFields_entries ht het) (lookup_singleton.1 hm').1
 rw [runs_containers hr,(startCompiler_ledger hs).2.2.2,entered_fieldsTrace,
  foldl_insert_lookup (hen.sublist hsub) hrt,lookup_singleton,mem_containers_iff ht]
 constructor
 · rintro (⟨rfl,rfl⟩|⟨slot,path,parent,ho,rfl,hc⟩)
   · exact .root
   · exact .slot ho hc
 · rintro (_|⟨ho,hc⟩)
   · exact Or.inl ⟨rfl,rfl⟩
   · exact Or.inr ⟨_,_,_,ho,rfl,hc⟩
end

lemma validateRetiredReservation_ok : validateRetiredReservation containers r=.ok () ↔
  ∃role,compilerIdentityRole r.identity=.ok role ∧ (role=.protoField →
   ∀container,containers.lookup (parentCompilerIdentity r.identity)=some container →
    ∃last,exactProtoFieldName r.protoFullName=.ok last ∧
     r.protoFullName=fullNameAppend container.fullName last ∧
     container.reservesNumber (retiredNumber r.identity)=true ∧
     container.reservesName last=true ∧
     (r.storageNameSource=last ∨ container.reservesName r.storageNameSource=true)) := by
 unfold validateRetiredReservation
 simp only [bind_ok,wrap_ok]
 refine exists_congr fun role=>and_congr_right fun _=>?_
 by_cases hr : role=.protoField
 · simp only [hr,ne_eq,not_true_eq_false,if_false,true_implies]
   cases containers.lookup (parentCompilerIdentity r.identity) with
   | none=>simp
   | some container=>
    simp only [bind_ok,wrap_ok,rejectIf_ok,exists_const,not_not,not_and_or,Option.some.injEq,
     forall_eq']
 · simp [hr]

lemma retiredNumber_append {parent:String} {n:Int32} (h:0≤n.toInt) :
 retiredNumber (appendIdentity parent (fieldIdentitySegment n))=n.toInt := by
 have hl:afterLast '/' (appendIdentity parent (fieldIdentitySegment n)) =
   fieldIdentitySegment n:=by
  by_cases hp : parent = ""
  · rw [appendIdentity,if_pos hp]
    exact afterLast_eq_self '/' _ (fieldIdentitySegment_slash n)
  · rw [appendIdentity_eq hp]
    exact afterLast_append '/' parent _ (fieldIdentitySegment_slash n)
 rw [retiredNumber,hl,parseInt_fieldIdentitySegment h]
 rfl

def rootWalk (m:Descriptor) (c:DatasetCompiler) : Result (List Field×DatasetCompiler) :=
 compileProtoFields (compileValueType m.files (recursionBudget m.files)) m.files m.message [] ""
  [m.message.fullName] c (sortedFields m.message.fields)

lemma rootWalk_ok {m:Descriptor} {fields:List Field} : rootWalk m c=.ok (fields,v) ↔
  CompiledFields m.files c.toCompilerHistory fields (recursionBudget m.files)
   [m.message.fullName] (protoSlots m.message) [] "" ∧
  Runs c (fieldsTrace m.files "" fields) v :=
 fields_ok (valueSpec m.files (recursionBudget m.files)) c v m.message _ [] "" _ fields

lemma retired_recordOk {m:Descriptor} {events:List Event}
 (hs:startCompiler m.message previous=.ok c) (hrn:Runs c events v)
 (hr:r∈sortRetired (retireAbsent v)) : RecordOk r := by
 have hh:=(startCompiler_ledger hs).2.1
 rw [←hrn.history] at hh
 obtain ⟨i,hi⟩:=mem_sortRetired.1 hr
 rw [retireAbsent_lookup hh,hrn.history] at hi
 cases previous with
 | none=>
  have hfr:=startCompiler_none hs
  simp [hfr.retired,hfr.previousFields] at hi
 | some p=>
  obtain ⟨hp,hrg⟩:=newDatasetCompiler_registers (startCompiler_some.1 hs)
  rw [hrg.retired_iff] at hi
  obtain ⟨ho,-⟩|⟨f,hf,-,rfl⟩:=hi
  · exact hp.accepted.1 r (mem_records.2 (Or.inl ho))
  · exact hp.accepted.1 _ (mem_records.2 (Or.inr
     (mem_activeRecords.2 ⟨f,(hrg.fields_iff _ _).1 hf,rfl⟩)))

/-- Removed fields stay reserved in every message that is still reached, renamed fields in the
  message they stand in; what is not reached demands nothing. -/
theorem reservations_pin_fields : (∀m previous d,compileMessage m previous=.ok d → ∀r∈d.retiredFields,
   DenotesField r.identity → ∀container,
   Reaches m (parentCompilerIdentity r.identity) container →
   (∃n,r.identity=appendIdentity (parentCompilerIdentity r.identity) (fieldIdentitySegment n) ∧
    container.reservesNumber n.toInt=true) ∧
   container.reservesName (fullNameName r.protoFullName)=true ∧
   container.reservesName r.storageNameSource=true) ∧
  (∀m p d,compileMessage m (some p)=.ok d → ∀md fd path parent,
   Occurs m.files m.message (.proto md fd) path parent → ∀f g,
   (appendIdentity parent (fieldIdentitySegment fd.number),f)∈activeEntries p →
   (appendIdentity parent (fieldIdentitySegment fd.number),g)∈activeEntries d →
   (fullNameName f.attributes.protoFullName=fd.name ∨
    md.reservesName (fullNameName f.attributes.protoFullName)=true) ∧
   (g.attributes.storageNameSource=fd.name ∨
    md.reservesName g.attributes.storageNameSource=true)) ∧
  (∀m previous c fields v,startCompiler m.message previous=.ok c →
   rootWalk m c=.ok (fields,v) → ∀r∈sortRetired (retireAbsent v),
   (∀container,¬Reaches m (parentCompilerIdentity r.identity) container) →
   validateRetiredReservation v.currentContainers r=.ok ()) := by
 refine ⟨fun m previous d h r hr hfl container hrc=>?_,
  fun m p d h md fd path parent ho f g hf hg=>?_,
  fun m previous c fields v hst hw r hr hu=>?_⟩
 · obtain ⟨c,v,C⟩:=compileMessage_ok.1 h
   have hl:=(containers_iff C.start C.tree C.runs).2 hrc
   obtain ⟨role,hrl,hrs⟩:=validateRetiredReservation_ok.1 (C.reservations r hr)
   have hok:RecordOk r:=retired_recordOk C.start C.runs (C.retired ▸ hr)
   have hpr:=hok.field_role hfl
   obtain rfl:=Except.ok.inj (hrl.symm.trans hpr)
   obtain ⟨last,hls,-,hn,hnm,hs⟩:=hrs rfl container hl
   obtain ⟨-,-,rfl⟩:=exactProtoFieldName_ok.1 hls
   obtain ⟨n,hps,-,hi⟩:=protoField_identity hpr
   refine ⟨⟨n,hi,?_⟩,hnm,?_⟩
   · rw [hi,retiredNumber_append (by omega)] at hn
     exact hn
   · obtain hsm|hrs:=hs
     · rw [hsm]
       exact hnm
     · exact hrs
 · obtain ⟨c,v,C⟩:=compileMessage_ok.1 h
   obtain ⟨a,t,hen,node⟩:=ho.entry C.tree
   obtain rfl:=active_unique C hen hg
   obtain ⟨⟨hnn,-⟩|⟨previous,hp,hs⟩,-⟩:=storageFieldName_ok.1 node.named
   · rw [previous_lookup C hf] at hnn
     simp at hnn
   · obtain rfl:=Option.some.inj ((previous_lookup C hf).symm.trans hp)
     obtain ⟨-,last,hls,-,hnm,hrs⟩:=previousStorageSource_ok.1 hs
     obtain ⟨-,-,rfl⟩:=exactProtoFieldName_ok.1 hls
     exact ⟨hnm,hrs⟩
 · obtain ⟨ht,hrn⟩:=rootWalk_ok.1 hw
   obtain ⟨role,hrl⟩:=(retired_recordOk hst hrn hr).role
   refine validateRetiredReservation_ok.2 ⟨role,hrl,fun _ container hl=>?_⟩
   exact absurd ((containers_iff hst ht hrn).1 hl) (hu container)

@[irreducible] def orphanStart : DatasetCompiler :=
 value (startCompiler order.message (some orphanDataset)) (by decide)

@[irreducible] def orphanWalk : List Field×DatasetCompiler :=
 value (rootWalk order orphanStart) (by decide +kernel)

theorem order_reservations : trimmedOrder.message.reservesName (fullNameName "shop.Order.note")=true ∧
  (∃f g,("field:1",f)∈activeEntries orderDataset ∧
   ("field:1",g)∈activeEntries trimmedDataset ∧
   (fullNameName f.attributes.protoFullName = "items" ∨
    trimmedOrder.message.reservesName (fullNameName f.attributes.protoFullName)=true)) ∧
  validateRetiredReservation orphanWalk.2.currentContainers
   ⟨"field:1/field:5",7,"shop.Box.element","element","element"⟩=.ok () := by
 obtain ⟨hr,hrn,hu⟩:=reservations_pin_fields
 refine ⟨?_,?_,?_⟩
 · exact (hr trimmedOrder _ _ trimmedDataset_eq
    ⟨"field:2",2,"shop.Order.note","note","note"⟩ (by decide +kernel)
    ⟨"",2,by decide⟩ trimmedOrder.message .root).2.1
 · have hi:Occurs trimmedOrder.files trimmedOrder.message
     (.proto trimmedOrder.message orderItems) [] "" := .top mem_cons_self
   obtain ⟨c,v,C⟩:=compileMessage_ok.1 orderDataset_eq
   obtain ⟨c',v',C'⟩:=compileMessage_ok.1 trimmedDataset_eq
   obtain ⟨f,hf⟩:=(declares_iff C).1 ⟨_,_,_,.top mem_cons_self,rfl⟩
   obtain ⟨g,hg⟩:=(declares_iff C').1 ⟨_,_,_,hi,rfl⟩
   exact ⟨f,g,hf,hg,(hrn _ _ _ trimmedDataset_eq _ _ _ _ hi f g hf hg).1⟩
 · have hs:startCompiler order.message (some orphanDataset)=.ok orphanStart := by
    rw [orphanStart]
    exact eq_ok_value _ _
   have hw:rootWalk order orphanStart=.ok (orphanWalk.1,orphanWalk.2) := by
    rw [orphanWalk]
    exact eq_ok_value _ _
   refine hu order _ _ _ _ hs hw _ (by decide +kernel) fun container hrc=>?_
   obtain ⟨ht,hrs⟩:=rootWalk_ok.1 hw
   have hl:=(containers_iff hs ht hrs).2 hrc
   have hn:orphanWalk.2.currentContainers.lookup "field:1" = none := by decide +kernel
   exact absurd (hn.symm.trans hl) (by simp)
end InvariantProtocol.Reservations
