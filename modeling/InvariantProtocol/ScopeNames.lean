import InvariantProtocol.DataHistory
import InvariantProtocol.SlotShape
namespace InvariantProtocol.ScopeNames
open GoResult GoText DataSchema DataIdentity DataNames DataEvolution DataEntries ProtoDescriptor
open CompilerState DataCompiler CompiledTree CompilerWalk PreviousIndex
open Occurrences CompileOutcome DataHistory SlotShape

variable {m:Descriptor} {name:String} {path:List UInt32} {role:SyntheticRole}
 {stack:List String}

variable {t:DataType} {files:Files} {j:String}
lemma validateStorageNameCollisions_ok {scope:String} {fields:List Field} :
 validateStorageNameCollisions scope fields=.ok () ↔
  (∀f∈fields,f.attributes.name≠"") ∧ (fields.map fun f=>f.attributes.name).Nodup := by
 have hs:∀(owners:GoMap String String) (field:Field) (u:GoMap String String),
   collisionStep scope owners field=.ok u ↔ field.attributes.name≠"" ∧
    field.attributes.name∉owners ∧
    u=owners.insert field.attributes.name field.attributes.protoFullName:=by
  intro owners field u
  simp only [collisionStep,bind_ok,rejectIf_ok,exists_const,pure_ok]
  exact and_congr_right fun _=>and_congr_right fun _=>eq_comm
 have hl:=(@loop_register _ _ (collisionStep scope)
  (fun owners xs=>∀n,n∈owners ↔ ∃f∈xs,f.attributes.name=n)
  (fun f=>f.attributes.name≠"") (fun f g=>f.attributes.name≠g.attributes.name)
  (fun owners xs f h=>by
   simp only [hs,h,not_exists,not_and]
   constructor
   · rintro ⟨_,hne,hn,-⟩
     exact ⟨hne,hn⟩
   · rintro ⟨hne,hn⟩
     exact ⟨_,hne,hn,rfl⟩)
  (fun owners xs f u h hu n=>by
   obtain ⟨-,-,rfl⟩:=(hs _ _ _).1 hu
   rw [AList.mem_insert,h,exists_mem_snoc,or_comm,eq_comm (a := n)])
  fields ∅ [] (by simp)).1
 simp only [validateStorageNameCollisions,bind_ok,pure_ok,and_true]
 rw [hl,List.Nodup,List.pairwise_map]
 simp

variable {fd:FieldDescriptor} {source:String} {h:CompilerHistory} {parent:String} {files:Files}
  {root:MessageDescriptor} {protoFullName:String}

variable {md:MessageDescriptor} {identity:String} {options:Option FieldOptions}
  {previous:Option DatasetSchema} {d:DatasetSchema}
lemma previousStorageSource_ok {previous:Field} : previousStorageSource previous md fd=.ok source ↔
  source=previous.attributes.storageNameSource ∧
  ∃last,exactProtoFieldName previous.attributes.protoFullName=.ok last ∧
   previous.attributes.protoFullName=fullNameAppend md.fullName last ∧
   (last=fd.name ∨ md.reservesName last=true) ∧
   (source=fd.name ∨ md.reservesName source=true) := by
 simp only [previousStorageSource,bind_ok,wrap_ok,rejectIf_ok,exists_const,pure_ok,not_and_or,
  not_not]
 constructor
 · rintro ⟨last,hl,hf,hn,hs,rfl⟩
   exact ⟨rfl,last,hl,hf,hn,hs⟩
 · rintro ⟨rfl,last,hl,hf,hn,hs⟩
   exact ⟨last,hl,hf,hn,hs,rfl⟩

/-- A field is named after itself or, if it was there before, after its first name; its name
  may be owned by no other identity of the scope. -/
theorem storageFieldName_ok : storageFieldName h identity parent md fd=.ok (name,source) ↔
  (h.previousFields.lookup identity=none ∧ source=fd.name ∨
   ∃previous,h.previousFields.lookup identity=some previous ∧
    previousStorageSource previous md fd=.ok source) ∧
  name=storageName source ∧
  ∀owner,h.historicalNames.lookup (parent,name)=some owner →
   owner = "" ∨ owner=identity := by
 have how:∀n,¬(historicalNameOwner h parent n≠"" ∧ historicalNameOwner h parent n≠identity) ↔
   ∀owner,h.historicalNames.lookup (parent,n)=some owner → owner = "" ∨ owner=identity:=by
  intro n
  unfold historicalNameOwner
  cases h.historicalNames.lookup (parent,n) <;> simp [or_iff_not_imp_left]
 unfold storageFieldName
 cases hp : h.previousFields.lookup identity with
 | none=>
  simp only [bind_ok,rejectIf_ok,exists_const,pure_ok,how,Prod.mk.injEq,Except.ok.injEq,
   exists_eq_left',true_and,reduceCtorEq,false_and,exists_false,or_false]
  constructor
  · rintro ⟨ho,rfl,rfl⟩
    exact ⟨rfl,rfl,ho⟩
  · rintro ⟨rfl,rfl,ho⟩
    exact ⟨ho,rfl,rfl⟩
 | some previous=>
  simp only [bind_ok,rejectIf_ok,exists_const,pure_ok,how,Prod.mk.injEq,reduceCtorEq,
   false_and,Option.some.injEq,exists_eq_left',false_or]
  constructor
  · rintro ⟨s,hs,ho,rfl,rfl⟩
    exact ⟨hs,rfl,ho⟩
  · rintro ⟨hs,rfl,ho⟩
    exact ⟨_,hs,ho,rfl,rfl⟩

def roleName : SyntheticRole → String
 | .listElement=>"element"
 | .mapKey=>"key"
 | .mapValue=>"value"
 | _=>""

lemma Occurs.syntheticName
 (h:Occurs files root (.synthetic role name protoFullName fd options) path parent) : name=roleName role := by
 cases h with
 | child _ hs=>
  obtain ⟨_,_,_,_,heq⟩|⟨_,_,_,_,_,heq⟩|⟨_,_,_,_,_,_,_,_,heq|heq⟩:=
   mem_children hs <;> cases heq <;> rfl

lemma CompiledField.syntheticName {field:Field} {fuel:ℕ}
 (hf:CompiledField files h field fuel stack (.synthetic role name protoFullName fd options) path parent)
 (ho:Occurs files root (.synthetic role name protoFullName fd options) path parent) :
 field.attributes.name=roleName role ∧ field.attributes.storageNameSource = "" := by
 have ha:=hf.node.attributes
 simp only [Slot.attributes,syntheticAttributes] at ha
 rw [ha]
 exact ⟨Occurs.syntheticName ho,rfl⟩

/-- The children of a compiled node have names, and no two of them the same one. -/
theorem compiledType_names {slot:Slot} {fuel:ℕ} (ho:Occurs files root slot path parent)
 (hsh:slot.shape files t.children=.ok t)
 (ht:CompiledType files h t fuel stack (slot.children files) (slot.path path)
  (appendIdentity parent slot.segment)) : (∀f∈t.children,f.attributes.name≠"") ∧
  (t.children.map fun f=>f.attributes.name).Nodup := by
 cases slotForm_of_shape hsh with
 | struct fields _ _ _=>exact validateStorageNameCollisions_ok.1 ht.2.1
 | @list md fd element hmp hl=>
  obtain ⟨s,hs,he⟩:=ht
  have hm:s∈(Slot.proto md fd).children files:=by simp [hs]
  obtain rfl : elementSlot md fd=s:=by simpa [Slot.children,hmp,hl] using hs
  have hel:=(CompiledField.syntheticName he (.child ho hm)).1
  simp [DataType.children,hel,roleName]
 | @map md fd key value hmp=>
  obtain ⟨s,s',hs,hk,hv⟩:=ht
  have hm:s∈(Slot.proto md fd).children files ∧ s'∈(Slot.proto md fd).children files:=by
   simp [hs]
  simp only [Slot.children,hmp,if_true,mapSlots] at hs
  split at hs
  · obtain ⟨rfl,rfl⟩ : keySlot md fd _=s ∧ valueSlot md fd _=s':=by simpa using hs
    have hky:=(CompiledField.syntheticName hk (.child ho hm.1)).1
    have hvalue:=(CompiledField.syntheticName hv (.child ho hm.2)).1
    simp [DataType.children,hky,hvalue,roleName]
  · simp at hs
 | leaf hlf _ _=>
  have hnil:t.children=[]:=by
   cases t <;> first | rfl | simp [isLeaf] at hlf
  simp [hnil]

lemma validateSyntheticName_ok {child expected:String} :
 validateSyntheticName child expected name source=.ok () ↔ name=expected ∧ source = "" := by
 simp [validateSyntheticName,not_or]

lemma validateCompilerOwnedName_synthetic
 (hr:compilerIdentityRole identity=.ok role) (hc:isCollectionRole role) :
 validateCompilerOwnedName identity protoFullName name source=.ok () ↔
  protoFullName≠"" ∧ name=roleName role ∧ source = "" := by
 simp only [validateCompilerOwnedName,bind_ok,hr,Except.ok.injEq,exists_eq_left',rejectIf_ok,
  exists_const]
 obtain rfl|rfl|rfl:=hc <;>
  simp only [validateSyntheticName_ok,roleName] <;>
  constructor <;> rintro ⟨h1,h2⟩
 all_goals first
  | exact ⟨h1,h2.2⟩
  | exact ⟨h1,by simp [h2.1],h2⟩

section
variable {m:Descriptor} {previous:Option DatasetSchema} {d:DatasetSchema}
 {c v:DatasetCompiler}

variable {i:String} {f:Field}
lemma active_node (C:Compilation m previous d c v) (h:(i,f)∈activeEntries d) :
 NodeAt m.files m.message c.toCompilerHistory i f :=
 compiledFields_entries C.tree h

lemma active_unique (C:Compilation m previous d c v) {g:Field} (hf:(i,f)∈activeEntries d)
 (hg:(i,g)∈activeEntries d) : f=g :=
 congrArg Prod.snd (List.inj_on_of_nodup_map C.active_nodup hf hg rfl)

lemma NodeAt.ne_empty {root:MessageDescriptor} {h:CompilerHistory} (hnode:NodeAt files root h i f) :
 i≠"" := by
 obtain ⟨slot,path,parent,fuel,stack,ho,rfl,-⟩:=hnode
 exact appendIdentity_ne_empty (Slot.segment_ne_empty ho.proper)

lemma children_names (C:Compilation m previous d c v) (h:(i,f)∈activeEntries d) :
 (∀g∈f.type.children,g.attributes.name≠"") ∧
  (f.type.children.map fun g=>g.attributes.name).Nodup := by
 obtain ⟨slot,path,parent,fuel,stack,ho,rfl,hf⟩:=active_node C h
 exact compiledType_names ho hf.node.shape hf.type

lemma active_named (C:Compilation m previous d c v) (h:(i,f)∈activeEntries d) : f.attributes.name≠"" := by
 obtain ⟨ht,-⟩|⟨p,P,hp,hc,-⟩:=activeEntries_parent h
 · exact (validateStorageNameCollisions_ok.1 C.collisions).1 f ht
 · exact (children_names C hp).1 f hc

lemma active_name_unique (C:Compilation m previous d c v) {g:Field} (hf:(i,f)∈activeEntries d)
 (hg:(j,g)∈activeEntries d) (hs:parentCompilerIdentity i=parentCompilerIdentity j)
 (hn:f.attributes.name=g.attributes.name) : i=j := by
 have hpr:∀{i p} {a:FieldAttributes},i=appendIdentity p (nodeSegment a) →
   parentCompilerIdentity i=p:=by
  rintro i p a rfl
  exact parentCompilerIdentity_append (nodeSegment_slash a)
 obtain ⟨hft,hi⟩|⟨p,P,hp,hfc,hi⟩:=activeEntries_parent hf <;>
  obtain ⟨hgt,hj⟩|⟨q,Q,hq,hgc,hj⟩:=activeEntries_parent hg
 all_goals
  rw [hpr hi,hpr hj] at hs
  simp only at *
 · have hnm:=(validateStorageNameCollisions_ok.1 C.collisions).2
   rw [hi,hj,List.inj_on_of_nodup_map hnm hft hgt hn]
 · exact absurd hs.symm (NodeAt.ne_empty (active_node C hq))
 · exact absurd hs (NodeAt.ne_empty (active_node C hp))
 · subst hs
   obtain rfl:=active_unique C hp hq
   rw [hi,hj,List.inj_on_of_nodup_map (children_names C hp).2 hfc hgc hn]
end

section
variable {m:Descriptor} {p d:DatasetSchema} {c v:DatasetCompiler}
  {i:String} {f g:Field} {fd:FieldDescriptor} {r:RetiredField}
section
variable (C:Compilation m (some p) d c v)
include C
section
variable (hf:(i,f)∈activeEntries p)
include hf
lemma previous_recordOk :
 RecordOk (recordOf i f) :=
 (previous_registers C).1.accepted.1 _ (mem_records.2 (Or.inr (mem_activeRecords.2 ⟨f,hf,rfl⟩)))

lemma previous_lookup :
 c.previousFields.lookup i=some f :=
 ((previous_registers C).2.fields_iff i f).2 hf

lemma keeps_name (hg:(i,g)∈activeEntries d) :
 g.attributes.name=f.attributes.name ∧
  g.attributes.storageNameSource=f.attributes.storageNameSource := by
 have hok:=previous_recordOk C hf
 have hl:=previous_lookup C hf
 obtain ⟨slot,path,parent,fuel,stack,ho,rfl,hc⟩:=active_node C hg
 obtain ⟨role,hr⟩:=hok.role
 obtain rfl:=Slot.role_unique ho.proper hr
 cases slot with
 | proto md fd=>
  obtain ⟨-,-,-,-,hn⟩:=(validateCompilerOwnedName_protoField hr).1 hok.2
  obtain ⟨hs,hnm,-⟩:=storageFieldName_ok.1 hc.node.named
  obtain ⟨hnn,-⟩|⟨previous,hp,hs⟩:=hs
  · exact absurd (hl.symm.trans hnn) (by simp)
  · obtain rfl:=Option.some.inj (hl.symm.trans hp)
    have hsm:=(previousStorageSource_ok.1 hs).1
    exact ⟨by rw [hnm,hsm];exact hn.symm,hsm⟩
 | synthetic role name protoFullName fd options=>
  obtain ⟨-,hn,hs⟩:=(validateCompilerOwnedName_synthetic hr ho.proper).1 hok.2
  obtain ⟨hn',hs'⟩:=CompiledField.syntheticName hc ho
  exact ⟨hn'.trans hn.symm,hs'.trans hs.symm⟩

lemma evolved
 (hg:(i,g)∈activeEntries d) : validateChange f g=.ok () := by
 have hl:=previous_lookup C hf
 obtain ⟨slot,path,parent,fuel,stack,ho,rfl,hc⟩:=active_node C hg
 have hev:=hc.node.evolution
 cases g with
 | nil=>exact hc.elim
 | mk a t=>simpa [validateEvolution,hl] using hev
end
end

variable {md:MessageDescriptor}
lemma list_shape (hm:fd.isMap files=false) (hl:fd.isList files=true)
 (h:(Slot.proto md fd).shape files t.children=.ok t) :
 ∃element,t=.list "" element (listFixedLength fd.options) := by
 simp only [Slot.shape,hm,hl,Bool.false_eq_true,if_false,if_true] at h
 split at h
 · next element _=>exact ⟨element,(Except.ok.inj h).symm⟩
 · simp at h

lemma map_shape (hm:fd.isMap files=true) (h:(Slot.proto md fd).shape files t.children=.ok t) :
 ∃key value,t=.map "" key value := by
 simp only [Slot.shape,hm,if_true] at h
 split at h
 · next key value _=>exact ⟨key,value,(Except.ok.inj h).symm⟩
 · simp at h

lemma wellFormed_segment {field:Field} (h:WellFormedField field path role) (hrl:isCollectionRole role) :
 ∃a t,field=.mk a t ∧ nodeSegment a=roleSegment role := by
 cases field with
 | nil=>exact h.elim
 | mk a t=>
  obtain ⟨rfl,-⟩:=h
  refine ⟨a,t,rfl,?_⟩
  unfold nodeSegment
  obtain hr|hr|hr:=hrl <;> rw [hr] <;> rfl

/-- A collection whose field had a child before had this child before: the evolution check
  keeps a list a list and a map a map. -/
theorem collection_child_previous (C:Compilation m (some p) d c v)
 {protoFullName:String} {options:Option FieldOptions} {parent:String}
 (ho:Occurs m.files m.message (.synthetic role name protoFullName fd options) path parent)
 (hg:(j,g)∈activeEntries p) (hp:parentCompilerIdentity j=parent) :
 ∃f,(appendIdentity parent (roleSegment role),f)∈activeEntries p := by
 cases ho with
 | @child slot _ path parent' hsl hs=>
  have hne:appendIdentity parent' slot.segment≠"" :=
   appendIdentity_ne_empty (Slot.segment_ne_empty hsl.proper)
  obtain ⟨a,t,hen,node⟩:=hsl.entry C.tree
  obtain ⟨-,hj⟩|⟨q,G,hq,-,hj⟩:=activeEntries_parent hg
  · simp only at hj
    rw [hj,parentCompilerIdentity_append (nodeSegment_slash _)] at hp
    exact absurd hp.symm hne
  simp only at hj
  rw [hj,parentCompilerIdentity_append (nodeSegment_slash _)] at hp
  subst hp
  have hsh:=(validateChange_ok.1 (evolved C hq hen)).2.2.2
  have hw:=wellFormed_entries (previous_registers C).1.tree hq
  have hc:∀f role,f∈G.type.children → isCollectionRole role →
    WellFormedField f G.attributes.protoNumberPath role →
    ∃f,(appendIdentity (appendIdentity parent' slot.segment) (roleSegment role),f) ∈
     activeEntries p:=by
   intro f role hf hr hwf
   obtain ⟨b,u,rfl,hsg⟩:=wellFormed_segment hwf hr
   exact ⟨_,hsg ▸ activeEntries_child hq hf⟩
  simp only [Field.type_mk] at hsh hw
  obtain ⟨_,_,_,_,heq⟩|⟨md,fd',rfl,hm,hl,heq⟩ |
   ⟨md,fd',key,value,rfl,hm,-,-,heq⟩:=mem_children hs
  · cases heq
  · cases heq
    obtain ⟨element,rfl⟩:=list_shape hm hl node.shape
    cases ht : G.type with
    | list p' e n=>
     rw [ht] at hw hc
     exact hc e .listElement (by simp [DataType.children]) (Or.inl rfl) hw
    | _=>simp [ht,sameLogicalShape] at hsh
  · obtain ⟨key',value',rfl⟩:=map_shape hm node.shape
    cases ht : G.type with
    | map p' k w=>
     rw [ht] at hw hc
     obtain heq|heq:=heq <;> cases heq
     · exact hc k .mapKey (by simp [DataType.children]) (Or.inr (Or.inl rfl)) hw.1
     · exact hc w .mapValue (by simp [DataType.children]) (Or.inr (Or.inr rfl)) hw.2
    | _=>simp [ht,sameLogicalShape] at hsh

lemma retired_previous (C:Compilation m (some p) d c v) (hr:r∈d.retiredFields) : r∈records p := by
 have hrg:=(previous_registers C).2
 rw [C.mem_retired,retireAbsent_lookup C.historyOk,C.runs.history] at hr
 obtain hr|⟨f,hf,-,hrc⟩:=hr
 · exact mem_records.2 (Or.inl ((hrg.retired_iff _ _).1 hr).1)
 · exact mem_records.2 (Or.inr (mem_activeRecords.2 ⟨f,(hrg.fields_iff _ _).1 hf,hrc⟩))

/-- A retired record that has the parent and the storage name of a list element, map key or map
  value which the descriptor declares. -/
def SyntheticClash (m:Descriptor) (p:DatasetSchema) : Prop :=
 ∃r∈p.retiredFields,∃role protoFullName fd options path,
  Occurs m.files m.message (.synthetic role r.name protoFullName fd options) path
   (parentCompilerIdentity r.identity)

lemma Accepted.eq_of_name {rs:List RetiredField} (h:Accepted rs) {s:RetiredField} (hr:r∈rs)
 (hs:s∈rs) (hsc:parentCompilerIdentity r.identity=parentCompilerIdentity s.identity)
 (hn:r.name=s.name) : r=s := by
 by_contra hne
 have : Std.Symm Compatible:=⟨fun _ _=>Compatible.symm⟩
 exact (h.2.forall hr hs hne).2.2 ⟨hsc,hn⟩

/-- Outside a clash, no retired record shares a name with an active sibling. -/
theorem retired_active_name (C:Compilation m (some p) d c v) (hcl:¬SyntheticClash m p)
 (hr:r∈d.retiredFields) (hg:(j,g)∈activeEntries d)
 (hs:parentCompilerIdentity r.identity=parentCompilerIdentity j) : r.name≠g.attributes.name := by
 intro hn
 have hne:r.identity≠j:=C.disjoint hg hr
 have hol:=retired_previous C hr
 obtain ⟨hp,hrg⟩:=previous_registers C
 by_cases ha : ∃f,(j,f)∈activeEntries p
 · obtain ⟨f,hf⟩:=ha
   have hf':recordOf j f∈records p:=mem_records.2 (Or.inr (mem_activeRecords.2 ⟨f,hf,rfl⟩))
   rw [(keeps_name C hf hg).1] at hn
   exact hne (congrArg RetiredField.identity
    (Accepted.eq_of_name hp.accepted hol hf' hs hn))
 · obtain ⟨slot,path,parent,fuel,stack,ho,rfl,hc⟩:=active_node C hg
   rw [Occurs.parent_eq ho] at hs
   cases slot with
   | proto md fd=>
    have how:=(storageFieldName_ok.1 hc.node.named).2.2 r.identity
     ((hrg.names_iff _ _ _).2 ⟨r,hol,hs,hn,rfl⟩)
    obtain hem|hsm:=how
    · exact (hp.accepted.1 r hol).identity_ne_empty hem
    · exact hne hsm
   | synthetic role name protoFullName fd options=>
    obtain hrt|hrc:=mem_records.1 hol
    · refine hcl ⟨r,hrt,role,protoFullName,fd,options,path,?_⟩
      rw [hn,(CompiledField.syntheticName hc ho).1,hs,←Occurs.syntheticName ho]
      exact ho
    · obtain ⟨f,hf,-⟩:=mem_activeRecords.1 hrc
      exact ha (collection_child_previous C ho hf hs)
end

/-- Two different identities with one parent never share a storage name. -/
def NamesUnique (d:DatasetSchema) : Prop :=
 ∀r∈records d,∀s∈records d,
  parentCompilerIdentity r.identity=parentCompilerIdentity s.identity → r.name=s.name →
   r.identity=s.identity

lemma namesUnique_of_separate {c v:DatasetCompiler} (C:Compilation m previous d c v)
 (hrt:∀r∈d.retiredFields,∀s∈d.retiredFields,
  parentCompilerIdentity r.identity=parentCompilerIdentity s.identity → r.name=s.name →
   r.identity=s.identity) (ha:∀r∈d.retiredFields,∀j g,(j,g)∈activeEntries d →
  parentCompilerIdentity r.identity=parentCompilerIdentity j → r.name≠g.attributes.name) :
 NamesUnique d := by
 intro r hr s hs hsc hn
 obtain hr|hr:=mem_records.1 hr <;> obtain hs|hs:=mem_records.1 hs
 · exact hrt r hr s hs hsc hn
 · obtain ⟨g,hg,hrc⟩:=mem_activeRecords.1 hs
   exact absurd (hn.trans (by rw [hrc];rfl)) (ha r hr _ g hg hsc)
 · obtain ⟨g,hg,hrc⟩:=mem_activeRecords.1 hr
   exact absurd (hn.symm.trans (by rw [hrc];rfl)) (ha s hs _ g hg hsc.symm)
 · obtain ⟨f,hf,hrf⟩:=mem_activeRecords.1 hr
   obtain ⟨g,hg,hrg⟩:=mem_activeRecords.1 hs
   refine active_name_unique C hf hg hsc ?_
   rw [hrf,hrg] at hn
   exact hn

/-- Names stay unique exactly if the walk reaches no collection child whose name a retired
  record of its scope owns. -/
theorem namesUnique_iff (h:compileMessage m previous=.ok d) :
 NamesUnique d ↔ ∀p,previous=some p → ¬SyntheticClash m p := by
 obtain ⟨c,v,C⟩:=compileMessage_ok.1 h
 constructor
 · rintro hu p rfl ⟨r,hr,role,protoFullName,fd,options,path,ho⟩
   obtain ⟨a,t,hen,node⟩:=ho.entry C.tree
   have hk:=keeps_retired C hr
   refine C.disjoint hen hk (hu r (mem_records.2 (Or.inl hk)) (recordOf _ (.mk a t))
    (mem_records.2 (Or.inr (mem_activeRecords.2 ⟨_,hen,rfl⟩)))
    (Occurs.parent_eq ho).symm ?_)
   have ha:=congrArg FieldAttributes.name node.attributes
   exact ha.symm
 · intro hc
   cases previous with
   | none=>
    exact namesUnique_of_separate C (by simp [C.first_retired]) (by simp [C.first_retired])
   | some p=>
    refine namesUnique_of_separate C (fun r hr s hs hsc hn=>?_)
     (fun r hr j g hg hsc=>retired_active_name C (hc p rfl) hr hg hsc)
    rw [Accepted.eq_of_name (previous_registers C).1.accepted (retired_previous C hr)
     (retired_previous C hs) hsc hn]
end InvariantProtocol.ScopeNames
