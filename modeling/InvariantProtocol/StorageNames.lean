import InvariantProtocol.DataFixpoint
namespace InvariantProtocol.StorageNames
open GoResult DataSchema DataIdentity DataNames DataEvolution DataEntries ProtoDescriptor
open CompilerState CompiledTree CompilerWalk PreviousIndex
open Occurrences CompileOutcome DataHistory SlotShape ScopeNames DataFixpoint Lineage

/-- What a dataset remembers of the names in the one before it. -/
def NamesKept (p d:DatasetSchema) : Prop :=
 ∀r∈records p,∃s∈records d,s.identity=r.identity ∧ s.name=r.name ∧
  s.storageNameSource=r.storageNameSource

lemma NamesKept.trans {p d e:DatasetSchema} (h:NamesKept p d) (h':NamesKept d e) : NamesKept p e := by
 intro r hr
 obtain ⟨s,hs,hi,hn,hsr⟩:=h r hr
 obtain ⟨t,ht,hi',hn',hs'⟩:=h' s hs
 exact ⟨t,ht,hi'.trans hi,hn'.trans hn,hs'.trans hsr⟩

section
variable {m:Descriptor} {p d:DatasetSchema} {c v:DatasetCompiler}
lemma compilation_namesKept (C:Compilation m (some p) d c v) : NamesKept p d := by
 intro r hr
 obtain hr|hr:=mem_records.1 hr
 · exact ⟨r,mem_records.2 (Or.inl (keeps_retired C hr)),rfl,rfl,rfl⟩
 · obtain ⟨f,hf,hrc⟩:=mem_activeRecords.1 hr
   by_cases ha : r.identity∈v.currentActive
   · obtain ⟨g,hg⟩:=C.mem_active.1 ha
     obtain ⟨hn,hs⟩:=keeps_name C hf hg
     rw [hrc]
     exact ⟨recordOf r.identity g,mem_records.2 (Or.inr (mem_activeRecords.2 ⟨g,hg,rfl⟩)),rfl,
      hn,hs⟩
   · refine ⟨r,mem_records.2 (Or.inl ?_),rfl,rfl,rfl⟩
     rw [hrc]
     exact retires_absent C hf ha

variable {r:RetiredField}
lemma recordOk_name (h:RecordOk r) (hf:DenotesField r.identity) :
 r.name=storageName r.storageNameSource :=
 ((validateCompilerOwnedName_protoField (h.field_role hf)).1 h.2).2.2.2.2

lemma compilation_name {previous:Option DatasetSchema} (C:Compilation m previous d c v)
 (hr:r∈records d) (hfl:DenotesField r.identity) : r.name=storageName r.storageNameSource := by
 obtain hr|hr:=mem_records.1 hr
 · cases previous with
   | none=>simp [C.first_retired] at hr
   | some p=>
    exact recordOk_name ((previous_registers C).1.accepted.1 r (retired_previous C hr)) hfl
 · obtain ⟨f,hf,hrc⟩:=mem_activeRecords.1 hr
   obtain ⟨slot,path,parent,fuel,stack,ho,hi,hc⟩:=active_node C hf
   obtain ⟨md,fd,rfl⟩:=slot_of_denotesField ho.proper (hi ▸ hfl)
   rw [hrc]
   exact (storageFieldName_ok.1 hc.node.named).2.1

/-- Every retired record hangs below a known identity, and where that one is still active it is
  a message: the children of a list or map are retired together with it only. -/
def Rooted (d:DatasetSchema) : Prop :=
 ∀r∈d.retiredFields,parentCompilerIdentity r.identity≠"" →
  (∃s∈records d,s.identity=parentCompilerIdentity r.identity) ∧
  ∀F,(parentCompilerIdentity r.identity,F)∈activeEntries d →
   ∃p fields,F.type=.struct p fields

lemma struct_of_sameLogicalShape {t:DataType} {q:String} {fields:List Field}
 (h:sameLogicalShape (.struct q fields) t=true) : ∃q' fields',t=.struct q' fields' := by
 cases t <;> first | exact ⟨_,_,rfl⟩ | simp [sameLogicalShape] at h

lemma collection_child_kept (C:Compilation m (some p) d c v) {i P:String} {f F G:Field}
 (hf:(i,f)∈activeEntries p) (hF:(P,F)∈activeEntries p) (hc:f∈F.type.children)
 (hi:i=appendIdentity P (nodeSegment f.attributes)) (hG:(P,G)∈activeEntries d) :
 (∃g,(i,g)∈activeEntries d) ∨ ∃q fields,F.type=.struct q fields := by
 have hs:=(validateChange_ok.1 (evolved C hF hG)).2.2.2
 have hw:=wellFormed_entries (previous_registers C).1.tree hF
 have hw':=wellFormed_entries (compiled_wellFormed C) hG
 have hsm:∀{g role},g∈G.type.children → isCollectionRole role →
   WellFormedField f F.attributes.protoNumberPath role →
   WellFormedField g G.attributes.protoNumberPath role → ∃g,(i,g)∈activeEntries d:=by
  intro g role hg hr hwf hwg
  obtain ⟨a,t,rfl,ha⟩:=wellFormed_segment hwf hr
  obtain ⟨b,u,rfl,hb⟩:=wellFormed_segment hwg hr
  rw [hi,Field.attributes_mk,ha,←hb]
  exact ⟨_,activeEntries_child hG hg⟩
 simp only at hw hw'
 cases ht : F.type with
 | struct q fields=>exact Or.inr ⟨q,fields,rfl⟩
 | list q element n=>
  rw [ht] at hs hw hc
  cases ht' : G.type with
  | list q' element' n' =>
   rw [ht'] at hw' hsm
   obtain rfl : f=element:=by simpa [DataType.children] using hc
   exact Or.inl (hsm (by simp [DataType.children]) (Or.inl rfl) hw hw')
  | _=>simp [ht',sameLogicalShape] at hs
 | map q key value=>
  rw [ht] at hs hw hc
  cases ht' : G.type with
  | map q' key' value' =>
   rw [ht'] at hw' hsm
   obtain rfl|rfl : f=key ∨ f=value:=by simpa [DataType.children] using hc
   · exact Or.inl (hsm (g := key') (by simp [DataType.children]) (Or.inr (Or.inl rfl)) hw.1
      hw'.1)
   · exact Or.inl (hsm (g := value') (by simp [DataType.children]) (Or.inr (Or.inr rfl))
      hw.2 hw'.2)
  | _=>simp [ht',sameLogicalShape] at hs
 | _=>simp [ht,DataType.children] at hc

lemma rooted_step (C:Compilation m (some p) d c v) (hp:Rooted p) : Rooted d := by
 intro r hr hpr
 have hkp:=(compilation_successor C).kept
 -- The parent was known before, and if it is still active it was a message before.
 have hb:(∃s∈records p,s.identity=parentCompilerIdentity r.identity) ∧
   ∀F G,(parentCompilerIdentity r.identity,F)∈activeEntries p →
    (parentCompilerIdentity r.identity,G)∈activeEntries d →
    ∃q fields,F.type=.struct q fields:=by
  obtain ho|hn:=mem_records.1 (retired_previous C hr)
  · obtain ⟨hk,hst⟩:=hp r ho hpr
    exact ⟨hk,fun F _ hF _=>hst F hF⟩
  · obtain ⟨f,hf,-⟩:=mem_activeRecords.1 hn
    obtain ⟨-,hi⟩|⟨P,F',hF',hc,hi⟩:=activeEntries_parent hf
    · simp only at hi
      rw [hi,parentCompilerIdentity_append (nodeSegment_slash _)] at hpr
      exact absurd rfl hpr
    · simp only at hi
      have hP:parentCompilerIdentity r.identity=P:=by
       rw [hi,parentCompilerIdentity_append (nodeSegment_slash _)]
      rw [hP]
      refine ⟨⟨recordOf P F',mem_records.2 (Or.inr (mem_activeRecords.2 ⟨F',hF',rfl⟩)),rfl⟩,
       fun F G hF hG=>?_⟩
      have hu:F'=F:=Option.some.inj
       ((previous_lookup C hF').symm.trans (previous_lookup C hF))
      subst hu
      obtain ⟨g,hg⟩|hst:=collection_child_kept C hf hF' hc hi hG
      · exact absurd rfl (C.disjoint hg hr)
      · exact hst
 obtain ⟨⟨s,hs,hsi⟩,hst⟩:=hb
 obtain ⟨t,ht,hti,-⟩:=hkp s hs
 refine ⟨⟨t,ht,hti.trans hsi⟩,fun G hG=>?_⟩
 obtain hrt|ha:=mem_records.1 hs
 · exact absurd hsi (C.disjoint hG (keeps_retired C hrt))
 · obtain ⟨F,hF,-⟩:=mem_activeRecords.1 ha
   rw [hsi] at hF
   obtain ⟨q,fields,hF'⟩:=hst F G hF hG
   have hsh:=(validateChange_ok.1 (evolved C hF hG)).2.2.2
   rw [hF'] at hsh
   exact struct_of_sameLogicalShape hsh

lemma rooted_no_clash (C:Compilation m (some p) d c v) (hp:Rooted p) : ¬SyntheticClash m p := by
 rintro ⟨r,hr,role,protoFullName,fd,options,path,ho⟩
 generalize hP : parentCompilerIdentity r.identity=P at ho
 cases ho with
 | @child slot _ path parent hsl hs=>
  have hne:appendIdentity parent slot.segment≠"" :=
   appendIdentity_ne_empty (Slot.segment_ne_empty hsl.proper)
  obtain ⟨a,t,hen,node⟩:=hsl.entry C.tree
  obtain ⟨⟨s,hk,hsi⟩,hst⟩:=hp r hr (hP ▸ hne)
  rw [hP] at hsi hst
  obtain hrt|ha:=mem_records.1 hk
  · exact C.disjoint hen (keeps_retired C hrt) hsi
  · obtain ⟨F,hF,-⟩:=mem_activeRecords.1 ha
    rw [hsi] at hF
    obtain ⟨q,fields,hF'⟩:=hst F hF
    have hsh:=(validateChange_ok.1 (evolved C hF hen)).2.2.2
    rw [hF'] at hsh
    obtain ⟨q',fields',ht⟩:=struct_of_sameLogicalShape hsh
    obtain rfl : t=.struct q' fields':=ht
    obtain ⟨_,_,_,_,heq⟩|⟨md,fd',rfl,hm,hl,-⟩ |
     ⟨md,fd',_,_,rfl,hm,-⟩:=mem_children hs
    · cases heq
    · obtain ⟨element,heq⟩:=list_shape hm hl node.shape
      cases heq
    · obtain ⟨key,value,heq⟩:=map_shape hm node.shape
      cases heq
end

/-- The step reaches no collection child whose name a retired record of its scope owns. -/
def AvoidsClash (m:Descriptor) (previous:Option DatasetSchema) : Prop :=
 ∀p,previous=some p → ¬SyntheticClash m p

section
variable {previous:Option DatasetSchema} {steps:List (Descriptor×DatasetSchema)}
lemma run_avoidsClash (run:CompilationRun none steps) : AllSteps AvoidsClash none steps := by
 refine Run.allSteps (I := fun previous=>∀p,previous=some p → Rooted p)
  (fun m previous d h hrt=>?_) run (by simp)
 obtain ⟨c,v,C⟩:=compileMessage_ok.1 h
 cases previous with
 | none=>
  refine ⟨fun p hp=>by simp at hp,fun e he=>?_⟩
  obtain rfl:=Option.some.inj he
  intro r hr
  simp [C.first_retired] at hr
 | some p=>
  have hp:=hrt p rfl
  refine ⟨fun q hq=>?_,fun e he=>?_⟩
  · obtain rfl:=Option.some.inj hq
    exact rooted_no_clash C hp
  · obtain rfl:=Option.some.inj he
    exact rooted_step C hp

lemma run_namesKept (run:CompilationRun previous steps) : (results steps).Pairwise NamesKept :=
 (Run.pairwise (R := NamesKept) (fun _ _ _=>NamesKept.trans) (fun _ _ _ h=>by
  obtain ⟨c,v,C⟩:=compileMessage_ok.1 h
  exact compilation_namesKept C) run).1

lemma run_names_agree (run:CompilationRun previous steps) :
 ∀d∈results steps,∀e∈results steps,∀r∈records d,∀s∈records e,
  r.identity=s.identity → r.name=s.name ∧ r.storageNameSource=s.storageNameSource := by
 have hok:=CompilationRun.datasetOk run
 have hsm:∀{e r s},e∈results steps → r∈records e → s∈records e →
   r.identity=s.identity → r=s:=fun he hr hs heq=>
  List.inj_on_of_nodup_map (hok _ he).identities hr hs heq
 have hf:(results steps).Pairwise fun d e=>∀r∈records d,∀s∈records e,
   r.identity=s.identity → r.name=s.name ∧ r.storageNameSource=s.storageNameSource:=by
  refine (run_namesKept run).imp_of_mem fun _ he h r hr s hs heq=>?_
  obtain ⟨t,ht,hi,hn,hsr⟩:=h r hr
  obtain rfl:=hsm he ht hs (hi.trans heq)
  exact ⟨hn.symm,hsr.symm⟩
 refine List.Pairwise.forall_of_forall_of_flip (fun d hd r hr s hs heq=>?_) hf
  (hf.imp fun h r hr s hs heq=>?_)
 · rw [hsm hd hr hs heq]
   exact ⟨rfl,rfl⟩
 · obtain ⟨hn,hsr⟩:=h s hs r hr heq.symm
   exact ⟨hn.symm,hsr.symm⟩

/-- In every run, names and their sources are permanent and canonical; they are also unique in
  their scope exactly if every step avoids the clash, which a run from no state always does. -/
theorem storageNames_permanent (run:CompilationRun previous steps) :
  (((∀d∈results steps,∀e∈results steps,∀r∈records d,∀s∈records e,
    DenotesField r.identity → r.identity=s.identity →
     r.name=s.name ∧ r.storageNameSource=s.storageNameSource) ∧
   (∀d∈results steps,∀r∈records d,DenotesField r.identity →
    r.name=storageName r.storageNameSource) ∧
   ∀d∈results steps,∀r∈records d,∀s∈records d,r.identity≠s.identity →
    parentCompilerIdentity r.identity=parentCompilerIdentity s.identity → r.name≠s.name) ↔
   AllSteps AvoidsClash previous steps) ∧
  (previous=none → AllSteps AvoidsClash previous steps) := by
 have hu:(∀d∈results steps,NamesUnique d) ↔ AllSteps AvoidsClash previous steps :=
  Run.forall_results_iff (fun m p d h=>namesUnique_iff h) run
 refine ⟨⟨fun ⟨_,_,h⟩=>hu.1 fun d hd r hr s hs hsc hn=>?_,fun h=>?_⟩,?_⟩
 · by_contra hne
   exact h d hd r hr s hs hne hsc hn
 · refine ⟨fun d hd e he r hr s hs _ heq=>run_names_agree run d hd e he r hr s hs heq,?_,
    fun d hd r hr s hs hne hsc hn=>hne (hu.2 h d hd r hr s hs hsc hn)⟩
   refine run.forall_results fun m p d h=>?_
   obtain ⟨c,v,C⟩:=compileMessage_ok.1 h
   exact fun r hr hf=>compilation_name C hr hf
 · rintro rfl
   exact run_avoidsClash run
end

theorem order_names_permanent : CompilationRun none [(order,orderDataset),(trimmedOrder,trimmedDataset)] ∧
   ∀d∈[orderDataset,trimmedDataset],∀r∈records d,∀s∈records d,
    r.identity≠s.identity →
    parentCompilerIdentity r.identity=parentCompilerIdentity s.identity → r.name≠s.name := by
 have h:=storageNames_permanent order_run
 exact ⟨order_run,(h.1.2 (h.2 rfl)).2.2⟩

theorem orphan_names_shared : CompilationRun (some orphanDataset) [(order,clashDataset)] ∧
   ∃r∈records clashDataset,∃s∈records clashDataset,r.identity≠s.identity ∧
    parentCompilerIdentity r.identity=parentCompilerIdentity s.identity ∧
    r.name=s.name := by
 refine ⟨.cons clashDataset_eq (.nil _),?_⟩
 decide +kernel
end InvariantProtocol.StorageNames
