import InvariantProtocol.ScopeNames
namespace InvariantProtocol.DataFixpoint
open ListRelations GoResult GoText DataSchema DataIdentity DataNames DataEvolution DataEntries
open ProtoDescriptor CompilerState DataCompiler CompilerTrace CompiledTree CompilerWalk
open PreviousIndex AllocationLedger Occurrences CompileOutcome DataHistory SlotShape ScopeNames
open List hiding map

variable {path:List UInt32} {stack:List String} {root:MessageDescriptor} {a:FieldAttributes}
  {files:Files} {h:CompilerHistory} {t:DataType} {fuel:ℕ} {slot:Slot}
  {h':CompilerHistory} {parent:String} {c:DatasetCompiler} {events:List Event}
lemma CompiledType.imp {slots:List Slot} {identity:String}
 (ht:CompiledType files h t fuel stack slots path identity) (hc:∀f∈t.children,∀s∈slots,∀fuel stack,
  CompiledField files h f fuel stack s path identity →
  CompiledField files h' f fuel stack s path identity) :
 CompiledType files h' t fuel stack slots path identity := by
 cases t with
 | struct p fields=>
  obtain ⟨hfr,hcl,rest,hfl,hf⟩:=ht
  refine ⟨hfr,hcl,rest,hfl,?_⟩
  rw [compiledFields_forall₂] at hf ⊢
  rw [forall₂_iff_get] at hf ⊢
  exact ⟨hf.1,fun i h₁ h₂=>
   hc _ (get_mem _ _) _ (get_mem _ _) _ _ (hf.2 i h₁ h₂)⟩
 | list p element n=>
  obtain ⟨s,rfl,he⟩:=ht
  exact ⟨s,rfl,hc _ (by simp [DataType.children]) _ (by simp) _ _ he⟩
 | map p key value=>
  obtain ⟨s,s',rfl,hk,hv⟩:=ht
  exact ⟨s,s',rfl,hc _ (by simp [DataType.children]) _ (by simp) _ _ hk,
   hc _ (by simp [DataType.children]) _ (by simp) _ _ hv⟩
 | _=>exact ht

lemma CompiledField.transfer (entries:List (String×Field))
 (hnode:∀slot path parent a t,Occurs files root slot path parent →
  (appendIdentity parent slot.segment,DataSchema.Field.mk a t)∈entries →
  NodeOk files h slot path parent a t → NodeOk files h' slot path parent a t)
 {field:Field} (hf:CompiledField files h field fuel stack slot path parent)
 (ho:Occurs files root slot path parent) (hsub:∀entry∈fieldEntries parent field,entry∈entries) :
 CompiledField files h' field fuel stack slot path parent := by
 induction field using Field.tree_induction generalizing fuel stack slot path parent with
 | hnil=>exact hf.elim
 | hmk a t ih=>
  have hsg:=NodeOk.segment hf.1 ho.proper
  rw [fieldEntries,hsg,typeEntries_eq] at hsub
  refine ⟨hnode _ _ _ _ _ ho (hsub _ mem_cons_self) hf.1,?_⟩
  refine CompiledType.imp hf.2 fun f hm s hs fuel stack hc=>?_
  refine ih f hm hc (.child ho hs) fun entry hen=>hsub entry ?_
  exact mem_cons_of_mem _ (List.mem_flatMap.2 ⟨f,hm,hen⟩)

lemma sameLogicalShape_refl (h:∀p,t≠.unset p) : sameLogicalShape t t=true := by
 cases t with
 | unset p=>exact absurd rfl (h p)
 | enum p e=>
  simp only [sameLogicalShape,compatibleEnumEvolution,decide_true,Bool.true_and,all_eq_true,
   contains_iff_mem,mem_map]
  exact fun value hvalue=>⟨value,hvalue,rfl⟩
 | _=>simp [sameLogicalShape]

lemma slotForm_ne_unset (h:SlotForm files slot t) (p:String) : t≠.unset p := by
 rintro rfl
 cases h with
 | leaf hl _ _=>simp [isLeaf] at hl

lemma validateChange_refl (h:SlotForm files slot t) : validateChange (.mk a t) (.mk a t)=.ok () :=
 validateChange_ok.2 ⟨⟨rfl,rfl⟩,rfl,⟨rfl,rfl⟩,sameLogicalShape_refl (slotForm_ne_unset h)⟩

/-- Where every allocation asks for a previous ID, a trace runs without using new ones. -/
theorem runs_replay (ho:∀i id,(i,id)∈allocations events → c.previousActive.lookup i=some id ∧ i∉c.retired)
 (hn:((allocations events).map Prod.fst).Nodup)
 (hf:∀i∈(allocations events).map Prod.fst,i∉c.currentActive) :
 ∃v,Runs c events v ∧ v.lastID=c.lastID := by
 induction events generalizing c with
 | nil=>exact ⟨c,.refl c,rfl⟩
 | cons event events ih=>
  cases event with
  | enter identity md=>
   obtain ⟨v,hr,hl⟩:=ih (c := enter c identity md) ho hn hf
   exact ⟨v,.enter hr,hl⟩
  | allocate identity id=>
   have hc:allocations (.allocate identity id::events) =
    (identity,id)::allocations events:=rfl
   rw [hc] at ho hn hf
   rw [map_cons,nodup_cons] at hn
   obtain ⟨hid,hlv⟩:=ho identity id mem_cons_self
   have hs:allocate c identity=.ok (id,{ c with
     currentActive:=c.currentActive.insert identity id }):=
    allocate_ok.2 ⟨hf _ mem_cons_self,hlv,Or.inl ⟨Or.inl hid,rfl⟩⟩
   obtain ⟨v,hr,hl⟩:=ih (c := { c with
     currentActive:=c.currentActive.insert identity id })
    (fun i n hi=>ho i n (mem_cons_of_mem _ hi)) hn.2 fun i hi=>by
     rw [AList.mem_insert,not_or]
     exact ⟨fun heq=>hn.1 (heq ▸ hi),hf i (mem_cons_of_mem _ hi)⟩
   exact ⟨v,.allocate hs hr,hl⟩

lemma runs_containers {v:DatasetCompiler} (run:Runs c events v) : v.currentContainers =
  (entered events).foldl (fun containers e=>containers.insert e.1 e.2) c.currentContainers := by
 induction run with
 | refl _=>rfl
 | allocate hs _ ih=>
  obtain ⟨-,-,⟨-,rfl⟩|⟨-,-,-,-,-,rfl⟩⟩:=allocate_ok.1 hs
  · exact ih
  · exact ih
 | enter _ ih=>exact ih

lemma compiledField_wellFormed {field:Field} (hf:CompiledField files h field fuel stack slot path parent) :
 Slot.Proper slot → WellFormedField field path (Slot.role slot) := by
 refine CompiledField.induction (P := fun slot path _ field=>
  Slot.Proper slot → WellFormedField field path (Slot.role slot)) ?_ hf
 intro slot path parent a t node hc hp
 have hpt:a.protoNumberPath=slot.path path:=by
  rw [node.attributes]
  cases slot <;> rfl
 refine ⟨NodeOk.role node,?_,?_⟩
 · rw [hpt]
   cases slot with
   | proto md fd=>simp [Slot.role,Slot.path,PositionOk]
   | synthetic role name protoFullName fd options=>
    obtain rfl|rfl|rfl:=hp <;> rfl
 · rw [hpt]
   cases slotForm_of_shape node.shape with
   | struct fields _ hsl _=>
    rw [hsl] at hc
    refine wellFormedFields_iff.2 fun f hmm=>?_
    obtain ⟨s,hs,hr⟩:=forall₂_mem_right hc hmm
    obtain ⟨fd,-,rfl⟩:=mem_protoSlots.1 hs
    exact hr trivial
   | @list md fd element hm hl=>
    simp only [Slot.children,hm,hl,Bool.false_eq_true,if_false,if_true,DataType.children,
     forall₂_cons,forall₂_nil_left_iff,and_true] at hc
    exact hc (Or.inl rfl)
   | @map md fd key value hm=>
    simp only [Slot.children,hm,if_true,DataType.children,mapSlots] at hc
    split at hc
    · simp only [forall₂_cons,forall₂_nil_left_iff,and_true] at hc
      exact ⟨hc.1 (Or.inr (Or.inl rfl)),hc.2 (Or.inr (Or.inr rfl))⟩
    · simp at hc
   | leaf hlf _ _=>
    cases t <;> trivial

section
variable {m:Descriptor} {previous:Option DatasetSchema} {d:DatasetSchema}
 {c v:DatasetCompiler}
lemma compiled_wellFormed (C:Compilation m previous d c v) : WellFormedFields d.fields [] := by
 refine wellFormedFields_iff.2 fun f hf=>?_
 obtain ⟨s,hs,hc⟩:=forall₂_mem_right (compiledFields_forall₂.1 C.tree) hf
 obtain ⟨fd,-,rfl⟩:=mem_protoSlots.1 hs
 exact compiledField_wellFormed hc trivial

variable {parent:String} {c':DatasetCompiler} {fd:FieldDescriptor}
/-- A storage name's source is the field's own name or one the past already vouched for. -/
theorem source_valid (C:Compilation m previous d c v) (hm:DescriptorValid m) {md:MessageDescriptor}
 (ho:Occurs m.files m.message (.proto md fd) path parent) {name source:String}
 (h:storageFieldName c.toCompilerHistory (appendIdentity parent (fieldIdentitySegment fd.number))
  parent md fd=.ok (name,source)) : nameIsValid source := by
 obtain ⟨hv,hfd⟩:=Occurs.valid hm ho
 obtain ⟨⟨-,rfl⟩|⟨field,hf,hs⟩,-⟩:=storageFieldName_ok.1 h
 · exact (hv.2.1 fd hfd).1
 · cases previous with
   | none=>simp [(startCompiler_none C.start).previousFields] at hf
   | some p=>
    have ha:=((previous_registers C).2.fields_iff _ _).1 hf
    have hok:=previous_recordOk C ha
    rw [(previousStorageSource_ok.1 hs).1]
    exact ((validateCompilerOwnedName_protoField (Occurs.role hm ho)).1 hok.2).2.2.2.1

lemma syntheticFullName_ne_empty {files:Files} {role:SyntheticRole} {name protoFullName:String}
 {options:Option FieldOptions}
 (h:Occurs files root (.synthetic role name protoFullName fd options) path parent) : protoFullName≠"" := by
 cases h with
 | child _ hs=>
  obtain ⟨_,_,_,_,heq⟩|⟨_,_,_,_,_,heq⟩|⟨_,_,_,_,_,_,_,_,heq|heq⟩:=
   mem_children hs <;> cases heq
  all_goals
   intro hem
   have hl:=congrArg String.toList hem
   simp at hl

section
variable (C:Compilation m previous d c v)
include C
lemma active_ownedName (hm:DescriptorValid m) {i:String}
 {f:Field} (hf:(i,f)∈activeEntries d) :
 validateCompilerOwnedName i f.attributes.protoFullName f.attributes.name
  f.attributes.storageNameSource=.ok () := by
 have hn:=active_named C hf
 obtain ⟨slot,path,parent,fuel,stack,ho,rfl,hc⟩:=active_node C hf
 have hr:=Occurs.role hm ho
 have ha:=congrArg FieldAttributes.protoFullName hc.node.attributes
 cases slot with
 | proto md fd=>
  obtain ⟨hv,hfd⟩:=Occurs.valid hm ho
  have hex:=exactProtoFieldName_append hv.1 (hv.2.1 fd hfd).1
  have hfl:f.attributes.protoFullName=fullNameAppend md.fullName fd.name:=ha
  have hnode:=hc.node.named
  refine (validateCompilerOwnedName_protoField hr).2 ⟨⟨fd.name,hfl ▸ hex⟩,?_,hn,
   source_valid C hm ho hnode,(storageFieldName_ok.1 hnode).2.1⟩
  intro hem
  rw [←hfl,hem] at hex
  exact absurd (exactProtoFieldName_ok.1 hex).1 (by decide)
 | synthetic role name protoFullName fd options=>
  refine (validateCompilerOwnedName_synthetic hr ho.proper).2
   ⟨?_,CompiledField.syntheticName hc ho⟩
  rw [ha]
  exact syntheticFullName_ne_empty ho

lemma compiled_recordOk (hm:DescriptorValid m) {r:RetiredField}
 (hr:r∈records d) : RecordOk r := by
 refine ⟨validateStableID_ok.2 (C.datasetOk.range r hr),?_⟩
 obtain hr|hr:=mem_records.1 hr
 · cases previous with
   | none=>simp [C.first_retired] at hr
   | some p=>exact ((previous_registers C).1.accepted.1 r (retired_previous C hr)).2
 · obtain ⟨f,hf,hrc⟩:=mem_activeRecords.1 hr
   rw [hrc]
   exact active_ownedName C hm hf

lemma compiled_accepted (hm:DescriptorValid m)
 (hn:NamesUnique d) : Accepted (records d) := by
 refine ⟨fun r hr=>compiled_recordOk C hm hr,?_⟩
 refine C.identities_nodup.of_map.imp_of_mem fun {r s} hr hs hne=>?_
 have hi:r.identity≠s.identity:=fun heq=>
  hne (inj_on_of_nodup_map C.identities_nodup hr hs heq)
 refine ⟨hi,fun heq=>hne (inj_on_of_nodup_map C.ids_nodup hr hs heq),?_⟩
 rintro ⟨hsc,hnm⟩
 exact hi (hn r hr s hs hsc hnm)

lemma compiled_previousOk (hm:DescriptorValid m)
 (hn:NamesUnique d) : PreviousOk m.message d where
 source:=C.sourceMessage
 name:=by rw [C.name,C.sourceMessage]
 last_range:=C.datasetOk.last_range
 tree:=compiled_wellFormed C
 accepted:=compiled_accepted C hm hn
 last:=C.datasetOk.last
end

lemma node_again (hm:DescriptorValid m) (hn:NamesUnique d) {h:CompilerHistory}
 (hrg:Registers m.message d.lastFieldId d.retiredFields (activeEntries d) c') {slot:Slot}
 {t:DataType} (ho:Occurs m.files m.message slot path parent)
 (hen:(appendIdentity parent slot.segment,DataSchema.Field.mk a t)∈activeEntries d)
 (node:NodeOk m.files h slot path parent a t) :
 NodeOk m.files c'.toCompilerHistory slot path parent a t := by
 have hl:=(hrg.fields_iff _ _).2 hen
 refine ⟨node.attributes,?_,node.admitted,node.shape,?_⟩
 · cases slot with
   | synthetic role name protoFullName fd options=>trivial
   | proto md fd=>
    obtain ⟨hv,hfd⟩:=Occurs.valid hm ho
    have hf:a.protoFullName=fullNameAppend md.fullName fd.name:=
     congrArg FieldAttributes.protoFullName node.attributes
    obtain ⟨hs,hnm,-⟩:=storageFieldName_ok.1 node.named
    refine storageFieldName_ok.2 ⟨Or.inr ⟨_,hl,?_⟩,hnm,fun owner how=>Or.inr ?_⟩
    · refine previousStorageSource_ok.2 ⟨rfl,fd.name,?_,hf,Or.inl rfl,?_⟩
      · change exactProtoFieldName a.protoFullName=.ok fd.name
        rw [hf]
        exact exactProtoFieldName_append hv.1 (hv.2.1 fd hfd).1
      · obtain ⟨-,hnw⟩|⟨old,-,hol⟩:=hs
        · exact Or.inl hnw
        · obtain ⟨-,-,-,-,-,hrs⟩:=previousStorageSource_ok.1 hol
          exact hrs
    · obtain ⟨r,hr,hsc,hrn,rfl⟩:=(hrg.names_iff _ _ _).1 how
      refine hn r hr (recordOf _ (.mk a t))
       (mem_records.2 (Or.inr (mem_activeRecords.2 ⟨_,hen,rfl⟩))) ?_ hrn
      exact hsc.trans (Occurs.parent_eq ho).symm
 · rw [validateEvolution,hl]
   exact validateChange_refl (slotForm_of_shape node.shape)

lemma tree_again (C:Compilation m previous d c v) (hm:DescriptorValid m) (hn:NamesUnique d)
 (hr:Registers m.message d.lastFieldId d.retiredFields (activeEntries d) c') :
 CompiledFields m.files c'.toCompilerHistory d.fields (recursionBudget m.files)
  [m.message.fullName] (protoSlots m.message) [] "" := by
 have ht:=C.tree
 rw [compiledFields_forall₂,forall₂_iff_get] at ht ⊢
 refine ⟨ht.1,fun i h₁ h₂=>?_⟩
 obtain ⟨fd,hfd,hs⟩:=mem_protoSlots.1 (get_mem (protoSlots m.message) ⟨i,h₁⟩)
 have hf:=ht.2 i h₁ h₂
 rw [hs] at hf ⊢
 refine CompiledField.transfer (activeEntries d)
  (fun slot path parent a t ho hen node=>node_again hm hn hr ho hen node)
  hf (.top hfd) fun entry hen=>?_
 rw [activeEntries,fieldsEntries_eq]
 exact List.mem_flatMap.2 ⟨_,get_mem _ _,hen⟩

lemma runs_again (C:Compilation m previous d c v)
 (hrg:Registers m.message d.lastFieldId d.retiredFields (activeEntries d) c') :
 ∃v',Runs c' (fieldsTrace m.files "" d.fields) v' ∧ v'.lastID=d.lastFieldId := by
 rw [←hrg.last_eq]
 refine runs_replay (fun i id hid=>?_) (runs_activates C.runs).1 (by simp [hrg.current])
 rw [allocations_fieldsTrace] at hid
 obtain ⟨⟨i,f⟩,hf,hp⟩:=List.mem_map.1 hid
 obtain ⟨rfl,rfl⟩:=Prod.mk.inj hp
 refine ⟨?_,fun hrt=>?_⟩
 · rw [hrg.active_eq,(hrg.fields_iff _ _).2 hf]
   rfl
 · obtain ⟨r,hr,hri⟩:=hrg.mem_retired.1 hrt
   exact C.disjoint hf hr hri

lemma retiredBefore_total (left right:RetiredField) :
 retiredBefore left right ∨ retiredBefore right left := by
 unfold retiredBefore
 obtain h|h|h:=Int.lt_trichotomy left.stableId right.stableId
 · exact Or.inl (Or.inl h)
 · exact (String.le_total left.identity right.identity).imp
    (fun hle=>Or.inr ⟨h,hle⟩) (fun hle=>Or.inr ⟨h.symm,hle⟩)
 · exact Or.inr (Or.inl h)

lemma retiredBefore_trans {a b c:RetiredField} (hab:retiredBefore a b) (hbc:retiredBefore b c) :
 retiredBefore a c := by
 unfold retiredBefore at *
 obtain hab|⟨hab,hle⟩:=hab <;> obtain hbc|⟨hbc,hl'⟩:=hbc
 · exact Or.inl (by omega)
 · exact Or.inl (by omega)
 · exact Or.inl (by omega)
 · exact Or.inr ⟨by omega,String.le_trans hle hl'⟩

lemma sortRetired_sorted (retired:GoMap String RetiredField) :
 (sortRetired retired).Pairwise retiredBefore := by
 have : Std.Total retiredBefore:=⟨retiredBefore_total⟩
 have : IsTrans RetiredField retiredBefore:=⟨fun _ _ _=>retiredBefore_trans⟩
 exact pairwise_insertionSort retiredBefore _

lemma retired_again (C:Compilation m previous d c v) {v':DatasetCompiler}
 (hrg:Registers m.message d.lastFieldId d.retiredFields (activeEntries d) c')
 (hh:HistoryOk c'.toCompilerHistory) (hrn:Runs c' (fieldsTrace m.files "" d.fields) v') :
 d.retiredFields=sortRetired (retireAbsent v') := by
 rw [←hrn.history] at hh
 have hm:∀r,r∈d.retiredFields ↔ r∈sortRetired (retireAbsent v'):=by
  intro r
  rw [mem_sortRetired]
  simp only [retireAbsent_lookup hh,hrn.history,hrg.retired_iff,hrg.fields_iff]
  constructor
  · intro hr
    exact ⟨r.identity,Or.inl ⟨hr,rfl⟩⟩
  · rintro ⟨i,⟨hr,-⟩|⟨f,hf,hg,-⟩⟩
    · exact hr
    · -- Every entry of the dataset has just been allocated again.
      have ha:v'.currentActive.lookup i=some f.attributes.stableId:=by
       rw [(runs_activates hrn).2.2,allocations_fieldsTrace]
       exact Or.inr (List.mem_map.2 ⟨(i,f),hf,rfl⟩)
      exact absurd (mem_iff_lookup.2 ⟨_,ha⟩) hg
 have hn:=(sortRetired_nodup fun i r h=>retireAbsent_key hh h).of_map
 refine @List.Perm.eq_of_pairwise _ retiredBefore _ _ (fun r s hr hs hle hl' => ?_)
  (C.retired ▸ sortRetired_sorted _) (sortRetired_sorted _)
  ((perm_ext_iff_of_nodup C.retired_nodup.of_map hn).2 hm)
 have hid:r.stableId=s.stableId:=by
  unfold retiredBefore at hle hl'
  omega
 exact inj_on_of_nodup_map C.ids_nodup (mem_records.2 (Or.inl hr))
  (mem_records.2 (Or.inl ((hm s).2 hs))) hid

lemma compilation_again (C:Compilation m previous d c v) (hm:DescriptorValid m)
 (hn:NamesUnique d) : compileMessage m (some d)=.ok d := by
 obtain ⟨c',hc'⟩:=newDatasetCompiler_exists (compiled_previousOk C hm hn)
 have hs:=startCompiler_some.2 hc'
 obtain ⟨hp,hr⟩:=newDatasetCompiler_registers hc'
 obtain ⟨v',hrn,hl⟩:=runs_again C hr
 have hc:v'.currentContainers=v.currentContainers:=by
  rw [runs_containers hrn,runs_containers C.runs,hr.containers,(startCompiler_ledger C.start).2.2.2]
 refine compileMessage_ok.2 ⟨c',v',C.dataset,C.named,C.closed,hs,
  tree_again C hm hn hr,hrn,C.collisions,?_,C.sourceMessage,C.name,C.description,
  hl.symm,retired_again C hr (historyOk_registers hp hr) hrn⟩
 rw [hc]
 exact C.reservations
end

/-- Recompiling an output of the compiler returns it unchanged exactly if no retired record of
  the state it was compiled from owned the name of a collection child it declares. -/
theorem recompilation_fixpoint {m:Descriptor} {previous:Option DatasetSchema} {d:DatasetSchema}
  (hm:DescriptorValid m) (h:compileMessage m previous=.ok d) :
  compileMessage m (some d)=.ok d ↔ ∀p,previous=some p → ¬SyntheticClash m p := by
 rw [← namesUnique_iff h]
 constructor
 · intro ha
   obtain ⟨c',v',C'⟩:=compileMessage_ok.1 ha
   intro r hr s hs hsc hnm
   rw [Accepted.eq_of_name (previous_registers C').1.accepted hr hs hsc hnm]
 · intro hn
   obtain ⟨c,v,C⟩:=compileMessage_ok.1 h
   exact compilation_again C hm hn

theorem order_fixpoint : compileMessage trimmedOrder (some trimmedDataset)=.ok trimmedDataset ∧
  ¬SyntheticClash trimmedOrder orderDataset := by
 have hn:∀p,some orderDataset=some p → ¬SyntheticClash trimmedOrder p := by
  rintro p hp ⟨r,hr,-⟩
  rw [← Option.some.inj hp,show orderDataset.retiredFields=[] by decide +kernel] at hr
  simp at hr
 exact ⟨(recompilation_fixpoint (by decide) trimmedDataset_eq).2 hn,hn _ rfl⟩

/-- An accepted state whose only record is a retired field of a message that the items no
  longer stand in; its storage name is that of a list element. -/
def orphanDataset : DatasetSchema where
 sourceMessage := "shop.Order"
 name := "shop_order"
 description := ""
 fields:=[]
 lastFieldId:=7
 retiredFields :=
  [{ identity := "field:1/field:5"
     stableId:=7
     protoFullName := "shop.Box.element"
     name := "element"
     storageNameSource := "element" }]

@[irreducible] def clashDataset : DatasetSchema :=
 value (compileMessage order (some orphanDataset)) (by decide +kernel)

lemma clashDataset_eq : compileMessage order (some orphanDataset)=.ok clashDataset := by
 rw [clashDataset]
 exact eq_ok_value _ _

theorem orphan_recompilation_rejected :
  DescriptorValid order ∧ (∃c,newDatasetCompiler order.message (some orphanDataset)=.ok c) ∧
   compileMessage order (some orphanDataset)=.ok clashDataset ∧
   succeeds (compileMessage order (some clashDataset))=false := by
 refine ⟨by decide,?_,clashDataset_eq,by decide +kernel⟩
 rw [← succeeds_iff]
 decide
end InvariantProtocol.DataFixpoint
