import InvariantProtocol.AllocationLedger
import InvariantProtocol.Occurrences
namespace InvariantProtocol.CompileOutcome
open List GoResult DataSchema DataIdentity DataNames DataEntries ProtoDescriptor CompilerState
open DataCompiler CompilerTrace CompiledTree CompilerWalk PreviousIndex AllocationLedger Occurrences

structure Compilation (m:Descriptor) (previous:Option DatasetSchema) (d:DatasetSchema)
  (c v:DatasetCompiler) : Prop where
 dataset : m.message.isMapEntry=false
 named : storageName m.message.fullName≠""
 closed : rejectExtensionRanges m.message=.ok ()
 start : startCompiler m.message previous=.ok c
 tree : CompiledFields m.files c.toCompilerHistory d.fields (recursionBudget m.files)
  [m.message.fullName] (protoSlots m.message) [] ""
 runs : Runs c (fieldsTrace m.files "" d.fields) v
 collisions : validateStorageNameCollisions m.message.fullName d.fields=.ok ()
 reservations : ∀r∈d.retiredFields,validateRetiredReservation v.currentContainers r=.ok ()
 sourceMessage : d.sourceMessage=m.message.fullName
 name : d.name=storageName m.message.fullName
 description : d.description=descriptorComment m.message.comments
 last : d.lastFieldId=v.lastID
 retired : d.retiredFields=sortRetired (retireAbsent v)

lemma loop_unit {α:Type} (check:α → Result Unit) (xs:List α) :
 loop (fun _=>check) () xs=.ok () ↔ ∀x∈xs,check x=.ok () := by
 induction xs with
 | nil=>simp
 | cons x xs ih=>simp only [loop_cons,exists_unit_ok,ih,forall_mem_cons]

lemma compileMessage_ok {m:Descriptor} {previous:Option DatasetSchema} {d:DatasetSchema} :
 compileMessage m previous=.ok d ↔ ∃c v,Compilation m previous d c v := by
 have hw:=fields_ok (valueSpec m.files (recursionBudget m.files))
 unfold compileMessage
 constructor
 · intro h
   simp only at h
   split_ifs at h with hen hn
   simp only [wrap_ok,bind_ok,exists_unit_ok,Prod.exists,pure_ok,loop_unit,hw] at h
   obtain ⟨hcs,c,hc,fields,v,⟨ht,hrn⟩,hcl,hr,rfl⟩:=h
   exact ⟨c,v,by simpa using hen,hn,hcs,hc,ht,hrn,hcl,hr,rfl,
    rfl,rfl,rfl,rfl⟩
 · rintro ⟨c,v,h⟩
   obtain ⟨source,name,description,fields,last,retired⟩:=d
   obtain ⟨hen,hn,hcs,hc,ht,hrn,hcl,hr,rfl,rfl,rfl,rfl,rfl⟩:=h
   simp only [hen,Bool.false_eq_true,if_false,hn,wrap_ok,bind_ok,exists_unit_ok,
    Prod.exists,pure_ok,loop_unit,hw]
   exact ⟨hcs,c,hc,fields,v,⟨ht,hrn⟩,hcl,hr,rfl⟩

lemma retire_lookup (active:GoMap String ℤ) (record:String → RetiredField) (keys:List String)
 (retired:GoMap String RetiredField) (i:String) : (keys.foldl (fun retired identity=>
  if identity∈active then retired else retired.insert identity (record identity)) retired).lookup i =
 if i∈keys ∧ i∉active then some (record i) else retired.lookup i := by
 induction keys generalizing retired with
 | nil=>simp
 | cons key keys ih=>
  rw [foldl_cons,ih]
  by_cases hk : key=i
  · subst hk
    by_cases ha : key∈active <;> simp [ha,AList.lookup_insert]
  · have hne:i≠key:=fun h=>hk h.symm
    simp only [mem_cons,hne,false_or]
    congr 1
    split_ifs
    · rfl
    · rw [AList.lookup_insert_ne hne]

variable {r:RetiredField} {v:DatasetCompiler} {retired:GoMap String RetiredField}
lemma retireAbsent_lookup (h:HistoryOk v.toCompilerHistory) {i:String} :
 (retireAbsent v).lookup i=some r ↔ v.retired.lookup i=some r ∨
  ∃f,v.previousFields.lookup i=some f ∧ i∉v.currentActive ∧ r=recordOf i f := by
 have hp:i∈v.previousActive.keys ↔ ∃f,v.previousFields.lookup i=some f:=by
  rw [←AList.mem_keys,mem_iff_lookup]
  simp only [h.previous_eq,Option.map_eq_some_iff]
  exact ⟨fun ⟨_,f,hf,_⟩=>⟨f,hf⟩,fun ⟨f,hf⟩=>⟨_,f,hf,rfl⟩⟩
 rw [retireAbsent,retire_lookup]
 split_ifs with hc
 · obtain ⟨hk,ha⟩:=hc
   have hfr:=AList.lookup_eq_none.2 (h.disjoint i (AList.mem_keys.2 hk))
   obtain ⟨f,hf⟩:=hp.1 hk
   have hrc:retiredRecord v.toCompilerHistory i=recordOf i f:=by
    simp [retiredRecord,hf,recordOf]
   rw [hrc,hfr,Option.some.injEq]
   simp only [reduceCtorEq,false_or]
   constructor
   · rintro rfl
     exact ⟨f,hf,ha,rfl⟩
   · rintro ⟨g,hg,-,rfl⟩
     rw [Option.some.inj (hf.symm.trans hg)]
 · refine ⟨Or.inl,?_⟩
   rintro (hr|⟨f,hf,ha,-⟩)
   · exact hr
   · exact absurd ⟨hp.2 ⟨f,hf⟩,ha⟩ hc

lemma mem_sortRetired : r∈sortRetired retired ↔ ∃i,retired.lookup i=some r := by
 rw [sortRetired,mem_insertionSort,mem_map]
 constructor
 · rintro ⟨⟨i,s⟩,hm,rfl⟩
   exact ⟨i,AList.mem_lookup_iff.2 hm⟩
 · rintro ⟨i,hi⟩
   exact ⟨⟨i,r⟩,AList.mem_lookup_iff.1 hi,rfl⟩

lemma retireAbsent_key (h:HistoryOk v.toCompilerHistory) {i:String}
 (hr:(retireAbsent v).lookup i=some r) : r.identity=i := by
 obtain hr|⟨f,-,-,rfl⟩:=(retireAbsent_lookup h).1 hr
 · exact h.retired_key i r hr
 · rfl

lemma sortRetired_nodup (hk:∀i r,retired.lookup i=some r → r.identity=i) :
 ((sortRetired retired).map fun r=>r.identity).Nodup := by
 have hen:∀s∈retired.entries,s.2.identity=s.1:=fun ⟨i,r⟩ hs=>
  hk i r (AList.mem_lookup_iff.2 hs)
 have hp:=(perm_insertionSort retiredBefore (retired.entries.map Sigma.snd)).map
  fun r=>r.identity
 rw [sortRetired,hp.nodup_iff,map_map]
 rw [show retired.entries.map ((fun r=>r.identity) ∘ Sigma.snd)=retired.keys from
  map_congr_left hen]
 exact retired.keys_nodup

variable {m:Descriptor} {previous:Option DatasetSchema} {d:DatasetSchema}
 {c v:DatasetCompiler}
lemma Compilation.ledger (C:Compilation m previous d c v) : Ledger v :=
 (startCompiler_ledger C.start).1.run C.runs

lemma Compilation.historyOk (C:Compilation m previous d c v) : HistoryOk v.toCompilerHistory := by
 rw [C.runs.history]
 exact (startCompiler_ledger C.start).2.1

lemma activeEntries_fst (d:DatasetSchema) (files:Files) :
 (allocations (fieldsTrace files "" d.fields)).map Prod.fst=(activeEntries d).map Prod.fst := by
 rw [allocations_fieldsTrace,map_map]
 rfl

lemma Compilation.active_nodup (C:Compilation m previous d c v) :
 ((activeEntries d).map Prod.fst).Nodup := by
 rw [←activeEntries_fst d m.files]
 exact (runs_activates C.runs).1

variable {i:String} {r:RetiredField} {id:ℤ}
section
variable (C:Compilation m previous d c v)
include C
lemma Compilation.active_iff : v.currentActive.lookup i=some id ↔
  ∃f,(i,f)∈activeEntries d ∧ f.attributes.stableId=id := by
 rw [(runs_activates C.runs).2.2,(startCompiler_ledger C.start).2.2.1,allocations_fieldsTrace,mem_map]
 simp only [AList.lookup_empty,reduceCtorEq,false_or,entryAllocation,Prod.mk.injEq]
 constructor
 · rintro ⟨⟨i,f⟩,hf,rfl,rfl⟩
   exact ⟨f,hf,rfl⟩
 · rintro ⟨f,hf,rfl⟩
   exact ⟨(i,f),hf,rfl,rfl⟩

lemma Compilation.mem_active :
 i∈v.currentActive ↔ ∃f,(i,f)∈activeEntries d := by
 rw [mem_iff_lookup]
 simp only [C.active_iff]
 exact ⟨fun ⟨_,f,hf,_⟩=>⟨f,hf⟩,fun ⟨f,hf⟩=>⟨_,f,hf,rfl⟩⟩

lemma Compilation.mem_retired :
 r∈d.retiredFields ↔ (retireAbsent v).lookup r.identity=some r := by
 rw [C.retired,mem_sortRetired]
 refine ⟨fun ⟨i,hi⟩=>?_,fun h=>⟨_,h⟩⟩
 rwa [retireAbsent_key C.historyOk hi]
end

lemma Compilation.first_retired (C:Compilation m none d c v) : d.retiredFields=[] := by
 have hf:=startCompiler_none C.start
 refine eq_nil_iff_forall_not_mem.2 fun r hr=>?_
 rw [C.mem_retired,retireAbsent_lookup C.historyOk,C.runs.history] at hr
 simp [hf.retired,hf.previousFields] at hr

section
variable (C:Compilation m previous d c v)
include C
lemma Compilation.retired_nodup :
 (d.retiredFields.map fun r=>r.identity).Nodup := by
 rw [C.retired]
 exact sortRetired_nodup fun i r h=>retireAbsent_key C.historyOk h

lemma Compilation.disjoint {f:Field} (hf:(i,f)∈activeEntries d)
 (hr:r∈d.retiredFields) : r.identity≠i := by
 rintro rfl
 have ha:=C.mem_active.2 ⟨f,hf⟩
 obtain hr|⟨-,-,hg,-⟩:=(retireAbsent_lookup C.historyOk).1 (C.mem_retired.1 hr)
 · exact C.ledger.live _ ha (mem_iff_lookup.2 ⟨r,hr⟩)
 · exact hg ha

lemma Compilation.identities_nodup :
 ((records d).map fun r=>r.identity).Nodup := by
 rw [records,map_append,nodup_append]
 refine ⟨C.retired_nodup,?_,?_⟩
 · rw [activeRecords,map_map]
   exact C.active_nodup
 · rintro _ hi _ hj
   obtain ⟨r,hr,rfl⟩:=mem_map.1 hi
   obtain ⟨s,hs,rfl⟩:=mem_map.1 hj
   obtain ⟨f,hf,-⟩:=mem_activeRecords.1 hs
   exact C.disjoint hf hr

lemma Compilation.owner (hr:r∈records d) :
 v.reservedIDs.lookup r.stableId=some r.identity := by
 rw [C.ledger.owner_iff]
 obtain hr|hr:=mem_records.1 hr
 · obtain hr|⟨f,hf,-,hrc⟩:=(retireAbsent_lookup C.historyOk).1 (C.mem_retired.1 hr)
   · exact Or.inr (Or.inr (Or.inl ⟨r,hr,rfl⟩))
   · refine Or.inr (Or.inl ?_)
     rw [C.historyOk.previous_eq,hf,hrc]
     rfl
 · obtain ⟨f,hf,hrc⟩:=mem_activeRecords.1 hr
   exact Or.inl (C.active_iff.2 ⟨f,hf,by rw [hrc];rfl⟩)

lemma Compilation.ids_nodup : (stableIDs d).Nodup := by
 -- Two records with one ID have one owner, hence one identity.
 refine (nodup_map_iff_inj_on C.identities_nodup.of_map).2 fun r hr s hs hid=>?_
 have ho:=C.owner hr
 rw [hid,C.owner hs,Option.some.injEq] at ho
 exact inj_on_of_nodup_map C.identities_nodup hr hs ho.symm

lemma Compilation.active_record
 (h:v.currentActive.lookup i=some id) : ∃r∈records d,r.identity=i ∧ r.stableId=id := by
 obtain ⟨f,hf,rfl⟩:=C.active_iff.1 h
 exact ⟨recordOf i f,mem_records.2 (Or.inr (mem_activeRecords.2 ⟨f,hf,rfl⟩)),rfl,rfl⟩

lemma Compilation.retired_record
 (h:(retireAbsent v).lookup i=some r) : r∈records d ∧ r.identity=i := by
 have hk:=retireAbsent_key C.historyOk h
 exact ⟨mem_records.2 (Or.inl (C.mem_retired.2 (hk ▸ h))),hk⟩

lemma Compilation.top_active {fd:FieldDescriptor}
 (hfd:fd∈m.message.fields) : fieldIdentitySegment fd.number∈v.currentActive := by
 obtain ⟨a,t,hen,-⟩:=(Occurs.top hfd).entry C.tree
 rw [appendIdentity_root] at hen
 exact C.mem_active.2 ⟨_,hen⟩

lemma Compilation.recorded (h:id∈v.reservedIDs) :
 ∃r∈records d,r.stableId=id := by
 obtain ⟨i,hi⟩:=mem_iff_lookup.1 h
 have has:Assigned v.toCompilerHistory i id → i∈v.currentActive →
   ∃r∈records d,r.stableId=id:=by
  intro hid ha
  obtain ⟨id',hi'⟩:=mem_iff_lookup.1 ha
  obtain ⟨r,hr,-,hrd⟩:=C.active_record hi'
  exact ⟨r,hr,hrd.trans (C.ledger.unchanged i id' hi' id hid)⟩
 obtain hc|hp|⟨r,hr,rfl⟩|hfr:=(C.ledger.owner_iff id i).1 hi
 · obtain ⟨r,hr,-,hrd⟩:=C.active_record hc
   exact ⟨r,hr,hrd⟩
 · by_cases ha : i∈v.currentActive
   · exact has (Or.inl hp) ha
   · rw [C.historyOk.previous_eq,Option.map_eq_some_iff] at hp
     obtain ⟨f,hf,rfl⟩:=hp
     have hg:=(retireAbsent_lookup C.historyOk).2 (Or.inr ⟨f,hf,ha,rfl⟩)
     exact ⟨_,(C.retired_record hg).1,rfl⟩
 · exact ⟨r,(C.retired_record ((retireAbsent_lookup C.historyOk).2 (Or.inl hr))).1,rfl⟩
 · -- Top-level numbers are reserved on a first compilation only, where they all become active.
   cases previous with
   | none=>
    have hs:=startCompiler_none C.start
    rw [C.runs.history] at hfr
    obtain ⟨-,fd,hfd,-,rfl⟩:=hs.numbers i id hfr
    refine has (Or.inr ⟨?_,?_⟩) (C.top_active hfd)
    · simp [C.runs.history,hs.previousActive]
    · rw [C.runs.history]
      exact hfr
   | some p=>
    have hrg:=(newDatasetCompiler_registers (startCompiler_some.1 C.start)).2
    rw [C.runs.history,hrg.first] at hfr
    simp at hfr
end

structure DatasetOk (d:DatasetSchema) : Prop where
 identities : ((records d).map fun r=>r.identity).Nodup
 ids : (stableIDs d).Nodup
 range : ∀r∈records d,1≤r.stableId ∧ r.stableId ≤ maxStableID
 last_range : 0≤d.lastFieldId ∧ d.lastFieldId ≤ maxStableID
 last : d.lastFieldId=highestID (stableIDs d)

lemma Compilation.datasetOk (C:Compilation m previous d c v) : DatasetOk d := by
 have hb:∀r∈records d,1≤r.stableId ∧ r.stableId≤v.lastID:=fun r hr=>
  C.ledger.bounded _ (mem_iff_lookup.2 ⟨_,C.owner hr⟩)
 have hrn:=C.ledger.last_range
 refine ⟨C.identities_nodup,C.ids_nodup,fun r hr=>?_,by rwa [C.last],?_⟩
 · have:=hb r hr
   omega
 · rw [C.last]
   apply le_antisymm
   · have hle:=highestID_le_iff.1 (le_refl (highestID (stableIDs d)))
     obtain hz|hrs:=C.ledger.attained
     · exact hz ▸ hle.1
     · obtain ⟨r,hr,hid⟩:=C.recorded hrs
       exact hle.2 _ (mem_map.2 ⟨r,hr,hid⟩)
   · refine highestID_le_iff.2 ⟨hrn.1,fun id hid=>?_⟩
     obtain ⟨r,hr,rfl⟩:=mem_map.1 hid
     exact (hb r hr).2
end InvariantProtocol.CompileOutcome
