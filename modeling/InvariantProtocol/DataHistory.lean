import InvariantProtocol.CompileOutcome
import InvariantProtocol.Lineage
namespace InvariantProtocol.DataHistory
open List GoResult DataSchema DataEntries ProtoDescriptor CompilerState DataCompiler
open CompilerTrace PreviousIndex AllocationLedger Occurrences CompileOutcome Lineage

def CompilationRun (previous:Option DatasetSchema) (steps:List (Descriptor×DatasetSchema)) :
  Prop :=
 Run (fun m previous d=>compileMessage m previous=.ok d) previous steps

/-- What a dataset owes to the one it was compiled from. -/
structure Successor (p d:DatasetSchema) : Prop where
 kept : ∀r∈records p,∃s∈records d,s.identity=r.identity ∧ s.stableId=r.stableId
 retired : ∀r∈p.retiredFields,r∈d.retiredFields
 last : p.lastFieldId≤d.lastFieldId

lemma Successor.trans {p d e:DatasetSchema} (h:Successor p d) (h':Successor d e) : Successor p e := by
 refine ⟨fun r hr=>?_,fun r hr=>h'.retired r (h.retired r hr),h.last.trans h'.last⟩
 obtain ⟨s,hs,hi,hid⟩:=h.kept r hr
 obtain ⟨t,ht,hi',hd'⟩:=h'.kept s hs
 exact ⟨t,ht,hi'.trans hi,hd'.trans hid⟩

section
variable {m:Descriptor} {p d:DatasetSchema} {c v:DatasetCompiler}
lemma previous_registers (C:Compilation m (some p) d c v) : PreviousOk m.message p ∧
 Registers m.message p.lastFieldId p.retiredFields (activeEntries p) c :=
 newDatasetCompiler_registers (startCompiler_some.1 C.start)

lemma keeps_retired (C:Compilation m (some p) d c v) {r:RetiredField} (hr:r∈p.retiredFields) :
 r∈d.retiredFields := by
 rw [C.mem_retired,retireAbsent_lookup C.historyOk,C.runs.history]
 exact Or.inl (((previous_registers C).2.retired_iff _ _).2 ⟨hr,rfl⟩)

variable {i:String}
section
variable (C:Compilation m (some p) d c v)
include C
lemma retires_absent {f:Field} (hf:(i,f)∈activeEntries p)
 (hg:i∉v.currentActive) : recordOf i f∈d.retiredFields := by
 rw [C.mem_retired,retireAbsent_lookup C.historyOk,C.runs.history]
 exact Or.inr ⟨f,((previous_registers C).2.fields_iff _ _).2 hf,hg,rfl⟩

lemma keeps_id {f g:Field} (hf:(i,f)∈activeEntries p)
 (hg:(i,g)∈activeEntries d) : g.attributes.stableId=f.attributes.stableId := by
 have hr:=(previous_registers C).2
 have hp:c.previousActive.lookup i=some f.attributes.stableId:=by
  rw [hr.active_eq,(hr.fields_iff _ _).2 hf]
  rfl
 rw [←C.runs.history] at hp
 exact C.ledger.unchanged i _ (C.active_iff.2 ⟨g,hg,rfl⟩) _ (Or.inl hp)

lemma last_le : p.lastFieldId≤d.lastFieldId := by
 rw [C.last,←(previous_registers C).2.last_eq]
 refine C.runs.invariant (P := fun u=>c.lastID≤u.lastID) (fun u i id w h hw=>?_)
  (fun _ _ _ h=>h) (le_refl _)
 obtain ⟨-,-,⟨-,rfl⟩|⟨-,-,-,rfl,-,rfl⟩⟩:=CompilerTrace.allocate_ok.1 hw
 · exact h
 · simp only
   omega

lemma compilation_successor : Successor p d := by
 refine ⟨fun r hr=>?_,fun r hr=>keeps_retired C hr,last_le C⟩
 obtain hr|hr:=mem_records.1 hr
 · exact ⟨r,mem_records.2 (Or.inl (keeps_retired C hr)),rfl,rfl⟩
 · obtain ⟨f,hf,hrc⟩:=mem_activeRecords.1 hr
   by_cases ha : r.identity∈v.currentActive
   · obtain ⟨g,hg⟩:=C.mem_active.1 ha
     refine ⟨recordOf r.identity g,
      mem_records.2 (Or.inr (mem_activeRecords.2 ⟨g,hg,rfl⟩)),rfl,?_⟩
     rw [hrc]
     exact keeps_id C hf hg
   · refine ⟨r,mem_records.2 (Or.inl ?_),rfl,rfl⟩
     rw [hrc]
     exact retires_absent C hf ha
end

lemma declares_iff {previous:Option DatasetSchema} (C:Compilation m previous d c v) :
 Declares m i ↔ ∃f,(i,f)∈activeEntries d := by
 constructor
 · rintro ⟨slot,path,parent,ho,rfl⟩
   obtain ⟨a,t,hen,-⟩:=ho.entry C.tree
   exact ⟨_,hen⟩
 · rintro ⟨f,hf⟩
   obtain ⟨slot,path,parent,-,-,ho,hi,-⟩:=compiledFields_entries C.tree hf
   exact ⟨slot,path,parent,ho,hi⟩
end

variable {previous:Option DatasetSchema} {steps:List (Descriptor×DatasetSchema)}
lemma CompilationRun.datasetOk (run:CompilationRun previous steps) : ∀d∈results steps,DatasetOk d :=
 run.forall_results fun _ _ _ h=>by
  obtain ⟨c,v,C⟩:=compileMessage_ok.1 h
  exact C.datasetOk

lemma CompilationRun.successors (run:CompilationRun previous steps) : (results steps).Pairwise Successor :=
 (Run.pairwise (R := Successor) (fun _ _ _=>Successor.trans) (fun _ _ _ h=>by
  obtain ⟨c,v,C⟩:=compileMessage_ok.1 h
  exact compilation_successor C) run).1

variable {d:DatasetSchema} {r:RetiredField} {s:RetiredField}
lemma DatasetOk.identity_iff_id (h:DatasetOk d) (hr:r∈records d) (hs:s∈records d) :
 r.identity=s.identity ↔ r.stableId=s.stableId :=
 ⟨fun heq=>by rw [inj_on_of_nodup_map h.identities hr hs heq],
  fun heq=>by rw [inj_on_of_nodup_map h.ids hr hs heq]⟩

lemma DatasetOk.not_active (h:DatasetOk d) (hr:r∈d.retiredFields) (f:Field) :
 (r.identity,f)∉activeEntries d := by
 intro hf
 have hn:=h.identities
 rw [records,map_append,nodup_append] at hn
 exact hn.2.2 _ (mem_map_of_mem hr) _ (mem_map_of_mem
  (mem_activeRecords.2 ⟨f,hf,rfl⟩ : recordOf r.identity f∈_)) rfl

lemma Successor.identity_iff_id {e:DatasetSchema} (h:Successor d e) (he:DatasetOk e)
 (hr:r∈records d) (hs:s∈records e) : r.identity=s.identity ↔ r.stableId=s.stableId := by
 obtain ⟨t,ht,hi,hid⟩:=h.kept r hr
 rw [←hi,←hid]
 exact DatasetOk.identity_iff_id he ht hs

lemma highestID_eq_foldr (ids:List ℤ) : highestID ids=ids.foldr max 0 := by
 refine eq_of_forall_ge_iff fun k=>?_
 rw [highestID_le_iff]
 induction ids with
 | nil=>simp
 | cons id ids ih=>rw [forall_mem_cons,foldr_cons,Int.max_le,←ih,and_left_comm]

/-- Over a whole run, IDs are in range and distinct, an identity and its ID determine each
  other, and `last_field_id` is the highest ID and never decreases. -/
theorem stableIDs_permanent (run:CompilationRun previous steps) : (∀d∈results steps,(stableIDs d).Nodup ∧
   (∀id∈stableIDs d,1 ≤ id ∧ id≤2147483447) ∧
   d.lastFieldId=(stableIDs d).foldr max 0) ∧
  (∀d∈results steps,∀e∈results steps,∀r∈records d,∀s∈records e,
   r.identity=s.identity ↔ r.stableId=s.stableId) ∧
  ((results steps).map fun d=>d.lastFieldId).Pairwise (· ≤ ·) := by
 have hok:=CompilationRun.datasetOk run
 have hsc:=CompilationRun.successors run
 refine ⟨fun d hd=>⟨(hok d hd).ids,?_,?_⟩,?_,?_⟩
 · intro id hid
   obtain ⟨r,hr,rfl⟩:=mem_map.1 hid
   exact (hok d hd).range r hr
 · rw [(hok d hd).last,highestID_eq_foldr]
 · have hf:(results steps).Pairwise fun d e=>∀r∈records d,∀s∈records e,
     (r.identity=s.identity ↔ r.stableId=s.stableId) :=
    hsc.imp_of_mem fun _ he h r hr s hs=>Successor.identity_iff_id h (hok _ he) hr hs
   refine List.Pairwise.forall_of_forall_of_flip (fun d hd r hr s hs=>?_) hf
    (hf.imp fun h r hr s hs=>?_)
   · exact DatasetOk.identity_iff_id (hok d hd) hr hs
   · rw [eq_comm,h s hs r hr,eq_comm]
 · exact pairwise_map.2 (hsc.imp fun h=>h.last)

def orderItem : MessageDescriptor where
 fullName := "shop.Item"
 fields:=[{ name := "sku",number:=1,kind:=.string,jsonName := "sku" }]

def orderItems : FieldDescriptor where
 name := "items"
 number:=1
 kind:=.message "shop.Item"
 cardinality:=.repeated
 jsonName := "items"

def order : Descriptor where
 files:=⟨[orderItem]⟩
 message :=
  { fullName := "shop.Order"
    fields:=[orderItems,{ name := "note",number:=2,kind:=.string,jsonName := "note" }] }

def trimmedOrder : Descriptor where
 files:=⟨[orderItem]⟩
 message :=
  { fullName := "shop.Order"
    fields:=[orderItems]
    reservedNames:=["note"]
    reservedRanges:=[(2,3)] }

@[irreducible] def orderDataset : DatasetSchema:=value (compileMessage order none) (by decide +kernel)

@[irreducible] def trimmedDataset : DatasetSchema :=
 value (compileMessage trimmedOrder (some orderDataset)) (by decide +kernel)

lemma orderDataset_eq : compileMessage order none=.ok orderDataset := by
 rw [orderDataset]
 exact eq_ok_value _ _

lemma trimmedDataset_eq : compileMessage trimmedOrder (some orderDataset)=.ok trimmedDataset := by
 rw [trimmedDataset]
 exact eq_ok_value _ _

lemma order_run : CompilationRun none [(order,orderDataset),(trimmedOrder,trimmedDataset)] :=
 .cons orderDataset_eq (.cons trimmedDataset_eq (.nil _))

theorem order_stableIDs :
  (stableIDs trimmedDataset).Nodup ∧ orderDataset.lastFieldId≤trimmedDataset.lastFieldId ∧
   ∀r∈records orderDataset,∀s∈records trimmedDataset,
    r.identity=s.identity ↔ r.stableId=s.stableId := by
 obtain ⟨hi,ha,hl⟩:=stableIDs_permanent order_run
 refine ⟨(hi trimmedDataset (by simp [results])).1,?_,
  ha _ (by simp [results]) _ (by simp [results])⟩
 simpa [results] using hl

/-- Compiling from an accepted dataset neither loses an identity nor makes one ambiguous; over
  a run no retired identity becomes active; a descriptor that declares one is rejected. -/
theorem identities_never_lost_or_revived :
  (∀m p d,compileMessage m (some p)=.ok d →
   (∀r∈records p,∃s∈records d,s.identity=r.identity) ∧
   (((activeEntries d).map Prod.fst).Nodup ∧ (d.retiredFields.map fun r=>r.identity).Nodup ∧
    ∀r∈d.retiredFields,∀f,(r.identity,f)∉activeEntries d) ∧
   (∀r∈p.retiredFields,r∈d.retiredFields) ∧
   ∀i f,(i,f)∈activeEntries p → ¬Declares m i →
    { identity:=i
      stableId:=f.attributes.stableId
      protoFullName:=f.attributes.protoFullName
      name:=f.attributes.name
      storageNameSource:=f.attributes.storageNameSource }∈d.retiredFields) ∧
  (∀previous steps,CompilationRun previous steps →
   (results steps).Pairwise fun d e=>
    ∀r∈d.retiredFields,∀f,(r.identity,f)∉activeEntries e) ∧
  (∀m p r,r∈p.retiredFields → Declares m r.identity →
   ∃e,compileMessage m (some p)=.error e) := by
 refine ⟨fun m p d h=>?_,fun previous steps run=>?_,fun m p r hr hd=>?_⟩
 · obtain ⟨c,v,C⟩:=compileMessage_ok.1 h
   have hsc:=compilation_successor C
   refine ⟨fun r hr=>?_,⟨C.active_nodup,C.retired_nodup,
    fun r hr=>DatasetOk.not_active C.datasetOk hr⟩,hsc.retired,fun i f hf hg=>?_⟩
   · obtain ⟨s,hs,hi,-⟩:=hsc.kept r hr
     exact ⟨s,hs,hi⟩
   · exact retires_absent C hf fun ha=>hg ((declares_iff C).2 (C.mem_active.1 ha))
 · have hok:=CompilationRun.datasetOk run
   exact (CompilationRun.successors run).imp_of_mem fun _ he h r hr=>
    DatasetOk.not_active (hok _ he) (h.retired r hr)
 · cases h : compileMessage m (some p) with
   | error e=>exact ⟨e,rfl⟩
   | ok d=>
    obtain ⟨c,v,C⟩:=compileMessage_ok.1 h
    obtain ⟨f,hf⟩:=(declares_iff C).1 hd
    exact absurd hf (DatasetOk.not_active C.datasetOk (keeps_retired C hr) f)

theorem order_note_retired :
  { identity := "field:2",stableId:=2,protoFullName := "shop.Order.note",name := "note",
    storageNameSource := "note" }∈trimmedDataset.retiredFields ∧
  ((activeEntries trimmedDataset).map Prod.fst).Nodup ∧
  [orderDataset,trimmedDataset].Pairwise (fun d e=>
   ∀r∈d.retiredFields,∀f,(r.identity,f)∉activeEntries e) ∧
  ∃e,compileMessage order (some trimmedDataset)=.error e := by
 obtain ⟨hs,hrn,hrj⟩:=identities_never_lost_or_revived
 have hr:RetiredField.mk "field:2" 2 "shop.Order.note" "note" "note" ∈
   trimmedDataset.retiredFields := by decide +kernel
 have hd:Declares order "field:2" :=
  ⟨_,_,_,.top (mem_cons_of_mem _ mem_cons_self),by decide⟩
 exact ⟨hr,(hs _ _ _ trimmedDataset_eq).2.1.1,hrn _ _ order_run,
  hrj order trimmedDataset _ hr hd⟩

/-- The `n` IDs after `last`. -/
def nextIDs (last:ℤ) : ℕ → List ℤ
 | 0=>[]
 | n+1=>(last+1)::nextIDs (last+1) n

/-- The identities that `p` did not have, in the order of the walk. -/
def newEntries (p d:DatasetSchema) : List (String×Field) :=
 (activeEntries d).filter fun entry=>entry.1∉(activeEntries p).map Prod.fst

lemma runs_numbers {c v:DatasetCompiler} {events:List Event}
 (run:Runs c events v) (hf:c.firstTopLevelIDs=∅) :
 ∀new,new=(allocations events).filter (fun a=>(c.previousActive.lookup a.1).isNone) →
  new.map Prod.snd=nextIDs c.lastID new.length ∧ v.lastID=c.lastID+new.length := by
 induction run with
 | refl _=>
  rintro _ rfl
  simp [allocations,nextIDs]
 | @allocate c u v identity id events hs _ ih=>
  rintro _ rfl
  have hcn:allocations (.allocate identity id::events) =
    (identity,id)::allocations events:=rfl
  rw [hcn]
  obtain ⟨-,-,⟨hp|⟨-,hp⟩,rfl⟩|⟨hp,-,-,rfl,-,rfl⟩⟩:=allocate_ok.1 hs
  · rw [filter_cons_of_neg (by simp [hp])]
    exact ih hf _ rfl
  · simp [hf] at hp
  · rw [filter_cons_of_pos (by simp [hp])]
    obtain ⟨hn,hl⟩:=ih hf _ rfl
    refine ⟨by rw [map_cons,hn,length_cons,nextIDs],?_⟩
    rw [hl,length_cons]
    simp only
    omega
 | enter _ ih=>exact ih hf

/-- New identities are numbered one after the other from the last ID on, and no number is skipped. -/
theorem new_ids_consecutive {m:Descriptor} {p d:DatasetSchema} (h:compileMessage m (some p)=.ok d) :
 (newEntries p d).map (fun entry=>entry.2.attributes.stableId) =
  nextIDs p.lastFieldId (newEntries p d).length ∧
 d.lastFieldId=p.lastFieldId+(newEntries p d).length := by
 obtain ⟨c,v,C⟩:=compileMessage_ok.1 h
 have hr:=(previous_registers C).2
 have hn:=runs_numbers C.runs hr.first _ rfl
 have hq:∀entry:String×Field,(c.previousActive.lookup entry.1).isNone =
   decide (entry.1∉(activeEntries p).map Prod.fst):=by
  intro entry
  rw [Bool.eq_iff_iff,Option.isNone_iff_eq_none,AList.lookup_eq_none,decide_eq_true_iff,hr.mem_active]
  simp
 rw [allocations_fieldsTrace,← activeEntries,filter_map,length_map,map_map,
  hr.last_eq,← C.last] at hn
 simpa [newEntries,Function.comp_def,entryAllocation,hq] using hn

theorem grown_order_numbered : ∃p d,compileMessage trimmedOrder none=.ok p ∧
 compileMessage order (some p)=.ok d ∧ d.lastFieldId=p.lastFieldId+(newEntries p d).length := by
 obtain ⟨d,h⟩:=(succeeds_iff (do compileMessage order (some (← compileMessage trimmedOrder none)))).1
  (by decide +kernel)
 obtain ⟨p,hp,hd⟩:=(bind_ok _ _ _).1 h
 exact ⟨p,d,hp,hd,(new_ids_consecutive hd).2⟩
end InvariantProtocol.DataHistory
