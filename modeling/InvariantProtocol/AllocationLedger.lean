import InvariantProtocol.CompilerWalk
import InvariantProtocol.PreviousIndex
namespace InvariantProtocol.AllocationLedger
open GoResult DataSchema DataIdentity DataEntries ProtoDescriptor CompilerState DataCompiler
open CompilerTrace PreviousIndex

structure HistoryOk (h:CompilerHistory) : Prop where
 retired_key : ∀i r,h.retired.lookup i=some r → r.identity=i
 disjoint : ∀i,i∈h.previousActive → i∉h.retired
 previous_eq : ∀i,h.previousActive.lookup i =
  (h.previousFields.lookup i).map fun f=>f.attributes.stableId

/-- `id` belongs to `identity`, for one of the four reasons a compilation can have. -/
def Owns (c:DatasetCompiler) (identity:String) (id:ℤ) : Prop :=
 c.currentActive.lookup identity=some id ∨ c.previousActive.lookup identity=some id ∨
  (∃r,c.retired.lookup identity=some r ∧ r.stableId=id) ∨
  c.firstTopLevelIDs.lookup identity=some id

/-- The ID an identity must be given, where the compiler has no choice. -/
def Assigned (h:CompilerHistory) (identity:String) (id:ℤ) : Prop :=
 h.previousActive.lookup identity=some id ∨
  h.previousActive.lookup identity=none ∧ h.firstTopLevelIDs.lookup identity=some id

variable {identity:String} {c:DatasetCompiler} {i:String} {u:DatasetCompiler}
  {md:MessageDescriptor} {p:DatasetSchema} {fd:FieldDescriptor}
  {id:ℤ} {v:DatasetCompiler} {events:List Event}
lemma Assigned.unique {h:CompilerHistory} {id':ℤ} (hid:Assigned h identity id)
 (hi':Assigned h identity id') : id=id' := by
 obtain hid|⟨hn,hid⟩:=hid <;> obtain hi'|⟨hn',hi'⟩:=hi'
 · exact Option.some.inj (hid.symm.trans hi')
 · exact absurd (hid.symm.trans hn') (by simp)
 · exact absurd (hi'.symm.trans hn) (by simp)
 · exact Option.some.inj (hid.symm.trans hi')

structure Ledger (c:DatasetCompiler) : Prop where
 owner_iff : ∀id identity,c.reservedIDs.lookup id=some identity ↔ Owns c identity id
 bounded : ∀id,id∈c.reservedIDs → 1 ≤ id ∧ id≤c.lastID
 last_range : 0≤c.lastID ∧ c.lastID ≤ maxStableID
 attained : c.lastID=0 ∨ c.lastID∈c.reservedIDs
 unchanged : ∀i id,c.currentActive.lookup i=some id →
  ∀id',Assigned c.toCompilerHistory i id' → id=id'
 live : ∀i,i∈c.currentActive → i∉c.retired

lemma owns_insert {n:ℤ} (hf:identity∉c.currentActive) :
 Owns { c with currentActive:=c.currentActive.insert identity id } i n ↔
  Owns c i n ∨ (i=identity ∧ n=id) := by
 simp only [Owns,lookup_insert_iff hf]
 exact or_right_comm

lemma Ledger.reuse (h:Ledger c) (hf:identity∉c.currentActive) (hl:identity∉c.retired)
 (ho:Assigned c.toCompilerHistory identity id) :
 Ledger { c with currentActive:=c.currentActive.insert identity id } where
 owner_iff n i:=by
  rw [owns_insert hf,h.owner_iff]
  refine ⟨Or.inl,?_⟩
  rintro (hi|⟨rfl,rfl⟩)
  · exact hi
  · obtain hp|⟨-,hfr⟩:=ho
    · exact Or.inr (Or.inl hp)
    · exact Or.inr (Or.inr (Or.inr hfr))
 bounded:=h.bounded
 last_range:=h.last_range
 attained:=h.attained
 unchanged i n hi n' hn':=by
  obtain hi|⟨rfl,rfl⟩:=(lookup_insert_iff hf).1 hi
  · exact h.unchanged i n hi n' hn'
  · exact ho.unique hn'
 live i hi:=by
  obtain rfl|hi:=(AList.mem_insert _).1 hi
  · exact hl
  · exact h.live i hi

lemma Ledger.fresh (h:Ledger c) (hf:identity∉c.currentActive) (hl:identity∉c.retired)
 (hp:c.previousActive.lookup identity=none)
 (hfr:c.firstTopLevelIDs.lookup identity=none) (hls:c.lastID≠maxStableID)
 (hid:c.lastID+1∉c.reservedIDs) :
 Ledger { c with
  lastID:=c.lastID+1
  reservedIDs:=c.reservedIDs.insert (c.lastID+1) identity
  currentActive:=c.currentActive.insert identity (c.lastID+1) } where
 owner_iff n i:=by
  rw [lookup_insert_iff hid,h.owner_iff,and_comm]
  exact (owns_insert hf).symm
 bounded n hn:=by
  have hr:=h.last_range
  obtain rfl|hn:=(AList.mem_insert _).1 hn
  · exact ⟨by omega,le_refl _⟩
  · have hb:=h.bounded n hn
    exact ⟨hb.1,by simp only;omega⟩
 last_range:=by
  have hr:=h.last_range
  simp only
  omega
 attained:=Or.inr ((AList.mem_insert _).2 (Or.inl rfl))
 unchanged i n hi n' hn':=by
  obtain hi|⟨rfl,rfl⟩:=(lookup_insert_iff hf).1 hi
  · exact h.unchanged i n hi n' hn'
  · obtain hn'|⟨-,hn'⟩:=hn'
    · exact absurd (hp.symm.trans hn') (by simp)
    · exact absurd (hfr.symm.trans hn') (by simp)
 live i hi:=by
  obtain rfl|hi:=(AList.mem_insert _).1 hi
  · exact hl
  · exact h.live i hi

lemma Ledger.allocate (h:Ledger c) (hu:allocate c identity=.ok (id,u)) : Ledger u := by
 obtain ⟨hf,hl,⟨ho,rfl⟩|⟨hp,hfr,hls,rfl,hid,rfl⟩⟩:=
  allocate_ok.1 hu
 · exact h.reuse hf hl ho
 · exact h.fresh hf hl hp hfr hls hid

lemma Ledger.enter (h:Ledger c) (identity:String) (md:MessageDescriptor) : Ledger (enter c identity md) :=
 ⟨h.owner_iff,h.bounded,h.last_range,h.attained,h.unchanged,h.live⟩

lemma Ledger.run (h:Ledger c) (run:Runs c events v) : Ledger v :=
 run.invariant (fun _ _ _ _ h hu=>h.allocate hu) (fun _ _ _ h=>h.enter _ _) h

/-- The walk activates exactly the identities it allocates, each one once. -/
theorem runs_activates (run:Runs c events v) : ((allocations events).map Prod.fst).Nodup ∧
 (∀i∈(allocations events).map Prod.fst,i∉c.currentActive) ∧
 ∀i n,v.currentActive.lookup i=some n ↔
  c.currentActive.lookup i=some n ∨ (i,n)∈allocations events := by
 induction run with
 | refl _=>simp [allocations]
 | @allocate c u v identity id events hs _ ih=>
  obtain ⟨hf,-,hc⟩:=allocate_ok.1 hs
  have ha:u.currentActive=c.currentActive.insert identity id:=by
   obtain ⟨-,rfl⟩|⟨-,-,-,-,-,rfl⟩:=hc <;> rfl
  obtain ⟨hnd,hn,hl⟩:=ih
  have hcn:allocations (.allocate identity id::events)=(identity,id)::allocations events:=rfl
  rw [ha] at hn hl
  rw [hcn]
  simp only [AList.mem_insert,not_or] at hn
  refine ⟨List.nodup_cons.2 ⟨fun hm=>(hn _ hm).1 rfl,hnd⟩,?_,fun i n=>?_⟩
  · exact List.forall_mem_cons.2 ⟨hf,fun i hi=>(hn i hi).2⟩
  · rw [hl,lookup_insert_iff hf,List.mem_cons,Prod.mk.injEq,or_assoc]
 | enter _ ih=>exact ih

lemma validateStableID_ok : validateStableID id=.ok () ↔ 1 ≤ id ∧ id ≤ maxStableID := by
 rw [validateStableID,rejectIf_ok]
 omega

lemma historyOk_registers (hp:PreviousOk md p)
 (h:Registers md p.lastFieldId p.retiredFields (activeEntries p) c) :
 HistoryOk c.toCompilerHistory where
 retired_key i r hr:=((h.retired_iff i r).1 hr).2
 disjoint i ha hrt:=by
  obtain ⟨f,hf⟩:=h.mem_active.1 ha
  obtain ⟨r,hr,hri⟩:=h.mem_retired.1 hrt
  have hac:=(List.pairwise_append.1 hp.accepted.2).2.2 r hr
  exact (hac (entryRecord (i,f)) (List.mem_map_of_mem hf)).1 hri
 previous_eq:=h.active_eq

lemma ledger_registers (hp:PreviousOk md p)
 (h:Registers md p.lastFieldId p.retiredFields (activeEntries p) c) :
 Ledger c where
 owner_iff id identity:=by
  simp only [h.ids_iff,Owns,h.current,h.first,h.active_eq,h.retired_iff,Option.map_eq_some_iff,
   h.fields_iff,AList.lookup_empty,reduceCtorEq,false_or,or_false,List.mem_append,List.mem_map]
  constructor
  · rintro ⟨r,hr|⟨⟨i,f⟩,hf,rfl⟩,rfl,rfl⟩
    · exact Or.inr ⟨r,⟨hr,rfl⟩,rfl⟩
    · exact Or.inl ⟨f,hf,rfl⟩
  · rintro (⟨f,hf,rfl⟩|⟨r,⟨hr,rfl⟩,rfl⟩)
    · exact ⟨_,Or.inr ⟨_,hf,rfl⟩,rfl,rfl⟩
    · exact ⟨r,Or.inl hr,rfl,rfl⟩
 bounded id hid:=by
  obtain ⟨i,hi⟩:=mem_iff_lookup.1 hid
  obtain ⟨r,hr,rfl,-⟩:=(h.ids_iff _ _).1 hi
  have hv:=validateStableID_ok.1 (hp.accepted.1 r hr).1
  have hm:=(highestID_le_iff.1 (le_of_eq hp.last.symm)).2 r.stableId
   (List.mem_map_of_mem hr)
  rw [h.last_eq]
  exact ⟨hv.1,hm⟩
 last_range:=by
  rw [h.last_eq]
  exact hp.last_range
 attained:=by
  rw [h.last_eq,hp.last]
  refine (highestID_mem _).imp_right fun hmm=>?_
  obtain ⟨r,hr,hid⟩:=List.mem_map.1 hmm
  exact mem_iff_lookup.2 ⟨r.identity,(h.ids_iff _ _).2 ⟨r,hr,hid,rfl⟩⟩
 unchanged i id hid:=by simp [h.current] at hid
 live i hi:=by simp [h.current] at hi

/-- A first compilation: no past, and the top-level numbers seen so far are reserved. -/
structure FirstState (md:MessageDescriptor) (c:DatasetCompiler) : Prop where
 ledger : Ledger c
 previousActive : c.previousActive=∅
 previousFields : c.previousFields=∅
 retired : c.retired=∅
 historicalNames : c.historicalNames=∅
 currentActive : c.currentActive=∅
 containers : c.currentContainers=AList.singleton "" md
 numbers : ∀i id,c.firstTopLevelIDs.lookup i=some id →
  1 ≤ id ∧ ∃fd∈md.fields,fd.number.toInt=id ∧ i=fieldIdentitySegment fd.number

lemma firstState_initial (md:MessageDescriptor) :
 FirstState md { currentContainers:=AList.singleton "" md } where
 ledger:=by
  refine ⟨fun id i=>?_,fun id hid=>?_,?_,Or.inl rfl,fun i id hid=>?_,fun i hi=>?_⟩
  · simp [Owns]
  · simp at hid
  · simp [maxStableID]
  · simp at hid
  · simp at hi
 previousActive:=rfl
 previousFields:=rfl
 retired:=rfl
 historicalNames:=rfl
 currentActive:=rfl
 containers:=rfl
 numbers:=by simp

lemma FirstState.owns_iff (h:FirstState md c) : Owns c i id ↔ c.firstTopLevelIDs.lookup i=some id := by
 simp [Owns,h.previousActive,h.retired,h.currentActive]

lemma appendIdentity_root (segment:String) : appendIdentity "" segment=segment := by
 simp [appendIdentity]

lemma reserveTopLevel_ok : reserveTopLevel md c fd=.ok u ↔
  (1≤fd.number.toInt ∧ fd.number.toInt ≤ maxStableID) ∧
  u={ c with
   firstTopLevelIDs:=
    c.firstTopLevelIDs.insert (fieldIdentitySegment fd.number) fd.number.toInt
   reservedIDs:=c.reservedIDs.insert fd.number.toInt (fieldIdentitySegment fd.number)
   lastID:=if fd.number.toInt > c.lastID then fd.number.toInt else c.lastID } := by
 simp only [reserveTopLevel,bind_ok,wrap_ok,exists_unit_ok,pure_ok,validateStableID_ok,
  appendIdentity_root]
 exact and_congr_right fun _=>eq_comm

lemma FirstState.reserved_iff (h:FirstState md c) (hfd:1≤fd.number.toInt)
 (hi:c.firstTopLevelIDs.lookup i=some id) : i=fieldIdentitySegment fd.number ↔ id=fd.number.toInt := by
 obtain ⟨hp,fd',-,rfl,rfl⟩:=h.numbers i id hi
 constructor
 · intro hs
   rw [fieldIdentitySegment_inj (by omega) (by omega) hs]
 · intro hn
   rw [Int32.toInt_inj.1 hn]

lemma FirstState.owner_iff (h:FirstState md c) (hfd:1≤fd.number.toInt) (id:ℤ) (i:String) :
 (c.reservedIDs.insert fd.number.toInt (fieldIdentitySegment fd.number)).lookup id=some i ↔
  (c.firstTopLevelIDs.insert (fieldIdentitySegment fd.number) fd.number.toInt).lookup i =
   some id := by
 have ho:=(h.ledger.owner_iff id i).trans h.owns_iff
 by_cases hid : id=fd.number.toInt <;> by_cases hi : i=fieldIdentitySegment fd.number
 · subst hid hi
   simp [AList.lookup_insert]
 · subst hid
   rw [AList.lookup_insert,AList.lookup_insert_ne hi]
   refine ⟨fun h' => absurd (Option.some.inj h').symm hi,fun h' => ?_⟩
   exact absurd ((h.reserved_iff hfd h').2 rfl) hi
 · subst hi
   rw [AList.lookup_insert,AList.lookup_insert_ne hid,ho]
   refine ⟨fun h' => ?_,fun h' => absurd (Option.some.inj h').symm hid⟩
   exact absurd ((h.reserved_iff hfd h').1 rfl) hid
 · rw [AList.lookup_insert_ne hid,AList.lookup_insert_ne hi,ho]

lemma FirstState.reserve (h:FirstState md c) (hm:fd∈md.fields)
 (hu:reserveTopLevel md c fd=.ok u) : FirstState md u := by
 obtain ⟨⟨hp,hmx⟩,rfl⟩:=reserveTopLevel_ok.1 hu
 refine ⟨⟨fun id i=>?_,fun id hid=>?_,?_,?_,fun i id hid=>?_,fun i hi=>?_⟩,
  h.previousActive,h.previousFields,h.retired,h.historicalNames,h.currentActive,
  h.containers,fun i id hi=>?_⟩
 · rw [h.owner_iff hp]
   simp [Owns,h.previousActive,h.retired,h.currentActive]
 · simp only
   obtain rfl|hid:=(AList.mem_insert _).1 hid
   · exact ⟨hp,by split_ifs <;> omega⟩
   · have hb:=h.ledger.bounded id hid
     exact ⟨hb.1,by split_ifs <;> omega⟩
 · have hr:=h.ledger.last_range
   simp only
   split_ifs <;> omega
 · simp only
   split_ifs with hl
   · exact Or.inr ((AList.mem_insert _).2 (Or.inl rfl))
   · exact h.ledger.attained.imp_right fun ho=>(AList.mem_insert _).2 (Or.inr ho)
 · simp [h.currentActive] at hid
 · simp [h.currentActive] at hi
 · by_cases hs : i=fieldIdentitySegment fd.number
   · subst hs
     rw [AList.lookup_insert,Option.some.injEq] at hi
     exact ⟨hi ▸ hp,fd,hm,hi,rfl⟩
   · rw [AList.lookup_insert_ne hs] at hi
     exact h.numbers i id hi

lemma firstState_reserve {fds:List FieldDescriptor} (hm:∀fd∈fds,fd∈md.fields)
 (h:FirstState md c) (hu:loop (reserveTopLevel md) c fds=.ok u) : FirstState md u := by
 induction fds generalizing c with
 | nil=>
  obtain rfl : c=u:=by simpa using hu
  exact h
 | cons fd fds ih=>
  obtain ⟨hfd,hf⟩:=List.forall_mem_cons.1 hm
  obtain ⟨v,hv,hu⟩:=(loop_cons _ _ _ _ _).1 hu
  exact ih hf (h.reserve hfd hv) hu

lemma startCompiler_none (h:startCompiler md none=.ok c) : FirstState md c := by
 simp only [startCompiler,newDatasetCompiler,bind_ok,Except.ok.injEq,Option.isNone_none,if_true,
  exists_eq_left'] at h
 exact firstState_reserve (fun fd hfd=>mem_sortedFields.1 hfd) (firstState_initial md) h

lemma startCompiler_some : startCompiler md (some p)=.ok c ↔ newDatasetCompiler md (some p)=.ok c := by
 simp [startCompiler]

lemma startCompiler_ledger {previous:Option DatasetSchema} (h:startCompiler md previous=.ok c) :
 Ledger c ∧ HistoryOk c.toCompilerHistory ∧ c.currentActive=∅ ∧
  c.currentContainers=AList.singleton "" md := by
 cases previous with
 | none=>
  have hf:=startCompiler_none h
  refine ⟨hf.ledger,⟨fun i r hr=>?_,fun i hi=>?_,fun i=>?_⟩,hf.currentActive,
   hf.containers⟩
  · simp [hf.retired] at hr
  · simp [hf.previousActive] at hi
  · simp [hf.previousActive,hf.previousFields]
 | some p=>
  obtain ⟨hp,hrg⟩:=newDatasetCompiler_registers (startCompiler_some.1 h)
  exact ⟨ledger_registers hp hrg,historyOk_registers hp hrg,hrg.current,hrg.containers⟩
end InvariantProtocol.AllocationLedger
