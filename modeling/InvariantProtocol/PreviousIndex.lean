import InvariantProtocol.CompilerState
import InvariantProtocol.DataEntries
namespace InvariantProtocol.PreviousIndex
open GoResult DataSchema DataIdentity DataNames DataEntries ProtoDescriptor CompilerState
open List hiding map

variable {entry:String×Field} {fields:List Field} {path:List UInt32}
def PositionOk (parentPath path:List UInt32) : SyntheticRole → Prop
 | .protoField=>path.length=parentPath.length+1 ∧ path.take parentPath.length=parentPath
 | .listElement=>path=parentPath
 | .mapKey=>path=parentPath
 | .mapValue=>path=parentPath
 | _=>False

mutual

def WellFormedField : Field → List UInt32 → SyntheticRole → Prop
 | .nil,_,_=>False
 | .mk a t,parentPath,role=>
  a.syntheticRole=role ∧ PositionOk parentPath a.protoNumberPath role ∧
   WellFormedType t a.protoNumberPath

def WellFormedType : DataType → List UInt32 → Prop
 | .nil,_=>False
 | .struct _ fields,path=>WellFormedFields fields path
 | .list _ element _,path=>WellFormedField element path .listElement
 | .map _ key value,path=>WellFormedField key path .mapKey ∧ WellFormedField value path .mapValue
 | _,_=>True

def WellFormedFields : List Field → List UInt32 → Prop
 | [],_=>True
 | field::rest,path=>WellFormedField field path .protoField ∧ WellFormedFields rest path
end

lemma wellFormedFields_iff :
 WellFormedFields fields path ↔ ∀f∈fields,WellFormedField f path .protoField := by
 induction fields with
 | nil=>simp [WellFormedFields]
 | cons field rest ih=>rw [WellFormedFields,ih,forall_mem_cons]

lemma WellFormedType.child {t:DataType} (h:WellFormedType t path) {f:Field}
 (hf:f∈t.children) : ∃role,WellFormedField f path role := by
 cases t with
 | struct p fields=>exact ⟨_,wellFormedFields_iff.1 h f hf⟩
 | list p element n=>
  obtain rfl : f=element:=by simpa [DataType.children] using hf
  exact ⟨_,h⟩
 | map p key value=>
  obtain rfl|rfl : f=key ∨ f=value:=by simpa [DataType.children] using hf
  · exact ⟨_,h.1⟩
  · exact ⟨_,h.2⟩
 | _=>simp [DataType.children] at hf

variable {parent:String}
lemma WellFormedField.entries {field:Field} {role:SyntheticRole} (h:WellFormedField field path role)
 (hen:entry∈fieldEntries parent field) :
 WellFormedType entry.2.type entry.2.attributes.protoNumberPath := by
 induction field using Field.tree_induction generalizing path role parent with
 | hnil=>exact h.elim
 | hmk a t ih=>
  rw [fieldEntries,typeEntries_eq,mem_cons,mem_flatMap] at hen
  obtain rfl|⟨child,hc,hen⟩:=hen
  · exact h.2.2
  · obtain ⟨role',hr⟩:=h.2.2.child hc
    exact ih child hc hr hen

lemma wellFormed_entries {d:DatasetSchema} (h:WellFormedFields d.fields []) (hen:entry∈activeEntries d) :
 WellFormedType entry.2.type entry.2.attributes.protoNumberPath := by
 rw [activeEntries,fieldsEntries_eq,mem_flatMap] at hen
 obtain ⟨field,hf,hen⟩:=hen
 exact (wellFormedFields_iff.1 h field hf).entries hen

def registerEntry (c:DatasetCompiler) (entry:String×Field) : Result DatasetCompiler :=
 registerPrevious c entry.1 entry.2

variable {identity:String} {r:RetiredField} {c u:DatasetCompiler} {md:MessageDescriptor}
  {p:DatasetSchema}
lemma previousIdentity_ok {a:FieldAttributes} {parentPath:List UInt32} :
 previousIdentity a parentPath parent a.syntheticRole=.ok identity ↔
  PositionOk parentPath a.protoNumberPath a.syntheticRole ∧
   identity=appendIdentity parent (nodeSegment a) := by
 unfold previousIdentity PositionOk nodeSegment syntheticIdentity
 cases a.syntheticRole <;>
  simp only [bind_ok,pure_ok,rejectIf_ok,exists_const,not_or,not_not,and_assoc,reduceCtorEq,
   false_and,@eq_comm _ identity]

def FieldIndexed (field:Field) : Prop :=
 ∀(parentPath:List UInt32) (parent:String) (role:SyntheticRole) (c v:DatasetCompiler),
  indexPreviousField field parentPath parent role c=.ok v ↔
   WellFormedField field parentPath role ∧
    loop registerEntry c (fieldEntries parent field)=.ok v

lemma indexPreviousFields_ok (ih:∀f∈fields,FieldIndexed f) (path:List UInt32)
 (identity:String) (c v:DatasetCompiler) : indexPreviousFields fields path identity c=.ok v ↔
  WellFormedFields fields path ∧ loop registerEntry c (fieldsEntries identity fields)=.ok v := by
 induction fields generalizing c with
 | nil=>simp [indexPreviousFields,WellFormedFields,fieldsEntries]
 | cons field rest ihr=>
  obtain ⟨hfl,hrs⟩:=List.forall_mem_cons.1 ih
  simp only [indexPreviousFields,bind_ok,WellFormedFields,fieldsEntries,loop_append,
   hfl path identity .protoField,ihr hrs]
  constructor
  · rintro ⟨u,⟨hf,hu⟩,hr,hv⟩
    exact ⟨⟨hf,hr⟩,u,hu,hv⟩
  · rintro ⟨⟨hf,hr⟩,u,hu,hv⟩
    exact ⟨u,⟨hf,hu⟩,hr,hv⟩

lemma WellFormedField.isNil {field:Field} {role:SyntheticRole}
 (h:WellFormedField field path role) : field.isNil=false := by
 cases field with
 | nil=>exact h.elim
 | mk a t=>rfl

lemma indexPreviousType_ok {t:DataType} (ih:∀f∈t.children,FieldIndexed f) (a:FieldAttributes)
 (identity:String) (c v:DatasetCompiler) : indexPreviousType t a identity c=.ok v ↔
  WellFormedType t a.protoNumberPath ∧ loop registerEntry c (typeEntries identity t)=.ok v := by
 cases t with
 | nil=>simp [indexPreviousType,WellFormedType]
 | struct p fields=>exact indexPreviousFields_ok ih a.protoNumberPath identity c v
 | list p element n=>
  have hel:=ih element (by simp [DataType.children])
  simp only [indexPreviousType,bind_ok,rejectIf_ok,exists_const,hel _ _ _ _ _,WellFormedType,
   typeEntries]
  exact ⟨fun h=>h.2,fun h=>⟨by simp [h.1.isNil],h⟩⟩
 | map p key value=>
  have hky:=ih key (by simp [DataType.children])
  have hvalue:=ih value (by simp [DataType.children])
  simp only [indexPreviousType,bind_ok,rejectIf_ok,exists_const,hky _ _ _ _ _,hvalue _ _ _ _ _,
   WellFormedType,typeEntries,loop_append]
  constructor
  · rintro ⟨-,u,⟨hk,hu⟩,hv,hl⟩
    exact ⟨⟨hk,hv⟩,u,hu,hl⟩
  · rintro ⟨⟨hk,hv⟩,u,hu,hl⟩
    exact ⟨by simp [hk.isNil,hv.isNil],u,⟨hk,hu⟩,hv,hl⟩
 | _=>simp [indexPreviousType,WellFormedType,typeEntries]

/-- Indexing a tree checks its form and registers its entries in pre-order. -/
theorem indexPreviousField_ok (field:Field) : FieldIndexed field := by
 induction field using Field.tree_induction with
 | hnil=>
  intro parentPath parent role c v
  simp [indexPreviousField,WellFormedField]
 | hmk a t ih=>
  intro parentPath parent role c v
  simp only [indexPreviousField,bind_ok,rejectIf_ok,exists_const,WellFormedField,fieldEntries,
   loop_cons,indexPreviousType_ok ih,not_not,registerEntry]
  constructor
  · rintro ⟨rfl,identity,hi,u,hu,ht,hv⟩
    obtain ⟨hp,rfl⟩:=previousIdentity_ok.1 hi
    exact ⟨⟨rfl,hp,ht⟩,u,hu,hv⟩
  · rintro ⟨⟨rfl,hp,ht⟩,u,hu,hv⟩
    exact ⟨rfl,_,previousIdentity_ok.2 ⟨hp,rfl⟩,u,hu,ht,hv⟩

def RecordOk (r:RetiredField) : Prop :=
 validateStableID r.stableId=.ok () ∧
  validateCompilerOwnedName r.identity r.protoFullName r.name r.storageNameSource=.ok ()

def Compatible (r s:RetiredField) : Prop :=
 r.identity≠s.identity ∧ r.stableId≠s.stableId ∧
  ¬(parentCompilerIdentity r.identity=parentCompilerIdentity s.identity ∧ r.name=s.name)

lemma Compatible.symm {s:RetiredField} (h:Compatible r s) : Compatible s r :=
 ⟨h.1.symm,h.2.1.symm,fun hn=>h.2.2 ⟨hn.1.symm,hn.2.symm⟩⟩

def Accepted (rs:List RetiredField) : Prop:=(∀r∈rs,RecordOk r) ∧ rs.Pairwise Compatible

/-- The compiler has registered exactly these retired records and active entries. -/
structure Registers (md:MessageDescriptor) (last:ℤ) (retired:List RetiredField)
  (active:List (String×Field)) (c:DatasetCompiler) : Prop where
 retired_iff : ∀i r,c.retired.lookup i=some r ↔ r∈retired ∧ r.identity=i
 fields_iff : ∀i f,c.previousFields.lookup i=some f ↔ (i,f)∈active
 active_eq : ∀i,c.previousActive.lookup i =
  (c.previousFields.lookup i).map fun f=>f.attributes.stableId
 ids_iff : ∀n i,c.reservedIDs.lookup n=some i ↔
  ∃r∈retired++active.map entryRecord,r.stableId=n ∧ r.identity=i
 names_iff : ∀scope n i,c.historicalNames.lookup (scope,n)=some i ↔
  ∃r∈retired++active.map entryRecord,
   parentCompilerIdentity r.identity=scope ∧ r.name=n ∧ r.identity=i
 current : c.currentActive=∅
 first : c.firstTopLevelIDs=∅
 containers : c.currentContainers=AList.singleton "" md
 last_eq : c.lastID=last

section
variable {κ ν:Type} [DecidableEq κ] {m:GoMap κ ν}
lemma mem_iff_lookup {k:κ} : k∈m ↔ ∃v,m.lookup k=some v := by
 rw [←AList.lookup_isSome,Option.isSome_iff_exists]

lemma lookup_insert_iff {k k':κ} {v v':ν} (hf:k∉m) :
 (m.insert k v).lookup k'=some v' ↔ m.lookup k'=some v' ∨ (k'=k ∧ v'=v) := by
 by_cases hk : k'=k
 · subst hk
   rw [AList.lookup_insert,AList.lookup_eq_none.2 hf]
   simp [eq_comm]
 · rw [AList.lookup_insert_ne hk]
   simp [hk]

lemma exists_mem_snoc {α:Type} {xs:List α} {a:α} {P:α → Prop} : (∃x∈xs++[a],P x) ↔ (∃x∈xs,P x) ∨ P a := by
 simp only [mem_append,mem_singleton,or_and_right,exists_or,exists_eq_left]
end

lemma registerHistoricalName_ok {name:String} : registerHistoricalName c identity name=.ok u ↔
  (∀owner,c.historicalNames.lookup (parentCompilerIdentity identity,name)=some owner →
   owner=identity) ∧
  u={ c with
   historicalNames:=
   c.historicalNames.insert (parentCompilerIdentity identity,name) identity } := by
 simp only [registerHistoricalName,bind_ok,pure_ok,rejectIf_ok,exists_const]
 refine and_congr ?_ eq_comm
 cases c.historicalNames.lookup (parentCompilerIdentity identity,name) <;> simp

lemma compilerIdentityRole_ne_empty {role:SyntheticRole}
 (h:compilerIdentityRole identity=.ok role) : identity≠"" := by
 rintro rfl
 have hf:succeeds (compilerIdentityRole "")=false:=by decide
 rw [h] at hf
 exact Bool.noConfusion hf

lemma RecordOk.role (h:RecordOk r) : ∃role,compilerIdentityRole r.identity=.ok role := by
 obtain ⟨-,hn⟩:=h
 simp only [validateCompilerOwnedName,bind_ok] at hn
 obtain ⟨role,hr,-⟩:=hn
 exact ⟨role,hr⟩

lemma RecordOk.identity_ne_empty (h:RecordOk r) : r.identity≠"" := by
 obtain ⟨role,hr⟩:=h.role
 exact compilerIdentityRole_ne_empty hr

lemma RecordOk.field_role (h:RecordOk r) (hf:DenotesField r.identity) :
 compilerIdentityRole r.identity=.ok .protoField := by
 obtain ⟨parent,n,hi⟩:=hf
 obtain ⟨role,hr⟩:=h.role
 obtain rfl:=segmentRole_field_eq (segmentRole_of_append (fieldIdentitySegment_slash n)
  (hi ▸ hr))
 exact hr

lemma registerRetired_ok : registerRetired c r=.ok u ↔
  RecordOk r ∧ r.identity∉c.retired ∧ r.stableId∉c.reservedIDs ∧
  (∀owner,c.historicalNames.lookup (parentCompilerIdentity r.identity,r.name)=some owner →
   owner=r.identity) ∧
  u={ c with
   historicalNames:=
    c.historicalNames.insert (parentCompilerIdentity r.identity,r.name) r.identity
   retired:=c.retired.insert r.identity r
   reservedIDs:=c.reservedIDs.insert r.stableId r.identity } := by
 simp only [registerRetired,bind_ok,pure_ok,rejectIf_ok,exists_const,wrap_ok,
  exists_unit_ok,registerHistoricalName_ok]
 constructor
 · rintro ⟨-,hid,hi,hf,hn,w,⟨ho,rfl⟩,rfl⟩
   exact ⟨⟨hid,hn⟩,hi,hf,ho,rfl⟩
 · rintro ⟨hok,hi,hf,ho,rfl⟩
   exact ⟨hok.identity_ne_empty,hok.1,hi,hf,hok.2,_,⟨ho,rfl⟩,rfl⟩

lemma registerEntry_ok :
 registerEntry c entry=.ok u ↔
  RecordOk (entryRecord entry) ∧ entry.1∉c.retired ∧ entry.1∉c.previousActive ∧
  entry.2.attributes.stableId∉c.reservedIDs ∧
  (∀owner,c.historicalNames.lookup (parentCompilerIdentity entry.1,
   entry.2.attributes.name)=some owner → owner=entry.1) ∧
  u={ c with
   historicalNames:=c.historicalNames.insert
    (parentCompilerIdentity entry.1,entry.2.attributes.name) entry.1
   previousActive:=c.previousActive.insert entry.1 entry.2.attributes.stableId
   previousFields:=c.previousFields.insert entry.1 entry.2
   reservedIDs:=c.reservedIDs.insert entry.2.attributes.stableId entry.1 } := by
 simp only [registerEntry,registerPrevious,bind_ok,pure_ok,rejectIf_ok,exists_const,wrap_ok,
  exists_unit_ok,registerHistoricalName_ok]
 constructor
 · rintro ⟨hid,hr,ha,hf,hn,w,⟨ho,rfl⟩,rfl⟩
   exact ⟨⟨hid,hn⟩,hr,ha,hf,ho,rfl⟩
 · rintro ⟨hok,hr,ha,hf,ho,rfl⟩
   exact ⟨hok.1,hr,ha,hf,hok.2,_,⟨ho,rfl⟩,rfl⟩

section
variable {md:MessageDescriptor} {last:ℤ} {retired:List RetiredField}
 {active:List (String×Field)} {c:DatasetCompiler}
section
variable (h:Registers md last retired active c)
include h
lemma Registers.mem_retired {i:String} :
 i∈c.retired ↔ ∃r∈retired,r.identity=i := by
 simp only [mem_iff_lookup,h.retired_iff]

lemma Registers.mem_active {i:String} :
 i∈c.previousActive ↔ ∃f,(i,f)∈active := by
 rw [mem_iff_lookup]
 simp only [h.active_eq,Option.map_eq_some_iff,h.fields_iff]
 exact ⟨fun ⟨_,f,hf,_⟩=>⟨f,hf⟩,fun ⟨f,hf⟩=>⟨_,f,hf,rfl⟩⟩

/-- The registers decide whether a record may join the registered ones. -/
theorem Registers.compatible_iff (r:RetiredField) :
 (∀s∈retired++active.map entryRecord,Compatible s r) ↔
  r.identity∉c.retired ∧ r.identity∉c.previousActive ∧ r.stableId∉c.reservedIDs ∧
  ∀owner,c.historicalNames.lookup (parentCompilerIdentity r.identity,r.name)=some owner →
   owner=r.identity := by
 have hin:(∀s∈retired++active.map entryRecord,s.identity≠r.identity) ↔
   r.identity∉c.retired ∧ r.identity∉c.previousActive:=by
  rw [h.mem_retired,h.mem_active]
  simp only [mem_append,mem_map,not_exists,not_and]
  constructor
  · intro hne
    refine ⟨fun s hs=>hne s (Or.inl hs),fun f hf=>?_⟩
    exact hne (entryRecord (r.identity,f)) (Or.inr ⟨_,hf,rfl⟩) rfl
  · rintro ⟨hr,ha⟩ s (hs|⟨⟨i,f⟩,hf,rfl⟩)
    · exact hr s hs
    · rintro rfl
      exact ha f hf
 constructor
 · intro hal
   obtain ⟨hr,ha⟩:=hin.1 fun s hs=>(hal s hs).1
   refine ⟨hr,ha,?_,?_⟩
   · rw [mem_iff_lookup]
     rintro ⟨i,hi⟩
     obtain ⟨s,hs,hid,-⟩:=(h.ids_iff _ _).1 hi
     exact (hal s hs).2.1 hid
   · intro owner ho
     obtain ⟨s,hs,hsc,hn,-⟩:=(h.names_iff _ _ _).1 ho
     exact absurd ⟨hsc,hn⟩ (hal s hs).2.2
 · rintro ⟨hr,ha,hid,hn⟩ s hs
   have hne:=hin.2 ⟨hr,ha⟩ s hs
   refine ⟨hne,fun heq=>hid ?_,fun ⟨hsc,heq⟩=>hne ?_⟩
   · exact mem_iff_lookup.2 ⟨s.identity,(h.ids_iff _ _).2 ⟨s,hs,heq,rfl⟩⟩
   · exact hn _ ((h.names_iff _ _ _).2 ⟨s,hs,hsc,heq,rfl⟩)
end

variable {r:RetiredField} {u:DatasetCompiler}
lemma Registers.name_free (h:Registers md last retired active c)
 (ha:∀s∈retired++active.map entryRecord,Compatible s r) :
 (parentCompilerIdentity r.identity,r.name)∉c.historicalNames := by
 rw [mem_iff_lookup]
 rintro ⟨owner,ho⟩
 obtain ⟨s,hs,hsc,hn,-⟩:=(h.names_iff _ _ _).1 ho
 exact (ha s hs).2.2 ⟨hsc,hn⟩

lemma Registers.registerRetired_iff (h:Registers md last retired [] c) (r:RetiredField) :
 (∃u,registerRetired c r=.ok u) ↔ RecordOk r ∧ ∀s∈retired,Compatible s r := by
 have hc:=h.compatible_iff r
 have ha:r.identity∉c.previousActive:=by simp [h.mem_active]
 simp only [map_nil,append_nil] at hc
 simp only [registerRetired_ok,hc]
 constructor
 · rintro ⟨u,hok,hr,hid,hn,-⟩
   exact ⟨hok,hr,ha,hid,hn⟩
 · rintro ⟨hok,hr,-,hid,hn⟩
   exact ⟨_,hok,hr,hid,hn,rfl⟩

lemma Registers.registerEntry_iff (h:Registers md last retired active c) (entry:String×Field) :
 (∃u,registerEntry c entry=.ok u) ↔
  (RecordOk (entryRecord entry) ∧ ∀r∈retired,Compatible r (entryRecord entry)) ∧
   ∀e∈active,Compatible (entryRecord e) (entryRecord entry) := by
 have hc:=h.compatible_iff (entryRecord entry)
 simp only [forall_mem_append,forall_mem_map] at hc
 simp only [registerEntry_ok,and_assoc,hc]
 constructor
 · rintro ⟨u,hok,hr,ha,hid,hn,-⟩
   exact ⟨hok,hr,ha,hid,hn⟩
 · rintro ⟨hok,hr,ha,hid,hn⟩
   exact ⟨_,hok,hr,ha,hid,hn,rfl⟩

lemma Registers.retire (h:Registers md last retired [] c) (hu:registerRetired c r=.ok u) :
 Registers md last (retired++[r]) [] u := by
 have ha:∀s∈retired++[].map entryRecord,Compatible s r:=by
  simpa using ((h.registerRetired_iff r).1 ⟨u,hu⟩).2
 have hnm:=h.name_free ha
 obtain ⟨-,hr,hid,-,rfl⟩:=registerRetired_ok.1 hu
 refine ⟨fun i s=>?_,h.fields_iff,h.active_eq,fun n i=>?_,fun scope n i=>?_,h.current,
  h.first,h.containers,h.last_eq⟩
 · simp only [lookup_insert_iff hr,h.retired_iff,mem_append,mem_singleton,or_and_right]
   exact or_congr_right ⟨fun ⟨hi,hs⟩=>⟨hs,hs ▸ hi.symm⟩,fun ⟨hs,hi⟩=>⟨hs ▸ hi.symm,hs⟩⟩
 · have his:=h.ids_iff n i
   simp only [map_nil,append_nil] at his ⊢
   rw [lookup_insert_iff hid,his,exists_mem_snoc,eq_comm (a := n),eq_comm (a := i)]
 · have hn:=h.names_iff scope n i
   simp only [map_nil,append_nil] at hn ⊢
   rw [lookup_insert_iff hnm,hn,exists_mem_snoc,Prod.mk.injEq,and_assoc,eq_comm (a := scope),
    eq_comm (a := n),eq_comm (a := i)]

lemma Registers.activate (h:Registers md last retired active c)
 (hu:registerEntry c entry=.ok u) : Registers md last retired (active++[entry]) u := by
 have hal:∀s∈retired++active.map entryRecord,Compatible s (entryRecord entry):=by
  have hok:=(h.registerEntry_iff entry).1 ⟨u,hu⟩
  simpa only [forall_mem_append,forall_mem_map] using ⟨hok.1.2,hok.2⟩
 have hn:=h.name_free hal
 obtain ⟨-,-,ha,hid,-,rfl⟩:=registerEntry_ok.1 hu
 have hfl:entry.1∉c.previousFields:=by
  rw [h.mem_active] at ha
  rw [mem_iff_lookup]
  rintro ⟨f,hf⟩
  exact ha ⟨f,(h.fields_iff _ _).1 hf⟩
 refine ⟨h.retired_iff,fun i f=>?_,fun i=>?_,fun n i=>?_,fun scope n i=>?_,h.current,
  h.first,h.containers,h.last_eq⟩
 · rw [lookup_insert_iff hfl,h.fields_iff,mem_append,mem_singleton,Prod.ext_iff]
 · by_cases hi : i=entry.1
   · subst hi
     simp [AList.lookup_insert]
   · simp only [AList.lookup_insert_ne hi,h.active_eq]
 · rw [lookup_insert_iff hid,h.ids_iff,map_append,←append_assoc,map_singleton,
    exists_mem_snoc,eq_comm (a := n),eq_comm (a := i)]
   rfl
 · have hnw:(c.historicalNames.insert (parentCompilerIdentity entry.1,
     entry.2.attributes.name) entry.1).lookup (scope,n)=some i ↔ _:=lookup_insert_iff hn
   rw [hnw,h.names_iff,map_append,←append_assoc,map_singleton,exists_mem_snoc,
    Prod.mk.injEq,and_assoc,eq_comm (a := scope),eq_comm (a := n),eq_comm (a := i)]
   rfl

lemma registers_initial (md:MessageDescriptor) (last:ℤ) :
 Registers md last [] [] { currentContainers:=AList.singleton "" md,lastID:=last } where
 retired_iff:=by simp
 fields_iff:=by simp
 active_eq:=by simp
 ids_iff:=by simp
 names_iff:=by simp
 current:=rfl
 first:=rfl
 containers:=rfl
 last_eq:=rfl

lemma register_ok {c:DatasetCompiler} (hc:Registers md last [] [] c) (retired:List RetiredField)
 (active:List (String×Field)) :
 ((∃u v,loop registerRetired c retired=.ok u ∧ loop registerEntry u active=.ok v) ↔
   Accepted (retired++active.map entryRecord)) ∧
  ∀u v,loop registerRetired c retired=.ok u → loop registerEntry u active=.ok v →
   Registers md last retired active v := by
 obtain ⟨hrt,hrr⟩:=loop_register (C := Compatible)
  (fun s xs r (h:Registers md last xs [] s)=>h.registerRetired_iff r)
  (fun s xs r t h ht=>h.retire ht) retired c [] hc
 have ha:∀u,loop registerRetired c retired=.ok u → _:=fun u hu=>
  loop_register (C := fun e e' => Compatible (entryRecord e) (entryRecord e'))
   (fun s xs e (h:Registers md last retired xs s)=>h.registerEntry_iff e)
   (fun s xs e t h ht=>h.activate ht) active u [] (hrr u hu)
 refine ⟨?_,fun u v hu hv=>(ha u hu).2 v hv⟩
 simp only [Accepted,forall_mem_append,forall_mem_map,pairwise_append,pairwise_map]
 constructor
 · rintro ⟨u,v,hu,hv⟩
   obtain ⟨hok,-,hp⟩:=hrt.1 ⟨u,hu⟩
   obtain ⟨ho,-,hac⟩:=(ha u hu).1.1 ⟨v,hv⟩
   exact ⟨⟨hok,fun e he=>(ho e he).1⟩,hp,hac,
    fun r hr e he=>(ho e he).2 r hr⟩
 · rintro ⟨⟨hok,ho⟩,hp,hac,har⟩
   obtain ⟨u,hu⟩:=hrt.2 ⟨hok,by simp,hp⟩
   obtain ⟨v,hv⟩:=(ha u hu).1.2 ⟨fun e he=>⟨ho e he,fun r hr=>
    har r hr e he⟩,by simp,hac⟩
   exact ⟨u,v,hu,hv⟩
end

lemma highestID_le_iff {ids:List ℤ} {k:ℤ} : highestID ids≤k ↔ 0≤k ∧ ∀id∈ids,id≤k := by
 have hf:∀(xs:List ℤ) (start:ℤ),
   xs.foldl (fun hi id=>if id > hi then id else hi) start≤k ↔
    start≤k ∧ ∀id∈xs,id≤k:=by
  intro xs
  induction xs with
  | nil=>simp
  | cons id xs ih=>
   intro start
   rw [foldl_cons,ih,forall_mem_cons]
   split_ifs <;> constructor <;> rintro ⟨h,hr⟩
   · exact ⟨by omega,h,hr⟩
   · exact ⟨hr.1,hr.2⟩
   · exact ⟨h,by omega,hr⟩
   · exact ⟨h,hr.2⟩
 exact hf ids 0

lemma highestID_mem (ids:List ℤ) : highestID ids=0 ∨ highestID ids∈ids := by
 have hf:∀(xs:List ℤ) (start:ℤ),
   xs.foldl (fun hi id=>if id > hi then id else hi) start=start ∨
    xs.foldl (fun hi id=>if id > hi then id else hi) start∈xs:=by
  intro xs
  induction xs with
  | nil=>simp
  | cons id xs ih=>
   intro start
   rw [foldl_cons]
   obtain h|h:=ih (if id > start then id else start)
   · rw [h]
     split_ifs
     · exact Or.inr mem_cons_self
     · exact Or.inl rfl
   · exact Or.inr (mem_cons_of_mem _ h)
 exact hf ids 0

lemma highestID_congr {xs ys:List ℤ} (h:∀n,n∈xs ↔ n∈ys) : highestID xs=highestID ys :=
 eq_of_forall_ge_iff fun k=>by simp only [highestID_le_iff,h]

def stableIDs (d:DatasetSchema) : List ℤ:=(records d).map fun r=>r.stableId

structure PreviousOk (md:MessageDescriptor) (p:DatasetSchema) : Prop where
 source : p.sourceMessage=md.fullName
 name : p.name=storageName p.sourceMessage
 last_range : 0≤p.lastFieldId ∧ p.lastFieldId ≤ maxStableID
 tree : WellFormedFields p.fields []
 accepted : Accepted (records p)
 last : p.lastFieldId=highestID (stableIDs p)

lemma Registers.highestID_eq {last:ℤ} (h:Registers md last p.retiredFields (activeEntries p) c) :
 highestID c.reservedIDs.keys=highestID (stableIDs p) := by
 apply highestID_congr
 intro n
 rw [←AList.mem_keys,mem_iff_lookup,stableIDs,mem_map]
 simp only [h.ids_iff]
 exact ⟨fun ⟨_,r,hr,hn,_⟩=>⟨r,hr,hn⟩,fun ⟨r,hr,hn⟩=>⟨_,r,hr,hn,rfl⟩⟩

lemma newDatasetCompiler_registers (h:newDatasetCompiler md (some p)=.ok c) :
 PreviousOk md p ∧ Registers md p.lastFieldId p.retiredFields (activeEntries p) c := by
 simp only [newDatasetCompiler,bind_ok,pure_ok,rejectIf_ok,exists_const,not_not,
  not_or,indexPreviousFields_ok fun f _=>indexPreviousField_ok f] at h
 obtain ⟨hs,hn,hrn,u,hu,v,⟨ht,hv⟩,hl,rfl⟩:=h
 obtain ⟨hok,hr⟩:=register_ok (registers_initial md p.lastFieldId) p.retiredFields
  (activeEntries p)
 have hrg:=hr u v hu hv
 refine ⟨⟨hs,hn,by omega,ht,hok.1 ⟨u,v,hu,hv⟩,?_⟩,hrg⟩
 rw [←hrg.highestID_eq,←hl,hrg.last_eq]

lemma newDatasetCompiler_exists (h:PreviousOk md p) : ∃c,newDatasetCompiler md (some p)=.ok c := by
 obtain ⟨hok,hr⟩:=register_ok (registers_initial md p.lastFieldId) p.retiredFields
  (activeEntries p)
 obtain ⟨u,v,hu,hv⟩:=hok.2 h.accepted
 have hrg:=hr u v hu hv
 simp only [newDatasetCompiler,bind_ok,pure_ok,rejectIf_ok,exists_const,not_not,
  not_or,indexPreviousFields_ok fun f _=>indexPreviousField_ok f]
 have hrn:=h.last_range
 refine ⟨v,h.source,h.name,by omega,u,hu,v,⟨h.tree,hv⟩,?_,rfl⟩
 rw [hrg.highestID_eq,hrg.last_eq,←h.last]
end InvariantProtocol.PreviousIndex
