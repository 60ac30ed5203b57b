import InvariantProtocol.DataCompiler
import InvariantProtocol.DataEntries
namespace InvariantProtocol.CompilerTrace
open GoResult DataSchema DataIdentity DataEntries ProtoDescriptor CompilerState DataCompiler
open List hiding map tail

inductive Event where
 | allocate (identity:String) (id:ℤ)
 | enter (identity:String) (container:MessageDescriptor)

inductive Runs : DatasetCompiler → List Event → DatasetCompiler → Prop where
 | refl (c:DatasetCompiler) : Runs c [] c
 | allocate {c u v:DatasetCompiler} {identity:String} {id:ℤ} {events:List Event}
   (h:allocate c identity=.ok (id,u)) (tail:Runs u events v) :
   Runs c (.allocate identity id::events) v
 | enter {c v:DatasetCompiler} {identity:String} {md:MessageDescriptor}
   {events:List Event} (tail:Runs (enter c identity md) events v) :
   Runs c (.enter identity md::events) v

variable {c u v:DatasetCompiler} {identity:String} {events:List Event} {xs ys:List Event} {id:ℤ}
lemma Runs.trans (h:Runs c xs u) (h':Runs u ys v) : Runs c (xs++ys) v := by
 induction h with
 | refl _=>exact h'
 | allocate hs _ ih=>exact .allocate hs (ih h')
 | enter _ ih=>exact .enter (ih h')

lemma runs_nil : Runs c [] v ↔ v=c := by
 constructor
 · intro h
   cases h
   rfl
 · rintro rfl
   exact .refl _

lemma runs_allocate : Runs c (.allocate identity id::events) v ↔
  ∃u,allocate c identity=.ok (id,u) ∧ Runs u events v := by
 constructor
 · intro h
   cases h with
   | allocate hs tail=>exact ⟨_,hs,tail⟩
 · rintro ⟨u,hs,tail⟩
   exact .allocate hs tail

lemma runs_enter {md:MessageDescriptor} :
 Runs c (.enter identity md::events) v ↔ Runs (enter c identity md) events v := by
 constructor
 · intro h
   cases h with
   | enter tail=>exact tail
 · exact .enter

lemma runs_append : Runs c (xs++ys) v ↔ ∃u,Runs c xs u ∧ Runs u ys v := by
 constructor
 · intro h
   induction xs generalizing c with
   | nil=>exact ⟨c,.refl c,h⟩
   | cons x xs ih=>
    cases x with
    | allocate identity id=>
     obtain ⟨w,hw,tail⟩:=runs_allocate.1 h
     obtain ⟨u,hu,hv⟩:=ih tail
     exact ⟨u,.allocate hw hu,hv⟩
    | enter identity md=>
     obtain ⟨u,hu,hv⟩:=ih (runs_enter.1 h)
     exact ⟨u,.enter hu,hv⟩
 · rintro ⟨u,hx,hy⟩
   exact hx.trans hy

/-- The three ways an identity can be given its stable ID. -/
theorem allocate_ok :
 allocate c identity=.ok (id,u) ↔
  identity∉c.currentActive ∧ identity∉c.retired ∧
  (((c.previousActive.lookup identity=some id ∨
    c.previousActive.lookup identity=none ∧ c.firstTopLevelIDs.lookup identity=some id) ∧
   u={ c with currentActive:=c.currentActive.insert identity id }) ∨
  (c.previousActive.lookup identity=none ∧ c.firstTopLevelIDs.lookup identity=none ∧
   c.lastID≠maxStableID ∧ id=c.lastID+1 ∧ id∉c.reservedIDs ∧
   u={ c with
    lastID:=id
    reservedIDs:=c.reservedIDs.insert id identity
    currentActive:=c.currentActive.insert identity id })) := by
 unfold allocate
 by_cases ha : identity∈c.currentActive
 · simp [ha]
 rw [if_neg ha]
 cases hrt : c.retired.lookup identity with
 | some retired=>
  have hm:identity∈c.retired:=by
   rw [←AList.lookup_isSome,hrt]
   rfl
  simp [hm]
 | none=>
  have hm:=AList.lookup_eq_none.1 hrt
  cases hp : c.previousActive.lookup identity with
  | some previous=>
   simp only [Except.ok.injEq,Prod.mk.injEq,ha,hm,not_false_eq_true,true_and,Option.some.injEq,
    reduceCtorEq,false_and,or_false]
   constructor
   · rintro ⟨rfl,rfl⟩
     exact ⟨rfl,rfl⟩
   · rintro ⟨rfl,rfl⟩
     exact ⟨rfl,rfl⟩
  | none=>
   cases hfr : c.firstTopLevelIDs.lookup identity with
   | some first=>
    simp only [Except.ok.injEq,Prod.mk.injEq,ha,hm,not_false_eq_true,true_and,Option.some.injEq,
     reduceCtorEq,false_and,or_false,false_or]
    constructor
    · rintro ⟨rfl,rfl⟩
      exact ⟨rfl,rfl⟩
    · rintro ⟨rfl,rfl⟩
      exact ⟨rfl,rfl⟩
   | none=>
    by_cases hl : c.lastID=maxStableID
    · simp [hl]
    · simp only [hl,if_false]
      cases hr : c.reservedIDs.lookup (c.lastID+1) with
      | some owner=>
       have hin:c.lastID+1∈c.reservedIDs:=by
        rw [←AList.lookup_isSome,hr]
        rfl
       simp only [reduceCtorEq,and_false,or_self,false_and,false_or,false_iff]
       rintro ⟨-,-,-,-,-,rfl,hf,-⟩
       exact hf hin
      | none=>
       have ho:=AList.lookup_eq_none.1 hr
       simp only [Except.ok.injEq,Prod.mk.injEq,ha,hm,not_false_eq_true,true_and,reduceCtorEq,
        or_self,false_and,false_or,hl,ne_eq]
       constructor
       · rintro ⟨rfl,rfl⟩
         exact ⟨rfl,ho,rfl⟩
       · rintro ⟨rfl,-,rfl⟩
         exact ⟨rfl,rfl⟩

lemma Runs.invariant {P:DatasetCompiler → Prop}
 (ha:∀c identity id u,P c → CompilerState.allocate c identity=.ok (id,u) → P u)
 (hen:∀c identity md,P c → P (DataCompiler.enter c identity md)) (run:Runs c events v) (h:P c) : P v := by
 induction run with
 | refl _=>exact h
 | allocate hs _ ih=>exact ih (ha _ _ _ _ h hs)
 | enter _ ih=>exact ih (hen _ _ _ h)

lemma allocate_history (h:allocate c identity=.ok (id,u)) : u.toCompilerHistory=c.toCompilerHistory := by
 obtain ⟨-,-,⟨-,rfl⟩|⟨-,-,-,-,-,rfl⟩⟩:=allocate_ok.1 h
 · rfl
 · rfl

lemma Runs.history (h:Runs c events u) : u.toCompilerHistory=c.toCompilerHistory := by
 induction h with
 | refl _=>rfl
 | allocate hs _ ih=>exact ih.trans (allocate_history hs)
 | enter _ ih=>exact ih

mutual

def fieldTrace (files:Files) (parent:String) : Field → List Event
 | .nil=>[]
 | .mk a t=>
  .allocate (appendIdentity parent (nodeSegment a)) a.stableId ::
   typeTrace files (appendIdentity parent (nodeSegment a)) t

def typeTrace (files:Files) (identity:String) : DataType → List Event
 | .struct p fields=>
  ((files.findMessage p).toList.map (Event.enter identity))++fieldsTrace files identity fields
 | .list _ element _=>fieldTrace files identity element
 | .map _ key value=>fieldTrace files identity key++fieldTrace files identity value
 | _=>[]

def fieldsTrace (files:Files) (identity:String) : List Field → List Event
 | []=>[]
 | field::rest=>fieldTrace files identity field++fieldsTrace files identity rest
end

def allocations (events:List Event) : List (String×ℤ) :=
 events.filterMap fun
  | .allocate identity id=>some (identity,id)
  | .enter _ _=>none

def entered (events:List Event) : List (String×MessageDescriptor) :=
 events.filterMap fun
  | .allocate _ _=>none
  | .enter identity md=>some (identity,md)

lemma fieldsTrace_eq (files:Files) (identity:String) (fields:List Field) :
 fieldsTrace files identity fields=fields.flatMap (fieldTrace files identity) := by
 induction fields with
 | nil=>rfl
 | cons field rest ih=>rw [fieldsTrace,ih,flatMap_cons]

def entryAllocation (entry:String×Field) : String×ℤ :=
 (entry.1,entry.2.attributes.stableId)

lemma allocations_flatMap {α:Type} (f:α → List Event) (xs:List α) :
 allocations (xs.flatMap f)=xs.flatMap fun x=>allocations (f x) := filterMap_flatMap

lemma allocations_typeTrace (files:Files) (identity:String) (t:DataType) :
 allocations (typeTrace files identity t) =
  allocations (t.children.flatMap (fieldTrace files identity)) := by
 cases t <;> simp [typeTrace,DataType.children,fieldsTrace_eq,allocations]

lemma allocations_fieldTrace (files:Files) (parent:String) (field:Field) :
 allocations (fieldTrace files parent field) =
  (fieldEntries parent field).map entryAllocation := by
 induction field using Field.tree_induction generalizing parent with
 | hnil=>rfl
 | hmk a t ih=>
  have ht:allocations (typeTrace files (appendIdentity parent (nodeSegment a)) t) =
    (typeEntries (appendIdentity parent (nodeSegment a)) t).map entryAllocation:=by
   rw [allocations_typeTrace,typeEntries_eq,allocations_flatMap,map_flatMap]
   exact flatMap_congr fun f hf=>ih f hf _
  rw [fieldTrace,fieldEntries,map_cons,←ht]
  rfl

lemma allocations_fieldsTrace (files:Files) (identity:String) (fields:List Field) :
 allocations (fieldsTrace files identity fields) =
  (fieldsEntries identity fields).map entryAllocation := by
 rw [fieldsTrace_eq,fieldsEntries_eq,allocations_flatMap,map_flatMap]
 exact flatMap_congr fun f _=>allocations_fieldTrace files identity f

lemma entered_flatMap {α:Type} (f:α → List Event) (xs:List α) :
 entered (xs.flatMap f)=xs.flatMap fun x=>entered (f x) := filterMap_flatMap

def entryContainer (files:Files) (entry:String×Field) :
  Option (String×MessageDescriptor) :=
 match entry.2.type with
 | .struct p _=>(files.findMessage p).map fun md=>(entry.1,md)
 | _=>none

lemma entered_fieldTrace (files:Files) (parent:String) (field:Field) :
 entered (fieldTrace files parent field) =
  (fieldEntries parent field).filterMap (entryContainer files) := by
 induction field using Field.tree_induction generalizing parent with
 | hnil=>rfl
 | hmk a t ih=>
  have hc:entered (t.children.flatMap (fieldTrace files (appendIdentity parent
    (nodeSegment a))))=(typeEntries (appendIdentity parent (nodeSegment a)) t).filterMap
     (entryContainer files):=by
   rw [entered_flatMap,typeEntries_eq,filterMap_flatMap]
   exact flatMap_congr fun f hf=>ih f hf _
  have ht:entered (typeTrace files (appendIdentity parent (nodeSegment a)) t) =
    (entryContainer files (appendIdentity parent (nodeSegment a),.mk a t)).toList ++
     entered (t.children.flatMap (fieldTrace files (appendIdentity parent (nodeSegment a)))):=by
   cases t with
   | struct p fields=>
    rw [typeTrace,entered,filterMap_append,fieldsTrace_eq]
    simp only [entryContainer,Field.type_mk]
    cases files.findMessage p <;> rfl
   | map p key value=>simp [typeTrace,DataType.children,entryContainer]
   | _=>simp [typeTrace,DataType.children,entryContainer,entered]
  rw [fieldTrace,fieldEntries,filterMap_cons,←hc]
  change entered (typeTrace files (appendIdentity parent (nodeSegment a)) t)=_
  rw [ht]
  cases entryContainer files (appendIdentity parent (nodeSegment a),.mk a t) <;> rfl

lemma entered_fieldsTrace (files:Files) (identity:String) (fields:List Field) :
 entered (fieldsTrace files identity fields) =
  (fieldsEntries identity fields).filterMap (entryContainer files) := by
 rw [fieldsTrace_eq,fieldsEntries_eq,entered_flatMap,filterMap_flatMap]
 exact flatMap_congr fun f _=>entered_fieldTrace files identity f
end InvariantProtocol.CompilerTrace
