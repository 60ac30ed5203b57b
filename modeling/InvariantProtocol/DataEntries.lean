import InvariantProtocol.DataIdentity
namespace InvariantProtocol.DataEntries
open List DataSchema DataIdentity

def nodeSegment (a:FieldAttributes) : String :=
 match a.syntheticRole with
 | .protoField=>fieldIdentitySegment (a.protoNumberPath.getLastD 0).toInt32
 | .listElement=>"list:element"
 | .mapKey=>"map:key"
 | .mapValue=>"map:value"
 | _=>""

lemma nodeSegment_slash (a:FieldAttributes) : '/' ∉ (nodeSegment a).toList := by
 unfold nodeSegment
 cases a.syntheticRole with
 | protoField=>exact fieldIdentitySegment_slash _
 | listElement=>exact (by decide : '/' ∉ "list:element".toList)
 | mapKey=>exact (by decide : '/' ∉ "map:key".toList)
 | mapValue=>exact (by decide : '/' ∉ "map:value".toList)
 | unspecified=>simp
 | unrecognized number=>simp

mutual

def fieldEntries (parent:String) : Field → List (String×Field)
 | .nil=>[]
 | .mk a t=>
  (appendIdentity parent (nodeSegment a),.mk a t) ::
   typeEntries (appendIdentity parent (nodeSegment a)) t

def typeEntries (identity:String) : DataType → List (String×Field)
 | .struct _ fields=>fieldsEntries identity fields
 | .list _ element _=>fieldEntries identity element
 | .map _ key value=>fieldEntries identity key++fieldEntries identity value
 | _=>[]

def fieldsEntries (identity:String) : List Field → List (String×Field)
 | []=>[]
 | field::rest=>fieldEntries identity field++fieldsEntries identity rest
end

lemma fieldsEntries_eq (identity:String) (fields:List Field) :
 fieldsEntries identity fields=fields.flatMap (fieldEntries identity) := by
 induction fields with
 | nil=>rfl
 | cons field rest ih=>rw [fieldsEntries,ih,flatMap_cons]

lemma typeEntries_eq (identity:String) (t:DataType) :
 typeEntries identity t=t.children.flatMap (fieldEntries identity) := by
 cases t <;> simp [typeEntries,DataType.children,fieldsEntries_eq]

variable {parent identity:String} {a:FieldAttributes} {r:RetiredField}
lemma fieldEntries_parent {field:Field} {entry:String×Field} (h:entry∈fieldEntries parent field) :
 entry=(appendIdentity parent (nodeSegment field.attributes),field) ∨
  ∃identity g,(identity,g)∈fieldEntries parent field ∧ entry.2∈g.type.children ∧
   entry.1=appendIdentity identity (nodeSegment entry.2.attributes) := by
 induction field using Field.tree_induction generalizing parent with
 | hnil=>simp [fieldEntries] at h
 | hmk a t ih=>
  rw [fieldEntries,typeEntries_eq,mem_cons,mem_flatMap] at h
  obtain rfl|⟨child,hc,h⟩:=h
  · exact Or.inl rfl
  · right
    obtain rfl|⟨identity,g,hg,hm,hi⟩:=ih child hc h
    · refine ⟨_,.mk a t,?_,hc,rfl⟩
      rw [fieldEntries]
      exact mem_cons_self
    · refine ⟨identity,g,?_,hm,hi⟩
      rw [fieldEntries,typeEntries_eq]
      exact mem_cons_of_mem _ (List.mem_flatMap.2 ⟨child,hc,hg⟩)

lemma fieldEntries_child {field g:Field} (h:(identity,g)∈fieldEntries parent field) {t:DataType}
 (hc:DataSchema.Field.mk a t∈g.type.children) :
 (appendIdentity identity (nodeSegment a),DataSchema.Field.mk a t) ∈ fieldEntries parent field := by
 induction field using Field.tree_induction generalizing parent with
 | hnil=>simp [fieldEntries] at h
 | hmk b u ih=>
  rw [fieldEntries,typeEntries_eq,mem_cons,mem_flatMap] at h ⊢
  right
  obtain heq|⟨child,hm,h⟩:=h
  · obtain ⟨rfl,rfl⟩:=Prod.mk.inj heq
    refine ⟨_,hc,?_⟩
    rw [fieldEntries]
    exact mem_cons_self
  · exact ⟨child,hm,ih child hm h⟩

def activeEntries (d:DatasetSchema) : List (String×Field):=fieldsEntries "" d.fields

variable {d:DatasetSchema}
lemma activeEntries_parent {entry:String×Field} (h:entry∈activeEntries d) :
 (entry.2∈d.fields ∧ entry.1=appendIdentity "" (nodeSegment entry.2.attributes)) ∨
  ∃identity g,(identity,g)∈activeEntries d ∧ entry.2∈g.type.children ∧
   entry.1=appendIdentity identity (nodeSegment entry.2.attributes) := by
 rw [activeEntries,fieldsEntries_eq,mem_flatMap] at h
 obtain ⟨field,hf,h⟩:=h
 obtain rfl|⟨identity,g,hg,hm,hi⟩:=fieldEntries_parent h
 · exact Or.inl ⟨hf,rfl⟩
 · refine Or.inr ⟨identity,g,?_,hm,hi⟩
   rw [activeEntries,fieldsEntries_eq]
   exact List.mem_flatMap.2 ⟨field,hf,hg⟩

lemma activeEntries_child {g:Field} (h:(identity,g)∈activeEntries d) {t:DataType}
 (hc:DataSchema.Field.mk a t∈g.type.children) :
 (appendIdentity identity (nodeSegment a),DataSchema.Field.mk a t)∈activeEntries d := by
 rw [activeEntries,fieldsEntries_eq,mem_flatMap] at h ⊢
 obtain ⟨field,hf,h⟩:=h
 exact ⟨field,hf,fieldEntries_child h hc⟩

def recordOf (identity:String) (field:Field) : RetiredField where
 identity:=identity
 stableId:=field.attributes.stableId
 protoFullName:=field.attributes.protoFullName
 name:=field.attributes.name
 storageNameSource:=field.attributes.storageNameSource

def entryRecord (entry:String×Field) : RetiredField:=recordOf entry.1 entry.2

def activeRecords (d:DatasetSchema) : List RetiredField:=(activeEntries d).map entryRecord

def records (d:DatasetSchema) : List RetiredField:=d.retiredFields++activeRecords d

lemma mem_activeRecords :
 r∈activeRecords d ↔ ∃field,(r.identity,field)∈activeEntries d ∧ r=recordOf r.identity field := by
 simp only [activeRecords,mem_map]
 constructor
 · rintro ⟨⟨identity,field⟩,hm,rfl⟩
   exact ⟨field,hm,rfl⟩
 · rintro ⟨field,hm,hr⟩
   exact ⟨(r.identity,field),hm,hr.symm⟩

lemma mem_records :
 r∈records d ↔ r∈d.retiredFields ∨ r∈activeRecords d := mem_append
end InvariantProtocol.DataEntries
