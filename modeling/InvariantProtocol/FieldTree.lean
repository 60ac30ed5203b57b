import InvariantProtocol.DataSchema
namespace InvariantProtocol.FieldTree
open DataSchema

/-- `FieldWithin f g`: `g` is `f` or a field below it. -/
inductive FieldWithin : Field → Field → Prop where
 | self (f:Field) : FieldWithin f f
 | child {a:FieldAttributes} {t:DataType} {f g:Field} :
   f∈t.children → FieldWithin f g → FieldWithin (.mk a t) g

variable {P:Field → Prop}
lemma forall_within_nil : (∀g,FieldWithin .nil g → P g) ↔ P .nil := by
 constructor
 · intro h
   exact h _ (.self _)
 · rintro h g hg
   cases hg
   exact h

lemma forall_within_mk {a:FieldAttributes} {t:DataType} : (∀g,FieldWithin (.mk a t) g → P g) ↔
  P (.mk a t) ∧ ∀f∈t.children,∀g,FieldWithin f g → P g := by
 constructor
 · intro h
   exact ⟨h _ (.self _),fun f hf g hg=>h g (.child hf hg)⟩
 · rintro ⟨hs,hc⟩ g hg
   cases hg with
   | self=>exact hs
   | child hf hg=>exact hc _ hf g hg

mutual

def fieldPaths : Field → String → List String
 | .nil,_=>[]
 | .mk _ t,path=>path::typePaths t path

def typePaths : DataType → String → List String
 | .struct _ fields,path=>structPaths path fields
 | .list _ element _,path=>fieldPaths element (path++"[]")
 | .map _ key value,path=>fieldPaths key (path++".key")++fieldPaths value (path++".value")
 | _,_=>[]

def structPaths (path:String) : List Field → List String
 | []=>[]
 | child::rest=>
  fieldPaths child (path++"."++child.attributes.name)++structPaths path rest
end

def datasetPaths (dataset:DatasetSchema) : List String :=
 dataset.fields.flatMap fun field=>fieldPaths field field.attributes.name

lemma structPaths_eq (path:String) (fields:List Field) : structPaths path fields =
  fields.flatMap fun f=>fieldPaths f (path++"."++f.attributes.name) := by
 induction fields with
 | nil=>rfl
 | cons f rest ih=>rw [structPaths,ih,List.flatMap_cons]
end InvariantProtocol.FieldTree
